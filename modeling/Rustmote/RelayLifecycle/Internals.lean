import Mathlib.Data.List.Sort
import Rustmote.Foundations.Interaction
import Rustmote.RelayLifecycle.Paths
import Rustmote.RelayLifecycle.Render
import Rustmote.Session.Exec

/-!
# Inside the orchestrator

What `RelayLifecycle` asks of the world, and the private methods of `relay_lifecycle/mod.rs`
that the four operations are made of: running a command, looking for a path, reading a file,
the state file, the operating system, Docker, the health check, the rollback and the removal
of old backups.

Time is asked for: `now` is the injected clock, `instant` and `sleep` are tokio's. The loop of
the health check ends when a deadline has passed, so it is a loop with a bound here; that the
bound is not reached is proved where the world's time is known.
-/

namespace Rustmote

open Interaction (Prog)

/-- What the orchestrator asks. -/
inductive Request where
  /-- `RemoteExec::exec`. -/
  | exec (command : Str)
  /-- `RegistryClient::list_tags`. -/
  | listTags (repo : Str)
  /-- `RegistryClient::resolve_digest`. -/
  | resolveDigest (repo tag : Str)
  /-- The clock of the orchestrator. -/
  | now
  /-- `tokio::time::Instant::now`. -/
  | instant
  /-- `tokio::time::sleep`. -/
  | sleep (duration : Nat)
  deriving DecidableEq

/-- What it is answered. -/
abbrev Request.Reply : Request → Type
  | .exec _ => Except TransportError ExecOutput
  | .listTags _ => Except RegistryError (List Str)
  | .resolveDigest _ _ => Except RegistryError Str
  | .now => DateTime
  | .instant => Nat
  | .sleep _ => Unit

/-- A program of the orchestrator. -/
abbrev Relay := Prog Request.Reply RustmoteError

/-- A request of the orchestrator with its reply. -/
abbrev Event := Interaction.Event Request.Reply

/-- `RelayLifecycle`: its settings and what it is built on. -/
structure RelayLifecycle where
  healthCheckTimeout : Nat
  healthCheckInterval : Nat
  /-- The bound on the rounds of a health check. -/
  rounds : Nat
  /-- The `toml` crate. -/
  toml : Toml
  /-- `serde_json::from_str`. -/
  json : Str → Option JsonValue

/-- `DEFAULT_INSTALL_PATH`. -/
def defaultInstallPath : Str := "/opt/rustmote-relay".toList

/-- `HBBS_PORT`. -/
def hbbsPort : Nat := 21116

/-- `HBBR_PORT`. -/
def hbbrPort : Nat := 21117

/-- `BACKUP_RETENTION_DAYS`. -/
def backupRetentionDays : Int := 7

/-- `MIN_RETAINED_BACKUPS`. -/
def minRetainedBackups : Nat := 3

namespace RelayLifecycle

/-! ### Asking -/

/-- Ask, and return the reply. -/
def ask (q : Request) : Relay q.Reply := Prog.request q

/-- `self.transport.exec`. -/
def exec (command : Str) : Relay ExecOutput := do
  let reply ← ask (.exec command)
  Except.mapError TransportError.toError reply

/-- `registry.list_tags`. -/
def listTags (repo : Str) : Relay (List Str) := do
  let reply ← ask (.listTags repo)
  Except.mapError RegistryError.toError reply

/-- `registry.resolve_digest`. -/
def resolveDigest (repo tag : Str) : Relay Str := do
  let reply ← ask (.resolveDigest repo tag)
  Except.mapError RegistryError.toError reply

/-- `now`. -/
def now : Relay DateTime := ask .now

/-- `exec_ok`. -/
def execOk (command : Str) : Relay ExecOutput := do
  let out ← exec command
  out.okFor command

/-- `self.exec_ok(command?)`, for a command that a builder returns. -/
def execBuilt (command : Except RustmoteError Str) : Relay ExecOutput := do
  execOk (← command)

/-! ### Files and state -/

/-- `path_exists`. -/
def pathExists (path : PathBuf) (directory : Bool) : Relay Bool := do
  let cmd ← if directory then Commands.testDirExists path else Commands.testFileExists path
  let out ← exec cmd
  return out.exitCode = 0

/-- `read_file`. -/
def readFile (path : PathBuf) : Relay ExecOutput := execBuilt (Commands.catFile path)

/-- `read_public_key`. -/
def readPublicKey (installPath : PathBuf) : Relay Str := do
  let out ← readFile (posixJoin (dataPath installPath) "id_ed25519.pub".toList)
  return Text.trim out.stdoutString

/-- `self.read_public_key(..).await.ok()`. -/
def publicKey (installPath : PathBuf) : Relay (Option Str) := do
  let key ← (readPublicKey installPath).attempt
  return key.toOption

variable (self : RelayLifecycle)

/-- Read a state file and parse it. -/
def readState (path : PathBuf) : Relay RelayState := do
  let raw ← readFile path
  RelayState.fromTomlStr self.toml raw.stdoutString path.toStringLossy

/-- `load_state`. -/
def loadState (installPath : PathBuf) : Relay RelayState := do
  let path := statePath installPath
  if ← pathExists path false then self.readState path
  else .fail (.relayNotInstalled installPath.toStringLossy)

/-! ### The host -/

/-- `detect_os`. -/
def detectOs : Relay OsKind := do
  let out ← execOk Commands.readOsRelease
  match parseOsRelease out.stdoutString with
  | some os => return os
  | none => .fail (.relayUnsupportedOs "no recognized ID in /etc/os-release".toList)

/-- `ensure_docker_stack`. -/
def ensureDockerStack : Relay Unit := do
  let dockerPresent ← exec Commands.checkDockerPresent
  if dockerPresent.exitCode ≠ 0 then .fail .dockerEngineNotInstalled
  else
    let v2 ← exec Commands.checkDockerComposeV2
    if v2.exitCode ≠ 0 then
      let v1 ← exec Commands.checkDockerComposeV1
      if v1.exitCode = 0 then .fail .dockerComposeV1Detected
      else .fail .dockerEngineNotInstalled
    else return

/-! ### Health -/

/-- One round of `health_check`: whether all ports answered. -/
def probeRound : List Nat → Relay Bool
  | [] => return true
  | p :: ports => do
    let out ← exec (Commands.tcpProbe p)
    if out.exitCode ≠ 0 then return false
    else probeRound ports

/-- The loop of `health_check`, for at most so many rounds. -/
def healthLoop (ports : List Nat) (deadline : Nat) : Nat → Relay Unit
  | 0 => .cut
  | rounds + 1 => do
    if ← probeRound ports then return
    else
      if (← ask .instant) ≥ deadline then .fail .relayHealthCheckFailed
      else
        let _ ← ask (.sleep self.healthCheckInterval)
        healthLoop ports deadline rounds

/-- `health_check`. -/
def healthCheck (ports : List Nat) : Relay Unit := do
  let start ← ask .instant
  self.healthLoop ports (start + self.healthCheckTimeout) self.rounds

/-- `rollback`. -/
def rollback (installPath backupDir : PathBuf) : Relay Unit := do
  let _ ← execBuilt (Commands.copyFile (posixJoin backupDir composeName) (composePath installPath))
  let _ ← execBuilt (Commands.copyFile (posixJoin backupDir stateName) (statePath installPath))
  let _ ← execBuilt (Commands.composeUp installPath)
  self.healthCheck [hbbsPort, hbbrPort]

/-! ### Old backups -/

/-- The listing command of `gc_backups`. -/
def findBackups (backups : PathBuf) : Except RustmoteError Str := do
  let p ← Commands.validateRemotePath backups
  return "find ".toList ++ p ++ " -mindepth 1 -maxdepth 1 -type d -name ".toList ++
    Commands.quote ++ "pre-update-*".toList ++ Commands.quote ++ " -printf ".toList ++
    Commands.quote ++ "%T@\\t%p\\n".toList ++ Commands.quote

/-- A line of the listing: the time of the last change and the path. -/
def backupEntry (line : Str) : Option (Int × PathBuf) := do
  let (ts, path) ← Text.splitOnce '\t' line
  let epoch ← Text.parseI64 (← (ts.splitOn '.').head?)
  some (epoch, .fromStr path)

/-- The entries of a listing, newest first. -/
def backupEntries (listing : Str) : List (Int × PathBuf) :=
  ((Text.lines listing).filterMap backupEntry).insertionSort fun a b => b.1 ≤ a.1

/-- The entries that are removed: those behind the retained ones that are too old. -/
def staleBackups (now : DateTime) (listing : Str) : List PathBuf :=
  let cutoff := now.timestamp - backupRetentionDays * 24 * 3600
  (((backupEntries listing).drop minRetainedBackups).filter fun e => e.1 < cutoff).map Prod.snd

/-- The loop of `gc_backups`, over the entries it does not pass over. -/
def removeBackups : List PathBuf → Relay (List PathBuf)
  | [] => return []
  | path :: paths => do
    let p ← Commands.validateRemotePath path
    let _ ← execOk ("rm -rf ".toList ++ p)
    let deleted ← removeBackups paths
    return path :: deleted

/-- `gc_backups`. -/
def gcBackups (installPath : PathBuf) (now : DateTime) : Relay (List PathBuf) := do
  let cmd ← findBackups (backupsPath installPath)
  let out ← exec cmd
  if out.exitCode ≠ 0 then return []
  else removeBackups (staleBackups now out.stdoutString)

end RelayLifecycle

end Rustmote
