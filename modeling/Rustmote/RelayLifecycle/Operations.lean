import Rustmote.RelayLifecycle.Internals

/-!
# Bootstrap, check-updates, update, status

The four operations of `RelayLifecycle`. A long operation is cut where the source marks its
steps: `bootstrap` into what it does with an install it finds and with a fresh host, `update`
into the backup, the files it writes, and how it ends.
-/

namespace Rustmote

open Interaction (Prog)

/-- `BootstrapOptions`. -/
structure BootstrapOptions where
  installPath : PathBuf
  composeTemplate : Str
  envContents : Str
  repo : Str
  tag : Str
  services : List Str
  rustmoteVersion : Str
  osHint : Option OsKind

/-- `BootstrapReport`. -/
structure BootstrapReport where
  installPath : PathBuf
  state : RelayState
  relayPublicKey : Option Str
  alreadyInstalled : Bool
  detectedOs : OsKind

/-- `ImageUpdate`. -/
structure ImageUpdate where
  service : Str
  repo : Str
  currentTag : Str
  currentDigest : Str
  latestTag : Str
  latestDigest : Str

/-- `ImageUpdate::update_available`. -/
def ImageUpdate.updateAvailable (u : ImageUpdate) : Bool := u.currentDigest ≠ u.latestDigest

/-- The pin that an update installs. -/
def ImageUpdate.newPin (now : DateTime) (u : ImageUpdate) : ImagePin :=
  ⟨u.service, u.repo, u.latestTag, u.latestDigest, now⟩

/-- `CheckUpdatesReport`. -/
structure CheckUpdatesReport where
  installPath : PathBuf
  images : List ImageUpdate

/-- `CheckUpdatesReport::any_update_available`. -/
def CheckUpdatesReport.anyUpdateAvailable (report : CheckUpdatesReport) : Bool :=
  report.images.any ImageUpdate.updateAvailable

/-- `UpdateOptions`. -/
structure UpdateOptions where
  installPath : PathBuf
  composeTemplate : Str
  assumeYes : Bool
  isTty : Bool
  skipBackup : Bool

/-- `UpdateReport`. -/
structure UpdateReport where
  installPath : PathBuf
  changed : Bool
  newState : RelayState
  backupDir : Option PathBuf
  rolledBack : Bool
  gcDeleted : List PathBuf

/-- `StatusReport`. -/
structure StatusReport where
  installPath : PathBuf
  state : RelayState
  containers : List ContainerStatus
  relayPublicKey : Option Str

namespace RelayLifecycle

variable (self : RelayLifecycle)

/-! ### Bootstrap -/

/-- The branch of `bootstrap` that finds the install directory. -/
def bootstrapExisting (opts : BootstrapOptions) (detectedOs : OsKind) :
    Relay BootstrapReport := do
  if ← pathExists (statePath opts.installPath) false then
    let state ← self.readState (statePath opts.installPath)
    let relayPublicKey ← publicKey opts.installPath
    return {
      installPath := opts.installPath
      state := state
      relayPublicKey := relayPublicKey
      alreadyInstalled := true
      detectedOs := detectedOs }
  else .fail (.relayForeignInstall opts.installPath)

/-- The loop of `bootstrap` that resolves a digest for every service. -/
def resolvePins (repo tag : Str) (now : DateTime) : List Str → Relay (List ImagePin)
  | [] => return []
  | service :: services => do
    let digest ← resolveDigest repo tag
    let pins ← resolvePins repo tag now services
    return ⟨service, repo, tag, digest, now⟩ :: pins

/-- The directories and files of a fresh install. -/
def layOut (opts : BootstrapOptions) (compose : Str) (state : RelayState) : Relay Unit := do
  let _ ← execBuilt (Commands.mkdirP opts.installPath)
  let _ ← execBuilt (Commands.mkdirP (dataPath opts.installPath))
  let _ ← execBuilt (Commands.mkdirP (backupsPath opts.installPath))
  let _ ← execBuilt (Commands.writeFile (composePath opts.installPath) (Utf8.encode compose))
  let _ ← execBuilt (Commands.writeFile (envPath opts.installPath) (Utf8.encode opts.envContents))
  let text ← state.toTomlString self.toml
  let _ ← execBuilt (Commands.writeFile (statePath opts.installPath) (Utf8.encode text))
  return

/-- `bootstrap` of a fresh host behind the renderer: the files, the containers, the health
check. -/
def settle (opts : BootstrapOptions) (detectedOs : OsKind) (now : DateTime) (pins : List ImagePin)
    (compose : Str) : Relay BootstrapReport := do
  let state := RelayState.newBootstrap now opts.rustmoteVersion pins
  self.layOut opts compose state
  let _ ← execBuilt (Commands.composeUp opts.installPath)
  self.healthCheck [hbbsPort, hbbrPort]
  let relayPublicKey ← publicKey opts.installPath
  return {
    installPath := opts.installPath
    state := state
    relayPublicKey := relayPublicKey
    alreadyInstalled := false
    detectedOs := detectedOs }

/-- The branch of `bootstrap` for a fresh host. -/
def bootstrapFresh (opts : BootstrapOptions) (detectedOs : OsKind) : Relay BootstrapReport := do
  let now ← now
  let pins ← resolvePins opts.repo opts.tag now opts.services
  let compose ← renderComposeWithPins opts.composeTemplate pins
  self.settle opts detectedOs now pins compose

/-- The operating system: the hint, or what the host says. -/
def osOf (hint : Option OsKind) : Relay OsKind :=
  match hint with
  | some os => return os
  | none => detectOs

/-- `bootstrap`. -/
def bootstrap (opts : BootstrapOptions) : Relay BootstrapReport := do
  let detectedOs ← osOf opts.osHint
  ensureDockerStack
  if ← pathExists opts.installPath true then self.bootstrapExisting opts detectedOs
  else self.bootstrapFresh opts detectedOs

/-! ### Check for updates -/

/-- The loop of `check_updates`. -/
def checkImages : List ImagePin → Relay (List ImageUpdate)
  | [] => return []
  | pin :: pins => do
    let tags ← listTags pin.repo
    let latestTag := (pickLatestSemver tags).getD pin.tag
    let latestDigest ← resolveDigest pin.repo latestTag
    let updates ← checkImages pins
    return ⟨pin.service, pin.repo, pin.tag, pin.digest, latestTag, latestDigest⟩ :: updates

/-- `check_updates`. -/
def checkUpdates (installPath : PathBuf) : Relay CheckUpdatesReport := do
  let state ← self.loadState installPath
  let images ← checkImages state.images
  return ⟨installPath, images⟩

/-! ### Update -/

/-- The snapshot of `docker compose config`, if there is one. -/
def snapshotConfig (installPath dir : PathBuf) : Relay Unit := do
  let cmd ← Commands.composeConfig installPath
  let cfg ← exec cmd
  if cfg.exitCode = 0 then
    let _ ← execBuilt (Commands.writeFile (posixJoin dir "compose-config.yml".toList) cfg.stdout)
    return
  else return

/-- Step 2 of `update`: the backup. -/
def backup (installPath : PathBuf) (now : DateTime) : Relay PathBuf := do
  let dir := backupDirFor installPath now
  let _ ← execBuilt (Commands.mkdirP dir)
  let _ ← execBuilt (Commands.copyFile (composePath installPath) (posixJoin dir composeName))
  let _ ← execBuilt (Commands.copyFile (statePath installPath) (posixJoin dir stateName))
  snapshotConfig installPath dir
  return dir

/-- Step 2 of `update`, unless it is skipped. -/
def backupUnlessSkipped (opts : UpdateOptions) (now : DateTime) : Relay (Option PathBuf) := do
  if opts.skipBackup then return none
  else return some (← backup opts.installPath now)

/-- Step 3 of `update`, before it writes: the new state and the new compose file. -/
def prepare (opts : UpdateOptions) (report : CheckUpdatesReport) (now : DateTime) :
    Relay (RelayState × Str) := do
  let newPins := report.images.map (ImageUpdate.newPin now)
  let state ← self.loadState opts.installPath
  let newState := state.applyUpdate newPins now
  let newCompose ← renderComposeWithPins opts.composeTemplate newPins
  return (newState, newCompose)

/-- Step 3 of `update`: write both files, pull, up. -/
def install (installPath : PathBuf) (newState : RelayState) (newCompose : Str) : Relay Unit := do
  let _ ← execBuilt (Commands.writeFile (composePath installPath) (Utf8.encode newCompose))
  let text ← newState.toTomlString self.toml
  let _ ← execBuilt (Commands.writeFile (statePath installPath) (Utf8.encode text))
  let _ ← execBuilt (Commands.composePull installPath)
  let _ ← execBuilt (Commands.composeUp installPath)
  return

/-- Steps 4 and 5 of `update`: the health check, the rollback when it fails, and the removal of
old backups. -/
def conclude (opts : UpdateOptions) (now : DateTime) (backupDir : Option PathBuf)
    (newState : RelayState) : Relay UpdateReport := do
  match ← (self.healthCheck [hbbsPort, hbbrPort]).attempt with
  | .error e =>
    match backupDir with
    | some dir =>
      self.rollback opts.installPath dir
      .fail .relayHealthCheckFailed
    | none => .fail e
  | .ok _ =>
    let gcDeleted ← gcBackups opts.installPath now
    return {
      installPath := opts.installPath
      changed := true
      newState := newState
      backupDir := backupDir
      rolledBack := false
      gcDeleted := gcDeleted }

/-- `update` from step 2 on, when there is something to update. -/
def applyUpdates (opts : UpdateOptions) (report : CheckUpdatesReport) : Relay UpdateReport := do
  let now ← now
  let backupDir ← backupUnlessSkipped opts now
  let (newState, newCompose) ← self.prepare opts report now
  self.install opts.installPath newState newCompose
  self.conclude opts now backupDir newState

/-- `update`. -/
def update (opts : UpdateOptions) : Relay UpdateReport := do
  if !opts.assumeYes && !opts.isTty then .fail .relayUpdateNotConfirmed
  else
    let report ← self.checkUpdates opts.installPath
    if !report.anyUpdateAvailable then
      let state ← self.loadState opts.installPath
      return {
        installPath := opts.installPath
        changed := false
        newState := state
        backupDir := none
        rolledBack := false
        gcDeleted := [] }
    else self.applyUpdates opts report

/-! ### Status -/

/-- `status`. -/
def status (installPath : PathBuf) : Relay StatusReport := do
  let state ← self.loadState installPath
  let cmd ← Commands.composePsJson installPath
  let ps ← exec cmd
  let containers := if ps.exitCode = 0 then parseComposePsJson self.json ps.stdoutString else []
  let relayPublicKey ← publicKey installPath
  return ⟨installPath, state, containers, relayPublicKey⟩

end RelayLifecycle

end Rustmote
