import Rustmote.Config.Registry

/-!
# The commands that change the config

`server add`, `server remove`, `target add`, `target remove`, `config set-mode` and `connect`, as
`rustmote-cli` runs them. Each does something before it loads the config (checks of its
arguments), then edits what it loaded, then saves, if there is something to save; `connect` goes
on behind the save with the viewer. So a command is `prepare`, which gives the edit, and `run` is
its course on a file.

`Edits` says what the edit of each command can be, and is what every proof about the commands
goes by.
-/

namespace Rustmote

/-- An `anyhow::Error`: an error of the library with its context, one of another crate, or a
message of the command's own. -/
inductive CliError where
  | library (context : Str) (source : RustmoteError)
  | other (context source : Str)
  | message (text : Str)
  deriving DecidableEq

/-- `context`, on a result of the library. -/
def orContext {α : Type} (result : Except RustmoteError α) (context : Str) : Except CliError α :=
  result.mapError (.library context)

/-- `ConnectArgs`. -/
structure ConnectArgs where
  target : Str
  via : Option Str
  user : Option Str

/-- What a run of `connect` meets outside of the config. -/
structure ConnectRun where
  /-- From `resolve_password` to where a new pin has been saved, for the effective server. -/
  tunnel : RemoteServer → TargetId → Except CliError Unit
  /-- `Utc::now`, behind it. -/
  now : DateTime
  /-- The viewer, and the end of the session. -/
  viewer : Except CliError Unit

/-- A command with its arguments, and with what it meets outside of the config. -/
inductive CliCommand where
  /-- `terminal` is what the prompt for a user gives, if there is a terminal. -/
  | serverAdd (name : Str) (host : IpAddr) (user : Option Str) (sshPort relayPort : Nat)
      (terminal : Option (Except Str Str)) (now : DateTime)
  | serverRemove (name : Str)
  | targetAdd (id : Str) (label via : Option Str)
  | targetRemove (id : Str)
  | setMode (mode : Str) (ackUnsafe : Bool)
  | connect (args : ConnectArgs) (met : ConnectRun)

/-- What a command makes of a config. -/
structure Edit where
  /-- The config it saves, if it saves one. -/
  save : Option Config
  /-- What comes behind the save. -/
  after : Except CliError Unit

/-- An edit that saves, and nothing behind it. -/
def Edit.saving (cfg : Config) : Edit := ⟨some cfg, .ok ()⟩

namespace Cli

/-! ### `server` -/

/-- `resolve_user`. -/
def resolveUser (user : Option Str) (terminal : Option (Except Str Str)) : Except CliError Str :=
  match user with
  | some user => .ok user
  | none =>
    match terminal with
    | some (.ok input) => .ok input
    | some (.error e) => .error (.other "reading SSH username from prompt".toList e)
    | none =>
      .error (.message "--user is required when stdin is not a TTY (pass --user <name>)".toList)

/-- `run_add` of `server`. -/
def serverAdd (name : Str) (host : IpAddr) (user : Option Str) (sshPort relayPort : Nat)
    (terminal : Option (Except Str Str)) (now : DateTime) :
    Except CliError (Config → Except CliError Edit) := do
  orContext (RemoteServer.validateName name) "validating server name against spec §6.4".toList
  let user ← resolveUser user terminal
  return fun cfg => do
    let server := RemoteServer.new name host user sshPort relayPort now
    let cfg ← orContext (cfg.addServer server) "adding server to registry".toList
    return .saving cfg

/-- `run_remove` of `server`. -/
def serverRemove (name : Str) : Except CliError (Config → Except CliError Edit) :=
  return fun cfg => do
    let (_, cfg) ← orContext (cfg.removeServer name) "removing server".toList
    return .saving cfg

/-! ### `target` -/

/-- `run_add` of `target`. -/
def targetAdd (id : Str) (label via : Option Str) :
    Except CliError (Config → Except CliError Edit) := do
  let _ ← orContext (TargetId.new id) "validating target id against spec §3.5".toList
  return fun cfg => do
    match via with
    | some server =>
      let _ ← orContext (cfg.getServer server)
        ("--via '".toList ++ server ++ "' is not in the registry".toList)
    | none => pure ()
    let target : Target := ⟨id, none, label, via, none⟩
    let cfg ← orContext (cfg.addTarget target) "adding target to registry".toList
    return .saving cfg

/-- `run_remove` of `target`. -/
def targetRemove (id : Str) : Except CliError (Config → Except CliError Edit) :=
  return fun cfg => do
    let (_, cfg) ← orContext (cfg.removeTarget id) "removing target".toList
    return .saving cfg

/-! ### `config set-mode` -/

/-- `parse_and_gate_mode`. -/
def parseAndGateMode (mode : Str) (ackUnsafe : Bool) : Except CliError CredentialMode := do
  let parsed ← match CredentialMode.fromStr mode with
    | .ok parsed => pure parsed
    | .error unknown =>
      .error (.other
        ("'".toList ++ mode ++
          "' is not a valid credential mode (expected: prompt | keychain | unsafe)".toList)
        ("unknown credential mode '".toList ++ unknown ++
          "'; expected one of: prompt | keychain | unsafe".toList))
  if parsed = .unsafeMode ∧ ackUnsafe = false then
    .error (.message ("refusing to enable unsafe mode without --i-understand-this-is-insecure " ++
      "(spec §6.2). Unsafe mode stores plaintext SSH passwords in " ++
      "$CONFIG/rustmote/credentials.toml with mode 0600 and logs a warning on every access. " ++
      "Prefer 'keychain' where available.").toList)
  else return parsed

/-- `apply_mode`: the config, if there is a transition to save. -/
def applyMode (cfg : Config) (new : CredentialMode) : Option Config :=
  if cfg.general.credentialMode = new then none
  else some { cfg with general := { cfg.general with credentialMode := new } }

/-- `ConfigCmd::SetMode`. -/
def setMode (mode : Str) (ackUnsafe : Bool) : Except CliError (Config → Except CliError Edit) := do
  let parsed ← parseAndGateMode mode ackUnsafe
  return fun cfg => return ⟨applyMode cfg parsed, .ok ()⟩

/-! ### `connect` -/

/-- `resolve_target`. -/
def resolveTarget (cfg : Config) (arg : Str) : Except CliError (TargetId × Option Target) :=
  match cfg.getTarget arg with
  | .ok t => do
    let id ← orContext (TargetId.new t.id)
      ("target '".toList ++ arg ++ "' has stored id '".toList ++ t.id ++
        "' that fails spec §3.5".toList)
    return (id, some t)
  | .error _ =>
    match cfg.targets.find? fun t => t.label = some arg with
    | some t => do
      let id ← orContext (TargetId.new t.id)
        ("target with label '".toList ++ arg ++ "' has stored id '".toList ++ t.id ++
          "' that fails spec §3.5".toList)
      return (id, some t)
    | none => do
      let id ← orContext (TargetId.new arg)
        ("'".toList ++ arg ++
          "' is neither a registered target id/label nor a valid RustDesk ID (spec §3.5)".toList)
      return (id, none)

/-- `resolve_via_name`. -/
def resolveViaName (viaCli : Option Str) (matched : Option Target) (cfg : Config) :
    Except CliError Str :=
  match viaCli with
  | some via => .ok via
  | none =>
    match matched.bind (·.viaServer) with
    | some via => .ok via
    | none =>
      match cfg.general.defaultServer with
      | some server => .ok server
      | none =>
        .error (.message ("no relay server resolved: pass --via <server>, set target.via_server, " ++
          "or set general.default_server").toList)

/-- The context of `get_server` in `connect`. -/
def relayContext (via : Str) : Str := "resolving relay server '".toList ++ via ++ "'".toList

/-- `run` of `connect`. The tunnel is opened for a copy of the server, with the user of the
arguments; what is stamped is the entry of the registry. -/
def connect (args : ConnectArgs) (met : ConnectRun) :
    Except CliError (Config → Except CliError Edit) :=
  return fun cfg => do
    let (targetId, matched) ← resolveTarget cfg args.target
    let viaName ← resolveViaName args.via matched cfg
    let server ← orContext (cfg.getServer viaName) (relayContext viaName)
    let effective := match args.user with
      | some user => { server with sshUser := user }
      | none => server
    met.tunnel effective targetId
    let cfg ← orContext (cfg.updateServer viaName fun s => { s with lastUsed := some met.now })
      "updating server last_used".toList
    return ⟨some cfg, met.viewer⟩

/-! ### A run -/

/-- What a command does before it loads the config, and the edit it then makes. -/
def prepare : CliCommand → Except CliError (Config → Except CliError Edit)
  | .serverAdd name host user sshPort relayPort terminal now =>
    serverAdd name host user sshPort relayPort terminal now
  | .serverRemove name => serverRemove name
  | .targetAdd id label via => targetAdd id label via
  | .targetRemove id => targetRemove id
  | .setMode mode ackUnsafe => setMode mode ackUnsafe
  | .connect args met => connect args met

/-- `Config::load`, in a command. -/
def load (toml : TomlFormat Config) (path : PathBuf) (file : Option Str) : Except CliError Config :=
  orContext (Config.loadFrom toml path file) "loading config".toList

/-- What a command computes from the file: the edit, or its failure. -/
def edit (toml : TomlFormat Config) (path : PathBuf) (command : CliCommand) (file : Option Str) :
    Except CliError Edit := do
  let act ← prepare command
  let cfg ← load toml path file
  act cfg

/-- The context of the save of a command. -/
def saveContext : CliCommand → Str
  | .connect _ _ => "saving config after connect".toList
  | _ => "saving config".toList

/-- A command on its own: its result, and the config file behind it. -/
def run (toml : TomlFormat Config) (path : PathBuf) (command : CliCommand) (file : Option Str) :
    Except CliError Unit × Option Str :=
  match edit toml path command file with
  | .error e => (.error e, file)
  | .ok ⟨none, after⟩ => (after, file)
  | .ok ⟨some cfg, after⟩ =>
    match orContext (cfg.serialize toml) (saveContext command) with
    | .error e => (.error e, file)
    | .ok text => (after, some text)

/-! ### What an edit can be -/

/-- What each command saves, of a config. -/
inductive Edits : CliCommand → Config → Option Config → Prop where
  /-- `server add`: a valid name that is new. -/
  | serverAdd {name : Str} {host : IpAddr} {user : Option Str} {sshPort relayPort : Nat}
      {terminal : Option (Except Str Str)} {now : DateTime} {cfg : Config} (server : RemoteServer) :
      RemoteServer.validateName server.name = .ok () → server.name ∉ cfg.names →
      Edits (.serverAdd name host user sshPort relayPort terminal now) cfg
        (some { cfg with servers := cfg.servers ++ [server] })
  /-- `server remove`: a name that is there. -/
  | serverRemove {name : Str} {cfg : Config} : name ∈ cfg.names →
      Edits (.serverRemove name) cfg
        (some { cfg with servers := cfg.servers.eraseP fun s => s.name = name })
  /-- `target add`: a valid id that is new, and a relay that is there. -/
  | targetAdd {id : Str} {label via : Option Str} {cfg : Config} (target : Target) :
      IsTargetId target.id → target.id ∉ cfg.ids → (∀ v, target.viaServer = some v → v ∈ cfg.names) →
      Edits (.targetAdd id label via) cfg (some { cfg with targets := cfg.targets ++ [target] })
  /-- `target remove`. -/
  | targetRemove {id : Str} {cfg : Config} :
      Edits (.targetRemove id) cfg
        (some { cfg with targets := cfg.targets.eraseP fun t => t.id = id })
  /-- `config set-mode`, where there is a transition. -/
  | setMode {mode : Str} {ackUnsafe : Bool} {cfg : Config} (new : CredentialMode) :
      CredentialMode.fromStr mode = .ok new → (new = .unsafeMode → ackUnsafe = true) →
      Edits (.setMode mode ackUnsafe) cfg
        (some { cfg with general := { cfg.general with credentialMode := new } })
  /-- `config set-mode`, where there is none. -/
  | setModeAlready {mode : Str} {ackUnsafe : Bool} {cfg : Config} :
      Edits (.setMode mode ackUnsafe) cfg none
  /-- `connect`: the stamp of the server it resolved. -/
  | connect {args : ConnectArgs} {met : ConnectRun} {cfg : Config} (id : TargetId)
      (matched : Option Target) (via : Str) (i : Nat) :
      resolveTarget cfg args.target = .ok (id, matched) →
      resolveViaName args.via matched cfg = .ok via →
      cfg.servers.findIdx? (fun s => s.name = via) = some i →
      Edits (.connect args met) cfg (some { cfg with servers := cfg.servers.modify i fun s =>
        { s with lastUsed := some met.now } })

theorem orContext_eq_ok {α : Type} {result : Except RustmoteError α} {context : Str} {a : α} :
    orContext result context = .ok a ↔ result = .ok a := by
  cases result with
  | error e => simp [orContext, Except.mapError]
  | ok b => simp [orContext, Except.mapError]

theorem Except.pure_eq_ok {ε α : Type} {a b : α} : (pure a : Except ε α) = .ok b ↔ a = b :=
  ⟨Except.ok.inj, congrArg Except.ok⟩

/-- `run_add` of `server` adds a valid name that is new. -/
theorem serverAdd_edits {name : Str} {host : IpAddr} {user : Option Str} {sshPort relayPort : Nat}
    {terminal : Option (Except Str Str)} {now : DateTime} {cfg : Config} {e : Edit}
    {act : Config → Except CliError Edit}
    (hprepare : serverAdd name host user sshPort relayPort terminal now = .ok act)
    (hact : act cfg = .ok e) :
    Edits (.serverAdd name host user sshPort relayPort terminal now) cfg e.save ∧
      e.after = .ok () := by
  unfold serverAdd at hprepare
  obtain ⟨_, hname, hprepare⟩ := Except.bind_eq_ok.mp hprepare
  obtain ⟨user', _, hprepare⟩ := Except.bind_eq_ok.mp hprepare
  obtain rfl := Except.pure_eq_ok.mp hprepare
  obtain ⟨cfg', hadd, hact⟩ := Except.bind_eq_ok.mp hact
  obtain rfl := Except.pure_eq_ok.mp hact
  obtain ⟨hnew, rfl⟩ := Config.addServer_eq_ok (orContext_eq_ok.mp hadd)
  exact ⟨.serverAdd _ (orContext_eq_ok.mp hname) hnew, rfl⟩

theorem serverRemove_edits {name : Str} {cfg : Config} {e : Edit}
    {act : Config → Except CliError Edit} (hprepare : serverRemove name = .ok act)
    (hact : act cfg = .ok e) :
    Edits (.serverRemove name) cfg e.save ∧ e.after = .ok () := by
  obtain rfl := Except.pure_eq_ok.mp hprepare
  obtain ⟨⟨server, cfg'⟩, hremove, hact⟩ := Except.bind_eq_ok.mp hact
  obtain rfl := Except.pure_eq_ok.mp hact
  obtain ⟨hmem, rfl⟩ := Config.removeServer_eq_ok (orContext_eq_ok.mp hremove)
  exact ⟨.serverRemove hmem, rfl⟩

theorem targetRemove_edits {id : Str} {cfg : Config} {e : Edit}
    {act : Config → Except CliError Edit} (hprepare : targetRemove id = .ok act)
    (hact : act cfg = .ok e) :
    Edits (.targetRemove id) cfg e.save ∧ e.after = .ok () := by
  obtain rfl := Except.pure_eq_ok.mp hprepare
  obtain ⟨⟨target, cfg'⟩, hremove, hact⟩ := Except.bind_eq_ok.mp hact
  obtain rfl := Except.pure_eq_ok.mp hact
  obtain rfl := Config.removeTarget_eq_ok (orContext_eq_ok.mp hremove)
  exact ⟨.targetRemove, rfl⟩

/-- `run_add` of `target` looks the relay up before it adds. -/
theorem targetAdd_edits {id : Str} {label via : Option Str} {cfg : Config} {e : Edit}
    {act : Config → Except CliError Edit} (hprepare : targetAdd id label via = .ok act)
    (hact : act cfg = .ok e) :
    Edits (.targetAdd id label via) cfg e.save ∧ e.after = .ok () := by
  unfold targetAdd at hprepare
  obtain ⟨targetId, hid, hprepare⟩ := Except.bind_eq_ok.mp hprepare
  obtain rfl := Except.pure_eq_ok.mp hprepare
  have hvalid : IsTargetId id := by
    have hnew := orContext_eq_ok.mp hid
    unfold TargetId.new at hnew
    split_ifs at hnew with h
    exact h
  cases via with
  | none =>
    obtain ⟨cfg', hadd, hact⟩ := Except.bind_eq_ok.mp hact
    obtain rfl := Except.pure_eq_ok.mp hact
    obtain ⟨hnew, rfl⟩ := Config.addTarget_eq_ok (orContext_eq_ok.mp hadd)
    exact ⟨.targetAdd _ hvalid hnew (fun v hv => by cases hv), rfl⟩
  | some server =>
    obtain ⟨found, hget, hact⟩ := Except.bind_eq_ok.mp hact
    obtain ⟨cfg', hadd, hact⟩ := Except.bind_eq_ok.mp hact
    obtain rfl := Except.pure_eq_ok.mp hact
    obtain ⟨hnew, rfl⟩ := Config.addTarget_eq_ok (orContext_eq_ok.mp hadd)
    refine ⟨.targetAdd _ hvalid hnew fun v hv => ?_, rfl⟩
    obtain rfl := Option.some.inj hv
    exact Config.exists_getServer_iff.mp ⟨found, orContext_eq_ok.mp hget⟩

/-- `parse_and_gate_mode` lets unsafe mode through with the flag only. -/
theorem parseAndGateMode_eq_ok {mode : Str} {ackUnsafe : Bool} {new : CredentialMode}
    (h : parseAndGateMode mode ackUnsafe = .ok new) :
    CredentialMode.fromStr mode = .ok new ∧ (new = .unsafeMode → ackUnsafe = true) := by
  unfold parseAndGateMode at h
  cases hparse : CredentialMode.fromStr mode with
  | error unknown => rw [hparse] at h; cases h
  | ok parsed =>
    rw [hparse] at h
    simp only [pure_bind] at h
    split_ifs at h with hgate
    obtain rfl := Except.pure_eq_ok.mp h
    refine ⟨rfl, fun hnew => ?_⟩
    by_contra hack
    exact hgate ⟨hnew, by simpa using hack⟩

theorem setMode_edits {mode : Str} {ackUnsafe : Bool} {cfg : Config} {e : Edit}
    {act : Config → Except CliError Edit} (hprepare : setMode mode ackUnsafe = .ok act)
    (hact : act cfg = .ok e) :
    Edits (.setMode mode ackUnsafe) cfg e.save ∧ e.after = .ok () := by
  unfold setMode at hprepare
  obtain ⟨new, hmode, hprepare⟩ := Except.bind_eq_ok.mp hprepare
  obtain rfl := Except.pure_eq_ok.mp hprepare
  obtain rfl := Except.pure_eq_ok.mp hact
  obtain ⟨hparse, hack⟩ := parseAndGateMode_eq_ok hmode
  refine ⟨?_, rfl⟩
  unfold applyMode
  split_ifs with hsame
  · exact .setModeAlready
  · exact .setMode new hparse hack

/-- `connect` stamps the server it resolved, and nothing else. -/
theorem connect_edits {args : ConnectArgs} {met : ConnectRun} {cfg : Config} {e : Edit}
    {act : Config → Except CliError Edit} (hprepare : connect args met = .ok act)
    (hact : act cfg = .ok e) :
    Edits (.connect args met) cfg e.save := by
  obtain rfl := Except.pure_eq_ok.mp hprepare
  obtain ⟨⟨targetId, matched⟩, htarget, hact⟩ := Except.bind_eq_ok.mp hact
  obtain ⟨via, hvia, hact⟩ := Except.bind_eq_ok.mp hact
  obtain ⟨server, _, hact⟩ := Except.bind_eq_ok.mp hact
  obtain ⟨_, _, hact⟩ := Except.bind_eq_ok.mp hact
  obtain ⟨cfg', hupdate, hact⟩ := Except.bind_eq_ok.mp hact
  obtain rfl := Except.pure_eq_ok.mp hact
  obtain ⟨i, hfind, rfl⟩ := Config.updateServer_eq_ok (orContext_eq_ok.mp hupdate)
  exact .connect targetId matched via i htarget hvia hfind

/-- The command is `connect`. -/
def IsConnect (command : CliCommand) : Prop := ∃ args met, command = .connect args met

/-- **What an edit can be**, and that only `connect` does something behind the save. -/
theorem edits_of_prepare {command : CliCommand} {cfg : Config} {e : Edit}
    {act : Config → Except CliError Edit} (hprepare : prepare command = .ok act)
    (hact : act cfg = .ok e) :
    Edits command cfg e.save ∧ (¬ IsConnect command → e.after = .ok ()) := by
  cases command with
  | serverAdd name host user sshPort relayPort terminal now =>
    obtain ⟨hedits, hafter⟩ := serverAdd_edits hprepare hact
    exact ⟨hedits, fun _ => hafter⟩
  | serverRemove name =>
    obtain ⟨hedits, hafter⟩ := serverRemove_edits hprepare hact
    exact ⟨hedits, fun _ => hafter⟩
  | targetAdd id label via =>
    obtain ⟨hedits, hafter⟩ := targetAdd_edits hprepare hact
    exact ⟨hedits, fun _ => hafter⟩
  | targetRemove id =>
    obtain ⟨hedits, hafter⟩ := targetRemove_edits hprepare hact
    exact ⟨hedits, fun _ => hafter⟩
  | setMode mode ackUnsafe =>
    obtain ⟨hedits, hafter⟩ := setMode_edits hprepare hact
    exact ⟨hedits, fun _ => hafter⟩
  | connect args met =>
    exact ⟨connect_edits hprepare hact, fun h => absurd ⟨args, met, rfl⟩ h⟩

end Cli

end Rustmote
