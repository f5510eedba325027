import Rustmote.Error
import Rustmote.Foundations.TomlFormat

/-!
# The config and its registry

`config.rs`, `registry.rs`, `target.rs`, and the validated target id of `viewer.rs`. The
registry's operations take a config to a config, or fail; what they are to keep, distinct names
and ids, is `Config.Sound`, and there is one lemma for each operation.
-/

namespace Rustmote

/-- `std::net::IpAddr`. -/
inductive IpAddr where
  | v4 (bits : BitVec 32)
  | v6 (bits : BitVec 128)
  deriving DecidableEq

/-- `RemoteServer`. -/
structure RemoteServer where
  name : Str
  host : IpAddr
  sshPort : Nat
  sshUser : Str
  relayPort : Nat
  relayKey : Option Str
  createdAt : DateTime
  lastUsed : Option DateTime
  deriving DecidableEq

/-- `RemoteServer::validate_name`. -/
def RemoteServer.validateName (name : Str) : Except RustmoteError Unit :=
  if 1 ≤ Utf8.len name ∧ Utf8.len name ≤ 64 ∧
      name.all (fun c => c.isAlphanum || c = '_' || c = '-') then .ok ()
  else .error (.invalidServerName name)

/-- `RemoteServer::new`. -/
def RemoteServer.new (name : Str) (host : IpAddr) (sshUser : Str) (sshPort relayPort : Nat)
    (now : DateTime) : RemoteServer where
  name := name
  host := host
  sshPort := sshPort
  sshUser := sshUser
  relayPort := relayPort
  relayKey := none
  createdAt := now
  lastUsed := none

/-- Nine or ten ASCII digits. -/
def IsTargetId (raw : Str) : Prop :=
  9 ≤ raw.length ∧ raw.length ≤ 10 ∧ raw.all Char.isDigit = true

instance decidableIsTargetId (raw : Str) : Decidable (IsTargetId raw) :=
  inferInstanceAs (Decidable (9 ≤ raw.length ∧ raw.length ≤ 10 ∧ raw.all Char.isDigit = true))

/-- `TargetId`: only digits get into an argument list. -/
structure TargetId where
  raw : Str
  /-- `TargetId::new` is the only way to one. -/
  valid : IsTargetId raw
  deriving DecidableEq

/-- `TargetId::new`. Digits are one byte each, so the length in bytes is the one in digits. -/
def TargetId.new (raw : Str) : Except RustmoteError TargetId :=
  if h : IsTargetId raw then .ok ⟨raw, h⟩ else .error (.invalidTargetId raw)

/-- `Target`. -/
structure Target where
  id : Str
  ip : Option IpAddr
  label : Option Str
  viaServer : Option Str
  lastSeen : Option DateTime
  deriving DecidableEq

/-- `CredentialMode`. -/
inductive CredentialMode where
  | prompt | keychain | unsafeMode
  deriving DecidableEq

/-- `CredentialMode::from_str`; the error carries the text that is no mode. -/
def CredentialMode.fromStr (s : Str) : Except Str CredentialMode :=
  let s := (Text.trim s).map Char.toLower
  if s = "prompt".toList then .ok .prompt
  else if s = "keychain".toList then .ok .keychain
  else if s = "unsafe".toList then .ok .unsafeMode
  else .error s

/-- `GeneralConfig`. -/
structure GeneralConfig where
  credentialMode : CredentialMode
  defaultServer : Option Str
  viewerPath : Str
  deriving DecidableEq

/-- `Config`. -/
structure Config where
  general : GeneralConfig
  servers : List RemoteServer
  targets : List Target
  deriving DecidableEq

namespace Config

/-- `Config::default`. -/
def empty : Config := ⟨⟨.prompt, none, []⟩, [], []⟩

/-- `Config::load_from`: `none` is a file that does not exist. -/
def loadFrom (toml : TomlFormat Config) (path : PathBuf) (file : Option Str) :
    Except RustmoteError Config :=
  match file with
  | none => .ok empty
  | some raw =>
    match toml.fromStr raw with
    | .ok cfg => .ok cfg
    | .error e => .error (.configParse path e)

/-- What `Config::save_to` writes. -/
def serialize (toml : TomlFormat Config) (cfg : Config) : Except RustmoteError Str :=
  (toml.toStringPretty cfg).mapError .configSerialize

/-- `Config::get_server`. -/
def getServer (cfg : Config) (name : Str) : Except RustmoteError RemoteServer :=
  match cfg.servers.find? fun s => s.name = name with
  | some server => .ok server
  | none => .error (.unknownServer name)

/-- `Config::add_server`. -/
def addServer (cfg : Config) (server : RemoteServer) : Except RustmoteError Config :=
  if cfg.servers.any fun s => s.name = server.name then .error (.serverAlreadyExists server.name)
  else .ok { cfg with servers := cfg.servers ++ [server] }

/-- `Config::remove_server`. -/
def removeServer (cfg : Config) (name : Str) : Except RustmoteError (RemoteServer × Config) :=
  match cfg.servers.find? fun s => s.name = name with
  | some server => .ok (server, { cfg with servers := cfg.servers.eraseP fun s => s.name = name })
  | none => .error (.unknownServer name)

/-- `Config::update_server`. -/
def updateServer (cfg : Config) (name : Str) (mutate : RemoteServer → RemoteServer) :
    Except RustmoteError Config :=
  match cfg.servers.findIdx? fun s => s.name = name with
  | some i => .ok { cfg with servers := cfg.servers.modify i mutate }
  | none => .error (.unknownServer name)

/-- `Config::get_target`. -/
def getTarget (cfg : Config) (id : Str) : Except RustmoteError Target :=
  match cfg.targets.find? fun t => t.id = id with
  | some target => .ok target
  | none => .error (.unknownTarget id)

/-- `Config::add_target`. -/
def addTarget (cfg : Config) (target : Target) : Except RustmoteError Config :=
  if cfg.targets.any fun t => t.id = target.id then .error (.targetAlreadyExists target.id)
  else .ok { cfg with targets := cfg.targets ++ [target] }

/-- `Config::remove_target`. -/
def removeTarget (cfg : Config) (id : Str) : Except RustmoteError (Target × Config) :=
  match cfg.targets.find? fun t => t.id = id with
  | some target => .ok (target, { cfg with targets := cfg.targets.eraseP fun t => t.id = id })
  | none => .error (.unknownTarget id)

/-! ### What the operations keep -/

/-- The names of the servers. -/
def names (cfg : Config) : List Str := cfg.servers.map (·.name)

/-- The ids of the targets. -/
def ids (cfg : Config) : List Str := cfg.targets.map (·.id)

/-- Names are distinct and valid, and ids are. -/
structure Sound (cfg : Config) : Prop where
  names_nodup : cfg.names.Nodup
  names_valid : ∀ name ∈ cfg.names, RemoteServer.validateName name = .ok ()
  ids_nodup : cfg.ids.Nodup
  ids_valid : ∀ id ∈ cfg.ids, IsTargetId id

theorem getServer_eq_ok {cfg : Config} {name : Str} {server : RemoteServer}
    (h : cfg.getServer name = .ok server) : server ∈ cfg.servers ∧ server.name = name := by
  unfold getServer at h
  split at h
  · rename_i found hfind
    obtain rfl := Except.ok.inj h
    exact ⟨List.mem_of_find?_eq_some hfind, by simpa using List.find?_some hfind⟩
  · cases h

/-- A registered name is found. -/
theorem exists_getServer_iff {cfg : Config} {name : Str} :
    (∃ server, cfg.getServer name = .ok server) ↔ name ∈ cfg.names := by
  constructor
  · rintro ⟨server, h⟩
    obtain ⟨hmem, rfl⟩ := getServer_eq_ok h
    exact List.mem_map_of_mem hmem
  · intro h
    obtain ⟨server, hmem, rfl⟩ := List.mem_map.mp h
    obtain ⟨found, hfound⟩ := Option.isSome_iff_exists.mp
      (List.find?_isSome.mpr ⟨server, hmem, by simp⟩ :
        (cfg.servers.find? fun s => s.name = server.name).isSome)
    exact ⟨found, by unfold getServer; rw [hfound]⟩

theorem addServer_eq_ok {cfg cfg' : Config} {server : RemoteServer}
    (h : cfg.addServer server = .ok cfg') :
    server.name ∉ cfg.names ∧ cfg' = { cfg with servers := cfg.servers ++ [server] } := by
  unfold addServer at h
  split_ifs at h with hany
  refine ⟨fun hmem => hany ?_, (Except.ok.inj h).symm⟩
  obtain ⟨s, hs, hname⟩ := List.mem_map.mp hmem
  exact List.any_eq_true.mpr ⟨s, hs, by simpa using hname⟩

theorem removeServer_eq_ok {cfg cfg' : Config} {name : Str} {server : RemoteServer}
    (h : cfg.removeServer name = .ok (server, cfg')) :
    name ∈ cfg.names ∧
      cfg' = { cfg with servers := cfg.servers.eraseP fun s => s.name = name } := by
  unfold removeServer at h
  split at h
  · rename_i found hfind
    obtain ⟨rfl, rfl⟩ := Prod.mk.inj (Except.ok.inj h)
    have hname : found.name = name := by simpa using List.find?_some hfind
    exact ⟨hname ▸ List.mem_map_of_mem (List.mem_of_find?_eq_some hfind), rfl⟩
  · cases h

theorem updateServer_eq_ok {cfg cfg' : Config} {name : Str} {mutate : RemoteServer → RemoteServer}
    (h : cfg.updateServer name mutate = .ok cfg') :
    ∃ i, cfg.servers.findIdx? (fun s => s.name = name) = some i ∧
      cfg' = { cfg with servers := cfg.servers.modify i mutate } := by
  unfold updateServer at h
  split at h
  · rename_i i hfind
    exact ⟨i, hfind, (Except.ok.inj h).symm⟩
  · cases h

theorem addTarget_eq_ok {cfg cfg' : Config} {target : Target}
    (h : cfg.addTarget target = .ok cfg') :
    target.id ∉ cfg.ids ∧ cfg' = { cfg with targets := cfg.targets ++ [target] } := by
  unfold addTarget at h
  split_ifs at h with hany
  refine ⟨fun hmem => hany ?_, (Except.ok.inj h).symm⟩
  obtain ⟨t, ht, hid⟩ := List.mem_map.mp hmem
  exact List.any_eq_true.mpr ⟨t, ht, by simpa using hid⟩

theorem removeTarget_eq_ok {cfg cfg' : Config} {id : Str} {target : Target}
    (h : cfg.removeTarget id = .ok (target, cfg')) :
    cfg' = { cfg with targets := cfg.targets.eraseP fun t => t.id = id } := by
  unfold removeTarget at h
  split at h
  · obtain ⟨-, rfl⟩ := Prod.mk.inj (Except.ok.inj h)
    rfl
  · cases h

end Config

end Rustmote
