import Rustmote.Foundations.Utf8

/-!
# Paths and errors

`PathBuf` is a Unix path: bytes that need not be UTF-8. `RustmoteError` has the variants the
modelled code can return. What comes from another crate is carried as the text it prints:
`TransportError` for what a channel reports, `RegistryError` for what the registry client
does, each with the variant it turns into.
-/

namespace Rustmote

/-- `std::path::PathBuf` on Unix. -/
structure PathBuf where
  /-- The bytes of the path. -/
  bytes : Bytes
  deriving DecidableEq

namespace PathBuf

/-- `PathBuf::from`, of a string. -/
def fromStr (s : Str) : PathBuf := ⟨Utf8.encode s⟩

/-- `Path::to_str`. -/
def toStr (p : PathBuf) : Option Str := Utf8.decode p.bytes

/-- `Path::to_string_lossy`; `Path::display` prints the same text. -/
def toStringLossy (p : PathBuf) : Str := Utf8.fromUtf8Lossy p.bytes

@[simp] theorem toStr_fromStr (s : Str) : (fromStr s).toStr = some s := Utf8.decode_encode s

@[simp] theorem toStringLossy_fromStr (s : Str) : (fromStr s).toStringLossy = s :=
  Utf8.fromUtf8Lossy_encode s

theorem toStringLossy_of_toStr {p : PathBuf} {s : Str} (h : p.toStr = some s) :
    p.toStringLossy = s := Utf8.fromUtf8Lossy_of_decode h

end PathBuf

/-- The errors of the library. -/
inductive RustmoteError where
  /-- No server has this name. -/
  | unknownServer (name : Str)
  /-- A server has this name already. -/
  | serverAlreadyExists (name : Str)
  /-- No target has this id. -/
  | unknownTarget (id : Str)
  /-- A target has this id already. -/
  | targetAlreadyExists (id : Str)
  /-- A file that is not TOML of the expected shape. -/
  | configParse (path : PathBuf) (source : Str)
  /-- A value that TOML cannot carry. -/
  | configSerialize (source : Str)
  /-- The SSH layer failed. -/
  | sshConnection (source : Str)
  /-- The host showed another key than the pinned one. -/
  | hostKeyMismatch (host : Str) (port : Nat) (expected actual : Str)
  /-- The host is not pinned and the policy is strict. -/
  | hostKeyUnknown (host : Str) (port : Nat)
  /-- No authentication method was accepted. -/
  | sshAuthFailed (user host methods lastError : Str)
  /-- There is no private key to offer. -/
  | noSshKeyFound (tried : Str)
  /-- The OS keyring failed. -/
  | credential (source : Str)
  /-- Not a target id of RustDesk. -/
  | invalidTargetId (id : Str)
  /-- Not a name of a server. -/
  | invalidServerName (name : Str)
  /-- The credentials file can be read by others. -/
  | insecureCredentialsFile (mode : Nat)
  /-- No password is stored for the user at the server. -/
  | noStoredCredential (server user : Str)
  /-- A remote command exited with another status than zero. -/
  | remoteCommandFailed (command : Str) (exitCode : Nat) (stderr : Str)
  /-- The registry could not be asked, or its answer not read. -/
  | registryApi (message : Str)
  /-- There is no state file. -/
  | relayNotInstalled (server : Str)
  /-- The relay does not answer after an update. -/
  | relayHealthCheckFailed
  /-- Only the first Compose is installed. -/
  | dockerComposeV1Detected
  /-- Docker is not installed. -/
  | dockerEngineNotInstalled
  /-- The distribution is not known. -/
  | relayUnsupportedOs (message : Str)
  /-- The install directory belongs to something else. -/
  | relayForeignInstall (path : PathBuf)
  /-- An update without confirmation. -/
  | relayUpdateNotConfirmed
  /-- A path that must not go into a command. -/
  | invalidRelayPath (path : Str)
  /-- An image reference that must not go into a compose file. -/
  | invalidImageRef (reference : Str)
  /-- Local input or output failed. -/
  | ioError (source : Str)
  deriving DecidableEq

/-- A computation that goes on with `?` succeeds when both parts do. -/
theorem Except.bind_eq_ok {ε α β : Type} {x : Except ε α} {f : α → Except ε β} {b : β} :
    (x >>= f) = .ok b ↔ ∃ a, x = .ok a ∧ f a = .ok b := by
  cases x with
  | error e =>
    constructor
    · intro h; cases h
    · rintro ⟨a, h, -⟩; cases h
  | ok a =>
    constructor
    · intro h; exact ⟨a, rfl, h⟩
    · rintro ⟨a', h, h'⟩
      cases h
      exact h'

theorem Except.map_eq_ok {ε α β : Type} {x : Except ε α} {f : α → β} {b : β} :
    x.map f = .ok b ↔ ∃ a, x = .ok a ∧ f a = b := by
  cases x <;> simp [Except.map]

/-- What the channel can fail with. -/
structure TransportError where
  /-- The message of the SSH layer. -/
  source : Str
  deriving DecidableEq

/-- It is passed on as an SSH error. -/
def TransportError.toError (e : TransportError) : RustmoteError := .sshConnection e.source

/-- What the registry client can fail with. -/
inductive RegistryError where
  /-- The registry itself. -/
  | registryApi (message : Str)
  /-- The client's cache file is not readable. -/
  | configParse (path : PathBuf) (source : Str)
  /-- The client's cache cannot be written down. -/
  | configSerialize (source : Str)
  /-- The client's cache file cannot be read or written. -/
  | ioError (source : Str)
  deriving DecidableEq

/-- It is passed on as it is. -/
def RegistryError.toError : RegistryError → RustmoteError
  | .registryApi message => .registryApi message
  | .configParse path source => .configParse path source
  | .configSerialize source => .configSerialize source
  | .ioError source => .ioError source

end Rustmote
