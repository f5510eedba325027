import Rustmote.Cli.Commands
import Rustmote.Foundations.Contracts
import Rustmote.Session.Connect
import Rustmote.Session.Authenticate

/-!
# The viewer

`viewer.rs`, on Linux: how the viewer is looked for, and the argument list that it is started
with. It is looked for on the machine that `connect` runs on, so `LocalRequest` is what `connect`
asks of that machine, of its user and of the network. Nothing is said of the answers: a file that
was there a moment ago may be gone.
-/

namespace Rustmote

open Interaction (Prog)

/-- How a process has ended. -/
structure ExitStatus where
  success : Bool
  /-- As it is printed. -/
  text : Str

/-- What `connect` asks. -/
inductive LocalRequest where
  /-- `Config::load`. -/
  | loadConfig
  /-- `std::env::home_dir`. -/
  | homeDir
  /-- `Path::is_file`. -/
  | isFile (path : PathBuf)
  /-- The variable `PATH`. -/
  | pathVar
  /-- Run a program to its end: whether it has succeeded. -/
  | status (program : PathBuf) (argv : List Str)
  /-- `CredentialStore::from_config`. -/
  | credentialStore (mode : CredentialMode)
  /-- `CredentialStore::get_password`. -/
  | getPassword (server user : Str)
  /-- `KnownHosts::load`. -/
  | loadKnownHosts
  /-- What the server and the network do in `Session::open`. -/
  | openSession (server : RemoteServer) (auth : AuthMaterial)
  /-- `KnownHosts::save`. -/
  | saveKnownHosts (kh : KnownHosts)
  /-- `Utc::now`. -/
  | now
  /-- `Config::save`. -/
  | saveConfig (cfg : Config)
  /-- `Command::spawn`. -/
  | spawn (program : PathBuf) (argv : List Str)
  /-- `Child::wait`. -/
  | wait
  /-- The forwarder is told to stop, and its task is aborted. -/
  | stopForwarder
  /-- The disconnect message. -/
  | disconnect

/-- The type of the reply to a request. -/
def LocalRequest.Reply : LocalRequest → Type
  | loadConfig => Except RustmoteError Config
  | homeDir => Option PathBuf
  | isFile _ => Bool
  | pathVar => Option Bytes
  | status _ _ => Bool
  | credentialStore _ => Except RustmoteError Unit
  | getPassword _ _ => Except RustmoteError Str
  | loadKnownHosts => Except RustmoteError KnownHosts
  | openSession _ _ => Attempt
  | saveKnownHosts _ => Except RustmoteError Unit
  | now => DateTime
  | saveConfig _ => Except RustmoteError Unit
  | spawn _ _ => Except Str Unit
  | wait => Except Str ExitStatus
  | stopForwarder => Unit
  | disconnect => Except RustmoteError Unit

/-- What `connect` is made of. -/
abbrev Local : Type → Type := Prog LocalRequest.Reply CliError

/-- `ViewerKind`. -/
inductive ViewerKind where
  /-- A binary. -/
  | native (path : PathBuf)
  /-- The Flatpak app. -/
  | flatpak
  deriving DecidableEq

namespace Viewer

/-- `std::env::split_paths`. -/
def splitPaths (var : Bytes) : List PathBuf := (var.splitOn 0x3A).map PathBuf.mk

/-- `Path::is_file`. -/
def isFile (path : PathBuf) : Local Bool := Prog.request (LocalRequest.isFile path)

/-- The loops that return the first path with a regular file. -/
def firstFile : List PathBuf → Local (Option PathBuf)
  | [] => return none
  | path :: paths => do
    if ← isFile path then return some path
    else firstFile paths

/-- `which_on_path`. -/
def whichOnPath (name : Str) : Local (Option PathBuf) := do
  match ← Prog.request LocalRequest.pathVar with
  | none => return none
  | some var => firstFile ((splitPaths var).map (·.join name))

/-- The fixed places of the binary. -/
def fixedPlaces : List PathBuf :=
  [.fromStr "/usr/bin/rustdesk".toList, .fromStr "/opt/rustdesk/rustdesk".toList]

/-- `default_candidates`. -/
def defaultCandidates : Local (List PathBuf) := do
  let found ← whichOnPath "rustdesk".toList
  return found.toList ++ fixedPlaces

/-- The name of the Flatpak app. -/
def appName : Str := "com.rustdesk.RustDesk".toList

/-- `flatpak_available`. -/
def flatpakAvailable : Local Bool := do
  match ← whichOnPath "flatpak".toList with
  | none => return false
  | some flatpak => Prog.request (LocalRequest.status flatpak ["info".toList, appName])

/-- The search behind the override, in `Viewer::detect_with_override`. -/
def search : Local (Option ViewerKind) := do
  match ← firstFile (← defaultCandidates) with
  | some path => return some (.native path)
  | none => if ← flatpakAvailable then return some .flatpak else return none

/-- `Viewer::detect_with_override`: `none` is `ViewerNotFound`. -/
def detectWithOverride (overridePath : Option PathBuf) : Local (Option ViewerKind) :=
  match overridePath with
  | none => search
  | some path => do
    if ← isFile path then return some (.native path)
    else search

/-- `Viewer::command`: the program and its arguments. -/
def command (viewer : ViewerKind) (target : TargetId) : PathBuf × List Str :=
  match viewer with
  | .native path => (path, ["--connect".toList, target.raw])
  | .flatpak =>
    (.fromStr "flatpak".toList, ["run".toList, appName, "--connect".toList, target.raw])

end Viewer

/-- `GeneralConfig::viewer_override`. -/
def GeneralConfig.viewerOverride (general : GeneralConfig) : Option PathBuf :=
  if general.viewerPath = [] then none else some (.fromStr general.viewerPath)

end Rustmote
