import Rustmote.Session.Viewer

/-!
# A run of `connect`

`rustmote connect` from the arguments to the end of the session, with everything it asks on its
way. Between `Session::open` and the end stand steps that can fail, and each failure drops the
session; when the viewer has ended the session is closed. `connectContract` says what each request
stands behind, and in which course of a run `connect` may come to its end; `connect_course`
says that every run keeps it.
-/

namespace Rustmote

open Interaction (Prog Contract)
open Interaction.Prog (Run Meets Returns)

namespace Connect

/-! ### The command -/

/-- `has_default_ssh_keys`. -/
def anyDefaultSshKey : Local Bool := do
  match ← Prog.request LocalRequest.homeDir with
  | none => return false
  | some home => return (← Viewer.firstFile (Session.sshKeys home)).isSome

/-- `resolve_password`; the last error comes without a context. -/
def askPassword (cfg : Config) (server : RemoteServer) : Local (Option Str) := do
  if ← anyDefaultSshKey then return none
  else
    let built ← Prog.request (LocalRequest.credentialStore cfg.general.credentialMode)
    orContext built "building credential store".toList
    match ← Prog.request (LocalRequest.getPassword server.name server.sshUser) with
    | .ok password => return some password
    | .error (.noStoredCredential _ _) => return none
    | .error e => .fail (.library [] e)

/-- The copy of the server that the tunnel is opened for. -/
def effectiveServer (args : ConnectArgs) (server : RemoteServer) : RemoteServer :=
  match args.user with
  | some user => { server with sshUser := user }
  | none => server

/-- `Session::open` in `run`: whether a key was newly pinned, and the store behind it. -/
def openTunnel (display : IpAddr → Str) (server : RemoteServer) (auth : AuthMaterial)
    (kh : KnownHosts) : Local (Bool × KnownHosts) := do
  let attempt ← Prog.request (LocalRequest.openSession server auth)
  let (result, kh, _) :=
    Session.openSession (display server.host) server.sshPort kh .trustOnFirstUse attempt
  let (_, newlyPinned) ← orContext result "opening SSH session to relay".toList
  return (newlyPinned, kh)

/-- The viewer is found, started and waited for. -/
def runViewer (cfg : Config) (targetId : TargetId) : Local ExitStatus := do
  match ← Viewer.detectWithOverride cfg.general.viewerOverride with
  | none =>
    .fail (.other "locating RustDesk viewer (spec §3.5)".toList
      "viewer binary not found; install RustDesk or set viewer_path".toList)
  | some viewer =>
    let (program, argv) := Viewer.command viewer targetId
    match ← Prog.request (LocalRequest.spawn program argv) with
    | .error e => .fail (.library "spawning RustDesk viewer".toList (.ioError e))
    | .ok _ =>
      match ← Prog.request LocalRequest.wait with
      | .error e => .fail (.other "waiting for RustDesk viewer to exit".toList e)
      | .ok status => return status

/-- A newly pinned key is saved. -/
def savePin (newlyPinned : Bool) (kh : KnownHosts) : Local Unit := do
  if newlyPinned then
    let saved ← Prog.request (LocalRequest.saveKnownHosts kh)
    orContext saved "persisting newly-pinned host key to known_hosts.toml".toList
  else return ()

/-- `run` behind `Session::open`, to where the viewer has ended. -/
def whileOpen (cfg : Config) (viaName : Str) (targetId : TargetId) (newlyPinned : Bool)
    (kh : KnownHosts) : Local ExitStatus := do
  savePin newlyPinned kh
  let now ← Prog.request LocalRequest.now
  let cfg ← orContext (cfg.updateServer viaName fun s => { s with lastUsed := some now })
    "updating server last_used".toList
  let saved ← Prog.request (LocalRequest.saveConfig cfg)
  orContext saved "saving config after connect".toList
  runViewer cfg targetId

/-- With a session at hand: an error drops it, and that stops the forwarder. -/
def orDrop {α : Type} (p : Local α) : Local α := do
  match ← p.attempt with
  | .ok a => return a
  | .error e =>
    let _ ← Prog.request LocalRequest.stopForwarder
    .fail e

/-- `Session::close`. -/
def close : Local Unit := do
  let _ ← Prog.request LocalRequest.stopForwarder
  let done ← Prog.request LocalRequest.disconnect
  orContext done "tearing down SSH session after viewer exit".toList

/-- `run` behind `Session::open`. -/
def finish (cfg : Config) (viaName : Str) (targetId : TargetId) (newlyPinned : Bool)
    (kh : KnownHosts) : Local Unit := do
  let status ← orDrop (whileOpen cfg viaName targetId newlyPinned kh)
  close
  if status.success then return ()
  else
    .fail (.message ("RustDesk viewer exited with ".toList ++ status.text ++
      "; tunnel has been torn down".toList))

/-- `run` of `connect`; `display` prints an address. -/
def run (display : IpAddr → Str) (args : ConnectArgs) : Local Unit := do
  let loaded ← Prog.request LocalRequest.loadConfig
  let cfg ← orContext loaded "loading config".toList
  let (targetId, matched) ← Cli.resolveTarget cfg args.target
  let viaName ← Cli.resolveViaName args.via matched cfg
  let server ← orContext (cfg.getServer viaName) (Cli.relayContext viaName)
  let effective := effectiveServer args server
  let password ← askPassword cfg effective
  let hosts ← Prog.request LocalRequest.loadKnownHosts
  let kh ← orContext hosts "loading known_hosts.toml".toList
  let (newlyPinned, kh) ← openTunnel display effective ⟨[], none, password⟩ kh
  finish cfg viaName targetId newlyPinned kh

/-! ### The course of a run -/

/-- What a run has come to. -/
structure Course where
  /-- The config it has loaded. -/
  cfg : Option Config
  /-- The home directory. -/
  home : Option PathBuf
  /-- The variable `PATH`. -/
  pathVar : Option Bytes
  /-- What was found to be a regular file. -/
  files : List PathBuf
  /-- What was found to be none. -/
  missing : List PathBuf
  /-- Flatpak has the app. -/
  flatpak : Bool
  /-- The password that the credential store has given. -/
  password : Option Str
  /-- The store of host keys. -/
  hosts : Option KnownHosts
  /-- The server that a session was opened to, and whether its key was newly pinned. -/
  opened : Option (RemoteServer × Bool)
  /-- The store was saved. -/
  hostsSaved : Bool
  /-- The time it has read. -/
  stamp : Option DateTime
  /-- The config it has saved. -/
  saved : Option Config
  /-- The viewer was started. -/
  started : Bool
  /-- How the viewer has ended. -/
  ended : Option Bool
  /-- The forwarder was stopped. -/
  stopped : Bool
  /-- The server was told. -/
  disconnected : Bool

namespace Course

/-- The start of a run. -/
def start : Course where
  cfg := none
  home := none
  pathVar := none
  files := []
  missing := []
  flatpak := false
  password := none
  hosts := none
  opened := none
  hostsSaved := false
  stamp := none
  saved := none
  started := false
  ended := none
  stopped := false
  disconnected := false

/-- What comes of an attempt to open a session. -/
def opening (display : IpAddr → Str) (c : Course) (server : RemoteServer) (kh : KnownHosts)
    (attempt : Attempt) : Course :=
  match Session.openSession (display server.host) server.sshPort kh .trustOnFirstUse attempt with
  | (.ok (_, newlyPinned), kh, _) =>
    { c with hosts := some kh, opened := some (server, newlyPinned) }
  | (.error _, kh, _) => { c with hosts := some kh }

/-- What an event makes of the course. -/
def next (display : IpAddr → Str) (c : Course) : Interaction.Event LocalRequest.Reply → Course
  | ⟨.loadConfig, .ok cfg⟩ => { c with cfg := some cfg }
  | ⟨.homeDir, home⟩ => { c with home := home }
  | ⟨.pathVar, var⟩ => { c with pathVar := var }
  | ⟨.isFile path, true⟩ => { c with files := path :: c.files }
  | ⟨.isFile path, false⟩ => { c with missing := path :: c.missing }
  | ⟨.status _ _, success⟩ => { c with flatpak := success }
  | ⟨.getPassword _ _, .ok password⟩ => { c with password := some password }
  | ⟨.loadKnownHosts, .ok kh⟩ => { c with hosts := some kh }
  | ⟨.openSession server _, attempt⟩ =>
    match c.hosts with
    | none => c
    | some kh => c.opening display server kh attempt
  | ⟨.saveKnownHosts _, .ok _⟩ => { c with hostsSaved := true }
  | ⟨.now, t⟩ => { c with stamp := some t }
  | ⟨.saveConfig cfg, .ok _⟩ => { c with saved := some cfg }
  | ⟨.spawn _ _, .ok _⟩ => { c with started := true }
  | ⟨.wait, .ok status⟩ => { c with ended := some status.success }
  | ⟨.stopForwarder, _⟩ => { c with stopped := true }
  | ⟨.disconnect, .ok _⟩ => { c with disconnected := true }
  | _ => c

/-- Each default key was looked for in vain. -/
def Keyless (c : Course) : Prop :=
  ∀ home, c.home = some home → ∀ path ∈ Session.sshKeys home, path ∈ c.missing

end Course

/-- What the arguments mean by a config. -/
structure Resolved (args : ConnectArgs) (cfg : Config) (id : TargetId) (via : Str)
    (server : RemoteServer) : Prop where
  /-- The target, and the relay it is reached by. -/
  route : ∃ matched, Cli.resolveTarget cfg args.target = .ok (id, matched) ∧
    Cli.resolveViaName args.via matched cfg = .ok via
  /-- The server of that name. -/
  server : cfg.getServer via = .ok server

/-- The places where the binary of the viewer is looked for. -/
def IsPlace (c : Course) (cfg : Config) (path : PathBuf) : Prop :=
  cfg.general.viewerOverride = some path ∨ path ∈ Viewer.fixedPlaces ∨
    ∃ var, c.pathVar = some var ∧ ∃ dir ∈ Viewer.splitPaths var, path = dir.join "rustdesk".toList

/-- A viewer that may be started: the place in the config comes first, Flatpak comes last. -/
inductive Launches (c : Course) (cfg : Config) (id : TargetId) : PathBuf → List Str → Prop where
  | native {path : PathBuf} (hfile : path ∈ c.files) (hplace : IsPlace c cfg path)
      (hfirst : ∀ p, cfg.general.viewerOverride = some p → path = p ∨ p ∈ c.missing) :
      Launches c cfg id path ["--connect".toList, id.raw]
  | flatpak (happ : c.flatpak = true) (hplaces : ∀ p ∈ Viewer.fixedPlaces, p ∈ c.missing)
      (hfirst : ∀ p, cfg.general.viewerOverride = some p → p ∈ c.missing) :
      Launches c cfg id (.fromStr "flatpak".toList)
        ["run".toList, Viewer.appName, "--connect".toList, id.raw]

/-- What may be asked in the course of a run. -/
def Allowed (args : ConnectArgs) (c : Course) : LocalRequest → Prop
  -- a program on the path is only asked for the app
  | .status program argv => program ∈ c.files ∧ argv = ["info".toList, Viewer.appName]
  | .getPassword name user => c.Keyless ∧ ∃ cfg id via server, c.cfg = some cfg ∧
      Resolved args cfg id via server ∧ name = server.name ∧
      user = (effectiveServer args server).sshUser
  | .openSession server auth => c.opened = none ∧ c.hosts.isSome = true ∧
      auth = ⟨[], none, c.password⟩ ∧ ∃ cfg id via registered, c.cfg = some cfg ∧
      Resolved args cfg id via registered ∧ server = effectiveServer args registered
  | .saveKnownHosts kh => c.hostsSaved = false ∧ c.stopped = false ∧ c.hosts = some kh ∧
      ∃ server, c.opened = some (server, true)
  | .saveConfig new => c.saved = none ∧ c.stopped = false ∧
      (∃ server newlyPinned, c.opened = some (server, newlyPinned) ∧
        (newlyPinned = true → c.hostsSaved = true)) ∧
      ∃ cfg t, c.cfg = some cfg ∧ c.stamp = some t ∧
        Cli.Edits (.connect args ⟨fun _ _ => .ok (), t, .ok ()⟩) cfg (some new)
  | .spawn program argv => c.started = false ∧ c.stopped = false ∧ c.saved.isSome = true ∧
      ∃ cfg id via server, c.cfg = some cfg ∧ Resolved args cfg id via server ∧
        Launches c cfg id program argv
  | .wait => c.started = true ∧ c.ended = none
  | .stopForwarder => c.opened.isSome = true ∧ c.stopped = false
  | .disconnect => c.stopped = true ∧ c.ended.isSome = true
  | _ => True

/-- How a run may end: a session that was opened is not left open, and it is reported whether the
viewer has succeeded. -/
structure Ends (c : Course) (r : Except CliError Unit) : Prop where
  /-- The forwarder is stopped just when there was one. -/
  stopped : c.stopped = c.opened.isSome
  /-- It succeeds just when the viewer has and the server was told. -/
  success : r = .ok () ↔ c.ended = some true ∧ c.disconnected = true

/-- The contract of `connect`. -/
def connectContract (display : IpAddr → Str) (args : ConnectArgs) :
    Contract LocalRequest.Reply Course :=
  ⟨Course.next display, Allowed args⟩

/-! ### Looking around -/

variable {display : IpAddr → Str} {args : ConnectArgs} {c : Course}

/-- Only files, the home directory and the path were looked at. -/
structure Looked (c c' : Course) : Prop where
  /-- Nothing else is different. -/
  rest : ∃ home pathVar files missing flatpak, c' = { c with
    home := home, pathVar := pathVar, files := files, missing := missing, flatpak := flatpak }
  /-- What was found is not forgotten. -/
  files : c.files ⊆ c'.files
  /-- Nor is what was missing. -/
  missing : c.missing ⊆ c'.missing

theorem Looked.refl (c : Course) : Looked c c :=
  ⟨⟨_, _, _, _, _, rfl⟩, List.Subset.refl _, List.Subset.refl _⟩

theorem Looked.trans {c₁ c₂ c₃ : Course} (h₁ : Looked c₁ c₂) (h₂ : Looked c₂ c₃) :
    Looked c₁ c₃ := by
  refine ⟨?_, fun p hp => h₂.files (h₁.files hp), fun p hp => h₂.missing (h₁.missing hp)⟩
  obtain ⟨_, _, _, _, _, rfl⟩ := h₁.rest
  obtain ⟨_, _, _, _, _, rfl⟩ := h₂.rest
  exact ⟨_, _, _, _, _, rfl⟩

/-- What `firstFile` finds: the first of the paths, or none of them. -/
structure FoundFile (paths : List PathBuf) (c c' : Course) (found : Option PathBuf) : Prop where
  looked : Looked c c'
  pathVar : c'.pathVar = c.pathVar
  home : c'.home = c.home
  file : ∀ path, found = some path → path ∈ paths ∧ path ∈ c'.files
  none : found = none → ∀ path ∈ paths, path ∈ c'.missing

theorem meets_firstFile (paths : List PathBuf) (c : Course) :
    Meets (connectContract display args) (Returns (FoundFile paths c)) c
      (Viewer.firstFile paths) := by
  induction paths generalizing c with
  | nil =>
    refine ⟨none, rfl, .refl c, rfl, rfl, (fun path h => nomatch h), fun _ path hpath => ?_⟩
    cases hpath
  | cons path paths ih =>
    refine Meets.request trivial fun found => ?_
    cases found with
    | true =>
      have hlooked : Looked c { c with files := path :: c.files } :=
        ⟨⟨_, _, _, _, _, rfl⟩, List.subset_cons_self _ _, List.Subset.refl _⟩
      refine ⟨some path, rfl, hlooked, rfl, rfl, ?_, fun h => nomatch h⟩
      rintro p ⟨⟩
      exact ⟨List.mem_cons_self, List.mem_cons_self⟩
    | false =>
      refine (ih _).mono ?_
      rintro c' x ⟨found, rfl, h⟩
      have hlooked : Looked c { c with missing := path :: c.missing } :=
        ⟨⟨_, _, _, _, _, rfl⟩, List.Subset.refl _, List.subset_cons_self _ _⟩
      refine ⟨found, rfl, hlooked.trans h.looked, h.pathVar, h.home, ?_, ?_⟩
      · intro p hp
        exact ⟨List.mem_cons_of_mem _ (h.file p hp).1, (h.file p hp).2⟩
      · intro hnone
        exact List.forall_mem_cons.mpr ⟨h.looked.missing List.mem_cons_self, h.none hnone⟩

/-- What `whichOnPath` finds is a file, in one of the directories. -/
structure FoundOnPath (name : Str) (c c' : Course) (found : Option PathBuf) : Prop where
  looked : Looked c c'
  file : ∀ path, found = some path → path ∈ c'.files ∧ ∃ var, c'.pathVar = some var ∧
    ∃ dir ∈ Viewer.splitPaths var, path = dir.join name

theorem meets_whichOnPath (name : Str) (c : Course) :
    Meets (connectContract display args) (Returns (FoundOnPath name c)) c
      (Viewer.whichOnPath name) := by
  refine Meets.request trivial fun var => ?_
  have hread : Looked c { c with pathVar := var } :=
    ⟨⟨_, _, _, _, _, rfl⟩, List.Subset.refl _, List.Subset.refl _⟩
  cases var with
  | none => exact ⟨none, rfl, hread, fun path h => nomatch h⟩
  | some var =>
    refine (meets_firstFile _ _).mono ?_
    rintro c' x ⟨found, rfl, h⟩
    refine ⟨found, rfl, hread.trans h.looked, fun path hpath => ?_⟩
    obtain ⟨hmem, hfile⟩ := h.file path hpath
    obtain ⟨dir, hdir, rfl⟩ := List.mem_map.mp hmem
    exact ⟨hfile, var, h.pathVar, dir, hdir, rfl⟩

/-- What the search finds may be started. -/
structure FoundViewer (cfg : Config) (c c' : Course) (found : Option ViewerKind) : Prop where
  looked : Looked c c'
  launches : ∀ viewer, found = some viewer → ∀ id,
    Launches c' cfg id (Viewer.command viewer id).1 (Viewer.command viewer id).2

theorem meets_flatpakAvailable (c : Course) :
    Meets (connectContract display args) (Returns fun c' found => Looked c c' ∧
      (found = true → c'.flatpak = true)) c Viewer.flatpakAvailable := by
  refine (meets_whichOnPath _ _).then fun c₁ found h => ?_
  cases found with
  | none => exact ⟨false, rfl, h.looked, fun h => nomatch h⟩
  | some flatpak =>
    refine ⟨⟨(h.file flatpak rfl).1, rfl⟩, fun success => ⟨success, rfl, ?_, fun h => h⟩⟩
    exact h.looked.trans ⟨⟨_, _, _, _, _, rfl⟩, List.Subset.refl _, List.Subset.refl _⟩

theorem meets_defaultCandidates (cfg : Config) (c : Course) :
    Meets (connectContract display args) (Returns fun c' paths => Looked c c' ∧
      (∀ path ∈ paths, IsPlace c' cfg path) ∧ Viewer.fixedPlaces ⊆ paths) c
      Viewer.defaultCandidates := by
  refine (meets_whichOnPath _ _).then fun c₁ found h => ?_
  refine ⟨_, rfl, h.looked, fun path hpath => ?_, List.subset_append_right _ _⟩
  rcases List.mem_append.mp hpath with hpath | hpath
  · exact .inr (.inr (h.file path (Option.mem_toList.mp hpath)).2)
  · exact .inr (.inl hpath)

theorem meets_search (cfg : Config) (c : Course)
    (hfirst : ∀ p, cfg.general.viewerOverride = some p → p ∈ c.missing) :
    Meets (connectContract display args) (Returns (FoundViewer cfg c)) c Viewer.search := by
  refine (meets_defaultCandidates cfg c).then ?_
  rintro c₁ paths ⟨hlooked₁, hplaces, hfixed⟩
  refine (meets_firstFile _ _).then fun c₂ found h => ?_
  have hlooked := hlooked₁.trans h.looked
  cases found with
  | some path =>
    refine ⟨_, rfl, hlooked, ?_⟩
    rintro viewer ⟨⟩ id
    obtain ⟨hmem, hfile⟩ := h.file path rfl
    refine .native hfile ?_ fun p hp => .inr (hlooked.missing (hfirst p hp))
    rw [IsPlace, h.pathVar]
    exact hplaces path hmem
  | none =>
    refine (meets_flatpakAvailable _).then ?_
    rintro c₃ available ⟨hlooked₃, happ⟩
    cases available with
    | false => exact ⟨none, rfl, hlooked.trans hlooked₃, fun viewer h => nomatch h⟩
    | true =>
      refine ⟨_, rfl, hlooked.trans hlooked₃, ?_⟩
      rintro viewer ⟨⟩ id
      refine .flatpak (happ rfl) (fun p hp => hlooked₃.missing (h.none rfl p (hfixed hp))) ?_
      exact fun p hp => hlooked₃.missing (hlooked.missing (hfirst p hp))

theorem meets_detectWithOverride (cfg : Config) (c : Course) :
    Meets (connectContract display args) (Returns (FoundViewer cfg c)) c
      (Viewer.detectWithOverride cfg.general.viewerOverride) := by
  cases hoverride : cfg.general.viewerOverride with
  | none => exact meets_search cfg c fun p hp => by rw [hoverride] at hp; cases hp
  | some path =>
    refine Meets.request trivial fun found => ?_
    cases found with
    | true =>
      refine ⟨_, rfl, ⟨⟨_, _, _, _, _, rfl⟩, List.subset_cons_self _ _, List.Subset.refl _⟩, ?_⟩
      rintro viewer ⟨⟩ id
      refine .native List.mem_cons_self (.inl hoverride) fun p hp => .inl ?_
      exact Option.some.inj (hoverride.symm.trans hp)
    | false =>
      have hlooked : Looked c { c with missing := path :: c.missing } :=
        ⟨⟨_, _, _, _, _, rfl⟩, List.Subset.refl _, List.subset_cons_self _ _⟩
      have hfirst : ∀ p, cfg.general.viewerOverride = some p → p ∈ path :: c.missing := by
        intro p hp
        obtain rfl := Option.some.inj (hoverride.symm.trans hp)
        exact List.mem_cons_self
      refine (meets_search cfg _ hfirst).mono ?_
      rintro c' x ⟨found, rfl, h⟩
      exact ⟨found, rfl, hlooked.trans h.looked, h.launches⟩

/-! ### What stands before the tunnel -/

theorem meets_anyDefaultSshKey (c : Course) :
    Meets (connectContract display args) (Returns fun c' found => Looked c c' ∧
      (found = false → c'.Keyless)) c anyDefaultSshKey := by
  refine Meets.request trivial fun home => ?_
  have hread : Looked c { c with home := home } :=
    ⟨⟨_, _, _, _, _, rfl⟩, List.Subset.refl _, List.Subset.refl _⟩
  cases home with
  | none => exact ⟨false, rfl, hread, fun _ home h => nomatch h⟩
  | some home =>
    refine (meets_firstFile _ _).then fun c₁ found h => ?_
    refine ⟨found.isSome, rfl, hread.trans h.looked, fun hnone home' hhome path hpath => ?_⟩
    obtain rfl := Option.some.inj (h.home.symm.trans hhome)
    exact h.none (Option.isNone_iff_eq_none.mp (Option.isSome_eq_false_iff.mp hnone)) path hpath

/-- What `askPassword` returns is what the store has given, and otherwise it has only looked
around. -/
def Asked (c c' : Course) (x : Except CliError (Option Str)) : Prop :=
  ∃ c₁ password, Looked c c₁ ∧ c' = { c₁ with password := password } ∧
    ∀ p, x = .ok p → p = password

/-- The password of the server is asked for when each default key was missing. -/
theorem meets_askPassword {cfg : Config} {id : TargetId} {via : Str} {server : RemoteServer}
    (hcfg : c.cfg = some cfg) (hnone : c.password = none)
    (hresolved : Resolved args cfg id via server) :
    Meets (connectContract display args) (Asked c) c
      (askPassword cfg (effectiveServer args server)) := by
  refine (meets_anyDefaultSshKey c).then ?_
  rintro c₁ found ⟨hlooked, hkeyless⟩
  have hsame : c₁ = { c₁ with password := none } := by
    obtain ⟨_, _, _, _, _, rfl⟩ := hlooked.rest
    rw [← hnone]
  have hfailed : ∀ e, Asked c c₁ (.error e) := fun e =>
    ⟨c₁, none, hlooked, hsame, fun p h => nomatch h⟩
  have hwithout : Asked c c₁ (.ok none) := by
    refine ⟨c₁, none, hlooked, hsame, fun p h => ?_⟩
    exact (Except.ok.inj h).symm
  cases found with
  | true => exact hwithout
  | false =>
    have hc₁ : c₁.cfg = some cfg := by
      obtain ⟨_, _, _, _, _, rfl⟩ := hlooked.rest
      exact hcfg
    refine Meets.request trivial fun built => Meets.lift ?_ ?_
    · rintro - -
      have hname : (effectiveServer args server).name = server.name := by
        unfold effectiveServer
        split <;> rfl
      refine Meets.request ⟨hkeyless rfl, cfg, id, via, server, hc₁, hresolved, hname, rfl⟩ ?_
      intro stored
      cases stored with
      | ok password => exact ⟨c₁, some password, hlooked, rfl, fun p h => (Except.ok.inj h).symm⟩
      | error e =>
        cases e with
        | noStoredCredential => exact hwithout
        | _ => exact hfailed _
    · exact fun e _ => hfailed e

/-- The session is open, or the attempt has failed. -/
def Tried (c : Course) (server : RemoteServer) (c' : Course)
    (x : Except CliError (Bool × KnownHosts)) : Prop :=
  (∃ e kh, x = .error e ∧ c' = { c with hosts := some kh }) ∨ ∃ newlyPinned kh,
    x = .ok (newlyPinned, kh) ∧
      c' = { c with hosts := some kh, opened := some (server, newlyPinned) }

theorem meets_openTunnel {server : RemoteServer} {auth : AuthMaterial} {kh : KnownHosts}
    (hallowed : Allowed args c (.openSession server auth)) (hhosts : c.hosts = some kh) :
    Meets (connectContract display args) (Tried c server) c
      (openTunnel display server auth kh) := by
  refine Meets.request hallowed fun attempt => ?_
  have hnext : (connectContract display args).next c ⟨.openSession server auth, attempt⟩ =
      c.opening display server kh attempt := by
    simp only [connectContract, Course.next, hhosts]
  rw [hnext]
  unfold Course.opening
  rcases hopen : Session.openSession (display server.host) server.sshPort kh .trustOnFirstUse
    attempt with ⟨_ | ⟨port, newlyPinned⟩, kh', accepted⟩
  · exact .inl ⟨_, kh', rfl, rfl⟩
  · exact .inr ⟨newlyPinned, kh', rfl, rfl⟩

/-! ### While the session is open -/

/-- The session is open. -/
structure Open (c : Course) : Prop where
  opened : c.opened.isSome = true
  stopped : c.stopped = false
  disconnected : c.disconnected = false

/-- The session was just opened. -/
structure JustOpened (cfg : Config) (server : RemoteServer) (newlyPinned : Bool) (kh : KnownHosts)
    (c : Course) : Prop where
  cfg : c.cfg = some cfg
  hosts : c.hosts = some kh
  opened : c.opened = some (server, newlyPinned)
  hostsSaved : c.hostsSaved = false
  saved : c.saved = none
  started : c.started = false
  ended : c.ended = none
  stopped : c.stopped = false
  disconnected : c.disconnected = false

theorem Looked.open {c' : Course} (h : Looked c c') (hopen : Open c) : Open c' := by
  obtain ⟨_, _, _, _, _, rfl⟩ := h.rest
  exact ⟨hopen.opened, hopen.stopped, hopen.disconnected⟩

/-- A result of the viewer is how it has ended, and the session is still open. -/
def Watched (c : Course) (x : Except CliError ExitStatus) : Prop :=
  Open c ∧ ∀ status, x = .ok status → c.ended = some status.success

theorem watched_error {e : CliError} (h : Open c) : Watched c (.error e) :=
  ⟨h, fun _ hstatus => nomatch hstatus⟩

theorem meets_runViewer {cfg new : Config} {id : TargetId} {via : Str} {server : RemoteServer}
    (hopen : Open c) (hcfg : c.cfg = some cfg) (hresolved : Resolved args cfg id via server)
    (hgeneral : new.general = cfg.general) (hsaved : c.saved.isSome = true)
    (hstarted : c.started = false) (hended : c.ended = none) :
    Meets (connectContract display args) Watched c (runViewer new id) := by
  rw [runViewer, hgeneral]
  refine (meets_detectWithOverride cfg c).then fun c₁ found h => ?_
  have hopen₁ := h.looked.open hopen
  cases found with
  | none => exact watched_error hopen₁
  | some viewer =>
    have hallowed : Allowed args c₁
        (.spawn (Viewer.command viewer id).1 (Viewer.command viewer id).2) := by
      have hlaunches := h.launches viewer rfl id
      obtain ⟨_, _, _, _, _, rfl⟩ := h.looked.rest
      exact ⟨hstarted, hopen.stopped, hsaved, cfg, id, via, server, hcfg, hresolved, hlaunches⟩
    have hended₁ : c₁.ended = none := by
      obtain ⟨_, _, _, _, _, rfl⟩ := h.looked.rest
      exact hended
    refine Meets.request hallowed fun spawned => ?_
    cases spawned with
    | error e => exact watched_error hopen₁
    | ok _ =>
      have hopen₂ : Open { c₁ with started := true } :=
        ⟨hopen₁.opened, hopen₁.stopped, hopen₁.disconnected⟩
      refine Meets.request ⟨rfl, hended₁⟩ fun waited => ?_
      cases waited with
      | error e => exact watched_error hopen₂
      | ok status =>
        refine ⟨⟨hopen₁.opened, hopen₁.stopped, hopen₁.disconnected⟩, ?_⟩
        rintro _ ⟨⟩
        rfl

theorem meets_savePin {cfg : Config} {server : RemoteServer} {newlyPinned : Bool}
    {kh : KnownHosts} (h : JustOpened cfg server newlyPinned kh c) :
    Meets (connectContract display args) (fun c' x => (∃ e, x = .error e ∧ c' = c) ∨
      x = .ok () ∧ c' = { c with hostsSaved := newlyPinned }) c (savePin newlyPinned kh) := by
  cases newlyPinned with
  | false => exact .inr ⟨rfl, by rw [← h.hostsSaved]⟩
  | true =>
    refine Meets.request ⟨h.hostsSaved, h.stopped, h.hosts, server, h.opened⟩ fun saved => ?_
    cases saved with
    | error e => exact .inl ⟨_, rfl, rfl⟩
    | ok _ => exact .inr ⟨rfl, rfl⟩

theorem meets_whileOpen {cfg : Config} {id : TargetId} {via : Str}
    {registered server : RemoteServer} {newlyPinned : Bool} {kh : KnownHosts}
    (h : JustOpened cfg server newlyPinned kh c)
    (hresolved : Resolved args cfg id via registered) :
    Meets (connectContract display args) Watched c (whileOpen cfg via id newlyPinned kh) := by
  have hopen : Open c := ⟨by rw [h.opened]; rfl, h.stopped, h.disconnected⟩
  refine (meets_savePin h).bind ?_ ?_
  · rintro c₁ _ (⟨e, he, -⟩ | ⟨-, rfl⟩)
    · cases he
    have hopen₁ : Open { c with hostsSaved := newlyPinned } :=
      ⟨hopen.opened, hopen.stopped, hopen.disconnected⟩
    refine Meets.request trivial fun t => Meets.lift ?_ ?_
    · intro new hnew
      obtain ⟨i, hfind, rfl⟩ := Config.updateServer_eq_ok (Cli.orContext_eq_ok.mp hnew)
      obtain ⟨matched, htarget, hvia⟩ := hresolved.route
      refine Meets.request ⟨h.saved, h.stopped, ⟨server, newlyPinned, h.opened, fun hp => hp⟩,
        cfg, t, h.cfg, rfl, .connect id matched via i htarget hvia hfind⟩ fun saved => ?_
      cases saved with
      | error e => exact watched_error ⟨hopen.opened, hopen.stopped, hopen.disconnected⟩
      | ok _ =>
        exact meets_runViewer ⟨hopen.opened, hopen.stopped, hopen.disconnected⟩ h.cfg hresolved
          rfl rfl h.started h.ended
    · exact fun e _ => watched_error ⟨hopen.opened, hopen.stopped, hopen.disconnected⟩
  · rintro c₁ e (⟨_, -, rfl⟩ | ⟨he, -⟩)
    · exact watched_error hopen
    · cases he

/-! ### The end -/

/-- With an error the session was dropped; otherwise it is open, and the viewer has ended. -/
def Left (c : Course) (x : Except CliError ExitStatus) : Prop :=
  c.opened.isSome = true ∧ c.disconnected = false ∧
    match x with
    | .ok status => c.stopped = false ∧ c.ended = some status.success
    | .error _ => c.stopped = true

theorem meets_orDrop {p : Local ExitStatus}
    (h : Meets (connectContract display args) Watched c p) :
    Meets (connectContract display args) Left c (orDrop p) := by
  have hattempt : Meets (connectContract display args) (Returns Watched) c p.attempt :=
    h.attempt fun c₁ x hx => ⟨x, rfl, hx⟩
  refine hattempt.then ?_
  rintro c₁ x ⟨hopen, hended⟩
  cases x with
  | ok status => exact ⟨hopen.opened, hopen.disconnected, hopen.stopped, hended status rfl⟩
  | error e =>
    exact Meets.request ⟨hopen.opened, hopen.stopped⟩ fun _ =>
      ⟨hopen.opened, hopen.disconnected, rfl⟩

theorem meets_close (hopened : c.opened.isSome = true) (hstopped : c.stopped = false)
    (hdisconnected : c.disconnected = false) (hended : c.ended.isSome = true) :
    Meets (connectContract display args) (fun c' x => c'.opened.isSome = true ∧
      c'.stopped = true ∧ c'.ended = c.ended ∧ (x = .ok () ↔ c'.disconnected = true)) c close := by
  refine Meets.request ⟨hopened, hstopped⟩ fun _ => Meets.request ⟨rfl, hended⟩ fun done => ?_
  cases done with
  | error e =>
    refine ⟨hopened, rfl, rfl, (fun h => nomatch h), fun h => ?_⟩
    exact absurd (hdisconnected.symm.trans h) Bool.false_ne_true
  | ok _ => exact ⟨hopened, rfl, rfl, fun _ => rfl, fun _ => rfl⟩

/-- Without a session there is only failure. -/
theorem ends_error {e : CliError} (hopened : c.opened = none) (hstopped : c.stopped = false)
    (hdisconnected : c.disconnected = false) : Ends c (.error e) where
  stopped := by rw [hopened, hstopped]; rfl
  success := by simp [hdisconnected]

theorem ends_left {e : CliError} (h : Left c (.error e)) : Ends c (.error e) where
  stopped := by rw [h.1]; exact h.2.2
  success := by simp [h.2.1]

theorem meets_finish {id : TargetId} {via : Str} {cfg : Config} {server registered : RemoteServer}
    {newlyPinned : Bool} {kh : KnownHosts} (h : JustOpened cfg server newlyPinned kh c)
    (hresolved : Resolved args cfg id via registered) :
    Meets (connectContract display args) Ends c (finish cfg via id newlyPinned kh) := by
  refine (meets_orDrop (meets_whileOpen h hresolved)).bind ?_ fun _ _ => ends_left
  rintro c₁ status ⟨hopened, hdisconnected, hstopped, hended⟩
  refine (meets_close hopened hstopped hdisconnected (by rw [hended]; rfl)).bind ?_ ?_
  · rintro c₂ _ ⟨hopened₂, hstopped₂, hended₂, hdone⟩
    rw [hended] at hended₂
    have hdisconnected₂ := hdone.mp rfl
    split
    · next hsuccess =>
      refine ⟨hstopped₂.trans hopened₂.symm, fun _ => ⟨?_, hdisconnected₂⟩, fun _ => rfl⟩
      rw [hended₂, hsuccess]
    · next hsuccess =>
      refine ⟨hstopped₂.trans hopened₂.symm, (fun h => nomatch h), fun h => ?_⟩
      exact absurd (Option.some.inj (hended₂.symm.trans h.1)) hsuccess
  · rintro c₂ e ⟨hopened₂, hstopped₂, -, hdone⟩
    refine ⟨hstopped₂.trans hopened₂.symm, (fun h => nomatch h), fun h => ?_⟩
    cases hdone.mpr h.2

theorem meets_run : Meets (connectContract display args) Ends .start (run display args) := by
  refine Meets.request trivial fun loaded => Meets.lift ?_ fun e _ => ?_
  · intro cfg hcfg
    obtain rfl := Cli.orContext_eq_ok.mp hcfg
    refine Meets.lift (fun target htarget => ?_) fun e _ => ends_error rfl rfl rfl
    obtain ⟨id, matched⟩ := target
    refine Meets.lift (fun via hvia => ?_) fun e _ => ends_error rfl rfl rfl
    refine Meets.lift (fun server hserver => ?_) fun e _ => ends_error rfl rfl rfl
    have hresolved : Resolved args cfg id via server :=
      ⟨⟨matched, htarget, hvia⟩, Cli.orContext_eq_ok.mp hserver⟩
    refine (meets_askPassword rfl rfl hresolved).bind ?_ ?_
    · rintro c₁ password ⟨c₀, given, hlooked, rfl, hgiven⟩
      obtain rfl := hgiven password rfl
      obtain ⟨home, pathVar, files, missing, flatpak, rfl⟩ := hlooked.rest
      refine Meets.request trivial fun hosts => Meets.lift (fun kh hkh => ?_) fun e _ => ?_
      · obtain rfl := Cli.orContext_eq_ok.mp hkh
        refine (meets_openTunnel
          ⟨rfl, rfl, rfl, cfg, id, via, server, rfl, hresolved, rfl⟩ rfl).bind ?_ ?_
        · rintro c₂ _ (⟨e, kh', h, -⟩ | ⟨newlyPinned, kh', h, rfl⟩)
          · cases h
          obtain rfl := Except.ok.inj h
          exact meets_finish ⟨rfl, rfl, rfl, rfl, rfl, rfl, rfl, rfl, rfl⟩ hresolved
        · rintro c₂ e (⟨e', kh', -, rfl⟩ | ⟨newlyPinned, kh', h, -⟩)
          · exact ends_error rfl rfl rfl
          · cases h
      · cases hosts <;> exact ends_error rfl rfl rfl
    · rintro c₁ e ⟨c₀, given, hlooked, rfl, -⟩
      obtain ⟨_, _, _, _, _, rfl⟩ := hlooked.rest
      exact ends_error rfl rfl rfl
  · cases loaded <;> exact ends_error rfl rfl rfl

/-- **The course of `connect`**: whatever it is answered, each request is one that is allowed behind
the events before it, and it comes to its end only as `Ends` says. -/
theorem connect_course {display : IpAddr → Str} {args : ConnectArgs}
    {tr : List (Interaction.Event LocalRequest.Reply)} {r : Option (Except CliError Unit)}
    (h : Run (run display args) tr r) :
    (∀ before e behind, tr = before ++ e :: behind →
      Allowed args ((connectContract display args).after .start before) e.request) ∧
      ∀ x, r = some x → Ends ((connectContract display args).after .start tr) x := by
  obtain ⟨hkept, hends⟩ := meets_run.run h
  exact ⟨Contract.kept_iff.mp hkept, hends⟩

/-- A machine with a key and a viewer, and a server that it has not seen before. -/
def friendly : Interaction.Env LocalRequest.Reply Unit where
  answer := fun _ q => (match q with
    | .loadConfig => .ok { Config.empty with
        servers := [.new "relay".toList (.v4 0x0A000001) "admin".toList 22 21116 ⟨0, 0⟩] }
    | .homeDir => some (.fromStr "/home/me".toList)
    | .isFile _ => true
    | .pathVar => none
    | .status _ _ => false
    | .credentialStore _ => .ok ()
    | .getPassword server user => .error (.noStoredCredential server user)
    | .loadKnownHosts => .ok ⟨.empty⟩
    | .openSession _ _ => ⟨⟨[], [], ⟨0, 0⟩⟩, .ok (), .ok (), .ok 40000⟩
    | .saveKnownHosts _ => .ok ()
    | .now => ⟨0, 0⟩
    | .saveConfig _ => .ok ()
    | .spawn _ _ => .ok ()
    | .wait => .ok ⟨true, []⟩
    | .stopForwarder => ()
    | .disconnect => .ok (), ())

/-- A run there starts the viewer and ends well. -/
theorem connect_course_friendly : ∃ tr,
    Run (run (fun _ => []) ⟨"123456789".toList, some "relay".toList, none⟩) tr (some (.ok ())) ∧
      (∀ before e behind, tr = before ++ e :: behind →
        Allowed ⟨"123456789".toList, some "relay".toList, none⟩
          ((connectContract (fun _ => []) ⟨"123456789".toList, some "relay".toList, none⟩).after
            .start before) e.request) ∧
      Ends ((connectContract (fun _ => []) ⟨"123456789".toList, some "relay".toList, none⟩).after
        .start tr) (.ok ()) := by
  have hvalue : friendly.value ()
      (run (fun _ => []) ⟨"123456789".toList, some "relay".toList, none⟩) = some () := by decide
  have hrun := Interaction.Env.runs_value hvalue
  obtain ⟨hallowed, hends⟩ := connect_course hrun.1
  exact ⟨_, hrun.1, hallowed, hends _ rfl⟩

end Connect

end Rustmote
