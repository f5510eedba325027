import Rustmote.RelayLifecycle.Returning
import Rustmote.RelayLifecycle.Simulation

/-!
# Install paths that are rejected

No operation validates its install path by itself: the path, or what was joined to it, is
validated where a command is built. Joining keeps a path rejected (`rejected_derived`), so the
first command that would have to do with the path is not sent.

The empty path is the exception: joined with a name it is a path below the root.
`rejected_path_iff` — the operations refuse a rejected path exactly when it is not empty; with the
empty path `check_updates` reads the state file of the root directory, and returns
(`empty_path_checked`).
-/

namespace Rustmote

open Interaction (Env Prog)
open Interaction.Prog (Always NoCut)

/-- The paths that the operations make of an install path. -/
inductive Derived (p : PathBuf) : PathBuf → Prop where
  /-- The path itself. -/
  | install : Derived p p
  /-- A name joined to one of them. -/
  | join {q : PathBuf} (x : Str) : Derived p q → Derived p (posixJoin q x)

theorem posixJoin_ne_empty (base : PathBuf) (x : Str) : posixJoin base x ≠ ⟨[]⟩ := by
  intro h
  have htext : (posixJoin base x).toStringLossy = [] := by
    rw [h]
    rfl
  rw [posixJoin, PathBuf.toStringLossy_fromStr] at htext
  simp at htext

/-- **What is derived from a rejected path is rejected**, unless the path is empty. -/
theorem rejected_derived {p q : PathBuf} (h : Rejected p) (hne : p ≠ ⟨[]⟩) (hq : Derived p q) :
    Rejected q := by
  have hboth : Rejected q ∧ q ≠ ⟨[]⟩ := by
    induction hq with
    | install => exact ⟨h, hne⟩
    | join x _ ih => exact ⟨rejected_posixJoin ih.1 ih.2 x, posixJoin_ne_empty _ x⟩
  exact hboth.1

/-- The operation returns an error, and none of its commands has to do with a path. -/
def Refuses {α : Type} (prog : Relay α) : Prop :=
  ∀ {W : Type} (env : Env Request.Reply W) (w : W), ∃ tr e w', env.Runs w prog tr (.error e) w' ∧
    ∀ event ∈ tr, ∀ cmd, event.request = .exec cmd → cmd ∈ hostCommands

namespace RelayLifecycle

variable {self : RelayLifecycle} {p : PathBuf}

/-- A program without bounded loops that returns nothing and only asks for the system and for
Docker. -/
theorem refuses_of_always {α : Type} {prog : Relay α} (hcut : NoCut prog)
    (h : Always (fun _ => True) (Asks False False (· ∈ hostCommands)) prog fun _ => False) :
    Refuses prog := by
  intro W env w
  obtain ⟨tr, r, w', hrun⟩ : env.Ends w prog := Env.ends_of_noCut hcut
  cases r with
  | ok a => exact absurd (hrun.value h) not_false
  | error e =>
    refine ⟨tr, e, w', hrun, fun event hevent cmd hcmd => ?_⟩
    have hasks := hrun.requests h event hevent
    rw [hcmd] at hasks
    exact hasks

theorem refuses_fail {α : Type} (e : RustmoteError) : Refuses (.fail e : Relay α) :=
  refuses_of_always .fail .fail

/-! ### Where a rejected path is met -/

theorem pathExists_of_rejected (directory : Bool) (h : Rejected p) :
    ∃ e, pathExists p directory = .fail e := by
  obtain ⟨e, he⟩ := h
  have hbuilt : ∀ utility, Commands.onPath utility p = .error e := fun utility => by
    rw [Commands.onPath, he]
    rfl
  refine ⟨e, ?_⟩
  unfold pathExists
  cases directory with
  | true =>
    rw [if_pos rfl, Commands.testDirExists, hbuilt]
    rfl
  | false =>
    rw [if_neg Bool.false_ne_true, Commands.testFileExists, hbuilt]
    rfl

theorem loadState_of_rejected (self : RelayLifecycle) (h : Rejected (statePath p)) :
    ∃ e, self.loadState p = .fail e := by
  obtain ⟨e, he⟩ := pathExists_of_rejected false h
  refine ⟨e, ?_⟩
  show (pathExists (statePath p) false >>= fun found =>
    if found then self.readState (statePath p) else .fail (.relayNotInstalled p.toStringLossy)) = _
  rw [he]
  rfl

theorem checkUpdates_of_rejected (self : RelayLifecycle) (h : Rejected (statePath p)) :
    ∃ e, self.checkUpdates p = .fail e := by
  obtain ⟨e, he⟩ := loadState_of_rejected self h
  refine ⟨e, ?_⟩
  unfold checkUpdates
  rw [he]
  rfl

/-- **`bootstrap` refuses every rejected path**: it asks for the directory itself. -/
theorem refuses_bootstrap (opts : BootstrapOptions) (h : Rejected opts.installPath) :
    Refuses (self.bootstrap opts) := by
  obtain ⟨e, he⟩ := pathExists_of_rejected true h
  refine refuses_of_always ?_ ?_
  · unfold bootstrap
    rw [he]
    exact (noCut_osOf _).bind fun _ => noCut_ensureDockerStack.bind fun _ => .fail
  · unfold bootstrap
    rw [he]
    exact (host_osOf _).bind fun _ _ => host_ensureDockerStack.bind fun _ _ => .fail

theorem refuses_checkUpdates (h : Rejected (statePath p)) : Refuses (self.checkUpdates p) := by
  obtain ⟨e, he⟩ := checkUpdates_of_rejected self h
  rw [he]
  exact refuses_fail e

theorem refuses_update (opts : UpdateOptions) (h : Rejected (statePath opts.installPath)) :
    Refuses (self.update opts) := by
  obtain ⟨e, he⟩ := checkUpdates_of_rejected self h
  unfold update
  by_cases hconfirmed : (!opts.assumeYes && !opts.isTty) = true
  · rw [if_pos hconfirmed]
    exact refuses_fail _
  · rw [if_neg hconfirmed, he]
    exact refuses_fail e

theorem refuses_status (h : Rejected (statePath p)) : Refuses (self.status p) := by
  obtain ⟨e, he⟩ := loadState_of_rejected self h
  unfold status
  rw [he]
  exact refuses_fail e

/-! ### The empty path -/

/-- A path that is accepted is asked for. -/
theorem pathExists_of_built {path : PathBuf} {cmd : Str}
    (h : Commands.testFileExists path = .ok cmd) :
    ∃ k, pathExists path false = .ask (.exec cmd) k := by
  unfold pathExists
  rw [if_neg Bool.false_ne_true, h]
  exact ⟨_, rfl⟩

/-- The first command of `check_updates` with the empty path. -/
def rootStateTest : Str := "test -f /.rustmote-state.toml".toList

theorem rootStateTest_not_host : rootStateTest ∉ hostCommands := by decide

/-- **With the empty path** the state file of the root directory is looked for. -/
theorem asks_rootState {W : Type} {env : Env Request.Reply W} {w w' : W} {tr : List Event}
    {r : Except RustmoteError CheckUpdatesReport}
    (h : env.Runs w (self.checkUpdates ⟨[]⟩) tr r w') :
    ∃ event ∈ tr, event.request = .exec rootStateTest := by
  have hbuilt : Commands.testFileExists (statePath ⟨[]⟩) = .ok rootStateTest := by decide
  obtain ⟨k, hk⟩ := pathExists_of_built hbuilt
  replace h : env.Runs w ((pathExists (statePath ⟨[]⟩) false >>= fun found =>
      if found then self.readState (statePath ⟨[]⟩)
      else .fail (.relayNotInstalled (PathBuf.toStringLossy ⟨[]⟩))) >>= fun state => do
        let images ← checkImages state.images
        return (⟨⟨[]⟩, images⟩ : CheckUpdatesReport)) tr r w' := h
  rw [hk] at h
  obtain ⟨tr', rfl, -⟩ := Env.runs_ask_iff.mp h
  exact ⟨_, List.mem_cons_self, rfl⟩

/-- The operations refuse the path. -/
structure RefusePath (relay : RelayLifecycle) (p : PathBuf) : Prop where
  /-- `bootstrap` does. -/
  bootstrap : ∀ opts : BootstrapOptions, opts.installPath = p → Refuses (relay.bootstrap opts)
  /-- `check_updates` does. -/
  checkUpdates : Refuses (relay.checkUpdates p)
  /-- `update` does. -/
  update : ∀ opts : UpdateOptions, opts.installPath = p → Refuses (relay.update opts)
  /-- `status` does. -/
  status : Refuses (relay.status p)

/-- **Which rejected paths are refused**: all but the empty one. -/
theorem rejected_path_iff (self : RelayLifecycle) (p : PathBuf) (h : Rejected p) :
    RefusePath self p ↔ p ≠ ⟨[]⟩ := by
  constructor
  · rintro hrefuse rfl
    obtain ⟨tr, e, w', hrun, hhost⟩ := hrefuse.checkUpdates
      (Sample.host fun _ _ => none).env Sample.start
    obtain ⟨event, hevent, hrequest⟩ := asks_rootState hrun
    exact rootStateTest_not_host (hhost event hevent _ hrequest)
  · intro hne
    have hstate : Rejected (statePath p) := rejected_derived h hne (.join stateName .install)
    constructor
    · rintro opts rfl
      exact refuses_bootstrap opts h
    · exact refuses_checkUpdates hstate
    · rintro opts rfl
      exact refuses_update opts hstate
    · exact refuses_status hstate

theorem rejected_empty : Rejected ⟨[]⟩ := ⟨.invalidRelayPath [], by decide⟩

/-- A relative path. -/
def relativePath : PathBuf := .fromStr "srv/relay/".toList

theorem rejected_relativePath : Rejected relativePath :=
  ⟨.invalidRelayPath "srv/relay/".toList, by decide⟩

/-- A relative path is refused, and the empty one is not. -/
theorem rejected_path_sample :
    RefusePath Sample.relay relativePath ∧ ¬ RefusePath Sample.relay ⟨[]⟩ :=
  ⟨(rejected_path_iff Sample.relay relativePath rejected_relativePath).mpr (by decide), fun h =>
    (rejected_path_iff Sample.relay ⟨[]⟩ rejected_empty).mp h rfl⟩

/-- A host with a state file in its root directory. -/
def rootStart : Script.World :=
  ⟨Sample.withFile Sample.root [] stateName (Toml.stateText Sample.state), 0⟩

/-- **The empty path is rejected but not refused**: on a host with a state file in its root
directory `check_updates` looks for that file and returns a report. -/
theorem empty_path_checked :
    Rejected ⟨[]⟩ ∧ ∃ tr report w',
      (Sample.host fun _ _ => none).env.Runs rootStart (Sample.relay.checkUpdates ⟨[]⟩) tr
        (.ok report) w' ∧ ∃ event ∈ tr, event.request = .exec rootStateTest := by
  have hvalue : ((Sample.host fun _ _ => none).env.value rootStart
      (Sample.relay.checkUpdates ⟨[]⟩)).isSome = true := by decide +kernel
  obtain ⟨report, hreport⟩ := Option.isSome_iff_exists.mp hvalue
  have hrun := Env.runs_value hreport
  exact ⟨rejected_empty, _, report, _, hrun, asks_rootState hrun⟩

end RelayLifecycle

end Rustmote
