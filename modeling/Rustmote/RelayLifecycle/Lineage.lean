import Mathlib.Logic.Relation
import Rustmote.RelayLifecycle.Cleaning
import Rustmote.RelayLifecycle.Untouched

/-!
# The state file as a register

Every operation of the lifecycle begins with the state file, and an update replaces it. Over the
files of a host this is a register: `Register` reads what was written last, and a write is the
state that an update makes of the one it has found. `register_refined` says that the operations
of a relay, one after another and whatever comes of each, are a run of the register.

* `Successor` — the state that an update makes of another.
* `Observation` — what an operation shows of the state; `Register.Step` — what it may show, and
  what is held behind it.
* `Applies` — a run of `update` from the point on where it touches the install.
* `Operates` — an operation on an install, and `History` — operations one after another.

Where the registry answers as before, an update has nothing to do behind another one:
`update_idempotent`.
-/

namespace Rustmote

open Interaction (Env)
open Interaction.Prog (Run Always)
open FileTree

/-! ### The register -/

/-- The state that an update makes of another one: new pins for the same services, one of them
with another digest, and the time. -/
def Successor (old new : RelayState) : Prop :=
  ∃ (updates : List ImageUpdate) (now : DateTime),
    List.Forall₂ Host.Concerns old.images updates ∧
      updates.any ImageUpdate.updateAvailable = true ∧
      new = old.applyUpdate (updates.map (ImageUpdate.newPin now)) now

/-- The states that come of one by updates. -/
abbrev Lineage : RelayState → RelayState → Prop := Relation.ReflTransGen Successor

/-- The states are of one install. -/
structure SameOrigin (old new : RelayState) : Prop where
  /-- The time of the bootstrap. -/
  bootstrappedAt : new.install.bootstrappedAt = old.install.bootstrappedAt
  /-- The version that made it. -/
  version : new.install.bootstrappedByRustmoteVersion = old.install.bootstrappedByRustmoteVersion
  /-- The services, in their order. -/
  services : new.images.map ImagePin.service = old.images.map ImagePin.service
  /-- Their repositories. -/
  repos : new.images.map ImagePin.repo = old.images.map ImagePin.repo

theorem SameOrigin.refl (state : RelayState) : SameOrigin state state := ⟨rfl, rfl, rfl, rfl⟩

theorem SameOrigin.trans {s₁ s₂ s₃ : RelayState} (h₁ : SameOrigin s₁ s₂) (h₂ : SameOrigin s₂ s₃) :
    SameOrigin s₁ s₃ :=
  ⟨h₂.bootstrappedAt.trans h₁.bootstrappedAt, h₂.version.trans h₁.version,
    h₂.services.trans h₁.services, h₂.repos.trans h₁.repos⟩

/-- The new pins are for the services of the old ones. -/
theorem map_newPin_of_concerns {pins : List ImagePin} {updates : List ImageUpdate}
    (h : List.Forall₂ Host.Concerns pins updates) (now : DateTime) :
    (updates.map (ImageUpdate.newPin now)).map ImagePin.service = pins.map ImagePin.service ∧
      (updates.map (ImageUpdate.newPin now)).map ImagePin.repo = pins.map ImagePin.repo := by
  induction h with
  | nil => exact ⟨rfl, rfl⟩
  | cons hu _ ih =>
    simp only [List.map_cons, List.cons.injEq, ImageUpdate.newPin]
    exact ⟨⟨hu.1, ih.1⟩, hu.2.1, ih.2⟩

theorem Successor.sameOrigin {old new : RelayState} (h : Successor old new) :
    SameOrigin old new := by
  obtain ⟨updates, now, hconcerns, -, rfl⟩ := h
  obtain ⟨hservices, hrepos⟩ := map_newPin_of_concerns hconcerns now
  exact ⟨rfl, rfl, hservices, hrepos⟩

/-- An update does not make the state that it has found. -/
theorem Successor.ne {old new : RelayState} (h : Successor old new) : new ≠ old := by
  obtain ⟨updates, now, hconcerns, havailable, rfl⟩ := h
  exact fun heq => Host.newPins_ne hconcerns havailable (congrArg RelayState.images heq)

theorem Lineage.sameOrigin {old new : RelayState} (h : Lineage old new) : SameOrigin old new := by
  induction h with
  | refl => exact .refl old
  | tail _ hlast ih => exact ih.trans hlast.sameOrigin

/-- What an operation shows of the state. -/
inductive Observation where
  /-- It reports this state as the one it has found. -/
  | read (state : RelayState)
  /-- It reports this about the pins of the state. -/
  | checked (images : List ImageUpdate)
  /-- It reports this state as the one it has written. -/
  | wrote (state : RelayState)
  /-- It failed, and does not write. -/
  | refused
  /-- It failed, and may have written. -/
  | broken

/-- What is shown of a state, and what is held behind it. -/
inductive Register.Step : RelayState → Observation → RelayState → Prop where
  | read {state : RelayState} : Register.Step state (.read state) state
  | checked {state : RelayState} {images : List ImageUpdate}
      (h : List.Forall₂ Host.Concerns state.images images) :
      Register.Step state (.checked images) state
  | wrote {old new : RelayState} (h : Successor old new) : Register.Step old (.wrote new) new
  | refused {state : RelayState} : Register.Step state .refused state
  | kept {state : RelayState} : Register.Step state .broken state
  | left {old new : RelayState} (h : Successor old new) : Register.Step old .broken new

/-- A register, from one state on. -/
inductive Register : RelayState → List Observation → RelayState → Prop where
  | nil {state : RelayState} : Register state [] state
  | cons {s₁ s₂ s₃ : RelayState} {seen : Observation} {rest : List Observation}
      (hstep : Register.Step s₁ seen s₂) (hrest : Register s₂ rest s₃) :
      Register s₁ (seen :: rest) s₃

theorem Register.Step.lineage {s s' : RelayState} {seen : Observation}
    (h : Register.Step s seen s') : Lineage s s' := by
  cases h with
  | wrote h => exact .single h
  | left h => exact .single h
  | _ => exact .refl

/-- What a register holds comes of what it has held. -/
theorem Register.lineage {s s' : RelayState} {seen : List Observation} (h : Register s seen s') :
    Lineage s s' := by
  induction h with
  | nil => exact .refl
  | cons hstep _ ih => exact hstep.lineage.trans ih

/-- What is read was held, so it comes of what was held before, and what is held later comes of
it. -/
theorem Register.lineage_of_mem {s s' state : RelayState} {seen : List Observation}
    (h : Register s seen s') (hmem : .read state ∈ seen ∨ .wrote state ∈ seen) :
    Lineage s state ∧ Lineage state s' := by
  induction h with
  | nil => simp at hmem
  | @cons s₁ s₂ s₃ shown rest hstep hrest ih =>
    simp only [List.mem_cons] at hmem
    have hhead : shown = .read state ∨ shown = .wrote state →
        Lineage s₁ state ∧ Lineage state s₃ := by
      rintro (rfl | rfl)
      · cases hstep
        exact ⟨.refl, hrest.lineage⟩
      · cases hstep with
        | wrote hsucc => exact ⟨.single hsucc, hrest.lineage⟩
    have htail : .read state ∈ rest ∨ .wrote state ∈ rest →
        Lineage s₁ state ∧ Lineage state s₃ := fun hrest' =>
      ⟨hstep.lineage.trans (ih hrest').1, (ih hrest').2⟩
    rcases hmem with (heq | hread) | heq | hwrote
    · exact hhead (.inl heq.symm)
    · exact htail (.inl hread)
    · exact hhead (.inr heq.symm)
    · exact htail (.inr hwrote)

/-! ### What an update does to the state file -/

/-- If the event copies a file over the state file, it comes to its end. -/
def RestoresState (p : PathBuf) (e : Event) : Prop :=
  ∀ src cmd, Commands.copyFile src (statePath p) = .ok cmd → e.request = .exec cmd → Host.Clean e

/-- Fewer times ask for less. -/
theorem ListsBackups.mono {p : PathBuf} {ts ts' : List DateTime} {e : Event}
    (h : ListsBackups p ts e) (hsub : ∀ t ∈ ts', t ∈ ts) : ListsBackups p ts' e := by
  obtain ⟨q, reply⟩ := e
  cases q with
  | exec cmd =>
    cases reply with
    | ok out => exact fun hcmd hcode now hnow => h hcmd hcode now (hsub now hnow)
    | error e => trivial
  | _ => trivial

namespace Host

open RelayLifecycle

variable {H : Host} {w w' : H.World} {p : PathBuf} {tr : List Event} {self : RelayLifecycle}

/-- The commands of an update before it touches the install. -/
abbrev Leading (p : PathBuf) (q : Request) : Prop :=
  Asks False True (Before p fun _ => True) q

/-- They leave the state file alone. -/
theorem stateFile_of_leading (h : ∀ e ∈ tr, Leading p e.request) :
    (H.tree (H.env.final w tr)).fileAt (place (statePath p)) =
      (H.tree w).fileAt (place (statePath p)) := by
  rw [place_statePath]
  exact fileAt_congr (node_before h (by decide))

/-- A run of `update` that comes to write: what it has asked before, and what it goes on with. -/
structure Applies (H : Host) (relay : RelayLifecycle) (opts : UpdateOptions) (w w' : H.World)
    (tr : List Event) (r : Except RustmoteError UpdateReport) (found : CheckUpdatesReport)
    (now : DateTime) (new : RelayState) : Prop where
  /-- What `check_updates` has reported. -/
  checked : ∃ t w₁, t <+: tr ∧ H.env.Runs w (relay.checkUpdates opts.installPath) t (.ok found) w₁
  /-- Some digest has changed. -/
  available : found.anyUpdateAvailable = true
  /-- The time was asked for. -/
  shown : Shown tr now
  /-- The rest of the run. -/
  rest : ∃ t₁ t₂ w₁ backupDir newCompose, tr = t₁ ++ t₂ ∧ H.env.final w t₁ = w₁ ∧
    (∀ e ∈ t₁, Leading opts.installPath e.request) ∧
    (if opts.skipBackup then backupDir = none
      else backupDir = some (backupDirFor opts.installPath now) ∧
        InBackup opts.installPath now (H.tree w) (H.tree w₁)) ∧
    H.env.Runs w₁ (do
      relay.install opts.installPath new newCompose
      relay.conclude opts now backupDir new) t₂ r w'

/-- What `prepare` makes of the state that the file says. -/
theorem runs_prepare_applied {opts : UpdateOptions} {found : CheckUpdatesReport} {now : DateTime}
    {state newState : RelayState} {newCompose : Str}
    (h : H.env.Runs w (self.prepare opts found now) tr (.ok (newState, newCompose)) w')
    (hstate : HoldsState self.toml (H.tree w) opts.installPath state) :
    newState = state.applyUpdate (found.images.map (ImageUpdate.newPin now)) now := by
  unfold prepare at h
  obtain ⟨state', t₁, t₂, w₁, -, hload, h₁⟩ := Env.runs_bind_ok h
  obtain ⟨compose, t₃, t₄, w₂, -, -, h₂⟩ := Env.runs_bind_ok h₁
  obtain ⟨-, hret, -⟩ := Env.runs_ret_iff.mp h₂
  cases hret
  rw [hstate.unique (runs_loadState_ok hload)]

/-- **A run of `update`** leaves the install alone, or comes to write the successor of the state
that it has found. -/
theorem runs_update_applies {opts : UpdateOptions} {r : Except RustmoteError UpdateReport}
    {state : RelayState} (h : H.env.Runs w (self.update opts) tr r w')
    (hstate : HoldsState self.toml (H.tree w) opts.installPath state) :
    ((∀ e ∈ tr, Leading opts.installPath e.request) ∧
        ∀ report, r = .ok report → report.changed = false ∧ report.newState = state) ∨
      ∃ found now, Applies H self opts w w' tr r found now
        (state.applyUpdate (found.images.map (ImageUpdate.newPin now)) now) := by
  have hreads : ∀ {α : Type} {prog : Relay α} {Q : α → Prop},
      Always (fun _ => True) (Asks False True (Reads opts.installPath)) prog Q →
        Always (fun _ => True) (Leading opts.installPath) prog Q := fun hprog =>
    always_before hprog
  -- a run that fails before it writes
  have hfails : ∀ {e : RustmoteError}, r = .error e →
      (∀ e ∈ tr, Leading opts.installPath e.request) →
        (∀ e ∈ tr, Leading opts.installPath e.request) ∧
          ∀ report, r = .ok report → report.changed = false ∧ report.newState = state := by
    rintro e rfl hasks
    exact ⟨hasks, fun report hr => by cases hr⟩
  have hrun := h
  unfold update at hrun
  by_cases hconfirmed : (!opts.assumeYes && !opts.isTty) = true
  · rw [if_pos hconfirmed] at hrun
    obtain ⟨rfl, hr, -⟩ := Env.runs_fail_iff.mp hrun
    exact .inl (hfails hr fun e he => nomatch he)
  rw [if_neg hconfirmed] at hrun
  rcases Env.runs_bind_iff.mp hrun with ⟨e, hr, hcheck⟩ | ⟨found, t₁, t₂, w₁, htr, hcheck, h₁⟩
  · exact .inl (hfails hr (hcheck.requests (hreads always_checkUpdates)))
  have hasks₁ : ∀ e ∈ t₁, Leading opts.installPath e.request :=
    hcheck.requests (hreads always_checkUpdates)
  have htree₁ : H.tree w₁ = H.tree w := runs_tree hcheck always_checkUpdates
  by_cases havailable : (!found.anyUpdateAvailable) = true
  · rw [if_pos havailable] at h₁
    have hasks₂ : ∀ e ∈ t₂, Leading opts.installPath e.request :=
      h₁.requests (Q := fun _ => True) (hreads (always_loadState.bind fun _ _ => .ret trivial))
    refine .inl ⟨htr ▸ List.forall_mem_append.mpr ⟨hasks₁, hasks₂⟩, ?_⟩
    rintro report rfl
    obtain ⟨loaded, t₃, t₄, w₂, -, hload, h₂⟩ := Env.runs_bind_ok h₁
    obtain ⟨-, hr, -⟩ := Env.runs_ret_iff.mp h₂
    cases hr
    have hloaded := runs_loadState_ok hload
    rw [htree₁] at hloaded
    exact ⟨rfl, hloaded.unique hstate⟩
  rw [if_neg havailable] at h₁
  unfold applyUpdates at h₁
  obtain ⟨t₃, rfl, h₂⟩ := Env.runs_request_iff.mp h₁
  have htree₂ : H.tree (H.env.answer w₁ .now).2 = H.tree w := by
    rw [H.quiet w₁ .now (fun _ h => by cases h), htree₁]
  generalize (H.env.answer w₁ .now).1 = now at h₂ htr
  generalize hw₂ : (H.env.answer w₁ .now).2 = w₂ at h₂ htree₂
  have hasks₂ : ∀ t, (∀ e ∈ t, Leading opts.installPath e.request) →
      ∀ e ∈ t₁ ++ ⟨.now, now⟩ :: t, Leading opts.installPath e.request := fun t ht =>
    List.forall_mem_append.mpr ⟨hasks₁, List.forall_mem_cons.mpr ⟨trivial, ht⟩⟩
  have hsaves : Always (fun _ => True) (Leading opts.installPath)
      (backupUnlessSkipped opts now) fun _ => True :=
    (always_backupUnlessSkipped opts now).weaken (fun _ h => h)
      (Asks.mono fun _ => Or.imp_right fun h => ⟨now, trivial, h⟩) |>.mono fun _ _ => trivial
  rcases Env.runs_bind_iff.mp h₂ with ⟨e, hr, hbackup⟩ | ⟨dir, t₄, t₅, w₃, rfl, hbackup, h₃⟩
  · refine .inl (hfails hr ?_)
    rw [htr]
    exact hasks₂ _ (hbackup.requests hsaves)
  have hasks₄ : ∀ e ∈ t₄, Leading opts.installPath e.request := hbackup.requests hsaves
  rcases Env.runs_bind_iff.mp h₃ with
    ⟨e, hr, hprepare⟩ | ⟨⟨newState, newCompose⟩, t₆, t₇, w₄, rfl, hprepare, h₄⟩
  · refine .inl (hfails hr ?_)
    rw [htr]
    refine hasks₂ _ (List.forall_mem_append.mpr ⟨hasks₄, ?_⟩)
    exact hprepare.requests (hreads (always_prepare opts found now))
  have hasks₆ : ∀ e ∈ t₆, Leading opts.installPath e.request :=
    hprepare.requests (hreads (always_prepare opts found now))
  have hfinal₃ : H.env.final w (t₁ ++ ⟨.now, now⟩ :: t₄) = w₃ := by
    rw [Env.final_append, hcheck.2.2, Env.final_cons, Env.after, hw₂, hbackup.2.2]
  have hstate₃ : HoldsState self.toml (H.tree w₃) opts.installPath state := by
    refine hstate.congr ?_
    rw [← hfinal₃]
    exact (stateFile_of_leading (hasks₂ _ hasks₄)).symm
  obtain rfl := runs_prepare_applied hprepare hstate₃
  have hdir := runs_backupUnlessSkipped_ok hbackup
  rw [htree₂, ← runs_tree hprepare (always_prepare opts found now)] at hdir
  refine .inr ⟨found, now, ⟨t₁, w₁, htr ▸ List.prefix_append _ _, hcheck⟩,
    by simpa using havailable, by rw [htr]; simp [Shown],
    t₁ ++ ⟨.now, now⟩ :: (t₄ ++ t₆), t₇, w₄, dir, newCompose, ?_, ?_, ?_, hdir, h₄⟩
  · rw [htr]
    simp
  · rw [← List.cons_append, ← List.append_assoc, Env.final_append, hfinal₃, hprepare.2.2]
  · exact hasks₂ _ (List.forall_mem_append.mpr ⟨hasks₄, hasks₆⟩)

/-- The removal of old backups keeps every place that is not in a backup, as long as the listing
names backups. -/
theorem runs_gcBackups_node {now : DateTime} {r : Except RustmoteError (List PathBuf)}
    (h : H.env.Runs w (gcBackups p now) tr r w') (hlists : ∀ e ∈ tr, ListsBackups p [now] e)
    {q : Path} (hq : ∀ b, IsBackup p b → ¬ Below b q) :
    (H.tree w').node q = (H.tree w).node q := by
  unfold gcBackups at h
  rcases Env.runs_bind_iff.mp h with ⟨e, -, hlift⟩ | ⟨cmd, t₁, t₂, w₁, rfl, hlift, h₁⟩
  · obtain ⟨-, -, rfl⟩ := Env.runs_ofExcept_iff.mp hlift
    rfl
  obtain ⟨rfl, hcmd, rfl⟩ := Env.runs_lift_ok hlift
  have htree : H.tree (H.next w₁ cmd) = H.tree w₁ := tree_next_of_reads (.find hcmd)
  rcases Env.runs_bind_iff.mp h₁ with ⟨e, -, hexec⟩ | ⟨out, t₃, t₄, w₂, rfl, hexec, h₂⟩
  · obtain ⟨-, rfl, -⟩ := runs_exec_iff.mp hexec
    rw [htree]
  obtain ⟨rfl, rfl, hreply⟩ := runs_exec_iff.mp hexec
  rw [← htree]
  by_cases hcode : out.exitCode = 0
  · rw [if_neg (not_not.mpr hcode)] at h₂
    refine runs_removeBackups_node h₂ fun path hpath hok hbelow => ?_
    have hlisted := hlists ⟨.exec cmd, .ok out⟩ (by simp [eq_ok_of_mapError hreply])
    exact hq _ (hlisted hcmd hcode now (List.mem_singleton_self now) path hpath hok) hbelow
  · rw [if_pos hcode] at h₂
    obtain ⟨-, -, rfl⟩ := Env.runs_ret_iff.mp h₂
    rfl

/-- The state file is in no backup. -/
theorem not_below_of_isBackup {b : Path} (h : IsBackup p b) : ¬ Below b (place (statePath p)) := by
  intro hbelow
  have hne : b ≠ [] := by
    rintro rfl
    have hlen := congrArg List.length h.1
    rw [place_backupsPath] at hlen
    simp at hlen
  have hlen : b.length = (place p).length + 2 := by
    have hlast := congrArg List.length h.1
    rw [place_backupsPath, List.length_dropLast, List.length_append] at hlast
    have hpos := List.length_pos_iff.mpr hne
    simp at hlast
    omega
  have hle := hbelow.length_le
  rw [place_statePath, List.length_append] at hle
  simp at hle
  omega

/-- The state file says what is printed of a state. -/
def Writes (toml : Toml) (p : PathBuf) (new : RelayState) (t : FileTree) : Prop :=
  ∃ text, new.toTomlString toml = .ok text ∧ t.fileAt (place (statePath p)) = some (Utf8.encode text)

/-- What is written is held. -/
theorem Writes.holdsState {toml : Toml} {new : RelayState} {t : FileTree}
    (hround : toml.RoundTrips) (h : Writes toml p new t) : HoldsState toml t p new := by
  obtain ⟨text, hprint, hfile⟩ := h
  refine ⟨_, hfile, ?_⟩
  rw [Utf8.fromUtf8Lossy_encode]
  exact hround new text (RelayState.toTomlString_eq_ok_iff.mp hprint)

theorem Writes.congr {toml : Toml} {new : RelayState} {t t' : FileTree} (h : Writes toml p new t)
    (hsame : t'.fileAt (place (statePath p)) = t.fileAt (place (statePath p))) :
    Writes toml p new t' := by
  obtain ⟨text, hprint, hfile⟩ := h
  exact ⟨text, hprint, hsame.trans hfile⟩

/-- **What `install` does to the state file**: it has been replaced, or the install has failed. -/
theorem runs_install_stateFile {newState : RelayState} {newCompose : Str} {raw : Bytes}
    {r : Except RustmoteError Unit}
    (h : H.env.Runs w (self.install p newState newCompose) tr r w')
    (hraw : (H.tree w).fileAt (place (statePath p)) = some raw) :
    Writes self.toml p newState (H.tree w') ∨
      (∃ e, r = .error e) ∧ (H.tree w').fileAt (place (statePath p)) = some raw := by
  have hfirst : ∀ {t : List Event} {x : Except RustmoteError ExecOutput} {w₁ : H.World},
      H.env.Runs w (execBuilt (Commands.writeFile (composePath p) (Utf8.encode newCompose))) t x w₁ →
        (H.tree w₁).fileAt (place (statePath p)) = some raw := by
    intro t x w₁ hwrite
    have hstays : Always (fun _ => True)
        (Asks True True (Stays (WriteFrame (composePath p))))
        (execBuilt (Commands.writeFile (composePath p) (Utf8.encode newCompose))) fun _ => True :=
      always_execBuilt fun _ hcmd => stays_writeFile hcmd
    rw [← hraw]
    exact runs_sameFiles hwrite hstays _ state_not_below_compose
  unfold install at h
  rcases Env.runs_bind_iff.mp h with ⟨e, hr, hwrite⟩ | ⟨out, t₁, t₂, w₁, rfl, hwrite, h₁⟩
  · exact .inr ⟨⟨e, hr⟩, hfirst hwrite⟩
  rcases runs_install_state h₁ (not_isDir_of_fileAt (hfirst hwrite)) with
    ⟨herr, -, hframe⟩ | ⟨text, hprint, -, hfile, -⟩
  · refine .inr ⟨herr, ?_⟩
    rw [← hfirst hwrite]
    exact fileAt_congr (hframe _ state_not_below_scratch)
  · exact .inl ⟨text, hprint, hfile⟩

/-- **What a rollback does to the state file**: nothing, or it is copied back. -/
theorem runs_rollback_stateFile {dir : PathBuf} {r : Except RustmoteError Unit}
    (h : H.env.Runs w (self.rollback p dir) tr r w') (hrestores : ∀ e ∈ tr, RestoresState p e) :
    (H.tree w').fileAt (place (statePath p)) = (H.tree w).fileAt (place (statePath p)) ∨
      CopiedBack p dir (H.tree w) (H.tree w') := by
  have hcompose : ∀ {t : List Event} {x : Except RustmoteError ExecOutput} {w₁ : H.World},
      H.env.Runs w (execBuilt (Commands.copyFile (posixJoin dir composeName) (composePath p))) t x
        w₁ → (H.tree w₁).fileAt (place (statePath p)) = (H.tree w).fileAt (place (statePath p)) := by
    intro t x w₁ hcopy
    have hstays : Always (fun _ => True) (Asks True True (Stays (Below (place (composePath p)))))
        (execBuilt (Commands.copyFile (posixJoin dir composeName) (composePath p))) fun _ => True :=
      always_execBuilt fun _ hcmd => stays_copyFile hcmd
    exact runs_sameFiles hcopy hstays _ (not_or.mp state_not_below_compose).2
  unfold rollback at h
  rcases Env.runs_bind_iff.mp h with ⟨e, -, hcopy⟩ | ⟨out, t₁, t₂, w₁, rfl, hcopy, h₁⟩
  · exact .inl (hcompose hcopy)
  rcases Env.runs_bind_iff.mp h₁ with ⟨e, -, hback⟩ | ⟨out', t₃, t₄, w₂, rfl, hback, h₂⟩
  · -- the copy of the state file was not made
    rcases runs_execBuilt hback with ⟨e', -, -, -, rfl⟩ | ⟨cmd, hcmd, ⟨out', hr, -⟩ | ⟨e', -, -, hfail⟩⟩
    · exact .inl (hcompose hcopy)
    · cases hr
    · refine absurd (hrestores ⟨.exec cmd, H.reply w₁ cmd⟩ ?_ _ cmd hcmd rfl) hfail.not_clean
      rw [hfail.trace]
      simp
  · refine .inr ?_
    have htree : H.tree w' = H.tree w₂ := by
      refine runs_tree (p := p) (Q := fun _ => True) h₂ ?_
      exact (always_execBuilt fun _ h => .composeUp h).bind fun _ _ => always_healthCheck _
    rw [htree]
    exact ⟨_, runs_copyFile_ok hcopy, runs_copyFile_ok hback⟩

/-- **What an update that comes to write does to the state file**: it writes the new state, or
it has failed and the file is as it was. -/
theorem stateFile_of_applies {opts : UpdateOptions} {r : Except RustmoteError UpdateReport}
    {found : CheckUpdatesReport} {now : DateTime} {new : RelayState} {raw : Bytes}
    (h : Applies H self opts w w' tr r found now new)
    (hraw : (H.tree w).fileAt (place (statePath opts.installPath)) = some raw)
    (hlists : ∀ e ∈ tr, ListsBackups opts.installPath (times tr) e)
    (hrestores : (∃ e, r = .error e) → ∀ e ∈ tr, RestoresState opts.installPath e) :
    (Writes self.toml opts.installPath new (H.tree w') ∧
        ∀ report, r = .ok report → report.changed = true ∧ report.newState = new) ∨
      ((∃ e, r = .error e) ∧
        (H.tree w').fileAt (place (statePath opts.installPath)) = some raw) := by
  obtain ⟨t₁, t₂, w₁, backupDir, newCompose, rfl, hfinal, hbefore, hdir, hrun⟩ := h.rest
  have hraw₁ : (H.tree w₁).fileAt (place (statePath opts.installPath)) = some raw := by
    rw [← hfinal, stateFile_of_leading hbefore, hraw]
  rcases Env.runs_bind_iff.mp hrun with ⟨e, rfl, hinstall⟩ | ⟨u, t₃, t₄, w₂, rfl, hinstall, hconclude⟩
  · rcases runs_install_stateFile hinstall hraw₁ with hwrites | ⟨-, hsame⟩
    · exact .inl ⟨hwrites, fun report hr => by cases hr⟩
    · exact .inr ⟨⟨e, rfl⟩, hsame⟩
  rcases runs_install_stateFile hinstall hraw₁ with hwrites | ⟨⟨e, he⟩, -⟩
  swap
  · cases he
  have hreport : ∀ report, r = .ok report → report.changed = true ∧ report.newState = new := by
    rintro report rfl
    obtain ⟨hchanged, hnew, -⟩ := runs_conclude_ok hconclude
    exact ⟨hchanged, hnew⟩
  have hevents : ∀ e ∈ t₄, e ∈ t₁ ++ (t₃ ++ t₄) := fun e he => by simp [he]
  cases runs_conclude hconclude with
  | @healthy _ th tg w₃ x hcheck hgc hr =>
    have hlisted : ∀ e ∈ tg, ListsBackups opts.installPath [now] e := fun e he =>
      (hlists e (hevents e (List.mem_append_right _ he))).mono fun t ht =>
        List.mem_singleton.mp ht ▸ mem_times h.shown
    have hnode := runs_gcBackups_node hgc hlisted fun b => not_below_of_isBackup
    have htree := runs_tree hcheck (always_healthCheck (p := opts.installPath) _)
    refine .inl ⟨hwrites.congr ?_, hreport⟩
    rw [fileAt_congr hnode, htree]
  | unhealthy hr hcheck =>
    have htree := runs_tree hcheck (always_healthCheck (p := opts.installPath) _)
    exact .inl ⟨hwrites.congr (by rw [htree]), hreport⟩
  | @rolledBack dir e th tb w₃ x hcheck hback hr =>
    have htree := runs_tree hcheck (always_healthCheck (p := opts.installPath) _)
    have hfails : ∃ e, r = .error e := by
      rcases hr with ⟨-, hr⟩ | ⟨e, -, hr⟩
      · exact ⟨_, hr⟩
      · exact ⟨e, hr⟩
    rcases runs_rollback_stateFile hback fun e he =>
        hrestores hfails e (hevents e (List.mem_append_right _ he)) with hsame | hcopied
    · exact .inl ⟨hwrites.congr (by rw [hsame, htree]), hreport⟩
    · rw [htree] at hcopied
      by_cases hskip : opts.skipBackup = true
      · rw [if_pos hskip] at hdir
        cases hdir
      · rw [if_neg hskip] at hdir
        obtain ⟨hdir, hbackup⟩ := hdir
        obtain rfl := Option.some.inj hdir
        have hrestored := restored_of_copiedBack hbefore hfinal hbackup hinstall hcopied
        exact .inr ⟨hfails, hrestored.state.trans hraw⟩

/-! ### What the other operations read -/

/-- Where the state file is, there is the install directory. -/
theorem isDir_of_holdsState {state : RelayState} {t : FileTree}
    (h : HoldsState self.toml t p state) : t.isDir (place p) = true := by
  obtain ⟨raw, hraw, -⟩ := h
  rw [place_statePath, fileAt_eq_some] at hraw
  exact isDir_iff.mpr (t.parent_dir _ _ (by rw [hraw]; simp))

/-- A bootstrap that finds the install directory reads the state. -/
theorem runs_bootstrapExisting_read {opts : BootstrapOptions} {os : OsKind}
    {report : BootstrapReport}
    (h : H.env.Runs w (self.bootstrapExisting opts os) tr (.ok report) w') :
    HoldsState self.toml (H.tree w) opts.installPath report.state := by
  unfold bootstrapExisting at h
  obtain ⟨found, t₁, t₂, w₁, -, hfound, h₁⟩ := Env.runs_bind_ok h
  cases found with
  | true =>
    have htree := runs_tree hfound (always_stateExists (p := opts.installPath))
    obtain ⟨state, t₃, t₄, w₂, -, hread, h₂⟩ := Env.runs_bind_ok h₁
    obtain ⟨key, t₅, t₆, w₃, -, -, h₃⟩ := Env.runs_bind_ok h₂
    obtain ⟨-, hr, -⟩ := Env.runs_ret_iff.mp h₃
    cases hr
    rw [← htree]
    exact runs_readState_ok hread
  | false =>
    obtain ⟨-, hr, -⟩ := Env.runs_fail_iff.mp h₁
    cases hr

/-- **A bootstrap of an install** leaves the files alone, and reports the state. -/
theorem runs_bootstrap_found {opts : BootstrapOptions} {r : Except RustmoteError BootstrapReport}
    (htruth : H.Truthful) (h : H.env.Runs w (self.bootstrap opts) tr r w')
    (hdir : (H.tree w).isDir (place opts.installPath) = true) :
    H.tree w' = H.tree w ∧ ∀ report, r = .ok report →
      HoldsState self.toml (H.tree w) opts.installPath report.state := by
  unfold bootstrap at h
  rcases Env.runs_bind_iff.mp h with ⟨e, rfl, hos⟩ | ⟨os, t₁, s₁, w₁, -, hos, h₁⟩
  · exact ⟨runs_tree hos (always_osOf (p := opts.installPath) _), fun _ hr => by cases hr⟩
  have htree₁ := runs_tree hos (always_osOf (p := opts.installPath) _)
  rcases Env.runs_bind_iff.mp h₁ with ⟨e, rfl, hdocker⟩ | ⟨u, t₂, s₂, w₂, -, hdocker, h₂⟩
  · refine ⟨?_, fun _ hr => by cases hr⟩
    rw [runs_tree hdocker (always_ensureDockerStack (p := opts.installPath)), htree₁]
  have htree₂ := runs_tree hdocker (always_ensureDockerStack (p := opts.installPath))
  rcases Env.runs_bind_iff.mp h₂ with ⟨e, rfl, hfound⟩ | ⟨found, t₃, s₃, w₃, -, hfound, h₃⟩
  · refine ⟨?_, fun _ hr => by cases hr⟩
    rw [runs_tree hfound (always_installExists (p := opts.installPath)), htree₂, htree₁]
  obtain ⟨hfound', htree₃, -⟩ := htruth.runs_dirExists hfound
  rw [htree₂, htree₁, hdir] at hfound'
  subst hfound'
  have htree : H.tree w₃ = H.tree w := by rw [htree₃, htree₂, htree₁]
  refine ⟨(runs_tree h₃ (always_bootstrapExisting opts os)).trans htree, ?_⟩
  rintro report rfl
  have hread : HoldsState self.toml (H.tree w₃) opts.installPath report.state :=
    runs_bootstrapExisting_read h₃
  rwa [htree] at hread

/-- A status that came back reports the state. -/
theorem runs_status_read {report : StatusReport}
    (h : H.env.Runs w (self.status p) tr (.ok report) w') :
    HoldsState self.toml (H.tree w) p report.state := by
  unfold RelayLifecycle.status at h
  obtain ⟨state, t₁, t₂, w₁, -, hload, h₁⟩ := Env.runs_bind_ok h
  obtain ⟨cmd, t₃, t₄, w₂, -, -, h₂⟩ := Env.runs_bind_ok h₁
  obtain ⟨ps, t₅, t₆, w₃, -, -, h₃⟩ := Env.runs_bind_ok h₂
  obtain ⟨key, t₇, t₈, w₄, -, -, h₄⟩ := Env.runs_bind_ok h₃
  obtain ⟨-, hr, -⟩ := Env.runs_ret_iff.mp h₄
  cases hr
  exact runs_loadState_ok hload

end Host

/-! ### Operations one after another -/

/-- What an operation shows, by what it returns. -/
def observed {α : Type} (shows : α → Observation) (failed : Observation) :
    Except RustmoteError α → Observation
  | .ok report => shows report
  | .error _ => failed

/-- What an update shows when it comes back. -/
def UpdateReport.observation (report : UpdateReport) : Observation :=
  if report.changed then .wrote report.newState else .read report.newState

namespace RelayLifecycle

open Host

variable {H : Host} {self : RelayLifecycle} {p : PathBuf}

/-- An operation on an install, whatever comes of it. Of the host it is assumed that `test` is
truthful to a bootstrap, that the listing of the backups names backups to an update, and that the
copy of the state file that a rollback makes comes to its end. -/
inductive Operates (H : Host) (relay : RelayLifecycle) (p : PathBuf) :
    H.World → List Event → Observation → H.World → Prop where
  | checkUpdates {w w' : H.World} {tr : List Event} {r : Except RustmoteError CheckUpdatesReport}
      (hrun : H.env.Runs w (relay.checkUpdates p) tr r w') :
      Operates H relay p w tr (observed (fun report => .checked report.images) .refused r) w'
  | status {w w' : H.World} {tr : List Event} {r : Except RustmoteError StatusReport}
      (hrun : H.env.Runs w (relay.status p) tr r w') :
      Operates H relay p w tr (observed (fun report => .read report.state) .refused r) w'
  | bootstrap {opts : BootstrapOptions} {w w' : H.World} {tr : List Event}
      {r : Except RustmoteError BootstrapReport} (hpath : opts.installPath = p)
      (htruth : H.Truthful) (hrun : H.env.Runs w (relay.bootstrap opts) tr r w') :
      Operates H relay p w tr (observed (fun report => .read report.state) .refused r) w'
  | update {opts : UpdateOptions} {w w' : H.World} {tr : List Event}
      {r : Except RustmoteError UpdateReport} (hpath : opts.installPath = p)
      (hlists : ∀ e ∈ tr, ListsBackups p (times tr) e)
      (hrestores : (∃ e, r = .error e) → ∀ e ∈ tr, RestoresState p e)
      (hrun : H.env.Runs w (relay.update opts) tr r w') :
      Operates H relay p w tr (observed UpdateReport.observation .broken r) w'

/-- Operations one after another, with all that they have asked and what they show; what happens
in between leaves the state file alone. -/
inductive History (H : Host) (relay : RelayLifecycle) (p : PathBuf) :
    H.World → List Event → List Observation → H.World → Prop where
  | nil {w : H.World} : History H relay p w [] [] w
  | cons {w w₁ w₂ w₃ : H.World} {tr trs : List Event} {seen : Observation}
      {rest : List Observation} (hop : Operates H relay p w tr seen w₁)
      (hsame : (H.tree w₂).fileAt (place (statePath p)) = (H.tree w₁).fileAt (place (statePath p)))
      (hrest : History H relay p w₂ trs rest w₃) :
      History H relay p w (tr ++ trs) (seen :: rest) w₃

/-- Nothing happens in between. -/
theorem History.next {w w₁ w₂ : H.World} {tr trs : List Event} {seen : Observation}
    {rest : List Observation} (hop : Operates H self p w tr seen w₁)
    (hrest : History H self p w₁ trs rest w₂) :
    History H self p w (tr ++ trs) (seen :: rest) w₂ := .cons hop rfl hrest

/-- An operation that leaves the files alone, and shows what is held. -/
theorem step_of_read {α : Type} {w w' : H.World} {state : RelayState} {shows : α → Observation}
    {r : Except RustmoteError α} (htree : H.tree w' = H.tree w)
    (hstate : HoldsState self.toml (H.tree w) p state)
    (hshows : ∀ report, r = .ok report → Register.Step state (shows report) state) :
    ∃ state', HoldsState self.toml (H.tree w') p state' ∧
      Register.Step state (observed shows .refused r) state' := by
  refine ⟨state, by rwa [htree], ?_⟩
  cases r with
  | ok report => exact hshows report rfl
  | error e => exact .refused

/-- **What an update does to the register.** -/
theorem step_of_update {opts : UpdateOptions} {w w' : H.World} {tr : List Event}
    {r : Except RustmoteError UpdateReport} {state : RelayState} (hround : self.toml.RoundTrips)
    (hrun : H.env.Runs w (self.update opts) tr r w')
    (hlists : ∀ e ∈ tr, ListsBackups opts.installPath (times tr) e)
    (hrestores : (∃ e, r = .error e) → ∀ e ∈ tr, RestoresState opts.installPath e)
    (hstate : HoldsState self.toml (H.tree w) opts.installPath state) :
    ∃ state', HoldsState self.toml (H.tree w') opts.installPath state' ∧
      Register.Step state (observed UpdateReport.observation .broken r) state' := by
  rcases runs_update_applies hrun hstate with ⟨hleading, hreport⟩ | ⟨found, now, happlies⟩
  · have hsame := stateFile_of_leading (H := H) (w := w) hleading
    rw [hrun.2.2] at hsame
    refine ⟨state, hstate.congr hsame.symm, ?_⟩
    cases r with
    | error e => exact .kept
    | ok report =>
      obtain ⟨hchanged, hnew⟩ := hreport report rfl
      rw [observed, UpdateReport.observation, hchanged, if_neg Bool.false_ne_true, hnew]
      exact .read
  · have hsucc : Successor state
        (state.applyUpdate (found.images.map (ImageUpdate.newPin now)) now) := by
      obtain ⟨t, w₁, -, hchecked⟩ := happlies.checked
      obtain ⟨state', hstate', hconcerns⟩ := runs_checkUpdates_ok hchecked
      rw [hstate'.unique hstate] at hconcerns
      exact ⟨found.images, now, hconcerns, happlies.available, rfl⟩
    obtain ⟨raw, hraw, hparse⟩ := hstate
    rcases stateFile_of_applies happlies hraw hlists hrestores with
      ⟨hwrites, hreport⟩ | ⟨⟨e, rfl⟩, hsame⟩
    · refine ⟨_, hwrites.holdsState hround, ?_⟩
      cases r with
      | error e => exact .left hsucc
      | ok report =>
        obtain ⟨hchanged, hnew⟩ := hreport report rfl
        rw [observed, UpdateReport.observation, if_pos hchanged, hnew]
        exact .wrote hsucc
    · exact ⟨state, ⟨raw, hsame, hparse⟩, .kept⟩

/-- **An operation is a step of the register.** -/
theorem operates_refined {w w' : H.World} {tr : List Event} {seen : Observation}
    {state : RelayState} (hround : self.toml.RoundTrips) (h : Operates H self p w tr seen w')
    (hstate : HoldsState self.toml (H.tree w) p state) :
    ∃ state', HoldsState self.toml (H.tree w') p state' ∧ Register.Step state seen state' := by
  cases h with
  | checkUpdates hrun =>
    refine step_of_read (runs_tree hrun always_checkUpdates) hstate ?_
    rintro report rfl
    obtain ⟨state', hstate', hconcerns⟩ := runs_checkUpdates_ok hrun
    rw [hstate'.unique hstate] at hconcerns
    exact .checked hconcerns
  | status hrun =>
    refine step_of_read (runs_tree hrun always_status) hstate ?_
    rintro report rfl
    rw [(runs_status_read hrun).unique hstate]
    exact .read
  | bootstrap hpath htruth hrun =>
    subst hpath
    obtain ⟨htree, hread⟩ := runs_bootstrap_found htruth hrun (isDir_of_holdsState hstate)
    refine step_of_read htree hstate ?_
    rintro report rfl
    rw [(hread report rfl).unique hstate]
    exact .read
  | update hpath hlists hrestores hrun =>
    subst hpath
    exact step_of_update hround hrun hlists hrestores hstate

/-- **Operations one after another are a run of the register.** -/
theorem history_refined {w w' : H.World} {tr : List Event} {seen : List Observation}
    {state : RelayState} (hround : self.toml.RoundTrips) (h : History H self p w tr seen w')
    (hstate : HoldsState self.toml (H.tree w) p state) :
    ∃ final, HoldsState self.toml (H.tree w') p final ∧ Register state seen final := by
  induction h generalizing state with
  | nil => exact ⟨state, hstate, .nil⟩
  | cons hop hsame _ ih =>
    obtain ⟨middle, hmiddle, hstep⟩ := operates_refined hround hop hstate
    obtain ⟨final, hfinal, hrest⟩ := ih (hmiddle.congr hsame.symm)
    exact ⟨final, hfinal, .cons hstep hrest⟩

/-- **The state file is a register**: operations one after another, whatever comes of each of
them, show what the register shows; every state that they show comes of the one that was there
at the start, and is of the same install. -/
theorem register_refined (hround : self.toml.RoundTrips) {w w' : H.World}
    {tr : List Event} {seen : List Observation} {state : RelayState}
    (hstate : HoldsState self.toml (H.tree w) p state) (h : History H self p w tr seen w') :
    ∃ final, HoldsState self.toml (H.tree w') p final ∧ Register state seen final ∧
      SameOrigin state final ∧
      ∀ s, .read s ∈ seen ∨ .wrote s ∈ seen →
        Lineage state s ∧ Lineage s final ∧ SameOrigin state s := by
  obtain ⟨final, hfinal, hregister⟩ := history_refined hround h hstate
  refine ⟨final, hfinal, hregister, hregister.lineage.sameOrigin, fun s hs => ?_⟩
  obtain ⟨hbefore, hbehind⟩ := hregister.lineage_of_mem hs
  exact ⟨hbefore, hbehind, hbefore.sameOrigin⟩

/-- The events of the sample update. -/
def writingTrace : List Event :=
  (hostListing higherTags).env.trace Sample.start
    (versionedRelay.update (Sample.updateOptions false))

/-- The host behind it. -/
def writingEnd : (hostListing higherTags).World :=
  (hostListing higherTags).env.final Sample.start writingTrace

/-- What the sample update comes to, and a status and another update behind it. -/
theorem computed_writing :
    ((hostListing higherTags).env.value Sample.start
      (versionedRelay.update (Sample.updateOptions false))).map
        (fun report => (report.changed, report.newState)) = some (true, Sample.newState) ∧
    ((hostListing higherTags).env.value writingEnd (versionedRelay.status Sample.path)).map
      StatusReport.state = some Sample.newState ∧
    ((hostListing higherTags).env.value writingEnd
      (versionedRelay.update (Sample.updateOptions true))).isSome = true ∧
    ∀ e ∈ writingTrace, ListsBackups Sample.path (times writingTrace) e := by
  decide +kernel

/-- The sample update writes the new state. -/
theorem runs_writing : ∃ report, report.changed = true ∧ report.newState = Sample.newState ∧
    (hostListing higherTags).env.Runs Sample.start
      (versionedRelay.update (Sample.updateOptions false)) writingTrace (.ok report) writingEnd := by
  obtain ⟨report, hreport, heq⟩ := Option.map_eq_some_iff.mp computed_writing.1
  obtain ⟨hchanged, hnew⟩ := Prod.mk.inj heq
  exact ⟨report, hchanged, hnew, Env.runs_value hreport⟩

/-- No backup is listed in it. -/
theorem lists_writing : ∀ e ∈ writingTrace, ListsBackups Sample.path (times writingTrace) e :=
  computed_writing.2.2.2

/-- A status behind the sample update reads what it has written. -/
theorem register_refined_sample :
    ∃ final seen, seen = [.wrote Sample.newState, .read Sample.newState] ∧
      Register Sample.state seen final := by
  obtain ⟨report, hchanged, hnew, hwrites⟩ := runs_writing
  obtain ⟨found, hfound, hread⟩ := Option.map_eq_some_iff.mp computed_writing.2.1
  have hfirst : Operates (hostListing higherTags) versionedRelay Sample.path Sample.start
      writingTrace (observed UpdateReport.observation .broken (.ok report)) writingEnd :=
    .update rfl lists_writing (fun ⟨e, he⟩ => nomatch he) hwrites
  have hsecond := Operates.status (Env.runs_value hfound)
  obtain ⟨final, -, hregister, -⟩ := register_refined versionedRelay_roundTrips
    (holdsState_start higherTags) (.next hfirst (.next hsecond .nil))
  refine ⟨final, _, ?_, hregister⟩
  simp only [observed, UpdateReport.observation, hchanged, if_true, hnew, hread]

/-! ### Once more -/

/-- The registry answers every question, and the same question in the same way. -/
def Steady (H : Host) (tags : Str → List Str) (digest : Str → Str → Str) : Prop :=
  ∀ w, (∀ repo, (H.env.answer w (.listTags repo)).1 = .ok (tags repo)) ∧
    ∀ repo tag, (H.env.answer w (.resolveDigest repo tag)).1 = .ok (digest repo tag)

/-- What is reported of a pin then. -/
def steadyUpdate (tags : Str → List Str) (digest : Str → Str → Str) (pin : ImagePin) :
    ImageUpdate :=
  ⟨pin.service, pin.repo, pin.tag, pin.digest, latestTag pin.tag (tags pin.repo),
    digest pin.repo (latestTag pin.tag (tags pin.repo))⟩

/-- The tag that is chosen is chosen again. -/
theorem latestTag_latestTag (tag : Str) (tags : List Str) :
    latestTag (latestTag tag tags) tags = latestTag tag tags := by
  unfold latestTag
  cases pickLatestSemver tags with
  | none => rfl
  | some t => rfl

variable {tags : Str → List Str} {digest : Str → Str → Str}

/-- An updated pin is up to date. -/
theorem steadyUpdate_newPin (now : DateTime) (pin : ImagePin) :
    (steadyUpdate tags digest ((steadyUpdate tags digest pin).newPin now)).updateAvailable =
      false := by
  simp only [steadyUpdate, ImageUpdate.newPin, ImageUpdate.updateAvailable, latestTag_latestTag,
    ne_eq, not_true_eq_false, decide_false]

theorem runs_checkImages_steady (hsteady : Steady H tags digest) {w w' : H.World}
    {tr : List Event} {pins : List ImagePin} {updates : List ImageUpdate}
    (h : H.env.Runs w (checkImages pins) tr (.ok updates) w') :
    updates = pins.map (steadyUpdate tags digest) := by
  induction pins generalizing w w' tr updates with
  | nil =>
    obtain ⟨-, hr, -⟩ := Env.runs_ret_iff.mp h
    exact Except.ok.inj hr
  | cons pin pins ih =>
    unfold checkImages at h
    obtain ⟨listed, t₁, s₁, w₁, -, htags, h₁⟩ := Env.runs_bind_ok h
    obtain ⟨found, t₂, s₂, w₂, -, hdigest, h₂⟩ := Env.runs_bind_ok h₁
    obtain ⟨rest, t₃, s₃, w₃, -, hrest, h₃⟩ := Env.runs_bind_ok h₂
    obtain ⟨-, hr, -⟩ := Env.runs_ret_iff.mp h₃
    unfold listTags at htags
    obtain ⟨t₄, -, hlisted⟩ := Env.runs_request_iff.mp htags
    obtain ⟨-, hlisted, -⟩ := Env.runs_ofExcept_iff.mp hlisted
    rw [(hsteady w).1] at hlisted
    obtain rfl := Except.ok.inj hlisted
    unfold resolveDigest at hdigest
    obtain ⟨t₅, -, hfound⟩ := Env.runs_request_iff.mp hdigest
    obtain ⟨-, hfound, -⟩ := Env.runs_ofExcept_iff.mp hfound
    rw [(hsteady w₁).2] at hfound
    obtain rfl := Except.ok.inj hfound
    rw [Except.ok.inj hr, ih hrest]
    rfl

/-- **What `check_updates` reports** by such a registry. -/
theorem runs_checkUpdates_steady (hsteady : Steady H tags digest) {w w' : H.World}
    {tr : List Event} {found : CheckUpdatesReport} {state : RelayState}
    (h : H.env.Runs w (self.checkUpdates p) tr (.ok found) w')
    (hstate : HoldsState self.toml (H.tree w) p state) :
    found.images = state.images.map (steadyUpdate tags digest) := by
  unfold checkUpdates at h
  obtain ⟨state', t₁, s₁, w₁, -, hload, h₁⟩ := Env.runs_bind_ok h
  obtain ⟨images, t₂, s₂, w₂, -, himages, h₂⟩ := Env.runs_bind_ok h₁
  obtain ⟨-, hr, -⟩ := Env.runs_ret_iff.mp h₂
  cases hr
  rw [hstate.unique (runs_loadState_ok hload)]
  exact runs_checkImages_steady hsteady himages

/-- No pin of the state has another digest than the registry. -/
def UpToDate (tags : Str → List Str) (digest : Str → Str → Str) (state : RelayState) : Prop :=
  (state.images.map (steadyUpdate tags digest)).any ImageUpdate.updateAvailable = false

/-- **An update that came back** leaves the state that it reports, and it is up to date. -/
theorem upToDate_of_update (hround : self.toml.RoundTrips) (hsteady : Steady H tags digest)
    {opts : UpdateOptions} {w w' : H.World} {tr : List Event} {report : UpdateReport}
    (hrun : H.env.Runs w (self.update opts) tr (.ok report) w')
    (hlists : ∀ e ∈ tr, ListsBackups opts.installPath (times tr) e) :
    HoldsState self.toml (H.tree w') opts.installPath report.newState ∧
      UpToDate tags digest report.newState := by
  obtain ⟨state, hstate⟩ := holdsState_of_update hrun
  rcases runs_update_applies hrun hstate with ⟨hleading, hreport⟩ | ⟨found, now, happlies⟩
  · obtain ⟨hchanged, hnew⟩ := hreport report rfl
    have hsame := stateFile_of_leading (H := H) (w := w) hleading
    rw [hrun.2.2] at hsame
    rw [hnew]
    refine ⟨hstate.congr hsame.symm, ?_⟩
    obtain ⟨t₁, t₂, w₁, -, -, -, harrives⟩ := runs_update hrun
    cases harrives with
    | failed hr => cases hr
    | unchanged hr _ hchecked havailable =>
      rw [CheckUpdatesReport.anyUpdateAvailable, runs_checkUpdates_steady hsteady hchecked hstate]
        at havailable
      exact havailable
    | prepared _ _ hrest =>
      -- an update that went on reports a change
      obtain ⟨u, t₃, t₄, w₂, -, -, hconclude⟩ := Env.runs_bind_ok hrest
      rw [(runs_conclude_ok hconclude).1] at hchanged
      cases hchanged
  · obtain ⟨t, w₁, -, hchecked⟩ := happlies.checked
    have hfound := runs_checkUpdates_steady hsteady hchecked hstate
    obtain ⟨raw, hraw, -⟩ := hstate
    rcases stateFile_of_applies happlies hraw hlists (fun ⟨e, he⟩ => nomatch he) with
      ⟨hwrites, hreport⟩ | ⟨⟨e, he⟩, -⟩
    · rw [(hreport report rfl).2]
      refine ⟨hwrites.holdsState hround, ?_⟩
      rw [UpToDate, RelayState.applyUpdate, hfound, List.any_eq_false]
      intro u hu
      obtain ⟨pin, hpin, rfl⟩ := List.mem_map.mp hu
      obtain ⟨u', hu', rfl⟩ := List.mem_map.mp hpin
      obtain ⟨old, -, rfl⟩ := List.mem_map.mp hu'
      rw [steadyUpdate_newPin]
      exact Bool.false_ne_true
    · cases he

/-- **An update is idempotent** as long as the registry answers as before: behind one that came
back, `check_updates` reports nothing, and another update issues harmless commands only, leaves
every file alone, and reports the same state. -/
theorem update_idempotent (hround : self.toml.RoundTrips) (hsteady : Steady H tags digest)
    {opts opts' : UpdateOptions} {w w₁ w₂ : H.World} {tr : List Event} {report : UpdateReport}
    (hrun : H.env.Runs w (self.update opts) tr (.ok report) w₁)
    (hlists : ∀ e ∈ tr, ListsBackups opts.installPath (times tr) e)
    (hsame : (H.tree w₂).fileAt (place (statePath opts.installPath)) =
      (H.tree w₁).fileAt (place (statePath opts.installPath)))
    (hpath : opts'.installPath = opts.installPath) :
    (∀ tr' found w₃, H.env.Runs w₂ (self.checkUpdates opts.installPath) tr' (.ok found) w₃ →
      found.anyUpdateAvailable = false) ∧
    ∀ tr' r w₃, H.env.Runs w₂ (self.update opts') tr' r w₃ →
      AllHarmless tr' ∧ H.tree w₃ = H.tree w₂ ∧
        ∀ again, r = .ok again → again.changed = false ∧ again.newState = report.newState := by
  obtain ⟨hstate, hcurrent⟩ := upToDate_of_update hround hsteady hrun hlists
  replace hstate := hstate.congr hsame.symm
  have hnone : ∀ tr' found w₃,
      H.env.Runs w₂ (self.checkUpdates opts.installPath) tr' (.ok found) w₃ →
        found.anyUpdateAvailable = false := by
    intro tr' found w₃ hcheck
    rw [CheckUpdatesReport.anyUpdateAvailable, runs_checkUpdates_steady hsteady hcheck hstate]
    exact hcurrent
  rw [← hpath] at hstate
  refine ⟨hnone, fun tr' r w₃ hagain => ?_⟩
  have hasks : ∀ e ∈ tr', Asks False True (Inspects opts'.installPath) e.request := by
    refine run_update_unchanged hagain.1 fun t₁ t₂ found htr hcheck => ?_
    have hfollows := hagain.2.1
    rw [htr, Env.follows_append] at hfollows
    rw [hpath] at hcheck
    exact hnone t₁ found _ ⟨hcheck, hfollows.1, rfl⟩
  refine ⟨allHarmless_of_inspects hasks, ?_, ?_⟩
  · rw [← hagain.2.2]
    exact tree_final fun e he => Asks.mono (fun _ h => h.reads) _ (hasks e he)
  · rintro again rfl
    rcases runs_update_applies hagain hstate with ⟨-, hreport⟩ | ⟨found, now, happlies⟩
    · exact hreport again rfl
    · obtain ⟨t, w₄, -, hchecked⟩ := happlies.checked
      have havailable := happlies.available
      rw [hpath] at hchecked
      rw [hnone t found w₄ hchecked] at havailable
      cases havailable

/-- A registry without digests that change. -/
theorem steady_hostListing (tags : List String) :
    Steady (hostListing tags) (fun _ => tags.map String.toList) fun _ _ => Sample.digest 'b' :=
  fun _ => ⟨fun _ => rfl, fun _ _ => rfl⟩

/-- The sample update, made twice, changes nothing the second time. -/
theorem update_idempotent_sample : ∃ tr' again w₃, (hostListing higherTags).env.Runs writingEnd
    (versionedRelay.update (Sample.updateOptions true)) tr' (.ok again) w₃ ∧ AllHarmless tr' ∧
      again.changed = false ∧ again.newState = Sample.newState := by
  obtain ⟨report, -, hnew, hwrites⟩ := runs_writing
  obtain ⟨again, hagain⟩ := Option.isSome_iff_exists.mp computed_writing.2.2.1
  have hruns := Env.runs_value hagain
  have htwice := update_idempotent versionedRelay_roundTrips (steady_hostListing higherTags) hwrites
    lists_writing (Eq.refl ((hostListing higherTags).tree writingEnd |>.fileAt
      (place (statePath Sample.path)))) (Eq.refl (Sample.updateOptions true).installPath)
  obtain ⟨hharmless, -, hreport⟩ := htwice.2 _ _ _ hruns
  obtain ⟨hchanged, hsame⟩ := hreport again rfl
  exact ⟨_, again, _, hruns, hharmless, hchanged, hsame.trans hnew⟩

end RelayLifecycle

end Rustmote
