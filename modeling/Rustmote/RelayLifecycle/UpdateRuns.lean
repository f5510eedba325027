import Rustmote.RelayLifecycle.Effects
import Rustmote.RelayLifecycle.Health
import Rustmote.RelayLifecycle.Plain

/-!
# Runs of update

`update` reads the state, asks the registry, makes the backup, prepares the two files, and only
then touches the install. `runs_update` splits a run there: it stopped before, or there was
nothing to do, or it went on from a host that is `Prepared`.
-/

namespace Rustmote

open Interaction (Env)
open Interaction.Prog (Always Errors)
open FileTree

namespace Host

open RelayLifecycle

variable {H : Host} {w w' : H.World} {p : PathBuf} {tr : List Event} {self : RelayLifecycle}

/-! ### Reading the state and asking the registry -/

/-- The state file says this. -/
def HoldsState (toml : Toml) (t : FileTree) (p : PathBuf) (state : RelayState) : Prop :=
  ∃ raw, t.fileAt (place (statePath p)) = some raw ∧
    toml.fromStr (Utf8.fromUtf8Lossy raw) = .ok state

/-- There is one state that the file says. -/
theorem HoldsState.unique {toml : Toml} {t : FileTree} {s s' : RelayState}
    (h : HoldsState toml t p s) (h' : HoldsState toml t p s') : s = s' := by
  obtain ⟨raw, hraw, hs⟩ := h
  obtain ⟨raw', hraw', hs'⟩ := h'
  obtain rfl := Option.some.inj (hraw.symm.trans hraw')
  exact Except.ok.inj (hs.symm.trans hs')

/-- It depends on the file only. -/
theorem HoldsState.congr {toml : Toml} {t t' : FileTree} {s : RelayState}
    (h : t'.fileAt (place (statePath p)) = t.fileAt (place (statePath p)))
    (hs : HoldsState toml t' p s) : HoldsState toml t p s := by
  obtain ⟨raw, hraw, hs⟩ := hs
  exact ⟨raw, h ▸ hraw, hs⟩

theorem runs_readState_ok {state : RelayState}
    (h : H.env.Runs w (self.readState (statePath p)) tr (.ok state) w') :
    HoldsState self.toml (H.tree w) p state := by
  unfold readState at h
  obtain ⟨out, t₁, t₂, w₁, -, hread, h₁⟩ := Env.runs_bind_ok h
  obtain ⟨-, hstate, -⟩ := Env.runs_lift_ok h₁
  exact ⟨out.stdout, (runs_readFile_ok hread).1, RelayState.fromTomlStr_eq_ok_iff.mp hstate⟩

/-- **The state that is loaded** is the one on the host. -/
theorem runs_loadState_ok {state : RelayState}
    (h : H.env.Runs w (self.loadState p) tr (.ok state) w') :
    HoldsState self.toml (H.tree w) p state := by
  unfold loadState at h
  obtain ⟨found, t₁, t₂, w₁, -, hfound, h₁⟩ := Env.runs_bind_ok h
  cases found with
  | true =>
    have htree := runs_tree hfound (always_stateExists (p := p))
    obtain ⟨raw, hraw, hparse⟩ := runs_readState_ok h₁
    exact ⟨raw, by rwa [htree] at hraw, hparse⟩
  | false =>
    obtain ⟨-, he, -⟩ := Env.runs_fail_iff.mp h₁
    cases he

/-- The image that an update is about. -/
def Concerns (pin : ImagePin) (u : ImageUpdate) : Prop :=
  u.service = pin.service ∧ u.repo = pin.repo ∧ u.currentTag = pin.tag ∧
    u.currentDigest = pin.digest

theorem always_checkImages_concerns (pins : List ImagePin) :
    Always (fun _ => True) (fun _ => True) (checkImages pins) (List.Forall₂ Concerns pins) := by
  have hreply : ∀ {α : Type} (reply : Except RegistryError α),
      Always (fun _ => True) (fun _ => True)
        (liftM (reply.mapError RegistryError.toError) : Relay α) fun _ => True :=
    fun reply => Interaction.Prog.always_ofExcept.mono fun _ _ => trivial
  induction pins with
  | nil => exact .ret .nil
  | cons pin pins ih =>
    unfold checkImages listTags resolveDigest
    refine Always.bind (Always.request trivial fun reply _ => hreply reply) fun tags _ => ?_
    refine Always.bind (Always.request trivial fun reply _ => hreply reply) fun digest _ => ?_
    exact ih.bind fun updates hupdates => .ret (.cons ⟨rfl, rfl, rfl, rfl⟩ hupdates)

/-- **What `check_updates` reports** is about the pins of the state file. -/
theorem runs_checkUpdates_ok {report : CheckUpdatesReport}
    (h : H.env.Runs w (self.checkUpdates p) tr (.ok report) w') :
    ∃ state, HoldsState self.toml (H.tree w) p state ∧
      List.Forall₂ Concerns state.images report.images := by
  unfold checkUpdates at h
  obtain ⟨state, t₁, t₂, w₁, -, hload, h₁⟩ := Env.runs_bind_ok h
  obtain ⟨images, t₃, t₄, w₂, -, himages, h₂⟩ := Env.runs_bind_ok h₁
  obtain ⟨-, hreport, -⟩ := Env.runs_ret_iff.mp h₂
  cases hreport
  exact ⟨state, runs_loadState_ok hload, himages.value (always_checkImages_concerns _)⟩

/-- New pins that change a digest are not the old ones. -/
theorem newPins_ne {pins : List ImagePin} {updates : List ImageUpdate} {now : DateTime}
    (h : List.Forall₂ Concerns pins updates)
    (havailable : updates.any ImageUpdate.updateAvailable = true) :
    updates.map (ImageUpdate.newPin now) ≠ pins := by
  induction h with
  | nil => simp at havailable
  | @cons pin u pins updates hu _ ih =>
    intro heq
    rw [List.map_cons, List.cons.injEq] at heq
    rw [List.any_cons, Bool.or_eq_true] at havailable
    rcases havailable with hchange | hrest
    · rw [ImageUpdate.updateAvailable, decide_eq_true_eq] at hchange
      apply hchange
      rw [hu.2.2.2, ← heq.1]
      rfl
    · exact ih hrest heq.2

/-! ### The backup -/

/-- The file at `x` was copied to `y`, and the copy is still there. -/
def CopiedTo (t t' : FileTree) (x y : Path) : Prop :=
  ∃ t₁ t₂, t₁.node x = t.node x ∧ (Action.copy x y).Done t₁ t₂ ∧ t'.node y = t₂.node y

/-- The copy in a backup directory. -/
def copyPlace (p : PathBuf) (now : DateTime) (name : Str) : Path :=
  place p ++ ["backups".toList, backupName now, name]

theorem place_copy (p : PathBuf) (now : DateTime) {name : Str} (h : IsName name) :
    place (posixJoin (backupDirFor p now) name) = copyPlace p now name := by
  rw [place_posixJoin _ h, place_backupDirFor, List.append_assoc]
  rfl

theorem not_below_copyPlace {now : DateTime} {x y : Str} (h : x ≠ y) :
    ¬ Below (copyPlace p now x) (copyPlace p now y) := by
  intro hbelow
  simp only [Below, copyPlace, List.prefix_append_right_inj, List.cons_prefix_cons] at hbelow
  exact h hbelow.2.2.1

/-- Both files are in the backup. -/
structure InBackup (p : PathBuf) (now : DateTime) (t t' : FileTree) : Prop where
  /-- The paths may go into commands. -/
  accepted : ∀ name, BackedUp name → ∃ cmd, Commands.copyFile (posixJoin p name)
    (posixJoin (backupDirFor p now) name) = .ok cmd
  /-- The compose file. -/
  compose : CopiedTo t t' (place (composePath p)) (copyPlace p now composeName)
  /-- The state file. -/
  state : CopiedTo t t' (place (statePath p)) (copyPlace p now stateName)

/-- The snapshot touches its own file only. -/
theorem runs_snapshotConfig_ok {now : DateTime} {u : Unit}
    (h : H.env.Runs w (snapshotConfig p (backupDirFor p now)) tr (.ok u) w') {name : Str}
    (hname : BackedUp name) :
    (H.tree w').node (copyPlace p now name) = (H.tree w).node (copyPlace p now name) := by
  unfold snapshotConfig at h
  obtain ⟨cmd, t₁, t₂, w₁, -, hlift, h₁⟩ := Env.runs_bind_ok h
  obtain ⟨-, hcmd, rfl⟩ := Env.runs_lift_ok hlift
  obtain ⟨cfg, t₃, t₄, w₂, -, hexec, h₂⟩ := Env.runs_bind_ok h₁
  obtain ⟨-, rfl, -⟩ := runs_exec_iff.mp hexec
  have htree : H.tree (H.next w₁ cmd) = H.tree w₁ := tree_next_of_reads (.composeConfig hcmd)
  by_cases hcfg : cfg.exitCode = 0
  · rw [if_pos hcfg] at h₂
    obtain ⟨out, t₅, t₆, w₃, -, hwrite, h₃⟩ := Env.runs_bind_ok h₂
    obtain ⟨-, -, rfl⟩ := Env.runs_ret_iff.mp h₃
    obtain ⟨cmd', hcmd', -, hstep⟩ := runs_execBuilt_ok hwrite
    have hframe := Carried.write_frame (hstep.carried (actions_writeFile hcmd')).1
    rw [← htree]
    refine hframe _ ?_
    rw [not_or, scratchPlace_posixJoin _ (by decide), place_backupDirFor, place_copy _ _ (by decide)]
    constructor
    · intro hbelow
      simp only [Below, copyPlace, List.append_assoc, List.prefix_append_right_inj,
        List.cons_append, List.nil_append, List.cons_prefix_cons] at hbelow
      rcases hname with rfl | rfl
      · exact absurd hbelow.2.2.1 (by decide)
      · exact absurd hbelow.2.2.1 (by decide)
    · refine not_below_copyPlace ?_
      rcases hname with rfl | rfl
      · decide
      · decide
  · rw [if_neg hcfg] at h₂
    obtain ⟨-, -, rfl⟩ := Env.runs_ret_iff.mp h₂
    rw [htree]

/-- A file of the install directory is not a parent of the backups. -/
theorem not_prefix_backupDir (now : DateTime) {x : Str} (hx : x ≠ "backups".toList) :
    ¬ place p ++ [x] <+: place (backupDirFor p now) := by
  rw [place_backupDirFor, List.prefix_append_right_inj, List.cons_prefix_cons]
  exact fun h => hx h.1

/-- **The backup that came back** holds both files. -/
theorem runs_backup_ok {now : DateTime} {dir : PathBuf}
    (h : H.env.Runs w (backup p now) tr (.ok dir) w') :
    dir = backupDirFor p now ∧ InBackup p now (H.tree w) (H.tree w') := by
  unfold backup at h
  obtain ⟨_, t₁, _, w₁, -, hmkdir, h₁⟩ := Env.runs_bind_ok h
  obtain ⟨_, t₂, _, w₂, -, hcompose, h₂⟩ := Env.runs_bind_ok h₁
  obtain ⟨_, t₃, _, w₃, -, hstate, h₃⟩ := Env.runs_bind_ok h₂
  obtain ⟨_, t₄, _, w₄, -, hsnapshot, h₄⟩ := Env.runs_bind_ok h₃
  obtain ⟨-, hdir, rfl⟩ := Env.runs_ret_iff.mp h₄
  cases hdir
  have hnode₁ : ∀ q, ¬ q <+: place (backupDirFor p now) →
      (H.tree w₁).node q = (H.tree w).node q := by
    intro q hq
    rw [mkdirs_eq_some (runs_mkdirP_ok hmkdir), if_neg hq]
  have hcopy₁ := runs_copyFile_ok hcompose
  have hcopy₂ := runs_copyFile_ok hstate
  rw [place_copy _ _ isName_composeName] at hcopy₁
  rw [place_copy _ _ isName_stateName] at hcopy₂
  have hsnap := fun {name} (hname : BackedUp name) => runs_snapshotConfig_ok hsnapshot hname
  have haccepted : ∀ name, BackedUp name → ∃ cmd, Commands.copyFile (posixJoin p name)
      (posixJoin (backupDirFor p now) name) = .ok cmd := by
    intro name hname
    rcases hname with rfl | rfl
    · obtain ⟨cmd, hcmd, -⟩ := runs_execBuilt_ok hcompose
      exact ⟨cmd, hcmd⟩
    · obtain ⟨cmd, hcmd, -⟩ := runs_execBuilt_ok hstate
      exact ⟨cmd, hcmd⟩
  refine ⟨rfl, haccepted, ⟨_, _, hnode₁ _ ?_, hcopy₁, ?_⟩, ⟨_, _, ?_, hcopy₂, hsnap (.inr rfl)⟩⟩
  · rw [place_composePath]
    exact not_prefix_backupDir now (by decide)
  · rw [hsnap (.inl rfl), hcopy₂.sameNodes _ (not_below_copyPlace (by decide))]
  · rw [hcopy₁.sameNodes, hnode₁]
    · rw [place_statePath]
      exact not_prefix_backupDir now (by decide)
    · show ¬ Below (copyPlace p now composeName) _
      rw [place_statePath]
      exact not_below_of_ne (by decide) _

/-! ### Preparing -/

/-- What `prepare` returns. -/
theorem runs_prepare_ok {opts : UpdateOptions} {report : CheckUpdatesReport} {now : DateTime}
    {newState : RelayState} {newCompose : Str}
    (h : H.env.Runs w (self.prepare opts report now) tr (.ok (newState, newCompose)) w') :
    newState.images = report.images.map (ImageUpdate.newPin now) ∧
      renderComposeWithPins opts.composeTemplate (report.images.map (ImageUpdate.newPin now)) =
        .ok newCompose := by
  unfold prepare at h
  obtain ⟨state, t₁, t₂, w₁, -, hload, h₁⟩ := Env.runs_bind_ok h
  obtain ⟨compose, t₃, t₄, w₂, -, hrender, h₂⟩ := Env.runs_bind_ok h₁
  obtain ⟨-, hcompose, -⟩ := Env.runs_lift_ok hrender
  obtain ⟨-, hret, -⟩ := Env.runs_ret_iff.mp h₂
  cases hret
  exact ⟨rfl, hcompose⟩

/-! ### Up to the point where the install is touched -/

/-- What a backup changes: its directory, and the directories above. -/
def BackupFrame (p : PathBuf) (now : DateTime) (q : Path) : Prop :=
  Below (place (backupDirFor p now)) q ∨ q <+: place (backupDirFor p now)

/-- **The backup** makes its directory and changes what is below. -/
theorem actions_of_saves {now : DateTime} {cmd : Str} (h : Saves p now cmd) :
    ∃ as, actions cmd = some as ∧ ∀ a ∈ as, a = .mkdir (place (backupDirFor p now)) ∨
      ∀ q, a.Makes q → Below (place (backupDirFor p now)) q := by
  have hself : Below (place (backupDirFor p now)) (place (backupDirFor p now)) :=
    List.prefix_refl _
  cases h with
  | mkdir h =>
    refine ⟨_, actions_mkdirP h, fun a ha => .inl ?_⟩
    exact List.mem_singleton.mp ha
  | copy hname h =>
    have hdst := (below_posixJoin (isName_of_backedUp hname) hself).1
    refine ⟨_, actions_copyFile h, fun a ha => .inr fun q hq => ?_⟩
    obtain rfl := List.mem_singleton.mp ha
    exact hdst.trans hq
  | snapshot h =>
    obtain ⟨hdst, hscratch⟩ := below_posixJoin (x := "compose-config.yml".toList) (by decide) hself
    refine ⟨_, actions_writeFile h, fun a ha => .inr fun q hq => ?_⟩
    simp only [List.mem_cons, List.not_mem_nil, or_false] at ha
    rcases ha with rfl | rfl | rfl
    · exact hscratch.trans hq
    · exact hq.elim hscratch.trans hdst.trans
    · exact hq.elim

theorem keeps_of_saves {now : DateTime} {cmd : Str} (h : Saves p now cmd) :
    Keeps (BackupFrame p now) cmd := by
  obtain ⟨as, has, hall⟩ := actions_of_saves h
  refine ⟨as, has, fun a ha q hq => ?_⟩
  rcases hall a ha with rfl | hbelow
  · exact .inr hq
  · exact .inl (hbelow q hq)

theorem stays_of_saves {now : DateTime} {cmd : Str} (h : Saves p now cmd) :
    Stays (Below (place (backupDirFor p now))) cmd := by
  obtain ⟨as, has, hall⟩ := actions_of_saves h
  refine ⟨as, has, fun a ha q hq => ?_⟩
  rcases hall a ha with rfl | hbelow
  · exact hq.elim
  · exact hbelow q (Action.makes_of_touches hq)

/-- The commands before the install is touched: those that read, and the backup of a time of
`T`. -/
def Before (p : PathBuf) (T : DateTime → Prop) (cmd : Str) : Prop :=
  Reads p cmd ∨ ∃ now, T now ∧ Saves p now cmd

theorem always_before {α : Type} {prog : Relay α} {Q : α → Prop} {T : DateTime → Prop}
    (h : Always (fun _ => True) (Asks False True (Reads p)) prog Q) :
    Always (fun _ => True) (Asks False True (Before p T)) prog Q :=
  h.weaken (fun _ h => h) (Asks.mono fun _ => .inl)

/-- The host, and what is in hand, when an update starts to change the install. -/
structure Prepared (H : Host) (relay : RelayLifecycle) (opts : UpdateOptions) (w w₁ : H.World)
    (report : CheckUpdatesReport) (now : DateTime) (backupDir : Option PathBuf)
    (newState : RelayState) (newCompose : Str) : Prop where
  /-- The update is confirmed. -/
  confirmed : opts.assumeYes = true ∨ opts.isTty = true
  /-- What the registry has. -/
  checked : ∃ tr w', H.env.Runs w (relay.checkUpdates opts.installPath) tr (.ok report) w'
  /-- Some digest has changed. -/
  available : report.anyUpdateAvailable = true
  /-- The backup, unless it was skipped. -/
  backup : if opts.skipBackup then backupDir = none
    else backupDir = some (backupDirFor opts.installPath now) ∧
      InBackup opts.installPath now (H.tree w) (H.tree w₁)
  /-- The new pins. -/
  images : newState.images = report.images.map (ImageUpdate.newPin now)
  /-- The new compose file. -/
  render : renderComposeWithPins opts.composeTemplate
    (report.images.map (ImageUpdate.newPin now)) = .ok newCompose

/-- What a run up to that point asked, `tr`, and how it came to it: it failed, or there was nothing
to do, or it goes on. -/
inductive Arrives (H : Host) (self : RelayLifecycle) (opts : UpdateOptions) (w w' : H.World)
    (r : Except RustmoteError UpdateReport) : List Event → List Event → H.World → Prop where
  /-- It failed. -/
  | failed {tr : List Event} {e : RustmoteError} (hr : r = .error e)
      (he : e ≠ .relayHealthCheckFailed) : Arrives H self opts w w' r tr [] w'
  /-- There was nothing to do. -/
  | unchanged {tr t : List Event} {w₁ : H.World} {found : CheckUpdatesReport}
      {report : UpdateReport} (hr : r = .ok report) (hchanged : report.changed = false)
      (hchecked : H.env.Runs w (self.checkUpdates opts.installPath) t (.ok found) w₁)
      (havailable : found.anyUpdateAvailable = false) : Arrives H self opts w w' r tr [] w'
  /-- It goes on from a prepared host. -/
  | prepared {t₁ t₂ : List Event} {w₁ : H.World} {report : CheckUpdatesReport} {now : DateTime}
      {backupDir : Option PathBuf} {newState : RelayState} {newCompose : Str}
      (hnow : ReadOnce opts.installPath t₁ now)
      (hprepared : Prepared H self opts w w₁ report now backupDir newState newCompose)
      (hrun : H.env.Runs w₁ (do
        self.install opts.installPath newState newCompose
        self.conclude opts now backupDir newState) t₂ r w') : Arrives H self opts w w' r t₁ t₂ w₁

/-- The backup, unless it is skipped. -/
theorem runs_backupUnlessSkipped_ok {opts : UpdateOptions} {now : DateTime} {dir : Option PathBuf}
    (h : H.env.Runs w (backupUnlessSkipped opts now) tr (.ok dir) w') :
    if opts.skipBackup then dir = none
    else dir = some (backupDirFor opts.installPath now) ∧
      InBackup opts.installPath now (H.tree w) (H.tree w') := by
  unfold backupUnlessSkipped at h
  by_cases hskip : opts.skipBackup = true
  · rw [if_pos hskip] at h ⊢
    obtain ⟨-, hdir, -⟩ := Env.runs_ret_iff.mp h
    exact Except.ok.inj hdir
  · rw [if_neg hskip] at h ⊢
    obtain ⟨d, t₁, t₂, w₁, -, hbackup, h₁⟩ := Env.runs_bind_ok h
    obtain ⟨-, hdir, rfl⟩ := Env.runs_ret_iff.mp h₁
    obtain ⟨rfl, hin⟩ := runs_backup_ok hbackup
    exact ⟨Except.ok.inj hdir, hin⟩

/-- **A run of `update`**: it failed before it touched the install, or there was nothing to do,
or it went on from a prepared host. -/
theorem runs_update {opts : UpdateOptions} {r : Except RustmoteError UpdateReport}
    (h : H.env.Runs w (self.update opts) tr r w') :
    ∃ t₁ t₂ w₁, tr = t₁ ++ t₂ ∧ H.env.final w t₁ = w₁ ∧
      (∀ e ∈ t₁, Asks False True (Before opts.installPath (Shown t₁)) e.request) ∧
      Arrives H self opts w w' r t₁ t₂ w₁ := by
  -- a run that came back without touching the install
  have hstops : (∀ e ∈ tr, Asks False True (Before opts.installPath (Shown tr)) e.request) →
      Arrives H self opts w w' r tr [] w' → ∃ t₁ t₂ w₁, tr = t₁ ++ t₂ ∧ H.env.final w t₁ = w₁ ∧
        (∀ e ∈ t₁, Asks False True (Before opts.installPath (Shown t₁)) e.request) ∧
        Arrives H self opts w w' r t₁ t₂ w₁ :=
    fun hasks harrives => ⟨tr, [], w', (List.append_nil tr).symm, h.2.2, hasks, harrives⟩
  have hrun := h
  unfold update at hrun
  by_cases hconfirmed : (!opts.assumeYes && !opts.isTty) = true
  · rw [if_pos hconfirmed] at hrun
    obtain ⟨rfl, hr, -⟩ := Env.runs_fail_iff.mp hrun
    exact hstops (fun e he => nomatch he) (.failed hr (by simp))
  rw [if_neg hconfirmed] at hrun
  have hyes : opts.assumeYes = true ∨ opts.isTty = true := by
    cases h₁ : opts.assumeYes
    · cases h₂ : opts.isTty
      · rw [h₁, h₂] at hconfirmed
        exact absurd rfl hconfirmed
      · exact .inr rfl
    · exact .inl rfl
  rcases Env.runs_bind_iff.mp hrun with ⟨e, hr, hcheck⟩ | ⟨report, t₁, t₂, w₁, htr, hcheck, h₁⟩
  · refine hstops (hcheck.requests (always_before always_checkUpdates)) (.failed hr ?_)
    exact (errors_checkUpdates _).run hcheck.1 fun _ _ => trivial
  have hasks₁ : ∀ T, ∀ e ∈ t₁, Asks False True (Before opts.installPath T) e.request := fun T =>
    hcheck.requests (always_before always_checkUpdates)
  by_cases havailable : (!report.anyUpdateAvailable) = true
  · rw [if_pos havailable] at h₁
    have hasks₂ : ∀ e ∈ t₂, Asks False True (Before opts.installPath (Shown tr)) e.request :=
      h₁.requests (Q := fun _ => True)
        (always_before (always_loadState.bind fun _ _ => .ret trivial))
    refine hstops (fun e he => ?_) ?_
    · rw [htr] at he
      exact (List.mem_append.mp he).elim (hasks₁ _ e) (hasks₂ e)
    · rcases Env.runs_bind_iff.mp h₁ with ⟨e, hr, hload⟩ | ⟨state, t₃, t₄, w₂, -, hload, h₂⟩
      · exact .failed hr ((errors_loadState _).run hload.1 fun _ _ => trivial)
      · obtain ⟨-, hr, -⟩ := Env.runs_ret_iff.mp h₂
        exact .unchanged hr rfl hcheck (by simpa using havailable)
  rw [if_neg havailable] at h₁
  unfold applyUpdates at h₁
  obtain ⟨t₃, rfl, h₂⟩ := Env.runs_request_iff.mp h₁
  have htree : H.tree (H.env.answer w₁ .now).2 = H.tree w := by
    rw [H.quiet w₁ .now fun _ h => by cases h]
    exact runs_tree hcheck always_checkUpdates
  generalize (H.env.answer w₁ .now).1 = now at h₂ htr
  generalize hw₂ : (H.env.answer w₁ .now).2 = w₂ at h₂ htree
  have hshown : ∀ t, Shown (t₁ ++ ⟨.now, now⟩ :: t) now := fun t => by simp [Shown]
  have hasks₂ : ∀ t T, (∀ e ∈ t, Asks False True (Before opts.installPath T) e.request) →
      ∀ e ∈ t₁ ++ ⟨.now, now⟩ :: t, Asks False True (Before opts.installPath T) e.request := by
    intro t T ht e he
    rcases List.mem_append.mp he with he | he
    · exact hasks₁ T e he
    · rcases List.mem_cons.mp he with rfl | he
      · trivial
      · exact ht e he
  rcases Env.runs_bind_iff.mp h₂ with ⟨e, hr, hbackup⟩ | ⟨dir, t₄, t₅, w₃, rfl, hbackup, h₃⟩
  · refine hstops ?_ (.failed hr ((errors_backupUnlessSkipped _ _).run hbackup.1 fun _ _ => trivial))
    rw [htr]
    exact hasks₂ _ _ fun e he => Asks.mono (fun cmd => Or.imp_right fun h => ⟨now, hshown _, h⟩) _
      (hbackup.requests (always_backupUnlessSkipped opts now) e he)
  have hasks₄ : ∀ t, ∀ e ∈ t₄,
      Asks False True (Before opts.installPath (Shown (t₁ ++ ⟨.now, now⟩ :: t))) e.request :=
    fun t e he => Asks.mono (fun cmd => Or.imp_right fun h => ⟨now, hshown _, h⟩) _
      (hbackup.requests (always_backupUnlessSkipped opts now) e he)
  rcases Env.runs_bind_iff.mp h₃ with
    ⟨e, hr, hprepare⟩ | ⟨⟨newState, newCompose⟩, t₆, t₇, w₄, rfl, hprepare, h₄⟩
  · refine hstops ?_ (.failed hr ((errors_prepare _ _ _).run hprepare.1 fun _ _ => trivial))
    rw [htr]
    refine hasks₂ _ _ (List.forall_mem_append.mpr ⟨hasks₄ _, ?_⟩)
    exact hprepare.requests (always_before (always_prepare opts report now))
  have hasks₆ : ∀ T, ∀ e ∈ t₆, Asks False True (Before opts.installPath T) e.request := fun T =>
    hprepare.requests (always_before (always_prepare opts report now))
  obtain ⟨himages, hrender⟩ := runs_prepare_ok hprepare
  have hfinal : H.env.final w (t₁ ++ ⟨.now, now⟩ :: (t₄ ++ t₆)) = w₄ := by
    rw [Env.final_append, hcheck.2.2, Env.final_cons, Env.after, hw₂, Env.final_append,
      hbackup.2.2, hprepare.2.2]
  have hdir := runs_backupUnlessSkipped_ok hbackup
  rw [htree, ← runs_tree hprepare (always_prepare opts report now)] at hdir
  have hprepared : Prepared H self opts w w₄ report now dir newState newCompose :=
    ⟨hyes, ⟨t₁, w₁, hcheck⟩, by simpa using havailable, hdir, himages, hrender⟩
  have honce : ReadOnce opts.installPath (t₁ ++ ⟨.now, now⟩ :: (t₄ ++ t₆)) now :=
    ⟨t₁, t₄ ++ t₆, rfl, hcheck.requests (plain_checkUpdates _), List.forall_mem_append.mpr
      ⟨hbackup.requests (plain_backupUnlessSkipped opts now),
        hprepare.requests (plain_prepare opts report now)⟩⟩
  refine ⟨t₁ ++ ⟨.now, now⟩ :: (t₄ ++ t₆), t₇, w₄, ?_, hfinal, ?_,
    .prepared honce hprepared h₄⟩
  · rw [htr]
    simp
  · exact hasks₂ _ _ (List.forall_mem_append.mpr ⟨hasks₄ _, hasks₆ _⟩)

/-! ### What is still as it was -/

/-- **Before the install is touched**, its files are as they were. -/
theorem sameNodes_before {T : DateTime → Prop}
    (h : ∀ e ∈ tr, Asks False True (Before p T) e.request) :
    SameNodes (fun q => ∃ now, T now ∧ BackupFrame p now q) (H.tree w)
      (H.tree (H.env.final w tr)) := by
  refine H.env.final_rel (P := Asks False True (Before p T)) (R := fun w w' => SameNodes
    (fun q => ∃ now, T now ∧ BackupFrame p now q) (H.tree w) (H.tree w')) (fun _ _ _ => rfl)
    (fun _ _ _ h₁ h₂ q hq => (h₂ q hq).trans (h₁ q hq)) (fun w q hq => ?_) h w
  cases q with
  | exec cmd =>
    rcases hq with hreads | ⟨now, hnow, hsaves⟩
    · rw [tree_next_of_reads hreads]
      exact fun _ _ => rfl
    · obtain ⟨as, has, hmakes⟩ := keeps_of_saves hsaves
      refine fun q hq => (H.carried w cmd as has).sameNodes q ?_
      rintro ⟨a, ha, hq'⟩
      exact hq ⟨now, hnow, hmakes a ha q hq'⟩
  | _ =>
    rw [H.quiet w _ fun _ h => by cases h]
    exact fun _ _ => rfl

theorem sameFiles_before {T : DateTime → Prop}
    (h : ∀ e ∈ tr, Asks False True (Before p T) e.request) :
    SameFiles (fun q => ∃ now, T now ∧ Below (place (backupDirFor p now)) q) (H.tree w)
      (H.tree (H.env.final w tr)) := by
  refine H.env.final_rel (P := Asks False True (Before p T)) (R := fun w w' => SameFiles
    (fun q => ∃ now, T now ∧ Below (place (backupDirFor p now)) q) (H.tree w) (H.tree w'))
    (fun _ => SameFiles.refl _ _) (fun _ _ _ h₁ h₂ => h₁.trans h₂) (fun w q hq => ?_) h w
  cases q with
  | exec cmd =>
    rcases hq with hreads | ⟨now, hnow, hsaves⟩
    · rw [tree_next_of_reads hreads]
      exact SameFiles.refl _ _
    · exact (Stays.sameFiles (stays_of_saves hsaves)).mono fun q hq => ⟨now, hnow, hq⟩
  | _ =>
    rw [H.quiet w _ fun _ h => by cases h]
    exact SameFiles.refl _ _

/-- A file of the install directory itself. -/
theorem node_before {T : DateTime → Prop} (h : ∀ e ∈ tr, Asks False True (Before p T) e.request)
    {x : Str} (hx : x ≠ "backups".toList) :
    (H.tree (H.env.final w tr)).node (place p ++ [x]) = (H.tree w).node (place p ++ [x]) := by
  refine sameNodes_before h _ ?_
  rintro ⟨now, -, hbelow | hlead⟩
  · exact not_below_backupDir now hx.symm hbelow
  · exact not_prefix_backupDir now hx hlead

end Host

end Rustmote
