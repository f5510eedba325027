import Rustmote.Foundations.Calendar
import Rustmote.RelayLifecycle.Confined
import Rustmote.RelayLifecycle.Lineage

/-!
# Backups last

What an update has backed up is not changed by anything that comes behind it: neither by the rest
of the update nor by later operations, however they fail. Two things can change it. An update in
the same second makes its backup in the same directory: time stamps tell seconds apart and no more.
And a backup that is old can be removed.

* `SparesBackup` — the command leaves what is in a backup alone. `always_bootstrap_spares` and
  `always_update_spares` say it of all that these operations issue, but for the removal.
* `backup_lasts` — copying a backup back restores both files, at any later time.
-/

namespace Rustmote

open Interaction (Env)
open Interaction.Prog (Always)
open FileTree Host

/-- Backups of two seconds have two names. -/
theorem backupName_ne {t u : DateTime} (h : t.timestamp ≠ u.timestamp) :
    backupName t ≠ backupName u := fun heq =>
  h (Civil.timestamp_eq_of_formatFileStamp (List.append_cancel_left heq))

/-! ### Places in a backup -/

/-- The place is in the backup of a point in time. -/
def Within (p : PathBuf) (now : DateTime) (q : Path) : Prop :=
  ∃ x rest, q = place p ++ ["backups".toList, backupName now] ++ x :: rest

/-- The command leaves what is in the backup alone, however far it gets. -/
def SparesBackup (p : PathBuf) (now : DateTime) : Str → Prop := Keeps fun q => ¬ Within p now q

/-- The command removes the backup. -/
def DropsBackup (p : PathBuf) (now : DateTime) (cmd : Str) : Prop :=
  ∃ path s, Commands.validateRemotePath path = .ok s ∧ cmd = "rm -rf ".toList ++ s ∧
    place path = place (backupDirFor p now)

variable {p : PathBuf} {now : DateTime} {cmd : Str}

/-- What is in the backup depends on the two copies only. -/
theorem Host.InBackup.congr {t t₁ t₂ : FileTree} (h : InBackup p now t t₁)
    (hnode : ∀ name, t₂.node (copyPlace p now name) = t₁.node (copyPlace p now name)) :
    InBackup p now t t₂ := by
  have hcopied : ∀ {x : Path} {name : Str}, CopiedTo t t₁ x (copyPlace p now name) →
      CopiedTo t t₂ x (copyPlace p now name) := by
    rintro x name ⟨a, b, ha, hdone, hb⟩
    exact ⟨a, b, ha, hdone, (hnode name).trans hb⟩
  exact ⟨h.accepted, hcopied h.compose, hcopied h.state⟩

/-- A place that is not in `backups` is no place to find a backup below. -/
theorem not_below_of_within {x : Str} {q : Path} (hx : x ≠ "backups".toList)
    (hq : Within p now q) : ¬ Below (place p ++ [x]) q := by
  obtain ⟨y, rest, rfl⟩ := hq
  intro hbelow
  rw [List.append_assoc, Below, List.prefix_append_right_inj, List.cons_append,
    List.cons_prefix_cons] at hbelow
  exact hx hbelow.1

/-- Nor is another backup. -/
theorem not_below_other {t : DateTime} {q : Path} (ht : t.timestamp ≠ now.timestamp)
    (hq : Within p now q) : ¬ Below (place (backupDirFor p t)) q := by
  obtain ⟨y, rest, rfl⟩ := hq
  rw [place_backupDirFor]
  intro hbelow
  rw [List.append_assoc, Below, List.prefix_append_right_inj, List.cons_append, List.cons_append,
    List.cons_prefix_cons, List.cons_prefix_cons] at hbelow
  exact backupName_ne ht hbelow.2.1

/-- What is in a backup lies deeper than the directories that are made. -/
theorem not_prefix_of_within {q d : Path} (hd : d.length ≤ (place p).length + 2)
    (hq : Within p now q) : ¬ q <+: d := by
  obtain ⟨y, rest, rfl⟩ := hq
  intro hprefix
  have hle := hprefix.length_le
  simp only [List.length_append, List.length_cons, List.length_nil] at hle
  omega

/-- A removed backup that is not this one does not have it below. -/
theorem not_below_backup {b q : Path} (hb : IsBackup p b)
    (hne : b ≠ place (backupDirFor p now)) (hq : Within p now q) : ¬ Below b q := by
  obtain ⟨y, rest, rfl⟩ := hq
  intro hbelow
  have hdrop := hb.1
  have hnil : b ≠ [] := by
    rintro rfl
    rw [place_backupsPath] at hdrop
    simp at hdrop
  have hsplit := List.dropLast_append_getLast hnil
  rw [hdrop, place_backupsPath, List.append_assoc] at hsplit
  refine hne ?_
  rw [← hsplit] at hbelow ⊢
  rw [List.append_assoc, Below, List.prefix_append_right_inj] at hbelow
  simp only [List.cons_append, List.nil_append, List.cons_prefix_cons, true_and,
    List.nil_prefix, and_true] at hbelow
  rw [place_backupDirFor]
  simp [hbelow]

/-! ### The commands -/

theorem spares_of_reads (h : Reads p cmd) : SparesBackup p now cmd := by
  obtain ⟨as, has, hstill⟩ := still_of_reads h
  refine ⟨as, has, fun a ha q hq => ?_⟩
  have ha := hstill a ha
  cases a with
  | mkdir | copy | decode | move | remove => cases ha
  | _ => exact hq.elim

theorem spares_mkdirP {path : PathBuf} (hpath : (place path).length ≤ (place p).length + 2)
    (h : Commands.mkdirP path = .ok cmd) : SparesBackup p now cmd := by
  refine ⟨_, actions_mkdirP h, fun a ha q hq hwithin => ?_⟩
  obtain rfl := List.mem_singleton.mp ha
  exact not_prefix_of_within hpath hwithin hq

theorem spares_copyFile {src dst : PathBuf} (hdst : ∀ q, Within p now q → ¬ Below (place dst) q)
    (h : Commands.copyFile src dst = .ok cmd) : SparesBackup p now cmd := by
  refine ⟨_, actions_copyFile h, fun a ha q hq hwithin => ?_⟩
  obtain rfl := List.mem_singleton.mp ha
  exact hdst q hwithin hq

theorem spares_writeFile {path : PathBuf} {content : Bytes}
    (hpath : ∀ q, Within p now q → ¬ Below (place path) q ∧ ¬ Below (scratchPlace path) q)
    (h : Commands.writeFile path content = .ok cmd) : SparesBackup p now cmd := by
  refine ⟨_, actions_writeFile h, fun a ha q hq hwithin => ?_⟩
  obtain ⟨hplace, hscratch⟩ := hpath q hwithin
  simp only [List.mem_cons, List.not_mem_nil, or_false] at ha
  rcases ha with rfl | rfl | rfl
  · exact hscratch hq
  · exact hq.elim hscratch hplace
  · exact hq.elim

/-- The files that are written have no name of `backups`. -/
def InstallName (x : Str) : Prop :=
  IsName x ∧ x ≠ "backups".toList ∧ x ++ Commands.tmpSuffix ≠ "backups".toList

theorem installName_composeName : InstallName composeName := ⟨by decide, by decide, by decide⟩

theorem installName_stateName : InstallName stateName := ⟨by decide, by decide, by decide⟩

theorem installName_env : InstallName ".env".toList := ⟨by decide, by decide, by decide⟩

theorem spares_write {x : Str} (hx : InstallName x) {content : Bytes}
    (h : Commands.writeFile (posixJoin p x) content = .ok cmd) : SparesBackup p now cmd := by
  refine spares_writeFile (fun q hq => ?_) h
  rw [place_posixJoin p hx.1, scratchPlace_posixJoin p hx.1]
  exact ⟨not_below_of_within hx.2.1 hq, not_below_of_within hx.2.2 hq⟩

theorem spares_copyBack {x : Str} (hx : InstallName x) {src : PathBuf}
    (h : Commands.copyFile src (posixJoin p x) = .ok cmd) : SparesBackup p now cmd := by
  refine spares_copyFile (fun q hq => ?_) h
  rw [place_posixJoin p hx.1]
  exact not_below_of_within hx.2.1 hq

/-- The backup of another second leaves this one alone. -/
theorem spares_of_saves {t : DateTime} (ht : t.timestamp ≠ now.timestamp) (h : Saves p t cmd) :
    SparesBackup p now cmd := by
  have hdir : Below (place (backupDirFor p t)) (place (backupDirFor p t)) := List.prefix_refl _
  cases h with
  | mkdir h =>
    refine spares_mkdirP ?_ h
    rw [place_backupDirFor, List.length_append]
    exact le_refl _
  | copy hname h =>
    refine spares_copyFile (fun q hq hbelow => ?_) h
    exact not_below_other ht hq ((below_posixJoin (isName_of_backedUp hname) hdir).1.trans hbelow)
  | snapshot h =>
    have hbelow := below_posixJoin (x := "compose-config.yml".toList) (by decide) hdir
    refine spares_writeFile (fun q hq => ⟨fun hplace => ?_, fun hscratch => ?_⟩) h
    · exact not_below_other ht hq (hbelow.1.trans hplace)
    · exact not_below_other ht hq (hbelow.2.trans hscratch)

/-- A removal is that of the backup, or leaves it alone. -/
theorem spares_or_drops {path : PathBuf} {s : Str} (hpath : IsBackup p (place path))
    (h : Commands.validateRemotePath path = .ok s) :
    SparesBackup p now ("rm -rf ".toList ++ s) ∨ DropsBackup p now ("rm -rf ".toList ++ s) := by
  by_cases hsame : place path = place (backupDirFor p now)
  · exact .inr ⟨path, s, h, rfl, hsame⟩
  · refine .inl ⟨_, actions_remove h, fun a ha q hq hwithin => ?_⟩
    obtain rfl := List.mem_singleton.mp ha
    exact not_below_backup hpath hsame hwithin hq

/-! ### The operations -/

namespace RelayLifecycle

variable {G : Event → Prop} {self : RelayLifecycle} {timed online : Prop}

theorem always_layOut_spares (opts : BootstrapOptions) (compose : Str) (state : RelayState) :
    Always G (Asks timed online (SparesBackup opts.installPath now))
      (self.layOut opts compose state) fun _ => True := by
  have hlen : ∀ {x : Str}, IsName x → (place (posixJoin opts.installPath x)).length ≤
      (place opts.installPath).length + 2 := by
    intro x hx
    rw [place_posixJoin _ hx, List.length_append, List.length_singleton]
    omega
  unfold layOut
  refine (always_execBuilt fun _ h => spares_mkdirP (Nat.le_add_right _ _) h).bind fun _ _ => ?_
  refine (always_execBuilt fun _ h => spares_mkdirP (hlen (by decide)) h).bind fun _ _ => ?_
  refine (always_execBuilt fun _ h => spares_mkdirP (hlen (by decide)) h).bind fun _ _ => ?_
  refine (always_execBuilt fun _ h => spares_write installName_composeName h).bind fun _ _ => ?_
  refine (always_execBuilt fun _ h => spares_write installName_env h).bind fun _ _ => ?_
  refine Always.lift fun text _ => ?_
  exact (always_execBuilt fun _ h => spares_write installName_stateName h).bind
    fun _ _ => .ret trivial

/-- **A bootstrap** leaves what is in a backup alone. -/
theorem always_bootstrap_spares (opts : BootstrapOptions) :
    Always G (Asks True True (SparesBackup opts.installPath now)) (self.bootstrap opts)
      fun _ => True := by
  have hreads : ∀ cmd, Reads opts.installPath cmd → SparesBackup opts.installPath now cmd :=
    fun _ => spares_of_reads
  unfold bootstrap
  refine (always_of_reads hreads (always_osOf opts.osHint)).bind fun os _ => ?_
  refine (always_of_reads hreads always_ensureDockerStack).bind fun _ _ => ?_
  refine (always_of_reads hreads always_installExists).bind fun found _ => ?_
  cases found with
  | true => exact always_of_reads hreads (always_bootstrapExisting opts os)
  | false =>
    show Always G _ (self.bootstrapFresh opts os) _
    unfold bootstrapFresh settle
    refine Always.request (q := Request.now) trivial fun t _ => ?_
    refine (always_resolvePins _ _ t _).bind fun pins _ => Always.lift fun compose _ => ?_
    refine (always_layOut_spares opts _ _).bind fun _ _ => ?_
    refine (always_execBuilt fun _ h => hreads _ (.composeUp h)).bind fun _ _ => ?_
    refine (always_of_reads hreads (always_healthCheck _)).bind fun _ _ => ?_
    exact (always_of_reads hreads always_publicKey).bind fun _ _ => .ret trivial

theorem always_install_spares (newState : RelayState) (newCompose : Str) :
    Always G (Asks timed online (SparesBackup p now)) (self.install p newState newCompose)
      fun _ => True := by
  unfold install
  refine (always_execBuilt fun _ h => spares_write installName_composeName h).bind fun _ _ => ?_
  refine Always.lift fun text _ => ?_
  refine (always_execBuilt fun _ h => spares_write installName_stateName h).bind fun _ _ => ?_
  refine (always_execBuilt fun _ h => spares_of_reads (.composePull h)).bind fun _ _ => ?_
  exact (always_execBuilt fun _ h => spares_of_reads (.composeUp h)).bind fun _ _ => .ret trivial

theorem always_rollback_spares (dir : PathBuf) :
    Always G (Asks True online (SparesBackup p now)) (self.rollback p dir) fun _ => True := by
  unfold rollback
  refine (always_execBuilt fun _ h => spares_copyBack installName_composeName h).bind fun _ _ => ?_
  refine (always_execBuilt fun _ h => spares_copyBack installName_stateName h).bind fun _ _ => ?_
  refine (always_execBuilt fun _ h => spares_of_reads (.composeUp h)).bind fun _ _ => ?_
  exact always_of_reads (fun _ => spares_of_reads) (always_healthCheck _)

/-- The commands that leave the backup alone or remove it. -/
abbrev SparesOrDrops (p : PathBuf) (now : DateTime) (cmd : Str) : Prop :=
  SparesBackup p now cmd ∨ DropsBackup p now cmd

variable {T : DateTime → Prop}

/-- What a sound listing names. -/
abbrev NamesBackup (p path : PathBuf) : Prop :=
  (Commands.validateRemotePath path).isOk = true → IsBackup p (place path)

theorem always_removeBackups_spares {paths : List PathBuf}
    (h : ∀ path ∈ paths, NamesBackup p path) :
    Always G (Asks timed online (SparesOrDrops p now)) (removeBackups paths) fun _ => True := by
  induction paths with
  | nil => exact .ret trivial
  | cons path paths ih =>
    unfold removeBackups
    refine Always.lift fun s hs => ?_
    have hpath : IsBackup p (place path) := h path List.mem_cons_self (by rw [hs]; rfl)
    refine (always_execOk (spares_or_drops hpath hs)).bind fun _ _ => ?_
    exact (ih fun q hq => h q (List.mem_cons_of_mem _ hq)).bind fun _ _ => .ret trivial

theorem always_gcBackups_spares {t : DateTime} (ht : T t) :
    Always (Grounded p T (NamesBackup p)) (Asks timed online (SparesOrDrops p now)) (gcBackups p t)
      fun _ => True := by
  unfold gcBackups
  refine Always.lift fun cmd hcmd => ?_
  refine (always_exec (.inl (spares_of_reads (.find hcmd)))).bind fun out hout => ?_
  by_cases hcode : out.exitCode = 0
  · rw [if_neg (not_not.mpr hcode)]
    exact always_removeBackups_spares (hout hcmd out rfl hcode t ht)
  · rw [if_pos hcode]
    exact .ret trivial

theorem always_conclude_spares (opts : UpdateOptions) {t : DateTime} (ht : T t)
    (backupDir : Option PathBuf) (newState : RelayState) :
    Always (Grounded opts.installPath T (NamesBackup opts.installPath))
      (Asks True online (SparesOrDrops opts.installPath now))
      (self.conclude opts t backupDir newState) fun _ => True := by
  have hreads : ∀ cmd, Reads opts.installPath cmd → SparesOrDrops opts.installPath now cmd :=
    fun _ h => .inl (spares_of_reads h)
  unfold conclude
  refine (always_of_reads hreads (always_healthCheck _).attempt).bind fun checked _ => ?_
  cases checked with
  | error e =>
    cases backupDir with
    | none => exact .fail
    | some dir =>
      exact ((always_rollback_spares dir).weaken (fun _ h => h) (Asks.mono fun _ => .inl)).bind
        fun _ _ => .fail
  | ok _ => exact (always_gcBackups_spares ht).bind fun _ _ => .ret trivial

/-- What an update goes on with behind its backup. -/
theorem always_behind_spares (opts : UpdateOptions) {t : DateTime} (ht : T t)
    (backupDir : Option PathBuf) (newState : RelayState) (newCompose : Str) :
    Always (Grounded opts.installPath T (NamesBackup opts.installPath))
      (Asks True True (SparesOrDrops opts.installPath now))
      (do
        self.install opts.installPath newState newCompose
        self.conclude opts t backupDir newState) fun _ => True := by
  refine Always.bind ((always_install_spares newState newCompose).weaken (fun _ h => h)
    (Asks.mono fun _ => .inl)) fun _ _ => ?_
  exact always_conclude_spares opts ht backupDir newState

/-- **An update in another second** leaves what is in a backup alone, unless it removes it. -/
theorem always_update_spares (opts : UpdateOptions)
    (hT : ∀ t, T t → t.timestamp ≠ now.timestamp) :
    Always (Grounded opts.installPath T (NamesBackup opts.installPath))
      (Asks True True (SparesOrDrops opts.installPath now)) (self.update opts) fun _ => True := by
  have hreads : ∀ cmd, Reads opts.installPath cmd → SparesOrDrops opts.installPath now cmd :=
    fun _ h => .inl (spares_of_reads h)
  unfold update
  by_cases hconfirmed : (!opts.assumeYes && !opts.isTty) = true
  · rw [if_pos hconfirmed]
    exact .fail
  rw [if_neg hconfirmed]
  refine (always_of_reads hreads always_checkUpdates).bind fun report _ => ?_
  by_cases havailable : (!report.anyUpdateAvailable) = true
  · rw [if_pos havailable]
    exact (always_of_reads hreads always_loadState).bind fun _ _ => .ret trivial
  rw [if_neg havailable]
  unfold applyUpdates
  refine Always.request (q := Request.now) trivial fun t ht => ?_
  have hbackup : ∀ cmd, Reads opts.installPath cmd ∨ Saves opts.installPath t cmd →
      SparesOrDrops opts.installPath now cmd :=
    fun cmd h => h.elim (hreads cmd) fun h => .inl (spares_of_saves (hT t ht) h)
  refine Always.bind ((always_backupUnlessSkipped opts t).weaken (fun _ h => h)
    (Asks.mono hbackup)) fun dir _ => ?_
  refine (always_of_reads hreads (always_prepare opts report t)).bind
    fun ⟨newState, newCompose⟩ _ => ?_
  exact always_behind_spares opts ht dir newState newCompose

/-! ### Operations one after another -/

/-- An operation on an install, with all that it has asked, whatever comes of it. -/
inductive Operated (H : Host) (relay : RelayLifecycle) (p : PathBuf) :
    H.World → List Event → H.World → Prop where
  | bootstrap {opts : BootstrapOptions} {w w' : H.World} {tr : List Event}
      {r : Except RustmoteError BootstrapReport} (hpath : opts.installPath = p)
      (hrun : H.env.Runs w (relay.bootstrap opts) tr r w') : Operated H relay p w tr w'
  | checkUpdates {w w' : H.World} {tr : List Event} {r : Except RustmoteError CheckUpdatesReport}
      (hrun : H.env.Runs w (relay.checkUpdates p) tr r w') : Operated H relay p w tr w'
  | update {opts : UpdateOptions} {w w' : H.World} {tr : List Event}
      {r : Except RustmoteError UpdateReport} (hpath : opts.installPath = p)
      (hrun : H.env.Runs w (relay.update opts) tr r w') : Operated H relay p w tr w'
  | status {w w' : H.World} {tr : List Event} {r : Except RustmoteError StatusReport}
      (hrun : H.env.Runs w (relay.status p) tr r w') : Operated H relay p w tr w'

/-- Operations one after another, and all that they have asked. What happens on the host in between
is not known, but that the directory `dir` is left as it is. -/
inductive Operations (H : Host) (relay : RelayLifecycle) (p dir : PathBuf) :
    H.World → List Event → H.World → Prop where
  | nil {w : H.World} : Operations H relay p dir w [] w
  | cons {w w₁ w₂ w₃ : H.World} {tr rest : List Event} (hop : Operated H relay p w tr w₁)
      (hbetween : SameNodes (fun q => ¬ Below (place dir) q) (H.tree w₁) (H.tree w₂))
      (hrest : Operations H relay p dir w₂ rest w₃) : Operations H relay p dir w (tr ++ rest) w₃

variable {H : Host} {w w' : H.World} {tr : List Event} {ts : List DateTime} {q : Path}

/-- The commands of a run. -/
def commands (tr : List Event) : List Str :=
  tr.filterMap fun
    | ⟨.exec cmd, _⟩ => some cmd
    | _ => none

theorem mem_commands {e : Event} (he : e ∈ tr) (hcmd : e.request = .exec cmd) :
    cmd ∈ commands tr := by
  obtain ⟨req, reply⟩ := e
  obtain rfl : req = .exec cmd := hcmd
  exact List.mem_filterMap.mpr ⟨_, he, rfl⟩

/-- Commands that leave a backup alone keep its places. -/
theorem node_of_spares (h : ∀ e ∈ tr, Asks True True (SparesOrDrops p now) e.request)
    (hkept : ∀ cmd ∈ commands tr, ¬ DropsBackup p now cmd) (hq : Within p now q) :
    (H.tree (H.env.final w tr)).node q = (H.tree w).node q := by
  have hasks : ∀ e ∈ tr, Asks True True (SparesBackup p now) e.request := by
    rintro ⟨req, reply⟩ he
    have hasked := h _ he
    cases req with
    | exec cmd => exact hasked.resolve_right (hkept cmd (mem_commands he rfl))
    | _ => trivial
  refine H.env.final_rel (P := Asks True True (SparesBackup p now))
    (R := fun w w' => (H.tree w').node q = (H.tree w).node q) (fun _ => rfl)
    (fun _ _ _ h₁ h₂ => h₂.trans h₁) (fun w req hreq => ?_) hasks w
  cases req with
  | exec cmd =>
    obtain ⟨as, has, hmakes⟩ := hreq
    refine (H.carried w cmd as has).sameNodes q ?_
    rintro ⟨a, ha, hmade⟩
    exact hmakes a ha q hmade hq
  | _ => rw [H.quiet w _ fun _ h => by cases h]

/-- A run whose clock and listing are sound. -/
theorem grounded_of_lists (htimes : ∀ t ∈ times tr, t ∈ ts)
    (hlists : ∀ e ∈ tr, ListsBackups p ts e) :
    ∀ e ∈ tr, Grounded p (· ∈ ts) (NamesBackup p) e := by
  intro e he
  refine grounded_of_listsBackups (hlists e he) fun t heq => htimes t (mem_times ?_)
  rwa [heq] at he

/-- **An operation** keeps what is in the backup of another second. -/
theorem Operated.node (h : Operated H self p w tr w') (htimes : ∀ t ∈ times tr, t ∈ ts)
    (hother : ∀ t ∈ ts, t.timestamp ≠ now.timestamp) (hlists : ∀ e ∈ tr, ListsBackups p ts e)
    (hkept : ∀ cmd ∈ commands tr, ¬ DropsBackup p now cmd) (hq : Within p now q) :
    (H.tree w').node q = (H.tree w).node q := by
  have hgrounded := grounded_of_lists htimes hlists
  cases h with
  | bootstrap hpath hrun =>
    subst hpath
    rw [← hrun.2.2]
    refine node_of_spares (fun e he => ?_) hkept hq
    exact Asks.mono (fun _ => .inl) _ (hrun.requests (always_bootstrap_spares _) e he)
  | checkUpdates hrun => rw [runs_tree hrun always_checkUpdates]
  | update hpath hrun =>
    subst hpath
    rw [← hrun.2.2]
    exact node_of_spares ((always_update_spares _ hother).run hrun.1 hgrounded).1 hkept hq
  | status hrun => rw [runs_tree hrun always_status]

theorem commands_append (t₁ t₂ : List Event) : commands (t₁ ++ t₂) = commands t₁ ++ commands t₂ :=
  List.filterMap_append

/-- **Operations one after another** keep what is in the backup of another second. -/
theorem Operations.node (h : Operations H self p (backupDirFor p now) w tr w')
    (htimes : ∀ t ∈ times tr, t ∈ ts) (hother : ∀ t ∈ ts, t.timestamp ≠ now.timestamp)
    (hlists : ∀ e ∈ tr, ListsBackups p ts e) (hkept : ∀ cmd ∈ commands tr, ¬ DropsBackup p now cmd)
    (hq : Within p now q) : (H.tree w').node q = (H.tree w).node q := by
  induction h with
  | nil => rfl
  | cons hop hbetween _ ih =>
    rw [times_append, List.forall_mem_append] at htimes
    rw [commands_append, List.forall_mem_append] at hkept
    rw [List.forall_mem_append] at hlists
    have hbelow : Below (place (backupDirFor p now)) q := by
      obtain ⟨y, rest, rfl⟩ := hq
      rw [place_backupDirFor]
      exact List.prefix_append _ _
    rw [ih htimes.2 hlists.2 hkept.2, hbetween q (not_not.mpr hbelow),
      hop.node htimes.1 hother hlists.1 hkept.1 hq]

end RelayLifecycle

end Rustmote
