import Rustmote.RelayLifecycle.Rollback

/-!
# Where the operations write

Every file and directory that `bootstrap` and `update` name to a command that changes something
lies below the install directory, whatever the host answers, but for those that old backups are
removed with: there the host's own listing says what is removed. The listing is asked for the
directories called `pre-update-…` in `backups`; that its lines name such directories is not looked
at (`removes_elsewhere`), so it has to be assumed of it (`writes_confined`).
-/

namespace Rustmote

open Interaction (Env)
open Interaction.Prog (Run Always run_bind_iff run_ask_iff run_ret_iff run_fail_iff run_ofExcept_iff)
open FileTree Host RelayLifecycle

/-- The operands that an action creates, overwrites, moves, removes, or changes the mode of. -/
def Action.operands : Action → List Path
  | .mkdir p => [p]
  | .copy _ dst => [dst]
  | .decode _ dst => [dst]
  | .move src dst => [src, dst]
  | .chmod p => [p]
  | .remove p => [p]
  | _ => []

/-- The place is directly in `backups`, under a name that starts as those of the backups do. -/
def IsBackup (p : PathBuf) (q : Path) : Prop :=
  q.dropLast = place (backupsPath p) ∧ backupStem <+: q.getLast?.getD []

instance (p : PathBuf) (q : Path) : Decidable (IsBackup p q) := inferInstanceAs (Decidable (_ ∧ _))

theorem IsBackup.below {p : PathBuf} {q : Path} (h : IsBackup p q) : Below (place p) q := by
  have hback : Below (place p) q.dropLast := by
    rw [h.1, place_backupsPath]
    exact List.prefix_append _ _
  exact hback.trans (List.dropLast_prefix q)

/-- What the command writes lies below the install directory, and what it removes is a backup. -/
def Confines (p : PathBuf) (cmd : Str) : Prop :=
  ∃ as, actions cmd = some as ∧ ∀ a ∈ as,
    (∀ q ∈ a.operands, Below (place p) q) ∧ ∀ q, a = .remove q → IsBackup p q

/-- All commands of the run do. -/
def Confined (p : PathBuf) (tr : List Event) : Prop :=
  ∀ e ∈ tr, ∀ cmd, e.request = .exec cmd → Confines p cmd

/-- If the event is the listing of the backups: what is too old in it, and may go into a command,
is a backup. -/
def ListsBackups (p : PathBuf) (ts : List DateTime) : Event → Prop
  | ⟨.exec cmd, .ok out⟩ =>
    RelayLifecycle.findBackups (backupsPath p) = .ok cmd → out.exitCode = 0 →
      ∀ now ∈ ts, ∀ path ∈ RelayLifecycle.staleBackups now out.stdoutString,
        (Commands.validateRemotePath path).isOk = true → IsBackup p (place path)
  | _ => True

instance (p : PathBuf) (ts : List DateTime) : DecidablePred (ListsBackups p ts) := fun
  | ⟨.exec _, .ok _⟩ => inferInstanceAs (Decidable (_ → _))
  | ⟨.exec _, .error _⟩ => isTrue trivial
  | ⟨.listTags _, _⟩ => isTrue trivial
  | ⟨.resolveDigest _ _, _⟩ => isTrue trivial
  | ⟨.now, _⟩ => isTrue trivial
  | ⟨.instant, _⟩ => isTrue trivial
  | ⟨.sleep _, _⟩ => isTrue trivial

/-! ### The commands -/

variable {p : PathBuf} {cmd : Str}

/-- A command whose actions name nothing that they write. -/
theorem confines_of_idle {as : List Action} (has : actions cmd = some as)
    (hidle : ∀ a ∈ as, a.operands = []) : Confines p cmd := by
  refine ⟨as, has, fun a ha => ?_⟩
  rw [hidle a ha]
  refine ⟨fun q hq => absurd hq List.not_mem_nil, ?_⟩
  rintro q rfl
  cases hidle _ ha

/-- A command of one action that removes nothing. -/
theorem confines_single {a : Action} (ha : actions cmd = some [a])
    (hbelow : ∀ q ∈ a.operands, Below (place p) q) (hremove : ∀ q, a ≠ .remove q) :
    Confines p cmd := by
  refine ⟨_, ha, fun b hb => ?_⟩
  rw [List.mem_singleton] at hb
  subst hb
  exact ⟨hbelow, fun q hq => absurd hq (hremove q)⟩

theorem confines_of_reads (h : Reads p cmd) : Confines p cmd := by
  obtain ⟨as, has, hall⟩ := looks_of_reads h
  refine confines_of_idle has fun a ha => ?_
  obtain ⟨hstill, hchmod⟩ := hall a ha
  cases a with
  | chmod q => exact absurd rfl (hchmod q)
  | mkdir q => cases hstill
  | copy src dst => cases hstill
  | decode bytes dst => cases hstill
  | move src dst => cases hstill
  | remove q => cases hstill
  | testDir q => rfl
  | testFile q => rfl
  | cat q => rfl
  | chdir q => rfl
  | external => rfl

theorem confines_mkdirP {path : PathBuf} (hpath : Below (place p) (place path))
    (h : Commands.mkdirP path = .ok cmd) : Confines p cmd := by
  refine confines_single (actions_mkdirP h) (fun q hq => ?_) (by simp)
  rw [Action.operands, List.mem_singleton] at hq
  subst hq
  exact hpath

theorem confines_copyFile {src dst : PathBuf} (hdst : Below (place p) (place dst))
    (h : Commands.copyFile src dst = .ok cmd) : Confines p cmd := by
  refine confines_single (actions_copyFile h) (fun q hq => ?_) (by simp)
  rw [Action.operands, List.mem_singleton] at hq
  subst hq
  exact hdst

/-- A write goes through a scratch file next to the file. -/
theorem confines_writeFile {path : PathBuf} {content : Bytes}
    (hpath : Below (place p) (place path)) (hscratch : Below (place p) (scratchPlace path))
    (h : Commands.writeFile path content = .ok cmd) : Confines p cmd := by
  refine ⟨_, actions_writeFile h, fun a ha => ?_⟩
  simp only [List.mem_cons, List.not_mem_nil, or_false] at ha
  rcases ha with rfl | rfl | rfl
  · simpa [Action.operands] using hscratch
  · simpa [Action.operands] using ⟨hscratch, hpath⟩
  · simpa [Action.operands] using hpath

theorem below_backupDirFor (p : PathBuf) (now : DateTime) :
    Below (place p) (place (backupDirFor p now)) := by
  rw [place_backupDirFor]
  exact List.prefix_append _ _

theorem confines_of_saves {now : DateTime} (h : Saves p now cmd) : Confines p cmd := by
  have hdir := below_backupDirFor p now
  cases h with
  | mkdir h => exact confines_mkdirP hdir h
  | copy hname h => exact confines_copyFile (below_posixJoin (isName_of_backedUp hname) hdir).1 h
  | snapshot h =>
    have hbelow := below_posixJoin (x := "compose-config.yml".toList) (by decide) hdir
    exact confines_writeFile hbelow.1 hbelow.2 h

theorem confines_removes {path : PathBuf} {s : Str} (hpath : IsBackup p (place path))
    (h : Commands.validateRemotePath path = .ok s) : Confines p ("rm -rf ".toList ++ s) := by
  refine ⟨_, actions_remove h, fun a ha => ?_⟩
  rw [List.mem_singleton] at ha
  subst ha
  refine ⟨fun q hq => ?_, fun q hq => ?_⟩
  · rw [Action.operands, List.mem_singleton] at hq
    subst hq
    exact hpath.below
  · cases hq
    exact hpath

/-- **What is issued is confined**, as long as backups are removed only. -/
theorem confines_of_issued {toml : Toml} {template : Str}
    (h : Issued p (Written toml p template)
      (fun path => (Commands.validateRemotePath path).isOk = true → IsBackup p (place path)) cmd) :
    Confines p cmd := by
  have hself : Below (place p) (place p) := List.prefix_refl _
  cases h with
  | reads h => exact confines_of_reads h
  | saves h => exact confines_of_saves h
  | restores hname h => exact confines_copyFile (below_posixJoin (isName_of_backedUp hname) hself).1 h
  | mkdir hpath h =>
    refine confines_mkdirP ?_ h
    rcases hpath with rfl | rfl | rfl
    · exact hself
    · exact (below_posixJoin (by decide) hself).1
    · exact (below_posixJoin (by decide) hself).1
  | writes hwrites h =>
    cases hwrites with
    | compose =>
      have hbelow := below_posixJoin isName_composeName hself
      exact confines_writeFile hbelow.1 hbelow.2 h
    | env =>
      have hbelow := below_posixJoin (x := ".env".toList) (by decide) hself
      exact confines_writeFile hbelow.1 hbelow.2 h
    | state =>
      have hbelow := below_posixJoin isName_stateName hself
      exact confines_writeFile hbelow.1 hbelow.2 h
  | removes hremoves h =>
    refine confines_removes (hremoves ?_) h
    rw [h]
    rfl

/-! ### Runs -/

variable {tr : List Event} {self : RelayLifecycle}

theorem confined_of_issued {toml : Toml} {template : Str}
    (h : ∀ e ∈ tr, Asks True True (Issued p (Written toml p template) fun path =>
      (Commands.validateRemotePath path).isOk = true → IsBackup p (place path)) e.request) :
    Confined p tr := by
  intro e he cmd heq
  have hissued := h e he
  rw [heq] at hissued
  exact confines_of_issued hissued

/-- A sound listing names backups only. -/
theorem grounded_of_listsBackups {ts : List DateTime} {e : Event} (h : ListsBackups p ts e) :
    (∀ t, e = ⟨.now, t⟩ → t ∈ ts) → Grounded p (· ∈ ts) (fun path =>
      (Commands.validateRemotePath path).isOk = true → IsBackup p (place path)) e := by
  intro htimes
  obtain ⟨q, reply⟩ := e
  cases q with
  | exec cmd =>
    rintro hcmd out rfl hcode t ht path hpath
    exact h hcmd hcode t ht path hpath
  | now => exact htimes reply rfl
  | _ => trivial

/-- A command that was answered. -/
theorem run_exec_ok {out : ExecOutput} (h : Run (exec cmd) tr (some (.ok out))) :
    tr = [⟨.exec cmd, .ok out⟩] := by
  rcases run_ask_iff.mp h with ⟨-, hr⟩ | ⟨reply, tr', rfl, hreply⟩
  · cases hr
  obtain ⟨rfl, hr | hr⟩ := run_ofExcept_iff.mp hreply
  · cases hr
  rw [eq_ok_of_mapError (Option.some.inj hr)]

/-- The commands that remove a path of the list. -/
def Removes (paths : List PathBuf) (cmd : Str) : Prop :=
  ∃ path ∈ paths, ∃ s, Commands.validateRemotePath path = .ok s ∧ cmd = "rm -rf ".toList ++ s

theorem always_removes {G : Event → Prop} (paths : List PathBuf) :
    Always G (Asks False False (Removes paths)) (removeBackups paths) fun _ => True := by
  induction paths with
  | nil => exact .ret trivial
  | cons path paths ih =>
    unfold removeBackups
    refine Always.lift fun s hs => ?_
    refine (always_execOk ⟨path, List.mem_cons_self, s, hs, rfl⟩).bind fun _ _ => ?_
    refine Always.bind (ih.weaken (fun _ h => h) (Asks.mono ?_)) fun _ _ => .ret trivial
    rintro cmd ⟨q, hq, t, ht, rfl⟩
    exact ⟨q, List.mem_cons_of_mem _ hq, t, ht, rfl⟩

/-- When the loop is through, each path has been removed. -/
theorem run_removeBackups_ok {paths deleted : List PathBuf}
    (h : Run (removeBackups paths) tr (some (.ok deleted))) :
    ∀ path ∈ paths, ∃ s, Commands.validateRemotePath path = .ok s ∧
      ∃ e ∈ tr, e.request = .exec ("rm -rf ".toList ++ s) := by
  induction paths generalizing tr deleted with
  | nil => exact fun _ h => absurd h List.not_mem_nil
  | cons path paths ih =>
    unfold removeBackups at h
    rcases run_bind_iff.mp h with ⟨hr, -⟩ | ⟨e, hr, -⟩ | ⟨s, t₁, t₂, rfl, hs, h₁⟩
    · cases hr
    · cases hr
    obtain ⟨rfl, hs | hs⟩ := run_ofExcept_iff.mp hs
    · cases hs
    rcases run_bind_iff.mp h₁ with ⟨hr, -⟩ | ⟨e, hr, -⟩ | ⟨out, t₃, t₄, rfl, hremove, h₂⟩
    · cases hr
    · cases hr
    rcases run_bind_iff.mp h₂ with ⟨hr, -⟩ | ⟨e, hr, -⟩ | ⟨rest, t₅, t₆, rfl, hrest, -⟩
    · cases hr
    · cases hr
    intro q hq
    rcases List.mem_cons.mp hq with rfl | hq
    · rcases run_bind_iff.mp hremove with ⟨hr, -⟩ | ⟨e, hr, -⟩ | ⟨reply, t₇, t₈, rfl, hexec, -⟩
      · cases hr
      · cases hr
      rw [run_exec_ok hexec]
      exact ⟨s, (Option.some.inj hs).symm, ⟨.exec ("rm -rf ".toList ++ s), .ok reply⟩, by simp, rfl⟩
    · obtain ⟨t, ht, e, he, heq⟩ := ih hrest q hq
      exact ⟨t, ht, e, by simp [he], heq⟩

/-- **The removal of old backups, when it is through**: the listing comes first, and everything
that is too old in it has been removed. -/
theorem run_gcBackups_ok {now : DateTime} {deleted : List PathBuf}
    (h : Run (gcBackups p now) tr (some (.ok deleted))) :
    ∃ find out rest, findBackups (backupsPath p) = .ok find ∧ tr = ⟨.exec find, .ok out⟩ :: rest ∧
      (∀ e ∈ rest, out.exitCode = 0 ∧
        Asks False False (Removes (staleBackups now out.stdoutString)) e.request) ∧
      (out.exitCode = 0 → ∀ path ∈ staleBackups now out.stdoutString, ∃ s,
        Commands.validateRemotePath path = .ok s ∧
          ∃ e ∈ rest, e.request = .exec ("rm -rf ".toList ++ s)) := by
  unfold gcBackups at h
  rcases run_bind_iff.mp h with ⟨hr, -⟩ | ⟨e, hr, -⟩ | ⟨find, t₁, t₂, rfl, hfind, h₁⟩
  · cases hr
  · cases hr
  obtain ⟨rfl, hfind | hfind⟩ := run_ofExcept_iff.mp hfind
  · cases hfind
  rcases run_bind_iff.mp h₁ with ⟨hr, -⟩ | ⟨e, hr, -⟩ | ⟨out, t₃, t₄, rfl, hexec, h₂⟩
  · cases hr
  · cases hr
  rw [run_exec_ok hexec]
  refine ⟨find, out, t₄, (Option.some.inj hfind).symm, rfl, ?_⟩
  by_cases hcode : out.exitCode = 0
  · rw [if_neg (not_not.mpr hcode)] at h₂
    refine ⟨fun e he => ⟨hcode, ?_⟩, fun _ => run_removeBackups_ok h₂⟩
    exact ((always_removes (G := fun _ => True) _).run h₂ fun _ _ => trivial).1 e he
  · rw [if_pos hcode] at h₂
    obtain ⟨rfl, -⟩ := run_ret_iff.mp h₂
    exact ⟨fun e he => absurd he List.not_mem_nil, fun hzero => absurd hzero hcode⟩

/-- **What is removed are backups exactly when the listing names backups.** -/
theorem gc_confined_iff {now : DateTime} {deleted : List PathBuf}
    (h : Run (gcBackups p now) tr (some (.ok deleted))) :
    Confined p tr ↔ ∀ e ∈ tr, ListsBackups p [now] e := by
  obtain ⟨find, out, rest, hfind, rfl, hrest, hremoved⟩ := run_gcBackups_ok h
  constructor
  · intro hconfined
    rintro ⟨q, reply⟩ he
    cases q with
    | exec cmd =>
      cases reply with
      | error e => trivial
      | ok out' =>
        rintro hcmd hcode t ht path hpath -
        obtain rfl := List.mem_singleton.mp ht
        rcases List.mem_cons.mp he with heq | he
        · cases heq
          obtain ⟨s, hs, e, he, hrequest⟩ := hremoved hcode path hpath
          obtain ⟨as, has, hall⟩ := hconfined e (List.mem_cons_of_mem _ he) _ hrequest
          rw [actions_remove hs] at has
          cases has
          exact (hall _ (List.mem_singleton_self _)).2 _ rfl
        · -- what removes a path is no listing
          obtain ⟨q, -, s, hs, rfl⟩ := (hrest _ he).2
          have hactions := (actions_remove hs).symm.trans (actions_findBackups hcmd)
          cases hactions
    | _ => trivial
  · intro hlists e he cmd heq
    rcases List.mem_cons.mp he with rfl | he
    · cases heq
      exact confines_of_reads (.find hfind)
    · obtain ⟨hcode, hremoves⟩ := hrest e he
      rw [heq] at hremoves
      obtain ⟨path, hpath, s, hs, rfl⟩ := hremoves
      have hbackup := hlists _ List.mem_cons_self hfind hcode now (List.mem_singleton_self now) path
        hpath
      refine confines_removes (hbackup ?_) hs
      rw [hs]
      rfl

namespace RelayLifecycle

/-- **Writes are confined**: a bootstrap writes below the install directory, and so does an update
to which every listing of the backups names backups; and the removal of old backups, when it is
through, has removed backups exactly when the listing names backups. -/
theorem writes_confined (self : RelayLifecycle) :
    (∀ (opts : BootstrapOptions) tr r, Run (self.bootstrap opts) tr r →
      Confined opts.installPath tr) ∧
    (∀ (opts : UpdateOptions) tr r, Run (self.update opts) tr r →
      (∀ e ∈ tr, ListsBackups opts.installPath (times tr) e) → Confined opts.installPath tr) ∧
    ∀ p now tr deleted, Run (gcBackups p now) tr (some (.ok deleted)) →
      (Confined p tr ↔ ∀ e ∈ tr, ListsBackups p [now] e) := by
  refine ⟨fun opts tr r h => ?_, fun opts tr r h hlists => ?_, fun p now tr deleted =>
    gc_confined_iff⟩
  · have hissued : Always (fun _ => True) (Asks True True (Issued opts.installPath
        (Written self.toml opts.installPath opts.composeTemplate) fun path =>
          (Commands.validateRemotePath path).isOk = true → IsBackup opts.installPath (place path)))
        (self.bootstrap opts) fun _ => True := always_bootstrap opts
    exact confined_of_issued (hissued.run h fun _ _ => trivial).1
  · have hissued : Always (Grounded opts.installPath (· ∈ times tr) fun path =>
        (Commands.validateRemotePath path).isOk = true → IsBackup opts.installPath (place path))
        (Asks True True (Issued opts.installPath
          (Written self.toml opts.installPath opts.composeTemplate) fun path =>
            (Commands.validateRemotePath path).isOk = true →
              IsBackup opts.installPath (place path)))
        (self.update opts) fun _ => True := always_update opts
    refine confined_of_issued (hissued.run h fun e he => ?_).1
    refine grounded_of_listsBackups (hlists e he) fun t ht => ?_
    subst ht
    exact mem_times he

/-- A listing of four backups of which the last names a path. -/
def listing (last : String) : Str :=
  ("1776602000.0\t/srv/relay/backups/pre-update-d\n1776601000.0\t/srv/relay/backups/pre-update-c\n" ++
    "1776600000.0\t/srv/relay/backups/pre-update-b\n0.0\t" ++ last ++ "\n").toList

/-- The sample host, with that listing. -/
def listingHost (last : String) : Host :=
  Script.host { Sample.script (fun _ _ => none) with
    prints := fun cmd => if "find".toList <+: cmd then listing last else [] }

/-- The update of the sample host with that listing. -/
def listingTrace (last : String) : List Event :=
  (listingHost last).env.trace Sample.start (Sample.relay.update (Sample.updateOptions true))

theorem run_listing {last : String} {report : UpdateReport}
    (h : (listingHost last).env.value Sample.start
      (Sample.relay.update (Sample.updateOptions true)) = some report) :
    Run (Sample.relay.update (Sample.updateOptions true)) (listingTrace last)
      (some (.ok report)) := (Env.runs_value h).1

/-- With a listing of backups the sample update is confined, and an old backup is removed. -/
theorem writes_confined_sample :
    Confined Sample.path (listingTrace "/srv/relay/backups/pre-update-a") ∧
      ∃ e ∈ listingTrace "/srv/relay/backups/pre-update-a",
        e.request = .exec "rm -rf /srv/relay/backups/pre-update-a".toList := by
  have hrun : ((listingHost "/srv/relay/backups/pre-update-a").env.value Sample.start
        (Sample.relay.update (Sample.updateOptions true))).isSome = true ∧
      (∀ e ∈ listingTrace "/srv/relay/backups/pre-update-a",
        ListsBackups Sample.path (times (listingTrace "/srv/relay/backups/pre-update-a")) e) ∧
      ∃ e ∈ listingTrace "/srv/relay/backups/pre-update-a",
        e.request = .exec "rm -rf /srv/relay/backups/pre-update-a".toList := by
    decide +kernel
  obtain ⟨report, hreport⟩ := Option.isSome_iff_exists.mp hrun.1
  exact ⟨(writes_confined Sample.relay).2.1 _ _ _ (run_listing hreport) hrun.2.1, hrun.2.2⟩

/-- **A listing can name anything**: a host whose listing ends with a line for another directory
gets that directory removed. -/
theorem removes_elsewhere :
    ¬ ∀ (self : RelayLifecycle) (opts : UpdateOptions) tr r,
      (Commands.validateRemotePath opts.installPath).isOk = true →
        Run (self.update opts) tr r → Confined opts.installPath tr := by
  intro hclaim
  have hrun : ((listingHost "/etc").env.value Sample.start
        (Sample.relay.update (Sample.updateOptions true))).isSome = true ∧
      ∃ e ∈ listingTrace "/etc", e.request = .exec "rm -rf /etc".toList := by
    decide +kernel
  obtain ⟨report, hreport⟩ := Option.isSome_iff_exists.mp hrun.1
  obtain ⟨e, he, hrequest⟩ := hrun.2
  obtain ⟨as, has, hall⟩ := hclaim Sample.relay (Sample.updateOptions true) _ _ (by decide)
    (run_listing hreport) e he _ hrequest
  have hactions : actions "rm -rf /etc".toList = some [.remove ["etc".toList]] := by decide
  rw [hactions] at has
  cases has
  exact absurd ((hall _ (List.mem_singleton_self _)).2 _ rfl) (by decide)

end RelayLifecycle

end Rustmote
