import Mathlib.Data.List.Forall2
import Rustmote.Foundations.Ranking
import Rustmote.RelayLifecycle.Internals

/-!
# Old backups

`gc_backups` lists the backups, sorts them by the seconds of their times, newest first, passes
over three, and removes of the others those of more than seven days ago. The sort is stable, so
what it passes over are the places of the listing that fewer than three go before (`rankIn`).

* `Listing` — the entries that the lines of a listing say, in their order.
* `expired`, `retained` — the entries that are to go, and the others.
* `gcBackups_exact` — a run removes what is to go, and another one on what is left removes
  nothing.
-/

namespace Rustmote

open Interaction.Prog (Run)
open Interaction.Prog

namespace RelayLifecycle

/-! ### What a listing says -/

/-- A line of the listing: seconds, maybe with a fraction, a tab, and a path. -/
def EntryLine (line : Str) (time : Int) (path : Str) : Prop :=
  ∃ secs fraction, line = secs ++ fraction ++ '\t' :: path ∧ '\t' ∉ secs ++ fraction ∧
    '.' ∉ secs ∧ (fraction = [] ∨ ∃ digits, fraction = '.' :: digits) ∧
    Text.parseI64 secs = some time

/-- The entries that lines say: any other line is ignored. -/
inductive Listing : List Str → List (Int × PathBuf) → Prop where
  /-- There is no line. -/
  | nil : Listing [] []
  /-- An entry. -/
  | entry {line path : Str} {time : Int} {lines : List Str} {entries : List (Int × PathBuf)} :
      EntryLine line time path → Listing lines entries →
      Listing (line :: lines) ((time, .fromStr path) :: entries)
  /-- Something else. -/
  | ignored {line : Str} {lines : List Str} {entries : List (Int × PathBuf)} :
      (∀ time path, ¬ EntryLine line time path) → Listing lines entries →
      Listing (line :: lines) entries

theorem splitOnce_eq_some_iff {c : Char} {s a b : Str} :
    Text.splitOnce c s = some (a, b) ↔ s = a ++ c :: b ∧ c ∉ a := by
  constructor
  · intro h
    induction s generalizing a with
    | nil => cases h
    | cons d s ih =>
      rw [Text.splitOnce] at h
      split_ifs at h with hd
      · obtain ⟨rfl, rfl⟩ := Prod.mk.inj (Option.some.inj h)
        exact ⟨by rw [hd]; rfl, List.not_mem_nil⟩
      · obtain ⟨⟨a', b'⟩, hsplit, heq⟩ := Option.map_eq_some_iff.mp h
        obtain ⟨rfl, rfl⟩ := Prod.mk.inj heq
        obtain ⟨rfl, hmem⟩ := ih hsplit
        refine ⟨rfl, fun hc => ?_⟩
        rcases List.mem_cons.mp hc with rfl | hc
        · exact hd rfl
        · exact hmem hc
  · rintro ⟨rfl, ha⟩
    exact Text.splitOnce_append_cons ha

/-- What comes before the first separator. -/
theorem head?_splitOn_eq_some_iff {c : Char} {s a : Str} :
    (s.splitOn c).head? = some a ↔
      c ∉ a ∧ ∃ rest, s = a ++ rest ∧ (rest = [] ∨ ∃ b, rest = c :: b) := by
  by_cases hc : c ∈ s
  · obtain ⟨x, y, rfl, hx⟩ := List.eq_append_cons_of_mem hc
    rw [List.splitOn_append_cons_self_of_not_mem hx, List.head?_cons, Option.some.injEq]
    constructor
    · rintro rfl
      exact ⟨hx, c :: y, rfl, .inr ⟨y, rfl⟩⟩
    · rintro ⟨ha, rest, heq, rfl | ⟨b, rfl⟩⟩
      · rw [List.append_nil] at heq
        exact absurd hc (by rwa [heq])
      · exact (Text.append_cons_inj_of_not_mem_left hx ha heq).1
  · rw [List.splitOn_eq_singleton hc, List.head?_cons, Option.some.injEq]
    constructor
    · rintro rfl
      exact ⟨hc, [], (List.append_nil s).symm, .inl rfl⟩
    · rintro ⟨-, rest, rfl, rfl | ⟨b, rfl⟩⟩
      · exact List.append_nil a
      · exact absurd (by simp) hc

/-- **What a line is read as.** -/
theorem backupEntry_eq_some_iff {line : Str} {time : Int} {p : PathBuf} :
    backupEntry line = some (time, p) ↔ ∃ path, EntryLine line time path ∧ p = .fromStr path := by
  unfold backupEntry
  simp only [Option.bind_eq_bind, Option.bind_eq_some_iff, Option.some.injEq, Prod.mk.injEq]
  constructor
  · rintro ⟨⟨ts, path⟩, hsplit, secs, hsecs, epoch, hparse, rfl, rfl⟩
    obtain ⟨rfl, htab⟩ := splitOnce_eq_some_iff.mp hsplit
    obtain ⟨hdot, fraction, rfl, hfraction⟩ := head?_splitOn_eq_some_iff.mp hsecs
    exact ⟨path, ⟨secs, fraction, rfl, htab, hdot, hfraction, hparse⟩, rfl⟩
  · rintro ⟨path, ⟨secs, fraction, rfl, htab, hdot, hfraction, hparse⟩, rfl⟩
    exact ⟨(secs ++ fraction, path), splitOnce_eq_some_iff.mpr ⟨rfl, htab⟩, secs,
      head?_splitOn_eq_some_iff.mpr ⟨hdot, fraction, rfl, hfraction⟩, time, hparse, rfl, rfl⟩

/-- **The entries that are read** are those that the lines say. -/
theorem listing_iff {lines : List Str} {entries : List (Int × PathBuf)} :
    Listing lines entries ↔ lines.filterMap backupEntry = entries := by
  constructor
  · intro h
    induction h with
    | nil => rfl
    | entry hline _ ih =>
      rw [List.filterMap_cons_some (backupEntry_eq_some_iff.mpr ⟨_, hline, rfl⟩), ih]
    | @ignored line _ _ hline _ ih =>
      have hnone : backupEntry line = none := by
        rw [Option.eq_none_iff_forall_ne_some]
        rintro ⟨time, p⟩ hsome
        obtain ⟨path, hentry, -⟩ := backupEntry_eq_some_iff.mp hsome
        exact hline time path hentry
      rw [List.filterMap_cons_none hnone, ih]
  · rintro rfl
    induction lines with
    | nil => exact .nil
    | cons line lines ih =>
      cases hentry : backupEntry line with
      | some e =>
        obtain ⟨time, p⟩ := e
        obtain ⟨path, hline, rfl⟩ := backupEntry_eq_some_iff.mp hentry
        rw [List.filterMap_cons_some hentry]
        exact .entry hline ih
      | none =>
        rw [List.filterMap_cons_none hentry]
        refine .ignored (fun time path hline => ?_) ih
        rw [backupEntry_eq_some_iff.mpr ⟨path, hline, rfl⟩] at hentry
        cases hentry

/-! ### What is to go -/

/-- The place is not among the three newest, and its entry is of more than seven days ago. -/
def Expired (now : DateTime) (entries : List (Int × PathBuf)) (e : (Int × PathBuf) × Nat) : Prop :=
  3 ≤ rankIn Prod.fst entries e ∧ e.1.1 < now.timestamp - 7 * 24 * 3600

instance decidableExpired (now : DateTime) (entries : List (Int × PathBuf)) :
    DecidablePred (Expired now entries) := fun e =>
  inferInstanceAs (Decidable (3 ≤ rankIn Prod.fst entries e ∧
    e.1.1 < now.timestamp - 7 * 24 * 3600))

/-- The entries that are to go. -/
def expired (now : DateTime) (entries : List (Int × PathBuf)) : List (Int × PathBuf) :=
  (entries.zipIdx.filter fun e => Expired now entries e).map Prod.fst

/-- The entries that stay. -/
def retained (now : DateTime) (entries : List (Int × PathBuf)) : List (Int × PathBuf) :=
  (entries.zipIdx.filter fun e => ¬ Expired now entries e).map Prod.fst

/-- What `gc_backups` goes through. -/
def outdated (now : DateTime) (entries : List (Int × PathBuf)) : List (Int × PathBuf) :=
  ((entries.insertionSort fun a b => b.1 ≤ a.1).drop 3).filter fun e =>
    e.1 < now.timestamp - 7 * 24 * 3600

theorem staleBackups_eq (now : DateTime) (listing : Str) :
    staleBackups now listing =
      (outdated now ((Text.lines listing).filterMap backupEntry)).map Prod.snd := rfl

/-- **What is gone through is what is to go.** -/
theorem outdated_perm (now : DateTime) (entries : List (Int × PathBuf)) :
    (outdated now entries).Perm (expired now entries) := by
  have hdrop := (drop_insertionSort_perm Prod.fst entries 3).filter fun e =>
    decide (e.1 < now.timestamp - 7 * 24 * 3600)
  refine hdrop.trans (List.Perm.of_eq ?_)
  rw [List.filter_map, List.filter_filter, expired]
  congr 1
  refine List.filter_congr fun e _ => ?_
  simp [Expired, and_comm]

/-- The entries are those that go and those that stay. -/
theorem expired_append_retained_perm (now : DateTime) (entries : List (Int × PathBuf)) :
    (expired now entries ++ retained now entries).Perm entries := by
  rw [expired, retained, ← List.map_append]
  have hperm := List.filter_append_perm (fun e => decide (Expired now entries e)) entries.zipIdx
  simpa using hperm.map Prod.fst

theorem length_outdated_le (now : DateTime) (entries : List (Int × PathBuf)) :
    (outdated now entries).length ≤ entries.length - 3 := by
  refine (List.length_filter_le _ _).trans ?_
  rw [List.length_drop, List.length_insertionSort]

/-- **At least three stay**, or all of fewer. -/
theorem min_le_length_retained (now : DateTime) (entries : List (Int × PathBuf)) :
    min 3 entries.length ≤ (retained now entries).length := by
  have hlen := (expired_append_retained_perm now entries).length_eq
  have hexpired := (outdated_perm now entries).length_eq
  have hle := length_outdated_le now entries
  rw [List.length_append] at hlen
  omega

/-- What stays: the three newest, and of the others those that are not old. -/
theorem retained_perm (now : DateTime) (entries : List (Int × PathBuf)) :
    (retained now entries).Perm
      ((entries.insertionSort fun a b => b.1 ≤ a.1).take 3 ++
        ((entries.insertionSort fun a b => b.1 ≤ a.1).drop 3).filter fun e =>
          ¬ e.1 < now.timestamp - 7 * 24 * 3600) := by
  have hsplit := (expired_append_retained_perm now entries).trans
    (List.perm_insertionSort (fun a b : Int × PathBuf => b.1 ≤ a.1) entries).symm
  rw [← List.take_append_drop 3 (entries.insertionSort fun a b => b.1 ≤ a.1)] at hsplit
  have hdrop := List.filter_append_perm (fun e : Int × PathBuf =>
    decide (e.1 < now.timestamp - 7 * 24 * 3600))
    ((entries.insertionSort fun a b => b.1 ≤ a.1).drop 3)
  have hboth : (outdated now entries ++ retained now entries).Perm
      (outdated now entries ++ ((entries.insertionSort fun a b => b.1 ≤ a.1).take 3 ++
        ((entries.insertionSort fun a b => b.1 ≤ a.1).drop 3).filter fun e =>
          ¬ e.1 < now.timestamp - 7 * 24 * 3600)) := by
    refine ((outdated_perm now entries).append_right _).trans (hsplit.trans ?_)
    refine (hdrop.symm.append_left _).trans ?_
    rw [← List.append_assoc, ← List.append_assoc]
    refine (List.perm_append_comm.append_right _).trans (List.Perm.of_eq ?_)
    simp only [outdated, decide_not, List.append_assoc]
  exact (List.perm_append_left_iff _).mp hboth

/-- **Nothing more is to go of what stays**, in whatever order it is listed. -/
theorem outdated_retained (now : DateTime) {entries left : List (Int × PathBuf)}
    (hleft : left.Perm (retained now entries)) : outdated now left = [] := by
  have hsorted : (entries.insertionSort fun a b => b.1 ≤ a.1).Pairwise fun a b => b.1 ≤ a.1 := by
    have : Std.Total fun a b : Int × PathBuf => b.1 ≤ a.1 := ⟨fun a b => le_total b.1 a.1⟩
    have : IsTrans (Int × PathBuf) fun a b => b.1 ≤ a.1 := ⟨fun a b c hab hbc => hbc.trans hab⟩
    exact List.pairwise_insertionSort _ _
  rw [← List.take_append_drop 3 (entries.insertionSort fun a b => b.1 ≤ a.1)] at hsorted
  have hnewest := (List.pairwise_append.mp hsorted).2.2
  have hstay := hleft.trans (retained_perm now entries)
  refine List.eq_nil_iff_forall_not_mem.mpr fun e he => ?_
  obtain ⟨hdrop, hold⟩ := List.mem_filter.mp he
  have hold : e.1 < now.timestamp - 7 * 24 * 3600 := of_decide_eq_true hold
  have hmem : e ∈ left := (List.mem_insertionSort _).mp (List.mem_of_mem_drop hdrop)
  -- there are more than three, so one behind the newest three stayed
  have hmore : 3 < left.length := by
    have hpos := List.length_pos_of_mem hdrop
    rw [List.length_drop, List.length_insertionSort] at hpos
    omega
  have hlen := hstay.length_eq
  rw [List.length_append, List.length_take] at hlen
  obtain ⟨x, hx⟩ := List.exists_mem_of_length_pos (l :=
    ((entries.insertionSort fun a b => b.1 ≤ a.1).drop 3).filter fun e =>
      ¬ e.1 < now.timestamp - 7 * 24 * 3600) (by omega)
  obtain ⟨hxdrop, hxyoung⟩ := List.mem_filter.mp hx
  have hxyoung : ¬ x.1 < now.timestamp - 7 * 24 * 3600 := of_decide_eq_true hxyoung
  rcases List.mem_append.mp (hstay.mem_iff.mp hmem) with hnew | hyoung
  · exact hxyoung ((hnewest e hnew x hxdrop).trans_lt hold)
  · exact absurd hold (of_decide_eq_true (List.mem_filter.mp hyoung).2)

/-! ### A run -/

/-- A command that was answered with exit status zero. -/
def ExitsZero (e : Event) : Prop := ∃ cmd out, e = ⟨.exec cmd, .ok out⟩ ∧ out.exitCode = 0

/-- The event that removes a path. -/
def RemovesPath (path : PathBuf) (e : Event) : Prop :=
  ∃ s, Commands.validateRemotePath path = .ok s ∧ e.request = .exec ("rm -rf ".toList ++ s)

/-- A removal that succeeds. -/
theorem run_removeOne {path : PathBuf} {s : Str} {rest : Relay (List PathBuf)} {tr : List Event}
    {r : Except RustmoteError (List PathBuf)} (hs : Commands.validateRemotePath path = .ok s)
    (hrun : Run ((liftM (Commands.validateRemotePath path) : Relay Str) >>= fun p =>
      execOk ("rm -rf ".toList ++ p) >>= fun _ => rest) tr (some r))
    (htr : ∀ e ∈ tr, ExitsZero e) :
    ∃ e tr', tr = e :: tr' ∧ RemovesPath path e ∧ Run rest tr' (some r) := by
  rw [hs] at hrun
  have hask : Run (.ask (.exec ("rm -rf ".toList ++ s)) fun reply =>
      ((liftM (Except.mapError TransportError.toError reply) : Relay ExecOutput) >>= fun out =>
        liftM (out.okFor ("rm -rf ".toList ++ s))) >>= fun _ => rest) tr (some r) := hrun
  rcases run_ask_iff.mp hask with ⟨-, hr⟩ | ⟨reply, tr', rfl, hrest⟩
  · cases hr
  obtain ⟨cmd, out, heq, hcode⟩ := htr _ List.mem_cons_self
  cases heq
  refine ⟨_, tr', rfl, ⟨s, hs, rfl⟩, ?_⟩
  have hok : out.okFor ("rm -rf ".toList ++ s) = .ok out := ExecOutput.okFor_eq_ok_iff.mpr ⟨hcode, rfl⟩
  have hgo : Run (((liftM (out.okFor ("rm -rf ".toList ++ s)) : Relay ExecOutput)) >>= fun _ => rest)
      tr' (some r) := hrest
  rw [hok] at hgo
  exact hgo

/-- **The loop**, where all paths are accepted and all removals succeed. -/
theorem run_removeBackups {paths : List PathBuf} {tr : List Event}
    {r : Except RustmoteError (List PathBuf)}
    (hpaths : ∀ path ∈ paths, ∃ s, Commands.validateRemotePath path = .ok s)
    (hrun : Run (removeBackups paths) tr (some r)) (htr : ∀ e ∈ tr, ExitsZero e) :
    r = .ok paths ∧ List.Forall₂ RemovesPath paths tr := by
  induction paths generalizing tr r with
  | nil =>
    obtain ⟨rfl, hr | hr⟩ := run_ret_iff.mp hrun
    · cases hr
    · exact ⟨Option.some.inj hr, .nil⟩
  | cons path paths ih =>
    obtain ⟨hpath, hpaths⟩ := List.forall_mem_cons.mp hpaths
    obtain ⟨s, hs⟩ := hpath
    obtain ⟨e, tr', rfl, he, hrest⟩ := run_removeOne hs hrun htr
    have htr' := (List.forall_mem_cons.mp htr).2
    rcases run_bind_iff.mp hrest with ⟨hr, -⟩ | ⟨error, -, hfailed⟩ | ⟨deleted, t₁, t₂, rfl, hgone, hret⟩
    · cases hr
    · obtain ⟨hok, -⟩ := ih hpaths hfailed htr'
      cases hok
    · have ht₁ : ∀ e ∈ t₁, ExitsZero e := fun e he => htr' e (List.mem_append_left _ he)
      obtain ⟨hdeleted, hforall⟩ := ih hpaths hgone ht₁
      obtain rfl := Except.ok.inj hdeleted
      obtain ⟨rfl, hr | hr⟩ := run_ret_iff.mp hret
      · cases hr
      · rw [List.append_nil]
        exact ⟨Option.some.inj hr, .cons he hforall⟩

/-- There is such a run. -/
theorem exists_run_removeBackups {paths : List PathBuf}
    (hpaths : ∀ path ∈ paths, ∃ s, Commands.validateRemotePath path = .ok s) :
    ∃ tr, Run (removeBackups paths) tr (some (.ok paths)) ∧ ∀ e ∈ tr, ExitsZero e := by
  induction paths with
  | nil => exact ⟨[], .ret, by simp⟩
  | cons path paths ih =>
    obtain ⟨hpath, hpaths⟩ := List.forall_mem_cons.mp hpaths
    obtain ⟨s, hs⟩ := hpath
    obtain ⟨tr, hrun, htr⟩ := ih hpaths
    refine ⟨⟨.exec ("rm -rf ".toList ++ s), .ok ⟨[], [], 0⟩⟩ :: tr, ?_,
      List.forall_mem_cons.mpr ⟨⟨_, _, rfl, rfl⟩, htr⟩⟩
    rw [removeBackups, hs]
    have hrest : Run (removeBackups paths >>= fun deleted => return path :: deleted) tr
        (some (.ok (path :: paths))) :=
      run_bind_iff.mpr (.inr (.inr ⟨paths, tr, [], (List.append_nil tr).symm, hrun, .ret⟩))
    exact .ask hrest

/-- Behind the listing comes the loop. -/
theorem run_gcBackups_cons {p : PathBuf} {now : DateTime} {find : Str} {out : ExecOutput}
    {tr : List Event} {r : Except RustmoteError (List PathBuf)} (hcode : out.exitCode = 0)
    (hrun : Run (gcBackups p now) (⟨.exec find, .ok out⟩ :: tr) (some r)) :
    Run (removeBackups (staleBackups now out.stdoutString)) tr (some r) := by
  unfold gcBackups at hrun
  cases hfind : findBackups (backupsPath p) with
  | error e =>
    rw [hfind] at hrun
    obtain ⟨hnil, -⟩ := run_fail_iff.mp hrun
    cases hnil
  | ok cmd =>
    rw [hfind] at hrun
    have hask : Run (.ask (.exec cmd) fun reply =>
        (liftM (Except.mapError TransportError.toError reply) : Relay ExecOutput) >>= fun out =>
          if out.exitCode ≠ 0 then return []
          else removeBackups (staleBackups now out.stdoutString))
        (⟨.exec find, .ok out⟩ :: tr) (some r) := hrun
    rcases run_ask_iff.mp hask with ⟨hnil, -⟩ | ⟨reply, tr', heq, hrest⟩
    · cases hnil
    cases heq
    have hgo : Run (if out.exitCode ≠ 0 then return []
        else removeBackups (staleBackups now out.stdoutString)) tr (some r) := hrest
    rwa [if_neg (not_not.mpr hcode)] at hgo

theorem run_gcBackups_of {p : PathBuf} {now : DateTime} {find : Str} {out : ExecOutput}
    {tr : List Event} {r : Option (Except RustmoteError (List PathBuf))}
    (hfind : findBackups (backupsPath p) = .ok find) (hcode : out.exitCode = 0)
    (hloop : Run (removeBackups (staleBackups now out.stdoutString)) tr r) :
    Run (gcBackups p now) (⟨.exec find, .ok out⟩ :: tr) r := by
  have hgo : Run (if out.exitCode ≠ 0 then return []
      else removeBackups (staleBackups now out.stdoutString)) tr r := by
    rwa [if_neg (not_not.mpr hcode)]
  unfold gcBackups
  rw [hfind]
  exact .ask hgo

/-- **Retention is exact.** Where the listed paths are accepted and the removals succeed, a run
removes the entries that are not among the three newest and are of more than seven days ago, and
nothing else. So at least three entries stay, or all of fewer, and what is left is left by another
run at that time, in whatever order it is listed then. -/
theorem gcBackups_exact {p : PathBuf} {now : DateTime} {find : Str} {out : ExecOutput}
    {tr : List Event} {r : Except RustmoteError (List PathBuf)} {entries : List (Int × PathBuf)}
    (hrun : Run (gcBackups p now) (⟨.exec find, .ok out⟩ :: tr) (some r))
    (hcode : out.exitCode = 0) (hentries : Listing (Text.lines out.stdoutString) entries)
    (hpaths : ∀ e ∈ entries, ∃ s, Commands.validateRemotePath e.2 = .ok s)
    (htr : ∀ e ∈ tr, ExitsZero e) :
    (∃ deleted, r = .ok deleted ∧ deleted.Perm ((expired now entries).map Prod.snd) ∧
      List.Forall₂ RemovesPath deleted tr) ∧
    (expired now entries ++ retained now entries).Perm entries ∧
    min 3 entries.length ≤ (retained now entries).length ∧
    (∀ e ∈ expired now entries, e.1 < now.timestamp - 7 * 24 * 3600) ∧
    ∀ out' left tr' r', Run (gcBackups p now) (⟨.exec find, .ok out'⟩ :: tr') (some r') →
      out'.exitCode = 0 → Listing (Text.lines out'.stdoutString) left →
      left.Perm (retained now entries) → r' = .ok [] ∧ tr' = [] := by
  refine ⟨?_, expired_append_retained_perm now entries, min_le_length_retained now entries, ?_, ?_⟩
  · have hloop := run_gcBackups_cons hcode hrun
    rw [staleBackups_eq, listing_iff.mp hentries] at hloop
    have haccepted : ∀ path ∈ (outdated now entries).map Prod.snd,
        ∃ s, Commands.validateRemotePath path = .ok s := by
      intro path hpath
      obtain ⟨e, he, rfl⟩ := List.mem_map.mp hpath
      have hmem := List.mem_of_mem_drop (List.mem_of_mem_filter he)
      exact hpaths e ((List.mem_insertionSort _).mp hmem)
    obtain ⟨hr, hremoved⟩ := run_removeBackups haccepted hloop htr
    exact ⟨_, hr, (outdated_perm now entries).map _, hremoved⟩
  · intro e he
    obtain ⟨e', he', rfl⟩ := List.mem_map.mp he
    have hexpired : Expired now entries e' := of_decide_eq_true (List.mem_filter.mp he').2
    exact hexpired.2
  · intro out' left tr' r' hrun' hcode' hleft hperm
    have hloop := run_gcBackups_cons hcode' hrun'
    rw [staleBackups_eq, listing_iff.mp hleft, outdated_retained now hperm] at hloop
    obtain ⟨rfl, hr | hr⟩ := run_ret_iff.mp hloop
    · cases hr
    · exact ⟨Option.some.inj hr, rfl⟩

theorem exists_of_isOk {ε α : Type} {x : Except ε α} (h : x.isOk = true) : ∃ a, x = .ok a := by
  cases x with
  | error e => cases h
  | ok a => exact ⟨a, rfl⟩

/-- A listing of four backups, of which one is of the year 1970, and a line that is no entry. -/
def fourBackups : Str :=
  ("0.5\t/b/backups/pre-update-a\nno entry\n1776600001.0\t/b/backups/pre-update-b\n" ++
    "1776600002.0\t/b/backups/pre-update-c\n1776600003.0\t/b/backups/pre-update-d\n").toList

/-- Its entries. -/
def fourEntries : List (Int × PathBuf) :=
  [(0, .fromStr "/b/backups/pre-update-a".toList),
    (1776600001, .fromStr "/b/backups/pre-update-b".toList),
    (1776600002, .fromStr "/b/backups/pre-update-c".toList),
    (1776600003, .fromStr "/b/backups/pre-update-d".toList)]

/-- The reply to the listing command. -/
def fourListed : ExecOutput := ⟨Utf8.encode fourBackups, [], 0⟩

/-- The time of the run. -/
def fourNow : DateTime := ⟨1776600010, 0⟩

/-- One of them goes, and three stay. -/
theorem gcBackups_exact_four :
    (expired fourNow fourEntries).map Prod.snd = [.fromStr "/b/backups/pre-update-a".toList] ∧
      min 3 fourEntries.length ≤ (retained fourNow fourEntries).length := by
  have hentries : Listing (Text.lines fourListed.stdoutString) fourEntries :=
    listing_iff.mpr (by decide +kernel)
  have hpaths : ∀ e ∈ fourEntries, (Commands.validateRemotePath e.2).isOk = true := by
    decide +kernel
  have hstale : ∀ path ∈ staleBackups fourNow fourListed.stdoutString,
      (Commands.validateRemotePath path).isOk = true := by decide +kernel
  obtain ⟨find, hfind⟩ := exists_of_isOk
    (show (findBackups (backupsPath (.fromStr "/b".toList))).isOk = true by decide +kernel)
  obtain ⟨tr, hloop, htr⟩ :=
    exists_run_removeBackups fun path hpath => exists_of_isOk (hstale path hpath)
  have hexact := gcBackups_exact (run_gcBackups_of hfind rfl hloop) rfl hentries
    (fun e he => exists_of_isOk (hpaths e he)) htr
  exact ⟨by decide +kernel, hexact.2.2.1⟩

end RelayLifecycle

end Rustmote
