import Rustmote.RelayLifecycle.Confined
import Rustmote.RelayLifecycle.Versions

/-!
# What the removal of old backups takes

`gc_backups` removes what its listing names as too old, wherever that is. When it is through, what
is at or below such a place is gone, and everything else is as it was (`runs_gcBackups_place`). So it
leaves the compose file and the state file exactly when the listing names no place at or above them
(`spares_iff`).
-/

namespace Rustmote

open Interaction (Env)
open FileTree RelayLifecycle

/-- If the event is the listing of the backups: what is too old in it is neither at nor above the
compose file or the state file. -/
def SparesFiles (p : PathBuf) (ts : List DateTime) : Event → Prop
  | ⟨.exec cmd, .ok out⟩ =>
    findBackups (backupsPath p) = .ok cmd → out.exitCode = 0 →
      ∀ now ∈ ts, ∀ path ∈ staleBackups now out.stdoutString,
        ¬ Below (place path) (place (composePath p)) ∧ ¬ Below (place path) (place (statePath p))
  | _ => True

instance (q q' : Path) : Decidable (Below q q') := inferInstanceAs (Decidable (q <+: q'))

instance (p : PathBuf) (ts : List DateTime) : DecidablePred (SparesFiles p ts) := fun
  | ⟨.exec _, .ok _⟩ => inferInstanceAs (Decidable (_ → _))
  | ⟨.exec _, .error _⟩ => isTrue trivial
  | ⟨.listTags _, _⟩ => isTrue trivial
  | ⟨.resolveDigest _ _, _⟩ => isTrue trivial
  | ⟨.now, _⟩ => isTrue trivial
  | ⟨.instant, _⟩ => isTrue trivial
  | ⟨.sleep _, _⟩ => isTrue trivial

/-- A plain request is no listing. -/
theorem sparesFiles_of_plain {p : PathBuf} {ts : List DateTime} {e : Event}
    (h : Plain p e.request) : SparesFiles p ts e := by
  obtain ⟨q, reply⟩ := e
  cases q with
  | exec cmd =>
    cases reply with
    | ok out => exact fun hfind => absurd hfind h
    | error e => trivial
  | _ => trivial

theorem times_append (t₁ t₂ : List Event) : times (t₁ ++ t₂) = times t₁ ++ times t₂ :=
  List.filterMap_append

theorem times_of_plain {p : PathBuf} {tr : List Event} (h : ∀ e ∈ tr, Plain p e.request) :
    times tr = [] := by
  refine List.filterMap_eq_nil_iff.mpr ?_
  rintro ⟨q, reply⟩ he
  cases q with
  | now => exact (h _ he).elim
  | _ => rfl

namespace Host

variable {H : Host} {w w' : H.World} {p : PathBuf} {tr : List Event} {self : RelayLifecycle}

/-- Removing backups keeps every place that is not in one of them. -/
theorem runs_removeBackups_node {paths : List PathBuf} {r : Except RustmoteError (List PathBuf)}
    (h : H.env.Runs w (removeBackups paths) tr r w') {q : Path}
    (hq : ∀ path ∈ paths, (Commands.validateRemotePath path).isOk = true → ¬ Below (place path) q) :
    (H.tree w').node q = (H.tree w).node q := by
  refine h.rel (P := Asks False False (Removes paths)) (always_removes paths)
    (R := fun w w' => (H.tree w').node q = (H.tree w).node q) (fun _ => rfl)
    (fun _ _ _ h₁ h₂ => h₂.trans h₁) fun w req hreq => ?_
  cases req with
  | exec cmd =>
    obtain ⟨path, hpath, s, hs, rfl⟩ := hreq
    refine (H.carried w _ _ (actions_remove hs)).sameNodes q ?_
    rintro ⟨a, ha, hmakes⟩
    obtain rfl := List.mem_singleton.mp ha
    refine hq path hpath ?_ hmakes
    rw [hs]
    rfl
  | _ => rw [H.quiet w _ fun _ h => by cases h]

/-- Removing backups makes no file. -/
theorem runs_removeBackups_fileAt {paths : List PathBuf} {r : Except RustmoteError (List PathBuf)}
    (h : H.env.Runs w (removeBackups paths) tr r w') {q : Path} {content : Bytes}
    (hq : (H.tree w').fileAt q = some content) : (H.tree w).fileAt q = some content := by
  refine h.rel (P := Asks False False (Removes paths)) (always_removes paths)
    (R := fun w w' => (H.tree w').fileAt q = some content → (H.tree w).fileAt q = some content)
    (fun _ h => h) (fun _ _ _ h₁ h₂ h => h₁ (h₂ h)) (fun w req hreq hq => ?_) hq
  cases req with
  | exec cmd =>
    obtain ⟨path, -, s, hs, rfl⟩ := hreq
    exact (H.carried w _ _ (actions_remove hs)).fileAt_of_remove hq
  | _ => rwa [H.quiet w _ fun _ h => by cases h] at hq

/-- When the loop is through, there is no file at or below a path of the list. -/
theorem fileAt_of_removeBackups {paths deleted : List PathBuf}
    (h : H.env.Runs w (removeBackups paths) tr (.ok deleted) w') {q : Path}
    (hq : ∃ path ∈ paths, Below (place path) q) : (H.tree w').fileAt q = none := by
  induction paths generalizing w w' tr deleted with
  | nil => exact absurd hq (by simp)
  | cons path paths ih =>
    unfold removeBackups at h
    obtain ⟨s, t₁, t₂, w₁, -, hlift, h₁⟩ := Env.runs_bind_ok h
    obtain ⟨-, hs, rfl⟩ := Env.runs_lift_ok hlift
    obtain ⟨out, t₃, t₄, w₂, -, hremove, h₂⟩ := Env.runs_bind_ok h₁
    obtain ⟨rest, t₅, t₆, w₃, -, hrest, h₃⟩ := Env.runs_bind_ok h₂
    obtain ⟨-, -, rfl⟩ := Env.runs_ret_iff.mp h₃
    obtain ⟨other, hother, hbelow⟩ := hq
    rcases List.mem_cons.mp hother with rfl | hother
    · -- what is gone does not come back
      rcases runs_execOk hremove with ⟨out', -, -, hstep⟩ | ⟨e, he, -⟩
      · have hnode := remove_eq_some (hstep.action (actions_remove hs)) q
        rw [if_pos (show place other <+: q from hbelow)] at hnode
        have hgone : (H.tree w₂).fileAt q = none := by rw [fileAt, hnode]
        by_contra hsome
        obtain ⟨content, hcontent⟩ := Option.ne_none_iff_exists'.mp hsome
        rw [runs_removeBackups_fileAt hrest hcontent] at hgone
        cases hgone
      · cases he
    · exact ih hrest ⟨other, hother, hbelow⟩

/-- **What a clean-up leaves**: its listing is the first of its events and the only one, what is at
or below a place that it names as too old is gone, and everything else is as it was. -/
theorem runs_gcBackups_place {now : DateTime} {deleted : List PathBuf}
    (h : H.env.Runs w (gcBackups p now) tr (.ok deleted) w') :
    ∃ cmd out rest, findBackups (backupsPath p) = .ok cmd ∧ tr = ⟨.exec cmd, .ok out⟩ :: rest ∧
      (∀ e ∈ rest, Plain p e.request) ∧
      ∀ q, if out.exitCode = 0 ∧ ∃ path ∈ staleBackups now out.stdoutString, Below (place path) q
        then (H.tree w').fileAt q = none else (H.tree w').node q = (H.tree w).node q := by
  unfold gcBackups at h
  obtain ⟨cmd, t₁, t₂, w₁, rfl, hlift, h₁⟩ := Env.runs_bind_ok h
  obtain ⟨rfl, hcmd, rfl⟩ := Env.runs_lift_ok hlift
  obtain ⟨out, t₃, t₄, w₂, rfl, hexec, h₂⟩ := Env.runs_bind_ok h₁
  obtain ⟨rfl, rfl, hreply⟩ := runs_exec_iff.mp hexec
  have htree : H.tree (H.next w₁ cmd) = H.tree w₁ := tree_next_of_reads (.find hcmd)
  refine ⟨cmd, out, t₄, hcmd, ?_, fun e he => ?_, fun q => ?_⟩
  · rw [eq_ok_of_mapError hreply]
    rfl
  · by_cases hcode : out.exitCode = 0
    · rw [if_neg (not_not.mpr hcode)] at h₂
      exact h₂.requests (plain_removeBackups _) e he
    · rw [if_pos hcode] at h₂
      obtain ⟨rfl, -, -⟩ := Env.runs_ret_iff.mp h₂
      exact absurd he List.not_mem_nil
  · by_cases hcode : out.exitCode = 0
    · rw [if_neg (not_not.mpr hcode)] at h₂
      split_ifs with hbelow
      · exact fileAt_of_removeBackups h₂ hbelow.2
      · rw [← htree]
        exact runs_removeBackups_node h₂ fun path hpath _ hq => hbelow ⟨hcode, path, hpath, hq⟩
    · rw [if_pos hcode] at h₂
      obtain ⟨-, -, rfl⟩ := Env.runs_ret_iff.mp h₂
      rw [if_neg fun h => hcode h.1, htree]

/-- It does not read the clock. -/
theorem times_gcBackups {now : DateTime} {deleted : List PathBuf}
    (h : H.env.Runs w (gcBackups p now) tr (.ok deleted) w') : times tr = [] := by
  obtain ⟨cmd, out, rest, -, rfl, hrest, -⟩ := runs_gcBackups_place h
  show times rest = []
  exact times_of_plain hrest

/-- **A clean-up leaves the two files**, if they are there, exactly when its listing spares them. -/
theorem spares_iff {now : DateTime} {deleted : List PathBuf}
    (h : H.env.Runs w (gcBackups p now) tr (.ok deleted) w')
    (hcompose : (H.tree w).isFile (place (composePath p)) = true)
    (hstate : (H.tree w).isFile (place (statePath p)) = true) :
    (∀ e ∈ tr, SparesFiles p [now] e) ↔
      (H.tree w').fileAt (place (composePath p)) = (H.tree w).fileAt (place (composePath p)) ∧
        (H.tree w').fileAt (place (statePath p)) = (H.tree w).fileAt (place (statePath p)) := by
  obtain ⟨cmd, out, rest, hcmd, rfl, hrest, hplace⟩ := runs_gcBackups_place h
  constructor
  · intro hspares
    have hfirst := hspares _ List.mem_cons_self hcmd
    have hkept : ∀ q, (∀ path ∈ staleBackups now out.stdoutString, out.exitCode = 0 →
        ¬ Below (place path) q) → (H.tree w').fileAt q = (H.tree w).fileAt q := by
      intro q hq
      have hnode := hplace q
      rw [if_neg fun ⟨hcode, path, hpath, hbelow⟩ => hq path hpath hcode hbelow] at hnode
      exact fileAt_congr hnode
    have hnow := List.mem_singleton_self now
    exact ⟨hkept _ fun path hpath hcode => (hfirst hcode now hnow path hpath).1,
      hkept _ fun path hpath hcode => (hfirst hcode now hnow path hpath).2⟩
  · rintro ⟨hsameCompose, hsameState⟩ e he
    rcases List.mem_cons.mp he with rfl | he
    · intro _ hcode t ht path hpath
      obtain rfl := List.mem_singleton.mp ht
      have hnot : ∀ q, (H.tree w).isFile q = true → (H.tree w').fileAt q = (H.tree w).fileAt q →
          ¬ Below (place path) q := by
        intro q hfile hsame hbelow
        have hgone := hplace q
        rw [if_pos ⟨hcode, path, hpath, hbelow⟩, hsame] at hgone
        rw [isFile, hgone] at hfile
        cases hfile
      exact ⟨hnot _ hcompose hsameCompose, hnot _ hstate hsameState⟩
    · exact sparesFiles_of_plain (hrest e he)

end Host

end Rustmote
