import Mathlib.Data.List.Induction
import Mathlib.Data.List.Sort
import Mathlib.Order.Basic

/-!
# Ranks in a list

* `FirstMax` — the first of the elements with the greatest value, where only some elements have
  a value.
* `rankIn` — how many elements of a list go before one in a stable sort, the greatest first:
  those with a greater key, and those with the same key further in front. So what the sort has
  behind its first elements are those of a rank (`drop_insertionSort_perm`).
-/

namespace Rustmote

/-! ### The first of the greatest -/

section FirstMax

variable {α β : Type} [LinearOrder β] {R S : α → β → Prop}

/-- `x`, of value `b`, is the first of the elements with the greatest value; `R` gives the
elements that have a value theirs. -/
def FirstMax (R : α → β → Prop) (xs : List α) (x : α) (b : β) : Prop :=
  ∃ before after, xs = before ++ x :: after ∧ R x b ∧
    (∀ y ∈ before, ∀ c, R y c → c < b) ∧ ∀ y ∈ after, ∀ c, R y c → c ≤ b

theorem FirstMax.mem {xs : List α} {x : α} {b : β} (h : FirstMax R xs x b) : x ∈ xs := by
  obtain ⟨before, after, rfl, -⟩ := h
  simp

theorem FirstMax.value {xs : List α} {x : α} {b : β} (h : FirstMax R xs x b) : R x b := by
  obtain ⟨_, _, _, hx, _⟩ := h
  exact hx

/-- An element below the maximum may come first. -/
theorem FirstMax.cons {xs : List α} {x y : α} {b : β} (h : FirstMax R xs x b)
    (hy : ∀ c, R y c → c < b) : FirstMax R (y :: xs) x b := by
  obtain ⟨before, after, rfl, hx, hbefore, hafter⟩ := h
  exact ⟨y :: before, after, rfl, hx, List.forall_mem_cons.mpr ⟨hy, hbefore⟩, hafter⟩

theorem firstMax_cons_self {xs : List α} {x : α} {b : β} (hx : R x b)
    (hxs : ∀ y ∈ xs, ∀ c, R y c → c ≤ b) : FirstMax R (x :: xs) x b :=
  ⟨[], xs, rfl, hx, by simp, hxs⟩

/-- The value is an upper bound, if no element has two. -/
theorem FirstMax.le {xs : List α} {x : α} {b : β} (h : FirstMax R xs x b)
    (hR : ∀ y c c', R y c → R y c' → c = c') {y : α} (hy : y ∈ xs) {c : β} (hc : R y c) :
    c ≤ b := by
  obtain ⟨before, after, rfl, hx, hbefore, hafter⟩ := h
  rcases List.mem_append.mp hy with hy | hy
  · exact le_of_lt (hbefore y hy c hc)
  · rcases List.mem_cons.mp hy with rfl | hy
    · exact le_of_eq (hR y c b hc hx)
    · exact hafter y hy c hc

/-- Only the values of the elements of the list matter. -/
theorem FirstMax.congr {xs : List α} (hRS : ∀ y ∈ xs, ∀ c, R y c ↔ S y c) {x : α} {b : β}
    (h : FirstMax R xs x b) : FirstMax S xs x b := by
  have hx := (hRS x h.mem b).mp h.value
  obtain ⟨before, after, rfl, -, hbefore, hafter⟩ := h
  refine ⟨before, after, rfl, hx, ?_, ?_⟩
  · intro y hy c hc
    exact hbefore y hy c ((hRS y (List.mem_append_left _ hy) c).mpr hc)
  · intro y hy c hc
    exact hafter y hy c
      ((hRS y (List.mem_append_right _ (List.mem_cons_of_mem _ hy)) c).mpr hc)

/-- Where the values of one list are among those of the other, so is the greatest. -/
theorem FirstMax.le_of_values {xs ys : List α} {x y : α} {b c : β} (hx : FirstMax R xs x b)
    (hy : FirstMax R ys y c) (hR : ∀ y c c', R y c → R y c' → c = c')
    (hvalues : ∀ d, (∃ z ∈ xs, R z d) → ∃ z ∈ ys, R z d) : b ≤ c := by
  obtain ⟨z, hz, hzb⟩ := hvalues b ⟨x, hx.mem, hx.value⟩
  exact hy.le hR hz hzb

/-- There is at most one. -/
theorem FirstMax.unique {xs : List α} {x y : α} {b c : β} (hx : FirstMax R xs x b)
    (hy : FirstMax R xs y c) (hR : ∀ y c c', R y c → R y c' → c = c') : x = y := by
  have hbc : b = c := le_antisymm (hy.le hR hx.mem hx.value) (hx.le hR hy.mem hy.value)
  subst hbc
  obtain ⟨before, after, rfl, hxb, hbefore, -⟩ := hx
  obtain ⟨before', after', heq, hyb, hbefore', -⟩ := hy
  rcases List.append_eq_append_iff.mp heq with ⟨m, rfl, hm⟩ | ⟨m, rfl, hm⟩
  · cases m with
    | nil => exact (List.cons.inj hm).1
    | cons z m =>
      -- `x` would come before `y`, and below it
      obtain ⟨rfl, -⟩ := List.cons.inj hm
      exact absurd (hbefore' x (by simp) b hxb) (lt_irrefl b)
  · cases m with
    | nil => exact (List.cons.inj hm).1.symm
    | cons z m =>
      obtain ⟨rfl, -⟩ := List.cons.inj hm
      exact absurd (hbefore y (by simp) b hyb) (lt_irrefl b)

end FirstMax

/-! ### Ranks in a stable sort -/

/-- In a list in a strict order, as many elements go before one as stand in front of it. -/
theorem filter_rank_eq_drop {α : Type} {R : α → α → Prop} [DecidableRel R]
    (hasymm : ∀ a b, R a b → ¬ R b a) {l : List α} (hl : l.Pairwise R) (k : Nat) :
    l.filter (fun a => k ≤ l.countP fun b => R b a) = l.drop k := by
  induction l using List.reverseRecOn with
  | nil => simp
  | append_singleton l x ih =>
    obtain ⟨hpair, -, hx⟩ := List.pairwise_append.mp hl
    have hbefore : ∀ a ∈ l, R a x := fun a ha => hx a ha x (List.mem_singleton_self x)
    -- nothing changes for those in front, and all of them go before the last
    have hrank : ∀ a ∈ l, ((l ++ [x]).countP fun b => R b a) = l.countP fun b => R b a := by
      intro a ha
      rw [List.countP_append, List.countP_singleton, if_neg, Nat.add_zero]
      simpa using hasymm a x (hbefore a ha)
    have hlast : ((l ++ [x]).countP fun b => R b x) = l.length := by
      rw [List.countP_append, List.countP_singleton, if_neg, Nat.add_zero]
      · exact List.countP_eq_length.mpr fun a ha => by simpa using hbefore a ha
      · simpa using fun h => hasymm x x h h
    rw [List.filter_append, List.drop_append, ← ih hpair]
    congr 1
    · refine List.filter_congr fun a ha => ?_
      rw [hrank a ha]
    · rw [List.filter_singleton, hlast]
      by_cases hk : k ≤ l.length
      · simp [hk]
      · have hnil : [x].drop (k - l.length) = [] :=
          List.drop_eq_nil_of_le (by rw [List.length_singleton]; omega)
        simp [hk, hnil]

section StableSort

variable {α β : Type} [LinearOrder β] (key : α → β)

/-- One place of a list goes before another: its element has a greater key, or the same and
stands in front. -/
def GoesBefore (e e' : α × Nat) : Prop :=
  key e'.1 < key e.1 ∨ key e.1 = key e'.1 ∧ e.2 < e'.2

instance decidableGoesBefore : DecidableRel (GoesBefore key) := fun e e' =>
  inferInstanceAs (Decidable (key e'.1 < key e.1 ∨ key e.1 = key e'.1 ∧ e.2 < e'.2))

theorem goesBefore_asymm (e e' : α × Nat) (h : GoesBefore key e e') : ¬ GoesBefore key e' e := by
  rintro (h' | ⟨h', hlt'⟩) <;> rcases h with h | ⟨h, hlt⟩
  · exact lt_asymm h h'
  · exact absurd h' (by rw [h]; exact lt_irrefl _)
  · exact absurd h (by rw [h']; exact lt_irrefl _)
  · omega

/-- The rank of a place of a list: how many places go before it. -/
def rankIn (l : List α) (e : α × Nat) : Nat := l.zipIdx.countP fun e' => GoesBefore key e' e

/-- Putting an element in front of those with its key keeps the order of the places. -/
theorem goesBefore_orderedInsert {e : α × Nat} {l : List (α × Nat)}
    (hl : l.Pairwise (GoesBefore key)) (he : ∀ e' ∈ l, e.2 < e'.2) :
    (l.orderedInsert (fun a b => key b.1 ≤ key a.1) e).Pairwise (GoesBefore key) := by
  induction l with
  | nil => exact List.pairwise_singleton _ _
  | cons x l ih =>
    obtain ⟨hx, hrest⟩ := List.pairwise_cons.mp hl
    rw [List.orderedInsert_cons]
    split_ifs with hle
    · refine List.pairwise_cons.mpr ⟨fun y hy => ?_, hl⟩
      -- the keys fall from `x` on, and the places stand behind
      have hkey : key y.1 ≤ key e.1 := by
        rcases List.mem_cons.mp hy with rfl | hy
        · exact hle
        · rcases hx y hy with hlt | ⟨heq, -⟩
          · exact hlt.le.trans hle
          · exact heq.symm.le.trans hle
      rcases hkey.lt_or_eq with hlt | heq
      · exact .inl hlt
      · exact .inr ⟨heq.symm, he y hy⟩
    · refine List.pairwise_cons.mpr ⟨fun y hy => ?_, ih hrest fun y hy =>
        he y (List.mem_cons_of_mem _ hy)⟩
      rcases (List.mem_orderedInsert _).mp hy with rfl | hy
      · exact .inl (not_le.mp hle)
      · exact hx y hy

theorem goesBefore_insertionSort (l : List α) (n : Nat) :
    ((l.zipIdx n).insertionSort fun a b => key b.1 ≤ key a.1).Pairwise (GoesBefore key) := by
  induction l generalizing n with
  | nil => exact List.Pairwise.nil
  | cons a l ih =>
    rw [List.zipIdx_cons, List.insertionSort_cons]
    refine goesBefore_orderedInsert key (ih (n + 1)) fun e he => ?_
    have hmem := (List.mem_insertionSort _).mp he
    exact Nat.lt_of_succ_le (List.le_snd_of_mem_zipIdx hmem)

/-- **What a stable sort has behind its first elements** are the elements of at least that rank. -/
theorem drop_insertionSort_perm (l : List α) (k : Nat) :
    ((l.insertionSort fun a b => key b ≤ key a).drop k).Perm
      ((l.zipIdx.filter fun e => k ≤ rankIn key l e).map Prod.fst) := by
  have hperm := List.perm_insertionSort (fun a b : α × Nat => key b.1 ≤ key a.1) l.zipIdx
  have hsorted : l.insertionSort (fun a b => key b ≤ key a) =
      (l.zipIdx.insertionSort fun a b => key b.1 ≤ key a.1).map Prod.fst := by
    rw [List.map_insertionSort (fun a b : α × Nat => key b.1 ≤ key a.1)
      (fun a b => key b ≤ key a) Prod.fst l.zipIdx fun _ _ _ _ => Iff.rfl, List.zipIdx_map_fst]
  have hrank : ∀ e, (l.zipIdx.insertionSort fun a b => key b.1 ≤ key a.1).countP
      (fun e' => GoesBefore key e' e) = rankIn key l e := fun e => hperm.countP_eq _
  have hdrop := filter_rank_eq_drop (goesBefore_asymm key) (goesBefore_insertionSort key l 0) k
  rw [hsorted, ← List.map_drop, ← hdrop]
  simp only [hrank]
  exact (hperm.filter _).map _

end StableSort

end Rustmote
