import Mathlib.Data.Char
import Mathlib.Data.List.Lex
import Mathlib.Logic.Equiv.List

/-!
# Sorted maps

A `BTreeMap`: a list of entries in the order of their keys, each key with one entry. The
order is a field of the structure.

* `get_insert`, `get_remove` — an operation on one key is seen at that key only.
* `ext_get` — a map is what it looks up.
-/

namespace Rustmote

/-- `std::collections::BTreeMap`. -/
structure BTreeMap (K V : Type) [LinearOrder K] where
  /-- The entries. -/
  entries : List (K × V)
  /-- They are in the order of their keys, each of which has one. -/
  sorted : entries.Pairwise fun a b => a.1 < b.1
  deriving DecidableEq

namespace BTreeMap

variable {K V : Type} [LinearOrder K]

/-- `BTreeMap::new`. -/
def empty : BTreeMap K V := ⟨[], .nil⟩

/-- `BTreeMap::get`. -/
def get (m : BTreeMap K V) (key : K) : Option V := m.entries.lookup key

/-- An entry put where its key belongs, in place of an entry with that key. -/
def insertEntry (key : K) (value : V) : List (K × V) → List (K × V)
  | [] => [(key, value)]
  | (k, v) :: rest =>
    if key = k then (key, value) :: rest
    else if key < k then (key, value) :: (k, v) :: rest
    else (k, v) :: insertEntry key value rest

theorem fst_mem_insertEntry {key : K} {value : V} {entries : List (K × V)} {e : K × V}
    (h : e ∈ insertEntry key value entries) : e.1 = key ∨ e ∈ entries := by
  induction entries with
  | nil =>
    rw [insertEntry, List.mem_singleton] at h
    exact .inl (congrArg Prod.fst h)
  | cons x entries ih =>
    rw [insertEntry] at h
    split_ifs at h
    · rcases List.mem_cons.mp h with rfl | h
      · exact .inl rfl
      · exact .inr (List.mem_cons_of_mem _ h)
    · rcases List.mem_cons.mp h with rfl | h
      · exact .inl rfl
      · exact .inr h
    · rcases List.mem_cons.mp h with rfl | h
      · exact .inr List.mem_cons_self
      · rcases ih h with h | h
        · exact .inl h
        · exact .inr (List.mem_cons_of_mem _ h)

theorem sorted_insertEntry (key : K) (value : V) {entries : List (K × V)}
    (h : entries.Pairwise fun a b => a.1 < b.1) :
    (insertEntry key value entries).Pairwise fun a b => a.1 < b.1 := by
  induction entries with
  | nil => exact List.pairwise_singleton _ _
  | cons x entries ih =>
    obtain ⟨hx, hrest⟩ := List.pairwise_cons.mp h
    rw [insertEntry]
    split_ifs with h₁ h₂
    · exact List.pairwise_cons.mpr ⟨fun e he => by rw [h₁]; exact hx e he, hrest⟩
    · refine List.pairwise_cons.mpr ⟨fun e he => ?_, h⟩
      rcases List.mem_cons.mp he with rfl | he
      · exact h₂
      · exact lt_trans h₂ (hx e he)
    · refine List.pairwise_cons.mpr ⟨fun e he => ?_, ih hrest⟩
      rcases fst_mem_insertEntry he with he | he
      · rw [he]
        exact lt_of_le_of_ne (not_lt.mp h₂) (Ne.symm h₁)
      · exact hx e he

/-- `BTreeMap::insert`. -/
def insert (m : BTreeMap K V) (key : K) (value : V) : BTreeMap K V :=
  ⟨insertEntry key value m.entries, sorted_insertEntry key value m.sorted⟩

/-- `BTreeMap::remove`, of which the value is not returned. -/
def remove (m : BTreeMap K V) (key : K) : BTreeMap K V :=
  ⟨m.entries.filter fun e => e.1 ≠ key, m.sorted.filter _⟩

/-! ### Looking up -/

/-- A lookup finds the entry of the key. -/
theorem get_eq_find? (m : BTreeMap K V) {key : K} {p : K → Bool} (hp : ∀ k, p k = true ↔ k = key) :
    m.get key = (m.entries.find? fun e => p e.1).map Prod.snd := by
  rw [get]
  induction m.entries with
  | nil => rfl
  | cons e entries ih =>
    rw [List.find?_cons, List.lookup_cons]
    by_cases h : e.1 = key
    · rw [(hp e.1).mpr h, beq_iff_eq.mpr h.symm]
      rfl
    · rw [Bool.eq_false_iff.mpr fun hpe => h ((hp e.1).mp hpe),
        beq_eq_false_iff_ne.mpr (Ne.symm h)]
      exact ih

@[simp] theorem get_empty (key : K) : (empty : BTreeMap K V).get key = none := rfl

theorem lookup_insertEntry (key : K) (value : V) (entries : List (K × V)) :
    (insertEntry key value entries).lookup key = some value := by
  induction entries with
  | nil => simp [insertEntry]
  | cons x entries ih =>
    rw [insertEntry]
    split_ifs with h₁ h₂
    · simp
    · simp
    · have hne : (key == x.1) = false := by simpa using h₁
      rw [List.lookup_cons, hne]
      exact ih

theorem lookup_insertEntry_of_ne {key other : K} (value : V) (hne : other ≠ key)
    (entries : List (K × V)) :
    (insertEntry key value entries).lookup other = entries.lookup other := by
  have hkey : (other == key) = false := by simpa using hne
  induction entries with
  | nil => rw [insertEntry, List.lookup_cons, hkey]
  | cons x entries ih =>
    rw [insertEntry]
    split_ifs with h₁ h₂
    · rw [List.lookup_cons, List.lookup_cons, hkey, ← h₁, hkey]
    · rw [List.lookup_cons, hkey]
    · rw [List.lookup_cons, List.lookup_cons, ih]

@[simp] theorem get_insert_self (m : BTreeMap K V) (key : K) (value : V) :
    (m.insert key value).get key = some value := lookup_insertEntry key value m.entries

theorem get_insert_of_ne (m : BTreeMap K V) {key other : K} (value : V) (hne : other ≠ key) :
    (m.insert key value).get other = m.get other := lookup_insertEntry_of_ne value hne m.entries

theorem get_insert (m : BTreeMap K V) (key other : K) (value : V) :
    (m.insert key value).get other = if other = key then some value else m.get other := by
  split_ifs with h
  · rw [h, get_insert_self]
  · exact get_insert_of_ne m value h

theorem get_remove (m : BTreeMap K V) (key other : K) :
    (m.remove key).get other = if other = key then none else m.get other := by
  show (m.entries.filter fun e => e.1 ≠ key).lookup other = _
  rw [get]
  induction m.entries with
  | nil => simp
  | cons x entries ih =>
    rw [List.filter_cons, List.lookup_cons]
    by_cases hx : x.1 = key
    · rw [if_neg (by simpa using hx), ih, hx]
      split_ifs with h
      · rfl
      · have hne : (other == key) = false := by simpa using h
        rw [hne]
    · rw [if_pos (by simpa using hx), List.lookup_cons, ih]
      split_ifs with h
      · have hne : (other == x.1) = false := by simpa [h] using Ne.symm hx
        rw [hne]
      · rfl

@[simp] theorem get_remove_self (m : BTreeMap K V) (key : K) : (m.remove key).get key = none := by
  rw [get_remove, if_pos rfl]

theorem get_remove_of_ne (m : BTreeMap K V) {key other : K} (hne : other ≠ key) :
    (m.remove key).get other = m.get other := by
  rw [get_remove, if_neg hne]

/-- The entries are what is looked up. -/
theorem mem_entries_iff {m : BTreeMap K V} {key : K} {value : V} :
    (key, value) ∈ m.entries ↔ m.get key = some value := by
  obtain ⟨entries, hsorted⟩ := m
  show (key, value) ∈ entries ↔ entries.lookup key = some value
  induction entries with
  | nil => simp
  | cons x entries ih =>
    obtain ⟨hx, hrest⟩ := List.pairwise_cons.mp hsorted
    rw [List.mem_cons, List.lookup_cons]
    by_cases hkey : key = x.1
    · -- no later entry has this key
      have hlater : (key, value) ∉ entries := fun h => absurd hkey (hx _ h).ne'
      rw [show (key == x.1) = true by simpa using hkey]
      simp only [hlater, or_false, Option.some.injEq]
      refine ⟨fun h => by rw [← h], fun h => ?_⟩
      rw [hkey, ← h]
    · rw [show (key == x.1) = false by simpa using hkey, ← ih hrest]
      refine or_iff_right fun h => hkey ?_
      rw [← h]

/-- **A map is what it looks up.** -/
theorem ext_get {m m' : BTreeMap K V} (h : ∀ key, m.get key = m'.get key) : m = m' := by
  have hentries : m.entries.Perm m'.entries := by
    refine (List.perm_ext_iff_of_nodup ?_ ?_).mpr fun e => ?_
    · exact m.sorted.imp fun hlt heq => absurd (congrArg Prod.fst heq) hlt.ne
    · exact m'.sorted.imp fun hlt heq => absurd (congrArg Prod.fst heq) hlt.ne
    · rw [show e = (e.1, e.2) from rfl, mem_entries_iff, mem_entries_iff, h]
  have heq : m.entries = m'.entries :=
    hentries.eq_of_pairwise (fun a b _ _ hab hba => absurd (hab.trans hba) (lt_irrefl _))
      m.sorted m'.sorted
  cases m
  cases m'
  congr

/-- A map is encoded as its entries. -/
instance encodable [Encodable K] [Encodable V] : Encodable (BTreeMap K V) :=
  Encodable.ofLeftInjection (fun m => m.entries)
    (fun entries => if h : entries.Pairwise fun a b => a.1 < b.1 then some ⟨entries, h⟩ else none)
    fun m => dif_pos m.sorted

end BTreeMap

end Rustmote
