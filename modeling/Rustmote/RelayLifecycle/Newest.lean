import Mathlib.Data.List.Forall2
import Mathlib.Data.List.Lex
import Rustmote.Foundations.Ranking
import Rustmote.RelayLifecycle.Render

/-!
# The newest tag

A tag is a version if it is groups of decimal digits with dots between them, each group of a
value that fits into 64 bits (`Dotted`). `pick_latest_semver` is a fold that keeps the version it
has until a greater one comes; so it ends with the first of the greatest versions.

* `parseDottedNumeric_iff` — on a valid tag, the parser reads just this notion.
* `pickLatestSemver_firstMax` — what the fold ends with, for any parser.
* `SelectedVersion` — the version of the tag that is picked.
-/

namespace Rustmote

/-! ### Versions -/

/-- A group of a version: decimal digits, of a value that fits into 64 bits. -/
structure IsGroup (g : Str) (n : Nat) : Prop where
  /-- It is not empty. -/
  nonempty : g ≠ []
  /-- It has only digits. -/
  digits : ∀ c ∈ g, c.isDigit
  /-- This is its value. -/
  value : Nat.ofDigitChars 10 g 0 = n
  /-- It fits. -/
  fits : n ≤ 2 ^ 64 - 1

/-- `t` is groups of these values with dots between them. -/
def Dotted (t : Str) (parts : List Nat) : Prop :=
  ∃ groups, groups ≠ [] ∧ t = ['.'].intercalate groups ∧ List.Forall₂ IsGroup groups parts

theorem digit_eq_some {c : Char} (h : c.isDigit = true) :
    Text.digit c = some (c.toNat - '0'.toNat) := by
  have hrange : 48 ≤ c.toNat ∧ c.toNat ≤ 57 := by
    simp only [Char.isDigit, Bool.and_eq_true, decide_eq_true_eq, UInt32.le_iff_toNat_le] at h
    exact h
  rw [Text.digit, if_pos hrange]
  rfl

theorem digit_eq_none {c : Char} (h : ¬ c.isDigit = true) : Text.digit c = none := by
  have hrange : ¬ (48 ≤ c.toNat ∧ c.toNat ≤ 57) := by
    simp only [Char.isDigit, Bool.and_eq_true, decide_eq_true_eq, UInt32.le_iff_toNat_le] at h
    exact h
  rw [Text.digit, if_neg hrange]

/-- The value so far is lost at a character that is no digit. -/
theorem parseDigits_none (s : Str) :
    s.foldl (fun acc c => do let n ← acc; let d ← Text.digit c; pure (10 * n + d))
      (none : Option Nat) = none := by
  induction s with
  | nil => rfl
  | cons c s ih => exact ih

theorem parseDigits_eq_some_iff {s : Str} {m n : Nat} :
    s.foldl (fun acc c => do let n ← acc; let d ← Text.digit c; pure (10 * n + d))
        (some m) = some n ↔
      (∀ c ∈ s, c.isDigit) ∧ Nat.ofDigitChars 10 s m = n := by
  induction s generalizing m with
  | nil => simp
  | cons c s ih =>
    rw [List.foldl_cons, List.forall_mem_cons, Nat.ofDigitChars_cons]
    by_cases hc : c.isDigit = true
    · have hstep : (do let n ← some m; let d ← Text.digit c; pure (10 * n + d)) =
          some (10 * m + (c.toNat - '0'.toNat)) := by
        rw [digit_eq_some hc]
        rfl
      rw [hstep, ih]
      simp [hc]
    · have hstep : (do let n ← some m; let d ← Text.digit c; pure (10 * n + d)) = none := by
        rw [digit_eq_none hc]
        rfl
      rw [hstep, parseDigits_none]
      simp [hc]

theorem parseDecimal_eq_some_iff {s : Str} {n : Nat} :
    Text.parseDecimal s = some n ↔
      s ≠ [] ∧ (∀ c ∈ s, c.isDigit) ∧ Nat.ofDigitChars 10 s 0 = n := by
  rw [Text.parseDecimal]
  by_cases hnil : s = []
  · simp [hnil]
  · rw [if_neg hnil, parseDigits_eq_some_iff]
    exact (and_iff_right hnil).symm

/-- **What `str::parse::<u64>` reads**, where there is no sign. -/
theorem parseU64_eq_some_iff {s : Str} {n : Nat} (hs : '+' ∉ s) :
    Text.parseU64 s = some n ↔ IsGroup s n := by
  unfold Text.parseU64
  split
  · exact absurd List.mem_cons_self hs
  · rw [Option.filter_eq_some_iff, parseDecimal_eq_some_iff, decide_eq_true_eq]
    constructor
    · rintro ⟨⟨hnonempty, hdigits, hvalue⟩, hfits⟩
      exact ⟨hnonempty, hdigits, hvalue, by omega⟩
    · intro h
      have hfits := h.fits
      exact ⟨⟨h.nonempty, h.digits, h.value⟩, by omega⟩

theorem mapM_eq_some_iff {α β : Type} {f : α → Option β} {xs : List α} {ys : List β} :
    xs.mapM f = some ys ↔ List.Forall₂ (fun x y => f x = some y) xs ys := by
  induction xs generalizing ys with
  | nil =>
    rw [List.forall₂_nil_left_iff]
    simp [eq_comm]
  | cons x xs ih =>
    rw [List.mapM_cons, List.forall₂_cons_left_iff]
    simp only [← ih, Option.bind_eq_bind, Option.bind_eq_some_iff, Option.pure_def,
      Option.some.injEq]
    constructor
    · rintro ⟨y, hy, ys', hys', rfl⟩
      exact ⟨y, ys', hy, hys', rfl⟩
    · rintro ⟨y, ys', hy, hys', rfl⟩
      exact ⟨y, hy, ys', hys', rfl⟩

/-- The groups of a version are what its dots separate. -/
theorem dotted_iff {t : Str} {parts : List Nat} :
    Dotted t parts ↔ List.Forall₂ IsGroup (t.splitOn '.') parts := by
  constructor
  · rintro ⟨groups, hgroups, rfl, h⟩
    have hdigits : ∀ g ∈ groups, ∀ c ∈ g, c.isDigit :=
      ((List.forall₂_and_left _ _).mp (h.imp fun g n hg => ⟨hg.digits, hg⟩)).1
    have hdot : ∀ g ∈ groups, '.' ∉ g := fun g hg hmem =>
      absurd (hdigits g hg '.' hmem) (by decide)
    rw [List.splitOn_intercalate '.' hdot hgroups]
    exact h
  · exact fun h => ⟨t.splitOn '.', List.splitOn_ne_nil '.' t,
      (List.intercalate_splitOn '.').symm, h⟩

theorem Dotted.unique (t : Str) (parts parts' : List Nat) (h : Dotted t parts)
    (h' : Dotted t parts') : parts = parts' := by
  have hvalue : Relator.RightUnique IsGroup := fun g n n' hn hn' => hn.value.symm.trans hn'.value
  exact List.right_unique_forall₂' hvalue (dotted_iff.mp h) (dotted_iff.mp h')

/-- **On a valid tag, the parser reads versions**, and nothing else. -/
theorem parseDottedNumeric_iff {t : Str} (ht : Commands.validateTag t = .ok t)
    {parts : List Nat} : parseDottedNumeric t = some parts ↔ Dotted t parts := by
  have hplus : ∀ g ∈ t.splitOn '.', '+' ∉ g := by
    intro g hg hmem
    have hmem' : '+' ∈ t := (Text.infix_of_mem_splitOn hg).subset hmem
    exact Commands.not_mem_of_validTag ht (by decide) hmem'
  have hmapM : (t.splitOn '.').mapM Text.parseU64 = some parts ↔
      List.Forall₂ IsGroup (t.splitOn '.') parts := by
    rw [mapM_eq_some_iff]
    constructor
    · intro h
      refine ((List.forall₂_and_left _ _).mpr ⟨hplus, h⟩).imp ?_
      exact fun g n hgn => (parseU64_eq_some_iff hgn.1).mp hgn.2
    · intro h
      refine ((List.forall₂_and_left _ _).mpr ⟨hplus, h⟩).imp ?_
      exact fun g n hgn => (parseU64_eq_some_iff hgn.1).mpr hgn.2
  have hparse : parseDottedNumeric t = some parts ↔
      (t.splitOn '.').mapM Text.parseU64 = some parts := by
    unfold parseDottedNumeric
    split
    · rename_i hnone
      simp [hnone]
    · rename_i parts' hparts'
      have hne : parts' ≠ [] := by
        rintro rfl
        exact List.splitOn_ne_nil '.' t
          (List.forall₂_nil_right_iff.mp (mapM_eq_some_iff.mp hparts'))
      rw [if_neg hne, hparts']
  rw [hparse, hmapM, dotted_iff]

/-! ### The fold -/

/-- `t` has these parts. -/
def HasParts (t : Str) (parts : List Nat) : Prop := parseDottedNumeric t = some parts

theorem HasParts.unique (t : Str) (parts parts' : List Nat) (h : HasParts t parts)
    (h' : HasParts t parts') : parts = parts' := Option.some.inj (h.symm.trans h')

/-- The loop, from a version it has found: it keeps that one unless a greater one follows, and
otherwise ends with the first of the greatest. -/
theorem pickLatest_some (tags : List Str) (cur : List Nat) (c : Str) :
    (pickLatest (some (cur, c)) tags = some (cur, c) ∧
        ∀ t ∈ tags, ∀ parts, HasParts t parts → parts ≤ cur) ∨
      ∃ parts t, pickLatest (some (cur, c)) tags = some (parts, t) ∧ cur < parts ∧
        FirstMax HasParts tags t parts := by
  induction tags generalizing cur c with
  | nil => exact .inl ⟨rfl, by simp⟩
  | cons t₀ tags ih =>
    cases ht₀ : parseDottedNumeric t₀ with
    | none =>
      have hskip : pickLatest (some (cur, c)) (t₀ :: tags) = pickLatest (some (cur, c)) tags := by
        rw [pickLatest, ht₀]
      have hno : ∀ parts, ¬ HasParts t₀ parts := by
        intro parts hparts
        rw [HasParts, ht₀] at hparts
        cases hparts
      rw [hskip]
      rcases ih cur c with ⟨hkept, hle⟩ | ⟨parts, t, hpick, hlt, hmax⟩
      · refine .inl ⟨hkept, List.forall_mem_cons.mpr ⟨?_, hle⟩⟩
        exact fun parts hparts => absurd hparts (hno parts)
      · exact .inr ⟨parts, t, hpick, hlt, hmax.cons fun parts hparts => absurd hparts (hno parts)⟩
    | some parts₀ =>
      have honly : ∀ parts, HasParts t₀ parts → parts = parts₀ := fun parts hparts =>
        HasParts.unique t₀ parts parts₀ hparts ht₀
      by_cases hlt : cur < parts₀
      · -- the tag at hand is greater: it is the first of the greatest, or that one follows
        have htake : pickLatest (some (cur, c)) (t₀ :: tags) =
            pickLatest (some (parts₀, t₀)) tags := by
          simp only [pickLatest, ht₀, if_pos hlt]
        rw [htake]
        rcases ih parts₀ t₀ with ⟨hkept, hle⟩ | ⟨parts, t, hpick, hlt', hmax⟩
        · exact .inr ⟨parts₀, t₀, hkept, hlt, firstMax_cons_self ht₀ hle⟩
        · refine .inr ⟨parts, t, hpick, hlt.trans hlt', hmax.cons fun parts' hparts' => ?_⟩
          rw [honly parts' hparts']
          exact hlt'
      · have hkeep : pickLatest (some (cur, c)) (t₀ :: tags) =
            pickLatest (some (cur, c)) tags := by
          simp only [pickLatest, ht₀, if_neg hlt]
        rw [hkeep]
        rcases ih cur c with ⟨hkept, hle⟩ | ⟨parts, t, hpick, hlt', hmax⟩
        · refine .inl ⟨hkept, List.forall_mem_cons.mpr ⟨fun parts hparts => ?_, hle⟩⟩
          rw [honly parts hparts]
          exact not_lt.mp hlt
        · refine .inr ⟨parts, t, hpick, hlt', hmax.cons fun parts' hparts' => ?_⟩
          rw [honly parts' hparts']
          exact (not_lt.mp hlt).trans_lt hlt'

/-- **What `pick_latest_semver` picks**: the first of the greatest versions of the list, and
nothing if there is no version in it. -/
theorem pickLatestSemver_firstMax (tags : List Str) :
    (pickLatestSemver tags = none ∧ ∀ t ∈ tags, parseDottedNumeric t = none) ∨
      ∃ parts t, pickLatestSemver tags = some t ∧ FirstMax HasParts tags t parts := by
  unfold pickLatestSemver
  induction tags with
  | nil => exact .inl ⟨rfl, by simp⟩
  | cons t₀ tags ih =>
    cases ht₀ : parseDottedNumeric t₀ with
    | none =>
      have hskip : pickLatest none (t₀ :: tags) = pickLatest none tags := by
        simp only [pickLatest, ht₀]
      rw [hskip]
      rcases ih with ⟨hnone, hall⟩ | ⟨parts, t, hpick, hmax⟩
      · exact .inl ⟨hnone, List.forall_mem_cons.mpr ⟨ht₀, hall⟩⟩
      · refine .inr ⟨parts, t, hpick, hmax.cons fun parts' hparts' => ?_⟩
        rw [HasParts, ht₀] at hparts'
        cases hparts'
    | some parts₀ =>
      have hfirst : pickLatest none (t₀ :: tags) = pickLatest (some (parts₀, t₀)) tags := by
        simp only [pickLatest, ht₀]
      rw [hfirst]
      rcases pickLatest_some tags parts₀ t₀ with ⟨hkept, hle⟩ | ⟨parts, t, hpick, hlt, hmax⟩
      · exact .inr ⟨parts₀, t₀, by rw [hkept]; rfl, firstMax_cons_self ht₀ hle⟩
      · refine .inr ⟨parts, t, by rw [hpick]; rfl, hmax.cons fun parts' hparts' => ?_⟩
        rw [HasParts.unique t₀ parts' parts₀ hparts' ht₀]
        exact hlt

/-! ### The version that is picked -/

/-- On valid tags, `pick_latest_semver` picks the first of the greatest versions. -/
theorem pickLatestSemver_dotted {tags : List Str}
    (hvalid : ∀ t ∈ tags, Commands.validateTag t = .ok t) :
    (pickLatestSemver tags = none ∧ ∀ t ∈ tags, ∀ parts, ¬ Dotted t parts) ∨
      ∃ parts t, pickLatestSemver tags = some t ∧ FirstMax Dotted tags t parts := by
  rcases pickLatestSemver_firstMax tags with ⟨hnone, hall⟩ | ⟨parts, t, hpick, hmax⟩
  · refine .inl ⟨hnone, fun t ht parts hparts => ?_⟩
    have hparsed := (parseDottedNumeric_iff (hvalid t ht)).mpr hparts
    rw [hall t ht] at hparsed
    cases hparsed
  · exact .inr ⟨parts, t, hpick,
      hmax.congr fun t ht parts => parseDottedNumeric_iff (hvalid t ht)⟩

/-- The tag that is picked is this version. -/
def SelectedVersion (tags : List Str) (parts : List Nat) : Prop :=
  ∃ t, pickLatestSemver tags = some t ∧ Dotted t parts

/-- **The version that is picked depends on the versions of the list only.** -/
theorem selectedVersion_congr {tags tags' : List Str}
    (hvalid : ∀ t ∈ tags, Commands.validateTag t = .ok t)
    (hvalid' : ∀ t ∈ tags', Commands.validateTag t = .ok t)
    (hsame : ∀ parts, (∃ t ∈ tags, Dotted t parts) ↔ ∃ t ∈ tags', Dotted t parts)
    (parts : List Nat) : SelectedVersion tags parts ↔ SelectedVersion tags' parts := by
  rcases pickLatestSemver_dotted hvalid with ⟨hnone, hall⟩ | ⟨p, t, hpick, hmax⟩ <;>
    rcases pickLatestSemver_dotted hvalid' with ⟨hnone', hall'⟩ | ⟨p', t', hpick', hmax'⟩
  · simp [SelectedVersion, hnone, hnone']
  · -- a version of the second list is one of the first, which has none
    obtain ⟨z, hz, hzp⟩ := (hsame p').mpr ⟨t', hmax'.mem, hmax'.value⟩
    exact absurd hzp (hall z hz p')
  · obtain ⟨z, hz, hzp⟩ := (hsame p).mp ⟨t, hmax.mem, hmax.value⟩
    exact absurd hzp (hall' z hz p)
  · have hle := hmax.le_of_values hmax' Dotted.unique fun d => (hsame d).mp
    have hge := hmax'.le_of_values hmax Dotted.unique fun d => (hsame d).mpr
    obtain rfl : p = p' := le_antisymm hle hge
    have hone : SelectedVersion tags parts ↔ p = parts := by
      simp only [SelectedVersion, hpick, Option.some.injEq, exists_eq_left']
      exact ⟨fun h => Dotted.unique t p parts hmax.value h, fun h => h ▸ hmax.value⟩
    have hone' : SelectedVersion tags' parts ↔ p = parts := by
      simp only [SelectedVersion, hpick', Option.some.injEq, exists_eq_left']
      exact ⟨fun h => Dotted.unique t' p parts hmax'.value h, fun h => h ▸ hmax'.value⟩
    rw [hone, hone']

/-- **Tag selection picks the true maximum**: nothing if no tag is a version, and otherwise the
first of the greatest versions. The version does not depend on the order of the tags, nor on
repeated tags or tags that are no versions. -/
theorem pickLatestSemver_maximum {tags : List Str}
    (hvalid : ∀ t ∈ tags, Commands.validateTag t = .ok t) :
    (pickLatestSemver tags = none ↔ ∀ t ∈ tags, ∀ parts, ¬ Dotted t parts) ∧
      (∀ t, pickLatestSemver tags = some t ↔ ∃ parts, FirstMax Dotted tags t parts) ∧
      (∀ tags', tags.Perm tags' →
        ∀ parts, SelectedVersion tags parts ↔ SelectedVersion tags' parts) ∧
      ∀ tags', (∀ t ∈ tags', Commands.validateTag t = .ok t) → tags ⊆ tags' →
        (∀ t ∈ tags', t ∈ tags ∨ ∀ parts, ¬ Dotted t parts) →
        ∀ parts, SelectedVersion tags parts ↔ SelectedVersion tags' parts := by
  refine ⟨?_, ?_, ?_, ?_⟩
  · rcases pickLatestSemver_dotted hvalid with ⟨hnone, hall⟩ | ⟨parts, t, hpick, hmax⟩
    · exact iff_of_true hnone hall
    · refine iff_of_false (by simp [hpick]) fun hall => ?_
      exact hall t hmax.mem parts hmax.value
  · intro t
    rcases pickLatestSemver_dotted hvalid with ⟨hnone, hall⟩ | ⟨parts, t', hpick, hmax⟩
    · refine iff_of_false (by simp [hnone]) ?_
      rintro ⟨parts, hmax⟩
      exact hall t hmax.mem parts hmax.value
    · rw [hpick, Option.some.injEq]
      constructor
      · rintro rfl
        exact ⟨parts, hmax⟩
      · rintro ⟨parts', hmax'⟩
        exact hmax.unique hmax' Dotted.unique
  · intro tags' hperm
    refine selectedVersion_congr hvalid (fun t ht => hvalid t (hperm.mem_iff.mpr ht)) ?_
    intro parts
    simp only [hperm.mem_iff]
  · intro tags' hvalid' hsub hmore
    refine selectedVersion_congr hvalid hvalid' fun parts => ⟨?_, ?_⟩
    · rintro ⟨t, ht, hparts⟩
      exact ⟨t, hsub ht, hparts⟩
    · rintro ⟨t, ht, hparts⟩
      rcases hmore t ht with ht | hno
      · exact ⟨t, ht, hparts⟩
      · exact absurd hparts (hno parts)

theorem pickLatestSemver_maximum_three :
    pickLatestSemver ["1.1.9".toList, "latest".toList, "1.1.14".toList] =
        some "1.1.14".toList ∧
      ∃ parts, FirstMax Dotted ["1.1.9".toList, "latest".toList, "1.1.14".toList]
        "1.1.14".toList parts := by
  have hpick : pickLatestSemver ["1.1.9".toList, "latest".toList, "1.1.14".toList] =
      some "1.1.14".toList := by decide +kernel
  exact ⟨hpick, ((pickLatestSemver_maximum (by decide +kernel)).2.1 _).mp hpick⟩

end Rustmote
