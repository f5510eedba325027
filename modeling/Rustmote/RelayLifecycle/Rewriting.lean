import Mathlib.Data.List.Forall2
import Mathlib.Data.List.Nodup
import Rustmote.RelayLifecycle.Rendered

/-!
# What the renderer rewrites

Rendering is meant for whole lines: a line that ends in a pin's `image: <repo>:<tag>` is to get the
pin's digest at its end, every other line is to stay, and a text that is rendered already is to
stay altogether. The renderer does not look at what follows the text it searches for, so it also
rewrites a line with a longer tag, and a line that has its digest.

* `linePinned_iff` — a line comes out as meant exactly when everything that is found on it stands
  at its end.
* `foldl_insertDigest_twice_iff` — rendering again changes nothing exactly when there was nothing
  to be found in the first place: what has been found once is found again.
* `rewriting_iff` — both, for the whole text.
-/

namespace Rustmote

/-- `search` in `render_compose_with_pins`. -/
def ImagePin.search (pin : ImagePin) : Str := imageLine pin.repo pin.tag

/-- `replace` in `render_compose_with_pins`. -/
def ImagePin.replacement (pin : ImagePin) : Str :=
  "image: ".toList ++ Commands.imageRef pin.repo pin.tag pin.digest

theorem search_eq (pin : ImagePin) : pin.search = imageHead pin.repo ++ pin.tag := rfl

theorem replacement_eq (pin : ImagePin) : pin.replacement = pin.search ++ '@' :: pin.digest := by
  have h : pin.replacement = imageHead pin.repo ++ (pin.tag ++ '@' :: pin.digest) :=
    image_imageRef pin.repo pin.tag pin.digest
  rw [h, search_eq, List.append_assoc]

theorem insertDigest_eq (line : Str) (pin : ImagePin) :
    insertDigest line pin = Text.replace pin.search pin.replacement line := by
  unfold insertDigest ImagePin.search ImagePin.replacement
  exact Eq.refl _

theorem search_ne_nil (pin : ImagePin) : pin.search ≠ [] := imageLine_ne_nil _ _

theorem blank_mem_search (pin : ImagePin) : ' ' ∈ pin.search := blank_mem_imageLine _ _

theorem not_mem_search {pin : ImagePin} (hpin : pin.Valid) {c : Char} (hhead : c ∉ imageHead [])
    (hrepo : Commands.isRepoChar c = false) (htag : Commands.isTagChar c = false) :
    c ∉ pin.search := by
  have h₁ : c ∉ pin.repo := Commands.not_mem_of_validRepo hpin.repo hrepo
  have h₂ : c ∉ pin.tag := Commands.not_mem_of_validTag hpin.tag htag
  rw [imageHead_eq] at hhead
  rw [search_eq, imageHead_eq]
  generalize "mage: ".toList = behind at hhead ⊢
  simp only [List.nil_append, List.mem_cons, List.mem_append, List.not_mem_nil, or_false,
    not_or] at hhead ⊢
  exact ⟨⟨hhead.1, hhead.2.1, h₁, hhead.2.2⟩, h₂⟩

theorem at_not_mem_search {pin : ImagePin} (hpin : pin.Valid) : '@' ∉ pin.search :=
  not_mem_search hpin (by decide) (by decide) (by decide)

/-! ### What a pin does to a line -/

theorem le_count_insertDigest {pin : ImagePin} (hpin : pin.Valid) (line : Str) :
    line.count '@' ≤ (insertDigest line pin).count '@' := by
  rw [insertDigest_eq]
  exact Text.le_count_replace (search_ne_nil pin) (at_not_mem_search hpin) line

theorem count_insertDigest_lt {pin : ImagePin} (hpin : pin.Valid) {line : Str}
    (h : pin.search <:+: line) : line.count '@' < (insertDigest line pin).count '@' := by
  have hat : '@' ∈ pin.replacement := by
    rw [replacement_eq]
    simp
  rw [insertDigest_eq]
  exact Text.count_replace_lt (search_ne_nil pin) (at_not_mem_search hpin) hat h

theorem le_count_foldl_insertDigest {pins : List ImagePin} (hpins : ∀ pin ∈ pins, pin.Valid)
    (line : Str) : line.count '@' ≤ (pins.foldl insertDigest line).count '@' := by
  induction pins generalizing line with
  | nil => exact le_rfl
  | cons pin pins ih =>
    obtain ⟨hpin, hpins⟩ := List.forall_mem_cons.mp hpins
    exact (le_count_insertDigest hpin line).trans (ih hpins _)

theorem count_foldl_insertDigest_lt {pins : List ImagePin} (hpins : ∀ pin ∈ pins, pin.Valid)
    {line : Str} (h : ∃ pin ∈ pins, pin.search <:+: line) :
    line.count '@' < (pins.foldl insertDigest line).count '@' := by
  induction pins with
  | nil =>
    obtain ⟨pin, hpin, -⟩ := h
    exact absurd hpin List.not_mem_nil
  | cons q pins ih =>
    obtain ⟨hq, hpins⟩ := List.forall_mem_cons.mp hpins
    rw [List.foldl_cons]
    by_cases hfound : q.search <:+: line
    · exact (count_insertDigest_lt hq hfound).trans_le (le_count_foldl_insertDigest hpins _)
    · rw [insertDigest_eq, Text.replace_of_absent _ (search_ne_nil q) hfound]
      apply ih hpins
      obtain ⟨pin, hpin, hin⟩ := h
      rcases List.mem_cons.mp hpin with rfl | hpin
      · exact absurd hin hfound
      · exact ⟨pin, hpin, hin⟩

/-- The renderer leaves a text as it is exactly when it finds nothing in it. -/
theorem foldl_insertDigest_eq_self_iff {pins : List ImagePin} (hpins : ∀ pin ∈ pins, pin.Valid)
    {line : Str} :
    pins.foldl insertDigest line = line ↔ ∀ pin ∈ pins, ¬ pin.search <:+: line := by
  constructor
  · intro h pin hpin hfound
    have hlt := count_foldl_insertDigest_lt hpins ⟨pin, hpin, hfound⟩
    rw [h] at hlt
    omega
  · exact foldl_insertDigest_of_absent

/-- What was found once is found again. -/
theorem found_insertDigest {q pin : ImagePin} {line : Str} (h : pin.search <:+: line) :
    pin.search <:+: insertDigest line q ∨ q.search <:+: insertDigest line q := by
  by_cases hfound : q.search <:+: line
  · obtain ⟨a, b, -, -, hreplace⟩ :=
      Text.replace_leftmost q.replacement (search_ne_nil q) hfound
    right
    rw [insertDigest_eq, hreplace, replacement_eq]
    exact ⟨a, '@' :: q.digest ++ Text.replace q.search (q.search ++ '@' :: q.digest) b, by simp⟩
  · left
    rwa [insertDigest_eq, Text.replace_of_absent _ (search_ne_nil q) hfound]

theorem found_foldl_insertDigest {pins some : List ImagePin} (hsome : ∀ pin ∈ some, pin ∈ pins)
    {line : Str} (h : ∃ pin ∈ pins, pin.search <:+: line) :
    ∃ pin ∈ pins, pin.search <:+: some.foldl insertDigest line := by
  induction some generalizing line with
  | nil => exact h
  | cons q some ih =>
    obtain ⟨hq, hsome⟩ := List.forall_mem_cons.mp hsome
    obtain ⟨pin, hpin, hfound⟩ := h
    apply ih hsome
    rcases found_insertDigest (q := q) hfound with hagain | hagain
    · exact ⟨pin, hpin, hagain⟩
    · exact ⟨q, hq, hagain⟩

/-- **Rendering again** changes nothing exactly when rendering changed nothing. -/
theorem foldl_insertDigest_twice_iff {pins : List ImagePin} (hpins : ∀ pin ∈ pins, pin.Valid)
    {line : Str} :
    pins.foldl insertDigest (pins.foldl insertDigest line) = pins.foldl insertDigest line ↔
      ∀ pin ∈ pins, ¬ pin.search <:+: line := by
  rw [foldl_insertDigest_eq_self_iff hpins]
  constructor
  · intro h pin hpin hfound
    obtain ⟨p, hp, hagain⟩ := found_foldl_insertDigest (fun _ hmem => hmem) ⟨pin, hpin, hfound⟩
    exact h p hp hagain
  · intro h
    rwa [foldl_insertDigest_of_absent h]

/-! ### A line as it is meant -/

/-- What may follow the last character of a line: nothing, or a carriage return. -/
def EndOfLine (rest : Str) : Prop := rest = [] ∨ rest = ['\r']

theorem EndOfLine.not_mem {rest : Str} (h : EndOfLine rest) {c : Char} (hc : c ≠ '\r') :
    c ∉ rest := by
  rcases h with rfl | rfl
  · exact List.not_mem_nil
  · simpa using hc

theorem EndOfLine.of_suffix {rest behind : Str} (h : EndOfLine rest) (hbehind : behind <:+ rest) :
    EndOfLine behind := by
  rcases h with rfl | rfl
  · exact .inl (List.suffix_nil.mp hbehind)
  · rcases List.suffix_cons_iff.mp hbehind with rfl | hnil
    · exact .inr rfl
    · exact .inl (List.suffix_nil.mp hnil)

/-- **What is to become of a line**: a line whose image value is the repository and tag of a pin
gets the pin's digest behind it, every other line stays. -/
inductive LinePinned (pins : List ImagePin) : Str → Str → Prop where
  | pinned {pin : ImagePin} {before rest : Str} : pin ∈ pins → EndOfLine rest →
    LinePinned pins (before ++ pin.search ++ rest) (before ++ pin.replacement ++ rest)
  | kept {line : Str} :
    (∀ pin ∈ pins, ∀ before rest, EndOfLine rest → line ≠ before ++ pin.search ++ rest) →
    LinePinned pins line line

/-- The repository and the tag of a pin. -/
def ImagePin.image (pin : ImagePin) : Str × Str := (pin.repo, pin.tag)

/-- No image line ends in another. -/
theorem image_eq_of_append_search {p q : ImagePin} (hp : p.Valid) (hq : q.Valid) {a b : Str}
    (h : a ++ p.search = b ++ q.search) : p.image = q.image := by
  have hblank : ∀ {pin : ImagePin}, pin.Valid → ' ' ∉ pin.repo ++ ':' :: pin.tag := by
    intro pin hpin
    simp [blank_not_mem_repo hpin, blank_not_mem_tag hpin]
  have hhead : "mage: ".toList = "mage:".toList ++ [' '] := by decide
  have hsearch : ∀ (x : Str) (pin : ImagePin), x ++ pin.search =
      (x ++ 'i' :: "mage:".toList) ++ ' ' :: (pin.repo ++ ':' :: pin.tag) := by
    intro x pin
    rw [search_eq, imageHead_eq, hhead]
    generalize "mage:".toList = behind
    simp
  rw [hsearch, hsearch] at h
  obtain ⟨-, hvalue⟩ := Text.append_cons_inj_of_not_mem_right (hblank hp) (hblank hq) h
  obtain ⟨hrepo, htag⟩ := Text.append_cons_inj_of_not_mem_left (colon_not_mem_repo hp)
    (colon_not_mem_repo hq) hvalue
  exact Prod.ext hrepo htag

/-- Two digests that are put in at different places do not make the same text. -/
theorem eq_of_replaced {p q : ImagePin} (hp : p.Valid) (hq : q.Valid) {a b before rest : Str}
    (hrest : EndOfLine rest) (hline : a ++ q.search ++ b = before ++ p.search ++ rest)
    (hpinned : a ++ q.replacement ++ b = before ++ p.replacement ++ rest) : b = rest := by
  have hblank : ' ' ∉ '@' :: q.digest := by simp [blank_not_mem_digest hq]
  rw [replacement_eq, replacement_eq] at hpinned
  rcases List.append_eq_append_iff.mp hline with ⟨m, hm, rfl⟩ | ⟨m, hm, rfl⟩
  · -- between the two places there would be a stretch that repeats the digest
    have hmoved : ('@' :: q.digest) ++ m = m ++ '@' :: p.digest := by
      have h : (a ++ q.search) ++ ((('@' :: q.digest) ++ m) ++ rest) =
          (a ++ q.search) ++ ((m ++ '@' :: p.digest) ++ rest) := by
        calc (a ++ q.search) ++ ((('@' :: q.digest) ++ m) ++ rest)
            = a ++ (q.search ++ '@' :: q.digest) ++ (m ++ rest) := by simp
          _ = before ++ (p.search ++ '@' :: p.digest) ++ rest := hpinned
          _ = before ++ p.search ++ ('@' :: p.digest ++ rest) := by simp
          _ = (a ++ q.search) ++ ((m ++ '@' :: p.digest) ++ rest) := by rw [hm]; simp
      exact List.append_cancel_right (List.append_cancel_left h)
    have hsubset := Text.subset_of_append_comm (List.cons_ne_nil _ _) hmoved
    have hsuffix := Text.suffix_of_append_eq hm (blank_mem_search p) fun h => hblank (hsubset h)
    cases m with
    | nil => rfl
    | cons c m =>
      obtain ⟨rfl, -⟩ := List.cons.inj hmoved
      exact absurd (hsuffix.subset List.mem_cons_self) (at_not_mem_search hp)
  · have hmoved : m ++ '@' :: q.digest = ('@' :: p.digest) ++ m := by
      have h : (before ++ p.search) ++ ((m ++ '@' :: q.digest) ++ b) =
          (before ++ p.search) ++ ((('@' :: p.digest) ++ m) ++ b) := by
        calc (before ++ p.search) ++ ((m ++ '@' :: q.digest) ++ b)
            = a ++ q.search ++ ('@' :: q.digest ++ b) := by rw [hm]; simp
          _ = a ++ (q.search ++ '@' :: q.digest) ++ b := by simp
          _ = before ++ (p.search ++ '@' :: p.digest) ++ (m ++ b) := hpinned
          _ = (before ++ p.search) ++ ((('@' :: p.digest) ++ m) ++ b) := by simp
      exact List.append_cancel_right (List.append_cancel_left h)
    cases m with
    | nil => rfl
    | cons c m =>
      obtain ⟨rfl, -⟩ := List.cons.inj hmoved
      exact absurd (List.mem_cons_self) (hrest.not_mem (by decide))

/-- The first pin of the list that is found on a line. -/
theorem exists_first_found {pins : List ImagePin} {line : Str}
    (h : ∃ pin ∈ pins, pin.search <:+: line) :
    ∃ before q behind, pins = before ++ q :: behind ∧ (∀ pin ∈ before, ¬ pin.search <:+: line) ∧
      q.search <:+: line := by
  induction pins with
  | nil =>
    obtain ⟨pin, hpin, -⟩ := h
    exact absurd hpin List.not_mem_nil
  | cons q pins ih =>
    by_cases hfound : q.search <:+: line
    · exact ⟨[], q, pins, rfl, fun _ hmem => absurd hmem List.not_mem_nil, hfound⟩
    · obtain ⟨pin, hpin, hin⟩ := h
      rcases List.mem_cons.mp hpin with rfl | hpin
      · exact absurd hin hfound
      obtain ⟨before, q', behind, rfl, hbefore, hq'⟩ := ih ⟨pin, hpin, hin⟩
      exact ⟨q :: before, q', behind, rfl, List.forall_mem_cons.mpr ⟨hfound, hbefore⟩, hq'⟩

/-- Everything that is found on a line stands at its end. -/
def FoundAtEnd (pins : List ImagePin) (line : Str) : Prop :=
  ∀ pin ∈ pins, ∀ before rest, line = before ++ pin.search ++ rest → EndOfLine rest

/-- A digest that was put in at the end of a line is the only one. -/
theorem not_found_behind {pins : List ImagePin} {q r : ImagePin} (hq : q.Valid) (hr : r.Valid)
    (hmem : r ∈ pins) (hne : r.image ≠ q.image) {a b : Str} (hb : EndOfLine b)
    (hend : FoundAtEnd pins (a ++ q.search ++ b)) : ¬ r.search <:+: a ++ q.replacement ++ b := by
  rintro ⟨a₀, b₀, hfound⟩
  have hblank : ' ' ∉ ('@' :: q.digest) ++ b := by
    simp [blank_not_mem_digest hq, hb.not_mem (show ' ' ≠ '\r' by decide)]
  have hsplit : (a₀ ++ r.search) ++ b₀ = (a ++ q.search) ++ (('@' :: q.digest) ++ b) := by
    rw [hfound, replacement_eq]
    simp
  rcases List.append_eq_append_iff.mp hsplit with ⟨m, hm, rfl⟩ | ⟨m, hm, hrest⟩
  · -- it was there before
    have hends := hend r hmem a₀ (m ++ b) (by rw [hm]; simp)
    cases m with
    | nil =>
      rw [List.append_nil] at hm
      exact hne (image_eq_of_append_search hr hq hm.symm)
    | cons c m =>
      rcases hends with hends | hends
      · cases hends
      · obtain ⟨rfl, hnil⟩ := List.cons.inj hends
        obtain ⟨rfl, rfl⟩ := List.append_eq_nil_iff.mp hnil
        have hsuffix := Text.suffix_of_append_eq hm (blank_mem_search q) (by decide)
        exact not_mem_search hq (by decide) (by decide) (by decide)
          (hsuffix.subset List.mem_cons_self)
  · cases m with
    | nil =>
      rw [List.append_nil] at hm
      exact hne (image_eq_of_append_search hr hq hm)
    | cons c m =>
      -- it would have an `@`
      have hsuffix := Text.suffix_of_append_eq hm (blank_mem_search r) fun h =>
        hblank (by rw [hrest]; exact List.mem_append_left _ h)
      obtain ⟨rfl, -⟩ := List.cons.inj hrest
      exact at_not_mem_search hr (hsuffix.subset List.mem_cons_self)

/-- When one digest more than before is what comes out, then only one was put in. -/
theorem foldl_insertDigest_of_count {q : ImagePin} {behind : List ImagePin} (hq : q.Valid)
    (hbehind : ∀ pin ∈ behind, pin.Valid) {a b : Str}
    (hcount : (behind.foldl insertDigest (a ++ q.replacement ++ insertDigest b q)).count '@' =
      (a ++ q.search ++ b).count '@' + 1) :
    insertDigest b q = b ∧ ∀ pin ∈ behind, ¬ pin.search <:+: a ++ q.replacement ++ b := by
  have hb := le_count_insertDigest hq b
  have hrest := le_count_foldl_insertDigest hbehind (a ++ q.replacement ++ insertDigest b q)
  rw [hcount, replacement_eq] at hrest
  simp only [List.count_append, List.count_cons_self] at hrest
  have hself : insertDigest b q = b := by
    by_contra hne
    have hfound : q.search <:+: b := by
      by_contra hnot
      rw [insertDigest_eq, Text.replace_of_absent _ (search_ne_nil q) hnot] at hne
      exact hne rfl
    have hlt := count_insertDigest_lt hq hfound
    omega
  refine ⟨hself, fun pin hpin hfound => ?_⟩
  rw [hself] at hcount
  have hlt := count_foldl_insertDigest_lt hbehind ⟨pin, hpin, hfound⟩
  rw [hcount, replacement_eq] at hlt
  simp only [List.count_append, List.count_cons_self] at hlt
  omega

/-- The rendering of a line on which something is found: it starts with the first pin that is found,
where that is found first. -/
theorem exists_first_replaced {pins : List ImagePin} {line : Str}
    (h : ∃ pin ∈ pins, pin.search <:+: line) :
    ∃ before q behind a b, pins = before ++ q :: behind ∧ line = a ++ q.search ++ b ∧
      (∀ pin ∈ before, ¬ pin.search <:+: line) ∧
      (∀ a' b', line = a' ++ q.search ++ b' → a.length ≤ a'.length) ∧
      pins.foldl insertDigest line =
        behind.foldl insertDigest (a ++ q.replacement ++ insertDigest b q) := by
  obtain ⟨before, q, behind, rfl, hbefore, hq⟩ := exists_first_found h
  obtain ⟨a, b, hline, hleft, hreplace⟩ :=
    Text.replace_leftmost q.replacement (search_ne_nil q) hq
  refine ⟨before, q, behind, a, b, rfl, hline, hbefore, hleft, ?_⟩
  rw [List.foldl_append, foldl_insertDigest_of_absent hbefore, List.foldl_cons, insertDigest_eq,
    hreplace]
  rfl

/-- A line that comes out as meant and is not the same has a pin at its end. -/
theorem exists_pinned {pins : List ImagePin} {line : Str} (hpins : ∀ pin ∈ pins, pin.Valid)
    (hfound : ∃ pin ∈ pins, pin.search <:+: line)
    (h : LinePinned pins line (pins.foldl insertDigest line)) :
    ∃ p before rest, p ∈ pins ∧ EndOfLine rest ∧ line = before ++ p.search ++ rest ∧
      pins.foldl insertDigest line = before ++ p.replacement ++ rest := by
  have hmore := count_foldl_insertDigest_lt hpins hfound
  generalize pins.foldl insertDigest line = out at h hmore
  cases h with
  | pinned hp hrest => exact ⟨_, _, _, hp, hrest, rfl, rfl⟩
  | kept _ => exact absurd hmore (lt_irrefl _)

/-- On a line that comes out as meant, what is found stands at the end. -/
theorem foundAtEnd_of_linePinned {pins : List ImagePin} (hpins : ∀ pin ∈ pins, pin.Valid)
    {line : Str} (h : LinePinned pins line (pins.foldl insertDigest line)) :
    FoundAtEnd pins line := by
  intro pin hpin a₀ b₀ hin
  have hfound : ∃ pin ∈ pins, pin.search <:+: line := ⟨pin, hpin, a₀, b₀, hin.symm⟩
  obtain ⟨p, before', rest, hp, hrest, hline, hpinned⟩ := exists_pinned hpins hfound h
  obtain ⟨before, q, behind, a, b, rfl, rfl, hbefore, hleft, hfold⟩ := exists_first_replaced hfound
  have hvalid : q.Valid := hpins q (by simp)
  have hbehind : ∀ pin ∈ behind, pin.Valid := fun pin hpin => hpins pin (by simp [hpin])
  -- one digest has come in, so only the first pin was found, and it is the one at the end
  have hcount : (before' ++ p.replacement ++ rest).count '@' =
      (a ++ q.search ++ b).count '@' + 1 := by
    have hdigest : '@' ∉ p.digest := at_not_mem_digest (hpins p hp)
    rw [hline, replacement_eq]
    simp only [List.count_append, List.count_cons_self, List.count_eq_zero_of_not_mem hdigest]
    omega
  rw [← hpinned, hfold] at hcount
  obtain ⟨hself, hnone⟩ := foldl_insertDigest_of_count hvalid hbehind hcount
  rw [hfold, hself, foldl_insertDigest_of_absent hnone] at hpinned
  obtain rfl := eq_of_replaced (hpins p hp) hvalid hrest hline hpinned
  rcases List.append_eq_append_iff.mp hin with ⟨m, -, rfl⟩ | ⟨m, hm, rfl⟩
  · exact hrest.of_suffix (List.suffix_append m b₀)
  · -- what is found further to the left would have gone in too
    have hnil : m = [] := by
      rcases List.mem_append.mp hpin with hmem | hmem
      · exact absurd ⟨a₀, m ++ b, hin.symm⟩ (hbefore pin hmem)
      rcases List.mem_cons.mp hmem with rfl | hmem
      · have hlen := hleft a₀ (m ++ b) hin
        have hsame := congrArg List.length hm
        simp only [List.length_append] at hsame
        exact List.length_eq_zero_iff.mp (by omega)
      · refine absurd ⟨a₀, m ++ '@' :: q.digest ++ b, ?_⟩ (hnone pin hmem)
        rw [replacement_eq, ← List.append_assoc a, hm]
        simp
    rw [hnil]
    exact hrest

/-- A line on which everything that is found stands at the end comes out as meant. -/
theorem linePinned_of_foundAtEnd {pins : List ImagePin} (hpins : ∀ pin ∈ pins, pin.Valid)
    (hnodup : (pins.map ImagePin.image).Nodup) {line : Str} (h : FoundAtEnd pins line) :
    LinePinned pins line (pins.foldl insertDigest line) := by
  by_cases hfound : ∃ pin ∈ pins, pin.search <:+: line
  · obtain ⟨before, q, behind, a, b, rfl, rfl, hbefore, hleft, hfold⟩ :=
      exists_first_replaced hfound
    have hvalid : q.Valid := hpins q (by simp)
    have hbehind : ∀ pin ∈ behind, pin.Valid := fun pin hpin => hpins pin (by simp [hpin])
    have hb : EndOfLine b := h q (by simp) a b rfl
    have hself : insertDigest b q = b :=
      Text.replace_eq_self _ (blank_mem_search q) (hb.not_mem (by decide))
    rw [hfold, hself, foldl_insertDigest_of_absent]
    · exact .pinned (by simp) hb
    · intro r hr
      refine not_found_behind hvalid (hbehind r hr) (by simp [hr]) ?_ hb h
      intro heq
      rw [List.map_append, List.map_cons] at hnodup
      have htail := (List.nodup_cons.mp (List.nodup_append.mp hnodup).2.1).1
      exact htail (List.mem_map.mpr ⟨r, hr, heq⟩)
  · have hnone : ∀ pin ∈ pins, ¬ pin.search <:+: line := fun pin hpin hin =>
      hfound ⟨pin, hpin, hin⟩
    rw [foldl_insertDigest_of_absent hnone]
    refine .kept ?_
    rintro pin hpin before rest - rfl
    exact hnone pin hpin ⟨before, rest, rfl⟩

/-- **When a line comes out as meant.** -/
theorem linePinned_iff {pins : List ImagePin} (hpins : ∀ pin ∈ pins, pin.Valid)
    (hnodup : (pins.map ImagePin.image).Nodup) {line : Str} :
    LinePinned pins line (pins.foldl insertDigest line) ↔ FoundAtEnd pins line :=
  ⟨foundAtEnd_of_linePinned hpins, linePinned_of_foundAtEnd hpins hnodup⟩

/-! ### The whole text -/

theorem freshPins_eq_self {seen : List (Str × Str × Str)} {pins : List ImagePin}
    (hnodup : (pins.map ImagePin.key).Nodup) (hseen : ∀ pin ∈ pins, pin.key ∉ seen) :
    freshPins seen pins = pins := by
  induction pins generalizing seen with
  | nil => rfl
  | cons pin pins ih =>
    rw [List.map_cons, List.nodup_cons] at hnodup
    obtain ⟨hpin, hpins⟩ := List.forall_mem_cons.mp hseen
    rw [ImagePin.key] at hpin
    rw [freshPins, if_neg hpin, ih hnodup.2]
    intro q hq hmem
    rcases List.mem_cons.mp hmem with heq | hmem
    · exact hnodup.1 (List.mem_map.mpr ⟨q, hq, heq⟩)
    · exact hpins q hq hmem

/-- Pins that pass the validators, of different images, all go in. -/
theorem renderComposeWithPins_of_nodup {pins : List ImagePin} (hpins : ∀ pin ∈ pins, pin.Valid)
    (hnodup : (pins.map ImagePin.image).Nodup) (template : Str) :
    renderComposeWithPins template pins = .ok (pins.foldl insertDigest template) := by
  have hkeys : (pins.map ImagePin.key).Nodup := by
    refine List.Nodup.of_map (fun key => (key.1, key.2.1)) ?_
    rw [List.map_map]
    exact hnodup
  rw [renderComposeWithPins_eq_ok_iff, freshPins_eq_self hkeys fun _ _ => List.not_mem_nil]
  exact ⟨hpins, rfl⟩

/-- **Rendering pins exactly the pinned lines.** -/
def PinsLines (pins : List ImagePin) (template : Str) : Prop :=
  ∃ text, renderComposeWithPins template pins = .ok text ∧
    List.Forall₂ (LinePinned pins) (template.splitOn '\n') (text.splitOn '\n')

/-- **Rendering a rendered text again changes nothing.** -/
def PinsOnce (pins : List ImagePin) (template : Str) : Prop :=
  ∃ text, renderComposeWithPins template pins = .ok text ∧
    renderComposeWithPins text pins = .ok text

theorem pinsLines_iff {pins : List ImagePin} (hpins : ∀ pin ∈ pins, pin.Valid)
    (hnodup : (pins.map ImagePin.image).Nodup) {template : Str} :
    PinsLines pins template ↔ ∀ line ∈ template.splitOn '\n', FoundAtEnd pins line := by
  unfold PinsLines
  simp only [renderComposeWithPins_of_nodup hpins hnodup, Except.ok.injEq, exists_eq_left',
    splitOn_foldl_insertDigest hpins, List.forall₂_map_right_iff, List.forall₂_same,
    linePinned_iff hpins hnodup]

theorem pinsOnce_iff {pins : List ImagePin} (hpins : ∀ pin ∈ pins, pin.Valid)
    (hnodup : (pins.map ImagePin.image).Nodup) {template : Str} :
    PinsOnce pins template ↔ ∀ pin ∈ pins, ¬ pin.search <:+: template := by
  unfold PinsOnce
  simp only [renderComposeWithPins_of_nodup hpins hnodup, Except.ok.injEq, exists_eq_left',
    foldl_insertDigest_twice_iff hpins]

/-- **What rendering pins**: exactly the pinned lines when everything it finds stands at the end of
its line; and it does not change its own result when it finds nothing at all. -/
theorem rewriting_iff (pins : List ImagePin) (template : Str) (hpins : ∀ pin ∈ pins, pin.Valid)
    (hnodup : (pins.map ImagePin.image).Nodup) :
    (PinsLines pins template ∧ PinsOnce pins template ↔
      ∀ pin ∈ pins, ¬ pin.search <:+: template) ∧
    (PinsLines pins template ↔ ∀ line ∈ template.splitOn '\n', FoundAtEnd pins line) := by
  refine ⟨?_, pinsLines_iff hpins hnodup⟩
  rw [pinsLines_iff hpins hnodup, pinsOnce_iff hpins hnodup]
  refine and_iff_right_of_imp fun hnone line hline pin hpin before rest hfound => ?_
  have hpart : line <:+: template := Text.infix_of_mem_splitOn hline
  exact absurd (List.IsInfix.trans ⟨before, rest, hfound.symm⟩ hpart) (hnone pin hpin)

/-- A pin of the release `1.1.1`. -/
def shortPin : ImagePin where
  service := "hbbs".toList
  repo := "rustdesk/rustdesk-server".toList
  tag := "1.1.1".toList
  digest := "sha256:".toList ++ List.replicate 64 'a'
  pinnedAt := ⟨0, 0⟩

theorem shortPin_valid : ∀ pin ∈ [shortPin], pin.Valid := by
  intro pin hpin
  obtain rfl := List.mem_singleton.mp hpin
  exact ⟨by decide +kernel, by decide +kernel, by decide +kernel⟩

/-- An image line with the release `1.1.1`. -/
def shortLine : Str := "    image: rustdesk/rustdesk-server:1.1.1".toList

/-- Nothing is found on a line with the release `1.1.0`; a line with the release `1.1.1` is not left
alone the second time. -/
theorem rewriting_short :
    (PinsLines [shortPin] "    image: rustdesk/rustdesk-server:1.1.0".toList ∧
      PinsOnce [shortPin] "    image: rustdesk/rustdesk-server:1.1.0".toList) ∧
    ¬ (PinsLines [shortPin] shortLine ∧ PinsOnce [shortPin] shortLine) := by
  refine ⟨(rewriting_iff [shortPin] _ shortPin_valid (by decide +kernel)).1.mpr
    (by decide +kernel), fun h => ?_⟩
  have hnone := (rewriting_iff [shortPin] _ shortPin_valid (by decide +kernel)).1.mp h
  revert hnone
  decide +kernel

/-- **A longer tag, and a second time**: the release `1.1.11` gets the digest of `1.1.1` in the
middle of its tag, and a line that has its digest gets it once more. -/
theorem longer_tag_rewritten :
    ¬ PinsLines [shortPin] (shortLine ++ ['1']) ∧ ¬ PinsOnce [shortPin] shortLine := by
  constructor
  · intro h
    have hend := (pinsLines_iff shortPin_valid (by decide +kernel)).mp h (shortLine ++ ['1'])
      (by decide +kernel) shortPin List.mem_cons_self "    ".toList ['1'] (by decide +kernel)
    revert hend
    unfold EndOfLine
    decide
  · intro h
    have hnone := (pinsOnce_iff shortPin_valid (by decide +kernel)).mp h
    revert hnone
    decide +kernel

end Rustmote
