import Mathlib.Data.List.Forall2
import Rustmote.RelayLifecycle.Render

/-!
# What an `os-release` file says

The format first, as `os-release(5)` has it: lines that are blank, comments or assignments, and
values that are bare, double-quoted or single-quoted. A file names its system by its last `ID`, or
else by the first known word of its last `ID_LIKE`, however the values are quoted (`osNamed`).

The parser takes double quotes off and no others. So a single-quoted `ID` is not known to it, and of
a single-quoted `ID_LIKE` it knows only the words that no quote touches. `parseOsRelease_eq` says
what it makes of a file, and `parseOsRelease_iff` when that is what the file says; it always is where
neither value is single-quoted.
-/

namespace Rustmote

/-! ### The format -/

/-- How a value is written. -/
inductive Quoting where
  | bare | double | single
  deriving DecidableEq

/-- An assignment. -/
structure OsAssignment where
  key : Str
  quoting : Quoting
  value : Str

/-- What stands behind a backslash in a double-quoted value: a double quote, a backslash, a dollar
sign or a backtick. -/
def escapedChars : Str := [Shell.doubleQuote, Shell.backslash, '$', Char.ofNat 96]

/-- What stands between double quotes, and the value that it stands for. -/
inductive DoubleQuoted : Str → Str → Prop where
  | nil : DoubleQuoted [] []
  | plain {c : Char} {raw value : Str} : c ∉ escapedChars → DoubleQuoted raw value →
    DoubleQuoted (c :: raw) (c :: value)
  | escaped {c : Char} {raw value : Str} : c ∈ escapedChars → DoubleQuoted raw value →
    DoubleQuoted (Shell.backslash :: c :: raw) (c :: value)

/-- The text of a value, and the value. -/
inductive ValueText : Quoting → Str → Str → Prop where
  | bare {value : Str} : (∀ c ∈ value, Text.isWhitespace c = false) → Shell.singleQuote ∉ value →
    (∀ c ∈ escapedChars, c ∉ value) → ValueText .bare value value
  | double {raw value : Str} : DoubleQuoted raw value →
    ValueText .double (Shell.doubleQuote :: (raw ++ [Shell.doubleQuote])) value
  | single {value : Str} : Shell.singleQuote ∉ value →
    ValueText .single (Shell.singleQuote :: (value ++ [Shell.singleQuote])) value

/-- A name that a value is assigned to. -/
def IsKey (key : Str) : Prop := key ≠ [] ∧ ∀ c ∈ key, c.isAlphanum ∨ c = '_'

/-- The text of a line, and the assignment on it. -/
inductive LineText : Str → Option OsAssignment → Prop where
  | blank {line : Str} : (∀ c ∈ line, Text.isWhitespace c = true) → LineText line none
  | comment {text : Str} : LineText ('#' :: text) none
  | assignment {a : OsAssignment} {text : Str} : IsKey a.key → ValueText a.quoting text a.value →
    LineText (a.key ++ '=' :: text) (some a)

/-- A text is an `os-release` file with these assignments, in this order. -/
def IsOsRelease (raw : Str) (assigned : List OsAssignment) : Prop :=
  ∃ lines, List.Forall₂ LineText (raw.splitOn '\n') lines ∧ lines.flatMap Option.toList = assigned

/-- The last assignment to a name. -/
def lastAssigned (key : Str) (assigned : List OsAssignment) : Option OsAssignment :=
  (assigned.filter (·.key = key)).getLast?

/-- The system that a value names. -/
def OsAssignment.os (a : OsAssignment) : Option OsKind := matchId (Text.toLowercase a.value)

/-- The system that the first known word of a value names. -/
def OsAssignment.firstOs (a : OsAssignment) : Option OsKind :=
  (Text.splitWhitespace (Text.toLowercase a.value)).findSome? matchId

/-- **The system that a file names.** -/
def osNamed (assigned : List OsAssignment) : Option OsKind :=
  ((lastAssigned "ID".toList assigned).bind OsAssignment.os).or
    ((lastAssigned "ID_LIKE".toList assigned).bind OsAssignment.firstOs)

/-! ### Words that are not known -/

theorem matchId_of_mem {s : Str} {c : Char} (h : c ∈ s) (hc : c.isAlpha = false) :
    matchId s = none := by
  have hne : ∀ {name : Str}, name.all Char.isAlpha = true → s ≠ name := by
    rintro name hname rfl
    rw [List.all_eq_true.mp hname c h] at hc
    cases hc
  unfold matchId
  rw [if_neg (hne (by decide)), if_neg (hne (by decide)),
    if_neg (not_or.mpr ⟨hne (by decide), hne (by decide)⟩)]

theorem isAlpha_of_escaped {c : Char} (h : c ∈ escapedChars) : c.isAlpha = false := by
  have hall : escapedChars.all (fun c => !c.isAlpha) = true := by decide
  simpa using List.all_eq_true.mp hall c h

theorem isWhitespace_of_escaped {c : Char} (h : c ∈ escapedChars) :
    Text.isWhitespace c = false := by
  have hall : escapedChars.all (fun c => !Text.isWhitespace c) = true := by decide
  simpa using List.all_eq_true.mp hall c h

theorem toLower_of_escaped {c : Char} (h : c ∈ escapedChars) : c.toLower = c := by
  have hall : escapedChars.all (fun c => c.toLower == c) = true := by decide
  simpa using List.all_eq_true.mp hall c h

/-- The empty pieces between two blanks are no system's name. -/
theorem findSome?_splitWhitespace (s : Str) :
    (Text.splitWhitespace s).findSome? matchId =
      (s.splitOnP Text.isWhitespace).findSome? matchId := by
  rw [Text.splitWhitespace]
  induction s.splitOnP Text.isWhitespace with
  | nil => rfl
  | cons w l ih =>
    by_cases hw : w = []
    · subst hw
      have hnil : matchId [] = none := by decide
      rw [List.filter_cons_of_neg (by simp), ih, List.findSome?_cons, hnil]
    · rw [List.filter_cons_of_pos (by simpa using hw), List.findSome?_cons, List.findSome?_cons, ih]

/-- A text that differs from another only where one of the characters `escapedChars` stands: there
it has one or more of them. -/
inductive Blurred : Str → Str → Prop where
  | nil : Blurred [] []
  | same {c : Char} {s t : Str} : Blurred s t → Blurred (c :: s) (c :: t)
  | strange {c : Char} {x s t : Str} : c ∈ escapedChars → x ≠ [] → (∀ d ∈ x, d ∈ escapedChars) →
    Blurred s t → Blurred (c :: s) (x ++ t)

theorem Blurred.toLowercase {s t : Str} (h : Blurred s t) :
    Blurred (Text.toLowercase s) (Text.toLowercase t) := by
  induction h with
  | nil => exact .nil
  | same _ ih => exact .same ih
  | @strange c x s t hc hx hall _ ih =>
    have hself : x.map Char.toLower = x := by
      rw [List.map_congr_left fun d hd => toLower_of_escaped (hall d hd), List.map_id']
    show Blurred (c.toLower :: Text.toLowercase s) ((x ++ t).map Char.toLower)
    rw [toLower_of_escaped hc, List.map_append, hself]
    exact .strange hc hx hall ih

theorem Blurred.eq_or {s t : Str} (h : Blurred s t) :
    s = t ∨ (∃ c ∈ s, c ∈ escapedChars) ∧ ∃ c ∈ t, c ∈ escapedChars := by
  induction h with
  | nil => exact .inl rfl
  | same _ ih =>
    rcases ih with rfl | ⟨⟨c, hc, hin⟩, d, hd, hin'⟩
    · exact .inl rfl
    · exact .inr ⟨⟨c, List.mem_cons_of_mem _ hc, hin⟩, d, List.mem_cons_of_mem _ hd, hin'⟩
  | @strange c x s t hc hx hall _ _ =>
    obtain ⟨d, x, rfl⟩ := List.exists_cons_of_ne_nil hx
    exact .inr ⟨⟨c, List.mem_cons_self, hc⟩, d, List.mem_cons_self,
      hall d List.mem_cons_self⟩

theorem Blurred.matchId_eq {s t : Str} (h : Blurred s t) : matchId s = matchId t := by
  rcases h.eq_or with rfl | ⟨⟨c, hc, hin⟩, d, hd, hin'⟩
  · rfl
  · rw [matchId_of_mem hc (isAlpha_of_escaped hin), matchId_of_mem hd (isAlpha_of_escaped hin')]

theorem splitOnP_append_of_forall {p : Char → Bool} {x : Str} (hx : ∀ c ∈ x, p c = false)
    (s : Str) : (x ++ s).splitOnP p = (s.splitOnP p).modifyHead (x ++ ·) := by
  induction x with
  | nil =>
    show s.splitOnP p = (s.splitOnP p).modifyHead fun w => w
    cases s.splitOnP p with
    | nil => rfl
    | cons w l => rfl
  | cons c x ih =>
    obtain ⟨hc, hx⟩ := List.forall_mem_cons.mp hx
    rw [List.cons_append, List.splitOnP_cons_eq_if_modifyHead, if_neg (by simp [hc]), ih hx,
      List.modifyHead_modifyHead]
    rfl

/-- Their words differ likewise. -/
theorem Blurred.splitOnP {s t : Str} (h : Blurred s t) :
    List.Forall₂ Blurred (s.splitOnP Text.isWhitespace) (t.splitOnP Text.isWhitespace) := by
  induction h with
  | nil => exact .cons .nil .nil
  | @same c s t _ ih =>
    rw [List.splitOnP_cons_eq_if_modifyHead, List.splitOnP_cons_eq_if_modifyHead]
    generalize s.splitOnP Text.isWhitespace = l, t.splitOnP Text.isWhitespace = l' at ih
    split_ifs
    · exact .cons .nil ih
    · cases ih with
      | nil => exact .nil
      | cons hw ih => exact .cons (.same hw) ih
  | @strange c x s t hc hx hall _ ih =>
    rw [List.splitOnP_cons_eq_if_modifyHead, if_neg (by simp [isWhitespace_of_escaped hc]),
      splitOnP_append_of_forall fun d hd => isWhitespace_of_escaped (hall d hd)]
    generalize s.splitOnP Text.isWhitespace = l, t.splitOnP Text.isWhitespace = l' at ih
    cases ih with
    | nil => exact .nil
    | cons hw ih => exact .cons (.strange hc hx hall hw) ih

theorem findSome?_of_forall₂ {l l' : List Str} (h : List.Forall₂ Blurred l l') :
    l.findSome? matchId = l'.findSome? matchId := by
  induction h with
  | nil => rfl
  | cons hw _ ih => rw [List.findSome?_cons, List.findSome?_cons, hw.matchId_eq, ih]

/-! ### Taking off the quotes -/

theorem rdropWhile_cons (p : Char → Bool) (c : Char) (s : Str) :
    (c :: s).rdropWhile p =
      if s.rdropWhile p = [] ∧ p c = true then [] else c :: s.rdropWhile p := by
  induction s using List.reverseRecOn with
  | nil => simp [List.rdropWhile_singleton]
  | append_singleton s d ih =>
    rw [← List.cons_append]
    by_cases hd : p d
    · rw [List.rdropWhile_concat_pos p _ d hd, List.rdropWhile_concat_pos p _ d hd, ih]
    · rw [List.rdropWhile_concat_neg p _ d hd, List.rdropWhile_concat_neg p _ d hd]
      simp

/-- The escapes of a double-quoted value do not touch its words, nor does it matter that the last
of them loses its quote. -/
theorem DoubleQuoted.blurred {raw value : Str} (h : DoubleQuoted raw value) :
    Blurred value (raw.rdropWhile (· == Shell.doubleQuote)) := by
  induction h with
  | nil => exact .nil
  | @plain c raw value hc _ ih =>
    have hne : c ≠ Shell.doubleQuote := by
      rintro rfl
      exact hc List.mem_cons_self
    rw [rdropWhile_cons, if_neg (by simp [hne])]
    exact .same ih
  | @escaped c raw value hc _ ih =>
    have hback : Shell.backslash ∈ escapedChars := by decide
    rw [rdropWhile_cons, if_neg fun h => absurd h.2 (by decide), rdropWhile_cons]
    split_ifs with hlast
    · rw [hlast.1] at ih
      exact .strange (x := [Shell.backslash]) hc (List.cons_ne_nil _ _)
        (List.forall_mem_singleton.mpr hback) ih
    · exact .strange (x := [Shell.backslash, c]) hc (List.cons_ne_nil _ _)
        (List.forall_mem_cons.mpr ⟨hback, List.forall_mem_singleton.mpr hc⟩) ih

theorem DoubleQuoted.head?_ne {raw value : Str} (h : DoubleQuoted raw value) :
    raw.head? ≠ some Shell.doubleQuote := by
  cases h with
  | nil => simp
  | plain hc _ =>
    rw [List.head?_cons]
    intro heq
    rw [Option.some.inj heq] at hc
    exact hc List.mem_cons_self
  | escaped _ _ =>
    rw [List.head?_cons]
    decide

/-- Of a double-quoted value, the quotes go, and one more behind a last backslash. -/
theorem trimMatches_doubleQuoted {raw value : Str} (h : DoubleQuoted raw value) :
    Text.trimMatches Shell.doubleQuote (Shell.doubleQuote :: (raw ++ [Shell.doubleQuote])) =
      raw.rdropWhile (· == Shell.doubleQuote) := by
  rw [Text.trimMatches, List.dropWhile_cons_of_pos (by decide)]
  cases raw with
  | nil => rfl
  | cons c raw =>
    have hne : c ≠ Shell.doubleQuote := fun heq => h.head?_ne (by rw [heq]; rfl)
    rw [List.cons_append, List.dropWhile_cons_of_neg (by simp [hne]), ← List.cons_append,
      List.rdropWhile_concat_pos _ _ _ (by decide)]

theorem trimMatches_of_ends {s : Str} (hhead : s.head? ≠ some Shell.doubleQuote)
    (hlast : s.getLast? ≠ some Shell.doubleQuote) :
    Text.trimMatches Shell.doubleQuote s = s := by
  refine Text.dropEnds_eq_self _ (fun c hc => ?_) (fun c hc => ?_)
  · rw [hc, ne_eq, Option.some.injEq] at hhead
    simpa using hhead
  · rw [hc, ne_eq, Option.some.injEq] at hlast
    simpa using hlast

/-- What the parser has of a value. -/
def ReadAs (s : Str) (a : OsAssignment) : Prop :=
  ∃ text, ValueText a.quoting text a.value ∧
    s = Text.toLowercase (Text.trimMatches Shell.doubleQuote text)

/-- The system that the parser has from a value. -/
def OsAssignment.osRead (a : OsAssignment) : Option OsKind :=
  if a.quoting = .single then none else a.os

/-- The words of a value. -/
def OsAssignment.words (a : OsAssignment) : List Str :=
  Text.splitWhitespace (Text.toLowercase a.value)

/-- The words that no quote touches: of a single-quoted value, those with a blank on either side. -/
def OsAssignment.untouched (a : OsAssignment) : List Str :=
  match a.quoting with
  | .single => ((Text.toLowercase a.value).splitOnP Text.isWhitespace).tail.dropLast
  | _ => a.words

/-- The system that the parser has from the words of a value. -/
def OsAssignment.firstRead (a : OsAssignment) : Option OsKind := a.untouched.findSome? matchId

theorem OsAssignment.untouched_eq_words {a : OsAssignment} (h : a.quoting ≠ .single) :
    a.untouched = a.words := by
  unfold OsAssignment.untouched
  split
  · next hsingle => exact absurd hsingle h
  · rfl

theorem splitOnP_concat {p : Char → Bool} {q : Char} (hq : p q = false) (s : Str) :
    ∃ l w, s.splitOnP p = l ++ [w] ∧ (s ++ [q]).splitOnP p = l ++ [w ++ [q]] := by
  induction s with
  | nil => exact ⟨[], [], by simp, by simp [List.splitOnP_cons_eq_if_modifyHead, hq]⟩
  | cons c s ih =>
    obtain ⟨l, w, hs, hsq⟩ := ih
    rw [List.cons_append, List.splitOnP_cons_eq_if_modifyHead,
      List.splitOnP_cons_eq_if_modifyHead, hs, hsq]
    split_ifs
    · exact ⟨[] :: l, w, rfl, rfl⟩
    · cases l with
      | nil => exact ⟨[], c :: w, rfl, rfl⟩
      | cons v l => exact ⟨(c :: v) :: l, w, rfl, rfl⟩

/-- A word with a quote at it is not known. -/
theorem findSome?_single (s : Str) :
    ((Shell.singleQuote :: (s ++ [Shell.singleQuote])).splitOnP Text.isWhitespace).findSome?
        matchId =
      ((s.splitOnP Text.isWhitespace).tail.dropLast).findSome? matchId := by
  have hquote : Text.isWhitespace Shell.singleQuote = false := by decide
  have hnone : ∀ {w : Str}, Shell.singleQuote ∈ w → matchId w = none := fun h =>
    matchId_of_mem h (by decide)
  obtain ⟨l, w, hs, hsq⟩ := splitOnP_concat hquote s
  rw [List.splitOnP_cons_eq_if_modifyHead, if_neg (by simp [hquote]), hs, hsq]
  cases l with
  | nil => simp [hnone]
  | cons v l => simp [hnone]

/-- Where the first and the last character of a value's text are no double quotes, they stay. -/
theorem trimMatches_bare {value : Str} (h : ∀ c ∈ escapedChars, c ∉ value) :
    Text.trimMatches Shell.doubleQuote value = value := by
  have hquote : Shell.doubleQuote ∉ value := h _ List.mem_cons_self
  exact trimMatches_of_ends (fun h => hquote (List.mem_of_head? h))
    (fun h => hquote (List.mem_of_getLast? h))

theorem trimMatches_single (value : Str) :
    Text.trimMatches Shell.doubleQuote (Shell.singleQuote :: (value ++ [Shell.singleQuote])) =
      Shell.singleQuote :: (value ++ [Shell.singleQuote]) := by
  refine trimMatches_of_ends (by rw [List.head?_cons]; decide) ?_
  rw [← List.cons_append, List.getLast?_concat]
  decide

theorem toLowercase_single (value : Str) :
    Text.toLowercase (Shell.singleQuote :: (value ++ [Shell.singleQuote])) =
      Shell.singleQuote :: (Text.toLowercase value ++ [Shell.singleQuote]) := by
  have hself : Shell.singleQuote.toLower = Shell.singleQuote := by decide
  simp [Text.toLowercase, hself]

theorem ReadAs.matchId_eq {s : Str} {a : OsAssignment} (h : ReadAs s a) :
    matchId s = a.osRead := by
  obtain ⟨text, htext, rfl⟩ := h
  obtain ⟨key, quoting, value⟩ := a
  rw [OsAssignment.osRead, OsAssignment.os]
  cases htext with
  | bare _ _ hescaped => rw [if_neg (by simp), trimMatches_bare hescaped]
  | double hraw =>
    rw [if_neg (by simp), trimMatches_doubleQuoted hraw]
    exact hraw.blurred.toLowercase.matchId_eq.symm
  | single _ =>
    rw [if_pos rfl, trimMatches_single, toLowercase_single]
    exact matchId_of_mem List.mem_cons_self (by decide)

theorem ReadAs.findSome?_eq {s : Str} {a : OsAssignment} (h : ReadAs s a) :
    (Text.splitWhitespace s).findSome? matchId = a.firstRead := by
  obtain ⟨text, htext, rfl⟩ := h
  obtain ⟨key, quoting, value⟩ := a
  rw [findSome?_splitWhitespace, OsAssignment.firstRead]
  cases htext with
  | bare _ _ hescaped =>
    rw [OsAssignment.untouched_eq_words (by simp), OsAssignment.words, findSome?_splitWhitespace,
      trimMatches_bare hescaped]
  | double hraw =>
    rw [OsAssignment.untouched_eq_words (by simp), OsAssignment.words, findSome?_splitWhitespace,
      trimMatches_doubleQuoted hraw]
    exact (findSome?_of_forall₂ hraw.blurred.toLowercase.splitOnP).symm
  | single _ =>
    rw [trimMatches_single, toLowercase_single]
    exact findSome?_single _

/-! ### One line -/

/-- The step of the loop of `parse_os_release`. -/
def osStep (ids : Option Str × Option Str) (line : Str) : Option Str × Option Str :=
  match Text.stripPrefix "ID=".toList (Text.trim line) with
  | some rest => (some (Text.toLowercase (Text.trimMatches Shell.doubleQuote rest)), ids.2)
  | none =>
    match Text.stripPrefix "ID_LIKE=".toList (Text.trim line) with
    | some rest => (ids.1, some (Text.toLowercase (Text.trimMatches Shell.doubleQuote rest)))
    | none => ids

theorem osReleaseIds_eq (raw : Str) :
    osReleaseIds raw = (raw.splitOn '\n').foldl osStep (none, none) := by
  have hlines : osReleaseIds raw = (Text.lines raw).foldl osStep (none, none) := rfl
  rw [hlines]
  refine Text.foldl_lines (fun ids line => ?_) (fun ids => rfl) raw _
  rw [osStep, osStep, Text.trim_stripCarriageReturn]

/-- An assignment's line starts with the name that is looked for, or it does not. -/
theorem stripPrefix_assignment {name key : Str} (hname : '=' ∉ name) (hkey : '=' ∉ key)
    (text : Str) : Text.stripPrefix (name ++ ['=']) (key ++ '=' :: text) =
      if key = name then some text else none := by
  rw [Text.stripPrefix]
  split_ifs with hpre heq heq
  · have hjoin : name ++ '=' :: text = (name ++ ['=']) ++ text := by simp
    rw [heq, hjoin, List.drop_left]
  · rw [List.isPrefixOf_iff_prefix] at hpre
    obtain ⟨rest, hrest⟩ := hpre
    rw [List.append_assoc, List.singleton_append] at hrest
    exact absurd (Text.append_cons_inj_of_not_mem_left hname hkey hrest).1.symm heq
  · refine absurd ?_ hpre
    rw [List.isPrefixOf_iff_prefix, heq]
    exact ⟨text, by simp⟩
  · rfl

theorem isWhitespace_of_isAlphanum {c : Char} (h : c.isAlphanum = true) :
    Text.isWhitespace c = false := by
  have hrange : 48 ≤ c.toNat ∧ c.toNat ≤ 122 := by
    rcases Bool.or_eq_true_iff.mp h with halpha | hdigit
    · rcases Bool.or_eq_true_iff.mp halpha with hupper | hlower
      · obtain ⟨hfrom, hto⟩ : 'A'.val ≤ c.val ∧ c.val ≤ 'Z'.val := of_decide_eq_true hupper
        have hfrom : 65 ≤ c.toNat := UInt32.le_iff_toNat_le.mp hfrom
        have hto : c.toNat ≤ 90 := UInt32.le_iff_toNat_le.mp hto
        omega
      · obtain ⟨hfrom, hto⟩ := Bool.and_eq_true_iff.mp hlower
        have hfrom : 97 ≤ c.toNat := UInt32.le_iff_toNat_le.mp (of_decide_eq_true hfrom)
        have hto : c.toNat ≤ 122 := UInt32.le_iff_toNat_le.mp (of_decide_eq_true hto)
        omega
    · obtain ⟨hfrom, hto⟩ := Bool.and_eq_true_iff.mp hdigit
      have hfrom : 48 ≤ c.toNat := UInt32.le_iff_toNat_le.mp (of_decide_eq_true hfrom)
      have hto : c.toNat ≤ 57 := UInt32.le_iff_toNat_le.mp (of_decide_eq_true hto)
      omega
  simp only [Text.isWhitespace, Bool.or_eq_false_iff, Bool.and_eq_false_iff,
    decide_eq_false_iff_not]
  omega

/-- A line that does not begin as the name does is not one of its assignments. -/
theorem stripPrefix_trim_eq_none {c : Char} {name line : Str}
    (h : ∀ rest, Text.trim line ≠ c :: rest) :
    Text.stripPrefix (c :: name) (Text.trim line) = none := by
  rw [Text.stripPrefix, if_neg]
  intro hpre
  obtain ⟨rest, hrest⟩ := List.isPrefixOf_iff_prefix.mp hpre
  exact h (name ++ rest) hrest.symm

theorem osStep_of_head {ids : Option Str × Option Str} {line : Str}
    (h : ∀ rest, Text.trim line ≠ 'I' :: rest) : osStep ids line = ids := by
  have hid : Text.stripPrefix "ID=".toList (Text.trim line) = none := stripPrefix_trim_eq_none h
  have hlike : Text.stripPrefix "ID_LIKE=".toList (Text.trim line) = none :=
    stripPrefix_trim_eq_none h
  rw [osStep, hid, hlike]

theorem isWhitespace_of_key {key : Str} (h : IsKey key) :
    ∀ c ∈ key, Text.isWhitespace c = false := by
  intro c hc
  rcases h.2 c hc with halnum | rfl
  · exact isWhitespace_of_isAlphanum halnum
  · decide

theorem not_mem_of_key {key : Str} (h : IsKey key) : '=' ∉ key := by
  intro hmem
  rcases h.2 _ hmem with heq | heq
  · revert heq
    decide
  · revert heq
    decide

theorem ValueText.getLast? {quoting : Quoting} {text value : Str}
    (h : ValueText quoting text value) :
    ∀ c, text.getLast? = some c → Text.isWhitespace c = false := by
  intro c hc
  cases h with
  | bare hblank _ _ => exact hblank c (List.mem_of_getLast? hc)
  | double _ =>
    rw [← List.cons_append, List.getLast?_concat, Option.some.injEq] at hc
    rw [← hc]
    decide
  | single _ =>
    rw [← List.cons_append, List.getLast?_concat, Option.some.injEq] at hc
    rw [← hc]
    decide

/-- An assignment has no blanks around it. -/
theorem trim_assignment {quoting : Quoting} {key text value : Str} (hkey : IsKey key)
    (htext : ValueText quoting text value) :
    Text.trim (key ++ '=' :: text) = key ++ '=' :: text := by
  refine Text.dropEnds_eq_self _ (fun c hc => ?_) (fun c hc => ?_)
  · rw [List.head?_append_of_ne_nil _ hkey.1] at hc
    exact isWhitespace_of_key hkey c (List.mem_of_head? hc)
  · cases text with
    | nil =>
      rw [List.getLast?_concat, Option.some.injEq] at hc
      rw [← hc]
      decide
    | cons d text =>
      refine htext.getLast? c ?_
      rw [← hc, List.getLast?_append_of_ne_nil _ (List.cons_ne_nil _ _), List.getLast?_cons_cons]

/-- The parser has the last assignments to the two names. -/
def HasIds (ids : Option Str × Option Str) (assigned : List OsAssignment) : Prop :=
  Option.Rel ReadAs ids.1 (lastAssigned "ID".toList assigned) ∧
    Option.Rel ReadAs ids.2 (lastAssigned "ID_LIKE".toList assigned)

theorem lastAssigned_concat (key : Str) (assigned : List OsAssignment) (a : OsAssignment) :
    lastAssigned key (assigned ++ [a]) =
      if a.key = key then some a else lastAssigned key assigned := by
  rw [lastAssigned, List.filter_append]
  split_ifs with h
  · rw [List.filter_cons_of_pos (by simpa using h), List.filter_nil, List.getLast?_concat]
  · rw [List.filter_cons_of_neg (by simpa using h), List.filter_nil, List.append_nil]
    rfl

/-- **One line**. -/
theorem HasIds.step {ids : Option Str × Option Str} {assigned : List OsAssignment} {line : Str}
    {found : Option OsAssignment} (h : HasIds ids assigned) (hline : LineText line found) :
    HasIds (osStep ids line) (assigned ++ found.toList) := by
  cases hline with
  | blank hblank =>
    have htrim : Text.trim line = [] := by
      have hdrop : line.dropWhile Text.isWhitespace = [] := List.dropWhile_eq_nil_iff.mpr hblank
      rw [Text.trim, hdrop]
      rfl
    rw [osStep_of_head (by simp [htrim]), Option.toList_none, List.append_nil]
    exact h
  | @comment text =>
    have hhead : ∀ rest, Text.trim ('#' :: text) ≠ 'I' :: rest := by
      intro rest heq
      rw [Text.trim, List.dropWhile_cons_of_neg (by decide)] at heq
      obtain ⟨behind, hbehind⟩ := List.rdropWhile_prefix Text.isWhitespace ('#' :: text)
      rw [heq] at hbehind
      exact absurd (List.cons.inj hbehind).1 (by decide)
    rw [osStep_of_head hhead, Option.toList_none, List.append_nil]
    exact h
  | @assignment a text hkey htext =>
    have hreads : ReadAs (Text.toLowercase (Text.trimMatches Shell.doubleQuote text)) a :=
      ⟨text, htext, rfl⟩
    have hid : Text.stripPrefix "ID=".toList (a.key ++ '=' :: text) =
        if a.key = "ID".toList then some text else none :=
      stripPrefix_assignment (show '=' ∉ "ID".toList by decide) (not_mem_of_key hkey) text
    have hlike : Text.stripPrefix "ID_LIKE=".toList (a.key ++ '=' :: text) =
        if a.key = "ID_LIKE".toList then some text else none :=
      stripPrefix_assignment (show '=' ∉ "ID_LIKE".toList by decide) (not_mem_of_key hkey) text
    have hne : "ID".toList ≠ "ID_LIKE".toList := by decide
    rw [osStep, trim_assignment hkey htext, hid, hlike, Option.toList_some]
    unfold HasIds
    rw [lastAssigned_concat, lastAssigned_concat]
    by_cases h₁ : a.key = "ID".toList
    · have h₂ : a.key ≠ "ID_LIKE".toList := by rwa [h₁]
      rw [if_pos h₁, if_pos h₁, if_neg h₂, if_neg h₂]
      exact ⟨.some hreads, h.2⟩
    · rw [if_neg h₁, if_neg h₁]
      by_cases h₂ : a.key = "ID_LIKE".toList
      · rw [if_pos h₂, if_pos h₂]
        exact ⟨h.1, .some hreads⟩
      · rw [if_neg h₂, if_neg h₂]
        exact h

/-- **All lines**. -/
theorem HasIds.foldl {pieces : List Str} {lines : List (Option OsAssignment)}
    (hlines : List.Forall₂ LineText pieces lines) {ids : Option Str × Option Str}
    {assigned : List OsAssignment} (h : HasIds ids assigned) :
    HasIds (pieces.foldl osStep ids) (assigned ++ lines.flatMap Option.toList) := by
  induction hlines generalizing ids assigned with
  | nil =>
    rw [List.flatMap_nil, List.append_nil]
    exact h
  | cons hline _ ih =>
    rw [List.foldl_cons, List.flatMap_cons, ← List.append_assoc]
    exact ih (h.step hline)

/-! ### The whole file -/

theorem bind_eq_of_rel {α β γ : Type} {R : α → β → Prop} {f : α → Option γ} {g : β → Option γ}
    {o : Option α} {o' : Option β} (h : Option.Rel R o o') (heq : ∀ a b, R a b → f a = g b) :
    o.bind f = o'.bind g := by
  cases h with
  | none => rfl
  | some hab => exact heq _ _ hab

/-- **What the parser makes of a file.** -/
theorem parseOsRelease_eq {raw : Str} {assigned : List OsAssignment}
    (h : IsOsRelease raw assigned) :
    parseOsRelease raw =
      ((lastAssigned "ID".toList assigned).bind OsAssignment.osRead).or
        ((lastAssigned "ID_LIKE".toList assigned).bind OsAssignment.firstRead) := by
  obtain ⟨lines, hlines, rfl⟩ := h
  have hstart : HasIds (none, none) [] := ⟨.none, .none⟩
  have hhas := hstart.foldl hlines
  rw [List.nil_append, ← osReleaseIds_eq] at hhas
  show ((osReleaseIds raw).1.bind matchId).or
    ((osReleaseIds raw).2.bind fun s => (Text.splitWhitespace s).findSome? matchId) = _
  rw [bind_eq_of_rel hhas.1 fun _ _ hreads => hreads.matchId_eq,
    bind_eq_of_rel hhas.2 fun _ _ hreads => hreads.findSome?_eq]

/-- The first of the words that is known names this system. -/
def FirstKnown (words : List Str) (os : OsKind) : Prop :=
  ∃ unknown w rest, words = unknown ++ w :: rest ∧ (∀ v ∈ unknown, matchId v = none) ∧
    matchId w = some os

theorem findSome?_eq_some_iff {words : List Str} {os : OsKind} :
    words.findSome? matchId = some os ↔ FirstKnown words os := by
  rw [List.findSome?_eq_some_iff]
  constructor
  · rintro ⟨unknown, w, rest, hwords, hos, hnone⟩
    exact ⟨unknown, w, rest, hwords, hnone, hos⟩
  · rintro ⟨unknown, w, rest, hwords, hnone, hos⟩
    exact ⟨unknown, w, rest, hwords, hos, hnone⟩

/-- The quotes of a value like `ID_LIKE` make no difference: it is not single-quoted, or the first
known of the words between others names the same system as the first known word. -/
def OsAssignment.WordsSpared (a : OsAssignment) : Prop :=
  a.quoting ≠ .single ∨ ∀ os, FirstKnown a.untouched os ↔ FirstKnown a.words os

/-- The quotes of the two values make no difference. Where `ID` names a system, it is not
single-quoted, or the first known word of `ID_LIKE` that no quote touches names the same system;
where it names none, or there is none, the words of `ID_LIKE` decide. -/
def QuotesHarmless (assigned : List OsAssignment) : Prop :=
  let id := lastAssigned "ID".toList assigned
  let idLike := lastAssigned "ID_LIKE".toList assigned
  match id.bind OsAssignment.os with
  | some os =>
    (∀ a, id = some a → a.quoting ≠ .single) ∨ ∃ a, idLike = some a ∧ FirstKnown a.untouched os
  | none => ∀ a, idLike = some a → a.WordsSpared

/-- The words of a value give the same system when they are read. -/
theorem firstRead_eq_firstOs_iff {a : OsAssignment} : a.firstRead = a.firstOs ↔ a.WordsSpared := by
  have hwords : a.firstOs = a.words.findSome? matchId := rfl
  constructor
  · intro h
    refine .inr fun os => ?_
    rw [← findSome?_eq_some_iff, ← findSome?_eq_some_iff, ← hwords, ← h]
    rfl
  · rintro (hquoting | hsame)
    · rw [hwords, OsAssignment.firstRead, OsAssignment.untouched_eq_words hquoting]
    · refine Option.ext fun os => ?_
      rw [hwords, OsAssignment.firstRead, findSome?_eq_some_iff, findSome?_eq_some_iff]
      exact hsame os

/-- What the parser makes of the last values is what the file says, exactly where the quotes do no
harm. -/
theorem read_eq_osNamed_iff {assigned : List OsAssignment} :
    ((lastAssigned "ID".toList assigned).bind OsAssignment.osRead).or
        ((lastAssigned "ID_LIKE".toList assigned).bind OsAssignment.firstRead) =
      osNamed assigned ↔ QuotesHarmless assigned := by
  rw [osNamed, QuotesHarmless]
  generalize lastAssigned "ID_LIKE".toList assigned = like
  have hlike : like.bind OsAssignment.firstRead = like.bind OsAssignment.firstOs ↔
      ∀ a, like = some a → a.WordsSpared := by
    cases like with
    | none => simp
    | some a => simp [firstRead_eq_firstOs_iff]
  have hread : ∀ os, like.bind OsAssignment.firstRead = some os ↔
      ∃ a, like = some a ∧ FirstKnown a.untouched os := by
    intro os
    simp only [Option.bind_eq_some_iff, OsAssignment.firstRead, findSome?_eq_some_iff]
  cases lastAssigned "ID".toList assigned with
  | none => simpa using hlike
  | some a =>
    simp only [Option.bind_some, OsAssignment.osRead, Option.some.injEq, forall_eq']
    cases a.os with
    | none => simpa using hlike
    | some os =>
      split_ifs with hquoting
      · simpa [hquoting] using hread os
      · simp [hquoting]

/-- **When the parser finds the system that a file names.** -/
theorem parseOsRelease_iff {raw : Str} {assigned : List OsAssignment}
    (h : IsOsRelease raw assigned) :
    parseOsRelease raw = osNamed assigned ↔ QuotesHarmless assigned := by
  rw [parseOsRelease_eq h]
  exact read_eq_osNamed_iff

/-- Where neither of the two values is single-quoted, it does. -/
theorem parseOsRelease_of_not_single {raw : Str} {assigned : List OsAssignment}
    (h : IsOsRelease raw assigned)
    (hid : ∀ a, lastAssigned "ID".toList assigned = some a → a.quoting ≠ .single)
    (hlike : ∀ a, lastAssigned "ID_LIKE".toList assigned = some a → a.quoting ≠ .single) :
    parseOsRelease raw = osNamed assigned := by
  rw [parseOsRelease_eq h]
  refine read_eq_osNamed_iff.mpr ?_
  simp only [QuotesHarmless]
  split
  · exact .inl hid
  · exact fun a ha => .inl (hlike a ha)

theorem isKey_of_all {key : Str} (h : key ≠ [] ∧ key.all fun c => c.isAlphanum || c = '_') :
    IsKey key := by
  refine ⟨h.1, fun c hc => ?_⟩
  simpa using List.all_eq_true.mp h.2 c hc

theorem bare_of_all {value : Str} (h : value.all (fun c =>
    !Text.isWhitespace c && c != Shell.singleQuote && !escapedChars.contains c) = true) :
    ValueText .bare value value := by
  have hc : ∀ c ∈ value, Text.isWhitespace c = false ∧ c ≠ Shell.singleQuote ∧
      c ∉ escapedChars := by
    intro c hc
    simpa [and_assoc] using List.all_eq_true.mp h c hc
  exact .bare (fun c h => (hc c h).1) (fun h => (hc _ h).2.1 rfl) fun c h h' => (hc c h').2.2 h

/-- A value between single quotes. -/
def singleQuoted (value : Str) : Str := Shell.singleQuote :: (value ++ [Shell.singleQuote])

/-- The name of a system, in single quotes. -/
def quotedId : OsAssignment := ⟨"ID".toList, .single, "debian".toList⟩

/-- The same without quotes. -/
def bareId : OsAssignment := ⟨"ID".toList, .bare, "debian".toList⟩

/-- What a derivative is like, in single quotes. -/
def quotedLike : OsAssignment := ⟨"ID_LIKE".toList, .single, "rhel debian fedora".toList⟩

/-- A file of that line, behind a comment. -/
def derivativeFile : Str :=
  '#' :: " a derivative".toList ++ '\n' :: (quotedLike.key ++ '=' :: singleQuoted quotedLike.value)

/-- Of the words that it is like, the one in the middle is known all the same. -/
theorem parseOsRelease_derivative : parseOsRelease derivativeFile = osNamed [quotedLike] := by
  have hsplit : derivativeFile.splitOn '\n' =
      ['#' :: " a derivative".toList, quotedLike.key ++ '=' :: singleQuoted quotedLike.value] := by
    decide +kernel
  have hline : LineText (quotedLike.key ++ '=' :: singleQuoted quotedLike.value)
      (some quotedLike) :=
    .assignment (isKey_of_all (by decide)) (.single (by decide))
  have hfile : IsOsRelease derivativeFile [quotedLike] := by
    refine ⟨[none, some quotedLike], ?_, rfl⟩
    rw [hsplit]
    exact .cons .comment (.cons hline .nil)
  refine (parseOsRelease_iff hfile).mpr ?_
  have hnone : lastAssigned "ID".toList [quotedLike] = none := by decide
  have hsome : lastAssigned "ID_LIKE".toList [quotedLike] = some quotedLike := by
    simp [lastAssigned, quotedLike]
  simp only [QuotesHarmless, hnone, Option.bind_none, hsome, Option.some.injEq, forall_eq']
  exact firstRead_eq_firstOs_iff.mp (by decide +kernel)

/-- **Quotes that are not taken off**: a system that is named in single quotes is not known. -/
theorem single_quotes_stay :
    IsOsRelease (quotedId.key ++ '=' :: singleQuoted quotedId.value) [quotedId] ∧
      parseOsRelease (quotedId.key ++ '=' :: singleQuoted quotedId.value) ≠ osNamed [quotedId] ∧
      IsOsRelease (bareId.key ++ '=' :: bareId.value) [bareId] ∧
      parseOsRelease (bareId.key ++ '=' :: bareId.value) = osNamed [quotedId] := by
  have hkey : IsKey "ID".toList := isKey_of_all (by decide)
  refine ⟨⟨[some quotedId], ?_, rfl⟩, by decide +kernel, ⟨[some bareId], ?_, rfl⟩,
    by decide +kernel⟩
  · rw [List.splitOn_eq_singleton (by decide)]
    exact .cons (.assignment hkey (.single (by decide))) .nil
  · rw [List.splitOn_eq_singleton (by decide)]
    exact .cons (.assignment hkey (bare_of_all (by decide))) .nil

end Rustmote
