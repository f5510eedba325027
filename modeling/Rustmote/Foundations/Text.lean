import Mathlib.Data.List.DropRight
import Mathlib.Data.List.Infix

/-!
# Texts as lists of characters

The string operations of Rust's standard library that the relay code uses, on
lists of characters: prefixes, splitting, lines, trimming, decimal numbers, and
`str::replace`. Each function follows the documented behaviour of the method of
the same name; what is proved is what a text looks like after `replace`, which is
how the compose file is rendered.

* `replace_append_cons` — a separator that the pattern does not contain splits a
  replacement in two, so a text is replaced line by line (`splitOn_replace`).
* `replace_pattern_append`, `replace_append_of_ne_head`, `replace_eq_self` — where a
  match is taken and where there is none; `replace_leftmost` — the first match of a text.
-/

namespace Rustmote

/-- A text: the characters of a Rust `str`, in order. -/
abbrev Str := List Char

/-- A file's or a stream's content. -/
abbrev Bytes := List UInt8

namespace Text

/-- `char::is_whitespace`: the Unicode property `White_Space`. -/
def isWhitespace (c : Char) : Bool :=
  let n := c.toNat
  (9 ≤ n && n ≤ 13) || n = 0x20 || n = 0x85 || n = 0xA0 || n = 0x1680 ||
    (0x2000 ≤ n && n ≤ 0x200A) || n = 0x2028 || n = 0x2029 || n = 0x202F || n = 0x205F ||
    n = 0x3000

/-- `str::trim_end_matches`, for one character. -/
def trimEndMatches (c : Char) (s : Str) : Str := s.rdropWhile (· == c)

/-- `str::trim`. -/
def trim (s : Str) : Str := (s.dropWhile isWhitespace).rdropWhile isWhitespace

/-- `str::trim_matches`, for one character. -/
def trimMatches (c : Char) (s : Str) : Str := (s.dropWhile (· == c)).rdropWhile (· == c)

/-- `str::split_whitespace`. -/
def splitWhitespace (s : Str) : List Str := (s.splitOnP isWhitespace).filter (· ≠ [])

/-- `str::to_lowercase`, of the ASCII letters; the result is only compared with words of
those, and no other letter becomes a letter of these words. -/
def toLowercase (s : Str) : Str := s.map Char.toLower

/-- `str::strip_prefix`. -/
def stripPrefix (pat s : Str) : Option Str :=
  if pat.isPrefixOf s then some (s.drop pat.length) else none

/-- `str::split_once`, for one character: what comes before its first occurrence, and after. -/
def splitOnce (c : Char) : Str → Option (Str × Str)
  | [] => none
  | d :: s => if d = c then some ([], s) else (splitOnce c s).map fun (a, b) => (d :: a, b)

/-- A line without the carriage return that may end it. -/
def stripCarriageReturn (line : Str) : Str :=
  if line.getLast? = some '\r' then line.dropLast else line

/-- `str::lines`: what each line feed ends, without the carriage return before it, and
then what follows the last line feed, if anything does. -/
def lines (s : Str) : List Str :=
  let pieces := s.splitOn '\n'
  pieces.dropLast.map stripCarriageReturn ++ (pieces.getLast?.filter (· ≠ [])).toList

/-- The value of a decimal digit. -/
def digit (c : Char) : Option Nat :=
  if 48 ≤ c.toNat ∧ c.toNat ≤ 57 then some (c.toNat - 48) else none

/-- A nonempty string of decimal digits. -/
def parseDecimal (s : Str) : Option Nat :=
  if s = [] then none
  else s.foldl (fun acc c => do let n ← acc; let d ← digit c; pure (10 * n + d)) (some 0)

/-- `str::parse::<u64>`: digits, with an optional `+`, of a value that fits. -/
def parseU64 (s : Str) : Option Nat :=
  (parseDecimal (match s with | '+' :: t => t | _ => s)).filter (· < 0x10000000000000000)

/-- `str::parse::<i64>`: digits, with an optional sign, of a value that fits. -/
def parseI64 (s : Str) : Option Int :=
  match s with
  | '-' :: t => ((parseDecimal t).filter (· ≤ 0x8000000000000000)).map fun n => -(n : Int)
  | '+' :: t => ((parseDecimal t).filter (· < 0x8000000000000000)).map fun n => (n : Int)
  | _ => ((parseDecimal s).filter (· < 0x8000000000000000)).map fun n => (n : Int)

/-- A natural number in decimal. -/
def decimal (n : Nat) : Str := Nat.toDigits 10 n

/-- A natural number in decimal, with leading zeros up to `w` digits. -/
def padded (w n : Nat) : Str := (decimal n).leftpad w '0'

/-! ### Trimming, and lines -/

/-- A text without such characters at its ends keeps its ends. -/
theorem dropEnds_eq_self (p : Char → Bool) {s : Str} (hhead : ∀ c, s.head? = some c → p c = false)
    (hlast : ∀ c, s.getLast? = some c → p c = false) : (s.dropWhile p).rdropWhile p = s := by
  have hdrop : s.dropWhile p = s := by
    cases s with
    | nil => rfl
    | cons c s => rw [List.dropWhile_cons_of_neg (by simp [hhead c rfl])]
  rw [hdrop, List.rdropWhile_eq_self_iff]
  intro hs
  simp [hlast _ (List.getLast?_eq_some_getLast hs)]

/-- White space around a text is trimmed, and the text stays, when it has none at its ends. -/
theorem trim_append {lead core trail : Str} (hlead : ∀ c ∈ lead, isWhitespace c = true)
    (htrail : ∀ c ∈ trail, isWhitespace c = true) (hne : core ≠ [])
    (hhead : ∀ c, core.head? = some c → isWhitespace c = false)
    (hlast : ∀ c, core.getLast? = some c → isWhitespace c = false) :
    trim (lead ++ (core ++ trail)) = core := by
  have hdrop : (lead ++ (core ++ trail)).dropWhile isWhitespace = core ++ trail := by
    obtain ⟨c, core, rfl⟩ := List.exists_cons_of_ne_nil hne
    rw [List.dropWhile_append_of_pos hlead, List.cons_append,
      List.dropWhile_cons_of_neg (by simp [hhead c rfl])]
  have hrdrop : (core ++ trail).rdropWhile isWhitespace = core.rdropWhile isWhitespace := by
    rw [List.rdropWhile, List.reverse_append,
      List.dropWhile_append_of_pos fun c hc => htrail c (List.mem_reverse.mp hc), List.rdropWhile]
  rw [trim, hdrop, hrdrop, List.rdropWhile_eq_self_iff]
  intro hcore
  simp [hlast _ (List.getLast?_eq_some_getLast hcore)]

theorem trim_eq_nil {s : Str} (h : ∀ c ∈ s, isWhitespace c = true) : trim s = [] := by
  have hdrop : s.dropWhile isWhitespace = [] := List.dropWhile_eq_nil_iff.mpr h
  rw [trim, hdrop]
  rfl

/-- A carriage return at the end of a line is trimmed anyway. -/
theorem trim_stripCarriageReturn (line : Str) : trim (stripCarriageReturn line) = trim line := by
  unfold stripCarriageReturn
  split_ifs with h
  · obtain ⟨line, rfl⟩ := List.getLast?_eq_some_iff.mp h
    have hreturn : isWhitespace '\r' = true := by decide
    rw [List.dropLast_concat, trim, trim, List.dropWhile_append]
    split_ifs with hempty
    · rw [List.isEmpty_iff.mp hempty, List.dropWhile_cons_of_pos hreturn]
      rfl
    · rw [List.rdropWhile_concat_pos _ _ _ hreturn]
  · rfl

/-- A step that takes nothing from an empty line, nor from a carriage return, goes over the pieces
between the line feeds. -/
theorem foldl_lines {β : Type} {f : β → Str → β}
    (hstrip : ∀ b line, f b (stripCarriageReturn line) = f b line) (hnil : ∀ b, f b [] = b)
    (s : Str) (b : β) : (lines s).foldl f b = (s.splitOn '\n').foldl f b := by
  obtain ⟨pieces, last, hpieces⟩ : ∃ pieces last, s.splitOn '\n' = pieces ++ [last] :=
    ⟨_, _, (List.dropLast_concat_getLast (List.splitOn_ne_nil '\n' s)).symm⟩
  have hmap : ∀ (l : List Str) (b : β), (l.map stripCarriageReturn).foldl f b = l.foldl f b := by
    intro l b
    rw [List.foldl_map]
    simp only [hstrip]
  simp only [lines, hpieces, List.dropLast_concat, List.getLast?_concat, List.foldl_append, hmap]
  by_cases hlast : last = []
  · simp [Option.filter, hlast, hnil]
  · simp [Option.filter, hlast]

theorem lines_eq_singleton {s : Str} (h : '\n' ∉ s) (hne : s ≠ []) : lines s = [s] := by
  simp [lines, List.splitOn_eq_singleton h, hne, Option.filter]

/-- The first line of a text, and the other ones. -/
theorem lines_append_cons {a : Str} (ha : '\n' ∉ a) (b : Str) :
    lines (a ++ '\n' :: b) = stripCarriageReturn a :: lines b := by
  obtain ⟨piece, pieces, hb⟩ := List.exists_cons_of_ne_nil (List.splitOn_ne_nil '\n' b)
  simp [lines, List.splitOn_append_cons_self_of_not_mem ha, hb]

/-! ### Two texts with a separator between them -/

/-- A text begins with characters of one kind, and then comes one of another kind, if any. -/
theorem exists_span (p : Char → Bool) (s : Str) :
    ∃ a b, s = a ++ b ∧ (∀ c ∈ a, p c = true) ∧ ∀ c, b.head? = some c → p c = false := by
  induction s with
  | nil => exact ⟨[], [], rfl, fun c hc => absurd hc List.not_mem_nil, fun c hc => nomatch hc⟩
  | cons c s ih =>
    cases hc : p c with
    | true =>
      obtain ⟨a, b, rfl, ha, hb⟩ := ih
      exact ⟨c :: a, b, rfl, List.forall_mem_cons.mpr ⟨hc, ha⟩, hb⟩
    | false =>
      refine ⟨[], c :: s, rfl, fun d hd => absurd hd List.not_mem_nil, fun d hd => ?_⟩
      obtain rfl := Option.some.inj hd
      exact hc

/-- A number is read off its decimal text. -/
theorem decimal_injective {m n : Nat} (h : decimal m = decimal n) : m = n := by
  have hm := Nat.ofDigitChars_toDigits (n := m) (show 1 < 10 by decide) (show 10 ≤ 10 by decide)
  have hn := Nat.ofDigitChars_toDigits (n := n) (show 1 < 10 by decide) (show 10 ≤ 10 by decide)
  rw [← hm, ← hn]
  exact congrArg (Nat.ofDigitChars 10 · 0) h

/-- A decimal text has only digits. -/
theorem isDigit_of_mem_decimal {n : Nat} {c : Char} (h : c ∈ decimal n) : c.isDigit := by
  exact Nat.isDigit_of_mem_toDigits (by decide) (by decide) h

/-- What comes before a text's first separator is split off. -/
theorem splitOnce_append_cons {c : Char} {a b : Str} (ha : c ∉ a) :
    splitOnce c (a ++ c :: b) = some (a, b) := by
  induction a with
  | nil => simp [splitOnce]
  | cons d a ih =>
    have hd : d ≠ c := fun h => ha (by simp [h])
    rw [List.cons_append, splitOnce, if_neg hd, ih fun h => ha (List.mem_cons_of_mem _ h)]
    rfl

/-- A text is split at the first separator: what is before it has none. -/
theorem append_cons_inj_of_not_mem_left {c : Char} {a b a' b' : Str} (ha : c ∉ a) (ha' : c ∉ a')
    (h : a ++ c :: b = a' ++ c :: b') : a = a' ∧ b = b' := by
  have hsplit : splitOnce c (a ++ c :: b) = some (a, b) := splitOnce_append_cons ha
  rw [h, splitOnce_append_cons ha'] at hsplit
  obtain ⟨rfl, rfl⟩ := Prod.mk.inj (Option.some.inj hsplit)
  exact ⟨rfl, rfl⟩

/-- A text is split at the last separator: what is behind it has none. -/
theorem append_cons_inj_of_not_mem_right {c : Char} {a b a' b' : Str} (hb : c ∉ b) (hb' : c ∉ b')
    (h : a ++ c :: b = a' ++ c :: b') : a = a' ∧ b = b' := by
  have hrev : b.reverse ++ c :: a.reverse = b'.reverse ++ c :: a'.reverse := by
    simpa using congrArg List.reverse h
  obtain ⟨h₁, h₂⟩ := append_cons_inj_of_not_mem_left (by simpa using hb) (by simpa using hb') hrev
  exact ⟨List.reverse_injective h₂, List.reverse_injective h₁⟩

/-- What follows a text of which it lacks a character stands at its end. -/
theorem suffix_of_append_eq {a pat x m : Str} {c : Char} (h : a ++ pat = x ++ m) (hc : c ∈ pat)
    (hm : c ∉ m) : m <:+ pat := by
  rcases List.append_eq_append_iff.mp h with ⟨y, -, rfl⟩ | ⟨y, -, rfl⟩
  · exact List.suffix_append y m
  · exact absurd (List.mem_append_right _ hc) hm

/-- A text that a word can be moved across is made of the word's characters. -/
theorem subset_of_append_comm {word word' m : Str} (hword : word ≠ [])
    (h : word ++ m = m ++ word') : m ⊆ word := by
  induction hn : m.length using Nat.strong_induction_on generalizing m with
  | _ n ih =>
    rcases List.append_eq_append_iff.mp h with ⟨y, rfl, hy⟩ | ⟨y, rfl, -⟩
    · have hlen : y.length < n := by
        have := List.length_pos_iff.mpr hword
        simp only [List.length_append] at hn
        omega
      refine List.append_subset.mpr ⟨List.Subset.refl _, ih y.length hlen hy rfl⟩
    · exact List.subset_append_left _ _

theorem infix_intercalate {sep a : Str} {l : List Str} (h : a ∈ l) : a <:+: sep.intercalate l := by
  induction l with
  | nil => exact absurd h List.not_mem_nil
  | cons b l ih =>
    by_cases hl : l = []
    · subst hl
      rw [List.mem_singleton.mp h, List.intercalate_singleton]
    · rw [List.intercalate_cons_of_ne_nil hl]
      rcases List.mem_cons.mp h with rfl | h
      · exact ⟨[], sep ++ sep.intercalate l, by simp⟩
      · exact (ih h).trans (List.suffix_append _ _).isInfix

/-- What a text is split into are parts of it. -/
theorem infix_of_mem_splitOn {c : Char} {a s : Str} (h : a ∈ s.splitOn c) : a <:+: s := by
  have hjoin : [c].intercalate (s.splitOn c) = s := List.intercalate_splitOn c
  rw [← hjoin]
  exact infix_intercalate h

/-! ### Replacing -/

/-- `str::replace` from a position on, after skipping the rest of a match. -/
def replaceFrom (pat rep : Str) : Nat → Str → Str
  | _, [] => []
  | skip + 1, _ :: s => replaceFrom pat rep skip s
  | 0, c :: s =>
    if pat.isPrefixOf (c :: s) then rep ++ replaceFrom pat rep (pat.length - 1) s
    else c :: replaceFrom pat rep 0 s

/-- `str::replace`: every occurrence of the pattern, from left to right and without
overlap. The empty pattern occurs between any two characters. -/
def replace (pat rep s : Str) : Str :=
  match pat with
  | [] => rep ++ s.flatMap fun c => c :: rep
  | _ :: _ => replaceFrom pat rep 0 s

theorem replaceFrom_length_append (pat rep l s : Str) :
    replaceFrom pat rep l.length (l ++ s) = replaceFrom pat rep 0 s := by
  induction l with
  | nil => rfl
  | cons c l ih => exact ih

theorem replace_nil {pat : Str} (rep : Str) (hp : pat ≠ []) : replace pat rep [] = [] := by
  cases pat with
  | nil => exact absurd rfl hp
  | cons p pat => rfl

/-- A match at the front is replaced, and the search goes on behind it. -/
theorem replace_pattern_append {pat : Str} (rep s : Str) (hp : pat ≠ []) :
    replace pat rep (pat ++ s) = rep ++ replace pat rep s := by
  cases pat with
  | nil => exact absurd rfl hp
  | cons p pat =>
    have hpre : (p :: pat).isPrefixOf (p :: (pat ++ s)) = true := by
      rw [List.isPrefixOf_iff_prefix]
      exact List.prefix_append (p :: pat) s
    show replaceFrom (p :: pat) rep 0 (p :: (pat ++ s)) = _
    rw [replaceFrom, if_pos hpre]
    simp only [List.length_cons, Nat.add_sub_cancel]
    rw [replaceFrom_length_append]
    rfl

/-- Where there is no match, the first character stays. -/
theorem replace_cons_of_no_match {pat : Str} (rep : Str) {c : Char} {s : Str} (hp : pat ≠ [])
    (h : ¬ pat <+: c :: s) : replace pat rep (c :: s) = c :: replace pat rep s := by
  cases pat with
  | nil => exact absurd rfl hp
  | cons p pat =>
    show replaceFrom (p :: pat) rep 0 (c :: s) = _
    rw [replaceFrom, if_neg (by rwa [List.isPrefixOf_iff_prefix])]
    rfl

/-- Characters other than the pattern's first are never the start of a match. -/
theorem replace_append_of_ne_head (p : Char) (pat rep : Str) {a : Str} (s : Str) (ha : p ∉ a) :
    replace (p :: pat) rep (a ++ s) = a ++ replace (p :: pat) rep s := by
  induction a with
  | nil => rfl
  | cons c a ih =>
    simp only [List.mem_cons, not_or] at ha
    have hpre : ¬ p :: pat <+: c :: (a ++ s) := fun h => ha.1 (List.cons_prefix_cons.mp h).1
    rw [List.cons_append, replace_cons_of_no_match rep (by simp) hpre, ih ha.2, List.cons_append]

/-- A text that lacks one of the pattern's characters is left as it is. -/
theorem replace_eq_self {pat : Str} (rep : Str) {s : Str} {c : Char} (hc : c ∈ pat) (hs : c ∉ s) :
    replace pat rep s = s := by
  have hp : pat ≠ [] := List.ne_nil_of_mem hc
  induction s with
  | nil => exact replace_nil rep hp
  | cons d s ih =>
    rw [replace_cons_of_no_match rep hp fun h => hs (h.subset hc),
      ih fun h => hs (List.mem_cons_of_mem _ h)]

/-- A prefix that avoids `sep` of a text split at `sep` lies before the split. -/
theorem prefix_of_prefix_append_cons {pat a b : Str} {sep : Char} (hsep : sep ∉ pat)
    (h : pat <+: a ++ sep :: b) : pat <+: a := by
  obtain ⟨t, ht⟩ := h
  rcases List.append_eq_append_iff.mp ht with ⟨m, rfl, -⟩ | ⟨m, rfl, hm⟩
  · exact List.prefix_append pat m
  · cases m with
    | nil => simp
    | cons x m =>
      rw [List.cons_append, List.cons.injEq] at hm
      exact absurd (by simp [hm.1]) hsep

/-- **Replacing goes line by line**: at a separator the pattern does not contain, the
two sides are replaced on their own. -/
theorem replace_append_cons {pat : Str} (rep : Str) (a b : Str) {sep : Char} (hp : pat ≠ [])
    (hsep : sep ∉ pat) :
    replace pat rep (a ++ sep :: b) = replace pat rep a ++ sep :: replace pat rep b := by
  induction hn : a.length using Nat.strong_induction_on generalizing a with
  | _ n ih =>
    by_cases hpre : pat <+: a
    · -- a match at the front: go on behind it
      obtain ⟨t, rfl⟩ := hpre
      have hlen : t.length < n := by
        have := List.length_pos_iff.mpr hp
        simp only [List.length_append] at hn
        omega
      rw [List.append_assoc, replace_pattern_append rep _ hp, ih _ hlen t rfl,
        replace_pattern_append rep _ hp, List.append_assoc]
    · cases a with
      | nil =>
        rw [List.nil_append, replace_nil rep hp, List.nil_append]
        refine replace_cons_of_no_match rep hp fun h => ?_
        exact hpre (prefix_of_prefix_append_cons (a := []) hsep h)
      | cons c a =>
        have h₁ : ¬ pat <+: c :: (a ++ sep :: b) := fun h =>
          hpre (prefix_of_prefix_append_cons (a := c :: a) hsep h)
        rw [List.cons_append, replace_cons_of_no_match rep hp h₁,
          replace_cons_of_no_match rep hp hpre, ih a.length (by simp at hn; omega) a rfl]
        rfl

theorem not_mem_replaceFrom {pat rep : Str} {c : Char} (hrep : c ∉ rep) {s : Str} (hs : c ∉ s)
    (skip : Nat) : c ∉ replaceFrom pat rep skip s := by
  induction s generalizing skip with
  | nil => simp [replaceFrom]
  | cons d s ih =>
    obtain ⟨hd, hs⟩ := not_or.mp (mt List.mem_cons.mpr hs)
    cases skip with
    | succ skip => exact ih hs skip
    | zero =>
      rw [replaceFrom]
      split_ifs
      · exact fun h => (List.mem_append.mp h).elim hrep (ih hs _)
      · exact fun h => (List.mem_cons.mp h).elim hd (ih hs 0)

/-- No character comes from nowhere. -/
theorem not_mem_replace {pat rep s : Str} {c : Char} (hp : pat ≠ []) (hrep : c ∉ rep) (hs : c ∉ s) :
    c ∉ replace pat rep s := by
  cases pat with
  | nil => exact absurd rfl hp
  | cons p pat => exact not_mem_replaceFrom hrep hs 0

/-- A text in which the pattern does not occur is left as it is. -/
theorem replace_of_absent {pat : Str} (rep : Str) {s : Str} (hp : pat ≠ []) (h : ¬ pat <:+: s) :
    replace pat rep s = s := by
  induction s with
  | nil => exact replace_nil rep hp
  | cons c s ih =>
    rw [replace_cons_of_no_match rep hp fun hpre => h hpre.isInfix,
      ih fun hoccurs => h (hoccurs.trans (List.suffix_cons c s).isInfix)]

/-- The search stops at the leftmost match and goes on behind it. -/
theorem replace_leftmost {pat : Str} (rep : Str) {s : Str} (hp : pat ≠ []) (h : pat <:+: s) :
    ∃ a b, s = a ++ pat ++ b ∧ (∀ a' b', s = a' ++ pat ++ b' → a.length ≤ a'.length) ∧
      replace pat rep s = a ++ rep ++ replace pat rep b := by
  induction s with
  | nil => exact absurd (List.infix_nil.mp h) hp
  | cons c s ih =>
    by_cases hpre : pat <+: c :: s
    · obtain ⟨b, hb⟩ := hpre
      refine ⟨[], b, hb.symm, fun _ _ _ => Nat.zero_le _, ?_⟩
      rw [← hb, replace_pattern_append rep b hp, List.nil_append]
    · obtain ⟨a, b, rfl, hleft, hreplace⟩ :=
        ih ((List.infix_cons_iff.mp h).resolve_left hpre)
      refine ⟨c :: a, b, rfl, fun a' b' heq => ?_, ?_⟩
      · cases a' with
        | nil => exact absurd ⟨b', heq.symm⟩ hpre
        | cons d a' =>
          have hlen := hleft a' b' (List.cons.inj heq).2
          simp only [List.length_cons]
          omega
      · rw [replace_cons_of_no_match rep hp hpre, hreplace]
        rfl

/-- A character that the pattern lacks does not get rarer. -/
theorem le_count_replace {pat rep : Str} {c : Char} (hp : pat ≠ []) (hpat : c ∉ pat) (s : Str) :
    s.count c ≤ (replace pat rep s).count c := by
  induction hn : s.length using Nat.strong_induction_on generalizing s with
  | _ n ih =>
    by_cases h : pat <:+: s
    · obtain ⟨a, b, rfl, -, hreplace⟩ := replace_leftmost rep hp h
      have hlen : b.length < n := by
        have := List.length_pos_iff.mpr hp
        simp only [List.length_append] at hn
        omega
      have hb := ih b.length hlen b rfl
      rw [hreplace]
      simp only [List.count_append, List.count_eq_zero_of_not_mem hpat]
      omega
    · rw [replace_of_absent rep hp h]

/-- It gets more frequent where the pattern occurs, when what is put in has it. -/
theorem count_replace_lt {pat rep : Str} {c : Char} (hp : pat ≠ []) (hpat : c ∉ pat)
    (hrep : c ∈ rep) {s : Str} (h : pat <:+: s) : s.count c < (replace pat rep s).count c := by
  obtain ⟨a, b, rfl, -, hreplace⟩ := replace_leftmost rep hp h
  have hb := @le_count_replace pat rep c hp hpat b
  have hpos := List.count_pos_iff.mpr hrep
  rw [hreplace]
  simp only [List.count_append, List.count_eq_zero_of_not_mem hpat]
  omega

/-- **The lines of a replacement** are the lines of the text, each replaced on its own. -/
theorem splitOn_replace {pat rep : Str} {c : Char} (hp : pat ≠ []) (hpat : c ∉ pat) (hrep : c ∉ rep)
    (s : Str) : (replace pat rep s).splitOn c = (s.splitOn c).map (replace pat rep) := by
  induction hn : s.length using Nat.strong_induction_on generalizing s with
  | _ n ih =>
    by_cases hc : c ∈ s
    · obtain ⟨a, b, rfl, ha⟩ := List.eq_append_cons_of_mem hc
      have hlen : b.length < n := by
        simp only [List.length_append, List.length_cons] at hn
        omega
      rw [replace_append_cons rep a b hp hpat,
        List.splitOn_append_cons_self_of_not_mem (not_mem_replace hp hrep ha),
        List.splitOn_append_cons_self_of_not_mem ha, List.map_cons, ih b.length hlen b rfl]
    · rw [List.splitOn_eq_singleton hc, List.splitOn_eq_singleton (not_mem_replace hp hrep hc)]
      rfl

end Text

end Rustmote
