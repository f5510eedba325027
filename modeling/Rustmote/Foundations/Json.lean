import Rustmote.Foundations.SortedMap
import Rustmote.Foundations.Text

/-!
# JSON

The values of JSON, its grammar, and a reader.

`Derives` is the grammar of RFC 8259: which texts are a value, a list of elements, a list of
members. The members of an object are put into a sorted map one after the other, so the last one
with a name stays. `read` is a reader of the grammar, which takes the longest number it can, and
steps down a list of elements or members with a bound that the text's length meets. It is exact:

* `sound` — what it reads derives from the grammar.
* `complete` — what derives from the grammar is read, whatever stands behind it.
* `read_eq_some_iff` — so it reads the texts of the grammar, and each as its value.

A number is its text, and no number is out of range.
-/

namespace Rustmote

/-- `serde_json::Value`. -/
inductive JsonValue where
  | null
  | bool (b : Bool)
  | number (text : Str)
  | string (s : Str)
  | array (items : List JsonValue)
  | object (fields : List (Str × JsonValue))

namespace JsonValue

mutual

/-- Whether two values are the same, as a test that computes. -/
def beq : JsonValue → JsonValue → Bool
  | .null, .null => true
  | .bool a, .bool b => decide (a = b)
  | .number a, .number b => decide (a = b)
  | .string a, .string b => decide (a = b)
  | .array a, .array b => beqItems a b
  | .object a, .object b => beqFields a b
  | _, _ => false

/-- Item by item. -/
def beqItems : List JsonValue → List JsonValue → Bool
  | [], [] => true
  | a :: as, b :: bs => beq a b && beqItems as bs
  | _, _ => false

/-- Field by field. -/
def beqFields : List (Str × JsonValue) → List (Str × JsonValue) → Bool
  | [], [] => true
  | (k, a) :: as, (l, b) :: bs => decide (k = l) && beq a b && beqFields as bs
  | _, _ => false

end

mutual

theorem eq_of_beq : ∀ {a b : JsonValue}, beq a b = true → a = b
  | .null, b, h => by cases b <;> first | rfl | cases h
  | .bool a, b, h => by cases b <;> first | cases h | simpa [beq] using h
  | .number a, b, h => by cases b <;> simp_all [beq]
  | .string a, b, h => by cases b <;> simp_all [beq]
  | .array a, b, h => by
    cases b with
    | array b => exact congrArg _ (eq_of_beqItems (by simpa [beq] using h))
    | _ => simp [beq] at h
  | .object a, b, h => by
    cases b with
    | object b => exact congrArg _ (eq_of_beqFields (by simpa [beq] using h))
    | _ => simp [beq] at h

theorem eq_of_beqItems : ∀ {as bs : List JsonValue}, beqItems as bs = true → as = bs
  | [], [], _ => rfl
  | a :: as, b :: bs, h => by
    simp only [beqItems, Bool.and_eq_true] at h
    rw [eq_of_beq h.1, eq_of_beqItems h.2]
  | [], _ :: _, h => by simp [beqItems] at h
  | _ :: _, [], h => by simp [beqItems] at h

theorem eq_of_beqFields : ∀ {as bs : List (Str × JsonValue)}, beqFields as bs = true → as = bs
  | [], [], _ => rfl
  | (k, a) :: as, (l, b) :: bs, h => by
    simp only [beqFields, Bool.and_eq_true, decide_eq_true_eq] at h
    rw [h.1.1, eq_of_beq h.1.2, eq_of_beqFields h.2]
  | [], _ :: _, h => by simp [beqFields] at h
  | _ :: _, [], h => by simp [beqFields] at h

end

end JsonValue

namespace Json

/-! ### The grammar -/

/-- White space. -/
def isWs (c : Char) : Bool := c = ' ' || c = '\t' || c = '\n' || c = '\r'

/-- `ws`. -/
def Ws (s : Str) : Prop := ∀ c ∈ s, isWs c = true

/-- A character that stands for itself in a string. -/
def isPlain (c : Char) : Bool := c ≠ '"' && c ≠ '\\' && 0x20 ≤ c.toNat

/-- What stands behind a backslash for a character. -/
def shortEscape : Char → Option Char
  | '"' => some '"'
  | '\\' => some '\\'
  | '/' => some '/'
  | 'b' => some (Char.ofNat 8)
  | 'f' => some (Char.ofNat 12)
  | 'n' => some '\n'
  | 'r' => some '\r'
  | 't' => some '\t'
  | _ => none

/-- The value of a hex digit. -/
def hexDigit (c : Char) : Option Nat :=
  if c.isDigit then some (c.toNat - 48)
  else if 'a' ≤ c ∧ c ≤ 'f' then some (c.toNat - 87)
  else if 'A' ≤ c ∧ c ≤ 'F' then some (c.toNat - 55)
  else none

/-- The value of four hex digits. -/
def quad : Str → Option Nat
  | [a, b, c, d] => do
    let a ← hexDigit a
    let b ← hexDigit b
    let c ← hexDigit c
    let d ← hexDigit d
    return ((a * 16 + b) * 16 + c) * 16 + d
  | _ => none

/-- The code point of two surrogates. -/
def surrogates (m n : Nat) : Nat := 0x10000 + (m - 0xD800) * 0x400 + (n - 0xDC00)

/-- `char`: how a character of a string is written. -/
inductive Piece : Str → Char → Prop where
  | plain {c : Char} (h : isPlain c = true) : Piece [c] c
  | short {e c : Char} (h : shortEscape e = some c) : Piece ['\\', e] c
  | code {q : Str} {n : Nat} (h : quad q = some n) (hn : n < 0xD800 ∨ 0xDFFF < n) :
      Piece ('\\' :: 'u' :: q) (Char.ofNat n)
  | pair {q r : Str} {m n : Nat} (hq : quad q = some m) (hr : quad r = some n)
      (hm : 0xD800 ≤ m ∧ m < 0xDC00) (hn : 0xDC00 ≤ n ∧ n ≤ 0xDFFF) :
      Piece ('\\' :: 'u' :: (q ++ '\\' :: 'u' :: r)) (Char.ofNat (surrogates m n))

/-- The characters of a string. -/
inductive Pieces : Str → Str → Prop where
  | nil : Pieces [] []
  | cons {u s t : Str} {c : Char} (h : Piece u c) (hrest : Pieces s t) : Pieces (u ++ s) (c :: t)

/-- One digit or more. -/
def isDigits (s : Str) : Bool := s ≠ [] && s.all Char.isDigit

/-- `exp`, or nothing. -/
def isExponent : Str → Bool
  | [] => true
  | e :: '+' :: s => (e = 'e' || e = 'E') && isDigits s
  | e :: '-' :: s => (e = 'e' || e = 'E') && isDigits s
  | e :: s => (e = 'e' || e = 'E') && isDigits s

/-- `frac`, or nothing, before an exponent. -/
def isFraction : Str → Bool
  | '.' :: s => s.takeWhile Char.isDigit ≠ [] && isExponent (s.dropWhile Char.isDigit)
  | s => isExponent s

/-- A character of a number. -/
def isNumberChar (c : Char) : Bool :=
  c.isDigit || c = '-' || c = '+' || c = '.' || c = 'e' || c = 'E'

/-- A number without its sign. -/
def unsigned : Str → Str
  | '-' :: s => s
  | s => s

/-- `int`. -/
def isInt (s : Str) : Bool := s = ['0'] || (s ≠ [] && s.head? ≠ some '0')

/-- `number`. -/
def isNumber (s : Str) : Bool :=
  s.all isNumberChar && isInt ((unsigned s).takeWhile Char.isDigit) &&
    isFraction ((unsigned s).dropWhile Char.isDigit)

/-- The map of an object with these members. -/
def objectOf (members : List (Str × JsonValue)) : List (Str × JsonValue) :=
  members.foldl (fun fields m => BTreeMap.insertEntry m.1 m.2 fields) []

/-- What a text is. -/
inductive Node where
  /-- `value`. -/
  | value (v : JsonValue)
  /-- `value *( value-separator value )`. -/
  | elements (vs : List JsonValue)
  /-- `member *( value-separator member )`. -/
  | members (ms : List (Str × JsonValue))

/-- **The grammar.** White space stands around elements, names and values of members, and belongs
to their lists. -/
inductive Derives : Node → Str → Prop where
  | null : Derives (.value .null) "null".toList
  | yes : Derives (.value (.bool true)) "true".toList
  | no : Derives (.value (.bool false)) "false".toList
  | number {s : Str} (h : isNumber s = true) : Derives (.value (.number s)) s
  | string {s t : Str} (h : Pieces s t) : Derives (.value (.string t)) ('"' :: (s ++ ['"']))
  | emptyArray {w : Str} (hw : Ws w) : Derives (.value (.array [])) ('[' :: (w ++ [']']))
  | array {vs : List JsonValue} {s : Str} (h : Derives (.elements vs) s) :
      Derives (.value (.array vs)) ('[' :: (s ++ [']']))
  | emptyObject {w : Str} (hw : Ws w) : Derives (.value (.object [])) ('{' :: (w ++ ['}']))
  | object {ms : List (Str × JsonValue)} {s : Str} (h : Derives (.members ms) s) :
      Derives (.value (.object (objectOf ms))) ('{' :: (s ++ ['}']))
  | element {v : JsonValue} {w s w' : Str} (hw : Ws w) (h : Derives (.value v) s) (hw' : Ws w') :
      Derives (.elements [v]) (w ++ (s ++ w'))
  | elements {v : JsonValue} {vs : List JsonValue} {w s w' rest : Str} (hw : Ws w)
      (h : Derives (.value v) s) (hw' : Ws w') (hrest : Derives (.elements vs) rest) :
      Derives (.elements (v :: vs)) (w ++ (s ++ (w' ++ ',' :: rest)))
  | member {key : Str} {v : JsonValue} {w k w₁ w₂ s w' : Str} (hw : Ws w) (hkey : Pieces k key)
      (hw₁ : Ws w₁) (hw₂ : Ws w₂) (h : Derives (.value v) s) (hw' : Ws w') :
      Derives (.members [(key, v)])
        (w ++ '"' :: (k ++ '"' :: (w₁ ++ ':' :: (w₂ ++ (s ++ w')))))
  | members {key : Str} {v : JsonValue} {ms : List (Str × JsonValue)} {w k w₁ w₂ s w' rest : Str}
      (hw : Ws w) (hkey : Pieces k key) (hw₁ : Ws w₁) (hw₂ : Ws w₂) (h : Derives (.value v) s)
      (hw' : Ws w') (hrest : Derives (.members ms) rest) :
      Derives (.members ((key, v) :: ms))
        (w ++ '"' :: (k ++ '"' :: (w₁ ++ ':' :: (w₂ ++ (s ++ (w' ++ ',' :: rest))))))

/-- `JSON-text`: a value with white space around it. -/
def JsonText (s : Str) (v : JsonValue) : Prop :=
  ∃ w text w', Ws w ∧ Derives (.value v) text ∧ Ws w' ∧ s = w ++ (text ++ w')

/-! ### The reader -/

/-- The text behind its white space. -/
def skipWs (s : Str) : Str := s.dropWhile isWs

/-- A character of a string, and the text behind it. -/
def piece : Str → Option (Char × Str)
  | '\\' :: 'u' :: s => do
    let m ← quad (s.take 4)
    if m < 0xD800 ∨ 0xDFFF < m then some (Char.ofNat m, s.drop 4)
    else
      match s.drop 4 with
      | '\\' :: 'u' :: t => do
        let n ← quad (t.take 4)
        if m < 0xDC00 ∧ 0xDC00 ≤ n ∧ n ≤ 0xDFFF then
          some (Char.ofNat (surrogates m n), t.drop 4)
        else none
      | _ => none
  | '\\' :: e :: s => (shortEscape e).map fun c => (c, s)
  | c :: s => if isPlain c then some (c, s) else none
  | [] => none

/-- A string behind its first quote, and the text behind its last one. -/
def pieces : Nat → Str → Option (Str × Str)
  | 0, _ => none
  | _ + 1, '"' :: rest => some ([], rest)
  | n + 1, s => do
    let (c, s) ← piece s
    let (t, rest) ← pieces n s
    return (c :: t, rest)

/-- `null`, `true`, `false` or a number, and the text behind it. -/
def scalar (s : Str) : Option (JsonValue × Str) :=
  if "null".toList.isPrefixOf s then some (.null, s.drop 4)
  else if "true".toList.isPrefixOf s then some (.bool true, s.drop 4)
  else if "false".toList.isPrefixOf s then some (.bool false, s.drop 5)
  else if isNumber (s.takeWhile isNumberChar) then
    some (.number (s.takeWhile isNumberChar), s.dropWhile isNumberChar)
  else none

mutual

/-- A value, and the text behind it. -/
def value : Nat → Str → Option (JsonValue × Str)
  | 0, _ => none
  | n + 1, s =>
    match s with
    | '"' :: t => (pieces t.length t).map fun (x, rest) => (.string x, rest)
    | '[' :: t =>
      match skipWs t with
      | ']' :: rest => some (.array [], rest)
      | _ => (elements n t).map fun (vs, rest) => (.array vs, rest)
    | '{' :: t =>
      match skipWs t with
      | '}' :: rest => some (.object [], rest)
      | _ => (members n t).map fun (ms, rest) => (.object (objectOf ms), rest)
    | _ => scalar s

/-- Elements, and the text behind the bracket that closes them. -/
def elements : Nat → Str → Option (List JsonValue × Str)
  | 0, _ => none
  | n + 1, s => do
    let (v, s) ← value n (skipWs s)
    match skipWs s with
    | ',' :: s => do
      let (vs, rest) ← elements n s
      return (v :: vs, rest)
    | ']' :: rest => return ([v], rest)
    | _ => none

/-- Members, and the text behind the brace that closes them. -/
def members : Nat → Str → Option (List (Str × JsonValue) × Str)
  | 0, _ => none
  | n + 1, s =>
    match skipWs s with
    | '"' :: s => do
      let (key, s) ← pieces s.length s
      match skipWs s with
      | ':' :: s => do
        let (v, s) ← value n (skipWs s)
        match skipWs s with
        | ',' :: s => do
          let (ms, rest) ← members n s
          return ((key, v) :: ms, rest)
        | '}' :: rest => return ([(key, v)], rest)
        | _ => none
      | _ => none
    | _ => none

end

/-- A text that is one value. -/
def read (s : Str) : Option JsonValue := do
  let (v, rest) ← value s.length (skipWs s)
  if skipWs rest = [] then some v else none

/-! ### White space and strings -/

theorem skipWs_spec (s : Str) : ∃ w, Ws w ∧ s = w ++ skipWs s :=
  ⟨s.takeWhile isWs, fun _ hc => List.mem_takeWhile_imp hc, List.takeWhile_append_dropWhile.symm⟩

theorem skipWs_append {w s : Str} (hw : Ws w) (hs : ∀ c, s.head? = some c → isWs c = false) :
    skipWs (w ++ s) = s := by
  rw [skipWs, List.dropWhile_append_of_pos hw]
  cases s with
  | nil => rfl
  | cons c s => exact List.dropWhile_cons_of_neg (Bool.eq_false_iff.mp (hs c rfl))

theorem skipWs_eq_nil {w : Str} (hw : Ws w) : skipWs w = [] := by
  have h := skipWs_append (s := []) hw fun c hc => nomatch hc
  rwa [List.append_nil] at h

theorem length_of_quad {q : Str} {n : Nat} (h : quad q = some n) : q.length = 4 := by
  unfold quad at h
  split at h
  · rfl
  · cases h

theorem ne_of_isPlain {c : Char} (h : isPlain c = true) : c ≠ '"' ∧ c ≠ '\\' := by
  rw [isPlain, Bool.and_eq_true, Bool.and_eq_true, decide_eq_true_eq, decide_eq_true_eq] at h
  exact h.1

theorem piece_sound {s rest : Str} {c : Char} (h : piece s = some (c, rest)) :
    ∃ u, s = u ++ rest ∧ Piece u c := by
  unfold piece at h
  split at h
  · next s =>
    obtain ⟨m, hm, h⟩ := Option.bind_eq_some_iff.mp h
    have hs : s = s.take 4 ++ s.drop 4 := (List.take_append_drop 4 s).symm
    split at h
    · next hcode =>
      obtain ⟨rfl, rfl⟩ := Prod.mk.inj (Option.some.inj h)
      exact ⟨'\\' :: 'u' :: s.take 4, by simp, .code hm hcode⟩
    · next hcode =>
      split at h
      · next t hdrop =>
        obtain ⟨n, hn, h⟩ := Option.bind_eq_some_iff.mp h
        split at h
        · next hpair =>
          obtain ⟨rfl, rfl⟩ := Prod.mk.inj (Option.some.inj h)
          have ht : t = t.take 4 ++ t.drop 4 := (List.take_append_drop 4 t).symm
          refine ⟨'\\' :: 'u' :: (s.take 4 ++ '\\' :: 'u' :: t.take 4), ?_,
            .pair hm hn ⟨by omega, hpair.1⟩ hpair.2⟩
          rw [hdrop] at hs
          conv_lhs => rw [hs, ht]
          simp
        · cases h
      · cases h
  · next e s _ =>
    obtain ⟨c', hc, heq⟩ := Option.map_eq_some_iff.mp h
    obtain ⟨rfl, rfl⟩ := Prod.mk.inj heq
    exact ⟨['\\', e], rfl, .short hc⟩
  · next c' s _ _ =>
    split at h
    · next hplain =>
      obtain ⟨rfl, rfl⟩ := Prod.mk.inj (Option.some.inj h)
      exact ⟨[c'], rfl, .plain hplain⟩
    · cases h
  · cases h

theorem piece_complete {u : Str} {c : Char} (h : Piece u c) (rest : Str) :
    piece (u ++ rest) = some (c, rest) := by
  cases h with
  | plain h =>
    obtain ⟨hquote, hback⟩ := ne_of_isPlain h
    rw [List.singleton_append]
    unfold piece
    split
    · next heq => exact absurd (List.cons.inj heq).1 hback
    · next heq => exact absurd (List.cons.inj heq).1 hback
    · next heq =>
      obtain ⟨rfl, rfl⟩ := List.cons.inj heq
      rw [if_pos h]
    · next heq => cases heq
  | @short e c h =>
    have he : e ≠ 'u' := by
      rintro rfl
      cases h
    show piece ('\\' :: e :: rest) = _
    unfold piece
    split
    · next heq => exact absurd (List.cons.inj (List.cons.inj heq).2).1 he
    · next heq =>
      obtain ⟨rfl, rfl⟩ := List.cons.inj (List.cons.inj heq).2
      rw [h]
      rfl
    · next hnot heq =>
      obtain ⟨rfl, rfl⟩ := List.cons.inj heq
      exact absurd rfl (hnot e rest rfl)
    · next heq => cases heq
  | code h hn =>
    have hlength := length_of_quad h
    simp only [List.cons_append, piece, List.take_left' hlength, List.drop_left' hlength, h,
      Option.bind_eq_bind, Option.bind_some]
    rw [if_pos hn]
  | pair hq hr hm hn =>
    have hlength := length_of_quad hq
    have hlength' := length_of_quad hr
    simp only [List.cons_append, List.append_assoc, piece, List.take_left' hlength,
      List.drop_left' hlength, hq, Option.bind_eq_bind, Option.bind_some,
      List.take_left' hlength', List.drop_left' hlength', hr]
    rw [if_neg (by omega), if_pos ⟨hm.2, hn⟩]

/-- A piece begins with a character that does not end a string. -/
theorem Piece.head {u : Str} {c : Char} (h : Piece u c) : ∃ a u', u = a :: u' ∧ a ≠ '"' := by
  cases h with
  | plain h => exact ⟨_, _, rfl, (ne_of_isPlain h).1⟩
  | short => exact ⟨_, _, rfl, by decide⟩
  | code => exact ⟨_, _, rfl, by decide⟩
  | pair => exact ⟨_, _, rfl, by decide⟩

theorem pieces_sound {n : Nat} {s t rest : Str} (h : pieces n s = some (t, rest)) :
    ∃ u, s = u ++ '"' :: rest ∧ Pieces u t := by
  induction n generalizing s t with
  | zero => cases h
  | succ n ih =>
    unfold pieces at h
    split at h
    · next heq => cases heq
    · next heq =>
      obtain ⟨rfl, rfl⟩ := Prod.mk.inj (Option.some.inj h)
      exact ⟨[], rfl, .nil⟩
    · next n' heq _ =>
      obtain rfl := Nat.succ.inj heq
      obtain ⟨⟨c, s₁⟩, hpiece, h⟩ := Option.bind_eq_some_iff.mp h
      obtain ⟨⟨t', rest'⟩, hrest, h⟩ := Option.bind_eq_some_iff.mp h
      obtain ⟨rfl, rfl⟩ := Prod.mk.inj (Option.some.inj h)
      obtain ⟨u, rfl, hu⟩ := piece_sound hpiece
      obtain ⟨u', rfl, hu'⟩ := ih hrest
      exact ⟨u ++ u', (List.append_assoc _ _ _).symm, .cons hu hu'⟩

theorem pieces_complete {u t : Str} (h : Pieces u t) {n : Nat} (hn : u.length < n) (rest : Str) :
    pieces n (u ++ '"' :: rest) = some (t, rest) := by
  induction h generalizing n with
  | nil =>
    obtain ⟨n, rfl⟩ := Nat.exists_eq_add_one.mpr (Nat.zero_lt_of_lt hn)
    rfl
  | @cons u s t c hpiece _ ih =>
    obtain ⟨a, u', rfl, ha⟩ := hpiece.head
    obtain ⟨n, rfl⟩ := Nat.exists_eq_add_one.mpr (Nat.zero_lt_of_lt hn)
    have hn' : s.length < n := by
      simp only [List.length_append, List.length_cons] at hn
      omega
    have hfirst := piece_complete hpiece (s ++ '"' :: rest)
    rw [List.append_assoc]
    simp only [List.cons_append] at hfirst ⊢
    unfold pieces
    split
    · next heq => cases heq
    · next heq => exact absurd (List.cons.inj heq).1 ha
    · next n' heq _ =>
      obtain rfl := Nat.succ.inj heq
      rw [hfirst]
      simp only [Option.bind_eq_bind, Option.bind_some, ih hn']
      rfl

/-! ### Soundness -/

theorem scalar_sound {s rest : Str} {v : JsonValue} (h : scalar s = some (v, rest)) :
    ∃ text, s = text ++ rest ∧ Derives (.value v) text := by
  have hprefix : ∀ {word : Str}, word.isPrefixOf s = true → s = word ++ s.drop word.length := by
    intro word hword
    obtain ⟨t, rfl⟩ := List.isPrefixOf_iff_prefix.mp hword
    rw [List.drop_left]
  unfold scalar at h
  split_ifs at h with hnull htrue hfalse hnumber
  · obtain ⟨rfl, rfl⟩ := Prod.mk.inj (Option.some.inj h)
    exact ⟨_, hprefix hnull, .null⟩
  · obtain ⟨rfl, rfl⟩ := Prod.mk.inj (Option.some.inj h)
    exact ⟨_, hprefix htrue, .yes⟩
  · obtain ⟨rfl, rfl⟩ := Prod.mk.inj (Option.some.inj h)
    exact ⟨_, hprefix hfalse, .no⟩
  · obtain ⟨rfl, rfl⟩ := Prod.mk.inj (Option.some.inj h)
    exact ⟨_, List.takeWhile_append_dropWhile.symm, .number hnumber⟩

/-- What the three functions read with this bound. -/
structure Sound (n : Nat) : Prop where
  value : ∀ {s v rest}, value n s = some (v, rest) →
    ∃ text, s = text ++ rest ∧ Derives (.value v) text
  elements : ∀ {s vs rest}, elements n s = some (vs, rest) →
    ∃ text, s = text ++ ']' :: rest ∧ Derives (.elements vs) text
  members : ∀ {s ms rest}, members n s = some (ms, rest) →
    ∃ text, s = text ++ '}' :: rest ∧ Derives (.members ms) text

/-- A value, with the white space on both sides. -/
theorem Sound.value_ws {n : Nat} (h : Sound n) {s rest : Str} {v : JsonValue}
    (hv : Json.value n (skipWs s) = some (v, rest)) :
    ∃ w text w', Ws w ∧ Derives (.value v) text ∧ Ws w' ∧
      s = w ++ (text ++ (w' ++ skipWs rest)) := by
  obtain ⟨w, hw, hs⟩ := skipWs_spec s
  obtain ⟨text, htext, hderives⟩ := h.value hv
  obtain ⟨w', hw', hrest⟩ := skipWs_spec rest
  refine ⟨w, text, w', hw, hderives, hw', ?_⟩
  rw [← hrest, ← htext, ← hs]

theorem Sound.value_succ {n : Nat} (h : Sound n) {s rest : Str} {v : JsonValue}
    (hv : Json.value (n + 1) s = some (v, rest)) :
    ∃ text, s = text ++ rest ∧ Derives (.value v) text := by
  unfold Json.value at hv
  split at hv
  · next t =>
    obtain ⟨⟨x, r⟩, hstring, heq⟩ := Option.map_eq_some_iff.mp hv
    obtain ⟨rfl, rfl⟩ := Prod.mk.inj heq
    obtain ⟨u, rfl, hu⟩ := pieces_sound hstring
    exact ⟨'"' :: (u ++ ['"']), by simp, .string hu⟩
  · next t =>
    split at hv
    · next r hclose =>
      obtain ⟨rfl, rfl⟩ := Prod.mk.inj (Option.some.inj hv)
      obtain ⟨w, hw, ht⟩ := skipWs_spec t
      rw [hclose] at ht
      exact ⟨'[' :: (w ++ [']']), by simp [ht], .emptyArray hw⟩
    · obtain ⟨⟨vs, r⟩, helements, heq⟩ := Option.map_eq_some_iff.mp hv
      obtain ⟨rfl, rfl⟩ := Prod.mk.inj heq
      obtain ⟨text, rfl, hderives⟩ := h.elements helements
      exact ⟨'[' :: (text ++ [']']), by simp, .array hderives⟩
  · next t =>
    split at hv
    · next r hclose =>
      obtain ⟨rfl, rfl⟩ := Prod.mk.inj (Option.some.inj hv)
      obtain ⟨w, hw, ht⟩ := skipWs_spec t
      rw [hclose] at ht
      exact ⟨'{' :: (w ++ ['}']), by simp [ht], .emptyObject hw⟩
    · obtain ⟨⟨ms, r⟩, hmembers, heq⟩ := Option.map_eq_some_iff.mp hv
      obtain ⟨rfl, rfl⟩ := Prod.mk.inj heq
      obtain ⟨text, rfl, hderives⟩ := h.members hmembers
      exact ⟨'{' :: (text ++ ['}']), by simp, .object hderives⟩
  · exact scalar_sound hv

theorem Sound.elements_succ {n : Nat} (h : Sound n) {s rest : Str} {vs : List JsonValue}
    (hvs : Json.elements (n + 1) s = some (vs, rest)) :
    ∃ text, s = text ++ ']' :: rest ∧ Derives (.elements vs) text := by
  unfold Json.elements at hvs
  obtain ⟨⟨v, r⟩, hv, hafter⟩ := Option.bind_eq_some_iff.mp hvs
  obtain ⟨w, text, w', hw, hderives, hw', hs⟩ := h.value_ws hv
  simp only at hafter
  split at hafter
  · next t hcomma =>
    obtain ⟨⟨vs', r'⟩, hrest, heq⟩ := Option.bind_eq_some_iff.mp hafter
    obtain ⟨rfl, rfl⟩ := Prod.mk.inj (Option.some.inj heq)
    obtain ⟨text', rfl, hderives'⟩ := h.elements hrest
    exact ⟨w ++ (text ++ (w' ++ ',' :: text')), by simp [hs, hcomma],
      .elements hw hderives hw' hderives'⟩
  · next t hclose =>
    obtain ⟨rfl, rfl⟩ := Prod.mk.inj (Option.some.inj hafter)
    exact ⟨w ++ (text ++ w'), by simp [hs, hclose], .element hw hderives hw'⟩
  · cases hafter

theorem Sound.members_succ {n : Nat} (h : Sound n) {s rest : Str} {ms : List (Str × JsonValue)}
    (hms : Json.members (n + 1) s = some (ms, rest)) :
    ∃ text, s = text ++ '}' :: rest ∧ Derives (.members ms) text := by
  obtain ⟨w, hw, hs⟩ := skipWs_spec s
  unfold Json.members at hms
  split at hms
  · next s₁ hquote =>
    obtain ⟨⟨key, s₂⟩, hkey, hname⟩ := Option.bind_eq_some_iff.mp hms
    obtain ⟨k, hs₁, hk⟩ := pieces_sound hkey
    obtain ⟨w₁, hw₁, hs₂⟩ := skipWs_spec s₂
    simp only at hname
    split at hname
    · next s₃ hcolon =>
      obtain ⟨⟨v, r⟩, hv, hafter⟩ := Option.bind_eq_some_iff.mp hname
      obtain ⟨w₂, text, w', hw₂, hderives, hw', hs₃⟩ := h.value_ws hv
      rw [hcolon, hs₃] at hs₂
      rw [hquote, hs₁, hs₂] at hs
      simp only at hafter
      split at hafter
      · next t hcomma =>
        obtain ⟨⟨ms', r'⟩, hrest, heq⟩ := Option.bind_eq_some_iff.mp hafter
        obtain ⟨rfl, rfl⟩ := Prod.mk.inj (Option.some.inj heq)
        obtain ⟨text', rfl, hderives'⟩ := h.members hrest
        exact ⟨_, by rw [hs, hcomma]; simp, .members hw hk hw₁ hw₂ hderives hw' hderives'⟩
      · next t hclose =>
        obtain ⟨rfl, rfl⟩ := Prod.mk.inj (Option.some.inj hafter)
        exact ⟨_, by rw [hs, hclose]; simp, .member hw hk hw₁ hw₂ hderives hw'⟩
      · cases hafter
    · cases hname
  · cases hms

/-- **The reader is sound.** -/
theorem sound (n : Nat) : Sound n := by
  induction n with
  | zero => exact ⟨fun h => (nomatch h), fun h => (nomatch h), fun h => (nomatch h)⟩
  | succ n ih => exact ⟨ih.value_succ, ih.elements_succ, ih.members_succ⟩

/-! ### Completeness -/

/-- A value does not go on in this text: it is empty, or begins with no character of a number. -/
def Stops (rest : Str) : Prop := ∀ c, rest.head? = some c → isNumberChar c = false

/-- A character that a value can begin with. -/
def begins (c : Char) : Bool :=
  c = 'n' || c = 't' || c = 'f' || c = '"' || c = '[' || c = '{' || isNumberChar c

theorem not_isWs_of_begins {c : Char} (h : begins c = true) : isWs c = false := by
  by_contra hws
  rw [Bool.not_eq_false] at hws
  simp only [isWs, Bool.or_eq_true, decide_eq_true_eq] at hws
  rcases hws with ((rfl | rfl) | rfl) | rfl <;> cases h

theorem not_isNumberChar_of_isWs {c : Char} (h : isWs c = true) : isNumberChar c = false := by
  simp only [isWs, Bool.or_eq_true, decide_eq_true_eq] at h
  rcases h with ((rfl | rfl) | rfl) | rfl <;> rfl

theorem stops_ws {w : Str} {c : Char} (hw : Ws w) (hc : isNumberChar c = false) (rest : Str) :
    Stops (w ++ c :: rest) := by
  intro d hd
  cases w with
  | nil => exact Option.some.inj hd ▸ hc
  | cons e w =>
    obtain rfl := Option.some.inj hd
    exact not_isNumberChar_of_isWs (hw _ List.mem_cons_self)

theorem number_spec {s : Str} (h : isNumber s = true) :
    (∃ c t, s = c :: t) ∧ ∀ c ∈ s, isNumberChar c = true := by
  have hs : s ≠ [] := by
    rintro rfl
    cases h
  rw [isNumber, Bool.and_eq_true, Bool.and_eq_true, List.all_eq_true] at h
  exact ⟨List.exists_cons_of_ne_nil hs, h.1.1⟩

/-- A value begins as values do. -/
theorem Derives.head {v : JsonValue} {text : Str} (h : Derives (.value v) text) :
    ∃ c t, text = c :: t ∧ begins c = true := by
  cases h with
  | number h =>
    obtain ⟨⟨c, t, rfl⟩, hall⟩ := number_spec h
    refine ⟨c, t, rfl, ?_⟩
    rw [begins, hall c List.mem_cons_self, Bool.or_true]
  | _ => exact ⟨_, _, rfl, rfl⟩

/-- Elements begin with a value, behind white space. -/
theorem Derives.elements_head {vs : List JsonValue} {text : Str} (h : Derives (.elements vs) text) :
    ∃ w c t, Ws w ∧ text = w ++ c :: t ∧ begins c = true := by
  cases h with
  | element hw h _ =>
    obtain ⟨c, t, rfl, hc⟩ := h.head
    exact ⟨_, c, _, hw, rfl, hc⟩
  | elements hw h _ _ =>
    obtain ⟨c, t, rfl, hc⟩ := h.head
    exact ⟨_, c, _, hw, rfl, hc⟩

/-- Members begin with a quote, behind white space. -/
theorem Derives.members_head {ms : List (Str × JsonValue)} {text : Str}
    (h : Derives (.members ms) text) : ∃ w t, Ws w ∧ text = w ++ '"' :: t := by
  cases h with
  | member hw => exact ⟨_, _, hw, rfl⟩
  | members hw => exact ⟨_, _, hw, rfl⟩

theorem value_eq_scalar {c : Char} (hquote : c ≠ '"') (hbracket : c ≠ '[') (hbrace : c ≠ '{')
    (n : Nat) (s : Str) : value (n + 1) (c :: s) = scalar (c :: s) := by
  unfold value
  split
  · next heq => exact absurd (List.cons.inj heq).1 hquote
  · next heq => exact absurd (List.cons.inj heq).1 hbracket
  · next heq => exact absurd (List.cons.inj heq).1 hbrace
  · rfl

theorem scalar_number {s rest : Str} (h : isNumber s = true) (hrest : Stops rest) :
    scalar (s ++ rest) = some (.number s, rest) := by
  obtain ⟨⟨c, t, rfl⟩, hall⟩ := number_spec h
  have hc := hall c List.mem_cons_self
  have hword : ∀ {d : Char} {word : Str}, isNumberChar d = false →
      ¬ (d :: word).isPrefixOf (c :: t ++ rest) = true := by
    intro d word hd hword
    obtain ⟨u, hu⟩ := List.isPrefixOf_iff_prefix.mp hword
    rw [(List.cons.inj hu).1, hc] at hd
    cases hd
  have htake : (c :: t ++ rest).takeWhile isNumberChar = c :: t := by
    rw [List.takeWhile_append_of_pos hall]
    cases rest with
    | nil => exact List.append_nil _
    | cons d rest => rw [List.takeWhile_cons_of_neg (Bool.eq_false_iff.mp (hrest d rfl)), List.append_nil]
  have hdrop : (c :: t ++ rest).dropWhile isNumberChar = rest := by
    rw [List.dropWhile_append_of_pos hall]
    cases rest with
    | nil => rfl
    | cons d rest => exact List.dropWhile_cons_of_neg (Bool.eq_false_iff.mp (hrest d rfl))
  have hnull : ¬ "null".toList.isPrefixOf (c :: t ++ rest) = true := hword (d := 'n') rfl
  have htrue : ¬ "true".toList.isPrefixOf (c :: t ++ rest) = true := hword (d := 't') rfl
  have hfalse : ¬ "false".toList.isPrefixOf (c :: t ++ rest) = true := hword (d := 'f') rfl
  rw [scalar, if_neg hnull, if_neg htrue, if_neg hfalse, htake, hdrop, if_pos h]

/-- What derives from the grammar is read, with what stands behind it left. -/
def Complete : Node → Str → Prop
  | .value v, text => ∀ n rest, text.length ≤ n → Stops rest →
    value n (text ++ rest) = some (v, rest)
  | .elements vs, text => ∀ n rest, text.length < n →
    elements n (text ++ ']' :: rest) = some (vs, rest)
  | .members ms, text => ∀ n rest, text.length < n →
    members n (text ++ '}' :: rest) = some (ms, rest)

/-- A value is read up to the character behind it, over the white space on both sides. -/
theorem Complete.value_ws {v : JsonValue} {w text w' : Str} {c : Char} {n : Nat}
    (h : Complete (.value v) text) (hderives : Derives (.value v) text) (hw : Ws w) (hw' : Ws w')
    (hc : isNumberChar c = false) (hn : text.length ≤ n) (rest : Str) :
    value n (skipWs (w ++ (text ++ (w' ++ c :: rest)))) = some (v, w' ++ c :: rest) := by
  obtain ⟨d, t, rfl, hd⟩ := hderives.head
  have hskip : skipWs (w ++ ((d :: t) ++ (w' ++ c :: rest))) = (d :: t) ++ (w' ++ c :: rest) := by
    refine skipWs_append hw fun e he => ?_
    obtain rfl := Option.some.inj he
    exact not_isWs_of_begins hd
  rw [hskip]
  exact h n _ hn (stops_ws hw' hc rest)

theorem skipWs_cons {w : Str} {c : Char} (hw : Ws w) (hc : isWs c = false) (rest : Str) :
    skipWs (w ++ c :: rest) = c :: rest := by
  refine skipWs_append hw fun d hd => ?_
  obtain rfl := Option.some.inj hd
  exact hc

/-- A word or a number, told by its first character. -/
theorem complete_scalar {v : JsonValue} {c : Char} {t : Str} (hquote : c ≠ '"') (hbracket : c ≠ '[')
    (hbrace : c ≠ '{') (h : ∀ rest, Stops rest → scalar (c :: t ++ rest) = some (v, rest)) :
    Complete (.value v) (c :: t) := by
  intro n rest hn hrest
  obtain ⟨n, rfl⟩ := Nat.exists_eq_add_one.mpr (Nat.zero_lt_of_lt hn)
  rw [List.cons_append, value_eq_scalar hquote hbracket hbrace, ← List.cons_append]
  exact h rest hrest

theorem complete_number {s : Str} (h : isNumber s = true) : Complete (.value (.number s)) s := by
  obtain ⟨⟨c, t, rfl⟩, hall⟩ := number_spec h
  have hc := hall c List.mem_cons_self
  have hne : ∀ {d : Char}, isNumberChar d = false → c ≠ d := by
    rintro d hd rfl
    rw [hc] at hd
    cases hd
  exact complete_scalar (hne rfl) (hne rfl) (hne rfl) fun _ hrest => scalar_number h hrest

theorem complete_string {s t : Str} (h : Pieces s t) :
    Complete (.value (.string t)) ('"' :: (s ++ ['"'])) := by
  intro n rest hn _
  obtain ⟨n, rfl⟩ := Nat.exists_eq_add_one.mpr (Nat.zero_lt_of_lt hn)
  have htext : '"' :: (s ++ ['"']) ++ rest = '"' :: (s ++ '"' :: rest) := by simp
  have hread := pieces_complete h (n := (s ++ '"' :: rest).length) (by simp) rest
  rw [htext]
  simp only [value, hread, Option.map_some]

theorem complete_emptyArray {w : Str} (hw : Ws w) :
    Complete (.value (.array [])) ('[' :: (w ++ [']'])) := by
  intro n rest hn _
  obtain ⟨n, rfl⟩ := Nat.exists_eq_add_one.mpr (Nat.zero_lt_of_lt hn)
  have htext : '[' :: (w ++ [']']) ++ rest = '[' :: (w ++ ']' :: rest) := by simp
  rw [htext]
  simp only [value, skipWs_cons hw (c := ']') rfl]

theorem complete_emptyObject {w : Str} (hw : Ws w) :
    Complete (.value (.object [])) ('{' :: (w ++ ['}'])) := by
  intro n rest hn _
  obtain ⟨n, rfl⟩ := Nat.exists_eq_add_one.mpr (Nat.zero_lt_of_lt hn)
  have htext : '{' :: (w ++ ['}']) ++ rest = '{' :: (w ++ '}' :: rest) := by simp
  rw [htext]
  simp only [value, skipWs_cons hw (c := '}') rfl]

theorem complete_array {vs : List JsonValue} {s : Str} (h : Derives (.elements vs) s)
    (hcomplete : Complete (.elements vs) s) : Complete (.value (.array vs)) ('[' :: (s ++ [']'])) := by
  intro n rest hn _
  obtain ⟨n, rfl⟩ := Nat.exists_eq_add_one.mpr (Nat.zero_lt_of_lt hn)
  have htext : '[' :: (s ++ [']']) ++ rest = '[' :: (s ++ ']' :: rest) := by simp
  have hread := hcomplete n rest (by simp at hn; omega)
  obtain ⟨w, c, t, hw, rfl, hc⟩ := h.elements_head
  have hskip : skipWs (w ++ c :: t ++ ']' :: rest) = c :: (t ++ ']' :: rest) := by
    rw [List.append_assoc, List.cons_append, skipWs_cons hw (not_isWs_of_begins hc)]
  rw [htext]
  unfold value
  simp only [hskip, hread]
  split
  · next heq =>
    -- No value begins with the bracket.
    rw [(List.cons.inj heq).1] at hc
    cases hc
  · rfl

theorem complete_object {ms : List (Str × JsonValue)} {s : Str} (h : Derives (.members ms) s)
    (hcomplete : Complete (.members ms) s) :
    Complete (.value (.object (objectOf ms))) ('{' :: (s ++ ['}'])) := by
  intro n rest hn _
  obtain ⟨n, rfl⟩ := Nat.exists_eq_add_one.mpr (Nat.zero_lt_of_lt hn)
  have htext : '{' :: (s ++ ['}']) ++ rest = '{' :: (s ++ '}' :: rest) := by simp
  have hread := hcomplete n rest (by simp at hn; omega)
  obtain ⟨w, t, hw, rfl⟩ := h.members_head
  have hskip : skipWs (w ++ '"' :: t ++ '}' :: rest) = '"' :: (t ++ '}' :: rest) := by
    rw [List.append_assoc, List.cons_append, skipWs_cons hw rfl]
  rw [htext]
  unfold value
  simp only [hskip, hread]
  split
  · next heq => cases (List.cons.inj heq).1
  · rfl

theorem complete_element {v : JsonValue} {w s w' : Str} (hw : Ws w) (h : Derives (.value v) s)
    (hw' : Ws w') (hcomplete : Complete (.value v) s) :
    Complete (.elements [v]) (w ++ (s ++ w')) := by
  intro n rest hn
  obtain ⟨n, rfl⟩ := Nat.exists_eq_add_one.mpr (Nat.zero_lt_of_lt hn)
  have hread := hcomplete.value_ws h hw hw' (c := ']') (n := n) rfl (by simp at hn; omega) rest
  have htext : w ++ (s ++ w') ++ ']' :: rest = w ++ (s ++ (w' ++ ']' :: rest)) := by simp
  rw [htext]
  simp only [elements, hread, Option.bind_eq_bind, Option.bind_some,
    skipWs_cons hw' (c := ']') rfl]
  rfl

theorem complete_elements {v : JsonValue} {vs : List JsonValue} {w s w' more : Str} (hw : Ws w)
    (h : Derives (.value v) s) (hw' : Ws w') (hcomplete : Complete (.value v) s)
    (hmore : Complete (.elements vs) more) :
    Complete (.elements (v :: vs)) (w ++ (s ++ (w' ++ ',' :: more))) := by
  intro n rest hn
  obtain ⟨n, rfl⟩ := Nat.exists_eq_add_one.mpr (Nat.zero_lt_of_lt hn)
  have hread := hcomplete.value_ws h hw hw' (c := ',') (n := n) rfl (by simp at hn; omega)
    (more ++ ']' :: rest)
  have hreadMore := hmore n rest (by simp at hn; omega)
  have htext : w ++ (s ++ (w' ++ ',' :: more)) ++ ']' :: rest =
      w ++ (s ++ (w' ++ ',' :: (more ++ ']' :: rest))) := by simp
  rw [htext]
  simp only [elements, hread, Option.bind_eq_bind, Option.bind_some,
    skipWs_cons hw' (c := ',') rfl, hreadMore]
  rfl

theorem complete_member {key : Str} {v : JsonValue} {w k w₁ w₂ s w' : Str} (hw : Ws w)
    (hkey : Pieces k key) (hw₁ : Ws w₁) (hw₂ : Ws w₂) (h : Derives (.value v) s) (hw' : Ws w')
    (hcomplete : Complete (.value v) s) :
    Complete (.members [(key, v)]) (w ++ '"' :: (k ++ '"' :: (w₁ ++ ':' :: (w₂ ++ (s ++ w'))))) := by
  intro n rest hn
  obtain ⟨n, rfl⟩ := Nat.exists_eq_add_one.mpr (Nat.zero_lt_of_lt hn)
  have hread := hcomplete.value_ws h hw₂ hw' (c := '}') (n := n) rfl (by simp at hn; omega) rest
  have hname : ∀ t, pieces (k ++ '"' :: t).length (k ++ '"' :: t) = some (key, t) := fun t =>
    pieces_complete hkey (by simp) t
  have htext : w ++ '"' :: (k ++ '"' :: (w₁ ++ ':' :: (w₂ ++ (s ++ w')))) ++ '}' :: rest =
      w ++ '"' :: (k ++ '"' :: (w₁ ++ ':' :: (w₂ ++ (s ++ (w' ++ '}' :: rest))))) := by simp
  rw [htext]
  simp only [members, skipWs_cons hw (c := '"') rfl, hname, Option.bind_eq_bind,
    Option.bind_some, skipWs_cons hw₁ (c := ':') rfl, hread, skipWs_cons hw' (c := '}') rfl]
  rfl

theorem complete_members {key : Str} {v : JsonValue} {ms : List (Str × JsonValue)}
    {w k w₁ w₂ s w' more : Str} (hw : Ws w) (hkey : Pieces k key) (hw₁ : Ws w₁) (hw₂ : Ws w₂)
    (h : Derives (.value v) s) (hw' : Ws w') (hcomplete : Complete (.value v) s)
    (hmore : Complete (.members ms) more) : Complete (.members ((key, v) :: ms))
      (w ++ '"' :: (k ++ '"' :: (w₁ ++ ':' :: (w₂ ++ (s ++ (w' ++ ',' :: more)))))) := by
  intro n rest hn
  obtain ⟨n, rfl⟩ := Nat.exists_eq_add_one.mpr (Nat.zero_lt_of_lt hn)
  have hread := hcomplete.value_ws h hw₂ hw' (c := ',') (n := n) rfl (by simp at hn; omega)
    (more ++ '}' :: rest)
  have hreadMore := hmore n rest (by simp at hn; omega)
  have hname : ∀ t, pieces (k ++ '"' :: t).length (k ++ '"' :: t) = some (key, t) := fun t =>
    pieces_complete hkey (by simp) t
  have htext : w ++ '"' :: (k ++ '"' :: (w₁ ++ ':' :: (w₂ ++ (s ++ (w' ++ ',' :: more))))) ++
      '}' :: rest = w ++ '"' :: (k ++ '"' :: (w₁ ++ ':' :: (w₂ ++ (s ++ (w' ++
        ',' :: (more ++ '}' :: rest)))))) := by simp
  rw [htext]
  simp only [members, skipWs_cons hw (c := '"') rfl, hname, Option.bind_eq_bind,
    Option.bind_some, skipWs_cons hw₁ (c := ':') rfl, hread, skipWs_cons hw' (c := ',') rfl,
    hreadMore]
  rfl

/-- **The reader is complete.** -/
theorem complete {node : Node} {text : Str} (h : Derives node text) : Complete node text := by
  induction h with
  | null => exact complete_scalar (by decide) (by decide) (by decide) fun _ _ => rfl
  | yes => exact complete_scalar (by decide) (by decide) (by decide) fun _ _ => rfl
  | no => exact complete_scalar (by decide) (by decide) (by decide) fun _ _ => rfl
  | number h => exact complete_number h
  | string h => exact complete_string h
  | emptyArray hw => exact complete_emptyArray hw
  | array h ih => exact complete_array h ih
  | emptyObject hw => exact complete_emptyObject hw
  | object h ih => exact complete_object h ih
  | element hw h hw' ih => exact complete_element hw h hw' ih
  | elements hw h hw' _ ih ihrest => exact complete_elements hw h hw' ih ihrest
  | member hw hkey hw₁ hw₂ h hw' ih => exact complete_member hw hkey hw₁ hw₂ h hw' ih
  | members hw hkey hw₁ hw₂ h hw' _ ih ihrest =>
    exact complete_members hw hkey hw₁ hw₂ h hw' ih ihrest

theorem stops_of_ws {w : Str} (hw : Ws w) : Stops w := by
  cases w with
  | nil => exact fun c hc => nomatch hc
  | cons c w =>
    intro d hd
    obtain rfl := Option.some.inj hd
    exact not_isNumberChar_of_isWs (hw _ List.mem_cons_self)

/-- **The reader reads the texts of the grammar**, each as its value, and no others. -/
theorem read_eq_some_iff {s : Str} {v : JsonValue} : read s = some v ↔ JsonText s v := by
  constructor
  · intro h
    unfold read at h
    obtain ⟨⟨v', rest⟩, hvalue, hend⟩ := Option.bind_eq_some_iff.mp h
    obtain ⟨w, text, w', hw, hderives, hw', hs⟩ := (sound s.length).value_ws hvalue
    simp only at hend
    split_ifs at hend with hnil
    obtain rfl := Option.some.inj hend
    rw [hnil, List.append_nil] at hs
    exact ⟨w, text, w', hw, hderives, hw', hs⟩
  · rintro ⟨w, text, w', hw, hderives, hw', rfl⟩
    obtain ⟨c, t, rfl, hc⟩ := hderives.head
    have hskip : skipWs (w ++ ((c :: t) ++ w')) = (c :: t) ++ w' :=
      skipWs_cons hw (not_isWs_of_begins hc) (t ++ w')
    have hread := complete hderives (w ++ ((c :: t) ++ w')).length w' (by simp; omega)
      (stops_of_ws hw')
    unfold read
    rw [hskip, hread]
    exact if_pos (skipWs_eq_nil hw')

end Json

end Rustmote
