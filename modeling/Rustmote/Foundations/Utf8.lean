import Rustmote.Foundations.Text
import Mathlib.Data.List.Basic

/-!
# UTF-8

Texts travel as bytes: a file is written from `str::as_bytes`, a command's output is
read with `String::from_utf8_lossy`, and a path is a byte string that may or may not
be UTF-8. `encode` is core Lean's character encoding; `decode` and `fromUtf8Lossy`
read bytes as Rust does, a maximal ill-formed part becoming one replacement
character.

What is proved is that a text comes back from its encoding, both ways of reading it:
`decode_encode` and `fromUtf8Lossy_encode`.
-/

namespace Rustmote.Utf8

/-- `str::as_bytes`. -/
def encode (s : Str) : Bytes := s.flatMap String.utf8EncodeChar

/-- The length of a text in bytes, `str::len`. -/
def len (s : Str) : Nat := (encode s).length

/-- A continuation byte. -/
def isCont (n : Nat) : Bool := 0x80 ≤ n && n ≤ 0xBF

/-- Whether `y` may follow the first byte `x` of a character of three bytes. -/
def second3 (x y : Nat) : Bool :=
  (x = 0xE0 && 0xA0 ≤ y && y ≤ 0xBF) || (0xE1 ≤ x && x ≤ 0xEC && isCont y) ||
    (x = 0xED && 0x80 ≤ y && y ≤ 0x9F) || (0xEE ≤ x && x ≤ 0xEF && isCont y)

/-- Whether `y` may follow the first byte `x` of a character of four bytes. -/
def second4 (x y : Nat) : Bool :=
  (x = 0xF0 && 0x90 ≤ y && y ≤ 0xBF) || (0xF1 ≤ x && x ≤ 0xF3 && isCont y) ||
    (x = 0xF4 && 0x80 ≤ y && y ≤ 0x8F)

/-- The byte at a position, `0` past the end. -/
def byteAt (bs : Bytes) (i : Nat) : Nat := (bs.map UInt8.toNat).getD i 0

/-- Read one character, or one maximal ill-formed part, from the first byte `x` and the
bytes behind it; the number says how many of those are used up too. -/
def decodeStep (x : Nat) (bs : Bytes) : Option Char × Nat :=
  let y := byteAt bs 0
  let z := byteAt bs 1
  let w := byteAt bs 2
  if x < 0x80 then (some (Char.ofNat x), 0)
  else if 0xC2 ≤ x ∧ x ≤ 0xDF then
    if isCont y then (some (Char.ofNat ((x - 0xC0) * 64 + (y - 0x80))), 1) else (none, 0)
  else if 0xE0 ≤ x ∧ x ≤ 0xEF then
    if second3 x y then
      if isCont z then
        (some (Char.ofNat ((x - 0xE0) * 4096 + (y - 0x80) * 64 + (z - 0x80))), 2)
      else (none, 1)
    else (none, 0)
  else if 0xF0 ≤ x ∧ x ≤ 0xF4 then
    if second4 x y then
      if isCont z then
        if isCont w then
          (some (Char.ofNat ((x - 0xF0) * 262144 + (y - 0x80) * 4096 + (z - 0x80) * 64 +
            (w - 0x80))), 3)
        else (none, 2)
      else (none, 1)
    else (none, 0)
  else (none, 0)

/-- The characters of a byte string, `none` for an ill-formed part; the number counts
bytes of the current character still to be passed over. -/
def chunks : Nat → Bytes → List (Option Char)
  | _, [] => []
  | skip + 1, _ :: bs => chunks skip bs
  | 0, b :: bs => (decodeStep b.toNat bs).1 :: chunks (decodeStep b.toNat bs).2 bs

/-- `std::str::from_utf8`. -/
def decode (bs : Bytes) : Option Str := (chunks 0 bs).mapM id

/-- The replacement character. -/
def replacement : Char := Char.ofNat 0xFFFD

/-- `String::from_utf8_lossy`. -/
def fromUtf8Lossy (bs : Bytes) : Str := (chunks 0 bs).map fun c => c.getD replacement

theorem chunks_length_append (l bs : Bytes) : chunks l.length (l ++ bs) = chunks 0 bs := by
  induction l with
  | nil => rfl
  | cons b l ih => exact ih

/-- What one character's encoding is read as. -/
theorem decodeStep_encodeChar (c : Char) (bs : Bytes) :
    ∃ b l, String.utf8EncodeChar c = b :: l ∧
      decodeStep b.toNat (l ++ bs) = (some c, l.length) := by
  have hc : Char.ofNat c.val.toNat = c := Char.ofNat_toNat c
  have hv : c.val.toNat < 0xD800 ∨ (0xDFFF < c.val.toNat ∧ c.val.toNat < 0x110000) := c.valid
  unfold String.utf8EncodeChar
  set v := c.val.toNat
  by_cases h₁ : v ≤ 0x7f
  · refine ⟨UInt8.ofNat v, [], by simp [h₁], ?_⟩
    have hb : (UInt8.ofNat v).toNat = v := by simp; omega
    rw [hb, decodeStep, if_pos (by omega), hc]
    rfl
  by_cases h₂ : v ≤ 0x7ff
  · refine ⟨_, [_], by simp only [h₁, h₂, if_false, if_true]; rfl, ?_⟩
    have hb : (UInt8.ofNat (v / 64 % 32 + 192)).toNat = v / 64 + 192 := by simp; omega
    have hy : (UInt8.ofNat (v % 64 + 128)).toNat = v % 64 + 128 := by simp; omega
    simp only [List.singleton_append, decodeStep, byteAt, List.map_cons, hy, hb,
      List.getD_cons_zero]
    rw [if_neg (by omega), if_pos (by omega), if_pos (by simp [isCont]; omega)]
    simp only [List.length_singleton, Prod.mk.injEq, Option.some.injEq, and_true]
    exact (congrArg Char.ofNat (by omega)).trans hc
  by_cases h₃ : v ≤ 0xffff
  · refine ⟨_, [_, _], by simp only [h₁, h₂, h₃, if_false, if_true]; rfl, ?_⟩
    have hb : (UInt8.ofNat (v / 4096 % 16 + 224)).toNat = v / 4096 + 224 := by simp; omega
    have hy : (UInt8.ofNat (v / 64 % 64 + 128)).toNat = v / 64 % 64 + 128 := by simp; omega
    have hz : (UInt8.ofNat (v % 64 + 128)).toNat = v % 64 + 128 := by simp; omega
    simp only [List.cons_append, List.nil_append, decodeStep, byteAt, List.map_cons, hy, hz, hb,
      List.getD_cons_zero, List.getD_cons_succ]
    rw [if_neg (by omega), if_neg (by omega), if_pos (by omega),
      if_pos (by simp [second3, isCont]; omega), if_pos (by simp [isCont]; omega)]
    simp only [List.length_cons, List.length_nil, Prod.mk.injEq, Option.some.injEq, and_true]
    exact (congrArg Char.ofNat (by omega)).trans hc
  · refine ⟨_, [_, _, _], by simp only [h₁, h₂, h₃, if_false]; rfl, ?_⟩
    have hb : (UInt8.ofNat (v / 262144 % 8 + 240)).toNat = v / 262144 + 240 := by simp; omega
    have hy : (UInt8.ofNat (v / 4096 % 64 + 128)).toNat = v / 4096 % 64 + 128 := by simp; omega
    have hz : (UInt8.ofNat (v / 64 % 64 + 128)).toNat = v / 64 % 64 + 128 := by simp; omega
    have hw : (UInt8.ofNat (v % 64 + 128)).toNat = v % 64 + 128 := by simp; omega
    simp only [List.cons_append, List.nil_append, decodeStep, byteAt, List.map_cons, hy, hz, hw,
      hb, List.getD_cons_zero, List.getD_cons_succ]
    rw [if_neg (by omega), if_neg (by omega), if_neg (by omega), if_pos (by omega),
      if_pos (by simp [second4, isCont]; omega), if_pos (by simp [isCont]; omega),
      if_pos (by simp [isCont]; omega)]
    simp only [List.length_cons, List.length_nil, Prod.mk.injEq, Option.some.injEq, and_true]
    exact (congrArg Char.ofNat (by omega)).trans hc

/-- The encoding of a text is read as its characters, one by one. -/
theorem chunks_encode (s : Str) : chunks 0 (encode s) = s.map some := by
  induction s with
  | nil => rfl
  | cons c s ih =>
    obtain ⟨b, l, hl, hstep⟩ := decodeStep_encodeChar c (encode s)
    have henc : encode (c :: s) = b :: (l ++ encode s) := by simp [encode, hl]
    rw [henc, chunks, hstep, chunks_length_append, ih, List.map_cons]

/-- **Encoding and reading back.** -/
@[simp] theorem decode_encode (s : Str) : decode (encode s) = some s := by
  rw [decode, chunks_encode]
  induction s with
  | nil => rfl
  | cons c s ih => rw [List.map_cons, List.mapM_cons, ih]; rfl

/-- **Encoding and reading back lossily**: nothing is lost. -/
theorem encode_injective {s t : Str} (h : encode s = encode t) : s = t := by
  have hdecode := congrArg decode h
  rwa [decode_encode, decode_encode, Option.some.injEq] at hdecode

@[simp] theorem fromUtf8Lossy_encode (s : Str) : fromUtf8Lossy (encode s) = s := by
  rw [fromUtf8Lossy, chunks_encode, List.map_map]
  exact List.map_id s

/-- Bytes that are UTF-8 are read lossily without loss. -/
theorem fromUtf8Lossy_of_decode {bs : Bytes} {s : Str} (h : decode bs = some s) :
    fromUtf8Lossy bs = s := by
  rw [decode] at h
  rw [fromUtf8Lossy]
  generalize chunks 0 bs = cs at h
  induction cs generalizing s with
  | nil => simpa using h
  | cons c cs ih =>
    rw [List.mapM_cons] at h
    cases c with
    | none => simp at h
    | some c =>
      cases hcs : cs.mapM id with
      | none => simp [hcs] at h
      | some t =>
        simp only [id_eq, hcs, Option.pure_def, Option.bind_eq_bind, Option.bind_some,
          Option.some.injEq] at h
        rw [List.map_cons, ih hcs, ← h]
        rfl

/-- Bytes that are not UTF-8 leave a replacement character. -/
theorem replacement_mem_fromUtf8Lossy {bs : Bytes} (h : decode bs = none) :
    replacement ∈ fromUtf8Lossy bs := by
  rw [decode] at h
  rw [fromUtf8Lossy]
  generalize chunks 0 bs = cs at h
  induction cs with
  | nil => cases h
  | cons c cs ih =>
    cases c with
    | none => exact List.mem_cons_self
    | some c =>
      refine List.mem_cons_of_mem _ (ih ?_)
      rw [List.mapM_cons] at h
      cases hcs : cs.mapM id with
      | none => rfl
      | some t => simp [hcs] at h

theorem len_append (s t : Str) : len (s ++ t) = len s + len t := by
  rw [len, len, len, encode, List.flatMap_append, List.length_append]
  rfl

/-- A text of ASCII characters has as many bytes as characters. -/
theorem len_eq_length {s : Str} (h : ∀ c ∈ s, c.toNat ≤ 0x7F) : len s = s.length := by
  induction s with
  | nil => rfl
  | cons c s ih =>
    have hc : (String.utf8EncodeChar c).length = 1 := by
      simp [String.utf8EncodeChar, h c List.mem_cons_self]
    have hs := ih fun d hd => h d (List.mem_cons_of_mem _ hd)
    rw [len, encode] at hs ⊢
    rw [List.flatMap_cons, List.length_append, hc, hs, List.length_cons, Nat.add_comm]

theorem eq_nil_of_len_eq_zero {s : Str} (h : len s = 0) : s = [] := by
  cases s with
  | nil => rfl
  | cons c s =>
    obtain ⟨b, l, hc, -⟩ := decodeStep_encodeChar c []
    rw [len, encode, List.flatMap_cons, hc] at h
    cases h

end Rustmote.Utf8
