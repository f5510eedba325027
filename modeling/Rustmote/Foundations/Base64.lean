import Rustmote.Foundations.Text
import Mathlib.Tactic.IntervalCases

/-!
# Base64

The standard encoding of RFC 4648, with padding: three bytes become four characters
of the alphabet `A-Z a-z 0-9 + /`, a shorter last group is filled up with `=`.

* `decode_encode` — the bytes come back.
* `mem_encode` — an encoded text has only characters of the alphabet and `=`.
-/

namespace Rustmote.Base64

/-- The character for six bits. -/
def sextet (n : Nat) : Char :=
  if n < 26 then Char.ofNat (65 + n)
  else if n < 52 then Char.ofNat (97 + (n - 26))
  else if n < 62 then Char.ofNat (48 + (n - 52))
  else if n = 62 then '+' else '/'

/-- The six bits of a character. -/
def value (c : Char) : Option Nat :=
  let n := c.toNat
  if 65 ≤ n ∧ n ≤ 90 then some (n - 65)
  else if 97 ≤ n ∧ n ≤ 122 then some (n - 97 + 26)
  else if 48 ≤ n ∧ n ≤ 57 then some (n - 48 + 52)
  else if c = '+' then some 62
  else if c = '/' then some 63
  else none

/-- `STANDARD.encode`. -/
def encode : Bytes → Str
  | [] => []
  | [a] =>
    [sextet (a.toNat / 4), sextet (a.toNat % 4 * 16), '=', '=']
  | [a, b] =>
    [sextet (a.toNat / 4), sextet (a.toNat % 4 * 16 + b.toNat / 16),
      sextet (b.toNat % 16 * 4), '=']
  | a :: b :: c :: rest =>
    sextet (a.toNat / 4) :: sextet (a.toNat % 4 * 16 + b.toNat / 16) ::
      sextet (b.toNat % 16 * 4 + c.toNat / 64) :: sextet (c.toNat % 64) :: encode rest

/-- Decoding, as `base64 -d` does it: groups of four, padding in the last one only. -/
def decode : Str → Option Bytes
  | [] => some []
  | w :: x :: y :: z :: rest => do
    let w ← value w
    let x ← value x
    let a := UInt8.ofNat (w * 4 + x / 16)
    if y = '=' then
      if z = '=' ∧ rest = [] then some [a] else none
    else
      let y ← value y
      let b := UInt8.ofNat (x % 16 * 16 + y / 4)
      if z = '=' then
        if rest = [] then some [a, b] else none
      else
        let z ← value z
        let more ← decode rest
        some (a :: b :: UInt8.ofNat (y % 4 * 64 + z) :: more)
  | _ => none

/-- A character of the alphabet. -/
def IsSextet (c : Char) : Prop := ∃ n < 64, c = sextet n

theorem value_sextet {n : Nat} (h : n < 64) : value (sextet n) = some n := by
  interval_cases n <;> rfl

theorem sextet_ne_pad {n : Nat} (h : n < 64) : sextet n ≠ '=' := by
  interval_cases n <;> decide

/-- Three bytes from four sextets. -/
theorem decode_quantum {w x y z : Nat} (rest : Str) (hw : w < 64) (hx : x < 64) (hy : y < 64)
    (hz : z < 64) :
    decode (sextet w :: sextet x :: sextet y :: sextet z :: rest) =
      (decode rest).map fun more =>
        UInt8.ofNat (w * 4 + x / 16) :: UInt8.ofNat (x % 16 * 16 + y / 4) ::
          UInt8.ofNat (y % 4 * 64 + z) :: more := by
  rw [decode]
  simp only [value_sextet, hw, hx, hy, hz, sextet_ne_pad, if_false, Option.bind_eq_bind,
    Option.bind_some]
  cases decode rest <;> rfl

/-- **Decoding an encoding** gives the bytes back. -/
theorem decode_encode (bs : Bytes) : decode (encode bs) = some bs := by
  induction bs using encode.induct with
  | case1 => rfl
  | case2 a =>
    have ha := a.toNat_lt
    have hval : UInt8.ofNat (a.toNat / 4 * 4 + a.toNat % 4 * 16 / 16) = a := by
      rw [show a.toNat / 4 * 4 + a.toNat % 4 * 16 / 16 = a.toNat by omega, UInt8.ofNat_toNat]
    rw [encode, decode, value_sextet (by omega), value_sextet (by omega)]
    simp only [Option.bind_eq_bind, Option.bind_some, if_true, and_self]
    rw [hval]
  | case3 a b =>
    have ha := a.toNat_lt
    have hb := b.toNat_lt
    have hval₁ : UInt8.ofNat (a.toNat / 4 * 4 + (a.toNat % 4 * 16 + b.toNat / 16) / 16) = a := by
      rw [show a.toNat / 4 * 4 + (a.toNat % 4 * 16 + b.toNat / 16) / 16 = a.toNat by omega,
        UInt8.ofNat_toNat]
    have hval₂ : UInt8.ofNat
        ((a.toNat % 4 * 16 + b.toNat / 16) % 16 * 16 + b.toNat % 16 * 4 / 4) = b := by
      rw [show (a.toNat % 4 * 16 + b.toNat / 16) % 16 * 16 + b.toNat % 16 * 4 / 4 = b.toNat by
        omega, UInt8.ofNat_toNat]
    rw [encode, decode, value_sextet (by omega), value_sextet (by omega)]
    simp only [Option.bind_eq_bind, Option.bind_some]
    rw [if_neg (sextet_ne_pad (by omega)), value_sextet (by omega)]
    simp only [Option.bind_some, if_true]
    rw [hval₁, hval₂]
  | case4 a b c rest ih =>
    have ha := a.toNat_lt
    have hb := b.toNat_lt
    have hc := c.toNat_lt
    rw [encode, decode_quantum (encode rest) (by omega) (by omega) (by omega) (by omega), ih,
      Option.map_some, Option.some.injEq]
    rw [show a.toNat / 4 * 4 + (a.toNat % 4 * 16 + b.toNat / 16) / 16 = a.toNat by omega,
      show (a.toNat % 4 * 16 + b.toNat / 16) % 16 * 16 +
        (b.toNat % 16 * 4 + c.toNat / 64) / 4 = b.toNat by omega,
      show (b.toNat % 16 * 4 + c.toNat / 64) % 4 * 64 + c.toNat % 64 = c.toNat by omega]
    simp only [UInt8.ofNat_toNat]

/-- **The alphabet**: an encoded text has only sextets and padding. -/
theorem mem_encode {bs : Bytes} {c : Char} (h : c ∈ encode bs) : IsSextet c ∨ c = '=' := by
  induction bs using encode.induct with
  | case1 => simp [encode] at h
  | case2 a =>
    have ha := a.toNat_lt
    simp only [encode, List.mem_cons, List.not_mem_nil, or_false] at h
    rcases h with rfl | rfl | rfl | rfl
    · exact .inl ⟨_, by omega, rfl⟩
    · exact .inl ⟨_, by omega, rfl⟩
    · exact .inr rfl
    · exact .inr rfl
  | case3 a b =>
    have ha := a.toNat_lt
    have hb := b.toNat_lt
    simp only [encode, List.mem_cons, List.not_mem_nil, or_false] at h
    rcases h with rfl | rfl | rfl | rfl
    · exact .inl ⟨_, by omega, rfl⟩
    · exact .inl ⟨_, by omega, rfl⟩
    · exact .inl ⟨_, by omega, rfl⟩
    · exact .inr rfl
  | case4 a b d rest ih =>
    have ha := a.toNat_lt
    have hb := b.toNat_lt
    have hd := d.toNat_lt
    simp only [encode, List.mem_cons] at h
    rcases h with rfl | rfl | rfl | rfl | h
    · exact .inl ⟨_, by omega, rfl⟩
    · exact .inl ⟨_, by omega, rfl⟩
    · exact .inl ⟨_, by omega, rfl⟩
    · exact .inl ⟨_, by omega, rfl⟩
    · exact ih h

example : encode (("hello\n".toList).map fun c => UInt8.ofNat c.toNat) = "aGVsbG8K".toList := by
  decide

end Rustmote.Base64
