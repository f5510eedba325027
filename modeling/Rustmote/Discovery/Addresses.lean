import Rustmote.Config.Registry
import Rustmote.Foundations.Text

/-!
# Addresses from text

`IpAddr::from_str` of the standard library: a parser that takes characters from the front of a
text and fails without taking any. An IPv4 address is tried first, and nothing may be left behind
the address.

* `IpAddr.fromStr_dotted` — an IPv4 address in dotted decimal is read back.
-/

namespace Rustmote

namespace AddrParser

/-- `char::to_digit`. -/
def toDigit (radix : Nat) (c : Char) : Option Nat :=
  let value :=
    if '0' ≤ c ∧ c ≤ '9' then some (c.toNat - '0'.toNat)
    else if 'a' ≤ c ∧ c ≤ 'z' then some (c.toNat - 'a'.toNat + 10)
    else if 'A' ≤ c ∧ c ≤ 'Z' then some (c.toNat - 'A'.toNat + 10)
    else none
  value.filter (· < radix)

/-- `read_number`: so many digits at most, of a value below a bound. -/
def readNumber (radix maxDigits : Nat) (allowZeroPrefix : Bool) (bound : Nat) (s : Str) :
    Option (Nat × Str) :=
  let front := s.takeWhile fun c => (toDigit radix c).isSome
  let digits := front.filterMap (toDigit radix)
  let value := digits.foldl (fun n d => n * radix + d) 0
  if digits = [] ∨ maxDigits < digits.length ∨ bound ≤ value then none
  else if !allowZeroPrefix && front.head? = some '0' && 1 < digits.length then none
  else some (value, s.dropWhile fun c => (toDigit radix c).isSome)

/-- `read_given_char`. -/
def readGivenChar (c : Char) : Str → Option Str
  | d :: s => if d = c then some s else none
  | [] => none

/-- `read_separator`: a separator stands before all but the first. -/
def readSeparator {α : Type} (sep : Char) (first : Bool) (inner : Str → Option (α × Str)) (s : Str) :
    Option (α × Str) :=
  if first then inner s else (readGivenChar sep s).bind inner

/-- An octet. -/
def readOctet (first : Bool) : Str → Option (Nat × Str) :=
  readSeparator '.' first (readNumber 10 3 false 256)

/-- `read_ipv4_addr`: the octets. -/
def readIpv4Addr (s : Str) : Option ((Nat × Nat × Nat × Nat) × Str) := do
  let (a, s) ← readOctet true s
  let (b, s) ← readOctet false s
  let (c, s) ← readOctet false s
  let (d, s) ← readOctet false s
  return ((a, b, c, d), s)

/-- `read_groups`, of so many groups at most: those that were read, and whether an IPv4 address is
behind them. -/
def readGroups (first : Bool) : Nat → Str → List Nat × Bool × Str
  | 0, s => ([], false, s)
  | n + 1, s =>
    match if 0 < n then readSeparator ':' first readIpv4Addr s else none with
    | some ((a, b, c, d), s) => ([a * 256 + b, c * 256 + d], true, s)
    | none =>
      match readSeparator ':' first (readNumber 16 4 true 65536) s with
      | some (group, s) =>
        let (groups, ipv4, s) := readGroups false n s
        (group :: groups, ipv4, s)
      | none => ([], false, s)

/-- `read_ipv6_addr`: the groups. -/
def readIpv6Addr (s : Str) : Option (List Nat × Str) :=
  let (head, ipv4, s) := readGroups true 8 s
  if head.length = 8 then some (head, s)
  else if ipv4 then none
  else do
    let s ← readGivenChar ':' s
    let s ← readGivenChar ':' s
    let (tail, _, s) := readGroups true (8 - (head.length + 1)) s
    return (head ++ List.replicate (8 - head.length - tail.length) 0 ++ tail, s)

end AddrParser

namespace IpAddr

/-- The address of four octets. -/
def ofOctets (a b c d : Nat) : IpAddr := .v4 (BitVec.ofNat 32 (((a * 256 + b) * 256 + c) * 256 + d))

/-- The address of eight groups. -/
def ofGroups (groups : List Nat) : IpAddr :=
  .v6 (BitVec.ofNat 128 (groups.foldl (fun n g => n * 65536 + g) 0))

/-- `IpAddr::from_str`. -/
def fromStr (s : Str) : Option IpAddr :=
  match AddrParser.readIpv4Addr s with
  | some ((a, b, c, d), rest) => if rest = [] then some (ofOctets a b c d) else none
  | none =>
    match AddrParser.readIpv6Addr s with
    | some (groups, rest) => if rest = [] then some (ofGroups groups) else none
    | none => none

example : fromStr "::ffff:10.0.0.1".toList = some (.v6 0xFFFF0A000001) := by decide +kernel

example : fromStr "1::2::3".toList = none := by decide +kernel

/-- Dotted decimal. -/
def dotted (bits : BitVec 32) : Str :=
  Text.decimal (bits.toNat / 0x1000000) ++ '.' :: (Text.decimal (bits.toNat / 0x10000 % 256) ++
    '.' :: (Text.decimal (bits.toNat / 0x100 % 256) ++ '.' :: Text.decimal (bits.toNat % 256)))

end IpAddr

namespace AddrParser

/-- What begins with no digit. -/
def NoDigit (s : Str) : Prop := ∀ c, s.head? = some c → (toDigit 10 c).isSome = false

theorem toDigit_digitChar {d : Nat} (hd : d < 10) : toDigit 10 (Nat.digitChar d) = some d := by
  have h : ∀ d : Fin 10, toDigit 10 (Nat.digitChar d) = some d.val := by decide
  exact h ⟨d, hd⟩

/-- The decimal digits of a byte: three at most, without a zero in front. -/
theorem decimal_byte {n : Nat} (hn : n < 256) :
    ∃ ds : List Nat, Text.decimal n = ds.map Nat.digitChar ∧ (∀ d ∈ ds, d < 10) ∧ ds ≠ [] ∧
      ds.length ≤ 3 ∧ ds.foldl (fun n d => n * 10 + d) 0 = n ∧
      (1 < ds.length → ds.head? ≠ some 0) := by
  have hten : (1 : Nat) < 10 := by decide
  rw [Text.decimal]
  by_cases h₁ : n < 10
  · refine ⟨[n], Nat.toDigits_of_lt_base h₁, ?_, List.cons_ne_nil _ _, by simp, by simp, by simp⟩
    simpa using h₁
  by_cases h₂ : n < 100
  · refine ⟨[n / 10, n % 10], ?_, ?_, List.cons_ne_nil _ _, by simp, ?_, ?_⟩
    · rw [Nat.toDigits_of_base_le hten (by omega), Nat.toDigits_of_lt_base (by omega)]
      rfl
    · simp only [List.mem_cons, List.not_mem_nil, or_false, forall_eq_or_imp, forall_eq]
      omega
    · simp only [List.foldl_cons, List.foldl_nil]
      omega
    · simp only [List.head?_cons, ne_eq, Option.some.injEq]
      omega
  · refine ⟨[n / 10 / 10, n / 10 % 10, n % 10], ?_, ?_, List.cons_ne_nil _ _, by simp, ?_, ?_⟩
    · rw [Nat.toDigits_of_base_le hten (by omega), Nat.toDigits_of_base_le hten (by omega),
        Nat.toDigits_of_lt_base (by omega)]
      rfl
    · simp only [List.mem_cons, List.not_mem_nil, or_false, forall_eq_or_imp, forall_eq]
      omega
    · simp only [List.foldl_cons, List.foldl_nil]
      omega
    · simp only [List.head?_cons, ne_eq, Option.some.injEq]
      omega

/-- The digits of a byte are read to their end. -/
theorem readNumber_decimal {n : Nat} (hn : n < 256) {rest : Str} (hrest : NoDigit rest) :
    readNumber 10 3 false 256 (Text.decimal n ++ rest) = some (n, rest) := by
  obtain ⟨ds, hds, hlt, hne, hlen, hvalue, hzero⟩ := decimal_byte hn
  have hdigits : ∀ c ∈ ds.map Nat.digitChar, (toDigit 10 c).isSome = true := by
    intro c hc
    obtain ⟨d, hd, rfl⟩ := List.mem_map.mp hc
    rw [toDigit_digitChar (hlt d hd)]
    rfl
  have htake : rest.takeWhile (fun c => (toDigit 10 c).isSome) = [] := by
    cases rest with
    | nil => rfl
    | cons c rest => exact List.takeWhile_cons_of_neg (by simp [hrest c rfl])
  have hdrop : rest.dropWhile (fun c => (toDigit 10 c).isSome) = rest := by
    cases rest with
    | nil => rfl
    | cons c rest => exact List.dropWhile_cons_of_neg (by simp [hrest c rfl])
  have hback : (ds.map Nat.digitChar).filterMap (toDigit 10) = ds := by
    rw [List.filterMap_map]
    refine (List.filterMap_congr fun d hd => ?_).trans List.filterMap_some
    exact toDigit_digitChar (hlt d hd)
  have hhead : ¬ ((ds.map Nat.digitChar).head? = some '0' ∧ 1 < ds.length) := by
    rintro ⟨hhead, hlong⟩
    cases ds with
    | nil => cases hhead
    | cons d ds =>
      have h := congrArg (·.bind (toDigit 10)) hhead
      simp only [List.map_cons, List.head?_cons, Option.bind_some,
        toDigit_digitChar (hlt d List.mem_cons_self)] at h
      exact hzero hlong h
  rw [hds]
  simp only [readNumber, List.takeWhile_append_of_pos hdigits, List.dropWhile_append_of_pos hdigits,
    htake, hdrop, List.append_nil, hback, hvalue]
  have hread : ¬ (ds = [] ∨ 3 < ds.length ∨ 256 ≤ n) := by
    rintro (h | h | h)
    · exact hne h
    · omega
    · omega
  rw [if_neg hread, if_neg (by simpa using hhead)]

theorem noDigit_dot (s : Str) : NoDigit ('.' :: s) := by
  rintro c ⟨⟩
  decide

theorem noDigit_nil : NoDigit [] := fun _ h => nomatch h

end AddrParser

/-- **Dotted decimal is read back.** -/
theorem IpAddr.fromStr_dotted (bits : BitVec 32) : fromStr (dotted bits) = some (.v4 bits) := by
  have hlt := bits.isLt
  have ha := AddrParser.readNumber_decimal (n := bits.toNat / 0x1000000) (by omega)
    (AddrParser.noDigit_dot (Text.decimal (bits.toNat / 0x10000 % 256) ++
    '.' :: (Text.decimal (bits.toNat / 0x100 % 256) ++ '.' :: Text.decimal (bits.toNat % 256))))
  have hb := AddrParser.readNumber_decimal (n := bits.toNat / 0x10000 % 256) (by omega)
    (AddrParser.noDigit_dot (Text.decimal (bits.toNat / 0x100 % 256) ++
      '.' :: Text.decimal (bits.toNat % 256)))
  have hc := AddrParser.readNumber_decimal (n := bits.toNat / 0x100 % 256) (by omega)
    (AddrParser.noDigit_dot (Text.decimal (bits.toNat % 256)))
  have hd := AddrParser.readNumber_decimal (n := bits.toNat % 256) (by omega) AddrParser.noDigit_nil
  rw [List.append_nil] at hd
  have hread : AddrParser.readIpv4Addr (dotted bits) = some ((bits.toNat / 0x1000000,
      bits.toNat / 0x10000 % 256, bits.toNat / 0x100 % 256, bits.toNat % 256), []) := by
    simp only [AddrParser.readIpv4Addr, AddrParser.readOctet, AddrParser.readSeparator,
      AddrParser.readGivenChar, dotted, ha, hb, hc, hd, if_true, Option.bind_eq_bind,
      Option.bind_some, Bool.false_eq_true, if_false]
    rfl
  rw [fromStr, hread]
  simp only [if_true, ofOctets]
  congr 2
  apply BitVec.eq_of_toNat_eq
  rw [BitVec.toNat_ofNat]
  omega

end Rustmote
