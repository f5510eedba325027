import Rustmote.Discovery.Addresses
import Rustmote.RelayLifecycle.Commands

/-!
# The ARP table

`parse_proc_net_arp` and `looks_like_mac` of `discovery.rs`. The parser goes through the lines behind
the first and skips each that it cannot read; what it keeps are the address and the mac of a row.

`parseProcNetArp_exact` says what it returns: nothing but macs that are resolved, each from its
line, and of a table in which every line lists a row, just the rows that are resolved.
-/

namespace Rustmote

namespace Discovery

/-- The mac of an incomplete entry. -/
def incomplete : Str := "00:00:00:00:00:00".toList

/-- `looks_like_mac`. -/
def looksLikeMac (s : Str) : Bool :=
  let parts := s.splitOn ':'
  parts.length = 6 && parts.all fun p => Utf8.len p = 2 && p.all Commands.isAsciiHexDigit

/-- The loop body of `parse_proc_net_arp`. -/
def parseArpLine (line : Str) : Option (IpAddr × Str) :=
  match Text.splitWhitespace line with
  | first :: _ :: _ :: mac :: _ =>
    match IpAddr.fromStr first with
    | none => none
    | some ip => if mac = incomplete then none else if looksLikeMac mac then some (ip, mac) else none
  | _ => none

/-- `parse_proc_net_arp`. -/
def parseProcNetArp (body : Str) : List (IpAddr × Str) :=
  ((Text.lines body).drop 1).filterMap parseArpLine

/-- `arp_read_from`, for what reading the file comes to. -/
def arpReadFrom (read : Except Str Str) : List (IpAddr × Str) :=
  match read with
  | .ok body => parseProcNetArp body
  | .error _ => []

/-! ### Macs -/

/-- A byte in two hex digits. -/
def hexByte (b : UInt8) : Str := [Nat.digitChar (b.toNat / 16), Nat.digitChar (b.toNat % 16)]

/-- A mac. -/
abbrev Mac : Type := { bytes : List UInt8 // bytes.length = 6 }

/-- A mac as it is printed. -/
def Mac.text (mac : Mac) : Str := [':'].intercalate (mac.val.map hexByte)

/-- The mac that no card has. -/
def Mac.zero : Mac := ⟨List.replicate 6 0, rfl⟩

theorem hexByte_spec (b : UInt8) : Utf8.len (hexByte b) = 2 ∧
    (hexByte b).all Commands.isAsciiHexDigit = true ∧ ':' ∉ hexByte b := by
  have h : ∀ high low : Fin 16, Utf8.len [Nat.digitChar high, Nat.digitChar low] = 2 ∧
      [Nat.digitChar high, Nat.digitChar low].all Commands.isAsciiHexDigit = true ∧
      ':' ∉ [Nat.digitChar high, Nat.digitChar low] := by decide +kernel
  have hb := b.toNat_lt
  exact h ⟨b.toNat / 16, by omega⟩ ⟨b.toNat % 16, by omega⟩

theorem hexByte_injective : Function.Injective hexByte := by
  have hdigit : ∀ n m : Fin 16, Nat.digitChar n = Nat.digitChar m → n = m := by decide
  intro a b hab
  have ha := a.toNat_lt
  have hb := b.toNat_lt
  obtain ⟨hhigh, hlow⟩ := List.cons.inj hab
  have hhigh' := hdigit ⟨a.toNat / 16, by omega⟩ ⟨b.toNat / 16, by omega⟩ hhigh
  have hlow' := hdigit ⟨a.toNat % 16, by omega⟩ ⟨b.toNat % 16, by omega⟩ (List.cons.inj hlow).1
  refine UInt8.toNat_inj.mp ?_
  have hhigh'' := congrArg Fin.val hhigh'
  have hlow'' := congrArg Fin.val hlow'
  dsimp only at hhigh'' hlow''
  omega

theorem Mac.splitOn_text (mac : Mac) : mac.text.splitOn ':' = mac.val.map hexByte := by
  refine List.splitOn_intercalate ':' (fun part hpart => ?_) ?_
  · obtain ⟨b, -, rfl⟩ := List.mem_map.mp hpart
    exact (hexByte_spec b).2.2
  · intro hnil
    have hlen := mac.property
    rw [List.map_eq_nil_iff.mp hnil] at hlen
    cases hlen

theorem Mac.text_injective : Function.Injective Mac.text := by
  intro a b hab
  have hsplit := congrArg (List.splitOn ':') hab
  rw [splitOn_text, splitOn_text] at hsplit
  exact Subtype.ext (List.map_injective_iff.mpr hexByte_injective hsplit)

theorem Mac.text_zero : Mac.zero.text = incomplete := by decide +kernel

theorem Mac.looksLikeMac_text (mac : Mac) : looksLikeMac mac.text = true := by
  simp only [looksLikeMac, splitOn_text, List.length_map, mac.property, decide_true, Bool.true_and,
    List.all_map, List.all_eq_true]
  intro b _
  obtain ⟨hlen, hhex, -⟩ := hexByte_spec b
  simp only [Function.comp_apply, hlen, hhex, decide_true, Bool.and_self]

/-! ### Rows -/

/-- A row of the table. -/
structure ArpRow where
  ip : BitVec 32
  hwType : Str
  flags : Str
  mac : Mac
  /-- The other columns. -/
  rest : List Str

/-- The columns of a line are those of the row. -/
def ArpRow.Listed (row : ArpRow) (line : Str) : Prop :=
  Text.splitWhitespace line =
    IpAddr.dotted row.ip :: row.hwType :: row.flags :: row.mac.text :: row.rest

theorem parseArpLine_listed {row : ArpRow} {line : Str} (h : row.Listed line) :
    parseArpLine line = if row.mac = Mac.zero then none else some (.v4 row.ip, row.mac.text) := by
  rw [parseArpLine, h]
  simp only [IpAddr.fromStr_dotted, Mac.looksLikeMac_text, if_true, ← Mac.text_zero,
    Mac.text_injective.eq_iff]

/-- The line gives the address this mac. -/
def Gives (line : Str) (ip : IpAddr) (mac : Str) : Prop :=
  looksLikeMac mac = true ∧ mac ≠ incomplete ∧ ∃ first hwType flags rest,
    Text.splitWhitespace line = first :: hwType :: flags :: mac :: rest ∧
      IpAddr.fromStr first = some ip

theorem parseArpLine_eq_some_iff {line mac : Str} {ip : IpAddr} :
    parseArpLine line = some (ip, mac) ↔ Gives line ip mac := by
  constructor
  · intro h
    unfold parseArpLine at h
    split at h
    · next first hwType flags mac' rest hcols =>
      split at h
      · cases h
      · next ip' hip =>
        split_ifs at h with hzero hmac
        obtain ⟨rfl, rfl⟩ := Prod.mk.inj (Option.some.inj h)
        exact ⟨hmac, hzero, first, hwType, flags, rest, hcols, hip⟩
    · cases h
  · rintro ⟨hmac, hzero, first, hwType, flags, rest, hcols, hip⟩
    rw [parseArpLine, hcols]
    simp only [hip, if_neg hzero, hmac, if_true]

theorem mem_parseProcNetArp_iff {body mac : Str} {ip : IpAddr} :
    (ip, mac) ∈ parseProcNetArp body ↔ ∃ line ∈ (Text.lines body).drop 1, Gives line ip mac := by
  simp only [parseProcNetArp, List.mem_filterMap, parseArpLine_eq_some_iff]

/-- **What the parser returns.** -/
theorem parseProcNetArp_exact (body : Str) :
    (∀ ip mac, (ip, mac) ∈ parseProcNetArp body ↔
      ∃ line ∈ (Text.lines body).drop 1, Gives line ip mac) ∧
    ∀ header lines rows, Text.lines body = header :: lines →
      List.Forall₂ ArpRow.Listed rows lines →
      parseProcNetArp body =
        (rows.filter fun row => row.mac ≠ Mac.zero).map fun row => (.v4 row.ip, row.mac.text) := by
  constructor
  · exact fun ip mac => mem_parseProcNetArp_iff
  · intro header lines rows hlines hlisted
    rw [parseProcNetArp, hlines, List.drop_one, List.tail_cons]
    clear hlines
    induction hlisted with
    | nil => rfl
    | @cons row line rows lines hrow _ ih =>
      by_cases hzero : row.mac = Mac.zero
      · rw [List.filterMap_cons_none (by rw [parseArpLine_listed hrow, if_pos hzero]), ih,
          List.filter_cons_of_neg (by simpa using hzero)]
      · rw [List.filterMap_cons_some (by rw [parseArpLine_listed hrow, if_neg hzero]), ih,
          List.filter_cons_of_pos (by simpa using hzero), List.map_cons]

/-- A row with a mac and one without. -/
def twoRows : List ArpRow :=
  [⟨0x0A000007, "0x1".toList, "0x2".toList, ⟨[0xab, 0xcd, 0xef, 0x12, 0x34, 0x56], rfl⟩, ["*".toList]⟩,
    ⟨0x0A000008, "0x1".toList, "0x0".toList, Mac.zero, ["*".toList]⟩]

/-- Their table. -/
def twoLines : Str :=
  "IP\n10.0.0.7  0x1 0x2 ab:cd:ef:12:34:56 *\n10.0.0.8 0x1 0x0 00:00:00:00:00:00 *\n".toList

/-- Only the first of them is returned. -/
theorem parseProcNetArp_exact_two :
    parseProcNetArp twoLines = [(.v4 0x0A000007, "ab:cd:ef:12:34:56".toList)] := by
  have hlines : Text.lines twoLines = "IP".toList ::
      ["10.0.0.7  0x1 0x2 ab:cd:ef:12:34:56 *".toList,
        "10.0.0.8 0x1 0x0 00:00:00:00:00:00 *".toList] := by decide +kernel
  have hlisted : List.Forall₂ ArpRow.Listed twoRows
      ["10.0.0.7  0x1 0x2 ab:cd:ef:12:34:56 *".toList,
        "10.0.0.8 0x1 0x0 00:00:00:00:00:00 *".toList] := by
    refine .cons ?_ (.cons ?_ .nil)
    · unfold ArpRow.Listed
      decide +kernel
    · unfold ArpRow.Listed
      decide +kernel
  exact ((parseProcNetArp_exact twoLines).2 _ _ _ hlines hlisted).trans (by decide +kernel)

end Discovery

end Rustmote
