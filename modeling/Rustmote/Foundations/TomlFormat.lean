import Rustmote.Foundations.Civil
import Mathlib.Logic.Equiv.List

/-!
# The toml crate, for one type

The repository prints and reads its files through the `toml` crate, which it does not contain.
`TomlFormat α` is what it uses of the crate for the values of one type, and `RoundTrips` and
`Total` are what is assumed of it.

`ofTable` is such a format that can be run: it has the given texts for the values of a table,
and some text for any other value.
-/

namespace Rustmote

/-- The `toml` crate, for the values of a type. -/
structure TomlFormat (α : Type) where
  /-- `toml::to_string_pretty`. -/
  toStringPretty : α → Except Str Str
  /-- `toml::from_str`. -/
  fromStr : Str → Except Str α

instance encodableChar : Encodable Char := Encodable.ofLeftInverse Char.toNat Char.ofNat Char.ofNat_toNat

instance encodableDateTime : Encodable DateTime :=
  Encodable.ofLeftInverse (fun t => (t.timestamp, t.nanos)) (fun x => ⟨x.1, x.2⟩) fun _ => rfl

namespace TomlFormat

variable {α : Type}

/-- What is printed is read back. -/
def RoundTrips (toml : TomlFormat α) : Prop :=
  ∀ value text, toml.toStringPretty value = .ok text → toml.fromStr text = .ok value

/-- Every value can be printed. -/
def Total (toml : TomlFormat α) : Prop := ∀ value, ∃ text, toml.toStringPretty value = .ok text

/-- The text of a value that is not in the table: so many exclamation marks. -/
def marks (n : Nat) : Str := List.replicate n '!'

variable [DecidableEq α] [Encodable α]

/-- A format with given texts for the values of a table, and some text for any other. -/
def ofTable (table : List (α × Str)) : TomlFormat α where
  toStringPretty value :=
    match table.find? fun e => e.1 = value with
    | some e => .ok e.2
    | none => .ok (marks (Encodable.encode value))
  fromStr text :=
    match table.find? fun e => e.2 = text with
    | some e => .ok e.1
    | none =>
      if text = marks text.length then
        match Encodable.decode text.length with
        | some value => .ok value
        | none => .error []
      else .error []

theorem total_ofTable (table : List (α × Str)) : (ofTable table).Total := by
  intro value
  simp only [ofTable]
  split
  · exact ⟨_, rfl⟩
  · exact ⟨_, rfl⟩

/-- What it prints it reads back, if the texts tell the values apart. -/
theorem roundTrips_ofTable {table : List (α × Str)}
    (htexts : ∀ e ∈ table, ∀ e' ∈ table, e.2 = e'.2 → e.1 = e'.1)
    (hmarks : ∀ e ∈ table, e.2 ≠ marks e.2.length) : (ofTable table).RoundTrips := by
  intro value text hprint
  simp only [ofTable] at hprint ⊢
  cases hfind : table.find? fun e => e.1 = value with
  | some e =>
    rw [hfind] at hprint
    obtain rfl := Except.ok.inj hprint
    obtain ⟨e', he'⟩ : ∃ e', (table.find? fun x => x.2 = e.2) = some e' := by
      rw [← Option.isSome_iff_exists, List.find?_isSome]
      exact ⟨e, List.mem_of_find?_eq_some hfind, by simp⟩
    rw [he']
    have hvalue : e.1 = value := by simpa using List.find?_some hfind
    have htext : e'.2 = e.2 := by simpa using List.find?_some he'
    show Except.ok e'.1 = Except.ok value
    rw [htexts e' (List.mem_of_find?_eq_some he') e (List.mem_of_find?_eq_some hfind) htext, hvalue]
  | none =>
    rw [hfind] at hprint
    obtain rfl := Except.ok.inj hprint
    have hlen : (marks (Encodable.encode value)).length = Encodable.encode value :=
      List.length_replicate
    have hnone : (table.find? fun e => e.2 = marks (Encodable.encode value)) = none := by
      rw [List.find?_eq_none]
      intro e he heq
      have heq : e.2 = marks (Encodable.encode value) := by simpa using heq
      exact hmarks e he (by rw [heq, hlen])
    rw [hnone, hlen, if_pos rfl, Encodable.encodek]

end TomlFormat

end Rustmote
