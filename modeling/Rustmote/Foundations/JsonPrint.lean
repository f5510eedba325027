import Rustmote.Foundations.Json

/-!
# Printing JSON

A value is printed in a layout: what stands before an element or a member of a list that is so
deep, and what stands behind a colon. Nothing stands there in the compact layout, and a line end
with spaces in a pretty one.

* `derives_print` — what is printed derives from the grammar, in every layout.
* `not_mem_print_compact` — a value that is printed compactly is one line.
-/

namespace Rustmote

/-- Entries in the order of their keys are put into a map in that order. -/
theorem BTreeMap.insertEntry_of_lt {K V : Type} [LinearOrder K] {key : K} (value : V)
    {entries : List (K × V)} (h : ∀ e ∈ entries, e.1 < key) :
    insertEntry key value entries = entries ++ [(key, value)] := by
  induction entries with
  | nil => rfl
  | cons e entries ih =>
    obtain ⟨he, hentries⟩ := List.forall_mem_cons.mp h
    rw [insertEntry, if_neg (ne_of_gt he), if_neg (not_lt_of_gt he), ih hentries]
    rfl

theorem BTreeMap.foldl_insertEntry {K V : Type} [LinearOrder K] (m : BTreeMap K V) :
    m.entries.foldl (fun entries e => insertEntry e.1 e.2 entries) [] = m.entries := by
  have hfold : ∀ before after : List (K × V),
      (before ++ after).Pairwise (fun a b => a.1 < b.1) →
      after.foldl (fun entries e => insertEntry e.1 e.2 entries) before = before ++ after := by
    intro before after
    induction after generalizing before with
    | nil => exact fun _ => (List.append_nil before).symm
    | cons e after ih =>
      intro hsorted
      have hlt : ∀ a ∈ before, a.1 < e.1 := fun a ha =>
        (List.pairwise_append.mp hsorted).2.2 a ha e List.mem_cons_self
      rw [List.foldl_cons, insertEntry_of_lt e.2 hlt, ih (before ++ [e]) (by simpa using hsorted)]
      simp
  exact hfold [] m.entries m.sorted

namespace Json

/-! ### The printer -/

/-- Where white space stands in a printed value. -/
structure Layout where
  /-- Before an element or a member of a list so deep, and before the end of the list. -/
  line : Nat → Str
  /-- Behind the colon of a member. -/
  gap : Str
  ws_line : ∀ n, Ws (line n)
  ws_gap : Ws gap

/-- No white space. -/
def Layout.compact : Layout where
  line _ := []
  gap := []
  ws_line _ := fun _ hc => absurd hc List.not_mem_nil
  ws_gap := fun _ hc => absurd hc List.not_mem_nil

@[simp] theorem Layout.compact_line (n : Nat) : compact.line n = [] := rfl

@[simp] theorem Layout.compact_gap : compact.gap = [] := rfl

/-- The two ends of a line. -/
def lineEnd (carriageReturn : Bool) : Str := if carriageReturn then ['\r', '\n'] else ['\n']

/-- Every element and member on its own line. -/
def Layout.pretty (carriageReturn : Bool) : Layout where
  line n := lineEnd carriageReturn ++ List.replicate (2 * n) ' '
  gap := [' ']
  ws_line n c hc := by
    rcases List.mem_append.mp hc with hc | hc
    · cases carriageReturn <;> simp [lineEnd] at hc
      · rw [hc]
        rfl
      · rcases hc with rfl | rfl <;> rfl
    · rw [List.eq_of_mem_replicate hc]
      rfl
  ws_gap c hc := by
    rw [List.mem_singleton.mp hc]
    rfl

/-- The hex digit of a number below sixteen. -/
def hexChar (n : Nat) : Char := if n < 10 then Char.ofNat (48 + n) else Char.ofNat (87 + n)

/-- A character in a string. -/
def escape (c : Char) : Str :=
  if c = '"' then ['\\', '"']
  else if c = '\\' then ['\\', '\\']
  else if c = '\n' then ['\\', 'n']
  else if c = '\r' then ['\\', 'r']
  else if c = '\t' then ['\\', 't']
  else if c.toNat < 0x20 then ['\\', 'u', '0', '0', hexChar (c.toNat / 16), hexChar (c.toNat % 16)]
  else [c]

/-- A string, without its quotes. -/
def escaped (s : Str) : Str := s.flatMap escape

mutual

/-- A value, so deep in a layout. -/
def print (layout : Layout) (depth : Nat) : JsonValue → Str
  | .null => "null".toList
  | .bool true => "true".toList
  | .bool false => "false".toList
  | .number s => s
  | .string s => '"' :: (escaped s ++ ['"'])
  | .array items =>
    '[' :: (printElements layout (depth + 1) items ++
      ((if items.isEmpty then [] else layout.line depth) ++ [']']))
  | .object fields =>
    '{' :: (printMembers layout (depth + 1) fields ++
      ((if fields.isEmpty then [] else layout.line depth) ++ ['}']))

/-- Elements. -/
def printElements (layout : Layout) (depth : Nat) : List JsonValue → Str
  | [] => []
  | v :: vs =>
    layout.line depth ++ (print layout depth v ++
      ((if vs.isEmpty then [] else [',']) ++ printElements layout depth vs))

/-- Members. -/
def printMembers (layout : Layout) (depth : Nat) : List (Str × JsonValue) → Str
  | [] => []
  | m :: ms =>
    layout.line depth ++ (printMember layout depth m ++
      ((if ms.isEmpty then [] else [',']) ++ printMembers layout depth ms))

/-- A member. -/
def printMember (layout : Layout) (depth : Nat) : Str × JsonValue → Str
  | (key, v) => '"' :: (escaped key ++ '"' :: ':' :: (layout.gap ++ print layout depth v))

end

/-! ### What is printed derives from the grammar -/

theorem quad_hexChar : ∀ n < 0x20, quad ['0', '0', hexChar (n / 16), hexChar (n % 16)] = some n := by
  decide +kernel

theorem piece_escape (c : Char) : Piece (escape c) c := by
  unfold escape
  split_ifs with hquote hback hline hreturn htab hcontrol
  · rw [hquote]
    exact .short rfl
  · rw [hback]
    exact .short rfl
  · rw [hline]
    exact .short rfl
  · rw [hreturn]
    exact .short rfl
  · rw [htab]
    exact .short rfl
  · have hpiece := Piece.code (quad_hexChar c.toNat hcontrol) (.inl (by omega))
    rwa [Char.ofNat_toNat] at hpiece
  · refine .plain ?_
    rw [isPlain, Bool.and_eq_true, Bool.and_eq_true, decide_eq_true_eq, decide_eq_true_eq,
      decide_eq_true_eq]
    exact ⟨⟨hquote, hback⟩, not_lt.mp hcontrol⟩

theorem pieces_escaped (s : Str) : Pieces (escaped s) s := by
  induction s with
  | nil => exact .nil
  | cons c s ih => exact .cons (piece_escape c) ih

/-- A value that a text can have: its numbers are numbers, and its objects are maps. -/
inductive Proper : Node → Prop where
  | null : Proper (.value .null)
  | bool (b : Bool) : Proper (.value (.bool b))
  | number {s : Str} (h : isNumber s = true) : Proper (.value (.number s))
  | string (s : Str) : Proper (.value (.string s))
  | array {items : List JsonValue} (h : Proper (.elements items)) : Proper (.value (.array items))
  | object {m : BTreeMap Str JsonValue} (h : Proper (.members m.entries)) :
      Proper (.value (.object m.entries))
  | noElements : Proper (.elements [])
  | element {v : JsonValue} {vs : List JsonValue} (h : Proper (.value v))
      (hrest : Proper (.elements vs)) : Proper (.elements (v :: vs))
  | noMembers : Proper (.members [])
  | member {key : Str} {v : JsonValue} {ms : List (Str × JsonValue)} (h : Proper (.value v))
      (hrest : Proper (.members ms)) : Proper (.members ((key, v) :: ms))

/-- What is printed derives from the grammar: a list together with white space behind it. -/
def Printed (layout : Layout) : Node → Prop
  | .value v => ∀ depth, Derives (.value v) (print layout depth v)
  | .elements vs => vs ≠ [] → ∀ depth w, Ws w →
    Derives (.elements vs) (printElements layout depth vs ++ w)
  | .members ms => ms ≠ [] → ∀ depth w, Ws w →
    Derives (.members ms) (printMembers layout depth ms ++ w)

theorem ws_nil : Ws [] := fun _ hc => absurd hc List.not_mem_nil

theorem printed (layout : Layout) {node : Node} (h : Proper node) : Printed layout node := by
  induction h with
  | null => exact fun _ => .null
  | bool b =>
    cases b with
    | true => exact fun _ => .yes
    | false => exact fun _ => .no
  | number h => exact fun _ => .number h
  | string s => exact fun _ => .string (pieces_escaped s)
  | @array items h ih =>
    intro depth
    cases items with
    | nil => exact .emptyArray ws_nil
    | cons v vs =>
      have hitems := Derives.array (ih (List.cons_ne_nil v vs) (depth + 1) _ (layout.ws_line depth))
      rwa [List.append_assoc] at hitems
  | @object m h ih =>
    intro depth
    have hmap : objectOf m.entries = m.entries := m.foldl_insertEntry
    cases hentries : m.entries with
    | nil => exact .emptyObject ws_nil
    | cons e es =>
      have hfields := Derives.object (ih (by simp [hentries]) (depth + 1) _ (layout.ws_line depth))
      rw [hmap, List.append_assoc, hentries] at hfields
      exact hfields
  | noElements => exact fun h => absurd rfl h
  | @element v vs h hrest ih ihrest =>
    intro _ depth w hw
    cases vs with
    | nil =>
      have helement := Derives.element (layout.ws_line depth) (ih depth) hw
      simpa [printElements] using helement
    | cons v' vs =>
      have hmore := ihrest (List.cons_ne_nil v' vs) depth w hw
      have helements := Derives.elements (layout.ws_line depth) (ih depth) ws_nil hmore
      rw [printElements]
      simpa using helements
  | noMembers => exact fun h => absurd rfl h
  | @member key v ms h hrest ih ihrest =>
    intro _ depth w hw
    cases ms with
    | nil =>
      have hmember := Derives.member (layout.ws_line depth) (pieces_escaped key) ws_nil
        layout.ws_gap (ih depth) hw
      simpa [printMembers, printMember] using hmember
    | cons m ms =>
      have hmore := ihrest (List.cons_ne_nil m ms) depth w hw
      have hmembers := Derives.members (layout.ws_line depth) (pieces_escaped key) ws_nil
        layout.ws_gap (ih depth) ws_nil hmore
      rw [printMembers, printMember]
      simpa using hmembers

/-- **What is printed derives from the grammar**, in every layout. -/
theorem derives_print (layout : Layout) (depth : Nat) {v : JsonValue} (h : Proper (.value v)) :
    Derives (.value v) (print layout depth v) :=
  printed layout h depth

/-! ### One line -/

theorem hexChar_ne : ∀ n < 0x20, '\n' ≠ hexChar (n / 16) ∧ '\n' ≠ hexChar (n % 16) := by
  decide +kernel

theorem not_mem_escape (c : Char) : '\n' ∉ escape c := by
  unfold escape
  split_ifs with hquote hback hline hreturn htab hcontrol
  · decide
  · decide
  · decide
  · decide
  · decide
  · obtain ⟨hhigh, hlow⟩ := hexChar_ne c.toNat hcontrol
    simp [hhigh, hlow]
  · simp [Ne.symm hline]

theorem not_mem_escaped (s : Str) : '\n' ∉ escaped s := by
  intro h
  obtain ⟨c, -, hc⟩ := List.mem_flatMap.mp h
  exact not_mem_escape c hc

/-- Nothing that is printed compactly has a line feed in it. -/
def OneLine : Node → Prop
  | .value v => ∀ depth, '\n' ∉ print .compact depth v
  | .elements vs => ∀ depth, '\n' ∉ printElements .compact depth vs
  | .members ms => ∀ depth, '\n' ∉ printMembers .compact depth ms

theorem oneLine {node : Node} (h : Proper node) : OneLine node := by
  induction h with
  | null =>
    intro depth
    show '\n' ∉ "null".toList
    decide
  | bool b =>
    intro depth
    cases b with
    | true =>
      show '\n' ∉ "true".toList
      decide
    | false =>
      show '\n' ∉ "false".toList
      decide
  | number h =>
    intro _ hmem
    have hchar := (number_spec h).2 _ hmem
    cases hchar
  | string s =>
    intro _
    simp [print, not_mem_escaped s]
  | @array items h ih =>
    intro depth
    simp [print, ih (depth + 1)]
  | @object m h ih =>
    intro depth
    simp [print, ih (depth + 1)]
  | noElements => exact fun _ => List.not_mem_nil
  | @element v vs h hrest ih ihrest =>
    intro depth
    cases vs with
    | nil => simp [printElements, ih depth]
    | cons v' vs =>
      rw [printElements]
      simp [ih depth, ihrest depth]
  | noMembers => exact fun _ => List.not_mem_nil
  | @member key v ms h hrest ih ihrest =>
    intro depth
    cases ms with
    | nil => simp [printMembers, printMember, ih depth, not_mem_escaped key]
    | cons m ms =>
      rw [printMembers, printMember]
      simp [ih depth, ihrest depth, not_mem_escaped key]

/-- **A value that is printed compactly is one line.** -/
theorem not_mem_print_compact (depth : Nat) {v : JsonValue} (h : Proper (.value v)) :
    '\n' ∉ print .compact depth v :=
  oneLine h depth

end Json

end Rustmote
