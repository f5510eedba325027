import Rustmote.Foundations.JsonPrint
import Rustmote.RelayLifecycle.Render

/-!
# The two shapes of a listing

`docker compose ps --format json` prints one JSON array, or one JSON object per line.
`parse_compose_ps_json` tries the whole text as JSON first, and goes line by line where that is no
array: so the first character decides, and objects one per line are read line by line even when
they are one line and the whole text is JSON.

* `parse_array`, `parse_lines` — what is read of any text of an array, and of any texts of objects
  on lines of their own, whatever the order of the members, the escapes and the white space.
* `compose_shapes` — both shapes of a list of objects are read as the same rows, in order;
  `compose_shapes_printed` for the texts that a printer makes.
-/

namespace Rustmote

open Json (Derives JsonText Layout Proper print lineEnd)

variable {json : Str → Option JsonValue} {vs : List JsonValue} {text body lead trail : Str}

/-! ### Rows -/

/-- The row of an object: it has a service, which is a string; its state is unknown, and its image
missing, where they are no strings. -/
def rowOf (m : BTreeMap Str JsonValue) : Option ContainerStatus :=
  match m.get "Service".toList with
  | some (.string service) => some {
      service := service
      state := match m.get "State".toList with
        | some (.string state) => state
        | _ => "unknown".toList
      image := match m.get "Image".toList with
        | some (.string image) => some image
        | _ => none }
  | _ => none

/-- A field of an object is the field of its map. -/
theorem JsonValue.get_object (m : BTreeMap Str JsonValue) (key : Str) :
    (JsonValue.object m.entries).get key = m.get key := by
  rw [JsonValue.get, m.get_eq_find? fun k => decide_eq_true_iff]

theorem rowFromValue_object (m : BTreeMap Str JsonValue) :
    rowFromValue (.object m.entries) = rowOf m := by
  have hstring : ∀ v : Option JsonValue, v.bind JsonValue.asStr = match v with
      | some (.string s) => some s
      | _ => none := by
    intro v
    cases v with
    | none => rfl
    | some v => cases v <;> rfl
  have hgetD : ∀ (v : Option JsonValue) (d : Str), (v.bind JsonValue.asStr).getD d = match v with
      | some (.string s) => s
      | _ => d := by
    intro v d
    cases v with
    | none => rfl
    | some v => cases v <;> rfl
  rw [rowOf, ← hgetD, ← hstring]
  simp only [rowFromValue, JsonValue.get_object]
  cases m.get "Service".toList with
  | none => rfl
  | some v => cases v <;> rfl

/-! ### The array -/

/-- An array stands between brackets. -/
theorem derives_array (h : Derives (.value (.array vs)) text) : ∃ mid, text = '[' :: (mid ++ [']']) := by
  cases h with
  | emptyArray => exact ⟨_, rfl⟩
  | array => exact ⟨_, rfl⟩

/-- An object stands between braces. -/
theorem derives_object {fields : List (Str × JsonValue)}
    (h : Derives (.value (.object fields)) text) : ∃ mid, text = '{' :: (mid ++ ['}']) := by
  cases h with
  | emptyObject => exact ⟨_, rfl⟩
  | object => exact ⟨_, rfl⟩

/-- White space, as `str::trim` has it. -/
def Blank (s : Str) : Prop := ∀ c ∈ s, Text.isWhitespace c = true

theorem blank_of_all {s : Str} (h : s.all Text.isWhitespace = true) : Blank s :=
  List.all_eq_true.mp h

/-- A text of the grammar without white space at its ends is a value. -/
theorem derives_of_jsonText {v : JsonValue} (h : JsonText text v)
    (hhead : ∀ c ∈ text.head?, Json.isWs c = false)
    (hlast : ∀ c ∈ text.getLast?, Json.isWs c = false) : Derives (.value v) text := by
  obtain ⟨w, t, w', hw, hderives, hw', rfl⟩ := h
  have hfirst : w = [] := by
    cases w with
    | nil => rfl
    | cons c w =>
      have hc := hhead c rfl
      rw [hw c List.mem_cons_self] at hc
      cases hc
  have hrest : w' = [] := by
    cases w' using List.reverseRecOn with
    | nil => rfl
    | append_singleton w' c =>
      have hc := hlast c (by rw [← List.append_assoc, ← List.append_assoc, List.getLast?_concat]; rfl)
      rw [hw' c (by simp)] at hc
      cases hc
  rwa [hfirst, hrest, List.append_nil]

theorem jsonText_of_derives {v : JsonValue} (h : Derives (.value v) text) : JsonText text v :=
  ⟨[], text, [], Json.ws_nil, h, Json.ws_nil, (List.append_nil text).symm⟩

/-- White space is trimmed off a text between two other characters. -/
theorem trim_between {a b : Char} {mid : Str} (hlead : Blank lead) (htrail : Blank trail)
    (ha : Text.isWhitespace a = false) (hb : Text.isWhitespace b = false) :
    Text.trim (lead ++ (a :: (mid ++ [b]) ++ trail)) = a :: (mid ++ [b]) := by
  refine Text.trim_append hlead htrail (List.cons_ne_nil _ _) (fun c hc => ?_) fun c hc => ?_
  · exact Option.some.inj hc ▸ ha
  · rw [← List.cons_append, List.getLast?_concat] at hc
    exact Option.some.inj hc ▸ hb

/-- **An array is read as its rows.** -/
theorem parse_array (hjson : ∀ s v, json s = some v ↔ JsonText s v)
    (h : Derives (.value (.array vs)) text) (hlead : Blank lead) (htrail : Blank trail) :
    parseComposePsJson json (lead ++ (text ++ trail)) = vs.filterMap rowFromValue := by
  have hread := (hjson text (.array vs)).mpr (jsonText_of_derives h)
  obtain ⟨mid, rfl⟩ := derives_array h
  have htrim : Text.trim (lead ++ ('[' :: (mid ++ [']']) ++ trail)) = '[' :: (mid ++ [']']) :=
    trim_between hlead htrail rfl rfl
  unfold parseComposePsJson
  simp only [htrim, hread]
  exact if_neg (List.cons_ne_nil _ _)

/-! ### One object per line -/

/-- Texts of objects, each on a line of its own; a line may end with a carriage return. -/
inductive ObjectLines : List JsonValue → Str → Prop where
  | last {fields : List (Str × JsonValue)} {text : Str}
      (h : Derives (.value (.object fields)) text) (hline : '\n' ∉ text) :
      ObjectLines [.object fields] text
  | line {fields : List (Str × JsonValue)} {vs : List JsonValue} {text rest : Str}
      (h : Derives (.value (.object fields)) text) (hline : '\n' ∉ text) (carriageReturn : Bool)
      (hrest : ObjectLines vs rest) :
      ObjectLines (.object fields :: vs) (text ++ (lineEnd carriageReturn ++ rest))

/-- Objects on lines stand between two braces. -/
theorem ObjectLines.between (h : ObjectLines vs body) : ∃ mid, body = '{' :: (mid ++ ['}']) := by
  induction h with
  | last h _ => exact derives_object h
  | line h _ carriageReturn _ ih =>
    obtain ⟨mid, rfl⟩ := derives_object h
    obtain ⟨mid', rfl⟩ := ih
    exact ⟨mid ++ '}' :: (lineEnd carriageReturn ++ '{' :: mid'), by simp⟩

/-- The line of an object is its text, with a carriage return at its end or without. -/
theorem lines_lineEnd {fields : List (Str × JsonValue)} {carriageReturn : Bool} {rest : Str}
    (h : Derives (.value (.object fields)) text) (hline : '\n' ∉ text) :
    Text.lines (text ++ (lineEnd carriageReturn ++ rest)) = text :: Text.lines rest := by
  obtain ⟨mid, rfl⟩ := derives_object h
  cases carriageReturn with
  | true =>
    have hsplit : '{' :: (mid ++ ['}']) ++ (lineEnd true ++ rest) =
        ('{' :: (mid ++ ['}']) ++ ['\r']) ++ '\n' :: rest := by simp [lineEnd]
    rw [hsplit, Text.lines_append_cons (by simpa using hline), Text.stripCarriageReturn,
      if_pos List.getLast?_concat, List.dropLast_concat]
  | false =>
    have hsplit : '{' :: (mid ++ ['}']) ++ (lineEnd false ++ rest) =
        '{' :: (mid ++ ['}']) ++ '\n' :: rest := by simp [lineEnd]
    have hend : ('{' :: (mid ++ ['}'])).getLast? = some '}' := by
      rw [← List.cons_append, List.getLast?_concat]
    rw [hsplit, Text.lines_append_cons hline, Text.stripCarriageReturn, hend,
      if_neg (by decide)]

/-- Their lines are read as them. -/
theorem ObjectLines.rows (hjson : ∀ s v, json s = some v ↔ JsonText s v)
    (h : ObjectLines vs body) :
    ((Text.lines body).filterMap fun line => (json line).bind rowFromValue) =
      vs.filterMap rowFromValue := by
  induction h with
  | last h hline =>
    have hread := (hjson _ _).mpr (jsonText_of_derives h)
    have hne : _ ≠ [] := (derives_object h).elim fun mid hmid => hmid ▸ List.cons_ne_nil _ _
    rw [Text.lines_eq_singleton hline hne, List.filterMap_cons, List.filterMap_cons, hread]
    rfl
  | @line fields vs text rest h hline carriageReturn _ ih =>
    have hread := (hjson _ _).mpr (jsonText_of_derives h)
    rw [lines_lineEnd h hline, List.filterMap_cons, List.filterMap_cons, hread, ih]
    rfl

/-- Objects on lines are no array. -/
theorem ObjectLines.not_array (hjson : ∀ s v, json s = some v ↔ JsonText s v)
    (h : ObjectLines vs body) (items : List JsonValue) : json body ≠ some (.array items) := by
  intro hread
  obtain ⟨w, text, w', hw, hderives, -, hbody⟩ := (hjson _ _).mp hread
  obtain ⟨mid, rfl⟩ := derives_array hderives
  obtain ⟨mid', rfl⟩ := h.between
  cases w with
  | nil => cases (List.cons.inj hbody).1
  | cons c w =>
    have hc := hw c List.mem_cons_self
    rw [← (List.cons.inj hbody).1] at hc
    cases hc

/-- A text that is no array is read line by line. -/
theorem parse_of_not_array {raw : Str} (htrim : Text.trim raw = body) (hne : body ≠ [])
    (hnot : ∀ items, json body ≠ some (.array items)) : parseComposePsJson json raw =
      (Text.lines body).filterMap fun line => (json line).bind rowFromValue := by
  unfold parseComposePsJson
  -- By `hnot` the match on the text takes its second branch.
  simp only [htrim]
  exact if_neg hne

/-- **Objects on lines are read as their rows.** -/
theorem parse_lines (hjson : ∀ s v, json s = some v ↔ JsonText s v) (h : ObjectLines vs body)
    (hlead : Blank lead) (htrail : Blank trail) :
    parseComposePsJson json (lead ++ (body ++ trail)) = vs.filterMap rowFromValue := by
  have hbetween := h.between
  have htrim : Text.trim (lead ++ (body ++ trail)) = body := by
    obtain ⟨mid, rfl⟩ := hbetween
    exact trim_between hlead htrail rfl rfl
  have hne : body ≠ [] := hbetween.elim fun mid hmid => hmid ▸ List.cons_ne_nil _ _
  rw [parse_of_not_array htrim hne (h.not_array hjson), h.rows hjson]

/-! ### Both shapes -/

/-- The values of the objects. -/
def valuesOf (objects : List (BTreeMap Str JsonValue)) : List JsonValue :=
  objects.map fun m => .object m.entries

/-- The objects on lines of their own; no object is no text. -/
def Listed (objects : List (BTreeMap Str JsonValue)) (body : Str) : Prop :=
  (objects = [] ∧ body = []) ∨ ObjectLines (valuesOf objects) body

theorem rows_valuesOf (objects : List (BTreeMap Str JsonValue)) :
    (valuesOf objects).filterMap rowFromValue = objects.filterMap rowOf := by
  rw [valuesOf, List.filterMap_map]
  exact List.filterMap_congr fun m _ => rowFromValue_object m

/-- The rows of an array of objects. -/
theorem parse_array_rows (hjson : ∀ s v, json s = some v ↔ JsonText s v)
    {objects : List (BTreeMap Str JsonValue)}
    (h : Derives (.value (.array (valuesOf objects))) text) (hlead : Blank lead)
    (htrail : Blank trail) :
    parseComposePsJson json (lead ++ (text ++ trail)) = objects.filterMap rowOf :=
  (parse_array hjson h hlead htrail).trans (rows_valuesOf objects)

/-- The rows of objects on lines. -/
theorem parse_lines_rows (hjson : ∀ s v, json s = some v ↔ JsonText s v)
    {objects : List (BTreeMap Str JsonValue)} (h : Listed objects body) (hlead : Blank lead)
    (htrail : Blank trail) :
    parseComposePsJson json (lead ++ (body ++ trail)) = objects.filterMap rowOf := by
  rcases h with ⟨rfl, rfl⟩ | hlines
  · -- There is no line, and the text is white space only.
    have hblank : Text.trim (lead ++ ([] ++ trail)) = [] :=
      Text.trim_eq_nil fun c hc => (List.mem_append.mp hc).elim (hlead c) (htrail c)
    unfold parseComposePsJson
    rw [hblank]
    rfl
  · exact (parse_lines hjson hlines hlead htrail).trans (rows_valuesOf objects)

/-- **Both shapes of a listing are read alike.** Where `serde_json` reads exactly the texts of the
JSON grammar, each as its value, any text of the array of some objects, and any texts of the same
objects on a line each, with carriage returns or without, are both read as the rows of those
objects that have a service, in order; white space around the text changes nothing. -/
theorem compose_shapes (hjson : ∀ s v, json s = some v ↔ JsonText s v)
    (objects : List (BTreeMap Str JsonValue)) {array lines lead trail lead' trail' : Str}
    (harray : Derives (.value (.array (valuesOf objects))) array) (hlines : Listed objects lines)
    (hlead : Blank lead) (htrail : Blank trail) (hlead' : Blank lead') (htrail' : Blank trail') :
    parseComposePsJson json (lead ++ (array ++ trail)) = objects.filterMap rowOf ∧
      parseComposePsJson json (lead' ++ (lines ++ trail')) = objects.filterMap rowOf :=
  ⟨parse_array_rows hjson harray hlead htrail, parse_lines_rows hjson hlines hlead' htrail'⟩

/-- A row of a listing, as `docker` prints it: the members are in another order than their names,
and one of them has an escape. -/
def hbbsLine : Str :=
  ("\x7b\"Service\":\"hbbs\",\"State\":\"running\",\"Image\":\"rustdesk-server:1.1.11\"," ++
    "\"Command\":\"hbbs \\u003e log\"\x7d").toList

/-- A row without an image. -/
def hbbrLine : Str := "\x7b\"State\":\"exited\",\"Service\":\"hbbr\"\x7d".toList

/-- Both rows as an array. -/
def rowsArray : Str :=
  "[\n    ".toList ++ hbbsLine ++ ",\n    ".toList ++ hbbrLine ++ "\n]".toList

/-- Both rows on lines. -/
def rowsLines : Str := hbbsLine ++ (lineEnd true ++ hbbrLine)

/-- The two objects. -/
def rowObjects : List (BTreeMap Str JsonValue) :=
  [(((BTreeMap.empty.insert "Service".toList (.string "hbbs".toList)).insert "State".toList
      (.string "running".toList)).insert "Image".toList
        (.string "rustdesk-server:1.1.11".toList)).insert "Command".toList
          (.string "hbbs > log".toList),
    (BTreeMap.empty.insert "State".toList (.string "exited".toList)).insert "Service".toList
      (.string "hbbr".toList)]

/-- What the reader makes of a text is what the grammar makes of it. -/
theorem derives_of_beq {v : JsonValue} (h : (Json.read text).any (JsonValue.beq v) = true)
    (hhead : text.head?.all (fun c => !Json.isWs c) = true)
    (hlast : text.getLast?.all (fun c => !Json.isWs c) = true) : Derives (.value v) text := by
  obtain ⟨v', hread, hbeq⟩ := Option.any_eq_true _ _ |>.mp h
  obtain rfl := JsonValue.eq_of_beq hbeq
  refine derives_of_jsonText (Json.read_eq_some_iff.mp hread) (fun c hc => ?_) fun c hc => ?_
  · rw [hc] at hhead
    simpa using hhead
  · rw [hc] at hlast
    simpa using hlast

/-- Read by the reader of the grammar. -/
theorem compose_shapes_sample :
    parseComposePsJson Json.read ("\n".toList ++ (rowsArray ++ [])) = rowObjects.filterMap rowOf ∧
      parseComposePsJson Json.read ([] ++ (rowsLines ++ "\r\n".toList)) =
        rowObjects.filterMap rowOf := by
  have harray : Derives (.value (.array (valuesOf rowObjects))) rowsArray :=
    derives_of_beq (by decide +kernel) (by decide +kernel) (by decide +kernel)
  have hlines : Listed rowObjects rowsLines := .inr <| .line
    (derives_of_beq (by decide +kernel) (by decide +kernel) (by decide +kernel))
    (by decide +kernel) true <| .last
    (derives_of_beq (by decide +kernel) (by decide +kernel) (by decide +kernel))
    (by decide +kernel)
  exact compose_shapes (fun _ _ => Json.read_eq_some_iff) rowObjects harray hlines
    (blank_of_all rfl) (blank_of_all rfl) (blank_of_all rfl) (blank_of_all rfl)

/-! ### Printed texts -/

/-- The objects printed compactly, one per line; the flag of an object says whether there is a
carriage return before the line feed behind it. -/
def printLines : List (BTreeMap Str JsonValue × Bool) → Str
  | [] => []
  | [o] => print .compact 0 (.object o.1.entries)
  | o :: o' :: objects =>
    print .compact 0 (.object o.1.entries) ++ (lineEnd o.2 ++ printLines (o' :: objects))

/-- The objects printed as one array. -/
def printArray (layout : Layout) (objects : List (BTreeMap Str JsonValue × Bool)) : Str :=
  print layout 0 (.array (valuesOf (objects.map Prod.fst)))

theorem listed_printLines {objects : List (BTreeMap Str JsonValue × Bool)}
    (h : ∀ o ∈ objects, Proper (.value (.object o.1.entries))) :
    Listed (objects.map Prod.fst) (printLines objects) := by
  cases objects with
  | nil => exact .inl ⟨rfl, rfl⟩
  | cons o objects =>
    refine .inr ?_
    induction objects generalizing o with
    | nil =>
      have ho := h o List.mem_cons_self
      exact .last (Json.derives_print .compact 0 ho) (Json.not_mem_print_compact 0 ho)
    | cons o' objects ih =>
      have ho := h o List.mem_cons_self
      exact .line (Json.derives_print .compact 0 ho) (Json.not_mem_print_compact 0 ho) o.2
        (ih o' fun o'' ho'' => h o'' (List.mem_cons_of_mem _ ho''))

theorem proper_elements {objects : List (BTreeMap Str JsonValue)}
    (h : ∀ m ∈ objects, Proper (.value (.object m.entries))) :
    Proper (.elements (valuesOf objects)) := by
  induction objects with
  | nil => exact .noElements
  | cons m objects ih =>
    exact .element (h m List.mem_cons_self) (ih fun m' hm' => h m' (List.mem_cons_of_mem _ hm'))

/-- Objects printed as one array, in any layout, and the same objects printed compactly one per
line, are read alike. -/
theorem compose_shapes_printed (hjson : ∀ s v, json s = some v ↔ JsonText s v)
    (objects : List (BTreeMap Str JsonValue × Bool))
    (hobjects : ∀ o ∈ objects, Proper (.value (.object o.1.entries))) (layout : Layout)
    {lead' trail' : Str} (hlead : Blank lead) (htrail : Blank trail) (hlead' : Blank lead')
    (htrail' : Blank trail') :
    parseComposePsJson json (lead ++ (printArray layout objects ++ trail)) =
        parseComposePsJson json (lead' ++ (printLines objects ++ trail')) := by
  have hproper : ∀ m ∈ objects.map Prod.fst, Proper (.value (.object m.entries)) :=
    List.forall_mem_map.mpr hobjects
  have hderives := Json.derives_print layout 0 (.array (proper_elements hproper))
  rw [printArray, parse_array_rows hjson hderives hlead htrail,
    parse_lines_rows hjson (listed_printLines hobjects) hlead' htrail']

example : printArray (.pretty false)
    [(BTreeMap.empty.insert "Service".toList (.string "hbbr".toList), false)] =
      "[\n  \x7b\n    \"Service\": \"hbbr\"\n  \x7d\n]".toList := by
  decide +kernel

end Rustmote
