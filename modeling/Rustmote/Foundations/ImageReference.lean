import Rustmote.Foundations.Text

/-!
# The grammar of image references

The names of container images, as Docker's reference grammar has them:

    reference      := name [ ":" tag ] [ "@" digest ]
    name           := path-component ["/" path-component]*
    path-component := alpha-numeric [separator alpha-numeric]*
    alpha-numeric  := /[a-z0-9]+/
    separator      := /[_.]|__|[-]+/
    tag            := /[A-Za-z0-9_][A-Za-z0-9_.-]{0,127}/
    digest         := "sha256:" /[0-9a-f]{64}/

A name is told by a look at neighbours (`name_iff`): it is a text of its characters that begins and
ends with an alphanumeric one, and in which no two separators or slashes stand side by side, but
two underscores or any number of dashes. What a reference is made of is told by the reference
(`Reference.unique`).
-/

namespace Rustmote.ImageReference

/-! ### The grammar -/

/-- A character of `alpha-numeric`. -/
def isAlnum (c : Char) : Bool := c.isLower || c.isDigit

/-- A character that stands between two of those. -/
def isSeparator (c : Char) : Bool := c = '/' || c = '.' || c = '_' || c = '-'

/-- `alpha-numeric`. -/
structure Alnums (s : Str) : Prop where
  ne_nil : s ≠ []
  all : ∀ c ∈ s, isAlnum c = true

/-- `separator`. -/
inductive Separator : Str → Prop where
  | dot : Separator ['.']
  | underscore : Separator ['_']
  | underscores : Separator ['_', '_']
  | dashes (n : Nat) : Separator (List.replicate (n + 1) '-')

/-- `path-component`. -/
inductive Component : Str → Prop where
  | alnums {s : Str} (h : Alnums s) : Component s
  | join {s sep rest : Str} (h : Alnums s) (hsep : Separator sep) (hrest : Component rest) :
      Component (s ++ (sep ++ rest))

/-- `name`. -/
inductive Name : Str → Prop where
  | component {s : Str} (h : Component s) : Name s
  | path {s rest : Str} (h : Component s) (hrest : Name rest) : Name (s ++ '/' :: rest)

/-- A character of a tag behind the first one. -/
def isTagChar (c : Char) : Bool := c.isAlphanum || c = '_' || c = '.' || c = '-'

/-- `tag`. -/
def Tag (s : Str) : Prop :=
  ∃ c rest, s = c :: rest ∧ (c.isAlphanum || c = '_') = true ∧ rest.length ≤ 127 ∧
    ∀ d ∈ rest, isTagChar d = true

/-- A lower-case hex digit. -/
def isHexDigit (c : Char) : Bool := c.isDigit || ('a' ≤ c && c ≤ 'f')

/-- `digest`. -/
def Digest (s : Str) : Prop :=
  ∃ hex, s = "sha256:".toList ++ hex ∧ hex.length = 64 ∧ ∀ c ∈ hex, isHexDigit c = true

/-- `reference`: the text `s` derives from the grammar with this name, tag and digest. -/
structure Reference (s name : Str) (tag digest : Option Str) : Prop where
  text : s = name ++ (tag.elim [] (':' :: ·) ++ digest.elim [] ('@' :: ·))
  name : Name name
  tag : ∀ t ∈ tag, Tag t
  digest : ∀ d ∈ digest, Digest d

/-! ### Names, by their neighbours -/

/-- Two separators or slashes side by side are two underscores, with no third one behind, or two
dashes. -/
def tidy : Str → Bool
  | [] => true
  | [_] => true
  | a :: b :: rest =>
    (!(isSeparator a && isSeparator b) ||
      (a = b && (a = '-' || (a = '_' && rest.head? ≠ some '_')))) && tidy (b :: rest)

variable {a c : Char} {s sep rest : Str}

theorem not_isSeparator (h : isAlnum c = true) : isSeparator c = false := by
  by_contra hsep
  rw [Bool.not_eq_false] at hsep
  simp only [isSeparator, Bool.or_eq_true, decide_eq_true_eq] at hsep
  rcases hsep with ((rfl | rfl) | rfl) | rfl <;> cases h

theorem tidy_cons (ha : isSeparator a = false) (s : Str) : tidy (a :: s) = tidy s := by
  cases s with
  | nil => rfl
  | cons b s => simp [tidy, ha]

theorem tidy_alnums_append (h : ∀ c ∈ s, isAlnum c = true) (rest : Str) :
    tidy (s ++ rest) = tidy rest := by
  induction s with
  | nil => rfl
  | cons c s ih =>
    rw [List.cons_append, tidy_cons (not_isSeparator (h c List.mem_cons_self))]
    exact ih fun d hd => h d (List.mem_cons_of_mem _ hd)

/-- A character before an alphanumeric one is tidy. -/
theorem tidy_cons_cons (hc : isSeparator c = false) : tidy (a :: c :: rest) = tidy (c :: rest) := by
  simp [tidy, hc]

theorem tidy_separator_append (h : Separator sep) (hc : isSeparator c = false) :
    tidy (sep ++ c :: rest) = tidy (c :: rest) := by
  cases h with
  | dot => exact tidy_cons_cons hc
  | underscore => exact tidy_cons_cons hc
  | underscores =>
    have hne : c ≠ '_' := by
      rintro rfl
      cases hc
    simp [tidy, hc, hne]
  | dashes n =>
    induction n with
    | zero => exact tidy_cons_cons hc
    | succ n ih =>
      rw [List.replicate_succ, List.replicate_succ] at *
      rw [← ih]
      simp [tidy]

theorem Component.head (h : Component s) : ∃ c rest, s = c :: rest ∧ isAlnum c = true := by
  have halnums : ∀ {s : Str}, Alnums s → ∃ c rest, s = c :: rest ∧ isAlnum c = true := by
    intro s h
    obtain ⟨c, rest, rfl⟩ := List.exists_cons_of_ne_nil h.ne_nil
    exact ⟨c, rest, rfl, h.all c List.mem_cons_self⟩
  cases h with
  | alnums h => exact halnums h
  | join h _ _ =>
    obtain ⟨c, rest, rfl, hc⟩ := halnums h
    exact ⟨c, _, rfl, hc⟩

theorem Name.head (h : Name s) : ∃ c rest, s = c :: rest ∧ isAlnum c = true := by
  cases h with
  | component h => exact h.head
  | path h _ =>
    obtain ⟨c, rest, rfl, hc⟩ := h.head
    exact ⟨c, _, rfl, hc⟩

/-- A component is tidy, whatever stands behind it. -/
theorem Component.tidy_append (h : Component s) (rest : Str) : tidy (s ++ rest) = tidy rest := by
  induction h with
  | alnums h => exact tidy_alnums_append h.all rest
  | join h hsep hcomp ih =>
    obtain ⟨c, rest', rfl, hc⟩ := hcomp.head
    rw [List.append_assoc, tidy_alnums_append h.all, List.append_assoc, List.cons_append,
      tidy_separator_append hsep (not_isSeparator hc)]
    exact ih

theorem Name.tidy (h : Name s) : tidy s = true := by
  induction h with
  | component h =>
    have htidy := h.tidy_append []
    rwa [List.append_nil] at htidy
  | path h hname ih =>
    obtain ⟨c, rest, rfl, hc⟩ := hname.head
    rw [h.tidy_append, tidy_cons_cons (not_isSeparator hc)]
    exact ih

/-- A component goes before a name, with a separator between them. -/
theorem Name.join (h : Alnums s) (hsep : Separator sep) (hname : Name rest) :
    Name (s ++ (sep ++ rest)) := by
  cases hname with
  | component hcomp => exact .component (.join h hsep hcomp)
  | path hcomp hname =>
    have hpath := Name.path (.join h hsep hcomp) hname
    simpa only [List.append_assoc] using hpath

/-- Separators before an alphanumeric character are a separator or a slash, if they are tidy. -/
theorem separator_of_tidy (hne : sep ≠ []) (hsep : ∀ c ∈ sep, isSeparator c = true)
    (hc : isSeparator c = false) (h : tidy (sep ++ c :: rest) = true) :
    (Separator sep ∨ sep = ['/']) ∧ tidy (c :: rest) = true := by
  induction sep with
  | nil => exact absurd rfl hne
  | cons a sep ih =>
    cases sep with
    | nil =>
      have ha := hsep a List.mem_cons_self
      rw [List.singleton_append, tidy_cons_cons hc] at h
      refine ⟨?_, h⟩
      simp only [isSeparator, Bool.or_eq_true, decide_eq_true_eq] at ha
      rcases ha with ((rfl | rfl) | rfl) | rfl
      · exact .inr rfl
      · exact .inl .dot
      · exact .inl .underscore
      · exact .inl (.dashes 0)
    | cons b sep =>
      have ha := hsep a List.mem_cons_self
      have hb := hsep b (by simp)
      simp only [List.cons_append, tidy, ha, hb, Bool.and_self, Bool.not_true, Bool.false_or,
        Bool.and_eq_true, Bool.or_eq_true, decide_eq_true_eq] at h
      obtain ⟨⟨rfl, hkind⟩, htidy⟩ := h
      obtain ⟨hrest, htail⟩ := ih (List.cons_ne_nil _ _)
        (fun d hd => hsep d (List.mem_cons_of_mem _ hd)) htidy
      refine ⟨.inl ?_, htail⟩
      rcases hkind with rfl | ⟨rfl, hthird⟩
      · rcases hrest with hrest | hrest
        · generalize hlist : '-' :: sep = l at hrest
          cases hrest with
          | dashes n =>
            exact .dashes (n + 1)
          | _ => cases hlist
        · cases hrest
      · cases sep with
        | nil => exact .underscores
        | cons d sep =>
          rcases hrest with hrest | hrest
          · cases hrest
            exact absurd rfl hthird
          · cases hrest

/-- A text of the characters of a name begins with alphanumeric ones; behind separators there are
more. -/
theorem exists_run (hne : s ≠ []) (hall : ∀ c ∈ s, (isAlnum c || isSeparator c) = true)
    (hhead : ∀ c, s.head? = some c → isSeparator c = false)
    (hlast : ∀ c, s.getLast? = some c → isSeparator c = false) :
    ∃ run, Alnums run ∧ (s = run ∨ ∃ sep d next, s = run ++ (sep ++ d :: next) ∧ sep ≠ [] ∧
      (∀ c ∈ sep, isSeparator c = true) ∧ isSeparator d = false) := by
  have halnum : ∀ c ∈ s, isSeparator c = false → isAlnum c = true := by
    intro c hc hsep
    simpa [hsep] using hall c hc
  obtain ⟨run, rest, rfl, hrun, hbehind⟩ := Text.exists_span isAlnum s
  have hrun_ne : run ≠ [] := by
    rintro rfl
    obtain ⟨c, rest, rfl⟩ := List.exists_cons_of_ne_nil hne
    have hc := halnum c List.mem_cons_self (hhead c rfl)
    rw [hbehind c rfl] at hc
    cases hc
  refine ⟨run, ⟨hrun_ne, hrun⟩, ?_⟩
  obtain ⟨sep, next, rfl, hsep, hnext⟩ := Text.exists_span isSeparator rest
  cases sep with
  | nil =>
    cases next with
    | nil => exact .inl (by rw [List.append_nil, List.append_nil])
    | cons c next =>
      -- The character behind the run is neither alphanumeric nor a separator.
      have hc := halnum c (by simp) (hnext c rfl)
      rw [hbehind c rfl] at hc
      cases hc
  | cons a sep =>
    refine .inr ?_
    cases next with
    | nil =>
      -- The text does not end with a separator.
      have hend := List.getLast?_eq_some_getLast (List.cons_ne_nil a sep)
      have hlast' := hlast ((a :: sep).getLast (List.cons_ne_nil a sep)) (by
        rw [List.append_nil, List.getLast?_append, hend]
        rfl)
      rw [hsep _ (List.getLast_mem (List.cons_ne_nil a sep))] at hlast'
      cases hlast'
    | cons d next => exact ⟨a :: sep, d, next, rfl, List.cons_ne_nil a sep, hsep, hnext d rfl⟩

/-- A tidy text of the characters of a name, with an alphanumeric one at each end, is a name. -/
theorem name_of_tidy (hne : s ≠ []) (hall : ∀ c ∈ s, (isAlnum c || isSeparator c) = true)
    (hhead : ∀ c, s.head? = some c → isSeparator c = false)
    (hlast : ∀ c, s.getLast? = some c → isSeparator c = false) (htidy : tidy s = true) :
    Name s := by
  induction hn : s.length using Nat.strong_induction_on generalizing s with
  | _ n ih =>
    obtain ⟨run, hrun, rfl | ⟨sep, d, next, rfl, hsep_ne, hsep, hd⟩⟩ :=
      exists_run hne hall hhead hlast
    · exact .component (.alnums hrun)
    · rw [tidy_alnums_append hrun.all] at htidy
      obtain ⟨hkind, htail⟩ := separator_of_tidy hsep_ne hsep hd htidy
      have hname : Name (d :: next) := by
        refine ih (d :: next).length ?_ (List.cons_ne_nil _ _) (fun e he => hall e ?_) ?_ ?_ htail rfl
        · have hpos := List.length_pos_iff.mpr hsep_ne
          rw [← hn]
          simp only [List.length_append]
          omega
        · simp only [List.mem_append]
          exact .inr (.inr he)
        · intro e he
          obtain rfl := Option.some.inj he
          exact hd
        · intro e he
          refine hlast e ?_
          rw [List.getLast?_append, List.getLast?_append, he]
          rfl
      rcases hkind with hkind | rfl
      · exact hname.join hrun hkind
      · exact .path (.alnums hrun) hname

/-- **Names, by their neighbours.** -/
theorem name_iff (hne : s ≠ []) (hall : ∀ c ∈ s, (isAlnum c || isSeparator c) = true)
    (hhead : ∀ c, s.head? = some c → isSeparator c = false)
    (hlast : ∀ c, s.getLast? = some c → isSeparator c = false) :
    Name s ↔ tidy s = true :=
  ⟨Name.tidy, name_of_tidy hne hall hhead hlast⟩

/-! ### What a reference is made of -/

theorem Component.chars (h : Component s) : ∀ c ∈ s, (isAlnum c || isSeparator c) = true := by
  have halnums : ∀ {s : Str}, Alnums s → ∀ c ∈ s, (isAlnum c || isSeparator c) = true :=
    fun h c hc => by rw [h.all c hc, Bool.true_or]
  induction h with
  | alnums h => exact halnums h
  | join h hsep _ ih =>
    intro c hc
    rcases List.mem_append.mp hc with hc | hc
    · exact halnums h c hc
    rcases List.mem_append.mp hc with hc | hc
    · have hc' : isSeparator c = true := by
        cases hsep with
        | dashes n =>
          rw [List.eq_of_mem_replicate hc]
          rfl
        | _ => simp at hc; simp [hc, isSeparator]
      rw [hc', Bool.or_true]
    · exact ih c hc

theorem Name.chars (h : Name s) : ∀ c ∈ s, (isAlnum c || isSeparator c) = true := by
  induction h with
  | component h => exact h.chars
  | path h _ ih =>
    intro c hc
    rcases List.mem_append.mp hc with hc | hc
    · exact h.chars c hc
    rcases List.mem_cons.mp hc with rfl | hc
    · rfl
    · exact ih c hc

theorem Name.not_mem (h : Name s) (hc : (isAlnum c || isSeparator c) = false) : c ∉ s := by
  intro hmem
  rw [h.chars c hmem] at hc
  cases hc

theorem Tag.not_mem (h : Tag s) (hc : isTagChar c = false) : c ∉ s := by
  obtain ⟨a, rest, rfl, ha, -, hrest⟩ := h
  intro hmem
  rcases List.mem_cons.mp hmem with rfl | hmem
  · rw [isTagChar, Bool.or_eq_false_iff, Bool.or_eq_false_iff] at hc
    rw [hc.1.1] at ha
    cases ha
  · rw [hrest c hmem] at hc
    cases hc

/-- **No two readings**: the text of a reference has one name, one tag and one digest. -/
theorem Reference.unique {name tag digest name' : Str} {tag' digest' : Option Str}
    (h : Reference s name (some tag) (some digest)) (h' : Reference s name' tag' digest') :
    name' = name ∧ tag' = some tag ∧ digest' = some digest := by
  have htext : name ++ ':' :: (tag ++ '@' :: digest) =
      name' ++ (tag'.elim [] (':' :: ·) ++ digest'.elim [] ('@' :: ·)) := h.text.symm.trans h'.text
  have hcolon : ':' ∉ name := h.name.not_mem rfl
  have hcolon' : ':' ∉ name' := h'.name.not_mem rfl
  cases tag' with
  | none =>
    cases digest' with
    | none =>
      -- A name has no colon.
      have hmem : ':' ∈ name' := by
        have heq : name ++ ':' :: (tag ++ '@' :: digest) = name' := by simpa using htext
        rw [← heq]
        simp
      exact absurd hmem hcolon'
    | some digest' =>
      have hsplit : (name ++ ':' :: tag) ++ '@' :: digest = name' ++ '@' :: digest' := by
        simpa using htext
      have hat : '@' ∉ name ++ ':' :: tag := by
        have hname : '@' ∉ name := h.name.not_mem rfl
        have htag : '@' ∉ tag := (h.tag tag rfl).not_mem rfl
        simp [hname, htag]
      obtain ⟨hname, -⟩ := Text.append_cons_inj_of_not_mem_left hat (h'.name.not_mem rfl) hsplit
      rw [← hname] at hcolon'
      simp at hcolon'
  | some tag' =>
    obtain ⟨rfl, hrest⟩ := Text.append_cons_inj_of_not_mem_left hcolon hcolon' htext
    have htag : '@' ∉ tag := (h.tag tag rfl).not_mem rfl
    have htag' : '@' ∉ tag' := (h'.tag tag' rfl).not_mem rfl
    cases digest' with
    | none =>
      have heq : tag ++ '@' :: digest = tag' := hrest.trans (List.append_nil tag')
      rw [← heq] at htag'
      simp at htag'
    | some digest' =>
      obtain ⟨rfl, rfl⟩ := Text.append_cons_inj_of_not_mem_left htag htag' hrest
      exact ⟨rfl, rfl, rfl⟩

end Rustmote.ImageReference
