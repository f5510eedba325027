import Rustmote.Foundations.Text

/-!
# Shell commands

How a POSIX shell splits a command line into tokens, and how a list of tokens is put
together into simple commands, pipelines and an and-list.

A word is kept character by character, each marked with how the shell reads it: a
`plain` character stands for itself, a `quoted` one was quoted, a `special` one starts
an expansion or belongs to a pattern. A word of plain characters only is a literal
word: nothing happens to it.

* `step` — token recognition, one character at a time: blanks, line ends, operators (the
  longest one), the three kinds of quotes, comments, and a number in front of a
  redirection.
* `Prefixes s ts` — the text `s` ends between two tokens and contributes the tokens
  `ts`, whatever comes behind it. A command line is put together from such pieces:
  `Prefixes.append`, `prefixes_word`, `lex_append_word`.
* `parse` — an and-list of pipelines of simple commands. Other ways to combine commands
  are not read.
-/

namespace Rustmote.Shell

/-- How the shell reads a character of a word. -/
inductive WordChar where
  /-- It stands for itself. -/
  | plain (c : Char)
  /-- It was quoted. -/
  | quoted (c : Char)
  /-- It starts an expansion or belongs to a pattern. -/
  | special (c : Char)
  deriving DecidableEq

/-- The character itself. -/
def WordChar.char : WordChar → Char
  | .plain c | .quoted c | .special c => c

/-- The control and redirection operators. -/
inductive Operator where
  | andIf | orIf | amp | pipe | semi | dsemi | lparen | rparen | newline
  | less | great | dless | dgreat | lessAnd | greatAnd | lessGreat | dlessDash | clobber
  deriving DecidableEq

/-- The operators that redirect. -/
def Operator.isRedirection : Operator → Bool
  | .less | .great | .dless | .dgreat | .lessAnd | .greatAnd | .lessGreat | .dlessDash
  | .clobber => true
  | _ => false

/-- The operator a character starts. -/
def startOperator : Char → Option Operator
  | '&' => some .amp
  | '|' => some .pipe
  | ';' => some .semi
  | '<' => some .less
  | '>' => some .great
  | '(' => some .lparen
  | ')' => some .rparen
  | '\n' => some .newline
  | _ => none

/-- The longer operator that a further character makes. -/
def extendOperator : Operator → Char → Option Operator
  | .amp, '&' => some .andIf
  | .pipe, '|' => some .orIf
  | .semi, ';' => some .dsemi
  | .less, '<' => some .dless
  | .less, '&' => some .lessAnd
  | .less, '>' => some .lessGreat
  | .great, '>' => some .dgreat
  | .great, '&' => some .greatAnd
  | .great, '|' => some .clobber
  | .dless, '-' => some .dlessDash
  | _, _ => none

/-- A token of a command line. -/
inductive Token where
  /-- A word. -/
  | word (w : List WordChar)
  /-- An operator. -/
  | op (o : Operator)
  /-- The number of a file descriptor, directly in front of a redirection. -/
  | ioNumber (n : Str)
  deriving DecidableEq

/-- The token of a literal word. -/
def literal (s : Str) : Token := .word (s.map .plain)

/-- The token of a word that is quoted as a whole. -/
def quotedWord (s : Str) : Token := .word (s.map .quoted)

/-! ### Token recognition -/

/-- The single quote. -/
def singleQuote : Char := Char.ofNat 39

/-- The double quote. -/
def doubleQuote : Char := Char.ofNat 34

/-- The backslash. -/
def backslash : Char := Char.ofNat 92

/-- The backquote. -/
def backquote : Char := Char.ofNat 96

/-- The characters that start an expansion or belong to a pattern when they are not quoted. -/
def isSpecial (c : Char) : Bool :=
  c = '$' || c = backquote || c = '*' || c = '?' || c = '[' || c = '~'

/-- Where in a command line the lexer is; a word read so far is kept in reverse. -/
inductive State where
  /-- Outside of quotes, in a word or (`none`) between tokens. -/
  | bare (cur : Option (List WordChar))
  /-- Between single quotes. -/
  | single (cur : List WordChar)
  /-- Between double quotes. -/
  | double (cur : List WordChar)
  /-- Behind a backslash outside of quotes. -/
  | escape (cur : Option (List WordChar))
  /-- Behind a backslash between double quotes. -/
  | doubleEscape (cur : List WordChar)
  /-- In an operator that may still grow. -/
  | operator (o : Operator)
  /-- In a comment. -/
  | comment
  deriving DecidableEq

/-- Whether a word read so far is a number. -/
def isNumber (w : List WordChar) : Bool :=
  w ≠ [] && w.all fun c => match c with
    | .plain c => (Text.digit c).isSome
    | _ => false

/-- The token of the word read so far, if there is one. -/
def flush : Option (List WordChar) → List Token
  | none => []
  | some w => [.word w.reverse]

/-- The same in front of an operator: a number in front of a redirection names a file
descriptor. -/
def flushAt (o : Operator) : Option (List WordChar) → List Token
  | none => []
  | some w =>
    if o.isRedirection && isNumber w then [.ioNumber (w.reverse.map WordChar.char)]
    else [.word w.reverse]

/-- Add a character to the word read so far. -/
def push (cur : Option (List WordChar)) (c : WordChar) : State := .bare (some (c :: cur.getD []))

/-- Read a character outside of quotes. -/
def stepBare (cur : Option (List WordChar)) (c : Char) : List Token × State :=
  if c = ' ' ∨ c = '\t' then (flush cur, .bare none)
  else if c = singleQuote then ([], .single (cur.getD []))
  else if c = doubleQuote then ([], .double (cur.getD []))
  else if c = backslash then ([], .escape cur)
  else if c = '#' ∧ cur = none then ([], .comment)
  else match startOperator c with
    | some o => (flushAt o cur, .operator o)
    | none => ([], push cur (if isSpecial c then .special c else .plain c))

/-- Read a character: the tokens that end in front of it, and where that leads. -/
def step : State → Char → List Token × State
  | .bare cur, c => stepBare cur c
  | .single cur, c =>
    if c = singleQuote then ([], .bare (some cur)) else ([], .single (.quoted c :: cur))
  | .double cur, c =>
    if c = doubleQuote then ([], .bare (some cur))
    else if c = backslash then ([], .doubleEscape cur)
    else ([], .double ((if c = '$' ∨ c = backquote then .special c else .quoted c) :: cur))
  | .escape cur, c => if c = '\n' then ([], .bare cur) else ([], push cur (.quoted c))
  | .doubleEscape cur, c =>
    if c = '\n' then ([], .double cur)
    else if c = '$' ∨ c = backquote ∨ c = doubleQuote ∨ c = backslash then
      ([], .double (.quoted c :: cur))
    else ([], .double (.quoted c :: .quoted backslash :: cur))
  | .operator o, c =>
    match extendOperator o c with
    | some o' => ([], .operator o')
    | none => ((.op o :: (stepBare none c).1), (stepBare none c).2)
  | .comment, c => if c = '\n' then ([], .operator .newline) else ([], .comment)

/-- Read a text. -/
def scan : State → Str → List Token × State
  | st, [] => ([], st)
  | st, c :: s => ((step st c).1 ++ (scan (step st c).2 s).1, (scan (step st c).2 s).2)

/-- The token that ends with the command line; a quote must be closed by then. -/
def finish : State → Option (List Token)
  | .bare cur => some (flush cur)
  | .operator o => some [.op o]
  | .comment => some []
  | _ => none

/-- The tokens of a command line. -/
def lex (s : Str) : Option (List Token) :=
  (finish (scan (.bare none) s).2).map ((scan (.bare none) s).1 ++ ·)

theorem scan_append (st : State) (s s' : Str) :
    scan st (s ++ s') =
      ((scan st s).1 ++ (scan (scan st s).2 s').1, (scan (scan st s).2 s').2) := by
  induction s generalizing st with
  | nil => rfl
  | cons c s ih => simp only [List.cons_append, scan, ih, List.append_assoc]

/-- Whether a character stands for itself anywhere in a word. -/
def isPlain (c : Char) : Bool :=
  !(c = ' ' || c = '\t' || c = singleQuote || c = doubleQuote || c = backslash || c = '#' ||
    isSpecial c || (startOperator c).isSome)

theorem step_plain {c : Char} (h : isPlain c = true) (cur : Option (List WordChar)) :
    step (.bare cur) c = ([], push cur (.plain c)) := by
  simp only [isPlain, Bool.not_eq_true', Bool.or_eq_false_iff, decide_eq_false_iff_not,
    Option.isSome_eq_false_iff, Option.isNone_iff_eq_none] at h
  obtain ⟨⟨⟨⟨⟨⟨⟨h₁, h₂⟩, h₃⟩, h₄⟩, h₅⟩, h₆⟩, h₇⟩, h₈⟩ := h
  simp [step, stepBare, h₁, h₂, h₃, h₄, h₅, h₆, h₇, h₈]

/-- A run of plain characters is added to the word as it is. -/
theorem scan_plain {w : Str} (h : ∀ c ∈ w, isPlain c = true) (acc : List WordChar) :
    scan (.bare (some acc)) w = ([], .bare (some ((w.map .plain).reverse ++ acc))) := by
  induction w generalizing acc with
  | nil => rfl
  | cons c w ih =>
    have hw : ∀ d ∈ w, isPlain d = true := fun d hd => h d (List.mem_cons_of_mem _ hd)
    rw [scan, step_plain (h c List.mem_cons_self), push, Option.getD_some, ih hw]
    simp

/-- A literal word, from between two tokens on. -/
theorem scan_literal {w : Str} (hne : w ≠ []) (h : ∀ c ∈ w, isPlain c = true) :
    scan (.bare none) w = ([], .bare (some (w.map .plain).reverse)) := by
  cases w with
  | nil => exact absurd rfl hne
  | cons c w =>
    have hw : ∀ d ∈ w, isPlain d = true := fun d hd => h d (List.mem_cons_of_mem _ hd)
    rw [scan, step_plain (h c List.mem_cons_self), push, Option.getD_none, scan_plain hw]
    simp

/-! ### Putting a command line together -/

/-- The text `s` ends between two tokens and contributes the tokens `ts`. -/
def Prefixes (s : Str) (ts : List Token) : Prop := scan (.bare none) s = (ts, .bare none)

instance (s : Str) (ts : List Token) : Decidable (Prefixes s ts) :=
  inferInstanceAs (Decidable (scan (.bare none) s = (ts, .bare none)))

theorem Prefixes.append {s s' : Str} {ts ts' : List Token} (h : Prefixes s ts)
    (h' : Prefixes s' ts') : Prefixes (s ++ s') (ts ++ ts') := by
  rw [Prefixes] at h h' ⊢
  rw [scan_append, h, h']

/-- A literal word and the blank behind it. -/
theorem prefixes_word {w : Str} (hne : w ≠ []) (h : ∀ c ∈ w, isPlain c = true) :
    Prefixes (w ++ [' ']) [literal w] := by
  rw [Prefixes, scan_append, scan_literal hne h]
  simp [scan, step, stepBare, flush, literal]

/-- A run of characters between single quotes is quoted. -/
theorem scan_single {w : Str} (h : singleQuote ∉ w) (acc : List WordChar) :
    scan (.single acc) w = ([], .single ((w.map .quoted).reverse ++ acc)) := by
  induction w generalizing acc with
  | nil => rfl
  | cons c w ih =>
    rw [List.mem_cons, not_or] at h
    have hstep : step (.single acc) c = ([], .single (.quoted c :: acc)) :=
      if_neg (Ne.symm h.1)
    rw [scan, hstep, ih h.2]
    simp

/-- A word between single quotes and the blank behind it. -/
theorem prefixes_quoted {w : Str} (h : singleQuote ∉ w) :
    Prefixes (singleQuote :: (w ++ [singleQuote, ' '])) [quotedWord w] := by
  rw [Prefixes, scan, show step (.bare none) singleQuote = ([], .single []) from rfl]
  rw [scan_append, scan_single h]
  simp [scan, step, stepBare, flush, quotedWord, singleQuote]

/-- A command line whose last piece is read on its own. -/
theorem lex_append {s s' : Str} {ts ts' : List Token} (h : Prefixes s ts) (h' : lex s' = some ts') :
    lex (s ++ s') = some (ts ++ ts') := by
  rw [lex] at h' ⊢
  rw [Prefixes] at h
  rw [Option.map_eq_some_iff] at h'
  obtain ⟨last, hlast, rfl⟩ := h'
  simp only [scan_append, h, hlast, Option.map_some, List.append_assoc]

/-- A command line of one literal word. -/
theorem lex_literal {w : Str} (hne : w ≠ []) (h : ∀ c ∈ w, isPlain c = true) :
    lex w = some [literal w] := by
  rw [lex, scan_literal hne h]
  simp [finish, flush, literal]

/-- A command line that ends with a literal word. -/
theorem lex_append_word {s : Str} {ts : List Token} (hs : Prefixes s ts) {w : Str} (hne : w ≠ [])
    (h : ∀ c ∈ w, isPlain c = true) : lex (s ++ w) = some (ts ++ [literal w]) :=
  lex_append hs (lex_literal hne h)

/-! ### Simple commands -/

/-- A redirection of a simple command. -/
structure Redirection where
  /-- The file descriptor, when it is given. -/
  fd : Option Str
  /-- The operator. -/
  op : Operator
  /-- The word behind it. -/
  target : Str
  deriving DecidableEq

/-- A simple command: its words, the utility's name first, and its redirections. -/
structure Simple where
  /-- The words after quote removal. -/
  words : List Str
  /-- The redirections. -/
  redirections : List Redirection
  deriving DecidableEq

/-- A word after quote removal; an expansion is not read. -/
def wordText (w : List WordChar) : Option Str :=
  w.mapM fun c => match c with
    | .plain c | .quoted c => some c
    | .special _ => none

/-- The words and redirections of a simple command. -/
def parseSimple : List Token → Option Simple
  | [] => some ⟨[], []⟩
  | .word w :: ts => do
    let w ← wordText w
    let rest ← parseSimple ts
    some { rest with words := w :: rest.words }
  | .ioNumber n :: .op o :: .word w :: ts => do
    let w ← wordText w
    let rest ← parseSimple ts
    if o.isRedirection then
      some { rest with redirections := ⟨some n, o, w⟩ :: rest.redirections }
    else none
  | .op o :: .word w :: ts => do
    let w ← wordText w
    let rest ← parseSimple ts
    if o.isRedirection then
      some { rest with redirections := ⟨none, o, w⟩ :: rest.redirections }
    else none
  | _ => none

/-- The pipelines of an and-list, each with its simple commands. -/
def parseTokens (ts : List Token) : Option (List (List Simple)) :=
  (ts.splitOn (.op .andIf)).mapM fun pipeline =>
    (pipeline.splitOn (.op .pipe)).mapM parseSimple

/-- The pipelines of a command line. -/
def parse (s : Str) : Option (List (List Simple)) := (lex s).bind parseTokens

@[simp] theorem wordText_plain (s : Str) : wordText (s.map .plain) = some s := by
  induction s with
  | nil => rfl
  | cons c s ih =>
    rw [wordText] at ih ⊢
    rw [List.map_cons, List.mapM_cons, ih]
    rfl

@[simp] theorem wordText_quoted (s : Str) : wordText (s.map .quoted) = some s := by
  induction s with
  | nil => rfl
  | cons c s ih =>
    rw [wordText] at ih ⊢
    rw [List.map_cons, List.mapM_cons, ih]
    rfl

/-! ### Reading tokens -/

@[simp] theorem splitOn_cons_literal (o : Operator) (w : Str) (ts : List Token) :
    (literal w :: ts).splitOn (.op o) = (ts.splitOn (.op o)).modifyHead (literal w :: ·) := by
  rw [List.splitOn_cons_eq_if_modifyHead]
  rfl

@[simp] theorem splitOn_cons_quotedWord (o : Operator) (w : Str) (ts : List Token) :
    (quotedWord w :: ts).splitOn (.op o) = (ts.splitOn (.op o)).modifyHead (quotedWord w :: ·) := by
  rw [List.splitOn_cons_eq_if_modifyHead]
  rfl

@[simp] theorem splitOn_cons_ioNumber (o : Operator) (n : Str) (ts : List Token) :
    (Token.ioNumber n :: ts).splitOn (.op o) =
      (ts.splitOn (.op o)).modifyHead (Token.ioNumber n :: ·) := by
  rw [List.splitOn_cons_eq_if_modifyHead]
  rfl

@[simp] theorem splitOn_cons_op (o o' : Operator) (ts : List Token) :
    (Token.op o' :: ts).splitOn (.op o) =
      if o' = o then [] :: ts.splitOn (.op o)
      else (ts.splitOn (.op o)).modifyHead (Token.op o' :: ·) := by
  rw [List.splitOn_cons_eq_if_modifyHead]
  simp

@[simp] theorem parseSimple_nil : parseSimple [] = some ⟨[], []⟩ := rfl

@[simp] theorem parseSimple_cons_literal (w : Str) (ts : List Token) :
    parseSimple (literal w :: ts) =
      (parseSimple ts).map fun rest => ⟨w :: rest.words, rest.redirections⟩ := by
  rw [literal, parseSimple, wordText_plain]
  cases parseSimple ts <;> rfl

@[simp] theorem parseSimple_cons_quotedWord (w : Str) (ts : List Token) :
    parseSimple (quotedWord w :: ts) =
      (parseSimple ts).map fun rest => ⟨w :: rest.words, rest.redirections⟩ := by
  rw [quotedWord, parseSimple, wordText_quoted]
  cases parseSimple ts <;> rfl

@[simp] theorem parseSimple_cons_great (w : Str) (ts : List Token) :
    parseSimple (.op .great :: literal w :: ts) =
      (parseSimple ts).map fun rest => ⟨rest.words, ⟨none, .great, w⟩ :: rest.redirections⟩ := by
  rw [literal, parseSimple, wordText_plain]
  cases parseSimple ts <;> rfl

@[simp] theorem parseSimple_cons_ioNumber (n w : Str) (ts : List Token) :
    parseSimple (.ioNumber n :: .op .great :: literal w :: ts) =
      (parseSimple ts).map fun rest => ⟨rest.words, ⟨some n, .great, w⟩ :: rest.redirections⟩ := by
  rw [literal, parseSimple, wordText_plain]
  cases parseSimple ts <;> rfl

example : lex "a 'b c' 2>/dev/null && d|e $f".toList =
    some [literal "a".toList, quotedWord "b c".toList, .ioNumber "2".toList, .op .great,
      literal "/dev/null".toList, .op .andIf, literal "d".toList, .op .pipe,
      literal "e".toList, .word [.special '$', .plain 'f']] := by
  decide

end Rustmote.Shell
