import Rustmote.Foundations.Interaction

/-!
# Contracts of programs that ask

What a program may ask often depends on what it has been answered before. A `Contract` keeps that
in a state: every event takes it to the next one, and each state allows some requests.

* `Kept` — every request of a trace is allowed where it is made; `kept_iff`, by the events before
  it.
* `Meets c Q s p` — from `s` on, `p` keeps the contract whatever it is answered, and where it comes
  to an end the state and its result satisfy `Q`. There is a rule for each way to build a program.
* `Meets.run` — the runs of a program that meets a contract keep it.
* `Always.after` — the rule for a program whose requests do not matter.
-/

namespace Rustmote.Interaction

variable {Op : Type} {Reply : Op → Type} {ε α β S : Type}

/-- A state that events change, and what is allowed in it. -/
structure Contract (Reply : Op → Type) (S : Type) where
  /-- The state behind an event. -/
  next : S → Event Reply → S
  /-- What may be asked. -/
  allowed : S → Op → Prop

namespace Contract

variable (c : Contract Reply S)

/-- The state behind some events. -/
def after (s : S) (tr : List (Event Reply)) : S := tr.foldl c.next s

/-- Every request is allowed where it is made. -/
def Kept : S → List (Event Reply) → Prop
  | _, [] => True
  | s, e :: tr => c.allowed s e.request ∧ Kept (c.next s e) tr

/-- The contract whose state is all that was before. -/
def history (allowed : List (Event Reply) → Op → Prop) : Contract Reply (List (Event Reply)) :=
  ⟨fun s e => s ++ [e], allowed⟩

theorem after_history {allowed : List (Event Reply) → Op → Prop} (s tr : List (Event Reply)) :
    (history allowed).after s tr = s ++ tr := by
  induction tr generalizing s with
  | nil => exact (List.append_nil s).symm
  | cons e tr ih => exact (ih (s ++ [e])).trans (List.append_assoc s [e] tr)

variable {c} {s : S}

/-- **A contract is kept** when each request is allowed by what was before it. -/
theorem kept_iff {tr : List (Event Reply)} : c.Kept s tr ↔
    ∀ before e behind, tr = before ++ e :: behind → c.allowed (c.after s before) e.request := by
  induction tr generalizing s with
  | nil => simp [Kept]
  | cons e tr ih =>
    rw [Kept, ih]
    constructor
    · rintro ⟨he, hrest⟩ before e' behind heq
      cases before with
      | nil =>
        obtain ⟨rfl, -⟩ := List.cons.inj heq
        exact he
      | cons first before =>
        obtain ⟨rfl, hrest'⟩ := List.cons.inj heq
        exact hrest before e' behind hrest'
    · intro h
      refine ⟨h [] e tr rfl, fun before e' behind heq => ?_⟩
      exact h (e :: before) e' behind (congrArg (e :: ·) heq)

end Contract

namespace Prog

/-- From a state on, the program keeps the contract, and what it ends with satisfies `Q`. -/
def Meets (c : Contract Reply S) (Q : S → Except ε α → Prop) : S → Prog Reply ε α → Prop
  | s, .ret a => Q s (.ok a)
  | s, .fail e => Q s (.error e)
  | s, .ask q k => c.allowed s q ∧ ∀ x, Meets c Q (c.next s ⟨q, x⟩) (k x)
  | _, .cut => True

variable {c : Contract Reply S} {s : S} {Q : S → Except ε α → Prop}

theorem Meets.mono {p : Prog Reply ε α} {Q' : S → Except ε α → Prop} (h : Meets c Q s p)
    (hQ : ∀ s x, Q s x → Q' s x) : Meets c Q' s p := by
  induction p generalizing s with
  | ret a => exact hQ _ _ h
  | fail e => exact hQ _ _ h
  | ask q k ih => exact ⟨h.1, fun x => ih x (h.2 x)⟩
  | cut => exact h

/-- The rule for a sequence. -/
theorem Meets.bind {p : Prog Reply ε α} {f : α → Prog Reply ε β} {Q' : S → Except ε β → Prop}
    (h : Meets c Q s p) (hok : ∀ s a, Q s (.ok a) → Meets c Q' s (f a))
    (herror : ∀ s e, Q s (.error e) → Q' s (.error e)) : Meets c Q' s (p >>= f) := by
  induction p generalizing s with
  | ret a => exact hok _ _ h
  | fail e => exact herror _ _ h
  | ask q k ih => exact ⟨h.1, fun x => ih x (h.2 x)⟩
  | cut => exact h

/-- The rule for a request. -/
theorem Meets.request {q : Op} {f : Reply q → Prog Reply ε β} {Q' : S → Except ε β → Prop}
    (hq : c.allowed s q) (hf : ∀ x, Meets c Q' (c.next s ⟨q, x⟩) (f x)) :
    Meets c Q' s ((Prog.request q : Prog Reply ε (Reply q)) >>= f) := ⟨hq, hf⟩

/-- The rule for `?`. -/
theorem Meets.lift {x : Except ε α} {f : α → Prog Reply ε β} {Q' : S → Except ε β → Prop}
    (hok : ∀ a, x = .ok a → Meets c Q' s (f a)) (herror : ∀ e, x = .error e → Q' s (.error e)) :
    Meets c Q' s ((liftM x : Prog Reply ε α) >>= f) := by
  cases x with
  | ok a => exact hok a rfl
  | error e => exact herror e rfl

/-- The rule for looking at a result. -/
theorem Meets.attempt {p : Prog Reply ε α} {Q' : S → Except ε (Except ε α) → Prop}
    (h : Meets c Q s p) (hQ : ∀ s x, Q s x → Q' s (.ok x)) : Meets c Q' s p.attempt := by
  induction p generalizing s with
  | ret a => exact hQ _ _ h
  | fail e => exact hQ _ _ h
  | ask q k ih => exact ⟨h.1, fun x => ih x (h.2 x)⟩
  | cut => exact h

/-- It does not fail, and what it returns satisfies `P`. -/
def Returns (P : S → α → Prop) (s : S) (x : Except ε α) : Prop := ∃ a, x = .ok a ∧ P s a

/-- The rule for a sequence whose first part does not fail. -/
theorem Meets.then {p : Prog Reply ε α} {f : α → Prog Reply ε β} {P : S → α → Prop}
    {Q' : S → Except ε β → Prop} (h : Meets c (Returns P) s p)
    (hok : ∀ s a, P s a → Meets c Q' s (f a)) : Meets c Q' s (p >>= f) := by
  refine h.bind ?_ ?_
  · rintro s a ⟨_, ha, hP⟩
    obtain rfl := Except.ok.inj ha
    exact hok s a hP
  · rintro s e ⟨_, he, -⟩
    cases he

/-- **Soundness**: a run of a program that meets a contract keeps it, and what it returns is as the
program says. -/
theorem Meets.run {p : Prog Reply ε α} {tr : List (Event Reply)} {r : Option (Except ε α)}
    (h : Meets c Q s p) (hrun : Run p tr r) :
    c.Kept s tr ∧ ∀ x, r = some x → Q (c.after s tr) x := by
  induction hrun generalizing s with
  | stop => exact ⟨trivial, fun x hx => by cases hx⟩
  | ret => exact ⟨trivial, fun x hx => Option.some.inj hx ▸ h⟩
  | fail => exact ⟨trivial, fun x hx => Option.some.inj hx ▸ h⟩
  | ask _ ih =>
    obtain ⟨hkept, hends⟩ := ih (h.2 _)
    exact ⟨⟨h.1, hkept⟩, hends⟩

/-- Where every request is allowed, nothing has to be said of what comes first. -/
theorem Always.after {G : Event Reply → Prop} {P : Op → Prop} (hP : ∀ q, P q) {p : Prog Reply ε α}
    {f : α → Prog Reply ε β} {Q : β → Prop} (hf : ∀ a, Always G P (f a) Q) :
    Always G P (p >>= f) Q := by
  induction p with
  | ret a => exact hf a
  | fail e => exact .fail
  | ask q k ih => exact .ask (hP q) fun x _ => ih x
  | cut => exact .cut

end Prog

end Rustmote.Interaction
