import Mathlib.Data.List.Basic

/-!
# Programs that ask

A program that talks to the outside world is a tree of requests: it returns, it fails,
or it asks something and goes on with the reply. Nothing is said about where replies
come from, so what is proved of `Run` holds whatever the world answers.

* `Prog` — the trees, a monad with failure (`ofExcept` is Rust's `?` on a computed
  `Result`, `attempt` looks at the result instead of passing an error on). `cut` is where a
  bound on a loop was reached: a run that gets there never returns.
* `Run p tr r` — `p` can make the requests of `tr` and get those replies; `r` is what it
  returned, or `none` while it is still running.
* `Env` — a world that answers every request from its state, and `Runs`, the runs in it.
  `drive` computes the run, `trace` its events.
* `Always G P p Q` — as long as every reply satisfies `G`, every request satisfies `P` and
  every value returned satisfies `Q`; `Errors G E p` — every failure satisfies `E`.
* `Ends` — the run in a world returns.
-/

namespace Rustmote.Interaction

variable {Op : Type} {Reply : Op → Type} {ε α β W : Type}

/-- A program that asks requests `Op`, gets replies `Reply`, and returns an `α` or fails
with an `ε`. -/
inductive Prog (Reply : Op → Type) (ε α : Type) : Type where
  /-- Return. -/
  | ret (a : α)
  /-- Fail. -/
  | fail (e : ε)
  /-- Ask, and go on with the reply. -/
  | ask (q : Op) (k : Reply q → Prog Reply ε α)
  /-- The bound on a loop was reached. -/
  | cut

/-- A request with its reply. -/
structure Event (Reply : Op → Type) where
  /-- What was asked. -/
  request : Op
  /-- What was answered. -/
  reply : Reply request

namespace Prog

/-- Run `p`, then `f` on its value. -/
def bind : Prog Reply ε α → (α → Prog Reply ε β) → Prog Reply ε β
  | .ret a, f => f a
  | .fail e, _ => .fail e
  | .ask q k, f => .ask q fun r => (k r).bind f
  | .cut, _ => .cut

instance : Monad (Prog Reply ε) where
  pure := .ret
  bind := bind

/-- Ask and return the reply. -/
def request (q : Op) : Prog Reply ε (Reply q) := .ask q .ret

/-- A computed result: `?`. -/
def ofExcept : Except ε α → Prog Reply ε α
  | .ok a => .ret a
  | .error e => .fail e

instance : MonadLift (Except ε) (Prog Reply ε) := ⟨ofExcept⟩

/-- Run `p` and return its result, error or not. -/
def attempt : Prog Reply ε α → Prog Reply ε (Except ε α)
  | .ret a => .ret (.ok a)
  | .fail e => .ret (.error e)
  | .ask q k => .ask q fun r => (k r).attempt
  | .cut => .cut

theorem ret_bind (a : α) (f : α → Prog Reply ε β) : (.ret a : Prog Reply ε α) >>= f = f a := rfl

theorem fail_bind (e : ε) (f : α → Prog Reply ε β) :
    (.fail e : Prog Reply ε α) >>= f = .fail e := rfl

theorem ask_bind (q : Op) (k : Reply q → Prog Reply ε α) (f : α → Prog Reply ε β) :
    (.ask q k : Prog Reply ε α) >>= f = .ask q fun r => k r >>= f := rfl

theorem cut_bind (f : α → Prog Reply ε β) : (.cut : Prog Reply ε α) >>= f = .cut := rfl

/-! ### Runs -/

/-- A run of a program, up to where it returns or at any point before. -/
inductive Run : Prog Reply ε α → List (Event Reply) → Option (Except ε α) → Prop where
  /-- Still running. -/
  | stop {p : Prog Reply ε α} : Run p [] none
  /-- It returned. -/
  | ret {a : α} : Run (.ret a) [] (some (.ok a))
  /-- It failed. -/
  | fail {e : ε} : Run (.fail e) [] (some (.error e))
  /-- It asked, and goes on with the reply. -/
  | ask {q : Op} {k : Reply q → Prog Reply ε α} {x : Reply q} {tr : List (Event Reply)}
      {r : Option (Except ε α)} : Run (k x) tr r → Run (.ask q k) (⟨q, x⟩ :: tr) r

theorem run_ret_iff {a : α} {tr : List (Event Reply)} {r : Option (Except ε α)} :
    Run (.ret a) tr r ↔ tr = [] ∧ (r = none ∨ r = some (.ok a)) := by
  constructor
  · rintro (_ | _)
    · exact ⟨rfl, .inl rfl⟩
    · exact ⟨rfl, .inr rfl⟩
  · rintro ⟨rfl, rfl | rfl⟩
    · exact .stop
    · exact .ret

theorem run_fail_iff {e : ε} {tr : List (Event Reply)} {r : Option (Except ε α)} :
    Run (.fail e) tr r ↔ tr = [] ∧ (r = none ∨ r = some (.error e)) := by
  constructor
  · rintro (_ | _)
    · exact ⟨rfl, .inl rfl⟩
    · exact ⟨rfl, .inr rfl⟩
  · rintro ⟨rfl, rfl | rfl⟩
    · exact .stop
    · exact .fail

theorem run_ask_iff {q : Op} {k : Reply q → Prog Reply ε α} {tr : List (Event Reply)}
    {r : Option (Except ε α)} :
    Run (.ask q k) tr r ↔
      (tr = [] ∧ r = none) ∨ ∃ x tr', tr = ⟨q, x⟩ :: tr' ∧ Run (k x) tr' r := by
  constructor
  · rintro (_ | _ | _ | h)
    · exact .inl ⟨rfl, rfl⟩
    · exact .inr ⟨_, _, rfl, h⟩
  · rintro (⟨rfl, rfl⟩ | ⟨x, tr', rfl, h⟩)
    · exact .stop
    · exact .ask h

theorem run_cut_iff {tr : List (Event Reply)} {r : Option (Except ε α)} :
    Run (.cut : Prog Reply ε α) tr r ↔ tr = [] ∧ r = none := by
  constructor
  · rintro (_ | _)
    exact ⟨rfl, rfl⟩
  · rintro ⟨rfl, rfl⟩
    exact .stop

/-- **Runs of a sequence**: the first part is still running, or it failed, or it returned
and the second part runs on from there. -/
theorem run_bind_iff {p : Prog Reply ε α} {f : α → Prog Reply ε β} {tr : List (Event Reply)}
    {r : Option (Except ε β)} :
    Run (p >>= f) tr r ↔
      (r = none ∧ Run p tr none) ∨ (∃ e, r = some (.error e) ∧ Run p tr (some (.error e))) ∨
        ∃ a t₁ t₂, tr = t₁ ++ t₂ ∧ Run p t₁ (some (.ok a)) ∧ Run (f a) t₂ r := by
  induction p generalizing tr r with
  | ret a =>
    rw [ret_bind]
    constructor
    · exact fun h => .inr (.inr ⟨a, [], tr, rfl, .ret, h⟩)
    · rintro (⟨rfl, h⟩ | ⟨e, rfl, h⟩ | ⟨b, t₁, t₂, rfl, h, h'⟩)
      · obtain ⟨rfl, -⟩ := run_ret_iff.mp h
        exact .stop
      · cases h
      · cases h
        exact h'
  | fail e =>
    rw [fail_bind, run_fail_iff]
    constructor
    · rintro ⟨rfl, rfl | rfl⟩
      · exact .inl ⟨rfl, .stop⟩
      · exact .inr (.inl ⟨e, rfl, .fail⟩)
    · rintro (⟨rfl, h⟩ | ⟨e', rfl, h⟩ | ⟨b, t₁, t₂, rfl, h, h'⟩)
      · exact ⟨(run_fail_iff.mp h).1, .inl rfl⟩
      · cases h
        exact ⟨rfl, .inr rfl⟩
      · cases h
  | ask q k ih =>
    rw [ask_bind, run_ask_iff]
    constructor
    · rintro (⟨rfl, rfl⟩ | ⟨x, tr', rfl, h⟩)
      · exact .inl ⟨rfl, .stop⟩
      · rcases (ih x).mp h with ⟨hr, hp⟩ | ⟨e, hr, hp⟩ | ⟨a, t₁, t₂, ht, hp, h'⟩
        · exact .inl ⟨hr, .ask hp⟩
        · exact .inr (.inl ⟨e, hr, .ask hp⟩)
        · exact .inr (.inr ⟨a, ⟨q, x⟩ :: t₁, t₂, by rw [ht, List.cons_append], .ask hp, h'⟩)
    · rintro (⟨rfl, h⟩ | ⟨e, rfl, h⟩ | ⟨a, t₁, t₂, rfl, h, h'⟩)
      · cases h with
        | stop => exact .inl ⟨rfl, rfl⟩
        | ask h => exact .inr ⟨_, _, rfl, (ih _).mpr (.inl ⟨rfl, h⟩)⟩
      · cases h with
        | ask h => exact .inr ⟨_, _, rfl, (ih _).mpr (.inr (.inl ⟨e, rfl, h⟩))⟩
      · cases h with
        | ask h => exact .inr ⟨_, _, rfl, (ih _).mpr (.inr (.inr ⟨a, _, t₂, rfl, h, h'⟩))⟩
  | cut =>
    rw [cut_bind, run_cut_iff]
    constructor
    · rintro ⟨rfl, rfl⟩
      exact .inl ⟨rfl, .stop⟩
    · rintro (⟨rfl, h⟩ | ⟨e, rfl, h⟩ | ⟨b, t₁, t₂, rfl, h, h'⟩)
      · exact ⟨(run_cut_iff.mp h).1, rfl⟩
      · cases h
      · cases h

theorem run_ofExcept_iff {x : Except ε α} {tr : List (Event Reply)} {r : Option (Except ε α)} :
    Run (ofExcept x : Prog Reply ε α) tr r ↔ tr = [] ∧ (r = none ∨ r = some x) := by
  cases x with
  | ok a => exact run_ret_iff
  | error e => exact run_fail_iff

/-- What `attempt` returns is the result of a run. -/
theorem run_attempt_iff {p : Prog Reply ε α} {tr : List (Event Reply)}
    {r : Option (Except ε (Except ε α))} :
    Run p.attempt tr r ↔
      (r = none ∧ Run p tr none) ∨ ∃ x, r = some (.ok x) ∧ Run p tr (some x) := by
  induction p generalizing tr r with
  | ret a =>
    rw [attempt, run_ret_iff]
    constructor
    · rintro ⟨rfl, rfl | rfl⟩
      · exact .inl ⟨rfl, .stop⟩
      · exact .inr ⟨_, rfl, .ret⟩
    · rintro (⟨rfl, h⟩ | ⟨x, rfl, h⟩)
      · exact ⟨(run_ret_iff.mp h).1, .inl rfl⟩
      · cases h
        exact ⟨rfl, .inr rfl⟩
  | fail e =>
    rw [attempt, run_ret_iff]
    constructor
    · rintro ⟨rfl, rfl | rfl⟩
      · exact .inl ⟨rfl, .stop⟩
      · exact .inr ⟨_, rfl, .fail⟩
    · rintro (⟨rfl, h⟩ | ⟨x, rfl, h⟩)
      · exact ⟨(run_fail_iff.mp h).1, .inl rfl⟩
      · cases h
        exact ⟨rfl, .inr rfl⟩
  | ask q k ih =>
    rw [attempt, run_ask_iff]
    constructor
    · rintro (⟨rfl, rfl⟩ | ⟨x, tr', rfl, h⟩)
      · exact .inl ⟨rfl, .stop⟩
      · rcases (ih x).mp h with ⟨hr, hp⟩ | ⟨y, hr, hp⟩
        · exact .inl ⟨hr, .ask hp⟩
        · exact .inr ⟨y, hr, .ask hp⟩
    · rintro (⟨rfl, h⟩ | ⟨y, rfl, h⟩)
      · cases h with
        | stop => exact .inl ⟨rfl, rfl⟩
        | ask h => exact .inr ⟨_, _, rfl, (ih _).mpr (.inl ⟨rfl, h⟩)⟩
      · cases h with
        | ask h => exact .inr ⟨_, _, rfl, (ih _).mpr (.inr ⟨y, rfl, h⟩)⟩
  | cut =>
    rw [attempt, run_cut_iff]
    constructor
    · rintro ⟨rfl, rfl⟩
      exact .inl ⟨rfl, .stop⟩
    · rintro (⟨rfl, h⟩ | ⟨x, rfl, h⟩)
      · exact ⟨(run_cut_iff.mp h).1, rfl⟩
      · cases h

/-! ### What a program always does -/

/-- As long as every reply satisfies `G`, every request satisfies `P`, and a value that is
returned satisfies `Q`. -/
inductive Always (G : Event Reply → Prop) (P : Op → Prop) :
    Prog Reply ε α → (α → Prop) → Prop where
  /-- The value satisfies `Q`. -/
  | ret {a : α} {Q : α → Prop} (h : Q a) : Always G P (.ret a) Q
  /-- Nothing is said of a failure. -/
  | fail {e : ε} {Q : α → Prop} : Always G P (.fail e) Q
  /-- The request satisfies `P`, and so it goes on for every reply that satisfies `G`. -/
  | ask {q : Op} {k : Reply q → Prog Reply ε α} {Q : α → Prop} (hq : P q)
      (hk : ∀ x, G ⟨q, x⟩ → Always G P (k x) Q) : Always G P (.ask q k) Q
  /-- Nothing is said of a loop that reached its bound. -/
  | cut {Q : α → Prop} : Always G P .cut Q

variable {G : Event Reply → Prop} {P : Op → Prop}

theorem Always.mono {p : Prog Reply ε α} {Q Q' : α → Prop} (h : Always G P p Q)
    (hQ : ∀ a, Q a → Q' a) : Always G P p Q' := by
  induction h with
  | ret h => exact .ret (hQ _ h)
  | fail => exact .fail
  | ask hq _ ih => exact .ask hq fun x hx => ih x hx hQ
  | cut => exact .cut

/-- Fewer replies are allowed, more requests are. -/
theorem Always.weaken {G' : Event Reply → Prop} {P' : Op → Prop} {p : Prog Reply ε α}
    {Q : α → Prop} (h : Always G P p Q) (hG : ∀ e, G' e → G e) (hP : ∀ q, P q → P' q) :
    Always G' P' p Q := by
  induction h with
  | ret h => exact .ret h
  | fail => exact .fail
  | ask hq _ ih => exact .ask (hP _ hq) fun x hx => ih x (hG _ hx)
  | cut => exact .cut

/-- The rule for a sequence. -/
theorem Always.bind {p : Prog Reply ε α} {f : α → Prog Reply ε β} {Q : α → Prop} {Q' : β → Prop}
    (h : Always G P p Q) (hf : ∀ a, Q a → Always G P (f a) Q') : Always G P (p >>= f) Q' := by
  induction h with
  | ret h => exact hf _ h
  | fail => exact .fail
  | ask hq _ ih => exact .ask hq fun x hx => ih x hx hf
  | cut => exact .cut

theorem always_ofExcept {x : Except ε α} :
    Always G P (ofExcept x : Prog Reply ε α) fun a => x = .ok a := by
  cases x with
  | ok a => exact .ret rfl
  | error e => exact .fail

/-- The rule for `?`. -/
theorem Always.lift {x : Except ε α} {f : α → Prog Reply ε β} {Q : β → Prop}
    (hf : ∀ a, x = .ok a → Always G P (f a) Q) :
    Always G P ((liftM x : Prog Reply ε α) >>= f) Q := always_ofExcept.bind hf

/-- The rule for a request. -/
theorem Always.request {q : Op} {f : Reply q → Prog Reply ε β} {Q : β → Prop} (hq : P q)
    (hf : ∀ x, G ⟨q, x⟩ → Always G P (f x) Q) :
    Always G P ((request q : Prog Reply ε (Reply q)) >>= f) Q := .ask hq hf

theorem Always.attempt {p : Prog Reply ε α} {Q : α → Prop} (h : Always G P p Q) :
    Always G P p.attempt fun x => ∀ a, x = .ok a → Q a := by
  induction h with
  | ret h =>
    refine .ret fun b hb => ?_
    cases hb
    exact h
  | fail => exact .ret fun b hb => nomatch hb
  | ask hq _ ih => exact .ask hq ih
  | cut => exact .cut

/-- **Soundness**: in a run whose replies satisfy `G`, the requests satisfy `P` and the
value returned satisfies `Q`. -/
theorem Always.run {p : Prog Reply ε α} {Q : α → Prop} {tr : List (Event Reply)}
    {r : Option (Except ε α)} (h : Always G P p Q) (hrun : Run p tr r) (hG : ∀ e ∈ tr, G e) :
    (∀ e ∈ tr, P e.request) ∧ ∀ a, r = some (.ok a) → Q a := by
  induction hrun with
  | stop => simp
  | ret =>
    refine ⟨by simp, fun a ha => ?_⟩
    obtain rfl := Except.ok.inj (Option.some.inj ha)
    cases h with
    | ret h => exact h
  | fail => simp
  | @ask q k x tr r hrun ih =>
    cases h with
    | ask hP hk =>
    obtain ⟨h₁, h₂⟩ := ih (hk x (hG _ List.mem_cons_self)) fun e he =>
      hG e (List.mem_cons_of_mem _ he)
    refine ⟨fun e he => ?_, h₂⟩
    rcases List.mem_cons.mp he with rfl | he
    · exact hP
    · exact h₁ e he

/-- As long as every reply satisfies `G`, a failure satisfies `E`. -/
inductive Errors (G : Event Reply → Prop) (E : ε → Prop) : Prog Reply ε α → Prop where
  /-- It returns. -/
  | ret {a : α} : Errors G E (.ret a)
  /-- It fails as it may. -/
  | fail {e : ε} (h : E e) : Errors G E (.fail e)
  /-- So it goes on for every reply that satisfies `G`. -/
  | ask {q : Op} {k : Reply q → Prog Reply ε α} (hk : ∀ x, G ⟨q, x⟩ → Errors G E (k x)) :
      Errors G E (.ask q k)
  /-- Nothing is said of a loop that reached its bound. -/
  | cut : Errors G E .cut

variable {E : ε → Prop}

/-- The rule for a sequence, with what is known of the first value. -/
theorem Errors.bind_of {p : Prog Reply ε α} {f : α → Prog Reply ε β} {Q : α → Prop}
    (h : Errors G E p) (hQ : Always G P p Q) (hf : ∀ a, Q a → Errors G E (f a)) :
    Errors G E (p >>= f) := by
  induction h with
  | ret =>
    cases hQ with
    | ret hq => exact hf _ hq
  | fail h => exact .fail h
  | ask _ ih =>
    cases hQ with
    | ask _ hk => exact .ask fun x hx => ih x hx (hk x hx)
  | cut => exact .cut

/-- The rule for a sequence. -/
theorem Errors.bind {p : Prog Reply ε α} {f : α → Prog Reply ε β} (h : Errors G E p)
    (hf : ∀ a, Errors G E (f a)) : Errors G E (p >>= f) := by
  induction h with
  | ret => exact hf _
  | fail h => exact .fail h
  | ask _ ih => exact .ask fun x hx => ih x hx
  | cut => exact .cut

theorem errors_ofExcept {x : Except ε α} (h : ∀ e, x = .error e → E e) :
    Errors G E (ofExcept x : Prog Reply ε α) := by
  cases x with
  | ok a => exact .ret
  | error e => exact .fail (h e rfl)

/-- The rule for `?`. -/
theorem Errors.lift {x : Except ε α} {f : α → Prog Reply ε β} (h : ∀ e, x = .error e → E e)
    (hf : ∀ a, x = .ok a → Errors G E (f a)) :
    Errors G E ((liftM x : Prog Reply ε α) >>= f) := by
  cases x with
  | ok a => exact hf a rfl
  | error e => exact .fail (h e rfl)

/-- The rule for a request. -/
theorem Errors.request {q : Op} {f : Reply q → Prog Reply ε β}
    (hf : ∀ x, G ⟨q, x⟩ → Errors G E (f x)) :
    Errors G E ((request q : Prog Reply ε (Reply q)) >>= f) := .ask hf

/-- Nothing fails any more. -/
theorem errors_attempt (p : Prog Reply ε α) : Errors G E p.attempt := by
  induction p with
  | ret a => exact .ret
  | fail e => exact .ret
  | ask q k ih => exact .ask fun x _ => ih x
  | cut => exact .cut

/-- **Soundness**: in a run whose replies satisfy `G`, a failure satisfies `E`. -/
theorem Errors.run {p : Prog Reply ε α} {tr : List (Event Reply)} {e : ε} (h : Errors G E p)
    (hrun : Run p tr (some (.error e))) (hG : ∀ e ∈ tr, G e) : E e := by
  induction h generalizing tr with
  | ret => exact nomatch hrun
  | fail h =>
    cases hrun
    exact h
  | ask _ ih =>
    cases hrun with
    | ask hrun =>
    exact ih _ (hG _ List.mem_cons_self) hrun fun e he => hG e (List.mem_cons_of_mem _ he)
  | cut => exact nomatch hrun

/-- The program has no loop that could reach its bound. -/
inductive NoCut : Prog Reply ε α → Prop where
  | ret {a : α} : NoCut (.ret a)
  | fail {e : ε} : NoCut (.fail e)
  | ask {q : Op} {k : Reply q → Prog Reply ε α} (h : ∀ x, NoCut (k x)) : NoCut (.ask q k)

theorem NoCut.bind {p : Prog Reply ε α} {f : α → Prog Reply ε β} (h : NoCut p)
    (hf : ∀ a, NoCut (f a)) : NoCut (p >>= f) := by
  induction h with
  | ret => exact hf _
  | fail => exact .fail
  | ask _ ih => exact .ask ih

theorem noCut_ofExcept {x : Except ε α} : NoCut (ofExcept x : Prog Reply ε α) := by
  cases x with
  | ok a => exact .ret
  | error e => exact .fail

theorem NoCut.attempt {p : Prog Reply ε α} (h : NoCut p) : NoCut p.attempt := by
  induction h with
  | ret => exact .ret
  | fail => exact .ret
  | ask _ ih => exact .ask ih

end Prog

/-! ### Worlds -/

/-- A world: it answers every request, and its state changes as it does. -/
structure Env (Reply : Op → Type) (W : Type) where
  /-- The reply and the state behind it. -/
  answer : W → (q : Op) → Reply q × W

namespace Env

open Prog

variable (env : Env Reply W)

/-- The state after an event. -/
def after (w : W) (e : Event Reply) : W := (env.answer w e.request).2

/-- The state after a run. -/
def final (w : W) (tr : List (Event Reply)) : W := tr.foldl env.after w

/-- The replies are the world's. -/
def Follows : W → List (Event Reply) → Prop
  | _, [] => True
  | w, e :: tr => (env.answer w e.request).1 = e.reply ∧ Follows (env.after w e) tr

/-- In the world at `w`, the program runs with the events `tr`, returns `r`, and leaves the
world at `w'`. -/
def Runs (w : W) (p : Prog Reply ε α) (tr : List (Event Reply)) (r : Except ε α) (w' : W) : Prop :=
  Run p tr (some r) ∧ env.Follows w tr ∧ env.final w tr = w'

/-- Compute the run: its events and, unless a bound is reached, its result. -/
def drive : W → Prog Reply ε α → List (Event Reply) × Option (Except ε α)
  | _, .ret a => ([], some (.ok a))
  | _, .fail e => ([], some (.error e))
  | w, .ask q k =>
    let (tr, r) := drive (env.answer w q).2 (k (env.answer w q).1)
    (⟨q, (env.answer w q).1⟩ :: tr, r)
  | _, .cut => ([], none)

/-- The events of the computed run. -/
def trace (w : W) (p : Prog Reply ε α) : List (Event Reply) := (env.drive w p).1

variable {env}

@[simp] theorem final_nil (w : W) : env.final w [] = w := rfl

@[simp] theorem final_cons (w : W) (e : Event Reply) (tr : List (Event Reply)) :
    env.final w (e :: tr) = env.final (env.after w e) tr := rfl

theorem final_append (w : W) (t₁ t₂ : List (Event Reply)) :
    env.final w (t₁ ++ t₂) = env.final (env.final w t₁) t₂ := List.foldl_append

theorem follows_append {w : W} {t₁ t₂ : List (Event Reply)} :
    env.Follows w (t₁ ++ t₂) ↔ env.Follows w t₁ ∧ env.Follows (env.final w t₁) t₂ := by
  induction t₁ generalizing w with
  | nil => simp [Follows]
  | cons e t₁ ih => rw [List.cons_append, Follows, ih, Follows, final_cons, and_assoc]

/-- **The computed run is a run.** -/
theorem runs_drive {w : W} {p : Prog Reply ε α} {r : Except ε α}
    (h : (env.drive w p).2 = some r) :
    env.Runs w p (env.trace w p) r (env.final w (env.trace w p)) := by
  induction p generalizing w with
  | ret a =>
    obtain rfl := Option.some.inj h
    exact ⟨.ret, trivial, rfl⟩
  | fail e =>
    obtain rfl := Option.some.inj h
    exact ⟨.fail, trivial, rfl⟩
  | ask q k ih =>
    obtain ⟨h₁, h₂, h₃⟩ := ih (env.answer w q).1 h
    exact ⟨.ask h₁, ⟨rfl, h₂⟩, h₃⟩
  | cut => exact nomatch h

/-- What the computed run fails with. -/
def failure (w : W) (p : Prog Reply ε α) : Option ε :=
  match (env.drive w p).2 with
  | some (.error e) => some e
  | _ => none

/-- What the computed run returns. -/
def value (w : W) (p : Prog Reply ε α) : Option α :=
  match (env.drive w p).2 with
  | some (.ok a) => some a
  | _ => none

theorem runs_failure {w : W} {p : Prog Reply ε α} {e : ε} (h : env.failure w p = some e) :
    env.Runs w p (env.trace w p) (.error e) (env.final w (env.trace w p)) := by
  refine runs_drive ?_
  unfold failure at h
  split at h
  · next hr =>
    obtain rfl := Option.some.inj h
    exact hr
  · cases h

theorem runs_value {w : W} {p : Prog Reply ε α} {a : α} (h : env.value w p = some a) :
    env.Runs w p (env.trace w p) (.ok a) (env.final w (env.trace w p)) := by
  refine runs_drive ?_
  unfold value at h
  split at h
  · next hr =>
    obtain rfl := Option.some.inj h
    exact hr
  · cases h

theorem runs_ret_iff {w w' : W} {a : α} {tr : List (Event Reply)} {r : Except ε α} :
    env.Runs w (.ret a) tr r w' ↔ tr = [] ∧ r = .ok a ∧ w' = w := by
  rw [Runs, run_ret_iff]
  constructor
  · rintro ⟨⟨rfl, h⟩, -, rfl⟩
    simp only [reduceCtorEq, Option.some.injEq, false_or] at h
    exact ⟨rfl, h, rfl⟩
  · rintro ⟨rfl, rfl, rfl⟩
    exact ⟨⟨rfl, .inr rfl⟩, trivial, rfl⟩

theorem runs_fail_iff {w w' : W} {e : ε} {tr : List (Event Reply)} {r : Except ε α} :
    env.Runs w (.fail e) tr r w' ↔ tr = [] ∧ r = .error e ∧ w' = w := by
  rw [Runs, run_fail_iff]
  constructor
  · rintro ⟨⟨rfl, h⟩, -, rfl⟩
    simp only [reduceCtorEq, Option.some.injEq, false_or] at h
    exact ⟨rfl, h, rfl⟩
  · rintro ⟨rfl, rfl, rfl⟩
    exact ⟨⟨rfl, .inr rfl⟩, trivial, rfl⟩

theorem runs_ofExcept_iff {w w' : W} {x : Except ε α} {tr : List (Event Reply)}
    {r : Except ε α} :
    env.Runs w (ofExcept x) tr r w' ↔ tr = [] ∧ r = x ∧ w' = w := by
  cases x with
  | ok a => exact runs_ret_iff
  | error e => exact runs_fail_iff

theorem runs_ask_iff {w w' : W} {q : Op} {k : Reply q → Prog Reply ε α}
    {tr : List (Event Reply)} {r : Except ε α} :
    env.Runs w (.ask q k) tr r w' ↔
      ∃ tr', tr = ⟨q, (env.answer w q).1⟩ :: tr' ∧
        env.Runs (env.answer w q).2 (k (env.answer w q).1) tr' r w' := by
  rw [Runs, run_ask_iff]
  constructor
  · rintro ⟨⟨-, h⟩ | ⟨x, tr', rfl, h⟩, hfollows, rfl⟩
    · cases h
    · obtain ⟨hx, hf⟩ := hfollows
      obtain rfl : (env.answer w q).1 = x := hx
      exact ⟨tr', rfl, h, hf, rfl⟩
  · rintro ⟨tr', rfl, h, hf, rfl⟩
    exact ⟨.inr ⟨_, tr', rfl, h⟩, ⟨rfl, hf⟩, rfl⟩

theorem runs_request_iff {w w' : W} {q : Op} {f : Reply q → Prog Reply ε α}
    {tr : List (Event Reply)} {r : Except ε α} :
    env.Runs w ((request q : Prog Reply ε (Reply q)) >>= f) tr r w' ↔
      ∃ tr', tr = ⟨q, (env.answer w q).1⟩ :: tr' ∧
        env.Runs (env.answer w q).2 (f (env.answer w q).1) tr' r w' := runs_ask_iff

theorem not_runs_cut {w w' : W} {tr : List (Event Reply)} {r : Except ε α} :
    ¬ env.Runs w (.cut : Prog Reply ε α) tr r w' := by
  rintro ⟨h, -, -⟩
  cases h

/-- **Runs of a sequence in a world.** -/
theorem runs_bind_iff {w w' : W} {p : Prog Reply ε α} {f : α → Prog Reply ε β}
    {tr : List (Event Reply)} {r : Except ε β} :
    env.Runs w (p >>= f) tr r w' ↔
      (∃ e, r = .error e ∧ env.Runs w p tr (.error e) w') ∨
        ∃ a t₁ t₂ w₁, tr = t₁ ++ t₂ ∧ env.Runs w p t₁ (.ok a) w₁ ∧ env.Runs w₁ (f a) t₂ r w' := by
  constructor
  · rintro ⟨h, hf, rfl⟩
    rcases run_bind_iff.mp h with ⟨h, -⟩ | ⟨e, he, h⟩ | ⟨a, t₁, t₂, rfl, h₁, h₂⟩
    · simp at h
    · exact .inl ⟨e, Option.some.inj he, h, hf, rfl⟩
    · obtain ⟨hf₁, hf₂⟩ := follows_append.mp hf
      exact .inr ⟨a, t₁, t₂, _, rfl, ⟨h₁, hf₁, rfl⟩, h₂, hf₂, (final_append _ _ _).symm⟩
  · rintro (⟨e, rfl, h, hf, rfl⟩ | ⟨a, t₁, t₂, w₁, rfl, ⟨h₁, hf₁, rfl⟩, h₂, hf₂, rfl⟩)
    · exact ⟨run_bind_iff.mpr (.inr (.inl ⟨e, rfl, h⟩)), hf, rfl⟩
    · exact ⟨run_bind_iff.mpr (.inr (.inr ⟨a, t₁, t₂, rfl, h₁, h₂⟩)),
        follows_append.mpr ⟨hf₁, hf₂⟩, final_append _ _ _⟩

/-- A sequence that returned: both parts did. -/
theorem runs_bind_ok {w w' : W} {p : Prog Reply ε α} {f : α → Prog Reply ε β}
    {tr : List (Event Reply)} {b : β} (h : env.Runs w (p >>= f) tr (.ok b) w') :
    ∃ a t₁ t₂ w₁, tr = t₁ ++ t₂ ∧ env.Runs w p t₁ (.ok a) w₁ ∧ env.Runs w₁ (f a) t₂ (.ok b) w' := by
  rcases runs_bind_iff.mp h with ⟨e, he, -⟩ | h
  · cases he
  · exact h

/-- A sequence that did not fail as its first part may: that part returned. -/
theorem runs_bind_of_errors {w w' : W} {p : Prog Reply ε α} {f : α → Prog Reply ε β}
    {tr : List (Event Reply)} {r : Except ε β} {G : Event Reply → Prop} {E : ε → Prop}
    (h : env.Runs w (p >>= f) tr r w') (hE : Errors G E p) (hG : ∀ e ∈ tr, G e)
    (hr : ∀ e, r = .error e → ¬ E e) :
    ∃ a t₁ t₂ w₁, tr = t₁ ++ t₂ ∧ env.Runs w p t₁ (.ok a) w₁ ∧ env.Runs w₁ (f a) t₂ r w' := by
  rcases runs_bind_iff.mp h with ⟨e, he, hp⟩ | h
  · exact absurd (hE.run hp.1 hG) (hr e he)
  · exact h

/-- A computed result that is returned. -/
theorem runs_lift_ok {w w' : W} {x : Except ε α} {tr : List (Event Reply)} {a : α}
    (h : env.Runs w (liftM x : Prog Reply ε α) tr (.ok a) w') : tr = [] ∧ x = .ok a ∧ w' = w := by
  obtain ⟨htr, hx, hw⟩ := runs_ofExcept_iff.mp h
  exact ⟨htr, hx.symm, hw⟩

theorem runs_attempt_iff {w w' : W} {p : Prog Reply ε α} {tr : List (Event Reply)}
    {r : Except ε (Except ε α)} :
    env.Runs w p.attempt tr r w' ↔ ∃ x, r = .ok x ∧ env.Runs w p tr x w' := by
  constructor
  · rintro ⟨h, hf, rfl⟩
    rcases run_attempt_iff.mp h with ⟨h, -⟩ | ⟨x, hx, h⟩
    · simp at h
    · exact ⟨x, Option.some.inj hx, h, hf, rfl⟩
  · rintro ⟨x, rfl, h, hf, rfl⟩
    exact ⟨run_attempt_iff.mpr (.inr ⟨x, rfl, h⟩), hf, rfl⟩

/-- A world answers in one way: a program has one run. -/
theorem Runs.unique {w w₁ w₂ : W} {p : Prog Reply ε α} {t₁ t₂ : List (Event Reply)}
    {r₁ r₂ : Except ε α} (h₁ : env.Runs w p t₁ r₁ w₁) (h₂ : env.Runs w p t₂ r₂ w₂) :
    t₁ = t₂ ∧ r₁ = r₂ ∧ w₁ = w₂ := by
  induction p generalizing w t₁ t₂ with
  | ret a =>
    obtain ⟨rfl, rfl, rfl⟩ := runs_ret_iff.mp h₁
    obtain ⟨rfl, rfl, rfl⟩ := runs_ret_iff.mp h₂
    exact ⟨rfl, rfl, rfl⟩
  | fail e =>
    obtain ⟨rfl, rfl, rfl⟩ := runs_fail_iff.mp h₁
    obtain ⟨rfl, rfl, rfl⟩ := runs_fail_iff.mp h₂
    exact ⟨rfl, rfl, rfl⟩
  | ask q k ih =>
    obtain ⟨t₁', ht₁, hk₁⟩ := runs_ask_iff.mp h₁
    obtain ⟨t₂', ht₂, hk₂⟩ := runs_ask_iff.mp h₂
    obtain ⟨ht, hr, hw⟩ := ih _ hk₁ hk₂
    exact ⟨by rw [ht₁, ht₂, ht], hr, hw⟩
  | cut => exact absurd h₁ not_runs_cut

/-- **The rule for a run**: a relation that every allowed request keeps holds between the two
ends of a run. -/
theorem final_rel (env : Env Reply W) {R : W → W → Prop} {P : Op → Prop} (hrefl : ∀ w, R w w)
    (htrans : ∀ w₁ w₂ w₃, R w₁ w₂ → R w₂ w₃ → R w₁ w₃) (hstep : ∀ w q, P q → R w (env.answer w q).2)
    {tr : List (Event Reply)} (h : ∀ e ∈ tr, P e.request) (w : W) : R w (env.final w tr) := by
  induction tr generalizing w with
  | nil => exact hrefl w
  | cons e tr ih =>
    have hrest := ih (fun e he => h e (List.mem_cons_of_mem _ he)) (env.after w e)
    exact htrans _ _ _ (hstep w e.request (h e List.mem_cons_self)) hrest

/-- What a program always asks is asked in its runs. -/
theorem Runs.requests {w w' : W} {p : Prog Reply ε α} {tr : List (Event Reply)} {r : Except ε α}
    {P : Op → Prop} {Q : α → Prop} (hrun : env.Runs w p tr r w')
    (h : Always (fun _ => True) P p Q) : ∀ e ∈ tr, P e.request :=
  (h.run hrun.1 fun _ _ => trivial).1

/-- What a program always returns is returned by its runs. -/
theorem Runs.value {w w' : W} {p : Prog Reply ε α} {tr : List (Event Reply)} {a : α}
    {P : Op → Prop} {Q : α → Prop} (hrun : env.Runs w p tr (.ok a) w')
    (h : Always (fun _ => True) P p Q) : Q a :=
  (h.run hrun.1 fun _ _ => trivial).2 a rfl

/-- A relation that the requests of a program keep holds between the two ends of its runs. -/
theorem Runs.rel {R : W → W → Prop} {P : Op → Prop} {Q : α → Prop} {w w' : W}
    {p : Prog Reply ε α} {tr : List (Event Reply)} {r : Except ε α} (hrun : env.Runs w p tr r w')
    (h : Always (fun _ => True) P p Q) (hrefl : ∀ w, R w w)
    (htrans : ∀ w₁ w₂ w₃, R w₁ w₂ → R w₂ w₃ → R w₁ w₃)
    (hstep : ∀ w q, P q → R w (env.answer w q).2) : R w w' := by
  have hfinal := final_rel env hrefl htrans hstep (hrun.requests h) w
  rwa [hrun.2.2] at hfinal

/-! ### Returning -/

/-- The run of the program in the world returns. -/
def Ends (env : Env Reply W) (w : W) (p : Prog Reply ε α) : Prop :=
  ∃ tr r w', env.Runs w p tr r w'

theorem ends_ask {w : W} {q : Op} {k : Reply q → Prog Reply ε α}
    (h : env.Ends (env.answer w q).2 (k (env.answer w q).1)) : env.Ends w (.ask q k) := by
  obtain ⟨tr, r, w', h⟩ := h
  exact ⟨_, r, w', runs_ask_iff.mpr ⟨tr, rfl, h⟩⟩

theorem Ends.bind {w : W} {p : Prog Reply ε α} {f : α → Prog Reply ε β} (h : env.Ends w p)
    (hf : ∀ a tr w₁, env.Runs w p tr (.ok a) w₁ → env.Ends w₁ (f a)) : env.Ends w (p >>= f) := by
  obtain ⟨tr, r, w₁, h⟩ := h
  cases r with
  | error e => exact ⟨tr, .error e, w₁, runs_bind_iff.mpr (.inl ⟨e, rfl, h⟩)⟩
  | ok a =>
    obtain ⟨tr', r', w', h'⟩ := hf a tr w₁ h
    exact ⟨tr ++ tr', r', w', runs_bind_iff.mpr (.inr ⟨a, tr, tr', w₁, rfl, h, h'⟩)⟩

theorem Ends.attempt {w : W} {p : Prog Reply ε α} (h : env.Ends w p) : env.Ends w p.attempt := by
  obtain ⟨tr, r, w', h⟩ := h
  exact ⟨tr, .ok r, w', runs_attempt_iff.mpr ⟨r, rfl, h⟩⟩

/-- A program without bounded loops returns in every world. -/
theorem ends_of_noCut {w : W} {p : Prog Reply ε α} (h : NoCut p) : env.Ends w p := by
  induction h generalizing w with
  | @ret a => exact ⟨[], .ok a, w, runs_ret_iff.mpr ⟨rfl, rfl, rfl⟩⟩
  | @fail e => exact ⟨[], .error e, w, runs_fail_iff.mpr ⟨rfl, rfl, rfl⟩⟩
  | ask _ ih => exact ends_ask (ih _)

end Env

end Rustmote.Interaction
