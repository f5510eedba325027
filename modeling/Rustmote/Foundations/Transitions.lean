import Mathlib.Data.List.Basic

/-!
# Steps one after another

A system is a partial step function: what a move makes of a state, where the move can be taken.

* `run_invariant` — what every step keeps holds along a run; `run_history` — the same of a state
  and the moves behind it.
* `run_simulation` — where each move of a system is some moves of another one, each run is a run.
* `run_bounded` — moves that each take something off a measure are no more than the measure.
* `exists_run` — where there is such a move as long as a goal is not reached, it can be reached.
-/

namespace Rustmote.Transitions

variable {S M : Type} (step : S → M → Option S)

/-- Moves one after another. -/
def run : S → List M → Option S
  | s, [] => some s
  | s, m :: ms => (step s m).bind fun s' => run s' ms

variable {s s' : S} {m : M} {ms : List M}

variable {step} in
theorem run_cons_iff :
    run step s (m :: ms) = some s' ↔ ∃ s₁, step s m = some s₁ ∧ run step s₁ ms = some s' :=
  Option.bind_eq_some_iff

variable {step} in
theorem run_append {ms₁ ms₂ : List M} : run step s (ms₁ ++ ms₂) = some s' ↔
    ∃ s₁, run step s ms₁ = some s₁ ∧ run step s₁ ms₂ = some s' := by
  induction ms₁ generalizing s with
  | nil => simp [run]
  | cons m ms ih =>
    rw [List.cons_append, run_cons_iff]
    constructor
    · rintro ⟨s₁, hm, hrest⟩
      obtain ⟨s₂, h₁, h₂⟩ := ih.mp hrest
      exact ⟨s₂, run_cons_iff.mpr ⟨s₁, hm, h₁⟩, h₂⟩
    · rintro ⟨s₂, h₁, h₂⟩
      obtain ⟨s₁, hm, hrest⟩ := run_cons_iff.mp h₁
      exact ⟨s₁, hm, ih.mpr ⟨s₂, hrest, h₂⟩⟩

variable {step} in
theorem run_single : run step s [m] = some s' ↔ step s m = some s' := by
  rw [run_cons_iff]
  constructor
  · rintro ⟨s₁, hm, hrest⟩
    exact Option.some.inj hrest ▸ hm
  · exact fun hm => ⟨s', hm, rfl⟩

/-- What every step of these moves keeps holds along their runs. -/
theorem run_invariant {P : M → Prop} (I : S → Prop)
    (hstep : ∀ s m s', P m → I s → step s m = some s' → I s') (hms : ∀ m ∈ ms, P m)
    (hrun : run step s ms = some s') (h : I s) : I s' := by
  induction ms generalizing s with
  | nil => exact Option.some.inj hrun ▸ h
  | cons m ms ih =>
    obtain ⟨s₁, hm, hrest⟩ := run_cons_iff.mp hrun
    obtain ⟨hp, hps⟩ := List.forall_mem_cons.mp hms
    exact ih hps hrest (hstep s m s₁ hp h hm)

/-- What every step keeps of a state and the moves that led to it holds behind every run. -/
theorem run_history (I : List M → S → Prop)
    (hstep : ∀ before s m s', I before s → step s m = some s' → I (before ++ [m]) s')
    (hrun : run step s ms = some s') (h : I [] s) : I ms s' := by
  have hbehind : ∀ (ms before : List M) (s : S), I before s → run step s ms = some s' →
      I (before ++ ms) s' := by
    intro ms
    induction ms with
    | nil =>
      intro before s h hrun
      rw [List.append_nil, ← Option.some.inj hrun]
      exact h
    | cons m ms ih =>
      intro before s h hrun
      obtain ⟨s₁, hm, hrest⟩ := run_cons_iff.mp hrun
      have hends := ih (before ++ [m]) s₁ (hstep before s m s₁ h hm) hrest
      rwa [List.append_assoc, List.singleton_append] at hends
  exact hbehind ms [] s h hrun

/-- Where each move of a system makes of its view what some moves of another system make, every
run of the one is a run of the other. -/
theorem run_simulation {T N : Type} (step' : T → N → Option T) (view : S → T) (moves : M → List N)
    (hstep : ∀ s m s', step s m = some s' → run step' (view s) (moves m) = some (view s'))
    (hrun : run step s ms = some s') :
    run step' (view s) (ms.flatMap moves) = some (view s') := by
  induction ms generalizing s with
  | nil => exact congrArg (some ∘ view) (Option.some.inj hrun)
  | cons m ms ih =>
    obtain ⟨s₁, hm, hrest⟩ := run_cons_iff.mp hrun
    exact run_append.mpr ⟨view s₁, hstep s m s₁ hm, ih hrest⟩

/-- Moves that each take something off a measure are no more than the measure. -/
theorem run_bounded {P : M → Prop} (I : S → Prop) (measure : S → Nat)
    (hstep : ∀ s m s', P m → I s → step s m = some s' → I s' ∧ measure s' < measure s)
    (hms : ∀ m ∈ ms, P m) (hrun : run step s ms = some s') (h : I s) :
    measure s' + ms.length ≤ measure s := by
  induction ms generalizing s with
  | nil =>
    obtain rfl := Option.some.inj hrun
    exact Nat.le_refl _
  | cons m ms ih =>
    obtain ⟨s₁, hm, hrest⟩ := run_cons_iff.mp hrun
    obtain ⟨hp, hps⟩ := List.forall_mem_cons.mp hms
    obtain ⟨h₁, hless⟩ := hstep s m s₁ hp h hm
    have hle := ih hps hrest h₁
    rw [List.length_cons]
    omega

/-- Where there is always a next move until a goal is reached, and every such move takes something
off a measure, the goal is reached by a run of them. -/
theorem exists_run (P : M → Prop) (I goal : S → Prop) (measure : S → Nat)
    (hstep : ∀ s m s', P m → I s → step s m = some s' → I s' ∧ measure s' < measure s)
    (hnext : ∀ s, I s → ¬ goal s → ∃ m s', P m ∧ step s m = some s') (h : I s) :
    ∃ ms s', (∀ m ∈ ms, P m) ∧ run step s ms = some s' ∧ I s' ∧ goal s' := by
  induction hn : measure s using Nat.strongRecOn generalizing s with
  | ind n ih =>
    by_cases hgoal : goal s
    · exact ⟨[], s, fun m hm => absurd hm List.not_mem_nil, rfl, h, hgoal⟩
    · obtain ⟨m, s₁, hp, hm⟩ := hnext s h hgoal
      obtain ⟨h₁, hless⟩ := hstep s m s₁ hp h hm
      obtain ⟨ms, s', hps, hrun, hgoal'⟩ := ih (measure s₁) (hn ▸ hless) h₁ rfl
      exact ⟨m :: ms, s', List.forall_mem_cons.mpr ⟨hp, hps⟩,
        run_cons_iff.mpr ⟨s₁, hm, hrun⟩, hgoal'⟩

end Rustmote.Transitions
