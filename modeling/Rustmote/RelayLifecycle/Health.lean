import Rustmote.RelayLifecycle.Stages

/-!
# Health checks

A round of `health_check` asks one port after the other and gives up at the first that does not
answer. So the last port is asked only when the others have answered, and it answers in the
last round of a check that passes and in no other: `runs_healthCheck`.

The check ends because a probe takes time: `ends_healthCheck`.
-/

namespace Rustmote

open Interaction (Env)
open Interaction.Prog (Always)

namespace Host

open RelayLifecycle

/-- The ports that a health check asks. -/
abbrev relayPorts : List Nat := [hbbsPort, hbbrPort]

/-- What a health check of these ports asks. -/
def polls (ports : List Nat) : Request → Bool
  | .exec cmd => ports.any fun port => cmd = Commands.tcpProbe port
  | .instant => true
  | .sleep _ => true
  | _ => false

theorem polls_tcpProbe {ports : List Nat} {port : Nat} (h : port ∈ ports) :
    polls ports (.exec (Commands.tcpProbe port)) = true :=
  List.any_eq_true.mpr ⟨port, h, decide_eq_true rfl⟩

/-- Another command is not asked by a health check. -/
theorem not_polls {ports : List Nat} {cmd : Str} (h : actions cmd ≠ some [.external]) :
    polls ports (.exec cmd) = false := by
  rw [polls, List.any_eq_false]
  intro port _ heq
  rw [of_decide_eq_true heq, actions_tcpProbe] at h
  exact h rfl

/-- A probe that the port answered. -/
def Answers (port : Nat) (e : Event) : Prop :=
  e.request = .exec (Commands.tcpProbe port) ∧ Clean e

instance (port : Nat) : DecidablePred (Answers port) := fun e =>
  inferInstanceAs (Decidable (e.request = .exec (Commands.tcpProbe port) ∧ Clean e))

/-- The events end with a round in which both ports answered. -/
def EndsUp (a b : Nat) (tr : List Event) : Prop :=
  ∃ pre e₁ e₂, tr = pre ++ [e₁, e₂] ∧ Answers a e₁ ∧ Answers b e₂

variable {a b : Nat}

theorem EndsUp.append {t₂ : List Event} (t₁ : List Event) (h : EndsUp a b t₂) :
    EndsUp a b (t₁ ++ t₂) := by
  obtain ⟨pre, e₁, e₂, rfl, h₁, h₂⟩ := h
  exact ⟨t₁ ++ pre, e₁, e₂, by rw [List.append_assoc], h₁, h₂⟩

theorem EndsUp.answers {tr : List Event} (h : EndsUp a b tr) : ∃ e ∈ tr, Answers b e := by
  obtain ⟨pre, e₁, e₂, rfl, -, h₂⟩ := h
  exact ⟨e₂, by simp, h₂⟩

variable {H : Host} {w w' : H.World} {self : RelayLifecycle} {tr : List Event}

/-- **A round**: both ports answered, or the second one did not. -/
theorem runs_probeRound {r : Except RustmoteError Bool}
    (hne : Commands.tcpProbe a ≠ Commands.tcpProbe b)
    (h : H.env.Runs w (probeRound [a, b]) tr r w') :
    (r = .ok true ∧ EndsUp a b tr) ∨ (r ≠ .ok true ∧ ∀ e ∈ tr, ¬ Answers b e) := by
  have hfirst : ∀ reply, ¬ Answers b ⟨.exec (Commands.tcpProbe a), reply⟩ :=
    fun _ h => hne (Request.exec.inj h.1)
  simp only [probeRound] at h
  rcases Env.runs_bind_iff.mp h with ⟨e, rfl, hprobe⟩ | ⟨out₁, t₁, t₂, w₁, rfl, hprobe, h₁⟩
  · obtain ⟨rfl, -, -⟩ := runs_exec_iff.mp hprobe
    refine .inr ⟨by simp, fun e he => ?_⟩
    obtain rfl := List.mem_singleton.mp he
    exact hfirst _
  obtain ⟨rfl, -, hreply₁⟩ := runs_exec_iff.mp hprobe
  by_cases hup₁ : out₁.exitCode = 0
  · rw [if_neg (not_not.mpr hup₁)] at h₁
    rcases Env.runs_bind_iff.mp h₁ with ⟨e, rfl, hprobe₂⟩ | ⟨out₂, t₃, t₄, w₂, rfl, hprobe₂, h₂⟩
    · obtain ⟨rfl, -, hreply₂⟩ := runs_exec_iff.mp hprobe₂
      refine .inr ⟨by simp, fun e he => ?_⟩
      simp only [List.cons_append, List.nil_append, List.mem_cons, List.not_mem_nil, or_false] at he
      rcases he with rfl | rfl
      · exact hfirst _
      · rintro ⟨-, out, hout, -⟩
        rw [hout] at hreply₂
        cases hreply₂
    obtain ⟨rfl, -, hreply₂⟩ := runs_exec_iff.mp hprobe₂
    by_cases hup₂ : out₂.exitCode = 0
    · rw [if_neg (not_not.mpr hup₂)] at h₂
      obtain ⟨rfl, rfl, -⟩ := Env.runs_ret_iff.mp h₂
      refine .inl ⟨rfl, [], _, _, rfl, ⟨rfl, out₁, ?_, hup₁⟩, rfl, out₂, ?_, hup₂⟩
      · exact eq_ok_of_mapError hreply₁
      · exact eq_ok_of_mapError hreply₂
    · rw [if_pos hup₂] at h₂
      obtain ⟨rfl, rfl, -⟩ := Env.runs_ret_iff.mp h₂
      refine .inr ⟨by simp, fun e he => ?_⟩
      simp only [List.append_nil, List.cons_append, List.nil_append, List.mem_cons,
        List.not_mem_nil, or_false] at he
      rcases he with rfl | rfl
      · exact hfirst _
      · rintro ⟨-, out, hout, hcode⟩
        have heq := (eq_ok_of_mapError hreply₂).symm.trans hout
        cases heq
        exact hup₂ hcode
  · rw [if_pos hup₁] at h₁
    obtain ⟨rfl, rfl, -⟩ := Env.runs_ret_iff.mp h₁
    refine .inr ⟨by simp, fun e he => ?_⟩
    obtain rfl := List.mem_singleton.mp he
    exact hfirst _

theorem always_polls_probeRound {ports ps : List Nat} (h : ∀ port ∈ ps, port ∈ ports) :
    Always (fun _ => True) (fun q => polls ports q = true) (probeRound ps) fun _ => True := by
  induction ps with
  | nil => exact .ret trivial
  | cons port ps ih =>
    unfold probeRound exec
    refine Always.bind (Q := fun _ => True) (Always.request
      (polls_tcpProbe (h port List.mem_cons_self)) fun _ _ =>
      Interaction.Prog.always_ofExcept.mono fun _ _ => trivial) fun out _ => ?_
    by_cases hup : out.exitCode = 0
    · rw [if_neg (not_not.mpr hup)]
      exact ih fun p hp => h p (List.mem_cons_of_mem _ hp)
    · rw [if_pos hup]
      exact .ret trivial

theorem always_polls_healthLoop (ports : List Nat) (deadline rounds : Nat) :
    Always (fun _ => True) (fun q => polls ports q = true)
      (self.healthLoop ports deadline rounds) fun _ => True := by
  induction rounds with
  | zero => exact .cut
  | succ rounds ih =>
    unfold healthLoop
    refine (always_polls_probeRound fun _ hp => hp).bind fun up _ => ?_
    cases up with
    | true => exact .ret trivial
    | false =>
      refine Always.request (q := Request.instant) rfl fun t _ => ?_
      by_cases hover : t ≥ deadline
      · rw [if_pos hover]
        exact .fail
      · rw [if_neg hover]
        exact Always.request (q := Request.sleep self.healthCheckInterval) rfl fun _ _ => ih

/-- A health check asks for nothing else. -/
theorem always_polls (ports : List Nat) :
    Always (fun _ => True) (fun q => polls ports q = true) (self.healthCheck ports)
      fun _ => True := by
  unfold healthCheck
  exact Always.request (q := Request.instant) rfl fun _ _ => always_polls_healthLoop _ _ _

/-- What a health check that came back has seen. -/
def Seen (a b : Nat) (tr : List Event) (r : Except RustmoteError Unit) : Prop :=
  (r = .ok () ∧ EndsUp a b tr) ∨ ((∃ e, r = .error e) ∧ ∀ e ∈ tr, ¬ Answers b e)

/-- **The loop**: it passes in the first round in which the second port answers. -/
theorem runs_healthLoop (hne : Commands.tcpProbe a ≠ Commands.tcpProbe b) {deadline rounds : Nat}
    {r : Except RustmoteError Unit}
    (h : H.env.Runs w (self.healthLoop [a, b] deadline rounds) tr r w') : Seen a b tr r := by
  induction rounds generalizing w tr with
  | zero => exact absurd h Env.not_runs_cut
  | succ rounds ih =>
    unfold healthLoop at h
    rcases Env.runs_bind_iff.mp h with ⟨e, hr, hround⟩ | ⟨up, t₁, t₂, w₁, rfl, hround, h₁⟩
    · rcases runs_probeRound hne hround with ⟨he, -⟩ | ⟨-, hnot⟩
      · cases he
      · exact .inr ⟨⟨e, hr⟩, hnot⟩
    · cases up with
      | true =>
        obtain ⟨rfl, hr, -⟩ := Env.runs_ret_iff.mp h₁
        rcases runs_probeRound hne hround with ⟨-, hup⟩ | ⟨hup, -⟩
        · rw [List.append_nil]
          exact .inl ⟨hr, hup⟩
        · exact absurd rfl hup
      | false =>
        have hnot : ∀ e ∈ t₁, ¬ Answers b e := by
          rcases runs_probeRound hne hround with ⟨hup, -⟩ | ⟨-, hnot⟩
          · cases hup
          · exact hnot
        obtain ⟨t₃, rfl, h₂⟩ := Env.runs_request_iff.mp h₁
        have htime : ∀ x, ¬ Answers b ⟨.instant, x⟩ := by
          rintro x ⟨h, -⟩
          cases h
        have hsleep : ∀ d x, ¬ Answers b ⟨.sleep d, x⟩ := by
          rintro d x ⟨h, -⟩
          cases h
        by_cases hover : (H.env.answer w₁ .instant).1 ≥ deadline
        · rw [if_pos hover] at h₂
          obtain ⟨rfl, hr, -⟩ := Env.runs_fail_iff.mp h₂
          refine .inr ⟨⟨_, hr⟩, fun e he => ?_⟩
          rcases List.mem_append.mp he with he | he
          · exact hnot e he
          · obtain rfl := List.mem_singleton.mp he
            exact htime _
        · rw [if_neg hover] at h₂
          obtain ⟨t₄, rfl, h₃⟩ := Env.runs_request_iff.mp h₂
          rcases ih h₃ with ⟨hr, hup⟩ | ⟨he, hnot'⟩
          · exact .inl ⟨hr, (hup.append [_, _]).append t₁⟩
          · refine .inr ⟨he, fun e he => ?_⟩
            simp only [List.mem_append, List.mem_cons] at he
            rcases he with he | rfl | rfl | he
            · exact hnot e he
            · exact htime _
            · exact hsleep _ _
            · exact hnot' e he

theorem hbbsProbe_ne_hbbrProbe : Commands.tcpProbe hbbsPort ≠ Commands.tcpProbe hbbrPort := by
  decide

/-- **The health check**: it reads the clock, and it passes when the second port answers. -/
theorem runs_healthCheck {r : Except RustmoteError Unit}
    (h : H.env.Runs w (self.healthCheck relayPorts) tr r w') :
    (∃ t rest, tr = ⟨.instant, t⟩ :: rest) ∧ Seen hbbsPort hbbrPort tr r := by
  unfold healthCheck at h
  obtain ⟨rest, rfl, hloop⟩ := Env.runs_request_iff.mp h
  refine ⟨⟨_, rest, rfl⟩, ?_⟩
  rcases runs_healthLoop hbbsProbe_ne_hbbrProbe hloop with ⟨hr, hup⟩ | ⟨he, hnot⟩
  · exact .inl ⟨hr, hup.append [_]⟩
  · refine .inr ⟨he, fun e he => ?_⟩
    rcases List.mem_cons.mp he with rfl | he
    · exact fun h => nomatch h.1
    · exact hnot e he

/-- A check that no answer stands against passes. -/
theorem Seen.eq_ok {r : Except RustmoteError Unit} (h : Seen a b tr r) {e : Event} (he : e ∈ tr)
    (hanswers : Answers b e) : r = .ok () ∧ EndsUp a b tr := by
  rcases h with h | ⟨-, hnot⟩
  · exact h
  · exact absurd hanswers (hnot e he)

/-- A check without an answer fails. -/
theorem Seen.error {r : Except RustmoteError Unit} (h : Seen a b tr r)
    (hnot : ∀ e ∈ tr, ¬ Answers b e) : ∃ e, r = .error e := by
  rcases h with ⟨-, hup⟩ | ⟨he, -⟩
  · obtain ⟨e, he, hanswers⟩ := hup.answers
    exact absurd hanswers (hnot e he)
  · exact he

/-! ### The end of a check -/

/-- A round ends, and it takes time. -/
theorem ends_probeRound (port : Nat) (ports : List Nat) :
    ∃ tr r w', H.env.Runs w (probeRound (port :: ports)) tr r w' ∧ H.clock w < H.clock w' := by
  have hnocut : ∀ ps, Interaction.Prog.NoCut (probeRound ps) := by
    intro ps
    induction ps with
    | nil => exact .ret
    | cons p ps ih =>
      unfold probeRound exec
      refine Interaction.Prog.NoCut.bind (.ask fun _ => Interaction.Prog.noCut_ofExcept) fun out => ?_
      by_cases hup : out.exitCode = 0
      · rw [if_neg (not_not.mpr hup)]
        exact ih
      · rw [if_pos hup]
        exact .ret
  have hends : H.env.Ends w (probeRound (port :: ports)) := Env.ends_of_noCut (hnocut _)
  obtain ⟨tr, r, w', hrun⟩ := hends
  refine ⟨tr, r, w', hrun, ?_⟩
  simp only [probeRound] at hrun
  have hforward : ∀ {α : Type} {prog : Relay α} {t : List Event} {x : Except RustmoteError α}
      {u u' : H.World}, H.env.Runs u prog t x u' → H.clock u ≤ H.clock u' := by
    intro α prog t x u u' h
    have hfinal := H.env.final_rel (R := fun w w' => H.clock w ≤ H.clock w')
      (P := fun _ => True) (fun _ => le_refl _) (fun _ _ _ => le_trans)
      (fun w q _ => H.forward w q) (fun _ _ => trivial : ∀ e ∈ t, True) u
    rwa [h.2.2] at hfinal
  have htakes := H.takes w (Commands.tcpProbe port)
  rcases Env.runs_bind_iff.mp hrun with ⟨e, -, hprobe⟩ | ⟨out, t₁, t₂, w₁, -, hprobe, h₁⟩
  · obtain ⟨-, rfl, -⟩ := runs_exec_iff.mp hprobe
    exact htakes
  · obtain ⟨-, rfl, -⟩ := runs_exec_iff.mp hprobe
    exact htakes.trans_le (hforward h₁)

/-- The loop ends if, with one round less, it ends at every later time that is still before the
deadline. -/
theorem ends_healthLoop_succ (port : Nat) (ports : List Nat) {deadline rounds : Nat}
    (hlater : ∀ w' : H.World, H.clock w < H.clock w' → H.clock w' < deadline →
      ∀ w'', H.clock w' ≤ H.clock w'' →
        H.env.Ends w'' (self.healthLoop (port :: ports) deadline rounds)) :
    H.env.Ends w (self.healthLoop (port :: ports) deadline (rounds + 1)) := by
  obtain ⟨tr, r, w₁, hround, htime⟩ := H.ends_probeRound (w := w) port ports
  unfold healthLoop
  refine Env.Ends.bind ⟨tr, r, w₁, hround⟩ fun up tr' w₂ hround' => ?_
  obtain ⟨-, -, rfl⟩ := hround.unique hround'
  cases up with
  | true => exact ⟨[], _, _, Env.runs_ret_iff.mpr ⟨rfl, rfl, rfl⟩⟩
  | false =>
    refine Env.ends_ask ?_
    have hasked := H.forward w₁ .instant
    show H.env.Ends _ (if (H.env.answer w₁ .instant).1 ≥ deadline then _ else _)
    by_cases hover : (H.env.answer w₁ .instant).1 ≥ deadline
    · rw [if_pos hover]
      exact ⟨[], _, _, Env.runs_fail_iff.mpr ⟨rfl, rfl, rfl⟩⟩
    · rw [if_neg hover]
      rw [H.instant] at hover
      exact Env.ends_ask (hlater _ (htime.trans_le hasked) (not_le.mp hover) _
        (H.forward _ (.sleep self.healthCheckInterval)))

/-- With as many rounds as there are ticks to the deadline, the loop ends: every round takes
one. -/
theorem ends_healthLoop (port : Nat) (ports : List Nat) {deadline n : Nat}
    (h : deadline ≤ H.clock w + n) :
    H.env.Ends w (self.healthLoop (port :: ports) deadline (n + 1)) := by
  induction n generalizing w with
  | zero =>
    refine ends_healthLoop_succ port ports fun w' htime hbefore => ?_
    have hlate : deadline ≤ H.clock w' := h.trans htime.le
    exact absurd hbefore (not_lt.mpr hlate)
  | succ n ih =>
    refine ends_healthLoop_succ port ports fun w' htime _ w'' hslept => ih ?_
    omega

/-- **A health check ends.** -/
theorem ends_healthCheck (port : Nat) (ports : List Nat)
    (hrounds : self.healthCheckTimeout < self.rounds) :
    H.env.Ends w (self.healthCheck (port :: ports)) := by
  obtain ⟨n, hn⟩ : ∃ n, self.rounds = n + 1 := ⟨self.rounds - 1, by omega⟩
  unfold healthCheck
  refine Env.ends_ask ?_
  show H.env.Ends _ (self.healthLoop (port :: ports) ((H.env.answer w .instant).1 + _) _)
  rw [hn]
  refine ends_healthLoop port ports ?_
  rw [H.instant]
  omega

end Host

end Rustmote
