import Mathlib.Algebra.Order.Floor.Div
import Rustmote.RelayLifecycle.Health
import Rustmote.RelayLifecycle.Simulation

/-!
# The rounds of a health check

`health_check` asks round after round until every port has answered, a channel has failed, or the
deadline has passed. This module follows the rounds one by one, in any world: the ports are any
list, and the probes answer as they like.

The end does not come from the probes. Every further round comes after a sleep, and a sleep brings
the clock closer to the deadline, so there are no more rounds than intervals in the timeout, plus
one: `courses_healthLoop`.
-/

namespace Rustmote

open Interaction (Env)
open Host (Clean Answers)

namespace RelayLifecycle

/-! ### A round -/

/-- The port was asked and did not answer. -/
def Refused (port : Nat) (e : Event) : Prop :=
  ∃ out, e = ⟨.exec (Commands.tcpProbe port), .ok out⟩ ∧ out.exitCode ≠ 0

/-- The port was asked and the channel failed. -/
def Breaks (port : Nat) (err : TransportError) (e : Event) : Prop :=
  e = ⟨.exec (Commands.tcpProbe port), .error err⟩

/-- Every port answered. -/
def Up (ports : List Nat) (round : List Event) : Prop := List.Forall₂ Answers ports round

/-- Ports answered, and the next one ended the round: no port behind it was asked. -/
def EndsWith (stops : Nat → Event → Prop) (ports : List Nat) (round : List Event) : Prop :=
  ∃ before port after events e, ports = before ++ port :: after ∧ round = events ++ [e] ∧
    Up before events ∧ stops port e

/-- A port refused. -/
def Down (ports : List Nat) (round : List Event) : Prop := EndsWith Refused ports round

/-- A channel failed. -/
def Broken (ports : List Nat) (err : TransportError) (round : List Event) : Prop :=
  EndsWith (Breaks · err) ports round

variable {port : Nat} {ports : List Nat} {round tr : List Event} {err : TransportError}

theorem Refused.not_clean {e : Event} (h : Refused port e) : ¬ Clean e := by
  obtain ⟨out, rfl, hcode⟩ := h
  rintro ⟨out', hout, hzero⟩
  cases hout
  exact hcode hzero

/-- A transport error is no success. -/
theorem not_clean_error {cmd : Str} : ¬ Clean ⟨.exec cmd, .error err⟩ := by
  rintro ⟨out, hout, -⟩
  cases hout

theorem Breaks.not_clean {e : Event} (h : Breaks port err e) : ¬ Clean e := by
  rw [h]
  exact not_clean_error

theorem Up.clean (h : Up ports round) : ∀ e ∈ round, Clean e := by
  induction h with
  | nil => exact fun e he => nomatch he
  | cons hanswers _ ih =>
    intro e he
    rcases List.mem_cons.mp he with rfl | he
    · exact hanswers.2
    · exact ih e he

/-- A round that a port ended is no round in which all answered. -/
theorem EndsWith.not_up {stops : Nat → Event → Prop} (hstops : ∀ port e, stops port e → ¬ Clean e)
    (h : EndsWith stops ports round) : ¬ Up ports round := by
  obtain ⟨before, port, after, events, e, rfl, rfl, -, hstop⟩ := h
  exact fun hup => hstops port e hstop (hup.clean e (by simp))

theorem Down.not_up (h : Down ports round) : ¬ Up ports round :=
  EndsWith.not_up (fun _ _ h => h.not_clean) h

theorem Broken.not_up (h : Broken ports err round) : ¬ Up ports round :=
  EndsWith.not_up (fun _ _ h => h.not_clean) h

theorem EndsWith.cons {stops : Nat → Event → Prop} {e : Event} (hanswers : Answers port e)
    (h : EndsWith stops ports round) : EndsWith stops (port :: ports) (e :: round) := by
  obtain ⟨before, p, after, events, e', rfl, rfl, hup, hstop⟩ := h
  exact ⟨port :: before, p, after, e :: events, e', rfl, rfl, .cons hanswers hup, hstop⟩

theorem EndsWith.head {stops : Nat → Event → Prop} {e : Event} (h : stops port e) :
    EndsWith stops (port :: ports) [e] :=
  ⟨[], port, ports, [], e, rfl, rfl, .nil, h⟩

/-- The reply is a transport error. -/
def Fails (err : TransportError) (e : Event) : Prop :=
  ∃ cmd, e = ⟨.exec cmd, .error err⟩

theorem Fails.not_clean {e : Event} (h : Fails err e) : ¬ Clean e := by
  obtain ⟨cmd, rfl⟩ := h
  exact not_clean_error

theorem Up.not_fails (h : Up ports round) : ∀ e ∈ round, ¬ Fails err e :=
  fun e he hfails => hfails.not_clean (h.clean e he)

theorem Down.not_fails (h : Down ports round) : ∀ e ∈ round, ¬ Fails err e := by
  obtain ⟨before, port, after, events, e, rfl, rfl, hup, out, rfl, -⟩ := h
  intro e he
  rcases List.mem_append.mp he with he | he
  · exact hup.not_fails e he
  · obtain rfl := List.mem_singleton.mp he
    rintro ⟨cmd, heq⟩
    cases heq

theorem not_fails_instant {t : Nat} : ¬ Fails err ⟨.instant, t⟩ := by
  rintro ⟨cmd, heq⟩
  cases heq

theorem not_fails_sleep {d : Nat} : ¬ Fails err ⟨.sleep d, ()⟩ := by
  rintro ⟨cmd, heq⟩
  cases heq

/-- An event that is not among the first ones is among the others. -/
theorem append_cons_of_not {P : Event → Prop} {first rest before after : List Event} {e : Event}
    (hfirst : ∀ e ∈ first, ¬ P e) (he : P e) (h : first ++ rest = before ++ e :: after) :
    ∃ es, before = first ++ es ∧ rest = es ++ e :: after := by
  induction first generalizing before with
  | nil => exact ⟨before, rfl, h⟩
  | cons e₁ first ih =>
    cases before with
    | nil =>
      obtain ⟨rfl, -⟩ := List.cons.inj h
      exact absurd he (hfirst e₁ List.mem_cons_self)
    | cons e₂ before =>
      obtain ⟨rfl, htail⟩ := List.cons.inj h
      obtain ⟨es, rfl, hrest⟩ := ih (fun e he => hfirst e (List.mem_cons_of_mem _ he)) htail
      exact ⟨es, rfl, hrest⟩

/-! ### A check -/

/-- How a check goes with this deadline: its rounds, its events and its result. -/
inductive Course (ports : List Nat) (interval deadline : Nat) :
    List (List Event) → List Event → Except RustmoteError Unit → Prop where
  /-- Every port answered. -/
  | up {round : List Event} (h : Up ports round) : Course ports interval deadline [round] round (.ok ())
  /-- A channel failed. -/
  | broken {round : List Event} {err : TransportError} (h : Broken ports err round) :
      Course ports interval deadline [round] round (.error err.toError)
  /-- A port refused, and it is late. -/
  | late {round : List Event} {t : Nat} (h : Down ports round) (ht : deadline ≤ t) :
      Course ports interval deadline [round] (round ++ [⟨.instant, t⟩])
        (.error .relayHealthCheckFailed)
  /-- A port refused, and there is time for another round. -/
  | again {round : List Event} {t : Nat} {rounds : List (List Event)} {tr : List Event}
      {r : Except RustmoteError Unit} (h : Down ports round) (ht : t < deadline)
      (hrest : Course ports interval deadline rounds tr r) :
      Course ports interval deadline (round :: rounds)
        (round ++ ⟨.instant, t⟩ :: ⟨.sleep interval, ()⟩ :: tr) r

namespace Course

variable {interval deadline : Nat} {rounds : List (List Event)} {r : Except RustmoteError Unit}

theorem one_le (h : Course ports interval deadline rounds tr r) : 1 ≤ rounds.length := by
  cases h with
  | up | broken | late => exact le_refl _
  | again => simp

/-- The check passes when every port answers in one of its rounds. -/
theorem ok_iff (h : Course ports interval deadline rounds tr r) :
    r = .ok () ↔ ∃ round ∈ rounds, Up ports round := by
  induction h with
  | up h => exact iff_of_true rfl ⟨_, List.mem_singleton_self _, h⟩
  | broken h =>
    refine iff_of_false (fun hr => nomatch hr) ?_
    rintro ⟨round, hround, hup⟩
    obtain rfl := List.mem_singleton.mp hround
    exact h.not_up hup
  | late h =>
    refine iff_of_false (fun hr => nomatch hr) ?_
    rintro ⟨round, hround, hup⟩
    obtain rfl := List.mem_singleton.mp hround
    exact h.not_up hup
  | again h _ _ ih =>
    rw [ih, List.exists_mem_cons_iff]
    exact ⟨.inr, fun h' => h'.resolve_left h.not_up⟩

/-- When it passes, that round is the last, and nothing is asked behind it. -/
theorem ends_up (h : Course ports interval deadline rounds tr (.ok ())) :
    ∃ before round events, rounds = before ++ [round] ∧ tr = events ++ round ∧ Up ports round := by
  generalize hr : (Except.ok () : Except RustmoteError Unit) = r at h
  induction h with
  | up h => exact ⟨[], _, [], rfl, rfl, h⟩
  | broken => cases hr
  | late => cases hr
  | @again round t _ _ _ _ _ _ ih =>
    obtain ⟨before, last, events, rfl, rfl, hup⟩ := ih hr
    exact ⟨round :: before, last, round ++ ⟨.instant, t⟩ :: ⟨.sleep interval, ()⟩ :: events, rfl,
      by simp, hup⟩

/-- When it fails as a check, a port refused in every round, and the last reading of the clock is
past the deadline. -/
theorem failed (h : Course ports interval deadline rounds tr (.error .relayHealthCheckFailed)) :
    (∀ round ∈ rounds, Down ports round) ∧
      ∃ events t, tr = events ++ [⟨.instant, t⟩] ∧ deadline ≤ t := by
  generalize hr : (Except.error .relayHealthCheckFailed : Except RustmoteError Unit) = r at h
  induction h with
  | up => cases hr
  | broken => cases hr
  | @late round t h ht =>
    refine ⟨fun round' hround => ?_, round, t, rfl, ht⟩
    obtain rfl := List.mem_singleton.mp hround
    exact h
  | @again round t _ _ _ h _ _ ih =>
    obtain ⟨hdown, events, last, rfl, hlast⟩ := ih hr
    refine ⟨List.forall_mem_cons.mpr ⟨h, hdown⟩,
      round ++ ⟨.instant, t⟩ :: ⟨.sleep interval, ()⟩ :: events, last, by simp, hlast⟩

/-- A transport error is the last reply, and the result. -/
theorem of_fails (h : Course ports interval deadline rounds tr r) {before after : List Event}
    {e : Event} (htr : tr = before ++ e :: after) (he : Fails err e) :
    after = [] ∧ r = .error err.toError := by
  induction h generalizing before with
  | up h => exact absurd he (h.not_fails e (by simp [htr]))
  | broken h =>
    obtain ⟨_, port, _, events, e', rfl, rfl, hup, rfl⟩ := h
    obtain ⟨es, -, hlast⟩ := append_cons_of_not hup.not_fails he htr
    rcases es with _ | ⟨_, es⟩
    · obtain ⟨heq, rfl⟩ := List.cons.inj hlast
      obtain ⟨cmd, rfl⟩ := he
      cases heq
      exact ⟨rfl, rfl⟩
    · simp at hlast
  | late h _ =>
    obtain ⟨es, -, hlast⟩ := append_cons_of_not h.not_fails he htr
    rcases es with _ | ⟨_, es⟩
    · obtain ⟨rfl, -⟩ := List.cons.inj hlast
      exact absurd he not_fails_instant
    · simp at hlast
  | again h _ _ ih =>
    obtain ⟨es, -, hrest⟩ := append_cons_of_not h.not_fails he htr
    rcases es with _ | ⟨e₁, _ | ⟨e₂, es⟩⟩
    · obtain ⟨rfl, -⟩ := List.cons.inj hrest
      exact absurd he not_fails_instant
    · obtain ⟨-, hrest⟩ := List.cons.inj hrest
      obtain ⟨rfl, -⟩ := List.cons.inj hrest
      exact absurd he not_fails_sleep
    · obtain ⟨-, hrest⟩ := List.cons.inj hrest
      obtain ⟨-, hrest⟩ := List.cons.inj hrest
      exact ih hrest

end Course

/-! ### The clock -/

/-- A clock of the world: it never runs backwards, `Instant::now` reads it, and it is the interval
further after a sleep. -/
structure Clock {W : Type} (env : Env Request.Reply W) (interval : Nat) where
  /-- The time of a state. -/
  time : W → Nat
  forward : ∀ w q, time w ≤ time (env.answer w q).2
  reads : ∀ w, time w ≤ (env.answer w .instant).1 ∧
    (env.answer w .instant).1 ≤ time (env.answer w .instant).2
  slept : ∀ w, time w + interval ≤ time (env.answer w (.sleep interval)).2

section

variable {W : Type} {env : Env Request.Reply W} {relay : RelayLifecycle}

/-- **One round**: every port answered, or a port refused, or a channel failed. -/
theorem runs_round (clock : Clock env relay.healthCheckInterval) (ports : List Nat) (w : W) :
    ∃ round w', clock.time w ≤ clock.time w' ∧
      ((Up ports round ∧ env.Runs w (probeRound ports) round (.ok true) w') ∨
        (Down ports round ∧ env.Runs w (probeRound ports) round (.ok false) w') ∨
        ∃ err, Broken ports err round ∧
          env.Runs w (probeRound ports) round (.error err.toError) w') := by
  induction ports generalizing w with
  | nil => exact ⟨[], w, le_refl _, .inl ⟨.nil, Env.runs_ret_iff.mpr ⟨rfl, rfl, rfl⟩⟩⟩
  | cons port ports ih =>
    have htime := clock.forward w (.exec (Commands.tcpProbe port))
    have hprobe : env.Runs w (exec (Commands.tcpProbe port))
        [⟨.exec (Commands.tcpProbe port), (env.answer w (.exec (Commands.tcpProbe port))).1⟩]
        ((env.answer w (.exec (Commands.tcpProbe port))).1.mapError TransportError.toError)
        (env.answer w (.exec (Commands.tcpProbe port))).2 :=
      Env.runs_ask_iff.mpr ⟨[], rfl, Env.runs_ofExcept_iff.mpr ⟨rfl, rfl, rfl⟩⟩
    cases hreply : (env.answer w (.exec (Commands.tcpProbe port))).1 with
    | error err =>
      rw [hreply] at hprobe
      exact ⟨_, _, htime, .inr (.inr ⟨err, .head rfl,
        Env.runs_bind_iff.mpr (.inl ⟨_, rfl, hprobe⟩)⟩)⟩
    | ok out =>
      rw [hreply] at hprobe
      have hthen : ∀ {tr r w'}, env.Runs (env.answer w (.exec (Commands.tcpProbe port))).2
          (if out.exitCode ≠ 0 then return false else probeRound ports) tr r w' →
          env.Runs w (probeRound (port :: ports))
            (⟨.exec (Commands.tcpProbe port), .ok out⟩ :: tr) r w' :=
        fun h => Env.runs_bind_iff.mpr (.inr ⟨out, _, _, _, rfl, hprobe, h⟩)
      by_cases hup : out.exitCode = 0
      · rw [if_neg (not_not.mpr hup)] at hthen
        have hanswers : Answers port ⟨.exec (Commands.tcpProbe port), .ok out⟩ :=
          ⟨rfl, out, rfl, hup⟩
        obtain ⟨round, w', hlater, hround⟩ := ih (env.answer w (.exec (Commands.tcpProbe port))).2
        refine ⟨⟨.exec (Commands.tcpProbe port), .ok out⟩ :: round, w', htime.trans hlater, ?_⟩
        rcases hround with ⟨h, hrun⟩ | ⟨h, hrun⟩ | ⟨err, h, hrun⟩
        · exact .inl ⟨.cons hanswers h, hthen hrun⟩
        · exact .inr (.inl ⟨h.cons hanswers, hthen hrun⟩)
        · exact .inr (.inr ⟨err, h.cons hanswers, hthen hrun⟩)
      · rw [if_pos hup] at hthen
        exact ⟨_, _, htime, .inr (.inl ⟨.head ⟨out, rfl, hup⟩,
          hthen (Env.runs_ret_iff.mpr ⟨rfl, rfl, rfl⟩)⟩)⟩

/-- **The loop**: with `n` intervals to the deadline it comes back within `n + 1` rounds, however
the probes answer. -/
theorem courses_healthLoop (clock : Clock env relay.healthCheckInterval) (ports : List Nat)
    {w : W} {deadline n fuel : Nat} (hfuel : n < fuel)
    (hn : deadline ≤ clock.time w + n * relay.healthCheckInterval) :
    ∃ rounds tr r w', env.Runs w (relay.healthLoop ports deadline fuel) tr r w' ∧
      Course ports relay.healthCheckInterval deadline rounds tr r ∧ rounds.length ≤ n + 1 := by
  induction fuel generalizing w n with
  | zero => exact absurd hfuel (Nat.not_lt_zero n)
  | succ fuel ih =>
    obtain ⟨round, w₁, hlater, hround⟩ := runs_round clock ports w
    unfold healthLoop
    rcases hround with ⟨h, hrun⟩ | ⟨h, hrun⟩ | ⟨err, h, hrun⟩
    · refine ⟨[round], round, .ok (), w₁, Env.runs_bind_iff.mpr (.inr
        ⟨true, round, [], w₁, (List.append_nil _).symm, hrun, ?_⟩), .up h, Nat.le_add_left 1 n⟩
      exact Env.runs_ret_iff.mpr ⟨rfl, rfl, rfl⟩
    · obtain ⟨hread, hread'⟩ := clock.reads w₁
      by_cases hover : (env.answer w₁ .instant).1 ≥ deadline
      · refine ⟨[round], _, _, (env.answer w₁ .instant).2, Env.runs_bind_iff.mpr (.inr
          ⟨false, round, _, w₁, rfl, hrun, Env.runs_request_iff.mpr ⟨[], rfl, ?_⟩⟩),
          .late h hover, Nat.le_add_left 1 n⟩
        rw [if_pos hover]
        exact Env.runs_fail_iff.mpr ⟨rfl, rfl, rfl⟩
      · -- There is time left, so there are intervals left, and the sleep takes one of them.
        obtain ⟨n, rfl⟩ : ∃ m, n = m + 1 := by
          refine Nat.exists_eq_succ_of_ne_zero fun h0 => hover ?_
          rw [h0, Nat.zero_mul, Nat.add_zero] at hn
          exact (hn.trans hlater).trans hread
        have hasked : clock.time w₁ ≤ clock.time (env.answer w₁ .instant).2 := hread.trans hread'
        have hslept := clock.slept (env.answer w₁ .instant).2
        rw [Nat.add_mul, Nat.one_mul] at hn
        obtain ⟨rounds, tr, r, w', hrest, hcourse, hlength⟩ :=
          ih (n := n) (w := (env.answer (env.answer w₁ .instant).2 (.sleep relay.healthCheckInterval)).2)
            (by omega) (by omega)
        refine ⟨round :: rounds, _, r, w', Env.runs_bind_iff.mpr (.inr
          ⟨false, round, _, w₁, rfl, hrun, Env.runs_request_iff.mpr ⟨_, rfl, ?_⟩⟩),
          .again h (not_le.mp hover) hcourse, Nat.succ_le_succ hlength⟩
        rw [if_neg hover]
        exact Env.runs_request_iff.mpr ⟨tr, rfl, hrest⟩
    · exact ⟨[round], round, _, w₁, Env.runs_bind_iff.mpr (.inl ⟨_, rfl, hrun⟩), .broken h,
        Nat.le_add_left 1 n⟩

/-- **The health check is exact and bounded**: whatever the probes answer, it comes back, after
one round at least and after no more rounds than there are intervals in the timeout, plus one. It
passes if and only if every port answered in one of its rounds, and asks nothing behind that round;
it fails as a check when a port refused in every round and the deadline has passed behind the last;
and a transport error ends it at once. -/
theorem healthCheck_exact (clock : Clock env relay.healthCheckInterval) (ports : List Nat) (w : W)
    (hinterval : 0 < relay.healthCheckInterval)
    (hrounds : relay.healthCheckTimeout ⌈/⌉ relay.healthCheckInterval + 1 ≤ relay.rounds) :
    env.Ends w (relay.healthCheck ports) ∧
      ∀ trace r w', env.Runs w (relay.healthCheck ports) trace r w' →
        ∃ start rounds tr, trace = ⟨.instant, start⟩ :: tr ∧
          Course ports relay.healthCheckInterval (start + relay.healthCheckTimeout) rounds tr r ∧
          1 ≤ rounds.length ∧
          rounds.length ≤ relay.healthCheckTimeout ⌈/⌉ relay.healthCheckInterval + 1 ∧
          (r = .ok () ↔ ∃ round ∈ rounds, Up ports round) ∧
          (r = .ok () → ∃ before round events, rounds = before ++ [round] ∧
            tr = events ++ round ∧ Up ports round) ∧
          (r = .error .relayHealthCheckFailed → (∀ round ∈ rounds, Down ports round) ∧
            ∃ events t, tr = events ++ [⟨.instant, t⟩] ∧
              start + relay.healthCheckTimeout ≤ t) ∧
          ∀ before cmd err after, tr = before ++ ⟨.exec cmd, .error err⟩ :: after →
            after = [] ∧ r = .error err.toError := by
  have hdeadline : (env.answer w .instant).1 + relay.healthCheckTimeout ≤
      clock.time (env.answer w .instant).2 +
        relay.healthCheckTimeout ⌈/⌉ relay.healthCheckInterval * relay.healthCheckInterval := by
    have hcover : relay.healthCheckTimeout ≤
        relay.healthCheckInterval * (relay.healthCheckTimeout ⌈/⌉ relay.healthCheckInterval) :=
      (ceilDiv_le_iff_le_mul hinterval).mp (le_refl _)
    rw [Nat.mul_comm] at hcover
    exact Nat.add_le_add (clock.reads w).2 hcover
  obtain ⟨rounds, tr, r, w', hloop, hcourse, hlength⟩ :=
    courses_healthLoop clock ports (Nat.lt_of_succ_le hrounds) hdeadline
  have hrun : env.Runs w (relay.healthCheck ports)
      (⟨.instant, (env.answer w .instant).1⟩ :: tr) r w' :=
    Env.runs_request_iff.mpr ⟨tr, rfl, hloop⟩
  refine ⟨⟨_, r, w', hrun⟩, fun trace r₁ w₁ hrun₁ => ?_⟩
  obtain ⟨rfl, rfl, -⟩ := hrun.unique hrun₁
  refine ⟨_, rounds, tr, rfl, hcourse, hcourse.one_le, hlength, hcourse.ok_iff, ?_, ?_, ?_⟩
  · rintro rfl
    exact hcourse.ends_up
  · rintro rfl
    exact hcourse.failed
  · exact fun before cmd err after htr => hcourse.of_fails htr ⟨cmd, rfl⟩

end

/-- A host whose ports answer from this time on. -/
def slowHost (opens : Nat) : Env Request.Reply Nat where
  answer now
    | .exec _ => (.ok ⟨[], [], if opens ≤ now then 0 else 1⟩, now)
    | .instant => (now, now)
    | .sleep duration => ((), now + duration)
    | .now => (⟨0, 0⟩, now)
    | .listTags _ => (.ok [], now)
    | .resolveDigest _ _ => (.ok [], now)

/-- Its clock. -/
def slowClock (opens interval : Nat) : Clock (slowHost opens) interval where
  time now := now
  forward now q := by
    cases q with
    | sleep duration => exact Nat.le_add_right now duration
    | _ => exact le_refl now
  reads now := ⟨le_refl now, le_refl now⟩
  slept now := le_refl (now + interval)

/-- The ports of the relay answer in the second round. -/
theorem healthCheck_exact_slow :
    2 ⌈/⌉ 1 + 1 ≤ Sample.relay.rounds ∧
      ∃ (start : Nat) (rounds : List (List Event)) (tr : List Event),
        (slowHost 1).trace 0 (Sample.relay.healthCheck Host.relayPorts) = ⟨.instant, start⟩ :: tr ∧
        rounds.length ≤ 3 ∧ ∃ round ∈ rounds, Up Host.relayPorts round := by
  have hrounds : 2 ⌈/⌉ 1 + 1 ≤ Sample.relay.rounds := by decide
  obtain ⟨-, hall⟩ := @healthCheck_exact _ _ Sample.relay (slowClock 1 1)
    Host.relayPorts 0 Nat.one_pos hrounds
  have hvalue : (slowHost 1).value 0 (Sample.relay.healthCheck Host.relayPorts) = some () := by
    decide +kernel
  obtain ⟨start, rounds, tr, htr, -, -, hlength, hok, -⟩ := hall _ _ _ (Env.runs_value hvalue)
  exact ⟨hrounds, start, rounds, tr, htr, hlength, hok.mp rfl⟩

end RelayLifecycle

end Rustmote
