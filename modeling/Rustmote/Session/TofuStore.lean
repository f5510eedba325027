import Rustmote.Session.KnownHosts

/-!
# Trust on first use, over all calls

What `verify_or_pin` does to the store when it is called again and again, for any hosts and
ports. An endpoint is one key of the map: `host:port` is split at its last colon, so hosts
that contain colons themselves (IPv6) do not mix up two endpoints (`endpoint_injective`).

`answered` is a run: each call with the store it found, its outcome and the store it left.
An entry once made stays (`get_storeAfter_append`), and what a call is answered depends on the calls
for its own endpoint only (`answered_filter`).
-/

namespace Rustmote

namespace KnownHosts

/-- **Two endpoints with one text are one**: a port has no colon. -/
theorem endpoint_injective {host host' : Str} {port port' : Nat}
    (h : endpoint host port = endpoint host' port') : host = host' ∧ port = port' := by
  have hcolon : ∀ n, ':' ∉ Text.decimal n := fun n hmem =>
    absurd (Text.isDigit_of_mem_decimal hmem) (by decide)
  unfold endpoint at h
  rw [List.append_assoc, List.append_assoc] at h
  obtain ⟨hhost, hport⟩ := Text.append_cons_inj_of_not_mem_right (hcolon port) (hcolon port') h
  exact ⟨hhost, Text.decimal_injective hport⟩

/-- A pin is seen at its endpoint only. -/
theorem get_insert_of_ne (kh : KnownHosts) {host host' : Str} {port port' : Nat} (value : HostKey)
    (hne : (host', port') ≠ (host, port)) :
    (kh.insert (endpoint host port) value).get host' port' = kh.get host' port' := by
  refine kh.entries.get_insert_of_ne value fun h => hne ?_
  obtain ⟨rfl, rfl⟩ := endpoint_injective h
  rfl

end KnownHosts

/-- The arguments of one `verify_or_pin`. -/
structure VerifyCall where
  host : Str
  port : Nat
  observed : HostKey
  policy : TofuPolicy
  deriving DecidableEq

/-- The pair the call is for. -/
def VerifyCall.endpoint (call : VerifyCall) : Str × Nat := (call.host, call.port)

/-- A call with the store before it, its outcome, and the store behind it. -/
structure Answered where
  call : VerifyCall
  before : KnownHosts
  outcome : TofuOutcome
  after : KnownHosts

/-- The entry of an endpoint. -/
def KnownHosts.entry (kh : KnownHosts) (endpoint : Str × Nat) : Option HostKey :=
  kh.get endpoint.1 endpoint.2

/-- One call. -/
def answer (kh : KnownHosts) (call : VerifyCall) : Answered :=
  let (outcome, after) := kh.verifyOrPin call.host call.port call.observed call.policy
  ⟨call, kh, outcome, after⟩

/-- One call behind the other. -/
def answered : KnownHosts → List VerifyCall → List Answered
  | _, [] => []
  | kh, call :: calls => answer kh call :: answered (answer kh call).after calls

/-- The store behind all calls. -/
def storeAfter : KnownHosts → List VerifyCall → KnownHosts
  | kh, [] => kh
  | kh, call :: calls => storeAfter (answer kh call).after calls

/-! ### One call -/

/-- **What one call can do**: a pinned endpoint is compared with its entry, and one without an
entry is pinned or refused. -/
theorem answer_cases (kh : KnownHosts) (call : VerifyCall) :
    (∃ e, kh.entry call.endpoint = some e ∧ e.fingerprint = call.observed.fingerprint ∧
      answer kh call = ⟨call, kh, .matched, kh⟩) ∨
    (∃ e, kh.entry call.endpoint = some e ∧ e.fingerprint ≠ call.observed.fingerprint ∧
      answer kh call = ⟨call, kh, .mismatch e call.observed.fingerprint, kh⟩) ∨
    (kh.entry call.endpoint = none ∧ call.policy = .trustOnFirstUse ∧
      answer kh call = ⟨call, kh, .pinned,
        kh.insert (KnownHosts.endpoint call.host call.port) call.observed⟩) ∨
    (kh.entry call.endpoint = none ∧ call.policy = .strict ∧
      answer kh call = ⟨call, kh, .unknownRejected, kh⟩) := by
  unfold answer
  cases hget : kh.get call.host call.port with
  | some e =>
    rw [KnownHosts.verifyOrPin_of_get hget]
    by_cases hfp : e.fingerprint = call.observed.fingerprint
    · exact .inl ⟨e, hget, hfp, by simp only [if_pos hfp]⟩
    · exact .inr (.inl ⟨e, hget, hfp, by simp only [if_neg hfp]⟩)
  | none =>
    cases hpolicy : call.policy with
    | trustOnFirstUse =>
      rw [KnownHosts.verifyOrPin_of_get_none hget]
      exact .inr (.inr (.inl ⟨hget, rfl, rfl⟩))
    | strict =>
      rw [KnownHosts.verifyOrPin_of_get_none_strict hget]
      exact .inr (.inr (.inr ⟨hget, rfl, rfl⟩))

/-- The call and the store before it are what they were. -/
@[simp] theorem answer_call (kh : KnownHosts) (call : VerifyCall) : (answer kh call).call = call := rfl

@[simp] theorem answer_before (kh : KnownHosts) (call : VerifyCall) :
    (answer kh call).before = kh := rfl

/-- An entry stays, whatever its key. -/
theorem get_answer_after {kh : KnownHosts} {key : Str} {e : HostKey}
    (h : kh.entries.get key = some e) (call : VerifyCall) :
    (answer kh call).after.entries.get key = some e := by
  rcases answer_cases kh call with ⟨_, _, _, hcall⟩ | ⟨_, _, _, hcall⟩ | ⟨hnone, _, hcall⟩ |
    ⟨_, _, hcall⟩
  · rw [hcall]; exact h
  · rw [hcall]; exact h
  · -- a pin is put where there is no entry
    have hne : key ≠ KnownHosts.endpoint call.host call.port := by
      rintro rfl
      rw [show kh.entry call.endpoint = some e from h] at hnone
      cases hnone
    rw [hcall]
    exact (kh.entries.get_insert_of_ne call.observed hne).trans h
  · rw [hcall]; exact h

/-- A call for another endpoint changes no entry. -/
theorem entry_answer_after_of_ne (kh : KnownHosts) {endpoint : Str × Nat} {call : VerifyCall}
    (hne : endpoint ≠ call.endpoint) :
    (answer kh call).after.entry endpoint = kh.entry endpoint := by
  rcases answer_cases kh call with ⟨_, _, _, hcall⟩ | ⟨_, _, _, hcall⟩ | ⟨_, _, hcall⟩ |
    ⟨_, _, hcall⟩
  · rw [hcall]
  · rw [hcall]
  · rw [hcall]
    exact KnownHosts.get_insert_of_ne kh call.observed hne
  · rw [hcall]

/-- The outcome is `Pinned` or `Matched`: the key was accepted. -/
def TofuOutcome.Accepts (outcome : TofuOutcome) : Prop := outcome = .pinned ∨ outcome = .matched

/-- A key that is accepted has the fingerprint of the entry behind the call. -/
theorem entry_of_accepts {kh : KnownHosts} {call : VerifyCall}
    (h : (answer kh call).outcome.Accepts) :
    ∃ e, (answer kh call).after.entry call.endpoint = some e ∧
      call.observed.fingerprint = e.fingerprint := by
  rcases answer_cases kh call with ⟨e, hget, hfp, hcall⟩ | ⟨e, _, _, hcall⟩ | ⟨_, _, hcall⟩ |
    ⟨_, _, hcall⟩
  · rw [hcall]
    exact ⟨e, hget, hfp.symm⟩
  · rw [hcall] at h
    rcases h with h | h <;> cases h
  · rw [hcall]
    exact ⟨call.observed, KnownHosts.get_insert kh call.host call.port call.observed, rfl⟩
  · rw [hcall] at h
    rcases h with h | h <;> cases h

/-- What an endpoint is answered depends on its own entry only. -/
theorem answer_congr {kh kh' : KnownHosts} {call : VerifyCall}
    (h : kh.entry call.endpoint = kh'.entry call.endpoint) :
    (answer kh call).outcome = (answer kh' call).outcome ∧
      (answer kh call).after.entry call.endpoint = (answer kh' call).after.entry call.endpoint := by
  unfold answer
  cases hget : kh'.get call.host call.port with
  | some e =>
    have hget' : kh.get call.host call.port = some e := h.trans hget
    rw [KnownHosts.verifyOrPin_of_get hget, KnownHosts.verifyOrPin_of_get hget']
    exact ⟨rfl, h⟩
  | none =>
    have hget' : kh.get call.host call.port = none := h.trans hget
    cases call.policy with
    | trustOnFirstUse =>
      rw [KnownHosts.verifyOrPin_of_get_none hget, KnownHosts.verifyOrPin_of_get_none hget']
      exact ⟨rfl, (KnownHosts.get_insert kh _ _ _).trans (KnownHosts.get_insert kh' _ _ _).symm⟩
    | strict =>
      rw [KnownHosts.verifyOrPin_of_get_none_strict hget,
        KnownHosts.verifyOrPin_of_get_none_strict hget']
      exact ⟨rfl, h⟩

/-! ### All calls -/

/-- **An entry once made stays**: behind more calls it is what it was. -/
theorem get_storeAfter_append (kh : KnownHosts) (calls more : List VerifyCall) {key : Str}
    {e : HostKey} (h : (storeAfter kh calls).entries.get key = some e) :
    (storeAfter kh (calls ++ more)).entries.get key = some e := by
  induction calls generalizing kh with
  | cons call calls ih => exact ih _ h
  | nil =>
    induction more generalizing kh with
    | nil => exact h
    | cons call more ih => exact ih _ (get_answer_after h call)

/-- Each call of a run is answered from the store that the calls before it left. -/
theorem exists_of_mem_answered {kh : KnownHosts} {calls : List VerifyCall} {a : Answered}
    (h : a ∈ answered kh calls) :
    ∃ pre call post, calls = pre ++ call :: post ∧ a = answer (storeAfter kh pre) call := by
  induction calls generalizing kh with
  | nil => exact absurd h List.not_mem_nil
  | cons call calls ih =>
    rcases List.mem_cons.mp h with rfl | h
    · exact ⟨[], call, calls, rfl, rfl⟩
    · obtain ⟨pre, call', post, rfl, ha⟩ := ih h
      exact ⟨call :: pre, call', post, rfl, ha⟩

/-- The store behind a call is the one behind the calls up to it. -/
theorem storeAfter_append_cons (kh : KnownHosts) (pre post : List VerifyCall)
    (call : VerifyCall) :
    storeAfter kh (pre ++ call :: post) =
      storeAfter (answer (storeAfter kh pre) call).after post := by
  induction pre generalizing kh with
  | nil => rfl
  | cons c pre ih => exact ih _

/-- **Keys that are accepted have the fingerprint of the entry** that is there at the end. -/
theorem entry_of_mem_answered {kh : KnownHosts} {calls : List VerifyCall} {a : Answered}
    (h : a ∈ answered kh calls) (haccepts : a.outcome.Accepts) :
    ∃ e, (storeAfter kh calls).entry a.call.endpoint = some e ∧
      a.call.observed.fingerprint = e.fingerprint := by
  obtain ⟨pre, call, post, rfl, rfl⟩ := exists_of_mem_answered h
  obtain ⟨e, hentry, hfp⟩ := entry_of_accepts haccepts
  refine ⟨e, ?_, hfp⟩
  rw [storeAfter_append_cons]
  exact get_storeAfter_append _ [] post hentry

/-- A pinned endpoint is not pinned again. -/
theorem pins_of_entry {kh : KnownHosts} {endpoint : Str × Nat} {e : HostKey}
    (h : kh.entry endpoint = some e) (calls : List VerifyCall) :
    (answered kh calls).filter (fun a => a.call.endpoint = endpoint ∧ a.outcome = .pinned) = [] := by
  induction calls generalizing kh with
  | nil => rfl
  | cons call calls ih =>
    rw [answered, List.filter_cons, ih (get_answer_after h call), if_neg]
    intro hpin
    obtain ⟨rfl, hpinned⟩ := of_decide_eq_true hpin
    rcases answer_cases kh call with ⟨_, _, _, hcall⟩ | ⟨_, _, _, hcall⟩ | ⟨hnone, _, _⟩ |
      ⟨_, _, hcall⟩
    · rw [hcall] at hpinned; cases hpinned
    · rw [hcall] at hpinned; cases hpinned
    · rw [answer_call, hnone] at h
      cases h
    · rw [hcall] at hpinned; cases hpinned

/-- **An endpoint is pinned once.** -/
theorem length_pins_le_one (kh : KnownHosts) (endpoint : Str × Nat) (calls : List VerifyCall) :
    ((answered kh calls).filter fun a =>
      a.call.endpoint = endpoint ∧ a.outcome = .pinned).length ≤ 1 := by
  induction calls generalizing kh with
  | nil => exact Nat.zero_le 1
  | cons call calls ih =>
    rw [answered, List.filter_cons]
    split_ifs with hpin
    · obtain ⟨rfl, hpinned⟩ := of_decide_eq_true hpin
      obtain ⟨e, hentry, -⟩ := entry_of_accepts (.inl hpinned)
      rw [answer_call, pins_of_entry hentry calls]
      exact Nat.le_refl 1
    · exact ih _

/-- **Endpoints do not see each other**: what the calls for one endpoint are answered is what
they are answered when there are no other calls. -/
theorem answered_filter {kh kh' : KnownHosts} {endpoint : Str × Nat}
    (h : kh.entry endpoint = kh'.entry endpoint) (calls : List VerifyCall) :
    ((answered kh calls).filter fun a => a.call.endpoint = endpoint).map (·.outcome) =
      (answered kh' (calls.filter fun c => c.endpoint = endpoint)).map (·.outcome) := by
  induction calls generalizing kh kh' with
  | nil => rfl
  | cons call calls ih =>
    rw [answered]
    by_cases hcall : call.endpoint = endpoint
    · have hdrop : (call :: calls).filter (fun c => c.endpoint = endpoint) =
          call :: calls.filter fun c => c.endpoint = endpoint :=
        List.filter_cons_of_pos (decide_eq_true hcall)
      have hkeep := List.filter_cons_of_pos (p := fun a : Answered => decide (a.call.endpoint = endpoint))
        (a := answer kh call) (l := answered (answer kh call).after calls) (decide_eq_true hcall)
      obtain rfl := hcall
      obtain ⟨houtcome, hafter⟩ := answer_congr h
      rw [hdrop, hkeep, answered, List.map_cons, List.map_cons, houtcome, ih hafter]
    · have hdrop : (call :: calls).filter (fun c => c.endpoint = endpoint) =
          calls.filter fun c => c.endpoint = endpoint :=
        List.filter_cons_of_neg fun h => hcall (of_decide_eq_true h)
      have hskip := List.filter_cons_of_neg (p := fun a : Answered => decide (a.call.endpoint = endpoint))
        (a := answer kh call) (l := answered (answer kh call).after calls)
        fun h => hcall (of_decide_eq_true h)
      rw [hdrop, hskip]
      exact ih ((entry_answer_after_of_ne kh (Ne.symm hcall)).trans h)

/-- **The store is a sound trust-on-first-use store**, for any calls from any store. -/
theorem verifyOrPin_sound (kh : KnownHosts) (calls : List VerifyCall) :
    (∀ pre post key e, calls = pre ++ post → (storeAfter kh pre).entries.get key = some e →
      (storeAfter kh calls).entries.get key = some e) ∧
    (∀ a ∈ answered kh calls, a.outcome = .pinned ∨ a.outcome = .matched →
      ∃ e, (storeAfter kh calls).get a.call.host a.call.port = some e ∧
        a.call.observed.fingerprint = e.fingerprint) ∧
    (∀ host port, ((answered kh calls).filter fun a =>
      (a.call.host, a.call.port) = (host, port) ∧ a.outcome = .pinned).length ≤ 1) ∧
    (∀ a ∈ answered kh calls, a.outcome = .pinned →
      a.call.policy = .trustOnFirstUse ∧ a.before.get a.call.host a.call.port = none) ∧
    (∀ a ∈ answered kh calls, ∀ expected actual,
      a.outcome = .mismatch expected actual ∨ a.outcome = .unknownRejected →
        a.after = a.before) ∧
    (∀ host port,
      ((answered kh calls).filter fun a => (a.call.host, a.call.port) = (host, port)).map (·.outcome) =
        (answered kh (calls.filter fun c => (c.host, c.port) = (host, port))).map (·.outcome)) := by
  refine ⟨?_, fun a => entry_of_mem_answered, fun host port => length_pins_le_one kh (host, port) calls,
    ?_, ?_, fun host port => answered_filter rfl calls⟩
  · rintro pre post key e rfl h
    exact get_storeAfter_append kh pre post h
  · intro a ha hpinned
    obtain ⟨pre, call, post, rfl, rfl⟩ := exists_of_mem_answered ha
    rcases answer_cases (storeAfter kh pre) call with ⟨_, _, _, hcall⟩ | ⟨_, _, _, hcall⟩ |
      ⟨hnone, hpolicy, _⟩ | ⟨_, _, hcall⟩
    · rw [hcall] at hpinned; cases hpinned
    · rw [hcall] at hpinned; cases hpinned
    · exact ⟨hpolicy, hnone⟩
    · rw [hcall] at hpinned; cases hpinned
  · intro a ha expected actual houtcome
    obtain ⟨pre, call, post, rfl, rfl⟩ := exists_of_mem_answered ha
    rcases answer_cases (storeAfter kh pre) call with ⟨_, _, _, hcall⟩ | ⟨_, _, _, hcall⟩ |
      ⟨_, _, hcall⟩ | ⟨_, _, hcall⟩
    · rw [hcall]
    · rw [hcall]
    · rw [hcall] at houtcome
      rcases houtcome with h | h <;> cases h
    · rw [hcall]

end Rustmote
