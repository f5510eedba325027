import Rustmote.Error

/-!
# Running a command over a channel

`ExecOutput` and the loop of `Session::exec`: the output and the exit status of a remote
command are collected from the messages of its channel.

The loop leaves at the first end-of-file message, and starts from exit status `0`. RFC 4254
lets a server send the exit status behind the end of file, and a channel can end without one;
the command then counts as a success.

* `execLoop_eq` — what the loop collects from any messages.
* `Conforming` — the messages a server may send; `Conforming.output` and
  `Conforming.statuses_eq` are what they mean for the output and the status.
* `Faithful` — the result says what was sent. The last section says exactly when it does.
-/

namespace Rustmote

/-- `ExecOutput`. -/
structure ExecOutput where
  stdout : Bytes
  stderr : Bytes
  exitCode : Nat
  deriving DecidableEq

namespace ExecOutput

/-- `ExecOutput::stdout_string`. -/
def stdoutString (out : ExecOutput) : Str := Utf8.fromUtf8Lossy out.stdout

/-- `ExecOutput::stderr_string`. -/
def stderrString (out : ExecOutput) : Str := Utf8.fromUtf8Lossy out.stderr

/-- `ExecOutput::ok_for`. -/
def okFor (out : ExecOutput) (command : Str) : Except RustmoteError ExecOutput :=
  if out.exitCode = 0 then .ok out
  else .error (.remoteCommandFailed command out.exitCode out.stderrString)

theorem okFor_eq_ok_iff {out out' : ExecOutput} {command : Str} :
    out.okFor command = .ok out' ↔ out.exitCode = 0 ∧ out' = out := by
  unfold okFor
  split_ifs with h
  · simp [h, eq_comm]
  · simp [h]

end ExecOutput

namespace Session

/-- `ChannelMsg`. -/
inductive ChannelMsg where
  /-- Output. -/
  | data (data : Bytes)
  /-- Output of another stream; `1` is standard error. -/
  | extendedData (data : Bytes) (ext : Nat)
  /-- The command exited. -/
  | exitStatus (exitStatus : Nat)
  /-- The command was killed by a signal. -/
  | exitSignal (name : Str)
  /-- There is no more output. -/
  | eof
  /-- The channel is closed. -/
  | close
  /-- Any other message: the reply to the request, a window adjustment. -/
  | other
  deriving DecidableEq

/-- The loop of `Session::exec`, on the messages that `channel.wait()` returns before it
returns `None`. -/
def execLoop : ExecOutput → List ChannelMsg → ExecOutput
  | out, [] => out
  | out, .data data :: msgs => execLoop { out with stdout := out.stdout ++ data } msgs
  | out, .extendedData data ext :: msgs =>
    if ext = 1 then execLoop { out with stderr := out.stderr ++ data } msgs
    else execLoop out msgs
  | out, .exitStatus exitStatus :: msgs => execLoop { out with exitCode := exitStatus } msgs
  | out, .eof :: _ | out, .close :: _ => out
  | out, .exitSignal _ :: msgs | out, .other :: msgs => execLoop out msgs

/-- `Session::exec`: opening the channel and requesting the command may fail; then the
messages are read. -/
def exec (opened requested : Except TransportError Unit) (msgs : List ChannelMsg) :
    Except RustmoteError ExecOutput := do
  opened.mapError TransportError.toError
  requested.mapError TransportError.toError
  return execLoop ⟨[], [], 0⟩ msgs

/-! ### What a server may send -/

/-- The message carries output. -/
def ChannelMsg.IsOutput : ChannelMsg → Bool
  | .data _ | .extendedData _ _ => true
  | _ => false

/-- The message ends a stream or the channel. -/
def ChannelMsg.IsEnd : ChannelMsg → Bool
  | .eof | .close => true
  | _ => false

/-- The message says how the command ended. -/
def ChannelMsg.IsExit : ChannelMsg → Bool
  | .exitStatus _ | .exitSignal _ => true
  | _ => false

/-- The messages of one command as RFC 4254 allows them: no output behind the end of file,
nothing behind the close, and at most one message on how the command ended. The channel may
end at any point. -/
structure Conforming (msgs : List ChannelMsg) : Prop where
  /-- Up to the end of file, behind it, and at the close. -/
  shape : ∃ before behind closing, msgs = before ++ behind ++ closing ∧
    (∀ m ∈ before, m.IsEnd = false) ∧
    (behind = [] ∨ ∃ rest, behind = .eof :: rest ∧
      ∀ m ∈ rest, m.IsEnd = false ∧ m.IsOutput = false) ∧
    (closing = [] ∨ closing = [.close])
  /-- One status or one signal. -/
  exit_once : msgs.countP ChannelMsg.IsExit ≤ 1

/-- What was sent on standard output. -/
def stdoutOf (msgs : List ChannelMsg) : Bytes :=
  msgs.flatMap fun m => match m with
    | .data data => data
    | _ => []

/-- What was sent on standard error. -/
def stderrOf (msgs : List ChannelMsg) : Bytes :=
  msgs.flatMap fun m => match m with
    | .extendedData data ext => if ext = 1 then data else []
    | _ => []

/-- The exit statuses that were sent. -/
def statusesOf (msgs : List ChannelMsg) : List Nat :=
  msgs.filterMap fun m => match m with
    | .exitStatus e => some e
    | _ => none

/-- The result says what was sent: the status with the output, and no success without one. -/
def Faithful (msgs : List ChannelMsg) (result : Except RustmoteError ExecOutput) : Prop :=
  (∀ e, .exitStatus e ∈ msgs → result = .ok ⟨stdoutOf msgs, stderrOf msgs, e⟩) ∧
    ((∀ e, .exitStatus e ∉ msgs) → ∀ out, result = .ok out → out.exitCode ≠ 0)

/-! ### What the loop reads -/

/-- The messages in front of the first end. -/
def live (msgs : List ChannelMsg) : List ChannelMsg := msgs.takeWhile fun m => !m.IsEnd

/-- **What the loop collects**: the output and the last status in front of the first end. -/
theorem execLoop_eq (out : ExecOutput) (msgs : List ChannelMsg) :
    execLoop out msgs =
      ⟨out.stdout ++ stdoutOf (live msgs), out.stderr ++ stderrOf (live msgs),
        (statusesOf (live msgs)).getLast?.getD out.exitCode⟩ := by
  induction msgs generalizing out with
  | nil => simp [execLoop, live, stdoutOf, stderrOf, statusesOf]
  | cons m msgs ih =>
    cases m with
    | data data =>
      rw [execLoop, ih]
      simp [live, ChannelMsg.IsEnd, stdoutOf, stderrOf, statusesOf]
    | extendedData data ext =>
      by_cases hext : ext = 1
      · rw [execLoop, if_pos hext, ih]
        simp [live, ChannelMsg.IsEnd, stdoutOf, stderrOf, statusesOf, hext]
      · rw [execLoop, if_neg hext, ih]
        simp [live, ChannelMsg.IsEnd, stdoutOf, stderrOf, statusesOf, hext]
    | exitStatus e =>
      rw [execLoop, ih]
      simp [live, ChannelMsg.IsEnd, stdoutOf, stderrOf, statusesOf, List.getLast?_cons]
    | exitSignal name =>
      rw [execLoop, ih]
      simp [live, ChannelMsg.IsEnd, stdoutOf, stderrOf, statusesOf]
    | eof => simp [execLoop, live, ChannelMsg.IsEnd, stdoutOf, stderrOf, statusesOf]
    | close => simp [execLoop, live, ChannelMsg.IsEnd, stdoutOf, stderrOf, statusesOf]
    | other =>
      rw [execLoop, ih]
      simp [live, ChannelMsg.IsEnd, stdoutOf, stderrOf, statusesOf]

/-! ### Conforming messages -/

/-- Messages without an end, and then nothing or an end. -/
theorem live_append {before rest : List ChannelMsg} (hbefore : ∀ m ∈ before, m.IsEnd = false)
    (hrest : ∀ m ∈ rest.head?, m.IsEnd = true) : live (before ++ rest) = before := by
  rw [live, List.takeWhile_append_of_pos fun m hm => by rw [hbefore m hm]; rfl]
  cases rest with
  | nil => simp
  | cons m rest => simp [hrest m (by simp)]

/-- **Nothing is lost behind the end of file but the status**: the messages in front of it
carry all the output. -/
theorem Conforming.output {msgs : List ChannelMsg} (h : Conforming msgs) :
    stdoutOf (live msgs) = stdoutOf msgs ∧ stderrOf (live msgs) = stderrOf msgs := by
  obtain ⟨before, behind, closing, rfl, hbefore, hbehind, hclosing⟩ := h.shape
  have hlive : live (before ++ behind ++ closing) = before := by
    rw [List.append_assoc]
    refine live_append hbefore fun m hm => ?_
    rcases hbehind with rfl | ⟨rest, rfl, -⟩
    · rcases hclosing with rfl | rfl
      · simp at hm
      · simp only [List.nil_append, List.head?_cons, Option.mem_some_iff] at hm
        rw [← hm]
        rfl
    · simp only [List.cons_append, List.head?_cons, Option.mem_some_iff] at hm
      rw [← hm]
      rfl
  have hquiet : ∀ m ∈ behind ++ closing, m.IsOutput = false := by
    intro m hm
    rcases List.mem_append.mp hm with hm | hm
    · rcases hbehind with rfl | ⟨rest, rfl, hrest⟩
      · cases hm
      · rcases List.mem_cons.mp hm with rfl | hm
        · rfl
        · exact (hrest m hm).2
    · rcases hclosing with rfl | rfl
      · cases hm
      · rw [List.mem_singleton] at hm
        rw [hm]
        rfl
  have hout : stdoutOf (behind ++ closing) = [] := by
    rw [stdoutOf, List.flatMap_eq_nil_iff]
    intro m hm
    have hm := hquiet m hm
    cases m <;> first | rfl | cases hm
  have herr : stderrOf (behind ++ closing) = [] := by
    rw [stderrOf, List.flatMap_eq_nil_iff]
    intro m hm
    have hm := hquiet m hm
    cases m <;> first | rfl | cases hm
  rw [hlive, List.append_assoc]
  constructor
  · have happ : stdoutOf (before ++ (behind ++ closing)) = stdoutOf before ++ [] := by
      rw [← hout]
      exact List.flatMap_append
    rw [happ, List.append_nil]
  · have happ : stderrOf (before ++ (behind ++ closing)) = stderrOf before ++ [] := by
      rw [← herr]
      exact List.flatMap_append
    rw [happ, List.append_nil]

theorem mem_statusesOf {msgs : List ChannelMsg} {e : Nat} :
    e ∈ statusesOf msgs ↔ .exitStatus e ∈ msgs := by
  rw [statusesOf, List.mem_filterMap]
  constructor
  · rintro ⟨m, hm, he⟩
    cases m with
    | exitStatus e' =>
      obtain rfl := Option.some.inj he
      exact hm
    | _ => cases he
  · intro h
    exact ⟨_, h, rfl⟩

/-- The status that was sent is the only one. -/
theorem Conforming.statuses_eq {msgs : List ChannelMsg} (h : Conforming msgs) {e : Nat}
    (he : .exitStatus e ∈ msgs) : statusesOf msgs = [e] := by
  have hlen : (statusesOf msgs).length ≤ msgs.countP ChannelMsg.IsExit := by
    rw [statusesOf, List.length_filterMap_eq_countP]
    refine List.countP_mono_left fun m _ hm => ?_
    cases m with
    | exitStatus e' => rfl
    | _ => cases hm
  have hone := hlen.trans h.exit_once
  have hmem := mem_statusesOf.mpr he
  match hst : statusesOf msgs, hmem, hone with
  | [e'], hmem, _ => rw [List.mem_singleton.mp hmem]
  | _ :: _ :: _, _, hone => simp at hone

/-- What is reported is what was sent in front of the first end, or zero. -/
theorem exec_exitCode {msgs : List ChannelMsg} (h : Conforming msgs) :
    exec (.ok ()) (.ok ()) msgs =
      .ok ⟨stdoutOf msgs, stderrOf msgs, (statusesOf (live msgs)).getLast?.getD 0⟩ := by
  have hout := h.output
  show Except.ok (execLoop ⟨[], [], 0⟩ msgs) = _
  rw [execLoop_eq, hout.1, hout.2, List.nil_append, List.nil_append]

/-- **When the exit status is not invented**: exactly when one was sent, in front of the end
of file, or it is zero anyway. -/
theorem exec_faithful_iff {msgs : List ChannelMsg} (h : Conforming msgs) :
    Faithful msgs (exec (.ok ()) (.ok ()) msgs) ↔
      ∃ e, .exitStatus e ∈ msgs ∧ (.exitStatus e ∈ live msgs ∨ e = 0) := by
  rw [exec_exitCode h]
  have hsub : ∀ m, m ∈ live msgs → m ∈ msgs := fun m hm => (List.takeWhile_sublist _).mem hm
  constructor
  · rintro ⟨hsent, hnone⟩
    by_cases hex : ∃ e, .exitStatus e ∈ msgs
    · obtain ⟨e, he⟩ := hex
      refine ⟨e, he, ?_⟩
      have hcode : (statusesOf (live msgs)).getLast?.getD 0 = e :=
        congrArg ExecOutput.exitCode (Except.ok.inj (hsent e he))
      by_cases hlive : .exitStatus e ∈ live msgs
      · exact .inl hlive
      · -- the status came behind the end: the loop has its initial value
        refine .inr ?_
        have hnil : statusesOf (live msgs) = [] := by
          rw [List.eq_nil_iff_forall_not_mem]
          intro e' he'
          have hmem := hsub _ (mem_statusesOf.mp he')
          have heq : [e'] = [e] := (h.statuses_eq hmem).symm.trans (h.statuses_eq he)
          obtain rfl := List.singleton_inj.mp heq
          exact hlive (mem_statusesOf.mp he')
        rw [hnil] at hcode
        exact hcode.symm
    · have hnil : statusesOf (live msgs) = [] := by
        rw [List.eq_nil_iff_forall_not_mem]
        intro e he
        exact hex ⟨e, hsub _ (mem_statusesOf.mp he)⟩
      refine absurd ?_ (hnone (fun e he => hex ⟨e, he⟩) _ rfl)
      rw [hnil]
      rfl
  · rintro ⟨e, he, hwhere⟩
    have hcode : (statusesOf (live msgs)).getLast?.getD 0 = e := by
      cases hlast : (statusesOf (live msgs)).getLast? with
      | none =>
        rcases hwhere with hlive | rfl
        · rw [List.getLast?_eq_none_iff] at hlast
          exact absurd (mem_statusesOf.mpr hlive) (by rw [hlast]; exact List.not_mem_nil)
        · rfl
      | some e' =>
        have hmem := hsub _ (mem_statusesOf.mp (List.mem_of_getLast? hlast))
        have heq : [e'] = [e] := (h.statuses_eq hmem).symm.trans (h.statuses_eq he)
        exact List.singleton_inj.mp heq
    constructor
    · intro e' he'
      have heq : [e'] = [e] := (h.statuses_eq he').symm.trans (h.statuses_eq he)
      rw [hcode, List.singleton_inj.mp heq]
    · intro hno
      exact absurd he (hno e)

/-- The status arrives behind the output and in front of the end of file. -/
theorem exec_faithful_status_first :
    Faithful [.data [104, 105], .exitStatus 3, .eof, .close]
      (exec (.ok ()) (.ok ()) [.data [104, 105], .exitStatus 3, .eof, .close]) :=
  (exec_faithful_iff
    ⟨⟨[.data [104, 105], .exitStatus 3], [.eof], [.close], rfl, by decide,
      .inr ⟨[], rfl, by decide⟩, .inr rfl⟩, by decide⟩).mpr ⟨3, by decide, .inl (by decide)⟩

/-- A failed command whose status comes behind the end of file is reported as a success. -/
theorem exec_status_behind_eof :
    Conforming [.eof, .exitStatus 1, .close] ∧
      ¬ Faithful [.eof, .exitStatus 1, .close]
        (exec (.ok ()) (.ok ()) [.eof, .exitStatus 1, .close]) := by
  refine ⟨⟨⟨[], [.eof, .exitStatus 1], [.close], rfl, by decide,
    .inr ⟨[.exitStatus 1], rfl, by decide⟩, .inr rfl⟩, by decide⟩, fun h => ?_⟩
  have hcode := congrArg ExecOutput.exitCode (Except.ok.inj (h.1 1 (by decide)))
  exact absurd hcode (by decide)

end Session

end Rustmote
