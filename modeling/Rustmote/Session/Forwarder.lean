import Mathlib.Data.List.Perm.Subperm
import Rustmote.Session.Proxy

/-!
# The port forward

`forwarder_loop` accepts local connections until it is shut down or accepting fails, and spawns a
task for each: `proxy_one` opens a channel to the relay and copies both ways. A task that ends with
an error sends it to the loop, which logs it.

A move is what happens next, in the loop or in one of the connections, in any order. What happens
in one connection is a run of that connection by itself (`runs_own`), so what is known of one
forwarded connection holds of each of them, whatever the others and the loop do:
`forwarder_delivers`. `forwarder_reports` is about the loop: no connection comes behind its end, and
up to there every error is logged once or waits to be.
-/

namespace Rustmote.Session

open Transitions (run run_append run_cons_iff)

/-! ### A connection -/

/-- The channel of a connection. -/
inductive ChannelPhase where
  /-- `channel_open_direct_tcpip` has not returned. -/
  | opening
  /-- It returned a channel. -/
  | opened
  /-- It returned an error. -/
  | refused (e : Str)
  deriving DecidableEq

/-- What `channel_open_direct_tcpip` returned. -/
def ChannelPhase.of : Except Str Unit → ChannelPhase
  | .ok _ => .opened
  | .error e => .refused e

/-- A task of `proxy_one`. -/
structure Connection where
  channel : ChannelPhase
  proxy : Proxy
  /-- The task has ended. -/
  finished : Bool

/-- What happens next in a connection. -/
inductive ConnectionMove where
  /-- `channel_open_direct_tcpip` returns. -/
  | openChannel (r : Except Str Unit)
  /-- A move of one of the two ways. -/
  | copy (way : Way) (m : CopyMove)
  /-- The task ends with what `proxy_one` has returned. -/
  | finish

/-- The sender's own moves. -/
def CopyMove.isSender : CopyMove → Bool
  | .send _ | .close => true
  | _ => false

/-- The move carries the connection on. -/
def ConnectionMove.carries : ConnectionMove → Bool
  | .openChannel (.ok _) => true
  | .copy _ m => m.carries
  | .finish => true
  | _ => false

/-- The move is an error of this connection. -/
def ConnectionMove.isError : ConnectionMove → Bool
  | .openChannel (.error _) => true
  | .copy _ (.fail _) => true
  | _ => false

namespace Connection

/-- A connection when it has been accepted. -/
def start (room : Way → {n : Nat // 0 < n}) : Connection := ⟨.opening, .start room, false⟩

/-- What `proxy_one` has returned, if it has. -/
def result (c : Connection) : Option (Except RustmoteError Unit) :=
  match c.channel with
  | .opening => none
  | .opened => c.proxy.joined
  | .refused e => some (.error (.sshConnection e))

/-- The error that it has returned. -/
def error (c : Connection) : Option RustmoteError :=
  match c.result with
  | some (.error e) => some e
  | _ => none

/-- What a move makes of a connection. Before the channel is open, only the local side sends. -/
def step (c : Connection) : ConnectionMove → Option Connection
  | .openChannel r => if c.channel = .opening then some { c with channel := .of r } else none
  | .copy way m =>
    if c.channel = .opened ∨ (way = .up ∧ m.isSender = true) then
      (c.proxy.step (way, m)).map fun proxy => { c with proxy := proxy }
    else none
  | .finish =>
    if c.finished = false ∧ c.result ≠ none then some { c with finished := true } else none

end Connection

/-! ### The loop -/

/-- `forwarder_loop`, with the tasks it has spawned. -/
structure Forwarder where
  /-- The loop has not been left. -/
  listening : Bool
  /-- The tasks, in the order of the connections. -/
  connections : List Connection
  /-- Errors that were sent to the loop and not received. -/
  errors : List RustmoteError
  /-- Errors that the loop has logged. -/
  warned : List RustmoteError

/-- What happens next. -/
inductive ForwarderMove where
  /-- A local connection is accepted. -/
  | accept (room : Way → {n : Nat // 0 < n})
  /-- `accept` fails. -/
  | acceptFailed
  /-- The session shuts the loop down, or aborts it. -/
  | shutdown
  /-- An error is received and logged. -/
  | warn
  /-- A move in the connection with this number. -/
  | connection (i : Nat) (m : ConnectionMove)

namespace Forwarder

/-- The loop before it begins. -/
def start : Forwarder := ⟨true, [], [], []⟩

/-- The loop is left, and its end of the channel for errors is dropped. -/
def leave (f : Forwarder) : Forwarder := { f with listening := false, errors := [] }

/-- What the task sends to the loop. -/
def sends (c : Connection) : ConnectionMove → List RustmoteError
  | .finish => c.error.toList
  | _ => []

/-- What a move makes of the loop and the tasks. -/
def step (f : Forwarder) : ForwarderMove → Option Forwarder
  | .accept room =>
    if f.listening then some { f with connections := f.connections ++ [.start room] } else none
  | .acceptFailed => if f.listening then some f.leave else none
  | .shutdown => if f.listening then some f.leave else none
  | .warn =>
    match f.listening, f.errors with
    | true, e :: errors => some { f with errors := errors, warned := f.warned ++ [e] }
    | _, _ => none
  | .connection i m =>
    match f.connections[i]? with
    | none => none
    | some c => (c.step m).map fun c' => { f with
        connections := f.connections.set i c'
        -- a loop that has been left receives nothing
        errors := if f.listening then f.errors ++ sends c m else [] }

end Forwarder

/-- The moves of one connection. -/
def ownMoves (i : Nat) (moves : List ForwarderMove) : List ConnectionMove :=
  moves.filterMap fun
    | .connection j m => if j = i then some m else none
    | _ => none

/-- The moves of its two ways. -/
def copyMoves : ConnectionMove → List (Way × CopyMove)
  | .copy way m => [(way, m)]
  | _ => []

/-- What the sender of a way of this connection sends. -/
def sentTo (i : Nat) (way : Way) (moves : List ForwarderMove) : Bytes :=
  Proxy.sentBy way ((ownMoves i moves).flatMap copyMoves)

/-- No error occurs in this connection. -/
def Undisturbed (i : Nat) (moves : List ForwarderMove) : Prop :=
  ∀ m ∈ ownMoves i moves, m.isError = false

/-! ### One connection -/

namespace Connection

variable {c c' : Connection} {way : Way} {m : CopyMove} {own : List ConnectionMove}
  {room : Way → {n : Nat // 0 < n}}

theorem step_copy_eq_some_iff : c.step (.copy way m) = some c' ↔
    (c.channel = .opened ∨ (way = .up ∧ m.isSender = true)) ∧
      ∃ proxy, c.proxy.step (way, m) = some proxy ∧ c' = { c with proxy := proxy } := by
  rw [step]
  by_cases hmay : c.channel = .opened ∨ (way = .up ∧ m.isSender = true)
  · rw [if_pos hmay, Option.map_eq_some_iff]
    constructor
    · rintro ⟨proxy, hproxy, rfl⟩
      exact ⟨hmay, proxy, hproxy, rfl⟩
    · rintro ⟨-, proxy, hproxy, rfl⟩
      exact ⟨proxy, hproxy, rfl⟩
  · rw [if_neg hmay]
    exact ⟨fun h => (nomatch h), fun h => absurd h.1 hmay⟩

theorem step_finish_eq_some_iff : c.step .finish = some c' ↔
    c.finished = false ∧ c.result ≠ none ∧ c' = { c with finished := true } := by
  rw [step]
  by_cases hends : c.finished = false ∧ c.result ≠ none
  · rw [if_pos hends]
    exact ⟨fun h => ⟨hends.1, hends.2, (Option.some.inj h).symm⟩, fun h => by rw [h.2.2]⟩
  · rw [if_neg hends]
    exact ⟨fun h => (nomatch h), fun h => absurd ⟨h.1, h.2.1⟩ hends⟩

theorem step_openChannel_eq_some_iff {r : Except Str Unit} :
    c.step (.openChannel r) = some c' ↔ c.channel = .opening ∧ c' = { c with channel := .of r } := by
  rw [step]
  by_cases hopening : c.channel = .opening
  · rw [if_pos hopening]
    exact ⟨fun h => ⟨hopening, (Option.some.inj h).symm⟩, fun h => by rw [h.2]⟩
  · rw [if_neg hopening]
    exact ⟨fun h => (nomatch h), fun h => absurd h.1 hopening⟩

/-- The two ways of a connection move as a proxy by itself. -/
theorem run_proxy (hrun : run step c own = some c') :
    run Proxy.step c.proxy (own.flatMap copyMoves) = some c'.proxy := by
  refine Transitions.run_simulation step Proxy.step Connection.proxy copyMoves (fun c m c' h => ?_)
    hrun
  cases m with
  | openChannel r =>
    obtain ⟨-, rfl⟩ := step_openChannel_eq_some_iff.mp h
    rfl
  | copy way m =>
    obtain ⟨-, proxy, hproxy, rfl⟩ := step_copy_eq_some_iff.mp h
    exact Transitions.run_single.mpr hproxy
  | finish =>
    obtain ⟨-, -, rfl⟩ := step_finish_eq_some_iff.mp h
    rfl

/-- Without an error the channel is not refused. -/
theorem not_refused (hrun : run step (start room) own = some c) (h : ∀ m ∈ own, m.isError = false)
    (e : Str) : c.channel ≠ .refused e := by
  refine Transitions.run_invariant step (fun c => ∀ e, c.channel ≠ .refused e)
    (fun c m c' hm hc hstep e he => ?_) h hrun (fun e he => nomatch he) e
  cases m with
  | openChannel r =>
    obtain ⟨-, rfl⟩ := step_openChannel_eq_some_iff.mp hstep
    cases r with
    | ok u => cases he
    | error e' => cases hm
  | copy way m =>
    obtain ⟨-, proxy, -, rfl⟩ := step_copy_eq_some_iff.mp hstep
    exact hc e he
  | finish =>
    obtain ⟨-, -, rfl⟩ := step_finish_eq_some_iff.mp hstep
    exact hc e he

theorem noError_copyMoves (h : ∀ m ∈ own, m.isError = false) :
    Proxy.NoError (own.flatMap copyMoves) := by
  intro way e hmem
  obtain ⟨m, hm, hcopy⟩ := List.mem_flatMap.mp hmem
  cases m with
  | copy way' m' =>
    have heq := List.mem_singleton.mp hcopy
    cases heq
    cases h _ hm
  | _ => cases hcopy

/-- With an open channel, a run of the proxy is a run of the connection. -/
theorem run_copy {proxy : Proxy} {more : List (Way × CopyMove)} (hopened : c.channel = .opened)
    (hrun : run Proxy.step c.proxy more = some proxy) :
    run step c (more.map fun m => .copy m.1 m.2) = some { c with proxy := proxy } := by
  induction more generalizing c with
  | nil =>
    obtain rfl := Option.some.inj hrun
    rfl
  | cons m more ih =>
    obtain ⟨proxy₁, hm, hrest⟩ := run_cons_iff.mp hrun
    exact run_cons_iff.mpr ⟨{ c with proxy := proxy₁ },
      step_copy_eq_some_iff.mpr ⟨.inl hopened, proxy₁, hm, rfl⟩, ih hopened hrest⟩

/-- What the proxy of a connection has received, when a way of it is settled. -/
theorem received_of_settled (hrun : run step (start room) own = some c)
    (h : (c.proxy way).Settled) : (c.proxy way).received = Proxy.sentBy way (own.flatMap copyMoves) :=
  h.received.trans (Proxy.sent_run (run_proxy hrun))

/-- **A way of a connection is brought to rest** by moves of this connection. -/
theorem exists_received (hrun : run step (start room) own = some c)
    (h : ∀ m ∈ own, m.isError = false) (way : Way) :
    ∃ more c', (∀ m ∈ more, m.carries = true) ∧ run step c more = some c' ∧
      (c'.proxy way).received = Proxy.sentBy way (own.flatMap copyMoves) := by
  have hproxy := run_proxy hrun
  obtain ⟨more, proxy, hmore, hrest, hsettled⟩ := Proxy.exists_settled (Proxy.inv_run hproxy)
    (Proxy.unfailed_run hproxy (noError_copyMoves h)) way
  have hreceived : (proxy way).received = Proxy.sentBy way (own.flatMap copyMoves) := by
    have hnothing : Proxy.sentBy way more = [] := by
      refine List.flatMap_eq_nil_iff.mpr fun m hm => ?_
      obtain ⟨other, m'⟩ := m
      cases m' with
      | send bytes => cases (hmore _ hm).2
      | _ => rfl
    rw [hsettled.received, Proxy.sent_run hrest, hnothing, List.append_nil,
      Proxy.sent_run hproxy]
    rfl
  have hcarries : ∀ m ∈ more.map fun m => ConnectionMove.copy m.1 m.2, m.carries = true := by
    intro m hm
    obtain ⟨m', hm', rfl⟩ := List.mem_map.mp hm
    exact (hmore m' hm').2
  cases hchannel : c.channel with
  | opened => exact ⟨_, _, hcarries, run_copy hchannel hrest, hreceived⟩
  | opening =>
    have hopen : c.step (.openChannel (.ok ())) = some { c with channel := .opened } :=
      step_openChannel_eq_some_iff.mpr ⟨hchannel, rfl⟩
    exact ⟨_, _, List.forall_mem_cons.mpr ⟨rfl, hcarries⟩,
      run_cons_iff.mpr ⟨_, hopen, run_copy rfl hrest⟩, hreceived⟩
  | refused e => exact absurd hchannel (not_refused hrun h e)

/-- **A connection in which nothing can be carried on** is through. -/
theorem quiet_spec (hrun : run step (start room) own = some c) (h : ∀ m ∈ own, m.isError = false)
    (hquiet : ∀ m : ConnectionMove, m.carries = true → c.step m = none) :
    (∀ way, (c.proxy way).received = Proxy.sentBy way (own.flatMap copyMoves)) ∧
      ((∀ way, (c.proxy way).closed = true) → c.result = some (.ok ()) ∧ c.finished = true) := by
  have hproxy := run_proxy hrun
  have hopened : c.channel = .opened := by
    cases hchannel : c.channel with
    | opened => rfl
    | opening =>
      have hopen : c.step (.openChannel (.ok ())) = some { c with channel := .opened } :=
        step_openChannel_eq_some_iff.mpr ⟨hchannel, rfl⟩
      rw [hquiet _ rfl] at hopen
      cases hopen
    | refused e => exact absurd hchannel (not_refused hrun h e)
  have hrest : c.proxy.Quiet := by
    intro way m hm
    by_contra hstep
    obtain ⟨proxy, hproxy⟩ := Option.ne_none_iff_exists'.mp hstep
    have hcopy : c.step (.copy way m) = some { c with proxy := proxy } :=
      step_copy_eq_some_iff.mpr ⟨.inl hopened, proxy, hproxy, rfl⟩
    rw [hquiet (.copy way m) hm] at hcopy
    cases hcopy
  have hsettled : ∀ way, (c.proxy way).Settled := fun way =>
    Proxy.settled_of_quiet (Proxy.inv_run hproxy)
      (Proxy.unfailed_run hproxy (noError_copyMoves h)) hrest
  refine ⟨fun way => received_of_settled hrun (hsettled way), fun hclosed => ?_⟩
  have hresult : c.result = some (.ok ()) := by
    rw [result, hopened]
    exact Proxy.joined_eq_ok fun way => (hsettled way).returned (hclosed way)
  refine ⟨hresult, ?_⟩
  by_contra hfinished
  have hfinish : c.step .finish = some { c with finished := true } :=
    step_finish_eq_some_iff.mpr ⟨Bool.eq_false_iff.mpr hfinished, by rw [hresult]; simp, rfl⟩
  rw [hquiet .finish rfl] at hfinish
  cases hfinish

end Connection

/-! ### The connections of a loop -/

namespace Forwarder

variable {f f' : Forwarder} {m : ForwarderMove} {moves : List ForwarderMove} {i : Nat}

/-- The moves, with what they need and what they leave. -/
inductive Stepped (f : Forwarder) : ForwarderMove → Forwarder → Prop where
  | accept {room : Way → {n : Nat // 0 < n}} (hlistening : f.listening = true) :
    Stepped f (.accept room) { f with connections := f.connections ++ [.start room] }
  | acceptFailed (hlistening : f.listening = true) : Stepped f .acceptFailed f.leave
  | shutdown (hlistening : f.listening = true) : Stepped f .shutdown f.leave
  | warn {e : RustmoteError} {errors : List RustmoteError} (hlistening : f.listening = true)
    (herrors : f.errors = e :: errors) :
    Stepped f .warn { f with errors := errors, warned := f.warned ++ [e] }
  | connection {i : Nat} {m : ConnectionMove} {c c' : Connection} (hget : f.connections[i]? = some c)
    (hstep : c.step m = some c') : Stepped f (.connection i m) { f with
      connections := f.connections.set i c'
      errors := if f.listening then f.errors ++ sends c m else [] }

theorem stepped_of_step (h : f.step m = some f') : Stepped f m f' := by
  cases m with
  | accept room =>
    simp only [step] at h
    split_ifs at h with hlistening
    exact Option.some.inj h ▸ .accept hlistening
  | acceptFailed =>
    simp only [step] at h
    split_ifs at h with hlistening
    exact Option.some.inj h ▸ .acceptFailed hlistening
  | shutdown =>
    simp only [step] at h
    split_ifs at h with hlistening
    exact Option.some.inj h ▸ .shutdown hlistening
  | warn =>
    simp only [step] at h
    split at h
    · next hlistening herrors => exact Option.some.inj h ▸ .warn hlistening herrors
    · cases h
  | connection i m =>
    simp only [step] at h
    split at h
    · cases h
    · next c hget =>
      obtain ⟨c', hstep, rfl⟩ := Option.map_eq_some_iff.mp h
      exact .connection hget hstep

/-- A move of a connection is a move of the system, wherever the loop is. -/
theorem step_connection {c c' : Connection} {m : ConnectionMove} (hget : f.connections[i]? = some c)
    (hstep : c.step m = some c') :
    ∃ f', f.step (.connection i m) = some f' ∧ f'.connections = f.connections.set i c' := by
  simp only [step, hget, hstep]
  exact ⟨_, rfl, rfl⟩

theorem ownMoves_append (moves moves' : List ForwarderMove) :
    ownMoves i (moves ++ moves') = ownMoves i moves ++ ownMoves i moves' :=
  List.filterMap_append

/-- **A connection by itself**: its own moves are a run from where it was accepted, and a
connection that does not exist has none. -/
theorem runs_own (hrun : run step start moves = some f) (i : Nat) :
    (∀ c, f.connections[i]? = some c →
      ∃ room, run Connection.step (.start room) (ownMoves i moves) = some c) ∧
    (f.connections[i]? = none → ownMoves i moves = []) := by
  refine Transitions.run_history step (fun moves f => (∀ c, f.connections[i]? = some c →
      ∃ room, run Connection.step (.start room) (ownMoves i moves) = some c) ∧
    (f.connections[i]? = none → ownMoves i moves = [])) (fun before f m f' h hstep => ?_) hrun
    ⟨fun c hc => (nomatch hc), fun _ => rfl⟩
  rw [ownMoves_append]
  -- A move that is not this connection's leaves it and its moves as they are.
  have hother : ownMoves i [m] = [] → f'.connections[i]? = f.connections[i]? →
      (∀ c, f'.connections[i]? = some c → ∃ room,
        run Connection.step (.start room) (ownMoves i before ++ ownMoves i [m]) = some c) ∧
      (f'.connections[i]? = none → ownMoves i before ++ ownMoves i [m] = []) := by
    intro hnone hsame
    rw [hnone, List.append_nil, hsame]
    exact h
  cases stepped_of_step hstep with
  | @accept room =>
    by_cases hlt : i < f.connections.length
    · exact hother rfl (List.getElem?_append_left hlt)
    · have hnone : f.connections[i]? = none := List.getElem?_eq_none (Nat.le_of_not_lt hlt)
      refine ⟨fun c hc => ?_, fun _ => by rw [h.2 hnone]; rfl⟩
      rw [List.getElem?_append_right (Nat.le_of_not_lt hlt)] at hc
      obtain rfl : c = .start room := by
        have hmem := List.mem_of_getElem? hc
        exact List.mem_singleton.mp hmem
      exact ⟨room, by rw [h.2 hnone]; rfl⟩
  | acceptFailed => exact hother rfl rfl
  | shutdown => exact hother rfl rfl
  | warn => exact hother rfl rfl
  | @connection j m c c' hget hc =>
    by_cases hji : j = i
    · subst hji
      have hown : ownMoves j [.connection j m] = [m] := by simp [ownMoves]
      have hlt : j < f.connections.length := by
        by_contra hge
        rw [List.getElem?_eq_none (Nat.le_of_not_lt hge)] at hget
        cases hget
      rw [hown, List.getElem?_set_self hlt]
      refine ⟨fun c₁ hc₁ => ?_, fun h => nomatch h⟩
      obtain ⟨room, hrun⟩ := h.1 c hget
      obtain rfl := Option.some.inj hc₁
      exact ⟨room, run_append.mpr ⟨c, hrun, Transitions.run_single.mpr hc⟩⟩
    · exact hother (by simp [ownMoves, hji]) (List.getElem?_set_ne hji)

/-- A run of a connection is a run of the system. -/
theorem run_connection {c c' : Connection} {more : List ConnectionMove}
    (hget : f.connections[i]? = some c) (hrun : run Connection.step c more = some c') :
    ∃ f', run step f (more.map (.connection i)) = some f' ∧ f'.connections[i]? = some c' := by
  induction more generalizing f c with
  | nil =>
    obtain rfl := Option.some.inj hrun
    exact ⟨f, rfl, hget⟩
  | cons m more ih =>
    obtain ⟨c₁, hm, hrest⟩ := run_cons_iff.mp hrun
    obtain ⟨f₁, hstep, hconnections⟩ := step_connection hget hm
    have hget₁ : f₁.connections[i]? = some c₁ := by
      rw [hconnections, List.getElem?_set_self (List.getElem?_eq_some_iff.mp hget).1]
    obtain ⟨f', hrun', hget'⟩ := ih hget₁ hrest
    exact ⟨f', run_cons_iff.mpr ⟨f₁, hstep, hrun'⟩, hget'⟩

/-- **Every connection is served, whatever the others do**: at every moment of every run, each side
of each connection has received a prefix of what the other side sent. A connection without an error
of its own in which nothing can be carried on has delivered everything, and when both its streams
have ended its task has returned `Ok`. And wherever the loop and the other connections are, failed
and closed ones included, what is missing in a way of it arrives by moves of this connection. -/
theorem forwarder_delivers (hrun : run step start moves = some f) {c : Connection}
    (hget : f.connections[i]? = some c) :
    (∀ way, (c.proxy way).received <+: sentTo i way moves) ∧
    (Undisturbed i moves →
      (∀ m : ConnectionMove, m.carries = true → f.step (.connection i m) = none) →
      (∀ way, (c.proxy way).received = sentTo i way moves) ∧
        ((∀ way, (c.proxy way).closed = true) → c.result = some (.ok ()) ∧ c.finished = true)) ∧
    (Undisturbed i moves → ∀ way, ∃ (more : List ConnectionMove) (f' : Forwarder)
      (c' : Connection), (∀ m ∈ more, m.carries = true) ∧
      run step f (more.map (.connection i)) = some f' ∧ f'.connections[i]? = some c' ∧
      (c'.proxy way).received = sentTo i way moves) := by
  obtain ⟨room, hown⟩ := (runs_own hrun i).1 c hget
  have hproxy := Connection.run_proxy hown
  refine ⟨fun way => ?_, fun hundisturbed hquiet => ?_, fun hundisturbed way => ?_⟩
  · have hsent : (c.proxy way).sent = _ := Proxy.sent_run hproxy
    have hbegins := (Proxy.inv_run hproxy way).begins
    rw [hsent] at hbegins
    exact (List.prefix_append _ _).trans hbegins
  · refine Connection.quiet_spec hown hundisturbed fun m hm => ?_
    by_contra hstep
    obtain ⟨c', hc'⟩ := Option.ne_none_iff_exists'.mp hstep
    obtain ⟨f', hf', -⟩ := step_connection hget hc'
    rw [hquiet m hm] at hf'
    cases hf'
  · obtain ⟨more, c', hmore, hrest, hreceived⟩ := Connection.exists_received hown hundisturbed way
    obtain ⟨f', hf', hget'⟩ := run_connection hget hrest
    exact ⟨more, f', c', hmore, hf', hget', hreceived⟩

/-- The relay refuses the first connection; the loop is shut down while the second one has bytes to
deliver. -/
def refusedFirst : List ForwarderMove :=
  [.accept fun _ => ⟨1, Nat.one_pos⟩, .connection 0 (.openChannel (.error "refused".toList)),
    .connection 0 .finish, .accept fun _ => ⟨1, Nat.one_pos⟩,
    .connection 1 (.copy .up (.send [1, 2])), .connection 1 (.openChannel (.ok ())), .shutdown,
    .connection 1 (.copy .up (.read 2))]

/-- The bytes of the second one arrive. -/
theorem forwarder_delivers_refusedFirst :
    ∃ f, run step start refusedFirst = some f ∧ f.listening = false ∧
      ∃ (more : List ConnectionMove) (f' : Forwarder) (c' : Connection),
        run step f (more.map (.connection 1)) = some f' ∧ f'.connections[1]? = some c' ∧
        (c'.proxy .up).received = [1, 2] := by
  have hends : (run step start refusedFirst).map
      (fun f => (f.listening, f.connections[1]?.isSome)) = some (false, true) := by decide +kernel
  obtain ⟨f, hf, hfacts⟩ := Option.map_eq_some_iff.mp hends
  obtain ⟨hleft, hsome⟩ := Prod.mk.inj hfacts
  obtain ⟨c, hc⟩ := Option.isSome_iff_exists.mp hsome
  have hundisturbed : Undisturbed 1 refusedFirst := by
    unfold Undisturbed
    decide
  obtain ⟨more, f', c', -, hmore, hget, hreceived⟩ :=
    (forwarder_delivers hf hc).2.2 hundisturbed .up
  exact ⟨f, hf, hleft, more, f', c', hmore, hget, hreceived⟩

/-! ### The errors of the connections -/

end Forwarder

/-- What is gathered from a list grows by what one of its members gets. -/
theorem flatMap_set_perm {α β : Type} {g : α → List β} {l : List α} {i : Nat} {a a' : α} {x : List β}
    (hget : l[i]? = some a) (hg : g a' = g a ++ x) :
    ((l.set i a').flatMap g).Perm (l.flatMap g ++ x) := by
  induction l generalizing i with
  | nil => cases hget
  | cons b l ih =>
    cases i with
    | zero =>
      obtain rfl := Option.some.inj hget
      rw [List.set_cons_zero, List.flatMap_cons, List.flatMap_cons, hg, List.append_assoc,
        List.append_assoc]
      exact List.perm_append_comm.append_left _
    | succ i =>
      rw [List.set_cons_succ, List.flatMap_cons, List.flatMap_cons, List.append_assoc]
      exact (ih hget).append_left _

/-- A move that is not a loop's own leaves the result of the proxy as it is. -/
theorem Proxy.joined_step {s s' : Proxy} {way : Way} {m : CopyMove}
    (h : s.step (way, m) = some s') (hloop : m.isLoop = false) : s'.joined = s.joined := by
  obtain ⟨-, c, hc, rfl⟩ := Proxy.step_eq_some_iff.mp h
  have hphase : c.phase = (s way).phase := by
    cases CopyLoop.stepped_of_step hc with
    | send | close | deliver | deliverEnd => rfl
    | _ => cases hloop
  have hall : ∀ other, (Function.update s way c other).phase = (s other).phase := by
    intro other
    by_cases heq : other = way
    · rw [heq, Function.update_self, hphase]
    · rw [Function.update_of_ne heq]
  rw [Proxy.joined, Proxy.joined, hall, hall]

namespace Connection

variable {c c' : Connection} {m : ConnectionMove}

/-- The error of a task that has ended with one. -/
def reported (c : Connection) : List RustmoteError := if c.finished then c.error.toList else []

/-- A task ends when `proxy_one` has returned. -/
def Proper (c : Connection) : Prop := c.finished = true → c.result ≠ none

/-- **What `proxy_one` has returned stays**. -/
theorem result_step (h : c.step m = some c') (hresult : c.result ≠ none) : c'.result = c.result := by
  cases m with
  | openChannel r =>
    obtain ⟨hopening, -⟩ := step_openChannel_eq_some_iff.mp h
    rw [result, hopening] at hresult
    exact absurd rfl hresult
  | copy way m =>
    obtain ⟨-, proxy, hproxy, rfl⟩ := step_copy_eq_some_iff.mp h
    cases hchannel : c.channel with
    | opening =>
      rw [result, hchannel] at hresult
      exact absurd rfl hresult
    | opened =>
      have hjoined : c.proxy.joined ≠ none := by
        rwa [result, hchannel] at hresult
      have hloop : m.isLoop = false :=
        Bool.eq_false_iff.mpr fun hm => hjoined ((Proxy.step_eq_some_iff.mp hproxy).1 hm)
      rw [result, result, hchannel]
      exact Proxy.joined_step hproxy hloop
    | refused e =>
      rw [result, result, hchannel]
  | finish =>
    obtain ⟨-, -, rfl⟩ := step_finish_eq_some_iff.mp h
    rfl

theorem finished_step (h : c.step m = some c') (hm : m ≠ .finish) : c'.finished = c.finished := by
  cases m with
  | openChannel r =>
    obtain ⟨-, rfl⟩ := step_openChannel_eq_some_iff.mp h
    rfl
  | copy way m =>
    obtain ⟨-, proxy, -, rfl⟩ := step_copy_eq_some_iff.mp h
    rfl
  | finish => exact absurd rfl hm

theorem proper_step (h : c.step m = some c') (hproper : c.Proper) : c'.Proper := by
  intro hfinished
  by_cases hm : m = .finish
  · subst hm
    obtain ⟨-, hresult, rfl⟩ := step_finish_eq_some_iff.mp h
    exact hresult
  · rw [finished_step h hm] at hfinished
    rw [result_step h (hproper hfinished)]
    exact hproper hfinished

/-- **An error is sent when it is reported**, once. -/
theorem reported_step (h : c.step m = some c') (hproper : c.Proper) :
    c'.reported = c.reported ++ Forwarder.sends c m := by
  by_cases hm : m = .finish
  · subst hm
    obtain ⟨hfinished, -, rfl⟩ := step_finish_eq_some_iff.mp h
    rw [reported, reported, hfinished]
    rfl
  · have hsends : Forwarder.sends c m = [] := by
      cases m with
      | finish => exact absurd rfl hm
      | _ => rfl
    rw [hsends, List.append_nil, reported, reported, finished_step h hm]
    cases hfinished : c.finished with
    | false => rfl
    | true => rw [error, error, result_step h (hproper hfinished)]

end Connection

namespace Forwarder

variable {f f' : Forwarder} {m : ForwarderMove} {moves : List ForwarderMove}

/-- The errors with which tasks have ended. -/
def reported (f : Forwarder) : List RustmoteError := f.connections.flatMap Connection.reported

/-- The connections that were accepted. -/
def accepted (moves : List ForwarderMove) : Nat :=
  moves.countP fun
    | .accept _ => true
    | _ => false

/-- What holds of the loop and what happened up to here. -/
structure Accounted (moves : List ForwarderMove) (f : Forwarder) : Prop where
  proper : ∀ c ∈ f.connections, c.Proper
  /-- A task for each connection. -/
  length : f.connections.length = accepted moves
  /-- In the loop, every error is logged or waits. -/
  listening : f.listening = true → (f.warned ++ f.errors).Perm f.reported
  /-- Behind it none waits. -/
  left : f.listening = false → f.errors = []
  /-- What is logged has been reported, once. -/
  warned : f.warned.Subperm f.reported

theorem accounted_step (h : Accounted moves f) (hstep : f.step m = some f') :
    Accounted (moves ++ [m]) f' := by
  have hcount : accepted (moves ++ [m]) = accepted moves + accepted [m] := List.countP_append
  cases stepped_of_step hstep with
  | @accept room hlistening =>
    have hnone : (f.connections ++ [Connection.start room]).flatMap Connection.reported =
        f.connections.flatMap Connection.reported := by
      rw [List.flatMap_append]
      exact List.append_nil _
    refine ⟨fun c hc => ?_, ?_, fun hl => ?_, fun hl => ?_, ?_⟩
    · rcases List.mem_append.mp hc with hc | hc
      · exact h.proper c hc
      · obtain rfl := List.mem_singleton.mp hc
        exact fun hfinished => nomatch hfinished
    · rw [hcount, ← h.length, List.length_append]
      rfl
    · rw [reported, hnone]
      exact h.listening hlistening
    · rw [hlistening] at hl
      cases hl
    · rw [reported, hnone]
      exact h.warned
  | acceptFailed hlistening =>
    exact ⟨h.proper, hcount ▸ h.length, fun hl => (nomatch hl), fun _ => rfl, h.warned⟩
  | shutdown hlistening =>
    exact ⟨h.proper, hcount ▸ h.length, fun hl => (nomatch hl), fun _ => rfl, h.warned⟩
  | @warn e errors hlistening herrors =>
    have hall : ((f.warned ++ [e]) ++ errors).Perm f.reported := by
      have hperm := h.listening hlistening
      rw [herrors] at hperm
      rwa [List.append_assoc, List.singleton_append]
    refine ⟨h.proper, hcount ▸ h.length, fun _ => hall, fun hl => ?_, ?_⟩
    · rw [hlistening] at hl
      cases hl
    · exact ((List.prefix_append _ errors).sublist.subperm).trans hall.subperm
  | @connection i m c c' hget hc =>
    have hproper := h.proper c (List.mem_of_getElem? hget)
    have hreported : (reported { f with
        connections := f.connections.set i c'
        errors := if f.listening then f.errors ++ sends c m else [] }).Perm
          (f.reported ++ sends c m) :=
      flatMap_set_perm hget (Connection.reported_step hc hproper)
    refine ⟨fun d hd => ?_, ?_, fun hl => ?_, fun hl => if_neg (by rw [hl]; simp), ?_⟩
    · rcases List.mem_or_eq_of_mem_set hd with hd | rfl
      · exact h.proper d hd
      · exact Connection.proper_step hc hproper
    · rw [hcount, ← h.length, List.length_set]
      rfl
    · refine List.Perm.trans ?_ hreported.symm
      show (f.warned ++ if f.listening then f.errors ++ sends c m else []).Perm _
      rw [if_pos hl, ← List.append_assoc]
      exact (h.listening hl).append_right _
    · exact h.warned.trans ((List.prefix_append _ _).sublist.subperm.trans hreported.symm.subperm)

/-- **The loop keeps count**: there is a task for every connection that was accepted. As long as the
loop has not been left, every error with which a task has ended has been logged or waits to be, each
once; what has been logged are such errors, each once, at every moment. And behind the end of the
loop no connection is accepted and nothing is logged. -/
theorem forwarder_reports (hrun : run step start moves = some f) :
    f.connections.length = accepted moves ∧
    (f.listening = true → (f.warned ++ f.errors).Perm f.reported) ∧
    f.warned.Subperm f.reported ∧
    (f.listening = false → ∀ more f', run step f more = some f' →
      f'.connections.length = f.connections.length ∧ f'.warned = f.warned) := by
  have haccounted : Accounted moves f := by
    refine Transitions.run_history step Accounted (fun _ _ _ _ h hstep => accounted_step h hstep)
      hrun ⟨fun c hc => absurd hc List.not_mem_nil, rfl, fun _ => List.Perm.refl _,
        fun h => (nomatch h), List.nil_subperm⟩
  refine ⟨haccounted.length, haccounted.listening, haccounted.warned, fun hleft more f' hmore => ?_⟩
  have hinv := Transitions.run_invariant (P := fun _ => True) step
    (fun f' => f'.listening = false ∧ f'.connections.length = f.connections.length ∧
      f'.warned = f.warned) (fun f₁ m f₂ _ h hstep => ?_) (fun _ _ => trivial) hmore
    ⟨hleft, rfl, rfl⟩
  · exact hinv.2
  · obtain ⟨hleft, hlength, hwarned⟩ := h
    cases stepped_of_step hstep with
    | connection hget hc => exact ⟨hleft, (List.length_set ..).trans hlength, hwarned⟩
    | accept hlistening | acceptFailed hlistening | shutdown hlistening | warn hlistening =>
      rw [hleft] at hlistening
      cases hlistening

/-- The error of the first connection waits when the second one has been accepted. -/
theorem forwarder_reports_refusedFirst :
    ∃ f, run step start (refusedFirst.take 4) = some f ∧ f.connections.length = 2 ∧
      (f.warned ++ f.errors).Perm f.reported ∧ f.errors = [.sshConnection "refused".toList] := by
  have hwaits : (run step start (refusedFirst.take 4)).map (fun f => (f.listening, f.errors)) =
      some (true, [.sshConnection "refused".toList]) := by decide +kernel
  obtain ⟨f, hf, hfacts⟩ := Option.map_eq_some_iff.mp hwaits
  obtain ⟨hlistening, herrors⟩ := Prod.mk.inj hfacts
  obtain ⟨hlength, hperm, -⟩ := forwarder_reports hf
  exact ⟨f, hf, hlength, hperm hlistening, herrors⟩

end Forwarder

end Rustmote.Session
