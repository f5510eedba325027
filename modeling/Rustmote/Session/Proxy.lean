import Mathlib.Logic.Function.Basic
import Rustmote.Error
import Rustmote.Foundations.Transitions

/-!
# A forwarded connection

`proxy_one` copies bytes between a local connection and a channel, both ways at once: each way is a
loop that reads a chunk into its buffer, writes all of it, and shuts its sink down at the end of
its source. `try_join!` polls the two loops in any order, and returns at the first error or when
both have returned.

A move is what happens next: a side sends bytes or ends its stream, a read or a write of a loop
returns, bytes arrive. Reads split the bytes as they like, writes take as many as there is room
for, and the moves of the two ways come in any order. The network between a sink and its receiver
keeps bytes in order.

* `CopyLoop.Inv`, `proxy_inv` — every byte that was sent is in one place: received, in flight, in
  the part of the buffer that is not written yet, or not read yet.
* `CopyLoop.work` — each move but a send takes something off it, so the proxy comes to rest.
* `CopyLoop.exists_move` — a way in which bytes are missing can go on by itself, whatever the other
  way does.
-/

namespace Rustmote.Session

open Transitions (run)

/-! ### The model -/

/-- The length of the buffers. -/
def bufferSize : Nat := 8192

/-- `vec![0u8; 8192]`, which every read of a loop overwrites from its start. -/
structure CopyBuffer where
  bytes : Bytes
  length_bytes : bytes.length = bufferSize

namespace CopyBuffer

/-- The buffer at the start. -/
def zero : CopyBuffer := ⟨List.replicate bufferSize 0, List.length_replicate⟩

/-- The buffer after a read of this chunk: behind the chunk it stays as it was. -/
def fill (b : CopyBuffer) (chunk : Bytes) : CopyBuffer where
  bytes := (chunk ++ b.bytes.drop chunk.length).take bufferSize
  length_bytes := by
    have := b.length_bytes
    simp only [List.length_take, List.length_append, List.length_drop]
    omega

theorem take_fill (b : CopyBuffer) {chunk : Bytes} (h : chunk.length ≤ bufferSize) :
    (b.fill chunk).bytes.take chunk.length = chunk := by
  rw [fill, List.take_take, Nat.min_eq_left h, List.take_left]

end CopyBuffer

/-- Where a loop is. -/
inductive CopyPhase where
  /-- In `read`. -/
  | reading
  /-- In `write_all`, of the first `n` bytes of the buffer, of which so many are written. -/
  | writing (n written : Nat)
  /-- Out of the loop, in `shutdown`. -/
  | shuttingDown
  /-- Returned. -/
  | returned
  /-- Returned with an error. -/
  | failed (e : Str)
  deriving DecidableEq

/-- One way: a loop, with its source, its sink and the receiver behind. -/
structure CopyLoop where
  /-- What the sender has sent. -/
  sent : Bytes
  /-- The sender has ended its stream. -/
  closed : Bool
  /-- What is sent and not read. -/
  unread : Bytes
  buf : CopyBuffer
  phase : CopyPhase
  /-- What is written and has not arrived. -/
  flight : Bytes
  /-- How many bytes may be in flight. -/
  room : Nat
  room_pos : 0 < room
  /-- The sink has been shut down. -/
  shut : Bool
  /-- What has arrived. -/
  received : Bytes
  /-- The receiver has seen the end. -/
  ended : Bool

/-- What happens next in one way. -/
inductive CopyMove where
  /-- The sender sends. -/
  | send (bytes : Bytes)
  /-- The sender ends its stream. -/
  | close
  /-- `read` returns this number. -/
  | read (n : Nat)
  /-- A write of `write_all` takes so many bytes. -/
  | write (k : Nat)
  /-- `shutdown` returns, with an error or without. -/
  | shutdown (done : Bool)
  /-- A read or a write fails. -/
  | fail (e : Str)
  /-- So many bytes arrive. -/
  | deliver (n : Nat)
  /-- The end arrives. -/
  | deliverEnd
  deriving DecidableEq

/-- The move is the loop's own. -/
def CopyMove.isLoop : CopyMove → Bool
  | .read _ | .write _ | .shutdown _ | .fail _ => true
  | _ => false

/-- The move carries bytes on: neither something new from the sender, nor an error. -/
def CopyMove.carries : CopyMove → Bool
  | .read _ | .write _ | .shutdown _ | .deliver _ | .deliverEnd => true
  | _ => false

namespace CopyLoop

/-- The loop before it begins. -/
def start (room : {n : Nat // 0 < n}) : CopyLoop where
  sent := []
  closed := false
  unread := []
  buf := .zero
  phase := .reading
  flight := []
  room := room
  room_pos := room.2
  shut := false
  received := []
  ended := false

/-- The part of the buffer that is still to be written. -/
def pending (c : CopyLoop) : Bytes :=
  match c.phase with
  | .writing n written => (c.buf.bytes.take n).drop written
  | _ => []

/-- What a move makes of one way. -/
def step (c : CopyLoop) : CopyMove → Option CopyLoop
  | .send bytes =>
    if c.closed then none
    else some { c with sent := c.sent ++ bytes, unread := c.unread ++ bytes }
  | .close => if c.closed then none else some { c with closed := true }
  | .read n =>
    match c.phase with
    | .reading =>
      if n = 0 then
        -- `Ok(0)` is the end of the source.
        if c.closed ∧ c.unread = [] then some { c with phase := .shuttingDown } else none
      else if n ≤ bufferSize ∧ n ≤ c.unread.length then
        some { c with
          buf := c.buf.fill (c.unread.take n)
          unread := c.unread.drop n
          phase := .writing n 0 }
      else none
    | _ => none
  | .write k =>
    match c.phase with
    | .writing n written =>
      if 0 < k ∧ written + k ≤ n ∧ c.flight.length + k ≤ c.room then
        some { c with
          flight := c.flight ++ c.pending.take k
          phase := if written + k = n then .reading else .writing n (written + k) }
      else none
    | _ => none
  | .shutdown done =>
    match c.phase with
    | .shuttingDown => some { c with phase := .returned, shut := done }
    | _ => none
  | .fail e =>
    match c.phase with
    | .reading => some { c with phase := .failed e }
    | .writing _ _ => some { c with phase := .failed e }
    | _ => none
  | .deliver n =>
    if 0 < n ∧ n ≤ c.flight.length then
      some { c with received := c.received ++ c.flight.take n, flight := c.flight.drop n }
    else none
  | .deliverEnd =>
    if c.shut ∧ c.flight = [] ∧ c.ended = false then some { c with ended := true } else none

end CopyLoop

/-- The two ways of a forwarded connection. -/
inductive Way where
  /-- From the local connection to the channel. -/
  | up
  /-- From the channel to the local connection. -/
  | down
  deriving DecidableEq

/-- A forwarded connection. -/
abbrev Proxy := Way → CopyLoop

namespace Proxy

/-- `try_join!`: what `proxy_one` has returned, if it has. -/
def joined (s : Proxy) : Option (Except RustmoteError Unit) :=
  match (s .up).phase, (s .down).phase with
  | .failed e, _ => some (.error (.ioError e))
  | _, .failed e => some (.error (.ioError e))
  | .returned, .returned => some (.ok ())
  | _, _ => none

/-- A move in one way. The loops move only until `proxy_one` returns. -/
def step (s : Proxy) (m : Way × CopyMove) : Option Proxy :=
  if m.2.isLoop ∧ s.joined ≠ none then none
  else ((s m.1).step m.2).map fun c => Function.update s m.1 c

/-- The connection at its start, with room for so many bytes in flight. -/
def start (room : Way → {n : Nat // 0 < n}) : Proxy := fun way => .start (room way)

end Proxy

/-! ### What a move does -/

namespace CopyLoop

/-- The moves, with what they need and what they leave. -/
inductive Stepped (c : CopyLoop) : CopyMove → CopyLoop → Prop where
  | send {bytes : Bytes} (hopen : c.closed = false) :
    Stepped c (.send bytes) { c with sent := c.sent ++ bytes, unread := c.unread ++ bytes }
  | close (hopen : c.closed = false) : Stepped c .close { c with closed := true }
  | readEnd (hphase : c.phase = .reading) (hclosed : c.closed = true) (hunread : c.unread = []) :
    Stepped c (.read 0) { c with phase := .shuttingDown }
  | read {n : Nat} (hphase : c.phase = .reading) (hpos : 0 < n) (hsize : n ≤ bufferSize)
    (hunread : n ≤ c.unread.length) :
    Stepped c (.read n) { c with
      buf := c.buf.fill (c.unread.take n)
      unread := c.unread.drop n
      phase := .writing n 0 }
  | write {n written k : Nat} (hphase : c.phase = .writing n written) (hpos : 0 < k)
    (hchunk : written + k ≤ n) (hroom : c.flight.length + k ≤ c.room) :
    Stepped c (.write k) { c with
      flight := c.flight ++ c.pending.take k
      phase := if written + k = n then .reading else .writing n (written + k) }
  | shutdown {done : Bool} (hphase : c.phase = .shuttingDown) :
    Stepped c (.shutdown done) { c with phase := .returned, shut := done }
  | fail {e : Str} (hphase : c.phase = .reading ∨ ∃ n written, c.phase = .writing n written) :
    Stepped c (.fail e) { c with phase := .failed e }
  | deliver {n : Nat} (hpos : 0 < n) (hflight : n ≤ c.flight.length) :
    Stepped c (.deliver n) { c with
      received := c.received ++ c.flight.take n
      flight := c.flight.drop n }
  | deliverEnd (hshut : c.shut = true) (hflight : c.flight = []) (hended : c.ended = false) :
    Stepped c .deliverEnd { c with ended := true }

variable {c c' : CopyLoop} {m : CopyMove}

theorem stepped_of_step (h : c.step m = some c') : Stepped c m c' := by
  cases m with
  | send bytes =>
    simp only [step] at h
    split_ifs at h with hclosed
    exact Option.some.inj h ▸ .send (Bool.eq_false_iff.mpr hclosed)
  | close =>
    simp only [step] at h
    split_ifs at h with hclosed
    exact Option.some.inj h ▸ .close (Bool.eq_false_iff.mpr hclosed)
  | read n =>
    simp only [step] at h
    split at h
    · next hphase =>
      split_ifs at h with hzero hend hn
      · exact Option.some.inj h ▸ hzero ▸ .readEnd hphase hend.1 hend.2
      · exact Option.some.inj h ▸ .read hphase (Nat.pos_of_ne_zero hzero) hn.1 hn.2
    · cases h
  | write k =>
    simp only [step] at h
    split at h
    · next n written hphase =>
      by_cases hk : 0 < k ∧ written + k ≤ n ∧ c.flight.length + k ≤ c.room
      · rw [if_pos hk] at h
        exact Option.some.inj h ▸ .write hphase hk.1 hk.2.1 hk.2.2
      · rw [if_neg hk] at h
        cases h
    · cases h
  | shutdown done =>
    simp only [step] at h
    split at h
    · next hphase => exact Option.some.inj h ▸ .shutdown hphase
    · cases h
  | fail e =>
    simp only [step] at h
    split at h
    · next hphase => exact Option.some.inj h ▸ .fail (.inl hphase)
    · next n written hphase => exact Option.some.inj h ▸ .fail (.inr ⟨n, written, hphase⟩)
    · cases h
  | deliver n =>
    simp only [step] at h
    split_ifs at h with hn
    exact Option.some.inj h ▸ .deliver hn.1 hn.2
  | deliverEnd =>
    simp only [step] at h
    split_ifs at h with hend
    exact Option.some.inj h ▸ .deliverEnd hend.1 hend.2.1 hend.2.2

/-! ### Every byte is in one place -/

/-- The loop has not failed. -/
def Unfailed (c : CopyLoop) : Prop := ∀ e, c.phase ≠ .failed e

/-- What holds of each way from the start on. -/
structure Inv (c : CopyLoop) : Prop where
  /-- What has arrived and what is in flight begin what was sent. -/
  begins : c.received ++ c.flight <+: c.sent
  /-- Every byte is in one place, in order. -/
  whole : c.Unfailed → c.received ++ (c.flight ++ (c.pending ++ c.unread)) = c.sent
  /-- A chunk is not longer than the buffer, and `write_all` is not done with it. -/
  chunk : ∀ n written, c.phase = .writing n written → written < n ∧ n ≤ bufferSize
  /-- The loop is left at the end of the source. -/
  drained : c.phase = .shuttingDown ∨ c.phase = .returned → c.closed = true ∧ c.unread = []
  /-- A sink that is shut down is not written to any more. -/
  shut : c.shut = true → c.phase = .returned
  /-- The end arrives behind the bytes. -/
  ended : c.ended = true → c.shut = true ∧ c.flight = []

/-- Outside of `write_all` nothing is to be written. -/
theorem pending_of_eq {phase : CopyPhase} (h : c.phase = phase)
    (hphase : ∀ n written, phase ≠ .writing n written) : c.pending = [] := by
  unfold pending
  split
  · next n written hwriting => exact absurd (h.symm.trans hwriting) (hphase n written)
  · rfl

theorem pending_of_writing {n written : Nat} (h : c.phase = .writing n written) :
    c.pending = (c.buf.bytes.take n).drop written := by
  rw [pending, h]

theorem Inv.length_pending (h : c.Inv) {n written : Nat} (hphase : c.phase = .writing n written) :
    c.pending.length = n - written := by
  rw [pending_of_writing hphase, List.length_drop, List.length_take, c.buf.length_bytes,
    Nat.min_eq_left (h.chunk n written hphase).2]

/-- What is still to be written behind a write of some bytes. -/
theorem pending_write {n written k : Nat} (hphase : c.phase = .writing n written)
    (c' : CopyLoop) (hbuf : c'.buf = c.buf)
    (hphase' : c'.phase = if written + k = n then .reading else .writing n (written + k)) :
    c'.pending = c.pending.drop k := by
  rw [pending_of_writing hphase, List.drop_drop]
  by_cases hdone : written + k = n
  · rw [if_pos hdone] at hphase'
    rw [hdone, List.drop_eq_nil_of_le (List.length_take_le _ _)]
    exact pending_of_eq hphase' fun _ _ h => nomatch h
  · rw [if_neg hdone] at hphase'
    rw [pending_of_writing hphase', hbuf]

theorem inv_start (room : {n : Nat // 0 < n}) : (start room).Inv where
  begins := List.nil_prefix
  whole _ := rfl
  chunk n written h := by cases h
  drained h := by rcases h with h | h <;> cases h
  shut h := by cases h
  ended h := by cases h

theorem unfailed_of_eq {phase : CopyPhase} (h : c.phase = phase) (hphase : ∀ e, phase ≠ .failed e) :
    c.Unfailed := fun e he => hphase e (h.symm.trans he)

/-- Where every byte is in one place, what has arrived begins what was sent. -/
theorem begins_of_whole {received flight rest sent : Bytes}
    (h : received ++ (flight ++ rest) = sent) : received ++ flight <+: sent :=
  ⟨rest, by rw [← h, List.append_assoc]⟩

/-- The sink of a loop that has not returned is not shut down. -/
theorem Inv.not_shut (h : c.Inv) (hphase : c.phase ≠ .returned) : ¬ c.shut = true :=
  fun hshut => hphase (h.shut hshut)

/-- A chunk is read into the buffer, over what the last one left there. -/
theorem Inv.read {n : Nat} (h : c.Inv) (hphase : c.phase = .reading) (hpos : 0 < n)
    (hsize : n ≤ bufferSize) (hunread : n ≤ c.unread.length) :
    Inv { c with
      buf := c.buf.fill (c.unread.take n)
      unread := c.unread.drop n
      phase := .writing n 0 } := by
  have hlength : (c.unread.take n).length = n := by
    rw [List.length_take, Nat.min_eq_left hunread]
  have hfill : ((c.buf.fill (c.unread.take n)).bytes.take n).drop 0 = c.unread.take n := by
    have htake := c.buf.take_fill (hlength.trans_le hsize)
    rw [hlength] at htake
    rw [List.drop_zero, htake]
  have hpending := pending_of_eq hphase fun _ _ h => nomatch h
  have hwhole := h.whole (unfailed_of_eq hphase fun e he => nomatch he)
  rw [hpending] at hwhole
  have hshut := h.not_shut (by simp [hphase])
  refine ⟨h.begins, fun _ => ?_, fun n' written h => ?_, fun h => ?_, fun h => absurd h hshut,
    h.ended⟩
  · show c.received ++ (c.flight ++ (((c.buf.fill (c.unread.take n)).bytes.take n).drop 0 ++
      c.unread.drop n)) = c.sent
    rw [hfill, List.take_append_drop]
    exact hwhole
  · cases h
    exact ⟨hpos, hsize⟩
  · rcases h with h | h <;> cases h

/-- A part of the chunk is written: it leaves the buffer, and the rest of the chunk stays. -/
theorem Inv.write {n written k : Nat} (h : c.Inv) (hphase : c.phase = .writing n written)
    (hle : written + k ≤ n) :
    Inv { c with
      flight := c.flight ++ c.pending.take k
      phase := if written + k = n then .reading else .writing n (written + k) } := by
  have hwhole : c.received ++ ((c.flight ++ c.pending.take k) ++ (c.pending.drop k ++ c.unread)) =
      c.sent := by
    rw [← h.whole (unfailed_of_eq hphase fun e he => nomatch he), List.append_assoc,
      ← List.append_assoc (c.pending.take k), List.take_append_drop]
  have hshut := h.not_shut (by simp [hphase])
  refine ⟨begins_of_whole hwhole, fun _ => ?_, fun n' written' h' => ?_, fun h' => ?_,
    fun h => absurd h hshut, fun h' => absurd (h.ended h').1 hshut⟩
  · rw [pending_write hphase { c with
      flight := c.flight ++ c.pending.take k
      phase := if written + k = n then .reading else .writing n (written + k) } rfl rfl]
    exact hwhole
  · have hphase' : (if written + k = n then CopyPhase.reading else .writing n (written + k)) =
      .writing n' written' := h'
    split_ifs at hphase' with hdone
    cases hphase'
    exact ⟨by omega, (h.chunk n written hphase).2⟩
  · have hphase' : (if written + k = n then CopyPhase.reading else .writing n (written + k)) =
      .shuttingDown ∨ (if written + k = n then CopyPhase.reading else .writing n (written + k)) =
      .returned := h'
    split_ifs at hphase' <;> simp at hphase'

/-- **A move keeps every byte in one place.** -/
theorem Stepped.inv (hstep : Stepped c m c') (h : c.Inv) : c'.Inv := by
  cases hstep with
  | @send bytes hopen =>
    refine ⟨h.begins.trans (List.prefix_append _ _), fun hok => ?_, h.chunk, fun hphase => ?_,
      h.shut, h.ended⟩
    · show c.received ++ (c.flight ++ (c.pending ++ (c.unread ++ bytes))) = c.sent ++ bytes
      rw [← h.whole hok]
      simp only [List.append_assoc]
    · rw [(h.drained hphase).1] at hopen
      cases hopen
  | close hopen =>
    exact ⟨h.begins, h.whole, h.chunk, fun hphase => ⟨rfl, (h.drained hphase).2⟩, h.shut, h.ended⟩
  | readEnd hphase hclosed hunread =>
    have hpending := pending_of_eq hphase fun _ _ h => nomatch h
    have hwhole := h.whole (unfailed_of_eq hphase fun e he => nomatch he)
    rw [hpending] at hwhole
    have hshut := h.not_shut (by simp [hphase])
    exact ⟨h.begins, fun _ => hwhole, fun n written h => (nomatch h), fun _ => ⟨hclosed, hunread⟩,
      fun h => absurd h hshut, h.ended⟩
  | read hphase hpos hsize hunread => exact h.read hphase hpos hsize hunread
  | write hphase _ hle _ => exact h.write hphase hle
  | @shutdown done hphase =>
    have hpending := pending_of_eq hphase fun _ _ h => nomatch h
    have hwhole := h.whole (unfailed_of_eq hphase fun e he => nomatch he)
    rw [hpending] at hwhole
    have hshut := h.not_shut (by simp [hphase])
    exact ⟨h.begins, fun _ => hwhole, fun n written h => (nomatch h),
      fun _ => h.drained (.inl hphase), fun _ => rfl, fun h' => absurd (h.ended h').1 hshut⟩
  | @fail e hphase =>
    have hshut : ¬ c.shut = true := h.not_shut (by
      rcases hphase with hphase | ⟨n, written, hphase⟩ <;> simp [hphase])
    exact ⟨h.begins, fun hok => absurd rfl (hok e), fun n written h => (nomatch h),
      fun h => h.elim (fun h => nomatch h) (fun h => nomatch h), fun h => absurd h hshut, h.ended⟩
  | @deliver n hpos hflight =>
    refine ⟨?_, fun hok => ?_, h.chunk, h.drained, h.shut, fun h' => ?_⟩
    · show (c.received ++ c.flight.take n) ++ c.flight.drop n <+: c.sent
      rw [List.append_assoc, List.take_append_drop]
      exact h.begins
    · show (c.received ++ c.flight.take n) ++ (c.flight.drop n ++ (c.pending ++ c.unread)) = c.sent
      rw [← h.whole hok, List.append_assoc, ← List.append_assoc (c.flight.take n),
        List.take_append_drop]
    · rw [(h.ended h').2] at hflight
      exact absurd (Nat.lt_of_lt_of_le hpos hflight) (Nat.lt_irrefl 0)
  | deliverEnd hshut hflight _ =>
    exact ⟨h.begins, h.whole, h.chunk, h.drained, h.shut, fun _ => ⟨hshut, hflight⟩⟩

/-! ### A way comes to rest -/

/-- What the loop has left to do, apart from bytes. -/
def phaseWork : CopyPhase → Nat
  | .reading => 2
  | .writing _ _ => 2
  | .shuttingDown => 1
  | .returned => 0
  | .failed _ => 0

/-- What is left to do in one way: a byte is read, then written, then arrives. -/
def work (c : CopyLoop) : Nat :=
  3 * c.unread.length + 2 * c.pending.length + c.flight.length + phaseWork c.phase +
    if c.ended then 0 else 1

/-- **A move that carries bytes on takes something off the work.** -/
theorem Stepped.work_lt (hstep : Stepped c m c') (h : c.Inv) (hm : m.carries = true) :
    c'.work < c.work := by
  cases hstep with
  | send => cases hm
  | close => cases hm
  | fail => cases hm
  | readEnd hphase hclosed hunread =>
    have hpending := pending_of_eq hphase fun _ _ h => nomatch h
    show 3 * c.unread.length + 2 * ([] : Bytes).length + c.flight.length + 1 + _ < c.work
    rw [work, hpending, hphase]
    simp only [phaseWork]
    omega
  | @read n hphase hpos hsize hunread =>
    have hpending := pending_of_eq hphase fun _ _ h => nomatch h
    have hinv := (Stepped.read hphase hpos hsize hunread).inv h
    have hlength := hinv.length_pending rfl
    rw [work, hlength, work, hpending, hphase]
    simp only [phaseWork, List.length_drop, List.length_nil]
    omega
  | @write n written k hphase hpos hle hroom =>
    have hlength := h.length_pending hphase
    have hpending := pending_write hphase { c with
      flight := c.flight ++ c.pending.take k
      phase := if written + k = n then .reading else .writing n (written + k) } rfl rfl
    have hweight : phaseWork (if written + k = n then .reading else .writing n (written + k)) = 2 := by
      split <;> rfl
    simp only [work, hpending, hweight, hphase, List.length_append, List.length_take,
      List.length_drop]
    simp only [phaseWork]
    omega
  | @shutdown done hphase =>
    have hpending := pending_of_eq hphase fun _ _ h => nomatch h
    show 3 * c.unread.length + 2 * ([] : Bytes).length + c.flight.length + 0 + _ < c.work
    rw [work, hpending, hphase]
    simp only [phaseWork]
    omega
  | @deliver n hpos hflight =>
    show 3 * c.unread.length + 2 * c.pending.length + (c.flight.drop n).length +
      phaseWork c.phase + (if c.ended then 0 else 1) < c.work
    rw [work, List.length_drop]
    omega
  | deliverEnd hshut hflight hended =>
    show 3 * c.unread.length + 2 * c.pending.length + c.flight.length + phaseWork c.phase + 0 <
      c.work
    rw [work, hended]
    exact Nat.lt_succ_self _

/-- A loop fails by an error only. -/
theorem Stepped.unfailed (hstep : Stepped c m c') (hm : ∀ e, m ≠ .fail e) (h : c.Unfailed) :
    c'.Unfailed := by
  cases hstep with
  | @fail e => exact absurd rfl (hm e)
  | send => exact h
  | close => exact h
  | deliver => exact h
  | deliverEnd => exact h
  | write =>
    intro e he
    have hphase : (if _ = _ then CopyPhase.reading else .writing _ _) = .failed e := he
    split at hphase <;> cases hphase
  | _ => exact fun e he => nomatch he

/-- Everything has arrived, and when the sender has ended its stream, the loop has returned. -/
structure Settled (c : CopyLoop) : Prop where
  received : c.received = c.sent
  returned : c.closed = true → c.phase = .returned
  ended : c.shut = true → c.ended = true

/-- **A way that is not settled can go on**, and not behind the end of its loop. -/
theorem exists_move (h : c.Inv) (hok : c.Unfailed) (hsettled : ¬ c.Settled) :
    ∃ m c', m.carries = true ∧ (m.isLoop = true → c.phase ≠ .returned) ∧ c.step m = some c' := by
  by_cases hflight : c.flight = []
  · have hwhole := h.whole hok
    rw [hflight, List.nil_append] at hwhole
    cases hphase : c.phase with
    | reading =>
      have hpending := pending_of_eq hphase fun _ _ h => nomatch h
      by_cases hunread : c.unread = []
      · cases hclosed : c.closed with
        | true =>
          exact ⟨.read 0, { c with phase := .shuttingDown }, rfl, fun _ h => (nomatch h), by
            simp [step, hphase, hclosed, hunread]⟩
        | false =>
          rw [hpending, hunread, List.append_nil, List.append_nil] at hwhole
          refine absurd (Settled.mk hwhole (fun h => ?_) fun hshut => ?_) hsettled
          · rw [hclosed] at h
            cases h
          · exact absurd hshut (h.not_shut (by simp [hphase]))
      · have hpos : 1 ≤ c.unread.length := List.length_pos_iff.mpr hunread
        have hsize : 1 ≤ bufferSize := by decide
        exact ⟨.read 1, _, rfl, fun _ h => (nomatch h), by
          simp only [step, hphase]
          rw [if_neg Nat.one_ne_zero]
          exact if_pos ⟨hsize, hpos⟩⟩
    | writing n written =>
      have hchunk := h.chunk n written hphase
      have hroom := c.room_pos
      exact ⟨.write 1, _, rfl, fun _ h => (nomatch h), by
        rw [step, hphase]
        exact if_pos ⟨Nat.one_pos, hchunk.1, by
          rw [hflight]
          exact Nat.succ_le_of_lt hroom⟩⟩
    | shuttingDown =>
      exact ⟨.shutdown true, _, rfl, fun _ h => (nomatch h), by
        rw [step, hphase]⟩
    | returned =>
      obtain ⟨-, hunread⟩ := h.drained (.inr hphase)
      have hpending := pending_of_eq hphase fun _ _ h => nomatch h
      rw [hpending, hunread, List.append_nil, List.append_nil] at hwhole
      by_cases hend : c.shut = true ∧ c.ended = false
      · exact ⟨.deliverEnd, _, rfl, fun h => (nomatch h), by
          rw [step]
          exact if_pos ⟨hend.1, hflight, hend.2⟩⟩
      · refine absurd (Settled.mk hwhole (fun _ => hphase) fun hshut => ?_) hsettled
        by_contra hended
        exact hend ⟨hshut, Bool.eq_false_iff.mpr hended⟩
    | failed e => exact absurd hphase (hok e)
  · have hpos : 1 ≤ c.flight.length := List.length_pos_iff.mpr hflight
    exact ⟨.deliver 1, _, rfl, fun h => (nomatch h), by
      rw [step]
      exact if_pos ⟨Nat.one_pos, hpos⟩⟩

end CopyLoop

/-! ### Both ways -/

namespace Proxy

variable {s s' : Proxy} {way : Way} {m : CopyMove}

theorem step_eq_some_iff :
    s.step (way, m) = some s' ↔ (m.isLoop = true → s.joined = none) ∧
      ∃ c, (s way).step m = some c ∧ s' = Function.update s way c := by
  unfold step
  by_cases hover : m.isLoop = true ∧ s.joined ≠ none
  · rw [if_pos hover]
    exact iff_of_false (fun h => nomatch h) fun h => hover.2 (h.1 hover.1)
  · rw [if_neg hover, Option.map_eq_some_iff]
    refine ⟨?_, ?_⟩
    · rintro ⟨c, hc, rfl⟩
      exact ⟨fun hloop => not_not.mp fun hne => hover ⟨hloop, hne⟩, c, hc, rfl⟩
    · rintro ⟨-, c, hc, rfl⟩
      exact ⟨c, hc, rfl⟩

/-- What a property of each way and a move of one way make. -/
theorem forall_update {P : CopyLoop → Prop} {c : CopyLoop} (h : ∀ way, P (s way)) (hc : P c) :
    ∀ other, P (Function.update s way c other) := by
  intro other
  by_cases heq : other = way
  · rw [heq, Function.update_self]
    exact hc
  · rw [Function.update_of_ne heq]
    exact h other

/-- What holds of a forwarded connection from the start on. -/
def Inv (s : Proxy) : Prop := ∀ way, (s way).Inv

/-- No loop has failed. -/
def Unfailed (s : Proxy) : Prop := ∀ way, (s way).Unfailed

theorem proxy_inv (h : s.Inv) (hstep : s.step (way, m) = some s') : s'.Inv := by
  obtain ⟨-, c, hc, rfl⟩ := step_eq_some_iff.mp hstep
  exact forall_update h ((CopyLoop.stepped_of_step hc).inv (h way))

theorem proxy_unfailed (h : s.Unfailed) (hm : ∀ e, m ≠ .fail e)
    (hstep : s.step (way, m) = some s') : s'.Unfailed := by
  obtain ⟨-, c, hc, rfl⟩ := step_eq_some_iff.mp hstep
  exact forall_update h ((CopyLoop.stepped_of_step hc).unfailed hm (h way))

/-- While a loop has not returned, and none has failed, `proxy_one` has not returned. -/
theorem joined_eq_none (h : s.Unfailed) (hway : (s way).phase ≠ .returned) : s.joined = none := by
  unfold joined
  cases hup : (s .up).phase with
  | failed e => exact absurd hup (h .up e)
  | returned =>
    cases hdown : (s .down).phase with
    | failed e => exact absurd hdown (h .down e)
    | returned =>
      cases way with
      | up => exact absurd hup hway
      | down => exact absurd hdown hway
    | _ => rfl
  | _ =>
    cases hdown : (s .down).phase with
    | failed e => exact absurd hdown (h .down e)
    | _ => rfl

theorem joined_eq_ok (h : ∀ way, (s way).phase = .returned) : s.joined = some (.ok ()) := by
  rw [joined, h .up, h .down]

/-- What is left to do. -/
def work (s : Proxy) : Nat := (s .up).work + (s .down).work

theorem work_lt (h : s.Inv) (hm : m.carries = true) (hstep : s.step (way, m) = some s') :
    s'.work < s.work := by
  obtain ⟨-, c, hc, rfl⟩ := step_eq_some_iff.mp hstep
  have hless := (CopyLoop.stepped_of_step hc).work_lt (h way) hm
  cases way with
  | up => exact Nat.add_lt_add_right hless (s .down).work
  | down => exact Nat.add_lt_add_left hless (s .up).work

/-- A way that is not settled can go on, whatever the other way does. -/
theorem exists_step (h : s.Inv) (hok : s.Unfailed) (hsettled : ¬ (s way).Settled) :
    ∃ m s', m.carries = true ∧ s.step (way, m) = some s' := by
  obtain ⟨m, c, hm, hloop, hc⟩ := CopyLoop.exists_move (h way) (hok way) hsettled
  exact ⟨m, _, hm, step_eq_some_iff.mpr ⟨fun hl => joined_eq_none hok (hloop hl), c, hc, rfl⟩⟩

/-! ### Runs -/

/-- What the sender of a way sends in these moves. -/
def sentBy (way : Way) (moves : List (Way × CopyMove)) : Bytes :=
  moves.flatMap fun
    | (other, .send bytes) => if other = way then bytes else []
    | _ => []

/-- No read and no write fails. -/
def NoError (moves : List (Way × CopyMove)) : Prop := ∀ way e, (way, CopyMove.fail e) ∉ moves

/-- Nothing can be carried on in either way. -/
def Quiet (s : Proxy) : Prop := ∀ way m, m.carries = true → s.step (way, m) = none

variable {room : Way → {n : Nat // 0 < n}} {moves : List (Way × CopyMove)}

theorem sent_step {way other : Way} (hstep : s.step (way, m) = some s') :
    (s' other).sent = (s other).sent ++ sentBy other [(way, m)] := by
  obtain ⟨-, c, hc, rfl⟩ := step_eq_some_iff.mp hstep
  have hc := CopyLoop.stepped_of_step hc
  by_cases heq : other = way
  · subst heq
    rw [Function.update_self]
    cases hc with
    | send => simp [sentBy]
    | _ => simp [sentBy]
  · rw [Function.update_of_ne heq]
    cases hc with
    | send => simp [sentBy, Ne.symm heq]
    | _ => simp [sentBy]

/-- What has been sent is what the moves send. -/
theorem sent_run (hrun : run step s moves = some s') :
    (s' way).sent = (s way).sent ++ sentBy way moves := by
  induction moves generalizing s with
  | nil =>
    obtain rfl := Option.some.inj hrun
    exact (List.append_nil _).symm
  | cons m moves ih =>
    obtain ⟨s₁, hm, hrest⟩ := Transitions.run_cons_iff.mp hrun
    have hsplit : sentBy way (m :: moves) = sentBy way [m] ++ sentBy way moves := by
      rw [sentBy, sentBy, sentBy, List.flatMap_cons, List.flatMap_singleton]
    rw [ih hrest, sent_step hm, hsplit, List.append_assoc]

theorem inv_run (hrun : run step (start room) moves = some s) : s.Inv :=
  Transitions.run_invariant step Inv (fun _ _ _ (_ : True) h hstep => proxy_inv h hstep)
    (fun _ _ => trivial) hrun fun way => CopyLoop.inv_start (room way)

theorem unfailed_run (hrun : run step (start room) moves = some s) (herror : NoError moves) :
    s.Unfailed := by
  have hmoves : ∀ m ∈ moves, ∀ e, m.2 ≠ .fail e := by
    rintro ⟨way, m⟩ hm e rfl
    exact herror way e hm
  exact Transitions.run_invariant step Unfailed
    (fun s m s' hm h hstep => proxy_unfailed h hm hstep) hmoves hrun fun way e he => nomatch he

theorem settled_of_quiet (h : s.Inv) (hok : s.Unfailed) (hquiet : s.Quiet) :
    (s way).Settled := by
  by_contra hsettled
  obtain ⟨m, s', hm, hstep⟩ := exists_step h hok hsettled
  rw [hquiet way m hm] at hstep
  cases hstep

/-- A way settles by its own moves, wherever the other way is. -/
theorem exists_settled (h : s.Inv) (hok : s.Unfailed) (way : Way) :
    ∃ more s', (∀ m ∈ more, m.1 = way ∧ m.2.carries = true) ∧ run step s more = some s' ∧
      (s' way).Settled := by
  have hkeeps : ∀ (s : Proxy) (m : Way × CopyMove) (s' : Proxy),
      m.1 = way ∧ m.2.carries = true → s.Inv ∧ s.Unfailed → s.step m = some s' →
      (s'.Inv ∧ s'.Unfailed) ∧ s'.work < s.work := by
    intro s m s' hm hs hstep
    have hnofail : ∀ e, m.2 ≠ .fail e := by
      intro e he
      rw [he] at hm
      cases hm.2
    exact ⟨⟨proxy_inv hs.1 hstep, proxy_unfailed hs.2 hnofail hstep⟩, work_lt hs.1 hm.2 hstep⟩
  have hnext : ∀ s : Proxy, s.Inv ∧ s.Unfailed → ¬ (s way).Settled →
      ∃ m s', (m.1 = way ∧ m.2.carries = true) ∧ s.step m = some s' := by
    intro s hs hsettled
    obtain ⟨m, s', hm, hstep⟩ := exists_step hs.1 hs.2 hsettled
    exact ⟨(way, m), s', ⟨rfl, hm⟩, hstep⟩
  obtain ⟨more, s', hmore, hrun, -, hsettled⟩ :=
    Transitions.exists_run step (fun m => m.1 = way ∧ m.2.carries = true)
      (fun s => s.Inv ∧ s.Unfailed) (fun s => (s way).Settled) work hkeeps hnext ⟨h, hok⟩
  exact ⟨more, s', hmore, hrun, hsettled⟩

/-- **No byte is lost, and none comes twice.** At every moment of every run, each side has received
a prefix of what the other side has sent, and, where no error has occurred, all of it when it has
seen the end. As long as nothing new is sent, only so many moves carry bytes on; when no more do and
no error has occurred, each side has received all that the other side has sent, and `proxy_one` has
returned `Ok` if both streams have ended. And whatever the other way does, ended or not, the bytes
of each way arrive by moves of that way alone. -/
theorem forwarded_bytes (hrun : run step (start room) moves = some s) :
    (∀ way, (s way).received <+: sentBy way moves) ∧
    (NoError moves → ∀ way, (s way).ended = true →
      (s way).closed = true ∧ (s way).received = sentBy way moves) ∧
    (∀ more s', (∀ m ∈ more, m.2.carries = true) → run step s more = some s' →
      more.length ≤ s.work) ∧
    (NoError moves → s.Quiet → (∀ way, (s way).received = sentBy way moves) ∧
      ((∀ way, (s way).closed = true) → s.joined = some (.ok ()))) ∧
    (NoError moves → ∀ way, ∃ more s', (∀ m ∈ more, m.1 = way ∧ m.2.carries = true) ∧
      run step s more = some s' ∧ (s' way).received = sentBy way moves) := by
  have hinv := inv_run hrun
  have hsent : ∀ way, (s way).sent = sentBy way moves := fun way => sent_run hrun
  refine ⟨fun way => ?_, fun _ way hended => ?_, fun more s' hmore hrest => ?_,
    fun herror hquiet => ?_, fun herror way => ?_⟩
  · rw [← hsent]
    exact (List.prefix_append _ _).trans (hinv way).begins
  · obtain ⟨hshut, hflight⟩ := (hinv way).ended hended
    have hphase := (hinv way).shut hshut
    obtain ⟨hclosed, hunread⟩ := (hinv way).drained (.inr hphase)
    have hpending := CopyLoop.pending_of_eq hphase fun _ _ h => nomatch h
    have hwhole := (hinv way).whole (CopyLoop.unfailed_of_eq hphase fun e he => nomatch he)
    rw [hflight, hpending, hunread] at hwhole
    rw [← hsent, ← hwhole]
    exact ⟨hclosed, (List.append_nil _).symm⟩
  · have hbound := Transitions.run_bounded step Inv work
      (fun s m s' hm h hstep => ⟨proxy_inv h hstep, work_lt h hm hstep⟩) hmore hrest hinv
    omega
  · have hsettled : ∀ way, (s way).Settled := fun way =>
      settled_of_quiet hinv (unfailed_run hrun herror) hquiet
    exact ⟨fun way => (hsettled way).received.trans (hsent way), fun hclosed =>
      joined_eq_ok fun way => (hsettled way).returned (hclosed way)⟩
  · obtain ⟨more, s', hmore, hrest, hsettled⟩ :=
      exists_settled hinv (unfailed_run hrun herror) way
    refine ⟨more, s', hmore, hrest, ?_⟩
    have hnothing : sentBy way more = [] := by
      refine List.flatMap_eq_nil_iff.mpr fun m hm => ?_
      obtain ⟨other, m'⟩ := m
      cases m' with
      | send bytes => cases (hmore _ hm).2
      | _ => rfl
    rw [hsettled.received, sent_run hrest, hnothing, List.append_nil, hsent]

/-- The local side asks and ends its stream; the answer comes behind that, byte for byte. -/
def halfClosed : List (Way × CopyMove) :=
  [(.up, .send [1, 2]), (.up, .close), (.up, .read 2), (.up, .write 1), (.up, .deliver 1),
    (.up, .write 1), (.up, .deliver 1), (.up, .read 0), (.up, .shutdown true), (.up, .deliverEnd),
    (.down, .send [3, 4]), (.down, .read 1), (.down, .write 1), (.down, .deliver 1)]

/-- The second byte of the answer is not lost. -/
theorem forwarded_bytes_halfClosed :
    ∃ s, run step (start fun _ => ⟨1, Nat.one_pos⟩) halfClosed = some s ∧
      (s .up).received = [1, 2] ∧
      ∃ more s', (∀ m ∈ more, m.1 = .down ∧ m.2.carries = true) ∧ run step s more = some s' ∧
        (s' .down).received = [3, 4] := by
  have hsome : (run step (start fun _ => ⟨1, Nat.one_pos⟩) halfClosed).isSome = true := by
    decide +kernel
  obtain ⟨s, hs⟩ := Option.isSome_iff_exists.mp hsome
  have herror : NoError halfClosed := by
    intro way e
    cases way <;> simp [halfClosed]
  have hended : (s .up).ended = true := by
    have hup : (run step (start fun _ => ⟨1, Nat.one_pos⟩) halfClosed).all
        (fun s => (s .up).ended) = true := by
      decide +kernel
    rwa [hs] at hup
  obtain ⟨-, hend, -, -, hdown⟩ := forwarded_bytes hs
  exact ⟨s, hs, (hend herror .up hended).2, hdown herror .down⟩

end Proxy

end Rustmote.Session
