import TagRental.Gateway.Message
import TagRental.Link.Writer

/-!
# One writer for all responses

Answers and expiry pushes go out on the same channel, and a frame must never be cut in two by
another one.  So whoever sends has to hold the writer until its frame is out.  Those who wait get it
in the order in which they asked.

A send makes progress only when it is polled.  A poll first looks at the cancellation, so a send
gives up at its next poll once the link is cancelled, even in the middle of its frame, and one that
is polled for the first time after that writes nothing at all.  Otherwise the poll takes its turn if
it has come, and writes until the frame is out, the channel fails, or the channel makes it wait.

Since `SharedWriter.poll` is one poll of one send, a schedule is a list of polls, and what holds
after every such list holds under every schedule.
-/

namespace TagRental

/-- A send in progress: its number and the bytes it has still to write. -/
structure PendingSend where
  id : Nat
  rest : Bytes
  deriving Repr, DecidableEq

/-- The writer that all sends share: what its channel has seen, the sends that asked for it, the
holder first, and whether the link is cancelled. -/
structure SharedWriter where
  seen : Written
  queue : List PendingSend
  cancelled : Bool
  deriving Repr, DecidableEq

/-- The end of a send. -/
abbrev SendResult := Except LinkFault Unit

namespace SharedWriter

/-- A writer that nobody has asked for. -/
def fresh : SharedWriter := ⟨⟨0, []⟩, [], false⟩

/-- Cancels the link. -/
def cancel (w : SharedWriter) : SharedWriter := { w with cancelled := true }

/-- Takes a send out of the queue. -/
def release (w : SharedWriter) (id : Nat) : SharedWriter :=
  { w with queue := w.queue.filter fun p => p.id != id }

/-- Puts a send at the end of the queue unless it is in it. -/
def enqueue (w : SharedWriter) (id : Nat) (frame : Bytes) : SharedWriter :=
  if w.queue.any fun p => p.id == id then w else { w with queue := w.queue ++ [⟨id, frame⟩] }

/-- Polls the send with the given number and frame; the second component is its end, if this poll
ends it. -/
def poll (c : Channel) (w : SharedWriter) (id : Nat) (frame : Bytes) :
    SharedWriter × Option SendResult :=
  if w.cancelled then (w.release id, some (.error .cancelled))
  else
    let w := w.enqueue id frame
    match w.queue with
    | [] => (w, none)
    | holder :: others =>
      if holder.id != id then (w, none)
      else
        match c.send w.seen holder.rest with
        | (seen, .finished) => ({ w with seen := seen, queue := others }, some (.ok ()))
        | (seen, .failed fault) =>
          ({ w with seen := seen, queue := others }, some (.error (.write fault.reason)))
        | (seen, .waiting rest) =>
          ({ w with seen := seen, queue := { holder with rest := rest } :: others }, none)

/-- One event of a schedule: a poll of a send, or the cancellation of the link. -/
inductive Event where
  | poll (id : Nat)
  | cancel
  deriving Repr, DecidableEq

/-- A writer and the sends that have ended, in the order of their ends. -/
structure History where
  writer : SharedWriter
  ended : List (Nat × SendResult)

/-- One event.  A send that has ended is not polled again. -/
def History.step (c : Channel) (frames : Nat → Bytes) (h : History) : Event → History
  | .cancel => { h with writer := h.writer.cancel }
  | .poll id =>
    if h.ended.any fun e => e.1 == id then h
    else
      match h.writer.poll c id (frames id) with
      | (w, none) => { h with writer := w }
      | (w, some r) => ⟨w, h.ended ++ [(id, r)]⟩

/-- A schedule, from a fresh writer. -/
def runSchedule (c : Channel) (frames : Nat → Bytes) (events : List Event) : History :=
  events.foldl (History.step c frames) ⟨fresh, []⟩

/-- The end of a send that nobody competes with: sent or failed, or still waiting, in which case
only a cancellation ends it. -/
structure Attempt where
  writer : SharedWriter
  result : SendResult
  blocked : Bool

/-- Sends one frame while nobody else sends; a send that has to wait is ended by cancelling. -/
def attempt (c : Channel) (w : SharedWriter) (id : Nat) (frame : Bytes) : Attempt :=
  match w.poll c id frame with
  | (w, some r) => ⟨w, r, false⟩
  | (w, none) =>
    let w := w.cancel
    ⟨w.release id, .error .cancelled, true⟩

end SharedWriter

end TagRental
