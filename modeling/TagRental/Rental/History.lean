import TagRental.Console.Dialogue
import TagRental.Rental.Backend

/-!
# Histories of a backend

Everything that can happen to a backend is an `Action`: a frame from the gateway, a request made
without one, the clock moving on or being set, a sweep at the time of the clock or at another one,
marking without telling anybody, looking at a record, clearing the table, and a line from the
operator.  `step` carries one out and `run` a whole history, so what holds after every history is
proved by induction on a list of actions.

The clock has 64 bits.  It may be set back, and moving it past the largest number starts it again
from zero.
-/

namespace TagRental

/-- Something that happens to a backend. -/
inductive Action where
  | frame (payload : Bytes)
  | start (tag : Tag) (duration : Option UInt64)
  | finish (tag : Tag)
  | status (tag : Tag)
  | advance (seconds : UInt64)
  | setClock (seconds : UInt64)
  | sweep (now : UInt64)
  | tick
  | expire (now : UInt64)
  | get (tag : Tag)
  | clear
  | console (line : String)
  deriving DecidableEq

/-- What an action returns. -/
inductive Report where
  | frame (outcome : FrameOutcome)
  | response (response : Response)
  | clock (now : UInt64)
  | sweep (report : SweepReport)
  | pushes (responses : List Response)
  | record (record? : Option Record)
  | removed (count : Nat)
  | printed (text : String) (isLast : Bool)

/-- The same outcome with another form of its result. -/
def Outcome.map {α β : Type} (f : α → β) (o : Outcome α) : Outcome β :=
  ⟨f o.result, o.backend, o.offers, o.notices⟩

namespace Backend

/-- An answer to a request that was made without a frame; it is not offered to the outlet. -/
def answered (b : Backend) (a : Answer) : Outcome Report :=
  ⟨.response a.response, { b with store := a.store }, [], a.notices⟩

/-- A backend that only tells something. -/
def tells (b : Backend) (r : Report) : Outcome Report := ⟨r, b, [], []⟩

/-- Carries out one action. -/
def step (outlet : Outlet) (b : Backend) : Action → Outcome Report
  | .frame payload => (b.handleFrame outlet payload).map .frame
  | .start tag duration => b.answered (Rental.start b.terms b.clock b.store tag duration)
  | .finish tag => b.answered (Rental.finish b.clock b.store tag)
  | .status tag => b.tells (.response (Rental.status b.store tag))
  | .advance seconds =>
    let now := b.clock + seconds
    { b with clock := now }.tells (.clock now)
  | .setClock seconds => { b with clock := seconds }.tells (.clock seconds)
  | .sweep now => (b.sweepAt outlet now).map .sweep
  | .tick => (b.tick outlet).map .sweep
  | .expire now => { b with store := b.store.expired now }.tells (.pushes (b.store.overdue now))
  | .get tag => b.tells (.record (b.store.get? tag))
  | .clear => { b with store := b.store.clear }.tells (.removed b.store.size)
  | .console line =>
    let reply := Console.answer b.store line
    { b with store := reply.store }.tells (.printed reply.text reply.isLast)

/-- Carries out a history; the outcomes are in its order. -/
def run (outlet : Outlet) (b : Backend) : List Action → List (Outcome Report)
  | [] => []
  | a :: rest =>
    let o := b.step outlet a
    o :: run outlet o.backend rest

/-- The backend after a history. -/
def after (outlet : Outlet) (b : Backend) (history : List Action) : Backend :=
  history.foldl (fun b a => (b.step outlet a).backend) b

@[simp] theorem after_nil (outlet : Outlet) (b : Backend) : b.after outlet [] = b := rfl

@[simp] theorem after_cons (outlet : Outlet) (b : Backend) (a : Action) (rest : List Action) :
    b.after outlet (a :: rest) = (b.step outlet a).backend.after outlet rest := rfl

end Backend

end TagRental
