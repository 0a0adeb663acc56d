import TagRental.Service.Conversation

/-!
# Attending to a link

The two tasks of a served link decide what happens, but they neither read nor write: somebody has to
carry bytes between them and the transport, and to wake them in time.  `Attended` is the state of
that somebody, and `Attended.round` one round of the work: something has happened, the tasks run
until both wait, and what they wait for becomes a list of errands.

No more than one read and one delivery are under way at a time.  Bytes that are written and not yet
delivered are kept, but only so many; once there is no room left, writing waits, and with it the
task that writes.  A transport that refuses a delivery is never offered another one: every later
write fails with its reason.
-/

namespace TagRental

namespace Service

/-- Does the receiver wait for something to read? -/
def wantsInput (s : Service) : Bool :=
  match s.receiver with
  | .reading => !s.writer.cancelled
  | _ => false

/-- The receiver takes in what a read has brought, if it waits for that. -/
def takeIn (s : Service) (a : Arrival) : Service := if s.wantsInput then s.arrive a else s

end Service

/-- What can happen to a link. -/
inductive LinkEvent where
  | opened
  | arrived (arrival : Arrival)
  | delivered
  | refused (fault : ChannelFault)
  | timeUp
  | stop
  deriving Repr, DecidableEq, Inhabited

/-- What is to be done for a link: bytes to deliver, if any, whether to read, the time of the next
round if nothing happens before it, what to log, and whether there is nothing left to do. -/
structure Errands where
  deliver : Bytes
  read : Bool
  wake? : Option Nat
  notices : List Notice
  isOver : Bool

/-- A link that is attended to.  Of the written bytes the first `delivered` are with the transport,
and the next `underWay` are on their way to it. -/
structure Attended where
  service : Service
  delivered : Nat
  underWay : Nat
  isReading : Bool
  refusal? : Option ChannelFault

namespace Attended

/-- A link before the first round. -/
def start (settings : ServiceSettings) (kind : LinkKind) : Attended :=
  ⟨.opened settings kind 0, 0, 0, false, none⟩

/-- The most bytes that are kept. -/
def capacity : Nat := 65536

/-- The channel on which the tasks write. -/
def channel (a : Attended) : Channel :=
  match a.refusal? with
  | none => pipeChannel capacity a.delivered
  | some fault => ⟨fun _ _ => .fails fault, fun _ => .done⟩

/-- What happens changes. -/
def hear (a : Attended) : LinkEvent → Attended
  | .opened | .timeUp => a
  | .arrived arrival => { a with isReading := false, service := a.service.takeIn arrival }
  | .delivered => { a with delivered := a.delivered + a.underWay, underWay := 0 }
  | .refused fault => { a with underWay := 0, refusal? := some fault }
  | .stop => { a with service := { a.service with writer := a.service.writer.cancel } }

/-- Forgets the bytes that were delivered once there are no others. -/
def forget (a : Attended) : Attended :=
  let writer := a.service.writer
  if a.delivered = writer.seen.bytes.length then
    { a with
      delivered := 0
      service := { a.service with writer := { writer with seen := ⟨writer.seen.calls, []⟩ } } }
  else a

/-- The link at a later moment, with another time of day. -/
def later (a : Attended) (millis : Nat) (clock : UInt64) : Attended :=
  let s := a.service
  { a with service := { s with
    millis := max s.millis millis
    backend := { s.backend with clock := clock } } }

/-- The tasks run until both wait. -/
def settle (a : Attended) : Attended := { a with service := a.service.settle a.channel }

/-- The bytes to deliver now. -/
def outbound (a : Attended) : Bytes :=
  if 0 < a.underWay ∨ a.refusal?.isSome then []
  else a.service.writer.seen.bytes.drop a.delivered

/-- The errands after a round. -/
def errands (a : Attended) : Errands :=
  { deliver := a.outbound
    read := a.service.wantsInput && !a.isReading
    wake? := a.service.wakeTimes.min?
    notices := a.service.notices.reverse
    isOver := a.service.isOver }

/-- The link while its errands are done. -/
def sentOff (a : Attended) (e : Errands) : Attended :=
  { a with
    underWay := a.underWay + e.deliver.length
    isReading := a.isReading || e.read
    service := { a.service with notices := [] } }

/-- One round. -/
def round (a : Attended) (millis : Nat) (clock : UInt64) (event : LinkEvent) :
    Attended × Errands :=
  let a := ((a.later millis clock).hear event).forget.settle
  let e := a.errands
  (a.sentOff e, e)

/-- The operator types something; the table may change. -/
def operate (a : Attended) (typed : Bytes) : Attended × Console.Dialogue :=
  let d := Console.Dialogue.run .unlimited a.service.backend.store typed .endOfInput
  ({ a with service := { a.service with backend :=
    { a.service.backend with store := d.store } } }, d)

end Attended

end TagRental
