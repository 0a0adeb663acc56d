import TagRental.Link.SharedWriter
import TagRental.Service.Settings

/-!
# The two tasks of a served link

A link is served by two tasks at once.  The *receiver* reads what the gateway sends, carries out
frame after frame and answers each before it looks at the next; the *monitor* sweeps the table at
regular times and tells the gateway what has expired.  They share the table and the writer.

A task is a small machine, and `Service.step` is one step of one of them: a step on the table, or
one poll of a send.  These are kept apart because the tasks are: between the step that changes the
table and the send that reports it, the other task may take steps of its own.  A schedule is a list
of tasks, and every schedule is possible.

## When a task waits

A step that cannot go on --- nothing has arrived, the writer is held by the other task, the channel
takes nothing, it is not time yet --- says so and leaves everything else as it is.  When the link is
cancelled, both tasks leave at their next step, whatever they were doing; a frame that was only
partly written stays as it is.

## The times of the sweeps

The first sweep is due at once, and each further one a period after the one before was due.  If the
monitor was held up by more than five milliseconds, it counts the period from the present instead,
so that missed sweeps are not made up for.
-/

namespace TagRental

/-- The two tasks. -/
inductive Service.Task where
  | receiver
  | monitor
  deriving Repr, DecidableEq

/-- What the receiver is doing.  The frames are those that it has cut and not carried out yet. -/
inductive Receiver where
  | reading
  | handling (frames : List Bytes)
  | replying (send : Nat) (response : Response) (frames : List Bytes)
  | resting (wake : Nat)
  | left

/-- What the monitor is doing: waiting for a time, or pushing what a sweep found, with the time of
the next one. -/
inductive Monitor where
  | waiting (due : Nat)
  | pushing (next send : Nat) (pushes : List Response)
  | left

/-- A served link.  `millis` is the time since it was opened, `inbound` is what has arrived and was
not read yet, and `notices` holds the last one first. -/
structure Service where
  interval : Duration
  backend : Backend
  loop : Loop
  millis : Nat
  inbound : Bytes
  inboundEnded : Bool
  writer : SharedWriter
  receiver : Receiver
  monitor : Monitor
  notices : List Notice

namespace Service

/-- A link that was opened just now. -/
def opened (settings : ServiceSettings) (kind : LinkKind) (clock : UInt64) : Service :=
  { interval := settings.interval
    backend := .start settings.terms clock
    loop := .start settings.receive kind
    millis := 0
    inbound := []
    inboundEnded := false
    writer := .fresh
    receiver := .reading
    monitor := .waiting 0
    notices := [] }

/-- Notes what is logged. -/
def log (s : Service) (ns : List Notice) : Service := { s with notices := ns.reverse ++ s.notices }

/-- A task that goes on. -/
def goesOn (s : Service) : Service × Bool := (s, true)

/-- A task that waits. -/
def waits (s : Service) : Service × Bool := (s, false)

/-- Gives a number to a send that begins. -/
def beginSend (s : Service) : Service × Nat :=
  ({ s with backend := { s.backend with offered := s.backend.offered + 1 } }, s.backend.offered)

/-! ## The receiver -/

/-- The receiver takes in what a read brought. -/
def arrive (s : Service) (a : Arrival) : Service :=
  match s.loop.react a with
  | (loop, reaction, notices) =>
    let s := { s with loop := loop }.log notices
    match reaction with
    | .handle frames => { s with receiver := .handling frames }
    | .rest delay => { s with receiver := .resting (s.millis + delay.millis) }
    | .leave (.ok .cancelled) => { s with receiver := .left }
    | .leave (.ok .closed) => { s with receiver := .left }.log [.linkClosed]
    | .leave (.error fault) => { s with receiver := .left }.log [.receiveFailed fault]

/-- The receiver reads. -/
def read (s : Service) : Service × Bool :=
  if s.inbound.isEmpty then if s.inboundEnded then (s.arrive .ended).goesOn else s.waits
  else
    let chunk := s.inbound.take Loop.readSize
    ({ s with inbound := s.inbound.drop Loop.readSize }.arrive (.chunk chunk)).goesOn

/-- The receiver carries out a frame. -/
def carryOut (s : Service) (frame : Bytes) (frames : List Bytes) : Service :=
  let h := Dispatch.handle s.backend.terms s.backend.clock s.backend.store frame
  let s := { s with backend := { s.backend with store := h.store } }.log h.notices
  match h.response? with
  | none => { s with receiver := .handling frames }
  | some response =>
    let (s, send) := s.beginSend
    { s with receiver := .replying send response frames }

/-- The receiver sends an answer. -/
def reply (c : Channel) (s : Service) (send : Nat) (response : Response) (frames : List Bytes) :
    Service × Bool :=
  match s.writer.poll c send response.encode with
  | (w, none) => { s with writer := w }.waits
  | (w, some (.ok ())) => { s with writer := w, receiver := .handling frames }.goesOn
  | (w, some (.error fault)) =>
    ({ s with writer := w, receiver := .handling frames }.log
      [.replyLost response.tag fault]).goesOn

/-- The receiver leaves a cancelled link. -/
def receiverLeaves (s : Service) : Service :=
  match s.receiver with
  | .replying send _ _ => { s with receiver := .left, writer := s.writer.release send }
  | _ => { s with receiver := .left }

/-- One step of the receiver. -/
def receiverStep (c : Channel) (s : Service) : Service × Bool :=
  match s.receiver, s.writer.cancelled with
  | .left, _ => s.waits
  | _, true => s.receiverLeaves.goesOn
  | .reading, false => s.read
  | .handling [], false => { s with receiver := .reading }.goesOn
  | .handling (frame :: frames), false => (s.carryOut frame frames).goesOn
  | .replying send response frames, false => s.reply c send response frames
  | .resting wake, false =>
    if s.millis < wake then s.waits else { s with receiver := .reading }.goesOn

/-! ## The monitor -/

/-- How late a sweep may be without moving the next one. -/
def tolerance : Nat := 5

/-- When the sweep after one that was due is due. -/
def nextDue (s : Service) (due : Nat) : Nat :=
  if s.millis ≤ due + tolerance then due + s.interval.millis else s.millis + s.interval.millis

/-- The monitor goes on to its pushes, or waits for the next sweep if there are none. -/
def pushNext (s : Service) (next : Nat) (pushes : List Response) : Service :=
  match pushes with
  | [] => { s with monitor := .waiting next }
  | _ :: _ =>
    let (s, send) := s.beginSend
    { s with monitor := .pushing next send pushes }

/-- The monitor sweeps the table. -/
def sweep (s : Service) (due : Nat) : Service :=
  let now := s.backend.clock
  let pushes := s.backend.store.overdue now
  let next := s.nextDue due
  { s with backend := { s.backend with store := s.backend.store.expired now } }.pushNext next pushes

/-- The monitor sends the first of its pushes. -/
def push (c : Channel) (s : Service) (next send : Nat) (response : Response)
    (pushes : List Response) : Service × Bool :=
  match s.writer.poll c send response.encode with
  | (w, none) => { s with writer := w }.waits
  | (w, some (.ok ())) => ({ s with writer := w }.pushNext next pushes).goesOn
  | (w, some (.error fault)) =>
    (({ s with writer := w }.log [.pushLost response.tag fault]).pushNext next pushes).goesOn

/-- The monitor leaves a cancelled link. -/
def monitorLeaves (s : Service) : Service :=
  match s.monitor with
  | .pushing _ send _ => { s with monitor := .left, writer := s.writer.release send }
  | _ => { s with monitor := .left }

/-- One step of the monitor. -/
def monitorStep (c : Channel) (s : Service) : Service × Bool :=
  match s.monitor, s.writer.cancelled with
  | .left, _ => s.waits
  | _, true => s.monitorLeaves.goesOn
  | .waiting due, false => if s.millis < due then s.waits else (s.sweep due).goesOn
  | .pushing next _ [], false => { s with monitor := .waiting next }.goesOn
  | .pushing next send (response :: pushes), false => s.push c next send response pushes

/-! ## Schedules -/

/-- One step of one task; the second component says whether the task can go on. -/
def step (c : Channel) (s : Service) : Task → Service × Bool
  | .receiver => s.receiverStep c
  | .monitor => s.monitorStep c

/-- A schedule. -/
def steps (c : Channel) (s : Service) (schedule : List Task) : Service :=
  schedule.foldl (fun s t => (s.step c t).1) s

/-- Have both tasks left? -/
def isOver (s : Service) : Bool :=
  match s.receiver, s.monitor with
  | .left, .left => true
  | _, _ => false

/-- The frames that wait to be carried out. -/
def waitingFrames (s : Service) : Nat :=
  match s.receiver with
  | .handling frames | .replying _ _ frames => frames.length
  | _ => 0

/-- The pushes that wait to be sent. -/
def waitingPushes (s : Service) : Nat :=
  match s.monitor with
  | .pushing _ _ pushes => pushes.length
  | _ => 0

/-- How late the next sweep is. -/
def lateness (s : Service) : Nat :=
  match s.monitor with
  | .waiting due | .pushing due _ _ => s.millis + 1 - due
  | .left => 0

/-- More steps than both tasks can take before they wait: each byte that has arrived is at most one
frame, each frame at most one record, and a sweep pushes each record at most once. -/
def workBound (s : Service) : Nat :=
  let frames := s.inbound.length + s.waitingFrames
  4 * (frames + s.waitingPushes + 4) +
    (s.lateness + 1) * (2 * (s.backend.store.size + frames) + 4)

/-- Lets one task take steps until it waits; the second component says whether it took any. -/
def runTask (c : Channel) (t : Task) : Nat → Service → Bool → Service × Bool
  | 0, s, moved => (s, moved)
  | fuel + 1, s, moved =>
    match s.step c t with
    | (s, true) => runTask c t fuel s true
    | (s, false) => (s, moved)

/-- Lets both tasks take turns until both wait. -/
def takeTurns (c : Channel) : Nat → Service → Service
  | 0, s => s
  | fuel + 1, s =>
    let (s, a) := runTask c .receiver s.workBound s false
    let (s, b) := runTask c .monitor s.workBound s false
    if a || b then takeTurns c fuel s else s

/-- Lets both tasks run until both wait. -/
def settle (c : Channel) (s : Service) : Service := takeTurns c s.workBound s

/-! ## Time -/

/-- The times at which a waiting task wakes. -/
def wakeTimes (s : Service) : List Nat :=
  (match s.receiver with
    | .resting wake => [wake]
    | _ => []) ++
  match s.monitor with
  | .waiting due => [due]
  | _ => []

/-- The first time, no later than the given one, at which a task wakes. -/
def nextWake? (s : Service) (last : Nat) : Option Nat :=
  (s.wakeTimes.filter (· ≤ last)).min?

/-- Lets time pass up to a given moment, and the tasks run whenever one of them wakes. -/
def passUntil (c : Channel) (last : Nat) : Nat → Service → Service
  | 0, s => s
  | fuel + 1, s =>
    match s.nextWake? last with
    | none => { s with millis := last }
    | some wake => passUntil c last fuel (settle c { s with millis := max s.millis wake })

/-- Lets so many milliseconds pass. -/
def pass (c : Channel) (millis : Nat) (s : Service) : Service :=
  passUntil c (s.millis + millis) (2 * millis + 2) s

end Service

end TagRental
