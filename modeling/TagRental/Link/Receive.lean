import TagRental.Gateway.Framing
import TagRental.Rental.Backend

/-!
# Receiving frames

The receive loop reads from the link, cuts what it reads into frames and has them handled in the
order in which they arrived.  What it does about an arrival is decided by `Loop.react` alone: frames
to handle, a rest before the next read, or the end of the loop.

Only two kinds of link are known.  A *connection* was accepted once and is over when it ends or
fails.  A *persistent* line is only quiet or disturbed when that happens: the loop rests and reads
on, with the bytes of an unfinished frame kept, and each further failure in a row doubles the rest
up to a cap.

## Cancellation

The loop asks whether it is cancelled before every read and before every frame, never in the middle
of one.  The single place where a frame can be left unfinished is while its answer is being written,
and then its effect on the table has already taken place.  When the cancellation fires is not for
the loop to decide: `Surroundings` says so as a function of how far the loop has come, and any such
function is allowed.
-/

namespace TagRental

/-- The kind of link. -/
inductive LinkKind where
  | persistent
  | connection
  deriving Repr, DecidableEq

/-- How a link is read. -/
structure ReceiveSettings where
  limit : Nat
  retry : Duration
  maxRetry : Duration
  deriving Repr, DecidableEq

/-- The settings where nothing else is said. -/
def ReceiveSettings.usual : ReceiveSettings :=
  ⟨Framer.defaultLimit, .ofMillis 100, .ofSeconds 5⟩

/-- Why the loop ended without a failure. -/
inductive ReceiveExit where
  | cancelled
  | closed
  deriving Repr, DecidableEq

/-- What one read brings. -/
inductive Arrival where
  | chunk (bytes : Bytes)
  | ended
  | failed (reason : String)
  deriving Repr, DecidableEq

/-- What the loop does next. -/
inductive Reaction where
  | handle (frames : List Bytes)
  | rest (delay : Duration)
  | leave (exit : Except LinkFault ReceiveExit)

/-- The loop between two reads. -/
structure Loop where
  settings : ReceiveSettings
  kind : LinkKind
  framer : Framer
  retry : Duration

namespace Loop

/-- The loop before its first read. -/
def start (settings : ReceiveSettings) (kind : LinkKind) : Loop :=
  ⟨settings, kind, .withLimit settings.limit, settings.retry⟩

/-- The most bytes of one read. -/
def readSize : Nat := 1024

/-- The loop after a rest: the next one is longer. -/
def rested (l : Loop) : Loop := { l with retry := .nextDelay l.retry l.settings.maxRetry }

/-- What the loop does about an arrival. -/
def react (l : Loop) : Arrival → Loop × Reaction × List Notice
  | .chunk bytes =>
    let fed := l.framer.feed bytes
    ({ l with framer := fed.next, retry := l.settings.retry }, .handle fed.frames,
      (fed.dropped.map fun n => Notice.tailDropped n l.framer.limit).toList)
  | .ended =>
    match l.kind with
    | .connection => (l, .leave (.ok .closed), [.connectionClosed])
    | .persistent => (l.rested, .rest l.retry, [])
  | .failed reason =>
    match l.kind with
    | .connection => (l, .leave (.error (.read reason)), [.readFailed reason])
    | .persistent => (l.rested, .rest l.retry, [.readRetried reason l.retry])

end Loop

/-! ## A run over a script -/

/-- How far a run has come. -/
structure Progress where
  reads : Nat
  frames : Nat
  offers : Nat
  deriving Repr, DecidableEq

/-- What the loop cannot know: what becomes of each answer, whether the cancellation has fired by
the time the loop asks, and whether it fires while an answer is being written. -/
structure Surroundings where
  outlet : Outlet
  fired : Progress → Bool
  abandoned : Nat → Response → Bool

/-- What the other side of the link does, in order. -/
inductive Happening where
  | data (bytes : Bytes)
  | ended
  | failed (reason : String)
  | quiet (millis : Nat)
  | cancel
  deriving Repr, DecidableEq

/-- What is seen of a run. -/
inductive Sight where
  | read (count : Nat)
  | ended
  | failed
  | sent (response : Response)
  | cancelled
  | returned
  deriving DecidableEq

/-- A run in progress.  `seen`, `offers` and `notices` hold the last entry first. -/
structure Run where
  backend : Backend
  loop : Loop
  millis : Nat
  progress : Progress
  seen : List (Nat × Sight)
  offers : List Offer
  notices : List Notice

/-- A run that is over. -/
structure RunEnd where
  exit : Except LinkFault ReceiveExit
  run : Run

namespace Run

/-- Notes what is seen now. -/
def see (r : Run) (s : Sight) : Run := { r with seen := (r.millis, s) :: r.seen }

/-- Notes what is logged. -/
def log (r : Run) (ns : List Notice) : Run := { r with notices := ns.reverse ++ r.notices }

/-- The end of a run. -/
def leave (r : Run) (exit : Except LinkFault ReceiveExit) : RunEnd := ⟨exit, r.see .returned⟩

/-- Records an answer that was offered. -/
def offer (r : Run) (o : Offer) : Run :=
  let r := { r with
    offers := o :: r.offers
    progress := { r.progress with offers := r.progress.offers + 1 } }
  if o.isSent then r.see (.sent o.response) else r

/-- Handles frames one after another; the second component says whether the loop was cancelled on
the way. -/
def handleFrames (s : Surroundings) : Run → List Bytes → Run × Bool
  | r, [] => (r, false)
  | r, frame :: frames =>
    if s.fired r.progress then (r, true)
    else
      let out := r.backend.handleFrame s.outlet frame
      let before := r.backend.noticesBeforeOffer frame
      let r := { r with
        backend := out.backend
        progress := { r.progress with frames := r.progress.frames + 1 } }
      match out.offers with
      | [] => handleFrames s (r.log out.notices) frames
      | o :: _ =>
        if s.abandoned r.progress.offers o.response then
          ((r.log before).offer ⟨o.response, some .cancelled⟩, true)
        else handleFrames s ((r.log out.notices).offer o) frames

/-- Takes in what a read brings; nothing means that the loop reads on. -/
def arrive (s : Surroundings) (r : Run) (a : Arrival) :
    Run × Option (Except LinkFault ReceiveExit) :=
  let r := { r with progress := { r.progress with reads := r.progress.reads + 1 } }
  let r := match a with
    | .chunk bytes => r.see (.read bytes.length)
    | .ended => r.see .ended
    | .failed _ => r.see .failed
  match r.loop.react a with
  | (loop, reaction, notices) =>
    let r := { r with loop := loop }.log notices
    match reaction with
    | .handle frames =>
      match r.handleFrames s frames with
      | (r, true) => (r, some (.ok .cancelled))
      | (r, false) => (r, none)
    | .rest delay => ({ r with millis := r.millis + delay.millis }, none)
    | .leave exit => (r, some exit)

/-- Runs the loop over a script whose data comes in pieces that one read can take.  The end of the
script cancels the loop. -/
def follow (s : Surroundings) (r : Run) : List Happening → RunEnd
  | [] =>
    if s.fired r.progress then r.leave (.ok .cancelled)
    else (r.see .cancelled).leave (.ok .cancelled)
  | h :: rest =>
    if s.fired r.progress then r.leave (.ok .cancelled)
    else
      let read (a : Arrival) : RunEnd :=
        match r.arrive s a with
        | (r, some exit) => r.leave exit
        | (r, none) => follow s r rest
      match h with
      | .data bytes => read (.chunk bytes)
      | .ended => read .ended
      | .failed reason => read (.failed reason)
      | .quiet millis => follow s { r with millis := r.millis + millis } rest
      | .cancel => (r.see .cancelled).leave (.ok .cancelled)

/-- A run before its first read. -/
def start (backend : Backend) (settings : ReceiveSettings) (kind : LinkKind) : Run :=
  ⟨backend, .start settings kind, 0, ⟨0, 0, 0⟩, [], [], []⟩

end Run

/-- Cuts bytes into pieces of at most `n`, none of them empty. -/
def pieces (n : Nat) (bytes : Bytes) : List Bytes :=
  if _h : 0 < n ∧ 0 < bytes.length then bytes.take n :: pieces n (bytes.drop n) else []
termination_by bytes.length
decreasing_by simp only [List.length_drop]; omega

/-- The happening as single reads see it. -/
def Happening.reads : Happening → List Happening
  | .data bytes => (pieces Loop.readSize bytes).map .data
  | other => [other]

/-- Runs the receive loop over a script. -/
def receive (s : Surroundings) (backend : Backend) (settings : ReceiveSettings) (kind : LinkKind)
    (script : List Happening) : RunEnd :=
  (Run.start backend settings kind).follow s (script.flatMap Happening.reads)

end TagRental
