import TagRental.Console.Dialogue
import TagRental.Service.Tasks

/-!
# A gateway at the other end

The gateway and the backend are joined by a pipe that holds a limited number of bytes in each
direction.  Here the gateway is a script: it sends, lets time pass, closes its side; the clock is
set, the operator types a line, the link is cancelled.  After each part of the script the backend
runs until it waits, and then the gateway reads whatever has been written --- unless it is
*stalled*: then it reads nothing until the link is cancelled.

A gateway that sends more than the pipe takes has to wait for the backend to read.  Once the backend
waits as well, both would wait for ever, and the send is given up with the rest unsent.
-/

namespace TagRental

/-- One part of a script. -/
inductive Part where
  | send (data : Bytes)
  | clock (seconds : UInt64)
  | wait (millis : Nat)
  | close
  | console (line : String)
  | cancel
  deriving Repr, DecidableEq

/-- The channel of a pipe out of which so many bytes were read. -/
def pipeChannel (capacity taken : Nat) : Channel where
  write seen offered :=
    let room := capacity + taken - seen.bytes.length
    if room = 0 then .waits else .takes (min room offered)
  flush _ := .done

/-- A conversation: the backend's side, and the gateway's --- how many bytes it has read, the end of
them that is no complete line yet, and whether it has closed its side. -/
structure Conversation where
  capacity : Nat
  stalled : Bool
  service : Service
  taken : Nat
  partialLine : Bytes
  closed : Bool

/-- What a part of a script comes to: the lines that the gateway has read, what was logged, and, if
they apply, the operator's answer, whether a send was given up, and why it failed. -/
structure Exchange where
  lines : List Bytes
  notices : List Notice
  reply : Option (String × Bool)
  isBlocked : Bool
  fault : Option ChannelFault

namespace Conversation

/-- The channel on which the backend writes now. -/
def channel (k : Conversation) : Channel := pipeChannel k.capacity k.taken

/-- The backend runs until it waits. -/
def settle (k : Conversation) : Conversation := { k with service := k.service.settle k.channel }

/-- The bytes that are written and not read yet. -/
def unread (k : Conversation) : Bytes := k.service.writer.seen.bytes.drop k.taken

/-- The gateway reads, the backend runs, and so on until there is nothing to read.  The first
argument bounds the number of rounds. -/
def readAll : Nat → Conversation → Bytes → Conversation × Bytes
  | 0, k, read => (k, read)
  | fuel + 1, k, read =>
    let bytes := k.unread
    if bytes.isEmpty then (k, read)
    else readAll fuel ({ k with taken := k.taken + bytes.length }).settle (read ++ bytes)

/-- The most rounds in which the gateway can find something to read: each brings at least one byte
of an answer or of a push. -/
def roundBound (k : Conversation) : Nat := 256 * k.service.workBound + k.unread.length + 1

/-- The complete lines of what was read, with their delimiters. -/
def takeLines (k : Conversation) (bytes : Bytes) : Conversation × List Bytes :=
  let all := k.partialLine ++ bytes
  ({ k with partialLine := openSegment all },
    (completeSegments all).map fun line => line ++ [delimiter])

/-- The gateway reads what there is, unless it is stalled. -/
def read (k : Conversation) : Conversation × List Bytes :=
  if k.stalled && !k.service.writer.cancelled then (k, [])
  else
    let (k, bytes) := readAll k.roundBound k []
    k.takeLines bytes

/-- The gateway sends; the backend runs whenever the pipe is full.  Returns whether the send was
given up.  The first argument bounds the number of rounds. -/
def sendAll : Nat → Conversation → Bytes → Conversation × Bool
  | 0, k, data => (k, !data.isEmpty)
  | fuel + 1, k, data =>
    if data.isEmpty then (k, false)
    else
      let room := k.capacity - k.service.inbound.length
      if room = 0 then (k, true)
      else
        let s := { k.service with inbound := k.service.inbound ++ data.take room }
        sendAll fuel ({ k with service := s }).settle (data.drop room)

/-- An exchange in which nothing but reading happens. -/
def quiet : Exchange := ⟨[], [], none, false, none⟩

/-- The part itself, without what the gateway reads afterwards. -/
def act (k : Conversation) : Part → Conversation × Exchange
  | .send data =>
    if data.isEmpty then (k, quiet)
    else if k.closed || k.service.isOver then (k, { quiet with fault := some .closed })
    else
      let (k, isBlocked) := sendAll data.length k data
      (k, { quiet with isBlocked := isBlocked })
  | .clock seconds =>
    ({ k with service := { k.service with backend :=
      { k.service.backend with clock := seconds } } }, quiet)
  | .wait millis => ({ k with service := k.service.pass k.channel millis }, quiet)
  | .close =>
    ({ k with closed := true, service := { k.service with inboundEnded := true } }, quiet)
  | .console line =>
    let r := Console.answer k.service.backend.store line
    ({ k with service := { k.service with backend :=
      { k.service.backend with store := r.store } } },
      { quiet with reply := some (r.text, r.isLast) })
  | .cancel => ({ k with service := { k.service with writer := k.service.writer.cancel } }, quiet)

/-- One part of a script. -/
def step (k : Conversation) (p : Part) : Conversation × Exchange :=
  let (k, e) := k.act p
  let (k, lines) := k.settle.read
  let notices := k.service.notices.reverse
  ({ k with service := { k.service with notices := [] } },
    { e with lines := lines, notices := notices })

/-- A conversation over a link that was opened just now. -/
def start (capacity : Nat) (stalled : Bool) (settings : ServiceSettings) (kind : LinkKind)
    (clock : UInt64) : Conversation :=
  ({ capacity := capacity
     stalled := stalled
     service := .opened settings kind clock
     taken := 0
     partialLine := []
     closed := false } : Conversation).settle

end Conversation

end TagRental
