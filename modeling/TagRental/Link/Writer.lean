import TagRental.Link.Fault
import TagRental.Text.Utf8

/-!
# Writing bytes to a channel

A channel takes as many of the offered bytes as it likes, one call after another.  A `Channel` is
what is known of it: the answer to the next call, as a function of the calls and bytes it has seen
and of the number of bytes offered.  Any behaviour whatever can be written down this way.

`Channel.push` offers bytes until all are taken, a call fails, or the channel makes the caller wait;
in the last case it says what is still to be written.  A call that takes nothing although something
was offered is a failure, so every round makes the rest shorter.

After the last byte the channel is flushed, which may also fail or make the caller wait.  Whoever
waits for a flush has nothing left to write, and only flushes when asked again.
-/

namespace TagRental

/-- The answer to one write call. -/
inductive WriteReply where
  | takes (count : Nat)
  | fails (fault : ChannelFault)
  | waits
  deriving Repr, DecidableEq

/-- The answer to a flush. -/
inductive FlushReply where
  | done
  | fails (fault : ChannelFault)
  | waits
  deriving Repr, DecidableEq

/-- What a channel has seen so far: the number of calls, flushes among them, and the bytes. -/
structure Written where
  calls : Nat
  bytes : Bytes
  deriving Repr, DecidableEq

/-- How a channel answers the next write call, and a flush. -/
structure Channel where
  write : Written → Nat → WriteReply
  flush : Written → FlushReply

/-- How an attempt to write ends. -/
inductive WriteEnd where
  | finished
  | failed (fault : ChannelFault)
  | waiting (rest : Bytes)
  deriving Repr, DecidableEq

namespace Channel

/-- Offers bytes until they are all taken or the channel stops taking them. -/
def push (c : Channel) (seen : Written) (bytes : Bytes) : Written × WriteEnd :=
  if bytes.isEmpty then (seen, .finished)
  else
    match c.write seen bytes.length with
    | .waits => ({ seen with calls := seen.calls + 1 }, .waiting bytes)
    | .fails fault => ({ seen with calls := seen.calls + 1 }, .failed fault)
    | .takes count =>
      if _h : 0 < count ∧ 0 < bytes.length then
        c.push ⟨seen.calls + 1, seen.bytes ++ bytes.take count⟩ (bytes.drop count)
      else ({ seen with calls := seen.calls + 1 }, .failed .nothingWritten)
termination_by bytes.length
decreasing_by simp only [List.length_drop]; omega

/-- Flushes, after everything was written. -/
def settle (c : Channel) (seen : Written) : Written × WriteEnd :=
  let flushed := { seen with calls := seen.calls + 1 }
  match c.flush seen with
  | .done => (flushed, .finished)
  | .fails fault => (flushed, .failed fault)
  | .waits => (flushed, .waiting [])

/-- Writes bytes and flushes. -/
def send (c : Channel) (seen : Written) (bytes : Bytes) : Written × WriteEnd :=
  match c.push seen bytes with
  | (seen, .finished) => c.settle seen
  | (seen, other) => (seen, other)

/-- What a channel does when it is full. -/
inductive WhenFull where
  | refuses
  | takesNothing
  | waits
  deriving Repr, DecidableEq

/-- A channel that takes at most so many bytes in a call and so many in all. -/
def bounded (chunk capacity : Option Nat) (whenFull : WhenFull) (flushRefused : Bool) :
    Channel where
  write seen offered :=
    let room := match capacity with
      | none => offered
      | some n => n - seen.bytes.length
    if room = 0 then
      match whenFull with
      | .refuses => .fails ⟨.brokenPipe, "writer full"⟩
      | .takesNothing => .takes 0
      | .waits => .waits
    else .takes (min (min room offered) (chunk.getD offered))
  flush _ := if flushRefused then .fails ⟨.other, "flush refused"⟩ else .done

/-- A channel that takes everything. -/
def unlimited : Channel := bounded none none .waits false

end Channel

end TagRental
