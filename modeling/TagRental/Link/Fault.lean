/-!
# Failures of the link and of other channels

What can go wrong between the backend and the gateway, and on any other channel that bytes are read
from or written to.  A conflict of rentals is no failure: it is answered like any other request.
-/

namespace TagRental

/-- The kinds of failure of a channel. -/
inductive ChannelFault.Kind where
  | notFound
  | brokenPipe
  | writeZero
  | invalidData
  | invalidInput
  | other
  deriving Repr, DecidableEq

/-- A failure of a channel: its kind and the channel's own words. -/
structure ChannelFault where
  kind : ChannelFault.Kind
  reason : String
  deriving Repr, DecidableEq

namespace ChannelFault

/-- The name of a kind. -/
def Kind.name : Kind → String
  | notFound => "NotFound"
  | brokenPipe => "BrokenPipe"
  | writeZero => "WriteZero"
  | invalidData => "InvalidData"
  | invalidInput => "InvalidInput"
  | other => "Other"

/-- A write that took nothing. -/
def nothingWritten : ChannelFault := ⟨.writeZero, "write zero"⟩

/-- A write to a channel whose other end is closed. -/
def closed : ChannelFault := ⟨.brokenPipe, "broken pipe"⟩

end ChannelFault

/-- A failure of the link, with the transport's own words where it is the transport that failed. -/
inductive LinkFault where
  | read (reason : String)
  | write (reason : String)
  | cancelled
  deriving Repr, DecidableEq

namespace LinkFault

/-- The sentence that reports a failure. -/
def text : LinkFault → String
  | read reason => "transport read error: " ++ reason
  | write reason => "transport write error: " ++ reason
  | cancelled => "link cancelled before the frame was written"

/-- Did the transport itself fail? -/
def isTransport : LinkFault → Bool
  | read _ | write _ => true
  | cancelled => false

end LinkFault

end TagRental
