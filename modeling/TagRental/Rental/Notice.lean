import TagRental.Gateway.Message
import TagRental.Link.Duration
import TagRental.Link.Fault

/-!
# What is logged

The lines that the backend logs as warnings or errors, as values: what happened first, its wording
in one function afterwards.  Nothing else in the library depends on the wording.
-/

namespace TagRental

/-- Something that an operator should be able to find in the log. -/
inductive Notice where
  | tailDropped (length limit : Nat)
  | remark (remark : Message.Remark)
  | frameDropped (fault : Message.Fault) (payload : Bytes)
  | unknownCommand (code : UInt64)
  | outboundCommand (code : UInt64)
  | startRejected (tag : Tag) (since duration : UInt64)
  | endUnknown (tag : Tag)
  | endIgnored (tag : Tag) (status : Status)
  | replyLost (tag : Tag) (fault : LinkFault)
  | pushLost (tag : Tag) (fault : LinkFault)
  | connectionClosed
  | readFailed (reason : String)
  | readRetried (reason : String) (delay : Duration)
  | linkClosed
  | receiveFailed (fault : LinkFault)
  | openRetried (device : String) (baud : Nat) (reason : String) (delay : Duration)

/-- The line in the log. -/
def Notice.text : Notice → String
  | tailDropped length limit => s!"framing: dropping unterminated tail len={length} max={limit}"
  | remark r => r.text
  | frameDropped fault payload =>
    "dispatch: dropping frame err=" ++ fault.text ++ " payload=" ++ Utf8.lossy payload
  | unknownCommand code => s!"dispatch: unknown command cmd={code}"
  | outboundCommand code => s!"dispatch: ignoring outbound-only command cmd={code}"
  | startRejected tag since duration =>
    s!"rental: start rejected tag={tag} already rented since={since} duration={duration}"
  | endUnknown tag => s!"rental: end for unknown tag={tag}"
  | endIgnored tag status => s!"rental: end ignored tag={tag} status={status}"
  | replyLost tag fault =>
    s!"dispatch: failed to send response tag={tag} err=" ++ fault.text
  | pushLost tag fault => s!"expiry: push failed tag={tag} err=" ++ fault.text
  | connectionClosed => "receive: connection closed by peer"
  | readFailed reason => "receive: read error err=" ++ reason
  | readRetried reason delay => "receive: read error err=" ++ reason ++ " retry_in=" ++ delay.text
  | linkClosed => "backend: gateway link closed; expiry keeps running"
  | receiveFailed fault => "backend: receive task failed err=" ++ fault.text
  | openRetried device baud reason delay =>
    s!"serial: failed to open device={device} baud_rate={baud} err={reason} retry_in=" ++ delay.text

end TagRental
