import TagRental.Rental.Lifecycle

/-!
# From a frame to a request

A frame is decoded and, if it asks for something, carried out.  Everything else is dropped with a
note: what is no message, what no command is known for, and the two commands that only the backend
sends --- which is what keeps it calm when its own output comes back to it.

`handle` stops short of sending.  What it returns is complete before the response is offered to the
link, so whatever becomes of the response, the table is the one returned here.
-/

namespace TagRental

/-- What a frame comes to: the response that it is to be answered with, if it is, the table
afterwards, and what is logged. -/
structure Handling where
  response? : Option Response
  store : Store
  notices : List Notice

namespace Dispatch

/-- An answered request. -/
def answered (a : Answer) : Handling := ⟨some a.response, a.store, a.notices⟩

/-- Carries out a command. -/
def carryOut (terms : Terms) (now : UInt64) (store : Store) : Command → Handling
  | .rentalStart tag duration => answered (Rental.start terms now store tag duration)
  | .rentalEnd tag => answered (Rental.finish now store tag)
  | .statusRequest tag => ⟨some (Rental.status store tag), store, []⟩
  | .unknown code => ⟨none, store, [.unknownCommand code]⟩
  | .statusResponse _ => ⟨none, store, [.outboundCommand 4]⟩
  | .error => ⟨none, store, [.outboundCommand 255]⟩

/-- Decodes a frame and carries it out. -/
def handle (terms : Terms) (now : UInt64) (store : Store) (payload : Bytes) : Handling :=
  let reading := Message.decode payload
  let remarks := reading.remarks.map Notice.remark
  match reading.result with
  | .error fault => ⟨none, store, remarks ++ [.frameDropped fault payload]⟩
  | .ok message =>
    let done := carryOut terms now store message.command
    { done with notices := remarks ++ done.notices }

end Dispatch

end TagRental
