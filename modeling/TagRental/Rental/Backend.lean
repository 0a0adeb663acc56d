import TagRental.Rental.Dispatch
import TagRental.Rental.Expiry

/-!
# The backend and its outlet

The backend's state is the table, the clock, the terms, and the number of responses it has offered
so far.  Responses go to an *outlet*, of which only one thing is known: what becomes of each offer.
An `Outlet` is that function, of the number of the offer and of the response, so any pattern of
failures whatever is an outlet, and a statement about all outlets is a statement about all patterns.

Every operation returns the offers it made, each with its fate, and what was logged.  The table is
never read from a fate.
-/

namespace TagRental

/-- What becomes of the `n`-th response offered: nothing means that it was sent. -/
abbrev Outlet := Nat → Response → Option LinkFault

/-- An offered response and its fate. -/
structure Offer where
  response : Response
  fault? : Option LinkFault
  deriving DecidableEq

/-- Was the offered response sent? -/
def Offer.isSent (o : Offer) : Bool := o.fault?.isNone

/-- The backend between two operations. -/
structure Backend where
  terms : Terms
  clock : UInt64
  store : Store
  offered : Nat

/-- What one operation leaves behind: a result, the backend afterwards, the offers and the log. -/
structure Outcome (α : Type) where
  result : α
  backend : Backend
  offers : List Offer
  notices : List Notice

/-- What became of a frame. -/
inductive FrameOutcome where
  | replied (status : Status)
  | dropped
  | sendFailed
  deriving Repr, DecidableEq

/-- The count of one sweep. -/
structure SweepReport where
  expired : Nat
  pushed : Nat
  failed : Nat
  deriving Repr, DecidableEq

namespace Backend

/-- A backend with an empty table. -/
def start (terms : Terms) (clock : UInt64) : Backend := ⟨terms, clock, .empty, 0⟩

/-- Handles one frame and offers the response. -/
def handleFrame (outlet : Outlet) (b : Backend) (payload : Bytes) : Outcome FrameOutcome :=
  let h := Dispatch.handle b.terms b.clock b.store payload
  let b := { b with store := h.store }
  match h.response? with
  | none => ⟨.dropped, b, [], h.notices⟩
  | some response =>
    let fate := outlet b.offered response
    let b := { b with offered := b.offered + 1 }
    match fate with
    | none => ⟨.replied response.status, b, [⟨response, none⟩], h.notices⟩
    | some fault =>
      ⟨.sendFailed, b, [⟨response, some fault⟩],
        h.notices ++ [.replyLost response.tag fault]⟩

/-- What handling a frame logs before the response is offered. -/
def noticesBeforeOffer (b : Backend) (payload : Bytes) : List Notice :=
  (Dispatch.handle b.terms b.clock b.store payload).notices

/-- Offers responses one after another, whatever becomes of them; the first has the given number. -/
def offerAll (outlet : Outlet) (n : Nat) : List Response → List Offer
  | [] => []
  | r :: rest => ⟨r, outlet n r⟩ :: offerAll outlet (n + 1) rest

/-- The line for a push that was lost. -/
def pushNotice? (o : Offer) : Option Notice := o.fault?.map fun f => .pushLost o.response.tag f

/-- Marks what is overdue at the given time and offers a push for each. -/
def sweepAt (outlet : Outlet) (b : Backend) (now : UInt64) : Outcome SweepReport :=
  let offers := offerAll outlet b.offered (b.store.overdue now)
  { result := ⟨offers.length, offers.countP Offer.isSent, offers.countP fun o => !o.isSent⟩
    backend := { b with store := b.store.expired now, offered := b.offered + offers.length }
    offers := offers
    notices := offers.filterMap pushNotice? }

/-- A sweep at the time that the clock shows. -/
def tick (outlet : Outlet) (b : Backend) : Outcome SweepReport := b.sweepAt outlet b.clock

@[simp] theorem map_response_offerAll (outlet : Outlet) (n : Nat) (rs : List Response) :
    (offerAll outlet n rs).map Offer.response = rs := by
  induction rs generalizing n with
  | nil => rfl
  | cons r rs ih => simp [offerAll, ih]

end Backend

end TagRental
