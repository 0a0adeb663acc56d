import TagRental.Rental.Notice
import TagRental.Rental.Store

/-!
# Starting, ending and asking

The three requests that a gateway can make about an item, each as one step on the table.

```text
AVAILABLE --start--> RENTED --end--> AVAILABLE
                       |
                    deadline
                       v
                    EXPIRED --end--> AVAILABLE
```

An item that is out cannot be rented again, and an item that is in cannot be given back: such a
request leaves the table alone, is noted, and is answered with the status as it is.  A new rental
replaces the whole record, so nothing of an earlier one shows in it; giving an item back changes its
status and the time of its return and keeps the rest.  An item without a record is available, and
asking about it or giving it back does not give it one.

Starting and ending are answered without times; only an answer to a question carries them.
-/

namespace TagRental

/-- How long an item is rented for when the request does not say so. -/
structure Terms where
  defaultDuration : UInt64
  deriving Repr, DecidableEq

namespace Terms

/-- The duration, in seconds, where none is configured. -/
def usualDuration : UInt64 := 3600

/-- The terms where none are configured. -/
def usual : Terms := ⟨usualDuration⟩

/-- The terms with a configured duration; zero counts as one second. -/
def withDefault (seconds : UInt64) : Terms := ⟨if seconds = 0 then 1 else seconds⟩

end Terms

/-- What a request comes to: the answer, the table afterwards, and what is logged. -/
structure Answer where
  response : Response
  store : Store
  notices : List Notice

namespace Rental

/-- The record of a rental that starts now. -/
def startedRecord (terms : Terms) (now : UInt64) (requested : Option UInt64) : Record :=
  ⟨.rented, now, requested.getD terms.defaultDuration, 0⟩

/-- Starts a rental, unless the item is out. -/
def start (terms : Terms) (now : UInt64) (store : Store) (tag : Tag) (requested : Option UInt64) :
    Answer :=
  let out := (store.get? tag).filter fun r => r.status = .rented
  match out with
  | some r => ⟨.bare tag .rented, store, [.startRejected tag r.rentedAt r.duration]⟩
  | none => ⟨.bare tag .rented, store.set tag (startedRecord terms now requested), []⟩

/-- Ends a rental, if the item is out, in time or not. -/
def finish (now : UInt64) (store : Store) (tag : Tag) : Answer :=
  match store.get? tag with
  | none => ⟨.bare tag .available, store, [.endUnknown tag]⟩
  | some r =>
    if r.status = .rented ∨ r.status = .expired then
      ⟨.bare tag .available, store.set tag { r with status := .available, returnedAt := now }, []⟩
    else ⟨.bare tag r.status, store, [.endIgnored tag r.status]⟩

/-- Tells the status of an item. -/
def status (store : Store) (tag : Tag) : Response :=
  match store.get? tag with
  | none => .bare tag .available
  | some r => ⟨r.status, tag, r.rentedAt, r.duration⟩

end Rental

end TagRental
