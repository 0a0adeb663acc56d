import TagRental.Gateway.Message
import TagRental.Rental.Store

/-!
# Deadlines

A sweep looks at every record once and marks as expired those whose rental is past its deadline; for
each of them the gateway is to be told, with the times of the rental.  Marking and telling are
apart: `Store.expired` and `Store.overdue` are both functions of the table before the sweep, so all
records are marked before the first push goes out and no failure of a push can undo a mark.
-/

namespace TagRental

/-- A record whose deadline has passed is marked, any other stays as it is. -/
def Record.swept (r : Record) (now : UInt64) : Record :=
  if r.isOverdue now then { r with status := .expired } else r

/-- What the gateway is told about an item whose deadline has passed. -/
def Record.push (r : Record) (tag : Tag) : Response := ⟨.expired, tag, r.rentedAt, r.duration⟩

namespace Store

/-- The table after a sweep. -/
def expired (s : Store) (now : UInt64) : Store := s.mapRecords fun _ r => r.swept now

/-- The pushes of a sweep, in the order of the table. -/
def overdue (s : Store) (now : UInt64) : List Response :=
  s.entries.filterMap fun e => if e.2.isOverdue now then some (e.2.push e.1) else none

@[simp] theorem get?_expired (s : Store) (now : UInt64) (t : Tag) :
    (s.expired now).get? t = (s.get? t).map fun r => r.swept now := by
  simp [expired]

end Store

end TagRental
