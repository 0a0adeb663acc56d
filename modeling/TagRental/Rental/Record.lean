import TagRental.Gateway.Status

/-!
# The record of one item

What is remembered about an item: its status, when it was rented and for how long, and when it was
given back.  Times are seconds of the epoch in 64 bits.

The deadline is the sum of two such numbers and may not fit; it then stays at the largest number.
That loses nothing: a clock in 64 bits is never past the largest number, and it is never past a sum
that is larger still, so an item is overdue in this arithmetic exactly if it is in the exact one
(`isOverdue_iff`).
-/

namespace TagRental

/-- What is remembered about an item. -/
structure Record where
  status : Status
  rentedAt : UInt64
  duration : UInt64
  returnedAt : UInt64
  deriving Repr, DecidableEq

namespace Record

/-- The last second of the rental; a sum that does not fit 64 bits stays at the largest number. -/
def expiresAt (r : Record) : UInt64 :=
  if r.rentedAt.toNat + r.duration.toNat < UInt64.size then r.rentedAt + r.duration
  else 18446744073709551615

/-- Is the item out and its last second over? -/
def isOverdue (r : Record) (now : UInt64) : Bool :=
  decide (r.status = .rented) && decide (r.expiresAt < now)

theorem toNat_expiresAt (r : Record) :
    r.expiresAt.toNat = min (r.rentedAt.toNat + r.duration.toNat) 18446744073709551615 := by
  unfold expiresAt
  split
  · rw [UInt64.toNat_add]; simp only [UInt64.size] at *; omega
  · simp only [UInt64.size] at *; simp; omega

/-- Overdue is what exact arithmetic says it is. -/
theorem isOverdue_iff (r : Record) (now : UInt64) :
    r.isOverdue now = true ↔
      r.status = .rented ∧ r.rentedAt.toNat + r.duration.toNat < now.toNat := by
  have h := now.toNat_lt
  simp only [isOverdue, Bool.and_eq_true, decide_eq_true_eq, UInt64.lt_iff_toNat_lt,
    toNat_expiresAt]
  constructor <;> rintro ⟨hs, ht⟩ <;> exact ⟨hs, by omega⟩

end Record

end TagRental
