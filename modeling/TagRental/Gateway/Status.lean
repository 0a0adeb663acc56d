/-!
# Rental status

The four states an item can be reported in, with the code and the name that the gateway and the
operator see.  An item is available, rented, or expired (rented and past its deadline); the error
code exists on the wire only and no rental ever reaches it.
-/

namespace TagRental

/-- The state an item is reported in. -/
inductive Status where
  | available
  | rented
  | expired
  | error
  deriving Repr, DecidableEq

namespace Status

/-- The code of a status on the wire. -/
def code : Status → UInt8
  | available => 0
  | rented => 1
  | expired => 2
  | error => 255

/-- The name of a status. -/
def name : Status → String
  | available => "AVAILABLE"
  | rented => "RENTED"
  | expired => "EXPIRED"
  | error => "ERROR"

/-- The status with the given code. -/
def ofCode? (n : Nat) : Option Status :=
  if n = 0 then some available
  else if n = 1 then some rented
  else if n = 2 then some expired
  else if n = 255 then some error
  else none

/-- The sentence that reports a code without a status. -/
def unknownCode (n : Nat) : String := s!"unknown rental status code: {n}"

instance : ToString Status := ⟨name⟩

theorem ofCode?_code (s : Status) : ofCode? s.code.toNat = some s := by
  cases s <;> rfl

end Status

end TagRental
