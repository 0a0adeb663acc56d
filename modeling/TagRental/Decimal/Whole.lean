/-!
# Whole numbers as people type them

A whole number is typed with decimal digits, at least one of them and as many zeros in front as one
likes.  A plus sign in front of the digits says nothing; a minus sign is read only where numbers
below zero have a meaning.  How large a number may be is for its reader to say.
-/

namespace TagRental
namespace Decimal

/-- The number that decimal digits write; at least one is needed. -/
def digits? (cs : List Char) : Option Nat :=
  if cs.isEmpty ∨ !cs.all Char.isDigit then none
  else some (cs.foldl (fun n c => n * 10 + (c.toNat - '0'.toNat)) 0)

/-- A number that may have a plus sign in front of it, but no minus sign. -/
def unsigned? : List Char → Option Nat
  | '+' :: cs => digits? cs
  | cs => digits? cs

/-- A number with an optional sign. -/
def signed? : List Char → Option Int
  | '-' :: cs => (digits? cs).map fun n => -(n : Int)
  | cs => (unsigned? cs).map Int.ofNat

example : unsigned? ['+', '0', '7'] = some 7 ∧ unsigned? ['+', '-', '7'] = none := by decide

end Decimal
end TagRental
