import TagRental.Calendar
import TagRental.Toml.Value

/-!
# Bare values

Numbers, truth values and dates are written without quotes, as one run of letters, digits and a few
signs.  The whole run is the value: it is classified once, and no part of it is ever tried on its
own.  The four kinds exclude each other --- a date has a hyphen or colon behind its leading digits,
a real number a point or an exponent, an integer neither --- so the order in which they are tried is
of no consequence.

Digits may be grouped with single underscores that have a digit on either side.  Integers have 64
bits, and a real number too large for a double is not one; the largest negative ones become minus
infinity.
-/

namespace TagRental
namespace Toml
namespace Scalar

/-- Is the character a decimal digit? -/
def isDigit (c : Char) : Bool := '0' ≤ c && c ≤ '9'

/-- The value of a digit in any base up to sixteen. -/
def digitValue (c : Char) : Nat :=
  if isDigit c then c.toNat - '0'.toNat
  else if 'a' ≤ c ∧ c ≤ 'f' then c.toNat - 'a'.toNat + 10
  else if 'A' ≤ c ∧ c ≤ 'F' then c.toNat - 'A'.toNat + 10
  else 16

/-- Is the character a digit of the given base? -/
def isDigitOf (base : Nat) (c : Char) : Bool := digitValue c < base

/-- Digits of a base, grouped with single underscores between them. -/
def isGrouped (base : Nat) : List Char → Bool
  | [] => false
  | [c] => isDigitOf base c
  | c :: '_' :: rest => isDigitOf base c && isGrouped base rest
  | c :: rest => isDigitOf base c && isGrouped base rest

/-- The number that digits write, whatever their grouping. -/
def number (base : Nat) (cs : List Char) : Nat :=
  (cs.filter (· != '_')).foldl (fun n c => n * base + digitValue c) 0

/-- The digits of a decimal integer: grouped, and with no zero in front. -/
def isDecimal (cs : List Char) : Bool :=
  isGrouped 10 cs && (cs.length == 1 || cs.head? != some '0')

/-- A sign, and what follows it. -/
def splitSign : List Char → Bool × List Char
  | '-' :: rest => (true, rest)
  | '+' :: rest => (false, rest)
  | cs => (false, cs)

/-- An integer if it fits 64 bits with its sign. -/
def inRange (n : Int) : Option Value :=
  if Int64.minValue.toInt ≤ n ∧ n ≤ Int64.maxValue.toInt then some (.integer n) else none

/-- An integer with the given digits of a base that has its own mark. -/
def marked (base : Nat) (cs : List Char) : Option Value :=
  if isGrouped base cs then inRange (number base cs) else none

/-- Reads an integer. -/
def integer? : List Char → Option Value
  | '0' :: 'x' :: rest => marked 16 rest
  | '0' :: 'o' :: rest => marked 8 rest
  | '0' :: 'b' :: rest => marked 2 rest
  | cs =>
    let (negative, digits) := splitSign cs
    if isDecimal digits then
      inRange (if negative then -(number 10 digits : Int) else number 10 digits)
    else none

/-! ## Real numbers -/

/-- Is the character a digit or a grouping mark? -/
def isDigitOrGroup (c : Char) : Bool := isDigit c || c == '_'

/-- An exponent as written behind its mark. -/
def exponent? (cs : List Char) : Option Int :=
  let (negative, digits) := splitSign cs
  if isGrouped 10 digits then
    some (if negative then -(number 10 digits : Int) else number 10 digits)
  else none

/-- A fraction and an exponent as written behind the whole digits.  At least one of the two has to
be there. -/
def tail? (cs : List Char) : Option (List Char × Int) :=
  match cs with
  | '.' :: rest =>
    let fraction := rest.takeWhile isDigitOrGroup
    if isGrouped 10 fraction then
      match rest.dropWhile isDigitOrGroup with
      | [] => some (fraction, 0)
      | c :: rest =>
        if c = 'e' ∨ c = 'E' then (exponent? rest).map fun e => (fraction, e) else none
    else none
  | c :: rest => if c = 'e' ∨ c = 'E' then (exponent? rest).map fun e => ([], e) else none
  | [] => none

/-- The double nearest to `m * 10 ^ e`.  Beyond four hundred decimal places on either side it is
infinity or zero, whatever the digits. -/
def nearest (m : Nat) (e : Int) : Float :=
  let lead : Int := ((Nat.toDigits 10 m).length : Int) + e
  if m = 0 ∨ lead < -400 then 0
  else if 400 < lead then 1.0 / 0.0
  else if 0 ≤ e then Float.ofScientific m false e.toNat
  else Float.ofScientific m true (-e).toNat

/-- Reads a finite real number, or minus infinity for one that is too small for a double. -/
def finite? (cs : List Char) : Option Value := do
  let (negative, body) := splitSign cs
  let whole := body.takeWhile isDigitOrGroup
  if isDecimal whole then
    let (fraction, e) ← tail? (body.dropWhile isDigitOrGroup)
    let places := (fraction.filter (· != '_')).length
    let x := nearest (number 10 (whole ++ fraction)) (e - places)
    if x.isInf && !negative then none else some (.real (if negative then -x else x))
  else none

/-- Reads a real number. -/
def real? (cs : List Char) : Option Value :=
  match splitSign cs with
  | (negative, ['i', 'n', 'f']) => some (.real (if negative then -1.0 / 0.0 else 1.0 / 0.0))
  | (_, ['n', 'a', 'n']) => some (.real (0.0 / 0.0))
  | _ => finite? cs

/-! ## Dates and times -/

/-- The two digits of a number up to a largest one. -/
def pair? (most : Nat) (a b : Char) : Option Nat :=
  let n := number 10 [a, b]
  if isDigit a && isDigit b && decide (n ≤ most) then some n else none

/-- Do the characters write a day of the calendar? -/
def isDate : List Char → Bool
  | [a, b, c, d, '-', e, f, '-', g, h] =>
    match pair? 12 e f, pair? 31 g h with
    | some month, some day =>
      [a, b, c, d].all isDigit && 1 ≤ month && 1 ≤ day &&
        day ≤ Calendar.monthLength (number 10 [a, b, c, d]) month
    | _, _ => false
  | _ => false

/-- Do the characters write an offset from universal time? -/
def isOffset : List Char → Bool
  | ['Z'] | ['z'] => true
  | s :: a :: b :: ':' :: c :: d :: [] =>
    (s == '+' || s == '-') && (pair? 23 a b).isSome && (pair? 59 c d).isSome
  | _ => false

/-- Hours, minutes and seconds; what follows them.  A minute may have a second of its own numbered
sixty. -/
def clockTail? : List Char → Option (List Char)
  | a :: b :: ':' :: c :: d :: ':' :: e :: f :: rest =>
    match pair? 23 a b, pair? 59 c d, pair? 60 e f with
    | some _, some _, some _ =>
      match rest with
      | '.' :: digits =>
        if (digits.takeWhile isDigit).isEmpty then none else some (digits.dropWhile isDigit)
      | _ => some rest
    | _, _, _ => none
  | _ => none

/-- Do the characters write a time of day? -/
def isTime (cs : List Char) : Bool := clockTail? cs == some []

/-- Do the characters write a time of day, perhaps with an offset? -/
def isTimeWithOffset (cs : List Char) : Bool :=
  match clockTail? cs with
  | some rest => rest.isEmpty || isOffset rest
  | none => false

/-- Do the characters write a date, a time of day, or both? -/
def isMoment (cs : List Char) : Bool :=
  isDate cs || isTime cs ||
    match cs.drop 10 with
    | c :: rest =>
      (c == 'T' || c == 't' || c == ' ') && isDate (cs.take 10) && isTimeWithOffset rest
    | [] => false

/-- Classifies a bare value. -/
def classify (cs : List Char) : Option Value :=
  if cs = ['t', 'r', 'u', 'e'] then some (.boolean true)
  else if cs = ['f', 'a', 'l', 's', 'e'] then some (.boolean false)
  else if isMoment cs then some (.moment (String.ofList cs))
  else (integer? cs).orElse fun _ => real? cs

end Scalar
end Toml
end TagRental
