/-!
# The fewest digits that identify a number

A measurement that arrives as a binary number is shown with as few decimal digits as identify it.
The number stands for a whole interval of reals, those that would be rounded to it, so the digits to
show are those of the shortest decimal in that interval and, of several, of the one nearest to the
number.

## How the digits are found

The bits are read as `m · 2 ^ q`.  A decimal with `n` digits lies on the grid of multiples of
`10 ^ (k - n)`, where `10 ^ k` is the least power of ten above the number; if any point of a grid
lies in the interval, so does one of the two neighbours of the number on that grid, because the
interval surrounds the number.  So the search asks for `n = 1, 2, …` whether one of two neighbours
is in the interval, and takes the first that is.  Seventeen digits always suffice; should they not,
the exact value is returned, so no guess is ever made.  All comparisons are between natural numbers.
-/

namespace TagRental
namespace Decimal

/-- A positive finite binary number, `m * 2 ^ q`.  `narrowBelow` says that the gap to the number
below is half the gap to the number above. -/
structure Binary where
  m : Nat
  q : Int
  narrowBelow : Bool
  deriving Repr, DecidableEq

/-- Reads the bits of a finite number, its sign left out. -/
def Binary.ofBits (bits : UInt64) : Binary :=
  let e := ((bits >>> 52) &&& 0x7FF).toNat
  let f := (bits &&& 0xFFFFFFFFFFFFF).toNat
  if e = 0 then ⟨f, -1074, false⟩ else ⟨0x10000000000000 + f, (e : Int) - 1075, f == 0 && 1 < e⟩

/-- A decimal, `digits * 10 ^ exponent`. -/
structure Digits where
  digits : Nat
  exponent : Int
  deriving Repr, DecidableEq

/-- Which of two equally near decimals is shown: the one with the even last digit, or the larger. -/
inductive Tie where
  | toEven
  | upward
  deriving Repr, DecidableEq

/-- The two sides of the comparison of `n * 2 ^ j` with `c * 10 ^ g`, cleared of fractions. -/
def sides (n : Nat) (j : Int) (c : Nat) (g : Int) : Nat × Nat :=
  (n * Nat.pow 2 j.toNat * Nat.pow 10 (-g).toNat, c * Nat.pow 10 g.toNat * Nat.pow 2 (-j).toNat)

namespace Binary

/-- Is the decimal among the reals that are rounded to the number?  The ends of the interval belong
to it exactly if `m` is even. -/
def identifiedBy (x : Binary) (d : Digits) : Bool :=
  let low := sides (4 * x.m - if x.narrowBelow then 1 else 2) (x.q - 2) d.digits d.exponent
  let high := sides (4 * x.m + 2) (x.q - 2) d.digits d.exponent
  if x.m % 2 = 0 then low.1 ≤ low.2 && high.2 ≤ high.1 else low.1 < low.2 && high.2 < high.1

/-- The least `k` with `m * 2 ^ q < 10 ^ k`, found by correcting an estimate from below. -/
def scaleFrom (x : Binary) : Nat → Int → Int
  | 0, k => k
  | fuel + 1, k =>
    let (value, power) := sides x.m x.q 1 k
    if value < power then k else x.scaleFrom fuel (k + 1)

/-- The least `k` with `m * 2 ^ q < 10 ^ k`. -/
def scale (x : Binary) : Int :=
  x.scaleFrom 8 (Int.fdiv (((x.m.log2 : Int) + x.q) * 30103) 100000 - 1)

/-- The neighbour of the number on the grid of multiples of `10 ^ g` that identifies it, if one of
the two does. -/
def onGrid (x : Binary) (tie : Tie) (g : Int) : Option Digits :=
  let (value, unit) := sides x.m x.q 1 g
  let below := value / unit
  let lower : Digits := ⟨below, g⟩
  let upper : Digits := ⟨below + 1, g⟩
  match x.identifiedBy lower && below != 0, x.identifiedBy upper with
  | true, false => some lower
  | false, true => some upper
  | false, false => none
  | true, true =>
    match compare (2 * value) ((2 * below + 1) * unit), tie with
    | .lt, _ => some lower
    | .gt, _ => some upper
    | .eq, .upward => some upper
    | .eq, .toEven => some (if below % 2 = 0 then lower else upper)

/-- The exact value as a decimal. -/
def exact (x : Binary) : Digits :=
  if 0 ≤ x.q then ⟨x.m * Nat.pow 2 x.q.toNat, 0⟩ else ⟨x.m * Nat.pow 5 (-x.q).toNat, x.q⟩

end Binary

/-- Moves zeros at the end of the digits into the exponent. -/
def Digits.stripped : Nat → Digits → Digits
  | 0, d => d
  | fuel + 1, d =>
    if d.digits % 10 = 0 ∧ d.digits ≠ 0 then
      Digits.stripped fuel ⟨d.digits / 10, d.exponent + 1⟩
    else d

/-- The fewest digits that identify a positive number, the nearest of them. -/
def Binary.shortest (x : Binary) (tie : Tie) : Digits :=
  let k := x.scale
  let found := (List.range 17).findSome? fun (n : Nat) => x.onGrid tie (k - ((n : Int) + 1))
  Digits.stripped 20 (found.getD x.exact)

/-- How digits are laid out: between these two decimal exponents of the leading digit (always, where
there are none) in plain notation, otherwise in scientific notation; and which of two equally near
decimals is shown. -/
structure Layout where
  plain : Option (Int × Int)
  tie : Tie
  deriving Repr, DecidableEq

/-- A decimal with a point: digits on both sides of it, or one digit in front and a signed exponent
behind. -/
def Layout.digits (l : Layout) (d : Digits) : String :=
  let ds := Nat.toDigits 10 d.digits
  let lead : Int := (ds.length : Int) - 1 + d.exponent
  let isPlain : Bool :=
    match l.plain with
    | none => true
    | some (low, high) => low ≤ lead && lead ≤ high
  if isPlain then
    if 0 ≤ d.exponent then String.ofList (ds ++ List.replicate d.exponent.toNat '0') ++ ".0"
    else if 0 ≤ lead then
      String.ofList (ds.take (lead.toNat + 1) ++ '.' :: ds.drop (lead.toNat + 1))
    else "0." ++ String.ofList (List.replicate ((-lead).toNat - 1) '0' ++ ds)
  else
    let fraction := if ds.length ≤ 1 then [] else '.' :: ds.drop 1
    String.ofList (ds.take 1 ++ fraction) ++ "e" ++ (if 0 ≤ lead then "+" else "-")
      ++ toString lead.natAbs

/-- The text of a number. -/
def Layout.render (l : Layout) (x : Float) : String :=
  let bits := x.toBits
  if x.isNaN then "NaN"
  else
    let sign := if bits >>> 63 = 0 then "" else "-"
    if x.isInf then sign ++ "inf"
    else
      let b := Binary.ofBits bits
      if b.m = 0 then sign ++ "0.0" else sign ++ l.digits (b.shortest l.tie)

end Decimal
end TagRental
