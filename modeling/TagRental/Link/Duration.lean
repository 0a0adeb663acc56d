/-!
# Durations

Delays are whole numbers of nanoseconds, since that is how they are set; the loops that wait count
in whole milliseconds.  This module holds the type, its text, and the rule by which a delay grows
from one failure to the next.
-/

namespace TagRental

/-- A length of time in nanoseconds. -/
structure Duration where
  nanos : Nat
  deriving Repr, DecidableEq

namespace Duration

/-- So many milliseconds. -/
def ofMillis (n : Nat) : Duration := ⟨n * 1000000⟩

/-- So many seconds. -/
def ofSeconds (n : Nat) : Duration := ⟨n * 1000000000⟩

/-- Whole seconds and the nanoseconds beyond them. -/
def ofParts (seconds nanos : Nat) : Duration := ⟨seconds * 1000000000 + nanos⟩

/-- The whole seconds. -/
def seconds (d : Duration) : Nat := d.nanos / 1000000000

/-- The nanoseconds beyond the whole seconds. -/
def subsecond (d : Duration) : Nat := d.nanos % 1000000000

/-- The whole milliseconds. -/
def millis (d : Duration) : Nat := d.nanos / 1000000

/-- The longer of two. -/
def atLeast (d least : Duration) : Duration := if d.nanos ≤ least.nanos then least else d

/-- The digits of a fraction of `width` places without the zeros at its end. -/
def fractionChars (width n : Nat) : List Char :=
  let ds := Nat.toDigits 10 n
  let padded := List.replicate (width - ds.length) '0' ++ ds
  (padded.reverse.dropWhile (· == '0')).reverse

/-- A number of units and a fraction, with the unit's name; a fraction of zero is left out. -/
def withFraction (whole width fraction : Nat) (unit : String) : String :=
  if fraction = 0 then toString whole ++ unit
  else toString whole ++ "." ++ String.ofList (fractionChars width fraction) ++ unit

/-- The text of a duration: in the largest unit of which there is at least one. -/
def text (d : Duration) : String :=
  if 0 < d.seconds then withFraction d.seconds 9 d.subsecond "s"
  else if 1000000 ≤ d.nanos then withFraction (d.nanos / 1000000) 6 (d.nanos % 1000000) "ms"
  else if 1000 ≤ d.nanos then withFraction (d.nanos / 1000) 3 (d.nanos % 1000) "µs"
  else toString d.nanos ++ "ns"

/-- The milliseconds as they are counted in 64 bits. -/
def millisWord (d : Duration) : UInt64 := UInt64.ofNat d.millis

/-- Twice the delay, but no more than a cap.  Both are taken in whole milliseconds of 64 bits, and a
delay too long to be doubled there counts as the longest one. -/
def nextDelay (current cap : Duration) : Duration :=
  .ofMillis (min (min (2 * current.millisWord.toNat) (UInt64.size - 1)) cap.millisWord.toNat)

example :
    (ofMillis 1500).text = "1.5s" ∧ (ofMillis 100).text = "100ms" ∧ (ofMillis 0).text = "0ns" := by
  decide

end Duration

end TagRental
