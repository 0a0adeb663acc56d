import TagRental.Text.Utf8
import TagRental.Text.Quoted

/-!
# Hexadecimal

A byte is two digits, high digit first; the digits that are written are the lower-case ones, and
either case is read.  Reading judges the *bytes* of a text, not its characters: first whether their
number is even, then every digit from left to right.  A text that is both too odd and badly spelt is
therefore reported as odd, and the position of a bad digit is a byte index.
-/

namespace TagRental
namespace Hex

/-- Why a text is not hexadecimal: a half byte at the end, or the first byte that is no digit and
where it stands. -/
inductive Fault where
  | oddLength
  | badDigit (byte : UInt8) (index : Nat)
  deriving Repr, DecidableEq

/-- The sentence that reports a fault.  The offending byte is shown as the character with its
number. -/
def Fault.text : Fault → String
  | .oddLength => "Odd number of digits"
  | .badDigit byte index =>
    s!"Invalid character {Text.quotedChar (Char.ofNat byte.toNat)} at position {index}"

/-- The value of a hexadecimal digit, given as its ASCII byte. -/
def digitValue? (b : UInt8) : Option UInt8 :=
  if 0x30 ≤ b ∧ b ≤ 0x39 then some (b - 0x30)
  else if 0x61 ≤ b ∧ b ≤ 0x66 then some (b - 0x61 + 10)
  else if 0x41 ≤ b ∧ b ≤ 0x46 then some (b - 0x41 + 10)
  else none

/-- The digit that writes a value below sixteen. -/
def digitChar (n : Nat) : Char := if n < 10 then Char.ofNat (0x30 + n) else Char.ofNat (0x57 + n)

/-- The two digits of a byte. -/
def byteChars (b : UInt8) : List Char := [digitChar (b.toNat / 16), digitChar (b.toNat % 16)]

/-- The digits of a byte string. -/
def chars (bytes : Bytes) : List Char := bytes.flatMap byteChars

/-- A byte string in lower-case hexadecimal. -/
def encode (bytes : Bytes) : String := String.ofList (chars bytes)

/-- Reads pairs of digits; `index` is the position of the next one and `done` holds the bytes read
so far, last first. -/
def decodeFrom (index : Nat) (done : Bytes) : Bytes → Except Fault Bytes
  | [] => .ok done.reverse
  | [_] => .error .oddLength
  | a :: b :: rest =>
    match digitValue? a, digitValue? b with
    | none, _ => .error (.badDigit a index)
    | _, none => .error (.badDigit b (index + 1))
    | some high, some low => decodeFrom (index + 2) ((high * 16 + low) :: done) rest

/-- The bytes that a string of hexadecimal digits writes. -/
def decodeBytes (digits : Bytes) : Except Fault Bytes :=
  if digits.length % 2 = 1 then .error .oddLength else decodeFrom 0 [] digits

/-- The bytes that a text of hexadecimal digits writes. -/
def decode (s : String) : Except Fault Bytes := decodeBytes (Utf8.encode s)

@[simp] theorem chars_cons (b : UInt8) (bytes : Bytes) :
    chars (b :: bytes) = byteChars b ++ chars bytes := rfl

@[simp] theorem toList_encode (bytes : Bytes) : (encode bytes).toList = chars bytes := by
  simp [encode]

example : encode [0x0a, 0xff] = "0aff" := by decide

end Hex
end TagRental
