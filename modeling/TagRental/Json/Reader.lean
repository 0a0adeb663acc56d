import TagRental.Json.Value

/-!
# Reading JSON

A message is read byte by byte by a machine with a stack: the stack holds the lists and objects that
are open, the phase says what is being read, and the position of the next byte is kept along with
them.  `Reader.step` takes one byte, so reading is a left fold over the bytes, and reading a text
followed by another is reading the second from where the first one left the machine.

## Positions

A fault is reported with a line and a column, and with this machine there are only two places to
report: *behind* the byte that cannot stand where it stands, and the place *in front* of the next
byte, for what is noticed only when a value ends (a number out of range, text that stops).  Columns
count bytes.  One fault is placed further back: a string that is not text is noticed at its closing
quote and reported as many columns earlier as there are bytes behind its sound part.

## Numbers

Digits are collected in a 64-bit significand.  When one more digit does not fit, the integer digits
that follow only raise the exponent and the fraction digits that follow are dropped.  What remains
is one multiplication or division by a power of ten, so the number read is not always the nearest
one; where the exponent is beyond the largest power of ten that a double holds, the number is
divided by that power as often as it takes.

## Nesting

At most 127 lists and objects are open at a time.
-/

namespace TagRental
namespace Json

/-- What can be wrong with a text. -/
inductive Cause where
  | endInValue
  | endInText
  | endInList
  | endInObject
  | badIdentifier
  | noValue
  | badNumber
  | numberRange
  | controlCharacter
  | badEscape
  | loneSurrogate
  | brokenSurrogate
  | notText
  | tooDeep
  | listSeparator
  | objectSeparator
  | colon
  | trailingComma
  | keyNotText
  | trailingCharacters
  deriving Repr, DecidableEq

/-- The words for a cause. -/
def Cause.text : Cause → String
  | endInValue => "EOF while parsing a value"
  | endInText => "EOF while parsing a string"
  | endInList => "EOF while parsing a list"
  | endInObject => "EOF while parsing an object"
  | badIdentifier => "expected ident"
  | noValue => "expected value"
  | badNumber => "invalid number"
  | numberRange => "number out of range"
  | controlCharacter => "control character (\\u0000-\\u001F) found while parsing a string"
  | badEscape => "invalid escape"
  | loneSurrogate => "lone leading surrogate in hex escape"
  | brokenSurrogate => "unexpected end of hex escape"
  | notText => "invalid unicode code point"
  | tooDeep => "recursion limit exceeded"
  | listSeparator => "expected `,` or `]`"
  | objectSeparator => "expected `,` or `\x7d`"
  | colon => "expected `:`"
  | trailingComma => "trailing comma"
  | keyNotText => "key must be a string"
  | trailingCharacters => "trailing characters"

/-- A place in a text: the line, from one, and the number of bytes in front of it on that line. -/
structure Place where
  line : Nat
  column : Nat
  deriving Repr, DecidableEq

namespace Place

/-- The beginning. -/
def start : Place := ⟨1, 0⟩

/-- The place behind one more byte. -/
def after (p : Place) (b : UInt8) : Place :=
  if b = 0x0A then ⟨p.line + 1, 0⟩ else ⟨p.line, p.column + 1⟩

/-- The words for a place. -/
def text (p : Place) : String := s!" at line {p.line} column {p.column}"

end Place

/-- What is wrong with a text, and where. -/
structure SyntaxFault where
  cause : Cause
  place : Place
  deriving Repr, DecidableEq

/-- The sentence that reports a fault. -/
def SyntaxFault.text (f : SyntaxFault) : String := f.cause.text ++ f.place.text

/-- The white space between the parts of a text: space, tab, line feed, carriage return. -/
def isSpace (b : UInt8) : Bool := b == 0x20 || b == 0x09 || b == 0x0A || b == 0x0D

/-- The value of a decimal digit. -/
def digit? (b : UInt8) : Option Nat := if 0x30 ≤ b ∧ b ≤ 0x39 then some (b.toNat - 0x30) else none

/-! ## Numbers -/

/-- How far a number has been read. -/
inductive Numeral.Stage where
  | minus
  | zero
  | whole
  | wholeFull
  | point
  | fraction
  | fractionFull
  | mark
  | sign
  | exponent
  | vanishing
  deriving Repr, DecidableEq

/-- A number in progress: its sign, the digits that fit, the power of ten that goes with them, and
the written exponent. -/
structure Numeral where
  stage : Numeral.Stage
  negative : Bool
  significand : Nat
  scale : Int
  exponentNegative : Bool
  exponent : Nat
  deriving Repr, DecidableEq

namespace Numeral

/-- The largest significand. -/
def largest : Nat := UInt64.size - 1

/-- The largest written exponent. -/
def largestExponent : Nat := 2147483647

/-- The largest significand of a negative number that is read as a whole one. -/
def largestNegative : Nat := 9223372036854775808

/-- A number of which only the sign is known. -/
def signed (negative : Bool) : Numeral := ⟨.minus, negative, 0, 0, false, 0⟩

/-- What one more byte does to a number: it belongs to it, it ends it, or it cannot stand there. -/
inductive Move where
  | more (n : Numeral)
  | ends
  | fault (cause : Cause)

/-- A byte behind the digits in front of the point. -/
def markOrEnd (n : Numeral) (pointAllowed : Bool) (b : UInt8) : Move :=
  if b = 0x2E ∧ pointAllowed then .more { n with stage := .point }
  else if b = 0x65 ∨ b = 0x45 then .more { n with stage := .mark }
  else .ends

/-- A digit behind the point. -/
def fractionDigit (n : Numeral) (d : Nat) : Numeral :=
  if n.significand * 10 + d ≤ largest then
    { n with stage := .fraction, significand := n.significand * 10 + d, scale := n.scale - 1 }
  else { n with stage := .fractionFull }

/-- A digit of the exponent.  An exponent beyond all bounds makes the number zero if it is negative
or there is nothing to scale. -/
def exponentDigit (n : Numeral) (d : Nat) : Move :=
  if n.exponent * 10 + d ≤ largestExponent then
    .more { n with stage := .exponent, exponent := n.exponent * 10 + d }
  else if n.significand ≠ 0 ∧ !n.exponentNegative then .fault .numberRange
  else .more { n with stage := .vanishing }

/-- Reads one more byte. -/
def step (n : Numeral) (b : UInt8) : Move :=
  match n.stage with
  | .minus =>
    match digit? b with
    | some 0 => .more { n with stage := .zero }
    | some d => .more { n with stage := .whole, significand := d }
    | none => .fault .badNumber
  | .zero => if (digit? b).isSome then .fault .badNumber else n.markOrEnd true b
  | .whole =>
    match digit? b with
    | some d =>
      if n.significand * 10 + d ≤ largest then
        .more { n with significand := n.significand * 10 + d }
      else .more { n with stage := .wholeFull, scale := 1 }
    | none => n.markOrEnd true b
  | .wholeFull =>
    match digit? b with
    | some _ => .more { n with scale := n.scale + 1 }
    | none => n.markOrEnd true b
  | .point =>
    match digit? b with
    | some d => .more (n.fractionDigit d)
    | none => .fault .badNumber
  | .fraction =>
    match digit? b with
    | some d => .more (n.fractionDigit d)
    | none => n.markOrEnd false b
  | .fractionFull => if (digit? b).isSome then .more n else n.markOrEnd false b
  | .mark =>
    if b = 0x2B then .more { n with stage := .sign }
    else if b = 0x2D then .more { n with stage := .sign, exponentNegative := true }
    else
      match digit? b with
      | some d => n.exponentDigit d
      | none => .fault .badNumber
  | .sign =>
    match digit? b with
    | some d => n.exponentDigit d
    | none => .fault .badNumber
  | .exponent =>
    match digit? b with
    | some d => n.exponentDigit d
    | none => .ends
  | .vanishing => if (digit? b).isSome then .more n else .ends

/-- The significand times a power of ten, in one multiplication or division; none if the result is
not finite. -/
def scaled (x : Float) (e : Int) : Option Float :=
  if 0 ≤ e then
    if e ≤ 308 then
      let y := x * Float.ofScientific 1 false e.toNat
      if y.isInf then none else some y
    else if x == 0 then some x else none
  else if -308 ≤ e then some (x / Float.ofScientific 1 false (-e).toNat)
  else if x == 0 then some x
  else scaled (x / Float.ofScientific 1 false 308) (e + 308)
termination_by e.natAbs
decreasing_by omega

/-- The value with its sign. -/
def withSign (n : Numeral) (x : Float) : Json := .real (if n.negative then -x else x)

/-- The value of a number that was read to its end, or why it has none. -/
def value (n : Numeral) : Except Cause Json :=
  let whole := Float.ofScientific n.significand false 0
  let real (e : Int) : Except Cause Json :=
    match scaled whole e with
    | some x => .ok (n.withSign x)
    | none => .error .numberRange
  match n.stage with
  | .minus | .point | .mark | .sign => .error .endInValue
  | .zero | .whole =>
    if !n.negative then .ok (.int n.significand)
    else if 0 < n.significand ∧ n.significand ≤ largestNegative then .ok (.int (-n.significand))
    else .ok (n.withSign whole)
  | .wholeFull | .fraction | .fractionFull => real n.scale
  | .exponent => real (if n.exponentNegative then n.scale - n.exponent else n.scale + n.exponent)
  | .vanishing => .ok (n.withSign 0)

end Numeral

/-! ## Strings -/

/-- Where in an escape a string stands: outside, behind the backslash, among the four digits of a
code unit (with the leading surrogate that they must complete), or on the way from a leading
surrogate to the escape of its partner. -/
inductive Quote.Escape where
  | none
  | slash
  | digits (done : Bytes) (high : Option Nat)
  | partnerSlash (high : Nat)
  | partnerMark (high : Nat)
  deriving Repr, DecidableEq

/-- A string in progress: is it a key, the bytes read so far, last first, and the escape that is
open. -/
structure Quote where
  isKey : Bool
  bytes : Bytes
  escape : Quote.Escape
  deriving Repr, DecidableEq

namespace Quote

/-- An empty string in progress. -/
def start (isKey : Bool) : Quote := ⟨isKey, [], .none⟩

/-- What one more byte does to a string. -/
inductive Move where
  | more (q : Quote)
  | closes
  | fault (cause : Cause)

/-- Adds bytes at the end. -/
def push (q : Quote) (bytes : Bytes) : Quote :=
  { q with bytes := bytes.reverse ++ q.bytes, escape := .none }

/-- The byte that a one-letter escape stands for. -/
def letter? (b : UInt8) : Option UInt8 :=
  if b = 0x22 ∨ b = 0x5C ∨ b = 0x2F then some b
  else if b = 0x62 then some 0x08
  else if b = 0x66 then some 0x0C
  else if b = 0x6E then some 0x0A
  else if b = 0x72 then some 0x0D
  else if b = 0x74 then some 0x09
  else none

/-- The value of a hexadecimal digit. -/
def hexValue? (b : UInt8) : Option Nat :=
  if 0x30 ≤ b ∧ b ≤ 0x39 then some (b.toNat - 0x30)
  else if 0x61 ≤ b ∧ b ≤ 0x66 then some (b.toNat - 0x57)
  else if 0x41 ≤ b ∧ b ≤ 0x46 then some (b.toNat - 0x37)
  else none

/-- The number that hexadecimal digits write. -/
def hexNumber? (digits : Bytes) : Option Nat :=
  digits.foldl (fun n b => n.bind fun n => (hexValue? b).map fun d => n * 16 + d) (some 0)

/-- A finished code unit: it is a character, or the second half of one, or it waits for its second
half. -/
def unit (q : Quote) (high : Option Nat) (n : Nat) : Move :=
  match high with
  | some h =>
    if 0xDC00 ≤ n ∧ n ≤ 0xDFFF then
      .more (q.push (String.utf8EncodeChar
        (Char.ofNat ((h - 0xD800) * 0x400 + (n - 0xDC00) + 0x10000))))
    else .fault .loneSurrogate
  | none =>
    if 0xDC00 ≤ n ∧ n ≤ 0xDFFF then .fault .loneSurrogate
    else if 0xD800 ≤ n ∧ n ≤ 0xDBFF then .more { q with escape := .partnerSlash n }
    else .more (q.push (String.utf8EncodeChar (Char.ofNat n)))

/-- Reads one more byte.  The four digits of a code unit are judged together. -/
def step (q : Quote) (b : UInt8) : Move :=
  match q.escape with
  | .none =>
    if b = 0x22 then .closes
    else if b = 0x5C then .more { q with escape := .slash }
    else if b < 0x20 then .fault .controlCharacter
    else .more { q with bytes := b :: q.bytes }
  | .slash =>
    if b = 0x75 then .more { q with escape := .digits [] none }
    else
      match letter? b with
      | some c => .more (q.push [c])
      | none => .fault .badEscape
  | .digits done high =>
    let done := done ++ [b]
    if done.length < 4 then .more { q with escape := .digits done high }
    else
      match hexNumber? done with
      | some n => q.unit high n
      | none => .fault .badEscape
  | .partnerSlash high =>
    if b = 0x5C then .more { q with escape := .partnerMark high } else .fault .brokenSurrogate
  | .partnerMark high =>
    if b = 0x75 then .more { q with escape := .digits [] (some high) } else .fault .brokenSurrogate

end Quote

/-! ## The machine -/

/-- A list or object that is open: what it holds so far, last item first, and for an object whose
next value is being read, that value's key. -/
inductive Frame where
  | list (done : List Json)
  | object (done : Members)
  | member (done : Members) (key : String)

/-- What is being read. -/
inductive Phase where
  /-- A value is due. -/
  | value
  /-- Behind `[`: a value or the end of the list. -/
  | firstItem
  /-- Behind a comma in a list. -/
  | nextItem
  /-- Behind `{`: a key or the end of the object. -/
  | firstKey
  /-- Behind a comma in an object. -/
  | nextKey
  /-- A colon is due. -/
  | colon (key : String)
  /-- Inside a name: the bytes still due and the value that it stands for. -/
  | name (due : Bytes) (value : Json)
  | number (n : Numeral)
  | quote (q : Quote)
  /-- A value is complete. -/
  | complete (value : Json)

/-- The machine between two bytes. -/
structure Reader where
  phase : Phase
  stack : List Frame
  place : Place

namespace Reader

/-- Nothing read yet. -/
def start : Reader := ⟨.value, [], .start⟩

/-- The most lists and objects that are open at a time. -/
def maxDepth : Nat := 127

/-- The result of one byte. -/
abbrev Step := Except SyntaxFault Reader

/-- A fault at the present place. -/
def fault {α : Type} (r : Reader) (cause : Cause) : Except SyntaxFault α := .error ⟨cause, r.place⟩

/-- Opens a list or an object. -/
def opening (r : Reader) (frame : Frame) (phase : Phase) : Step :=
  if r.stack.length < maxDepth then .ok { r with phase := phase, stack := frame :: r.stack }
  else r.fault .tooDeep

/-- The first byte of a value. -/
def beginValue (r : Reader) (b : UInt8) : Step :=
  if b = 0x6E then .ok { r with phase := .name [0x75, 0x6C, 0x6C] .null }
  else if b = 0x74 then .ok { r with phase := .name [0x72, 0x75, 0x65] (.bool true) }
  else if b = 0x66 then .ok { r with phase := .name [0x61, 0x6C, 0x73, 0x65] (.bool false) }
  else if b = 0x22 then .ok { r with phase := .quote (.start false) }
  else if b = 0x2D then .ok { r with phase := .number (.signed true) }
  else if b = 0x5B then r.opening (.list []) .firstItem
  else if b = 0x7B then r.opening (.object []) .firstKey
  else
    match (Numeral.signed false).step b with
    | .more n => .ok { r with phase := .number n }
    | _ => r.fault .noValue

/-- The first byte of a key. -/
def beginKey (r : Reader) (b : UInt8) : Step :=
  if b = 0x22 then .ok { r with phase := .quote (.start true) } else r.fault .keyNotText

/-- A byte behind a complete value. -/
def behind (r : Reader) (value : Json) (b : UInt8) : Step :=
  match r.stack with
  | [] => r.fault .trailingCharacters
  | .list done :: stack =>
    if b = 0x2C then .ok { r with phase := .nextItem, stack := .list (value :: done) :: stack }
    else if b = 0x5D then
      .ok { r with phase := .complete (.list (value :: done).reverse), stack := stack }
    else r.fault .listSeparator
  | .object _ :: _ => r.fault .objectSeparator
  | .member done key :: stack =>
    if b = 0x2C then
      .ok { r with phase := .nextKey, stack := .object (done.insert key value) :: stack }
    else if b = 0x7D then
      .ok { r with phase := .complete (.object (done.insert key value)), stack := stack }
    else r.fault .objectSeparator

/-- The closing quote: the bytes have to be text. -/
def endQuote (r : Reader) (q : Quote) : Step :=
  let bytes := q.bytes.reverse
  match Utf8.decode bytes with
  | .ok s => .ok { r with phase := if q.isKey then .colon s else .complete (.text s) }
  | .error f =>
    .error ⟨.notText, { r.place with column := r.place.column - (bytes.length - f.validUpTo) }⟩

/-- Ends a number that the next byte does not continue. -/
def settle (r : Reader) (b : UInt8) : Step :=
  match r.phase with
  | .number n =>
    match n.step b with
    | .ends =>
      match n.value with
      | .ok v => .ok { r with phase := .complete v }
      | .error cause => r.fault cause
    | _ => .ok r
  | _ => .ok r

/-- Reads a byte that a number in progress, if there is one, can take.  The machine already stands
behind the byte. -/
def consume (r : Reader) (b : UInt8) : Step :=
  match r.phase with
  | .number n =>
    match n.step b with
    | .more n => .ok { r with phase := .number n }
    | .fault cause => r.fault cause
    | .ends => .ok r
  | .quote q =>
    match q.step b with
    | .more q => .ok { r with phase := .quote q }
    | .closes => r.endQuote q
    | .fault cause => r.fault cause
  | .name [] _ => r.fault .badIdentifier
  | .name (c :: due) v =>
    if b = c then .ok { r with phase := if due.isEmpty then .complete v else .name due v }
    else r.fault .badIdentifier
  | .value => if isSpace b then .ok r else r.beginValue b
  | .firstItem =>
    if isSpace b then .ok r
    else
      match r.stack with
      | .list done :: stack =>
        if b = 0x5D then .ok { r with phase := .complete (.list done.reverse), stack := stack }
        else r.beginValue b
      | _ => r.beginValue b
  | .nextItem =>
    if isSpace b then .ok r
    else if b = 0x5D then r.fault .trailingComma
    else r.beginValue b
  | .firstKey =>
    if isSpace b then .ok r
    else
      match r.stack with
      | .object done :: stack =>
        if b = 0x7D then .ok { r with phase := .complete (.object done), stack := stack }
        else r.beginKey b
      | _ => r.beginKey b
  | .nextKey =>
    if isSpace b then .ok r
    else if b = 0x7D then r.fault .trailingComma
    else r.beginKey b
  | .colon key =>
    if isSpace b then .ok r
    else if b = 0x3A then
      match r.stack with
      | .object done :: stack => .ok { r with phase := .value, stack := .member done key :: stack }
      | _ => r.fault .colon
    else r.fault .colon
  | .complete v => if isSpace b then .ok r else r.behind v b

/-- The machine moved behind one byte. -/
def advance (r : Reader) (b : UInt8) : Reader := { r with place := r.place.after b }

/-- Reads one byte. -/
def step (r : Reader) (b : UInt8) : Step := do (← r.settle b).advance b |>.consume b

/-- What is missing when the text stops inside a list, an object, or nothing. -/
def unfinished (r : Reader) : Cause :=
  match r.stack with
  | [] => .endInValue
  | .list _ :: _ => .endInList
  | _ :: _ => .endInObject

/-- The end of the text. -/
def finish (r : Reader) : Except SyntaxFault Json :=
  match r.phase with
  | .complete v => if r.stack.isEmpty then .ok v else r.fault r.unfinished
  | .number n =>
    match n.value with
    | .ok v => if r.stack.isEmpty then .ok v else r.fault r.unfinished
    | .error cause => r.fault cause
  | .value | .nextItem | .nextKey | .name .. => r.fault .endInValue
  | .firstItem => r.fault .endInList
  | .firstKey | .colon _ => r.fault .endInObject
  | .quote _ => r.fault .endInText

/-- Reads bytes, one after another. -/
def run (r : Reader) (bytes : Bytes) : Step := bytes.foldlM step r

/-- Reads the first value of a text as far as it goes, together with the place behind it and the
bytes that are left. -/
def leading (r : Reader) : Bytes → Except SyntaxFault (Json × Reader × Bytes)
  | [] => do return (← r.finish, r, [])
  | b :: rest => do
    let r ← r.settle b
    match r.phase, r.stack with
    | .complete v, [] => return (v, r, b :: rest)
    | _, _ => leading (← (r.advance b).consume b) rest

@[simp] theorem run_cons (r : Reader) (b : UInt8) (bytes : Bytes) :
    r.run (b :: bytes) = r.step b >>= fun r => r.run bytes := rfl

/-- Reading two texts in a row is reading the second from where the first one ended. -/
theorem run_append (r : Reader) (xs ys : Bytes) :
    r.run (xs ++ ys) = r.run xs >>= fun r => r.run ys := by
  simp [run, List.foldlM_append]

end Reader

/-- The value that a text writes. -/
def parse (bytes : Bytes) : Except SyntaxFault Json := do (← Reader.start.run bytes).finish

end Json
end TagRental
