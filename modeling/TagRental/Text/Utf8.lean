/-!
# Bytes and the text they hold

The gateway, the operator and the configuration file all hand over bytes, and none of them promises
that the bytes are text.  This module reads a byte string as UTF-8 once, from left to right, and
keeps everything the callers ask about afterwards: the characters, where the text first goes wrong,
and a readable stand-in for text that is damaged.

## Why a machine and not a recursive reader

A multi-byte character is recognised by its first byte, which says how many bytes follow and which
range the *next* one must lie in; every later one lies in `0x80`--`0xBF`.  That range is all that
has to be remembered between two bytes, so the reader is a left fold of `Scan.step` and reading
`xs ++ ys` is reading `ys` from where `xs` left off (`List.foldl_append`).  Overlong forms,
surrogates and values past the last code point are excluded by the range of the second byte alone,
which is why no finished character has to be checked again.

## What a damaged place is

A byte that cannot continue the character in progress ends that character there: the bytes read so
far are one damaged place, and the byte itself is looked at again as a first byte.  A byte that
begins no character is a damaged place of its own.  Text that stops inside a character is damaged at
its end, with no width to report.
-/

namespace TagRental

/-- A string of bytes, first byte first. -/
abbrev Bytes := List UInt8

namespace Utf8

/-- Where text first goes wrong: the number of bytes of sound text in front of the damage, and how
many bytes are damaged.  There is no width when the text ends inside a character that was sound so
far. -/
structure Fault where
  validUpTo : Nat
  width : Option Nat
  deriving Repr, DecidableEq

/-- The sentence that reports a fault. -/
def Fault.text : Fault → String
  | ⟨start, some n⟩ => s!"invalid utf-8 sequence of {n} bytes from index {start}"
  | ⟨start, none⟩ => s!"incomplete utf-8 byte sequence from index {start}"

/-- A character in progress: how many bytes it still needs, the range of the next one, the bits
collected and the number of bytes seen. -/
structure Opening where
  need : Nat
  low : UInt8
  high : UInt8
  bits : Nat
  seen : Nat
  deriving Repr, DecidableEq

/-- What a byte says when it stands first: a whole character, the opening of a longer one, or
nothing. -/
inductive Lead where
  | whole (c : Char)
  | opens (o : Opening)
  | stray
  deriving Repr, DecidableEq

/-- Reads a first byte. -/
def lead (b : UInt8) : Lead :=
  if b < 0x80 then .whole (Char.ofNat b.toNat)
  else if b < 0xC2 then .stray
  else if b < 0xE0 then .opens ⟨1, 0x80, 0xBF, b.toNat - 0xC0, 1⟩
  else if b = 0xE0 then .opens ⟨2, 0xA0, 0xBF, 0, 1⟩
  else if b = 0xED then .opens ⟨2, 0x80, 0x9F, 0xD, 1⟩
  else if b < 0xF0 then .opens ⟨2, 0x80, 0xBF, b.toNat - 0xE0, 1⟩
  else if b = 0xF0 then .opens ⟨3, 0x90, 0xBF, 0, 1⟩
  else if b < 0xF4 then .opens ⟨3, 0x80, 0xBF, b.toNat - 0xF0, 1⟩
  else if b = 0xF4 then .opens ⟨3, 0x80, 0x8F, 4, 1⟩
  else .stray

/-- The reader between two bytes.  `chars` holds what was read, last first, with one replacement
character for each damaged place; `offset` counts the bytes that `chars` accounts for; `fault` is
the first damage met. -/
structure Scan where
  chars : List Char
  offset : Nat
  pending : Option Opening
  fault : Option Fault
  deriving Repr, DecidableEq

namespace Scan

/-- Nothing read yet. -/
def start : Scan := ⟨[], 0, none, none⟩

/-- The character that stands for a damaged place. -/
def replacement : Char := '\uFFFD'

/-- Records a damaged place of `seen` bytes; the first one is kept as the fault. -/
def damage (s : Scan) (seen : Nat) (width : Option Nat) : Scan :=
  { chars := replacement :: s.chars
    offset := s.offset + seen
    pending := none
    fault := s.fault <|> some ⟨s.offset, width⟩ }

/-- Reads a byte with no character in progress. -/
def first (s : Scan) (b : UInt8) : Scan :=
  match lead b with
  | .whole c => { s with chars := c :: s.chars, offset := s.offset + 1 }
  | .opens o => { s with pending := some o }
  | .stray => s.damage 1 (some 1)

/-- Reads one byte. -/
def step (s : Scan) (b : UInt8) : Scan :=
  match s.pending with
  | none => s.first b
  | some o =>
    if o.low ≤ b ∧ b ≤ o.high then
      let bits := o.bits * 64 + (b.toNat - 0x80)
      if o.need ≤ 1 then
        { s with
          chars := Char.ofNat bits :: s.chars
          offset := s.offset + o.seen + 1
          pending := none }
      else { s with pending := some ⟨o.need - 1, 0x80, 0xBF, bits, o.seen + 1⟩ }
    else (s.damage o.seen (some o.seen)).first b

/-- The end of the bytes: a character still in progress is damage without a width. -/
def finish (s : Scan) : Scan :=
  match s.pending with
  | none => s
  | some o => s.damage o.seen none

end Scan

/-- Reads a whole byte string. -/
def scan (bytes : Bytes) : Scan := (bytes.foldl Scan.step .start).finish

/-- The text of a byte string, or where it goes wrong. -/
def decode (bytes : Bytes) : Except Fault String :=
  let s := scan bytes
  match s.fault with
  | some f => .error f
  | none => .ok (String.ofList s.chars.reverse)

/-- The text of a byte string if it is text. -/
def decode? (bytes : Bytes) : Option String := (decode bytes).toOption

/-- A readable form of any byte string: each damaged place becomes one replacement character. -/
def lossy (bytes : Bytes) : String := String.ofList (scan bytes).chars.reverse

/-- The bytes of a list of characters. -/
def encodeChars (cs : List Char) : Bytes := cs.flatMap String.utf8EncodeChar

/-- The bytes of a text. -/
def encode (s : String) : Bytes := encodeChars s.toList

@[simp] theorem encodeChars_nil : encodeChars [] = [] := rfl

@[simp] theorem encodeChars_cons (c : Char) (cs : List Char) :
    encodeChars (c :: cs) = String.utf8EncodeChar c ++ encodeChars cs := rfl

@[simp] theorem encodeChars_append (cs ds : List Char) :
    encodeChars (cs ++ ds) = encodeChars cs ++ encodeChars ds := by
  simp [encodeChars]

@[simp] theorem encode_append (s t : String) : encode (s ++ t) = encode s ++ encode t := by
  simp [encode]

/-- Damage, where there is any, is what a sound text has not. -/
theorem decode_eq_ok_iff {bytes : Bytes} {s : String} :
    decode bytes = .ok s ↔
      (scan bytes).fault = none ∧ s = String.ofList (scan bytes).chars.reverse := by
  simp only [decode]
  cases (scan bytes).fault <;> simp [eq_comm]

end Utf8

end TagRental
