import TagRental.Decimal.Shortest
import TagRental.Text.Hex

/-!
# JSON values and their written form

The gateway speaks JSON, one object to a line.  A value keeps integers and other numbers apart,
because the fields of a message are judged by that difference: `1` is a command and `1.0` is not.

An object is a list of members.  The reader builds it with `Members.insert`, which keeps the keys in
ascending order and lets the last of two equal keys win; a writer that needs the members in an order
of its own hands them over in that order, and `Json.chars` writes them as they come.
-/

namespace TagRental

/-- A JSON value. -/
inductive Json where
  | null
  | bool (b : Bool)
  | int (n : Int)
  | real (x : Float)
  | text (s : String)
  | list (items : List Json)
  | object (members : List (String × Json))

/-- The members of an object. -/
abbrev Members := List (String × Json)

namespace Members

/-- Puts a member at its place among ascending keys; a member with the same key is replaced. -/
def insert (key : String) (value : Json) : Members → Members
  | [] => [(key, value)]
  | (k, v) :: rest =>
    if key < k then (key, value) :: (k, v) :: rest
    else if k < key then (k, v) :: insert key value rest
    else (key, value) :: rest

/-- The value under a key. -/
def get? (m : Members) (key : String) : Option Json := (m.find? fun e => e.1 == key).map (·.2)

/-- The members without the one that has the given key. -/
def erase (m : Members) (key : String) : Members := m.filter fun e => e.1 != key

end Members

namespace Json

/-- Numbers that are no integers are written with their fewest digits, plainly while the exponent of
the leading digit is between -5 and 15. -/
def numberLayout : Decimal.Layout := ⟨some (-5, 15), .toEven⟩

/-- Is the value `null`? -/
def isNull : Json → Bool
  | null => true
  | _ => false

/-- The value as a whole number that fits 64 bits. -/
def toUInt64? : Json → Option UInt64
  | int n => if 0 ≤ n ∧ n.toNat < UInt64.size then some (UInt64.ofNat n.toNat) else none
  | _ => none

/-- A character inside a written string.  The quote, the backslash and the controls are escaped, and
nothing else is. -/
def escapeChar (c : Char) : List Char :=
  if c = '"' then ['\\', '"']
  else if c = '\\' then ['\\', '\\']
  else if c = '\x08' then ['\\', 'b']
  else if c = '\t' then ['\\', 't']
  else if c = '\n' then ['\\', 'n']
  else if c = '\x0c' then ['\\', 'f']
  else if c = '\r' then ['\\', 'r']
  else if c.toNat < 0x20 then
    ['\\', 'u', '0', '0', Hex.digitChar (c.toNat / 16), Hex.digitChar (c.toNat % 16)]
  else [c]

/-- The characters that write a string. -/
def textChars (s : String) : List Char := '"' :: s.toList.flatMap escapeChar ++ ['"']

/-- The characters that write an integer. -/
def intChars (n : Int) : List Char :=
  if n < 0 then '-' :: Nat.toDigits 10 n.natAbs else Nat.toDigits 10 n.natAbs

mutual

/-- The characters that write a value, without any space. -/
def chars : Json → List Char
  | null => ['n', 'u', 'l', 'l']
  | bool true => ['t', 'r', 'u', 'e']
  | bool false => ['f', 'a', 'l', 's', 'e']
  | int n => intChars n
  | real x => (numberLayout.render x).toList
  | text s => textChars s
  | list [] => ['[', ']']
  | list (item :: items) => '[' :: chars item ++ itemsChars items
  | object [] => ['\x7b', '\x7d']
  | object ((key, value) :: members) =>
    '\x7b' :: textChars key ++ ':' :: chars value ++ membersChars members

/-- The rest of a list behind its first item. -/
def itemsChars : List Json → List Char
  | [] => [']']
  | item :: items => ',' :: chars item ++ itemsChars items

/-- The rest of an object behind its first member. -/
def membersChars : List (String × Json) → List Char
  | [] => ['\x7d']
  | (key, value) :: members =>
    ',' :: textChars key ++ ':' :: chars value ++ membersChars members

end

/-- The written form of a value. -/
def render (v : Json) : String := String.ofList v.chars

end Json

end TagRental
