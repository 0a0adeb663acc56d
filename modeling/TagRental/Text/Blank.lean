/-!
# White space

Tags and operator commands are typed by people and pasted from elsewhere, so "surrounded by blanks"
means the white space of the Unicode standard: twenty-five code points, in ten ranges.  Core's
`Char.isWhitespace` knows only four of them.

Stripping and splitting are stated on lists of characters; the two functions on `String` only wrap
them.
-/

namespace TagRental
namespace Text

/-- The white-space characters, as closed ranges of code points, ascending and apart. -/
def blankRanges : List (Nat × Nat) :=
  [(0x09, 0x0D), (0x20, 0x20), (0x85, 0x85), (0xA0, 0xA0), (0x1680, 0x1680), (0x2000, 0x200A),
    (0x2028, 0x2029), (0x202F, 0x202F), (0x205F, 0x205F), (0x3000, 0x3000)]

/-- Is the number in one of the closed ranges? -/
def inRanges (ranges : List (Nat × Nat)) (n : Nat) : Bool :=
  ranges.any fun r => r.1 ≤ n && n ≤ r.2

/-- Is the character white space? -/
def isBlank (c : Char) : Bool := inRanges blankRanges c.toNat

/-- The twenty-five characters of the property. -/
example : (blankRanges.map fun r => r.2 + 1 - r.1).sum = 25 := by decide

/-- The characters without the blanks at either end. -/
def stripChars (cs : List Char) : List Char :=
  ((cs.dropWhile isBlank).reverse.dropWhile isBlank).reverse

/-- The text without the blanks at either end. -/
def strip (s : String) : String := String.ofList (stripChars s.toList)

/-- Reading from the right, one more character: a blank closes the word in front of it, and anything
else is added to that word. -/
def wordsStep (c : Char) : List Char × List (List Char) → List Char × List (List Char)
  | (word, done) =>
    if isBlank c then ([], if word.isEmpty then done else word :: done) else (c :: word, done)

/-- The maximal runs of characters that are not blank. -/
def wordsChars (cs : List Char) : List (List Char) :=
  match cs.foldr wordsStep ([], []) with
  | (word, done) => if word.isEmpty then done else word :: done

/-- The words of a text. -/
def words (s : String) : List String := (wordsChars s.toList).map String.ofList

/-- The text with its ASCII letters in lower case and every other character unchanged. -/
def lowerAscii (s : String) : String := String.ofList (s.toList.map Char.toLower)

end Text
end TagRental
