import TagRental.Text.Blank
import TagRental.Text.Hex

/-!
# Tags

A rentable item carries an NFC tag, and the tag's identifier is all that is known of the item: one
to sixteen bytes, written in lower-case hexadecimal wherever people or the gateway see it.

The bounds are part of the type, so no later module asks whether a tag is well formed.  What has to
be said about them is said of the two functions that build tags from input, `ofBytes` and `ofHex`;
`ofHex` judges the spelling before the length, so a text that is no hexadecimal is never called too
long.

Tags are ordered by their bytes.  Since every byte is written with two digits and the digits ascend
with their values, this is also the order of the written forms.
-/

namespace TagRental

/-- The most bytes a tag identifier has. -/
def Tag.maxLength : Nat := 16

/-- The identifier of a rentable item. -/
structure Tag where
  bytes : Bytes
  nonempty : bytes ≠ []
  length_le : bytes.length ≤ Tag.maxLength
  deriving DecidableEq

namespace Tag

/-- Why an input is no tag. -/
inductive Fault where
  | empty
  | tooLong (length : Nat)
  | notHex (fault : Hex.Fault)
  deriving Repr, DecidableEq

/-- The sentence that reports a fault. -/
def Fault.text : Fault → String
  | .empty => "tag id is empty"
  | .tooLong n => s!"tag id is {n} bytes (maximum {maxLength})"
  | .notHex f => "tag id is not valid hex: " ++ f.text

/-- The tag with the given bytes. -/
def ofBytes (bytes : Bytes) : Except Fault Tag :=
  if hn : bytes = [] then .error .empty
  else if hl : bytes.length ≤ maxLength then .ok ⟨bytes, hn, hl⟩
  else .error (.tooLong bytes.length)

/-- The tag that a text spells; blanks around it do not count. -/
def ofHex (s : String) : Except Fault Tag :=
  match Hex.decode (Text.strip s) with
  | .error f => .error (.notHex f)
  | .ok bytes => ofBytes bytes

/-- The written form of a tag. -/
def hex (t : Tag) : String := Hex.encode t.bytes

/-- A tag as diagnostics show it: its written form, marked as a tag. -/
def marked (t : Tag) : String := "TagId(" ++ t.hex ++ ")"

/-- The number of bytes of a tag. -/
def length (t : Tag) : Nat := t.bytes.length

instance : ToString Tag := ⟨hex⟩

instance : LT Tag := ⟨fun a b => a.bytes < b.bytes⟩

instance (a b : Tag) : Decidable (a < b) := inferInstanceAs (Decidable (a.bytes < b.bytes))

instance : Ord Tag := ⟨fun a b => compareOfLessAndEq a b⟩

@[ext] theorem ext {a b : Tag} (h : a.bytes = b.bytes) : a = b := by
  cases a; cases b; cases h; rfl

theorem ofBytes_bytes (t : Tag) : ofBytes t.bytes = .ok t := by
  simp [ofBytes, t.nonempty, t.length_le]

theorem bytes_of_ofBytes {bytes : Bytes} {t : Tag} (h : ofBytes bytes = .ok t) :
    t.bytes = bytes := by
  unfold ofBytes at h
  split at h
  · cases h
  · split at h
    · cases h; rfl
    · cases h

theorem length_pos (t : Tag) : 0 < t.length := List.length_pos_iff.mpr t.nonempty

end Tag

end TagRental
