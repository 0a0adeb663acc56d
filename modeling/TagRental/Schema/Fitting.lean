import TagRental.Decimal.Shortest
import TagRental.Schema.Mismatch
import TagRental.Toml.Value

/-!
# Fitting values to what is expected

A configuration file is read into general values; here they are fitted to structures.  A structure
is a list of fields, each with a name and a way to take in a value.  Entries are taken in the order
of the document, and the first one that does not fit is reported, so a fault further up in the file
hides those below it.  A name without a field is a fault as well.

A list fits a structure too: its items are the fields in their order, missing ones keep what they
had and surplus ones are not looked at.  A list of tables made by headers fits like any other list,
except as the content of a choice, where it has a report of its own.  A date fits like a table with
one name that no structure has.
-/

namespace TagRental
namespace Schema

/-- Why a value does not fit a structure. -/
inductive Fault where
  | mismatch (m : Mismatch)
  | unknownField (name : String) (expected : List String)
  | unknownChoice (word : String) (expected : List String)
  | notChoice
  | noChoice
  | severalChoices
  | choiceWithContent
  | choiceWithTables
  | choiceWithScalar (kind : String)
  | refused (reason : String)

/-- A name between accents. -/
def accented (name : String) : String := "`" ++ name ++ "`"

/-- What would have been right: one of two names, or one of a longer list. -/
def alternatives : List String → String
  | [a] => accented a
  | [a, b] => accented a ++ " or " ++ accented b
  | names => "one of " ++ String.intercalate ", " (names.map accented)

/-- The sentence that reports a fault. -/
def Fault.text : Fault → String
  | mismatch m => m.text
  | unknownField name expected =>
    "unknown field " ++ accented name ++ ", expected " ++ alternatives expected
  | unknownChoice word expected =>
    "unknown variant " ++ accented word ++ ", expected " ++ alternatives expected
  | notChoice => "wanted string or table"
  | noChoice => "wanted exactly 1 element, found 0 elements"
  | severalChoices => "wanted exactly 1 element, more than 1 element"
  | choiceWithContent => "expected empty table"
  | choiceWithTables => "expected empty array"
  | choiceWithScalar kind => "expected table, found " ++ kind
  | refused reason => reason

/-- Numbers of a configuration file that are no integers are shown in plain notation, however many
zeros that takes. -/
def realLayout : Decimal.Layout := ⟨none, .upward⟩

/-- What was found, for a report. -/
def Found.ofValue : Toml.Value → Found
  | .text s => .text s
  | .integer n => .integer n
  | .real x => .real (realLayout.render x)
  | .boolean b => .boolean b
  | .moment _ => .map
  | .list _ | .tables _ => .sequence
  | .table _ => .map

/-- A value of the wrong kind. -/
def mismatched {α : Type} (v : Toml.Value) (expected : String) : Except Fault α :=
  .error (.mismatch (.kind (.ofValue v) expected))

/-- A number of so many bits without a sign. -/
def natural (bits : Nat) (v : Toml.Value) : Except Fault Nat :=
  let expected := "u" ++ toString bits
  match v with
  | .integer n =>
    if 0 ≤ n ∧ n.toNat < Nat.pow 2 bits then .ok n.toNat else .error (.mismatch (.range n expected))
  | v => mismatched v expected

/-- A text. -/
def text : Toml.Value → Except Fault String
  | .text s => .ok s
  | v => mismatched v "a string"

/-- One of some words. -/
def word {α : Type} (words : List (String × α)) (w : String) : Except Fault α :=
  match words.find? fun e => e.1 == w with
  | some (_, a) => .ok a
  | none => .error (.unknownChoice w (words.map Prod.fst))

/-- The content that a word given as the only key of a table may have: nothing. -/
def noContent : Toml.Value → Except Fault Unit
  | .list [] | .table [] => .ok ()
  | .list _ | .table _ => .error .choiceWithContent
  | .tables _ => .error .choiceWithTables
  | .text _ => .error (.choiceWithScalar "string")
  | .integer _ => .error (.choiceWithScalar "integer")
  | .real _ => .error (.choiceWithScalar "float")
  | .boolean _ => .error (.choiceWithScalar "boolean")
  | .moment _ => .error (.choiceWithScalar "datetime")

/-- A choice among some words, given as a text or as the only key of a table. -/
def choice {α : Type} (words : List (String × α)) : Toml.Value → Except Fault α
  | .text w => word words w
  | .table [] => .error .noChoice
  | .table [(w, content)] => do
    let a ← word words w
    noContent content
    return a
  | .table _ => .error .severalChoices
  | _ => .error .notChoice

/-- A field of a structure: its name, and how it takes in a value. -/
structure Field (σ : Type) where
  name : String
  take : Toml.Value → σ → Except Fault σ

namespace Field

/-- A field that reads a value and puts it into the structure. -/
def of {σ α : Type} (name : String) (read : Toml.Value → Except Fault α) (put : σ → α → σ) :
    Field σ :=
  ⟨name, fun v s => (read v).map (put s)⟩

/-- Takes in one named value. -/
def takeEntry {σ : Type} (fields : List (Field σ)) (s : σ) (e : String × Toml.Value) :
    Except Fault σ :=
  match fields.find? fun f => f.name == e.1 with
  | some f => f.take e.2 s
  | none => .error (.unknownField e.1 (fields.map Field.name))

end Field

/-- The one name in a date that is read as a table. -/
def momentKey : String := "$__toml_private_datetime"

/-- A structure with the given title and fields, filled into one that is there already. -/
def fill {σ : Type} (title : String) (fields : List (Field σ)) (s : σ) :
    Toml.Value → Except Fault σ
  | .table entries => entries.foldlM (Field.takeEntry fields) s
  | .list items => (fields.zip items).foldlM (fun s (f, v) => f.take v s) s
  | .tables each => (fields.zip each).foldlM (fun s (f, entries) => f.take (.table entries) s) s
  | .moment written => Field.takeEntry fields s (momentKey, .text written)
  | v => mismatched v ("struct " ++ title)

end Schema
end TagRental
