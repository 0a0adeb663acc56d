import TagRental.Toml.Scalar
import TagRental.Toml.Table
import TagRental.Toml.Token

/-!
# Reading a configuration file

A document is a sequence of lines: headers, pairs and empty lines.  The reader takes one token at a
time; its phase says what is due, and its stack holds the lists and braces that are open.  Only
inside a list may a value go on in the next line.

## Keys

A key is a sequence of parts with dots between them.  A word holds bare parts and dots, a quoted
text is one part, and blanks are allowed around dots but not inside parts; `KeyReader` takes them
character by character.

## Limits

Lists and braces may be nested 79 deep, and a key may have 79 parts.  Nothing that people write
comes near that.
-/

namespace TagRental
namespace Toml

/-! ## Keys -/

/-- What a key needs next: a part; the rest of a bare part, of which the characters so far are held,
last first; or a dot, if it goes on at all. -/
inductive KeyReader.Stage where
  | due
  | bare (chars : List Char)
  | closed
  deriving Repr, DecidableEq

/-- A key in progress; the parts so far are held last first. -/
structure KeyReader where
  parts : List String
  stage : KeyReader.Stage
  deriving Repr, DecidableEq

namespace KeyReader

/-- Nothing read yet. -/
def start : KeyReader := ⟨[], .due⟩

/-- May the character stand in a bare part? -/
def isBareChar (c : Char) : Bool := c.isAlphanum || c == '_' || c == '-'

/-- The end of a word: a bare part ends with it. -/
def endWord (k : KeyReader) : KeyReader :=
  match k.stage with
  | .bare chars => ⟨String.ofList chars.reverse :: k.parts, .closed⟩
  | _ => k

/-- A character of a word. -/
def step (k : KeyReader) (c : Char) : Option KeyReader :=
  if c = '.' then
    match k.endWord with
    | ⟨parts, .closed⟩ => some ⟨parts, .due⟩
    | _ => none
  else if isBareChar c then
    match k.stage with
    | .due => some { k with stage := .bare [c] }
    | .bare chars => some { k with stage := .bare (c :: chars) }
    | .closed => none
  else none

/-- A word. -/
def word (k : KeyReader) (chars : List Char) : Option KeyReader :=
  (chars.foldlM step k).map endWord

/-- A quoted text.  A long one is no part of a key. -/
def quoted (k : KeyReader) (text : String) (isLong : Bool) : Option KeyReader :=
  match k.stage, isLong with
  | .due, false => some ⟨text :: k.parts, .closed⟩
  | _, _ => none

/-- A token of a key. -/
def token (k : KeyReader) : Token → Option KeyReader
  | .word chars => k.word chars
  | .quoted text isLong => k.quoted text isLong
  | _ => none

/-- The most parts of a key. -/
def maxParts : Nat := 79

/-- The key at its end. -/
def finish (k : KeyReader) : Option Key :=
  match k.stage, k.parts with
  | .closed, last :: path => if k.parts.length ≤ maxParts then some ⟨path.reverse, last⟩ else none
  | _, _ => none

end KeyReader

/-! ## Lines -/

/-- What is open around a value: the pair of a line, a list with its items so far, or braces with
their pairs so far and, while a value is due, the key of the next one.  Items and pairs are held
last first. -/
inductive Open where
  | line (key : Key)
  | list (done : List Value)
  | braces (done : List Pair)
  | entry (done : List Pair) (key : Key)

/-- What is due. -/
inductive Phase where
  | lineStart
  /-- Behind `[` at the beginning of a line. -/
  | headerStart
  | header (isList : Bool) (k : KeyReader)
  /-- Behind the first bracket that closes a header of a list. -/
  | headerClose (key : Key)
  | lineEnd
  | key (k : KeyReader)
  | value
  /-- Behind `[`. -/
  | firstItem
  /-- Behind a comma in a list. -/
  | nextItem
  /-- Behind an opening brace. -/
  | firstKey
  /-- Behind a date, which a time of day may follow. -/
  | afterDate (chars : List Char)
  /-- Behind a value in a list or in braces. -/
  | behind

/-- The reader between two tokens.  Sections and pairs are held last first; `header` is the header
of the section in progress, if there has been one. -/
structure Reader where
  leading : List Pair
  sections : List Section
  header : Option Header
  pairs : List Pair
  phase : Phase
  stack : List Open

namespace Reader

/-- Nothing read yet. -/
def start : Reader := ⟨[], [], none, [], .lineStart, []⟩

/-- The most lists and braces that are open at a time. -/
def maxDepth : Nat := 79

/-- Goes on to another phase. -/
def go (r : Reader) (phase : Phase) : Option Reader := some { r with phase := phase }

/-- Ends the section in progress. -/
def endSection (r : Reader) : Reader :=
  match r.header with
  | none => { r with leading := r.pairs.reverse, pairs := [] }
  | some h => { r with sections := ⟨h, r.pairs.reverse⟩ :: r.sections, pairs := [] }

/-- Begins the section of a header. -/
def beginSection (r : Reader) (h : Header) : Option Reader :=
  some { r.endSection with header := some h, phase := .lineEnd }

/-- A value is complete. -/
def complete (r : Reader) (v : Value) : Option Reader :=
  match r.stack with
  | .line key :: stack =>
    some { r with pairs := ⟨key, v⟩ :: r.pairs, phase := .lineEnd, stack := stack }
  | .list done :: stack => some { r with phase := .behind, stack := .list (v :: done) :: stack }
  | .entry done key :: stack =>
    some { r with phase := .behind, stack := .braces (⟨key, v⟩ :: done) :: stack }
  | _ => none

/-- Opens a list or braces.  The bottom of the stack is the line. -/
def opening (r : Reader) (o : Open) (phase : Phase) : Option Reader :=
  if r.stack.length ≤ maxDepth then some { r with phase := phase, stack := o :: r.stack } else none

/-- Closes a list. -/
def closeList (r : Reader) : Option Reader :=
  match r.stack with
  | .list done :: stack => { r with stack := stack }.complete (.list done.reverse)
  | _ => none

/-- Closes braces. -/
def closeBraces (r : Reader) : Option Reader :=
  match r.stack with
  | .braces done :: stack => (inlineTable done.reverse).bind { r with stack := stack }.complete
  | _ => none

/-- The first token of a value. -/
def beginValue (r : Reader) : Token → Option Reader
  | .word chars =>
    if Scalar.isDate chars then r.go (.afterDate chars)
    else (Scalar.classify chars).bind r.complete
  | .quoted text _ => r.complete (.text text)
  | .openList => r.opening (.list []) .firstItem
  | .openTable => r.opening (.braces []) .firstKey
  | _ => none

/-- A token of a key; the key of a pair ends with the sign behind it. -/
def keyToken (r : Reader) (k : KeyReader) : Token → Option Reader
  | .equals =>
    k.finish.bind fun key =>
      match r.stack with
      | [] => some { r with phase := .value, stack := [.line key] }
      | .braces done :: stack => some { r with phase := .value, stack := .entry done key :: stack }
      | _ => none
  | t => (k.token t).bind fun k => r.go (.key k)

/-- A token behind a value in a list or in braces. -/
def behind (r : Reader) (t : Token) : Option Reader :=
  match r.stack, t with
  | .list _ :: _, .lineEnd => some r
  | .list _ :: _, .comma => r.go .nextItem
  | .list _ :: _, .closeList => r.closeList
  | .braces _ :: _, .comma => r.go (.key .start)
  | .braces _ :: _, .closeTable => r.closeBraces
  | _, _ => none

/-- A token that belongs to a line in progress, behind a complete date or not. -/
def lineToken (r : Reader) (t : Token) : Option Reader :=
  match r.phase, t with
  | .lineEnd, .lineEnd => r.go .lineStart
  | .lineEnd, _ => none
  | _, _ => r.behind t

/-- Takes one token. -/
def step (r : Reader) (s : Spaced) : Option Reader :=
  match r.phase, s.token with
  | .lineStart, .lineEnd => some r
  | .lineStart, .openList => r.go .headerStart
  | .lineStart, t => r.keyToken .start t
  | .headerStart, .openList => if s.gap.isEmpty then r.go (.header true .start) else none
  | .headerStart, t => (KeyReader.start.token t).bind fun k => r.go (.header false k)
  | .header isList k, .closeList =>
    k.finish.bind fun key => if isList then r.go (.headerClose key) else r.beginSection ⟨false, key⟩
  | .header isList k, t => (k.token t).bind fun k => r.go (.header isList k)
  | .headerClose key, .closeList => if s.gap.isEmpty then r.beginSection ⟨true, key⟩ else none
  | .headerClose _, _ => none
  | .key k, t => r.keyToken k t
  | .value, t => r.beginValue t
  | .firstItem, .lineEnd => some r
  | .firstItem, .closeList => r.closeList
  | .firstItem, t => r.beginValue t
  | .nextItem, .lineEnd => some r
  | .nextItem, .closeList => r.closeList
  | .nextItem, t => r.beginValue t
  | .firstKey, .closeTable => r.closeBraces
  | .firstKey, t => r.keyToken .start t
  | .afterDate chars, .word time =>
    if s.gap = [' '] then (Scalar.classify (chars ++ ' ' :: time)).bind r.complete else none
  | .afterDate chars, t =>
    ((Scalar.classify chars).bind r.complete).bind fun r => r.lineToken t
  | .lineEnd, t | .behind, t => r.lineToken t

/-- The end of the document: it has to be the end of a line. -/
def finish (r : Reader) : Option Entries :=
  let r? :=
    match r.phase with
    | .lineStart | .lineEnd => some r
    | .afterDate chars => (Scalar.classify chars).bind r.complete
    | _ => none
  r?.bind fun r =>
    if r.stack.isEmpty then
      let r := r.endSection
      assemble r.leading r.sections.reverse
    else none

end Reader

/-- The document without the mark that may stand in front of it. -/
def withoutMark : List Char → List Char
  | '\uFEFF' :: rest => rest
  | cs => cs

/-- Reads a document; nothing is returned for a text that is none. -/
def parse (document : String) : Option Entries := do
  let ts ← tokens (withoutMark document.toList)
  (← ts.foldlM Reader.step .start).finish

end Toml
end TagRental
