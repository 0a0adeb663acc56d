import TagRental.Toml.Scalar

/-!
# Tokens of a configuration file

The text is cut into tokens by a machine that takes one character at a time.  Quoted texts are read
to their end here, with their escapes resolved; comments disappear; everything else is a mark of
punctuation, the end of a line, or a *word*: a run of letters, digits and the signs that occur in
bare keys and bare values.  Whether a word is a key or a value depends on where it stands, so words
are not looked into.

A token remembers the blanks in front of it.  They matter in two places only: the brackets of a
table list must touch, and a date and a time may be separated by a single space.

## Long texts

A text between tripled quotes may hold its own quote once or twice in a row, so a run of quotes ends
the text only if there are three, and up to two more in front of them belong to it.  The machine
counts them; at the fifth it knows.  A line break directly behind the opening quotes is not part of
the text, and a backslash at the end of a line swallows everything blank up to the next character.
-/

namespace TagRental
namespace Toml

/-- The smallest parts of a document. -/
inductive Token where
  | word (chars : List Char)
  | quoted (text : String) (isLong : Bool)
  | equals
  | comma
  | openList
  | closeList
  | openTable
  | closeTable
  | lineEnd
  deriving Repr, DecidableEq

/-- A token and the blanks in front of it. -/
structure Spaced where
  gap : List Char
  token : Token
  deriving Repr, DecidableEq

/-! ## Quoted texts -/

/-- How far a quoted text has been read. -/
inductive Quotation.Stage where
  /-- Behind the first quote. -/
  | opened
  /-- Behind two quotes: an empty text, or the opening of a long one. -/
  | openedTwice
  /-- Directly behind the quotes that open a long text. -/
  | longStart
  /-- Behind a carriage return there. -/
  | longStartReturn
  | inside
  /-- Behind a carriage return inside a long text. -/
  | afterReturn
  /-- Behind some quotes inside a long text. -/
  | quotes (count : Nat)
  /-- Behind a backslash. -/
  | escape
  /-- Inside the digits of a code point. -/
  | code (need value : Nat)
  /-- Behind a backslash and blanks: a line break is due. -/
  | foldDue
  /-- Behind a backslash and a line break: blanks and line breaks are swallowed. -/
  | fold
  /-- Behind a carriage return that a backslash swallows. -/
  | foldReturn
  deriving Repr, DecidableEq

/-- A quoted text in progress: is it taken literally, is it long, its characters so far, last first,
and how far it has been read. -/
structure Quotation where
  isLiteral : Bool
  isLong : Bool
  chars : List Char
  stage : Quotation.Stage
  deriving Repr, DecidableEq

namespace Quotation

/-- What a character does to a quoted text: it belongs to it, it closes it, or it is the first one
behind a text that is already closed. -/
inductive Move where
  | more (q : Quotation)
  | closes (chars : List Char)
  | closedBefore (chars : List Char)

/-- A text behind its first quote. -/
def start (isLiteral : Bool) : Quotation := ⟨isLiteral, false, [], .opened⟩

/-- The quote of a text. -/
def quote (q : Quotation) : Char := if q.isLiteral then '\'' else '"'

/-- Goes on at another stage. -/
def go (q : Quotation) (stage : Stage) : Option Move := some (.more { q with stage := stage })

/-- Adds a character. -/
def push (q : Quotation) (c : Char) : Option Move :=
  some (.more { q with chars := c :: q.chars, stage := .inside })

/-- The characters with so many quotes behind them. -/
def withQuotes (q : Quotation) (count : Nat) : List Char := List.replicate count q.quote ++ q.chars

/-- May the character stand for itself? -/
def isPlain (c : Char) : Bool := c == '\t' || (' ' ≤ c && c != '\x7f')

/-- A character inside a text. -/
def insideStep (q : Quotation) (c : Char) : Option Move :=
  if c = q.quote then if q.isLong then q.go (.quotes 1) else some (.closes q.chars)
  else if c = '\\' ∧ !q.isLiteral then q.go .escape
  else if c = '\n' ∧ q.isLong then q.push '\n'
  else if c = '\r' ∧ q.isLong then q.go .afterReturn
  else if isPlain c then q.push c
  else none

/-- The character that a one-letter escape stands for. -/
def letter? (c : Char) : Option Char :=
  match c with
  | 'b' => some '\x08'
  | 't' => some '\t'
  | 'n' => some '\n'
  | 'f' => some '\x0c'
  | 'r' => some '\r'
  | '"' => some '"'
  | '\\' => some '\\'
  | _ => none

/-- A character behind a backslash. -/
def escapeStep (q : Quotation) (c : Char) : Option Move :=
  match letter? c with
  | some e => q.push e
  | none =>
    if c = 'u' then q.go (.code 4 0)
    else if c = 'U' then q.go (.code 8 0)
    else if !q.isLong then none
    else if c = ' ' ∨ c = '\t' then q.go .foldDue
    else if c = '\n' then q.go .fold
    else if c = '\r' then q.go .foldReturn
    else none

/-- A digit of a code point, the last of `need`. -/
def codeStep (q : Quotation) (need value : Nat) (c : Char) : Option Move :=
  let value := value * 16 + Scalar.digitValue c
  if !Scalar.isDigitOf 16 c then none
  else if 1 < need then q.go (.code (need - 1) value)
  else if h : value.isValidChar then q.push (Char.ofNatAux value h)
  else none

/-- Takes one character. -/
def step (q : Quotation) (c : Char) : Option Move :=
  match q.stage with
  | .opened => if c = q.quote then q.go .openedTwice else q.insideStep c
  | .openedTwice =>
    if c = q.quote then some (.more { q with isLong := true, stage := .longStart })
    else some (.closedBefore [])
  | .longStart =>
    if c = '\n' then q.go .inside
    else if c = '\r' then q.go .longStartReturn
    else q.insideStep c
  | .longStartReturn => if c = '\n' then q.go .inside else none
  | .inside => q.insideStep c
  | .afterReturn => if c = '\n' then q.push '\n' else none
  | .quotes count =>
    if c = q.quote then
      if count = 4 then some (.closes (q.withQuotes 2)) else q.go (.quotes (count + 1))
    else if 3 ≤ count then some (.closedBefore (q.withQuotes (count - 3)))
    else { q with chars := q.withQuotes count, stage := .inside }.insideStep c
  | .escape => q.escapeStep c
  | .code need value => q.codeStep need value c
  | .foldDue =>
    if c = ' ' ∨ c = '\t' then q.go .foldDue
    else if c = '\n' then q.go .fold
    else if c = '\r' then q.go .foldReturn
    else none
  | .fold =>
    if c = ' ' ∨ c = '\t' ∨ c = '\n' then q.go .fold
    else if c = '\r' then q.go .foldReturn
    else q.insideStep c
  | .foldReturn => if c = '\n' then q.go .fold else none

/-- The characters of a text at the end of the document, if it is closed there. -/
def finish (q : Quotation) : Option (List Char) :=
  match q.stage with
  | .openedTwice => some []
  | .quotes count => if 3 ≤ count then some (q.withQuotes (count - 3)) else none
  | _ => none

/-- The token of a closed text. -/
def token (q : Quotation) (chars : List Char) : Token :=
  .quoted (String.ofList chars.reverse) q.isLong

end Quotation

/-! ## The machine -/

/-- What is being read. -/
inductive Lexer.Mode where
  | between
  | word (chars : List Char)
  | comment
  /-- Behind a carriage return: a line feed is due. -/
  | lineReturn
  | quotation (q : Quotation)
  deriving Repr, DecidableEq

/-- The machine between two characters: what is being read, the blanks in front of it, last first,
and the tokens so far, last first. -/
structure Lexer where
  mode : Lexer.Mode
  gap : List Char
  done : List Spaced
  deriving Repr, DecidableEq

namespace Lexer

/-- Nothing read yet. -/
def start : Lexer := ⟨.between, [], []⟩

/-- Adds a token. -/
def emit (l : Lexer) (t : Token) : Lexer := ⟨.between, [], ⟨l.gap.reverse, t⟩ :: l.done⟩

/-- Goes on in another mode. -/
def go (l : Lexer) (mode : Mode) : Option Lexer := some { l with mode := mode }

/-- May the character stand in a word? -/
def isWordChar (c : Char) : Bool :=
  c.isAlphanum || c == '_' || c == '-' || c == '.' || c == ':' || c == '+'

/-- A character with nothing in progress. -/
def begin (l : Lexer) (c : Char) : Option Lexer :=
  if c = ' ' ∨ c = '\t' then some { l with gap := c :: l.gap }
  else if c = '\n' then some (l.emit .lineEnd)
  else if c = '\r' then l.go .lineReturn
  else if c = '#' then l.go .comment
  else if c = '"' then l.go (.quotation (.start false))
  else if c = '\'' then l.go (.quotation (.start true))
  else if c = '=' then some (l.emit .equals)
  else if c = ',' then some (l.emit .comma)
  else if c = '[' then some (l.emit .openList)
  else if c = ']' then some (l.emit .closeList)
  else if c = '\x7b' then some (l.emit .openTable)
  else if c = '\x7d' then some (l.emit .closeTable)
  else if isWordChar c then l.go (.word [c])
  else none

/-- Takes one character. -/
def step (l : Lexer) (c : Char) : Option Lexer :=
  match l.mode with
  | .between => l.begin c
  | .word chars =>
    if isWordChar c then l.go (.word (c :: chars)) else (l.emit (.word chars.reverse)).begin c
  | .comment =>
    if c = '\n' then some (l.emit .lineEnd)
    else if c = '\r' then l.go .lineReturn
    else if Quotation.isPlain c then some l
    else none
  | .lineReturn => if c = '\n' then some (l.emit .lineEnd) else none
  | .quotation q =>
    match q.step c with
    | none => none
    | some (.more q) => l.go (.quotation q)
    | some (.closes chars) => some (l.emit (q.token chars))
    | some (.closedBefore chars) => (l.emit (q.token chars)).begin c

/-- The end of the document. -/
def finish (l : Lexer) : Option (List Spaced) :=
  match l.mode with
  | .between | .comment => some l.done.reverse
  | .word chars => some (l.emit (.word chars.reverse)).done.reverse
  | .lineReturn => none
  | .quotation q => q.finish.map fun chars => (l.emit (q.token chars)).done.reverse

end Lexer

/-- The tokens of a document. -/
def tokens (document : List Char) : Option (List Spaced) :=
  (document.foldlM Lexer.step .start).bind Lexer.finish

end Toml
end TagRental
