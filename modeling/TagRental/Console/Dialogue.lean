import TagRental.Console.Command
import TagRental.Console.Listing
import TagRental.Gateway.Framing
import TagRental.Link.Writer

/-!
# The operator's dialogue

The console reads lines and answers each before it looks at the next.  `answer` is one exchange:
what is printed, the table afterwards, and whether the operator wants to stop.  Only clearing
changes the table.

`Dialogue.run` is the fold of `answer` over the lines of the input.  It stops at the first of four
things: a line that asks to stop, a line that is no text, an output that cannot be written, or the
end of the input.  What was printed before it stops stays printed, and what was answered before
stays done, even if its own answer could not be written.

## Lines

Lines end with a line feed, and one carriage return in front of it belongs to the ending.  What
follows the last line feed is a line too if it is not empty --- but only once the input has ended,
and its carriage return, if it has one, is then part of it.
-/

namespace TagRental
namespace Console

/-- What the operator can ask for, as the console itself tells it. -/
def help : String :=
  "Commands:\n" ++
  "  list           show all rental records\n" ++
  "  status <tag>   show one record (tag in hex)\n" ++
  "  clear          remove all records\n" ++
  "  help           show this help\n" ++
  "  exit           stop the backend\n"

/-- What a line comes to: the text to print, the table afterwards, and whether the dialogue is
over. -/
structure Reply where
  text : String
  store : Store
  isLast : Bool

/-- Carries out a command. -/
def carryOut (store : Store) : Command → Reply
  | .blank => ⟨"", store, false⟩
  | .list => ⟨Listing.table store, store, false⟩
  | .status typed => ⟨Listing.status store typed, store, false⟩
  | .clear => ⟨"All rentals cleared\n", store.clear, false⟩
  | .help => ⟨help, store, false⟩
  | .exit => ⟨"Exiting\n", store, true⟩
  | .unknown line =>
    ⟨"Unknown command: " ++ line ++ "\nType 'help' for commands\n", store, false⟩

/-- Answers a line. -/
def answer (store : Store) (line : String) : Reply := carryOut store (.parse line)

/-! ## Lines of the input -/

/-- How the input stops: it ends, or the console is cancelled while it waits for more. -/
inductive Stop where
  | endOfInput
  | cancelled
  deriving Repr, DecidableEq

/-- A line without the carriage return in front of its line feed. -/
def withoutReturn (line : Bytes) : Bytes :=
  if line.getLast? = some 0x0D then line.dropLast else line

/-- The lines of an input. -/
def lines (input : Bytes) (stop : Stop) : List Bytes :=
  let ended := (completeSegments input).map withoutReturn
  let rest := openSegment input
  if stop = .endOfInput ∧ rest ≠ [] then ended ++ [rest] else ended

/-! ## The dialogue -/

/-- How a dialogue ends. -/
inductive Ending where
  | exit
  | endOfInput
  | cancelled
  | failed (fault : ChannelFault)
  | waiting
  deriving Repr, DecidableEq

/-- The ending of a dialogue whose input has stopped. -/
def Stop.ending : Stop → Ending
  | .endOfInput => .endOfInput
  | .cancelled => .cancelled

/-- A dialogue that is over: how it ended, the table, and what was printed. -/
structure Dialogue where
  ending : Ending
  store : Store
  printed : Written

/-- Prints a text; nothing is written for an empty one. -/
def print (c : Channel) (printed : Written) (text : String) : Written × WriteEnd :=
  if text.isEmpty then (printed, .finished) else c.send printed (Utf8.encode text)

/-- Answers lines one after another. -/
def Dialogue.follow (c : Channel) (stop : Stop) (store : Store) (printed : Written) :
    List Bytes → Dialogue
  | [] => ⟨stop.ending, store, printed⟩
  | line :: rest =>
    match Utf8.decode line with
    | .error fault => ⟨.failed ⟨.invalidData, fault.text⟩, store, printed⟩
    | .ok line =>
      let reply := answer store line
      match print c printed reply.text with
      | (printed, .failed fault) => ⟨.failed fault, reply.store, printed⟩
      | (printed, .waiting _) => ⟨.waiting, reply.store, printed⟩
      | (printed, .finished) =>
        if reply.isLast then ⟨.exit, reply.store, printed⟩
        else Dialogue.follow c stop reply.store printed rest

/-- Runs a dialogue over an input. -/
def Dialogue.run (c : Channel) (store : Store) (input : Bytes) (stop : Stop) : Dialogue :=
  Dialogue.follow c stop store ⟨0, []⟩ (lines input stop)

end Console
end TagRental
