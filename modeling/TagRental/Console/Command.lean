import TagRental.Text.Blank

/-!
# Operator commands

The operator types one command per line.  The first word decides, in any mixture of ASCII upper and
lower case; only asking for one record takes an argument, and words behind what a command needs are
not looked at.  A line without words asks for nothing.  Any other line is unknown and is repeated in
the answer without the blanks around it --- also the one that asks for a record and does not say
which.
-/

namespace TagRental
namespace Console

/-- What a line asks for. -/
inductive Command where
  | list
  | status (tag : String)
  | clear
  | exit
  | help
  | blank
  | unknown (line : String)
  deriving Repr, DecidableEq

/-- The command of a line with the given first word, in lower case, and the words behind it. -/
def Command.ofWords (line head : String) (arguments : List String) : Command :=
  match head, arguments with
  | "list", _ => .list
  | "status", tag :: _ => .status tag
  | "clear", _ => .clear
  | "exit", _ => .exit
  | "quit", _ => .exit
  | "help", _ => .help
  | "?", _ => .help
  | _, _ => .unknown (Text.strip line)

/-- Reads a line. -/
def Command.parse (line : String) : Command :=
  match Text.words line with
  | [] => .blank
  | head :: arguments => .ofWords line (Text.lowerAscii head) arguments

end Console
end TagRental
