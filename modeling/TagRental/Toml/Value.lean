/-!
# Values of a configuration file

What a TOML document says, without how it says it: tables are lists of entries in the order in which
their keys first appear, and nothing distinguishes a table written under a header from one written
in braces.  A list of tables that headers made is kept apart from a list written in brackets: it
holds nothing but tables and is never empty.  Dates are only recognised, never computed with, so a
date is the text it was written as.
-/

namespace TagRental
namespace Toml

/-- A value. -/
inductive Value where
  | text (s : String)
  | integer (n : Int)
  | real (x : Float)
  | boolean (b : Bool)
  | moment (written : String)
  | list (items : List Value)
  | tables (each : List (List (String × Value)))
  | table (entries : List (String × Value))

/-- The entries of a table, in the order in which their keys appear. -/
abbrev Entries := List (String × Value)

end Toml
end TagRental
