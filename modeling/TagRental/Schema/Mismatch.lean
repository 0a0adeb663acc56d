import TagRental.Text.Quoted

/-!
# Values of the wrong kind

Both the gateway's messages and the configuration file are read into general values first and fitted
to what is expected of them afterwards.  Where a value does not fit, the report names what was found
and what was expected; this module holds the two halves of that sentence, for every reader alike.
-/

namespace TagRental
namespace Schema

/-- What was found: the value itself where it is short enough to be shown.  A number that is no
integer comes as the text that its reader shows it as, since the formats lay such numbers out
differently. -/
inductive Found where
  | nothing
  | boolean (b : Bool)
  | integer (n : Int)
  | real (shown : String)
  | text (s : String)
  | sequence
  | map

/-- The name of what was found. -/
def Found.describe : Found → String
  | .nothing => "null"
  | .boolean b => s!"boolean `{b}`"
  | .integer n => s!"integer `{n}`"
  | .real shown => s!"floating point `{shown}`"
  | .text s => "string " ++ Text.quoted s
  | .sequence => "sequence"
  | .map => "map"

/-- Why a value does not fit: it is of another kind, or a number out of range. -/
inductive Mismatch where
  | kind (found : Found) (expected : String)
  | range (n : Int) (expected : String)

/-- The sentence that reports a mismatch. -/
def Mismatch.text : Mismatch → String
  | .kind found expected => "invalid type: " ++ found.describe ++ ", expected " ++ expected
  | .range n expected =>
    "invalid value: " ++ (Found.integer n).describe ++ ", expected " ++ expected

end Schema
end TagRental
