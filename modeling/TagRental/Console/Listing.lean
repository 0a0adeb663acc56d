import TagRental.Calendar
import TagRental.Rental.Store

/-!
# Records as the operator sees them

A record is five lines, a list of records a header and the records in the order of their tags.  What
is shown for one record does not depend on the others, so a list is its header followed by what the
operator would see on asking for each of its tags.

Times are shown as the number that is stored, with the date beside it; a time of zero means "never"
and has no date.
-/

namespace TagRental
namespace Listing

/-- A time: the stored number and, unless it is zero, the moment it stands for. -/
def time (seconds : UInt64) : String :=
  if seconds = 0 then "0" else toString seconds ++ " (" ++ Calendar.timestamp seconds ++ ")"

/-- The lines of one record. -/
def record (tag : Tag) (r : Record) : String :=
  "  tag " ++ tag.hex ++ " (" ++ toString tag.length ++ " bytes)\n" ++
  "    status:   " ++ toString r.status.code ++ " (" ++ r.status.name ++ ")\n" ++
  "    rented:   " ++ time r.rentedAt ++ "\n" ++
  "    duration: " ++ toString r.duration ++ "s\n" ++
  "    returned: " ++ time r.returnedAt ++ "\n"

/-- The lines of every record of a table. -/
def table (s : Store) : String :=
  if s.isEmpty then "No rental items found\n"
  else
    "Rental items (" ++ toString s.size ++ "):\n" ++
      String.join (s.snapshot.map fun e => record e.1 e.2)

/-- The lines of the record under a tag, given as the operator typed it. -/
def status (s : Store) (typed : String) : String :=
  match Tag.ofHex typed with
  | .error fault => "Invalid tag " ++ typed ++ ": " ++ fault.text ++ "\n"
  | .ok tag =>
    match s.get? tag with
    | some r => record tag r
    | none => "No rental found for tag " ++ tag.hex ++ "\n"

end Listing
end TagRental
