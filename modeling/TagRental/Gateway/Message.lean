import TagRental.Gateway.Status
import TagRental.Gateway.Tag
import TagRental.Json.Reader
import TagRental.Schema.Mismatch

/-!
# Messages

A message is one JSON object.  Its `cmd` says which command it is, and the command says which other
members it has; whatever else the object holds is kept as it came.  The gateway asks (start a
rental, end it, tell its status) and the backend answers with a status response; the two remaining
codes never have an effect.

## Reading a message

A member whose value is `null` counts as absent.  The checks come in a fixed order --- first the
command, then its members in the order in which `Command` lists them, the length of the tag before
its spelling --- and the first one that fails is the fault.  Two oddities are only remarked on and
do not make a message bad: a declared tag length that is not the actual one, and a duration that is
no number of seconds between one and the largest the firmware can hold.  A remark made before a
check fails is still made.

A check takes the member that it looks at out of the object, whether it is `null` or not, so what is
left when all checks have passed is what the command leaves over.  Nothing says beforehand which
members those are: they are the ones that no check has asked for.

## Writing a response

A response is written with its members in the order the firmware expects, which is not the
alphabetical one, and ends with the delimiter.
-/

namespace TagRental

/-- What the backend tells the gateway about an item, asked or unasked. -/
structure Response where
  status : Status
  tag : Tag
  timestamp : UInt64
  duration : UInt64
  deriving DecidableEq

namespace Response

/-- A response without times. -/
def bare (tag : Tag) (status : Status) : Response := ⟨status, tag, 0, 0⟩

/-- The command code of a response. -/
def command : Nat := 4

/-- The members of a written response, in their order. -/
def members (r : Response) : Members :=
  [("cmd", .int command), ("status", .int r.status.code.toNat), ("tag_id", .text r.tag.hex),
    ("tag_id_len", .int r.tag.length), ("timestamp", .int r.timestamp.toNat),
    ("duration", .int r.duration.toNat)]

/-- The bytes of a response without the delimiter. -/
def payload (r : Response) : Bytes := Utf8.encodeChars (Json.object r.members).chars

/-- The bytes of a response on the wire. -/
def encode (r : Response) : Bytes := r.payload ++ [0x0A]

end Response

/-- A command, with what belongs to it. -/
inductive Command where
  | rentalStart (tag : Tag) (duration : Option UInt64)
  | rentalEnd (tag : Tag)
  | statusRequest (tag : Tag)
  | statusResponse (response : Response)
  | error
  | unknown (code : UInt64)
  deriving DecidableEq

namespace Command

/-- The code of a command. -/
def code : Command → UInt64
  | rentalStart .. => 1
  | rentalEnd _ => 2
  | statusRequest _ => 3
  | statusResponse _ => 4
  | error => 255
  | unknown n => n

/-- The name of a command. -/
def name : Command → String
  | rentalStart .. => "rental_start"
  | rentalEnd _ => "rental_end"
  | statusRequest _ => "status_request"
  | statusResponse _ => "status_response"
  | error => "error"
  | unknown _ => "unknown"

end Command

/-- A command and the members that it leaves over. -/
structure Message where
  command : Command
  extra : Members

namespace Message

/-- The largest duration in seconds that the firmware can hold. -/
def maxDuration : UInt64 := 4294967295

/-- Why a payload is no message. -/
inductive Fault where
  | notJson (fault : Json.SyntaxFault)
  | notObject
  | missing (member : String)
  | notWhole (member : String)
  | tagNotText
  | badTag (fault : Tag.Fault)
  | unknownStatus (code : UInt64)
  deriving DecidableEq

/-- The sentence that reports a fault. -/
def Fault.text : Fault → String
  | .notJson f => "malformed message: " ++ f.text
  | .notObject => "malformed message: expected a JSON object"
  | .missing member => "missing field: " ++ member
  | .notWhole member => "malformed message: " ++ member ++ " must be a non-negative integer"
  | .tagNotText => "malformed message: tag_id must be a hex string"
  | .badTag f => "malformed message: tag_id: " ++ f.text
  | .unknownStatus code => s!"malformed message: unknown status code {code}"

/-- What is remarked on in a message that is not bad for it. -/
inductive Remark where
  | tagLength (tag : Tag) (declared : UInt64)
  | durationIgnored (value : Json)

/-- The line that a remark leaves in the log. -/
def Remark.text : Remark → String
  | .tagLength tag declared =>
    s!"wire: tag_id_len mismatch tag={tag} declared={declared} actual={tag.length}"
  | .durationIgnored value => "wire: ignoring invalid duration=" ++ value.render

/-- The result of reading: a fault or what was read, and the remarks made on the way. -/
structure Reading (α : Type) where
  remarks : List Remark
  result : Except Fault α

namespace Reading

/-- Nothing to remark on. -/
def ok {α : Type} (a : α) : Reading α := ⟨[], .ok a⟩

/-- A check that failed. -/
def fail {α : Type} (f : Fault) : Reading α := ⟨[], .error f⟩

/-- Goes on with what was read; remarks add up. -/
def andThen {α β : Type} (x : Reading α) (k : α → Reading β) : Reading β :=
  match x.result with
  | .error f => ⟨x.remarks, .error f⟩
  | .ok a => ⟨x.remarks ++ (k a).remarks, (k a).result⟩

instance : Monad Reading where
  pure := ok
  bind := andThen

@[simp] theorem error_bind {α β : Type} (rs : List Remark) (f : Fault) (k : α → Reading β) :
    (⟨rs, .error f⟩ : Reading α) >>= k = ⟨rs, .error f⟩ := rfl

@[simp] theorem ok_bind {α β : Type} (rs : List Remark) (a : α) (k : α → Reading β) :
    (⟨rs, .ok a⟩ : Reading α) >>= k = ⟨rs ++ (k a).remarks, (k a).result⟩ := rfl

end Reading

/-! ## Taking members out of an object -/

/-- A check that takes members out of an object. -/
abbrev Taking (α : Type) := StateT Members Reading α

/-- The value of a member, unless it is absent or `null`.  The member is gone in either case. -/
def takeMember? (name : String) : Taking (Option Json) := fun m =>
  .ok ((m.get? name).filter fun v => !v.isNull, m.erase name)

/-- A member that has to be there. -/
def takeMember (name : String) : Taking Json := do
  match ← takeMember? name with
  | none => Reading.fail (.missing name)
  | some v => Reading.ok v

/-- A member that has to be a whole number. -/
def takeWhole (name : String) : Taking UInt64 := do
  let v ← takeMember name
  match v.toUInt64? with
  | some n => Reading.ok n
  | none => Reading.fail (.notWhole name)

/-- A tag from its spelling and its declared length. -/
def readTag (s : String) (declared : UInt64) : Reading Tag :=
  match Tag.ofHex s with
  | .error f => .fail (.badTag f)
  | .ok t => if declared.toNat = t.length then .ok t else ⟨[.tagLength t declared], .ok t⟩

/-- The tag of a message, with its declared length. -/
def takeTag : Taking Tag := do
  match ← takeMember "tag_id" with
  | .text s =>
    let declared ← takeWhole "tag_id_len"
    readTag s declared
  | _ => Reading.fail .tagNotText

/-- What a member that is there says about how long a rental lasts. -/
def readDuration (v : Json) : Reading (Option UInt64) :=
  match v.toUInt64? with
  | some n =>
    if 0 < n ∧ n ≤ maxDuration then .ok (some n) else ⟨[.durationIgnored v], .ok none⟩
  | none => ⟨[.durationIgnored v], .ok none⟩

/-- The duration of a start, if it has a usable one. -/
def takeDuration : Taking (Option UInt64) := do
  match ← takeMember? "duration" with
  | none => Reading.ok none
  | some v => readDuration v

/-- The status of a response. -/
def takeStatus : Taking Status := do
  let code ← takeWhole "status"
  match Status.ofCode? code.toNat with
  | some s => Reading.ok s
  | none => Reading.fail (.unknownStatus code)

/-- The command with the given code. -/
def takeCommand (code : UInt64) : Taking Command :=
  if code = 1 then do
    let t ← takeTag
    let d ← takeDuration
    return .rentalStart t d
  else if code = 2 then do return .rentalEnd (← takeTag)
  else if code = 3 then do return .statusRequest (← takeTag)
  else if code = 4 then do
    let s ← takeStatus
    let t ← takeTag
    let since ← takeWhole "timestamp"
    let d ← takeWhole "duration"
    return .statusResponse ⟨s, t, since, d⟩
  else if code = 255 then return .error
  else return .unknown code

/-- The message that an object holds: a command, and what is left when its members are taken out. -/
def ofMembers (m : Members) : Reading Message := do
  let (code, m) ← takeWhole "cmd" m
  let (c, m) ← takeCommand code m
  return ⟨c, m⟩

/-- The message that a value holds. -/
def ofJson : Json → Reading Message
  | .object m => ofMembers m
  | _ => .fail .notObject

/-- Reads the payload of a frame. -/
def decode (payload : Bytes) : Reading Message :=
  match Json.parse payload with
  | .error f => .fail (.notJson f)
  | .ok v => ofJson v

end Message

/-! ## A status on its own -/

namespace Status

/-- Why a JSON text is no status. -/
inductive JsonFault where
  | notJson (fault : Json.SyntaxFault)
  | mismatch (mismatch : Schema.Mismatch) (place : Json.Place)
  | unknown (code : Nat)

/-- The sentence that reports a fault. -/
def JsonFault.text : JsonFault → String
  | .notJson f => f.text
  | .mismatch m p => m.text ++ p.text
  | .unknown code => unknownCode code

/-- What a scalar is, seen from a place that expects a code. -/
def codeOfJson (v : Json) : Except Schema.Mismatch Nat :=
  let expected := "u8"
  match v with
  | .int n => if 0 ≤ n ∧ n < 256 then .ok n.toNat else .error (.range n expected)
  | .null => .error (.kind .nothing expected)
  | .bool b => .error (.kind (.boolean b) expected)
  | .real x => .error (.kind (.real (Json.numberLayout.render x)) expected)
  | .text s => .error (.kind (.text s) expected)
  | .list _ => .error (.kind .sequence expected)
  | .object _ => .error (.kind .map expected)

/-- The status that a JSON text holds as its code.  A list or an object is refused at its bracket,
without being read; anything else is judged when it has been read, and only then is the rest of the
text looked at. -/
def ofJson (text : Bytes) : Except JsonFault Status := do
  let blanks := text.takeWhile Json.isSpace
  let rest := text.dropWhile Json.isSpace
  let reader := blanks.foldl Json.Reader.advance Json.Reader.start
  match rest with
  | 0x5B :: _ => throw (.mismatch (.kind .sequence "u8") reader.place)
  | 0x7B :: _ => throw (.mismatch (.kind .map "u8") reader.place)
  | _ =>
    let (v, behind, rest) ← (reader.leading rest).mapError JsonFault.notJson
    let code ← (codeOfJson v).mapError fun m => JsonFault.mismatch m behind.place
    match ofCode? code with
    | none => throw (.unknown code)
    | some s =>
      let _ ← (behind.run rest).mapError JsonFault.notJson
      pure s

end Status

end TagRental
