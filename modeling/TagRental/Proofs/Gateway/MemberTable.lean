import Mathlib.Data.List.TakeWhile
import TagRental.Proofs.Gateway.MessageReading
import TagRental.Proofs.Json.Members

/-!
# A table of the members of messages

`Message.decode` reads a message by a chain of checks.  This file puts a table beside it, in two
parts.

* *What an object says* (`Says`): which members, with which values, make up which command.  Nothing
  in it speaks of an order of checks, and nothing of a reader.
* *What is demanded of an object* (`demands`): a list, in order, of the conditions that the members
  of its command have to meet.  The first one that is not met is the fault.  Two of them are never
  unmet; the object is remarked on instead.

The table is stated of the members *in the order of a text*, where a key may stand several times.
Then the last member with that key counts, and if its value is `null` there is none.
-/

namespace TagRental
namespace Message

/-! ## Looking at an object -/

/-- The value that an object has under a name, unless it is `null`. -/
def valueOf (members : List (String × Json)) (name : String) : Option Json :=
  (members.reverse.lookup name).filter fun v => !v.isNull

/-- The whole number of 64 bits that an object has under a name. -/
def wholeOf (members : List (String × Json)) (name : String) : Option UInt64 :=
  (valueOf members name).bind Json.toUInt64?

/-- The tag that an object spells. -/
def tagOf (members : List (String × Json)) : Option Tag :=
  match valueOf members "tag_id" with
  | some (.text s) => (Tag.ofHex s).toOption
  | _ => none

/-! ## What an object says -/

/-- Under a name stands a whole number of 64 bits. -/
def Whole (members : List (String × Json)) (name : String) (n : UInt64) : Prop :=
  members.reverse.lookup name = some (.int n.toNat)

/-- The object spells a tag. -/
def Tagged (members : List (String × Json)) (t : Tag) : Prop :=
  ∃ s, members.reverse.lookup "tag_id" = some (.text s) ∧ Tag.ofHex s = .ok t

/-- The object names an item: it spells a tag and declares a length for it, right or wrong. -/
def Names (members : List (String × Json)) (t : Tag) : Prop :=
  Tagged members t ∧ ∃ n, Whole members "tag_id_len" n

/-- The duration of a start is the whole number that is there, if it is between one and the largest
that the firmware can hold. -/
def Lasts (members : List (String × Json)) (d : Option UInt64) : Prop :=
  ∀ s, d = some s ↔ Whole members "duration" s ∧ 1 ≤ s ∧ s ≤ 4294967295

/-- **What makes up a command.** -/
inductive Says (members : List (String × Json)) : Command → Prop where
  | rentalStart {t : Tag} {d : Option UInt64} (cmd : Whole members "cmd" 1) (item : Names members t)
      (duration : Lasts members d) : Says members (.rentalStart t d)
  | rentalEnd {t : Tag} (cmd : Whole members "cmd" 2) (item : Names members t) :
      Says members (.rentalEnd t)
  | statusRequest {t : Tag} (cmd : Whole members "cmd" 3) (item : Names members t) :
      Says members (.statusRequest t)
  | statusResponse {r : Response} (cmd : Whole members "cmd" 4)
      (status : Whole members "status" r.status.code.toUInt64) (item : Names members r.tag)
      (timestamp : Whole members "timestamp" r.timestamp)
      (duration : Whole members "duration" r.duration) : Says members (.statusResponse r)
  | error (cmd : Whole members "cmd" 255) : Says members .error
  | unknown {code : UInt64} (cmd : Whole members "cmd" code) (other : code ∉ [1, 2, 3, 4, 255]) :
      Says members (.unknown code)

/-- Every command has a code. -/
theorem Says.exists_cmd {members : List (String × Json)} {c : Command} (h : Says members c) :
    ∃ code, Whole members "cmd" code := by
  cases h with
  | rentalStart cmd | rentalEnd cmd | statusRequest cmd | statusResponse cmd | error cmd
  | unknown cmd => exact ⟨_, cmd⟩

/-- The members that make up a command; whatever else an object holds is left over. -/
def fields : Command → List String
  | .rentalStart .. => ["cmd", "tag_id", "tag_id_len", "duration"]
  | .rentalEnd _ | .statusRequest _ => ["cmd", "tag_id", "tag_id_len"]
  | .statusResponse _ => ["cmd", "status", "tag_id", "tag_id_len", "timestamp", "duration"]
  | .error | .unknown _ => ["cmd"]

/-! ## What is demanded of an object -/

/-- A condition on an object. -/
inductive Demand where
  | present (name : String)
  | whole (name : String)
  | knownStatus
  | tagText
  | tagSpelling
  | tagLength
  | usableDuration

namespace Demand

variable (members : List (String × Json))

/-- What is wrong with an object that does not meet a condition. -/
def fault? : Demand → Option Fault
  | present name => if (valueOf members name).isNone then some (.missing name) else none
  | whole name => if (wholeOf members name).isNone then some (.notWhole name) else none
  | knownStatus =>
    match wholeOf members "status" with
    | some code => if code ∈ [0, 1, 2, 255] then none else some (.unknownStatus code)
    | none => none
  | tagText =>
    match valueOf members "tag_id" with
    | some (.text _) => none
    | _ => some .tagNotText
  | tagSpelling =>
    match valueOf members "tag_id" with
    | some (.text s) =>
      match Tag.ofHex s with
      | .ok _ => none
      | .error f => some (.badTag f)
    | _ => none
  | tagLength => none
  | usableDuration => none

/-- What is remarked on in an object that meets a condition. -/
def remark? : Demand → Option Remark
  | tagLength =>
    match tagOf members, wholeOf members "tag_id_len" with
    | some t, some n => if n.toNat = t.length then none else some (.tagLength t n)
    | _, _ => none
  | usableDuration =>
    match valueOf members "duration" with
    | none => none
    | some v =>
      match v.toUInt64? with
      | some n => if 1 ≤ n ∧ n ≤ 4294967295 then none else some (.durationIgnored v)
      | none => some (.durationIgnored v)
  | _ => none

/-- The condition is met. -/
def isMet (d : Demand) : Bool := (d.fault? members).isNone

/-- The first fault that some conditions find. -/
def firstFault (demands : List Demand) : Option Fault := demands.findSome? (fault? members)

/-- The remarks that some conditions make, up to the first fault. -/
def remarks (demands : List Demand) : List Remark :=
  (demands.takeWhile (isMet members)).filterMap (remark? members)

/-- The conditions on a tag. -/
def ofTag : List Demand :=
  [present "tag_id", tagText, present "tag_id_len", whole "tag_id_len", tagSpelling, tagLength]

/-- The conditions on a status. -/
def ofStatus : List Demand := [present "status", whole "status", knownStatus]

/-- The conditions on the members of a command. -/
def ofCode (code : UInt64) : List Demand :=
  if code = 1 then ofTag ++ [usableDuration]
  else if code = 2 ∨ code = 3 then ofTag
  else if code = 4 then
    ofStatus ++ ofTag ++
      [present "timestamp", whole "timestamp", present "duration", whole "duration"]
  else []

end Demand

/-- **What is demanded of an object**, in order: the command, and what goes with it. -/
def demands (members : List (String × Json)) : List Demand :=
  [.present "cmd", .whole "cmd"] ++
    match wholeOf members "cmd" with
    | some code => Demand.ofCode code
    | none => []

/-! ## Looking, and what is there -/

section Looking

variable {members : List (String × Json)} {name : String}

theorem wholeOf_eq_some_iff {n : UInt64} :
    wholeOf members name = some n ↔ Whole members name n := by
  rw [wholeOf, Option.bind_eq_some_iff, Whole]
  constructor
  · rintro ⟨v, hv, hn⟩
    rw [valueOf, Option.filter_eq_some_iff] at hv
    rw [hv.1, Json.toUInt64?_eq_some_iff.mp hn]
  · intro h
    refine ⟨_, ?_, Json.toUInt64?_eq_some_iff.mpr rfl⟩
    rw [valueOf, h]
    rfl

theorem Whole.unique {n n' : UInt64} (h : Whole members name n) (h' : Whole members name n') :
    n = n' :=
  Option.some.inj ((wholeOf_eq_some_iff.mpr h).symm.trans (wholeOf_eq_some_iff.mpr h'))

theorem valueOf_eq_some_text_iff {s : String} :
    valueOf members name = some (.text s) ↔ members.reverse.lookup name = some (.text s) := by
  rw [valueOf, Option.filter_eq_some_iff]
  exact ⟨fun h => h.1, fun h => ⟨h, rfl⟩⟩

/-- A text under `tag_id` is the text that the object spells its tag with. -/
theorem tagged_iff_of_valueOf {s : String} (hs : valueOf members "tag_id" = some (.text s))
    {t : Tag} :
    Tagged members t ↔ Tag.ofHex s = .ok t := by
  have hlookup := valueOf_eq_some_text_iff.mp hs
  constructor
  · rintro ⟨s', hs', ht⟩
    rw [hlookup] at hs'
    cases hs'
    exact ht
  · exact fun ht => ⟨s, hlookup, ht⟩

theorem not_tagged_of_valueOf {v : Json} (hv : valueOf members "tag_id" = some v)
    (htext : ∀ s, v ≠ .text s) (t : Tag) : ¬Tagged members t := by
  rintro ⟨s, hs, -⟩
  rw [← valueOf_eq_some_text_iff, hv] at hs
  exact htext s (Option.some.inj hs)

theorem tagOf_eq_some_iff {t : Tag} : tagOf members = some t ↔ Tagged members t := by
  unfold tagOf
  split
  · next s hs =>
    rw [tagged_iff_of_valueOf hs]
    cases Tag.ofHex s with
    | error f => exact ⟨fun h => (nomatch h), fun h => (nomatch h)⟩
    | ok t' => exact ⟨fun h => congrArg Except.ok (Option.some.inj h),
        fun h => congrArg some (Except.ok.inj h)⟩
  · next hother =>
    constructor
    · exact fun h => (nomatch h)
    · rintro ⟨s, hs, -⟩
      exact absurd (valueOf_eq_some_text_iff.mpr hs) (hother s)

/-- What a start lasts is determined by what is there. -/
theorem lasts_iff {d : Option UInt64} :
    Lasts members d ↔ d = (wholeOf members "duration").filter fun s => 1 ≤ s ∧ s ≤ 4294967295 := by
  have hfilter : ∀ s,
      (wholeOf members "duration").filter (fun s => 1 ≤ s ∧ s ≤ 4294967295) = some s ↔
      Whole members "duration" s ∧ 1 ≤ s ∧ s ≤ 4294967295 := by
    intro s
    rw [Option.filter_eq_some_iff, wholeOf_eq_some_iff, decide_eq_true_iff]
  constructor
  · intro hd
    exact Option.ext fun s => (hd s).trans (hfilter s).symm
  · rintro rfl
    exact hfilter

end Looking

/-! ## Conditions in sequence -/

namespace Demand

variable {members : List (String × Json)}

theorem firstFault_append (ds es : List Demand) :
    firstFault members (ds ++ es) = (firstFault members ds).or (firstFault members es) :=
  List.findSome?_append

/-- Conditions behind those that are met are looked at. -/
theorem remarks_append_of_none {ds : List Demand} (h : firstFault members ds = none)
    (es : List Demand) : remarks members (ds ++ es) = remarks members ds ++ remarks members es := by
  have hall : ∀ d ∈ ds, isMet members d = true := fun d hd =>
    Option.isNone_iff_eq_none.mpr (List.findSome?_eq_none_iff.mp h d hd)
  have hself : ds.takeWhile (isMet members) = ds := List.takeWhile_eq_self_iff.mpr hall
  unfold remarks
  rw [List.takeWhile_append_of_pos hall, hself, List.filterMap_append]

/-- Conditions behind one that is not met are not looked at. -/
theorem remarks_append_of_some {ds : List Demand} {f : Fault} (h : firstFault members ds = some f)
    (es : List Demand) : remarks members (ds ++ es) = remarks members ds := by
  obtain ⟨before, d, after, rfl, hd, hbefore⟩ := List.findSome?_eq_some_iff.mp h
  have hmet : ∀ c ∈ before, isMet members c = true := fun c hc =>
    Option.isNone_iff_eq_none.mpr (hbefore c hc)
  have hunmet : ¬isMet members d = true := by
    rw [isMet, hd]
    exact Bool.false_ne_true
  unfold remarks
  rw [List.append_assoc, List.takeWhile_append_of_pos hmet, List.takeWhile_append_of_pos hmet,
    List.cons_append, List.takeWhile_cons_of_neg hunmet, List.takeWhile_cons_of_neg hunmet]

end Demand

/-! ## One command for each code

Which commands an object can say is settled by its code. -/

section Commands

variable {members : List (String × Json)} {c : Command}

theorem says_iff_start (h : Whole members "cmd" 1) :
    Says members c ↔
      ∃ t, Names members t ∧ ∃ d, Lasts members d ∧ c = .rentalStart t d := by
  constructor
  · intro hc
    cases hc with
    | rentalStart _ ht hd => exact ⟨_, ht, _, hd, rfl⟩
    | rentalEnd cmd | statusRequest cmd | statusResponse cmd | error cmd =>
      exact absurd (h.unique cmd) (by decide)
    | unknown cmd other => exact absurd other (by rw [← h.unique cmd]; decide)
  · rintro ⟨t, ht, d, hd, rfl⟩
    exact .rentalStart h ht hd

theorem says_iff_end (h : Whole members "cmd" 2) :
    Says members c ↔ ∃ t, Names members t ∧ c = .rentalEnd t := by
  constructor
  · intro hc
    cases hc with
    | rentalEnd _ ht => exact ⟨_, ht, rfl⟩
    | rentalStart cmd | statusRequest cmd | statusResponse cmd | error cmd =>
      exact absurd (h.unique cmd) (by decide)
    | unknown cmd other => exact absurd other (by rw [← h.unique cmd]; decide)
  · rintro ⟨t, ht, rfl⟩
    exact .rentalEnd h ht

theorem says_iff_request (h : Whole members "cmd" 3) :
    Says members c ↔ ∃ t, Names members t ∧ c = .statusRequest t := by
  constructor
  · intro hc
    cases hc with
    | statusRequest _ ht => exact ⟨_, ht, rfl⟩
    | rentalStart cmd | rentalEnd cmd | statusResponse cmd | error cmd =>
      exact absurd (h.unique cmd) (by decide)
    | unknown cmd other => exact absurd other (by rw [← h.unique cmd]; decide)
  · rintro ⟨t, ht, rfl⟩
    exact .statusRequest h ht

theorem says_iff_response (h : Whole members "cmd" 4) :
    Says members c ↔ ∃ s : Status, Whole members "status" s.code.toUInt64 ∧
      ∃ t, Names members t ∧ ∃ since, Whole members "timestamp" since ∧
      ∃ d, Whole members "duration" d ∧ c = .statusResponse ⟨s, t, since, d⟩ := by
  constructor
  · intro hc
    cases hc with
    | statusResponse _ hs ht hsince hd => exact ⟨_, hs, _, ht, _, hsince, _, hd, rfl⟩
    | rentalStart cmd | rentalEnd cmd | statusRequest cmd | error cmd =>
      exact absurd (h.unique cmd) (by decide)
    | unknown cmd other => exact absurd other (by rw [← h.unique cmd]; decide)
  · rintro ⟨s, hs, t, ht, since, hsince, d, hd, rfl⟩
    exact .statusResponse h hs ht hsince hd

theorem says_iff_error (h : Whole members "cmd" 255) : Says members c ↔ c = .error := by
  constructor
  · intro hc
    cases hc with
    | error => rfl
    | rentalStart cmd | rentalEnd cmd | statusRequest cmd | statusResponse cmd =>
      exact absurd (h.unique cmd) (by decide)
    | unknown cmd other => exact absurd other (by rw [← h.unique cmd]; decide)
  · rintro rfl
    exact .error h

theorem says_iff_unknown {code : UInt64} (h : Whole members "cmd" code)
    (hcode : code ∉ ([1, 2, 3, 4, 255] : List UInt64)) : Says members c ↔ c = .unknown code := by
  constructor
  · intro hc
    cases hc with
    | unknown cmd => rw [h.unique cmd]
    | rentalStart cmd | rentalEnd cmd | statusRequest cmd | statusResponse cmd | error cmd =>
      exact absurd (by rw [h.unique cmd]; decide) hcode
  · rintro rfl
    exact .unknown h hcode

end Commands

end Message
end TagRental
