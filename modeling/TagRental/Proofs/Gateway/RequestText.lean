import TagRental.Proofs.Gateway.TableReading
import TagRental.Proofs.Gateway.TagText
import TagRental.Proofs.Json.SameValue

/-!
# A written request is read back

What the gateway asks, it writes as an object: the members of the request, in whatever order, and
among them further ones that the backend knows nothing of.  It may spell the tag in either case.
This file proves that the request is read as what was asked, that the further members are what is
left over, with their values, and that nothing is remarked on.

The members have different keys, so the last one under a key is the only one
(`Request.WrittenAs.lookup`), and what the table of members asks of a request can be read off the
list of its members without regard to their order.
-/

namespace TagRental

/-- What the gateway asks of the backend. -/
inductive Request where
  | start (tag : Tag) (duration : Option UInt64)
    (usable : ∀ d, duration = some d → 1 ≤ d ∧ d ≤ Message.maxDuration)
  | finish (tag : Tag)
  | status (tag : Tag)

namespace Request

/-- The command that a request is. -/
def command : Request → Command
  | start t d _ => .rentalStart t d
  | finish t => .rentalEnd t
  | status t => .statusRequest t

/-- The item that is asked about. -/
def tag : Request → Tag
  | start t _ _ => t
  | finish t => t
  | status t => t

/-- The duration that is asked for. -/
def duration : Request → Option UInt64
  | start _ d _ => d
  | finish _ => none
  | status _ => none

/-- A duration that is asked for is usable. -/
theorem usable (r : Request) {d : UInt64} (h : r.duration = some d) :
    1 ≤ d ∧ d ≤ Message.maxDuration := by
  cases r with
  | start _ _ usable => exact usable d h
  | finish => cases h
  | status => cases h

/-- The members of a request whose tag is spelt in the given way. -/
def members (r : Request) (spelling : String) : List (String × Json) :=
  [("cmd", .int r.command.code.toNat), ("tag_id", .text spelling),
    ("tag_id_len", .int r.tag.length)] ++
    (r.duration.map fun d => ("duration", Json.int d.toNat)).toList

/-- The keys that a request may use. -/
def names : List String := ["cmd", "tag_id", "tag_id_len", "duration"]

/-- **An object that holds a request**: the members of the request, with the tag spelt in either
case, and further members, in any order.  The further members have different keys, none of which a
request uses, and values that can be written and have no key twice. -/
structure WrittenAs (r : Request) (spelling : String) (further members : List (String × Json)) :
    Prop where
  spelt : Text.lowerAscii spelling = r.tag.hex
  keys : (further.map Prod.fst).Nodup
  foreign : ∀ e ∈ further, e.1 ∉ names
  values : ∀ e ∈ further, Json.Writable 126 e.2 ∧ Json.DistinctKeys e.2
  order : members.Perm (r.members spelling ++ further)

/-- The members of a request by their keys. -/
theorem mem_members {r : Request} {spelling : String} {e : String × Json} :
    e ∈ r.members spelling ↔ e = ("cmd", .int r.command.code.toNat) ∨
      e = ("tag_id", .text spelling) ∨
      e = ("tag_id_len", .int r.tag.length) ∨
      ∃ d, r.duration = some d ∧ ("duration", Json.int d.toNat) = e := by
  simp only [members, List.cons_append, List.nil_append, List.mem_cons, Option.mem_toList,
    Option.map_eq_some_iff]

/-- The keys of a request are among those of its command. -/
theorem map_fst_members_sublist (r : Request) (spelling : String) :
    ((r.members spelling).map Prod.fst).Sublist (Message.fields r.command) := by
  cases r with
  | start t d _ =>
    cases d with
    | none => exact List.sublist_append_left ["cmd", "tag_id", "tag_id_len"] ["duration"]
    | some d => exact List.Sublist.refl _
  | finish t => exact List.Sublist.refl _
  | status t => exact List.Sublist.refl _

theorem fields_sublist_names (r : Request) : (Message.fields r.command).Sublist names := by
  cases r with
  | start => exact List.Sublist.refl _
  | finish => exact List.sublist_append_left ["cmd", "tag_id", "tag_id_len"] ["duration"]
  | status => exact List.sublist_append_left ["cmd", "tag_id", "tag_id_len"] ["duration"]

/-- What is read of a member of a request is that member. -/
theorem normalMember_of_mem {r : Request} {spelling : String} {e : String × Json}
    (h : e ∈ r.members spelling) : Json.normalMember e = e := by
  rcases mem_members.mp h with rfl | rfl | rfl | ⟨d, -, rfl⟩ <;> rfl

theorem writable_of_mem {r : Request} {spelling : String} {e : String × Json}
    (h : e ∈ r.members spelling) (depth : Nat) : Json.Writable depth e.2 := by
  rcases mem_members.mp h with rfl | rfl | rfl | ⟨d, -, rfl⟩
  · exact .natCast depth r.command.code.toNat_lt
  · exact .text depth spelling
  · exact .natCast depth r.tag.length_lt_size
  · exact .natCast depth d.toNat_lt

namespace WrittenAs

variable {r : Request} {spelling : String} {further members : List (String × Json)}
  (h : r.WrittenAs spelling further members)
include h

theorem nodup_keys : (members.map Prod.fst).Nodup := by
  have hnames : names.Nodup := by decide
  have hown : ((r.members spelling).map Prod.fst).Sublist names :=
    (map_fst_members_sublist r spelling).trans (fields_sublist_names r)
  rw [(h.order.map Prod.fst).nodup_iff, List.map_append, List.nodup_append]
  refine ⟨hnames.sublist hown, h.keys, ?_⟩
  rintro key hkey key' hfurther rfl
  obtain ⟨e, he, rfl⟩ := List.mem_map.mp hfurther
  exact h.foreign e he (hown.subset hkey)

theorem writable : Json.Writable Json.Reader.maxDepth (.object members) := by
  have hdepth : Json.Reader.maxDepth = 126 + 1 := rfl
  rw [hdepth]
  refine .object fun e he => ?_
  rcases List.mem_append.mp (h.order.mem_iff.mp he) with he | he
  · exact writable_of_mem he 126
  · exact (h.values e he).1

/-- Under the key of a member of a request stands that member. -/
theorem lookup {e : String × Json} (he : e ∈ r.members spelling) :
    (members.map Json.normalMember).reverse.lookup e.1 = some e.2 := by
  refine Members.lookup_reverse_of_mem ?_ ?_
  · rw [Json.map_fst_map_normalMember]
    exact h.nodup_keys
  · rw [← normalMember_of_mem he]
    exact List.mem_map_of_mem (h.order.mem_iff.mpr (List.mem_append_left further he))

theorem lookup_duration : (members.map Json.normalMember).reverse.lookup "duration" =
    r.duration.map fun d => Json.int d.toNat := by
  cases hd : r.duration with
  | some d => exact h.lookup (mem_members.mpr (Or.inr (Or.inr (Or.inr ⟨d, hd, rfl⟩))))
  | none =>
    have hown : "duration" ∉ (r.members spelling).map Prod.fst := by
      rw [Request.members, hd]
      change "duration" ∉ ["cmd", "tag_id", "tag_id_len"]
      decide
    rw [Option.map_none, List.lookup_eq_none_iff]
    intro e' he'
    obtain ⟨e, he, rfl⟩ := List.mem_map.mp (List.mem_reverse.mp he')
    rw [bne_iff_ne]
    intro (hkey : "duration" = e.1)
    rcases List.mem_append.mp (h.order.mem_iff.mp he) with he | he
    · exact hown (hkey ▸ List.mem_map_of_mem he)
    · refine h.foreign e he ?_
      rw [← hkey]
      decide

end WrittenAs

end Request

namespace Message

variable {r : Request} {spelling : String} {further members : List (String × Json)}

theorem whole_cmd (h : r.WrittenAs spelling further members) :
    Whole (members.map Json.normalMember) "cmd" r.command.code :=
  h.lookup (Request.mem_members.mpr (Or.inl rfl))

theorem tagged_tag (h : r.WrittenAs spelling further members) :
    Tagged (members.map Json.normalMember) r.tag :=
  ⟨spelling, h.lookup (Request.mem_members.mpr (Or.inr (Or.inl rfl))),
    Tag.ofHex_of_lowerAscii h.spelt⟩

theorem whole_length (h : r.WrittenAs spelling further members) :
    Whole (members.map Json.normalMember) "tag_id_len" (.ofNat r.tag.length) := by
  rw [Whole, UInt64.toNat_ofNat_of_lt' r.tag.length_lt_size]
  exact h.lookup (Request.mem_members.mpr (Or.inr (Or.inr (Or.inl rfl))))

theorem whole_duration_iff (h : r.WrittenAs spelling further members) {s : UInt64} :
    Whole (members.map Json.normalMember) "duration" s ↔ r.duration = some s := by
  rw [Whole, h.lookup_duration, Option.map_eq_some_iff]
  constructor
  · rintro ⟨d, hd, hs⟩
    rw [Json.int.injEq, Int.natCast_inj, UInt64.toNat_inj] at hs
    rw [hd, hs]
  · exact fun hs => ⟨s, hs, rfl⟩

/-- What a request asks is what the object says. -/
theorem says_command (h : r.WrittenAs spelling further members) :
    Says (members.map Json.normalMember) r.command := by
  have hitem : Names (members.map Json.normalMember) r.tag := ⟨tagged_tag h, _, whole_length h⟩
  have hduration : Lasts (members.map Json.normalMember) r.duration := by
    intro s
    rw [whole_duration_iff h]
    exact ⟨fun hs => ⟨hs, r.usable hs⟩, fun hs => hs.1⟩
  cases r with
  | start t d usable => exact .rentalStart (whole_cmd h) hitem hduration
  | finish t => exact .rentalEnd (whole_cmd h) hitem
  | status t => exact .statusRequest (whole_cmd h) hitem

/-- Nothing in a request is remarked on: the declared length is the actual one, and a duration that
is there is usable. -/
theorem remarks_eq_nil (h : r.WrittenAs spelling further members) (ds : List Demand) :
    Demand.remarks (members.map Json.normalMember) ds = [] := by
  rw [Demand.remarks, List.filterMap_eq_nil_iff]
  intro d _
  cases d with
  | tagLength =>
    rw [Demand.remark?, tagOf_eq_some_iff.mpr (tagged_tag h),
      wholeOf_eq_some_iff.mpr (whole_length h)]
    exact if_pos (UInt64.toNat_ofNat_of_lt' r.tag.length_lt_size)
  | usableDuration =>
    rw [Demand.remark?, valueOf, h.lookup_duration]
    cases hd : r.duration with
    | none => rfl
    | some d =>
      have hvalue : (some (Json.int d.toNat)).filter (fun v => !v.isNull) =
          some (Json.int d.toNat) :=
        rfl
      rw [Option.map_some, hvalue]
      dsimp only
      rw [Json.toUInt64?_eq_some_iff.mpr rfl]
      exact if_pos (r.usable hd)
  | _ => rfl

/-- What belongs to no command are the further members. -/
theorem filter_perm (h : r.WrittenAs spelling further members) :
    (members.filter fun e => e.1 ∉ fields r.command).Perm further := by
  have hown : (r.members spelling).filter (fun e => e.1 ∉ fields r.command) = [] := by
    rw [List.filter_eq_nil_iff]
    intro e he
    rw [decide_eq_true_iff, not_not]
    exact (Request.map_fst_members_sublist r spelling).subset (List.mem_map_of_mem he)
  have hfurther : further.filter (fun e => e.1 ∉ fields r.command) = further := by
    rw [List.filter_eq_self]
    intro e he
    rw [decide_eq_true_iff]
    exact fun hkey => h.foreign e he ((Request.fields_sublist_names r).subset hkey)
  have hfilter := h.order.filter fun e => e.1 ∉ fields r.command
  rwa [List.filter_append, hown, hfurther, List.nil_append] at hfilter

/-- **A written request is read** as what was asked; the further members are left over, with their
values, and nothing is remarked on. -/
theorem decode_request (h : r.WrittenAs spelling further members) :
    ∃ extra, decode (Utf8.encodeChars (Json.object members).chars) =
        ⟨[], .ok ⟨r.command, extra⟩⟩ ∧
      Json.Same (.object further) (.object extra) := by
  have hjudged := judged_decode (Json.parse_object h.writable)
  have hperm := filter_perm h
  have hextra : Members.ofList
        ((members.filter fun e => e.1 ∉ fields r.command).map Json.normalMember) =
      (Members.ofList (members.map Json.normalMember)).filter fun e => e.1 ∉ fields r.command := by
    rw [Members.filter_ofList _ fun key => key ∉ fields r.command, List.filter_map]
    rfl
  refine ⟨Members.ofList ((members.filter fun e => e.1 ∉ fields r.command).map Json.normalMember),
    ?_, (Json.same_ofList ?_ ?_).of_perm hperm⟩
  · have hresult := (hjudged.ok ⟨r.command, _⟩).mpr ⟨says_command h, hextra⟩
    have hremarks := hjudged.remarks.trans (remarks_eq_nil h _)
    exact congrArg₂ Reading.mk hremarks hresult
  · rw [(hperm.map Prod.fst).nodup_iff]
    exact h.keys
  · intro e he
    exact Json.same_normal (h.values e (hperm.mem_iff.mp he)).2

/-- A start with the longest duration, its members last to first behind a nested one, and the tag in
mixed case. -/
theorem decode_request_backwards :
    let r : Request := .start ⟨[0xAB, 0x0C], by decide, by decide⟩ (some 4294967295)
      fun d h => Option.some.inj h ▸ (by decide)
    let note : Json := .list [.null, .int (-1), .object [("b", .bool true), ("a", .text "ä")]]
    let members : List (String × Json) := [("note", note), ("duration", .int 4294967295),
      ("tag_id_len", .int 2), ("tag_id", .text "aB0C"), ("cmd", .int 1)]
    r.WrittenAs "aB0C" [("note", note)] members ∧
      ∃ extra, decode (Utf8.encodeChars (Json.object members).chars) =
          ⟨[], .ok ⟨.rentalStart r.tag (some 4294967295), extra⟩⟩ ∧
        Json.Same (.object [("note", note)]) (.object extra) := by
  intro r note members
  have hwritable : Json.Writable 126 note := by
    refine .list ?_
    simp only [List.forall_mem_cons, List.not_mem_nil, false_implies, implies_true, and_true]
    refine ⟨.null 125, .int 125 (by decide) (by decide), .object ?_⟩
    simp only [List.forall_mem_cons, List.not_mem_nil, false_implies, implies_true, and_true]
    exact ⟨.bool 124 true, .text 124 "ä"⟩
  have hdistinct : Json.DistinctKeys note := by
    refine .list ?_
    simp only [List.forall_mem_cons, List.not_mem_nil, false_implies, implies_true, and_true]
    refine ⟨.null, .int (-1), .object (by decide) ?_⟩
    simp only [List.forall_mem_cons, List.not_mem_nil, false_implies, implies_true, and_true]
    exact ⟨.bool true, .text "ä"⟩
  have hwritten : r.WrittenAs "aB0C" [("note", note)] members := {
    spelt := by decide
    keys := List.nodup_singleton "note"
    foreign := fun e he => by
      rw [List.mem_singleton.mp he]
      decide
    values := fun e he => by
      rw [List.mem_singleton.mp he]
      exact ⟨hwritable, hdistinct⟩
    order := (List.reverse_perm (r.members "aB0C")).append_left [("note", note)] |>.trans
      List.perm_append_comm }
  exact ⟨hwritten, decode_request hwritten⟩

end Message
end TagRental
