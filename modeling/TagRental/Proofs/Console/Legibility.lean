import TagRental.Console.Dialogue
import TagRental.Proofs.Calendar.Timestamp
import TagRental.Proofs.Rental.Snapshot
import TagRental.Proofs.Text.Words

/-!
# What the operator can read off a listing

A listing loses nothing.  It is put together from what asking for each of its tags would show, and
whoever has the text has the table: what is stored under a tag, and that nothing is stored under
another one (`list_loses_nothing`).

## Reading from the left

There is no length in front of a record and no mark between two of them, so a listing has to be
taken apart from the left.  A way of writing values down can be *read off* if the front of a text
that begins with a written value says which value it is and where it ends, whatever follows
(`Text.ReadsOff`).  A text that does not contain a mark, with that mark behind it, can be read off
if different values have different texts; two things that can be read off can be read off one after
the other; and so can any number of records, since none of them is empty.

It remains to see that each of the five lines of a record tells its value.  The hexadecimal digits
of a tag have no blank among them, the four statuses have four codes, and a number ends at its last
digit.  A time is its number with or without a date behind it, and the number alone tells it, so the
date need not be read at all: the text of a time beyond the calendar and the zero without a date are
no exceptions.
-/

namespace TagRental

namespace Text

variable {α β : Type*}

/-- What is written can be read off the front of a text: it says which value was written, and where
it ends. -/
def ReadsOff (write : α → String) : Prop :=
  ∀ a b : α, ∀ us vs : String, write a ++ us = write b ++ vs → a = b ∧ us = vs

/-- The text in front of the first place where a mark stands. -/
theorem eq_of_append_mark {mark : Char} {xs ys us vs : List Char} (hxs : mark ∉ xs)
    (hys : mark ∉ ys) (h : xs ++ mark :: us = ys ++ mark :: vs) : xs = ys ∧ us = vs := by
  induction xs generalizing ys with
  | nil =>
    cases ys with
    | nil => exact ⟨rfl, (List.cons.inj h).2⟩
    | cons y ys => exact absurd ((List.cons.inj h).1 ▸ List.mem_cons_self) hys
  | cons x xs ih =>
    cases ys with
    | nil => exact absurd ((List.cons.inj h).1 ▸ List.mem_cons_self) hxs
    | cons y ys =>
      obtain ⟨rfl, htail⟩ := List.cons.inj h
      obtain ⟨rfl, hrest⟩ := ih (fun hmem => hxs (List.mem_cons_of_mem _ hmem))
        (fun hmem => hys (List.mem_cons_of_mem _ hmem)) htail
      exact ⟨rfl, hrest⟩

namespace ReadsOff

variable {write : α → String} {other : β → String}

/-- Different texts with a mark behind them that none of them contains. -/
theorem of_mark {mark : Char} (hinj : Function.Injective write)
    (hmark : ∀ a, mark ∉ (write a).toList) :
    ReadsOff fun a => write a ++ String.singleton mark := by
  intro a b us vs h
  have hchars := congrArg String.toList h
  simp only [String.toList_append, String.toList_singleton, List.append_assoc,
    List.singleton_append] at hchars
  obtain ⟨htext, hrest⟩ := eq_of_append_mark (hmark a) (hmark b) hchars
  exact ⟨hinj (String.toList_injective htext), String.toList_injective hrest⟩

/-- A label in front does not matter. -/
theorem behind (label : String) (h : ReadsOff write) : ReadsOff fun a => label ++ write a := by
  intro a b us vs heq
  rw [String.append_assoc, String.append_assoc, String.append_right_inj] at heq
  exact h a b us vs heq

/-- One thing after another. -/
theorem pair (h : ReadsOff write) (hother : ReadsOff other) :
    ReadsOff fun p : α × β => write p.1 ++ other p.2 := by
  rintro ⟨a, c⟩ ⟨b, d⟩ us vs heq
  rw [String.append_assoc, String.append_assoc] at heq
  obtain ⟨rfl, hrest⟩ := h a b _ _ heq
  obtain ⟨rfl, htail⟩ := hother c d us vs hrest
  exact ⟨rfl, htail⟩

theorem comp (h : ReadsOff write) {f : β → α} (hf : Function.Injective f) :
    ReadsOff fun b => write (f b) := by
  intro a b us vs heq
  obtain ⟨hvalue, hrest⟩ := h (f a) (f b) us vs heq
  exact ⟨hf hvalue, hrest⟩

/-- Any number of things, none of them empty. -/
theorem join_inj (h : ReadsOff write) (hne : ∀ a, write a ≠ "") {as bs : List α}
    (heq : String.join (as.map write) = String.join (bs.map write)) : as = bs := by
  induction as generalizing bs with
  | nil =>
    cases bs with
    | nil => rfl
    | cons b bs =>
      rw [List.map_cons, String.join_cons, List.map_nil, String.join_nil] at heq
      exact absurd (String.append_eq_empty_iff.mp heq.symm).1 (hne b)
  | cons a as ih =>
    cases bs with
    | nil =>
      rw [List.map_cons, String.join_cons, List.map_nil, String.join_nil] at heq
      exact absurd (String.append_eq_empty_iff.mp heq).1 (hne a)
    | cons b bs =>
      rw [List.map_cons, List.map_cons, String.join_cons, String.join_cons] at heq
      obtain ⟨rfl, hrest⟩ := h a b _ _ heq
      rw [ih hrest]

end ReadsOff

/-! ## Numbers -/

theorem isDigit_of_mem_toString {n : Nat} {c : Char} (h : c ∈ (toString n).toList) :
    c.isDigit = true := by
  have hdigits : c ∈ Nat.toDigits 10 n := Nat.toList_repr ▸ h
  exact Nat.isDigit_of_mem_toDigits (by decide) (by decide) hdigits

theorem not_mem_toString {c : Char} (h : c.isDigit = false) (n : Nat) :
    c ∉ (toString n).toList := fun hmem =>
  Bool.false_ne_true (h.symm.trans (isDigit_of_mem_toString hmem))

theorem toString_injective : Function.Injective (toString : Nat → String) := by
  intro m n h
  have hdigits : Nat.toDigits 10 m = Nat.toDigits 10 n :=
    Nat.toList_repr.symm.trans ((congrArg String.toList h).trans Nat.toList_repr)
  rw [← Nat.ofDigitChars_ten_toDigits (n := m), hdigits, Nat.ofDigitChars_ten_toDigits]

/-- A number ends at its last digit. -/
theorem takeWhile_toString_append {n : Nat} {rest : String}
    (h : ∀ c ∈ rest.toList.head?, c.isDigit = false) :
    (toString n ++ rest).toList.takeWhile Char.isDigit = (toString n).toList := by
  have hstop : rest.toList.takeWhile Char.isDigit = [] := by
    cases hchars : rest.toList with
    | nil => rfl
    | cons c cs =>
      have hc : c.isDigit = false := h c (by rw [hchars]; rfl)
      exact List.takeWhile_cons_of_neg (ne_true_of_eq_false hc)
  rw [String.toList_append, List.takeWhile_append_of_pos fun c => isDigit_of_mem_toString, hstop,
    List.append_nil]

/-- A number is told by a text that begins with it, if no digit follows. -/
theorem eq_of_toString_append {m n : Nat} {rest others : String}
    (hrest : ∀ c ∈ rest.toList.head?, c.isDigit = false)
    (hothers : ∀ c ∈ others.toList.head?, c.isDigit = false)
    (h : toString m ++ rest = toString n ++ others) : m = n := by
  have hdigits := congrArg (fun text => text.toList.takeWhile Char.isDigit) h
  rw [takeWhile_toString_append hrest, takeWhile_toString_append hothers] at hdigits
  exact toString_injective (String.toList_injective hdigits)

end Text

namespace Listing

open Text

/-! ## The lines of a record -/

/-- A value behind its label, and the end of the line. -/
def line {α : Type*} (label : String) (shown : α → String) (a : α) : String :=
  label ++ (shown a ++ String.singleton '\n')

/-- A line tells its value if the value has a text of its own in one line. -/
theorem readsOff_line {α : Type*} {shown : α → String} (hinj : Function.Injective shown)
    (hline : ∀ a, '\n' ∉ (shown a).toList) (label : String) : ReadsOff (line label shown) :=
  (ReadsOff.of_mark hinj hline).behind label

/-- What is shown of a tag. -/
def tagText (tag : Tag) : String := tag.hex ++ " (" ++ toString tag.length ++ " bytes)"

/-- What is shown of a status. -/
def statusText (status : Status) : String := toString status.code ++ " (" ++ status.name ++ ")"

/-- What is shown of a duration. -/
def durationText (duration : UInt64) : String := toString duration ++ "s"

theorem not_mem_hex {c : Char} (h : ∀ n < 16, c ≠ Hex.digitChar n) (tag : Tag) :
    c ∉ tag.hex.toList := by
  rw [Tag.hex, Hex.toList_encode, Hex.chars, List.mem_flatMap]
  rintro ⟨b, -, hc⟩
  rcases List.mem_pair.mp hc with hc | hc
  · exact h _ (Hex.high_lt b) hc
  · exact h _ (Hex.low_lt b) hc

theorem tagText_injective : Function.Injective tagText := by
  intro a b h
  have hspace : ∀ tag : Tag, ' ' ∉ tag.hex.toList := not_mem_hex (by decide)
  have hchars := congrArg String.toList h
  simp only [tagText, String.toList_append, List.append_assoc] at hchars
  obtain ⟨hhex, -⟩ := eq_of_append_mark (hspace a) (hspace b) hchars
  exact Tag.hex_inj.mp (String.toList_injective hhex)

theorem newline_not_mem_tagText (tag : Tag) : '\n' ∉ (tagText tag).toList := by
  have hhex : '\n' ∉ tag.hex.toList := not_mem_hex (by decide) tag
  have hlength : '\n' ∉ (toString tag.length).toList := not_mem_toString (by decide) tag.length
  simp only [tagText, String.toList_append, List.mem_append, hhex, hlength, false_or, or_false,
    not_or]
  exact ⟨by decide, by decide⟩

theorem statusText_injective : Function.Injective statusText := by
  intro a b h
  cases a <;> cases b <;> first | rfl | exact absurd h (by decide)

theorem newline_not_mem_statusText (status : Status) : '\n' ∉ (statusText status).toList := by
  cases status <;> decide

theorem durationText_injective : Function.Injective durationText := by
  intro a b h
  have hunit : ∀ c ∈ "s".toList.head?, c.isDigit = false := by
    intro c hc
    obtain rfl : 's' = c := Option.some.inj hc
    rfl
  exact UInt64.toNat_inj.mp (eq_of_toString_append hunit hunit h)

theorem newline_not_mem_durationText (duration : UInt64) :
    '\n' ∉ (durationText duration).toList := by
  have hnumber : '\n' ∉ (toString duration).toList := not_mem_toString (by decide) duration.toNat
  simp only [durationText, String.toList_append, List.mem_append, hnumber, false_or]
  decide

/-- A time is its number, with the date behind it unless it is zero. -/
theorem time_eq (seconds : UInt64) :
    time seconds = toString seconds ++
      if seconds = 0 then "" else " (" ++ Calendar.timestamp seconds ++ ")" := by
  unfold time
  split
  · next h => rw [h]; rfl
  · rw [String.append_assoc, String.append_assoc, String.append_assoc]

theorem time_injective : Function.Injective time := by
  intro a b h
  have hdate : ∀ seconds : UInt64,
      ∀ c ∈ (if seconds = 0 then "" else " (" ++ Calendar.timestamp seconds ++ ")").toList.head?,
        c.isDigit = false := by
    intro seconds
    split
    · intro c hc
      cases hc
    · intro c hc
      rw [String.append_assoc, String.toList_append] at hc
      obtain rfl : ' ' = c := Option.some.inj hc
      rfl
  rw [time_eq, time_eq] at h
  exact UInt64.toNat_inj.mp (eq_of_toString_append (hdate a) (hdate b) h)

theorem newline_not_mem_time (seconds : UInt64) : '\n' ∉ (time seconds).toList := by
  have hnumber : '\n' ∉ (toString seconds).toList := not_mem_toString (by decide) seconds.toNat
  have hdate : '\n' ∉ (Calendar.timestamp seconds).toList := fun hmem => by
    rcases Calendar.mem_timestamp hmem with hdigit | hmark
    · exact absurd hdigit (by decide)
    · exact absurd hmark (by decide)
  rw [time_eq, String.toList_append, List.mem_append, not_or]
  refine ⟨hnumber, ?_⟩
  split
  · exact List.not_mem_nil
  · simp only [String.toList_append, List.mem_append, hdate, or_false, not_or]
    exact ⟨by decide, by decide⟩

/-! ## Records and listings -/

/-- The five lines of a record, each with its value. -/
theorem record_eq (tag : Tag) (r : Record) :
    record tag r = line "  tag " tagText tag ++ (line "    status:   " statusText r.status ++
      (line "    rented:   " time r.rentedAt ++ (line "    duration: " durationText r.duration ++
        line "    returned: " time r.returnedAt))) := by
  have hbytes : " bytes)\n" = " bytes)" ++ String.singleton '\n' := rfl
  have hname : ")\n" = ")" ++ String.singleton '\n' := rfl
  have hunit : "s\n" = "s" ++ String.singleton '\n' := rfl
  have hend : "\n" = String.singleton '\n' := rfl
  unfold record line tagText statusText durationText
  rw [hbytes, hname, hunit, hend]
  simp only [String.append_assoc]

/-- **A record can be read off**: its lines tell the tag and every field. -/
theorem readsOff_record : ReadsOff fun e : Tag × Record => record e.1 e.2 := by
  have htag := readsOff_line tagText_injective newline_not_mem_tagText "  tag "
  have hstatus := readsOff_line statusText_injective newline_not_mem_statusText "    status:   "
  have hrented := readsOff_line time_injective newline_not_mem_time "    rented:   "
  have hduration :=
    readsOff_line durationText_injective newline_not_mem_durationText "    duration: "
  have hreturned := readsOff_line time_injective newline_not_mem_time "    returned: "
  have hlines := htag.pair (hstatus.pair (hrented.pair (hduration.pair hreturned)))
  have hfields : Function.Injective fun e : Tag × Record =>
      (e.1, e.2.status, e.2.rentedAt, e.2.duration, e.2.returnedAt) := by
    rintro ⟨t, status, rented, duration, returned⟩ ⟨u, status', rented', duration', returned'⟩ h
    simpa using h
  have hrecord := hlines.comp hfields
  simp only [← record_eq] at hrecord
  exact hrecord

theorem record_ne_empty (tag : Tag) (r : Record) : record tag r ≠ "" := by
  intro h
  rw [record_eq, line, String.append_assoc] at h
  exact absurd (String.append_eq_empty_iff.mp h).1 (by decide)

theorem table_of_isEmpty {s : Store} (h : s.isEmpty = true) : table s = "No rental items found\n" :=
  if_pos h

/-- A listing with records: the header with their number, and the records. -/
theorem table_of_not_isEmpty {s : Store} (h : s.isEmpty = false) :
    table s = "Rental items (" ++ (toString s.size ++ String.singleton ')') ++
      (":\n" ++ String.join (s.snapshot.map fun e => record e.1 e.2)) := by
  rw [table, if_neg (ne_true_of_eq_false h)]
  apply String.toList_injective
  simp only [String.toList_append, List.append_assoc, String.toList_singleton]
  rfl

/-- **A listing tells the table.** -/
theorem snapshot_eq_of_table_eq {s other : Store} (h : table s = table other) :
    s.snapshot = other.snapshot := by
  have hfirst : ∀ text : String, "No rental items found\n" ≠ "Rental items (" ++ text := by
    intro text htext
    have hchars := congrArg (fun text => text.toList.head?) htext
    simp [String.toList_append] at hchars
  cases hs : s.isEmpty <;> cases hother : other.isEmpty
  · rw [table_of_not_isEmpty hs, table_of_not_isEmpty hother] at h
    have hsize : ReadsOff fun n : Nat => toString n ++ String.singleton ')' :=
      .of_mark toString_injective (not_mem_toString (by decide))
    obtain ⟨-, hrecords⟩ := hsize.behind "Rental items (" _ _ _ _ h
    rw [String.append_right_inj] at hrecords
    exact readsOff_record.join_inj (fun e => record_ne_empty e.1 e.2) hrecords
  · rw [table_of_not_isEmpty hs, table_of_isEmpty hother, String.append_assoc] at h
    exact absurd h.symm (hfirst _)
  · rw [table_of_isEmpty hs, table_of_not_isEmpty hother, String.append_assoc] at h
    exact absurd h (hfirst _)
  · rw [Store.isEmpty_iff.mp hs, Store.isEmpty_iff.mp hother]

/-- A listing shows the snapshot and nothing else. -/
theorem table_eq_of_snapshot_eq {s other : Store} (h : s.snapshot = other.snapshot) :
    table s = table other := by
  have hempty : s.isEmpty = other.isEmpty := by
    rw [Bool.eq_iff_iff, Store.isEmpty_iff, Store.isEmpty_iff, h]
  rw [table, table, hempty, ← s.length_snapshot, ← other.length_snapshot, h]

end Listing

namespace Console

/-! ## What the operator asks for -/

theorem carryOut_list (s : Store) : carryOut s .list = ⟨Listing.table s, s, false⟩ := rfl

theorem carryOut_status (s : Store) (typed : String) :
    carryOut s (.status typed) = ⟨Listing.status s typed, s, false⟩ := rfl

theorem text_answer_list (s : Store) : (answer s "list").text = Listing.table s := by
  have hparse : Command.parse "list" = .list := by decide
  rw [answer, hparse, carryOut_list]

/-- Asking for a tag by its digits. -/
theorem parse_status_hex (tag : Tag) : Command.parse ("status " ++ tag.hex) = .status tag.hex := by
  have hblank : ∀ c ∈ tag.hex.toList, Text.isBlank c = false := by
    rw [Tag.hex, Hex.toList_encode]
    exact fun c => (Hex.spells_chars tag.bytes).not_blank
  have hne : tag.hex.toList ≠ [] := by
    rw [← List.length_pos_iff, Tag.length_toList_hex]
    exact Nat.mul_pos (by decide) tag.length_pos
  have htag : Text.wordsChars (tag.hex.toList ++ []) = [tag.hex.toList] := by
    refine Text.wordsChars_word_append hne hblank fun c hc => ?_
    cases hc
  have hsolid : ∀ c ∈ "status".toList, (!Text.isBlank c) = true := List.all_eq_true.mp (by decide)
  have hstatus : Text.wordsChars ("status".toList ++ ' ' :: tag.hex.toList) =
      "status".toList :: Text.wordsChars (' ' :: tag.hex.toList) := by
    refine Text.wordsChars_word_append (by decide) (fun c hc => ?_) fun c hc => ?_
    · exact (Bool.not_eq_true' _).mp (hsolid c hc)
    obtain rfl : ' ' = c := Option.some.inj hc
    rfl
  have hwords : Text.words ("status " ++ tag.hex) = ["status", tag.hex] := by
    have hchars : ("status " ++ tag.hex).toList = "status".toList ++ ' ' :: tag.hex.toList := by
      rw [String.toList_append]
      rfl
    rw [List.append_nil] at htag
    rw [Text.words, hchars, hstatus, Text.wordsChars_cons_of_blank (by decide), htag]
    simp only [List.map_cons, List.map_nil, String.ofList_toList]
  have hlower : Text.lowerAscii "status" = "status" := by decide
  unfold Command.parse
  rw [hwords]
  dsimp only
  rw [hlower]
  rfl

theorem text_answer_status {s : Store} {tag : Tag} {r : Record} (h : s.get? tag = some r) :
    (answer s ("status " ++ tag.hex)).text = Listing.record tag r := by
  rw [answer, parse_status_hex, carryOut_status, Listing.status, Tag.ofHex_hex]
  dsimp only
  rw [h]

/-- **A listing loses nothing.**  If there are records, the text of `list` is the header with their
number, and behind it, for the tags that have one in ascending order, what `status` shows on being
asked for each.  And two tables have the same listing only if the same is stored in both under every
tag. -/
theorem list_loses_nothing (s : Store) :
    (s.isEmpty = false →
      ∃ tags : List Tag, tags.Pairwise (· < ·) ∧ (∀ t, t ∈ tags ↔ (s.get? t).isSome = true) ∧
        tags.length = s.size ∧
        (answer s "list").text = "Rental items (" ++ toString s.size ++ "):\n" ++
          String.join (tags.map fun t => (answer s ("status " ++ t.hex)).text)) ∧
      ∀ other : Store, (answer s "list").text = (answer other "list").text ↔
        ∀ t, s.get? t = other.get? t := by
  refine ⟨fun hne => ?_, fun other => ?_⟩
  · refine ⟨s.snapshot.map Prod.fst, List.pairwise_map.mpr s.ascends_snapshot, fun t => ?_, ?_, ?_⟩
    · rw [List.mem_map, Option.isSome_iff_exists]
      constructor
      · rintro ⟨⟨u, r⟩, hmem, rfl⟩
        exact ⟨r, Store.mem_snapshot_iff.mp hmem⟩
      · rintro ⟨r, hr⟩
        exact ⟨(t, r), Store.mem_snapshot_iff.mpr hr, rfl⟩
    · rw [List.length_map, s.length_snapshot]
    · have hrecords : (s.snapshot.map fun e => Listing.record e.1 e.2) =
          (s.snapshot.map Prod.fst).map fun t => (answer s ("status " ++ t.hex)).text := by
        rw [List.map_map]
        refine List.map_congr_left fun e he => ?_
        exact (text_answer_status (Store.mem_snapshot_iff.mp he)).symm
      rw [text_answer_list, Listing.table, if_neg (ne_true_of_eq_false hne), hrecords]
  · rw [text_answer_list, text_answer_list]
    constructor
    · intro h t
      have hsnapshot := Listing.snapshot_eq_of_table_eq h
      refine Option.ext fun r => ?_
      rw [← Store.mem_snapshot_iff, hsnapshot, Store.mem_snapshot_iff]
    · intro h
      refine Listing.table_eq_of_snapshot_eq (Store.eq_snapshot s.ascends_snapshot fun t r => ?_)
      rw [Store.mem_snapshot_iff, h]

/-- Two records, the later tag stored first, one of them given back at a time that has no date; and
the same table but for that time. -/
theorem list_loses_nothing_two_records :
    let late : Tag := ⟨[0xAA], by decide, by decide⟩
    let early : Tag := ⟨[0x0B, 0x01], by decide, by decide⟩
    let s : Store :=
      ⟨[(late, ⟨.rented, 100, 60, 0⟩), (early, ⟨.available, 1, 2, 18446744073709551615⟩)],
        by decide⟩
    let other : Store :=
      ⟨[(late, ⟨.rented, 100, 60, 0⟩), (early, ⟨.available, 1, 2, 0⟩)], by decide⟩
    s.isEmpty = false ∧
      (∃ tags : List Tag, tags.Pairwise (· < ·) ∧ (∀ t, t ∈ tags ↔ (s.get? t).isSome = true) ∧
        tags.length = 2 ∧
        (answer s "list").text = "Rental items (2):\n" ++
          String.join (tags.map fun t => (answer s ("status " ++ t.hex)).text)) ∧
      (answer s "list").text ≠ (answer other "list").text := by
  intro late early s other
  obtain ⟨hlist, hinjective⟩ := list_loses_nothing s
  have hne : s.isEmpty = false := rfl
  have hheader : "Rental items (" ++ toString s.size ++ "):\n" = "Rental items (2):\n" := by decide
  obtain ⟨tags, hascend, hmem, hlength, htext⟩ := hlist hne
  rw [hheader] at htext
  refine ⟨hne, ⟨tags, hascend, hmem, hlength, htext⟩, fun h => ?_⟩
  have hearly := (hinjective other).mp h early
  exact absurd hearly (by decide)

end Console
end TagRental
