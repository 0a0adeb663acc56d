import Mathlib.Data.List.Forall2
import TagRental.Proofs.Json.Members
import TagRental.Proofs.Json.ReadBack
import TagRental.Proofs.Json.Turns

/-!
# The text of an object

An object is written with braces around its members and commas between them, and a member with a
colon between its key and its value.  Keys and values are texts of their own, with blanks around
them where the writer likes.  This file proves that an object text that is read is read as what its
members amount to in the order of the text (`object_of_parse`).  So among several members with one
key the last one counts, whatever the writer of the text.

## The argument

The reader never looks beneath the list or object that it is in.  Two simulations say so.

* A *value* is read the same way on its own and inside an object (`Reader.Above`): the phases are
  the same and the stacks differ by what was open before.
* A *key* is read as a string on its own would be (`Phase.Twin`), only that what is due around it is
  a colon and not the end of the text.

Both speak of runs that succeed: what is read on its own may be nested too deep inside an object,
and what is a value need not be a key.
-/

namespace TagRental
namespace Json

namespace Reader

/-- If both steps succeed, the outcomes are related. -/
def Together (R : Reader → Reader → Prop) (s s' : Step) : Prop :=
  ∀ r r', s = .ok r → s' = .ok r' → R r r'

namespace Together

variable {R : Reader → Reader → Prop}

theorem error_left (f : SyntaxFault) (s' : Step) : Together R (.error f) s' :=
  fun _ _ hr _ => nomatch hr

theorem error_right (s : Step) (f : SyntaxFault) : Together R s (.error f) :=
  fun _ _ _ hr' => nomatch hr'

theorem bind {x x' : Step} {k k' : Reader → Step} (h : Together R x x')
    (hk : ∀ r r', R r r' → Together R (k r) (k' r')) : Together R (x >>= k) (x' >>= k') := by
  intro t t' ht ht'
  obtain ⟨r, hr, ht⟩ := bind_eq_ok.mp ht
  obtain ⟨r', hr', ht'⟩ := bind_eq_ok.mp ht'
  exact hk r r' (h r r' hr hr') t t' ht ht'

/-- What every byte keeps, a text keeps. -/
theorem run (hstep : ∀ r r' b, R r r' → Together R (r.step b) (r'.step b)) {r r' : Reader}
    (h : R r r') (bytes : Bytes) : Together R (r.run bytes) (r'.run bytes) := by
  induction bytes generalizing r r' with
  | nil =>
    intro s s' hs hs'
    cases hs
    cases hs'
    exact h
  | cons b bytes ih =>
    rw [run_cons, run_cons]
    exact (hstep r r' b h).bind fun s s' hs => ih hs

end Together
end Reader

/-! ## Strings -/

namespace Quote

/-- The same string as a key, or not as a key. -/
def asKey (isKey : Bool) (q : Quote) : Quote := { q with isKey := isKey }

/-- What a byte does to a string, as a key or not as a key. -/
def Move.asKey (isKey : Bool) : Move → Move
  | more q => more (q.asKey isKey)
  | closes => closes
  | fault cause => fault cause

theorem unit_asKey (isKey : Bool) (q : Quote) (high : Option Nat) (n : Nat) :
    (q.asKey isKey).unit high n = (q.unit high n).asKey isKey := by
  unfold unit
  cases high with
  | some h =>
    dsimp only
    split <;> rfl
  | none =>
    dsimp only
    repeat' split
    all_goals rfl

/-- **Keys are read like other strings.** -/
theorem step_asKey (isKey : Bool) (q : Quote) (b : UInt8) :
    (q.asKey isKey).step b = (q.step b).asKey isKey := by
  obtain ⟨key, bytes, escape⟩ := q
  unfold step asKey
  cases escape with
  | none =>
    dsimp only
    repeat' split
    all_goals rfl
  | slash =>
    dsimp only
    repeat' split
    all_goals rfl
  | digits done high =>
    dsimp only
    split
    · rfl
    · split
      · exact unit_asKey isKey ⟨key, bytes, .digits done high⟩ high _
      · rfl
  | partnerSlash high =>
    dsimp only
    split <;> rfl
  | partnerMark high =>
    dsimp only
    split <;> rfl

theorem isKey_of_step {q q' : Quote} {b : UInt8} (h : q.step b = .more q') :
    q'.isKey = q.isKey := by
  have hself := step_asKey q.isKey q b
  have hq : q.asKey q.isKey = q := rfl
  rw [hq, h, Move.asKey, Move.more.injEq] at hself
  rw [hself]
  rfl

end Quote

/-! ## Values -/

/-- What may be read while no list and no object is open. -/
inductive Phase.Alone : Phase → Prop where
  | value : Alone .value
  | name (due : Bytes) (v : Json) : Alone (.name due v)
  | number (n : Numeral) : Alone (.number n)
  | quote {q : Quote} (h : q.isKey = false) : Alone (.quote q)
  | complete (v : Json) : Alone (.complete v)

namespace Reader

/-- The second reader does what the first one does, above lists and objects that were open
before. -/
structure Above (base : List Frame) (r r' : Reader) : Prop where
  phase : r'.phase = r.phase
  stack : r'.stack = r.stack ++ base
  alone : r.stack = [] → r.phase.Alone

section Byte

variable {base : List Frame} {p : Phase} {stack : List Frame} {place place' : Place}

theorem above_ok (h : stack = [] → p.Alone) :
    Together (Above base) (.ok ⟨p, stack, place⟩) (.ok ⟨p, stack ++ base, place'⟩) := by
  intro r r' hr hr'
  cases hr
  cases hr'
  exact ⟨rfl, rfl, h⟩

/-- While something is open, any phase may be reached. -/
theorem above_ok_cons (p : Phase) (frame : Frame) :
    Together (Above base) (.ok ⟨p, frame :: stack, place⟩)
      (.ok ⟨p, frame :: (stack ++ base), place'⟩) :=
  fun _ _ hr hr' => by
    cases hr
    cases hr'
    exact ⟨rfl, rfl, fun h => nomatch h⟩

theorem above_opening (frame : Frame) (phase : Phase) :
    Together (Above base) (opening ⟨p, stack, place⟩ frame phase)
      (opening ⟨p, stack ++ base, place'⟩ frame phase) := by
  unfold opening
  split
  · split
    · exact above_ok_cons _ _
    · exact Together.error_right _ _
  · exact Together.error_left _ _

variable (b : UInt8)

theorem above_beginValue :
    Together (Above base) (beginValue ⟨p, stack, place⟩ b)
      (beginValue ⟨p, stack ++ base, place'⟩ b) := by
  unfold beginValue
  repeat' split
  · exact above_ok fun _ => .name _ _
  · exact above_ok fun _ => .name _ _
  · exact above_ok fun _ => .name _ _
  · exact above_ok fun _ => .quote rfl
  · exact above_ok fun _ => .number _
  · exact above_opening _ _
  · exact above_opening _ _
  · exact above_ok fun _ => .number _
  · exact Together.error_left _ _

theorem above_beginKey (hstack : stack ≠ []) :
    Together (Above base) (beginKey ⟨p, stack, place⟩ b)
      (beginKey ⟨p, stack ++ base, place'⟩ b) := by
  unfold beginKey
  split
  · exact above_ok fun h => absurd h hstack
  · exact Together.error_left _ _

theorem above_behind (v : Json) :
    Together (Above base) (behind ⟨p, stack, place⟩ v b)
      (behind ⟨p, stack ++ base, place'⟩ v b) := by
  cases stack with
  | nil => exact Together.error_left _ _
  | cons frame stack =>
    cases frame with
    | object done => exact Together.error_left _ _
    | list done =>
      unfold behind
      dsimp only [List.cons_append]
      repeat' split
      · exact above_ok_cons _ _
      · exact above_ok fun _ => .complete _
      · exact Together.error_left _ _
    | member done key =>
      unfold behind
      dsimp only [List.cons_append]
      repeat' split
      · exact above_ok_cons _ _
      · exact above_ok fun _ => .complete _
      · exact Together.error_left _ _

theorem above_endQuote {q : Quote} (h : stack = [] → q.isKey = false) :
    Together (Above base) (endQuote ⟨p, stack, place⟩ q)
      (endQuote ⟨p, stack ++ base, place'⟩ q) := by
  unfold endQuote
  dsimp only
  split
  · refine above_ok fun hstack => ?_
    rw [h hstack]
    exact .complete _
  · exact Together.error_left _ _

theorem above_consume (h : stack = [] → p.Alone) :
    Together (Above base) (consume ⟨p, stack, place⟩ b) (consume ⟨p, stack ++ base, place'⟩ b) := by
  unfold consume
  cases p with
  | value =>
    dsimp only
    split
    · exact above_ok h
    · exact above_beginValue b
  | firstItem =>
    dsimp only
    split
    · exact above_ok h
    · cases stack with
      | nil => cases h rfl
      | cons frame stack =>
        cases frame with
        | list done =>
          dsimp only [List.cons_append]
          split
          · exact above_ok fun _ => .complete _
          · exact @above_beginValue base _ (.list done :: stack) _ _ b
        | object done => exact above_beginValue b
        | member done key => exact above_beginValue b
  | nextItem =>
    dsimp only
    repeat' split
    · exact above_ok h
    · exact Together.error_left _ _
    · exact above_beginValue b
  | firstKey =>
    dsimp only
    split
    · exact above_ok h
    · cases stack with
      | nil => cases h rfl
      | cons frame stack =>
        cases frame with
        | object done =>
          dsimp only [List.cons_append]
          split
          · exact above_ok fun _ => .complete _
          · exact @above_beginKey base _ (.object done :: stack) _ _ b (List.cons_ne_nil _ _)
        | list done => exact above_beginKey b (List.cons_ne_nil _ _)
        | member done key => exact above_beginKey b (List.cons_ne_nil _ _)
  | nextKey =>
    dsimp only
    repeat' split
    · exact above_ok h
    · exact Together.error_left _ _
    · refine above_beginKey b fun hstack => ?_
      cases h hstack
  | colon key =>
    dsimp only
    split
    · exact above_ok h
    · split
      · cases stack with
        | nil => cases h rfl
        | cons frame stack =>
          cases frame with
          | object done =>
            exact above_ok_cons _ _
          | list done => exact Together.error_left _ _
          | member done key => exact Together.error_left _ _
      · exact Together.error_left _ _
  | name due v =>
    cases due with
    | nil => exact Together.error_left _ _
    | cons c due =>
      dsimp only
      split
      · refine above_ok fun _ => ?_
        split
        · exact .complete v
        · exact .name due v
      · exact Together.error_left _ _
  | number n =>
    dsimp only
    split
    · exact above_ok fun _ => .number _
    · exact Together.error_left _ _
    · exact above_ok h
  | quote q =>
    have hkey : stack = [] → q.isKey = false := by
      intro hstack
      cases h hstack with
      | quote hkey => exact hkey
    dsimp only
    split
    · next q' hq =>
      refine above_ok fun hstack => .quote ?_
      rw [Quote.isKey_of_step hq, hkey hstack]
    · exact above_endQuote hkey
    · exact Together.error_left _ _
  | complete v =>
    dsimp only
    split
    · exact above_ok h
    · exact above_behind b v

theorem above_settle (h : stack = [] → p.Alone) :
    Together (Above base) (settle ⟨p, stack, place⟩ b) (settle ⟨p, stack ++ base, place'⟩ b) := by
  unfold settle
  dsimp only
  repeat' split
  · exact above_ok fun _ => .complete _
  · exact Together.error_left _ _
  · exact above_ok h
  · exact above_ok h

end Byte

/-- **One byte**, read on its own and inside a list or an object. -/
theorem above_step {base : List Frame} (r r' : Reader) (b : UInt8) (h : Above base r r') :
    Together (Above base) (r.step b) (r'.step b) := by
  obtain ⟨p, stack, place⟩ := r
  obtain ⟨p', stack', place'⟩ := r'
  obtain ⟨hphase, hstack, halone⟩ := h
  dsimp only at hphase hstack
  subst hphase hstack
  refine (above_settle b halone).bind fun s s' hs => ?_
  obtain ⟨p, stack, place⟩ := s
  obtain ⟨p', stack', place'⟩ := s'
  obtain ⟨hphase, hstack, halone⟩ := hs
  dsimp only at hphase hstack
  subst hphase hstack
  exact above_consume b halone

/-- What is read at the end of a text was held there, and nothing was open. -/
theorem holds_of_finish {r : Reader} {v : Json} (h : r.finish = .ok v) :
    r.stack = [] ∧ r.phase.Holds v := by
  obtain ⟨p, stack, place⟩ := r
  unfold finish at h
  dsimp only at h ⊢
  split at h
  · split at h
    · next hstack =>
      cases h
      exact ⟨List.isEmpty_iff.mp hstack, .complete⟩
    · cases h
  · split at h
    · next hn =>
      split at h
      · next hstack =>
        cases h
        exact ⟨List.isEmpty_iff.mp hstack, .number hn⟩
      · cases h
    · cases h
  all_goals cases h

/-- **A text that is read as a value** is read as that value wherever a value is due. -/
theorem holds_of_run {bytes : Bytes} {v : Json} (hv : parse bytes = .ok v) {stack : List Frame}
    {place : Place} {s : Reader} (hs : run ⟨.value, stack, place⟩ bytes = .ok s) :
    s.stack = stack ∧ s.phase.Holds v := by
  obtain ⟨r, hr, hfinish⟩ := bind_eq_ok.mp hv
  obtain ⟨hstack, hholds⟩ := holds_of_finish hfinish
  have hstart : Above stack start ⟨.value, stack, place⟩ := ⟨rfl, rfl, fun _ => .value⟩
  have habove := Together.run above_step hstart bytes r s hr hs
  refine ⟨?_, ?_⟩
  · rw [habove.stack, hstack, List.nil_append]
  · rw [habove.phase]
    exact hholds

end Reader

/-! ## Keys -/

/-- What is read of a string on its own, and of a key. -/
inductive Phase.Twin : Phase → Phase → Prop where
  | first : Twin .value .firstKey
  | next : Twin .value .nextKey
  | quote (q : Quote) : Twin (.quote (q.asKey false)) (.quote (q.asKey true))
  | done (s : String) : Twin (.complete (.text s)) (.colon s)

namespace Reader

/-- The first reader reads a string on its own, and the second one a key of an open object. -/
def Beside (done : Members) (base : List Frame) (r r' : Reader) : Prop :=
  r.stack = [] ∧ r'.stack = .object done :: base ∧ r.phase.Twin r'.phase

section Byte

variable {done : Members} {base : List Frame} {p p' : Phase} {place place' : Place}

theorem beside_ok (h : p.Twin p') :
    Together (Beside done base) (.ok ⟨p, [], place⟩) (.ok ⟨p', .object done :: base, place'⟩) := by
  intro r r' hr hr'
  cases hr
  cases hr'
  exact ⟨rfl, rfl, h⟩

theorem beside_begin (b : UInt8) :
    Together (Beside done base) (beginValue ⟨.value, [], place⟩ b)
      (beginKey ⟨p', .object done :: base, place'⟩ b) := by
  unfold beginKey
  split
  · next hb =>
    subst hb
    exact beside_ok (.quote (.start true))
  · exact Together.error_right _ _

theorem beside_consume (h : p.Twin p') (b : UInt8) :
    Together (Beside done base) (consume ⟨p, [], place⟩ b)
      (consume ⟨p', .object done :: base, place'⟩ b) := by
  unfold consume
  cases h with
  | first =>
    dsimp only
    split
    · exact beside_ok .first
    · split
      · next hb =>
        subst hb
        exact Together.error_left _ _
      · exact beside_begin b
  | next =>
    dsimp only
    repeat' split
    · exact beside_ok .next
    · exact Together.error_right _ _
    · exact beside_begin b
  | quote q =>
    dsimp only
    rw [Quote.step_asKey, Quote.step_asKey]
    cases q.step b with
    | more q => exact beside_ok (.quote q)
    | fault cause => exact Together.error_left _ _
    | closes =>
      dsimp only [Quote.Move.asKey]
      unfold endQuote
      dsimp only [Quote.asKey]
      split
      · exact beside_ok (.done _)
      · exact Together.error_left _ _
  | done s =>
    dsimp only
    split
    · exact beside_ok (.done s)
    · exact Together.error_left _ _

end Byte

theorem beside_step {done : Members} {base : List Frame} (r r' : Reader) (b : UInt8)
    (h : Beside done base r r') : Together (Beside done base) (r.step b) (r'.step b) := by
  obtain ⟨p, stack, place⟩ := r
  obtain ⟨p', stack', place'⟩ := r'
  obtain ⟨hstack, hstack', hphase⟩ := h
  dsimp only at hstack hstack' hphase
  subst hstack hstack'
  have hsettle : settle ⟨p, [], place⟩ b = .ok ⟨p, [], place⟩ := by cases hphase <;> rfl
  have hsettle' : settle ⟨p', .object done :: base, place'⟩ b =
      .ok ⟨p', .object done :: base, place'⟩ := by cases hphase <;> rfl
  rw [step_of_settle hsettle, step_of_settle hsettle']
  exact beside_consume hphase b

/-- **A text that is read as a string** is read as that key wherever a key is due. -/
theorem colon_of_run {bytes : Bytes} {key : String} (hkey : parse bytes = .ok (.text key))
    {p : Phase} (hp : p = .firstKey ∨ p = .nextKey) {done : Members} {base : List Frame}
    {place : Place} {s : Reader} (hs : run ⟨p, .object done :: base, place⟩ bytes = .ok s) :
    s.stack = .object done :: base ∧ s.phase = .colon key := by
  obtain ⟨r, hr, hfinish⟩ := bind_eq_ok.mp hkey
  have hstart : Beside done base start ⟨p, .object done :: base, place⟩ := by
    refine ⟨rfl, rfl, ?_⟩
    rcases hp with rfl | rfl
    · exact .first
    · exact .next
  obtain ⟨-, hstack, htwin⟩ := Together.run beside_step hstart bytes r s hr hs
  obtain ⟨-, hholds⟩ := holds_of_finish hfinish
  refine ⟨hstack, ?_⟩
  generalize r.phase = q at htwin hholds
  generalize s.phase = q' at htwin
  cases htwin with
  | done s =>
    cases hholds
    rfl
  | _ => cases hholds

end Reader

/-! ## Objects -/

/-- A member in a text: a key, a colon and a value. -/
def memberText (part : Bytes × Bytes) : Bytes := part.1 ++ 0x3A :: part.2

/-- The members behind the first one in a text, and the brace behind them. -/
def objectRest : List (Bytes × Bytes) → Bytes
  | [] => [0x7D]
  | part :: parts => 0x2C :: (memberText part ++ objectRest parts)

/-- An object in a text, given the texts of its keys and values. -/
def objectText : List (Bytes × Bytes) → Bytes
  | [] => [0x7B, 0x7D]
  | part :: parts => 0x7B :: (memberText part ++ objectRest parts)

/-- The texts of a key and a value are read, each on its own, as that key and that value. -/
def IsMemberText (part : Bytes × Bytes) (e : String × Json) : Prop :=
  parse part.1 = .ok (.text e.1) ∧ parse part.2 = .ok e.2

namespace Reader

/-- A member of an open object. -/
theorem holds_of_run_memberText {part : Bytes × Bytes} {e : String × Json} (h : IsMemberText part e)
    {p : Phase} (hp : p = .firstKey ∨ p = .nextKey) {done : Members} {base : List Frame}
    {place : Place} {s : Reader}
    (hs : run ⟨p, .object done :: base, place⟩ (memberText part) = .ok s) :
    s.stack = .member done e.1 :: base ∧ s.phase.Holds e.2 := by
  rw [memberText, run_append] at hs
  obtain ⟨r, hr, hs⟩ := bind_eq_ok.mp hs
  obtain ⟨hstack, hphase⟩ := colon_of_run h.1 hp hr
  obtain ⟨q, stack, place'⟩ := r
  dsimp only at hstack hphase
  subst hstack hphase
  exact holds_of_run h.2 hs

/-- The rest of an object, behind a value. -/
theorem complete_of_run_objectRest {parts : List (Bytes × Bytes)} {members : List (String × Json)}
    (h : List.Forall₂ IsMemberText parts members) {p : Phase} {v : Json} (hp : p.Holds v)
    {done : Members} {key : String} {base : List Frame} {place : Place} {s : Reader}
    (hs : run ⟨p, .member done key :: base, place⟩ (objectRest parts) = .ok s) :
    s.stack = base ∧
      s.phase = .complete (.object
        (members.foldl (fun (m : Members) e => m.insert e.1 e.2) (done.insert key v))) := by
  induction h generalizing p v done key place with
  | nil =>
    rw [objectRest, run_cons, step_closeObject hp done key] at hs
    cases hs
    exact ⟨rfl, rfl⟩
  | @cons part e parts members hpart hparts ih =>
    rw [objectRest, run_cons, step_commaInObject hp done key] at hs
    have hs : run ⟨.nextKey, .object (done.insert key v) :: base, place.after 0x2C⟩
        (memberText part ++ objectRest parts) = .ok s := hs
    rw [run_append] at hs
    obtain ⟨r, hr, hs⟩ := bind_eq_ok.mp hs
    obtain ⟨hstack, hholds⟩ := holds_of_run_memberText hpart (Or.inr rfl) hr
    obtain ⟨q, stack, place'⟩ := r
    dsimp only at hstack hholds
    subst hstack
    exact ih hholds hs

/-- An object, where a value is due. -/
theorem complete_of_run_objectText {parts : List (Bytes × Bytes)} {members : List (String × Json)}
    (h : List.Forall₂ IsMemberText parts members) {place : Place} {s : Reader}
    (hs : run ⟨.value, [], place⟩ (objectText parts) = .ok s) :
    s.stack = [] ∧ s.phase = .complete (.object (Members.ofList members)) := by
  have hopen := @step_openObject .value [] .value (by decide) place
  cases h with
  | nil =>
    rw [objectText, run_cons, hopen] at hs
    cases hs
    exact ⟨rfl, rfl⟩
  | @cons part e parts members hpart hparts =>
    rw [objectText, run_cons, hopen] at hs
    have hs : run ⟨.firstKey, [.object []], place.after 0x7B⟩
        (memberText part ++ objectRest parts) = .ok s := hs
    rw [run_append] at hs
    obtain ⟨r, hr, hs⟩ := bind_eq_ok.mp hs
    obtain ⟨hstack, hholds⟩ := holds_of_run_memberText hpart (Or.inl rfl) hr
    obtain ⟨q, stack, place'⟩ := r
    dsimp only at hstack hholds
    subst hstack
    exact complete_of_run_objectRest hparts hholds hs

/-- Blanks around a value change nothing. -/
theorem run_spaces {p : Phase} (hp : p = .value ∨ ∃ v, p = .complete v) {stack : List Frame}
    {bytes : Bytes} (h : ∀ b ∈ bytes, isSpace b = true) (place : Place) :
    run ⟨p, stack, place⟩ bytes = .ok ⟨p, stack, place.past bytes⟩ := by
  induction bytes generalizing place with
  | nil => rfl
  | cons b bytes ih =>
    obtain ⟨hb, hbytes⟩ := List.forall_mem_cons.mp h
    refine run_cons_of_eq_ok ?_ (ih hbytes (place.after b))
    rcases hp with rfl | ⟨v, rfl⟩
    · rw [step_of_settle rfl]
      exact if_pos hb
    · rw [step_of_settle rfl]
      exact if_pos hb

end Reader

/-- The text is that of an object with the given members in their order, with blanks around it. -/
def IsObjectText (bytes : Bytes) (members : List (String × Json)) : Prop :=
  ∃ before parts behind, bytes = before ++ objectText parts ++ behind ∧
    (∀ b ∈ before, isSpace b = true) ∧ (∀ b ∈ behind, isSpace b = true) ∧
    List.Forall₂ IsMemberText parts members

/-- **A text of an object** is read as what its members amount to. -/
theorem object_of_parse {bytes : Bytes} {members : List (String × Json)}
    (h : IsObjectText bytes members) {v : Json} (hv : parse bytes = .ok v) :
    v = .object (Members.ofList members) := by
  obtain ⟨before, parts, behind, rfl, hbefore, hbehind, hparts⟩ := h
  obtain ⟨t, ht, hfinish⟩ := bind_eq_ok.mp hv
  have hstart : Reader.start.run before = .ok ⟨.value, [], Place.start.past before⟩ :=
    Reader.run_spaces (Or.inl rfl) hbefore Place.start
  rw [List.append_assoc, Reader.run_append, hstart] at ht
  have ht : Reader.run ⟨.value, [], Place.start.past before⟩ (objectText parts ++ behind) =
    .ok t := ht
  rw [Reader.run_append] at ht
  obtain ⟨s, hs, ht⟩ := bind_eq_ok.mp ht
  obtain ⟨hstack, hphase⟩ := Reader.complete_of_run_objectText hparts hs
  obtain ⟨p, stack, place⟩ := s
  dsimp only at hstack hphase
  subst hstack hphase
  rw [Reader.run_spaces (Or.inr ⟨_, rfl⟩) hbehind] at ht
  cases ht
  exact (Except.ok.inj hfinish).symm

end Json
end TagRental
