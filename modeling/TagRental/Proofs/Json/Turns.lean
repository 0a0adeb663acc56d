import TagRental.Json.Reader

/-!
# What one byte can do

The reader has many ways to take a byte, but there are only a few things that it can do to what is
being read and to what is open.  They are listed here once (`Turn`), and the reader is taken apart
once (`turn_of_step`).  What holds of a reader after every byte is then shown by going through the
list, and it holds after every text (`keeps_run`).

A byte that ends a number first makes its value complete (`Settled`), and is then read as behind any
other complete value.
-/

namespace TagRental
namespace Json

/-- What succeeds in sequence succeeds part by part. -/
theorem bind_eq_ok {α β : Type} {x : Except SyntaxFault α} {k : α → Except SyntaxFault β} {y : β} :
    x >>= k = .ok y ↔ ∃ a, x = .ok a ∧ k a = .ok y := by
  cases x with
  | error f => exact ⟨fun h => (nomatch h), fun ⟨a, ha, _⟩ => nomatch ha⟩
  | ok a => exact ⟨fun h => ⟨a, rfl, h⟩, fun ⟨a', ha, h⟩ => (Except.ok.inj ha) ▸ h⟩

/-- A value has been read, and nothing begins right behind it. -/
def Phase.IsComplete : Phase → Prop
  | .complete _ => True
  | _ => False

namespace Reader

/-- The ways from one phase and stack to the next. -/
inductive Turn : Phase → List Frame → Phase → List Frame → Prop
  | stay {p s} : Turn p s p s
  | beginNull {p s} (hp : ¬p.IsComplete) : Turn p s (.name [0x75, 0x6C, 0x6C] .null) s
  | beginTrue {p s} (hp : ¬p.IsComplete) : Turn p s (.name [0x72, 0x75, 0x65] (.bool true)) s
  | beginFalse {p s} (hp : ¬p.IsComplete) :
    Turn p s (.name [0x61, 0x6C, 0x73, 0x65] (.bool false)) s
  | spell {c due v s} : Turn (.name (c :: due) v) s (.name due v) s
  | spelled {due v s} : Turn (.name due v) s (.complete v) s
  | number {p s} (hp : ¬p.IsComplete) (n : Numeral) : Turn p s (.number n) s
  | quote {p s} (hp : ¬p.IsComplete) (q : Quote) : Turn p s (.quote q) s
  | text {q s} (t : String) : Turn (.quote q) s (.complete (.text t)) s
  | key {q s} (t : String) : Turn (.quote q) s (.colon t) s
  | colon {key done s} : Turn (.colon key) (.object done :: s) .value (.member done key :: s)
  | openList {p s} (hp : ¬p.IsComplete) : Turn p s .firstItem (.list [] :: s)
  | openObject {p s} (hp : ¬p.IsComplete) : Turn p s .firstKey (.object [] :: s)
  | nextItem {v done s} : Turn (.complete v) (.list done :: s) .nextItem (.list (v :: done) :: s)
  | nextMember {v done key s} :
      Turn (.complete v) (.member done key :: s) .nextKey (.object (done.insert key v) :: s)
  | closeEmptyList {done s} : Turn .firstItem (.list done :: s) (.complete (.list done.reverse)) s
  | closeEmptyObject {done s} : Turn .firstKey (.object done :: s) (.complete (.object done)) s
  | closeList {v done s} :
      Turn (.complete v) (.list done :: s) (.complete (.list (v :: done).reverse)) s
  | closeObject {v done key s} :
      Turn (.complete v) (.member done key :: s) (.complete (.object (done.insert key v))) s

/-- The outcome of a byte, if there is one, is one of these. -/
def Turns (p : Phase) (stack : List Frame) (s : Step) : Prop :=
  ∀ r, s = .ok r → Turn p stack r.phase r.stack

section Byte

variable {p : Phase} {stack : List Frame} {place : Place} (b : UInt8)

theorem turns_ok {p' : Phase} {stack' : List Frame} {place' : Place} (h : Turn p stack p' stack') :
    Turns p stack (.ok ⟨p', stack', place'⟩) := by
  intro r hr
  cases hr
  exact h

theorem turns_error (f : SyntaxFault) : Turns p stack (.error f) := by
  intro r hr
  cases hr

theorem turns_opening {frame : Frame} {phase : Phase} (h : Turn p stack phase (frame :: stack)) :
    Turns p stack (opening ⟨p, stack, place⟩ frame phase) := by
  unfold opening
  split
  · exact turns_ok h
  · exact turns_error _

theorem turns_beginValue (hp : ¬p.IsComplete) :
    Turns p stack (beginValue ⟨p, stack, place⟩ b) := by
  unfold beginValue
  repeat' split
  · exact turns_ok (.beginNull hp)
  · exact turns_ok (.beginTrue hp)
  · exact turns_ok (.beginFalse hp)
  · exact turns_ok (.quote hp _)
  · exact turns_ok (.number hp _)
  · exact turns_opening (.openList hp)
  · exact turns_opening (.openObject hp)
  · exact turns_ok (.number hp _)
  · exact turns_error _

theorem turns_beginKey (hp : ¬p.IsComplete) : Turns p stack (beginKey ⟨p, stack, place⟩ b) := by
  unfold beginKey
  split
  · exact turns_ok (.quote hp _)
  · exact turns_error _

theorem turns_behind (v : Json) :
    Turns (.complete v) stack (behind ⟨.complete v, stack, place⟩ v b) := by
  unfold behind
  dsimp only
  split
  · exact turns_error _
  · split
    · exact turns_ok .nextItem
    · split
      · exact turns_ok .closeList
      · exact turns_error _
  · exact turns_error _
  · split
    · exact turns_ok .nextMember
    · split
      · exact turns_ok .closeObject
      · exact turns_error _

theorem turns_endQuote (q : Quote) :
    Turns (.quote q) stack (endQuote ⟨.quote q, stack, place⟩ q) := by
  unfold endQuote
  dsimp only
  split
  · refine turns_ok ?_
    split
    · exact .key _
    · exact .text _
  · exact turns_error _

theorem turns_consume : Turns p stack (consume ⟨p, stack, place⟩ b) := by
  unfold consume
  cases p with
  | value =>
    dsimp only
    split
    · exact turns_ok .stay
    · exact turns_beginValue b id
  | firstItem =>
    dsimp only
    split
    · exact turns_ok .stay
    · split
      · split
        · exact turns_ok .closeEmptyList
        · exact turns_beginValue b id
      · exact turns_beginValue b id
  | nextItem =>
    dsimp only
    split
    · exact turns_ok .stay
    · split
      · exact turns_error _
      · exact turns_beginValue b id
  | firstKey =>
    dsimp only
    split
    · exact turns_ok .stay
    · split
      · split
        · exact turns_ok .closeEmptyObject
        · exact turns_beginKey b id
      · exact turns_beginKey b id
  | nextKey =>
    dsimp only
    split
    · exact turns_ok .stay
    · split
      · exact turns_error _
      · exact turns_beginKey b id
  | colon key =>
    dsimp only
    split
    · exact turns_ok .stay
    · split
      · split
        · exact turns_ok .colon
        · exact turns_error _
      · exact turns_error _
  | name due v =>
    cases due with
    | nil => exact turns_error _
    | cons c due =>
      dsimp only
      split
      · refine turns_ok ?_
        split
        · exact .spelled
        · exact .spell
      · exact turns_error _
  | number n =>
    dsimp only
    split
    · exact turns_ok (.number id _)
    · exact turns_error _
    · exact turns_ok .stay
  | quote q =>
    dsimp only
    split
    · exact turns_ok (.quote id _)
    · exact turns_endQuote q
    · exact turns_error _
  | complete v =>
    dsimp only
    split
    · exact turns_ok .stay
    · exact turns_behind b v

end Byte

/-- What is read when a byte comes, once a number that the byte ends has become complete. -/
inductive Settled : Phase → Phase → Prop
  | same {p} : Settled p p
  | number {n v} (value : n.value = .ok v) : Settled (.number n) (.complete v)

theorem settled_of_settle {r s : Reader} {b : UInt8} (h : r.settle b = .ok s) :
    Settled r.phase s.phase ∧ s.stack = r.stack := by
  unfold settle at h
  split at h
  · next n hn =>
    rw [hn]
    split at h
    · split at h
      · next v hv =>
        cases h
        exact ⟨.number hv, rfl⟩
      · cases h
    · cases h
      exact ⟨hn ▸ .same, rfl⟩
  · cases h
    exact ⟨.same, rfl⟩

/-- **One byte** that the reader takes is one of the turns. -/
theorem turn_of_step {r t : Reader} {b : UInt8} (h : r.step b = .ok t) :
    ∃ p, Settled r.phase p ∧ Turn p r.stack t.phase t.stack := by
  obtain ⟨s, hs, ht⟩ := bind_eq_ok.mp h
  obtain ⟨hphase, hstack⟩ := settled_of_settle hs
  exact ⟨s.phase, hphase, hstack ▸ turns_consume b t ht⟩

/-- What holds of a reader after every byte holds of it after a text. -/
theorem keeps_run {P : Reader → Prop}
    (hstep : ∀ (r t : Reader) (b : UInt8), P r → r.step b = .ok t → P t) {r t : Reader}
    {bytes : Bytes} (h : P r) (ht : r.run bytes = .ok t) : P t := by
  induction bytes generalizing r with
  | nil => exact Except.ok.inj ht ▸ h
  | cons b bytes ih =>
    obtain ⟨s, hs, ht⟩ := bind_eq_ok.mp ht
    exact ih (hstep r s b h hs) ht

end Reader
end Json
end TagRental
