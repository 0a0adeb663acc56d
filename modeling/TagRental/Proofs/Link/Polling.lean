import TagRental.Link.SharedWriter

/-!
# One poll of a send

A send that is polled on a link that is cancelled gives up and writes nothing.  Otherwise it joins
the queue, unless it is in it, and it writes exactly if it is at the head then: we say that it *has
its turn*.  These are the three things that a poll can come to (`poll_of_cancelled`,
`poll_of_not_turn`, `poll_of_turn`), and after this file nothing unfolds `SharedWriter.poll`.
-/

namespace TagRental
namespace SharedWriter

section Poll

variable (c : Channel) (w : SharedWriter) (id : Nat) (frame : Bytes)

@[simp] theorem seen_enqueue : (w.enqueue id frame).seen = w.seen := by
  unfold enqueue
  split <;> rfl

@[simp] theorem cancelled_enqueue : (w.enqueue id frame).cancelled = w.cancelled := by
  unfold enqueue
  split <;> rfl

/-- A send that is polled is in the queue already, or it goes to its end. -/
theorem enqueue_cases :
    (∃ p ∈ w.queue, p.id = id) ∧ w.enqueue id frame = w ∨
      (∀ p ∈ w.queue, p.id ≠ id) ∧
        (w.enqueue id frame).queue = w.queue ++ [⟨id, frame⟩] := by
  unfold enqueue
  split
  · next h =>
    obtain ⟨p, hp, hid⟩ := List.any_eq_true.mp h
    exact Or.inl ⟨⟨p, hp, eq_of_beq hid⟩, rfl⟩
  · next h =>
    refine Or.inr ⟨fun p hp hid => h ?_, rfl⟩
    exact List.any_eq_true.mpr ⟨p, hp, beq_iff_eq.mpr hid⟩

/-- Does a poll of this send write?  It does if the link is not cancelled and the send, which joins
the queue first if it has to, is at its head. -/
def hasTurn : Bool :=
  !w.cancelled && (w.enqueue id frame).queue.head?.any fun p => p.id == id

variable {w id frame}

theorem hasTurn_of_cancelled (h : w.cancelled = true) : w.hasTurn id frame = false := by
  rw [hasTurn, h]
  rfl

theorem hasTurn_iff (h : w.cancelled = false) :
    w.hasTurn id frame = true ↔
      ∃ p others, (w.enqueue id frame).queue = p :: others ∧ p.id = id := by
  rw [hasTurn, h]
  cases (w.enqueue id frame).queue with
  | nil => simp
  | cons p others => simp

theorem poll_of_cancelled (h : w.cancelled = true) :
    w.poll c id frame = (w.release id, some (.error .cancelled)) := if_pos h

theorem poll_of_not_turn (h : w.cancelled = false) (ht : w.hasTurn id frame = false) :
    w.poll c id frame = (w.enqueue id frame, none) := by
  have hnone : ¬w.hasTurn id frame = true := by rw [ht]; exact Bool.false_ne_true
  rw [hasTurn_iff h] at hnone
  unfold poll
  rw [if_neg (by rw [h]; exact Bool.false_ne_true)]
  dsimp only
  split
  · rfl
  · next p others hqueue =>
    have hid : p.id ≠ id := fun hid => hnone ⟨p, others, hqueue, hid⟩
    rw [if_pos (bne_iff_ne.mpr hid)]

theorem poll_of_turn (h : w.cancelled = false) {p : PendingSend} {others : List PendingSend}
    (hqueue : (w.enqueue id frame).queue = p :: others) (hid : p.id = id) :
    w.poll c id frame =
      match c.send w.seen p.rest with
      | (seen, .finished) =>
        ({ w.enqueue id frame with seen := seen, queue := others }, some (.ok ()))
      | (seen, .failed fault) =>
        ({ w.enqueue id frame with seen := seen, queue := others },
          some (.error (.write fault.reason)))
      | (seen, .waiting rest) =>
        ({ w.enqueue id frame with seen := seen, queue := { p with rest := rest } :: others },
          none) := by
  unfold poll
  rw [if_neg (by rw [h]; exact Bool.false_ne_true)]
  dsimp only
  split
  · next hnil => cases hqueue.symm.trans hnil
  · next p' others' hqueue' =>
    obtain ⟨rfl, rfl⟩ := List.cons.inj (hqueue.symm.trans hqueue')
    refine (if_neg (by simpa using hid)).trans ?_
    exact seen_enqueue w id frame ▸ rfl

end Poll

/-- A poll cancels nothing. -/
theorem cancelled_poll (c : Channel) (w : SharedWriter) (id : Nat) (frame : Bytes) :
    (w.poll c id frame).1.cancelled = w.cancelled := by
  unfold poll
  split
  · rfl
  · dsimp only
    split
    · exact cancelled_enqueue w id frame
    · split
      · exact cancelled_enqueue w id frame
      · split <;> exact cancelled_enqueue w id frame

end SharedWriter
end TagRental
