import TagRental.Proofs.Link.Polling
import TagRental.Proofs.Link.Writing

/-!
# The writer is given in the order of asking

A send asks for the writer when it is polled for the first time, and it gets hold of it when all
those that asked before it are over.  On a link that is not cancelled, with a channel that never
fails, this is all that there is to say: frames go out whole, one after another, in the order in
which their sends asked.

`Serves` relates a writer to the sends that have asked and are not over.  Each of them stands there
with its whole frame, so that the list only changes at its ends: a send that asks goes to the back,
and one that is over has been at the front.  The queue of the writer is this list, except that it no
longer has the piece that the first of the sends has written.  `Serves.poll` says what one poll does
to it.
-/

namespace TagRental
namespace SharedWriter

/-- A send asks for the writer, unless it has asked before. -/
def ask (asking : List PendingSend) (id : Nat) (frame : Bytes) : List PendingSend :=
  if id ∈ asking.map PendingSend.id then asking else asking ++ [⟨id, frame⟩]

/-- The sends that have asked and are not over, each with its whole frame, and the piece of the
first frame that is written. -/
inductive Serves (w : SharedWriter) : List PendingSend → Bytes → Prop
  | nobody (queue : w.queue = []) : Serves w [] []
  | somebody {p : PendingSend} {others : List PendingSend} {piece rest : Bytes}
      (frame : p.rest = piece ++ rest) (queue : w.queue = ⟨p.id, rest⟩ :: others) :
      Serves w (p :: others) piece

namespace Serves

variable {w : SharedWriter} {asking : List PendingSend} {piece : Bytes}

/-- The queue is that of the sends that have asked. -/
theorem map_id_queue (h : Serves w asking piece) :
    w.queue.map PendingSend.id = asking.map PendingSend.id := by
  cases h with
  | nobody queue => rw [queue]
  | somebody _ queue => rw [queue, List.map_cons, List.map_cons]

/-- Asking is joining the queue. -/
theorem enqueue (h : Serves w asking piece) (id : Nat) (frame : Bytes) :
    Serves (w.enqueue id frame) (ask asking id frame) piece := by
  have hmem : id ∈ asking.map PendingSend.id ↔ ∃ p ∈ w.queue, p.id = id := by
    rw [← h.map_id_queue, List.mem_map]
  rcases w.enqueue_cases id frame with ⟨hold, heq⟩ | ⟨hnew, hqueue⟩
  · rw [heq, ask, if_pos (hmem.mpr hold)]
    exact h
  · have hnot : id ∉ asking.map PendingSend.id := by
      intro hasked
      obtain ⟨p, hp, hid⟩ := hmem.mp hasked
      exact hnew p hp hid
    rw [ask, if_neg hnot]
    cases h with
    | nobody queue =>
      rw [queue] at hqueue
      exact .somebody rfl hqueue
    | somebody hframe queue =>
      rw [queue] at hqueue
      exact .somebody hframe hqueue

/-- **One poll** of a send, after which it has asked.  Either the send goes on, and at most the
piece has become longer, or it was the first of those that asked, and its frame is out. -/
theorem poll {c : Channel} (hc : c.NeverFails) (hw : w.cancelled = false)
    (h : Serves w asking piece) {done : Bytes} (hbytes : w.seen.bytes = done ++ piece)
    (id : Nat) (frame : Bytes) :
    ((w.poll c id frame).2 = none ∧
        ∃ piece', Serves (w.poll c id frame).1 (ask asking id frame) piece' ∧
          (w.poll c id frame).1.seen.bytes = done ++ piece') ∨
      (w.poll c id frame).2 = some (.ok ()) ∧
        ∃ p others, ask asking id frame = p :: others ∧ p.id = id ∧
          Serves (w.poll c id frame).1 others [] ∧
          (w.poll c id frame).1.seen.bytes = done ++ p.rest := by
  have hasked := h.enqueue id frame
  cases hturn : w.hasTurn id frame with
  | false =>
    rw [poll_of_not_turn c hw hturn]
    exact Or.inl ⟨rfl, piece, hasked,
      (congrArg Written.bytes (seen_enqueue w id frame)).trans hbytes⟩
  | true =>
    obtain ⟨q, others, hqueue, hid⟩ := (hasTurn_iff hw).mp hturn
    have hpoll := poll_of_turn c hw hqueue hid
    obtain ⟨taken, rest, hsplit, htaken, hend⟩ := c.send_split w.seen q.rest
    rw [hbytes, List.append_assoc] at htaken
    -- the head of the queue is the first that asked
    generalize hask : ask asking id frame = asking' at hasked ⊢
    cases hasked with
    | nobody hempty => cases hempty.symm.trans hqueue
    | @somebody p others' _ rest' hframe hqueue' =>
      obtain ⟨rfl, rfl⟩ := List.cons.inj (hqueue'.symm.trans hqueue)
      dsimp only at hsplit hid
      rw [hsplit, ← List.append_assoc] at hframe
      cases hsend : c.send w.seen rest' with
      | mk seen ending =>
        rw [hsend] at htaken hend hpoll
        cases ending with
        | failed fault =>
          have hnot := hc.send_ne_failed w.seen rest' fault
          rw [hsend] at hnot
          exact absurd rfl hnot
        | finished =>
          obtain rfl : rest = [] := hend
          rw [List.append_nil] at hframe
          rw [hpoll]
          refine Or.inr ⟨rfl, p, others', rfl, hid, ?_, htaken.trans (congrArg _ hframe.symm)⟩
          cases others' with
          | nil => exact .nobody rfl
          | cons q others => exact .somebody rfl rfl
        | waiting bytes =>
          obtain rfl : bytes = rest := hend
          rw [hpoll]
          exact Or.inl ⟨rfl, piece ++ taken, .somebody hframe rfl, htaken⟩

end Serves

end SharedWriter
end TagRental
