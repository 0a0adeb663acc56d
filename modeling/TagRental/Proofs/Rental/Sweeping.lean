import TagRental.Proofs.Rental.TableOrder

/-!
# What a sweep does to the table

A record is *due* at a time if its item is out and the time is past the sum of the start and the
duration, where the sum is one of natural numbers.  The deadline that a sweep looks at is a number
of 64 bits and stays at the largest one where the sum does not fit.  Nothing is lost by it: no time
is past either of them then (`Record.isOverdue_iff`), so a sweep finds the due records and no
others, also where the exact deadline lies beyond every clock.

A sweep goes over the table once, and both what it leaves and what it pushes are made entry by
entry.  So another order of the entries permutes the two and does nothing else
(`Store.perm_entries_expired`, `Store.perm_overdue`), and what is found under a tag does not depend
on it at all.
-/

namespace TagRental

/-! ## One record -/

namespace Record

/-- The item is out and its deadline, which may be beyond all clocks, has passed. -/
def Due (r : Record) (now : UInt64) : Prop :=
  r.status = .rented ∧ r.rentedAt.toNat + r.duration.toNat < now.toNat

instance (r : Record) (now : UInt64) : Decidable (r.Due now) := inferInstanceAs (Decidable (_ ∧ _))

theorem isOverdue_eq_decide_due (r : Record) (now : UInt64) :
    r.isOverdue now = decide (r.Due now) := by
  rw [Bool.eq_iff_iff, decide_eq_true_iff]
  exact r.isOverdue_iff now

/-- A sweep marks the record if it is due, and touches nothing else in it. -/
theorem swept_eq (r : Record) (now : UInt64) :
    r.swept now = if r.Due now then { r with status := .expired } else r := by
  simp only [swept, isOverdue_eq_decide_due, decide_eq_true_eq]

/-- A mark is always seen. -/
theorem swept_ne_self_iff (r : Record) (now : UInt64) : r.swept now ≠ r ↔ r.Due now := by
  rw [swept_eq]
  by_cases h : r.Due now
  · rw [if_pos h]
    refine ⟨fun _ => h, fun _ heq => ?_⟩
    have hstatus : Status.expired = r.status := congrArg Record.status heq
    rw [h.1] at hstatus
    cases hstatus
  · rw [if_neg h]
    exact ⟨fun hne => absurd rfl hne, fun hdue => absurd hdue h⟩

end Record

/-! ## The table -/

namespace Store

variable (s : Store) (now : UInt64)

/-- The entries whose records are due. -/
def due : List (Tag × Record) := s.entries.filter fun e => e.2.Due now

theorem mem_due_iff {t : Tag} {r : Record} :
    (t, r) ∈ s.due now ↔ s.get? t = some r ∧ r.Due now := by
  rw [due, List.mem_filter, decide_eq_true_iff, get?_eq_some_iff]

/-- No tag is added and none is lost, and each stays at its place. -/
theorem map_fst_expired : (s.expired now).entries.map Prod.fst = s.entries.map Prod.fst := by
  rw [expired, mapRecords, List.map_map]
  rfl

/-- There is one push for each entry that is due. -/
theorem overdue_eq_map_due :
    s.overdue now = (s.due now).map fun e => ⟨.expired, e.1, e.2.rentedAt, e.2.duration⟩ := by
  rw [overdue, due]
  induction s.entries with
  | nil => rfl
  | cons e entries ih =>
    rw [List.filterMap_cons, List.filter_cons, ih, Record.isOverdue_eq_decide_due]
    by_cases h : e.2.Due now
    · rw [decide_eq_true h]
      rfl
    · rw [decide_eq_false h]
      rfl

/-- A record is another one after the sweep exactly if it was due. -/
theorem get?_expired_ne_iff (t : Tag) :
    (s.expired now).get? t ≠ s.get? t ↔ ∃ r, (t, r) ∈ s.due now := by
  simp only [mem_due_iff]
  rw [get?_expired]
  cases s.get? t with
  | none => simp
  | some r => simpa using r.swept_ne_self_iff now

variable {s} {s' : Store}

theorem perm_entries_expired (h : s.entries.Perm s'.entries) :
    (s.expired now).entries.Perm (s'.expired now).entries :=
  h.map _

theorem perm_overdue (h : s.entries.Perm s'.entries) : (s.overdue now).Perm (s'.overdue now) :=
  h.filterMap _

theorem perm_due (h : s.entries.Perm s'.entries) : (s.due now).Perm (s'.due now) :=
  h.filter _

end Store

/-! ## The sweep -/

namespace Backend

/-- **A sweep marks what is due, and only that.**  Let a backend look for overdue items, with its
table in any order.  Under every tag there is then what was there before, but with the status
expired if the record was due; what has changed is exactly the records that were due; the tags are
the same.  For each of them there is one push, which says that the item has expired and carries its
tag, the start of the rental and its duration, and no tag is pushed twice.  Nothing is offered, and
the backend is otherwise as it was.  Another order of the table permutes the entries and the pushes,
and that is all. -/
theorem expire_marks_exactly_due (outlet : Outlet) (b : Backend) (now : UInt64) (σ : Traversal) :
    let o := (b.reordered σ).step outlet (.expire now)
    let after := o.backend.store
    (∀ t, after.get? t = (b.store.get? t).map fun r =>
        if r.Due now then { r with status := .expired } else r) ∧
      (∀ t, after.get? t ≠ b.store.get? t ↔ ∃ r, (t, r) ∈ b.store.due now) ∧
      (after.entries.map Prod.fst).Perm (b.store.entries.map Prod.fst) ∧
      o.pushes.Perm
        ((b.store.due now).map fun e => ⟨.expired, e.1, e.2.rentedAt, e.2.duration⟩) ∧
      (o.pushes.map Response.tag).Nodup ∧
      (o.offers = [] ∧ o.backend = { b with store := after }) ∧
      ∀ σ' : Traversal,
        let o' := (b.reordered σ').step outlet (.expire now)
        o'.backend.store.entries.Perm after.entries ∧ o'.pushes.Perm o.pushes := by
  intro o after
  have hperm := σ.perm b.store
  have hafter : after = (σ.reorder b.store).expired now := rfl
  have hpushes : o.pushes = (σ.reorder b.store).overdue now := rfl
  have hget : ∀ t, after.get? t = (b.store.expired now).get? t := fun t =>
    Store.get?_eq_of_perm (Store.perm_entries_expired now hperm) t
  refine ⟨?_, ?_, ?_, ?_, ?_, ⟨rfl, rfl⟩, ?_⟩
  · intro t
    simp only [hget, Store.get?_expired, Record.swept_eq]
  · intro t
    rw [hget]
    exact b.store.get?_expired_ne_iff now t
  · rw [hafter, Store.map_fst_expired]
    exact hperm.map Prod.fst
  · rw [hpushes, Store.overdue_eq_map_due]
    exact (Store.perm_due now hperm).map _
  · rw [hpushes]
    exact Store.nodup_tag_overdue _ now
  · intro σ' o'
    have hboth := (σ'.perm b.store).trans hperm.symm
    exact ⟨Store.perm_entries_expired now hboth, Store.perm_overdue now hboth⟩

/-- A rental whose exact deadline lies beyond the largest number is never marked. -/
example :
    let late : Record := ⟨.rented, 18446744073709551614, 10, 0⟩
    let early : Record := ⟨.rented, 18446744073709551604, 10, 0⟩
    late.swept 18446744073709551615 = late ∧
      early.swept 18446744073709551615 = { early with status := .expired } := by
  decide

end Backend
end TagRental
