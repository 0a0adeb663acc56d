import TagRental.Proofs.Rental.Sweeping

/-!
# Sweeps in a row

A sweep that comes late does the work of those that were missed, and one that comes again finds
nothing.  Let a table be swept as of some times, in any order and with nothing in between.  What is
left, and what is pushed in all, is what a single sweep as of the latest of these times would leave
and push.

There are two reasons, and each is about two sweeps only.

* A record is due at the later of two times exactly if it is due at one of them
  (`Record.due_max_iff`), and a mark is never touched again.  So the second sweep leaves what one
  sweep at the later time leaves (`Store.expired_expired`), also where the second time is the
  earlier one.
* The second sweep pushes those of the records due at the later time that the first has not marked,
  and the first has pushed the others.  Together they push each of them once
  (`Store.perm_overdue_append`); only the order is another one, since the table is gone through
  twice.

The rest is an induction on the sweeps.  It has to reckon with a table that each of them finds in an
order of its own; that order permutes entries and pushes and does nothing else.
-/

namespace TagRental

/-! ## The latest of some times -/

theorem toNat_max (m n : UInt64) : (max m n).toNat = max m.toNat n.toNat := by
  change (if m ≤ n then n else m).toNat = max m.toNat n.toNat
  split
  · next h => exact (Nat.max_eq_right (UInt64.le_iff_toNat_le.mp h)).symm
  · next h =>
    rw [UInt64.le_iff_toNat_le, Nat.not_le] at h
    exact (Nat.max_eq_left (Nat.le_of_lt h)).symm

theorem max_eq_or (m n : UInt64) : max m n = m ∨ max m n = n := by
  change (if m ≤ n then n else m) = m ∨ (if m ≤ n then n else m) = n
  split
  · exact Or.inr rfl
  · exact Or.inl rfl

/-- The latest of some times.  Of no times it is zero, at which nothing is overdue. -/
def latest (times : List UInt64) : UInt64 := times.foldr max 0

@[simp] theorem latest_cons (n : UInt64) (times : List UInt64) :
    latest (n :: times) = max n (latest times) := rfl

/-- No time is later than the latest. -/
theorem le_latest {n : UInt64} {times : List UInt64} (h : n ∈ times) : n ≤ latest times := by
  induction times with
  | nil => cases h
  | cons m times ih =>
    rw [UInt64.le_iff_toNat_le, latest_cons, toNat_max]
    rcases List.mem_cons.mp h with rfl | hn
    · exact Nat.le_max_left _ _
    · exact Nat.le_trans (UInt64.le_iff_toNat_le.mp (ih hn)) (Nat.le_max_right _ _)

theorem latest_mem_or_eq_zero (times : List UInt64) : latest times ∈ times ∨ latest times = 0 := by
  induction times with
  | nil => exact Or.inr rfl
  | cons m times ih =>
    rw [latest_cons]
    rcases max_eq_or m (latest times) with hmax | hmax
    · rw [hmax]
      exact Or.inl List.mem_cons_self
    · rw [hmax]
      exact ih.imp_left (List.mem_cons_of_mem m)

/-- The latest of some times is one of them, if there are any. -/
theorem latest_mem {times : List UInt64} (h : times ≠ []) : latest times ∈ times := by
  rcases latest_mem_or_eq_zero times with hmem | hzero
  · exact hmem
  · -- then all of them are zero
    obtain ⟨n, hn⟩ := List.exists_mem_of_ne_nil times h
    have hle := le_latest hn
    rw [hzero, UInt64.le_iff_toNat_le] at hle
    have hn0 : n = 0 := UInt64.toNat_inj.mp (Nat.le_zero.mp hle)
    rwa [hzero, ← hn0]

/-- The order of the times does not matter. -/
theorem latest_eq_of_perm {times times' : List UInt64} (h : times.Perm times') :
    latest times = latest times' := by
  have hle : ∀ {xs ys : List UInt64}, xs.Perm ys → latest xs ≤ latest ys := by
    intro xs ys hperm
    rcases latest_mem_or_eq_zero xs with hmem | hzero
    · exact le_latest (hperm.mem_iff.mp hmem)
    · rw [hzero, UInt64.le_iff_toNat_le]
      exact Nat.zero_le _
  exact UInt64.le_antisymm (hle h) (hle h.symm)

/-! ## Two sweeps -/

namespace Record

variable (r : Record) (m n : UInt64)

theorem due_max_iff : r.Due (max m n) ↔ r.Due m ∨ r.Due n := by
  have hlater : r.rentedAt.toNat + r.duration.toNat < (max m n).toNat ↔
      r.rentedAt.toNat + r.duration.toNat < m.toNat ∨
        r.rentedAt.toNat + r.duration.toNat < n.toNat := by
    rw [toNat_max]
    omega
  rw [Due, hlater, and_or_left]
  rfl

theorem not_due_zero : ¬r.Due 0 := fun h => Nat.not_lt_zero _ h.2

variable {r m n} in
/-- What is due stays due as time goes on. -/
theorem Due.mono (h : r.Due n) (hle : n ≤ m) : r.Due m :=
  ⟨h.1, Nat.lt_of_lt_of_le h.2 (UInt64.le_iff_toNat_le.mp hle)⟩

variable {r n} in
/-- A record that is not due is left as it is. -/
theorem swept_of_not_due (h : ¬r.Due n) : r.swept n = r := by
  rw [swept_eq, if_neg h]

/-- A mark is not touched by a later sweep. -/
theorem due_swept_iff : (r.swept m).Due n ↔ r.Due n ∧ ¬r.Due m := by
  by_cases hm : r.Due m
  · rw [swept_eq, if_pos hm]
    refine ⟨fun h => ?_, fun h => absurd hm h.2⟩
    cases h.1
  · rw [swept_of_not_due hm]
    exact ⟨fun h => ⟨h, hm⟩, fun h => h.1⟩

/-- Two sweeps leave what one at the later time leaves. -/
theorem swept_swept : (r.swept m).swept n = r.swept (max m n) := by
  rw [swept_eq (r.swept m), swept_eq r (max m n)]
  simp only [due_swept_iff, due_max_iff]
  by_cases hm : r.Due m
  · rw [if_neg fun h => h.2 hm, if_pos (Or.inl hm), swept_eq, if_pos hm]
  · rw [swept_of_not_due hm]
    by_cases hn : r.Due n
    · rw [if_pos ⟨hn, hm⟩, if_pos (Or.inr hn)]
    · rw [if_neg fun h => hn h.1, if_neg fun h => h.elim hm hn]

end Record

namespace Store

/-- A table is its entries. -/
theorem eq_of_entries_eq {s s' : Store} (h : s.entries = s'.entries) : s = s' := by
  cases s
  cases s'
  cases h
  rfl

/-- A sweep leaves entries as they are if none of them is due. -/
theorem map_swept_of_not_due {entries : List (Tag × Record)} {n : UInt64}
    (h : ∀ e ∈ entries, ¬e.2.Due n) : (entries.map fun e => (e.1, e.2.swept n)) = entries := by
  refine (List.map_congr_left fun e he => ?_).trans (List.map_id entries)
  rw [Record.swept_of_not_due (h e he)]
  rfl

variable (s : Store) (m n : UInt64)

/-- **Two sweeps leave what one at the later time leaves.** -/
theorem expired_expired : (s.expired m).expired n = s.expired (max m n) := by
  simp only [expired, mapRecords, List.map_map, Function.comp_def, Record.swept_swept]

/-- What is due when the table has been swept was due before, and had not been marked. -/
theorem due_expired :
    (s.expired m).due n = (s.due (max m n)).filter fun e => !decide (e.2.Due m) := by
  have hfilter : (s.expired m).due n =
      ((s.due (max m n)).filter fun e => !decide (e.2.Due m)).map fun e => (e.1, e.2.swept m) := by
    rw [due, due, expired, mapRecords, List.filter_map, List.filter_filter]
    congr 2
    funext e
    simp only [Function.comp_apply, Record.due_swept_iff, Record.due_max_iff]
    by_cases hm : e.2.Due m <;> by_cases hn : e.2.Due n <;> simp [hm, hn]
  -- the sweep has left these records as they were
  rw [hfilter]
  exact map_swept_of_not_due fun e he => by simpa using (List.mem_filter.mp he).2

/-- **Two sweeps push what one at the later time pushes**, each record once. -/
theorem perm_overdue_append :
    (s.overdue m ++ (s.expired m).overdue n).Perm (s.overdue (max m n)) := by
  have hfirst : s.due m = (s.due (max m n)).filter fun e => decide (e.2.Due m) := by
    rw [due, due, List.filter_filter]
    congr 1
    funext e
    simp only [Record.due_max_iff]
    by_cases hm : e.2.Due m <;> simp [hm]
  rw [overdue_eq_map_due, overdue_eq_map_due, overdue_eq_map_due, due_expired, hfirst,
    ← List.map_append]
  exact (List.filter_append_perm _ _).map _

/-! ### A sweep that finds nothing -/

section NothingDue

variable {s n} (h : s.due n = [])
include h

theorem overdue_of_due_eq_nil : s.overdue n = [] := by
  rw [overdue_eq_map_due, h, List.map_nil]

theorem expired_of_due_eq_nil : s.expired n = s := by
  refine eq_of_entries_eq ?_
  exact map_swept_of_not_due fun e he => by simpa using List.filter_eq_nil_iff.mp h e he

end NothingDue

theorem due_zero : s.due 0 = [] :=
  List.filter_eq_nil_iff.mpr fun e _ => by simpa using e.2.not_due_zero

/-- When a table has been swept, nothing in it is due as of that time or an earlier one. -/
theorem due_expired_of_le {m n : UInt64} (h : n ≤ m) : (s.expired m).due n = [] := by
  rw [due_expired, List.filter_eq_nil_iff]
  intro e he
  have hdue : e.2.Due m ∨ e.2.Due n :=
    (e.2.due_max_iff m n).mp (by simpa using (List.mem_filter.mp he).2)
  simpa using hdue.elim id fun hn => hn.mono h

end Store

/-! ## Any number of sweeps -/

namespace Backend

/-- The history that looks for overdue items as of the given times, and does nothing else. -/
def sweeping (sweeps : List (Traversal × UInt64)) : List (Traversal × Action) :=
  sweeps.map fun x => (x.1, .expire x.2)

/-- The times of some sweeps. -/
def sweepTimes (sweeps : List (Traversal × UInt64)) : List UInt64 := sweeps.map Prod.snd

variable (outlet : Outlet) (b : Backend)

/-- A sweep that tells nobody changes the table and nothing else. -/
theorem backend_step_expire (now : UInt64) :
    (b.step outlet (.expire now)).backend = { b with store := b.store.expired now } := rfl

/-- Some sweeps leave and push what one as of the latest of their times would, up to the order. -/
theorem after_sweeping (sweeps : List (Traversal × UInt64)) :
    let after := b.afterIn outlet (sweeping sweeps)
    after = { b with store := after.store } ∧
      after.store.entries.Perm (b.store.expired (latest (sweepTimes sweeps))).entries ∧
      ((b.runIn outlet (sweeping sweeps)).flatMap Outcome.pushes).Perm
        (b.store.overdue (latest (sweepTimes sweeps))) := by
  induction sweeps generalizing b with
  | nil =>
    intro after
    have hnone : latest (sweepTimes []) = 0 := rfl
    have hdue := b.store.due_zero
    rw [hnone, Store.expired_of_due_eq_nil hdue, Store.overdue_of_due_eq_nil hdue]
    exact ⟨rfl, List.Perm.refl _, List.Perm.refl _⟩
  | cons x sweeps ih =>
    obtain ⟨σ, n⟩ := x
    intro after
    have htimes : latest (sweepTimes ((σ, n) :: sweeps)) = max n (latest (sweepTimes sweeps)) := rfl
    obtain ⟨hbackend, hentries, hpushes⟩ := ih ((b.reordered σ).step outlet (.expire n)).backend
    rw [backend_step_expire] at hentries hpushes
    have hperm := σ.perm b.store
    refine ⟨hbackend, ?_, ?_⟩
    · have hboth := Store.perm_entries_expired (max n (latest (sweepTimes sweeps))) hperm
      rw [← Store.expired_expired] at hboth
      rw [htimes]
      exact hentries.trans hboth
    · have hboth := Store.perm_overdue_append (σ.reorder b.store) n (latest (sweepTimes sweeps))
      rw [htimes]
      exact ((hpushes.append_left _).trans hboth).trans (Store.perm_overdue _ hperm)

/-- **Sweeps in a row amount to one.**  Look for overdue items as of some times, in any order of the
times and with nothing in between, each time with the table in an order of its own.

* The table that is left has the entries that one sweep as of the latest time leaves; the pushes are
  in all those of that sweep; and nothing else has changed.
* A further sweep as of a time that is not later than one of these pushes nothing and leaves every
  record as it is.
* The same times in another order leave the same entries and push the same. -/
theorem sweeps_amount_to_latest (sweeps : List (Traversal × UInt64)) (σ : Traversal) :
    let times := sweepTimes sweeps
    let run := b.runIn outlet (sweeping sweeps)
    let after := b.afterIn outlet (sweeping sweeps)
    let one := (b.reordered σ).step outlet (.expire (latest times))
    ((∀ n ∈ times, n ≤ latest times) ∧ (times ≠ [] → latest times ∈ times)) ∧
      (after.store.entries.Perm one.backend.store.entries ∧
        after = { b with store := after.store } ∧
        (run.flatMap Outcome.pushes).Perm one.pushes) ∧
      (∀ n, (∃ m ∈ times, n ≤ m) → ∀ σ' : Traversal,
        let again := (after.reordered σ').step outlet (.expire n)
        again.pushes = [] ∧ again.backend = after.reordered σ') ∧
      ∀ sweeps' : List (Traversal × UInt64), (sweepTimes sweeps').Perm times →
        (b.afterIn outlet (sweeping sweeps')).store.entries.Perm after.store.entries ∧
          ((b.runIn outlet (sweeping sweeps')).flatMap Outcome.pushes).Perm
            (run.flatMap Outcome.pushes) := by
  intro times run after one
  obtain ⟨hbackend, hentries, hpushes⟩ := after_sweeping outlet b sweeps
  have hperm := σ.perm b.store
  refine ⟨⟨fun n hn => le_latest hn, latest_mem⟩, ⟨?_, hbackend, ?_⟩, ?_, ?_⟩
  · exact hentries.trans (Store.perm_entries_expired _ hperm).symm
  · exact hpushes.trans (Store.perm_overdue _ hperm).symm
  · rintro n ⟨m, hm, hnm⟩ σ' again
    have hle : n ≤ latest times := UInt64.le_trans hnm (le_latest hm)
    have hdue : ((after.reordered σ').store).due n = [] := by
      have hsame := Store.perm_due n ((σ'.perm after.store).trans hentries)
      rw [Store.due_expired_of_le _ hle] at hsame
      exact hsame.eq_nil
    refine ⟨Store.overdue_of_due_eq_nil hdue, ?_⟩
    rw [backend_step_expire, Store.expired_of_due_eq_nil hdue]
  · intro sweeps' htimes
    obtain ⟨-, hentries', hpushes'⟩ := after_sweeping outlet b sweeps'
    rw [latest_eq_of_perm htimes] at hentries' hpushes'
    exact ⟨hentries'.trans hentries.symm, hpushes'.trans hpushes.symm⟩

/-- Of three rentals the first is pushed by the first sweep, the second by the late one, and the
third by none; going back finds nothing. -/
example :
    let outlet : Outlet := fun _ _ => none
    let aa : Tag := ⟨[0xAA], by decide, by decide⟩
    let bb : Tag := ⟨[0xBB], by decide, by decide⟩
    let cc : Tag := ⟨[0xCC], by decide, by decide⟩
    let b := (start .usual 1000).after outlet
      [.start aa (some 5), .start bb (some 15), .start cc none]
    let sweeps := [1010, 1020, 1015].map (Traversal.asTheyStand, ·)
    (b.runIn outlet (sweeping sweeps)).map Outcome.pushes =
      [[⟨.expired, aa, 1000, 5⟩], [⟨.expired, bb, 1000, 15⟩], []] := by
  decide +kernel

end Backend
end TagRental
