import Mathlib.Logic.ExistsUnique
import TagRental.Proofs.Rental.Occasions

/-!
# Where a push comes from

A gateway that is told `EXPIRED` without having asked must be able to find the rental that the push
is about.  This file proves that there is exactly one: for every push in every history there is one
earlier start of that item that was granted, with the times that the push reports, and nothing came
in between that would have ended that rental --- no end, no clearing, and no other push.  Two pushes
never go back to the same start, so there are at most as many pushes as granted starts.  Whether a
push is sent or lost does not enter, since every `Outlet` is allowed.

## The argument

An item is *out* while its record says rented.  Three facts about one action carry everything:

* an item that is out afterwards was either granted by this action, with the times that its record
  shows, or was out before with the same record, and the action was *quiet* about it
  (`Occasion.granted_or_quiet`);
* an item that was granted is out afterwards (`Occasion.record_of_lease?`);
* an item that is out stays out, with the same record, through a quiet action
  (`Occasion.record_of_quiet`).

A push finds its item out.  Going backwards from it with the first fact leads to a granted start
with only quiet actions in between, and going forwards from a start with the other two shows that no
other start could have been granted in between, nor can a second push follow.
-/

namespace TagRental

/-- Is the item out? -/
def Store.isOut (s : Store) (t : Tag) : Bool := (s.get? t).any fun r => r.status = .rented

theorem Store.isOut_iff {s : Store} {t : Tag} :
    s.isOut t = true ↔ ∃ r, s.get? t = some r ∧ r.status = .rented := by
  unfold Store.isOut
  cases s.get? t <;> simp

/-- A rental that was granted: of which item, since when, and for how long. -/
structure Lease where
  tag : Tag
  since : UInt64
  duration : UInt64
  deriving DecidableEq

/-- The record of a rental that was granted. -/
def Lease.record (l : Lease) : Record := ⟨.rented, l.since, l.duration, 0⟩

/-- The rental that a push reports. -/
def Response.lease (p : Response) : Lease := ⟨p.tag, p.timestamp, p.duration⟩

namespace Occasion

/-- The rental that the action grants: it asks to start one, and the item is not out.  The rental
begins at the time of the clock, and where no duration is asked for it is the usual one. -/
def lease? (o : Occasion) : Option Lease :=
  match o.action.command? with
  | some (.rentalStart tag requested) =>
    if o.backend.store.isOut tag then none
    else some ⟨tag, o.backend.clock, requested.getD o.backend.terms.defaultDuration⟩
  | _ => none

/-- The action does nothing that could end a rental of the item: it does not end it, clears nothing,
and pushes nothing about it. -/
structure Quiet (outlet : Outlet) (t : Tag) (o : Occasion) : Prop where
  notEnded : o.action.command? ≠ some (.rentalEnd t)
  notCleared : o.action.isClear = false
  notPushed : ∀ p ∈ o.pushes outlet, p.tag ≠ t

/-! ## One action -/

variable {outlet : Outlet} {o : Occasion} {t : Tag}

theorem lease?_eq_some_iff {l : Lease} :
    o.lease? = some l ↔
      o.event l.tag = .start l.since l.duration ∧ o.backend.store.isOut l.tag = false := by
  unfold lease? event
  rw [Action.eventFor_eq_start_iff]
  constructor
  · intro h
    split at h
    · next tag requested hc =>
      split at h
      · cases h
      · next hout =>
        cases h
        exact ⟨⟨requested, hc, rfl, rfl⟩, by simpa using hout⟩
    · cases h
  · rintro ⟨⟨requested, hc, hs, hd⟩, hout⟩
    simp only [hc, hout, Bool.false_eq_true, if_false, hs, hd]

/-- What an action pushes: the records that are overdue at the time of its sweep. -/
theorem mem_pushes_iff {p : Response} :
    p ∈ o.pushes outlet ↔
      ∃ now r, o.action.sweepTime? o.backend.clock = some now ∧ o.record? p.tag = some r ∧
        r.isOverdue now = true ∧ p = r.push p.tag := by
  unfold pushes outcome
  rw [Backend.pushes_step]
  cases hs : o.action.sweepTime? o.backend.clock with
  | none => simp
  | some now =>
    simp only [Store.mem_overdue_iff]
    constructor
    · rintro ⟨r, hr⟩
      exact ⟨now, r, rfl, hr⟩
    · rintro ⟨now', r, hnow, hr⟩
      cases hnow
      exact ⟨r, hr⟩

/-- A sweep that pushes nothing about an item found it not overdue. -/
theorem Quiet.not_overdue (hq : o.Quiet outlet t) {now : UInt64} {r : Record}
    (hs : o.event t = .sweep now) (hr : o.record? t = some r) : r.isOverdue now = false := by
  cases ho : r.isOverdue now with
  | false => rfl
  | true =>
    have hp : r.push t ∈ o.pushes outlet :=
      mem_pushes_iff.mpr ⟨now, r, Action.eventFor_eq_sweep_iff.mp hs, hr, ho, rfl⟩
    exact absurd rfl (hq.notPushed (r.push t) hp)

/-- An item that is granted is out afterwards, with the record of that rental. -/
theorem record_of_lease? {l : Lease} (h : o.lease? = some l) :
    (o.outcome outlet).backend.store.get? l.tag = some l.record := by
  obtain ⟨he, hout⟩ := lease?_eq_some_iff.mp h
  have hfree : ((o.record? l.tag).any fun r => r.status = .rented) = false := hout
  rw [get?_outcome, he, ItemEvent.apply, hfree]
  rfl

/-- An item that is out stays out through a quiet action, with the same record. -/
theorem record_of_quiet {r : Record} (hq : o.Quiet outlet t) (hr : o.record? t = some r)
    (hrented : r.status = .rented) : (o.outcome outlet).backend.store.get? t = some r := by
  rw [get?_outcome, hr]
  cases he : o.event t with
  | start now duration => simp [ItemEvent.apply, hrented]
  | finish now => exact absurd (Action.eventFor_eq_finish_iff.mp he).1 hq.notEnded
  | sweep now => simp [ItemEvent.apply, Record.swept, hq.not_overdue he hr]
  | clear =>
    have hc : o.action.isClear = true := Action.eventFor_eq_clear_iff.mp he
    rw [hq.notCleared] at hc
    cases hc
  | apart => rfl

/-- An action that is neither an end of the item nor a clearing, and leaves it out, is quiet about
it. -/
theorem quiet_of_out {r : Record} (hr : (o.outcome outlet).backend.store.get? t = some r)
    (hrented : r.status = .rented) : o.Quiet outlet t := by
  rw [get?_outcome] at hr
  refine ⟨fun hc => ?_, ?_, ?_⟩
  · have he : o.event t = .finish o.backend.clock := Action.eventFor_eq_finish_iff.mpr ⟨hc, rfl⟩
    rw [he, ItemEvent.apply, Option.map_eq_some_iff] at hr
    obtain ⟨old, -, rfl⟩ := hr
    by_cases hold : old.status = .rented ∨ old.status = .expired
    · simp [hold] at hrented
    · rw [if_neg hold] at hrented
      exact hold (Or.inl hrented)
  · cases hc : o.action.isClear with
    | false => rfl
    | true =>
      have he : o.event t = .clear := Action.eventFor_eq_clear_iff.mpr hc
      rw [he] at hr
      cases hr
  · rintro p hp rfl
    obtain ⟨now, old, hs, hold, ho, -⟩ := mem_pushes_iff.mp hp
    have he : o.event p.tag = .sweep now := Action.eventFor_eq_sweep_iff.mpr hs
    rw [he, hold, ItemEvent.apply, Option.map_some, Option.some.injEq, Record.swept,
      if_pos ho] at hr
    rw [← hr] at hrented
    cases hrented

/-- **An item that is out afterwards** was granted by this action, or it was out before with the
same record and the action was quiet about it. -/
theorem granted_or_quiet {r : Record} (hr : (o.outcome outlet).backend.store.get? t = some r)
    (hrented : r.status = .rented) :
    o.lease? = some ⟨t, r.rentedAt, r.duration⟩ ∨
      o.record? t = some r ∧ o.Quiet outlet t := by
  have hq : o.Quiet outlet t := quiet_of_out hr hrented
  rw [get?_outcome] at hr
  cases he : o.event t with
  | start now duration =>
    rw [he, ItemEvent.apply] at hr
    split at hr
    · exact Or.inr ⟨hr, hq⟩
    · next hout =>
      cases hr
      exact Or.inl (lease?_eq_some_iff.mpr ⟨he, Bool.eq_false_iff.mpr hout⟩)
  | finish now => exact absurd (Action.eventFor_eq_finish_iff.mp he).1 hq.notEnded
  | sweep now =>
    rw [he, ItemEvent.apply, Option.map_eq_some_iff] at hr
    obtain ⟨old, hold, hsw⟩ := hr
    rw [Record.swept, hq.not_overdue he hold] at hsw
    exact Or.inr ⟨hsw ▸ hold, hq⟩
  | clear => rw [he] at hr; cases hr
  | apart => rw [he] at hr; exact Or.inr ⟨hr, hq⟩

/-- No item is pushed twice by one action. -/
theorem nodup_tag_pushes (outlet : Outlet) (o : Occasion) :
    ((o.pushes outlet).map Response.tag).Nodup := by
  unfold pushes outcome
  rw [Backend.pushes_step]
  cases o.action.sweepTime? o.backend.clock with
  | none => exact List.nodup_nil
  | some now => exact o.backend.store.nodup_tag_overdue now

end Occasion

/-! ## A whole history -/

/-- The `m`-th push of the action at place `j`. -/
def PushedAt (outlet : Outlet) (os : List Occasion) (j m : Nat) (p : Response) : Prop :=
  ∃ o, os[j]? = some o ∧ (o.pushes outlet)[m]? = some p

/-- The push `p`, the `m`-th of the action at place `j`, goes back to the start at place `i`: the
start was earlier and was granted with the times that the push reports; in between the item was not
ended, nothing was cleared, and nothing else was pushed about it; and the sweep took place after the
last second of that rental, as exact arithmetic has it. -/
structure GoesBackTo (outlet : Outlet) (os : List Occasion) (i j m : Nat) (p : Response) :
    Prop where
  earlier : i < j
  granted : os[i]?.bind Occasion.lease? = some p.lease
  notEnded : ∀ k o, i < k → k < j → os[k]? = some o → o.action.command? ≠ some (.rentalEnd p.tag)
  notCleared : ∀ k o, i < k → k < j → os[k]? = some o → o.action.isClear = false
  noOther : ∀ k n q, i < k → k ≤ j → PushedAt outlet os k n q → q.tag = p.tag → k = j ∧ n = m
  overdue : ∃ o now, os[j]? = some o ∧ o.action.sweepTime? o.backend.clock = some now ∧
    p.timestamp.toNat + p.duration.toNat < now.toNat

/-- Two pushes of one action about one item are the same push. -/
theorem PushedAt.eq_of_tag {outlet : Outlet} {os : List Occasion} {j m n : Nat} {p q : Response}
    (hp : PushedAt outlet os j m p) (hq : PushedAt outlet os j n q) (htag : q.tag = p.tag) :
    n = m := by
  obtain ⟨o, ho, hp⟩ := hp
  obtain ⟨o', ho', hq⟩ := hq
  rw [ho] at ho'
  cases ho'
  have hp' : ((o.pushes outlet).map Response.tag)[m]? = some p.tag := by
    rw [List.getElem?_map, hp]
    rfl
  have hq' : ((o.pushes outlet).map Response.tag)[n]? = some p.tag := by
    rw [List.getElem?_map, hq, ← htag]
    rfl
  have hn : n < ((o.pushes outlet).map Response.tag).length :=
    (List.getElem?_eq_some_iff.mp hq').1
  exact (List.getElem?_inj hn (o.nodup_tag_pushes outlet)).mp (hq'.trans hp'.symm)

/-- Between a start and a push that goes back to it, every action is quiet about the item. -/
theorem GoesBackTo.quiet {outlet : Outlet} {os : List Occasion} {i j m : Nat} {p : Response}
    (h : GoesBackTo outlet os i j m p) {k : Nat} {o : Occasion} (hik : i < k) (hkj : k < j)
    (ho : os[k]? = some o) : o.Quiet outlet p.tag := by
  refine ⟨h.notEnded k o hik hkj ho, h.notCleared k o hik hkj ho, ?_⟩
  intro q hq htag
  obtain ⟨n, hn⟩ := List.mem_iff_getElem?.mp hq
  have hkeq := (h.noOther k n q hik (Nat.le_of_lt hkj) ⟨o, ho, hn⟩ htag).1
  omega

namespace Backend

variable {outlet : Outlet} {b : Backend} {history : List Action} {t : Tag}

/-- **An item that is out was granted**, with the times of its record, and since then every action
was quiet about it.  By induction on the number of actions so far. -/
theorem exists_lease_of_out (hempty : b.store.get? t = none) {j : Nat} {r : Record}
    (hj : j ≤ history.length)
    (hr : (b.after outlet (history.take j)).store.get? t = some r) (hrented : r.status = .rented) :
    ∃ i o, i < j ∧ (b.occasions outlet history)[i]? = some o ∧
      o.lease? = some ⟨t, r.rentedAt, r.duration⟩ ∧
      ∀ k o', i < k → k < j → (b.occasions outlet history)[k]? = some o' → o'.Quiet outlet t := by
  induction j generalizing r with
  | zero =>
    rw [List.take_zero, after_nil, hempty] at hr
    cases hr
  | succ j ih =>
    have hlt : j < history.length := hj
    have ho : (b.occasions outlet history)[j]? =
        some ⟨b.after outlet (history.take j), history[j]⟩ := getElem?_occasions_of_lt hlt
    rw [after_take_succ ho] at hr
    rcases Occasion.granted_or_quiet hr hrented with hl | ⟨hbefore, hq⟩
    · refine ⟨j, _, Nat.lt_succ_self j, ho, hl, ?_⟩
      intro k o' hjk hkj
      omega
    · obtain ⟨i, o, hij, hi, hl, hquiet⟩ := ih (Nat.le_of_lt hlt) hbefore hrented
      refine ⟨i, o, Nat.lt_succ_of_lt hij, hi, hl, ?_⟩
      intro k o' hik hkj hk
      rcases Nat.lt_succ_iff_lt_or_eq.mp hkj with hkj | rfl
      · exact hquiet k o' hik hkj hk
      · rw [ho] at hk
        cases hk
        exact hq

/-- **A granted item stays out** as long as every action is quiet about it. -/
theorem record_of_lease_of_quiet {i j : Nat} {o : Occasion} {l : Lease}
    (hi : (b.occasions outlet history)[i]? = some o) (hl : o.lease? = some l) (hij : i < j)
    (hj : j ≤ history.length)
    (hquiet : ∀ k o', i < k → k < j → (b.occasions outlet history)[k]? = some o' →
      o'.Quiet outlet l.tag) :
    (b.after outlet (history.take j)).store.get? l.tag = some l.record := by
  induction j with
  | zero => exact absurd hij (Nat.not_lt_zero i)
  | succ j ih =>
    rcases Nat.lt_succ_iff_lt_or_eq.mp hij with hij | rfl
    · have ho : (b.occasions outlet history)[j]? =
          some ⟨b.after outlet (history.take j), history[j]⟩ := getElem?_occasions_of_lt hj
      have hbefore := ih hij (Nat.le_of_lt hj) fun k o' hik hkj =>
        hquiet k o' hik (Nat.lt_succ_of_lt hkj)
      rw [after_take_succ ho]
      exact Occasion.record_of_quiet (hquiet j _ hij (Nat.lt_succ_self j) ho) hbefore rfl
    · rw [after_take_succ hi, Occasion.record_of_lease? hl]

/-- Every push goes back to a start. -/
theorem exists_goesBackTo (hempty : ∀ t, b.store.get? t = none) {j m : Nat} {p : Response}
    (hp : PushedAt outlet (b.occasions outlet history) j m p) :
    ∃ i, GoesBackTo outlet (b.occasions outlet history) i j m p := by
  obtain ⟨oj, hoj, hpm⟩ := hp
  have hmem : p ∈ oj.pushes outlet := List.mem_of_getElem? hpm
  obtain ⟨now, r, hs, hr, ho, hpr⟩ := Occasion.mem_pushes_iff.mp hmem
  obtain ⟨hrented, hlate⟩ := (r.isOverdue_iff now).mp ho
  have hlease : p.lease = ⟨p.tag, r.rentedAt, r.duration⟩ := by
    rw [Response.lease, hpr]
    rfl
  have hrj : (b.after outlet (history.take j)).store.get? p.tag = some r := by
    rw [← backend_of_getElem?_occasions hoj]
    exact hr
  obtain ⟨i, o, hij, hi, hl, hquiet⟩ := exists_lease_of_out (hempty p.tag)
    (Nat.le_of_lt (lt_length_of_getElem?_occasions hoj)) hrj hrented
  refine ⟨i, hij, ?_, ?_, ?_, ?_, oj, now, hoj, hs, ?_⟩
  · rw [hi, Option.bind_some, hl, hlease]
  · exact fun k o' hik hkj hk => (hquiet k o' hik hkj hk).notEnded
  · exact fun k o' hik hkj hk => (hquiet k o' hik hkj hk).notCleared
  · intro k n q hik hkj hq htag
    rcases Nat.lt_or_eq_of_le hkj with hkj | rfl
    · obtain ⟨o', hk, hqn⟩ := hq
      exact absurd htag ((hquiet k o' hik hkj hk).notPushed q (List.mem_of_getElem? hqn))
    · exact ⟨rfl, PushedAt.eq_of_tag ⟨oj, hoj, hpm⟩ hq htag⟩
  · rw [hpr]
    exact hlate

/-- Of two starts that a push goes back to, neither is before the other: the item would have been
out when the second one was granted. -/
theorem not_lt_of_goesBackTo {i i' j m : Nat} {p : Response}
    (h : GoesBackTo outlet (b.occasions outlet history) i j m p)
    (h' : GoesBackTo outlet (b.occasions outlet history) i' j m p) : ¬ i < i' := by
  intro hlt
  obtain ⟨o, hi, hl⟩ := Option.bind_eq_some_iff.mp h.granted
  obtain ⟨o', hi', hl'⟩ := Option.bind_eq_some_iff.mp h'.granted
  have hout : (b.after outlet (history.take i')).store.get? p.tag = some p.lease.record :=
    record_of_lease_of_quiet hi hl hlt (Nat.le_of_lt (lt_length_of_getElem?_occasions hi'))
      fun k _ hik hki => h.quiet hik (Nat.lt_trans hki h'.earlier)
  rw [← backend_of_getElem?_occasions hi'] at hout
  have hfree : o'.backend.store.isOut p.tag = false := (Occasion.lease?_eq_some_iff.mp hl').2
  rw [Store.isOut_iff.mpr ⟨_, hout, rfl⟩] at hfree
  cases hfree

/-- Two pushes that go back to one start are one push. -/
theorem eq_of_goesBackTo {i j m j' m' : Nat} {p p' : Response}
    (hp : PushedAt outlet (b.occasions outlet history) j m p)
    (hp' : PushedAt outlet (b.occasions outlet history) j' m' p')
    (h : GoesBackTo outlet (b.occasions outlet history) i j m p)
    (h' : GoesBackTo outlet (b.occasions outlet history) i j' m' p') : j = j' ∧ m = m' := by
  have hlease : p.lease = p'.lease := Option.some.inj (h.granted.symm.trans h'.granted)
  have htag : p.tag = p'.tag := congrArg Lease.tag hlease
  rcases Nat.le_total j j' with hle | hle
  · exact h'.noOther j m p h.earlier hle hp htag
  · obtain ⟨hj, hm⟩ := h.noOther j' m' p' h'.earlier hle hp' htag.symm
    exact ⟨hj.symm, hm.symm⟩

end Backend

/-! ## Counting

An item that is out is a start that no push has answered yet.  So pushes and the item, if it is out,
are together never more than the starts. -/

theorem Occasion.countP_pushes_le (outlet : Outlet) (o : Occasion) (t : Tag) :
    (o.pushes outlet).countP (fun p => p.tag = t) ≤ (o.backend.store.isOut t).toNat := by
  have hone : (o.pushes outlet).countP (fun p => p.tag = t) ≤ 1 := by
    have hcount := List.nodup_iff_count.mp (o.nodup_tag_pushes outlet) t
    rwa [List.count, List.countP_map] at hcount
  cases hout : o.backend.store.isOut t with
  | true => exact hone
  | false =>
    have hnone : (o.pushes outlet).countP (fun p => p.tag = t) = 0 := by
      rw [List.countP_eq_zero]
      intro p hp htag
      have htag : p.tag = t := of_decide_eq_true htag
      obtain ⟨now, r, -, hr, ho, -⟩ := mem_pushes_iff.mp hp
      rw [htag] at hr
      rw [Store.isOut_iff.mpr ⟨r, hr, ((r.isOverdue_iff now).mp ho).1⟩] at hout
      cases hout
    exact Nat.le_of_eq hnone

/-- One action adds no more to the pushes about an item, and to its being out, than to the
starts. -/
theorem Occasion.countP_pushes_add_le (outlet : Outlet) (o : Occasion) (t : Tag) :
    (o.pushes outlet).countP (fun p => p.tag = t) +
        ((o.outcome outlet).backend.store.isOut t).toNat ≤
      (o.backend.store.isOut t).toNat + o.lease?.toList.countP fun l => l.tag = t := by
  cases hafter : (o.outcome outlet).backend.store.isOut t with
  | false => exact Nat.le_add_right_of_le (o.countP_pushes_le outlet t)
  | true =>
    obtain ⟨r, hr, hrented⟩ := Store.isOut_iff.mp hafter
    have hnone : (o.pushes outlet).countP (fun p => p.tag = t) = 0 := by
      rw [List.countP_eq_zero]
      exact fun p hp htag => (quiet_of_out hr hrented).notPushed p hp (of_decide_eq_true htag)
    rcases granted_or_quiet hr hrented with hl | ⟨hbefore, -⟩
    · rw [hnone, hl]
      simp
    · rw [hnone, Store.isOut_iff.mpr ⟨r, hbefore, hrented⟩]
      simp

namespace Backend

theorem countP_pushes_add_le (outlet : Outlet) (b : Backend) (history : List Action) (t : Tag) :
    ((b.occasions outlet history).flatMap (Occasion.pushes outlet)).countP (fun p => p.tag = t) +
        ((b.after outlet history).store.isOut t).toNat ≤
      (b.store.isOut t).toNat +
        ((b.occasions outlet history).filterMap Occasion.lease?).countP fun l => l.tag = t := by
  induction history generalizing b with
  | nil => simp
  | cons a rest ih =>
    have hstep := Occasion.countP_pushes_add_le outlet ⟨b, a⟩ t
    have hrest := ih (b.step outlet a).backend
    have hleases : (b.occasions outlet (a :: rest)).filterMap Occasion.lease? =
        (Occasion.lease? ⟨b, a⟩).toList ++
          ((b.step outlet a).backend.occasions outlet rest).filterMap Occasion.lease? := by
      rw [occasions_cons, List.filterMap_cons]
      cases Occasion.lease? ⟨b, a⟩ <;> rfl
    rw [hleases, occasions_cons, List.flatMap_cons, List.countP_append, List.countP_append,
      after_cons]
    simp only [Occasion.outcome] at hstep
    omega

/-- **Every push goes back to one start of its own.**  In every history of a backend that begins
with an empty table, and whatever becomes of what it sends: a push says `EXPIRED` and goes back to
exactly one granted start; different pushes go back to different starts; and the pushes about an
item are no more than its granted starts. -/
theorem push_goesBackTo_unique_start (outlet : Outlet) (terms : Terms) (clock : UInt64)
    (history : List Action) :
    let os := (start terms clock).occasions outlet history
    (∀ j m p, PushedAt outlet os j m p →
      p.status = .expired ∧ ∃! i, GoesBackTo outlet os i j m p) ∧
    (∀ i j m p j' m' p', PushedAt outlet os j m p → PushedAt outlet os j' m' p' →
      GoesBackTo outlet os i j m p → GoesBackTo outlet os i j' m' p' → j = j' ∧ m = m') ∧
    ∀ t, (os.flatMap (Occasion.pushes outlet)).countP (fun p => p.tag = t) ≤
      (os.filterMap Occasion.lease?).countP fun l => l.tag = t := by
  intro os
  refine ⟨?_, ?_, ?_⟩
  · intro j m p hp
    constructor
    · obtain ⟨o, -, hpm⟩ := hp
      obtain ⟨now, r, -, -, -, hpr⟩ := Occasion.mem_pushes_iff.mp (List.mem_of_getElem? hpm)
      rw [hpr]
      rfl
    · obtain ⟨i, hi⟩ := exists_goesBackTo (fun t => Store.get?_empty t) hp
      refine ⟨i, hi, fun i' hi' => ?_⟩
      have hle := Nat.le_of_not_lt (not_lt_of_goesBackTo hi hi')
      have hge := Nat.le_of_not_lt (not_lt_of_goesBackTo hi' hi)
      exact Nat.le_antisymm hle hge
  · intro i j m p j' m' p' hp hp' h h'
    exact eq_of_goesBackTo hp hp' h h'
  · intro t
    have hcount := countP_pushes_add_le outlet (start terms clock) history t
    have hnone : (start terms clock).store.isOut t = false := rfl
    rw [hnone, Bool.toNat_false, Nat.zero_add] at hcount
    exact Nat.le_of_add_right_le hcount

/-- An item that expires, is rented again at once and expires again, over a link on which nothing is
sent: the second push goes back to the second start. -/
theorem push_goesBackTo_unique_start_again :
    let aa : Tag := ⟨[0xAA], by decide, by decide⟩
    let os := (start .usual 1000).occasions (fun _ _ => some .cancelled)
      [.start aa (some 1), .setClock 1010, .tick, .start aa (some 2), .sweep 2000]
    PushedAt (fun _ _ => some .cancelled) os 4 0 ⟨.expired, aa, 1010, 2⟩ ∧
      ∃! i, GoesBackTo (fun _ _ => some .cancelled) os i 4 0 ⟨.expired, aa, 1010, 2⟩ := by
  intro aa os
  have hp : PushedAt (fun _ _ => some .cancelled) os 4 0 ⟨.expired, aa, 1010, 2⟩ := ⟨_, rfl, rfl⟩
  exact ⟨hp,
    ((push_goesBackTo_unique_start (fun _ _ => some .cancelled) .usual 1000 _).1 _ _ _ hp).2⟩

end Backend

end TagRental
