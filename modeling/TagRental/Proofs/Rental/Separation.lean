import TagRental.Proofs.Rental.Occasions

/-!
# Items do not interfere

All rentals are in one table, and frames about any of them arrive over one link in any order.  What
can be learnt about an item, and what becomes of it, must not depend on the others: leave out of a
history every frame that is dropped and everything that names another item, and the item has the
same record in the end, gets the same answers to the same requests, and is pushed by the same
sweeps, at the same times.

The two histories are compared while they run (`Alike`): the terms, the clock and the record of the
one item agree, and nothing is said of the rest of the table.  An action that is kept finds the two
backends alike and leaves them alike; an action that is left out moves only one of them, and leaves
it alike to where it was.  The outlets of the two histories need not agree in anything, so what is
lost in one and sent in the other makes no difference either.
-/

namespace TagRental

/-! ## What an action is about -/

/-- The item that an action names. -/
def Action.item? : Action → Option Tag
  | .get tag => some tag
  | a => a.command?.bind Command.item?

/-- Does an action look at no item by its name?  Such are the sweeps, the clearing, the clock and
the lines of the operator. -/
def Action.isCommon : Action → Bool
  | .frame _ | .start _ _ | .finish _ | .status _ | .get _ => false
  | _ => true

/-- A frame names the item that the command in it names, if there is a command in it. -/
theorem Action.item?_frame (payload : Bytes) :
    (Action.frame payload).item? = (Action.frame payload).command?.bind Command.item? := rfl

theorem Action.item?_of_command? {a : Action} {c : Command} (h : a.command? = some c) :
    a.item? = c.item? := by
  cases a with
  | get tag => cases h
  | _ => simp only [item?, h, Option.bind_some]

theorem Action.isCommon_of_item? {a : Action} {u : Tag} (h : a.item? = some u) :
    a.isCommon = false := by
  cases a with
  | frame _ | start _ _ | finish _ | status _ | get _ => rfl
  | _ => cases h

section NotCommon

variable {a : Action} (h : a.isCommon = false)
include h

theorem Action.clockAfter_of_not_common (clock : UInt64) : a.clockAfter clock = clock := by
  cases a with
  | advance _ | setClock _ => cases h
  | _ => rfl

theorem Action.sweepTime?_of_not_common (clock : UInt64) : a.sweepTime? clock = none := by
  cases a with
  | sweep _ | tick | expire _ => cases h
  | _ => rfl

theorem Action.isClear_of_not_common : a.isClear = false := by
  cases a with
  | clear | console _ => cases h
  | _ => rfl

/-- An action that is about another item means nothing to this one. -/
theorem Action.eventFor_of_item?_ne {t : Tag} (hitem : a.item? ≠ some t) (terms : Terms)
    (clock : UInt64) : a.eventFor terms clock t = .apart := by
  rcases a.eventFor_cases terms clock t with ⟨_, hc, -⟩ | ⟨hc, -⟩ | ⟨now, hs, -⟩ | ⟨hk, -⟩ | he
  · exact absurd (item?_of_command? hc) hitem
  · exact absurd (item?_of_command? hc) hitem
  · rw [sweepTime?_of_not_common h] at hs
    cases hs
  · rw [isClear_of_not_common h] at hk
    cases hk
  · exact he

end NotCommon

theorem Command.reply?_eq_none_iff (c : Command) (r? : Option Record) :
    c.reply? r? = none ↔ c.item? = none := by
  constructor
  · intro h
    cases c with
    | rentalStart tag requested => cases h
    | rentalEnd tag =>
      cases r? with
      | none => cases h
      | some r =>
        simp only [reply?] at h
        split at h <;> cases h
    | statusRequest tag => cases r? <;> cases h
    | _ => rfl
  · intro h
    cases c with
    | rentalStart tag requested => cases h
    | rentalEnd tag => cases h
    | statusRequest tag => cases h
    | _ => rfl

namespace Backend

theorem result_handleFrame_eq_dropped_iff (outlet : Outlet) (b : Backend) (payload : Bytes) :
    (b.handleFrame outlet payload).result = .dropped ↔
      (Dispatch.handle b.terms b.clock b.store payload).response? = none := by
  unfold handleFrame
  dsimp only
  split
  · next h => simp [h]
  · next h => split <;> simp [h]

/-- A frame is dropped exactly if it names no item. -/
theorem result_handleFrame_eq_dropped_iff_item? (outlet : Outlet) (b : Backend) (payload : Bytes) :
    (b.handleFrame outlet payload).result = .dropped ↔ (Action.frame payload).item? = none := by
  rw [result_handleFrame_eq_dropped_iff, Dispatch.response?_handle, Action.item?_frame]
  cases (Action.frame payload).command? with
  | none => simp
  | some c =>
    simp only [Option.bind_some, Dispatch.response?_carryOut]
    exact c.reply?_eq_none_iff _

end Backend

namespace Occasion

/-- Is the action a frame, and is it dropped? -/
def isDropped (outlet : Outlet) (o : Occasion) : Bool :=
  match (o.outcome outlet).result with
  | .frame .dropped => true
  | _ => false

/-- Does the action concern an item?  It does unless it is a frame that is dropped, or names another
item. -/
def concerns (outlet : Outlet) (t : Tag) (o : Occasion) : Bool :=
  !o.isDropped outlet && o.action.item?.all fun u => u = t

/-- The answers of the action that are about an item. -/
def repliesAbout (outlet : Outlet) (t : Tag) (o : Occasion) : List Response :=
  (o.outcome outlet).replies.filter fun p => p.tag = t

/-- The pushes of the action that are about an item. -/
def pushesAbout (outlet : Outlet) (t : Tag) (o : Occasion) : List Response :=
  (o.pushes outlet).filter fun p => p.tag = t

/-- What can be seen of an item on an occasion: what was done, when, and what was then said about
the item. -/
structure Account where
  action : Action
  clock : UInt64
  replies : List Response
  pushes : List Response

/-- The account of an item that an occasion gives. -/
def account (outlet : Outlet) (t : Tag) (o : Occasion) : Account :=
  ⟨o.action, o.backend.clock, o.repliesAbout outlet t, o.pushesAbout outlet t⟩

variable {outlet : Outlet} {o : Occasion} {t : Tag}

/-- The frames that are dropped are those that name no item. -/
theorem isDropped_iff :
    o.isDropped outlet = true ↔ ∃ payload, o.action = .frame payload ∧ o.action.item? = none := by
  obtain ⟨b, a⟩ := o
  cases a with
  | frame payload =>
    have hresult : (outcome outlet ⟨b, .frame payload⟩).result =
        .frame (b.handleFrame outlet payload).result := rfl
    have hdrop : isDropped outlet ⟨b, .frame payload⟩ = true ↔
        (b.handleFrame outlet payload).result = .dropped := by
      unfold isDropped
      rw [hresult]
      cases (b.handleFrame outlet payload).result <;> simp
    rw [hdrop, b.result_handleFrame_eq_dropped_iff_item? outlet payload]
    simp only [Action.frame.injEq, exists_eq_left']
  | _ => simp [isDropped, outcome, Backend.step, Backend.answered, Backend.tells, Outcome.map]

/-- An action that does not concern an item is about another one, or about none by its name. -/
theorem not_common_of_not_concerns (h : o.concerns outlet t = false) :
    o.action.isCommon = false ∧ o.action.item? ≠ some t := by
  rw [concerns, Bool.and_eq_false_iff] at h
  rcases h with hdrop | hother
  · have hdrop : o.isDropped outlet = true := by simpa using hdrop
    obtain ⟨payload, ha, hnone⟩ := isDropped_iff.mp hdrop
    rw [hnone, ha]
    exact ⟨rfl, Option.some_ne_none t |>.symm⟩
  · cases hi : o.action.item? with
    | none => simp [hi] at hother
    | some u =>
      have hu : u ≠ t := by simpa [hi] using hother
      exact ⟨Action.isCommon_of_item? hi, fun htu => hu (Option.some.inj htu)⟩

/-- An answer is about the item that the action names. -/
theorem repliesAbout_of_item?_ne (outlet : Outlet) (h : o.action.item? ≠ some t) :
    o.repliesAbout outlet t = [] := by
  unfold repliesAbout outcome
  rw [Backend.replies_step, List.filter_eq_nil_iff]
  intro p hp hpt
  rw [Option.mem_toList, Option.bind_eq_some_iff] at hp
  obtain ⟨c, hc, hp⟩ := hp
  have htag : c.item? = some p.tag := Command.tag_of_reply? hp
  rw [of_decide_eq_true hpt, ← Action.item?_of_command? hc] at htag
  exact h htag

theorem pushesAbout_of_not_common (outlet : Outlet) (t : Tag) (h : o.action.isCommon = false) :
    o.pushesAbout outlet t = [] := by
  unfold pushesAbout pushes outcome
  rw [Backend.pushes_step, Action.sweepTime?_of_not_common h]
  rfl

end Occasion

/-! ## Two backends that agree about one item -/

/-- Two backends cannot be told apart by what concerns one item. -/
structure Alike (t : Tag) (b b' : Backend) : Prop where
  terms : b.terms = b'.terms
  clock : b.clock = b'.clock
  record : b.store.get? t = b'.store.get? t

namespace Alike

variable {t : Tag} {b b' : Backend}

protected theorem refl (t : Tag) (b : Backend) : Alike t b b := ⟨rfl, rfl, rfl⟩

/-- The same action leaves them alike. -/
theorem step (h : Alike t b b') (outlet outlet' : Outlet) (a : Action) :
    Alike t (b.step outlet a).backend (b'.step outlet' a).backend := by
  refine ⟨?_, ?_, ?_⟩
  · rw [Backend.terms_step, Backend.terms_step, h.terms]
  · rw [Backend.clock_step, Backend.clock_step, h.clock]
  · rw [Backend.get?_step, Backend.get?_step, h.terms, h.clock, h.record]

/-- An action that does not concern the item, on one of them alone, leaves them alike. -/
theorem step_left {outlet : Outlet} {a : Action} (h : Alike t b b')
    (ha : Occasion.concerns outlet t ⟨b, a⟩ = false) : Alike t (b.step outlet a).backend b' := by
  obtain ⟨hcommon, hitem⟩ := Occasion.not_common_of_not_concerns ha
  refine ⟨?_, ?_, ?_⟩
  · rw [Backend.terms_step, h.terms]
  · rw [Backend.clock_step, Action.clockAfter_of_not_common hcommon, h.clock]
  · rw [Backend.get?_step, Action.eventFor_of_item?_ne hcommon hitem, ← h.record]
    rfl

/-- They give the same answers about the item. -/
theorem repliesAbout (h : Alike t b b') (outlet outlet' : Outlet) (a : Action) :
    Occasion.repliesAbout outlet t ⟨b, a⟩ = Occasion.repliesAbout outlet' t ⟨b', a⟩ := by
  by_cases hitem : a.item? = some t
  · unfold Occasion.repliesAbout Occasion.outcome
    rw [Backend.replies_step, Backend.replies_step]
    cases hc : a.command? with
    | none => rfl
    | some c =>
      have hci : c.item? = some t := Action.item?_of_command? hc ▸ hitem
      simp only [Option.bind_some, hci, h.record]
  · rw [Occasion.repliesAbout_of_item?_ne outlet hitem,
      Occasion.repliesAbout_of_item?_ne outlet' hitem]

/-- They push the same about the item. -/
theorem pushesAbout (h : Alike t b b') (outlet outlet' : Outlet) (a : Action) :
    Occasion.pushesAbout outlet t ⟨b, a⟩ = Occasion.pushesAbout outlet' t ⟨b', a⟩ := by
  unfold Occasion.pushesAbout Occasion.pushes Occasion.outcome
  rw [Backend.pushes_step, Backend.pushes_step, h.clock]
  cases a.sweepTime? b'.clock with
  | none => rfl
  | some now => simp only [Store.filter_overdue, h.record]

theorem account (h : Alike t b b') (outlet outlet' : Outlet) (a : Action) :
    Occasion.account outlet t ⟨b, a⟩ = Occasion.account outlet' t ⟨b', a⟩ := by
  unfold Occasion.account
  rw [h.repliesAbout outlet outlet' a, h.pushesAbout outlet outlet' a, h.clock]

end Alike

/-! ## A history and the part of it that concerns one item -/

namespace Backend

/-- The occasions of a history that concern an item, in its order. -/
def ownOccasions (outlet : Outlet) (b : Backend) (t : Tag) (history : List Action) :
    List Occasion :=
  (b.occasions outlet history).filter (Occasion.concerns outlet t)

/-- The part of a history that concerns an item. -/
def ownHistory (outlet : Outlet) (b : Backend) (t : Tag) (history : List Action) : List Action :=
  (b.ownOccasions outlet t history).map Occasion.action

section Own

variable {outlet : Outlet} {b : Backend} {t : Tag} {a : Action}

theorem ownOccasions_cons_of_concerns (h : Occasion.concerns outlet t ⟨b, a⟩ = true)
    (rest : List Action) :
    b.ownOccasions outlet t (a :: rest) =
      ⟨b, a⟩ :: (b.step outlet a).backend.ownOccasions outlet t rest :=
  List.filter_cons_of_pos h

theorem ownOccasions_cons_of_not_concerns (h : Occasion.concerns outlet t ⟨b, a⟩ = false)
    (rest : List Action) :
    b.ownOccasions outlet t (a :: rest) =
      (b.step outlet a).backend.ownOccasions outlet t rest :=
  List.filter_cons_of_neg (by rw [h]; exact Bool.false_ne_true)

end Own

/-- From two backends that are alike, a history and the part of it that concerns the item lead to
backends that are alike, and give the same account of the item. -/
theorem alike_after_own (outlet outlet' : Outlet) {t : Tag} {b b' : Backend} (h : Alike t b b')
    (history : List Action) :
    Alike t (b.after outlet history) (b'.after outlet' (b.ownHistory outlet t history)) ∧
      (b.ownOccasions outlet t history).map (Occasion.account outlet t) =
        (b'.occasions outlet' (b.ownHistory outlet t history)).map
          (Occasion.account outlet' t) := by
  induction history generalizing b b' with
  | nil => exact ⟨h, rfl⟩
  | cons a rest ih =>
    unfold ownHistory at ih ⊢
    cases ha : Occasion.concerns outlet t ⟨b, a⟩ with
    | true =>
      obtain ⟨halike, haccount⟩ := ih (h.step outlet outlet' a)
      rw [ownOccasions_cons_of_concerns ha, List.map_cons, List.map_cons, occasions_cons,
        List.map_cons, after_cons, after_cons, haccount, h.account outlet outlet' a]
      exact ⟨halike, rfl⟩
    | false =>
      rw [ownOccasions_cons_of_not_concerns ha, after_cons]
      exact ih (h.step_left ha)

/-- **Items do not interfere.**  Leave out of a history that begins with an empty table every frame
that is dropped and every action that names another item than `t`.  The record of `t` is then the
same in the end; what remains gives the same account of `t`, action by action --- the same time, the
same answers, the same pushes; and what was left out had said nothing about `t`. -/
theorem accounts_eq_of_own_actions (outlet outlet' : Outlet) (terms : Terms) (clock : UInt64)
    (history : List Action) (t : Tag) :
    let b := start terms clock
    let own := b.ownHistory outlet t history
    (b.after outlet history).store.get? t = (b.after outlet' own).store.get? t ∧
      (b.ownOccasions outlet t history).map (Occasion.account outlet t) =
        (b.occasions outlet' own).map (Occasion.account outlet' t) ∧
      ∀ o ∈ b.occasions outlet history, o.concerns outlet t = false →
        o.repliesAbout outlet t = [] ∧ o.pushesAbout outlet t = [] := by
  intro b own
  obtain ⟨halike, haccount⟩ := alike_after_own outlet outlet' (Alike.refl t b) history
  refine ⟨halike.record, haccount, ?_⟩
  intro o _ ho
  obtain ⟨hcommon, hitem⟩ := Occasion.not_common_of_not_concerns ho
  exact ⟨Occasion.repliesAbout_of_item?_ne outlet hitem,
    Occasion.pushesAbout_of_not_common outlet t hcommon⟩

/-- Two items, a frame that is no message, and a sweep: of the five actions two concern the first
item, and the request about the other one says nothing about it. -/
theorem accounts_eq_of_own_actions_two_items :
    let sent : Outlet := fun _ _ => none
    let lost : Outlet := fun _ _ => some .cancelled
    let aa : Tag := ⟨[0xAA], by decide, by decide⟩
    let bb : Tag := ⟨[0xBB], by decide, by decide⟩
    let b := start .usual 1000
    let history : List Action :=
      [.start bb none, .start aa (some 1), .frame [], .sweep 1010, .finish bb]
    b.ownHistory sent aa history = [.start aa (some 1), .sweep 1010] ∧
      (b.after sent history).store.get? aa =
        (b.after lost [.start aa (some 1), .sweep 1010]).store.get? aa ∧
      (⟨b, .start bb none⟩ : Occasion) ∈ b.occasions sent history ∧
      Occasion.concerns sent aa ⟨b, .start bb none⟩ = false ∧
      Occasion.repliesAbout sent aa ⟨b, .start bb none⟩ = [] := by
  intro sent lost aa bb b history
  have hown : b.ownHistory sent aa history = [.start aa (some 1), .sweep 1010] := by decide +kernel
  obtain ⟨hrecord, -, hothers⟩ := accounts_eq_of_own_actions sent lost .usual 1000 history aa
  have hmem : (⟨b, .start bb none⟩ : Occasion) ∈ b.occasions sent history := List.mem_cons_self
  have hconcerns : Occasion.concerns sent aa ⟨b, .start bb none⟩ = false := by decide +kernel
  refine ⟨hown, ?_, hmem, hconcerns, (hothers _ hmem hconcerns).1⟩
  rw [← hown]
  exact hrecord

end Backend

end TagRental
