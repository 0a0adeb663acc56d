import TagRental.Proofs.Rental.Separation
import TagRental.Proofs.Rental.TableOrder

/-!
# The gateway knows how an item stands

A gateway that remembers, for each item, the last response about it knows the status of that item,
as long as no response is lost, nobody clears the table and nobody but the gateway asks for
anything.  There are two halves to this, and both are about one action.

* What an action says about an item is how the item stands *after* it (`agrees_of_mem_offers`).
  This also has to hold of the requests that change nothing --- a second start, a second end, an end
  of an item without a record --- since they are answered like the others.
* An action that says nothing about an item leaves its record alone (`get?_step_of_silent`).  A
  sweep is the case to look at: it may only change the records that it pushes.

The last response about an item is then followed by actions that say nothing about it, and the item
still stands as it said.

Only the answer to a question and a push carry times; those times are the ones of the record, and
for an item without a record they are zero, which is what `Store.standing` says such an item has.
-/

namespace TagRental

/-- The record of an item; one without a record counts as one that is in and was never out. -/
def Record.orUnused (r? : Option Record) : Record := r?.getD ⟨.available, 0, 0, 0⟩

/-- How an item stands. -/
def Store.standing (s : Store) (t : Tag) : Record := .orUnused (s.get? t)

/-- Is the action one that a link brings about, or one of the clock?  Such are the frames and the
sweeps that tell the gateway what they found. -/
def Action.isServed : Action → Bool
  | .frame _ | .sweep _ | .tick | .advance _ | .setClock _ => true
  | _ => false

/-- Does the action answer a question or sweep?  Only then are its responses with times. -/
def Occasion.TellsTimes (o : Occasion) : Prop :=
  (∃ t, o.action.command? = some (.statusRequest t)) ∨
    ∃ now, o.action.sweepTime? o.backend.clock = some now

/-- The responses that an occasion has sent. -/
def Occasion.sent (outlet : Outlet) (o : Occasion) : List Response :=
  ((o.outcome outlet).offers.filter Offer.isSent).map Offer.response

/-- What was sent about an item in a history, with the occasion of each response. -/
def Backend.told (outlet : Outlet) (b : Backend) (t : Tag) (history : List (Traversal × Action)) :
    List (Occasion × Response) :=
  (b.occasionsIn outlet history).flatMap fun o =>
    ((o.sent outlet).filter fun p => p.tag = t).map (o, ·)

/-- A response says how an item stands, with its times or without. -/
structure Response.Agrees (p : Response) (withTimes : Prop) (r : Record) : Prop where
  status : p.status = r.status
  times : withTimes → p.timestamp = r.rentedAt ∧ p.duration = r.duration

/-! ## One action -/

namespace Backend

section Step

variable {outlet : Outlet} {b : Backend} {a : Action} {t : Tag} {p : Response}

/-- What is offered on a link is the answers and the pushes. -/
theorem offers_step_of_served (h : a.isServed = true) :
    (b.step outlet a).offers.map Offer.response =
      (b.step outlet a).replies ++ (b.step outlet a).pushes := by
  cases a with
  | frame payload => exact (List.append_nil _).symm
  | sweep now => rfl
  | tick => rfl
  | advance seconds => rfl
  | setClock seconds => rfl
  | _ => cases h

/-- A response that is offered on a link answers a command, or pushes what is overdue. -/
theorem mem_offers_step_iff (outlet : Outlet) (h : a.isServed = true) :
    p ∈ (b.step outlet a).offers.map Offer.response ↔
      (∃ c, a.command? = some c ∧ c.reply? (c.item?.bind b.store.get?) = some p) ∨
        ∃ now, a.sweepTime? b.clock = some now ∧ p ∈ b.store.overdue now := by
  rw [offers_step_of_served h, replies_step, pushes_step, List.mem_append, Option.mem_toList,
    Option.bind_eq_some_iff]
  refine or_congr_right ?_
  cases a.sweepTime? b.clock with
  | none => simp
  | some now => simp

end Step

end Backend

section Agreement

variable {p : Response} {r? : Option Record} {now : UInt64}

/-- The answer to a command says how the item stands once the command is carried out.  Its times
count if the command was a question. -/
theorem Command.agrees_of_reply {c : Command} (h : c.reply? r? = some p) (terms : Terms)
    (clock : UInt64) :
    p.Agrees (∃ t, c = .statusRequest t)
      (.orUnused ((c.eventFor terms clock p.tag).apply r?)) := by
  cases c with
  | rentalStart tag requested =>
    cases h
    refine ⟨?_, by rintro ⟨_, hc⟩; cases hc⟩
    have hevent : (Command.rentalStart tag requested).eventFor terms clock tag =
        .start clock (requested.getD terms.defaultDuration) := eventFor_rentalStart requested
    change Status.rented = (Record.orUnused
      (((Command.rentalStart tag requested).eventFor terms clock tag).apply r?)).status
    rw [hevent, ItemEvent.apply]
    split
    · next hout =>
      -- the item is out already: the start is rejected
      obtain ⟨r, rfl, hr⟩ := (Option.any_eq_true _ _).mp hout
      exact (of_decide_eq_true hr).symm
    · rfl
  | rentalEnd tag =>
    have htag : p.tag = tag := by
      have h' := Command.tag_of_reply? h
      exact (Option.some.inj h').symm
    refine ⟨?_, by rintro ⟨_, hc⟩; cases hc⟩
    rw [htag, eventFor_rentalEnd, ItemEvent.apply]
    cases r? with
    | none =>
      cases h
      rfl
    | some r =>
      simp only [reply?] at h
      simp only [Option.map_some, Record.orUnused, Option.getD_some]
      split at h
      · next hout =>
        cases h
        rw [if_pos hout]
        rfl
      · next hin =>
        cases h
        rw [if_neg hin]
        rfl
  | statusRequest tag =>
    have hevent : (Command.statusRequest tag).eventFor terms clock p.tag = .apart := rfl
    rw [hevent, ItemEvent.apply]
    cases r? with
    | none =>
      cases h
      exact ⟨rfl, fun _ => ⟨rfl, rfl⟩⟩
    | some r =>
      cases h
      exact ⟨rfl, fun _ => ⟨rfl, rfl⟩⟩
  | _ => cases h

/-- A push says how the item stands once it is marked. -/
theorem Record.agrees_of_overdue {r : Record} (h : r.isOverdue now = true) (t : Tag)
    (withTimes : Prop) : (r.push t).Agrees withTimes (r.swept now) := by
  rw [Record.swept, if_pos h]
  exact ⟨rfl, fun _ => ⟨rfl, rfl⟩⟩

end Agreement

namespace Backend

section Step

variable {outlet : Outlet} {b : Backend} {a : Action} {t : Tag} {p : Response}

/-- **What is offered is true afterwards.**  A response that a link offers says how its item stands
after the action that offers it. -/
theorem agrees_of_mem_offers (h : a.isServed = true)
    (hp : p ∈ (b.step outlet a).offers.map Offer.response) :
    p.Agrees (Occasion.TellsTimes ⟨b, a⟩) ((b.step outlet a).backend.store.standing p.tag) := by
  rw [Store.standing, get?_step]
  rcases (mem_offers_step_iff outlet h).mp hp with ⟨c, hc, hreply⟩ | ⟨now, hnow, hpush⟩
  · -- the times count exactly if the command is a question
    have htimes : Occasion.TellsTimes ⟨b, a⟩ → ∃ t, c = .statusRequest t := by
      rintro (⟨t, ht⟩ | ⟨now, hs⟩)
      · exact ⟨t, Option.some.inj (hc.symm.trans ht)⟩
      · rw [Action.command?_of_sweepTime? hs] at hc
        cases hc
    have hitem : c.item?.bind b.store.get? = b.store.get? p.tag := by
      rw [Command.tag_of_reply? hreply]
      rfl
    rw [hitem] at hreply
    have hagrees := Command.agrees_of_reply hreply b.terms b.clock
    rw [Action.eventFor_of_command? hc]
    exact ⟨hagrees.status, fun ht => hagrees.times (htimes ht)⟩
  · obtain ⟨r, hr, ho, hpr⟩ := (b.store.mem_overdue_iff now p).mp hpush
    rw [Action.eventFor_of_sweepTime? hnow, ItemEvent.apply, hr, hpr]
    exact Record.agrees_of_overdue ho p.tag _

/-- **What is not spoken of stays as it is.**  If nothing that an action on a link offers is about
an item, it leaves the record of that item alone. -/
theorem get?_step_of_silent (h : a.isServed = true)
    (hsilent : ∀ p ∈ (b.step outlet a).offers.map Offer.response, p.tag ≠ t) :
    (b.step outlet a).backend.store.get? t = b.store.get? t := by
  -- a command about the item would have been answered
  have hcommand : ∀ c, a.command? = some c → c.item? ≠ some t := by
    intro c hc hitem
    cases hreply : c.reply? (c.item?.bind b.store.get?) with
    | none =>
      rw [Command.reply?_eq_none_iff, hitem] at hreply
      cases hreply
    | some p =>
      have hp := (mem_offers_step_iff outlet h).mpr (Or.inl ⟨c, hc, hreply⟩)
      rw [Command.tag_of_reply? hreply] at hitem
      exact hsilent p hp (Option.some.inj hitem)
  rw [get?_step]
  rcases a.eventFor_cases b.terms b.clock t with
    ⟨_, hc, -⟩ | ⟨hc, -⟩ | ⟨now, hnow, he⟩ | ⟨hk, -⟩ | he
  · exact absurd rfl (hcommand _ hc)
  · exact absurd rfl (hcommand _ hc)
  · rw [he, ItemEvent.apply]
    cases hr : b.store.get? t with
    | none => rfl
    | some r =>
      -- a record that the sweep marks is one that it pushes
      have ho : ¬r.isOverdue now = true := by
        intro ho
        have hpush : r.push t ∈ b.store.overdue now :=
          (b.store.mem_overdue_iff now _).mpr ⟨r, hr, ho, rfl⟩
        have hp := (mem_offers_step_iff outlet h).mpr (Or.inr ⟨now, hnow, hpush⟩)
        exact hsilent _ hp rfl
      rw [Option.map_some, Record.swept, if_neg ho]
  · cases a with
    | clear | console _ => cases h
    | _ => cases hk
  · rw [he]
    rfl

end Step

/-! ## A whole history -/

section History

variable {outlet : Outlet} {b : Backend} {t : Tag}

/-- Nothing that an outcome offered was lost. -/
def NothingLost (x : Outcome Report) : Prop := ∀ o ∈ x.offers, o.isSent = true

theorem sent_eq_of_nothingLost {o : Occasion} (h : NothingLost (o.outcome outlet)) :
    o.sent outlet = (o.outcome outlet).offers.map Offer.response := by
  rw [Occasion.sent, List.filter_eq_self.mpr h]

theorem told_cons (σ : Traversal) (a : Action) (rest : List (Traversal × Action)) :
    b.told outlet t ((σ, a) :: rest) =
      (((⟨b.reordered σ, a⟩ : Occasion).sent outlet).filter fun p => p.tag = t).map
          (⟨b.reordered σ, a⟩, ·) ++
        ((b.reordered σ).step outlet a).backend.told outlet t rest :=
  List.flatMap_cons

/-- What was told by the first action was offered by it and is about the item. -/
theorem mem_told_head_iff {σ : Traversal} {a : Action}
    (h : NothingLost ((b.reordered σ).step outlet a)) {o : Occasion} {p : Response} :
    (o, p) ∈ (((⟨b.reordered σ, a⟩ : Occasion).sent outlet).filter fun p => p.tag = t).map
        ((⟨b.reordered σ, a⟩ : Occasion), ·) ↔
      o = ⟨b.reordered σ, a⟩ ∧ p.tag = t ∧
        p ∈ ((b.reordered σ).step outlet a).offers.map Offer.response := by
  have hsent : (⟨b.reordered σ, a⟩ : Occasion).sent outlet =
      ((b.reordered σ).step outlet a).offers.map Offer.response := sent_eq_of_nothingLost h
  rw [hsent, List.mem_map]
  constructor
  · rintro ⟨q, hq, heq⟩
    obtain ⟨hmem, htag⟩ := List.mem_filter.mp hq
    obtain ⟨rfl, rfl⟩ := Prod.mk.inj heq
    exact ⟨rfl, of_decide_eq_true htag, hmem⟩
  · rintro ⟨rfl, htag, hmem⟩
    exact ⟨p, List.mem_filter.mpr ⟨hmem, decide_eq_true htag⟩, rfl⟩

/-- A history that tells nothing about an item leaves its record alone. -/
theorem get?_afterIn_of_told_eq_nil {history : List (Traversal × Action)}
    (hserved : ∀ x ∈ history, x.2.isServed = true)
    (hsent : ∀ x ∈ b.runIn outlet history, NothingLost x)
    (htold : b.told outlet t history = []) :
    (b.afterIn outlet history).store.get? t = b.store.get? t := by
  induction history generalizing b with
  | nil => rfl
  | cons x rest ih =>
    obtain ⟨σ, a⟩ := x
    rw [runIn_cons, List.forall_mem_cons] at hsent
    rw [List.forall_mem_cons] at hserved
    rw [told_cons, List.append_eq_nil_iff] at htold
    have hsilent : ∀ p ∈ ((b.reordered σ).step outlet a).offers.map Offer.response, p.tag ≠ t := by
      intro p hp htag
      have hmem := (mem_told_head_iff hsent.1).mpr ⟨rfl, htag, hp⟩
      rw [htold.1] at hmem
      cases hmem
    rw [afterIn_cons, ih hserved.2 hsent.2 htold.2, get?_step_of_silent hserved.1 hsilent,
      get?_reordered]

/-- **The last response about an item is true.**  Let everything that happens to a backend be
frames, sweeps that tell the gateway, and the clock, and let no response be lost.  Then the last
response that was sent about an item says what its status is now, and, if it answered a question or
was a push, when and for how long it was rented; an item without a record counts as one that is in,
with times of zero. -/
theorem last_told_agrees (outlet : Outlet) (b : Backend) (history : List (Traversal × Action))
    (t : Tag) (hserved : ∀ x ∈ history, x.2.isServed = true)
    (hsent : ∀ x ∈ b.runIn outlet history, NothingLost x) (o : Occasion) (p : Response)
    (hlast : (b.told outlet t history).getLast? = some (o, p)) :
    p.status = ((b.afterIn outlet history).store.standing t).status ∧
      (o.TellsTimes →
        p.timestamp = ((b.afterIn outlet history).store.standing t).rentedAt ∧
          p.duration = ((b.afterIn outlet history).store.standing t).duration) := by
  induction history generalizing b with
  | nil => cases hlast
  | cons x rest ih =>
    obtain ⟨σ, a⟩ := x
    rw [runIn_cons, List.forall_mem_cons] at hsent
    rw [List.forall_mem_cons] at hserved
    rw [told_cons, List.getLast?_append] at hlast
    rw [afterIn_cons]
    cases hrest : (((b.reordered σ).step outlet a).backend.told outlet t rest).getLast? with
    | some y =>
      -- more was told later
      rw [hrest, Option.some_or] at hlast
      exact ih _ hserved.2 hsent.2 (hrest.trans hlast)
    | none =>
      -- the first action was the last to tell anything about the item
      rw [hrest, Option.none_or] at hlast
      obtain ⟨rfl, rfl, hp⟩ := (mem_told_head_iff hsent.1).mp (List.mem_of_getLast? hlast)
      have hquiet :=
        get?_afterIn_of_told_eq_nil hserved.2 hsent.2 (List.getLast?_eq_none_iff.mp hrest)
      rw [Store.standing, hquiet]
      have hagrees := agrees_of_mem_offers hserved.1 hp
      exact ⟨hagrees.status, hagrees.times⟩

end History

/-- An item that is rented by a frame for five seconds and found overdue after ten: the last that is
sent about it is the push. -/
theorem last_told_agrees_after_push :
    let aa : Tag := ⟨[0xAA], by decide, by decide⟩
    let request : Members :=
      [("cmd", .int 1), ("tag_id", .text "aa"), ("tag_id_len", .int 1), ("duration", .int 5)]
    let outlet : Outlet := fun _ _ => none
    let b := start .usual 1000
    let history : List (Traversal × Action) :=
      [.frame (Utf8.encodeChars (Json.object request).chars), .setClock 1010, .tick].map
        (.asTheyStand, ·)
    (∀ x ∈ history, x.2.isServed = true) ∧ (∀ x ∈ b.runIn outlet history, NothingLost x) ∧
      ∃ o p, (b.told outlet aa history).getLast? = some (o, p) ∧ o.TellsTimes ∧
        p = ⟨.expired, aa, 1000, 5⟩ ∧
        p.status = ((b.afterIn outlet history).store.standing aa).status ∧
        p.timestamp = ((b.afterIn outlet history).store.standing aa).rentedAt := by
  intro aa request outlet b history
  have hserved : ∀ x ∈ history, x.2.isServed = true := by
    intro x hx
    simp only [history, List.map_cons, List.map_nil, List.mem_cons, List.not_mem_nil,
      or_false] at hx
    rcases hx with rfl | rfl | rfl <;> rfl
  have hsent : ∀ x ∈ b.runIn outlet history, NothingLost x := by
    unfold NothingLost
    decide +kernel
  let o : Occasion :=
    ⟨(b.afterIn outlet (history.take 2)).reordered .asTheyStand, .tick⟩
  have hpush : (o.sent outlet).filter (fun p => p.tag = aa) = [⟨.expired, aa, 1000, 5⟩] := by
    decide +kernel
  have hlast : (b.told outlet aa history).getLast? = some (o, ⟨.expired, aa, 1000, 5⟩) := by
    have htold : b.told outlet aa history = b.told outlet aa (history.take 2) ++
        ((o.sent outlet).filter fun p => p.tag = aa).map (o, ·) := by
      simp only [history, List.map_cons, List.map_nil, List.take, told_cons, List.append_assoc]
      rfl
    rw [htold, hpush, List.getLast?_append]
    rfl
  have htimes : o.TellsTimes := Or.inr ⟨_, rfl⟩
  obtain ⟨hstatus, hagree⟩ := last_told_agrees outlet b history aa hserved hsent o _ hlast
  exact ⟨hserved, hsent, o, _, hlast, htimes, rfl, hstatus, (hagree htimes).1⟩

end Backend
end TagRental
