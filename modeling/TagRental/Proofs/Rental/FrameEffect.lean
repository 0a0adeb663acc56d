import TagRental.Proofs.Rental.LastTold
import TagRental.Proofs.Rental.OutletIndependence

/-!
# One frame, one effect

What a frame does is decided by the command in it.  Either it asks for nothing --- it is no message,
or its command is not one of the three requests --- and then it is dropped and has no effect at all.
Or it names an item and asks for something, and then it is answered once, about that item, and
writes under no other tag.

Whether the answer is true is not obvious for a start and an end, which are answered from the record
that they find and without looking at the table again.  They agree with it all the same
(`Command.agrees_of_reply`): a start that is rejected finds the item out, and an end that is ignored
reports the status that it leaves.  Their answers carry no times.

The third part is about the tags themselves.  A table gets a tag by a start of an item without a
record and in no other way, and it never loses one: ending a rental keeps the record, and asking
does not make one.
-/

namespace TagRental

/-- A payload that asks for nothing: it is no message, or a message with a command that is no
request. -/
def AsksNothing (payload : Bytes) : Prop :=
  (∃ fault, (Message.decode payload).result = .error fault) ∨
    ∃ message, (Message.decode payload).result = .ok message ∧
      ((∃ code, message.command = .unknown code) ∨
        (∃ response, message.command = .statusResponse response) ∨ message.command = .error)

/-! ## One command -/

namespace Command

variable {c : Command} {r? : Option Record} {p : Response}

theorem item?_eq_none_iff :
    c.item? = none ↔
      (∃ code, c = .unknown code) ∨ (∃ response, c = .statusResponse response) ∨ c = .error := by
  cases c <;> simp [item?]

/-- A request is always answered. -/
theorem exists_reply_of_item? {tag : Tag} (h : c.item? = some tag) (r? : Option Record) :
    ∃ p, c.reply? r? = some p := by
  refine Option.ne_none_iff_exists'.mp fun hnone => ?_
  rw [reply?_eq_none_iff, h] at hnone
  cases hnone

/-- Only a question is answered with times. -/
theorem times_of_reply (h : c.reply? r? = some p) (hc : ∀ t, c ≠ .statusRequest t) :
    p.timestamp = 0 ∧ p.duration = 0 := by
  cases c with
  | rentalStart tag requested =>
    cases h
    exact ⟨rfl, rfl⟩
  | rentalEnd tag =>
    cases r? with
    | none =>
      cases h
      exact ⟨rfl, rfl⟩
    | some r =>
      simp only [reply?] at h
      split at h <;> cases h <;> exact ⟨rfl, rfl⟩
  | statusRequest tag => exact absurd rfl (hc tag)
  | _ => cases h

section Event

variable (terms : Terms) (clock : UInt64) {t : Tag}

/-- A command means nothing to an item that it does not name. -/
theorem eventFor_of_item?_ne (h : c.item? ≠ some t) : c.eventFor terms clock t = .apart := by
  rcases c.eventFor_cases terms clock t with ⟨_, rfl⟩ | rfl | hapart
  · exact absurd rfl h
  · exact absurd rfl h
  · exact hapart

/-- An item has a record after a command if it had one before, or the command is a start that names
it. -/
theorem isSome_apply_eventFor_iff :
    ((c.eventFor terms clock t).apply r?).isSome = true ↔
      r?.isSome = true ∨ ∃ requested, c = .rentalStart t requested := by
  rcases c.eventFor_cases terms clock t with ⟨requested, rfl⟩ | rfl | hapart
  · rw [eventFor_rentalStart, ItemEvent.apply]
    refine ⟨fun _ => Or.inr ⟨requested, rfl⟩, fun _ => ?_⟩
    split
    · next hout =>
      obtain ⟨r, rfl, -⟩ := (Option.any_eq_true _ _).mp hout
      rfl
    · rfl
  · rw [eventFor_rentalEnd, ItemEvent.apply, Option.isSome_map]
    exact ⟨Or.inl, fun h => h.resolve_right (by rintro ⟨_, h⟩; cases h)⟩
  · rw [hapart, ItemEvent.apply]
    refine ⟨Or.inl, fun h => h.resolve_right ?_⟩
    rintro ⟨requested, rfl⟩
    rw [eventFor_rentalStart] at hapart
    cases hapart

end Event

end Command

namespace Dispatch

/-- A command that names no item leaves the table alone. -/
theorem store_carryOut_of_item?_eq_none (terms : Terms) (now : UInt64) (s : Store) {c : Command}
    (h : c.item? = none) : (carryOut terms now s c).store = s := by
  cases c with
  | rentalStart tag requested => cases h
  | rentalEnd tag => cases h
  | _ => rfl

end Dispatch

/-! ## One frame -/

/-- A payload asks for nothing exactly if it names no item. -/
theorem asksNothing_iff {payload : Bytes} :
    AsksNothing payload ↔ (Action.frame payload).item? = none := by
  unfold AsksNothing
  rw [Action.item?_frame, Action.command?]
  cases (Message.decode payload).result with
  | error fault => simp [Except.toOption]
  | ok message => simp [Except.toOption, Command.item?_eq_none_iff]

/-- A payload that does not ask for nothing is a request about an item. -/
theorem exists_request_of_not_asksNothing {payload : Bytes} (h : ¬AsksNothing payload) :
    ∃ message tag, (Message.decode payload).result = .ok message ∧
      message.command.item? = some tag := by
  rw [asksNothing_iff] at h
  obtain ⟨tag, htag⟩ := Option.ne_none_iff_exists'.mp h
  rw [Action.item?_frame, Option.bind_eq_some_iff] at htag
  obtain ⟨c, hc, htag⟩ := htag
  obtain ⟨message, hdecode, rfl⟩ := Action.command?_frame_eq_some_iff.mp hc
  exact ⟨message, tag, hdecode, htag⟩

namespace Backend

variable (outlet : Outlet) (b : Backend) (payload : Bytes)

/-- What a frame offers: the answer to its command, if it is answered. -/
theorem offers_handleFrame_eq :
    (b.handleFrame outlet payload).offers =
      (Dispatch.handle b.terms b.clock b.store payload).response?.toList.map fun p =>
        ⟨p, outlet b.offered p⟩ := by
  unfold handleFrame
  dsimp only
  split
  · next h => simp [h]
  · next h => split <;> next hfate => simp [h, hfate]

theorem result_handleFrame_eq_dropped_iff_asksNothing :
    (b.handleFrame outlet payload).result = .dropped ↔ AsksNothing payload :=
  (b.result_handleFrame_eq_dropped_iff_item? outlet payload).trans asksNothing_iff.symm

/-- What a frame that asks for nothing does: nothing. -/
theorem handleFrame_of_asksNothing (h : AsksNothing payload) :
    (b.handleFrame outlet payload).offers = [] ∧ (b.handleFrame outlet payload).backend = b := by
  have hdropped := (b.result_handleFrame_eq_dropped_iff_asksNothing outlet payload).mpr h
  have hnone := (b.result_handleFrame_eq_dropped_iff outlet payload).mp hdropped
  have hstore : (Dispatch.handle b.terms b.clock b.store payload).store = b.store := by
    rw [Dispatch.store_handle]
    cases hc : (Action.frame payload).command? with
    | none => rfl
    | some c =>
      have hitem : c.item? = none :=
        (Action.item?_of_command? hc).symm.trans (asksNothing_iff.mp h)
      exact Dispatch.store_carryOut_of_item?_eq_none b.terms b.clock b.store hitem
  refine ⟨?_, ?_⟩
  · rw [offers_handleFrame_eq, hnone]
    rfl
  · rw [backend_handleFrame, hnone, hstore]
    rfl

/-- **A tag is got by a start and never lost.** -/
theorem isSome_get?_handleFrame_iff (t : Tag) :
    ((b.handleFrame outlet payload).backend.store.get? t).isSome = true ↔
      (b.store.get? t).isSome = true ∨
        ∃ message requested, (Message.decode payload).result = .ok message ∧
          message.command = .rentalStart t requested := by
  have hstart : (∃ message requested, (Message.decode payload).result = .ok message ∧
      message.command = .rentalStart t requested) ↔
      ∃ requested, (Action.frame payload).command? = some (.rentalStart t requested) := by
    simp only [Action.command?_frame_eq_some_iff]
    exact exists_comm
  rw [hstart, store_handleFrame, Dispatch.store_handle]
  cases (Action.frame payload).command? with
  | none => simp
  | some c =>
    simp only [Dispatch.get?_carryOut, Option.some.injEq]
    exact Command.isSome_apply_eventFor_iff b.terms b.clock

variable {payload} {message : Message} {tag : Tag}

/-- What a request does: it is answered, and its command is carried out. -/
theorem handleFrame_of_request (hdecode : (Message.decode payload).result = .ok message)
    (hitem : message.command.item? = some tag) :
    ∃ p, message.command.reply? (b.store.get? tag) = some p ∧
      (b.handleFrame outlet payload).offers = [⟨p, outlet b.offered p⟩] ∧
      (b.handleFrame outlet payload).result =
        (if (outlet b.offered p).isNone then .replied p.status else .sendFailed) ∧
      (b.handleFrame outlet payload).backend =
        { b with
          store := (Dispatch.carryOut b.terms b.clock b.store message.command).store
          offered := b.offered + 1 } := by
  have hc : (Action.frame payload).command? = some message.command :=
    Action.command?_frame_eq_some_iff.mpr ⟨message, hdecode, rfl⟩
  obtain ⟨p, hp⟩ := Command.exists_reply_of_item? hitem (b.store.get? tag)
  have hresponse : (Dispatch.handle b.terms b.clock b.store payload).response? = some p := by
    rw [Dispatch.response?_handle, hc, Option.bind_some, Dispatch.response?_carryOut, hitem]
    exact hp
  refine ⟨p, hp, ?_, ?_, ?_⟩
  · rw [offers_handleFrame_eq, hresponse]
    rfl
  · rw [result_handleFrame, hresponse]
  · rw [backend_handleFrame, hresponse, Dispatch.store_handle, hc]
    rfl

/-- **One frame, one effect.**  A frame is dropped exactly if it asks for nothing, and then the
backend is as it was and nothing is offered.  Any other frame is a request about an item and is
answered once.

* The answer names the item and says what its status is afterwards, where an item without a record
  counts as one that is in.  The answer to a question carries the times of the record, and any other
  no times.
* Whether the answer was sent is all that the outcome tells, and no part of the table depends on it:
  the record of every other item is as it was, and a question changes nothing.
* An item has a record afterwards exactly if it had one, or the frame is a start that names it. -/
theorem frame_has_one_effect (payload : Bytes) :
    let o := b.handleFrame outlet payload
    let before := b.store
    let after := o.backend.store
    (o.result = .dropped ↔ AsksNothing payload) ∧
      (AsksNothing payload → o.offers = [] ∧ o.backend = b) ∧
      (¬AsksNothing payload →
        ∃ message tag, (Message.decode payload).result = .ok message ∧
          message.command.item? = some tag ∧
          (∃ p, o.offers = [⟨p, outlet b.offered p⟩] ∧
            o.result = (if (outlet b.offered p).isNone then .replied p.status else .sendFailed) ∧
            p.tag = tag ∧ p.status = (after.standing tag).status ∧
            (message.command = .statusRequest tag →
              p.timestamp = (after.standing tag).rentedAt ∧
                p.duration = (after.standing tag).duration) ∧
            (message.command ≠ .statusRequest tag → p.timestamp = 0 ∧ p.duration = 0)) ∧
          o.backend = { b with store := after, offered := b.offered + 1 } ∧
          (∀ t, t ≠ tag → after.get? t = before.get? t) ∧
          (message.command = .statusRequest tag → after = before)) ∧
      ∀ t, (after.get? t).isSome = true ↔ (before.get? t).isSome = true ∨
        ∃ message requested, (Message.decode payload).result = .ok message ∧
          message.command = .rentalStart t requested := by
  intro o before after
  refine ⟨b.result_handleFrame_eq_dropped_iff_asksNothing outlet payload,
    b.handleFrame_of_asksNothing outlet payload, fun hasks => ?_,
    b.isSome_get?_handleFrame_iff outlet payload⟩
  obtain ⟨message, tag, hdecode, hitem⟩ := exists_request_of_not_asksNothing hasks
  obtain ⟨p, hp, hoffers, hresult, hbackend⟩ := b.handleFrame_of_request outlet hdecode hitem
  have hafter : after = (Dispatch.carryOut b.terms b.clock before message.command).store :=
    congrArg Backend.store hbackend
  have htag : p.tag = tag := Option.some.inj ((Command.tag_of_reply? hp).symm.trans hitem)
  have hagrees : p.Agrees (∃ t, message.command = .statusRequest t) (after.standing tag) := by
    rw [Store.standing, hafter, Dispatch.get?_carryOut, ← htag]
    rw [← htag] at hp
    exact Command.agrees_of_reply hp b.terms b.clock
  refine ⟨message, tag, hdecode, hitem,
    ⟨p, hoffers, hresult, htag, hagrees.status, ?_, ?_⟩, ?_, ?_, ?_⟩
  · intro hquestion
    exact hagrees.times ⟨tag, hquestion⟩
  · intro hother
    refine Command.times_of_reply hp fun t ht => hother ?_
    -- the only question that names the item is the one about it
    rw [ht] at hitem
    cases hitem
    exact ht
  · rw [hafter]
    exact hbackend
  · intro t ht
    rw [hafter, Dispatch.get?_carryOut, Command.eventFor_of_item?_ne]
    · rfl
    · rw [hitem]
      exact fun h => ht (Option.some.inj h).symm
  · intro hquestion
    rw [hafter, hquestion]
    rfl

/-- The end of a rental that never was is answered, and makes no record. -/
example :
    let aa : Tag := ⟨[0xAA], by decide, by decide⟩
    let request : Members := [("cmd", .int 2), ("tag_id", .text "aa"), ("tag_id_len", .int 1)]
    let o := (start .usual 1000).handleFrame (fun _ _ => none)
      (Utf8.encodeChars (Json.object request).chars)
    o.offers = [⟨.bare aa .available, none⟩] ∧ o.backend.store.get? aa = none := by
  decide +kernel

end Backend
end TagRental
