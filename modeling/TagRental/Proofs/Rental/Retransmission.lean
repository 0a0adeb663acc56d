import TagRental.Proofs.Rental.FrameEffect

/-!
# A frame that comes again

A gateway that has not heard an answer sends its request again, and a noisy line may deliver one
frame twice.  Nothing marks the second frame as a repetition, and both a start and an end write down
the time.  So it has to be the *status* that keeps the second one from writing: a start leaves the
item out, and finds it out when it comes again; an end leaves it in, and finds it in.

That is said here of one command and the record of the item that it names.

* Carried out again, at whatever time and on whatever terms, a command leaves the table alone
  (`Dispatch.carryOut_carryOut`): by then it has nothing to do (`Command.Done`).
* It is answered in the same words (`Command.reply?_apply_eventFor`), although the first time it may
  have changed the record and the second time it has not.

A history of repetitions, with the clock moving in between, then stays where the first one has led.
-/

namespace TagRental

/-- Does the action do nothing but move the clock, in either direction? -/
def Action.movesClock : Action → Bool
  | .advance _ | .setClock _ => true
  | _ => false

/-! ## One command, carried out again -/

namespace Command

/-- The command has nothing to do, given the record of the item that it names: a start of an item
that is out, an end of one that is not, and everything that never writes. -/
def Done (r? : Option Record) : Command → Prop
  | .rentalStart _ _ => ∃ r, r? = some r ∧ r.status = .rented
  | .rentalEnd _ => ∀ r, r? = some r → ¬(r.status = .rented ∨ r.status = .expired)
  | _ => True

variable (terms : Terms) (clock : UInt64) {c : Command} {tag : Tag}

/-- A command that was carried out has nothing to do any more. -/
theorem done_apply_eventFor (h : c.item? = some tag) (r? : Option Record) :
    c.Done ((c.eventFor terms clock tag).apply r?) := by
  cases c with
  | rentalStart t requested =>
    cases h
    rw [eventFor_rentalStart, ItemEvent.apply]
    split
    · next hout =>
      obtain ⟨r, rfl, hr⟩ := (Option.any_eq_true _ _).mp hout
      exact ⟨r, rfl, of_decide_eq_true hr⟩
    · exact ⟨_, rfl, rfl⟩
  | rentalEnd t =>
    cases h
    rw [eventFor_rentalEnd, ItemEvent.apply]
    intro r hr
    obtain ⟨old, -, rfl⟩ := Option.map_eq_some_iff.mp hr
    split
    · rintro (hin | hin) <;> cases hin
    · next hin => exact hin
  | _ => trivial

/-- A command is answered in the same words when it is carried out again. -/
theorem reply?_apply_eventFor (h : c.item? = some tag) (r? : Option Record) :
    c.reply? ((c.eventFor terms clock tag).apply r?) = c.reply? r? := by
  cases c with
  | rentalStart t requested => rfl
  | rentalEnd t =>
    cases h
    rw [eventFor_rentalEnd, ItemEvent.apply]
    cases r? with
    | none => rfl
    | some r =>
      by_cases hout : r.status = .rented ∨ r.status = .expired
      · -- the first time the item was given back, and now it is in
        simp only [Option.map_some, if_pos hout, reply?, reduceCtorEq, or_self, if_false]
      · simp only [Option.map_some, if_neg hout, reply?]
  | _ => rfl

end Command

namespace Dispatch

variable (terms terms' : Terms) (now now' : UInt64) (s : Store)

/-- A command that has nothing to do leaves the table alone. -/
theorem store_carryOut_of_done {c : Command} {tag : Tag} (hitem : c.item? = some tag)
    (h : c.Done (s.get? tag)) : (carryOut terms now s c).store = s := by
  cases c with
  | rentalStart t requested =>
    cases hitem
    obtain ⟨r, hr, hout⟩ := h
    have hfilter : (s.get? tag).filter (fun r => decide (r.status = .rented)) = some r := by
      rw [hr, Option.filter_some, if_pos (decide_eq_true hout)]
    simp only [carryOut, answered, Rental.start, hfilter]
  | rentalEnd t =>
    cases hitem
    simp only [carryOut, answered, Rental.finish]
    split
    · rfl
    · next r hr => rw [if_neg (h r hr)]
  | _ => rfl

/-- **A command that is carried out again leaves the table alone**, and is answered in the same
words. -/
theorem carryOut_carryOut (c : Command) :
    let once := carryOut terms now s c
    let again := carryOut terms' now' once.store c
    again.store = once.store ∧ again.response? = once.response? := by
  intro once again
  cases hitem : c.item? with
  | none =>
    refine ⟨store_carryOut_of_item?_eq_none terms' now' once.store hitem, ?_⟩
    rw [response?_carryOut, response?_carryOut, hitem]
    rfl
  | some tag =>
    have hrecord : once.store.get? tag = (c.eventFor terms now tag).apply (s.get? tag) :=
      get?_carryOut terms now s tag c
    refine ⟨store_carryOut_of_done terms' now' once.store hitem ?_, ?_⟩
    · rw [hrecord]
      exact Command.done_apply_eventFor terms now hitem _
    · have hanswer : ∀ s : Store, c.item?.bind s.get? = s.get? tag := fun s => by rw [hitem]; rfl
      rw [response?_carryOut, response?_carryOut, hanswer, hanswer, hrecord]
      exact Command.reply?_apply_eventFor terms now hitem _

/-- The same of a frame. -/
theorem handle_handle (payload : Bytes) :
    let once := handle terms now s payload
    let again := handle terms' now' once.store payload
    again.store = once.store ∧ again.response? = once.response? := by
  intro once again
  cases hc : (Action.frame payload).command? with
  | none =>
    refine ⟨?_, ?_⟩
    · rw [store_handle, hc]
    · rw [response?_handle, response?_handle, hc]
      rfl
  | some c =>
    have honce : once.store = (carryOut terms now s c).store := by rw [store_handle, hc]
    obtain ⟨htable, hanswer⟩ := carryOut_carryOut terms terms' now now' s c
    rw [← honce] at htable hanswer
    refine ⟨?_, ?_⟩
    · rw [store_handle, hc]
      exact htable
    · rw [response?_handle, response?_handle, hc, Option.bind_some, Option.bind_some]
      exact hanswer

end Dispatch

/-! ## Any number of repetitions -/

namespace Backend

variable (outlet : Outlet) (b : Backend)

/-- An action that moves the clock does not look at the table. -/
theorem store_step_of_movesClock {a : Action} (h : a.movesClock = true) :
    (b.step outlet a).backend.store = b.store := by
  cases a with
  | advance seconds => rfl
  | setClock seconds => rfl
  | _ => cases h

variable {payload : Bytes}

/-- Where a frame has been handled before, it is handled again with the same answer and no
effect. -/
theorem step_frame_again {b b' : Backend} (outlet : Outlet)
    (h : b'.store = (b.step outlet (.frame payload)).backend.store) :
    (b'.step outlet (.frame payload)).backend.store = b'.store ∧
      (b'.step outlet (.frame payload)).offered = (b.step outlet (.frame payload)).offered := by
  have hstore : ∀ b : Backend, (b.step outlet (.frame payload)).backend.store =
      (Dispatch.handle b.terms b.clock b.store payload).store := fun b =>
    store_handleFrame outlet b payload
  have hoffered : ∀ b : Backend, (b.step outlet (.frame payload)).offered =
      (Dispatch.handle b.terms b.clock b.store payload).response?.toList := fun b =>
    offers_handleFrame outlet b payload
  obtain ⟨htable, hanswer⟩ :=
    Dispatch.handle_handle b.terms b'.terms b.clock b'.clock b.store payload
  rw [hstore] at h
  rw [← h] at htable hanswer
  rw [hstore, hoffered, hoffered, htable, hanswer]
  exact ⟨rfl, rfl⟩

/-- After a frame, repetitions of it find the table as it has left it, and leave it so. -/
theorem occasions_of_repetitions {again : List Action}
    (hagain : ∀ a ∈ again, a = .frame payload ∨ a.movesClock = true) {b' : Backend}
    (h : b'.store = (b.step outlet (.frame payload)).backend.store) :
    (b'.after outlet again).store = b'.store ∧
      ∀ o ∈ b'.occasions outlet again, o.backend.store = b'.store := by
  induction again generalizing b' with
  | nil => exact ⟨rfl, fun o ho => by cases ho⟩
  | cons a again ih =>
    rw [List.forall_mem_cons] at hagain
    have hstep : (b'.step outlet a).backend.store = b'.store := by
      rcases hagain.1 with rfl | hclock
      · exact (step_frame_again outlet h).1
      · exact store_step_of_movesClock outlet b' hclock
    obtain ⟨hafter, hoccasions⟩ := ih hagain.2 (hstep.trans h)
    rw [hstep] at hafter hoccasions
    rw [after_cons, occasions_cons, List.forall_mem_cons]
    exact ⟨hafter, rfl, hoccasions⟩

/-- **A frame that comes again is harmless.**  Handle a frame, and then the same frame any number of
times, with nothing in between but the clock, which may move in either direction.  The table is in
the end the one that the first time has left.  Either the frame is dropped every time and nothing is
offered; or one response is offered every time, and it is always the same one. -/
theorem repetitions_change_nothing (payload : Bytes) (again : List Action)
    (hagain : ∀ a ∈ again, a = .frame payload ∨ a.movesClock = true) :
    let once := b.step outlet (.frame payload)
    let all := b.occasions outlet (.frame payload :: again)
    (b.after outlet (.frame payload :: again)).store = once.backend.store ∧
      ((∀ o ∈ all, o.action = .frame payload →
          (o.outcome outlet).result = .frame .dropped ∧ (o.outcome outlet).offered = []) ∨
        ∃ p, ∀ o ∈ all, o.action = .frame payload →
          (o.outcome outlet).result ≠ .frame .dropped ∧ (o.outcome outlet).offered = [p]) := by
  intro once all
  obtain ⟨hafter, hoccasions⟩ := b.occasions_of_repetitions outlet hagain rfl
  refine ⟨hafter, ?_⟩
  by_cases hnothing : AsksNothing payload
  · refine Or.inl ?_
    rintro ⟨b', _⟩ - rfl
    refine ⟨?_, ?_⟩
    · exact congrArg Report.frame
        ((b'.result_handleFrame_eq_dropped_iff_asksNothing outlet payload).mpr hnothing)
    · exact congrArg (List.map Offer.response)
        (b'.handleFrame_of_asksNothing outlet payload hnothing).1
  · refine Or.inr ?_
    obtain ⟨message, tag, hdecode, hitem⟩ := exists_request_of_not_asksNothing hnothing
    obtain ⟨p, -, hoffers, -, -⟩ := b.handleFrame_of_request outlet hdecode hitem
    have hfirst : once.offered = [p] := congrArg (List.map Offer.response) hoffers
    refine ⟨p, ?_⟩
    rintro ⟨b', _⟩ ho rfl
    refine ⟨fun hdropped => hnothing ?_, ?_⟩
    · exact (b'.result_handleFrame_eq_dropped_iff_asksNothing outlet payload).mp
        (Report.frame.inj hdropped)
    · rcases List.mem_cons.mp ho with hhead | hlater
      · cases hhead
        exact hfirst
      · exact (step_frame_again outlet (hoccasions _ hlater)).2.trans hfirst

/-- A start that comes again after the clock has been set back, and again after the rental is over:
the record stays the one of the first start, and each time the answer is that the item is out. -/
theorem repetitions_change_nothing_back_and_forth :
    let aa : Tag := ⟨[0xAA], by decide, by decide⟩
    let request : Members :=
      [("cmd", .int 1), ("tag_id", .text "aa"), ("tag_id_len", .int 1), ("duration", .int 5)]
    let payload := Utf8.encodeChars (Json.object request).chars
    let outlet : Outlet := fun n _ => if n = 1 then some .cancelled else none
    let b := start .usual 1000
    let again : List Action := [.setClock 900, .frame payload, .advance 500, .frame payload]
    (∀ a ∈ again, a = .frame payload ∨ a.movesClock = true) ∧
      (b.after outlet (.frame payload :: again)).store.get? aa = some ⟨.rented, 1000, 5, 0⟩ ∧
      ∀ o ∈ b.occasions outlet (.frame payload :: again), o.action = .frame payload →
        (o.outcome outlet).offered = [.bare aa .rented] := by
  intro aa request payload outlet b again
  have hagain : ∀ a ∈ again, a = .frame payload ∨ a.movesClock = true := by
    intro a ha
    simp only [again, List.mem_cons, List.not_mem_nil, or_false] at ha
    rcases ha with rfl | rfl | rfl | rfl
    · exact Or.inr rfl
    · exact Or.inl rfl
    · exact Or.inr rfl
    · exact Or.inl rfl
  have hfirst : (b.step outlet (.frame payload)).backend.store.get? aa =
      some ⟨.rented, 1000, 5, 0⟩ ∧
      (b.step outlet (.frame payload)).offered = [.bare aa .rented] := by decide +kernel
  obtain ⟨hafter, hanswers⟩ := repetitions_change_nothing outlet b payload again hagain
  refine ⟨hagain, (congrArg (fun s : Store => s.get? aa) hafter).trans hfirst.1, ?_⟩
  have hhead : (⟨b, .frame payload⟩ : Occasion) ∈ b.occasions outlet (.frame payload :: again) :=
    List.mem_cons_self
  rcases hanswers with hdropped | ⟨p, hp⟩
  · have hnone := (hdropped _ hhead rfl).2.symm.trans hfirst.2
    cases hnone
  · have hone := (hp _ hhead rfl).2.symm.trans hfirst.2
    cases hone
    exact fun o ho ha => (hp o ho ha).2

end Backend
end TagRental
