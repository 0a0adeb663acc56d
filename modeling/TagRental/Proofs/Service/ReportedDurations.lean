import TagRental.Config.Settings
import TagRental.Proofs.Rental.LastTold
import TagRental.Proofs.Rental.RecordInvariant

/-!
# Durations that are reported

The firmware of the gateway holds a duration in 32 bits.  A duration that a frame asks for was
checked against that when the frame was read; the other durations come from the settings, and of
those it was only asked that they are not zero.  So a backend whose default fits 32 bits never
reports anything that does not, and one whose default does not fit reports it as soon as an item is
rented without a duration and asked about (`reported_durations_fit_iff`).  Settings with such a
default are accepted (`oversized_default_reported`).

A response with times carries the duration of a record, and every other response has a duration of
zero.  What is in a record is `Terms.Allows`, whatever the clock does; that is kept by everything
that a link or the clock brings about (`DurationsAllowed.step`).  It is a part of `Record.Sound`,
but it does not need that the clock never goes back.
-/

namespace TagRental

/-! ## What is in a record -/

/-- An event leaves a duration that the terms allow, if it begins no rental with another one. -/
theorem ItemEvent.allows_apply {terms : Terms} {e : ItemEvent}
    (he : ∀ now duration, e = .start now duration → terms.Allows duration) {r? : Option Record}
    (hr : ∀ r, r? = some r → terms.Allows r.duration) {r' : Record} (h : e.apply r? = some r') :
    terms.Allows r'.duration := by
  refine forall_apply (P := fun r => terms.Allows r.duration) hr he (fun _ _ _ hr => hr) ?_ h
  intro now r _ hr
  unfold Record.swept
  split
  · exact hr
  · exact hr

namespace Backend

variable {outlet : Outlet} {b : Backend} {a : Action}

/-- Every record has a duration that the terms allow. -/
def DurationsAllowed (b : Backend) : Prop :=
  ∀ t r, b.store.get? t = some r → b.terms.Allows r.duration

theorem durationsAllowed_start (terms : Terms) (clock : UInt64) :
    (start terms clock).DurationsAllowed := by
  intro t r h
  cases h

/-- **What a link or the clock brings about** leaves every duration allowed. -/
theorem DurationsAllowed.step (h : b.DurationsAllowed) (outlet : Outlet) (ha : a.isServed = true) :
    (b.step outlet a).backend.DurationsAllowed := by
  intro t r hr
  rw [get?_step] at hr
  rw [terms_step]
  refine ItemEvent.allows_apply ?_ (h t) hr
  intro now duration he
  obtain ⟨requested, hc, -, rfl⟩ := Action.eventFor_eq_start_iff.mp he
  cases a with
  | frame payload => exact b.terms.allows_of_frame hc
  | start tag duration => cases ha
  | _ => cases hc

/-! ## What is reported -/

/-- An answer carries the duration of the record, or none. -/
theorem duration_of_reply {c : Command} {r? : Option Record} {p : Response}
    (h : c.reply? r? = some p) : p.duration = 0 ∨ ∃ r, r? = some r ∧ p.duration = r.duration := by
  cases c with
  | rentalStart tag requested =>
    cases h
    exact Or.inl rfl
  | rentalEnd tag =>
    cases r? with
    | none =>
      cases h
      exact Or.inl rfl
    | some r =>
      simp only [Command.reply?] at h
      split at h <;> cases h <;> exact Or.inl rfl
  | statusRequest tag =>
    cases r? with
    | none =>
      cases h
      exact Or.inl rfl
    | some r =>
      cases h
      exact Or.inr ⟨r, rfl, rfl⟩
  | _ => cases h

/-- What is offered has a duration that the terms allow, or none. -/
theorem DurationsAllowed.of_mem_offers (h : b.DurationsAllowed) (ha : a.isServed = true)
    {p : Response} (hp : p ∈ (b.step outlet a).offers.map Offer.response) :
    p.duration = 0 ∨ b.terms.Allows p.duration := by
  rcases (mem_offers_step_iff outlet ha).mp hp with ⟨c, -, hreply⟩ | ⟨now, -, hpush⟩
  · rcases duration_of_reply hreply with hzero | ⟨r, hr, hduration⟩
    · exact Or.inl hzero
    · obtain ⟨t, -, hr⟩ := Option.bind_eq_some_iff.mp hr
      rw [hduration]
      exact Or.inr (h t r hr)
  · obtain ⟨r, hr, -, hpr⟩ := (b.store.mem_overdue_iff now p).mp hpush
    have hduration : p.duration = r.duration := congrArg Response.duration hpr
    rw [hduration]
    exact Or.inr (h p.tag r hr)

/-- The response is offered in the course of a history. -/
def Reports (b : Backend) (outlet : Outlet) (history : List Action) (p : Response) : Prop :=
  ∃ x ∈ b.run outlet history, p ∈ x.offers.map Offer.response

/-- **Every duration that is reported** is none, or one that the terms allow. -/
theorem DurationsAllowed.of_reports (h : b.DurationsAllowed) {history : List Action}
    (hserved : ∀ a ∈ history, a.isServed = true) {p : Response} (hp : b.Reports outlet history p) :
    p.duration = 0 ∨ b.terms.Allows p.duration := by
  induction history generalizing b with
  | nil =>
    obtain ⟨x, hx, -⟩ := hp
    cases hx
  | cons a rest ih =>
    rw [List.forall_mem_cons] at hserved
    obtain ⟨x, hx, hp⟩ := hp
    rcases List.mem_cons.mp hx with rfl | hx
    · exact h.of_mem_offers hserved.1 hp
    · have hrest := ih (h.step outlet hserved.1) hserved.2 ⟨x, hx, hp⟩
      rwa [terms_step] at hrest

/-! ## The default is reported -/

/-- A request about one item, of the command with the given code and without a duration. -/
def requestText (code : Nat) : Bytes :=
  Utf8.encodeChars
    (Json.object [("cmd", .int code), ("tag_id", .text "aa"), ("tag_id_len", .int 1)]).chars

/-- An item is rented without a duration, and then asked about. -/
def rentAndAsk : List Action := [.frame (requestText 1), .frame (requestText 3)]

theorem isServed_of_mem_rentAndAsk : ∀ a ∈ rentAndAsk, a.isServed = true := by decide

/-- **The default duration is reported** to a gateway that rents an item without a duration and asks
about it. -/
theorem exists_reports_default (outlet : Outlet) (terms : Terms) (clock : UInt64) :
    ∃ p, (start terms clock).Reports outlet rentAndAsk p ∧ p.duration = terms.defaultDuration := by
  let aa : Tag := ⟨[0xAA], by decide, by decide⟩
  have hrent : (Action.frame (requestText 1)).command? = some (.rentalStart aa none) := by
    decide +kernel
  have hask : (Action.frame (requestText 3)).command? = some (.statusRequest aa) := by
    decide +kernel
  let rented := ((start terms clock).step outlet (.frame (requestText 1))).backend
  have hrecord : rented.store.get? aa = some ⟨.rented, clock, terms.defaultDuration, 0⟩ := by
    rw [get?_step, Action.eventFor_of_command? hrent, Command.eventFor_rentalStart]
    rfl
  have hreply : (Command.statusRequest aa).reply? (rented.store.get? aa) =
      some ⟨.rented, aa, clock, terms.defaultDuration⟩ := by
    rw [hrecord]
    rfl
  refine ⟨⟨.rented, aa, clock, terms.defaultDuration⟩,
    ⟨_, List.mem_cons_of_mem _ List.mem_cons_self, ?_⟩, rfl⟩
  exact (mem_offers_step_iff outlet rfl).mpr (Or.inl ⟨_, hask, hreply⟩)

end Backend

/-! ## Settings -/

/-- Settings without a fault are taken as they are. -/
theorem Settings.terms_of_fault?_eq_none {s : Settings} (h : s.fault? = none) :
    s.service.terms = ⟨s.rental.defaultDuration⟩ := by
  have hne : s.rental.defaultDuration ≠ 0 := by
    intro hzero
    rw [fault?, if_pos hzero] at h
    cases h
  exact congrArg Terms.mk (if_neg hne)

namespace Backend

/-- **Which durations are reported.**  Let settings be without a fault, and let frames come in,
sweeps be made and the clock be set in any order.  A duration that is reported is zero, or the
default of the settings, or one of 1 up to the largest that the firmware can hold.  All of them can
be held by the firmware, whatever happens, exactly if the default can. -/
theorem reported_durations_fit_iff {s : Settings} (hvalid : s.fault? = none) :
    (∀ outlet clock history, (∀ a ∈ history, a.isServed = true) →
      ∀ p, (start s.service.terms clock).Reports outlet history p →
        p.duration = 0 ∨ p.duration = s.rental.defaultDuration ∨
          1 ≤ p.duration ∧ p.duration ≤ Message.maxDuration) ∧
    ((∀ outlet clock history, (∀ a ∈ history, a.isServed = true) →
        ∀ p, (start s.service.terms clock).Reports outlet history p →
          p.duration ≤ Message.maxDuration) ↔
      s.rental.defaultDuration ≤ Message.maxDuration) := by
  have hreported : ∀ outlet clock history, (∀ a ∈ history, a.isServed = true) →
      ∀ p, (start s.service.terms clock).Reports outlet history p →
        p.duration = 0 ∨ p.duration = s.rental.defaultDuration ∨
          1 ≤ p.duration ∧ p.duration ≤ Message.maxDuration := by
    intro outlet clock history hserved p hp
    rw [Settings.terms_of_fault?_eq_none hvalid] at hp
    rcases (durationsAllowed_start _ clock).of_reports hserved hp with
      hzero | hdefault | ⟨hpos, hle⟩
    · exact Or.inl hzero
    · exact Or.inr (Or.inl hdefault)
    · exact Or.inr (Or.inr ⟨UInt64.le_iff_toNat_le.mpr hpos, UInt64.le_iff_toNat_le.mpr hle⟩)
  refine ⟨hreported, ?_, ?_⟩
  · intro hfits
    obtain ⟨p, hp, hduration⟩ := exists_reports_default (fun _ _ => none) s.service.terms 0
    have hle := hfits _ 0 rentAndAsk isServed_of_mem_rentAndAsk p hp
    rw [hduration, Settings.terms_of_fault?_eq_none hvalid] at hle
    exact hle
  · intro hdefault outlet clock history hserved p hp
    rcases hreported outlet clock history hserved p hp with hzero | heq | ⟨-, hle⟩
    · rw [hzero]
      decide
    · rw [heq]
      exact hdefault
    · exact hle

/-- The largest default that the firmware can hold. -/
theorem reported_durations_fit_iff_at_limit :
    let s : Settings := ⟨.usual, ⟨4294967295, 10⟩⟩
    s.fault? = none ∧ ∀ outlet clock history, (∀ a ∈ history, a.isServed = true) →
      ∀ p, (start s.service.terms clock).Reports outlet history p →
        p.duration ≤ Message.maxDuration := by
  intro s
  have hvalid : s.fault? = none := by decide
  exact ⟨hvalid, (reported_durations_fit_iff hvalid).2.mpr (by decide)⟩

/-- **One second more** is accepted, and is reported to the gateway. -/
theorem oversized_default_reported :
    let s : Settings := ⟨.usual, ⟨4294967296, 10⟩⟩
    s.fault? = none ∧ ∃ p, (start s.service.terms 1000).Reports (fun _ _ => none) rentAndAsk p ∧
      p.duration = 4294967296 ∧ Message.maxDuration < p.duration := by
  intro s
  obtain ⟨p, hp, hduration⟩ := exists_reports_default (fun _ _ => none) s.service.terms 1000
  have hterms : s.service.terms.defaultDuration = 4294967296 := by decide
  refine ⟨by decide, p, hp, hduration.trans hterms, ?_⟩
  rw [hduration, hterms]
  decide

end Backend
end TagRental
