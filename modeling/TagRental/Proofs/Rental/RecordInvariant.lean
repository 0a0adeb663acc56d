import TagRental.Proofs.Gateway.MessageReading
import TagRental.Proofs.Rental.Occasions

/-!
# What the records of a backend look like

A record has four fields, and most of what could be written into them never is.  While a backend is
used as it is meant to be --- frames come in, its clock ticks and never goes back, and the operator
types --- every record in its table is `Record.Sound`: it was rented at a time that has been, for a
duration that can be meant, it has a time of return exactly if it is back, and it is only called
expired when its time is over.

Soundness speaks of the clock, and it survives the clock moving on (`Record.Sound.mono`), since
every time in a record is only ever compared with the clock from below.  So it is enough to look at
one event at the time at which it happens (`sound_apply`).  Two things are needed of the outside
world.  A duration that is asked for comes out of a frame, where it was checked; and a sweep is one
at the time of the clock.  Both are what makes an action `Occasion.Usual`, and a request without a
frame or a sweep at another time would break the invariant.
-/

namespace TagRental

/-- The terms are those where none are configured, or have a configured duration. -/
def Terms.Configured (terms : Terms) : Prop :=
  terms = .usual ∨ ∃ seconds, terms = .withDefault seconds

/-- No rental is for less than a second. -/
theorem Terms.Configured.defaultDuration_pos {terms : Terms} (h : terms.Configured) :
    1 ≤ terms.defaultDuration.toNat := by
  rcases h with rfl | ⟨seconds, rfl⟩
  · decide
  · unfold withDefault
    split
    · decide
    · next hne =>
      have hne : seconds.toNat ≠ 0 := fun h0 => hne (UInt64.toNat_inj.mp h0)
      dsimp only
      omega

/-- A duration that a rental can have: the one of the terms, or one that a frame can ask for. -/
def Terms.Allows (terms : Terms) (duration : UInt64) : Prop :=
  duration = terms.defaultDuration ∨ 1 ≤ duration.toNat ∧ duration.toNat ≤ 4294967295

theorem Terms.Allows.pos {terms : Terms} (hterms : terms.Configured) {duration : UInt64}
    (h : terms.Allows duration) : 1 ≤ duration.toNat := by
  rcases h with rfl | ⟨hpos, -⟩
  · exact hterms.defaultDuration_pos
  · exact hpos

/-- A rental that a frame asks for has a duration that a rental can have. -/
theorem Terms.allows_of_frame (terms : Terms) {payload : Bytes} {t : Tag}
    {requested : Option UInt64}
    (hc : (Action.frame payload).command? = some (.rentalStart t requested)) :
    terms.Allows (requested.getD terms.defaultDuration) := by
  cases requested with
  | none => exact Or.inl rfl
  | some d =>
    obtain ⟨message, hm, hcommand⟩ := Action.command?_frame_eq_some_iff.mp hc
    obtain ⟨hpos, hle⟩ := Message.duration_of_decode hm hcommand
    rw [UInt64.lt_iff_toNat_lt] at hpos
    rw [UInt64.le_iff_toNat_le] at hle
    exact Or.inr ⟨hpos, hle⟩

/-- What is true of every record at the time that the clock shows. -/
structure Record.Sound (terms : Terms) (clock : UInt64) (r : Record) : Prop where
  status : r.status = .available ∨ r.status = .rented ∨ r.status = .expired
  allowed : terms.Allows r.duration
  duration_pos : 1 ≤ r.duration.toNat
  rentedAt_le : r.rentedAt ≤ clock
  returnedAt_of_out : r.status = .rented ∨ r.status = .expired → r.returnedAt = 0
  overdue_of_expired : r.status = .expired → r.rentedAt.toNat + r.duration.toNat < clock.toNat
  returnedAt_of_available : r.status = .available → r.rentedAt ≤ r.returnedAt ∧ r.returnedAt ≤ clock

namespace Record

variable {terms : Terms} {clock clock' : UInt64} {r : Record}

/-- A record stays sound while time goes on. -/
theorem Sound.mono (h : r.Sound terms clock) (hle : clock ≤ clock') : r.Sound terms clock' where
  status := h.status
  allowed := h.allowed
  duration_pos := h.duration_pos
  rentedAt_le := UInt64.le_trans h.rentedAt_le hle
  returnedAt_of_out := h.returnedAt_of_out
  overdue_of_expired := fun he => by
    have hlt := h.overdue_of_expired he
    rw [UInt64.le_iff_toNat_le] at hle
    omega
  returnedAt_of_available := fun ha =>
    ⟨(h.returnedAt_of_available ha).1, UInt64.le_trans (h.returnedAt_of_available ha).2 hle⟩

/-- A rental that starts now is sound. -/
theorem sound_started (hterms : terms.Configured) {duration : UInt64}
    (h : terms.Allows duration) : Sound terms clock ⟨.rented, clock, duration, 0⟩ where
  status := Or.inr (Or.inl rfl)
  allowed := h
  duration_pos := h.pos hterms
  rentedAt_le := UInt64.le_refl clock
  returnedAt_of_out := fun _ => rfl
  overdue_of_expired := Status.noConfusion
  returnedAt_of_available := Status.noConfusion

/-- Giving an item back now leaves its record sound. -/
theorem Sound.finished (h : r.Sound terms clock) :
    Sound terms clock { r with status := .available, returnedAt := clock } where
  status := Or.inl rfl
  allowed := h.allowed
  duration_pos := h.duration_pos
  rentedAt_le := h.rentedAt_le
  returnedAt_of_out := fun hout => by rcases hout with hout | hout <;> cases hout
  overdue_of_expired := Status.noConfusion
  returnedAt_of_available := fun _ => ⟨h.rentedAt_le, UInt64.le_refl clock⟩

/-- A sweep at the time of the clock leaves a record sound. -/
theorem Sound.swept (h : r.Sound terms clock) : (r.swept clock).Sound terms clock := by
  unfold Record.swept
  split
  · next ho =>
    obtain ⟨hrented, hlt⟩ := (r.isOverdue_iff clock).mp ho
    exact {
      status := Or.inr (Or.inr rfl)
      allowed := h.allowed
      duration_pos := h.duration_pos
      rentedAt_le := h.rentedAt_le
      returnedAt_of_out := fun _ => h.returnedAt_of_out (Or.inl hrented)
      overdue_of_expired := fun _ => hlt
      returnedAt_of_available := Status.noConfusion }
  · exact h

end Record

/-! ## One event -/

/-- The event happens at the time of the clock, and a start is for a duration that a rental can
have. -/
def ItemEvent.Timely (terms : Terms) (clock : UInt64) : ItemEvent → Prop
  | .start now duration => now = clock ∧ terms.Allows duration
  | .finish now | .sweep now => now = clock
  | .clear | .apart => True

/-- What is true of the record of an item is true after an event, if a start, an end and a sweep see
to it. -/
theorem ItemEvent.forall_apply {P : Record → Prop} {e : ItemEvent} {r? : Option Record}
    (hr : ∀ r, r? = some r → P r)
    (hstart : ∀ now duration, e = .start now duration → P ⟨.rented, now, duration, 0⟩)
    (hfinish : ∀ now r, e = .finish now → P r →
      P { r with status := .available, returnedAt := now })
    (hsweep : ∀ now r, e = .sweep now → P r → P (r.swept now)) {r' : Record}
    (h : e.apply r? = some r') : P r' := by
  cases e with
  | start now duration =>
    rw [apply] at h
    split at h
    · exact hr r' h
    · cases h
      exact hstart now duration rfl
  | finish now =>
    obtain ⟨r, hr?, rfl⟩ := Option.map_eq_some_iff.mp h
    split
    · exact hfinish now r rfl (hr r hr?)
    · exact hr r hr?
  | sweep now =>
    obtain ⟨r, hr?, rfl⟩ := Option.map_eq_some_iff.mp h
    exact hsweep now r rfl (hr r hr?)
  | clear => cases h
  | apart => exact hr r' h

/-- **One event** leaves the record of an item sound, if it leaves one. -/
theorem ItemEvent.sound_apply {terms : Terms} (hterms : terms.Configured) {clock : UInt64}
    {e : ItemEvent} (he : e.Timely terms clock) {r? : Option Record}
    (hr : ∀ r, r? = some r → r.Sound terms clock) {r' : Record} (h : e.apply r? = some r') :
    r'.Sound terms clock := by
  refine forall_apply hr ?_ ?_ ?_ h
  · rintro now duration rfl
    obtain ⟨rfl, hallowed⟩ := he
    exact Record.sound_started hterms hallowed
  · rintro now r rfl hsound
    obtain rfl : now = clock := he
    exact hsound.finished
  · rintro now r rfl hsound
    obtain rfl : now = clock := he
    exact hsound.swept

/-! ## One action -/

/-- The backend is used as it is meant to be: a frame comes in, the clock ticks, it moves on or is
set and does not go back, or the operator types a line. -/
def Occasion.Usual (o : Occasion) : Prop :=
  match o.action with
  | .frame _ | .tick | .console _ => True
  | .advance _ | .setClock _ => o.backend.clock ≤ o.action.clockAfter o.backend.clock
  | _ => False

namespace Occasion

variable {o : Occasion}

theorem Usual.clock_le (h : o.Usual) : o.backend.clock ≤ o.action.clockAfter o.backend.clock := by
  obtain ⟨b, a⟩ := o
  cases a with
  | advance seconds => exact h
  | setClock seconds => exact h
  | _ => exact UInt64.le_refl _

/-- A usual start is for a duration that a rental can have. -/
theorem Usual.allows (h : o.Usual) {t : Tag} {requested : Option UInt64}
    (hc : o.action.command? = some (.rentalStart t requested)) :
    o.backend.terms.Allows (requested.getD o.backend.terms.defaultDuration) := by
  obtain ⟨b, a⟩ := o
  cases a with
  | frame payload => exact b.terms.allows_of_frame hc
  | start tag duration => exact h.elim
  | _ => cases hc

/-- A usual action means something timely to every item. -/
theorem Usual.timely (h : o.Usual) (t : Tag) :
    (o.event t).Timely o.backend.terms o.backend.clock := by
  cases he : o.event t with
  | start now duration =>
    obtain ⟨requested, hc, hnow, rfl⟩ := Action.eventFor_eq_start_iff.mp he
    exact ⟨hnow.symm, h.allows hc⟩
  | finish now => exact (Action.eventFor_eq_finish_iff.mp he).2.symm
  | sweep now =>
    have hs : o.action.sweepTime? o.backend.clock = some now := Action.eventFor_eq_sweep_iff.mp he
    obtain ⟨b, a⟩ := o
    cases a with
    | tick => cases hs; rfl
    | sweep at' => exact h.elim
    | expire at' => exact h.elim
    | _ => cases hs
  | clear => trivial
  | apart => trivial

end Occasion

/-! ## A whole history -/

/-- Every record of the backend is sound. -/
def Backend.Sound (b : Backend) : Prop :=
  ∀ t r, b.store.get? t = some r → r.Sound b.terms b.clock

namespace Backend

theorem sound_start (terms : Terms) (clock : UInt64) : (start terms clock).Sound := by
  intro t r h
  cases h

/-- A usual action leaves every record sound. -/
theorem Sound.step {b : Backend} (h : b.Sound) (hterms : b.terms.Configured) (outlet : Outlet)
    {a : Action} (ha : Occasion.Usual ⟨b, a⟩) : (b.step outlet a).backend.Sound := by
  intro t r hr
  rw [get?_step] at hr
  rw [terms_step, clock_step]
  exact (ItemEvent.sound_apply hterms (ha.timely t) (h t) hr).mono ha.clock_le

theorem Sound.after {b : Backend} (h : b.Sound) (hterms : b.terms.Configured) (outlet : Outlet)
    {history : List Action} (husual : ∀ o ∈ b.occasions outlet history, o.Usual) :
    (b.after outlet history).Sound := by
  induction history generalizing b with
  | nil => exact h
  | cons a rest ih =>
    rw [occasions_cons, List.forall_mem_cons] at husual
    rw [after_cons]
    refine ih (h.step hterms outlet husual.1) ?_ husual.2
    rw [terms_step]
    exact hterms

@[simp] theorem terms_after (outlet : Outlet) (b : Backend) (history : List Action) :
    (b.after outlet history).terms = b.terms := by
  induction history generalizing b with
  | nil => rfl
  | cons a rest ih => rw [after_cons, ih, terms_step]

/-- **Every record is sound.**  Let a backend begin with an empty table and with the usual terms or
configured ones, and be used as it is meant to be, in any order and for any length of time.  Then
every record in its table is sound at the time of its clock, and none is a record of nothing. -/
theorem sound_of_mem_entries_after (outlet : Outlet) {terms : Terms} (hterms : terms.Configured)
    (clock : UInt64) (history : List Action)
    (husual : ∀ o ∈ (start terms clock).occasions outlet history, o.Usual) :
    let b := (start terms clock).after outlet history
    ∀ e ∈ b.store.entries, e.2.Sound terms b.clock ∧ e.2 ≠ ⟨.available, 0, 0, 0⟩ := by
  intro b e he
  have hsound : b.Sound := (sound_start terms clock).after hterms outlet husual
  have hb : b.terms = terms := terms_after outlet (start terms clock) history
  have hrecord : e.2.Sound terms b.clock := hb ▸ hsound e.1 e.2 (Store.get?_of_mem he)
  refine ⟨hrecord, fun hzero => ?_⟩
  have hpos := hrecord.duration_pos
  rw [hzero] at hpos
  exact absurd hpos (by decide)

/-- An item that is rented by a frame for five seconds and swept after ten. -/
theorem sound_of_mem_entries_after_tick :
    let aa : Tag := ⟨[0xAA], by decide, by decide⟩
    let request : Members :=
      [("cmd", .int 1), ("tag_id", .text "aa"), ("tag_id_len", .int 1), ("duration", .int 5)]
    let b := (start .usual 1000).after (fun _ _ => none)
      [.frame (Utf8.encodeChars (Json.object request).chars), .setClock 1010, .tick,
        .console "list"]
    (aa, ⟨.expired, 1000, 5, 0⟩) ∈ b.store.entries ∧
      Record.Sound .usual b.clock ⟨.expired, 1000, 5, 0⟩ := by
  intro aa request b
  have hmem : (aa, ⟨.expired, 1000, 5, 0⟩) ∈ b.store.entries := by decide +kernel
  have husual : ∀ o ∈ (start .usual 1000).occasions (fun _ _ => none)
      [.frame (Utf8.encodeChars (Json.object request).chars), .setClock 1010, .tick,
        .console "list"], o.Usual := by
    have hclock : (start .usual 1000).clock ≤ 1010 := by decide
    simpa [Occasion.Usual, Action.clockAfter] using hclock
  have hsound := sound_of_mem_entries_after (fun _ _ => none) (Or.inl rfl) 1000 _ husual _ hmem
  exact ⟨hmem, hsound.1⟩

end Backend

end TagRental
