import TagRental.Proofs.Link.Division
import TagRental.Proofs.Link.Polling
import TagRental.Proofs.Link.Writing

/-!
# Frames stay whole

Any number of sends share one writer, they are polled in any order and any number of times, and the
channel takes their frames in whatever pieces it likes.  What it has taken is nevertheless a
sequence of whole frames, each of another send, and behind them at most the first part of one more.

`turns` lists the sends in the order in which they first had a turn, which is the order in which
they got hold of the writer.  The list is kept beside the history (`Ledger`), and the history does
not look at it.

The invariant has two layers.

* That the bytes divide into frames in the order of the turns, and that every send that has
  succeeded is among those whose frames are whole, is true for ever, also of a link that is
  cancelled.
* While the link is not cancelled, the division also fits the queue (`Live`).

The second layer is lost with the cancellation, for a send that gives up leaves the queue and its
half-written frame stays behind.  It is not needed any more either: from then on no poll writes
(`foldl_of_cancelled`), so nothing is ever put behind that piece.
-/

namespace TagRental
namespace SharedWriter

/-! ## The turns -/

/-- A history, and the sends that have had a turn so far, in the order of their first turns. -/
structure Ledger where
  history : History
  turns : List Nat

/-- Does an event of a history give a turn to the send that it polls? -/
def History.givesTurn (frames : Nat → Bytes) (h : History) (id : Nat) : Bool :=
  !(h.ended.any fun e => e.1 == id) && h.writer.hasTurn id (frames id)

/-- One event, and the turn that it gives. -/
def Ledger.step (c : Channel) (frames : Nat → Bytes) (l : Ledger) (e : Event) : Ledger where
  history := l.history.step c frames e
  turns := match e with
    | .cancel => l.turns
    | .poll id => if l.history.givesTurn frames id then noteTurn l.turns id else l.turns

/-- The ledger of a schedule, from a fresh writer. -/
def ledger (c : Channel) (frames : Nat → Bytes) (events : List Event) : Ledger :=
  events.foldl (Ledger.step c frames) ⟨⟨fresh, []⟩, []⟩

/-- The sends of a schedule that got hold of the writer, in the order in which they did. -/
def turns (c : Channel) (frames : Nat → Bytes) (events : List Event) : List Nat :=
  (ledger c frames events).turns

theorem history_foldl (c : Channel) (frames : Nat → Bytes) (l : Ledger) (events : List Event) :
    (events.foldl (Ledger.step c frames) l).history =
      events.foldl (History.step c frames) l.history := by
  induction events generalizing l with
  | nil => rfl
  | cons e events ih => exact ih (l.step c frames e)

/-- The history of a ledger is the one of the schedule. -/
theorem history_ledger (c : Channel) (frames : Nat → Bytes) (events : List Event) :
    (ledger c frames events).history = runSchedule c frames events :=
  history_foldl c frames ⟨⟨fresh, []⟩, []⟩ events

/-! ## While the link is not cancelled -/

/-- While the link is not cancelled, every send that has ended was sent, the queue holds no send
twice, the division fits it, and a send whose frame is whole has ended or is in it. -/
structure Live (frames : Nat → Bytes) (d : Division) (ended : List (Nat × SendResult))
    (queue : List PendingSend) : Prop where
  ended_ok : ∀ e ∈ ended, e.2 = .ok ()
  nodup : (queue.map PendingSend.id).Nodup
  fits : d.Fits frames queue
  complete : ∀ id ∈ d.complete, (∃ r, (id, r) ∈ ended) ∨ ∃ p ∈ queue, p.id = id

namespace Live

variable {frames : Nat → Bytes} {d : Division} {turns : List Nat} {bytes : Bytes}
  {ended : List (Nat × SendResult)} {queue others : List PendingSend} {p : PendingSend}

/-- A send that is neither in the queue nor over has written nothing. -/
theorem waits_of_new (hl : Live frames d ended queue) {id : Nat} (hended : ∀ r, (id, r) ∉ ended)
    (hqueue : ∀ p ∈ queue, p.id ≠ id) : d.Waits frames ⟨id, frames id⟩ where
  rest := rfl
  not_complete := by
    intro hmem
    rcases hl.complete id hmem with ⟨r, hr⟩ | ⟨p, hp, hid⟩
    · exact hended r hr
    · exact hqueue p hp hid
  not_begun := by
    intro hbegun
    have hfits := hl.fits
    cases queue with
    | nil => cases hfits.symm.trans hbegun
    | cons p others =>
      cases hfits.1 with
      | new hnone _ _ => cases hnone.symm.trans hbegun
      | begun hsome _ =>
        exact hqueue p List.mem_cons_self (Option.some.inj (hsome.symm.trans hbegun))
      | written hnone _ _ => cases hnone.symm.trans hbegun

/-- Joining the queue keeps the invariant. -/
theorem enqueue {w : SharedWriter} (hl : Live frames d ended w.queue) {id : Nat}
    (hended : ∀ r, (id, r) ∉ ended) : Live frames d ended (w.enqueue id (frames id)).queue := by
  rcases w.enqueue_cases id (frames id) with ⟨-, heq⟩ | ⟨hnew, heq⟩
  · rw [heq]
    exact hl
  · have hwaits := hl.waits_of_new hended hnew
    rw [heq]
    refine ⟨hl.ended_ok, ?_, ?_, ?_⟩
    · rw [List.map_append, List.map_singleton, ← List.concat_eq_append]
      refine List.Nodup.concat (fun hmem => ?_) hl.nodup
      obtain ⟨p, hp, hid⟩ := List.mem_map.mp hmem
      exact hnew p hp hid
    · have hfits := hl.fits
      cases hq : w.queue with
      | nil =>
        rw [hq] at hfits
        exact ⟨hwaits.stage hfits, fun q h => by cases h⟩
      | cons p others =>
        rw [hq] at hfits
        refine ⟨hfits.1, fun q h => ?_⟩
        rcases List.mem_append.mp h with h | h
        · exact hfits.2 q h
        · exact List.mem_singleton.mp h ▸ hwaits
    · intro other hmem
      refine (hl.complete other hmem).imp_right ?_
      rintro ⟨p, hp, hid⟩
      exact ⟨p, List.mem_append_left _ hp, hid⟩

/-- Writing at the head keeps the invariant. -/
theorem write (hl : Live frames d ended (p :: others)) (hd : d.Of frames turns bytes)
    {taken rest : Bytes} (hrest : p.rest = taken ++ rest) :
    Live frames (d.write p.id taken rest) ended ({ p with rest := rest } :: others) where
  ended_ok := hl.ended_ok
  nodup := hl.nodup
  fits := by
    refine ⟨hl.fits.1.write hd hrest, fun q hq => (hl.fits.2 q hq).write ?_ taken rest⟩
    intro hid
    exact (List.nodup_cons.mp hl.nodup).1 (hid ▸ List.mem_map_of_mem hq)
  complete := by
    intro other hmem
    rcases Division.mem_complete_write.mp hmem with h | ⟨rfl, -⟩
    · refine (hl.complete other h).imp_right ?_
      rintro ⟨q, hq, hid⟩
      rcases List.mem_cons.mp hq with rfl | hq
      · exact ⟨_, List.mem_cons_self, hid⟩
      · exact ⟨q, List.mem_cons_of_mem _ hq, hid⟩
    · exact Or.inr ⟨_, List.mem_cons_self, rfl⟩

/-- The head leaves the queue once its frame is out. -/
theorem finish (hl : Live frames d ended (p :: others)) (hbegun : d.begun? = none) :
    Live frames d (ended ++ [(p.id, .ok ())]) others where
  ended_ok := by
    intro e he
    rcases List.mem_append.mp he with he | he
    · exact hl.ended_ok e he
    · rw [List.mem_singleton.mp he]
  nodup := (List.nodup_cons.mp hl.nodup).2
  fits := by
    cases others with
    | nil => exact hbegun
    | cons q others =>
      exact ⟨(hl.fits.2 q List.mem_cons_self).stage hbegun, fun x hx =>
        hl.fits.2 x (List.mem_cons_of_mem q hx)⟩
  complete := by
    intro other hmem
    rcases hl.complete other hmem with ⟨r, hr⟩ | ⟨q, hq, hid⟩
    · exact Or.inl ⟨r, List.mem_append_left _ hr⟩
    · rcases List.mem_cons.mp hq with rfl | hq
      · exact Or.inl ⟨.ok (), List.mem_append_right _ (hid ▸ List.mem_cons_self)⟩
      · exact Or.inr ⟨q, hq, hid⟩

end Live

/-! ## One event -/

/-- The invariant of a ledger. -/
structure Invariant (frames : Nat → Bytes) (l : Ledger) (d : Division) : Prop where
  division : d.Of frames l.turns l.history.writer.seen.bytes
  sent : ∀ id, (id, .ok ()) ∈ l.history.ended → id ∈ d.complete
  live : l.history.writer.cancelled = false → Live frames d l.history.ended l.history.writer.queue

section Step

variable {c : Channel} {frames : Nat → Bytes} {h : History} {l : Ledger} {d : Division} {id : Nat}

/-- Has a send ended? -/
theorem any_ended_iff :
    (h.ended.any fun e => e.1 == id) = true ↔ ∃ r, (id, r) ∈ h.ended := by
  simp

theorem not_mem_ended (hended : (h.ended.any fun e => e.1 == id) = false) (r : SendResult) :
    (id, r) ∉ h.ended := by
  intro hr
  rw [any_ended_iff.mpr ⟨r, hr⟩] at hended
  cases hended

theorem step_poll_of_ended (hended : (h.ended.any fun e => e.1 == id) = true) :
    h.step c frames (.poll id) = h := if_pos hended

theorem step_poll_of_pending (hended : (h.ended.any fun e => e.1 == id) = false)
    {w : SharedWriter} (hpoll : h.writer.poll c id (frames id) = (w, none)) :
    h.step c frames (.poll id) = { h with writer := w } := by
  simp only [History.step, hended, Bool.false_eq_true, if_false, hpoll]

theorem step_poll_of_end (hended : (h.ended.any fun e => e.1 == id) = false)
    {w : SharedWriter} {r : SendResult}
    (hpoll : h.writer.poll c id (frames id) = (w, some r)) :
    h.step c frames (.poll id) = ⟨w, h.ended ++ [(id, r)]⟩ := by
  simp only [History.step, hended, Bool.false_eq_true, if_false, hpoll]

/-- A poll of a cancelled link ends the send and leaves the channel alone. -/
theorem step_poll_of_cancelled (hended : (h.ended.any fun e => e.1 == id) = false)
    (hcancelled : h.writer.cancelled = true) :
    h.step c frames (.poll id) =
      ⟨h.writer.release id, h.ended ++ [(id, .error .cancelled)]⟩ :=
  step_poll_of_end hended (poll_of_cancelled c hcancelled)

/-- The poll of a send whose turn it is. -/
theorem Invariant.poll_of_turn (hc : c.NeverFails) (hi : Invariant frames l d)
    (hended : (l.history.ended.any fun e => e.1 == id) = false)
    (hcancelled : l.history.writer.cancelled = false)
    (hturn : l.history.writer.hasTurn id (frames id) = true) :
    ∃ d', Invariant frames
      ⟨l.history.step c frames (.poll id), noteTurn l.turns id⟩ d' := by
  obtain ⟨p, others, hqueue, rfl⟩ := (hasTurn_iff hcancelled).mp hturn
  have hlive := (hi.live hcancelled).enqueue (not_mem_ended hended)
  rw [hqueue] at hlive
  obtain ⟨taken, rest, hrest, hbytes, hend⟩ := c.send_split l.history.writer.seen p.rest
  have hdivision := hi.division.write hlive.fits.1 hrest
  have hwritten := hlive.write hi.division hrest
  rw [← hbytes] at hdivision
  have hpoll := SharedWriter.poll_of_turn c hcancelled hqueue rfl
  refine ⟨d.write p.id taken rest, ?_⟩
  cases hsend : c.send l.history.writer.seen p.rest with
  | mk seen ending =>
    rw [hsend] at hdivision hend hpoll
    cases ending with
    | failed fault =>
      have hnot := hc.send_ne_failed l.history.writer.seen p.rest fault
      rw [hsend] at hnot
      exact absurd rfl hnot
    | finished =>
      obtain rfl : rest = [] := hend
      rw [step_poll_of_end hended hpoll]
      refine ⟨hdivision, fun other hmem => ?_, fun _ => hwritten.finish Division.begun?_write⟩
      rw [Division.mem_complete_write]
      rcases List.mem_append.mp hmem with hmem | hmem
      · exact Or.inl (hi.sent other hmem)
      · exact Or.inr ⟨congrArg Prod.fst (List.mem_singleton.mp hmem), rfl⟩
    | waiting bytes =>
      obtain rfl : bytes = rest := hend
      rw [step_poll_of_pending hended hpoll]
      refine ⟨hdivision, fun other hmem => ?_, fun _ => hwritten⟩
      exact Division.mem_complete_write.mpr (Or.inl (hi.sent other hmem))

/-- **One event keeps the invariant.** -/
theorem Invariant.step (hc : c.NeverFails) (hi : Invariant frames l d) (e : Event) :
    ∃ d', Invariant frames (l.step c frames e) d' := by
  cases e with
  | cancel => exact ⟨d, hi.division, hi.sent, fun h => by cases h⟩
  | poll id =>
    cases hended : l.history.ended.any fun e => e.1 == id with
    | true =>
      -- a send that has ended is not polled
      have hturns : (l.step c frames (.poll id)).turns = l.turns := by
        simp only [Ledger.step, History.givesTurn, hended, Bool.not_true, Bool.false_and,
          Bool.false_eq_true, if_false]
      have hhistory : (l.step c frames (.poll id)).history = l.history := step_poll_of_ended hended
      refine ⟨d, ?_, ?_, ?_⟩
      · rw [hturns, hhistory]
        exact hi.division
      · rw [hhistory]
        exact hi.sent
      · rw [hhistory]
        exact hi.live
    | false =>
      have hgives : l.history.givesTurn frames id = l.history.writer.hasTurn id (frames id) := by
        rw [History.givesTurn, hended]
        rfl
      have hstep : l.step c frames (.poll id) =
          ⟨l.history.step c frames (.poll id),
            if l.history.writer.hasTurn id (frames id) then noteTurn l.turns id else l.turns⟩ := by
        rw [Ledger.step, hgives]
      rw [hstep]
      cases hturn : l.history.writer.hasTurn id (frames id) with
      | true =>
        have hcancelled : l.history.writer.cancelled = false := by
          rw [← Bool.not_eq_true]
          intro h
          rw [hasTurn_of_cancelled h] at hturn
          cases hturn
        rw [if_pos rfl]
        exact hi.poll_of_turn hc hended hcancelled hturn
      | false =>
        rw [if_neg Bool.false_ne_true]
        refine ⟨d, ?_⟩
        cases hcancelled : l.history.writer.cancelled with
        | true =>
          -- the send gives up, and what it has written stays
          rw [step_poll_of_cancelled hended hcancelled]
          refine ⟨hi.division, fun other hmem => ?_, fun h => ?_⟩
          · rcases List.mem_append.mp hmem with hmem | hmem
            · exact hi.sent other hmem
            · cases List.mem_singleton.mp hmem
          · exact absurd (hcancelled.symm.trans h) (by decide)
        | false =>
          rw [step_poll_of_pending hended (poll_of_not_turn c hcancelled hturn)]
          refine ⟨?_, hi.sent, fun _ => (hi.live hcancelled).enqueue (not_mem_ended hended)⟩
          rw [seen_enqueue]
          exact hi.division

end Step

/-! ## A whole schedule -/

section Schedule

variable {c : Channel} {frames : Nat → Bytes}

theorem Invariant.foldl (hc : c.NeverFails) {l : Ledger} {d : Division}
    (hi : Invariant frames l d) (events : List Event) :
    ∃ d', Invariant frames (events.foldl (Ledger.step c frames) l) d' := by
  induction events generalizing l d with
  | nil => exact ⟨d, hi⟩
  | cons e events ih =>
    obtain ⟨d', hi'⟩ := hi.step hc e
    exact ih hi'

theorem invariant_fresh : Invariant frames ⟨⟨fresh, []⟩, []⟩ ⟨[], none, []⟩ where
  division := ⟨rfl, List.nodup_nil, rfl, fun _ => rfl, fun _ h => by cases h⟩
  sent := fun _ h => by cases h
  live := fun _ => {
    ended_ok := fun _ h => by cases h
    nodup := List.nodup_nil
    fits := rfl
    complete := fun _ h => by cases h }

/-- Every schedule keeps the invariant. -/
theorem exists_invariant_ledger (hc : c.NeverFails) (frames : Nat → Bytes) (events : List Event) :
    ∃ d, Invariant frames (ledger c frames events) d :=
  invariant_fresh.foldl hc events

/-- What an event does to a history of a cancelled link: the channel is left alone, and a send that
is polled ends with the cancellation. -/
theorem step_of_cancelled (c : Channel) (frames : Nat → Bytes) {h : History}
    (hcancelled : h.writer.cancelled = true) (e : Event) :
    (h.step c frames e).writer.seen = h.writer.seen ∧
      (h.step c frames e).writer.cancelled = true ∧
      ((h.step c frames e).ended = h.ended ∧ (∀ id, e = .poll id → ∃ r, (id, r) ∈ h.ended) ∨
        ∃ id, e = .poll id ∧ (h.step c frames e).ended = h.ended ++ [(id, .error .cancelled)]) := by
  cases e with
  | cancel => exact ⟨rfl, rfl, Or.inl ⟨rfl, fun id h => by cases h⟩⟩
  | poll id =>
    cases hended : h.ended.any fun e => e.1 == id with
    | true =>
      rw [step_poll_of_ended hended]
      refine ⟨rfl, hcancelled, Or.inl ⟨rfl, fun other heq => ?_⟩⟩
      cases heq
      exact any_ended_iff.mp hended
    | false =>
      rw [step_poll_of_cancelled hended hcancelled]
      exact ⟨rfl, hcancelled, Or.inr ⟨id, rfl, rfl⟩⟩

/-- **Nothing is written any more** once the link is cancelled, and every send that is still polled
ends with the cancellation. -/
theorem foldl_of_cancelled (c : Channel) (frames : Nat → Bytes) {h : History}
    (hcancelled : h.writer.cancelled = true) (later : List Event) :
    let h' := later.foldl (History.step c frames) h
    h'.writer.seen = h.writer.seen ∧
      (∀ e ∈ h.ended, e ∈ h'.ended) ∧
      (∀ e ∈ h'.ended, e ∈ h.ended ∨ e.2 = .error .cancelled) ∧
      ∀ id, .poll id ∈ later → (∀ r, (id, r) ∉ h.ended) → (id, .error .cancelled) ∈ h'.ended := by
  induction later generalizing h with
  | nil => exact ⟨rfl, fun _ he => he, fun _ he => Or.inl he, fun _ hpoll => by cases hpoll⟩
  | cons e later ih =>
    obtain ⟨hseen, hstill, hended⟩ := step_of_cancelled c frames hcancelled e
    obtain ⟨hseen', hkept, hnew, hpolled⟩ := ih hstill
    rw [List.foldl_cons]
    refine ⟨hseen'.trans hseen, ?_⟩
    rcases hended with ⟨hsame, hover⟩ | ⟨id, rfl, hmore⟩
    · rw [hsame] at hkept hnew hpolled
      refine ⟨hkept, hnew, fun other hmem hnot => ?_⟩
      rcases List.mem_cons.mp hmem with rfl | hmem
      · obtain ⟨r, hr⟩ := hover other rfl
        exact absurd hr (hnot r)
      · exact hpolled other hmem hnot
    · rw [hmore] at hkept hnew hpolled
      refine ⟨fun e he => hkept e (List.mem_append_left _ he), fun e he => ?_, ?_⟩
      · rcases hnew e he with he | he
        · rcases List.mem_append.mp he with he | he
          · exact Or.inl he
          · rw [List.mem_singleton.mp he]
            exact Or.inr rfl
        · exact Or.inr he
      · intro other hmem hnot
        by_cases hid : other = id
        · rw [hid]
          exact hkept _ (List.mem_append_right _ List.mem_cons_self)
        · refine hpolled other ?_ fun r hr => ?_
          · rcases List.mem_cons.mp hmem with heq | hmem
            · cases heq
              exact absurd rfl hid
            · exact hmem
          · rcases List.mem_append.mp hr with hr | hr
            · exact hnot r hr
            · exact hid (congrArg Prod.fst (List.mem_singleton.mp hr))

/-- A send only ends with the cancellation if the link is cancelled. -/
theorem Invariant.cancelled_of_ended {l : Ledger} {d : Division} (hi : Invariant frames l d)
    {id : Nat} (hended : (id, .error .cancelled) ∈ l.history.ended) :
    l.history.writer.cancelled = true := by
  by_contra hnot
  have hok := (hi.live (Bool.not_eq_true _ ▸ hnot)).ended_ok _ hended
  cases hok

/-- **Frames stay whole under every schedule.**  Let a channel never fail, whatever pieces it takes,
and let any number of sends be polled in any order, with the link cancelled at any time or never.
What the channel has taken is the whole frames of different sends, in the order in which they got
hold of the writer, and behind them at most a proper first part of the frame of one more; every send
that has succeeded is one whose frame is whole.  And once a send has given up because the link was
cancelled, in the middle of its frame or not, nothing is ever written again, and every send that is
polled later, and was not over yet, ends in the same way. -/
theorem whole_frames_of_schedule {c : Channel} (hc : c.NeverFails) (responses : Nat → Response)
    (events : List Event) :
    let frames := fun id => (responses id).encode
    let h := runSchedule c frames events
    (∃ d : Division, d.Of frames (turns c frames events) h.writer.seen.bytes ∧
        ∀ id, (id, .ok ()) ∈ h.ended → id ∈ d.complete) ∧
      ∀ id, (id, .error .cancelled) ∈ h.ended → ∀ later,
        let h' := runSchedule c frames (events ++ later)
        h'.writer.seen.bytes = h.writer.seen.bytes ∧
          (∀ e ∈ h'.ended, e ∈ h.ended ∨ e.2 = .error .cancelled) ∧
          ∀ other, .poll other ∈ later → (∀ r, (other, r) ∉ h.ended) →
            (other, .error .cancelled) ∈ h'.ended := by
  intro frames h
  obtain ⟨d, hi⟩ := exists_invariant_ledger hc frames events
  have hledger : (ledger c frames events).history = h := history_ledger c frames events
  rw [← hledger]
  refine ⟨⟨d, hi.division, hi.sent⟩, ?_⟩
  intro id hgiven later h'
  have hcancelled : h.writer.cancelled = true := hledger ▸ hi.cancelled_of_ended hgiven
  have hlater : h' = later.foldl (History.step c frames) h := List.foldl_append
  obtain ⟨hseen, -, hnew, hpolled⟩ := foldl_of_cancelled c frames hcancelled later
  rw [hlater, hledger]
  exact ⟨congrArg Written.bytes hseen, hnew, hpolled⟩

/-- Three sends and a channel that takes eight bytes in a call and a hundred in all.  The second
send is out, the first one is stuck in its frame and gives up, and the third one, which was waiting
for it, gives up as well. -/
theorem whole_frames_of_schedule_stuck :
    let aa : Tag := ⟨[0xAA], by decide, by decide⟩
    let responses : Nat → Response := fun _ => .bare aa .rented
    let frames := fun id => (responses id).encode
    let c := Channel.bounded (some 8) (some 100) .waits false
    let events : List Event := [.poll 1, .poll 0, .poll 2, .cancel, .poll 0]
    let h := runSchedule c frames events
    let h' := runSchedule c frames (events ++ [.poll 2])
    c.NeverFails ∧ (0, .error .cancelled) ∈ h.ended ∧ (1, .ok ()) ∈ h.ended ∧
      (∃ d : Division, d.Of frames [1, 0] h.writer.seen.bytes ∧ 1 ∈ d.complete) ∧
      h'.writer.seen.bytes = h.writer.seen.bytes ∧ (2, .error .cancelled) ∈ h'.ended := by
  intro aa responses frames c events h h'
  have hc : c.NeverFails := Channel.neverFails_bounded (by decide) (some 100)
  have hgiven : (0, .error .cancelled) ∈ h.ended := by decide +kernel
  have hsent : (1, .ok ()) ∈ h.ended := by decide +kernel
  have hturns : turns c frames events = [1, 0] := by decide +kernel
  have hpending : ∀ r, (2, r) ∉ h.ended := by
    have hended : h.ended.map Prod.fst = [1, 0] := by decide +kernel
    intro r hr
    have hmem : 2 ∈ h.ended.map Prod.fst := List.mem_map.mpr ⟨(2, r), hr, rfl⟩
    rw [hended] at hmem
    exact absurd hmem (by decide)
  obtain ⟨⟨d, hd, hcomplete⟩, hlater⟩ := whole_frames_of_schedule hc responses events
  obtain ⟨hseen, -, hpolled⟩ := hlater 0 hgiven [.poll 2]
  rw [hturns] at hd
  exact ⟨hc, hgiven, hsent, ⟨d, hd, hcomplete 1 hsent⟩, hseen,
    hpolled 2 List.mem_cons_self hpending⟩

end Schedule

end SharedWriter
end TagRental
