import TagRental.Proofs.Service.Course

/-!
# The order of the responses on the wire

The gateway believes the last thing that it hears about an item.  So it matters whether the
responses about an item are written in the order of the steps on the table that made them, and they
need not be: the table is free again before the send of a response asks for the writer, and in
between the other task may take a step on the table and ask first.  `returnAtDeadline` is a course
in which this happens (`push_overtaken_by_answer`): an item is marked as expired and then brought
back, and the gateway hears of it in the opposite order.

Only this can go wrong.  Each task asks in the order in which it makes, and what has asked is
written in the order of asking.  A response about an item is therefore overtaken only by one that is
made while it waits to ask, and a course is `Calm` for an item if this never happens.

## The proof for one item

It follows from the two laws of `Advance`.  While the course is calm, the responses about the item
that have not asked all belong to one task (`Lone`): if one is made, nobody else has any.  For this
task the law that it asks for what has waited longest is the law for the item (`about_happen`), and
over a whole course nothing has to be added (`about_after`).

That a response says how its item stands after the step that made it, and that a step which says
nothing about an item leaves it alone, is known of the backend, and a step on the table is one of
the backend's.
-/

namespace TagRental
namespace Service

open Outgoing

variable {c : Channel} {s : Service} {t : Tag}

/-! ## One item -/

/-- No response about an item is made while another one about it waits to ask for the writer. -/
def Calm (c : Channel) (t : Tag) (s : Service) : List Event → Prop
  | [] => True
  | e :: events =>
    (about t (s.made e) ≠ [] → about t s.allUnqueued = []) ∧ Calm c t (s.happen c e) events

instance decidableCalm (c : Channel) (t : Tag) (s : Service) :
    (events : List Event) → Decidable (s.Calm c t events)
  | [] => .isTrue trivial
  | e :: events =>
    have := decidableCalm c t (s.happen c e) events
    inferInstanceAs (Decidable (_ ∧ _))

/-- At most one task has responses about an item that have not asked for the writer. -/
def Lone (t : Tag) (s : Service) (τ : Task) : Prop := ∀ υ, υ ≠ τ → about t (s.unqueued υ) = []

theorem Lone.about_allUnqueued {τ : Task} (h : Lone t s τ) :
    about t s.allUnqueued = about t (s.unqueued τ) := by
  rw [allUnqueued, about_append]
  cases τ with
  | receiver => rw [h .monitor Task.noConfusion, List.append_nil]
  | monitor => rw [h .receiver Task.noConfusion, List.nil_append]

theorem about_unqueued_of_allUnqueued (h : about t s.allUnqueued = []) (τ : Task) :
    about t (s.unqueued τ) = [] := by
  rw [allUnqueued, about_append, List.append_eq_nil_iff] at h
  cases τ with
  | receiver => exact h.1
  | monitor => exact h.2

/-- A step of a task is one of its own. -/
theorem sentBy_made (s : Service) (τ υ : Task) :
    sentBy υ (s.made (.step τ)) = if τ = υ then s.made (.step τ) else [] :=
  sentBy_map_mk τ υ _

theorem sentBy_asks (s : Service) (τ υ : Task) :
    sentBy υ (s.asks (.step τ)) = if τ = υ then s.asks (.step τ) else [] :=
  sentBy_map_mk τ υ _

/-- **One event, seen from an item.**  If it makes nothing about the item while another response
about it waits to ask, then what asks is what has waited longest. -/
theorem about_happen {e : Event} {places places' : List Place}
    (hadvance : AdvanceAt c s e places places') (hlone : ∃ τ, Lone t s τ)
    (hcalm : about t (s.made e) ≠ [] → about t s.allUnqueued = []) :
    about t s.allUnqueued ++ about t (s.made e) =
        about t (s.asks e) ++ about t (s.happen c e).allUnqueued ∧
      ∃ τ, Lone t (s.happen c e) τ := by
  cases e with
  | step τ =>
    have hown := hadvance.unqueued τ
    rw [sentBy_made, sentBy_asks, if_pos rfl, if_pos rfl] at hown
    have hother : ∀ υ, υ ≠ τ → (s.happen c (.step τ)).unqueued υ = s.unqueued υ := by
      intro υ hυ
      have h := hadvance.unqueued υ
      rw [sentBy_made, sentBy_asks, if_neg (Ne.symm hυ), if_neg (Ne.symm hυ), List.append_nil] at h
      exact h.symm
    have hown' := congrArg (about t) hown
    rw [about_append, about_append] at hown'
    -- the task that acts is the only one, or it has to do with other items
    have hcases : Lone t s τ ∨
        about t (s.unqueued τ) = [] ∧ about t (s.made (.step τ)) = [] ∧
          ∃ υ, υ ≠ τ ∧ Lone t s υ := by
      obtain ⟨υ, hυ⟩ := hlone
      by_cases hmade : about t (s.made (.step τ)) = []
      · by_cases heq : υ = τ
        · exact Or.inl (heq ▸ hυ)
        · exact Or.inr ⟨hυ τ (Ne.symm heq), hmade, υ, heq, hυ⟩
      · exact Or.inl fun φ _ => about_unqueued_of_allUnqueued (hcalm hmade) φ
    rcases hcases with hτ | ⟨hnone, hmade, υ, hne, hυ⟩
    · have hτ' : Lone t (s.happen c (.step τ)) τ := fun φ hφ => hother φ hφ ▸ hτ φ hφ
      rw [hτ.about_allUnqueued, hτ'.about_allUnqueued]
      exact ⟨hown', τ, hτ'⟩
    · rw [hnone, hmade] at hown'
      obtain ⟨hasks, hnone'⟩ := List.append_eq_nil_iff.mp hown'.symm
      have hυ' : Lone t (s.happen c (.step τ)) υ := by
        intro φ hφ
        by_cases heq : φ = τ
        · exact heq ▸ hnone'
        · exact hother φ heq ▸ hυ φ hφ
      rw [hυ.about_allUnqueued, hυ'.about_allUnqueued, hmade, hasks, hother υ hne, List.append_nil,
        List.nil_append]
      exact ⟨rfl, υ, hυ'⟩
  | _ => exact ⟨List.append_nil _, hlone⟩

/-- **A calm course keeps the order.** -/
theorem about_after (hc : c.NeverFails) {places : List Place} {piece done : Bytes}
    (h : s.Wire places piece) (hbytes : s.writer.seen.bytes = done ++ piece)
    (hlone : ∃ τ, Lone t s τ) {events : List Event} (hcalm : s.Calm c t events) :
    about t s.allUnqueued ++ about t (s.madeIn c events) =
      about t (s.askedIn c events) ++ about t (s.after c events).allUnqueued := by
  induction events generalizing s places piece done with
  | nil => exact List.append_nil _
  | cons e events ih =>
    obtain ⟨hfirst, hrest⟩ := hcalm
    obtain ⟨places', piece', h', hadvance, hbytes'⟩ := h.happen hc hbytes e
    obtain ⟨hevent, hlone'⟩ := about_happen hadvance hlone hfirst
    have hevents := ih h' hbytes' hlone' hrest
    rw [madeIn, askedIn, collect, collect, about_append, about_append, ← List.append_assoc, hevent,
      List.append_assoc, after_cons]
    rw [madeIn, askedIn] at hevents
    rw [hevents, List.append_assoc]

/-! ## What is said is true -/

/-- What is not spoken of stays as it is. -/
theorem get?_happen_of_silent (hopen : s.writer.cancelled = false) {e : Event}
    (hsilent : about t (s.made e) = []) :
    (s.happen c e).backend.store.get? t = s.backend.store.get? t := by
  cases e with
  | step τ =>
    rw [happen, store_step c hopen, nextStore]
    split
    · rfl
    · next a haction =>
      refine Backend.get?_step_of_silent (isServed_of_action? haction) fun p hp htag => ?_
      have hmade : (⟨τ, p⟩ : Outgoing) ∈ about t (s.made (.step τ)) := by
        refine List.mem_filter.mpr ⟨?_, decide_eq_true htag⟩
        rw [made, makes, haction]
        exact List.mem_map_of_mem hp
      rw [hsilent] at hmade
      cases hmade
  | reordered σ => exact Backend.get?_reordered s.backend σ t
  | _ => rfl

/-- What is made is true. -/
theorem status_of_mem_made (hopen : s.writer.cancelled = false) {e : Event} {o : Outgoing}
    (ho : o ∈ about t (s.made e)) :
    o.response.status = ((s.happen c e).backend.store.standing t).status := by
  obtain ⟨hmade, htag⟩ := List.mem_filter.mp ho
  have htag : o.response.tag = t := of_decide_eq_true htag
  cases e with
  | step τ =>
    obtain ⟨p, hp, rfl⟩ := List.mem_map.mp hmade
    unfold makes at hp
    rw [happen, store_step c hopen, nextStore]
    split at hp
    · cases hp
    · next a haction =>
      have hagrees := Backend.agrees_of_mem_offers (isServed_of_action? haction) hp
      rw [← htag]
      exact hagrees.status
  | _ => cases hmade

theorem isOpen_happen (hopen : s.writer.cancelled = false) (e : Event) :
    (s.happen c e).writer.cancelled = false := by
  cases e with
  | step τ => exact isOpen_step c hopen τ
  | _ => exact hopen

theorem get?_after_of_silent (hopen : s.writer.cancelled = false) {events : List Event}
    (hsilent : about t (s.madeIn c events) = []) :
    (s.after c events).backend.store.get? t = s.backend.store.get? t := by
  induction events generalizing s with
  | nil => rfl
  | cons e events ih =>
    rw [madeIn, collect, about_append, List.append_eq_nil_iff] at hsilent
    rw [after_cons, ih (isOpen_happen hopen e) hsilent.2, get?_happen_of_silent hopen hsilent.1]

/-- **The last response that is made about an item says how it stands.** -/
theorem status_of_last_made (hopen : s.writer.cancelled = false) {events : List Event}
    {o : Outgoing} (hlast : (about t (s.madeIn c events)).getLast? = some o) :
    o.response.status = ((s.after c events).backend.store.standing t).status := by
  induction events generalizing s with
  | nil => cases hlast
  | cons e events ih =>
    rw [madeIn, collect, about_append, List.getLast?_append] at hlast
    rw [after_cons]
    cases hrest : (about t ((s.happen c e).madeIn c events)).getLast? with
    | some o' =>
      rw [madeIn] at hrest
      rw [hrest, Option.some_or] at hlast
      exact ih (isOpen_happen hopen e) (hrest.trans hlast)
    | none =>
      -- nothing is made about the item later
      have hquiet :=
        get?_after_of_silent (isOpen_happen hopen e) (List.getLast?_eq_none_iff.mp hrest)
      rw [madeIn] at hrest
      rw [hrest, Option.none_or] at hlast
      rw [Store.standing, hquiet]
      exact status_of_mem_made hopen (List.mem_of_getLast? hlast)

/-! ## The wire -/

/-- A request of the gateway as a line. -/
def requestLine (members : Members) : Bytes :=
  Utf8.encodeChars (Json.object members).chars ++ [delimiter]

/-- The receiver reads a line, carries it out, answers, and is ready for the next one. -/
def answering : List Event := List.replicate 4 (.step .receiver)

/-- An item is rented for five seconds, ten seconds later a sweep marks it, and while the push of
the sweep waits for its turn the item is brought back. -/
def returnAtDeadline : List Event :=
  [.step .monitor, .arrived (requestLine [("cmd", .int 1), ("tag_id", .text "aa"),
    ("tag_id_len", .int 1), ("duration", .int 5)])] ++ answering ++
  [.passed 10000, .clockSet 1010, .step .monitor,
    .arrived (requestLine [("cmd", .int 2), ("tag_id", .text "aa"), ("tag_id_len", .int 1)])] ++
  answering ++ [.step .monitor]

/-- **Responses are written in the order in which their sends ask for the writer.**  Let a channel
never fail, and let the events of a link that was opened just now stand in any order.  The wire
holds the frames of the written responses, whole, and a first part of the frame of the send that has
the writer.  Written are the responses whose sends have asked, in the order in which they asked,
except for those in the queue.  Each task has asked for its responses in the order in which its
steps on the table made them.

As to one item, consider a moment at which no response about it waits to ask, and suppose that from
then on none is made while another one waits.  Then the responses made about it are written in the
order of the steps on the table that made them, and behind all earlier ones.  Once none of them is
on its way, the last one that was made is the last one that was written, and it says how the item
stands in the table. -/
theorem written_in_order_while_calm {c : Channel} (hc : c.NeverFails) (settings : ServiceSettings)
    (kind : LinkKind) (clock : UInt64) (before later : List Event) (t : Tag) :
    let start := opened settings kind clock
    let s := start.after c before
    let s' := s.after c later
    let asked := start.askedIn c (before ++ later)
    let written := start.writtenIn c (before ++ later)
    (∃ piece, s'.writer.seen.bytes = wire written ++ piece ∧
      piece <+: wire s'.queued.head?.toList) ∧
      asked = written ++ s'.queued ∧
      (∀ τ, sentBy τ (start.madeIn c (before ++ later)) = sentBy τ asked ++ s'.unqueued τ) ∧
      (about t s.allUnqueued = [] → s.Calm c t later →
        about t (written ++ s'.queued ++ s'.allUnqueued) =
            about t (start.askedIn c before) ++ about t (s.madeIn c later) ∧
          (about t (s'.queued ++ s'.allUnqueued) = [] →
            ∀ o, (about t (s.madeIn c later)).getLast? = some o →
              (about t written).getLast? = some o ∧
                o.response.status = (s'.backend.store.standing t).status)) := by
  intro start s s' asked written
  have hopened := wire_opened settings kind clock
  have hnothing : start.writer.seen.bytes = [] ++ [] := rfl
  obtain ⟨_, _, hs, -, hbytes₁⟩ := hopened.after hc hnothing before
  obtain ⟨places, piece, hs', hadvance, hbytes⟩ := hopened.after hc hnothing (before ++ later)
  have hafter : start.after c (before ++ later) = s' := after_append before later
  rw [hafter] at hs' hadvance hbytes
  have hqueue : asked = written ++ s'.queued := by
    rw [hs'.queued_eq]
    exact hadvance.queue
  have htasks : ∀ τ, sentBy τ (start.madeIn c (before ++ later)) =
      sentBy τ asked ++ s'.unqueued τ := by
    intro τ
    have hnone : start.unqueued τ = [] := by cases τ <;> rfl
    have htask := hadvance.unqueued τ
    rwa [hnone, List.nil_append] at htask
  refine ⟨⟨piece, hbytes, hs'.piece_prefix⟩, hqueue, htasks, fun hnone hcalm => ?_⟩
  have hlone : ∃ τ, Lone t s τ := ⟨.receiver, fun τ _ => about_unqueued_of_allUnqueued hnone τ⟩
  have horder := about_after hc hs hbytes₁ hlone hcalm
  rw [hnone, List.nil_append] at horder
  have hall : about t (written ++ s'.queued ++ s'.allUnqueued) =
      about t (start.askedIn c before) ++ about t (s.madeIn c later) := by
    have hasked : asked = start.askedIn c before ++ s.askedIn c later :=
      collect_append asks before later
    rw [about_append, ← hqueue, hasked, about_append, List.append_assoc, horder]
  refine ⟨hall, fun hover o hlast => ⟨?_, status_of_last_made hs.isOpen hlast⟩⟩
  rw [List.append_assoc, about_append, hover, List.append_nil] at hall
  rw [hall, List.getLast?_append, hlast, Option.some_or]

/-- After a push was overtaken nothing about the item is on its way, and the answer to a question
about it is again the last thing that is written about it, and true. -/
theorem written_in_order_while_calm_after_overtaking :
    let aa : Tag := ⟨[0xAA], by decide, by decide⟩
    let c := Channel.bounded (some 64) none .waits false
    let start := opened .usual .connection 1000
    let s := start.after c returnAtDeadline
    let later : List Event :=
      .arrived (requestLine [("cmd", .int 3), ("tag_id", .text "aa"), ("tag_id_len", .int 1)]) ::
        answering
    let s' := s.after c later
    let o : Outgoing := ⟨.receiver, ⟨.available, aa, 1000, 5⟩⟩
    c.NeverFails ∧ about aa s.allUnqueued = [] ∧ s.Calm c aa later ∧
      about aa (s.madeIn c later) = [o] ∧
      (about aa (start.writtenIn c (returnAtDeadline ++ later))).getLast? = some o ∧
      o.response.status = (s'.backend.store.standing aa).status := by
  intro aa c start s later s' o
  have hc : c.NeverFails := Channel.neverFails_bounded (by decide) none
  have hnone : about aa s.allUnqueued = [] := by decide +kernel
  have hcalm : s.Calm c aa later := by decide +kernel
  have hmade : about aa (s.madeIn c later) = [o] := by decide +kernel
  have hover : about aa (s'.queued ++ s'.allUnqueued) = [] := by decide +kernel
  obtain ⟨-, -, -, hitem⟩ :=
    written_in_order_while_calm hc .usual .connection 1000 returnAtDeadline later aa
  obtain ⟨-, hlast⟩ := hitem hnone hcalm
  obtain ⟨hwritten, hstatus⟩ := hlast hover o (congrArg List.getLast? hmade)
  exact ⟨hc, hnone, hcalm, hmade, hwritten, hstatus⟩

/-- **A push can be overtaken.**  The sweep marks the item before it is brought back, but its push
is written after the answer to the return.  Nothing is on its way any more, and the last thing that
the gateway has heard about the item is that it has expired, while in the table it is available. -/
theorem push_overtaken_by_answer :
    let aa : Tag := ⟨[0xAA], by decide, by decide⟩
    let c := Channel.bounded (some 64) none .waits false
    let start := opened .usual .connection 1000
    let s := start.after c returnAtDeadline
    let rented : Outgoing := ⟨.receiver, .bare aa .rented⟩
    let expired : Outgoing := ⟨.monitor, ⟨.expired, aa, 1000, 5⟩⟩
    let available : Outgoing := ⟨.receiver, .bare aa .available⟩
    c.NeverFails ∧ about aa (start.madeIn c returnAtDeadline) = [rented, expired, available] ∧
      about aa (start.writtenIn c returnAtDeadline) = [rented, available, expired] ∧
      s.queued = [] ∧ s.allUnqueued = [] ∧
      expired.response.status ≠ (s.backend.store.standing aa).status := by
  intro aa c start s rented expired available
  have hc : c.NeverFails := Channel.neverFails_bounded (by decide) none
  have hmade : about aa (start.madeIn c returnAtDeadline) = [rented, expired, available] := by
    decide +kernel
  have hwritten : about aa (start.writtenIn c returnAtDeadline) = [rented, available, expired] := by
    decide +kernel
  exact ⟨hc, hmade, hwritten, by decide +kernel, by decide +kernel, by decide +kernel⟩

end Service

end TagRental
