import TagRental.Rental.History

/-!
# The life of one item

A backend keeps one table, and every action reads and writes all of it: a frame looks up a tag and
may add an entry, a sweep goes over every entry, clearing removes them all.  This file says what an
action does to *one* tag.  There are only five answers --- a start, an end, a sweep, a clearing, or
nothing --- and which one it is depends on the action, the clock and the terms, never on the table.
So the record of a tag after a history is what the events of that tag alone make of nothing.

## What is said of a step

A step has four parts, and each has one equation here:

* `get?_step` --- the record of a tag afterwards is `ItemEvent.apply` of the record before;
* `replies_step` --- the answer to a request is `Command.reply?` of the record of the tag it names;
* `pushes_step` --- what is pushed is `Store.overdue` at the time of the sweep, and of that the part
  about one tag comes from the record of that tag alone (`Store.filter_overdue`);
* `clock_step` and `terms_step` --- the clock follows the action, and the terms never change.

After this file nothing unfolds `Backend.step`.
-/

namespace TagRental

/-! ## Requests -/

/-- The item that a request names.  The other commands ask for nothing, also the one that mentions a
tag. -/
def Command.item? : Command → Option Tag
  | .rentalStart tag _ | .rentalEnd tag | .statusRequest tag => some tag
  | .statusResponse _ | .error | .unknown _ => none

namespace Action

/-- The command that an action carries out: the one that a frame holds, or that of a request made
without a frame. -/
def command? : Action → Option Command
  | .frame payload => (Message.decode payload).result.toOption.map Message.command
  | .start tag duration => some (.rentalStart tag duration)
  | .finish tag => some (.rentalEnd tag)
  | .status tag => some (.statusRequest tag)
  | _ => none

/-- The time as of which an action looks for overdue items, if it does. -/
def sweepTime? (clock : UInt64) : Action → Option UInt64
  | .sweep now | .expire now => some now
  | .tick => some clock
  | _ => none

/-- Does the action clear the table? -/
def isClear : Action → Bool
  | .clear => true
  | .console line => decide (Console.Command.parse line = .clear)
  | _ => false

/-- The clock after an action. -/
def clockAfter (clock : UInt64) : Action → UInt64
  | .advance seconds => clock + seconds
  | .setClock seconds => seconds
  | _ => clock

end Action

/-! ## Events of an item -/

/-- What an action means to one item.  `apart` is an action that has nothing to do with its
record. -/
inductive ItemEvent where
  | start (now duration : UInt64)
  | finish (now : UInt64)
  | sweep (now : UInt64)
  | clear
  | apart
  deriving Repr, DecidableEq

/-- The record of an item after an event. -/
def ItemEvent.apply (r? : Option Record) : ItemEvent → Option Record
  | .start now duration =>
    if r?.any fun r => r.status = .rented then r? else some ⟨.rented, now, duration, 0⟩
  | .finish now => r?.map fun r =>
    if r.status = .rented ∨ r.status = .expired then
      { r with status := .available, returnedAt := now }
    else r
  | .sweep now => r?.map fun r => r.swept now
  | .clear => none
  | .apart => r?

/-- What a command means to an item. -/
def Command.eventFor (terms : Terms) (clock : UInt64) (t : Tag) : Command → ItemEvent
  | .rentalStart tag requested =>
    if tag = t then .start clock (requested.getD terms.defaultDuration) else .apart
  | .rentalEnd tag => if tag = t then .finish clock else .apart
  | _ => .apart

/-- What an action means to an item. -/
def Action.eventFor (terms : Terms) (clock : UInt64) (t : Tag) (a : Action) : ItemEvent :=
  match a.command? with
  | some c => c.eventFor terms clock t
  | none =>
    match a.sweepTime? clock with
    | some now => .sweep now
    | none => if a.isClear then .clear else .apart

/-- The answer to a command, given the record of the item that it names. -/
def Command.reply? (r? : Option Record) : Command → Option Response
  | .rentalStart tag _ => some (.bare tag .rented)
  | .rentalEnd tag =>
    match r? with
    | none => some (.bare tag .available)
    | some r =>
      if r.status = .rented ∨ r.status = .expired then some (.bare tag .available)
      else some (.bare tag r.status)
  | .statusRequest tag =>
    match r? with
    | none => some (.bare tag .available)
    | some r => some ⟨r.status, tag, r.rentedAt, r.duration⟩
  | _ => none

theorem Command.tag_of_reply? {c : Command} {r? : Option Record} {p : Response}
    (h : c.reply? r? = some p) : c.item? = some p.tag := by
  cases c with
  | rentalStart tag requested => cases h; rfl
  | rentalEnd tag =>
    cases r? with
    | none => cases h; rfl
    | some r =>
      simp only [reply?] at h
      split at h <;> cases h <;> rfl
  | statusRequest tag => cases r? <;> cases h <;> rfl
  | statusResponse response => cases h
  | error => cases h
  | unknown code => cases h

theorem Action.command?_frame_eq_some_iff {payload : Bytes} {c : Command} :
    (Action.frame payload).command? = some c ↔
      ∃ message, (Message.decode payload).result = .ok message ∧ message.command = c := by
  rw [command?, Option.map_eq_some_iff]
  cases (Message.decode payload).result with
  | error fault => simp [Except.toOption]
  | ok message => simp [Except.toOption]

/-! ### Which action means what

An action carries out a command, or sweeps, or clears, or does none of these, and never two of
them. -/

theorem Action.command?_of_sweepTime? {a : Action} {clock now : UInt64}
    (h : a.sweepTime? clock = some now) : a.command? = none := by
  cases a with
  | sweep _ | tick | expire _ => rfl
  | _ => cases h

theorem Action.command?_of_isClear {a : Action} (h : a.isClear = true) : a.command? = none := by
  cases a with
  | clear | console _ => rfl
  | _ => cases h

theorem Action.sweepTime?_of_isClear {a : Action} (h : a.isClear = true) (clock : UInt64) :
    a.sweepTime? clock = none := by
  cases a with
  | clear | console _ => rfl
  | _ => cases h

section Event

variable {terms : Terms} {clock : UInt64} {t : Tag} {a : Action}

theorem Action.eventFor_of_command? {c : Command} (h : a.command? = some c) :
    a.eventFor terms clock t = c.eventFor terms clock t := by
  simp only [eventFor, h]

theorem Action.eventFor_of_sweepTime? {now : UInt64} (h : a.sweepTime? clock = some now) :
    a.eventFor terms clock t = .sweep now := by
  simp only [eventFor, command?_of_sweepTime? h, h]

theorem Action.eventFor_of_isClear (h : a.isClear = true) : a.eventFor terms clock t = .clear := by
  simp only [eventFor, command?_of_isClear h, sweepTime?_of_isClear h, h, if_true]

theorem Command.eventFor_rentalStart (requested : Option UInt64) :
    (Command.rentalStart t requested).eventFor terms clock t =
      .start clock (requested.getD terms.defaultDuration) := if_pos rfl

theorem Command.eventFor_rentalEnd :
    (Command.rentalEnd t).eventFor terms clock t = .finish clock := if_pos rfl

/-- What a command can mean to an item. -/
theorem Command.eventFor_cases (c : Command) (terms : Terms) (clock : UInt64) (t : Tag) :
    (∃ requested, c = .rentalStart t requested) ∨ c = .rentalEnd t ∨
      c.eventFor terms clock t = .apart := by
  cases c with
  | rentalStart tag requested =>
    by_cases h : tag = t
    · exact Or.inl ⟨requested, h ▸ rfl⟩
    · exact Or.inr (Or.inr (if_neg h))
  | rentalEnd tag =>
    by_cases h : tag = t
    · exact Or.inr (Or.inl (h ▸ rfl))
    · exact Or.inr (Or.inr (if_neg h))
  | _ => exact Or.inr (Or.inr rfl)

/-- **What an action can mean to an item**, and which action means it. -/
theorem Action.eventFor_cases (a : Action) (terms : Terms) (clock : UInt64) (t : Tag) :
    (∃ requested, a.command? = some (.rentalStart t requested) ∧
        a.eventFor terms clock t = .start clock (requested.getD terms.defaultDuration)) ∨
      (a.command? = some (.rentalEnd t) ∧ a.eventFor terms clock t = .finish clock) ∨
      (∃ now, a.sweepTime? clock = some now ∧ a.eventFor terms clock t = .sweep now) ∨
      (a.isClear = true ∧ a.eventFor terms clock t = .clear) ∨
      a.eventFor terms clock t = .apart := by
  cases hc : a.command? with
  | some c =>
    rw [eventFor_of_command? hc]
    rcases c.eventFor_cases terms clock t with ⟨requested, rfl⟩ | rfl | hapart
    · exact Or.inl ⟨requested, rfl, Command.eventFor_rentalStart requested⟩
    · exact Or.inr (Or.inl ⟨rfl, Command.eventFor_rentalEnd⟩)
    · exact Or.inr (Or.inr (Or.inr (Or.inr hapart)))
  | none =>
    refine Or.inr (Or.inr ?_)
    cases hs : a.sweepTime? clock with
    | some now => exact Or.inl ⟨now, rfl, eventFor_of_sweepTime? hs⟩
    | none =>
      cases hk : a.isClear with
      | true => exact Or.inr (Or.inl ⟨rfl, eventFor_of_isClear hk⟩)
      | false =>
        refine Or.inr (Or.inr ?_)
        simp only [eventFor, hc, hs, hk, Bool.false_eq_true, if_false]

/-- The item's record begins anew exactly at a request to start that names it. -/
theorem Action.eventFor_eq_start_iff {now duration : UInt64} :
    a.eventFor terms clock t = .start now duration ↔
      ∃ requested, a.command? = some (.rentalStart t requested) ∧ clock = now ∧
        requested.getD terms.defaultDuration = duration := by
  constructor
  · intro h
    rcases a.eventFor_cases terms clock t with ⟨requested, hc, he⟩ | ⟨-, he⟩ | ⟨_, -, he⟩ |
      ⟨-, he⟩ | he
    · rw [he, ItemEvent.start.injEq] at h
      exact ⟨requested, hc, h⟩
    all_goals rw [he] at h; cases h
  · rintro ⟨requested, hc, rfl, rfl⟩
    rw [eventFor_of_command? hc, Command.eventFor_rentalStart]

/-- It ends exactly at a request to end that names it. -/
theorem Action.eventFor_eq_finish_iff {now : UInt64} :
    a.eventFor terms clock t = .finish now ↔ a.command? = some (.rentalEnd t) ∧ clock = now := by
  constructor
  · intro h
    rcases a.eventFor_cases terms clock t with ⟨_, -, he⟩ | ⟨hc, he⟩ | ⟨_, -, he⟩ | ⟨-, he⟩ | he
    rotate_left
    · rw [he, ItemEvent.finish.injEq] at h
      exact ⟨hc, h⟩
    all_goals rw [he] at h; cases h
  · rintro ⟨hc, rfl⟩
    rw [eventFor_of_command? hc, Command.eventFor_rentalEnd]

/-- It is swept with all the others. -/
theorem Action.eventFor_eq_sweep_iff {now : UInt64} :
    a.eventFor terms clock t = .sweep now ↔ a.sweepTime? clock = some now := by
  refine ⟨fun h => ?_, eventFor_of_sweepTime?⟩
  rcases a.eventFor_cases terms clock t with ⟨_, -, he⟩ | ⟨-, he⟩ | ⟨at', hs, he⟩ | ⟨-, he⟩ | he
  rotate_left 2
  · rw [he, ItemEvent.sweep.injEq] at h
    exact h ▸ hs
  all_goals rw [he] at h; cases h

/-- It is cleared with all the others. -/
theorem Action.eventFor_eq_clear_iff :
    a.eventFor terms clock t = .clear ↔ a.isClear = true := by
  refine ⟨fun h => ?_, eventFor_of_isClear⟩
  rcases a.eventFor_cases terms clock t with ⟨_, -, he⟩ | ⟨-, he⟩ | ⟨_, -, he⟩ | ⟨hk, -⟩ | he
  rotate_left 3
  · exact hk
  all_goals rw [he] at h; cases h

end Event

/-! ## One command on the table -/

namespace Dispatch

variable (terms : Terms) (now : UInt64) (s : Store)

theorem get?_start (tag t : Tag) (requested : Option UInt64) :
    (Rental.start terms now s tag requested).store.get? t =
      ((Command.rentalStart tag requested).eventFor terms now t).apply (s.get? t) := by
  by_cases h : tag = t
  · subst h
    cases hg : s.get? tag with
    | none =>
      simp [Rental.start, Rental.startedRecord, Command.eventFor, ItemEvent.apply, hg,
        Store.get?_set]
    | some r =>
      by_cases hr : r.status = .rented <;>
        simp [Rental.start, Rental.startedRecord, Command.eventFor, ItemEvent.apply, hg, hr,
          Store.get?_set, Option.filter]
  · have ht : ¬ t = tag := fun e => h e.symm
    simp only [Rental.start, Command.eventFor, if_neg h, ItemEvent.apply]
    split
    · rfl
    · rw [Store.get?_set, if_neg ht]

theorem get?_finish (tag t : Tag) :
    (Rental.finish now s tag).store.get? t =
      ((Command.rentalEnd tag).eventFor terms now t).apply (s.get? t) := by
  by_cases h : tag = t
  · subst h
    cases hg : s.get? tag with
    | none => simp [Rental.finish, Command.eventFor, ItemEvent.apply, hg]
    | some r =>
      by_cases hr : r.status = .rented ∨ r.status = .expired <;>
        simp [Rental.finish, Command.eventFor, ItemEvent.apply, hg, hr, Store.get?_set]
  · have ht : ¬ t = tag := fun e => h e.symm
    simp only [Rental.finish, Command.eventFor, if_neg h, ItemEvent.apply]
    split
    · rfl
    · split
      · rw [Store.get?_set, if_neg ht]
      · rfl

/-- A command changes the record of an item as its event says. -/
theorem get?_carryOut (t : Tag) (c : Command) :
    (carryOut terms now s c).store.get? t = (c.eventFor terms now t).apply (s.get? t) := by
  cases c with
  | rentalStart tag requested => exact get?_start terms now s tag t requested
  | rentalEnd tag => exact get?_finish terms now s tag t
  | statusRequest tag => rfl
  | statusResponse response => rfl
  | error => rfl
  | unknown code => rfl

/-- A command is answered from the record of the item that it names, and from no other. -/
theorem response?_carryOut (c : Command) :
    (carryOut terms now s c).response? = c.reply? (c.item?.bind s.get?) := by
  cases c with
  | rentalStart tag requested =>
    simp only [carryOut, answered, Rental.start, Command.reply?]
    split <;> rfl
  | rentalEnd tag =>
    simp only [carryOut, answered, Rental.finish, Command.reply?, Command.item?, Option.bind_some]
    cases s.get? tag with
    | none => rfl
    | some r => dsimp only; split <;> rfl
  | statusRequest tag =>
    simp only [carryOut, Rental.status, Command.reply?, Command.item?, Option.bind_some]
    cases s.get? tag <;> rfl
  | statusResponse response => rfl
  | error => rfl
  | unknown code => rfl

/-- Handling a frame is carrying out its command, if it holds one. -/
theorem store_handle (payload : Bytes) :
    (handle terms now s payload).store =
      match (Action.frame payload).command? with
      | some c => (carryOut terms now s c).store
      | none => s := by
  cases h : (Message.decode payload).result <;> simp [handle, Action.command?, Except.toOption, h]

theorem response?_handle (payload : Bytes) :
    (handle terms now s payload).response? =
      (Action.frame payload).command?.bind fun c => (carryOut terms now s c).response? := by
  cases h : (Message.decode payload).result <;> simp [handle, Action.command?, Except.toOption, h]

end Dispatch

/-- Of the operator's commands, only clearing writes. -/
theorem Console.store_carryOut (s : Store) (c : Command) :
    (carryOut s c).store = if c = .clear then s.clear else s := by
  cases c <;> rfl

/-! ## What a sweep pushes -/

@[simp] theorem Record.tag_push (r : Record) (t : Tag) : (r.push t).tag = t := rfl

namespace Store

theorem filter_entries_of_nodup (t : Tag) (entries : List (Tag × Record))
    (nodup : (entries.map Prod.fst).Nodup) :
    entries.filter (fun e => e.1 = t) = (entries.find? fun e => e.1 = t).toList := by
  induction entries with
  | nil => rfl
  | cons e entries ih =>
    rw [List.map_cons, List.nodup_cons] at nodup
    by_cases he : e.1 = t
    · have hrest : entries.filter (fun x => x.1 = t) = [] := by
        rw [List.filter_eq_nil_iff]
        intro x hx hxt
        have hxt : x.1 = e.1 := (of_decide_eq_true hxt).trans he.symm
        exact nodup.1 (hxt ▸ List.mem_map_of_mem hx)
      rw [List.filter_cons_of_pos (by simpa using he), hrest,
        List.find?_cons_of_pos (by simpa using he)]
      rfl
    · rw [List.filter_cons_of_neg (by simpa using he), ih nodup.2,
        List.find?_cons_of_neg (by simpa using he)]

/-- Every entry of a table is found under its tag. -/
theorem get?_of_mem {s : Store} {e : Tag × Record} (h : e ∈ s.entries) : s.get? e.1 = some e.2 := by
  have hmem : e ∈ s.entries.filter fun x => x.1 = e.1 := List.mem_filter.mpr ⟨h, by simp⟩
  rw [filter_entries_of_nodup e.1 s.entries s.nodup, Option.mem_toList] at hmem
  rw [get?, hmem]
  rfl

/-- The pushes of a sweep about one item: at most one, from the record of that item. -/
theorem filter_overdue (s : Store) (now : UInt64) (t : Tag) :
    (s.overdue now).filter (fun p => p.tag = t) =
      (((s.get? t).filter fun r => r.isOverdue now).map fun r => r.push t).toList := by
  have hcomm : (s.overdue now).filter (fun p => p.tag = t) =
      (s.entries.filter fun e => e.1 = t).filterMap fun e =>
        if e.2.isOverdue now then some (e.2.push e.1) else none := by
    rw [overdue, List.filter_filterMap, List.filterMap_filter]
    congr 1
    funext e
    by_cases ho : e.2.isOverdue now = true <;> by_cases he : e.1 = t <;>
      simp [ho, he, Option.filter_some]
  rw [hcomm, filter_entries_of_nodup t s.entries s.nodup, get?]
  cases hf : s.entries.find? fun e => e.1 = t with
  | none => rfl
  | some e =>
    have he : e.1 = t := by simpa using List.find?_some hf
    by_cases ho : e.2.isOverdue now = true <;> simp [ho, he, Option.filter_some]

/-- **What a sweep pushes**: the records that are overdue, each under its tag. -/
theorem mem_overdue_iff (s : Store) (now : UInt64) (p : Response) :
    p ∈ s.overdue now ↔
      ∃ r, s.get? p.tag = some r ∧ r.isOverdue now = true ∧ p = r.push p.tag := by
  have hmem : p ∈ s.overdue now ↔ p ∈ (s.overdue now).filter fun q => q.tag = p.tag := by
    simp
  rw [hmem, filter_overdue]
  simp only [Option.mem_toList, Option.map_eq_some_iff, Option.filter_eq_some_iff]
  constructor
  · rintro ⟨r, ⟨hg, ho⟩, hp⟩
    exact ⟨r, hg, ho, hp.symm⟩
  · rintro ⟨r, hg, ho, hp⟩
    exact ⟨r, ⟨hg, ho⟩, hp.symm⟩

/-- No item is pushed twice in one sweep. -/
theorem nodup_tag_overdue (s : Store) (now : UInt64) :
    ((s.overdue now).map Response.tag).Nodup := by
  have hsub : ((s.overdue now).map Response.tag).Sublist (s.entries.map Prod.fst) := by
    rw [overdue, List.map_filterMap]
    induction s.entries with
    | nil => exact List.Sublist.refl _
    | cons e entries ih =>
      by_cases ho : e.2.isOverdue now = true
      · simpa [ho] using ih
      · simpa [ho] using ih.cons e.1
  exact hsub.nodup s.nodup

end Store

/-! ## One step -/

/-- The answers that an outcome holds, whether they were offered to the outlet or not. -/
def Outcome.replies (o : Outcome Report) : List Response :=
  match o.result with
  | .frame _ => o.offers.map Offer.response
  | .response r => [r]
  | _ => []

/-- The pushes that an outcome holds, whatever became of them. -/
def Outcome.pushes (o : Outcome Report) : List Response :=
  match o.result with
  | .sweep _ => o.offers.map Offer.response
  | .pushes rs => rs
  | _ => []

namespace Backend

variable (outlet : Outlet) (b : Backend)

theorem store_handleFrame (payload : Bytes) :
    (b.handleFrame outlet payload).backend.store =
      (Dispatch.handle b.terms b.clock b.store payload).store := by
  unfold handleFrame
  dsimp only
  split
  · rfl
  · split <;> rfl

theorem offers_handleFrame (payload : Bytes) :
    (b.handleFrame outlet payload).offers.map Offer.response =
      (Dispatch.handle b.terms b.clock b.store payload).response?.toList := by
  unfold handleFrame
  dsimp only
  split
  · next h => simp [h]
  · next h => split <;> simp [h]

theorem clock_handleFrame (payload : Bytes) :
    (b.handleFrame outlet payload).backend.clock = b.clock := by
  unfold handleFrame
  dsimp only
  split
  · rfl
  · split <;> rfl

theorem terms_handleFrame (payload : Bytes) :
    (b.handleFrame outlet payload).backend.terms = b.terms := by
  unfold handleFrame
  dsimp only
  split
  · rfl
  · split <;> rfl

@[simp] theorem terms_step (a : Action) : (b.step outlet a).backend.terms = b.terms := by
  cases a with
  | frame payload => exact terms_handleFrame outlet b payload
  | _ => rfl

@[simp] theorem clock_step (a : Action) :
    (b.step outlet a).backend.clock = a.clockAfter b.clock := by
  cases a with
  | frame payload => exact clock_handleFrame outlet b payload
  | _ => rfl

/-- **One step, seen from one item.**  The record of a tag afterwards is what the event of that tag
makes of the record before; no other entry of the table is looked at. -/
theorem get?_step (a : Action) (t : Tag) :
    (b.step outlet a).backend.store.get? t =
      (a.eventFor b.terms b.clock t).apply (b.store.get? t) := by
  cases a with
  | frame payload =>
    have hs : (b.step outlet (.frame payload)).backend.store =
        (Dispatch.handle b.terms b.clock b.store payload).store :=
      store_handleFrame outlet b payload
    rw [hs, Dispatch.store_handle]
    unfold Action.eventFor
    cases (Action.frame payload).command? with
    | none => rfl
    | some c => exact Dispatch.get?_carryOut b.terms b.clock b.store t c
  | start tag duration => exact Dispatch.get?_start b.terms b.clock b.store tag t duration
  | finish tag => exact Dispatch.get?_finish b.terms b.clock b.store tag t
  | status tag => rfl
  | advance seconds => rfl
  | setClock seconds => rfl
  | sweep now => exact b.store.get?_expired now t
  | tick => exact b.store.get?_expired b.clock t
  | expire now => exact b.store.get?_expired now t
  | get tag => rfl
  | clear => rfl
  | console line =>
    have hs : (b.step outlet (.console line)).backend.store =
        (Console.carryOut b.store (.parse line)).store := rfl
    rw [hs, Console.store_carryOut]
    by_cases h : Console.Command.parse line = .clear
    · have he : (Action.console line).eventFor b.terms b.clock t = .clear :=
        Action.eventFor_of_isClear (decide_eq_true h)
      rw [he, if_pos h]
      rfl
    · have hk : (Action.console line).isClear = false := decide_eq_false h
      have he : (Action.console line).eventFor b.terms b.clock t = .apart :=
        if_neg (by rw [hk]; exact Bool.false_ne_true)
      rw [he, if_neg h]
      rfl

/-- The answer of a step is the answer to its command, from the record of the item it names. -/
theorem replies_step (a : Action) :
    (b.step outlet a).replies =
      (a.command?.bind fun c => c.reply? (c.item?.bind b.store.get?)).toList := by
  have direct : ∀ (c : Command) (answer : Answer),
      Dispatch.carryOut b.terms b.clock b.store c = Dispatch.answered answer →
      c.reply? (c.item?.bind b.store.get?) = some answer.response := by
    intro c answer h
    rw [← Dispatch.response?_carryOut b.terms b.clock b.store c, h]
    rfl
  cases a with
  | frame payload =>
    have hr : (b.step outlet (.frame payload)).replies =
        (b.handleFrame outlet payload).offers.map Offer.response := rfl
    rw [hr, offers_handleFrame, Dispatch.response?_handle]
    simp only [Dispatch.response?_carryOut]
  | start tag duration =>
    have h := direct (.rentalStart tag duration) _ rfl
    simp only [Action.command?, Option.bind_some, h]
    rfl
  | finish tag =>
    have h := direct (.rentalEnd tag) _ rfl
    simp only [Action.command?, Option.bind_some, h]
    rfl
  | status tag =>
    have h := Dispatch.response?_carryOut b.terms b.clock b.store (.statusRequest tag)
    simp only [Action.command?, Option.bind_some, ← h]
    rfl
  | _ => rfl

/-- What a step pushes is what is overdue at the time of its sweep. -/
theorem pushes_step (a : Action) :
    (b.step outlet a).pushes =
      match a.sweepTime? b.clock with
      | some now => b.store.overdue now
      | none => [] := by
  cases a with
  | sweep now => exact map_response_offerAll outlet b.offered (b.store.overdue now)
  | tick => exact map_response_offerAll outlet b.offered (b.store.overdue b.clock)
  | _ => rfl

end Backend

end TagRental
