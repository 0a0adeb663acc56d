import Mathlib.Data.List.Basic
import Mathlib.Data.List.Nodup
import TagRental.Proofs.Link.Asking
import TagRental.Proofs.Service.Moves

/-!
# The course of a served link

Three things happen to a response.  It is *made* by a step on the table, its send *asks* for the
writer when it is polled for the first time, and it is *written* when its frame is out.  In between
it waits: what is made and has not asked is *unqueued*, what has asked and is not over is *queued*.

`Advance` states what holds between any two moments of a link that nobody cancels, on a channel that
never fails.

* What asks goes to the back of the queue, and what is written comes from its front.  This is a law
  of the writer, for the responses of both tasks together.
* What a task makes goes behind what it has not asked for, and it asks for what has waited longest.
  This is a law of each task.

Nothing relates the steps on the table of one task to the asking of the other.

## The invariant

`Wire` says which sends are in the queue, by their *places*: the number of the send with its
response and the task.  A task is in one send at most, and sends are numbered as they begin, so a
place is found by its task and by its number.  What a step does to the places depends on the move
(`Move`): an act leaves them alone (`Wire.acts`), since the send that it begins has not been polled;
a poll gives a place to the send (`Wire.polled`), and the send goes on with it (`Wire.goesOn`) or is
over, and then the place was the first one (`Wire.ends`).
-/

namespace TagRental

/-- A response and the task that sends it. -/
structure Outgoing where
  task : Service.Task
  response : Response
  deriving DecidableEq

namespace Outgoing

/-- Those that one task sends. -/
def sentBy (τ : Service.Task) (os : List Outgoing) : List Outgoing := os.filter fun o => o.task = τ

/-- Those about one item. -/
def about (t : Tag) (os : List Outgoing) : List Outgoing := os.filter fun o => o.response.tag = t

/-- The frames, one after another. -/
def wire (os : List Outgoing) : Bytes := os.flatMap fun o => o.response.encode

variable (xs ys : List Outgoing)

@[simp] theorem sentBy_append (τ : Service.Task) :
    sentBy τ (xs ++ ys) = sentBy τ xs ++ sentBy τ ys :=
  List.filter_append ..

@[simp] theorem about_append (t : Tag) : about t (xs ++ ys) = about t xs ++ about t ys :=
  List.filter_append ..

@[simp] theorem wire_append : wire (xs ++ ys) = wire xs ++ wire ys := List.flatMap_append

/-- What a task sends is sent by it and by no other one. -/
theorem sentBy_map_mk (τ υ : Service.Task) (responses : List Response) :
    sentBy υ (responses.map (mk τ)) = if τ = υ then responses.map (mk τ) else [] := by
  rw [sentBy, List.filter_map]
  by_cases h : τ = υ
  · rw [if_pos h]
    exact congrArg _ (List.filter_eq_self.mpr fun _ _ => decide_eq_true h)
  · rw [if_neg h, List.map_eq_nil_iff, List.filter_eq_nil_iff]
    exact fun _ _ hr => h (of_decide_eq_true hr)

end Outgoing

namespace Service

/-! ## What happens to a link -/

/-- What can happen to a served link that nobody cancels: a task takes a step, bytes arrive or the
gateway hangs up, time passes, the clock is set, and the table finds itself in another order. -/
inductive Event where
  | step (τ : Task)
  | arrived (bytes : Bytes)
  | hungUp
  | passed (millis : Nat)
  | clockSet (seconds : UInt64)
  | reordered (σ : Traversal)

/-- The link after an event. -/
def happen (c : Channel) (s : Service) : Event → Service
  | .step τ => (s.step c τ).1
  | .arrived bytes => { s with inbound := s.inbound ++ bytes }
  | .hungUp => { s with inboundEnded := true }
  | .passed millis => { s with millis := s.millis + millis }
  | .clockSet seconds => { s with backend := { s.backend with clock := seconds } }
  | .reordered σ => { s with backend := s.backend.reordered σ }

/-- The link after some events. -/
def after (c : Channel) (s : Service) (events : List Event) : Service := events.foldl (happen c) s

/-- Has the send in which a task is asked for the writer? -/
def hasAsked (s : Service) (τ : Task) : Bool :=
  (s.sending? τ).any fun x => decide (x.1 ∈ s.writer.queue.map PendingSend.id)

/-- The responses of a task whose sends have not asked for the writer. -/
def unqueued (s : Service) (τ : Task) : List Outgoing :=
  (if s.hasAsked τ then (s.unwritten τ).tail else s.unwritten τ).map (.mk τ)

/-- The responses of both tasks whose sends have not asked for the writer. -/
def allUnqueued (s : Service) : List Outgoing := s.unqueued .receiver ++ s.unqueued .monitor

/-- The response that is sent under a number. -/
def sentAs? (s : Service) (id : Nat) : Option Outgoing :=
  let sent (τ : Task) : Option Outgoing :=
    (s.sending? τ).bind fun x => if x.1 = id then some ⟨τ, x.2⟩ else none
  (sent .receiver).or (sent .monitor)

/-- The responses whose sends have asked for the writer and are not over, in the order of the
queue. -/
def queued (s : Service) : List Outgoing := s.writer.queue.filterMap fun p => s.sentAs? p.id

/-- The responses that an event makes. -/
def made (s : Service) : Event → List Outgoing
  | .step τ => (s.makes τ).map (.mk τ)
  | _ => []

/-- The response whose send asks for the writer at an event. -/
def asks (s : Service) : Event → List Outgoing
  | .step τ => (if s.hasAsked τ then [] else (s.sending? τ).toList.map Prod.snd).map (.mk τ)
  | _ => []

/-- The response whose frame is out after an event. -/
def writes (c : Channel) (s : Service) : Event → List Outgoing
  | .step τ =>
    match s.sending? τ with
    | none => []
    | some (send, r) =>
      match (s.writer.poll c send r.encode).2 with
      | some (.ok ()) => [⟨τ, r⟩]
      | _ => []
  | _ => []

/-- What is collected along some events. -/
def collect (c : Channel) (f : Service → Event → List Outgoing) (s : Service) :
    List Event → List Outgoing
  | [] => []
  | e :: events => f s e ++ collect c f (s.happen c e) events

/-- The responses that some events make, in the order of the steps on the table. -/
def madeIn (c : Channel) (s : Service) (events : List Event) : List Outgoing :=
  s.collect c made events

/-- The responses whose sends ask for the writer at some events, in the order in which they ask. -/
def askedIn (c : Channel) (s : Service) (events : List Event) : List Outgoing :=
  s.collect c asks events

/-- The responses that are written at some events, in the order in which their frames are out. -/
def writtenIn (c : Channel) (s : Service) (events : List Event) : List Outgoing :=
  s.collect c (writes c) events

variable {c : Channel} {s s' : Service}

@[simp] theorem after_cons (e : Event) (events : List Event) :
    s.after c (e :: events) = (s.happen c e).after c events := rfl

theorem after_append (xs ys : List Event) : s.after c (xs ++ ys) = (s.after c xs).after c ys :=
  List.foldl_append

theorem collect_append (f : Service → Event → List Outgoing) (xs ys : List Event) :
    s.collect c f (xs ++ ys) = s.collect c f xs ++ (s.after c xs).collect c f ys := by
  induction xs generalizing s with
  | nil => rfl
  | cons e xs ih => rw [List.cons_append, collect, collect, ih, List.append_assoc, after_cons]

/-! ## The queue -/

/-- A send in the queue: its number and its response with the task. -/
abbrev Place := Nat × Outgoing

/-- The send as it asked for the writer. -/
def Place.asked (x : Place) : PendingSend := ⟨x.1, x.2.response.encode⟩

/-- The sends that have asked for the writer are those of the places, and `piece` is what is written
of the first of them.  Sends are numbered as they begin, so those of two tasks have different
numbers. -/
structure Wire (s : Service) (places : List Place) (piece : Bytes) : Prop where
  isOpen : s.writer.cancelled = false
  serves : s.writer.Serves (places.map Place.asked) piece
  sends : ∀ x ∈ places, s.sending? x.2.task = some (x.1, x.2.response)
  nodup : (places.map fun x => x.2.task).Nodup
  numbered : ∀ τ id r, s.sending? τ = some (id, r) → id < s.backend.offered
  apart : ∀ τ υ id r r', s.sending? τ = some (id, r) → s.sending? υ = some (id, r') → τ = υ

/-- The places after a poll of a send: it has one, at the back if it has asked only now. -/
structure Polled (s : Service) (places : List Place) (τ : Task) (id : Nat) (r : Response)
    (places' : List Place) : Prop where
  asked : SharedWriter.ask (places.map Place.asked) id r.encode = places'.map Place.asked
  responses : places'.map Prod.snd = places.map Prod.snd ++ s.asks (.step τ)
  sends : ∀ x ∈ places', s.sending? x.2.task = some (x.1, x.2.response)
  nodup : (places'.map fun x => x.2.task).Nodup
  mem : (id, ⟨τ, r⟩) ∈ places'

namespace Wire

variable {places : List Place} {piece : Bytes} {τ : Task} {id : Nat} {r : Response}

/-- The queue holds the numbers of the places. -/
theorem map_id_queue (h : s.Wire places piece) :
    s.writer.queue.map PendingSend.id = places.map Prod.fst := by
  rw [h.serves.map_id_queue, List.map_map]
  rfl

/-- The place of the send in which a task is. -/
theorem mem_places_iff (h : s.Wire places piece) (hsending : s.sending? τ = some (id, r)) :
    id ∈ places.map Prod.fst ↔ (id, ⟨τ, r⟩) ∈ places := by
  constructor
  · intro hid
    obtain ⟨⟨_, o⟩, hx, rfl⟩ := List.mem_map.mp hid
    have hsends := h.sends _ hx
    have htask : o.task = τ := h.apart _ _ _ _ _ hsends hsending
    rw [htask, hsending] at hsends
    obtain rfl : r = o.response := congrArg Prod.snd (Option.some.inj hsends)
    exact htask ▸ hx
  · intro hx
    exact List.mem_map_of_mem hx

/-- A task has asked for the writer if it has a place. -/
theorem hasAsked_iff (h : s.Wire places piece) (τ : Task) :
    s.hasAsked τ = true ↔ τ ∈ places.map fun x => x.2.task := by
  rw [hasAsked, h.map_id_queue, Option.any_eq_true]
  constructor
  · rintro ⟨⟨id, r⟩, hsending, hid⟩
    have hx := (h.mem_places_iff hsending).mp (of_decide_eq_true hid)
    exact List.mem_map.mpr ⟨_, hx, rfl⟩
  · intro hτ
    obtain ⟨x, hx, rfl⟩ := List.mem_map.mp hτ
    exact ⟨_, h.sends x hx, decide_eq_true (List.mem_map_of_mem hx)⟩

theorem sentAs?_eq (h : s.Wire places piece) (hsending : s.sending? τ = some (id, r)) :
    s.sentAs? id = some ⟨τ, r⟩ := by
  unfold sentAs?
  dsimp only
  cases τ with
  | receiver =>
    rw [hsending, Option.bind_some, if_pos rfl, Option.some_or]
  | monitor =>
    have hother : (s.sending? .receiver).bind
        (fun x => if x.1 = id then some (Outgoing.mk .receiver x.2) else none) = none := by
      rw [Option.bind_eq_none_iff]
      intro x hx
      refine if_neg fun hid => ?_
      cases h.apart .receiver .monitor x.1 x.2 r hx (hid ▸ hsending)
    rw [hother, hsending, Option.none_or, Option.bind_some, if_pos rfl]

/-- The responses in the queue are those of the places. -/
theorem queued_eq (h : s.Wire places piece) : s.queued = places.map Prod.snd := by
  have hqueue : s.queued = (places.map Prod.fst).filterMap s.sentAs? := by
    rw [← h.map_id_queue, List.filterMap_map]
    rfl
  rw [hqueue, List.filterMap_map]
  exact List.filterMap_eq_map_iff_forall_eq_some.mpr fun x hx => h.sentAs?_eq (h.sends x hx)

/-- What is written of a frame is a first part of the first one in the queue. -/
theorem piece_prefix (h : s.Wire places piece) : piece <+: Outgoing.wire s.queued.head?.toList := by
  rw [h.queued_eq]
  have hserves := h.serves
  cases places with
  | nil =>
    cases hserves
    exact List.nil_prefix
  | cons x places =>
    cases hserves with
    | somebody hframe _ =>
      have hfirst : Outgoing.wire [x.2] = x.2.response.encode := List.append_nil _
      exact ⟨_, hframe.symm.trans hfirst.symm⟩

/-- **Asking gives a place.** -/
theorem polled (h : s.Wire places piece) (hsending : s.sending? τ = some (id, r)) :
    ∃ places', s.Polled places τ id r places' := by
  have hids : (places.map Place.asked).map PendingSend.id = places.map Prod.fst := by
    rw [List.map_map]
    rfl
  have hplace := h.mem_places_iff hsending
  have hasked := h.hasAsked_iff τ
  by_cases hold : id ∈ places.map Prod.fst
  · have hmem := hplace.mp hold
    refine ⟨places, if_pos (hids ▸ hold), ?_, h.sends, h.nodup, hmem⟩
    rw [asks, if_pos (hasked.mpr (List.mem_map.mpr ⟨_, hmem, rfl⟩)), List.map_nil, List.append_nil]
  · have hnew : τ ∉ places.map fun x => x.2.task := by
      intro hτ
      obtain ⟨x, hx, rfl⟩ := List.mem_map.mp hτ
      have hid : x.1 = id :=
        congrArg Prod.fst (Option.some.inj ((h.sends x hx).symm.trans hsending))
      exact hold (hid ▸ List.mem_map_of_mem hx)
    refine ⟨places ++ [(id, ⟨τ, r⟩)], ?_, ?_, ?_, ?_, List.mem_append_right _ List.mem_cons_self⟩
    · rw [SharedWriter.ask, if_neg (hids ▸ hold), List.map_append]
      rfl
    · rw [asks, if_neg fun hτ => hnew (hasked.mp hτ), hsending, List.map_append]
      rfl
    · intro x hx
      rcases List.mem_append.mp hx with hx | hx
      · exact h.sends x hx
      · rw [List.mem_singleton.mp hx]
        exact hsending
    · rw [List.map_append, List.map_singleton, ← List.concat_eq_append]
      exact List.Nodup.concat hnew h.nodup

/-- Where the other task stays as it is, and this one begins a send if it has something to write,
the numbers of the sends stay apart. -/
theorem numbers_of_begins (h : s.Wire places piece) (hbegins : s.Begins τ s')
    (hothers : ∀ υ, υ ≠ τ → s'.sending? υ = s.sending? υ) :
    (∀ υ id r, s'.sending? υ = some (id, r) → id < s'.backend.offered) ∧
      ∀ υ φ id r r', s'.sending? υ = some (id, r) → s'.sending? φ = some (id, r') → υ = φ := by
  have hnew : ∀ id r, s'.sending? τ = some (id, r) →
      id = s.backend.offered ∧ s'.backend.offered = s.backend.offered + 1 := by
    intro id r hsending
    have hoffered := hbegins.offered
    have hnumber := hbegins.sending
    rw [hsending] at hoffered hnumber
    obtain ⟨_, -, heq⟩ := Option.map_eq_some_iff.mp hnumber.symm
    exact ⟨(congrArg Prod.fst heq).symm, hoffered⟩
  have hold : ∀ υ id r, υ ≠ τ → s'.sending? υ = some (id, r) → id < s.backend.offered :=
    fun υ id r hne hsending => h.numbered υ id r (hothers υ hne ▸ hsending)
  refine ⟨fun υ id r hsending => ?_, fun υ φ id r r' hυ hφ => ?_⟩
  · by_cases hτ : υ = τ
    · obtain ⟨rfl, hoffered⟩ := hnew id r (hτ ▸ hsending)
      omega
    · have hlt := hold υ id r hτ hsending
      have hoffered := hbegins.offered
      omega
  · by_cases hυτ : υ = τ
    · by_cases hφτ : φ = τ
      · rw [hυτ, hφτ]
      · have hlt := hold φ id r' hφτ hφ
        have hid := (hnew id r (hυτ ▸ hυ)).1
        omega
    · by_cases hφτ : φ = τ
      · have hlt := hold υ id r hυτ hυ
        have hid := (hnew id r' (hφτ ▸ hφ)).1
        omega
      · exact h.apart υ φ id r r' (hothers υ hυτ ▸ hυ) (hothers φ hφτ ▸ hφ)

end Wire

/-! ## One event -/

section Step

variable {τ : Task} {id : Nat} {r : Response} {rest : List Response}

theorem unqueued_of_unwritten (h : s.unwritten τ = []) : s.unqueued τ = [] := by
  rw [unqueued, h, List.tail_nil, ite_self]
  rfl

theorem unqueued_of_hasAsked (h : s.hasAsked τ = true) :
    s.unqueued τ = (s.unwritten τ).tail.map (.mk τ) := by
  rw [unqueued, if_pos h]

theorem unqueued_of_not_hasAsked (h : s.hasAsked τ = false) :
    s.unqueued τ = (s.unwritten τ).map (.mk τ) := by
  rw [unqueued, if_neg (Bool.not_eq_true _ ▸ h)]

theorem asks_of_sending?_eq_none (h : s.sending? τ = none) : s.asks (.step τ) = [] := by
  rw [asks, h, Option.toList_none, List.map_nil, ite_self]
  rfl

/-- A poll makes nothing. -/
theorem made_of_sending? (h : s.sending? τ = some (id, r)) : s.made (.step τ) = [] := by
  rw [made, makes, (of_sending? h).2]
  rfl

/-- A task in a send asks at its next poll, unless it has asked; behind this response are the
others. -/
theorem unqueued_of_sending? (h : s.sending? τ = some (id, r))
    (hunwritten : s.unwritten τ = r :: rest) :
    s.unqueued τ = s.asks (.step τ) ++ rest.map (.mk τ) := by
  rw [unqueued, asks, hunwritten, h]
  cases s.hasAsked τ <;> rfl

theorem writes_of_sending?_eq_none (h : s.sending? τ = none) : s.writes c (.step τ) = [] := by
  rw [writes, h]

theorem writes_of_none (h : s.sending? τ = some (id, r))
    (hpoll : (s.writer.poll c id r.encode).2 = none) : s.writes c (.step τ) = [] := by
  simp only [writes, h, hpoll]

theorem writes_of_ok (h : s.sending? τ = some (id, r))
    (hpoll : (s.writer.poll c id r.encode).2 = some (.ok ())) :
    s.writes c (.step τ) = [⟨τ, r⟩] := by
  simp only [writes, h, hpoll]

theorem task_of_mem_writes {o : Outgoing} (h : o ∈ s.writes c (.step τ)) : o.task = τ := by
  unfold writes at h
  dsimp only at h
  split at h
  · cases h
  · split at h
    · rw [List.mem_singleton.mp h]
    · cases h

end Step

/-- What was made, asked for the writer and was written between two states of a link: who asks goes
to the back of the queue, who is at its front is written, and what a task makes goes behind what it
has not asked for yet. -/
structure Advance (made asked written : List Outgoing) (s s' : Service)
    (places places' : List Place) :
    Prop where
  queue : places.map Prod.snd ++ asked = written ++ places'.map Prod.snd
  unqueued : ∀ τ, s.unqueued τ ++ Outgoing.sentBy τ made = Outgoing.sentBy τ asked ++ s'.unqueued τ

protected theorem Advance.refl (s : Service) (places : List Place) :
    Advance [] [] [] s s places places :=
  ⟨List.append_nil _, fun _ => List.append_nil _⟩

protected theorem Advance.trans {made asked written made' asked' written' : List Outgoing}
    {s s' s'' : Service} {places places' places'' : List Place}
    (h : Advance made asked written s s' places places')
    (h' : Advance made' asked' written' s' s'' places' places'') :
    Advance (made ++ made') (asked ++ asked') (written ++ written') s s'' places places'' where
  queue := by rw [← List.append_assoc, h.queue, List.append_assoc, h'.queue, List.append_assoc]
  unqueued := by
    intro τ
    rw [Outgoing.sentBy_append, Outgoing.sentBy_append, ← List.append_assoc, h.unqueued,
      List.append_assoc, h'.unqueued, List.append_assoc]

/-- What an event does to the queue and to what stands behind it. -/
abbrev AdvanceAt (c : Channel) (s : Service) (e : Event) (places places' : List Place) : Prop :=
  Advance (s.made e) (s.asks e) (s.writes c e) s (s.happen c e) places places'

namespace Wire

variable {places places' : List Place} {piece piece' done : Bytes} {τ : Task} {id : Nat}
  {r : Response}

/-- A step changes nothing for the other task. -/
theorem advance_of_step (h : s.Wire places piece) (h' : (s.step c τ).1.Wire places' piece')
    (hqueue : places.map Prod.snd ++ s.asks (.step τ) = s.writes c (.step τ) ++
      places'.map Prod.snd)
    (hown : s.unqueued τ ++ s.made (.step τ) = s.asks (.step τ) ++ (s.step c τ).1.unqueued τ) :
    AdvanceAt c s (.step τ) places places' := by
  refine ⟨hqueue, fun υ => ?_⟩
  rw [made, asks, Outgoing.sentBy_map_mk, Outgoing.sentBy_map_mk]
  by_cases hυ : τ = υ
  · rw [if_pos hυ, if_pos hυ, ← hυ]
    exact hown
  · rw [if_neg hυ, if_neg hυ, List.append_nil, List.nil_append]
    -- it has a place after the step exactly if it had one before
    have hmem : (υ ∈ places.map fun x => x.2.task) ↔ υ ∈ places'.map fun x => x.2.task := by
      have htasks := congrArg (fun os => υ ∈ os.map Outgoing.task) hqueue
      simp only [List.map_append, List.map_map, List.mem_append, eq_iff_iff] at htasks
      have hasks : υ ∉ (s.asks (.step τ)).map Outgoing.task := by
        rw [asks, List.map_map]
        intro hmem
        obtain ⟨_, -, heq⟩ := List.mem_map.mp hmem
        exact hυ heq
      have hwrites : υ ∉ (s.writes c (.step τ)).map Outgoing.task := by
        intro hmem
        obtain ⟨o, ho, heq⟩ := List.mem_map.mp hmem
        exact hυ ((task_of_mem_writes ho).symm.trans heq)
      exact ⟨fun hp => (htasks.mp (Or.inl hp)).resolve_left hwrites,
        fun hp => (htasks.mpr (Or.inr hp)).resolve_right hasks⟩
    have hasked : s.hasAsked υ = (s.step c τ).1.hasAsked υ := by
      rw [Bool.eq_iff_iff, h.hasAsked_iff, h'.hasAsked_iff, hmem]
    rw [unqueued, unqueued, happen, ← hasked, (step_of_ne c s (Ne.symm hυ)).2]

/-- An act. -/
theorem acts (h : s.Wire places piece) (hidle : s.unwritten τ = [])
    (hwriter : (s.step c τ).1.writer = s.writer)
    (hunwritten : (s.step c τ).1.unwritten τ = s.makes τ) (hbegins : s.Begins τ (s.step c τ).1) :
    (s.step c τ).1.Wire places piece ∧
      AdvanceAt c s (.step τ) places places ∧ s.writes c (.step τ) = [] := by
  have hnone := sending?_of_unwritten hidle
  have hne : ∀ x ∈ places, x.2.task ≠ τ := by
    intro x hx htask
    have hsends := h.sends x hx
    rw [htask, hnone] at hsends
    cases hsends
  obtain ⟨hnumbered, hapart⟩ := h.numbers_of_begins hbegins fun υ hυ => (step_of_ne c s hυ).1
  have h' : (s.step c τ).1.Wire places piece := {
    isOpen := isOpen_step c h.isOpen τ
    serves := hwriter ▸ h.serves
    sends := fun x hx => (step_of_ne c s (hne x hx)).1.trans (h.sends x hx)
    nodup := h.nodup
    numbered := hnumbered
    apart := hapart }
  have hasked : (s.step c τ).1.hasAsked τ = false := by
    rw [← Bool.not_eq_true, h'.hasAsked_iff]
    intro hτ
    obtain ⟨x, hx, htask⟩ := List.mem_map.mp hτ
    exact hne x hx htask
  have hwrites : s.writes c (.step τ) = [] := writes_of_sending?_eq_none hnone
  refine ⟨h', h.advance_of_step h' ?_ ?_, hwrites⟩
  · rw [asks_of_sending?_eq_none hnone, hwrites, List.append_nil, List.nil_append]
  · rw [unqueued_of_unwritten hidle, asks_of_sending?_eq_none hnone,
      unqueued_of_not_hasAsked hasked, hunwritten]
    rfl

/-- A poll after which the send goes on. -/
theorem goesOn (h : s.Wire places piece) (hsending : s.sending? τ = some (id, r))
    (hpoll : (s.writer.poll c id r.encode).2 = none)
    (hsame : (s.step c τ).1 = { s with writer := (s.writer.poll c id r.encode).1 })
    (hpolled : s.Polled places τ id r places')
    (hserves : (s.writer.poll c id r.encode).1.Serves (places'.map Place.asked) piece') :
    (s.step c τ).1.Wire places' piece' ∧
      AdvanceAt c s (.step τ) places places' ∧ s.writes c (.step τ) = [] := by
  have hsending' : ∀ υ, (s.step c τ).1.sending? υ = s.sending? υ := by
    intro υ
    rw [hsame]
    cases υ <;> rfl
  have hunwritten' : (s.step c τ).1.unwritten τ = s.unwritten τ := by
    rw [hsame]
    cases τ <;> rfl
  have hoffered : (s.step c τ).1.backend.offered = s.backend.offered := by rw [hsame]
  have h' : (s.step c τ).1.Wire places' piece' := {
    isOpen := isOpen_step c h.isOpen τ
    serves := by
      rw [hsame]
      exact hserves
    sends := fun x hx => (hsending' _).trans (hpolled.sends x hx)
    nodup := hpolled.nodup
    numbered := fun υ id r hυ => hoffered ▸ h.numbered υ id r (hsending' υ ▸ hυ)
    apart := fun υ φ id r r' hυ hφ => h.apart υ φ id r r' (hsending' υ ▸ hυ) (hsending' φ ▸ hφ) }
  have hasked : (s.step c τ).1.hasAsked τ = true :=
    (h'.hasAsked_iff τ).mpr (List.mem_map.mpr ⟨_, hpolled.mem, rfl⟩)
  have hwrites : s.writes c (.step τ) = [] := writes_of_none hsending hpoll
  obtain ⟨rest, hunwritten⟩ := (of_sending? hsending).1
  refine ⟨h', h.advance_of_step h' ?_ ?_, hwrites⟩
  · rw [hwrites, hpolled.responses, List.nil_append]
  · rw [made_of_sending? hsending, List.append_nil, unqueued_of_sending? hsending hunwritten,
      unqueued_of_hasAsked hasked, hunwritten', hunwritten, List.tail_cons]

/-- A poll that ends the send, which has the first place. -/
theorem ends (h : s.Wire places piece) (hsending : s.sending? τ = some (id, r))
    (hpoll : (s.writer.poll c id r.encode).2 = some (.ok ()))
    (hwriter : (s.step c τ).1.writer = (s.writer.poll c id r.encode).1)
    (hunwritten : s.unwritten τ = r :: (s.step c τ).1.unwritten τ)
    (hbegins : s.Begins τ (s.step c τ).1)
    (hpolled : s.Polled places τ id r ((id, ⟨τ, r⟩) :: places'))
    (hserves : (s.writer.poll c id r.encode).1.Serves (places'.map Place.asked) []) :
    (s.step c τ).1.Wire places' [] ∧
      AdvanceAt c s (.step τ) places places' ∧ s.writes c (.step τ) = [⟨τ, r⟩] := by
  obtain ⟨hover, hnodup⟩ := List.nodup_cons.mp hpolled.nodup
  have hne : ∀ x ∈ places', x.2.task ≠ τ := by
    intro x hx htask
    exact hover (List.mem_map.mpr ⟨x, hx, htask⟩)
  obtain ⟨hnumbered, hapart⟩ := h.numbers_of_begins hbegins fun υ hυ => (step_of_ne c s hυ).1
  have h' : (s.step c τ).1.Wire places' [] := {
    isOpen := isOpen_step c h.isOpen τ
    serves := hwriter ▸ hserves
    sends := fun x hx =>
      (step_of_ne c s (hne x hx)).1.trans (hpolled.sends x (List.mem_cons_of_mem _ hx))
    nodup := hnodup
    numbered := hnumbered
    apart := hapart }
  have hasked : (s.step c τ).1.hasAsked τ = false := by
    rw [← Bool.not_eq_true, h'.hasAsked_iff]
    exact hover
  have hwrites : s.writes c (.step τ) = [⟨τ, r⟩] := writes_of_ok hsending hpoll
  refine ⟨h', h.advance_of_step h' ?_ ?_, hwrites⟩
  · rw [hwrites, ← hpolled.responses]
    rfl
  · rw [made_of_sending? hsending, List.append_nil, unqueued_of_sending? hsending hunwritten,
      unqueued_of_not_hasAsked hasked]

/-- **One step of a task.** -/
theorem step (hc : c.NeverFails) (h : s.Wire places piece)
    (hbytes : s.writer.seen.bytes = done ++ piece) (τ : Task) :
    ∃ places' piece', (s.step c τ).1.Wire places' piece' ∧
      AdvanceAt c s (.step τ) places places' ∧
      (s.step c τ).1.writer.seen.bytes = done ++ Outgoing.wire (s.writes c (.step τ)) ++
        piece' := by
  cases move_step c h.isOpen τ with
  | acts hidle hwriter _ hunwritten hbegins =>
    obtain ⟨h', hadvance, hwrites⟩ := h.acts hidle hwriter hunwritten hbegins
    refine ⟨places, piece, h', hadvance, ?_⟩
    rw [hwriter, hwrites, hbytes]
    exact congrArg (· ++ piece) (List.append_nil done).symm
  | goesOn id r hsending hpoll hsame =>
    obtain ⟨places', hpolled⟩ := h.polled hsending
    rcases h.serves.poll hc h.isOpen hbytes id r.encode with ⟨-, piece', hserves, htaken⟩ | ⟨hok, -⟩
    · rw [hpolled.asked] at hserves
      obtain ⟨h', hadvance, hwrites⟩ := h.goesOn hsending hpoll hsame hpolled hserves
      refine ⟨places', piece', h', hadvance, ?_⟩
      rw [hsame, hwrites]
      exact htaken.trans (congrArg (· ++ piece') (List.append_nil done).symm)
    · cases hok.symm.trans hpoll
  | ends id r result hsending hpoll hwriter _ hunwritten hbegins =>
    obtain ⟨polled, hpolled⟩ := h.polled hsending
    rcases h.serves.poll hc h.isOpen hbytes id r.encode with
      ⟨hnone, -⟩ | ⟨hok, p, others, hfront, hid, hserves, htaken⟩
    · cases hnone.symm.trans hpoll
    · rw [hpolled.asked] at hfront
      obtain ⟨x, places', rfl, rfl, rfl⟩ := List.map_eq_cons_iff.mp hfront
      obtain ⟨number, o⟩ := x
      -- the send that is over is the one with the first place
      obtain rfl : number = id := hid
      have hfirst := hpolled.sends _ List.mem_cons_self
      have htask : o.task = τ := h.apart _ _ _ _ _ hfirst hsending
      rw [htask, hsending] at hfirst
      have hresponse : r = o.response := congrArg Prod.snd (Option.some.inj hfirst)
      obtain rfl : o = ⟨τ, r⟩ := by rw [hresponse, ← htask]
      obtain ⟨h', hadvance, hwrites⟩ :=
        h.ends hsending hok hwriter hunwritten hbegins hpolled hserves
      refine ⟨places', [], h', hadvance, ?_⟩
      rw [hwriter, hwrites, htaken, List.append_nil]
      exact congrArg (done ++ ·) (List.append_nil _).symm

/-- What happens outside the tasks moves nothing. -/
theorem quiet (h : s.Wire places piece) (hbytes : s.writer.seen.bytes = done ++ piece) {e : Event}
    (hquiet : ∀ τ, e ≠ .step τ) :
    (s.happen c e).Wire places piece ∧ AdvanceAt c s e places places ∧
      (s.happen c e).writer.seen.bytes = done ++ Outgoing.wire (s.writes c e) ++ piece := by
  have hbytes' : s.writer.seen.bytes = done ++ [] ++ piece := (List.append_nil done).symm ▸ hbytes
  have hwire : (s.happen c e).Wire places piece := by
    cases e with
    | step τ => exact absurd rfl (hquiet τ)
    | _ => exact ⟨h.isOpen, h.serves, h.sends, h.nodup, h.numbered, h.apart⟩
  have hadvance : AdvanceAt c s e places places := by
    cases e with
    | step τ => exact absurd rfl (hquiet τ)
    | _ => exact ⟨List.append_nil _, fun τ => List.append_nil _⟩
  refine ⟨hwire, hadvance, ?_⟩
  cases e with
  | step τ => exact absurd rfl (hquiet τ)
  | _ => exact hbytes'

/-- **One event.**  The queue goes on, and what is written at the event is behind what was written
before. -/
theorem happen (hc : c.NeverFails) (h : s.Wire places piece)
    (hbytes : s.writer.seen.bytes = done ++ piece) (e : Event) :
    ∃ places' piece', (s.happen c e).Wire places' piece' ∧
      AdvanceAt c s e places places' ∧
      (s.happen c e).writer.seen.bytes = done ++ Outgoing.wire (s.writes c e) ++ piece' := by
  cases e with
  | step τ => exact h.step hc hbytes τ
  | _ => exact ⟨places, piece, h.quiet hbytes (fun _ => Event.noConfusion)⟩

/-- **A whole course of events.** -/
theorem after (hc : c.NeverFails) (h : s.Wire places piece)
    (hbytes : s.writer.seen.bytes = done ++ piece) (events : List Event) :
    ∃ places' piece', (s.after c events).Wire places' piece' ∧
      Advance (s.madeIn c events) (s.askedIn c events) (s.writtenIn c events) s (s.after c events)
        places places' ∧
      (s.after c events).writer.seen.bytes = done ++ Outgoing.wire (s.writtenIn c events) ++
        piece' := by
  induction events generalizing s places piece done with
  | nil => exact ⟨places, piece, h, .refl s places, (List.append_nil done).symm ▸ hbytes⟩
  | cons e events ih =>
    obtain ⟨places₁, piece₁, h₁, hadvance, hbytes₁⟩ := h.happen hc hbytes e
    obtain ⟨places₂, piece₂, h₂, hadvance', hbytes₂⟩ := ih h₁ hbytes₁
    refine ⟨places₂, piece₂, h₂, hadvance.trans hadvance', ?_⟩
    rw [List.append_assoc done, ← Outgoing.wire_append] at hbytes₂
    exact hbytes₂

end Wire

/-- A link that was opened just now has no sends. -/
theorem wire_opened (settings : ServiceSettings) (kind : LinkKind) (clock : UInt64) :
    (opened settings kind clock).Wire [] [] where
  isOpen := rfl
  serves := .nobody rfl
  sends := fun _ h => by cases h
  nodup := List.nodup_nil
  numbered := fun τ _ _ h => by cases τ <;> cases h
  apart := fun τ _ _ _ _ h => by cases τ <;> cases h

end Service

end TagRental
