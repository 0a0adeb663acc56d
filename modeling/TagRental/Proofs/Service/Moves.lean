import TagRental.Proofs.Link.Polling
import TagRental.Proofs.Rental.LastTold
import TagRental.Service.Tasks

/-!
# What one step of a task comes to

The tasks of a served link are machines with many states, but as far as their responses go a step is
one of three things (`Move`).  It may be an *act*: the task has nothing to write, it does to the
table what the backend does, and what the backend would offer is what it has to write from now on.
It may be a poll after which the send goes on, and then nothing but the writer has changed; or a
poll that ends the send, and then the task has one response less to write.

An act includes the steps that leave the table alone: a read, a rest, a wait for the next sweep.
They are acts for which there is no action, and nothing is made by them.

Nothing here depends on the channel.  What a poll does to the writer is a matter of the writer.
-/

namespace TagRental

/-- The outlet that loses nothing. -/
def Outlet.reliable : Outlet := fun _ _ => none

namespace Service

/-! ## What a task has to write -/

/-- The send in which a task is: its number and its response. -/
def sending? (s : Service) : Task → Option (Nat × Response)
  | .receiver =>
    match s.receiver with
    | .replying send response _ => some (send, response)
    | _ => none
  | .monitor =>
    match s.monitor with
    | .pushing _ send (response :: _) => some (send, response)
    | _ => none

/-- The responses that a task has still to write, the one that it is sending first. -/
def unwritten (s : Service) : Task → List Response
  | .receiver =>
    match s.receiver with
    | .replying _ response _ => [response]
    | _ => []
  | .monitor =>
    match s.monitor with
    | .pushing _ _ pushes => pushes
    | _ => []

/-- What the next step of a task does to the table, if it does anything to it. -/
def action? (s : Service) : Task → Option Action
  | .receiver =>
    match s.receiver with
    | .handling (frame :: _) => some (.frame frame)
    | _ => none
  | .monitor =>
    match s.monitor with
    | .waiting due => if s.millis < due then none else some .tick
    | _ => none

/-- The responses that the next step of a task makes. -/
def makes (s : Service) (τ : Task) : List Response :=
  match s.action? τ with
  | none => []
  | some a => (s.backend.step .reliable a).offers.map Offer.response

/-- The table after the next step of a task. -/
def nextStore (s : Service) (τ : Task) : Store :=
  match s.action? τ with
  | none => s.backend.store
  | some a => (s.backend.step .reliable a).backend.store

/-- Every action of a task is one of those that a link brings about. -/
theorem isServed_of_action? {s : Service} {τ : Task} {a : Action} (h : s.action? τ = some a) :
    a.isServed = true := by
  unfold action? at h
  split at h
  · split at h
    · cases h
      rfl
    · cases h
  · split at h
    · split at h
      · cases h
      · cases h
        rfl
    · cases h

/-- A task has nothing to write and is in no send, or it is in the send of what it writes next, and
then it leaves the table alone. -/
theorem idle_or_sending (s : Service) (τ : Task) :
    s.unwritten τ = [] ∧ s.sending? τ = none ∨
      ∃ send r rest, s.sending? τ = some (send, r) ∧ s.unwritten τ = r :: rest ∧
        s.action? τ = none := by
  cases τ with
  | receiver =>
    unfold unwritten sending? action?
    cases s.receiver with
    | replying send r frames => exact Or.inr ⟨send, r, [], rfl, rfl, rfl⟩
    | _ => exact Or.inl ⟨rfl, rfl⟩
  | monitor =>
    unfold unwritten sending? action?
    cases s.monitor with
    | pushing next send pushes =>
      cases pushes with
      | nil => exact Or.inl ⟨rfl, rfl⟩
      | cons r rest => exact Or.inr ⟨send, r, rest, rfl, rfl, rfl⟩
    | _ => exact Or.inl ⟨rfl, rfl⟩

theorem sending?_of_unwritten {s : Service} {τ : Task} (h : s.unwritten τ = []) :
    s.sending? τ = none := by
  rcases s.idle_or_sending τ with ⟨-, hnone⟩ | ⟨_, _, _, -, hunwritten, -⟩
  · exact hnone
  · cases h.symm.trans hunwritten

/-- A task in a send writes the response of this send next, and makes nothing. -/
theorem of_sending? {s : Service} {τ : Task} {send : Nat} {r : Response}
    (h : s.sending? τ = some (send, r)) :
    (∃ rest, s.unwritten τ = r :: rest) ∧ s.action? τ = none := by
  rcases s.idle_or_sending τ with ⟨-, hnone⟩ | ⟨_, _, rest, hsending, hunwritten, haction⟩
  · cases h.symm.trans hnone
  · cases h.symm.trans hsending
    exact ⟨⟨rest, hunwritten⟩, haction⟩

/-! ## One step -/

/-- The task begins a send with a new number if it has something to write. -/
structure Begins (s : Service) (τ : Task) (s' : Service) : Prop where
  sending : s'.sending? τ = (s'.unwritten τ).head?.map (s.backend.offered, ·)
  offered : s'.backend.offered = s.backend.offered + (s'.sending? τ).toList.length

/-- What a step of a task comes to on a link that is not cancelled. -/
inductive Move (c : Channel) (s : Service) (τ : Task) (s' : Service) : Prop
  | acts (idle : s.unwritten τ = []) (writer : s'.writer = s.writer)
      (store : s'.backend.store = s.nextStore τ) (unwritten : s'.unwritten τ = s.makes τ)
      (begins : s.Begins τ s')
  | goesOn (send : Nat) (r : Response) (sending : s.sending? τ = some (send, r))
      (poll : (s.writer.poll c send r.encode).2 = none)
      (same : s' = { s with writer := (s.writer.poll c send r.encode).1 })
  | ends (send : Nat) (r : Response) (result : SendResult) (sending : s.sending? τ = some (send, r))
      (poll : (s.writer.poll c send r.encode).2 = some result)
      (writer : s'.writer = (s.writer.poll c send r.encode).1)
      (store : s'.backend.store = s.backend.store) (unwritten : s.unwritten τ = r :: s'.unwritten τ)
      (begins : s.Begins τ s')

section Receiver

variable (c : Channel) (s : Service)

/-- Taking in what a read brought makes nothing and changes neither the table nor the writer. -/
theorem arrive_frame (a : Arrival) :
    (s.arrive a).backend = s.backend ∧ (s.arrive a).writer = s.writer ∧
      (s.arrive a).monitor = s.monitor ∧ (s.arrive a).unwritten .receiver = [] := by
  unfold arrive
  split
  dsimp only
  split <;> exact ⟨rfl, rfl, rfl, rfl⟩

theorem monitor_receiverStep : (s.receiverStep c).1.monitor = s.monitor := by
  unfold receiverStep
  split
  · rfl
  · unfold receiverLeaves
    split <;> rfl
  · unfold read
    split
    · split
      · exact (s.arrive_frame _).2.2.1
      · rfl
    · exact (arrive_frame { s with inbound := s.inbound.drop Loop.readSize } _).2.2.1
  · rfl
  · unfold carryOut
    dsimp only
    split <;> rfl
  · unfold reply
    split <;> rfl
  · split <;> rfl

variable {s}

/-- A step that neither looks at the table nor polls. -/
theorem Move.of_idle {s' : Service} {τ : Task} (hidle : s.unwritten τ = [])
    (haction : s.action? τ = none) (hbackend : s'.backend = s.backend)
    (hwriter : s'.writer = s.writer) (hidle' : s'.unwritten τ = []) :
    Move c s τ s' := by
  refine .acts hidle hwriter ?_ ?_ ⟨?_, ?_⟩
  · rw [nextStore, haction, hbackend]
  · rw [makes, haction, hidle']
  · rw [sending?_of_unwritten hidle', hidle']
    rfl
  · rw [sending?_of_unwritten hidle', hbackend]
    rfl

/-- The receiver carries out a frame. -/
theorem move_carryOut {frame : Bytes} {frames : List Bytes}
    (h : s.receiver = .handling (frame :: frames)) :
    Move c s .receiver (s.carryOut frame frames) := by
  have hidle : s.unwritten .receiver = [] := by rw [unwritten, h]
  have haction : s.action? .receiver = some (.frame frame) := by rw [action?, h]
  have hmakes : s.makes .receiver =
      (Dispatch.handle s.backend.terms s.backend.clock s.backend.store frame).response?.toList := by
    rw [makes, haction]
    exact Backend.offers_handleFrame .reliable s.backend frame
  have hnext : s.nextStore .receiver =
      (Dispatch.handle s.backend.terms s.backend.clock s.backend.store frame).store := by
    rw [nextStore, haction]
    exact Backend.store_handleFrame .reliable s.backend frame
  unfold carryOut
  dsimp only
  cases hresponse :
      (Dispatch.handle s.backend.terms s.backend.clock s.backend.store frame).response? with
  | none =>
    rw [hresponse] at hmakes
    exact .acts hidle rfl hnext.symm hmakes.symm ⟨rfl, rfl⟩
  | some response =>
    rw [hresponse] at hmakes
    exact .acts hidle rfl hnext.symm hmakes.symm ⟨rfl, rfl⟩

/-- The receiver polls the send of an answer. -/
theorem move_reply {send : Nat} {response : Response} {frames : List Bytes}
    (h : s.receiver = .replying send response frames) :
    Move c s .receiver (s.reply c send response frames).1 := by
  have hsending : s.sending? .receiver = some (send, response) := by rw [sending?, h]
  have hunwritten : s.unwritten .receiver = [response] := by rw [unwritten, h]
  unfold reply
  split
  · next w hpoll =>
    exact .goesOn send response hsending (congrArg Prod.snd hpoll)
      (by rw [congrArg Prod.fst hpoll]; rfl)
  · next w hpoll =>
    exact .ends send response (.ok ()) hsending (congrArg Prod.snd hpoll)
      (congrArg Prod.fst hpoll).symm rfl hunwritten ⟨rfl, rfl⟩
  · next w fault hpoll =>
    exact .ends send response (.error fault) hsending (congrArg Prod.snd hpoll)
      (congrArg Prod.fst hpoll).symm rfl hunwritten ⟨rfl, rfl⟩

/-- **A step of the receiver.** -/
theorem move_receiverStep (hopen : s.writer.cancelled = false) :
    Move c s .receiver (s.receiverStep c).1 := by
  unfold receiverStep
  split
  · next hr =>
    have hidle : s.unwritten .receiver = [] := by rw [unwritten, hr]
    exact .of_idle c hidle (by rw [action?, hr]) rfl rfl hidle
  · next hcancelled _ => exact absurd (hopen.symm.trans hcancelled) Bool.false_ne_true
  · next hr _ =>
    have hidle : s.unwritten .receiver = [] := by rw [unwritten, hr]
    have haction : s.action? .receiver = none := by rw [action?, hr]
    unfold read
    split
    · split
      · obtain ⟨hbackend, hwriter, -, hunwritten⟩ := s.arrive_frame .ended
        exact .of_idle c hidle haction hbackend hwriter hunwritten
      · exact .of_idle c hidle haction rfl rfl hidle
    · obtain ⟨hbackend, hwriter, -, hunwritten⟩ :=
        arrive_frame { s with inbound := s.inbound.drop Loop.readSize }
          (.chunk (s.inbound.take Loop.readSize))
      exact .of_idle c hidle haction hbackend hwriter hunwritten
  · next hr _ => exact .of_idle c (by rw [unwritten, hr]) (by rw [action?, hr]) rfl rfl rfl
  · next hr _ => exact move_carryOut c hr
  · next hr _ => exact move_reply c hr
  · next hr _ =>
    have hidle : s.unwritten .receiver = [] := by rw [unwritten, hr]
    have haction : s.action? .receiver = none := by rw [action?, hr]
    split
    · exact .of_idle c hidle haction rfl rfl hidle
    · exact .of_idle c hidle haction rfl rfl rfl

end Receiver

section Monitor

variable (c : Channel) (s : Service)

/-- The monitor begins with its pushes, if there are any. -/
theorem pushNext_frame (next : Nat) (pushes : List Response) :
    (s.pushNext next pushes).backend.store = s.backend.store ∧
      (s.pushNext next pushes).writer = s.writer ∧ (s.pushNext next pushes).receiver = s.receiver ∧
      (s.pushNext next pushes).unwritten .monitor = pushes ∧
      s.Begins .monitor (s.pushNext next pushes) := by
  cases pushes with
  | nil => exact ⟨rfl, rfl, rfl, rfl, rfl, rfl⟩
  | cons p pushes => exact ⟨rfl, rfl, rfl, rfl, rfl, rfl⟩

theorem receiver_monitorStep : (s.monitorStep c).1.receiver = s.receiver := by
  unfold monitorStep
  split
  · rfl
  · unfold monitorLeaves
    split <;> rfl
  · split
    · rfl
    · exact (pushNext_frame { s with backend := _ } _ _).2.2.1
  · rfl
  · unfold push
    split
    · rfl
    · exact (pushNext_frame { s with writer := _ } _ _).2.2.1
    · exact (pushNext_frame (log { s with writer := _ } _) _ _).2.2.1

variable {s}

/-- The monitor sweeps. -/
theorem move_sweep {due : Nat} (h : s.monitor = .waiting due) (hdue : ¬s.millis < due) :
    Move c s .monitor (s.sweep due) := by
  have hidle : s.unwritten .monitor = [] := by rw [unwritten, h]
  have haction : s.action? .monitor = some .tick := by
    rw [action?, h]
    exact if_neg hdue
  unfold sweep
  dsimp only
  obtain ⟨hstore, hwriter, -, hunwritten, hbegins⟩ :=
    pushNext_frame
      { s with backend := { s.backend with store := s.backend.store.expired s.backend.clock } }
      (s.nextDue due) (s.backend.store.overdue s.backend.clock)
  refine .acts hidle hwriter ?_ ?_ ⟨hbegins.sending, hbegins.offered⟩
  · rw [hstore, nextStore, haction]
    rfl
  · rw [hunwritten, makes, haction]
    exact (Backend.map_response_offerAll .reliable s.backend.offered _).symm

/-- The monitor polls the send of a push. -/
theorem move_push {next send : Nat} {response : Response} {pushes : List Response}
    (h : s.monitor = .pushing next send (response :: pushes)) :
    Move c s .monitor (s.push c next send response pushes).1 := by
  have hsending : s.sending? .monitor = some (send, response) := by rw [sending?, h]
  have hunwritten : s.unwritten .monitor = response :: pushes := by rw [unwritten, h]
  unfold push
  split
  · next w hpoll =>
    exact .goesOn send response hsending (congrArg Prod.snd hpoll)
      (by rw [congrArg Prod.fst hpoll]; rfl)
  · next w hpoll =>
    obtain ⟨hstore, hwriter, -, hpushes, hbegins⟩ :=
      pushNext_frame { s with writer := w } next pushes
    refine .ends send response (.ok ()) hsending (congrArg Prod.snd hpoll) ?_ hstore ?_
      ⟨hbegins.sending, hbegins.offered⟩
    · rw [congrArg Prod.fst hpoll]
      exact hwriter
    · rw [hunwritten]
      exact congrArg _ hpushes.symm
  · next w fault hpoll =>
    obtain ⟨hstore, hwriter, -, hpushes, hbegins⟩ :=
      pushNext_frame (log { s with writer := w } [.pushLost response.tag fault]) next pushes
    refine .ends send response (.error fault) hsending (congrArg Prod.snd hpoll) ?_ hstore ?_
      ⟨hbegins.sending, hbegins.offered⟩
    · rw [congrArg Prod.fst hpoll]
      exact hwriter
    · rw [hunwritten]
      exact congrArg _ hpushes.symm

/-- **A step of the monitor.** -/
theorem move_monitorStep (hopen : s.writer.cancelled = false) :
    Move c s .monitor (s.monitorStep c).1 := by
  unfold monitorStep
  split
  · next hm =>
    have hidle : s.unwritten .monitor = [] := by rw [unwritten, hm]
    exact .of_idle c hidle (by rw [action?, hm]) rfl rfl hidle
  · next hcancelled _ => exact absurd (hopen.symm.trans hcancelled) Bool.false_ne_true
  · next due hm _ =>
    split
    · next hearly =>
      have hidle : s.unwritten .monitor = [] := by rw [unwritten, hm]
      exact .of_idle c hidle (by rw [action?, hm]; exact if_pos hearly) rfl rfl hidle
    · next hdue => exact move_sweep c hm hdue
  · next hm _ => exact .of_idle c (by rw [unwritten, hm]) (by rw [action?, hm]) rfl rfl rfl
  · next hm _ => exact move_push c hm

end Monitor

variable {s : Service}

/-- **One step** of a task on a link that is not cancelled. -/
theorem move_step (c : Channel) (hopen : s.writer.cancelled = false) (τ : Task) :
    Move c s τ (s.step c τ).1 := by
  cases τ with
  | receiver => exact move_receiverStep c hopen
  | monitor => exact move_monitorStep c hopen

/-- The table after a step. -/
theorem store_step (c : Channel) (hopen : s.writer.cancelled = false) (τ : Task) :
    (s.step c τ).1.backend.store = s.nextStore τ := by
  cases move_step c hopen τ with
  | acts _ _ store _ _ => exact store
  | goesOn send r sending _ same =>
    rw [same, nextStore, (of_sending? sending).2]
  | ends send r _ sending _ _ store _ _ =>
    rw [store, nextStore, (of_sending? sending).2]

/-- A step cancels nothing. -/
theorem isOpen_step (c : Channel) (hopen : s.writer.cancelled = false) (τ : Task) :
    (s.step c τ).1.writer.cancelled = false := by
  cases move_step c hopen τ with
  | acts _ writer _ _ _ => rw [writer, hopen]
  | goesOn send r _ _ same =>
    rw [same]
    exact (SharedWriter.cancelled_poll c s.writer send r.encode).trans hopen
  | ends send r _ _ _ writer _ _ _ =>
    rw [writer]
    exact (SharedWriter.cancelled_poll c s.writer send r.encode).trans hopen

/-- A step of one task leaves the other one as it is. -/
theorem step_of_ne (c : Channel) (s : Service) {τ υ : Task} (h : υ ≠ τ) :
    (s.step c τ).1.sending? υ = s.sending? υ ∧ (s.step c τ).1.unwritten υ = s.unwritten υ := by
  cases τ with
  | receiver =>
    cases υ with
    | receiver => exact absurd rfl h
    | monitor =>
      unfold sending? unwritten
      rw [step, monitor_receiverStep]
      exact ⟨rfl, rfl⟩
  | monitor =>
    cases υ with
    | receiver =>
      unfold sending? unwritten
      rw [step, receiver_monitorStep]
      exact ⟨rfl, rfl⟩
    | monitor => exact absurd rfl h

end Service

end TagRental
