import TagRental.Link.Receive
import TagRental.Proofs.Gateway.Lines
import TagRental.Proofs.Link.Growth
import TagRental.Proofs.Rental.Occasions

/-!
# What the receive loop comes to

The receive loop has a framer, a delay and a kind of link, and it takes chunks, ends and failures in
any order.  This file proves that none of that is seen from outside: as long as nobody cancels it,
the loop does what the backend does when it is handed the lines of the stream one after another,
each once.

## What one read does

An *arrival* either leaves the loop reading (`Run.arrive_of_carriesOn`), and then the backend has
handled the frames that the framer found in it, or it ends the loop, and then nothing was handled
(`Run.arrive_of_exit`).  Only a connection is ended, and only by an end or a failure; on a
persistent line these make the loop rest, and the framer, which is all that remembers an unfinished
line, is not touched.

A cancellation is not left out of this but kept apart: the frames of a read are all handled, or the
loop is stopped behind some of them (`Run.handleFrames_cut`, `Run.arrive_cut`), and where nobody
cancels, nothing stops it (`Run.not_stopped`).

## What a run does

`Run.Heard` relates the run before some chunks to the run after them: the framer has taken in these
chunks and the backend has handled, in order, the frames that they brought.  It holds of no chunks
and is closed under appending, so it holds of every run by induction on the arrivals
(`Run.follow_arrivals`).

The main result (`receive_lines`) is about the run that the loop returns.  What the framer makes of
chunks is known; a loop that is left returns the run at that point, and one that reads on returns a
run in which what was offered so far comes first (`Run.goesOn_follow`).

What becomes of an answer is the outlet's business throughout: the outlet is any function of the
answer and its number, and neither the table nor the later answers depend on it.
-/

namespace TagRental

/-! ## Frames, one after another -/

/-- Nobody cancels the loop, neither between two steps nor while an answer is being written. -/
structure Surroundings.Uncancelled (s : Surroundings) : Prop where
  fired : ∀ p, s.fired p = false
  abandoned : ∀ n r, s.abandoned n r = false

namespace Surroundings.Uncancelled

variable {s : Surroundings} (hs : s.Uncancelled)
include hs

theorem not_fired {p : Progress} : ¬s.fired p = true := by
  rw [hs.fired]
  exact Bool.false_ne_true

theorem not_abandoned {n : Nat} {r : Response} : ¬s.abandoned n r = true := by
  rw [hs.abandoned]
  exact Bool.false_ne_true

end Surroundings.Uncancelled

namespace Backend

/-- The offers that the backend makes while it handles frames one after another. -/
def offersFor (outlet : Outlet) (b : Backend) (frames : List Bytes) : List Offer :=
  (b.run outlet (frames.map .frame)).flatMap Outcome.offers

/-- The backend when it has handled frames one after another. -/
def afterFrames (outlet : Outlet) (b : Backend) (frames : List Bytes) : Backend :=
  b.after outlet (frames.map .frame)

variable (outlet : Outlet) (b : Backend)

@[simp] theorem offersFor_nil : b.offersFor outlet [] = [] := rfl

theorem offersFor_cons (frame : Bytes) (frames : List Bytes) :
    b.offersFor outlet (frame :: frames) =
      (b.handleFrame outlet frame).offers ++
        (b.handleFrame outlet frame).backend.offersFor outlet frames := by
  rw [offersFor, List.map_cons, run, List.flatMap_cons]
  rfl

theorem afterFrames_cons (frame : Bytes) (frames : List Bytes) :
    b.afterFrames outlet (frame :: frames) =
      (b.handleFrame outlet frame).backend.afterFrames outlet frames := rfl

theorem afterFrames_append (xs ys : List Bytes) :
    b.afterFrames outlet (xs ++ ys) = (b.afterFrames outlet xs).afterFrames outlet ys := by
  rw [afterFrames, List.map_append, after_append]
  rfl

theorem offersFor_append (xs ys : List Bytes) :
    b.offersFor outlet (xs ++ ys) =
      b.offersFor outlet xs ++ (b.afterFrames outlet xs).offersFor outlet ys := by
  induction xs generalizing b with
  | nil => rfl
  | cons x xs ih =>
    rw [List.cons_append, offersFor_cons, offersFor_cons, ih, List.append_assoc, afterFrames_cons]

/-- A frame is answered once or not at all. -/
theorem offers_handleFrame_cases (frame : Bytes) :
    (b.handleFrame outlet frame).offers = [] ∨ ∃ o, (b.handleFrame outlet frame).offers = [o] := by
  unfold handleFrame
  dsimp only
  split
  · exact Or.inl rfl
  · split
    · exact Or.inr ⟨_, rfl⟩
    · exact Or.inr ⟨_, rfl⟩

end Backend

namespace Run

/-! ## Offering an answer changes little -/

section Offer

variable (r : Run) (o : Offer)

@[simp] theorem backend_offer : (r.offer o).backend = r.backend := by
  unfold offer; dsimp only; split <;> rfl

@[simp] theorem offers_offer : (r.offer o).offers = o :: r.offers := by
  unfold offer; dsimp only; split <;> rfl

@[simp] theorem frames_offer : (r.offer o).progress.frames = r.progress.frames := by
  unfold offer; dsimp only; split <;> rfl

@[simp] theorem count_offer : (r.offer o).progress.offers = r.progress.offers + 1 := by
  unfold offer; dsimp only; split <;> rfl

@[simp] theorem loop_offer : (r.offer o).loop = r.loop := by
  unfold offer; dsimp only; split <;> rfl

end Offer

/-- From `r` to `r'` the backend has handled some frames, in order and each once. -/
structure Handled (outlet : Outlet) (frames : List Bytes) (r r' : Run) : Prop where
  backend : r'.backend = r.backend.afterFrames outlet frames
  offers : r'.offers.reverse = r.offers.reverse ++ r.backend.offersFor outlet frames
  count : r'.progress.frames = r.progress.frames + frames.length

namespace Handled

variable {outlet : Outlet} {r r' r'' : Run}

protected theorem refl (outlet : Outlet) (r : Run) : Handled outlet [] r r :=
  ⟨rfl, (List.append_nil _).symm, rfl⟩

protected theorem trans {xs ys : List Bytes} (h : Handled outlet xs r r')
    (h' : Handled outlet ys r' r'') : Handled outlet (xs ++ ys) r r'' where
  backend := by rw [h'.backend, h.backend, Backend.afterFrames_append]
  offers := by rw [h'.offers, h.offers, h.backend, Backend.offersFor_append, List.append_assoc]
  count := by rw [h'.count, h.count, List.length_append, Nat.add_assoc]

end Handled

/-- From `r` to `r'` the backend has begun to handle some frames, in order and each once.  Nothing
is said of what became of their answers. -/
structure Begun (outlet : Outlet) (frames : List Bytes) (r r' : Run) : Prop where
  backend : r'.backend = r.backend.afterFrames outlet frames
  responses : r'.offers.reverse.map Offer.response =
    r.offers.reverse.map Offer.response ++ (r.backend.offersFor outlet frames).map Offer.response
  count : r'.progress.frames = r.progress.frames + frames.length

theorem Handled.begun {outlet : Outlet} {frames : List Bytes} {r r' : Run}
    (h : Handled outlet frames r r') : Begun outlet frames r r' where
  backend := h.backend
  responses := by rw [h.offers, List.map_append]
  count := h.count

namespace Begun

variable {outlet : Outlet} {r r' r'' : Run}

protected theorem refl (outlet : Outlet) (r : Run) : Begun outlet [] r r :=
  (Handled.refl outlet r).begun

protected theorem trans {xs ys : List Bytes} (h : Begun outlet xs r r')
    (h' : Begun outlet ys r' r'') :
    Begun outlet (xs ++ ys) r r'' where
  backend := by rw [h'.backend, h.backend, Backend.afterFrames_append]
  responses := by
    rw [h'.responses, h.responses, h.backend, Backend.offersFor_append, List.map_append,
      List.append_assoc]
  count := by rw [h'.count, h.count, List.length_append, Nat.add_assoc]

end Begun

/-- The answer to the last of some frames was given up: the cancellation fired while it was
written. -/
def GivenUp (s : Surroundings) (frames : List Bytes) (r r' : Run) : Prop :=
  ∃ earlier frame p n, frames = earlier ++ [frame] ∧
    ((r.backend.afterFrames s.outlet earlier).handleFrame s.outlet frame).offers.map
        Offer.response =
      [p] ∧
    r'.offers.head? = some ⟨p, some .cancelled⟩ ∧ r'.progress.offers = n + 1 ∧
      s.abandoned n p = true

/-- The cancellation has stopped the loop: it had fired when the loop asked, or the answer to the
last of the frames was given up. -/
def Stopped (s : Surroundings) (frames : List Bytes) (r r' : Run) : Prop :=
  s.fired r'.progress = true ∨ GivenUp s frames r r'

variable {s : Surroundings}

/-- The run when the answer to a frame was offered, whatever became of it. -/
theorem offer_carriedOut (s : Surroundings) (r : Run) (frame : Bytes) (notices : List Notice)
    (o : Offer) :
    let r' := ((r.carriedOut s frame).log notices).offer o
    r'.backend = r.backend.afterFrames s.outlet [frame] ∧
      r'.offers.reverse = r.offers.reverse ++ [o] ∧
      r'.progress.frames = r.progress.frames + 1 ∧ r'.progress.offers = r.progress.offers + 1 ∧
      r'.loop = r.loop := by
  intro r'
  refine ⟨?_, ?_, ?_, ?_, ?_⟩
  · rw [backend_offer]
    rfl
  · rw [offers_offer, List.reverse_cons]
    rfl
  · rw [frames_offer]
    rfl
  · rw [count_offer]
    rfl
  · rw [loop_offer]
    rfl

/-- One frame: the loop is cancelled in front of it, or while its answer is being written, or it is
handled and the rest of them follow. -/
theorem handleFrames_cons_cases (s : Surroundings) (r : Run) (frame : Bytes) (frames : List Bytes) :
    (s.fired r.progress = true ∧ r.handleFrames s (frame :: frames) = (r, true)) ∨
      (∃ r', Begun s.outlet [frame] r r' ∧ r'.loop = r.loop ∧ GivenUp s [frame] r r' ∧
        r.handleFrames s (frame :: frames) = (r', true)) ∨
      ∃ r', Handled s.outlet [frame] r r' ∧ r'.loop = r.loop ∧
        r.handleFrames s (frame :: frames) = r'.handleFrames s frames := by
  by_cases hfired : s.fired r.progress = true
  · exact Or.inl ⟨hfired, by rw [handleFrames, if_pos hfired]⟩
  refine Or.inr ?_
  have hoffers := Backend.offersFor_cons s.outlet r.backend frame []
  rw [Backend.offersFor_nil, List.append_nil] at hoffers
  rw [handleFrames, if_neg hfired]
  dsimp only
  rcases r.backend.offers_handleFrame_cases s.outlet frame with hnone | ⟨o, hone⟩
  · -- the frame is dropped, and there is nothing to wait for
    rw [hnone] at hoffers ⊢
    dsimp only
    refine Or.inr ⟨_, ⟨rfl, ?_, rfl⟩, ?_, rfl⟩
    · rw [hoffers, List.append_nil]
      rfl
    · rfl
  · rw [hone] at hoffers ⊢
    dsimp only
    by_cases habandoned : s.abandoned r.progress.offers o.response = true
    · obtain ⟨hbackend, hoffered, hframes, hcount, hloop⟩ :=
        offer_carriedOut s r frame (r.backend.noticesBeforeOffer frame)
          ⟨o.response, some .cancelled⟩
      rw [if_pos habandoned]
      refine Or.inl ⟨_, ⟨hbackend, ?_, hframes⟩, hloop, ?_, rfl⟩
      · rw [hoffered, hoffers, List.map_append]
        rfl
      · refine ⟨[], frame, o.response, r.progress.offers, rfl,
          congrArg (List.map Offer.response) hone, ?_, hcount, habandoned⟩
        rw [← List.getLast?_reverse, hoffered, List.getLast?_concat]
    · obtain ⟨hbackend, hoffered, hframes, -, hloop⟩ :=
        offer_carriedOut s r frame (r.backend.handleFrame s.outlet frame).notices o
      rw [if_neg habandoned]
      refine Or.inr ⟨_, ⟨hbackend, ?_, hframes⟩, hloop, rfl⟩
      rw [hoffered, hoffers]

/-- What has stopped the loop is the same, seen from further back. -/
theorem Stopped.after {xs ys : List Bytes} (h : Begun s.outlet xs r r') (h' : Stopped s ys r' r'') :
    Stopped s (xs ++ ys) r r'' := by
  refine h'.imp_right ?_
  rintro ⟨earlier, frame, p, n, rfl, hanswer, hgiven⟩
  refine ⟨xs ++ earlier, frame, p, n, (List.append_assoc _ _ _).symm, ?_, hgiven⟩
  rw [Backend.afterFrames_append, ← h.backend]
  exact hanswer

/-- **The frames of one read**: all of them are handled, or the loop is stopped behind some of
them. -/
theorem handleFrames_cut (s : Surroundings) (r : Run) (frames : List Bytes) :
    ∃ r', r'.loop = r.loop ∧
      ((Handled s.outlet frames r r' ∧ r.handleFrames s frames = (r', false)) ∨
        ∃ begun left, frames = begun ++ left ∧ Begun s.outlet begun r r' ∧ Stopped s begun r r' ∧
          r.handleFrames s frames = (r', true)) := by
  induction frames generalizing r with
  | nil => exact ⟨r, rfl, Or.inl ⟨.refl s.outlet r, rfl⟩⟩
  | cons frame frames ih =>
    rcases handleFrames_cons_cases s r frame frames with ⟨hfired, hcut⟩ |
      ⟨r₁, hbegun, hloop, hgiven, hcut⟩ | ⟨r₁, hhandled, hloop, hstep⟩
    · exact ⟨r, rfl, Or.inr ⟨[], _, rfl, .refl s.outlet r, Or.inl hfired, hcut⟩⟩
    · exact ⟨r₁, hloop, Or.inr ⟨[frame], frames, rfl, hbegun, Or.inr hgiven, hcut⟩⟩
    · obtain ⟨r₂, hloop', hall | ⟨begun, left, rfl, hbegun, hstopped, hcut⟩⟩ := ih r₁
      · exact ⟨r₂, hloop'.trans hloop, Or.inl ⟨hhandled.trans hall.1, hstep.trans hall.2⟩⟩
      · exact ⟨r₂, hloop'.trans hloop, Or.inr ⟨frame :: begun, left, rfl,
          hhandled.begun.trans hbegun, hstopped.after hhandled.begun, hstep.trans hcut⟩⟩

/-- Where nobody cancels, nothing stops the loop. -/
theorem not_stopped (hs : s.Uncancelled) {frames : List Bytes} {r r' : Run} :
    ¬Stopped s frames r r' := by
  rintro (hfired | ⟨_, _, _, _, -, -, -, -, habandoned⟩)
  · exact hs.not_fired hfired
  · exact hs.not_abandoned habandoned

end Run

/-! ## One arrival -/

namespace Framer

theorem feedAll_append (f : Framer) (xs ys : List Bytes) :
    (f.feedAll (xs ++ ys)).frames =
        (f.feedAll xs).frames ++ ((f.feedAll xs).next.feedAll ys).frames ∧
      (f.feedAll (xs ++ ys)).next = ((f.feedAll xs).next.feedAll ys).next := by
  induction xs generalizing f with
  | nil => exact ⟨rfl, rfl⟩
  | cons x xs ih =>
    obtain ⟨hframes, hnext⟩ := ih (f.feed x).next
    simp only [List.cons_append, feedAll, hframes, hnext, List.append_assoc, and_self]

end Framer

namespace Arrival

/-- The bytes of a chunk. -/
def bytes? : Arrival → Option Bytes
  | .chunk bytes => some bytes
  | .ended => none
  | .failed _ => none

/-- How a connection is left at an arrival. -/
def exit? : Arrival → Option (Except LinkFault ReceiveExit)
  | .chunk _ => none
  | .ended => some (.ok .closed)
  | .failed reason => some (.error (.read reason))

/-- The arrival as the other side of the link causes it. -/
def happening : Arrival → Happening
  | .chunk bytes => .data bytes
  | .ended => .ended
  | .failed reason => .failed reason

end Arrival

namespace Run

/-- From `r` to `r'` the loop has read some chunks, and the backend has handled the frames that the
framer found in them. -/
structure Heard (outlet : Outlet) (chunks : List Bytes) (r r' : Run) : Prop where
  handled : Handled outlet (r.loop.framer.feedAll chunks).frames r r'
  framer : r'.loop.framer = (r.loop.framer.feedAll chunks).next
  kind : r'.loop.kind = r.loop.kind

namespace Heard

variable {outlet : Outlet} {r r' r'' : Run}

protected theorem trans {xs ys : List Bytes} (h : Heard outlet xs r r')
    (h' : Heard outlet ys r' r'') :
    Heard outlet (xs ++ ys) r r'' := by
  obtain ⟨hframes, hnext⟩ := r.loop.framer.feedAll_append xs ys
  have hhandled := h'.handled
  rw [h.framer] at hhandled
  refine ⟨?_, ?_, ?_⟩
  · rw [hframes]
    exact h.handled.trans hhandled
  · rw [h'.framer, h.framer, hnext]
  · rw [h'.kind, h.kind]

/-- Nothing was read: the run has only noted something. -/
theorem of_same (hbackend : r'.backend = r.backend) (hoffers : r'.offers = r.offers)
    (hframes : r'.progress.frames = r.progress.frames) (hframer : r'.loop.framer = r.loop.framer)
    (hkind : r'.loop.kind = r.loop.kind) : Heard outlet [] r r' := by
  refine ⟨⟨hbackend, ?_, hframes⟩, hframer, hkind⟩
  rw [hoffers]
  exact (List.append_nil _).symm

protected theorem refl (outlet : Outlet) (r : Run) : Heard outlet [] r r :=
  of_same rfl rfl rfl rfl rfl

end Heard

/-- The arrival does not end the loop. -/
def CarriesOn (r : Run) (a : Arrival) : Prop := r.loop.kind = .persistent ∨ a.exit? = none

/-- What was handled of the frames of a chunk, seen from the run before the chunk. -/
theorem heard_of_handled_takenIn {outlet : Outlet} {r r' : Run} {bytes : Bytes}
    (h : Handled outlet (r.loop.framer.feed bytes).frames (r.takenIn bytes) r')
    (hloop : r'.loop = (r.takenIn bytes).loop) : Heard outlet [bytes] r r' := by
  have hfed : (r.loop.framer.feedAll [bytes]).frames = (r.loop.framer.feed bytes).frames :=
    List.append_nil _
  refine ⟨⟨?_, ?_, ?_⟩, ?_, ?_⟩
  · rw [h.backend, hfed]
    rfl
  · rw [h.offers, hfed]
    rfl
  · rw [h.count, hfed]
    rfl
  · rw [hloop]
    rfl
  · rw [hloop]
    rfl

/-- An end or a failure of a persistent line: the loop rests and reads on. -/
theorem arrive_of_rest (s : Surroundings) {r : Run} {a : Arrival}
    (hkind : r.loop.kind = .persistent) (h : a.bytes? = none) :
    ∃ r', Heard s.outlet [] r r' ∧ r.arrive s a = (r', none) := by
  cases a with
  | chunk bytes => cases h
  | ended =>
    unfold arrive
    simp only [Loop.react, see, hkind]
    refine ⟨_, ?_, rfl⟩
    exact .of_same rfl rfl rfl rfl rfl
  | failed reason =>
    unfold arrive
    simp only [Loop.react, see, hkind]
    refine ⟨_, ?_, rfl⟩
    exact .of_same rfl rfl rfl rfl rfl

/-- **An arrival**: the frames that it brings are handled and the loop reads on, or the loop is
stopped behind some of them. -/
theorem arrive_cut (s : Surroundings) {r : Run} {a : Arrival} (h : r.CarriesOn a) :
    (∃ r', Heard s.outlet a.bytes?.toList r r' ∧ r.arrive s a = (r', none)) ∨
      ∃ r' begun left, (r.loop.framer.feedAll a.bytes?.toList).frames = begun ++ left ∧
        Begun s.outlet begun r r' ∧ Stopped s begun r r' ∧
        r.arrive s a = (r', some (.ok .cancelled)) := by
  cases a with
  | chunk bytes =>
    obtain ⟨r', hloop, ⟨hhandled, hframes⟩ | ⟨begun, left, hsplit, hbegun, hstopped, hcut⟩⟩ :=
      handleFrames_cut s (r.takenIn bytes) (r.loop.framer.feed bytes).frames
    · refine Or.inl ⟨r', heard_of_handled_takenIn hhandled hloop, ?_⟩
      rw [arrive_chunk_eq, hframes]
    · refine Or.inr ⟨r', begun, left, ?_, ?_, hstopped, ?_⟩
      · exact (List.append_nil _).trans hsplit
      · exact ⟨hbegun.backend, hbegun.responses, hbegun.count⟩
      · rw [arrive_chunk_eq, hcut]
  | ended => exact Or.inl (arrive_of_rest s (h.resolve_right (Option.some_ne_none _)) rfl)
  | failed reason => exact Or.inl (arrive_of_rest s (h.resolve_right (Option.some_ne_none _)) rfl)

/-- **An arrival that does not end the loop**: the frames in it, if it is a chunk, are handled, and
the loop reads on. -/
theorem arrive_of_carriesOn (hs : s.Uncancelled) {r : Run} {a : Arrival} (h : r.CarriesOn a) :
    ∃ r', Heard s.outlet a.bytes?.toList r r' ∧ r.arrive s a = (r', none) := by
  rcases arrive_cut s h with hgoesOn | ⟨_, _, _, -, -, hstopped, -⟩
  · exact hgoesOn
  · exact absurd hstopped (not_stopped hs)

/-- **An arrival that ends the loop**: nothing is handled, and the loop is left. -/
theorem arrive_of_exit {r : Run} {a : Arrival} {exit : Except LinkFault ReceiveExit}
    (hkind : r.loop.kind = .connection) (h : a.exit? = some exit) :
    ∃ r', Heard s.outlet [] r r' ∧ r.arrive s a = (r', some exit) := by
  cases a with
  | chunk bytes => cases h
  | ended =>
    cases h
    unfold arrive
    simp only [Loop.react, see, hkind]
    refine ⟨_, ?_, rfl⟩
    exact .of_same rfl rfl rfl rfl rfl
  | failed reason =>
    cases h
    unfold arrive
    simp only [Loop.react, see, hkind]
    refine ⟨_, ?_, rfl⟩
    exact .of_same rfl rfl rfl rfl rfl

end Run

/-! ## Many arrivals -/

namespace LinkKind

/-- The chunks among some arrivals that a loop reads: all of them on a persistent line, and on a
connection those in front of the first end or failure. -/
def heard : LinkKind → List Arrival → List Bytes
  | .persistent, events => events.filterMap Arrival.bytes?
  | .connection, events =>
    (events.takeWhile fun a => a.exit?.isNone).filterMap Arrival.bytes?

/-- How a loop ends within some arrivals, if it does: a persistent line is never left, and a
connection is left at the first end or failure. -/
def exit? : LinkKind → List Arrival → Option (Except LinkFault ReceiveExit)
  | .persistent, _ => none
  | .connection, events => events.findSome? Arrival.exit?

/-- An arrival that does not end the loop is let through, and what follows it decides. -/
theorem heard_cons_of_carriesOn (kind : LinkKind) {a : Arrival} (events : List Arrival)
    (h : kind = .persistent ∨ a.exit? = none) :
    kind.heard (a :: events) = a.bytes?.toList ++ kind.heard events ∧
      kind.exit? (a :: events) = kind.exit? events := by
  have hfilter : ∀ rest : List Arrival,
      (a :: rest).filterMap Arrival.bytes? = a.bytes?.toList ++ rest.filterMap Arrival.bytes? := by
    intro rest
    rw [List.filterMap_cons]
    cases a.bytes? <;> rfl
  cases kind with
  | persistent => exact ⟨hfilter events, rfl⟩
  | connection =>
    have hexit : a.exit? = none := h.resolve_left LinkKind.noConfusion
    constructor
    · rw [heard, List.takeWhile_cons_of_pos (by rw [hexit]; rfl), hfilter]
      rfl
    · rw [exit?, List.findSome?_cons_of_isNone (by rw [hexit]; rfl)]
      rfl

/-- An arrival that ends a connection is the last that the loop looks at. -/
theorem heard_cons_of_exit {a : Arrival} (events : List Arrival)
    {exit : Except LinkFault ReceiveExit} (h : a.exit? = some exit) :
    connection.heard (a :: events) = [] ∧ connection.exit? (a :: events) = some exit := by
  constructor
  · rw [heard, List.takeWhile_cons_of_neg (by rw [h]; exact Bool.false_ne_true)]
    rfl
  · rw [exit?, List.findSome?_cons, h]

end LinkKind

namespace Run

/-- One arrival at the front of a script, when nobody cancels. -/
theorem follow_happening (hs : s.Uncancelled) (r : Run) (a : Arrival) (later : List Happening) :
    r.follow s (a.happening :: later) =
      match r.arrive s a with
      | (r, some exit) => r.leave exit
      | (r, none) => r.follow s later := by
  cases a with
  | chunk bytes => exact if_neg hs.not_fired
  | ended => exact if_neg hs.not_fired
  | failed reason => exact if_neg hs.not_fired

/-- The end of a script, when nobody has cancelled the loop before. -/
theorem follow_nil (hs : s.Uncancelled) (r : Run) :
    r.follow s [] = (r.see .cancelled).leave (.ok .cancelled) := if_neg hs.not_fired

/-- **Arrivals, one after another.**  When nobody cancels, the loop has read the chunks that its
kind of link lets through; then it is left, or it has read all there was and reads on with whatever
comes later. -/
theorem follow_arrivals (hs : s.Uncancelled) (r : Run) (events : List Arrival) :
    ∃ r', Heard s.outlet (r.loop.kind.heard events) r r' ∧
      (r.loop.kind.exit? events = none →
        r'.progress.reads = r.progress.reads + events.length) ∧
      ∀ later, r.follow s (events.map Arrival.happening ++ later) =
        match r.loop.kind.exit? events with
        | some exit => r'.leave exit
        | none => r'.follow s later := by
  induction events generalizing r with
  | nil =>
    refine ⟨r, ?_, fun _ => rfl, ?_⟩
    · cases r.loop.kind <;> exact .refl s.outlet r
    · intro later
      cases r.loop.kind <;> rfl
  | cons a events ih =>
    by_cases h : r.CarriesOn a
    · obtain ⟨r₁, hheard, harrive⟩ := arrive_of_carriesOn hs h
      obtain ⟨r₂, hheard', hreads, hfollow⟩ := ih r₁
      obtain ⟨hchunks, hexit⟩ := r.loop.kind.heard_cons_of_carriesOn events h
      have hone : r₁.progress.reads = r.progress.reads + 1 := by
        have hread := (goesOn_arrive s r a).reads
        rwa [harrive] at hread
      rw [hheard.kind] at hheard' hreads hfollow
      refine ⟨r₂, ?_, ?_, ?_⟩
      · rw [hchunks]
        exact hheard.trans hheard'
      · intro hopen
        rw [hreads (hexit.symm.trans hopen), hone, List.length_cons]
        omega
      · intro later
        rw [List.map_cons, List.cons_append, follow_happening hs, harrive, hexit]
        exact hfollow later
    · -- only a connection is left, and then nothing behind the arrival counts
      obtain ⟨hkind, hsome⟩ := not_or.mp h
      have hkind : r.loop.kind = .connection := by
        cases hk : r.loop.kind with
        | persistent => exact absurd hk hkind
        | connection => rfl
      obtain ⟨exit, hexit⟩ := Option.ne_none_iff_exists'.mp hsome
      obtain ⟨r₁, hheard, harrive⟩ := arrive_of_exit hkind hexit
      obtain ⟨hchunks, hleft⟩ := LinkKind.heard_cons_of_exit events hexit
      refine ⟨r₁, ?_, ?_, ?_⟩
      · rw [hkind, hchunks]
        exact hheard
      · rw [hkind, hleft]
        exact nofun
      · intro later
        rw [List.map_cons, List.cons_append, follow_happening hs, harrive, hkind, hleft]

end Run

/-! ## A script -/

/-- A chunk that one read can take is one piece. -/
theorem pieces_of_length_le {n : Nat} {bytes : Bytes} (hpos : 1 ≤ bytes.length)
    (hle : bytes.length ≤ n) : pieces n bytes = [bytes] := by
  have hempty : pieces n [] = [] := by
    rw [pieces, dif_neg fun h => Nat.lt_irrefl 0 h.2]
  rw [pieces, dif_pos ⟨Nat.le_trans hpos hle, hpos⟩, List.take_of_length_le hle,
    List.drop_eq_nil_of_le hle, hempty]

/-- Arrivals that are single reads stay what they are. -/
theorem reads_happening {events : List Arrival}
    (h : ∀ bytes, Arrival.chunk bytes ∈ events → 1 ≤ bytes.length ∧ bytes.length ≤ Loop.readSize) :
    (events.map Arrival.happening).flatMap Happening.reads = events.map Arrival.happening := by
  induction events with
  | nil => rfl
  | cons a events ih =>
    have hrest := ih fun bytes hbytes => h bytes (List.mem_cons_of_mem a hbytes)
    rw [List.map_cons, List.flatMap_cons, hrest]
    cases a with
    | chunk bytes =>
      obtain ⟨hpos, hle⟩ := h bytes List.mem_cons_self
      rw [Arrival.happening, Happening.reads, pieces_of_length_le hpos hle]
      rfl
    | ended => rfl
    | failed reason => rfl

/-- **The receive loop is a fold over lines.**  Let nobody cancel, and let the other side of the
link cause some arrivals, each chunk as large as one read can take.

* If the link is a connection and one of them is an end or a failure, then the loop returns at the
  first of these, whatever would have come later: that the connection was closed at an end, and the
  reason at a failure.
* If none of them ends the loop, as on a persistent line, it does not return before the script does:
  it has read all of them, and then it is told that it is cancelled.  If more comes later instead,
  the answers to the frames of these arrivals come first.

Either way the run that is returned has handled, in order and each once, the frames that the framer
found in the chunks that were read.  If no piece of these bytes is longer than the limit, the frames
are their lines: the table and the offered answers are those of the backend handling one line after
another, whatever the chunks, whatever came between them, and whatever became of the answers. -/
theorem receive_lines {s : Surroundings} (hs : s.Uncancelled) (backend : Backend)
    (settings : ReceiveSettings) (kind : LinkKind) (events : List Arrival)
    (hsize : ∀ bytes, Arrival.chunk bytes ∈ events →
      1 ≤ bytes.length ∧ bytes.length ≤ Loop.readSize) :
    let frames := ((Framer.withLimit settings.limit).feedAll (kind.heard events)).frames
    let pieces := (kind.heard events).flatten.splitOn delimiter
    let returned (later : List Happening) : RunEnd :=
      receive s backend settings kind (events.map Arrival.happening ++ later)
    (∀ exit, kind.exit? events = some exit → ∀ later,
      (returned later).exit = exit ∧
        (returned later).run.backend = backend.afterFrames s.outlet frames ∧
        (returned later).run.offers.reverse = backend.offersFor s.outlet frames ∧
        (returned later).run.progress.frames = frames.length) ∧
      (kind.exit? events = none →
        (returned []).exit = .ok .cancelled ∧
          (returned []).run.progress.reads = events.length ∧
          (returned []).run.backend = backend.afterFrames s.outlet frames ∧
          (returned []).run.offers.reverse = backend.offersFor s.outlet frames ∧
          (returned []).run.progress.frames = frames.length ∧
          ∀ later, events.length ≤ (returned later).run.progress.reads ∧
            backend.offersFor s.outlet frames <+: (returned later).run.offers.reverse) ∧
      ((∀ piece ∈ pieces, piece.length ≤ max settings.limit 1) → frames = pieces.dropLast) := by
  intro frames pieces returned
  obtain ⟨r, hheard, hreads, hfollow⟩ :=
    Run.follow_arrivals hs (Run.start backend settings kind) events
  have hhandled : Run.Handled s.outlet frames (Run.start backend settings kind) r := hheard.handled
  have hcount : r.progress.frames = frames.length := hhandled.count.trans (Nat.zero_add _)
  have hreturned : ∀ later, returned later = match kind.exit? events with
      | some exit => r.leave exit
      | none => r.follow s (later.flatMap Happening.reads) := by
    intro later
    change receive _ _ _ _ _ = _
    rw [receive, List.flatMap_append, reads_happening hsize]
    exact hfollow (later.flatMap Happening.reads)
  refine ⟨?_, ?_, fun hfits => (Framer.feedAll_withLimit hfits).1⟩
  · intro exit hexit later
    rw [hreturned, hexit]
    exact ⟨rfl, hhandled.backend, hhandled.offers, hcount⟩
  · intro hopen
    have hreads : r.progress.reads = events.length := (hreads hopen).trans (Nat.zero_add _)
    have hlast : returned [] = (r.see .cancelled).leave (.ok .cancelled) := by
      rw [hreturned, hopen]
      exact Run.follow_nil hs r
    rw [hlast]
    refine ⟨rfl, hreads, hhandled.backend, hhandled.offers, hcount, ?_⟩
    intro later
    rw [hreturned, hopen]
    obtain ⟨n, hlater⟩ := Run.goesOn_follow s r (later.flatMap Happening.reads)
    refine ⟨?_, ?_⟩
    · rw [hlater.reads, hreads]
      exact Nat.le_add_right _ _
    · have hoffers : r.offers.reverse = backend.offersFor s.outlet frames := hhandled.offers
      rw [← hoffers]
      exact List.reverse_prefix.mpr hlater.offers

/-- Two rentals are started, and every answer is lost.  A persistent line is disturbed in the middle
of the first request and reads to the end of the script; a connection is closed in the middle of the
second request, which has no effect then; and another one fails behind both of them. -/
theorem receive_lines_disturbed :
    let aa : Tag := ⟨[0xAA], by decide, by decide⟩
    let bb : Tag := ⟨[0xBB], by decide, by decide⟩
    let request (tag : String) : Bytes := Utf8.encodeChars (Json.object
      [("cmd", .int 1), ("tag_id", .text tag), ("tag_id_len", .int 1)]).chars
    let line (tag : String) : Bytes := request tag ++ [delimiter]
    let s : Surroundings := ⟨fun _ _ => some .cancelled, fun _ => false, fun _ _ => false⟩
    let backend := Backend.start .usual 1000
    let rest : Arrival := .chunk ((line "aa").drop 9 ++ line "bb" ++ [0x7B])
    let disturbed : List Arrival :=
      [.chunk ((line "aa").take 9), .failed "busy", .ended, rest, .ended]
    let closed : List Arrival :=
      [.chunk (line "aa" ++ (line "bb").take 9), .ended, .chunk (line "bb")]
    let broken : List Arrival := [.chunk ((line "aa").take 9), rest, .failed "gone"]
    let returned (kind : LinkKind) (events : List Arrival) (later : List Happening) : RunEnd :=
      receive s backend .usual kind (events.map Arrival.happening ++ later)
    let standing (e : RunEnd) : List (Option Status) :=
      [aa, bb].map fun tag => (e.run.backend.store.get? tag).map Record.status
    s.Uncancelled ∧
      (∀ events ∈ [disturbed, closed, broken], ∀ bytes, Arrival.chunk bytes ∈ events →
        1 ≤ bytes.length ∧ bytes.length ≤ Loop.readSize) ∧
      ((returned .persistent disturbed []).exit = .ok .cancelled ∧
        (returned .persistent disturbed []).run.progress.reads = 5 ∧
        standing (returned .persistent disturbed []) = [some .rented, some .rented]) ∧
      (∀ later, (returned .connection closed later).exit = .ok .closed ∧
        standing (returned .connection closed later) = [some .rented, none] ∧
        (returned .connection closed later).run.progress.frames = 1) ∧
      ∀ later, (returned .connection broken later).exit = .error (.read "gone") ∧
        standing (returned .connection broken later) = [some .rented, some .rented] ∧
        (returned .connection broken later).run.progress.frames = 2 := by
  intro aa bb request line s backend rest disturbed closed broken returned standing
  have hs : s.Uncancelled := ⟨fun _ => rfl, fun _ _ => rfl⟩
  have hsize : ∀ events ∈ [disturbed, closed, broken], ∀ bytes, Arrival.chunk bytes ∈ events →
      1 ≤ bytes.length ∧ bytes.length ≤ Loop.readSize := by
    have hall : ∀ events ∈ [disturbed, closed, broken], ∀ a ∈ events,
        ∀ bytes ∈ a.bytes?, 1 ≤ bytes.length ∧ bytes.length ≤ Loop.readSize := by decide +kernel
    exact fun events hevents bytes hbytes => hall events hevents _ hbytes bytes rfl
  have hstanding : ∀ (e : RunEnd) (tags : List String),
      e.run.backend = backend.afterFrames s.outlet (tags.map request) →
      standing e = [aa, bb].map fun tag =>
        ((backend.afterFrames s.outlet (tags.map request)).store.get? tag).map Record.status :=
    fun e tags hbackend => by rw [← hbackend]
  refine ⟨hs, hsize, ?_, ?_, ?_⟩
  · obtain ⟨-, hopen, hlines⟩ := receive_lines hs backend .usual .persistent disturbed
      (hsize disturbed (.head _))
    have hframes := (hlines (by decide +kernel)).trans
      (show _ = ["aa", "bb"].map request by decide +kernel)
    rw [hframes] at hopen
    obtain ⟨hexit, hreads, hbackend, -⟩ := hopen rfl
    exact ⟨hexit, hreads, (hstanding _ _ hbackend).trans (by decide +kernel)⟩
  · obtain ⟨hleft, -, hlines⟩ := receive_lines hs backend .usual .connection closed
      (hsize closed (.tail _ (.head _)))
    have hframes := (hlines (by decide +kernel)).trans
      (show _ = ["aa"].map request by decide +kernel)
    rw [hframes] at hleft
    intro later
    obtain ⟨hexit, hbackend, -, hcount⟩ := hleft _ rfl later
    exact ⟨hexit, (hstanding _ _ hbackend).trans (by decide +kernel), hcount⟩
  · obtain ⟨hleft, -, hlines⟩ := receive_lines hs backend .usual .connection broken
      (hsize broken (.tail _ (.tail _ (.head _))))
    have hframes := (hlines (by decide +kernel)).trans
      (show _ = ["aa", "bb"].map request by decide +kernel)
    rw [hframes] at hleft
    intro later
    obtain ⟨hexit, hbackend, -, hcount⟩ := hleft _ rfl later
    exact ⟨hexit, (hstanding _ _ hbackend).trans (by decide +kernel), hcount⟩

end TagRental
