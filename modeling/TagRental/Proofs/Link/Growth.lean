import TagRental.Link.Receive

/-!
# A run only adds

What a run shows of itself is a record.  What was seen stays seen, an answer that was offered stays
offered, and no read is uncounted.  So what holds of this record in the middle of a script holds of
it at the end, as far as it goes: whatever comes later, the run that the loop returns has the
earlier record as a part (`Run.goesOn_follow`).

The relation `Run.GoesOn` counts the reads in between, and they are counted exactly: one at each
arrival, and none while frames are handled.
-/

namespace TagRental
namespace Run

/-- From `r` to `r'` the loop has read `n` times, and nothing that was seen or offered was taken
back. -/
structure GoesOn (n : Nat) (r r' : Run) : Prop where
  seen : r.seen <:+ r'.seen
  offers : r.offers <:+ r'.offers
  reads : r'.progress.reads = r.progress.reads + n

namespace GoesOn

variable {r r' r'' : Run}

/-- Nothing of the record was touched. -/
theorem of_same (hseen : r'.seen = r.seen) (hoffers : r'.offers = r.offers)
    (hreads : r'.progress.reads = r.progress.reads) : GoesOn 0 r r' where
  seen := hseen ▸ List.suffix_rfl
  offers := hoffers ▸ List.suffix_rfl
  reads := hreads

protected theorem refl (r : Run) : GoesOn 0 r r := of_same rfl rfl rfl

protected theorem trans {m n : Nat} (h : GoesOn m r r') (h' : GoesOn n r' r'') :
    GoesOn (m + n) r r'' where
  seen := h.seen.trans h'.seen
  offers := h.offers.trans h'.offers
  reads := by rw [h'.reads, h.reads, Nat.add_assoc]

end GoesOn

theorem goesOn_see (r : Run) (sight : Sight) : GoesOn 0 r (r.see sight) :=
  ⟨List.suffix_cons _ _, List.suffix_rfl, rfl⟩

theorem goesOn_leave (r : Run) (exit : Except LinkFault ReceiveExit) :
    GoesOn 0 r (r.leave exit).run := goesOn_see r .returned

theorem goesOn_offer (r : Run) (o : Offer) : GoesOn 0 r (r.offer o) := by
  unfold offer
  dsimp only
  split
  · exact ⟨List.suffix_cons _ _, List.suffix_cons _ _, rfl⟩
  · exact ⟨List.suffix_rfl, List.suffix_cons _ _, rfl⟩

/-! ## Frames -/

/-- The run when a frame has been handled and nothing was noted or offered yet. -/
def carriedOut (s : Surroundings) (r : Run) (frame : Bytes) : Run :=
  { r with
    backend := (r.backend.handleFrame s.outlet frame).backend
    progress := { r.progress with frames := r.progress.frames + 1 } }

/-- What the handling of one frame does to a run is some commands carried out and some answers
offered.  So a relation that composes, and that each of the two keeps, leads across all of them. -/
theorem handleFrames_relates (s : Surroundings) {R : Run → Run → Prop} (hrefl : ∀ r, R r r)
    (htrans : ∀ {r r' r''}, R r r' → R r' r'' → R r r'')
    (hcarried : ∀ r frame notices, R r ((r.carriedOut s frame).log notices))
    (hoffer : ∀ r o, R r (r.offer o)) (r : Run) (frames : List Bytes) :
    R r (r.handleFrames s frames).1 := by
  induction frames generalizing r with
  | nil => exact hrefl r
  | cons frame frames ih =>
    rw [handleFrames]
    split
    · exact hrefl r
    · dsimp only
      split
      · exact htrans (hcarried r frame _) (ih _)
      · next o _ _ =>
        split
        · exact htrans (hcarried r frame _) (hoffer _ ⟨o.response, some .cancelled⟩)
        · exact htrans (htrans (hcarried r frame _) (hoffer _ o)) (ih _)

/-- Frames are handled without a read. -/
theorem goesOn_handleFrames (s : Surroundings) (r : Run) (frames : List Bytes) :
    GoesOn 0 r (r.handleFrames s frames).1 :=
  handleFrames_relates s .refl (fun h h' => h.trans h') (fun _ _ _ => .of_same rfl rfl rfl)
    goesOn_offer r frames

/-! ## Arrivals -/

/-- The run when a chunk has been taken in and none of its frames has been handled. -/
def takenIn (r : Run) (bytes : Bytes) : Run :=
  let reaction := r.loop.react (.chunk bytes)
  let noted := { r with progress := { r.progress with reads := r.progress.reads + 1 } }.see
    (.read bytes.length)
  { noted with loop := reaction.1 }.log reaction.2.2

/-- A chunk: the framer takes it in, and then its frames are handled. -/
theorem arrive_chunk_eq (s : Surroundings) (r : Run) (bytes : Bytes) :
    r.arrive s (.chunk bytes) =
      match (r.takenIn bytes).handleFrames s (r.loop.framer.feed bytes).frames with
      | (r, true) => (r, some (.ok .cancelled))
      | (r, false) => (r, none) := rfl

theorem fst_arrive_chunk (s : Surroundings) (r : Run) (bytes : Bytes) :
    (r.arrive s (.chunk bytes)).1 =
      ((r.takenIn bytes).handleFrames s (r.loop.framer.feed bytes).frames).1 := by
  rw [arrive_chunk_eq]
  split <;> next heq => rw [heq]

/-- **An arrival is one read.** -/
theorem goesOn_arrive (s : Surroundings) (r : Run) (a : Arrival) :
    GoesOn 1 r (r.arrive s a).1 := by
  cases a with
  | chunk bytes =>
    have htaken : GoesOn 1 r (r.takenIn bytes) := ⟨List.suffix_cons _ _, List.suffix_rfl, rfl⟩
    rw [fst_arrive_chunk]
    exact htaken.trans (goesOn_handleFrames s _ _)
  | ended | failed =>
    unfold arrive
    cases hkind : r.loop.kind <;> simp only [Loop.react, see, hkind] <;>
      exact ⟨List.suffix_cons _ _, List.suffix_rfl, rfl⟩

/-- **Whatever comes later**, the run that the loop returns goes on from where it was. -/
theorem goesOn_follow (s : Surroundings) (r : Run) (script : List Happening) :
    ∃ n, GoesOn n r (r.follow s script).run := by
  induction script generalizing r with
  | nil =>
    unfold follow
    split
    · exact ⟨0, goesOn_leave r _⟩
    · exact ⟨0, (goesOn_see r .cancelled).trans (goesOn_leave _ _)⟩
  | cons h script ih =>
    have hread (a : Arrival) (e : RunEnd)
        (hleft : ∀ r' exit, r.arrive s a = (r', some exit) → e = r'.leave exit)
        (hlater : ∀ r', r.arrive s a = (r', none) → e = r'.follow s script) :
        ∃ n, GoesOn n r e.run := by
      have harrive := goesOn_arrive s r a
      rcases hr' : r.arrive s a with ⟨r', outcome⟩
      rw [hr'] at harrive
      cases outcome with
      | some exit =>
        rw [hleft r' exit hr']
        exact ⟨_, harrive.trans (goesOn_leave r' exit)⟩
      | none =>
        obtain ⟨n, hrest⟩ := ih r'
        rw [hlater r' hr']
        exact ⟨_, harrive.trans hrest⟩
    unfold follow
    split
    · exact ⟨0, goesOn_leave r _⟩
    · cases h with
      | data bytes =>
        exact hread (.chunk bytes) _ (fun _ _ hr' => by simp only [hr'])
          (fun _ hr' => by simp only [hr'])
      | ended =>
        exact hread .ended _ (fun _ _ hr' => by simp only [hr']) (fun _ hr' => by simp only [hr'])
      | failed reason =>
        exact hread (.failed reason) _ (fun _ _ hr' => by simp only [hr'])
          (fun _ hr' => by simp only [hr'])
      | quiet millis =>
        obtain ⟨n, hlater⟩ := ih { r with millis := r.millis + millis }
        exact ⟨n, hlater.seen, hlater.offers, hlater.reads⟩
      | cancel => exact ⟨0, (goesOn_see r .cancelled).trans (goesOn_leave _ _)⟩

end Run
end TagRental
