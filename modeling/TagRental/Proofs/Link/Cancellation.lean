import TagRental.Proofs.Link.Reception

/-!
# Where a cancellation cuts the stream

A cancellation may fire at any moment: while the loop waits for a read or rests, between two frames
of one read, or while an answer is being written.  The backend must not be left in the middle of
anything.  It is not: whatever the moment, there is a number of frames such that the handling of
these has begun, in order and each once, and nothing of the frames behind them has had any effect.

The one frame to look at is a frame whose answer is given up.  Its command was carried out before
the answer was offered, and the answer was offered before it was given up, so it counts like the
ones in front of it; what is lost is what became of the answer (`Run.Begun` against `Run.Handled`).

That the loop stops is not enough, though: a loop that handled nothing at all would satisfy it.  It
has to stop for the cancellation only.  So every statement here says as well what has stopped the
loop (`Run.Stopped`), or else that no frame was left.

The surroundings are any functions of how far the loop has come, with nothing that relates their
answers at two places.  A cancellation that is seen at one place and overlooked at the next is among
them, which is what a loop does that finds a read and the cancellation ready at once and takes the
read.
-/

namespace TagRental

/-! ## What arrives before a cancellation -/

namespace Happening

/-- The bytes that arrive, if some do. -/
def bytes? : Happening → Option Bytes
  | .data bytes => some bytes
  | _ => none

/-- Does the happening end a connection? -/
def endsConnection : Happening → Bool
  | .ended | .failed _ => true
  | _ => false

/-- What happens before the other side cancels. -/
def beforeCancel (script : List Happening) : List Happening := script.takeWhile (· ≠ .cancel)

theorem beforeCancel_cons {h : Happening} (hh : h ≠ .cancel) (script : List Happening) :
    beforeCancel (h :: script) = h :: beforeCancel script :=
  List.takeWhile_cons_of_pos (decide_eq_true hh)

/-- The chunks of a script, as single reads see them. -/
def chunks (script : List Happening) : List Bytes := (script.flatMap reads).filterMap bytes?

/-- A single read of a happening is the happening itself, or brings a part of its data. -/
theorem eq_or_data_of_mem_reads {h h' : Happening} (hmem : h' ∈ h.reads) :
    h' = h ∨ ∃ piece, h' = .data piece := by
  cases h with
  | data bytes =>
    obtain ⟨piece, -, rfl⟩ := List.mem_map.mp hmem
    exact Or.inr ⟨piece, rfl⟩
  | ended => exact Or.inl (List.mem_singleton.mp hmem)
  | failed reason => exact Or.inl (List.mem_singleton.mp hmem)
  | quiet millis => exact Or.inl (List.mem_singleton.mp hmem)
  | cancel => exact Or.inl (List.mem_singleton.mp hmem)

/-- Cutting data into single reads does not touch the other happenings. -/
theorem beforeCancel_reads (script : List Happening) :
    beforeCancel (script.flatMap reads) = (beforeCancel script).flatMap reads := by
  induction script with
  | nil => rfl
  | cons h script ih =>
    by_cases hh : h = .cancel
    · subst hh
      rfl
    · have hkept : ∀ h' ∈ h.reads, h' ≠ .cancel := by
        intro h' hmem
        rcases eq_or_data_of_mem_reads hmem with rfl | ⟨piece, rfl⟩
        · exact hh
        · exact nofun
      rw [beforeCancel_cons hh, List.flatMap_cons, List.flatMap_cons, ← ih]
      exact List.takeWhile_append_of_pos fun h' hmem => decide_eq_true (hkept h' hmem)

/-- The single reads of a script end a connection only where the script does. -/
theorem endsConnection_reads {script : List Happening}
    (hopen : ∀ h ∈ script, h.endsConnection = false) :
    ∀ h ∈ script.flatMap reads, h.endsConnection = false := by
  intro h' hmem
  obtain ⟨h, hh, hread⟩ := List.mem_flatMap.mp hmem
  rcases eq_or_data_of_mem_reads hread with rfl | ⟨piece, rfl⟩
  · exact hopen _ hh
  · rfl

/-- The chunks that arrive before the other side cancels come first. -/
theorem chunks_eq_append (script : List Happening) :
    ∃ later, chunks script = chunks (beforeCancel script) ++ later := by
  refine ⟨chunks (script.dropWhile (· ≠ .cancel)), ?_⟩
  rw [chunks, chunks, chunks, ← List.filterMap_append, ← List.flatMap_append]
  exact congrArg (fun script => (List.flatMap reads script).filterMap bytes?)
    (List.takeWhile_append_dropWhile).symm

end Happening

namespace Run

/-! ## Where the loop is cut off -/

variable {s : Surroundings} {r r' : Run}

/-- The chunks that arrive before the other side cancels, in a script of single reads. -/
def arriving (script : List Happening) : List Bytes :=
  (Happening.beforeCancel script).filterMap Happening.bytes?

/-- What a run has begun of some frames, and why it is over. -/
structure CutOff (s : Surroundings) (frames : List Bytes) (r : Run) (e : RunEnd) : Prop where
  exit : e.exit = .ok .cancelled
  frames : ∃ begun left, frames = begun ++ left ∧ Begun s.outlet begun r e.run ∧
    (left = [] ∨ Stopped s begun r e.run)

namespace CutOff

variable {frames : List Bytes} {e : RunEnd}

/-- The loop is left between two reads because it is cancelled. -/
theorem of_leave (hsame : Begun s.outlet [] r r')
    (hfrom : frames = [] ∨ s.fired r'.progress = true) :
    CutOff s frames r (r'.leave (.ok .cancelled)) where
  exit := rfl
  frames := ⟨[], frames, rfl, ⟨hsame.backend, hsame.responses, hsame.count⟩, hfrom.imp_right Or.inl⟩

/-- A run over some frames, and then one that is cut off. -/
theorem after {xs ys : List Bytes} (h : Begun s.outlet xs r r') (hcut : CutOff s ys r' e) :
    CutOff s (xs ++ ys) r e := by
  obtain ⟨hexit, begun, left, rfl, hbegun, hwhy⟩ := hcut
  exact ⟨hexit, xs ++ begun, left, (List.append_assoc _ _ _).symm, h.trans hbegun,
    hwhy.imp_right fun hstopped => hstopped.after h⟩

/-- Frames that come later are left as well. -/
theorem append {xs : List Bytes} (ys : List Bytes) (hexit : e.exit = .ok .cancelled)
    {begun left : List Bytes} (hsplit : xs = begun ++ left) (hbegun : Begun s.outlet begun r e.run)
    (hstopped : Stopped s begun r e.run) : CutOff s (xs ++ ys) r e :=
  ⟨hexit, begun, left ++ ys, by rw [hsplit, List.append_assoc], hbegun, Or.inr hstopped⟩

end CutOff

/-- One arrival at the front of a script that is followed further: what the rest of the script comes
to is what the whole comes to. -/
theorem cutOff_of_arrive {a : Arrival} (hcarries : r.CarriesOn a) (script : List Happening)
    (hlater : ∀ r₁, r₁.loop.kind = r.loop.kind →
      CutOff s (r₁.loop.framer.feedAll (arriving script)).frames r₁ (r₁.follow s script)) :
    CutOff s (r.loop.framer.feedAll (a.bytes?.toList ++ arriving script)).frames r
      (match r.arrive s a with
        | (r', some exit) => r'.leave exit
        | (r', none) => r'.follow s script) := by
  rw [(r.loop.framer.feedAll_append a.bytes?.toList (arriving script)).1]
  rcases arrive_cut s hcarries with ⟨r₁, hheard, harrive⟩ |
    ⟨r₁, begun, left, hsplit, hbegun, hstopped, harrive⟩
  · rw [harrive, ← hheard.framer]
    exact .after hheard.handled.begun (hlater r₁ hheard.kind)
  · rw [harrive]
    exact .append _ rfl hsplit ⟨hbegun.backend, hbegun.responses, hbegun.count⟩ hstopped

/-- **A script**: however the surroundings cancel the loop, it is cut off behind some of the frames
that arrive. -/
theorem follow_cut (s : Surroundings) (r : Run) (script : List Happening)
    (hopen : r.loop.kind = .connection →
      ∀ h ∈ Happening.beforeCancel script, h.endsConnection = false) :
    CutOff s (r.loop.framer.feedAll (arriving script)).frames r (r.follow s script) := by
  induction script generalizing r with
  | nil =>
    unfold follow
    split
    · exact .of_leave (.refl s.outlet r) (Or.inl rfl)
    · exact .of_leave ⟨rfl, (List.append_nil _).symm, rfl⟩ (Or.inl rfl)
  | cons h script ih =>
    unfold follow
    split
    · rename_i hfired
      exact .of_leave (.refl s.outlet r) (Or.inr hfired)
    · have hlater (hh : h ≠ .cancel) (r₁ : Run) (hkind : r₁.loop.kind = r.loop.kind) :=
        ih r₁ fun hconnection h' hmem => hopen (hkind.symm.trans hconnection) h' <| by
          rw [Happening.beforeCancel_cons hh]
          exact List.mem_cons_of_mem h hmem
      -- what ends a connection is met on a persistent line only
      have hline (hh : h ≠ .cancel) (hends : h.endsConnection = true) :
          r.loop.kind = .persistent := by
        cases hkind : r.loop.kind with
        | persistent => rfl
        | connection =>
          have hfirst : h ∈ Happening.beforeCancel (h :: script) := by
            rw [Happening.beforeCancel_cons hh]
            exact List.mem_cons_self
          exact absurd hends (Bool.eq_false_iff.mp (hopen hkind h hfirst))
      cases h with
      | data bytes =>
        exact cutOff_of_arrive (a := .chunk bytes) (Or.inr rfl) script
          (hlater Happening.noConfusion)
      | ended =>
        have hpersistent := hline Happening.noConfusion rfl
        exact cutOff_of_arrive (a := .ended) (Or.inl hpersistent) script
          (hlater Happening.noConfusion)
      | failed reason =>
        have hpersistent := hline Happening.noConfusion rfl
        exact cutOff_of_arrive (a := .failed reason) (Or.inl hpersistent) script
          (hlater Happening.noConfusion)
      | quiet millis =>
        obtain ⟨hexit, begun, left, hsplit, hbegun, hwhy⟩ :=
          hlater Happening.noConfusion { r with millis := r.millis + millis } rfl
        exact ⟨hexit, begun, left, hsplit, ⟨hbegun.backend, hbegun.responses, hbegun.count⟩, hwhy⟩
      | cancel => exact .of_leave ⟨rfl, (List.append_nil _).symm, rfl⟩ (Or.inl rfl)

end Run

/-- **A cancellation cuts the stream at a frame boundary.**  Let the link be a persistent line, or a
connection that stays open until the other side cancels, if it does.  Whenever the cancellation
fires, and also if it is seen at one place and overlooked at the next, the loop returns that it was
cancelled, and there is a number `k` such that

* the table is the one that the first `k` frames of the stream leave, handled in order and each
  once;
* the answers that were offered are those to the first `k` frames, in order;
* the loop has begun `k` frames, the one whose answer was given up among them.

Nothing but the cancellation makes `k` small: either all the frames that arrived in front of it were
handled, or it had fired when the loop asked, or the answer to the last of the `k` frames was given
up.

The frames are those that the framer finds in the chunks, and the lines of the stream if none of its
pieces is longer than the limit. -/
theorem receive_cut_at_frame (s : Surroundings) (backend : Backend) (settings : ReceiveSettings)
    (kind : LinkKind) (script : List Happening)
    (hopen : kind = .connection →
      ∀ h ∈ Happening.beforeCancel script, h.endsConnection = false) :
    let framesOf := fun chunks => ((Framer.withLimit settings.limit).feedAll chunks).frames
    let frames := framesOf (Happening.chunks script)
    let pieces := (Happening.chunks script).flatten.splitOn delimiter
    let e := receive s backend settings kind script
    e.exit = .ok .cancelled ∧
      (∃ k ≤ frames.length,
        e.run.backend = backend.afterFrames s.outlet (frames.take k) ∧
        e.run.offers.reverse.map Offer.response =
          (backend.offersFor s.outlet (frames.take k)).map Offer.response ∧
        e.run.progress.frames = k ∧
        (k = (framesOf (Happening.chunks (Happening.beforeCancel script))).length ∨
          s.fired e.run.progress = true ∨
          Run.GivenUp s (frames.take k) (Run.start backend settings kind) e.run)) ∧
      ((∀ piece ∈ pieces, piece.length ≤ max settings.limit 1) → frames = pieces.dropLast) := by
  intro framesOf frames pieces e
  have hreads : kind = .connection →
      ∀ h ∈ Happening.beforeCancel (script.flatMap Happening.reads), h.endsConnection = false := by
    intro hconnection
    rw [Happening.beforeCancel_reads]
    exact Happening.endsConnection_reads (hopen hconnection)
  obtain ⟨hexit, begun, left, hsplit, hbegun, hwhy⟩ :=
    Run.follow_cut s (Run.start backend settings kind) (script.flatMap Happening.reads) hreads
  rw [Run.arriving, Happening.beforeCancel_reads] at hsplit
  have hsplit : framesOf (Happening.chunks (Happening.beforeCancel script)) = begun ++ left :=
    hsplit
  -- what arrives behind the cancellation brings frames that come later still
  obtain ⟨later, hchunks⟩ := Happening.chunks_eq_append script
  obtain ⟨more, hmore⟩ : ∃ more,
      framesOf (Happening.chunks (Happening.beforeCancel script) ++ later) =
        framesOf (Happening.chunks (Happening.beforeCancel script)) ++ more :=
    ⟨_, (Framer.feedAll_append _ _ _).1⟩
  have hframes : frames = begun ++ (left ++ more) := by
    rw [← List.append_assoc, ← hsplit, ← hmore, ← hchunks]
  have htake : frames.take begun.length = begun := by rw [hframes, List.take_left]
  have hlength : begun.length ≤ frames.length := by
    rw [hframes, List.length_append]
    exact Nat.le_add_right _ _
  refine ⟨hexit, ⟨begun.length, hlength, ?_⟩, fun hfits => (Framer.feedAll_withLimit hfits).1⟩
  rw [htake]
  refine ⟨hbegun.backend, hbegun.responses, hbegun.count.trans (Nat.zero_add _), ?_⟩
  rcases hwhy with rfl | hstopped
  · rw [hsplit, List.append_nil]
    exact Or.inl rfl
  · exact Or.inr hstopped

/-- Three rentals are started in one read, and the answer to the second is given up: the second item
is rented, and the third is not. -/
theorem receive_cut_at_frame_while_answering :
    let aa : Tag := ⟨[0xAA], by decide, by decide⟩
    let bb : Tag := ⟨[0xBB], by decide, by decide⟩
    let cc : Tag := ⟨[0xCC], by decide, by decide⟩
    let request (tag : String) : Bytes := Utf8.encodeChars (Json.object
      [("cmd", .int 1), ("tag_id", .text tag), ("tag_id_len", .int 1)]).chars
    let s : Surroundings := ⟨fun _ _ => none, fun _ => false, fun n _ => n = 1⟩
    let backend := Backend.start .usual 1000
    let script : List Happening :=
      [.quiet 10, .data (["aa", "bb", "cc"].flatMap fun tag => request tag ++ [delimiter]),
        .cancel, .ended]
    let e := receive s backend .usual .connection script
    (LinkKind.connection = .connection →
        ∀ h ∈ Happening.beforeCancel script, h.endsConnection = false) ∧
      e.exit = .ok .cancelled ∧ e.run.progress.frames = 2 ∧
      e.run.backend = backend.afterFrames s.outlet [request "aa", request "bb"] ∧
      [aa, bb, cc].map (fun tag => (e.run.backend.store.get? tag).map Record.status) =
        [some .rented, some .rented, none] ∧
      e.run.offers.reverse.map Offer.response = [.bare aa .rented, .bare bb .rented] := by
  intro aa bb cc request s backend script e
  have hopen : LinkKind.connection = .connection →
      ∀ h ∈ Happening.beforeCancel script, h.endsConnection = false := fun _ => by decide +kernel
  obtain ⟨hexit, ⟨k, -, hbackend, hoffers, hframes, -⟩, -⟩ :=
    receive_cut_at_frame s backend .usual .connection script hopen
  have hcount : e.run.progress.frames = 2 := by decide +kernel
  have htwo : (((Framer.withLimit ReceiveSettings.usual.limit).feedAll
      (Happening.chunks script)).frames.take 2) = [request "aa", request "bb"] := by decide +kernel
  have hanswers : (backend.offersFor s.outlet [request "aa", request "bb"]).map Offer.response =
      [.bare aa .rented, .bare bb .rented] := by decide +kernel
  have hstanding : [aa, bb, cc].map (fun tag => ((backend.afterFrames s.outlet
      [request "aa", request "bb"]).store.get? tag).map Record.status) =
        [some .rented, some .rented, none] := by decide +kernel
  obtain rfl : k = 2 := hframes.symm.trans hcount
  rw [htwo] at hbackend hoffers
  refine ⟨hopen, hexit, hcount, hbackend, ?_, hoffers.trans hanswers⟩
  rw [← hbackend] at hstanding
  exact hstanding

end TagRental
