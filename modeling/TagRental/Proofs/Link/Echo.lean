import Mathlib.Data.List.Forall2
import TagRental.Proofs.Gateway.Accounting
import TagRental.Proofs.Gateway.ResponseStream
import TagRental.Proofs.Link.Reception

/-!
# What comes back is not heard

A line may echo: whatever the backend writes is then read by it again, between the lines of the
gateway.  If a response had an effect, its answer would come back as well, and so on for ever.  This
file proves that responses that come back have none, wherever they stand between the lines of the
gateway, however many they are, whoever wrote them, and however the stream is cut into chunks.

The comparison is between two streams.  `Incoming.among` puts responses in front of the lines of the
gateway and behind the last one; `echoing` does so with a whole stream.  A response is one line
(`Response.delimiter_not_mem_payload`), so in such a stream the lines of the gateway are still
lines, and it is short (`Response.length_payload_le`), so it fits wherever the limit is no less than
256 bytes.  As a frame it is read as the command that only the backend sends, and dropped
(`Backend.handleFrame_payload`): the backend is then not merely in the same state as before, it has
not even counted an offer, which is why the two runs go on alike.

Nothing is asked of what stands behind the last line.  It may be longer than the limit, and then the
two runs need not drop the same of it, but no frame comes of it in either.
-/

namespace TagRental

/-! ## Lines and echoes -/

/-- A line that comes in: one that the gateway has sent, or a response that has come back. -/
inductive Incoming where
  | line (bytes : Bytes)
  | echo (response : Response)

namespace Incoming

/-- The frame that the line is. -/
def frame : Incoming → Bytes
  | .line bytes => bytes
  | .echo response => response.payload

/-- The bytes of the line with the delimiter. -/
def wire : Incoming → Bytes
  | .line bytes => bytes ++ [delimiter]
  | .echo response => response.encode

/-- The line, if the gateway has sent it. -/
def own? : Incoming → Option Bytes
  | .line bytes => some bytes
  | .echo _ => none

/-- Lines of the gateway with responses among them: in front of each line those that belong to its
number, and behind the last line those of the next number. -/
def among (echoes : Nat → List Response) (first : Nat) : List Bytes → List Incoming
  | [] => (echoes first).map .echo
  | xs :: lines => (echoes first).map .echo ++ .line xs :: among echoes (first + 1) lines

theorem wire_eq (p : Incoming) : p.wire = p.frame ++ [delimiter] := by
  cases p <;> rfl

theorem filterMap_own?_echoes (responses : List Response) :
    (responses.map Incoming.echo).filterMap own? = [] := by
  rw [List.filterMap_map, List.filterMap_eq_nil_iff]
  exact fun _ _ => rfl

theorem filterMap_own?_line (bytes : Bytes) (incoming : List Incoming) :
    (line bytes :: incoming).filterMap own? = bytes :: incoming.filterMap own? :=
  rfl

theorem filterMap_own?_echo (r : Response) (incoming : List Incoming) :
    (echo r :: incoming).filterMap own? = incoming.filterMap own? :=
  rfl

/-- The lines of the gateway are still there. -/
theorem filterMap_own?_among (echoes : Nat → List Response) (first : Nat) (lines : List Bytes) :
    (among echoes first lines).filterMap own? = lines := by
  induction lines generalizing first with
  | nil => exact filterMap_own?_echoes _
  | cons xs lines ih =>
    rw [among, List.filterMap_append, filterMap_own?_echoes, List.nil_append, filterMap_own?_line,
      ih]

/-- What comes in is a line of the gateway or an echo. -/
theorem frame_of_mem_among {echoes : Nat → List Response} {first : Nat} {lines : List Bytes}
    {p : Incoming} (h : p ∈ among echoes first lines) :
    p.frame ∈ lines ∨ ∃ r : Response, p.frame = r.payload := by
  cases p with
  | echo r => exact Or.inr ⟨r, rfl⟩
  | line bytes =>
    refine Or.inl ?_
    rw [← filterMap_own?_among echoes first lines]
    exact List.mem_filterMap.mpr ⟨_, h, rfl⟩

/-- Lines in front of an unfinished one are cut off as they are. -/
theorem completeSegments_flatMap_wire {incoming : List Incoming} {rest : Bytes}
    (hlines : ∀ p ∈ incoming, delimiter ∉ p.frame) (hrest : delimiter ∉ rest) :
    completeSegments (incoming.flatMap wire ++ rest) = incoming.map frame := by
  induction incoming with
  | nil => exact completeSegments_of_not_mem hrest
  | cons p incoming ih =>
    obtain ⟨hp, hincoming⟩ := List.forall_mem_cons.mp hlines
    rw [List.flatMap_cons, wire_eq, List.append_assoc, List.append_assoc, List.singleton_append,
      completeSegments_append_delimiter hp, ih hincoming, List.map_cons]

end Incoming

/-- What comes in on a line that echoes when the gateway sends a stream. -/
def incomingOf (echoes : Nat → List Response) (stream : Bytes) : List Incoming :=
  Incoming.among echoes 0 (completeSegments stream)

/-- The stream of a line that echoes: between the lines that the gateway sends, and in front of what
it has not finished, stand responses. -/
def echoing (echoes : Nat → List Response) (stream : Bytes) : Bytes :=
  (incomingOf echoes stream).flatMap Incoming.wire ++ openSegment stream

theorem completeSegments_echoing (echoes : Nat → List Response) (stream : Bytes) :
    completeSegments (echoing echoes stream) = (incomingOf echoes stream).map Incoming.frame := by
  refine Incoming.completeSegments_flatMap_wire (fun p hp => ?_)
    (delimiter_not_mem_openSegment stream)
  rcases Incoming.frame_of_mem_among hp with hline | ⟨r, hecho⟩
  · exact delimiter_not_mem_of_mem_completeSegments hline
  · rw [hecho]
    exact r.delimiter_not_mem_payload

/-! ## One response that comes back -/

namespace Backend

section Echo

variable (outlet : Outlet) (b : Backend)

/-- **A response that comes back** is dropped with a note, and the backend is as it was. -/
theorem handleFrame_payload (r : Response) :
    b.handleFrame outlet r.payload = ⟨.dropped, b, [], [.outboundCommand 4]⟩ := by
  have hhandle : Dispatch.handle b.terms b.clock b.store r.payload =
      ⟨none, b.store, [.outboundCommand 4]⟩ := by
    rw [Dispatch.handle, Message.decode_payload]
    rfl
  rw [handleFrame, hhandle]

/-- Handling lines with echoes among them is handling the lines of the gateway. -/
theorem frames_of_incoming (incoming : List Incoming) :
    b.afterFrames outlet (incoming.map Incoming.frame) =
        b.afterFrames outlet (incoming.filterMap Incoming.own?) ∧
      b.offersFor outlet (incoming.map Incoming.frame) =
        b.offersFor outlet (incoming.filterMap Incoming.own?) := by
  induction incoming generalizing b with
  | nil => exact ⟨rfl, rfl⟩
  | cons p incoming ih =>
    cases p with
    | line bytes =>
      obtain ⟨hafter, hoffers⟩ := ih (b.handleFrame outlet bytes).backend
      rw [List.map_cons, Incoming.filterMap_own?_line, afterFrames_cons, afterFrames_cons,
        offersFor_cons, offersFor_cons]
      exact ⟨hafter, congrArg _ hoffers⟩
    | echo r =>
      rw [List.map_cons, Incoming.filterMap_own?_echo, Incoming.frame, afterFrames_cons,
        offersFor_cons, handleFrame_payload, List.nil_append]
      exact ih b

/-- Among the outcomes of lines, those of the echoes are that nothing has happened. -/
theorem dropped_of_incoming (incoming : List Incoming) :
    List.Forall₂ (fun p o => p.own? = none → o.result = .frame .dropped ∧ o.offers = [])
      incoming (b.run outlet (incoming.map fun p => .frame p.frame)) := by
  induction incoming generalizing b with
  | nil => exact .nil
  | cons p incoming ih =>
    refine .cons ?_ (ih _)
    intro hecho
    cases p with
    | line bytes => cases hecho
    | echo r =>
      have hstep : b.step outlet (.frame r.payload) =
          ⟨.frame .dropped, b, [], [.outboundCommand 4]⟩ :=
        congrArg (Outcome.map Report.frame) (b.handleFrame_payload outlet r)
      change (b.step outlet (.frame r.payload)).result = .frame .dropped ∧
        (b.step outlet (.frame r.payload)).offers = []
      rw [hstep]
      exact ⟨rfl, rfl⟩

end Echo

end Backend

/-! ## Two streams -/

/-- What a run that nobody cancels has handled when the script is over. -/
theorem Run.handled_receive {s : Surroundings} (hs : s.Uncancelled) (backend : Backend)
    (settings : ReceiveSettings) (kind : LinkKind) {events : List Arrival}
    (hsize : ∀ bytes, Arrival.chunk bytes ∈ events →
      1 ≤ bytes.length ∧ bytes.length ≤ Loop.readSize) :
    Handled s.outlet ((Framer.withLimit settings.limit).feedAll (kind.heard events)).frames
      (Run.start backend settings kind)
      (receive s backend settings kind (events.map Arrival.happening)).run := by
  obtain ⟨r, hheard, -, hfollow⟩ := follow_arrivals hs (Run.start backend settings kind) events
  have hhandled := hheard.handled
  have hrun := hfollow []
  rw [List.append_nil] at hrun
  rw [receive, reads_happening hsize, hrun]
  -- neither way of leaving changes what was handled
  split
  · exact ⟨hhandled.backend, hhandled.offers, hhandled.count⟩
  · rw [follow, if_neg hs.not_fired]
    exact ⟨hhandled.backend, hhandled.offers, hhandled.count⟩

/-- The frames of a stream whose lines fit, in whatever chunks. -/
theorem Framer.frames_of_lines {limit : Nat} {stream : Bytes} {chunks : List Bytes}
    (hcut : chunks.flatten = stream)
    (hlines : ∀ line ∈ completeSegments stream, line.length ≤ limit) :
    ((Framer.withLimit limit).feedAll chunks).frames = completeSegments stream := by
  subst hcut
  have hfits : ∀ line ∈ completeSegments ((withLimit limit).kept ++ chunks.flatten),
      line.length ≤ (withLimit limit).limit :=
    fun line hline => Nat.le_trans (hlines line hline) (Nat.le_max_left limit 1)
  exact (withLimit limit).frames_feedAll chunks hfits List.not_mem_nil

/-- **The backend does not hear itself.**  Let the limit be 256 bytes at least, and let no line that
the gateway sends be longer than the limit.  Take the stream once as it is and once with any
responses between its lines, each cut into chunks in a way of its own, with or without failures in
between.  The two runs offer the same answers with the same fates and leave the same backend.  In
the second one the loop has handled every line once, and of the outcomes those of the responses are
that the frame was dropped and nothing was offered. -/
theorem receive_of_echoing {s : Surroundings} (hs : s.Uncancelled) (backend : Backend)
    (settings : ReceiveSettings) (kind : LinkKind) (stream : Bytes) (echoes : Nat → List Response)
    (events events' : List Arrival)
    (hsize : ∀ bytes, Arrival.chunk bytes ∈ events ++ events' →
      1 ≤ bytes.length ∧ bytes.length ≤ Loop.readSize)
    (hlimit : 256 ≤ settings.limit)
    (hlines : ∀ line ∈ completeSegments stream, line.length ≤ settings.limit)
    (hcut : (kind.heard events).flatten = stream)
    (hcut' : (kind.heard events').flatten = echoing echoes stream) :
    let plain := (receive s backend settings kind (events.map Arrival.happening)).run
    let echoed := (receive s backend settings kind (events'.map Arrival.happening)).run
    let incoming := incomingOf echoes stream
    echoed.offers = plain.offers ∧ echoed.backend = plain.backend ∧
      echoed.progress.frames = incoming.length ∧
      echoed.backend = backend.afterFrames s.outlet (incoming.map Incoming.frame) ∧
      List.Forall₂ (fun p o => p.own? = none → o.result = .frame .dropped ∧ o.offers = [])
        incoming (backend.run s.outlet (incoming.map fun p => .frame p.frame)) := by
  intro plain echoed incoming
  have hplain := Run.handled_receive hs backend settings kind fun bytes hbytes =>
    hsize bytes (List.mem_append_left _ hbytes)
  have hechoed := Run.handled_receive hs backend settings kind fun bytes hbytes =>
    hsize bytes (List.mem_append_right _ hbytes)
  -- echoes are short enough to be lines of their own
  have hlines' : ∀ line ∈ completeSegments (echoing echoes stream),
      line.length ≤ settings.limit := by
    rw [completeSegments_echoing]
    intro line hline
    obtain ⟨p, hp, rfl⟩ := List.mem_map.mp hline
    rcases Incoming.frame_of_mem_among hp with hown | ⟨r, hecho⟩
    · exact hlines _ hown
    · have hshort := r.length_payload_le
      rw [hecho]
      omega
  rw [Framer.frames_of_lines hcut hlines] at hplain
  rw [Framer.frames_of_lines hcut' hlines', completeSegments_echoing] at hechoed
  obtain ⟨hafter, hoffers⟩ := backend.frames_of_incoming s.outlet incoming
  rw [show incoming.filterMap Incoming.own? = completeSegments stream from
    Incoming.filterMap_own?_among echoes 0 _] at hafter hoffers
  refine ⟨?_, ?_, ?_, hechoed.backend, backend.dropped_of_incoming s.outlet incoming⟩
  · rw [← List.reverse_inj, hechoed.offers, hplain.offers]
    exact congrArg _ hoffers
  · rw [hechoed.backend, hplain.backend]
    exact hafter
  · rw [hechoed.count, List.length_map]
    exact Nat.zero_add _

/-- A rental is started, its answer comes back in front of the question how the item stands, and in
front of an unfinished line that answer comes back twice, in chunks with a failure between them. -/
theorem receive_of_echoing_answers :
    let aa : Tag := ⟨[0xAA], by decide, by decide⟩
    let start : Members :=
      [("cmd", .int 1), ("tag_id", .text "aa"), ("tag_id_len", .int 1), ("duration", .int 5)]
    let question : Members := [("cmd", .int 3), ("tag_id", .text "aa"), ("tag_id_len", .int 1)]
    let line (members : Members) : Bytes :=
      Utf8.encodeChars (Json.object members).chars ++ [delimiter]
    let stream := line start ++ line question ++ [0x78]
    let rented : Response := ⟨.rented, aa, 1000, 5⟩
    let echoes : Nat → List Response := fun n => List.replicate n rented
    let s : Surroundings := ⟨fun _ _ => none, fun _ => false, fun _ _ => false⟩
    let backend := Backend.start .usual 1000
    let settings : ReceiveSettings := { ReceiveSettings.usual with limit := 256 }
    let wire := echoing echoes stream
    let events : List Arrival := [.chunk stream]
    let events' : List Arrival := [.chunk (wire.take 70), .failed "busy", .chunk (wire.drop 70)]
    let plain := (receive s backend settings .persistent (events.map Arrival.happening)).run
    let echoed := (receive s backend settings .persistent (events'.map Arrival.happening)).run
    s.Uncancelled ∧
      (∀ bytes, Arrival.chunk bytes ∈ events ++ events' →
        1 ≤ bytes.length ∧ bytes.length ≤ Loop.readSize) ∧
      (∀ xs ∈ completeSegments stream, xs.length ≤ 256) ∧
      (LinkKind.persistent.heard events').flatten = wire ∧
      echoed.offers = plain.offers ∧ echoed.backend = plain.backend ∧ echoed.progress.frames = 5 ∧
      (echoed.backend.store.get? aa).map Record.status = some .rented := by
  intro aa start question line stream rented echoes s backend settings wire events events' plain
    echoed
  have hs : s.Uncancelled := ⟨fun _ => rfl, fun _ _ => rfl⟩
  have hsize : ∀ bytes, Arrival.chunk bytes ∈ events ++ events' →
      1 ≤ bytes.length ∧ bytes.length ≤ Loop.readSize := by
    intro bytes hbytes
    simp only [events, events', List.cons_append, List.nil_append, List.mem_cons,
      Arrival.chunk.injEq, List.not_mem_nil, or_false, reduceCtorEq, false_or] at hbytes
    rcases hbytes with rfl | rfl | rfl <;> decide +kernel
  have hlines : ∀ xs ∈ completeSegments stream, xs.length ≤ 256 := by decide +kernel
  have hcut : (LinkKind.persistent.heard events').flatten = wire := by
    change (wire.take 70) ++ ((wire.drop 70) ++ []) = wire
    rw [List.append_nil, List.take_append_drop]
  obtain ⟨hoffers, hbackend, hframes, hhandled, -⟩ :=
    receive_of_echoing hs backend settings .persistent stream echoes events events' hsize
      (by decide) hlines (List.append_nil stream) hcut
  refine ⟨hs, hsize, hlines, hcut, hoffers, hbackend, ?_, ?_⟩
  · have hcount : (incomingOf echoes stream).length = 5 := by decide +kernel
    exact hframes.trans hcount
  · have hstanding : ((backend.afterFrames s.outlet
        ((incomingOf echoes stream).map Incoming.frame)).store.get? aa).map Record.status =
          some .rented := by decide +kernel
    rw [← hhandled] at hstanding
    exact hstanding

end TagRental
