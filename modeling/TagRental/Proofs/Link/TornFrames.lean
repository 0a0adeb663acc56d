import Mathlib.Data.List.Basic
import TagRental.Proofs.Gateway.ResponseStream
import TagRental.Proofs.Json.UnfinishedText
import TagRental.Proofs.Link.Polling
import TagRental.Proofs.Link.Writing

/-!
# Torn frames

A channel may fail in the middle of a frame and take bytes again afterwards.  The send that was
under way reports the failure, but the first part of its frame is on the wire, and nothing ends it:
the next frame is put right behind it, on the same line.  So a response may be lost although its
send has succeeded.

This file says exactly what arrives.  Responses are sent one after another (`deliver`); a send that
succeeds has put out its whole frame, and one that fails some first part of it, perhaps all of it or
nothing.  A line ends with every frame that is out whole, and with nothing else; it consists of that
frame and, in front of it, everything that failed sends have left there since the line before
(`linesOf`).

If nothing was left there, the line is read as the response.  If something was, the line is no text
at all: what is left begins with an opening brace, and a whole object behind an unfinished one never
makes a text (`Json.not_parse_behind`).  So the first response behind a torn frame is always lost,
and those after it are not: the delimiter at the end of the lost line puts the two sides in step
again.
-/

namespace TagRental

/-- A response that was sent, the end of the send, and what the channel has taken of its frame. -/
structure Delivery where
  response : Response
  result : SendResult
  taken : Bytes
  deriving DecidableEq

namespace Delivery

/-- The channel has the whole frame. -/
abbrev IsWhole (d : Delivery) : Prop := d.taken = d.response.encode

/-- The channel has taken a first part of the frame, and all of it if the send has succeeded. -/
structure Fair (d : Delivery) : Prop where
  taken : d.taken <+: d.response.encode
  whole : d.result = .ok () → d.IsWhole

end Delivery

namespace SharedWriter

/-- Sends responses one after another, each when the one before it has ended. -/
def deliver (c : Channel) (w : SharedWriter) (id : Nat) : List Response → List Delivery
  | [] => []
  | r :: rest =>
    let a := w.attempt c id r.encode
    ⟨r, a.result, a.writer.seen.bytes.drop w.seen.bytes.length⟩ :: deliver c a.writer (id + 1) rest

/-- The writer after responses were sent one after another. -/
def afterDeliver (c : Channel) (w : SharedWriter) (id : Nat) (responses : List Response) :
    SharedWriter :=
  match responses with
  | [] => w
  | r :: rest => afterDeliver c (w.attempt c id r.encode).writer (id + 1) rest

/-- Nobody has asked for the writer, and the link is not cancelled. -/
structure Idle (w : SharedWriter) : Prop where
  queue : w.queue = []
  cancelled : w.cancelled = false

theorem idle_fresh : fresh.Idle := ⟨rfl, rfl⟩

/-- A send on an idle writer over a prompt channel ends at once and leaves the writer idle.  It
succeeds only if the channel has taken the whole frame. -/
theorem Idle.attempt {c : Channel} (hc : c.Prompt) {w : SharedWriter} (h : w.Idle) (id : Nat)
    (frame : Bytes) :
    (w.attempt c id frame).writer.Idle ∧
      ∃ taken rest, frame = taken ++ rest ∧
        (w.attempt c id frame).writer.seen.bytes = w.seen.bytes ++ taken ∧
        ((w.attempt c id frame).result = .ok () → rest = []) := by
  obtain ⟨taken, rest, hframe, hbytes, hend⟩ := c.send_split w.seen frame
  have hqueue : (w.enqueue id frame).queue = [⟨id, frame⟩] := by
    simp [enqueue, h.queue]
  have hcancelled : (w.enqueue id frame).cancelled = false :=
    (cancelled_enqueue w id frame).trans h.cancelled
  have hpoll := poll_of_turn c h.cancelled hqueue rfl
  dsimp only at hpoll
  unfold SharedWriter.attempt
  rw [hpoll]
  cases hsend : c.send w.seen frame with
  | mk seen ending =>
    rw [hsend] at hbytes hend
    cases ending with
    | finished =>
      obtain rfl : rest = [] := hend
      exact ⟨⟨rfl, hcancelled⟩, taken, [], hframe, hbytes, fun _ => rfl⟩
    | failed fault =>
      exact ⟨⟨rfl, hcancelled⟩, taken, rest, hframe, hbytes, fun hok => by cases hok⟩
    | waiting bytes =>
      have hnot := hc.send_ne_waiting w.seen frame bytes
      rw [hsend] at hnot
      exact absurd rfl hnot

/-- What is delivered over a prompt channel is what the channel takes. -/
theorem Idle.deliver {c : Channel} (hc : c.Prompt) {w : SharedWriter} (h : w.Idle) (id : Nat)
    (responses : List Response) :
    (w.afterDeliver c id responses).seen.bytes =
        w.seen.bytes ++ (w.deliver c id responses).flatMap Delivery.taken ∧
      (w.deliver c id responses).map Delivery.response = responses ∧
      ∀ d ∈ w.deliver c id responses, d.Fair := by
  induction responses generalizing w id with
  | nil => exact ⟨(List.append_nil _).symm, rfl, fun _ hd => by cases hd⟩
  | cons r rest ih =>
    obtain ⟨hidle, taken, left, hframe, hbytes, hok⟩ := h.attempt hc id r.encode
    obtain ⟨hafter, hresponses, hfair⟩ := ih hidle (id + 1)
    have htaken : (w.attempt c id r.encode).writer.seen.bytes.drop w.seen.bytes.length = taken := by
      rw [hbytes, List.drop_left]
    have hdeliver : w.deliver c id (r :: rest) =
        ⟨r, (w.attempt c id r.encode).result, taken⟩ ::
          (w.attempt c id r.encode).writer.deliver c (id + 1) rest := by
      rw [SharedWriter.deliver, htaken]
    rw [hdeliver, List.map_cons, hresponses, List.forall_mem_cons, List.flatMap_cons]
    refine ⟨?_, rfl, ⟨⟨left, hframe.symm⟩, fun hsent => ?_⟩, hfair⟩
    · rw [afterDeliver, hafter, hbytes, List.append_assoc]
    · rw [hok hsent, List.append_nil] at hframe
      exact hframe.symm

end SharedWriter

/-! ## The lines -/

/-- A frame that is out whole, and what stands in front of it on its line. -/
structure DeliveredLine where
  before : Bytes
  delivery : Delivery
  deriving DecidableEq

/-- The line that a frame ends. -/
def DeliveredLine.bytes (a : DeliveredLine) : Bytes := a.before ++ a.delivery.response.payload

/-- The frames that are out whole, with what failed sends have left in front of each of them. -/
def linesOf (before : Bytes) : List Delivery → List DeliveredLine
  | [] => []
  | d :: rest =>
    if d.IsWhole then ⟨before, d⟩ :: linesOf [] rest else linesOf (before ++ d.taken) rest

section Lines

variable {before : Bytes} {d : Delivery} {ds : List Delivery}

theorem linesOf_cons_of_whole (h : d.IsWhole) :
    linesOf before (d :: ds) = ⟨before, d⟩ :: linesOf [] ds := if_pos h

theorem linesOf_cons_of_not_whole (h : ¬d.IsWhole) :
    linesOf before (d :: ds) = linesOf (before ++ d.taken) ds := if_neg h

/-- What is left of a torn frame does not end a line. -/
theorem Delivery.Fair.delimiter_not_mem (hd : d.Fair) (h : ¬d.IsWhole) : delimiter ∉ d.taken := by
  have htaken : d.taken <+: d.response.payload ++ [delimiter] := hd.taken
  rcases List.prefix_concat_iff.mp htaken with hall | hpart
  · exact absurd hall h
  · exact fun hmem => d.response.delimiter_not_mem_payload (hpart.subset hmem)

/-- **What the lines are.**  Each of them ends with a frame that is out whole. -/
theorem completeSegments_flatMap_taken (hds : ∀ d ∈ ds, d.Fair) (hbefore : delimiter ∉ before) :
    completeSegments (before ++ ds.flatMap Delivery.taken) =
      (linesOf before ds).map DeliveredLine.bytes := by
  induction ds generalizing before with
  | nil => rw [List.flatMap_nil, List.append_nil, completeSegments_of_not_mem hbefore]; rfl
  | cons d ds ih =>
    rw [List.forall_mem_cons] at hds
    rw [List.flatMap_cons]
    by_cases h : d.IsWhole
    · have hline : delimiter ∉ before ++ d.response.payload := by
        rw [List.mem_append, not_or]
        exact ⟨hbefore, d.response.delimiter_not_mem_payload⟩
      have hcut : before ++ (d.taken ++ ds.flatMap Delivery.taken) =
          (before ++ d.response.payload) ++ delimiter :: ([] ++ ds.flatMap Delivery.taken) := by
        rw [h, Response.encode]
        simp only [List.append_assoc, List.cons_append, List.nil_append]
        rfl
      rw [hcut, completeSegments_append_delimiter hline, ih hds.2 List.not_mem_nil,
        linesOf_cons_of_whole h]
      rfl
    · have hmore : delimiter ∉ before ++ d.taken := by
        rw [List.mem_append, not_or]
        exact ⟨hbefore, hds.1.delimiter_not_mem h⟩
      rw [← List.append_assoc, ih hds.2 hmore, linesOf_cons_of_not_whole h]

/-- The frames that arrive are those that are out whole, in the order in which they were sent. -/
theorem map_delivery_linesOf (before : Bytes) (ds : List Delivery) :
    (linesOf before ds).map DeliveredLine.delivery = ds.filter fun d => d.IsWhole := by
  induction ds generalizing before with
  | nil => rfl
  | cons d ds ih =>
    by_cases h : d.IsWhole
    · rw [linesOf_cons_of_whole h, List.map_cons, ih, List.filter_cons_of_pos (by simpa using h)]
    · rw [linesOf_cons_of_not_whole h, ih, List.filter_cons_of_neg (by simpa using h)]

/-- If no send has left part of a frame, the bytes are the whole frames. -/
theorem flatMap_taken_of_not_torn (hds : ∀ d ∈ ds, d.taken = [] ∨ d.IsWhole) :
    ds.flatMap Delivery.taken =
      ((ds.filter fun d => d.IsWhole).map Delivery.response).flatMap Response.encode := by
  induction ds with
  | nil => rfl
  | cons d ds ih =>
    rw [List.forall_mem_cons] at hds
    rw [List.flatMap_cons, ih hds.2]
    by_cases h : d.IsWhole
    · rw [List.filter_cons_of_pos (by simpa using h), List.map_cons, List.flatMap_cons, h]
    · rw [List.filter_cons_of_neg (by simpa using h), hds.1.resolve_right h, List.nil_append]

/-! ## Reading the lines -/

/-- What failed sends leave begins like a response. -/
def IsScrap (bytes : Bytes) : Prop := bytes = [] ∨ ∃ more, bytes = 0x7B :: more

theorem IsScrap.append {xs ys : Bytes} (hxs : IsScrap xs) (hys : IsScrap ys) :
    IsScrap (xs ++ ys) := by
  rcases hxs with rfl | ⟨more, rfl⟩
  · exact hys
  · exact Or.inr ⟨more ++ ys, rfl⟩

/-- A response begins with a brace, a quote and a letter. -/
theorem Response.payload_eq_cons (r : Response) :
    ∃ rest, r.payload = 0x7B :: 0x22 :: 0x63 :: rest :=
  ⟨_, rfl⟩

theorem Delivery.Fair.isScrap (hd : d.Fair) : IsScrap d.taken := by
  obtain ⟨rest, hrest⟩ := d.response.payload_eq_cons
  have htaken : d.taken <+: 0x7B :: (0x22 :: 0x63 :: rest ++ [0x0A]) := by
    have hprefix := hd.taken
    rwa [Response.encode, hrest] at hprefix
  rcases List.prefix_cons_iff.mp htaken with hnil | ⟨more, hmore, -⟩
  · exact Or.inl hnil
  · exact Or.inr ⟨more, hmore⟩

theorem isScrap_of_mem_linesOf (hds : ∀ d ∈ ds, d.Fair) (hbefore : IsScrap before)
    {a : DeliveredLine} (ha : a ∈ linesOf before ds) : IsScrap a.before := by
  induction ds generalizing before with
  | nil => cases ha
  | cons d ds ih =>
    rw [List.forall_mem_cons] at hds
    by_cases h : d.IsWhole
    · rw [linesOf_cons_of_whole h, List.mem_cons] at ha
      rcases ha with rfl | ha
      · exact hbefore
      · exact ih hds.2 (Or.inl rfl) ha
    · rw [linesOf_cons_of_not_whole h] at ha
      exact ih hds.2 (hbefore.append hds.1.isScrap) ha

end Lines

namespace DeliveredLine

/-- A line that is a response and nothing else is read as that response. -/
theorem decode_bytes {a : DeliveredLine} (h : a.before = []) :
    Message.decode a.bytes = ⟨[], .ok ⟨.statusResponse a.delivery.response, []⟩⟩ := by
  rw [bytes, h, List.nil_append]
  exact Message.decode_payload a.delivery.response

/-- A line with something in front of the response is no text at all. -/
theorem decode_bytes_of_scrap {a : DeliveredLine} (hscrap : IsScrap a.before) (h : a.before ≠ []) :
    ∃ f, Message.decode a.bytes = .fail (.notJson f) := by
  obtain ⟨more, hmore⟩ := hscrap.resolve_left h
  obtain ⟨rest, hrest⟩ := a.delivery.response.payload_eq_cons
  obtain ⟨f, hf⟩ := Json.not_parse_behind a.delivery.response.parse_payload hrest
    ⟨by decide, by decide⟩ more
  refine ⟨f, ?_⟩
  rw [bytes, hmore, Message.decode, hf]

end DeliveredLine

/-- The messages among some frames. -/
def messagesOf (frames : List Bytes) : List Message :=
  frames.filterMap fun frame => (Message.decode frame).result.toOption

/-- The messages among the lines are the responses that have nothing in front of them. -/
theorem messagesOf_lines {as : List DeliveredLine} (h : ∀ a ∈ as, IsScrap a.before) :
    messagesOf (as.map DeliveredLine.bytes) =
      (as.filter fun a => a.before = []).map fun a =>
        ⟨.statusResponse a.delivery.response, []⟩ := by
  induction as with
  | nil => rfl
  | cons a as ih =>
    rw [List.forall_mem_cons] at h
    have hrest := ih h.2
    rw [messagesOf] at hrest ⊢
    rw [List.map_cons, List.filterMap_cons, hrest]
    by_cases hbefore : a.before = []
    · rw [DeliveredLine.decode_bytes hbefore, List.filter_cons_of_pos (by simpa using hbefore),
        List.map_cons]
      rfl
    · obtain ⟨f, hf⟩ := DeliveredLine.decode_bytes_of_scrap h.1 hbefore
      rw [hf, List.filter_cons_of_neg (by simpa using hbefore)]
      rfl

namespace SharedWriter

/-- **What arrives over a channel that may fail anywhere.**  Let responses be sent one after another
over a channel that never lets the writer wait, but may fail at any byte and take bytes again later.
The other side gets one line for each frame that is out whole, in order, and every frame whose send
has succeeded is; the line is what failed sends have left in front of the frame, and the frame.  The
messages that it reads are the responses in front of whose frames nothing was left; the other lines
are no messages.  If no send has failed in the middle of its frame, then however the bytes are cut
into chunks, the responses that are read are those whose frames are out whole, in order. -/
theorem messages_of_deliver {c : Channel} (hc : c.Prompt) (responses : List Response) :
    let sent := fresh.deliver c 0 responses
    let stream := (fresh.afterDeliver c 0 responses).seen.bytes
    sent.map Delivery.response = responses ∧
      (∀ d ∈ sent, d.result = .ok () → d.IsWhole) ∧
      (linesOf [] sent).map DeliveredLine.delivery = sent.filter (fun d => d.IsWhole) ∧
      (Framer.default.feed stream).frames = (linesOf [] sent).map DeliveredLine.bytes ∧
      messagesOf (Framer.default.feed stream).frames =
        ((linesOf [] sent).filter fun a => a.before = []).map
          (fun a => ⟨.statusResponse a.delivery.response, []⟩) ∧
      ((∀ d ∈ sent, d.taken = [] ∨ d.IsWhole) →
        ∀ chunks : List Bytes, chunks.flatten = stream →
          (Framer.default.feedAll chunks).frames.map Message.decode =
            (sent.filter fun d => d.IsWhole).map fun d =>
              ⟨[], .ok ⟨.statusResponse d.response, []⟩⟩) := by
  intro sent stream
  obtain ⟨hbytes, hresponses, hfair⟩ := idle_fresh.deliver hc 0 responses
  have hstream : stream = sent.flatMap Delivery.taken := hbytes
  have hframes : (Framer.default.feed stream).frames =
      (linesOf [] sent).map DeliveredLine.bytes := by
    rw [Framer.frames_feed, hstream]
    exact completeSegments_flatMap_taken hfair List.not_mem_nil
  refine ⟨hresponses, fun d hd => (hfair d hd).whole, map_delivery_linesOf [] sent, hframes, ?_, ?_⟩
  · rw [hframes]
    exact messagesOf_lines fun a ha => isScrap_of_mem_linesOf hfair (Or.inl rfl) ha
  · intro huntorn chunks hchunks
    rw [hstream, flatMap_taken_of_not_torn huntorn] at hchunks
    rw [(Framer.decode_frames_of_responses _ chunks hchunks).1, List.map_map]
    rfl

/-- Three responses over a channel that fails in the middle of the first frame.  The second one
comes on the line that the first one has begun and is not read; the third one is. -/
theorem messages_of_deliver_stumbling :
    let aa : Tag := ⟨[0xAA], by decide, by decide⟩
    let rented : Response := .bare aa .rented
    let expired : Response := ⟨.expired, aa, 5, 6⟩
    let c := Channel.stumbling 10
    let sent := fresh.deliver c 0 [rented, expired, rented]
    let stream := (fresh.afterDeliver c 0 [rented, expired, rented]).seen.bytes
    c.Prompt ∧ sent.map Delivery.result = [.error (.write "device busy"), .ok (), .ok ()] ∧
      (Framer.default.feed stream).frames =
        [rented.encode.take 10 ++ expired.payload, rented.payload] ∧
      messagesOf (Framer.default.feed stream).frames = [⟨.statusResponse rented, []⟩] := by
  intro aa rented expired c sent stream
  have hc : c.Prompt := Channel.prompt_stumbling (by decide)
  have hresults : sent.map Delivery.result = [.error (.write "device busy"), .ok (), .ok ()] := by
    decide +kernel
  have hlines : linesOf [] sent =
      [⟨rented.encode.take 10, ⟨expired, .ok (), expired.encode⟩⟩,
        ⟨[], ⟨rented, .ok (), rented.encode⟩⟩] := by
    decide +kernel
  obtain ⟨-, -, -, hframes, hmessages, -⟩ := messages_of_deliver hc [rented, expired, rented]
  have hread : ((linesOf [] sent).filter fun a => a.before = []).map
      (fun a => (⟨.statusResponse a.delivery.response, []⟩ : Message)) =
        [⟨.statusResponse rented, []⟩] := by
    rw [hlines]
    rfl
  exact ⟨hc, hresults, hframes.trans (congrArg _ hlines), hmessages.trans hread⟩

/-- **A frame that was sent can be lost.**  The first of two sends fails in the middle of its frame,
and the second one succeeds, but its response is not among the messages that arrive. -/
theorem sent_not_received :
    let aa : Tag := ⟨[0xAA], by decide, by decide⟩
    let rented : Response := .bare aa .rented
    let expired : Response := ⟨.expired, aa, 5, 6⟩
    let c := Channel.stumbling 10
    let sent := fresh.deliver c 0 [rented, expired]
    let stream := (fresh.afterDeliver c 0 [rented, expired]).seen.bytes
    c.Prompt ∧ sent.map Delivery.result = [.error (.write "device busy"), .ok ()] ∧
      messagesOf (Framer.default.feed stream).frames = [] ∧
      ¬((sent.filter fun d => d.result = .ok ()).map fun d =>
          (⟨.statusResponse d.response, []⟩ : Message)).Sublist
        (messagesOf (Framer.default.feed stream).frames) := by
  intro aa rented expired c sent stream
  have hresults : sent.map Delivery.result = [.error (.write "device busy"), .ok ()] := by
    decide +kernel
  have hsent : sent.filter (fun d => d.result = .ok ()) = [⟨expired, .ok (), expired.encode⟩] := by
    decide +kernel
  have hframes : (Framer.default.feed stream).frames =
      [rented.encode.take 10 ++ expired.payload] := by
    decide +kernel
  have hmessages : messagesOf (Framer.default.feed stream).frames = [] := by
    rw [hframes]
    rfl
  refine ⟨Channel.prompt_stumbling (by decide), hresults, hmessages, ?_⟩
  rw [hmessages, hsent, List.sublist_nil]
  exact List.cons_ne_nil _ _

end SharedWriter
end TagRental
