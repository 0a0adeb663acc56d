import TagRental.Proofs.Gateway.Chunking
import TagRental.Proofs.Json.Surroundings
import TagRental.Proofs.Rental.FrameEffect

/-!
# Line endings

A frame ends with a line feed, and what the gateway writes in front of it is part of the frame.  A
gateway that ends its lines with a carriage return and a line feed therefore sends frames with a
carriage return at their end, and one that indents its messages sends frames that begin with blanks.

Neither makes a difference.  A message with white space around it is read as the same message, with
the same remarks, and what is no message stays none (`Message.decode_spaced`).  A frame does nothing
but what the command in it does, so a backend cannot tell the two apart in anything but its log
(`Backend.effect_handleFrame_of_command?`).

What may differ is the fault.  If the payload is JSON, the fault is the same, since it is that of
the value.  If it is not, the place moves; and if the text breaks off within a string, a name or a
number, the fault may be another one altogether, because the white space then stands where more of
the token was due (`Message.other_words_behind_broken_text`).
-/

namespace TagRental

namespace Message

/-- Two faults that are reported in the same words, save for the place. -/
inductive Fault.SameWords : Fault → Fault → Prop
  | same (f : Fault) : SameWords f f
  | moved (cause : Json.Cause) (place place' : Json.Place) :
      SameWords (.notJson ⟨cause, place⟩) (.notJson ⟨cause, place'⟩)

theorem Fault.SameWords.cause {f g : Json.SyntaxFault}
    (h : SameWords (.notJson f) (.notJson g)) : f.cause = g.cause := by
  cases h <;> rfl

section Spaced

variable {before after : Bytes} (hbefore : Json.Blank before) (hafter : Json.Blank after)
  (payload : Bytes)

include hbefore hafter

/-- **White space around a message** is not part of it.  Either both payloads are JSON, and then
they are read alike, whether as a message or as none, or neither of them is. -/
theorem decode_spaced :
    decode (before ++ payload ++ after) = decode payload ∨
      ∃ f f', decode payload = .fail (.notJson f) ∧
        decode (before ++ payload ++ after) = .fail (.notJson f') ∧
        (¬Json.BreaksOff payload → f'.cause = f.cause) := by
  have hparse := Json.parse_spaced hbefore hafter payload
  unfold decode
  cases hbare : Json.parse payload with
  | ok v =>
    rw [(hparse v).mpr hbare]
    exact Or.inl rfl
  | error f =>
    cases hwide : Json.parse (before ++ payload ++ after) with
    | ok v => cases hbare.symm.trans ((hparse v).mp hwide)
    | error f' =>
      refine Or.inr ⟨f, f', rfl, rfl, fun hbreaks => ?_⟩
      have hverdict := Json.verdict_parse_spaced hbefore hafter payload hbreaks
      rw [hbare, hwide] at hverdict
      exact Except.error.inj hverdict

theorem result_decode_spaced (m : Message) :
    (decode (before ++ payload ++ after)).result = .ok m ↔ (decode payload).result = .ok m := by
  rcases decode_spaced hbefore hafter payload with h | ⟨f, f', hbare, hwide, -⟩
  · rw [h]
  · rw [hbare, hwide]
    exact iff_of_false (fun h => nomatch h) (fun h => nomatch h)

theorem remarks_decode_spaced :
    (decode (before ++ payload ++ after)).remarks = (decode payload).remarks := by
  rcases decode_spaced hbefore hafter payload with h | ⟨f, f', hbare, hwide, -⟩
  · rw [h]
  · rw [hbare, hwide]
    rfl

end Spaced

end Message

/-! ## Frames -/

/-- What an outcome is besides what it logs: the result, the backend afterwards, and the offers. -/
def Outcome.effect {α : Type} (o : Outcome α) : α × Backend × List Offer :=
  (o.result, o.backend, o.offers)

/-- Lines, each with the delimiter behind it. -/
def delimited (lines : List Bytes) : Bytes := lines.flatMap fun line => line ++ [delimiter]

/-- A line with a carriage return at its end. -/
def returned (line : Bytes) : Bytes := line ++ [0x0D]

theorem completeSegments_delimited {lines : List Bytes} (h : ∀ line ∈ lines, delimiter ∉ line) :
    completeSegments (delimited lines) = lines := by
  induction lines with
  | nil => rfl
  | cons line lines ih =>
    obtain ⟨hline, hlines⟩ := List.forall_mem_cons.mp h
    rw [delimited, List.flatMap_cons, List.append_assoc, List.singleton_append,
      completeSegments_append_delimiter hline]
    exact congrArg _ (ih hlines)

theorem delimiter_not_mem_returned {line : Bytes} (h : delimiter ∉ line) :
    delimiter ∉ returned line := by
  rw [returned, List.mem_append, not_or]
  exact ⟨h, by decide⟩

/-- A framer that drops nothing returns what the delimiters end. -/
theorem Framer.frames_feedAll_of_dropped_eq_nil {f : Framer} {chunks : List Bytes}
    (hkept : delimiter ∉ f.kept) (h : (f.feedAll chunks).dropped = []) :
    (f.feedAll chunks).frames = completeSegments (f.kept ++ chunks.flatten) := by
  induction chunks generalizing f with
  | nil =>
    rw [List.flatten_nil, List.append_nil, completeSegments_of_not_mem hkept]
    rfl
  | cons chunk chunks ih =>
    obtain ⟨hfirst, hlater⟩ := List.append_eq_nil_iff.mp h
    have hfits : (openSegment (f.kept ++ chunk)).length ≤ f.limit := by
      by_contra hlong
      rw [dropped_feed, if_neg hlong] at hfirst
      cases hfirst
    have hnext := (feed_of_fits hfits).1
    have hopen : delimiter ∉ (f.feed chunk).next.kept := by
      rw [hnext]
      exact delimiter_not_mem_openSegment _
    have hrest := ih hopen hlater
    rw [List.flatten_cons, ← List.append_assoc, completeSegments_append, feedAll, frames_feed,
      hrest, hnext]

namespace Backend

variable (outlet : Outlet) (b : Backend)

/-- A frame does what its command does. -/
theorem effect_handleFrame_of_command? {payload payload' : Bytes}
    (h : (Action.frame payload).command? = (Action.frame payload').command?) :
    (b.handleFrame outlet payload).effect = (b.handleFrame outlet payload').effect := by
  have hstore : (Dispatch.handle b.terms b.clock b.store payload).store =
      (Dispatch.handle b.terms b.clock b.store payload').store := by
    rw [Dispatch.store_handle, Dispatch.store_handle, h]
  have hresponse : (Dispatch.handle b.terms b.clock b.store payload).response? =
      (Dispatch.handle b.terms b.clock b.store payload').response? := by
    rw [Dispatch.response?_handle, Dispatch.response?_handle, h]
  simp only [Outcome.effect, result_handleFrame, backend_handleFrame, offers_handleFrame_eq, hstore,
    hresponse]

/-- **White space around a frame** has no effect. -/
theorem effect_handleFrame_spaced {before after : Bytes} (hbefore : Json.Blank before)
    (hafter : Json.Blank after) (payload : Bytes) :
    (b.handleFrame outlet (before ++ payload ++ after)).effect =
      (b.handleFrame outlet payload).effect := by
  refine b.effect_handleFrame_of_command? outlet (Option.ext fun c => ?_)
  simp only [Action.command?_frame_eq_some_iff, Message.result_decode_spaced hbefore hafter]

/-- Lines with a carriage return have the effects of the lines without, one after another. -/
theorem map_effect_run_returned (lines : List Bytes) :
    (b.run outlet ((lines.map returned).map .frame)).map Outcome.effect =
      (b.run outlet (lines.map .frame)).map Outcome.effect := by
  have hreturn : Json.Blank [0x0D] := List.all_eq_true.mp rfl
  induction lines generalizing b with
  | nil => rfl
  | cons line lines ih =>
    have hline : (b.handleFrame outlet (returned line)).effect =
        (b.handleFrame outlet line).effect :=
      b.effect_handleFrame_spaced outlet (List.forall_mem_nil _) hreturn line
    have hstep : (b.step outlet (.frame (returned line))).effect =
        (b.step outlet (.frame line)).effect :=
      congrArg (fun e => (Report.frame e.1, e.2)) hline
    have hbackend : (b.step outlet (.frame (returned line))).backend =
        (b.step outlet (.frame line)).backend :=
      congrArg (fun e => e.2.1) hline
    rw [List.map_cons, List.map_cons, List.map_cons, run, run, List.map_cons, List.map_cons, hstep,
      hbackend, ih]

end Backend

/-! ## The statement -/

/-- **White space around a message makes no difference to what it does.**  Let a payload stand with
white space in front of it and behind it.

* It is read as a message exactly if the bare payload is, and then as the same message: with the
  same command and the same members left over.  The remarks are the same.
* If the bare payload is no message, the fault of the other is reported in the same words, save for
  the place, unless the payload breaks off within a string, a name or a number.
* Whatever the backend and the outlet, the outcome of the frame, the answers and the table are the
  same.

In particular, take lines that end with a line feed, and the same lines with a carriage return in
front of each line feed, cut into chunks in any way in which the framer drops nothing.  The frames
of the second have the same effects as those of the first, one by one. -/
theorem Message.space_around_ignored {before after : Bytes} (hbefore : Json.Blank before)
    (hafter : Json.Blank after) (payload : Bytes) :
    let wide := decode (before ++ payload ++ after)
    let bare := decode payload
    (∀ m, wide.result = .ok m ↔ bare.result = .ok m) ∧
      wide.remarks = bare.remarks ∧
      (∀ f, bare.result = .error f → ∃ f', wide.result = .error f' ∧
        (¬Json.BreaksOff payload → f'.SameWords f)) ∧
      (∀ (outlet : Outlet) (b : Backend),
        (b.handleFrame outlet (before ++ payload ++ after)).effect =
          (b.handleFrame outlet payload).effect) ∧
      ∀ (limit : Nat) (lines chunks chunks' : List Bytes), (∀ line ∈ lines, delimiter ∉ line) →
        chunks.flatten = delimited lines → chunks'.flatten = delimited (lines.map returned) →
        let plain := (Framer.withLimit limit).feedAll chunks
        let ended := (Framer.withLimit limit).feedAll chunks'
        plain.dropped = [] → ended.dropped = [] →
        plain.frames = lines ∧ ended.frames = lines.map returned ∧
          ∀ (outlet : Outlet) (b : Backend),
            (b.run outlet (ended.frames.map .frame)).map Outcome.effect =
              (b.run outlet (plain.frames.map .frame)).map Outcome.effect := by
  intro wide bare
  refine ⟨result_decode_spaced hbefore hafter payload, remarks_decode_spaced hbefore hafter payload,
    fun f hf => ?_, fun outlet b => b.effect_handleFrame_spaced outlet hbefore hafter payload, ?_⟩
  · rcases decode_spaced hbefore hafter payload with h | ⟨g, g', hbare, hwide, hcause⟩
    · refine ⟨f, ?_, fun _ => .same f⟩
      rw [← hf]
      exact congrArg Reading.result h
    · refine ⟨.notJson g', congrArg Reading.result hwide, fun hbreaks => ?_⟩
      have hfault : (.notJson g : Fault) = f :=
        Except.error.inj ((congrArg Reading.result hbare).symm.trans hf)
      obtain ⟨cause, place⟩ := g
      obtain ⟨cause', place'⟩ := g'
      obtain rfl : cause' = cause := hcause hbreaks
      rw [← hfault]
      exact .moved cause' place' place
  · intro limit lines chunks chunks' hlines hcut hcut' plain ended hplain hended
    have hframes : plain.frames = lines := by
      have h := Framer.frames_feedAll_of_dropped_eq_nil List.not_mem_nil hplain
      rw [hcut] at h
      exact h.trans (completeSegments_delimited hlines)
    have hreturned : ended.frames = lines.map returned := by
      have h := Framer.frames_feedAll_of_dropped_eq_nil List.not_mem_nil hended
      rw [hcut'] at h
      refine h.trans (completeSegments_delimited ?_)
      intro line hline
      obtain ⟨bare, hbare, rfl⟩ := List.mem_map.mp hline
      exact delimiter_not_mem_returned (hlines bare hbare)
    refine ⟨hframes, hreturned, fun outlet b => ?_⟩
    rw [hframes, hreturned]
    exact b.map_effect_run_returned outlet lines

/-- The question about an item, with blanks in front of it and a carriage return behind it, and two
questions on lines that end with a carriage return and a line feed, cut between the two. -/
theorem Message.space_around_ignored_crlf :
    let aa : Tag := ⟨[0xAA], by decide, by decide⟩
    let question : Bytes := (Json.object
      [("cmd", .int 3), ("tag_id", .text "aa"), ("tag_id_len", .int 1)]).chars.flatMap
        String.utf8EncodeChar
    let spaced := [0x20, 0x09] ++ question ++ [0x0D]
    let cut := [returned question, [0x0A], returned question ++ [0x0A]]
    Json.Blank [0x20, 0x09] ∧ Json.Blank [0x0D] ∧ delimiter ∉ question ∧
      ((Framer.withLimit 64).feedAll cut).dropped = [] ∧
      (decode spaced).result.toOption.map Message.command = some (.statusRequest aa) ∧
      ((Backend.start .usual 1000).handleFrame (fun _ _ => none) spaced).offers =
        [⟨.bare aa .available, none⟩] ∧
      ((Framer.withLimit 64).feedAll cut).frames = [returned question, returned question] := by
  intro aa question spaced cut
  have hbefore : Json.Blank [0x20, 0x09] := List.all_eq_true.mp rfl
  have hafter : Json.Blank [0x0D] := List.all_eq_true.mp rfl
  have hline : delimiter ∉ question := by decide
  have hdropped : ((Framer.withLimit 64).feedAll cut).dropped = [] := by decide
  obtain ⟨hread, -, -, heffect, hlines⟩ := space_around_ignored hbefore hafter question
  obtain ⟨-, hframes, -⟩ := hlines 64 [question, question] [delimited [question, question]] cut
    (by simp [hline]) (List.append_nil _) rfl (by decide) hdropped
  obtain ⟨m, hm, hcommand⟩ : ∃ m, (decode question).result = .ok m ∧
      m.command = .statusRequest aa := ⟨_, rfl, rfl⟩
  refine ⟨hbefore, hafter, hline, hdropped, ?_, ?_, hframes⟩
  · rw [(hread m).mpr hm]
    exact congrArg some hcommand
  · have hoffers := congrArg (fun e => e.2.2) (heffect (fun _ _ => none) (.start .usual 1000))
    refine hoffers.trans ?_
    decide +kernel

/-- A name that breaks off is a text that ends too early.  With a carriage return behind it, the
same text holds a name that there is not. -/
theorem Message.other_words_behind_broken_text :
    let early : Json.SyntaxFault := ⟨.endInValue, ⟨1, 3⟩⟩
    let wrong : Json.SyntaxFault := ⟨.badIdentifier, ⟨1, 4⟩⟩
    Json.Blank [0x0D] ∧ (decode (Utf8.encode "nul")).result = .error (.notJson early) ∧
      (decode (Utf8.encode "nul" ++ [0x0D])).result = .error (.notJson wrong) ∧
      early.cause.text ≠ wrong.cause.text ∧ ¬Fault.SameWords (.notJson wrong) (.notJson early) := by
  intro early wrong
  refine ⟨List.all_eq_true.mp rfl, rfl, rfl, by decide, fun h => ?_⟩
  cases h.cause

end TagRental
