import TagRental.Gateway.Message
import TagRental.Proofs.Gateway.Chunking
import TagRental.Proofs.Gateway.TableReading
import TagRental.Proofs.Gateway.TagText
import TagRental.Proofs.Json.ReadBack

/-!
# A stream of responses is read back

What the backend writes, one response after another, the other side receives as bytes in chunks of
its own.  This file proves that nothing is lost on the way: the chunks bring as many frames as
responses were written, each frame is read as the response that it was written for, with nothing
left over and nothing remarked on, and no part of the stream is dropped or stays behind.

Three properties of one written response carry this.

* It is *one line* (`delimiter_not_mem_payload`): a response is written without the byte that ends a
  frame, so the segments of the stream are the responses.
* It is *short* (`length_payload_le`), far below the limit on what a framer keeps, so no cut of the
  stream makes it too long.
* It is *read back* (`decode_payload`), by the table of the members of messages.  All numbers in it
  are below `2 ^ 64`, which is as far as the reader takes a number for an integer; the tag is read
  from its written form; and the length that is declared for it is its own.

The object that is read has its members in another order than the one that was written
(`Response.sorted`), and nothing in a message depends on that order.
-/

namespace TagRental

namespace Response

/-- The members of a response in the order of their keys, as they are read. -/
def sorted (r : Response) : Members :=
  [("cmd", .int command), ("duration", .int r.duration.toNat), ("status", .int r.status.code.toNat),
    ("tag_id", .text r.tag.hex), ("tag_id_len", .int r.tag.length),
    ("timestamp", .int r.timestamp.toNat)]

theorem normal_object_members (r : Response) :
    (Json.object r.members).normal = .object r.sorted := by
  rfl

theorem writable (r : Response) : Json.Writable 1 (.object r.members) := by
  have hstatus : r.status.code.toNat < UInt64.size :=
    Nat.lt_trans r.status.code.toNat_lt (by decide)
  refine .object ?_
  simp only [members, List.forall_mem_cons, List.not_mem_nil, false_implies, implies_true, and_true]
  exact ⟨.natCast 0 (by decide), .natCast 0 hstatus, .text 0 _, .natCast 0 r.tag.length_lt_size,
    .natCast 0 r.timestamp.toNat_lt, .natCast 0 r.duration.toNat_lt⟩

/-! ## One response is one line -/

theorem delimiter_not_mem_payload (r : Response) : delimiter ∉ r.payload := by
  intro h
  exact r.writable.newline_not_mem_chars (Utf8.mem_of_mem_encodeChars (by decide) h)

/-! ## One response is short -/

theorem textChars_hex (t : Tag) : Json.textChars t.hex = '"' :: Hex.chars t.bytes ++ ['"'] := by
  have hdigit : ∀ n < 16, Json.escapeChar (Hex.digitChar n) = [Hex.digitChar n] := by decide
  have hdigits : ∀ bytes : Bytes, (Hex.chars bytes).flatMap Json.escapeChar = Hex.chars bytes := by
    intro bytes
    induction bytes with
    | nil => rfl
    | cons b bytes ih =>
      rw [Hex.chars_cons, List.flatMap_append, ih, Hex.byteChars, List.flatMap_cons,
        List.flatMap_cons, hdigit _ (Hex.high_lt b), hdigit _ (Hex.low_lt b)]
      rfl
  rw [Json.textChars, Tag.hex, Hex.toList_encode, hdigits]

theorem length_textChars_hex_le (t : Tag) : (Json.textChars t.hex).length ≤ 34 := by
  have hlength : t.bytes.length ≤ 16 := t.length_le
  rw [textChars_hex, List.length_append, List.length_cons, Hex.length_chars, List.length_singleton]
  omega

theorem isAscii_textChars_hex (t : Tag) : ∀ c ∈ Json.textChars t.hex, Utf8.IsAscii c := by
  have hdigit : ∀ n < 16, Utf8.IsAscii (Hex.digitChar n) := by decide
  have hdigits : ∀ c ∈ Hex.chars t.bytes, Utf8.IsAscii c := by
    intro c hc
    obtain ⟨b, -, hb⟩ := List.mem_flatMap.mp hc
    rw [Hex.byteChars, List.mem_cons, List.mem_singleton] at hb
    rcases hb with rfl | rfl
    · exact hdigit _ (Hex.high_lt b)
    · exact hdigit _ (Hex.low_lt b)
  rw [textChars_hex, List.forall_mem_append, List.forall_mem_cons, List.forall_mem_singleton]
  exact ⟨⟨by decide, hdigits⟩, by decide⟩

theorem length_intChars_le {n : Nat} (h : n < UInt64.size) : (Json.intChars n).length ≤ 20 := by
  have hpos : ¬(n : Int) < 0 := by omega
  rw [Json.intChars, if_neg hpos, Int.natAbs_natCast,
    Nat.length_toDigits_le_iff (by decide) (by decide)]
  exact Nat.lt_trans h (by decide)

theorem isAscii_intChars (n : Nat) : ∀ c ∈ Json.intChars n, Utf8.IsAscii c := by
  have hpos : ¬(n : Int) < 0 := by omega
  intro c hc
  rw [Json.intChars, if_neg hpos, Int.natAbs_natCast] at hc
  have hdigit := Nat.isDigit_of_mem_toDigits (by decide) (by decide) hc
  rw [Char.isDigit_iff_toNat] at hdigit
  exact Nat.le_trans hdigit.2 (by decide)

theorem isAscii_chars_members (r : Response) :
    ∀ c ∈ (Json.object r.members).chars, Utf8.IsAscii c := by
  have hkeys : ∀ key ∈ ["cmd", "status", "tag_id", "tag_id_len", "timestamp", "duration"],
      ∀ c ∈ Json.textChars key, Utf8.IsAscii c := by
    have hall : ["cmd", "status", "tag_id", "tag_id_len", "timestamp", "duration"].all (fun key =>
        (Json.textChars key).all fun c => decide (Utf8.IsAscii c)) = true := by decide
    simpa only [List.all_eq_true, decide_eq_true_eq] using hall
  simp only [List.forall_mem_cons] at hkeys
  have htag := isAscii_textChars_hex r.tag
  have hcommand := isAscii_intChars command
  have hstatus := isAscii_intChars r.status.code.toNat
  have hlength := isAscii_intChars r.tag.length
  have htimestamp := isAscii_intChars r.timestamp.toNat
  have hduration := isAscii_intChars r.duration.toNat
  simp only [members, Json.chars, Json.membersChars, List.forall_mem_append, List.forall_mem_cons]
  grind

/-- A response has a byte for each of its characters, and the limit is nowhere near. -/
theorem length_payload_le (r : Response) : r.payload.length ≤ 255 := by
  have hkeys : ∀ key ∈ ["cmd", "status", "tag_id", "tag_id_len", "timestamp", "duration"],
      (Json.textChars key).length ≤ 12 := by decide
  simp only [List.forall_mem_cons] at hkeys
  have hhex := length_textChars_hex_le r.tag
  have hcommand : (Json.intChars command).length ≤ 20 := length_intChars_le (by decide)
  have hstatus := length_intChars_le (Nat.lt_trans r.status.code.toNat_lt (by decide))
  have hlength := length_intChars_le r.tag.length_lt_size
  have htimestamp := length_intChars_le r.timestamp.toNat_lt
  have hduration := length_intChars_le r.duration.toNat_lt
  rw [payload, Utf8.length_encodeChars_of_ascii r.isAscii_chars_members]
  simp only [members, Json.chars, Json.membersChars, List.length_append, List.length_cons,
    List.length_nil]
  omega

/-! ## One response is read back -/

theorem parse_payload (r : Response) : Json.parse r.payload = .ok (.object r.sorted) := by
  have hwritable : Json.Writable Json.Reader.maxDepth (.object r.members) :=
    r.writable.mono (by decide)
  rw [payload, Json.parse_encodeChars hwritable, normal_object_members]

end Response

namespace Message

theorem whole_length_sorted (r : Response) :
    Whole r.sorted "tag_id_len" (.ofNat r.tag.length) := by
  rw [Whole, UInt64.toNat_ofNat_of_lt' r.tag.length_lt_size]
  rfl

/-- What a response tells is what its object says. -/
theorem says_sorted (r : Response) : Says r.sorted (.statusResponse r) := by
  have hcmd : Whole r.sorted "cmd" 4 := rfl
  have hstatus : Whole r.sorted "status" r.status.code.toUInt64 := by
    rw [Whole, UInt8.toNat_toUInt64]
    rfl
  have htag : Tagged r.sorted r.tag := ⟨r.tag.hex, rfl, Tag.ofHex_hex r.tag⟩
  exact .statusResponse hcmd hstatus ⟨htag, _, whole_length_sorted r⟩ rfl rfl

/-- Nothing in a response is remarked on: the length that it declares is the actual one, and of its
duration nothing is demanded but that it is a number. -/
theorem remarks_sorted (r : Response) : Demand.remarks r.sorted (demands r.sorted) = [] := by
  have hcmd : wholeOf r.sorted "cmd" = some 4 := rfl
  have htag : tagOf r.sorted = some r.tag := tagOf_eq_some_iff.mpr ⟨r.tag.hex, rfl, r.tag.ofHex_hex⟩
  have hlength : Demand.tagLength.remark? r.sorted = none := by
    rw [Demand.remark?, htag, wholeOf_eq_some_iff.mpr (whole_length_sorted r)]
    exact if_pos (UInt64.toNat_ofNat_of_lt' r.tag.length_lt_size)
  have hduration : Demand.usableDuration ∉ demands r.sorted := by
    simp [demands, hcmd, Demand.ofCode, Demand.ofStatus, Demand.ofTag]
  rw [Demand.remarks, List.filterMap_eq_nil_iff]
  intro d hd
  cases d with
  | tagLength => exact hlength
  | usableDuration => exact absurd ((List.takeWhile_sublist _).subset hd) hduration
  | _ => rfl

/-- **A written response** is read as that response, with nothing left over and nothing remarked
on. -/
theorem decode_payload (r : Response) :
    decode r.payload = ⟨[], .ok ⟨.statusResponse r, []⟩⟩ := by
  have hsorted : Members.ofList r.sorted = r.sorted := Json.ofList_of_parse r.parse_payload
  have hjudged := judged_decode (hsorted.symm ▸ r.parse_payload)
  have hextra : [] = (Members.ofList r.sorted).filter fun e =>
      e.1 ∉ fields (.statusResponse r) := by
    rw [hsorted]
    rfl
  have hresult := (hjudged.ok ⟨.statusResponse r, []⟩).mpr ⟨says_sorted r, hextra⟩
  exact congrArg₂ Reading.mk (hjudged.remarks.trans (remarks_sorted r)) hresult

end Message

/-! ## The stream -/

namespace Response

theorem flatMap_encode_cons (r : Response) (rest : List Response) :
    (r :: rest).flatMap encode = r.payload ++ delimiter :: rest.flatMap encode := by
  rw [List.flatMap_cons, encode, List.append_assoc]
  rfl

theorem completeSegments_flatMap_encode (responses : List Response) :
    completeSegments (responses.flatMap encode) = responses.map payload := by
  induction responses with
  | nil => rfl
  | cons r rest ih =>
    rw [flatMap_encode_cons, completeSegments_append_delimiter r.delimiter_not_mem_payload, ih,
      List.map_cons]

theorem openSegment_flatMap_encode (responses : List Response) :
    openSegment (responses.flatMap encode) = [] := by
  induction responses with
  | nil => rfl
  | cons r rest ih =>
    rw [flatMap_encode_cons, openSegment_append_delimiter r.delimiter_not_mem_payload, ih]

/-- No response in a stream is too long for a framer. -/
theorem fitsLimit_flatMap_encode (responses : List Response) :
    FitsLimit Framer.defaultLimit (responses.flatMap encode) where
  complete := by
    rw [completeSegments_flatMap_encode]
    intro xs hxs
    obtain ⟨r, -, rfl⟩ := List.mem_map.mp hxs
    exact Nat.le_trans r.length_payload_le (by decide)
  rest := by
    rw [openSegment_flatMap_encode]
    exact Nat.zero_le _

end Response

/-- **A stream of responses arrives.**  However the written responses are cut into chunks, the
frames that the chunks bring are read as those responses, in order, with nothing left over and
nothing remarked on; nothing is kept in the end, and nothing was dropped. -/
theorem Framer.decode_frames_of_responses (responses : List Response) (chunks : List Bytes)
    (h : chunks.flatten = responses.flatMap Response.encode) :
    (Framer.default.feedAll chunks).frames.map Message.decode =
        responses.map (fun r => ⟨[], .ok ⟨.statusResponse r, []⟩⟩) ∧
      (Framer.default.feedAll chunks).next.kept = [] ∧
      (Framer.default.feedAll chunks).dropped = [] := by
  have hstream : Framer.default.kept ++ chunks.flatten = responses.flatMap Response.encode := h
  have hfits : FitsLimit Framer.default.limit (Framer.default.kept ++ chunks.flatten) := by
    rw [hstream]
    exact Response.fitsLimit_flatMap_encode responses
  obtain ⟨hframes, hkept, hdropped⟩ :=
    Framer.default.feedAll_of_fits chunks hfits List.not_mem_nil
  rw [hstream] at hframes hkept
  rw [Response.completeSegments_flatMap_encode] at hframes
  rw [Response.openSegment_flatMap_encode] at hkept
  refine ⟨?_, hkept, hdropped⟩
  rw [hframes, List.map_map]
  exact List.map_congr_left fun r _ => Message.decode_payload r

/-- Two responses that arrive byte by byte, with an empty chunk in front. -/
theorem Framer.decode_frames_of_responses_bytewise :
    let aa : Tag := ⟨[0xAA], by decide, by decide⟩
    let last : Response := ⟨.expired, aa, 18446744073709551615, 18446744073709551615⟩
    let responses : List Response := [.bare aa .rented, last]
    let chunks : List Bytes := [] :: (responses.flatMap Response.encode).map fun b => [b]
    chunks.flatten = responses.flatMap Response.encode ∧
      (Framer.default.feedAll chunks).frames.map Message.decode =
        [⟨[], .ok ⟨.statusResponse (.bare aa .rented), []⟩⟩,
          ⟨[], .ok ⟨.statusResponse last, []⟩⟩] := by
  intro aa last responses chunks
  have hflatten : chunks.flatten = responses.flatMap Response.encode := by
    simp only [chunks, List.flatten_cons, List.nil_append, ← List.flatMap_def,
      List.flatMap_singleton']
  exact ⟨hflatten, (Framer.decode_frames_of_responses responses chunks hflatten).1⟩

end TagRental
