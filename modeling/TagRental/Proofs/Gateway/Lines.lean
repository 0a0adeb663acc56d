import TagRental.Proofs.Gateway.Chunking

/-!
# The lines of a stream

`List.splitOn` cuts a list at every occurrence of an element.  Cut at its delimiters, a byte string
is a list of *lines*, each of which a delimiter ends, and one piece more: what follows the last
delimiter.  The framer finds the same pieces from the right and keeps the last one apart, so its
complete segments are all pieces but the last (`completeSegments_eq_dropLast`), and its open segment
is the last one (`openSegment_eq_getLast`).

Said in these words, the framer has nothing to do with chunks: whoever feeds it a stream piecemeal
gets the lines of the stream (`Framer.feedAll_lines_of_stream`).  The one condition is that no piece
of the stream is longer than the limit.  A piece of exactly that length is let through, also where a
chunk ends just in front of its delimiter.
-/

namespace TagRental

/-- The segments of a byte string are the pieces that the library cuts it into. -/
theorem splitOn_delimiter (bytes : Bytes) :
    bytes.splitOn delimiter = (segments bytes).1 :: (segments bytes).2 := by
  induction bytes using segmentInduction with
  | rest xs hxs => rw [List.splitOn_eq_singleton hxs, segments_of_not_mem hxs]
  | segment xs ys hxs ih =>
    rw [List.splitOn_append_cons_self_of_not_mem hxs, ih, segments_append_delimiter hxs]

theorem completeSegments_eq_dropLast (bytes : Bytes) :
    completeSegments bytes = (bytes.splitOn delimiter).dropLast := by
  rw [splitOn_delimiter]
  rfl

theorem openSegment_eq_getLast (bytes : Bytes) :
    openSegment bytes = (bytes.splitOn delimiter).getLast
      (List.splitOn_ne_nil delimiter bytes) := by
  simp only [splitOn_delimiter]
  rfl

/-- Bytes fit a limit exactly if each of their pieces does. -/
theorem fitsLimit_iff {limit : Nat} {bytes : Bytes} :
    FitsLimit limit bytes ↔ ∀ piece ∈ bytes.splitOn delimiter, piece.length ≤ limit := by
  have hpieces := List.dropLast_concat_getLast (List.splitOn_ne_nil delimiter bytes)
  rw [← completeSegments_eq_dropLast, ← openSegment_eq_getLast] at hpieces
  rw [← hpieces, List.forall_mem_append, List.forall_mem_singleton]
  exact ⟨fun h => ⟨h.complete, h.rest⟩, fun h => ⟨h.1, h.2⟩⟩

namespace Framer

/-- What the framer makes of a stream in chunks, in the words of the library. -/
theorem feedAll_withLimit {limit : Nat} {chunks : List Bytes}
    (h : ∀ piece ∈ chunks.flatten.splitOn delimiter, piece.length ≤ max limit 1) :
    ((withLimit limit).feedAll chunks).frames = (chunks.flatten.splitOn delimiter).dropLast ∧
      ((withLimit limit).feedAll chunks).next.kept =
        (chunks.flatten.splitOn delimiter).getLast (List.splitOn_ne_nil delimiter _) ∧
      ((withLimit limit).feedAll chunks).dropped = [] := by
  have hfits : FitsLimit (withLimit limit).limit ((withLimit limit).kept ++ chunks.flatten) :=
    fitsLimit_iff.mpr h
  have hfed := (withLimit limit).feedAll_of_fits chunks hfits List.not_mem_nil
  rw [kept_withLimit, List.nil_append, completeSegments_eq_dropLast, openSegment_eq_getLast] at hfed
  exact hfed

/-- **Only the stream counts.**  Let no piece of a stream be longer than the limit, which is at
least one.  However the stream is cut into chunks, a new framer returns the lines of the stream, the
empty ones among them, in order; what follows the last delimiter is kept; and nothing is dropped. -/
theorem feedAll_lines_of_stream (limit : Nat) (stream : Bytes) (chunks : List Bytes)
    (hcut : chunks.flatten = stream)
    (hfits : ∀ piece ∈ stream.splitOn delimiter, piece.length ≤ max limit 1) :
    let intake := (withLimit limit).feedAll chunks
    intake.frames = (stream.splitOn delimiter).dropLast ∧
      some intake.next.kept = (stream.splitOn delimiter).getLast? ∧
      intake.dropped = [] := by
  intro intake
  subst hcut
  obtain ⟨hframes, hkept, hdropped⟩ := feedAll_withLimit hfits
  refine ⟨hframes, ?_, hdropped⟩
  rw [List.getLast?_eq_some_getLast (List.splitOn_ne_nil delimiter _)]
  exact congrArg some hkept

/-- Two lines and a rest, of three bytes, none and three, in chunks that end in front of a
delimiter, behind one, and in the rest, for a limit of three. -/
theorem feedAll_lines_of_stream_at_limit :
    let stream : Bytes := [0x61, 0x62, 0x63, 0x0A, 0x0A, 0x64, 0x65, 0x66]
    let chunks : List Bytes := [[0x61, 0x62, 0x63], [0x0A], [], [0x0A, 0x64], [0x65, 0x66]]
    chunks.flatten = stream ∧ (∀ piece ∈ stream.splitOn delimiter, piece.length ≤ max 3 1) ∧
      ((withLimit 3).feedAll chunks).frames = [[0x61, 0x62, 0x63], []] ∧
      some ((withLimit 3).feedAll chunks).next.kept = some [0x64, 0x65, 0x66] ∧
      ((withLimit 3).feedAll chunks).dropped = [] := by
  intro stream chunks
  have hsplit : stream.splitOn delimiter = [[0x61, 0x62, 0x63], [], [0x64, 0x65, 0x66]] := by decide
  have hfits : ∀ piece ∈ stream.splitOn delimiter, piece.length ≤ max 3 1 := by
    rw [hsplit]
    decide
  obtain ⟨hframes, hkept, hdropped⟩ := feedAll_lines_of_stream 3 stream chunks rfl hfits
  rw [hsplit] at hframes hkept
  exact ⟨rfl, hfits, hframes, hkept, hdropped⟩

end Framer
end TagRental
