import TagRental.Gateway.Framing

/-!
# Chunks do not matter

The transport cuts the stream wherever it likes.  As long as no segment of the stream is longer than
the limit, what the framer makes of it does not depend on the cuts: the frames are the segments that
a delimiter ends, in order, and what is kept is the rest.

A byte string is a delimiter-free rest behind some delimited segments, and `segmentInduction` makes
an induction out of that.  With it the two halves of what `segments` finds are computed along a
concatenation (`completeSegments_append`, `openSegment_append`): a part that was already cut off
stays cut off, and only the open segment of the first part meets the second.  That is exactly what a
framer keeps between two chunks.
-/

namespace TagRental

/-! ## Segments -/

/-- Every byte string is a rest without a delimiter, behind any number of segments that a delimiter
ends. -/
theorem segmentInduction {motive : Bytes → Prop} (rest : ∀ xs, delimiter ∉ xs → motive xs)
    (segment : ∀ xs ys, delimiter ∉ xs → motive ys → motive (xs ++ delimiter :: ys))
    (bytes : Bytes) :
    motive bytes := by
  -- the bytes of the segment that is being read are carried along in front
  have hgo : ∀ bytes xs, delimiter ∉ xs → motive (xs ++ bytes) := by
    intro bytes
    induction bytes with
    | nil =>
      intro xs hxs
      rw [List.append_nil]
      exact rest xs hxs
    | cons b bytes ih =>
      intro xs hxs
      by_cases hb : b = delimiter
      · subst hb
        exact segment xs bytes hxs (ih [] List.not_mem_nil)
      · have hsnoc : delimiter ∉ xs ++ [b] := by
          rw [List.mem_append, List.mem_singleton, not_or]
          exact ⟨hxs, fun h => hb h.symm⟩
        have hmore := ih (xs ++ [b]) hsnoc
        rwa [List.append_assoc] at hmore
  exact hgo bytes [] List.not_mem_nil

theorem segments_append_of_not_mem {xs : Bytes} (h : delimiter ∉ xs) (ys : Bytes) :
    segments (xs ++ ys) = (xs ++ (segments ys).1, (segments ys).2) := by
  induction xs with
  | nil => rfl
  | cons b xs ih =>
    rw [List.mem_cons, not_or] at h
    rw [List.cons_append, segments_cons, ih h.2, segmentsStep, if_neg fun hb => h.1 hb.symm]
    rfl

section Rest

variable {xs : Bytes} (h : delimiter ∉ xs)
include h

theorem segments_of_not_mem : segments xs = (xs, []) := by
  have happ := segments_append_of_not_mem h []
  rwa [List.append_nil, segments_nil, List.append_nil] at happ

theorem completeSegments_of_not_mem : completeSegments xs = [] := by
  rw [completeSegments, segments_of_not_mem h]
  rfl

theorem openSegment_of_not_mem : openSegment xs = xs := by
  simp only [openSegment, segments_of_not_mem h, List.getLast_singleton]

theorem segments_append_delimiter (ys : Bytes) :
    segments (xs ++ delimiter :: ys) = (xs, (segments ys).1 :: (segments ys).2) := by
  rw [segments_append_of_not_mem h, segments_cons, segmentsStep, if_pos rfl, List.append_nil]

theorem completeSegments_append_delimiter (ys : Bytes) :
    completeSegments (xs ++ delimiter :: ys) = xs :: completeSegments ys := by
  rw [completeSegments, segments_append_delimiter h]
  rfl

theorem openSegment_append_delimiter (ys : Bytes) :
    openSegment (xs ++ delimiter :: ys) = openSegment ys := by
  simp only [openSegment, segments_append_delimiter h, List.getLast_cons_cons]

end Rest

/-- What was cut off of the first part stays cut off; the open segment meets the second part. -/
theorem completeSegments_append (xs ys : Bytes) :
    completeSegments (xs ++ ys) = completeSegments xs ++
      completeSegments (openSegment xs ++ ys) := by
  induction xs using segmentInduction with
  | rest xs hxs => rw [completeSegments_of_not_mem hxs, openSegment_of_not_mem hxs, List.nil_append]
  | segment us vs hus ih =>
    rw [List.append_assoc, List.cons_append, completeSegments_append_delimiter hus, ih,
      completeSegments_append_delimiter hus, openSegment_append_delimiter hus, List.cons_append]

theorem openSegment_append (xs ys : Bytes) :
    openSegment (xs ++ ys) = openSegment (openSegment xs ++ ys) := by
  induction xs using segmentInduction with
  | rest xs hxs => rw [openSegment_of_not_mem hxs]
  | segment us vs hus ih =>
    rw [List.append_assoc, List.cons_append, openSegment_append_delimiter hus, ih,
      openSegment_append_delimiter hus]

/-- An open segment holds no delimiter. -/
theorem delimiter_not_mem_openSegment (bytes : Bytes) : delimiter ∉ openSegment bytes := by
  induction bytes using segmentInduction with
  | rest xs hxs => rwa [openSegment_of_not_mem hxs]
  | segment xs ys hxs ih => rwa [openSegment_append_delimiter hxs]

/-- No segment of the bytes is longer than the limit. -/
structure FitsLimit (limit : Nat) (bytes : Bytes) : Prop where
  complete : ∀ xs ∈ completeSegments bytes, xs.length ≤ limit
  rest : (openSegment bytes).length ≤ limit

namespace FitsLimit

variable {limit : Nat}

/-- The segment at the front of bytes that fit. -/
theorem length_le_of_append {xs ys : Bytes} (h : FitsLimit limit (xs ++ ys))
    (hxs : delimiter ∉ xs) :
    xs.length ≤ limit := by
  induction ys using segmentInduction with
  | rest ys hys =>
    have happ : delimiter ∉ xs ++ ys := by
      rw [List.mem_append, not_or]
      exact ⟨hxs, hys⟩
    have hlen := h.rest
    rw [openSegment_of_not_mem happ, List.length_append] at hlen
    omega
  | segment us vs hus ih =>
    have happ : delimiter ∉ xs ++ us := by
      rw [List.mem_append, not_or]
      exact ⟨hxs, hus⟩
    have hlen := h.complete (xs ++ us) (by
      rw [← List.append_assoc, completeSegments_append_delimiter happ]
      exact List.mem_cons_self)
    rw [List.length_append] at hlen
    omega

/-- If bytes fit, then the open segment in the middle fits with what follows. -/
theorem of_append {xs ys : Bytes} (h : FitsLimit limit (xs ++ ys)) :
    FitsLimit limit (openSegment xs ++ ys) where
  complete := fun s hs => h.complete s (by
    rw [completeSegments_append]
    exact List.mem_append_right _ hs)
  rest := by
    rw [← openSegment_append]
    exact h.rest

/-- If bytes fit, then what is open in the middle fits. -/
theorem length_openSegment_le {xs ys : Bytes} (h : FitsLimit limit (xs ++ ys)) :
    (openSegment xs).length ≤ limit :=
  h.of_append.length_le_of_append (delimiter_not_mem_openSegment xs)

end FitsLimit

/-! ## Many chunks -/

namespace Framer

/-- What several chunks bring together: the frames, the framer afterwards, and the lengths of what
had to be dropped. -/
structure Intake where
  frames : List Bytes
  next : Framer
  dropped : List Nat

/-- Takes in chunks one after another. -/
def feedAll (f : Framer) : List Bytes → Intake
  | [] => ⟨[], f, []⟩
  | chunk :: chunks =>
    let fed := f.feed chunk
    let later := fed.next.feedAll chunks
    ⟨fed.frames ++ later.frames, later.next, fed.dropped.toList ++ later.dropped⟩

/-- One chunk that leaves no more open than the limit allows. -/
theorem feed_of_fits {f : Framer} {chunk : Bytes}
    (h : (openSegment (f.kept ++ chunk)).length ≤ f.limit) :
    (f.feed chunk).next = { f with kept := openSegment (f.kept ++ chunk) } ∧
      (f.feed chunk).dropped = none := by
  simp only [feed, if_pos h, and_self]

/-- **The cuts do not matter.**  If nothing in the stream is longer than the limit, then its chunks
bring its complete segments, in order; its open segment is kept, and nothing is dropped. -/
theorem feedAll_of_fits (f : Framer) (chunks : List Bytes)
    (h : FitsLimit f.limit (f.kept ++ chunks.flatten)) (hkept : delimiter ∉ f.kept) :
    (f.feedAll chunks).frames = completeSegments (f.kept ++ chunks.flatten) ∧
      (f.feedAll chunks).next.kept = openSegment (f.kept ++ chunks.flatten) ∧
      (f.feedAll chunks).dropped = [] := by
  induction chunks generalizing f with
  | nil =>
    rw [List.flatten_nil, List.append_nil, completeSegments_of_not_mem hkept,
      openSegment_of_not_mem hkept]
    exact ⟨rfl, rfl, rfl⟩
  | cons chunk chunks ih =>
    rw [List.flatten_cons, ← List.append_assoc] at h ⊢
    obtain ⟨hnext, hdropped⟩ := feed_of_fits h.length_openSegment_le
    obtain ⟨hframes, hrest, hnone⟩ := ih (f.feed chunk).next (by
      rw [hnext]
      exact h.of_append) (by
      rw [hnext]
      exact delimiter_not_mem_openSegment _)
    rw [hnext] at hframes hrest hnone
    rw [completeSegments_append (f.kept ++ chunk), openSegment_append (f.kept ++ chunk)]
    simp only [feedAll, frames_feed, hnext, hdropped, hframes, hrest, hnone, Option.toList_none,
      List.append_nil, and_self]

/-- A segment that is too long already is never completed if the complete ones fit. -/
theorem delimiter_not_mem_of_length_lt {limit : Nat} {xs ys : Bytes} (hxs : delimiter ∉ xs)
    (hlong : limit < xs.length) (h : ∀ s ∈ completeSegments (xs ++ ys), s.length ≤ limit) :
    delimiter ∉ ys := by
  induction ys using segmentInduction with
  | rest ys hys => exact hys
  | segment us vs hus _ =>
    have happ : delimiter ∉ xs ++ us := by
      rw [List.mem_append, not_or]
      exact ⟨hxs, hus⟩
    have hlength := h (xs ++ us) (by
      rw [← List.append_assoc, completeSegments_append_delimiter happ]
      exact List.mem_cons_self)
    rw [List.length_append] at hlength
    omega

/-- The cuts do not matter for the frames even if the last segment, which is none of them, is too
long. -/
theorem frames_feedAll (f : Framer) (chunks : List Bytes)
    (h : ∀ s ∈ completeSegments (f.kept ++ chunks.flatten), s.length ≤ f.limit)
    (hkept : delimiter ∉ f.kept) :
    (f.feedAll chunks).frames = completeSegments (f.kept ++ chunks.flatten) := by
  induction chunks generalizing f with
  | nil =>
    rw [List.flatten_nil, List.append_nil, completeSegments_of_not_mem hkept]
    rfl
  | cons chunk chunks ih =>
    rw [List.flatten_cons, ← List.append_assoc, completeSegments_append,
      List.forall_mem_append] at h
    rw [List.flatten_cons, ← List.append_assoc, completeSegments_append, feedAll, frames_feed]
    refine congrArg (completeSegments (f.kept ++ chunk) ++ ·) ?_
    have hopen := delimiter_not_mem_openSegment (f.kept ++ chunk)
    by_cases hfits : (openSegment (f.kept ++ chunk)).length ≤ f.limit
    · rw [(feed_of_fits hfits).1]
      exact ih { f with kept := openSegment (f.kept ++ chunk) } h.2 hopen
    · -- what is dropped was the last segment, and no frame follows
      have hnext : (f.feed chunk).next = { f with kept := [] } := by
        simp only [feed, if_neg hfits]
      have hrest := delimiter_not_mem_of_length_lt hopen (Nat.lt_of_not_le hfits) h.2
      have hnone : completeSegments chunks.flatten = [] := completeSegments_of_not_mem hrest
      have hlast : completeSegments (openSegment (f.kept ++ chunk) ++ chunks.flatten) = [] := by
        refine completeSegments_of_not_mem ?_
        rw [List.mem_append, not_or]
        exact ⟨hopen, hrest⟩
      have hnothing := ih { f with kept := [] } (by
        rw [List.nil_append, hnone]
        exact fun s hs => by cases hs) List.not_mem_nil
      rw [hnext, hnothing, List.nil_append, hnone, hlast]

end Framer
end TagRental
