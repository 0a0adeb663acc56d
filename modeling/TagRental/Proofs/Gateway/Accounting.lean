import TagRental.Link.Receive
import TagRental.Proofs.Gateway.Chunking

/-!
# What becomes of every byte

A framer may not remember more than its limit, so a peer that never ends a line loses bytes.  This
file says which ones, for a framer that has been fed and reset in any order, and without any
condition on what it was fed.

Cut off what the delimiters end, and what is left is the open segment (`flatMap_completeSegments`).
A framer returns the first part whole: no frame is ever judged by its length, only the open segment
is, and only once all frames of the chunk are out.  It is kept if it fits and dropped as a whole if
it does not.  Two facts hold between any two calls and make the next one predictable (`Tidy`): what
is kept is unfinished, and it fits.
-/

namespace TagRental

/-- Complete segments hold no delimiter. -/
theorem delimiter_not_mem_of_mem_completeSegments {bytes xs : Bytes}
    (h : xs ∈ completeSegments bytes) : delimiter ∉ xs := by
  induction bytes using segmentInduction with
  | rest ys hys =>
    rw [completeSegments_of_not_mem hys] at h
    cases h
  | segment ys zs hys ih =>
    rw [completeSegments_append_delimiter hys] at h
    rcases List.mem_cons.mp h with rfl | h
    · exact hys
    · exact ih h

/-- Bytes are their complete segments, each with its delimiter, and then their open segment. -/
theorem flatMap_completeSegments (bytes : Bytes) :
    ((completeSegments bytes).flatMap fun xs => xs ++ [delimiter]) ++ openSegment bytes =
      bytes := by
  induction bytes using segmentInduction with
  | rest xs hxs =>
    rw [completeSegments_of_not_mem hxs, openSegment_of_not_mem hxs]
    rfl
  | segment xs ys hxs ih =>
    rw [completeSegments_append_delimiter hxs, openSegment_append_delimiter hxs, List.flatMap_cons,
      List.append_assoc, ih, List.append_assoc]
    rfl

/-- A complete segment leaves room for its delimiter. -/
theorem length_lt_of_mem_completeSegments {bytes xs : Bytes} (h : xs ∈ completeSegments bytes) :
    xs.length < bytes.length := by
  obtain ⟨front, back, hsplit⟩ := List.append_of_mem h
  have hlength := congrArg List.length (flatMap_completeSegments bytes)
  rw [hsplit, List.flatMap_append, List.flatMap_cons] at hlength
  simp only [List.length_append, List.length_singleton] at hlength
  omega

/-- The one thing that a loop logs about a chunk is a tail that its framer has dropped. -/
theorem Loop.notices_react_chunk (l : Loop) (chunk : Bytes) :
    (l.react (.chunk chunk)).2.2 =
      ((l.framer.feed chunk).dropped.map fun n => .tailDropped n l.framer.limit).toList := rfl

namespace Framer

/-- What can be done with a framer. -/
inductive Call where
  | feed (chunk : Bytes)
  | reset
  deriving DecidableEq

/-- What a call brings. -/
def call (f : Framer) : Call → Fed
  | .feed chunk => f.feed chunk
  | .reset => ⟨[], f.reset, none⟩

/-- The framer after calls. -/
def afterCalls (f : Framer) (calls : List Call) : Framer :=
  calls.foldl (fun f c => (f.call c).next) f

/-- What is kept is unfinished and fits. -/
structure Tidy (f : Framer) : Prop where
  unfinished : delimiter ∉ f.kept
  fits : f.kept.length ≤ f.limit

section Call

variable (f : Framer)

theorem kept_feed (chunk : Bytes) :
    (f.feed chunk).next.kept =
      if (openSegment (f.kept ++ chunk)).length ≤ f.limit then openSegment (f.kept ++ chunk)
      else [] := by
  unfold feed
  dsimp only
  split <;> rfl

@[simp] theorem limit_call (c : Call) : (f.call c).next.limit = f.limit := by
  cases c with
  | feed chunk => exact f.limit_feed chunk
  | reset => rfl

/-- Any call leaves a framer tidy, whatever it was before. -/
theorem tidy_call (c : Call) : (f.call c).next.Tidy := by
  cases c with
  | reset => exact ⟨List.not_mem_nil, Nat.zero_le _⟩
  | feed chunk =>
    have hkept := f.kept_feed chunk
    by_cases hfits : (openSegment (f.kept ++ chunk)).length ≤ f.limit
    · rw [if_pos hfits] at hkept
      refine ⟨?_, ?_⟩
      · rw [call, hkept]
        exact delimiter_not_mem_openSegment _
      · rw [limit_call, call, hkept]
        exact hfits
    · rw [if_neg hfits] at hkept
      refine ⟨?_, ?_⟩
      · rw [call, hkept]
        exact List.not_mem_nil
      · rw [call, hkept]
        exact Nat.zero_le _

end Call

theorem tidy_withLimit (limit : Nat) : (withLimit limit).Tidy :=
  ⟨List.not_mem_nil, Nat.zero_le _⟩

theorem limit_afterCalls (f : Framer) (calls : List Call) :
    (f.afterCalls calls).limit = f.limit := by
  induction calls generalizing f with
  | nil => rfl
  | cons c calls ih => exact (ih (f.call c).next).trans (f.limit_call c)

theorem Tidy.afterCalls {f : Framer} (h : f.Tidy) (calls : List Call) :
    (f.afterCalls calls).Tidy := by
  induction calls generalizing f with
  | nil => exact h
  | cons c calls ih => exact ih (f.tidy_call c)

/-- **Every byte is accounted for.**  Feed and reset a new framer in any order.  What it keeps then
holds no delimiter and fits the limit, which is at least one.  Feed it once more: the bytes that it
has kept and those of the chunk are the returned frames, each with one delimiter behind it, in
order, and then a tail without a delimiter.  The tail is kept if it fits; otherwise all of it is
dropped, and then, and only then, the loop that reads with this framer logs it, with its length and
the limit.  No frame holds a delimiter, and with one it is no longer than the limit and the chunk
together. -/
theorem accounts_for_every_byte (limit : Nat) (calls : List Call) :
    let f := (withLimit limit).afterCalls calls
    let most := max limit 1
    (delimiter ∉ f.kept ∧ f.kept.length ≤ most) ∧
      ∀ chunk, let fed := f.feed chunk
        (∀ frame ∈ fed.frames, delimiter ∉ frame ∧ frame.length + 1 ≤ most + chunk.length) ∧
        ∃ tail, delimiter ∉ tail ∧
          f.kept ++ chunk = (fed.frames.flatMap fun frame => frame ++ [delimiter]) ++ tail ∧
          fed.next.kept = (if tail.length ≤ most then tail else []) ∧
          fed.dropped = (if tail.length ≤ most then none else some tail.length) ∧
          ∀ l : Loop, ({ l with framer := f }.react (.chunk chunk)).2.2 =
            if tail.length ≤ most then [] else [.tailDropped tail.length most] := by
  intro f most
  have htidy : f.Tidy := (tidy_withLimit limit).afterCalls calls
  have hlimit : f.limit = most := limit_afterCalls (withLimit limit) calls
  refine ⟨⟨htidy.unfinished, hlimit ▸ htidy.fits⟩, ?_⟩
  intro chunk fed
  have hframes : fed.frames = completeSegments (f.kept ++ chunk) := f.frames_feed chunk
  have hkept := f.kept_feed chunk
  have hdropped := f.dropped_feed chunk
  rw [hlimit] at hkept hdropped
  refine ⟨?_, openSegment (f.kept ++ chunk), delimiter_not_mem_openSegment _, ?_, hkept, hdropped,
    ?_⟩
  · intro frame hframe
    rw [hframes] at hframe
    have hlength := length_lt_of_mem_completeSegments hframe
    have hfits : f.kept.length ≤ most := hlimit ▸ htidy.fits
    rw [List.length_append] at hlength
    exact ⟨delimiter_not_mem_of_mem_completeSegments hframe, by omega⟩
  · rw [hframes, flatMap_completeSegments]
  · intro l
    rw [Loop.notices_react_chunk, hlimit, hdropped]
    split <;> rfl

/-- A limit of zero counts as one, a frame may be longer than that, and the framer goes on after it
has dropped a tail. -/
example :
    let f := withLimit 0
    (f.feed [0x61, 0x62, 0x0A, 0x63]).frames = [[0x61, 0x62]] ∧
      (f.feed [0x61, 0x62, 0x0A, 0x63]).next.kept = [0x63] ∧
      (f.feed [0x61, 0x62]).dropped = some 2 ∧
      ((f.feed [0x61, 0x62]).next.feed [0x63, 0x0A]).frames = [[0x63]] := by
  decide

end Framer
end TagRental
