import TagRental.Text.Utf8

/-!
# Frames in a byte stream

A frame is whatever stands in front of a line feed.  The transport cuts the stream where it likes,
so the framer keeps the bytes after the last line feed until the next chunk completes them.

## One function does the cutting

`segments` splits a byte string at its line feeds, and `Framer.feed` is `segments` of what was kept
followed by what arrived: all segments but the last are frames, the last one is kept.  Nothing about
chunks enters the definition, which is why feeding two chunks and feeding their concatenation can
differ in one way only: the limit.

## The limit

A peer that never sends a line feed must not fill the memory, so an *unterminated* rest longer than
the limit is dropped as a whole and reported.  A complete frame is never dropped, however long it
is.  A limit below one is raised to one.
-/

namespace TagRental

/-- The byte that ends a frame. -/
def delimiter : UInt8 := 0x0A

/-- Reading from the right, one more byte in front of the segments found so far. -/
def segmentsStep (b : UInt8) : Bytes × List Bytes → Bytes × List Bytes
  | (head, rest) => if b = delimiter then ([], head :: rest) else (b :: head, rest)

/-- The pieces of a byte string between its delimiters: the first one, and the others.  There is
always one piece more than there are delimiters. -/
def segments (bytes : Bytes) : Bytes × List Bytes := bytes.foldr segmentsStep ([], [])

/-- The pieces that a delimiter ends. -/
def completeSegments (bytes : Bytes) : List Bytes :=
  match segments bytes with
  | (head, rest) => (head :: rest).dropLast

/-- What follows the last delimiter. -/
def openSegment (bytes : Bytes) : Bytes :=
  match segments bytes with
  | (head, rest) => (head :: rest).getLast (List.cons_ne_nil head rest)

@[simp] theorem segments_nil : segments [] = ([], []) := rfl

@[simp] theorem segments_cons (b : UInt8) (bytes : Bytes) :
    segments (b :: bytes) = segmentsStep b (segments bytes) := rfl

/-- The limit on the unterminated rest where none is configured. -/
def Framer.defaultLimit : Nat := 64 * 1024

/-- What is kept of the stream between two chunks. -/
structure Framer where
  limit : Nat
  kept : Bytes
  limit_pos : 1 ≤ limit

namespace Framer

/-- A framer that has seen nothing; a limit below one is raised to one. -/
def withLimit (limit : Nat) : Framer := ⟨max limit 1, [], Nat.le_max_right limit 1⟩

/-- A framer with the usual limit. -/
def default : Framer := withLimit defaultLimit

/-- What one chunk brings: the frames it completes, the framer afterwards, and the length of the
rest if it had to be dropped. -/
structure Fed where
  frames : List Bytes
  next : Framer
  dropped : Option Nat

/-- Takes in one chunk. -/
def feed (f : Framer) (chunk : Bytes) : Fed :=
  let stream := f.kept ++ chunk
  let rest := openSegment stream
  if rest.length ≤ f.limit then
    { frames := completeSegments stream, next := { f with kept := rest }, dropped := none }
  else
    { frames := completeSegments stream
      next := { f with kept := [] }
      dropped := some rest.length }

/-- Forgets what was kept. -/
def reset (f : Framer) : Framer := { f with kept := [] }

/-- The number of bytes waiting for a delimiter. -/
def buffered (f : Framer) : Nat := f.kept.length

@[simp] theorem kept_withLimit (n : Nat) : (withLimit n).kept = [] := rfl

@[simp] theorem frames_feed (f : Framer) (chunk : Bytes) :
    (f.feed chunk).frames = completeSegments (f.kept ++ chunk) := by
  unfold feed
  dsimp only
  split <;> rfl

@[simp] theorem limit_feed (f : Framer) (chunk : Bytes) : (f.feed chunk).next.limit = f.limit := by
  unfold feed
  dsimp only
  split <;> rfl

theorem dropped_feed (f : Framer) (chunk : Bytes) :
    (f.feed chunk).dropped =
      if (openSegment (f.kept ++ chunk)).length ≤ f.limit then none
      else some (openSegment (f.kept ++ chunk)).length := by
  unfold feed
  dsimp only
  split <;> rfl

end Framer

end TagRental
