import Mathlib.Algebra.GroupWithZero.Nat
import Mathlib.Data.List.Basic
import Mathlib.Data.List.Induction
import TagRental.Proofs.Link.Reception

/-!
# How long the loop rests

On a persistent line an end or a failure makes the loop rest, and each further one in a row doubles
the rest up to a cap.  The doubling is done on words of 64 bits that stay at the largest number, in
milliseconds cut out of nanoseconds, and the loop carries the current rest from one read to the
next.  This file says what all that comes to: the rest is a function of the number of failures since
the last chunk alone, and it is `Duration.backoff`, which is two operations on natural numbers.

Why the bounds never show: a cap of 64 bits is never above the largest word, so a product that would
have stayed there is cut down to the cap all the same.  Nor does it matter where the cap is applied,
once at the end or after every doubling (`backoff_succ`).  The first rest is the exception, since
nobody compares it with the cap; a cap below the first rest takes effect with the second one.

## Two levels

`Loop.RestsNext` is the invariant of the loop between two reads: after `n` failures in a row the
next rest is `backoff first cap n`.  It is about `Loop.react` alone, so it holds whatever the
backend does and whenever a cancellation fires.  For a run that nobody cancels, the timeline follows
(`Run.receive_timeline`): every read is seen at the sum of the rests in front of it, since handling
frames takes no time.
-/

namespace TagRental

namespace Duration

/-- The rest in milliseconds after failure number `i` in a row, the first having number zero: the
first rest as it is, then twice, four times, eight times as much, but no more than the cap. -/
def backoff (first cap i : Nat) : Nat := if i = 0 then first else min (first * 2 ^ i) cap

section Backoff

variable (first cap : Nat)

/-- Cutting after every doubling is cutting once. -/
theorem backoff_succ (i : Nat) :
    backoff first cap (i + 1) = min (2 * backoff first cap i) cap := by
  have hpow : first * 2 ^ (i + 1) = 2 * (first * 2 ^ i) := by
    rw [Nat.pow_succ]
    ac_rfl
  rw [backoff, if_neg (Nat.succ_ne_zero i), hpow, backoff]
  split
  · next hi => rw [hi, Nat.pow_zero, Nat.mul_one]
  · omega

theorem backoff_lt {first cap bound : Nat} (hfirst : first < bound) (hcap : cap < bound) (i : Nat) :
    backoff first cap i < bound := by
  unfold backoff
  split
  · exact hfirst
  · exact Nat.lt_of_le_of_lt (Nat.min_le_right _ _) hcap

end Backoff

@[simp] theorem millis_ofMillis (n : Nat) : (ofMillis n).millis = n :=
  Nat.mul_div_cancel n (by decide)

/-- A number of milliseconds that fits 64 bits is counted in full. -/
theorem toNat_millisWord_ofMillis {n : Nat} (h : n < UInt64.size) :
    (ofMillis n).millisWord.toNat = n := by
  rw [millisWord, millis_ofMillis, UInt64.toNat_ofNat_of_lt' h]

/-- Under a cap of 64 bits the doubling is exact. -/
theorem nextDelay_ofMillis {n cap : Nat} (hn : n < UInt64.size) (hcap : cap < UInt64.size) :
    nextDelay (ofMillis n) (ofMillis cap) = ofMillis (min (2 * n) cap) := by
  have hle : cap ≤ UInt64.size - 1 := Nat.le_sub_one_of_lt hcap
  rw [nextDelay, toNat_millisWord_ofMillis hn, toNat_millisWord_ofMillis hcap, Nat.min_assoc,
    Nat.min_eq_right hle]

theorem nextDelay_backoff {first cap : Nat} (hfirst : first < UInt64.size)
    (hcap : cap < UInt64.size) (i : Nat) :
    nextDelay (ofMillis (backoff first cap i)) (ofMillis cap) =
      ofMillis (backoff first cap (i + 1)) := by
  rw [nextDelay_ofMillis (backoff_lt hfirst hcap i) hcap, backoff_succ]

end Duration

open Duration (backoff)

namespace Arrival

/-- What is seen of a run when this arrives. -/
def sight : Arrival → Sight
  | .chunk bytes => .read bytes.length
  | .ended => .ended
  | .failed _ => .failed

theorem eq_chunk_of_some {a : Arrival} {bytes : Bytes} (h : a.bytes? = some bytes) :
    a = .chunk bytes := by
  cases a with
  | chunk bytes =>
    cases h
    rfl
  | ended => cases h
  | failed reason => cases h

/-- The number of ends and failures behind the last chunk. -/
def failuresInRow (events : List Arrival) : Nat :=
  (events.reverse.takeWhile fun a => a.bytes?.isNone).length

theorem failuresInRow_concat_of_none {a : Arrival} (h : a.bytes? = none) (events : List Arrival) :
    failuresInRow (events ++ [a]) = failuresInRow events + 1 := by
  rw [failuresInRow, List.reverse_concat, List.takeWhile_cons_of_pos (by rw [h]; rfl)]
  rfl

theorem failuresInRow_concat_of_some {a : Arrival} {bytes : Bytes} (h : a.bytes? = some bytes)
    (events : List Arrival) : failuresInRow (events ++ [a]) = 0 := by
  rw [failuresInRow, List.reverse_concat,
    List.takeWhile_cons_of_neg (by rw [h]; exact Bool.false_ne_true)]
  rfl

/-- The rest after an arrival: none after a chunk. -/
def restAfter (first cap : Nat) (earlier : List Arrival) (a : Arrival) : Nat :=
  if a.bytes?.isSome then 0 else backoff first cap (failuresInRow earlier)

/-- The rests after each of some arrivals. -/
def rests (first cap : Nat) (events : List Arrival) : List Nat :=
  events.mapIdx fun i a => restAfter first cap (events.take i) a

/-- The arrivals as they are seen, each at the sum of the rests in front of it. -/
def timeline (first cap : Nat) (events : List Arrival) : List (Nat × Sight) :=
  events.mapIdx fun i a => (((rests first cap events).take i).sum, a.sight)

section Concat

variable (first cap : Nat) (events : List Arrival) (a : Arrival)

theorem length_rests : (rests first cap events).length = events.length := List.length_mapIdx

theorem rests_concat :
    rests first cap (events ++ [a]) = rests first cap events ++ [restAfter first cap events a] := by
  rw [rests, List.mapIdx_concat, List.take_left]
  congr 1
  refine List.ext_getElem (by rw [length_rests, List.length_mapIdx]) fun i hi _ => ?_
  rw [List.length_mapIdx] at hi
  simp only [rests, List.getElem_mapIdx, List.take_append_of_le_length (Nat.le_of_lt hi)]

theorem timeline_concat :
    timeline first cap (events ++ [a]) =
      timeline first cap events ++ [((rests first cap events).sum, a.sight)] := by
  have htake : ∀ i ≤ events.length,
      (rests first cap (events ++ [a])).take i = (rests first cap events).take i := by
    intro i hi
    rw [rests_concat, List.take_append_of_le_length (by rw [length_rests]; exact hi)]
  have hall : (rests first cap events).take events.length = rests first cap events :=
    List.take_of_length_le (Nat.le_of_eq (length_rests first cap events))
  rw [timeline, List.mapIdx_concat, htake _ (Nat.le_refl _), hall]
  congr 1
  refine List.ext_getElem (by simp only [timeline, List.length_mapIdx]) fun i hi _ => ?_
  rw [List.length_mapIdx] at hi
  simp only [timeline, List.getElem_mapIdx, htake i (Nat.le_of_lt hi)]

end Concat

end Arrival

open Arrival (failuresInRow restAfter rests timeline)

/-! ## The loop between two reads -/

namespace Loop

/-- On a persistent line with the given delays, there were `n` failures in a row. -/
structure RestsNext (first cap n : Nat) (l : Loop) : Prop where
  kind : l.kind = .persistent
  settings_retry : l.settings.retry = .ofMillis first
  settings_maxRetry : l.settings.maxRetry = .ofMillis cap
  retry : l.retry = .ofMillis (backoff first cap n)

section RestsNext

variable {first cap n : Nat} {l : Loop}

theorem restsNext_start (limit : Nat) :
    (start ⟨limit, .ofMillis first, .ofMillis cap⟩ .persistent).RestsNext first cap 0 :=
  ⟨rfl, rfl, rfl, rfl⟩

/-- A chunk starts the sequence again. -/
theorem RestsNext.react_chunk (h : l.RestsNext first cap n) (bytes : Bytes) :
    (l.react (.chunk bytes)).1.RestsNext first cap 0 :=
  ⟨h.kind, h.settings_retry, h.settings_maxRetry, h.settings_retry⟩

/-- After a failure the loop rests, and the next rest is the next of the sequence. -/
theorem RestsNext.rested (h : l.RestsNext first cap n) (hfirst : first < UInt64.size)
    (hcap : cap < UInt64.size) : l.rested.RestsNext first cap (n + 1) := by
  refine ⟨h.kind, h.settings_retry, h.settings_maxRetry, ?_⟩
  rw [Loop.rested, h.retry, h.settings_maxRetry, Duration.nextDelay_backoff hfirst hcap]

/-- What the loop does about an end or a failure of a persistent line. -/
theorem react_of_none (hkind : l.kind = .persistent) {a : Arrival} (ha : a.bytes? = none) :
    ∃ notices, l.react a = (l.rested, .rest l.retry, notices) := by
  cases a with
  | chunk bytes => cases ha
  | ended => exact ⟨[], by rw [react, hkind]⟩
  | failed reason => exact ⟨[.readRetried reason l.retry], by rw [react, hkind]⟩

end RestsNext

/-- The loop when it has dealt with some arrivals. -/
def afterArrivals (l : Loop) (events : List Arrival) : Loop :=
  events.foldl (fun l a => (l.react a).1) l

theorem afterArrivals_concat (l : Loop) (events : List Arrival) (a : Arrival) :
    l.afterArrivals (events ++ [a]) = ((l.afterArrivals events).react a).1 := List.foldl_concat ..

/-- **The rest is a function of the failures in a row.** -/
theorem restsNext_afterArrivals {first cap : Nat} (hfirst : first < UInt64.size)
    (hcap : cap < UInt64.size) (limit : Nat) (events : List Arrival) :
    ((start ⟨limit, .ofMillis first, .ofMillis cap⟩ .persistent).afterArrivals events).RestsNext
      first cap (failuresInRow events) := by
  induction events using List.reverseRecOn with
  | nil => exact restsNext_start limit
  | append_singleton events a ih =>
    rw [afterArrivals_concat]
    cases ha : a.bytes? with
    | none =>
      obtain ⟨notices, hreact⟩ := react_of_none ih.kind ha
      rw [Arrival.failuresInRow_concat_of_none ha, hreact]
      exact ih.rested hfirst hcap
    | some bytes =>
      obtain rfl := Arrival.eq_chunk_of_some ha
      rw [Arrival.failuresInRow_concat_of_some ha]
      exact ih.react_chunk bytes

end Loop

/-! ## A run -/

/-- Is it the outcome of a read that is seen? -/
def Sight.isReading : Sight → Bool
  | .read _ | .ended | .failed => true
  | _ => false

namespace Run

/-- The outcomes of the reads, each with its time, the first one first. -/
def readings (r : Run) : List (Nat × Sight) := (r.seen.filter fun x => x.2.isReading).reverse

/-- From `r` to `r'` no time has passed and nothing was read. -/
structure Timeless (r r' : Run) : Prop where
  loop : r'.loop = r.loop
  millis : r'.millis = r.millis
  readings : r'.readings = r.readings

theorem Timeless.trans {r r' r'' : Run} (h : Timeless r r') (h' : Timeless r' r'') :
    Timeless r r'' :=
  ⟨h'.loop.trans h.loop, h'.millis.trans h.millis, h'.readings.trans h.readings⟩

variable {s : Surroundings} {r : Run}

/-- Offering an answer takes no time. -/
theorem timeless_offer (r : Run) (o : Offer) : Timeless r (r.offer o) := by
  unfold offer
  dsimp only
  split
  · exact ⟨rfl, rfl, rfl⟩
  · exact ⟨rfl, rfl, rfl⟩

/-- Handling frames takes no time. -/
theorem timeless_handleFrames (s : Surroundings) (r : Run) (frames : List Bytes) :
    Timeless r (r.handleFrames s frames).1 :=
  handleFrames_relates s (fun _ => ⟨rfl, rfl, rfl⟩) (fun h h' => h.trans h')
    (fun _ _ _ => ⟨rfl, rfl, rfl⟩) timeless_offer r frames

/-- A chunk is seen and takes no time. -/
theorem arrive_chunk_times (s : Surroundings) (r : Run) (bytes : Bytes) :
    let r' := (r.arrive s (.chunk bytes)).1
    r'.loop = (r.loop.react (.chunk bytes)).1 ∧ r'.millis = r.millis ∧
      r'.readings = r.readings ++ [(r.millis, .read bytes.length)] := by
  intro r'
  have hfst := fst_arrive_chunk s r bytes
  have htime := timeless_handleFrames s (r.takenIn bytes) (r.loop.framer.feed bytes).frames
  rw [← hfst] at htime
  exact ⟨htime.loop, htime.millis, htime.readings.trans List.reverse_cons⟩

/-- An end or a failure of a persistent line is seen, and then the loop rests. -/
theorem arrive_rest_times (s : Surroundings) (hkind : r.loop.kind = .persistent) {a : Arrival}
    (ha : a.bytes? = none) :
    let r' := (r.arrive s a).1
    r'.loop = r.loop.rested ∧ r'.millis = r.millis + r.loop.retry.millis ∧
      r'.readings = r.readings ++ [(r.millis, a.sight)] := by
  obtain ⟨notices, hreact⟩ := Loop.react_of_none hkind ha
  cases a with
  | chunk bytes => cases ha
  | ended =>
    simp only [arrive, see, hreact]
    exact ⟨rfl, rfl, List.reverse_cons⟩
  | failed reason =>
    simp only [arrive, see, hreact]
    exact ⟨rfl, rfl, List.reverse_cons⟩

/-- The run when it has taken in some arrivals. -/
def afterArrivals (s : Surroundings) (r : Run) (events : List Arrival) : Run :=
  events.foldl (fun r a => (r.arrive s a).1) r

/-- The run has seen some arrivals of a persistent line, resting after each as it should. -/
structure Paced (first cap : Nat) (events : List Arrival) (r : Run) : Prop where
  loop : r.loop.RestsNext first cap (failuresInRow events)
  millis : r.millis = (rests first cap events).sum
  readings : r.readings = timeline first cap events

/-- **One arrival**, and the rest after it. -/
theorem Paced.arrive {first cap : Nat} (hfirst : first < UInt64.size) (hcap : cap < UInt64.size)
    {events : List Arrival} (h : r.Paced first cap events) (s : Surroundings) (a : Arrival) :
    (r.arrive s a).1.Paced first cap (events ++ [a]) := by
  have hpaced : ∀ r' : Run, r'.loop.RestsNext first cap (failuresInRow (events ++ [a])) →
      r'.millis = r.millis + restAfter first cap events a →
      r'.readings = r.readings ++ [(r.millis, a.sight)] → r'.Paced first cap (events ++ [a]) := by
    intro r' hloop hmillis hreadings
    refine ⟨hloop, ?_, ?_⟩
    · rw [hmillis, h.millis, Arrival.rests_concat, List.sum_append, List.sum_singleton]
    · rw [hreadings, h.millis, h.readings, Arrival.timeline_concat]
  cases ha : a.bytes? with
  | none =>
    obtain ⟨hloop, hmillis, hreadings⟩ := arrive_rest_times s h.loop.kind ha
    refine hpaced _ ?_ ?_ hreadings
    · rw [hloop, Arrival.failuresInRow_concat_of_none ha]
      exact h.loop.rested hfirst hcap
    · rw [hmillis, h.loop.retry, Duration.millis_ofMillis, restAfter, ha]
      rfl
  | some bytes =>
    obtain rfl := Arrival.eq_chunk_of_some ha
    obtain ⟨hloop, hmillis, hreadings⟩ := arrive_chunk_times s r bytes
    refine hpaced _ ?_ hmillis hreadings
    rw [hloop, Arrival.failuresInRow_concat_of_some ha]
    exact h.loop.react_chunk bytes

theorem Paced.afterArrivals {first cap : Nat} (hfirst : first < UInt64.size)
    (hcap : cap < UInt64.size) {r : Run} (h : r.Paced first cap []) (s : Surroundings)
    (events : List Arrival) : (r.afterArrivals s events).Paced first cap events := by
  induction events using List.reverseRecOn with
  | nil => exact h
  | append_singleton events a ih =>
    rw [Run.afterArrivals, List.foldl_concat]
    exact ih.arrive hfirst hcap s a

/-- On a persistent line that nobody cancels, every arrival is taken in. -/
theorem follow_eq_afterArrivals (hs : s.Uncancelled) (hkind : r.loop.kind = .persistent)
    (events : List Arrival) (later : List Happening) :
    r.follow s (events.map Arrival.happening ++ later) =
      (r.afterArrivals s events).follow s later := by
  induction events generalizing r with
  | nil => rfl
  | cons a events ih =>
    obtain ⟨r', hheard, harrive⟩ := arrive_of_carriesOn hs (a := a) (Or.inl hkind)
    rw [List.map_cons, List.cons_append, follow_happening hs, harrive, afterArrivals,
      List.foldl_cons, harrive]
    exact ih (hheard.kind.trans hkind)

/-- What was read once is not taken back. -/
theorem GoesOn.readings {n : Nat} {r r' : Run} (h : GoesOn n r r') : r.readings <+: r'.readings :=
  List.reverse_prefix.mpr (h.seen.filter _)

/-- **The timeline of a persistent line.**  Let nobody cancel, and let the delays be whole
milliseconds of 64 bits.  In the run that the loop returns, every read is seen at the sum of the
rests in front of it, whatever comes later; and if nothing does, these are all the reads, and the
time that has passed is the sum of all rests. -/
theorem receive_timeline {first cap : Nat} (hfirst : first < UInt64.size) (hcap : cap < UInt64.size)
    (hs : s.Uncancelled) (backend : Backend) (limit : Nat) {events : List Arrival}
    (hsize : ∀ bytes, Arrival.chunk bytes ∈ events →
      1 ≤ bytes.length ∧ bytes.length ≤ Loop.readSize) :
    let returned (later : List Happening) : RunEnd :=
      receive s backend ⟨limit, .ofMillis first, .ofMillis cap⟩ .persistent
        (events.map Arrival.happening ++ later)
    (∀ later, timeline first cap events <+: (returned later).run.readings) ∧
      (returned []).run.readings = timeline first cap events ∧
      (returned []).run.millis = (rests first cap events).sum := by
  intro returned
  let start := Run.start backend ⟨limit, .ofMillis first, .ofMillis cap⟩ .persistent
  have hstart : start.Paced first cap [] := ⟨Loop.restsNext_start limit, rfl, rfl⟩
  have hpaced := hstart.afterArrivals hfirst hcap s events
  have hreturned : ∀ later, returned later =
      (start.afterArrivals s events).follow s (later.flatMap Happening.reads) := by
    intro later
    change receive _ _ _ _ _ = _
    rw [receive, List.flatMap_append, reads_happening hsize]
    exact follow_eq_afterArrivals hs rfl events _
  refine ⟨?_, ?_⟩
  · intro later
    obtain ⟨n, hlater⟩ := goesOn_follow s (start.afterArrivals s events)
      (later.flatMap Happening.reads)
    rw [hreturned, ← hpaced.readings]
    exact hlater.readings
  · rw [hreturned, List.flatMap_nil, follow_nil hs]
    exact ⟨hpaced.readings, hpaced.millis⟩

end Run

end TagRental
