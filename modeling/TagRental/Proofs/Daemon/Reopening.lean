import TagRental.Daemon.SerialLine
import TagRental.Proofs.Link.RestingTimes

/-!
# Two loops that rest, one law

A serial line that does not open is tried again after a rest, and the rests grow as they do in the
receive loop: both take the next one from `Duration.nextDelay`.  There are two differences.  The
receive loop is given its cap as it is configured, and a cap below the first rest makes the second
rest shorter than the first; here the cap is raised to the first rest
(`SerialLine.withReopenDelays`), so the rests never get shorter.  And the attempts to open are one
streak of failures from the beginning, since the first success is the end of them.

`attemptFrom_spec` says what the attempts come to, by induction on how many more are allowed: some
fail, each before the time to stop and with a line in the log that names its rest, and then one
succeeds or the time to stop has come.  Where the first rest is zero all of them are, and no number
of failures makes time pass; nothing is said then of how many there are.

The main statement (`rests_double_up_to_cap`) has both loops.
-/

namespace TagRental

namespace Duration

theorem ofMillis_atLeast (n least : Nat) :
    (ofMillis n).atLeast (ofMillis least) = ofMillis (max n least) := by
  unfold atLeast ofMillis
  dsimp only
  split
  · rw [Nat.max_eq_right (by omega)]
  · rw [Nat.max_eq_left (by omega)]

/-- Under a cap that is not below the first rest, no rest is above the cap. -/
theorem backoff_le_max (first cap i : Nat) : backoff first (max cap first) i ≤ max cap first := by
  unfold backoff
  split
  · exact Nat.le_max_right cap first
  · exact Nat.min_le_right _ _

/-- Under such a cap, no rest is shorter than the one before it. -/
theorem backoff_max_mono (first cap i : Nat) :
    backoff first (max cap first) i ≤ backoff first (max cap first) (i + 1) := by
  have hle := backoff_le_max first cap i
  rw [backoff_succ]
  omega

/-- The time that passes in the first `n` of some rests. -/
def total (wait : Nat → Nat) (n : Nat) : Nat := ((List.range n).map wait).sum

theorem total_succ (wait : Nat → Nat) (n : Nat) : total wait (n + 1) = total wait n + wait n := by
  rw [total, List.range_succ, List.map_append, List.sum_append]
  rfl

theorem le_total {wait : Nat → Nat} (h : ∀ i, 1 ≤ wait i) (n : Nat) : n ≤ total wait n := by
  induction n with
  | zero => exact Nat.zero_le _
  | succ n ih =>
    rw [total_succ]
    exact Nat.add_le_add ih (h n)

end Duration

open Duration (backoff total)

namespace SerialLine

section Attempts

variable {l : SerialLine} {wait : Nat → Nat} (attempts : Attempts) (stop : Nat)

/-- The line that the failure of an attempt leaves in the log. -/
def retryNotice (l : SerialLine) (attempts : Attempts) (wait : Nat → Nat) (i : Nat) : Notice :=
  .openRetried l.device l.baudRate.toNat ((attempts i).getD "") (.ofMillis (wait i))

/-- The end of some attempts, the last of which has number `k`: it succeeded before the time to
stop, or that time has come, or those that are looked at were exhausted. -/
def EndsAt (wait : Nat → Nat) (k : Nat) (exhausted : Prop) (o : Opening) : Prop :=
  (o.opened = true ∧ attempts k = none ∧ total wait k < stop ∧ o.millis = total wait k) ∨
    (o.opened = false ∧ o.millis = stop ∧ (stop ≤ total wait k ∨ exhausted))

/-- **Attempts from number `n` on**: `m` of them fail, each with its rest. -/
theorem attemptFrom_spec (hwait : ∀ i, l.delayAfter i = .ofMillis (wait i)) (n fuel : Nat) :
    ∃ m, (∀ i, n ≤ i → i < n + m → (attempts i).isSome ∧ total wait i < stop) ∧
      (l.attemptFrom attempts stop n (total wait n) fuel).notices =
        (List.range' n m).map (retryNotice l attempts wait) ∧
      EndsAt attempts stop wait (n + m) (m = fuel)
        (l.attemptFrom attempts stop n (total wait n) fuel) := by
  induction fuel generalizing n with
  | zero =>
    refine ⟨0, fun i hle hlt => absurd hlt (Nat.not_lt.mpr hle), rfl, ?_⟩
    exact Or.inr ⟨rfl, rfl, Or.inr rfl⟩
  | succ fuel ih =>
    rw [attemptFrom]
    by_cases hstop : stop ≤ total wait n
    · rw [if_pos hstop]
      refine ⟨0, fun i hle hlt => absurd hlt (Nat.not_lt.mpr hle), rfl, ?_⟩
      exact Or.inr ⟨rfl, rfl, Or.inl hstop⟩
    rw [if_neg hstop]
    cases hattempt : attempts n with
    | none =>
      refine ⟨0, fun i hle hlt => absurd hlt (Nat.not_lt.mpr hle), rfl, ?_⟩
      exact Or.inl ⟨rfl, hattempt, Nat.not_le.mp hstop, rfl⟩
    | some reason =>
      -- this attempt fails, and the others begin after its rest
      obtain ⟨m, hfailed, hnotices, hend⟩ := ih (n + 1)
      have htotal : total wait n + (l.delayAfter n).millis = total wait (n + 1) := by
        rw [hwait, Duration.millis_ofMillis, Duration.total_succ]
      have hcount : n + 1 + m = n + (m + 1) := by omega
      dsimp only
      rw [htotal]
      refine ⟨m + 1, ?_, ?_, ?_⟩
      · intro i hle hlt
        rcases Nat.eq_or_lt_of_le hle with rfl | hbehind
        · exact ⟨by rw [hattempt]; rfl, Nat.not_le.mp hstop⟩
        · exact hfailed i hbehind (by omega)
      · rw [hnotices, List.range'_succ, List.map_cons, retryNotice, hattempt, hwait]
        rfl
      · rw [hcount] at hend
        exact hend.imp_right fun ⟨hopened, hmillis, hover⟩ =>
          ⟨hopened, hmillis, hover.imp_right (congrArg (· + 1))⟩

/-- **The attempts to open a line**: some fail, each before the time to stop, and then one succeeds
or that time has come. -/
theorem openUntil_spec (hwait : ∀ i, l.delayAfter i = .ofMillis (wait i))
    (hgrows : ∀ i, wait i ≤ wait (i + 1)) :
    ∃ k, (∀ i < k, (attempts i).isSome ∧ total wait i < stop) ∧
      (l.openUntil attempts stop).notices = (List.range k).map (retryNotice l attempts wait) ∧
      EndsAt attempts stop wait k (wait 0 = 0) (l.openUntil attempts stop) := by
  obtain ⟨k, hfailed, hnotices, hend⟩ := attemptFrom_spec attempts stop hwait 0 stop
  rw [Nat.zero_add] at hend
  refine ⟨k, fun i hi => hfailed i (Nat.zero_le i) (by omega), ?_, ?_⟩
  · rw [List.range_eq_range']
    exact hnotices
  · refine hend.imp_right fun ⟨hopened, hmillis, hover⟩ => ⟨hopened, hmillis, ?_⟩
    rcases hover with hlate | rfl
    · exact Or.inl hlate
    · -- as many attempts as milliseconds: unless they take no time, it is time to stop
      by_cases hzero : wait 0 = 0
      · exact Or.inr hzero
      · have hpos : ∀ i, 1 ≤ wait i := by
          intro i
          induction i with
          | zero => exact Nat.pos_of_ne_zero hzero
          | succ i ih => exact Nat.le_trans ih (hgrows i)
        exact Or.inl (Duration.le_total hpos k)

end Attempts

/-- The rests between attempts to open a line. -/
theorem delayAfter_withReopenDelays {first cap : Nat} (hfirst : first < UInt64.size)
    (hcap : cap < UInt64.size) (line : SerialLine) (i : Nat) :
    (line.withReopenDelays (.ofMillis first) (.ofMillis cap)).delayAfter i =
      .ofMillis (backoff first (max cap first) i) := by
  have hmax : max cap first < UInt64.size := Nat.max_lt.mpr ⟨hcap, hfirst⟩
  induction i with
  | zero => rfl
  | succ i ih =>
    have hcapped : (line.withReopenDelays (.ofMillis first) (.ofMillis cap)).maxReopen =
        .ofMillis (max cap first) := Duration.ofMillis_atLeast cap first
    rw [delayAfter, ih, hcapped, Duration.nextDelay_backoff hfirst hmax]

end SerialLine

/-! ## Both loops -/

open Arrival (failuresInRow rests timeline)

/-- **Rests double up to a cap.**  Let the first rest and the cap be whole milliseconds of 64 bits.

* On a persistent line, whatever has arrived before, the loop rests after an end or a failure for
  `backoff first cap i`, where `i` is the number of ends and failures since the last chunk or since
  the start; the word of 64 bits in which that is counted holds it in full.
* If nobody cancels, the loop reads on whatever arrives, and in the run that it returns every read
  is seen at the sum of those rests that are in front of it, whatever comes later.  If nothing comes
  later, these are all the reads, and the time that has passed is the sum of all rests.
* The attempts to open a serial line are one such streak, under a cap that is raised to the first
  rest: every failed attempt is followed by its rest, the attempts begin at the sums of the rests,
  and no rest is shorter than the one before it or longer than the cap. -/
theorem rests_double_up_to_cap {first cap : Nat} (hfirst : first < UInt64.size)
    (hcap : cap < UInt64.size) :
    (∀ (limit : Nat) (events : List Arrival) (a : Arrival), a.bytes? = none →
      let l := (Loop.start ⟨limit, .ofMillis first, .ofMillis cap⟩ .persistent).afterArrivals events
      let wait := backoff first cap (failuresInRow events)
      l.retry.millisWord.toNat = wait ∧
        ∃ next notices, l.react a = (next, .rest (.ofMillis wait), notices)) ∧
    (∀ s : Surroundings, s.Uncancelled →
      ∀ (backend : Backend) (limit : Nat) (events : List Arrival),
      (∀ bytes, Arrival.chunk bytes ∈ events →
        1 ≤ bytes.length ∧ bytes.length ≤ Loop.readSize) →
      let returned (later : List Happening) : RunEnd :=
        receive s backend ⟨limit, .ofMillis first, .ofMillis cap⟩ .persistent
          (events.map Arrival.happening ++ later)
      (∀ later, timeline first cap events <+: (returned later).run.readings) ∧
        (returned []).run.readings = timeline first cap events ∧
        (returned []).run.millis = (rests first cap events).sum) ∧
    ∀ (line : SerialLine) (attempts : SerialLine.Attempts) (stop : Nat),
      let l := line.withReopenDelays (.ofMillis first) (.ofMillis cap)
      let wait := backoff first (max cap first)
      (∀ i, l.delayAfter i = .ofMillis (wait i) ∧ wait i ≤ wait (i + 1) ∧ wait i ≤ max cap first) ∧
        ∃ k, (∀ i < k, (attempts i).isSome ∧ total wait i < stop) ∧
          (l.openUntil attempts stop).notices =
            (List.range k).map (SerialLine.retryNotice l attempts wait) ∧
          SerialLine.EndsAt attempts stop wait k (first = 0) (l.openUntil attempts stop) := by
  refine ⟨?_, ?_, ?_⟩
  · intro limit events a ha l wait
    have hrests := Loop.restsNext_afterArrivals hfirst hcap limit events
    obtain ⟨notices, hreact⟩ := Loop.react_of_none hrests.kind ha
    refine ⟨?_, l.rested, notices, ?_⟩
    · rw [hrests.retry,
        Duration.toNat_millisWord_ofMillis (Duration.backoff_lt hfirst hcap _)]
    · rw [hreact, hrests.retry]
  · intro s hs backend limit events hsize
    exact Run.receive_timeline hfirst hcap hs backend limit hsize
  · intro line attempts stop l wait
    have hwait := SerialLine.delayAfter_withReopenDelays hfirst hcap line
    have hgrows := Duration.backoff_max_mono first cap
    exact ⟨fun i => ⟨hwait i, hgrows i, Duration.backoff_le_max first cap i⟩,
      SerialLine.openUntil_spec attempts stop hwait hgrows⟩

/-- A first rest of 100 ms under a cap of 350 ms: four failures in a row, a chunk and two failures
on a persistent line, and a device that opens at the fourth attempt. -/
theorem rests_double_up_to_cap_disturbed :
    let s : Surroundings := ⟨fun _ _ => none, fun _ => false, fun _ _ => false⟩
    let backend := Backend.start .usual 1000
    let settings : ReceiveSettings := ⟨64, .ofMillis 100, .ofMillis 350⟩
    let events : List Arrival :=
      [.ended, .failed "busy", .ended, .ended, .chunk [0x61], .failed "busy", .ended]
    let returned (later : List Happening) : RunEnd :=
      receive s backend settings .persistent (events.map Arrival.happening ++ later)
    let attempts : SerialLine.Attempts := fun n => if n < 3 then some "no such device" else none
    let line := SerialLine.ofSettings "tty0" .usual
    let opening :=
      (line.withReopenDelays (.ofMillis 100) (.ofMillis 350)).openUntil attempts 10000
    100 < UInt64.size ∧ 350 < UInt64.size ∧ s.Uncancelled ∧
      (∀ bytes, Arrival.chunk bytes ∈ events →
        1 ≤ bytes.length ∧ bytes.length ≤ Loop.readSize) ∧
      (∀ later, [(0, .ended), (100, .failed), (300, .ended), (650, .ended), (1000, .read 1),
        (1000, .failed), (1100, .ended)] <+: (returned later).run.readings) ∧
      (returned []).run.millis = 1300 ∧
      opening.opened = true ∧ opening.millis = 650 := by
  intro s backend settings events returned attempts line opening
  have hfirst : 100 < UInt64.size := by decide
  have hcap : 350 < UInt64.size := by decide
  have hs : s.Uncancelled := ⟨fun _ => rfl, fun _ _ => rfl⟩
  have hsize : ∀ bytes, Arrival.chunk bytes ∈ events →
      1 ≤ bytes.length ∧ bytes.length ≤ Loop.readSize := by
    intro bytes hbytes
    simp only [events, List.mem_cons, Arrival.chunk.injEq, List.not_mem_nil, or_false,
      reduceCtorEq, false_or] at hbytes
    rw [hbytes]
    decide
  obtain ⟨-, hreceive, hopen⟩ := rests_double_up_to_cap hfirst hcap
  obtain ⟨hreadings, -, hmillis⟩ := hreceive s hs backend 64 events hsize
  obtain ⟨-, k, hfailed, -, hend⟩ := hopen line attempts 10000
  have htimeline : timeline 100 350 events = [(0, .ended), (100, .failed), (300, .ended),
      (650, .ended), (1000, .read 1), (1000, .failed), (1100, .ended)] := by decide
  rw [htimeline] at hreadings
  refine ⟨hfirst, hcap, hs, hsize, hreadings, hmillis.trans (by decide), ?_⟩
  -- the fourth attempt does not fail, so there are at most three failures
  have hk : k < 4 := Nat.not_le.mp fun hle => absurd (hfailed 3 hle).1 (by decide)
  have hearly : ∀ k < 4, total (backoff 100 (max 350 100)) k < 10000 := by decide
  have hfourth : ∀ k < 4, attempts k = none → total (backoff 100 (max 350 100)) k = 650 := by decide
  rcases hend with ⟨hopened, hnone, -, hmillis⟩ | ⟨-, -, hlate | hzero⟩
  · exact ⟨hopened, hmillis.trans (hfourth k hk hnone)⟩
  · exact absurd hlate (Nat.not_le.mpr (hearly k hk))
  · cases hzero

end TagRental
