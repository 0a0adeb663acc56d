import Mathlib.Algebra.Order.Group.Nat
import TagRental.Proofs.Calendar.DayCount

/-!
# Timestamps say the second that they stand for

A clock reading up to the last second of the year 9999 is shown as a date and a time of day, in
digits of a fixed width.  The text is the one of a moment that the calendar has, and counting the
seconds up to that moment, by days, hours, minutes and seconds, gives the reading back
(`Moment.ofSeconds_spec`).  A later reading is shown as the number that it is.

Because the widths are fixed and the larger units stand in front, a later reading has the larger
text.  Two texts differ first in one of the six numbers.  Of the same width, the digits of the
smaller number are the smaller ones (`fixedDigits_lt_iff`), and by the order of dates the number
that differs first says which moment is the later one.
-/

namespace TagRental
namespace Calendar

/-! ## Digits of a fixed width -/

/-- The last so many decimal digits of a number. -/
def fixedDigits : Nat → Nat → List Char
  | 0, _ => []
  | width + 1, n => fixedDigits width (n / 10) ++ [(n % 10).digitChar]

example : fixedDigits 4 987 = ['0', '9', '8', '7'] := by decide

theorem length_fixedDigits (width n : Nat) : (fixedDigits width n).length = width := by
  induction width generalizing n with
  | zero => rfl
  | succ width ih => rw [fixedDigits, List.length_append, ih, List.length_singleton]

theorem div_ten_lt {width n : Nat} (h : n < 10 ^ (width + 1)) : n / 10 < 10 ^ width :=
  Nat.div_lt_of_lt_mul (by rwa [Nat.pow_succ'] at h)

/-- A number that fits the width is written with all its digits, behind zeros. -/
theorem paddedChars_eq (width : Nat) {n : Nat} (h : n < 10 ^ (width + 1)) :
    paddedChars (width + 1) n = fixedDigits (width + 1) n := by
  induction width generalizing n with
  | zero =>
    have hn : n < 10 := h
    rw [paddedChars, Nat.toDigits_of_lt_base hn, fixedDigits, Nat.mod_eq_of_lt hn]
    rfl
  | succ width ih =>
    rw [fixedDigits, ← ih (div_ten_lt h), paddedChars, paddedChars]
    by_cases hn : n < 10
    · rw [Nat.toDigits_of_lt_base hn, Nat.div_eq_of_lt hn, Nat.toDigits_zero, Nat.mod_eq_of_lt hn]
      simp only [List.length_singleton, Nat.add_sub_cancel, ← List.replicate_succ']
    · rw [Nat.toDigits_of_base_le (by decide) (Nat.not_lt.mp hn), List.length_append,
        List.length_singleton, Nat.add_sub_add_right, List.append_assoc]

/-- Texts of two parts, the first ones of the same length: the first part decides, or else the
second. -/
theorem append_lt_append_iff {xs ys us vs : List Char} (h : xs.length = ys.length) :
    xs ++ us < ys ++ vs ↔ xs < ys ∨ xs = ys ∧ us < vs := by
  induction xs generalizing ys with
  | nil =>
    obtain rfl : ys = [] := List.length_eq_zero_iff.mp h.symm
    simp
  | cons x xs ih =>
    cases ys with
    | nil => cases h
    | cons y ys =>
      rw [List.cons_append, List.cons_append, List.cons_lt_cons_iff, List.cons_lt_cons_iff,
        ih (Nat.succ.inj h), List.cons.injEq]
      tauto

theorem digitChar_lt_digitChar_iff {m n : Nat} (hm : m < 10) (hn : n < 10) :
    m.digitChar < n.digitChar ↔ m < n := by
  have hall : ∀ m < 10, ∀ n < 10, m.digitChar < n.digitChar ↔ m < n := by decide
  exact hall m hm n hn

theorem digitChar_inj {m n : Nat} (hm : m < 10) (hn : n < 10) :
    m.digitChar = n.digitChar ↔ m = n := by
  have hall : ∀ m < 10, ∀ n < 10, m.digitChar = n.digitChar ↔ m = n := by decide
  exact hall m hm n hn

section Width

variable {width m n : Nat}

theorem fixedDigits_inj (hm : m < 10 ^ width) (hn : n < 10 ^ width) :
    fixedDigits width m = fixedDigits width n ↔ m = n := by
  induction width generalizing m n with
  | zero => exact iff_of_true rfl (by omega)
  | succ width ih =>
    have hm' := div_ten_lt hm
    have hn' := div_ten_lt hn
    have hlength :=
      (length_fixedDigits width (m / 10)).trans (length_fixedDigits width (n / 10)).symm
    have hlast :=
      digitChar_inj (Nat.mod_lt m (show 0 < 10 by decide)) (Nat.mod_lt n (show 0 < 10 by decide))
    constructor
    · intro h
      obtain ⟨hfront, hdigit⟩ := List.append_inj h hlength
      rw [ih hm' hn'] at hfront
      rw [List.singleton_inj, hlast] at hdigit
      omega
    · rintro rfl
      rfl

/-- **Digits of one width** are ordered as the numbers that they write. -/
theorem fixedDigits_lt_iff (hm : m < 10 ^ width) (hn : n < 10 ^ width) :
    fixedDigits width m < fixedDigits width n ↔ m < n := by
  induction width generalizing m n with
  | zero => exact iff_of_false (List.lt_irrefl _) (by omega)
  | succ width ih =>
    have hm' := div_ten_lt hm
    have hn' := div_ten_lt hn
    have hlength :=
      (length_fixedDigits width (m / 10)).trans (length_fixedDigits width (n / 10)).symm
    have hlast : [(m % 10).digitChar] < [(n % 10).digitChar] ↔ m % 10 < n % 10 := by
      rw [List.cons_lt_cons_iff,
        digitChar_lt_digitChar_iff (Nat.mod_lt m (by decide)) (Nat.mod_lt n (by decide))]
      exact or_iff_left fun h => List.lt_irrefl _ h.2
    rw [fixedDigits, fixedDigits, append_lt_append_iff hlength, ih hm' hn', fixedDigits_inj hm' hn',
      hlast]
    omega

/-- Two texts that begin with a number of the same width and the same mark. -/
theorem fixedDigits_append_lt_iff (hm : m < 10 ^ width) (hn : n < 10 ^ width) (mark : Char)
    (us vs : List Char) :
    fixedDigits width m ++ mark :: us < fixedDigits width n ++ mark :: vs ↔
      m < n ∨ m = n ∧ us < vs := by
  have hlength := (length_fixedDigits width m).trans (length_fixedDigits width n).symm
  have hmark : mark :: us < mark :: vs ↔ us < vs := by
    rw [List.cons_lt_cons_iff]
    simp
  rw [append_lt_append_iff hlength, fixedDigits_lt_iff hm hn, fixedDigits_inj hm hn, hmark]

end Width

/-! ## Moments -/

/-- A second that the calendar has, from the year 1970 up to the year 9999. -/
structure Moment.Valid (m : Moment) : Prop where
  date : m.date.Valid
  year_ge : 1970 ≤ m.date.year
  year_le : m.date.year ≤ 9999
  hour_lt : m.hour < 24
  minute_lt : m.minute < 60
  second_lt : m.second < 60

/-- The seconds from the first second of 1970 to a moment. -/
def Moment.instant (m : Moment) : Nat :=
  ((m.date.number * 24 + m.hour) * 60 + m.minute) * 60 + m.second

/-- The years up to 9999 are as many days as the last second has behind it. -/
theorem lastSecond_add_one : lastSecond + 1 = daysOfYears 10000 * secondsPerDay := by
  have hyears := daysOfYears_add_elapsed (show 1969 ≤ 9999 by decide)
  have hfirst : elapsed 1969 = 719162 := by simp only [elapsed]
  have hlast : elapsed 9999 = 3652059 := by simp only [elapsed]
  rw [hfirst, hlast] at hyears
  simp only [Nat.reduceAdd] at hyears
  simp only [lastSecond, secondsPerDay]
  omega

namespace Moment

/-- **A reading is the instant of its moment**, and the moment is one that the calendar has. -/
theorem ofSeconds_spec {n : Nat} (h : n ≤ lastSecond) :
    (ofSeconds n).Valid ∧ (ofSeconds n).instant = n := by
  obtain ⟨hvalid, hyear, hnumber⟩ := Date.ofDay_spec (n / secondsPerDay)
  have hlast : (Date.ofDay (n / secondsPerDay)).year ≤ 9999 := by
    by_contra hlate
    have hyears : daysOfYears 10000 ≤ daysOfYears (Date.ofDay (n / secondsPerDay)).year :=
      daysOfYears_mono (Nat.not_le.mp hlate)
    have hday : daysOfYears 10000 ≤ n / secondsPerDay := by
      rw [← hnumber, Date.number]
      omega
    have hcount := lastSecond_add_one
    have hlate := Nat.mul_le_of_le_div _ _ _ hday
    omega
  refine ⟨⟨hvalid, hyear, hlast, ?_, ?_, ?_⟩, ?_⟩
  · simp only [ofSeconds, secondsPerDay]
    omega
  · exact Nat.mod_lt _ (by decide)
  · exact Nat.mod_lt _ (by decide)
  · simp only [instant, ofSeconds, hnumber]
    simp only [secondsPerDay]
    omega

variable {m n : Moment}

theorem Valid.bounds (h : m.Valid) :
    m.date.year < 10 ^ 4 ∧ m.date.month < 10 ^ 2 ∧ m.date.day < 10 ^ 2 ∧ m.hour < 10 ^ 2 ∧
      m.minute < 10 ^ 2 ∧ m.second < 10 ^ 2 := by
  have hyear := h.year_le
  have hmonth := h.date.month_le
  have hday := h.date.day_le
  have hlength : monthLength m.date.year m.date.month ≤ 31 := by
    unfold monthLength
    repeat' split
    all_goals decide
  have ⟨_, _, _, hhour, hminute, hsecond⟩ := h
  omega

/-- A moment is written in six numbers of a fixed width. -/
theorem Valid.chars_eq (h : m.Valid) :
    m.chars = fixedDigits 4 m.date.year ++ '-' :: fixedDigits 2 m.date.month ++
      '-' :: fixedDigits 2 m.date.day ++ 'T' :: fixedDigits 2 m.hour ++
        ':' :: fixedDigits 2 m.minute ++
      ':' :: fixedDigits 2 m.second ++ ['Z'] := by
  obtain ⟨hyear, hmonth, hday, hhour, hminute, hsecond⟩ := h.bounds
  rw [chars, Date.chars, paddedChars_eq 3 hyear, paddedChars_eq 1 hmonth, paddedChars_eq 1 hday,
    paddedChars_eq 1 hhour, paddedChars_eq 1 hminute, paddedChars_eq 1 hsecond]

/-- **The text of a later moment is the larger one.** -/
theorem chars_lt_chars (hm : m.Valid) (hn : n.Valid) (h : m.instant < n.instant) :
    m.chars < n.chars := by
  obtain ⟨hyear, hmonth, hday, hhour, hminute, hsecond⟩ := hm.bounds
  obtain ⟨hyear', hmonth', hday', hhour', hminute', hsecond'⟩ := hn.bounds
  rw [hm.chars_eq, hn.chars_eq]
  simp only [List.append_assoc, List.cons_append]
  rw [fixedDigits_append_lt_iff hyear hyear', fixedDigits_append_lt_iff hmonth hmonth',
    fixedDigits_append_lt_iff hday hday', fixedDigits_append_lt_iff hhour hhour',
    fixedDigits_append_lt_iff hminute hminute', fixedDigits_append_lt_iff hsecond hsecond']
  have ⟨_, _, _, hhours, hminutes, hseconds⟩ := hm
  have ⟨_, _, _, hhours', hminutes', hseconds'⟩ := hn
  unfold instant at h
  rcases Date.before_trichotomy m.date n.date with hbefore | heq | hbefore
  · rcases hbefore with hyears | ⟨hyears, hmonths | ⟨hmonths, hdays⟩⟩
    · exact Or.inl hyears
    · exact Or.inr ⟨hyears, Or.inl hmonths⟩
    · exact Or.inr ⟨hyears, Or.inr ⟨hmonths, Or.inl hdays⟩⟩
  · -- on one day the time of day decides
    rw [heq] at h ⊢
    refine Or.inr ⟨rfl, Or.inr ⟨rfl, Or.inr ⟨rfl, ?_⟩⟩⟩
    omega
  · have hlt := Date.number_lt_of_before hn.date hn.year_ge hm.date.day_pos hbefore
    omega

end Moment

/-! ## Timestamps -/

section Limits

variable {seconds : UInt64}

/-- Up to the end of the calendar no step fails: the number is small enough for a signed one, the
calendar has the moment, and its year has four digits. -/
theorem timestamp_of_le (h : seconds.toNat ≤ lastSecond) :
    (timestamp seconds).toList = (Moment.ofSeconds seconds.toNat).chars := by
  have hsigned : signed? seconds = some seconds.toNat :=
    if_pos (Nat.le_trans h (by decide))
  have hmoment : Moment.ofSeconds? seconds.toNat = some (.ofSeconds seconds.toNat) := if_pos h
  have htext : (Moment.ofSeconds seconds.toNat).text? =
      some (String.ofList (Moment.ofSeconds seconds.toNat).chars) :=
    if_pos (Moment.ofSeconds_spec h).1.year_le
  rw [timestamp, hsigned, Option.bind_some, hmoment, Option.bind_some, htext, Option.getD_some,
    String.toList_ofList]

/-- Behind the end of the calendar the second step fails, and from `2 ^ 63` on already the first. -/
theorem timestamp_of_lt (h : lastSecond < seconds.toNat) :
    timestamp seconds = toString seconds := by
  have hmoment : Moment.ofSeconds? seconds.toNat = none := if_neg (Nat.not_le.mpr h)
  by_cases hlimit : seconds.toNat ≤ lastSigned
  · have hsigned : signed? seconds = some seconds.toNat := if_pos hlimit
    rw [timestamp, hsigned, Option.bind_some, hmoment, Option.bind_none, Option.getD_none]
  · have hsigned : signed? seconds = none := if_neg hlimit
    rw [timestamp, hsigned, Option.bind_none, Option.bind_none, Option.getD_none]

end Limits

/-- **A timestamp denotes its instant.**  Up to the last second of the year 9999 it is a date and a
time of day that the calendar has, in the form `YYYY-MM-DDThh:mm:ssZ`, and the seconds from the
first second of 1970 to that moment are the reading.  After that it is the reading in decimal.  Of
two readings in the first range the later one has the larger text. -/
theorem timestamp_denotes_instant (seconds : UInt64) :
    (seconds.toNat ≤ 253402300799 →
      ∃ m : Moment, m.Valid ∧ m.instant = seconds.toNat ∧
        (timestamp seconds).toList =
          fixedDigits 4 m.date.year ++ '-' :: fixedDigits 2 m.date.month ++
            '-' :: fixedDigits 2 m.date.day ++ 'T' :: fixedDigits 2 m.hour ++
            ':' :: fixedDigits 2 m.minute ++ ':' :: fixedDigits 2 m.second ++ ['Z']) ∧
      (253402300799 < seconds.toNat →
        (timestamp seconds).toList = Nat.toDigits 10 seconds.toNat) ∧
      ∀ later : UInt64, seconds < later → later.toNat ≤ 253402300799 →
        timestamp seconds < timestamp later := by
  refine ⟨fun h => ?_, fun h => ?_, fun later hlt h => ?_⟩
  · obtain ⟨hvalid, hinstant⟩ := Moment.ofSeconds_spec h
    exact ⟨_, hvalid, hinstant, (timestamp_of_le h).trans hvalid.chars_eq⟩
  · rw [timestamp_of_lt h]
    exact Nat.toList_repr
  · have hlt : seconds.toNat < later.toNat := hlt
    have hearlier : seconds.toNat ≤ lastSecond := hlt.le.trans h
    obtain ⟨hvalid, hinstant⟩ := Moment.ofSeconds_spec hearlier
    obtain ⟨hvalid', hinstant'⟩ := Moment.ofSeconds_spec h
    rw [String.lt_iff, timestamp_of_le hearlier, timestamp_of_le h]
    exact Moment.chars_lt_chars hvalid hvalid' (by rwa [hinstant, hinstant'])

/-- The last second that has a date, the one before it, and the one behind it. -/
theorem timestamp_denotes_instant_at_limit :
    let last : UInt64 := 253402300799
    last.toNat ≤ 253402300799 ∧
      (∃ m : Moment, m.Valid ∧ m.instant = 253402300799 ∧
        (timestamp last).toList =
          fixedDigits 4 m.date.year ++ '-' :: fixedDigits 2 m.date.month ++
            '-' :: fixedDigits 2 m.date.day ++ 'T' :: fixedDigits 2 m.hour ++
            ':' :: fixedDigits 2 m.minute ++ ':' :: fixedDigits 2 m.second ++ ['Z']) ∧
      timestamp last = "9999-12-31T23:59:59Z" ∧ timestamp (last - 1) < timestamp last ∧
      (timestamp (last + 1)).toList = Nat.toDigits 10 253402300800 := by
  intro last
  obtain ⟨hdate, -, -⟩ := timestamp_denotes_instant last
  obtain ⟨-, -, hlater⟩ := timestamp_denotes_instant (last - 1)
  obtain ⟨-, hnumber, -⟩ := timestamp_denotes_instant (last + 1)
  have hle : last.toNat ≤ 253402300799 := by decide
  exact ⟨hle, hdate hle, by decide, hlater last (by decide) hle, hnumber (by decide)⟩

/-! ## What a timestamp is made of -/

theorem isDigit_of_mem_fixedDigits {width n : Nat} {c : Char} (h : c ∈ fixedDigits width n) :
    c.isDigit = true := by
  have hall : ∀ d < 10, d.digitChar.isDigit = true := by decide
  induction width generalizing n with
  | zero => cases h
  | succ width ih =>
    rw [fixedDigits, List.mem_append, List.mem_singleton] at h
    rcases h with hfront | rfl
    · exact ih hfront
    · exact hall _ (Nat.mod_lt n (by decide))

/-- A timestamp is made of digits and the four marks between and behind them. -/
theorem mem_timestamp {seconds : UInt64} {c : Char} (h : c ∈ (timestamp seconds).toList) :
    c.isDigit = true ∨ c ∈ ['-', 'T', ':', 'Z'] := by
  by_cases hrange : seconds.toNat ≤ lastSecond
  · rw [timestamp_of_le hrange, (Moment.ofSeconds_spec hrange).1.chars_eq] at h
    simp only [List.mem_append, List.mem_cons] at h
    grind [isDigit_of_mem_fixedDigits]
  · rw [timestamp_of_lt (Nat.not_le.mp hrange)] at h
    have hdigits : c ∈ Nat.toDigits 10 seconds.toNat := Nat.toList_repr ▸ h
    exact Or.inl (Nat.isDigit_of_mem_toDigits (by decide) (by decide) hdigits)

end Calendar
end TagRental
