import TagRental.Gateway.Message

/-!
# What a message that was read says

The checks of a message come one after another and the first that fails is the fault, so a message
that was read has passed all of them.  `Reading.result_bind_eq_ok` takes a sequence of checks apart,
and what follows reads single checks back from it.
-/

namespace TagRental

namespace Json

/-- A value is a number of 64 bits exactly if it is that integer. -/
theorem toUInt64?_eq_some_iff {v : Json} {n : UInt64} :
    v.toUInt64? = some n ↔ v = .int n.toNat := by
  constructor
  · intro h
    cases v with
    | int i =>
      rw [toUInt64?] at h
      split at h
      · next hi =>
        have hn : UInt64.ofNat i.toNat = n := Option.some.inj h
        rw [← hn, UInt64.toNat_ofNat_of_lt' hi.2, Int.toNat_of_nonneg hi.1]
      · cases h
    | _ => cases h
  · rintro rfl
    have hn : (0 : Int) ≤ n.toNat ∧ (n.toNat : Int).toNat < UInt64.size := by
      rw [Int.toNat_natCast]
      exact ⟨Int.natCast_nonneg _, n.toNat_lt⟩
    rw [toUInt64?, if_pos hn, Int.toNat_natCast, UInt64.ofNat_toNat]

end Json

namespace Message

/-- A sequence of checks succeeds exactly if the first does and the rest does on what it read. -/
theorem Reading.result_bind_eq_ok {α β : Type} {x : Reading α} {k : α → Reading β} {y : β} :
    (x >>= k).result = .ok y ↔ ∃ a, x.result = .ok a ∧ (k a).result = .ok y := by
  obtain ⟨remarks, result⟩ := x
  cases result with
  | error fault => simp
  | ok a => simp

/-- The same for checks that take members out: the second looks at what the first has left. -/
theorem Taking.result_bind_eq_ok {α β : Type} {x : Taking α} {k : α → Taking β} {m : Members}
    {y : β × Members} :
    ((x >>= k) m).result = .ok y ↔
      ∃ a left, (x m).result = .ok (a, left) ∧ (k a left).result = .ok y := by
  have hbind : (x >>= k) m = x m >>= fun taken => k taken.1 taken.2 := rfl
  rw [hbind, Reading.result_bind_eq_ok, Prod.exists]

/-- A duration that was read is one that the firmware can hold, and not zero. -/
theorem readDuration_bounds {v : Json} {d : UInt64}
    (h : (readDuration v).result = .ok (some d)) : 0 < d ∧ d ≤ maxDuration := by
  unfold readDuration at h
  split at h
  · next n _ =>
    by_cases hn : 0 < n ∧ n ≤ maxDuration
    · rw [if_pos hn] at h
      cases h
      exact hn
    · rw [if_neg hn] at h
      cases h
  · cases h

theorem takeDuration_bounds {m left : Members} {d : UInt64}
    (h : (takeDuration m).result = .ok (some d, left)) : 0 < d ∧ d ≤ maxDuration := by
  obtain ⟨found, rest, -, h⟩ := Taking.result_bind_eq_ok.mp h
  cases found with
  | none => cases h
  | some v =>
    obtain ⟨duration, hd, h⟩ := Reading.result_bind_eq_ok.mp h
    cases h
    exact readDuration_bounds hd

theorem duration_of_takeCommand {m left : Members} {code : UInt64} {t : Tag} {d : UInt64}
    (h : (takeCommand code m).result = .ok (.rentalStart t (some d), left)) :
    0 < d ∧ d ≤ maxDuration := by
  unfold takeCommand at h
  split at h
  · obtain ⟨tag, behind, -, h⟩ := Taking.result_bind_eq_ok.mp h
    obtain ⟨requested, rest, hd, h⟩ := Taking.result_bind_eq_ok.mp h
    cases h
    exact takeDuration_bounds hd
  · split at h
    · obtain ⟨tag, rest, -, h⟩ := Taking.result_bind_eq_ok.mp h
      cases h
    · split at h
      · obtain ⟨tag, rest, -, h⟩ := Taking.result_bind_eq_ok.mp h
        cases h
      · split at h
        · obtain ⟨s, behind, -, h⟩ := Taking.result_bind_eq_ok.mp h
          obtain ⟨tag, behind, -, h⟩ := Taking.result_bind_eq_ok.mp h
          obtain ⟨since, behind, -, h⟩ := Taking.result_bind_eq_ok.mp h
          obtain ⟨duration, rest, -, h⟩ := Taking.result_bind_eq_ok.mp h
          cases h
        · split at h <;> cases h

/-- A frame never asks for a rental of no seconds, nor for one that the firmware cannot hold. -/
theorem duration_of_decode {payload : Bytes} {message : Message} {t : Tag} {d : UInt64}
    (h : (decode payload).result = .ok message)
    (hc : message.command = .rentalStart t (some d)) : 0 < d ∧ d ≤ maxDuration := by
  unfold decode at h
  split at h
  · cases h
  · unfold ofJson at h
    split at h
    · obtain ⟨⟨code, behind⟩, -, h⟩ := Reading.result_bind_eq_ok.mp h
      obtain ⟨⟨c, left⟩, hcommand, h⟩ := Reading.result_bind_eq_ok.mp h
      cases h
      have hc : c = .rentalStart t (some d) := hc
      rw [hc] at hcommand
      exact duration_of_takeCommand hcommand
    · cases h

end Message
end TagRental
