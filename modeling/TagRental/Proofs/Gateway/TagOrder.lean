import TagRental.Proofs.Gateway.TagText

/-!
# The order of tags

Tags are ordered by their bytes, and people see them ordered by their written forms.  These are one
order: a byte is written with two digits, high digit first, and the digits ascend with their values,
also from `9` to `a`.  So where two byte strings first differ their written forms differ in one of
the two digits, in the same sense (`Hex.chars_lt_chars_iff`), and a byte string that ends earlier is
written with fewer digits and is the smaller one both times.

What a comparison needs of an order is read off the bytes: it is transitive, and any two tags that
are not the same stand one before the other (`lt_trans`, `lt_or_eq_or_gt`).
-/

namespace TagRental

namespace Hex

/-- The digits ascend with their values. -/
theorem digitChar_lt_digitChar_iff {m n : Nat} (hm : m < 16) (hn : n < 16) :
    digitChar m < digitChar n ↔ m < n := by
  have hall : ∀ m < 16, ∀ n < 16, digitChar m < digitChar n ↔ m < n := by decide
  exact hall m hm n hn

theorem digitChar_inj {m n : Nat} (hm : m < 16) (hn : n < 16) :
    digitChar m = digitChar n ↔ m = n := by
  have hall : ∀ m < 16, ∀ n < 16, digitChar m = digitChar n ↔ m = n := by decide
  exact hall m hm n hn

/-- **Byte strings compare as they are written.** -/
theorem chars_lt_chars_iff (xs ys : Bytes) : chars xs < chars ys ↔ xs < ys := by
  induction xs generalizing ys with
  | nil =>
    cases ys with
    | nil => exact ⟨fun h => absurd h (List.lt_irrefl _), fun h => absurd h (List.lt_irrefl _)⟩
    | cons y ys => exact ⟨fun _ => List.nil_lt_cons y ys, fun _ => List.nil_lt_cons _ _⟩
  | cons x xs ih =>
    cases ys with
    | nil => exact ⟨fun h => absurd h (List.not_lt_nil _), fun h => absurd h (List.not_lt_nil _)⟩
    | cons y ys =>
      have hpair : ∀ (b : UInt8) (bytes : Bytes), chars (b :: bytes) =
          digitChar (b.toNat / 16) :: digitChar (b.toNat % 16) :: chars bytes := fun _ _ => rfl
      rw [hpair, hpair, List.cons_lt_cons_iff, List.cons_lt_cons_iff, List.cons_lt_cons_iff, ih,
        digitChar_lt_digitChar_iff (high_lt x) (high_lt y), digitChar_inj (high_lt x) (high_lt y),
        digitChar_lt_digitChar_iff (low_lt x) (low_lt y), digitChar_inj (low_lt x) (low_lt y),
        UInt8.lt_iff_toNat_lt, ← UInt8.toNat_inj]
      -- the high digit decides, then the low digit, then the rest
      constructor
      · rintro (hhigh | ⟨hhigh, hlow | ⟨hlow, hrest⟩⟩)
        · exact Or.inl (by omega)
        · exact Or.inl (by omega)
        · exact Or.inr ⟨by omega, hrest⟩
      · rintro (hlt | ⟨heq, hrest⟩)
        · by_cases hhigh : x.toNat / 16 = y.toNat / 16
          · exact Or.inr ⟨hhigh, Or.inl (by omega)⟩
          · exact Or.inl (by omega)
        · rw [heq]
          exact Or.inr ⟨rfl, Or.inr ⟨rfl, hrest⟩⟩

end Hex

namespace Tag

variable {a b c : Tag}

theorem hex_lt_hex_iff : a.hex < b.hex ↔ a < b := by
  rw [String.lt_iff, hex, hex, Hex.toList_encode, Hex.toList_encode]
  exact Hex.chars_lt_chars_iff a.bytes b.bytes

theorem compare_eq_ite (a b : Tag) :
    compare a b = if a < b then .lt else if a = b then .eq else .gt := rfl

/-- **Tags compare as their written forms do.** -/
theorem compare_eq_compare_hex (a b : Tag) : compare a b = compare a.hex b.hex := by
  have hcompare : compare a.hex b.hex =
      if a.hex < b.hex then .lt else if a.hex = b.hex then .eq else .gt := rfl
  simp only [hcompare, hex_lt_hex_iff, hex_inj]
  exact compare_eq_ite a b

theorem compare_eq_lt_iff : compare a b = .lt ↔ a < b := by
  rw [compare_eq_ite]
  split
  · next h => exact ⟨fun _ => h, fun _ => rfl⟩
  · next h =>
    refine ⟨fun hlt => ?_, fun hlt => absurd hlt h⟩
    split at hlt <;> cases hlt

theorem isLE_compare_iff : (compare a b).isLE = true ↔ a < b ∨ a = b := by
  rw [compare_eq_ite]
  split
  · next hlt => exact ⟨fun _ => Or.inl hlt, fun _ => rfl⟩
  · next hlt =>
    split
    · next heq => exact ⟨fun _ => Or.inr heq, fun _ => rfl⟩
    · next hne => exact ⟨fun h => Bool.noConfusion h, fun h => (h.elim hlt hne).elim⟩

theorem lt_irrefl (a : Tag) : ¬a < a := List.lt_irrefl a.bytes

theorem lt_trans (hab : a < b) (hbc : b < c) : a < c := by
  have hab : a.bytes < b.bytes := hab
  have hbc : b.bytes < c.bytes := hbc
  exact List.lt_trans hab hbc

theorem lt_or_eq_or_gt (a b : Tag) : a < b ∨ a = b ∨ b < a := by
  by_cases hba : b.bytes < a.bytes
  · exact Or.inr (Or.inr hba)
  · rcases List.le_iff_lt_or_eq.mp (List.not_lt.mp hba) with hlt | heq
    · exact Or.inl hlt
    · exact Or.inr (Or.inl (Tag.ext heq))

end Tag

end TagRental
