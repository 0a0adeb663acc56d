import TagRental.Text.Utf8

/-!
# Text that was encoded is read back

`Utf8.encode` goes from characters to bytes and `Utf8.decode` from bytes to characters; this file
proves that the second undoes the first.  The reader is a fold, so it is enough to follow it through
the bytes of one character (`foldl_utf8EncodeChar`): it begins and ends between two characters, and
in between it has added that character and nothing else.

A character has one to four bytes.  The first one says how many follow and in which range the second
must lie, and the range is narrower than usual exactly where an overlong form, a surrogate or a
number past the last code point would begin.  That the second byte of a character lies in it is the
only place where it matters that a `Char` is no surrogate and not too large.
-/

namespace TagRental
namespace Utf8

/-- The byte with the six bits of `n`, as it follows a first byte. -/
def tail (n : Nat) : UInt8 := UInt8.ofNat (n % 64 + 0x80)

theorem toNat_tail (n : Nat) : (tail n).toNat = n % 64 + 0x80 := by
  rw [tail, UInt8.toNat_ofNat_of_lt']
  simp only [UInt8.size]
  omega

theorem toNat_ofNat_of_lt {n : Nat} (h : n < 256) : (UInt8.ofNat n).toNat = n :=
  UInt8.toNat_ofNat_of_lt' h

/-- An ASCII character is one byte, its own number. -/
theorem utf8EncodeChar_of_le {c : Char} (h : c.toNat ≤ 0x7F) :
    String.utf8EncodeChar c = [UInt8.ofNat c.toNat] := by
  have h : c.val.toNat ≤ 0x7F := h
  unfold String.utf8EncodeChar
  rw [if_pos h]
  rfl

/-- A byte of a character is the character itself, or it is no ASCII byte. -/
theorem eq_or_high_of_mem_utf8EncodeChar {c : Char} {b : UInt8} (h : b ∈ String.utf8EncodeChar c) :
    b.toNat = c.toNat ∨ 0x80 ≤ b.toNat := by
  have high : ∀ {n : Nat}, 0x80 ≤ n → n < 256 → 0x80 ≤ (UInt8.ofNat n).toNat := by
    intro n hlow hhigh
    rwa [toNat_ofNat_of_lt hhigh]
  unfold String.utf8EncodeChar at h
  dsimp only at h
  split at h
  · next hn =>
    rw [List.mem_singleton] at h
    rw [h, toNat_ofNat_of_lt (by omega)]
    exact Or.inl rfl
  · right
    split at h
    · simp only [List.mem_cons, List.not_mem_nil, or_false] at h
      rcases h with rfl | rfl <;> exact high (by omega) (by omega)
    · split at h
      · simp only [List.mem_cons, List.not_mem_nil, or_false] at h
        rcases h with rfl | rfl | rfl <;> exact high (by omega) (by omega)
      · simp only [List.mem_cons, List.not_mem_nil, or_false] at h
        rcases h with rfl | rfl | rfl | rfl <;> exact high (by omega) (by omega)

/-- An ASCII byte among the bytes of a text is one of its characters. -/
theorem mem_of_mem_encodeChars {c : Char} (hc : c.toNat ≤ 0x7F) {cs : List Char}
    (h : UInt8.ofNat c.toNat ∈ encodeChars cs) : c ∈ cs := by
  obtain ⟨d, hd, hb⟩ := List.mem_flatMap.mp h
  have hbyte := eq_or_high_of_mem_utf8EncodeChar hb
  rw [toNat_ofNat_of_lt (by omega)] at hbyte
  have hdc : d = c := Char.toNat_inj.mp (by omega)
  exact hdc ▸ hd

/-- Is a character one of ASCII? -/
abbrev IsAscii (c : Char) : Prop := c.toNat ≤ 0x7F

/-- A text of ASCII characters has one byte for each. -/
theorem length_encodeChars_of_ascii {cs : List Char} (h : ∀ c ∈ cs, IsAscii c) :
    (encodeChars cs).length = cs.length := by
  induction cs with
  | nil => rfl
  | cons c cs ih =>
    obtain ⟨hc, hcs⟩ := List.forall_mem_cons.mp h
    rw [encodeChars_cons, List.length_append, utf8EncodeChar_of_le hc, ih hcs,
      List.length_singleton, List.length_cons, Nat.add_comm]

/-! ## First bytes -/

theorem lead_one {n : Nat} (h : n ≤ 0x7F) : lead (UInt8.ofNat n) = .whole (Char.ofNat n) := by
  have hn : (UInt8.ofNat n).toNat = n := toNat_ofNat_of_lt (by omega)
  have hlt : UInt8.ofNat n < 0x80 := by
    rw [UInt8.lt_iff_toNat_lt, hn]
    exact Nat.lt_succ_of_le h
  rw [lead, if_pos hlt, hn]

theorem lead_two {n : Nat} (hlow : 0x80 ≤ n) (hhigh : n ≤ 0x7FF) :
    lead (UInt8.ofNat (n / 64 % 32 + 0xC0)) = .opens ⟨1, 0x80, 0xBF, n / 64, 1⟩ := by
  have hn : (UInt8.ofNat (n / 64 % 32 + 0xC0)).toNat = n / 64 + 0xC0 := by
    rw [toNat_ofNat_of_lt (by omega)]
    omega
  unfold lead
  rw [hn]
  simp only [UInt8.lt_iff_toNat_lt, hn, UInt8.reduceToNat]
  rw [if_neg (by omega), if_neg (by omega), if_pos (by omega), Nat.add_sub_cancel]

/-- The first byte of three leaves room for the second one, unless the character is a surrogate. -/
theorem lead_three {n : Nat} (hlow : 0x800 ≤ n) (hhigh : n ≤ 0xFFFF)
    (hchar : n < 0xD800 ∨ 0xDFFF < n) :
    ∃ low high : UInt8, lead (UInt8.ofNat (n / 4096 % 16 + 0xE0)) =
        .opens ⟨2, low, high, n / 4096, 1⟩ ∧
      low ≤ tail (n / 64) ∧ tail (n / 64) ≤ high := by
  have hn : (UInt8.ofNat (n / 4096 % 16 + 0xE0)).toNat = n / 4096 + 0xE0 := by
    rw [toNat_ofNat_of_lt (by omega)]
    omega
  unfold lead
  rw [hn]
  simp only [UInt8.lt_iff_toNat_lt, UInt8.le_iff_toNat_le, ← UInt8.toNat_inj, hn, toNat_tail,
    UInt8.reduceToNat]
  rw [if_neg (by omega), if_neg (by omega), if_neg (by omega)]
  by_cases h0 : n / 4096 = 0
  · refine ⟨0xA0, 0xBF, ?_, ?_, ?_⟩
    · rw [if_pos (by omega), h0]
    · simp only [UInt8.reduceToNat]; omega
    · simp only [UInt8.reduceToNat]; omega
  · by_cases hd : n / 4096 = 0xD
    · refine ⟨0x80, 0x9F, ?_, ?_, ?_⟩
      · rw [if_neg (by omega), if_pos (by omega), hd]
      · simp only [UInt8.reduceToNat]; omega
      · simp only [UInt8.reduceToNat]; omega
    · refine ⟨0x80, 0xBF, ?_, ?_, ?_⟩
      · rw [if_neg (by omega), if_neg (by omega), if_pos (by omega), Nat.add_sub_cancel]
      · simp only [UInt8.reduceToNat]; omega
      · simp only [UInt8.reduceToNat]; omega

/-- The first byte of four leaves room for the second one, unless the number is past the last code
point. -/
theorem lead_four {n : Nat} (hlow : 0xFFFF < n) (hchar : n < 0x110000) :
    ∃ low high : UInt8, lead (UInt8.ofNat (n / 262144 % 8 + 0xF0)) =
        .opens ⟨3, low, high, n / 262144, 1⟩ ∧
      low ≤ tail (n / 4096) ∧ tail (n / 4096) ≤ high := by
  have hn : (UInt8.ofNat (n / 262144 % 8 + 0xF0)).toNat = n / 262144 + 0xF0 := by
    rw [toNat_ofNat_of_lt (by omega)]
    omega
  unfold lead
  rw [hn]
  simp only [UInt8.lt_iff_toNat_lt, UInt8.le_iff_toNat_le, ← UInt8.toNat_inj, hn, toNat_tail,
    UInt8.reduceToNat]
  rw [if_neg (by omega), if_neg (by omega), if_neg (by omega), if_neg (by omega),
    if_neg (by omega), if_neg (by omega)]
  by_cases h0 : n / 262144 = 0
  · refine ⟨0x90, 0xBF, ?_, ?_, ?_⟩
    · rw [if_pos (by omega), h0]
    · simp only [UInt8.reduceToNat]; omega
    · simp only [UInt8.reduceToNat]; omega
  · by_cases h4 : n / 262144 = 4
    · refine ⟨0x80, 0x8F, ?_, ?_, ?_⟩
      · rw [if_neg (by omega), if_neg (by omega), if_pos (by omega), h4]
      · simp only [UInt8.reduceToNat]; omega
      · simp only [UInt8.reduceToNat]; omega
    · refine ⟨0x80, 0xBF, ?_, ?_, ?_⟩
      · rw [if_neg (by omega), if_pos (by omega), Nat.add_sub_cancel]
      · simp only [UInt8.reduceToNat]; omega
      · simp only [UInt8.reduceToNat]; omega

/-! ## One character -/

namespace Scan

theorem step_opens {s : Scan} (hs : s.pending = none) {b : UInt8} {o : Opening}
    (h : lead b = .opens o) : s.step b = { s with pending := some o } := by
  simp only [step, hs, first, h]

/-- A byte that is not the last of its character. -/
theorem step_tail {chars : List Char} {offset need bits seen n : Nat} {fault : Option Fault}
    {low high : UInt8} (hlow : low ≤ tail n) (hhigh : tail n ≤ high) (hneed : 1 < need) :
    step ⟨chars, offset, some ⟨need, low, high, bits, seen⟩, fault⟩ (tail n) =
      ⟨chars, offset, some ⟨need - 1, 0x80, 0xBF, bits * 64 + n % 64, seen + 1⟩, fault⟩ := by
  simp only [step, hlow, hhigh, and_self, if_true, Nat.not_le_of_lt hneed, if_false, toNat_tail,
    Nat.add_sub_cancel]

/-- The last byte of a character. -/
theorem step_tail_last {chars : List Char} {offset bits seen n : Nat} {fault : Option Fault}
    {low high : UInt8} (hlow : low ≤ tail n) (hhigh : tail n ≤ high) :
    step ⟨chars, offset, some ⟨1, low, high, bits, seen⟩, fault⟩ (tail n) =
      ⟨Char.ofNat (bits * 64 + n % 64) :: chars, offset + seen + 1, none, fault⟩ := by
  simp only [step, hlow, hhigh, and_self, if_true, Nat.le_refl, toNat_tail, Nat.add_sub_cancel]

theorem tail_bounds (n : Nat) : 0x80 ≤ tail n ∧ tail n ≤ 0xBF := by
  simp only [UInt8.le_iff_toNat_le, toNat_tail, UInt8.reduceToNat]
  omega

/-- **The bytes of one character** add that character to what was read, and damage nothing. -/
theorem foldl_utf8EncodeChar (chars : List Char) (offset : Nat) (fault : Option Fault) (c : Char) :
    (String.utf8EncodeChar c).foldl step ⟨chars, offset, none, fault⟩ =
      ⟨c :: chars, offset + (String.utf8EncodeChar c).length, none, fault⟩ := by
  have hvalid := c.valid
  have hchar : c.val.toNat < 0xD800 ∨ 0xDFFF < c.val.toNat ∧ c.val.toNat < 0x110000 := hvalid
  have hc : Char.ofNat c.val.toNat = c := Char.ofNat_toNat c
  unfold String.utf8EncodeChar
  dsimp only
  generalize c.val.toNat = n at hchar hc
  by_cases h1 : n ≤ 0x7F
  · rw [if_pos h1, List.foldl_cons, List.foldl_nil]
    simp only [step, first, lead_one h1, hc]
    rfl
  · rw [if_neg h1]
    by_cases h2 : n ≤ 0x7FF
    · obtain ⟨htl, hth⟩ := tail_bounds n
      rw [if_pos h2, List.foldl_cons, step_opens rfl (lead_two (by omega) h2), List.foldl_cons,
        List.foldl_nil]
      change step _ (tail n) = _
      rw [step_tail_last htl hth, show n / 64 * 64 + n % 64 = n by omega, hc]
      rfl
    · rw [if_neg h2]
      obtain ⟨htl, hth⟩ := tail_bounds n
      obtain ⟨htl1, hth1⟩ := tail_bounds (n / 64)
      by_cases h3 : n ≤ 0xFFFF
      · obtain ⟨low, high, hlead, hlow, hhigh⟩ := lead_three (by omega) h3 (by omega)
        rw [if_pos h3, List.foldl_cons, step_opens rfl hlead, List.foldl_cons, List.foldl_cons,
          List.foldl_nil]
        change step (step _ (tail (n / 64))) (tail n) = _
        rw [step_tail hlow hhigh (by decide), step_tail_last htl hth,
          show (n / 4096 * 64 + n / 64 % 64) * 64 + n % 64 = n by omega, hc]
        rfl
      · obtain ⟨low, high, hlead, hlow, hhigh⟩ := lead_four (n := n) (by omega) (by omega)
        rw [if_neg h3, List.foldl_cons, step_opens rfl hlead, List.foldl_cons, List.foldl_cons,
          List.foldl_cons, List.foldl_nil]
        change step (step (step _ (tail (n / 4096))) (tail (n / 64))) (tail n) = _
        have hcode :
            ((n / 262144 * 64 + n / 4096 % 64) * 64 + n / 64 % 64) * 64 + n % 64 = n := by omega
        rw [step_tail hlow hhigh (by decide), step_tail htl1 hth1 (by decide),
          step_tail_last htl hth, hcode, hc]
        rfl

theorem foldl_encodeChars (chars : List Char) (offset : Nat) (fault : Option Fault)
    (cs : List Char) :
    (encodeChars cs).foldl step ⟨chars, offset, none, fault⟩ =
      ⟨cs.reverse ++ chars, offset + (encodeChars cs).length, none, fault⟩ := by
  induction cs generalizing chars offset with
  | nil => rfl
  | cons c cs ih =>
    rw [encodeChars_cons, List.foldl_append, foldl_utf8EncodeChar, ih, List.reverse_cons,
      List.append_assoc, List.length_append, Nat.add_assoc]
    rfl

end Scan

/-- **Encoded characters are read back.** -/
theorem decode_encodeChars (cs : List Char) :
    decode (encodeChars cs) = .ok (String.ofList cs) := by
  have hscan : scan (encodeChars cs) = ⟨cs.reverse, (encodeChars cs).length, none, none⟩ := by
    rw [scan, Scan.start, Scan.foldl_encodeChars, List.append_nil, Nat.zero_add]
    rfl
  rw [decode_eq_ok_iff, hscan]
  exact ⟨rfl, by rw [List.reverse_reverse]⟩

/-- Encoded text is read back. -/
theorem decode_encode (s : String) : decode (encode s) = .ok s := by
  rw [encode, decode_encodeChars, String.ofList_toList]

end Utf8
end TagRental
