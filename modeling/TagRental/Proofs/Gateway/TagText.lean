import TagRental.Gateway.Tag
import TagRental.Proofs.Text.Utf8RoundTrip

/-!
# The written form of a tag is read back

A tag is written as two lower-case hexadecimal digits for each byte, and a text that differs from
that in nothing but the case of its letters spells the same tag.  Reading a tag takes three steps:
the blanks around the text are removed, the bytes of the text are taken for digits, and the bytes
that they write are judged by their number.  On such a text the first step removes nothing, since a
digit is no blank; the second one meets one byte for each digit, since digits are ASCII; and the
third one finds what every tag promises.
-/

namespace TagRental

namespace Hex

/-- A character is its own lower case, or it is an upper-case letter. -/
theorem eq_or_upper_of_toLower_eq {c d : Char} (h : c.toLower = d) :
    c = d ∨ d.toNat = c.toNat + 0x20 ∧ 0x61 ≤ d.toNat := by
  unfold Char.toLower at h
  split at h
  · next hc =>
    right
    have hlow : 0x41 ≤ c.toNat := UInt32.le_iff_toNat_le.mp hc.1
    have hhigh : c.toNat ≤ 0x5A := UInt32.le_iff_toNat_le.mp hc.2
    have hd : d.toNat = (c.val + 0x20).toNat := by
      rw [← h]
      rfl
    have hval : c.val.toNat = c.toNat := rfl
    rw [UInt32.toNat_add, hval] at hd
    simp only [UInt32.reduceToNat] at hd
    omega
  · exact Or.inl h

/-- What is true of a digit that writes a value below sixteen, in either case: it is one ASCII byte,
which is read as that value, and it is no blank. -/
theorem digit_spec {c : Char} {n : Nat} (h : n < 16) (hc : c.toLower = digitChar n) :
    c.toNat ≤ 0x7F ∧ digitValue? (UInt8.ofNat c.toNat) = some (UInt8.ofNat n) ∧
      Text.isBlank c = false := by
  have hlower : ∀ n < 16, (digitChar n).toNat ≤ 0x7F ∧
      digitValue? (UInt8.ofNat (digitChar n).toNat) = some (UInt8.ofNat n) ∧
      Text.isBlank (digitChar n) = false := by decide
  have hupper : ∀ n < 16, 0x61 ≤ (digitChar n).toNat →
      let c := Char.ofNat ((digitChar n).toNat - 0x20)
      c.toNat ≤ 0x7F ∧ digitValue? (UInt8.ofNat c.toNat) = some (UInt8.ofNat n) ∧
        Text.isBlank c = false := by decide
  rcases eq_or_upper_of_toLower_eq hc with rfl | ⟨hd, hletter⟩
  · exact hlower n h
  · have hchar : c = Char.ofNat ((digitChar n).toNat - 0x20) := by
      rw [hd, Nat.add_sub_cancel, Char.ofNat_toNat]
    rw [hchar]
    exact hupper n h hletter

theorem high_lt (b : UInt8) : b.toNat / 16 < 16 := by
  have hb := b.toNat_lt
  omega

theorem low_lt (b : UInt8) : b.toNat % 16 < 16 := Nat.mod_lt _ (by decide)

/-- A byte is put together again from its two halves. -/
theorem high_mul_add_low (b : UInt8) :
    UInt8.ofNat (b.toNat / 16) * 16 + UInt8.ofNat (b.toNat % 16) = b := by
  have hb := b.toNat_lt
  rw [← UInt8.toNat_inj]
  simp only [UInt8.toNat_add, UInt8.toNat_mul,
    Utf8.toNat_ofNat_of_lt (show b.toNat / 16 < 256 by omega),
    Utf8.toNat_ofNat_of_lt (show b.toNat % 16 < 256 by omega), UInt8.reduceToNat]
  omega

/-- Two digits for each byte, in either case. -/
def Spells (cs : List Char) (bytes : Bytes) : Prop := cs.map Char.toLower = chars bytes

/-- One ASCII byte for each of the two digits of the first byte, and the digits of the others. -/
theorem Spells.uncons {cs : List Char} {b : UInt8} {bytes : Bytes} (h : Spells cs (b :: bytes)) :
    ∃ x y rest, Utf8.encodeChars cs = x :: y :: Utf8.encodeChars rest ∧
      digitValue? x = some (UInt8.ofNat (b.toNat / 16)) ∧
      digitValue? y = some (UInt8.ofNat (b.toNat % 16)) ∧ Spells rest bytes := by
  obtain ⟨high, cs, rfl, hhigh, h⟩ := List.map_eq_cons_iff.mp h
  obtain ⟨low, rest, rfl, hlow, hrest⟩ := List.map_eq_cons_iff.mp h
  obtain ⟨hhighByte, hhigh, -⟩ := digit_spec (high_lt b) hhigh
  obtain ⟨hlowByte, hlow, -⟩ := digit_spec (low_lt b) hlow
  refine ⟨_, _, rest, ?_, hhigh, hlow, hrest⟩
  rw [Utf8.encodeChars_cons, Utf8.encodeChars_cons, Utf8.utf8EncodeChar_of_le hhighByte,
    Utf8.utf8EncodeChar_of_le hlowByte]
  rfl

/-- The digits that are written. -/
theorem spells_chars (bytes : Bytes) : Spells (chars bytes) bytes := by
  have hdigit : ∀ n < 16, (digitChar n).toLower = digitChar n := by decide
  induction bytes with
  | nil => rfl
  | cons b bytes ih =>
    rw [Spells, chars_cons, List.map_append, ih, byteChars, List.map_cons, List.map_cons,
      hdigit _ (high_lt b), hdigit _ (low_lt b)]
    rfl

theorem decodeFrom_of_spells {cs : List Char} {bytes : Bytes} (h : Spells cs bytes) (index : Nat)
    (done : Bytes) :
    decodeFrom index done (Utf8.encodeChars cs) = .ok (done.reverse ++ bytes) := by
  induction bytes generalizing cs index done with
  | nil =>
    rw [List.map_eq_nil_iff.mp h, List.append_nil]
    rfl
  | cons b bytes ih =>
    obtain ⟨x, y, rest, hbytes, hx, hy, hrest⟩ := h.uncons
    rw [hbytes, decodeFrom]
    simp only [hx, hy, high_mul_add_low]
    rw [ih hrest, List.reverse_cons, List.append_assoc]
    rfl

theorem length_encodeChars_of_spells {cs : List Char} {bytes : Bytes} (h : Spells cs bytes) :
    (Utf8.encodeChars cs).length = 2 * bytes.length := by
  induction bytes generalizing cs with
  | nil =>
    rw [List.map_eq_nil_iff.mp h]
    rfl
  | cons b bytes ih =>
    obtain ⟨x, y, rest, hbytes, -, -, hrest⟩ := h.uncons
    rw [hbytes, List.length_cons, List.length_cons, ih hrest, List.length_cons]
    omega

/-- **Bytes that are spelt in hexadecimal** are read, whatever the case of the letters. -/
theorem decode_of_spells {s : String} {bytes : Bytes} (h : Spells s.toList bytes) :
    decode s = .ok bytes := by
  have heven : ¬2 * bytes.length % 2 = 1 := by omega
  rw [decode, Utf8.encode, decodeBytes, length_encodeChars_of_spells h, if_neg heven,
    decodeFrom_of_spells h]
  rfl

theorem Spells.not_blank {cs : List Char} {bytes : Bytes} (h : Spells cs bytes) {c : Char}
    (hc : c ∈ cs) : Text.isBlank c = false := by
  have hlower : c.toLower ∈ chars bytes := h ▸ List.mem_map_of_mem hc
  obtain ⟨b, -, hb⟩ := List.mem_flatMap.mp hlower
  rw [byteChars, List.mem_cons, List.mem_singleton] at hb
  rcases hb with hb | hb
  · exact (digit_spec (high_lt b) hb).2.2
  · exact (digit_spec (low_lt b) hb).2.2

theorem length_chars (bytes : Bytes) : (chars bytes).length = 2 * bytes.length := by
  induction bytes with
  | nil => rfl
  | cons b bytes ih =>
    have hb : (byteChars b).length = 2 := rfl
    rw [chars_cons, List.length_append, ih, hb, List.length_cons]
    omega

end Hex

namespace Text

/-- Of a text that does not begin with a blank, nothing is dropped. -/
theorem dropWhile_isBlank_of_head? {cs : List Char} (h : ∀ c ∈ cs.head?, isBlank c = false) :
    cs.dropWhile isBlank = cs := by
  cases cs with
  | nil => rfl
  | cons c cs =>
    have hc : isBlank c = false := h c rfl
    rw [List.dropWhile_cons, if_neg (by rw [hc]; exact Bool.false_ne_true)]

/-- Where there are no blanks, none are removed. -/
theorem stripChars_of_not_blank {cs : List Char} (h : ∀ c ∈ cs, isBlank c = false) :
    stripChars cs = cs := by
  have hfront : cs.dropWhile isBlank = cs :=
    dropWhile_isBlank_of_head? fun c hc => h c (List.mem_of_mem_head? hc)
  have hback : cs.reverse.dropWhile isBlank = cs.reverse :=
    dropWhile_isBlank_of_head? fun c hc => h c (List.mem_reverse.mp (List.mem_of_mem_head? hc))
  rw [stripChars, hfront, hback, List.reverse_reverse]

end Text

namespace Tag

/-- Digits of a tag, in either case, are read as that tag. -/
theorem ofHex_of_spells {s : String} {t : Tag} (h : Hex.Spells s.toList t.bytes) :
    ofHex s = .ok t := by
  have hstrip : Text.strip s = s := by
    rw [Text.strip, Text.stripChars_of_not_blank fun c => h.not_blank, String.ofList_toList]
  rw [ofHex, hstrip, Hex.decode_of_spells h]
  exact ofBytes_bytes t

/-- **The written form of a tag** is read as that tag. -/
theorem ofHex_hex (t : Tag) : ofHex t.hex = .ok t := by
  refine ofHex_of_spells ?_
  rw [hex, Hex.toList_encode]
  exact Hex.spells_chars t.bytes

/-- No two tags are written alike. -/
theorem hex_inj {a b : Tag} : a.hex = b.hex ↔ a = b := by
  refine ⟨fun h => ?_, congrArg hex⟩
  have hsame : (Except.ok a : Except Fault Tag) = .ok b := by rw [← ofHex_hex, ← ofHex_hex, h]
  exact Except.ok.inj hsame

/-- **A text that is the written form of a tag up to the case of its letters** is read as that
tag. -/
theorem ofHex_of_lowerAscii {s : String} {t : Tag} (h : Text.lowerAscii s = t.hex) :
    ofHex s = .ok t :=
  ofHex_of_spells (String.ofList_injective h)

theorem length_lt_size (t : Tag) : t.length < UInt64.size := by
  have hle : t.length ≤ maxLength := t.length_le
  exact Nat.lt_of_le_of_lt hle (by decide)

/-- A tag is written with two digits for each of its bytes. -/
theorem length_toList_hex (t : Tag) : t.hex.toList.length = 2 * t.length := by
  rw [hex, Hex.toList_encode, Hex.length_chars]
  rfl

end Tag
end TagRental
