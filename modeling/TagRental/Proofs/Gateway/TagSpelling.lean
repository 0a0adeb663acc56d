import TagRental.Proofs.Gateway.TagText

/-!
# Which texts spell a tag

`Tag.ofHex` accepts a text exactly if what is left of it without the blanks around it is two
hexadecimal digits for each of one to sixteen bytes.  Every other text has one fault, and this file
says which: an odd number of bytes first, then the first byte that is no digit, then that there are
no bytes at all, and only then that there are too many.

## Bytes and characters

Digits are looked for among the *bytes* of a text, and a tag is written in *characters*.  A text of
which every byte is a digit is one byte for each character, since the bytes of a character that is
not ASCII are all above the digits (`Hex.isDigitChar_of_bytes`).  So a text with a character that is
not ASCII has a byte that is no digit, unless the number of its bytes is odd, and the position in
the fault counts bytes.

## Where the reading stops

The reader goes through the bytes by twos and looks at the first digit of a pair before the second,
so the byte that it stops at is the first that is no digit, and it does not matter in which half of
a pair that is (`Hex.decodeFrom_of_first_bad`, by induction on the pairs in front of it).
-/

namespace TagRental

/-! ## Blanks around a text -/

namespace Text

/-- What is left of a text without the blanks at either end. -/
structure Stripped (text rest : List Char) : Prop where
  around : ∃ front back, text = front ++ rest ++ back ∧ (∀ c ∈ front, isBlank c = true) ∧
    ∀ c ∈ back, isBlank c = true
  first : ∀ c ∈ rest.head?, isBlank c = false
  last : ∀ c ∈ rest.getLast?, isBlank c = false

theorem not_blank_of_head?_dropWhile {cs : List Char} {c : Char}
    (h : c ∈ (cs.dropWhile isBlank).head?) : isBlank c = false := by
  have hnot := List.head?_dropWhile_not isBlank cs
  rw [Option.mem_def.mp h] at hnot
  exact hnot

theorem blank_of_mem_takeWhile {cs : List Char} {c : Char} (h : c ∈ cs.takeWhile isBlank) :
    isBlank c = true :=
  List.all_eq_true.mp List.all_takeWhile c h

/-- What is stripped is the blanks at either end, and all of them. -/
theorem stripped_stripChars (cs : List Char) : Stripped cs (stripChars cs) := by
  have hback : cs.dropWhile isBlank =
      stripChars cs ++ ((cs.dropWhile isBlank).reverse.takeWhile isBlank).reverse := by
    rw [stripChars, ← List.reverse_append, List.takeWhile_append_dropWhile, List.reverse_reverse]
  refine ⟨⟨cs.takeWhile isBlank, ((cs.dropWhile isBlank).reverse.takeWhile isBlank).reverse, ?_,
    fun c => blank_of_mem_takeWhile, ?_⟩, ?_, ?_⟩
  · rw [List.append_assoc, ← hback, List.takeWhile_append_dropWhile]
  · exact fun c hc => blank_of_mem_takeWhile (List.mem_reverse.mp hc)
  · -- what the text begins with is what the rest behind the blanks in front begins with
    intro c hc
    have hhead : c ∈ (cs.dropWhile isBlank).head? := by
      rw [hback, List.head?_append, Option.mem_def.mp hc]
      rfl
    exact not_blank_of_head?_dropWhile hhead
  · intro c hc
    rw [stripChars, List.getLast?_reverse] at hc
    exact not_blank_of_head?_dropWhile hc

/-- There is only one way to strip a text. -/
theorem Stripped.eq_stripChars {text rest : List Char} (h : Stripped text rest) :
    rest = stripChars text := by
  obtain ⟨front, back, rfl, hfront, hback⟩ := h.around
  rw [stripChars, List.append_assoc, List.dropWhile_append_of_pos hfront]
  cases rest with
  | nil =>
    have hgone : (back ++ []).dropWhile isBlank = [] := List.dropWhile_append_of_pos hback
    rw [List.nil_append, ← List.append_nil back, hgone]
    rfl
  | cons c rest =>
    have hreverse : ∀ d ∈ (c :: rest).reverse.head?, isBlank d = false := by
      rw [List.head?_reverse]
      exact h.last
    have hfirst : (c :: rest ++ back).dropWhile isBlank = c :: rest ++ back :=
      dropWhile_isBlank_of_head? fun d hd => h.first d hd
    rw [hfirst, List.reverse_append,
      List.dropWhile_append_of_pos fun d hd => hback d (List.mem_reverse.mp hd),
      dropWhile_isBlank_of_head? hreverse, List.reverse_reverse]

theorem stripped_iff {text rest : List Char} : Stripped text rest ↔ rest = stripChars text :=
  ⟨Stripped.eq_stripChars, fun h => h ▸ stripped_stripChars text⟩

end Text

/-- Only the empty text has no bytes. -/
theorem Utf8.encode_eq_nil_iff {s : String} : encode s = [] ↔ s = "" := by
  rw [encode, encodeChars, List.flatMap_eq_nil_iff, ← String.toList_eq_nil_iff]
  constructor
  · intro h
    refine List.eq_nil_iff_forall_not_mem.mpr fun c hc => ?_
    have hlength := congrArg List.length (h c hc)
    rw [String.length_utf8EncodeChar, List.length_nil] at hlength
    exact absurd hlength (Nat.ne_of_gt c.utf8Size_pos)
  · intro h c hc
    rw [h] at hc
    cases hc

/-! ## Digits -/

namespace Hex

/-- The bytes that are hexadecimal digits. -/
def digitBytes : Bytes := Utf8.encode "0123456789abcdefABCDEF"

/-- A byte has a value exactly if it is a digit. -/
theorem digitValue?_eq_none_iff (b : UInt8) : digitValue? b = none ↔ b ∉ digitBytes := by
  have hall : ∀ n < 256, digitValue? (UInt8.ofNat n) = none ↔ UInt8.ofNat n ∉ digitBytes := by
    decide +kernel
  have hb := hall b.toNat b.toNat_lt
  rwa [UInt8.ofNat_toNat] at hb

theorem exists_digitValue {b : UInt8} (h : b ∈ digitBytes) : ∃ v, digitValue? b = some v :=
  Option.ne_none_iff_exists'.mp fun hnone => (digitValue?_eq_none_iff b).mp hnone h

/-- The character of a digit writes a value below sixteen, in either case. -/
theorem toLower_of_mem_digitBytes {b : UInt8} (h : b ∈ digitBytes) :
    b.toNat < 0x80 ∧ ∃ n < 16, (Char.ofNat b.toNat).toLower = digitChar n := by
  have hall : ∀ b ∈ digitBytes,
      b.toNat < 0x80 ∧ ∃ n < 16, (Char.ofNat b.toNat).toLower = digitChar n := by decide +kernel
  exact hall b h

/-- A character is a digit if its bytes are. -/
theorem isDigitChar_of_bytes {c : Char} (h : ∀ b ∈ String.utf8EncodeChar c, b ∈ digitBytes) :
    Utf8.IsAscii c ∧ ∃ n < 16, c.toLower = digitChar n := by
  have hpos : 0 < (String.utf8EncodeChar c).length := by
    rw [String.length_utf8EncodeChar]
    exact c.utf8Size_pos
  obtain ⟨b, hb⟩ := List.exists_mem_of_length_pos hpos
  obtain ⟨hlow, n, hn, hlower⟩ := toLower_of_mem_digitBytes (h b hb)
  have hbc : b.toNat = c.toNat := by
    have := Utf8.eq_or_high_of_mem_utf8EncodeChar hb
    omega
  rw [hbc, Char.ofNat_toNat] at hlower
  exact ⟨by unfold Utf8.IsAscii; omega, n, hn, hlower⟩

/-- Every character of a text is a digit if every byte is. -/
theorem isDigitChar_of_mem {cs : List Char} (h : ∀ b ∈ Utf8.encodeChars cs, b ∈ digitBytes)
    {c : Char} (hc : c ∈ cs) : Utf8.IsAscii c ∧ ∃ n < 16, c.toLower = digitChar n :=
  isDigitChar_of_bytes fun b hb => h b (List.mem_flatMap.mpr ⟨c, hc, hb⟩)

/-- Two digits write a byte. -/
theorem exists_byteChars {m n : Nat} (hm : m < 16) (hn : n < 16) :
    ∃ b, byteChars b = [digitChar m, digitChar n] := by
  refine ⟨UInt8.ofNat (m * 16 + n), ?_⟩
  rw [byteChars, Utf8.toNat_ofNat_of_lt (by omega), show (m * 16 + n) / 16 = m by omega,
    show (m * 16 + n) % 16 = n by omega]

/-- **An even number of digits spells bytes.** -/
theorem exists_spells : ∀ {cs : List Char}, (∀ c ∈ cs, ∃ n < 16, c.toLower = digitChar n) →
    cs.length % 2 = 0 → ∃ bytes, Spells cs bytes
  | [], _, _ => ⟨[], rfl⟩
  | [_], _, hlength => by cases hlength
  | x :: y :: rest, hdigits, hlength => by
    obtain ⟨⟨m, hm, hx⟩, ⟨n, hn, hy⟩, hrest⟩ :=
      (List.forall_mem_cons.mp hdigits).imp_right List.forall_mem_cons.mp
    have heven : rest.length % 2 = 0 := by
      simp only [List.length_cons] at hlength
      omega
    obtain ⟨bytes, hbytes⟩ := exists_spells hrest heven
    obtain ⟨b, hb⟩ := exists_byteChars hm hn
    refine ⟨b :: bytes, ?_⟩
    rw [Spells, List.map_cons, List.map_cons, hx, hy, hbytes, chars_cons, hb]
    rfl

/-- A list of pairs of digits and a byte that is none behind them: the reader stops at that byte. -/
theorem decodeFrom_of_first_bad {b : UInt8} (hb : b ∉ digitBytes) (rest : Bytes) :
    ∀ (front : Bytes), (∀ x ∈ front, x ∈ digitBytes) → (front ++ b :: rest).length % 2 = 0 →
      ∀ (index : Nat) (done : Bytes),
        decodeFrom index done (front ++ b :: rest) = .error (.badDigit b (index + front.length))
  | [], _, heven, index, done => by
    have hnone := (digitValue?_eq_none_iff b).mpr hb
    cases rest with
    | nil => cases heven
    | cons y rest =>
      simp only [List.nil_append, decodeFrom, hnone]
      rfl
  | [x], hfront, _, index, done => by
    have hnone := (digitValue?_eq_none_iff b).mpr hb
    obtain ⟨v, hv⟩ := exists_digitValue (hfront x List.mem_cons_self)
    simp only [List.cons_append, List.nil_append, decodeFrom, hnone, hv]
    rfl
  | x :: y :: front, hfront, heven, index, done => by
    obtain ⟨hx, hy, hfront⟩ := (List.forall_mem_cons.mp hfront).imp_right List.forall_mem_cons.mp
    obtain ⟨v, hv⟩ := exists_digitValue hx
    obtain ⟨w, hw⟩ := exists_digitValue hy
    have heven : (front ++ b :: rest).length % 2 = 0 := by
      simp only [List.cons_append, List.length_cons] at heven
      omega
    have ih := decodeFrom_of_first_bad hb rest front hfront heven (index + 2) ((v * 16 + w) :: done)
    simp only [List.cons_append, decodeFrom, hv, hw]
    rw [ih, List.length_cons, List.length_cons]
    congr 2
    omega

/-- A byte that is no digit stands somewhere first. -/
theorem exists_first_bad {bytes : Bytes} (h : ¬∀ b ∈ bytes, b ∈ digitBytes) :
    ∃ front b rest, bytes = front ++ b :: rest ∧ (∀ x ∈ front, x ∈ digitBytes) ∧
      b ∉ digitBytes := by
  have hsome : (bytes.find? fun b => decide (b ∉ digitBytes)).isSome = true := by
    obtain ⟨b, hb⟩ := Classical.not_forall.mp h
    obtain ⟨hmem, hbad⟩ := Classical.not_imp.mp hb
    exact List.find?_isSome.mpr ⟨b, hmem, decide_eq_true hbad⟩
  obtain ⟨b, hfind⟩ := Option.isSome_iff_exists.mp hsome
  obtain ⟨hbad, front, rest, hsplit, hfront⟩ := List.find?_eq_some_iff_append.mp hfind
  refine ⟨front, b, rest, hsplit, fun x hx => ?_, of_decide_eq_true hbad⟩
  simpa using hfront x hx

section Decode

variable {s : String}

theorem decode_of_odd (h : (Utf8.encode s).length % 2 = 1) : decode s = .error .oddLength :=
  if_pos h

theorem decode_of_first_bad {front rest : Bytes} {b : UInt8}
    (heven : (Utf8.encode s).length % 2 = 0) (hs : Utf8.encode s = front ++ b :: rest)
    (hfront : ∀ x ∈ front, x ∈ digitBytes) (hb : b ∉ digitBytes) :
    decode s = .error (.badDigit b front.length) := by
  rw [decode, decodeBytes, if_neg (by omega)]
  rw [hs] at heven ⊢
  rw [decodeFrom_of_first_bad hb rest front hfront heven, Nat.zero_add]

theorem decode_of_digits (heven : (Utf8.encode s).length % 2 = 0)
    (h : ∀ b ∈ Utf8.encode s, b ∈ digitBytes) :
    ∃ bytes, decode s = .ok bytes ∧ Spells s.toList bytes ∧
      bytes.length = (Utf8.encode s).length / 2 := by
  have hchars := fun c (hc : c ∈ s.toList) => isDigitChar_of_mem h hc
  have hlength : (Utf8.encode s).length = s.toList.length :=
    Utf8.length_encodeChars_of_ascii fun c hc => (hchars c hc).1
  obtain ⟨bytes, hbytes⟩ := exists_spells (fun c hc => (hchars c hc).2) (by rwa [hlength] at heven)
  have htwice : (Utf8.encode s).length = 2 * bytes.length := length_encodeChars_of_spells hbytes
  exact ⟨bytes, decode_of_spells hbytes, hbytes, by omega⟩

/-- **Exactly the texts that spell bytes** are read. -/
theorem decode_eq_ok_iff_spells {bytes : Bytes} : decode s = .ok bytes ↔ Spells s.toList bytes := by
  refine ⟨fun h => ?_, decode_of_spells⟩
  by_cases hodd : (Utf8.encode s).length % 2 = 1
  · rw [decode_of_odd hodd] at h
    cases h
  have heven : (Utf8.encode s).length % 2 = 0 := by omega
  by_cases hdigits : ∀ b ∈ Utf8.encode s, b ∈ digitBytes
  · obtain ⟨bytes', hdecode, hspells, -⟩ := decode_of_digits heven hdigits
    rw [hdecode] at h
    cases h
    exact hspells
  · obtain ⟨front, b, rest, hsplit, hfront, hb⟩ := exists_first_bad hdigits
    rw [decode_of_first_bad heven hsplit hfront hb] at h
    cases h

end Decode

end Hex

/-! ## Tags -/

namespace Tag

variable {s : String}

theorem ofHex_eq_error_of_decode {f : Hex.Fault} (h : Hex.decode (Text.strip s) = .error f) :
    ofHex s = .error (.notHex f) := by
  rw [ofHex, h]

/-- **A text of an even number of digits**: there may be none or too many, and otherwise it spells a
tag. -/
theorem ofHex_of_digits (heven : (Utf8.encode (Text.strip s)).length % 2 = 0)
    (h : ∀ b ∈ Utf8.encode (Text.strip s), b ∈ Hex.digitBytes) :
    let n := (Utf8.encode (Text.strip s)).length / 2
    (n = 0 → ofHex s = .error .empty) ∧ (maxLength < n → ofHex s = .error (.tooLong n)) ∧
      (1 ≤ n → n ≤ maxLength → ∃ t, ofHex s = .ok t ∧ t.length = n) := by
  intro n
  obtain ⟨bytes, hdecode, -, hlength⟩ := Hex.decode_of_digits heven h
  have hof : ofHex s = ofBytes bytes := by rw [ofHex, hdecode]
  have hn : bytes.length = n := hlength
  refine ⟨?_, ?_, ?_⟩
  · intro hzero
    rw [hof, List.length_eq_zero_iff.mp (hn.trans hzero)]
    rfl
  · intro hlong
    have hne : bytes ≠ [] := List.ne_nil_of_length_pos (by omega)
    rw [hof, ofBytes, dif_neg hne, dif_neg (by omega), hn]
  · intro hpos hle
    have hne : bytes ≠ [] := List.ne_nil_of_length_pos (by omega)
    have hfits : bytes.length ≤ maxLength := hn ▸ hle
    refine ⟨⟨bytes, hne, hfits⟩, ?_, hn⟩
    rw [hof, ofBytes, dif_neg hne, dif_pos hfits]

/-- A text that spells a tag is the written form of that tag, up to blanks and the case of its
letters. -/
theorem hex_of_ofHex {t : Tag} (h : ofHex s = .ok t) : t.hex = Text.lowerAscii (Text.strip s) := by
  unfold ofHex at h
  split at h
  · cases h
  · next bytes hdecode =>
    have hspells := Hex.decode_eq_ok_iff_spells.mp hdecode
    rw [hex, Hex.encode, bytes_of_ofBytes h, ← hspells, Text.lowerAscii]

/-- **Which texts spell a tag, and which tag.**  A text is judged by what is left of it without the
blanks at either end.  The written form of a tag spells that tag, and two texts that spell tags
spell the same one exactly if they agree up to blanks and the case of their letters.  Let `u` be a
text without the blanks at either end.  The first of these that is true of `u` is what comes of the
text:

* the number of its bytes is odd, and that is the fault;
* there is a byte that is no hexadecimal digit, and the fault names the first one and its position;
* it is empty, and that is the fault;
* its digits write more than sixteen bytes, and the fault names their number;
* otherwise it spells a tag of that many bytes, whose written form is `u` in lower case. -/
theorem ofHex_judges :
    (∀ (s : String) (rest : List Char),
      Text.Stripped s.toList rest ↔ rest = (Text.strip s).toList) ∧
    (∀ t : Tag, ofHex t.hex = .ok t) ∧
    (∀ (s s' : String) (t t' : Tag), ofHex s = .ok t → ofHex s' = .ok t' →
      (t = t' ↔ Text.lowerAscii (Text.strip s) = Text.lowerAscii (Text.strip s'))) ∧
    ∀ s : String,
      let u := Text.strip s
      let bytes := Utf8.encode u
      let n := bytes.length / 2
      (bytes.length % 2 = 1 → ofHex s = .error (.notHex .oddLength)) ∧
      (bytes.length % 2 = 0 → ∀ front b rest, bytes = front ++ b :: rest →
        (∀ x ∈ front, x ∈ Hex.digitBytes) → b ∉ Hex.digitBytes →
          ofHex s = .error (.notHex (.badDigit b front.length))) ∧
      (bytes.length % 2 = 0 → (∀ b ∈ bytes, b ∈ Hex.digitBytes) →
        (u = "" → ofHex s = .error .empty) ∧ (16 < n → ofHex s = .error (.tooLong n)) ∧
          (u ≠ "" → n ≤ 16 →
            ∃ t, ofHex s = .ok t ∧ t.length = n ∧ 1 ≤ n ∧ t.hex = Text.lowerAscii u)) := by
  refine ⟨?_, ofHex_hex, ?_, ?_⟩
  · intro s rest
    have hu : (Text.strip s).toList = Text.stripChars s.toList := String.toList_ofList
    rw [hu]
    exact Text.stripped_iff
  · intro s s' t t' ht ht'
    rw [← hex_of_ofHex ht, ← hex_of_ofHex ht']
    exact hex_inj.symm
  intro s u bytes n
  refine ⟨?_, ?_, ?_⟩
  · exact fun hodd => ofHex_eq_error_of_decode (Hex.decode_of_odd hodd)
  · exact fun heven front b rest hsplit hfront hb =>
      ofHex_eq_error_of_decode (Hex.decode_of_first_bad heven hsplit hfront hb)
  · intro heven hdigits
    obtain ⟨hempty, hlong, hfits⟩ := ofHex_of_digits heven hdigits
    refine ⟨?_, hlong, ?_⟩
    · intro hu
      refine hempty ?_
      change (Utf8.encode u).length / 2 = 0
      rw [hu]
      rfl
    · intro hu hle
      -- a text that is not empty has a byte, and the number of its bytes is even
      have hbytes : 0 < bytes.length :=
        List.length_pos_iff.mpr fun hnil => hu (Utf8.encode_eq_nil_iff.mp hnil)
      have hpos : 1 ≤ n := by omega
      obtain ⟨t, hok, hlength⟩ := hfits hpos hle
      exact ⟨t, hok, hlength, hpos, hex_of_ofHex hok⟩

end Tag
end TagRental
