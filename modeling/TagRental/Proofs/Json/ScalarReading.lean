import TagRental.Json.Reader
import TagRental.Proofs.Text.Utf8RoundTrip

/-!
# Reading written strings and numbers

What `Json.chars` writes for a string and for an integer, followed through the reader byte by byte.

A string is written with the quote, the backslash and the controls escaped.  The reader collects
bytes and not characters, so the statement about one character (`run_escapeChar`) is that its
written form, escaped or not, adds the *bytes* of that character; that they are text again is asked
once, at the closing quote.

An integer is written with its decimal digits, and the reader collects them in a significand that
must stay within 64 bits.  The digits of `n` are those of `n / 10` and one more, so the significand
is at every moment a number that is no larger than the one that is written (`takes_toDigits`); the
limit is met only if that number is beyond it.
-/

namespace TagRental
namespace Json

/-- The place behind some more bytes. -/
def Place.past (p : Place) (bytes : Bytes) : Place := bytes.foldl Place.after p

@[simp] theorem Place.past_cons (p : Place) (b : UInt8) (bytes : Bytes) :
    p.past (b :: bytes) = (p.after b).past bytes := rfl

theorem Place.past_append (p : Place) (xs ys : Bytes) :
    p.past (xs ++ ys) = (p.past xs).past ys := List.foldl_append

namespace Reader

/-- Reading bytes that lead to one reader, and then bytes that lead from there to another. -/
theorem run_append_of_eq_ok {r r' r'' : Reader} {xs ys : Bytes} (hx : r.run xs = .ok r')
    (hy : r'.run ys = .ok r'') : r.run (xs ++ ys) = .ok r'' := by
  rw [run_append, hx]
  exact hy

theorem run_cons_of_eq_ok {r r' r'' : Reader} {b : UInt8} {bytes : Bytes} (hb : r.step b = .ok r')
    (h : r'.run bytes = .ok r'') : r.run (b :: bytes) = .ok r'' := by
  rw [run_cons, hb]
  exact h

/-- A byte is read by what is left of the machine when the number in front of it has ended. -/
theorem step_of_settle {r r' : Reader} {b : UInt8} (h : r.settle b = .ok r') :
    r.step b = (r'.advance b).consume b := by
  rw [step, h]
  rfl

end Reader

/-! ## Strings -/

/-- **How a character is written in a string**: with a backslash and one letter, by its number, or
as it is. -/
theorem escapeChar_cases (c : Char) :
    (∃ l : Char, escapeChar c = ['\\', l] ∧ l.toNat ≤ 0x7F ∧ l ≠ 'u' ∧ l ≠ '\n' ∧ c.toNat ≤ 0x7F ∧
        Quote.letter? (UInt8.ofNat l.toNat) = some (UInt8.ofNat c.toNat)) ∨
      (c.toNat < 0x20 ∧ escapeChar c =
        ['\\', 'u', '0', '0', Hex.digitChar (c.toNat / 16), Hex.digitChar (c.toNat % 16)]) ∨
      (c ≠ '"' ∧ c ≠ '\\' ∧ ¬c.toNat < 0x20 ∧ escapeChar c = [c]) := by
  by_cases hquote : c = '"'
  · exact Or.inl ⟨'"', by subst hquote; decide⟩
  by_cases hslash : c = '\\'
  · exact Or.inl ⟨'\\', by subst hslash; decide⟩
  by_cases hb : c = '\x08'
  · exact Or.inl ⟨'b', by subst hb; decide⟩
  by_cases ht : c = '\t'
  · exact Or.inl ⟨'t', by subst ht; decide⟩
  by_cases hn : c = '\n'
  · exact Or.inl ⟨'n', by subst hn; decide⟩
  by_cases hf : c = '\x0c'
  · exact Or.inl ⟨'f', by subst hf; decide⟩
  by_cases hr : c = '\r'
  · exact Or.inl ⟨'r', by subst hr; decide⟩
  unfold escapeChar
  rw [if_neg hquote, if_neg hslash, if_neg hb, if_neg ht, if_neg hn, if_neg hf, if_neg hr]
  by_cases hcontrol : c.toNat < 0x20
  · exact Or.inr (Or.inl ⟨hcontrol, if_pos hcontrol⟩)
  · exact Or.inr (Or.inr ⟨hquote, hslash, hcontrol, if_neg hcontrol⟩)

namespace Quote

/-- The bytes that stand for themselves in a string. -/
def IsPlain (b : UInt8) : Prop := b ≠ 0x22 ∧ b ≠ 0x5C ∧ ¬b < 0x20

theorem step_of_isPlain {b : UInt8} (h : IsPlain b) (isKey : Bool) (bytes : Bytes) :
    step ⟨isKey, bytes, .none⟩ b = .more ⟨isKey, b :: bytes, .none⟩ := by
  obtain ⟨hquote, hslash, hcontrol⟩ := h
  simp only [step, if_neg hquote, if_neg hslash, if_neg hcontrol]

/-- The bytes of a character that needs no escape stand for themselves. -/
theorem isPlain_of_mem_utf8EncodeChar {c : Char} (hquote : c ≠ '"') (hslash : c ≠ '\\')
    (hcontrol : ¬c.toNat < 0x20) {b : UInt8} (h : b ∈ String.utf8EncodeChar c) : IsPlain b := by
  have hne : ∀ d : Char, c ≠ d → c.toNat ≠ d.toNat := fun d hd he => hd (Char.toNat_inj.mp he)
  have hq : c.toNat ≠ 0x22 := hne '"' hquote
  have hs : c.toNat ≠ 0x5C := hne '\\' hslash
  have hb := Utf8.eq_or_high_of_mem_utf8EncodeChar h
  unfold IsPlain
  simp only [ne_eq, ← UInt8.toNat_inj, UInt8.lt_iff_toNat_lt, UInt8.reduceToNat]
  omega

end Quote

namespace Reader

variable {stack : List Frame} {place : Place}

theorem step_quote {q q' : Quote} {b : UInt8} (h : q.step b = .more q') :
    step ⟨.quote q, stack, place⟩ b = .ok ⟨.quote q', stack, place.after b⟩ := by
  have hstep : step ⟨.quote q, stack, place⟩ b =
      consume ⟨.quote q, stack, place.after b⟩ b := rfl
  simp only [hstep, consume, h]

theorem run_plain {bytes : Bytes} (h : ∀ b ∈ bytes, Quote.IsPlain b) (isKey : Bool) (done : Bytes) :
    run ⟨.quote ⟨isKey, done, .none⟩, stack, place⟩ bytes =
      .ok ⟨.quote ⟨isKey, bytes.reverse ++ done, .none⟩, stack, place.past bytes⟩ := by
  induction bytes generalizing done place with
  | nil => rfl
  | cons b bytes ih =>
    obtain ⟨hb, hbytes⟩ := List.forall_mem_cons.mp h
    refine run_cons_of_eq_ok (step_quote (Quote.step_of_isPlain hb isKey done)) ?_
    rw [ih hbytes, List.reverse_cons, List.append_assoc]
    rfl

/-- An escape of one letter. -/
theorem run_letter {l b : UInt8} (hl : l ≠ 0x75) (h : Quote.letter? l = some b) (isKey : Bool)
    (done : Bytes) :
    run ⟨.quote ⟨isKey, done, .none⟩, stack, place⟩ [0x5C, l] =
      .ok ⟨.quote ⟨isKey, b :: done, .none⟩, stack, place.past [0x5C, l]⟩ := by
  have hslash : Quote.step ⟨isKey, done, .none⟩ 0x5C = .more ⟨isKey, done, .slash⟩ := rfl
  have hletter : Quote.step ⟨isKey, done, .slash⟩ l = .more ⟨isKey, b :: done, .none⟩ := by
    simp only [Quote.step, if_neg hl, h]
    rfl
  exact run_cons_of_eq_ok (step_quote hslash) (run_cons_of_eq_ok (step_quote hletter) rfl)

/-- The byte of the digit that writes a value below sixteen. -/
theorem utf8EncodeChar_digitChar {n : Nat} (h : n < 16) :
    String.utf8EncodeChar (Hex.digitChar n) = [UInt8.ofNat (Hex.digitChar n).toNat] := by
  have hle : ∀ n < 16, (Hex.digitChar n).toNat ≤ 0x7F := by decide
  exact Utf8.utf8EncodeChar_of_le (hle n h)

/-- The escape of a control character by its number. -/
theorem run_control {n : Nat} (h : n < 0x20) (isKey : Bool) (done : Bytes) :
    let digits : Bytes := [0x30, 0x30, UInt8.ofNat (Hex.digitChar (n / 16)).toNat,
      UInt8.ofNat (Hex.digitChar (n % 16)).toNat]
    run ⟨.quote ⟨isKey, done, .none⟩, stack, place⟩ (0x5C :: 0x75 :: digits) =
      .ok ⟨.quote ⟨isKey, (String.utf8EncodeChar (Char.ofNat n)).reverse ++ done, .none⟩, stack,
        place.past (0x5C :: 0x75 :: digits)⟩ := by
  intro digits
  have hnumber : ∀ n < 0x20,
      Quote.hexNumber? [0x30, 0x30, UInt8.ofNat (Hex.digitChar (n / 16)).toNat,
        UInt8.ofNat (Hex.digitChar (n % 16)).toNat] = some n := by decide
  have hlast : Quote.step
      ⟨isKey, done, .digits [0x30, 0x30, UInt8.ofNat (Hex.digitChar (n / 16)).toNat] none⟩
      (UInt8.ofNat (Hex.digitChar (n % 16)).toNat) =
      .more ⟨isKey, (String.utf8EncodeChar (Char.ofNat n)).reverse ++ done, .none⟩ := by
    have hfour : ¬[(0x30 : UInt8), 0x30, UInt8.ofNat (Hex.digitChar (n / 16)).toNat,
        UInt8.ofNat (Hex.digitChar (n % 16)).toNat].length < 4 := Nat.lt_irrefl 4
    simp only [Quote.step, List.cons_append, List.nil_append, if_neg hfour, hnumber n h, Quote.unit]
    rw [if_neg (by omega), if_neg (by omega)]
    rfl
  exact run_cons_of_eq_ok (step_quote rfl) <| run_cons_of_eq_ok (step_quote rfl) <|
    run_cons_of_eq_ok (step_quote rfl) <| run_cons_of_eq_ok (step_quote rfl) <|
    run_cons_of_eq_ok (step_quote rfl) <| run_cons_of_eq_ok (step_quote hlast) rfl

/-- **One written character**, escaped or not, adds the bytes of that character. -/
theorem run_escapeChar (c : Char) (isKey : Bool) (done : Bytes) :
    run ⟨.quote ⟨isKey, done, .none⟩, stack, place⟩ (Utf8.encodeChars (escapeChar c)) =
      .ok ⟨.quote ⟨isKey, (String.utf8EncodeChar c).reverse ++ done, .none⟩, stack,
        place.past (Utf8.encodeChars (escapeChar c))⟩ := by
  rcases escapeChar_cases c with ⟨l, hc, hl, hu, -, hascii, hletter⟩ | ⟨hcontrol, hc⟩ |
    ⟨hquote, hslash, hcontrol, hc⟩
  · have hbytes : Utf8.encodeChars ['\\', l] = [0x5C, UInt8.ofNat l.toNat] := by
      rw [Utf8.encodeChars_cons, Utf8.encodeChars_cons, Utf8.utf8EncodeChar_of_le hl]
      rfl
    have hne : UInt8.ofNat l.toNat ≠ 0x75 := by
      rw [ne_eq, ← UInt8.toNat_inj, Utf8.toNat_ofNat_of_lt (Nat.lt_of_le_of_lt hl (by decide))]
      exact fun h => hu (Char.toNat_inj.mp h)
    rw [hc, hbytes, Utf8.utf8EncodeChar_of_le hascii]
    exact run_letter hne hletter isKey done
  · have hbytes : Utf8.encodeChars
        ['\\', 'u', '0', '0', Hex.digitChar (c.toNat / 16), Hex.digitChar (c.toNat % 16)] =
        0x5C :: 0x75 :: [0x30, 0x30, UInt8.ofNat (Hex.digitChar (c.toNat / 16)).toNat,
          UInt8.ofNat (Hex.digitChar (c.toNat % 16)).toNat] := by
      simp only [Utf8.encodeChars_cons, utf8EncodeChar_digitChar (show c.toNat / 16 < 16 by omega),
        utf8EncodeChar_digitChar (show c.toNat % 16 < 16 by omega)]
      rfl
    have hrun : run ⟨.quote ⟨isKey, done, .none⟩, stack, place⟩ _ = _ :=
      run_control hcontrol isKey done
    rw [Char.ofNat_toNat] at hrun
    rw [hc, hbytes]
    exact hrun
  · have hbytes : Utf8.encodeChars [c] = String.utf8EncodeChar c := List.append_nil _
    rw [hc, hbytes]
    exact run_plain (fun b => Quote.isPlain_of_mem_utf8EncodeChar hquote hslash hcontrol) isKey done

theorem run_escapeChars (cs : List Char) (isKey : Bool) (done : Bytes) :
    run ⟨.quote ⟨isKey, done, .none⟩, stack, place⟩ (Utf8.encodeChars (cs.flatMap escapeChar)) =
      .ok ⟨.quote ⟨isKey, (Utf8.encodeChars cs).reverse ++ done, .none⟩, stack,
        place.past (Utf8.encodeChars (cs.flatMap escapeChar))⟩ := by
  induction cs generalizing done place with
  | nil => rfl
  | cons c cs ih =>
    rw [List.flatMap_cons, Utf8.encodeChars_append, Place.past_append]
    refine run_append_of_eq_ok (run_escapeChar c isKey done) ?_
    rw [ih, Utf8.encodeChars_cons, List.reverse_append, List.append_assoc]

/-- **A written string**, from the quote that opens it to the one that closes it. -/
theorem run_quoted (s : String) (isKey : Bool) :
    run ⟨.quote (.start isKey), stack, place⟩
        (Utf8.encodeChars (s.toList.flatMap escapeChar) ++ [0x22]) =
      .ok ⟨if isKey then .colon s else .complete (.text s), stack,
        place.past (Utf8.encodeChars (s.toList.flatMap escapeChar) ++ [0x22])⟩ := by
  have hclose : ∀ place', step ⟨.quote ⟨isKey, (Utf8.encodeChars s.toList).reverse ++ [], .none⟩,
      stack, place'⟩ 0x22 =
      .ok ⟨if isKey then .colon s else .complete (.text s), stack, place'.after 0x22⟩ := by
    intro place'
    have hstep : step ⟨.quote ⟨isKey, (Utf8.encodeChars s.toList).reverse ++ [], .none⟩, stack,
        place'⟩ 0x22 =
        endQuote ⟨.quote ⟨isKey, (Utf8.encodeChars s.toList).reverse ++ [], .none⟩, stack,
          place'.after 0x22⟩ ⟨isKey, (Utf8.encodeChars s.toList).reverse ++ [], .none⟩ := rfl
    rw [hstep]
    simp only [endQuote, List.append_nil, List.reverse_reverse, Utf8.decode_encodeChars,
      String.ofList_toList]
  rw [Place.past_append]
  exact run_append_of_eq_ok (run_escapeChars s.toList isKey [])
    (run_cons_of_eq_ok (hclose _) rfl)

end Reader

/-! ## Integers -/

namespace Numeral

/-- The number in progress after more bytes, if it takes all of them. -/
def takes (n : Numeral) : Bytes → Option Numeral
  | [] => some n
  | b :: bytes =>
    match n.step b with
    | .more n' => n'.takes bytes
    | _ => none

theorem takes_append {n n' : Numeral} {xs : Bytes} (h : n.takes xs = some n') (ys : Bytes) :
    n.takes (xs ++ ys) = n'.takes ys := by
  induction xs generalizing n with
  | nil => cases h; rfl
  | cons b xs ih =>
    simp only [takes, List.cons_append] at h ⊢
    cases hs : n.step b with
    | more m => rw [hs] at h; exact ih h
    | ends => rw [hs] at h; cases h
    | fault cause => rw [hs] at h; cases h

/-- An integer that was read: its sign and its digits. -/
def ofNat (negative : Bool) (n : Nat) : Numeral :=
  ⟨if n = 0 then .zero else .whole, negative, n, 0, false, 0⟩

/-- The byte of a decimal digit is read as its value. -/
theorem digit?_digitChar {d : Nat} (h : d < 10) :
    ∃ b, String.utf8EncodeChar d.digitChar = [b] ∧ digit? b = some d := by
  have hall : ∀ d < 10, d.digitChar.toNat ≤ 0x7F ∧
      digit? (UInt8.ofNat d.digitChar.toNat) = some d := by decide
  obtain ⟨hle, hd⟩ := hall d h
  exact ⟨_, Utf8.utf8EncodeChar_of_le hle, hd⟩

theorem takes_digitChar_signed (negative : Bool) {d : Nat} (h : d < 10) :
    (signed negative).takes (String.utf8EncodeChar d.digitChar) = some (ofNat negative d) := by
  obtain ⟨b, hb, hd⟩ := digit?_digitChar h
  rw [hb]
  cases d with
  | zero => simp only [takes, step, signed, hd]; rfl
  | succ d => simp only [takes, step, signed, hd]; rfl

theorem takes_digitChar_ofNat (negative : Bool) {n d : Nat} (hn : n ≠ 0) (hd : d < 10)
    (h : n * 10 + d ≤ largest) :
    (ofNat negative n).takes (String.utf8EncodeChar d.digitChar) =
      some (ofNat negative (n * 10 + d)) := by
  obtain ⟨b, hb, hdigit⟩ := digit?_digitChar hd
  have hne : n * 10 + d ≠ 0 := by omega
  rw [hb]
  simp only [takes, step, ofNat, if_neg hn, hdigit, if_pos h, if_neg hne]

/-- **The digits of a number** that fits are read as that number. -/
theorem takes_toDigits (negative : Bool) {n : Nat} (h : n ≤ largest) :
    (signed negative).takes (Utf8.encodeChars (Nat.toDigits 10 n)) = some (ofNat negative n) := by
  induction n using Nat.strongRecOn with
  | ind n ih =>
    by_cases hn : n < 10
    · rw [Nat.toDigits_of_lt_base hn, Utf8.encodeChars_cons, Utf8.encodeChars_nil, List.append_nil]
      exact takes_digitChar_signed negative hn
    · have hdiv : n / 10 < n := Nat.div_lt_self (by omega) (by decide)
      have hsplit : n / 10 * 10 + n % 10 = n := Nat.div_add_mod' n 10
      have hfront := ih (n / 10) hdiv (by omega)
      have hlast := takes_digitChar_ofNat negative (n := n / 10) (d := n % 10) (by omega)
        (Nat.mod_lt n (by decide)) (by omega)
      rw [hsplit] at hlast
      rw [Nat.toDigits_of_base_le (by decide) (Nat.le_of_not_lt hn), Utf8.encodeChars_append,
        takes_append hfront, Utf8.encodeChars_cons, Utf8.encodeChars_nil, List.append_nil]
      exact hlast

/-- A number that is not negative is read as an integer. -/
theorem value_ofNat_false (n : Nat) : (ofNat false n).value = .ok (.int n) := by
  unfold ofNat
  by_cases hn : n = 0
  · rw [if_pos hn]; rfl
  · rw [if_neg hn]; rfl

/-- A negative number that fits is read as an integer. -/
theorem value_ofNat_true {n : Nat} (hpos : 0 < n) (h : n ≤ largestNegative) :
    (ofNat true n).value = .ok (.int (-n)) := by
  have hn : n ≠ 0 := by omega
  simp only [ofNat, if_neg hn, value, Bool.not_true, Bool.false_eq_true, if_false, hpos, h,
    and_self, if_true]

/-- What can follow a value inside a list or an object. -/
def IsEnd (b : UInt8) : Prop := b = 0x2C ∨ b = 0x5D ∨ b = 0x7D

/-- A number that has a value ends where a list or an object goes on. -/
theorem step_of_isEnd {n : Numeral} {v : Json} (hv : n.value = .ok v) {b : UInt8} (hb : IsEnd b) :
    n.step b = .ends := by
  obtain ⟨stage, negative, significand, scale, exponentNegative, exponent⟩ := n
  cases stage with
  | minus | point | mark | sign => cases hv
  | zero | whole | wholeFull | fraction | fractionFull | exponent | vanishing =>
    rcases hb with rfl | rfl | rfl <;> rfl

end Numeral

namespace Reader

theorem run_number {stack : List Frame} {place : Place} {n n' : Numeral} {bytes : Bytes}
    (h : n.takes bytes = some n') :
    run ⟨.number n, stack, place⟩ bytes = .ok ⟨.number n', stack, place.past bytes⟩ := by
  induction bytes generalizing n place with
  | nil => cases h; rfl
  | cons b bytes ih =>
    simp only [Numeral.takes] at h
    cases hs : n.step b with
    | more m =>
      rw [hs] at h
      have hstep : step ⟨.number n, stack, place⟩ b = .ok ⟨.number m, stack, place.after b⟩ := by
        have hsettle : settle ⟨.number n, stack, place⟩ b = .ok ⟨.number n, stack, place⟩ := by
          simp only [settle, hs]
        rw [step_of_settle hsettle]
        simp only [advance, consume, hs]
      exact run_cons_of_eq_ok hstep (ih h)
    | ends => rw [hs] at h; cases h
    | fault cause => rw [hs] at h; cases h

end Reader
end Json
end TagRental
