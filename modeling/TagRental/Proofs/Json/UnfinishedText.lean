import TagRental.Proofs.Json.ObjectText

/-!
# An object behind an unfinished text

Somebody begins to write an object, stops anywhere, and another object is written right behind what
is there.  The two together are never a JSON text, whatever has been written of the first one
(`not_parse_behind`).

The reader that has seen the opening brace is within that object, or the object is complete; there
is no third way (`Begun`).  Now comes the other opening brace.

* Where a value is due, an object begins, and at its end the reader is back where it was: still
  within the first one.
* Inside a string, the brace is a character, and the quote behind it ends the string; the letter
  behind the quote cannot follow a string.
* In the middle of an escape, the brace is no digit, so the escape is wrong, also if this is noticed
  only at the last of its four digits (`Spoiled`).
* Everywhere else a brace cannot stand.
-/

namespace TagRental
namespace Json

/-- A name that is being read goes on without a brace. -/
def Phase.BraceFree : Phase → Prop
  | .name due _ => 0x7B ∉ due
  | _ => True

/-- A brace does not belong to a number. -/
theorem Numeral.step_brace (n : Numeral) :
    n.step 0x7B = .ends ∨ n.step 0x7B = .fault .badNumber := by
  obtain ⟨stage, negative, significand, scale, exponentNegative, exponent⟩ := n
  cases stage with
  | minus | point | mark | sign => exact Or.inr rfl
  | zero | whole | wholeFull | fraction | fractionFull | exponent | vanishing => exact Or.inl rfl

/-- A small letter. -/
def IsLetter (b : UInt8) : Prop := 0x61 ≤ b ∧ b ≤ 0x7A

theorem IsLetter.ne {b c : UInt8} (h : IsLetter b) (hc : c < 0x61 ∨ 0x7A < c) : b ≠ c := by
  rintro rfl
  rcases hc with hlow | hhigh
  · exact UInt8.not_le.mpr hlow h.1
  · exact UInt8.not_le.mpr hhigh h.2

theorem IsLetter.not_space {b : UInt8} (h : IsLetter b) : isSpace b = false := by
  have hne (c : UInt8) (hc : c < 0x61 ∨ 0x7A < c) : (b == c) = false :=
    beq_eq_false_iff_ne.mpr (h.ne hc)
  rw [isSpace, hne 0x20 (by decide), hne 0x09 (by decide), hne 0x0A (by decide),
    hne 0x0D (by decide)]
  rfl

namespace Reader

/-! ## What has been begun -/

/-- A list or an object has been begun: the reader is within it, or it is complete. -/
structure Begun (r : Reader) : Prop where
  phase : r.phase.BraceFree
  outer : r.stack = [] → r.phase.IsComplete

/-- One turn does not lead out of what has been begun. -/
theorem begun_of_turn {p p' : Phase} {stack stack' : List Frame} (h : Turn p stack p' stack')
    (hp : p.BraceFree) (houter : stack = [] → p.IsComplete) :
    p'.BraceFree ∧ (stack' = [] → p'.IsComplete) := by
  cases h with
  | stay => exact ⟨hp, houter⟩
  | beginNull hbegin | beginTrue hbegin | beginFalse hbegin =>
    exact ⟨by simp [Phase.BraceFree], fun h => absurd (houter h) hbegin⟩
  | number hbegin | quote hbegin => exact ⟨trivial, fun h => absurd (houter h) hbegin⟩
  | spell => exact ⟨fun h => hp (List.mem_cons_of_mem _ h), houter⟩
  | key => exact ⟨trivial, houter⟩
  | spelled | text | closeEmptyList | closeEmptyObject | closeList | closeObject =>
    exact ⟨trivial, fun _ => trivial⟩
  | colon | openList | openObject | nextItem | nextMember =>
    exact ⟨trivial, fun h => absurd h (List.cons_ne_nil _ _)⟩

theorem Begun.step {r t : Reader} (h : r.Begun) {b : UInt8} (ht : r.step b = .ok t) : t.Begun := by
  obtain ⟨p', hsettled, hturn⟩ := turn_of_step ht
  obtain ⟨p, stack, place⟩ := r
  have hp : p'.BraceFree ∧ (stack = [] → p'.IsComplete) := by
    cases hsettled with
    | same => exact ⟨h.phase, h.outer⟩
    | number => exact ⟨trivial, fun _ => trivial⟩
  obtain ⟨hphase, houter⟩ := begun_of_turn hturn hp.1 hp.2
  exact ⟨hphase, houter⟩

theorem Begun.run {r t : Reader} (h : r.Begun) {bytes : Bytes} (ht : r.run bytes = .ok t) :
    t.Begun :=
  keeps_run (fun _ _ _ h hs => h.step hs) h ht

/-! ## An escape that cannot be completed -/

theorem hexNumber?_of_brace {digits : Bytes} (h : 0x7B ∈ digits) :
    Quote.hexNumber? digits = none := by
  obtain ⟨before, after, rfl⟩ := List.append_of_mem h
  have hnone : ∀ (bytes : Bytes), bytes.foldl
      (fun n b => n.bind fun n => (Quote.hexValue? b).map fun d => n * 16 + d) none = none := by
    intro bytes
    induction bytes with
    | nil => rfl
    | cons b bytes ih => exact ih
  have hbrace : Quote.hexValue? 0x7B = none := by decide
  rw [Quote.hexNumber?, List.foldl_append, List.foldl_cons, hbrace]
  cases List.foldl _ (some 0) before with
  | none => exact hnone after
  | some n => exact hnone after

/-- A string is being read, and a brace stands among the digits of an escape. -/
def Spoiled (r : Reader) : Prop :=
  ∃ q done high, r.phase = .quote q ∧ q.escape = .digits done high ∧ 0x7B ∈ done

/-- A byte is put to the digits of an escape, which has a brace among them, or the escape is
wrong. -/
theorem spoiled_of_step {q : Quote} {done : Bytes} {high : Option Nat} {stack : List Frame}
    {place : Place} {b : UInt8} (hescape : q.escape = .digits done high)
    (hbrace : 0x7B ∈ done ++ [b]) {t : Reader}
    (ht : step ⟨.quote q, stack, place⟩ b = .ok t) : t.Spoiled := by
  rw [step_of_settle rfl] at ht
  simp only [advance, consume, Quote.step, hescape, hexNumber?_of_brace hbrace] at ht
  split at ht
  · next q' hq =>
    split at hq
    · cases hq
      cases ht
      exact ⟨_, _, _, rfl, rfl, hbrace⟩
    · cases hq
  · next hq => split at hq <;> cases hq
  · cases ht

theorem Spoiled.step {r t : Reader} (h : r.Spoiled) {b : UInt8} (ht : r.step b = .ok t) :
    t.Spoiled := by
  obtain ⟨p, stack, place⟩ := r
  obtain ⟨q, done, high, hphase, hescape, hbrace⟩ := h
  dsimp only at hphase
  subst hphase
  exact spoiled_of_step hescape (List.mem_append_left _ hbrace) ht

theorem Spoiled.run {r t : Reader} (h : r.Spoiled) {bytes : Bytes} (ht : r.run bytes = .ok t) :
    t.Spoiled :=
  keeps_run (fun _ _ _ h hs => h.step hs) h ht

theorem Spoiled.finish {r : Reader} (h : r.Spoiled) (v : Json) : r.finish ≠ .ok v := by
  intro hv
  obtain ⟨q, done, high, hphase, -, -⟩ := h
  obtain ⟨-, hholds⟩ := holds_of_finish hv
  rw [hphase] at hholds
  cases hholds

/-! ## The second object -/

section Behind

variable {p : Phase} {stack : List Frame} {place : Place}

/-- Behind a complete value no brace can stand. -/
theorem behind_brace (v : Json) (t : Reader) : behind ⟨p, stack, place⟩ v 0x7B ≠ .ok t := by
  intro h
  rcases stack with _ | ⟨_ | _ | _, stack⟩ <;> cases h

/-- Where a brace is taken, a value is due or a string is being read. -/
theorem phase_of_step_brace (hp : p.BraceFree) {t : Reader}
    (h : step ⟨p, stack, place⟩ 0x7B = .ok t) : p.AwaitsValue ∨ ∃ q, p = .quote q := by
  cases p with
  | value => exact Or.inl .value
  | firstItem => exact Or.inl .firstItem
  | nextItem => exact Or.inl .nextItem
  | quote q => exact Or.inr ⟨q, rfl⟩
  | firstKey => rcases stack with _ | ⟨_ | _ | _, stack⟩ <;> cases h
  | nextKey => cases h
  | colon key => cases h
  | name due v =>
    cases due with
    | nil => cases h
    | cons c due =>
      have hc : (0x7B : UInt8) ≠ c := fun hc => hp (hc ▸ List.mem_cons_self)
      rw [step_of_settle rfl] at h
      simp only [advance, consume, if_neg hc] at h
      cases h
  | number n =>
    obtain ⟨s, hs, ht⟩ := bind_eq_ok.mp h
    rcases n.step_brace with hn | hn
    · simp only [settle, hn] at hs
      split at hs
      · next v _ =>
        cases hs
        exact absurd ht (behind_brace v t)
      · cases hs
    · simp only [settle, hn] at hs
      cases hs
      simp only [advance, consume, hn] at ht
      cases ht
  | complete v => exact absurd h (behind_brace v t)

/-- Behind a complete value no letter can stand. -/
theorem behind_letter {c : UInt8} (hc : IsLetter c) (v : Json) (t : Reader) :
    behind ⟨p, stack, place⟩ v c ≠ .ok t := by
  intro h
  have hcomma : c ≠ 0x2C := hc.ne (by decide)
  have hlist : c ≠ 0x5D := hc.ne (by decide)
  have hobject : c ≠ 0x7D := hc.ne (by decide)
  rcases stack with _ | ⟨_ | _ | _, stack⟩
  · cases h
  · simp only [behind, if_neg hcomma, if_neg hlist] at h
    cases h
  · cases h
  · simp only [behind, if_neg hcomma, if_neg hobject] at h
    cases h

/-- Behind a string that ends, whether it is a key or a value, no letter can stand. -/
theorem step_letter_of_endQuote {q : Quote} {s t : Reader}
    (hs : endQuote ⟨p, stack, place⟩ q = .ok s) {c : UInt8} (hc : IsLetter c) :
    s.step c ≠ .ok t := by
  intro ht
  unfold endQuote at hs
  dsimp only at hs
  split at hs
  · next text _ =>
    cases hs
    cases hkey : q.isKey with
    | true =>
      have hstep : step ⟨.colon text, stack, place⟩ c = .ok t := by
        rwa [hkey, if_pos rfl] at ht
      have hcolon : c ≠ 0x3A := hc.ne (by decide)
      rw [step_of_settle rfl] at hstep
      simp only [advance, consume, hc.not_space, Bool.false_eq_true, if_false,
        if_neg hcolon] at hstep
      cases hstep
    | false =>
      have hstep : step ⟨.complete (.text text), stack, place⟩ c = .ok t := by
        rwa [hkey, if_neg Bool.false_ne_true] at ht
      rw [step_of_settle rfl] at hstep
      simp only [advance, consume, hc.not_space, Bool.false_eq_true, if_false] at hstep
      exact behind_letter hc _ t hstep
  · cases hs

/-- Within a string, an object does not get past its first letter, or it spoils an escape. -/
theorem finish_run_of_quote {q : Quote} {rest : Bytes} {c : UInt8} (hc : IsLetter c) {t : Reader}
    (ht : run ⟨.quote q, stack, place⟩ (0x7B :: 0x22 :: c :: rest) = .ok t) (w : Json) :
    t.finish ≠ .ok w := by
  obtain ⟨isKey, bytes, escape⟩ := q
  obtain ⟨s, hs, hrest⟩ := bind_eq_ok.mp ht
  cases escape with
  | none =>
    cases hs
    obtain ⟨ended, hended, hbehind⟩ := bind_eq_ok.mp hrest
    obtain ⟨behind, hletter, -⟩ := bind_eq_ok.mp hbehind
    exact absurd hletter (step_letter_of_endQuote hended hc)
  | slash => cases hs
  | digits done high =>
    have hspoiled : s.Spoiled := spoiled_of_step rfl (List.mem_append_right _ List.mem_cons_self) hs
    exact (hspoiled.run hrest).finish w
  | partnerSlash high => cases hs
  | partnerMark high => cases hs

/-- **An object that begins within another one** does not end it. -/
theorem finish_run_of_begun {r : Reader} (h : r.Begun) {text rest : Bytes} {c : UInt8} {v : Json}
    (hv : parse text = .ok v) (htext : text = 0x7B :: 0x22 :: c :: rest) (hc : IsLetter c)
    {t : Reader} (ht : r.run text = .ok t) (w : Json) : t.finish ≠ .ok w := by
  obtain ⟨p, stack, place⟩ := r
  obtain ⟨s, hs, hrest⟩ : ∃ s, step ⟨p, stack, place⟩ 0x7B = .ok s ∧
      s.run (0x22 :: c :: rest) = .ok t := by
    rw [htext] at ht
    exact bind_eq_ok.mp ht
  rcases phase_of_step_brace h.phase hs with hp | ⟨q, rfl⟩
  · have hstack : stack ≠ [] := by
      rintro rfl
      have hcomplete := h.outer rfl
      cases hp <;> exact hcomplete
    have hvalue : run ⟨.value, stack, place⟩ text = .ok t := by
      rw [step_of_awaitsValue hp rfl (by decide)] at hs
      have hopen : step ⟨.value, stack, place⟩ 0x7B = .ok s := by
        rw [step_of_awaitsValue .value rfl (by decide)]
        exact hs
      rw [htext]
      exact run_cons_of_eq_ok hopen hrest
    obtain ⟨hback, -⟩ := holds_of_run hv hvalue
    intro hfinish
    exact hstack (hback ▸ (holds_of_finish hfinish).1)
  · rw [htext] at ht
    exact finish_run_of_quote hc ht w

end Behind

end Reader

/-- **An object behind an unfinished text** does not make it a text. -/
theorem not_parse_behind {text rest : Bytes} {c : UInt8} {v : Json} (hv : parse text = .ok v)
    (htext : text = 0x7B :: 0x22 :: c :: rest) (hc : IsLetter c) (before : Bytes) :
    ∃ f, parse (0x7B :: before ++ text) = .error f := by
  cases hparse : parse (0x7B :: before ++ text) with
  | error f => exact ⟨f, rfl⟩
  | ok w =>
    obtain ⟨t, ht, hfinish⟩ := bind_eq_ok.mp hparse
    rw [Reader.run_append] at ht
    obtain ⟨s, hs, ht⟩ := bind_eq_ok.mp ht
    obtain ⟨r, hr, hs⟩ := bind_eq_ok.mp hs
    have hbegun : r.Begun := by
      cases hr
      exact ⟨trivial, fun h => absurd h (List.cons_ne_nil _ _)⟩
    exact absurd hfinish (Reader.finish_run_of_begun (hbegun.run hs) hv htext hc ht w)

end Json
end TagRental
