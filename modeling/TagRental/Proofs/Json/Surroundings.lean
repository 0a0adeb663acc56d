import TagRental.Proofs.Json.ObjectText

/-!
# White space around a text

White space in front of a JSON text or behind it is not part of the value, and one would expect that
it makes no difference at all.  It makes none for what is *read*: with white space around it, a text
is read as the same value, and a text that is not JSON does not become so (`parse_spaced`).

In front this is because the reader stays where it was, and does nothing by where it stands
(`unplaced_run`): only the places that are reported move.

Behind it is because white space never brings a text to an end that had none.  It depends on where
the text breaks off.

* Between two parts of a value the reader stays where it was, so it still misses what it missed
  before.
* A number that could end there ends there, and its value is judged as it would be at the end of the
  text.
* Within a *token* --- a string, a name, a number that needs one more digit --- the white space is
  read as part of the token.  It cannot complete it, but it may be wrong there in a way of its own:
  a text that ends within a string ends too early, and a text that goes on with a line feed holds a
  control character.  So here, and only here, the words of the fault may change
  (`verdict_parse_spaced`).
-/

namespace TagRental
namespace Json

theorem isSpace_iff {b : UInt8} :
    isSpace b = true ↔ b = 0x20 ∨ b = 0x09 ∨ b = 0x0A ∨ b = 0x0D := by
  simp only [isSpace, Bool.or_eq_true, beq_iff_eq, or_assoc]

/-- Nothing but white space. -/
abbrev Blank (bytes : Bytes) : Prop := ∀ b ∈ bytes, isSpace b = true

/-! ## Results without the place -/

/-- A view of a result, or the cause of a fault, wherever it was found. -/
def unplaced {α β : Type} (view : α → β) (x : Except SyntaxFault α) : Except Cause β :=
  (x.map view).mapError SyntaxFault.cause

/-- The value of a text, or why it has none. -/
abbrev verdict (reading : Except SyntaxFault Json) : Except Cause Json := unplaced id reading

theorem verdict_eq_ok_iff {reading : Except SyntaxFault Json} {v : Json} :
    verdict reading = .ok v ↔ reading = .ok v := by
  cases reading with
  | error f => exact ⟨fun h => (nomatch h), fun h => (nomatch h)⟩
  | ok w => exact ⟨fun h => congrArg _ (Except.ok.inj h), fun h => congrArg verdict h⟩

namespace Reader

/-- What the reader does is decided by what is being read and by what is open. -/
def content (r : Reader) : Phase × List Frame := (r.phase, r.stack)

/-- Steps that come to the same are continued to the same, by what does not ask for the place. -/
theorem unplaced_bind {α β : Type} {view : α → β} {s s' : Step}
    {k k' : Reader → Except SyntaxFault α} (h : unplaced content s = unplaced content s')
    (hk : ∀ p stack place place',
      unplaced view (k ⟨p, stack, place⟩) = unplaced view (k' ⟨p, stack, place'⟩)) :
    unplaced view (s >>= k) = unplaced view (s' >>= k') := by
  cases s with
  | error f =>
    cases s' with
    | error f' => exact congrArg Except.error (Except.error.inj h)
    | ok r' => cases h
  | ok r =>
    cases s' with
    | error f' => cases h
    | ok r' =>
      obtain ⟨p, stack, place⟩ := r
      obtain ⟨p', stack', place'⟩ := r'
      obtain ⟨rfl, rfl⟩ := Prod.mk.inj (Except.ok.inj h)
      exact hk p stack place place'

section Byte

variable {p : Phase} {stack : List Frame} (place place' : Place) (b : UInt8)

theorem unplaced_opening (frame : Frame) (phase : Phase) :
    unplaced content (opening ⟨p, stack, place⟩ frame phase) =
      unplaced content (opening ⟨p, stack, place'⟩ frame phase) := by
  unfold opening
  dsimp only
  split <;> rfl

theorem unplaced_beginValue :
    unplaced content (beginValue ⟨p, stack, place⟩ b) =
      unplaced content (beginValue ⟨p, stack, place'⟩ b) := by
  unfold beginValue
  repeat' split
  all_goals first | rfl | exact unplaced_opening place place' _ _

theorem unplaced_beginKey :
    unplaced content (beginKey ⟨p, stack, place⟩ b) =
      unplaced content (beginKey ⟨p, stack, place'⟩ b) := by
  unfold beginKey
  split <;> rfl

theorem unplaced_behind (v : Json) :
    unplaced content (behind ⟨p, stack, place⟩ v b) =
      unplaced content (behind ⟨p, stack, place'⟩ v b) := by
  unfold behind
  dsimp only
  repeat' split
  all_goals rfl

theorem unplaced_endQuote (q : Quote) :
    unplaced content (endQuote ⟨p, stack, place⟩ q) =
      unplaced content (endQuote ⟨p, stack, place'⟩ q) := by
  unfold endQuote
  dsimp only
  split <;> rfl

theorem unplaced_settle :
    unplaced content (settle ⟨p, stack, place⟩ b) =
      unplaced content (settle ⟨p, stack, place'⟩ b) := by
  unfold settle
  dsimp only
  repeat' split
  all_goals rfl

theorem unplaced_consume :
    unplaced content (consume ⟨p, stack, place⟩ b) =
      unplaced content (consume ⟨p, stack, place'⟩ b) := by
  have hvalue : unplaced content (beginValue ⟨p, stack, place⟩ b) =
      unplaced content (beginValue ⟨p, stack, place'⟩ b) := unplaced_beginValue place place' b
  have hkey : unplaced content (beginKey ⟨p, stack, place⟩ b) =
      unplaced content (beginKey ⟨p, stack, place'⟩ b) := unplaced_beginKey place place' b
  unfold consume
  cases p with
  | value | firstItem | nextItem | firstKey | nextKey | colon | number =>
    dsimp only
    repeat' split
    all_goals first | rfl | exact hvalue | exact hkey
  | name due v =>
    cases due with
    | nil => rfl
    | cons c due =>
      dsimp only
      split <;> rfl
  | quote q =>
    dsimp only
    split
    · rfl
    · exact unplaced_endQuote place place' q
    · rfl
  | complete v =>
    dsimp only
    split
    · rfl
    · exact unplaced_behind place place' b v

theorem unplaced_step :
    unplaced content (step ⟨p, stack, place⟩ b) = unplaced content (step ⟨p, stack, place'⟩ b) :=
  unplaced_bind (unplaced_settle place place' b) fun _ _ place place' =>
    unplaced_consume (place.after b) (place'.after b) b

end Byte

section Text

variable (p : Phase) (stack : List Frame) (place place' : Place)

/-- **A text is read alike wherever the reader stands.** -/
theorem unplaced_run (bytes : Bytes) :
    unplaced content (run ⟨p, stack, place⟩ bytes) =
      unplaced content (run ⟨p, stack, place'⟩ bytes) := by
  induction bytes generalizing p stack place place' with
  | nil => rfl
  | cons b bytes ih =>
    rw [run_cons, run_cons]
    exact unplaced_bind (unplaced_step place place' b) ih

theorem verdict_finish :
    verdict (finish ⟨p, stack, place⟩) = verdict (finish ⟨p, stack, place'⟩) := by
  unfold finish
  dsimp only
  repeat' split
  all_goals rfl

end Text

/-! ## White space behind -/

end Reader

/-- A number that cannot end here. -/
def Numeral.needsDigit (n : Numeral) : Bool :=
  match n.stage with
  | .minus | .point | .mark | .sign => true
  | _ => false

/-- A string, a name or a number has been begun and cannot end here. -/
def Phase.InToken : Phase → Prop
  | .name _ _ | .quote _ => True
  | .number n => n.needsDigit = true
  | _ => False

/-- A name that is being read goes on without white space. -/
def Phase.SpaceFree : Phase → Prop
  | .name due _ => ∀ b ∈ due, isSpace b = false
  | _ => True

section Space

variable {b : UInt8} (hb : isSpace b = true)

include hb

/-- White space ends a number, unless the number needs another digit. -/
theorem Numeral.step_space (n : Numeral) :
    n.step b = if n.needsDigit then .fault .badNumber else .ends := by
  obtain ⟨stage, negative, significand, scale, exponentNegative, exponent⟩ := n
  rw [isSpace_iff] at hb
  cases stage <;> rcases hb with rfl | rfl | rfl | rfl <;> rfl

/-- White space does not end a string. -/
theorem Quote.step_space (q : Quote) : q.step b ≠ .closes := by
  have hquote : b ≠ 0x22 := by
    rw [isSpace_iff] at hb
    rcases hb with rfl | rfl | rfl | rfl <;> decide
  obtain ⟨isKey, bytes, escape⟩ := q
  intro h
  cases escape with
  | none | slash | partnerSlash | partnerMark =>
    simp only [step, if_neg hquote] at h
    repeat' split at h
    all_goals cases h
  | digits done high =>
    simp only [step, unit] at h
    repeat' split at h
    all_goals cases h

end Space

namespace Reader

section Behind

variable {p : Phase} {stack : List Frame} {place : Place} {b : UInt8} (hb : isSpace b = true)

include hb

/-- Outside of a token, white space changes nothing about how the text would end. -/
theorem step_space_outside (hp : ¬p.InToken) :
    (∃ f, step ⟨p, stack, place⟩ b = .error f ∧
        verdict (finish ⟨p, stack, place⟩) = .error f.cause) ∨
      ∃ t, step ⟨p, stack, place⟩ b = .ok t ∧ ¬t.phase.InToken ∧
        verdict t.finish = verdict (finish ⟨p, stack, place⟩) := by
  have hstay : step ⟨p, stack, place⟩ b = .ok ⟨p, stack, place.after b⟩ →
      ∃ t, step ⟨p, stack, place⟩ b = .ok t ∧ ¬t.phase.InToken ∧
        verdict t.finish = verdict (finish ⟨p, stack, place⟩) :=
    fun hstep => ⟨_, hstep, hp, verdict_finish p stack _ _⟩
  cases p with
  | value | firstItem | nextItem | firstKey | nextKey | colon | complete =>
    refine Or.inr (hstay ?_)
    rw [step_of_settle rfl]
    exact if_pos hb
  | name due v => exact absurd trivial hp
  | quote q => exact absurd trivial hp
  | number n =>
    have hends : n.step b = .ends := by
      rw [n.step_space hb]
      exact if_neg hp
    cases hvalue : n.value with
    | error cause =>
      have hsettle : settle ⟨.number n, stack, place⟩ b = .error ⟨cause, place⟩ := by
        simp only [settle, hends, hvalue, fault]
      refine Or.inl ⟨⟨cause, place⟩, ?_, ?_⟩
      · rw [step, hsettle]
        rfl
      · simp only [finish, hvalue]
        rfl
    | ok v =>
      have hsettle : settle ⟨.number n, stack, place⟩ b = .ok ⟨.complete v, stack, place⟩ := by
        simp only [settle, hends, hvalue]
      refine Or.inr ⟨⟨.complete v, stack, place.after b⟩, ?_, id, ?_⟩
      · rw [step_of_settle hsettle]
        exact if_pos hb
      · simp only [finish, hvalue]
        split <;> rfl

/-- Within a token, white space is wrong, or the token goes on. -/
theorem step_space_within (hp : p.InToken) (hfree : p.SpaceFree) {t : Reader}
    (ht : step ⟨p, stack, place⟩ b = .ok t) : t.phase.InToken ∧ t.phase.SpaceFree := by
  cases p with
  | value | firstItem | nextItem | firstKey | nextKey | colon | complete => exact False.elim hp
  | name due v =>
    rw [step_of_settle rfl] at ht
    cases due with
    | nil => cases ht
    | cons c due =>
      have hc : b ≠ c := by
        rintro rfl
        exact Bool.noConfusion (hb.symm.trans (hfree b List.mem_cons_self))
      simp only [advance, consume, if_neg hc] at ht
      cases ht
  | number n =>
    have hfault : n.step b = .fault .badNumber := by
      rw [n.step_space hb]
      exact if_pos hp
    have hsettle : settle ⟨.number n, stack, place⟩ b = .ok ⟨.number n, stack, place⟩ := by
      simp only [settle, hfault]
    rw [step_of_settle hsettle] at ht
    simp only [advance, consume, hfault] at ht
    cases ht
  | quote q =>
    rw [step_of_settle rfl] at ht
    simp only [advance, consume] at ht
    split at ht
    · cases ht
      exact ⟨trivial, trivial⟩
    · next hcloses => exact absurd hcloses (q.step_space hb)
    · cases ht

omit hb in
/-- A text cannot end within a token. -/
theorem finish_within (hp : p.InToken) (v : Json) : finish ⟨p, stack, place⟩ ≠ .ok v := by
  intro hv
  obtain ⟨-, hholds⟩ := holds_of_finish hv
  cases hholds with
  | complete => exact hp
  | @number n hvalue =>
    obtain ⟨stage, negative, significand, scale, exponentNegative, exponent⟩ := n
    cases stage with
    | minus | point | mark | sign => cases hvalue
    | zero | whole | wholeFull | fraction | fractionFull | exponent | vanishing => cases hp

end Behind

section Blanks

variable {bytes : Bytes} (h : Blank bytes)

include h

/-- **White space behind a text that does not break off within a token** changes nothing about how
the text ends. -/
theorem verdict_run_outside {r : Reader} (hp : ¬r.phase.InToken) :
    verdict (r.run bytes >>= finish) = verdict r.finish := by
  induction bytes generalizing r with
  | nil => rfl
  | cons b bytes ih =>
    obtain ⟨hb, hbytes⟩ := List.forall_mem_cons.mp h
    obtain ⟨p, stack, place⟩ := r
    rw [run_cons]
    rcases step_space_outside hb hp with ⟨f, hstep, hfinish⟩ | ⟨t, hstep, ht, hfinish⟩
    · rw [hfinish, hstep]
      rfl
    · rw [← hfinish, ← ih hbytes ht, hstep]
      rfl

/-- White space behind a text that breaks off within a token does not complete it. -/
theorem finish_run_within {r : Reader} (hp : r.phase.InToken) (hfree : r.phase.SpaceFree)
    (v : Json) :
    r.run bytes >>= finish ≠ .ok v := by
  induction bytes generalizing r with
  | nil => exact finish_within hp v
  | cons b bytes ih =>
    obtain ⟨hb, hbytes⟩ := List.forall_mem_cons.mp h
    intro hv
    obtain ⟨s, hs, hv⟩ := bind_eq_ok.mp hv
    obtain ⟨t, ht, hs⟩ := bind_eq_ok.mp hs
    obtain ⟨hp, hfree⟩ := step_space_within hb hp hfree ht
    exact ih hbytes hp hfree (bind_eq_ok.mpr ⟨s, hs, hv⟩)

end Blanks

/-! ## Names -/

/-- No byte leads to a name that goes on with white space. -/
theorem spaceFree_of_step {r t : Reader} (h : r.phase.SpaceFree) {b : UInt8}
    (ht : r.step b = .ok t) :
    t.phase.SpaceFree := by
  obtain ⟨p, hsettled, hturn⟩ := turn_of_step ht
  have hp : p.SpaceFree := by
    generalize hr : r.phase = q at h hsettled
    cases hsettled with
    | same => exact h
    | number => trivial
  generalize t.phase = p', t.stack = stack', r.stack = stack at hturn
  cases hturn with
  | stay => exact hp
  | spell => exact fun b hb => hp b (List.mem_cons_of_mem _ hb)
  | beginNull | beginTrue | beginFalse =>
    simp only [Phase.SpaceFree, List.forall_mem_cons, List.not_mem_nil, false_implies, implies_true]
    decide
  | _ => trivial

theorem spaceFree_of_run {bytes : Bytes} {t : Reader} (ht : start.run bytes = .ok t) :
    t.phase.SpaceFree := by
  have hstart : start.phase.SpaceFree := trivial
  exact keeps_run (P := fun r => r.phase.SpaceFree) (fun _ _ _ h hs => spaceFree_of_step h hs)
    hstart ht

end Reader

/-! ## White space around a text -/

/-- The text can be read to its end, and there it breaks off within a string, a name or a number. -/
def BreaksOff (text : Bytes) : Prop := ∃ r, Reader.start.run text = .ok r ∧ r.phase.InToken

section Around

variable {before after : Bytes} (hbefore : Blank before) (hafter : Blank after) (text : Bytes)

include hbefore in
/-- White space in front of a text moves the place of a fault, and nothing else. -/
theorem verdict_parse_before : verdict (parse (before ++ text)) = verdict (parse text) := by
  have hstart : Reader.start.run before = .ok ⟨.value, [], Place.start.past before⟩ :=
    Reader.run_spaces (Or.inl rfl) hbefore Place.start
  rw [parse, parse, Reader.run_append, hstart]
  exact Reader.unplaced_bind (Reader.unplaced_run .value [] _ Place.start text)
    Reader.verdict_finish

include hafter in
/-- White space behind a text that does not break off moves the place of a fault, and nothing
else. -/
theorem verdict_parse_after (h : ¬BreaksOff text) :
    verdict (parse (text ++ after)) = verdict (parse text) := by
  rw [parse, parse, Reader.run_append]
  cases hrun : Reader.start.run text with
  | error f => rfl
  | ok r => exact Reader.verdict_run_outside hafter fun hp => h ⟨r, hrun, hp⟩

/-- A text that breaks off has no value. -/
theorem BreaksOff.parse_ne {text : Bytes} (h : BreaksOff text) (v : Json) : parse text ≠ .ok v := by
  obtain ⟨r, hrun, hp⟩ := h
  rw [parse, hrun]
  exact Reader.finish_within hp v

include hafter in
/-- White space behind a text that breaks off does not complete it. -/
theorem BreaksOff.parse_append_ne {text : Bytes} (h : BreaksOff text) (v : Json) :
    parse (text ++ after) ≠ .ok v := by
  obtain ⟨r, hrun, hp⟩ := h
  rw [parse, Reader.run_append, hrun]
  exact Reader.finish_run_within hafter hp (Reader.spaceFree_of_run hrun) v

include hbefore hafter

/-- **White space around a text** is not part of its value. -/
theorem parse_spaced (v : Json) : parse (before ++ text ++ after) = .ok v ↔ parse text = .ok v := by
  rw [List.append_assoc, ← verdict_eq_ok_iff, verdict_parse_before hbefore]
  by_cases h : BreaksOff text
  · rw [verdict_eq_ok_iff]
    exact iff_of_false (h.parse_append_ne hafter v) (h.parse_ne v)
  · rw [verdict_parse_after hafter text h, verdict_eq_ok_iff]

/-- **The words of a fault stay**, unless the text breaks off. -/
theorem verdict_parse_spaced (h : ¬BreaksOff text) :
    verdict (parse (before ++ text ++ after)) = verdict (parse text) := by
  rw [List.append_assoc, verdict_parse_before hbefore, verdict_parse_after hafter text h]

end Around

end Json
end TagRental
