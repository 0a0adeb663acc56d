import Mathlib.Data.List.Forall2
import TagRental.Console.Dialogue
import TagRental.Proofs.Gateway.Lines
import TagRental.Proofs.Link.Writing
import TagRental.Proofs.Rental.ItemLife
import TagRental.Proofs.Text.Words

/-!
# A session at the console

A session is the fold of its lines.  Each line is answered from the table that the lines in front of
it have left, what is printed are the answers in their order, and the first of three things ends it:
a line that asks to stop, a line that is no text, or the end of the input
(`Dialogue.run_folds_lines`).

What asks to stop is told by the first word of a line alone, and so is what writes: a line whose
first word is `clear` empties the table, and no other line touches it (`store_answer`).  The table
at the end is therefore the one at the beginning, or empty.

The lines are what `List.splitOn` makes of the input (`lines_eq`), with one carriage return in front
of a line feed removed.  The last piece has no line feed behind it.  It is a line if it is not
empty, and keeps its carriage return.

## What the induction carries

The lines in front of the stop are followed one by one (`Dialogue.follow_of_texts`).  By then the
table and what was printed are those of the fold, whatever lines come behind.  So what comes behind
the stop can have no effect, and the ending is decided at the stop.
-/

namespace TagRental
namespace Console

/-- The first word of the line is the given one, in any mixture of ASCII upper and lower case. -/
def LeadsWith (line word : String) : Prop :=
  ∃ first, Text.FirstWord line.toList first ∧ first.map Char.toLower = word.toList

/-- The line asks to stop. -/
def AsksToLeave (line : String) : Prop := LeadsWith line "exit" ∨ LeadsWith line "quit"

/-! ## What a line asks for -/

theorem lowerAscii_ofList_eq_iff {first : List Char} {word : String} :
    Text.lowerAscii (String.ofList first) = word ↔ first.map Char.toLower = word.toList := by
  rw [Text.lowerAscii, String.toList_ofList]
  constructor
  · rintro rfl
    rw [String.toList_ofList]
  · intro h
    rw [h, String.ofList_toList]

namespace Command

variable {line : String}

theorem ofWords_eq_exit_iff {head : String} {arguments : List String} :
    ofWords line head arguments = .exit ↔ head = "exit" ∨ head = "quit" := by
  unfold ofWords
  split <;> simp_all

theorem ofWords_eq_clear_iff {head : String} {arguments : List String} :
    ofWords line head arguments = .clear ↔ head = "clear" := by
  unfold ofWords
  split <;> simp_all

/-- A command that is told by the first word alone. -/
theorem parse_eq_iff {c : Command} {heads : String → Prop} (hc : c ≠ .blank)
    (h : ∀ head arguments, ofWords line head arguments = c ↔ heads head) :
    parse line = c ↔
      ∃ first, Text.FirstWord line.toList first ∧
        heads (Text.lowerAscii (String.ofList first)) := by
  unfold parse Text.words
  cases hwords : Text.wordsChars line.toList with
  | nil =>
    refine iff_of_false (fun hblank => hc hblank.symm) ?_
    rintro ⟨first, hfirst, -⟩
    obtain ⟨rest, hrest⟩ := hfirst.wordsChars
    cases hwords.symm.trans hrest
  | cons word words =>
    rw [List.map_cons]
    refine (h _ _).trans ⟨fun hword => ⟨word, ?_, hword⟩, ?_⟩
    · rw [Text.firstWord_iff, hwords]
      rfl
    · rintro ⟨first, hfirst, hhead⟩
      rw [Text.firstWord_iff, hwords] at hfirst
      exact Option.some.inj hfirst ▸ hhead

theorem parse_eq_exit_iff : parse line = .exit ↔ AsksToLeave line := by
  rw [parse_eq_iff Command.noConfusion fun _ _ => ofWords_eq_exit_iff]
  simp only [lowerAscii_ofList_eq_iff, AsksToLeave, LeadsWith, ← exists_or, and_or_left]

theorem parse_eq_clear_iff : parse line = .clear ↔ LeadsWith line "clear" := by
  rw [parse_eq_iff Command.noConfusion fun _ _ => ofWords_eq_clear_iff]
  simp only [lowerAscii_ofList_eq_iff, LeadsWith]

end Command

/-! ## What a line does -/

section Answers

variable (store : Store)

theorem isLast_carryOut (c : Command) : (carryOut store c).isLast = true ↔ c = .exit := by
  cases c with
  | exit => exact iff_of_true rfl rfl
  | blank | list | status | clear | help | unknown =>
    exact iff_of_false Bool.false_ne_true Command.noConfusion

theorem isLast_answer {line : String} : (answer store line).isLast = true ↔ AsksToLeave line := by
  rw [answer, isLast_carryOut, Command.parse_eq_exit_iff]

/-- Only clearing writes. -/
theorem store_answer {line : String} :
    (LeadsWith line "clear" → (answer store line).store = Store.empty) ∧
      (¬LeadsWith line "clear" → (answer store line).store = store) := by
  rw [← Command.parse_eq_clear_iff, answer, store_carryOut]
  exact ⟨fun hclear => if_pos hclear, fun hclear => if_neg hclear⟩

/-- Lines answered one after another: the table that they leave, and their answers in order. -/
def answerAll (store : Store) : List String → Store × String
  | [] => (store, "")
  | line :: rest =>
    let reply := answer store line
    let behind := answerAll reply.store rest
    (behind.1, reply.text ++ behind.2)

theorem answerAll_append (texts others : List String) :
    answerAll store (texts ++ others) =
      ((answerAll (answerAll store texts).1 others).1,
        (answerAll store texts).2 ++ (answerAll (answerAll store texts).1 others).2) := by
  induction texts generalizing store with
  | nil => rw [List.nil_append, answerAll, String.empty_append]
  | cons line texts ih => rw [List.cons_append, answerAll, ih, answerAll, String.append_assoc]

/-- The table stays as it is unless a line clears it. -/
theorem store_answerAll_of_forall {texts : List String}
    (h : ∀ text ∈ texts, ¬LeadsWith text "clear") : (answerAll store texts).1 = store := by
  induction texts with
  | nil => rfl
  | cons line texts ih =>
    obtain ⟨hline, htexts⟩ := List.forall_mem_cons.mp h
    rw [answerAll, (store_answer store).2 hline]
    exact ih htexts

/-- An empty table stays empty. -/
theorem store_answerAll_empty (texts : List String) : (answerAll .empty texts).1 = .empty := by
  induction texts with
  | nil => rfl
  | cons line texts ih =>
    have hline : (answer .empty line).store = .empty := by
      by_cases hclear : LeadsWith line "clear"
      · exact (store_answer _).1 hclear
      · exact (store_answer _).2 hclear
    rw [answerAll, hline]
    exact ih

/-- A line that clears the table leaves nothing, whatever comes behind it. -/
theorem store_answerAll_of_exists {texts : List String}
    (h : ∃ text ∈ texts, LeadsWith text "clear") : (answerAll store texts).1 = .empty := by
  obtain ⟨text, hmem, hclear⟩ := h
  obtain ⟨before, behind, rfl⟩ := List.append_of_mem hmem
  rw [answerAll_append, answerAll, (store_answer _).1 hclear]
  exact store_answerAll_empty behind

end Answers

/-! ## The lines -/

/-- The lines of an input that has ended. -/
theorem lines_eq (input : Bytes) :
    lines input .endOfInput =
      (input.splitOn delimiter).dropLast.map withoutReturn ++
        (input.splitOn delimiter).getLast?.toList.filter (· ≠ []) := by
  rw [lines, completeSegments_eq_dropLast, openSegment_eq_getLast,
    List.getLast?_eq_some_getLast (List.splitOn_ne_nil delimiter input)]
  by_cases hlast : (input.splitOn delimiter).getLast (List.splitOn_ne_nil delimiter input) = []
  · simp [hlast]
  · simp [hlast]

/-- How a session ends at the lines that are left, and which of them it still answers: none are
left, the next one asks to stop, or the next one is no text. -/
inductive EndsAt : List Bytes → Ending → List String → Prop
  | endOfInput : EndsAt [] .endOfInput []
  | exit {line : Bytes} {text : String} (hline : Utf8.decode line = .ok text)
      (hleave : AsksToLeave text) (behind : List Bytes) : EndsAt (line :: behind) .exit [text]
  | noText {line : Bytes} {fault : Utf8.Fault} (hline : Utf8.decode line = .error fault)
      (behind : List Bytes) : EndsAt (line :: behind) (.failed ⟨.invalidData, fault.text⟩) []

/-- The texts of lines of which none asks to stop. -/
def Answerable (front : List Bytes) (texts : List String) : Prop :=
  List.Forall₂ (fun line text => Utf8.decode line = .ok text ∧ ¬AsksToLeave text) front texts

/-- Every list of lines has a place where a session ends. -/
theorem exists_endsAt (input : List Bytes) :
    ∃ front rest texts ending last, input = front ++ rest ∧ Answerable front texts ∧
      EndsAt rest ending last := by
  induction input with
  | nil => exact ⟨[], [], [], _, _, rfl, .nil, .endOfInput⟩
  | cons line input ih =>
    cases hline : Utf8.decode line with
    | error fault => exact ⟨[], _, [], _, _, rfl, .nil, .noText hline input⟩
    | ok text =>
      by_cases hleave : AsksToLeave text
      · exact ⟨[], _, [], _, _, rfl, .nil, .exit hline hleave input⟩
      · obtain ⟨front, rest, texts, ending, last, rfl, hfront, hrest⟩ := ih
        exact ⟨line :: front, rest, text :: texts, ending, last, rfl,
          .cons ⟨hline, hleave⟩ hfront, hrest⟩

/-! ## The dialogue -/

namespace Dialogue

variable {c : Channel} (hnever : c.NeverFails) (hprompt : c.Prompt)

include hnever hprompt in
/-- On an output that takes what it is offered, a text is printed. -/
theorem print_finishes (printed : Written) (text : String) :
    ∃ after, print c printed text = (after, .finished) ∧
      after.bytes = printed.bytes ++ Utf8.encode text := by
  unfold print
  split
  · next hempty =>
    refine ⟨printed, rfl, ?_⟩
    rw [String.isEmpty_iff.mp hempty]
    exact (List.append_nil _).symm
  · obtain ⟨taken, rest, hsplit, hbytes, hend⟩ := c.send_split printed (Utf8.encode text)
    have hfailed := hnever.send_ne_failed printed (Utf8.encode text)
    have hwaiting := hprompt.send_ne_waiting printed (Utf8.encode text)
    rcases hsent : c.send printed (Utf8.encode text) with ⟨after, stopped⟩
    rw [hsent] at hbytes hend hfailed hwaiting
    cases stopped with
    | finished =>
      obtain rfl : rest = [] := hend
      exact ⟨after, rfl, by rw [hbytes, hsplit, List.append_nil]⟩
    | failed fault => exact absurd rfl (hfailed fault)
    | waiting bytes => exact absurd rfl (hwaiting bytes)

include hnever hprompt in
/-- Following the first lines of an input: the table and what was printed are those of the fold, and
the session goes on at the lines behind them, whatever these are. -/
theorem follow_of_texts (stop : Stop) {front : List Bytes} {texts : List String}
    (h : Answerable front texts) (store : Store) (printed : Written) :
    ∃ after, after.bytes = printed.bytes ++ Utf8.encode (answerAll store texts).2 ∧
      ∀ rest, follow c stop store printed (front ++ rest) =
        follow c stop (answerAll store texts).1 after rest := by
  induction h generalizing store printed with
  | nil => exact ⟨printed, (List.append_nil _).symm, fun _ => rfl⟩
  | @cons line text front texts hline _ ih =>
    obtain ⟨hdecode, hleave⟩ := hline
    obtain ⟨told, htold, hbytes⟩ := print_finishes hnever hprompt printed (answer store text).text
    obtain ⟨after, hafter, hfollow⟩ := ih (answer store text).store told
    refine ⟨after, ?_, fun rest => ?_⟩
    · rw [hafter, hbytes, answerAll, Utf8.encode_append, List.append_assoc]
    · have hgoes : ¬(answer store text).isLast = true :=
        fun hlast => hleave ((isLast_answer store).mp hlast)
      rw [List.cons_append, follow, hdecode]
      simp only [htold, if_neg hgoes]
      rw [hfollow, answerAll]

include hnever hprompt in
/-- Where a session ends, the lines behind the one that ends it are not looked at. -/
theorem follow_of_endsAt {rest : List Bytes} {ending : Ending} {last : List String}
    (h : EndsAt rest ending last) (store : Store) (printed : Written) :
    ∃ after, after.bytes = printed.bytes ++ Utf8.encode (answerAll store last).2 ∧
      follow c .endOfInput store printed rest = ⟨ending, (answerAll store last).1, after⟩ ∧
      (rest ≠ [] → ∀ others, follow c .endOfInput store printed (rest.take 1 ++ others) =
        ⟨ending, (answerAll store last).1, after⟩) := by
  cases h with
  | endOfInput => exact ⟨printed, (List.append_nil _).symm, rfl, fun hne => absurd rfl hne⟩
  | @exit line text hline hleave behind =>
    obtain ⟨told, htold, hbytes⟩ := print_finishes hnever hprompt printed (answer store text).text
    have hfollow (others : List Bytes) : follow c .endOfInput store printed (line :: others) =
        ⟨.exit, (answer store text).store, told⟩ := by
      rw [follow, hline]
      simp only [htold, if_pos ((isLast_answer store).mpr hleave)]
    refine ⟨told, ?_, hfollow behind, fun _ => hfollow⟩
    rw [hbytes, answerAll, answerAll, String.append_empty]
  | @noText line fault hline behind =>
    have hfollow (others : List Bytes) : follow c .endOfInput store printed (line :: others) =
        ⟨.failed ⟨.invalidData, fault.text⟩, store, printed⟩ := by
      rw [follow, hline]
    exact ⟨printed, (List.append_nil _).symm, hfollow behind, fun _ => hfollow⟩

/-- **A session is the fold of its lines**, and only clearing writes.  On an output that takes what
it is offered, a console that nobody cancels ends at the first line that asks to stop or is no text,
and with the input if there is no such line.  It has printed the answers to the lines up to there,
the line that asks to stop among them, each given from the table that the lines in front of it have
left.  The table is then empty if one of these lines clears it, and unchanged if none does.  Other
lines behind the one that ends the session make no difference. -/
theorem run_folds_lines {c : Channel} (hnever : c.NeverFails) (hprompt : c.Prompt) (store : Store)
    (input : Bytes) :
    lines input .endOfInput =
        (input.splitOn delimiter).dropLast.map withoutReturn ++
          (input.splitOn delimiter).getLast?.toList.filter (· ≠ []) ∧
      (∃ front rest texts ending last, lines input .endOfInput = front ++ rest ∧
        Answerable front texts ∧ EndsAt rest ending last) ∧
      ∀ front rest texts ending last, lines input .endOfInput = front ++ rest →
        Answerable front texts → EndsAt rest ending last →
        let session := run c store input .endOfInput
        session.ending = ending ∧
          session.printed.bytes = Utf8.encode (answerAll store (texts ++ last)).2 ∧
          session.store = (answerAll store (texts ++ last)).1 ∧
          ((∃ text ∈ texts ++ last, LeadsWith text "clear") → session.store = .empty) ∧
          ((∀ text ∈ texts ++ last, ¬LeadsWith text "clear") → session.store = store) ∧
          (rest ≠ [] → ∀ other others, lines other .endOfInput = front ++ (rest.take 1 ++ others) →
            run c store other .endOfInput = session) := by
  refine ⟨lines_eq input, exists_endsAt _, ?_⟩
  intro front rest texts ending last hlines hfront hrest session
  obtain ⟨before, hbefore, hfollow⟩ :=
    follow_of_texts hnever hprompt .endOfInput hfront store ⟨0, []⟩
  obtain ⟨after, hafter, hends, hothers⟩ :=
    follow_of_endsAt hnever hprompt hrest (answerAll store texts).1 before
  have hsession : session = ⟨ending, (answerAll store (texts ++ last)).1, after⟩ := by
    rw [answerAll_append, ← hends, ← hfollow, ← hlines]
    rfl
  have hstore : session.store = (answerAll store (texts ++ last)).1 := by rw [hsession]
  refine ⟨by rw [hsession], ?_, hstore, ?_, ?_, ?_⟩
  · rw [hsession]
    dsimp only
    rw [hafter, hbefore, List.nil_append, answerAll_append, Utf8.encode_append]
  · exact fun hclear => hstore.trans (store_answerAll_of_exists store hclear)
  · exact fun hkeeps => hstore.trans (store_answerAll_of_forall store hkeeps)
  · intro hne other others hother
    rw [hsession, answerAll_append, ← hothers hne others, ← hfollow, ← hother]
    rfl

/-- A table with one record, cleared and left, on an output that takes three bytes in a call; what
is asked for behind that is not answered. -/
theorem run_folds_lines_clear_then_quit :
    let c := Channel.bounded (some 3) none .waits false
    let store : Store := ⟨[(⟨[0xAA], by decide, by decide⟩, ⟨.rented, 100, 60, 0⟩)], by decide⟩
    let input : Bytes :=
      [0x43, 0x6C, 0x65, 0x61, 0x72, 0x0D, 0x0A, 0x20, 0x71, 0x75, 0x69, 0x74, 0x0A,
        0x6C, 0x69, 0x73, 0x74]
    let session := run c store input .endOfInput
    c.NeverFails ∧ c.Prompt ∧ store.size = 1 ∧
      Utf8.decode input = .ok "Clear\r\n quit\nlist" ∧ session.ending = .exit ∧
      session.printed.bytes = Utf8.encode "All rentals cleared\nExiting\n" ∧
        session.store = .empty := by
  intro c store input session
  have hnever : c.NeverFails := Channel.neverFails_bounded (by decide) none
  have hprompt : c.Prompt := Channel.prompt_bounded (by decide) .waits
  have hclears : LeadsWith "Clear" "clear" := Command.parse_eq_clear_iff.mp (by decide)
  have hstays : ¬AsksToLeave "Clear" :=
    fun h => absurd (Command.parse_eq_exit_iff.mpr h) (by decide)
  have hleaves : AsksToLeave " quit" := Command.parse_eq_exit_iff.mp (by decide)
  let front : List Bytes := [[0x43, 0x6C, 0x65, 0x61, 0x72]]
  let rest : List Bytes := [[0x20, 0x71, 0x75, 0x69, 0x74], [0x6C, 0x69, 0x73, 0x74]]
  have hfront : Answerable front ["Clear"] := .cons ⟨by decide, hstays⟩ .nil
  have hrest : EndsAt rest .exit [" quit"] := .exit (by decide) hleaves _
  obtain ⟨-, -, hall⟩ := run_folds_lines hnever hprompt store input
  obtain ⟨hending, hprinted, -, hempty, -, -⟩ :=
    hall front rest ["Clear"] .exit [" quit"] (by decide) hfront hrest
  have hsaid : (answerAll store (["Clear"] ++ [" quit"])).2 = "All rentals cleared\nExiting\n" := by
    decide
  rw [hsaid] at hprinted
  exact ⟨hnever, hprompt, rfl, by decide, hending, hprinted,
    hempty ⟨"Clear", List.mem_cons_self, hclears⟩⟩

end Dialogue
end Console
end TagRental
