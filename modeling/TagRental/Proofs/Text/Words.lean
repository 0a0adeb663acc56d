import TagRental.Proofs.Gateway.TagSpelling

/-!
# The first word of a text

A text is split at its blanks, and what stands between them are its words.  Splitting reads the text
from the right and keeps the word in progress apart (`wordsStep`).  From the left it says this:
blanks in front of a text do not count, and behind them stands the first word, up to the next blank
or the end (`wordsChars_blanks_append`, `wordsChars_word_append`).

So the first word can be told without splitting anything (`FirstWord`), and it is the one that
splitting finds (`firstWord_iff`).
-/

namespace TagRental
namespace Text

/-- The text begins with that word, behind any blanks. -/
structure FirstWord (text word : List Char) : Prop where
  split : ∃ front rest, text = front ++ word ++ rest ∧ (∀ c ∈ front, isBlank c = true) ∧
    ∀ c ∈ rest.head?, isBlank c = true
  nonempty : word ≠ []
  solid : ∀ c ∈ word, isBlank c = false

theorem wordsChars_cons_of_blank {c : Char} (h : isBlank c = true) (cs : List Char) :
    wordsChars (c :: cs) = wordsChars cs := by
  rw [wordsChars, List.foldr_cons, wordsStep, if_pos h]
  rfl

/-- Blanks in front of a text do not count. -/
theorem wordsChars_blanks_append {front : List Char} (h : ∀ c ∈ front, isBlank c = true)
    (cs : List Char) : wordsChars (front ++ cs) = wordsChars cs := by
  induction front with
  | nil => rfl
  | cons c front ih =>
    obtain ⟨hc, hfront⟩ := List.forall_mem_cons.mp h
    rw [List.cons_append, wordsChars_cons_of_blank hc, ih hfront]

/-- Read from the right, a word that a blank or the end follows is in progress at its first
character. -/
theorem foldr_wordsStep_append {word rest : List Char} (hword : ∀ c ∈ word, isBlank c = false)
    (hrest : ∀ c ∈ rest.head?, isBlank c = true) :
    (word ++ rest).foldr wordsStep ([], []) = (word, wordsChars rest) := by
  induction word with
  | nil =>
    cases rest with
    | nil => rfl
    | cons c rest =>
      have hc : isBlank c = true := hrest c rfl
      rw [wordsChars_cons_of_blank hc, List.nil_append, List.foldr_cons, wordsStep, if_pos hc]
      rfl
  | cons c word ih =>
    obtain ⟨hc, hword⟩ := List.forall_mem_cons.mp hword
    rw [List.cons_append, List.foldr_cons, ih hword, wordsStep,
      if_neg (by rw [hc]; exact Bool.false_ne_true)]

/-- A word, with the words behind it. -/
theorem wordsChars_word_append {word rest : List Char} (hne : word ≠ [])
    (hword : ∀ c ∈ word, isBlank c = false) (hrest : ∀ c ∈ rest.head?, isBlank c = true) :
    wordsChars (word ++ rest) = word :: wordsChars rest := by
  have hnot : ¬word.isEmpty = true := fun h => hne (List.isEmpty_iff.mp h)
  rw [wordsChars, foldr_wordsStep_append hword hrest]
  exact if_neg hnot

theorem FirstWord.wordsChars {text word : List Char} (h : FirstWord text word) :
    ∃ rest, wordsChars text = word :: rest := by
  obtain ⟨front, rest, rfl, hfront, hrest⟩ := h.split
  refine ⟨Text.wordsChars rest, ?_⟩
  rw [List.append_assoc, wordsChars_blanks_append hfront,
    wordsChars_word_append h.nonempty h.solid hrest]

/-- A text has a first word, or it is blank. -/
theorem exists_firstWord (text : List Char) :
    (∃ word, FirstWord text word) ∨ ∀ c ∈ text, isBlank c = true := by
  have hsplit : text.takeWhile isBlank ++ text.dropWhile isBlank = text :=
    List.takeWhile_append_dropWhile
  have hfront : ∀ c ∈ text.takeWhile isBlank, isBlank c = true := fun c => blank_of_mem_takeWhile
  cases hbehind : text.dropWhile isBlank with
  | nil =>
    right
    rw [hbehind, List.append_nil] at hsplit
    rwa [← hsplit]
  | cons c cs =>
    left
    have hc : isBlank c = false := not_blank_of_head?_dropWhile (by rw [hbehind]; rfl)
    let solid : Char → Bool := fun d => !isBlank d
    have hword : (c :: cs).takeWhile solid ++ (c :: cs).dropWhile solid = c :: cs :=
      List.takeWhile_append_dropWhile
    refine ⟨(c :: cs).takeWhile solid, ⟨_, (c :: cs).dropWhile solid, ?_, hfront, ?_⟩, ?_, ?_⟩
    · rw [List.append_assoc, hword, ← hbehind, hsplit]
    · intro d hd
      have hnot := List.head?_dropWhile_not solid (c :: cs)
      rw [Option.mem_def.mp hd] at hnot
      simpa [solid] using hnot
    · rw [List.takeWhile_cons_of_pos (by simp [solid, hc])]
      exact List.cons_ne_nil _ _
    · intro d hd
      have hsolid := List.all_eq_true.mp (List.all_takeWhile (p := solid)) d hd
      simpa [solid] using hsolid

/-- **The first word** is the one that splitting finds first. -/
theorem firstWord_iff {text word : List Char} :
    FirstWord text word ↔ (wordsChars text).head? = some word := by
  constructor
  · intro h
    obtain ⟨rest, hrest⟩ := h.wordsChars
    rw [hrest]
    rfl
  · intro h
    rcases exists_firstWord text with ⟨first, hfirst⟩ | hblank
    · obtain ⟨rest, hrest⟩ := hfirst.wordsChars
      rw [hrest] at h
      exact Option.some.inj h ▸ hfirst
    · have hnone := wordsChars_blanks_append hblank []
      rw [List.append_nil] at hnone
      rw [hnone] at h
      cases h

end Text
end TagRental
