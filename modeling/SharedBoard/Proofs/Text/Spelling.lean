import Mathlib
import SharedBoard.Text.Blank

/-! Two things are overlooked where texts are read as settings: the blanks around a text, and the
letter case of a word.
-/

namespace SharedBoard.Text

-----------------------------------------------------------------------------------------
-- Blanks
-----------------------------------------------------------------------------------------

/-- A core is what a text holds between blanks; it has none at its own ends. -/
structure Surrounds (text core : List Char) : Prop where
  split : ∃ before after, text = before ++ core ++ after
    ∧ (∀ char ∈ before, isBlank char = true) ∧ (∀ char ∈ after, isBlank char = true)
  first : ∀ char ∈ core.head?, isBlank char = false
  last : ∀ char ∈ core.getLast?, isBlank char = false

/-- Blanks at the start are dropped up to the first character that is none. -/
theorem skipBlanks_append {before text : List Char} (blank : ∀ char ∈ before, isBlank char = true)
    (first : ∀ char ∈ text.head?, isBlank char = false)
    : skipBlanks (before ++ text) = text := by
  rw [skipBlanks, List.dropWhile_append_of_pos blank]
  cases text with
  | nil => rfl
  | cons char rest => exact List.dropWhile_cons_of_neg (by simp [first char (by simp)])

/-- What is left of a text begins with no blank. -/
theorem isBlank_head_skipBlanks (text : List Char) {char : Char}
    (first : char ∈ (skipBlanks text).head?)
    : isBlank char = false := by
  have found := List.head?_dropWhile_not isBlank text
  rw [skipBlanks] at first
  simpa [Option.mem_def.mp first] using found

/-- Some blanks were dropped from a text. -/
theorem exists_append_skipBlanks (text : List Char)
    : ∃ before, text = before ++ skipBlanks text ∧ ∀ char ∈ before, isBlank char = true :=
  ⟨text.takeWhile isBlank, List.takeWhile_append_dropWhile.symm,
    fun _ member => List.mem_takeWhile_imp member⟩

/-- Trimming a text gives its core. -/
theorem surrounds_trim (text : List Char)
    : Surrounds text (trim text) := by
  obtain ⟨before, atStart, blankBefore⟩ := exists_append_skipBlanks text
  obtain ⟨after, atEnd, blankAfter⟩ := exists_append_skipBlanks (skipBlanks text).reverse
  have kept : skipBlanks text = trim text ++ after.reverse := by
    rw [trim, ← List.reverse_append, ← atEnd, List.reverse_reverse]
  refine ⟨⟨before, after.reverse, ?_, blankBefore, by simpa using blankAfter⟩, ?_, ?_⟩
  · rw [List.append_assoc, ← kept]
    exact atStart
  · intro char first
    apply isBlank_head_skipBlanks text
    rw [kept, List.head?_append, Option.mem_def.mp first]
    rfl
  · intro char last
    apply isBlank_head_skipBlanks (skipBlanks text).reverse
    simpa [trim] using last

/-- A text has one core, the one that trimming gives. -/
theorem surrounds_iff {text core : List Char}
    : Surrounds text core ↔ trim text = core := by
  constructor
  · rintro ⟨⟨before, after, rfl, blankBefore, blankAfter⟩, first, last⟩
    by_cases empty : core = []
    · subst empty
      have nothing : skipBlanks (before ++ [] ++ after) = [] := by
        rw [skipBlanks, List.dropWhile_eq_nil_iff]
        simpa [or_imp, forall_and] using ⟨blankBefore, blankAfter⟩
      rw [trim, nothing]
      rfl
    · have start : skipBlanks (before ++ core ++ after) = core ++ after := by
        rw [List.append_assoc]
        apply skipBlanks_append blankBefore
        rw [List.head?_append_of_ne_nil _ empty]
        exact first
      have atEnd : skipBlanks (after.reverse ++ core.reverse) = core.reverse :=
        skipBlanks_append (by simpa using blankAfter) (by simpa using last)
      rw [trim, start, List.reverse_append, atEnd, List.reverse_reverse]
  · rintro rfl
    exact surrounds_trim text

-----------------------------------------------------------------------------------------
-- Letter case
-----------------------------------------------------------------------------------------

/-- A text spells a word, in letters of either case. -/
def Spells (text word : List Char) : Prop :=
  List.Forall₂ (fun char letter => char = letter ∨ char = letter.toUpper) text word

/-- What is not a capital is the lower case of itself and of its capital. -/
theorem toLower_eq_iff {char letter : Char} (small : ¬ letter.isUpper = true)
    : char.toLower = letter ↔ char = letter ∨ char = letter.toUpper := by
  constructor
  · rintro rfl
    by_cases capital : char.isUpper = true
    · rw [Char.toUpper_toLower_eq_toUpper,
        Char.toUpper_eq_of_not_isLower (Char.not_isLower_of_isUpper capital)]
      exact .inr rfl
    · exact .inl (Char.toLower_eq_of_not_isUpper capital).symm
  · rintro (rfl | rfl)
    · exact Char.toLower_eq_of_not_isUpper small
    · rw [Char.toLower_toUpper_eq_toLower]
      exact Char.toLower_eq_of_not_isUpper small

/-- A word without capitals is spelled by the texts that it is the lower case of, by induction on
the word.
-/
theorem spells_iff {text word : List Char} (small : word.any Char.isUpper = false)
    : Spells text word ↔ text.map Char.toLower = word := by
  induction word generalizing text with
  | nil => simp [Spells]
  | cons letter word ih =>
      rw [List.any_cons, Bool.or_eq_false_iff] at small
      cases text with
      | nil => simp [Spells]
      | cons char text =>
          rw [Spells, List.forall₂_cons, ← Spells, ih small.2, List.map_cons, List.cons.injEq,
            toLower_eq_iff (Bool.eq_false_iff.mp small.1)]

end SharedBoard.Text
