import SharedBoard.Proofs.OrderKey.Binary64

/-! Keys with room between them. Any two numbers are equal or in order, among doubles too; among
exact rationals, moreover, the key for a place is strictly between the keys around it.
-/

namespace SharedBoard

namespace OrderKey

/-- Keys of which any two numbers are equal or in order. -/
class Linear (κ : Type) [OrderKey κ] extends Lawful κ where
  lt_or_beq_or_gt {left right : κ}
    : (left == left) = true → (right == right) = true
      → left < right ∨ (left == right) = true ∨ right < left

/-- Keys that are numbers and equal only to themselves, with room below, above and between them. -/
class Dense (κ : Type) [OrderKey κ] extends Linear κ where
  beq_self (key : κ) : (key == key) = true
  eq_of_beq {left right : κ} : (left == right) = true → left = right
  below_lt (key : κ) : below key < key
  lt_above (key : κ) : key < above key
  lt_between {low high : κ} : low < high → low < between low high
  between_lt {low high : κ} : low < high → between low high < high

/-- Doubles that are numbers compare by their places, which are lexicographic. -/
instance : Linear Float where
  lt_or_beq_or_gt {left right} leftNumber rightNumber := by
    have leftNumber := beq_self_iff.mp leftNumber
    have rightNumber := beq_self_iff.mp rightNumber
    rw [show left < right ↔ _ from lt_iff_precedes left right,
      show right < left ↔ _ from lt_iff_precedes right left, beq_iff_place]
    simp only [leftNumber, rightNumber, true_and, Prod.ext_iff, Precedes]
    omega

-----------------------------------------------------------------------------------------
-- Rationals
-----------------------------------------------------------------------------------------

/-- Equality of rationals is that of their reduced fractions. -/
theorem rat_beq_iff {left right : Rat} : (left == right) = true ↔ left = right := by
  rw [show (left == right) = (left.num == right.num && left.den == right.den) from rfl,
    Bool.and_eq_true, beq_iff_eq, beq_iff_eq]
  exact ⟨fun same => Rat.ext same.1 same.2, fun same => same ▸ ⟨rfl, rfl⟩⟩

theorem rat_lt_iff {left right : Rat} : OrderKey.toLT.lt left right ↔ left < right :=
  Iff.rfl

theorem rat_sortsBefore_iff {left right : Rat} : sortsBefore left right = true ↔ left ≤ right := by
  rw [show sortsBefore left right = !right.blt left from rfl, Bool.not_eq_true', ← not_lt,
    ← Bool.not_eq_true]
  rfl

/-- The midpoint of two rationals as numbers. -/
theorem rat_between (low high : Rat) : between low high = (low + high) / 2 :=
  rfl

theorem rat_above (key : Rat) : above key = key + 1 :=
  rfl

theorem rat_below (key : Rat) : below key = if 0 < key then key / 2 else key - 1 :=
  rfl

instance : Dense Rat where
  IsFinite _ := True
  lt_asymm {low high} below := not_lt.mpr (le_of_lt (rat_lt_iff.mp below))
  lt_or_lt {low middle high} _ below := by
    rw [rat_lt_iff] at below
    exact (lt_or_ge low middle).imp_right fun above => lt_of_le_of_lt above below
  beq_symm {left right} same := rat_beq_iff.mpr (rat_beq_iff.mp same).symm
  beq_trans {first second third} same next :=
    rat_beq_iff.mpr ((rat_beq_iff.mp same).trans (rat_beq_iff.mp next))
  not_lt_of_beq {left right} same := by
    rw [rat_lt_iff, rat_beq_iff.mp same]
    exact lt_irrefl right
  sortsBefore_total left right := by
    rw [Bool.or_eq_true, rat_sortsBefore_iff, rat_sortsBefore_iff]
    exact le_total left right
  sortsBefore_trans first second third := by
    rw [rat_sortsBefore_iff, rat_sortsBefore_iff, rat_sortsBefore_iff]
    exact le_trans
  not_lt_of_sortsBefore {left right} sorted :=
    not_lt.mpr (rat_sortsBefore_iff.mp sorted)
  isFinite_first := trivial
  beq_self_of_isFinite _ := rat_beq_iff.mpr rfl
  beq_self_of_gap? _ _ := rat_beq_iff.mpr rfl
  lt_or_beq_or_gt {left right} _ _ := by
    rw [rat_beq_iff]
    exact lt_trichotomy left right
  beq_self key := rat_beq_iff.mpr rfl
  eq_of_beq same := rat_beq_iff.mp same
  below_lt key := by
    rw [rat_lt_iff, rat_below]
    split
    · next positive => exact half_lt_self positive
    · exact sub_one_lt key
  lt_above key := by
    rw [rat_lt_iff, rat_above]
    exact lt_add_one key
  lt_between {low high} inOrder := by
    rw [rat_lt_iff] at inOrder
    rw [rat_lt_iff, rat_between]
    linarith
  between_lt {low high} inOrder := by
    rw [rat_lt_iff] at inOrder
    rw [rat_lt_iff, rat_between]
    linarith

-----------------------------------------------------------------------------------------
-- Places among ascending keys
-----------------------------------------------------------------------------------------

variable {κ : Type} [OrderKey κ]

/-- What is below a key below a number is below the number, since the number is not in between. -/
theorem lt_trans [Lawful κ] {low middle high : κ} (number : (high == high) = true)
    (first : low < middle) (second : middle < high)
    : low < high :=
  (Lawful.lt_or_lt number first).resolve_right (Lawful.lt_asymm second)

/-- What is below a key is below every key that equals it. -/
theorem lt_of_lt_of_beq [Lawful κ] {low high other : κ} (below : low < high)
    (same : (high == other) = true)
    : low < other := by
  have swapped := Lawful.beq_symm same
  exact (Lawful.lt_or_lt (beq_self_of_beq swapped) below).resolve_right
    (Lawful.not_lt_of_beq swapped)

variable [Dense κ]

/-- In an ascending list every key is below all later ones, by induction. -/
theorem isStrictlyAscending_iff {keys : List κ}
    : isStrictlyAscending keys = true ↔ keys.Pairwise (· < ·) := by
  induction keys with
  | nil => simp [isStrictlyAscending]
  | cons low rest ih =>
      cases rest with
      | nil => simp [isStrictlyAscending]
      | cons high later =>
          rw [isStrictlyAscending, Bool.and_eq_true, decide_eq_true_iff, ih]
          constructor
          · rintro ⟨inOrder, ascending⟩
            refine List.pairwise_cons.mpr
              ⟨List.forall_mem_cons.mpr ⟨inOrder, fun other member => ?_⟩, ascending⟩
            exact lt_trans (Dense.beq_self other) inOrder
              ((List.pairwise_cons.mp ascending).1 other member)
          · intro ascending
            obtain ⟨fromLow, rest⟩ := List.pairwise_cons.mp ascending
            exact ⟨fromLow high List.mem_cons_self, rest⟩

variable {left right : List κ} {middle key : κ}

/-- The key before a key of an ascending list is above all earlier ones, since it is above the last
of them, and below all others.
-/
theorem between_of_beside?_before (ascending : (left ++ middle :: right).Pairwise (· < ·))
    (found : beside? (left ++ middle :: right) left.length true = some key)
    : (∀ earlier ∈ left, earlier < key) ∧ ∀ later ∈ middle :: right, key < later := by
  obtain ⟨leftAscending, rest, across⟩ := List.pairwise_append.mp ascending
  have fromMiddle := (List.pairwise_cons.mp rest).1
  have here : (left ++ middle :: right)[left.length]? = some middle := by simp
  have bounds : (∀ earlier ∈ left, earlier < key) ∧ key < middle := by
    obtain ⟨gap, atGap, rfl⟩ := Option.map_eq_some_iff.mp found
    simp only [gap?, here] at atGap
    rcases left.eq_nil_or_concat' with rfl | ⟨earlier, last, rfl⟩
    · obtain rfl := Option.some.inj atGap
      exact ⟨by simp, Dense.below_lt middle⟩
    · have atLast : ((earlier ++ [last]) ++ middle :: right)[earlier.length]? = some last := by simp
      simp only [List.length_append, List.length_singleton, atLast] at atGap
      obtain rfl := Option.some.inj atGap
      have inOrder : last < middle := across last (by simp) middle List.mem_cons_self
      have above := Dense.lt_between inOrder
      refine ⟨fun other member => ?_, Dense.between_lt inOrder⟩
      rcases List.mem_append.mp member with old | new
      · have belowLast := (List.pairwise_append.mp leftAscending).2.2 other old last (by simp)
        exact lt_trans (Dense.beq_self _) belowLast above
      · obtain rfl := List.mem_singleton.mp new
        exact above
  refine ⟨bounds.1, fun later member => ?_⟩
  rcases List.mem_cons.mp member with rfl | old
  · exact bounds.2
  · exact lt_trans (Dense.beq_self later) bounds.2 (fromMiddle later old)

/-- The key after a key of an ascending list is below all later ones, since it is below the first of
them, and above all others.
-/
theorem between_of_beside?_after (ascending : (left ++ middle :: right).Pairwise (· < ·))
    (found : beside? (left ++ middle :: right) left.length false = some key)
    : (∀ earlier ∈ left ++ [middle], earlier < key) ∧ ∀ later ∈ right, key < later := by
  obtain ⟨_, rest, across⟩ := List.pairwise_append.mp ascending
  obtain ⟨fromMiddle, rightAscending⟩ := List.pairwise_cons.mp rest
  have here : (left ++ middle :: right)[left.length]? = some middle := by simp
  have bounds : middle < key ∧ ∀ later ∈ right, key < later := by
    obtain ⟨gap, atGap, rfl⟩ := Option.map_eq_some_iff.mp found
    simp only [gap?, here] at atGap
    cases right with
    | nil =>
        have beyond : (left ++ [middle])[left.length + 1]? = none := by simp
        simp only [beyond, Bool.false_eq_true, if_false] at atGap
        obtain rfl := Option.some.inj atGap
        exact ⟨Dense.lt_above middle, by simp⟩
    | cons next later =>
        have atNext : (left ++ middle :: next :: later)[left.length + 1]? = some next := by simp
        simp only [atNext, Bool.false_eq_true, if_false] at atGap
        obtain rfl := Option.some.inj atGap
        have inOrder : middle < next := fromMiddle next List.mem_cons_self
        have below := Dense.between_lt inOrder
        refine ⟨Dense.lt_between inOrder, fun other member => ?_⟩
        rcases List.mem_cons.mp member with rfl | old
        · exact below
        · exact lt_trans (Dense.beq_self other) below
            ((List.pairwise_cons.mp rightAscending).1 other old)
  refine ⟨fun earlier member => ?_, bounds.2⟩
  rcases List.mem_append.mp member with old | new
  · exact lt_trans (Dense.beq_self key) (across earlier old middle List.mem_cons_self) bounds.1
  · obtain rfl := List.mem_singleton.mp new
    exact bounds.1

end OrderKey

end SharedBoard
