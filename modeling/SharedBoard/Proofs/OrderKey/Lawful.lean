import SharedBoard.Group

/-! Laws of order keys, and what they mean for posts in the order of their keys.
A key that is a number equals itself; everything that is proved about order is about numbers.
-/

namespace SharedBoard

namespace OrderKey

/-- Keys whose comparisons agree with one another, wherever a value that is no number is not
between them. Places next to finite keys have keys that are numbers.
-/
class Lawful (κ : Type) [OrderKey κ] where
  /-- Keys within the range of the format. -/
  IsFinite : κ → Prop
  lt_asymm {low high : κ} : low < high → ¬ high < low
  lt_or_lt {low middle high : κ}
    : (middle == middle) = true → low < high → low < middle ∨ middle < high
  beq_symm {left right : κ} : (left == right) = true → (right == left) = true
  beq_trans {first second third : κ}
    : (first == second) = true → (second == third) = true → (first == third) = true
  not_lt_of_beq {left right : κ} : (left == right) = true → ¬ left < right
  sortsBefore_total (left right : κ) : (sortsBefore left right || sortsBefore right left) = true
  sortsBefore_trans (first second third : κ)
    : sortsBefore first second = true → sortsBefore second third = true
      → sortsBefore first third = true
  not_lt_of_sortsBefore {left right : κ} : sortsBefore left right = true → ¬ right < left
  isFinite_first : IsFinite (first : κ)
  beq_self_of_isFinite {key : κ} : IsFinite key → (key == key) = true
  beq_self_of_gap? {keys : List κ} {target : Nat} {before : Bool} {gap : Gap κ}
    : gap? keys target before = some gap → (∀ key ∈ keys, IsFinite key)
      → (gap.key == gap.key) = true

variable {κ : Type} [OrderKey κ] [Lawful κ]

/-- A key that equals another one is a number, since equality is symmetric and transitive. -/
theorem beq_self_of_beq {left right : κ} (same : (left == right) = true)
    : (left == left) = true :=
  Lawful.beq_trans same (Lawful.beq_symm same)

/-- The first key of a group is a number, since it is finite. -/
theorem beq_self_first : ((first : κ) == first) = true :=
  Lawful.beq_self_of_isFinite Lawful.isFinite_first

/-- Not being below is transitive around a number, by comparing the ends with the middle. -/
theorem not_lt_trans {low middle high : κ} (number : (middle == middle) = true)
    (first : ¬ middle < low) (second : ¬ high < middle)
    : ¬ high < low := by
  intro below
  rcases Lawful.lt_or_lt number below with above | under
  · exact second above
  · exact first under

/-- A key next to finite keys is a number, as is the key of any gap. -/
theorem beq_self_of_beside? {keys : List κ} {target : Nat} {before : Bool} {key : κ}
    (found : beside? keys target before = some key)
    (finite : ∀ key ∈ keys, Lawful.IsFinite key)
    : (key == key) = true := by
  obtain ⟨gap, atGap, rfl⟩ := Option.map_eq_some_iff.mp found
  exact Lawful.beq_self_of_gap? atGap finite

end OrderKey

namespace Post

open OrderKey

variable {κ : Type} [OrderKey κ]

/-- No post of a list comes after one with a higher key. -/
def Ascending (posts : List (Post κ)) : Prop :=
  posts.Pairwise (fun earlier later => ¬ later.key < earlier.key)

/-- An insertion before the first element that a test picks splits the list there, by induction.
-/
theorem insertIdx_findIdx {α : Type} (picks : α → Bool) (added : α) (list : List α)
    : list.insertIdx (list.findIdx picks) added
      = list.takeWhile (fun member => !picks member)
        ++ added :: list.dropWhile (fun member => !picks member) := by
  induction list with
  | nil => simp
  | cons head rest ih =>
      cases picked : picks head with
      | true => simp [List.findIdx_cons, picked]
      | false => simp [List.findIdx_cons, picked, ih]

/-- A post is inserted between the posts not above it and those from the first one above it on. -/
theorem insertInto_eq (posts : List (Post κ)) (post : Post κ)
    : insertInto posts post
      = posts.takeWhile (fun other => !decide (post.key < other.key))
        ++ post :: posts.dropWhile (fun other => !decide (post.key < other.key)) := by
  rw [insertInto, insertionIndex, List.findIdx_map]
  exact insertIdx_findIdx (fun other => decide (post.key < other.key)) post posts

theorem insertInto_perm (posts : List (Post κ)) (post : Post κ)
    : (insertInto posts post).Perm (post :: posts) := by
  rw [insertInto_eq]
  refine List.perm_middle.trans ?_
  rw [List.takeWhile_append_dropWhile]

theorem mem_insertInto {posts : List (Post κ)} {post member : Post κ}
    : member ∈ insertInto posts post ↔ member = post ∨ member ∈ posts := by
  rw [(insertInto_perm posts post).mem_iff, List.mem_cons]

variable [Lawful κ]

/-- An insertion keeps numbers in order. The first post above the new one is not above any later
one, so no later post is below the new one.
-/
theorem insertInto_ascending {posts : List (Post κ)} {post : Post κ}
    (ascending : Ascending posts)
    (numbers : ∀ other ∈ posts, (other.key == other.key) = true)
    (number : (post.key == post.key) = true)
    : Ascending (insertInto posts post) := by
  rw [insertInto_eq]
  rw [← List.takeWhile_append_dropWhile (p := fun other => !decide (post.key < other.key))
    (l := posts)] at ascending numbers
  obtain ⟨before, after, across⟩ := List.pairwise_append.mp ascending
  have notAbove : ∀ other ∈ posts.takeWhile (fun other => !decide (post.key < other.key)),
      ¬ post.key < other.key := by
    intro other member
    simpa using List.all_eq_true.mp List.all_takeWhile other member
  have notBelow : ∀ other ∈ posts.dropWhile (fun other => !decide (post.key < other.key)),
      ¬ other.key < post.key := by
    intro other member
    cases split : posts.dropWhile (fun other => !decide (post.key < other.key)) with
    | nil => simp [split] at member
    | cons head rest =>
        have above : post.key < head.key := by
          have first := List.head?_dropWhile_not (fun other => !decide (post.key < other.key)) posts
          simpa [split] using first
        rw [split] at member after
        rcases List.mem_cons.mp member with rfl | later
        · exact Lawful.lt_asymm above
        · have headNumber := numbers head (by simp [split])
          exact not_lt_trans headNumber (Lawful.lt_asymm above)
            ((List.pairwise_cons.mp after).1 other later)
  refine List.pairwise_append.mpr ⟨before, List.pairwise_cons.mpr ⟨notBelow, after⟩, ?_⟩
  intro earlier member later found
  rcases List.mem_cons.mp found with rfl | old
  · exact notAbove earlier member
  · exact across earlier member later old

/-- A post in the place of one with an equal key keeps the order, since both keys compare alike. -/
theorem set_ascending {posts : List (Post κ)} {index : Nat} {current post : Post κ}
    (ascending : Ascending posts) (here : posts[index]? = some current)
    (sameKey : (current.key == post.key) = true)
    : Ascending (posts.set index post) := by
  induction posts generalizing index with
  | nil => simpa using ascending
  | cons head rest ih =>
      obtain ⟨headFirst, restAscending⟩ := List.pairwise_cons.mp ascending
      cases index with
      | zero =>
          obtain rfl : head = current := by simpa using here
          refine List.pairwise_cons.mpr ⟨fun later member below => ?_, restAscending⟩
          rcases Lawful.lt_or_lt (beq_self_of_beq sameKey) below with under | between
          · exact headFirst later member under
          · exact Lawful.not_lt_of_beq sameKey between
      | succ index =>
          refine List.pairwise_cons.mpr ⟨fun later member below => ?_, ih restAscending here⟩
          rcases List.mem_or_eq_of_mem_set member with old | rfl
          · exact headFirst later old below
          · have atHead := headFirst current (List.mem_of_getElem? here)
            rcases Lawful.lt_or_lt (beq_self_of_beq sameKey) below with under | above
            · exact Lawful.not_lt_of_beq (Lawful.beq_symm sameKey) under
            · exact atHead above

/-- Sorting puts posts in order, since the total order of keys never contradicts the numeric one.
-/
theorem sorted_ascending (posts : List (Post κ)) : Ascending (sorted posts) := by
  have inOrder : (sorted posts).Pairwise (fun left right => sortsBefore left.key right.key) :=
    List.pairwise_mergeSort
      (fun first second third => Lawful.sortsBefore_trans first.key second.key third.key)
      (fun left right => Lawful.sortsBefore_total left.key right.key) posts
  exact inOrder.imp (fun before => Lawful.not_lt_of_sortsBefore before)

end Post

end SharedBoard
