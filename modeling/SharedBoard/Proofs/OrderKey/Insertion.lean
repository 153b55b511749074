import SharedBoard.Proofs.Store.Upsert

/-! Keys for insertions. The key for the place next to a post is worked out from keys that are in
the list. Over exact rationals it is strictly between the keys on both sides of the place, so that
a post with it is inserted there, and posts stay in strict order however many are inserted.
-/

namespace SharedBoard

open OrderKey

variable {κ : Type} [OrderKey κ]

-----------------------------------------------------------------------------------------
-- Which keys are looked up
-----------------------------------------------------------------------------------------

namespace OrderKey

/-- The key for the place next to a target, with a proof for every key that is looked up that its
index is in range.
-/
def keyBeside (keys : List κ) (target : Fin keys.length) (before : Bool) : κ :=
  if before = true ∧ target.val = 0 then
    below (keys.get target)
  else if highest : before = false ∧ target.val + 1 = keys.length then
    above (keys.get target)
  else if side : before = true then
    between (keys.get ⟨target.val - 1, by omega⟩) (keys.get target)
  else
    between (keys.get target) (keys.get ⟨target.val + 1, by
      have notLast : target.val + 1 ≠ keys.length := fun last =>
        highest ⟨Bool.eq_false_iff.mpr side, last⟩
      omega⟩)

/-- There is a key for the place next to every target in range, and none for any other; no key
beyond the ends of the list is looked up for it.
-/
theorem beside?_eq_keyBeside (keys : List κ) (target : Nat) (before : Bool)
    : beside? keys target before
      = if inRange : target < keys.length then some (keyBeside keys ⟨target, inRange⟩ before)
        else none := by
  by_cases inRange : target < keys.length
  · rw [dif_pos inRange, beside?, gap?, List.getElem?_eq_getElem inRange]
    cases before with
    | true =>
        cases target with
        | zero => simp [keyBeside, Gap.key]
        | succ previous =>
            have there : previous < keys.length := by omega
            simp [List.getElem?_eq_getElem there, keyBeside, Gap.key]
    | false =>
        by_cases last : target + 1 = keys.length
        · simp [last, keyBeside, Gap.key]
        · have there : target + 1 < keys.length := by omega
          simp [List.getElem?_eq_getElem there, last, keyBeside, Gap.key]
  · rw [dif_neg inRange, beside?, gap?, List.getElem?_eq_none (by omega)]
    rfl

end OrderKey

-----------------------------------------------------------------------------------------
-- One insertion
-----------------------------------------------------------------------------------------

namespace Post

/-- What a key for the place next to a post is good for. It is strictly between the keys of the post
and of its neighbour on that side, and no post has it. The index for it is that of the place, and a
post that has it is inserted right before the target or right after it, in strict order.
-/
structure FitsBeside (posts : List (Post κ)) (target : Nat) (post : Post κ) (before : Bool)
    (key : κ) : Prop where
  below : before = true → key < post.key
  above_previous
    : before = true
      → ∀ previous place, target = place + 1 → posts[place]? = some previous → previous.key < key
  above : before = false → post.key < key
  below_next : before = false → ∀ next, posts[target + 1]? = some next → key < next.key
  fresh : ∀ other ∈ posts, other.key ≠ key
  index : insertionIndex (posts.map (·.key)) key = if before then target else target + 1
  inserted
    : ∀ added,
        added.key = key
        → insertInto posts added
          = posts.take target ++ (if before then [added, post] else [post, added])
            ++ posts.drop (target + 1)
  ascending
    : ∀ added,
        added.key = key → isStrictlyAscending ((insertInto posts added).map (·.key)) = true

variable [Dense κ] {left right : List (Post κ)} {post added : Post κ} {before : Bool} {key : κ}

/-- The index for a key above the first posts and below the others is their number. -/
theorem insertionIndex_append {front back : List (Post κ)}
    (low : ∀ earlier ∈ front, earlier.key < key) (high : ∀ later ∈ back, key < later.key)
    : insertionIndex ((front ++ back).map (·.key)) key = front.length := by
  have passed : (front.map (·.key)).findIdx (fun other => decide (key < other)) = front.length := by
    rw [List.findIdx_map]
    refine List.findIdx_eq_length.mpr fun earlier member => ?_
    simpa using Lawful.lt_asymm (low earlier member)
  rw [insertionIndex, List.map_append, List.findIdx_append, passed]
  cases back with
  | nil => simp
  | cons next rest => simp [List.findIdx_cons, high next List.mem_cons_self]

omit [Dense κ] in
/-- A post between those below it and those above it is in strict order with them. -/
theorem pairwise_insert {front back : List (Post κ)}
    (ascending : (front ++ back).Pairwise (fun low high => low.key < high.key))
    (low : ∀ earlier ∈ front, earlier.key < added.key)
    (high : ∀ later ∈ back, added.key < later.key)
    : (front ++ added :: back).Pairwise (fun low high => low.key < high.key) := by
  obtain ⟨inFront, inBack, across⟩ := List.pairwise_append.mp ascending
  refine List.pairwise_append.mpr ⟨inFront, List.pairwise_cons.mpr ⟨high, inBack⟩, ?_⟩
  intro earlier member
  exact List.forall_mem_cons.mpr ⟨low earlier member, across earlier member⟩

/-- Over keys with room between them, the key for the place next to a post is good for it. -/
theorem fitsBeside_of_beside?
    (ascending : (left ++ post :: right).Pairwise (fun low high => low.key < high.key))
    (found : beside? ((left ++ post :: right).map (·.key)) left.length before = some key)
    : FitsBeside (left ++ post :: right) left.length post before key := by
  obtain ⟨front, back, sides, low, high⟩ := split_of_beside? ascending found
  have split : left ++ post :: right = front ++ back := by
    cases before <;> obtain ⟨rfl, rfl⟩ := Prod.mk.inj sides <;> simp
  have inserted (added : Post κ) (own : added.key = key)
      : insertInto (left ++ post :: right) added = front ++ added :: back := by
    subst own
    rw [split]
    exact insertInto_append (fun earlier member => Lawful.lt_asymm (low earlier member)) high
  constructor
  case below =>
    rintro rfl
    obtain ⟨rfl, rfl⟩ := Prod.mk.inj sides
    exact high post List.mem_cons_self
  case above_previous =>
    rintro rfl previous place next there
    obtain ⟨rfl, rfl⟩ := Prod.mk.inj sides
    rw [List.getElem?_append_left (by omega)] at there
    exact low previous (List.mem_of_getElem? there)
  case above =>
    rintro rfl
    obtain ⟨rfl, rfl⟩ := Prod.mk.inj sides
    exact low post (by simp)
  case below_next =>
    rintro rfl next there
    obtain ⟨rfl, rfl⟩ := Prod.mk.inj sides
    rw [List.getElem?_append_right (by omega), Nat.add_sub_cancel_left,
      List.getElem?_cons_succ] at there
    exact high next (List.mem_of_getElem? there)
  case fresh =>
    rintro other member rfl
    rw [split] at member
    rcases List.mem_append.mp member with earlier | later
    · exact Lawful.lt_asymm (low other earlier) (low other earlier)
    · exact Lawful.lt_asymm (high other later) (high other later)
  case index =>
    rw [split, insertionIndex_append low high]
    cases before <;> obtain ⟨rfl, rfl⟩ := Prod.mk.inj sides <;> simp
  case inserted =>
    intro added own
    rw [inserted added own]
    cases before <;> obtain ⟨rfl, rfl⟩ := Prod.mk.inj sides <;> simp
  case ascending =>
    intro added own
    rw [inserted added own, isStrictlyAscending_map_iff]
    exact pairwise_insert (split ▸ ascending) (own ▸ low) (own ▸ high)

-----------------------------------------------------------------------------------------
-- Any number of insertions
-----------------------------------------------------------------------------------------

/-- A post that is to be inserted next to the one at an index. -/
structure Insertion (κ : Type) where
  added : Post κ
  target : Nat
  before : Bool

/-- The posts after an insertion, for which the post gets the key for its place. Without a post to
be inserted next to there is none.
-/
def inserted (posts : List (Post κ)) (insertion : Insertion κ) : List (Post κ) :=
  match beside? (posts.map (·.key)) insertion.target insertion.before with
  | some key => insertInto posts { insertion.added with key := key }
  | none => posts

/-- There is a key for the place next to every post of a list in strict order, and it is good. -/
theorem exists_fitsBeside {posts : List (Post κ)} {target : Nat}
    (ascending : isStrictlyAscending (posts.map (·.key)) = true)
    (here : posts[target]? = some post) (before : Bool)
    : ∃ key,
        beside? (posts.map (·.key)) target before = some key
        ∧ FitsBeside posts target post before key := by
  have inRange := (List.getElem?_eq_some_iff.mp here).1
  have found := beside?_eq_keyBeside (posts.map (·.key)) target before
  rw [dif_pos (by simpa using inRange)] at found
  refine ⟨_, found, ?_⟩
  obtain ⟨left, right, rfl, rfl⟩ := split_of_getElem? here
  exact fitsBeside_of_beside? (isStrictlyAscending_map_iff.mp ascending) found

/-- An insertion keeps strict order, since the key is good for the place. -/
theorem inserted_ascending {posts : List (Post κ)}
    (ascending : isStrictlyAscending (posts.map (·.key)) = true) (insertion : Insertion κ)
    : isStrictlyAscending ((inserted posts insertion).map (·.key)) = true := by
  unfold inserted
  split
  · next key found =>
      rw [beside?_eq_keyBeside] at found
      split at found
      · next inRange =>
          have here := List.getElem?_eq_getElem (by simpa using inRange : _ < posts.length)
          obtain ⟨other, same, fits⟩ := exists_fitsBeside ascending here insertion.before
          rw [beside?_eq_keyBeside, dif_pos inRange, found] at same
          obtain rfl := Option.some.inj same
          exact fits.ascending _ rfl
      · simp at found
  · exact ascending

/-- The key for the place next to a post is worked out from keys of the list for every target in
range, and from none beyond its ends; for other targets there is no key. In a list of exact
rationals in strict order the key is strictly between those of the target and of its neighbour on
that side, so that a post with it is inserted right there, and however many posts are inserted, next
to whichever others, the list stays in strict order.
-/
theorem keys_fall_between_neighbours
    : (∀ (κ : Type) [OrderKey κ] (keys : List κ) (target : Nat) (before : Bool),
        beside? keys target before
        = if inRange : target < keys.length then some (keyBeside keys ⟨target, inRange⟩ before)
          else none)
      ∧ ∀ posts : List (Post Rat),
          isStrictlyAscending (posts.map (·.key)) = true
          → (∀ target post before,
              posts[target]? = some post
              → ∃ key,
                  beside? (posts.map (·.key)) target before = some key
                  ∧ FitsBeside posts target post before key)
            ∧ ∀ insertions : List (Insertion Rat),
                isStrictlyAscending ((insertions.foldl inserted posts).map (·.key)) = true := by
  refine ⟨fun κ _ => beside?_eq_keyBeside, fun posts ascending => ⟨?_, fun insertions => ?_⟩⟩
  · intro target post before here
    exact exists_fitsBeside ascending here before
  · induction insertions generalizing posts with
    | nil => exact ascending
    | cons insertion rest ih => exact ih _ (inserted_ascending ascending insertion)

/-- A post goes before one whose key is zero, another one after that, and a third one has no place.
-/
theorem keys_fall_between_neighbours_aroundZero
    : let post (key : Rat) : Post Rat := { (default : Post Rat) with key := key }
      let posts := [post 0, post 1]
      let insertions : List (Insertion Rat) :=
        [⟨post 9, 0, true⟩, ⟨post 9, 1, false⟩, ⟨post 9, 4, true⟩]
      (∃ key,
        beside? [0, 1] 1 true = some key ∧ FitsBeside posts 1 (post 1) true key)
      ∧ isStrictlyAscending ((insertions.foldl inserted posts).map (·.key)) = true
      ∧ (insertions.foldl inserted posts).map (·.key) = [-1, 0, 1 / 2, 1] := by
  intro post posts insertions
  obtain ⟨_, between⟩ := keys_fall_between_neighbours
  obtain ⟨fits, stays⟩ := between posts (by decide)
  exact ⟨fits 1 (post 1) true rfl, stays insertions, by decide +kernel⟩

end Post

end SharedBoard
