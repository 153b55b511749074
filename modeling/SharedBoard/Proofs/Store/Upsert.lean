import SharedBoard.Proofs.OrderKey.Dense
import SharedBoard.Proofs.Store.Described
import SharedBoard.Proofs.Store.Placement

/-! An update of a post against its reference. Whether the post is replaced where it is, goes to
another place of its group, comes from another group or is new, the result is what is left of each
group without the post, and the post among what is left of its own.
-/

namespace SharedBoard

open OrderKey

variable {κ : Type} [OrderKey κ]

-----------------------------------------------------------------------------------------
-- Places that keys dictate
-----------------------------------------------------------------------------------------

namespace Post

variable {posts before after : List (Post κ)} {post current : Post κ}

/-- A post goes between posts that are not above it and posts that are. -/
theorem insertInto_append (notAbove : ∀ earlier ∈ before, ¬ post.key < earlier.key)
    (above : ∀ later ∈ after, post.key < later.key)
    : insertInto (before ++ after) post = before ++ post :: after := by
  have passes (earlier : Post κ) (member : earlier ∈ before)
      : (!decide (post.key < earlier.key)) = true := by
    simpa using notAbove earlier member
  have stops : after.takeWhile (fun other => !decide (post.key < other.key)) = []
      ∧ after.dropWhile (fun other => !decide (post.key < other.key)) = after := by
    cases after with
    | nil => exact ⟨rfl, rfl⟩
    | cons head rest => simp [above head List.mem_cons_self]
  rw [insertInto_eq, List.takeWhile_append_of_pos passes, List.dropWhile_append_of_pos passes,
    stops.1, stops.2, List.append_nil]

omit [OrderKey κ] in
/-- A list splits around each of its posts. -/
theorem split_of_getElem? {index : Nat} (here : posts[index]? = some post)
    : ∃ left right, posts = left ++ post :: right ∧ left.length = index := by
  obtain ⟨bound, rfl⟩ := List.getElem?_eq_some_iff.mp here
  refine ⟨posts.take index, posts.drop (index + 1), ?_, List.length_take_of_le bound.le⟩
  rw [List.getElem_cons_drop, List.take_append_drop]

theorem isStrictlyAscending_map_iff [Dense κ]
    : isStrictlyAscending (posts.map (·.key)) = true
      ↔ posts.Pairwise (fun low high => low.key < high.key) := by
  rw [isStrictlyAscending_iff, List.pairwise_map]

/-- The key for the place next to a post splits the posts there: it is above those before the place
and below those after it.
-/
theorem split_of_beside? [Dense κ] {left right : List (Post κ)} {before : Bool} {key : κ}
    (ascending : (left ++ post :: right).Pairwise (fun low high => low.key < high.key))
    (found : beside? ((left ++ post :: right).map (·.key)) left.length before = some key)
    : ∃ front back,
        (front, back) = (if before then (left, post :: right) else (left ++ [post], right))
        ∧ (∀ earlier ∈ front, earlier.key < key)
        ∧ ∀ later ∈ back, key < later.key := by
  have inOrder : (left.map (·.key) ++ post.key :: right.map (·.key)).Pairwise (· < ·) := by
    rw [← List.map_cons, ← List.map_append, List.pairwise_map]
    exact ascending
  rw [List.map_append, List.map_cons, ← List.length_map (·.key)] at found
  cases before with
  | true =>
      obtain ⟨low, high⟩ := between_of_beside?_before inOrder found
      obtain ⟨atPost, beyond⟩ := List.forall_mem_cons.mp high
      exact ⟨left, post :: right, rfl, List.forall_mem_map.mp low,
        List.forall_mem_cons.mpr ⟨atPost, List.forall_mem_map.mp beyond⟩⟩
  | false =>
      obtain ⟨low, high⟩ := between_of_beside?_after inOrder found
      obtain ⟨beyond, atPost⟩ := List.forall_mem_append.mp low
      exact ⟨left ++ [post], right, rfl,
        List.forall_mem_append.mpr ⟨List.forall_mem_map.mp beyond,
          List.forall_mem_singleton.mpr (atPost post.key List.mem_cons_self)⟩,
        List.forall_mem_map.mp high⟩

variable [Linear κ]

/-- A post of an ascending list is where its key belongs among the others, if no later one has an
equal key.
-/
theorem insertInto_of_ascending (ascending : Ascending (before ++ post :: after))
    (numbers : ∀ other ∈ before ++ post :: after, (other.key == other.key) = true)
    (apart : ∀ later ∈ after, (later.key == post.key) = false)
    : insertInto (before ++ after) post = before ++ post :: after := by
  obtain ⟨_, fromPost, across⟩ := List.pairwise_append.mp ascending
  refine insertInto_append (fun earlier member => across earlier member post List.mem_cons_self) ?_
  intro later member
  have notBelow := (List.pairwise_cons.mp fromPost).1 later member
  have order := Linear.lt_or_beq_or_gt (numbers later (by simp [member])) (numbers post (by simp))
  rcases order with below | equal | above
  · exact absurd below notBelow
  · rw [apart later member] at equal
    exact absurd equal Bool.false_ne_true
  · exact above

/-- A post in the place of one with its identifier is where its key belongs among the others, if the
list is ascending and no other post has an equal key.
-/
theorem set_eq_insertInto (distinct : (posts.map (·.id)).Nodup) {index : Nat}
    (here : posts[index]? = some current) (sameId : current.id = post.id)
    (ascending : Ascending (posts.set index post))
    (numbers : ∀ other ∈ posts, (other.key == other.key) = true)
    (number : (post.key == post.key) = true)
    (apart : ∀ other ∈ posts, other.id ≠ post.id → (other.key == post.key) = false)
    : posts.set index post = insertInto (posts.filter (·.id != post.id)) post := by
  obtain ⟨bound, _⟩ := List.getElem?_eq_some_iff.mp here
  have split : posts.set index post = posts.take index ++ post :: posts.drop (index + 1) := by
    rw [List.set_eq_take_append_cons_drop, if_pos bound]
  have others : posts.filter (·.id != post.id) = posts.take index ++ posts.drop (index + 1) := by
    rw [← sameId, ← eraseIdx_eq_filter distinct here, List.eraseIdx_eq_take_drop_succ]
  rw [split] at ascending ⊢
  rw [others]
  refine (insertInto_of_ascending ascending ?_ ?_).symm
  · intro other member
    rw [← split] at member
    rcases List.mem_or_eq_of_mem_set member with old | rfl
    · exact numbers other old
    · exact number
  · intro later member
    have kept : later ∈ posts.filter (·.id != post.id) := by
      rw [others]
      exact List.mem_append_right _ member
    obtain ⟨old, differs⟩ := List.mem_filter.mp kept
    exact apart later old (by simpa using differs)

/-- However a post comes among the posts of its group, it is then where its key belongs, if no other
post has an equal key.
-/
theorem Upserted.eq_insertInto (upserted : Upserted posts post after)
    (distinct : (posts.map (·.id)).Nodup) (ascending : Ascending posts)
    (numbers : ∀ other ∈ posts, (other.key == other.key) = true)
    (number : (post.key == post.key) = true)
    (apart : ∀ other ∈ posts, other.id ≠ post.id → (other.key == post.key) = false)
    : ∃ placed,
        (placed = post ∨ (placed ∈ posts ∧ (placed == post) = true))
        ∧ after = insertInto (posts.filter (·.id != placed.id)) placed := by
  cases upserted with
  | @kept current member equal =>
      obtain ⟨index, here⟩ := List.mem_iff_getElem?.mp member
      obtain ⟨bound, atIndex⟩ := List.getElem?_eq_some_iff.mp here
      obtain ⟨fields, sameKey⟩ := Post.beq_iff.mp equal
      have sameId : current.id = post.id := by rw [fields]
      have unchanged : posts.set index current = posts := by
        rw [← atIndex, List.set_getElem_self]
      refine ⟨current, .inr ⟨member, equal⟩, ?_⟩
      rw [← set_eq_insertInto distinct here rfl (unchanged.symm ▸ ascending) numbers
        (numbers current member) ?_, unchanged]
      intro other inPosts differs
      rw [Bool.eq_false_iff]
      intro tied
      rw [sameId] at differs
      have withPost := apart other inPosts differs
      rw [Lawful.beq_trans tied sameKey] at withPost
      exact Bool.noConfusion withPost
  | replaced here sameId sameKey =>
      have stays := set_ascending ascending here sameKey
      exact ⟨post, .inl rfl, set_eq_insertInto distinct here sameId stays numbers number apart⟩
  | placed => exact ⟨post, .inl rfl, rfl⟩

end Post

-----------------------------------------------------------------------------------------
-- The reference
-----------------------------------------------------------------------------------------

namespace GroupTable

/-- What an update of a post is meant to make of a table, group by group. The group that the post
names has it before the first other post with a greater key, or at the end. Another group that had
it has the other posts, and is gone if there are none. The rest is as it was.
-/
def upserted? (table : GroupTable κ) (post : Post κ) (id : GroupId) : Option (Group κ) :=
  (table.find? id).bind fun group =>
    let others := group.posts.filter (·.id != post.id)
    if id = post.group then
      let notAbove := fun other : Post κ => !decide (post.key < other.key)
      some { group with posts := others.takeWhile notAbove ++ post :: others.dropWhile notAbove }
    else if group.posts.any (·.id == post.id) then
      if others.isEmpty then none else some { group with posts := others }
    else
      some group

variable {before after : GroupTable κ} {post : Post κ}

theorem upserted?_own {group : Group κ} (found : before.find? post.group = some group)
    : before.upserted? post post.group
      = some { group with posts := post.insertInto (group.others post.id) } := by
  rw [upserted?, found, Option.bind_some, if_pos rfl, Post.insertInto_eq]
  rfl

/-- Outside the group that a post names the reference is what is left of each group. -/
theorem upserted?_of_ne (wellFormed : before.WellFormed) {id : GroupId}
    (elsewhere : id ≠ post.group)
    : before.upserted? post id = (before.find? id).bind (·.without? post.id) := by
  rw [upserted?]
  cases found : before.find? id with
  | none => rfl
  | some group =>
      have good := wellFormed.groups group (mem_toList_of_find? found)
      simp only [Option.bind_some, elsewhere, if_false]
      split
      · rfl
      · next absent =>
          refine (Group.without?_of_absent good.occupied fun old member sameId => ?_).symm
          exact absent (List.any_eq_true.mpr ⟨old, member, by simpa using sameId⟩)

/-- An upsert is as its reference, or as that of an equal post that was there before. -/
theorem Upserts.eq_reference [Linear κ] (upserts : before.Upserts after post)
    (wellFormed : before.WellFormed) {target : Group κ}
    (found : before.find? post.group = some target) (number : (post.key == post.key) = true)
    (apart : ∀ other ∈ target.posts, other.id ≠ post.id → (other.key == post.key) = false)
    : ∃ placed,
        (placed = post ∨ (placed ∈ target.posts ∧ (placed == post) = true))
        ∧ ∀ id, after.find? id = before.upserted? placed id := by
  obtain ⟨⟨group, posts, groupFound, foundAfter, upserted⟩, outside⟩ := upserts
  obtain rfl := Option.some.inj (found.symm.trans groupFound)
  have member := mem_toList_of_find? found
  have good := wellFormed.groups target member
  obtain ⟨placed, same, rfl⟩ :=
    upserted.eq_insertInto (wellFormed.distinct member) good.ascending good.numbers number apart
  have names : placed.id = post.id ∧ placed.group = post.group := by
    rcases same with rfl | ⟨_, equal⟩
    · exact ⟨rfl, rfl⟩
    · rw [(Post.beq_iff.mp equal).1]
      exact ⟨rfl, rfl⟩
  refine ⟨placed, same, fun id => ?_⟩
  by_cases own : id = placed.group
  · subst own
    rw [upserted?_own (names.2 ▸ found), names.2, foundAfter]
    rfl
  · rw [upserted?_of_ne wellFormed own, names.1]
    exact outside id (names.2 ▸ own)

end GroupTable

-----------------------------------------------------------------------------------------
-- Updates
-----------------------------------------------------------------------------------------

namespace Store

variable {store : Store κ}

omit [OrderKey κ] in
/-- Everybody who is typing on a post stops, and goes on otherwise. -/
theorem roster_typingStopped (store : Store κ) (post : PostId)
    : (store.typingStopped post).store.roster = store.roster.map (·.stopTypingOn post) := by
  unfold typingStopped
  split
  · next quiet =>
      rw [typingOn?, Option.isNone_map, Option.isNone_iff_eq_none, List.find?_eq_none] at quiet
      have stays (participant : Participant) (member : participant ∈ store.roster)
          : participant.stopTypingOn post = participant :=
        if_neg (by simpa using quiet participant member)
      exact ((List.map_congr_left stays).trans (List.map_id' _)).symm
  · rfl

omit [OrderKey κ] in
theorem roster_edit (store : Store κ) (change : Draft κ → Option (Draft κ))
    : (store.edit change).store.roster = store.roster := by
  unfold edit
  split <;> rfl

/-- A post that is updated comes to its group and leaves any other. -/
theorem postUpdated_upserts (wellFormed : store.groups.WellFormed) {post : Post κ} {group : Group κ}
    (found : store.group? post.group = some group)
    : store.groups.Upserts (store.postUpdated post).store.groups post := by
  rw [groups_postUpdated]
  have table : (⟨store.groups, []⟩ : Draft κ).table.WellFormed := wellFormed
  exact Draft.placePost?_upserts table found

/-- A table stays in good order when fields of a group change. -/
theorem table_groupPatched (wellFormed : store.groups.WellFormed) (patch : GroupPatch)
    : (store.groupPatched patch).store.groups.WellFormed := by
  cases found : store.group? patch.id with
  | none =>
      rw [groupPatched_of_absent found]
      exact wellFormed
  | some group =>
      by_cases same : (patch.applyTo group == group) = true
      · rw [groupPatched_of_beq found same]
        exact wellFormed
      · have member := GroupTable.mem_toList_of_find? found
        rw [groups_groupPatched_of_ne found same]
        exact wellFormed.insert_part member (patch.applyTo_id group) (List.Sublist.refl _)
          (wellFormed.groups group member).occupied

/-- A table stays in good order when a post of it is updated. -/
theorem table_postUpdated [Lawful κ] (wellFormed : store.groups.WellFormed) {post : Post κ}
    (number : (post.key == post.key) = true)
    : (store.postUpdated post).store.groups.WellFormed := by
  have table : (⟨store.groups, []⟩ : Draft κ).table.WellFormed := wellFormed
  rw [groups_postUpdated]
  cases edited : (⟨store.groups, []⟩ : Draft κ).placePost? post with
  | none => exact wellFormed
  | some next => exact (Draft.placePost?_placed table number edited).wellFormed

/-- An update of a post does what its reference says, or what it says of an equal post that was
there before. It leaves the groups alone if the board does not have the group that the post names,
and in any case nobody is typing on the post afterwards.
-/
theorem reduce_postUpdated_eq_reference [Linear κ] (wellFormed : store.groups.WellFormed)
    {post : Post κ} (number : (post.key == post.key) = true)
    (apart
      : ∀ group,
          store.group? post.group = some group
          → ∀ other ∈ group.posts, other.id ≠ post.id → (other.key == post.key) = false)
    (localUser : Option UserId) (old : Option (Post κ))
    : let after := (store.reduce localUser (.postUpdated post old)).store
      (store.group? post.group = none → after.groups = store.groups)
      ∧ (∀ target,
          store.group? post.group = some target
          → ∃ placed,
              (placed = post ∨ (placed ∈ target.posts ∧ (placed == post) = true))
              ∧ ∀ id, after.group? id = store.groups.upserted? placed id)
      ∧ after.roster = store.roster.map (·.stopTypingOn post.id)
      ∧ ∀ participant ∈ after.roster, participant.typing ≠ some post.id := by
  intro after
  have roster : after.roster = store.roster.map (·.stopTypingOn post.id) := by
    simp only [after, reduce, postUpdated, Update.andThen_store, roster_typingStopped, roster_edit]
  refine ⟨groups_postUpdated_of_absent, fun target found => ?_, roster, ?_⟩
  · exact (postUpdated_upserts wellFormed found).eq_reference wellFormed found number
      (apart target found)
  · rw [roster]
    intro participant member typing
    obtain ⟨former, _, rfl⟩ := List.mem_map.mp member
    unfold Participant.stopTypingOn at typing
    split at typing
    · simp at typing
    · next other => exact other typing

/-- The only post of the first group goes before the post of the second one. -/
theorem reduce_postUpdated_eq_reference_transfer
    : let before := ofGroups Sample.pair
      let post := Sample.post 11 20 0.5
      let after := (before.reduce none (.postUpdated post none)).store
      ∃ placed,
        (placed == post) = true
        ∧ (∀ id, after.group? id = before.groups.upserted? placed id)
        ∧ before.groups.upserted? post (.ofNat 10) = none
        ∧ (before.groups.upserted? post (.ofNat 20)).map (·.posts.map (·.id))
          = some [.ofNat 11, .ofNat 21] := by
  intro before post after
  have wellFormed : before.WellFormed :=
    Describable.wellFormed ⟨by decide, by decide, by decide⟩ (by decide)
  have number : (post.key == post.key) = true := by decide
  have found : before.group? post.group
      = some (Sample.group 20 2 [Sample.post 21 20 1.0]) := by
    simp only [before, Sample.ofGroups_pair]
    rfl
  obtain ⟨_, placed, _, _⟩ := reduce_postUpdated_eq_reference wellFormed.table number
    (by
      intro group atGroup other member _
      obtain rfl := Option.some.inj (found.symm.trans atGroup)
      obtain rfl := List.mem_singleton.mp member
      decide)
    none none
  obtain ⟨placed, same, reference⟩ := placed _ found
  refine ⟨placed, ?_, reference, ?_, ?_⟩
  · rcases same with rfl | ⟨_, equal⟩
    · exact Post.beq_iff.mpr ⟨rfl, number⟩
    · exact equal
  · simp only [before, Sample.ofGroups_pair]
    decide +kernel
  · simp only [before, Sample.ofGroups_pair]
    decide +kernel

end Store

end SharedBoard
