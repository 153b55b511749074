import Mathlib.Data.List.Perm.Basic
import SharedBoard.Proofs.Store.WellFormed
import SharedBoard.Store.Draft

/-! Edits of a table in good order. An edit is described by the posts that it leaves on the table;
where they stand follows from the good order of the result.
-/

namespace SharedBoard

variable {κ : Type} [OrderKey κ]

/-- A table in good order that has the posts of another one except that with an identifier. -/
structure GroupTable.Withdrawn (before after : GroupTable κ) (post : PostId) : Prop where
  wellFormed : after.WellFormed
  mem_posts : ∀ old, old ∈ after.posts ↔ old ∈ before.posts ∧ old.id ≠ post

/-- A table in good order that has a post instead of the one with its identifier, and otherwise the
posts of another table.
-/
structure GroupTable.Placed (before after : GroupTable κ) (post : Post κ) : Prop where
  wellFormed : after.WellFormed
  mem_posts : ∀ old, old ∈ after.posts ↔ old = post ∨ (old ∈ before.posts ∧ old.id ≠ post.id)

namespace GroupTable

variable {table before between after : GroupTable κ}

theorem Withdrawn.placed {post : Post κ} (withdrawn : before.Withdrawn between post.id)
    (placed : between.Placed after post)
    : before.Placed after post := by
  refine ⟨placed.wellFormed, fun old => ?_⟩
  rw [placed.mem_posts, withdrawn.mem_posts, and_assoc, and_self]

namespace WellFormed

/-- The posts of one group are those of the table that name it. -/
theorem mem_group_posts (wellFormed : table.WellFormed) {group : Group κ}
    (member : group ∈ table.toList) {post : Post κ}
    : post ∈ group.posts ↔ post ∈ table.posts ∧ post.group = group.id := by
  constructor
  · intro inGroup
    exact ⟨GroupTable.mem_posts.mpr ⟨group, member, inGroup⟩,
      (wellFormed.groups group member).named post inGroup⟩
  · rintro ⟨inTable, names⟩
    obtain ⟨other, found, inOther⟩ := wellFormed.group_of_mem_posts inTable
    rw [names, mem_toList_iff.mp member] at found
    exact Option.some.inj found ▸ inOther

/-- The posts after an insertion are those of the new group and those that name other groups. -/
theorem mem_posts_insert (wellFormed : table.WellFormed) {group : Group κ} {post : Post κ}
    : post ∈ (table.insert group).posts
      ↔ post ∈ group.posts ∨ (post ∈ table.posts ∧ post.group ≠ group.id) := by
  rw [GroupTable.mem_posts]
  constructor
  · rintro ⟨member, inTable, inGroup⟩
    rcases mem_toList_insert.mp inTable with rfl | ⟨old, other⟩
    · exact .inl inGroup
    · obtain ⟨found, names⟩ := (wellFormed.mem_group_posts old).mp inGroup
      exact .inr ⟨found, names ▸ other⟩
  · rintro (inGroup | ⟨found, other⟩)
    · exact ⟨group, mem_toList_insert.mpr (.inl rfl), inGroup⟩
    · obtain ⟨home, atHome, inHome⟩ := wellFormed.group_of_mem_posts found
      rw [← id_of_find? atHome] at other
      exact ⟨home, mem_toList_insert.mpr (.inr ⟨mem_toList_of_find? atHome, other⟩), inHome⟩

/-- The posts after an erasure are those that name other groups. -/
theorem mem_posts_erase (wellFormed : table.WellFormed) {id : GroupId} {post : Post κ}
    : post ∈ (table.erase id).posts ↔ post ∈ table.posts ∧ post.group ≠ id := by
  rw [GroupTable.mem_posts]
  constructor
  · rintro ⟨member, inTable, inGroup⟩
    obtain ⟨old, other⟩ := mem_toList_erase.mp inTable
    obtain ⟨found, names⟩ := (wellFormed.mem_group_posts old).mp inGroup
    exact ⟨found, names ▸ other⟩
  · rintro ⟨found, other⟩
    obtain ⟨home, atHome, inHome⟩ := wellFormed.group_of_mem_posts found
    rw [← id_of_find? atHome] at other
    exact ⟨home, mem_toList_erase.mpr ⟨mem_toList_of_find? atHome, other⟩, inHome⟩

/-- Without the post at an index, a group has its posts with other identifiers. -/
theorem mem_eraseIdx (wellFormed : table.WellFormed) {group : Group κ}
    (member : group ∈ table.toList) {index : Nat} {current post : Post κ}
    (here : group.posts[index]? = some current)
    : post ∈ group.posts.eraseIdx index ↔ post ∈ group.posts ∧ post.id ≠ current.id := by
  obtain ⟨bound, rfl⟩ := List.getElem?_eq_some_iff.mp here
  have perm := List.getElem_cons_eraseIdx_perm bound
  have distinct := ((perm.map (·.id)).nodup_iff.mpr (wellFormed.distinct member))
  rw [List.map_cons, List.nodup_cons, List.mem_map] at distinct
  rw [← perm.mem_iff, List.mem_cons]
  constructor
  · intro kept
    exact ⟨.inr kept, fun same => distinct.1 ⟨post, kept, same⟩⟩
  · rintro ⟨rfl | kept, differs⟩
    · exact absurd rfl differs
    · exact kept

/-- Posts of a table with the identifier of a post of a group are that post. -/
theorem group_of_id_eq (wellFormed : table.WellFormed) {group : Group κ}
    (member : group ∈ table.toList) {current old : Post κ} (inGroup : current ∈ group.posts)
    (inTable : old ∈ table.posts) (same : old.id = current.id)
    : old.group = group.id := by
  obtain ⟨found, names⟩ := (wellFormed.mem_group_posts member).mp inGroup
  rw [wellFormed.eq_of_post_id_eq inTable found same, names]

/-- A post is withdrawn when its group goes away or keeps the others. -/
theorem withdrawn_of_eraseIdx (wellFormed : table.WellFormed) {group : Group κ}
    (member : group ∈ table.toList) {index : Nat} {current : Post κ}
    (here : group.posts[index]? = some current)
    : table.Withdrawn
        (if (group.posts.eraseIdx index).isEmpty then table.erase group.id
          else table.insert { group with posts := group.posts.eraseIdx index })
        current.id := by
  have others (old : Post κ) (inTable : old ∈ table.posts) (elsewhere : old.group ≠ group.id)
      : old.id ≠ current.id := fun same =>
    elsewhere (wellFormed.group_of_id_eq member (List.mem_of_getElem? here) inTable same)
  split
  · next none =>
      refine ⟨wellFormed.erase group.id, fun old => ?_⟩
      rw [wellFormed.mem_posts_erase]
      refine and_congr_right fun inTable => ⟨others old inTable, fun differs names => ?_⟩
      have inGroup := (wellFormed.mem_group_posts member).mpr ⟨inTable, names⟩
      have kept := (wellFormed.mem_eraseIdx member here).mpr ⟨inGroup, differs⟩
      rw [List.isEmpty_iff.mp none] at kept
      exact List.not_mem_nil kept
  · next some =>
      refine ⟨wellFormed.insert_part member rfl (List.eraseIdx_sublist ..) (by simpa using some),
        fun old => ?_⟩
      rw [wellFormed.mem_posts_insert, wellFormed.mem_eraseIdx member here,
        wellFormed.mem_group_posts member]
      constructor
      · rintro (⟨⟨inTable, _⟩, differs⟩ | ⟨inTable, elsewhere⟩)
        · exact ⟨inTable, differs⟩
        · exact ⟨inTable, others old inTable elsewhere⟩
      · rintro ⟨inTable, differs⟩
        by_cases names : old.group = group.id
        · exact .inl ⟨⟨inTable, names⟩, differs⟩
        · exact .inr ⟨inTable, names⟩

/-- A post is placed when its group keeps its posts with other identifiers and gets the post where
its key belongs.
-/
theorem placed_of_perm (wellFormed : table.WellFormed) {group : Group κ}
    (member : group ∈ table.toList) {post : Post κ} {kept posts : List (Post κ)}
    (perm : posts.Perm (post :: kept)) (ascending : Post.Ascending posts)
    (named : post.group = group.id) (number : (post.key == post.key) = true)
    (mem_kept : ∀ old, old ∈ kept ↔ old ∈ group.posts ∧ old.id ≠ post.id)
    (keptDistinct : (kept.map (·.id)).Nodup)
    (home : ∀ old ∈ table.posts, old.id = post.id → old.group = group.id)
    : table.Placed (table.insert { group with posts := posts }) post := by
  have good := wellFormed.groups group member
  have mem (old : Post κ)
      : old ∈ posts ↔ old = post ∨ (old ∈ group.posts ∧ old.id ≠ post.id) := by
    rw [perm.mem_iff, List.mem_cons, mem_kept]
  refine ⟨wellFormed.insert ⟨?_, ?_, ?_, ascending⟩ ?_ ?_, fun old => ?_⟩
  · exact List.ne_nil_of_mem ((mem post).mpr (.inl rfl))
  · intro old inPosts
    rcases (mem old).mp inPosts with rfl | ⟨inGroup, _⟩
    · exact named
    · exact good.named old inGroup
  · intro old inPosts
    rcases (mem old).mp inPosts with rfl | ⟨inGroup, _⟩
    · exact number
    · exact good.numbers old inGroup
  · rw [(perm.map (·.id)).nodup_iff, List.map_cons, List.nodup_cons]
    refine ⟨fun again => ?_, keptDistinct⟩
    obtain ⟨old, inKept, same⟩ := List.mem_map.mp again
    exact ((mem_kept old).mp inKept).2 same
  · intro other otherMember differs old inPosts stranger inOther same
    obtain ⟨inTable, names⟩ := (wellFormed.mem_group_posts otherMember).mp inOther
    rcases (mem old).mp inPosts with rfl | ⟨inGroup, _⟩
    · exact differs (names.symm.trans (home stranger inTable same.symm))
    · exact differs
        (names.symm.trans (wellFormed.group_of_id_eq member inGroup inTable same.symm))
  · rw [wellFormed.mem_posts_insert, mem, wellFormed.mem_group_posts member]
    constructor
    · rintro ((rfl | ⟨⟨inTable, _⟩, differs⟩) | ⟨inTable, elsewhere⟩)
      · exact .inl rfl
      · exact .inr ⟨inTable, differs⟩
      · exact .inr ⟨inTable, fun same => elsewhere (home old inTable same)⟩
    · rintro (rfl | ⟨inTable, differs⟩)
      · exact .inl (.inl rfl)
      · by_cases names : old.group = group.id
        · exact .inl (.inr ⟨⟨inTable, names⟩, differs⟩)
        · exact .inr ⟨inTable, names⟩

end WellFormed

end GroupTable

/-- A group of one post that names it is normalized. -/
theorem Group.normalized_singleton {group : Group κ} {post : Post κ} (only : group.posts = [post])
    (named : post.group = group.id)
    : group.normalized = group := by
  obtain ⟨⟩ := group
  obtain ⟨⟩ := post
  simp only at only named
  subst only named
  simp only [Group.normalized, Post.sorted, List.mergeSort_singleton, List.map_cons, List.map_nil]

-----------------------------------------------------------------------------------------
-- Edits of single posts
-----------------------------------------------------------------------------------------

namespace Draft

variable {draft next : Draft κ}

omit [OrderKey κ] in
/-- A post that has a place with one hint has one with any other. -/
theorem locate?_isSome {post : PostId} {hint : Option GroupId} {place : GroupId × Nat}
    (located : draft.table.locate? post hint = some place) (other : Option GroupId)
    : (draft.table.locate? post other).isSome := by
  rw [Option.isSome_iff_ne_none]
  intro absent
  rw [GroupTable.locate?_eq_none_iff.mpr (GroupTable.locate?_eq_none_iff.mp absent)] at located
  simp at located

omit [OrderKey κ] in
/-- A post that has a place can be removed. -/
theorem removePost?_isSome {post : PostId} {hint : Option GroupId}
    (located : (draft.table.locate? post hint).isSome)
    : (draft.removePost? post hint).isSome := by
  obtain ⟨⟨id, index⟩, place⟩ := Option.isSome_iff_exists.mp located
  obtain ⟨group, _, found, _⟩ := GroupTable.exists_of_locate? place
  simp only [removePost?, place, found, Option.bind_eq_bind, Option.bind_some]
  split <;> rfl

/-- Removing a post withdraws it. -/
theorem removePost?_withdrawn (wellFormed : draft.table.WellFormed) {post : PostId}
    {hint : Option GroupId} (edited : draft.removePost? post hint = some next)
    : draft.table.Withdrawn next.table post := by
  simp only [removePost?, Option.bind_eq_bind, Option.bind_eq_some_iff] at edited
  obtain ⟨⟨id, index⟩, place, group, found, edited⟩ := edited
  obtain ⟨other, current, otherFound, here, rfl⟩ := GroupTable.exists_of_locate? place
  obtain rfl := Option.some.inj (found.symm.trans otherFound)
  obtain rfl := GroupTable.id_of_find? otherFound
  have withdrawn :=
    wellFormed.withdrawn_of_eraseIdx (GroupTable.mem_toList_of_find? otherFound) here
  split at edited
  · next none =>
      obtain rfl := Option.some.inj edited
      rwa [if_pos none] at withdrawn
  · next some =>
      obtain rfl := Option.some.inj edited
      rwa [if_neg some] at withdrawn

variable [OrderKey.Lawful κ]

/-- Inserting a post that is not on the table places it. -/
theorem insertPost?_placed (wellFormed : draft.table.WellFormed) {post : Post κ}
    (number : (post.key == post.key) = true)
    (absent : ∀ old ∈ draft.table.posts, old.id ≠ post.id)
    (edited : draft.insertPost? post = some next)
    : draft.table.Placed next.table post := by
  obtain ⟨group, found, rfl⟩ := Option.map_eq_some_iff.mp edited
  have member := GroupTable.mem_toList_of_find? found
  have good := wellFormed.groups group member
  refine wellFormed.placed_of_perm member (Post.insertInto_perm group.posts post)
    (Post.insertInto_ascending good.ascending good.numbers number)
    (GroupTable.id_of_find? found).symm number ?_ (wellFormed.distinct member) ?_
  · intro old
    refine ⟨fun inGroup => ⟨inGroup, ?_⟩, And.left⟩
    exact absent old ((wellFormed.mem_group_posts member).mp inGroup).1
  · intro old inTable same
    exact absurd same (absent old inTable)

/-- Replacing a post in the group that it names places it. -/
theorem replacePost?_placed (wellFormed : draft.table.WellFormed) {group : Group κ}
    (found : draft.table.find? group.id = some group) {index : Nat} {current post : Post κ}
    (here : group.posts[index]? = some current) (same : current.id = post.id)
    (named : post.group = group.id) (number : (post.key == post.key) = true)
    (edited : draft.replacePost? group index post = some next)
    : draft.table.Placed next.table post := by
  have member := GroupTable.mem_toList_of_find? found
  have good := wellFormed.groups group member
  obtain ⟨bound, atIndex⟩ := List.getElem?_eq_some_iff.mp here
  have others (old : Post κ)
      : old ∈ group.posts.eraseIdx index ↔ old ∈ group.posts ∧ old.id ≠ post.id := by
    rw [wellFormed.mem_eraseIdx member here, same]
  have keptDistinct : ((group.posts.eraseIdx index).map (·.id)).Nodup :=
    (wellFormed.distinct member).sublist ((List.eraseIdx_sublist ..).map _)
  have home (old : Post κ) (inTable : old ∈ draft.table.posts) (one : old.id = post.id)
      : old.group = group.id :=
    wellFormed.group_of_id_eq member (List.mem_of_getElem? here) inTable (one.trans same.symm)
  simp only [replacePost?, here, Option.bind_some] at edited
  split at edited
  · simp at edited
  · split at edited
    · next sameKey =>
        obtain rfl := Option.some.inj edited
        exact wellFormed.placed_of_perm member (List.set_perm_cons_eraseIdx bound post)
          (Post.set_ascending good.ascending here sameKey) named number others keptDistinct home
    · obtain rfl := Option.some.inj edited
      refine wellFormed.placed_of_perm member (Post.insertInto_perm _ post) ?_ named number others
        keptDistinct home
      refine Post.insertInto_ascending (good.ascending.sublist (List.eraseIdx_sublist ..)) ?_ number
      intro old kept
      exact good.numbers old (List.mem_of_mem_eraseIdx kept)

/-- Placing a post that is a number places it, wherever it was before. -/
theorem placePost?_placed (wellFormed : draft.table.WellFormed) {post : Post κ}
    (number : (post.key == post.key) = true) (edited : draft.placePost? post = some next)
    : draft.table.Placed next.table post := by
  unfold placePost? at edited
  split at edited
  · simp at edited
  · next target found =>
      have own := GroupTable.id_of_find? found
      split at edited
      · next absent =>
          exact insertPost?_placed wellFormed number (GroupTable.locate?_eq_none_iff.mp absent)
            edited
      · next id index place =>
          split at edited
          · next inTarget =>
              obtain ⟨group, current, groupFound, here, same⟩ :=
                GroupTable.exists_of_locate? place
              rw [inTarget, found] at groupFound
              obtain rfl := Option.some.inj groupFound
              exact replacePost?_placed wellFormed (own.symm ▸ found) here same own.symm number
                edited
          · obtain ⟨removed, removedEq⟩ := Option.isSome_iff_exists.mp
              (removePost?_isSome (locate?_isSome place (some id)))
            rw [removedEq, Option.getD_some] at edited
            have withdrawn := removePost?_withdrawn wellFormed removedEq
            refine withdrawn.placed (insertPost?_placed withdrawn.wellFormed number ?_ edited)
            intro old inRemoved
            exact ((withdrawn.mem_posts old).mp inRemoved).2

-----------------------------------------------------------------------------------------
-- Whole groups
-----------------------------------------------------------------------------------------

omit [OrderKey.Lawful κ] in
/-- Withdrawing a post leaves the posts with other identifiers, and those of the group to keep. -/
theorem withdrawPost_spec (wellFormed : draft.table.WellFormed) (keep : GroupId) (post : PostId)
    : (draft.withdrawPost keep post).table.WellFormed
      ∧ ∀ old,
          old ∈ (draft.withdrawPost keep post).table.posts
          ↔ old ∈ draft.table.posts ∧ (old.id = post → old.group = keep) := by
  unfold withdrawPost
  split
  · next id index place =>
      obtain ⟨group, current, found, here, rfl⟩ := GroupTable.exists_of_locate? place
      have member := GroupTable.mem_toList_of_find? found
      have own := GroupTable.id_of_find? found
      have home (old : Post κ) (inTable : old ∈ draft.table.posts) (same : old.id = current.id)
          : old.group = id :=
        own ▸ wellFormed.group_of_id_eq member (List.mem_of_getElem? here) inTable same
      split
      · next kept =>
          refine ⟨wellFormed, fun old => (and_iff_left_of_imp ?_).symm⟩
          intro inTable same
          exact kept ▸ home old inTable same
      · next elsewhere =>
          obtain ⟨removed, removedEq⟩ := Option.isSome_iff_exists.mp
            (removePost?_isSome (locate?_isSome place (some id)))
          rw [removedEq, Option.getD_some]
          have withdrawn := removePost?_withdrawn wellFormed removedEq
          refine ⟨withdrawn.wellFormed, fun old => ?_⟩
          rw [withdrawn.mem_posts]
          refine and_congr_right fun inTable => ⟨fun differs same => absurd same differs, ?_⟩
          intro stays same
          exact elsewhere ((home old inTable same).symm.trans (stays same))
  · next absent =>
      refine ⟨wellFormed, fun old => (and_iff_left_of_imp ?_).symm⟩
      intro inTable same
      exact absurd same (GroupTable.locate?_eq_none_iff.mp absent old inTable)

omit [OrderKey.Lawful κ] in
/-- Withdrawing several posts leaves the posts with other identifiers, and those of the group to
keep, by induction over the posts.
-/
theorem withdrawPosts_spec (wellFormed : draft.table.WellFormed) (keep : GroupId)
    (posts : List (Post κ))
    : (posts.foldl (fun draft post => draft.withdrawPost keep post.id) draft).table.WellFormed
      ∧ ∀ old,
          old ∈ (posts.foldl (fun draft post => draft.withdrawPost keep post.id) draft).table.posts
          ↔ old ∈ draft.table.posts ∧ ∀ post ∈ posts, old.id = post.id → old.group = keep := by
  induction posts generalizing draft with
  | nil => simp [wellFormed]
  | cons head rest ih =>
      obtain ⟨headWellFormed, headPosts⟩ := withdrawPost_spec wellFormed keep head.id
      obtain ⟨restWellFormed, restPosts⟩ := ih headWellFormed
      refine ⟨restWellFormed, fun old => ?_⟩
      rw [List.foldl_cons, restPosts, headPosts, List.forall_mem_cons, and_assoc]

/-- Placing several posts that are numbers keeps a table in good order, by induction over them. -/
theorem placePosts_wellFormed (wellFormed : draft.table.WellFormed) (posts : List (Post κ))
    (numbers : ∀ post ∈ posts, (post.key == post.key) = true)
    : (posts.foldl (fun draft post => (draft.placePost? post).getD draft)
        draft).table.WellFormed := by
  induction posts generalizing draft with
  | nil => exact wellFormed
  | cons head rest ih =>
      obtain ⟨headNumber, restNumbers⟩ := List.forall_mem_cons.mp numbers
      rw [List.foldl_cons]
      refine ih ?_ restNumbers
      cases edited : draft.placePost? head with
      | none => exact wellFormed
      | some placed => exact (placePost?_placed wellFormed headNumber edited).wellFormed

/-- A group of numbers is in good order once it is normalized, if it has posts. -/
theorem normalized_wellFormed {group : Group κ} (occupied : group.posts ≠ [])
    (numbers : ∀ post ∈ group.posts, (post.key == post.key) = true)
    : group.normalized.WellFormed := by
  have mem (post : Post κ) : post ∈ Post.sorted group.posts ↔ post ∈ group.posts :=
    List.mem_mergeSort
  refine ⟨?_, ?_, ?_, ?_⟩
  · intro none
    have empty := List.map_eq_nil_iff.mp none
    obtain ⟨post, member⟩ := List.exists_mem_of_ne_nil group.posts occupied
    exact List.not_mem_nil (empty ▸ (mem post).mpr member)
  · intro post member
    obtain ⟨old, _, rfl⟩ := List.mem_map.mp member
    rfl
  · intro post member
    obtain ⟨old, inSorted, rfl⟩ := List.mem_map.mp member
    exact numbers old ((mem old).mp inSorted)
  · exact (Post.sorted_ascending group.posts).map _ fun _ _ notBelow => notBelow

omit [OrderKey.Lawful κ] in
theorem normalized_ids_perm (group : Group κ)
    : (group.normalized.posts.map (·.id)).Perm (group.posts.map (·.id)) := by
  simp only [Group.normalized, List.map_map]
  exact (List.mergeSort_perm group.posts _).map _

/-- Putting a group with distinct numbers onto a table keeps it in good order, whether the table has
the group already or not.
-/
theorem insertGroup?_wellFormed (wellFormed : draft.table.WellFormed) {group : Group κ}
    (occupied : group.posts ≠ [])
    (numbers : ∀ post ∈ group.posts, (post.key == post.key) = true)
    (distinct : (group.posts.map (·.id)).Nodup)
    (edited : draft.insertGroup? group = some next)
    : next.table.WellFormed := by
  have good := normalized_wellFormed occupied numbers
  have normalizedDistinct := (normalized_ids_perm group).nodup_iff.mpr distinct
  simp only [insertGroup?] at edited
  split at edited
  · simp at edited
  · obtain ⟨clearedWellFormed, clearedPosts⟩ :=
      withdrawPosts_spec wellFormed group.normalized.id group.normalized.posts
    split at edited
    · next absent =>
        obtain rfl := Option.some.inj edited
        refine clearedWellFormed.insert good normalizedDistinct ?_
        intro other inTable differs post inGroup old inOther same
        obtain ⟨inCleared, names⟩ := (clearedWellFormed.mem_group_posts inTable).mp inOther
        have stays := ((clearedPosts old).mp inCleared).2 post inGroup same.symm
        exact differs (names.symm.trans stays)
    · next existing found =>
        obtain rfl := Option.some.inj edited
        have member := GroupTable.mem_toList_of_find? found
        refine placePosts_wellFormed ?_ group.normalized.posts good.numbers
        exact clearedWellFormed.insert_part member rfl (List.Sublist.refl _)
          (clearedWellFormed.groups existing member).occupied

omit [OrderKey.Lawful κ] in
/-- Withdrawing posts brings no group, since every group left has posts that were there before. -/
theorem find?_withdrawPosts_of_absent (wellFormed : draft.table.WellFormed) {keep : GroupId}
    (absent : draft.table.find? keep = none) (posts : List (Post κ))
    : (posts.foldl (fun draft post => draft.withdrawPost keep post.id) draft).table.find? keep
      = none := by
  obtain ⟨clearedWellFormed, clearedPosts⟩ := withdrawPosts_spec wellFormed keep posts
  rw [Option.eq_none_iff_forall_ne_some]
  intro other found
  have member := GroupTable.mem_toList_of_find? found
  obtain ⟨post, inOther⟩ :=
    List.exists_mem_of_ne_nil _ (clearedWellFormed.groups other member).occupied
  obtain ⟨inCleared, names⟩ := (clearedWellFormed.mem_group_posts member).mp inOther
  obtain ⟨home, atHome, _⟩ := wellFormed.group_of_mem_posts ((clearedPosts post).mp inCleared).1
  rw [names, GroupTable.id_of_find? found, absent] at atHome
  simp at atHome

omit [OrderKey.Lawful κ] in
/-- A group that the table does not have is found as it is given, in order and with its posts named.
-/
theorem insertGroup?_of_absent (wellFormed : draft.table.WellFormed) {group : Group κ}
    (absent : draft.table.find? group.id = none)
    : ∃ next,
        draft.insertGroup? group = some next ∧ next.table.find? group.id = some group.normalized := by
  have own : group.normalized.id = group.id := rfl
  have stillAbsent :=
    find?_withdrawPosts_of_absent wellFormed absent group.normalized.posts
  refine ⟨(group.normalized.posts.foldl (fun draft post => draft.withdrawPost group.id post.id)
    draft).put group.normalized, ?_, GroupTable.find?_insert_self _ group.normalized⟩
  simp only [insertGroup?, own, absent, stillAbsent, Option.any_none, Bool.false_eq_true, if_false]

end Draft

end SharedBoard
