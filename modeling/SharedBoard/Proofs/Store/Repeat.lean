import SharedBoard.Proofs.Store.Reducer

/-! Calls that were made before. A board that shows already what a call says is left as it is, so
that a change may reach it twice, once from a gesture and once from the server.
-/

namespace SharedBoard

variable {κ : Type} [OrderKey κ]

/-- Equal posts differ in their keys at most, and these are equal as numbers. -/
theorem Post.beq_iff {left right : Post κ}
    : (left == right) = true ↔ left = { right with key := left.key } ∧ (left.key == right.key) := by
  obtain ⟨⟩ := left
  obtain ⟨⟩ := right
  simp only [BEq.beq, instBEqPost.beq, Bool.and_eq_true, decide_eq_true_eq, Post.mk.injEq]
  grind

/-- A group equals itself if its keys are numbers, by induction over its posts. -/
theorem Group.beq_self {group : Group κ}
    (numbers : ∀ post ∈ group.posts, (post.key == post.key) = true)
    : (group == group) = true := by
  have posts (list : List (Post κ)) (each : ∀ post ∈ list, (post.key == post.key) = true)
      : (list == list) = true := by
    induction list with
    | nil => rfl
    | cons head rest ih =>
        obtain ⟨headNumber, restNumbers⟩ := List.forall_mem_cons.mp each
        rw [List.cons_beq_cons, ih restNumbers, Post.beq_iff.mpr ⟨rfl, headNumber⟩]
        rfl
  have same := posts group.posts numbers
  simp only [BEq.beq, instBEqGroup.beq, Bool.and_eq_true, decide_eq_true_eq] at same ⊢
  grind

-----------------------------------------------------------------------------------------
-- Posts that are there
-----------------------------------------------------------------------------------------

/-- A board shows a post: it has one that equals it, and nobody is typing on it. -/
structure Store.Shows (store : Store κ) (post : Post κ) : Prop where
  present : ∃ current ∈ store.groups.posts, (current == post) = true
  quiet : store.typingOn? post.id = none

namespace Draft

variable {draft : Draft κ}

/-- A post that equals one of the table leaves nothing to do. -/
theorem placePost?_of_present (wellFormed : draft.table.WellFormed) {post : Post κ}
    (present : ∃ current ∈ draft.table.posts, (current == post) = true)
    : draft.placePost? post = none := by
  obtain ⟨current, member, same⟩ := present
  obtain ⟨fields, _⟩ := Post.beq_iff.mp same
  have sameId : post.id = current.id := by rw [fields]
  have sameGroup : post.group = current.group := by rw [fields]
  obtain ⟨group, index, place, found, here⟩ := wellFormed.locate?_eq member (some current.group)
  simp only [placePost?, sameGroup, sameId, found, place, if_true, replacePost?, here,
    Option.bind_some, same]

/-- A post that names a group of the table can be placed, unless it equals one of the table. -/
theorem placePost?_isSome_or_present (wellFormed : draft.table.WellFormed) {post : Post κ}
    {target : Group κ} (found : draft.table.find? post.group = some target)
    : (draft.placePost? post).isSome
      ∨ ∃ current ∈ draft.table.posts, (current == post) = true := by
  have member := GroupTable.mem_toList_of_find? found
  cases place : draft.table.locate? post.id (some post.group) with
  | none => exact .inl (by simp [placePost?, insertPost?, found, place])
  | some spot =>
      obtain ⟨id, index⟩ := spot
      obtain ⟨group, current, atId, here, same⟩ := GroupTable.exists_of_locate? place
      by_cases inTarget : id = post.group
      · subst inTarget
        obtain rfl := Option.some.inj (found.symm.trans atId)
        by_cases equal : (current == post) = true
        · exact .inr ⟨current, GroupTable.mem_posts.mpr
            ⟨target, member, List.mem_of_getElem? here⟩, equal⟩
        · refine .inl ?_
          simp only [placePost?, found, place, if_true, replacePost?, here, Option.bind_some,
            equal, Bool.false_eq_true, if_false]
          split <;> rfl
      · obtain ⟨removed, removedEq⟩ := Option.isSome_iff_exists.mp
          (removePost?_isSome (locate?_isSome place (some id)))
        have withdrawn := removePost?_withdrawn wellFormed removedEq
        obtain ⟨stays, inGroup⟩ :=
          List.exists_mem_of_ne_nil _ (wellFormed.groups target member).occupied
        obtain ⟨inTable, names⟩ := (wellFormed.mem_group_posts member).mp inGroup
        have other : stays.id ≠ post.id := by
          intro one
          have home := wellFormed.group_of_id_eq (GroupTable.mem_toList_of_find? atId)
            (List.mem_of_getElem? here) inTable (one.trans same.symm)
          rw [names, GroupTable.id_of_find? found, GroupTable.id_of_find? atId] at home
          exact inTarget home.symm
        obtain ⟨left, stillFound, _⟩ := withdrawn.wellFormed.group_of_mem_posts
          ((withdrawn.mem_posts stays).mpr ⟨inTable, other⟩)
        rw [names, GroupTable.id_of_find? found] at stillFound
        refine .inl ?_
        simp only [placePost?, found, place, inTarget, if_false, removedEq, Option.getD_some,
          insertPost?, stillFound, Option.map_some, Option.isSome_some]

end Draft

namespace Store

variable {store : Store κ}

omit [OrderKey κ] in
theorem edit_of_none {change : Draft κ → Option (Draft κ)}
    (nothing : change ⟨store.groups, []⟩ = none)
    : store.edit change = store.unchanged := by
  rw [edit, nothing]

omit [OrderKey κ] in
theorem groups_edit_of_some {change : Draft κ → Option (Draft κ)} {next : Draft κ}
    (edited : change ⟨store.groups, []⟩ = some next)
    : (store.edit change).store.groups = next.table := by
  rw [edit, edited]

omit [OrderKey κ] in
theorem unchanged_andThen {call : Store κ → Update κ} (nothing : call store = store.unchanged)
    : store.unchanged.andThen call = store.unchanged := by
  have same : store.unchanged.store = store := rfl
  simp only [Update.andThen, same, nothing]
  rfl

/-- A post that the board shows needs no update. -/
theorem Shows.postUpdated_eq (wellFormed : store.WellFormed) {post : Post κ}
    (shown : store.Shows post)
    : store.postUpdated post = store.unchanged := by
  have nothing : (⟨store.groups, []⟩ : Draft κ).placePost? post = none :=
    Draft.placePost?_of_present wellFormed.table shown.present
  rw [postUpdated, edit_of_none nothing]
  refine unchanged_andThen ?_
  rw [typingStopped, shown.quiet, Option.isNone_none, if_pos rfl]

omit [OrderKey κ] in
/-- Nobody is typing on a post after everybody stopped. -/
theorem typingOn?_typingStopped (store : Store κ) (post : PostId)
    : (store.typingStopped post).store.typingOn? post = none := by
  unfold typingStopped
  split
  · next quiet => exact Option.isNone_iff_eq_none.mp quiet
  · simp only [typingOn?, withRoster, Option.map_eq_none_iff, List.find?_eq_none, List.mem_map]
    rintro participant ⟨before, _, rfl⟩
    unfold Participant.stopTypingOn
    split
    · simp
    · next other => simpa using other

section Updates

variable [OrderKey.Lawful κ]

/-- An update places a post whose group is on the board, unless the board has an equal one. -/
theorem postUpdated_cases (wellFormed : store.WellFormed) {post : Post κ} {group : Group κ}
    (found : store.group? post.group = some group) (number : (post.key == post.key) = true)
    : store.groups.Placed (store.postUpdated post).store.groups post
      ∨ (∃ current ∈ store.groups.posts, (current == post) = true)
        ∧ (store.postUpdated post).store.groups = store.groups := by
  have groups : (store.postUpdated post).store.groups
      = (store.edit (·.placePost? post)).store.groups := (typingStopped_sameBoard _ _).1
  have outcome : ((⟨store.groups, []⟩ : Draft κ).placePost? post).isSome
      ∨ ∃ current ∈ store.groups.posts, (current == post) = true :=
    Draft.placePost?_isSome_or_present wellFormed.table found
  rw [groups]
  rcases outcome with placeable | present
  · obtain ⟨next, edited⟩ := Option.isSome_iff_exists.mp placeable
    rw [groups_edit_of_some edited]
    exact .inl (Draft.placePost?_placed wellFormed.table number edited)
  · have nothing : (⟨store.groups, []⟩ : Draft κ).placePost? post = none :=
      Draft.placePost?_of_present wellFormed.table present
    rw [edit_of_none nothing]
    exact .inr ⟨present, rfl⟩

/-- The board shows a post after an update, if it has the group. -/
theorem shows_postUpdated (wellFormed : store.WellFormed) {post : Post κ} {group : Group κ}
    (found : store.group? post.group = some group) (number : (post.key == post.key) = true)
    : (store.postUpdated post).store.Shows post := by
  refine ⟨?_, typingOn?_typingStopped _ post.id⟩
  rcases postUpdated_cases wellFormed found number with placed | ⟨present, same⟩
  · exact ⟨post, (placed.mem_posts post).mpr (.inl rfl), Post.beq_iff.mpr ⟨rfl, number⟩⟩
  · rw [same]
    exact present

/-- The posts after an update equal the new version or were there before under other identifiers. -/
theorem mem_posts_postUpdated (wellFormed : store.WellFormed) {post : Post κ} {group : Group κ}
    (found : store.group? post.group = some group) (number : (post.key == post.key) = true)
    {old : Post κ} (member : old ∈ (store.postUpdated post).store.groups.posts)
    : (old == post) = true ∨ (old ∈ store.groups.posts ∧ old.id ≠ post.id) := by
  rcases postUpdated_cases wellFormed found number with placed | ⟨present, same⟩
  · rcases (placed.mem_posts old).mp member with rfl | kept
    · exact .inl (Post.beq_iff.mpr ⟨rfl, number⟩)
    · exact .inr kept
  · rw [same] at member
    obtain ⟨current, currentMember, equal⟩ := present
    by_cases sameId : old.id = post.id
    · have currentId : current.id = post.id := by rw [(Post.beq_iff.mp equal).1]
      rw [wellFormed.table.eq_of_post_id_eq member currentMember (sameId.trans currentId.symm)]
      exact .inl equal
    · exact .inr ⟨member, sameId⟩

/-- A group is gone when its only post moved to another group. -/
theorem group?_postUpdated_of_only (wellFormed : store.WellFormed)
    {post only : Post κ} {source : GroupId} {group target : Group κ}
    (found : store.group? source = some group) (posts : group.posts = [only])
    (sameId : only.id = post.id) (elsewhere : post.group ≠ source)
    (targetFound : store.group? post.group = some target)
    (number : (post.key == post.key) = true)
    : (store.postUpdated post).store.group? source = none := by
  have after := wellFormed.postUpdated number
  rw [Option.eq_none_iff_forall_ne_some]
  intro left stillFound
  have inAfter := GroupTable.mem_toList_of_find? stillFound
  obtain ⟨stays, inLeft⟩ := List.exists_mem_of_ne_nil _ (after.table.groups left inAfter).occupied
  obtain ⟨member, names⟩ := (after.table.mem_group_posts inAfter).mp inLeft
  rw [GroupTable.id_of_find? stillFound] at names
  rcases mem_posts_postUpdated wellFormed targetFound number member with same | ⟨old, other⟩
  · have moved : stays.group = post.group := by rw [(Post.beq_iff.mp same).1]
    exact elsewhere (moved.symm.trans names)
  · have inTable := GroupTable.mem_toList_of_find? found
    have inSource : stays ∈ group.posts := (wellFormed.table.mem_group_posts inTable).mpr
      ⟨old, names.trans (GroupTable.id_of_find? found).symm⟩
    rw [posts, List.mem_singleton] at inSource
    exact other (inSource ▸ sameId)

end Updates

theorem Shows.post? (wellFormed : store.WellFormed) {post : Post κ} (shown : store.Shows post)
    : ∃ current, store.post? post.id = some current ∧ (current == post) = true := by
  obtain ⟨current, member, same⟩ := shown.present
  have sameId : current.id = post.id := by rw [(Post.beq_iff.mp same).1]
  exact ⟨current, wellFormed.post?_eq_some_iff.mpr ⟨member, sameId⟩, same⟩

-----------------------------------------------------------------------------------------
-- Groups that are there
-----------------------------------------------------------------------------------------

theorem groupPatched_of_absent {patch : GroupPatch} (absent : store.group? patch.id = none)
    : store.groupPatched patch = store.unchanged := by
  simp only [groupPatched, absent]

theorem groupPatched_of_beq {patch : GroupPatch} {group : Group κ}
    (found : store.group? patch.id = some group)
    (same : (patch.applyTo group == group) = true)
    : store.groupPatched patch = store.unchanged := by
  simp only [groupPatched, found, same, if_true]

/-- A change of a group that makes a difference puts the changed group in its place. -/
theorem groups_groupPatched_of_ne {patch : GroupPatch} {group : Group κ}
    (found : store.group? patch.id = some group)
    (differs : ¬ (patch.applyTo group == group) = true)
    : (store.groupPatched patch).store.groups = store.groups.insert (patch.applyTo group) := by
  simp only [groupPatched, found, if_neg differs]
  rfl

/-- After a change of a group it is found as changed, or as it was if that is equal. -/
theorem group?_groupPatched {patch : GroupPatch} {group : Group κ}
    (found : store.group? patch.id = some group)
    : ∃ after,
        (store.groupPatched patch).store.group? patch.id = some after
        ∧ (after = patch.applyTo group
          ∨ (patch.applyTo group == group) = true ∧ after = group) := by
  by_cases same : (patch.applyTo group == group) = true
  · rw [groupPatched_of_beq found same]
    exact ⟨group, found, .inr ⟨same, rfl⟩⟩
  · have own : group.id = patch.id := GroupTable.id_of_find? found
    refine ⟨patch.applyTo group, ?_, .inl rfl⟩
    rw [group?, groups_groupPatched_of_ne found same, ← own]
    exact GroupTable.find?_insert_self store.groups (patch.applyTo group)

/-- A change of a group touches no other group. -/
theorem group?_groupPatched_of_ne {patch : GroupPatch} {id : GroupId} (other : patch.id ≠ id)
    : (store.groupPatched patch).store.group? id = store.group? id := by
  cases found : store.group? patch.id with
  | none => rw [groupPatched_of_absent found, unchanged]
  | some group =>
      by_cases same : (patch.applyTo group == group) = true
      · rw [groupPatched_of_beq found same]
        rfl
      · have own : group.id = patch.id := GroupTable.id_of_find? found
        have elsewhere : (patch.applyTo group).id ≠ id := fun same => other (own.symm.trans same)
        rw [group?, groups_groupPatched_of_ne found same]
        exact GroupTable.find?_insert_of_ne elsewhere

theorem groupPatched_congr {patch other : GroupPatch} {group : Group κ}
    (found : store.group? patch.id = some group) (sameId : other.id = patch.id)
    (same : other.applyTo group = patch.applyTo group)
    : store.groupPatched other = store.groupPatched patch := by
  simp only [groupPatched, sameId, found, same]

/-- A change of a group keeps the posts of a board. -/
theorem WellFormed.mem_posts_groupPatched (wellFormed : store.WellFormed) (patch : GroupPatch)
    {post : Post κ}
    : post ∈ (store.groupPatched patch).store.groups.posts ↔ post ∈ store.groups.posts := by
  cases found : store.group? patch.id with
  | none => rw [groupPatched_of_absent found, unchanged]
  | some group =>
      by_cases same : (patch.applyTo group == group) = true
      · rw [groupPatched_of_beq found same]
        rfl
      · have member := GroupTable.mem_toList_of_find? found
        rw [groups_groupPatched_of_ne found same, wellFormed.table.mem_posts_insert,
          patch.applyTo_posts, patch.applyTo_id, wellFormed.table.mem_group_posts member,
          ← and_or_left]
        exact and_iff_left (em _)

/-- A change of a group keeps the roster. -/
theorem roster_groupPatched (store : Store κ) (patch : GroupPatch)
    : (store.groupPatched patch).store.roster = store.roster := by
  unfold groupPatched
  split
  · rfl
  · split
    · rfl
    · rfl

/-- A board goes on showing a post when a group changes. -/
theorem Shows.groupPatched (wellFormed : store.WellFormed) {post : Post κ}
    (shown : store.Shows post) (patch : GroupPatch)
    : (store.groupPatched patch).store.Shows post := by
  obtain ⟨⟨current, member, same⟩, quiet⟩ := shown
  refine ⟨⟨current, (wellFormed.mem_posts_groupPatched patch).mpr member, same⟩, ?_⟩
  rw [typingOn?, roster_groupPatched]
  exact quiet

/-- A change of a group that was made already makes no difference. -/
theorem groupPatched_again (wellFormed : store.groups.WellFormed) {patch : GroupPatch}
    {group : Group κ} (found : store.group? patch.id = some group)
    : (store.groupPatched patch).store.groupPatched patch
      = (store.groupPatched patch).store.unchanged := by
  have numbers := (wellFormed.groups group (GroupTable.mem_toList_of_find? found)).numbers
  obtain ⟨after, atPatch, rfl | ⟨same, rfl⟩⟩ := group?_groupPatched found
  · refine groupPatched_of_beq atPatch ?_
    have twice : patch.applyTo (patch.applyTo group) = patch.applyTo group := by
      simp only [GroupPatch.applyTo]
      cases patch.title <;> cases patch.x <;> cases patch.y <;> cases patch.z <;>
        cases patch.updatedAt <;> rfl
    rw [twice]
    exact Group.beq_self numbers
  · exact groupPatched_of_beq atPatch same

omit [OrderKey κ] in
/-- A group that is not on the board needs no removal. -/
theorem groupRemoved_of_absent {id : GroupId} (absent : store.group? id = none)
    : store.groupRemoved id = store.unchanged := by
  have missing : store.groups.contains id = false := by
    simp only [GroupTable.contains, Option.isSome_eq_false_iff, Option.isNone_iff_eq_none]
    exact absent
  simp only [groupRemoved, missing, Bool.false_eq_true, if_false]

omit [OrderKey κ] in
/-- The groups after a removal are all others, also if there was nothing to remove. -/
theorem groups_groupRemoved (store : Store κ) (id : GroupId)
    : (store.groupRemoved id).store.groups = store.groups.erase id := by
  cases present : store.groups.contains id with
  | false =>
      have absent : store.groups.find? id = none := by simpa [GroupTable.contains] using present
      rw [groupRemoved_of_absent absent, GroupTable.erase_of_absent absent]
      rfl
  | true =>
      simp only [groupRemoved, present, if_true]
      rw [Update.andThen_store, (typingStoppedNowhere_sameBoard _).1]
      rfl

omit [OrderKey κ] in
/-- A group is not on the board after its removal. -/
theorem group?_groupRemoved (store : Store κ) (id : GroupId)
    : (store.groupRemoved id).store.group? id = none := by
  rw [group?, groups_groupRemoved, GroupTable.find?_erase, if_pos rfl]

omit [OrderKey κ] in
theorem postRemoved_of_absent {post : Post κ}
    (absent : ∀ old ∈ store.groups.posts, old.id ≠ post.id)
    : store.postRemoved post = store.unchanged := by
  rw [postRemoved, GroupTable.locate?_eq_none_iff.mpr absent]
  rfl

/-- A group that the board has already, as it is given, leaves nothing to do. -/
theorem edit_insertGroup?_of_found {group : Group κ}
    (found : store.group? group.id = some group.normalized)
    (numbers : ∀ post ∈ group.normalized.posts, (post.key == post.key) = true)
    : store.edit (·.insertGroup? group) = store.unchanged := by
  refine edit_of_none ?_
  have atId : store.groups.find? group.normalized.id = some group.normalized := found
  simp only [Draft.insertGroup?, atId, Option.any_some, Group.beq_self numbers, if_true]

/-- A group that the board does not have is found as it is given after it came. -/
theorem WellFormed.group?_edit_insertGroup? (wellFormed : store.WellFormed) {group : Group κ}
    (absent : store.group? group.id = none)
    : (store.edit (·.insertGroup? group)).store.group? group.id = some group.normalized := by
  have missing : (⟨store.groups, []⟩ : Draft κ).table.find? group.id = none := absent
  obtain ⟨next, edited, found⟩ := Draft.insertGroup?_of_absent wellFormed.table missing
  rw [group?, groups_edit_of_some edited]
  exact found

omit [OrderKey κ] in
theorem contains_of_group? {id : GroupId} {group : Group κ}
    (found : store.group? id = some group)
    : store.groups.contains id = true := by
  rw [GroupTable.contains, show store.groups.find? id = some group from found]
  rfl

end Store

end SharedBoard
