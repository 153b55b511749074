import SharedBoard.Proofs.Store.Repeat

/-! What a board shows. The times of a group and the board that it names are not shown, and no event
shows them: two boards in good order that look the same go on looking the same.
-/

namespace SharedBoard

variable {κ : Type}

/-- What is shown of a group: everything but its times and the board that it names. -/
def Group.face (group : Group κ) : Group κ :=
  { group with
    board := .ofNat 0
    createdAt := .epoch
    updatedAt := .epoch }

namespace GroupTable

/-- What is shown of a table. -/
def face (table : GroupTable κ) : GroupTable κ :=
  ⟨table.toList.map Group.face, List.pairwise_map.mpr table.ascending⟩

@[simp] theorem find?_face (table : GroupTable κ) (id : GroupId)
    : table.face.find? id = (table.find? id).map Group.face := by
  simp only [find?, face, List.find?_map]
  rfl

@[simp] theorem contains_face (table : GroupTable κ) (id : GroupId)
    : table.face.contains id = table.contains id := by
  rw [contains, find?_face, Option.isSome_map, contains]

theorem face_insert (table : GroupTable κ) (group : Group κ)
    : (table.insert group).face = table.face.insert group.face := by
  refine ext_find? fun id => ?_
  rw [find?_face, find?_insert, find?_insert, find?_face]
  exact apply_ite (Option.map Group.face) ..

theorem face_erase (table : GroupTable κ) (id : GroupId)
    : (table.erase id).face = table.face.erase id := by
  refine ext_find? fun other => ?_
  rw [find?_face, find?_erase, find?_erase, find?_face]
  exact apply_ite (Option.map Group.face) ..

/-- A table looks the same when a group is replaced by one with the same face. -/
theorem face_insert_of_same {table : GroupTable κ} {old group : Group κ}
    (found : table.find? group.id = some old) (same : group.face = old.face)
    : (table.insert group).face = table.face := by
  refine ext_find? fun id => ?_
  rw [find?_face, find?_face, find?_insert]
  split
  · next here => rw [← here, found, Option.map_some, Option.map_some, same]
  · rfl

/-- A post has the same place on the face of a table. -/
@[simp] theorem locate?_face (table : GroupTable κ) (post : PostId) (hint : Option GroupId)
    : table.face.locate? post hint = table.locate? post hint := by
  have hinted (id : GroupId)
      : (table.face.find? id).bind (·.indexOf? post) = (table.find? id).bind (·.indexOf? post) := by
    rw [find?_face, Option.bind_map]
    rfl
  have searched
      : table.face.toList.findSome? (fun group => (group.indexOf? post).map (group.id, ·))
        = table.toList.findSome? (fun group => (group.indexOf? post).map (group.id, ·)) := by
    simp only [face, List.findSome?_map]
    rfl
  simp only [locate?, hinted, searched]

end GroupTable

-----------------------------------------------------------------------------------------
-- Edits
-----------------------------------------------------------------------------------------

namespace Draft

/-- What is shown of a draft. -/
def face (draft : Draft κ) : Draft κ :=
  ⟨draft.table.face, draft.touched⟩

theorem face_put (draft : Draft κ) (group : Group κ)
    : (draft.put group).face = draft.face.put group.face := by
  simp only [put, face, GroupTable.face_insert]
  rfl

theorem face_put_posts (draft : Draft κ) (group : Group κ) (posts : List (Post κ))
    : (draft.put { group with posts := posts }).face
      = draft.face.put { group.face with posts := posts } :=
  draft.face_put { group with posts := posts }

theorem face_remove (draft : Draft κ) (id : GroupId)
    : (draft.remove id).face = draft.face.remove id := by
  simp only [remove, face, GroupTable.face_erase]

/-- A post is removed from a draft as from its face. -/
theorem removePost?_face (draft : Draft κ) (post : PostId) (hint : Option GroupId)
    : draft.face.removePost? post hint = (draft.removePost? post hint).map face := by
  simp only [removePost?, Option.bind_eq_bind]
  have place : draft.face.table.locate? post hint = draft.table.locate? post hint :=
    draft.table.locate?_face post hint
  rw [place]
  cases draft.table.locate? post hint with
  | none => rfl
  | some spot =>
      obtain ⟨id, index⟩ := spot
      have found : draft.face.table.find? id = (draft.table.find? id).map Group.face :=
        draft.table.find?_face id
      simp only [Option.bind_some, found]
      cases draft.table.find? id with
      | none => rfl
      | some group =>
          simp only [Option.map_some, Option.bind_some]
          have posts : group.face.posts = group.posts := rfl
          rw [posts]
          split
          · exact congrArg some (draft.face_remove id).symm
          · exact congrArg some (draft.face_put_posts group _).symm

theorem face_getD (draft : Draft κ) (edited : Option (Draft κ))
    : (edited.getD draft).face = (edited.map face).getD draft.face := by
  cases edited with
  | none => rfl
  | some next => rfl

variable [OrderKey κ]

/-- A post is inserted into a draft as into its face. -/
theorem insertPost?_face (draft : Draft κ) (post : Post κ)
    : draft.face.insertPost? post = (draft.insertPost? post).map face := by
  have found : draft.face.table.find? post.group = (draft.table.find? post.group).map Group.face :=
    draft.table.find?_face post.group
  simp only [insertPost?, found]
  cases draft.table.find? post.group with
  | none => rfl
  | some group => exact congrArg some (draft.face_put_posts group _).symm

/-- A post is replaced in a draft as in its face. -/
theorem replacePost?_face (draft : Draft κ) (group : Group κ) (index : Nat) (post : Post κ)
    : draft.face.replacePost? group.face index post
      = (draft.replacePost? group index post).map face := by
  have posts : group.face.posts = group.posts := rfl
  simp only [replacePost?, posts]
  cases group.posts[index]? with
  | none => rfl
  | some current =>
      simp only [Option.bind_some]
      split
      · rfl
      · split
        · exact congrArg some (draft.face_put_posts group _).symm
        · exact congrArg some (draft.face_put_posts group _).symm

/-- A post is placed in a draft as in its face, by cases on where it was. -/
theorem placePost?_face (draft : Draft κ) (post : Post κ)
    : draft.face.placePost? post = (draft.placePost? post).map face := by
  have found : draft.face.table.find? post.group = (draft.table.find? post.group).map Group.face :=
    draft.table.find?_face post.group
  have place : draft.face.table.locate? post.id (some post.group)
      = draft.table.locate? post.id (some post.group) := draft.table.locate?_face ..
  simp only [placePost?, found, place]
  cases draft.table.find? post.group with
  | none => rfl
  | some target =>
      simp only [Option.map_some]
      cases draft.table.locate? post.id (some post.group) with
      | none => exact draft.insertPost?_face post
      | some spot =>
          obtain ⟨id, index⟩ := spot
          by_cases inTarget : id = post.group
          · simp only [inTarget, if_true]
            exact draft.replacePost?_face target index post
          · simp only [inTarget, if_false]
            rw [removePost?_face, ← face_getD]
            exact insertPost?_face _ post

omit [OrderKey κ] in
/-- A post is withdrawn from a draft as from its face. -/
theorem withdrawPost_face (draft : Draft κ) (keep : GroupId) (post : PostId)
    : draft.face.withdrawPost keep post = (draft.withdrawPost keep post).face := by
  have place : draft.face.table.locate? post none = draft.table.locate? post none :=
    draft.table.locate?_face post none
  simp only [withdrawPost, place]
  cases draft.table.locate? post none with
  | none => rfl
  | some spot =>
      obtain ⟨id, index⟩ := spot
      by_cases kept : id = keep
      · simp only [kept, if_true]
      · simp only [kept, if_false]
        rw [removePost?_face, face_getD]

omit [OrderKey κ] in
/-- Several posts are withdrawn from a draft as from its face, by induction over them. -/
theorem withdrawPosts_face (draft : Draft κ) (keep : GroupId) (posts : List (Post κ))
    : posts.foldl (fun draft post => draft.withdrawPost keep post.id) draft.face
      = (posts.foldl (fun draft post => draft.withdrawPost keep post.id) draft).face := by
  induction posts generalizing draft with
  | nil => rfl
  | cons head rest ih => rw [List.foldl_cons, List.foldl_cons, withdrawPost_face, ih]

/-- Several posts are placed in a draft as in its face, by induction over them. -/
theorem placePosts_face (draft : Draft κ) (posts : List (Post κ))
    : posts.foldl (fun draft post => (draft.placePost? post).getD draft) draft.face
      = (posts.foldl (fun draft post => (draft.placePost? post).getD draft) draft).face := by
  induction posts generalizing draft with
  | nil => rfl
  | cons head rest ih =>
      rw [List.foldl_cons, List.foldl_cons, placePost?_face, ← face_getD, ih]

/-- The draft after a group in order came, if it was not there as it is. -/
def merged (draft : Draft κ) (group : Group κ) : Draft κ :=
  let cleared := group.posts.foldl (fun draft post => draft.withdrawPost group.id post.id) draft
  match cleared.table.find? group.id with
  | none => cleared.put group
  | some existing =>
      group.posts.foldl (fun draft post => (draft.placePost? post).getD draft)
        (cleared.put { existing with
          title := group.title
          x := group.x
          y := group.y
          z := group.z
          updatedAt := group.updatedAt })

/-- A group is merged into a draft, once it is in order, unless it is there as it is. -/
theorem insertGroup?_eq (draft : Draft κ) (group : Group κ)
    : draft.insertGroup? group
      = if (draft.table.find? group.id).any (· == group.normalized) then none
        else some (draft.merged group.normalized) := by
  have own : group.normalized.id = group.id := rfl
  simp only [insertGroup?, merged, own]
  split
  · rfl
  · generalize group.normalized.posts.foldl
      (fun draft post => draft.withdrawPost group.id post.id) draft = cleared
    cases cleared.table.find? group.id with
    | none => rfl
    | some existing => rfl

/-- A group is merged into a draft as into its face. -/
theorem merged_face (draft : Draft κ) (group : Group κ)
    : draft.face.merged group.face = (draft.merged group).face := by
  have own : group.face.id = group.id := rfl
  have posts : group.face.posts = group.posts := rfl
  simp only [merged, own, posts, withdrawPosts_face]
  generalize group.posts.foldl (fun draft post => draft.withdrawPost group.id post.id) draft
    = cleared
  have found : cleared.face.table.find? group.id = (cleared.table.find? group.id).map Group.face :=
    cleared.table.find?_face group.id
  rw [found]
  cases cleared.table.find? group.id with
  | none => exact (cleared.face_put group).symm
  | some existing =>
      simp only [Option.map_some]
      rw [← placePosts_face, face_put]
      rfl

end Draft

/-- Groups with equal faces have the same title and place, and equal posts. -/
theorem Group.face_beq_iff [OrderKey κ] {left right : Group κ}
    : (left.face == right.face) = true
      ↔ left.id = right.id ∧ left.title = right.title ∧ left.x = right.x ∧ left.y = right.y
        ∧ left.z = right.z ∧ (left.posts == right.posts) = true := by
  have posts : (left.face.posts == right.face.posts) = (left.posts == right.posts) := rfl
  simp only [BEq.beq, instBEqGroup.beq, Bool.and_eq_true, decide_eq_true_eq] at posts ⊢
  simp only [Group.face] at posts ⊢
  tauto

/-- Equal groups have equal faces. -/
theorem Group.face_beq_of_beq [OrderKey κ] {left right : Group κ}
    (same : (left == right) = true)
    : (left.face == right.face) = true := by
  rw [Group.face_beq_iff]
  simp only [BEq.beq, instBEqGroup.beq, Bool.and_eq_true, decide_eq_true_eq] at same ⊢
  tauto

/-- A post of a list has an equal one in any list that equals it, by induction over both. -/
theorem Post.exists_beq_of_mem [OrderKey κ] {left right : List (Post κ)}
    (same : (left == right) = true) {post : Post κ} (member : post ∈ right)
    : ∃ current ∈ left, (current == post) = true := by
  induction left generalizing right with
  | nil =>
      cases right with
      | nil => simp at member
      | cons head rest => simp at same
  | cons first others ih =>
      cases right with
      | nil => simp at member
      | cons head rest =>
          rw [List.cons_beq_cons, Bool.and_eq_true] at same
          rcases List.mem_cons.mp member with rfl | later
          · exact ⟨first, List.mem_cons_self, same.1⟩
          · obtain ⟨current, inOthers, equal⟩ := ih same.2 later
            exact ⟨current, List.mem_cons_of_mem _ inOthers, equal⟩

/-- A fold whose steps change nothing changes nothing, by induction. -/
theorem foldl_of_fixed {α β : Type} {step : α → β → α} {start : α} {list : List β}
    (fixed : ∀ entry ∈ list, step start entry = start)
    : list.foldl step start = start := by
  induction list with
  | nil => rfl
  | cons head rest ih =>
      obtain ⟨first, others⟩ := List.forall_mem_cons.mp fixed
      rw [List.foldl_cons, first]
      exact ih others

namespace Draft

variable [OrderKey κ] {draft : Draft κ}

theorem withdrawPost_of_kept (wellFormed : draft.table.WellFormed) {post : Post κ}
    (member : post ∈ draft.table.posts)
    : draft.withdrawPost post.group post.id = draft := by
  obtain ⟨group, index, place, _⟩ := wellFormed.locate?_eq member none
  simp only [withdrawPost, place, if_true]

/-- A group that comes to a table that has its posts already changes no more than the fields of the
group there.
-/
theorem merged_of_present (wellFormed : draft.table.WellFormed) {group existing : Group κ}
    (found : draft.table.find? group.id = some existing)
    (present : ∀ post ∈ group.posts, ∃ current ∈ existing.posts, (current == post) = true)
    : draft.merged group
      = draft.put { existing with
          title := group.title
          x := group.x
          y := group.y
          z := group.z
          updatedAt := group.updatedAt } := by
  have inTable := GroupTable.mem_toList_of_find? found
  have cleared
      : group.posts.foldl (fun draft post => draft.withdrawPost group.id post.id) draft = draft := by
    refine foldl_of_fixed fun post member => ?_
    obtain ⟨current, inExisting, equal⟩ := present post member
    obtain ⟨inPosts, names⟩ := (wellFormed.mem_group_posts inTable).mp inExisting
    have sameId : post.id = current.id := by rw [(Post.beq_iff.mp equal).1]
    rw [sameId, ← GroupTable.id_of_find? found, ← names]
    exact withdrawPost_of_kept wellFormed inPosts
  let changed : Group κ :=
    { existing with
      title := group.title
      x := group.x
      y := group.y
      z := group.z
      updatedAt := group.updatedAt }
  have own : changed.id = existing.id := rfl
  have kept : (draft.put changed).table.WellFormed :=
    wellFormed.insert_part inTable own (List.Sublist.refl _)
      (wellFormed.groups existing inTable).occupied
  simp only [merged, cleared, found]
  refine foldl_of_fixed fun post member => ?_
  obtain ⟨current, inExisting, equal⟩ := present post member
  have stays : current ∈ (draft.put changed).table.posts :=
    wellFormed.mem_posts_insert.mpr (.inl inExisting)
  exact congrArg (Option.getD · _) (placePost?_of_present kept ⟨current, stays, equal⟩)

/-- A draft looks the same after a group came that looks like the one it has. -/
theorem face_merged_of_same (wellFormed : draft.table.WellFormed) {group existing : Group κ}
    (found : draft.table.find? group.id = some existing)
    (same : (existing.face == group.face) = true)
    : (draft.merged group).table.face = draft.table.face := by
  obtain ⟨_, title, x, y, z, posts⟩ := Group.face_beq_iff.mp same
  have atOwn : draft.table.find? existing.id = some existing :=
    GroupTable.mem_toList_iff.mp (GroupTable.mem_toList_of_find? found)
  rw [merged_of_present wellFormed found fun post => Post.exists_beq_of_mem posts]
  refine GroupTable.face_insert_of_same atOwn ?_
  simp only [Group.face, title, x, y, z]

end Draft

-----------------------------------------------------------------------------------------
-- Boards
-----------------------------------------------------------------------------------------

namespace Store

/-- Two boards look the same: their groups have the same identifiers, and each the same title, place
and posts, in the same order.
-/
def Alike (left right : Store κ) : Prop :=
  left.groups.face = right.groups.face

/-- What a board shows after an edit that shows what it does on faces. -/
theorem face_edit {change : Draft κ → Option (Draft κ)}
    (follows : ∀ draft, change draft.face = (change draft).map Draft.face) (store : Store κ)
    : (store.edit change).store.groups.face
      = ((change ⟨store.groups.face, []⟩).map (·.table)).getD store.groups.face := by
  have shown := follows ⟨store.groups, []⟩
  simp only [Draft.face] at shown
  rw [shown, edit]
  cases change ⟨store.groups, []⟩ with
  | none => rfl
  | some next => rfl

namespace Alike

variable {left right : Store κ}

theorem edit (alike : left.Alike right) {change : Draft κ → Option (Draft κ)}
    (follows : ∀ draft, change draft.face = (change draft).map Draft.face)
    : (left.edit change).store.Alike (right.edit change).store := by
  rw [Alike, face_edit follows, face_edit follows, alike]

theorem of_sameBoard {leftAfter rightAfter : Store κ} (alike : left.Alike right)
    (leftSame : left.SameBoard leftAfter) (rightSame : right.SameBoard rightAfter)
    : leftAfter.Alike rightAfter := by
  rw [Alike, leftSame.1, rightSame.1]
  exact alike

theorem contains_eq (alike : left.Alike right) (id : GroupId)
    : left.groups.contains id = right.groups.contains id := by
  rw [← GroupTable.contains_face, alike, GroupTable.contains_face]

theorem locate?_eq (alike : left.Alike right) (post : PostId) (hint : Option GroupId)
    : left.groups.locate? post hint = right.groups.locate? post hint := by
  rw [← GroupTable.locate?_face, alike, GroupTable.locate?_face]

/-- The same post is removed from both. -/
theorem postRemoved (alike : left.Alike right) (post : Post κ)
    : (left.postRemoved post).store.Alike (right.postRemoved post).store := by
  simp only [Store.postRemoved, alike.locate?_eq]
  split
  · exact (alike.edit (fun draft => draft.removePost?_face post.id (some post.group))).of_sameBoard
      (typingStopped_sameBoard _ post.id) (typingStopped_sameBoard _ post.id)
  · exact alike

/-- The same group is removed from both. -/
theorem groupRemoved (alike : left.Alike right) (id : GroupId)
    : (left.groupRemoved id).store.Alike (right.groupRemoved id).store := by
  have follows (draft : Draft κ)
      : some (draft.face.remove id) = (some (draft.remove id)).map Draft.face :=
    congrArg some (draft.face_remove id).symm
  have edited : (left.edit (fun draft => some (draft.remove id))).store.Alike
      (right.edit (fun draft => some (draft.remove id))).store := alike.edit follows
  simp only [Store.groupRemoved, alike.contains_eq]
  split
  · exact edited.of_sameBoard (typingStoppedNowhere_sameBoard _) (typingStoppedNowhere_sameBoard _)
  · exact alike

variable [OrderKey κ]

theorem postAdded (alike : left.Alike right) (id : GroupId) (post : Post κ)
    : (left.postAdded id post).store.Alike (right.postAdded id post).store :=
  alike.edit (fun draft => draft.placePost?_face { post with group := id })

theorem postUpdated (alike : left.Alike right) (post : Post κ)
    : (left.postUpdated post).store.Alike (right.postUpdated post).store :=
  (alike.edit (fun draft => draft.placePost?_face post)).of_sameBoard
    (typingStopped_sameBoard _ post.id) (typingStopped_sameBoard _ post.id)

/-- A change of a group is shown where the board has the group, also if it changes nothing. -/
theorem face_groupPatched (store : Store κ) (patch : GroupPatch)
    : (store.groupPatched patch).store.groups.face
      = ((store.groups.face.find? patch.id).map
          (fun group => store.groups.face.insert (patch.applyTo group).face)).getD
            store.groups.face := by
  rw [GroupTable.find?_face]
  cases found : store.group? patch.id with
  | none =>
      have absent : store.groups.find? patch.id = none := found
      rw [groupPatched_of_absent found, absent]
      rfl
  | some group =>
      have present : store.groups.find? patch.id = some group := found
      have looks : (patch.applyTo group.face).face = (patch.applyTo group).face := rfl
      rw [present, Option.map_some, Option.map_some, Option.getD_some, looks,
        ← GroupTable.face_insert]
      by_cases same : (patch.applyTo group == group) = true
      · obtain ⟨_, title, x, y, z, _⟩ := Group.face_beq_iff.mp (Group.face_beq_of_beq same)
        have own : store.groups.find? (patch.applyTo group).id = some group :=
          (GroupTable.id_of_find? present).symm ▸ present
        have kept : (patch.applyTo group).face = group.face := by
          simp only [Group.face, title, x, y, z, GroupPatch.applyTo_id, GroupPatch.applyTo_posts]
        rw [groupPatched_of_beq found same, GroupTable.face_insert_of_same own kept]
        rfl
      · rw [groups_groupPatched_of_ne found same]

theorem groupPatched (alike : left.Alike right) (patch : GroupPatch)
    : (left.groupPatched patch).store.Alike (right.groupPatched patch).store := by
  rw [Alike, face_groupPatched, face_groupPatched, alike]

/-- A group that looks like the one a board has makes no difference to what is shown. -/
theorem face_edit_insertGroup?_of_same {store : Store κ} (wellFormed : store.WellFormed)
    {group existing : Group κ} (found : store.groups.find? group.id = some existing)
    (same : (existing.face == group.normalized.face) = true)
    : (store.edit (·.insertGroup? group)).store.groups.face = store.groups.face := by
  have table : (⟨store.groups, []⟩ : Draft κ).table.WellFormed := wellFormed.table
  rw [Store.edit, Draft.insertGroup?_eq]
  split
  · rfl
  · next next edited =>
      split at edited
      · simp at edited
      · obtain rfl := Option.some.inj edited
        exact Draft.face_merged_of_same table found same

/-- A group that looks like none that a board has is merged into what is shown. -/
theorem face_edit_insertGroup?_of_differs {store : Store κ} {group : Group κ}
    (differs : ¬ (store.groups.face.find? group.id).any (· == group.normalized.face) = true)
    : (store.edit (·.insertGroup? group)).store.groups.face
      = ((⟨store.groups.face, []⟩ : Draft κ).merged group.normalized.face).table := by
  have shown : (⟨store.groups.face, []⟩ : Draft κ).merged group.normalized.face
      = ((⟨store.groups, []⟩ : Draft κ).merged group.normalized).face :=
    Draft.merged_face ⟨store.groups, []⟩ group.normalized
  have notThere : ¬ (store.groups.find? group.id).any (· == group.normalized) = true := by
    intro there
    obtain ⟨existing, found, same⟩ := (Option.any_eq_true _ _).mp there
    rw [GroupTable.find?_face, found, Option.map_some, Option.any_some] at differs
    exact differs (Group.face_beq_of_beq same)
  rw [shown, Store.edit, Draft.insertGroup?_eq, if_neg notThere]
  rfl

/-- The same group is put onto both boards, if they are in good order. -/
theorem edit_insertGroup? (alike : left.Alike right) (leftWellFormed : left.WellFormed)
    (rightWellFormed : right.WellFormed) (group : Group κ)
    : (left.edit (·.insertGroup? group)).store.Alike
        (right.edit (·.insertGroup? group)).store := by
  have faces : left.groups.face = right.groups.face := alike
  by_cases there
      : (right.groups.face.find? group.id).any (· == group.normalized.face) = true
  · have unchanged {store : Store κ} (wellFormed : store.WellFormed)
        (there : (store.groups.face.find? group.id).any (· == group.normalized.face) = true)
        : (store.edit (·.insertGroup? group)).store.groups.face = store.groups.face := by
      obtain ⟨face, shown, same⟩ := (Option.any_eq_true _ _).mp there
      rw [GroupTable.find?_face] at shown
      obtain ⟨existing, found, rfl⟩ := Option.map_eq_some_iff.mp shown
      exact face_edit_insertGroup?_of_same wellFormed found same
    rw [Alike, unchanged leftWellFormed (faces ▸ there), unchanged rightWellFormed there, faces]
  · rw [Alike, face_edit_insertGroup?_of_differs there,
      face_edit_insertGroup?_of_differs (faces ▸ there), faces]

/-- The same group is created on both boards, if they are in good order. -/
theorem groupCreated (alike : left.Alike right) (leftWellFormed : left.WellFormed)
    (rightWellFormed : right.WellFormed) (group : Group κ)
    : (left.groupCreated group).store.Alike (right.groupCreated group).store := by
  unfold Store.groupCreated
  split
  · exact alike
  · exact alike.edit_insertGroup? leftWellFormed rightWellFormed group

/-- Boards in good order that look the same do so after any event, by cases on the event. -/
theorem reduce (alike : left.Alike right) (leftWellFormed : left.WellFormed)
    (rightWellFormed : right.WellFormed) (localUser : Option UserId) (event : Event κ)
    : (left.reduce localUser event).store.Alike (right.reduce localUser event).store := by
  cases event with
  | authenticated user => exact alike
  | boardConnected connected newUser =>
      exact alike.of_sameBoard (joined_sameBoard _ connected newUser)
        (joined_sameBoard _ connected newUser)
  | boardDisconnected user =>
      exact alike.of_sameBoard (left_sameBoard _ user) (left_sameBoard _ user)
  | postCreated post group =>
      simp only [Store.reduce, Store.postCreated, alike.contains_eq]
      split
      · exact alike.postAdded group.id post
      · exact alike.groupCreated leftWellFormed rightWellFormed { group with posts := [post] }
  | postUpdated post old => exact alike.postUpdated post
  | postDeleted post => exact alike.postRemoved post
  | postDetached post group => exact alike.edit_insertGroup? leftWellFormed rightWellFormed _
  | postFocused post user =>
      simp only [Store.reduce]
      split
      · exact alike
      · exact alike.of_sameBoard (focused_sameBoard _ user.id post.id)
          (focused_sameBoard _ user.id post.id)
  | groupUpdated patch => exact alike.groupPatched patch
  | groupDeleted id => exact alike.groupRemoved id

end Alike

end Store

end SharedBoard
