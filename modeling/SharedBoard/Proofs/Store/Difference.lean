import SharedBoard.Proofs.Store.Idempotence

/-! What edits change. An edit is for one group: every other group is untouched or has lost posts.
An edit that has a result leaves its own group with other content, unless a whole group comes that
repeats the fields of the one there.
-/

namespace SharedBoard

variable {κ : Type} [OrderKey κ]

-----------------------------------------------------------------------------------------
-- Equal content
-----------------------------------------------------------------------------------------

/-- Equal lists have equal entries throughout, by induction over both. -/
theorem forall₂_of_beq {α : Type} [BEq α] {left right : List α} (same : (left == right) = true)
    : List.Forall₂ (fun first second => (first == second) = true) left right := by
  induction left generalizing right with
  | nil =>
      cases right with
      | nil => exact .nil
      | cons head rest => simp at same
  | cons first others ih =>
      cases right with
      | nil => simp at same
      | cons head rest =>
          rw [List.cons_beq_cons, Bool.and_eq_true] at same
          exact .cons same.1 (ih same.2)

namespace Post

variable [OrderKey.Lawful κ]

/-- Equal posts equal the same posts, since equality of keys is symmetric and transitive. -/
theorem beq_congr {left right : Post κ} (same : (left == right) = true) (post : Post κ)
    : (left == post) = (right == post) := by
  obtain ⟨fields, keys⟩ := beq_iff.mp same
  rw [Bool.eq_iff_iff, beq_iff, beq_iff]
  refine and_congr ?_ ⟨fun equal => ?_, OrderKey.Lawful.beq_trans keys⟩
  · rw [fields]
    obtain ⟨⟩ := right
    obtain ⟨⟩ := post
    simp
  · exact OrderKey.Lawful.beq_trans (OrderKey.Lawful.beq_symm keys) equal

/-- Equal lists have equally many posts that equal a given one, by induction over their entries. -/
theorem countP_eq_of_beq {left right : List (Post κ)} (same : (left == right) = true)
    (post : Post κ)
    : left.countP (· == post) = right.countP (· == post) := by
  have entries := forall₂_of_beq same
  clear same
  induction entries with
  | nil => rfl
  | cons equal _ ih => rw [List.countP_cons, List.countP_cons, ih, beq_congr equal]

/-- A list changes its content when a post takes the place of one that differs from it. -/
theorem not_beq_of_exchange {before after rest : List (Post κ)} {current post : Post κ}
    (old : before.Perm (current :: rest)) (new : after.Perm (post :: rest))
    (differs : (current == post) = false)
    : ¬ (before == after) = true := by
  intro same
  obtain ⟨_, _, equal⟩ := exists_beq_of_mem same (new.symm.subset List.mem_cons_self)
  have number : (post == post) = true := by rw [← beq_congr equal, equal]
  have counts := countP_eq_of_beq same post
  simp only [old.countP_eq, new.countP_eq, List.countP_cons, differs, number, if_true] at counts
  simp at counts

end Post

namespace GroupTable

variable {before between after : GroupTable κ} {id : GroupId}

/-- Two tables have equal groups under an identifier, or neither has one. -/
def SameAt (before after : GroupTable κ) (id : GroupId) : Prop :=
  (before.find? id == after.find? id) = true

/-- A group has lost posts, or all of them and its place on the table. -/
def Shrinks (before after : GroupTable κ) (id : GroupId) : Prop :=
  ∃ old,
    before.find? id = some old
    ∧ ∀ group, after.find? id = some group → group.posts.length < old.posts.length

/-- Tables that list equal groups have equal ones under each identifier, by induction over the
entries.
-/
theorem sameAt_of_beq (same : (before.toList == after.toList) = true) (id : GroupId)
    : before.SameAt after id := by
  have entries := forall₂_of_beq same
  rw [SameAt, find?, find?]
  generalize before.toList = left, after.toList = right at entries
  induction entries with
  | nil => rfl
  | cons equal _ ih =>
      obtain ⟨ids, _⟩ := Group.face_beq_iff.mp (Group.face_beq_of_beq equal)
      rw [List.find?_cons, List.find?_cons, ids]
      split
      · exact equal
      · exact ih

/-- A group that stays there with equal content has equal posts. -/
theorem SameAt.posts {old new : Group κ} (same : before.SameAt after id)
    (atOld : before.find? id = some old) (atNew : after.find? id = some new)
    : (old.posts == new.posts) = true := by
  rw [SameAt, atOld, atNew] at same
  obtain ⟨_, _, _, _, _, posts⟩ := Group.face_beq_iff.mp (Group.face_beq_of_beq same)
  exact posts

/-- A group that has lost posts does not have the same content. -/
theorem Shrinks.not_sameAt (shrinks : before.Shrinks after id) : ¬ before.SameAt after id := by
  obtain ⟨old, atOld, fewer⟩ := shrinks
  intro same
  cases atNew : after.find? id with
  | none => simp [SameAt, atOld, atNew] at same
  | some new =>
      have longer := fewer new atNew
      rw [(forall₂_of_beq (same.posts atOld atNew)).length_eq] at longer
      exact Nat.lt_irrefl _ longer

omit [OrderKey κ] in
theorem Shrinks.trans (first : before.Shrinks between id) (second : between.Shrinks after id)
    : before.Shrinks after id := by
  obtain ⟨old, atOld, fewer⟩ := first
  obtain ⟨middle, atMiddle, fewest⟩ := second
  exact ⟨old, atOld, fun group found =>
    Nat.lt_trans (fewest group found) (fewer middle atMiddle)⟩

end GroupTable

-----------------------------------------------------------------------------------------
-- Other groups
-----------------------------------------------------------------------------------------

namespace Draft

variable {draft between next : Draft κ} {target : GroupId}

/-- An edit for one group: every other group is found as before and was not touched, or has lost
posts.
-/
def IsFor (target : GroupId) (before after : Draft κ) : Prop :=
  ∀ id,
    id ≠ target
    → (after.table.find? id = before.table.find? id ∧ (id ∈ after.touched → id ∈ before.touched))
      ∨ before.table.Shrinks after.table id

namespace IsFor

omit [OrderKey κ]

theorem refl (draft : Draft κ) (target : GroupId) : draft.IsFor target draft :=
  fun _ _ => .inl ⟨rfl, id⟩

theorem trans (first : IsFor target draft between) (second : IsFor target between next)
    : IsFor target draft next := by
  intro id other
  rcases first id other with ⟨same, untouched⟩ | shrinks
  · rcases second id other with ⟨sameAgain, untouchedAgain⟩ | ⟨old, atOld, fewer⟩
    · exact .inl ⟨sameAgain.trans same, fun member => untouched (untouchedAgain member)⟩
    · exact .inr ⟨old, same ▸ atOld, fewer⟩
  · rcases second id other with ⟨same, _⟩ | shrinksAgain
    · obtain ⟨old, atOld, fewer⟩ := shrinks
      exact .inr ⟨old, atOld, fun group found => fewer group (same ▸ found)⟩
    · exact .inr (shrinks.trans shrinksAgain)

/-- Putting a group into a table is for that group. -/
theorem put (draft : Draft κ) (group : Group κ) (own : group.id = target)
    : IsFor target draft (draft.put group) := by
  rintro id other
  have apart : group.id ≠ id := fun same => other (same.symm.trans own)
  exact .inl ⟨GroupTable.find?_insert_of_ne apart, fun member =>
    (List.mem_cons.mp member).resolve_left fun same => apart same.symm⟩

/-- Taking a group out of a table is for that group. -/
theorem remove (draft : Draft κ) (id : GroupId) : IsFor id draft (draft.remove id) :=
  fun _ other => .inl ⟨(GroupTable.find?_erase ..).trans (if_neg (Ne.symm other)),
    fun member => (List.mem_cons.mp member).resolve_left other⟩

/-- Several edits for one group are for that group, by induction over them. -/
theorem foldl {α : Type} {edit : Draft κ → α → Draft κ} {entries : List α}
    (each : ∀ entry ∈ entries, ∀ draft, IsFor target draft (edit draft entry)) (draft : Draft κ)
    : IsFor target draft (entries.foldl edit draft) := by
  induction entries generalizing draft with
  | nil => exact refl draft target
  | cons head rest ih =>
      obtain ⟨first, others⟩ := List.forall_mem_cons.mp each
      exact (first draft).trans (ih others _)

/-- An edit for a group that loses posts is for any group. -/
theorem of_shrinks (edit : IsFor target draft next)
    (shrinks : draft.table.Shrinks next.table target) (other : GroupId)
    : IsFor other draft next := by
  intro id _
  by_cases own : id = target
  · exact .inr (own ▸ shrinks)
  · exact edit id own

end IsFor

omit [OrderKey κ] in
/-- Removing a post is for its group, which loses it. -/
theorem removePost?_isFor {post : PostId} {hint : Option GroupId}
    (edited : draft.removePost? post hint = some next)
    : ∃ id, IsFor id draft next ∧ draft.table.Shrinks next.table id := by
  simp only [removePost?, Option.bind_eq_bind, Option.bind_eq_some_iff] at edited
  obtain ⟨⟨id, index⟩, place, group, found, edited⟩ := edited
  obtain ⟨_, _, atPlace, here, _⟩ := GroupTable.exists_of_locate? place
  obtain rfl := Option.some.inj (found.symm.trans atPlace)
  obtain ⟨bound, _⟩ := List.getElem?_eq_some_iff.mp here
  obtain rfl := GroupTable.id_of_find? found
  refine ⟨group.id, ?_⟩
  split at edited
  · obtain rfl := Option.some.inj edited
    refine ⟨.remove draft group.id, group, found, fun left atOwn => ?_⟩
    rw [remove, GroupTable.find?_erase, if_pos rfl] at atOwn
    cases atOwn
  · obtain rfl := Option.some.inj edited
    refine ⟨.put draft _ rfl, group, found, fun left atOwn => ?_⟩
    obtain rfl := Option.some.inj ((GroupTable.find?_insert_self ..).symm.trans atOwn)
    simp only [List.length_eraseIdx, bound, if_true]
    omega

omit [OrderKey κ] in
theorem removePost?_getD_isFor (draft : Draft κ) (post : PostId) (hint : Option GroupId)
    (target : GroupId)
    : IsFor target draft ((draft.removePost? post hint).getD draft) := by
  cases edited : draft.removePost? post hint with
  | none => exact .refl draft target
  | some next =>
      obtain ⟨id, isFor, shrinks⟩ := removePost?_isFor edited
      exact isFor.of_shrinks shrinks target

omit [OrderKey κ] in
theorem withdrawPost_isFor (draft : Draft κ) (keep : GroupId) (post : PostId)
    : IsFor keep draft (draft.withdrawPost keep post) := by
  unfold withdrawPost
  split
  · split
    · exact .refl draft keep
    · exact draft.removePost?_getD_isFor post _ keep
  · exact .refl draft keep

theorem insertPost?_isFor {post : Post κ} (edited : draft.insertPost? post = some next)
    : IsFor post.group draft next := by
  obtain ⟨group, found, rfl⟩ := Option.map_eq_some_iff.mp edited
  exact .put draft _ (GroupTable.id_of_find? found : group.id = post.group)

theorem replacePost?_isFor {group : Group κ} {index : Nat} {post : Post κ} (own : group.id = target)
    (edited : draft.replacePost? group index post = some next)
    : IsFor target draft next := by
  obtain ⟨current, _, edited⟩ := Option.bind_eq_some_iff.mp edited
  split at edited
  · exact nomatch edited
  · split at edited <;> exact Option.some.inj edited ▸ .put draft _ own

/-- Placing a post is for the group that it names. -/
theorem placePost?_isFor {post : Post κ} (edited : draft.placePost? post = some next)
    : IsFor post.group draft next := by
  unfold placePost? at edited
  split at edited
  · exact nomatch edited
  · next target found =>
      split at edited
      · exact insertPost?_isFor edited
      · split at edited
        · exact replacePost?_isFor (GroupTable.id_of_find? found) edited
        · exact IsFor.trans (draft.removePost?_getD_isFor post.id _ post.group)
            (insertPost?_isFor edited)

-----------------------------------------------------------------------------------------
-- The group itself
-----------------------------------------------------------------------------------------

variable [OrderKey.Lawful κ]

omit [OrderKey.Lawful κ] in
/-- A group to which a post is added does not keep its content. -/
theorem insertPost?_not_sameAt {post : Post κ} (edited : draft.insertPost? post = some next)
    : ¬ draft.table.SameAt next.table post.group := by
  obtain ⟨group, found, rfl⟩ := Option.map_eq_some_iff.mp edited
  have own : group.id = post.group := GroupTable.id_of_find? found
  intro same
  let changed : Group κ := { group with posts := post.insertInto group.posts }
  have atNew : (draft.put changed).table.find? post.group = some changed :=
    own ▸ GroupTable.find?_insert_self draft.table changed
  have lengths := (forall₂_of_beq (same.posts found atNew)).length_eq
  rw [(Post.insertInto_perm group.posts post).length_eq, List.length_cons] at lengths
  omega

/-- A group in which a post is replaced does not keep its content, since equal posts are not
replaced.
-/
theorem replacePost?_not_sameAt {group : Group κ} (found : draft.table.find? group.id = some group)
    {index : Nat} {post : Post κ} (edited : draft.replacePost? group index post = some next)
    : ¬ draft.table.SameAt next.table group.id := by
  obtain ⟨current, here, edited⟩ := Option.bind_eq_some_iff.mp edited
  obtain ⟨bound, rfl⟩ := List.getElem?_eq_some_iff.mp here
  have old : group.posts.Perm (group.posts[index] :: group.posts.eraseIdx index) :=
    (List.getElem_cons_eraseIdx_perm bound).symm
  have exchanged (posts : List (Post κ)) (new : posts.Perm (post :: group.posts.eraseIdx index))
      (differs : (group.posts[index] == post) = false)
      : ¬ draft.table.SameAt (draft.put { group with posts := posts }).table group.id :=
    fun same => Post.not_beq_of_exchange old new differs
      (same.posts found (GroupTable.find?_insert_self draft.table { group with posts := posts }))
  split at edited
  · exact nomatch edited
  · next differs =>
      have differs := Bool.eq_false_iff.mpr differs
      split at edited
      · exact Option.some.inj edited ▸ exchanged _ (List.set_perm_cons_eraseIdx bound post) differs
      · exact Option.some.inj edited ▸ exchanged _ (Post.insertInto_perm _ post) differs

/-- A group in which a post is placed does not keep its content, wherever the post was. -/
theorem placePost?_not_sameAt {post : Post κ} (edited : draft.placePost? post = some next)
    : ¬ draft.table.SameAt next.table post.group := by
  unfold placePost? at edited
  split at edited
  · exact nomatch edited
  · next target found =>
      split at edited
      · exact insertPost?_not_sameAt edited
      · next id index place =>
          split at edited
          · have own : target.id = post.group := GroupTable.id_of_find? found
            exact own ▸ replacePost?_not_sameAt (own.symm ▸ found) edited
          · next elsewhere =>
              have differs := insertPost?_not_sameAt edited
              rwa [GroupTable.SameAt, find?_removePost?_of_ne (locate?_hinted place) elsewhere]
                at differs

omit [OrderKey κ] [OrderKey.Lawful κ] in
theorem find?_withdrawPosts (draft : Draft κ) (keep : GroupId) (posts : List (Post κ))
    : (posts.foldl (fun draft post => draft.withdrawPost keep post.id) draft).table.find? keep
      = draft.table.find? keep := by
  induction posts generalizing draft with
  | nil => rfl
  | cons head rest ih => rw [List.foldl_cons, ih, find?_withdrawPost]

end Draft

/-- A group repeats the title, the place and the time of change of one with its identifier, without
being equal to it.
-/
structure Group.Restates (group existing : Group κ) : Prop where
  title : group.title = existing.title
  x : group.x = existing.x
  y : group.y = existing.y
  z : group.z = existing.z
  updatedAt : group.updatedAt = existing.updatedAt
  differs : (existing == group.normalized) = false

theorem Group.updatedAt_eq_of_beq {left right : Group κ} (same : (left == right) = true)
    : left.updatedAt = right.updatedAt := by
  simp only [BEq.beq, instBEqGroup.beq, Bool.and_eq_true, decide_eq_true_eq] at same
  tauto

namespace Draft

variable {draft next : Draft κ}

/-- A group that comes to a table is placed there for good: its posts leave other groups only. -/
theorem merged_isFor (draft : Draft κ) {group : Group κ}
    (named : ∀ post ∈ group.posts, post.group = group.id)
    : IsFor group.id draft (draft.merged group) := by
  have cleared : IsFor group.id draft
      (group.posts.foldl (fun draft post => draft.withdrawPost group.id post.id) draft) :=
    .foldl (fun post _ draft => draft.withdrawPost_isFor group.id post.id) draft
  simp only [merged]
  split
  · exact cleared.trans (.put _ group rfl)
  · next existing found =>
      let changed : Group κ :=
        { existing with
          title := group.title
          x := group.x
          y := group.y
          z := group.z
          updatedAt := group.updatedAt }
      have own : existing.id = group.id := GroupTable.id_of_find? found
      refine (cleared.trans (.put _ changed own)).trans (.foldl (fun post member draft => ?_) _)
      cases edited : draft.placePost? post with
      | none => exact .refl draft group.id
      | some placed => exact named post member ▸ placePost?_isFor edited

/-- A group that comes to a table is for that group alone. -/
theorem insertGroup?_isFor {group : Group κ} (edited : draft.insertGroup? group = some next)
    : IsFor group.id draft next := by
  rw [insertGroup?_eq] at edited
  split at edited
  · exact nomatch edited
  · have named : ∀ post ∈ group.normalized.posts, post.group = group.normalized.id := by
      intro post member
      obtain ⟨_, _, rfl⟩ := List.mem_map.mp member
      rfl
    exact Option.some.inj edited ▸ draft.merged_isFor named

theorem merged_find?_of_absent {group : Group κ} (absent : draft.table.find? group.id = none)
    : (draft.merged group).table.find? group.id = some group := by
  simp only [merged, find?_withdrawPosts, absent]
  exact GroupTable.find?_insert_self ..

/-- A group that comes to a table leaves its place there with other content, unless it restates the
group there: its fields are those of the group that is left.
-/
theorem insertGroup?_restates {group : Group κ} (edited : draft.insertGroup? group = some next)
    (same : draft.table.SameAt next.table group.id)
    : ∃ existing, draft.table.find? group.id = some existing ∧ group.Restates existing := by
  rw [insertGroup?_eq] at edited
  split at edited
  · exact nomatch edited
  · next news =>
      obtain rfl := Option.some.inj edited
      have own : group.normalized.id = group.id := rfl
      rw [GroupTable.SameAt] at same
      cases atOld : draft.table.find? group.id with
      | none =>
          rw [atOld, ← own, merged_find?_of_absent (own ▸ atOld)] at same
          simp at same
      | some existing =>
          refine ⟨existing, rfl, ?_⟩
          cases atNew : (draft.merged group.normalized).table.find? group.id with
          | none => simp [atOld, atNew] at same
          | some after =>
              rw [atOld, atNew] at same
              have fields := fields_of_merged (own ▸ atNew)
              obtain ⟨_, title, x, y, z, _⟩ := Group.face_beq_iff.mp (Group.face_beq_of_beq same)
              exact {
                title := (congrArg Group.title fields).trans title.symm
                x := (congrArg Group.x fields).trans x.symm
                y := (congrArg Group.y fields).trans y.symm
                z := (congrArg Group.z fields).trans z.symm
                updatedAt :=
                  (congrArg Group.updatedAt fields).trans (Group.updatedAt_eq_of_beq same).symm
                differs := by simpa [atOld] using news
              }

end Draft

end SharedBoard
