import SharedBoard.Proofs.Store.Face

/-! The posts of a board under edits, whatever order the board is in. Which post stands in which
group and under which key is left open: an edit takes posts with one identifier out at most, and
puts one post in at most.
-/

namespace SharedBoard

variable {κ : Type}

namespace GroupTable

variable {table before between after : GroupTable κ}

/-- A group that the table has makes no difference when it is put there again. -/
theorem insert_of_found {group : Group κ} (found : table.find? group.id = some group)
    : table.insert group = table := by
  refine ext_find? fun id => ?_
  rw [find?_insert]
  split
  · next here => rw [← here, found]
  · rfl

/-- After an insertion the groups are the new one and those with other identifiers, since no group
is there twice.
-/
theorem toList_insert_perm (table : GroupTable κ) (group : Group κ)
    : (table.insert group).toList.Perm (group :: (table.erase group.id).toList) := by
  have nodup (table : GroupTable κ) : table.toList.Nodup := by
    refine table.ascending.imp ?_
    intro left right below same
    rw [same, Uuid.lt_iff] at below
    omega
  have apart : group ∉ (table.erase group.id).toList := fun member =>
    (mem_toList_erase.mp member).2 rfl
  refine (List.perm_ext_iff_of_nodup (nodup _) (List.nodup_cons.mpr ⟨apart, nodup _⟩)).mpr ?_
  intro member
  rw [mem_toList_insert, List.mem_cons, mem_toList_erase]

/-- After an insertion the posts are those of the new group and those of all others. -/
theorem posts_insert_perm (table : GroupTable κ) (group : Group κ)
    : (table.insert group).posts.Perm (group.posts ++ (table.erase group.id).posts) := by
  rw [posts, posts, ← List.flatMap_cons]
  exact (table.toList_insert_perm group).flatMap_right _

/-- The posts of a table are those of any group of it and those of all others. -/
theorem posts_perm_of_find? {id : GroupId} {group : Group κ} (found : table.find? id = some group)
    : table.posts.Perm (group.posts ++ (table.erase id).posts) := by
  obtain rfl := id_of_find? found
  have perm := table.posts_insert_perm group
  rwa [insert_of_found found] at perm

/-- A group that changes but keeps its posts leaves the posts of the table as they are. -/
theorem posts_insert_of_same {old group : Group κ} (found : table.find? group.id = some old)
    (same : group.posts = old.posts)
    : (table.insert group).posts.Perm table.posts := by
  have perm := table.posts_insert_perm group
  rw [same] at perm
  exact perm.trans (posts_perm_of_find? found).symm

/-- A table that has the posts of another one but some with an identifier. -/
def Sheds (before after : GroupTable κ) (id : PostId) : Prop :=
  ∃ taken : List (Post κ),
    before.posts.Perm (taken ++ after.posts) ∧ ∀ old ∈ taken, old.id = id

/-- A table that has a post, or one that equals it, instead of some with its identifier, and
otherwise the posts of another table. A post that was not there before comes to the others.
-/
def Receives [OrderKey κ] (before after : GroupTable κ) (post : Post κ) : Prop :=
  ∃ (current : Post κ) (taken others : List (Post κ)),
    (current = post ∨ (current == post) = true)
    ∧ before.posts.Perm (taken ++ others)
    ∧ after.posts.Perm (current :: others)
    ∧ (∀ old ∈ taken, old.id = post.id)
    ∧ (taken = [] → ∀ old ∈ others, old.id ≠ post.id)

/-- The groups of a table are groups of another one with other posts. -/
def KeepsFields (before after : GroupTable κ) : Prop :=
  ∀ id group,
    after.find? id = some group
    → ∃ old, before.find? id = some old ∧ group = { old with posts := group.posts }

namespace KeepsFields

theorem refl (table : GroupTable κ) : table.KeepsFields table :=
  fun _ group found => ⟨group, found, rfl⟩

theorem trans (first : before.KeepsFields between) (second : between.KeepsFields after)
    : before.KeepsFields after := by
  intro id group found
  obtain ⟨middle, atMiddle, fromMiddle⟩ := second id group found
  obtain ⟨old, atOld, fromOld⟩ := first id middle atMiddle
  exact ⟨old, atOld, fromMiddle.trans (by rw [fromOld])⟩

/-- Putting a group back with other posts keeps its fields. -/
theorem insert {group : Group κ} (found : table.find? group.id = some group)
    (posts : List (Post κ))
    : table.KeepsFields (table.insert { group with posts := posts }) := by
  intro id other atId
  rw [find?_insert] at atId
  split at atId
  · next here =>
      obtain rfl := Option.some.inj atId
      exact ⟨group, here ▸ found, rfl⟩
  · exact ⟨other, atId, rfl⟩

theorem erase (table : GroupTable κ) (id : GroupId) : table.KeepsFields (table.erase id) := by
  intro other group found
  rw [find?_erase] at found
  split at found
  · simp at found
  · exact ⟨group, found, rfl⟩

end KeepsFields

namespace Sheds

/-- A table sheds nothing to be the same. -/
theorem refl (table : GroupTable κ) (id : PostId) : table.Sheds table id :=
  ⟨[], List.Perm.refl _, by simp⟩

/-- Posts with other identifiers are kept. -/
theorem mem {id : PostId} (sheds : before.Sheds after id) {old : Post κ}
    (member : old ∈ before.posts) (other : old.id ≠ id)
    : old ∈ after.posts := by
  obtain ⟨taken, perm, sameId⟩ := sheds
  rcases List.mem_append.mp (perm.subset member) with gone | kept
  · exact absurd (sameId old gone) other
  · exact kept

/-- No post comes to the table. -/
theorem subset {id : PostId} (sheds : before.Sheds after id) : after.posts ⊆ before.posts := by
  obtain ⟨taken, perm, _⟩ := sheds
  exact fun old member => perm.symm.subset (List.mem_append_right taken member)

theorem trans_perm {id : PostId} (sheds : before.Sheds between id)
    (perm : after.posts.Perm between.posts)
    : before.Sheds after id := by
  obtain ⟨taken, takenPerm, sameIds⟩ := sheds
  exact ⟨taken, takenPerm.trans (perm.symm.append_left taken), sameIds⟩

/-- Posts stay distinct when some are taken out. -/
theorem nodup {id : PostId} (sheds : before.Sheds after id)
    (distinct : (before.posts.map (·.id)).Nodup)
    : (after.posts.map (·.id)).Nodup := by
  obtain ⟨taken, perm, _⟩ := sheds
  rw [(perm.map _).nodup_iff, List.map_append] at distinct
  exact (List.nodup_append'.mp distinct).2.1

/-- Receiving a post after some with its identifier were taken out is receiving it. -/
theorem receives [OrderKey κ] {post : Post κ} (sheds : before.Sheds between post.id)
    (receives : between.Receives after post)
    : before.Receives after post := by
  obtain ⟨first, firstPerm, firstIds⟩ := sheds
  obtain ⟨current, second, others, same, secondPerm, perm, secondIds, absent⟩ := receives
  refine ⟨current, first ++ second, others, same, ?_, perm, ?_, ?_⟩
  · rw [List.append_assoc]
    exact firstPerm.trans (secondPerm.append_left first)
  · intro old member
    exact (List.mem_append.mp member).elim (firstIds old) (secondIds old)
  · intro none
    exact absent (List.append_eq_nil_iff.mp none).2

end Sheds

namespace Receives

variable [OrderKey κ] {post : Post κ}

/-- What stands for a post differs from it in the key at most. -/
theorem fields_of_same {current : Post κ} (same : current = post ∨ (current == post) = true)
    : current = { post with key := current.key } := by
  rcases same with rfl | equal
  · rfl
  · exact (Post.beq_iff.mp equal).1

/-- A table that has a post that equals another one receives the latter by staying as it is. -/
theorem of_present {current : Post κ} (member : current ∈ table.posts)
    (equal : (current == post) = true)
    : table.Receives table post := by
  obtain ⟨earlier, later, split⟩ := List.append_of_mem member
  have fields := (Post.beq_iff.mp equal).1
  have perm : table.posts.Perm (current :: (earlier ++ later)) := split ▸ List.perm_middle
  exact ⟨current, [current], earlier ++ later, .inr equal, perm, perm,
    List.forall_mem_singleton.mpr (by rw [fields]), by simp⟩

/-- The identifiers after a post came are its own and those before. -/
theorem mem_ids (receives : before.Receives after post) {id : PostId}
    : id ∈ after.posts.map (·.id) ↔ id = post.id ∨ id ∈ before.posts.map (·.id) := by
  obtain ⟨current, taken, others, same, perm, after, sameIds, _⟩ := receives
  have currentId : current.id = post.id := by rw [fields_of_same same]
  rw [(after.map _).mem_iff, (perm.map _).mem_iff, List.map_cons, List.mem_cons, List.map_append,
    List.mem_append, currentId]
  constructor
  · rintro (own | kept)
    · exact .inl own
    · exact .inr (.inr kept)
  · rintro (own | gone | kept)
    · exact .inl own
    · obtain ⟨old, member, rfl⟩ := List.mem_map.mp gone
      exact .inl (sameIds old member)
    · exact .inr kept

/-- Posts stay distinct, since those with the identifier of the new one are taken out. -/
theorem nodup (receives : before.Receives after post)
    (distinct : (before.posts.map (·.id)).Nodup)
    : (after.posts.map (·.id)).Nodup := by
  obtain ⟨current, taken, others, same, perm, after, sameIds, absent⟩ := receives
  have currentId : current.id = post.id := by rw [fields_of_same same]
  rw [(perm.map _).nodup_iff, List.map_append] at distinct
  rw [(after.map _).nodup_iff, List.map_cons, List.nodup_cons, currentId]
  obtain ⟨_, othersDistinct, apart⟩ := List.nodup_append'.mp distinct
  refine ⟨fun again => ?_, othersDistinct⟩
  cases taken with
  | nil =>
      obtain ⟨old, member, sameId⟩ := List.mem_map.mp again
      exact absent rfl old member sameId
  | cons head rest =>
      have headId := sameIds head List.mem_cons_self
      exact apart (List.mem_map_of_mem List.mem_cons_self) (headId.symm ▸ again)

/-- Posts with other identifiers are kept. -/
theorem mem (receives : before.Receives after post) {old : Post κ} (member : old ∈ before.posts)
    (other : old.id ≠ post.id)
    : old ∈ after.posts := by
  obtain ⟨_, taken, others, _, perm, after, sameIds, _⟩ := receives
  rcases List.mem_append.mp (perm.subset member) with gone | kept
  · exact absurd (sameIds old gone) other
  · exact after.symm.subset (List.mem_cons_of_mem _ kept)

/-- The table has the new post, under some key. -/
theorem exists_mem (receives : before.Receives after post)
    : ∃ current ∈ after.posts, current = { post with key := current.key } := by
  obtain ⟨current, _, _, same, _, after, _, _⟩ := receives
  exact ⟨current, after.symm.subset List.mem_cons_self, fields_of_same same⟩

/-- A post of the table is the new one, under some key, or was there under another identifier. -/
theorem cases_of_mem (receives : before.Receives after post)
    (distinct : (before.posts.map (·.id)).Nodup) {old : Post κ} (member : old ∈ after.posts)
    : old = { post with key := old.key } ∨ (old ∈ before.posts ∧ old.id ≠ post.id) := by
  have afterDistinct := receives.nodup distinct
  obtain ⟨current, taken, others, same, perm, after, _, _⟩ := receives
  have currentId : current.id = post.id := by rw [fields_of_same same]
  rcases List.mem_cons.mp (after.subset member) with rfl | kept
  · exact .inl (fields_of_same same)
  · refine .inr ⟨perm.symm.subset (List.mem_append_right taken kept), fun sameId => ?_⟩
    rw [(after.map _).nodup_iff, List.map_cons, List.nodup_cons] at afterDistinct
    exact afterDistinct.1 (List.mem_map.mpr ⟨old, kept, sameId.trans currentId.symm⟩)

end Receives

end GroupTable

-----------------------------------------------------------------------------------------
-- Edits
-----------------------------------------------------------------------------------------

namespace Draft

variable {draft next : Draft κ}

/-- Putting a group back with other posts exchanges these posts. -/
theorem posts_put_perm {group : Group κ} (found : draft.table.find? group.id = some group)
    {posts rest : List (Post κ)} (perm : group.posts.Perm (posts ++ rest))
    : ∃ others,
        draft.table.posts.Perm (posts ++ others)
        ∧ ∀ changed added : List (Post κ),
            changed.Perm (added ++ rest)
            → (draft.put { group with posts := changed }).table.posts.Perm (added ++ others) := by
  refine ⟨rest ++ (draft.table.erase group.id).posts, ?_, ?_⟩
  · rw [← List.append_assoc]
    exact (GroupTable.posts_perm_of_find? found).trans (perm.append_right _)
  · intro changed added changedPerm
    rw [← List.append_assoc]
    exact (draft.table.posts_insert_perm { group with posts := changed }).trans
      (changedPerm.append_right _)

/-- Removing a post takes one with its identifier out, and nothing else. -/
theorem removePost?_perm {post : PostId} {hint : Option GroupId}
    (edited : draft.removePost? post hint = some next)
    : ∃ taken : Post κ,
        taken.id = post ∧ draft.table.posts.Perm (taken :: next.table.posts) := by
  simp only [removePost?, Option.bind_eq_bind, Option.bind_eq_some_iff] at edited
  obtain ⟨⟨id, index⟩, place, group, found, edited⟩ := edited
  obtain ⟨other, current, otherFound, here, sameId⟩ := GroupTable.exists_of_locate? place
  obtain rfl := Option.some.inj (found.symm.trans otherFound)
  obtain rfl := GroupTable.id_of_find? found
  obtain ⟨bound, rfl⟩ := List.getElem?_eq_some_iff.mp here
  have perm : group.posts.Perm ([group.posts[index]] ++ group.posts.eraseIdx index) :=
    (List.getElem_cons_eraseIdx_perm bound).symm
  refine ⟨group.posts[index], sameId, ?_⟩
  split at edited
  · next none =>
      obtain rfl := Option.some.inj edited
      rw [List.isEmpty_iff.mp none] at perm
      exact (GroupTable.posts_perm_of_find? found).trans (perm.append_right _)
  · obtain rfl := Option.some.inj edited
    obtain ⟨others, before, after⟩ := posts_put_perm found perm
    have kept := after (group.posts.eraseIdx index) [] (List.Perm.refl _)
    exact before.trans (List.Perm.cons _ kept.symm)

/-- Removing a post keeps the fields of all groups that stay. -/
theorem removePost?_keepsFields {post : PostId} {hint : Option GroupId}
    (edited : draft.removePost? post hint = some next)
    : draft.table.KeepsFields next.table := by
  simp only [removePost?, Option.bind_eq_bind, Option.bind_eq_some_iff] at edited
  obtain ⟨⟨id, index⟩, place, group, found, edited⟩ := edited
  obtain rfl := GroupTable.id_of_find? found
  split at edited
  · obtain rfl := Option.some.inj edited
    exact GroupTable.KeepsFields.erase draft.table group.id
  · obtain rfl := Option.some.inj edited
    exact .insert found _

/-- Removing a post from where it is leaves the other groups as they are. -/
theorem find?_removePost?_of_ne {post : PostId} {id other : GroupId} {index : Nat}
    (place : draft.table.locate? post (some id) = some (id, index)) (differs : id ≠ other)
    : ((draft.removePost? post (some id)).getD draft).table.find? other
      = draft.table.find? other := by
  obtain ⟨group, _, found, _⟩ := GroupTable.exists_of_locate? place
  have own := GroupTable.id_of_find? found
  simp only [removePost?, place, found, Option.bind_eq_bind, Option.bind_some]
  split
  · exact (GroupTable.find?_erase ..).trans (if_neg differs)
  · exact GroupTable.find?_insert_of_ne fun same => differs (own.symm.trans same)

theorem locate?_hinted {post : PostId} {hint : Option GroupId} {id : GroupId} {index : Nat}
    (place : draft.table.locate? post hint = some (id, index))
    : draft.table.locate? post (some id) = some (id, index) := by
  obtain ⟨group, found, here⟩ := GroupTable.find?_of_locate? place
  simp only [GroupTable.locate?, Option.bind_some, found, here]

/-- Withdrawing a post leaves the group to keep as it is. -/
theorem find?_withdrawPost (draft : Draft κ) (keep : GroupId) (post : PostId)
    : (draft.withdrawPost keep post).table.find? keep = draft.table.find? keep := by
  unfold withdrawPost
  split
  · next id index place =>
      split
      · rfl
      · next elsewhere => exact find?_removePost?_of_ne (locate?_hinted place) elsewhere
  · rfl

/-- Withdrawing a post takes one with its identifier out at most. -/
theorem withdrawPost_sheds (draft : Draft κ) (keep : GroupId) (post : PostId)
    : draft.table.Sheds (draft.withdrawPost keep post).table post := by
  unfold withdrawPost
  split
  · split
    · exact .refl ..
    · cases removed : draft.removePost? post (some _) with
      | none => exact .refl ..
      | some next =>
          obtain ⟨taken, sameId, perm⟩ := removePost?_perm removed
          exact ⟨[taken], perm, List.forall_mem_singleton.mpr sameId⟩
  · exact .refl ..

variable [OrderKey κ]

/-- Inserting a post adds it to the others. -/
theorem insertPost?_perm {post : Post κ} (edited : draft.insertPost? post = some next)
    : next.table.posts.Perm (post :: draft.table.posts) := by
  obtain ⟨group, found, rfl⟩ := Option.map_eq_some_iff.mp edited
  obtain own := GroupTable.id_of_find? found
  obtain ⟨others, before, after⟩ :=
    posts_put_perm (own.symm ▸ found) (List.Perm.refl ([] ++ group.posts))
  exact (after _ [post] (Post.insertInto_perm group.posts post)).trans
    (List.Perm.cons post before.symm)

/-- A post that is replaced makes room for the new version. -/
theorem replacePost?_receives {group : Group κ} (found : draft.table.find? group.id = some group)
    {index : Nat} {current post : Post κ} (here : group.posts[index]? = some current)
    (sameId : current.id = post.id)
    : draft.table.Receives ((draft.replacePost? group index post).getD draft).table post := by
  obtain ⟨bound, rfl⟩ := List.getElem?_eq_some_iff.mp here
  have perm : group.posts.Perm ([group.posts[index]] ++ group.posts.eraseIdx index) :=
    (List.getElem_cons_eraseIdx_perm bound).symm
  obtain ⟨others, before, after⟩ := posts_put_perm found perm
  simp only [replacePost?, here, Option.bind_some]
  split
  · next equal => exact .of_present (before.symm.subset List.mem_cons_self) equal
  · have replaced (posts : List (Post κ)) (put : posts.Perm (post :: group.posts.eraseIdx index))
        : draft.table.Receives (draft.put { group with posts := posts }).table post :=
      ⟨post, [group.posts[index]], others, .inl rfl, before, after _ [post] put,
        List.forall_mem_singleton.mpr sameId, by simp⟩
    split
    · exact replaced _ (List.set_perm_cons_eraseIdx bound post)
    · exact replaced _ (Post.insertInto_perm _ post)

/-- A post that names a group of the table is received, wherever it was. -/
theorem placePost?_receives {post : Post κ} {target : Group κ}
    (found : draft.table.find? post.group = some target)
    : draft.table.Receives ((draft.placePost? post).getD draft).table post := by
  have own := GroupTable.id_of_find? found
  simp only [placePost?, found]
  split
  · next absent =>
      have inserted : ∃ next, draft.insertPost? post = some next := by simp [insertPost?, found]
      obtain ⟨next, edited⟩ := inserted
      rw [edited, Option.getD_some]
      exact ⟨post, [], draft.table.posts, .inl rfl, List.Perm.refl _, insertPost?_perm edited,
        by simp, fun _ => GroupTable.locate?_eq_none_iff.mp absent⟩
  · next id index place =>
      split
      · next inTarget =>
          obtain ⟨group, current, groupFound, here, sameId⟩ := GroupTable.exists_of_locate? place
          rw [inTarget, found] at groupFound
          obtain rfl := Option.some.inj groupFound
          exact replacePost?_receives (own.symm ▸ found) here sameId
      · next elsewhere =>
          have stays := (find?_removePost?_of_ne (locate?_hinted place) elsewhere).trans found
          obtain ⟨removed, removedEq⟩ := Option.isSome_iff_exists.mp
            (removePost?_isSome (locate?_isSome place (some id)))
          obtain ⟨taken, sameId, perm⟩ := removePost?_perm removedEq
          rw [removedEq, Option.getD_some] at stays ⊢
          have inserted : ∃ next, removed.insertPost? post = some next := by
            simp [insertPost?, stays]
          obtain ⟨next, edited⟩ := inserted
          rw [edited, Option.getD_some]
          exact ⟨post, [taken], removed.table.posts, .inl rfl, perm, insertPost?_perm edited,
            List.forall_mem_singleton.mpr sameId, by simp⟩

/-- Inserting a post keeps the fields of all groups. -/
theorem insertPost?_keepsFields {post : Post κ} (edited : draft.insertPost? post = some next)
    : draft.table.KeepsFields next.table := by
  obtain ⟨group, found, rfl⟩ := Option.map_eq_some_iff.mp edited
  exact .insert ((GroupTable.id_of_find? found).symm ▸ found) _

/-- Placing a post keeps the fields of all groups that stay. -/
theorem placePost?_keepsFields {post : Post κ} (edited : draft.placePost? post = some next)
    : draft.table.KeepsFields next.table := by
  unfold placePost? at edited
  split at edited
  · simp at edited
  · next target found =>
      have own := GroupTable.id_of_find? found
      split at edited
      · exact insertPost?_keepsFields edited
      · next id index _ =>
          split at edited
          · obtain ⟨current, _, edited⟩ := Option.bind_eq_some_iff.mp edited
            split at edited
            · simp at edited
            · split at edited
              · obtain rfl := Option.some.inj edited
                exact .insert (own.symm ▸ found) _
              · obtain rfl := Option.some.inj edited
                exact .insert (own.symm ▸ found) _
          · cases removed : draft.removePost? post.id (some id) with
            | none =>
                rw [removed] at edited
                exact insertPost?_keepsFields edited
            | some between =>
                rw [removed] at edited
                exact (removePost?_keepsFields removed).trans (insertPost?_keepsFields edited)

omit [OrderKey κ] in
/-- Withdrawing a post leaves none with its identifier behind unless it takes one out, if there
is no group to keep.
-/
theorem withdrawPost_of_absent {keep : GroupId} (absent : draft.table.find? keep = none)
    (post : PostId)
    : ∃ taken : List (Post κ),
        draft.table.posts.Perm (taken ++ (draft.withdrawPost keep post).table.posts)
        ∧ (∀ old ∈ taken, old.id = post)
        ∧ (taken = []
          → ∀ old ∈ (draft.withdrawPost keep post).table.posts, old.id ≠ post) := by
  unfold withdrawPost
  split
  · next id index place =>
      obtain ⟨group, _, found, _⟩ := GroupTable.exists_of_locate? place
      have elsewhere : id ≠ keep := by
        rintro rfl
        simp [found] at absent
      obtain ⟨removed, removedEq⟩ := Option.isSome_iff_exists.mp
        (removePost?_isSome (locate?_isSome place (some id)))
      obtain ⟨taken, sameId, perm⟩ := removePost?_perm removedEq
      rw [if_neg elsewhere, removedEq, Option.getD_some]
      exact ⟨[taken], perm, List.forall_mem_singleton.mpr sameId, by simp⟩
  · next nowhere =>
      exact ⟨[], List.Perm.refl _, by simp, fun _ => GroupTable.locate?_eq_none_iff.mp nowhere⟩

/-- A post that names a group of the table is received when other fields of that group change first.
-/
theorem placePost?_receives_of_put {existing changed : Group κ} {post : Post κ}
    (found : draft.table.find? changed.id = some existing)
    (samePosts : changed.posts = existing.posts) (named : post.group = changed.id)
    : draft.table.Receives
        (((draft.put changed).placePost? post).getD (draft.put changed)).table post := by
  have kept := (GroupTable.Sheds.refl draft.table post.id).trans_perm
    (GroupTable.posts_insert_of_same found samePosts)
  have target : (draft.put changed).table.find? post.group = some changed := by
    rw [named]
    exact GroupTable.find?_insert_self ..
  exact kept.receives (placePost?_receives target)

/-- A group of one post brings that post to the table, wherever it was, and whether the table has
the group already or not.
-/
theorem insertGroup?_receives (draft : Draft κ) {group : Group κ} {post : Post κ}
    (only : group.normalized.posts = [post]) (named : post.group = group.id)
    : draft.table.Receives ((draft.insertGroup? group).getD draft).table post := by
  rw [insertGroup?_eq]
  split
  · next there =>
      obtain ⟨existing, found, equal⟩ := (Option.any_eq_true _ _).mp there
      obtain ⟨_, _, _, _, _, posts⟩ := Group.face_beq_iff.mp (Group.face_beq_of_beq equal)
      obtain ⟨current, inExisting, same⟩ :=
        Post.exists_beq_of_mem posts (only ▸ List.mem_singleton_self post)
      exact .of_present
        (GroupTable.mem_posts.mpr ⟨existing, GroupTable.mem_toList_of_find? found, inExisting⟩) same
  · have own : group.normalized.id = group.id := rfl
    simp only [merged, own, only, List.foldl_cons, List.foldl_nil, Option.getD_some]
    split
    · next absent =>
        rw [find?_withdrawPost] at absent
        obtain ⟨taken, perm, sameIds, gone⟩ := withdrawPost_of_absent absent post.id
        have after := (draft.withdrawPost group.id post.id).table.posts_insert_perm group.normalized
        rw [own, only, GroupTable.erase_of_absent (by rw [find?_withdrawPost, absent])] at after
        exact ⟨post, taken, _, .inl rfl, perm, after, sameIds, gone⟩
    · next existing found =>
        have existingId : existing.id = group.id := GroupTable.id_of_find? found
        have atOwn : (draft.withdrawPost group.id post.id).table.find? existing.id
            = some existing := by
          rw [existingId, found]
        exact (draft.withdrawPost_sheds group.id post.id).receives
          (placePost?_receives_of_put atOwn rfl (named.trans existingId.symm))

end Draft

-----------------------------------------------------------------------------------------
-- Boards
-----------------------------------------------------------------------------------------

namespace Store

variable {store : Store κ}

/-- The groups after an edit are those of the edited table. -/
theorem groups_edit (store : Store κ) (change : Draft κ → Option (Draft κ))
    : (store.edit change).store.groups
      = ((change ⟨store.groups, []⟩).getD ⟨store.groups, []⟩).table := by
  unfold edit
  cases change ⟨store.groups, []⟩ with
  | none => rfl
  | some next => rfl

/-- Removing a group leaves some of the posts, in the same order. -/
theorem posts_groupRemoved_sublist (store : Store κ) (id : GroupId)
    : (store.groupRemoved id).store.groups.posts.Sublist store.groups.posts := by
  rw [groups_groupRemoved]
  exact List.filter_sublist.flatMap _

/-- A post that is removed is the only one that leaves the board. -/
theorem postRemoved_sheds (store : Store κ) (post : Post κ)
    : store.groups.Sheds (store.postRemoved post).store.groups post.id := by
  unfold postRemoved
  split
  · rw [Update.andThen_store, (typingStopped_sameBoard _ _).1, groups_edit]
    cases edited : (⟨store.groups, []⟩ : Draft κ).removePost? post.id (some post.group) with
    | none => exact .refl ..
    | some next =>
        obtain ⟨taken, sameId, perm⟩ := Draft.removePost?_perm edited
        exact ⟨[taken], perm, List.forall_mem_singleton.mpr sameId⟩
  · exact .refl ..

/-- A post is not on a board of distinct posts after its removal. -/
theorem absent_postRemoved (distinct : (store.groups.posts.map (·.id)).Nodup) (post : Post κ)
    : ∀ old ∈ (store.postRemoved post).store.groups.posts, old.id ≠ post.id := by
  unfold postRemoved
  split
  · next located =>
      have removable
          : ((⟨store.groups, []⟩ : Draft κ).removePost? post.id (some post.group)).isSome :=
        Draft.removePost?_isSome located
      obtain ⟨next, edited⟩ := Option.isSome_iff_exists.mp removable
      obtain ⟨taken, sameId, perm⟩ := Draft.removePost?_perm edited
      rw [(perm.map _).nodup_iff, List.map_cons, List.nodup_cons] at distinct
      rw [Update.andThen_store, (typingStopped_sameBoard _ _).1, groups_edit, edited]
      intro old member same
      exact distinct.1 (List.mem_map.mpr ⟨old, member, same.trans sameId.symm⟩)
  · next missing =>
      exact GroupTable.locate?_eq_none_iff.mp (Option.not_isSome_iff_eq_none.mp missing)

variable [OrderKey κ]

/-- A change of a group moves no post. -/
theorem posts_groupPatched (store : Store κ) (patch : GroupPatch)
    : (store.groupPatched patch).store.groups.posts.Perm store.groups.posts := by
  cases found : store.group? patch.id with
  | none =>
      rw [groupPatched_of_absent found]
      rfl
  | some group =>
      by_cases same : (patch.applyTo group == group) = true
      · rw [groupPatched_of_beq found same]
        rfl
      · have own : store.groups.find? (patch.applyTo group).id = some group :=
          (GroupTable.id_of_find? found).symm ▸ found
        rw [groups_groupPatched_of_ne found same]
        exact GroupTable.posts_insert_of_same own (patch.applyTo_posts group)

theorem groups_postUpdated (store : Store κ) (post : Post κ)
    : (store.postUpdated post).store.groups
      = (((⟨store.groups, []⟩ : Draft κ).placePost? post).getD ⟨store.groups, []⟩).table := by
  rw [postUpdated, Update.andThen_store, (typingStopped_sameBoard _ _).1, groups_edit]

/-- A post that is updated comes to its group, if the board has it. -/
theorem postUpdated_receives {post : Post κ} {group : Group κ}
    (found : store.group? post.group = some group)
    : store.groups.Receives (store.postUpdated post).store.groups post := by
  have inDraft : (⟨store.groups, []⟩ : Draft κ).table.find? post.group = some group := found
  rw [groups_postUpdated]
  exact Draft.placePost?_receives inDraft

/-- A post that is updated in a group that the board does not have changes nothing. -/
theorem groups_postUpdated_of_absent {post : Post κ} (absent : store.group? post.group = none)
    : (store.postUpdated post).store.groups = store.groups := by
  have inDraft : (⟨store.groups, []⟩ : Draft κ).table.find? post.group = none := absent
  rw [groups_postUpdated, Draft.placePost?, inDraft]
  rfl

/-- A post that leaves its group comes to its new one. -/
theorem postDetached_receives (store : Store κ) (post : Post κ) (group : Group κ)
    : store.groups.Receives (store.postDetached post group).store.groups
        { post with group := group.id } := by
  let only : Post κ := { post with group := group.id }
  have normal : ({ group with posts := [only] } : Group κ).normalized.posts = [only] := by
    rw [Group.normalized_singleton rfl rfl]
  rw [postDetached, groups_edit]
  exact Draft.insertGroup?_receives ⟨store.groups, []⟩ normal rfl

/-- A group of one post brings that post to the board. -/
theorem groupCreated_receives (store : Store κ) {group : Group κ} {post : Post κ}
    (only : group.posts = [post])
    : store.groups.Receives (store.groupCreated group).store.groups
        { post with group := group.id } := by
  have normal : group.normalized.posts = [{ post with group := group.id }] := by
    simp only [Group.normalized, Post.sorted, only, List.mergeSort_singleton, List.map_cons,
      List.map_nil]
  have occupied : group.posts.isEmpty = false := by rw [only]; rfl
  rw [groupCreated, occupied, if_neg Bool.false_ne_true, groups_edit]
  exact Draft.insertGroup?_receives ⟨store.groups, []⟩ normal rfl

/-- A post that is created comes to its group, which may come with it. -/
theorem postCreated_receives (store : Store κ) (post : Post κ) (group : Group κ)
    : store.groups.Receives (store.postCreated post group).store.groups
        { post with group := group.id } := by
  unfold postCreated
  split
  · next there =>
      obtain ⟨target, found⟩ := Option.isSome_iff_exists.mp there
      have inDraft : (⟨store.groups, []⟩ : Draft κ).table.find?
          ({ post with group := group.id } : Post κ).group = some target := found
      rw [postAdded, groups_edit]
      exact Draft.placePost?_receives inDraft
  · exact store.groupCreated_receives rfl

end Store

end SharedBoard
