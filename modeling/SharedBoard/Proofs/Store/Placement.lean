import SharedBoard.Proofs.Store.Posts

/-! Where posts stand after edits of a table in good order, group by group. An edit of one post
takes it out of the group that holds it, where the others stay as they are, and puts it among the
posts of the group that it is for.
-/

namespace SharedBoard

variable {κ : Type}

/-- Posts without the one with an identifier are all of them if none has it. -/
theorem Post.filter_of_absent {posts : List (Post κ)} {id : PostId}
    (absent : ∀ old ∈ posts, old.id ≠ id)
    : posts.filter (·.id != id) = posts :=
  List.filter_eq_self.mpr fun old member => by simpa using absent old member

namespace Group

/-- The posts of a group but one. -/
def others (group : Group κ) (post : PostId) : List (Post κ) :=
  group.posts.filter (·.id != post)

/-- What is left of a group without a post. Of a group of that post alone nothing is left. -/
def without? (group : Group κ) (post : PostId) : Option (Group κ) :=
  if (group.others post).isEmpty then none else some { group with posts := group.others post }

variable {group : Group κ} {post : PostId}

theorem mem_others {other : Post κ}
    : other ∈ group.others post ↔ other ∈ group.posts ∧ other.id ≠ post := by
  simp [others]

/-- A group has only other posts when it does not have the one. -/
theorem others_of_absent (absent : ∀ old ∈ group.posts, old.id ≠ post)
    : group.others post = group.posts :=
  Post.filter_of_absent absent

theorem without?_of_absent (occupied : group.posts ≠ [])
    (absent : ∀ old ∈ group.posts, old.id ≠ post)
    : group.without? post = some group := by
  rw [without?, others_of_absent absent, if_neg (by simpa using occupied)]

theorem posts_of_without? {rest : Group κ} (left : group.without? post = some rest)
    : rest.posts = group.others post := by
  unfold without? at left
  split at left
  · simp at left
  · exact (congrArg Group.posts (Option.some.inj left)).symm

/-- A group of which nothing is left without a post has only that one. -/
theorem exists_posts_eq_of_without? (occupied : group.posts ≠ [])
    (distinct : (group.posts.map (·.id)).Nodup) (gone : group.without? post = none)
    : ∃ only, group.posts = [only] ∧ only.id = post := by
  have bare : group.others post = [] := by
    unfold without? at gone
    split at gone
    · next none => exact List.isEmpty_iff.mp none
    · simp at gone
  have same (old : Post κ) (member : old ∈ group.posts) : old.id = post := by
    by_contra differs
    have kept := mem_others.mpr ⟨member, differs⟩
    rw [bare] at kept
    exact List.not_mem_nil kept
  cases posts : group.posts with
  | nil => exact absurd posts occupied
  | cons only rest =>
      cases rest with
      | nil => exact ⟨only, rfl, same only (by simp [posts])⟩
      | cons second later =>
          have one := (same only (by simp [posts])).trans (same second (by simp [posts])).symm
          simp [posts, one] at distinct

theorem without?_of_only {old : Post κ} (only : group.posts = [old])
    : group.without? old.id = none := by
  simp [without?, others, only]

/-- Without one post out of several a group has the others. -/
theorem without?_of_several (distinct : (group.posts.map (·.id)).Nodup) {old : Post κ}
    (member : old ∈ group.posts) (several : group.posts ≠ [old])
    : group.without? old.id = some { group with posts := group.others old.id } := by
  cases left : group.without? old.id with
  | none =>
      obtain ⟨only, posts, _⟩ :=
        exists_posts_eq_of_without? (List.ne_nil_of_mem member) distinct left
      rw [posts, List.mem_singleton] at member
      exact absurd (member ▸ posts) several
  | some rest =>
      unfold without? at left
      split at left
      · simp at left
      · rw [← left]

/-- What is left of a group without a post has all the others. -/
theorem getD_posts_without? (group : Group κ) (post : PostId)
    : ((group.without? post).map (·.posts)).getD [] = group.others post := by
  unfold without?
  split
  · next none => exact (List.isEmpty_iff.mp none).symm
  · rfl

/-- What is left of a group without a post is left again without it. -/
theorem bind_without?_without? (group : Group κ) (post : PostId)
    : (group.without? post).bind (·.without? post) = group.without? post := by
  unfold without?
  split
  · rfl
  · next occupied =>
      have again : ({ group with posts := group.others post } : Group κ).others post
          = group.others post :=
        others_of_absent fun old member => (mem_others.mp member).2
      rw [Option.bind_some, again, if_neg occupied]

end Group

/-- Without the post at an index a list of posts with distinct identifiers is the list of the
others, by induction.
-/
theorem Post.eraseIdx_eq_filter {posts : List (Post κ)} (distinct : (posts.map (·.id)).Nodup)
    {index : Nat} {current : Post κ} (here : posts[index]? = some current)
    : posts.eraseIdx index = posts.filter (·.id != current.id) := by
  induction posts generalizing index with
  | nil => simp at here
  | cons head rest ih =>
      rw [List.map_cons, List.nodup_cons] at distinct
      cases index with
      | zero =>
          obtain rfl : head = current := by simpa using here
          rw [List.eraseIdx_cons_zero, List.filter_cons_of_neg (by simp)]
          refine (List.filter_eq_self.mpr fun other member => ?_).symm
          have differs : other.id ≠ head.id := fun same =>
            distinct.1 (same ▸ List.mem_map_of_mem member)
          simpa using differs
      | succ index =>
          have inRest : rest[index]? = some current := by simpa using here
          have differs : head.id ≠ current.id := fun same =>
            distinct.1 (same ▸ List.mem_map_of_mem (List.mem_of_getElem? inRest))
          rw [List.eraseIdx_cons_succ, List.filter_cons_of_pos (by simpa using differs),
            ih distinct.2 inRest]

/-- A post with the identifier of the old one in its place leaves the others as they are, by
induction.
-/
theorem Post.filter_set {posts : List (Post κ)} {index : Nat} {current post : Post κ}
    (here : posts[index]? = some current) (sameId : current.id = post.id)
    : (posts.set index post).filter (·.id != post.id) = posts.filter (·.id != post.id) := by
  induction posts generalizing index with
  | nil => rfl
  | cons head rest ih =>
      cases index with
      | zero =>
          obtain rfl : head = current := by simpa using here
          rw [List.set_cons_zero, List.filter_cons_of_neg (by simp),
            List.filter_cons_of_neg (by simp [sameId])]
      | succ index =>
          rw [List.set_cons_succ, List.filter_cons, List.filter_cons, ih (by simpa using here)]

namespace GroupTable

/-- A group of the table has a post with an identifier. -/
def Holds (table : GroupTable κ) (id : GroupId) (post : PostId) : Prop :=
  ∃ group, table.find? id = some group ∧ ∃ old ∈ group.posts, old.id = post

variable {table before between after : GroupTable κ}

theorem Holds.exists_mem_posts {id : GroupId} {post : PostId} (holds : table.Holds id post)
    : ∃ old ∈ table.posts, old.id = post := by
  obtain ⟨group, found, old, inGroup, sameId⟩ := holds
  exact ⟨old, mem_posts.mpr ⟨group, mem_toList_of_find? found, inGroup⟩, sameId⟩

variable [OrderKey κ]

namespace WellFormed

/-- At most one group holds a post. -/
theorem holder_unique (wellFormed : table.WellFormed) {left right : GroupId} {post : PostId}
    (leftHolds : table.Holds left post) (rightHolds : table.Holds right post)
    : left = right := by
  obtain ⟨leftGroup, leftFound, old, inLeft, rfl⟩ := leftHolds
  obtain ⟨rightGroup, rightFound, other, inRight, sameId⟩ := rightHolds
  have same := (unique_iff.mp wellFormed.unique).2 leftGroup (mem_toList_of_find? leftFound)
    rightGroup (mem_toList_of_find? rightFound) old inLeft other inRight sameId.symm
  rw [← id_of_find? leftFound, ← id_of_find? rightFound, same]

/-- Without a post that it does not hold a group is left as it is. -/
theorem bind_without? (wellFormed : table.WellFormed) {id : GroupId} {post : PostId}
    (absent : ¬ table.Holds id post)
    : (table.find? id).bind (·.without? post) = table.find? id := by
  cases found : table.find? id with
  | none => rfl
  | some group =>
      rw [Option.bind_some]
      refine Group.without?_of_absent
        (wellFormed.groups group (mem_toList_of_find? found)).occupied fun old inGroup sameId => ?_
      exact absent ⟨group, found, old, inGroup, sameId⟩

/-- A post in one group is in no other. -/
theorem not_holds_of_ne (wellFormed : table.WellFormed) {home id : GroupId} {post : PostId}
    (holds : table.Holds home post) (elsewhere : id ≠ home)
    : ¬ table.Holds id post := fun there =>
  elsewhere (wellFormed.holder_unique there holds)

end WellFormed

/-- In the other table every group is what is left of it without a post, apart from one group. -/
def LosesOutside (before after : GroupTable κ) (post : PostId) (target : GroupId) : Prop :=
  ∀ id, id ≠ target → after.find? id = (before.find? id).bind (·.without? post)

namespace LosesOutside

variable {post : PostId} {target : GroupId}

omit [OrderKey κ] in
theorem trans (first : before.LosesOutside between post target)
    (second : between.LosesOutside after post target)
    : before.LosesOutside after post target := by
  intro id elsewhere
  rw [second id elsewhere, first id elsewhere]
  cases before.find? id with
  | none => rfl
  | some group => exact group.bind_without?_without? post

omit [OrderKey κ] in
/-- What happens to the group apart makes no difference to the others. -/
theorem insert (loses : before.LosesOutside after post target) {group : Group κ}
    (own : group.id = target)
    : before.LosesOutside (after.insert group) post target := by
  intro id elsewhere
  rw [find?_insert_of_ne fun same => elsewhere (same.symm.trans own), loses id elsewhere]

/-- A table loses nothing outside a group if only that group may hold the post. -/
theorem of_eq (wellFormed : before.WellFormed)
    (absent : ∀ id, id ≠ target → ¬ before.Holds id post)
    : before.LosesOutside before post target := fun id elsewhere =>
  (wellFormed.bind_without? (absent id elsewhere)).symm

omit [OrderKey κ] in
/-- The post is in no group but the one apart. -/
theorem not_holds (loses : before.LosesOutside after post target) {id : GroupId}
    (elsewhere : id ≠ target)
    : ¬ after.Holds id post := by
  rintro ⟨group, found, old, inGroup, sameId⟩
  rw [loses id elsewhere, Option.bind_eq_some_iff] at found
  obtain ⟨whole, _, left⟩ := found
  rw [Group.posts_of_without? left] at inGroup
  exact (Group.mem_others.mp inGroup).2 sameId

omit [OrderKey κ] in
/-- A group that is not apart has the fields of one that was there before, and some of its posts. -/
theorem exists_of_find? (loses : before.LosesOutside after post target) {id : GroupId}
    (elsewhere : id ≠ target) {group : Group κ} (found : after.find? id = some group)
    : ∃ old,
        before.find? id = some old
        ∧ group = { old with posts := group.posts }
        ∧ group.posts = old.others post := by
  rw [loses id elsewhere, Option.bind_eq_some_iff] at found
  obtain ⟨old, atOld, left⟩ := found
  refine ⟨old, atOld, ?_, Group.posts_of_without? left⟩
  unfold Group.without? at left
  split at left
  · simp at left
  · rw [← Option.some.inj left]

omit [OrderKey κ] in
/-- A post of the table is in the group apart, or was there before. -/
theorem mem_posts (loses : before.LosesOutside after post target) {old : Post κ}
    (member : old ∈ after.posts)
    : (∃ group, after.find? target = some group ∧ old ∈ group.posts) ∨ old ∈ before.posts := by
  obtain ⟨group, inTable, inGroup⟩ := GroupTable.mem_posts.mp member
  by_cases apart : group.id = target
  · exact .inl ⟨group, apart ▸ mem_toList_iff.mp inTable, inGroup⟩
  · obtain ⟨former, found, _, posts⟩ := loses.exists_of_find? apart (mem_toList_iff.mp inTable)
    rw [posts] at inGroup
    exact .inr (GroupTable.mem_posts.mpr
      ⟨former, mem_toList_of_find? found, (Group.mem_others.mp inGroup).1⟩)

end LosesOutside

end GroupTable

-----------------------------------------------------------------------------------------
-- Taking a post out
-----------------------------------------------------------------------------------------

namespace Draft

variable {draft next : Draft κ}

/-- The only groups that an edit put in or took out are some that were before, the group that it is
for, and those that held the post.
-/
def TouchesOnly (before after : Draft κ) (post : PostId) (target : Option GroupId) : Prop :=
  ∀ id ∈ after.touched, id ∈ before.touched ∨ target = some id ∨ before.table.Holds id post

namespace TouchesOnly

variable {between after : Draft κ} {post : PostId} {target : Option GroupId}

theorem refl (draft : Draft κ) (post : PostId) (target : Option GroupId)
    : draft.TouchesOnly draft post target :=
  fun _ => .inl

/-- Putting in the group that an edit is for is part of it. -/
theorem put (touches : draft.TouchesOnly between post target) {group : Group κ}
    (own : target = some group.id)
    : draft.TouchesOnly (between.put group) post target := by
  intro id member
  rcases List.mem_cons.mp member with rfl | old
  · exact .inr (.inl own)
  · exact touches id old

/-- Another edit may follow that is for the same group, if no other holds the post by then. -/
theorem trans {id : GroupId} (first : draft.TouchesOnly between post (some id))
    (second : between.TouchesOnly after post (some id))
    (gone : ∀ other, other ≠ id → ¬ between.table.Holds other post)
    : draft.TouchesOnly after post (some id) := by
  intro touched member
  rcases second touched member with old | own | holds
  · exact first touched old
  · exact .inr (.inl own)
  · by_cases here : touched = id
    · exact .inr (.inl (congrArg some here.symm))
    · exact absurd holds (gone touched here)

end TouchesOnly

/-- Removing a post touches the group that holds it. -/
theorem removePost?_touchesOnly {post : PostId} {hint : Option GroupId}
    (edited : draft.removePost? post hint = some next) (target : Option GroupId)
    : draft.TouchesOnly next post target := by
  simp only [removePost?, Option.bind_eq_bind, Option.bind_eq_some_iff] at edited
  obtain ⟨⟨id, index⟩, place, group, found, edited⟩ := edited
  obtain ⟨other, current, otherFound, here, sameId⟩ := GroupTable.exists_of_locate? place
  obtain rfl := Option.some.inj (found.symm.trans otherFound)
  have own := GroupTable.id_of_find? found
  have holds : draft.table.Holds id post :=
    ⟨group, found, current, List.mem_of_getElem? here, sameId⟩
  have touched : next.touched = id :: draft.touched := by
    split at edited
    · rw [← Option.some.inj edited, remove]
    · rw [← Option.some.inj edited, put, own]
  intro touchedId member
  rw [touched] at member
  rcases List.mem_cons.mp member with rfl | old
  · exact .inr (.inr holds)
  · exact .inl old

theorem withdrawPost_touchesOnly (draft : Draft κ) (keep : GroupId) (post : PostId)
    (target : Option GroupId)
    : draft.TouchesOnly (draft.withdrawPost keep post) post target := by
  unfold withdrawPost
  split
  · split
    · exact TouchesOnly.refl draft post target
    · cases removed : draft.removePost? post (some _) with
      | none => exact TouchesOnly.refl draft post target
      | some next => exact removePost?_touchesOnly removed target
  · exact TouchesOnly.refl draft post target

variable [OrderKey κ]

/-- After the removal of a post every group is what is left of it without the post. -/
theorem find?_of_removePost? (wellFormed : draft.table.WellFormed) {post : PostId}
    {hint : Option GroupId} (edited : draft.removePost? post hint = some next) (id : GroupId)
    : next.table.find? id = (draft.table.find? id).bind (·.without? post) := by
  simp only [removePost?, Option.bind_eq_bind, Option.bind_eq_some_iff] at edited
  obtain ⟨⟨home, index⟩, place, group, found, edited⟩ := edited
  obtain ⟨other, current, otherFound, here, rfl⟩ := GroupTable.exists_of_locate? place
  obtain rfl := Option.some.inj (found.symm.trans otherFound)
  obtain rfl := GroupTable.id_of_find? found
  have holds : draft.table.Holds group.id current.id :=
    ⟨group, found, current, List.mem_of_getElem? here, rfl⟩
  have rest : group.posts.eraseIdx index = group.others current.id :=
    Post.eraseIdx_eq_filter (wellFormed.distinct (GroupTable.mem_toList_of_find? found)) here
  rw [rest] at edited
  by_cases atHome : id = group.id
  · subst atHome
    rw [found, Option.bind_some, Group.without?]
    split at edited
    · next bare =>
        obtain rfl := Option.some.inj edited
        exact ((draft.table.find?_erase ..).trans (if_pos rfl)).trans (if_pos bare).symm
    · next occupied =>
        obtain rfl := Option.some.inj edited
        rw [if_neg occupied]
        exact GroupTable.find?_insert_self ..
  · rw [wellFormed.bind_without? (wellFormed.not_holds_of_ne holds atHome)]
    split at edited
    · obtain rfl := Option.some.inj edited
      exact (draft.table.find?_erase ..).trans (if_neg (Ne.symm atHome))
    · obtain rfl := Option.some.inj edited
      exact GroupTable.find?_insert_of_ne (Ne.symm atHome)

/-- Withdrawing a post takes it out of any group but the one to keep. -/
theorem withdrawPost_losesOutside (wellFormed : draft.table.WellFormed) (keep : GroupId)
    (post : PostId)
    : draft.table.LosesOutside (draft.withdrawPost keep post).table post keep := by
  unfold withdrawPost
  split
  · next home index place =>
      obtain ⟨group, current, found, here, sameId⟩ := GroupTable.exists_of_locate? place
      have holds : draft.table.Holds home post :=
        ⟨group, found, current, List.mem_of_getElem? here, sameId⟩
      split
      · next kept =>
          subst kept
          exact .of_eq wellFormed fun id elsewhere => wellFormed.not_holds_of_ne holds elsewhere
      · obtain ⟨removed, removedEq⟩ := Option.isSome_iff_exists.mp
          (removePost?_isSome (locate?_isSome place (some home)))
        rw [removedEq, Option.getD_some]
        exact fun id _ => find?_of_removePost? wellFormed removedEq id
  · next nowhere =>
      refine .of_eq wellFormed fun id _ holds => ?_
      obtain ⟨old, member, sameId⟩ := holds.exists_mem_posts
      exact GroupTable.locate?_eq_none_iff.mp nowhere old member sameId

end Draft

-----------------------------------------------------------------------------------------
-- Putting a post in
-----------------------------------------------------------------------------------------

/-- How a post comes among the posts of its group. One that equals it is there and stays, one with
its identifier and an equal key makes room, or the post goes where its key belongs among the others.
-/
inductive Post.Upserted [OrderKey κ] (posts : List (Post κ)) (post : Post κ)
    : List (Post κ) → Prop
  | kept {current : Post κ} (member : current ∈ posts) (equal : (current == post) = true)
    : Upserted posts post posts
  | replaced {index : Nat} {current : Post κ} (here : posts[index]? = some current)
    (sameId : current.id = post.id) (sameKey : (current.key == post.key) = true)
    : Upserted posts post (posts.set index post)
  | placed
    : Upserted posts post (insertInto (posts.filter (·.id != post.id)) post)

namespace Post

variable [OrderKey κ] {posts : List (Post κ)} {post current : Post κ}

/-- What a post makes of one in its way: it takes the place of the one with its identifier, unless
that equals it.
-/
def renewedBy (post old : Post κ) : Post κ :=
  if old.id = post.id ∧ (old == post) = false then post else old

/-- Whether a post is among others already, under an equal key. -/
def keepsPlace (posts : List (Post κ)) (post : Post κ) : Bool :=
  posts.any (fun old => old.id == post.id && old.key == post.key)

/-- The posts of a group after one came to it. It stays where it is if its key is the same, and goes
where its key belongs among the others otherwise.
-/
def upsert (posts : List (Post κ)) (post : Post κ) : List (Post κ) :=
  if keepsPlace posts post then posts.map post.renewedBy
  else insertInto (posts.filter (·.id != post.id)) post

theorem upsert_of_keeps (keeps : keepsPlace posts post = true)
    : post.upsert posts = posts.map post.renewedBy :=
  if_pos keeps

theorem upsert_of_moves (moves : keepsPlace posts post = false)
    : post.upsert posts = insertInto (posts.filter (·.id != post.id)) post :=
  if_neg (by simp [moves])

theorem renewedBy_of_ne {old : Post κ} (other : old.id ≠ post.id) : post.renewedBy old = old :=
  if_neg fun both => other both.1

theorem keepsPlace_iff
    : keepsPlace posts post = true
      ↔ ∃ old ∈ posts, old.id = post.id ∧ (old.key == post.key) = true := by
  simp [keepsPlace, List.any_eq_true]

/-- Where identifiers are distinct only the post at one index is renewed, by induction. -/
theorem map_renewedBy (distinct : (posts.map (·.id)).Nodup) {index : Nat}
    (here : posts[index]? = some current) (sameId : current.id = post.id)
    : posts.map post.renewedBy = posts.set index (post.renewedBy current) := by
  induction posts generalizing index with
  | nil => rfl
  | cons head rest ih =>
      rw [List.map_cons, List.nodup_cons] at distinct
      cases index with
      | zero =>
          obtain rfl : head = current := by simpa using here
          have others (old : Post κ) (member : old ∈ rest) : post.renewedBy old = old :=
            renewedBy_of_ne fun same =>
              distinct.1 (sameId.trans same.symm ▸ List.mem_map_of_mem member)
          rw [List.map_cons, List.set_cons_zero, List.map_congr_left others, List.map_id']
      | succ index =>
          have inRest : rest[index]? = some current := by simpa using here
          have other : head.id ≠ post.id := fun same =>
            distinct.1 (same.trans sameId.symm ▸ List.mem_map_of_mem (List.mem_of_getElem? inRest))
          rw [List.map_cons, List.set_cons_succ, renewedBy_of_ne other, ih distinct.2 inRest]

/-- A post that equals the one in its place changes nothing. -/
theorem upsert_of_beq (distinct : (posts.map (·.id)).Nodup) {index : Nat}
    (here : posts[index]? = some current) (equal : (current == post) = true)
    : post.upsert posts = posts := by
  obtain ⟨fields, sameKey⟩ := Post.beq_iff.mp equal
  have sameId : current.id = post.id := by rw [fields]
  have keeps : keepsPlace posts post = true :=
    keepsPlace_iff.mpr ⟨current, List.mem_of_getElem? here, sameId, sameKey⟩
  obtain ⟨bound, atIndex⟩ := List.getElem?_eq_some_iff.mp here
  have stays : post.renewedBy current = current := if_neg (by simp [equal])
  rw [upsert_of_keeps keeps, map_renewedBy distinct here sameId, stays, ← atIndex,
    List.set_getElem_self]

/-- A post with the key of the one in its place comes there. -/
theorem upsert_of_sameKey (distinct : (posts.map (·.id)).Nodup) {index : Nat}
    (here : posts[index]? = some current) (sameId : current.id = post.id)
    (differs : ¬ (current == post) = true) (sameKey : (current.key == post.key) = true)
    : post.upsert posts = posts.set index post := by
  have keeps : keepsPlace posts post = true :=
    keepsPlace_iff.mpr ⟨current, List.mem_of_getElem? here, sameId, sameKey⟩
  have comes : post.renewedBy current = post := if_pos ⟨sameId, by simpa using differs⟩
  rw [upsert_of_keeps keeps, map_renewedBy distinct here sameId, comes]

/-- A post with another key than the one with its identifier goes where its key belongs. -/
theorem upsert_of_otherKey (distinct : (posts.map (·.id)).Nodup) {index : Nat}
    (here : posts[index]? = some current) (sameId : current.id = post.id)
    (otherKey : ¬ (current.key == post.key) = true)
    : post.upsert posts = insertInto (posts.filter (·.id != post.id)) post := by
  refine upsert_of_moves (Bool.eq_false_iff.mpr fun keeps => ?_)
  obtain ⟨old, member, oldId, sameKey⟩ := keepsPlace_iff.mp keeps
  have one := List.inj_on_of_nodup_map distinct member (List.mem_of_getElem? here)
    (oldId.trans sameId.symm)
  exact otherKey (one ▸ sameKey)

/-- A post that is new goes where its key belongs. -/
theorem upsert_of_absent (absent : ∀ old ∈ posts, old.id ≠ post.id)
    : post.upsert posts = insertInto posts post := by
  have moves : keepsPlace posts post = false := Bool.eq_false_iff.mpr fun keeps => by
    obtain ⟨old, member, sameId, _⟩ := keepsPlace_iff.mp keeps
    exact absent old member sameId
  rw [upsert_of_moves moves, filter_of_absent absent]

/-- So a post comes among the posts of its group. -/
theorem upserted_upsert (distinct : (posts.map (·.id)).Nodup)
    : Upserted posts post (post.upsert posts) := by
  cases found : posts.find? (·.id == post.id) with
  | none =>
      have absent (old : Post κ) (member : old ∈ posts) : old.id ≠ post.id := by
        simpa using List.find?_eq_none.mp found old member
      have comes : Upserted posts post _ := .placed
      rwa [filter_of_absent absent, ← upsert_of_absent absent] at comes
  | some current =>
      obtain ⟨index, here⟩ := List.mem_iff_getElem?.mp (List.mem_of_find?_eq_some found)
      have sameId : current.id = post.id := by simpa using List.find?_some found
      by_cases equal : (current == post) = true
      · rw [upsert_of_beq distinct here equal]
        exact .kept (List.mem_of_getElem? here) equal
      · by_cases sameKey : (current.key == post.key) = true
        · rw [upsert_of_sameKey distinct here sameId equal sameKey]
          exact .replaced here sameId sameKey
        · rw [upsert_of_otherKey distinct here sameId sameKey]
          exact .placed

end Post

namespace Post.Upserted

variable [OrderKey κ] {posts after : List (Post κ)} {post : Post κ}

/-- The post is there afterwards, or one that equals it. -/
theorem exists_mem (upserted : Upserted posts post after) : ∃ now ∈ after, now.id = post.id := by
  cases upserted with
  | @kept current member equal => exact ⟨current, member, by rw [(Post.beq_iff.mp equal).1]⟩
  | replaced here sameId sameKey =>
      obtain ⟨bound, _⟩ := List.getElem?_eq_some_iff.mp here
      exact ⟨post, List.mem_set bound post, rfl⟩
  | placed => exact ⟨post, mem_insertInto.mpr (.inl rfl), rfl⟩

/-- No other post comes there. -/
theorem mem (upserted : Upserted posts post after) {old : Post κ} (member : old ∈ after)
    : old = post ∨ old ∈ posts := by
  cases upserted with
  | kept => exact .inr member
  | replaced => exact (List.mem_or_eq_of_mem_set member).symm
  | placed => exact (mem_insertInto.mp member).imp_right List.mem_of_mem_filter

/-- The other posts stay as they are, in the same order. -/
theorem filter_eq (upserted : Upserted posts post after)
    : after.filter (·.id != post.id) = posts.filter (·.id != post.id) := by
  cases upserted with
  | kept member equal => rfl
  | replaced here sameId sameKey => exact filter_set here sameId
  | placed =>
      rw [insertInto_eq, List.filter_append, List.filter_cons_of_neg (by simp),
        ← List.filter_append, List.takeWhile_append_dropWhile, List.filter_filter]
      simp

end Post.Upserted

/-- A table where a post came to its group and left any other. -/
structure GroupTable.Upserts [OrderKey κ] (before after : GroupTable κ) (post : Post κ) : Prop where
  arrived
    : ∃ group posts,
        before.find? post.group = some group
        ∧ after.find? post.group = some { group with posts := posts }
        ∧ Post.Upserted group.posts post posts
  outside : before.LosesOutside after post.id post.group

namespace Draft

variable [OrderKey κ] {draft : Draft κ} {post : Post κ}

/-- Putting a group with other posts in the place of the one that a post names leaves the others as
they are without the post, if none of them holds it.
-/
theorem put_upsert (wellFormed : draft.table.WellFormed) {target : Group κ}
    (found : draft.table.find? post.group = some target)
    (absent : ∀ id, id ≠ post.group → ¬ draft.table.Holds id post.id) (posts : List (Post κ))
    : (draft.put { target with posts := posts }).table.find? post.group
        = some { target with posts := posts }
      ∧ draft.table.LosesOutside (draft.put { target with posts := posts }).table post.id
          post.group := by
  have own : target.id = post.group := GroupTable.id_of_find? found
  refine ⟨?_, (GroupTable.LosesOutside.of_eq wellFormed absent).insert own⟩
  rw [← own]
  exact GroupTable.find?_insert_self ..

/-- Replacing a post in the group that it names leaves the posts there as they are after it came. -/
theorem replacePost?_upsert (wellFormed : draft.table.WellFormed) {target : Group κ}
    (found : draft.table.find? post.group = some target) {index : Nat} {current : Post κ}
    (here : target.posts[index]? = some current) (sameId : current.id = post.id)
    : ((draft.replacePost? target index post).getD draft).table.find? post.group
        = some { target with posts := post.upsert target.posts }
      ∧ draft.table.LosesOutside ((draft.replacePost? target index post).getD draft).table post.id
          post.group := by
  have distinct := wellFormed.distinct (GroupTable.mem_toList_of_find? found)
  have holds : draft.table.Holds post.group post.id :=
    ⟨target, found, current, List.mem_of_getElem? here, sameId⟩
  have absent (id : GroupId) (elsewhere : id ≠ post.group) : ¬ draft.table.Holds id post.id :=
    wellFormed.not_holds_of_ne holds elsewhere
  simp only [replacePost?, here, Option.bind_some]
  split
  · next equal =>
      rw [Post.upsert_of_beq distinct here equal]
      exact ⟨found, .of_eq wellFormed absent⟩
  · next differs =>
      split
      · next sameKey =>
          rw [Post.upsert_of_sameKey distinct here sameId differs sameKey]
          exact put_upsert wellFormed found absent _
      · next otherKey =>
          rw [Post.upsert_of_otherKey distinct here sameId otherKey,
            Post.eraseIdx_eq_filter distinct here, sameId]
          exact put_upsert wellFormed found absent _

/-- A post that names a group of the table comes among the posts there and leaves any other group. -/
theorem placePost?_upsert (wellFormed : draft.table.WellFormed) {target : Group κ}
    (found : draft.table.find? post.group = some target)
    : ((draft.placePost? post).getD draft).table.find? post.group
        = some { target with posts := post.upsert target.posts }
      ∧ draft.table.LosesOutside ((draft.placePost? post).getD draft).table post.id
          post.group := by
  have new (notHere : ¬ draft.table.Holds post.group post.id)
      : post.upsert target.posts = post.insertInto target.posts :=
    Post.upsert_of_absent fun old member sameId => notHere ⟨target, found, old, member, sameId⟩
  simp only [placePost?, found]
  split
  · next nowhere =>
      have absent (id : GroupId) : ¬ draft.table.Holds id post.id := by
        intro holds
        obtain ⟨old, member, sameId⟩ := holds.exists_mem_posts
        exact GroupTable.locate?_eq_none_iff.mp nowhere old member sameId
      rw [new (absent post.group)]
      simp only [insertPost?, found, Option.map_some, Option.getD_some]
      exact put_upsert wellFormed found (fun id _ => absent id) _
  · next home index place =>
      obtain ⟨group, current, groupFound, here, sameId⟩ := GroupTable.exists_of_locate? place
      split
      · next inTarget =>
          rw [inTarget, found] at groupFound
          obtain rfl := Option.some.inj groupFound
          exact replacePost?_upsert wellFormed found here sameId
      · next elsewhere =>
          have holds : draft.table.Holds home post.id :=
            ⟨group, groupFound, current, List.mem_of_getElem? here, sameId⟩
          have notHere : ¬ draft.table.Holds post.group post.id :=
            wellFormed.not_holds_of_ne holds (Ne.symm elsewhere)
          obtain ⟨removed, removedEq⟩ := Option.isSome_iff_exists.mp
            (removePost?_isSome (locate?_isSome place (some home)))
          have left := find?_of_removePost? wellFormed removedEq
          have stays : removed.table.find? post.group = some target := by
            rw [left, wellFormed.bind_without? notHere, found]
          have own : target.id = post.group := GroupTable.id_of_find? found
          have outside : draft.table.LosesOutside removed.table post.id post.group :=
            fun id _ => left id
          rw [new notHere, removedEq, Option.getD_some]
          simp only [insertPost?, stays, Option.map_some, Option.getD_some]
          refine ⟨?_, outside.insert own⟩
          rw [← own]
          exact GroupTable.find?_insert_self ..

/-- A post that names a group of the table is put in there, wherever it was. -/
theorem placePost?_upserts (wellFormed : draft.table.WellFormed) {target : Group κ}
    (found : draft.table.find? post.group = some target)
    : draft.table.Upserts ((draft.placePost? post).getD draft).table post := by
  obtain ⟨arrived, outside⟩ := placePost?_upsert wellFormed found
  have distinct := wellFormed.distinct (GroupTable.mem_toList_of_find? found)
  exact ⟨⟨target, _, found, arrived, Post.upserted_upsert distinct⟩, outside⟩

/-- Placing a post touches the group that it names and the one that holds it. -/
theorem placePost?_touchesOnly (draft : Draft κ) (post : Post κ)
    : draft.TouchesOnly ((draft.placePost? post).getD draft) post.id (some post.group) := by
  have idle := TouchesOnly.refl draft post.id (some post.group)
  have inserted {between : Draft κ} (touches : draft.TouchesOnly between post.id (some post.group))
      {next : Draft κ} (edited : between.insertPost? post = some next)
      : draft.TouchesOnly next post.id (some post.group) := by
    obtain ⟨group, found, rfl⟩ := Option.map_eq_some_iff.mp edited
    exact touches.put (congrArg some (GroupTable.id_of_find? found).symm)
  cases edited : draft.placePost? post with
  | none => exact idle
  | some next =>
      rw [Option.getD_some]
      unfold placePost? at edited
      split at edited
      · simp at edited
      · next target found =>
          have own : some post.group = some target.id :=
            congrArg some (GroupTable.id_of_find? found).symm
          split at edited
          · exact inserted idle edited
          · next home index place =>
              split at edited
              · obtain ⟨current, _, edited⟩ := Option.bind_eq_some_iff.mp edited
                split at edited
                · simp at edited
                · split at edited
                  · obtain rfl := Option.some.inj edited
                    exact idle.put own
                  · obtain rfl := Option.some.inj edited
                    exact idle.put own
              · obtain ⟨removed, removedEq⟩ := Option.isSome_iff_exists.mp
                  (removePost?_isSome (locate?_isSome place (some home)))
                rw [removedEq, Option.getD_some] at edited
                exact inserted (removePost?_touchesOnly removedEq _) edited

end Draft

-----------------------------------------------------------------------------------------
-- Putting a group of one post in
-----------------------------------------------------------------------------------------

/-- A table where one group got a post, among the others that it has, and any other lost it. -/
structure GroupTable.Relocates (before after : GroupTable κ) (post : PostId) (target : GroupId)
    : Prop where
  arrived
    : ∃ group,
        after.find? target = some group
        ∧ (∃ now ∈ group.posts, now.id = post)
        ∧ group.others post = ((before.find? target).map (·.others post)).getD []
  outside : before.LosesOutside after post target

/-- An upsert relocates the post. -/
theorem GroupTable.Upserts.relocates [OrderKey κ] {before after : GroupTable κ} {post : Post κ}
    (upserts : before.Upserts after post)
    : before.Relocates after post.id post.group := by
  obtain ⟨⟨group, posts, found, foundAfter, upserted⟩, outside⟩ := upserts
  obtain ⟨now, member, sameId⟩ := upserted.exists_mem
  refine ⟨⟨{ group with posts := posts }, foundAfter, ⟨now, member, sameId⟩, ?_⟩, outside⟩
  rw [found]
  exact upserted.filter_eq

namespace Draft

variable [OrderKey κ] {draft : Draft κ} {group : Group κ} {post : Post κ}

/-- A group of one post that comes to a table in good order gets the post, whether the table has the
group already or not.
-/
theorem insertGroup?_relocates (wellFormed : draft.table.WellFormed)
    (only : group.posts = [post]) (named : post.group = group.id)
    : draft.table.Relocates ((draft.insertGroup? group).getD draft).table post.id group.id
      ∧ draft.TouchesOnly ((draft.insertGroup? group).getD draft) post.id (some group.id) := by
  rw [insertGroup?_eq, Group.normalized_singleton only named]
  split
  · next there =>
      obtain ⟨existing, found, equal⟩ := (Option.any_eq_true _ _).mp there
      obtain ⟨_, _, _, _, _, posts⟩ := Group.face_beq_iff.mp (Group.face_beq_of_beq equal)
      obtain ⟨current, inExisting, same⟩ :=
        Post.exists_beq_of_mem posts (only ▸ List.mem_singleton_self post)
      have sameId : current.id = post.id := by rw [(Post.beq_iff.mp same).1]
      have holds : draft.table.Holds group.id post.id :=
        ⟨existing, found, current, inExisting, sameId⟩
      refine ⟨⟨⟨existing, found, ⟨current, inExisting, sameId⟩, ?_⟩, ?_⟩,
        TouchesOnly.refl draft post.id (some group.id)⟩
      · rw [found]
        rfl
      · exact .of_eq wellFormed fun id elsewhere => wellFormed.not_holds_of_ne holds elsewhere
  · have outside := withdrawPost_losesOutside wellFormed group.id post.id
    have touches := draft.withdrawPost_touchesOnly group.id post.id (some group.id)
    have cleared := (withdrawPost_spec wellFormed group.id post.id).1
    have kept := draft.find?_withdrawPost group.id post.id
    simp only [merged, only, List.foldl_cons, List.foldl_nil, Option.getD_some]
    generalize draft.withdrawPost group.id post.id = between at outside touches cleared kept ⊢
    rw [kept]
    cases found : draft.table.find? group.id with
    | none =>
        refine ⟨⟨⟨group, GroupTable.find?_insert_self .., ⟨post, ?_, rfl⟩, ?_⟩, ?_⟩, ?_⟩
        · rw [only]
          exact List.mem_singleton_self post
        · rw [found]
          simp [Group.others, only]
        · exact outside.insert rfl
        · exact touches.put rfl
    | some existing =>
        let changed : Group κ :=
          { existing with
            title := group.title
            x := group.x
            y := group.y
            z := group.z
            updatedAt := group.updatedAt }
        have own : existing.id = group.id := GroupTable.id_of_find? found
        have inBetween := GroupTable.mem_toList_of_find? (kept.trans found)
        have good : (between.put changed).table.WellFormed :=
          cleared.insert_part inBetween rfl (List.Sublist.refl _)
            (cleared.groups existing inBetween).occupied
        have atGroup : (between.put changed).table.find? post.group = some changed := by
          rw [named, ← own]
          exact GroupTable.find?_insert_self between.table changed
        have upserts := placePost?_upserts good atGroup
        have outsidePut : draft.table.LosesOutside (between.put changed).table post.id group.id :=
          outside.insert own
        obtain ⟨⟨after, foundAfter, there, others⟩, outsideAfter⟩ := upserts.relocates
        rw [named] at foundAfter outsideAfter
        refine ⟨⟨⟨after, foundAfter, there, ?_⟩, outsidePut.trans outsideAfter⟩, ?_⟩
        · rw [others, atGroup, found]
          rfl
        · have putting : draft.TouchesOnly (between.put changed) post.id (some group.id) :=
            touches.put (congrArg some own.symm)
          have placing := (between.put changed).placePost?_touchesOnly post
          rw [named] at placing
          exact putting.trans placing fun id elsewhere => outsidePut.not_holds elsewhere

end Draft

end SharedBoard
