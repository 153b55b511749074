import Mathlib.Data.List.Flatten
import Mathlib.Data.List.Nodup
import Mathlib.Data.List.Pairwise
import SharedBoard.Proofs.OrderKey.Lawful
import SharedBoard.Store

/-! Boards in good order. Every group has posts, which name it and stand in the order of their
keys; every post stands in one place, and every z-index is within the highest one.
-/

namespace SharedBoard

variable {κ : Type}

namespace GroupTable

variable {table : GroupTable κ}

/-- The posts of all groups, group by group. -/
def posts (table : GroupTable κ) : List (Post κ) :=
  table.toList.flatMap (·.posts)

/-- The groups after an insertion are the new one and those with other identifiers. -/
theorem mem_toList_insert {group member : Group κ}
    : member ∈ (table.insert group).toList
      ↔ member = group ∨ (member ∈ table.toList ∧ member.id ≠ group.id) := by
  rw [mem_toList_iff, mem_toList_iff, find?_insert]
  split
  · next same =>
      constructor
      · intro found
        exact .inl (Option.some.inj found).symm
      · rintro (rfl | ⟨_, other⟩)
        · rfl
        · exact absurd same.symm other
  · next other =>
      constructor
      · intro found
        exact .inr ⟨found, fun same => other same.symm⟩
      · rintro (rfl | ⟨found, _⟩)
        · exact absurd rfl other
        · exact found

theorem mem_toList_erase {id : GroupId} {member : Group κ}
    : member ∈ (table.erase id).toList ↔ member ∈ table.toList ∧ member.id ≠ id := by
  simp [erase]

/-- Without a group of an identifier nothing is taken out under it. -/
theorem erase_of_absent {id : GroupId} (absent : table.find? id = none)
    : table.erase id = table := by
  refine ext_find? fun other => ?_
  rw [find?_erase]
  split
  · next here => rw [← here, absent]
  · rfl

theorem mem_toList_of_find? {id : GroupId} {group : Group κ} (found : table.find? id = some group)
    : group ∈ table.toList :=
  List.mem_of_find?_eq_some found

theorem mem_posts {post : Post κ}
    : post ∈ table.posts ↔ ∃ group ∈ table.toList, post ∈ group.posts :=
  List.mem_flatMap

/-- Groups whose posts have distinct identifiers, all together, share none. -/
theorem eq_of_shared_post {groups : List (Group κ)}
    (distinct : ((groups.flatMap (·.posts)).map (·.id)).Nodup) {left right : Group κ}
    (leftMember : left ∈ groups) (rightMember : right ∈ groups) {post other : Post κ}
    (inLeft : post ∈ left.posts) (inRight : other ∈ right.posts) (same : post.id = other.id)
    : left = right := by
  rw [List.map_flatMap, List.nodup_flatMap] at distinct
  have symmetric : Std.Symm (List.Disjoint : List PostId → List PostId → Prop) :=
    ⟨fun _ _ apart _ inRight inLeft => apart inLeft inRight⟩
  by_contra differ
  have disjoint := distinct.2.forall leftMember rightMember differ
  exact disjoint (List.mem_map_of_mem inLeft) (same ▸ List.mem_map_of_mem inRight)

/-- The posts of a table have distinct identifiers when those of each group do and no two groups
share one.
-/
theorem unique_iff
    : (table.posts.map (·.id)).Nodup
      ↔ (∀ group ∈ table.toList, (group.posts.map (·.id)).Nodup)
        ∧ ∀ left ∈ table.toList,
            ∀ right ∈ table.toList,
              ∀ post ∈ left.posts, ∀ other ∈ right.posts, post.id = other.id → left = right := by
  constructor
  · intro distinct
    refine ⟨?_, ?_⟩
    · rw [posts, List.map_flatMap, List.nodup_flatMap] at distinct
      exact distinct.1
    · intro left leftMember right rightMember post inLeft other inRight same
      exact eq_of_shared_post distinct leftMember rightMember inLeft inRight same
  · rintro ⟨each, shared⟩
    rw [posts, List.map_flatMap, List.nodup_flatMap]
    refine ⟨each, table.ascending.imp_of_mem ?_⟩
    intro left right leftMember rightMember below post inLeft inRight
    obtain ⟨first, firstMember, rfl⟩ := List.mem_map.mp inLeft
    obtain ⟨second, secondMember, same⟩ := List.mem_map.mp inRight
    have one := shared left leftMember right rightMember first firstMember second secondMember
      same.symm
    rw [one, Uuid.lt_iff] at below
    omega

theorem getElem?_of_indexOf? {group : Group κ} {post : PostId} {index : Nat}
    (found : group.indexOf? post = some index)
    : ∃ current, group.posts[index]? = some current ∧ current.id = post := by
  obtain ⟨bound, same, _⟩ := List.findIdx?_eq_some_iff_getElem.mp found
  exact ⟨group.posts[index], List.getElem?_eq_getElem bound, by simpa using same⟩

/-- A place names a group of the table and an index of the post there, with any hint. -/
theorem find?_of_locate? {post : PostId} {hint : Option GroupId} {id : GroupId} {index : Nat}
    (found : table.locate? post hint = some (id, index))
    : ∃ group, table.find? id = some group ∧ group.indexOf? post = some index := by
  unfold locate? at found
  split at found
  · next hintIndex hintId atHint =>
      obtain ⟨rfl, rfl⟩ := Prod.mk.inj (Option.some.inj found)
      simpa [Option.bind_eq_some_iff] using atHint
  · obtain ⟨group, member, atGroup⟩ := List.exists_of_findSome?_eq_some found
    obtain ⟨place, atPlace, same⟩ := Option.map_eq_some_iff.mp atGroup
    obtain ⟨rfl, rfl⟩ := Prod.mk.inj same
    exact ⟨group, mem_toList_iff.mp member, atPlace⟩

/-- A place is that of a post of the table. -/
theorem exists_of_locate? {post : PostId} {hint : Option GroupId} {id : GroupId} {index : Nat}
    (found : table.locate? post hint = some (id, index))
    : ∃ group current,
        table.find? id = some group
        ∧ group.posts[index]? = some current
        ∧ current.id = post := by
  obtain ⟨group, inTable, atIndex⟩ := find?_of_locate? found
  obtain ⟨current, here, same⟩ := getElem?_of_indexOf? atIndex
  exact ⟨group, current, inTable, here, same⟩

/-- A post has no place exactly when no post of the table has its identifier. -/
theorem locate?_eq_none_iff {post : PostId} {hint : Option GroupId}
    : table.locate? post hint = none ↔ ∀ old ∈ table.posts, old.id ≠ post := by
  constructor
  · intro absent old member same
    obtain ⟨group, inTable, inGroup⟩ := mem_posts.mp member
    unfold locate? at absent
    split at absent
    · simp at absent
    · have nowhere := List.findSome?_eq_none_iff.mp absent group inTable
      have notHere : group.indexOf? post = none := by simpa using nowhere
      have differs := List.findIdx?_eq_none_iff.mp notHere old inGroup
      simp [same] at differs
  · intro absent
    cases found : table.locate? post hint with
    | none => rfl
    | some place =>
        obtain ⟨group, current, inTable, here, same⟩ := exists_of_locate? found
        exact absurd same (absent current
          (mem_posts.mpr ⟨group, mem_toList_of_find? inTable, List.mem_of_getElem? here⟩))

end GroupTable

variable [OrderKey κ]

-----------------------------------------------------------------------------------------
-- Good order
-----------------------------------------------------------------------------------------

/-- A group in good order: it has posts, they name it, their keys are numbers and do not descend.
-/
structure Group.WellFormed (group : Group κ) : Prop where
  occupied : group.posts ≠ []
  named : ∀ post ∈ group.posts, post.group = group.id
  numbers : ∀ post ∈ group.posts, (post.key == post.key) = true
  ascending : Post.Ascending group.posts

/-- A table in good order: groups are found under their own identifiers and are in good order
themselves, and no two posts have the same identifier.
-/
structure GroupTable.WellFormed (table : GroupTable κ) : Prop where
  keyed : ∀ id group, table.find? id = some group → group.id = id
  groups : ∀ group ∈ table.toList, group.WellFormed
  unique : (table.posts.map (·.id)).Nodup

/-- A board in good order: its table is, and no z-index is above the highest one. -/
structure Store.WellFormed (store : Store κ) : Prop where
  table : store.groups.WellFormed
  bounded : ∀ group ∈ store.groups.toList, group.z ≤ store.maxZ

namespace GroupTable.WellFormed

variable {table : GroupTable κ}

/-- A post of a table in good order is in the group that it names. -/
theorem group_of_mem_posts (wellFormed : table.WellFormed) {post : Post κ}
    (member : post ∈ table.posts)
    : ∃ group, table.find? post.group = some group ∧ post ∈ group.posts := by
  obtain ⟨group, inTable, inGroup⟩ := mem_posts.mp member
  rw [(wellFormed.groups group inTable).named post inGroup]
  exact ⟨group, mem_toList_iff.mp inTable, inGroup⟩

theorem number_of_mem_posts (wellFormed : table.WellFormed) {post : Post κ}
    (member : post ∈ table.posts)
    : (post.key == post.key) = true := by
  obtain ⟨group, inTable, inGroup⟩ := mem_posts.mp member
  exact (wellFormed.groups group inTable).numbers post inGroup

theorem eq_of_post_id_eq (wellFormed : table.WellFormed) {left right : Post κ}
    (leftMember : left ∈ table.posts) (rightMember : right ∈ table.posts)
    (same : left.id = right.id)
    : left = right :=
  List.inj_on_of_nodup_map wellFormed.unique leftMember rightMember same

theorem distinct (wellFormed : table.WellFormed) {group : Group κ} (member : group ∈ table.toList)
    : (group.posts.map (·.id)).Nodup :=
  (unique_iff.mp wellFormed.unique).1 group member

/-- A table stays in good order when a group in good order is put into it, if the posts of that
group are in no other group.
-/
theorem insert (wellFormed : table.WellFormed) {group : Group κ} (good : group.WellFormed)
    (distinct : (group.posts.map (·.id)).Nodup)
    (apart
      : ∀ other ∈ table.toList,
          other.id ≠ group.id → ∀ post ∈ group.posts, ∀ old ∈ other.posts, post.id ≠ old.id)
    : (table.insert group).WellFormed := by
  obtain ⟨eachDistinct, shared⟩ := unique_iff.mp wellFormed.unique
  refine ⟨fun _ _ => id_of_find?, ?_, unique_iff.mpr ⟨?_, ?_⟩⟩
  · intro member inTable
    rcases mem_toList_insert.mp inTable with rfl | ⟨old, _⟩
    · exact good
    · exact wellFormed.groups member old
  · intro member inTable
    rcases mem_toList_insert.mp inTable with rfl | ⟨old, _⟩
    · exact distinct
    · exact eachDistinct member old
  · intro left leftMember right rightMember post inLeft other inRight same
    rcases mem_toList_insert.mp leftMember with rfl | ⟨leftOld, leftOther⟩
    · rcases mem_toList_insert.mp rightMember with rfl | ⟨rightOld, rightOther⟩
      · rfl
      · exact absurd same (apart right rightOld rightOther post inLeft other inRight)
    · rcases mem_toList_insert.mp rightMember with rfl | ⟨rightOld, _⟩
      · exact absurd same.symm (apart left leftOld leftOther other inRight post inLeft)
      · exact shared left leftOld right rightOld post inLeft other inRight same

/-- A table stays in good order when a group is taken out, since only fewer groups are left. -/
theorem erase (wellFormed : table.WellFormed) (id : GroupId) : (table.erase id).WellFormed := by
  refine ⟨fun _ _ => id_of_find?, ?_, wellFormed.unique.sublist ?_⟩
  · intro member inTable
    exact wellFormed.groups member (mem_toList_erase.mp inTable).1
  · exact (List.filter_sublist.flatMap _).map _

/-- A table stays in good order when a group changes and keeps some of its posts. -/
theorem insert_part (wellFormed : table.WellFormed) {group changed : Group κ}
    (member : group ∈ table.toList) (sameId : changed.id = group.id)
    (sublist : changed.posts.Sublist group.posts) (occupied : changed.posts ≠ [])
    : (table.insert changed).WellFormed := by
  have good := wellFormed.groups group member
  refine wellFormed.insert ⟨occupied, ?_, ?_, good.ascending.sublist sublist⟩ ?_ ?_
  · intro post inPart
    exact (good.named post (sublist.subset inPart)).trans sameId.symm
  · intro post inPart
    exact good.numbers post (sublist.subset inPart)
  · exact (wellFormed.distinct member).sublist (sublist.map _)
  · intro other inTable differs post inPart old inOther same
    have shared := (unique_iff.mp wellFormed.unique).2 other inTable group member old inOther post
      (sublist.subset inPart) same.symm
    exact differs ((congrArg Group.id shared).trans sameId.symm)

/-- In a table in good order the place of a post is in the group that it names, with any hint. -/
theorem locate?_eq (wellFormed : table.WellFormed) {post : Post κ}
    (member : post ∈ table.posts) (hint : Option GroupId)
    : ∃ group index,
        table.locate? post.id hint = some (post.group, index)
        ∧ table.find? post.group = some group
        ∧ group.posts[index]? = some post := by
  cases found : table.locate? post.id hint with
  | none => exact absurd rfl (locate?_eq_none_iff.mp found post member)
  | some place =>
      obtain ⟨id, index⟩ := place
      obtain ⟨group, current, inTable, here, same⟩ := exists_of_locate? found
      have groupMember := mem_toList_of_find? inTable
      have currentMember := List.mem_of_getElem? here
      obtain rfl := wellFormed.eq_of_post_id_eq (mem_posts.mpr ⟨group, groupMember, currentMember⟩)
        member same
      have names := (wellFormed.groups group groupMember).named current currentMember
      rw [id_of_find? inTable] at names
      subst names
      exact ⟨group, index, rfl, inTable, here⟩

end GroupTable.WellFormed

namespace Store

variable {store : Store κ}

omit [OrderKey κ] in
/-- A post is found on a board exactly if one of its posts has the identifier. -/
theorem isSome_post?_iff {id : PostId}
    : (store.post? id).isSome ↔ ∃ post ∈ store.groups.posts, post.id = id := by
  cases place : store.locate? id with
  | none =>
      have absent := GroupTable.locate?_eq_none_iff.mp place
      refine iff_of_false (by simp [post?, place]) ?_
      rintro ⟨post, member, sameId⟩
      exact absent post member sameId
  | some spot =>
      obtain ⟨group, index⟩ := spot
      obtain ⟨inside, current, found, here, sameId⟩ := GroupTable.exists_of_locate? place
      have atGroup : store.group? group = some inside := found
      refine iff_of_true (by simp [post?, place, atGroup, here]) ⟨current, ?_, sameId⟩
      exact GroupTable.mem_posts.mpr
        ⟨inside, GroupTable.mem_toList_of_find? found, List.mem_of_getElem? here⟩

omit [OrderKey κ] in
/-- A post that is found on a board is one of its posts, with the identifier. -/
theorem mem_posts_of_post? {id : PostId} {post : Post κ} (found : store.post? id = some post)
    : post ∈ store.groups.posts ∧ post.id = id := by
  simp only [post?, Option.bind_eq_bind, Option.bind_eq_some_iff] at found
  obtain ⟨⟨group, index⟩, place, inside, atGroup, here⟩ := found
  obtain ⟨other, current, otherFound, currentHere, sameId⟩ := GroupTable.exists_of_locate? place
  obtain rfl := Option.some.inj (atGroup.symm.trans otherFound)
  obtain rfl := Option.some.inj (here.symm.trans currentHere)
  exact ⟨GroupTable.mem_posts.mpr
    ⟨inside, GroupTable.mem_toList_of_find? atGroup, List.mem_of_getElem? here⟩, sameId⟩

omit [OrderKey κ] in
/-- The posts that are found on a board of distinct posts are those of its table. -/
theorem post?_eq_some_iff (distinct : (store.groups.posts.map (·.id)).Nodup) {id : PostId}
    {post : Post κ}
    : store.post? id = some post ↔ post ∈ store.groups.posts ∧ post.id = id := by
  constructor
  · exact mem_posts_of_post?
  · rintro ⟨member, rfl⟩
    obtain ⟨current, found⟩ :=
      Option.isSome_iff_exists.mp (isSome_post?_iff.mpr ⟨post, member, rfl⟩)
    obtain ⟨currentMember, sameId⟩ := mem_posts_of_post? found
    rw [found, List.inj_on_of_nodup_map distinct currentMember member sameId]

/-- So are those of a board in good order, where posts are distinct. -/
theorem WellFormed.post?_eq_some_iff (wellFormed : store.WellFormed) {id : PostId} {post : Post κ}
    : store.post? id = some post ↔ post ∈ store.groups.posts ∧ post.id = id :=
  Store.post?_eq_some_iff wellFormed.table.unique

end Store

end SharedBoard
