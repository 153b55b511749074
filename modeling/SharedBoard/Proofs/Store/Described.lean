import SharedBoard.Proofs.Store.Reducer

/-! The board that a list of groups describes. It is in good order if the groups and their posts
have distinct identifiers, the posts name their groups and the keys are numbers.
-/

namespace SharedBoard

variable {κ : Type}

/-- Groups and posts with distinct identifiers, where every post names its own group. Groups may be
empty.
-/
structure Store.Describable (groups : List (Group κ)) : Prop where
  distinctGroups : (groups.map (·.id)).Nodup
  distinctPosts : ((groups.flatMap (·.posts)).map (·.id)).Nodup
  named : ∀ group ∈ groups, ∀ post ∈ group.posts, post.group = group.id

namespace GroupTable

/-- After groups with distinct identifiers were put into a table, it has these and those that were
there under other identifiers, by induction over the groups.
-/
theorem mem_toList_foldl_insert {groups : List (Group κ)}
    (distinct : (groups.map (·.id)).Nodup) (table : GroupTable κ) {member : Group κ}
    : member ∈ (groups.foldl insert table).toList
      ↔ member ∈ groups ∨ (member ∈ table.toList ∧ ∀ group ∈ groups, member.id ≠ group.id) := by
  induction groups generalizing table with
  | nil => simp
  | cons head rest ih =>
      rw [List.map_cons, List.nodup_cons] at distinct
      obtain ⟨headApart, restDistinct⟩ := distinct
      have headOther (group : Group κ) (inRest : group ∈ rest) : head.id ≠ group.id := fun same =>
        headApart (same ▸ List.mem_map_of_mem inRest)
      rw [List.foldl_cons, ih restDistinct, mem_toList_insert, List.mem_cons,
        List.forall_mem_cons]
      constructor
      · rintro (inRest | ⟨rfl | ⟨inTable, other⟩, others⟩)
        · exact .inl (.inr inRest)
        · exact .inl (.inl rfl)
        · exact .inr ⟨inTable, other, others⟩
      · rintro ((rfl | inRest) | ⟨inTable, other, others⟩)
        · exact .inr ⟨.inl rfl, headOther⟩
        · exact .inl inRest
        · exact .inr ⟨.inr ⟨inTable, other⟩, others⟩

/-- A table of groups with distinct identifiers has these groups. -/
theorem mem_toList_ofList {groups : List (Group κ)} (distinct : (groups.map (·.id)).Nodup)
    {member : Group κ}
    : member ∈ (ofList groups).toList ↔ member ∈ groups := by
  have bare : member ∉ (empty : GroupTable κ).toList := List.not_mem_nil
  rw [ofList, mem_toList_foldl_insert distinct]
  exact or_iff_left fun both => bare both.1

end GroupTable

variable [OrderKey κ] [OrderKey.Lawful κ]

/-- A described board is in good order, if its keys are numbers: groups without posts are left out
and the posts of the others are sorted.
-/
theorem Store.Describable.wellFormed {groups : List (Group κ)} (describable : Describable groups)
    (numbers : ∀ group ∈ groups, ∀ post ∈ group.posts, (post.key == post.key) = true)
    : (Store.ofGroups groups).WellFormed := by
  have mem_sorted {group : Group κ} {post : Post κ}
      : post ∈ Post.sorted group.posts ↔ post ∈ group.posts := List.mem_mergeSort
  have distinct
      : (((groups.filter (fun group => !group.posts.isEmpty)).map
          (fun group => { group with posts := Post.sorted group.posts })).map (·.id)).Nodup := by
    rw [List.map_map]
    exact describable.distinctGroups.sublist (List.filter_sublist.map _)
  have source {member : Group κ} (inTable : member ∈ (Store.ofGroups groups).groups.toList)
      : ∃ group ∈ groups.filter (fun group => !group.posts.isEmpty),
          { group with posts := Post.sorted group.posts } = member :=
    List.mem_map.mp ((GroupTable.mem_toList_ofList distinct).mp inTable)
  refine ⟨⟨fun _ _ => GroupTable.id_of_find?, ?_, GroupTable.unique_iff.mpr ⟨?_, ?_⟩⟩, ?_⟩
  · intro member inTable
    obtain ⟨group, kept, rfl⟩ := source inTable
    obtain ⟨inGroups, occupied⟩ := List.mem_filter.mp kept
    refine ⟨?_, ?_, ?_, Post.sorted_ascending group.posts⟩
    · intro bare
      have sortedBare : Post.sorted group.posts = [] := bare
      obtain ⟨post, inGroup⟩ := List.exists_mem_of_ne_nil group.posts (by simpa using occupied)
      exact List.not_mem_nil (sortedBare ▸ mem_sorted.mpr inGroup)
    · intro post inSorted
      exact describable.named group inGroups post (mem_sorted.mp inSorted)
    · intro post inSorted
      exact numbers group inGroups post (mem_sorted.mp inSorted)
  · intro member inTable
    obtain ⟨group, kept, rfl⟩ := source inTable
    have each := describable.distinctPosts
    rw [List.map_flatMap, List.nodup_flatMap] at each
    exact ((List.mergeSort_perm group.posts _).map (·.id)).nodup_iff.mpr
      (each.1 group (List.mem_filter.mp kept).1)
  · intro left leftMember right rightMember post inLeft other inRight same
    obtain ⟨leftGroup, leftKept, rfl⟩ := source leftMember
    obtain ⟨rightGroup, rightKept, rfl⟩ := source rightMember
    rw [GroupTable.eq_of_shared_post describable.distinctPosts (List.mem_filter.mp leftKept).1
      (List.mem_filter.mp rightKept).1 (mem_sorted.mp inLeft) (mem_sorted.mp inRight) same]
  · intro member inTable
    obtain ⟨group, kept, rfl⟩ := source inTable
    exact (Group.le_highest _ 0).2 group kept

-----------------------------------------------------------------------------------------
-- A small board
-----------------------------------------------------------------------------------------

namespace Sample

/-- A post without text. -/
def post (id group : Nat) (key : Float) : Post Float :=
  ⟨.ofNat id, .ofNat 1, .ofNat 7, "", .lightPink, 100, .ofNat group, key, .epoch, .epoch⟩

/-- A group without a title. -/
def group (id : Nat) (z : Int32) (posts : List (Post Float)) : Group Float :=
  ⟨.ofNat id, .ofNat 1, "", 0, 0, z, posts, .epoch, .epoch⟩

/-- Two groups of one post each, and one without posts. -/
def pair : List (Group Float) :=
  [group 10 1 [post 11 10 1.0], group 20 2 [post 21 20 1.0],
    group 30 3 []]

/-- The board that the pair of groups describes; the empty group is left out. -/
theorem ofGroups_pair
    : Store.ofGroups pair
      = ⟨⟨[group 10 1 [post 11 10 1.0], group 20 2 [post 21 20 1.0]],
          by decide⟩, [], 2⟩ := by
  simp only [Store.ofGroups, pair, group, List.filter, List.isEmpty, Bool.not_false,
    Bool.not_true, List.map, Post.sorted, List.mergeSort_singleton]
  rfl

end Sample

end SharedBoard
