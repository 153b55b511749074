import SharedBoard.Proofs.OrderKey.Binary64
import SharedBoard.Proofs.Store.Described
import SharedBoard.Proofs.Store.Posts

/-! Events that arrive twice. The second time an event finds the board as it left it: nothing on the
board changes again, and most events do not even rebuild a part of it.
-/

namespace SharedBoard

variable {κ : Type}

-----------------------------------------------------------------------------------------
-- Edits made twice
-----------------------------------------------------------------------------------------

/-- No z-index is higher than a start that bounds them all. -/
theorem Group.highest_of_bounded {groups : List (Group κ)} {start : Int32}
    (bounded : ∀ group ∈ groups, group.z ≤ start)
    : groups.foldl (fun highest group => max highest group.z) start = start := by
  refine foldl_of_fixed fun group member => ?_
  change (if start ≤ group.z then group.z else start) = start
  split
  · next above => exact Int32.le_antisymm (bounded group member) above
  · rfl

namespace Store

variable {store : Store κ}

/-- An edit that finds nothing to do on a table that it left has nothing to do on the board that it
left.
-/
theorem settled_edit (change : Draft κ → Option (Draft κ))
    (settles : ∀ next, change ⟨store.groups, []⟩ = some next → change ⟨next.table, []⟩ = none)
    : change ⟨(store.edit change).store.groups, []⟩ = none := by
  cases edited : change ⟨store.groups, []⟩ with
  | none =>
      rw [edit_of_none edited]
      exact edited
  | some next =>
      rw [groups_edit_of_some edited]
      exact settles next edited

/-- An edit that keeps a table that it left keeps the board that it left, since the highest z-index
took in that table before.
-/
theorem edit_edit_of_same {change : Draft κ → Option (Draft κ)}
    (keeps
      : ∀ next again,
          change ⟨store.groups, []⟩ = some next
          → change ⟨next.table, []⟩ = some again
          → again.table = next.table)
    : ((store.edit change).store.edit change).store = (store.edit change).store := by
  cases edited : change ⟨store.groups, []⟩ with
  | none =>
      rw [edit_of_none edited]
      exact congrArg Update.store (edit_of_none edited)
  | some next =>
      cases repeated : change ⟨next.table, []⟩ with
      | none =>
          have nothing : change ⟨(store.edit change).store.groups, []⟩ = none := by
            rw [groups_edit_of_some edited, repeated]
          rw [edit_of_none nothing]
          rfl
      | some again =>
          have table := keeps next again edited repeated
          have bounded := (Group.le_highest next.table.toList store.maxZ).2
          simp only [edit, edited, repeated, table, Group.highest_of_bounded bounded]

/-- An update of a post raises no group, so that the highest z-index stays. -/
theorem maxZ_postUpdated [OrderKey κ] (wellFormed : store.WellFormed) (post : Post κ)
    : (store.postUpdated post).store.maxZ = store.maxZ := by
  rw [postUpdated, Update.andThen_store, (typingStopped_sameBoard _ _).2, edit]
  cases edited : (⟨store.groups, []⟩ : Draft κ).placePost? post with
  | none => rfl
  | some next =>
      refine Group.highest_of_bounded fun group member => ?_
      obtain ⟨old, found, fields⟩ :=
        Draft.placePost?_keepsFields edited group.id group (GroupTable.mem_toList_iff.mp member)
      rw [fields]
      exact wellFormed.bounded old (GroupTable.mem_toList_of_find? found)

end Store

namespace Draft

variable [OrderKey κ] [OrderKey.Lawful κ] {draft next : Draft κ}

/-- A post that was placed leaves nothing to do. -/
theorem placePost?_again (wellFormed : draft.table.WellFormed) {post : Post κ}
    (number : (post.key == post.key) = true) (edited : draft.placePost? post = some next)
    : (⟨next.table, []⟩ : Draft κ).placePost? post = none := by
  have placed := placePost?_placed wellFormed number edited
  have present : ∃ current ∈ next.table.posts, (current == post) = true :=
    ⟨post, (placed.mem_posts post).mpr (.inl rfl), Post.beq_iff.mpr ⟨rfl, number⟩⟩
  refine placePost?_of_present ?_ ?_
  · exact placed.wellFormed
  · exact present

omit [OrderKey.Lawful κ] in
/-- Placing several posts keeps the fields of all groups that stay, by induction over them. -/
theorem placePosts_keepsFields (draft : Draft κ) (posts : List (Post κ))
    : draft.table.KeepsFields
        (posts.foldl (fun draft post => (draft.placePost? post).getD draft) draft).table := by
  induction posts generalizing draft with
  | nil => exact GroupTable.KeepsFields.refl draft.table
  | cons head rest ih =>
      rw [List.foldl_cons]
      refine GroupTable.KeepsFields.trans ?_ (ih _)
      cases edited : draft.placePost? head with
      | none => exact GroupTable.KeepsFields.refl draft.table
      | some placed => exact placePost?_keepsFields edited

omit [OrderKey.Lawful κ] in
/-- A group that was merged into a table has its fields there. -/
theorem fields_of_merged {group after : Group κ}
    (found : (draft.merged group).table.find? group.id = some after)
    : { after with
        title := group.title
        x := group.x
        y := group.y
        z := group.z
        updatedAt := group.updatedAt } = after := by
  simp only [merged] at found
  split at found
  · obtain rfl := Option.some.inj ((GroupTable.find?_insert_self ..).symm.trans found)
    rfl
  · next existing atId =>
      obtain ⟨old, atOld, fields⟩ := placePosts_keepsFields _ _ _ _ found
      have own : existing.id = group.id := GroupTable.id_of_find? atId
      rw [← own] at atOld
      obtain rfl := Option.some.inj ((GroupTable.find?_insert_self ..).symm.trans atOld)
      rw [fields]

/-- A group of one post that comes again to the table that it left leaves it as it is. -/
theorem insertGroup?_again (wellFormed : draft.table.WellFormed) {group : Group κ} {post : Post κ}
    (only : group.posts = [post]) (named : post.group = group.id)
    (number : (post.key == post.key) = true) {again : Draft κ}
    (edited : draft.insertGroup? group = some next)
    (repeated : (⟨next.table, []⟩ : Draft κ).insertGroup? group = some again)
    : again.table = next.table := by
  have normal : group.normalized = group := Group.normalized_singleton only named
  have after : next.table.WellFormed :=
    insertGroup?_wellFormed wellFormed (by simp [only]) (by simpa [only] using number)
      (by simp [only]) edited
  have received := draft.insertGroup?_receives (normal.symm ▸ only) named
  rw [edited, Option.getD_some] at received
  obtain ⟨current, _, _, same, _, perm, _⟩ := received
  have equal : (current == post) = true := by
    rcases same with rfl | equal
    · exact Post.beq_iff.mpr ⟨rfl, number⟩
    · exact equal
  obtain ⟨existing, found, inExisting⟩ :=
    after.group_of_mem_posts (perm.symm.subset List.mem_cons_self)
  have sameGroup : current.group = group.id := by rw [(Post.beq_iff.mp equal).1, ← named]
  rw [sameGroup] at found
  have merged : draft.merged group = next := by
    rw [insertGroup?_eq, normal] at edited
    split at edited
    · simp at edited
    · exact Option.some.inj edited
  have fields := fields_of_merged (merged ▸ found)
  rw [insertGroup?_eq, normal] at repeated
  split at repeated
  · simp at repeated
  · obtain rfl := Option.some.inj repeated
    have present
        : ∀ post ∈ group.posts, ∃ current ∈ existing.posts, (current == post) = true := by
      rw [only]
      exact List.forall_mem_singleton.mpr ⟨current, inExisting, equal⟩
    have atOwn : next.table.find? existing.id = some existing :=
      (GroupTable.id_of_find? found).symm ▸ found
    have inNext : (⟨next.table, []⟩ : Draft κ).table.find? group.id = some existing := found
    have settled : (⟨next.table, []⟩ : Draft κ).table.WellFormed := after
    rw [merged_of_present settled inNext present, fields]
    exact GroupTable.insert_of_found atOwn

end Draft

-----------------------------------------------------------------------------------------
-- Rosters
-----------------------------------------------------------------------------------------

namespace Store

/-- The users that are kept have distinct identifiers, by induction over the users that come. -/
theorem firstOfEach_distinct (users : List User) : ((firstOfEach users).map (·.id)).Nodup := by
  have step (kept : List User) (distinct : (kept.map (·.id)).Nodup)
      : ((users.foldl
          (fun kept user => if kept.any (·.id == user.id) then kept else kept ++ [user])
          kept).map (·.id)).Nodup := by
    induction users generalizing kept with
    | nil => exact distinct
    | cons head rest ih =>
        rw [List.foldl_cons]
        refine ih _ ?_
        split
        · exact distinct
        · next new =>
            rw [List.map_append, List.nodup_append']
            refine ⟨distinct, List.nodup_singleton _, ?_⟩
            simpa [List.any_eq_true] using new
  exact step [] List.nodup_nil

/-- A user who is kept is found by identifier among the participants. -/
theorem find?_participants {users : List User} (distinct : (users.map (·.id)).Nodup)
    (typing : User → Option PostId) {user : User} (member : user ∈ users)
    : (users.map (fun user => (⟨user, typing user⟩ : Participant))).find? (·.user.id == user.id)
      = some ⟨user, typing user⟩ := by
  rw [List.find?_map, Option.map_eq_some_iff]
  refine ⟨user, ?_, rfl⟩
  cases found : users.find? (·.id == user.id) with
  | none => simpa using List.find?_eq_none.mp found user member
  | some other =>
      have sameId : other.id = user.id := by simpa using List.find?_some found
      have one := List.inj_on_of_nodup_map distinct (List.mem_of_find?_eq_some found) member sameId
      exact found.trans (congrArg some one)

/-- The roster stays as it is when the same users are connected again. -/
theorem joined_again (store : Store κ) (connected : List User) (newUser : User)
    : ((store.joined connected newUser).store.joined connected newUser).store
      = (store.joined connected newUser).store := by
  have distinct := firstOfEach_distinct (connected ++ [newUser])
  simp only [joined, withRoster, Store.mk.injEq, true_and, and_true]
  refine List.map_congr_left fun user member => ?_
  rw [find?_participants distinct _ member]
  rfl

theorem left_again (store : Store κ) (user : UserId)
    : (store.left user).store.left user = (store.left user).store.unchanged := by
  have gone : (store.left user).store.isConnected user = false := by
    unfold left
    split
    · simp [withRoster, isConnected]
    · next absent => exact Bool.eq_false_iff.mpr absent
  generalize (store.left user).store = after at gone ⊢
  rw [left, gone]
  rfl

/-- A user who began to type on a post is typing on it already. -/
theorem focused_again (store : Store κ) (user : UserId) (post : PostId)
    : ((store.focused user post).store.focused user post).store
      = (store.focused user post).store := by
  have same (participant : Participant)
      : (participant.focusedBy user post).focusedBy user post = participant.focusedBy user post := by
    by_cases own : participant.user.id = user
    · simp only [Participant.focusedBy, own, if_true]
    · by_cases typing : participant.typing = some post
      · simp [Participant.focusedBy, Participant.stopTypingOn, own, typing]
      · simp [Participant.focusedBy, Participant.stopTypingOn, own, typing]
  by_cases connected : store.isConnected user = true
  · have after : (store.focused user post).store
        = (store.withRoster (store.roster.map (·.focusedBy user post))).store := by
      simp only [focused, connected, if_true]
    rw [after, focused]
    split
    · simp [withRoster, same]
    · rfl
  · have idle : store.focused user post = store.unchanged := by simp [focused, connected]
    rw [idle]
    exact congrArg Update.store idle

end Store

-----------------------------------------------------------------------------------------
-- Events
-----------------------------------------------------------------------------------------

namespace Store

variable {store : Store κ}

theorem groupRemoved_again (store : Store κ) (id : GroupId)
    : (store.groupRemoved id).store.groupRemoved id = (store.groupRemoved id).store.unchanged :=
  groupRemoved_of_absent (store.group?_groupRemoved id)

/-- A group that is not on the board is not changed, and one that is there was changed already. -/
theorem groupPatched_twice [OrderKey κ] (wellFormed : store.groups.WellFormed) (patch : GroupPatch)
    : (store.groupPatched patch).store.groupPatched patch
      = (store.groupPatched patch).store.unchanged := by
  cases found : store.group? patch.id with
  | none =>
      rw [groupPatched_of_absent found]
      exact groupPatched_of_absent found
  | some group => exact groupPatched_again wellFormed found

theorem postRemoved_again [OrderKey κ] (wellFormed : store.groups.WellFormed) (post : Post κ)
    : (store.postRemoved post).store.postRemoved post
      = (store.postRemoved post).store.unchanged :=
  postRemoved_of_absent (absent_postRemoved wellFormed.unique post)

variable [OrderKey κ] [OrderKey.Lawful κ]

theorem postAdded_again (wellFormed : store.groups.WellFormed) (id : GroupId) {post : Post κ}
    (number : (post.key == post.key) = true)
    : (store.postAdded id post).store.postAdded id post
      = (store.postAdded id post).store.unchanged := by
  have named : ({ post with group := id }.key == post.key) = true := number
  have table : (⟨store.groups, []⟩ : Draft κ).table.WellFormed := wellFormed
  exact edit_of_none (store.settled_edit (·.placePost? { post with group := id })
    fun _ edited => Draft.placePost?_again table named edited)

/-- A post that was put into its group is there, and nobody has begun to type on it since. -/
theorem postUpdated_again (wellFormed : store.groups.WellFormed) {post : Post κ}
    (number : (post.key == post.key) = true)
    : (store.postUpdated post).store.postUpdated post
      = (store.postUpdated post).store.unchanged := by
  have table : (⟨store.groups, []⟩ : Draft κ).table.WellFormed := wellFormed
  have groups : (store.postUpdated post).store.groups
      = (store.edit (·.placePost? post)).store.groups := (typingStopped_sameBoard _ _).1
  have nothing
      : (⟨(store.postUpdated post).store.groups, []⟩ : Draft κ).placePost? post = none := by
    rw [groups]
    exact store.settled_edit (·.placePost? post)
      fun _ edited => Draft.placePost?_again table number edited
  have quiet : (store.postUpdated post).store.typingOn? post.id = none :=
    typingOn?_typingStopped _ post.id
  generalize (store.postUpdated post).store = after at nothing quiet ⊢
  rw [postUpdated, edit_of_none nothing]
  refine unchanged_andThen ?_
  rw [typingStopped, quiet, Option.isNone_none, if_pos rfl]

/-- A group that a post was put into is still there. -/
theorem contains_postAdded (wellFormed : store.groups.WellFormed) {id : GroupId} {post : Post κ}
    (number : (post.key == post.key) = true) (there : store.groups.contains id = true)
    : (store.postAdded id post).store.groups.contains id = true := by
  have named : ({ post with group := id }.key == post.key) = true := number
  have table : (⟨store.groups, []⟩ : Draft κ).table.WellFormed := wellFormed
  cases edited : (⟨store.groups, []⟩ : Draft κ).placePost? { post with group := id } with
  | none =>
      rw [postAdded, edit_of_none edited]
      exact there
  | some next =>
      have placed := Draft.placePost?_placed table named edited
      obtain ⟨target, found, _⟩ :=
        placed.wellFormed.group_of_mem_posts ((placed.mem_posts _).mpr (.inl rfl))
      rw [postAdded, groups_edit_of_some edited, GroupTable.contains, found]
      rfl

omit [OrderKey.Lawful κ] in
/-- A post that is in the group that it is created in leaves nothing to do. -/
theorem postCreated_of_present (wellFormed : store.groups.WellFormed) {post : Post κ}
    {group : Group κ} (there : store.groups.contains group.id = true)
    (present : ∃ current ∈ store.groups.posts, (current == { post with group := group.id }) = true)
    : store.postCreated post group = store.unchanged := by
  have table : (⟨store.groups, []⟩ : Draft κ).table.WellFormed := wellFormed
  rw [postCreated, there, if_pos rfl]
  exact edit_of_none (Draft.placePost?_of_present table present)

/-- A post that was created is found in its group, whether the group was there before or came with
it.
-/
theorem postCreated_again (wellFormed : store.groups.WellFormed) {post : Post κ}
    (number : (post.key == post.key) = true) (group : Group κ)
    : (store.postCreated post group).store.postCreated post group
      = (store.postCreated post group).store.unchanged := by
  cases there : store.groups.contains group.id with
  | true =>
      have added : store.postCreated post group = store.postAdded group.id post := by
        simp only [postCreated, there, if_true]
      have stays := contains_postAdded wellFormed number there
      rw [added, postCreated, stays, if_pos rfl]
      exact postAdded_again wellFormed group.id number
  | false =>
      let given : Group κ := { group with posts := [post] }
      have came : store.postCreated post group = store.edit (·.insertGroup? given) := by
        simp only [postCreated, there, groupCreated, List.isEmpty, given, Bool.false_eq_true,
          if_false]
      have table : (⟨store.groups, []⟩ : Draft κ).table.WellFormed := wellFormed
      have absent : (⟨store.groups, []⟩ : Draft κ).table.find? given.id = none := by
        simpa [GroupTable.contains] using there
      obtain ⟨next, edited, found⟩ := Draft.insertGroup?_of_absent table absent
      have after : next.table.WellFormed :=
        Draft.insertGroup?_wellFormed table (by simp [given]) (by simpa [given] using number)
          (by simp [given]) edited
      have inGroup : { post with group := group.id } ∈ given.normalized.posts := by
        simp [Group.normalized, Post.sorted, given]
      have groups : (store.edit (·.insertGroup? given)).store.groups = next.table :=
        groups_edit_of_some edited
      have equal
          : (({ post with group := group.id } : Post κ) == { post with group := group.id }) = true :=
        Post.beq_iff.mpr ⟨rfl, number⟩
      rw [came]
      refine postCreated_of_present (groups ▸ after) ?_ ⟨_, ?_, equal⟩
      · rw [groups, GroupTable.contains, found]
        rfl
      · rw [groups]
        exact GroupTable.mem_posts.mpr ⟨_, GroupTable.mem_toList_of_find? found, inGroup⟩

theorem postDetached_again (wellFormed : store.groups.WellFormed) {post : Post κ}
    (number : (post.key == post.key) = true) (group : Group κ)
    : ((store.postDetached post group).store.postDetached post group).store
      = (store.postDetached post group).store := by
  have table : (⟨store.groups, []⟩ : Draft κ).table.WellFormed := wellFormed
  have named : ({ post with group := group.id }.key == post.key) = true := number
  exact edit_edit_of_same fun _ _ edited repeated =>
    Draft.insertGroup?_again table rfl rfl named edited repeated

/-- An event that a board in good order has followed changes nothing when it comes again. Where it
concerns posts and groups that stay on the board or left it, it does not even rebuild anything.
-/
theorem reduce_again (wellFormed : store.groups.WellFormed) (localUser : Option UserId)
    {event : Event κ} (numbers : ∀ post ∈ event.arrivals, (post.key == post.key) = true)
    : ((store.reduce localUser event).store.reduce localUser event).store
        = (store.reduce localUser event).store
      ∧ (event.kind ∈ [.postCreate, .postUpdate, .postDelete, .groupUpdate, .groupDelete]
          → ((store.reduce localUser event).store.reduce localUser event).isSame = true) := by
  have idle
      (again
        : (store.reduce localUser event).store.reduce localUser event
          = (store.reduce localUser event).store.unchanged)
      : ((store.reduce localUser event).store.reduce localUser event).store
          = (store.reduce localUser event).store
        ∧ (event.kind ∈ [.postCreate, .postUpdate, .postDelete, .groupUpdate, .groupDelete]
          → ((store.reduce localUser event).store.reduce localUser event).isSame = true) := by
    rw [again]
    exact ⟨rfl, fun _ => rfl⟩
  cases event with
  | authenticated user => exact idle rfl
  | boardConnected connected newUser =>
      exact ⟨store.joined_again connected newUser, by simp [Event.kind]⟩
  | boardDisconnected user => exact idle (store.left_again user)
  | postCreated post group =>
      exact idle (postCreated_again wellFormed (numbers post (by simp [Event.arrivals])) group)
  | postUpdated post old =>
      exact idle (postUpdated_again wellFormed (numbers post (by simp [Event.arrivals])))
  | postDeleted post => exact idle (postRemoved_again wellFormed post)
  | postDetached post group =>
      exact ⟨postDetached_again wellFormed (numbers post (by simp [Event.arrivals])) group,
        by simp [Event.kind]⟩
  | postFocused post user =>
      refine ⟨?_, by simp [Event.kind]⟩
      simp only [Store.reduce]
      split
      · rfl
      · exact store.focused_again user.id post.id
  | groupUpdated patch => exact idle (groupPatched_twice wellFormed patch)
  | groupDeleted id => exact idle (store.groupRemoved_again id)

/-- The only post of the first group moves to the second one, twice. -/
theorem reduce_again_moved
    : let event : Event Float := .postUpdated (Sample.post 11 20 2.0) none
      let once := ((ofGroups Sample.pair).reduce none event).store
      once.groupCount = 1
      ∧ (once.reduce none event).store = once
      ∧ (once.reduce none event).isSame = true := by
  intro event once
  have wellFormed : (ofGroups Sample.pair).WellFormed :=
    Describable.wellFormed ⟨by decide, by decide, by decide⟩ (by decide)
  have count : once.groupCount = 1 := by
    simp only [once, event, Sample.ofGroups_pair]
    decide +kernel
  have numbers : ∀ post ∈ event.arrivals, (post.key == post.key) = true := by decide
  obtain ⟨same, idle⟩ := reduce_again wellFormed.table none numbers
  exact ⟨count, same, idle (by decide)⟩

end Store

end SharedBoard
