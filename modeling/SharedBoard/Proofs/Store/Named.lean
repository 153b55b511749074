import SharedBoard.Proofs.Store.Reducer

/-! Posts stand in the groups that they name. Every call on a board keeps it so, whatever the
keys of the posts are, since a post is only ever put into the group that it names.
-/

namespace SharedBoard

variable {κ : Type}

/-- The posts of every group name it. -/
def GroupTable.Named (table : GroupTable κ) : Prop :=
  ∀ group ∈ table.toList, ∀ post ∈ group.posts, post.group = group.id

instance GroupTable.decidableNamed (table : GroupTable κ) : Decidable table.Named :=
  inferInstanceAs (Decidable (∀ group ∈ table.toList, ∀ post ∈ group.posts, post.group = group.id))

namespace GroupTable.Named

variable {table : GroupTable κ}

/-- The group that a post of the table names is there. -/
theorem group_of_mem_posts (named : table.Named) {post : Post κ} (member : post ∈ table.posts)
    : ∃ group, table.find? post.group = some group ∧ post ∈ group.posts := by
  obtain ⟨group, inTable, inGroup⟩ := mem_posts.mp member
  rw [named group inTable post inGroup]
  exact ⟨group, mem_toList_iff.mp inTable, inGroup⟩

theorem insert (named : table.Named) {group : Group κ}
    (own : ∀ post ∈ group.posts, post.group = group.id)
    : (table.insert group).Named := by
  intro member inTable
  rcases mem_toList_insert.mp inTable with rfl | ⟨old, _⟩
  · exact own
  · exact named member old

theorem erase (named : table.Named) (id : GroupId) : (table.erase id).Named :=
  fun member inTable => named member (mem_toList_erase.mp inTable).1

end GroupTable.Named

-----------------------------------------------------------------------------------------
-- Edits
-----------------------------------------------------------------------------------------

namespace Draft

variable {draft next : Draft κ}

/-- A group that keeps some of its posts and gets others that name it can be put back. -/
theorem named_put (named : draft.table.Named) {id : GroupId} {group : Group κ}
    (found : draft.table.find? id = some group) {posts : List (Post κ)}
    (own : ∀ post ∈ posts, post ∈ group.posts ∨ post.group = id)
    : (draft.put { group with posts := posts }).table.Named := by
  refine named.insert fun post member => ?_
  rcases own post member with old | new
  · exact named group (GroupTable.mem_toList_of_find? found) post old
  · exact new.trans (GroupTable.id_of_find? found).symm

theorem named_removePost? (named : draft.table.Named) {post : PostId} {hint : Option GroupId}
    (edited : draft.removePost? post hint = some next)
    : next.table.Named := by
  simp only [removePost?, Option.bind_eq_bind, Option.bind_eq_some_iff] at edited
  obtain ⟨⟨id, index⟩, place, group, found, edited⟩ := edited
  split at edited
  · obtain rfl := Option.some.inj edited
    exact named.erase id
  · obtain rfl := Option.some.inj edited
    exact named_put named found fun post member => .inl (List.mem_of_mem_eraseIdx member)

theorem named_withdrawPost (named : draft.table.Named) (keep : GroupId) (post : PostId)
    : (draft.withdrawPost keep post).table.Named := by
  unfold withdrawPost
  split
  · split
    · exact named
    · cases removed : draft.removePost? post (some _) with
      | none => exact named
      | some next => exact named_removePost? named removed
  · exact named

variable [OrderKey κ]

theorem named_insertPost? (named : draft.table.Named) {post : Post κ}
    (edited : draft.insertPost? post = some next)
    : next.table.Named := by
  obtain ⟨group, found, rfl⟩ := Option.map_eq_some_iff.mp edited
  refine named_put named found fun other member => ?_
  rcases List.mem_cons.mp ((Post.insertInto_perm group.posts post).subset member) with rfl | old
  · exact .inr rfl
  · exact .inl old

/-- A post is put into the group that it names, wherever it was. -/
theorem named_placePost? (named : draft.table.Named) {post : Post κ}
    (edited : draft.placePost? post = some next)
    : next.table.Named := by
  unfold placePost? at edited
  split at edited
  · simp at edited
  · next target found =>
      split at edited
      · exact named_insertPost? named edited
      · next id index _ =>
          split at edited
          · obtain ⟨current, _, edited⟩ := Option.bind_eq_some_iff.mp edited
            split at edited
            · simp at edited
            · split at edited
              · obtain rfl := Option.some.inj edited
                refine named_put named found fun other member => ?_
                exact (List.mem_or_eq_of_mem_set member).imp_right (congrArg Post.group)
              · obtain rfl := Option.some.inj edited
                refine named_put named found fun other member => ?_
                rcases List.mem_cons.mp ((Post.insertInto_perm _ post).subset member) with rfl | old
                · exact .inr rfl
                · exact .inl (List.mem_of_mem_eraseIdx old)
          · cases removed : draft.removePost? post.id (some id) with
            | none =>
                rw [removed] at edited
                exact named_insertPost? named edited
            | some between =>
                rw [removed] at edited
                exact named_insertPost? (named_removePost? named removed) edited

omit [OrderKey κ] in
/-- Edits made for several posts one by one keep the table named if each does, by induction over
the posts.
-/
theorem named_foldl {step : Draft κ → Post κ → Draft κ}
    (keeps : ∀ draft post, draft.table.Named → (step draft post).table.Named)
    (named : draft.table.Named) (posts : List (Post κ))
    : (posts.foldl step draft).table.Named := by
  induction posts generalizing draft with
  | nil => exact named
  | cons head rest ih => exact ih (keeps draft head named)

/-- A group that is put onto the table brings posts that name it, and these are withdrawn from
where they were or placed one by one.
-/
theorem named_insertGroup? (named : draft.table.Named) {group : Group κ}
    (edited : draft.insertGroup? group = some next)
    : next.table.Named := by
  have cleared := named_foldl
    (fun _ post between => named_withdrawPost between group.normalized.id post.id) named
    group.normalized.posts
  simp only [insertGroup?] at edited
  split at edited
  · simp at edited
  · split at edited
    · obtain rfl := Option.some.inj edited
      refine cleared.insert fun post member => ?_
      obtain ⟨old, _, rfl⟩ := List.mem_map.mp member
      rfl
    · next existing found =>
        obtain rfl := Option.some.inj edited
        refine named_foldl (fun between post kept => ?_) (cleared.insert ?_) _
        · cases placed : between.placePost? post with
          | none => exact kept
          | some next => exact named_placePost? kept placed
        · exact cleared existing (GroupTable.mem_toList_of_find? found)

end Draft

-----------------------------------------------------------------------------------------
-- Boards
-----------------------------------------------------------------------------------------

namespace Store

variable {store : Store κ}

/-- An edit that keeps the table named keeps the board named. -/
theorem named_edit (named : store.groups.Named) {change : Draft κ → Option (Draft κ)}
    (keeps : ∀ next, change ⟨store.groups, []⟩ = some next → next.table.Named)
    : (store.edit change).store.groups.Named := by
  unfold edit
  split
  · exact named
  · next next edited => exact keeps next edited

theorem named_of_sameBoard {after : Store κ} (named : store.groups.Named)
    (same : store.SameBoard after)
    : after.groups.Named :=
  same.1 ▸ named

theorem named_groupRemoved (named : store.groups.Named) (id : GroupId)
    : (store.groupRemoved id).store.groups.Named := by
  unfold groupRemoved
  split
  · refine named_of_sameBoard (named_edit named fun next edited => ?_)
      (typingStoppedNowhere_sameBoard _)
    obtain rfl := Option.some.inj edited
    exact named.erase id
  · exact named

theorem named_postRemoved (named : store.groups.Named) (post : Post κ)
    : (store.postRemoved post).store.groups.Named := by
  unfold postRemoved
  split
  · exact named_of_sameBoard (named_edit named fun _ => Draft.named_removePost? named)
      (typingStopped_sameBoard _ _)
  · exact named

variable [OrderKey κ]

theorem named_groupCreated (named : store.groups.Named) (group : Group κ)
    : (store.groupCreated group).store.groups.Named := by
  unfold groupCreated
  split
  · exact named
  · exact named_edit named fun _ => Draft.named_insertGroup? named

theorem named_groupPatched (named : store.groups.Named) (patch : GroupPatch)
    : (store.groupPatched patch).store.groups.Named := by
  unfold groupPatched
  split
  · exact named
  · next group found =>
      split
      · exact named
      · refine named_edit named fun next edited => ?_
        obtain rfl := Option.some.inj edited
        refine named.insert fun post member => ?_
        rw [patch.applyTo_posts] at member
        rw [patch.applyTo_id]
        exact named group (GroupTable.mem_toList_of_find? found) post member

theorem named_postCreated (named : store.groups.Named) (post : Post κ) (group : Group κ)
    : (store.postCreated post group).store.groups.Named := by
  unfold postCreated
  split
  · exact named_edit named fun _ => Draft.named_placePost? named
  · exact named_groupCreated named _

theorem named_postUpdated (named : store.groups.Named) (post : Post κ)
    : (store.postUpdated post).store.groups.Named :=
  named_of_sameBoard (named_edit named fun _ => Draft.named_placePost? named)
    (typingStopped_sameBoard _ _)

theorem named_postDetached (named : store.groups.Named) (post : Post κ) (group : Group κ)
    : (store.postDetached post group).store.groups.Named :=
  named_edit named fun _ => Draft.named_insertGroup? named

/-- A board stays named when it follows an event, by cases on the event. -/
theorem named_reduce (named : store.groups.Named) (localUser : Option UserId) (event : Event κ)
    : (store.reduce localUser event).store.groups.Named := by
  cases event with
  | authenticated user => exact named
  | boardConnected connected newUser => exact named
  | boardDisconnected user => exact named_of_sameBoard named (store.left_sameBoard user)
  | postCreated post group => exact named_postCreated named post group
  | postUpdated post old => exact named_postUpdated named post
  | postDeleted post => exact named_postRemoved named post
  | postDetached post group => exact named_postDetached named post group
  | postFocused post user =>
      simp only [reduce]
      split
      · exact named
      · exact named_of_sameBoard named (store.focused_sameBoard user.id post.id)
  | groupUpdated patch => exact named_groupPatched named patch
  | groupDeleted id => exact named_groupRemoved named id

end Store

end SharedBoard
