import SharedBoard.Proofs.Store.Drafting
import SharedBoard.Store.Reduce

/-! Calls that change a board. Each keeps a board in good order, if the keys that it brings are
numbers, and none lowers the highest z-index. Events are followed by such calls.
-/

namespace SharedBoard

variable {κ : Type}

theorem Store.left_le_max (left right : Int32) : left ≤ max left right := by
  change left ≤ if left ≤ right then right else left
  split
  · next below => exact below
  · exact Int32.le_refl left

theorem Store.right_le_max (left right : Int32) : right ≤ max left right := by
  change right ≤ if left ≤ right then right else left
  split
  · exact Int32.le_refl right
  · next notBelow => exact (Int32.le_total left right).resolve_left notBelow

theorem Store.max_le {left right height : Int32} (leftLow : left ≤ height)
    (rightLow : right ≤ height)
    : max left right ≤ height := by
  change (if left ≤ right then right else left) ≤ height
  split
  · exact rightLow
  · exact leftLow

/-- The highest of a start and the z-indexes of groups is not below any of them, by induction over
the groups.
-/
theorem Group.le_highest (groups : List (Group κ)) (start : Int32)
    : start ≤ groups.foldl (fun highest group => max highest group.z) start
      ∧ ∀ group ∈ groups,
          group.z ≤ groups.foldl (fun highest group => max highest group.z) start := by
  induction groups generalizing start with
  | nil => exact ⟨Int32.le_refl start, by simp⟩
  | cons head rest ih =>
      obtain ⟨fromStart, fromRest⟩ := ih (max start head.z)
      refine ⟨Int32.le_trans (Store.left_le_max start head.z) fromStart, ?_⟩
      intro group member
      rcases List.mem_cons.mp member with rfl | later
      · exact Int32.le_trans (Store.right_le_max start group.z) fromStart
      · exact fromRest group later

/-- Z-indexes that are not above a height have no higher maximum, by induction over the groups. -/
theorem Group.highest_le {groups : List (Group κ)} {start height : Int32} (low : start ≤ height)
    (bounded : ∀ group ∈ groups, group.z ≤ height)
    : groups.foldl (fun highest group => max highest group.z) start ≤ height := by
  induction groups generalizing start with
  | nil => exact low
  | cons head rest ih =>
      obtain ⟨headBounded, restBounded⟩ := List.forall_mem_cons.mp bounded
      exact ih (Store.max_le low headBounded) restBounded

/-- Two states that differ in their rosters at most. -/
def Store.SameBoard (before after : Store κ) : Prop :=
  after.groups = before.groups ∧ after.maxZ = before.maxZ

namespace Store

variable (store : Store κ)

theorem joined_sameBoard (connected : List User) (newUser : User)
    : store.SameBoard (store.joined connected newUser).store :=
  ⟨rfl, rfl⟩

theorem left_sameBoard (user : UserId) : store.SameBoard (store.left user).store := by
  unfold left
  split <;> exact ⟨rfl, rfl⟩

theorem focused_sameBoard (user : UserId) (post : PostId)
    : store.SameBoard (store.focused user post).store := by
  unfold focused
  split <;> exact ⟨rfl, rfl⟩

theorem rosterCleared_sameBoard : store.SameBoard store.rosterCleared.store := by
  unfold rosterCleared
  split <;> exact ⟨rfl, rfl⟩

theorem typingStopped_sameBoard (post : PostId)
    : store.SameBoard (store.typingStopped post).store := by
  unfold typingStopped
  split <;> exact ⟨rfl, rfl⟩

theorem typingStoppedNowhere_sameBoard : store.SameBoard store.typingStoppedNowhere.store := by
  unfold typingStoppedNowhere
  split <;> exact ⟨rfl, rfl⟩

end Store

variable [OrderKey κ]

theorem Store.WellFormed.of_sameBoard {before after : Store κ} (wellFormed : before.WellFormed)
    (same : before.SameBoard after)
    : after.WellFormed := by
  obtain ⟨groups, maxZ⟩ := same
  exact ⟨groups ▸ wellFormed.table, groups ▸ maxZ ▸ wellFormed.bounded⟩

namespace Store

/-- An edit that leaves the table in good order leaves the board in good order, since the highest
z-index takes in the new table.
-/
theorem WellFormed.edit {store : Store κ} (wellFormed : store.WellFormed)
    {change : Draft κ → Option (Draft κ)}
    (keeps : ∀ next, change ⟨store.groups, []⟩ = some next → next.table.WellFormed)
    : (store.edit change).store.WellFormed := by
  unfold Store.edit
  split
  · exact wellFormed
  · next next edited =>
      exact ⟨keeps next edited, (Group.le_highest next.table.toList store.maxZ).2⟩

omit [OrderKey κ] in
/-- An edit never lowers the highest z-index. -/
theorem maxZ_le_edit (store : Store κ) (change : Draft κ → Option (Draft κ))
    : store.maxZ ≤ (store.edit change).store.maxZ := by
  unfold Store.edit
  split
  · exact Int32.le_refl _
  · next next _ => exact (Group.le_highest next.table.toList store.maxZ).1

-----------------------------------------------------------------------------------------
-- Groups and posts
-----------------------------------------------------------------------------------------

/-- A new group never lowers the highest z-index. -/
theorem maxZ_le_groupCreated (store : Store κ) (group : Group κ)
    : store.maxZ ≤ (store.groupCreated group).store.maxZ := by
  unfold groupCreated
  split
  · exact Int32.le_refl _
  · exact store.maxZ_le_edit _

namespace WellFormed

variable {store : Store κ}

/-- A board stays in good order when a group and its posts leave it. -/
theorem groupRemoved (wellFormed : store.WellFormed) (id : GroupId)
    : (store.groupRemoved id).store.WellFormed := by
  unfold Store.groupRemoved
  split
  · refine of_sameBoard ?_ (typingStoppedNowhere_sameBoard _)
    refine wellFormed.edit fun next edited => ?_
    obtain rfl := Option.some.inj edited
    exact wellFormed.table.erase id
  · exact wellFormed

/-- A board stays in good order when fields of a group change, since its posts do not. -/
theorem groupPatched (wellFormed : store.WellFormed) (patch : GroupPatch)
    : (store.groupPatched patch).store.WellFormed := by
  unfold Store.groupPatched
  split
  · exact wellFormed
  · next group found =>
      split
      · exact wellFormed
      · refine wellFormed.edit fun next edited => ?_
        obtain rfl := Option.some.inj edited
        have member := GroupTable.mem_toList_of_find? found
        exact wellFormed.table.insert_part member (patch.applyTo_id group) (List.Sublist.refl _)
          (wellFormed.table.groups group member).occupied

/-- A board stays in good order when a post leaves it. -/
theorem postRemoved (wellFormed : store.WellFormed) (post : Post κ)
    : (store.postRemoved post).store.WellFormed := by
  unfold Store.postRemoved
  split
  · refine of_sameBoard ?_ (typingStopped_sameBoard _ _)
    refine wellFormed.edit fun next edited => ?_
    exact (Draft.removePost?_withdrawn wellFormed.table edited).wellFormed
  · exact wellFormed

variable [OrderKey.Lawful κ]

/-- A board stays in good order when a group of distinct numbers comes to it. -/
theorem groupCreated (wellFormed : store.WellFormed) {group : Group κ}
    (distinct : (group.posts.map (·.id)).Nodup)
    (numbers : ∀ post ∈ group.posts, (post.key == post.key) = true)
    : (store.groupCreated group).store.WellFormed := by
  unfold Store.groupCreated
  split
  · exact wellFormed
  · next occupied =>
      refine wellFormed.edit fun next edited => ?_
      exact Draft.insertGroup?_wellFormed wellFormed.table (by simpa using occupied) numbers distinct
        edited

/-- A board stays in good order when a post is put into a group. -/
theorem postAdded (wellFormed : store.WellFormed) (group : GroupId) {post : Post κ}
    (number : (post.key == post.key) = true)
    : (store.postAdded group post).store.WellFormed := by
  have added : ({ post with group := group }.key == post.key) = true := number
  exact wellFormed.edit fun _ edited =>
    (Draft.placePost?_placed wellFormed.table added edited).wellFormed

/-- A board stays in good order when a post is created, with a new group or in an old one. -/
theorem postCreated (wellFormed : store.WellFormed) {post : Post κ}
    (number : (post.key == post.key) = true) (group : Group κ)
    : (store.postCreated post group).store.WellFormed := by
  unfold Store.postCreated
  split
  · exact wellFormed.postAdded group.id number
  · exact wellFormed.groupCreated (by simp) (by simpa using number)

/-- A board stays in good order when a post is replaced by a new version. -/
theorem postUpdated (wellFormed : store.WellFormed) {post : Post κ}
    (number : (post.key == post.key) = true)
    : (store.postUpdated post).store.WellFormed :=
  of_sameBoard
    (wellFormed.edit fun _ edited =>
      (Draft.placePost?_placed wellFormed.table number edited).wellFormed)
    (typingStopped_sameBoard _ _)

theorem postDetached (wellFormed : store.WellFormed) {post : Post κ}
    (number : (post.key == post.key) = true) (group : Group κ)
    : (store.postDetached post group).store.WellFormed :=
  wellFormed.edit fun _ edited =>
    Draft.insertGroup?_wellFormed wellFormed.table (by simp) (by simpa using number) (by simp) edited

end WellFormed

end Store

/-- The calls that change a board, with their arguments. -/
inductive Reducer (κ : Type) where
  | groupCreated (group : Group κ)
  | groupRemoved (id : GroupId)
  | groupPatched (patch : GroupPatch)
  | postAdded (group : GroupId) (post : Post κ)
  | postCreated (post : Post κ) (group : Group κ)
  | postUpdated (post : Post κ)
  | postRemoved (post : Post κ)
  | postDetached (post : Post κ) (group : Group κ)
  | joined (connected : List User) (newUser : User)
  | left (user : UserId)
  | focused (user : UserId) (post : PostId)
  | rosterCleared

namespace Reducer

/-- Make a call on a board. -/
def run (reducer : Reducer κ) (store : Store κ) : Update κ :=
  match reducer with
  | .groupCreated group => store.groupCreated group
  | .groupRemoved id => store.groupRemoved id
  | .groupPatched patch => store.groupPatched patch
  | .postAdded group post => store.postAdded group post
  | .postCreated post group => store.postCreated post group
  | .postUpdated post => store.postUpdated post
  | .postRemoved post => store.postRemoved post
  | .postDetached post group => store.postDetached post group
  | .joined connected newUser => store.joined connected newUser
  | .left user => store.left user
  | .focused user post => store.focused user post
  | .rosterCleared => store.rosterCleared

/-- The posts that a call brings have distinct identifiers, and numbers as keys. -/
def Admissible : Reducer κ → Prop
  | .groupCreated group =>
      (group.posts.map (·.id)).Nodup ∧ ∀ post ∈ group.posts, (post.key == post.key) = true
  | .postAdded _ post => (post.key == post.key) = true
  | .postCreated post _ => (post.key == post.key) = true
  | .postUpdated post => (post.key == post.key) = true
  | .postDetached post _ => (post.key == post.key) = true
  | _ => True

/-- No call lowers the highest z-index: calls edit the table, change the roster or do nothing. -/
theorem maxZ_le_run (reducer : Reducer κ) (store : Store κ)
    : store.maxZ ≤ (reducer.run store).store.maxZ := by
  cases reducer with
  | groupCreated group => exact store.maxZ_le_groupCreated group
  | groupRemoved id =>
      simp only [run, Store.groupRemoved]
      split
      · rw [Update.andThen_store, (Store.typingStoppedNowhere_sameBoard _).2]
        exact store.maxZ_le_edit _
      · exact Int32.le_refl _
  | groupPatched patch =>
      simp only [run, Store.groupPatched]
      split
      · exact Int32.le_refl _
      · split
        · exact Int32.le_refl _
        · exact store.maxZ_le_edit _
  | postAdded group post => exact store.maxZ_le_edit _
  | postCreated post group =>
      simp only [run, Store.postCreated]
      split
      · exact store.maxZ_le_edit _
      · exact store.maxZ_le_groupCreated _
  | postUpdated post =>
      simp only [run, Store.postUpdated]
      rw [Update.andThen_store, (Store.typingStopped_sameBoard _ _).2]
      exact store.maxZ_le_edit _
  | postRemoved post =>
      simp only [run, Store.postRemoved]
      split
      · rw [Update.andThen_store, (Store.typingStopped_sameBoard _ _).2]
        exact store.maxZ_le_edit _
      · exact Int32.le_refl _
  | postDetached post group => exact store.maxZ_le_edit _
  | joined connected newUser => exact Int32.le_refl _
  | left user => exact Int32.le_of_eq (store.left_sameBoard user).2.symm
  | focused user post => exact Int32.le_of_eq (store.focused_sameBoard user post).2.symm
  | rosterCleared => exact Int32.le_of_eq store.rosterCleared_sameBoard.2.symm

variable [OrderKey.Lawful κ]

/-- Every call keeps a board in good order. -/
theorem run_wellFormed {reducer : Reducer κ} (admissible : reducer.Admissible) {store : Store κ}
    (wellFormed : store.WellFormed)
    : (reducer.run store).store.WellFormed := by
  cases reducer with
  | groupCreated group => exact wellFormed.groupCreated admissible.1 admissible.2
  | groupRemoved id => exact wellFormed.groupRemoved id
  | groupPatched patch => exact wellFormed.groupPatched patch
  | postAdded group post => exact wellFormed.postAdded group admissible
  | postCreated post group =>
      exact wellFormed.postCreated admissible group
  | postUpdated post => exact wellFormed.postUpdated admissible
  | postRemoved post => exact wellFormed.postRemoved post
  | postDetached post group => exact wellFormed.postDetached admissible group
  | joined connected newUser =>
      exact wellFormed.of_sameBoard (store.joined_sameBoard connected newUser)
  | left user => exact wellFormed.of_sameBoard (store.left_sameBoard user)
  | focused user post => exact wellFormed.of_sameBoard (store.focused_sameBoard user post)
  | rosterCleared => exact wellFormed.of_sameBoard store.rosterCleared_sameBoard

end Reducer

-----------------------------------------------------------------------------------------
-- Events
-----------------------------------------------------------------------------------------

/-- The posts that an event brings to a board. -/
def Event.arrivals : Event κ → List (Post κ)
  | .postCreated post _ => [post]
  | .postUpdated post _ => [post]
  | .postDetached post _ => [post]
  | _ => []

/-- A board stays in good order when it follows an event that brings numbers as keys. -/
theorem Store.WellFormed.reduce [OrderKey.Lawful κ] {store : Store κ}
    (wellFormed : store.WellFormed) (localUser : Option UserId) {event : Event κ}
    (numbers : ∀ post ∈ event.arrivals, (post.key == post.key) = true)
    : (store.reduce localUser event).store.WellFormed := by
  cases event with
  | authenticated user => exact wellFormed
  | boardConnected connected newUser =>
      exact wellFormed.of_sameBoard (store.joined_sameBoard connected newUser)
  | boardDisconnected user => exact wellFormed.of_sameBoard (store.left_sameBoard user)
  | postCreated post group =>
      exact wellFormed.postCreated (numbers post (by simp [Event.arrivals])) group
  | postUpdated post old => exact wellFormed.postUpdated (numbers post (by simp [Event.arrivals]))
  | postDeleted post => exact wellFormed.postRemoved post
  | postDetached post group =>
      exact wellFormed.postDetached (numbers post (by simp [Event.arrivals])) group
  | postFocused post user =>
      simp only [Store.reduce]
      split
      · exact wellFormed
      · exact wellFormed.of_sameBoard (store.focused_sameBoard user.id post.id)
  | groupUpdated patch => exact wellFormed.groupPatched patch
  | groupDeleted id => exact wellFormed.groupRemoved id

end SharedBoard
