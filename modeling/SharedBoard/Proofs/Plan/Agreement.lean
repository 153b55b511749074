import SharedBoard.Proofs.OrderKey.Binary64
import SharedBoard.Proofs.Plan.Echo
import SharedBoard.Proofs.Plan.Made
import SharedBoard.Proofs.Plan.Server
import SharedBoard.Proofs.Store.Described
import SharedBoard.Proofs.Store.Posts

/-! The two ways in which a gesture reaches a board lead to the same state. A plan changes the board
at once; the server executes its commands and reports events, and these change the board in the same
way, or not at all if the plan was there before.
-/

namespace SharedBoard

variable {κ : Type} [OrderKey κ]

/-- A changed post is shown as long as it is changed again in the same way: what the change sets is
set already, and the rest is as it is.
-/
theorem Store.Shows.applyTo {store : Store κ} (wellFormed : store.WellFormed) {edit : PostEdit κ}
    {old current : Post κ} (shown : store.Shows (edit.applyTo old))
    (found : store.post? old.id = some current)
    : store.Shows (edit.applyTo current) := by
  obtain ⟨member, sameId⟩ := wellFormed.post?_eq_some_iff.mp found
  obtain ⟨⟨present, presentMember, same⟩, quiet⟩ := shown
  obtain ⟨fields, sameKey⟩ := Post.beq_iff.mp same
  have samePost : present = current :=
    wellFormed.table.eq_of_post_id_eq presentMember member (by rw [sameId, fields]; rfl)
  subst samePost
  refine ⟨⟨present, member, Post.beq_iff.mpr ⟨?_, ?_⟩⟩, ?_⟩
  · rw [fields]
    simp only [PostEdit.applyTo]
    cases edit.content <;> cases edit.color <;> cases edit.height <;> cases edit.group <;> rfl
  · cases change : edit.key with
    | none => simpa [PostEdit.applyTo, change] using wellFormed.table.number_of_mem_posts member
    | some key => simpa [PostEdit.applyTo, change] using sameKey
  · exact (congrArg store.typingOn? sameId).trans quiet

namespace Echo

variable {localUser : Option UserId} {store : Store κ}

/-- A change of a post and its report are idle where the changed post is shown. -/
theorem idle_editPost (wellFormed : store.WellFormed) {edit : PostEdit κ} {old : Post κ}
    (sameId : old.id = edit.id) (shown : store.Shows (edit.applyTo old)) (answer : Option (Post κ))
    : Idle localUser store ⟨.editPost edit, .postUpdated (edit.applyTo old) answer⟩ := by
  obtain ⟨current, found, _⟩ := shown.post? wellFormed
  have atOld : store.post? old.id = some current := found
  have atId : store.post? edit.id = some current := sameId ▸ atOld
  refine ⟨?_, shown.postUpdated_eq wellFormed⟩
  simp only [Mutation.apply, atId]
  exact (shown.applyTo wellFormed atOld).postUpdated_eq wellFormed

/-- The report of a change of a group, with the time that the group has. -/
def reported (patch : GroupPatch) (group : Group κ) : GroupPatch :=
  { patch with updatedAt := some group.updatedAt }

/-- A change of a group that sets no time and its report do the same. -/
theorem groupPatched_reported {patch : GroupPatch} {group like : Group κ}
    (untimed : patch.updatedAt = none) (found : store.group? patch.id = some group)
    (sameTime : like.updatedAt = group.updatedAt)
    : store.groupPatched (reported patch like) = store.groupPatched patch := by
  refine Store.groupPatched_congr found rfl ?_
  simp only [GroupPatch.applyTo, reported, untimed, sameTime, Option.getD_some, Option.getD_none]

/-- A change of a group that sets no time keeps the time of the group. -/
theorem time_of_groupPatched {patch : GroupPatch} {group after : Group κ}
    (untimed : patch.updatedAt = none) (found : store.group? patch.id = some group)
    (atAfter : (store.groupPatched patch).store.group? patch.id = some after)
    : after.updatedAt = group.updatedAt := by
  obtain ⟨changed, atChanged, outcome⟩ := Store.group?_groupPatched found
  obtain rfl := Option.some.inj (atAfter.symm.trans atChanged)
  rcases outcome with rfl | ⟨_, rfl⟩
  · simp only [GroupPatch.applyTo, untimed, Option.getD_none]
  · rfl

/-- A change of a group and its report are idle after the change. -/
theorem idle_patchGroup (wellFormed : store.WellFormed) {patch : GroupPatch} {group like : Group κ}
    (untimed : patch.updatedAt = none) (found : store.group? patch.id = some group)
    (sameTime : like.updatedAt = group.updatedAt)
    : Idle localUser (store.groupPatched patch).store
        ⟨.patchGroup patch, .groupUpdated (reported patch like)⟩ := by
  obtain ⟨after, atAfter, _⟩ := Store.group?_groupPatched found
  have again := Store.groupPatched_again wellFormed.table found
  refine ⟨again, ?_⟩
  have afterTime := time_of_groupPatched untimed found atAfter
  exact (groupPatched_reported untimed atAfter (sameTime.trans afterTime.symm)).trans again

theorem idle_removeGroup {id : GroupId} (absent : store.group? id = none)
    : Idle localUser store ⟨.removeGroup id, .groupDeleted id⟩ :=
  ⟨Store.groupRemoved_of_absent absent, Store.groupRemoved_of_absent absent⟩

theorem idle_removePost {post : Post κ} (absent : ∀ old ∈ store.groups.posts, old.id ≠ post.id)
    : Idle localUser store ⟨.removePost post, .postDeleted post⟩ :=
  ⟨Store.postRemoved_of_absent absent, Store.postRemoved_of_absent absent⟩

end Echo

-----------------------------------------------------------------------------------------
-- Answers to commands
-----------------------------------------------------------------------------------------

namespace Server

variable {server : Server κ} {shown store : Store κ} {actor : Actor}

omit [OrderKey κ] in
theorem group?_holding {id : GroupId} {group : Group κ} (found : store.group? id = some group)
    : (holding store).group? id = some { group with posts := [] } := by
  simp only [holding, found, Option.map_some]

omit [OrderKey κ] in
theorem isSome_group?_holding {id : GroupId} {group : Group κ} (found : store.group? id = some group)
    : ((holding store).group? id).isSome := by
  rw [group?_holding found, Option.isSome_some]

omit [OrderKey κ] in
theorem post?_holding_of_none {id : PostId} (absent : store.post? id = none)
    : ((holding store).post? id).isSome = false :=
  Option.isSome_eq_false_iff.mpr (Option.isNone_iff_eq_none.mpr absent)

omit [OrderKey κ] in
theorem group?_holding_of_none {id : GroupId} (absent : store.group? id = none)
    : ((holding store).group? id).isSome = false := by
  simp only [holding, absent, Option.map_none, Option.isSome_none]

omit [OrderKey κ] in
/-- Commands are answered one after the other. -/
theorem executeAll_cons {next : Server κ} {command : Command κ} {rest : List (Command κ)}
    {event : Event κ} {events : List (Event κ)}
    (first : server.execute shown command = some (next, event))
    (later : next.executeAll shown rest = some events)
    : server.executeAll shown (command :: rest) = some (event :: events) := by
  simp only [executeAll, first, later, Option.bind_eq_bind, Option.bind_some]

omit [OrderKey κ] in
/-- A post that the server holds is changed, if it also holds the group. -/
theorem execute_updatePost {edit : PostEdit κ} {old like : Post κ}
    (atPost : server.post? edit.id = some old)
    (atGroup : (server.group? (edit.applyTo old).group).isSome)
    (atLike : shown.post? edit.id = some like) (sameTime : like.updatedAt = old.updatedAt)
    : server.execute shown (.updatePost edit)
      = some (server.putPost (edit.applyTo old), .postUpdated (edit.applyTo old) (some old)) := by
  have filled : { edit.applyTo old with updatedAt := like.updatedAt } = edit.applyTo old := by
    rw [sameTime]
    rfl
  simp only [execute, atPost, atLike, Option.bind_eq_bind, Option.bind_some, filled, atGroup,
    if_true]

omit [OrderKey κ] in
/-- A new post is created in a new group, both as they are shown. -/
theorem execute_createPost {post : Post κ} {group : Group κ}
    (newPost : (server.post? post.id).isSome = false)
    (newGroup : (server.group? group.id).isSome = false)
    (atPost : shown.post? post.id = some post) (atGroup : shown.group? group.id = some group)
    (named : post.group = group.id) (sameBoard : post.board = group.board)
    : server.execute shown
        (.createPost ⟨post.id, post.board, post.group, post.content, group.x, group.y, post.color,
          post.height, group.z, post.key⟩)
      = some ((server.putGroup { group with posts := [] }).putPost post,
          .postCreated post { group with posts := [] }) := by
  obtain ⟨⟩ := post
  obtain ⟨⟩ := group
  simp only at named sameBoard newPost newGroup atPost atGroup
  subst named sameBoard
  simp only [execute, newPost, newGroup, Bool.or_self, Bool.false_eq_true, if_false, atPost,
    atGroup, Option.bind_eq_bind, Option.bind_some]

omit [OrderKey κ] in
/-- A post is detached into a new group, as both are shown. -/
theorem execute_detachPost {old : Post κ} {key : κ} {group : Group κ} {board : BoardId}
    (newGroup : (server.group? group.id).isSome = false)
    (atOld : server.post? old.id = some old)
    (atPost : shown.post? old.id = some { old with group := group.id, key := key })
    (atGroup : shown.group? group.id = some group) (sameBoard : group.board = board)
    : server.execute shown (.detachPost ⟨old.id, board, group.id, group.x, group.y, group.z⟩)
      = some ((server.putGroup { group with posts := [] }).putPost
            { old with group := group.id, key := key },
          .postDetached { old with group := group.id, key := key } { group with posts := [] }) := by
  simp only [execute, newGroup, Bool.false_eq_true, if_false, atOld, atPost, atGroup,
    Option.bind_eq_bind, Option.bind_some, ← sameBoard]

omit [OrderKey κ] in
/-- A group that the server holds is changed, and keeps its time. -/
theorem execute_updateGroup {patch : GroupPatch} {old like : Group κ}
    (atGroup : server.group? patch.id = some old) (atLike : shown.group? patch.id = some like)
    : server.execute shown (Plan.updateGroup actor patch)
      = some (server.putGroup ((Echo.reported patch like).applyTo old),
          .groupUpdated (Echo.reported patch like)) := by
  simp only [Plan.updateGroup, execute, atGroup, atLike, Option.bind_eq_bind, Option.bind_some,
    Echo.reported]

end Server

namespace Plan

/-- The commands of a plan are answered by events that agree with its changes. -/
def Answered (localUser : Option UserId) (store : Store κ) (plan : Plan κ) : Prop :=
  ∃ echoes : List (Echo κ),
    plan.mutations = echoes.map (·.mutation)
    ∧ (Server.holding store).executeAll (plan.apply store).store plan.commands
      = some (echoes.map (·.event))
    ∧ Echo.Agree localUser [] store echoes

variable {localUser : Option UserId} {store : Store κ} {actor : Actor} {fresh : Fresh}

/-- The group of a post that is shown is on the board. -/
theorem exists_group?_of_shows (wellFormed : store.WellFormed) {post : Post κ}
    (shown : store.Shows post)
    : ∃ group, store.group? post.group = some group := by
  obtain ⟨current, member, same⟩ := shown.present
  obtain ⟨group, found, _⟩ := wellFormed.table.group_of_mem_posts member
  have sameGroup : current.group = post.group := by rw [(Post.beq_iff.mp same).1]
  exact ⟨group, sameGroup ▸ found⟩

theorem exists_post?_of_shows (wellFormed : store.WellFormed) {post : Post κ}
    (shown : store.Shows post)
    : ∃ current, store.post? post.id = some current ∧ current.updatedAt = post.updatedAt := by
  obtain ⟨current, found, same⟩ := shown.post? wellFormed
  exact ⟨current, found, by rw [(Post.beq_iff.mp same).1]⟩

/-- The change of a post on the board is an update, after which the changed post is shown. -/
theorem editPost_step [OrderKey.Lawful κ] (wellFormed : store.WellFormed) {edit : PostEdit κ}
    {post : Post κ} {group : Group κ} (found : store.post? edit.id = some post)
    (groupFound : store.group? (edit.applyTo post).group = some group)
    (number : ((edit.applyTo post).key == (edit.applyTo post).key) = true)
    : (Mutation.editPost edit).apply store = store.postUpdated (edit.applyTo post)
      ∧ (store.postUpdated (edit.applyTo post)).store.WellFormed
      ∧ (store.postUpdated (edit.applyTo post)).store.Shows (edit.applyTo post) := by
  refine ⟨?_, wellFormed.postUpdated number, store.shows_postUpdated wellFormed groupFound number⟩
  simp only [Mutation.apply, found]

/-- A plan that changes a post in place is answered. -/
theorem answered_ofEdit [OrderKey.Lawful κ] (wellFormed : store.WellFormed) {edit : PostEdit κ}
    {post : Post κ} (found : store.post? edit.id = some post) (stays : edit.group = none)
    (sameKey : edit.key = none)
    : (ofEdit edit).Answered localUser store := by
  obtain ⟨member, sameId⟩ := wellFormed.post?_eq_some_iff.mp found
  obtain ⟨group, home, _⟩ := wellFormed.table.group_of_mem_posts member
  have sameGroup : (edit.applyTo post).group = post.group := by
    simp only [PostEdit.applyTo, stays, Option.getD_none]
  have groupFound : store.group? (edit.applyTo post).group = some group := sameGroup ▸ home
  have number : ((edit.applyTo post).key == (edit.applyTo post).key) = true :=
    Mutation.beq_self_applyTo (by simp [sameKey]) (wellFormed.table.number_of_mem_posts member)
  obtain ⟨applied, after, shown⟩ := editPost_step wellFormed found groupFound number
  obtain ⟨like, atLike, sameTime⟩ := exists_post?_of_shows after shown
  have reached : ((ofEdit edit).apply store).store
      = (store.postUpdated (edit.applyTo post)).store := congrArg Update.store applied
  have atId : (store.postUpdated (edit.applyTo post)).store.post? edit.id = some like :=
    sameId ▸ atLike
  refine ⟨[⟨.editPost edit, .postUpdated (edit.applyTo post) (some post)⟩], rfl, ?_, ?_⟩
  · have held := Server.isSome_group?_holding groupFound
    rw [reached]
    exact Server.executeAll_cons (Server.execute_updatePost found held atId sameTime) rfl
  · refine ⟨by simp, by rw [applied]; rfl, ?_⟩
    rw [applied]
    exact List.forall_mem_singleton.mpr (Echo.idle_editPost after sameId shown _)

/-- A plan that changes a group is answered. -/
theorem answered_patchGroup (wellFormed : store.WellFormed) {patch : GroupPatch} {group : Group κ}
    (found : store.group? patch.id = some group) (untimed : patch.updatedAt = none)
    : Answered localUser store ⟨[.patchGroup patch], [updateGroup actor patch]⟩ := by
  obtain ⟨like, atLike, _⟩ := Store.group?_groupPatched found
  have sameTime := Echo.time_of_groupPatched untimed found atLike
  refine ⟨[⟨.patchGroup patch, .groupUpdated (Echo.reported patch like)⟩], rfl, ?_, ?_⟩
  · exact Server.executeAll_cons
      (Server.execute_updateGroup (Server.group?_holding found) atLike) rfl
  · refine ⟨by simp, congrArg Update.store (Echo.groupPatched_reported untimed found sameTime), ?_⟩
    exact List.forall_mem_singleton.mpr (Echo.idle_patchGroup wellFormed untimed found sameTime)

/-- A plan that removes a group is answered. -/
theorem answered_removeGroup {id : GroupId} {group : Group κ} (found : store.group? id = some group)
    : Answered localUser store ⟨[.removeGroup id], [.deleteGroup id actor.board]⟩ := by
  refine ⟨[⟨.removeGroup id, .groupDeleted id⟩], rfl, ?_, ?_⟩
  · simp only [Server.executeAll, Server.execute, Server.group?_holding found]
    rfl
  · refine ⟨by simp, rfl, ?_⟩
    exact List.forall_mem_singleton.mpr (Echo.idle_removeGroup (store.group?_groupRemoved id))

/-- A plan that removes a post is answered. -/
theorem answered_removePost (wellFormed : store.WellFormed) {post : Post κ}
    (found : store.post? post.id = some post)
    : Answered localUser store ⟨[.removePost post], [.deletePost post.id actor.board]⟩ := by
  have atPost : (Server.holding store).post? post.id = some post := found
  refine ⟨[⟨.removePost post, .postDeleted post⟩], rfl, ?_, ?_⟩
  · simp only [Server.executeAll, Server.execute, atPost]
    rfl
  · refine ⟨by simp, rfl, ?_⟩
    exact List.forall_mem_singleton.mpr
      (Echo.idle_removePost (Store.absent_postRemoved wellFormed.table.unique post))

/-- After a group of one new post came to a board, both are found there. -/
theorem found_of_insertGroup [OrderKey.Lawful κ] (wellFormed : store.WellFormed) {group : Group κ}
    {post : Post κ} (only : group.posts = [post]) (named : post.group = group.id)
    (number : (post.key == post.key) = true) (absent : store.group? group.id = none)
    : (store.edit (·.insertGroup? group)).store.WellFormed
      ∧ (store.edit (·.insertGroup? group)).store.group? group.id = some group
      ∧ (store.edit (·.insertGroup? group)).store.post? post.id = some post
      ∧ (store.edit (·.insertGroup? group)).store.edit (·.insertGroup? group)
        = (store.edit (·.insertGroup? group)).store.unchanged := by
  have after : (store.edit (·.insertGroup? group)).store.WellFormed :=
    wellFormed.edit fun _ edited => Draft.insertGroup?_wellFormed wellFormed.table (by simp [only])
      (by simpa [only] using number) (by simp [only]) edited
  have found := wellFormed.group?_edit_insertGroup? absent
  have again := Store.edit_insertGroup?_of_found found
    (by
      rw [Group.normalized_singleton only named, only]
      exact List.forall_mem_singleton.mpr number)
  rw [Group.normalized_singleton only named] at found
  refine ⟨after, found, after.post?_eq_some_iff.mpr ⟨?_, rfl⟩, again⟩
  exact GroupTable.mem_posts.mpr ⟨group, GroupTable.mem_toList_of_find? found, by simp [only]⟩

/-- The plan that creates a post is answered, if its identifiers are new to the board. -/
theorem answered_createPost [OrderKey.Lawful κ] (wellFormed : store.WellFormed)
    (freshPost : store.post? fresh.post = none) (freshGroup : store.group? fresh.group = none)
    (x y : Float) (color : Color) (grid : Option Int32)
    : (createPost store actor fresh x y color grid).Answered localUser store := by
  let place := Canvas.dropPosition x y grid
  let post : Post κ :=
    ⟨fresh.post, actor.board, actor.user, "", color, Canvas.postHeight, fresh.group,
      OrderKey.first, fresh.now, fresh.now⟩
  let group : Group κ :=
    ⟨fresh.group, actor.board, "", place.1, place.2, store.nextZ, [post], fresh.now, fresh.now⟩
  have only : group.posts = [post] := rfl
  have named : post.group = group.id := rfl
  obtain ⟨after, atGroup, atPost, again⟩ :=
    found_of_insertGroup wellFormed only named OrderKey.beq_self_first freshGroup
  have applied : (Mutation.insertGroup group).apply store = store.edit (·.insertGroup? group) :=
    rfl
  have unknown : store.groups.contains fresh.group = false := by
    rw [GroupTable.contains, show store.groups.find? fresh.group = none from freshGroup]
    rfl
  refine ⟨[⟨.insertGroup group, .postCreated post { group with posts := [] }⟩], rfl, ?_, ?_⟩
  · change (Server.holding store).executeAll ((Mutation.insertGroup group).apply store).store _ = _
    have newPost : ((Server.holding store).post? post.id).isSome = false :=
      Server.post?_holding_of_none freshPost
    have newGroup : ((Server.holding store).group? group.id).isSome = false :=
      Server.group?_holding_of_none freshGroup
    have answer := Server.execute_createPost newPost newGroup atPost atGroup named rfl
    rw [applied]
    exact Server.executeAll_cons answer rfl
  · refine ⟨by simp, ?_, ?_⟩
    · simp only [Store.reduce, Store.postCreated]
      rw [unknown]
      rfl
    rw [applied]
    refine List.forall_mem_singleton.mpr ⟨again, ?_⟩
    have present : ∃ current ∈ (store.edit (·.insertGroup? group)).store.groups.posts,
        (current == post) = true :=
      ⟨post, (after.post?_eq_some_iff.mp atPost).1, Post.beq_iff.mpr ⟨rfl, OrderKey.beq_self_first⟩⟩
    have known := Store.contains_of_group? atGroup
    simp only [Store.reduce, Store.postCreated, known, if_true]
    exact Store.edit_of_none (Draft.placePost?_of_present after.table present)

/-- A plan that detaches a post is answered, if the identifier of the group is new to the board. -/
theorem answered_detachPost [OrderKey.Lawful κ] (wellFormed : store.WellFormed)
    (freshGroup : store.group? fresh.group = none) {id : PostId} {old : Post κ}
    (found : store.post? id = some old) (x y z : Int32)
    : Answered localUser store
        ⟨[.detachPost id ⟨fresh.group, actor.board, "", x, y, z, [], fresh.now, fresh.now⟩],
          [.detachPost ⟨id, actor.board, fresh.group, x, y, z⟩]⟩ := by
  obtain ⟨_, rfl⟩ := wellFormed.post?_eq_some_iff.mp found
  let post : Post κ := { old with group := fresh.group, key := OrderKey.first }
  let bare : Group κ := ⟨fresh.group, actor.board, "", x, y, z, [], fresh.now, fresh.now⟩
  let group : Group κ := { bare with posts := [post] }
  have only : group.posts = [post] := rfl
  have named : post.group = group.id := rfl
  obtain ⟨after, atGroup, atPost, again⟩ :=
    found_of_insertGroup wellFormed only named OrderKey.beq_self_first freshGroup
  have applied : (Mutation.detachPost old.id bare).apply store
      = store.edit (·.insertGroup? group) := by
    simp only [Mutation.apply, found]
    rfl
  refine ⟨[⟨.detachPost old.id bare, .postDetached post bare⟩], rfl, ?_, ?_⟩
  · change (Server.holding store).executeAll ((Mutation.detachPost old.id bare).apply store).store _
      = _
    rw [applied]
    exact Server.executeAll_cons
      (Server.execute_detachPost (Server.group?_holding_of_none freshGroup) found atPost atGroup
        rfl) rfl
  · refine ⟨by simp, by rw [applied]; rfl, ?_⟩
    rw [applied]
    refine List.forall_mem_singleton.mpr ⟨?_, again⟩
    have atOld : (store.edit (·.insertGroup? group)).store.post? old.id = some post := atPost
    simp only [Mutation.apply, atOld]
    exact again

/-- The key beside finite keys of a group is a number. -/
theorem Beside.number [OrderKey.Lawful κ] {group : Group κ} {key : κ} (beside : Beside group key)
    (finite : ∀ post ∈ group.posts, OrderKey.Lawful.IsFinite post.key)
    : (key == key) = true := by
  obtain ⟨keys, index, above, found, known⟩ := beside
  refine OrderKey.beq_self_of_beside? found fun other member => ?_
  obtain ⟨post, inGroup, rfl⟩ := known other member
  exact finite post inGroup

/-- A transfer is an update of the post, after which the post is shown in its new group. -/
theorem transfer_step [OrderKey.Lawful κ] (wellFormed : store.WellFormed) (actor : Actor)
    {post : Post κ} {target : GroupId} {destination : Group κ} {key : κ}
    (found : store.post? post.id = some post) (targetFound : store.group? target = some destination)
    (number : (key == key) = true)
    : (Mutation.editPost (transfer actor post.id target key)).apply store
        = store.postUpdated ((transfer actor post.id target key).applyTo post)
      ∧ (store.postUpdated ((transfer actor post.id target key).applyTo post)).store.WellFormed
      ∧ (store.postUpdated ((transfer actor post.id target key).applyTo post)).store.Shows
          ((transfer actor post.id target key).applyTo post)
      ∧ ∃ group,
          (store.postUpdated ((transfer actor post.id target key).applyTo post)).store.group? target
          = some group := by
  have atPost : store.post? (transfer actor post.id target key).id = some post := found
  have atTarget : store.group? ((transfer actor post.id target key).applyTo post).group
      = some destination := targetFound
  obtain ⟨applied, after, shown⟩ := editPost_step wellFormed atPost atTarget number
  exact ⟨applied, after, shown, exists_group?_of_shows after shown⟩

/-- Once a transferred post is shown, bringing its group to the front is the last change. The server
fills in the times that the post and the group have after it.
-/
theorem bringToFront_step (wellFormed : store.WellFormed) (front : Store κ) {moved : Post κ}
    {target : GroupId} {group : Group κ} (shown : store.Shows moved)
    (found : store.group? target = some group)
    : ∃ likePost likeGroup,
        (store.groupPatched (bringToFront front target)).store.post? moved.id = some likePost
        ∧ likePost.updatedAt = moved.updatedAt
        ∧ (store.groupPatched (bringToFront front target)).store.group? target = some likeGroup
        ∧ likeGroup.updatedAt = group.updatedAt := by
  have atTarget : store.group? (bringToFront front target).id = some group := found
  obtain ⟨likeGroup, atLike, _⟩ := Store.group?_groupPatched atTarget
  obtain ⟨likePost, atPost, sameTime⟩ := exists_post?_of_shows
    (wellFormed.groupPatched (bringToFront front target)) (shown.groupPatched wellFormed _)
  exact ⟨likePost, likeGroup, atPost, sameTime, atLike,
    Echo.time_of_groupPatched rfl atTarget atLike⟩

/-- A plan that moves a post beside another is answered. -/
theorem answered_insertPost [OrderKey.Lawful κ] (wellFormed : store.WellFormed) {id : PostId}
    {post : Post κ} {target : GroupId} {destination : Group κ} {key : κ}
    (found : store.post? id = some post) (targetFound : store.group? target = some destination)
    (number : (key == key) = true)
    : Answered localUser store
        ⟨[.editPost (transfer actor id target key), .patchGroup (bringToFront store target)],
          [.updatePost (transfer actor id target key),
            updateGroup actor (bringToFront store target)]⟩ := by
  obtain ⟨_, rfl⟩ := wellFormed.post?_eq_some_iff.mp found
  obtain ⟨applied, after, shown, group, atGroup⟩ :=
    transfer_step wellFormed actor found targetFound number
  obtain ⟨likePost, likeGroup, atPost, postTime, atLike, groupTime⟩ :=
    bringToFront_step after store shown atGroup
  have reached : (Mutation.applyAll
        [.editPost (transfer actor post.id target key), .patchGroup (bringToFront store target)]
        store).store
      = ((store.postUpdated ((transfer actor post.id target key).applyTo post)).store.groupPatched
          (bringToFront store target)).store := by
    rw [Mutation.applyAll_cons, applied]
    rfl
  have held := Server.isSome_group?_holding targetFound
  have stillHeld
      : ((Server.holding store).putPost ((transfer actor post.id target key).applyTo post)).group?
          target = some { destination with posts := [] } := Server.group?_holding targetFound
  refine ⟨[⟨.editPost (transfer actor post.id target key),
        .postUpdated ((transfer actor post.id target key).applyTo post) (some post)⟩,
      ⟨.patchGroup (bringToFront store target),
        .groupUpdated (Echo.reported (bringToFront store target) likeGroup)⟩], rfl, ?_, ?_⟩
  · rw [apply, reached]
    exact Server.executeAll_cons (Server.execute_updatePost found held atPost postTime)
      (Server.executeAll_cons (Server.execute_updateGroup stillHeld atLike) rfl)
  · refine ⟨by simp, by rw [applied]; rfl, ?_⟩
    rw [applied]
    refine ⟨List.forall_mem_singleton.mpr (Echo.idle_editPost after rfl shown _), ?_, ?_⟩
    · exact congrArg Update.store (Echo.groupPatched_reported rfl atGroup groupTime)
    · refine List.forall_mem_cons.mpr ⟨?_, List.forall_mem_singleton.mpr ?_⟩
      · exact Echo.idle_editPost (after.groupPatched _) rfl (shown.groupPatched after _) _
      · exact Echo.idle_patchGroup after rfl atGroup groupTime

/-- A plan that merges a group into another is answered. The group is gone when its only post has
left it, so that its removal makes no difference, before and after the server reports it.
-/
theorem answered_mergeSingleton [OrderKey.Lawful κ] (wellFormed : store.WellFormed)
    {source target : GroupId} {group destination : Group κ} {post : Post κ} {key : κ}
    (found : store.group? source = some group) (only : group.posts = [post])
    (elsewhere : target ≠ source) (targetFound : store.group? target = some destination)
    (number : (key == key) = true)
    : Answered localUser store
        ⟨[.editPost (transfer actor post.id target key), .removeGroup source,
            .patchGroup (bringToFront store target)],
          [.updatePost (transfer actor post.id target key), .deleteGroup source actor.board,
            updateGroup actor (bringToFront store target)]⟩ := by
  have inTable := GroupTable.mem_toList_of_find? found
  have atId : store.post? post.id = some post := wellFormed.post?_eq_some_iff.mpr
    ⟨GroupTable.mem_posts.mpr ⟨group, inTable, by rw [only]; exact List.mem_singleton_self post⟩,
      rfl⟩
  obtain ⟨applied, after, shown, changed, atGroup⟩ :=
    transfer_step wellFormed actor atId targetFound number
  obtain ⟨likePost, likeGroup, atPost, postTime, atLike, groupTime⟩ :=
    bringToFront_step after store shown atGroup
  have gone : (store.postUpdated ((transfer actor post.id target key).applyTo post)).store.group?
      source = none :=
    Store.group?_postUpdated_of_only wellFormed found only rfl elsewhere targetFound number
  have stillGone : ((store.postUpdated
        ((transfer actor post.id target key).applyTo post)).store.groupPatched
          (bringToFront store target)).store.group? source = none :=
    (Store.group?_groupPatched_of_ne elsewhere).trans gone
  have removed : (Mutation.removeGroup source).apply
        (store.postUpdated ((transfer actor post.id target key).applyTo post)).store
      = (store.postUpdated ((transfer actor post.id target key).applyTo post)).store.unchanged :=
    Store.groupRemoved_of_absent gone
  have reached : (Mutation.applyAll
        [.editPost (transfer actor post.id target key), .removeGroup source,
          .patchGroup (bringToFront store target)] store).store
      = ((store.postUpdated ((transfer actor post.id target key).applyTo post)).store.groupPatched
          (bringToFront store target)).store := by
    rw [Mutation.applyAll_cons, applied, Mutation.applyAll_cons, removed]
    rfl
  have held := Server.isSome_group?_holding targetFound
  have sourceHeld
      : ((Server.holding store).putPost ((transfer actor post.id target key).applyTo post)).group?
          source = some { group with posts := [] } := Server.group?_holding found
  have stillHeld
      : (((Server.holding store).putPost
          ((transfer actor post.id target key).applyTo post)).dropGroup source).group? target
        = some { destination with posts := [] } :=
    (if_neg elsewhere).trans (Server.group?_holding targetFound)
  refine ⟨[⟨.editPost (transfer actor post.id target key),
        .postUpdated ((transfer actor post.id target key).applyTo post) (some post)⟩,
      ⟨.removeGroup source, .groupDeleted source⟩,
      ⟨.patchGroup (bringToFront store target),
        .groupUpdated (Echo.reported (bringToFront store target) likeGroup)⟩], rfl, ?_, ?_⟩
  · rw [apply, reached]
    refine Server.executeAll_cons (Server.execute_updatePost atId held atPost postTime)
      (Server.executeAll_cons ?_
        (Server.executeAll_cons (Server.execute_updateGroup stillHeld atLike) rfl))
    simp only [Server.execute, sourceHeld, Option.map_some]
  · refine ⟨by simp, by rw [applied]; rfl, ?_⟩
    rw [applied]
    have moved : Echo.Idle localUser _ _ := Echo.idle_editPost after rfl shown (some post)
    refine ⟨List.forall_mem_singleton.mpr moved, rfl, ?_⟩
    rw [removed]
    refine ⟨?_, congrArg Update.store (Echo.groupPatched_reported rfl atGroup groupTime), ?_⟩
    · exact List.forall_mem_cons.mpr
        ⟨moved, List.forall_mem_singleton.mpr (Echo.idle_removeGroup gone)⟩
    · refine List.forall_mem_cons.mpr ⟨?_, List.forall_mem_cons.mpr
        ⟨Echo.idle_removeGroup stillGone, List.forall_mem_singleton.mpr ?_⟩⟩
      · exact Echo.idle_editPost (after.groupPatched _) rfl (shown.groupPatched after _) _
      · exact Echo.idle_patchGroup after rfl atGroup groupTime

-----------------------------------------------------------------------------------------
-- All plans
-----------------------------------------------------------------------------------------

/-- Every plan for a gesture on a board in good order is answered, by cases on its kind. -/
theorem Made.answered [OrderKey.Lawful κ] {gesture : Gesture} {plan : Plan κ}
    (made : Made store actor fresh gesture plan)
    (wellFormed : store.WellFormed)
    (finite : ∀ post ∈ store.groups.posts, OrderKey.Lawful.IsFinite post.key)
    (freshPost : store.post? fresh.post = none) (freshGroup : store.group? fresh.group = none)
    : plan.Answered localUser store := by
  have number {target : GroupId} {destination : Group κ} {key : κ}
      (targetFound : store.group? target = some destination) (beside : Beside destination key)
      : (key == key) = true :=
    beside.number fun post inGroup => finite post (GroupTable.mem_posts.mpr
      ⟨destination, GroupTable.mem_toList_of_find? targetFound, inGroup⟩)
  cases made with
  | created x y color grid => exact answered_createPost wellFormed freshPost freshGroup x y color grid
  | edited found stays sameKey dresses => exact answered_ofEdit wellFormed found stays sameKey
  | @retitled id group found title =>
      have atId : store.group? { GroupPatch.nothing id with title := some title }.id = some group :=
        found
      exact answered_patchGroup wellFormed atId rfl
  | moved found untimed atX atY => exact answered_patchGroup wellFormed found untimed
  | emptied found only => exact answered_removeGroup found
  | removed found => exact answered_removePost wellFormed found
  | detached found atX atY x y z => exact answered_detachPost wellFormed freshGroup found x y z
  | inserted found targetFound beside neighbour above =>
      exact answered_insertPost wellFormed found targetFound (number targetFound beside)
  | merged found only elsewhere targetFound beside neighbour above =>
      exact answered_mergeSingleton wellFormed found only elsewhere targetFound
        (number targetFound beside)

/-- A gesture and its confirmation lead to the same board. The server that holds a board executes the
commands of a plan for it; its events lead from that board to the one that the plan leads to, they
change nothing on the latter, and the plan leads to it from the board after any number of the events.
-/
theorem gesture_agrees_with_server {store : Store Float} (wellFormed : store.WellFormed)
    (finite : ∀ post ∈ store.groups.posts, post.key.isFinite = true) {actor : Actor} {fresh : Fresh}
    {color : Color} {grid : Option Int32} {gesture : Gesture} {plan : Plan Float}
    (planned : ofGesture store actor fresh color grid gesture = .ok plan)
    (freshPost : store.post? fresh.post = none) (freshGroup : store.group? fresh.group = none)
    (localUser : Option UserId)
    : ∃ events,
        (Server.holding store).executeAll (plan.apply store).store plan.commands = some events
        ∧ (store.follow localUser events).store = (plan.apply store).store
        ∧ (plan.apply store).store.follow localUser events = (plan.apply store).store.unchanged
        ∧ ∀ count ≤ events.length,
            (plan.apply (store.follow localUser (events.take count)).store).store
            = (plan.apply store).store := by
  have all : plan.Answered localUser store :=
    (made_of_ofGesture planned).answered wellFormed finite freshPost freshGroup
  obtain ⟨echoes, mutations, answered, agree⟩ := all
  refine ⟨echoes.map (·.event), answered, ?_, ?_, ?_⟩
  · rw [apply, mutations]
    exact agree.follow
  · rw [apply, mutations]
    refine Store.follow_of_unchanged fun event member => ?_
    obtain ⟨echo, inEchoes, rfl⟩ := List.mem_map.mp member
    exact (agree.idle echo inEchoes).2
  · intro count _
    rw [apply, apply, mutations]
    exact agree.replay count

/-- A group is dropped on the post of another, and the server confirms that. -/
theorem gesture_agrees_with_server_merge
    : ∃ plan events,
        ofGesture (Store.ofGroups Sample.pair) ⟨.ofNat 1, .ofNat 7⟩ ⟨.ofNat 50, .ofNat 60, .epoch⟩
            .lightPink none (.drop (.group (.ofNat 10)) (.post (.ofNat 21) true))
          = .ok plan
        ∧ (Server.holding (Store.ofGroups Sample.pair)).executeAll
            (plan.apply (Store.ofGroups Sample.pair)).store plan.commands
          = some events
        ∧ ((Store.ofGroups Sample.pair).follow none events).store
          = (plan.apply (Store.ofGroups Sample.pair)).store := by
  have describable : Store.Describable Sample.pair := ⟨by decide, by decide, by decide⟩
  have finite : ∀ post ∈ (Store.ofGroups Sample.pair).groups.posts, post.key.isFinite = true := by
    rw [Sample.ofGroups_pair]
    decide
  have wellFormed : (Store.ofGroups Sample.pair).WellFormed :=
    describable.wellFormed (by decide)
  have accepted
      : (ofGesture (Store.ofGroups Sample.pair) ⟨.ofNat 1, .ofNat 7⟩
          ⟨.ofNat 50, .ofNat 60, .epoch⟩ .lightPink none
          (.drop (.group (.ofNat 10)) (.post (.ofNat 21) true))).isOk = true := by
    rw [Sample.ofGroups_pair]
    decide +kernel
  have freshPost : (Store.ofGroups Sample.pair).post? (.ofNat 50) = none := by
    rw [Sample.ofGroups_pair]
    rfl
  have freshGroup : (Store.ofGroups Sample.pair).group? (.ofNat 60) = none := by
    rw [Sample.ofGroups_pair]
    rfl
  cases planned : ofGesture (Store.ofGroups Sample.pair) ⟨.ofNat 1, .ofNat 7⟩
      ⟨.ofNat 50, .ofNat 60, .epoch⟩ .lightPink none
      (.drop (.group (.ofNat 10)) (.post (.ofNat 21) true)) with
  | error _ =>
      rw [planned] at accepted
      exact absurd accepted Bool.false_ne_true
  | ok plan =>
      obtain ⟨events, answered, followed, _⟩ := gesture_agrees_with_server wellFormed finite planned
        freshPost freshGroup none
      exact ⟨plan, events, rfl, answered, followed⟩

end Plan

end SharedBoard
