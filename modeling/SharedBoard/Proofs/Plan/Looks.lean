import SharedBoard.Proofs.Plan.Removal
import SharedBoard.Proofs.Plan.Server
import SharedBoard.Proofs.Store.Named

/-! How posts look on the way to the server and back. A gesture gives some posts another look,
its commands give them the same look on the server, and the events that report these bring the
looks that the server holds.
-/

namespace SharedBoard

variable {κ : Type}

/-- A changed post looks as the change makes it look. -/
theorem PostEdit.look_applyTo (edit : PostEdit κ) (post : Post κ)
    : (edit.applyTo post).look = edit.dress edit.id post.look := by
  simp only [dress, if_pos, applyTo, Post.look]

/-- A change of one post makes no difference to the look of others. -/
theorem PostEdit.dress_of_ne {edit : PostEdit κ} {post : PostId} (other : post ≠ edit.id)
    (look : Look)
    : edit.dress post look = look :=
  if_neg other.symm

/-- What a command makes of the look of a post on the server. -/
def Command.dress (command : Command κ) (post : PostId) (look : Look) : Look :=
  match command with
  | .updatePost edit => edit.dress post look
  | _ => look

/-- What several commands make of the look of a post, one after the other. -/
def Command.dressAll (commands : List (Command κ)) (post : PostId) (look : Look) : Look :=
  commands.foldl (fun look command => command.dress post look) look

/-- What several gestures make of the look of a post, one after the other. Of each part of the
look the last gesture that sets it counts.
-/
def Gesture.dressAll (gestures : List Gesture) (post : PostId) (look : Look) : Look :=
  gestures.foldl (fun look gesture => gesture.dress post look) look

theorem Command.dressAll_append (first second : List (Command κ)) (post : PostId) (look : Look)
    : dressAll (first ++ second) post look = dressAll second post (dressAll first post look) :=
  List.foldl_append

theorem Gesture.dressAll_append (first second : List Gesture) (post : PostId) (look : Look)
    : dressAll (first ++ second) post look = dressAll second post (dressAll first post look) :=
  List.foldl_append

-----------------------------------------------------------------------------------------
-- Boards
-----------------------------------------------------------------------------------------

namespace Store

/-- Every post of a board was on another board, and looks as a change made it look there. -/
def Dressed (before after : Store κ) (change : PostId → Look → Look) : Prop :=
  ∀ post ∈ after.groups.posts,
    ∃ old ∈ before.groups.posts, old.id = post.id ∧ post.look = change post.id old.look

namespace Dressed

variable {before between after : Store κ} {change second : PostId → Look → Look}

/-- Posts that are kept are not dressed. -/
theorem of_subset (kept : after.groups.posts ⊆ before.groups.posts)
    : before.Dressed after fun _ look => look :=
  fun post member => ⟨post, kept member, rfl, rfl⟩

/-- A change that leaves a board the posts of which were dressed dresses no more. -/
theorem trans_subset (dressed : before.Dressed between change)
    (kept : after.groups.posts ⊆ between.groups.posts)
    : before.Dressed after change :=
  fun post member => dressed post (kept member)

/-- A post that a board receives instead of the one with its identifier is dressed alone. -/
theorem of_receives [OrderKey κ] {post old : Post κ}
    (receives : before.groups.Receives after.groups post)
    (distinct : (before.groups.posts.map (·.id)).Nodup) (wasThere : old ∈ before.groups.posts)
    (sameId : old.id = post.id) (look : post.look = change post.id old.look)
    (alone : ∀ id, id ≠ post.id → ∀ look, change id look = look)
    : before.Dressed after change := by
  intro current member
  rcases receives.cases_of_mem distinct member with fields | ⟨kept, other⟩
  · rw [fields]
    exact ⟨old, wasThere, sameId, look⟩
  · exact ⟨current, kept, rfl, (alone current.id other current.look).symm⟩

end Dressed

end Store

variable [OrderKey κ]

/-- A mutation puts posts only into groups that they name. -/
theorem Mutation.named_apply {store : Store κ} (named : store.groups.Named) (mutation : Mutation κ)
    : (mutation.apply store).store.groups.Named := by
  cases mutation with
  | insertGroup group => exact Store.named_groupCreated named group
  | editPost edit =>
      simp only [apply]
      split
      · exact Store.named_postUpdated named _
      · exact named
  | removePost post => exact Store.named_postRemoved named post
  | removeGroup group => exact Store.named_groupRemoved named group
  | patchGroup patch => exact Store.named_groupPatched named patch
  | detachPost post group =>
      simp only [apply]
      split
      · exact Store.named_postDetached named _ group
      · exact named

/-- Mutations put posts only into groups that they name, by induction over them. -/
theorem Mutation.named_applyAll {store : Store κ} (named : store.groups.Named)
    (mutations : List (Mutation κ))
    : (applyAll mutations store).store.groups.Named := by
  induction mutations generalizing store with
  | nil => exact named
  | cons head rest ih =>
      rw [applyAll_cons]
      exact ih (named_apply named head)

/-- A change of a post that finds its group dresses the post, and no other. -/
theorem Mutation.dressed_editPost {store : Store κ}
    (distinct : (store.groups.posts.map (·.id)).Nodup) (edit : PostEdit κ) {post : Post κ}
    (found : store.post? edit.id = some post) {group : Group κ}
    (target : store.group? (edit.applyTo post).group = some group)
    : store.Dressed ((Mutation.editPost edit).apply store).store edit.dress := by
  obtain ⟨wasThere, sameId⟩ := Store.mem_posts_of_post? found
  have kept : (edit.applyTo post).id = edit.id := sameId
  simp only [apply, found]
  refine .of_receives (Store.postUpdated_receives target) distinct wasThere rfl ?_ ?_
  · rw [kept]
    exact edit.look_applyTo post
  · intro id other
    exact PostEdit.dress_of_ne (kept ▸ other)

omit [OrderKey κ] in
/-- Putting a post elsewhere does not change its look. -/
theorem Plan.dress_transfer (actor : Actor) (post : PostId) (group : GroupId) (key : κ)
    : (transfer actor post group key).dress = fun _ look => look := by
  funext id look
  unfold PostEdit.dress
  split <;> rfl

/-- A post that finds the group that it is put into keeps its look, and so do all others. -/
theorem Mutation.dressed_transfer {store : Store κ}
    (distinct : (store.groups.posts.map (·.id)).Nodup) {id : PostId} {post : Post κ}
    (found : store.post? id = some post) {target : GroupId} {group : Group κ}
    (targetFound : store.group? target = some group) (actor : Actor) (key : κ)
    : store.Dressed ((Mutation.editPost (Plan.transfer actor id target key)).apply store).store
        fun _ look => look :=
  Plan.dress_transfer actor id target key
    ▸ dressed_editPost distinct (Plan.transfer actor id target key) found targetFound

namespace Plan

variable {store : Store κ} {actor : Actor} {fresh : Fresh} {gesture : Gesture} {plan : Plan κ}

/-- A gesture that creates no post dresses the posts of the board, by cases on its plan. -/
theorem Made.dressed (made : Made store actor fresh gesture plan)
    (keeps : ∀ x y, gesture ≠ .createPost x y) (distinct : (store.groups.posts.map (·.id)).Nodup)
    (named : store.groups.Named)
    : store.Dressed (plan.apply store).store gesture.dress := by
  cases made with
  | created x y => exact absurd rfl (keeps x y)
  | @edited _ edit post found stays sameKey dresses =>
      obtain ⟨group, home, _⟩ := named.group_of_mem_posts (Store.mem_posts_of_post? found).1
      have target : store.group? (edit.applyTo post).group = some group := by
        rw [PostEdit.applyTo, stays]
        exact home
      rw [show gesture.dress = edit.dress from funext₂ dresses]
      exact Mutation.dressed_editPost distinct edit found target
  | retitled => exact .of_subset (store.posts_groupPatched _).subset
  | moved => exact .of_subset (store.posts_groupPatched _).subset
  | @emptied id => exact .of_subset (store.posts_groupRemoved_sublist id).subset
  | @removed post => exact .of_subset (store.postRemoved_sheds post).subset
  | @detached id post found =>
      obtain ⟨wasThere, sameId⟩ := Store.mem_posts_of_post? found
      simp only [apply, Mutation.applyAll_cons, Mutation.applyAll_nil, Mutation.apply, found]
      exact .of_receives (store.postDetached_receives _ _) distinct wasThere rfl rfl
        fun _ _ _ => rfl
  | @inserted _ _ _ _ key found targetFound =>
      exact (Mutation.dressed_transfer distinct found targetFound actor key).trans_subset
        (Store.posts_groupPatched _ _).subset
  | @merged source _ group _ post key found only _ targetFound =>
      have inside : post ∈ store.groups.posts := GroupTable.mem_posts.mpr
        ⟨group, GroupTable.mem_toList_of_find? found, only ▸ List.mem_singleton_self post⟩
      have atPost := (Store.post?_eq_some_iff distinct).mpr ⟨inside, rfl⟩
      have moved := Mutation.dressed_transfer distinct atPost targetFound actor key
      -- The post may leave the source empty or not; whatever goes with the source is not dressed.
      exact (moved.trans_subset (Store.posts_groupRemoved_sublist _ source).subset).trans_subset
        (Store.posts_groupPatched _ _).subset

/-- The commands of a gesture create a post only if the gesture does. -/
theorem Made.kind_ne_postCreate (made : Made store actor fresh gesture plan)
    (keeps : ∀ x y, gesture ≠ .createPost x y)
    : ∀ command ∈ plan.commands, command.kind ≠ .postCreate := by
  cases made with
  | created x y => exact absurd rfl (keeps x y)
  | _ => simp [ofEdit, Command.kind, updateGroup]

/-- The commands of a gesture make the same of the look of a post as the gesture. -/
theorem Made.dressAll_commands (made : Made store actor fresh gesture plan) (post : PostId)
    (look : Look)
    : Command.dressAll plan.commands post look = gesture.dress post look := by
  cases made with
  | @edited _ edit _ _ _ _ dresses => exact (dresses post look).symm
  | @inserted id _ target _ key =>
      exact congrFun₂ (dress_transfer actor id target key) post look
  | @merged source target _ _ moved key =>
      exact congrFun₂ (dress_transfer actor moved.id target key) post look
  | _ => rfl

end Plan

-----------------------------------------------------------------------------------------
-- The server
-----------------------------------------------------------------------------------------

namespace Server

/-- A server finds posts under their own identifiers. -/
def Keyed (server : Server κ) : Prop :=
  ∀ id post, server.post? id = some post → post.id = id

/-- Every post of a server was there before, and looks as a change made it look. -/
def Dressed (before after : Server κ) (change : PostId → Look → Look) : Prop :=
  ∀ id post,
    after.post? id = some post
    → ∃ old, before.post? id = some old ∧ post.look = change id old.look

variable {shown : Store κ} {server next : Server κ} {command : Command κ} {event : Event κ}

omit [OrderKey κ] in
theorem keyed_holding (store : Store κ) : (holding store).Keyed :=
  fun _ _ found => (Store.mem_posts_of_post? found).2

omit [OrderKey κ] in
theorem keyed_putPost (keyed : server.Keyed) (post : Post κ) : (server.putPost post).Keyed := by
  intro id other found
  simp only [putPost] at found
  split at found
  · next own => rw [← Option.some.inj found, own]
  · exact keyed id other found

omit [OrderKey κ] in
/-- A server that holds fewer posts finds them under their own identifiers and does not dress
them.
-/
theorem keyed_and_dressed_of_fewer (keyed : server.Keyed) (next : Server κ)
    (fewer : ∀ id post, next.post? id = some post → server.post? id = some post)
    : next.Keyed ∧ server.Dressed next fun _ look => look :=
  ⟨fun id post found => keyed id post (fewer id post found),
    fun id post found => ⟨post, fewer id post found, rfl⟩⟩

omit [OrderKey κ] in
/-- A server that puts a new version of a post in its place dresses that post alone. -/
theorem dressed_putPost (server : Server κ) {change : PostId → Look → Look} (old : Post κ)
    {post : Post κ} (held : server.post? post.id = some old)
    (look : post.look = change post.id old.look)
    (alone : ∀ id, id ≠ post.id → ∀ look, change id look = look)
    : server.Dressed (server.putPost post) change := by
  intro id other found
  simp only [putPost] at found
  split at found
  · next own =>
      obtain rfl := Option.some.inj found
      exact ⟨old, own ▸ held, own ▸ look⟩
  · next differs => exact ⟨other, found, (alone id differs _).symm⟩

omit [OrderKey κ] in
/-- A server that executes a command that creates no post goes on finding posts under their own
identifiers, dresses them as the command says, and reports a post as it holds it then.
-/
theorem dressed_execute (keyed : server.Keyed) (keeps : command.kind ≠ .postCreate)
    (executed : server.execute shown command = some (next, event))
    : next.Keyed
      ∧ server.Dressed next command.dress
      ∧ ∀ post ∈ event.arrivals, next.post? post.id = some post := by
  cases command with
  | createPost creation => exact absurd rfl keeps
  | updatePost edit =>
      simp only [execute, Option.bind_eq_bind, Option.bind_eq_some_iff] at executed
      obtain ⟨old, held, like, _, executed⟩ := executed
      split at executed
      · obtain ⟨rfl, rfl⟩ := Prod.mk.inj (Option.some.inj executed)
        have sameId : old.id = edit.id := keyed edit.id old held
        refine ⟨keyed_putPost keyed _, dressed_putPost server old (sameId ▸ held) ?_ ?_, ?_⟩
        · exact (edit.look_applyTo old).trans (sameId ▸ rfl)
        · intro id other
          exact PostEdit.dress_of_ne (sameId ▸ other)
        · simp [Event.arrivals, putPost]
      · simp at executed
  | deletePost id board =>
      simp only [execute, Option.bind_eq_bind, Option.bind_eq_some_iff] at executed
      obtain ⟨post, _, executed⟩ := executed
      obtain ⟨rfl, rfl⟩ := Prod.mk.inj (Option.some.inj executed)
      obtain ⟨kept, dressed⟩ := keyed_and_dressed_of_fewer keyed (server.dropPost id)
        fun other post found => by
          simp only [dropPost] at found
          split at found
          · simp at found
          · exact found
      exact ⟨kept, dressed, by simp [Event.arrivals]⟩
  | detachPost detachment =>
      simp only [execute] at executed
      split at executed
      · simp at executed
      · simp only [Option.bind_eq_bind, Option.bind_eq_some_iff] at executed
        obtain ⟨old, held, likePost, _, likeGroup, _, executed⟩ := executed
        obtain ⟨rfl, rfl⟩ := Prod.mk.inj (Option.some.inj executed)
        have sameId : old.id = detachment.post := keyed detachment.post old held
        refine ⟨keyed_putPost (fun id post => keyed id post) _,
          dressed_putPost (server.putGroup _) old ?_ rfl fun _ _ _ => rfl, ?_⟩
        · exact sameId ▸ held
        · simp [Event.arrivals, putPost]
  | updateGroup change =>
      simp only [execute, Option.bind_eq_bind, Option.bind_eq_some_iff] at executed
      obtain ⟨old, _, like, _, executed⟩ := executed
      obtain ⟨rfl, rfl⟩ := Prod.mk.inj (Option.some.inj executed)
      exact ⟨keyed, fun id post found => ⟨post, found, rfl⟩, by simp [Event.arrivals]⟩
  | deleteGroup id board =>
      obtain ⟨group, _, executed⟩ := Option.map_eq_some_iff.mp executed
      obtain ⟨rfl, rfl⟩ := Prod.mk.inj executed
      obtain ⟨kept, dressed⟩ := keyed_and_dressed_of_fewer keyed (server.dropGroup id)
        fun other post found => (Option.filter_eq_some_iff.mp found).1
      exact ⟨kept, dressed, by simp [Event.arrivals]⟩
  | _ => simp [execute] at executed

end Server

-----------------------------------------------------------------------------------------
-- Answers
-----------------------------------------------------------------------------------------

/-- An event as it is reported without the version of the post before. -/
def Event.withoutOld : Event κ → Event κ
  | .postUpdated post _ => .postUpdated post none
  | event => event

omit [OrderKey κ] in
@[simp] theorem Event.arrivals_withoutOld (event : Event κ)
    : event.withoutOld.arrivals = event.arrivals := by
  cases event <;> rfl

/-- The post that a board takes over from an event, which is one that is new or has changed. -/
def Event.taken? (board : Store κ) : Event κ → Option (Post κ)
  | .postCreated post _ => some post
  | .postUpdated post _ => if (board.group? post.group).isSome then some post else none
  | .postDetached post _ => some post
  | _ => none

omit [OrderKey κ] in
/-- A post that a board takes over is one that the event brings. -/
theorem Event.mem_arrivals_of_taken? {board : Store κ} {event : Event κ} {post : Post κ}
    (taken : event.taken? board = some post)
    : post ∈ event.arrivals := by
  cases event with
  | postUpdated updated old =>
      obtain ⟨_, same⟩ := Option.ite_none_right_eq_some.mp taken
      simp [arrivals, Option.some.inj same]
  | postCreated created group => simp [arrivals, Option.some.inj taken]
  | postDetached detached group => simp [arrivals, Option.some.inj taken]
  | _ => simp [taken?] at taken

/-- A board that follows an event receives the post that it takes over, or only loses posts. -/
theorem Store.posts_reduce (store : Store κ) (localUser : Option UserId) (event : Event κ)
    : (event.taken? store = none
        ∧ (store.reduce localUser event).store.groups.posts.Subperm store.groups.posts)
      ∨ ∃ post group,
          event.taken? store = some post
          ∧ store.groups.Receives (store.reduce localUser event).store.groups
              { post with group := group } := by
  have same {after : Store κ} (one : store.SameBoard after)
      : after.groups.posts.Subperm store.groups.posts := by
    rw [one.1]
  cases event with
  | authenticated user => exact .inl ⟨rfl, same ⟨rfl, rfl⟩⟩
  | boardConnected connected newUser =>
      exact .inl ⟨rfl, same (store.joined_sameBoard connected newUser)⟩
  | boardDisconnected user => exact .inl ⟨rfl, same (store.left_sameBoard user)⟩
  | postCreated post group =>
      exact .inr ⟨post, group.id, rfl, store.postCreated_receives post group⟩
  | postUpdated post old =>
      cases found : store.group? post.group with
      | none =>
          refine .inl ⟨by simp [Event.taken?, found], ?_⟩
          rw [reduce, groups_postUpdated_of_absent found]
      | some group =>
          exact .inr ⟨post, post.group, by simp [Event.taken?, found], postUpdated_receives found⟩
  | postDeleted post =>
      obtain ⟨gone, perm, _⟩ := store.postRemoved_sheds post
      exact .inl ⟨rfl, (List.sublist_append_right gone _).subperm.trans perm.symm.subperm⟩
  | postDetached post group =>
      exact .inr ⟨post, group.id, rfl, store.postDetached_receives post group⟩
  | postFocused post user =>
      simp only [reduce]
      split
      · exact .inl ⟨rfl, same ⟨rfl, rfl⟩⟩
      · exact .inl ⟨rfl, same (store.focused_sameBoard user.id post.id)⟩
  | groupUpdated patch => exact .inl ⟨rfl, (store.posts_groupPatched patch).subperm⟩
  | groupDeleted id => exact .inl ⟨rfl, (store.posts_groupRemoved_sublist id).subperm⟩

end SharedBoard
