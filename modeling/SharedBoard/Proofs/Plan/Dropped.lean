import SharedBoard.Proofs.Plan.Made
import SharedBoard.Proofs.Store.Upsert

/-! Drops that are accepted. Each is of one of four kinds, and for each it is said what was on the
board when it was planned. A post that is dropped on another one lands in the same way, whether it
was alone in its group or not.
-/

namespace SharedBoard

variable {κ : Type}

/-- A drop, and what its plan takes from outside. -/
structure Drop where
  actor : Actor
  fresh : Fresh
  payload : DragPayload
  target : DropTarget
  grid : Option Int32

/-- A post in some group under some key, and otherwise as it is. -/
def Post.movedTo (post : Post κ) (group : GroupId) (key : κ) : Post κ :=
  { post with group := group, key := key }

/-- What is dragged comes down to one post: that post, or a group with no other. -/
def DragPayload.Drags (payload : DragPayload) (store : Store κ) (post : Post κ) : Prop :=
  match payload with
  | .post id => post.id = id
  | .group id => ∃ group, store.group? id = some group ∧ group.posts = [post]

/-- A post takes its place beside another one: its key is the one for the place next to it among the
posts that the group of the other one has besides.
-/
structure Landing [OrderKey κ] (store : Store κ) (post : Post κ) (destination : Group κ)
    (neighbour : PostId) (above : Bool) (key : κ) : Prop where
  onBoard : store.post? post.id = some post
  found : store.group? destination.id = some destination
  place
    : ∃ left next right,
        destination.others post.id = left ++ next :: right
        ∧ next.id = neighbour
        ∧ OrderKey.beside? ((left ++ next :: right).map (·.key)) left.length above = some key

namespace Drop

variable [OrderKey κ]

/-- The plan for a drop on a board. -/
def plan (drop : Drop) (store : Store κ) : Except DropError (Plan κ) :=
  Plan.drop store drop.actor drop.fresh drop.payload drop.target drop.grid

/-- Drops one after another. Each is accepted on the board that the ones before left, meets a
condition, and is carried out.
-/
inductive Steps (allows : Drop → Store κ → Plan κ → Prop) : Store κ → List Drop → Store κ → Prop
  | nil (store : Store κ) : Steps allows store [] store
  | cons {drop : Drop} {store after : Store κ} {plan : Plan κ} {later : List Drop}
    (planned : drop.plan store = .ok plan) (allowed : allows drop store plan)
    (rest : Steps allows (plan.apply store).store later after)
    : Steps allows store (drop :: later) after

/-- What every drop preserves is preserved by drops one after another, by induction over them. -/
theorem Steps.preserves {allows : Drop → Store κ → Plan κ → Prop} {holds : Store κ → Prop}
    (step
      : ∀ drop store plan,
          holds store → drop.plan store = .ok plan → allows drop store plan
          → holds (plan.apply store).store)
    {before after : Store κ} {drops : List Drop} (steps : Steps allows before drops after)
    (start : holds before)
    : holds after := by
  induction steps with
  | nil store => exact start
  | cons planned allowed _ ih => exact ih (step _ _ _ start planned allowed)

omit [OrderKey κ] in
/-- Where a drop puts its group on a board: at the front, and on the canvas where it is dropped. -/
def placed (drop : Drop) (store : Store κ) (group : GroupId) (x y : Float) : GroupPatch :=
  { Plan.bringToFront store group with
    x := some (Canvas.dropPosition x y drop.grid).1
    y := some (Canvas.dropPosition x y drop.grid).2 }

omit [OrderKey κ] in
/-- The new group of a post that is dropped on the canvas, still without the post. -/
def pile (drop : Drop) (store : Store κ) (x y : Float) : Group κ :=
  ⟨drop.fresh.group, drop.actor.board, "", (Canvas.dropPosition x y drop.grid).1,
    (Canvas.dropPosition x y drop.grid).2, store.nextZ, [], drop.fresh.now, drop.fresh.now⟩

/-- The changes that accepted drops are planned as. A group is moved, a post leaves its group, the
only post of a group lands beside another one and the group goes away, or one post out of several
lands.
-/
inductive Planned (drop : Drop) (store : Store κ)
    : DragPayload → DropTarget → List (Mutation κ) → Prop
  | moved {group : Group κ} (found : store.group? group.id = some group) (x y : Float)
    : Planned drop store (.group group.id) (.canvas x y)
        [.patchGroup (drop.placed store group.id x y)]
  | detached {post : Post κ} {group : Group κ} (onBoard : store.post? post.id = some post)
    (found : store.group? post.group = some group) (several : group.posts ≠ [post]) (x y : Float)
    : Planned drop store (.post post.id) (.canvas x y) [.detachPost post.id (drop.pile store x y)]
  | merged {group destination : Group κ} {post : Post κ} {neighbour : PostId} {above : Bool}
    {key : κ} (found : store.group? group.id = some group) (only : group.posts = [post])
    (elsewhere : destination.id ≠ group.id)
    (landing : Landing store post destination neighbour above key)
    : Planned drop store (.group group.id) (.post neighbour above)
        [.editPost (Plan.transfer drop.actor post.id destination.id key), .removeGroup group.id,
          .patchGroup (Plan.bringToFront store destination.id)]
  | inserted {group destination : Group κ} {post : Post κ} {neighbour : PostId} {above : Bool}
    {key : κ} (found : store.group? post.group = some group) (several : group.posts ≠ [post])
    (landing : Landing store post destination neighbour above key)
    : Planned drop store (.post post.id) (.post neighbour above)
        [.editPost (Plan.transfer drop.actor post.id destination.id key),
          .patchGroup (Plan.bringToFront store destination.id)]

-----------------------------------------------------------------------------------------
-- Planning
-----------------------------------------------------------------------------------------

variable {drop : Drop} {store : Store κ} {plan : Plan κ}

omit [OrderKey κ] in
/-- A group that counts as one of several posts is not one of a single post. -/
theorem posts_ne_of_not_isSingleton {group : Group κ} (several : ¬ group.isSingleton = true)
    (post : Post κ)
    : group.posts ≠ [post] := by
  intro only
  rw [Group.isSingleton, only] at several
  exact several rfl

/-- A post whose place is asked for is on the board, in the group that it names. -/
theorem exists_of_placeOr (wellFormed : store.groups.WellFormed) {id : PostId} {refusal : DropError}
    {source : GroupId} {index : Nat} {group : Group κ} {missing : DropError}
    (placed : Plan.placeOr store id refusal = .ok (source, index))
    (asked : Plan.groupOr store source missing = .ok group)
    : ∃ post,
        post.id = id
        ∧ store.post? post.id = some post
        ∧ store.group? post.group = some group
        ∧ group.posts[index]? = some post := by
  have found := Plan.group?_of_groupOr asked
  obtain ⟨other, post, otherFound, here, onBoard, rfl⟩ :=
    Store.exists_post?_of_locate? (Plan.locate?_of_placeOr placed)
  obtain rfl := Option.some.inj (found.symm.trans otherFound)
  have names := (wellFormed.groups group (GroupTable.mem_toList_of_find? found)).named post
    (List.mem_of_getElem? here)
  rw [GroupTable.id_of_find? found] at names
  exact ⟨post, rfl, onBoard, names ▸ found, here⟩

/-- The plan that moves a group is for a group on the board. -/
theorem planned_moveGroup {group : GroupId} {x y : Float}
    (planned : Plan.moveGroup store drop.actor group x y drop.grid = .ok plan)
    : Planned drop store (.group group) (.canvas x y) plan.mutations := by
  unfold Plan.moveGroup at planned
  split at planned
  · next there =>
      obtain rfl := Except.ok.inj planned
      obtain ⟨current, found⟩ := Option.isSome_iff_exists.mp there
      obtain rfl := GroupTable.id_of_find? found
      exact .moved found x y
  · simp at planned

/-- The plan that detaches a post is for a post out of several. -/
theorem planned_detachPost (wellFormed : store.groups.WellFormed) {post : PostId} {x y : Float}
    (planned : Plan.detachPost store drop.actor drop.fresh post x y drop.grid = .ok plan)
    : Planned drop store (.post post) (.canvas x y) plan.mutations := by
  obtain ⟨⟨source, index⟩, placed, planned⟩ := Plan.exists_of_bind planned
  obtain ⟨group, asked, planned⟩ := Plan.exists_of_bind planned
  obtain ⟨current, rfl, onBoard, found, _⟩ := exists_of_placeOr wellFormed placed asked
  split at planned
  · simp at planned
  · next several =>
      obtain rfl := Except.ok.inj planned
      exact .detached onBoard found (posts_ne_of_not_isSingleton several current) x y

/-- The plan that merges a group into another one is for its only post, which lands there. -/
theorem planned_mergeSingleton (wellFormed : store.groups.WellFormed) {group : GroupId}
    {neighbour : PostId} {above : Bool}
    (planned : Plan.mergeSingleton store drop.actor group neighbour above = .ok plan)
    : Planned drop store (.group group) (.post neighbour above) plan.mutations := by
  obtain ⟨source, atSource, planned⟩ := Plan.exists_of_bind planned
  obtain ⟨⟨targetGroup, index⟩, placed, planned⟩ := Plan.exists_of_bind planned
  have found := Plan.group?_of_groupOr atSource
  obtain rfl := GroupTable.id_of_find? found
  dsimp only at planned
  split at planned
  · simp at planned
  · next elsewhere =>
      split at planned
      · simp at planned
      · next single =>
          split at planned
          · simp at planned
          · next post atHead =>
              obtain ⟨destination, asked, planned⟩ := Plan.exists_of_bind planned
              obtain ⟨next, sameId, _, _, here⟩ := exists_of_placeOr wellFormed placed asked
              have atTarget := Plan.group?_of_groupOr asked
              obtain rfl := GroupTable.id_of_find? atTarget
              split at planned
              · simp at planned
              · next key beside =>
                  obtain rfl := Except.ok.inj planned
                  have inSource := List.mem_of_head? atHead
                  have only := Plan.posts_of_isSingleton (by simpa using single) inSource
                  have holds : store.groups.Holds source.id post.id :=
                    ⟨source, found, post, inSource, rfl⟩
                  have others : destination.others post.id = destination.posts :=
                    Group.others_of_absent fun old member same =>
                      wellFormed.not_holds_of_ne holds elsewhere
                        ⟨destination, atTarget, old, member, same⟩
                  refine .merged found only elsewhere ⟨?_, atTarget, ?_⟩
                  · refine (Store.post?_eq_some_iff wellFormed.unique).mpr ⟨?_, rfl⟩
                    exact GroupTable.mem_posts.mpr
                      ⟨source, GroupTable.mem_toList_of_find? found, inSource⟩
                  · obtain ⟨left, right, split, rfl⟩ := Post.split_of_getElem? here
                    rw [split] at beside
                    exact ⟨left, next, right, others.trans split, sameId, beside⟩

/-- The plan that puts a post beside another one is for a post out of several, which lands there. -/
theorem planned_insertPost (wellFormed : store.groups.WellFormed) {post neighbour : PostId}
    {above : Bool} (planned : Plan.insertPost store drop.actor post neighbour above = .ok plan)
    : Planned drop store (.post post) (.post neighbour above) plan.mutations := by
  unfold Plan.insertPost at planned
  split at planned
  · simp at planned
  · obtain ⟨⟨source, index⟩, placed, planned⟩ := Plan.exists_of_bind planned
    obtain ⟨group, asked, planned⟩ := Plan.exists_of_bind planned
    obtain ⟨current, rfl, onBoard, found, _⟩ := exists_of_placeOr wellFormed placed asked
    split at planned
    · simp at planned
    · next several =>
        obtain ⟨⟨targetGroup, _⟩, _, planned⟩ := Plan.exists_of_bind planned
        obtain ⟨destination, atTarget, planned⟩ := Plan.exists_of_bind planned
        have targetFound := Plan.group?_of_groupOr atTarget
        obtain rfl := GroupTable.id_of_find? targetFound
        dsimp only at planned
        split at planned
        · simp at planned
        · next key beside =>
            obtain rfl := Except.ok.inj planned
            obtain ⟨place, atNeighbour, beside⟩ := Option.bind_eq_some_iff.mp beside
            obtain ⟨bound, same, _⟩ := List.findIdx?_eq_some_iff_getElem.mp atNeighbour
            obtain ⟨left, right, split, rfl⟩ := Post.split_of_getElem? (List.getElem?_eq_getElem bound)
            refine .inserted found (posts_ne_of_not_isSingleton several current)
              ⟨onBoard, targetFound, left, _, right, split, by simpa using same, ?_⟩
            rw [← split]
            exact beside

/-- An accepted drop is planned as one of the four kinds, by cases on what is dropped where. -/
theorem planned_of_plan (wellFormed : store.groups.WellFormed)
    (planned : drop.plan store = .ok plan)
    : Planned drop store drop.payload drop.target plan.mutations := by
  obtain ⟨actor, fresh, payload, target, grid⟩ := drop
  cases payload with
  | group group =>
      cases target with
      | canvas x y => exact planned_moveGroup planned
      | post neighbour above => exact planned_mergeSingleton wellFormed planned
  | post post =>
      cases target with
      | canvas x y => exact planned_detachPost wellFormed planned
      | post neighbour above => exact planned_insertPost wellFormed planned

-----------------------------------------------------------------------------------------
-- Landing
-----------------------------------------------------------------------------------------

/-- The change of a post that lands is an update of it. -/
theorem apply_transfer {post : Post κ} (onBoard : store.post? post.id = some post) (actor : Actor)
    (group : GroupId) (key : κ)
    : (Mutation.editPost (Plan.transfer actor post.id group key)).apply store
      = store.postUpdated (post.movedTo group key) := by
  have found : store.post? (Plan.transfer actor post.id group key).id = some post := onBoard
  simp only [Mutation.apply, found]
  rfl

/-- The only post of a group that is merged lands. Its group goes away with it, so that nothing is
left to be removed.
-/
theorem apply_merged (wellFormed : store.groups.WellFormed) {group destination : Group κ}
    {post : Post κ} {neighbour : PostId} {above : Bool} {key : κ}
    (found : store.group? group.id = some group) (only : group.posts = [post])
    (elsewhere : destination.id ≠ group.id)
    (landing : Landing store post destination neighbour above key) (actor : Actor)
    (front : GroupPatch)
    : (Mutation.applyAll
        [.editPost (Plan.transfer actor post.id destination.id key), .removeGroup group.id,
          .patchGroup front]
        store).store
      = ((store.postUpdated (post.movedTo destination.id key)).store.groupPatched front).store := by
  have atDestination : store.group? (post.movedTo destination.id key).group = some destination :=
    landing.found
  have atSource : store.groups.find? group.id = some group := found
  have gone : (store.postUpdated (post.movedTo destination.id key)).store.group? group.id
      = none := by
    have left := (Store.postUpdated_upserts wellFormed atDestination).outside group.id
      (Ne.symm elsewhere)
    rw [atSource, Option.bind_some] at left
    have bare : group.without? post.id = none := Group.without?_of_only only
    exact left.trans bare
  rw [Mutation.applyAll_cons, apply_transfer landing.onBoard, Mutation.applyAll_cons,
    Mutation.applyAll_cons]
  simp only [Mutation.apply, Store.groupRemoved_of_absent gone]
  rfl

/-- A post out of several that is put beside another one lands. -/
theorem apply_inserted {destination : Group κ} {post : Post κ} {neighbour : PostId} {above : Bool}
    {key : κ} (landing : Landing store post destination neighbour above key) (actor : Actor)
    (front : GroupPatch)
    : (Mutation.applyAll
        [.editPost (Plan.transfer actor post.id destination.id key), .patchGroup front] store).store
      = ((store.postUpdated (post.movedTo destination.id key)).store.groupPatched front).store := by
  rw [Mutation.applyAll_cons, apply_transfer landing.onBoard, Mutation.applyAll_cons]
  rfl

/-- A drop on a post carries out a landing there, and brings the group to the front. -/
theorem Planned.landing (wellFormed : store.groups.WellFormed) {payload : DragPayload}
    {neighbour : PostId} {above : Bool} {mutations : List (Mutation κ)}
    (planned : Planned drop store payload (.post neighbour above) mutations)
    : ∃ post destination key,
        payload.Drags store post
        ∧ Landing store post destination neighbour above key
        ∧ (Mutation.applyAll mutations store).store
          = ((store.postUpdated (post.movedTo destination.id key)).store.groupPatched
              (Plan.bringToFront store destination.id)).store := by
  cases planned with
  | @merged group destination post _ _ key found only elsewhere landing =>
      exact ⟨post, destination, key, ⟨group, found, only⟩, landing,
        apply_merged wellFormed found only elsewhere landing _ _⟩
  | @inserted group destination post _ _ key found several landing =>
      exact ⟨post, destination, key, rfl, landing, apply_inserted landing _ _⟩

end Drop

end SharedBoard
