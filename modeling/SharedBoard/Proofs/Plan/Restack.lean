import SharedBoard.Proofs.OrderKey.Binary64
import SharedBoard.Proofs.Plan.Dropped
import SharedBoard.Proofs.Store.Idempotence

/-! Drops keep every post and bring what is dropped to the front. What else they change is the group
that something is taken from and the one that it comes to; one drop after another the last one is on
top.
-/

namespace SharedBoard

variable {κ : Type}

-----------------------------------------------------------------------------------------
-- The front
-----------------------------------------------------------------------------------------

namespace Store

/-- A group has the highest z-index of a board, and every other group is below it. -/
structure OnTop (store : Store κ) (id : GroupId) (z : Int32) : Prop where
  front : ∃ group, store.group? id = some group ∧ group.z = z
  highest : store.maxZ = z
  above : ∀ other ∈ store.groups.toList, other.id ≠ id → other.z < z

variable {store : Store κ}

/-- The next z-index is one more than the highest one, unless that is the largest of all. -/
theorem toInt_nextZ (room : store.maxZ.toInt < Int32.maxValue.toInt)
    : store.nextZ.toInt = store.maxZ.toInt + 1 := by
  have least := store.maxZ.le_toInt
  have largest : Int32.maxValue.toInt = 2147483647 := rfl
  rw [nextZ, Int32.toInt_add, Int32.toInt_one]
  refine Int.bmod_eq_of_le ?_ ?_ <;> omega

theorem maxZ_lt_nextZ (room : store.maxZ.toInt < Int32.maxValue.toInt)
    : store.maxZ < store.nextZ := by
  rw [Int32.lt_iff_toInt_lt, toInt_nextZ room]
  omega

/-- An edit that raises one group above the highest z-index brings it to the front. -/
theorem onTop_edit {change : Draft κ → Option (Draft κ)} {next : Draft κ}
    (edited : change ⟨store.groups, []⟩ = some next) {id : GroupId} {group : Group κ}
    (found : next.table.find? id = some group)
    (others : ∀ other ∈ next.table.toList, other.id ≠ id → other.z ≤ store.maxZ)
    (raised : store.maxZ < group.z)
    : (store.edit change).store.OnTop id group.z := by
  have bounded (other : Group κ) (member : other ∈ next.table.toList) : other.z ≤ group.z := by
    by_cases same : other.id = id
    · have atId := GroupTable.mem_toList_iff.mp member
      rw [same, found] at atId
      rw [Option.some.inj atId]
      exact Int32.le_refl other.z
    · exact Int32.le_trans (others other member same) (Int32.le_of_lt raised)
  have highest := Int32.le_antisymm (Group.highest_le (Int32.le_of_lt raised) bounded)
    ((Group.le_highest next.table.toList store.maxZ).2 group (GroupTable.mem_toList_of_find? found))
  rw [edit, edited]
  exact ⟨⟨group, found, rfl⟩, highest, fun other member differs =>
    Int32.lt_of_le_of_lt (others other member differs) raised⟩

/-- A change of a group that raises it above the highest z-index brings it to the front. -/
theorem onTop_groupPatched [OrderKey κ] (wellFormed : store.WellFormed) {patch : GroupPatch}
    {group : Group κ} (found : store.group? patch.id = some group)
    (raised : store.maxZ < (patch.applyTo group).z)
    : (store.groupPatched patch).store.groups = store.groups.insert (patch.applyTo group)
      ∧ (store.groupPatched patch).store.OnTop patch.id (patch.applyTo group).z := by
  have inTable := GroupTable.mem_toList_of_find? found
  have own : (patch.applyTo group).id = patch.id :=
    (patch.applyTo_id group).trans (GroupTable.id_of_find? found)
  have differs : ¬ (patch.applyTo group == group) = true := by
    intro same
    obtain ⟨_, _, _, _, sameZ, _⟩ := Group.face_beq_iff.mp (Group.face_beq_of_beq same)
    rw [sameZ] at raised
    exact Int32.lt_irrefl (Int32.lt_of_le_of_lt (wellFormed.bounded group inTable) raised)
  refine ⟨groups_groupPatched_of_ne found differs, ?_⟩
  have made : store.groupPatched patch
      = store.edit (fun draft => some (draft.put (patch.applyTo group))) := by
    rw [groupPatched, found]
    simp only [differs, Bool.false_eq_true, if_false]
  rw [made]
  let put : Draft κ := (⟨store.groups, []⟩ : Draft κ).put (patch.applyTo group)
  have atId : put.table.find? patch.id = some (patch.applyTo group) :=
    own ▸ GroupTable.find?_insert_self store.groups (patch.applyTo group)
  refine onTop_edit (rfl : _ = some put) atId (fun other member elsewhere => ?_) raised
  rcases GroupTable.mem_toList_insert.mp member with rfl | ⟨old, _⟩
  · exact absurd own elsewhere
  · exact wellFormed.bounded other old

-----------------------------------------------------------------------------------------
-- Posts
-----------------------------------------------------------------------------------------

/-- Every post is on the other board too, in the same place unless it is the dragged one, and
otherwise as it was in any case.
-/
def KeepsPosts (before after : Store κ) (dragged : Option PostId) : Prop :=
  ∀ old ∈ before.groups.posts,
    ∃ now ∈ after.groups.posts,
      now = old.movedTo now.group now.key ∧ (dragged ≠ some old.id → now = old)

variable {before after : Store κ}

/-- A board that receives a post in another place keeps all posts. -/
theorem keepsPosts_of_receives [OrderKey κ] (distinct : (before.groups.posts.map (·.id)).Nodup)
    {post : Post κ} (member : post ∈ before.groups.posts) {group : GroupId} {key : κ}
    (receives : before.groups.Receives after.groups (post.movedTo group key))
    : before.KeepsPosts after (some post.id) := by
  intro old oldMember
  by_cases same : old.id = post.id
  · obtain rfl := List.inj_on_of_nodup_map distinct oldMember member same
    obtain ⟨current, now, fields⟩ := receives.exists_mem
    have sameGroup : current.group = group := by rw [fields]; rfl
    refine ⟨current, now, ?_, fun other => absurd rfl other⟩
    rw [sameGroup]
    exact fields
  · exact ⟨old, receives.mem oldMember same, rfl, fun _ => rfl⟩

/-- A board that receives a post that it had has the same posts by identifier. -/
theorem ids_perm_of_receives [OrderKey κ] (distinct : (before.groups.posts.map (·.id)).Nodup)
    {post : Post κ} (member : post ∈ before.groups.posts) {group : GroupId} {key : κ}
    (receives : before.groups.Receives after.groups (post.movedTo group key))
    : (after.groups.posts.map (·.id)).Perm (before.groups.posts.map (·.id)) := by
  refine (List.perm_ext_iff_of_nodup (receives.nodup distinct) distinct).mpr fun id => ?_
  rw [receives.mem_ids]
  refine or_iff_right_of_imp ?_
  rintro rfl
  exact List.mem_map.mpr ⟨post, member, rfl⟩

end Store

-----------------------------------------------------------------------------------------
-- Drops
-----------------------------------------------------------------------------------------

/-- What is assumed of a drop: its new group is new to the board, there is room above the highest
z-index, and the keys that are worked out for it are finite.
-/
structure Drop.Sound [OrderKey κ] [OrderKey.Lawful κ] (drop : Drop) (store : Store κ)
    (plan : Plan κ) : Prop where
  fresh : store.group? drop.fresh.group = none
  room : store.maxZ.toInt < Int32.maxValue.toInt
  finite : ∀ key ∈ plan.keys, OrderKey.Lawful.IsFinite key

/-- What drops do to a board, for each kind of what is dropped where. A group is moved; a post
leaves its group for a new one where it is dropped; the only post of a group comes to another group
and its own is gone; or a post out of several comes to a group, which may be its own. The other
groups stay as they are.
-/
inductive Drop.Effect [OrderKey κ] (drop : Drop) (before after : Store κ)
    : DragPayload → DropTarget → Prop
  | moved {group : Group κ} {x y : Float} (found : before.group? group.id = some group)
    (posts : before.KeepsPosts after none)
    (now
      : after.group? group.id
        = some { group with
            x := (Canvas.dropPosition x y drop.grid).1
            y := (Canvas.dropPosition x y drop.grid).2
            z := before.nextZ })
    (others : ∀ id, id ≠ group.id → after.group? id = before.group? id)
    (top : after.OnTop group.id before.nextZ)
    : Effect drop before after (.group group.id) (.canvas x y)
  | detached {post : Post κ} {group : Group κ} {x y : Float}
    (found : before.group? group.id = some group) (member : post ∈ group.posts)
    (posts : before.KeepsPosts after (some post.id))
    (isNew : before.group? drop.fresh.group = none)
    (now
      : after.group? drop.fresh.group
        = some { drop.pile before x y with
            posts := [post.movedTo drop.fresh.group OrderKey.first] })
    (source : after.group? group.id = some { group with posts := group.others post.id })
    (others
      : ∀ id, id ≠ drop.fresh.group → id ≠ group.id → after.group? id = before.group? id)
    (top : after.OnTop drop.fresh.group before.nextZ)
    : Effect drop before after (.post post.id) (.canvas x y)
  | merged {post : Post κ} {group destination : Group κ} {neighbour : PostId} {above : Bool}
    (found : before.group? group.id = some group) (only : group.posts = [post])
    (targetFound : before.group? destination.id = some destination)
    (inTarget : ∃ next ∈ destination.posts, next.id = neighbour)
    (posts : before.KeepsPosts after (some post.id))
    (gone : after.group? group.id = none)
    (now
      : ∃ posts,
          after.group? destination.id = some { destination with z := before.nextZ, posts := posts }
          ∧ posts.filter (·.id != post.id) = destination.posts
          ∧ ∃ dropped ∈ posts, dropped.id = post.id)
    (others : ∀ id, id ≠ destination.id → id ≠ group.id → after.group? id = before.group? id)
    (top : after.OnTop destination.id before.nextZ)
    : Effect drop before after (.group group.id) (.post neighbour above)
  | inserted {post : Post κ} {group destination : Group κ} {neighbour : PostId} {above : Bool}
    (found : before.group? group.id = some group) (member : post ∈ group.posts)
    (targetFound : before.group? destination.id = some destination)
    (inTarget : ∃ next ∈ destination.posts, next.id = neighbour)
    (posts : before.KeepsPosts after (some post.id))
    (source
      : group.id ≠ destination.id
        → after.group? group.id = some { group with posts := group.others post.id })
    (now
      : ∃ posts,
          after.group? destination.id = some { destination with z := before.nextZ, posts := posts }
          ∧ posts.filter (·.id != post.id) = destination.others post.id
          ∧ ∃ dropped ∈ posts, dropped.id = post.id)
    (others : ∀ id, id ≠ destination.id → id ≠ group.id → after.group? id = before.group? id)
    (top : after.OnTop destination.id before.nextZ)
    : Effect drop before after (.post post.id) (.post neighbour above)

/-- A drop leaves a board in good order with the same posts, and what it changes is in front. -/
structure Drop.Restacks [OrderKey κ] [OrderKey.Lawful κ] (drop : Drop) (before after : Store κ)
    : Prop where
  wellFormed : after.WellFormed
  finite : ∀ post ∈ after.groups.posts, OrderKey.Lawful.IsFinite post.key
  ids : (after.groups.posts.map (·.id)).Perm (before.groups.posts.map (·.id))
  raised : before.nextZ.toInt = before.maxZ.toInt + 1
  effect : drop.Effect before after drop.payload drop.target

variable [OrderKey κ]

-----------------------------------------------------------------------------------------
-- Landings
-----------------------------------------------------------------------------------------

/-- The board after a landing: a post that comes to its place, and its group in front. -/
structure Landing.Carried (store after : Store κ) (post : Post κ) (destination : Group κ) (key : κ)
    : Prop where
  wellFormed : after.WellFormed
  receives : store.groups.Receives after.groups (post.movedTo destination.id key)
  arrived
    : ∃ posts,
        Post.Upserted destination.posts (post.movedTo destination.id key) posts
        ∧ after.group? destination.id = some { destination with z := store.nextZ, posts := posts }
  outside : store.groups.LosesOutside after.groups post.id destination.id
  top : after.OnTop destination.id store.nextZ

namespace Landing

variable {store : Store κ} {post : Post κ} {destination : Group κ} {neighbour : PostId}
  {above : Bool} {key : κ}

theorem exists_neighbour (landing : Landing store post destination neighbour above key)
    : ∃ next ∈ destination.posts, next.id = neighbour := by
  obtain ⟨left, next, right, others, sameId, _⟩ := landing.place
  have member : next ∈ destination.others post.id := by simp [others]
  exact ⟨next, (Group.mem_others.mp member).1, sameId⟩

/-- A landing is carried out by an update of the post and the change that raises its group. -/
theorem carried [OrderKey.Lawful κ] (landing : Landing store post destination neighbour above key)
    (wellFormed : store.WellFormed) (number : (key == key) = true)
    (room : store.maxZ.toInt < Int32.maxValue.toInt)
    : Carried store
        ((store.postUpdated (post.movedTo destination.id key)).store.groupPatched
          (Plan.bringToFront store destination.id)).store
        post destination key := by
  have atDestination : store.group? (post.movedTo destination.id key).group = some destination :=
    landing.found
  have upserts := Store.postUpdated_upserts wellFormed.table atDestination
  have receives := Store.postUpdated_receives atDestination
  have sameMax := Store.maxZ_postUpdated wellFormed (post.movedTo destination.id key)
  have good : (store.postUpdated (post.movedTo destination.id key)).store.WellFormed :=
    wellFormed.postUpdated number
  generalize (store.postUpdated (post.movedTo destination.id key)).store = between
    at upserts receives sameMax good
  obtain ⟨⟨group, posts, groupFound, arrived, upserted⟩, outside⟩ := upserts
  obtain rfl := Option.some.inj (atDestination.symm.trans groupFound)
  have found : between.group? (Plan.bringToFront store destination.id).id
      = some { destination with posts := posts } := arrived
  have raised : between.maxZ < store.nextZ := by
    rw [sameMax]
    exact Store.maxZ_lt_nextZ room
  obtain ⟨inserted, top⟩ := Store.onTop_groupPatched good found raised
  have perm := between.posts_groupPatched (Plan.bringToFront store destination.id)
  refine ⟨good.groupPatched _, ?_, ⟨posts, upserted, ?_⟩, ?_, top⟩
  · obtain ⟨current, taken, others, same, taking, after, sameIds, absent⟩ := receives
    exact ⟨current, taken, others, same, taking, perm.trans after, sameIds, absent⟩
  · rw [Store.group?, inserted]
    exact GroupTable.find?_insert_self ..
  · rw [inserted]
    exact outside.insert rfl

end Landing

namespace Landing.Carried

variable {store after : Store κ} {post : Post κ} {destination : Group κ} {key : κ}

/-- The group of a landing keeps its other posts in order, and has the one that lands. -/
theorem now (carried : Carried store after post destination key)
    : ∃ posts,
        after.group? destination.id = some { destination with z := store.nextZ, posts := posts }
        ∧ posts.filter (·.id != post.id) = destination.others post.id
        ∧ ∃ dropped ∈ posts, dropped.id = post.id := by
  obtain ⟨posts, upserted, arrived⟩ := carried.arrived
  exact ⟨posts, arrived, upserted.filter_eq, upserted.exists_mem⟩

/-- Groups that a post neither comes to nor is taken from stay as they are. -/
theorem others (carried : Carried store after post destination key)
    (wellFormed : store.groups.WellFormed) {source : GroupId}
    (holds : store.groups.Holds source post.id)
    : ∀ id, id ≠ destination.id → id ≠ source → after.group? id = store.group? id := by
  intro id notTarget notSource
  exact (carried.outside id notTarget).trans
    (wellFormed.bind_without? (wellFormed.not_holds_of_ne holds notSource))

/-- Keys stay finite if the one of the post that lands is. -/
theorem finite [OrderKey.Lawful κ] (carried : Carried store after post destination key)
    (found : store.group? destination.id = some destination)
    (finite : ∀ post ∈ store.groups.posts, OrderKey.Lawful.IsFinite post.key)
    (finiteKey : OrderKey.Lawful.IsFinite key)
    : ∀ post ∈ after.groups.posts, OrderKey.Lawful.IsFinite post.key := by
  intro old member
  rcases carried.outside.mem_posts member with ⟨group, atTarget, inGroup⟩ | before
  · obtain ⟨posts, upserted, arrived⟩ := carried.arrived
    obtain rfl := Option.some.inj (arrived.symm.trans atTarget)
    rcases upserted.mem inGroup with rfl | former
    · exact finiteKey
    · exact finite old (GroupTable.mem_posts.mpr
        ⟨destination, GroupTable.mem_toList_of_find? found, former⟩)
  · exact finite old before

end Landing.Carried

/-- A landing keeps keys finite and all posts on the board. -/
theorem Landing.outcome [OrderKey.Lawful κ] {store : Store κ} {post : Post κ}
    {destination : Group κ} {neighbour : PostId} {above : Bool} {key : κ}
    (landing : Landing store post destination neighbour above key) (wellFormed : store.WellFormed)
    (room : store.maxZ.toInt < Int32.maxValue.toInt)
    (finite : ∀ post ∈ store.groups.posts, OrderKey.Lawful.IsFinite post.key)
    (finiteKey : OrderKey.Lawful.IsFinite key)
    : let after :=
        ((store.postUpdated (post.movedTo destination.id key)).store.groupPatched
          (Plan.bringToFront store destination.id)).store
      Carried store after post destination key
      ∧ (∀ post ∈ after.groups.posts, OrderKey.Lawful.IsFinite post.key)
      ∧ (after.groups.posts.map (·.id)).Perm (store.groups.posts.map (·.id))
      ∧ store.KeepsPosts after (some post.id) := by
  intro after
  have carried := landing.carried wellFormed (OrderKey.Lawful.beq_self_of_isFinite finiteKey) room
  have member := (wellFormed.post?_eq_some_iff.mp landing.onBoard).1
  have distinct := wellFormed.table.unique
  exact ⟨carried, carried.finite landing.found finite finiteKey,
    Store.ids_perm_of_receives distinct member carried.receives,
    Store.keepsPosts_of_receives distinct member carried.receives⟩

-----------------------------------------------------------------------------------------
-- Every kind of drop
-----------------------------------------------------------------------------------------

namespace Drop

variable {drop : Drop} {store : Store κ} {plan : Plan κ}

/-- A group that is moved is in front where it is dropped, and nothing else changes. -/
theorem effect_moved (wellFormed : store.WellFormed)
    (room : store.maxZ.toInt < Int32.maxValue.toInt) {group : Group κ}
    (found : store.group? group.id = some group) (x y : Float)
    : drop.Effect store (store.groupPatched (drop.placed store group.id x y)).store
        (.group group.id) (.canvas x y) := by
  have atPatch : store.group? (drop.placed store group.id x y).id = some group := found
  obtain ⟨inserted, top⟩ := Store.onTop_groupPatched wellFormed atPatch (Store.maxZ_lt_nextZ room)
  have perm := store.posts_groupPatched (drop.placed store group.id x y)
  refine .moved found (fun old member => ⟨old, perm.symm.subset member, rfl, fun _ => rfl⟩) ?_
    (fun id elsewhere => ?_) top
  · rw [Store.group?, inserted]
    exact GroupTable.find?_insert_self ..
  · rw [Store.group?, inserted]
    exact GroupTable.find?_insert_of_ne (Ne.symm elsewhere)

/-- The board after a post left its group for a new one. -/
structure Detached (drop : Drop) (store after : Store κ) (post : Post κ) (x y : Float) : Prop where
  arrived
    : after.group? drop.fresh.group
      = some { drop.pile store x y with
          posts := [post.movedTo drop.fresh.group OrderKey.first] }
  outside : store.groups.LosesOutside after.groups post.id drop.fresh.group
  top : after.OnTop drop.fresh.group store.nextZ

/-- A post that leaves its group comes to a new one in front, of which it is the only post. -/
theorem detached_postDetached (wellFormed : store.WellFormed)
    (room : store.maxZ.toInt < Int32.maxValue.toInt)
    (isNew : store.group? drop.fresh.group = none) (post : Post κ) (x y : Float)
    : drop.Detached store
        (store.postDetached { post with key := OrderKey.first } (drop.pile store x y)).store post
        x y := by
  let single : Group κ :=
    { drop.pile store x y with posts := [post.movedTo drop.fresh.group OrderKey.first] }
  have table : (⟨store.groups, []⟩ : Draft κ).table.WellFormed := wellFormed.table
  have absent : (⟨store.groups, []⟩ : Draft κ).table.find? single.id = none := isNew
  obtain ⟨next, edited, arrived⟩ := Draft.insertGroup?_of_absent table absent
  rw [Group.normalized_singleton rfl rfl] at arrived
  have outside : store.groups.LosesOutside next.table post.id single.id := by
    have relocates := (Draft.insertGroup?_relocates table (rfl : single.posts = [_]) rfl).1
    rw [edited] at relocates
    exact relocates.outside
  have raised : store.maxZ < single.z := Store.maxZ_lt_nextZ room
  have others (other : Group κ) (member : other ∈ next.table.toList)
      (elsewhere : other.id ≠ single.id)
      : other.z ≤ store.maxZ := by
    obtain ⟨old, found, fields, _⟩ :=
      outside.exists_of_find? elsewhere (GroupTable.mem_toList_iff.mp member)
    rw [fields]
    exact wellFormed.bounded old (GroupTable.mem_toList_of_find? found)
  have top : (store.edit (·.insertGroup? single)).store.OnTop single.id single.z :=
    Store.onTop_edit edited arrived others raised
  have made : store.postDetached { post with key := OrderKey.first } (drop.pile store x y)
      = store.edit (·.insertGroup? single) := rfl
  rw [made]
  have reached : (store.edit (·.insertGroup? single)).store.groups = next.table :=
    Store.groups_edit_of_some edited
  refine ⟨?_, ?_, top⟩
  · rw [Store.group?, reached]
    exact arrived
  · rw [reached]
    exact outside

/-- A post that is detached is alone in front, and its group keeps the others. -/
theorem effect_detached (wellFormed : store.WellFormed)
    (isNew : store.group? drop.fresh.group = none) {post : Post κ} {group : Group κ} {x y : Float}
    {after : Store κ} (member : post ∈ group.posts) (found : store.group? group.id = some group)
    (several : group.posts ≠ [post]) (posts : store.KeepsPosts after (some post.id))
    (detached : drop.Detached store after post x y)
    : drop.Effect store after (.post post.id) (.canvas x y) := by
  have inTable := GroupTable.mem_toList_of_find? found
  have holds : store.groups.Holds group.id post.id := ⟨group, found, post, member, rfl⟩
  have old : group.id ≠ drop.fresh.group := by
    intro same
    rw [← same, found] at isNew
    simp at isNew
  have atGroup : store.groups.find? group.id = some group := found
  refine .detached found member posts isNew detached.arrived ?_ (fun id notNew notSource => ?_)
    detached.top
  · refine (detached.outside group.id old).trans ?_
    rw [atGroup, Option.bind_some]
    exact Group.without?_of_several (wellFormed.table.distinct inTable) member several
  · exact (detached.outside id notNew).trans (wellFormed.table.bind_without?
      (wellFormed.table.not_holds_of_ne holds notSource))

variable [OrderKey.Lawful κ]

/-- The outcome of a drop: a board in good order with the same posts, and the effect of the drop. -/
theorem outcome_of_planned (wellFormed : store.WellFormed)
    (finite : ∀ post ∈ store.groups.posts, OrderKey.Lawful.IsFinite post.key)
    {payload : DragPayload} {target : DropTarget}
    (planned : Planned drop store payload target plan.mutations) (sound : drop.Sound store plan)
    : (plan.apply store).store.WellFormed
      ∧ (∀ post ∈ (plan.apply store).store.groups.posts, OrderKey.Lawful.IsFinite post.key)
      ∧ ((plan.apply store).store.groups.posts.map (·.id)).Perm (store.groups.posts.map (·.id))
      ∧ drop.Effect store (plan.apply store).store payload target := by
  have distinct := wellFormed.table.unique
  have home {post : Post κ} {group : Group κ} (onBoard : store.post? post.id = some post)
      (found : store.group? post.group = some group)
      : post ∈ store.groups.posts ∧ post ∈ group.posts ∧ store.group? group.id = some group := by
    obtain ⟨member, _⟩ := wellFormed.post?_eq_some_iff.mp onBoard
    obtain ⟨other, otherFound, inGroup⟩ := wellFormed.table.group_of_mem_posts member
    obtain rfl := Option.some.inj (found.symm.trans otherFound)
    exact ⟨member, inGroup, (GroupTable.id_of_find? found).symm ▸ found⟩
  obtain ⟨fresh, room, finiteKeys⟩ := sound
  obtain ⟨mutations, commands⟩ := plan
  cases planned with
  | @moved group found x y =>
      have perm := store.posts_groupPatched (drop.placed store group.id x y)
      refine ⟨wellFormed.groupPatched _, fun post member => finite post (perm.subset member),
        perm.map _, effect_moved wellFormed room found x y⟩
  | @detached post group onBoard found several x y =>
      let freed : Post κ := { post with key := OrderKey.first }
      have applied
          : (Plan.apply ⟨[.detachPost post.id (drop.pile store x y)], commands⟩ store).store
            = (store.postDetached freed (drop.pile store x y)).store := by
        rw [Plan.apply, Mutation.applyAll_cons]
        simp only [Mutation.apply, onBoard]
        rfl
      rw [applied]
      obtain ⟨member, inGroup, atGroup⟩ := home onBoard found
      have receives := store.postDetached_receives freed (drop.pile store x y)
      have detached := detached_postDetached wellFormed room fresh post x y
      refine ⟨wellFormed.postDetached OrderKey.beq_self_first _, fun other inAfter => ?_,
        Store.ids_perm_of_receives distinct member receives,
        effect_detached wellFormed fresh inGroup atGroup several
          (Store.keepsPosts_of_receives distinct member receives) detached⟩
      rcases detached.outside.mem_posts inAfter with ⟨single, atNew, inSingle⟩ | before
      · obtain rfl := Option.some.inj (detached.arrived.symm.trans atNew)
        obtain rfl := List.mem_singleton.mp inSingle
        exact OrderKey.Lawful.isFinite_first
      · exact finite other before
  | @merged group destination post neighbour above key found only elsewhere landing =>
      have finiteKey : OrderKey.Lawful.IsFinite key :=
        finiteKeys key (by simp [Plan.keys, Plan.transfer])
      rw [Plan.apply, apply_merged wellFormed.table found only elsewhere landing]
      obtain ⟨carried, finiteAfter, ids, posts⟩ := landing.outcome wellFormed room finite finiteKey
      have holds : store.groups.Holds group.id post.id := ⟨group, found, post, by simp [only], rfl⟩
      have atGroup : store.groups.find? group.id = some group := found
      refine ⟨carried.wellFormed, finiteAfter, ids, .merged found only landing.found
        landing.exists_neighbour posts ?_ ?_ (carried.others wellFormed.table holds) carried.top⟩
      · refine (carried.outside group.id (Ne.symm elsewhere)).trans ?_
        rw [atGroup, Option.bind_some]
        exact Group.without?_of_only only
      · have others : destination.others post.id = destination.posts :=
          Group.others_of_absent fun old member same =>
            wellFormed.table.not_holds_of_ne holds elsewhere
              ⟨destination, landing.found, old, member, same⟩
        rw [← others]
        exact carried.now
  | @inserted group destination post neighbour above key found several landing =>
      have finiteKey : OrderKey.Lawful.IsFinite key :=
        finiteKeys key (by simp [Plan.keys, Plan.transfer])
      rw [Plan.apply, apply_inserted landing]
      obtain ⟨carried, finiteAfter, ids, posts⟩ := landing.outcome wellFormed room finite finiteKey
      obtain ⟨_, inGroup, atGroup⟩ := home landing.onBoard found
      have holds : store.groups.Holds group.id post.id := ⟨group, atGroup, post, inGroup, rfl⟩
      refine ⟨carried.wellFormed, finiteAfter, ids, .inserted atGroup inGroup landing.found
        landing.exists_neighbour posts (fun elsewhere => ?_) carried.now
        (carried.others wellFormed.table holds) carried.top⟩
      refine (carried.outside group.id elsewhere).trans ?_
      have inTable : store.groups.find? group.id = some group := atGroup
      rw [inTable, Option.bind_some]
      exact Group.without?_of_several
        (wellFormed.table.distinct (GroupTable.mem_toList_of_find? inTable)) inGroup several

/-- An accepted drop restacks a board in good order. -/
theorem restacks_of_plan (wellFormed : store.WellFormed)
    (finite : ∀ post ∈ store.groups.posts, OrderKey.Lawful.IsFinite post.key)
    (planned : drop.plan store = .ok plan) (sound : drop.Sound store plan)
    : drop.Restacks store (plan.apply store).store := by
  have kind := planned_of_plan wellFormed.table planned
  obtain ⟨after, finiteAfter, ids, effect⟩ := outcome_of_planned wellFormed finite kind sound
  exact ⟨after, finiteAfter, ids, Store.toInt_nextZ sound.room, effect⟩

/-- However many drops a board in good order has seen, the next one restacks it: every post is kept,
only the groups change that something leaves or comes to, and the last drop is on top.
-/
theorem restacks_of_steps {before : Store κ} (wellFormed : before.WellFormed)
    (finite : ∀ post ∈ before.groups.posts, OrderKey.Lawful.IsFinite post.key) {drops : List Drop}
    (steps : Steps Sound before drops store) (planned : drop.plan store = .ok plan)
    (sound : drop.Sound store plan)
    : drop.Restacks store (plan.apply store).store := by
  have step (drop : Drop) (store : Store κ) (plan : Plan κ)
      (start
        : store.WellFormed ∧ ∀ post ∈ store.groups.posts, OrderKey.Lawful.IsFinite post.key)
      (planned : drop.plan store = .ok plan) (sound : drop.Sound store plan)
      : (plan.apply store).store.WellFormed
        ∧ ∀ post ∈ (plan.apply store).store.groups.posts, OrderKey.Lawful.IsFinite post.key := by
    have restacks := restacks_of_plan start.1 start.2 planned sound
    exact ⟨restacks.wellFormed, restacks.finite⟩
  obtain ⟨reached, finiteReached⟩ := steps.preserves step ⟨wellFormed, finite⟩
  exact restacks_of_plan reached finiteReached planned sound

/-- A group is merged into another one, and then its post goes after the one that it was put before.
-/
theorem restacks_of_steps_merged
    : let actor : Actor := ⟨.ofNat 1, .ofNat 7⟩
      let fresh : Fresh := ⟨.ofNat 50, .ofNat 60, .epoch⟩
      let merge : Drop := ⟨actor, fresh, .group (.ofNat 10), .post (.ofNat 21) true, none⟩
      let reorder : Drop := ⟨actor, fresh, .post (.ofNat 11), .post (.ofNat 21) false, none⟩
      let start := Store.ofGroups Sample.pair
      ∃ plan again,
        merge.plan start = .ok plan
        ∧ reorder.plan (plan.apply start).store = .ok again
        ∧ reorder.Restacks (plan.apply start).store
          (again.apply (plan.apply start).store).store := by
  intro actor fresh merge reorder start
  have wellFormed : start.WellFormed :=
    Store.Describable.wellFormed ⟨by decide, by decide, by decide⟩ (by decide)
  have finite : ∀ post ∈ start.groups.posts, post.key.isFinite = true := by
    simp only [start, Sample.ofGroups_pair]
    decide
  obtain ⟨plan, planned, sound, again, plannedAgain, soundAgain⟩
      : ∃ plan,
          merge.plan start = .ok plan
          ∧ merge.Sound start plan
          ∧ ∃ again,
              reorder.plan (plan.apply start).store = .ok again
              ∧ reorder.Sound (plan.apply start).store again := by
    simp only [start, merge, reorder, actor, fresh, Sample.ofGroups_pair]
    refine ⟨_, rfl, ⟨rfl, by decide, ?_⟩, _, rfl, ⟨rfl, by decide +kernel, ?_⟩⟩
    · change ∀ key : Float, key ∈ _ → key.isFinite = true
      decide +kernel
    · change ∀ key : Float, key ∈ _ → key.isFinite = true
      decide +kernel
  have steps : Steps Sound start [merge] (plan.apply start).store :=
    .cons planned sound (.nil _)
  exact ⟨plan, again, planned, plannedAgain,
    restacks_of_steps wellFormed finite steps plannedAgain soundAgain⟩

end Drop

end SharedBoard
