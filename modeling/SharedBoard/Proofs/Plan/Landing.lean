import SharedBoard.Proofs.Plan.Dropped
import SharedBoard.Proofs.Store.Frame

/-! Where a post comes to stand that is dropped on another one: right before it or right after it,
as long as keys have room between them. Exact rationals never run out of it, so that the posts of
every group stay in strict order however many drops there are.
-/

namespace SharedBoard

open OrderKey

variable {κ : Type} [OrderKey κ]

namespace Store

/-- A board in good order on which no group has two posts with equal keys. -/
structure Strict (store : Store κ) : Prop where
  table : store.groups.WellFormed
  strict : ∀ group ∈ store.groups.toList, isStrictlyAscending (group.posts.map (·.key)) = true

/-- A post comes to a group, right before or right after another post of it. All other posts, there
and elsewhere, stay as they are and in the same order.
-/
structure LandsBeside (before after : Store κ) (dragged : Post κ) (neighbour : PostId)
    (above : Bool) (target : GroupId) : Prop where
  beside
    : ∃ left next right key,
        next.id = neighbour
        ∧ (before.postsIn target).filter (·.id != dragged.id) = left ++ next :: right
        ∧ after.postsIn target
          = left
            ++ (if above then [dragged.movedTo target key, next]
                else [next, dragged.movedTo target key])
            ++ right
  elsewhere
    : ∀ id,
        id ≠ target → after.postsIn id = (before.postsIn id).filter (·.id != dragged.id)

end Store

-----------------------------------------------------------------------------------------
-- Places between keys
-----------------------------------------------------------------------------------------

variable [Dense κ]

/-- The posts that a board in strict order has for any group ascend, also if there is no group. -/
theorem Store.Strict.ascending {store : Store κ} (strict : store.Strict) (id : GroupId)
    : (store.postsIn id).Pairwise (fun low high => low.key < high.key) := by
  unfold postsIn
  cases found : store.group? id with
  | none => exact .nil
  | some group =>
      have inOrder := strict.strict group (GroupTable.mem_toList_of_find? found)
      exact Post.isStrictlyAscending_map_iff.mp inOrder

namespace Landing

variable {store : Store κ} {post : Post κ} {destination : Group κ} {neighbour : PostId}
  {above : Bool} {key : κ}

/-- The key of a landing splits the other posts of the group right before the neighbour, or right
after it.
-/
theorem split (landing : Landing store post destination neighbour above key)
    (ascending : (destination.others post.id).Pairwise (fun low high => low.key < high.key))
    : ∃ left next right front back,
        next.id = neighbour
        ∧ destination.others post.id = left ++ next :: right
        ∧ left ++ next :: right = front ++ back
        ∧ (∀ landed : Post κ,
            front ++ landed :: back
            = left ++ (if above then [landed, next] else [next, landed]) ++ right)
        ∧ (∀ earlier ∈ front, earlier.key < key)
        ∧ ∀ later ∈ back, key < later.key := by
  obtain ⟨left, next, right, others, sameId, beside⟩ := landing.place
  rw [others] at ascending
  obtain ⟨front, back, sides, low, high⟩ := Post.split_of_beside? ascending beside
  refine ⟨left, next, right, front, back, sameId, others, ?_, ?_, low, high⟩ <;>
    cases above <;>
    obtain ⟨rfl, rfl⟩ := Prod.mk.inj sides <;>
    simp

/-- However the post comes to its group, it stands where the other posts split. -/
theorem posts_eq_of_upserted {front back posts : List (Post κ)}
    (good : destination.WellFormed) (distinct : (destination.posts.map (·.id)).Nodup)
    (split : destination.others post.id = front ++ back)
    (low : ∀ earlier ∈ front, earlier.key < key) (high : ∀ later ∈ back, key < later.key)
    (upserted : Post.Upserted destination.posts (post.movedTo destination.id key) posts)
    : posts = front ++ post.movedTo destination.id key :: back := by
  have apart (other : Post κ) (member : other ∈ destination.posts) (differs : other.id ≠ post.id)
      : (other.key == key) = false := by
    have inSplit : other ∈ front ++ back := split ▸ Group.mem_others.mpr ⟨member, differs⟩
    rw [Bool.eq_false_iff]
    intro tied
    rcases List.mem_append.mp inSplit with earlier | later
    · exact Lawful.not_lt_of_beq tied (low other earlier)
    · exact Lawful.not_lt_of_beq (Lawful.beq_symm tied) (high other later)
  obtain ⟨placed, same, rfl⟩ := upserted.eq_insertInto distinct good.ascending good.numbers
    (Dense.beq_self key) apart
  have landed : placed = post.movedTo destination.id key := by
    rcases same with rfl | ⟨_, equal⟩
    · rfl
    · obtain ⟨fields, sameKey⟩ := Post.beq_iff.mp equal
      rw [fields, Dense.eq_of_beq sameKey]
  subst landed
  have others : destination.posts.filter (·.id != (post.movedTo destination.id key).id)
      = front ++ back := split
  rw [others]
  exact Post.insertInto_append (fun earlier member => Lawful.lt_asymm (low earlier member)) high

/-- A post lands beside its neighbour, and every group stays in strict order: the post is between
those before and those after it, and other groups lose it at most.
-/
theorem lands (landing : Landing store post destination neighbour above key)
    (strict : store.Strict) (front : GroupPatch)
    : let after :=
        ((store.postUpdated (post.movedTo destination.id key)).store.groupPatched front).store
      after.Strict ∧ store.LandsBeside after post neighbour above destination.id := by
  intro after
  have atDestination : store.group? (post.movedTo destination.id key).group = some destination :=
    landing.found
  have inTable := GroupTable.mem_toList_of_find? landing.found
  have inPlace := Store.postsIn_of_mem inTable
  have ascending : (destination.others post.id).Pairwise (fun low high => low.key < high.key) :=
    (inPlace ▸ strict.ascending destination.id).filter _
  obtain ⟨left, next, right, first, last, sameId, others, around, listed, low, high⟩ :=
    landing.split ascending
  obtain ⟨⟨group, posts, groupFound, arrived, upserted⟩, outside⟩ :=
    Store.postUpdated_upserts strict.table atDestination
  obtain rfl := Option.some.inj (atDestination.symm.trans groupFound)
  have placed : posts = first ++ post.movedTo destination.id key :: last :=
    posts_eq_of_upserted (strict.table.groups destination inTable) (strict.table.distinct inTable)
      (others.trans around) low high upserted
  have own : after.postsIn destination.id = first ++ post.movedTo destination.id key :: last := by
    have found : (store.postUpdated (post.movedTo destination.id key)).store.group? destination.id
        = some { destination with posts := posts } := arrived
    rw [Store.postsIn_groupPatched, Store.postsIn, found, ← placed]
    rfl
  have elsewhere (id : GroupId) (differs : id ≠ destination.id)
      : after.postsIn id = (store.postsIn id).filter (·.id != post.id) := by
    rw [Store.postsIn_groupPatched]
    exact Store.postsIn_of_bind (outside id differs)
  have number : ((post.movedTo destination.id key).key == key) = true := Dense.beq_self key
  refine ⟨⟨Store.table_groupPatched (Store.table_postUpdated strict.table number) front, ?_⟩,
    ⟨left, next, right, key, sameId, ?_, ?_⟩, elsewhere⟩
  · intro group inAfter
    rw [isStrictlyAscending_iff, ← Store.postsIn_of_mem inAfter]
    refine List.pairwise_map.mpr ?_
    by_cases here : group.id = destination.id
    · rw [here, own]
      rw [others, around] at ascending
      obtain ⟨inFirst, inLast, across⟩ := List.pairwise_append.mp ascending
      refine List.pairwise_append.mpr ⟨inFirst, List.pairwise_cons.mpr ⟨high, inLast⟩, ?_⟩
      intro earlier member
      exact List.forall_mem_cons.mpr ⟨low earlier member, across earlier member⟩
    · rw [elsewhere group.id here]
      exact (strict.ascending group.id).filter _
  · rw [inPlace]
    exact others
  · rw [own, listed]

end Landing

-----------------------------------------------------------------------------------------
-- Drops on posts
-----------------------------------------------------------------------------------------

namespace Sample

/-- A post without text, under an exact key. -/
def exactPost (id group : Nat) (key : Rat) : Post Rat :=
  ⟨.ofNat id, .ofNat 1, .ofNat 7, "", .lightPink, 100, .ofNat group, key, .epoch, .epoch⟩

/-- A group of two posts and a group of one. -/
def row : Store Rat :=
  ⟨⟨[⟨.ofNat 10, .ofNat 1, "", 0, 0, 1, [exactPost 11 10 1, exactPost 12 10 2], .epoch, .epoch⟩,
      ⟨.ofNat 20, .ofNat 1, "", 0, 0, 2, [exactPost 21 20 1], .epoch, .epoch⟩],
    by decide⟩, [], 2⟩

/-- The two groups are in strict order. -/
theorem row_strict : row.Strict := by
  refine ⟨⟨fun _ _ => GroupTable.id_of_find?, ?_, by decide⟩, by decide⟩
  refine List.forall_mem_cons.mpr ⟨⟨by decide, by decide, by decide, ?_⟩,
    List.forall_mem_singleton.mpr ⟨by decide, by decide, by decide, ?_⟩⟩
  · exact List.pairwise_pair.mpr (by decide)
  · exact List.pairwise_singleton _ _

end Sample

namespace Drop

/-- A drop on a post, wherever on the board. -/
def OntoPost (drop : Drop) (_ : Store κ) (_ : Plan κ) : Prop :=
  ∃ neighbour above, drop.target = .post neighbour above

variable {drop : Drop} {store : Store κ} {plan : Plan κ}

/-- An accepted drop on a post lands what is dropped beside it and keeps groups in strict order. -/
theorem lands_of_plan (strict : store.Strict) {neighbour : PostId} {above : Bool}
    (onto : drop.target = .post neighbour above) (planned : drop.plan store = .ok plan)
    : (plan.apply store).store.Strict
      ∧ ∃ dragged target,
          drop.payload.Drags store dragged
          ∧ dragged ∈ store.groups.posts
          ∧ store.LandsBeside (plan.apply store).store dragged neighbour above target := by
  have kind := planned_of_plan strict.table planned
  rw [onto] at kind
  obtain ⟨dragged, destination, key, drags, landing, applied⟩ := kind.landing strict.table
  obtain ⟨after, lands⟩ := landing.lands strict (Plan.bringToFront store destination.id)
  have reached : (plan.apply store).store = _ := applied
  rw [reached]
  exact ⟨after, dragged, destination.id, drags, (Store.mem_posts_of_post? landing.onBoard).1, lands⟩

/-- On exact rationals a drop on a post lands what is dropped right before it or right after it,
however many such drops there were before; none of them ever breaks the strict order of a group.
-/
theorem lands_of_steps {before store : Store Rat} (strict : before.Strict) {drops : List Drop}
    (steps : Steps OntoPost before drops store) {drop : Drop} {plan : Plan Rat}
    {neighbour : PostId} {above : Bool} (onto : drop.target = .post neighbour above)
    (planned : drop.plan store = .ok plan)
    : store.Strict
      ∧ (plan.apply store).store.Strict
      ∧ ∃ dragged target,
          drop.payload.Drags store dragged
          ∧ dragged ∈ store.groups.posts
          ∧ store.LandsBeside (plan.apply store).store dragged neighbour above target := by
  have step (drop : Drop) (store : Store Rat) (plan : Plan Rat) (start : store.Strict)
      (planned : drop.plan store = .ok plan) (allowed : drop.OntoPost store plan)
      : (plan.apply store).store.Strict := by
    obtain ⟨_, _, onto⟩ := allowed
    exact (lands_of_plan start onto planned).1
  have reached := steps.preserves step strict
  exact ⟨reached, lands_of_plan reached onto planned⟩

/-- The post of the second group is put between those of the first one, and then the first of them
after it.
-/
theorem lands_of_steps_reordered
    : let actor : Actor := ⟨.ofNat 1, .ofNat 7⟩
      let fresh : Fresh := ⟨.ofNat 50, .ofNat 60, .epoch⟩
      let merge : Drop := ⟨actor, fresh, .group (.ofNat 20), .post (.ofNat 12) true, none⟩
      let reorder : Drop := ⟨actor, fresh, .post (.ofNat 11), .post (.ofNat 21) false, none⟩
      ∃ plan again,
        merge.plan Sample.row = .ok plan
        ∧ reorder.plan (plan.apply Sample.row).store = .ok again
        ∧ (again.apply (plan.apply Sample.row).store).store.Strict
        ∧ ((again.apply (plan.apply Sample.row).store).store.postsIn (.ofNat 10)).map (·.id)
          = [.ofNat 21, .ofNat 11, .ofNat 12] := by
  intro actor fresh merge reorder
  have accepted
      : ((merge.plan Sample.row).toOption.bind fun plan =>
          (reorder.plan (plan.apply Sample.row).store).toOption.map fun again =>
            ((again.apply (plan.apply Sample.row).store).store.postsIn (.ofNat 10)).map (·.id))
        = some [.ofNat 21, .ofNat 11, .ofNat 12] := by
    decide +kernel
  obtain ⟨plan, first, accepted⟩ := Option.bind_eq_some_iff.mp accepted
  obtain ⟨again, second, order⟩ := Option.map_eq_some_iff.mp accepted
  have planned := Plan.ok_of_toOption first
  have plannedAgain := Plan.ok_of_toOption second
  have steps : Steps OntoPost Sample.row [merge] (plan.apply Sample.row).store :=
    .cons planned ⟨_, _, rfl⟩ (.nil _)
  obtain ⟨_, strict, _⟩ := lands_of_steps Sample.row_strict steps rfl plannedAgain
  exact ⟨plan, again, planned, plannedAgain, strict, order⟩

end Drop

end SharedBoard
