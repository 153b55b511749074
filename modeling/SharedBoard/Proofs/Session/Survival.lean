import SharedBoard.Proofs.Plan.Removal
import SharedBoard.Proofs.Session.Pending
import SharedBoard.Proofs.Session.Rollback

/-! What survives a roll back. Posts that the server confirmed are on the board that is built
again, unless one of the gestures that are still in flight takes them off: a deletion, or a merge
whose post could not move.
-/

namespace SharedBoard

-----------------------------------------------------------------------------------------
-- Gestures that take posts off
-----------------------------------------------------------------------------------------

/-- What a gesture recorded takes a post off a board: the gesture deleted that post; it deleted
the last post of a group, which has the post now; or it merged a group, which has the post after
the merged post was to be moved.
-/
inductive Gesture.TakesOff (board : Store Float) (post : PostId)
    : Gesture → List (Mutation Float) → Prop
  | deleted {current : Post Float} (same : current.id = post)
    : TakesOff board post (.deletePost post) [.removePost current]
  | withGroup {group : Group Float} {inner : Post Float} (last : PostId)
    (found : board.group? group.id = some group) (inside : inner ∈ group.posts)
    (same : inner.id = post)
    : TakesOff board post (.deletePost last) [.removeGroup group.id]
  | leftBehind {moved : PostEdit Float} {group : Group Float} {inner : Post Float}
    (neighbour : PostId) (above : Bool) (front : GroupPatch)
    (found : ((Mutation.editPost moved).apply board).store.group? group.id = some group)
    (inside : inner ∈ group.posts) (same : inner.id = post)
    : TakesOff board post (.drop (.group group.id) (.post neighbour above))
        [.editPost moved, .removeGroup group.id, .patchGroup front]

/-- A gesture takes a post off a board of distinct posts when what it recorded is applied. -/
theorem Gesture.TakesOff.not_isSome_post? {board : Store Float} {post : PostId} {gesture : Gesture}
    {mutations : List (Mutation Float)} (takesOff : gesture.TakesOff board post mutations)
    (distinct : (board.groups.posts.map (·.id)).Nodup)
    : ¬ ((Mutation.applyAll mutations board).store.post? post).isSome := by
  cases takesOff with
  | deleted same => exact Mutation.not_isSome_post?_of_removes distinct (.post same)
  | withGroup last found inside same =>
      exact Mutation.not_isSome_post?_of_removes distinct (.group found inside same)
  | @leftBehind moved group inner neighbour above front found inside same =>
      have one : (Mutation.editPost moved).BringsOne := trivial
      have gone := Mutation.not_isSome_post?_of_removes (Mutation.distinct_apply one distinct)
        (.group found inside same)
      rw [Mutation.applyAll_cons, Mutation.applyAll_cons]
      exact Mutation.not_isSome_post?_applyAll (by simp [Mutation.BringsOne])
        (by simp [Mutation.Brings]) gone

namespace Plan

variable {store board : Store Float} {actor : Actor} {fresh : Fresh} {gesture : Gesture}
  {plan : Plan Float} {post : PostId}

/-- A post that a plan brings is on any board after it. -/
theorem Made.isSome_post?_of_brings (made : Made store actor fresh gesture plan)
    {mutation : Mutation Float} (member : mutation ∈ plan.mutations)
    (brings : mutation.Brings post)
    : ((Mutation.applyAll plan.mutations board).store.post? post).isSome := by
  have ones := made.bringsOne
  cases made with
  | created x y color grid =>
      have one := ones mutation member
      obtain rfl := List.mem_singleton.mp member
      exact (Mutation.isSome_post?_apply_iff rfl one).mpr (.inr brings)
  | _ =>
      simp only [ofEdit, List.mem_cons, List.not_mem_nil, or_false] at member
      rcases member with rfl | rfl | rfl <;> exact brings.elim

/-- A post that is gone from a board after what a gesture recorded was taken off by it, by cases
on the gesture.
-/
theorem Made.takesOff_of_lost (made : Made store actor fresh gesture plan)
    (present : (board.post? post).isSome)
    (lost : ¬ ((Mutation.applyAll plan.mutations board).store.post? post).isSome)
    : gesture.TakesOff board post plan.mutations := by
  have removes {mutation : Mutation Float} {board : Store Float} (one : mutation.BringsOne)
      (present : (board.post? post).isSome)
      (lost : ¬ ((mutation.apply board).store.post? post).isSome)
      : mutation.Removes board post := by
    by_contra kept
    exact lost (Mutation.isSome_post?_of_kept one present kept)
  have harmless (keep : ∀ mutation ∈ plan.mutations, mutation.isRemoval = false) : False :=
    lost (Mutation.isSome_post?_applyAll keep made.bringsOne present)
  have ones := made.bringsOne
  cases made with
  | @emptied id group current found only =>
      cases removes (ones _ List.mem_cons_self) present lost with
      | group inBoard inside same => exact .withGroup current.id inBoard inside same
  | removed found =>
      cases removes (ones _ List.mem_cons_self) present lost with
      | post same => exact same ▸ .deleted rfl
  | @merged source target group destination current key found only elsewhere targetFound beside
      neighbour above =>
      obtain ⟨editOne, rest⟩ := List.forall_mem_cons.mp ones
      obtain ⟨removeOne, frontOne⟩ := List.forall_mem_cons.mp rest
      rw [Mutation.applyAll_cons, Mutation.applyAll_cons] at lost
      have moved := (Mutation.isSome_post?_apply_iff rfl editOne).mpr (.inl present)
      have goneWithSource := fun still =>
        lost (Mutation.isSome_post?_applyAll (by simp [Mutation.isRemoval]) frontOne still)
      cases removes removeOne moved goneWithSource with
      | group inBoard inside same =>
          exact .leftBehind neighbour above (bringToFront store target) inBoard inside same
  | _ => exact (harmless (by simp [createPost, ofEdit, Mutation.isRemoval])).elim

end Plan

-----------------------------------------------------------------------------------------
-- Operations in flight
-----------------------------------------------------------------------------------------

namespace Session

variable {session : Session} {inputs : List Input}

/-- A gesture that is carried out has a plan that was made for it. -/
theorem CarriedOut.made (act : session.CarriedOut inputs)
    : ∃ actor,
        Plan.Made (session.run act.early).session.visible actor act.fresh act.gesture act.plan :=
  made_of_planFor? act.planned

/-- A post of a board is lost to an operation: what its gesture recorded takes the post off the
board on which it is applied again, and no later operation brings it back.
-/
def LostTo (session : Session) (inputs : List Input) (confirmed : Store Float)
    (operations : List (PendingOperation Float)) (post : PostId) : Prop :=
  ∃ (before : List (PendingOperation Float)) (operation : PendingOperation Float)
      (after : List (PendingOperation Float)) (act : session.CarriedOut inputs),
    operations = before ++ operation :: after
    ∧ operation.ids = act.plan.requestIds act.requests
    ∧ operation.mutations = act.plan.mutations
    ∧ act.gesture.TakesOff (Mutation.applyAll (before.flatMap (·.mutations)) confirmed).store post
        operation.mutations
    ∧ ∀ later ∈ after, ∀ mutation ∈ later.mutations, ¬ mutation.Brings post

/-- Every operation is that of a gesture. -/
def AllCarriedOut (session : Session) (inputs : List Input)
    (operations : List (PendingOperation Float)) : Prop :=
  ∀ operation ∈ operations, ∃ act : session.CarriedOut inputs,
    operation.ids = act.plan.requestIds act.requests
    ∧ operation.mutations = act.plan.mutations

namespace AllCarriedOut

variable {operations : List (PendingOperation Float)} {board : Store Float} {post : PostId}

theorem bringsOne (all : session.AllCarriedOut inputs operations)
    : ∀ mutation ∈ operations.flatMap (·.mutations), mutation.BringsOne := by
  intro mutation member
  obtain ⟨operation, inOperations, inMutations⟩ := List.mem_flatMap.mp member
  obtain ⟨act, _, mutations⟩ := all operation inOperations
  obtain ⟨actor, made⟩ := act.made
  exact made.bringsOne mutation (mutations ▸ inMutations)

/-- A post that is gone after several operations was lost to one of them: the last one before
which it was still there. By induction over the operations from their end.
-/
theorem lostTo (all : session.AllCarriedOut inputs operations) (present : (board.post? post).isSome)
    (lost
      : ¬ ((Mutation.applyAll (operations.flatMap (·.mutations)) board).store.post? post).isSome)
    : session.LostTo inputs board operations post := by
  induction operations using List.reverseRecOn with
  | nil => exact absurd present lost
  | append_singleton init last ih =>
      obtain ⟨initAll, lastAll⟩ := List.forall_mem_append.mp all
      obtain ⟨act, ids, mutations⟩ := lastAll last (List.mem_singleton_self last)
      obtain ⟨actor, made⟩ := act.made
      rw [List.flatMap_append, List.flatMap_singleton, Mutation.applyAll_append] at lost
      -- Either the last operation took the post off, or an earlier one did and the last one did not
      -- bring it back.
      by_cases still
          : ((Mutation.applyAll (init.flatMap (·.mutations)) board).store.post? post).isSome
      · rw [mutations] at lost
        refine ⟨init, last, [], act, rfl, ids, mutations, ?_, by simp⟩
        rw [mutations]
        exact made.takesOff_of_lost still lost
      · obtain ⟨before, operation, after, owner, rfl, ownIds, ownMutations, takesOff, nothing⟩ :=
          ih initAll still
        refine ⟨before, operation, after ++ [last], owner, by simp, ownIds, ownMutations,
          takesOff, ?_⟩
        intro later member
        rcases List.mem_append.mp member with inAfter | isLast
        · exact nothing later inAfter
        · obtain rfl := List.mem_singleton.mp isLast
          intro mutation inLast brings
          rw [mutations] at inLast lost
          exact lost (made.isSome_post?_of_brings inLast brings)

/-- A post that is lost to one of several operations is gone from a board of distinct posts. -/
theorem gone_of_lostTo (all : session.AllCarriedOut inputs operations)
    (distinct : (board.groups.posts.map (·.id)).Nodup)
    (lostTo : session.LostTo inputs board operations post)
    : ¬ ((Mutation.applyAll (operations.flatMap (·.mutations)) board).store.post? post).isSome := by
  obtain ⟨before, operation, after, act, rfl, _, _, takesOff, nothing⟩ := lostTo
  have ones := all.bringsOne
  rw [List.flatMap_append, List.flatMap_cons, List.forall_mem_append, List.forall_mem_append]
    at ones
  obtain ⟨beforeOnes, _, afterOnes⟩ := ones
  rw [List.flatMap_append, List.flatMap_cons, Mutation.applyAll_append, Mutation.applyAll_append]
  refine Mutation.not_isSome_post?_applyAll afterOnes ?_
    (takesOff.not_isSome_post? (Mutation.distinct_applyAll beforeOnes distinct))
  intro mutation member
  obtain ⟨later, inAfter, inLater⟩ := List.mem_flatMap.mp member
  exact nothing later inAfter mutation inLater

end AllCarriedOut

-----------------------------------------------------------------------------------------
-- All roll backs
-----------------------------------------------------------------------------------------

/-- A confirmed post that a roll back leaves off the board that is built again is lost to an
operation still in flight, which deleted it or the last post of its group, or which merged the
group that it is in. On a board of distinct posts every such operation takes the post off.
-/
theorem posts_survive_rollBack {session : Session} (atRest : session.ledger.operations = [])
    {inputs : List Input} {text : String} {kind : EventKind} {message : String}
    {answer : Option RequestId} (read : Inbound.ofText text = .ok (.rejected kind message answer))
    (other : kind ≠ .userAuthenticate) {undone : PendingOperation Float} {rest : Ledger Float}
    (refused : (session.run inputs).session.ledger.reject? kind answer = some (undone, rest))
    {post : PostId} (present : ((session.run inputs).session.confirmed.post? post).isSome)
    : let after := ((session.run inputs).session.step (.transport (.message text))).session
      after.ledger = rest
        ∧ after.confirmed = (session.run inputs).session.confirmed
        ∧ (after.visible.post? post = none
          → session.LostTo inputs after.confirmed rest.operations post)
        ∧ ((after.confirmed.groups.posts.map (·.id)).Nodup
          → session.LostTo inputs after.confirmed rest.operations post
          → after.visible.post? post = none) := by
  intro after
  have all : session.AllCarriedOut inputs rest.operations := fun operation member =>
    exists_carriedOut atRest (Ledger.mem_of_mem_reject? refused member)
  have stepped : after = ((session.run inputs).session.onRejected kind message answer).session := by
    simp only [after, Session.step, handle, onMessage, read]
  have built : after.ledger = rest
      ∧ after.confirmed = (session.run inputs).session.confirmed
      ∧ after.visible = (rest.replay (session.run inputs).session.confirmed).store := by
    rw [stepped, onRejected, if_neg other, rollBack, refused]
    exact ⟨rfl, rfl, rfl⟩
  obtain ⟨ledger, confirmed, visible⟩ := built
  refine ⟨ledger, confirmed, fun lost => ?_, fun distinct lostTo => ?_⟩
  · rw [confirmed]
    refine all.lostTo present ?_
    rw [visible] at lost
    exact Option.not_isSome_iff_eq_none.mpr lost
  · rw [confirmed] at distinct lostTo
    rw [visible]
    exact Option.not_isSome_iff_eq_none.mp (all.gone_of_lostTo distinct lostTo)

/-- A post is created, and then the first group is dropped on it. -/
def mergedOntoCreated : List Input :=
  Sample.handshake
    ++ [.gesture (.createPost 0.0 0.0) Sample.fresh (Sample.requests 100),
        .gesture (.drop (.group (.ofNat 10)) (.post (.ofNat 50) true)) Sample.fresh
          (Sample.requests 200)]

/-- The server refuses the new post. -/
def creationRefusal : String :=
  "[\"post.create\",false,null,\"refused\",\"00000000-0000-0000-0000-000000000064\"]"

/-- The only post of the first group is confirmed. After the creation was refused it is not on
the visible board any more: the group that it was to be moved to is gone, and its own one is
removed all the same.
-/
theorem gone_mergedOntoCreated
    : (((start Sample.board Sample.pair (some "token") .lightPink none).run
          mergedOntoCreated).session.ledger.reject? .postCreate (some (.ofNat 100))).isSome = true
      ∧ (((start Sample.board Sample.pair (some "token") .lightPink none).run
          mergedOntoCreated).session.confirmed.post? (.ofNat 11)).isSome = true
      ∧ ((((start Sample.board Sample.pair (some "token") .lightPink none).run
          mergedOntoCreated).session.step
            (.transport (.message creationRefusal))).session.visible.post? (.ofNat 11)).isNone
          = true := by
  unfold start
  rw [Sample.ofGroups_pair]
  decide +kernel

/-- That post is lost to the merge. -/
theorem posts_survive_rollBack_mergedOntoCreated
    : ∃ rest,
        (((start Sample.board Sample.pair (some "token") .lightPink none).run
            mergedOntoCreated).session.ledger.reject? .postCreate (some (.ofNat 100))).map (·.2)
          = some rest
        ∧ (start Sample.board Sample.pair (some "token") .lightPink none).LostTo mergedOntoCreated
            ((start Sample.board Sample.pair (some "token") .lightPink none).run
              mergedOntoCreated).session.confirmed
            rest.operations (.ofNat 11) := by
  obtain ⟨refusable, present, gone⟩ := gone_mergedOntoCreated
  obtain ⟨⟨undone, rest⟩, refused⟩ := Option.isSome_iff_exists.mp refusable
  have atRest : (start Sample.board Sample.pair (some "token") .lightPink none).ledger.operations
      = [] := rfl
  have read : Inbound.ofText creationRefusal
      = .ok (.rejected .postCreate "refused" (some (.ofNat 100))) := by decide +kernel
  have survival := posts_survive_rollBack atRest read (by decide) refused present
  obtain ⟨_, kept, lostTo, _⟩ := survival
  rw [← kept]
  refine ⟨rest, ?_, lostTo (Option.isNone_iff_eq_none.mp gone)⟩
  rw [refused]
  rfl

/-- A confirmed post is lost in a roll back although no gesture of the run is a deletion. -/
theorem confirmed_post_lost_mergedOntoCreated
    : (∀ input ∈ mergedOntoCreated, ∀ post fresh requests,
        input ≠ .gesture (.deletePost post) fresh requests)
      ∧ Inbound.ofText creationRefusal
        = .ok (.rejected .postCreate "refused" (some (.ofNat 100)))
      ∧ (((start Sample.board Sample.pair (some "token") .lightPink none).run
          mergedOntoCreated).session.ledger.reject? .postCreate (some (.ofNat 100))).isSome = true
      ∧ (((start Sample.board Sample.pair (some "token") .lightPink none).run
          mergedOntoCreated).session.confirmed.post? (.ofNat 11)).isSome = true
      ∧ (((start Sample.board Sample.pair (some "token") .lightPink none).run
          (mergedOntoCreated ++ [.transport (.message creationRefusal)])).session.visible.post?
            (.ofNat 11)) = none := by
  obtain ⟨refusable, present, gone⟩ := gone_mergedOntoCreated
  refine ⟨?_, by decide +kernel, refusable, present, ?_⟩
  · simp [mergedOntoCreated, Sample.handshake]
  · rw [run_concat]
    exact Option.isNone_iff_eq_none.mp gone

end Session

end SharedBoard
