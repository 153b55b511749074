import SharedBoard.Proofs.Plan.Made
import SharedBoard.Proofs.Store.Posts

/-! Which mutations take posts off a board. A post is deleted, or its group is removed with it; all
other mutations keep every post somewhere on the board.
-/

namespace SharedBoard

variable {κ : Type}

namespace Store

variable {before after : Store κ} {id : PostId}

/-- A post stays on a board that has all its posts. -/
theorem isSome_post?_of_perm (perm : after.groups.posts.Perm before.groups.posts)
    : (after.post? id).isSome ↔ (before.post? id).isSome := by
  rw [isSome_post?_iff, isSome_post?_iff]
  exact exists_congr fun post => and_congr_left' perm.mem_iff

/-- A post is on a board that received one if it was there before or is that one. -/
theorem isSome_post?_of_receives [OrderKey κ] {post : Post κ}
    (receives : before.groups.Receives after.groups post)
    : (after.post? id).isSome ↔ id = post.id ∨ (before.post? id).isSome := by
  have ids (store : Store κ) : (store.post? id).isSome ↔ id ∈ store.groups.posts.map (·.id) := by
    rw [isSome_post?_iff, List.mem_map]
  rw [ids, ids, receives.mem_ids]

end Store

namespace Mutation

/-- Whether a mutation is meant to take posts off the board. -/
def isRemoval : Mutation κ → Bool
  | .removePost _ => true
  | .removeGroup _ => true
  | _ => false

/-- A group that a mutation brings has one post. -/
def BringsOne : Mutation κ → Prop
  | .insertGroup group => ∃ post, group.posts = [post]
  | _ => True

/-- A mutation brings a post in a new group. -/
def Brings (id : PostId) : Mutation κ → Prop
  | .insertGroup group => ∃ post ∈ group.posts, post.id = id
  | _ => False

/-- A mutation takes a post off a board: it deletes it, or removes the group that has it. -/
inductive Removes (store : Store κ) (id : PostId) : Mutation κ → Prop
  | post {post : Post κ} (same : post.id = id) : Removes store id (.removePost post)
  | group {group : Group κ} {post : Post κ} (found : store.group? group.id = some group)
    (inside : post ∈ group.posts) (same : post.id = id)
    : Removes store id (.removeGroup group.id)

variable [OrderKey κ] {store : Store κ} {id : PostId} {mutation : Mutation κ}

/-- What a mutation does to the posts of a board, if it does not remove any: it moves none, or the
board receives one, which was there before unless it comes in a new group.
-/
theorem posts_apply (keeps : mutation.isRemoval = false) (one : mutation.BringsOne)
    : ((mutation.apply store).store.groups.posts.Perm store.groups.posts
        ∧ ∀ other, ¬ mutation.Brings other)
      ∨ ∃ post,
          store.groups.Receives (mutation.apply store).store.groups post
          ∧ ((store.post? post.id).isSome ∨ mutation.Brings post.id)
          ∧ ∀ other, mutation.Brings other → other = post.id := by
  cases mutation with
  | insertGroup group =>
      obtain ⟨post, only⟩ := one
      refine .inr ⟨_, store.groupCreated_receives only, .inr ⟨post, by simp [only], rfl⟩, ?_⟩
      rintro other ⟨brought, member, rfl⟩
      rw [only, List.mem_singleton] at member
      rw [member]
  | editPost edit =>
      simp only [apply]
      split
      · next post found =>
          cases target : store.group? (edit.applyTo post).group with
          | none =>
              rw [Store.groups_postUpdated_of_absent target]
              exact .inl ⟨List.Perm.refl _, fun _ => id⟩
          | some group =>
              have sameId : post.id = edit.id := (Store.mem_posts_of_post? found).2
              refine .inr ⟨edit.applyTo post, Store.postUpdated_receives target, .inl ?_,
                fun _ => False.elim⟩
              have kept : (edit.applyTo post).id = post.id := rfl
              rw [kept, sameId, found]
              rfl
      · exact .inl ⟨List.Perm.refl _, fun _ => id⟩
  | removePost post => simp [isRemoval] at keeps
  | removeGroup group => simp [isRemoval] at keeps
  | patchGroup patch => exact .inl ⟨store.posts_groupPatched patch, fun _ => id⟩
  | detachPost gone group =>
      simp only [apply]
      split
      · next post found =>
          refine .inr ⟨_, store.postDetached_receives _ group, .inl ?_, fun _ => False.elim⟩
          have sameId : post.id = gone := (Store.mem_posts_of_post? found).2
          change (store.post? post.id).isSome
          rw [sameId, found]
          rfl
      · exact .inl ⟨List.Perm.refl _, fun _ => id⟩

/-- A post is on the board after a mutation that does not remove any if it was there before or comes
in a new group.
-/
theorem isSome_post?_apply_iff (keeps : mutation.isRemoval = false) (one : mutation.BringsOne)
    : ((mutation.apply store).store.post? id).isSome
      ↔ (store.post? id).isSome ∨ mutation.Brings id := by
  rcases posts_apply keeps one with ⟨perm, nothing⟩ | ⟨post, receives, known, only⟩
  · rw [Store.isSome_post?_of_perm perm]
    exact (or_iff_left (nothing id)).symm
  · rw [Store.isSome_post?_of_receives receives]
    constructor
    · rintro (rfl | present)
      · exact known
      · exact .inl present
    · rintro (present | brought)
      · exact .inr present
      · exact .inl (only id brought)

/-- A post that is on the board stays there if a mutation does not take it off. -/
theorem isSome_post?_of_kept (one : mutation.BringsOne) (present : (store.post? id).isSome)
    (kept : ¬ mutation.Removes store id)
    : ((mutation.apply store).store.post? id).isSome := by
  cases mutation with
  | removePost gone =>
      obtain ⟨post, member, sameId⟩ := Store.isSome_post?_iff.mp present
      have differs : post.id ≠ gone.id := fun same => kept (.post (same.symm.trans sameId))
      exact Store.isSome_post?_iff.mpr
        ⟨post, (store.postRemoved_sheds gone).mem member differs, sameId⟩
  | removeGroup gone =>
      obtain ⟨post, member, sameId⟩ := Store.isSome_post?_iff.mp present
      obtain ⟨group, inTable, inside⟩ := GroupTable.mem_posts.mp member
      have differs : group.id ≠ gone := by
        rintro rfl
        exact kept (.group (GroupTable.mem_toList_iff.mp inTable) inside sameId)
      refine Store.isSome_post?_iff.mpr ⟨post, ?_, sameId⟩
      rw [apply, Store.groups_groupRemoved]
      exact GroupTable.mem_posts.mpr
        ⟨group, GroupTable.mem_toList_erase.mpr ⟨inTable, differs⟩, inside⟩
  | _ => exact (isSome_post?_apply_iff rfl one).mpr (.inl present)

/-- A post that is not on the board comes there only in a new group. -/
theorem brings_of_isSome_post? (one : mutation.BringsOne) (absent : ¬ (store.post? id).isSome)
    (came : ((mutation.apply store).store.post? id).isSome)
    : mutation.Brings id := by
  cases mutation with
  | removePost gone =>
      obtain ⟨post, member, sameId⟩ := Store.isSome_post?_iff.mp came
      exact absurd (Store.isSome_post?_iff.mpr
        ⟨post, (store.postRemoved_sheds gone).subset member, sameId⟩) absent
  | removeGroup gone =>
      obtain ⟨post, member, sameId⟩ := Store.isSome_post?_iff.mp came
      exact absurd (Store.isSome_post?_iff.mpr
        ⟨post, (store.posts_groupRemoved_sublist gone).subset member, sameId⟩) absent
  | _ => exact ((isSome_post?_apply_iff rfl one).mp came).resolve_left absent

/-- A post that is taken off a board of distinct posts is not there any more. -/
theorem not_isSome_post?_of_removes (distinct : (store.groups.posts.map (·.id)).Nodup)
    (removes : mutation.Removes store id)
    : ¬ ((mutation.apply store).store.post? id).isSome := by
  intro still
  obtain ⟨post, member, sameId⟩ := Store.isSome_post?_iff.mp still
  cases removes with
  | @post gone same =>
      exact Store.absent_postRemoved distinct gone post member (sameId.trans same.symm)
  | @group group inner found inside same =>
      rw [apply, Store.groups_groupRemoved] at member
      obtain ⟨other, inTable, inOther⟩ := GroupTable.mem_posts.mp member
      obtain ⟨wasInTable, differs⟩ := GroupTable.mem_toList_erase.mp inTable
      have one := (GroupTable.unique_iff.mp distinct).2 other wasInTable group
        (GroupTable.mem_toList_of_find? found) post inOther inner inside (sameId.trans same.symm)
      exact differs (congrArg Group.id one)

/-- Posts stay distinct, since a board receives a post in place of those with its identifier. -/
theorem distinct_apply (one : mutation.BringsOne)
    (distinct : (store.groups.posts.map (·.id)).Nodup)
    : ((mutation.apply store).store.groups.posts.map (·.id)).Nodup := by
  have kept (keeps : mutation.isRemoval = false)
      : ((mutation.apply store).store.groups.posts.map (·.id)).Nodup := by
    rcases posts_apply keeps one with ⟨perm, _⟩ | ⟨post, receives, _⟩
    · exact (perm.map _).nodup_iff.mpr distinct
    · exact receives.nodup distinct
  cases mutation with
  | removePost gone => exact (store.postRemoved_sheds gone).nodup distinct
  | removeGroup gone => exact distinct.sublist ((store.posts_groupRemoved_sublist gone).map _)
  | _ => exact kept rfl

-----------------------------------------------------------------------------------------
-- Several mutations
-----------------------------------------------------------------------------------------

/-- A post that is on the board stays there if no mutation is meant to take posts off, by induction
over the mutations.
-/
theorem isSome_post?_applyAll {mutations : List (Mutation κ)}
    (keep : ∀ mutation ∈ mutations, mutation.isRemoval = false)
    (ones : ∀ mutation ∈ mutations, mutation.BringsOne) (present : (store.post? id).isSome)
    : ((applyAll mutations store).store.post? id).isSome := by
  induction mutations generalizing store with
  | nil => exact present
  | cons head rest ih =>
      obtain ⟨headKeeps, restKeep⟩ := List.forall_mem_cons.mp keep
      obtain ⟨headOne, restOnes⟩ := List.forall_mem_cons.mp ones
      rw [applyAll_cons]
      exact ih restKeep restOnes ((isSome_post?_apply_iff headKeeps headOne).mpr (.inl present))

/-- A post that is not on the board stays away if no mutation brings it, by induction over them. -/
theorem not_isSome_post?_applyAll {mutations : List (Mutation κ)}
    (ones : ∀ mutation ∈ mutations, mutation.BringsOne)
    (nothing : ∀ mutation ∈ mutations, ¬ mutation.Brings id) (absent : ¬ (store.post? id).isSome)
    : ¬ ((applyAll mutations store).store.post? id).isSome := by
  induction mutations generalizing store with
  | nil => exact absent
  | cons head rest ih =>
      obtain ⟨headOne, restOnes⟩ := List.forall_mem_cons.mp ones
      obtain ⟨headNothing, restNothing⟩ := List.forall_mem_cons.mp nothing
      rw [applyAll_cons]
      exact ih restOnes restNothing fun came =>
        headNothing (brings_of_isSome_post? headOne absent came)

/-- Posts stay distinct over several mutations, by induction over them. -/
theorem distinct_applyAll {mutations : List (Mutation κ)}
    (ones : ∀ mutation ∈ mutations, mutation.BringsOne)
    (distinct : (store.groups.posts.map (·.id)).Nodup)
    : ((applyAll mutations store).store.groups.posts.map (·.id)).Nodup := by
  induction mutations generalizing store with
  | nil => exact distinct
  | cons head rest ih =>
      obtain ⟨headOne, restOnes⟩ := List.forall_mem_cons.mp ones
      rw [applyAll_cons]
      exact ih restOnes (distinct_apply headOne distinct)

end Mutation

/-- A group that a plan brings has one post. -/
theorem Plan.Made.bringsOne [OrderKey κ] {store : Store κ} {actor : Actor} {fresh : Fresh}
    {gesture : Gesture} {plan : Plan κ} (made : Plan.Made store actor fresh gesture plan)
    : ∀ mutation ∈ plan.mutations, mutation.BringsOne := by
  cases made <;> simp [createPost, ofEdit, Mutation.BringsOne]

end SharedBoard
