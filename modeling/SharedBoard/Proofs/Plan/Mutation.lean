import SharedBoard.Plan.Gesture
import SharedBoard.Proofs.Store.Reducer

/-! Mutations one after another. Applying several is applying each to what the last one left, and
each keeps a board in good order.
-/

namespace SharedBoard

variable {κ : Type} [OrderKey κ]

namespace Mutation

/-- The board after several mutations, each applied to what the one before left. -/
theorem applyAll_store (mutations : List (Mutation κ)) (store : Store κ)
    : (applyAll mutations store).store
      = mutations.foldl (fun store mutation => (mutation.apply store).store) store := by
  have fold (update : Update κ)
      : (mutations.foldl (fun update mutation => update.andThen mutation.apply) update).store
        = mutations.foldl (fun store mutation => (mutation.apply store).store) update.store := by
    induction mutations generalizing update with
    | nil => rfl
    | cons head rest ih => exact ih (update.andThen head.apply)
  exact fold store.unchanged

@[simp] theorem applyAll_nil (store : Store κ) : applyAll [] store = store.unchanged :=
  rfl

theorem applyAll_cons (head : Mutation κ) (rest : List (Mutation κ)) (store : Store κ)
    : (applyAll (head :: rest) store).store = (applyAll rest (head.apply store).store).store := by
  rw [applyAll_store, applyAll_store, List.foldl_cons]

theorem applyAll_append (first second : List (Mutation κ)) (store : Store κ)
    : (applyAll (first ++ second) store).store
      = (applyAll second (applyAll first store).store).store := by
  rw [applyAll_store, applyAll_store, applyAll_store, List.foldl_append]

/-- The keys that a mutation brings are numbers, and the posts of a new group are distinct. -/
def Admissible : Mutation κ → Prop
  | .insertGroup group =>
      (group.posts.map (·.id)).Nodup ∧ ∀ post ∈ group.posts, (post.key == post.key) = true
  | .editPost edit => ∀ key, edit.key = some key → (key == key) = true
  | _ => True

/-- A changed post has a number as its key, if the old key and the new one are numbers. -/
theorem beq_self_applyTo {edit : PostEdit κ} {post : Post κ}
    (edited : ∀ key, edit.key = some key → (key == key) = true)
    (number : (post.key == post.key) = true)
    : ((edit.applyTo post).key == (edit.applyTo post).key) = true := by
  cases change : edit.key with
  | none => simpa [PostEdit.applyTo, change] using number
  | some key => simpa [PostEdit.applyTo, change] using edited key change

variable [OrderKey.Lawful κ]

/-- A mutation keeps a board in good order. -/
theorem apply_wellFormed {mutation : Mutation κ} (admissible : mutation.Admissible)
    {store : Store κ} (wellFormed : store.WellFormed)
    : (mutation.apply store).store.WellFormed := by
  cases mutation with
  | insertGroup group => exact wellFormed.groupCreated admissible.1 admissible.2
  | editPost edit =>
      simp only [apply]
      split
      · next post found =>
          have member := (wellFormed.post?_eq_some_iff.mp found).1
          exact wellFormed.postUpdated
            (beq_self_applyTo admissible (wellFormed.table.number_of_mem_posts member))
      · exact wellFormed
  | removePost post => exact wellFormed.postRemoved post
  | removeGroup group => exact wellFormed.groupRemoved group
  | patchGroup patch => exact wellFormed.groupPatched patch
  | detachPost post group =>
      simp only [apply]
      split
      · exact wellFormed.postDetached OrderKey.beq_self_first group
      · exact wellFormed

/-- Mutations keep a board in good order, by induction over them. -/
theorem applyAll_wellFormed {mutations : List (Mutation κ)}
    (admissible : ∀ mutation ∈ mutations, mutation.Admissible) {store : Store κ}
    (wellFormed : store.WellFormed)
    : (applyAll mutations store).store.WellFormed := by
  induction mutations generalizing store with
  | nil => exact wellFormed
  | cons head rest ih =>
      obtain ⟨headAdmissible, restAdmissible⟩ := List.forall_mem_cons.mp admissible
      rw [applyAll_cons]
      exact ih restAdmissible (apply_wellFormed headAdmissible wellFormed)

end Mutation

end SharedBoard
