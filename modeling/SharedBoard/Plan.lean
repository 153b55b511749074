import SharedBoard.Command
import SharedBoard.Store.Reduce

/-! Plans: what a gesture does to the board at once, and the commands that ask the server for the
same. Mutations carry only the fields that a gesture sets, so that they can be applied again to a
board that has moved on.
-/

namespace SharedBoard

variable {κ : Type}

/-- A change of the board that does not wait for the server. -/
inductive Mutation (κ : Type) where
  | insertGroup (group : Group κ)
  | editPost (edit : PostEdit κ)
  | removePost (post : Post κ)
  | removeGroup (group : GroupId)
  | patchGroup (patch : GroupPatch)
  | detachPost (post : PostId) (group : Group κ)
deriving BEq, Inhabited

namespace Mutation

variable [OrderKey κ]

/-- Apply a mutation. Mutations of posts work on the post as it is now; if it is gone, there is
nothing to do.
-/
def apply (mutation : Mutation κ) (store : Store κ) : Update κ :=
  match mutation with
  | .insertGroup group => store.groupCreated group
  | .editPost edit =>
      match store.post? edit.id with
      | some post => store.postUpdated (edit.applyTo post)
      | none => store.unchanged
  | .removePost post => store.postRemoved post
  | .removeGroup group => store.groupRemoved group
  | .patchGroup patch => store.groupPatched patch
  | .detachPost id group =>
      match store.post? id with
      | some post => store.postDetached { post with key := OrderKey.first } group
      | none => store.unchanged

def applyAll (mutations : List (Mutation κ)) (store : Store κ) : Update κ :=
  mutations.foldl (fun update mutation => update.andThen mutation.apply) store.unchanged

end Mutation

/-- What a gesture does: mutations for the board, commands for the server. -/
structure Plan (κ : Type) where
  mutations : List (Mutation κ)
  commands : List (Command κ)
deriving BEq, Inhabited

namespace Plan

/-- The messages for the commands of a plan, each with a request id of its own. -/
def messages (plan : Plan κ) (requests : Nat → RequestId) : List (Message κ) :=
  plan.commands.mapIdx (fun index command => ⟨command, some (requests index)⟩)

/-- Carry a plan out on a board. -/
def apply [OrderKey κ] (plan : Plan κ) (store : Store κ) : Update κ :=
  Mutation.applyAll plan.mutations store

end Plan

/-- The identity of whoever makes a gesture. -/
structure Actor where
  board : BoardId
  user : UserId
deriving DecidableEq, Inhabited

/-- What a gesture takes from outside: identifiers that nothing else has, and the time. -/
structure Fresh where
  post : PostId
  group : GroupId
  now : Instant
deriving DecidableEq, Inhabited

end SharedBoard
