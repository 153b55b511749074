import SharedBoard.Event
import SharedBoard.Store.Draft
import SharedBoard.Store.Roster

/-! How the state of a board follows events. Each call compares before it writes, so that an event
that has already taken effect changes nothing.
-/

namespace SharedBoard.Store

variable {κ : Type} [OrderKey κ]

/-- Edit the table of groups. The highest z-index takes in the new table. -/
def edit (store : Store κ) (change : Draft κ → Option (Draft κ)) : Update κ :=
  match change ⟨store.groups, []⟩ with
  | none => store.unchanged
  | some draft =>
      ⟨{ store with
          groups := draft.table
          maxZ := draft.table.toList.foldl (fun highest group => max highest group.z) store.maxZ },
        .ofGroups draft.touched⟩

-----------------------------------------------------------------------------------------
-- Groups
-----------------------------------------------------------------------------------------

/-- A group was put onto the board, or merged into the one with its identifier; a group without
posts is ignored.
-/
def groupCreated (store : Store κ) (group : Group κ) : Update κ :=
  if group.posts.isEmpty then store.unchanged else store.edit (·.insertGroup? group)

/-- A group and its posts left the board. -/
def groupRemoved (store : Store κ) (id : GroupId) : Update κ :=
  if store.groups.contains id then
    (store.edit (fun draft => some (draft.remove id))).andThen typingStoppedNowhere
  else
    store.unchanged

/-- Some fields of a group changed: it was moved, renamed or brought to the front. -/
def groupPatched (store : Store κ) (patch : GroupPatch) : Update κ :=
  match store.group? patch.id with
  | none => store.unchanged
  | some group =>
      if patch.applyTo group == group then store.unchanged
      else store.edit (fun draft => some (draft.put (patch.applyTo group)))

-----------------------------------------------------------------------------------------
-- Posts
-----------------------------------------------------------------------------------------

/-- A post was put into a group, or updated if it is on the board. -/
def postAdded (store : Store κ) (id : GroupId) (post : Post κ) : Update κ :=
  store.edit (·.placePost? { post with group := id })

/-- A post was created in a group that is on the board, or together with a new one. -/
def postCreated (store : Store κ) (post : Post κ) (group : Group κ) : Update κ :=
  if store.groups.contains group.id then store.postAdded group.id post
  else store.groupCreated { group with posts := [post] }

/-- A post was replaced by a new version, which may be in another group. Whoever was typing on it
is done.
-/
def postUpdated (store : Store κ) (post : Post κ) : Update κ :=
  (store.edit (·.placePost? post)).andThen (·.typingStopped post.id)

/-- A post left the board, and its group with it if it was the last one there. -/
def postRemoved (store : Store κ) (post : Post κ) : Update κ :=
  if (store.groups.locate? post.id (some post.group)).isSome then
    (store.edit (·.removePost? post.id (some post.group))).andThen (·.typingStopped post.id)
  else
    store.unchanged

/-- A post left its group for a group of its own. -/
def postDetached (store : Store κ) (post : Post κ) (group : Group κ) : Update κ :=
  store.edit (·.insertGroup? { group with posts := [{ post with group := group.id }] })

-----------------------------------------------------------------------------------------
-- Events
-----------------------------------------------------------------------------------------

/-- Follow an event. Typing of the local user is not shown, and signing in does not concern the
board.
-/
def reduce (store : Store κ) (localUser : Option UserId) : Event κ → Update κ
  | .authenticated _ => store.unchanged
  | .boardConnected connected newUser => store.joined connected newUser
  | .boardDisconnected user => store.left user
  | .postCreated post group => store.postCreated post group
  | .postUpdated post _ => store.postUpdated post
  | .postDeleted post => store.postRemoved post
  | .postDetached post group => store.postDetached post group
  | .postFocused post user =>
      if localUser = some user.id then store.unchanged else store.focused user.id post.id
  | .groupUpdated patch => store.groupPatched patch
  | .groupDeleted id => store.groupRemoved id

end SharedBoard.Store
