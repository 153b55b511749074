import SharedBoard.Store

/-! A table of groups while it is being edited. A draft remembers which groups were put into the
table or taken out of it; edits that find nothing to do have no result.
-/

namespace SharedBoard

/-- A table and the groups that were put into it or taken out. -/
structure Draft (κ : Type) where
  table : GroupTable κ
  touched : List GroupId

namespace Draft

variable {κ : Type}

/-- Put a group into the table. -/
def put (draft : Draft κ) (group : Group κ) : Draft κ :=
  ⟨draft.table.insert group, group.id :: draft.touched⟩

/-- Take a group out of the table. -/
def remove (draft : Draft κ) (id : GroupId) : Draft κ :=
  ⟨draft.table.erase id, id :: draft.touched⟩

/-- Take a post off the board, and its group too if that leaves it empty. -/
def removePost? (draft : Draft κ) (post : PostId) (hint : Option GroupId)
    : Option (Draft κ) := do
  let (id, index) ← draft.table.locate? post hint
  let group ← draft.table.find? id
  let rest := group.posts.eraseIdx index
  if rest.isEmpty then some (draft.remove id) else some (draft.put { group with posts := rest })

variable [OrderKey κ]

/-- Put a post that is not on the board into the group it names, where its key belongs. -/
def insertPost? (draft : Draft κ) (post : Post κ) : Option (Draft κ) :=
  (draft.table.find? post.group).map fun group =>
    draft.put { group with posts := post.insertInto group.posts }

/-- Replace the post at an index of a group. A post whose key changed goes where its key belongs;
one that is equal leaves nothing to do.
-/
def replacePost? (draft : Draft κ) (group : Group κ) (index : Nat) (post : Post κ)
    : Option (Draft κ) :=
  group.posts[index]?.bind fun current =>
    if current == post then
      none
    else if current.key == post.key then
      some (draft.put { group with posts := group.posts.set index post })
    else
      some (draft.put { group with posts := post.insertInto (group.posts.eraseIdx index) })

/-- Put a post into the group it names, wherever on the board it was before. A group that is not
on the board leaves nothing to do.
-/
def placePost? (draft : Draft κ) (post : Post κ) : Option (Draft κ) :=
  match draft.table.find? post.group with
  | none => none
  | some target =>
      match draft.table.locate? post.id (some post.group) with
      | none => draft.insertPost? post
      | some (id, index) =>
          if id = post.group then
            draft.replacePost? target index post
          else
            ((draft.removePost? post.id (some id)).getD draft).insertPost? post

/-- Take a post out of any group but the given one. -/
def withdrawPost (draft : Draft κ) (keep : GroupId) (post : PostId) : Draft κ :=
  match draft.table.locate? post none with
  | some (id, _) =>
      if id = keep then draft else (draft.removePost? post (some id)).getD draft
  | none => draft

/-- Put a whole group onto the board. Its posts leave the groups they were in. If the board has
the group already, its fields are merged and its posts placed one by one; if it is equal, there
is nothing to do.
-/
def insertGroup? (draft : Draft κ) (group : Group κ) : Option (Draft κ) :=
  let group := group.normalized
  if (draft.table.find? group.id).any (· == group) then
    none
  else
    let cleared := group.posts.foldl (fun draft post => draft.withdrawPost group.id post.id) draft
    match cleared.table.find? group.id with
    | none => some (cleared.put group)
    | some existing =>
        let merged :=
          { existing with
            title := group.title
            x := group.x
            y := group.y
            z := group.z
            updatedAt := group.updatedAt }
        some (group.posts.foldl (fun draft post => (draft.placePost? post).getD draft)
          (cleared.put merged))

end Draft

end SharedBoard
