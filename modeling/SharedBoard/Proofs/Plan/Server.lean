import SharedBoard.Plan.Gesture

/-! A server that holds a board and executes commands on it. It keeps posts and groups apart, each
under its identifier, and reports every success as an event. What a command does not carry, the
server fills in as it is on a given board.
-/

namespace SharedBoard

variable {κ : Type}

/-- The posts and groups that a server holds. A group does not list its posts. -/
structure Server (κ : Type) where
  post? : PostId → Option (Post κ)
  group? : GroupId → Option (Group κ)

namespace Server

/-- The server that holds a board. -/
def holding (store : Store κ) : Server κ :=
  ⟨store.post?, fun id => (store.group? id).map (fun group => { group with posts := [] })⟩

/-- Put a post in the place of the one with its identifier. -/
def putPost (server : Server κ) (post : Post κ) : Server κ :=
  { server with post? := fun id => if id = post.id then some post else server.post? id }

/-- Put a group in the place of the one with its identifier. -/
def putGroup (server : Server κ) (group : Group κ) : Server κ :=
  { server with group? := fun id => if id = group.id then some group else server.group? id }

/-- Delete a post. -/
def dropPost (server : Server κ) (post : PostId) : Server κ :=
  { server with post? := fun id => if id = post then none else server.post? id }

/-- Delete a group and the posts that name it. -/
def dropGroup (server : Server κ) (group : GroupId) : Server κ :=
  ⟨fun id => (server.post? id).filter (fun post => post.group != group),
    fun id => if id = group then none else server.group? id⟩

/-- Execute a command, and report it. A command that names what the server does not hold, or makes
what it holds already, is refused; signing in, joining and typing change no board.
-/
def execute (shown : Store κ) (server : Server κ) : Command κ → Option (Server κ × Event κ)
  | .createPost creation =>
      if (server.post? creation.id).isSome || (server.group? creation.group).isSome then none
      else do
        let likePost ← shown.post? creation.id
        let likeGroup ← shown.group? creation.group
        let post : Post κ :=
          ⟨creation.id, creation.board, likePost.author, creation.content, creation.color,
            creation.height, creation.group, creation.key, likePost.createdAt, likePost.updatedAt⟩
        let group : Group κ :=
          ⟨creation.group, creation.board, likeGroup.title, creation.x, creation.y, creation.z, [],
            likeGroup.createdAt, likeGroup.updatedAt⟩
        some ((server.putGroup group).putPost post, .postCreated post group)
  | .updatePost edit => do
      let old ← server.post? edit.id
      let like ← shown.post? edit.id
      let post := { edit.applyTo old with updatedAt := like.updatedAt }
      if (server.group? post.group).isSome then
        some (server.putPost post, .postUpdated post (some old))
      else
        none
  | .deletePost id _ => do
      let post ← server.post? id
      some (server.dropPost id, .postDeleted post)
  | .detachPost detachment =>
      if (server.group? detachment.group).isSome then none
      else do
        let old ← server.post? detachment.post
        let likePost ← shown.post? detachment.post
        let likeGroup ← shown.group? detachment.group
        let post : Post κ :=
          { old with
            group := detachment.group
            key := likePost.key
            updatedAt := likePost.updatedAt }
        let group : Group κ :=
          ⟨detachment.group, detachment.board, likeGroup.title, detachment.x, detachment.y,
            detachment.z, [], likeGroup.createdAt, likeGroup.updatedAt⟩
        some ((server.putGroup group).putPost post, .postDetached post group)
  | .updateGroup change => do
      let old ← server.group? change.patch.id
      let like ← shown.group? change.patch.id
      let patch := { change.patch with updatedAt := some like.updatedAt }
      some (server.putGroup (patch.applyTo old), .groupUpdated patch)
  | .deleteGroup id _ =>
      (server.group? id).map fun _ => (server.dropGroup id, .groupDeleted id)
  | .authenticate _ => none
  | .connectBoard _ => none
  | .focusPost .. => none

/-- Execute commands one after the other, and report all of them. -/
def executeAll (shown : Store κ) (server : Server κ) : List (Command κ) → Option (List (Event κ))
  | [] => some []
  | command :: rest => do
      let (next, event) ← server.execute shown command
      let events ← next.executeAll shown rest
      some (event :: events)

end Server

end SharedBoard
