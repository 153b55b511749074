import SharedBoard.Plan
import SharedBoard.Uuid.Text

/-! Dropping. A group dropped on the canvas moves; a post dropped there leaves its group for one
of its own. Dropped on another post, a post takes its place beside it. Whatever is dropped comes
to the front.
-/

namespace SharedBoard

variable {κ : Type}

/-- What is dragged: a whole group, or one post out of several. -/
inductive DragPayload where
  | group (id : GroupId)
  | post (id : PostId)
deriving DecidableEq, Inhabited

/-- Where it is dropped: on the canvas, or on the upper or lower half of a post. -/
inductive DropTarget where
  | canvas (x y : Float)
  | post (id : PostId) (above : Bool)

/-- Why a drop is refused. -/
inductive DropError where
  | unknownSource (id : Uuid)
  | unknownTarget (id : PostId)
  | ontoItself
  | notDetachable
  | groupMerge
deriving DecidableEq

def DropError.message : DropError → String
  | .unknownSource id => "dragged entity " ++ id.toText ++ " no longer exists"
  | .unknownTarget id => "drop target post " ++ id.toText ++ " no longer exists"
  | .ontoItself => "cannot drop an entity onto itself"
  | .notDetachable => "a post can only be dragged out of a group with siblings"
  | .groupMerge => "a group of several posts cannot be merged into another group"

namespace Plan

/-- The change that brings a group to the front. -/
def bringToFront (store : Store κ) (group : GroupId) : GroupPatch :=
  { GroupPatch.nothing group with z := some store.nextZ }

/-- The change that puts a post into a group under a key. -/
def transfer (actor : Actor) (post : PostId) (group : GroupId) (key : κ) : PostEdit κ :=
  { (PostEdit.nothing post actor.board : PostEdit κ) with group := some group, key := some key }

/-- The command that asks for a change of a group. -/
def updateGroup (actor : Actor) (patch : GroupPatch) : Command κ :=
  .updateGroup ⟨actor.board, patch⟩

/-- A group is dropped on the canvas. -/
def moveGroup (store : Store κ) (actor : Actor) (group : GroupId) (x y : Float)
    (grid : Option Int32) : Except DropError (Plan κ) :=
  if store.groups.contains group then
    let (x, y) := Canvas.dropPosition x y grid
    let patch := { bringToFront store group with x := some x, y := some y }
    .ok ⟨[.patchGroup patch], [updateGroup actor patch]⟩
  else
    .error (.unknownSource group)

/-- The group with an identifier, or the given refusal. -/
def groupOr (store : Store κ) (id : GroupId) (refusal : DropError) : Except DropError (Group κ) :=
  match store.group? id with
  | some group => .ok group
  | none => .error refusal

/-- The place of a post, or the given refusal. -/
def placeOr (store : Store κ) (post : PostId) (refusal : DropError)
    : Except DropError (GroupId × Nat) :=
  match store.locate? post with
  | some place => .ok place
  | none => .error refusal

/-- A post leaves its group, which has others, for one of its own on the canvas. -/
def detachPost (store : Store κ) (actor : Actor) (fresh : Fresh) (post : PostId) (x y : Float)
    (grid : Option Int32) : Except DropError (Plan κ) := do
  let (sourceId, _) ← placeOr store post (.unknownSource post)
  let source ← groupOr store sourceId (.unknownSource post)
  if source.isSingleton then
    .error .notDetachable
  else
    let (x, y) := Canvas.dropPosition x y grid
    let z := store.nextZ
    let group : Group κ := ⟨fresh.group, actor.board, "", x, y, z, [], fresh.now, fresh.now⟩
    .ok ⟨[.detachPost post group], [.detachPost ⟨post, actor.board, fresh.group, x, y, z⟩]⟩

variable [OrderKey κ]

/-- The only post of a group takes its place beside another post, and the group goes away. -/
def mergeSingleton (store : Store κ) (actor : Actor) (group : GroupId) (target : PostId)
    (above : Bool) : Except DropError (Plan κ) := do
  let source ← groupOr store group (.unknownSource group)
  let (targetGroup, index) ← placeOr store target (.unknownTarget target)
  if targetGroup = group then
    .error .ontoItself
  else if !source.isSingleton then
    .error .groupMerge
  else
    match source.posts.head? with
    | none => .error (.unknownSource group)
    | some post =>
        let destination ← groupOr store targetGroup (.unknownTarget target)
        match OrderKey.beside? (destination.posts.map (·.key)) index above with
        | none => .error (.unknownTarget target)
        | some key =>
            let moved := transfer actor post.id targetGroup key
            let front := bringToFront store targetGroup
            .ok
              ⟨[.editPost moved, .removeGroup group, .patchGroup front],
                [.updatePost moved, .deleteGroup group actor.board, updateGroup actor front]⟩

/-- A post out of several takes its place beside another post, in the same group or elsewhere. It
is left out when its new neighbours are looked for.
-/
def insertPost (store : Store κ) (actor : Actor) (post target : PostId) (above : Bool)
    : Except DropError (Plan κ) :=
  if post = target then
    .error .ontoItself
  else do
    let (sourceId, _) ← placeOr store post (.unknownSource post)
    let source ← groupOr store sourceId (.unknownSource post)
    if source.isSingleton then
      .error .notDetachable
    else
      let (targetGroup, _) ← placeOr store target (.unknownTarget target)
      let destination ← groupOr store targetGroup (.unknownTarget target)
      let siblings := destination.posts.filter (·.id != post)
      let key? := (siblings.findIdx? (·.id == target)).bind fun index =>
        OrderKey.beside? (siblings.map (·.key)) index above
      match key? with
      | none => .error (.unknownTarget target)
      | some key =>
          let moved := transfer actor post targetGroup key
          let front := bringToFront store targetGroup
          .ok
            ⟨[.editPost moved, .patchGroup front],
              [.updatePost moved, updateGroup actor front]⟩

def drop (store : Store κ) (actor : Actor) (fresh : Fresh) (payload : DragPayload)
    (target : DropTarget) (grid : Option Int32) : Except DropError (Plan κ) :=
  match payload, target with
  | .group group, .canvas x y => moveGroup store actor group x y grid
  | .group group, .post post above => mergeSingleton store actor group post above
  | .post post, .canvas x y => detachPost store actor fresh post x y grid
  | .post post, .post target above => insertPost store actor post target above

end Plan

end SharedBoard
