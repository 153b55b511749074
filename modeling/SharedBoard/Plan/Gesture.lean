import SharedBoard.Plan.Drop

/-! Gestures and the plans they turn into. -/

namespace SharedBoard

variable {κ : Type}

/-- What a user can do to a board. -/
inductive Gesture where
  | createPost (x y : Float)
  | editPost (post : PostId) (content : String) (height : Option Int32)
  | resizePost (post : PostId) (height : Int32)
  | recolorPost (post : PostId) (color : Color)
  | retitleGroup (group : GroupId) (title : String)
  | deletePost (post : PostId)
  | drop (payload : DragPayload) (target : DropTarget)

/-- Why a gesture has no plan. -/
inductive PlanError where
  | postNotFound (post : PostId)
  | groupNotFound (group : GroupId)
  | refused (error : DropError)
deriving DecidableEq

def PlanError.message : PlanError → String
  | .postNotFound post => "post " ++ post.toText ++ " is not on this board"
  | .groupNotFound group => "post group " ++ group.toText ++ " is not on this board"
  | .refused error => error.message

namespace Plan

/-- The same change of a post for the board and for the server. -/
def ofEdit (edit : PostEdit κ) : Plan κ :=
  ⟨[.editPost edit], [.updatePost edit]⟩

/-- The plan that changes a post, if it is on the board. -/
def editing (store : Store κ) (actor : Actor) (post : PostId)
    (change : PostEdit κ → PostEdit κ) : Except PlanError (Plan κ) :=
  if (store.post? post).isSome then
    .ok (ofEdit (change (PostEdit.nothing post actor.board)))
  else
    .error (.postNotFound post)

/-- Give a post another text. Without a measured height one is derived from the text. -/
def editPost (store : Store κ) (actor : Actor) (post : PostId) (content : String)
    (height : Option Int32) : Except PlanError (Plan κ) :=
  editing store actor post fun edit =>
    { edit with
      content := some content
      height := some (height.getD (Canvas.contentHeight content)) }

/-- Give a post another height, but not less than the least. -/
def resizePost (store : Store κ) (actor : Actor) (post : PostId) (height : Int32)
    : Except PlanError (Plan κ) :=
  editing store actor post fun edit => { edit with height := some (max height Canvas.postHeight) }

def recolorPost (store : Store κ) (actor : Actor) (post : PostId) (color : Color)
    : Except PlanError (Plan κ) :=
  editing store actor post fun edit => { edit with color := some color }

def retitleGroup (store : Store κ) (actor : Actor) (group : GroupId) (title : String)
    : Except PlanError (Plan κ) :=
  if store.groups.contains group then
    let patch := { GroupPatch.nothing group with title := some title }
    .ok ⟨[.patchGroup patch], [updateGroup actor patch]⟩
  else
    .error (.groupNotFound group)

/-- Take a post off the board. The last post of a group takes the group with it. -/
def deletePost (store : Store κ) (actor : Actor) (post : PostId) : Except PlanError (Plan κ) :=
  match store.locate? post with
  | none => .error (.postNotFound post)
  | some (id, index) =>
      match store.group? id with
      | none => .error (.groupNotFound id)
      | some group =>
          if group.isSingleton then
            .ok ⟨[.removeGroup id], [.deleteGroup id actor.board]⟩
          else
            match group.posts[index]? with
            | none => .error (.postNotFound post)
            | some current => .ok ⟨[.removePost current], [.deletePost post actor.board]⟩

variable [OrderKey κ]

/-- Put a new post on the canvas, in a group of its own and in front of everything. -/
def createPost (store : Store κ) (actor : Actor) (fresh : Fresh) (x y : Float) (color : Color)
    (grid : Option Int32) : Plan κ :=
  let (x, y) := Canvas.dropPosition x y grid
  let z := store.nextZ
  let post : Post κ :=
    ⟨fresh.post, actor.board, actor.user, "", color, Canvas.postHeight, fresh.group,
      OrderKey.first, fresh.now, fresh.now⟩
  let group : Group κ :=
    ⟨fresh.group, actor.board, "", x, y, z, [post], fresh.now, fresh.now⟩
  let creation : PostCreation κ :=
    ⟨fresh.post, actor.board, fresh.group, post.content, x, y, color, post.height, z, post.key⟩
  ⟨[.insertGroup group], [.createPost creation]⟩

/-- The plan for a gesture. New posts get the given color, and drops keep to the grid. -/
def ofGesture (store : Store κ) (actor : Actor) (fresh : Fresh) (color : Color)
    (grid : Option Int32) : Gesture → Except PlanError (Plan κ)
  | .createPost x y => .ok (createPost store actor fresh x y color grid)
  | .editPost post content height => editPost store actor post content height
  | .resizePost post height => resizePost store actor post height
  | .recolorPost post color => recolorPost store actor post color
  | .retitleGroup group title => retitleGroup store actor group title
  | .deletePost post => deletePost store actor post
  | .drop payload target => (drop store actor fresh payload target grid).mapError .refused

end Plan

end SharedBoard
