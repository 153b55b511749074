import SharedBoard.Post

/-! Groups are piles of posts at a position on the board, painted in the order of their z-index. -/

namespace SharedBoard

/-- A pile of posts, in the order of their keys. -/
structure Group (κ : Type) where
  id : GroupId
  board : BoardId
  title : String
  x : Int32
  y : Int32
  z : Int32
  posts : List (Post κ)
  createdAt : Instant
  updatedAt : Instant
deriving BEq, Inhabited

/-- A partial change of a group; fields without a value stay as they are. -/
structure GroupPatch where
  id : GroupId
  title : Option String
  x : Option Int32
  y : Option Int32
  z : Option Int32
  updatedAt : Option Instant
deriving DecidableEq, Inhabited

namespace Group

variable {κ : Type}

/-- A group of one post has no title bar and is dragged as that post. -/
def isSingleton (group : Group κ) : Bool :=
  group.posts.length == 1

/-- The index of a post in the group. -/
def indexOf? (group : Group κ) (post : PostId) : Option Nat :=
  group.posts.findIdx? (·.id == post)

/-- The group with its posts sorted and made to name it. -/
def normalized [OrderKey κ] (group : Group κ) : Group κ :=
  { group with
    posts := (Post.sorted group.posts).map (fun post => { post with group := group.id }) }

end Group

namespace GroupPatch

variable {κ : Type}

/-- The change of a group that sets nothing. -/
def nothing (id : GroupId) : GroupPatch :=
  ⟨id, none, none, none, none, none⟩

/-- The group with every field that the change sets. -/
def applyTo (patch : GroupPatch) (group : Group κ) : Group κ :=
  { group with
    title := patch.title.getD group.title
    x := patch.x.getD group.x
    y := patch.y.getD group.y
    z := patch.z.getD group.z
    updatedAt := patch.updatedAt.getD group.updatedAt }

/-- A change that sets nothing leaves a group as it is, field by field. -/
@[simp] theorem nothing_applyTo (id : GroupId) (group : Group κ)
    : (nothing id).applyTo group = group :=
  rfl

/-- A change never gives a group another identifier, since it sets none. -/
@[simp] theorem applyTo_id (patch : GroupPatch) (group : Group κ)
    : (patch.applyTo group).id = group.id :=
  rfl

/-- A change never touches the posts of a group, since it names none. -/
@[simp] theorem applyTo_posts (patch : GroupPatch) (group : Group κ)
    : (patch.applyTo group).posts = group.posts :=
  rfl

end GroupPatch

end SharedBoard
