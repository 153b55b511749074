import SharedBoard.Color
import SharedBoard.Instant
import SharedBoard.OrderKey
import SharedBoard.Uuid

/-! Posts are notes with a color and a height. Each names its group and has an order key there. -/

namespace SharedBoard

/-- A note on a board. -/
structure Post (κ : Type) where
  id : PostId
  board : BoardId
  author : UserId
  content : String
  color : Color
  height : Int32
  group : GroupId
  key : κ
  createdAt : Instant
  updatedAt : Instant
deriving BEq, Inhabited

/-- A partial change of a post; fields without a value stay as they are. -/
structure PostEdit (κ : Type) where
  id : PostId
  board : BoardId
  content : Option String
  color : Option Color
  height : Option Int32
  group : Option GroupId
  key : Option κ
deriving BEq, Inhabited

namespace PostEdit

variable {κ : Type}

/-- The change of a post that sets nothing. -/
def nothing (id : PostId) (board : BoardId) : PostEdit κ :=
  ⟨id, board, none, none, none, none, none⟩

/-- The post with every field that the change sets. -/
def applyTo (edit : PostEdit κ) (post : Post κ) : Post κ :=
  { post with
    content := edit.content.getD post.content
    color := edit.color.getD post.color
    height := edit.height.getD post.height
    group := edit.group.getD post.group
    key := edit.key.getD post.key }

/-- A change that sets nothing leaves a post as it is, field by field. -/
@[simp] theorem nothing_applyTo (id : PostId) (board : BoardId) (post : Post κ)
    : (nothing id board).applyTo post = post :=
  rfl

end PostEdit

namespace Post

variable {κ : Type} [OrderKey κ]

/-- Put a post into a list at the index that its key dictates. -/
def insertInto (posts : List (Post κ)) (post : Post κ) : List (Post κ) :=
  posts.insertIdx (OrderKey.insertionIndex (posts.map (·.key)) post.key) post

/-- Posts sorted by the total order of their keys; posts with the same key keep their order. -/
def sorted (posts : List (Post κ)) : List (Post κ) :=
  posts.mergeSort (fun left right => OrderKey.sortsBefore left.key right.key)

end Post

end SharedBoard
