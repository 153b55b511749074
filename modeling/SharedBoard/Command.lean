import SharedBoard.Event

/-! What a client asks the server for. A message is a command with the request id that the
server may repeat in its answer.
-/

namespace SharedBoard

/-- A new post in a new group; the client chooses both identifiers. -/
structure PostCreation (κ : Type) where
  id : PostId
  board : BoardId
  group : GroupId
  content : String
  x : Int32
  y : Int32
  color : Color
  height : Int32
  z : Int32
  key : κ
deriving BEq, Inhabited

/-- A post taken out of its group into a new group of its own. -/
structure PostDetachment where
  post : PostId
  board : BoardId
  group : GroupId
  x : Int32
  y : Int32
  z : Int32
deriving DecidableEq, Inhabited

/-- A change of a group on a board. -/
structure GroupChange where
  board : BoardId
  patch : GroupPatch
deriving DecidableEq, Inhabited

/-- A request to the server. -/
inductive Command (κ : Type) where
  | authenticate (token : String)
  | connectBoard (board : BoardId)
  | createPost (creation : PostCreation κ)
  | updatePost (edit : PostEdit κ)
  | deletePost (post : PostId) (board : BoardId)
  | detachPost (detachment : PostDetachment)
  | focusPost (post : PostId) (board : BoardId)
  | updateGroup (change : GroupChange)
  | deleteGroup (group : GroupId) (board : BoardId)
deriving BEq, Inhabited

namespace Command

variable {κ : Type}

/-- The kind of event that answers a command. -/
def kind : Command κ → EventKind
  | .authenticate _ => .userAuthenticate
  | .connectBoard _ => .boardConnect
  | .createPost _ => .postCreate
  | .updatePost _ => .postUpdate
  | .deletePost .. => .postDelete
  | .detachPost _ => .postDetach
  | .focusPost .. => .postFocus
  | .updateGroup _ => .groupUpdate
  | .deleteGroup .. => .groupDelete

/-- The post or group that a command changes; handshake and focus change none. -/
def entity? : Command κ → Option Uuid
  | .authenticate _ => none
  | .connectBoard _ => none
  | .createPost creation => some creation.id
  | .updatePost edit => some edit.id
  | .deletePost post _ => some post
  | .detachPost detachment => some detachment.post
  | .focusPost .. => none
  | .updateGroup change => some change.patch.id
  | .deleteGroup group _ => some group

end Command

/-- A command with its request id, if it has one. -/
structure Message (κ : Type) where
  command : Command κ
  request : Option RequestId
deriving BEq, Inhabited

end SharedBoard
