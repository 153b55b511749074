import SharedBoard.User

/-! A board as such: its owner and its members. What stands on it is kept elsewhere. -/

namespace SharedBoard

/-- A board and the people it is shared with. -/
structure Board where
  id : BoardId
  name : Option String
  description : Option String
  owner : UserId
  members : List Member
  createdAt : Instant
  updatedAt : Instant
deriving DecidableEq, Inhabited

namespace Board

/-- The name of a member, which labels the posts of that user. -/
def memberName? (board : Board) (user : UserId) : Option String :=
  (board.members.find? (·.user.id == user)).map (·.user.name)

/-- Whether a user owns the board. -/
def isOwner (board : Board) (user : UserId) : Bool :=
  board.owner == user

end Board

end SharedBoard
