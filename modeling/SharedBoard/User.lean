import SharedBoard.Instant
import SharedBoard.Uuid

/-! People: users, and the members of a board. -/

namespace SharedBoard

/-- A user, registered or guest. -/
structure User where
  id : UserId
  name : String
  email : Option String
  isGuest : Bool
  isVerified : Bool
  createdAt : Option Instant
  updatedAt : Option Instant
deriving DecidableEq, Inhabited

/-- What a member may do on a board. -/
inductive Role where
  | member
  | admin
deriving DecidableEq, Repr, Inhabited

/-- How a user belongs to a board. -/
structure Membership where
  role : Role
  addedAt : Option Instant
  updatedAt : Option Instant
deriving DecidableEq, Inhabited

/-- A user who belongs to a board. -/
structure Member where
  user : User
  membership : Membership
deriving DecidableEq, Inhabited

end SharedBoard
