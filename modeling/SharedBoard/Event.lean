import SharedBoard.Group
import SharedBoard.User

/-! What happens on a board, as the server reports it. Every event is of one of ten kinds, and
the kinds have the names that stand in wire frames.
-/

namespace SharedBoard

/-- The kinds of events. -/
inductive EventKind where
  | userAuthenticate
  | boardConnect
  | boardDisconnect
  | postCreate
  | postUpdate
  | postDelete
  | postDetach
  | postFocus
  | groupUpdate
  | groupDelete
deriving DecidableEq, Repr, Inhabited

namespace EventKind

def all : List EventKind :=
  [.userAuthenticate, .boardConnect, .boardDisconnect, .postCreate, .postUpdate, .postDelete,
    .postDetach, .postFocus, .groupUpdate, .groupDelete]

/-- The name of a kind in wire frames. -/
def name : EventKind → String
  | .userAuthenticate => "user.authenticate"
  | .boardConnect => "board.connect"
  | .boardDisconnect => "board.disconnect"
  | .postCreate => "post.create"
  | .postUpdate => "post.update"
  | .postDelete => "post.delete"
  | .postDetach => "post.detach"
  | .postFocus => "post.focus"
  | .groupUpdate => "post_group.update"
  | .groupDelete => "post_group.delete"

def ofName? (name : String) : Option EventKind :=
  all.find? (·.name == name)

/-- Every kind is found by its own name, by checking all of them. -/
@[simp] theorem ofName?_name (kind : EventKind)
    : ofName? kind.name = some kind := by
  cases kind <;> decide

/-- A kind found by a name has that name, since the search compares names. -/
theorem name_of_ofName? {name : String} {kind : EventKind} (found : ofName? name = some kind)
    : kind.name = name := by
  simpa using List.find?_some found

end EventKind

/-- A successful event with what it carries. -/
inductive Event (κ : Type) where
  | authenticated (user : User)
  | boardConnected (connected : List User) (newUser : User)
  | boardDisconnected (user : UserId)
  | postCreated (post : Post κ) (group : Group κ)
  | postUpdated (post : Post κ) (old : Option (Post κ))
  | postDeleted (post : Post κ)
  | postDetached (post : Post κ) (group : Group κ)
  | postFocused (post : Post κ) (user : User)
  | groupUpdated (patch : GroupPatch)
  | groupDeleted (group : GroupId)

namespace Event

variable {κ : Type}

def kind : Event κ → EventKind
  | .authenticated _ => .userAuthenticate
  | .boardConnected .. => .boardConnect
  | .boardDisconnected _ => .boardDisconnect
  | .postCreated .. => .postCreate
  | .postUpdated .. => .postUpdate
  | .postDeleted _ => .postDelete
  | .postDetached .. => .postDetach
  | .postFocused .. => .postFocus
  | .groupUpdated _ => .groupUpdate
  | .groupDeleted _ => .groupDelete

/-- The post or group that an event changes, which answers without a request id are matched by. -/
def entity? : Event κ → Option Uuid
  | .postCreated post _ => some post.id
  | .postUpdated post _ => some post.id
  | .postDeleted post => some post.id
  | .postDetached post _ => some post.id
  | .groupUpdated patch => some patch.id
  | .groupDeleted group => some group
  | _ => none

end Event

end SharedBoard
