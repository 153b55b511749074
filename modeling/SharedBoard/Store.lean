import SharedBoard.Canvas
import SharedBoard.Store.Change
import SharedBoard.Store.Table
import SharedBoard.User

/-! The state of a board: its groups, who is connected, and the highest z-index ever seen. States
are values; a call on one returns the next state together with what it rebuilt.
-/

namespace SharedBoard

/-- A connected user, and the post they are typing on. -/
structure Participant where
  user : User
  typing : Option PostId
deriving DecidableEq, Inhabited

/-- The state of a board. The highest z-index never decreases. -/
structure Store (κ : Type) where
  groups : GroupTable κ
  roster : List Participant
  maxZ : Int32
deriving Inhabited

/-- The state that a call leads to, and what the call rebuilt. -/
structure Update (κ : Type) where
  store : Store κ
  change : Change

namespace Store

variable {κ : Type}

-----------------------------------------------------------------------------------------
-- Queries
-----------------------------------------------------------------------------------------

def group? (store : Store κ) (id : GroupId) : Option (Group κ) :=
  store.groups.find? id

/-- The place of a post: its group and its index there. -/
def locate? (store : Store κ) (post : PostId) : Option (GroupId × Nat) :=
  store.groups.locate? post none

def post? (store : Store κ) (post : PostId) : Option (Post κ) := do
  let (id, index) ← store.locate? post
  let group ← store.group? id
  group.posts[index]?

/-- The groups in the order in which they are painted, the lowest z-index first and equal ones by
identifier. Sorting is stable and the table lists groups by identifier.
-/
def paintOrder (store : Store κ) : List (Group κ) :=
  store.groups.toList.mergeSort (fun left right => left.z ≤ right.z)

def groupCount (store : Store κ) : Nat :=
  store.groups.size

def postCount (store : Store κ) : Nat :=
  store.groups.toList.foldr (fun group others => group.posts.length + others) 0

/-- A z-index above everything on the board. -/
def nextZ (store : Store κ) : Int32 :=
  store.maxZ + 1

def extent (store : Store κ) : Int32 × Int32 :=
  Canvas.extent store.groups.toList

def isConnected (store : Store κ) (user : UserId) : Bool :=
  store.roster.any (·.user.id == user)

/-- Who is typing on a post. -/
def typingOn? (store : Store κ) (post : PostId) : Option User :=
  (store.roster.find? (·.typing == some post)).map (·.user)

-----------------------------------------------------------------------------------------
-- Construction
-----------------------------------------------------------------------------------------

/-- The board without groups and people. -/
def empty : Store κ :=
  ⟨.empty, [], 0⟩

/-- The board that a list of groups describes. Groups without posts are left out, and of several
with one identifier the last stays; the z-indexes of all the others still count.
-/
def ofGroups [OrderKey κ] (groups : List (Group κ)) : Store κ :=
  let kept := groups.filter (fun group => !group.posts.isEmpty)
  { groups := GroupTable.ofList
      (kept.map (fun group => { group with posts := Post.sorted group.posts }))
    roster := []
    maxZ := kept.foldl (fun highest group => max highest group.z) 0 }

/-- The result of a call that changes nothing: the state itself. -/
def unchanged (store : Store κ) : Update κ :=
  ⟨store, .nothing⟩

end Store

namespace Update

variable {κ : Type}

/-- Make another call on the state that a call led to. -/
def andThen (update : Update κ) (call : Store κ → Update κ) : Update κ :=
  let next := call update.store
  ⟨next.store, update.change ++ next.change⟩

/-- The state is the very same as before the call. -/
def isSame (update : Update κ) : Bool :=
  update.change.isNothing

/-- The groups of the new state that were rebuilt or added, in the order of painting. -/
def replaced (update : Update κ) : List GroupId :=
  (update.store.paintOrder.map (·.id)).filter (update.change.groups.contains ·)

/-- The state after two calls is the second call's on the first one's, by definition. -/
@[simp] theorem andThen_store (update : Update κ) (call : Store κ → Update κ)
    : (update.andThen call).store = (call update.store).store :=
  rfl

end Update

end SharedBoard
