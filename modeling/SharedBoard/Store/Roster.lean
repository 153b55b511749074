import SharedBoard.Store

/-! Who is connected, and who is typing on what. A roster is replaced as a whole; calls that have
nothing to do leave it alone.
-/

namespace SharedBoard

namespace Participant

/-- The participant typing on nothing, if they were typing on the given post. -/
def stopTypingOn (post : PostId) (participant : Participant) : Participant :=
  if participant.typing = some post then { participant with typing := none } else participant

/-- The participant after a user began to type on a post: the user types there and nobody else
does.
-/
def focusedBy (user : UserId) (post : PostId) (participant : Participant) : Participant :=
  if participant.user.id = user then { participant with typing := some post }
  else participant.stopTypingOn post

end Participant

namespace Store

variable {κ : Type}

def withRoster (store : Store κ) (roster : List Participant) : Update κ :=
  ⟨{ store with roster := roster }, .ofRoster⟩

/-- The first of several users with one identifier. -/
def firstOfEach (users : List User) : List User :=
  users.foldl (fun kept user => if kept.any (·.id == user.id) then kept else kept ++ [user]) []

/-- Replace the roster by the users that are connected and the one who joins. Users who stay go on
typing on what they were typing on.
-/
def joined (store : Store κ) (connected : List User) (newUser : User) : Update κ :=
  store.withRoster ((firstOfEach (connected ++ [newUser])).map fun user =>
    ⟨user, (store.roster.find? (·.user.id == user.id)).bind (·.typing)⟩)

def left (store : Store κ) (user : UserId) : Update κ :=
  if store.isConnected user then
    store.withRoster (store.roster.filter (·.user.id != user))
  else
    store.unchanged

/-- A user who is connected began to type on a post. -/
def focused (store : Store κ) (user : UserId) (post : PostId) : Update κ :=
  if store.isConnected user then
    store.withRoster (store.roster.map (·.focusedBy user post))
  else
    store.unchanged

def rosterCleared (store : Store κ) : Update κ :=
  if store.roster.isEmpty then store.unchanged else store.withRoster []

/-- Nobody is typing on a post any more. -/
def typingStopped (store : Store κ) (post : PostId) : Update κ :=
  if (store.typingOn? post).isNone then
    store.unchanged
  else
    store.withRoster (store.roster.map (·.stopTypingOn post))

/-- Whether a participant is typing on a post that is not on the board. -/
def isTypingNowhere (store : Store κ) (participant : Participant) : Bool :=
  participant.typing.any (fun post => (store.locate? post).isNone)

/-- Nobody is typing on posts that are not on the board any more. -/
def typingStoppedNowhere (store : Store κ) : Update κ :=
  if store.roster.any store.isTypingNowhere then
    store.withRoster (store.roster.map fun participant =>
      if store.isTypingNowhere participant then { participant with typing := none }
      else participant)
  else
    store.unchanged

end Store

end SharedBoard
