import SharedBoard.Channel
import SharedBoard.Ledger
import SharedBoard.Link
import SharedBoard.Plan.Gesture
import SharedBoard.Wire.Frame

/-! A session on one board. What the transport reports and what the user does come in; notices
for the user and requests to the transport go out. The session shows one state of the board, in
which gestures take effect at once, and keeps beside it the state that the server has confirmed.
-/

namespace SharedBoard

/-- Something that the user should know. -/
inductive Notice where
  | stateChanged (state : ConnectionState)
  | applied (event : Event Float)
  | rejected (kind : EventKind) (message : String)
  | rolledBack (kind : EventKind)

/-- The state of a session. What the visible and the confirmed board do not share is kept apart
from both, since it decides what is rebuilt when the visible board is made anew.
-/
structure Session where
  board : Board
  visible : Store Float
  confirmed : Store Float
  apart : Change
  link : Link
  token : Option String
  user : Option User
  ledger : Ledger Float
  color : Color
  grid : Option Int32

/-- What comes of a step: the next state, what goes out, and what of the visible board was
rebuilt.
-/
structure Reaction where
  session : Session
  notices : List Notice
  sent : List (Outgoing Float)
  change : Change

namespace Reaction

/-- Nothing goes out and nothing is rebuilt. -/
def quiet (session : Session) : Reaction :=
  ⟨session, [], [], .nothing⟩

/-- Take another step after a first one. -/
def andThen (reaction : Reaction) (step : Session → Reaction) : Reaction :=
  let next := step reaction.session
  ⟨next.session, reaction.notices ++ next.notices, reaction.sent ++ next.sent,
    reaction.change ++ next.change⟩

end Reaction

/-- Why a gesture is refused. -/
inductive GestureError where
  | notConnected (state : ConnectionState)
  | noPlan (error : PlanError)
deriving DecidableEq

def GestureError.message : GestureError → String
  | .notConnected state => "board is not connected (" ++ state.name ++ ")"
  | .noPlan error => error.message

namespace Session

-----------------------------------------------------------------------------------------
-- Beginning
-----------------------------------------------------------------------------------------

/-- A session on a board with the given groups. Without a token it can not join. -/
def start (board : Board) (groups : List (Group Float)) (token : Option String)
    (color : Color) (grid : Option Int32) : Session :=
  let store := Store.ofGroups groups
  { board := board
    visible := store
    confirmed := store
    apart := .nothing
    link := .initial
    token := token
    user := none
    ledger := .empty
    color := color
    grid := grid }

def state (session : Session) : ConnectionState :=
  session.link.state

-----------------------------------------------------------------------------------------
-- Transport
-----------------------------------------------------------------------------------------

/-- Follow the link, and tell the state that it changed to. -/
def follow (session : Session) (step : Link × Option ConnectionState) : Reaction :=
  ⟨{ session with link := step.1 }, (step.2.map .stateChanged).toList, [], .nothing⟩

/-- Send a message on the socket of a generation. -/
def send (session : Session) (generation : Nat) (command : Command Float) : Reaction :=
  ⟨session, [], [.message generation ⟨command, none⟩], .nothing⟩

/-- Forget everything that belonged to the last channel. The visible board stays, and counts as
confirmed from now on.
-/
def reset (session : Session) : Reaction :=
  let update := session.visible.rosterCleared
  ⟨{ session with
      user := none
      visible := update.store
      confirmed := update.store
      apart := .nothing
      ledger := .empty },
    [], [], update.change⟩

def close (session : Session) : Reaction :=
  (session.follow session.link.closeRequested).andThen fun session =>
    ⟨session, [], [.shutdown], .nothing⟩

/-- Send the token on a socket; without one, give the channel up. -/
def authenticate (session : Session) (generation : Nat) : Reaction :=
  match session.token with
  | some token => session.send generation (.authenticate token)
  | none => session.close

/-- The server accepted the token: join the board, if that was what the socket is waiting for. -/
def onAuthenticated (session : Session) (user : User) : Reaction :=
  match session.link.generation with
  | none => .quiet session
  | some generation =>
      if session.state = .authenticating then
        { session with user := some user, link := session.link.authenticated }.send generation
          (.connectBoard session.board.id)
      else
        .quiet session

/-- Both boards follow an event, each on its own. -/
def reduceBoth (session : Session) (event : Event Float) : Reaction :=
  let localUser := session.user.map (·.id)
  let confirmed := session.confirmed.reduce localUser event
  let visible := session.visible.reduce localUser event
  ⟨{ session with
      visible := visible.store
      confirmed := confirmed.store
      apart := session.apart ++ confirmed.change ++ visible.change },
    [], [], visible.change⟩

/-- The board is joined when the server names the local user as the one who joins. -/
def joinIfOwn (session : Session) (event : Event Float) : Reaction :=
  match event with
  | .boardConnected _ newUser =>
      if session.user.map (·.id) = some newUser.id then session.follow session.link.boardJoined
      else .quiet session
  | _ => .quiet session

/-- An event happened. It may answer one of our requests; the boards follow it either way. -/
def onEvent (session : Session) (event : Event Float) (answer : Option RequestId) : Reaction :=
  match event with
  | .authenticated user => session.onAuthenticated user
  | event =>
      let (ledger, _) := session.ledger.confirm event.kind event.entity? answer
      (({ session with ledger := ledger }.reduceBoth event).andThen
        (·.joinIfOwn event)).andThen fun session =>
          ⟨session, [.applied event], [], .nothing⟩

/-- Undo the operation that a refusal is meant for: the visible board is the confirmed one with
what is still in flight applied again.
-/
def rollBack (session : Session) (kind : EventKind) (answer : Option RequestId) : Reaction :=
  match session.ledger.reject? kind answer with
  | none => .quiet session
  | some (_, ledger) =>
      let update := ledger.replay session.confirmed
      ⟨{ session with
          ledger := ledger
          visible := update.store
          apart := update.change },
        [.rolledBack kind], [], session.apart ++ update.change⟩

/-- The server refused a request. A refused token calls for another channel. -/
def onRejected (session : Session) (kind : EventKind) (message : String)
    (answer : Option RequestId) : Reaction :=
  (if kind = .userAuthenticate then
      (⟨session, [], [.reconnect], .nothing⟩ : Reaction)
    else
      session.rollBack kind answer).andThen fun session =>
        ⟨session, [.rejected kind message], [], .nothing⟩

/-- A frame arrived; one that means nothing is skipped. -/
def onMessage (session : Session) (text : String) : Reaction :=
  match Inbound.ofText text with
  | .ok (.applied event answer) => session.onEvent event answer
  | .ok (.rejected kind message answer) => session.onRejected kind message answer
  | .error _ => .quiet session

def handle (session : Session) : TransportEvent → Reaction
  | .connecting => session.follow session.link.connecting
  | .opened generation =>
      if session.link.isTerminal then
        .quiet session
      else
        (session.reset.andThen fun session => session.follow (session.link.opened generation))
          |>.andThen (·.authenticate generation)
  | .message text => session.onMessage text
  | .closed _ => session.reset.andThen fun session => session.follow session.link.dropped

-----------------------------------------------------------------------------------------
-- Gestures
-----------------------------------------------------------------------------------------

/-- The generation and the identity to act with on a live board. -/
def live (session : Session) : Except GestureError (Nat × Actor) :=
  match session.state, session.link.generation, session.user with
  | .connected, some generation, some user => .ok (generation, ⟨session.board.id, user.id⟩)
  | state, _, _ => .error (.notConnected state)

/-- Carry a plan out: on the visible board, in the ledger, and towards the server. -/
def commit (session : Session) (generation : Nat) (plan : Plan Float)
    (requests : Nat → RequestId) : Reaction :=
  let messages := plan.messages requests
  let update := plan.apply session.visible
  ⟨{ session with
      visible := update.store
      apart := session.apart ++ update.change
      ledger := session.ledger.record messages plan.mutations },
    [], messages.map (.message generation), update.change⟩

/-- The color that new posts get after a gesture: that of the last post that was recolored. -/
def colorAfter (session : Session) : Gesture → Color
  | .recolorPost _ color => color
  | _ => session.color

/-- Make a gesture. Identifiers and time come from outside. -/
def perform (session : Session) (gesture : Gesture) (fresh : Fresh)
    (requests : Nat → RequestId) : Except GestureError Reaction := do
  let (generation, actor) ← session.live
  let plan ←
    (Plan.ofGesture session.visible actor fresh session.color session.grid gesture).mapError .noPlan
  .ok ({ session with color := session.colorAfter gesture }.commit generation plan requests)

/-- Tell the others that the user is typing on a post; nothing changes here. -/
def focusPost (session : Session) (post : PostId) : Except GestureError Reaction := do
  let (generation, actor) ← session.live
  if (session.visible.post? post).isSome then
    .ok (session.send generation (.focusPost post actor.board))
  else
    .error (.noPlan (.postNotFound post))

/-- Choose the color of new posts. -/
def setColor (session : Session) (color : Color) : Session :=
  { session with color := color }

-----------------------------------------------------------------------------------------
-- Runs
-----------------------------------------------------------------------------------------

/-- Anything that can happen to a session. Gestures bring what they take from outside. -/
inductive Input where
  | transport (event : TransportEvent)
  | gesture (gesture : Gesture) (fresh : Fresh) (requests : Nat → RequestId)
  | focus (post : PostId)
  | setColor (color : Color)
  | close

/-- What comes of an input; a refused gesture leaves the session as it is. -/
def step (session : Session) : Input → Reaction
  | .transport event => session.handle event
  | .gesture gesture fresh requests =>
      match session.perform gesture fresh requests with
      | .ok reaction => reaction
      | .error _ => .quiet session
  | .focus post =>
      match session.focusPost post with
      | .ok reaction => reaction
      | .error _ => .quiet session
  | .setColor color => .quiet (session.setColor color)
  | .close => session.close

/-- What comes of several inputs in order. -/
def run (session : Session) (inputs : List Input) : Reaction :=
  inputs.foldl (fun reaction input => reaction.andThen (·.step input)) (.quiet session)

end Session

end SharedBoard
