/-! The life cycle of a channel as a session sees it: connecting, then the handshake, then live
until the channel drops. Closing is for good.
-/

namespace SharedBoard

/-- The state of the channel. While authenticating it is open but the board is not joined. -/
inductive ConnectionState where
  | connecting
  | authenticating
  | connected
  | closing
  | closed
deriving DecidableEq, Repr, Inhabited

namespace ConnectionState

def name : ConnectionState → String
  | .connecting => "connecting"
  | .authenticating => "authenticating"
  | .connected => "connected"
  | .closing => "closing"
  | .closed => "closed"

/-- Gestures are accepted only on a live board. -/
def isBlocked (state : ConnectionState) : Bool :=
  state != .connected

/-- The text that covers a board that is not live. -/
def overlay? : ConnectionState → Option String
  | .connected => none
  | .connecting | .authenticating => some "Connecting to board"
  | .closing | .closed => some "Not connected, try refreshing"

end ConnectionState

/-- The bookkeeping of a channel. The generation is that of the open socket; a terminal link has
been asked to close.
-/
structure Link where
  state : ConnectionState
  generation : Option Nat
  isAuthenticated : Bool
  isTerminal : Bool
deriving DecidableEq, Inhabited

namespace Link

/-- A link before the first attempt to connect. -/
def initial : Link :=
  ⟨.connecting, none, false, false⟩

/-- Go to a state, and tell it if it is another one. -/
def enter (link : Link) (state : ConnectionState) : Link × Option ConnectionState :=
  ({ link with state := state }, if link.state = state then none else some state)

def connecting (link : Link) : Link × Option ConnectionState :=
  if link.isTerminal then (link, none)
  else { link with generation := none, isAuthenticated := false }.enter .connecting

/-- A socket is open, and the handshake begins. -/
def opened (link : Link) (generation : Nat) : Link × Option ConnectionState :=
  if link.isTerminal then (link, none)
  else { link with generation := some generation, isAuthenticated := false }.enter .authenticating

def authenticated (link : Link) : Link :=
  if link.state = .authenticating then { link with isAuthenticated := true } else link

/-- The server let the user join, which counts only after authentication. -/
def boardJoined (link : Link) : Link × Option ConnectionState :=
  if link.state = .authenticating ∧ link.isAuthenticated then link.enter .connected
  else (link, none)

def dropped (link : Link) : Link × Option ConnectionState :=
  { link with generation := none, isAuthenticated := false }.enter .closed

/-- The channel is to be closed for good: at once without a socket, otherwise when it goes. -/
def closeRequested (link : Link) : Link × Option ConnectionState :=
  if link.isTerminal then (link, none)
  else
    { link with isTerminal := true }.enter
      (if link.generation.isNone then .closed else .closing)

end Link

end SharedBoard
