import SharedBoard.Channel

/-! A transport holds one socket after another on behalf of a session. It reports what happens to
them, writes messages on the socket they were made for, and discards what was made for another
one. It ends when it is told to, or when nobody listens to its reports any more.
-/

namespace SharedBoard

/-- What a transport is doing. -/
inductive Phase where
  | connecting
  | open
  | waiting
  | ended
deriving DecidableEq, Repr

/-- A transport. Its generation counts the sockets that were opened so far, so that it is the
number of the open one. It is heard while somebody listens to its reports.
-/
structure Transport where
  phase : Phase
  generation : Nat
  isHeard : Bool
deriving DecidableEq, Repr

/-- What arrives on a socket. -/
inductive SocketFrame where
  | text (text : String)
  | close (reason : Option String)
  | ping (payload : String)
  | other
deriving DecidableEq, Repr

/-- What is written on a socket. -/
inductive Transmission where
  | message (message : Message Float)
  | pong (payload : String)
  | close
deriving BEq

/-- Anything that can happen to a transport. An item taken from the queue may meet a socket that
refuses to be written on.
-/
inductive Occurrence where
  | connected
  | failed (reason : String)
  | arrived (frame : SocketFrame)
  | lost (reason : Option String)
  | taken (item : Outgoing Float) (refusal : Option String)
  | abandoned
  | delayOver
  | unheard

/-- What comes of an occurrence: the next state, the reports, and what is written. -/
structure Activity where
  transport : Transport
  events : List TransportEvent
  written : List Transmission

namespace Activity

def quiet (transport : Transport) : Activity :=
  ⟨transport, [], []⟩

/-- What follows an activity, after it. -/
def andThen (activity : Activity) (step : Transport → Activity) : Activity :=
  let next := step activity.transport
  ⟨next.transport, activity.events ++ next.events, activity.written ++ next.written⟩

end Activity

namespace Transport

/-- Go on to a phase with a report; without a listener the transport ends instead. -/
def proceed (transport : Transport) (phase : Phase) (event : TransportEvent) : Activity :=
  if transport.isHeard then ⟨{ transport with phase := phase }, [event], []⟩
  else .quiet { transport with phase := .ended }

def connect (transport : Transport) : Activity :=
  transport.proceed .connecting .connecting

/-- A transport that has just been started. -/
def start : Activity :=
  connect ⟨.connecting, 0, true⟩

/-- The attempt or the socket failed; the next attempt comes after a delay. -/
def lose (transport : Transport) (reason : String) : Activity :=
  transport.proceed .waiting (.closed reason)

/-- Write something before anything else happens. -/
def writing (transmission : Transmission) (activity : Activity) : Activity :=
  { activity with written := transmission :: activity.written }

def finish (transport : Transport) : Activity :=
  writing .close (transport.proceed .ended (.closed "closed by client"))

def onConnected (transport : Transport) : Activity :=
  let generation := transport.generation + 1
  { transport with generation := generation }.proceed .open (.opened generation)

/-- Something arrived on the open socket. Only texts are reported, and without a listener they
end the transport.
-/
def onFrame (transport : Transport) : SocketFrame → Activity
  | .text text =>
      if transport.isHeard then ⟨transport, [.message text], []⟩ else transport.finish
  | .close reason =>
      transport.lose ((reason.filter (!·.isEmpty)).getD "closed by server")
  | .ping payload => writing (.pong payload) (.quiet transport)
  | .other => .quiet transport

/-- An item was taken from the queue while a socket is open. -/
def onItem (transport : Transport) (refusal : Option String) : Outgoing Float → Activity
  | .message generation message =>
      if generation = transport.generation then
        match refusal with
        | none => writing (.message message) (.quiet transport)
        | some reason => transport.lose reason
      else
        .quiet transport
  | .reconnect => writing .close (transport.lose "reconnect requested")
  | .shutdown => transport.finish

/-- An item was taken from the queue between two sockets: only a shutdown counts. -/
def onItemWaiting (transport : Transport) : Outgoing Float → Activity
  | .shutdown => .quiet { transport with phase := .ended }
  | _ => .quiet transport

/-- What comes of an occurrence. What cannot happen in a phase changes nothing. -/
def step (transport : Transport) (occurrence : Occurrence) : Activity :=
  match transport.phase, occurrence with
  | _, .unheard => .quiet { transport with isHeard := false }
  | .connecting, .connected => transport.onConnected
  | .connecting, .failed reason => transport.lose reason
  | .open, .arrived frame => transport.onFrame frame
  | .open, .lost reason => transport.lose (reason.getD "stream ended")
  | .open, .taken item refusal => transport.onItem refusal item
  | .open, .abandoned => transport.finish
  | .waiting, .taken item _ => transport.onItemWaiting item
  | .waiting, .abandoned => .quiet { transport with phase := .ended }
  | .waiting, .delayOver => transport.connect
  | _, _ => .quiet transport

/-- What comes of several occurrences in order. -/
def run (transport : Transport) (occurrences : List Occurrence) : Activity :=
  occurrences.foldl (fun activity occurrence => activity.andThen (·.step occurrence))
    (.quiet transport)

-----------------------------------------------------------------------------------------
-- Queue
-----------------------------------------------------------------------------------------

/-- Whether the transport takes items from its queue. During an attempt to connect they wait. -/
def isTaking (transport : Transport) : Bool :=
  transport.phase == .open || transport.phase == .waiting

/-- Take items from a queue for as long as the transport does; the others stay there. -/
def drain (transport : Transport) : List (Outgoing Float) → Activity × List (Outgoing Float)
  | [] => (.quiet transport, [])
  | item :: rest =>
      if transport.isTaking then
        let first := transport.step (.taken item none)
        let (others, left) := drain first.transport rest
        (first.andThen fun _ => others, left)
      else
        (.quiet transport, item :: rest)

end Transport

end SharedBoard
