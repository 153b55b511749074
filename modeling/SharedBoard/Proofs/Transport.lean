import SharedBoard.Transport

/-! Steps of a transport. A step keeps the socket that is open or gives it up, and only a successful
attempt to connect opens another one; messages are written as they are taken from the queue.
-/

namespace SharedBoard

/-- The message that is written. -/
def Transmission.message? : Transmission → Option (Message Float)
  | .message sent => some sent
  | _ => none

/-- Whether an occurrence takes an item from the queue. -/
def Occurrence.takes : Occurrence → Bool
  | .taken _ _ => true
  | _ => false

/-- The message that an item of the queue holds for a socket. -/
def Outgoing.messageFor? {κ : Type} (generation : Nat) : Outgoing κ → Option (Message κ)
  | .message stamp held => if stamp = generation then some held else none
  | _ => none

theorem Outgoing.messageFor?_eq_some {κ : Type} {generation : Nat} {item : Outgoing κ}
    {message : Message κ}
    : item.messageFor? generation = some message ↔ item = .message generation message := by
  cases item with
  | message stamp other => simp [messageFor?]
  | _ => simp [messageFor?]

namespace Transport

/-- The generation of the open socket. -/
def current? (transport : Transport) : Option Nat :=
  if transport.phase = .open then some transport.generation else none

variable {transport : Transport} {generation : Nat}

theorem current?_eq_some
    : transport.current? = some generation
      ↔ transport.phase = .open ∧ transport.generation = generation := by
  simp [current?]

/-- What comes of a step that opens no socket: the generation stays, only a socket that was open
is open, and frames are reported only from one.
-/
structure Keeps (transport : Transport) (activity : Activity) : Prop where
  generation : activity.transport.generation = transport.generation
  still : activity.transport.phase = .open → transport.phase = .open
  unopened : ∀ generation, .opened generation ∉ activity.events
  onSocket : ∀ text, .message text ∈ activity.events → transport.phase = .open

theorem Keeps.current? {activity : Activity} (keeps : transport.Keeps activity)
    (current : activity.transport.current? = some generation)
    : transport.current? = some generation := by
  obtain ⟨phase, same⟩ := current?_eq_some.mp current
  exact current?_eq_some.mpr ⟨keeps.still phase, keeps.generation ▸ same⟩

/-- Nothing happens. -/
theorem Keeps.quiet : transport.Keeps (.quiet transport) :=
  ⟨rfl, id, fun _ => List.not_mem_nil, fun _ member => absurd member List.not_mem_nil⟩

/-- A transport that is not open any more keeps its generation. -/
theorem Keeps.quiet_ended : transport.Keeps (.quiet { transport with phase := .ended }) :=
  ⟨rfl, fun still => Phase.noConfusion still, fun _ => List.not_mem_nil,
    fun _ member => absurd member List.not_mem_nil⟩

theorem Keeps.writing {activity : Activity} (keeps : transport.Keeps activity)
    (transmission : Transmission)
    : transport.Keeps (writing transmission activity) :=
  ⟨keeps.generation, keeps.still, keeps.unopened, keeps.onSocket⟩

/-- Going on to another phase than that of an open socket gives a socket up. -/
theorem keeps_proceed {phase : Phase} {event : TransportEvent} (notOpen : phase ≠ .open)
    (unopened : ∀ generation, event ≠ .opened generation) (noFrame : ∀ text, event ≠ .message text)
    : transport.Keeps (transport.proceed phase event) := by
  unfold proceed
  split
  · exact ⟨rfl, fun still => absurd still notOpen,
      fun generation member => unopened generation (List.mem_singleton.mp member).symm,
      fun text member => absurd (List.mem_singleton.mp member).symm (noFrame text)⟩
  · exact .quiet_ended

theorem keeps_lose (reason : String) : transport.Keeps (transport.lose reason) :=
  keeps_proceed (by decide) (by simp) (by simp)

theorem keeps_finish : transport.Keeps transport.finish :=
  (keeps_proceed (by decide) (by simp) (by simp)).writing _

/-- Whatever arrives on an open socket, no other one is opened for it. -/
theorem keeps_onFrame (isOpen : transport.phase = .open) (frame : SocketFrame)
    : transport.Keeps (transport.onFrame frame) := by
  cases frame with
  | text text =>
      simp only [onFrame]
      split
      · exact ⟨rfl, id, by simp, fun _ _ => isOpen⟩
      · exact keeps_finish
  | close reason => exact keeps_lose _
  | ping payload => exact Keeps.quiet.writing _
  | other => exact .quiet

/-- Whatever is taken from the queue, no socket is opened for it. -/
theorem keeps_onItem (refusal : Option String) (item : Outgoing Float)
    : transport.Keeps (transport.onItem refusal item) := by
  cases item with
  | message stamp message =>
      simp only [onItem]
      split
      · cases refusal
        · exact Keeps.quiet.writing _
        · exact keeps_lose _
      · exact .quiet
  | reconnect => exact (keeps_lose _).writing _
  | shutdown => exact keeps_finish

theorem keeps_onItemWaiting (item : Outgoing Float)
    : transport.Keeps (transport.onItemWaiting item) := by
  cases item with
  | shutdown => exact .quiet_ended
  | _ => exact .quiet

/-- A step opens no socket, or an attempt to connect was successful, by cases on the phase. -/
theorem keeps_or_connected (transport : Transport) (occurrence : Occurrence)
    : transport.Keeps (transport.step occurrence)
      ∨ transport.phase = .connecting
        ∧ transport.step occurrence = transport.onConnected := by
  unfold step
  split
  · exact .inl ⟨rfl, id, by simp [Activity.quiet], by simp [Activity.quiet]⟩
  · next connecting => exact .inr ⟨connecting, rfl⟩
  · exact .inl (keeps_lose _)
  · next isOpen => exact .inl (keeps_onFrame isOpen _)
  · exact .inl (keeps_lose _)
  · exact .inl (keeps_onItem _ _)
  · exact .inl keeps_finish
  · exact .inl (keeps_onItemWaiting _)
  · exact .inl .quiet_ended
  · exact .inl (keeps_proceed (by decide) (by simp) (by simp))
  · exact .inl .quiet

/-- The transport that takes an item opens no socket for it. -/
theorem keeps_taken (transport : Transport) (item : Outgoing Float) (refusal : Option String)
    : transport.Keeps (transport.step (.taken item refusal)) := by
  rcases transport.keeps_or_connected (.taken item refusal) with keeps | ⟨connecting, _⟩
  · exact keeps
  · have ignored : transport.step (.taken item refusal) = .quiet transport := by
      simp only [step, connecting]
    rw [ignored]
    exact .quiet

-----------------------------------------------------------------------------------------
-- Messages
-----------------------------------------------------------------------------------------

theorem written_proceed (phase : Phase) (event : TransportEvent)
    : (transport.proceed phase event).written = [] := by
  unfold proceed
  split <;> rfl

/-- Without an open socket nothing is written, by cases on the phase. -/
theorem written_of_no_socket (away : transport.current? = none) (occurrence : Occurrence)
    : (transport.step occurrence).written = [] := by
  have notOpen : transport.phase ≠ .open := by simpa [current?] using away
  unfold step
  split
  · rfl
  · simp [onConnected, written_proceed]
  · simp [lose, written_proceed]
  · next isOpen => exact absurd isOpen notOpen
  · next isOpen => exact absurd isOpen notOpen
  · next isOpen => exact absurd isOpen notOpen
  · next isOpen => exact absurd isOpen notOpen
  · next item _ _ => cases item <;> rfl
  · rfl
  · simp [connect, written_proceed]
  · rfl

theorem messages_finish : transport.finish.written.filterMap Transmission.message? = [] := by
  simp [finish, writing, written_proceed, Transmission.message?]

/-- No message is written unless one is taken from the queue, by cases on the phase. -/
theorem messages_of_outside (transport : Transport) {occurrence : Occurrence}
    (outside : occurrence.takes = false)
    : (transport.step occurrence).written.filterMap Transmission.message? = [] := by
  unfold step
  split
  · rfl
  · simp [onConnected, written_proceed]
  · simp [lose, written_proceed]
  · next frame _ =>
      cases frame with
      | text text =>
          simp only [onFrame]
          split
          · rfl
          · exact messages_finish
      | close reason => simp [onFrame, lose, written_proceed]
      | ping payload => rfl
      | other => rfl
  · simp [lose, written_proceed]
  · simp [Occurrence.takes] at outside
  · exact messages_finish
  · simp [Occurrence.takes] at outside
  · rfl
  · simp [connect, written_proceed]
  · rfl

/-- What is written on an open socket for an item is the message that it holds for the socket; if
the socket refuses, nothing is written, and the socket is given up.
-/
theorem messages_taken (current : transport.current? = some generation) (item : Outgoing Float)
    (refusal : Option String)
    : let activity := transport.step (.taken item refusal)
      activity.written.filterMap Transmission.message? = (item.messageFor? generation).toList
      ∨ activity.written.filterMap Transmission.message? = []
        ∧ activity.transport.current? = none := by
  obtain ⟨isOpen, rfl⟩ := current?_eq_some.mp current
  have lost (reason : String) : (transport.lose reason).transport.current? = none := by
    unfold lose proceed
    split <;> rfl
  simp only [step, isOpen]
  cases item with
  | message stamp held =>
      simp only [onItem, Outgoing.messageFor?]
      split
      · cases refusal with
        | none => exact .inl rfl
        | some reason => exact .inr ⟨by simp [lose, written_proceed], lost reason⟩
      · exact .inl rfl
  | reconnect =>
      exact .inl (by simp [onItem, writing, lose, written_proceed, Transmission.message?,
        Outgoing.messageFor?])
  | shutdown => exact .inl messages_finish

/-- Without an open socket no message is written. -/
theorem messages_of_no_socket (away : transport.current? = none) (occurrence : Occurrence)
    : (transport.step occurrence).written.filterMap Transmission.message? = [] := by
  rw [written_of_no_socket away, List.filterMap_nil]

end Transport

end SharedBoard
