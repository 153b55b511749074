import SharedBoard.Proofs.Client.Queues
import SharedBoard.Proofs.Session.Handshake

/-! What reaches a socket. It is the beginning of what the session made for it, in order and while
the socket was open, so the handshake comes first on every socket.
-/

namespace SharedBoard

/-- Whether a session made something for a socket. -/
def Dispatch.isFor (socket : Nat) (dispatch : Dispatch) : Bool :=
  (dispatch.item.messageFor? socket).isSome

namespace Client

/-- What the session made for a socket, in order. -/
def madeFor (client : Client) (socket : Nat) : List Dispatch :=
  client.made.filter (·.isFor socket)

/-- What was handed to a socket, in order: what was taken while it was open, and made for it. The
socket may have refused the last.
-/
def handedTo (client : Client) (socket : Nat) : List Dispatch :=
  (client.taken.filter fun entry => entry.socket == some socket && entry.dispatch.isFor socket).map
    (·.dispatch)

/-- The messages that were written on a socket, in order. -/
def writtenOn (client : Client) (socket : Nat) : List (Message Float) :=
  (client.written.filter (·.1 == socket)).filterMap (·.2.message?)

end Client

/-- The messages for a socket among what a session made. -/
def messagesFor (socket : Nat) (dispatches : List Dispatch) : List (Message Float) :=
  dispatches.filterMap (·.item.messageFor? socket)

namespace Client

variable {client : Client} {socket : Nat}

/-- Nothing was handed to a socket that was not opened yet. -/
theorem Bounded.handedTo_eq_nil (bounded : client.Bounded)
    (later : client.transport.generation < socket)
    : client.handedTo socket = [] := by
  refine List.map_eq_nil_iff.mpr (List.filter_eq_nil_iff.mpr fun entry member both => ?_)
  simp only [Bool.and_eq_true, beq_iff_eq] at both
  have := bounded.taken entry member socket both.1
  omega

/-- Nothing was made for a socket that was not opened yet. -/
theorem Bounded.not_isFor (bounded : client.Bounded) (later : client.transport.generation < socket)
    {dispatch : Dispatch} (member : dispatch ∈ client.made)
    : dispatch.isFor socket = false := by
  by_contra made
  obtain ⟨message, held⟩ := Option.isSome_iff_exists.mp (Bool.not_eq_false _ ▸ made)
  have := bounded.stamped dispatch member socket message (Outgoing.messageFor?_eq_some.mp held)
  omega

-----------------------------------------------------------------------------------------
-- What is handed over
-----------------------------------------------------------------------------------------

/-- What was handed to a socket is the beginning of what was made for it, and was made while it was
open. As long as it is open, everything that was taken for it was handed over, and what waits for it
was made since it was opened.
-/
structure Delivers (client : Client) : Prop where
  ahead : ∀ socket, client.handedTo socket <+: client.madeFor socket
  whole
    : ∀ socket, client.transport.current? = some socket →
        client.handedTo socket = (client.taken.map (·.dispatch)).filter (·.isFor socket)
  handed : ∀ socket, ∀ dispatch ∈ client.handedTo socket, dispatch.during = some socket
  waiting
    : ∀ socket, client.transport.current? = some socket →
        ∀ dispatch ∈ client.queue, dispatch.isFor socket = true → dispatch.during = some socket

/-- A socket that is open after a step of the transport was open before, or is another one. -/
theorem current?_step (transport : Transport) (occurrence : Occurrence)
    (current : (transport.step occurrence).transport.current? = some socket)
    : transport.current? = some socket ∨ transport.generation < socket := by
  rcases transport.keeps_or_connected occurrence with keeps | ⟨_, connected⟩
  · exact .inl (keeps.current? current)
  · obtain ⟨_, newest⟩ := Transport.current?_eq_some.mp current
    refine .inr ?_
    rw [← newest, connected, Transport.onConnected, Transport.proceed]
    split <;> exact Nat.lt_succ_self _

/-- The transport can go on: nothing is handed over to a socket that it opens. -/
theorem Delivers.carry (delivers : client.Delivers) (bounded : client.Bounded)
    (occurrence : Occurrence)
    : (client.carry (client.transport.step occurrence)).Delivers where
  ahead := delivers.ahead
  whole socket current := by
    rcases current?_step _ _ current with still | later
    · exact delivers.whole socket still
    · refine (bounded.handedTo_eq_nil later).trans (List.filter_eq_nil_iff.mpr ?_).symm
      intro dispatch member
      simp [bounded.not_isFor later (List.mem_append_left _ member)]
  handed := delivers.handed
  waiting socket current dispatch member made := by
    rcases current?_step _ _ current with still | later
    · exact delivers.waiting socket still dispatch member made
    · simp [bounded.not_isFor later (List.mem_append_right _ member)] at made

/-- What is handed over when an item is taken. -/
theorem handedTo_popped (client : Client) (dispatch : Dispatch) (rest : List Dispatch)
    (socket : Nat)
    : (client.popped dispatch rest).handedTo socket
      = client.handedTo socket
        ++ if client.transport.current? = some socket then [dispatch].filter (·.isFor socket)
          else [] := by
  simp only [handedTo, popped, List.filter_append, List.map_append]
  congr 1
  by_cases current : client.transport.current? = some socket
  · cases made : dispatch.isFor socket <;> simp [current, made]
  · simp [current]

/-- Taking an item hands it over if it was made for the open socket. -/
theorem Delivers.popped (delivers : client.Delivers) {dispatch : Dispatch} {rest : List Dispatch}
    (next : client.queue = dispatch :: rest)
    : (client.popped dispatch rest).Delivers := by
  have whole (socket : Nat) (current : client.transport.current? = some socket)
      : (client.popped dispatch rest).handedTo socket
        = ((client.popped dispatch rest).taken.map (·.dispatch)).filter (·.isFor socket) := by
    rw [handedTo_popped, if_pos current, delivers.whole socket current, ← List.filter_append]
    simp [Client.popped]
  refine ⟨?_, whole, ?_, ?_⟩
  · intro socket
    by_cases current : client.transport.current? = some socket
    · rw [whole socket current]
      exact (List.prefix_append _ _).filter _
    · rw [handedTo_popped, if_neg current, List.append_nil, madeFor, made_popped next]
      exact delivers.ahead socket
  · intro socket other member
    rw [handedTo_popped] at member
    rcases List.mem_append.mp member with early | late
    · exact delivers.handed socket other early
    · split at late
      · next current =>
          obtain ⟨same, made⟩ := List.mem_filter.mp late
          obtain rfl := List.mem_singleton.mp same
          exact delivers.waiting socket current other (next ▸ List.mem_cons_self) made
      · exact absurd late List.not_mem_nil
  · intro socket current other member
    exact delivers.waiting socket current other (next ▸ List.mem_cons_of_mem _ member)

/-- What a session makes waits, and was made while the socket was open that is open now. -/
theorem Delivers.follow (delivers : client.Delivers) (cause : Option Report)
    (input : Session.Input)
    : (client.follow cause input).Delivers where
  ahead socket := by
    rw [madeFor, made_follow, List.filter_append]
    exact (delivers.ahead socket).trans (List.prefix_append _ _)
  whole := delivers.whole
  handed := delivers.handed
  waiting socket current dispatch member made := by
    rcases List.mem_append.mp member with early | late
    · exact delivers.waiting socket current dispatch early made
    · obtain ⟨item, _, rfl⟩ := List.mem_map.mp late
      exact current

-----------------------------------------------------------------------------------------
-- What is written
-----------------------------------------------------------------------------------------

/-- What was written on a socket are the messages that were handed to it, except for the last if the
socket refused it and so is open no longer.
-/
structure Writes (client : Client) : Prop where
  ahead : ∀ socket, client.writtenOn socket <+: messagesFor socket (client.handedTo socket)
  whole
    : ∀ socket, client.transport.current? = some socket →
        client.writtenOn socket = messagesFor socket (client.handedTo socket)

/-- Nothing was written on a socket that was not opened yet. -/
theorem Bounded.writtenOn_eq_nil (bounded : client.Bounded)
    (later : client.transport.generation < socket)
    : client.writtenOn socket = [] := by
  have nothing : client.written.filter (·.1 == socket) = [] := by
    refine List.filter_eq_nil_iff.mpr fun entry member same => ?_
    have := bounded.written entry member
    have := beq_iff_eq.mp same
    omega
  rw [writtenOn, nothing, List.filterMap_nil]

/-- What is written when the transport goes on. -/
theorem writtenOn_carry (client : Client) (activity : Activity) (socket : Nat)
    : (client.carry activity).writtenOn socket
      = client.writtenOn socket
        ++ if client.transport.generation = socket then
            activity.written.filterMap Transmission.message?
          else [] := by
  simp only [writtenOn, carry, List.filter_append, List.filterMap_append]
  congr 1
  by_cases here : client.transport.generation = socket
  · simp [here, List.filter_map, List.filterMap_map, Function.comp_def]
  · simp [here, List.filter_map, Function.comp_def]

/-- The transport writes no message unless it takes one. -/
theorem Writes.carry (writes : client.Writes) (bounded : client.Bounded) {occurrence : Occurrence}
    (outside : occurrence.takes = false)
    : (client.carry (client.transport.step occurrence)).Writes := by
  have same (socket : Nat)
      : (client.carry (client.transport.step occurrence)).writtenOn socket
        = client.writtenOn socket := by
    rw [writtenOn_carry, client.transport.messages_of_outside outside, ite_self, List.append_nil]
  refine ⟨fun socket => ?_, fun socket current => ?_⟩
  · rw [same]
    exact writes.ahead socket
  · rw [same]
    rcases current?_step _ _ current with still | later
    · exact writes.whole socket still
    · rw [bounded.writtenOn_eq_nil later]
      exact (congrArg (messagesFor socket) (bounded.handedTo_eq_nil later)).symm

/-- The messages that are handed over when an item is taken. -/
theorem messagesFor_handedTo_popped (client : Client) (dispatch : Dispatch) (rest : List Dispatch)
    (socket : Nat)
    : messagesFor socket ((client.popped dispatch rest).handedTo socket)
      = messagesFor socket (client.handedTo socket)
        ++ if client.transport.current? = some socket then
            (dispatch.item.messageFor? socket).toList
          else [] := by
  rw [handedTo_popped, messagesFor, List.filterMap_append]
  congr 1
  split
  · cases held : dispatch.item.messageFor? socket <;> simp [Dispatch.isFor, held]
  · rfl

/-- Taking an item without an open socket writes nothing. -/
theorem Writes.take_of_no_socket (writes : client.Writes) (away : client.transport.current? = none)
    (dispatch : Dispatch) (rest : List Dispatch) (refusal : Option String)
    : ((client.popped dispatch rest).carry
        (client.transport.step (.taken dispatch.item refusal))).Writes := by
  have same (socket : Nat)
      : ((client.popped dispatch rest).carry
          (client.transport.step (.taken dispatch.item refusal))).writtenOn socket
        = client.writtenOn socket := by
    rw [writtenOn_carry, client.transport.messages_of_no_socket away, ite_self, List.append_nil]
    rfl
  refine ⟨fun socket => ?_, fun socket current => ?_⟩
  · refine (same socket).symm ▸ (writes.ahead socket).trans ?_
    exact (messagesFor_handedTo_popped client dispatch rest socket) ▸ List.prefix_append _ _
  · have before := (client.transport.keeps_taken dispatch.item refusal).current? current
    rw [away] at before
    simp at before

/-- The message that is taken for the open socket is written on it, unless it is refused. -/
theorem Writes.take_of_socket (writes : client.Writes)
    (current : client.transport.current? = some socket) (dispatch : Dispatch)
    (rest : List Dispatch) (refusal : Option String)
    : ((client.popped dispatch rest).carry
        (client.transport.step (.taken dispatch.item refusal))).Writes := by
  have written (other : Nat)
      : ((client.popped dispatch rest).carry
          (client.transport.step (.taken dispatch.item refusal))).writtenOn other
        = client.writtenOn other
          ++ if socket = other then
              (client.transport.step (.taken dispatch.item refusal)).written.filterMap
                Transmission.message?
            else [] := by
    rw [← (Transport.current?_eq_some.mp current).2]
    exact writtenOn_carry (client.popped dispatch rest) _ other
  have handed (other : Nat)
      : messagesFor other ((client.popped dispatch rest).handedTo other)
        = messagesFor other (client.handedTo other)
          ++ if socket = other then (dispatch.item.messageFor? other).toList else [] := by
    rw [messagesFor_handedTo_popped, current]
    simp only [Option.some.injEq]
  rcases Transport.messages_taken current dispatch.item refusal with all | ⟨nothing, left⟩
  · have whole
        : ((client.popped dispatch rest).carry
            (client.transport.step (.taken dispatch.item refusal))).writtenOn socket
          = messagesFor socket ((client.popped dispatch rest).handedTo socket) := by
      rw [written, handed, if_pos rfl, if_pos rfl, all, writes.whole socket current]
    refine ⟨fun other => ?_, fun other now => ?_⟩
    · by_cases same : socket = other
      · exact same ▸ whole.symm ▸ List.prefix_rfl
      · refine written other ▸ handed other ▸ ?_
        simpa only [if_neg same, List.append_nil] using writes.ahead other
    · have before := (client.transport.keeps_taken dispatch.item refusal).current? now
      obtain rfl : socket = other := Option.some.inj (current.symm.trans before)
      exact whole
  · refine ⟨fun other => ?_, fun other now => ?_⟩
    · refine written other ▸ handed other ▸ ?_
      rw [nothing, ite_self, List.append_nil]
      exact (writes.ahead other).trans (List.prefix_append _ _)
    · exact absurd (left.symm.trans now) (by simp)

/-- Taking an item keeps to what is written, with an open socket or without. -/
theorem Writes.take (writes : client.Writes) (dispatch : Dispatch) (rest : List Dispatch)
    (refusal : Option String)
    : ((client.popped dispatch rest).carry
        (client.transport.step (.taken dispatch.item refusal))).Writes := by
  cases current : client.transport.current? with
  | none => exact writes.take_of_no_socket current dispatch rest refusal
  | some socket => exact writes.take_of_socket current dispatch rest refusal

-----------------------------------------------------------------------------------------
-- Runs
-----------------------------------------------------------------------------------------

/-- What is handed over and written is as described, and no socket is named too early. -/
structure Orderly (client : Client) : Prop where
  bounded : client.Bounded
  delivers : client.Delivers
  writes : client.Writes

/-- So it stays in every turn, by cases on the turn. -/
theorem Orderly.step (orderly : client.Orderly) (turn : Turn) : (client.step turn).Orderly := by
  refine ⟨orderly.bounded.step turn, ?_, ?_⟩
  · refine step_induction orderly.delivers ?_ ?_ ?_ ?_ turn
    · exact fun occurrence _ => orderly.delivers.carry orderly.bounded occurrence
    · intro dispatch rest refusal next
      exact (orderly.delivers.popped next).carry (orderly.bounded.popped next) (.taken _ refusal)
    · intro report rest _
      have left : ({ client with reports := rest } : Client).Delivers :=
        { orderly.delivers with }
      exact left.follow (some report) _
    · exact fun input _ => orderly.delivers.follow none input
  · refine step_induction orderly.writes ?_ ?_ ?_ ?_ turn
    · exact fun occurrence outside => orderly.writes.carry orderly.bounded outside
    · exact fun dispatch rest refusal _ => orderly.writes.take dispatch rest refusal
    · exact fun report rest _ => { orderly.writes with }
    · exact fun input _ => { orderly.writes with }

/-- A client that has just been started is orderly. -/
theorem orderly_start {session : Session} (unknown : session.link.generation = none)
    : (start session).Orderly where
  bounded := bounded_start unknown
  delivers := by
    constructor <;> simp [start, carry, Transport.start, Transport.connect, Transport.proceed,
      handedTo, madeFor, made]
  writes := by
    constructor <;> simp [start, carry, Transport.start, Transport.connect, Transport.proceed,
      handedTo, writtenOn, messagesFor]

/-- What was made for the open socket was handed to it or waits. -/
theorem Delivers.madeFor_eq (delivers : client.Delivers)
    (current : client.transport.current? = some socket)
    : client.madeFor socket
      = client.handedTo socket ++ client.queue.filter (·.isFor socket) := by
  rw [madeFor, made, List.filter_append, delivers.whole socket current]

/-- The messages that were made for a socket are those among all that went out. -/
theorem messagesFor_madeFor (client : Client) (socket : Nat)
    : messagesFor socket (client.madeFor socket)
      = (client.made.map (·.item)).filterMap (·.messageFor? socket) := by
  rw [messagesFor, madeFor, List.filterMap_filter, List.filterMap_map]
  refine congrArg (List.filterMap · client.made) (funext fun dispatch => ?_)
  cases held : dispatch.item.messageFor? socket <;> simp [Dispatch.isFor, held]

/-- Whatever the server, the network, the clock, the user and the two sides of a client do in
whatever order, each socket gets the beginning of what the session made for it, in order and each
message once: the token first, and the wish to join before anything about the board. All of it was
made while that very socket was open. It is written as it is handed over; only the last message may
be missing, and only after the socket was given up.
-/
theorem sockets_get_what_was_made_for_them (board : Board) (groups : List (Group Float))
    (token : Option String) (color : Color) (grid : Option Int32) (turns : List Turn)
    (socket : Nat)
    : let session := Session.start board groups token color grid
      let client := (start session).run turns
      (∃ inputs,
        client.session = (session.run inputs).session
        ∧ client.made.map (·.item) = (session.run inputs).sent)
      ∧ client.handedTo socket <+: client.madeFor socket
      ∧ Session.InOrder board.id (messagesFor socket (client.handedTo socket))
      ∧ (∀ dispatch ∈ client.handedTo socket, dispatch.during = some socket)
      ∧ client.writtenOn socket <+: messagesFor socket (client.handedTo socket)
      ∧ (client.transport.current? = some socket →
          client.madeFor socket
            = client.handedTo socket ++ client.queue.filter (·.isFor socket)
          ∧ client.writtenOn socket = messagesFor socket (client.handedTo socket)) := by
  intro session client
  have orderly : client.Orderly :=
    run_induction (orderly_start rfl) (fun _ orderly turn => orderly.step turn) turns
  obtain ⟨inputs, hasRun⟩ := exists_hasRun session turns
  refine ⟨⟨inputs, hasRun⟩, orderly.delivers.ahead socket, ?_, orderly.delivers.handed socket,
    orderly.writes.ahead socket,
    fun current => ⟨orderly.delivers.madeFor_eq current, orderly.writes.whole socket current⟩⟩
  have inOrder : Session.InOrder board.id (messagesFor socket (client.madeFor socket)) := by
    rw [messagesFor_madeFor, show client.made.map (·.item) = _ from hasRun.2]
    exact Session.inOrder_run Session.isAway_initial inputs socket
  exact inOrder.of_prefix ((orderly.delivers.ahead socket).filterMap _)

/-- The frame that arrives with an input. -/
def frame? : Session.Input → Option String
  | .transport (.message text) => some text
  | _ => none

/-- The owner joins an empty board and makes a post, and the socket is lost before the transport
takes the post from its queue. It takes it when the next socket is open, and the session learns of
all that only later.
-/
def lostPost : List Turn :=
  [.connected, .read, .read, .take none]
  ++ (Sample.handshake.filterMap frame?).flatMap (fun text => [.text text, .read, .take none])
  ++ [.user Session.makePost (by simp [Session.makePost]), .closed, .delayOver, .connected,
      .take none, .read, .read, .read, .take none]

/-- The post is made for the first socket, after the handshake there, and reaches neither socket. -/
theorem sockets_get_what_was_made_for_them_lostPost
    : let client := (start (.start Sample.board [] (some "token") .lightPink none)).run lostPost
      ((messagesFor 1 (client.madeFor 1)).map (·.command.kind)
          = [.userAuthenticate, .boardConnect, .postCreate]
        ∧ (messagesFor 1 (client.handedTo 1)).map (·.command.kind)
          = [.userAuthenticate, .boardConnect]
        ∧ (client.writtenOn 2).map (·.command.kind) = [.userAuthenticate])
      ∧ ∀ dispatch ∈ client.handedTo 2, dispatch.during = some 2 := by
  refine ⟨by decide +kernel, ?_⟩
  obtain ⟨_, _, _, during, _⟩ := sockets_get_what_was_made_for_them Sample.board [] (some "token")
    .lightPink none lostPost 2
  exact during

end Client

end SharedBoard
