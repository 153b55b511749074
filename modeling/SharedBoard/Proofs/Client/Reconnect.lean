import SharedBoard.Proofs.Client.Queues
import SharedBoard.Proofs.Session.Handshake

/-! What a refused token does to sockets. The session asks for another socket without naming the one
on which the token was refused, so the one that is left may be a newer one.
-/

namespace SharedBoard

/-- The server refused a token on the socket of a report. -/
def Report.RefusesToken (report : Report) : Prop :=
  ∃ text message answer,
    report.event = .message text
    ∧ Inbound.ofText text = .ok (.rejected .userAuthenticate message answer)

/-- Whether something asks for another socket. -/
def Dispatch.isReconnect (dispatch : Dispatch) : Bool :=
  match dispatch.item with
  | .reconnect => true
  | _ => false

theorem Dispatch.isReconnect_iff {dispatch : Dispatch}
    : dispatch.isReconnect = true ↔ dispatch.item = .reconnect := by
  unfold isReconnect
  cases dispatch.item <;> simp

namespace Client

variable {client : Client} {limit socket : Nat}

-----------------------------------------------------------------------------------------
-- Why a socket is left
-----------------------------------------------------------------------------------------

/-- The next that the transport takes asks it to leave the open socket, and the session asked for
this when it read a report.
-/
def Leaves (client : Client) (socket : Nat) (report : Report) : Prop :=
  client.transport.current? = some socket
  ∧ ∃ dispatch rest,
      client.queue = dispatch :: rest
      ∧ dispatch.item = .reconnect
      ∧ dispatch.cause = some report

/-- Whoever asks for another socket has read that a token was refused. -/
def Justified (client : Client) : Prop :=
  ∀ dispatch ∈ client.made, dispatch.item = .reconnect →
    ∃ report, dispatch.cause = some report ∧ report.RefusesToken

/-- A request for another socket waited before, or the session makes it since it reads of a refused
token.
-/
theorem mem_queue_read {report : Report} {dispatch : Dispatch}
    (member
      : dispatch ∈ (client.follow (some report) (.transport report.event)).queue)
    (asks : dispatch.item = .reconnect)
    : dispatch ∈ client.queue ∨ dispatch.cause = some report ∧ report.RefusesToken := by
  rcases List.mem_append.mp member with early | late
  · exact .inl early
  · obtain ⟨item, sent, rfl⟩ := List.mem_map.mp late
    obtain rfl : item = .reconnect := asks
    obtain ⟨text, message, answer, same, read⟩ := Session.refused_of_reconnect sent
    exact .inr ⟨rfl, text, message, answer, Session.Input.transport.inj same, read⟩

/-- What the user does asks for no other socket. -/
theorem mem_queue_user {input : Session.Input} (own : ∀ event, input ≠ .transport event)
    {dispatch : Dispatch} (member : dispatch ∈ (client.follow none input).queue)
    (asks : dispatch.item = .reconnect)
    : dispatch ∈ client.queue := by
  rcases List.mem_append.mp member with early | late
  · exact early
  · obtain ⟨item, sent, rfl⟩ := List.mem_map.mp late
    obtain rfl : item = .reconnect := asks
    obtain ⟨_, _, _, same, _⟩ := Session.refused_of_reconnect sent
    exact absurd same (own _)

/-- Whoever asks for another socket has read so in every turn, by cases on the turn. -/
theorem Justified.step (justified : client.Justified) (turn : Turn)
    : (client.step turn).Justified := by
  refine step_induction justified (fun _ _ => justified) ?_ ?_ ?_ turn
  · intro dispatch rest refusal next
    have same : (client.popped dispatch rest).made = client.made := made_popped next
    intro other member
    exact justified other (same ▸ member)
  · intro report rest _ dispatch member asks
    rcases List.mem_append.mp member with taken | waiting
    · exact justified dispatch (List.mem_append_left _ taken) asks
    · rcases mem_queue_read waiting asks with early | ⟨caused, refuses⟩
      · exact justified dispatch (List.mem_append_right _ early) asks
      · exact ⟨report, caused, refuses⟩
  · intro input own dispatch member asks
    rcases List.mem_append.mp member with taken | waiting
    · exact justified dispatch (List.mem_append_left _ taken) asks
    · exact justified dispatch (List.mem_append_right _ (mem_queue_user own waiting asks)) asks

theorem justified_run (session : Session) (turns : List Turn)
    : ((start session).run turns).Justified :=
  run_induction (by simp [Justified, start, carry, made])
    (fun _ justified turn => justified.step turn) turns

-----------------------------------------------------------------------------------------
-- Sockets that are not left for earlier ones
-----------------------------------------------------------------------------------------

/-- No token that was refused on one of the first sockets is still to be read or to be acted on, and
none of these sockets is open.
-/
structure Settled (limit : Nat) (client : Client) : Prop where
  opened : limit ≤ client.transport.generation
  later : client.transport.phase = .open → limit < client.transport.generation
  reports : ∀ report ∈ client.reports, report.RefusesToken → limit < report.socket
  queue
    : ∀ dispatch ∈ client.queue, dispatch.item = .reconnect →
        ∀ report, dispatch.cause = some report → limit < report.socket

/-- The transport reports refusals from later sockets only. -/
theorem Settled.carry (settled : client.Settled limit) (occurrence : Occurrence)
    : (client.carry (client.transport.step occurrence)).Settled limit := by
  rcases client.transport.keeps_or_connected occurrence with keeps | ⟨_, connected⟩
  · refine ⟨keeps.generation ▸ settled.opened, ?_, ?_, settled.queue⟩
    · intro isOpen
      exact keeps.generation.symm ▸ settled.later (keeps.still isOpen)
    · intro report member refuses
      rcases List.mem_append.mp member with early | late
      · exact settled.reports report early refuses
      · obtain ⟨event, added, rfl⟩ := List.mem_map.mp late
        obtain ⟨text, _, _, rfl, _⟩ := refuses
        exact keeps.generation.symm ▸ settled.later (keeps.onSocket text added)
  · rw [connected, Transport.onConnected, Transport.proceed]
    split
    · refine ⟨Nat.le_succ_of_le settled.opened, fun _ => Nat.lt_succ_of_le settled.opened, ?_,
        settled.queue⟩
      intro report member refuses
      rcases List.mem_append.mp member with early | late
      · exact settled.reports report early refuses
      · obtain rfl := List.mem_singleton.mp late
        obtain ⟨_, _, _, same, _⟩ := refuses
        simp at same
    · refine ⟨Nat.le_succ_of_le settled.opened, fun _ => Nat.lt_succ_of_le settled.opened, ?_,
        settled.queue⟩
      exact fun report member =>
        settled.reports report (by simpa [Client.carry, Activity.quiet] using member)

/-- What was refused on the first sockets stays settled in every turn, by cases on the turn. -/
theorem Settled.step (settled : client.Settled limit) (turn : Turn)
    : (client.step turn).Settled limit := by
  refine step_induction settled (fun occurrence _ => settled.carry occurrence) ?_ ?_ ?_ turn
  · intro dispatch rest refusal next
    have left : (client.popped dispatch rest).Settled limit :=
      { settled with
        queue := fun other member => settled.queue other (next ▸ List.mem_cons_of_mem _ member) }
    exact left.carry (.taken _ refusal)
  · intro report rest next
    refine ⟨settled.opened, settled.later, ?_, ?_⟩
    · exact fun other member => settled.reports other (next ▸ List.mem_cons_of_mem _ member)
    · intro dispatch member asks cause caused
      rcases mem_queue_read member asks with early | ⟨here, refuses⟩
      · exact settled.queue dispatch early asks cause caused
      · obtain rfl : report = cause := Option.some.inj (here.symm.trans caused)
        exact settled.reports report (next ▸ List.mem_cons_self) refuses
  · intro input own
    refine ⟨settled.opened, settled.later, settled.reports, fun dispatch member asks => ?_⟩
    exact settled.queue dispatch (mem_queue_user own member asks) asks

-----------------------------------------------------------------------------------------
-- Sockets that are left for earlier ones
-----------------------------------------------------------------------------------------

/-- A token that was refused on one of the first sockets is still to be read or to be acted on, no
other is, and the session is not over.
-/
structure Unsettled (limit : Nat) (client : Client) : Prop where
  running : client.session.link.isTerminal = false
  held : client.session.token.isSome = true
  reports : ∀ report ∈ client.reports, report.RefusesToken → report.socket ≤ limit
  queue
    : ∀ dispatch ∈ client.queue, dispatch.item = .reconnect →
        ∃ report, dispatch.cause = some report ∧ report.socket ≤ limit
  pending
    : (∃ dispatch ∈ client.queue, dispatch.item = .reconnect)
      ∨ ∃ report ∈ client.reports, report.RefusesToken

/-- Reading a report leaves it so. -/
theorem Unsettled.read (unsettled : client.Unsettled limit) {report : Report} {rest : List Report}
    (next : client.reports = report :: rest)
    : (client.step .read).Unsettled limit := by
  rw [step_read next]
  have here : report ∈ client.reports := next ▸ List.mem_cons_self
  refine ⟨?_, ?_, ?_, ?_, ?_⟩
  · have after := congrArg (·.link.isTerminal)
      (Session.presence_step client.session (.transport report.event))
    refine after.trans ((Session.Presence.isTerminal_after ..).trans ?_)
    obtain ⟨jwt, held⟩ := Option.isSome_iff_exists.mp unsettled.held
    rw [Session.presence_link, unsettled.running, held, Bool.false_or]
    cases report.event <;> rfl
  · exact (congrArg Option.isSome (Session.board_and_token_step _ _).2).trans unsettled.held
  · exact fun other member => unsettled.reports other (next ▸ List.mem_cons_of_mem _ member)
  · intro dispatch member asks
    rcases mem_queue_read member asks with early | ⟨caused, refuses⟩
    · exact unsettled.queue dispatch early asks
    · exact ⟨report, caused, unsettled.reports report here refuses⟩
  · rcases unsettled.pending with ⟨dispatch, waiting, asks⟩ | ⟨refusing, member, refuses⟩
    · exact .inl ⟨dispatch, List.mem_append_left _ waiting, asks⟩
    · rw [next] at member
      rcases List.mem_cons.mp member with rfl | later
      · obtain ⟨text, message, answer, same, read⟩ := refuses
        refine .inl ⟨⟨.reconnect, client.transport.current?, some refusing⟩,
          List.mem_append_right _ (List.mem_map.mpr ⟨.reconnect, ?_, rfl⟩), rfl⟩
        rw [same, Session.sent_of_refusal _ read]
        exact List.mem_singleton_self _
      · exact .inr ⟨refusing, later, refuses⟩

/-- When the session has read all reports, a request for another socket waits, by induction over the
reports.
-/
theorem Unsettled.exists_reads (unsettled : client.Unsettled limit)
    : ∃ turns,
        (client.run turns).Unsettled limit
        ∧ (client.run turns).transport = client.transport
        ∧ ∃ dispatch ∈ (client.run turns).queue, dispatch.item = .reconnect := by
  generalize reports : client.reports = waiting
  induction waiting generalizing client with
  | nil =>
      refine ⟨[], unsettled, rfl, unsettled.pending.resolve_right ?_⟩
      simp [reports]
  | cons report rest ih =>
      have step := step_read reports
      obtain ⟨turns, after, same, pending⟩ := ih (unsettled.read reports) (by rw [step]; rfl)
      refine ⟨.read :: turns, after, ?_, pending⟩
      rw [run_cons, same, step]
      rfl

/-- Messages are taken from the queue one after the other while the socket stays open, by induction
over them.
-/
theorem exists_takes (current : client.transport.current? = some socket)
    {messages rest : List Dispatch} (next : client.queue = messages ++ rest)
    (onlyMessages
      : ∀ dispatch ∈ messages, ∃ generation message, dispatch.item = .message generation message)
    : ∃ turns,
        (client.run turns).transport = client.transport ∧ (client.run turns).queue = rest := by
  induction messages generalizing client with
  | nil => exact ⟨[], rfl, next⟩
  | cons dispatch others ih =>
      obtain ⟨⟨generation, message, isMessage⟩, later⟩ := List.forall_mem_cons.mp onlyMessages
      have isOpen := (Transport.current?_eq_some.mp current).1
      have stays : (client.transport.step (.taken dispatch.item none)).transport
          = client.transport := by
        simp only [Transport.step, isOpen, isMessage, Transport.onItem]
        split <;> rfl
      have step := step_take next current none
      have still : (client.step (.take none)).transport.current? = some socket := by
        rw [step]
        exact (congrArg Transport.current? stays).trans current
      obtain ⟨turns, same, left⟩ := ih still (by rw [step]; rfl) later
      refine ⟨.take none :: turns, ?_, left⟩
      rw [run_cons, same, step]
      exact stays

/-- While an attempt to connect is under way, a refusal that was not acted on yet is unsettled. -/
theorem unsettled_connected (bounded : client.Bounded) (justified : client.Justified)
    (connecting : client.transport.phase = .connecting) (heard : client.transport.isHeard = true)
    (running : client.session.link.isTerminal = false)
    (held : client.session.token.isSome = true)
    (pending
      : (∃ dispatch ∈ client.queue, dispatch.item = .reconnect)
        ∨ ∃ report ∈ client.reports, report.RefusesToken)
    : (client.step .connected).Unsettled client.transport.generation
      ∧ (client.step .connected).transport.current?
        = some (client.transport.generation + 1) := by
  have step : client.step .connected
      = client.carry ⟨{ client.transport with
          phase := .open, generation := client.transport.generation + 1 },
          [.opened (client.transport.generation + 1)], []⟩ := by
    simp [Client.step, Turn.connected, Transport.step, connecting, Transport.onConnected,
      Transport.proceed, heard]
  rw [step]
  refine ⟨⟨running, held, ?_, ?_, ?_⟩, rfl⟩
  · intro report member refuses
    rcases List.mem_append.mp member with early | late
    · exact bounded.reported report early
    · obtain rfl := List.mem_singleton.mp late
      obtain ⟨_, _, _, same, _⟩ := refuses
      simp at same
  · intro dispatch member isReconnect
    have made : dispatch ∈ client.made := List.mem_append_right _ member
    obtain ⟨report, caused, _⟩ := justified dispatch made isReconnect
    exact ⟨report, caused, bounded.caused dispatch made report caused⟩
  · rcases pending with waiting | ⟨report, member, refuses⟩
    · exact .inl waiting
    · exact .inr ⟨report, List.mem_append_left _ member, refuses⟩

/-- The first request for another socket that waits is taken while the socket is open, if no end of
the transport was asked for.
-/
theorem Unsettled.exists_leaves (unsettled : client.Unsettled limit)
    (current : client.transport.current? = some socket)
    (noShutdown : ∀ dispatch ∈ client.queue, dispatch.item ≠ .shutdown)
    (pending : ∃ dispatch ∈ client.queue, dispatch.item = .reconnect)
    : ∃ turns report, (client.run turns).Leaves socket report ∧ report.socket ≤ limit := by
  have found : (client.queue.find? (·.isReconnect)).isSome = true := by
    obtain ⟨dispatch, member, isReconnect⟩ := pending
    exact List.find?_isSome.mpr ⟨dispatch, member, Dispatch.isReconnect_iff.mpr isReconnect⟩
  obtain ⟨dispatch, first⟩ := Option.isSome_iff_exists.mp found
  obtain ⟨isReconnect, before, rest, split, others⟩ := List.find?_eq_some_iff_append.mp first
  have onlyMessages
      : ∀ other ∈ before, ∃ generation message, other.item = .message generation message := by
    intro other member
    have notReconnect := others other member
    have notShutdown := noShutdown other (split ▸ List.mem_append_left _ member)
    cases item : other.item with
    | message generation message => exact ⟨generation, message, rfl⟩
    | reconnect => simp [Dispatch.isReconnect_iff.mpr item] at notReconnect
    | shutdown => exact absurd item notShutdown
  have here : dispatch ∈ client.queue := split ▸ List.mem_append_right _ List.mem_cons_self
  have asks := Dispatch.isReconnect_iff.mp isReconnect
  obtain ⟨report, caused, early⟩ := unsettled.queue dispatch here asks
  obtain ⟨turns, same, left⟩ := exists_takes current split onlyMessages
  exact ⟨turns, report, ⟨same ▸ current, dispatch, rest, left, asks, caused⟩, early⟩

/-- A client whose session is not over has asked for no end of the transport. -/
theorem not_shutdown {session : Session} {turns : List Turn}
    (running : ((start session).run turns).session.link.isTerminal = false)
    {dispatch : Dispatch} (member : dispatch ∈ ((start session).run turns).queue)
    : dispatch.item ≠ .shutdown := by
  intro isShutdown
  obtain ⟨inputs, same, sent⟩ := exists_hasRun session turns
  have made : dispatch.item ∈ ((start session).run turns).made.map (·.item) :=
    List.mem_map_of_mem (List.mem_append_right _ member)
  rw [isShutdown, sent] at made
  rw [same, Session.isTerminal_of_shutdown made] at running
  exact Bool.noConfusion running

/-- While an attempt to connect is under way, with no refusal left to read or to act on, the next
socket is left only for a token that is refused on it.
-/
theorem socket_eq_of_leaves (bounded : ∀ turns, (client.run turns).Bounded)
    (connecting : client.transport.phase = .connecting)
    (nothing
      : ¬ ((∃ dispatch ∈ client.queue, dispatch.item = .reconnect)
        ∨ ∃ report ∈ client.reports, report.RefusesToken))
    {later : List Turn} {report : Report}
    (leaves : (client.run later).Leaves (client.transport.generation + 1) report)
    : report.socket = client.transport.generation + 1 := by
  have settled : client.Settled client.transport.generation :=
    { opened := Nat.le_refl _
      later := fun isOpen => absurd (connecting.symm.trans isOpen) (by decide)
      reports := fun report member refuses => absurd (.inr ⟨report, member, refuses⟩) nothing
      queue := fun dispatch member asks => absurd (.inl ⟨dispatch, member, asks⟩) nothing }
  have after : (client.run later).Settled client.transport.generation :=
    run_induction settled (fun _ settled turn => settled.step turn) later
  obtain ⟨current, dispatch, rest, next, asks, caused⟩ := leaves
  have here : dispatch ∈ (client.run later).queue := next ▸ List.mem_cons_self
  have above := after.queue dispatch here asks report caused
  have below := (bounded later).caused dispatch (List.mem_append_right _ here) report caused
  have newest := (Transport.current?_eq_some.mp current).2
  omega

/-- A socket is left on request only for a token that was refused on it or on an earlier socket. As
long as the session has a token and is not over, the next socket can be left for an earlier one
exactly if a refusal has not been read or acted on while the attempt to connect is under way.
-/
theorem newer_socket_left_iff (board : Board) (groups : List (Group Float)) (token : Option String)
    (color : Color) (grid : Option Int32) (turns : List Turn)
    : let client := (start (Session.start board groups token color grid)).run turns
      (∀ socket dispatch rest,
        client.transport.current? = some socket → client.queue = dispatch :: rest
        → dispatch.item = .reconnect
        → (∃ report,
            client.Leaves socket report ∧ report.RefusesToken ∧ report.socket ≤ socket)
          ∧ ∀ refusal, (client.step (.take refusal)).transport.current? = none)
      ∧ (client.transport.phase = .connecting → client.transport.isHeard = true
        → client.session.link.isTerminal = false → token.isSome = true
        → ((∃ later report,
              (client.run later).Leaves (client.transport.generation + 1) report
              ∧ report.socket ≠ client.transport.generation + 1)
          ↔ (∃ dispatch ∈ client.queue, dispatch.item = .reconnect)
            ∨ ∃ report ∈ client.reports, report.RefusesToken)) := by
  intro client
  have bounded : client.Bounded := bounded_run rfl turns
  have justified : client.Justified := justified_run _ turns
  refine ⟨?_, ?_⟩
  · intro socket dispatch rest current next asks
    have made : dispatch ∈ client.made := List.mem_append_right _ (next ▸ List.mem_cons_self)
    obtain ⟨report, caused, refuses⟩ := justified dispatch made asks
    obtain ⟨isOpen, newest⟩ := Transport.current?_eq_some.mp current
    refine ⟨⟨report, ⟨current, dispatch, rest, next, asks, caused⟩, refuses, ?_⟩, ?_⟩
    · exact newest ▸ bounded.caused dispatch made report caused
    · intro refusal
      rw [step_take next current]
      simp only [carry, asks, Transport.step, isOpen, Transport.onItem, Transport.writing,
        Transport.lose, Transport.proceed]
      split <;> rfl
  · intro connecting heard running held
    refine ⟨?_, fun pending => ?_⟩
    · rintro ⟨later, report, leaves, other⟩
      by_contra nothing
      refine other (socket_eq_of_leaves (fun more => ?_) connecting nothing leaves)
      rw [← run_append]
      exact bounded_run rfl _
    · have hasToken : client.session.token.isSome = true := by
        obtain ⟨inputs, same, _⟩ :=
          exists_hasRun (Session.start board groups token color grid) turns
        rw [show client.session = _ from same, (Session.board_and_token_run _ _).2]
        exact held
      obtain ⟨unsettled, current⟩ :=
        unsettled_connected bounded justified connecting heard running hasToken pending
      obtain ⟨reads, read, same, waits⟩ := unsettled.exists_reads
      have whole : (client.step .connected).run reads
          = (start (Session.start board groups token color grid)).run
              (turns ++ .connected :: reads) := by
        rw [run_append, run_cons]
      obtain ⟨takes, report, leaves, early⟩ := read.exists_leaves (same ▸ current)
        (fun dispatch member => not_shutdown (whole ▸ read.running) (whole ▸ member)) waits
      refine ⟨.connected :: (reads ++ takes), report, ?_, ?_⟩
      · rw [run_cons, run_append]
        exact leaves
      · omega

/-- The server refuses the token. -/
def tokenRefusal : String :=
  "[\"user.authenticate\",false,null,\"token expired\"]"

theorem tokenRefusal_read
    : Inbound.ofText tokenRefusal = .ok (.rejected .userAuthenticate "token expired" none) := by
  decide +kernel

/-- A client with an empty board and a token that is no good. -/
def expired : Client :=
  start (.start Sample.board [] (some "token") .lightPink none)

/-- The server refuses the token on the first socket and closes it, and the client connects again
before the session has read of either.
-/
def refusedAndClosed : List Turn :=
  [.connected, .read, .read, .take none, .text tokenRefusal, .closed, .delayOver]

/-- While it connects again, the refusal on the first socket can still take the second one down. -/
theorem newer_socket_left_iff_refusedAndClosed
    : (expired.run refusedAndClosed).transport = ⟨.connecting, 1, true⟩
      ∧ (expired.run refusedAndClosed).session.link.isTerminal = false
      ∧ (∃ report ∈ (expired.run refusedAndClosed).reports, report.RefusesToken)
      ∧ ∃ later report,
          ((expired.run refusedAndClosed).run later).Leaves 2 report ∧ report.socket ≠ 2 := by
  have transport : (expired.run refusedAndClosed).transport = ⟨.connecting, 1, true⟩ := by
    decide +kernel
  have running : (expired.run refusedAndClosed).session.link.isTerminal = false := by
    decide +kernel
  have arrived : ⟨.message tokenRefusal, 1⟩ ∈ (expired.run refusedAndClosed).reports := by
    decide +kernel
  have unread : ∃ report ∈ (expired.run refusedAndClosed).reports, report.RefusesToken :=
    ⟨_, arrived, tokenRefusal, "token expired", none, rfl, tokenRefusal_read⟩
  have second : (expired.run refusedAndClosed).transport.generation + 1 = 2 := by rw [transport]
  obtain ⟨_, possible⟩ :=
    newer_socket_left_iff Sample.board [] (some "token") .lightPink none refusedAndClosed
  have left := (possible (congrArg (·.phase) transport) (congrArg (·.isHeard) transport) running
    rfl).mpr (.inr unread)
  exact ⟨transport, running, unread, second ▸ left⟩

/-- The second socket is opened, and then the session reads of the refusal. -/
def lateRefusal : List Turn :=
  refusedAndClosed ++ [.connected, .read]

/-- The transport leaves the second socket for the token that was refused on the first one. -/
theorem newer_socket_left_lateRefusal
    : ∃ report,
        (expired.run lateRefusal).Leaves 2 report
        ∧ report.socket = 1
        ∧ ((expired.run lateRefusal).step (.take none)).transport = ⟨.waiting, 2, true⟩ := by
  have queue
      : (expired.run lateRefusal).queue.map
          (fun dispatch => (dispatch.isReconnect, dispatch.cause.map (·.socket)))
        = [(true, some 1)] := by
    decide +kernel
  obtain ⟨dispatch, alone, asks⟩ := List.map_eq_singleton_iff.mp queue
  obtain ⟨isReconnect, caused⟩ := Prod.mk.inj asks
  obtain ⟨report, cause, first⟩ := Option.map_eq_some_iff.mp caused
  refine ⟨report, ⟨by decide +kernel, dispatch, [], alone, ?_, cause⟩, first, by decide +kernel⟩
  exact Dispatch.isReconnect_iff.mp isReconnect

end Client

end SharedBoard
