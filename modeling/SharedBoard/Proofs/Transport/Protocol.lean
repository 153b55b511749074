import SharedBoard.Proofs.Transport.Reports

/-! The protocol of a transport: what it reports in which order, what it writes on which socket, and
how it ends.
-/

namespace SharedBoard

/-- Whether a transmission answers a ping. -/
def Transmission.isPong : Transmission → Bool
  | .pong _ => true
  | _ => false

/-- The message for a socket in the item that is taken from the queue. -/
def Occurrence.messageFor? (socket : Nat) : Occurrence → Option (Message Float)
  | .taken item _ => item.messageFor? socket
  | _ => none

/-- Whether a transport that reads of it has to end: it is told to, or nothing will come any more.
-/
def Occurrence.stops : Occurrence → Bool
  | .taken .shutdown _ => true
  | .abandoned => true
  | _ => false

/-- What was written on a socket, in order, apart from answers to pings. -/
def writtenOn (history : List Moment) (socket : Nat) : List Transmission :=
  ((history.filter (·.transport.generation == socket)).flatMap (·.activity.written)).filter
    (!·.isPong)

/-- The messages for a socket among what was taken from the queue while it was open, in order. -/
def takenFor (history : List Moment) (socket : Nat) : List (Message Float) :=
  (history.filter (·.transport.current? == some socket)).filterMap
    (·.occurrence.messageFor? socket)

namespace Transport

variable {transport : Transport} {socket : Nat}

-----------------------------------------------------------------------------------------
-- Writing
-----------------------------------------------------------------------------------------

/-- Giving the attempt or the socket up writes nothing and leaves no socket open. -/
theorem left_proceed {phase : Phase} (notOpen : phase ≠ .open) (event : TransportEvent)
    : (transport.proceed phase event).transport.current? = none := by
  unfold proceed
  split <;> simp [current?, notOpen, Activity.quiet]

/-- The socket is left, and nothing is written on it but perhaps a last close. -/
def Leaves (activity : Activity) : Prop :=
  activity.transport.current? = none
  ∧ (activity.written.filter (!·.isPong) = [] ∨ activity.written.filter (!·.isPong) = [.close])

theorem leaves_lose (reason : String) : Leaves (transport.lose reason) :=
  ⟨left_proceed (by decide) _, .inl (by rw [lose, written_proceed]; rfl)⟩

theorem leaves_finish : Leaves transport.finish :=
  ⟨left_proceed (by decide) _, .inr (by rw [finish, writing, written_proceed]; rfl)⟩

/-- Nothing but a pong is written for what arrives, unless the socket is left, by cases on what it
is.
-/
theorem written_onFrame (frame : SocketFrame)
    : (transport.onFrame frame).written.filter (!·.isPong) = []
      ∨ Leaves (transport.onFrame frame) := by
  cases frame with
  | text text =>
      simp only [onFrame]
      split
      · exact .inl rfl
      · exact .inr leaves_finish
  | close reason => exact .inr (leaves_lose _)
  | ping payload => exact .inl rfl
  | other => exact .inl rfl

/-- The message for the socket is written that is taken, unless the socket is left, by cases on the
item.
-/
theorem written_onItem (refusal : Option String) (item : Outgoing Float)
    : (transport.onItem refusal item).written.filter (!·.isPong)
        = (item.messageFor? transport.generation).toList.map .message
      ∨ Leaves (transport.onItem refusal item) := by
  cases item with
  | message stamp held =>
      simp only [onItem, Outgoing.messageFor?]
      split
      · cases refusal with
        | none => exact .inl rfl
        | some reason => exact .inr (leaves_lose _)
      · exact .inl rfl
  | reconnect =>
      refine .inr ⟨left_proceed (by decide) _, .inr ?_⟩
      rw [onItem, writing, lose, written_proceed]
      rfl
  | shutdown => exact .inr leaves_finish

/-- On an open socket the message is written that is taken for it, or the socket is left. -/
theorem written_on_socket (current : transport.current? = some socket) (occurrence : Occurrence)
    : (transport.step occurrence).written.filter (!·.isPong)
        = (occurrence.messageFor? socket).toList.map .message
      ∨ Leaves (transport.step occurrence) := by
  obtain ⟨isOpen, rfl⟩ := current?_eq_some.mp current
  cases occurrence with
  | arrived frame =>
      simp only [step, isOpen]
      exact written_onFrame frame
  | lost reason =>
      simp only [step, isOpen]
      exact .inr (leaves_lose _)
  | taken item refusal =>
      simp only [step, isOpen]
      exact written_onItem refusal item
  | abandoned =>
      simp only [step, isOpen]
      exact .inr leaves_finish
  | _ =>
      simp only [step, isOpen]
      exact .inl rfl

/-- What was written on a socket are the messages that were taken for it, to the last one while it
is open; once it was left a close may have followed.
-/
structure Wrote (history : List Moment) (now : Transport) (socket : Nat) : Prop where
  ahead
    : ∃ messages closing,
        messages <+: takenFor history socket
        ∧ (closing = [] ∨ closing = [.close])
        ∧ writtenOn history socket = messages.map .message ++ closing
  whole
    : now.current? = some socket →
        writtenOn history socket = (takenFor history socket).map .message

theorem writtenOn_concat (history : List Moment) (last : Moment) (socket : Nat)
    : writtenOn (history ++ [last]) socket
      = writtenOn history socket
        ++ if last.transport.generation = socket then
            last.activity.written.filter (!·.isPong)
          else [] := by
  by_cases here : last.transport.generation = socket <;> simp [writtenOn, here]

theorem takenFor_concat (history : List Moment) (last : Moment) (socket : Nat)
    : takenFor (history ++ [last]) socket
      = takenFor history socket
        ++ if last.transport.current? = some socket then
            (last.occurrence.messageFor? socket).toList
          else [] := by
  by_cases current : last.transport.current? = some socket
  · cases held : last.occurrence.messageFor? socket <;> simp [takenFor, current, held]
  · simp [takenFor, current]

section

variable {history : List Moment} (wrote : Wrote history transport socket)
include wrote

/-- Whatever happens on the socket keeps to that, by whether the socket is left. -/
theorem Wrote.on_socket (current : transport.current? = some socket) (occurrence : Occurrence)
    : Wrote (history ++ [⟨transport, occurrence⟩]) (transport.step occurrence).transport
        socket := by
  have written : writtenOn (history ++ [⟨transport, occurrence⟩]) socket
      = (takenFor history socket).map .message
        ++ (transport.step occurrence).written.filter (!·.isPong) := by
    rw [writtenOn_concat, wrote.whole current, if_pos (current?_eq_some.mp current).2]
    rfl
  have taken : takenFor (history ++ [⟨transport, occurrence⟩]) socket
      = takenFor history socket ++ (occurrence.messageFor? socket).toList := by
    rw [takenFor_concat, if_pos current]
  rcases written_on_socket current occurrence with same | ⟨left, closing⟩
  · have all : writtenOn (history ++ [⟨transport, occurrence⟩]) socket
        = (takenFor (history ++ [⟨transport, occurrence⟩]) socket).map .message := by
      rw [written, taken, same, List.map_append]
    exact ⟨⟨_, [], List.prefix_rfl, .inl rfl, by rw [all, List.append_nil]⟩, fun _ => all⟩
  · refine ⟨⟨takenFor history socket, _, taken ▸ List.prefix_append _ _, closing, written⟩, ?_⟩
    exact fun still => absurd (left.symm.trans still) (by simp)

/-- Whatever happens elsewhere adds nothing, neither written nor taken. -/
theorem Wrote.elsewhere
    (bounded : ∀ moment ∈ history, moment.transport.generation ≤ transport.generation)
    (other : transport.current? ≠ some socket) (occurrence : Occurrence)
    : Wrote (history ++ [⟨transport, occurrence⟩]) (transport.step occurrence).transport
        socket := by
  have written : writtenOn (history ++ [⟨transport, occurrence⟩]) socket
      = writtenOn history socket := by
    rw [writtenOn_concat]
    split
    · next here =>
        have away : transport.current? = none :=
          if_neg fun isOpen => other (current?_eq_some.mpr ⟨isOpen, here⟩)
        simp [Moment.activity, written_of_no_socket away]
    · exact List.append_nil _
  have taken : takenFor (history ++ [⟨transport, occurrence⟩]) socket
      = takenFor history socket := by
    rw [takenFor_concat, if_neg other, List.append_nil]
  refine ⟨by rw [written, taken]; exact wrote.ahead, fun now => ?_⟩
  rw [written, taken]
  -- A socket that is open only now was opened just now, so nothing happened on it before.
  have later : transport.generation < socket := by
    rcases transport.keeps_or_connected occurrence with keeps | ⟨_, connected⟩
    · exact absurd (keeps.current? now) other
    · rw [← (current?_eq_some.mp now).2, connected, onConnected, proceed]
      split <;> exact Nat.lt_succ_self _
  have nothing : takenFor history socket = [] := by
    rw [takenFor, List.filterMap_eq_nil_iff]
    intro moment member
    obtain ⟨member, open'⟩ := List.mem_filter.mp member
    have same := (current?_eq_some.mp (beq_iff_eq.mp open')).2
    have := bounded moment member
    omega
  rw [nothing, writtenOn, history_of_later bounded later]
  rfl

end

/-- So it is after every run, by induction over the run from its end. -/
theorem wrote_run (transport : Transport) (occurrences : List Occurrence) (socket : Nat)
    : Wrote (transport.history occurrences) (transport.run occurrences).transport socket := by
  induction occurrences using List.reverseRecOn with
  | nil => exact ⟨⟨[], [], List.nil_prefix, .inl rfl, rfl⟩, fun _ => rfl⟩
  | append_singleton early last ih =>
      rw [history_concat, run_concat]
      by_cases current : (transport.run early).transport.current? = some socket
      · exact ih.on_socket current last
      · exact ih.elsewhere (transport.generation_le_run early) current last

-----------------------------------------------------------------------------------------
-- Ending
-----------------------------------------------------------------------------------------

/-- Nothing comes of anything that happens to a transport that has ended. -/
theorem step_of_ended (ended : transport.phase = .ended) (occurrence : Occurrence)
    : (transport.step occurrence).transport.phase = .ended
      ∧ (transport.step occurrence).events = [] := by
  cases occurrence <;> simp [step, ended, Activity.quiet]

/-- A transport that has ended stays so, by induction over what happens. -/
theorem run_of_ended (ended : transport.phase = .ended) (occurrences : List Occurrence)
    : (transport.run occurrences).transport.phase = .ended
      ∧ (transport.run occurrences).events = [] := by
  induction occurrences generalizing transport with
  | nil => exact ⟨ended, rfl⟩
  | cons head rest ih =>
      obtain ⟨still, silent⟩ := step_of_ended ended head
      obtain ⟨atEnd, quiet⟩ := ih still
      rw [run_eq_andThen]
      exact ⟨atEnd, by rw [Activity.andThen, silent, quiet, List.append_nil]⟩

/-- A transport that reads that it has to end does so; it reports that an open socket is closed. -/
theorem step_of_stops (taking : transport.isTaking = true) {occurrence : Occurrence}
    (stops : occurrence.stops = true)
    : (transport.step occurrence).transport.phase = .ended
      ∧ (transport.step occurrence).events
        = if transport.phase = .open ∧ transport.isHeard then [.closed "closed by client"]
          else [] := by
  have finishing (isOpen : transport.phase = .open)
      : transport.finish.transport.phase = .ended
        ∧ transport.finish.events
          = if transport.phase = .open ∧ transport.isHeard then [.closed "closed by client"]
            else [] := by
    unfold finish proceed
    by_cases isHeard : transport.isHeard <;> simp [isOpen, isHeard, writing, Activity.quiet]
  have cases : transport.phase = .open ∨ transport.phase = .waiting := by
    simpa [isTaking] using taking
  rcases cases with isOpen | waiting
  · have same : transport.step occurrence = transport.finish := by
      unfold Occurrence.stops at stops
      split at stops
      · simp only [step, isOpen, onItem]
      · simp only [step, isOpen]
      · simp at stops
    rw [same]
    exact finishing isOpen
  · unfold Occurrence.stops at stops
    split at stops
    · simp [step, waiting, onItemWaiting, Activity.quiet]
    · simp [step, waiting, Activity.quiet]
    · simp at stops

-----------------------------------------------------------------------------------------
-- Runs
-----------------------------------------------------------------------------------------

/-- Whatever happens to a transport in whatever order, its reports are the beginning of blocks, one
for each attempt to connect, that number the sockets on from one; each block holds the texts that
arrived on its socket while somebody listened, and all those were reported. On each socket it
writes, answers to pings apart, the messages for that socket in the order in which they are taken
from the queue while it is open, and perhaps a last close. When it reads that it has to end it
reports at most that an open socket is closed, and never does anything again.
-/
theorem reports_follow_protocol (isHeard : Bool) (occurrences : List Occurrence)
    : let begun := connect ⟨.connecting, 0, isHeard⟩
      let history := begun.transport.history occurrences
      let activity := begun.andThen (·.run occurrences)
      (∃ blocks, activity.events <+: reportsOf (textsOn history) 0 blocks)
      ∧ activity.events.filterMap TransportEvent.text? = history.filterMap Moment.heard?
      ∧ (∀ socket, ∃ messages closing,
          messages <+: takenFor history socket
          ∧ (closing = [] ∨ closing = [.close])
          ∧ writtenOn history socket = messages.map .message ++ closing
          ∧ (activity.transport.current? = some socket →
              messages = takenFor history socket ∧ closing = []))
      ∧ ∀ before stop after,
          occurrences = before ++ stop :: after → stop.stops = true →
          let early := begun.andThen (·.run before)
          early.transport.isTaking = true →
            activity.transport.phase = .ended
            ∧ activity.events
              = early.events
                ++ if early.transport.phase = .open ∧ early.transport.isHeard then
                    [.closed "closed by client"]
                  else [] := by
  intro begun history activity
  have told : Tells (fun _ => []) begun.transport begun.events := by
    simp only [begun, connect, proceed]
    split
    · exact .connecting [] rfl rfl
    · exact .ended [] rfl List.prefix_rfl
  refine ⟨(tells_run told occurrences).exists_blocks, ?_, fun socket => ?_, ?_⟩
  · have first : begun.events.filterMap TransportEvent.text? = [] := texts_proceed _ _ rfl
    change (begun.events ++ _).filterMap _ = _
    rw [List.filterMap_append, first, List.nil_append]
    exact texts_run _ _
  · have wrote := begun.transport.wrote_run occurrences socket
    by_cases current : activity.transport.current? = some socket
    · refine ⟨_, [], List.prefix_rfl, .inl rfl, ?_, fun _ => ⟨rfl, rfl⟩⟩
      rw [wrote.whole current, List.append_nil]
    · obtain ⟨messages, closing, ahead, last, written⟩ := wrote.ahead
      exact ⟨messages, closing, ahead, last, written, fun now => absurd now current⟩
  · rintro before stop after rfl stops early taking
    obtain ⟨ended, closed⟩ := step_of_stops taking stops
    obtain ⟨still, silent⟩ := run_of_ended ended after
    have split : activity
        = (early.andThen (·.step stop)).andThen (·.run after) := by
      simp only [activity, early, Activity.andThen_assoc, run_append, run_eq_andThen]
    rw [split]
    refine ⟨still, ?_⟩
    change early.events ++ (early.transport.step stop).events
      ++ ((early.transport.step stop).transport.run after).events = _
    rw [silent, closed, List.append_nil]

/-- Two sockets, one after the other: a text and a ping arrive on the first one, and it is given up
on request. A message for the first one is taken from the queue on either.
-/
def twoSockets : List Occurrence :=
  [.connected, .arrived (.text "hello"), .taken (.message 1 ⟨.authenticate "token", none⟩) none,
    .arrived (.ping "?"), .taken .reconnect none, .delayOver, .connected,
    .taken (.message 1 ⟨.authenticate "token", none⟩) none]

/-- Its message is written on the first socket alone, and a request to end closes the second one. -/
theorem reports_follow_protocol_twoSockets
    : let early := start.andThen (·.run twoSockets)
      let history := start.transport.history twoSockets
      early.transport = ⟨.open, 2, true⟩
      ∧ early.events
        = [.connecting, .opened 1, .message "hello", .closed "reconnect requested", .connecting,
            .opened 2]
      ∧ ((writtenOn history 1).length, (writtenOn history 2).length) = (2, 0)
      ∧ (∃ messages closing,
          messages <+: takenFor history 2
          ∧ writtenOn history 2 = messages.map .message ++ closing)
      ∧ ∀ after,
          (start.andThen (·.run (twoSockets ++ .taken .shutdown none :: after))).events
          = early.events ++ [.closed "closed by client"] := by
  refine ⟨by decide, by decide, by decide, ?_, fun after => ?_⟩
  · obtain ⟨_, _, served, _⟩ := reports_follow_protocol true twoSockets
    obtain ⟨messages, closing, ahead, _, written, _⟩ := served 2
    exact ⟨messages, closing, ahead, written⟩
  · obtain ⟨_, _, _, ends⟩ :=
      reports_follow_protocol true (twoSockets ++ .taken .shutdown none :: after)
    exact (ends twoSockets _ after rfl rfl (by decide)).2

end Transport

end SharedBoard
