import Mathlib.Data.List.Induction
import SharedBoard.Proofs.Session.Presence
import SharedBoard.Proofs.Transport

/-! A client: a session and its transport, each working through what the other has put in a queue.
What waits carries a note of where it comes from, which neither side can see.
-/

namespace SharedBoard

/-- A report of the transport, with the number of sockets that were opened by then. A frame arrived
on the last of them.
-/
structure Report where
  event : TransportEvent
  socket : Nat
deriving DecidableEq

/-- Something that a session asks of its transport, with the socket that was open when it did, and
the report that it was reading.
-/
structure Dispatch where
  item : Outgoing Float
  during : Option Nat
  cause : Option Report

/-- Something that a transport took from its queue, with the socket that was open then. -/
structure Taken where
  dispatch : Dispatch
  socket : Option Nat

/-- A session and its transport, with what either has not seen yet of the other, and what was taken
and written so far.
-/
structure Client where
  session : Session
  transport : Transport
  reports : List Report
  queue : List Dispatch
  taken : List Taken
  written : List (Nat × Transmission)

/-- Who is next: the server, the network or the clock by way of the transport, the transport with
its queue, the session with the reports, or the user.
-/
inductive Turn where
  | world (occurrence : Occurrence) (outside : occurrence.takes = false)
  | take (refusal : Option String)
  | read
  | user (input : Session.Input) (own : ∀ event, input ≠ .transport event)

namespace Turn

/-- An attempt to connect succeeds. -/
def connected : Turn :=
  .world .connected rfl

/-- The server sends a text. -/
def text (text : String) : Turn :=
  .world (.arrived (.text text)) rfl

/-- The server closes the socket. -/
def closed : Turn :=
  .world (.arrived (.close none)) rfl

/-- It is time for another attempt to connect. -/
def delayOver : Turn :=
  .world .delayOver rfl

end Turn

namespace Client

/-- The transport did something: the session will read its reports. -/
def carry (client : Client) (activity : Activity) : Client :=
  { client with
    transport := activity.transport
    reports := client.reports
      ++ activity.events.map fun event => ⟨event, activity.transport.generation⟩
    written := client.written
      ++ activity.written.map fun transmission => (client.transport.generation, transmission) }

/-- Something happens to the session: the transport will take what it asks for. -/
def follow (client : Client) (cause : Option Report) (input : Session.Input) : Client :=
  let reaction := client.session.step input
  { client with
    session := reaction.session
    queue := client.queue
      ++ reaction.sent.map fun item => ⟨item, client.transport.current?, cause⟩ }

/-- The client that has taken its next item, before the transport does anything about it. -/
def popped (client : Client) (dispatch : Dispatch) (rest : List Dispatch) : Client :=
  { client with
    queue := rest
    taken := client.taken ++ [⟨dispatch, client.transport.current?⟩] }

/-- What comes of a turn. Items wait while the transport does not take any. -/
def step (client : Client) : Turn → Client
  | .world occurrence _ => client.carry (client.transport.step occurrence)
  | .take refusal =>
      match client.queue with
      | [] => client
      | dispatch :: rest =>
          if client.transport.isTaking then
            (client.popped dispatch rest).carry
              (client.transport.step (.taken dispatch.item refusal))
          else
            client
  | .read =>
      match client.reports with
      | [] => client
      | report :: rest =>
          ({ client with reports := rest } : Client).follow (some report) (.transport report.event)
  | .user input _ => client.follow none input

/-- What comes of several turns in order. -/
def run (client : Client) (turns : List Turn) : Client :=
  turns.foldl step client

/-- A client that has just been started. -/
def start (session : Session) : Client :=
  (⟨session, ⟨.connecting, 0, true⟩, [], [], [], []⟩ : Client).carry Transport.start

/-- All that the session asked for so far. -/
def made (client : Client) : List Dispatch :=
  client.taken.map (·.dispatch) ++ client.queue

@[simp] theorem run_nil (client : Client) : client.run [] = client :=
  rfl

@[simp] theorem run_cons (client : Client) (turn : Turn) (rest : List Turn)
    : client.run (turn :: rest) = (client.step turn).run rest :=
  rfl

theorem run_append (client : Client) (first second : List Turn)
    : client.run (first ++ second) = (client.run first).run second :=
  List.foldl_append

theorem run_concat (client : Client) (turns : List Turn) (last : Turn)
    : client.run (turns ++ [last]) = (client.run turns).step last :=
  List.foldl_concat ..

/-- Taking an item does not change what was made. -/
theorem made_popped {client : Client} {dispatch : Dispatch} {rest : List Dispatch}
    (next : client.queue = dispatch :: rest)
    : (client.popped dispatch rest).made = client.made := by
  simp [made, popped, next]

/-- The session reads the first report that waits. -/
theorem step_read {client : Client} {report : Report} {rest : List Report}
    (next : client.reports = report :: rest)
    : client.step .read
      = ({ client with reports := rest } : Client).follow (some report)
          (.transport report.event) := by
  simp only [step, next]

/-- With an open socket the transport takes the first item that waits. -/
theorem step_take {client : Client} {dispatch : Dispatch} {rest : List Dispatch} {socket : Nat}
    (next : client.queue = dispatch :: rest) (current : client.transport.current? = some socket)
    (refusal : Option String)
    : client.step (.take refusal)
      = (client.popped dispatch rest).carry
          (client.transport.step (.taken dispatch.item refusal)) := by
  have taking : client.transport.isTaking = true := by
    simp [Transport.isTaking, (Transport.current?_eq_some.mp current).1]
  simp only [step, next, if_pos taking]

/-- What is preserved when the transport does something that takes nothing, when it takes an item,
when a report is read and when something happens to the session, is preserved in every turn.
-/
theorem step_induction {motive : Client → Prop} {client : Client} (holds : motive client)
    (carried
      : ∀ occurrence, occurrence.takes = false →
          motive (client.carry (client.transport.step occurrence)))
    (took
      : ∀ dispatch rest refusal, client.queue = dispatch :: rest →
          motive ((client.popped dispatch rest).carry
            (client.transport.step (.taken dispatch.item refusal))))
    (read
      : ∀ report rest, client.reports = report :: rest →
          motive (({ client with reports := rest } : Client).follow (some report)
            (.transport report.event)))
    (acted
      : ∀ input, (∀ event, input ≠ .transport event) → motive (client.follow none input))
    (turn : Turn)
    : motive (client.step turn) := by
  cases turn with
  | world occurrence outside => exact carried occurrence outside
  | take refusal =>
      simp only [step]
      split
      · exact holds
      · next dispatch rest next =>
          split
          · exact took dispatch rest refusal next
          · exact holds
  | read =>
      simp only [step]
      split
      · exact holds
      · next report rest next => exact read report rest next
  | user input own => exact acted input own

/-- What holds at first and is preserved in every turn holds after all turns, by induction over the
turns from the end.
-/
theorem run_induction {motive : Client → Prop} {client : Client} (holds : motive client)
    (preserved : ∀ client, motive client → ∀ turn, motive (client.step turn)) (turns : List Turn)
    : motive (client.run turns) := by
  induction turns using List.reverseRecOn with
  | nil => exact holds
  | append_singleton early last ih =>
      rw [run_concat]
      exact preserved _ ih last

/-- What was made when something happens to the session. -/
theorem made_follow (client : Client) (cause : Option Report) (input : Session.Input)
    : (client.follow cause input).made
      = client.made ++ (client.session.step input).sent.map
          fun item => ⟨item, client.transport.current?, cause⟩ := by
  simp only [made, follow, List.append_assoc]

-----------------------------------------------------------------------------------------
-- Sockets that were opened
-----------------------------------------------------------------------------------------

/-- No socket has been named that was not opened yet. -/
structure Bounded (client : Client) : Prop where
  reported : ∀ report ∈ client.reports, report.socket ≤ client.transport.generation
  opened
    : ∀ report ∈ client.reports, ∀ generation, report.event = .opened generation →
        generation ≤ client.transport.generation
  known
    : ∀ generation, client.session.link.generation = some generation →
        generation ≤ client.transport.generation
  stamped
    : ∀ dispatch ∈ client.made, ∀ generation message, dispatch.item = .message generation message →
        generation ≤ client.transport.generation
  caused
    : ∀ dispatch ∈ client.made, ∀ report, dispatch.cause = some report →
        report.socket ≤ client.transport.generation
  taken
    : ∀ entry ∈ client.taken, ∀ socket, entry.socket = some socket →
        socket ≤ client.transport.generation
  written : ∀ entry ∈ client.written, entry.1 ≤ client.transport.generation

variable {client : Client}

/-- An activity that opens no socket but the next one names none but that. -/
theorem Bounded.carry (bounded : client.Bounded) {activity : Activity}
    (grows : client.transport.generation ≤ activity.transport.generation)
    (opens
      : ∀ generation, .opened generation ∈ activity.events →
          generation ≤ activity.transport.generation)
    : (client.carry activity).Bounded where
  reported report member := by
    rcases List.mem_append.mp member with early | late
    · exact Nat.le_trans (bounded.reported report early) grows
    · obtain ⟨event, _, rfl⟩ := List.mem_map.mp late
      exact Nat.le_refl _
  opened report member generation isOpened := by
    rcases List.mem_append.mp member with early | late
    · exact Nat.le_trans (bounded.opened report early generation isOpened) grows
    · obtain ⟨event, added, rfl⟩ := List.mem_map.mp late
      exact opens generation (isOpened ▸ added)
  known generation now := Nat.le_trans (bounded.known generation now) grows
  stamped dispatch member generation message held :=
    Nat.le_trans (bounded.stamped dispatch member generation message held) grows
  caused dispatch member report cause :=
    Nat.le_trans (bounded.caused dispatch member report cause) grows
  taken entry member socket now := Nat.le_trans (bounded.taken entry member socket now) grows
  written entry member := by
    rcases List.mem_append.mp member with early | late
    · exact Nat.le_trans (bounded.written entry early) grows
    · obtain ⟨transmission, _, rfl⟩ := List.mem_map.mp late
      exact grows

/-- A step of the transport does so. -/
theorem Bounded.carry_step (bounded : client.Bounded) (occurrence : Occurrence)
    : (client.carry (client.transport.step occurrence)).Bounded := by
  rcases client.transport.keeps_or_connected occurrence with keeps | ⟨_, connected⟩
  · exact bounded.carry (Nat.le_of_eq keeps.generation.symm) fun generation member =>
      absurd member (keeps.unopened generation)
  · rw [connected, Transport.onConnected, Transport.proceed]
    split
    · refine bounded.carry (Nat.le_succ _) fun generation member => ?_
      obtain rfl := TransportEvent.opened.inj (List.mem_singleton.mp member)
      exact Nat.le_refl _
    · exact bounded.carry (Nat.le_succ _) fun generation member => absurd member List.not_mem_nil

/-- Taking an item names only the socket that is open. -/
theorem Bounded.popped (bounded : client.Bounded) {dispatch : Dispatch} {rest : List Dispatch}
    (next : client.queue = dispatch :: rest)
    : (client.popped dispatch rest).Bounded where
  reported := bounded.reported
  opened := bounded.opened
  known := bounded.known
  stamped := made_popped next ▸ bounded.stamped
  caused := made_popped next ▸ bounded.caused
  taken entry member socket now := by
    rcases List.mem_append.mp member with early | late
    · exact bounded.taken entry early socket now
    · obtain rfl := List.mem_singleton.mp late
      exact Nat.le_of_eq (Transport.current?_eq_some.mp now).2.symm
  written := bounded.written

/-- A session learns of sockets from reports only, and names those it knows. -/
theorem Bounded.follow (bounded : client.Bounded) {cause : Option Report} {input : Session.Input}
    (reported : ∀ report, cause = some report → report.socket ≤ client.transport.generation)
    (opened
      : ∀ generation, input = .transport (.opened generation) →
          generation ≤ client.transport.generation)
    : (client.follow cause input).Bounded where
  reported := bounded.reported
  opened := bounded.opened
  known generation now :=
    (Session.generation_of_step now).elim (bounded.known generation) (opened generation)
  stamped dispatch member generation message held := by
    rw [made_follow] at member
    rcases List.mem_append.mp member with early | late
    · exact bounded.stamped dispatch early generation message held
    · obtain ⟨item, sent, rfl⟩ := List.mem_map.mp late
      obtain rfl : item = _ := held
      exact (Session.stamp_of_sent sent).elim (bounded.known generation) (opened generation)
  caused dispatch member report caused := by
    rw [made_follow] at member
    rcases List.mem_append.mp member with early | late
    · exact bounded.caused dispatch early report caused
    · obtain ⟨item, _, rfl⟩ := List.mem_map.mp late
      exact reported report caused
  taken := bounded.taken
  written := bounded.written

/-- No turn names a socket that was not opened yet, by cases on the turn. -/
theorem Bounded.step (bounded : client.Bounded) (turn : Turn) : (client.step turn).Bounded := by
  refine step_induction bounded (fun occurrence _ => bounded.carry_step occurrence) ?_ ?_ ?_ turn
  · intro dispatch rest refusal next
    exact (bounded.popped next).carry_step (.taken dispatch.item refusal)
  · intro report rest next
    have here : report ∈ client.reports := next ▸ List.mem_cons_self
    have left : ({ client with reports := rest } : Client).Bounded :=
      { bounded with
        reported := fun other member =>
          bounded.reported other (next ▸ List.mem_cons_of_mem _ member)
        opened := fun other member =>
          bounded.opened other (next ▸ List.mem_cons_of_mem _ member) }
    refine left.follow ?_ ?_
    · intro other same
      exact Option.some.inj same ▸ bounded.reported report here
    · intro generation same
      exact bounded.opened report here generation (Session.Input.transport.inj same)
  · intro input own
    exact bounded.follow (by simp) fun generation same => absurd same (own _)

/-- A client that has just been started with a session that knows no socket names none. -/
theorem bounded_start {session : Session} (unknown : session.link.generation = none)
    : (start session).Bounded := by
  refine Bounded.carry ?_ (Nat.le_refl _)
    (by simp [Transport.start, Transport.connect, Transport.proceed])
  constructor <;> simp [made, unknown]

/-- No run names a socket that was not opened yet. -/
theorem bounded_run {session : Session} (unknown : session.link.generation = none)
    (turns : List Turn)
    : ((start session).run turns).Bounded :=
  run_induction (bounded_start unknown) (fun _ bounded turn => bounded.step turn) turns

-----------------------------------------------------------------------------------------
-- What was made
-----------------------------------------------------------------------------------------

/-- The session has had some inputs, and all that it asked for was made. -/
def HasRun (session : Session) (client : Client) (inputs : List Session.Input) : Prop :=
  client.session = (session.run inputs).session
  ∧ client.made.map (·.item) = (session.run inputs).sent

/-- One more input of the session makes what the session asks for. -/
theorem HasRun.follow {session : Session} {inputs : List Session.Input}
    (hasRun : HasRun session client inputs) (cause : Option Report) (input : Session.Input)
    : HasRun session (client.follow cause input) (inputs ++ [input]) := by
  refine ⟨?_, ?_⟩
  · rw [session.run_concat, ← hasRun.1]
    rfl
  · rw [made_follow, List.map_append, hasRun.2, session.sent_run_concat, ← hasRun.1, List.map_map]
    exact congrArg (_ ++ ·) (List.map_id _)

/-- In every run of a client the session runs on some inputs, by cases on the turn. -/
theorem exists_hasRun (session : Session) (turns : List Turn)
    : ∃ inputs, HasRun session ((start session).run turns) inputs := by
  refine run_induction (motive := fun client => ∃ inputs, HasRun session client inputs)
    ⟨[], rfl, rfl⟩ ?_ turns
  rintro client ⟨inputs, hasRun⟩ turn
  refine step_induction (motive := fun client => ∃ inputs, HasRun session client inputs)
    ⟨inputs, hasRun⟩ (fun _ _ => ⟨inputs, hasRun⟩) ?_ ?_ ?_ turn
  · intro dispatch rest refusal next
    exact ⟨inputs, hasRun.1, (congrArg _ (made_popped next)).trans hasRun.2⟩
  · intro report rest _
    have left : HasRun session { client with reports := rest } inputs := hasRun
    exact ⟨_, left.follow _ _⟩
  · intro input _
    exact ⟨_, hasRun.follow none input⟩

end Client

end SharedBoard
