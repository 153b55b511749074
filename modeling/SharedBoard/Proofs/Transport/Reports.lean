import Mathlib.Data.List.Induction
import SharedBoard.Proofs.Transport

/-! What a transport reports, over whole runs. The reports fall into one block for each attempt to
connect; a block that opens a socket holds the texts that arrived on that socket while somebody
listened, and nothing is reported anywhere else.
-/

namespace SharedBoard

-----------------------------------------------------------------------------------------
-- Histories
-----------------------------------------------------------------------------------------

/-- Something that happened to a transport, with the state in which it did. -/
structure Moment where
  transport : Transport
  occurrence : Occurrence

/-- What came of it. -/
def Moment.activity (moment : Moment) : Activity :=
  moment.transport.step moment.occurrence

/-- The text that was reported: one that arrived on an open socket while somebody listened. -/
def Moment.heard? (moment : Moment) : Option String :=
  match moment.occurrence with
  | .arrived (.text text) =>
      if moment.transport.phase = .open ∧ moment.transport.isHeard then some text else none
  | _ => none

/-- A text that is heard arrives on an open socket, and is reported. -/
theorem Transport.step_of_heard {transport : Transport} {occurrence : Occurrence} {text : String}
    (heard : (⟨transport, occurrence⟩ : Moment).heard? = some text)
    : transport.phase = .open
      ∧ transport.step occurrence = ⟨transport, [.message text], []⟩ := by
  unfold Moment.heard? at heard
  split at heard
  · next other arrived =>
      obtain rfl : occurrence = _ := arrived
      obtain ⟨⟨isOpen, isHeard⟩, same⟩ := Option.ite_none_right_eq_some.mp heard
      refine ⟨isOpen, ?_⟩
      simp only [step, show transport.phase = .open from isOpen, onFrame]
      rw [if_pos isHeard, Option.some.inj same]
  · simp at heard

/-- The text of a report, if it is that of a frame. -/
def TransportEvent.text? : TransportEvent → Option String
  | .message text => some text
  | _ => none

namespace Activity

theorem andThen_assoc (activity : Activity) (first second : Transport → Activity)
    : (activity.andThen first).andThen second
      = activity.andThen (fun transport => (first transport).andThen second) := by
  simp only [andThen, List.append_assoc]

/-- A step that follows nothing counts alone. -/
theorem quiet_andThen (transport : Transport) (step : Transport → Activity)
    : (quiet transport).andThen step = step transport := by
  simp only [andThen, quiet, List.nil_append]

/-- Nothing is added by a step that does nothing. -/
theorem andThen_quiet (activity : Activity) : activity.andThen quiet = activity := by
  simp only [andThen, quiet, List.append_nil]

end Activity

namespace Transport

/-- What happens in a run, moment by moment. -/
def history (transport : Transport) : List Occurrence → List Moment
  | [] => []
  | occurrence :: rest =>
      ⟨transport, occurrence⟩ :: (transport.step occurrence).transport.history rest

/-- What comes of an occurrence and then of others, by induction over these. -/
theorem run_eq_andThen (transport : Transport) (occurrence : Occurrence)
    (rest : List Occurrence)
    : transport.run (occurrence :: rest) = (transport.step occurrence).andThen (·.run rest) := by
  have fold (activity : Activity) (occurrences : List Occurrence)
      : occurrences.foldl (fun activity occurrence => activity.andThen (·.step occurrence)) activity
        = activity.andThen (·.run occurrences) := by
    induction occurrences generalizing activity with
    | nil => exact activity.andThen_quiet.symm
    | cons head tail ih =>
        have first (transport : Transport)
            : transport.run (head :: tail) = (transport.step head).andThen (·.run tail) := by
          rw [run, List.foldl_cons, ih, Activity.quiet_andThen]
        simp only [List.foldl_cons, ih, Activity.andThen_assoc, first]
  rw [run, List.foldl_cons, fold, Activity.quiet_andThen]

/-- What comes of two runs, one after the other, by induction over the first. -/
theorem run_append (transport : Transport) (first second : List Occurrence)
    : transport.run (first ++ second) = (transport.run first).andThen (·.run second) := by
  induction first generalizing transport with
  | nil => exact (Activity.quiet_andThen transport (·.run second)).symm
  | cons head rest ih =>
      simp only [List.cons_append, run_eq_andThen, ih, Activity.andThen_assoc]

/-- What comes of a run and of a last occurrence. -/
theorem run_concat (transport : Transport) (occurrences : List Occurrence) (last : Occurrence)
    : transport.run (occurrences ++ [last])
      = (transport.run occurrences).andThen (·.step last) := by
  rw [run, List.foldl_append]
  rfl

/-- The last moment of a run, by induction over what happened before. -/
theorem history_concat (transport : Transport) (occurrences : List Occurrence)
    (last : Occurrence)
    : transport.history (occurrences ++ [last])
      = transport.history occurrences ++ [⟨(transport.run occurrences).transport, last⟩] := by
  induction occurrences generalizing transport with
  | nil => rfl
  | cons head rest ih =>
      rw [List.cons_append, history, ih, run_eq_andThen]
      rfl

/-- What comes of an occurrence when no text is heard, one case for each way to go on. What is
written on the socket plays no part in it.
-/
inductive Silent (transport : Transport) : Activity → Prop
  | idle (written : List Transmission) : Silent transport ⟨transport, [], written⟩
  | unheard : Silent transport (.quiet { transport with isHeard := false })
  | stopped : Silent transport (.quiet { transport with phase := .ended })
  | connected (connecting : transport.phase = .connecting)
    : Silent transport transport.onConnected
  | lost (busy : transport.phase = .connecting ∨ transport.phase = .open) (reason : String)
    (written : List Transmission)
    : Silent transport { transport.lose reason with written := written }
  | finished (isOpen : transport.phase = .open) : Silent transport transport.finish
  | connects (waiting : transport.phase = .waiting) : Silent transport transport.connect

/-- A step that hears no text is one of these, by cases on the phase. -/
theorem silent_step {transport : Transport} {occurrence : Occurrence}
    (silent : (⟨transport, occurrence⟩ : Moment).heard? = none)
    : transport.Silent (transport.step occurrence) := by
  unfold step
  split
  · exact .unheard
  · next connecting => exact .connected connecting
  · next connecting => exact .lost (.inl connecting) _ _
  · next frame isOpen =>
      cases frame with
      | text text =>
          have alone : ¬ transport.isHeard := by simpa [Moment.heard?, isOpen] using silent
          simpa only [onFrame, if_neg alone] using Silent.finished isOpen
      | close reason => exact .lost (.inr isOpen) _ _
      | ping payload => exact .idle _
      | other => exact .idle _
  · next isOpen => exact .lost (.inr isOpen) _ _
  · next item refusal isOpen =>
      cases item with
      | message stamp message =>
          simp only [onItem]
          split
          · cases refusal with
            | none => exact .idle _
            | some reason => exact .lost (.inr isOpen) _ _
          · exact .idle _
      | reconnect => exact .lost (.inr isOpen) _ _
      | shutdown => exact .finished isOpen
  · next isOpen => exact .finished isOpen
  · next item refusal _ =>
      cases item with
      | shutdown => exact .stopped
      | _ => exact .idle _
  · exact .stopped
  · next waiting => exact .connects waiting
  · exact .idle _

end Transport

-----------------------------------------------------------------------------------------
-- Blocks
-----------------------------------------------------------------------------------------

/-- The reports of an attempt to connect that is over: whether it opened a socket, and why it ended.
-/
structure Block where
  isOpened : Bool
  reason : String

/-- The reports of a block, given how many sockets were opened before it and the texts that are
reported for each socket.
-/
def Block.reports (texts : Nat → List String) (sockets : Nat) (block : Block)
    : List TransportEvent :=
  if block.isOpened then
    .connecting :: .opened (sockets + 1)
      :: ((texts (sockets + 1)).map .message ++ [.closed block.reason])
  else
    [.connecting, .closed block.reason]

/-- How many sockets were opened by the end of several blocks. -/
def socketsAfter (sockets : Nat) (blocks : List Block) : Nat :=
  sockets + blocks.countP (·.isOpened)

/-- The sockets of a first block are counted before those of the others. -/
theorem socketsAfter_cons (sockets : Nat) (head : Block) (rest : List Block)
    : socketsAfter sockets (head :: rest) = socketsAfter (socketsAfter sockets [head]) rest := by
  simp only [socketsAfter, List.countP_cons, List.countP_nil]
  omega

/-- The reports of several blocks in order. -/
def reportsOf (texts : Nat → List String) (sockets : Nat) : List Block → List TransportEvent
  | [] => []
  | block :: rest =>
      block.reports texts sockets ++ reportsOf texts (socketsAfter sockets [block]) rest

/-- The reports of a last block come after all others, by induction over these. -/
theorem reportsOf_concat (texts : Nat → List String) (sockets : Nat) (blocks : List Block)
    (last : Block)
    : reportsOf texts sockets (blocks ++ [last])
      = reportsOf texts sockets blocks
        ++ last.reports texts (socketsAfter sockets blocks) := by
  induction blocks generalizing sockets with
  | nil => simp [reportsOf, socketsAfter]
  | cons head rest ih =>
      rw [List.cons_append, reportsOf, reportsOf, ih, socketsAfter_cons sockets head rest,
        List.append_assoc]

/-- The reports depend only on the texts of the sockets that were opened, by induction over the
blocks.
-/
theorem reportsOf_congr {texts others : Nat → List String} {sockets : Nat}
    {blocks : List Block}
    (same : ∀ socket ≤ socketsAfter sockets blocks, texts socket = others socket)
    : reportsOf texts sockets blocks = reportsOf others sockets blocks := by
  induction blocks generalizing sockets with
  | nil => rfl
  | cons head rest ih =>
      have first : head.reports texts sockets = head.reports others sockets := by
        unfold Block.reports
        split
        · next isOpened =>
            rw [same (sockets + 1) (by simp [socketsAfter, isOpened])]
        · rfl
      rw [reportsOf, reportsOf, first, ih (socketsAfter_cons sockets head rest ▸ same)]

/-- The reports so far, when the given texts were reported for each socket: whole blocks, and as
much of one more as the phase says. What was reported by the end may break off anywhere.
-/
inductive Tells (texts : Nat → List String) : Transport → List TransportEvent → Prop
  | connecting {transport : Transport} (blocks : List Block)
    (phase : transport.phase = .connecting)
    (counted : socketsAfter 0 blocks = transport.generation)
    : Tells texts transport (reportsOf texts 0 blocks ++ [.connecting])
  | open {transport : Transport} (blocks : List Block)
    (phase : transport.phase = .open)
    (counted : socketsAfter 0 blocks + 1 = transport.generation)
    : Tells texts transport
        (reportsOf texts 0 blocks
          ++ .connecting :: .opened transport.generation
            :: (texts transport.generation).map .message)
  | waiting {transport : Transport} (blocks : List Block)
    (phase : transport.phase = .waiting)
    (counted : socketsAfter 0 blocks = transport.generation)
    : Tells texts transport (reportsOf texts 0 blocks)
  | ended {transport : Transport} {events : List TransportEvent} (blocks : List Block)
    (phase : transport.phase = .ended) (begun : events <+: reportsOf texts 0 blocks)
    : Tells texts transport events

namespace Tells

variable {texts : Nat → List String} {transport : Transport} {events : List TransportEvent}

/-- Whatever was told is the beginning of the reports of some blocks, by cases on the phase. -/
theorem exists_blocks (tells : Tells texts transport events)
    : ∃ blocks, events <+: reportsOf texts 0 blocks := by
  cases tells with
  | connecting blocks _ _ =>
      refine ⟨blocks ++ [⟨false, ""⟩], ?_⟩
      rw [reportsOf_concat, List.prefix_append_right_inj]
      exact List.prefix_append [TransportEvent.connecting] _
  | «open» blocks _ counted =>
      refine ⟨blocks ++ [⟨true, ""⟩], ?_⟩
      rw [reportsOf_concat, List.prefix_append_right_inj, ← counted]
      exact List.prefix_append _ [TransportEvent.closed ""]
  | waiting blocks _ _ => exact ⟨blocks, List.prefix_rfl⟩
  | ended blocks _ begun => exact ⟨blocks, begun⟩

/-- While an attempt is under way its block can be closed, by cases on the phase. -/
theorem closed (tells : Tells texts transport events)
    (busy : transport.phase = .connecting ∨ transport.phase = .open) (reason : String)
    : ∃ blocks,
        socketsAfter 0 blocks = transport.generation
        ∧ events ++ [.closed reason] = reportsOf texts 0 blocks := by
  cases tells with
  | connecting blocks _ counted =>
      refine ⟨blocks ++ [⟨false, reason⟩], ?_, ?_⟩
      · simpa [socketsAfter] using counted
      · rw [reportsOf_concat, List.append_assoc]
        rfl
  | «open» blocks _ counted =>
      refine ⟨blocks ++ [⟨true, reason⟩], ?_, ?_⟩
      · simp only [socketsAfter, List.countP_append, List.countP_singleton] at counted ⊢
        simpa [Nat.add_assoc] using counted
      · rw [reportsOf_concat, ← counted, List.append_assoc]
        rfl
  | waiting _ phase _ => rcases busy with busy | busy <;> simp [phase] at busy
  | ended _ phase _ => rcases busy with busy | busy <;> simp [phase] at busy

/-- Nothing more is told of a transport that ends at once. -/
theorem end_now (tells : Tells texts transport events)
    : Tells texts { transport with phase := .ended } events := by
  obtain ⟨blocks, begun⟩ := tells.exists_blocks
  exact .ended blocks rfl begun

/-- Losing an attempt closes its block, or ends the transport if nobody listens. -/
theorem lose (tells : Tells texts transport events)
    (busy : transport.phase = .connecting ∨ transport.phase = .open) (reason : String)
    : Tells texts (transport.lose reason).transport
        (events ++ (transport.lose reason).events) := by
  unfold Transport.lose Transport.proceed
  split
  · obtain ⟨blocks, counted, closed⟩ := tells.closed busy reason
    rw [closed]
    exact .waiting blocks rfl counted
  · simpa [Activity.quiet] using tells.end_now

/-- Ending with an open socket closes its block, if somebody listens. -/
theorem finish (tells : Tells texts transport events) (isOpen : transport.phase = .open)
    : Tells texts transport.finish.transport (events ++ transport.finish.events) := by
  unfold Transport.finish Transport.proceed
  split
  · obtain ⟨blocks, _, closed⟩ := tells.closed (.inr isOpen) "closed by client"
    exact .ended blocks rfl (closed ▸ List.prefix_rfl)
  · simpa [Transport.writing, Activity.quiet] using tells.end_now

/-- A socket that is opened has no texts yet. -/
theorem onConnected (tells : Tells texts transport events)
    (connecting : transport.phase = .connecting)
    (fresh : texts (transport.generation + 1) = [])
    : Tells texts transport.onConnected.transport
        (events ++ transport.onConnected.events) := by
  simp only [Transport.onConnected, Transport.proceed]
  cases tells with
  | connecting blocks _ counted =>
      split
      · have opened : Tells texts ⟨.open, transport.generation + 1, transport.isHeard⟩ _ :=
          .open blocks rfl (congrArg (· + 1) counted)
        simpa [fresh] using opened
      · have told : Tells texts transport (reportsOf texts 0 blocks ++ [.connecting]) :=
          .connecting blocks connecting counted
        obtain ⟨blocks, begun⟩ := told.exists_blocks
        exact .ended blocks rfl (by simpa [Activity.quiet] using begun)
  | «open» _ phase _ => simp [connecting] at phase
  | waiting _ phase _ => simp [connecting] at phase
  | ended _ phase _ => simp [connecting] at phase

/-- The next attempt begins another block. -/
theorem connect (tells : Tells texts transport events) (waiting : transport.phase = .waiting)
    : Tells texts transport.connect.transport (events ++ transport.connect.events) := by
  unfold Transport.connect Transport.proceed
  cases tells with
  | waiting blocks _ counted =>
      split
      · exact .connecting blocks rfl counted
      · exact .ended blocks rfl (by simp [Activity.quiet])
  | connecting _ phase _ => simp [waiting] at phase
  | «open» _ phase _ => simp [waiting] at phase
  | ended _ phase _ => simp [waiting] at phase

/-- Nobody listens any more, and what was told stays as it is. -/
theorem unheard (tells : Tells texts transport events)
    : Tells texts { transport with isHeard := false } events := by
  cases tells with
  | connecting blocks phase counted => exact .connecting blocks phase counted
  | «open» blocks phase counted =>
      exact @Tells.open texts { transport with isHeard := false } blocks phase counted
  | waiting blocks phase counted => exact .waiting blocks phase counted
  | ended blocks phase begun => exact .ended blocks phase begun

/-- A text that arrives and is heard is reported in the block of its socket. -/
theorem heard (tells : Tells texts transport events) (isOpen : transport.phase = .open)
    (text : String)
    : Tells (fun socket => texts socket ++ if transport.generation = socket then [text] else [])
        transport (events ++ [.message text]) := by
  cases tells with
  | «open» blocks phase counted =>
      have more : Tells
          (fun socket => texts socket ++ if transport.generation = socket then [text] else [])
          transport _ :=
        .open blocks phase counted
      have early : reportsOf
          (fun socket => texts socket ++ if transport.generation = socket then [text] else []) 0
            blocks
          = reportsOf texts 0 blocks :=
        reportsOf_congr fun socket early => by rw [if_neg (by omega), List.append_nil]
      rw [early] at more
      simpa using more
  | connecting _ phase _ => simp [isOpen] at phase
  | waiting _ phase _ => simp [isOpen] at phase
  | ended _ phase _ => simp [isOpen] at phase

/-- What is told stays of its form when no text is heard, by cases on what comes of it. -/
theorem of_silent (tells : Tells texts transport events)
    (fresh : texts (transport.generation + 1) = []) {activity : Activity}
    (silent : transport.Silent activity)
    : Tells texts activity.transport (events ++ activity.events) := by
  cases silent with
  | idle written => simpa using tells
  | unheard => simpa [Activity.quiet] using tells.unheard
  | stopped => simpa [Activity.quiet] using tells.end_now
  | connected connecting => exact tells.onConnected connecting fresh
  | lost busy reason written => exact tells.lose busy reason
  | finished isOpen => exact tells.finish isOpen
  | connects waiting => exact tells.connect waiting

/-- What is told stays of its form with everything that happens; a text that is heard counts for the
open socket.
-/
theorem step (tells : Tells texts transport events)
    (fresh : texts (transport.generation + 1) = []) (occurrence : Occurrence)
    : Tells
        (fun socket =>
          texts socket
            ++ if transport.generation = socket then
                (⟨transport, occurrence⟩ : Moment).heard?.toList
              else [])
        (transport.step occurrence).transport
        (events ++ (transport.step occurrence).events) := by
  cases heard : (⟨transport, occurrence⟩ : Moment).heard? with
  | none =>
      simp only [Option.toList_none, ite_self, List.append_nil]
      exact tells.of_silent fresh (Transport.silent_step heard)
  | some text =>
      obtain ⟨isOpen, reported⟩ := Transport.step_of_heard heard
      rw [reported]
      exact tells.heard isOpen text

end Tells

-----------------------------------------------------------------------------------------
-- Runs
-----------------------------------------------------------------------------------------

/-- The texts that arrived on a socket while somebody listened, in order. -/
def textsOn (history : List Moment) (socket : Nat) : List String :=
  (history.filter (·.transport.generation == socket)).filterMap Moment.heard?

/-- The texts of a socket with one more moment. -/
theorem textsOn_concat (history : List Moment) (last : Moment)
    : textsOn (history ++ [last])
      = fun socket =>
          textsOn history socket
            ++ if last.transport.generation = socket then last.heard?.toList else [] := by
  funext socket
  by_cases here : last.transport.generation = socket
  · cases heard : last.heard? <;> simp [textsOn, here, heard]
  · simp [textsOn, here]

namespace Transport

variable {transport : Transport} {events : List TransportEvent}

/-- Generations only grow. -/
theorem generation_le_step (transport : Transport) (occurrence : Occurrence)
    : transport.generation ≤ (transport.step occurrence).transport.generation := by
  rcases transport.keeps_or_connected occurrence with keeps | ⟨_, connected⟩
  · exact Nat.le_of_eq keeps.generation.symm
  · rw [connected, onConnected, proceed]
    split <;> exact Nat.le_succ _

/-- No moment of a run is later than its end, by induction over the run from its end. -/
theorem generation_le_run (transport : Transport) (occurrences : List Occurrence)
    : ∀ moment ∈ transport.history occurrences,
        moment.transport.generation ≤ (transport.run occurrences).transport.generation := by
  induction occurrences using List.reverseRecOn with
  | nil => simp [history]
  | append_singleton early last ih =>
      intro moment member
      rw [run_concat]
      refine Nat.le_trans ?_ (generation_le_step _ last)
      rw [history_concat] at member
      rcases List.mem_append.mp member with before | now
      · exact ih moment before
      · exact Nat.le_of_eq (congrArg (·.transport.generation) (List.mem_singleton.mp now))

/-- Nothing happened on a socket that was not opened yet. -/
theorem history_of_later {history : List Moment} {now socket : Nat}
    (bounded : ∀ moment ∈ history, moment.transport.generation ≤ now) (later : now < socket)
    : history.filter (·.transport.generation == socket) = [] := by
  refine List.filter_eq_nil_iff.mpr fun moment member same => ?_
  have := bounded moment member
  have := beq_iff_eq.mp same
  omega

/-- The reports of every run are of the form that the phase says, by induction over the run from its
end.
-/
theorem tells_run (told : Tells (fun _ => []) transport events) (occurrences : List Occurrence)
    : Tells (textsOn (transport.history occurrences)) (transport.run occurrences).transport
        (events ++ (transport.run occurrences).events) := by
  induction occurrences using List.reverseRecOn with
  | nil =>
      have nothing : textsOn (transport.history []) = fun _ => [] := rfl
      simpa only [nothing, run, List.foldl_nil, Activity.quiet, List.append_nil] using told
  | append_singleton early last ih =>
      have fresh : textsOn (transport.history early)
          ((transport.run early).transport.generation + 1) = [] := by
        rw [textsOn, history_of_later (transport.generation_le_run early) (Nat.lt_succ_self _),
          List.filterMap_nil]
      have more := ih.step fresh last
      rw [history_concat, run_concat, textsOn_concat]
      rwa [List.append_assoc] at more

theorem texts_proceed (transport : Transport) (phase : Phase) {event : TransportEvent}
    (noText : event.text? = none)
    : (transport.proceed phase event).events.filterMap TransportEvent.text? = [] := by
  unfold proceed
  split <;> simp [noText, Activity.quiet]

/-- What comes of an occurrence when no text is heard reports none. -/
theorem texts_of_silent {activity : Activity} (silent : transport.Silent activity)
    : activity.events.filterMap TransportEvent.text? = [] := by
  cases silent with
  | idle | unheard | stopped => rfl
  | connected => exact texts_proceed _ _ rfl
  | lost => exact transport.texts_proceed _ rfl
  | finished => exact transport.texts_proceed _ rfl
  | connects => exact texts_proceed _ _ rfl

theorem texts_step (transport : Transport) (occurrence : Occurrence)
    : (transport.step occurrence).events.filterMap TransportEvent.text?
      = (⟨transport, occurrence⟩ : Moment).heard?.toList := by
  cases heard : (⟨transport, occurrence⟩ : Moment).heard? with
  | none => exact texts_of_silent (silent_step heard)
  | some text =>
      rw [(step_of_heard heard).2]
      rfl

/-- The texts that are reported are those that were heard, by induction over the run. -/
theorem texts_run (transport : Transport) (occurrences : List Occurrence)
    : (transport.run occurrences).events.filterMap TransportEvent.text?
      = (transport.history occurrences).filterMap Moment.heard? := by
  induction occurrences generalizing transport with
  | nil => rfl
  | cons head rest ih =>
      rw [run_eq_andThen, history, Activity.andThen, List.filterMap_append, texts_step, ih,
        List.filterMap_cons]
      cases (⟨transport, head⟩ : Moment).heard? <;> rfl

end Transport

end SharedBoard
