import Mathlib.Data.List.Chain
import SharedBoard.Proofs.Session.Gating
import SharedBoard.Proofs.Session.Handshake

/-! The life cycle of a connection as the notices tell it. Every state that the session goes to is
told once, as it is entered; a board is live only after a handshake on the last socket; and the
end of a session is for good.
-/

namespace SharedBoard

namespace ConnectionState

/-- How one state follows another: they differ, a board goes live out of the handshake, and closing
ends in closed.
-/
structure Passage (before after : ConnectionState) : Prop where
  differs : before ≠ after
  joining : after = .connected → before = .authenticating
  closing : before = .closing → after = .closed

/-- A walk from one state to another through the states that are told on the way. -/
inductive Walk : ConnectionState → List ConnectionState → ConnectionState → Prop where
  | stay (state : ConnectionState) : Walk state [] state
  | turn {before after final : ConnectionState} {told : List ConnectionState}
    (turn : Passage before after) (rest : Walk after told final)
    : Walk before (after :: told) final

namespace Walk

variable {first middle last : ConnectionState} {told more : List ConnectionState}

/-- Walks follow each other, by induction over the first. -/
theorem append (walk : Walk first told middle) (next : Walk middle more last)
    : Walk first (told ++ more) last := by
  induction walk with
  | stay state => exact next
  | turn turn rest ih => exact .turn turn (ih next)

/-- Each state on a walk follows the one before, by induction over the walk. -/
theorem isChain (walk : Walk first told last)
    : List.IsChain Passage (first :: told) := by
  induction walk with
  | stay state => exact List.isChain_singleton state
  | turn turn rest ih => exact List.isChain_cons_cons.mpr ⟨turn, ih⟩

/-- A walk ends in the state that is told last, by induction over the walk. -/
theorem getLast?_eq (walk : Walk first told last)
    : (first :: told).getLast? = some last := by
  induction walk with
  | stay state => rfl
  | turn turn rest ih => rw [List.getLast?_cons_cons, ih]

end Walk

end ConnectionState

open ConnectionState (Passage Walk)

namespace Link

variable {link : Link}

/-- A link that is closing is to be closed for good. -/
def Closes (link : Link) : Prop :=
  link.state = .closing → link.isTerminal = true

/-- A state is told as it is entered. -/
theorem walk_enter (link : Link) {state : ConnectionState}
    (turn : link.state ≠ state → Passage link.state state)
    : Walk link.state (link.enter state).2.toList (link.enter state).1.state := by
  unfold enter
  by_cases same : link.state = state
  · rw [if_pos same, same]
    exact .stay state
  · rw [if_neg same]
    exact .turn (turn same) (.stay state)

theorem walk_connecting (closes : link.Closes)
    : Walk link.state link.connecting.2.toList link.connecting.1.state := by
  unfold connecting
  split
  · exact .stay _
  · next running =>
      exact walk_enter { link with generation := none, isAuthenticated := false }
        fun differs => ⟨differs, nofun, fun closing => absurd (closes closing) running⟩

theorem walk_opened (closes : link.Closes) (generation : Nat)
    : Walk link.state (link.opened generation).2.toList (link.opened generation).1.state := by
  unfold opened
  split
  · exact .stay _
  · next running =>
      exact walk_enter { link with generation := some generation, isAuthenticated := false }
        fun differs => ⟨differs, nofun, fun closing => absurd (closes closing) running⟩

theorem walk_boardJoined (link : Link)
    : Walk link.state link.boardJoined.2.toList link.boardJoined.1.state := by
  unfold boardJoined
  split
  · next ready =>
      exact walk_enter link fun differs => ⟨differs, fun _ => ready.1, by simp [ready.1]⟩
  · exact .stay _

theorem walk_dropped (link : Link)
    : Walk link.state link.dropped.2.toList link.dropped.1.state :=
  walk_enter { link with generation := none, isAuthenticated := false }
    fun differs => ⟨differs, nofun, fun _ => rfl⟩

theorem walk_closeRequested (closes : link.Closes)
    : Walk link.state link.closeRequested.2.toList link.closeRequested.1.state := by
  unfold closeRequested
  split
  · exact .stay _
  · next running =>
      refine walk_enter { link with isTerminal := true } fun differs => ⟨differs, ?_, ?_⟩
      · split <;> simp
      · exact fun closing => absurd (closes closing) running

theorem Closes.connecting (closes : link.Closes) : link.connecting.1.Closes := by
  unfold Link.connecting
  split
  · exact closes
  · exact nofun

theorem Closes.opened (closes : link.Closes) (generation : Nat)
    : (link.opened generation).1.Closes := by
  unfold Link.opened
  split
  · exact closes
  · exact nofun

theorem Closes.closeRequested (closes : link.Closes) : link.closeRequested.1.Closes := by
  unfold Link.closeRequested
  split
  · exact closes
  · exact fun _ => rfl

/-- Being authenticated is not a state of its own. -/
@[simp] theorem state_authenticated (link : Link) : link.authenticated.state = link.state := by
  unfold authenticated
  split <;> rfl

end Link

/-- The state that a notice tells. -/
def Notice.state? : Notice → Option ConnectionState
  | .stateChanged state => some state
  | _ => none

/-- The states that are told by notices, in order. -/
def reported (notices : List Notice) : List ConnectionState :=
  notices.filterMap Notice.state?

namespace Session

variable {session : Session} {inputs : List Input}

/-- A reaction reports how the session goes to its state. It tells one state at most, unless the
handshake is given up as soon as it begins.
-/
structure Reports (session : Session) (reaction : Reaction) : Prop where
  walk : Walk session.state (reported reaction.notices) reaction.session.state
  brief
    : (reported reaction.notices).length ≤ 1
      ∨ reported reaction.notices = [.authenticating, .closing]

namespace Reports

variable {reaction : Reaction} {step : Session → Reaction}

/-- What does not concern the state reports nothing. -/
theorem silent (same : reaction.session.state = session.state)
    (nothing : reported reaction.notices = [])
    : session.Reports reaction := by
  constructor
  · rw [nothing, same]
    exact .stay _
  · simp [nothing]

theorem reported_andThen (reaction : Reaction) (step : Session → Reaction)
    : reported (reaction.andThen step).notices
      = reported reaction.notices ++ reported (step reaction.session).notices :=
  List.filterMap_append

/-- What comes after something that does not concern the state reports alone. -/
theorem after_silent (same : reaction.session.state = session.state)
    (nothing : reported reaction.notices = [])
    (next : reaction.session.Reports (step reaction.session))
    : session.Reports (reaction.andThen step) := by
  constructor <;> rw [reported_andThen, nothing, List.nil_append]
  · exact same ▸ next.walk
  · exact next.brief

/-- So does what comes before something that does not concern the state. -/
theorem before_silent (first : session.Reports reaction)
    (same : (step reaction.session).session.state = reaction.session.state)
    (nothing : reported (step reaction.session).notices = [])
    : session.Reports (reaction.andThen step) := by
  constructor <;> rw [reported_andThen, nothing, List.append_nil]
  · exact same.symm ▸ first.walk
  · exact first.brief

/-- A session that follows its link reports what the link tells. -/
theorem follow {step : Link × Option ConnectionState}
    (walk : Walk session.state step.2.toList step.1.state)
    : session.Reports (session.follow step) := by
  have told : reported ((step.2.map Notice.stateChanged).toList) = step.2.toList := by
    cases step.2 <;> rfl
  constructor <;> rw [Session.follow, told]
  · exact walk
  · exact .inl (Option.length_toList_le)

theorem close (closes : session.link.Closes) : session.Reports session.close :=
  (follow (Link.walk_closeRequested closes)).before_silent rfl rfl

/-- Without a token the handshake is given up as soon as it begins. -/
theorem givenUp {generation : Nat} (began : session.Reports reaction)
    (told
      : reported reaction.notices = [] ∨ reported reaction.notices = [.authenticating])
    (link : reaction.session.link = ⟨.authenticating, some generation, false, false⟩)
    (token : reaction.session.token = none)
    : session.Reports (reaction.andThen (·.authenticate generation)) := by
  have closes : reaction.session.link.Closes := by
    simp [Link.Closes, link]
  have ends : reaction.session.authenticate generation = reaction.session.close := by
    rw [authenticate, token]
  have last : reported reaction.session.close.notices = [.closing] := by
    simp [Session.close, Session.follow, Reaction.andThen, Link.closeRequested, Link.enter, link,
      reported, Notice.state?]
  constructor
  · rw [reported_andThen, Reaction.andThen, ends]
    exact began.walk.append (close closes).walk
  · rw [reported_andThen, ends, last]
    rcases told with nothing | waiting
    · simp [nothing]
    · simp [waiting]

/-- With a socket the handshake begins. -/
theorem opened (closes : session.link.Closes) (generation : Nat)
    : session.Reports (session.handle (.opened generation)) := by
  rw [handle]
  split
  · exact silent rfl rfl
  · next running =>
      have began : session.Reports
          (session.reset.andThen fun session => session.follow (session.link.opened generation)) :=
        after_silent rfl rfl (follow (Link.walk_opened closes generation))
      cases token : session.token with
      | some jwt =>
          refine before_silent began ?_ ?_ <;>
            simp [authenticate, Reaction.andThen, reset, Session.follow, token, send, reported,
              state]
      | none =>
          refine givenUp began ?_ ?_ token
          · by_cases waiting : session.link.state = .authenticating <;>
              simp [Reaction.andThen, reset, Session.follow, Link.opened, Link.enter, running,
                waiting, reported, Notice.state?]
          · simp [Reaction.andThen, reset, Session.follow, Link.opened, Link.enter, running]

theorem onAuthenticated (session : Session) (user : User)
    : session.Reports (session.onAuthenticated user) := by
  unfold Session.onAuthenticated
  split
  · exact silent rfl rfl
  · split
    · exact silent (Link.state_authenticated session.link) rfl
    · exact silent rfl rfl

theorem joinIfOwn (session : Session) (event : Event Float)
    : session.Reports (session.joinIfOwn event) := by
  unfold Session.joinIfOwn
  split
  · split
    · exact follow session.link.walk_boardJoined
    · exact silent rfl rfl
  · exact silent rfl rfl

/-- An event concerns the state if it is about the token or about who joins. -/
theorem onEvent (session : Session) (event : Event Float) (answer : Option RequestId)
    : session.Reports (session.onEvent event answer) := by
  unfold Session.onEvent
  split
  · exact onAuthenticated session _
  · refine before_silent ?_ rfl rfl
    exact after_silent rfl rfl (joinIfOwn _ _)

theorem onRejected (session : Session) (kind : EventKind) (message : String)
    (answer : Option RequestId)
    : session.Reports (session.onRejected kind message answer) := by
  refine before_silent ?_ rfl rfl
  split
  · exact silent rfl rfl
  · unfold rollBack
    split <;> exact silent rfl rfl

theorem onMessage (session : Session) (text : String)
    : session.Reports (session.onMessage text) := by
  unfold Session.onMessage
  split
  · exact onEvent session _ _
  · exact onRejected session _ _ _
  · exact silent rfl rfl

theorem handle (closes : session.link.Closes) (event : TransportEvent)
    : session.Reports (session.handle event) := by
  cases event with
  | connecting => exact follow (Link.walk_connecting closes)
  | opened generation => exact opened closes generation
  | message text => exact onMessage session text
  | closed reason =>
      rw [Session.handle]
      refine after_silent rfl rfl ?_
      exact follow session.link.walk_dropped

/-- What others are told about typing concerns no state. -/
theorem focus (session : Session) (post : PostId)
    : session.Reports (session.step (.focus post)) := by
  refine silent (congrArg state (session_step_focus session post)) ?_
  simp only [Session.step]
  split
  · next reaction performed =>
      obtain ⟨⟨generation, actor⟩, _, performed⟩ := Plan.exists_of_bind performed
      dsimp only at performed
      split at performed
      · obtain rfl := Except.ok.inj performed
        rfl
      · simp at performed
  · rfl

/-- Every step reports how the session goes to its state, by cases on the input. -/
theorem of_step (closes : session.link.Closes) (input : Input)
    : session.Reports (session.step input) := by
  cases input with
  | transport event => exact handle closes event
  | focus post => exact focus session post
  | setColor color => exact silent rfl rfl
  | close => exact close closes
  | gesture gesture fresh requests =>
      rcases session.gesture_cases gesture fresh requests with
        ⟨_, unchanged⟩ | ⟨plan, generation, _, _, committed⟩
      · rw [unchanged]
        exact silent rfl rfl
      · rw [committed]
        exact silent rfl rfl

end Reports

-----------------------------------------------------------------------------------------
-- The end of a session
-----------------------------------------------------------------------------------------

namespace Presence

variable {presence : Presence}

/-- A frame changes the state only by letting the user who signed in join the board. -/
theorem afterFrame_cases (presence : Presence) (text : String)
    : ((presence.afterFrame text).link.state = presence.link.state
        ∧ (presence.afterFrame text).link.isTerminal = presence.link.isTerminal)
      ∨ ((presence.afterFrame text).link.state = .connected
        ∧ presence.link.state = .authenticating ∧ presence.link.isAuthenticated = true
        ∧ ∃ members newUser answer,
          Inbound.ofText text = .ok (.applied (.boardConnected members newUser) answer)
          ∧ presence.user.map (·.id) = some newUser.id) := by
  unfold afterFrame
  split
  · split
    · refine .inl ⟨Link.state_authenticated _, ?_⟩
      unfold Link.authenticated
      split <;> rfl
    · exact .inl ⟨rfl, rfl⟩
  · next members newUser answer read =>
      split
      · next own =>
          unfold Link.boardJoined
          split
          · next ready => exact .inr ⟨rfl, ready.1, ready.2, members, newUser, answer, read, own⟩
          · exact .inl ⟨rfl, rfl⟩
      · exact .inl ⟨rfl, rfl⟩
  · exact .inl ⟨rfl, rfl⟩

/-- A board goes live only by a frame that names the user who signed in, by cases on the input. -/
theorem joined_of_after {token : Option String} {input : Input}
    (before : presence.link.state ≠ .connected)
    (live : (presence.after token input).link.state = .connected)
    : presence.link.state = .authenticating ∧ presence.link.isAuthenticated = true
      ∧ ∃ text members newUser answer,
        input = .transport (.message text)
        ∧ Inbound.ofText text = .ok (.applied (.boardConnected members newUser) answer)
        ∧ presence.user.map (·.id) = some newUser.id := by
  cases input with
  | transport event =>
      cases event with
      | connecting =>
          simp only [after, Link.connecting] at live
          split at live
          · exact absurd live before
          · simp [Link.enter] at live
      | opened generation =>
          simp only [after] at live
          split at live
          · exact absurd live before
          · next running =>
              cases token <;> simp [Link.opened, Link.closeRequested, Link.enter, running] at live
      | message text =>
          rcases presence.afterFrame_cases text with
            ⟨same, _⟩ | ⟨_, waiting, authenticated, members, newUser, answer, read, own⟩
          · exact absurd (same.symm.trans live) before
          · exact ⟨waiting, authenticated, text, members, newUser, answer, rfl, read, own⟩
      | closed reason => simp [after, Link.dropped, Link.enter] at live
  | close =>
      simp only [after, Link.closeRequested] at live
      split at live
      · exact absurd live before
      · split at live <;> simp [Link.enter] at live
  | _ => exact absurd live before

/-- A link that closes does so after any input, by cases on it. -/
theorem closes_after (presence : Presence) (closes : presence.link.Closes) (token : Option String)
    (input : Input)
    : (presence.after token input).link.Closes := by
  cases input with
  | transport event =>
      cases event with
      | connecting => exact closes.connecting
      | opened generation =>
          simp only [after]
          split
          · exact closes
          · dsimp only
            split
            · exact closes.opened generation
            · exact (closes.opened generation).closeRequested
      | message text =>
          rcases presence.afterFrame_cases text with ⟨sameState, sameEnd⟩ | ⟨live, _⟩
          · simpa only [Link.Closes, after, sameState, sameEnd] using closes
          · simp [Link.Closes, after, live]
      | closed reason => exact fun closing => ConnectionState.noConfusion closing
  | close => exact closes.closeRequested
  | _ => exact closes

/-- A session that is over and closed stays closed, by cases on the input. -/
theorem closed_after (presence : Presence) (token : Option String)
    (terminal : presence.link.isTerminal = true) (closed : presence.link.state = .closed)
    (input : Input)
    : (presence.after token input).link.state = .closed := by
  cases input with
  | transport event =>
      cases event with
      | connecting => simpa only [after, Link.connecting, if_pos terminal] using closed
      | opened generation => simpa only [after, if_pos terminal] using closed
      | message text =>
          rcases presence.afterFrame_cases text with ⟨sameState, _⟩ | ⟨_, waiting, _⟩
          · exact sameState.trans closed
          · simp [closed] at waiting
      | closed reason => rfl
  | close => simpa only [after, Link.closeRequested, if_pos terminal] using closed
  | _ => exact closed

end Presence

-----------------------------------------------------------------------------------------
-- Runs
-----------------------------------------------------------------------------------------

/-- So it does over a run, by induction over the inputs. -/
theorem closes_run (closes : session.link.Closes) (inputs : List Input)
    : (session.run inputs).session.link.Closes := by
  induction inputs generalizing session with
  | nil => exact closes
  | cons input rest ih =>
      rw [run_cons]
      refine ih ?_
      have moved := session.presence.closes_after closes session.token input
      rwa [← presence_step] at moved

/-- A run tells the states that it goes through, by induction over the inputs. -/
theorem walk_run (closes : session.link.Closes) (inputs : List Input)
    : Walk session.state (reported (session.run inputs).notices)
        (session.run inputs).session.state := by
  induction inputs generalizing session with
  | nil => exact .stay _
  | cons input rest ih =>
      rw [run_eq_andThen, Reports.reported_andThen, Reaction.andThen]
      exact (Reports.of_step closes input).walk.append (ih (closes_run closes [input]))

/-- The end of a session, by induction over what comes later: closed is for good. -/
theorem closed_run (terminal : session.link.isTerminal = true) (closed : session.state = .closed)
    (later : List Input)
    : (session.run later).session.state = .closed := by
  induction later generalizing session with
  | nil => exact closed
  | cons input rest ih =>
      rw [run_cons]
      apply ih
      · have stays := Presence.isTerminal_after session.presence session.token input
        rw [← presence_step, presence_link, presence_link, terminal, Bool.true_or] at stays
        exact stays
      · have stays := session.presence.closed_after session.token terminal closed input
        rwa [← presence_step] at stays

/-- What happens on one socket until the board is live. Since the socket was opened, and without
leaving it, a user was authenticated and then named as the one who joins.
-/
inductive Admitted : List Input → Input → Prop where
  | named {early before after : List Input} {generation : Nat} {signIn text : String} {user : User}
    {members : List User} {newUser : User} {answer reply : Option RequestId}
    (kept : ∀ input ∈ before ++ after, input.leavesSocket = false)
    (signedIn : Inbound.ofText signIn = .ok (.applied (.authenticated user) answer))
    (joins : Inbound.ofText text = .ok (.applied (.boardConnected members newUser) reply))
    (same : newUser.id = user.id)
    : Admitted
        (early ++ .transport (.opened generation)
          :: before ++ .transport (.message signIn) :: after)
        (.transport (.message text))

/-- A board that goes live does so out of the handshake, when the user is admitted. -/
theorem admitted_of_live (away : IsAway session.link) {last : Input}
    (before : (session.run inputs).session.state ≠ .connected)
    (live : ((session.run inputs).session.step last).session.state = .connected)
    : Admitted inputs last := by
  have after : ((session.run inputs).session.presence.after (session.run inputs).session.token
      last).link.state = .connected := by
    rw [← presence_step]
    exact live
  obtain ⟨waiting, authenticated, text, members, newUser, reply, rfl, joins, own⟩ :=
    Presence.joined_of_after before after
  obtain ⟨generation, socket, reached⟩ := (attends_run away inputs).present (.inl waiting)
  obtain ⟨user, first, signIn, later, answer, split, signedIn, _, current⟩ :=
    reached.signedIn waiting authenticated
  have same : newUser.id = user.id := by
    have known : (session.run inputs).session.user.map (·.id) = some newUser.id := own
    rw [socket.run_eq, current] at known
    exact (Option.some.inj known).symm
  have kept : ∀ input ∈ first ++ later, input.leavesSocket = false := by
    intro input member
    refine socket.kept input ?_
    rw [split]
    exact (List.mem_append.mp member).elim (List.mem_append_left _)
      fun later => List.mem_append_right _ (List.mem_cons_of_mem _ later)
  have whole := socket.split
  rw [split, ← List.cons_append, ← List.append_assoc] at whole
  rw [whole]
  exact .named kept signedIn joins same

/-- A call that tells that the board is live brings it there, and not from there. -/
theorem Reports.live_of_told {reaction : Reaction} (reports : session.Reports reaction)
    (told : .connected ∈ reported reaction.notices)
    : session.state = .authenticating ∧ reaction.session.state = .connected := by
  obtain ⟨walk, brief⟩ := reports
  generalize reported reaction.notices = states at walk brief told
  generalize session.state = first, reaction.session.state = final at walk
  cases walk with
  | stay => simp at told
  | turn turn rest =>
      cases rest with
      | stay =>
          obtain rfl := List.mem_singleton.mp told
          exact ⟨turn.joining rfl, rfl⟩
      | turn next rest =>
          rcases brief with short | same
          · simp at short
          · rw [same] at told
            simp at told

/-- The life cycle of a connection, for whatever happens to a session. The states that are told
never repeat the one before, and the last of them is the state of the session; a board goes live
only out of the handshake, and only when a user who was authenticated since the socket was opened
is named as the one who joins; a socket is known exactly while the channel is open; and once the
session is to be closed it is closing or closed for good, closing is followed by closed, and
closed by nothing.
-/
theorem life_cycle (board : Board) (groups : List (Group Float)) (token : Option String)
    (color : Color) (grid : Option Int32) (inputs : List Input)
    : let session := start board groups token color grid
      let reached := (session.run inputs).session
      let told := reported (session.run inputs).notices
      List.IsChain Passage (.connecting :: told)
      ∧ (.connecting :: told).getLast? = some reached.state
      ∧ (∀ last, .connected ∈ reported (reached.step last).notices →
        reached.state = .authenticating ∧ Admitted inputs last)
      ∧ (reached.link.generation.isSome
        ↔ reached.state ∈ [.authenticating, .connected, .closing])
      ∧ (.close ∈ inputs →
        (reached.state = .closing ∨ reached.state = .closed)
        ∧ (reached.state = .closed → ∀ later, (reached.run later).session.state = .closed)) := by
  intro session reached told
  have closes : session.link.Closes := nofun
  have walk : Walk .connecting told reached.state := walk_run closes inputs
  refine ⟨walk.isChain, walk.getLast?_eq, fun last tells => ?_, ?_, fun ended => ?_⟩
  · obtain ⟨waiting, live⟩ :=
      (Reports.of_step (closes_run closes inputs) last).live_of_told tells
    have before : reached.state ≠ .connected := by
      rw [waiting]
      decide
    exact ⟨waiting, admitted_of_live isAway_initial before live⟩
  · have grounded : session.presence.Grounded := .initial none
    exact (grounded_run grounded inputs).socket
  · have terminal : reached.link.isTerminal = true := by
      rw [isTerminal_run, Bool.or_eq_true, List.any_eq_true]
      exact .inr ⟨.close, ended, rfl⟩
    exact ⟨(attends_run isAway_initial inputs).ends terminal, closed_run terminal⟩

/-- The owner goes live with the report of joining, after the socket was opened and the token
accepted on it.
-/
theorem life_cycle_ownerJoins
    : reported ((start Sample.board [] (some "token") .lightPink none).run Sample.handshake).notices
        = [.authenticating, .connected]
      ∧ Admitted (Sample.handshake.take 2) Sample.handshake[2] := by
  obtain ⟨_, _, admitted, _⟩ :=
    life_cycle Sample.board [] (some "token") .lightPink none (Sample.handshake.take 2)
  exact ⟨by decide +kernel, (admitted Sample.handshake[2] (by decide +kernel)).2⟩

end Session

end SharedBoard
