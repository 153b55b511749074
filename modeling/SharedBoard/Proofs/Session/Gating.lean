import Mathlib.Data.List.FinRange
import Mathlib.Data.List.Indexes
import SharedBoard.Proofs.Session.Pending
import SharedBoard.Proofs.Session.Presence
import SharedBoard.Proofs.Store.Described

/-! Gestures are gated and atomic. Only a connected session takes them, and a connected session has
a socket and a user to act with; a gesture is carried out as a whole or leaves everything as it is.
-/

namespace SharedBoard.Session

-----------------------------------------------------------------------------------------
-- What a connected session has
-----------------------------------------------------------------------------------------

namespace Presence

/-- A presence in good order. A socket is known exactly while the channel is open; who is connected
has been authenticated, and who has been authenticated is known.
-/
structure Grounded (presence : Presence) : Prop where
  socket
    : presence.link.generation.isSome
      ↔ presence.link.state ∈ [.authenticating, .connected, .closing]
  joined : presence.link.state = .connected → presence.link.isAuthenticated = true
  known : presence.link.isAuthenticated = true → presence.user.isSome

variable {presence : Presence}

namespace Grounded

/-- Before the first attempt to connect there is neither a socket nor a user. -/
theorem initial (user : Option User) : Grounded ⟨.initial, user⟩ :=
  ⟨by simp [Link.initial], by simp [Link.initial], by simp [Link.initial]⟩

theorem connecting (grounded : presence.Grounded)
    : Grounded { presence with link := presence.link.connecting.1 } := by
  unfold Link.connecting
  split
  · exact grounded
  · exact ⟨by simp [Link.enter], by simp [Link.enter], by simp [Link.enter]⟩

/-- A link that is to be closed keeps its socket and what it knows. -/
theorem closeRequested (grounded : presence.Grounded)
    : Grounded { presence with link := presence.link.closeRequested.1 } := by
  unfold Link.closeRequested
  split
  · exact grounded
  · cases presence.link.generation with
    | none => exact ⟨by simp [Link.enter], by simp [Link.enter], grounded.known⟩
    | some generation => exact ⟨by simp [Link.enter], by simp [Link.enter], grounded.known⟩

/-- A frame signs the user in while one is awaited, and lets who was signed in join. -/
theorem afterFrame (grounded : presence.Grounded) (text : String)
    : (presence.afterFrame text).Grounded := by
  unfold Presence.afterFrame
  split
  · split
    · next awaited =>
        obtain ⟨generation, found⟩ := Option.isSome_iff_exists.mp awaited
        obtain ⟨waiting, known⟩ := generation_of_signingIn? found
        rw [Link.authenticated, if_pos waiting]
        exact ⟨grounded.socket, fun _ => rfl, fun _ => rfl⟩
    · exact grounded
  · split
    · unfold Link.boardJoined
      split
      · next ready =>
          have open_ := grounded.socket.mpr (by simp [ready.1])
          exact ⟨by simp [Link.enter, open_], fun _ => ready.2, grounded.known⟩
      · exact grounded
    · exact grounded
  · exact grounded

/-- An accepted socket begins with nobody, and is given up at once without a token. -/
theorem opened (grounded : presence.Grounded) (token : Option String) (generation : Nat)
    : (presence.after token (.transport (.opened generation))).Grounded := by
  simp only [Presence.after]
  split
  · exact grounded
  · next running =>
      have begun : Grounded ⟨(presence.link.opened generation).1, none⟩ := by
        rw [Link.opened, if_neg running]
        exact ⟨by simp [Link.enter], by simp [Link.enter], by simp [Link.enter]⟩
      cases token with
      | some jwt => exact begun
      | none => exact begun.closeRequested

/-- A presence stays in good order with any input, by cases on it. -/
theorem after (grounded : presence.Grounded) (token : Option String) (input : Input)
    : (presence.after token input).Grounded := by
  cases input with
  | transport event =>
      cases event with
      | connecting => exact grounded.connecting
      | opened generation => exact grounded.opened token generation
      | message text => exact grounded.afterFrame text
      | closed reason =>
          exact ⟨by simp [Presence.after, Link.dropped, Link.enter],
            by simp [Presence.after, Link.dropped, Link.enter],
            by simp [Presence.after, Link.dropped, Link.enter]⟩
  | close => exact grounded.closeRequested
  | gesture gesture fresh requests => exact grounded
  | focus post => exact grounded
  | setColor color => exact grounded

end Grounded

end Presence

variable {session : Session}

/-- So it stays over a run, by induction over the inputs. -/
theorem grounded_run (grounded : session.presence.Grounded) (inputs : List Input)
    : (session.run inputs).session.presence.Grounded := by
  induction inputs generalizing session with
  | nil => exact grounded
  | cons input rest ih =>
      have next : (session.step input).session.presence.Grounded := by
        rw [presence_step]
        exact grounded.after session.token input
      rw [run_cons]
      exact ih next

/-- A session that is not connected has nobody to act for. -/
theorem live_of_not_connected (away : session.state ≠ .connected)
    : session.live = .error (.notConnected session.state) := by
  unfold Session.live
  split
  · next connected _ _ => exact absurd connected away
  · rfl

/-- A session that is not connected refuses all gestures and names its state. -/
theorem perform_of_not_connected (away : session.state ≠ .connected) (gesture : Gesture)
    (fresh : Fresh) (requests : Nat → RequestId)
    : session.perform gesture fresh requests = .error (.notConnected session.state) := by
  simp only [perform, live_of_not_connected away, bind, Except.bind]

theorem focusPost_of_not_connected (away : session.state ≠ .connected) (post : PostId)
    : session.focusPost post = .error (.notConnected session.state) := by
  simp only [focusPost, live_of_not_connected away, bind, Except.bind]

/-- A session that makes a gesture is connected. -/
theorem connected_of_perform {gesture : Gesture} {fresh : Fresh} {requests : Nat → RequestId}
    {reaction : Reaction} (performed : session.perform gesture fresh requests = .ok reaction)
    : session.state = .connected := by
  by_contra away
  rw [perform_of_not_connected away] at performed
  simp at performed

theorem connected_of_focusPost {post : PostId} {reaction : Reaction}
    (performed : session.focusPost post = .ok reaction)
    : session.state = .connected := by
  by_contra away
  rw [focusPost_of_not_connected away] at performed
  simp at performed

/-- A connected session has a socket and a user, and acts with them. -/
theorem live_of_connected (grounded : session.presence.Grounded)
    (connected : session.state = .connected)
    : ∃ generation user,
        session.link.generation = some generation
        ∧ session.user = some user
        ∧ session.live = .ok (generation, ⟨session.board.id, user.id⟩) := by
  have atLink : session.link.state = .connected := connected
  obtain ⟨generation, found⟩ :=
    Option.isSome_iff_exists.mp (grounded.socket.mpr (by simp [atLink]))
  obtain ⟨user, known⟩ := Option.isSome_iff_exists.mp (grounded.known (grounded.joined atLink))
  have atGeneration : session.link.generation = some generation := found
  have atUser : session.user = some user := known
  exact ⟨generation, user, atGeneration, atUser, by rw [live, connected, atGeneration, atUser]⟩

-----------------------------------------------------------------------------------------
-- What comes of a gesture
-----------------------------------------------------------------------------------------

section Gestures

variable {gesture : Gesture} {fresh : Fresh} {requests : Nat → RequestId} {generation : Nat}
  {actor : Actor}

/-- A live session makes a gesture exactly as planned. -/
theorem perform_of_live (live : session.live = .ok (generation, actor)) (gesture : Gesture)
    (fresh : Fresh) (requests : Nat → RequestId)
    : session.perform gesture fresh requests
      = match Plan.ofGesture session.visible actor fresh session.color session.grid gesture with
        | .ok plan =>
            .ok (({ session with color := session.colorAfter gesture } : Session).commit generation
              plan requests)
        | .error error => .error (.noPlan error) := by
  simp only [perform, live, bind, Except.bind]
  cases Plan.ofGesture session.visible actor fresh session.color session.grid gesture with
  | error error => rfl
  | ok plan => rfl

theorem focusPost_of_live (live : session.live = .ok (generation, actor)) (post : PostId)
    : session.focusPost post
      = if (session.visible.post? post).isSome then
          .ok ⟨session, [], [.message generation ⟨.focusPost post actor.board, none⟩], .nothing⟩
        else
          .error (.noPlan (.postNotFound post)) := by
  simp only [focusPost, live, bind, Except.bind]
  rfl

/-- Requests for commands, each with an id of its own and not confirmed yet. -/
def awaiting (commands : List (Command Float)) (requests : Nat → RequestId)
    : List PendingRequest :=
  commands.mapIdx fun index command =>
    ⟨requests index, command.kind, command.entity?, false⟩

/-- What a gesture does that is carried out. One operation is entered, with the requests for the
commands of the plan, and these commands go out on the live socket in order. What the server
confirmed and the channel stay as they are.
-/
structure CarriesOut (session : Session) (plan : Plan Float) (generation : Nat)
    (requests : Nat → RequestId) (reaction : Reaction) : Prop where
  entered
    : reaction.session.ledger.operations
      = session.ledger.operations ++ [⟨awaiting plan.commands requests, plan.mutations⟩]
  sent
    : reaction.sent
      = plan.commands.mapIdx fun index command =>
          .message generation ⟨command, some (requests index)⟩
  occupied : plan.commands ≠ []
  distinct : requests.Injective → ((awaiting plan.commands requests).map (·.id)).Nodup
  confirmed : reaction.session.confirmed = session.confirmed
  presence : reaction.session.presence = session.presence

/-- The requests that are entered for a plan are those for its commands. -/
theorem filterMap_messages (plan : Plan Float) (requests : Nat → RequestId)
    : (plan.messages requests).filterMap PendingRequest.ofMessage?
      = awaiting plan.commands requests := by
  let request (message : Message Float) : PendingRequest :=
    ⟨message.request.getD default, message.command.kind, message.command.entity?, false⟩
  have each (message : Message Float) (member : message ∈ plan.messages requests)
      : PendingRequest.ofMessage? message = (some ∘ request) message := by
    obtain ⟨index, _, rfl⟩ := List.mem_mapIdx.mp member
    rfl
  rw [List.filterMap_congr each, List.filterMap_eq_map, Plan.messages, awaiting,
    List.mapIdx_eq_ofFn, List.mapIdx_eq_ofFn, List.map_ofFn]
  rfl

theorem ids_awaiting_nodup (commands : List (Command Float)) (distinct : requests.Injective)
    : ((awaiting commands requests).map (·.id)).Nodup := by
  rw [awaiting, List.mapIdx_eq_ofFn, List.map_ofFn, List.nodup_ofFn]
  exact fun left right same => Fin.ext (distinct same)

/-- A plan of a gesture is carried out when it is committed, since it has commands. -/
theorem carriesOut_commit {plan : Plan Float}
    (made : Plan.Made session.visible actor fresh gesture plan) (generation : Nat)
    (requests : Nat → RequestId) (color : Color)
    : session.CarriesOut plan generation requests
        (({ session with color := color } : Session).commit generation plan requests) where
  entered := by rw [operations_commit made, filterMap_messages]
  sent := by
    rw [commit, Plan.messages, List.mapIdx_eq_ofFn, List.mapIdx_eq_ofFn]
    exact List.map_ofFn
  occupied := made.commands_ne_nil
  distinct := ids_awaiting_nodup plan.commands
  confirmed := rfl
  presence := rfl

/-- A gesture that a live session makes is planned and carried out. -/
theorem exists_plan_of_perform (live : session.live = .ok (generation, actor)) {reaction : Reaction}
    (performed : session.perform gesture fresh requests = .ok reaction)
    : ∃ plan,
        Plan.ofGesture session.visible actor fresh session.color session.grid gesture = .ok plan
        ∧ session.CarriesOut plan generation requests reaction := by
  rw [perform_of_live live] at performed
  split at performed
  · next plan planned =>
      obtain rfl := Except.ok.inj performed
      have made := Plan.made_of_ofGesture planned
      exact ⟨plan, planned, carriesOut_commit made generation requests _⟩
  · simp at performed

end Gestures

/-- Gestures are gated and atomic, in every state that a session can reach. A session that is not
connected refuses all of them and names its state; a connected one has a socket and a user and never
refuses one for that. A gesture that is refused leaves everything as it is and sends nothing. One
that is made enters one operation and sends its commands, and telling the others about typing only
sends its message.
-/
theorem gestures_gated_and_atomic (board : Board) (groups : List (Group Float))
    (token : Option String) (color : Color) (grid : Option Int32) (inputs : List Input)
    : let session := ((start board groups token color grid).run inputs).session
      (session.state ≠ .connected
        → (∀ gesture fresh requests,
            session.perform gesture fresh requests = .error (.notConnected session.state))
          ∧ ∀ post, session.focusPost post = .error (.notConnected session.state))
      ∧ (session.state = .connected
        → session.link.generation.isSome
          ∧ session.user.isSome
          ∧ ∀ state,
              (∀ gesture fresh requests,
                session.perform gesture fresh requests ≠ .error (.notConnected state))
              ∧ ∀ post, session.focusPost post ≠ .error (.notConnected state))
      ∧ (∀ gesture fresh requests error,
          session.perform gesture fresh requests = .error error
          → session.step (.gesture gesture fresh requests) = .quiet session)
      ∧ (∀ gesture fresh requests reaction,
          session.perform gesture fresh requests = .ok reaction
          → session.step (.gesture gesture fresh requests) = reaction
            ∧ ∃ generation user plan,
                session.link.generation = some generation
                ∧ session.user = some user
                ∧ Plan.ofGesture session.visible ⟨session.board.id, user.id⟩ fresh session.color
                    session.grid gesture = .ok plan
                ∧ session.CarriesOut plan generation requests reaction)
      ∧ (∀ post error,
          session.focusPost post = .error error
          → session.step (.focus post) = .quiet session)
      ∧ ∀ post reaction,
          session.focusPost post = .ok reaction
          → session.step (.focus post) = reaction
            ∧ ∃ generation,
                session.link.generation = some generation
                ∧ reaction
                  = ⟨session, [], [.message generation ⟨.focusPost post session.board.id, none⟩],
                      .nothing⟩ := by
  intro session
  have begins : (start board groups token color grid).presence.Grounded := .initial none
  have grounded : session.presence.Grounded := grounded_run begins inputs
  refine ⟨fun away => ⟨perform_of_not_connected away, focusPost_of_not_connected away⟩,
    fun connected => ?_, ?_, ?_, ?_, ?_⟩
  · obtain ⟨generation, user, found, known, live⟩ := live_of_connected grounded connected
    refine ⟨by rw [found, Option.isSome_some], by rw [known, Option.isSome_some], fun state =>
      ⟨fun gesture fresh requests => ?_, fun post => ?_⟩⟩
    · rw [perform_of_live live]
      split <;> simp
    · rw [focusPost_of_live live]
      split <;> simp
  · intro gesture fresh requests error refused
    simp only [step, refused]
  · intro gesture fresh requests reaction performed
    refine ⟨by simp only [step, performed], ?_⟩
    obtain ⟨generation, user, found, known, live⟩ :=
      live_of_connected grounded (connected_of_perform performed)
    obtain ⟨plan, planned, carriesOut⟩ := exists_plan_of_perform live performed
    exact ⟨generation, user, plan, found, known, planned, carriesOut⟩
  · intro post error refused
    simp only [step, refused]
  · intro post reaction performed
    refine ⟨by simp only [step, performed], ?_⟩
    obtain ⟨generation, user, found, _, live⟩ :=
      live_of_connected grounded (connected_of_focusPost performed)
    rw [focusPost_of_live live] at performed
    split at performed
    · exact ⟨generation, found, (Except.ok.inj performed).symm⟩
    · simp at performed

/-- Before the handshake the owner can not recolor a post. Afterwards the color goes out in one
message, and the removal of a post that is not on the board comes to nothing.
-/
theorem gestures_gated_and_atomic_recolored
    : let before := start Sample.board Sample.pair (some "token") .lightPink none
      let session := (before.run Sample.handshake).session
      let recolor : Gesture := .recolorPost (.ofNat 11) .lightAqua
      let remove : Gesture := .deletePost (.ofNat 99)
      let requests := Sample.requests 200
      before.perform recolor Sample.fresh requests = .error (.notConnected .connecting)
      ∧ session.step (.gesture remove Sample.fresh requests) = .quiet session
      ∧ ∃ generation plan,
          plan.commands.map (·.kind) = [.postUpdate]
          ∧ session.CarriesOut plan generation requests
              (session.step (.gesture recolor Sample.fresh requests)) := by
  intro before session recolor remove requests
  have gated (inputs : List Input) :=
    gestures_gated_and_atomic Sample.board Sample.pair (some "token") .lightPink none inputs
  have waiting : before.state = .connecting := rfl
  have kinds {store : Store Float} {actor : Actor} {fresh : Fresh} {plan : Plan Float}
      (made : Plan.Made store actor fresh (.recolorPost (.ofNat 11) .lightAqua) plan)
      : plan.commands.map (·.kind) = [.postUpdate] := by
    cases made
    rfl
  have outcomes : (session.perform remove Sample.fresh requests).toOption.isNone
      ∧ (session.perform recolor Sample.fresh requests).toOption.isSome := by
    simp only [session, before, recolor, remove, requests, start]
    rw [Sample.ofGroups_pair]
    decide +kernel
  obtain ⟨absent, performed⟩ := outcomes
  obtain ⟨away, _⟩ := gated []
  obtain ⟨_, _, unchanged, carried, _⟩ := gated Sample.handshake
  refine ⟨?_, ?_, ?_⟩
  · have blocked : before.state ≠ .connected := by
      rw [waiting]
      decide
    rw [← waiting]
    exact (away blocked).1 recolor Sample.fresh requests
  · cases outcome : session.perform remove Sample.fresh requests with
    | error error => exact unchanged remove Sample.fresh requests error outcome
    | ok reaction => simp [outcome, Except.toOption] at absent
  · obtain ⟨reaction, made⟩ := Option.isSome_iff_exists.mp performed
    obtain ⟨same, generation, user, plan, _, _, planned, carriesOut⟩ :=
      carried recolor Sample.fresh requests reaction (Plan.ok_of_toOption made)
    refine ⟨generation, plan, ?_, ?_⟩
    · exact kinds (Plan.made_of_ofGesture planned)
    · rw [same]
      exact carriesOut

end SharedBoard.Session
