import SharedBoard.Proofs.Plan.Made
import SharedBoard.Session

/-! Runs of a session, input by input. Every run on a live board begins with a handshake. -/

namespace SharedBoard

/-- What three calls rebuild does not depend on which two are taken together. -/
theorem Change.append_assoc (first second third : Change)
    : first ++ second ++ third = first ++ (second ++ third) := by
  change append (append first second) third = append first (append second third)
  simp only [append, Bool.or_assoc, List.append_assoc]

namespace Reaction

theorem andThen_assoc (reaction : Reaction) (first second : Session → Reaction)
    : (reaction.andThen first).andThen second
      = reaction.andThen (fun session => (first session).andThen second) := by
  simp only [andThen, List.append_assoc, Change.append_assoc]

/-- A step that follows nothing counts alone. -/
theorem quiet_andThen (session : Session) (step : Session → Reaction)
    : (quiet session).andThen step = step session := by
  simp only [andThen, quiet, List.nil_append, Change.nothing_append]

/-- Nothing is added by a step that does nothing. -/
theorem andThen_quiet (reaction : Reaction) : reaction.andThen quiet = reaction := by
  simp only [andThen, quiet, List.append_nil, Change.append_nothing]

end Reaction

namespace Session

/-- What comes of an input and then of others, by induction over these. -/
theorem run_eq_andThen (session : Session) (input : Input) (rest : List Input)
    : session.run (input :: rest) = (session.step input).andThen (·.run rest) := by
  have fold (reaction : Reaction) (inputs : List Input)
      : inputs.foldl (fun reaction input => reaction.andThen (·.step input)) reaction
        = reaction.andThen (·.run inputs) := by
    induction inputs generalizing reaction with
    | nil => exact reaction.andThen_quiet.symm
    | cons head tail ih =>
        have first (session : Session)
            : session.run (head :: tail) = (session.step head).andThen (·.run tail) := by
          rw [run, List.foldl_cons, ih, Reaction.quiet_andThen]
        simp only [List.foldl_cons, ih, Reaction.andThen_assoc, first]
  rw [run, List.foldl_cons, fold, Reaction.quiet_andThen]

/-- What comes of two runs, one after the other, by induction over the first. -/
theorem run_append (session : Session) (first second : List Input)
    : session.run (first ++ second) = (session.run first).andThen (·.run second) := by
  induction first generalizing session with
  | nil => exact (Reaction.quiet_andThen session (·.run second)).symm
  | cons head rest ih =>
      simp only [List.cons_append, run_eq_andThen, ih, Reaction.andThen_assoc]

@[simp] theorem run_nil (session : Session) : (session.run []).session = session :=
  rfl

theorem run_cons (session : Session) (input : Input) (rest : List Input)
    : (session.run (input :: rest)).session
      = ((session.step input).session.run rest).session := by
  rw [run_eq_andThen]
  rfl

/-- The session after a last input. -/
theorem run_concat (session : Session) (inputs : List Input) (last : Input)
    : (session.run (inputs ++ [last])).session
      = ((session.run inputs).session.step last).session := by
  rw [run_append]
  exact run_cons (session.run inputs).session last []

/-- What went out with a last input. -/
theorem sent_run_concat (session : Session) (inputs : List Input) (last : Input)
    : (session.run (inputs ++ [last])).sent
      = (session.run inputs).sent ++ ((session.run inputs).session.step last).sent := by
  simp only [run_append, run_eq_andThen]
  exact congrArg (_ ++ ·) (List.append_nil _)

/-- The plan that a session carries out for an input, if it is a gesture that is not refused. -/
def planFor? (session : Session) : Input → Option (Plan Float)
  | .gesture gesture fresh _ =>
      match session.live with
      | .ok (_, actor) =>
          (Plan.ofGesture session.visible actor fresh session.color session.grid
            gesture).toOption
      | .error _ => none
  | _ => none

variable {session : Session} {gesture : Gesture} {fresh : Fresh} {requests : Nat → RequestId}

/-- A gesture with a plan is carried out. -/
theorem step_gesture_of_planned {plan : Plan Float}
    (planned : session.planFor? (.gesture gesture fresh requests) = some plan)
    : ∃ generation,
        session.step (.gesture gesture fresh requests)
        = ({ session with color := session.colorAfter gesture } : Session).commit generation plan
            requests := by
  simp only [planFor?] at planned
  split at planned
  · next generation actor live =>
      have made : Plan.ofGesture session.visible actor fresh session.color session.grid gesture
          = .ok plan := Plan.ok_of_toOption planned
      refine ⟨generation, ?_⟩
      simp only [step, perform, live, bind, Except.bind, made, Except.mapError]
  · simp at planned

/-- A gesture without a plan leaves the session as it is. -/
theorem step_gesture_of_unplanned
    (unplanned : session.planFor? (.gesture gesture fresh requests) = none)
    : session.step (.gesture gesture fresh requests) = .quiet session := by
  simp only [planFor?] at unplanned
  split at unplanned
  · next generation actor live =>
      cases made : Plan.ofGesture session.visible actor fresh session.color session.grid gesture with
      | error _ => simp only [step, perform, live, bind, Except.bind, made, Except.mapError]
      | ok plan => simp [made, Except.toOption] at unplanned
  · next error live => simp only [step, perform, live, bind, Except.bind]

/-- A plan that is carried out was made for the gesture on the visible board. -/
theorem made_of_planFor? {plan : Plan Float}
    (planned : session.planFor? (.gesture gesture fresh requests) = some plan)
    : ∃ actor, Plan.Made session.visible actor fresh gesture plan := by
  simp only [planFor?] at planned
  split at planned
  · next generation actor live =>
      exact ⟨actor, Plan.made_of_ofGesture (Plan.ok_of_toOption planned)⟩
  · simp at planned

/-- A gesture is carried out as planned on the visible board, or leaves the session as it is. -/
theorem gesture_cases (session : Session) (gesture : Gesture) (fresh : Fresh)
    (requests : Nat → RequestId)
    : (session.planFor? (.gesture gesture fresh requests) = none
        ∧ session.step (.gesture gesture fresh requests) = .quiet session)
      ∨ ∃ plan generation,
          session.planFor? (.gesture gesture fresh requests) = some plan
          ∧ (∃ actor, Plan.Made session.visible actor fresh gesture plan)
          ∧ session.step (.gesture gesture fresh requests)
            = ({ session with color := session.colorAfter gesture } : Session).commit generation
                plan requests := by
  cases planned : session.planFor? (.gesture gesture fresh requests) with
  | none => exact .inl ⟨rfl, step_gesture_of_unplanned planned⟩
  | some plan =>
      obtain ⟨generation, committed⟩ := step_gesture_of_planned planned
      exact .inr ⟨plan, generation, rfl, made_of_planFor? planned, committed⟩

/-- A plan has a command, so there is something to wait for. -/
theorem requests_ne_nil {store : Store Float} {actor : Actor} {plan : Plan Float}
    (made : Plan.Made store actor fresh gesture plan) (requests : Nat → RequestId)
    : (plan.messages requests).filterMap PendingRequest.ofMessage? ≠ [] := by
  intro nothing
  obtain ⟨message, member⟩ : ∃ message, message ∈ plan.messages requests := by
    refine List.exists_mem_of_ne_nil _ fun noMessages => made.commands_ne_nil ?_
    simpa [Plan.messages] using noMessages
  have entered := List.filterMap_eq_nil_iff.mp nothing message member
  obtain ⟨index, _, rfl⟩ := List.mem_mapIdx.mp member
  simp [PendingRequest.ofMessage?] at entered

/-- A plan that is carried out is in flight after all others. -/
theorem operations_commit {store : Store Float} {actor : Actor} {plan : Plan Float}
    (made : Plan.Made store actor fresh gesture plan) (session : Session) (generation : Nat)
    (requests : Nat → RequestId)
    : (session.commit generation plan requests).session.ledger.operations
      = session.ledger.operations
        ++ [⟨(plan.messages requests).filterMap PendingRequest.ofMessage?, plan.mutations⟩] := by
  simp [commit, Ledger.record, requests_ne_nil made requests]

/-- Both boards follow an event, whatever the event answers. -/
theorem boards_onEvent (session : Session) (event : Event Float) (answer : Option RequestId)
    : (session.onEvent event answer).session.visible
        = (session.visible.reduce (session.user.map (·.id)) event).store
      ∧ (session.onEvent event answer).session.confirmed
        = (session.confirmed.reduce (session.user.map (·.id)) event).store := by
  have joined (session : Session)
      : (session.joinIfOwn event).session.visible = session.visible
        ∧ (session.joinIfOwn event).session.confirmed = session.confirmed := by
    unfold joinIfOwn
    split
    · split <;> exact ⟨rfl, rfl⟩
    · exact ⟨rfl, rfl⟩
  unfold onEvent
  split
  · unfold onAuthenticated
    split
    · exact ⟨rfl, rfl⟩
    · split <;> exact ⟨rfl, rfl⟩
  · exact joined _

/-- Telling the others about typing leaves the session as it is. -/
theorem session_step_focus (session : Session) (post : PostId)
    : (session.step (.focus post)).session = session := by
  simp only [step, focusPost]
  cases session.live with
  | error _ => rfl
  | ok live =>
      simp only [bind, Except.bind]
      split
      · next reaction focused =>
          split at focused
          · obtain rfl := Except.ok.inj focused
            rfl
          · simp at focused
      · rfl

end Session

-- Events are compared field by field, so that the frames of sample runs are read by evaluation.
deriving instance DecidableEq for Post, Group, Event, Inbound

namespace Sample

/-- A board without a name. -/
def board : Board :=
  ⟨.ofNat 1, none, none, .ofNat 7, [], .epoch, .epoch⟩

/-- Identifiers for what a gesture makes. -/
def fresh : Fresh :=
  ⟨.ofNat 50, .ofNat 60, .epoch⟩

/-- Request ids for a gesture, counted from a start. -/
def requests (start : Nat) (index : Nat) : RequestId :=
  .ofNat (start + index)

/-- What happens until the owner has joined the board. -/
def handshake : List Session.Input :=
  [.transport (.opened 1),
    .transport (.message
      "[\"user.authenticate\",true,[[\"00000000-0000-0000-0000-000000000007\",\"Ada\"]]]"),
    .transport (.message
      "[\"board.connect\",true,[null,[],[\"00000000-0000-0000-0000-000000000007\",\"Ada\"]]]")]

end Sample

end SharedBoard
