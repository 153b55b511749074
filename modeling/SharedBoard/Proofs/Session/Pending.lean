import Mathlib.Data.List.Induction
import SharedBoard.Proofs.Ledger
import SharedBoard.Proofs.Session.Run

/-! What is in flight. Only gestures enter operations into the ledger, so every operation that a run
has in flight is that of a gesture made in it, with the requests that were sent for it.
-/

namespace SharedBoard

/-- The request id of a message that goes out. -/
def Outgoing.request? {κ : Type} : Outgoing κ → Option RequestId
  | .message _ sent => sent.request
  | _ => none

/-- The request ids of everything that goes out. -/
def Reaction.requests (reaction : Reaction) : List RequestId :=
  reaction.sent.filterMap Outgoing.request?

theorem Reaction.requests_andThen (reaction : Reaction) (step : Session → Reaction)
    : (reaction.andThen step).requests
      = reaction.requests ++ (step reaction.session).requests :=
  List.filterMap_append

/-- The request ids of the messages for a plan. -/
def Plan.requestIds {κ : Type} (plan : Plan κ) (requests : Nat → RequestId) : List RequestId :=
  (plan.messages requests).filterMap (·.request)

/-- The ids of the requests of an operation. -/
def PendingOperation.ids {κ : Type} (operation : PendingOperation κ) : List RequestId :=
  operation.requests.map (·.id)

/-- The operation that is entered for a plan. -/
def Plan.operation {κ : Type} (plan : Plan κ) (requests : Nat → RequestId) : PendingOperation κ :=
  ⟨(plan.messages requests).filterMap PendingRequest.ofMessage?, plan.mutations⟩

@[simp] theorem Plan.operation_mutations {κ : Type} (plan : Plan κ) (requests : Nat → RequestId)
    : (plan.operation requests).mutations = plan.mutations :=
  rfl

/-- The operation of a plan has the request ids of its messages. -/
@[simp] theorem Plan.ids_operation {κ : Type} (plan : Plan κ) (requests : Nat → RequestId)
    : (plan.operation requests).ids = plan.requestIds requests := by
  rw [PendingOperation.ids, operation, List.map_filterMap, requestIds]
  refine congrArg (List.filterMap · _) (funext fun message => ?_)
  rw [PendingRequest.ofMessage?, Option.map_map]
  exact Option.map_id' ..

/-- No request of the operation of a plan is confirmed at first. -/
theorem Plan.unconfirmed_operation {κ : Type} {plan : Plan κ} {requests : Nat → RequestId}
    {request : PendingRequest} (member : request ∈ (plan.operation requests).requests)
    : request.confirmed = false :=
  Ledger.unconfirmed_of_mem_ofMessages member

namespace Ledger

variable {κ : Type}

theorem ids_of_confirmFirst? {picks : PendingRequest → Bool}
    {operation confirmed : PendingOperation κ}
    (found : operation.confirmFirst? picks = some confirmed)
    : confirmed.ids = operation.ids := by
  obtain ⟨index, _, rfl⟩ := Option.map_eq_some_iff.mp found
  refine List.ext_getElem (by simp [PendingOperation.ids]) fun place _ _ => ?_
  simp only [PendingOperation.ids, List.getElem_map, List.getElem_modify]
  split <;> rfl

/-- An operation that is left after a confirmation was there before. -/
theorem exists_of_mem_confirm {ledger : Ledger κ} {kind : EventKind} {entity : Option Uuid}
    {answer : Option RequestId} {operation : PendingOperation κ}
    (member : operation ∈ (ledger.confirm kind entity answer).1.operations)
    : ∃ old ∈ ledger.operations,
        operation.ids = old.ids ∧ operation.mutations = old.mutations := by
  unfold confirm at member
  split at member
  · next rest found =>
      obtain ⟨before, answered, after, confirmed, split, _, here, rfl⟩ := exists_of_confirmIn? found
      have kept {old : PendingOperation κ} (inAfter : old ∈ before ++ answered :: after)
          : old ∈ ledger.operations := split ▸ inAfter
      rcases List.mem_append.mp member with earlier | later
      · exact ⟨operation, kept (List.mem_append_left _ earlier), rfl, rfl⟩
      · split at later
        · exact ⟨operation, kept (by simp [later]), rfl, rfl⟩
        · rcases List.mem_cons.mp later with rfl | later
          · exact ⟨answered, kept (by simp), ids_of_confirmFirst? here,
              mutations_of_confirmFirst? here⟩
          · exact ⟨operation, kept (by simp [later]), rfl, rfl⟩
  · exact ⟨operation, member, rfl, rfl⟩

/-- An operation that is left after a refusal was there before. -/
theorem mem_of_mem_reject? {ledger rest : Ledger κ} {kind : EventKind}
    {answer : Option RequestId} {taken operation : PendingOperation κ}
    (refused : ledger.reject? kind answer = some (taken, rest))
    (member : operation ∈ rest.operations)
    : operation ∈ ledger.operations := by
  obtain ⟨⟨inner, others⟩, found, same⟩ := Option.map_eq_some_iff.mp refused
  obtain ⟨_, rfl⟩ := Prod.mk.inj same
  exact (takeFirst?_sublist found).subset member

end Ledger

-----------------------------------------------------------------------------------------
-- The ledger over a run
-----------------------------------------------------------------------------------------

namespace Session

/-- The ledger after an input. A gesture that is carried out is entered, a success confirms a
request, a refusal takes an operation out, and another channel begins with nothing in flight.
-/
def ledgerAfter (session : Session) (input : Input) : Ledger Float :=
  match input with
  | .gesture gesture fresh requests =>
      match session.planFor? (.gesture gesture fresh requests) with
      | some plan => ⟨session.ledger.operations ++ [plan.operation requests]⟩
      | none => session.ledger
  | .transport (.message text) =>
      match Inbound.ofText text with
      | .ok (.applied (.authenticated _) _) => session.ledger
      | .ok (.applied event answer) =>
          (session.ledger.confirm event.kind event.entity? answer).1
      | .ok (.rejected kind _ answer) =>
          if kind = .userAuthenticate then session.ledger
          else ((session.ledger.reject? kind answer).map (·.2)).getD session.ledger
      | .error _ => session.ledger
  | .transport (.opened _) => if session.link.isTerminal then session.ledger else .empty
  | .transport (.closed _) => .empty
  | _ => session.ledger

variable {session : Session}

theorem ledger_authenticate (session : Session) (generation : Nat)
    : (session.authenticate generation).session.ledger = session.ledger := by
  unfold authenticate
  split <;> rfl

theorem ledger_onAuthenticated (session : Session) (user : User)
    : (session.onAuthenticated user).session.ledger = session.ledger := by
  unfold onAuthenticated
  split
  · rfl
  · split <;> rfl

theorem ledger_joinIfOwn (session : Session) (event : Event Float)
    : (session.joinIfOwn event).session.ledger = session.ledger := by
  unfold joinIfOwn
  split
  · split <;> rfl
  · rfl

theorem ledger_onEvent {event : Event Float} (other : ∀ user, event ≠ .authenticated user)
    (session : Session) (answer : Option RequestId)
    : (session.onEvent event answer).session.ledger
      = (session.ledger.confirm event.kind event.entity? answer).1 := by
  unfold onEvent
  split
  · next user => exact absurd rfl (other user)
  · exact ledger_joinIfOwn _ event

theorem ledger_onRejected (session : Session) (kind : EventKind) (message : String)
    (answer : Option RequestId)
    : (session.onRejected kind message answer).session.ledger
      = if kind = .userAuthenticate then session.ledger
        else ((session.ledger.reject? kind answer).map (·.2)).getD session.ledger := by
  unfold onRejected
  split
  · rfl
  · simp only [Reaction.andThen, rollBack]
    cases session.ledger.reject? kind answer with
    | none => rfl
    | some refused => rfl

theorem ledger_onMessage (session : Session) (text : String)
    : (session.onMessage text).session.ledger
      = session.ledgerAfter (.transport (.message text)) := by
  simp only [onMessage, ledgerAfter]
  cases Inbound.ofText text with
  | error _ => rfl
  | ok inbound =>
      cases inbound with
      | applied event answer =>
          cases event with
          | authenticated user => exact ledger_onAuthenticated session user
          | _ => exact ledger_onEvent (by simp) session answer
      | rejected kind message answer => exact ledger_onRejected session kind message answer

/-- A step leaves the ledger as described, by cases on the input. -/
theorem ledger_step (session : Session) (input : Input)
    : (session.step input).session.ledger = session.ledgerAfter input := by
  cases input with
  | transport event =>
      cases event with
      | connecting => rfl
      | opened generation =>
          simp only [step, handle, ledgerAfter]
          split
          · rfl
          · exact ledger_authenticate _ generation
      | message text => exact ledger_onMessage session text
      | closed reason => rfl
  | gesture gesture fresh requests =>
      rcases session.gesture_cases gesture fresh requests with
        ⟨unplanned, unchanged⟩ | ⟨plan, generation, planned, ⟨actor, made⟩, committed⟩
      · simp only [ledgerAfter, unplanned]
        rw [unchanged]
        rfl
      · simp only [ledgerAfter, planned]
        rw [committed]
        exact congrArg Ledger.mk (operations_commit made _ generation requests)
  | focus post => exact congrArg Session.ledger (session_step_focus session post)
  | setColor color => rfl
  | close => rfl

/-- The requests of a gesture that is carried out go out. -/
theorem requests_step {gesture : Gesture} {fresh : Fresh} {requests : Nat → RequestId}
    {plan : Plan Float}
    (planned : session.planFor? (.gesture gesture fresh requests) = some plan)
    : (session.step (.gesture gesture fresh requests)).requests = plan.requestIds requests := by
  obtain ⟨generation, committed⟩ := step_gesture_of_planned planned
  rw [committed]
  exact List.filterMap_map

/-- An operation is in flight after an input because it was before, or it is that of a gesture. -/
theorem cases_of_mem_ledgerAfter {input : Input} {operation : PendingOperation Float}
    (member : operation ∈ (session.ledgerAfter input).operations)
    : (∃ old ∈ session.ledger.operations,
        operation.ids = old.ids ∧ operation.mutations = old.mutations)
      ∨ ∃ gesture fresh requests plan,
          input = .gesture gesture fresh requests
          ∧ session.planFor? input = some plan
          ∧ operation = plan.operation requests := by
  have kept (old : operation ∈ session.ledger.operations)
      : ∃ old ∈ session.ledger.operations,
          operation.ids = old.ids ∧ operation.mutations = old.mutations :=
    ⟨operation, old, rfl, rfl⟩
  unfold ledgerAfter at member
  split at member
  · next gesture fresh requests =>
      split at member
      · next plan planned =>
          rcases List.mem_append.mp member with old | new
          · exact .inl (kept old)
          · exact .inr ⟨gesture, fresh, requests, plan, rfl, planned, List.mem_singleton.mp new⟩
      · exact .inl (kept member)
  · split at member
    · exact .inl (kept member)
    · exact .inl (Ledger.exists_of_mem_confirm member)
    · split at member
      · exact .inl (kept member)
      · next kind _ answer _ _ =>
          cases refused : session.ledger.reject? kind answer with
          | none =>
              rw [refused] at member
              exact .inl (kept member)
          | some result =>
              rw [refused] at member
              exact .inl (kept (Ledger.mem_of_mem_reject? refused member))
    · exact .inl (kept member)
  · split at member
    · exact .inl (kept member)
    · exact absurd member List.not_mem_nil
  · exact absurd member List.not_mem_nil
  · exact .inl (kept member)

/-- A gesture that a run carries out: where it is in the run, and the plan that was made for it. -/
structure CarriedOut (session : Session) (inputs : List Input) where
  early : List Input
  gesture : Gesture
  fresh : Fresh
  requests : Nat → RequestId
  late : List Input
  plan : Plan Float
  split : inputs = early ++ .gesture gesture fresh requests :: late
  planned : (session.run early).session.planFor? (.gesture gesture fresh requests) = some plan

namespace CarriedOut

variable {inputs : List Input}

/-- A gesture that is carried out in a run is so in any longer one. -/
def concat (act : session.CarriedOut inputs) (last : Input)
    : session.CarriedOut (inputs ++ [last]) :=
  { act with
    late := act.late ++ [last]
    split := (congrArg (· ++ [last]) act.split).trans (List.append_assoc ..) }

/-- The requests of a gesture go out during the run. -/
theorem requests_sublist (act : session.CarriedOut inputs)
    : (act.plan.requestIds act.requests).Sublist (session.run inputs).requests := by
  obtain ⟨early, gesture, fresh, requests, late, plan, rfl, planned⟩ := act
  rw [run_append, Reaction.requests_andThen, run_eq_andThen, Reaction.requests_andThen,
    requests_step planned]
  exact (List.sublist_append_left ..).trans (List.sublist_append_right ..)

end CarriedOut

/-- Every operation in flight is that of a gesture of the run, if nothing was in flight at first, by
induction over the run from its end.
-/
theorem exists_carriedOut (atRest : session.ledger.operations = []) {inputs : List Input}
    {operation : PendingOperation Float}
    (member : operation ∈ (session.run inputs).session.ledger.operations)
    : ∃ act : session.CarriedOut inputs,
        operation.ids = act.plan.requestIds act.requests
        ∧ operation.mutations = act.plan.mutations := by
  induction inputs using List.reverseRecOn generalizing operation with
  | nil => simp [atRest] at member
  | append_singleton early last ih =>
      rw [run_concat, ledger_step] at member
      rcases cases_of_mem_ledgerAfter member with
        ⟨old, inLedger, ids, mutations⟩ | ⟨gesture, fresh, requests, plan, rfl, planned, rfl⟩
      · obtain ⟨act, sameIds, sameMutations⟩ := ih inLedger
        exact ⟨act.concat last, ids.trans sameIds, mutations.trans sameMutations⟩
      · exact ⟨⟨early, gesture, fresh, requests, [], plan, rfl, planned⟩,
          plan.ids_operation requests, rfl⟩

end Session

end SharedBoard
