import SharedBoard.Proofs.Session.Run
import SharedBoard.Proofs.Store.Described

/-! Refused gestures leave no trace. The gestures of a run are remembered with what was sent for
them; a refusal is meant for the oldest of them that it matches, and what is shown is the confirmed
board with the changes of all others.
-/

namespace SharedBoard

/-- A gesture that was made: what was sent for it, how it changed the board, and whether the server
refused it.
-/
structure Attempt where
  sent : List (Message Float)
  mutations : List (Mutation Float)
  refused : Bool

namespace Attempt

/-- Whether a refusal matches a message. One that repeats a request id matches the message with that
id; any other matches messages of its kind. Without an id a message can not be refused.
-/
def matchesMessage (kind : EventKind) (answer : Option RequestId) (message : Message Float)
    : Bool :=
  match message.request, answer with
  | none, _ => false
  | some own, some id => own == id
  | some _, none => message.command.kind == kind

/-- Mark the oldest gesture as refused that has a message matched by a refusal and is not refused
yet.
-/
def refuseFirst (kind : EventKind) (answer : Option RequestId) : List Attempt → List Attempt
  | [] => []
  | attempt :: rest =>
      if !attempt.refused && attempt.sent.any (matchesMessage kind answer) then
        { attempt with refused := true } :: rest
      else
        attempt :: refuseFirst kind answer rest

/-- The changes of the gestures that are not refused, oldest first. -/
def standing (attempts : List Attempt) : List (Mutation Float) :=
  (attempts.filter (fun attempt => !attempt.refused)).flatMap (·.mutations)

end Attempt

namespace Session

/-- The gestures made so far, after another input. A gesture is added when it is carried out, and one
is marked when a frame refuses it. A refused token concerns the channel and no gesture.
-/
def attemptsAfter (session : Session) (attempts : List Attempt) (input : Input) : List Attempt :=
  match input with
  | .gesture gesture fresh requests =>
      match session.planFor? (.gesture gesture fresh requests) with
      | some plan => attempts ++ [⟨plan.messages requests, plan.mutations, false⟩]
      | none => attempts
  | .transport (.message text) =>
      match Inbound.ofText text with
      | .ok (.rejected kind _ answer) =>
          if kind = .userAuthenticate then attempts else Attempt.refuseFirst kind answer attempts
      | _ => attempts
  | _ => attempts

/-- The gestures made during a run, after those made before it. -/
def attemptsDuring (session : Session) (attempts : List Attempt) : List Input → List Attempt
  | [] => attempts
  | input :: rest =>
      (session.step input).session.attemptsDuring (session.attemptsAfter attempts input) rest

/-- Whether an input comes from the user on a live board, or is a frame that refuses something. -/
def Input.isGestureOrRefusal : Input → Bool
  | .gesture .. => true
  | .focus _ => true
  | .setColor _ => true
  | .transport (.message text) =>
      match Inbound.ofText text with
      | .ok (.rejected ..) => true
      | _ => false
  | _ => false

end Session

namespace Attempt

/-- A gesture as the ledger enters it. -/
def operation (attempt : Attempt) : PendingOperation Float :=
  ⟨attempt.sent.filterMap PendingRequest.ofMessage?, attempt.mutations⟩

/-- The operations of the gestures that stand. -/
def operations (attempts : List Attempt) : List (PendingOperation Float) :=
  (attempts.filter (fun attempt => !attempt.refused)).map operation

/-- A refusal is meant for an operation in the ledger exactly when it matches a message of the
gesture, since no request is confirmed yet.
-/
theorem any_refusedBy (kind : EventKind) (answer : Option RequestId) (attempt : Attempt)
    : attempt.operation.requests.any (PendingRequest.refusedBy kind answer)
      = attempt.sent.any (matchesMessage kind answer) := by
  simp only [operation, List.any_filterMap]
  refine congrArg attempt.sent.any (funext fun message => ?_)
  obtain ⟨command, request⟩ := message
  cases request with
  | none => rfl
  | some own =>
      cases answer with
      | none => rfl
      | some id => rfl

/-- A refusal that is meant for no operation in the ledger marks no gesture, by induction over the
gestures.
-/
theorem refuseFirst_of_takeFirst?_none {kind : EventKind} {answer : Option RequestId}
    {attempts : List Attempt}
    (none : Ledger.takeFirst? (PendingRequest.refusedBy kind answer) (operations attempts) = none)
    : refuseFirst kind answer attempts = attempts := by
  induction attempts with
  | nil => rfl
  | cons head rest ih =>
      unfold refuseFirst
      cases gone : head.refused with
      | true =>
          have tail : operations (head :: rest) = operations rest := by simp [operations, gone]
          rw [tail] at none
          simp [ih none]
      | false =>
          have entries : operations (head :: rest) = head.operation :: operations rest := by
            simp [operations, gone]
          rw [entries, Ledger.takeFirst?, any_refusedBy] at none
          split at none
          · simp at none
          · next unmatched => simp [unmatched, ih (by simpa using none)]

/-- A refusal takes out of the ledger what it marks among the gestures, by induction over them. -/
theorem operations_refuseFirst {kind : EventKind} {answer : Option RequestId}
    {attempts : List Attempt} {taken : PendingOperation Float}
    {others : List (PendingOperation Float)}
    (found : Ledger.takeFirst? (PendingRequest.refusedBy kind answer) (operations attempts)
      = some (taken, others))
    : operations (refuseFirst kind answer attempts) = others := by
  induction attempts generalizing others with
  | nil => simp [operations, Ledger.takeFirst?] at found
  | cons head rest ih =>
      unfold refuseFirst
      cases gone : head.refused with
      | true =>
          have tail : operations (head :: rest) = operations rest := by simp [operations, gone]
          rw [tail] at found
          simpa [operations, gone] using ih found
      | false =>
          have entries : operations (head :: rest) = head.operation :: operations rest := by
            simp [operations, gone]
          rw [entries, Ledger.takeFirst?, any_refusedBy] at found
          split at found
          · next matched =>
              obtain ⟨_, rfl⟩ := Prod.mk.inj (Option.some.inj found)
              simp [matched, operations]
          · next unmatched =>
              obtain ⟨⟨inner, tail⟩, atRest, same⟩ := Option.map_eq_some_iff.mp found
              obtain ⟨rfl, rfl⟩ := Prod.mk.inj same
              simpa [unmatched, operations, gone] using ih atRest

theorem flatMap_operations (attempts : List Attempt)
    : (operations attempts).flatMap (·.mutations) = standing attempts := by
  rw [operations, standing, List.flatMap_map]
  rfl

end Attempt

-----------------------------------------------------------------------------------------
-- Exact sessions
-----------------------------------------------------------------------------------------

namespace Session

/-- The ledger holds the gestures that stand, and the visible board is the confirmed one with their
changes. The confirmed board is the one that the run started from.
-/
structure Exact (base : Store Float) (attempts : List Attempt) (session : Session) : Prop where
  pending : session.ledger.operations = Attempt.operations attempts
  shown : session.visible = (Mutation.applyAll (Attempt.standing attempts) session.confirmed).store
  kept : session.confirmed = base

namespace Exact

variable {base : Store Float} {attempts : List Attempt} {session : Session}

/-- Carrying a plan out adds a gesture that stands. -/
theorem commit (holds : session.Exact base attempts) {store : Store Float} {actor : Actor}
    {fresh : Fresh} {gesture : Gesture} {plan : Plan Float}
    (made : Plan.Made store actor fresh gesture plan) (generation : Nat)
    (requests : Nat → RequestId)
    : (session.commit generation plan requests).session.Exact base
        (attempts ++ [⟨plan.messages requests, plan.mutations, false⟩]) := by
  refine ⟨?_, ?_, holds.kept⟩
  · rw [operations_commit made, holds.pending]
    simp [Attempt.operations, Attempt.operation]
  · have standing
        : Attempt.standing (attempts ++ [⟨plan.messages requests, plan.mutations, false⟩])
          = Attempt.standing attempts ++ plan.mutations := by
      simp [Attempt.standing]
    rw [standing, Mutation.applyAll_append, Session.commit, Plan.apply, holds.shown]

/-- A refusal marks the gesture that it takes out of the ledger, and the visible board is built again
from the others.
-/
theorem rollBack (holds : session.Exact base attempts) (kind : EventKind)
    (answer : Option RequestId)
    : (session.rollBack kind answer).session.Exact base
        (Attempt.refuseFirst kind answer attempts) := by
  unfold Session.rollBack
  cases refused : session.ledger.reject? kind answer with
  | none =>
      rw [Ledger.reject?, Option.map_eq_none_iff, holds.pending] at refused
      rw [Attempt.refuseFirst_of_takeFirst?_none refused]
      exact holds
  | some result =>
      obtain ⟨taken, ledger⟩ := result
      obtain ⟨⟨operation, others⟩, found, same⟩ := Option.map_eq_some_iff.mp refused
      obtain ⟨rfl, rfl⟩ := Prod.mk.inj same
      rw [holds.pending] at found
      have left : others = Attempt.operations (Attempt.refuseFirst kind answer attempts) :=
        (Attempt.operations_refuseFirst found).symm
      refine ⟨left, ?_, holds.kept⟩
      rw [← Attempt.flatMap_operations, ← left]
      rfl

/-- A refused token marks no gesture; any other refusal rolls back. -/
theorem onRejected (holds : session.Exact base attempts) (kind : EventKind) (message : String)
    (answer : Option RequestId)
    : (session.onRejected kind message answer).session.Exact base
        (if kind = .userAuthenticate then attempts
          else Attempt.refuseFirst kind answer attempts) := by
  unfold Session.onRejected
  split
  · exact ⟨holds.pending, holds.shown, holds.kept⟩
  · exact holds.rollBack kind answer

/-- A gesture adds what is carried out for it, and one that is not carried out adds nothing. -/
theorem gesture (holds : session.Exact base attempts) (gesture : Gesture) (fresh : Fresh)
    (requests : Nat → RequestId)
    : (session.step (.gesture gesture fresh requests)).session.Exact base
        (session.attemptsAfter attempts (.gesture gesture fresh requests)) := by
  rcases session.gesture_cases gesture fresh requests with
    ⟨unplanned, unchanged⟩ | ⟨plan, generation, planned, ⟨actor, made⟩, committed⟩
  · simp only [attemptsAfter, unplanned]
    rw [unchanged]
    exact holds
  · have colored
        : ({ session with color := session.colorAfter gesture } : Session).Exact base attempts :=
      ⟨holds.pending, holds.shown, holds.kept⟩
    simp only [attemptsAfter, planned]
    rw [committed]
    exact colored.commit made generation requests

/-- A session stays exact with any gesture or refusal, by cases on the input. -/
theorem step (holds : session.Exact base attempts) {input : Input}
    (allowed : input.isGestureOrRefusal = true)
    : (session.step input).session.Exact base (session.attemptsAfter attempts input) := by
  cases input with
  | transport event =>
      cases event with
      | message text =>
          simp only [Input.isGestureOrRefusal] at allowed
          split at allowed
          · next kind message answer read =>
              simp only [Session.step, handle, onMessage, attemptsAfter, read]
              exact holds.onRejected kind message answer
          · simp at allowed
      | _ => simp [Input.isGestureOrRefusal] at allowed
  | gesture gesture fresh requests => exact holds.gesture gesture fresh requests
  | focus post =>
      rw [session_step_focus]
      exact holds
  | setColor color => exact ⟨holds.pending, holds.shown, holds.kept⟩
  | close => simp [Input.isGestureOrRefusal] at allowed

/-- A session stays exact over a run, by induction over the inputs. -/
theorem run {inputs : List Input} (holds : session.Exact base attempts)
    (allowed : ∀ input ∈ inputs, input.isGestureOrRefusal = true)
    : (session.run inputs).session.Exact base (session.attemptsDuring attempts inputs) := by
  induction inputs generalizing session attempts with
  | nil => exact holds
  | cons input rest ih =>
      obtain ⟨now, later⟩ := List.forall_mem_cons.mp allowed
      rw [run_cons]
      exact ih (holds.step now) later

end Exact

-----------------------------------------------------------------------------------------
-- All runs
-----------------------------------------------------------------------------------------

/-- When all gestures are refused, none of their changes stand. -/
theorem standing_of_all_refused {attempts : List Attempt}
    (refused : ∀ attempt ∈ attempts, attempt.refused = true)
    : Attempt.standing attempts = [] := by
  have nothing : attempts.filter (fun attempt => !attempt.refused) = [] :=
    List.filter_eq_nil_iff.mpr fun attempt member => by simp [refused attempt member]
  rw [Attempt.standing, nothing, List.flatMap_nil]

/-- After any gestures and refusals on a session with nothing in flight, the visible board is the
confirmed one with the changes of the gestures that were not refused. The confirmed board is the
one before, and so is the visible one if all gestures were refused.
-/
theorem refused_gestures_leave_no_trace {session : Session}
    (atRest : session.ledger.operations = []) (same : session.visible = session.confirmed)
    {inputs : List Input} (allowed : ∀ input ∈ inputs, input.isGestureOrRefusal = true)
    : (session.run inputs).session.visible
        = (Mutation.applyAll (Attempt.standing (session.attemptsDuring [] inputs))
            (session.run inputs).session.confirmed).store
      ∧ (session.run inputs).session.confirmed = session.confirmed
      ∧ ((∀ attempt ∈ session.attemptsDuring [] inputs, attempt.refused = true)
          → (session.run inputs).session.visible = session.visible) := by
  have before : session.Exact session.confirmed [] := ⟨atRest, same, rfl⟩
  have after := before.run allowed
  refine ⟨after.shown, after.kept, fun refused => ?_⟩
  rw [after.shown, standing_of_all_refused refused, Mutation.applyAll_nil, after.kept]
  exact same.symm

/-- The session of the owner on the board with two groups, live and with nothing in flight. -/
def joined : Session :=
  { start Sample.board Sample.pair (some "token") .lightPink none with
    link := ⟨.connected, some 1, true, false⟩
    user := some ⟨.ofNat 7, "Ada", none, false, false, none, none⟩ }

/-- That session with its board written out, so that runs of it can be evaluated. -/
theorem joined_eq
    : joined
      = { board := Sample.board
          visible := ⟨⟨[Sample.group 10 1 [Sample.post 11 10 1.0],
            Sample.group 20 2 [Sample.post 21 20 1.0]], by decide⟩, [], 2⟩
          confirmed := ⟨⟨[Sample.group 10 1 [Sample.post 11 10 1.0],
            Sample.group 20 2 [Sample.post 21 20 1.0]], by decide⟩, [], 2⟩
          apart := .nothing
          link := ⟨.connected, some 1, true, false⟩
          token := some "token"
          user := some ⟨.ofNat 7, "Ada", none, false, false, none, none⟩
          ledger := .empty
          color := .lightPink
          grid := none } := by
  rw [joined, start, Sample.ofGroups_pair]

/-- The first group is dropped on the post of the second one, and the post that moved is recolored.
The server refuses the merge by an id, and the color without one.
-/
def allRefused : List Input :=
  [.gesture (.drop (.group (.ofNat 10)) (.post (.ofNat 21) true)) Sample.fresh
      (Sample.requests 100),
    .gesture (.recolorPost (.ofNat 11) .lightAqua) Sample.fresh (Sample.requests 200),
    .transport (.message
      "[\"post_group.delete\",false,null,null,\"00000000-0000-0000-0000-000000000065\"]"),
    .transport (.message "[\"post.update\",false,null,null,null]")]

/-- Two gestures were made, and after both were refused the owner sees the board from before. -/
theorem refused_gestures_leave_no_trace_allRefused
    : (joined.attemptsDuring [] allRefused).length = 2
      ∧ (joined.run allRefused).session.visible = joined.visible := by
  have refused : (joined.attemptsDuring [] allRefused).map (·.refused) = [true, true] := by
    unfold joined start
    rw [Sample.ofGroups_pair]
    decide +kernel
  have allowed : ∀ input ∈ allRefused, input.isGestureOrRefusal = true := by decide +kernel
  have atRest : joined.ledger.operations = [] := rfl
  have same : joined.visible = joined.confirmed := rfl
  obtain ⟨_, _, restored⟩ := refused_gestures_leave_no_trace atRest same allowed
  refine ⟨by simpa using congrArg List.length refused, restored fun attempt member => ?_⟩
  have mark : attempt.refused ∈ (joined.attemptsDuring [] allRefused).map (·.refused) :=
    List.mem_map_of_mem member
  simpa [refused] using mark

end Session

end SharedBoard
