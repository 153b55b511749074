import SharedBoard.Plan

/-! The ledger of operations that wait for the server. An operation holds the requests that were
sent for it and the mutations that were made for it; it is kept until all its requests are
confirmed, or taken out when one of them is refused.
-/

namespace SharedBoard

variable {κ : Type}

/-- A request that was sent. -/
structure PendingRequest where
  id : RequestId
  kind : EventKind
  entity : Option Uuid
  confirmed : Bool
deriving DecidableEq, Inhabited

/-- An operation in flight. -/
structure PendingOperation (κ : Type) where
  requests : List PendingRequest
  mutations : List (Mutation κ)
deriving Inhabited

/-- The operations in flight, oldest first. -/
structure Ledger (κ : Type) where
  operations : List (PendingOperation κ)
deriving Inhabited

namespace PendingRequest

/-- The request of a message, if it has an id to be answered by. -/
def ofMessage? (message : Message κ) : Option PendingRequest :=
  message.request.map (⟨·, message.command.kind, message.command.entity?, false⟩)

/-- Whether a successful answer is meant for a request. An answer that repeats a request id is
meant for that request alone; any other for an unconfirmed request of its kind and entity.
-/
def answeredBy (kind : EventKind) (entity : Option Uuid) (answer : Option RequestId)
    (request : PendingRequest) : Bool :=
  match answer with
  | some id => request.id == id
  | none => !request.confirmed && request.kind == kind && request.entity == entity

/-- Whether a refusal is meant for a request; refusals name no entity. -/
def refusedBy (kind : EventKind) (answer : Option RequestId) (request : PendingRequest) : Bool :=
  match answer with
  | some id => request.id == id
  | none => !request.confirmed && request.kind == kind

end PendingRequest

namespace PendingOperation

/-- The kinds of the requests of an operation. -/
def kinds (operation : PendingOperation κ) : List EventKind :=
  operation.requests.map (·.kind)

/-- Every request of an operation is confirmed. -/
def isDone (operation : PendingOperation κ) : Bool :=
  operation.requests.all (·.confirmed)

/-- The operation with the first request that a test picks confirmed, if there is one. -/
def confirmFirst? (picks : PendingRequest → Bool) (operation : PendingOperation κ)
    : Option (PendingOperation κ) :=
  (operation.requests.findIdx? picks).map fun index =>
    { operation with
      requests := operation.requests.modify index
        (fun request => { request with confirmed := true }) }

end PendingOperation

namespace Ledger

def empty : Ledger κ :=
  ⟨[]⟩

/-- The number of operations in flight. -/
def size (ledger : Ledger κ) : Nat :=
  ledger.operations.length

/-- Enter an operation. Without a request that can be answered there is nothing to wait for. -/
def record (ledger : Ledger κ) (messages : List (Message κ)) (mutations : List (Mutation κ))
    : Ledger κ :=
  let requests := messages.filterMap PendingRequest.ofMessage?
  if requests.isEmpty then ledger else ⟨ledger.operations ++ [⟨requests, mutations⟩]⟩

/-- The operations with the first request that a test picks confirmed, if there is one. The
operation is taken out if that was its last unconfirmed request.
-/
def confirmIn? (picks : PendingRequest → Bool)
    : List (PendingOperation κ) → Option (List (PendingOperation κ))
  | [] => none
  | operation :: rest =>
      match operation.confirmFirst? picks with
      | some confirmed => some (if confirmed.isDone then rest else confirmed :: rest)
      | none => (confirmIn? picks rest).map (operation :: ·)

/-- Confirm the request that a successful answer is meant for, and say whether there was one. -/
def confirm (ledger : Ledger κ) (kind : EventKind) (entity : Option Uuid)
    (answer : Option RequestId) : Ledger κ × Bool :=
  match confirmIn? (PendingRequest.answeredBy kind entity answer) ledger.operations with
  | some operations => (⟨operations⟩, true)
  | none => (ledger, false)

/-- The first operation with a request that a test picks, and the others. -/
def takeFirst? (picks : PendingRequest → Bool)
    : List (PendingOperation κ) → Option (PendingOperation κ × List (PendingOperation κ))
  | [] => none
  | operation :: rest =>
      if operation.requests.any picks then some (operation, rest)
      else (takeFirst? picks rest).map (fun (taken, others) => (taken, operation :: others))

/-- Take out the operation that a refusal is meant for. -/
def reject? (ledger : Ledger κ) (kind : EventKind) (answer : Option RequestId)
    : Option (PendingOperation κ × Ledger κ) :=
  (takeFirst? (PendingRequest.refusedBy kind answer) ledger.operations).map
    (fun (taken, others) => (taken, ⟨others⟩))

/-- The mutations of all operations, oldest first. -/
def mutations (ledger : Ledger κ) : List (Mutation κ) :=
  ledger.operations.flatMap (·.mutations)

/-- The board that the server confirmed with everything in flight applied on top. -/
def replay [OrderKey κ] (ledger : Ledger κ) (confirmed : Store κ) : Update κ :=
  Mutation.applyAll ledger.mutations confirmed

end Ledger

end SharedBoard
