import SharedBoard.Proofs.Session.Pending
import SharedBoard.Proofs.Session.Rollback

/-! Refusals of gestures. A refusal that names a request of a gesture undoes the gesture as long
as one of its requests is unconfirmed. Successes without a request id confirm what they can, also
when they are about what other users did.
-/

namespace SharedBoard

variable {κ : Type}

-----------------------------------------------------------------------------------------
-- One operation among others
-----------------------------------------------------------------------------------------

namespace PendingOperation

/-- The operation with the requests of some ids confirmed. -/
def confirmedBy (settled : List RequestId) (operation : PendingOperation κ) : PendingOperation κ :=
  { operation with
    requests := operation.requests.map (fun request =>
      { request with confirmed := request.confirmed || settled.contains request.id }) }

/-- Whether an operation has a request with one of some ids. -/
def sharesId (ids : List RequestId) (operation : PendingOperation κ) : Bool :=
  operation.requests.any (ids.contains ·.id)

/-- The requests of an operation have distinct ids, and none is confirmed. -/
structure Unanswered (operation : PendingOperation κ) : Prop where
  distinct : operation.ids.Nodup
  unconfirmed : ∀ request ∈ operation.requests, request.confirmed = false

variable {operation own : PendingOperation κ} {ids settled : List RequestId}

theorem sharesId_iff : operation.sharesId ids = true ↔ ∃ id ∈ operation.ids, id ∈ ids := by
  simp [sharesId, PendingOperation.ids]

@[simp] theorem ids_confirmedBy : (own.confirmedBy settled).ids = own.ids := by
  simp [confirmedBy, PendingOperation.ids]

@[simp] theorem confirmedBy_nil (own : PendingOperation κ) : own.confirmedBy [] = own := by
  simp [confirmedBy]

/-- An unanswered operation is done when the ids of all its requests are settled. -/
theorem Unanswered.isDone_confirmedBy (unanswered : own.Unanswered)
    : (own.confirmedBy settled).isDone = own.ids.all (settled.contains ·) := by
  simp only [isDone, confirmedBy, PendingOperation.ids, List.all_map]
  rw [Bool.eq_iff_iff, List.all_eq_true, List.all_eq_true]
  refine forall₂_congr fun request member => ?_
  simp [unanswered.unconfirmed request member]

theorem contains_settle {id inOwn : RequestId} (other : id ∉ own.ids) (member : inOwn ∈ own.ids)
    : (settled ++ [id]).contains inOwn = settled.contains inOwn := by
  have differs : inOwn ≠ id := fun same => other (same ▸ member)
  simp [differs]

/-- The id of a request of another operation confirms nothing. -/
theorem confirmedBy_settle {id : RequestId} (other : id ∉ own.ids)
    : own.confirmedBy (settled ++ [id]) = own.confirmedBy settled := by
  simp only [confirmedBy, PendingOperation.mk.injEq, and_true]
  refine List.map_congr_left fun request member => ?_
  rw [contains_settle other (List.mem_map_of_mem member)]

theorem all_settle {id : RequestId} (other : id ∉ own.ids)
    : own.ids.all ((settled ++ [id]).contains ·) = own.ids.all (settled.contains ·) := by
  rw [Bool.eq_iff_iff, List.all_eq_true, List.all_eq_true]
  exact forall₂_congr fun inOwn member => by rw [contains_settle other member]

/-- Confirming the first request that a test picks settles its id, since no other request has it. -/
theorem Unanswered.confirmFirst?_confirmedBy (unanswered : own.Unanswered)
    {picks : PendingRequest → Bool} {confirmed : PendingOperation κ}
    (found : (own.confirmedBy settled).confirmFirst? picks = some confirmed)
    : ∃ request,
        (own.confirmedBy settled).requests.find? picks = some request
        ∧ confirmed = own.confirmedBy (settled ++ [request.id]) := by
  obtain ⟨index, place, rfl⟩ := Option.map_eq_some_iff.mp found
  obtain ⟨bound, picked, earlier⟩ := List.findIdx?_eq_some_iff_getElem.mp place
  refine ⟨(own.confirmedBy settled).requests[index],
    List.find?_eq_some_iff_getElem.mpr ⟨picked, index, bound, rfl, by simpa using earlier⟩, ?_⟩
  have inOwn : index < own.requests.length := by simpa [confirmedBy] using bound
  simp only [confirmedBy, PendingOperation.mk.injEq, and_true]
  refine List.ext_getElem (by simp) fun other otherBound _ => ?_
  have otherInOwn : other < own.requests.length := by simpa using otherBound
  simp only [List.getElem_modify, List.getElem_map]
  split
  · next same =>
      subst same
      simp
  · next differs =>
      -- Distinct ids are what keeps the confirmation from counting for another request.
      have apart : own.requests[other].id ≠ own.requests[index].id := by
        intro sameId
        have one := List.inj_on_of_nodup_map unanswered.distinct (List.getElem_mem otherInOwn)
          (List.getElem_mem inOwn) sameId
        exact differs ((unanswered.distinct.of_map _).getElem_inj_iff.mp one).symm
      simp [apart]

end PendingOperation

namespace Ledger

/-- The operations with one of the ids of an operation are that operation, with the settled ones
of its requests confirmed, as long as one is not settled, and afterwards there are none.
-/
def Tracks (ledger : Ledger κ) (own : PendingOperation κ) (settled : List RequestId) : Prop :=
  ledger.operations.filter (·.sharesId own.ids)
    = if own.ids.all (settled.contains ·) then [] else [own.confirmedBy settled]

/-- The request that a success without a request id confirms: the oldest one of its kind and
entity that is not confirmed.
-/
def oldest? (ledger : Ledger κ) (kind : EventKind) (entity : Option Uuid) : Option RequestId :=
  ((ledger.operations.flatMap (·.requests)).find?
    (PendingRequest.answeredBy kind entity none)).map (·.id)

variable {ledger : Ledger κ} {own : PendingOperation κ} {settled : List RequestId}

/-- An operation that was entered is tracked, if no other one has its ids. -/
theorem tracks_entered (occupied : own.ids ≠ [])
    (apart : ∀ operation ∈ ledger.operations, operation.sharesId own.ids = false)
    : (⟨ledger.operations ++ [own]⟩ : Ledger κ).Tracks own [] := by
  obtain ⟨id, member⟩ := List.exists_mem_of_ne_nil own.ids occupied
  have shares : own.sharesId own.ids = true :=
    PendingOperation.sharesId_iff.mpr ⟨id, member, member⟩
  have others : ledger.operations.filter (·.sharesId own.ids) = [] :=
    List.filter_eq_nil_iff.mpr fun operation inLedger => by simp [apart operation inLedger]
  have open_ : own.ids.all (List.contains [] ·) = false := by
    rw [List.all_eq_false]
    exact ⟨id, member, by simp⟩
  rw [Tracks, List.filter_append, others, open_, PendingOperation.confirmedBy_nil]
  simp [shares]

/-- The id of a request of another operation makes no difference when it is settled. -/
theorem tracks_settle_iff {id : RequestId} (other : id ∉ own.ids)
    : ledger.Tracks own (settled ++ [id]) ↔ ledger.Tracks own settled := by
  rw [Tracks, Tracks, PendingOperation.confirmedBy_settle other,
    PendingOperation.all_settle other]

/-- An operation in which a request is confirmed has one that the test picks. -/
theorem exists_find?_of_confirmFirst? {picks : PendingRequest → Bool}
    {operation confirmed : PendingOperation κ}
    (found : operation.confirmFirst? picks = some confirmed)
    : ∃ request ∈ operation.requests, operation.requests.find? picks = some request := by
  obtain ⟨index, place, _⟩ := Option.map_eq_some_iff.mp found
  obtain ⟨bound, picked, _⟩ := List.findIdx?_eq_some_iff_getElem.mp place
  obtain ⟨request, first⟩ := Option.isSome_iff_exists.mp
    (List.find?_isSome.mpr ⟨operation.requests[index], List.getElem_mem bound, picked⟩)
  exact ⟨request, List.mem_of_find?_eq_some first, first⟩

namespace Tracks

/-- An operation with one of the ids is the one that is tracked, and the only one. -/
theorem eq_of_shares (tracks : ledger.Tracks own settled) {before after : List (PendingOperation κ)}
    {operation : PendingOperation κ} (split : ledger.operations = before ++ operation :: after)
    (shares : operation.sharesId own.ids = true)
    : own.ids.all (settled.contains ·) = false
      ∧ operation = own.confirmedBy settled
      ∧ before.filter (·.sharesId own.ids) = []
      ∧ after.filter (·.sharesId own.ids) = [] := by
  rw [Tracks, split, List.filter_append, List.filter_cons_of_pos shares] at tracks
  split at tracks
  · simp at tracks
  · next unsettled =>
      rcases List.append_eq_cons_iff.mp tracks with ⟨none, same⟩ | ⟨rest, _, same⟩
      · obtain ⟨rfl, others⟩ := List.cons.inj same
        exact ⟨Bool.eq_false_iff.mpr unsettled, rfl, none, others⟩
      · simp at same

/-- Another operation may come, go or be confirmed. -/
theorem replace (tracks : ledger.Tracks own settled)
    {before after old new : List (PendingOperation κ)}
    (split : ledger.operations = before ++ old ++ after)
    (oldApart : ∀ operation ∈ old, operation.sharesId own.ids = false)
    (newApart : ∀ operation ∈ new, operation.sharesId own.ids = false)
    : (⟨before ++ new ++ after⟩ : Ledger κ).Tracks own settled := by
  have nothing {operations : List (PendingOperation κ)}
      (apart : ∀ operation ∈ operations, operation.sharesId own.ids = false)
      : operations.filter (·.sharesId own.ids) = [] :=
    List.filter_eq_nil_iff.mpr fun operation member => by simp [apart operation member]
  rw [Tracks, split, List.filter_append, List.filter_append, nothing oldApart] at tracks
  rw [Tracks, List.filter_append, List.filter_append, nothing newApart, tracks]

/-- An operation with other ids comes to the ledger. -/
theorem enter (tracks : ledger.Tracks own settled) {other : PendingOperation κ}
    (apart : other.sharesId own.ids = false)
    : (⟨ledger.operations ++ [other]⟩ : Ledger κ).Tracks own settled := by
  have split : ledger.operations = ledger.operations ++ [] ++ [] := by simp
  have entered := tracks.replace split (by simp) (List.forall_mem_singleton.mpr apart)
  simpa using entered

/-- A refusal that does not take the tracked operation leaves it tracked. -/
theorem refuse (tracks : ledger.Tracks own settled) {kind : EventKind} {answer : Option RequestId}
    {taken : PendingOperation κ} {rest : Ledger κ}
    (refused : ledger.reject? kind answer = some (taken, rest)) (other : taken.ids ≠ own.ids)
    : rest.Tracks own settled := by
  obtain ⟨⟨inner, others⟩, found, same⟩ := Option.map_eq_some_iff.mp refused
  obtain ⟨rfl, rfl⟩ := Prod.mk.inj same
  obtain ⟨before, after, split, rfl, _⟩ := exists_of_takeFirst? found
  have apart : inner.sharesId own.ids = false := by
    rw [Bool.eq_false_iff]
    intro shares
    obtain ⟨_, same, _⟩ := tracks.eq_of_shares split shares
    exact other (by rw [same, PendingOperation.ids_confirmedBy])
  have regrouped : ledger.operations = before ++ [inner] ++ after := by simp [split]
  have left := tracks.replace regrouped (List.forall_mem_singleton.mpr apart)
    (List.forall_mem_nil _)
  simpa using left

/-- A confirmation settles the oldest request that the test picks, be it one of the tracked
operation or of another one.
-/
theorem confirmIn? (tracks : ledger.Tracks own settled) (unanswered : own.Unanswered)
    {picks : PendingRequest → Bool} {rest : List (PendingOperation κ)}
    (found : Ledger.confirmIn? picks ledger.operations = some rest)
    : ∃ request,
        (ledger.operations.flatMap (·.requests)).find? picks = some request
        ∧ (⟨rest⟩ : Ledger κ).Tracks own (settled ++ [request.id]) := by
  obtain ⟨before, operation, after, confirmed, split, earlier, here, rfl⟩ :=
    exists_of_confirmIn? found
  -- No operation before the confirmed one has a request that the test picks, so the first such
  -- request of all is the first one there.
  have firstIn {request : PendingRequest}
      (inOperation : operation.requests.find? picks = some request)
      : (ledger.operations.flatMap (·.requests)).find? picks = some request := by
    have skipped : (before.flatMap (·.requests)).find? picks = none := by
      rw [List.find?_eq_none]
      intro request member
      obtain ⟨other, inBefore, inOther⟩ := List.mem_flatMap.mp member
      simp [earlier other inBefore request inOther]
    rw [split, List.flatMap_append, List.flatMap_cons, List.find?_append, skipped, Option.none_or,
      List.find?_append, inOperation, Option.some_or]
  cases shares : operation.sharesId own.ids with
  | true =>
      obtain ⟨_, rfl, noneBefore, noneAfter⟩ := tracks.eq_of_shares split shares
      obtain ⟨request, first, rfl⟩ := unanswered.confirmFirst?_confirmedBy here
      refine ⟨request, firstIn first, ?_⟩
      have stillShares
          : (own.confirmedBy (settled ++ [request.id])).sharesId own.ids = true := by
        rw [PendingOperation.sharesId_iff, PendingOperation.ids_confirmedBy]
        rwa [PendingOperation.sharesId_iff, PendingOperation.ids_confirmedBy] at shares
      rw [Tracks, unanswered.isDone_confirmedBy, List.filter_append, noneBefore, List.nil_append]
      split
      · exact noneAfter
      · rw [List.filter_cons_of_pos stillShares, noneAfter]
  | false =>
      have apart {other : PendingOperation κ} (sameIds : other.ids = operation.ids)
          : other.sharesId own.ids = false := by
        rw [Bool.eq_false_iff, Ne, PendingOperation.sharesId_iff, sameIds,
          ← PendingOperation.sharesId_iff, shares]
        exact Bool.false_ne_true
      obtain ⟨request, inRequests, first⟩ := exists_find?_of_confirmFirst? here
      have otherId : request.id ∉ own.ids := fun inOwn => by
        have both : operation.sharesId own.ids = true :=
          PendingOperation.sharesId_iff.mpr
            ⟨request.id, List.mem_map_of_mem inRequests, inOwn⟩
        simp [shares] at both
      have regrouped : ledger.operations = before ++ [operation] ++ after := by simp [split]
      refine ⟨request, firstIn first, (tracks_settle_iff otherId).mpr ?_⟩
      split
      · have left := tracks.replace regrouped (List.forall_mem_singleton.mpr (apart rfl))
          (List.forall_mem_nil _)
        simpa using left
      · have left := tracks.replace regrouped (List.forall_mem_singleton.mpr (apart rfl))
          (List.forall_mem_singleton.mpr (apart (ids_of_confirmFirst? here)))
        simpa using left

/-- A success that names another request leaves the operation tracked. -/
theorem confirm_named (tracks : ledger.Tracks own settled) (unanswered : own.Unanswered)
    {id : RequestId} (other : id ∉ own.ids) (kind : EventKind) (entity : Option Uuid)
    : (ledger.confirm kind entity (some id)).1.Tracks own settled := by
  unfold confirm
  split
  · next rest found =>
      obtain ⟨request, first, after⟩ := tracks.confirmIn? unanswered found
      have sameId : request.id = id := by
        simpa [PendingRequest.answeredBy] using List.find?_some first
      exact (tracks_settle_iff other).mp (sameId ▸ after)
  · exact tracks

/-- A success that names no request settles the oldest one of its kind and entity, if there is
one.
-/
theorem confirm_unnamed (tracks : ledger.Tracks own settled) (unanswered : own.Unanswered)
    (kind : EventKind) (entity : Option Uuid)
    : (ledger.confirm kind entity none).1.Tracks own
        (settled ++ (ledger.oldest? kind entity).toList) := by
  unfold confirm
  split
  · next rest found =>
      obtain ⟨request, first, after⟩ := tracks.confirmIn? unanswered found
      rw [oldest?, first]
      exact after
  · next nothing =>
      have none : (ledger.operations.flatMap (·.requests)).find?
          (PendingRequest.answeredBy kind entity .none) = .none := by
        rw [List.find?_eq_none]
        intro request member
        obtain ⟨operation, inLedger, inOperation⟩ := List.mem_flatMap.mp member
        simp [confirmIn?_eq_none_iff.mp nothing operation inLedger request inOperation]
      rw [oldest?, none]
      simpa using tracks

end Tracks

end Ledger

-----------------------------------------------------------------------------------------
-- One gesture in a run
-----------------------------------------------------------------------------------------

namespace Session

/-- The request id that a frame names. -/
def Input.answer? : Input → Option RequestId
  | .transport (.message text) =>
      match Inbound.ofText text with
      | .ok (.applied _ answer) => answer
      | .ok (.rejected _ _ answer) => answer
      | .error _ => none
  | _ => none

/-- Whether a channel begins or ends. -/
def Input.changesChannel : Input → Bool
  | .transport (.opened _) => true
  | .transport (.closed _) => true
  | _ => false

/-- The request that a frame settles without naming it. -/
def takenBy? (session : Session) : Input → Option RequestId
  | .transport (.message text) =>
      match Inbound.ofText text with
      | .ok (.applied (.authenticated _) _) => none
      | .ok (.applied event none) => session.ledger.oldest? event.kind event.entity?
      | _ => none
  | _ => none

/-- The requests that the frames of a run settle without naming them. -/
def takenDuring (session : Session) : List Input → List RequestId
  | [] => []
  | input :: rest =>
      (session.takenBy? input).toList ++ (session.step input).session.takenDuring rest

/-- The operation that a frame undoes. -/
def undoneBy? (session : Session) : Input → Option (PendingOperation Float)
  | .transport (.message text) =>
      match Inbound.ofText text with
      | .ok (.rejected kind _ answer) =>
          if kind = .userAuthenticate then none
          else (session.ledger.reject? kind answer).map (·.1)
      | _ => none
  | _ => none

/-- The operations that the frames of a run undo. -/
def undoneDuring (session : Session) : List Input → List (PendingOperation Float)
  | [] => []
  | input :: rest =>
      (session.undoneBy? input).toList ++ (session.step input).session.undoneDuring rest

/-- A reaction undoes an operation: it leaves the ledger, the visible board is the confirmed one
with the mutations of all others applied again, and the user is told of it.
-/
def Undoes (session : Session) (own : PendingOperation Float) (kind : EventKind)
    (message : String) (reaction : Reaction) : Prop :=
  ∃ before operation after,
    session.ledger.operations = before ++ operation :: after
    ∧ operation.ids = own.ids
    ∧ operation.mutations = own.mutations
    ∧ reaction.session.ledger.operations = before ++ after
    ∧ reaction.session.confirmed = session.confirmed
    ∧ reaction.session.visible
      = (Mutation.applyAll ((before ++ after).flatMap (·.mutations)) session.confirmed).store
    ∧ reaction.notices = [.rolledBack kind, .rejected kind message]

variable {session : Session} {own : PendingOperation Float} {settled : List RequestId}

/-- A tracked operation stays so with any input that does not undo it or name one of its requests,
by cases on the input.
-/
theorem tracks_step (tracks : session.ledger.Tracks own settled) (unanswered : own.Unanswered)
    {input : Input} (sameChannel : input.changesChannel = false)
    (unnamed : ∀ id, input.answer? = some id → id ∉ own.ids)
    (stands : ∀ operation, session.undoneBy? input = some operation → operation.ids ≠ own.ids)
    (apart : ∀ id ∈ (session.step input).requests, id ∉ own.ids)
    : (session.step input).session.ledger.Tracks own
        (settled ++ (session.takenBy? input).toList) := by
  rw [ledger_step]
  cases input with
  | transport event =>
      cases event with
      | message text =>
          simp only [Input.answer?] at unnamed
          simp only [undoneBy?] at stands
          simp only [ledgerAfter, takenBy?]
          cases read : Inbound.ofText text with
          | error _ => simpa using tracks
          | ok inbound =>
              rw [read] at unnamed stands
              cases inbound with
              | applied event answer =>
                  cases event with
                  | authenticated user => simpa using tracks
                  | _ =>
                      cases answer with
                      | none => exact tracks.confirm_unnamed unanswered _ _
                      | some id => simpa using tracks.confirm_named unanswered (unnamed id rfl) _ _
              | rejected kind message answer =>
                  simp only [Option.toList_none, List.append_nil]
                  by_cases token : kind = .userAuthenticate
                  · simpa [token] using tracks
                  · simp only [token, if_false] at stands ⊢
                    cases refused : session.ledger.reject? kind answer with
                    | none => exact tracks
                    | some result =>
                        exact tracks.refuse refused (stands result.1 (by rw [refused]; rfl))
      | connecting => simpa [ledgerAfter, takenBy?] using tracks
      | opened generation => simp [Input.changesChannel] at sameChannel
      | closed reason => simp [Input.changesChannel] at sameChannel
  | gesture gesture fresh requests =>
      simp only [ledgerAfter, takenBy?, Option.toList_none, List.append_nil]
      cases planned : session.planFor? (.gesture gesture fresh requests) with
      | none => exact tracks
      | some plan =>
          refine tracks.enter ?_
          rw [requests_step planned] at apart
          rw [Bool.eq_false_iff, Ne, PendingOperation.sharesId_iff, Plan.ids_operation]
          rintro ⟨id, member, inOwn⟩
          exact apart id member inOwn
  | focus post => simpa [ledgerAfter, takenBy?] using tracks
  | setColor color => simpa [ledgerAfter, takenBy?] using tracks
  | close => simpa [ledgerAfter, takenBy?] using tracks

/-- A tracked operation stays so over a run that does not undo it or name one of its requests, by
induction over the inputs.
-/
theorem tracks_run {inputs : List Input} (tracks : session.ledger.Tracks own settled)
    (unanswered : own.Unanswered) (sameChannel : ∀ input ∈ inputs, input.changesChannel = false)
    (unnamed : ∀ input ∈ inputs, ∀ id, input.answer? = some id → id ∉ own.ids)
    (stands : ∀ operation ∈ session.undoneDuring inputs, operation.ids ≠ own.ids)
    (apart : ∀ id ∈ (session.run inputs).requests, id ∉ own.ids)
    : (session.run inputs).session.ledger.Tracks own (settled ++ session.takenDuring inputs) := by
  induction inputs generalizing session settled with
  | nil => simpa [takenDuring] using tracks
  | cons input rest ih =>
      obtain ⟨sameNow, sameLater⟩ := List.forall_mem_cons.mp sameChannel
      obtain ⟨unnamedNow, unnamedLater⟩ := List.forall_mem_cons.mp unnamed
      rw [run_eq_andThen, Reaction.requests_andThen, List.forall_mem_append] at apart
      rw [undoneDuring, List.forall_mem_append] at stands
      have standsNow (operation : PendingOperation Float)
          (undone : session.undoneBy? input = some operation) : operation.ids ≠ own.ids :=
        stands.1 operation (by simp [undone])
      have next := tracks_step tracks unanswered sameNow unnamedNow standsNow apart.1
      rw [run_cons, takenDuring, ← List.append_assoc]
      exact ih next sameLater unnamedLater stands.2 apart.2

/-- A refusal that names a request of a tracked operation undoes it, if one of its requests is not
settled; a refused token undoes nothing.
-/
theorem undoes_onRejected_iff (tracks : session.ledger.Tracks own settled) {id : RequestId}
    (inOwn : id ∈ own.ids) (kind : EventKind) (message : String)
    : session.Undoes own kind message (session.onRejected kind message (some id))
      ↔ kind ≠ .userAuthenticate ∧ ∃ id ∈ own.ids, id ∉ settled := by
  have unsettled_iff
      : own.ids.all (settled.contains ·) = false ↔ ∃ id ∈ own.ids, id ∉ settled := by
    simp
  by_cases token : kind = .userAuthenticate
  · refine iff_of_false ?_ fun both => both.1 token
    rintro ⟨_, _, _, _, _, _, _, _, _, notices⟩
    simp [onRejected, token, Reaction.andThen] at notices
  · rw [← unsettled_iff, onRejected, if_neg token, rollBack]
    cases refused : session.ledger.reject? kind (some id) with
    | none =>
        refine iff_of_false ?_ ?_
        · rintro ⟨_, _, _, _, _, _, _, _, _, notices⟩
          simp [Reaction.quiet, Reaction.andThen] at notices
        · rintro ⟨_, unsettled⟩
          have kept : own.confirmedBy settled ∈ session.ledger.operations := by
            have tracked : own.confirmedBy settled
                ∈ session.ledger.operations.filter (·.sharesId own.ids) := by
              rw [tracks, unsettled]
              exact List.mem_singleton_self _
            exact (List.mem_filter.mp tracked).1
          have unpicked := Ledger.takeFirst?_eq_none_iff.mp (Option.map_eq_none_iff.mp refused)
          have inKept : id ∈ (own.confirmedBy settled).ids := by
            rwa [PendingOperation.ids_confirmedBy]
          obtain ⟨request, inRequests, sameId⟩ := List.mem_map.mp inKept
          have picked := unpicked _ kept request inRequests
          simp [PendingRequest.refusedBy, sameId] at picked
    | some result =>
        obtain ⟨⟨taken, others⟩, found, rfl⟩ := Option.map_eq_some_iff.mp refused
        obtain ⟨before, after, split, rfl, _, request, inRequests, picked⟩ :=
          Ledger.exists_of_takeFirst? found
        have sameId : request.id = id := by simpa [PendingRequest.refusedBy] using picked
        have shares : taken.sharesId own.ids = true := PendingOperation.sharesId_iff.mpr
          ⟨id, sameId ▸ List.mem_map_of_mem inRequests, inOwn⟩
        obtain ⟨unsettled, same, _⟩ := tracks.eq_of_shares split shares
        refine iff_of_true ⟨before, taken, after, split, ?_, ?_, rfl, rfl, rfl, rfl⟩
          ⟨token, unsettled⟩
        · rw [same, PendingOperation.ids_confirmedBy]
        · rw [same]
          rfl

/-- What goes out in a run, up to a gesture that is carried out, for it, and after it. -/
theorem requests_run_split {early between : List Input} {gesture : Gesture} {fresh : Fresh}
    {requests : Nat → RequestId} {plan : Plan Float}
    (planned
      : (session.run early).session.planFor? (.gesture gesture fresh requests) = some plan)
    : (session.run (early ++ .gesture gesture fresh requests :: between)).requests
      = (session.run early).requests
        ++ (plan.requestIds requests
          ++ ((session.run (early ++ [.gesture gesture fresh requests])).session.run
            between).requests) := by
  rw [run_append, Reaction.requests_andThen, run_eq_andThen, Reaction.requests_andThen,
    requests_step planned, run_concat]

/-- A gesture that is carried out is tracked from then on, if the ids that go out are distinct. -/
theorem tracks_gesture (atRest : session.ledger.operations = []) {early : List Input}
    {gesture : Gesture} {fresh : Fresh} {requests : Nat → RequestId} {plan : Plan Float}
    (planned
      : (session.run early).session.planFor? (.gesture gesture fresh requests) = some plan)
    (occupied : plan.requestIds requests ≠ [])
    (apart : List.Disjoint (session.run early).requests (plan.requestIds requests))
    : (session.run (early ++ [.gesture gesture fresh requests])).session.ledger.Tracks
        (plan.operation requests) [] := by
  have entered : (session.run (early ++ [.gesture gesture fresh requests])).session.ledger
      = ⟨(session.run early).session.ledger.operations ++ [plan.operation requests]⟩ := by
    rw [run_concat, ledger_step]
    simp only [ledgerAfter, planned]
  rw [entered]
  refine Ledger.tracks_entered (by rwa [Plan.ids_operation]) fun operation member => ?_
  obtain ⟨act, sameIds, _⟩ := exists_carriedOut atRest member
  rw [Bool.eq_false_iff, Ne, PendingOperation.sharesId_iff, sameIds, Plan.ids_operation]
  rintro ⟨id, inOther, inOwn⟩
  exact apart (act.requests_sublist.subset inOther) inOwn

/-- A refusal that names a request of a gesture undoes that gesture, and nothing else, unless it
was undone before or the channel is another one. It does not if it is that of a token, or if
every request of the gesture was settled meanwhile by successes that name no request.
-/
theorem refused_gesture_undone_iff {session : Session} (atRest : session.ledger.operations = [])
    {early between : List Input} {gesture : Gesture} {fresh : Fresh} {requests : Nat → RequestId}
    {plan : Plan Float}
    (planned
      : (session.run early).session.planFor? (.gesture gesture fresh requests) = some plan)
    (distinct
      : (session.run (early ++ .gesture gesture fresh requests :: between)).requests.Nodup)
    (sameChannel : ∀ input ∈ between, input.changesChannel = false)
    (unnamed
      : ∀ input ∈ between, ∀ id, input.answer? = some id → id ∉ plan.requestIds requests)
    (stands
      : ∀ operation ∈ (session.run (early ++ [.gesture gesture fresh requests])).session.undoneDuring
            between,
          operation.ids ≠ plan.requestIds requests)
    {text : String} {kind : EventKind} {message : String} {id : RequestId}
    (read : Inbound.ofText text = .ok (.rejected kind message (some id)))
    (own : id ∈ plan.requestIds requests)
    : let before := (session.run (early ++ .gesture gesture fresh requests :: between)).session
      before.Undoes (plan.operation requests) kind message
          (before.step (.transport (.message text)))
        ↔ kind ≠ .userAuthenticate
          ∧ ∃ id ∈ plan.requestIds requests,
              id ∉ (session.run (early ++ [.gesture gesture fresh requests])).session.takenDuring
                between := by
  intro before
  rw [requests_run_split planned] at distinct
  obtain ⟨_, ownAndLater, earlyApart⟩ := List.nodup_append'.mp distinct
  obtain ⟨ownDistinct, _, ownApart⟩ := List.nodup_append'.mp ownAndLater
  have unanswered : (plan.operation requests).Unanswered :=
    ⟨plan.ids_operation requests ▸ ownDistinct, fun _ => Plan.unconfirmed_operation⟩
  have tracks := tracks_gesture atRest planned (List.ne_nil_of_mem own)
    fun other inEarly inOwn => earlyApart inEarly (List.mem_append_left _ inOwn)
  have after : before
      = ((session.run (early ++ [.gesture gesture fresh requests])).session.run
        between).session := by
    simp only [before]
    rw [run_append, run_concat]
    exact run_cons ..
  have later := tracks_run tracks unanswered sameChannel (by simpa using unnamed)
    (by simpa using stands) fun other inLater inOwn =>
      ownApart (plan.ids_operation requests ▸ inOwn) inLater
  rw [← after, List.nil_append] at later
  have step
      : before.step (.transport (.message text)) = before.onRejected kind message (some id) := by
    simp only [Session.step, handle, onMessage, read]
  rw [step, ← Plan.ids_operation]
  exact undoes_onRejected_iff later (plan.ids_operation requests ▸ own) kind message

/-- The first group is dropped on the post of the second one. -/
def mergeOntoSecond : Input :=
  .gesture (.drop (.group (.ofNat 10)) (.post (.ofNat 21) true)) Sample.fresh (Sample.requests 100)

/-- Somebody else gives the post that is being moved a text. -/
def editedByOther : Input :=
  .transport (.message
    ("[\"post.update\",true,[[\"00000000-0000-0000-0000-00000000000b\","
      ++ "\"00000000-0000-0000-0000-000000000001\","
      ++ "\"00000000-0000-0000-0000-000000000007\",\"hello\",\"#F5E6E8\",100,"
      ++ "\"00000000-0000-0000-0000-00000000000a\",1,"
      ++ "\"1970-01-01T00:00:00Z\",\"1970-01-01T00:00:00Z\"],null]]"))

/-- The server refuses the second of the three requests for the merge. -/
def mergeRefusal : String :=
  "[\"post_group.delete\",false,null,\"refused\",\"00000000-0000-0000-0000-000000000065\"]"

/-- A merge is undone although an edit by somebody else settled the first of its three requests. -/
theorem refused_gesture_undone_iff_editedByOther
    : ∃ plan,
        joined.planFor? mergeOntoSecond = some plan
        ∧ plan.requestIds (Sample.requests 100) = [.ofNat 100, .ofNat 101, .ofNat 102]
        ∧ (joined.run [mergeOntoSecond]).session.takenDuring [editedByOther] = [.ofNat 100]
        ∧ (joined.run [mergeOntoSecond, editedByOther]).session.Undoes
            (plan.operation (Sample.requests 100)) .groupDelete "refused"
            ((joined.run [mergeOntoSecond, editedByOther]).session.step
              (.transport (.message mergeRefusal))) := by
  have ids : (joined.planFor? mergeOntoSecond).map (·.requestIds (Sample.requests 100))
      = some [.ofNat 100, .ofNat 101, .ofNat 102] := by
    rw [joined_eq]
    decide +kernel
  obtain ⟨plan, planned, planIds⟩ := Option.map_eq_some_iff.mp ids
  have distinct : (joined.run ([] ++ mergeOntoSecond :: [editedByOther])).requests.Nodup := by
    rw [joined_eq]
    decide +kernel
  have undone : ((joined.run ([] ++ [mergeOntoSecond])).session.undoneDuring
      [editedByOther]).isEmpty = true := by
    rw [joined_eq]
    decide +kernel
  have stands
      : ∀ operation ∈ (joined.run ([] ++ [mergeOntoSecond])).session.undoneDuring [editedByOther],
          operation.ids ≠ plan.requestIds (Sample.requests 100) := by
    rw [List.isEmpty_iff.mp undone]
    exact List.forall_mem_nil _
  have taken : (joined.run ([] ++ [mergeOntoSecond])).session.takenDuring [editedByOther]
      = [.ofNat 100] := by
    rw [joined_eq]
    decide +kernel
  have unsettled : .ofNat 101
      ∉ (joined.run ([] ++ [mergeOntoSecond])).session.takenDuring [editedByOther] := by
    rw [taken]
    decide
  have unnamed : editedByOther.answer? = none := by decide +kernel
  have read : Inbound.ofText mergeRefusal
      = .ok (.rejected .groupDelete "refused" (some (.ofNat 101))) := by decide +kernel
  have own : .ofNat 101 ∈ plan.requestIds (Sample.requests 100) := by simp [planIds]
  have plannedFirst : (joined.run []).session.planFor? mergeOntoSecond = some plan := planned
  have undoes := (refused_gesture_undone_iff rfl plannedFirst distinct (by decide)
    (by simp [unnamed]) stands read own).mpr ⟨by decide, .ofNat 101, own, unsettled⟩
  exact ⟨plan, planned, planIds, taken, undoes⟩

/-- The first group gets a title. -/
def retitleFirst : Input :=
  .gesture (.retitleGroup (.ofNat 10) "later") Sample.fresh (Sample.requests 100)

/-- Somebody else moves the group that was given a title. -/
def movedByOther : Input :=
  .transport (.message
    ("[\"post_group.update\",true,"
      ++ "[\"00000000-0000-0000-0000-00000000000a\",null,70,80,null,null]]"))

/-- The server refuses the title. -/
def retitleRefusal : String :=
  "[\"post_group.update\",false,null,\"refused\",\"00000000-0000-0000-0000-000000000064\"]"

/-- A title that is refused by the id of its only request stays, although no frame named that id
before and nothing was undone: somebody else's move of the same group settled the request.
-/
theorem refused_title_stays_movedByOther
    : ∃ plan,
        joined.planFor? retitleFirst = some plan
        ∧ plan.requestIds (Sample.requests 100) = [.ofNat 100]
        ∧ movedByOther.changesChannel = false
        ∧ movedByOther.answer? = none
        ∧ (joined.run [retitleFirst]).session.undoneDuring [movedByOther] = []
        ∧ Inbound.ofText retitleRefusal
          = .ok (.rejected .groupUpdate "refused" (some (.ofNat 100)))
        ∧ ¬ (joined.run [retitleFirst, movedByOther]).session.Undoes
            (plan.operation (Sample.requests 100)) .groupUpdate "refused"
            ((joined.run [retitleFirst, movedByOther]).session.step
              (.transport (.message retitleRefusal)))
        ∧ (((joined.run [retitleFirst, movedByOther]).session.step
            (.transport (.message retitleRefusal))).session.visible.group? (.ofNat 10)).map (·.title)
          = some "later" := by
  have ids : (joined.planFor? retitleFirst).map (·.requestIds (Sample.requests 100))
      = some [.ofNat 100] := by
    rw [joined_eq]
    decide +kernel
  obtain ⟨plan, planned, planIds⟩ := Option.map_eq_some_iff.mp ids
  have undone
      : ((joined.run [retitleFirst]).session.undoneDuring [movedByOther]).isEmpty = true := by
    rw [joined_eq]
    decide +kernel
  have untold : ((joined.run [retitleFirst, movedByOther]).session.step
      (.transport (.message retitleRefusal))).notices.length = 1 := by
    rw [joined_eq]
    decide +kernel
  refine ⟨plan, planned, planIds, rfl, by decide +kernel, List.isEmpty_iff.mp undone,
    by decide +kernel, ?_, ?_⟩
  · rintro ⟨_, _, _, _, _, _, _, _, _, notices⟩
    simp [notices] at untold
  · rw [joined_eq]
    decide +kernel

end Session

end SharedBoard
