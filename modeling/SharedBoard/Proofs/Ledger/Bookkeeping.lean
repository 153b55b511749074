import SharedBoard.Proofs.Session.Pending

/-! The books of a ledger. Whatever is recorded, confirmed, refused and cleared, the operations that
are left are some of those that were recorded, in that order, and each of them waits for an answer.
An answer goes to the first request that it is meant for and changes nothing else.
-/

namespace SharedBoard

variable {κ : Type}

namespace PendingRequest

/-- A successful answer is meant for the requests with the id that it repeats. One that repeats none
is meant for the unconfirmed requests of its kind and entity.
-/
def IsAnsweredBy (kind : EventKind) (entity : Option Uuid) (answer : Option RequestId)
    (request : PendingRequest) : Prop :=
  answer = some request.id
  ∨ answer = none ∧ request.confirmed = false ∧ request.kind = kind ∧ request.entity = entity

/-- A refusal is meant for the requests with the id that it repeats. One that repeats none is meant
for the unconfirmed requests of its kind.
-/
def IsRefusedBy (kind : EventKind) (answer : Option RequestId) (request : PendingRequest) : Prop :=
  answer = some request.id
  ∨ answer = none ∧ request.confirmed = false ∧ request.kind = kind

variable {kind : EventKind} {entity : Option Uuid} {answer : Option RequestId}
    {request : PendingRequest}

theorem answeredBy_iff
    : answeredBy kind entity answer request = true ↔ request.IsAnsweredBy kind entity answer := by
  cases answer with
  | some id => simpa [answeredBy, IsAnsweredBy] using eq_comm
  | none => simp [answeredBy, IsAnsweredBy, and_assoc]

theorem refusedBy_iff
    : refusedBy kind answer request = true ↔ request.IsRefusedBy kind answer := by
  cases answer with
  | some id => simpa [refusedBy, IsRefusedBy] using eq_comm
  | none => simp [refusedBy, IsRefusedBy]

end PendingRequest

namespace PendingOperation

/-- The operation as it was recorded, with no request confirmed. -/
def asRecorded (operation : PendingOperation κ) : PendingOperation κ :=
  { operation with
    requests := operation.requests.map (fun request => { request with confirmed := false }) }

/-- A request of the operation is not confirmed. -/
def IsOpen (operation : PendingOperation κ) : Prop :=
  ∃ request ∈ operation.requests, request.confirmed = false

variable {operation : PendingOperation κ}

@[simp] theorem ids_asRecorded : operation.asRecorded.ids = operation.ids := by
  simp [ids, asRecorded]

theorem asRecorded_of_unconfirmed
    (unconfirmed : ∀ request ∈ operation.requests, request.confirmed = false)
    : operation.asRecorded = operation := by
  obtain ⟨requests, mutations⟩ := operation
  simp only [asRecorded, mk.injEq, and_true]
  refine (List.map_congr_left fun request member => ?_).trans (List.map_id' requests)
  rw [← unconfirmed request member]

/-- Confirming the first request that a test picks leaves all others as they are. -/
theorem exists_of_confirmFirst? {picks : PendingRequest → Bool} {confirmed : PendingOperation κ}
    (found : operation.confirmFirst? picks = some confirmed)
    : ∃ earlier request later,
        operation.requests = earlier ++ request :: later
        ∧ picks request = true
        ∧ (∀ other ∈ earlier, picks other = false)
        ∧ confirmed
          = { operation with
              requests := earlier ++ { request with confirmed := true } :: later } := by
  obtain ⟨index, place, rfl⟩ := Option.map_eq_some_iff.mp found
  obtain ⟨bound, picked, passed⟩ := List.findIdx?_eq_some_iff_getElem.mp place
  refine ⟨operation.requests.take index, operation.requests[index],
    operation.requests.drop (index + 1), ?_, picked, ?_, ?_⟩
  · rw [List.getElem_cons_drop, List.take_append_drop]
  · intro other member
    obtain ⟨place, inTake, rfl⟩ := List.mem_take_iff_getElem.mp member
    simpa using passed place (by omega)
  · rw [List.modify_eq_take_cons_drop bound]

end PendingOperation

namespace Ledger

-----------------------------------------------------------------------------------------
-- The request that an answer is meant for
-----------------------------------------------------------------------------------------

/-- The first request that a test picks, from the oldest operation on, and what is around it. -/
structure FirstPicked (picks : PendingRequest → Prop) (operations : List (PendingOperation κ)) where
  before : List (PendingOperation κ)
  operation : PendingOperation κ
  after : List (PendingOperation κ)
  earlier : List PendingRequest
  request : PendingRequest
  later : List PendingRequest
  operations_eq : operations = before ++ operation :: after
  requests_eq : operation.requests = earlier ++ request :: later
  picked : picks request
  unpicked : ∀ other ∈ before.flatMap (·.requests) ++ earlier, ¬ picks other

namespace FirstPicked

variable {picks : PendingRequest → Prop} {operations : List (PendingOperation κ)}

/-- The operation of the request with the request confirmed. -/
def confirmed (first : FirstPicked picks operations) : PendingOperation κ :=
  { first.operation with
    requests := first.earlier ++ { first.request with confirmed := true } :: first.later }

/-- The request is the last one of its operation that was not confirmed. -/
def IsLast (first : FirstPicked picks operations) : Prop :=
  first.request.confirmed = false
  ∧ ∀ other ∈ first.earlier ++ first.later, other.confirmed = true

instance (first : FirstPicked picks operations) : Decidable first.IsLast :=
  inferInstanceAs (Decidable (_ ∧ _))

/-- The operations after the request is confirmed: the operation is taken out if it was the last one
of it, and otherwise has it confirmed. All other operations stay as they are.
-/
def confirmation (first : FirstPicked picks operations) : List (PendingOperation κ) :=
  if first.IsLast then first.before ++ first.after
  else first.before ++ first.confirmed :: first.after

variable (first : FirstPicked picks operations)

theorem mem_operations_iff {operation : PendingOperation κ}
    : operation ∈ operations
      ↔ operation ∈ first.before ∨ operation = first.operation ∨ operation ∈ first.after := by
  rw [congrArg (operation ∈ ·) first.operations_eq, List.mem_append, List.mem_cons]

theorem mem_operations : first.operation ∈ operations :=
  first.mem_operations_iff.mpr (.inr (.inl rfl))

theorem others_sublist : (first.before ++ first.after).Sublist operations := by
  rw [congrArg (List.Sublist _) first.operations_eq]
  exact (List.sublist_cons_self _ _).append_left _

theorem mem_others_requests {other : PendingRequest} (member : other ∈ first.operation.requests)
    (differs : other ≠ first.request)
    : other ∈ first.earlier ++ first.later := by
  rw [first.requests_eq] at member
  simpa [differs] using member

@[simp] theorem asRecorded_confirmed
    : first.confirmed.asRecorded = first.operation.asRecorded := by
  simp [confirmed, PendingOperation.asRecorded, first.requests_eq]

/-- An open operation with a request confirmed is done exactly if that was the last one. A request
that had been confirmed before is never the last one, since another one is not.
-/
theorem isDone_confirmed_iff (isOpen : first.operation.IsOpen)
    : first.confirmed.isDone = true ↔ first.IsLast := by
  have others : first.confirmed.isDone = true
      ↔ ∀ other ∈ first.earlier ++ first.later, other.confirmed = true := by
    simp only [PendingOperation.isDone, confirmed, List.all_eq_true, List.forall_mem_append,
      List.forall_mem_cons, true_and]
  rw [others, IsLast, iff_and_self]
  intro done
  obtain ⟨waiting, member, unconfirmed⟩ := isOpen
  by_cases same : waiting = first.request
  · exact same ▸ unconfirmed
  · rw [done waiting (first.mem_others_requests member same)] at unconfirmed
    exact absurd unconfirmed.symm Bool.false_ne_true

theorem confirmation_eq (isOpen : first.operation.IsOpen)
    : first.confirmation
      = first.before
        ++ if first.confirmed.isDone then first.after else first.confirmed :: first.after := by
  unfold confirmation
  by_cases last : first.IsLast
  · rw [if_pos last, if_pos ((first.isDone_confirmed_iff isOpen).mpr last)]
  · rw [if_neg last, if_neg (mt (first.isDone_confirmed_iff isOpen).mp last)]

/-- A confirmation keeps what was recorded, in order, of all operations that are left. -/
theorem map_asRecorded_confirmation
    : (first.confirmation.map (·.asRecorded)).Sublist (operations.map (·.asRecorded)) := by
  unfold confirmation
  split
  · exact first.others_sublist.map _
  · rw [congrArg (List.map (·.asRecorded)) first.operations_eq]
    simp

/-- The operation with a request confirmed is open if that was not the last one of an open one. -/
theorem isOpen_confirmed (isOpen : first.operation.IsOpen) (notLast : ¬ first.IsLast)
    : first.confirmed.IsOpen := by
  rw [← first.isDone_confirmed_iff isOpen] at notLast
  simpa [PendingOperation.isDone, PendingOperation.IsOpen] using notLast

/-- After a confirmation every operation is open if all were before. -/
theorem isOpen_confirmation (isOpen : ∀ operation ∈ operations, operation.IsOpen)
    : ∀ operation ∈ first.confirmation, operation.IsOpen := by
  have around (operation : PendingOperation κ)
      (member : operation ∈ first.before ∨ operation ∈ first.after)
      : operation.IsOpen :=
    isOpen operation (first.mem_operations_iff.mpr (member.imp_right .inr))
  intro operation member
  unfold confirmation at member
  split at member
  · exact around operation (List.mem_append.mp member)
  · next notLast =>
      rcases List.mem_append.mp member with earlier | later
      · exact around operation (.inl earlier)
      · rcases List.mem_cons.mp later with rfl | later
        · exact first.isOpen_confirmed (isOpen _ first.mem_operations) notLast
        · exact around operation (.inr later)

/-- The request that is found first when the requests are tested in order. -/
def ofTest {test : PendingRequest → Bool} (meaning : ∀ request, test request = true ↔ picks request)
    {before after : List (PendingOperation κ)} {operation : PendingOperation κ}
    {earlier later : List PendingRequest} {request : PendingRequest}
    (split : operations = before ++ operation :: after)
    (inOperation : operation.requests = earlier ++ request :: later)
    (found : test request = true)
    (passed : ∀ operation ∈ before, ∀ request ∈ operation.requests, test request = false)
    (passedHere : ∀ request ∈ earlier, test request = false)
    : FirstPicked picks operations :=
  have unpicked : ∀ other ∈ before.flatMap (·.requests) ++ earlier, ¬ picks other := by
    simp only [← meaning, Bool.not_eq_true]
    exact List.forall_mem_append.mpr ⟨List.forall_mem_flatMap.mpr passed, passedHere⟩
  ⟨before, operation, after, earlier, request, later, split, inOperation,
    (meaning request).mp found, unpicked⟩

end FirstPicked

variable {ledger : Ledger κ}

/-- A confirmation that is meant for no request changes nothing. Any other one confirms the first
request that it is meant for.
-/
def ConfirmsFirst (ledger : Ledger κ) (kind : EventKind) (entity : Option Uuid)
    (answer : Option RequestId) : Prop :=
  ((∀ operation ∈ ledger.operations, ∀ request ∈ operation.requests,
      ¬ request.IsAnsweredBy kind entity answer)
    ∧ ledger.confirm kind entity answer = (ledger, false))
  ∨ ∃ first : FirstPicked (·.IsAnsweredBy kind entity answer) ledger.operations,
      ledger.confirm kind entity answer = (⟨first.confirmation⟩, true)

/-- A refusal that is meant for no request takes nothing. Any other one takes out the operation of
the first request that it is meant for.
-/
def TakesFirst (ledger : Ledger κ) (kind : EventKind) (answer : Option RequestId) : Prop :=
  ((∀ operation ∈ ledger.operations, ∀ request ∈ operation.requests,
      ¬ request.IsRefusedBy kind answer)
    ∧ ledger.reject? kind answer = none)
  ∨ ∃ first : FirstPicked (·.IsRefusedBy kind answer) ledger.operations,
      ledger.reject? kind answer = some (first.operation, ⟨first.before ++ first.after⟩)

theorem confirmsFirst (isOpen : ∀ operation ∈ ledger.operations, operation.IsOpen)
    (kind : EventKind) (entity : Option Uuid) (answer : Option RequestId)
    : ledger.ConfirmsFirst kind entity answer := by
  unfold ConfirmsFirst confirm
  split
  · next rest found =>
      obtain ⟨before, operation, after, confirmed, split, passed, here, rfl⟩ :=
        exists_of_confirmIn? found
      obtain ⟨earlier, request, later, inOperation, picked, passedHere, rfl⟩ :=
        PendingOperation.exists_of_confirmFirst? here
      let first : FirstPicked (·.IsAnsweredBy kind entity answer) ledger.operations :=
        .ofTest (fun _ => PendingRequest.answeredBy_iff) split inOperation picked passed passedHere
      refine .inr ⟨first, ?_⟩
      rw [first.confirmation_eq (isOpen operation first.mem_operations)]
      rfl
  · next nothing =>
      refine .inl ⟨?_, rfl⟩
      simpa only [← PendingRequest.answeredBy_iff, Bool.not_eq_true]
        using confirmIn?_eq_none_iff.mp nothing

theorem takesFirst (ledger : Ledger κ) (kind : EventKind) (answer : Option RequestId)
    : ledger.TakesFirst kind answer := by
  unfold TakesFirst reject?
  cases found : takeFirst? (PendingRequest.refusedBy kind answer) ledger.operations with
  | none =>
      refine .inl ⟨?_, rfl⟩
      simpa only [← PendingRequest.refusedBy_iff, Bool.not_eq_true]
        using takeFirst?_eq_none_iff.mp found
  | some both =>
      obtain ⟨taken, rest⟩ := both
      obtain ⟨before, after, split, rfl, passed, picksHere⟩ := exists_of_takeFirst? found
      obtain ⟨request, here⟩ := Option.isSome_iff_exists.mp (List.find?_isSome.mpr picksHere)
      obtain ⟨picked, earlier, later, inOperation, passedHere⟩ :=
        List.find?_eq_some_iff_append.mp here
      exact .inr ⟨.ofTest (fun _ => PendingRequest.refusedBy_iff) split inOperation picked passed
        (by simpa using passedHere), rfl⟩

/-- An answer with a request id that no request has changes nothing. -/
theorem unknown_changes_nothing {id : RequestId}
    (unknown : ∀ operation ∈ ledger.operations, id ∉ operation.ids) (kind : EventKind)
    (entity : Option Uuid)
    : ledger.confirm kind entity (some id) = (ledger, false)
      ∧ ledger.reject? kind (some id) = none := by
  have other : ∀ operation ∈ ledger.operations,
      ∀ request ∈ operation.requests, (request.id == id) = false := by
    intro operation inLedger request member
    rw [beq_eq_false_iff_ne]
    rintro rfl
    exact unknown operation inLedger (List.mem_map_of_mem member)
  have unconfirmed
      : confirmIn? (PendingRequest.answeredBy kind entity (some id)) ledger.operations = none :=
    confirmIn?_eq_none_iff.mpr other
  have untaken : takeFirst? (PendingRequest.refusedBy kind (some id)) ledger.operations = none :=
    takeFirst?_eq_none_iff.mpr other
  exact ⟨by rw [confirm, unconfirmed], by rw [reject?, untaken, Option.map_none]⟩

-----------------------------------------------------------------------------------------
-- Any calls
-----------------------------------------------------------------------------------------

/-- What can be done with a ledger. -/
inductive Call (κ : Type) where
  | record (messages : List (Message κ)) (mutations : List (Mutation κ))
  | confirm (kind : EventKind) (entity : Option Uuid) (answer : Option RequestId)
  | reject (kind : EventKind) (answer : Option RequestId)
  | clear

/-- The ledger after a call. -/
def call (ledger : Ledger κ) : Call κ → Ledger κ
  | .record messages mutations => ledger.record messages mutations
  | .confirm kind entity answer => (ledger.confirm kind entity answer).1
  | .reject kind answer => ((ledger.reject? kind answer).map (·.2)).getD ledger
  | .clear => empty

/-- The ledger after calls, the first of which finds nothing in flight. -/
def afterCalls (calls : List (Call κ)) : Ledger κ :=
  calls.foldl call empty

/-- The operation that a call is to record. -/
def Call.operation? : Call κ → Option (PendingOperation κ)
  | .record messages mutations =>
      some ⟨messages.filterMap PendingRequest.ofMessage?, mutations⟩
  | .confirm .. | .reject .. | .clear => none

/-- The operations that calls are to record, in that order. -/
def recorded (calls : List (Call κ)) : List (PendingOperation κ) :=
  calls.filterMap (·.operation?)

/-- A new operation comes last, if it has a request to wait for. -/
theorem operations_record (ledger : Ledger κ) (messages : List (Message κ))
    (mutations : List (Mutation κ))
    : (ledger.record messages mutations).operations
      = ledger.operations
        ++ [(⟨messages.filterMap PendingRequest.ofMessage?, mutations⟩ : PendingOperation κ)].filter
            (fun operation => !operation.requests.isEmpty) := by
  unfold record
  dsimp only
  split <;> simp [*]

/-- The operations of a ledger are open, and they are some of those that were recorded, in that
order, but for the confirmations of their requests.
-/
structure Keeps (ledger : Ledger κ) (recorded : List (PendingOperation κ)) : Prop where
  isOpen : ∀ operation ∈ ledger.operations, operation.IsOpen
  inOrder : (ledger.operations.map (·.asRecorded)).Sublist recorded

variable {entries : List (PendingOperation κ)}

/-- The books are kept when an operation comes in of which no request is confirmed. -/
theorem Keeps.append (keeps : ledger.Keeps entries) (entered : PendingOperation κ)
    (unconfirmed : ∀ request ∈ entered.requests, request.confirmed = false)
    : (⟨ledger.operations
          ++ [entered].filter (fun operation => !operation.requests.isEmpty)⟩
        : Ledger κ).Keeps (entries ++ [entered]) := by
  constructor
  · intro operation member
    rcases List.mem_append.mp member with old | new
    · exact keeps.isOpen operation old
    · obtain ⟨isNew, asks⟩ := List.mem_filter.mp new
      obtain rfl := List.mem_singleton.mp isNew
      obtain ⟨request, asked⟩ := List.exists_mem_of_ne_nil operation.requests (by simpa using asks)
      exact ⟨request, asked, unconfirmed request asked⟩
  · have recordedAs : [entered].map (·.asRecorded) = [entered] :=
      congrArg ([·]) (PendingOperation.asRecorded_of_unconfirmed unconfirmed)
    rw [List.map_append]
    refine keeps.inOrder.append ?_
    conv_rhs => rw [← recordedAs]
    exact List.filter_sublist.map _

theorem Keeps.record (keeps : ledger.Keeps entries) (messages : List (Message κ))
    (mutations : List (Mutation κ))
    : (ledger.record messages mutations).Keeps
        (entries ++ [⟨messages.filterMap PendingRequest.ofMessage?, mutations⟩]) := by
  have kept := keeps.append ⟨messages.filterMap PendingRequest.ofMessage?, mutations⟩
    fun _ => unconfirmed_of_mem_ofMessages
  rwa [← operations_record] at kept

theorem Keeps.confirm (keeps : ledger.Keeps entries) (kind : EventKind) (entity : Option Uuid)
    (answer : Option RequestId)
    : (ledger.confirm kind entity answer).1.Keeps entries := by
  rcases confirmsFirst keeps.isOpen kind entity answer with ⟨_, same⟩ | ⟨first, confirmed⟩
  · rw [same]
    exact keeps
  · rw [confirmed]
    exact ⟨first.isOpen_confirmation keeps.isOpen,
      first.map_asRecorded_confirmation.trans keeps.inOrder⟩

theorem Keeps.reject (keeps : ledger.Keeps entries) (kind : EventKind)
    (answer : Option RequestId)
    : (((ledger.reject? kind answer).map (·.2)).getD ledger).Keeps entries := by
  rcases ledger.takesFirst kind answer with ⟨_, same⟩ | ⟨first, taken⟩
  · rw [same]
    exact keeps
  · rw [taken]
    exact ⟨fun operation member => keeps.isOpen operation (first.others_sublist.subset member),
      (first.others_sublist.map _).trans keeps.inOrder⟩

/-- Every call keeps the books. -/
theorem Keeps.call (keeps : ledger.Keeps entries) (call : Call κ)
    : (ledger.call call).Keeps (entries ++ call.operation?.toList) := by
  have noEntry : entries ++ (none : Option (PendingOperation κ)).toList = entries :=
    List.append_nil entries
  cases call with
  | record messages mutations => exact keeps.record messages mutations
  | confirm kind entity answer => exact noEntry.symm ▸ keeps.confirm kind entity answer
  | reject kind answer => exact noEntry.symm ▸ keeps.reject kind answer
  | clear => exact ⟨by simp [Ledger.call, empty], by simp [Ledger.call, empty]⟩

/-- The books are kept over any calls, by induction over the calls. -/
theorem keeps_afterCalls (calls : List (Call κ)) : (afterCalls calls).Keeps (recorded calls) := by
  induction calls using List.reverseRecOn with
  | nil => exact ⟨by simp [afterCalls, empty], by simp [afterCalls, empty]⟩
  | append_singleton calls last ih =>
      have entries : recorded (calls ++ [last]) = recorded calls ++ last.operation?.toList := by
        rw [recorded, List.filterMap_append, recorded]
        cases last <;> rfl
      rw [entries, afterCalls, List.foldl_append]
      exact ih.call last

/-- The request ids of the operations that are left are distinct if those of all that were recorded
are.
-/
theorem Keeps.nodup_ids (keeps : ledger.Keeps entries)
    (distinct : (entries.flatMap (·.ids)).Nodup)
    : (ledger.operations.flatMap (·.ids)).Nodup := by
  have left := keeps.inOrder.flatMap (·.ids)
  simp only [List.flatMap_map, PendingOperation.ids_asRecorded] at left
  exact distinct.sublist left

/-- Whatever calls are made: every operation in the ledger has an unconfirmed request, and the
operations are in the order in which they were recorded, with request ids as distinct as those of
all that were. A record adds an operation at the end if it has requests. A confirmation marks the
first request that it is meant for and takes the operation out exactly if no other request of it is
unconfirmed, and a refusal takes out the operation of the first request that it is meant for; all
other operations stay as they are. An unknown request id changes nothing.
-/
theorem calls_keep_books (calls : List (Call κ))
    : let ledger := afterCalls calls
      (∀ operation ∈ ledger.operations, operation.IsOpen)
      ∧ (ledger.operations.map (·.asRecorded)).Sublist (recorded calls)
      ∧ (((recorded calls).flatMap (·.ids)).Nodup
          → (ledger.operations.flatMap (·.ids)).Nodup)
      ∧ (∀ messages mutations,
          (ledger.record messages mutations).operations
          = ledger.operations
            ++ [(⟨messages.filterMap PendingRequest.ofMessage?, mutations⟩
                : PendingOperation κ)].filter (fun operation => !operation.requests.isEmpty))
      ∧ (∀ kind entity answer, ledger.ConfirmsFirst kind entity answer)
      ∧ (∀ kind answer, ledger.TakesFirst kind answer)
      ∧ ∀ id, (∀ operation ∈ ledger.operations, id ∉ operation.ids) →
          ∀ kind entity,
            ledger.confirm kind entity (some id) = (ledger, false)
            ∧ ledger.reject? kind (some id) = none := by
  have keeps := keeps_afterCalls calls
  exact ⟨keeps.isOpen, keeps.inOrder, keeps.nodup_ids, operations_record _,
    confirmsFirst keeps.isOpen, takesFirst _, fun _ => unknown_changes_nothing⟩

/-- Two posts are edited together and one of them again. An answer without a request id is meant for
the older edit of that post, whose operation still waits for the edit of the other one.
-/
theorem calls_keep_books_twoEdits
    : let edit (post request : Nat) : Message Float :=
        ⟨.updatePost (PostEdit.nothing (.ofNat post) (.ofNat 1)), some (.ofNat request)⟩
      let calls : List (Call Float) :=
        [.record [edit 11 90, edit 12 91] [], .record [edit 11 92] [],
          .confirm .postUpdate (some (.ofNat 11)) none]
      let ledger := afterCalls calls
      ((recorded calls).flatMap (·.ids)).Nodup
      ∧ (ledger.operations.flatMap (·.ids)).Nodup
      ∧ ledger.operations.map (·.requests.map (·.confirmed)) = [[true, false], [false]]
      ∧ (∀ operation ∈ ledger.operations, .ofNat 93 ∉ operation.ids)
      ∧ ledger.confirm .postUpdate (some (.ofNat 11)) (some (.ofNat 93)) = (ledger, false)
      ∧ ledger.reject? .postUpdate (some (.ofNat 93)) = none := by
  intro edit calls ledger
  obtain ⟨_, _, distinct, _, _, _, unknown⟩ := calls_keep_books calls
  have apart : ((recorded calls).flatMap (·.ids)).Nodup := by decide
  have other : ∀ operation ∈ ledger.operations, Uuid.ofNat 93 ∉ operation.ids := by decide
  exact ⟨apart, distinct apart, rfl, other, unknown _ other _ _⟩

end Ledger

end SharedBoard
