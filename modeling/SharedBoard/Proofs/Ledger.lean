import Mathlib.Data.List.Flatten
import Mathlib.Data.List.Nodup
import SharedBoard.Ledger

/-! What answers do to a ledger. An answer is meant for the first operation with a request that it
picks; operations are only ever taken out, and the others stay in their order.
-/

namespace SharedBoard.Ledger

variable {κ : Type}

-----------------------------------------------------------------------------------------
-- Which operation an answer takes
-----------------------------------------------------------------------------------------

/-- A confirmation goes to the first operation with a request that the test picks, and takes it out
if it is done, by induction over the operations.
-/
theorem exists_of_confirmIn? {picks : PendingRequest → Bool}
    {operations rest : List (PendingOperation κ)} (found : confirmIn? picks operations = some rest)
    : ∃ before operation after confirmed,
        operations = before ++ operation :: after
        ∧ (∀ earlier ∈ before, ∀ request ∈ earlier.requests, picks request = false)
        ∧ operation.confirmFirst? picks = some confirmed
        ∧ rest = before ++ if confirmed.isDone then after else confirmed :: after := by
  induction operations generalizing rest with
  | nil => simp [confirmIn?] at found
  | cons head tail ih =>
      unfold confirmIn? at found
      split at found
      · next confirmed atHead =>
          exact ⟨[], head, tail, confirmed, rfl, by simp, atHead, (Option.some.inj found).symm⟩
      · next unpicked =>
          obtain ⟨others, atTail, rfl⟩ := Option.map_eq_some_iff.mp found
          obtain ⟨before, operation, after, confirmed, rfl, earlier, here, rfl⟩ := ih atTail
          have headUnpicked : ∀ request ∈ head.requests, picks request = false := by
            simpa [PendingOperation.confirmFirst?] using unpicked
          exact ⟨head :: before, operation, after, confirmed, rfl,
            List.forall_mem_cons.mpr ⟨headUnpicked, earlier⟩, here, rfl⟩

/-- Nothing is confirmed when the test picks no request, by induction over the operations. -/
theorem confirmIn?_eq_none_iff {picks : PendingRequest → Bool}
    {operations : List (PendingOperation κ)}
    : confirmIn? picks operations = none
      ↔ ∀ operation ∈ operations, ∀ request ∈ operation.requests, picks request = false := by
  induction operations with
  | nil => simp [confirmIn?]
  | cons head tail ih =>
      rw [List.forall_mem_cons, ← ih, confirmIn?]
      cases atHead : head.confirmFirst? picks with
      | some confirmed =>
          obtain ⟨index, found, _⟩ := Option.map_eq_some_iff.mp atHead
          obtain ⟨bound, picked, _⟩ := List.findIdx?_eq_some_iff_getElem.mp found
          refine iff_of_false (by simp) fun both => ?_
          rw [both.1 _ (List.getElem_mem bound)] at picked
          exact Bool.false_ne_true picked
      | none =>
          have headUnpicked : ∀ request ∈ head.requests, picks request = false := by
            simpa [PendingOperation.confirmFirst?] using atHead
          simp only [Option.map_eq_none_iff]
          exact (and_iff_right headUnpicked).symm

/-- A refusal takes the first operation with a request that the test picks, by induction over the
operations.
-/
theorem exists_of_takeFirst? {picks : PendingRequest → Bool}
    {operations rest : List (PendingOperation κ)} {taken : PendingOperation κ}
    (found : takeFirst? picks operations = some (taken, rest))
    : ∃ before after,
        operations = before ++ taken :: after
        ∧ rest = before ++ after
        ∧ (∀ earlier ∈ before, ∀ request ∈ earlier.requests, picks request = false)
        ∧ ∃ request ∈ taken.requests, picks request = true := by
  induction operations generalizing rest with
  | nil => simp [takeFirst?] at found
  | cons head tail ih =>
      unfold takeFirst? at found
      split at found
      · next picked =>
          obtain ⟨rfl, rfl⟩ := Prod.mk.inj (Option.some.inj found)
          exact ⟨[], tail, rfl, rfl, by simp, List.any_eq_true.mp picked⟩
      · next unpicked =>
          obtain ⟨⟨inner, others⟩, atTail, same⟩ := Option.map_eq_some_iff.mp found
          obtain ⟨rfl, rfl⟩ := Prod.mk.inj same
          obtain ⟨before, after, rfl, rfl, earlier, picked⟩ := ih atTail
          have headUnpicked : ∀ request ∈ head.requests, picks request = false := by
            simpa using unpicked
          exact ⟨head :: before, after, rfl, rfl,
            List.forall_mem_cons.mpr ⟨headUnpicked, earlier⟩, picked⟩

/-- Nothing is taken when the test picks no request, by induction over the operations. -/
theorem takeFirst?_eq_none_iff {picks : PendingRequest → Bool}
    {operations : List (PendingOperation κ)}
    : takeFirst? picks operations = none
      ↔ ∀ operation ∈ operations, ∀ request ∈ operation.requests, picks request = false := by
  induction operations with
  | nil => simp [takeFirst?]
  | cons head tail ih =>
      rw [List.forall_mem_cons, ← ih, takeFirst?]
      cases picked : head.requests.any picks with
      | true =>
          obtain ⟨request, member, here⟩ := List.any_eq_true.mp picked
          refine iff_of_false (by simp) fun both => ?_
          rw [both.1 request member] at here
          exact Bool.false_ne_true here
      | false =>
          have headUnpicked : ∀ request ∈ head.requests, picks request = false := by
            simpa using picked
          simpa using fun _ => headUnpicked

-----------------------------------------------------------------------------------------
-- Which mutations an answer leaves
-----------------------------------------------------------------------------------------

/-- A confirmed operation has the mutations that it had. -/
theorem mutations_of_confirmFirst? {picks : PendingRequest → Bool}
    {operation confirmed : PendingOperation κ}
    (found : operation.confirmFirst? picks = some confirmed)
    : confirmed.mutations = operation.mutations := by
  obtain ⟨index, _, rfl⟩ := Option.map_eq_some_iff.mp found
  rfl

/-- The mutations after a confirmation are some of those before it, in order. -/
theorem mutations_confirm_sublist (ledger : Ledger κ) (kind : EventKind) (entity : Option Uuid)
    (answer : Option RequestId)
    : (ledger.confirm kind entity answer).1.mutations.Sublist ledger.mutations := by
  unfold confirm
  split
  · next rest found =>
      obtain ⟨before, operation, after, confirmed, split, _, here, rfl⟩ :=
        exists_of_confirmIn? found
      simp only [mutations, split, List.flatMap_append, List.flatMap_cons]
      refine List.Sublist.append_left ?_ _
      split
      · exact List.sublist_append_right _ _
      · rw [List.flatMap_cons, mutations_of_confirmFirst? here]
  · exact List.Sublist.refl _

/-- What is left when the first operation that a test picks is taken out is in order. -/
theorem takeFirst?_sublist {picks : PendingRequest → Bool}
    {operations rest : List (PendingOperation κ)} {taken : PendingOperation κ}
    (found : takeFirst? picks operations = some (taken, rest))
    : rest.Sublist operations := by
  obtain ⟨before, after, rfl, rfl, _⟩ := exists_of_takeFirst? found
  exact (List.sublist_cons_self taken after).append_left before

/-- The mutations after a refusal are some of those before it, in order. -/
theorem mutations_reject?_sublist {ledger rest : Ledger κ} {kind : EventKind}
    {answer : Option RequestId} {taken : PendingOperation κ}
    (found : ledger.reject? kind answer = some (taken, rest))
    : rest.mutations.Sublist ledger.mutations := by
  obtain ⟨⟨inner, others⟩, atFirst, same⟩ := Option.map_eq_some_iff.mp found
  obtain ⟨_, rfl⟩ := Prod.mk.inj same
  exact (takeFirst?_sublist atFirst).flatMap _

/-- A new entry adds its mutations, or nothing if it can not be answered. -/
theorem mem_mutations_record {ledger : Ledger κ} {messages : List (Message κ)}
    {mutations : List (Mutation κ)} {mutation : Mutation κ}
    (member : mutation ∈ (ledger.record messages mutations).mutations)
    : mutation ∈ ledger.mutations ∨ mutation ∈ mutations := by
  unfold record at member
  dsimp only at member
  split at member
  · exact .inl member
  · simpa [Ledger.mutations] using member

-----------------------------------------------------------------------------------------
-- What is entered
-----------------------------------------------------------------------------------------

/-- No request of a new operation is confirmed. -/
theorem unconfirmed_of_mem_ofMessages {messages : List (Message κ)} {request : PendingRequest}
    (member : request ∈ messages.filterMap PendingRequest.ofMessage?)
    : request.confirmed = false := by
  obtain ⟨message, _, made⟩ := List.mem_filterMap.mp member
  obtain ⟨id, _, rfl⟩ := Option.map_eq_some_iff.mp made
  rfl

end SharedBoard.Ledger
