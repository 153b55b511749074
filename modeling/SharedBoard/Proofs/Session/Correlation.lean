import SharedBoard.Proofs.Session.Refusal

/-! Answers with and without request ids. While the answers of one kind and entity come in the order
in which the requests were sent, an answer without a request id confirms the request that the id
would have named.
-/

namespace SharedBoard

variable {κ : Type}

-----------------------------------------------------------------------------------------
-- What is left of operations
-----------------------------------------------------------------------------------------

/-- The request, confirmed if its id is settled. -/
def PendingRequest.confirmedBy (settled : List RequestId) (request : PendingRequest)
    : PendingRequest :=
  { request with confirmed := request.confirmed || settled.contains request.id }

namespace PendingOperation

/-- What is left of operations when some ids are settled: those that have another id, with the
settled ones of their requests confirmed.
-/
def remaining (settled : List RequestId) (operations : List (PendingOperation κ))
    : List (PendingOperation κ) :=
  (operations.filter (fun operation => !operation.ids.all (settled.contains ·))).map
    (·.confirmedBy settled)

variable {operation : PendingOperation κ} {operations : List (PendingOperation κ)}
  {settled : List RequestId}

theorem requests_confirmedBy (settled : List RequestId) (operation : PendingOperation κ)
    : (operation.confirmedBy settled).requests = operation.requests.map (·.confirmedBy settled) :=
  rfl

theorem remaining_cons (settled : List RequestId) (operation : PendingOperation κ)
    (operations : List (PendingOperation κ))
    : remaining settled (operation :: operations)
      = if operation.ids.all (settled.contains ·) then remaining settled operations
        else operation.confirmedBy settled :: remaining settled operations := by
  unfold remaining
  cases done : operation.ids.all (settled.contains ·) with
  | true => rw [List.filter_cons_of_neg (by simpa using done), if_pos rfl]
  | false =>
      rw [List.filter_cons_of_pos (by simpa using done), List.map_cons, if_neg Bool.false_ne_true]

theorem remaining_append (settled : List RequestId) (first second : List (PendingOperation κ))
    : remaining settled (first ++ second)
      = remaining settled first ++ remaining settled second := by
  rw [remaining, List.filter_append, List.map_append]
  rfl

/-- Operations are left as they are when the id of another request is settled. -/
theorem remaining_settle {id : RequestId} (others : ∀ operation ∈ operations, id ∉ operation.ids)
    : remaining (settled ++ [id]) operations = remaining settled operations := by
  induction operations with
  | nil => rfl
  | cons head rest ih =>
      obtain ⟨headOther, restOther⟩ := List.forall_mem_cons.mp others
      rw [remaining_cons, remaining_cons, ih restOther, all_settle headOther,
        confirmedBy_settle headOther]

/-- An operation none of whose ids is settled is left as it is, unless it has no requests. -/
theorem remaining_singleton (fresh : ∀ id ∈ operation.ids, id ∉ settled)
    : remaining settled [operation] = if operation.requests.isEmpty then [] else [operation] := by
  have stays : operation.confirmedBy settled = operation := by
    obtain ⟨requests, mutations⟩ := operation
    simp only [confirmedBy, mk.injEq, and_true]
    refine (List.map_congr_left fun request member => ?_).trans (List.map_id' requests)
    have absent : request.id ∉ settled := fresh request.id (List.mem_map_of_mem member)
    simp [absent]
  rw [remaining_cons, stays]
  cases bare : operation.requests with
  | nil => simp [ids, bare, remaining]
  | cons head rest =>
      have absent : head.id ∉ settled := fresh head.id (by simp [ids, bare])
      simp [ids, bare, remaining, absent]

/-- Operations that have been answered in full are not left. -/
theorem remaining_eq_nil (done : ∀ operation ∈ operations, ∀ id ∈ operation.ids, id ∈ settled)
    : remaining settled operations = [] := by
  rw [remaining, List.map_eq_nil_iff, List.filter_eq_nil_iff]
  intro operation member
  simpa using done operation member

/-- An operation is left as long as one of its ids is not settled, if no other operation has one of
its ids.
-/
theorem exists_mem_remaining_iff (member : operation ∈ operations)
    : (∃ left ∈ remaining settled operations, left.ids = operation.ids)
      ↔ ∃ id ∈ operation.ids, id ∉ settled := by
  constructor
  · rintro ⟨left, inRemaining, sameIds⟩
    obtain ⟨former, kept, rfl⟩ := List.mem_map.mp inRemaining
    rw [ids_confirmedBy] at sameIds
    have open_ := (List.mem_filter.mp kept).2
    rw [sameIds] at open_
    simpa using open_
  · intro unsettled
    refine ⟨operation.confirmedBy settled, List.mem_map_of_mem ?_, ids_confirmedBy⟩
    exact List.mem_filter.mpr ⟨member, by simpa using unsettled⟩

end PendingOperation

namespace Ledger

open PendingOperation

variable {operation : PendingOperation κ} {operations : List (PendingOperation κ)}
  {settled : List RequestId} {picks : PendingRequest → Bool} {request : PendingRequest}

/-- A test that picks no request of an operation goes on to the others. -/
theorem confirmIn?_remaining_later
    (unpicked : ∀ other ∈ operation.requests, picks (other.confirmedBy settled) = false)
    (elsewhere : request.id ∉ operation.ids)
    (later
      : confirmIn? picks (remaining settled operations)
        = some (remaining (settled ++ [request.id]) operations))
    : confirmIn? picks (remaining settled (operation :: operations))
      = some (remaining (settled ++ [request.id]) (operation :: operations)) := by
  rw [remaining_cons, remaining_cons, all_settle elsewhere, confirmedBy_settle elsewhere]
  split
  · exact later
  · have passed : (operation.confirmedBy settled).confirmFirst? picks = none := by
      rw [confirmFirst?, Option.map_eq_none_iff, List.findIdx?_eq_none_iff, requests_confirmedBy,
        List.forall_mem_map]
      exact unpicked
    rw [confirmIn?, passed, later]
    rfl

/-- A test that picks an unsettled request of the first operation, and none before it, settles it.
-/
theorem confirmIn?_remaining_here (unanswered : operation.Unanswered)
    {earlier later : List PendingRequest} (split : operation.requests = earlier ++ request :: later)
    (fresh : request.id ∉ settled)
    (unpicked : ∀ other ∈ earlier, picks (other.confirmedBy settled) = false)
    (picked : picks (request.confirmedBy settled) = true)
    (elsewhere : ∀ other ∈ operations, request.id ∉ other.ids)
    : confirmIn? picks (remaining settled (operation :: operations))
      = some (remaining (settled ++ [request.id]) (operation :: operations)) := by
  have first : (operation.confirmedBy settled).requests.find? picks
      = some (request.confirmedBy settled) := by
    rw [requests_confirmedBy, split, List.map_append, List.map_cons, List.find?_append,
      List.find?_eq_none.mpr, Option.none_or, List.find?_cons_of_pos picked]
    rw [List.forall_mem_map]
    exact fun other member => by simp [unpicked other member]
  have member : request.id ∈ operation.ids := by simp [ids, split]
  have open_ : ¬ operation.ids.all (settled.contains ·) = true := fun done =>
    fresh (by simpa using List.all_eq_true.mp done request.id member)
  rw [remaining_cons, remaining_cons, if_neg open_, remaining_settle elsewhere, confirmIn?]
  cases found : (operation.confirmedBy settled).confirmFirst? picks with
  | none =>
      rw [confirmFirst?, Option.map_eq_none_iff, List.findIdx?_eq_none_iff] at found
      rw [found _ (List.mem_of_find?_eq_some first)] at picked
      exact absurd picked Bool.false_ne_true
  | some confirmed =>
      obtain ⟨settles, atFirst, rfl⟩ := unanswered.confirmFirst?_confirmedBy found
      obtain rfl := Option.some.inj (first.symm.trans atFirst)
      simp only [unanswered.isDone_confirmedBy]
      rfl

/-- A test that picks an unsettled request, and none of those that were sent before, settles it, by
induction over the operations.
-/
theorem confirmIn?_remaining (distinct : (operations.flatMap (·.ids)).Nodup)
    (unconfirmed : ∀ operation ∈ operations, ∀ sent ∈ operation.requests, sent.confirmed = false)
    {earlier later : List PendingRequest}
    (split : operations.flatMap (·.requests) = earlier ++ request :: later)
    (fresh : request.id ∉ settled)
    (unpicked : ∀ other ∈ earlier, picks (other.confirmedBy settled) = false)
    (picked : picks (request.confirmedBy settled) = true)
    : confirmIn? picks (remaining settled operations)
      = some (remaining (settled ++ [request.id]) operations) := by
  induction operations generalizing earlier with
  | nil => simp at split
  | cons head rest ih =>
      rw [List.flatMap_cons] at split
      rw [List.flatMap_cons, List.nodup_append'] at distinct
      obtain ⟨headDistinct, restDistinct, disjoint⟩ := distinct
      obtain ⟨headUnconfirmed, restUnconfirmed⟩ := List.forall_mem_cons.mp unconfirmed
      have inRest (between : List PendingRequest) (before : earlier = head.requests ++ between)
          (restSplit : rest.flatMap (·.requests) = between ++ request :: later)
          : confirmIn? picks (remaining settled (head :: rest))
            = some (remaining (settled ++ [request.id]) (head :: rest)) := by
        obtain ⟨headUnpicked, betweenUnpicked⟩ := List.forall_mem_append.mp (before ▸ unpicked)
        refine confirmIn?_remaining_later headUnpicked (fun inHead => ?_)
          (ih restDistinct restUnconfirmed restSplit betweenUnpicked)
        refine disjoint inHead ?_
        have there : request ∈ rest.flatMap (·.requests) := by simp [restSplit]
        obtain ⟨operation, inOperations, inOperation⟩ := List.mem_flatMap.mp there
        exact List.mem_flatMap.mpr ⟨operation, inOperations, List.mem_map_of_mem inOperation⟩
      rcases List.append_eq_append_iff.mp split with
        ⟨between, before, restSplit⟩ | ⟨between, headSplit, after⟩
      · exact inRest between before restSplit
      · cases between with
        | nil =>
            exact inRest [] (by simpa using headSplit.symm) (by simpa using after.symm)
        | cons first others =>
            obtain ⟨rfl, _⟩ := List.cons.inj after
            refine confirmIn?_remaining_here ⟨headDistinct, headUnconfirmed⟩ headSplit fresh
              unpicked picked fun other member inOther => ?_
            have inHead : request.id ∈ head.ids := by simp [ids, headSplit]
            exact disjoint inHead (List.mem_flatMap.mpr ⟨other, member, inOther⟩)

-----------------------------------------------------------------------------------------
-- Histories of ledgers
-----------------------------------------------------------------------------------------

/-- What a ledger follows as long as nothing is refused: an operation is entered, or the event of a
request comes back.
-/
inductive Step (κ : Type) where
  | recorded (messages : List (Message κ)) (mutations : List (Mutation κ))
  | echoed (event : Event κ) (id : RequestId)

/-- The ledger after a step. An answer may repeat its request id or come without it. -/
def follow (repeats : RequestId → Bool) (ledger : Ledger κ) : Step κ → Ledger κ
  | .recorded messages mutations => ledger.record messages mutations
  | .echoed event id =>
      (ledger.confirm event.kind event.entity? (if repeats id then some id else none)).1

/-- The ledger after a history. -/
def after (repeats : RequestId → Bool) (history : List (Step κ)) : Ledger κ :=
  history.foldl (follow repeats) empty

namespace Step

/-- The operation that a step enters. -/
def operation? : Step κ → Option (PendingOperation κ)
  | .recorded messages mutations =>
      some ⟨messages.filterMap PendingRequest.ofMessage?, mutations⟩
  | .echoed .. => none

/-- The id of the request that a step answers. -/
def answer? : Step κ → Option RequestId
  | .recorded .. => none
  | .echoed _ id => some id

end Step

/-- The operations that a history entered. -/
def entered (history : List (Step κ)) : List (PendingOperation κ) :=
  history.filterMap (·.operation?)

/-- The requests that were sent in a history, oldest first. -/
def sent (history : List (Step κ)) : List PendingRequest :=
  (entered history).flatMap (·.requests)

/-- The ids of the requests that were answered in a history. -/
def answered (history : List (Step κ)) : List RequestId :=
  history.filterMap (·.answer?)

/-- An answer that comes in its turn. It is the event of a request that was sent and has not been
answered, and all earlier requests of the same kind and entity have been.
-/
structure InTurn (history : List (Step κ)) (event : Event κ) (id : RequestId) : Prop where
  unanswered : id ∉ answered history
  echoes
    : ∃ earlier request later,
        sent history = earlier ++ request :: later
        ∧ request.id = id
        ∧ request.kind = event.kind
        ∧ request.entity = event.entity?
        ∧ ∀ other ∈ earlier,
            other.kind = event.kind → other.entity = event.entity? → other.id ∈ answered history

/-- A history in which every answer comes in its turn. Operations are entered at any time. -/
inductive Orderly : List (Step κ) → Prop
  | nil : Orderly []
  | recorded {history : List (Step κ)} (orderly : Orderly history) (messages : List (Message κ))
    (mutations : List (Mutation κ))
    : Orderly (history ++ [.recorded messages mutations])
  | echoed {history : List (Step κ)} {event : Event κ} {id : RequestId} (orderly : Orderly history)
    (next : InTurn history event id)
    : Orderly (history ++ [.echoed event id])

variable {history past : List (Step κ)} {repeats : RequestId → Bool}

theorem unconfirmed_entered (member : operation ∈ entered history)
    : ∀ sent ∈ operation.requests, sent.confirmed = false := by
  obtain ⟨step, _, enters⟩ := List.mem_filterMap.mp member
  cases step with
  | echoed event id => simp [Step.operation?] at enters
  | recorded messages mutations =>
      obtain rfl := Option.some.inj enters
      exact fun _ => unconfirmed_of_mem_ofMessages

/-- The ids of the operations are those of the requests that were sent. -/
theorem ids_sent (history : List (Step κ))
    : (sent history).map (·.id) = (entered history).flatMap (·.ids) :=
  List.map_flatMap

@[simp] theorem entered_recorded (history : List (Step κ)) (messages : List (Message κ))
    (mutations : List (Mutation κ))
    : entered (history ++ [.recorded messages mutations])
      = entered history ++ [⟨messages.filterMap PendingRequest.ofMessage?, mutations⟩] :=
  List.filterMap_append

@[simp] theorem entered_echoed (history : List (Step κ)) (event : Event κ) (id : RequestId)
    : entered (history ++ [.echoed event id]) = entered history := by
  rw [entered, List.filterMap_append]
  exact List.append_nil _

@[simp] theorem answered_recorded (history : List (Step κ)) (messages : List (Message κ))
    (mutations : List (Mutation κ))
    : answered (history ++ [.recorded messages mutations]) = answered history := by
  rw [answered, List.filterMap_append]
  exact List.append_nil _

@[simp] theorem answered_echoed (history : List (Step κ)) (event : Event κ) (id : RequestId)
    : answered (history ++ [.echoed event id]) = answered history ++ [id] :=
  List.filterMap_append

theorem after_concat (repeats : RequestId → Bool) (history : List (Step κ)) (step : Step κ)
    : after repeats (history ++ [step]) = follow repeats (after repeats history) step :=
  List.foldl_append

namespace Orderly

/-- What was answered had been sent, by induction over the history. -/
theorem answered_subset (orderly : Orderly history)
    : answered history ⊆ (sent history).map (·.id) := by
  induction orderly with
  | nil => exact List.Subset.refl []
  | recorded _ messages mutations ih =>
      rw [ids_sent] at ih ⊢
      rw [answered_recorded, entered_recorded, List.flatMap_append]
      exact List.subset_append_of_subset_left _ ih
  | @echoed history event id _ next ih =>
      obtain ⟨earlier, request, later, split, rfl, _⟩ := next.echoes
      have there : request.id ∈ (sent history).map (·.id) :=
        List.mem_map_of_mem (by simp [split])
      rw [ids_sent, answered_echoed, entered_echoed, ← ids_sent]
      exact List.append_subset.mpr ⟨ih, List.cons_subset.mpr ⟨there, List.nil_subset _⟩⟩

/-- The beginning of a history in which answers come in their turn is one, by induction. -/
theorem beginning (orderly : Orderly history) (begins : past <+: history) : Orderly past := by
  induction orderly with
  | nil =>
      obtain rfl := List.prefix_nil.mp begins
      exact .nil
  | recorded orderly messages mutations ih =>
      rcases List.prefix_concat_iff.mp begins with rfl | earlier
      · exact .recorded orderly messages mutations
      · exact ih earlier
  | echoed orderly next ih =>
      rcases List.prefix_concat_iff.mp begins with rfl | earlier
      · exact .echoed orderly next
      · exact ih earlier

/-- The last answer of a history in which answers come in their turn came in its turn. -/
theorem inTurn {event : Event κ} {id : RequestId}
    (orderly : Orderly (history ++ [.echoed event id]))
    : InTurn history event id := by
  generalize whole : history ++ [Step.echoed event id] = after at orderly
  cases orderly with
  | nil => simp at whole
  | recorded => simp at whole
  | echoed _ next =>
      obtain ⟨rfl, last⟩ := List.append_inj' whole rfl
      obtain ⟨rfl, rfl⟩ := Step.echoed.inj (List.singleton_inj.mp last)
      exact next

end Orderly

/-- An answer in its turn is meant for the request that it echoes, with and without its id. -/
theorem InTurn.confirmIn? {event : Event κ} {id : RequestId} (next : InTurn history event id)
    (distinct : ((sent history).map (·.id)).Nodup) (repeated : Bool)
    : Ledger.confirmIn?
        (PendingRequest.answeredBy event.kind event.entity? (if repeated then some id else none))
        (remaining (answered history) (entered history))
      = some (remaining (answered history ++ [id]) (entered history)) := by
  obtain ⟨earlier, request, later, split, rfl, sameKind, sameEntity, inOrder⟩ := next.echoes
  refine confirmIn?_remaining (ids_sent history ▸ distinct) (fun _ => unconfirmed_entered) split
    next.unanswered ?_ ?_
  · intro other member
    cases repeated with
    | true =>
        rw [split, List.map_append, List.nodup_append'] at distinct
        have apart : other.id ≠ request.id := fun same =>
          distinct.2.2 (List.mem_map_of_mem member) (by simp [same])
        simpa [PendingRequest.answeredBy, PendingRequest.confirmedBy] using apart
    | false =>
        rw [Bool.eq_false_iff]
        intro picked
        simp only [PendingRequest.answeredBy, PendingRequest.confirmedBy, Bool.false_eq_true,
          if_false, Bool.and_eq_true, Bool.not_eq_true', Bool.or_eq_false_iff, beq_iff_eq] at picked
        obtain ⟨⟨⟨_, unsettled⟩, kind⟩, entity⟩ := picked
        have settled := inOrder other member kind entity
        simp [settled] at unsettled
  · have there : request ∈ sent history := by simp [split]
    obtain ⟨operation, inOperations, inOperation⟩ := List.mem_flatMap.mp there
    have unconfirmed := unconfirmed_entered inOperations request inOperation
    cases repeated with
    | true => simp [PendingRequest.answeredBy, PendingRequest.confirmedBy]
    | false =>
        simp [PendingRequest.answeredBy, PendingRequest.confirmedBy, unconfirmed, sameKind,
          sameEntity, next.unanswered]

/-- While answers come in their turn, the ledger has what is left of the operations that were
entered, whichever answers repeat their request ids, by induction over the history.
-/
theorem Orderly.after_eq (orderly : Orderly history) (distinct : ((sent history).map (·.id)).Nodup)
    (repeats : RequestId → Bool)
    : after repeats history = ⟨remaining (answered history) (entered history)⟩ := by
  induction orderly with
  | nil => rfl
  | @recorded history orderly messages mutations ih =>
      rw [ids_sent, entered_recorded, List.flatMap_append, List.nodup_append'] at distinct
      obtain ⟨before, _, disjoint⟩ := distinct
      let new : PendingOperation κ :=
        ⟨messages.filterMap PendingRequest.ofMessage?, mutations⟩
      have fresh (id : RequestId) (isNew : id ∈ new.ids) : id ∉ answered history := fun isOld =>
        disjoint (ids_sent history ▸ orderly.answered_subset isOld) (by simpa using isNew)
      rw [after_concat, answered_recorded, entered_recorded, remaining_append,
        remaining_singleton fresh, ih (ids_sent history ▸ before), follow, record]
      split
      · rw [List.append_nil]
      · rfl
  | @echoed history event id orderly next ih =>
      have before : ((sent history).map (·.id)).Nodup := by
        rwa [ids_sent, entered_echoed, ← ids_sent] at distinct
      rw [after_concat, answered_echoed, entered_echoed, ih before, follow, confirm,
        next.confirmIn? before]

/-- Answers are meant for the same requests with and without request ids, as long as those of one
kind and entity come in the order of the requests. After every step of such a history the two
ledgers are the same. They have exactly those operations that have an unanswered request, with the
answered ones confirmed; every answer is meant for something; and once everything has been answered
nothing is in flight.
-/
theorem Orderly.named_eq_unnamed (orderly : Orderly history)
    (distinct : ((sent history).map (·.id)).Nodup) (begins : past <+: history)
    : let ledger := after (fun _ => true) past
      after (fun _ => false) past = ledger
      ∧ ledger.operations = remaining (answered past) (entered past)
      ∧ (∀ operation ∈ entered past,
          (∃ held ∈ ledger.operations, held.ids = operation.ids)
          ↔ ∃ id ∈ operation.ids, id ∉ answered past)
      ∧ (∀ event id,
          past ++ [.echoed event id] <+: history
          → (ledger.confirm event.kind event.entity? (some id)).2 = true
            ∧ (ledger.confirm event.kind event.entity? none).2 = true)
      ∧ ((∀ request ∈ sent past, request.id ∈ answered past) → ledger = empty) := by
  intro ledger
  have distinctPast : ((sent past).map (·.id)).Nodup := by
    obtain ⟨future, rfl⟩ := begins
    rw [ids_sent, entered, List.filterMap_append, List.flatMap_append] at distinct
    rw [ids_sent]
    exact (List.nodup_append'.mp distinct).1
  have reached (repeats : RequestId → Bool) :=
    (orderly.beginning begins).after_eq distinctPast repeats
  have same : ledger = ⟨remaining (answered past) (entered past)⟩ := reached fun _ => true
  refine ⟨(reached fun _ => false).trans same.symm, congrArg operations same, ?_, ?_, ?_⟩
  · intro operation member
    rw [same]
    exact exists_mem_remaining_iff member
  · intro event id next
    have inTurn := (orderly.beginning next).inTurn
    have named := inTurn.confirmIn? distinctPast true
    have unnamed := inTurn.confirmIn? distinctPast false
    rw [if_pos rfl] at named
    rw [if_neg Bool.false_ne_true] at unnamed
    rw [same, confirm, confirm, named, unnamed]
    exact ⟨rfl, rfl⟩
  · intro done
    rw [same]
    refine congrArg mk (remaining_eq_nil fun operation member id inOperation => ?_)
    obtain ⟨request, inRequests, rfl⟩ := List.mem_map.mp inOperation
    exact done request (List.mem_flatMap.mpr ⟨operation, member, inRequests⟩)

/-- A post is moved to the front of its group and the group renamed, and the post is edited again.
The answers about the post come in order and the one about the group comes before them.
-/
theorem Orderly.named_eq_unnamed_interleaved
    : let post := Sample.post 11 10 1.0
      let edit (request : Nat) : Message Float :=
        ⟨.updatePost (PostEdit.nothing post.id post.board), some (.ofNat request)⟩
      let renamed : GroupPatch := { GroupPatch.nothing (.ofNat 10) with title := some "Plan" }
      let move : List (Message Float) :=
        [edit 90, ⟨.updateGroup ⟨.ofNat 1, renamed⟩, some (.ofNat 91)⟩]
      let history : List (Step Float) :=
        [.recorded move []] ++ [.recorded [edit 92] []]
          ++ [.echoed (.groupUpdated renamed) (.ofNat 91)]
          ++ [.echoed (.postUpdated post none) (.ofNat 90)]
      after (fun _ => false) history = after (fun _ => true) history
      ∧ (after (fun _ => false) history).operations.map (·.ids) = [[.ofNat 92]] := by
  intro post edit renamed move history
  have distinct : ((sent history).map (·.id)).Nodup := by decide
  have orderly : Orderly history := by
    refine .echoed (.echoed (.recorded (.recorded .nil _ _) _ _) ?_) ?_
    · exact ⟨by decide, [⟨.ofNat 90, .postUpdate, some post.id, false⟩], _, _, rfl, rfl, rfl, rfl,
        by decide⟩
    · exact ⟨by decide, [], _, _, rfl, rfl, rfl, rfl, by decide⟩
  obtain ⟨same, left, _⟩ := orderly.named_eq_unnamed distinct (List.prefix_refl history)
  rw [same, left]
  exact ⟨rfl, rfl⟩

end Ledger

end SharedBoard
