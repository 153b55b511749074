import SharedBoard.Proofs.Plan.Mutation
import SharedBoard.Proofs.Store.Repeat

/-! Echoes of gestures. What a gesture changes at once, the server reports later; a board may get
both, in any number and at any time after the change was made for the first time.
-/

namespace SharedBoard

variable {κ : Type} [OrderKey κ]

/-- The state after several events, and what they rebuilt. -/
def Store.follow (store : Store κ) (localUser : Option UserId) (events : List (Event κ))
    : Update κ :=
  events.foldl (fun update event => update.andThen (·.reduce localUser event)) store.unchanged

/-- The state after several events, each followed from what the one before left. -/
theorem Store.follow_store (store : Store κ) (localUser : Option UserId) (events : List (Event κ))
    : (store.follow localUser events).store
      = events.foldl (fun store event => (store.reduce localUser event).store) store := by
  have fold (update : Update κ)
      : (events.foldl (fun update event => update.andThen (·.reduce localUser event))
          update).store
        = events.foldl (fun store event => (store.reduce localUser event).store) update.store := by
    induction events generalizing update with
    | nil => rfl
    | cons head rest ih => exact ih (update.andThen (·.reduce localUser head))
  exact fold store.unchanged

theorem Store.follow_cons (store : Store κ) (localUser : Option UserId) (event : Event κ)
    (rest : List (Event κ))
    : (store.follow localUser (event :: rest)).store
      = ((store.reduce localUser event).store.follow localUser rest).store := by
  rw [follow_store, follow_store, List.foldl_cons]

/-- Events that change nothing, one by one, change nothing together. -/
theorem Store.follow_of_unchanged {store : Store κ} {localUser : Option UserId}
    {events : List (Event κ)}
    (idle : ∀ event ∈ events, store.reduce localUser event = store.unchanged)
    : store.follow localUser events = store.unchanged := by
  unfold follow
  induction events with
  | nil => rfl
  | cons head rest ih =>
      obtain ⟨headIdle, restIdle⟩ := List.forall_mem_cons.mp idle
      rw [List.foldl_cons, unchanged_andThen headIdle]
      exact ih restIdle

/-- A change of the board that a gesture makes at once, and the event by which the server reports
it.
-/
structure Echo (κ : Type) where
  mutation : Mutation κ
  event : Event κ

namespace Echo

/-- Neither the change nor the event makes a difference on a board. -/
def Idle (localUser : Option UserId) (store : Store κ) (echo : Echo κ) : Prop :=
  echo.mutation.apply store = store.unchanged
  ∧ store.reduce localUser echo.event = store.unchanged

/-- From a board on which some echoes are idle, change and event lead to the same board one echo
after the other, and all echoes stay idle from then on.
-/
def Agree (localUser : Option UserId) (past : List (Echo κ)) (store : Store κ)
    : List (Echo κ) → Prop
  | [] => ∀ echo ∈ past, echo.Idle localUser store
  | echo :: rest =>
      (∀ echo ∈ past, echo.Idle localUser store)
      ∧ (store.reduce localUser echo.event).store = (echo.mutation.apply store).store
      ∧ Agree localUser (past ++ [echo]) (echo.mutation.apply store).store rest

variable {localUser : Option UserId} {past echoes : List (Echo κ)} {store : Store κ}

/-- Echoes that are idle change nothing when they are applied again. -/
theorem applyAll_of_idle (idle : ∀ echo ∈ echoes, echo.Idle localUser store)
    : (Mutation.applyAll (echoes.map (·.mutation)) store).store = store := by
  induction echoes with
  | nil => rfl
  | cons head rest ih =>
      obtain ⟨headIdle, restIdle⟩ := List.forall_mem_cons.mp idle
      rw [List.map_cons, Mutation.applyAll_cons, headIdle.1]
      exact ih restIdle

theorem Agree.past_idle (agree : Agree localUser past store echoes)
    : ∀ echo ∈ past, echo.Idle localUser store := by
  cases echoes with
  | nil => exact agree
  | cons head rest => exact agree.1

/-- Where echoes agree, all of them are idle in the end, by induction over the echoes. -/
theorem Agree.idle (agree : Agree localUser past store echoes)
    : ∀ echo ∈ past ++ echoes,
        echo.Idle localUser (Mutation.applyAll (echoes.map (·.mutation)) store).store := by
  induction echoes generalizing past store with
  | nil =>
      rw [List.append_nil]
      exact agree
  | cons head rest ih =>
      rw [List.map_cons, Mutation.applyAll_cons]
      simpa using ih agree.2.2

/-- Where echoes agree, the events lead to the same board as the changes, by induction over the
echoes.
-/
theorem Agree.follow (agree : Agree localUser past store echoes)
    : (store.follow localUser (echoes.map (·.event))).store
      = (Mutation.applyAll (echoes.map (·.mutation)) store).store := by
  induction echoes generalizing past store with
  | nil => rfl
  | cons head rest ih =>
      obtain ⟨_, same, later⟩ := agree
      rw [List.map_cons, List.map_cons, Store.follow_cons, Mutation.applyAll_cons, same]
      exact ih later

/-- Where echoes agree, all changes applied after some of the events lead to the same board as
without the events, by induction over the echoes.
-/
theorem Agree.replay (agree : Agree localUser past store echoes) (count : Nat)
    : (Mutation.applyAll ((past ++ echoes).map (·.mutation))
        (store.follow localUser ((echoes.map (·.event)).take count)).store).store
      = (Mutation.applyAll (echoes.map (·.mutation)) store).store := by
  induction echoes generalizing past store count with
  | nil =>
      rw [List.append_nil, List.map_nil, List.take_nil]
      exact applyAll_of_idle agree.past_idle
  | cons head rest ih =>
      cases count with
      | zero =>
          rw [List.take_zero, List.map_append, Mutation.applyAll_append]
          exact congrArg (fun store => (Mutation.applyAll _ store).store)
            (applyAll_of_idle agree.past_idle)
      | succ count =>
          obtain ⟨_, same, later⟩ := agree
          rw [List.map_cons, List.map_cons, List.take_succ_cons, Store.follow_cons, same,
            Mutation.applyAll_cons]
          simpa using ih later count

end Echo

end SharedBoard
