import SharedBoard.Proofs.Session.WellFormed
import SharedBoard.Proofs.Store.Face

/-! Convergence at rest. With nothing in flight, both boards of a session should look the same. They
do as long as every event that confirms the last operation in flight makes them so, and one event
that does not is enough to keep them apart.
-/

namespace SharedBoard.Session

/-- With nothing in flight, both boards look the same. -/
def Settled (session : Session) : Prop :=
  session.ledger.operations = [] → session.visible.Alike session.confirmed

/-- The event by which a frame takes the last operation in flight out of the ledger. -/
def lastConfirmation? (session : Session) (input : Input) : Option (Event Float) :=
  match input with
  | .transport (.message text) =>
      match Inbound.ofText text with
      | .ok (.applied event _) =>
          if !session.ledger.operations.isEmpty
              && (session.step input).session.ledger.operations.isEmpty then
            some event
          else
            none
      | _ => none
  | _ => none

/-- An event makes both boards look the same. -/
def Aligns (session : Session) (event : Event Float) : Prop :=
  (session.visible.reduce (session.user.map (·.id)) event).store.Alike
    (session.confirmed.reduce (session.user.map (·.id)) event).store

/-- Every event of a run that takes the last operation in flight out of the ledger makes both boards
look the same.
-/
def LastConfirmationsAlign (session : Session) : List Input → Prop
  | [] => True
  | input :: rest =>
      (∀ event, session.lastConfirmation? input = some event → session.Aligns event)
        ∧ (session.step input).session.LastConfirmationsAlign rest

variable {session : Session}

/-- After a frame with an event both boards look the same at rest exactly if the event makes them so
when it confirms the last operation in flight: boards that looked the same before go on doing so.
-/
theorem settled_onEvent_iff (sound : session.Sound) (settled : session.Settled) {text : String}
    {event : Event Float} {answer : Option RequestId}
    (read : Inbound.ofText text = .ok (.applied event answer))
    : (session.step (.transport (.message text))).session.Settled
      ↔ ∀ last, session.lastConfirmation? (.transport (.message text)) = some last
          → session.Aligns last := by
  have stepped : (session.step (.transport (.message text))).session
      = (session.onEvent event answer).session := by
    simp only [step, handle, onMessage, read]
  obtain ⟨visible, confirmed⟩ := session.boards_onEvent event answer
  have looks : (session.onEvent event answer).session.visible.Alike
      (session.onEvent event answer).session.confirmed ↔ session.Aligns event := by
    rw [visible, confirmed, Aligns]
  simp only [lastConfirmation?, read, stepped, Settled]
  by_cases after : (session.onEvent event answer).session.ledger.operations = []
  · by_cases before : session.ledger.operations = []
    · have aligned : session.Aligns event :=
        (settled before).reduce sound.visible sound.confirmed _ event
      simp [before, looks.mpr aligned]
    · simp [before, after, looks]
  · simp [after]

namespace Settled

/-- The handshake does not concern the boards. -/
theorem authenticate (settled : session.Settled) (generation : Nat)
    : (session.authenticate generation).session.Settled := by
  unfold Session.authenticate
  split
  · exact settled
  · exact settled

/-- After a roll back that leaves nothing in flight the visible board is the confirmed one. -/
theorem rollBack (settled : session.Settled) (kind : EventKind) (answer : Option RequestId)
    : (session.rollBack kind answer).session.Settled := by
  unfold Session.rollBack
  split
  · exact settled
  · next taken ledger refused =>
      intro atRest
      have nothing : ledger.mutations = [] := by
        rw [Ledger.mutations, show ledger.operations = [] from atRest, List.flatMap_nil]
      simp only [Ledger.replay, nothing, Mutation.applyAll_nil]
      rfl

/-- A refusal undoes an operation at most. -/
theorem onRejected (settled : session.Settled) (kind : EventKind) (message : String)
    (answer : Option RequestId)
    : (session.onRejected kind message answer).session.Settled := by
  unfold Session.onRejected
  split
  · exact settled
  · exact settled.rollBack kind answer

/-- Whatever the transport reports but an event is handled, by cases on the report. -/
theorem handle (settled : session.Settled) {report : TransportEvent}
    (noEvent : ∀ text event answer,
      report = .message text → Inbound.ofText text ≠ .ok (.applied event answer))
    : (session.handle report).session.Settled := by
  have reset : session.reset.session.Settled := fun _ => rfl
  cases report with
  | connecting => exact settled
  | opened generation =>
      simp only [Session.handle]
      split
      · exact settled
      · have followed : (session.reset.session.follow
            (session.reset.session.link.opened generation)).session.Settled := reset
        exact followed.authenticate generation
  | message text =>
      simp only [Session.handle, onMessage]
      split
      · next event answer read => exact absurd read (noEvent text event answer rfl)
      · exact settled.onRejected _ _ _
      · exact settled
  | closed reason => exact reset

/-- A gesture that is carried out is in flight, so the session is not at rest. -/
theorem gesture (settled : session.Settled) (gesture : Gesture) (fresh : Fresh)
    (requests : Nat → RequestId)
    : (session.step (.gesture gesture fresh requests)).session.Settled := by
  rcases session.gesture_cases gesture fresh requests with
    ⟨_, unchanged⟩ | ⟨plan, generation, _, ⟨actor, made⟩, committed⟩
  · rw [unchanged]
    exact settled
  · rw [committed]
    intro atRest
    rw [operations_commit made] at atRest
    exact absurd atRest (List.append_ne_nil_of_right_ne_nil _ (List.cons_ne_nil _ _))

/-- After any input both boards look the same at rest exactly if an event that confirms the last
operation in flight makes them so, by cases on the input.
-/
theorem step_iff (sound : session.Sound) (settled : session.Settled) (input : Input)
    : (session.step input).session.Settled
      ↔ ∀ event, session.lastConfirmation? input = some event → session.Aligns event := by
  cases input with
  | transport report =>
      by_cases frame : ∃ text event answer,
          report = .message text ∧ Inbound.ofText text = .ok (.applied event answer)
      · obtain ⟨text, event, answer, rfl, read⟩ := frame
        exact settled_onEvent_iff sound settled read
      · have noEvent (text : String) (event : Event Float) (answer : Option RequestId)
            (same : report = .message text)
            : Inbound.ofText text ≠ .ok (.applied event answer) :=
          fun read => frame ⟨text, event, answer, same, read⟩
        refine iff_of_true (settled.handle noEvent) fun event last => ?_
        cases report with
        | message text =>
            simp only [lastConfirmation?] at last
            split at last
            · next applied answer read => exact absurd read (noEvent text applied answer rfl)
            · simp at last
        | _ => simp [lastConfirmation?] at last
  | gesture gesture fresh requests =>
      refine iff_of_true (settled.gesture gesture fresh requests) ?_
      simp [lastConfirmation?]
  | focus post =>
      rw [session_step_focus]
      exact iff_of_true settled (by simp [lastConfirmation?])
  | setColor color => exact iff_of_true settled (by simp [lastConfirmation?])
  | close => exact iff_of_true settled (by simp [lastConfirmation?])

/-- Both boards look the same whenever a run is at rest exactly if all last confirmations make them
so, by induction over the inputs.
-/
theorem run_iff {inputs : List Input} (sound : session.Sound) (settled : session.Settled)
    (finite : session.keysStayFinite inputs = true)
    : (∀ before, before <+: inputs → (session.run before).session.Settled)
      ↔ session.LastConfirmationsAlign inputs := by
  induction inputs generalizing session with
  | nil =>
      refine iff_of_true (fun before isPrefix => ?_) trivial
      rw [List.prefix_nil.mp isPrefix]
      exact settled
  | cons input rest ih =>
      obtain ⟨now, later⟩ := keysStayFinite_cons.mp finite
      have soundNext := sound.step now
      constructor
      · intro all
        have next : (session.step input).session.Settled := by
          simpa only [run_cons, run_nil] using all [input] (List.prefix_append [input] rest)
        refine ⟨(step_iff sound settled input).mp next, ?_⟩
        refine (ih soundNext next later).mp fun before isPrefix => ?_
        rw [← run_cons]
        exact all (input :: before) ((List.prefix_cons_inj input).mpr isPrefix)
      · rintro ⟨first, others⟩ before isPrefix
        have next := (step_iff sound settled input).mpr first
        rcases List.prefix_cons_iff.mp isPrefix with rfl | ⟨tail, rfl, tailPrefix⟩
        · exact settled
        · rw [run_cons]
          exact (ih soundNext next later).mpr others tail tailPrefix

end Settled

-----------------------------------------------------------------------------------------
-- All runs
-----------------------------------------------------------------------------------------

/-- After every part of a run that leaves nothing in flight both boards look the same, exactly if
every event that confirms the last operation in flight makes them so. Refusals, resets and what
others do at rest never keep them apart.
-/
theorem boards_converge_iff (board : Board) {groups : List (Group Float)}
    (describable : Store.Describable groups)
    (finiteKeys : ∀ group ∈ groups, ∀ post ∈ group.posts, post.key.isFinite = true)
    (token : Option String) (color : Color) (grid : Option Int32) {inputs : List Input}
    (staysFinite : (start board groups token color grid).keysStayFinite inputs = true)
    : (∀ before, before <+: inputs
        → ((start board groups token color grid).run before).session.ledger.operations = []
        → ((start board groups token color grid).run before).session.visible.Alike
            ((start board groups token color grid).run before).session.confirmed)
      ↔ (start board groups token color grid).LastConfirmationsAlign inputs := by
  have sound := start_sound board describable finiteKeys token color grid
  have settled : (start board groups token color grid).Settled := fun _ => rfl
  exact settled.run_iff sound staysFinite

/-- The only post of the first group is deleted, which asks for the group to go. Before the server
answers, somebody moves the post of the second group into the first one.
-/
def movedIntoDeleted : List Input :=
  Sample.handshake
    ++ [.gesture (.deletePost (.ofNat 11)) Sample.fresh (Sample.requests 100),
        .transport (.message
          ("[\"post.update\",true,[[\"00000000-0000-0000-0000-000000000015\","
            ++ "\"00000000-0000-0000-0000-000000000001\","
            ++ "\"00000000-0000-0000-0000-000000000008\",\"\",\"#F5E6E8\",100,"
            ++ "\"00000000-0000-0000-0000-00000000000a\",2,"
            ++ "\"1970-01-01T00:00:00Z\",\"1970-01-01T00:00:00Z\"],null]]")),
        .transport (.message
          ("[\"post_group.delete\",true,[\"00000000-0000-0000-0000-00000000000a\"],null,"
            ++ "\"00000000-0000-0000-0000-000000000064\"]"))]

/-- The visible board did not follow the move, since the group was gone there; the confirmed one did,
and lost the post with the group.
-/
theorem group_left_movedIntoDeleted
    : ((start Sample.board Sample.pair (some "token") .lightPink none).run
        movedIntoDeleted).session.ledger.operations.isEmpty = true
      ∧ ((start Sample.board Sample.pair (some "token") .lightPink none).run
          movedIntoDeleted).session.visible.groups.contains (.ofNat 20) = true
      ∧ ((start Sample.board Sample.pair (some "token") .lightPink none).run
          movedIntoDeleted).session.confirmed.groups.contains (.ofNat 20) = false := by
  unfold start
  rw [Sample.ofGroups_pair]
  decide +kernel

/-- With nothing in flight the visible board still has a group that the confirmed one has not. -/
theorem boards_differ_movedIntoDeleted
    : Store.Describable Sample.pair
      ∧ ((start Sample.board Sample.pair (some "token") .lightPink none).run
          movedIntoDeleted).session.ledger.operations = []
      ∧ ¬ ((start Sample.board Sample.pair (some "token") .lightPink none).run
            movedIntoDeleted).session.visible.Alike
          ((start Sample.board Sample.pair (some "token") .lightPink none).run
            movedIntoDeleted).session.confirmed := by
  obtain ⟨atRest, shown, gone⟩ := group_left_movedIntoDeleted
  refine ⟨⟨by decide, by decide, by decide⟩, List.isEmpty_iff.mp atRest, fun alike => ?_⟩
  rw [alike.contains_eq, gone] at shown
  exact Bool.false_ne_true shown

/-- The event that keeps the boards apart is the last confirmation of that run. -/
theorem boards_converge_iff_movedIntoDeleted
    : ¬ (start Sample.board Sample.pair (some "token") .lightPink none).LastConfirmationsAlign
        movedIntoDeleted := by
  intro align
  obtain ⟨atRest, shown, gone⟩ := group_left_movedIntoDeleted
  have staysFinite
      : (start Sample.board Sample.pair (some "token") .lightPink none).keysStayFinite
          movedIntoDeleted = true := by
    unfold start
    rw [Sample.ofGroups_pair]
    decide +kernel
  have alike := (boards_converge_iff Sample.board ⟨by decide, by decide, by decide⟩ (by decide) _ _
    _ staysFinite).mpr align movedIntoDeleted (List.prefix_refl _) (List.isEmpty_iff.mp atRest)
  rw [alike.contains_eq, gone] at shown
  exact Bool.false_ne_true shown

end SharedBoard.Session
