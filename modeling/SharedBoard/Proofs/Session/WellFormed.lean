import SharedBoard.Proofs.Ledger
import SharedBoard.Proofs.Plan.Made
import SharedBoard.Proofs.Session.Run
import SharedBoard.Proofs.Store.Described
import SharedBoard.Proofs.Wire.Numbers

/-! Good order over whole runs. Whatever happens to a session, both of its boards stay in good
order, as long as the keys that drops work out are finite.
-/

namespace SharedBoard.Session

/-- Whether all keys that are worked out for posts during a run are finite. -/
def keysStayFinite (session : Session) : List Input → Bool
  | [] => true
  | input :: rest =>
      (session.planFor? input).all (fun plan => plan.keys.all (·.isFinite))
        && (session.step input).session.keysStayFinite rest

/-- The keys of a run stay finite when those of its first plan are and the others stay so. -/
theorem keysStayFinite_cons {session : Session} {input : Input} {rest : List Input}
    : session.keysStayFinite (input :: rest) = true
      ↔ (∀ plan, session.planFor? input = some plan → ∀ key ∈ plan.keys, key.isFinite = true)
        ∧ (session.step input).session.keysStayFinite rest = true := by
  rw [keysStayFinite, Bool.and_eq_true]
  refine and_congr_left' ?_
  cases session.planFor? input with
  | none => simp
  | some plan => simp [List.all_eq_true]

/-- Both boards are in good order, and the mutations in flight keep a board so. -/
structure Sound (session : Session) : Prop where
  visible : session.visible.WellFormed
  confirmed : session.confirmed.WellFormed
  pending : ∀ mutation ∈ session.ledger.mutations, mutation.Admissible

namespace Sound

variable {session : Session}

theorem follow (sound : session.Sound) (step : Link × Option ConnectionState)
    : (session.follow step).session.Sound :=
  ⟨sound.visible, sound.confirmed, sound.pending⟩

theorem reset (sound : session.Sound) : session.reset.session.Sound := by
  have cleared := sound.visible.of_sameBoard session.visible.rosterCleared_sameBoard
  exact ⟨cleared, cleared, fun mutation member => absurd member List.not_mem_nil⟩

theorem close (sound : session.Sound) : session.close.session.Sound :=
  sound.follow _

/-- The handshake does not concern the boards. -/
theorem authenticate (sound : session.Sound) (generation : Nat)
    : (session.authenticate generation).session.Sound := by
  unfold Session.authenticate
  split
  · exact sound
  · exact sound.close

/-- The next step of the handshake does not concern the boards either. -/
theorem onAuthenticated (sound : session.Sound) (user : User)
    : (session.onAuthenticated user).session.Sound := by
  unfold Session.onAuthenticated
  split
  · exact sound
  · split
    · exact ⟨sound.visible, sound.confirmed, sound.pending⟩
    · exact sound

theorem confirm (sound : session.Sound) (kind : EventKind) (entity : Option Uuid)
    (answer : Option RequestId)
    : ({ session with ledger := (session.ledger.confirm kind entity answer).1 } : Session).Sound :=
  ⟨sound.visible, sound.confirmed, fun mutation member =>
    sound.pending mutation ((session.ledger.mutations_confirm_sublist ..).subset member)⟩

theorem reduceBoth (sound : session.Sound) {event : Event Float}
    (numbers : ∀ post ∈ event.arrivals, (post.key == post.key) = true)
    : (session.reduceBoth event).session.Sound :=
  ⟨sound.visible.reduce _ numbers, sound.confirmed.reduce _ numbers, sound.pending⟩

/-- Joining the board concerns the link alone. -/
theorem joinIfOwn (sound : session.Sound) (event : Event Float)
    : (session.joinIfOwn event).session.Sound := by
  unfold Session.joinIfOwn
  split
  · split
    · exact sound.follow _
    · exact sound
  · exact sound

/-- An event that brings numbers as keys is followed, whatever it answers. -/
theorem onEvent (sound : session.Sound) {event : Event Float}
    (numbers : ∀ post ∈ event.arrivals, (post.key == post.key) = true)
    (answer : Option RequestId)
    : (session.onEvent event answer).session.Sound := by
  unfold Session.onEvent
  split
  · exact sound.onAuthenticated _
  · exact ((sound.confirm _ _ answer).reduceBoth numbers).joinIfOwn event

/-- A roll back applies what is still in flight to the confirmed board. -/
theorem rollBack (sound : session.Sound) (kind : EventKind) (answer : Option RequestId)
    : (session.rollBack kind answer).session.Sound := by
  unfold Session.rollBack
  split
  · exact sound
  · next taken ledger refused =>
      have admissible : ∀ mutation ∈ ledger.mutations, mutation.Admissible := fun mutation member =>
        sound.pending mutation ((Ledger.mutations_reject?_sublist refused).subset member)
      exact ⟨Mutation.applyAll_wellFormed admissible sound.confirmed, sound.confirmed, admissible⟩

/-- A refusal undoes an operation at most. -/
theorem onRejected (sound : session.Sound) (kind : EventKind) (message : String)
    (answer : Option RequestId)
    : (session.onRejected kind message answer).session.Sound := by
  unfold Session.onRejected
  split
  · exact sound
  · exact sound.rollBack kind answer

/-- A frame is handled whatever is in it, since what it brings are numbers. -/
theorem onMessage (sound : session.Sound) (text : String)
    : (session.onMessage text).session.Sound := by
  unfold Session.onMessage
  split
  · next event answer read => exact sound.onEvent (Inbound.numbers_of_ofText? read) answer
  · exact sound.onRejected _ _ _
  · exact sound

/-- Whatever the transport reports is handled, by cases on the report. -/
theorem handle (sound : session.Sound) (event : TransportEvent)
    : (session.handle event).session.Sound := by
  cases event with
  | connecting => exact sound.follow _
  | opened generation =>
      simp only [Session.handle]
      split
      · exact sound
      · exact (sound.reset.follow _).authenticate generation
  | message text => exact sound.onMessage text
  | closed reason => exact sound.reset.follow _

/-- A plan is carried out on the visible board, if its mutations are admissible. -/
theorem commit (sound : session.Sound) (generation : Nat) {plan : Plan Float}
    (admissible : ∀ mutation ∈ plan.mutations, mutation.Admissible) (requests : Nat → RequestId)
    : (session.commit generation plan requests).session.Sound := by
  refine ⟨Mutation.applyAll_wellFormed admissible sound.visible, sound.confirmed, ?_⟩
  intro mutation member
  rcases Ledger.mem_mutations_record member with old | new
  · exact sound.pending mutation old
  · exact admissible mutation new

/-- A session stays sound with any input, if the keys that are worked out for it are finite, by
cases on the input.
-/
theorem step (sound : session.Sound) {input : Input}
    (finite : ∀ plan, session.planFor? input = some plan → ∀ key ∈ plan.keys, key.isFinite = true)
    : (session.step input).session.Sound := by
  cases input with
  | transport event => exact sound.handle event
  | gesture gesture fresh requests =>
      rcases session.gesture_cases gesture fresh requests with
        ⟨_, unchanged⟩ | ⟨plan, generation, planned, ⟨actor, made⟩, committed⟩
      · rw [unchanged]
        exact sound
      · have admissible := made.admissible fun key member =>
          OrderKey.Lawful.beq_self_of_isFinite (finite plan planned key member)
        have colored : ({ session with color := session.colorAfter gesture } : Session).Sound :=
          ⟨sound.visible, sound.confirmed, sound.pending⟩
        rw [committed]
        exact colored.commit generation admissible requests
  | focus post =>
      rw [session_step_focus]
      exact sound
  | setColor color => exact ⟨sound.visible, sound.confirmed, sound.pending⟩
  | close => exact sound.close

/-- A session stays sound over a run, by induction over the inputs. -/
theorem run {inputs : List Input} (sound : session.Sound)
    (finite : session.keysStayFinite inputs = true)
    : (session.run inputs).session.Sound := by
  induction inputs generalizing session with
  | nil => exact sound
  | cons input rest ih =>
      obtain ⟨now, later⟩ := keysStayFinite_cons.mp finite
      rw [run_cons]
      exact ih (sound.step now) later

end Sound

-----------------------------------------------------------------------------------------
-- All runs
-----------------------------------------------------------------------------------------

/-- A session that starts from groups with distinct posts and finite keys is sound. -/
theorem start_sound (board : Board) {groups : List (Group Float)}
    (describable : Store.Describable groups)
    (finiteKeys : ∀ group ∈ groups, ∀ post ∈ group.posts, post.key.isFinite = true)
    (token : Option String) (color : Color) (grid : Option Int32)
    : (start board groups token color grid).Sound := by
  have numbers (group : Group Float) (inGroups : group ∈ groups) (post : Post Float)
      (inGroup : post ∈ group.posts) : (post.key == post.key) = true :=
    OrderKey.Lawful.beq_self_of_isFinite (finiteKeys group inGroups post inGroup)
  have wellFormed := describable.wellFormed numbers
  exact ⟨wellFormed, wellFormed, fun mutation member => absurd member List.not_mem_nil⟩

/-- Both boards of a session are in good order after any run that starts from groups with distinct
posts and finite keys, if the keys that drops work out stay finite. No call on a board ever lowers
its highest z-index.
-/
theorem boards_stay_wellFormed (board : Board) {groups : List (Group Float)}
    (describable : Store.Describable groups)
    (finiteKeys : ∀ group ∈ groups, ∀ post ∈ group.posts, post.key.isFinite = true)
    (token : Option String) (color : Color) (grid : Option Int32) {inputs : List Input}
    (staysFinite : (start board groups token color grid).keysStayFinite inputs = true)
    : ((start board groups token color grid).run inputs).session.visible.WellFormed
      ∧ ((start board groups token color grid).run inputs).session.confirmed.WellFormed
      ∧ ∀ (reducer : Reducer Float) (store : Store Float),
          store.maxZ ≤ (reducer.run store).store.maxZ := by
  have started := start_sound board describable finiteKeys token color grid
  have reached := started.run staysFinite
  exact ⟨reached.visible, reached.confirmed, Reducer.maxZ_le_run⟩

/-- The first group is dropped on the post of the second one and the server refuses that; then it
deletes the second group, and the session closes.
-/
def mergeRefused : List Input :=
  Sample.handshake
    ++ [.gesture (.drop (.group (.ofNat 10)) (.post (.ofNat 21) true)) Sample.fresh
          (Sample.requests 100),
        .transport (.message
          "[\"post_group.delete\",false,null,null,\"00000000-0000-0000-0000-000000000065\"]"),
        .transport (.message
          "[\"post_group.delete\",true,[\"00000000-0000-0000-0000-000000000020\"]]"),
        .close]

/-- Both boards are in good order after the merge was refused. -/
theorem boards_stay_wellFormed_mergeRefused
    : ((start Sample.board Sample.pair (some "token") .lightPink none).run
        mergeRefused).session.visible.WellFormed
      ∧ ((start Sample.board Sample.pair (some "token") .lightPink none).run
          mergeRefused).session.confirmed.WellFormed
      ∧ ∀ (reducer : Reducer Float) (store : Store Float),
          store.maxZ ≤ (reducer.run store).store.maxZ := by
  refine boards_stay_wellFormed Sample.board ⟨by decide, by decide, by decide⟩ (by decide) _ _ _ ?_
  unfold start
  rw [Sample.ofGroups_pair]
  decide +kernel

end SharedBoard.Session
