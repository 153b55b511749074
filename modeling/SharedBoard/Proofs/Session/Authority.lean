import SharedBoard.Proofs.Session.Presence
import SharedBoard.Proofs.Session.Refusal

/-! The confirmed board belongs to the server. On one channel it follows the events that are
reported as successes and nothing else; what the user does meanwhile leaves no mark on it.
-/

namespace SharedBoard

/-- The board after several events, each followed for the user of its moment. -/
def Store.followAll (store : Store Float) (heard : List (Option UserId × Event Float))
    : Store Float :=
  heard.foldl (fun board (localUser, event) => (board.reduce localUser event).store) store

namespace Session

/-- The event that an input brings, if it is a success that is not about the token. -/
def Input.success? : Input → Option (Event Float)
  | .transport (.message text) =>
      match Inbound.ofText text with
      | .ok (.applied (.authenticated _) _) => none
      | .ok (.applied event _) => some event
      | _ => none
  | _ => none

/-- The successes of a run in order of arrival, each with the user who was authenticated at that
moment.
-/
def heard (session : Session) : List Input → List (Option UserId × Event Float)
  | [] => []
  | input :: rest =>
      (input.success?.map (session.user.map (·.id), ·)).toList
        ++ (session.step input).session.heard rest

variable {session : Session} {input : Input} {inputs : List Input}

/-- What the user does on the board is no success. -/
theorem Input.success?_of_inside (inside : input.isOutside = false) : input.success? = none := by
  cases input with
  | transport event => simp [isOutside] at inside
  | _ => rfl

/-- The events that are heard are the successes among the inputs, by induction over them. -/
theorem map_heard (session : Session) (inputs : List Input)
    : (session.heard inputs).map (·.2) = inputs.filterMap Input.success? := by
  induction inputs generalizing session with
  | nil => rfl
  | cons input rest ih =>
      rw [heard, List.map_append, ih, List.filterMap_cons]
      cases input.success? <;> rfl

-----------------------------------------------------------------------------------------
-- The confirmed board
-----------------------------------------------------------------------------------------

theorem confirmed_onRejected (session : Session) (kind : EventKind) (message : String)
    (answer : Option RequestId)
    : (session.onRejected kind message answer).session.confirmed = session.confirmed := by
  unfold onRejected
  split
  · rfl
  · unfold rollBack
    split <;> rfl

/-- A frame moves the confirmed board by the success that it brings, by cases on what it means. -/
theorem confirmed_onMessage (session : Session) (text : String)
    : (session.onMessage text).session.confirmed
      = session.confirmed.followAll
          ((Input.success? (.transport (.message text))).map
            (session.user.map (·.id), ·)).toList := by
  simp only [onMessage, Input.success?]
  cases Inbound.ofText text with
  | error _ => rfl
  | ok inbound =>
      cases inbound with
      | rejected kind message answer => exact confirmed_onRejected session kind message answer
      | applied event answer =>
          refine (session.boards_onEvent event answer).2.trans ?_
          cases event <;> rfl

/-- On one channel a step moves the confirmed board by the success that it brings, by cases on the
input.
-/
theorem confirmed_step (session : Session) (sameChannel : input.changesChannel = false)
    : (session.step input).session.confirmed
      = session.confirmed.followAll
          (input.success?.map (session.user.map (·.id), ·)).toList := by
  cases input with
  | transport event =>
      cases event with
      | connecting => rfl
      | message text => exact confirmed_onMessage session text
      | opened generation => simp [Input.changesChannel] at sameChannel
      | closed reason => simp [Input.changesChannel] at sameChannel
  | gesture gesture fresh requests =>
      rcases session.gesture_cases gesture fresh requests with
        ⟨_, unchanged⟩ | ⟨plan, generation, _, _, committed⟩
      · rw [unchanged]
        rfl
      · rw [committed]
        rfl
  | focus post => exact congrArg confirmed (session_step_focus session post)
  | setColor color => rfl
  | close => rfl

/-- On one channel a run moves the confirmed board by the successes that are heard, by induction
over the inputs.
-/
theorem confirmed_run (session : Session)
    (sameChannel : ∀ input ∈ inputs, input.changesChannel = false)
    : (session.run inputs).session.confirmed
      = session.confirmed.followAll (session.heard inputs) := by
  induction inputs generalizing session with
  | nil => rfl
  | cons input rest ih =>
      obtain ⟨now, later⟩ := List.forall_mem_cons.mp sameChannel
      rw [run_cons, ih _ later, confirmed_step session now, heard, Store.followAll,
        Store.followAll, Store.followAll, List.foldl_append]

-----------------------------------------------------------------------------------------
-- What is heard
-----------------------------------------------------------------------------------------

/-- On one channel the token does not matter for the presence. -/
theorem Presence.after_of_sameChannel (presence : Presence) (token other : Option String)
    (sameChannel : input.changesChannel = false)
    : presence.after token input = presence.after other input := by
  cases input with
  | transport event =>
      cases event with
      | opened generation => simp [Input.changesChannel] at sameChannel
      | _ => rfl
  | _ => rfl

/-- Sessions with the same presence hear the same, by induction over the inputs. -/
theorem heard_congr {other : Session} (same : other.presence = session.presence)
    (sameChannel : ∀ input ∈ inputs, input.changesChannel = false)
    : other.heard inputs = session.heard inputs := by
  induction inputs generalizing session other with
  | nil => rfl
  | cons input rest ih =>
      obtain ⟨now, later⟩ := List.forall_mem_cons.mp sameChannel
      have next : (other.step input).session.presence = (session.step input).session.presence := by
        rw [presence_step, presence_step, same]
        exact session.presence.after_of_sameChannel _ _ now
      have sameUser : other.user = session.user := congrArg Presence.user same
      rw [heard, heard, ih next later, sameUser]

/-- What the user does on the board is not heard and does not change what is heard, by induction
over the inputs.
-/
theorem heard_filter_isOutside (session : Session)
    (sameChannel : ∀ input ∈ inputs, input.changesChannel = false)
    : session.heard (inputs.filter Input.isOutside) = session.heard inputs := by
  induction inputs generalizing session with
  | nil => rfl
  | cons input rest ih =>
      obtain ⟨_, later⟩ := List.forall_mem_cons.mp sameChannel
      cases outside : input.isOutside with
      | true => rw [List.filter_cons_of_pos outside, heard, heard, ih _ later]
      | false =>
          have stays : (session.step input).session.presence = session.presence :=
            (presence_step session input).trans (Presence.after_of_inside _ _ outside)
          rw [List.filter_cons_of_neg (by simp [outside]), ih session later, heard,
            Input.success?_of_inside outside, heard_congr stays later]
          rfl

-----------------------------------------------------------------------------------------
-- All runs
-----------------------------------------------------------------------------------------

/-- On one channel the confirmed board is the one from before with the successes of the server
followed in order of arrival, focus only for others than the user of the moment. Two sessions that
begin with the same confirmed board at the same point of the handshake, and to which the same
happens from outside, end with the same confirmed board, whatever is done on them.
-/
theorem confirmed_follows_server (session : Session) {inputs : List Input}
    (sameChannel : ∀ input ∈ inputs, input.changesChannel = false)
    : (session.run inputs).session.confirmed = session.confirmed.followAll (session.heard inputs)
      ∧ (session.heard inputs).map (·.2) = inputs.filterMap Input.success?
      ∧ ∀ (other : Session) (others : List Input),
          other.confirmed = session.confirmed
          → other.presence = session.presence
          → others.filter Input.isOutside = inputs.filter Input.isOutside
          → (other.run others).session.confirmed = (session.run inputs).session.confirmed := by
  refine ⟨confirmed_run session sameChannel, map_heard session inputs, ?_⟩
  intro other others sameBoard samePresence sameOutside
  have othersSame : ∀ input ∈ others, input.changesChannel = false := by
    intro input member
    cases outside : input.isOutside with
    | true =>
        have inFilter : input ∈ others.filter Input.isOutside :=
          List.mem_filter.mpr ⟨member, outside⟩
        rw [sameOutside] at inFilter
        exact sameChannel input (List.mem_filter.mp inFilter).1
    | false =>
        cases input with
        | transport event => simp [Input.isOutside] at outside
        | _ => rfl
  calc (other.run others).session.confirmed
      = other.confirmed.followAll (other.heard others) := confirmed_run other othersSame
    _ = session.confirmed.followAll (session.heard others) := by
        rw [sameBoard, heard_congr samePresence othersSame]
    _ = session.confirmed.followAll (session.heard inputs) := by
        rw [← heard_filter_isOutside session othersSame, sameOutside,
          heard_filter_isOutside session sameChannel]
    _ = (session.run inputs).session.confirmed := (confirmed_run session sameChannel).symm

/-- The owner gives a group a title, somebody else moves it, and the title is refused. -/
def movedAndRefused : List Input :=
  [retitleFirst, movedByOther, .transport (.message retitleRefusal)]

/-- The title never shows on the confirmed board, which is that of a session on which only the move
and the refusal happened.
-/
theorem confirmed_follows_server_movedByOther
    : (∀ input ∈ movedAndRefused, input.changesChannel = false)
      ∧ (joined.run movedAndRefused).session.confirmed
        = (joined.run [movedByOther, .transport (.message retitleRefusal)]).session.confirmed
      ∧ ((joined.run movedAndRefused).session.confirmed.group? (.ofNat 10)).map
          (fun group => (group.x, group.title)) = some (70, "") := by
  have sameChannel : ∀ input ∈ movedAndRefused, input.changesChannel = false := by decide
  have moved
      : ((joined.run [movedByOther, .transport (.message retitleRefusal)]).session.confirmed.group?
          (.ofNat 10)).map (fun group => (group.x, group.title)) = some (70, "") := by
    rw [joined_eq]
    decide +kernel
  obtain ⟨_, _, alike⟩ := confirmed_follows_server joined sameChannel
  have same := alike joined [movedByOther, .transport (.message retitleRefusal)] rfl rfl rfl
  exact ⟨sameChannel, same.symm, same ▸ moved⟩

end Session

end SharedBoard
