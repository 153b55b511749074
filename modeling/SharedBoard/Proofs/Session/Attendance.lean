import SharedBoard.Proofs.Session.Run
import SharedBoard.Proofs.Store.Participants

/-! Who is on the board of a session. Both boards list the users whom the server named last on this
channel, without those who left since; what the user does never matters for it.
-/

namespace SharedBoard

/-- News about who is on a board: another channel, where nobody is known yet, a list of the users
who are connected, and the departure of one of them.
-/
inductive Attendance where
  | unknown
  | listed (users : List User)
  | departed (user : UserId)
deriving DecidableEq

namespace Attendance

def isDeparture : Attendance → Bool
  | .departed _ => true
  | _ => false

/-- The users who are on a board according to all news, oldest first. If the last news apart from
departures is a list, they are the users of that list, the first one of each identifier, without
those who departed since; otherwise nobody is there.
-/
def present (news : List Attendance) : List User :=
  let departures := news.reverse.takeWhile isDeparture
  match news.reverse.dropWhile isDeparture with
  | .listed users :: _ =>
      (users.eraseDupsBy (fun later earlier => later.id == earlier.id)).filter
        (fun user => !departures.contains (.departed user.id))
  | _ => []

/-- Nobody is known on another channel. -/
@[simp] theorem present_unknown (news : List Attendance) : present (news ++ [.unknown]) = [] := by
  rw [present, List.reverse_append]
  rfl

/-- A list of users counts alone. -/
@[simp] theorem present_listed (news : List Attendance) (users : List User)
    : present (news ++ [.listed users])
      = users.eraseDupsBy (fun later earlier => later.id == earlier.id) := by
  rw [present, List.reverse_append]
  exact List.filter_eq_self.mpr fun _ _ => rfl

/-- A user who departs is not there any more. -/
@[simp] theorem present_departed (news : List Attendance) (user : UserId)
    : present (news ++ [.departed user]) = (present news).filter (·.id != user) := by
  have first : (news ++ [departed user]).reverse = departed user :: news.reverse := by
    rw [List.reverse_append]
    rfl
  rw [present, present, first, List.takeWhile_cons_of_pos rfl, List.dropWhile_cons_of_pos rfl]
  split
  · rw [List.filter_filter]
    refine List.filter_congr fun other _ => ?_
    have same : (departed other.id == departed user) = (other.id == user) := by
      rw [Bool.eq_iff_iff, beq_iff_eq, beq_iff_eq, departed.injEq]
    rw [List.contains_cons, Bool.not_or, same]
    rfl
  · rfl

end Attendance

namespace Session

/-- The news that an input brings. A socket that is opened after the end of the session brings none.
-/
def attendance? (session : Session) : Input → Option Attendance
  | .transport (.opened _) => if session.link.isTerminal then none else some .unknown
  | .transport (.closed _) => some .unknown
  | .transport (.message text) =>
      match Inbound.ofText text with
      | .ok (.applied (.boardConnected connected newUser) _) =>
          some (.listed (connected ++ [newUser]))
      | .ok (.applied (.boardDisconnected user) _) => some (.departed user)
      | _ => none
  | _ => none

/-- All news of a run, oldest first. -/
def news (session : Session) : List Input → List Attendance
  | [] => []
  | input :: rest =>
      (session.attendance? input).toList ++ (session.step input).session.news rest

/-- Both boards list the users who are there according to some news, and nobody twice. -/
structure Attended (session : Session) (news : List Attendance) : Prop where
  visible : session.visible.users = Attendance.present news
  confirmed : session.confirmed.users = Attendance.present news
  visibleDistinct : session.visible.Distinct
  confirmedDistinct : session.confirmed.Distinct

namespace Attended

variable {session : Session} {news : List Attendance}

/-- On another channel nobody is there. -/
theorem of_nobody (visible : session.visible.roster = [])
    (confirmed : session.confirmed.roster = [])
    : session.Attended (news ++ [.unknown]) := by
  refine ⟨?_, ?_, Store.distinct_of_nobody visible, Store.distinct_of_nobody confirmed⟩
  · rw [Store.users, visible, Attendance.present_unknown, List.map_nil]
  · rw [Store.users, confirmed, Attendance.present_unknown, List.map_nil]

/-- Where people stop typing at most, the same users are there. -/
theorem quieter (attended : session.Attended news) {after : Session}
    (visible : session.visible.Quieter after.visible)
    (confirmed : session.confirmed.Quieter after.confirmed)
    : after.Attended news :=
  ⟨visible.users_eq.trans attended.visible, confirmed.users_eq.trans attended.confirmed,
    visible.distinct attended.visibleDistinct, confirmed.distinct attended.confirmedDistinct⟩

/-- Without news the same users are there. -/
theorem unmoved (attended : session.Attended news) : session.Attended (news ++ []) :=
  (List.append_nil news).symm ▸ attended

/-- The users on both boards are those that an event leaves there. -/
theorem onEvent (attended : session.Attended news) (event : Event Float)
    (answer : Option RequestId) {later : List Attendance}
    (follows : Store.usersAfter (Attendance.present news) event = Attendance.present later)
    : (session.onEvent event answer).session.Attended later := by
  obtain ⟨visible, confirmed⟩ := session.boards_onEvent event answer
  obtain ⟨visibleUsers, visibleDistinct⟩ :=
    Store.users_reduce attended.visibleDistinct (session.user.map (·.id)) event
  obtain ⟨confirmedUsers, confirmedDistinct⟩ :=
    Store.users_reduce attended.confirmedDistinct (session.user.map (·.id)) event
  rw [attended.visible, follows, ← visible] at visibleUsers
  rw [attended.confirmed, follows, ← confirmed] at confirmedUsers
  exact ⟨visibleUsers, confirmedUsers, visible ▸ visibleDistinct, confirmed ▸ confirmedDistinct⟩

/-- A roll back shows the users of the confirmed board, who are the same. -/
theorem onRejected (attended : session.Attended news) (kind : EventKind) (message : String)
    (answer : Option RequestId)
    : (session.onRejected kind message answer).session.Attended news := by
  unfold Session.onRejected
  split
  · exact attended
  · unfold Session.rollBack
    split
    · exact attended
    · next taken ledger _ =>
        have replayed : session.confirmed.Quieter (ledger.replay session.confirmed).store :=
          Store.quieter_applyAll ledger.mutations session.confirmed
        exact ⟨replayed.users_eq.trans attended.confirmed, attended.confirmed,
          replayed.distinct attended.confirmedDistinct, attended.confirmedDistinct⟩

/-- A frame brings the news that it is about, by cases on what it means. -/
theorem onMessage (attended : session.Attended news) (text : String)
    : (session.onMessage text).session.Attended
        (news ++ (session.attendance? (.transport (.message text))).toList) := by
  simp only [Session.onMessage, attendance?]
  cases Inbound.ofText text with
  | error _ => exact attended.unmoved
  | ok inbound =>
      cases inbound with
      | rejected kind message answer => exact (attended.onRejected kind message answer).unmoved
      | applied event answer =>
          refine attended.onEvent event answer ?_
          cases event with
          | boardConnected connected newUser => exact (Attendance.present_listed ..).symm
          | boardDisconnected user => exact (Attendance.present_departed ..).symm
          | _ => exact congrArg Attendance.present (List.append_nil news).symm

/-- Whatever the transport reports brings its news, by cases on the report. -/
theorem handle (attended : session.Attended news) (report : TransportEvent)
    : (session.handle report).session.Attended
        (news ++ (session.attendance? (.transport report)).toList) := by
  have nobody : session.visible.rosterCleared.store.roster = [] :=
    session.visible.roster_rosterCleared
  cases report with
  | connecting => exact unmoved (attended.quieter (.refl _) (.refl _))
  | message text => exact attended.onMessage text
  | closed reason => exact of_nobody nobody nobody
  | opened generation =>
      simp only [Session.handle, attendance?]
      split
      · exact attended.unmoved
      · simp only [Reaction.andThen, Session.authenticate]
        split
        · exact of_nobody nobody nobody
        · exact of_nobody nobody nobody

/-- Any input brings its news, by cases on it. -/
theorem step (attended : session.Attended news) (input : Input)
    : (session.step input).session.Attended (news ++ (session.attendance? input).toList) := by
  cases input with
  | transport report => exact attended.handle report
  | gesture gesture fresh requests =>
      refine unmoved ?_
      rcases session.gesture_cases gesture fresh requests with
        ⟨_, unchanged⟩ | ⟨plan, generation, _, _, committed⟩
      · rw [unchanged]
        exact attended
      · rw [committed]
        exact attended.quieter (Store.quieter_applyAll plan.mutations session.visible) (.refl _)
  | focus post =>
      rw [session_step_focus]
      exact attended.unmoved
  | setColor color => exact unmoved (attended.quieter (.refl _) (.refl _))
  | close => exact unmoved (attended.quieter (.refl _) (.refl _))

/-- A run brings all its news, by induction over the inputs. -/
theorem run (attended : session.Attended news) (inputs : List Input)
    : (session.run inputs).session.Attended (news ++ session.news inputs) := by
  induction inputs generalizing session news with
  | nil => exact attended.unmoved
  | cons input rest ih =>
      rw [run_cons, Session.news, ← List.append_assoc]
      exact ih (attended.step input)

end Attended

/-- At first nobody is there. -/
theorem attended_start (board : Board) (groups : List (Group Float)) (token : Option String)
    (color : Color) (grid : Option Int32)
    : (start board groups token color grid).Attended [] :=
  ⟨rfl, rfl, Store.distinct_of_nobody rfl, Store.distinct_of_nobody rfl⟩

/-- In every state that a session can reach, both boards list the users who are there according to
the news since the channel last changed, in the same order. Nobody is listed twice, and on neither
board two users are typing on one post. On another channel nobody is listed, and neither gestures
nor refusals bring anybody or take anybody away.
-/
theorem boards_list_present (board : Board) (groups : List (Group Float)) (token : Option String)
    (color : Color) (grid : Option Int32) (inputs : List Input)
    : let session := start board groups token color grid
      let reached := (session.run inputs).session
      reached.visible.users = Attendance.present (session.news inputs)
      ∧ reached.confirmed.users = reached.visible.users
      ∧ (reached.visible.users.map (·.id)).Nodup
      ∧ (reached.visible.roster.filterMap (·.typing)).Nodup
      ∧ (reached.confirmed.roster.filterMap (·.typing)).Nodup
      ∧ (∀ input,
          reached.attendance? input = some .unknown
          → (reached.step input).session.visible.roster = []
            ∧ (reached.step input).session.confirmed.roster = [])
      ∧ (∀ gesture fresh requests,
          let after := (reached.step (.gesture gesture fresh requests)).session
          after.visible.users = reached.visible.users
          ∧ after.confirmed.users = reached.confirmed.users)
      ∧ ∀ kind message answer,
          let after := (reached.onRejected kind message answer).session
          after.visible.users = reached.visible.users
          ∧ after.confirmed.users = reached.confirmed.users := by
  intro session reached
  have attended : reached.Attended (session.news inputs) :=
    (attended_start board groups token color grid).run inputs
  refine ⟨attended.visible, attended.confirmed.trans attended.visible.symm,
    attended.visibleDistinct.ids, attended.visibleDistinct.typing,
    attended.confirmedDistinct.typing, fun input changes => ?_,
    fun gesture fresh requests => ?_, fun kind message answer => ?_⟩
  · have after := attended.step input
    rw [changes] at after
    have visible := after.visible
    have confirmed := after.confirmed
    rw [Option.toList_some, Attendance.present_unknown, Store.users, List.map_eq_nil_iff]
      at visible confirmed
    exact ⟨visible, confirmed⟩
  · have after := attended.step (.gesture gesture fresh requests)
    have unmoved : session.news inputs
        ++ (reached.attendance? (.gesture gesture fresh requests)).toList = session.news inputs :=
      List.append_nil _
    rw [unmoved] at after
    exact ⟨after.visible.trans attended.visible.symm, after.confirmed.trans attended.confirmed.symm⟩
  · have after := attended.onRejected kind message answer
    exact ⟨after.visible.trans attended.visible.symm, after.confirmed.trans attended.confirmed.symm⟩

/-- The owner joins, is named twice for it, and another user leaves. -/
def companyLeft : List Input :=
  [.transport (.message
      ("[\"board.connect\",true,[null,[[\"00000000-0000-0000-0000-000000000007\",\"Ada\"],"
        ++ "[\"00000000-0000-0000-0000-000000000008\",\"Bo\"]],"
        ++ "[\"00000000-0000-0000-0000-000000000007\",\"Ada\"]]]")),
    .transport (.message
      "[\"board.disconnect\",true,[\"00000000-0000-0000-0000-000000000008\"]]")]

/-- The owner is listed once, and nobody is once the channel is lost. -/
theorem boards_list_present_companyLeft
    : let session := start Sample.board [] (some "token") .lightPink none
      let reached := (session.run companyLeft).session
      reached.visible.users.map (·.name) = ["Ada"]
      ∧ reached.confirmed.users.map (·.name) = ["Ada"]
      ∧ (reached.step (.transport (.closed "lost"))).session.visible.roster = [] := by
  dsimp only
  have present
      : (Attendance.present ((start Sample.board [] (some "token") .lightPink none).news
          companyLeft)).map (·.name) = ["Ada"] := by
    decide +kernel
  obtain ⟨visible, confirmed, _, _, _, emptied, _⟩ :=
    boards_list_present Sample.board [] (some "token") .lightPink none companyLeft
  rw [confirmed, visible]
  exact ⟨present, present, (emptied (.transport (.closed "lost")) rfl).1⟩

end Session

end SharedBoard
