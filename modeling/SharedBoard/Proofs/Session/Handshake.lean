import Mathlib.Data.List.Induction
import SharedBoard.Proofs.Session.Presence
import SharedBoard.Proofs.Transport

/-! The handshake on a socket. A message goes out only on the socket that was accepted last, after
the token; what changes the board follows the answer to the token, the wish to join, and the
report that the user who was authenticated has joined.
-/

namespace SharedBoard.Session

/-- Whether an input is the end of a socket or the beginning of another one. -/
def Input.leavesSocket : Input → Bool
  | .transport (.message _) => false
  | .transport _ => true
  | .close => true
  | _ => false

/-- A user was authenticated on a socket, was asked to be joined there, and still is the user when
the inputs since the socket was opened are over.
-/
def SignsIn (opened : Session) (generation : Nat) (since : List Input) (user : User) : Prop :=
  ∃ before text after answer,
    since = before ++ .transport (.message text) :: after
    ∧ Inbound.ofText text = .ok (.applied (.authenticated user) answer)
    ∧ ((opened.run before).session.step (.transport (.message text))).sent
      = [.message generation ⟨.connectBoard opened.board.id, none⟩]
    ∧ (opened.run since).session.user = some user

/-- The server named the user who was authenticated on a socket as the one who joins the board. -/
def Joins (opened : Session) (generation : Nat) (since : List Input) : Prop :=
  ∃ before text after user members newUser answer,
    since = before ++ .transport (.message text) :: after
    ∧ opened.SignsIn generation before user
    ∧ Inbound.ofText text = .ok (.applied (.boardConnected members newUser) answer)
    ∧ newUser.id = user.id

/-- The socket that a run is on: it was accepted, the token went out on it, and it was not left
since.
-/
structure Socket (session : Session) (inputs : List Input) (generation : Nat) where
  early : List Input
  since : List Input
  split : inputs = early ++ .transport (.opened generation) :: since
  accepted : (session.run early).session.link.isTerminal = false
  begun
    : ∃ jwt,
        ((session.run early).session.step (.transport (.opened generation))).sent
        = [.message generation ⟨.authenticate jwt, none⟩]
  kept : ∀ input ∈ since, input.leavesSocket = false

variable {session : Session} {inputs : List Input} {generation : Nat}

namespace Socket

/-- The session when the socket was opened. -/
def opened (socket : session.Socket inputs generation) : Session :=
  ((session.run socket.early).session.step (.transport (.opened generation))).session

theorem run_eq (socket : session.Socket inputs generation)
    : (session.run inputs).session = (socket.opened.run socket.since).session := by
  conv_lhs => rw [socket.split, run_append]
  exact run_cons ..

/-- A run stays on its socket with any input that does not leave it. -/
def concat (socket : session.Socket inputs generation) {last : Input}
    (stays : last.leavesSocket = false)
    : session.Socket (inputs ++ [last]) generation :=
  { socket with
    since := socket.since ++ [last]
    split := (congrArg (· ++ [last]) socket.split).trans (List.append_assoc ..)
    kept := List.forall_mem_append.mpr ⟨socket.kept, List.forall_mem_singleton.mpr stays⟩ }

/-- The socket that was opened last, if it is accepted and there is a token. -/
def ofOpened (accepted : (session.run inputs).session.link.isTerminal = false) {jwt : String}
    (token : (session.run inputs).session.token = some jwt)
    : session.Socket (inputs ++ [.transport (.opened generation)]) generation where
  early := inputs
  since := []
  split := rfl
  accepted := accepted
  begun := ⟨jwt, by
    rw [sent_of_outside _ rfl, token]
    simp [Presence.asks, accepted]⟩
  kept := List.forall_mem_nil _

/-- How far the handshake on a socket has come, as the link has it. -/
structure Reached (socket : session.Socket inputs generation) : Prop where
  current : (session.run inputs).session.link.generation = some generation
  signedIn
    : (session.run inputs).session.link.state = .authenticating
      → (session.run inputs).session.link.isAuthenticated = true
      → ∃ user, socket.opened.SignsIn generation socket.since user
  joined
    : (session.run inputs).session.link.state = .connected
      → socket.opened.Joins generation socket.since

end Socket

/-- A session that is terminal is closing or closed, and one that is past connecting is on a socket
with a handshake as far as the link has it.
-/
structure Attends (session : Session) (inputs : List Input) : Prop where
  ends
    : (session.run inputs).session.link.isTerminal = true
      → (session.run inputs).session.link.state = .closing
        ∨ (session.run inputs).session.link.state = .closed
  present
    : (session.run inputs).session.link.state = .authenticating
        ∨ (session.run inputs).session.link.state = .connected
      → ∃ generation, ∃ socket : session.Socket inputs generation, socket.Reached

-----------------------------------------------------------------------------------------
-- Steps
-----------------------------------------------------------------------------------------

/-- Signing in lasts while the user is the same. -/
theorem SignsIn.concat {opened : Session} {since : List Input} {user : User} {last : Input}
    (signed : opened.SignsIn generation since user)
    (same : (opened.run (since ++ [last])).session.user = (opened.run since).session.user)
    : opened.SignsIn generation (since ++ [last]) user := by
  obtain ⟨before, text, after, answer, split, read, asked, current⟩ := signed
  exact ⟨before, text, after ++ [last], answer, by simp [split], read, asked, same.trans current⟩

/-- A board that was joined on a socket stays so. -/
theorem Joins.concat {opened : Session} {since : List Input} (joins : opened.Joins generation since)
    (last : Input)
    : opened.Joins generation (since ++ [last]) := by
  obtain ⟨before, text, after, user, members, newUser, answer, split, signed, read, same⟩ := joins
  exact ⟨before, text, after ++ [last], user, members, newUser, answer, by simp [split], signed,
    read, same⟩

/-- An input that leaves the presence as it is leaves the handshake where it is. -/
theorem Attends.concat_of_same (attends : session.Attends inputs) {last : Input}
    (same
      : (session.run (inputs ++ [last])).session.presence = (session.run inputs).session.presence)
    (stays : last.leavesSocket = false)
    : session.Attends (inputs ++ [last]) := by
  have sameLink : (session.run (inputs ++ [last])).session.link
      = (session.run inputs).session.link := congrArg Presence.link same
  have sameUser : (session.run (inputs ++ [last])).session.user
      = (session.run inputs).session.user := congrArg Presence.user same
  refine ⟨?_, ?_⟩
  · rw [sameLink]
    exact attends.ends
  · intro active
    rw [sameLink] at active
    obtain ⟨generation, socket, reached⟩ := attends.present active
    refine ⟨generation, socket.concat stays, ?_, ?_, ?_⟩
    · rw [sameLink]
      exact reached.current
    · rw [sameLink]
      intro waiting authenticated
      obtain ⟨user, signed⟩ := reached.signedIn waiting authenticated
      refine ⟨user, signed.concat ?_⟩
      rw [← socket.run_eq]
      exact ((socket.concat stays).run_eq ▸ sameUser :)
    · rw [sameLink]
      intro connected
      exact (reached.joined connected).concat last

/-- The presence after a last input. -/
theorem presence_run_concat (session : Session) (inputs : List Input) (last : Input)
    : (session.run (inputs ++ [last])).session.presence
      = (session.run inputs).session.presence.after session.token last := by
  rw [run_concat, presence_step, (session.board_and_token_run inputs).2]

/-- A user who is awaited on a socket signs in with the answer to the token. -/
theorem Attends.authenticated (attends : session.Attends inputs) {text : String} {user : User}
    {answer : Option RequestId}
    (read : Inbound.ofText text = .ok (.applied (.authenticated user) answer))
    (awaited : (session.run inputs).session.presence.signingIn?.isSome = true)
    : session.Attends (inputs ++ [.transport (.message text)]) := by
  have waiting : (session.run inputs).session.link.state = .authenticating := by
    by_contra other
    simp [Presence.signingIn?, other] at awaited
  have after : (session.run (inputs ++ [.transport (.message text)])).session.presence
      = ⟨(session.run inputs).session.link.authenticated, some user⟩ := by
    rw [presence_run_concat]
    simp only [Presence.after, Presence.afterFrame, read, if_pos awaited, presence_link]
  have link : (session.run (inputs ++ [.transport (.message text)])).session.link
      = { (session.run inputs).session.link with isAuthenticated := true } :=
    (congrArg Presence.link after).trans (if_pos waiting)
  obtain ⟨generation, socket, reached⟩ := attends.present (.inl waiting)
  have found : (session.run inputs).session.presence.signingIn? = some generation :=
    (if_pos waiting).trans reached.current
  have sent
      : ((socket.opened.run socket.since).session.step (.transport (.message text))).sent
        = [.message generation ⟨.connectBoard socket.opened.board.id, none⟩] := by
    have sameBoard : (session.run inputs).session.board = socket.opened.board := by
      rw [socket.run_eq]
      exact (socket.opened.board_and_token_run socket.since).1
    rw [← socket.run_eq, sent_of_outside _ rfl]
    simp only [Presence.asks, read, found, sameBoard]
    rfl
  refine ⟨?_, fun _ => ⟨generation, socket.concat rfl, ?_, ?_, ?_⟩⟩
  · rw [link]
    exact attends.ends
  · rw [link]
    exact reached.current
  · intro _ _
    refine ⟨user, socket.since, text, [], answer, rfl, read, sent, ?_⟩
    exact (congrArg Session.user (socket.concat rfl).run_eq).symm.trans
      (congrArg Presence.user after)
  · rw [link]
    intro connected
    exact absurd (waiting.symm.trans connected) (by decide)

/-- A user who signed in on a socket joins the board when the server says so. -/
theorem Attends.joined (attends : session.Attends inputs) {text : String} {members : List User}
    {newUser : User} {answer : Option RequestId}
    (read : Inbound.ofText text = .ok (.applied (.boardConnected members newUser) answer))
    (own : (session.run inputs).session.user.map (·.id) = some newUser.id)
    : session.Attends (inputs ++ [.transport (.message text)]) := by
  have after : (session.run (inputs ++ [.transport (.message text)])).session.presence
      = ⟨(session.run inputs).session.link.boardJoined.1, (session.run inputs).session.user⟩ := by
    have same : (session.run inputs).session.presence.user.map (·.id) = some newUser.id := own
    rw [presence_run_concat]
    simp only [Presence.after, Presence.afterFrame, read, if_pos same]
    rfl
  by_cases ready : (session.run inputs).session.link.state = .authenticating
      ∧ (session.run inputs).session.link.isAuthenticated = true
  · have link : (session.run (inputs ++ [.transport (.message text)])).session.link
        = { (session.run inputs).session.link with state := .connected } := by
      refine (congrArg Presence.link after).trans ?_
      simp only [Link.boardJoined, if_pos ready, Link.enter]
    obtain ⟨generation, socket, reached⟩ := attends.present (.inl ready.1)
    obtain ⟨user, signed⟩ := reached.signedIn ready.1 ready.2
    have sameId : newUser.id = user.id := by
      obtain ⟨_, _, _, _, _, _, _, current⟩ := signed
      rw [socket.run_eq, current] at own
      exact (Option.some.inj own).symm
    refine ⟨?_, fun _ => ⟨generation, socket.concat rfl, ?_, ?_, ?_⟩⟩
    · rw [link]
      intro terminal
      have ended := attends.ends terminal
      simp [ready.1] at ended
    · rw [link]
      exact reached.current
    · rw [link]
      simp
    · intro _
      exact ⟨socket.since, text, [], user, members, newUser, answer, rfl, signed, read, sameId⟩
  · refine attends.concat_of_same ?_ rfl
    rw [after, Link.boardJoined, if_neg ready]
    rfl

/-- Whatever frame arrives, the handshake stays or goes on, by cases on what the frame means. -/
theorem Attends.message (attends : session.Attends inputs) (text : String)
    : session.Attends (inputs ++ [.transport (.message text)]) := by
  have unmoved
      (same : (session.run inputs).session.presence.afterFrame text
        = (session.run inputs).session.presence)
      : session.Attends (inputs ++ [.transport (.message text)]) :=
    attends.concat_of_same ((presence_run_concat ..).trans same) rfl
  cases read : Inbound.ofText text with
  | error _ => exact unmoved (by simp only [Presence.afterFrame, read])
  | ok inbound =>
      cases inbound with
      | rejected kind message answer => exact unmoved (by simp only [Presence.afterFrame, read])
      | applied event answer =>
          cases event with
          | authenticated user =>
              by_cases awaited : (session.run inputs).session.presence.signingIn?.isSome = true
              · exact attends.authenticated read awaited
              · exact unmoved (by simp only [Presence.afterFrame, read, if_neg awaited])
          | boardConnected members newUser =>
              by_cases own
                  : (session.run inputs).session.presence.user.map (·.id) = some newUser.id
              · exact attends.joined read own
              · exact unmoved (by simp only [Presence.afterFrame, read, if_neg own])
          | _ => exact unmoved (by simp only [Presence.afterFrame, read])

/-- A link that is neither authenticating nor connected, and closing or closed if it is terminal. -/
structure IsAway (link : Link) : Prop where
  ends : link.isTerminal = true → link.state = .closing ∨ link.state = .closed
  notSigningIn : link.state ≠ .authenticating
  notConnected : link.state ≠ .connected

/-- A session that is away attends. -/
theorem IsAway.attends {link : Link} (away : IsAway link)
    (now : (session.run inputs).session.link = link)
    : session.Attends inputs := by
  subst now
  exact ⟨away.ends, fun active => (active.elim away.notSigningIn away.notConnected).elim⟩

/-- A terminal session is away. -/
theorem Attends.isAway (attends : session.Attends inputs)
    (terminal : (session.run inputs).session.link.isTerminal = true)
    : IsAway (session.run inputs).session.link := by
  refine ⟨attends.ends, ?_, ?_⟩ <;>
    rcases attends.ends terminal with closing | closed <;>
    simp [*]

/-- The end of a session takes it away. -/
theorem Attends.isAway_closeRequested (attends : session.Attends inputs)
    : IsAway (session.run inputs).session.link.closeRequested.1 := by
  unfold Link.closeRequested
  split
  · next terminal => exact attends.isAway terminal
  · cases (session.run inputs).session.link.generation <;> constructor <;> simp [Link.enter]

/-- So does another attempt to connect. -/
theorem Attends.isAway_connecting (attends : session.Attends inputs)
    : IsAway (session.run inputs).session.link.connecting.1 := by
  unfold Link.connecting
  split
  · next terminal => exact attends.isAway terminal
  · next running => constructor <;> simp [Link.enter, running]

/-- With an open socket the handshake begins, unless the session is over or has no token. -/
theorem Attends.opened (attends : session.Attends inputs) (generation : Nat)
    : session.Attends (inputs ++ [.transport (.opened generation)]) := by
  have after := presence_run_concat session inputs (.transport (.opened generation))
  by_cases terminal : (session.run inputs).session.link.isTerminal = true
  · refine (attends.isAway terminal).attends ((congrArg Presence.link after).trans ?_)
    simp only [Presence.after, presence_link, terminal, if_true]
  · cases token : session.token with
    | none =>
        have closing : (session.run (inputs ++ [.transport (.opened generation)])).session.link
            = ⟨.closing, some generation, false, true⟩ := by
          refine (congrArg Presence.link after).trans ?_
          simp [Presence.after, terminal, token, Link.opened, Link.enter, Link.closeRequested]
        exact IsAway.attends (by constructor <;> simp) closing
    | some jwt =>
        have link : (session.run (inputs ++ [.transport (.opened generation)])).session.link
            = ⟨.authenticating, some generation, false, false⟩ := by
          refine (congrArg Presence.link after).trans ?_
          simp [Presence.after, terminal, token, Link.opened, Link.enter]
        have held : (session.run inputs).session.token = some jwt :=
          (session.board_and_token_run inputs).2.trans token
        refine ⟨by simp [link], fun _ => ⟨generation, .ofOpened (by simpa using terminal) held, ?_⟩⟩
        exact ⟨by rw [link], by simp [link], by simp [link]⟩

/-- A session attends after any further input, by cases on the input. -/
theorem Attends.concat (attends : session.Attends inputs) (last : Input)
    : session.Attends (inputs ++ [last]) := by
  have after := presence_run_concat session inputs last
  cases last with
  | transport event =>
      cases event with
      | message text => exact attends.message text
      | opened generation => exact attends.opened generation
      | connecting => exact attends.isAway_connecting.attends (congrArg Presence.link after)
      | closed reason =>
          refine IsAway.attends ?_ (congrArg Presence.link after)
          constructor <;> simp [Presence.after, Link.dropped, Link.enter]
  | close => exact attends.isAway_closeRequested.attends (congrArg Presence.link after)
  | _ => exact attends.concat_of_same (after.trans (Presence.after_of_inside _ _ rfl)) rfl

-----------------------------------------------------------------------------------------
-- Runs
-----------------------------------------------------------------------------------------

/-- A session that begins away attends after any run, by induction over the run from its end. -/
theorem attends_run (away : IsAway session.link) (inputs : List Input)
    : session.Attends inputs := by
  induction inputs using List.reverseRecOn with
  | nil => exact away.attends rfl
  | append_singleton early last ih => exact ih.concat last

/-- How a command comes to go out on a socket for an input after a run: as the token when the
socket is accepted, as the wish to join when a user is authenticated on the socket that the run is
on, or as something about the board when it was joined there and the user does something.
-/
inductive Sends (session : Session) (inputs : List Input) (generation : Nat)
    : Input → Command Float → Prop
  | token {jwt : String} (accepted : (session.run inputs).session.link.isTerminal = false)
    (token : session.token = some jwt)
    : Sends session inputs generation (.transport (.opened generation)) (.authenticate jwt)
  | join {text : String} {user : User} {answer : Option RequestId}
    (socket : session.Socket inputs generation)
    (read : Inbound.ofText text = .ok (.applied (.authenticated user) answer))
    : Sends session inputs generation (.transport (.message text)) (.connectBoard session.board.id)
  | act {input : Input} {command : Command Float} (socket : session.Socket inputs generation)
    (joins : socket.opened.Joins generation socket.since) (inside : input.isOutside = false)
    (noToken : command.kind ≠ .userAuthenticate) (noJoin : command.kind ≠ .boardConnect)
    : Sends session inputs generation input command

/-- A message goes out on the socket that a run is on, and as the handshake there allows, by cases
on the input.
-/
theorem sends_of_sent (away : IsAway session.link) {last : Input} {message : Message Float}
    (sent : .message generation message ∈ ((session.run inputs).session.step last).sent)
    : session.Sends inputs generation last message.command := by
  have before := attends_run away inputs
  cases outside : last.isOutside with
  | false =>
      obtain ⟨_, _, same, connected, found, noToken, noJoin⟩ := message_of_inside outside sent
      obtain ⟨rfl, rfl⟩ := Outgoing.message.inj same
      obtain ⟨current, socket, reached⟩ := before.present (.inr connected)
      obtain rfl : current = generation := Option.some.inj (reached.current.symm.trans found)
      exact .act socket (reached.joined connected) outside noToken noJoin
  | true =>
      rw [sent_of_outside _ outside, (session.board_and_token_run inputs).1,
        (session.board_and_token_run inputs).2] at sent
      cases Presence.asked_of_mem sent with
      | token running held => exact .token running held
      | join read awaited =>
          obtain ⟨waiting, found⟩ := Presence.generation_of_signingIn? awaited
          obtain ⟨current, socket, reached⟩ := before.present (.inl waiting)
          obtain rfl : current = generation := Option.some.inj (reached.current.symm.trans found)
          exact .join socket read

-----------------------------------------------------------------------------------------
-- The end of a session
-----------------------------------------------------------------------------------------

/-- Whether a session with the given token is over for good after an input. -/
def Input.isFinal (token : Option String) : Input → Bool
  | .close => true
  | .transport (.opened _) => token.isNone
  | _ => false

/-- A session that is over stays so, and only a final input ends one that is not, by cases on the
input.
-/
theorem Presence.isTerminal_after (presence : Presence) (token : Option String) (input : Input)
    : (presence.after token input).link.isTerminal
      = (presence.link.isTerminal || input.isFinal token) := by
  cases input with
  | transport event =>
      cases event with
      | connecting =>
          simp only [after, Link.connecting, Link.enter, Input.isFinal, Bool.or_false]
          split <;> rfl
      | opened generation =>
          cases terminal : presence.link.isTerminal with
          | true => simp [after, terminal]
          | false =>
              cases token <;>
                simp [after, terminal, Link.opened, Link.enter, Link.closeRequested, Input.isFinal]
      | message text =>
          have joined : presence.link.boardJoined.1.isTerminal = presence.link.isTerminal := by
            unfold Link.boardJoined
            split <;> rfl
          have authenticated : presence.link.authenticated.isTerminal
              = presence.link.isTerminal := by
            unfold Link.authenticated
            split <;> rfl
          simp only [after, afterFrame, Input.isFinal, Bool.or_false]
          split
          · split <;> simp [authenticated]
          · split <;> simp [joined]
          · rfl
      | closed reason => simp [after, Link.dropped, Link.enter, Input.isFinal]
  | close =>
      simp only [after, Link.closeRequested, Link.enter, Input.isFinal, Bool.or_true]
      split
      · assumption
      · rfl
  | _ => simp [after, Input.isFinal]

/-- A session is over exactly when one of its inputs was final, by induction over the run from its
end.
-/
theorem isTerminal_run (session : Session) (inputs : List Input)
    : (session.run inputs).session.link.isTerminal
      = (session.link.isTerminal || inputs.any (Input.isFinal session.token)) := by
  induction inputs using List.reverseRecOn with
  | nil => simp
  | append_singleton early last ih =>
      have after := congrArg (·.link.isTerminal) (presence_run_concat session early last)
      refine after.trans ((Presence.isTerminal_after ..).trans ?_)
      rw [presence_link, ih, List.any_append, List.any_cons, List.any_nil, Bool.or_false,
        Bool.or_assoc]

/-- A session that asked for the end of its transport is over, by induction over the run from its
end.
-/
theorem isTerminal_of_shutdown {session : Session} {inputs : List Input}
    (sent : .shutdown ∈ (session.run inputs).sent)
    : (session.run inputs).session.link.isTerminal = true := by
  induction inputs using List.reverseRecOn with
  | nil => simp [run, Reaction.quiet] at sent
  | append_singleton early last ih =>
      have after := congrArg (·.link.isTerminal) (presence_run_concat session early last)
      refine after.trans ((Presence.isTerminal_after ..).trans ?_)
      rw [sent_run_concat] at sent
      rcases List.mem_append.mp sent with before | now
      · rw [presence_link, ih before, Bool.true_or]
      · cases outside : last.isOutside with
        | false =>
            obtain ⟨_, _, same, _⟩ := message_of_inside outside now
            simp at same
        | true =>
            rw [sent_of_outside _ outside, (session.board_and_token_run early).2] at now
            cases Presence.asked_of_mem now with
            | tokenless missing => simp [Input.isFinal, missing]
            | close => simp [Input.isFinal]

theorem exists_isFinal_iff {token : Option String}
    : (∃ input ∈ inputs, input.isFinal token = true)
      ↔ .close ∈ inputs
        ∨ token = none ∧ ∃ generation, .transport (.opened generation) ∈ inputs := by
  constructor
  · rintro ⟨input, member, final⟩
    cases input with
    | transport event =>
        cases event with
        | opened generation => exact .inr ⟨by simpa [Input.isFinal] using final, generation, member⟩
        | _ => simp [Input.isFinal] at final
    | close => exact .inl member
    | _ => simp [Input.isFinal] at final
  · rintro (closed | ⟨rfl, generation, opened⟩)
    · exact ⟨_, closed, rfl⟩
    · exact ⟨_, opened, rfl⟩

/-- Nothing was final before a socket on which a run is, nor since. -/
theorem Socket.not_isFinal (socket : session.Socket inputs generation) {input : Input}
    (member : input ∈ inputs)
    : input.isFinal session.token = false := by
  have accepted := socket.accepted
  rw [isTerminal_run, Bool.or_eq_false_iff, List.any_eq_false] at accepted
  rw [socket.split, List.mem_append, List.mem_cons] at member
  rcases member with early | rfl | late
  · simpa using accepted.2 input early
  · obtain ⟨jwt, sent⟩ := socket.begun
    rw [sent_of_outside _ rfl, (session.board_and_token_run _).2] at sent
    cases token : session.token with
    | some jwt => rfl
    | none => simp [Presence.asks, socket.accepted, token] at sent
  · have kept := socket.kept input late
    cases input with
    | transport event => cases event <;> simp_all [Input.leavesSocket, Input.isFinal]
    | close => simp [Input.leavesSocket] at kept
    | _ => rfl

/-- A session that is on a socket was not closed. -/
theorem Socket.close_notMem (socket : session.Socket inputs generation) : .close ∉ inputs :=
  fun member => Bool.true_eq_false.mp (socket.not_isFinal member)

-----------------------------------------------------------------------------------------
-- What went out
-----------------------------------------------------------------------------------------

/-- A message that goes out on a socket after others follows the handshake: the token comes first,
and the wish to join comes before what is about the board.
-/
structure Follows (board : BoardId) (early : List (Message Float)) (message : Message Float)
    : Prop where
  token : early = [] → message.command.kind = .userAuthenticate
  join
    : message.command.kind ≠ .userAuthenticate
      → message.command.kind ≠ .boardConnect
      → ⟨.connectBoard board, none⟩ ∈ early

/-- Messages of which each follows the handshake. -/
def InOrder (board : BoardId) (messages : List (Message Float)) : Prop :=
  ∀ early message late, messages = early ++ message :: late → Follows board early message

/-- A message follows the handshake if it did so a while ago. -/
theorem Follows.append {board : BoardId} {early : List (Message Float)} {message : Message Float}
    (follows : Follows board early message) (more : List (Message Float))
    : Follows board (early ++ more) message where
  token nothing := follows.token (List.append_eq_nil_iff.mp nothing).1
  join noToken noJoin := List.mem_append_left _ (follows.join noToken noJoin)

/-- Messages that went out first are in order. -/
theorem InOrder.of_prefix {board : BoardId} {some all : List (Message Float)}
    (inOrder : InOrder board all) (first : some <+: all)
    : InOrder board some := by
  obtain ⟨rest, rfl⟩ := first
  intro early message late split
  exact inOrder early message (late ++ rest) (by simp [split])

/-- Messages in order stay so with others that follow the handshake. -/
theorem InOrder.append {board : BoardId} {messages more : List (Message Float)}
    (inOrder : InOrder board messages) (follow : ∀ message ∈ more, Follows board messages message)
    : InOrder board (messages ++ more) := by
  intro early message late split
  rcases List.append_eq_append_iff.mp split with ⟨between, rfl, rest⟩ | ⟨between, rfl, rest⟩
  · exact (follow message (by simp [rest])).append between
  · cases between with
    | nil =>
        have member : message ∈ more := by
          rw [List.nil_append] at rest
          exact rest ▸ List.mem_cons_self
        simpa using follow message member
    | cons first others =>
        obtain ⟨rfl, rfl⟩ := List.cons.inj rest
        exact inOrder early message others rfl

/-- What goes out for one input goes out in the run. -/
theorem mem_sent_run {early late : List Input} {input : Input} {item : Outgoing Float}
    (sent : item ∈ ((session.run early).session.step input).sent)
    : item ∈ (session.run (early ++ input :: late)).sent := by
  simp only [run_append, run_eq_andThen]
  exact List.mem_append_right _ (List.mem_append_left _ sent)

/-- The token went out on the socket that a run is on. -/
theorem Socket.token_mem (socket : session.Socket inputs generation)
    : ∃ jwt, .message generation ⟨.authenticate jwt, none⟩ ∈ (session.run inputs).sent := by
  obtain ⟨jwt, sent⟩ := socket.begun
  refine ⟨jwt, ?_⟩
  rw [socket.split]
  exact mem_sent_run (by rw [sent]; exact List.mem_singleton_self _)

/-- The wish to join went out on the socket on which a user signed in. -/
theorem Socket.join_mem (socket : session.Socket inputs generation)
    (joins : socket.opened.Joins generation socket.since)
    : .message generation ⟨.connectBoard session.board.id, none⟩ ∈ (session.run inputs).sent := by
  obtain ⟨before, text, after, user, _, _, _, split, signed, _⟩ := joins
  obtain ⟨first, frame, later, _, parts, _, asked, _⟩ := signed
  have sameBoard : socket.opened.board = session.board :=
    (board_and_token_step _ _).1.trans (session.board_and_token_run socket.early).1
  have whole : inputs
      = (socket.early ++ .transport (.opened generation) :: first)
        ++ .transport (.message frame) :: (later ++ .transport (.message text) :: after) := by
    refine socket.split.trans ?_
    simp [split, parts]
  rw [whole]
  refine mem_sent_run ?_
  have reached
      : (session.run (socket.early ++ .transport (.opened generation) :: first)).session
        = (socket.opened.run first).session := by
    rw [run_append]
    exact run_cons ..
  rw [reached, asked, sameBoard]
  exact List.mem_singleton_self _

/-- What goes out on a socket for the last input follows what went out there before, by cases on
how it comes to go out.
-/
theorem follows_of_sent (away : IsAway session.link) {last : Input} {message : Message Float}
    (sent : .message generation message ∈ ((session.run inputs).session.step last).sent)
    : Follows session.board.id ((session.run inputs).sent.filterMap (·.messageFor? generation))
        message := by
  have before {item : Message Float}
      (member : .message generation item ∈ (session.run inputs).sent)
      : item ∈ (session.run inputs).sent.filterMap (·.messageFor? generation) :=
    List.mem_filterMap.mpr ⟨_, member, Outgoing.messageFor?_eq_some.mpr rfl⟩
  have signed (socket : session.Socket inputs generation)
      : (session.run inputs).sent.filterMap (·.messageFor? generation) ≠ [] := by
    obtain ⟨jwt, token⟩ := socket.token_mem
    exact List.ne_nil_of_mem (before token)
  have sends := sends_of_sent away sent
  generalize same : message.command = command at sends
  cases sends with
  | token _ _ =>
      have isToken : message.command.kind = .userAuthenticate := congrArg Command.kind same
      exact ⟨fun _ => isToken, fun noToken => absurd isToken noToken⟩
  | join socket _ =>
      have isJoin : message.command.kind = .boardConnect := congrArg Command.kind same
      exact ⟨fun nothing => absurd nothing (signed socket), fun _ noJoin => absurd isJoin noJoin⟩
  | act socket joins _ _ _ =>
      exact ⟨fun nothing => absurd nothing (signed socket),
        fun _ _ => before (socket.join_mem joins)⟩

/-- What goes out on a socket is in order, by induction over the run from its end. -/
theorem inOrder_run (away : IsAway session.link) (inputs : List Input) (generation : Nat)
    : InOrder session.board.id
        ((session.run inputs).sent.filterMap (·.messageFor? generation)) := by
  induction inputs using List.reverseRecOn with
  | nil =>
      intro early message late split
      simp [run, Reaction.quiet] at split
  | append_singleton early last ih =>
      rw [sent_run_concat, List.filterMap_append]
      refine ih.append fun message member => ?_
      obtain ⟨item, sent, held⟩ := List.mem_filterMap.mp member
      obtain rfl := Outgoing.messageFor?_eq_some.mp held
      exact follows_of_sent away sent

-----------------------------------------------------------------------------------------
-- All runs
-----------------------------------------------------------------------------------------

/-- A link before the first attempt to connect is away. -/
theorem isAway_initial : IsAway .initial := by
  constructor <;> simp [Link.initial]

/-- The handshake comes first, whatever happens to a session. A message goes out for an input only
on the socket that was accepted last, as long as neither another attempt to connect nor the loss of
the socket nor the end of the session came since, and only when it is its turn in the handshake. An
accepted socket begins with the token and nothing else, or without one with a shutdown; sockets
are accepted until the session is closed or there is no token for one; and nothing goes out on
any socket after the session is closed.
-/
theorem handshake_comes_first (board : Board) (groups : List (Group Float)) (token : Option String)
    (color : Color) (grid : Option Int32) (inputs : List Input) (last : Input)
    : let session := start board groups token color grid
      let reached := (session.run inputs).session
      (∀ generation message, .message generation message ∈ (reached.step last).sent
        → session.Sends inputs generation last message.command)
      ∧ (∀ generation, last = .transport (.opened generation) → reached.link.isTerminal = false
        → (reached.step last).sent
          = (match token with
            | some jwt => [.message generation ⟨.authenticate jwt, none⟩]
            | none => [.shutdown]))
      ∧ (reached.link.isTerminal = true
        ↔ .close ∈ inputs
          ∨ token = none ∧ ∃ generation, .transport (.opened generation) ∈ inputs)
      ∧ (.close ∈ inputs ∨ last = .close
        → ∀ generation message, .message generation message ∉ (reached.step last).sent) := by
  intro session reached
  have isAway : IsAway session.link := isAway_initial
  have ended : reached.link.isTerminal = true
      ↔ .close ∈ inputs
        ∨ token = none ∧ ∃ generation, .transport (.opened generation) ∈ inputs := by
    rw [isTerminal_run, show session.link.isTerminal = false from rfl, Bool.false_or,
      List.any_eq_true]
    exact exists_isFinal_iff
  refine ⟨fun _ _ sent => sends_of_sent isAway sent, ?_, ended, ?_⟩
  · rintro generation rfl accepted
    rw [sent_of_outside _ rfl, (session.board_and_token_run inputs).2]
    simp only [Presence.asks, presence_link, accepted, Bool.false_eq_true, if_false]
    rfl
  · rintro (early | rfl) generation message sent
    · have sends := sends_of_sent isAway sent
      generalize message.command = command at sends
      cases sends with
      | token accepted _ =>
          exact Bool.false_ne_true (accepted.symm.trans (ended.mpr (.inl early)))
      | join socket _ => exact socket.close_notMem early
      | act socket _ _ _ _ => exact socket.close_notMem early
    · rw [sent_of_outside _ rfl] at sent
      simp [Presence.asks] at sent

/-- The owner makes a post. -/
def makePost : Input :=
  .gesture (.createPost 0 0) Sample.fresh (Sample.requests 100)

/-- A post that the owner makes after joining an empty board goes out on the first socket, when the
handshake there is over.
-/
theorem handshake_comes_first_postMade
    : ∃ message,
        .message 1 message
          ∈ (((start Sample.board [] (some "token") .lightPink none).run
              Sample.handshake).session.step makePost).sent
        ∧ message.command.kind = .postCreate
        ∧ (start Sample.board [] (some "token") .lightPink none).Sends Sample.handshake 1 makePost
            message.command := by
  have kinds
      : ((((start Sample.board [] (some "token") .lightPink none).run
          Sample.handshake).session.step makePost).sent.filterMap (·.messageFor? 1)).map
          (·.command.kind)
        = [.postCreate] := by
    decide +kernel
  obtain ⟨message, alone, kind⟩ := List.map_eq_singleton_iff.mp kinds
  obtain ⟨item, sent, held⟩ := List.mem_filterMap.mp (alone ▸ List.mem_singleton_self message)
  obtain rfl := Outgoing.messageFor?_eq_some.mp held
  obtain ⟨onSocket, _⟩ :=
    handshake_comes_first Sample.board [] (some "token") .lightPink none Sample.handshake makePost
  exact ⟨message, sent, kind, onSocket 1 message sent⟩

end SharedBoard.Session
