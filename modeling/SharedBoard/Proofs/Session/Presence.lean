import SharedBoard.Proofs.Session.Run

/-! A session on its channel: the link, the user that was authenticated on it, and what goes out.
Reports of the transport and closing move the link and the user; what the user does on the board
never does.
-/

namespace SharedBoard

/-- A computation that succeeds with its errors renamed succeeds without. -/
theorem Plan.ok_of_mapError {ε δ α : Type} {outcome : Except ε α} {rename : ε → δ} {value : α}
    (renamed : outcome.mapError rename = .ok value)
    : outcome = .ok value := by
  cases outcome with
  | error _ => simp [Except.mapError] at renamed
  | ok _ => exact congrArg Except.ok (Except.ok.inj renamed)

/-- The commands of a gesture are about the board and not about the handshake. -/
theorem Plan.Made.kind_ne_handshake {store : Store Float} {actor : Actor} {fresh : Fresh}
    {gesture : Gesture} {plan : Plan Float} (made : Plan.Made store actor fresh gesture plan)
    : ∀ command ∈ plan.commands,
        command.kind ≠ .userAuthenticate ∧ command.kind ≠ .boardConnect := by
  cases made <;> simp [createPost, ofEdit, updateGroup, Command.kind]

namespace Session

/-- Whether an input comes from outside: a report of the transport, or the end of the session. -/
def Input.isOutside : Input → Bool
  | .transport _ => true
  | .close => true
  | _ => false

/-- Where a session stands on its channel. -/
structure Presence where
  link : Link
  user : Option User

def presence (session : Session) : Presence :=
  ⟨session.link, session.user⟩

@[simp] theorem presence_link (session : Session) : session.presence.link = session.link :=
  rfl

namespace Presence

/-- The generation of the socket on which the answer to a token is awaited. -/
def signingIn? (presence : Presence) : Option Nat :=
  if presence.link.state = .authenticating then presence.link.generation else none

/-- The presence after a frame. A user counts only if one is awaited, and the board is joined when
the server names that user as the one who joins.
-/
def afterFrame (presence : Presence) (text : String) : Presence :=
  match Inbound.ofText text with
  | .ok (.applied (.authenticated user) _) =>
      if presence.signingIn?.isSome then ⟨presence.link.authenticated, some user⟩ else presence
  | .ok (.applied (.boardConnected _ newUser) _) =>
      if presence.user.map (·.id) = some newUser.id then
        { presence with link := presence.link.boardJoined.1 }
      else
        presence
  | _ => presence

/-- The presence after an input. Without a token an open socket is given up at once. -/
def after (presence : Presence) (token : Option String) : Input → Presence
  | .transport .connecting => { presence with link := presence.link.connecting.1 }
  | .transport (.opened generation) =>
      if presence.link.isTerminal then
        presence
      else
        let link := (presence.link.opened generation).1
        ⟨if token.isSome then link else link.closeRequested.1, none⟩
  | .transport (.message text) => presence.afterFrame text
  | .transport (.closed _) => ⟨presence.link.dropped.1, none⟩
  | .close => { presence with link := presence.link.closeRequested.1 }
  | _ => presence

/-- What goes out for an input from outside: the token on an open socket, the wish to join the board
for a user who is awaited, and what concerns the channel as a whole.
-/
def asks (presence : Presence) (token : Option String) (board : BoardId)
    : Input → List (Outgoing Float)
  | .transport (.opened generation) =>
      if presence.link.isTerminal then []
      else
        match token with
        | some jwt => [.message generation ⟨.authenticate jwt, none⟩]
        | none => [.shutdown]
  | .transport (.message text) =>
      match Inbound.ofText text with
      | .ok (.applied (.authenticated _) _) =>
          presence.signingIn?.toList.map (.message · ⟨.connectBoard board, none⟩)
      | .ok (.rejected .userAuthenticate _ _) => [.reconnect]
      | _ => []
  | .close => [.shutdown]
  | _ => []

/-- What the user does on the board does not concern the channel. -/
theorem after_of_inside (presence : Presence) (token : Option String) {input : Input}
    (inside : input.isOutside = false)
    : presence.after token input = presence := by
  cases input with
  | transport event => simp [Input.isOutside] at inside
  | close => simp [Input.isOutside] at inside
  | _ => rfl

/-- Why something goes out for an input from outside. -/
inductive Asked (presence : Presence) (token : Option String) (board : BoardId)
    : Input → Outgoing Float → Prop
  | token {generation : Nat} {jwt : String} (running : presence.link.isTerminal = false)
    (held : token = some jwt)
    : Asked presence token board (.transport (.opened generation))
        (.message generation ⟨.authenticate jwt, none⟩)
  | join {text : String} {user : User} {answer : Option RequestId} {generation : Nat}
    (read : Inbound.ofText text = .ok (.applied (.authenticated user) answer))
    (awaited : presence.signingIn? = some generation)
    : Asked presence token board (.transport (.message text))
        (.message generation ⟨.connectBoard board, none⟩)
  | refused {text message : String} {answer : Option RequestId}
    (read : Inbound.ofText text = .ok (.rejected .userAuthenticate message answer))
    : Asked presence token board (.transport (.message text)) .reconnect
  | tokenless {generation : Nat} (missing : token = none)
    : Asked presence token board (.transport (.opened generation)) .shutdown
  | close : Asked presence token board .close .shutdown

/-- What goes out has one of these reasons, by cases on the input. -/
theorem asked_of_mem {presence : Presence} {token : Option String} {board : BoardId}
    {input : Input} {item : Outgoing Float} (asked : item ∈ presence.asks token board input)
    : presence.Asked token board input item := by
  cases input with
  | transport event =>
      cases event with
      | opened generation =>
          simp only [asks] at asked
          split at asked
          · simp at asked
          · next running =>
              cases token with
              | some jwt =>
                  obtain rfl := List.mem_singleton.mp asked
                  exact .token (by simpa using running) rfl
              | none =>
                  obtain rfl := List.mem_singleton.mp asked
                  exact .tokenless rfl
      | message text =>
          simp only [asks] at asked
          split at asked
          · next read =>
              obtain ⟨generation, awaited, rfl⟩ := List.mem_map.mp asked
              exact .join read (Option.mem_toList.mp awaited)
          · next read =>
              obtain rfl := List.mem_singleton.mp asked
              exact .refused read
          · simp at asked
      | connecting => simp [asks] at asked
      | closed reason => simp [asks] at asked
  | close =>
      obtain rfl := List.mem_singleton.mp asked
      exact .close
  | _ => simp [asks] at asked

/-- The socket on which an answer to the token is awaited is the known one. -/
theorem generation_of_signingIn? {presence : Presence} {generation : Nat}
    (awaited : presence.signingIn? = some generation)
    : presence.link.state = .authenticating ∧ presence.link.generation = some generation := by
  rwa [signingIn?, Option.ite_none_right_eq_some] at awaited

end Presence

-----------------------------------------------------------------------------------------
-- Frames
-----------------------------------------------------------------------------------------

/-- A user who is authenticated while one is awaited is taken, and the board is to be joined. -/
theorem onAuthenticated_eq (session : Session) (user : User)
    : (session.onAuthenticated user).session.presence
        = (if session.presence.signingIn?.isSome then ⟨session.link.authenticated, some user⟩
          else session.presence)
      ∧ (session.onAuthenticated user).sent
        = session.presence.signingIn?.toList.map
            (.message · ⟨.connectBoard session.board.id, none⟩) := by
  unfold onAuthenticated
  split
  · next closed =>
      have nobody : session.presence.signingIn? = none := by simp [Presence.signingIn?, closed]
      simp only [nobody]
      exact ⟨rfl, rfl⟩
  · next generation found =>
      by_cases waiting : session.state = .authenticating
      · have awaited : session.presence.signingIn? = some generation :=
          (if_pos waiting).trans found
        simp only [awaited, if_pos waiting]
        exact ⟨rfl, rfl⟩
      · have nobody : session.presence.signingIn? = none := if_neg waiting
        simp only [nobody, if_neg waiting]
        exact ⟨rfl, rfl⟩

/-- The user who was authenticated joins the board; nothing goes out for it. -/
theorem joinIfOwn_eq (session : Session) (event : Event Float)
    : (session.joinIfOwn event).session.presence
        = (match event with
          | .boardConnected _ newUser =>
              if session.user.map (·.id) = some newUser.id then
                ⟨session.link.boardJoined.1, session.user⟩
              else
                session.presence
          | _ => session.presence)
      ∧ (session.joinIfOwn event).sent = [] := by
  cases event with
  | boardConnected members newUser =>
      simp only [joinIfOwn]
      split <;> exact ⟨rfl, rfl⟩
  | _ => exact ⟨rfl, rfl⟩

/-- A refusal does not move the presence, and only that of a token asks for something. -/
theorem onRejected_eq (session : Session) (kind : EventKind) (message : String)
    (answer : Option RequestId)
    : (session.onRejected kind message answer).session.presence = session.presence
      ∧ (session.onRejected kind message answer).sent
        = if kind = .userAuthenticate then [.reconnect] else [] := by
  unfold onRejected
  split
  · exact ⟨rfl, rfl⟩
  · unfold rollBack
    split <;> exact ⟨rfl, rfl⟩

/-- An event that is not about the token asks for nothing. -/
theorem sent_onEvent {event : Event Float} (other : ∀ user, event ≠ .authenticated user)
    (session : Session) (answer : Option RequestId)
    : (session.onEvent event answer).sent = [] := by
  unfold onEvent
  split
  · next user => exact absurd rfl (other user)
  · simp only [Reaction.andThen, reduceBoth, (joinIfOwn_eq _ event).2, List.append_nil]

/-- A frame moves the presence and asks for something as described, by cases on what it means. -/
theorem onMessage_eq (session : Session) (text : String)
    : (session.onMessage text).session.presence = session.presence.afterFrame text
      ∧ (session.onMessage text).sent
        = session.presence.asks session.token session.board.id (.transport (.message text)) := by
  simp only [onMessage, Presence.afterFrame, Presence.asks]
  cases Inbound.ofText text with
  | error _ => exact ⟨rfl, rfl⟩
  | ok inbound =>
      cases inbound with
      | rejected kind message answer =>
          obtain ⟨stays, sent⟩ := onRejected_eq session kind message answer
          refine ⟨stays, sent.trans ?_⟩
          cases kind <;> rfl
      | applied event answer =>
          cases event with
          | authenticated user => exact onAuthenticated_eq session user
          | _ => exact ⟨(joinIfOwn_eq _ _).1, sent_onEvent (by simp) session answer⟩

/-- On an open socket the token goes out, and without one the channel is given up. -/
theorem authenticate_eq (session : Session) (generation : Nat)
    : (session.authenticate generation).session.presence
        = ⟨if session.token.isSome then session.link else session.link.closeRequested.1,
            session.user⟩
      ∧ (session.authenticate generation).sent
        = (match session.token with
          | some jwt => [.message generation ⟨.authenticate jwt, none⟩]
          | none => [.shutdown]) := by
  unfold authenticate
  cases session.token <;> exact ⟨rfl, rfl⟩

-----------------------------------------------------------------------------------------
-- Steps
-----------------------------------------------------------------------------------------

/-- A live session is connected on a socket. -/
theorem connected_of_live {session : Session} {generation : Nat} {actor : Actor}
    (live : session.live = .ok (generation, actor))
    : session.state = .connected ∧ session.link.generation = some generation := by
  unfold Session.live at live
  split at live
  · next connected found _ =>
      obtain ⟨rfl, _⟩ := Prod.mk.inj (Except.ok.inj live)
      exact ⟨connected, found⟩
  · simp at live

/-- An accepted socket begins with the token; after the end of the session none is accepted. -/
theorem opened_eq (session : Session) (generation : Nat)
    : (session.step (.transport (.opened generation))).session.presence
        = session.presence.after session.token (.transport (.opened generation))
      ∧ (session.step (.transport (.opened generation))).sent
        = session.presence.asks session.token session.board.id
            (.transport (.opened generation)) := by
  simp only [step, handle, Presence.after, Presence.asks]
  by_cases terminal : session.link.isTerminal = true
  · have same : session.presence.link.isTerminal = true := terminal
    simp only [if_pos terminal, if_pos same]
    exact ⟨rfl, rfl⟩
  · have same : ¬ session.presence.link.isTerminal = true := terminal
    simp only [if_neg terminal, if_neg same]
    exact authenticate_eq _ generation

/-- A step moves the presence as described, by cases on the input. -/
theorem presence_step (session : Session) (input : Input)
    : (session.step input).session.presence = session.presence.after session.token input := by
  cases input with
  | transport event =>
      cases event with
      | connecting => rfl
      | opened generation => exact (opened_eq session generation).1
      | message text => exact (onMessage_eq session text).1
      | closed reason => rfl
  | gesture gesture fresh requests =>
      rcases session.gesture_cases gesture fresh requests with
        ⟨_, unchanged⟩ | ⟨plan, generation, _, _, committed⟩
      · rw [unchanged]
        rfl
      · rw [committed]
        rfl
  | focus post => exact congrArg presence (session_step_focus session post)
  | setColor color => rfl
  | close => rfl

/-- A session stays on its board and keeps its token, by cases on the input. -/
theorem board_and_token_step (session : Session) (input : Input)
    : (session.step input).session.board = session.board
      ∧ (session.step input).session.token = session.token := by
  have joined (session : Session) (event : Event Float)
      : (session.joinIfOwn event).session.board = session.board
        ∧ (session.joinIfOwn event).session.token = session.token := by
    unfold joinIfOwn
    split
    · split <;> exact ⟨rfl, rfl⟩
    · exact ⟨rfl, rfl⟩
  cases input with
  | transport event =>
      cases event with
      | connecting => exact ⟨rfl, rfl⟩
      | closed reason => exact ⟨rfl, rfl⟩
      | opened generation =>
          simp only [step, handle]
          split
          · exact ⟨rfl, rfl⟩
          · simp only [Reaction.andThen, authenticate]
            split <;> exact ⟨rfl, rfl⟩
      | message text =>
          simp only [step, handle, onMessage]
          split
          · unfold onEvent
            split
            · unfold onAuthenticated
              split
              · exact ⟨rfl, rfl⟩
              · split <;> exact ⟨rfl, rfl⟩
            · exact joined _ _
          · unfold onRejected
            split
            · exact ⟨rfl, rfl⟩
            · unfold rollBack
              split <;> exact ⟨rfl, rfl⟩
          · exact ⟨rfl, rfl⟩
  | gesture gesture fresh requests =>
      rcases session.gesture_cases gesture fresh requests with
        ⟨_, unchanged⟩ | ⟨plan, generation, _, _, committed⟩
      · rw [unchanged]
        exact ⟨rfl, rfl⟩
      · rw [committed]
        exact ⟨rfl, rfl⟩
  | focus post =>
      rw [session_step_focus]
      exact ⟨rfl, rfl⟩
  | setColor color => exact ⟨rfl, rfl⟩
  | close => exact ⟨rfl, rfl⟩

/-- So it does over a run, by induction over the inputs. -/
theorem board_and_token_run (session : Session) (inputs : List Input)
    : (session.run inputs).session.board = session.board
      ∧ (session.run inputs).session.token = session.token := by
  induction inputs generalizing session with
  | nil => exact ⟨rfl, rfl⟩
  | cons input rest ih =>
      rw [run_cons]
      exact ⟨(ih _).1.trans (board_and_token_step session input).1,
        (ih _).2.trans (board_and_token_step session input).2⟩

/-- What goes out for an input from outside is as described, by cases on the input. -/
theorem sent_of_outside (session : Session) {input : Input} (outside : input.isOutside = true)
    : (session.step input).sent
      = session.presence.asks session.token session.board.id input := by
  cases input with
  | transport event =>
      cases event with
      | connecting => rfl
      | opened generation => exact (opened_eq session generation).2
      | message text => exact (onMessage_eq session text).2
      | closed reason => rfl
  | close => rfl
  | _ => simp [Input.isOutside] at outside

/-- What goes out for what the user does on the board are messages on the socket of a live board,
and none of them belongs to the handshake.
-/
theorem message_of_inside {session : Session} {input : Input} (inside : input.isOutside = false)
    {item : Outgoing Float} (sent : item ∈ (session.step input).sent)
    : ∃ generation message,
        item = .message generation message
        ∧ session.state = .connected
        ∧ session.link.generation = some generation
        ∧ message.command.kind ≠ .userAuthenticate
        ∧ message.command.kind ≠ .boardConnect := by
  cases input with
  | gesture gesture fresh requests =>
      simp only [step] at sent
      split at sent
      · next reaction performed =>
          obtain ⟨⟨generation, actor⟩, live, performed⟩ := Plan.exists_of_bind performed
          obtain ⟨plan, planned, performed⟩ := Plan.exists_of_bind performed
          obtain rfl := Except.ok.inj performed
          obtain ⟨connected, found⟩ := connected_of_live live
          obtain ⟨message, member, rfl⟩ := List.mem_map.mp sent
          obtain ⟨index, bound, rfl⟩ := List.mem_mapIdx.mp member
          have onBoard := (Plan.made_of_ofGesture (Plan.ok_of_mapError planned)).kind_ne_handshake
            _ (List.getElem_mem bound)
          exact ⟨generation, _, rfl, connected, found, onBoard⟩
      · simp [Reaction.quiet] at sent
  | focus post =>
      simp only [step] at sent
      split at sent
      · next reaction performed =>
          obtain ⟨⟨generation, actor⟩, live, performed⟩ := Plan.exists_of_bind performed
          obtain ⟨connected, found⟩ := connected_of_live live
          dsimp only at performed
          split at performed
          · obtain rfl := Except.ok.inj performed
            obtain rfl := List.mem_singleton.mp sent
            exact ⟨generation, _, rfl, connected, found, by simp [Command.kind]⟩
          · simp at performed
      · simp [Reaction.quiet] at sent
  | setColor color => simp [step, Reaction.quiet] at sent
  | transport event => simp [Input.isOutside] at inside
  | close => simp [Input.isOutside] at inside

/-- The socket that is known after an input is the one from before, or was just reported, by cases
on the input.
-/
theorem Presence.generation_after {presence : Presence} {token : Option String} {input : Input}
    {generation : Nat}
    (known : (presence.after token input).link.generation = some generation)
    : presence.link.generation = some generation ∨ input = .transport (.opened generation) := by
  have closing (link : Link) : link.closeRequested.1.generation = link.generation := by
    unfold Link.closeRequested
    split <;> rfl
  cases input with
  | transport event =>
      cases event with
      | connecting =>
          simp only [after, Link.connecting] at known
          split at known
          · exact .inl known
          · simp [Link.enter] at known
      | opened newest =>
          simp only [after] at known
          split at known
          · exact .inl known
          · next running =>
              have newest : some newest = some generation := by
                cases token <;> simpa [closing, Link.opened, Link.enter, running] using known
              exact .inr (by rw [Option.some.inj newest])
      | message text =>
          refine .inl (Eq.trans ?_ known)
          simp only [after, afterFrame]
          split
          · split
            · unfold Link.authenticated
              split <;> rfl
            · rfl
          · split
            · unfold Link.boardJoined
              split <;> rfl
            · rfl
          · rfl
      | closed reason => simp [after, Link.dropped, Link.enter] at known
  | close => exact .inl ((closing _).symm.trans known)
  | _ => exact .inl known

/-- The socket that a session knows after a step is the one from before, or was just reported. -/
theorem generation_of_step {session : Session} {input : Input} {generation : Nat}
    (known : (session.step input).session.link.generation = some generation)
    : session.link.generation = some generation ∨ input = .transport (.opened generation) := by
  have after : (session.presence.after session.token input).link.generation = some generation := by
    rw [← presence_step]
    exact known
  exact Presence.generation_after after

/-- A message goes out on the socket that the session knows, or on the one that is just reported. -/
theorem stamp_of_sent {session : Session} {input : Input} {generation : Nat}
    {message : Message Float} (sent : .message generation message ∈ (session.step input).sent)
    : session.link.generation = some generation ∨ input = .transport (.opened generation) := by
  cases outside : input.isOutside with
  | false =>
      obtain ⟨_, _, same, _, found, _⟩ := message_of_inside outside sent
      obtain ⟨rfl, _⟩ := Outgoing.message.inj same
      exact .inl found
  | true =>
      rw [sent_of_outside _ outside] at sent
      cases Presence.asked_of_mem sent with
      | token _ _ => exact .inr rfl
      | join _ awaited => exact .inl (Presence.generation_of_signingIn? awaited).2

/-- A session asks for another socket only for a token that was refused. -/
theorem refused_of_reconnect {session : Session} {input : Input}
    (sent : .reconnect ∈ (session.step input).sent)
    : ∃ text message answer,
        input = .transport (.message text)
        ∧ Inbound.ofText text = .ok (.rejected .userAuthenticate message answer) := by
  cases outside : input.isOutside with
  | false =>
      obtain ⟨_, _, same, _⟩ := message_of_inside outside sent
      simp at same
  | true =>
      rw [sent_of_outside _ outside] at sent
      cases Presence.asked_of_mem sent with
      | refused read => exact ⟨_, _, _, rfl, read⟩

/-- For a refused token a session asks for another socket and nothing else. -/
theorem sent_of_refusal (session : Session) {text message : String} {answer : Option RequestId}
    (read : Inbound.ofText text = .ok (.rejected .userAuthenticate message answer))
    : (session.step (.transport (.message text))).sent = [.reconnect] := by
  rw [sent_of_outside _ rfl]
  simp only [Presence.asks, read]

end Session

end SharedBoard
