import SharedBoard.Proofs.Plan.Looks
import SharedBoard.Proofs.Session.Rollback

/-! Answers that lag behind. The visible board follows the answer to a request like any other
event, so it takes a post over as the server held it when it executed that request, without the
gestures that were made since.
-/

namespace SharedBoard

/-- How a post of a board looks. -/
def Store.look? {κ : Type} (store : Store κ) (post : PostId) : Option Look :=
  (store.post? post).map (·.look)

namespace Session

/-- The gesture of an input. -/
def Input.gesture? : Input → Option Gesture
  | .gesture made _ _ => some made
  | _ => none

/-- How posts should look after some inputs: as the gestures made them look, one after the other. -/
def looksAfter (looks : PostId → Option Look) (inputs : List Input) (post : PostId)
    : Option Look :=
  (looks post).map (Gesture.dressAll (inputs.filterMap Input.gesture?) post)

/-- The commands that wait for an answer after an input. Those of a gesture come after the
others, and a frame answers the first.
-/
def waitingAfter (session : Session) (waiting : List (Command Float)) (input : Input)
    : List (Command Float) :=
  match input with
  | .gesture gesture fresh requests =>
      match session.planFor? (.gesture gesture fresh requests) with
      | some plan => waiting ++ plan.commands
      | none => waiting
  | .transport (.message _) => waiting.tail
  | _ => waiting

/-- What happens in an exchange with a server that no one else uses: a gesture that creates no
post is carried out, or the server executes the first command that waits and its report arrives,
with or without the version of the post before.
-/
inductive Exchanges (session : Session) (server : Server Float) (waiting : List (Command Float))
    : Input → Server Float → Prop
  | gesture {gesture : Gesture} {fresh : Fresh} {requests : Nat → RequestId} {plan : Plan Float}
    (keeps : ∀ x y, gesture ≠ .createPost x y)
    (planned : session.planFor? (.gesture gesture fresh requests) = some plan)
    : Exchanges session server waiting (.gesture gesture fresh requests) server
  | answer {command : Command Float} {others : List (Command Float)} {shown : Store Float}
    {next : Server Float} {event reported : Event Float} {text : String}
    {answer : Option RequestId} (first : waiting = command :: others)
    (executed : server.execute shown command = some (next, event))
    (read : Inbound.ofText text = .ok (.applied reported answer))
    (same : reported.withoutOld = event.withoutOld)
    : Exchanges session server waiting (.transport (.message text)) next

/-- All inputs of a run belong to an exchange with a server. -/
def Exchange (session : Session) (server : Server Float) (waiting : List (Command Float))
    : List Input → Prop
  | [] => True
  | input :: rest =>
      ∃ next,
        session.Exchanges server waiting input next
        ∧ (session.step input).session.Exchange next (session.waitingAfter waiting input) rest

/-- The post that the visible board takes over from a frame. -/
def taken? (session : Session) : Input → Option (Post Float)
  | .transport (.message text) =>
      match Inbound.ofText text with
      | .ok (.applied event _) => event.taken? session.visible
      | _ => none
  | _ => none

/-- An input brings no post that a command still waiting gives another look. -/
def UpToDate (session : Session) (waiting : List (Command Float)) (input : Input) : Prop :=
  ∀ post ∈ session.taken? input,
    Command.dressAll (session.waitingAfter waiting input) post.id post.look = post.look

/-- No input of a run brings a post that a command still waiting gives another look. -/
def AnswersUpToDate (session : Session) (waiting : List (Command Float)) : List Input → Prop
  | [] => True
  | input :: rest =>
      session.UpToDate waiting input
      ∧ (session.step input).session.AnswersUpToDate (session.waitingAfter waiting input) rest

instance decidableUpToDate (session : Session) (waiting : List (Command Float)) (input : Input)
    : Decidable (session.UpToDate waiting input) :=
  inferInstanceAs (Decidable (∀ post ∈ session.taken? input, _))

instance decidableAnswersUpToDate (session : Session) (waiting : List (Command Float))
    : (inputs : List Input) → Decidable (session.AnswersUpToDate waiting inputs)
  | [] => isTrue trivial
  | input :: rest =>
      have := decidableAnswersUpToDate (session.step input).session
        (session.waitingAfter waiting input) rest
      inferInstanceAs (Decidable (_ ∧ _))

variable {session : Session} {server next : Server Float} {waiting : List (Command Float)}
  {looks : PostId → Option Look} {input : Input}

/-- The visible posts look as they should. -/
def Wears (session : Session) (looks : PostId → Option Look) : Prop :=
  ∀ post ∈ session.visible.groups.posts, looks post.id = some post.look

/-- A server and the commands that wait are in step with how posts should look: once it has
executed the commands, its posts look so.
-/
structure InStep (session : Session) (server : Server Float) (waiting : List (Command Float))
    (looks : PostId → Option Look) : Prop where
  distinct : (session.visible.groups.posts.map (·.id)).Nodup
  named : session.visible.groups.Named
  keyed : server.Keyed
  keeps : ∀ command ∈ waiting, command.kind ≠ .postCreate
  held : ∀ id post,
    server.post? id = some post → looks id = some (Command.dressAll waiting id post.look)

theorem looksAfter_nil (looks : PostId → Option Look) : looksAfter looks [] = looks :=
  funext fun _ => Option.map_id'

theorem looksAfter_cons (looks : PostId → Option Look) (input : Input) (rest : List Input)
    : looksAfter looks (input :: rest) = looksAfter (looksAfter looks [input]) rest := by
  funext post
  have split : (input :: rest).filterMap Input.gesture?
      = [input].filterMap Input.gesture? ++ rest.filterMap Input.gesture? := by
    rw [← List.filterMap_append, List.singleton_append]
  simp only [looksAfter, split, Option.map_map]
  exact congrArg (Option.map · _) (funext fun look => Gesture.dressAll_append ..)

/-- After a gesture posts should look as it makes them look. -/
theorem looksAfter_gesture (looks : PostId → Option Look) (gesture : Gesture) (fresh : Fresh)
    (requests : Nat → RequestId) (post : PostId)
    : looksAfter looks [.gesture gesture fresh requests] post
      = (looks post).map (gesture.dress post) :=
  rfl

/-- After a frame posts should look as before. -/
theorem looksAfter_message (looks : PostId → Option Look) (text : String)
    : looksAfter looks [.transport (.message text)] = looks :=
  funext fun _ => Option.map_id'

/-- The visible board follows the event of a frame. -/
theorem visible_step_message {text : String} {event : Event Float} {answer : Option RequestId}
    (read : Inbound.ofText text = .ok (.applied event answer))
    : (session.step (.transport (.message text))).session.visible
      = (session.visible.reduce (session.user.map (·.id)) event).store := by
  simp only [step, handle, onMessage, read]
  exact (session.boards_onEvent event answer).1

/-- The visible board changes as planned when a gesture is carried out. -/
theorem visible_step_gesture {gesture : Gesture} {fresh : Fresh} {requests : Nat → RequestId}
    {plan : Plan Float}
    (planned : session.planFor? (.gesture gesture fresh requests) = some plan)
    : (session.step (.gesture gesture fresh requests)).session.visible
      = (plan.apply session.visible).store := by
  obtain ⟨generation, committed⟩ := step_gesture_of_planned planned
  rw [committed]
  rfl

namespace InStep

/-- Gestures and answers keep the server in step. What a gesture makes of the looks waits in its
commands, and what an executed command makes of them does not wait any more.
-/
theorem step (inStep : session.InStep server waiting looks)
    (exchanges : session.Exchanges server waiting input next)
    : (session.step input).session.InStep next (session.waitingAfter waiting input)
        (looksAfter looks [input]) := by
  cases exchanges with
  | @gesture gesture fresh requests plan keeps planned =>
      obtain ⟨actor, made⟩ := made_of_planFor? planned
      have joined : session.waitingAfter waiting (.gesture gesture fresh requests)
          = waiting ++ plan.commands := by
        simp only [waitingAfter, planned]
      rw [joined]
      refine ⟨?_, ?_, inStep.keyed, ?_, fun id post found => ?_⟩
      · rw [visible_step_gesture planned]
        exact Mutation.distinct_applyAll made.bringsOne inStep.distinct
      · rw [visible_step_gesture planned]
        exact Mutation.named_applyAll inStep.named plan.mutations
      · exact List.forall_mem_append.mpr ⟨inStep.keeps, made.kind_ne_postCreate keeps⟩
      · rw [looksAfter_gesture, inStep.held id post found, Command.dressAll_append,
          made.dressAll_commands]
        rfl
  | @answer command others shown _ event reported text answer first executed read same =>
      subst first
      obtain ⟨commandKeeps, othersKeep⟩ := List.forall_mem_cons.mp inStep.keeps
      obtain ⟨keyed, dressed, _⟩ := Server.dressed_execute inStep.keyed commandKeeps executed
      rw [looksAfter_message]
      refine ⟨?_, ?_, keyed, othersKeep, fun id post found => ?_⟩
      · rw [visible_step_message read]
        rcases session.visible.posts_reduce (session.user.map (·.id)) reported with
          ⟨_, kept, perm, sublist⟩ | ⟨post, group, _, receives⟩
        · exact (perm.map _).nodup_iff.mp (inStep.distinct.sublist (sublist.map _))
        · exact receives.nodup inStep.distinct
      · rw [visible_step_message read]
        exact Store.named_reduce inStep.named _ reported
      · obtain ⟨old, wasHeld, look⟩ := dressed id post found
        rw [inStep.held id old wasHeld, look]
        rfl

/-- Visible posts that look as they should go on doing so exactly if the input is up to date: a
post that the server holds gets its look from the commands that wait.
-/
theorem wears_step_iff (inStep : session.InStep server waiting looks) (wears : session.Wears looks)
    (exchanges : session.Exchanges server waiting input next)
    : (session.step input).session.Wears (looksAfter looks [input])
      ↔ session.UpToDate waiting input := by
  have after := inStep.step exchanges
  cases exchanges with
  | @gesture gesture fresh requests plan keeps planned =>
      obtain ⟨actor, made⟩ := made_of_planFor? planned
      refine iff_of_true (fun post member => ?_) (by simp [UpToDate, taken?])
      rw [visible_step_gesture planned] at member
      obtain ⟨old, wasThere, sameId, look⟩ :=
        made.dressed keeps inStep.distinct inStep.named post member
      rw [looksAfter_gesture, ← sameId, wears old wasThere, look, sameId]
      rfl
  | @answer command others shown _ event reported text answer first executed read same =>
      subst first
      obtain ⟨commandKeeps, _⟩ := List.forall_mem_cons.mp inStep.keeps
      obtain ⟨_, _, reports⟩ := Server.dressed_execute inStep.keyed commandKeeps executed
      have taken
          : session.taken? (.transport (.message text)) = reported.taken? session.visible := by
        simp only [taken?, read]
      rw [looksAfter_message] at after ⊢
      rw [Wears, visible_step_message read, UpToDate, taken]
      rcases session.visible.posts_reduce (session.user.map (·.id)) reported with
        ⟨nothing, fewer⟩ | ⟨post, group, brought, receives⟩
      · refine iff_of_true (fun post member => wears post (fewer.subset member)) ?_
        simp [nothing]
      · have inEvent : post ∈ event.arrivals := by
          rw [← Event.arrivals_withoutOld, ← same, Event.arrivals_withoutOld]
          exact Event.mem_arrivals_of_taken? brought
        -- The server holds the post that it reports, so the commands that wait make it look as it
        -- should; the visible post has the reported look.
        have due := after.held post.id post (reports post inEvent)
        rw [brought]
        simp only [Option.mem_some_iff, forall_eq']
        constructor
        · intro wearsNext
          obtain ⟨current, member, fields⟩ := receives.exists_mem
          have worn : looks post.id = some post.look := by
            have wornNext := wearsNext current member
            rwa [fields] at wornNext
          exact Option.some.inj (due.symm.trans worn)
        · intro upToDate old member
          rcases receives.cases_of_mem inStep.distinct member with fields | ⟨wasThere, _⟩
          · rw [fields]
            exact due.trans (congrArg some upToDate)
          · exact wears old wasThere

/-- In an exchange the visible posts always look as they should exactly if all answers are up to
date, by induction over the inputs.
-/
theorem run_iff {inputs : List Input} (inStep : session.InStep server waiting looks)
    (wears : session.Wears looks) (exchange : session.Exchange server waiting inputs)
    : (∀ before, before <+: inputs
        → (session.run before).session.Wears (looksAfter looks before))
      ↔ session.AnswersUpToDate waiting inputs := by
  induction inputs generalizing session server waiting looks with
  | nil =>
      refine iff_of_true (fun before isPrefix => ?_) trivial
      rw [List.prefix_nil.mp isPrefix, looksAfter_nil]
      exact wears
  | cons input rest ih =>
      obtain ⟨next, exchanges, later⟩ := exchange
      constructor
      · intro all
        have now : (session.step input).session.Wears (looksAfter looks [input]) := by
          simpa only [run_cons, run_nil] using all [input] (List.prefix_append [input] rest)
        refine ⟨(inStep.wears_step_iff wears exchanges).mp now, ?_⟩
        refine (ih (inStep.step exchanges) now later).mp fun before isPrefix => ?_
        rw [← run_cons, ← looksAfter_cons]
        exact all (input :: before) ((List.prefix_cons_inj input).mpr isPrefix)
      · rintro ⟨first, others⟩ before isPrefix
        have now := (inStep.wears_step_iff wears exchanges).mpr first
        rcases List.prefix_cons_iff.mp isPrefix with rfl | ⟨tail, rfl, tailPrefix⟩
        · rw [looksAfter_nil]
          exact wears
        · rw [run_cons, looksAfter_cons]
          exact (ih (inStep.step exchanges) now later).mpr others tail tailPrefix

end InStep

-----------------------------------------------------------------------------------------
-- All exchanges
-----------------------------------------------------------------------------------------

/-- In an exchange with a server that holds the visible board at first, the visible posts look as
the gestures made them look after every input, exactly if no answer brings a post that a command
still waiting gives another look.
-/
theorem looks_follow_gestures_iff {session : Session}
    (distinct : (session.visible.groups.posts.map (·.id)).Nodup)
    (named : session.visible.groups.Named) {inputs : List Input}
    (exchange : session.Exchange (.holding session.visible) [] inputs)
    : (∀ before, before <+: inputs
        → (session.run before).session.Wears (looksAfter session.visible.look? before))
      ↔ session.AnswersUpToDate [] inputs := by
  have held (id : PostId) (post : Post Float) (found : session.visible.post? id = some post)
      : session.visible.look? id = some post.look :=
    congrArg (Option.map Post.look) found
  have inStep : session.InStep (.holding session.visible) [] session.visible.look? :=
    ⟨distinct, named, Server.keyed_holding _, List.forall_mem_nil _, held⟩
  have wears : session.Wears session.visible.look? := fun post member =>
    held post.id post ((Store.post?_eq_some_iff distinct).mpr ⟨member, rfl⟩)
  exact inStep.run_iff wears exchange

/-- The first post gets a text, and keeps its height. -/
def typed (content : String) (request : Nat) : Input :=
  .gesture (.editPost (.ofNat 11) content (some 100)) Sample.fresh (Sample.requests request)

/-- The change that a text makes to the first post. -/
def typedEdit (content : String) : PostEdit Float :=
  { (PostEdit.nothing (.ofNat 11) (.ofNat 1) : PostEdit Float) with
    content := some content
    height := some 100 }

/-- The second post gets another color. -/
def recolored : Input :=
  .gesture (.recolorPost (.ofNat 21) .lightAqua) Sample.fresh (Sample.requests 200)

/-- The server reports the text "a". -/
def reportOfA : String :=
  "[\"post.update\",true,[[\"00000000-0000-0000-0000-00000000000b\","
    ++ "\"00000000-0000-0000-0000-000000000001\","
    ++ "\"00000000-0000-0000-0000-000000000007\",\"a\",\"#F5E6E8\",100,"
    ++ "\"00000000-0000-0000-0000-00000000000a\",1,"
    ++ "\"1970-01-01T00:00:00Z\",\"1970-01-01T00:00:00Z\"],null],null,"
    ++ "\"00000000-0000-0000-0000-000000000064\"]"

/-- The text "a", another gesture and the report of the text are an exchange, if the gesture is
carried out and creates no post.
-/
theorem exchange_reportOfA {gesture : Gesture} {fresh : Fresh} {requests : Nat → RequestId}
    {plan : Plan Float} (keeps : ∀ x y, gesture ≠ .createPost x y)
    (planned
      : (joined.step (typed "a" 100)).session.planFor? (.gesture gesture fresh requests)
          = some plan)
    : joined.Exchange (.holding joined.visible) []
        [typed "a" 100, .gesture gesture fresh requests, .transport (.message reportOfA)] := by
  have firstPlanned : joined.planFor? (typed "a" 100) = some (Plan.ofEdit (typedEdit "a")) := by
    rw [joined_eq]
    rfl
  have first : joined.waitingAfter [] (typed "a" 100) = [.updatePost (typedEdit "a")] := by
    simp only [waitingAfter, typed] at firstPlanned ⊢
    rw [firstPlanned]
    rfl
  have waiting : (joined.step (typed "a" 100)).session.waitingAfter
      (joined.waitingAfter [] (typed "a" 100)) (.gesture gesture fresh requests)
      = .updatePost (typedEdit "a") :: plan.commands := by
    rw [first]
    simp only [waitingAfter, planned]
    rfl
  have executes : ((Server.holding joined.visible).execute joined.visible
      (.updatePost (typedEdit "a"))).map (·.2)
      = some (.postUpdated { Sample.post 11 10 1.0 with content := "a" }
          (some (Sample.post 11 10 1.0))) := by
    rw [joined_eq]
    decide +kernel
  have read : Inbound.ofText reportOfA
      = .ok (.applied (.postUpdated { Sample.post 11 10 1.0 with content := "a" } none)
          (some (.ofNat 100))) := by
    decide +kernel
  obtain ⟨⟨next, event⟩, executed, rfl⟩ := Option.map_eq_some_iff.mp executes
  exact ⟨_, .gesture (by simp) firstPlanned, _, .gesture keeps planned, next,
    .answer waiting executed read rfl, trivial⟩

/-- While the color of the second post waits for its answer, the text of the first one is
reported, and both posts look as they should.
-/
theorem looks_follow_gestures_iff_recolored
    : joined.Exchange (.holding joined.visible) []
          [typed "a" 100, recolored, .transport (.message reportOfA)]
      ∧ joined.AnswersUpToDate [] [typed "a" 100, recolored, .transport (.message reportOfA)]
      ∧ (joined.run [typed "a" 100, recolored, .transport (.message reportOfA)]).session.Wears
          (looksAfter joined.visible.look?
            [typed "a" 100, recolored, .transport (.message reportOfA)]) := by
  have planned : (joined.step (typed "a" 100)).session.planFor? recolored
      = some (Plan.ofEdit
          { (PostEdit.nothing (.ofNat 21) (.ofNat 1) : PostEdit Float) with
            color := some .lightAqua }) := by
    rw [joined_eq]
    rfl
  have exchange := exchange_reportOfA (by simp) planned
  have distinct : (joined.visible.groups.posts.map (·.id)).Nodup := by
    rw [joined_eq]
    decide
  have named : joined.visible.groups.Named := by
    rw [joined_eq]
    decide
  have upToDate : joined.AnswersUpToDate []
      [typed "a" 100, recolored, .transport (.message reportOfA)] := by
    rw [joined_eq]
    decide +kernel
  have wears := (looks_follow_gestures_iff distinct named exchange).mpr upToDate
  exact ⟨exchange, upToDate, wears _ (List.prefix_refl _)⟩

/-- The first post gets a text and then another one. The report of the first text brings it back
to the visible post, although the second one is still to be answered.
-/
theorem newer_text_undone_reportOfA
    : joined.ledger.operations = []
      ∧ joined.visible = joined.confirmed
      ∧ joined.Exchange (.holding joined.visible) []
          [typed "a" 100, typed "ab" 200, .transport (.message reportOfA)]
      ∧ looksAfter joined.visible.look?
            [typed "a" 100, typed "ab" 200, .transport (.message reportOfA)] (.ofNat 11)
          = some ⟨"ab", .lightPink, 100⟩
      ∧ (joined.run
            [typed "a" 100, typed "ab" 200, .transport (.message reportOfA)]).session.visible.look?
              (.ofNat 11)
          = some ⟨"a", .lightPink, 100⟩ := by
  have planned : (joined.step (typed "a" 100)).session.planFor? (typed "ab" 200)
      = some (Plan.ofEdit (typedEdit "ab")) := by
    rw [joined_eq]
    rfl
  refine ⟨rfl, rfl, exchange_reportOfA (by simp) planned, ?_⟩
  rw [joined_eq]
  decide +kernel

end Session

end SharedBoard
