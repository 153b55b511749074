import SharedBoard.Proofs.Session.Attendance
import SharedBoard.Proofs.Session.Authority
import SharedBoard.Proofs.Session.Survival
import SharedBoard.Proofs.Store.Marks

/-! Marks of typing in a session. A user is shown typing on a post that is not on the board only
after the server reported that they began to type there when the post was not on the visible or not
on the confirmed board, and only until something ends the mark.
-/

namespace SharedBoard.Session

variable {session : Session} {inputs : List Input} {user : UserId} {post : PostId}

/-- A mark that dangles comes onto the visible board with an input. It is misplaced by an event, or
comes from the confirmed board when a roll back shows that with what is still in flight.
-/
def Misplaces (session : Session) (user : UserId) (post : PostId) : Input → Prop
  | .transport (.message text) =>
      match Inbound.ofText text with
      | .ok (.applied event _) =>
          event.Misplaces session.visible (session.user.map (·.id)) user post
      | .ok (.rejected kind _ answer) =>
          kind ≠ .userAuthenticate ∧ ∃ undone rest,
            session.ledger.reject? kind answer = some (undone, rest)
            ∧ session.confirmed.Dangles user post
            ∧ ¬ Mutation.AnyClears post rest.mutations session.confirmed
      | .error _ => False
  | _ => False

/-- A mark that dangles goes from the visible board with an input. An event or a gesture clears it,
a roll back replaces the board, or the channel is another one.
-/
def Clears (session : Session) (user : UserId) (post : PostId) : Input → Prop
  | .transport (.opened _) => session.link.isTerminal = false
  | .transport (.closed _) => True
  | .transport (.message text) =>
      match Inbound.ofText text with
      | .ok (.applied event _) => event.Clears session.visible (session.user.map (·.id)) user post
      | .ok (.rejected kind _ answer) =>
          kind ≠ .userAuthenticate ∧ (session.ledger.reject? kind answer).isSome
      | .error _ => False
  | input =>
      ∃ plan, session.planFor? input = some plan
        ∧ Mutation.AnyClears post plan.mutations session.visible

-----------------------------------------------------------------------------------------
-- Steps
-----------------------------------------------------------------------------------------

/-- Without people nobody is typing. -/
theorem not_dangles_of_nobody {store : Store Float} (nobody : store.roster = [])
    : ¬ store.Dangles user post := by
  rintro ⟨⟨participant, member, _⟩, _⟩
  rw [nobody] at member
  exact nomatch member

/-- On a socket that is accepted nobody is known on either board. -/
theorem boards_opened (session : Session) (generation : Nat)
    : (session.step (.transport (.opened generation))).session.visible
        = (if session.link.isTerminal then session.visible
          else session.visible.rosterCleared.store)
      ∧ (session.step (.transport (.opened generation))).session.confirmed
        = (if session.link.isTerminal then session.confirmed
          else session.visible.rosterCleared.store) := by
  simp only [step, handle, authenticate]
  split
  · exact ⟨rfl, rfl⟩
  · simp only [Reaction.andThen]
    split <;> exact ⟨rfl, rfl⟩

/-- What is in flight brings groups with one post each. -/
def BringsOnes (session : Session) : Prop :=
  ∀ mutation ∈ session.ledger.mutations, mutation.BringsOne

/-- Which marks dangle on the visible board after a refusal. -/
theorem dangles_onRejected (ones : session.BringsOnes) (kind : EventKind) (message : String)
    (answer : Option RequestId)
    : (session.onRejected kind message answer).session.visible.Dangles user post
      ↔ (kind ≠ .userAuthenticate ∧ ∃ undone rest,
            session.ledger.reject? kind answer = some (undone, rest)
            ∧ session.confirmed.Dangles user post
            ∧ ¬ Mutation.AnyClears post rest.mutations session.confirmed)
        ∨ (session.visible.Dangles user post
          ∧ ¬ (kind ≠ .userAuthenticate ∧ (session.ledger.reject? kind answer).isSome)) := by
  unfold onRejected
  by_cases token : kind = .userAuthenticate
  · simp [token, Reaction.andThen]
  · simp only [if_neg token, Reaction.andThen, rollBack]
    cases refused : session.ledger.reject? kind answer with
    | none => simp [Reaction.quiet]
    | some result =>
        obtain ⟨undone, rest⟩ := result
        have restOnes : ∀ mutation ∈ rest.mutations, mutation.BringsOne := by
          intro mutation member
          obtain ⟨operation, inRest, inOperation⟩ := List.mem_flatMap.mp member
          have kept := Ledger.mem_of_mem_reject? refused inRest
          exact ones mutation (List.mem_flatMap.mpr ⟨operation, kept, inOperation⟩)
        have replayed := Mutation.dangles_applyAll session.confirmed user post restOnes
        simpa [token, Ledger.replay] using replayed

/-- Which marks dangle on the visible board after an input, by cases on it. -/
theorem dangles_step (distinct : session.visible.Distinct) (ones : session.BringsOnes)
    (input : Input)
    : (session.step input).session.visible.Dangles user post
      ↔ session.Misplaces user post input
        ∨ session.visible.Dangles user post ∧ ¬ session.Clears user post input := by
  cases input with
  | transport event =>
      cases event with
      | connecting => simp [step, handle, follow, Misplaces, Clears, planFor?]
      | closed reason =>
          exact iff_of_false (not_dangles_of_nobody session.visible.roster_rosterCleared)
            (by simp [Misplaces, Clears])
      | opened generation =>
          rw [(session.boards_opened generation).1]
          cases terminal : session.link.isTerminal with
          | true => simp [Misplaces, Clears, terminal]
          | false =>
              exact iff_of_false (not_dangles_of_nobody session.visible.roster_rosterCleared)
                (by simp [Misplaces, Clears, terminal])
      | message text =>
          simp only [step, handle, onMessage, Misplaces, Clears]
          cases Inbound.ofText text with
          | error _ => simp [Reaction.quiet]
          | ok inbound =>
              cases inbound with
              | rejected kind message answer => exact dangles_onRejected ones kind message answer
              | applied event answer =>
                  simp only [(session.boards_onEvent event answer).1]
                  exact event.dangles_reduce distinct
  | gesture gesture fresh requests =>
      rcases session.gesture_cases gesture fresh requests with
        ⟨unplanned, unchanged⟩ | ⟨plan, generation, planned, ⟨actor, made⟩, committed⟩
      · simp [unchanged, unplanned, Reaction.quiet, Misplaces, Clears]
      · have applied := Mutation.dangles_applyAll session.visible user post made.bringsOne
        simpa [committed, planned, commit, Misplaces, Clears, Plan.apply] using applied
  | focus on => simp [session_step_focus, Misplaces, Clears, planFor?]
  | setColor color => simp [step, setColor, Reaction.quiet, Misplaces, Clears, planFor?]
  | close => simp [step, close, follow, Reaction.andThen, Misplaces, Clears, planFor?]

-----------------------------------------------------------------------------------------
-- Runs
-----------------------------------------------------------------------------------------

/-- What is in flight in a run was made by its gestures, which bring one post each. -/
theorem bringsOnes_run (atRest : session.ledger.operations = []) (inputs : List Input)
    : (session.run inputs).session.BringsOnes :=
  AllCarriedOut.bringsOne fun _ member => exists_carriedOut atRest member

variable {board : Board} {groups : List (Group Float)} {token : Option String} {color : Color}
  {grid : Option Int32}

/-- Which marks dangle on the visible board after the last input of a run. -/
theorem dangles_run_concat (last : Input)
    : ((start board groups token color grid).run (inputs ++ [last])).session.visible.Dangles user
          post
      ↔ ((start board groups token color grid).run inputs).session.Misplaces user post last
        ∨ ((start board groups token color grid).run inputs).session.visible.Dangles user post
          ∧ ¬ ((start board groups token color grid).run inputs).session.Clears user post last := by
  have attended := (attended_start board groups token color grid).run inputs
  rw [run_concat]
  exact dangles_step attended.visibleDistinct (bringsOnes_run rfl inputs) last

/-- No mark dangles in a run exactly if none is misplaced in it, by induction over its parts. -/
theorem undangled_iff
    : let session := start board groups token color grid
      (∀ early, early <+: inputs → ¬ (session.run early).session.visible.Dangles user post)
        ↔ ∀ early last, early ++ [last] <+: inputs →
          ¬ (session.run early).session.Misplaces user post last := by
  intro session
  constructor
  · intro tidy early last within misplaced
    exact tidy _ within ((dangles_run_concat last).mpr (.inl misplaced))
  · intro placed early
    induction early using List.reverseRecOn with
    | nil => exact fun _ => not_dangles_of_nobody rfl
    | append_singleton early last ih =>
        intro within dangles
        rcases (dangles_run_concat last).mp dangles with misplaced | ⟨before, _⟩
        · exact placed early last within misplaced
        · exact ih ((List.prefix_append early [last]).trans within) before

/-- A server reported that a user began to type on a post that was not on one of the boards then. -/
inductive BeganElsewhere (session : Session) (user : UserId) (post : PostId)
    : List Input → Prop where
  | reported {early late : List Input} {text : String} {focused : Post Float} {typist : User}
    {answer : Option RequestId}
    (read : Inbound.ofText text = .ok (.applied (.postFocused focused typist) answer))
    (sameUser : typist.id = user) (samePost : focused.id = post)
    (absent
      : (session.run early).session.visible.post? post = none
        ∨ (session.run early).session.confirmed.post? post = none)
    : BeganElsewhere session user post (early ++ .transport (.message text) :: late)

/-- What was reported in a run was so in any longer one. -/
theorem BeganElsewhere.concat (began : session.BeganElsewhere user post inputs) (last : Input)
    : session.BeganElsewhere user post (inputs ++ [last]) := by
  obtain ⟨read, sameUser, samePost, absent⟩ := began
  rw [List.append_assoc]
  exact .reported read sameUser samePost absent

/-- A mark that an event misplaces is one of a report that a user began to type. -/
theorem began_of_misplaces {text : String} {event : Event Float} {answer : Option RequestId}
    (read : Inbound.ofText text = .ok (.applied event answer)) {store : Store Float}
    {localUser : Option UserId} (misplaces : event.Misplaces store localUser user post)
    (shown
      : (session.run inputs).session.visible = store
        ∨ (session.run inputs).session.confirmed = store)
    : session.BeganElsewhere user post (inputs ++ [.transport (.message text)]) := by
  cases event with
  | postFocused focused typist =>
      obtain ⟨_, _, rfl, rfl, absent⟩ := misplaces
      refine .reported read rfl rfl (shown.imp (fun same => ?_) fun same => ?_)
      · rw [same]
        exact absent
      · rw [same]
        exact absent
  | _ => exact misplaces.elim

/-- A success is an event that a frame brings. -/
theorem exists_frame_of_success? {input : Input} {event : Event Float}
    (success : input.success? = some event)
    : ∃ text answer, input = .transport (.message text)
        ∧ Inbound.ofText text = .ok (.applied event answer) := by
  unfold Input.success? at success
  split at success
  · next text =>
      split at success
      · simp at success
      · next event answer _ read =>
          obtain rfl := Option.some.inj success
          exact ⟨text, answer, rfl, read⟩
      · simp at success
  · simp at success

/-- A mark that dangles on the confirmed board after an input did before, or is misplaced there. -/
theorem dangles_confirmed_step (distinct : session.confirmed.Distinct) {input : Input}
    (dangles : (session.step input).session.confirmed.Dangles user post)
    : session.confirmed.Dangles user post
      ∨ ∃ text event answer,
          input = .transport (.message text)
          ∧ Inbound.ofText text = .ok (.applied event answer)
          ∧ event.Misplaces session.confirmed (session.user.map (·.id)) user post := by
  cases changes : input.changesChannel with
  | true =>
      have nobody : ¬ session.visible.rosterCleared.store.Dangles user post :=
        not_dangles_of_nobody session.visible.roster_rosterCleared
      unfold Input.changesChannel at changes
      split at changes
      · next generation =>
          rw [(session.boards_opened generation).2] at dangles
          split at dangles
          · exact .inl dangles
          · exact absurd dangles nobody
      · exact absurd dangles nobody
      · simp at changes
  | false =>
      rw [confirmed_step session changes] at dangles
      cases success : input.success? with
      | none =>
          rw [success] at dangles
          exact .inl dangles
      | some event =>
          rw [success] at dangles
          obtain ⟨text, answer, rfl, read⟩ := exists_frame_of_success? success
          rcases (event.dangles_reduce distinct).mp dangles with misplaced | ⟨before, _⟩
          · exact .inr ⟨text, event, answer, rfl, read, misplaced⟩
          · exact .inl before

/-- A mark that an input misplaces was reported, if those of the confirmed board were. -/
theorem began_of_misplaces_step {last : Input}
    (confirmed
      : (session.run inputs).session.confirmed.Dangles user post →
        session.BeganElsewhere user post inputs)
    (misplaces : (session.run inputs).session.Misplaces user post last)
    : session.BeganElsewhere user post (inputs ++ [last]) := by
  unfold Misplaces at misplaces
  split at misplaces
  · next text =>
      split at misplaces
      · next event answer read => exact began_of_misplaces read misplaces (.inl rfl)
      · obtain ⟨_, _, _, _, dangles, _⟩ := misplaces
        exact (confirmed dangles).concat _
      · exact misplaces.elim
  · exact misplaces.elim

/-- A mark that dangles on either board of a session was reported, by induction over the run from
its end.
-/
theorem began_of_dangles
    : let session := start board groups token color grid
      (session.run inputs).session.visible.Dangles user post
        ∨ (session.run inputs).session.confirmed.Dangles user post
      → session.BeganElsewhere user post inputs := by
  intro session
  induction inputs using List.reverseRecOn with
  | nil =>
      rintro (dangles | dangles)
      · exact (not_dangles_of_nobody rfl dangles).elim
      · exact (not_dangles_of_nobody rfl dangles).elim
  | append_singleton early last ih =>
      rintro (dangles | dangles)
      · rcases (dangles_run_concat last).mp dangles with misplaced | ⟨before, _⟩
        · exact began_of_misplaces_step (fun dangles => ih (.inr dangles)) misplaced
        · exact (ih (.inl before)).concat last
      · have attended := (attended_start board groups token color grid).run early
        rw [run_concat] at dangles
        rcases dangles_confirmed_step attended.confirmedDistinct dangles with
          before | ⟨text, event, answer, rfl, read, misplaced⟩
        · exact (ih (.inr before)).concat last
        · exact began_of_misplaces read misplaced (.inr rfl)

-----------------------------------------------------------------------------------------
-- All runs
-----------------------------------------------------------------------------------------

/-- After a post is reported deleted, a user is shown typing on it if they were before and the post
was not on the visible board then.
-/
theorem types_postDeleted {text : String} {gone : Post Float} {answer : Option RequestId}
    (read : Inbound.ofText text = .ok (.applied (.postDeleted gone) answer))
    : (session.step (.transport (.message text))).session.visible.Types user gone.id
      ↔ session.visible.Dangles user gone.id := by
  simp only [step, handle, onMessage, read, (session.boards_onEvent _ answer).1]
  change (session.visible.postRemoved gone).store.Types user gone.id ↔ _
  by_cases present : (session.visible.post? gone.id).isSome
  · have here := Option.isSome_iff_ne_none.mp present
    simp [Store.types_postRemoved present, Store.Dangles, here]
  · rw [Store.postRemoved_of_not_isSome present]
    exact (and_iff_left (Option.not_isSome_iff_eq_none.mp present)).symm

/-- Marks of typing that dangle, for whatever happens to a session. After an input a user is shown
typing on a post that is not on the visible board if the mark is misplaced with that input, or was
there before and is not cleared. So no mark dangles in a run exactly if none is misplaced, which
takes a report that the user began to type there when the post was not on one of the boards. A
deletion ends the marks of a post, or all that dangle, unless the visible board was without the
post or the group already.
-/
theorem typing_marks_dangle_iff (board : Board) (groups : List (Group Float))
    (token : Option String) (color : Color) (grid : Option Int32) (inputs : List Input)
    : let session := start board groups token color grid
      let reached := (session.run inputs).session
      (∀ last user post,
        (reached.step last).session.visible.Dangles user post
          ↔ reached.Misplaces user post last
            ∨ reached.visible.Dangles user post ∧ ¬ reached.Clears user post last)
      ∧ (∀ user post,
        (∀ early, early <+: inputs → ¬ (session.run early).session.visible.Dangles user post)
          ↔ ∀ early last, early ++ [last] <+: inputs →
            ¬ (session.run early).session.Misplaces user post last)
      ∧ (∀ user post,
        reached.visible.Dangles user post → session.BeganElsewhere user post inputs)
      ∧ (∀ text gone answer,
        Inbound.ofText text = .ok (.applied (.postDeleted gone) answer) →
          ∀ user,
            (reached.step (.transport (.message text))).session.visible.Types user gone.id
              ↔ reached.visible.Dangles user gone.id)
      ∧ ∀ text id answer,
        Inbound.ofText text = .ok (.applied (.groupDeleted id) answer) →
          ∀ user post,
            (reached.step (.transport (.message text))).session.visible.Dangles user post
              ↔ reached.visible.Dangles user post ∧ reached.visible.group? id = none := by
  intro session reached
  refine ⟨fun last user post => ?_, fun user post => undangled_iff,
    fun user post dangles => began_of_dangles (.inl dangles),
    fun text gone answer read user => types_postDeleted read,
    fun text id answer read user post => ?_⟩
  · rw [← run_concat]
    exact dangles_run_concat last
  · simp only [step, handle, onMessage, read, (reached.boards_onEvent _ answer).1]
    exact Store.dangles_groupRemoved

/-- Another user joins, and the owner deletes the only post of the first group, which asks for the
group to go. Then it is reported that the other one began to type on the post.
-/
def typedOnDeleted : List Input :=
  Sample.handshake
    ++ [.transport (.message
          ("[\"board.connect\",true,[null,[[\"00000000-0000-0000-0000-000000000007\",\"Ada\"]],"
            ++ "[\"00000000-0000-0000-0000-000000000008\",\"Bo\"]]]")),
        .gesture (.deletePost (.ofNat 11)) Sample.fresh (Sample.requests 100),
        .transport (.message
          ("[\"post.focus\",true,[[\"00000000-0000-0000-0000-00000000000b\","
            ++ "\"00000000-0000-0000-0000-000000000001\","
            ++ "\"00000000-0000-0000-0000-000000000007\",\"\",\"#F5E6E8\",100,"
            ++ "\"00000000-0000-0000-0000-00000000000a\",1,"
            ++ "\"1970-01-01T00:00:00Z\",\"1970-01-01T00:00:00Z\"],"
            ++ "[\"00000000-0000-0000-0000-000000000008\",\"Bo\"]]]"))]

/-- The server confirms that the group is gone. -/
def groupGone : String :=
  "[\"post_group.delete\",true,[\"00000000-0000-0000-0000-00000000000a\"],null,"
    ++ "\"00000000-0000-0000-0000-000000000064\"]"

/-- Both before and after the server's answer the other user is shown typing on the post. -/
theorem shown_typedOnDeleted
    : let reached := ((start Sample.board Sample.pair (some "token") .lightPink none).run
        typedOnDeleted).session
      let answered := (reached.step (.transport (.message groupGone))).session
      reached.visible.roster.map (fun participant => (participant.user.id, participant.typing))
          = [(.ofNat 7, none), (.ofNat 8, some (.ofNat 11))]
        ∧ (reached.visible.post? (.ofNat 11)).isNone = true
        ∧ answered.visible.roster.map (fun participant => (participant.user.id, participant.typing))
          = [(.ofNat 7, none), (.ofNat 8, some (.ofNat 11))]
        ∧ (answered.visible.post? (.ofNat 11)).isNone = true := by
  unfold start
  rw [Sample.ofGroups_pair]
  decide +kernel

/-- After the group of a post was reported deleted, a user is shown typing on the post. -/
theorem mark_left_typedOnDeleted
    : Inbound.ofText groupGone = .ok (.applied (.groupDeleted (.ofNat 10)) (some (.ofNat 100)))
      ∧ ((start Sample.board Sample.pair (some "token") .lightPink none).run
          (typedOnDeleted ++ [.transport (.message groupGone)])).session.visible.Dangles
            (.ofNat 8) (.ofNat 11) := by
  obtain ⟨_, _, shown, gone⟩ := shown_typedOnDeleted
  refine ⟨by decide +kernel, ?_⟩
  rw [run_concat]
  refine ⟨Store.types_iff_mem.mpr ?_, Option.isNone_iff_eq_none.mp gone⟩
  rw [shown]
  decide

/-- The mark came with the report about a post that the visible board had not any more. -/
theorem typing_marks_dangle_iff_typedOnDeleted
    : (start Sample.board Sample.pair (some "token") .lightPink none).BeganElsewhere
        (.ofNat 8) (.ofNat 11) typedOnDeleted := by
  obtain ⟨shown, gone, _⟩ := shown_typedOnDeleted
  obtain ⟨_, _, began, _⟩ := typing_marks_dangle_iff Sample.board Sample.pair (some "token")
    .lightPink none typedOnDeleted
  refine began (.ofNat 8) (.ofNat 11)
    ⟨Store.types_iff_mem.mpr ?_, Option.isNone_iff_eq_none.mp gone⟩
  rw [shown]
  decide

end SharedBoard.Session
