import SharedBoard.Proofs.Plan.Removal
import SharedBoard.Proofs.Store.Participants

/-! Who is shown typing on what. A mark dangles if its post is not on the board. Only the report
that a user began to type can bring a dangling mark; everything else leaves such marks as they are,
or ends them.
-/

namespace SharedBoard

variable {κ : Type}

namespace Participant

variable {participant : Participant} {user : UserId} {post gone : PostId}

theorem typing_stopTypingOn
    : (participant.stopTypingOn gone).typing = some post
      ↔ participant.typing = some post ∧ post ≠ gone := by
  unfold stopTypingOn
  split
  · next there => simp [there, eq_comm]
  · next other =>
      refine (and_iff_left_of_imp fun typing same => other ?_).symm
      exact typing.trans (congrArg some same)

theorem typing_focusedBy {began : UserId}
    : (participant.focusedBy began gone).typing = some post
      ↔ (participant.user.id = began ∧ post = gone)
        ∨ (participant.user.id ≠ began ∧ participant.typing = some post ∧ post ≠ gone) := by
  unfold focusedBy
  split
  · next own => simp [own, eq_comm]
  · next other => simp [other, typing_stopTypingOn]

end Participant

namespace Store

/-- A user is shown typing on a post. -/
def Types (store : Store κ) (user : UserId) (post : PostId) : Prop :=
  ∃ participant ∈ store.roster, participant.user.id = user ∧ participant.typing = some post

/-- A user is shown typing on a post that is not on the board. -/
def Dangles (store : Store κ) (user : UserId) (post : PostId) : Prop :=
  store.Types user post ∧ store.post? post = none

variable {store before after : Store κ} {user : UserId} {post : PostId}

-----------------------------------------------------------------------------------------
-- Marks
-----------------------------------------------------------------------------------------

theorem types_congr (same : after.roster = before.roster)
    : after.Types user post ↔ before.Types user post := by
  rw [Types, Types, same]

theorem types_iff_mem
    : store.Types user post
      ↔ (user, some post)
          ∈ store.roster.map (fun participant => (participant.user.id, participant.typing)) := by
  simp only [Types, List.mem_map, Prod.mk.injEq]

/-- Where every participant is changed, marks are those of the changed participants. -/
theorem types_map {change : Participant → Participant}
    (changed : after.roster = before.roster.map change)
    : after.Types user post
      ↔ ∃ participant ∈ before.roster,
          (change participant).user.id = user ∧ (change participant).typing = some post := by
  simp only [Types, changed, List.mem_map, exists_exists_and_eq_and]

/-- Where everybody goes on typing on a post or stops, its marks stay or go. -/
theorem types_silenced {change : Participant → Participant}
    (changed : after.roster = before.roster.map change)
    (kept : ∀ participant, (change participant).user = participant.user) {stays : Prop}
    (silenced
      : ∀ participant : Participant,
          (change participant).typing = some post ↔ participant.typing = some post ∧ stays)
    : after.Types user post ↔ before.Types user post ∧ stays := by
  rw [types_map changed, Types]
  simp only [kept, silenced, ← and_assoc, exists_and_right]

theorem types_typingStopped {gone : PostId}
    : (store.typingStopped gone).store.Types user post ↔ store.Types user post ∧ post ≠ gone :=
  types_silenced (store.roster_typingStopped gone)
    (fun participant => (participant.quieter_stopTypingOn gone).1)
    fun _ => Participant.typing_stopTypingOn

/-- A participant is typing nowhere if the post is not on the board. -/
theorem isTypingNowhere_iff (store : Store κ) {participant : Participant}
    (typing : participant.typing = some post)
    : store.isTypingNowhere participant = true ↔ ¬ (store.post? post).isSome := by
  rw [isTypingNowhere, typing, Option.any_some, locate?, Option.isNone_iff_eq_none,
    GroupTable.locate?_eq_none_iff, isSome_post?_iff]
  simp

/-- Marks of posts that are on the board stay, and no others. -/
theorem types_typingStoppedNowhere
    : store.typingStoppedNowhere.store.Types user post
      ↔ store.Types user post ∧ (store.post? post).isSome := by
  unfold typingStoppedNowhere
  split
  · refine types_silenced rfl (fun participant => ?_) fun participant => ?_
    · split <;> rfl
    · by_cases there : participant.typing = some post
      · have nowhere := store.isTypingNowhere_iff there
        by_cases present : (store.post? post).isSome
        · rw [if_neg fun absent => nowhere.mp absent present]
          simp [there, present]
        · rw [if_pos (nowhere.mpr present)]
          simp [present]
      · split <;> simp [there]
  · next nobody =>
      refine (and_iff_left_of_imp fun ⟨participant, member, _, typing⟩ => ?_).symm
      by_contra absent
      exact nobody (List.any_eq_true.mpr
        ⟨participant, member, (store.isTypingNowhere_iff typing).mpr absent⟩)

theorem isConnected_iff
    : store.isConnected user ↔ ∃ participant ∈ store.roster, participant.user.id = user := by
  simp [isConnected]

/-- A user who begins to type does so alone, and nowhere else, if they are connected. -/
theorem types_focused {began : UserId} {on : PostId}
    : (store.focused began on).store.Types user post
      ↔ (store.isConnected began ∧ user = began ∧ post = on)
        ∨ (store.Types user post ∧ (store.isConnected began → user ≠ began ∧ post ≠ on)) := by
  unfold focused
  split
  · next connected =>
      let seated := store.roster.map (·.focusedBy began on)
      have changed : (store.withRoster seated).store.roster = seated := rfl
      rw [types_map changed]
      simp only [Participant.user_focusedBy, Participant.typing_focusedBy, connected, true_and,
        true_implies]
      constructor
      · rintro ⟨participant, member, rfl, ⟨rfl, rfl⟩ | ⟨other, typing, elsewhere⟩⟩
        · exact .inl ⟨rfl, rfl⟩
        · exact .inr ⟨⟨participant, member, rfl, typing⟩, other, elsewhere⟩
      · rintro (⟨rfl, rfl⟩ | ⟨⟨participant, member, rfl, typing⟩, other, elsewhere⟩)
        · obtain ⟨participant, member, same⟩ := isConnected_iff.mp connected
          exact ⟨participant, member, same, .inl ⟨same, rfl⟩⟩
        · exact ⟨participant, member, rfl, .inr ⟨other, typing, elsewhere⟩⟩
  · next absent => simp [absent, unchanged]

theorem types_left {gone : UserId}
    : (store.left gone).store.Types user post ↔ store.Types user post ∧ user ≠ gone := by
  unfold left
  split
  · simp only [withRoster, Types, List.mem_filter, bne_iff_ne]
    constructor
    · rintro ⟨participant, ⟨member, other⟩, rfl, typing⟩
      exact ⟨⟨participant, member, rfl, typing⟩, other⟩
    · rintro ⟨⟨participant, member, rfl, typing⟩, other⟩
      exact ⟨participant, ⟨member, other⟩, rfl, typing⟩
  · next absent =>
      refine (and_iff_left_of_imp ?_).symm
      rintro ⟨participant, member, own, _⟩ same
      exact absent (isConnected_iff.mpr ⟨participant, member, own.trans same⟩)

/-- Users who are kept have the identifiers of those who come, by induction over these. -/
theorem exists_mem_firstOfEach {users : List User}
    : (∃ kept ∈ firstOfEach users, kept.id = user) ↔ ∃ other ∈ users, other.id = user := by
  have step (kept : List User)
      : (∃ found ∈ users.foldl
            (fun kept user => if kept.any (·.id == user.id) then kept else kept ++ [user]) kept,
          found.id = user)
        ↔ (∃ found ∈ kept, found.id = user) ∨ ∃ other ∈ users, other.id = user := by
    induction users generalizing kept with
    | nil => simp
    | cons head rest ih =>
        rw [List.foldl_cons, ih, List.exists_mem_cons_iff, ← or_assoc]
        refine or_congr_left ?_
        split
        · next known =>
            obtain ⟨found, member, same⟩ := List.any_eq_true.mp known
            refine (or_iff_left_of_imp fun own => ⟨found, member, ?_⟩).symm
            exact (beq_iff_eq.mp same).trans own
        · simp [or_and_right, exists_or]
  exact (step []).trans (by simp)

/-- The mark of a user is that of the first participant with the identifier, since there is one at
most.
-/
theorem Distinct.types_iff (distinct : store.Distinct)
    : store.Types user post
      ↔ (store.roster.find? (·.user.id == user)).bind (·.typing) = some post := by
  constructor
  · rintro ⟨participant, member, rfl, typing⟩
    have first : store.roster.find? (·.user.id == participant.user.id) = some participant := by
      cases found : store.roster.find? (·.user.id == participant.user.id) with
      | none => exact absurd (List.find?_eq_none.mp found participant member) (by simp)
      | some other =>
          have same : other.user.id = participant.user.id := by
            simpa using List.find?_some found
          by_contra differs
          have symmetric : Std.Symm Participant.Apart := ⟨fun _ _ => Participant.Apart.symm⟩
          exact (List.Pairwise.forall distinct (List.mem_of_find?_eq_some found) member
            fun equal => differs (congrArg some equal)).1 same
    rw [first, Option.bind_some, typing]
  · intro typing
    obtain ⟨participant, found, typing⟩ := Option.bind_eq_some_iff.mp typing
    have same := List.find?_some found
    exact ⟨participant, List.mem_of_find?_eq_some found, beq_iff_eq.mp same, typing⟩

/-- Users who are on a new list go on typing on what they typed on. -/
theorem types_joined (distinct : store.Distinct) {connected : List User} {newUser : User}
    : (store.joined connected newUser).store.Types user post
      ↔ store.Types user post ∧ ∃ other ∈ connected ++ [newUser], other.id = user := by
  rw [← exists_mem_firstOfEach, distinct.types_iff]
  simp only [joined, withRoster, Types, List.mem_map, exists_exists_and_eq_and]
  constructor
  · rintro ⟨listed, member, rfl, typing⟩
    exact ⟨typing, listed, member, rfl⟩
  · rintro ⟨typing, listed, member, rfl⟩
    exact ⟨listed, member, rfl, typing⟩

-----------------------------------------------------------------------------------------
-- Dangling marks
-----------------------------------------------------------------------------------------

/-- A mark dangles as before where neither marks nor posts change. -/
theorem dangles_congr (types : after.Types user post ↔ before.Types user post)
    (posts : (after.post? post).isSome ↔ (before.post? post).isSome)
    : after.Dangles user post ↔ before.Dangles user post := by
  simp only [Dangles, ← Option.not_isSome_iff_eq_none, types, posts]

theorem post?_of_sameBoard (same : before.SameBoard after)
    : after.post? post = before.post? post := by
  simp only [post?, locate?, group?, same.1]

theorem dangles_left {gone : UserId}
    : (store.left gone).store.Dangles user post ↔ store.Dangles user post ∧ user ≠ gone := by
  rw [Dangles, Dangles, post?_of_sameBoard (store.left_sameBoard gone), types_left, and_right_comm]

theorem dangles_joined (distinct : store.Distinct) {connected : List User} {newUser : User}
    : (store.joined connected newUser).store.Dangles user post
      ↔ store.Dangles user post ∧ ∃ other ∈ connected ++ [newUser], other.id = user := by
  rw [Dangles, Dangles, post?_of_sameBoard (store.joined_sameBoard connected newUser),
    types_joined distinct, and_right_comm]

theorem dangles_focused {began : UserId} {on : PostId}
    : (store.focused began on).store.Dangles user post
      ↔ (store.isConnected began ∧ user = began ∧ post = on ∧ store.post? post = none)
        ∨ (store.Dangles user post ∧ (store.isConnected began → user ≠ began ∧ post ≠ on)) := by
  rw [Dangles, Dangles, post?_of_sameBoard (store.focused_sameBoard began on), types_focused]
  tauto

variable [OrderKey κ]

/-- A post that comes to a board ends the marks that dangle for it. -/
theorem dangles_of_receives {new : Post κ} (user : UserId) (post : PostId)
    (same : after.roster = before.roster) (receives : before.groups.Receives after.groups new)
    : after.Dangles user post ↔ before.Dangles user post ∧ new.id ≠ post := by
  simp only [Dangles, ← Option.not_isSome_iff_eq_none, types_congr same,
    isSome_post?_of_receives receives, not_or, ne_comm (a := new.id)]
  tauto

/-- A mark of the post that is updated goes, whether the board has its group or not. -/
theorem dangles_postUpdated {new : Post κ}
    : (store.postUpdated new).store.Dangles user post
      ↔ store.Dangles user post ∧ new.id ≠ post := by
  have types : (store.postUpdated new).store.Types user post
      ↔ store.Types user post ∧ post ≠ new.id :=
    types_typingStopped.trans (and_congr_left' (types_congr (store.roster_edit _)))
  have posts (other : post ≠ new.id)
      : ((store.postUpdated new).store.post? post).isSome ↔ (store.post? post).isSome := by
    cases target : store.group? new.group with
    | none =>
        refine isSome_post?_of_perm ?_
        rw [groups_postUpdated_of_absent target]
    | some group =>
        rw [isSome_post?_of_receives (postUpdated_receives target)]
        exact or_iff_right other
  simp only [Dangles, ← Option.not_isSome_iff_eq_none, types, ne_comm (a := new.id)]
  constructor
  · rintro ⟨⟨typing, other⟩, absent⟩
    exact ⟨⟨typing, fun present => absent ((posts other).mpr present)⟩, other⟩
  · rintro ⟨⟨typing, absent⟩, other⟩
    exact ⟨⟨typing, other⟩, fun present => absent ((posts other).mp present)⟩

theorem dangles_groupPatched {patch : GroupPatch}
    : (store.groupPatched patch).store.Dangles user post ↔ store.Dangles user post :=
  dangles_congr (types_congr (store.roster_groupPatched patch))
    (isSome_post?_of_perm (store.posts_groupPatched patch))

omit [OrderKey κ] in
theorem postRemoved_of_not_isSome {gone : Post κ} (absent : ¬ (store.post? gone.id).isSome)
    : store.postRemoved gone = store.unchanged := by
  rw [isSome_post?_iff] at absent
  exact postRemoved_of_absent fun old member same => absent ⟨old, member, same⟩

omit [OrderKey κ] in
/-- A post that is on the board is removed with its marks. -/
theorem types_postRemoved {gone : Post κ} (present : (store.post? gone.id).isSome)
    : (store.postRemoved gone).store.Types user post
      ↔ store.Types user post ∧ post ≠ gone.id := by
  have located : (store.groups.locate? gone.id (some gone.group)).isSome := by
    obtain ⟨old, member, same⟩ := isSome_post?_iff.mp present
    by_contra absent
    rw [Option.not_isSome_iff_eq_none, GroupTable.locate?_eq_none_iff] at absent
    exact absent old member same
  rw [postRemoved, if_pos located, Update.andThen_store, types_typingStopped,
    types_congr (store.roster_edit _)]

omit [OrderKey κ] in
theorem dangles_postRemoved {gone : Post κ}
    : (store.postRemoved gone).store.Dangles user post ↔ store.Dangles user post := by
  by_cases present : (store.post? gone.id).isSome
  · by_cases own : post = gone.id
    · subst own
      have here := Option.isSome_iff_ne_none.mp present
      simp [Dangles, types_postRemoved present, here]
    · refine dangles_congr ((types_postRemoved present).trans (and_iff_left own)) ?_
      rw [isSome_post?_iff, isSome_post?_iff]
      constructor
      · rintro ⟨old, member, rfl⟩
        exact ⟨old, (store.postRemoved_sheds gone).subset member, rfl⟩
      · rintro ⟨old, member, rfl⟩
        exact ⟨old, (store.postRemoved_sheds gone).mem member own, rfl⟩
  · rw [postRemoved_of_not_isSome present]
    exact Iff.rfl

omit [OrderKey κ] in
/-- With a group that is on the board all marks go that dangle then. -/
theorem dangles_groupRemoved {id : GroupId}
    : (store.groupRemoved id).store.Dangles user post
      ↔ store.Dangles user post ∧ store.group? id = none := by
  cases found : store.group? id with
  | none =>
      rw [groupRemoved_of_absent found]
      exact (and_iff_left rfl).symm
  | some group =>
      refine iff_of_false ?_ (by simp)
      rintro ⟨typing, absent⟩
      rw [groupRemoved, if_pos (contains_of_group? found), Update.andThen_store] at typing absent
      obtain ⟨_, present⟩ := types_typingStoppedNowhere.mp typing
      rw [post?_of_sameBoard (typingStoppedNowhere_sameBoard _)] at absent
      exact Option.isSome_iff_ne_none.mp present absent

theorem roster_groupCreated (group : Group κ)
    : (store.groupCreated group).store.roster = store.roster := by
  unfold groupCreated
  split
  · rfl
  · exact store.roster_edit _

theorem roster_postCreated (new : Post κ) (group : Group κ)
    : (store.postCreated new group).store.roster = store.roster := by
  unfold postCreated
  split
  · exact store.roster_edit _
  · exact roster_groupCreated _

end Store

-----------------------------------------------------------------------------------------
-- Events and mutations
-----------------------------------------------------------------------------------------

namespace Event

/-- A mark that dangles comes with an event: a connected user, who is not the local one, begins to
type on a post that is not on the board.
-/
def Misplaces (store : Store κ) (localUser : Option UserId) (user : UserId) (post : PostId)
    : Event κ → Prop
  | .postFocused focused typist =>
      localUser ≠ some typist.id ∧ store.isConnected typist.id
        ∧ user = typist.id ∧ post = focused.id ∧ store.post? post = none
  | _ => False

/-- A mark that dangles goes with an event: its user leaves or begins to type elsewhere, or somebody
else does on its post; the post comes to the board or is updated; or any group leaves the board.
-/
def Clears (store : Store κ) (localUser : Option UserId) (user : UserId) (post : PostId)
    : Event κ → Prop
  | .boardConnected connected newUser => ¬ ∃ other ∈ connected ++ [newUser], other.id = user
  | .boardDisconnected gone => user = gone
  | .postCreated new _ => new.id = post
  | .postUpdated new _ => new.id = post
  | .postDetached new _ => new.id = post
  | .postFocused focused typist =>
      localUser ≠ some typist.id ∧ store.isConnected typist.id
        ∧ (user = typist.id ∨ post = focused.id)
  | .groupDeleted id => store.group? id ≠ none
  | _ => False

/-- Which marks dangle after an event, by cases on it. -/
theorem dangles_reduce [OrderKey κ] {store : Store κ} (distinct : store.Distinct)
    {localUser : Option UserId} {user : UserId} {post : PostId} (event : Event κ)
    : (store.reduce localUser event).store.Dangles user post
      ↔ event.Misplaces store localUser user post
        ∨ store.Dangles user post ∧ ¬ event.Clears store localUser user post := by
  cases event with
  | authenticated user => simp [Store.reduce, Store.unchanged, Misplaces, Clears]
  | boardConnected connected newUser =>
      simp only [Store.reduce, Store.dangles_joined distinct, Misplaces, Clears, false_or, not_not]
  | boardDisconnected gone =>
      simp only [Store.reduce, Store.dangles_left, Misplaces, Clears, false_or]
  | postCreated new group =>
      have came := Store.dangles_of_receives user post
        (Store.roster_postCreated new group) (store.postCreated_receives new group)
      simp only [Store.reduce, Misplaces, Clears, false_or]
      exact came
  | postUpdated new old =>
      simp only [Store.reduce, Store.dangles_postUpdated, Misplaces, Clears, false_or]
  | postDeleted gone =>
      simp only [Store.reduce, Store.dangles_postRemoved, Misplaces, Clears, false_or,
        not_false_eq_true, and_true]
  | postDetached new group =>
      have came := Store.dangles_of_receives user post (store.roster_edit _)
        (store.postDetached_receives new group)
      simp only [Store.reduce, Misplaces, Clears, false_or]
      exact came
  | groupUpdated patch =>
      simp only [Store.reduce, Store.dangles_groupPatched, Misplaces, Clears, false_or,
        not_false_eq_true, and_true]
  | groupDeleted id =>
      simp only [Store.reduce, Store.dangles_groupRemoved, Misplaces, Clears, false_or, not_not]
  | postFocused focused typist =>
      simp only [Store.reduce, Misplaces, Clears]
      split
      · next own => simp [own, Store.unchanged]
      · next other =>
          simp only [Store.dangles_focused]
          tauto

end Event

namespace Mutation

/-- A mark that dangles goes with a mutation: its post comes in a group, or any group leaves the
board.
-/
def Clears (store : Store κ) (post : PostId) : Mutation κ → Prop
  | .removeGroup id => store.group? id ≠ none
  | mutation => mutation.Brings post

variable [OrderKey κ] {store : Store κ} {user : UserId} {post : PostId}

omit [OrderKey κ] in
/-- A mark that dangles is not one of a post that is found. -/
theorem ne_of_dangles {id : PostId} {found : Post κ} (here : store.post? id = some found)
    (dangles : store.Dangles user post)
    : found.id ≠ post := by
  rintro rfl
  rw [(Store.mem_posts_of_post? here).2, Store.Dangles, here] at dangles
  exact nomatch dangles.2

/-- Which marks dangle after a mutation, by cases on it; none begins to. -/
theorem dangles_apply {mutation : Mutation κ} (one : mutation.BringsOne)
    : (mutation.apply store).store.Dangles user post
      ↔ store.Dangles user post ∧ ¬ mutation.Clears store post := by
  cases mutation with
  | insertGroup group =>
      obtain ⟨new, only⟩ := one
      have came := Store.dangles_of_receives user post
        (Store.roster_groupCreated group) (store.groupCreated_receives only)
      simp only [apply, Clears, Brings, only, List.mem_singleton, exists_eq_left]
      exact came
  | editPost edit =>
      simp only [apply, Clears, Brings, not_false_eq_true, and_true]
      split
      · next found here =>
          have other : store.Dangles user post → found.id ≠ post := ne_of_dangles here
          rw [Store.dangles_postUpdated]
          exact and_iff_left_of_imp other
      · exact Iff.rfl
  | removePost gone => simp [apply, Clears, Brings, Store.dangles_postRemoved]
  | removeGroup id => simp [apply, Clears, Store.dangles_groupRemoved]
  | patchGroup patch => simp [apply, Clears, Brings, Store.dangles_groupPatched]
  | detachPost id group =>
      simp only [apply, Clears, Brings, not_false_eq_true, and_true]
      split
      · next found here =>
          have other : store.Dangles user post → found.id ≠ post := ne_of_dangles here
          have came := Store.dangles_of_receives user post
            (store.roster_edit _)
            (store.postDetached_receives { found with key := OrderKey.first } group)
          exact came.trans (and_iff_left_of_imp other)
      · exact Iff.rfl

/-- A mark that dangles goes with one of several mutations, on the board that this one meets. -/
def AnyClears (post : PostId) : List (Mutation κ) → Store κ → Prop
  | [], _ => False
  | mutation :: rest, store =>
      mutation.Clears store post ∨ AnyClears post rest (mutation.apply store).store

/-- Which marks dangle after several mutations, by induction over them. -/
theorem dangles_applyAll (store : Store κ) (user : UserId) (post : PostId)
    {mutations : List (Mutation κ)}
    (ones : ∀ mutation ∈ mutations, mutation.BringsOne)
    : (applyAll mutations store).store.Dangles user post
      ↔ store.Dangles user post ∧ ¬ AnyClears post mutations store := by
  induction mutations generalizing store with
  | nil => exact (and_iff_left id).symm
  | cons head rest ih =>
      obtain ⟨headOne, restOnes⟩ := List.forall_mem_cons.mp ones
      rw [applyAll_cons, ih _ restOnes, dangles_apply headOne, AnyClears, not_or, and_assoc]

end Mutation

end SharedBoard
