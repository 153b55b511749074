import SharedBoard.Proofs.Store.Difference
import SharedBoard.Proofs.Store.Marks

/-! Calls that change nothing. Identity stands for content: a call that leaves a board as it is
hands back the same board, and a group that is reported as replaced has other content than before.
The exceptions are calls that repeat what the board shows and rebuild it nevertheless: the roster
when the same users are connected or somebody begins to type where they are typing, and a group when
a group comes that has the fields of the one there.
-/

namespace SharedBoard

variable {κ : Type} [OrderKey κ]

/-- Two boards have equal groups, and the same roster and highest z-index. -/
structure Store.SameContent (before after : Store κ) : Prop where
  groups : (before.groups.toList == after.groups.toList) = true
  roster : after.roster = before.roster
  maxZ : after.maxZ = before.maxZ

instance (before after : Store κ) : Decidable (before.SameContent after) :=
  decidable_of_iff
    ((before.groups.toList == after.groups.toList) = true
      ∧ after.roster = before.roster
      ∧ after.maxZ = before.maxZ)
    ⟨fun ⟨groups, roster, maxZ⟩ => ⟨groups, roster, maxZ⟩,
      fun ⟨groups, roster, maxZ⟩ => ⟨groups, roster, maxZ⟩⟩

omit [OrderKey κ] in
/-- The groups that are reported as replaced are those of the new board that the call touched. -/
theorem Update.mem_replaced_iff {update : Update κ} {id : GroupId}
    : id ∈ update.replaced
      ↔ (update.store.group? id).isSome = true ∧ id ∈ update.change.groups := by
  have painted : id ∈ update.store.paintOrder.map (·.id)
      ↔ (update.store.group? id).isSome = true := by
    rw [Option.isSome_iff_exists, List.mem_map]
    simp only [Store.paintOrder, List.mem_mergeSort]
    constructor
    · rintro ⟨group, member, rfl⟩
      exact ⟨group, GroupTable.mem_toList_iff.mp member⟩
    · rintro ⟨group, found⟩
      exact ⟨group, GroupTable.mem_toList_of_find? found, GroupTable.id_of_find? found⟩
  rw [replaced, List.mem_filter, painted, List.contains_iff_mem]

/-- What is reported as rebuilt has other content than before, or is one of some exceptions. -/
structure Update.Justified (before : Store κ) (update : Update κ) (groups : GroupId → Prop)
    (roster : Prop)
    : Prop where
  /-- What is reported as the same is the same. -/
  same : update.isSame = true → update.store = before
  touched
    : ∀ id ∈ update.change.groups, ¬ before.groups.SameAt update.store.groups id ∨ groups id
  /-- The table is rebuilt for the sake of some group. -/
  table
    : update.change.table = true
      → ∃ id, ¬ before.groups.SameAt update.store.groups id ∨ groups id
  seats : update.change.roster = true → update.store.roster ≠ before.roster ∨ roster

/-- A group that a change leaves equal to the one before is so either way round, since the posts are
the same.
-/
theorem GroupPatch.beq_applyTo (patch : GroupPatch) (group : Group κ)
    : (group == patch.applyTo group) = (patch.applyTo group == group) := by
  obtain ⟨⟩ := group
  simp only [BEq.beq, instBEqGroup.beq, applyTo]
  grind

omit [OrderKey κ] in
/-- Only the roster is rebuilt on top of what a call rebuilt. -/
theorem Change.append_ofRoster (change : Change)
    : change ++ ofRoster = { change with roster := true } := by
  change append change ofRoster = _
  simp [append, ofRoster]

-----------------------------------------------------------------------------------------
-- Rosters
-----------------------------------------------------------------------------------------

/-- A call that leaves a board alone, or gives it another roster. -/
def Store.Reseats (before : Store κ) (update : Update κ) : Prop :=
  update = before.unchanged
  ∨ ∃ seated, seated ≠ before.roster ∧ update = before.withRoster seated

namespace Update.Justified

variable {store : Store κ} {update : Update κ} {groups : GroupId → Prop} {roster : Prop}

theorem unchanged (store : Store κ) : Justified store store.unchanged groups roster where
  same _ := rfl
  touched _ member := absurd member List.not_mem_nil
  table rebuilt := nomatch rebuilt
  seats rebuilt := nomatch rebuilt

theorem withRoster {seated : List Participant} (differs : seated ≠ store.roster ∨ roster)
    : Justified store (store.withRoster seated) groups roster where
  same same := nomatch same
  touched _ member := absurd member List.not_mem_nil
  table rebuilt := nomatch rebuilt
  seats _ := differs

theorem mono {others : GroupId → Prop} (justified : Justified store update groups roster)
    (fewer : ∀ id, groups id → others id)
    : Justified store update others roster where
  same := justified.same
  touched id member := (justified.touched id member).imp_right (fewer id)
  table rebuilt := (justified.table rebuilt).imp fun id => Or.imp_right (fewer id)
  seats := justified.seats

theorem of_reseats (reseats : store.Reseats update) : Justified store update groups roster := by
  rcases reseats with rfl | ⟨seated, differs, rfl⟩
  · exact .unchanged store
  · exact .withRoster (.inl differs)

end Update.Justified

omit [OrderKey κ] in
/-- After a user began to type on a post, that user types there and nobody else does. -/
theorem Participant.typing_focusedBy_self (participant : Participant) (user : UserId)
    (post : PostId)
    : (participant.focusedBy user post).typing = some post ↔ participant.user.id = user := by
  simp [typing_focusedBy]

namespace Store

open Update (Justified)

variable {store : Store κ} {groups : GroupId → Prop} {roster : Prop}

omit [OrderKey κ]

/-- Somebody who is changed makes the roster another one. -/
theorem map_roster_ne {change : Participant → Participant} {participant : Participant}
    (member : participant ∈ store.roster) (changed : change participant ≠ participant)
    : store.roster.map change ≠ store.roster :=
  fun same => changed (List.map_inj_left.mp (same.trans (List.map_id _).symm) participant member)

/-- Whoever stops was typing. -/
theorem typingStopped_reseats (store : Store κ) (post : PostId)
    : store.Reseats (store.typingStopped post) := by
  unfold typingStopped
  split
  · exact .inl rfl
  · next somebody =>
      rw [Option.isNone_iff_eq_none, typingOn?, Option.map_eq_none_iff] at somebody
      obtain ⟨participant, found⟩ := Option.ne_none_iff_exists'.mp somebody
      have typing : participant.typing = some post := by simpa using List.find?_some found
      refine .inr ⟨_, map_roster_ne (List.mem_of_find?_eq_some found) fun same => ?_, rfl⟩
      have stopped := congrArg Participant.typing same
      simp [Participant.stopTypingOn, typing] at stopped

theorem typingStoppedNowhere_reseats (store : Store κ)
    : store.Reseats store.typingStoppedNowhere := by
  unfold typingStoppedNowhere
  split
  · next somebody =>
      obtain ⟨participant, member, nowhere⟩ := List.any_eq_true.mp somebody
      refine .inr ⟨_, map_roster_ne member fun same => ?_, rfl⟩
      have stopped := congrArg Participant.typing same
      rw [if_pos nowhere] at stopped
      simp [isTypingNowhere, ← stopped] at nowhere
  · exact .inl rfl

theorem left_reseats (store : Store κ) (user : UserId) : store.Reseats (store.left user) := by
  unfold left
  split
  · next connected =>
      refine .inr ⟨_, fun same => ?_, rfl⟩
      obtain ⟨participant, member, own⟩ := List.any_eq_true.mp connected
      have stays := List.filter_eq_self.mp same participant member
      simp [beq_iff_eq.mp own] at stays
  · exact .inl rfl

theorem rosterCleared_reseats (store : Store κ) : store.Reseats store.rosterCleared := by
  unfold rosterCleared
  split
  · exact .inl rfl
  · next somebody => exact .inr ⟨_, fun same => somebody (same ▸ rfl), rfl⟩

variable [OrderKey κ]

/-- A roster that stays as it is has the users who are reported as connected. -/
theorem joined_justified (store : Store κ) (connected : List User) (newUser : User)
    : Justified store (store.joined connected newUser) groups
        (firstOfEach (connected ++ [newUser]) = store.users) := by
  refine .withRoster (or_iff_not_imp_left.mpr fun same => ?_)
  rw [users, ← not_not.mp same, List.map_map]
  exact (List.map_id _).symm

/-- A roster that stays as it is shows the user, and nobody else, typing on the post already. -/
theorem focused_justified (store : Store κ) (user : UserId) (post : PostId)
    : Justified store (store.focused user post) groups
        (store.isConnected user
          ∧ ∀ participant ∈ store.roster,
              participant.user.id = user ↔ participant.typing = some post) := by
  unfold focused
  split
  · next connected =>
      refine .withRoster (or_iff_not_imp_left.mpr fun same => ⟨connected, ?_⟩)
      intro participant member
      have stays := List.map_inj_left.mp ((not_not.mp same).trans (List.map_id _).symm)
        participant member
      rw [← participant.typing_focusedBy_self user post, stays, id]
  · exact .unchanged store

end Store

-----------------------------------------------------------------------------------------
-- Groups and posts
-----------------------------------------------------------------------------------------

/-- A group comes to a board that has one with its identifier, and restates that one. -/
def Store.IsRestatedBy (store : Store κ) (group : Group κ) (id : GroupId) : Prop :=
  group.id = id ∧ ∃ existing, store.group? id = some existing ∧ group.Restates existing

namespace Update.Justified

variable {store : Store κ} {groups : GroupId → Prop} {roster : Prop}
  {change : Draft κ → Option (Draft κ)}

/-- An edit for one group is justified if that group does not keep its content. -/
theorem edit
    (changes
      : ∀ next,
          change ⟨store.groups, []⟩ = some next
          → ∃ id,
              Draft.IsFor id ⟨store.groups, []⟩ next
              ∧ (¬ store.groups.SameAt next.table id ∨ groups id))
    : Justified store (store.edit change) groups roster := by
  unfold Store.edit
  cases edited : change ⟨store.groups, []⟩ with
  | none => exact .unchanged store
  | some next =>
      obtain ⟨target, isFor, differs⟩ := changes next edited
      have touched : ∀ id ∈ next.touched, ¬ store.groups.SameAt next.table id ∨ groups id := by
        intro id touched
        by_cases own : id = target
        · exact own ▸ differs
        · rcases isFor id own with ⟨_, untouched⟩ | shrinks
          · exact absurd (untouched touched) List.not_mem_nil
          · exact .inl shrinks.not_sameAt
      exact {
        same := fun same => nomatch same
        touched := touched
        table := fun _ => ⟨target, differs⟩
        seats := fun rebuilt => nomatch rebuilt
      }

/-- An edit of the groups and then a change of the roster are justified together. -/
theorem edit_andThen (edit : Justified store (store.edit change) groups roster)
    {call : Store κ → Update κ} (reseats : ∀ store, Store.Reseats store (call store))
    : Justified store ((store.edit change).andThen call) groups roster := by
  have kept := store.roster_edit change
  generalize store.edit change = update at edit kept
  rcases reseats update.store with idle | ⟨seats, differs, reseated⟩
  · have same : update.andThen call = update := by
      rw [Update.andThen, idle]
      simp [Store.unchanged]
    rw [same]
    exact edit
  · rw [Update.andThen, reseated]
    have change : update.change ++ Change.ofRoster = { update.change with roster := true } :=
      Change.append_ofRoster update.change
    simp only [Store.withRoster, change]
    exact {
      same := fun same => by simp [isSame, Change.isNothing] at same
      touched := edit.touched
      table := edit.table
      seats := fun _ => .inl (kept ▸ differs)
    }

end Update.Justified

namespace Store

open Update (Justified)

variable {store : Store κ} {groups : GroupId → Prop} {roster : Prop}

/-- A group that comes whole changes the one there, unless it restates that one. -/
theorem insertGroup?_justified (store : Store κ) (group : Group κ)
    : Justified store (store.edit (·.insertGroup? group)) (store.IsRestatedBy group) roster := by
  refine .edit fun next edited => ⟨group.id, Draft.insertGroup?_isFor edited, ?_⟩
  refine or_iff_not_imp_left.mpr fun same => ?_
  exact ⟨rfl, Draft.insertGroup?_restates edited (not_not.mp same)⟩

theorem groupCreated_justified (store : Store κ) (group : Group κ)
    : Justified store (store.groupCreated group)
        (fun id => group.posts ≠ [] ∧ store.IsRestatedBy group id) roster := by
  unfold groupCreated
  split
  · exact .unchanged store
  · next occupied =>
      rw [List.isEmpty_iff] at occupied
      simpa only [occupied, ne_eq, not_false_eq_true, true_and]
        using store.insertGroup?_justified group

theorem groupRemoved_justified (store : Store κ) (id : GroupId)
    : Justified store (store.groupRemoved id) groups roster := by
  unfold groupRemoved
  split
  · next there =>
      obtain ⟨group, found⟩ := Option.isSome_iff_exists.mp there
      refine .edit_andThen (.edit fun next edited => ?_) typingStoppedNowhere_reseats
      obtain rfl := Option.some.inj edited
      refine ⟨id, .remove _ id, .inl fun same => ?_⟩
      simp [GroupTable.SameAt, Draft.remove, GroupTable.find?_erase, found] at same
  · exact .unchanged store

theorem groupPatched_justified (store : Store κ) (patch : GroupPatch)
    : Justified store (store.groupPatched patch) groups roster := by
  unfold groupPatched
  split
  · exact .unchanged store
  · next group found =>
      split
      · exact .unchanged store
      · next differs =>
          have own : group.id = patch.id := GroupTable.id_of_find? found
          refine .edit fun next edited => ?_
          obtain rfl := Option.some.inj edited
          refine ⟨patch.id, .put _ (patch.applyTo group) own, .inl fun same => differs ?_⟩
          have atOld : store.groups.find? patch.id = some group := found
          have atNew : (store.groups.insert (patch.applyTo group)).find? patch.id
              = some (patch.applyTo group) := own ▸ GroupTable.find?_insert_self ..
          rw [GroupTable.SameAt, atOld, Draft.put, atNew] at same
          exact (patch.beq_applyTo group).symm.trans same

theorem placePost?_justified (store : Store κ) [OrderKey.Lawful κ] (post : Post κ)
    : Justified store (store.edit (·.placePost? post)) groups roster :=
  .edit fun _ edited =>
    ⟨post.group, Draft.placePost?_isFor edited, .inl (Draft.placePost?_not_sameAt edited)⟩

theorem postCreated_justified [OrderKey.Lawful κ] (store : Store κ) (post : Post κ)
    (group : Group κ)
    : Justified store (store.postCreated post group) groups roster := by
  unfold postCreated
  split
  · exact store.placePost?_justified _
  · next absent =>
      refine (store.groupCreated_justified _).mono fun id ⟨_, own, existing, found, _⟩ => ?_
      exact absurd (contains_of_group? (own ▸ found)) absent

theorem postRemoved_justified (store : Store κ) (post : Post κ)
    : Justified store (store.postRemoved post) groups roster := by
  unfold postRemoved
  split
  · refine .edit_andThen (.edit fun next edited => ?_) (typingStopped_reseats · post.id)
    obtain ⟨id, isFor, shrinks⟩ := Draft.removePost?_isFor edited
    exact ⟨id, isFor, .inl shrinks.not_sameAt⟩
  · exact .unchanged store

end Store

-----------------------------------------------------------------------------------------
-- Calls
-----------------------------------------------------------------------------------------

namespace Reducer

/-- A call rebuilds the roster and repeats it: the same users are connected, in the same order, or a
user who is connected begins to type on a post where that user, and nobody else, is typing.
-/
def RestatesRoster (store : Store κ) : Reducer κ → Prop
  | .joined connected newUser => Store.firstOfEach (connected ++ [newUser]) = store.users
  | .focused user post =>
      store.isConnected user
        ∧ ∀ participant ∈ store.roster,
            participant.user.id = user ↔ participant.typing = some post
  | _ => False

/-- A call brings a whole group under an identifier, and restates the one there. -/
def RestatesGroup (store : Store κ) (id : GroupId) : Reducer κ → Prop
  | .groupCreated group => group.posts ≠ [] ∧ store.IsRestatedBy group id
  | .postDetached post group =>
      store.IsRestatedBy { group with posts := [{ post with group := group.id }] } id
  | _ => False

/-- A call rebuilds what it restates. -/
def Restates (store : Store κ) (reducer : Reducer κ) : Prop :=
  reducer.RestatesRoster store ∨ ∃ id, reducer.RestatesGroup store id

/-- What a call reports is justified, by cases on the call. -/
theorem run_justified [OrderKey.Lawful κ] (reducer : Reducer κ) (store : Store κ)
    : Update.Justified store (reducer.run store) (fun id => reducer.RestatesGroup store id)
        (reducer.RestatesRoster store) := by
  cases reducer with
  | groupCreated group => exact store.groupCreated_justified group
  | groupRemoved id => exact store.groupRemoved_justified id
  | groupPatched patch => exact store.groupPatched_justified patch
  | postAdded id post => exact store.placePost?_justified _
  | postCreated post group => exact store.postCreated_justified post group
  | postUpdated post =>
      exact (store.placePost?_justified post).edit_andThen (Store.typingStopped_reseats · post.id)
  | postRemoved post => exact store.postRemoved_justified post
  | postDetached post group => exact store.insertGroup?_justified _
  | joined connected newUser => exact store.joined_justified connected newUser
  | left user => exact .of_reseats (store.left_reseats user)
  | focused user post => exact store.focused_justified user post
  | rosterCleared => exact .of_reseats store.rosterCleared_reseats

theorem not_isSame_edit_insertGroup? {store : Store κ} {group : Group κ} {id : GroupId}
    (restated : store.IsRestatedBy group id)
    : (store.edit (·.insertGroup? group)).isSame = false := by
  obtain ⟨rfl, existing, found, restates⟩ := restated
  have news : ((⟨store.groups, []⟩ : Draft κ).table.find? group.id).any (· == group.normalized)
      = false := by
    rw [show store.groups.find? group.id = some existing from found]
    exact restates.differs
  rw [Store.edit, Draft.insertGroup?_eq, news]
  rfl

/-- A call that restates something is never reported as changing nothing, by cases on the call. -/
theorem not_isSame_of_restates {reducer : Reducer κ} {store : Store κ}
    (restates : reducer.Restates store)
    : (reducer.run store).isSame = false := by
  rcases restates with roster | ⟨id, group⟩
  · cases reducer with
    | joined connected newUser => rfl
    | focused user post =>
        rw [run, Store.focused, if_pos roster.1]
        rfl
    | _ => exact roster.elim
  · cases reducer with
    | groupCreated given =>
        obtain ⟨occupied, restated⟩ := group
        rw [run, Store.groupCreated, if_neg (by simpa using occupied)]
        exact not_isSame_edit_insertGroup? restated
    | postDetached post given => exact not_isSame_edit_insertGroup? group
    | _ => exact group.elim

end Reducer

/-- The call that an event is, if it concerns the board. -/
def Event.reducer? (localUser : Option UserId) : Event κ → Option (Reducer κ)
  | .authenticated _ => none
  | .boardConnected connected newUser => some (.joined connected newUser)
  | .boardDisconnected user => some (.left user)
  | .postCreated post group => some (.postCreated post group)
  | .postUpdated post _ => some (.postUpdated post)
  | .postDeleted post => some (.postRemoved post)
  | .postDetached post group => some (.postDetached post group)
  | .postFocused post user =>
      if localUser = some user.id then none else some (.focused user.id post.id)
  | .groupUpdated patch => some (.groupPatched patch)
  | .groupDeleted id => some (.groupRemoved id)

/-- The call that a mutation is, unless it is one of a post that is gone. -/
def Mutation.reducer? (store : Store κ) : Mutation κ → Option (Reducer κ)
  | .insertGroup group => some (.groupCreated group)
  | .editPost edit => (store.post? edit.id).map fun post => .postUpdated (edit.applyTo post)
  | .removePost post => some (.postRemoved post)
  | .removeGroup id => some (.groupRemoved id)
  | .patchGroup patch => some (.groupPatched patch)
  | .detachPost id group =>
      (store.post? id).map fun post => .postDetached { post with key := OrderKey.first } group

namespace Store

variable (store : Store κ)

theorem reduce_eq_run (localUser : Option UserId) (event : Event κ)
    : store.reduce localUser event
      = (event.reducer? localUser).elim store.unchanged (·.run store) := by
  cases event with
  | postFocused post user =>
      simp only [reduce, Event.reducer?]
      split <;> rfl
  | _ => rfl

theorem apply_eq_run (mutation : Mutation κ)
    : mutation.apply store = (mutation.reducer? store).elim store.unchanged (·.run store) := by
  cases mutation with
  | editPost edit =>
      simp only [Mutation.apply, Mutation.reducer?]
      cases store.post? edit.id <;> rfl
  | detachPost id group =>
      simp only [Mutation.apply, Mutation.reducer?]
      cases store.post? id <;> rfl
  | _ => rfl

/-- A call is reported as the same only if it leaves the very board, and one that leaves equal
content is reported as the same unless it restates something; a group is reported as replaced only
if its content differs or the call restates it. Events and mutations are such calls, or leave the
board as it is.
-/
theorem isSame_iff_not_restates [OrderKey.Lawful κ]
    : (∀ reducer : Reducer κ,
        ((reducer.run store).isSame = true → (reducer.run store).store = store)
        ∧ (store.SameContent (reducer.run store).store
          → ((reducer.run store).isSame = true ↔ ¬ reducer.Restates store))
        ∧ ∀ id ∈ (reducer.run store).replaced,
            ¬ store.groups.SameAt (reducer.run store).store.groups id
            ∨ reducer.RestatesGroup store id)
      ∧ (∀ (localUser : Option UserId) (event : Event κ),
          store.reduce localUser event
          = (event.reducer? localUser).elim store.unchanged (·.run store))
      ∧ ∀ mutation : Mutation κ,
          mutation.apply store
          = (mutation.reducer? store).elim store.unchanged (·.run store) := by
  refine ⟨fun reducer => ?_, store.reduce_eq_run, store.apply_eq_run⟩
  have justified := reducer.run_justified store
  refine ⟨justified.same, fun content => ⟨fun same restates => ?_, fun news => ?_⟩, ?_⟩
  · rw [Reducer.not_isSame_of_restates restates] at same
    exact nomatch same
  · have table : (reducer.run store).change.table = false := by
      refine Bool.eq_false_iff.mpr fun rebuilt => ?_
      obtain ⟨id, differs | restated⟩ := justified.table rebuilt
      · exact differs (GroupTable.sameAt_of_beq content.groups id)
      · exact news (.inr ⟨id, restated⟩)
    have seats : (reducer.run store).change.roster = false := by
      refine Bool.eq_false_iff.mpr fun rebuilt => ?_
      rcases justified.seats rebuilt with differs | restated
      · exact differs content.roster
      · exact news (.inl restated)
    rw [Update.isSame, Change.isNothing, table, seats]
    rfl
  · intro id reported
    exact justified.touched id (Update.mem_replaced_iff.mp reported).2

end Store

/-- A guest. -/
def Sample.guest : User :=
  ⟨.ofNat 8, "Bo", none, true, false, none, none⟩

/-- A guest joins a board of two groups and begins to type on the first post. -/
def Sample.typing : Store Float :=
  let joined := ((Store.ofGroups pair).reduce none (.boardConnected [] guest)).store
  (joined.reduce none (.postFocused (post 11 10 1.0) guest)).store

namespace Store

/-- A roster is rebuilt with equal content when somebody begins to type where they are typing, and a
group when its only post is detached into a group with its identifier that names another board.
-/
theorem rebuilt_typing
    : let focus := Sample.typing.reduce none (.postFocused (Sample.post 11 10 1.0) Sample.guest)
      let detach := Sample.typing.reduce none
        (.postDetached (Sample.post 11 10 1.0) { Sample.group 10 1 [] with board := .ofNat 2 })
      (Sample.typing.SameContent focus.store ∧ focus.isSame = false)
      ∧ Sample.typing.SameContent detach.store
      ∧ detach.isSame = false
      ∧ .ofNat 10 ∈ detach.replaced := by
  simp only [Update.mem_replaced_iff, Sample.typing, Sample.ofGroups_pair]
  decide +kernel

/-- A guest who begins to type on a post where the guest is typing restates the roster, since the
call leaves equal content and is not reported as the same.
-/
theorem isSame_iff_not_restates_typing
    : Sample.typing.SameContent
        ((Reducer.focused Sample.guest.id (.ofNat 11)).run Sample.typing).store
      ∧ (Reducer.focused Sample.guest.id (.ofNat 11)).Restates Sample.typing := by
  have rebuilt : Sample.typing.SameContent
        ((Reducer.focused Sample.guest.id (.ofNat 11)).run Sample.typing).store
      ∧ ((Reducer.focused Sample.guest.id (.ofNat 11)).run Sample.typing).isSame = false := by
    simp only [Sample.typing, Sample.ofGroups_pair]
    decide +kernel
  obtain ⟨content, news⟩ := rebuilt
  obtain ⟨_, reported, _⟩ := Sample.typing.isSame_iff_not_restates.1
    (.focused Sample.guest.id (.ofNat 11))
  refine ⟨content, ?_⟩
  by_contra restates
  rw [(reported content).mpr restates] at news
  cases news

end Store

end SharedBoard
