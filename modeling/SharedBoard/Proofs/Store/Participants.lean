import SharedBoard.Proofs.Plan.Mutation
import SharedBoard.Proofs.Store.Idempotence
import SharedBoard.Proofs.Store.Upsert

/-! Who is on a board. Users come and go only when the server says so; everything else that happens
to a board lets people stop typing at most. No two of them are ever typing on one post.
-/

namespace SharedBoard

variable {κ : Type}

-----------------------------------------------------------------------------------------
-- Participants
-----------------------------------------------------------------------------------------

namespace Participant

/-- Two participants with different identifiers, who are not typing on one post. -/
def Apart (left right : Participant) : Prop :=
  left.user.id ≠ right.user.id
    ∧ ∀ post, left.typing = some post → right.typing ≠ some post

/-- The participant may have stopped typing, and nothing else. -/
def Quieter (before after : Participant) : Prop :=
  after.user = before.user ∧ ∀ post, after.typing = some post → before.typing = some post

variable {left right quietLeft quietRight : Participant}

theorem Apart.symm (apart : left.Apart right) : right.Apart left :=
  ⟨apart.1.symm, fun post onRight onLeft => apart.2 post onLeft onRight⟩

theorem Apart.quieter (apart : left.Apart right) (leftQuieter : left.Quieter quietLeft)
    (rightQuieter : right.Quieter quietRight)
    : quietLeft.Apart quietRight := by
  refine ⟨?_, fun post onLeft onRight => ?_⟩
  · rw [leftQuieter.1, rightQuieter.1]
    exact apart.1
  · exact apart.2 post (leftQuieter.2 post onLeft) (rightQuieter.2 post onRight)

theorem quieter_rfl (participant : Participant) : participant.Quieter participant :=
  ⟨rfl, fun _ typing => typing⟩

theorem quieter_silent (participant : Participant)
    : participant.Quieter { participant with typing := none } :=
  ⟨rfl, fun _ typing => by simp at typing⟩

theorem quieter_stopTypingOn (participant : Participant) (post : PostId)
    : participant.Quieter (participant.stopTypingOn post) := by
  unfold stopTypingOn
  split
  · exact quieter_silent participant
  · exact quieter_rfl participant

theorem typing_stopTypingOn_ne (participant : Participant) (post : PostId)
    : (participant.stopTypingOn post).typing ≠ some post := by
  unfold stopTypingOn
  split
  · simp
  · next other => exact other

@[simp] theorem user_focusedBy (participant : Participant) (user : UserId) (post : PostId)
    : (participant.focusedBy user post).user = participant.user := by
  unfold focusedBy
  split
  · rfl
  · exact (participant.quieter_stopTypingOn post).1

/-- Whoever begins to type on a post is the only one there afterwards. -/
theorem Apart.focusedBy (apart : left.Apart right) (user : UserId) (post : PostId)
    : (left.focusedBy user post).Apart (right.focusedBy user post) := by
  have ids : (left.focusedBy user post).user.id ≠ (right.focusedBy user post).user.id := by
    rw [user_focusedBy, user_focusedBy]
    exact apart.1
  refine ⟨ids, fun other onLeft onRight => ?_⟩
  by_cases leftOwn : left.user.id = user
  · have rightOther : right.user.id ≠ user := fun same => apart.1 (leftOwn.trans same.symm)
    rw [Participant.focusedBy, if_pos leftOwn] at onLeft
    obtain rfl : post = other := by simpa using onLeft
    rw [Participant.focusedBy, if_neg rightOther] at onRight
    exact right.typing_stopTypingOn_ne post onRight
  · rw [Participant.focusedBy, if_neg leftOwn] at onLeft
    by_cases rightOwn : right.user.id = user
    · rw [Participant.focusedBy, if_pos rightOwn] at onRight
      obtain rfl : post = other := by simpa using onRight
      exact left.typing_stopTypingOn_ne post onLeft
    · rw [Participant.focusedBy, if_neg rightOwn] at onRight
      exact apart.2 other ((left.quieter_stopTypingOn post).2 other onLeft)
        ((right.quieter_stopTypingOn post).2 other onRight)

end Participant

-----------------------------------------------------------------------------------------
-- Rosters
-----------------------------------------------------------------------------------------

namespace Store

/-- The users who are on a board, in the order of the roster. -/
def users (store : Store κ) : List User :=
  store.roster.map (·.user)

/-- No user is on a board twice, and no two of them are typing on one post. -/
def Distinct (store : Store κ) : Prop :=
  store.roster.Pairwise Participant.Apart

/-- The same users are on a board as before, in the same order, and some may have stopped typing.
-/
def Quieter (before after : Store κ) : Prop :=
  ∃ change : Participant → Participant,
    (∀ participant, Participant.Quieter participant (change participant))
    ∧ after.roster = before.roster.map change

variable {store before between after : Store κ}

theorem distinct_of_nobody (nobody : store.roster = []) : store.Distinct := by
  rw [Distinct, nobody]
  exact .nil

theorem Distinct.ids (distinct : store.Distinct) : (store.users.map (·.id)).Nodup := by
  rw [users, List.map_map, List.Nodup, List.pairwise_map]
  exact distinct.imp And.left

theorem Distinct.typing (distinct : store.Distinct)
    : (store.roster.filterMap (·.typing)).Nodup := by
  rw [List.Nodup, List.pairwise_filterMap]
  refine distinct.imp fun apart post onLeft other onRight same => ?_
  exact apart.2 post onLeft (onRight.trans (congrArg some same.symm))

namespace Quieter

theorem of_roster_eq (same : after.roster = before.roster) : before.Quieter after :=
  ⟨id, Participant.quieter_rfl, same.trans (List.map_id _).symm⟩

theorem refl (store : Store κ) : store.Quieter store :=
  of_roster_eq rfl

theorem trans (first : before.Quieter between) (second : between.Quieter after)
    : before.Quieter after := by
  obtain ⟨firstChange, firstQuieter, firstRoster⟩ := first
  obtain ⟨secondChange, secondQuieter, secondRoster⟩ := second
  refine ⟨secondChange ∘ firstChange, fun participant => ?_, ?_⟩
  · have one := firstQuieter participant
    have two := secondQuieter (firstChange participant)
    exact ⟨two.1.trans one.1, fun post typing => one.2 post (two.2 post typing)⟩
  · rw [secondRoster, firstRoster, List.map_map]

theorem users_eq (quieter : before.Quieter after) : after.users = before.users := by
  obtain ⟨change, same, roster⟩ := quieter
  rw [users, roster, List.map_map]
  exact List.map_congr_left fun participant _ => (same participant).1

theorem distinct (quieter : before.Quieter after) (distinct : before.Distinct)
    : after.Distinct := by
  obtain ⟨change, same, roster⟩ := quieter
  rw [Distinct, roster, List.pairwise_map]
  exact List.Pairwise.imp (fun apart => apart.quieter (same _) (same _)) distinct

end Quieter

/-- An edit of the groups does not concern the roster. -/
theorem quieter_edit (store : Store κ) (change : Draft κ → Option (Draft κ))
    : store.Quieter (store.edit change).store :=
  .of_roster_eq (store.roster_edit change)

theorem quieter_typingStopped (store : Store κ) (post : PostId)
    : store.Quieter (store.typingStopped post).store :=
  ⟨(·.stopTypingOn post), fun participant => participant.quieter_stopTypingOn post,
    store.roster_typingStopped post⟩

theorem quieter_typingStoppedNowhere (store : Store κ)
    : store.Quieter store.typingStoppedNowhere.store := by
  unfold typingStoppedNowhere
  split
  · refine ⟨_, fun participant => ?_, rfl⟩
    split
    · exact participant.quieter_silent
    · exact participant.quieter_rfl
  · exact .refl store

theorem quieter_groupRemoved (store : Store κ) (id : GroupId)
    : store.Quieter (store.groupRemoved id).store := by
  unfold groupRemoved
  split
  · exact (store.quieter_edit _).trans (quieter_typingStoppedNowhere _)
  · exact .refl store

theorem quieter_postRemoved (store : Store κ) (post : Post κ)
    : store.Quieter (store.postRemoved post).store := by
  unfold postRemoved
  split
  · exact (store.quieter_edit _).trans (quieter_typingStopped _ post.id)
  · exact .refl store

-----------------------------------------------------------------------------------------
-- Coming and going
-----------------------------------------------------------------------------------------

/-- Users who come to others are kept if their identifiers are new, by induction over them. -/
theorem foldl_firstOfEach (kept users : List User)
    : users.foldl
        (fun kept user => if kept.any (·.id == user.id) then kept else kept ++ [user]) kept
      = kept ++ (users.filter (fun user => !kept.any (·.id == user.id))).eraseDupsBy
          (fun later earlier => later.id == earlier.id) := by
  induction users generalizing kept with
  | nil => simp
  | cons head rest ih =>
      rw [List.foldl_cons, ih]
      cases known : kept.any (·.id == head.id) with
      | true => rw [if_pos rfl, List.filter_cons_of_neg (by simp [known])]
      | false =>
          have both (user : User)
              : (!(kept ++ [head]).any (·.id == user.id))
                = (decide ((user.id == head.id) = false) && !kept.any (·.id == user.id)) := by
            by_cases same : user.id = head.id
            · simp [same]
            · simp [same, Ne.symm same]
          rw [if_neg Bool.false_ne_true, List.filter_cons_of_pos (by simp [known]),
            List.eraseDupsBy_cons, List.filter_filter, List.append_assoc, List.singleton_append,
            List.filter_congr fun user _ => both user]

/-- The users that are kept are the first ones of their identifiers. -/
theorem firstOfEach_eq (users : List User)
    : firstOfEach users = users.eraseDupsBy (fun later earlier => later.id == earlier.id) := by
  refine (foldl_firstOfEach [] users).trans ?_
  rw [List.nil_append]
  exact congrArg _ (List.filter_eq_self.mpr fun _ _ => rfl)

@[simp] theorem users_joined (store : Store κ) (connected : List User) (newUser : User)
    : (store.joined connected newUser).store.users
      = (connected ++ [newUser]).eraseDupsBy (fun later earlier => later.id == earlier.id) := by
  rw [← firstOfEach_eq, users, joined, withRoster, List.map_map]
  exact List.map_id _

@[simp] theorem users_left (store : Store κ) (user : UserId)
    : (store.left user).store.users = store.users.filter (·.id != user) := by
  unfold left
  split
  · rw [users, users, List.filter_map]
    rfl
  · next absent =>
      refine (List.filter_eq_self.mpr fun other member => ?_).symm
      obtain ⟨participant, inRoster, rfl⟩ := List.mem_map.mp member
      rw [isConnected, List.any_eq_true] at absent
      rw [bne_iff_ne]
      exact fun same => absent ⟨participant, inRoster, beq_iff_eq.mpr same⟩

@[simp] theorem users_focused (store : Store κ) (user : UserId) (post : PostId)
    : (store.focused user post).store.users = store.users := by
  unfold focused
  split
  · rw [users, withRoster, List.map_map]
    exact List.map_congr_left fun participant _ => participant.user_focusedBy user post
  · rfl

@[simp] theorem roster_rosterCleared (store : Store κ) : store.rosterCleared.store.roster = [] := by
  unfold rosterCleared
  split
  · next nobody => exact List.isEmpty_iff.mp nobody
  · rfl

/-- Users who go on typing after the roster was replaced typed on different posts before. -/
theorem Distinct.joined (distinct : store.Distinct) (connected : List User) (newUser : User)
    : (store.joined connected newUser).store.Distinct := by
  have ids := firstOfEach_distinct (connected ++ [newUser])
  rw [List.Nodup, List.pairwise_map] at ids
  rw [Distinct, Store.joined, withRoster, List.pairwise_map]
  refine ids.imp fun other => ⟨other, fun post onLeft onRight => ?_⟩
  obtain ⟨left, leftFound, leftTyping⟩ := Option.bind_eq_some_iff.mp onLeft
  obtain ⟨right, rightFound, rightTyping⟩ := Option.bind_eq_some_iff.mp onRight
  have leftId := List.find?_some leftFound
  have rightId := List.find?_some rightFound
  have apart : left ≠ right := by
    rintro rfl
    exact other ((beq_iff_eq.mp leftId).symm.trans (beq_iff_eq.mp rightId))
  have symmetric : Std.Symm Participant.Apart := ⟨fun _ _ => Participant.Apart.symm⟩
  have typingApart := List.Pairwise.forall distinct (List.mem_of_find?_eq_some leftFound)
    (List.mem_of_find?_eq_some rightFound) apart
  exact typingApart.2 post leftTyping rightTyping

theorem Distinct.left (distinct : store.Distinct) (user : UserId)
    : (store.left user).store.Distinct := by
  unfold Store.left
  split
  · exact List.Pairwise.filter _ distinct
  · exact distinct

theorem Distinct.focused (distinct : store.Distinct) (user : UserId) (post : PostId)
    : (store.focused user post).store.Distinct := by
  unfold Store.focused
  split
  · rw [Distinct, withRoster, List.pairwise_map]
    exact List.Pairwise.imp (fun apart => apart.focusedBy user post) distinct
  · exact distinct

-----------------------------------------------------------------------------------------
-- Events and mutations
-----------------------------------------------------------------------------------------

section Reducers

variable [OrderKey κ]

theorem quieter_groupCreated (store : Store κ) (group : Group κ)
    : store.Quieter (store.groupCreated group).store := by
  unfold groupCreated
  split
  · exact .refl store
  · exact store.quieter_edit _

theorem quieter_postCreated (store : Store κ) (post : Post κ) (group : Group κ)
    : store.Quieter (store.postCreated post group).store := by
  unfold postCreated
  split
  · exact store.quieter_edit _
  · exact store.quieter_groupCreated _

theorem quieter_postUpdated (store : Store κ) (post : Post κ)
    : store.Quieter (store.postUpdated post).store :=
  (store.quieter_edit _).trans (quieter_typingStopped _ post.id)

/-- The users on a board after an event. Only the two events about users matter. -/
def usersAfter (users : List User) : Event κ → List User
  | .boardConnected connected newUser =>
      (connected ++ [newUser]).eraseDupsBy (fun later earlier => later.id == earlier.id)
  | .boardDisconnected user => users.filter (·.id != user)
  | _ => users

/-- An event lets users come and go as it says, and keeps them distinct, by cases on the event. -/
theorem users_reduce (distinct : store.Distinct) (localUser : Option UserId) (event : Event κ)
    : (store.reduce localUser event).store.users = usersAfter store.users event
      ∧ (store.reduce localUser event).store.Distinct := by
  have stays {after : Store κ} (quieter : store.Quieter after)
      : after.users = store.users ∧ after.Distinct :=
    ⟨quieter.users_eq, quieter.distinct distinct⟩
  cases event with
  | authenticated user => exact stays (.refl store)
  | boardConnected connected newUser =>
      exact ⟨store.users_joined connected newUser, distinct.joined connected newUser⟩
  | boardDisconnected user => exact ⟨store.users_left user, distinct.left user⟩
  | postCreated post group => exact stays (store.quieter_postCreated post group)
  | postUpdated post old => exact stays (store.quieter_postUpdated post)
  | postDeleted post => exact stays (store.quieter_postRemoved post)
  | postDetached post group => exact stays (store.quieter_edit _)
  | postFocused post user =>
      simp only [reduce]
      split
      · exact stays (.refl store)
      · exact ⟨store.users_focused user.id post.id, distinct.focused user.id post.id⟩
  | groupUpdated patch => exact stays (.of_roster_eq (store.roster_groupPatched patch))
  | groupDeleted id => exact stays (store.quieter_groupRemoved id)

/-- A mutation brings nobody and takes nobody away, by cases on it. -/
theorem quieter_apply (mutation : Mutation κ) (store : Store κ)
    : store.Quieter (mutation.apply store).store := by
  cases mutation with
  | insertGroup group => exact store.quieter_groupCreated group
  | editPost edit =>
      simp only [Mutation.apply]
      split
      · exact store.quieter_postUpdated _
      · exact .refl store
  | removePost post => exact store.quieter_postRemoved post
  | removeGroup group => exact store.quieter_groupRemoved group
  | patchGroup patch => exact .of_roster_eq (store.roster_groupPatched patch)
  | detachPost post group =>
      simp only [Mutation.apply]
      split
      · exact store.quieter_edit _
      · exact .refl store

/-- So do several, by induction over them. -/
theorem quieter_applyAll (mutations : List (Mutation κ)) (store : Store κ)
    : store.Quieter (Mutation.applyAll mutations store).store := by
  induction mutations generalizing store with
  | nil => exact .refl store
  | cons head rest ih =>
      rw [Mutation.applyAll_cons]
      exact (quieter_apply head store).trans (ih _)

end Reducers

end Store

end SharedBoard
