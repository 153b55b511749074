import SharedBoard.Proofs.OrderKey.Binary64
import SharedBoard.Proofs.Store.Described
import SharedBoard.Proofs.Store.Placement

/-! What events leave alone. An event is about one post at most and for one group at most; all other
groups are the very same as before, except the one that had the post, and all other posts stay where
they are.
-/

namespace SharedBoard

variable {κ : Type}

-----------------------------------------------------------------------------------------
-- What events name
-----------------------------------------------------------------------------------------

namespace Event

/-- The post that an event puts somewhere or takes away. -/
def post? : Event κ → Option PostId
  | .postCreated post _ => some post.id
  | .postUpdated post _ => some post.id
  | .postDeleted post => some post.id
  | .postDetached post _ => some post.id
  | _ => none

/-- The group that an event changes, or puts its post into. -/
def group? : Event κ → Option GroupId
  | .postCreated _ group => some group.id
  | .postUpdated post _ => some post.group
  | .postDetached _ group => some group.id
  | .groupUpdated patch => some patch.id
  | .groupDeleted id => some id
  | _ => none

/-- The group that an event takes away with its posts. -/
def gone? : Event κ → Option GroupId
  | .groupDeleted id => some id
  | _ => none

/-- A post is another one than that of an event. -/
def spares (event : Event κ) (post : Post κ) : Bool :=
  event.post? != some post.id

/-- An event is meant to take a post off the board. -/
def TakesOff (post : Post κ) : Event κ → Prop
  | .postDeleted gone => post.id = gone.id
  | .groupDeleted id => post.group = id
  | _ => False

end Event

/-- The posts of a group, in order, if the board has the group. -/
def Store.postsIn (store : Store κ) (id : GroupId) : List (Post κ) :=
  ((store.group? id).map (·.posts)).getD []

/-- An event leaves everything alone that it does not name. -/
structure Event.Confined (event : Event κ) (before : Store κ) (update : Update κ) : Prop where
  /-- A group that is not the target and does not have the post is the very same as before. -/
  groups
    : ∀ id,
        event.group? ≠ some id
        → (∀ post, event.post? = some post → ¬ before.groups.Holds id post)
        → update.store.group? id = before.group? id
          ∧ id ∉ update.change.groups
          ∧ id ∉ update.replaced
  /-- The other posts of every group that is not taken away are the same, in the same order. -/
  others
    : ∀ id,
        event.gone? ≠ some id
        → (update.store.postsIn id).filter event.spares = (before.postsIn id).filter event.spares
  /-- Exactly the posts that the event is meant to take off leave the board. -/
  leaves
    : ∀ post ∈ before.groups.posts,
        (∃ now ∈ update.store.groups.posts, now.id = post.id) ↔ ¬ event.TakesOff post
  /-- An update into a group that the board does not have leaves the groups alone. -/
  stays
    : ∀ post old,
        event = .postUpdated post old
        → before.group? post.group = none
        → update.store.groups = before.groups
  /-- A group disappears when it is taken away, or when the event's post was its last one. -/
  vanishes
    : ∀ id group,
        before.group? id = some group
        → update.store.group? id = none
        → event.gone? = some id ∨ ∃ only, group.posts = [only] ∧ event.post? = some only.id

/-- What events do to the groups of a board. An event is idle, relocates its post, changes fields of
a group, or takes a post or a group off the board.
-/
inductive Event.Effect (before : Store κ) (update : Update κ) : Event κ → Prop
  | idle {event : Event κ} (keeps : ∀ post, ¬ event.TakesOff post)
    (same : update.store.groups = before.groups) (untouched : update.change.groups = [])
    : Effect before update event
  | relocated {event : Event κ} (keeps : ∀ post, ¬ event.TakesOff post) {post : PostId}
    {target : GroupId} (own : event.post? = some post) (named : event.group? = some target)
    (relocates : before.groups.Relocates update.store.groups post target)
    (touches : ∀ id ∈ update.change.groups, id = target ∨ before.groups.Holds id post)
    : Effect before update event
  | patched {patch : GroupPatch} {group : Group κ} (found : before.group? patch.id = some group)
    (inserted : update.store.groups = before.groups.insert (patch.applyTo group))
    (touches : ∀ id ∈ update.change.groups, id = patch.id)
    : Effect before update (.groupUpdated patch)
  | withdrawn {post : Post κ}
    (left : ∀ id, update.store.group? id = (before.group? id).bind (·.without? post.id))
    (touches : ∀ id ∈ update.change.groups, before.groups.Holds id post.id)
    : Effect before update (.postDeleted post)
  | erased {id : GroupId} (erased : update.store.groups = before.groups.erase id)
    (touches : ∀ touched ∈ update.change.groups, touched = id)
    : Effect before update (.groupDeleted id)

-----------------------------------------------------------------------------------------
-- Effects
-----------------------------------------------------------------------------------------

namespace Store

/-- An edit reports the groups that it touched. -/
theorem change_edit (store : Store κ) (change : Draft κ → Option (Draft κ))
    : (store.edit change).change.groups
      = ((change ⟨store.groups, []⟩).getD ⟨store.groups, []⟩).touched := by
  unfold edit
  cases change ⟨store.groups, []⟩ with
  | none => rfl
  | some next => rfl

theorem change_typingStopped (store : Store κ) (post : PostId)
    : (store.typingStopped post).change.groups = [] := by
  unfold typingStopped
  split <;> rfl

theorem change_typingStoppedNowhere (store : Store κ)
    : store.typingStoppedNowhere.change.groups = [] := by
  unfold typingStoppedNowhere
  split <;> rfl

/-- A call that touches no group adds none to those of the call before. -/
theorem change_andThen {update : Update κ} {call : Store κ → Update κ}
    (untouched : (call update.store).change.groups = [])
    : (update.andThen call).change.groups = update.change.groups := by
  change update.change.groups ++ (call update.store).change.groups = update.change.groups
  rw [untouched, List.append_nil]

end Store

namespace Event.Effect

variable {store : Store κ} {update : Update κ}

/-- An edit that relocates a post and touches nothing else is such an effect. -/
theorem of_relocates {event : Event κ} (keeps : ∀ post, ¬ event.TakesOff post) {post : PostId}
    {target : GroupId} (own : event.post? = some post) (named : event.group? = some target)
    {next : Draft κ} (reached : update.store.groups = next.table)
    (reported : update.change.groups = next.touched)
    (relocates : store.groups.Relocates next.table post target)
    (touches : (⟨store.groups, []⟩ : Draft κ).TouchesOnly next post (some target))
    : Effect store update event := by
  refine .relocated keeps own named (reached ▸ relocates) fun id member => ?_
  rw [reported] at member
  rcases touches id member with old | same | holds
  · exact absurd old List.not_mem_nil
  · exact .inl (Option.some.inj same).symm
  · exact .inr holds

variable [OrderKey κ]

/-- A post that is put into a group of the board is relocated there. -/
theorem of_placePost? (wellFormed : store.groups.WellFormed) {event : Event κ}
    (keeps : ∀ post, ¬ event.TakesOff post) {post : Post κ} (own : event.post? = some post.id)
    (named : event.group? = some post.group) {target : Group κ}
    (found : store.group? post.group = some target)
    (reached : update.store.groups = (store.edit (·.placePost? post)).store.groups)
    (reported : update.change.groups = (store.edit (·.placePost? post)).change.groups)
    : Effect store update event := by
  have table : (⟨store.groups, []⟩ : Draft κ).table.WellFormed := wellFormed
  rw [Store.groups_edit] at reached
  rw [Store.change_edit] at reported
  exact of_relocates keeps own named reached reported
    (Draft.placePost?_upserts table found).relocates (Draft.placePost?_touchesOnly _ post)

/-- A post that comes in a group of its own is relocated there. -/
theorem of_insertGroup? (wellFormed : store.groups.WellFormed) {event : Event κ}
    (keeps : ∀ post, ¬ event.TakesOff post) {group : Group κ} {post : Post κ}
    (only : group.posts = [post]) (named : post.group = group.id)
    (own : event.post? = some post.id) (target : event.group? = some group.id)
    : Effect store (store.edit (·.insertGroup? group)) event := by
  have table : (⟨store.groups, []⟩ : Draft κ).table.WellFormed := wellFormed
  obtain ⟨relocates, touches⟩ := Draft.insertGroup?_relocates table only named
  exact of_relocates keeps own target (store.groups_edit _) (store.change_edit _) relocates touches

end Event.Effect

/-- A group of one post comes to a table as if the post named it, since it is made to. -/
theorem Draft.insertGroup?_singleton [OrderKey κ] (draft : Draft κ) (group : Group κ)
    (post : Post κ)
    : draft.insertGroup? { group with posts := [post] }
      = draft.insertGroup? { group with posts := [{ post with group := group.id }] } := by
  have normal : ({ group with posts := [post] } : Group κ).normalized
      = ({ group with posts := [{ post with group := group.id }] } : Group κ).normalized := by
    simp only [Group.normalized, Post.sorted, List.mergeSort_singleton, List.map_cons, List.map_nil]
  rw [insertGroup?_eq, insertGroup?_eq, normal]

namespace Store

open Event (Effect)

variable [OrderKey κ] {store : Store κ}

theorem effect_postCreated (wellFormed : store.groups.WellFormed) (post : Post κ) (group : Group κ)
    : Effect store (store.postCreated post group) (.postCreated post group) := by
  have keeps (other : Post κ) : ¬ (Event.postCreated post group).TakesOff other := id
  unfold postCreated
  split
  · next there =>
      obtain ⟨target, found⟩ := Option.isSome_iff_exists.mp there
      let moved : Post κ := { post with group := group.id }
      have own : (Event.postCreated post group).post? = some moved.id := rfl
      exact .of_placePost? wellFormed keeps own rfl found rfl rfl
  · rw [groupCreated, List.isEmpty_cons, if_neg Bool.false_ne_true]
    simp only [Draft.insertGroup?_singleton _ group post]
    exact .of_insertGroup? wellFormed keeps rfl rfl rfl rfl

theorem effect_postUpdated (wellFormed : store.groups.WellFormed) (post : Post κ)
    (old : Option (Post κ))
    : Effect store (store.postUpdated post) (.postUpdated post old) := by
  have keeps (other : Post κ) : ¬ (Event.postUpdated post old).TakesOff other := id
  have reported : (store.postUpdated post).change.groups
      = (store.edit (·.placePost? post)).change.groups :=
    change_andThen (change_typingStopped _ _)
  cases found : store.group? post.group with
  | none =>
      have nothing : (⟨store.groups, []⟩ : Draft κ).placePost? post = none := by
        have absent : (⟨store.groups, []⟩ : Draft κ).table.find? post.group = none := found
        rw [Draft.placePost?, absent]
      refine .idle keeps (groups_postUpdated_of_absent found) ?_
      rw [reported, change_edit, nothing]
      rfl
  | some target =>
      exact .of_placePost? wellFormed keeps rfl rfl found (typingStopped_sameBoard _ _).1 reported

theorem effect_postDeleted (wellFormed : store.groups.WellFormed) (post : Post κ)
    : Effect store (store.postRemoved post) (.postDeleted post) := by
  unfold postRemoved
  split
  · next located =>
      have table : (⟨store.groups, []⟩ : Draft κ).table.WellFormed := wellFormed
      have removable
          : ((⟨store.groups, []⟩ : Draft κ).removePost? post.id (some post.group)).isSome :=
        Draft.removePost?_isSome located
      obtain ⟨next, edited⟩ := Option.isSome_iff_exists.mp removable
      refine .withdrawn (fun id => ?_) fun id member => ?_
      · rw [Update.andThen_store, group?, (typingStopped_sameBoard _ _).1, groups_edit, edited]
        exact Draft.find?_of_removePost? table edited id
      · rw [change_andThen (change_typingStopped _ _), change_edit, edited] at member
        rcases Draft.removePost?_touchesOnly edited none id member with old | named | holds
        · exact absurd old List.not_mem_nil
        · simp at named
        · exact holds
  · next missing =>
      refine .withdrawn (fun id => (wellFormed.bind_without? fun holds => ?_).symm) fun _ member =>
        absurd member List.not_mem_nil
      obtain ⟨old, member, sameId⟩ := holds.exists_mem_posts
      rw [Option.not_isSome_iff_eq_none, GroupTable.locate?_eq_none_iff] at missing
      exact missing old member sameId

theorem effect_groupUpdated (store : Store κ) (patch : GroupPatch)
    : Effect store (store.groupPatched patch) (.groupUpdated patch) := by
  have keeps (other : Post κ) : ¬ (Event.groupUpdated patch).TakesOff other := id
  cases found : store.group? patch.id with
  | none =>
      rw [groupPatched_of_absent found]
      exact .idle keeps rfl rfl
  | some group =>
      by_cases same : (patch.applyTo group == group) = true
      · rw [groupPatched_of_beq found same]
        exact .idle keeps rfl rfl
      · refine .patched found (groups_groupPatched_of_ne found same) fun id member => ?_
        have touched : (store.groupPatched patch).change.groups = [(patch.applyTo group).id] := by
          rw [groupPatched, found]
          simp only [same, Bool.false_eq_true, if_false]
          rfl
        rw [touched, List.mem_singleton, patch.applyTo_id] at member
        exact member.trans (GroupTable.id_of_find? found)

omit [OrderKey κ] in
theorem effect_groupDeleted (store : Store κ) (id : GroupId)
    : Effect store (store.groupRemoved id) (.groupDeleted id) := by
  refine .erased (store.groups_groupRemoved id) fun touched member => ?_
  unfold groupRemoved at member
  split at member
  · rw [change_andThen (change_typingStoppedNowhere _)] at member
    exact List.mem_singleton.mp member
  · exact absurd member List.not_mem_nil

/-- Every event has one of the effects, by cases on the event. -/
theorem effect_reduce (wellFormed : store.groups.WellFormed) (localUser : Option UserId)
    (event : Event κ)
    : Effect store (store.reduce localUser event) event := by
  cases event with
  | authenticated user => exact .idle (fun _ => id) rfl rfl
  | boardConnected connected newUser => exact .idle (fun _ => id) rfl rfl
  | boardDisconnected user =>
      refine .idle (fun _ => id) (store.left_sameBoard user).1 ?_
      simp only [reduce, left]
      split <;> rfl
  | postCreated post group => exact effect_postCreated wellFormed post group
  | postUpdated post old => exact effect_postUpdated wellFormed post old
  | postDeleted post => exact effect_postDeleted wellFormed post
  | postDetached post group => exact .of_insertGroup? wellFormed (fun _ => id) rfl rfl rfl rfl
  | postFocused post user =>
      simp only [reduce, focused]
      split
      · exact .idle (fun _ => id) rfl rfl
      · split <;> exact .idle (fun _ => id) rfl rfl
  | groupUpdated patch => exact store.effect_groupUpdated patch
  | groupDeleted id => exact store.effect_groupDeleted id

end Store

-----------------------------------------------------------------------------------------
-- The frame
-----------------------------------------------------------------------------------------

namespace Store

variable {before after : Store κ}

theorem filter_postsIn (store : Store κ) (id : GroupId) (picks : Post κ → Bool)
    : (store.postsIn id).filter picks
      = ((store.group? id).map (·.posts.filter picks)).getD [] := by
  unfold postsIn
  cases store.group? id with
  | none => rfl
  | some group => rfl

/-- A group that loses a post, or is gone with it, has the others. -/
theorem postsIn_of_bind {id : GroupId} {post : PostId}
    (left : after.group? id = (before.group? id).bind (·.without? post))
    : after.postsIn id = (before.postsIn id).filter (·.id != post) := by
  rw [filter_postsIn, postsIn, left]
  cases before.group? id with
  | none => rfl
  | some group => exact group.getD_posts_without? post

/-- A group that changes but keeps its posts leaves the posts of all groups as they are. -/
theorem postsIn_of_insert {group changed : Group κ}
    (inserted : after.groups = before.groups.insert changed)
    (found : before.group? changed.id = some group) (same : changed.posts = group.posts)
    (id : GroupId)
    : after.postsIn id = before.postsIn id := by
  rw [postsIn, group?, inserted, GroupTable.find?_insert]
  split
  · next here =>
      have atId : before.group? id = some group := here ▸ found
      rw [postsIn, atId]
      exact same
  · rfl

theorem postsIn_of_mem {store : Store κ} {group : Group κ} (member : group ∈ store.groups.toList)
    : store.postsIn group.id = group.posts := by
  have found : store.group? group.id = some group := GroupTable.mem_toList_iff.mp member
  rw [postsIn, found]
  rfl

theorem mem_posts_of_mem_postsIn {store : Store κ} {id : GroupId} {post : Post κ}
    (member : post ∈ store.postsIn id)
    : post ∈ store.groups.posts := by
  unfold postsIn at member
  cases found : store.group? id with
  | none => simp [found] at member
  | some group =>
      rw [found] at member
      exact GroupTable.mem_posts.mpr ⟨group, GroupTable.mem_toList_of_find? found, member⟩

theorem mem_postsIn [OrderKey κ] {store : Store κ} (wellFormed : store.groups.WellFormed)
    {post : Post κ} (member : post ∈ store.groups.posts)
    : post ∈ store.postsIn post.group := by
  obtain ⟨group, found, inGroup⟩ := wellFormed.group_of_mem_posts member
  have atGroup : store.group? post.group = some group := found
  rw [postsIn, atGroup]
  exact inGroup

/-- A change of a group leaves the posts of all groups as they are. -/
theorem postsIn_groupPatched [OrderKey κ] (store : Store κ) (patch : GroupPatch) (id : GroupId)
    : (store.groupPatched patch).store.postsIn id = store.postsIn id := by
  cases found : store.group? patch.id with
  | none =>
      rw [groupPatched_of_absent found]
      rfl
  | some group =>
      by_cases same : (patch.applyTo group == group) = true
      · rw [groupPatched_of_beq found same]
        rfl
      · have atOwn : store.group? (patch.applyTo group).id = some group := by
          rw [patch.applyTo_id, GroupTable.id_of_find? found, found]
        exact postsIn_of_insert (groups_groupPatched_of_ne found same) atOwn rfl id

end Store

namespace Event

variable {event : Event κ} {before : Store κ} {update : Update κ}

/-- The posts that an event spares are those that are not its own. -/
theorem filter_spares {post : PostId} (own : event.post? = some post) (posts : List (Post κ))
    : posts.filter event.spares = posts.filter (·.id != post) := by
  congr 1
  funext other
  rw [spares, own, bne_comm]
  rfl

namespace Effect

/-- The other posts of every group that is not taken away are the same, by cases on the effect. -/
theorem others (effect : Effect before update event) {id : GroupId} (stays : event.gone? ≠ some id)
    : (update.store.postsIn id).filter event.spares = (before.postsIn id).filter event.spares := by
  cases effect with
  | idle keeps same untouched => rw [Store.postsIn, Store.group?, same]; rfl
  | @relocated _ keeps post target own named relocates touches =>
      rw [filter_spares own, filter_spares own]
      by_cases here : id = target
      · subst here
        obtain ⟨group, found, _, others⟩ := relocates.arrived
        have atGroup : update.store.group? id = some group := found
        rw [Store.filter_postsIn, Store.filter_postsIn, atGroup]
        exact others
      · simp only [Store.postsIn_of_bind (relocates.outside id here), List.filter_filter,
          Bool.and_self]
  | @patched patch group found inserted touches =>
      have atOwn : before.group? (patch.applyTo group).id = some group := by
        rw [patch.applyTo_id, GroupTable.id_of_find? found, found]
      exact congrArg (List.filter _) (Store.postsIn_of_insert inserted atOwn rfl id)
  | @withdrawn post left touches =>
      rw [filter_spares rfl, filter_spares rfl]
      simp only [Store.postsIn_of_bind (left id), List.filter_filter, Bool.and_self]
  | @erased gone erased touches =>
      have differs : gone ≠ id := fun same => stays (congrArg some same)
      rw [Store.postsIn, Store.group?, erased, GroupTable.find?_erase, if_neg differs]
      rfl

variable [OrderKey κ]

/-- A group that an event is not for and that does not have its post is the same, unreported. -/
theorem groups (effect : Effect before update event) (wellFormed : before.groups.WellFormed)
    {id : GroupId} (elsewhere : event.group? ≠ some id)
    (absent : ∀ post, event.post? = some post → ¬ before.groups.Holds id post)
    : update.store.group? id = before.group? id ∧ id ∉ update.change.groups := by
  cases effect with
  | idle keeps same untouched =>
      rw [Store.group?, same, untouched]
      exact ⟨rfl, List.not_mem_nil⟩
  | @relocated _ keeps post target own named relocates touches =>
      have differs : id ≠ target := fun same => elsewhere (same ▸ named)
      refine ⟨?_, fun member => ?_⟩
      · exact (relocates.outside id differs).trans (wellFormed.bind_without? (absent post own))
      · exact (touches id member).elim differs (absent post own)
  | @patched patch group found inserted touches =>
      have differs : id ≠ patch.id := fun same => elsewhere (congrArg some same.symm)
      have own : group.id = patch.id := GroupTable.id_of_find? found
      refine ⟨?_, fun member => differs (touches id member)⟩
      rw [Store.group?, inserted]
      exact GroupTable.find?_insert_of_ne fun same => differs (same.symm.trans own)
  | @withdrawn post left touches =>
      refine ⟨?_, fun member => absent post.id rfl (touches id member)⟩
      exact (left id).trans (wellFormed.bind_without? (absent post.id rfl))
  | @erased gone erased touches =>
      have differs : id ≠ gone := fun same => elsewhere (congrArg some same.symm)
      refine ⟨?_, fun member => differs (touches id member)⟩
      rw [Store.group?, erased, GroupTable.find?_erase, if_neg (Ne.symm differs)]
      rfl

/-- A post that an event spares and does not take off stays on the board. -/
theorem mem_of_spared (effect : Effect before update event) (wellFormed : before.groups.WellFormed)
    {post : Post κ} (member : post ∈ before.groups.posts) (spared : event.spares post = true)
    (keeps : ¬ event.TakesOff post)
    : post ∈ update.store.groups.posts := by
  have stays : event.gone? ≠ some post.group := by
    intro gone
    cases event <;> simp only [gone?, reduceCtorEq] at gone
    exact keeps (Option.some.inj gone).symm
  have kept : post ∈ (before.postsIn post.group).filter event.spares :=
    List.mem_filter.mpr ⟨Store.mem_postsIn wellFormed member, spared⟩
  rw [← effect.others stays] at kept
  exact Store.mem_posts_of_mem_postsIn (List.mem_of_mem_filter kept)

/-- A post that an event does not take off stays on the board, or one with its identifier does. -/
theorem exists_of_kept (effect : Effect before update event) (wellFormed : before.groups.WellFormed)
    {post : Post κ} (member : post ∈ before.groups.posts) (keeps : ¬ event.TakesOff post)
    : ∃ now ∈ update.store.groups.posts, now.id = post.id := by
  by_cases spared : event.spares post = true
  · exact ⟨post, effect.mem_of_spared wellFormed member spared keeps, rfl⟩
  · have own : event.post? = some post.id := by simpa [spares] using spared
    cases effect with
    | idle _ same _ => exact ⟨post, same ▸ member, rfl⟩
    | relocated _ named _ relocates _ =>
        obtain ⟨group, found, ⟨now, inGroup, nowId⟩, _⟩ := relocates.arrived
        refine ⟨now, ?_, nowId.trans (Option.some.inj (named.symm.trans own))⟩
        exact GroupTable.mem_posts.mpr ⟨group, GroupTable.mem_toList_of_find? found, inGroup⟩
    | patched => simp [post?] at own
    | withdrawn => exact absurd (Option.some.inj own).symm keeps
    | erased => simp [post?] at own

/-- A post that an event takes off is not on the board any more. -/
theorem absent_of_takesOff (effect : Effect before update event)
    (wellFormed : before.groups.WellFormed) {post : Post κ} (member : post ∈ before.groups.posts)
    (takes : event.TakesOff post)
    : ∀ now ∈ update.store.groups.posts, now.id ≠ post.id := by
  intro now nowMember sameId
  cases effect with
  | idle keeps _ _ => exact keeps post takes
  | relocated keeps _ _ _ _ => exact keeps post takes
  | patched => exact takes
  | @withdrawn gone left _ =>
      obtain ⟨group, inTable, inGroup⟩ := GroupTable.mem_posts.mp nowMember
      have found := (left group.id).symm.trans (GroupTable.mem_toList_iff.mp inTable)
      obtain ⟨whole, _, rest⟩ := Option.bind_eq_some_iff.mp found
      rw [Group.posts_of_without? rest] at inGroup
      exact (Group.mem_others.mp inGroup).2 (sameId.trans takes)
  | @erased gone erased _ =>
      rw [erased, wellFormed.mem_posts_erase] at nowMember
      have one := wellFormed.eq_of_post_id_eq nowMember.1 member sameId
      exact nowMember.2 (one ▸ takes)

/-- A group that vanishes is taken away or loses its last post, by cases on the effect. -/
theorem vanishes (effect : Effect before update event) (wellFormed : before.groups.WellFormed)
    {id : GroupId} {group : Group κ} (found : before.group? id = some group)
    (absent : update.store.group? id = none)
    : event.gone? = some id ∨ ∃ only, group.posts = [only] ∧ event.post? = some only.id := by
  have inTable := GroupTable.mem_toList_of_find? found
  have last {post : PostId} (own : event.post? = some post)
      (left : update.store.group? id = (before.group? id).bind (·.without? post))
      : ∃ only, group.posts = [only] ∧ event.post? = some only.id := by
    rw [absent, found, Option.bind_some] at left
    obtain ⟨only, posts, sameId⟩ := Group.exists_posts_eq_of_without?
      (wellFormed.groups group inTable).occupied (wellFormed.distinct inTable) left.symm
    exact ⟨only, posts, sameId ▸ own⟩
  cases effect with
  | idle _ same _ =>
      rw [Store.group?, same] at absent
      exact absurd (found.symm.trans absent) (by simp)
  | @relocated _ _ post target own _ relocates _ =>
      by_cases here : id = target
      · obtain ⟨now, atTarget, _⟩ := relocates.arrived
        have atId : update.store.group? id = some now := here ▸ atTarget
        exact absurd (atId.symm.trans absent) (by simp)
      · exact .inr (last own (relocates.outside id here))
  | @patched patch other otherFound inserted _ =>
      rw [Store.group?, inserted, GroupTable.find?_insert] at absent
      split at absent
      · simp at absent
      · exact absurd (found.symm.trans absent) (by simp)
  | @withdrawn post left _ => exact .inr (last rfl (left id))
  | @erased gone erased _ =>
      rw [Store.group?, erased, GroupTable.find?_erase] at absent
      split at absent
      · next here => exact .inl (congrArg some here)
      · exact absurd (found.symm.trans absent) (by simp)

end Effect

/-- Every event leaves alone what it does not name, on every board in good order. -/
theorem reduce_confined [OrderKey κ] (wellFormed : before.groups.WellFormed)
    (localUser : Option UserId) (event : Event κ)
    : event.Confined before (before.reduce localUser event) := by
  have effect := before.effect_reduce wellFormed localUser event
  refine ⟨?_, fun id stays => effect.others stays, ?_, ?_, ?_⟩
  · intro id elsewhere absent
    obtain ⟨same, unreported⟩ := effect.groups wellFormed elsewhere absent
    refine ⟨same, unreported, fun reported => unreported ?_⟩
    simpa using (List.mem_filter.mp reported).2
  · intro post member
    refine ⟨?_, effect.exists_of_kept wellFormed member⟩
    rintro ⟨now, nowMember, sameId⟩ takes
    exact effect.absent_of_takesOff wellFormed member takes now nowMember sameId
  · rintro post old rfl absent
    exact Store.groups_postUpdated_of_absent absent
  · exact fun id group found absent => effect.vanishes wellFormed found absent

/-- The only post of the first group goes to the second one; the first group is gone, and the post
of the second one stays.
-/
theorem reduce_confined_transfer
    : let before := Store.ofGroups Sample.pair
      let event : Event Float := .postUpdated (Sample.post 11 20 0.5) none
      let update := before.reduce none event
      before.groups.WellFormed
      ∧ event.Confined before update
      ∧ update.store.group? (.ofNat 10) = none
      ∧ (update.store.postsIn (.ofNat 20)).map (·.id) = [.ofNat 11, .ofNat 21] := by
  intro before event update
  have wellFormed : before.WellFormed :=
    Store.Describable.wellFormed ⟨by decide, by decide, by decide⟩ (by decide)
  refine ⟨wellFormed.table, reduce_confined wellFormed.table none event, ?_, ?_⟩
  · simp only [update, before, event, Sample.ofGroups_pair]
    decide +kernel
  · simp only [update, before, event, Sample.ofGroups_pair]
    decide +kernel

end Event

end SharedBoard
