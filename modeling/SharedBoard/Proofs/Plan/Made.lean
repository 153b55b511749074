import SharedBoard.Proofs.Plan.Mutation

/-! The plans that gestures turn into. There are nine kinds of them, and each says for which
gesture it is and what was on the board when it was made.
-/

namespace SharedBoard

variable {κ : Type}

/-- A post that has a place is found there, and has the identifier that was looked for. -/
theorem Store.exists_post?_of_locate? {store : Store κ} {post : PostId} {id : GroupId} {index : Nat}
    (place : store.locate? post = some (id, index))
    : ∃ group current,
        store.group? id = some group
        ∧ group.posts[index]? = some current
        ∧ store.post? post = some current
        ∧ current.id = post := by
  obtain ⟨group, current, found, here, same⟩ := GroupTable.exists_of_locate? place
  refine ⟨group, current, found, here, ?_, same⟩
  have atGroup : store.group? id = some group := found
  simp only [post?, place, atGroup, here, Option.bind_eq_bind, Option.bind_some]

/-- How a post looks: what stands on it, in which color, and how high it is. -/
structure Look where
  content : String
  color : Color
  height : Int32
deriving DecidableEq

def Post.look (post : Post κ) : Look :=
  ⟨post.content, post.color, post.height⟩

/-- What a change of a post makes of the look of some post. -/
def PostEdit.dress (edit : PostEdit κ) (post : PostId) (look : Look) : Look :=
  if edit.id = post then
    ⟨edit.content.getD look.content, edit.color.getD look.color, edit.height.getD look.height⟩
  else
    look

/-- What a gesture makes of the look of a post. A new text comes with a height, which is derived
from the text unless it was measured, and no height is less than the least.
-/
def Gesture.dress (gesture : Gesture) (post : PostId) (look : Look) : Look :=
  match gesture with
  | .editPost target content height =>
      if target = post then
        { look with content := content, height := height.getD (Canvas.contentHeight content) }
      else
        look
  | .resizePost target height =>
      if target = post then { look with height := max height Canvas.postHeight } else look
  | .recolorPost target color => if target = post then { look with color := color } else look
  | _ => look

namespace Plan

/-- The keys that a plan gives to posts that are on the board already. -/
def keys (plan : Plan κ) : List κ :=
  plan.mutations.filterMap fun mutation =>
    match mutation with
    | .editPost edit => edit.key
    | _ => none

/-- A group that is asked for is on the board. -/
theorem group?_of_groupOr {store : Store κ} {id : GroupId} {refusal : DropError} {group : Group κ}
    (asked : groupOr store id refusal = .ok group)
    : store.group? id = some group := by
  unfold groupOr at asked
  split at asked
  · next found => exact found.trans (congrArg some (Except.ok.inj asked))
  · simp at asked

/-- A place that is asked for is one on the board. -/
theorem locate?_of_placeOr {store : Store κ} {post : PostId} {refusal : DropError}
    {place : GroupId × Nat}
    (asked : placeOr store post refusal = .ok place)
    : store.locate? post = some place := by
  unfold placeOr at asked
  split at asked
  · next found => exact found.trans (congrArg some (Except.ok.inj asked))
  · simp at asked

/-- What follows from one computation after another is what follows from each. -/
theorem exists_of_bind {ε α β : Type} {first : Except ε α} {next : α → Except ε β} {result : β}
    (computed : first >>= next = .ok result)
    : ∃ value, first = .ok value ∧ next value = .ok result := by
  cases first with
  | error _ => simp [bind, Except.bind] at computed
  | ok value => exact ⟨value, rfl, computed⟩

/-- A computation that has a result succeeds with it. -/
theorem ok_of_toOption {ε α : Type} {outcome : Except ε α} {value : α}
    (found : outcome.toOption = some value)
    : outcome = .ok value := by
  cases outcome with
  | error _ => simp [Except.toOption] at found
  | ok _ => exact congrArg Except.ok (Option.some.inj found)

variable [OrderKey κ]

/-- A key that stands beside the post at some index of some keys of a group. -/
def Beside (group : Group κ) (key : κ) : Prop :=
  ∃ keys index above,
    OrderKey.beside? keys index above = some key
    ∧ ∀ other ∈ keys, ∃ post ∈ group.posts, post.key = other

/-- The plans that can be made on a board for a gesture. -/
inductive Made (store : Store κ) (actor : Actor) (fresh : Fresh) : Gesture → Plan κ → Prop
  | created (x y : Float) (color : Color) (grid : Option Int32)
    : Made store actor fresh (.createPost x y) (createPost store actor fresh x y color grid)
  | edited {gesture : Gesture} {edit : PostEdit κ} {post : Post κ}
    (found : store.post? edit.id = some post) (stays : edit.group = none) (sameKey : edit.key = none)
    (dresses : ∀ id look, gesture.dress id look = edit.dress id look)
    : Made store actor fresh gesture (ofEdit edit)
  | retitled {id : GroupId} {group : Group κ} (found : store.group? id = some group)
    (title : String)
    : Made store actor fresh (.retitleGroup id title)
        ⟨[.patchGroup { GroupPatch.nothing id with title := some title }],
          [updateGroup actor { GroupPatch.nothing id with title := some title }]⟩
  | moved {patch : GroupPatch} {group : Group κ} (found : store.group? patch.id = some group)
    (untimed : patch.updatedAt = none) (x y : Float)
    : Made store actor fresh (.drop (.group patch.id) (.canvas x y))
        ⟨[.patchGroup patch], [updateGroup actor patch]⟩
  | emptied {id : GroupId} {group : Group κ} {post : Post κ} (found : store.group? id = some group)
    (only : group.posts = [post])
    : Made store actor fresh (.deletePost post.id)
        ⟨[.removeGroup id], [.deleteGroup id actor.board]⟩
  | removed {post : Post κ} (found : store.post? post.id = some post)
    : Made store actor fresh (.deletePost post.id)
        ⟨[.removePost post], [.deletePost post.id actor.board]⟩
  | detached {id : PostId} {post : Post κ} (found : store.post? id = some post) (atX atY : Float)
    (x y z : Int32)
    : Made store actor fresh (.drop (.post id) (.canvas atX atY))
        ⟨[.detachPost id ⟨fresh.group, actor.board, "", x, y, z, [], fresh.now, fresh.now⟩],
          [.detachPost ⟨id, actor.board, fresh.group, x, y, z⟩]⟩
  | inserted {id : PostId} {post : Post κ} {target : GroupId} {destination : Group κ} {key : κ}
    (found : store.post? id = some post) (targetFound : store.group? target = some destination)
    (beside : Beside destination key) (neighbour : PostId) (above : Bool)
    : Made store actor fresh (.drop (.post id) (.post neighbour above))
        ⟨[.editPost (transfer actor id target key), .patchGroup (bringToFront store target)],
          [.updatePost (transfer actor id target key),
            updateGroup actor (bringToFront store target)]⟩
  | merged {source target : GroupId} {group destination : Group κ} {post : Post κ} {key : κ}
    (found : store.group? source = some group) (only : group.posts = [post])
    (elsewhere : target ≠ source) (targetFound : store.group? target = some destination)
    (beside : Beside destination key) (neighbour : PostId) (above : Bool)
    : Made store actor fresh (.drop (.group source) (.post neighbour above))
        ⟨[.editPost (transfer actor post.id target key), .removeGroup source,
            .patchGroup (bringToFront store target)],
          [.updatePost (transfer actor post.id target key), .deleteGroup source actor.board,
            updateGroup actor (bringToFront store target)]⟩

variable {store : Store κ} {actor : Actor} {fresh : Fresh} {plan : Plan κ}

omit [OrderKey κ] in
/-- A group with one post has no other. -/
theorem posts_of_isSingleton {group : Group κ} (single : group.isSingleton = true) {post : Post κ}
    (member : post ∈ group.posts)
    : group.posts = [post] := by
  obtain ⟨only, posts⟩ : ∃ only, group.posts = [only] :=
    List.length_eq_one_iff.mp (by simpa [Group.isSingleton] using single)
  rw [posts, List.mem_singleton] at member
  rw [posts, member]

/-- The plan that changes a post in place is made for a post on the board. -/
theorem made_of_editing {gesture : Gesture} {post : PostId} {change : PostEdit κ → PostEdit κ}
    (planned : editing store actor post change = .ok plan)
    (sameId : ∀ edit, (change edit).id = edit.id) (stays : ∀ edit, (change edit).group = edit.group)
    (sameKey : ∀ edit, (change edit).key = edit.key)
    (dresses
      : ∀ id look,
          gesture.dress id look = (change (PostEdit.nothing post actor.board)).dress id look)
    : Made store actor fresh gesture plan := by
  unfold editing at planned
  split at planned
  · next found =>
      obtain rfl := Except.ok.inj planned
      obtain ⟨current, atPost⟩ := Option.isSome_iff_exists.mp found
      exact .edited ((congrArg store.post? (sameId _)).trans atPost) (stays _) (sameKey _) dresses
  · simp at planned

/-- The plan that gives a group another title is made for a group on the board. -/
theorem made_of_retitleGroup {group : GroupId} {title : String}
    (planned : retitleGroup store actor group title = .ok plan)
    : Made store actor fresh (.retitleGroup group title) plan := by
  unfold retitleGroup at planned
  split at planned
  · next found =>
      obtain rfl := Except.ok.inj planned
      obtain ⟨current, atGroup⟩ := Option.isSome_iff_exists.mp found
      exact .retitled atGroup title
  · simp at planned

/-- The plan that deletes a post removes its group if it is the last one there. -/
theorem made_of_deletePost {post : PostId} (planned : deletePost store actor post = .ok plan)
    : Made store actor fresh (.deletePost post) plan := by
  unfold deletePost at planned
  split at planned
  · simp at planned
  · next id index place =>
      obtain ⟨group, current, found, here, atPost, rfl⟩ := Store.exists_post?_of_locate? place
      simp only [found, here] at planned
      split at planned
      · next single =>
          obtain rfl := Except.ok.inj planned
          exact .emptied found (posts_of_isSingleton single (List.mem_of_getElem? here))
      · obtain rfl := Except.ok.inj planned
        exact .removed atPost

/-- The plan that moves a group is made for a group on the board. -/
theorem made_of_moveGroup {group : GroupId} {x y : Float} {grid : Option Int32}
    (planned : moveGroup store actor group x y grid = .ok plan)
    : Made store actor fresh (.drop (.group group) (.canvas x y)) plan := by
  unfold moveGroup at planned
  split at planned
  · next found =>
      obtain rfl := Except.ok.inj planned
      obtain ⟨current, atGroup⟩ := Option.isSome_iff_exists.mp found
      let patch : GroupPatch :=
        { bringToFront store group with
          x := some (Canvas.dropPosition x y grid).1
          y := some (Canvas.dropPosition x y grid).2 }
      have atPatch : store.group? patch.id = some current := atGroup
      exact .moved atPatch rfl x y
  · simp at planned

/-- The plan that detaches a post is made for a post on the board. -/
theorem made_of_detachPost {post : PostId} {x y : Float} {grid : Option Int32}
    (planned : detachPost store actor fresh post x y grid = .ok plan)
    : Made store actor fresh (.drop (.post post) (.canvas x y)) plan := by
  obtain ⟨⟨id, index⟩, place, planned⟩ := exists_of_bind planned
  obtain ⟨source, _, planned⟩ := exists_of_bind planned
  obtain ⟨_, current, _, _, atPost, _⟩ := Store.exists_post?_of_locate? (locate?_of_placeOr place)
  split at planned
  · simp at planned
  · obtain rfl := Except.ok.inj planned
    exact .detached atPost x y _ _ _

/-- The plan that merges a group into another is made for the only post of the group. -/
theorem made_of_mergeSingleton {group : GroupId} {target : PostId} {above : Bool}
    (planned : mergeSingleton store actor group target above = .ok plan)
    : Made store actor fresh (.drop (.group group) (.post target above)) plan := by
  obtain ⟨source, atSource, planned⟩ := exists_of_bind planned
  obtain ⟨⟨targetGroup, index⟩, _, planned⟩ := exists_of_bind planned
  dsimp only at planned
  split at planned
  · simp at planned
  · next elsewhere =>
      split at planned
      · simp at planned
      · next single =>
          split at planned
          · simp at planned
          · next post atHead =>
              obtain ⟨destination, atTarget, planned⟩ := exists_of_bind planned
              split at planned
              · simp at planned
              · next key beside =>
                  obtain rfl := Except.ok.inj planned
                  have only := posts_of_isSingleton (by simpa using single)
                    (List.mem_of_head? atHead)
                  exact .merged (group?_of_groupOr atSource) only elsewhere
                    (group?_of_groupOr atTarget)
                    ⟨_, index, above, beside, fun _ member => List.mem_map.mp member⟩ target above

/-- The plan that puts a post beside another is made for a post and a group on the board. -/
theorem made_of_insertPost {post target : PostId} {above : Bool}
    (planned : insertPost store actor post target above = .ok plan)
    : Made store actor fresh (.drop (.post post) (.post target above)) plan := by
  unfold insertPost at planned
  split at planned
  · simp at planned
  · obtain ⟨⟨sourceId, _⟩, place, planned⟩ := exists_of_bind planned
    obtain ⟨source, _, planned⟩ := exists_of_bind planned
    obtain ⟨_, current, _, _, atPost, _⟩ := Store.exists_post?_of_locate? (locate?_of_placeOr place)
    split at planned
    · simp at planned
    · obtain ⟨⟨targetGroup, _⟩, _, planned⟩ := exists_of_bind planned
      obtain ⟨destination, atTarget, planned⟩ := exists_of_bind planned
      dsimp only at planned
      split at planned
      · simp at planned
      · next key found =>
          obtain rfl := Except.ok.inj planned
          obtain ⟨index, _, beside⟩ := Option.bind_eq_some_iff.mp found
          refine .inserted atPost (group?_of_groupOr atTarget) ⟨_, index, above, beside, ?_⟩ target
            above
          intro other member
          obtain ⟨sibling, inSiblings, rfl⟩ := List.mem_map.mp member
          exact ⟨sibling, List.mem_of_mem_filter inSiblings, rfl⟩

-----------------------------------------------------------------------------------------
-- Gestures
-----------------------------------------------------------------------------------------

/-- Every plan for a gesture is of one of the kinds, by cases on the gesture. -/
theorem made_of_ofGesture {color : Color} {grid : Option Int32} {gesture : Gesture}
    (planned : ofGesture store actor fresh color grid gesture = .ok plan)
    : Made store actor fresh gesture plan := by
  cases gesture with
  | createPost x y =>
      obtain rfl := Except.ok.inj planned
      exact .created x y color grid
  | editPost post content height =>
      simp only [ofGesture, editPost] at planned
      exact made_of_editing planned (fun _ => rfl) (fun _ => rfl) (fun _ => rfl) fun _ _ => rfl
  | resizePost post height =>
      simp only [ofGesture, resizePost] at planned
      exact made_of_editing planned (fun _ => rfl) (fun _ => rfl) (fun _ => rfl) fun _ _ => rfl
  | recolorPost post color =>
      simp only [ofGesture, recolorPost] at planned
      exact made_of_editing planned (fun _ => rfl) (fun _ => rfl) (fun _ => rfl) fun _ _ => rfl
  | retitleGroup group title => exact made_of_retitleGroup planned
  | deletePost post => exact made_of_deletePost planned
  | drop payload target =>
      simp only [ofGesture] at planned
      cases dropped : drop store actor fresh payload target grid with
      | error _ => simp [dropped, Except.mapError] at planned
      | ok made =>
          obtain rfl : made = plan := by simpa [dropped, Except.mapError] using planned
          cases payload with
          | group id =>
              cases target with
              | canvas x y => exact made_of_moveGroup dropped
              | post target above => exact made_of_mergeSingleton dropped
          | post id =>
              cases target with
              | canvas x y => exact made_of_detachPost dropped
              | post target above => exact made_of_insertPost dropped

theorem Made.commands_ne_nil {gesture : Gesture} (made : Made store actor fresh gesture plan)
    : plan.commands ≠ [] := by
  cases made <;> exact List.cons_ne_nil _ _

/-- The mutations of a plan are admissible when the keys that it gives are numbers: the only group
that a plan brings is that of a new post, which has the first key.
-/
theorem Made.admissible [OrderKey.Lawful κ] {gesture : Gesture}
    (made : Made store actor fresh gesture plan)
    (numbers : ∀ key ∈ plan.keys, (key == key) = true)
    : ∀ mutation ∈ plan.mutations, mutation.Admissible := by
  have edited {edit : PostEdit κ} (member : .editPost edit ∈ plan.mutations)
      : Mutation.Admissible (.editPost edit) := fun key sets =>
    numbers key (List.mem_filterMap.mpr ⟨.editPost edit, member, sets⟩)
  intro mutation member
  cases mutation with
  | editPost edit => exact edited member
  | insertGroup group =>
      cases made with
      | created x y color grid =>
          obtain rfl := Mutation.insertGroup.inj (List.mem_singleton.mp member)
          exact ⟨by simp, by simpa using OrderKey.beq_self_first⟩
      | _ => simp [ofEdit] at member
  | _ => trivial

end Plan

end SharedBoard
