import SharedBoard.Proofs.Store.Idempotence
import SharedBoard.Proofs.Store.Upsert

/-! Updates that do not interfere. Two posts that are updated take the places that their keys
dictate, whichever comes first; two changes of groups set their fields in either order.
-/

namespace SharedBoard

open OrderKey

variable {κ : Type} [OrderKey κ]

-----------------------------------------------------------------------------------------
-- Posts that come to one group
-----------------------------------------------------------------------------------------

namespace Post

variable {posts : List (Post κ)} {post first second : Post κ}

theorem insertInto_nil (post : Post κ) : insertInto [] post = [post] := by
  rw [insertInto_eq]
  rfl

/-- A post goes before the first one above it. -/
theorem insertInto_cons (head : Post κ) (rest : List (Post κ)) (post : Post κ)
    : insertInto (head :: rest) post
      = if post.key < head.key then post :: head :: rest else head :: insertInto rest post := by
  rw [insertInto_eq, insertInto_eq]
  by_cases above : post.key < head.key
  · simp [above]
  · simp [above]

/-- A post that keeps its identifier, and its key up to equality, does not change where another one
goes, by induction.
-/
theorem map_insertInto [Lawful κ] {renew : Post κ → Post κ} (own : renew post = post)
    (sameKeys : ∀ old ∈ posts, (old.key == (renew old).key) = true)
    : (insertInto posts post).map renew = insertInto (posts.map renew) post := by
  induction posts with
  | nil => rw [List.map_nil, insertInto_nil, List.map_singleton, own]
  | cons head rest ih =>
      obtain ⟨headSame, restSame⟩ := List.forall_mem_cons.mp sameKeys
      have sameSide : post.key < (renew head).key ↔ post.key < head.key :=
        ⟨fun below => lt_of_lt_of_beq below (Lawful.beq_symm headSame),
          fun below => lt_of_lt_of_beq below headSame⟩
      rw [insertInto_cons, List.map_cons, insertInto_cons, if_congr sameSide rfl rfl, ← ih restSame]
      split
      · rw [List.map_cons, List.map_cons, own]
      · rw [List.map_cons]

/-- A post goes before posts that are all above it. -/
theorem insertInto_of_above (above : ∀ old ∈ posts, post.key < old.key)
    : insertInto posts post = post :: posts := by
  cases posts with
  | nil => exact insertInto_nil post
  | cons head rest => rw [insertInto_cons, if_pos (above head List.mem_cons_self)]

/-- Where a post goes does not depend on what else leaves an ascending list, by induction. -/
theorem filter_insertInto [Lawful κ] (ascending : Ascending posts)
    (numbers : ∀ old ∈ posts, (old.key == old.key) = true) {stays : Post κ → Bool}
    (own : stays post = true)
    : (insertInto posts post).filter stays = insertInto (posts.filter stays) post := by
  induction posts with
  | nil => simp [insertInto_nil, own]
  | cons head rest ih =>
      obtain ⟨fromHead, restAscending⟩ := List.pairwise_cons.mp ascending
      obtain ⟨_, restNumbers⟩ := List.forall_mem_cons.mp numbers
      rw [insertInto_cons]
      split
      · next below =>
          have above (old : Post κ) (member : old ∈ head :: rest) : post.key < old.key := by
            rcases List.mem_cons.mp member with rfl | later
            · exact below
            · exact (Lawful.lt_or_lt (restNumbers old later) below).resolve_right
                (fromHead old later)
          rw [List.filter_cons_of_pos own,
            insertInto_of_above fun old member => above old (List.mem_of_mem_filter member)]
      · next notBelow =>
          have later := ih restAscending restNumbers
          cases kept : stays head with
          | true =>
              rw [List.filter_cons_of_pos kept, List.filter_cons_of_pos kept, insertInto_cons,
                if_neg notBelow, later]
          | false =>
              have gone : ¬ stays head = true := by simp [kept]
              rw [List.filter_cons_of_neg gone, List.filter_cons_of_neg gone, later]

/-- A post that is below another one and that other one go to the same places in either order, by
induction.
-/
theorem insertInto_insertInto_of_lt [Lawful κ]
    (numbers : ∀ old ∈ posts, (old.key == old.key) = true) (below : first.key < second.key)
    : insertInto (insertInto posts first) second = insertInto (insertInto posts second) first := by
  have notAbove : ¬ second.key < first.key := Lawful.lt_asymm below
  induction posts with
  | nil =>
      rw [insertInto_nil, insertInto_nil, insertInto_cons, insertInto_cons, if_neg notAbove,
        if_pos below, insertInto_nil]
  | cons head rest ih =>
      obtain ⟨headNumber, restNumbers⟩ := List.forall_mem_cons.mp numbers
      have later := ih restNumbers
      rw [insertInto_cons head rest first, insertInto_cons head rest second]
      by_cases firstBelow : first.key < head.key
      · rw [if_pos firstBelow, insertInto_cons, if_neg notAbove, insertInto_cons]
        split
        · rw [insertInto_cons, if_pos below]
        · rw [insertInto_cons, if_pos firstBelow]
      · have secondNotBelow : ¬ second.key < head.key := fun secondBelow =>
          firstBelow (lt_trans headNumber below secondBelow)
        rw [if_neg firstBelow, if_neg secondNotBelow, insertInto_cons, insertInto_cons,
          if_neg firstBelow, if_neg secondNotBelow, later]

/-- Posts with different keys go to the same places in either order. -/
theorem insertInto_insertInto [Linear κ] (numbers : ∀ old ∈ posts, (old.key == old.key) = true)
    (firstNumber : (first.key == first.key) = true)
    (secondNumber : (second.key == second.key) = true)
    (apart : (first.key == second.key) = false)
    : insertInto (insertInto posts first) second = insertInto (insertInto posts second) first := by
  rcases Linear.lt_or_beq_or_gt firstNumber secondNumber with below | same | above
  · exact insertInto_insertInto_of_lt numbers below
  · exact absurd (apart.symm.trans same) Bool.false_ne_true
  · exact (insertInto_insertInto_of_lt numbers above).symm

/-- A version of a post keeps the identifier of the one in its way. -/
@[simp] theorem id_renewedBy (post old : Post κ) : (post.renewedBy old).id = old.id := by
  unfold renewedBy
  split
  · next both => exact both.1.symm
  · rfl

/-- Versions of different posts do not get in each other's way. -/
theorem renewedBy_renewedBy (different : first.id ≠ second.id) (old : Post κ)
    : second.renewedBy (first.renewedBy old) = first.renewedBy (second.renewedBy old) := by
  by_cases own : old.id = first.id
  · have other : old.id ≠ second.id := fun same => different (own.symm.trans same)
    rw [renewedBy_of_ne other, renewedBy_of_ne (by rwa [id_renewedBy])]
  · have other : (second.renewedBy old).id ≠ first.id := by rwa [id_renewedBy]
    rw [renewedBy_of_ne own, renewedBy_of_ne other]

/-- A post that keeps its place leaves all keys as they are. -/
theorem beq_key_renewedBy (distinct : (posts.map (·.id)).Nodup)
    (numbers : ∀ old ∈ posts, (old.key == old.key) = true) (keeps : keepsPlace posts post = true)
    : ∀ old ∈ posts, (old.key == (post.renewedBy old).key) = true := by
  obtain ⟨current, inPosts, sameId, sameKey⟩ := keepsPlace_iff.mp keeps
  intro old member
  unfold renewedBy
  split
  · next both =>
      rwa [List.inj_on_of_nodup_map distinct member inPosts (both.1.trans sameId.symm)]
  · exact numbers old member

theorem keepsPlace_filter {id : PostId} (other : post.id ≠ id)
    : keepsPlace (posts.filter (·.id != id)) post = keepsPlace posts post := by
  rw [Bool.eq_iff_iff, keepsPlace_iff, keepsPlace_iff]
  refine exists_congr fun old => ?_
  rw [List.mem_filter]
  constructor
  · rintro ⟨⟨member, _⟩, same⟩
    exact ⟨member, same⟩
  · rintro ⟨member, sameId, sameKey⟩
    exact ⟨⟨member, by simpa [sameId] using other⟩, sameId, sameKey⟩

/-- Another post that comes does not change whether a post keeps its place. -/
theorem keepsPlace_upsert (distinct : (posts.map (·.id)).Nodup) (different : second.id ≠ first.id)
    : keepsPlace (first.upsert posts) second = keepsPlace posts second := by
  rw [← keepsPlace_filter different, (upserted_upsert distinct).filter_eq,
    keepsPlace_filter different]

/-- What is left of posts without one of them is the same before and after another one came. -/
theorem filter_upsert [Lawful κ] (ascending : Ascending posts)
    (numbers : ∀ old ∈ posts, (old.key == old.key) = true) {id : PostId} (other : post.id ≠ id)
    : (post.upsert posts).filter (·.id != id) = post.upsert (posts.filter (·.id != id)) := by
  unfold upsert
  rw [keepsPlace_filter other]
  split
  · rw [List.filter_map]
    refine congrArg (List.map _) (List.filter_congr fun old _ => ?_)
    simp
  · rw [filter_insertInto (ascending.filter _)
      (fun old member => numbers old (List.mem_of_mem_filter member)) (by simpa using other),
      List.filter_comm]

/-- A post that keeps its place and one that does not come to a group in either order. -/
theorem upsert_upsert_of_keeps [Lawful κ] (distinct : (posts.map (·.id)).Nodup)
    (numbers : ∀ old ∈ posts, (old.key == old.key) = true) (different : first.id ≠ second.id)
    (stays : keepsPlace posts first = true) (moves : keepsPlace posts second = false)
    : second.upsert (first.upsert posts) = first.upsert (second.upsert posts) := by
  have movesAfter : keepsPlace (first.upsert posts) second = false :=
    (keepsPlace_upsert distinct different.symm).trans moves
  have staysAfter : keepsPlace (second.upsert posts) first = true :=
    (keepsPlace_upsert distinct different).trans stays
  have sameKeys := beq_key_renewedBy distinct numbers stays
  rw [upsert_of_moves movesAfter, upsert_of_keeps staysAfter, upsert_of_keeps stays,
    upsert_of_moves moves, List.filter_map,
    map_insertInto (renewedBy_of_ne different.symm)
      fun old member => sameKeys old (List.mem_of_mem_filter member)]
  refine congrArg (insertInto · second) (congrArg (List.map _) ?_)
  refine List.filter_congr fun old _ => ?_
  simp

/-- Different posts with different keys come to a group in either order. -/
theorem upsert_upsert [Linear κ] (distinct : (posts.map (·.id)).Nodup)
    (ascending : Ascending posts) (numbers : ∀ old ∈ posts, (old.key == old.key) = true)
    (firstNumber : (first.key == first.key) = true)
    (secondNumber : (second.key == second.key) = true) (different : first.id ≠ second.id)
    (apart : (first.key == second.key) = false)
    : second.upsert (first.upsert posts) = first.upsert (second.upsert posts) := by
  have firstAfter : keepsPlace (second.upsert posts) first = keepsPlace posts first :=
    keepsPlace_upsert distinct different
  have secondAfter : keepsPlace (first.upsert posts) second = keepsPlace posts second :=
    keepsPlace_upsert distinct different.symm
  cases firstPlace : keepsPlace posts first with
  | true =>
      cases secondPlace : keepsPlace posts second with
      | true =>
          rw [upsert_of_keeps (secondAfter.trans secondPlace),
            upsert_of_keeps (firstAfter.trans firstPlace), upsert_of_keeps firstPlace,
            upsert_of_keeps secondPlace, List.map_map, List.map_map]
          exact List.map_congr_left fun old _ => renewedBy_renewedBy different old
      | false => exact upsert_upsert_of_keeps distinct numbers different firstPlace secondPlace
  | false =>
      cases secondPlace : keepsPlace posts second with
      | true =>
          exact (upsert_upsert_of_keeps distinct numbers different.symm secondPlace firstPlace).symm
      | false =>
          -- Both go among what is left of the posts without either of them.
          have numbersLeft (gone : PostId)
              : ∀ old ∈ posts.filter (·.id != gone), (old.key == old.key) = true :=
            fun old member => numbers old (List.mem_of_mem_filter member)
          rw [upsert_of_moves (secondAfter.trans secondPlace),
            upsert_of_moves (firstAfter.trans firstPlace), upsert_of_moves firstPlace,
            upsert_of_moves secondPlace,
            filter_insertInto (ascending.filter _) (numbersLeft first.id)
              (by simpa using different),
            filter_insertInto (ascending.filter _) (numbersLeft second.id)
              (by simpa using different.symm),
            List.filter_comm]
          exact insertInto_insertInto
            (fun old member => numbersLeft second.id old (List.mem_of_mem_filter member))
            firstNumber secondNumber apart

end Post

-----------------------------------------------------------------------------------------
-- Groups that posts come to and leave
-----------------------------------------------------------------------------------------

namespace Group

variable {group left : Group κ}

omit [OrderKey κ] in
/-- A group that loses two posts, one after the other, has what neither of them takes. -/
theorem bind_without?_eq (group : Group κ) (first second : PostId)
    : (group.without? first).bind (·.without? second)
      = if ((group.others first).filter (·.id != second)).isEmpty then none
        else some { group with posts := (group.others first).filter (·.id != second) } := by
  cases bare : group.others first with
  | nil => simp [without?, bare]
  | cons head rest =>
      have occupied : ¬ (group.others first).isEmpty = true := by simp [bare]
      rw [← bare, without?, if_neg occupied]
      rfl

omit [OrderKey κ] in
/-- Two posts are taken out of a group in either order. -/
theorem bind_without?_comm (group : Group κ) (first second : PostId)
    : (group.without? first).bind (·.without? second)
      = (group.without? second).bind (·.without? first) := by
  rw [bind_without?_eq, bind_without?_eq, others, others, List.filter_comm]

omit [OrderKey κ] in
theorem eq_of_without? {gone : PostId} (rest : group.without? gone = some left)
    : left = { group with posts := group.others gone } := by
  unfold without? at rest
  split at rest
  · simp at rest
  · exact (Option.some.inj rest).symm

/-- A group that is not emptied by the loss of one post gets another one before or after it. -/
theorem without?_upsert [Lawful κ] (good : group.WellFormed)
    (distinct : (group.posts.map (·.id)).Nodup) {post : Post κ} {gone : PostId}
    (other : post.id ≠ gone) (rest : group.without? gone = some left)
    : ({ group with posts := post.upsert group.posts } : Group κ).without? gone
      = some { left with posts := post.upsert left.posts } := by
  have remaining : ({ group with posts := post.upsert group.posts } : Group κ).others gone
      = post.upsert (group.others gone) :=
    Post.filter_upsert good.ascending good.numbers other
  have occupied : ¬ (post.upsert (group.others gone)).isEmpty = true := by
    have distinctOthers : ((group.others gone).map (·.id)).Nodup :=
      distinct.sublist (List.filter_sublist.map _)
    have upserted : Post.Upserted (group.others gone) post _ := Post.upserted_upsert distinctOthers
    obtain ⟨now, member, _⟩ := upserted.exists_mem
    rw [List.isEmpty_iff]
    exact List.ne_nil_of_mem member
  rw [without?, remaining, if_neg occupied, eq_of_without? rest]

end Group

/-- Whoever stops typing on two posts does so in either order. -/
theorem Participant.stopTypingOn_comm (first second : PostId) (participant : Participant)
    : (participant.stopTypingOn first).stopTypingOn second
      = (participant.stopTypingOn second).stopTypingOn first := by
  by_cases same : first = second
  · rw [same]
  · by_cases onFirst : participant.typing = some first
    · simp [stopTypingOn, onFirst, same]
    · by_cases onSecond : participant.typing = some second
      · simp [stopTypingOn, onSecond, Ne.symm same]
      · simp [stopTypingOn, onFirst, onSecond]

namespace Store

variable {store : Store κ} {first second : Post κ}

omit [OrderKey κ] in
/-- Boards with the same groups, the same roster and the same highest z-index are the same. -/
theorem eq_of_parts {left right : Store κ} (groups : left.groups = right.groups)
    (roster : left.roster = right.roster) (maxZ : left.maxZ = right.maxZ)
    : left = right := by
  obtain ⟨⟩ := left
  obtain ⟨⟩ := right
  simp only at groups roster maxZ
  rw [groups, roster, maxZ]

/-- An update takes the only post of a group away to another one. -/
def Vacates (store : Store κ) (post : Post κ) (id : GroupId) : Prop :=
  post.group ≠ id ∧ ∃ group only, store.group? id = some group ∧ group.posts = [only]
    ∧ only.id = post.id

/-- Two updates of posts that do not interfere. They are about different posts and have groups to go
to that neither takes away from the other, and in one group they go to different places.
-/
structure Independent (store : Store κ) (first second : Post κ) : Prop where
  different : first.id ≠ second.id
  firstTarget : (store.group? first.group).isSome
  secondTarget : (store.group? second.group).isSome
  firstStays : ¬ store.Vacates first second.group
  secondStays : ¬ store.Vacates second first.group
  apart : first.group = second.group → (first.key == second.key) = false

/-- Whether two updates interfere does not depend on their order. -/
theorem Independent.symm [Lawful κ] (independent : store.Independent first second)
    : store.Independent second first where
  different := independent.different.symm
  firstTarget := independent.secondTarget
  secondTarget := independent.firstTarget
  firstStays := independent.secondStays
  secondStays := independent.firstStays
  apart together := by
    rw [Bool.eq_false_iff]
    intro same
    have differs := independent.apart together.symm
    rw [Lawful.beq_symm same] at differs
    exact Bool.noConfusion differs

/-- A post that is updated comes among the posts of its group. -/
theorem group?_postUpdated (wellFormed : store.groups.WellFormed) {post : Post κ} {target : Group κ}
    (found : store.group? post.group = some target)
    : (store.postUpdated post).store.group? post.group
      = some { target with posts := post.upsert target.posts } := by
  have table : (⟨store.groups, []⟩ : Draft κ).table.WellFormed := wellFormed
  rw [group?, groups_postUpdated]
  exact (Draft.placePost?_upsert table found).1

/-- A post that is updated leaves all groups but its own. -/
theorem group?_postUpdated_elsewhere (wellFormed : store.groups.WellFormed) {post : Post κ}
    {target : Group κ} (found : store.group? post.group = some target) {id : GroupId}
    (elsewhere : id ≠ post.group)
    : (store.postUpdated post).store.group? id
      = (store.group? id).bind (·.without? post.id) := by
  have table : (⟨store.groups, []⟩ : Draft κ).table.WellFormed := wellFormed
  rw [group?, groups_postUpdated]
  exact (Draft.placePost?_upsert table found).2 id elsewhere

/-- A group that is not vacated by an update of a post keeps its other posts. -/
theorem exists_group?_postUpdated_elsewhere (wellFormed : store.groups.WellFormed) {post : Post κ}
    {target group : Group κ} (targetFound : store.group? post.group = some target) {id : GroupId}
    (found : store.group? id = some group) (elsewhere : id ≠ post.group)
    (stays : ¬ store.Vacates post id)
    : ∃ left,
        group.without? post.id = some left
        ∧ (store.postUpdated post).store.group? id = some left := by
  have member := GroupTable.mem_toList_of_find? found
  cases gone : group.without? post.id with
  | some left =>
      refine ⟨left, rfl, ?_⟩
      rw [group?_postUpdated_elsewhere wellFormed targetFound elsewhere, found, Option.bind_some,
        gone]
  | none =>
      obtain ⟨only, posts, sameId⟩ := Group.exists_posts_eq_of_without?
        (wellFormed.groups group member).occupied (wellFormed.distinct member) gone
      exact absurd ⟨elsewhere.symm, group, only, found, posts, sameId⟩ stays

/-- The group that the second post goes to is there after the first post is updated. -/
theorem exists_group?_postUpdated (wellFormed : store.groups.WellFormed)
    (independent : store.Independent first second)
    : ∃ group, (store.postUpdated first).store.group? second.group = some group := by
  obtain ⟨_, firstFound⟩ := Option.isSome_iff_exists.mp independent.firstTarget
  obtain ⟨group, found⟩ := Option.isSome_iff_exists.mp independent.secondTarget
  by_cases together : second.group = first.group
  · exact ⟨_, together ▸ group?_postUpdated wellFormed firstFound⟩
  · obtain ⟨left, _, there⟩ := exists_group?_postUpdated_elsewhere wellFormed firstFound found
      together independent.firstStays
    exact ⟨left, there⟩

/-- In the group that only the second post goes to, it comes among the posts that the first one
leaves there.
-/
theorem group?_postUpdated_postUpdated [Lawful κ] (wellFormed : store.groups.WellFormed)
    (firstNumber : (first.key == first.key) = true) (independent : store.Independent first second)
    (elsewhere : second.group ≠ first.group) {group : Group κ}
    (found : store.group? second.group = some group)
    : ((store.postUpdated first).store.postUpdated second).store.group? second.group
      = ({ group with posts := second.upsert group.posts } : Group κ).without? first.id := by
  obtain ⟨_, firstFound⟩ := Option.isSome_iff_exists.mp independent.firstTarget
  obtain ⟨left, rest, between⟩ := exists_group?_postUpdated_elsewhere wellFormed firstFound found
    elsewhere independent.firstStays
  have member := GroupTable.mem_toList_of_find? found
  rw [group?_postUpdated (table_postUpdated wellFormed firstNumber) between,
    Group.without?_upsert (wellFormed.groups group member) (wellFormed.distinct member)
      independent.different.symm rest]

/-- In the group that only the second post goes to, either may be updated first. -/
theorem group?_postUpdated_comm [Lawful κ] (wellFormed : store.groups.WellFormed)
    (firstNumber : (first.key == first.key) = true)
    (secondNumber : (second.key == second.key) = true)
    (independent : store.Independent first second) (elsewhere : second.group ≠ first.group)
    : ((store.postUpdated first).store.postUpdated second).store.group? second.group
      = ((store.postUpdated second).store.postUpdated first).store.group? second.group := by
  obtain ⟨group, found⟩ := Option.isSome_iff_exists.mp independent.secondTarget
  obtain ⟨_, firstStill⟩ := exists_group?_postUpdated wellFormed independent.symm
  rw [group?_postUpdated_postUpdated wellFormed firstNumber independent elsewhere found,
    group?_postUpdated_elsewhere (table_postUpdated wellFormed secondNumber) firstStill elsewhere,
    group?_postUpdated wellFormed found, Option.bind_some]

/-- In the group that both posts go to, it does not matter which one is updated first. -/
theorem group?_postUpdated_comm_of_eq [Linear κ] (wellFormed : store.groups.WellFormed)
    (firstNumber : (first.key == first.key) = true)
    (secondNumber : (second.key == second.key) = true)
    (independent : store.Independent first second) (together : first.group = second.group)
    : ((store.postUpdated first).store.postUpdated second).store.group? second.group
      = ((store.postUpdated second).store.postUpdated first).store.group? second.group := by
  obtain ⟨group, found⟩ := Option.isSome_iff_exists.mp independent.secondTarget
  have member := GroupTable.mem_toList_of_find? found
  have good := wellFormed.groups group member
  have firstArrived := group?_postUpdated wellFormed (together ▸ found)
  rw [together] at firstArrived
  have secondAfter := group?_postUpdated (table_postUpdated wellFormed firstNumber) firstArrived
  have secondArrived := group?_postUpdated wellFormed found
  rw [← together] at secondArrived
  have firstAfter := group?_postUpdated (table_postUpdated wellFormed secondNumber) secondArrived
  rw [together] at firstAfter
  rw [secondAfter, firstAfter]
  simp only
  rw [Post.upsert_upsert (wellFormed.distinct member) good.ascending good.numbers firstNumber
    secondNumber independent.different (independent.apart together)]

/-- A group that neither post goes to loses both. -/
theorem group?_postUpdated_of_ne [Lawful κ] (wellFormed : store.groups.WellFormed)
    (firstNumber : (first.key == first.key) = true) (independent : store.Independent first second)
    {id : GroupId} (notFirst : id ≠ first.group) (notSecond : id ≠ second.group)
    : ((store.postUpdated first).store.postUpdated second).store.group? id
      = (store.group? id).bind fun group =>
          (group.without? first.id).bind (·.without? second.id) := by
  obtain ⟨_, firstFound⟩ := Option.isSome_iff_exists.mp independent.firstTarget
  obtain ⟨_, still⟩ := exists_group?_postUpdated wellFormed independent
  rw [group?_postUpdated_elsewhere (table_postUpdated wellFormed firstNumber) still notSecond,
    group?_postUpdated_elsewhere wellFormed firstFound notFirst, Option.bind_assoc]

/-- The groups are the same whichever of two posts is updated first. -/
theorem groups_postUpdated_comm [Linear κ] (wellFormed : store.groups.WellFormed)
    (firstNumber : (first.key == first.key) = true)
    (secondNumber : (second.key == second.key) = true)
    (independent : store.Independent first second)
    : ((store.postUpdated first).store.postUpdated second).store.groups
      = ((store.postUpdated second).store.postUpdated first).store.groups := by
  refine GroupTable.ext_find? fun id => ?_
  change Store.group? _ id = Store.group? _ id
  by_cases toSecond : id = second.group
  · subst toSecond
    by_cases together : first.group = second.group
    · exact group?_postUpdated_comm_of_eq wellFormed firstNumber secondNumber independent together
    · exact group?_postUpdated_comm wellFormed firstNumber secondNumber independent
        (Ne.symm together)
  · by_cases toFirst : id = first.group
    · subst toFirst
      exact (group?_postUpdated_comm wellFormed secondNumber firstNumber independent.symm
        toSecond).symm
    · rw [group?_postUpdated_of_ne wellFormed firstNumber independent toFirst toSecond,
        group?_postUpdated_of_ne wellFormed secondNumber independent.symm toSecond toFirst]
      exact Option.bind_congr fun group _ => group.bind_without?_comm first.id second.id

/-- Posts that do not interfere are updated in either order. -/
theorem postUpdated_postUpdated [Linear κ] (wellFormed : store.WellFormed)
    (firstNumber : (first.key == first.key) = true)
    (secondNumber : (second.key == second.key) = true)
    (independent : store.Independent first second)
    : ((store.postUpdated first).store.postUpdated second).store
      = ((store.postUpdated second).store.postUpdated first).store := by
  refine eq_of_parts
    (groups_postUpdated_comm wellFormed.table firstNumber secondNumber independent) ?_ ?_
  · simp only [postUpdated, Update.andThen_store, roster_typingStopped, roster_edit, List.map_map]
    exact List.map_congr_left fun participant _ => participant.stopTypingOn_comm _ _
  · rw [maxZ_postUpdated (wellFormed.postUpdated firstNumber),
      maxZ_postUpdated (wellFormed.postUpdated secondNumber), maxZ_postUpdated wellFormed,
      maxZ_postUpdated wellFormed]

end Store

-----------------------------------------------------------------------------------------
-- Changes of groups
-----------------------------------------------------------------------------------------

/-- The highest of three heights is not above the highest in another order. -/
theorem Store.max_max_le (start left right : Int32)
    : max (max start left) right ≤ max (max start right) left := by
  have below : max start right ≤ max (max start right) left := left_le_max (max start right) left
  have last : left ≤ max (max start right) left := right_le_max (max start right) left
  have fromStart : start ≤ max (max start right) left :=
    Int32.le_trans (left_le_max start right) below
  have fromRight : right ≤ max (max start right) left :=
    Int32.le_trans (right_le_max start right) below
  exact max_le (max_le fromStart last) fromRight

namespace GroupPatch

variable {first second patch : GroupPatch}

/-- No field is set by both of two changes. -/
structure Disjoint (first second : GroupPatch) : Prop where
  title : first.title = none ∨ second.title = none
  x : first.x = none ∨ second.x = none
  y : first.y = none ∨ second.y = none
  z : first.z = none ∨ second.z = none
  updatedAt : first.updatedAt = none ∨ second.updatedAt = none

/-- A field that at most one change sets has its value, or the old one. -/
theorem getD_getD_comm {α : Type} {first second : Option α}
    (disjoint : first = none ∨ second = none) (old : α)
    : second.getD (first.getD old) = first.getD (second.getD old) := by
  rcases disjoint with rfl | rfl
  · rfl
  · rfl

omit [OrderKey κ] in
/-- Changes of different fields are made in either order. -/
theorem applyTo_applyTo (disjoint : first.Disjoint second) (group : Group κ)
    : second.applyTo (first.applyTo group) = first.applyTo (second.applyTo group) := by
  simp only [applyTo, getD_getD_comm disjoint.title, getD_getD_comm disjoint.x,
    getD_getD_comm disjoint.y, getD_getD_comm disjoint.z, getD_getD_comm disjoint.updatedAt]

/-- A group that equals its changed version is that version, since the posts are the same anyway. -/
theorem applyTo_eq_of_beq {group : Group κ} (same : (patch.applyTo group == group) = true)
    : patch.applyTo group = group := by
  simp only [BEq.beq, instBEqGroup.beq, Bool.and_eq_true, decide_eq_true_eq] at same
  obtain ⟨_, _, title, x, y, z, _, _, updatedAt⟩ := same
  obtain ⟨id, board, _, _, _, _, posts, createdAt, _⟩ := group
  simp only [applyTo, Group.mk.injEq] at title x y z updatedAt ⊢
  exact ⟨trivial, trivial, title, x, y, z, trivial, trivial, updatedAt⟩

/-- A height that is raised to a z-index that a change sets. -/
def raise (patch : GroupPatch) (height : Int32) : Int32 :=
  match patch.z with
  | none => height
  | some z => max height z

theorem raise_of_none (unset : patch.z = none) (height : Int32) : patch.raise height = height := by
  rw [raise, unset]

theorem raise_of_some {z : Int32} (sets : patch.z = some z) (height : Int32)
    : patch.raise height = max height z := by
  rw [raise, sets]

theorem le_raise (patch : GroupPatch) (height : Int32) : height ≤ patch.raise height := by
  cases sets : patch.z with
  | none =>
      rw [raise_of_none sets]
      exact Int32.le_refl height
  | some z =>
      rw [raise_of_some sets]
      exact Store.left_le_max height z

omit [OrderKey κ] in
/-- A group that is not above a height is not above the raised one after its change. -/
theorem z_applyTo_le_raise {group : Group κ} {height : Int32} (bounded : group.z ≤ height)
    : (patch.applyTo group).z ≤ patch.raise height := by
  cases sets : patch.z with
  | none =>
      rw [raise_of_none sets, applyTo, sets]
      exact bounded
  | some z =>
      rw [raise_of_some sets, applyTo, sets]
      exact Store.right_le_max height z

omit [OrderKey κ] in
theorem raise_le {group : Group κ} {height bound : Int32} (low : height ≤ bound)
    (bounded : (patch.applyTo group).z ≤ bound)
    : patch.raise height ≤ bound := by
  cases sets : patch.z with
  | none => rwa [raise_of_none sets]
  | some z =>
      rw [applyTo, sets] at bounded
      rw [raise_of_some sets]
      exact Store.max_le low bounded

/-- A height is raised by two changes in either order. -/
theorem raise_raise (first second : GroupPatch) (height : Int32)
    : second.raise (first.raise height) = first.raise (second.raise height) := by
  cases firstSets : first.z with
  | none => rw [raise_of_none firstSets, raise_of_none firstSets]
  | some firstZ =>
      cases secondSets : second.z with
      | none => rw [raise_of_none secondSets, raise_of_none secondSets]
      | some secondZ =>
          rw [raise_of_some firstSets, raise_of_some firstSets, raise_of_some secondSets,
            raise_of_some secondSets]
          exact Int32.le_antisymm (Store.max_max_le height firstZ secondZ)
            (Store.max_max_le height secondZ firstZ)

end GroupPatch

namespace Store

variable {store : Store κ} {first second : GroupPatch}

/-- A change of a group changes the fields of that group. -/
theorem group?_groupPatched_eq (store : Store κ) (patch : GroupPatch) (id : GroupId)
    : (store.groupPatched patch).store.group? id
      = if patch.id = id then (store.group? id).map patch.applyTo else store.group? id := by
  split
  · next own =>
      subst own
      cases found : store.group? patch.id with
      | none =>
          rw [groupPatched_of_absent found]
          exact found
      | some group =>
          obtain ⟨after, atPatch, rfl | ⟨same, rfl⟩⟩ := group?_groupPatched found
          · exact atPatch
          · rw [atPatch, Option.map_some, GroupPatch.applyTo_eq_of_beq same]
  · next other => exact group?_groupPatched_of_ne other

/-- A change of a group that is on the board raises the highest z-index to the one that it sets. -/
theorem maxZ_groupPatched (wellFormed : store.WellFormed) (patch : GroupPatch)
    : (store.groupPatched patch).store.maxZ
      = if (store.group? patch.id).isSome then patch.raise store.maxZ else store.maxZ := by
  cases found : store.group? patch.id with
  | none =>
      rw [groupPatched_of_absent found]
      rfl
  | some group =>
      have member := GroupTable.mem_toList_of_find? found
      have bounded := wellFormed.bounded group member
      rw [Option.isSome_some, if_pos rfl]
      by_cases same : (patch.applyTo group == group) = true
      · rw [groupPatched_of_beq found same]
        refine Int32.le_antisymm (patch.le_raise store.maxZ) ?_
        have unchanged : (patch.applyTo group).z ≤ store.maxZ := by
          rwa [GroupPatch.applyTo_eq_of_beq same]
        exact GroupPatch.raise_le (Int32.le_refl _) unchanged
      · simp only [groupPatched, found, if_neg same, edit, Draft.put]
        refine Int32.le_antisymm (Group.highest_le (patch.le_raise store.maxZ) ?_) ?_
        · intro other inTable
          rcases GroupTable.mem_toList_insert.mp inTable with rfl | ⟨old, _⟩
          · exact GroupPatch.z_applyTo_le_raise bounded
          · exact Int32.le_trans (wellFormed.bounded other old) (patch.le_raise store.maxZ)
        · obtain ⟨fromStart, fromGroups⟩ := Group.le_highest
            (store.groups.insert (patch.applyTo group)).toList store.maxZ
          exact GroupPatch.raise_le fromStart
            (fromGroups _ (GroupTable.mem_toList_insert.mpr (.inl rfl)))

/-- A change of a group leaves the same groups on the board. -/
theorem isSome_group?_groupPatched (store : Store κ) (patch : GroupPatch) (id : GroupId)
    : ((store.groupPatched patch).store.group? id).isSome = (store.group? id).isSome := by
  rw [group?_groupPatched_eq]
  split
  · exact Option.isSome_map
  · rfl

/-- Changes of different groups, or of different fields of one, are made in either order. -/
theorem groupPatched_groupPatched (wellFormed : store.WellFormed)
    (apart : first.id ≠ second.id ∨ first.Disjoint second)
    : ((store.groupPatched first).store.groupPatched second).store
      = ((store.groupPatched second).store.groupPatched first).store := by
  refine eq_of_parts (GroupTable.ext_find? fun id => ?_) ?_ ?_
  · change Store.group? _ id = Store.group? _ id
    simp only [group?_groupPatched_eq]
    by_cases ofFirst : first.id = id
    · by_cases ofSecond : second.id = id
      · have disjoint := apart.resolve_left fun other => other (ofFirst.trans ofSecond.symm)
        simp only [ofFirst, ofSecond, if_true, Option.map_map]
        exact Option.map_congr fun group _ => GroupPatch.applyTo_applyTo disjoint group
      · simp only [ofFirst, ofSecond, if_true, if_false]
    · simp only [ofFirst, if_false]
  · simp only [roster_groupPatched]
  · rw [maxZ_groupPatched (wellFormed.groupPatched first),
      maxZ_groupPatched (wellFormed.groupPatched second), maxZ_groupPatched wellFormed,
      maxZ_groupPatched wellFormed, isSome_group?_groupPatched, isSome_group?_groupPatched]
    split
    · split
      · exact GroupPatch.raise_raise first second store.maxZ
      · rfl
    · rfl

variable [Linear κ]

/-- Updates that do not interfere lead a board in good order to the same board, whichever comes
first: updates of different posts whose groups are on the board and stay there, and that do not go
to the same place, and changes of different groups or of different fields of one.
-/
theorem reduce_reduce_of_independent (wellFormed : store.WellFormed) (localUser : Option UserId)
    : (∀ (first second : Post κ) (firstOld secondOld : Option (Post κ)),
        (first.key == first.key) = true
        → (second.key == second.key) = true
        → store.Independent first second
        → ((store.reduce localUser (.postUpdated first firstOld)).store.reduce localUser
            (.postUpdated second secondOld)).store
          = ((store.reduce localUser (.postUpdated second secondOld)).store.reduce localUser
            (.postUpdated first firstOld)).store)
      ∧ ∀ first second : GroupPatch,
          first.id ≠ second.id ∨ first.Disjoint second
          → ((store.reduce localUser (.groupUpdated first)).store.reduce localUser
              (.groupUpdated second)).store
            = ((store.reduce localUser (.groupUpdated second)).store.reduce localUser
              (.groupUpdated first)).store :=
  ⟨fun _ _ _ _ firstNumber secondNumber independent =>
      postUpdated_postUpdated wellFormed firstNumber secondNumber independent,
    fun _ _ apart => groupPatched_groupPatched wellFormed apart⟩

/-- A post comes to the group of another one, which goes behind it; a group is renamed and moved. -/
theorem reduce_reduce_of_independent_pair
    : let before := ofGroups Sample.pair
      let arrival := Sample.post 11 20 0.5
      let departure := Sample.post 21 20 5.0
      let renamed : GroupPatch := { GroupPatch.nothing (.ofNat 10) with title := some "Plan" }
      let raised : GroupPatch := { GroupPatch.nothing (.ofNat 10) with z := some 9 }
      ((before.postUpdated arrival).store.postUpdated departure).store
        = ((before.postUpdated departure).store.postUpdated arrival).store
      ∧ (((before.postUpdated arrival).store.postUpdated departure).store.group? (.ofNat 20)).map
          (·.posts.map (·.id)) = some [.ofNat 11, .ofNat 21]
      ∧ ((before.groupPatched renamed).store.groupPatched raised).store
        = ((before.groupPatched raised).store.groupPatched renamed).store
      ∧ ((before.groupPatched renamed).store.groupPatched raised).store.maxZ = 9 := by
  intro before arrival departure renamed raised
  have wellFormed : before.WellFormed :=
    Describable.wellFormed ⟨by decide, by decide, by decide⟩ (by decide)
  obtain ⟨posts, patches⟩ := reduce_reduce_of_independent wellFormed none
  have target : before.group? (.ofNat 20) = some (Sample.group 20 2 [Sample.post 21 20 1.0]) := by
    simp only [before, Sample.ofGroups_pair]
    rfl
  have there : (before.group? (.ofNat 20)).isSome := by rw [target, Option.isSome_some]
  have independent : before.Independent arrival departure := by
    refine ⟨by decide, there, there, ?_, ?_, fun _ => by decide +kernel⟩
    · exact fun vacates => vacates.1 rfl
    · exact fun vacates => vacates.1 rfl
  refine ⟨posts arrival departure none none (by decide) (by decide) independent, ?_,
    patches renamed raised (.inr ⟨.inr rfl, .inl rfl, .inl rfl, .inl rfl, .inl rfl⟩), ?_⟩
  · simp only [before, Sample.ofGroups_pair]
    decide +kernel
  · simp only [before, Sample.ofGroups_pair]
    decide +kernel

end Store

end SharedBoard
