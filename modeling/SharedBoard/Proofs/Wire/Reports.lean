import SharedBoard.Proofs.Wire.Frames
import SharedBoard.Proofs.Wire.Outcomes

/-! Every event has a frame that describes it. A written record says what it says, its text holds
it, and it is flat enough to be kept until its kind is known.
-/

namespace SharedBoard

open Json (FaithfulText ReadableMembers ReadsBack)

namespace Shape

-----------------------------------------------------------------------------------------
-- Written records
-----------------------------------------------------------------------------------------

/-- A field that is given agrees with itself if its value says what it says. -/
theorem agree_self {presence : Presence} {same : Json → Json → Prop} {field : Option Json}
    {value : Json} (given : field = some value) (reflexive : same value value)
    : Agree presence same field field :=
  .inr ⟨value, value, given, given, reflexive⟩

/-- A field that is a null or a value agrees with itself. -/
theorem agree_ofOption {α : Type} {same : Json → Json → Prop} {write : α → Json} {value : Option α}
    {field : Option Json} (given : field = some (.ofOption write value))
    (reflexive : ∀ inside ∈ value, same (write inside) (write inside))
    : Agree .maybe same field field := by
  subst given
  cases value with
  | none => exact .inl ⟨rfl, .inr rfl, .inr rfl⟩
  | some value => exact agree_self rfl (reflexive value rfl)

/-- A field that is absent or a value agrees with itself. -/
theorem agree_map {α : Type} {same : Json → Json → Prop} {write : α → Json} {value : Option α}
    {field : Option Json} (given : field = value.map write)
    (reflexive : ∀ inside ∈ value, same (write inside) (write inside))
    : Agree .maybe same field field := by
  subst given
  cases value with
  | none => exact .inl ⟨rfl, .inl rfl, .inl rfl⟩
  | some value => exact agree_self rfl (reflexive value rfl)

/-- A written list says what it says if its elements do. -/
theorem extends_ofList {α : Type} {shape : Shape} {write : α → Json} {values : List α}
    (reflexive : ∀ value ∈ values, shape.Extends (write value) (write value))
    : (Shape.list shape).Extends (.ofList write values) (.ofList write values) := by
  refine ⟨_, _, rfl, rfl, List.forall₂_same.mpr fun element found => ?_⟩
  obtain ⟨value, inside, rfl⟩ := List.mem_map.mp found
  exact reflexive value inside

/-- A written record says what it says if its names are known, in order, and its fields do. -/
theorem extends_obj {fields : List (String × Presence × Shape)} {members : List (String × Json)}
    (ordered : (members.map (·.1)).Sublist (names fields)) (distinct : (names fields).Nodup)
    (agree : FieldsExtend fields members members)
    : (Shape.record fields).Extends (.obj members) (.obj members) :=
  ⟨members, members, rfl, rfl,
    ((List.filter_sublist.map _).trans ordered).nodup distinct, agree⟩

end Shape

open Shape (agree_self agree_ofOption agree_map extends_ofList extends_obj)

-----------------------------------------------------------------------------------------
-- Saying
-----------------------------------------------------------------------------------------

/-- A written user says what it says. -/
theorem User.extends_toJson (user : User) : User.shape.Extends user.toJson user.toJson :=
  extends_obj (List.Sublist.refl _) (by decide) ⟨agree_self rfl ⟨rfl, rfl⟩,
    agree_self rfl ⟨rfl, rfl⟩, @agree_ofOption _ _ .str user.email _ rfl fun _ _ => ⟨rfl, rfl⟩,
    agree_self rfl ⟨rfl, rfl⟩, agree_self rfl ⟨rfl, rfl⟩,
    @agree_ofOption _ _ .ofInstant user.createdAt _ rfl fun _ _ => ⟨rfl, rfl⟩,
    @agree_ofOption _ _ .ofInstant user.updatedAt _ rfl fun _ _ => ⟨rfl, rfl⟩, trivial⟩

/-- A written post says what it says if its key is a finite number. -/
theorem Post.extends_toJson {post : Post Float} (finite : post.key.isFinite = true)
    : Post.shape.Extends (post.toJson Json.ofFloat) (post.toJson Json.ofFloat) := by
  have key := Json.float?_ofFloat finite
  exact extends_obj (List.Sublist.refl _) (by decide) ⟨agree_self rfl ⟨rfl, rfl⟩,
    agree_self rfl ⟨rfl, rfl⟩, agree_self rfl ⟨rfl, rfl⟩, agree_self rfl ⟨rfl, rfl⟩,
    agree_self rfl ⟨rfl, rfl⟩, agree_self rfl ⟨rfl, rfl⟩, agree_self rfl ⟨rfl, rfl⟩,
    agree_self rfl ⟨post.key, key, key⟩, agree_self rfl ⟨rfl, rfl⟩, agree_self rfl ⟨rfl, rfl⟩,
    trivial⟩

/-- A written group says what it says if the keys of its posts are finite numbers. -/
theorem Group.extends_toJson {group : Group Float}
    (finite : ∀ post ∈ group.posts, post.key.isFinite = true)
    : Group.shape.Extends (group.toJson Json.ofFloat) (group.toJson Json.ofFloat) := by
  have posts := extends_ofList fun post found => Post.extends_toJson (finite post found)
  exact extends_obj (List.Sublist.refl _) (by decide) ⟨agree_self rfl ⟨rfl, rfl⟩,
    agree_self rfl ⟨rfl, rfl⟩, agree_self rfl ⟨rfl, rfl⟩, agree_self rfl ⟨rfl, rfl⟩,
    agree_self rfl ⟨rfl, rfl⟩, agree_self rfl ⟨rfl, rfl⟩, agree_self rfl posts,
    agree_self rfl ⟨rfl, rfl⟩, agree_self rfl ⟨rfl, rfl⟩, trivial⟩

/-- A written change of a group says what it says. -/
theorem GroupPatch.extends_toJson (patch : GroupPatch)
    : (Shape.record GroupPatch.shapeFields).Extends patch.toJson patch.toJson := by
  obtain ⟨title, x, y, z, updatedAt⟩ := patch.lookup_members
  exact extends_obj patch.names_members (by decide) ⟨agree_self rfl ⟨rfl, rfl⟩,
    agree_map title fun _ _ => ⟨rfl, rfl⟩, agree_map x fun _ _ => ⟨rfl, rfl⟩,
    agree_map y fun _ _ => ⟨rfl, rfl⟩, agree_map z fun _ _ => ⟨rfl, rfl⟩,
    agree_map updatedAt fun _ _ => ⟨rfl, rfl⟩, trivial⟩

/-- The result of an event is known by distinct names, by cases on the kind. -/
theorem EventKind.nodup_resultFields (kind : EventKind)
    : (Shape.names kind.resultFields).Nodup := by
  cases kind <;> decide

/-- The result that reports an event says what it says, by cases on the event. -/
theorem Event.extends_reported {event : Event Float}
    (finite : ∀ post ∈ event.carried, post.key.isFinite = true) (board : Option BoardId)
    : (Shape.record event.kind.resultFields).Extends (.obj (event.reported board))
        (.obj (event.reported board)) := by
  have distinct := event.kind.nodup_resultFields
  cases event with
  | authenticated user =>
      exact extends_obj (List.Sublist.refl _) distinct
        ⟨agree_self rfl user.extends_toJson, trivial⟩
  | boardConnected connected newUser =>
      have users := extends_ofList fun user (_ : user ∈ connected) => user.extends_toJson
      have given : (Event.reported (.boardConnected connected newUser) board).lookup "board_id"
          = board.map .ofUuid := by
        cases board <;> rfl
      have ordered : ((Event.reported (.boardConnected connected newUser) board).map (·.1)).Sublist
          ["board_id", "connected_users", "new_user"] := by
        cases board with
        | none => exact (List.Sublist.refl _).cons _
        | some board => exact List.Sublist.refl _
      refine extends_obj ordered distinct ⟨agree_map given fun _ _ => ⟨rfl, rfl⟩, ?_, ?_, trivial⟩
      · cases board <;> exact agree_self rfl users
      · cases board <;> exact agree_self rfl newUser.extends_toJson
  | boardDisconnected user =>
      exact extends_obj (List.Sublist.refl _) distinct ⟨agree_self rfl ⟨rfl, rfl⟩, trivial⟩
  | postCreated post group | postDetached post group =>
      obtain ⟨atPost, atGroup⟩ := List.forall_mem_cons.mp finite
      exact extends_obj (List.Sublist.refl _) distinct
        ⟨agree_self rfl (Post.extends_toJson atPost), agree_self rfl (Group.extends_toJson atGroup),
          trivial⟩
  | postUpdated post old =>
      obtain ⟨atPost, atOld⟩ := List.forall_mem_cons.mp finite
      exact extends_obj (List.Sublist.refl _) distinct
        ⟨agree_self rfl (Post.extends_toJson atPost),
          @agree_ofOption _ _ (Post.toJson Json.ofFloat) old _ rfl fun inside found =>
            Post.extends_toJson (atOld inside (Option.mem_toList.mpr found)), trivial⟩
  | postDeleted post =>
      exact extends_obj (List.Sublist.refl _) distinct
        ⟨agree_self rfl (Post.extends_toJson (finite post (List.mem_singleton_self _))), trivial⟩
  | postFocused post user =>
      exact extends_obj (List.Sublist.refl _) distinct
        ⟨agree_self rfl (Post.extends_toJson (finite post (List.mem_singleton_self _))),
          agree_self rfl user.extends_toJson, trivial⟩
  | groupUpdated patch => exact patch.extends_toJson
  | groupDeleted group =>
      exact extends_obj (List.Sublist.refl _) distinct ⟨agree_self rfl ⟨rfl, rfl⟩, trivial⟩

/-- The envelope that reports an event says what it says. -/
theorem Event.extends_report {event : Event Float}
    (finite : ∀ post ∈ event.carried, post.key.isFinite = true) (board : Option BoardId)
    (message : Option String) (request : Option RequestId)
    : (Shape.record event.kind.envelopeFields).Extends (event.report board message request).toJson
        (event.report board message request).toJson :=
  extends_obj (List.Sublist.refl ["event", "success", "result", "error_message", "request_id"])
    (show List.Nodup ["event", "success", "result", "error_message", "request_id"] by decide)
    ⟨agree_self rfl ⟨rfl, rfl⟩, agree_self rfl ⟨rfl, rfl⟩,
      agree_self rfl (extends_reported finite board),
      @agree_ofOption _ _ .str message _ rfl fun _ _ => ⟨rfl, rfl⟩,
      @agree_ofOption _ _ .ofUuid request _ rfl fun _ _ => ⟨rfl, rfl⟩, trivial⟩

-----------------------------------------------------------------------------------------
-- Keys
-----------------------------------------------------------------------------------------

/-- A post as it is read from its text: its key is what the text of the key is read as. -/
def Post.asRead (post : Post Float) : Post Float :=
  { post with key := Json.floatAsRead post.key }

/-- A group with its posts as they are read. -/
def Group.asRead (group : Group Float) : Group Float :=
  { group with posts := group.posts.map Post.asRead }

/-- An event with all posts that it brings along as they are read. -/
def Event.asRead : Event Float → Event Float
  | .postCreated post group => .postCreated post.asRead group.asRead
  | .postUpdated post old => .postUpdated post.asRead (old.map Post.asRead)
  | .postDeleted post => .postDeleted post.asRead
  | .postDetached post group => .postDetached post.asRead group.asRead
  | .postFocused post user => .postFocused post.asRead user
  | event => event

/-- A post is read as itself exactly if the text of its key is faithful. -/
theorem Post.asRead_eq_iff (post : Post Float) : post.asRead = post ↔ FaithfulText post.key := by
  have key : post.asRead = post ↔ Json.floatAsRead post.key = post.key := by
    refine ⟨fun same => congrArg Post.key same, fun same => ?_⟩
    rw [asRead, same]
  rw [key]
  by_cases finite : post.key.isFinite = true
  · rw [FaithfulText, Json.readsBack_iff finite]
    exact ⟨fun same _ => same, fun faithful => faithful finite⟩
  · exact ⟨fun _ given => absurd given finite, fun _ => Json.floatAsRead_of_not_isFinite finite⟩

/-- Posts are read as themselves exactly if each of them is, by induction on the posts. -/
theorem Post.map_asRead_eq_iff (posts : List (Post Float))
    : posts.map asRead = posts ↔ ∀ post ∈ posts, FaithfulText post.key := by
  induction posts with
  | nil => simp
  | cons post rest ih =>
      rw [List.map_cons, List.cons.injEq, ih, post.asRead_eq_iff, List.forall_mem_cons]

theorem Group.asRead_eq_iff (group : Group Float)
    : group.asRead = group ↔ ∀ post ∈ group.posts, FaithfulText post.key := by
  rw [← Post.map_asRead_eq_iff]
  refine ⟨fun same => congrArg Group.posts same, fun same => ?_⟩
  rw [asRead, same]

@[simp] theorem Event.kind_asRead (event : Event Float) : event.asRead.kind = event.kind := by
  cases event <;> rfl

/-- What an event as it is read brings along, by cases on the event. -/
theorem Event.carried_asRead (event : Event Float)
    : event.asRead.carried = event.carried.map Post.asRead := by
  cases event with
  | postUpdated post old => cases old <;> rfl
  | _ => rfl

/-- An event is read as itself exactly if the texts of its keys are faithful, case by case. -/
theorem Event.asRead_eq_iff (event : Event Float)
    : event.asRead = event ↔ ∀ post ∈ event.carried, FaithfulText post.key := by
  cases event with
  | postCreated post group | postDetached post group =>
      simp [asRead, carried, post.asRead_eq_iff, group.asRead_eq_iff]
  | postUpdated post old =>
      cases old <;> simp [asRead, carried, Post.asRead_eq_iff]
  | postDeleted post => simp [asRead, carried, post.asRead_eq_iff]
  | postFocused post user => simp [asRead, carried, post.asRead_eq_iff]
  | _ => simp [asRead, carried]

/-- The keys of an event are finite as they are read, too. -/
theorem Event.isFinite_asRead {event : Event Float}
    (finite : ∀ post ∈ event.carried, post.key.isFinite = true)
    : ∀ post ∈ event.asRead.carried, post.key.isFinite = true := by
  rw [carried_asRead, List.forall_mem_map]
  intro post found
  obtain ⟨_, _, _, read⟩ := Json.exists_floatAsRead (finite post found)
  exact read

-----------------------------------------------------------------------------------------
-- Texts
-----------------------------------------------------------------------------------------

/-- Members without doubles are read as themselves. -/
theorem Json.membersAsRead_eq {members : List (String × Json)}
    (readable : ReadableMembers ReadsBack members)
    : membersAsRead members = members := by
  have same := (Json.Readable.obj readable).asRead_eq
  rw [asRead] at same
  exact Json.obj.inj same

theorem User.asRead_toJson (user : User) : user.toJson.asRead = user.toJson :=
  (Json.Readable.obj user.readable_members).asRead_eq

theorem Post.asRead_toJson (post : Post Float)
    : (post.toJson Json.ofFloat).asRead = post.asRead.toJson Json.ofFloat := by
  simp only [toJson, Json.asRead, Json.membersAsRead, Json.asRead_ofFloat]
  rfl

/-- A list of posts is read post by post. -/
theorem Group.asRead_toJson (group : Group Float)
    : (group.toJson Json.ofFloat).asRead = group.asRead.toJson Json.ofFloat := by
  have posts : (Json.ofList (Post.toJson Json.ofFloat) group.posts).asRead
      = .ofList (Post.toJson Json.ofFloat) (group.posts.map Post.asRead) := by
    rw [Json.ofList, Json.asRead, Json.allAsRead_eq_map, Json.ofList, List.map_map, List.map_map]
    exact congrArg Json.arr (List.map_congr_left fun post _ => post.asRead_toJson)
  simp only [toJson, Json.asRead, Json.membersAsRead, posts]
  rfl

/-- The result that reports an event is read as the result that reports the event as it is read. -/
theorem Event.asRead_reported (event : Event Float) (board : Option BoardId)
    : Json.membersAsRead (event.reported board) = event.asRead.reported board := by
  cases event with
  | authenticated user =>
      simp [reported, resultMembers, asRead, Json.membersAsRead, user.asRead_toJson]
  | boardConnected connected newUser =>
      have users : (Json.ofList User.toJson connected).Readable ReadsBack :=
        Json.readable_ofList fun user _ => .obj user.readable_members
      have joined : newUser.toJson.Readable ReadsBack := .obj newUser.readable_members
      refine Json.membersAsRead_eq ?_
      simp [reported, resultMembers, users, joined, Json.readableMembers_memberIfAny]
  | boardDisconnected user => rfl
  | postCreated post group | postDetached post group =>
      simp [reported, resultMembers, asRead, Json.membersAsRead, post.asRead_toJson,
        group.asRead_toJson]
  | postUpdated post old =>
      have before : (Json.ofOption (Post.toJson Json.ofFloat) old).asRead
          = .ofOption (Post.toJson Json.ofFloat) (old.map Post.asRead) := by
        cases old with
        | none => rfl
        | some old => exact old.asRead_toJson
      simp [reported, resultMembers, asRead, Json.membersAsRead, post.asRead_toJson, before]
  | postDeleted post =>
      simp [reported, resultMembers, asRead, Json.membersAsRead, post.asRead_toJson]
  | postFocused post user =>
      simp [reported, resultMembers, asRead, Json.membersAsRead, post.asRead_toJson,
        user.asRead_toJson]
  | groupUpdated patch => exact Json.membersAsRead_eq patch.readable_members
  | groupDeleted group => rfl

/-- The envelope that reports an event is read as the one that reports the event as it is read. -/
theorem Event.asRead_report (event : Event Float) (board : Option BoardId)
    (message : Option String) (request : Option RequestId)
    : (event.report board message request).toJson.asRead
      = (event.asRead.report board message request).toJson := by
  have errorMessage : (Json.ofOption .str message).asRead = .ofOption .str message := by
    cases message <;> rfl
  have answer : (Json.ofOption .ofUuid request).asRead = .ofOption .ofUuid request := by
    cases request <;> rfl
  have result : (Json.ofOption id (some (.obj (event.reported board)))).asRead
      = .ofOption id (some (.obj (event.asRead.reported board))) := by
    rw [← asRead_reported]
    rfl
  simp only [Envelope.toJson, report, Json.asRead, Json.membersAsRead, result, kind_asRead,
    errorMessage, answer]

/-- The result that reports an event is a document of finite doubles. -/
theorem Event.readable_reported (event : Event Float) (board : Option BoardId)
    : ReadableMembers (·.isFinite) (event.reported board) := by
  have post (post : Post Float) : (post.toJson Json.ofFloat).Readable (·.isFinite) :=
    Post.readable_toJson id
  have group (group : Group Float) : (group.toJson Json.ofFloat).Readable (·.isFinite) :=
    Group.readable_toJson fun _ _ => id
  have user (user : User) : user.toJson.Readable (·.isFinite) := .obj user.readable_members
  cases event with
  | boardConnected connected newUser =>
      have users := Json.readable_ofList fun inside (_ : inside ∈ connected) => user inside
      simp [reported, resultMembers, user, users, Json.readableMembers_memberIfAny]
  | postUpdated inside old =>
      have before : (Json.ofOption (Post.toJson Json.ofFloat) old).Readable (·.isFinite) :=
        Json.readable_ofOption fun before _ => post before
      simp [reported, resultMembers, post, before]
  | groupUpdated patch => exact patch.readable_members
  | _ => simp [reported, resultMembers, post, group, user]

/-- The envelope that reports an event is a document of finite doubles. -/
theorem Event.readable_report (event : Event Float) (board : Option BoardId)
    (message : Option String) (request : Option RequestId)
    : (event.report board message request).toJson.Readable (·.isFinite) := by
  have result : (Json.ofOption id (some (.obj (event.reported board)))).Readable (·.isFinite) :=
    .obj (readable_reported event board)
  refine .obj (?_ : ReadableMembers (·.isFinite) _)
  simp [report, Json.readable_ofOption, result]

-----------------------------------------------------------------------------------------
-- Depths
-----------------------------------------------------------------------------------------

/-- An object can be kept with one level more than its values. -/
theorem Json.isKeepable_obj {room : Nat} {members : List (String × Json)}
    (each : ∀ member ∈ members, member.2.isKeepable room = true)
    : (Json.obj members).isKeepable (room + 1) = true := by
  rw [isKeepable, Nat.add_sub_cancel, membersKeepable_of_forall each]
  simp

/-- A list can be kept with one level more than its elements, by induction over the list. -/
theorem Json.isKeepable_ofList {α : Type} {room : Nat} {write : α → Json} {values : List α}
    (each : ∀ value ∈ values, (write value).isKeepable room = true)
    : (ofList write values).isKeepable (room + 1) = true := by
  have elements : areKeepable room (values.map write) = true := by
    induction values with
    | nil => rfl
    | cons value rest ih =>
        obtain ⟨first, others⟩ := List.forall_mem_cons.mp each
        rw [List.map_cons, areKeepable, first, ih others, Bool.and_true]
  rw [ofList, isKeepable, Nat.add_sub_cancel, elements]
  simp

theorem User.isKeepable_toJson (user : User) (room : Nat)
    : user.toJson.isKeepable (room + 1) = true :=
  Json.isKeepable_obj (user.isKeepable_members room)

/-- A written post holds no other documents. -/
theorem Post.isKeepable_toJson (post : Post Float) (room : Nat)
    : (post.toJson Json.ofFloat).isKeepable (room + 1) = true := by
  have key : (Json.ofFloat post.key).isKeepable room = true := by
    unfold Json.ofFloat
    split <;> rfl
  refine Json.isKeepable_obj ?_
  simp only [List.forall_mem_cons]
  exact ⟨rfl, rfl, rfl, rfl, rfl, rfl, rfl, key, rfl, rfl,
    fun _ none => absurd none List.not_mem_nil⟩

/-- A written group holds a list of its posts. -/
theorem Group.isKeepable_toJson (group : Group Float) (room : Nat)
    : (group.toJson Json.ofFloat).isKeepable (room + 3) = true := by
  have posts : (Json.ofList (Post.toJson Json.ofFloat) group.posts).isKeepable (room + 2) = true :=
    Json.isKeepable_ofList fun post _ => post.isKeepable_toJson room
  refine Json.isKeepable_obj ?_
  simp only [List.forall_mem_cons]
  exact ⟨rfl, rfl, rfl, rfl, rfl, rfl, posts, rfl, rfl, fun _ none => absurd none List.not_mem_nil⟩

/-- The result that reports an event can be kept in its envelope, since nothing in it is deeper than
the posts of a group.
-/
theorem Event.isKeepable_reported (event : Event Float) (board : Option BoardId)
    : (Json.obj (event.reported board)).isKeepable (Json.nestingLimit - 1) = true := by
  have user (user : User) : user.toJson.isKeepable 125 = true := user.isKeepable_toJson 124
  have post (post : Post Float) : (post.toJson Json.ofFloat).isKeepable 125 = true :=
    post.isKeepable_toJson 124
  have group (group : Group Float) : (group.toJson Json.ofFloat).isKeepable 125 = true :=
    group.isKeepable_toJson 122
  have leaf (value : String) : (Json.str value).isKeepable 125 = true := rfl
  refine @Json.isKeepable_obj 125 _ ?_
  cases event with
  | boardConnected connected newUser =>
      have users : (Json.ofList User.toJson connected).isKeepable 125 = true :=
        Json.isKeepable_ofList fun user _ => user.isKeepable_toJson 123
      cases board <;>
        simp [reported, resultMembers, Json.memberIfAny, user, users, Json.ofUuid, leaf]
  | postUpdated inside old =>
      cases old <;> simp [reported, resultMembers, post, Json.ofOption, Json.isKeepable]
  | groupUpdated patch => exact patch.isKeepable_members 125
  | _ => simp [reported, resultMembers, user, post, group, Json.ofUuid, leaf]

-----------------------------------------------------------------------------------------
-- Meaning
-----------------------------------------------------------------------------------------

/-- The frame that reports an event means the event as it is read. -/
theorem Event.ofText_report {event : Event Float}
    (finite : ∀ post ∈ event.carried, post.key.isFinite = true) (board : Option BoardId)
    (message : Option String) (request : Option RequestId)
    : Inbound.ofText (event.report board message request).toJson.toText
      = .ok (.applied event.asRead request) := by
  have finiteAsRead := isFinite_asRead finite
  have read := (event.readable_report board message request).ofText?_asRead
  rw [asRead_report] at read
  refine Inbound.ofText_of_extends finiteAsRead
    (extends_report finiteAsRead board message request) ?_ read
  intro result found
  obtain rfl : Json.obj (event.asRead.reported board) = result := Option.some.inj found
  exact event.asRead.isKeepable_reported board

/-- The frame of an event with finite keys means that event, except that each key becomes what its
own text is read as. That is a finite double again, and the event is the same exactly if the texts
of all its keys are faithful. A frame that says the same means the event that it says, provided that
the decoder can hold its result: no level of it too deep, and no number or string in it that denotes
nothing. The event that a frame is read as is of the kind that its envelope names.
-/
theorem frames_mean_the_events_they_describe
    : (∀ event : Event Float, (∀ post ∈ event.carried, post.key.isFinite = true) →
        (∀ post ∈ event.asRead.carried, post.key.isFinite = true)
        ∧ (event.asRead = event ↔ ∀ post ∈ event.carried, FaithfulText post.key)
        ∧ ∀ board message request,
          Inbound.ofText (event.report board message request).toJson.toText
            = .ok (.applied event.asRead request)
          ∧ ∀ members, (Shape.record event.kind.envelopeFields).Extends
                (event.report board message request).toJson (.obj members) →
              (∀ result ∈ members.lookup "result",
                result.isKeepable (Json.nestingLimit - 1) = true) →
              ∀ text, Json.ofText? text = some (.obj members) →
                Inbound.ofText text = .ok (.applied event request))
      ∧ ∀ text (event : Event Float) request,
          Inbound.ofText text = .ok (.applied event request) →
          ∃ envelope : Envelope, envelope.InText text ∧ envelope.event = event.kind.name := by
  refine ⟨fun event finite => ⟨Event.isFinite_asRead finite, event.asRead_eq_iff,
    fun board message request => ⟨?_, ?_⟩⟩, ?_⟩
  · exact Event.ofText_report finite board message request
  · exact fun members shown keepable text => Inbound.ofText_of_extends finite shown keepable
  · intro text event request applied
    cases Inbound.outcome_iff.mpr applied with
    | applied inText known _ _ fit =>
        exact ⟨_, inText, by rw [Event.kind_of_ofResult? fit, known]⟩

/-- A frame that reports the end of a post, with remarks at every level and no request id. -/
def annotatedFrame : List (String × Json) :=
  [("note", .arr [.null]), ("event", .str "post.delete"), ("success", .bool true),
    ("result", .obj [("why", .str "done"), ("post", .obj
      [("id", .ofUuid halfwayPost.id), ("draft", .bool true),
        ("board_id", .ofUuid halfwayPost.board), ("user_id", .ofUuid halfwayPost.author),
        ("content", .str halfwayPost.content), ("color", halfwayPost.color.toJson),
        ("height", .ofInt32 halfwayPost.height), ("post_group_id", .ofUuid halfwayPost.group),
        ("post_order", .ofFloat halfwayPost.key), ("created_at", .ofInstant halfwayPost.createdAt),
        ("draft", .null), ("updated_at", .ofInstant halfwayPost.updatedAt)])])]

/-- The end of that post is read from its own frame and from one with remarks. -/
theorem frames_mean_the_events_they_describe_annotated
    : Inbound.ofText
          (Event.report (.postDeleted halfwayPost) none none (some (.ofNat 9))).toJson.toText
        = .ok (.applied (.postDeleted halfwayPost) (some (.ofNat 9)))
      ∧ Inbound.ofText (Json.obj annotatedFrame).toText
        = .ok (.applied (.postDeleted halfwayPost) none)
      ∧ ∃ envelope : Envelope, envelope.InText (Json.obj annotatedFrame).toText
          ∧ envelope.event = "post.delete" := by
  have finite : ∀ post ∈ Event.carried (.postDeleted halfwayPost), post.key.isFinite = true :=
    List.forall_mem_singleton.mpr faithful_halfway.1
  have faithful : ∀ post ∈ Event.carried (.postDeleted halfwayPost), FaithfulText post.key :=
    List.forall_mem_singleton.mpr faithful_halfway.2
  have key := Json.float?_ofFloat faithful_halfway.1
  have shown : (Shape.record (Event.kind (.postDeleted halfwayPost)).envelopeFields).Extends
      (Event.report (.postDeleted halfwayPost) none none none).toJson (.obj annotatedFrame) :=
    ⟨_, _, rfl, rfl, by decide, agree_self rfl ⟨rfl, rfl⟩, agree_self rfl ⟨rfl, rfl⟩,
      .inr ⟨_, _, rfl, rfl, _, _, rfl, rfl, by decide, .inr ⟨_, _, rfl, rfl, _, _, rfl, rfl,
        by decide, agree_self rfl ⟨rfl, rfl⟩, agree_self rfl ⟨rfl, rfl⟩,
        agree_self rfl ⟨rfl, rfl⟩, agree_self rfl ⟨rfl, rfl⟩, agree_self rfl ⟨rfl, rfl⟩,
        agree_self rfl ⟨rfl, rfl⟩, agree_self rfl ⟨rfl, rfl⟩, agree_self rfl ⟨_, key, key⟩,
        agree_self rfl ⟨rfl, rfl⟩, agree_self rfl ⟨rfl, rfl⟩, trivial⟩, trivial⟩,
      .inl ⟨rfl, .inr rfl, .inl rfl⟩, .inl ⟨rfl, .inr rfl, .inl rfl⟩, trivial⟩
  have readable : (Json.obj annotatedFrame).Readable ReadsBack := by
    have remark : (Json.arr [.null]).Readable ReadsBack :=
      .arr (List.forall_mem_singleton.mpr .null)
    have order : (Json.ofFloat halfwayPost.key).Readable ReadsBack :=
      Json.readable_ofFloat faithful_halfway.2
    simp [annotatedFrame, remark, order, Json.Readable.null]
  have read := readable.ofText?_toText
  obtain ⟨means, names⟩ := frames_mean_the_events_they_describe
  obtain ⟨_, same, frames⟩ := means _ finite
  have reported := (frames none none (some (.ofNat 9))).1
  rw [same.mpr faithful] at reported
  have applied := (frames none none none).2 annotatedFrame shown (by
    intro result found
    obtain rfl := Option.some.inj found
    decide) _ read
  exact ⟨reported, applied, names _ _ _ applied⟩

/-- A frame whose result holds, beside what it is known by, half of a surrogate pair. -/
def halvedFrame : List (String × Json) :=
  [("event", .str "board.disconnect"), ("success", .bool true),
    ("result", .obj [("user_id", .ofUuid (.ofNat 7)), ("x", .valueless)])]

/-- The text of that frame. -/
def halvedText : String :=
  "\x7b\"event\":\"board.disconnect\",\"success\":true,\"result\":\x7b\"user_id\":"
    ++ "\"00000000-0000-0000-0000-000000000007\",\"x\":\"\\ud800\"\x7d\x7d"

/-- A frame may say that a user left, under all names that are known, and yet mean nothing: what its
result holds beside them has to be held until the result is read.
-/
theorem halved_frame_is_malformed
    : (Shape.record EventKind.boardDisconnect.envelopeFields).Extends
        (Event.report (.boardDisconnected (.ofNat 7)) none none none).toJson (.obj halvedFrame)
      ∧ Json.ofText? halvedText = some (.obj halvedFrame)
      ∧ Inbound.ofText halvedText = .error .malformed := by
  have read : Json.ofText? halvedText = some (.obj halvedFrame) := by cbv
  refine ⟨?_, read, ?_⟩
  · refine ⟨_, _, rfl, rfl, by decide, agree_self rfl ⟨rfl, rfl⟩, agree_self rfl ⟨rfl, rfl⟩,
      .inr ⟨_, _, rfl, rfl, _, _, rfl, rfl, by decide, agree_self rfl ⟨rfl, rfl⟩, trivial⟩,
      .inl ⟨rfl, .inr rfl, .inl rfl⟩, .inl ⟨rfl, .inr rfl, .inl rfl⟩, trivial⟩
  · rw [Inbound.ofText, read]
    rfl

/-- A post whose key is two to the power of -24. -/
def slightPost : Post Float :=
  { halfwayPost with key := 5.9604644775390625e-8 }

/-- The same post with the next greater double as its key. -/
def largerPost : Post Float :=
  { halfwayPost with key := 5.960464477539064e-8 }

/-- The text of a key may be read as the next greater key, and a frame whose result holds half of a
surrogate pair means nothing.
-/
theorem slight_and_halved_frames_mean_otherwise
    : slightPost.key.isFinite = true
      ∧ slightPost.key < largerPost.key
      ∧ Inbound.ofText (Event.report (.postDeleted slightPost) none none none).toJson.toText
        = .ok (.applied (.postDeleted largerPost) none)
      ∧ (Shape.record EventKind.boardDisconnect.envelopeFields).Extends
          (Event.report (.boardDisconnected (.ofNat 7)) none none none).toJson (.obj halvedFrame)
      ∧ Json.ofText? halvedText = some (.obj halvedFrame)
      ∧ Inbound.ofText halvedText = .error .malformed := by
  have finite : slightPost.key.isFinite = true := by decide +kernel
  have larger : slightPost.asRead = largerPost := by
    have key : Json.floatAsRead slightPost.key = largerPost.key := by decide +kernel
    rw [Post.asRead, key]
    rfl
  have deleted := @Event.ofText_report (.postDeleted slightPost)
    (List.forall_mem_singleton.mpr finite) none none none
  rw [Event.asRead, larger] at deleted
  exact ⟨finite, by decide +kernel, deleted, halved_frame_is_malformed⟩

end SharedBoard
