import SharedBoard.Proofs.Wire.RoundTrip
import SharedBoard.Proofs.Wire.Shape

/-! Frames mean what they say. A frame that describes an event is read as that event, whatever its
records hold beside the members that they are known by.
-/

namespace SharedBoard

open Shape (Respects respects_scalar respects_number)

-----------------------------------------------------------------------------------------
-- Records
-----------------------------------------------------------------------------------------

/-- The shape of a user. -/
def User.shape : Shape :=
  .record [("id", .always, .scalar), ("name", .always, .scalar), ("email", .maybe, .scalar),
    ("is_guest", .always, .scalar), ("is_verified", .always, .scalar),
    ("created_at", .maybe, .scalar), ("updated_at", .maybe, .scalar)]

/-- The shape of a post. -/
def Post.shape : Shape :=
  .record [("id", .always, .scalar), ("board_id", .always, .scalar),
    ("user_id", .always, .scalar), ("content", .always, .scalar), ("color", .always, .scalar),
    ("height", .always, .scalar), ("post_group_id", .always, .scalar),
    ("post_order", .always, .number), ("created_at", .always, .scalar),
    ("updated_at", .always, .scalar)]

/-- The shape of a group. -/
def Group.shape : Shape :=
  .record [("id", .always, .scalar), ("board_id", .always, .scalar), ("title", .always, .scalar),
    ("pos_x", .always, .scalar), ("pos_y", .always, .scalar), ("z_index", .always, .scalar),
    ("posts", .always, .list Post.shape), ("created_at", .always, .scalar),
    ("updated_at", .always, .scalar)]

/-- The fields of a change of a group. -/
def GroupPatch.shapeFields : List (String × Presence × Shape) :=
  [("id", .always, .scalar), ("title", .maybe, .scalar), ("pos_x", .maybe, .scalar),
    ("pos_y", .maybe, .scalar), ("z_index", .maybe, .scalar), ("updated_at", .maybe, .scalar)]

/-- Users are read from what they are known by. -/
theorem User.respects : Respects User.shape User.ofJson? := by
  intro plain document user shown read
  obtain ⟨found, atFields, read⟩ := Option.bind_eq_some_iff.mp read
  obtain ⟨others, atOthers, id, name, email, isGuest, isVerified, createdAt, updatedAt, _⟩ :=
    Shape.Extends.fields? shown atFields
  simp only [ofFields?, Option.bind_eq_bind, Option.bind_eq_some_iff] at read
  obtain ⟨_, atId, _, atName, _, atEmail, _, atGuest, _, atVerified, _, atCreated, _, atUpdated,
    same⟩ := read
  rw [ofJson?, show document.fields? fieldNames = some others from atOthers, Option.bind_some]
  simp only [ofFields?, id.required? (respects_scalar _) atId,
    name.required? (respects_scalar _) atName, email.optional? (respects_scalar _) atEmail,
    isGuest.withDefault? (respects_scalar _) atGuest,
    isVerified.withDefault? (respects_scalar _) atVerified,
    createdAt.optional? (respects_scalar _) atCreated,
    updatedAt.optional? (respects_scalar _) atUpdated, Option.bind_eq_bind, Option.bind_some, same]

section

variable {readKey : Json → Option Float} (number : Respects .number readKey)
include number

/-- Posts are read from what they are known by. -/
theorem Post.respects : Respects Post.shape (Post.ofJson? readKey) := by
  intro plain document post shown read
  simp only [ofJson?, Option.bind_eq_bind, Option.bind_eq_some_iff] at read
  obtain ⟨found, atFields, _, atId, _, atBoard, _, atAuthor, _, atContent, _, atColor, _, atHeight,
    _, atGroup, _, atKey, _, atCreated, _, atUpdated, same⟩ := read
  obtain ⟨others, atOthers, id, board, author, content, color, height, group, key, createdAt,
    updatedAt, _⟩ := Shape.Extends.fields? shown atFields
  simp only [Shape.names, List.map_cons, List.map_nil] at atOthers
  simp only [ofJson?, atOthers, id.required? (respects_scalar _) atId,
    board.required? (respects_scalar _) atBoard, author.required? (respects_scalar _) atAuthor,
    content.required? (respects_scalar _) atContent, color.required? (respects_scalar _) atColor,
    height.required? (respects_scalar _) atHeight, group.required? (respects_scalar _) atGroup,
    key.required? number atKey, createdAt.required? (respects_scalar _) atCreated,
    updatedAt.required? (respects_scalar _) atUpdated, Option.bind_eq_bind, Option.bind_some, same]

/-- Groups are read from what they and their posts are known by. -/
theorem Group.respects : Respects Group.shape (Group.ofJson? readKey) := by
  intro plain document group shown read
  simp only [ofJson?, Option.bind_eq_bind, Option.bind_eq_some_iff] at read
  obtain ⟨found, atFields, _, atId, _, atBoard, _, atTitle, _, atX, _, atY, _, atZ, _, atPosts,
    _, atCreated, _, atUpdated, same⟩ := read
  obtain ⟨others, atOthers, id, board, title, x, y, z, posts, createdAt, updatedAt, _⟩ :=
    Shape.Extends.fields? shown atFields
  simp only [Shape.names, List.map_cons, List.map_nil] at atOthers
  simp only [ofJson?, atOthers, id.required? (respects_scalar _) atId,
    board.required? (respects_scalar _) atBoard, title.withDefault? (respects_scalar _) atTitle,
    x.required? (respects_scalar _) atX, y.required? (respects_scalar _) atY,
    z.required? (respects_scalar _) atZ, posts.withDefault? (Post.respects number).list atPosts,
    createdAt.required? (respects_scalar _) atCreated,
    updatedAt.required? (respects_scalar _) atUpdated, Option.bind_eq_bind, Option.bind_some, same]

end

/-- Changes of groups are read from what they are known by. -/
theorem GroupPatch.respects : Respects (.record GroupPatch.shapeFields) GroupPatch.ofJson? := by
  intro plain document patch shown read
  obtain ⟨found, atFields, read⟩ := Option.bind_eq_some_iff.mp read
  obtain ⟨others, atOthers, id, title, x, y, z, updatedAt, _⟩ :=
    Shape.Extends.fields? shown atFields
  simp only [ofFields?, Option.bind_eq_bind, Option.bind_eq_some_iff] at read
  obtain ⟨_, atId, _, atTitle, _, atX, _, atY, _, atZ, _, atUpdated, same⟩ := read
  rw [ofJson?, show document.fields? fieldNames = some others from atOthers, Option.bind_some]
  simp only [ofFields?, id.required? (respects_scalar _) atId,
    title.optional? (respects_scalar _) atTitle, x.optional? (respects_scalar _) atX,
    y.optional? (respects_scalar _) atY, z.optional? (respects_scalar _) atZ,
    updatedAt.optional? (respects_scalar _) atUpdated, Option.bind_eq_bind, Option.bind_some, same]

-----------------------------------------------------------------------------------------
-- Results
-----------------------------------------------------------------------------------------

/-- The fields that the result of an event of each kind is known by. -/
def EventKind.resultFields : EventKind → List (String × Presence × Shape)
  | .userAuthenticate => [("user", .always, User.shape)]
  | .boardConnect =>
      [("board_id", .maybe, .scalar), ("connected_users", .always, .list User.shape),
        ("new_user", .always, User.shape)]
  | .boardDisconnect => [("user_id", .always, .scalar)]
  | .postCreate => [("post", .always, Post.shape), ("post_group", .always, Group.shape)]
  | .postUpdate => [("updated_post", .always, Post.shape), ("old_post", .maybe, Post.shape)]
  | .postDelete => [("post", .always, Post.shape)]
  | .postDetach => [("post", .always, Post.shape), ("post_group", .always, Group.shape)]
  | .postFocus => [("post", .always, Post.shape), ("user", .always, User.shape)]
  | .groupUpdate => GroupPatch.shapeFields
  | .groupDelete => [("id", .always, .scalar)]

/-- Results are read from what they are known by, by cases on the kind. -/
theorem Event.respects (kind : EventKind)
    : Respects (.record kind.resultFields) (Event.ofResult? Json.float? kind) := by
  have post := Post.respects respects_number
  have group := Group.respects respects_number
  cases kind with
  | userAuthenticate => exact Shape.respects_one User.respects Event.authenticated
  | boardDisconnect => exact Shape.respects_one (respects_scalar Json.uuid?) Event.boardDisconnected
  | postCreate => exact Shape.respects_two post group Event.postCreated
  | postDelete => exact Shape.respects_one post Event.postDeleted
  | postDetach => exact Shape.respects_two post group Event.postDetached
  | postFocus => exact Shape.respects_two post User.respects Event.postFocused
  | groupDelete => exact Shape.respects_one (respects_scalar Json.uuid?) Event.groupDeleted
  | boardConnect =>
      intro plain document event shown read
      simp only [ofResult?, Option.bind_eq_bind, Option.bind_eq_some_iff] at read
      obtain ⟨found, atFields, _, atBoard, connected, atConnected, read⟩ := read
      obtain ⟨newUser, atNew, rfl⟩ := Option.map_eq_some_iff.mp read
      obtain ⟨others, atOthers, board, inConnected, inNew, _⟩ :=
        Shape.Extends.fields? shown atFields
      simp only [ofResult?,
        show document.fields? ["board_id", "connected_users", "new_user"] = some others
          from atOthers,
        board.optional? (respects_scalar _) atBoard,
        inConnected.withDefault? User.respects.list atConnected,
        inNew.required? User.respects atNew, Option.bind_eq_bind, Option.bind_some,
        Option.map_some]
  | postUpdate =>
      intro plain document event shown read
      simp only [ofResult?, Option.bind_eq_bind, Option.bind_eq_some_iff] at read
      obtain ⟨found, atFields, updated, atUpdated, read⟩ := read
      obtain ⟨old, atOld, rfl⟩ := Option.map_eq_some_iff.mp read
      obtain ⟨others, atOthers, inUpdated, inOld, _⟩ := Shape.Extends.fields? shown atFields
      simp only [ofResult?,
        show document.fields? ["updated_post", "old_post"] = some others from atOthers,
        inUpdated.required? post atUpdated, inOld.optional? post atOld, Option.bind_eq_bind,
        Option.bind_some, Option.map_some]
  | groupUpdate =>
      intro plain document event shown read
      obtain ⟨patch, atPatch, rfl⟩ := Option.map_eq_some_iff.mp read
      simp only [ofResult?, GroupPatch.respects plain document patch shown atPatch,
        Option.map_some]

-----------------------------------------------------------------------------------------
-- Reports
-----------------------------------------------------------------------------------------

/-- The fields that the envelope of an event of each kind is known by. -/
def EventKind.envelopeFields (kind : EventKind) : List (String × Presence × Shape) :=
  [("event", .always, .scalar), ("success", .always, .scalar),
    ("result", .always, .record kind.resultFields), ("error_message", .maybe, .scalar),
    ("request_id", .maybe, .scalar)]

namespace Event

/-- All posts that an event brings along. -/
def carried : Event Float → List (Post Float)
  | .postCreated post group => post :: group.posts
  | .postUpdated post old => post :: old.toList
  | .postDeleted post => [post]
  | .postDetached post group => post :: group.posts
  | .postFocused post _ => [post]
  | _ => []

/-- The members of the result that reports an event. Who joins a board may be told which one. -/
def reported (event : Event Float) (board : Option BoardId) : List (String × Json) :=
  match event with
  | .boardConnected _ _ =>
      Json.memberIfAny "board_id" .ofUuid board ++ event.resultMembers Json.ofFloat
  | _ => event.resultMembers Json.ofFloat

/-- The envelope that reports an event. A message may stand in it though nothing failed. -/
def report (event : Event Float) (board : Option BoardId) (message : Option String)
    (request : Option RequestId)
    : Envelope :=
  ⟨event.kind.name, true, some (.obj (event.reported board)), message, request⟩

/-- The result that reports an event is read as that event, by cases on it. -/
theorem ofResult?_reported {event : Event Float}
    (finite : ∀ post ∈ event.carried, post.key.isFinite = true) (board : Option BoardId)
    : ofResult? Json.float? event.kind (.obj (event.reported board)) = some event := by
  have post {post : Post Float} (carried : post ∈ event.carried)
      : Post.ofJson? Json.float? (post.toJson Json.ofFloat) = some post :=
    Post.ofJson?_toJson (Json.float?_ofFloat (finite post carried))
  have group {group : Group Float} (carried : ∀ post ∈ group.posts, post ∈ event.carried)
      : Group.ofJson? Json.float? (group.toJson Json.ofFloat) = some group :=
    Group.ofJson?_toJson fun post found => Json.float?_ofFloat (finite post (carried post found))
  cases event with
  | authenticated user =>
      simp [kind, ofResult?, reported, resultMembers, Json.fields?, Json.objectFields?,
        Json.Fields.required?, User.ofJson?_toJson]
  | boardConnected connected newUser =>
      have users : (Json.ofList User.toJson connected).list? User.ofJson? = some connected :=
        Json.list?_ofList fun user _ => user.ofJson?_toJson
      cases board <;>
        simp [kind, ofResult?, reported, resultMembers, Json.memberIfAny, Json.fields?,
          Json.objectFields?, Json.Fields.required?, Json.Fields.optional?,
          Json.Fields.withDefault?, List.lookup_cons, users, User.ofJson?_toJson,
          Json.nullable?_of_given (show (Json.ofUuid _).isNull = false from rfl)]
  | boardDisconnected user =>
      simp [kind, ofResult?, reported, resultMembers, Json.fields?, Json.objectFields?,
        Json.Fields.required?]
  | postCreated inside beside | postDetached inside beside =>
      have atPost := @post inside (by simp [carried])
      have atGroup := @group beside (by simp +contextual [carried])
      simp [kind, ofResult?, reported, resultMembers, Json.fields?, Json.objectFields?,
        Json.Fields.required?, List.lookup_cons, atPost, atGroup]
  | postUpdated inside old =>
      have atPost := @post inside (by simp [carried])
      have atOld : (Json.ofOption (Post.toJson Json.ofFloat) old).nullable?
          (Post.ofJson? Json.float?) = some old := by
        cases old with
        | none => rfl
        | some old =>
            have back := @post old (by simp [carried])
            rw [Json.ofOption, Json.nullable?_of_given rfl, back, Option.map_some]
      simp [kind, ofResult?, reported, resultMembers, Json.fields?, Json.objectFields?,
        Json.Fields.required?, Json.Fields.optional?, List.lookup_cons, atPost, atOld]
  | postDeleted inside =>
      have atPost := @post inside (by simp [carried])
      simp [kind, ofResult?, reported, resultMembers, Json.fields?, Json.objectFields?,
        Json.Fields.required?, atPost]
  | postFocused inside user =>
      have atPost := @post inside (by simp [carried])
      simp [kind, ofResult?, reported, resultMembers, Json.fields?, Json.objectFields?,
        Json.Fields.required?, List.lookup_cons, atPost, User.ofJson?_toJson]
  | groupUpdated patch =>
      have back : GroupPatch.ofJson? (.obj patch.members) = some patch := patch.ofJson?_toJson
      simp [kind, ofResult?, reported, resultMembers, back]
  | groupDeleted group =>
      simp [kind, ofResult?, reported, resultMembers, Json.fields?, Json.objectFields?,
        Json.Fields.required?]

end Event

/-- An envelope that says what a report says is read as that report, with the result that it holds.
-/
theorem Envelope.ofJson?_of_extends {event : Event Float} {board : Option BoardId}
    {message : Option String} {request : Option RequestId} {members : List (String × Json)}
    (shown : (Shape.record event.kind.envelopeFields).Extends
      (event.report board message request).toJson (.obj members))
    (keepable : ∀ result ∈ members.lookup "result",
      result.isKeepable (Json.nestingLimit - 1) = true)
    : ∃ result,
        (Shape.record event.kind.resultFields).Extends (.obj (event.reported board)) result
        ∧ Envelope.ofJson? (.obj members)
          = some ⟨event.kind.name, true, some result.settled, message, request⟩ := by
  have atPlain : (event.report board message request).toJson.fields?
      ["event", "success", "result", "error_message", "request_id"] = some _ :=
    Json.fields?_of_sublist (List.Sublist.refl _) (by decide)
  obtain ⟨others, atOthers, name, success, result, errorMessage, answer, _⟩ := shown.fields? atPlain
  have inMembers := @Shape.lookup_fields? _ _ _ atOthers "result"
    (by simp [Shape.names, EventKind.envelopeFields])
  obtain ⟨never, _⟩ | ⟨inPlain, inOthers, atResult, given, same⟩ := result
  · exact absurd never (by decide)
  obtain rfl : Json.obj (event.reported board) = inPlain := Option.some.inj atResult
  refine ⟨inOthers, same, ?_⟩
  have kept : kept? inOthers = some inOthers.settled := by
    rw [kept?, if_pos (keepable inOthers (by rw [← inMembers, given]; rfl))]
  have atKept : others.optional? "result" kept? = some (some inOthers.settled) := by
    rw [Json.Fields.optional?, given]
    show inOthers.nullable? kept? = some (some inOthers.settled)
    rw [Json.nullable?_of_given same.given.2, kept, Option.map_some]
  have atMessage := errorMessage.optional? (respects_scalar Json.str?)
    (show _ = some message from Json.nullable?_ofTexts message)
  have atAnswer := answer.optional? (respects_scalar Json.uuid?)
    (show _ = some request from Json.nullable?_ofOption Json.uuid?_ofUuid (fun _ => rfl) request)
  simp only [ofJson?, show (Json.obj members).fields?
      ["event", "success", "result", "error_message", "request_id"] = some others from atOthers,
    name.required? (respects_scalar Json.str?) rfl,
    success.required? (respects_scalar Json.bool?) rfl, atKept, atMessage, atAnswer,
    Option.bind_eq_bind, Option.bind_some]
  rfl

/-- A frame that says what a report says means the event that is reported. -/
theorem Inbound.ofText_of_extends {event : Event Float}
    (finite : ∀ post ∈ event.carried, post.key.isFinite = true) {board : Option BoardId}
    {message : Option String} {request : Option RequestId} {members : List (String × Json)}
    (shown : (Shape.record event.kind.envelopeFields).Extends
      (event.report board message request).toJson (.obj members))
    (keepable : ∀ result ∈ members.lookup "result",
      result.isKeepable (Json.nestingLimit - 1) = true)
    {text : String} (read : Json.ofText? text = some (.obj members))
    : Inbound.ofText text = .ok (.applied event request) := by
  obtain ⟨result, inResult, atEnvelope⟩ := Envelope.ofJson?_of_extends shown keepable
  have atResult := Event.respects event.kind _ _ _ inResult.settled
    (Event.ofResult?_reported finite board)
  rw [ofText, read, Option.bind_some, atEnvelope]
  simp only [ofEnvelope, EventKind.ofName?_name, if_true, atResult]

end SharedBoard
