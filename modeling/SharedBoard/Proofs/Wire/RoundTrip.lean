import SharedBoard.Proofs.Json.RoundTrip
import SharedBoard.Proofs.Wire.Records

/-! What is written on the wire is read back from its text. A record is written as a readable
document, so its text holds that document, and the record is read back from the document.
-/

namespace SharedBoard

namespace Json

/-- The text of a double is faithful if the double, when it is finite, is read back from it. This is
a condition on the double and does not hold of all: a text names its double exactly, but the reader
scales the digits by a rounded power of ten. About one text in ten is misread among numbers up to a
hundred, and more are among very large and very small ones.
-/
def FaithfulText (value : Float) : Prop :=
  value.isFinite = true → ReadsBack value

/-- A finite double is written as a number that is read as it. -/
theorem float?_ofFloat {value : Float} (finite : value.isFinite = true)
    : (ofFloat value).float? = some value := by
  rw [ofFloat, if_pos finite]
  rfl

theorem isNull_ofFloat {value : Float} (finite : value.isFinite = true)
    : (ofFloat value).isNull = false := by
  rw [ofFloat, if_pos finite]
  rfl

-----------------------------------------------------------------------------------------
-- Readable documents
-----------------------------------------------------------------------------------------

/-- Objects are readable when the values of their members are, one after the other. -/
def ReadableMembers (held : Float → Prop) (members : List (String × Json)) : Prop :=
  ∀ member ∈ members, member.2.Readable held

section

variable {held : Float → Prop}

@[simp] theorem readableMembers_nil : ReadableMembers held [] :=
  fun _ found => absurd found List.not_mem_nil

@[simp] theorem readableMembers_cons {name : String} {value : Json}
    {rest : List (String × Json)}
    : ReadableMembers held ((name, value) :: rest)
      ↔ value.Readable held ∧ ReadableMembers held rest :=
  List.forall_mem_cons

@[simp] theorem readableMembers_append {first second : List (String × Json)}
    : ReadableMembers held (first ++ second)
      ↔ ReadableMembers held first ∧ ReadableMembers held second :=
  List.forall_mem_append

@[simp] theorem readable_obj {members : List (String × Json)}
    : (Json.obj members).Readable held ↔ ReadableMembers held members :=
  ⟨fun | .obj each => each, .obj⟩

/-- A field that may be absent is readable when its value is. -/
theorem readableMembers_memberIfAny {α : Type} {name : String} {write : α → Json}
    {value : Option α} (readable : ∀ inside ∈ value, (write inside).Readable held)
    : ReadableMembers held (memberIfAny name write value) := by
  cases value with
  | none => exact readableMembers_nil
  | some value => exact readableMembers_cons.mpr ⟨readable value rfl, readableMembers_nil⟩

@[simp] theorem readable_str (text : String) : (Json.str text).Readable held :=
  .str text

@[simp] theorem readable_bool (value : Bool) : (Json.bool value).Readable held :=
  .bool value

@[simp] theorem readable_ofUuid (id : Uuid) : (ofUuid id).Readable held :=
  .str _

@[simp] theorem readable_ofInstant (instant : Instant) : (ofInstant instant).Readable held :=
  .str _

@[simp] theorem readable_color (color : Color) : color.toJson.Readable held :=
  .str _

@[simp] theorem readable_role (role : Role) : role.toJson.Readable held :=
  .str _

/-- A number of 32 bits has no more than 64. -/
@[simp] theorem readable_ofInt32 (value : Int32) : (ofInt32 value).Readable held := by
  have low := Int32.le_toInt value
  have high := Int32.toInt_lt value
  exact .int ⟨by omega, by omega⟩

/-- A number of 16 bits has no more than 64. -/
@[simp] theorem readable_ofUInt16 (value : UInt16) : (ofUInt16 value).Readable held := by
  have high : value.toNat < 65536 := value.toNat_lt
  exact .int ⟨by omega, by omega⟩

/-- A written double is a null or a number, which has to be finite. -/
theorem readable_ofFloat {value : Float} (holds : value.isFinite = true → held value)
    : (ofFloat value).Readable held := by
  unfold ofFloat
  split
  · next finite => exact .float (holds finite)
  · exact .null

/-- A null and a readable value are readable. -/
theorem readable_ofOption {α : Type} {write : α → Json} {value : Option α}
    (readable : ∀ inside ∈ value, (write inside).Readable held)
    : (ofOption write value).Readable held := by
  cases value with
  | none => exact .null
  | some value => exact readable value rfl

/-- A list of readable values is readable. -/
theorem readable_ofList {α : Type} {write : α → Json} {values : List α}
    (readable : ∀ value ∈ values, (write value).Readable held)
    : (ofList write values).Readable held := by
  refine .arr fun element found => ?_
  obtain ⟨value, inside, rfl⟩ := List.mem_map.mp found
  exact readable value inside

end

end Json

open Json (FaithfulText ReadableMembers ReadsBack)

section

variable {held : Float → Prop}

/-- A written user is readable. -/
theorem User.readable_members (user : User) : ReadableMembers held user.members := by
  simp [members, Json.readable_ofOption]

theorem Membership.readable_toJson (membership : Membership)
    : membership.toJson.Readable held := by
  refine .obj (?_ : ReadableMembers held _)
  simp [Json.readable_ofOption]

theorem Member.readable_toJson (member : Member) : member.toJson.Readable held := by
  refine .obj (?_ : ReadableMembers held _)
  simp [member.user.readable_members, member.membership.readable_toJson]

theorem Board.readable_toJson (board : Board) : board.toJson.Readable held := by
  refine .obj (?_ : ReadableMembers held _)
  simp [Json.readable_ofOption, Json.readable_ofList, Member.readable_toJson]

/-- A written post is readable if its key is held to the condition when it is written at all. -/
theorem Post.readable_toJson {post : Post Float} (holds : post.key.isFinite = true → held post.key)
    : (post.toJson Json.ofFloat).Readable held := by
  refine .obj (?_ : ReadableMembers held _)
  simp [Json.readable_ofFloat holds]

theorem Group.readable_toJson {group : Group Float}
    (holds : ∀ post ∈ group.posts, post.key.isFinite = true → held post.key)
    : (group.toJson Json.ofFloat).Readable held := by
  have posts : (Json.ofList (Post.toJson Json.ofFloat) group.posts).Readable held :=
    Json.readable_ofList fun post found => Post.readable_toJson (holds post found)
  refine .obj (?_ : ReadableMembers held _)
  simp [posts]

theorem GroupPatch.readable_members (patch : GroupPatch) : ReadableMembers held patch.members := by
  simp [members, Json.readableMembers_memberIfAny]

end

/-- Written parameters of a command are readable if the text of its key is faithful, by cases on the
command.
-/
theorem Command.readable_paramsToJson {command : Command Float}
    (faithful : ∀ key ∈ command.key?, FaithfulText key)
    : (command.paramsToJson Json.ofFloat).Readable ReadsBack := by
  cases command with
  | createPost creation =>
      refine .obj (?_ : ReadableMembers ReadsBack _)
      simp [Json.readable_ofFloat (faithful _ rfl)]
  | updatePost edit =>
      have key : ReadableMembers ReadsBack (Json.memberIfAny "post_order" Json.ofFloat edit.key) :=
        Json.readableMembers_memberIfAny fun key found => Json.readable_ofFloat (faithful key found)
      refine .obj (?_ : ReadableMembers ReadsBack _)
      simp [key, Json.readableMembers_memberIfAny]
  | updateGroup change =>
      refine .obj (?_ : ReadableMembers ReadsBack _)
      simp [change.patch.readable_members]
  | _ =>
      refine .obj (?_ : ReadableMembers ReadsBack _)
      simp

-----------------------------------------------------------------------------------------
-- Texts
-----------------------------------------------------------------------------------------

/-- A value is read back from the text of the document that it is written as. -/
def RoundTrips {α : Type} (write : α → Json) (read : Json → Option α) (value : α) : Prop :=
  (Json.ofText? (write value).toText).bind read = some value

/-- A value that is read back from a readable document is read back from its text. -/
theorem RoundTrips.of_readable {α : Type} {write : α → Json} {read : Json → Option α} {value : α}
    (readable : (write value).Readable ReadsBack) (back : read (write value) = some value)
    : RoundTrips write read value := by
  rw [RoundTrips, readable.ofText?_toText, Option.bind_some, back]

-----------------------------------------------------------------------------------------
-- Records
-----------------------------------------------------------------------------------------

theorem User.roundTrips (user : User) : RoundTrips User.toJson User.ofJson? user :=
  .of_readable (.obj user.readable_members) user.ofJson?_toJson

theorem Role.roundTrips (role : Role) : RoundTrips Role.toJson Role.ofJson? role :=
  .of_readable (Json.readable_role role) role.ofJson?_toJson

theorem Membership.roundTrips (membership : Membership)
    : RoundTrips Membership.toJson Membership.ofJson? membership :=
  .of_readable membership.readable_toJson membership.ofJson?_toJson

theorem Member.roundTrips (level : Nat) (member : Member)
    : RoundTrips Member.toJson (Member.ofJson? level) member :=
  .of_readable member.readable_toJson (member.ofJson?_toJson level)

theorem Board.roundTrips (level : Nat) (board : Board)
    : RoundTrips Board.toJson (Board.ofJson? level) board :=
  .of_readable board.readable_toJson (board.ofJson?_toJson level)

/-- A post is read back from its text if its key is. -/
theorem Post.roundTrips {post : Post Float} (finite : post.key.isFinite = true)
    (faithful : FaithfulText post.key)
    : RoundTrips (Post.toJson Json.ofFloat) (Post.ofJson? Json.float?) post :=
  .of_readable (Post.readable_toJson faithful) (Post.ofJson?_toJson (Json.float?_ofFloat finite))

/-- A group is read back from its text if the keys of its posts are. -/
theorem Group.roundTrips {group : Group Float}
    (survive : ∀ post ∈ group.posts, post.key.isFinite = true ∧ FaithfulText post.key)
    : RoundTrips (Group.toJson Json.ofFloat) (Group.ofJson? Json.float?) group :=
  .of_readable (Group.readable_toJson fun post found => (survive post found).2)
    (Group.ofJson?_toJson fun post found => Json.float?_ofFloat (survive post found).1)

theorem GroupPatch.roundTrips (patch : GroupPatch)
    : RoundTrips GroupPatch.toJson GroupPatch.ofJson? patch :=
  .of_readable (.obj patch.readable_members) patch.ofJson?_toJson

theorem BoardResponse.roundTrips (response : BoardResponse)
    : RoundTrips BoardResponse.toJson BoardResponse.ofJson? response := by
  refine .of_readable (.obj (?_ : ReadableMembers ReadsBack _)) response.ofJson?_toJson
  simp [response.result.readable_toJson]

/-- A response that carries groups is read back from its text if the keys of their posts are. -/
theorem GroupsResponse.roundTrips {response : GroupsResponse Float}
    (survive : ∀ group ∈ response.result, ∀ post ∈ group.posts,
      post.key.isFinite = true ∧ FaithfulText post.key)
    : RoundTrips (GroupsResponse.toJson Json.ofFloat) (GroupsResponse.ofJson? Json.float?)
      response := by
  have groups : (Json.ofList (Group.toJson Json.ofFloat) response.result).Readable ReadsBack :=
    Json.readable_ofList fun group inside =>
      Group.readable_toJson fun post found => (survive group inside post found).2
  refine .of_readable (.obj (?_ : ReadableMembers ReadsBack _)) (GroupsResponse.ofJson?_toJson
    fun group inside post found => Json.float?_ofFloat (survive group inside post found).1)
  simp [groups]

theorem ErrorResponse.roundTrips (response : ErrorResponse)
    : RoundTrips ErrorResponse.toJson ErrorResponse.ofJson? response := by
  refine .of_readable (.obj (?_ : ReadableMembers ReadsBack _)) response.ofJson?_toJson
  simp

-----------------------------------------------------------------------------------------
-- Commands
-----------------------------------------------------------------------------------------

/-- Parameters of a creation are read back from their text if its key is. -/
theorem PostCreation.roundTrips {creation : PostCreation Float}
    (finite : creation.key.isFinite = true) (faithful : FaithfulText creation.key)
    : RoundTrips (PostCreation.toJson Json.ofFloat)
      (PostCreation.ofJson? Json.float? Color.ofJson?) creation := by
  refine .of_readable (@Command.readable_paramsToJson (.createPost creation) fun key found => ?_)
    (PostCreation.ofJson?_toJson (Json.float?_ofFloat finite))
  obtain rfl := Option.some.inj found
  exact faithful

/-- A change of a post is read back from its text if its key, if any, is. -/
theorem PostEdit.roundTrips {edit : PostEdit Float}
    (survives : ∀ key ∈ edit.key, key.isFinite = true ∧ FaithfulText key)
    : RoundTrips (PostEdit.toJson Json.ofFloat) (PostEdit.ofJson? Json.float? Color.ofJson?)
      edit :=
  .of_readable
    (@Command.readable_paramsToJson (.updatePost edit) fun key found => (survives key found).2)
    (PostEdit.ofJson?_toJson (fun key found => Json.float?_ofFloat (survives key found).1)
      fun key found => Json.isNull_ofFloat (survives key found).1)

theorem PostDetachment.roundTrips (detachment : PostDetachment)
    : RoundTrips PostDetachment.toJson PostDetachment.ofJson? detachment :=
  .of_readable (@Command.readable_paramsToJson (.detachPost detachment) (by simp [Command.key?]))
    detachment.ofJson?_toJson

theorem GroupChange.roundTrips (level : Nat) (change : GroupChange)
    : RoundTrips GroupChange.toJson (GroupChange.ofJson? level) change :=
  .of_readable (@Command.readable_paramsToJson (.updateGroup change) (by simp [Command.key?]))
    (change.ofJson?_toJson level)

/-- The members of a command are readable if the text of its key is faithful. -/
theorem Command.readable_members {command : Command Float}
    (faithful : ∀ key ∈ command.key?, FaithfulText key)
    : ReadableMembers ReadsBack (command.members Json.ofFloat) := by
  simp [members, readable_paramsToJson faithful]

/-- A command is read back from its text if its key, if any, is. -/
theorem Command.roundTrips {command : Command Float}
    (survives : ∀ key ∈ command.key?, key.isFinite = true ∧ FaithfulText key)
    : RoundTrips (Command.toJson Json.ofFloat) (Command.ofJson? Json.float?) command := by
  have read := @ofJson?_members _ Json.ofFloat Json.float? command
    (fun key found => Json.float?_ofFloat (survives key found).1)
    (fun key found => Json.isNull_ofFloat (survives key found).1) [] (by simp)
  rw [List.append_nil] at read
  exact .of_readable (.obj (readable_members fun key found => (survives key found).2)) read

-----------------------------------------------------------------------------------------
-- Messages
-----------------------------------------------------------------------------------------

namespace Message

/-- The members of a written message: its command, and its request id if it has one. -/
def members (message : Message Float) : List (String × Json) :=
  message.command.members Json.ofFloat ++ Json.memberIfAny "request_id" .ofUuid message.request

/-- The frame of a message holds its members. -/
theorem ofText?_toFrame {message : Message Float}
    (faithful : ∀ key ∈ message.command.key?, FaithfulText key)
    : Json.ofText? message.toFrame = some (.obj message.members) := by
  have readable : ReadableMembers ReadsBack message.members := by
    simp [members, Command.readable_members faithful, Json.readableMembers_memberIfAny]
  exact (Json.Readable.obj readable).ofText?_toText

/-- The command of a message is read back from the members of its frame. -/
theorem command_members {message : Message Float}
    (finite : ∀ key ∈ message.command.key?, key.isFinite = true)
    : Command.ofJson? Json.float? (.obj message.members) = some message.command := by
  refine Command.ofJson?_members (fun key found => Json.float?_ofFloat (finite key found))
    (fun key found => Json.isNull_ofFloat (finite key found)) fun member found known => ?_
  have name := (Json.names_memberIfAny "request_id" .ofUuid message.request).subset
    (List.mem_map_of_mem found)
  rw [List.mem_singleton] at name
  rw [name] at known
  exact absurd known (by decide)

end Message

/-- Every record of the data model, every command and every response is read back from its text if
its order keys are finite and their texts are faithful. The frame of a message is an object that
names the kind of its command, holds its parameters and, exactly if there is one, its request id;
the command is read back from it.
-/
theorem records_and_commands_round_trip
    : (∀ user, RoundTrips User.toJson User.ofJson? user)
      ∧ (∀ role, RoundTrips Role.toJson Role.ofJson? role)
      ∧ (∀ membership, RoundTrips Membership.toJson Membership.ofJson? membership)
      ∧ (∀ member, RoundTrips Member.toJson (Member.ofJson? 1) member)
      ∧ (∀ board, RoundTrips Board.toJson (Board.ofJson? 1) board)
      ∧ (∀ post : Post Float, post.key.isFinite = true → FaithfulText post.key →
          RoundTrips (Post.toJson Json.ofFloat) (Post.ofJson? Json.float?) post)
      ∧ (∀ group : Group Float,
          (∀ post ∈ group.posts, post.key.isFinite = true ∧ FaithfulText post.key) →
          RoundTrips (Group.toJson Json.ofFloat) (Group.ofJson? Json.float?) group)
      ∧ (∀ patch, RoundTrips GroupPatch.toJson GroupPatch.ofJson? patch)
      ∧ (∀ creation : PostCreation Float,
          creation.key.isFinite = true → FaithfulText creation.key →
          RoundTrips (PostCreation.toJson Json.ofFloat)
            (PostCreation.ofJson? Json.float? Color.ofJson?) creation)
      ∧ (∀ edit : PostEdit Float, (∀ key ∈ edit.key, key.isFinite = true ∧ FaithfulText key) →
          RoundTrips (PostEdit.toJson Json.ofFloat)
            (PostEdit.ofJson? Json.float? Color.ofJson?) edit)
      ∧ (∀ detachment, RoundTrips PostDetachment.toJson PostDetachment.ofJson? detachment)
      ∧ (∀ change, RoundTrips GroupChange.toJson (GroupChange.ofJson? 1) change)
      ∧ (∀ response, RoundTrips BoardResponse.toJson BoardResponse.ofJson? response)
      ∧ (∀ response : GroupsResponse Float,
          (∀ group ∈ response.result, ∀ post ∈ group.posts,
            post.key.isFinite = true ∧ FaithfulText post.key) →
          RoundTrips (GroupsResponse.toJson Json.ofFloat) (GroupsResponse.ofJson? Json.float?)
            response)
      ∧ (∀ response, RoundTrips ErrorResponse.toJson ErrorResponse.ofJson? response)
      ∧ (∀ command : Command Float,
          (∀ key ∈ command.key?, key.isFinite = true ∧ FaithfulText key) →
          RoundTrips (Command.toJson Json.ofFloat) (Command.ofJson? Json.float?) command)
      ∧ ∀ message : Message Float, (∀ key ∈ message.command.key?, FaithfulText key) →
          ∃ members, Json.ofText? message.toFrame = some (.obj members)
            ∧ members.map (·.1)
              = ["event", "params"] ++ (if message.request.isSome then ["request_id"] else [])
            ∧ members.lookup "event" = some (.str message.command.kind.name)
            ∧ members.lookup "request_id" = message.request.map (fun id => .str id.toText)
            ∧ ((∀ key ∈ message.command.key?, key.isFinite = true) →
                Command.ofJson? Json.float? (.obj members) = some message.command) := by
  refine ⟨User.roundTrips, Role.roundTrips, Membership.roundTrips, Member.roundTrips 1,
    Board.roundTrips 1, fun _ => Post.roundTrips, fun _ => Group.roundTrips,
    GroupPatch.roundTrips, fun _ => PostCreation.roundTrips, fun _ => PostEdit.roundTrips,
    PostDetachment.roundTrips, GroupChange.roundTrips 1, BoardResponse.roundTrips,
    fun _ => GroupsResponse.roundTrips, ErrorResponse.roundTrips, fun _ => Command.roundTrips,
    fun message faithful => ?_⟩
  refine ⟨message.members, Message.ofText?_toFrame faithful, ?_, rfl, ?_,
    Message.command_members⟩
  · obtain ⟨command, request⟩ := message
    cases request <;> rfl
  · obtain ⟨command, request⟩ := message
    cases request <;> rfl

/-- A post whose key stands halfway between two others. -/
def halfwayPost : Post Float :=
  ⟨.ofNat 1, .ofNat 2, .ofNat 3, "to be \"done\"", .lightAqua, -40, .ofNat 4, 0.5, .epoch, .epoch⟩

/-- The group of that post. -/
def halfwayGroup : Group Float :=
  ⟨.ofNat 4, .ofNat 2, "", 10, -20, 3, [halfwayPost], .epoch, .epoch⟩

/-- The creation of that post. -/
def halfwayCreation : PostCreation Float :=
  ⟨.ofNat 1, .ofNat 2, .ofNat 4, "to be \"done\"", 10, -20, .lightAqua, -40, 3, 0.5⟩

/-- A move of that post within its group. -/
def halfwayMove : PostEdit Float :=
  ⟨.ofNat 1, .ofNat 2, none, none, none, some (.ofNat 4), some 0.5⟩

/-- The key halfway between zero and one is finite, and its text is read as it, by evaluation. -/
theorem faithful_halfway : (0.5 : Float).isFinite = true ∧ FaithfulText 0.5 :=
  ⟨by decide +kernel, fun _ => ⟨['0', '.', '5'], by decide +kernel, rfl⟩⟩

/-- A post, its group, the parameters that create and move it, the command that creates it and the
message that moves it are read back.
-/
theorem records_and_commands_round_trip_halfway
    : RoundTrips (Post.toJson Json.ofFloat) (Post.ofJson? Json.float?) halfwayPost
      ∧ RoundTrips (Group.toJson Json.ofFloat) (Group.ofJson? Json.float?) halfwayGroup
      ∧ RoundTrips (PostCreation.toJson Json.ofFloat)
        (PostCreation.ofJson? Json.float? Color.ofJson?) halfwayCreation
      ∧ RoundTrips (PostEdit.toJson Json.ofFloat) (PostEdit.ofJson? Json.float? Color.ofJson?)
        halfwayMove
      ∧ RoundTrips (GroupsResponse.toJson Json.ofFloat) (GroupsResponse.ofJson? Json.float?)
        ⟨[halfwayGroup]⟩
      ∧ RoundTrips (Command.toJson Json.ofFloat) (Command.ofJson? Json.float?)
        (.createPost halfwayCreation)
      ∧ ∃ members,
          Json.ofText? (Message.toFrame ⟨.updatePost halfwayMove, some (.ofNat 9)⟩)
            = some (.obj members)
          ∧ members.map (·.1) = ["event", "params", "request_id"]
          ∧ members.lookup "event" = some (.str "post.update")
          ∧ Command.ofJson? Json.float? (.obj members) = some (.updatePost halfwayMove) := by
  obtain ⟨_, _, _, _, _, post, group, _, creation, edit, _, _, _, groups, _, command, message⟩ :=
    records_and_commands_round_trip
  have inGroup : ∀ post ∈ halfwayGroup.posts, post.key.isFinite = true ∧ FaithfulText post.key :=
    List.forall_mem_singleton.mpr faithful_halfway
  refine ⟨post _ faithful_halfway.1 faithful_halfway.2, group _ inGroup,
    creation _ faithful_halfway.1 faithful_halfway.2, edit _ fun key found => ?_,
    groups _ (List.forall_mem_singleton.mpr inGroup), command _ fun key found => ?_, ?_⟩
  · obtain rfl := Option.some.inj found
    exact faithful_halfway
  · obtain rfl := Option.some.inj found
    exact faithful_halfway
  · obtain ⟨members, atFrame, names, event, _, back⟩ := message
      ⟨.updatePost halfwayMove, some (.ofNat 9)⟩
      fun key found => Option.some.inj found ▸ faithful_halfway.2
    exact ⟨members, atFrame, names, event,
      back fun key found => Option.some.inj found ▸ faithful_halfway.1⟩

end SharedBoard
