import SharedBoard.Command
import SharedBoard.Json.Writer
import SharedBoard.Wire.Entity

/-! Outgoing frames. A command is written as the name of its kind and its parameters; a message
adds its request id.
-/

namespace SharedBoard

variable {κ : Type}

-----------------------------------------------------------------------------------------
-- Parameters
-----------------------------------------------------------------------------------------

namespace PostCreation

/-- Write the parameters of a creation. -/
def toJson (writeKey : κ → Json) (creation : PostCreation κ) : Json :=
  .obj [("id", .ofUuid creation.id), ("board_id", .ofUuid creation.board),
    ("post_group_id", .ofUuid creation.group), ("content", .str creation.content),
    ("pos_x", .ofInt32 creation.x), ("pos_y", .ofInt32 creation.y),
    ("color", creation.color.toJson), ("height", .ofInt32 creation.height),
    ("z_index", .ofInt32 creation.z), ("post_order", writeKey creation.key)]

/-- Read the parameters of a creation. -/
def ofJson? (readKey : Json → Option κ) (readColor : Json → Option Color) (document : Json)
    : Option (PostCreation κ) := do
  let fields ← document.fields?
    ["id", "board_id", "post_group_id", "content", "pos_x", "pos_y", "color", "height", "z_index",
      "post_order"]
  let id ← fields.required? "id" Json.uuid?
  let board ← fields.required? "board_id" Json.uuid?
  let group ← fields.required? "post_group_id" Json.uuid?
  let content ← fields.required? "content" Json.str?
  let x ← fields.required? "pos_x" Json.int32?
  let y ← fields.required? "pos_y" Json.int32?
  let color ← fields.required? "color" readColor
  let height ← fields.required? "height" Json.int32?
  let z ← fields.required? "z_index" Json.int32?
  let key ← fields.required? "post_order" readKey
  some ⟨id, board, group, content, x, y, color, height, z, key⟩

end PostCreation

namespace PostEdit

/-- Write a change of a post; fields that it does not set are left out. -/
def toJson (writeKey : κ → Json) (edit : PostEdit κ) : Json :=
  .obj (("id", .ofUuid edit.id) :: ("board_id", .ofUuid edit.board)
    :: Json.memberIfAny "content" .str edit.content
    ++ Json.memberIfAny "color" Color.toJson edit.color
    ++ Json.memberIfAny "height" .ofInt32 edit.height
    ++ Json.memberIfAny "post_group_id" .ofUuid edit.group
    ++ Json.memberIfAny "post_order" writeKey edit.key)

/-- Read a change of a post. -/
def ofJson? (readKey : Json → Option κ) (readColor : Json → Option Color) (document : Json)
    : Option (PostEdit κ) := do
  let fields ← document.fields?
    ["id", "board_id", "content", "color", "height", "post_group_id", "post_order"]
  let id ← fields.required? "id" Json.uuid?
  let board ← fields.required? "board_id" Json.uuid?
  let content ← fields.optional? "content" Json.str?
  let color ← fields.optional? "color" readColor
  let height ← fields.optional? "height" Json.int32?
  let group ← fields.optional? "post_group_id" Json.uuid?
  let key ← fields.optional? "post_order" readKey
  some ⟨id, board, content, color, height, group, key⟩

end PostEdit

namespace PostDetachment

/-- Write the parameters of a detachment. -/
def toJson (detachment : PostDetachment) : Json :=
  .obj [("post_id", .ofUuid detachment.post), ("board_id", .ofUuid detachment.board),
    ("post_group_id", .ofUuid detachment.group), ("pos_x", .ofInt32 detachment.x),
    ("pos_y", .ofInt32 detachment.y), ("z_index", .ofInt32 detachment.z)]

/-- Read the parameters of a detachment. -/
def ofJson? (document : Json) : Option PostDetachment := do
  let fields ← document.fields?
    ["post_id", "board_id", "post_group_id", "pos_x", "pos_y", "z_index"]
  let post ← fields.required? "post_id" Json.uuid?
  let board ← fields.required? "board_id" Json.uuid?
  let group ← fields.required? "post_group_id" Json.uuid?
  let x ← fields.required? "pos_x" Json.int32?
  let y ← fields.required? "pos_y" Json.int32?
  let z ← fields.required? "z_index" Json.int32?
  some ⟨post, board, group, x, y, z⟩

end PostDetachment

namespace GroupChange

/-- Write the parameters of a change of a group: the board beside the fields of the change. -/
def toJson (change : GroupChange) : Json :=
  .obj (("board_id", .ofUuid change.board) :: change.patch.members)

/-- Read the parameters of a change of a group at the given nesting level. -/
def ofJson? (level : Nat) (document : Json) : Option GroupChange := do
  let fields ← document.flatFields? level ["board_id"] GroupPatch.fieldNames
  let board ← fields.required? "board_id" Json.uuid?
  let patch ← GroupPatch.ofFields? fields
  some ⟨board, patch⟩

end GroupChange

-----------------------------------------------------------------------------------------
-- Commands
-----------------------------------------------------------------------------------------

namespace Command

/-- Write the parameters of a command. -/
def paramsToJson (writeKey : κ → Json) : Command κ → Json
  | .authenticate token => .obj [("jwt", .str token)]
  | .connectBoard board => .obj [("board_id", .ofUuid board)]
  | .createPost creation => creation.toJson writeKey
  | .updatePost edit => edit.toJson writeKey
  | .deletePost post board => .obj [("post_id", .ofUuid post), ("board_id", .ofUuid board)]
  | .detachPost detachment => detachment.toJson
  | .focusPost post board => .obj [("id", .ofUuid post), ("board_id", .ofUuid board)]
  | .updateGroup change => change.toJson
  | .deleteGroup group board => .obj [("post_group_id", .ofUuid group), ("board_id", .ofUuid board)]

/-- Read the parameters of a command of the given kind. Short parameter lists have no array form,
and disconnecting is not a command.
-/
def ofParams? (readKey : Json → Option κ) (readColor : Json → Option Color) (kind : EventKind)
    (params : Json)
    : Option (Command κ) :=
  match kind with
  | .userAuthenticate => do
      let fields ← params.objectFields? ["jwt"]
      (fields.required? "jwt" Json.str?).map .authenticate
  | .boardConnect => do
      let fields ← params.objectFields? ["board_id"]
      (fields.required? "board_id" Json.uuid?).map .connectBoard
  | .boardDisconnect => none
  | .postCreate => (PostCreation.ofJson? readKey readColor params).map .createPost
  | .postUpdate => (PostEdit.ofJson? readKey readColor params).map .updatePost
  | .postDelete => do
      let fields ← params.objectFields? ["post_id", "board_id"]
      let post ← fields.required? "post_id" Json.uuid?
      (fields.required? "board_id" Json.uuid?).map (.deletePost post)
  | .postDetach => (PostDetachment.ofJson? params).map .detachPost
  | .postFocus => do
      let fields ← params.objectFields? ["id", "board_id"]
      let post ← fields.required? "id" Json.uuid?
      (fields.required? "board_id" Json.uuid?).map (.focusPost post)
  | .groupUpdate => (GroupChange.ofJson? 2 params).map .updateGroup
  | .groupDelete => do
      let fields ← params.objectFields? ["post_group_id", "board_id"]
      let group ← fields.required? "post_group_id" Json.uuid?
      (fields.required? "board_id" Json.uuid?).map (.deleteGroup group)

/-- The members of a frame for a command. -/
def members (writeKey : κ → Json) (command : Command κ) : List (String × Json) :=
  [("event", .str command.kind.name), ("params", command.paramsToJson writeKey)]

def toJson (writeKey : κ → Json) (command : Command κ) : Json :=
  .obj (command.members writeKey)

/-- Whether the parameters stand before the name in a frame, so that they have to be set aside
until the name says how to read them.
-/
def paramsComeFirst : Json → Bool
  | .obj members => (members.map (·.1)).find? (["event", "params"].contains ·) == some "params"
  | _ => false

/-- Read the name of a command. In an array it has to be a string. -/
def kindOfJson? (isArray : Bool) (name : Json) : Option EventKind :=
  if isArray then name.str?.bind EventKind.ofName? else name.choice? EventKind.ofName?

def ofJson? (readKey : Json → Option κ) (document : Json) : Option (Command κ) := do
  let fields ← document.fields? ["event", "params"]
  let kind ← fields.required? "event" (kindOfJson? document.isArray)
  let params ← fields.required? "params" some
  if paramsComeFirst document then
    if params.isKeepable (Json.nestingLimit - 1) then
      ofParams? readKey Color.ofKeptJson? kind params
    else
      none
  else
    ofParams? readKey Color.ofJson? kind params

end Command

namespace Message

def toJson (writeKey : κ → Json) (message : Message κ) : Json :=
  .obj (message.command.members writeKey
    ++ Json.memberIfAny "request_id" .ofUuid message.request)

/-- The text of the frame that carries a message. -/
def toFrame (message : Message Float) : String :=
  (message.toJson Json.ofFloat).toText

end Message

end SharedBoard
