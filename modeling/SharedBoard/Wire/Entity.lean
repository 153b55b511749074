import SharedBoard.Board
import SharedBoard.Group
import SharedBoard.Json.Record
import SharedBoard.Wire.Scalar

/-! The records that wire frames and responses carry, written and read. Order keys are written
and read by a function that the caller gives, since only doubles have a wire form.

Members and changes of groups stand flat beside other fields. Such a record is set aside as a
whole before its fields are told apart, so it has to be an object whose members can all be kept.
-/

namespace SharedBoard

-----------------------------------------------------------------------------------------
-- People
-----------------------------------------------------------------------------------------

namespace User

/-- The names of the fields of a user, in order. -/
def fieldNames : List String :=
  ["id", "name", "email", "is_guest", "is_verified", "created_at", "updated_at"]

def members (user : User) : List (String × Json) :=
  [("id", .ofUuid user.id), ("name", .str user.name), ("email", .ofOption .str user.email),
    ("is_guest", .bool user.isGuest), ("is_verified", .bool user.isVerified),
    ("created_at", .ofOption .ofInstant user.createdAt),
    ("updated_at", .ofOption .ofInstant user.updatedAt)]

def toJson (user : User) : Json :=
  .obj user.members

/-- Read a user from its fields. -/
def ofFields? (fields : Json.Fields) : Option User := do
  let id ← fields.required? "id" Json.uuid?
  let name ← fields.required? "name" Json.str?
  let email ← fields.optional? "email" Json.str?
  let isGuest ← fields.withDefault? "is_guest" false Json.bool?
  let isVerified ← fields.withDefault? "is_verified" false Json.bool?
  let createdAt ← fields.optional? "created_at" Json.instant?
  let updatedAt ← fields.optional? "updated_at" Json.instant?
  some ⟨id, name, email, isGuest, isVerified, createdAt, updatedAt⟩

def ofJson? (document : Json) : Option User :=
  (document.fields? fieldNames).bind ofFields?

end User

namespace Role

/-- The name of a role in wire records. -/
def name : Role → String
  | .member => "MEMBER"
  | .admin => "ADMIN"

def ofName? (name : String) : Option Role :=
  [Role.member, Role.admin].find? (·.name == name)

def toJson (role : Role) : Json :=
  .str role.name

def ofJson? (document : Json) : Option Role :=
  document.choice? ofName?

end Role

namespace Membership

def toJson (membership : Membership) : Json :=
  .obj [("role", membership.role.toJson),
    ("added_at", .ofOption .ofInstant membership.addedAt),
    ("updated_at", .ofOption .ofInstant membership.updatedAt)]

def ofJson? (document : Json) : Option Membership := do
  let fields ← document.fields? ["role", "added_at", "updated_at"]
  let role ← fields.required? "role" Role.ofJson?
  let addedAt ← fields.optional? "added_at" Json.instant?
  let updatedAt ← fields.optional? "updated_at" Json.instant?
  some ⟨role, addedAt, updatedAt⟩

end Membership

/-- Read the fields of an object that sets all its members aside, save those with the given names.
The object stands at the given nesting level, counting itself.
-/
def Json.flatFields? (level : Nat) (direct flat : List String) (document : Json)
    : Option Json.Fields :=
  match document with
  | .obj members =>
      let aside := members.filter (fun member => !direct.contains member.1)
      if Json.membersKeepable (Json.nestingLimit - level) aside then
        document.objectFields? (direct ++ flat)
      else
        none
  | _ => none

namespace Member

/-- Write a member: the fields of the user with the membership beside them. -/
def toJson (member : Member) : Json :=
  .obj (member.user.members ++ [("membership", member.membership.toJson)])

/-- Read a member at the given nesting level. -/
def ofJson? (level : Nat) (document : Json) : Option Member := do
  let fields ← document.flatFields? level ["membership"] User.fieldNames
  let user ← User.ofFields? fields
  let membership ← fields.required? "membership" Membership.ofJson?
  some ⟨user, membership⟩

end Member

namespace Board

def toJson (board : Board) : Json :=
  .obj [("id", .ofUuid board.id), ("name", .ofOption .str board.name),
    ("description", .ofOption .str board.description), ("user_id", .ofUuid board.owner),
    ("members", .ofList Member.toJson board.members),
    ("created_at", .ofInstant board.createdAt), ("updated_at", .ofInstant board.updatedAt)]

/-- Read a board at the given nesting level. -/
def ofJson? (level : Nat) (document : Json) : Option Board := do
  let fields ← document.fields?
    ["id", "name", "description", "user_id", "members", "created_at", "updated_at"]
  let id ← fields.required? "id" Json.uuid?
  let name ← fields.optional? "name" Json.str?
  let description ← fields.optional? "description" Json.str?
  let owner ← fields.required? "user_id" Json.uuid?
  let members ← fields.withDefault? "members" [] (Json.list? (Member.ofJson? (level + 2)))
  let createdAt ← fields.required? "created_at" Json.instant?
  let updatedAt ← fields.required? "updated_at" Json.instant?
  some ⟨id, name, description, owner, members, createdAt, updatedAt⟩

end Board

-----------------------------------------------------------------------------------------
-- Posts and groups
-----------------------------------------------------------------------------------------

namespace Color

def toJson (color : Color) : Json :=
  .str color.hex

def ofJson? (document : Json) : Option Color :=
  document.choice? ofHex?

/-- Read a color in a document that was set aside. -/
def ofKeptJson? (document : Json) : Option Color :=
  document.keptChoice? ofHex?

end Color

variable {κ : Type}

namespace Post

def toJson (writeKey : κ → Json) (post : Post κ) : Json :=
  .obj [("id", .ofUuid post.id), ("board_id", .ofUuid post.board),
    ("user_id", .ofUuid post.author), ("content", .str post.content),
    ("color", post.color.toJson), ("height", .ofInt32 post.height),
    ("post_group_id", .ofUuid post.group), ("post_order", writeKey post.key),
    ("created_at", .ofInstant post.createdAt), ("updated_at", .ofInstant post.updatedAt)]

def ofJson? (readKey : Json → Option κ) (document : Json) : Option (Post κ) := do
  let fields ← document.fields?
    ["id", "board_id", "user_id", "content", "color", "height", "post_group_id", "post_order",
      "created_at", "updated_at"]
  let id ← fields.required? "id" Json.uuid?
  let board ← fields.required? "board_id" Json.uuid?
  let author ← fields.required? "user_id" Json.uuid?
  let content ← fields.required? "content" Json.str?
  let color ← fields.required? "color" Color.ofJson?
  let height ← fields.required? "height" Json.int32?
  let group ← fields.required? "post_group_id" Json.uuid?
  let key ← fields.required? "post_order" readKey
  let createdAt ← fields.required? "created_at" Json.instant?
  let updatedAt ← fields.required? "updated_at" Json.instant?
  some ⟨id, board, author, content, color, height, group, key, createdAt, updatedAt⟩

end Post

namespace Group

def toJson (writeKey : κ → Json) (group : Group κ) : Json :=
  .obj [("id", .ofUuid group.id), ("board_id", .ofUuid group.board), ("title", .str group.title),
    ("pos_x", .ofInt32 group.x), ("pos_y", .ofInt32 group.y), ("z_index", .ofInt32 group.z),
    ("posts", .ofList (Post.toJson writeKey) group.posts),
    ("created_at", .ofInstant group.createdAt), ("updated_at", .ofInstant group.updatedAt)]

def ofJson? (readKey : Json → Option κ) (document : Json) : Option (Group κ) := do
  let fields ← document.fields?
    ["id", "board_id", "title", "pos_x", "pos_y", "z_index", "posts", "created_at", "updated_at"]
  let id ← fields.required? "id" Json.uuid?
  let board ← fields.required? "board_id" Json.uuid?
  let title ← fields.withDefault? "title" "" Json.str?
  let x ← fields.required? "pos_x" Json.int32?
  let y ← fields.required? "pos_y" Json.int32?
  let z ← fields.required? "z_index" Json.int32?
  let posts ← fields.withDefault? "posts" [] (Json.list? (Post.ofJson? readKey))
  let createdAt ← fields.required? "created_at" Json.instant?
  let updatedAt ← fields.required? "updated_at" Json.instant?
  some ⟨id, board, title, x, y, z, posts, createdAt, updatedAt⟩

end Group

namespace GroupPatch

/-- The names of the fields of a change, in order. -/
def fieldNames : List String :=
  ["id", "title", "pos_x", "pos_y", "z_index", "updated_at"]

/-- The fields of a change; those that it does not set are left out. -/
def members (patch : GroupPatch) : List (String × Json) :=
  ("id", .ofUuid patch.id) :: Json.memberIfAny "title" .str patch.title
    ++ Json.memberIfAny "pos_x" .ofInt32 patch.x
    ++ Json.memberIfAny "pos_y" .ofInt32 patch.y
    ++ Json.memberIfAny "z_index" .ofInt32 patch.z
    ++ Json.memberIfAny "updated_at" .ofInstant patch.updatedAt

def toJson (patch : GroupPatch) : Json :=
  .obj patch.members

/-- Read a change from its fields. -/
def ofFields? (fields : Json.Fields) : Option GroupPatch := do
  let id ← fields.required? "id" Json.uuid?
  let title ← fields.optional? "title" Json.str?
  let x ← fields.optional? "pos_x" Json.int32?
  let y ← fields.optional? "pos_y" Json.int32?
  let z ← fields.optional? "z_index" Json.int32?
  let updatedAt ← fields.optional? "updated_at" Json.instant?
  some ⟨id, title, x, y, z, updatedAt⟩

def ofJson? (document : Json) : Option GroupPatch :=
  (document.fields? fieldNames).bind ofFields?

end GroupPatch

end SharedBoard
