import SharedBoard.Event
import SharedBoard.Json.Reader
import SharedBoard.Wire.Entity

/-! Incoming frames. A frame is an envelope that names a kind of event and says whether the
request succeeded. Its result is kept as a document until the kind says how to read it, so it is
bounded in depth and the last of several fields with one name counts.
-/

namespace SharedBoard

-----------------------------------------------------------------------------------------
-- Envelopes
-----------------------------------------------------------------------------------------

/-- A frame before its result is read. -/
structure Envelope where
  event : String
  success : Bool
  result : Option Json
  errorMessage : Option String
  request : Option RequestId

namespace Envelope

/-- A document that stands inside an envelope, if it can be kept. -/
def kept? (document : Json) : Option Json :=
  if document.isKeepable (Json.nestingLimit - 1) then some document.settled else none

def ofJson? (document : Json) : Option Envelope := do
  let fields ← document.fields? ["event", "success", "result", "error_message", "request_id"]
  let event ← fields.required? "event" Json.str?
  let success ← fields.required? "success" Json.bool?
  let result ← fields.optional? "result" kept?
  let errorMessage ← fields.optional? "error_message" Json.str?
  let request ← fields.optional? "request_id" Json.uuid?
  some ⟨event, success, result, errorMessage, request⟩

/-- Write an envelope with all its fields. -/
def toJson (envelope : Envelope) : Json :=
  .obj [("event", .str envelope.event), ("success", .bool envelope.success),
    ("result", .ofOption id envelope.result),
    ("error_message", .ofOption .str envelope.errorMessage),
    ("request_id", .ofOption .ofUuid envelope.request)]

end Envelope

-----------------------------------------------------------------------------------------
-- Results
-----------------------------------------------------------------------------------------

namespace Event

variable {κ : Type}

/-- The fields that the result of an event holds. -/
def resultMembers (writeKey : κ → Json) : Event κ → List (String × Json)
  | .authenticated user => [("user", user.toJson)]
  | .boardConnected connected newUser =>
      [("connected_users", .ofList User.toJson connected), ("new_user", newUser.toJson)]
  | .boardDisconnected user => [("user_id", .ofUuid user)]
  | .postCreated post group =>
      [("post", post.toJson writeKey), ("post_group", group.toJson writeKey)]
  | .postUpdated post old =>
      [("updated_post", post.toJson writeKey),
        ("old_post", .ofOption (Post.toJson writeKey) old)]
  | .postDeleted post => [("post", post.toJson writeKey)]
  | .postDetached post group =>
      [("post", post.toJson writeKey), ("post_group", group.toJson writeKey)]
  | .postFocused post user => [("post", post.toJson writeKey), ("user", user.toJson)]
  | .groupUpdated patch => patch.members
  | .groupDeleted group => [("id", .ofUuid group)]

/-- Read the result of a successful frame of the given kind. -/
def ofResult? (readKey : Json → Option κ) (kind : EventKind) (result : Json)
    : Option (Event κ) :=
  match kind with
  | .userAuthenticate => do
      let fields ← result.fields? ["user"]
      (fields.required? "user" User.ofJson?).map .authenticated
  | .boardConnect => do
      let fields ← result.fields? ["board_id", "connected_users", "new_user"]
      let _ ← fields.optional? "board_id" Json.uuid?
      let connected ← fields.withDefault? "connected_users" [] (Json.list? User.ofJson?)
      (fields.required? "new_user" User.ofJson?).map (.boardConnected connected)
  | .boardDisconnect => do
      let fields ← result.fields? ["user_id"]
      (fields.required? "user_id" Json.uuid?).map .boardDisconnected
  | .postCreate => do
      let fields ← result.fields? ["post", "post_group"]
      let post ← fields.required? "post" (Post.ofJson? readKey)
      (fields.required? "post_group" (Group.ofJson? readKey)).map (.postCreated post)
  | .postUpdate => do
      let fields ← result.fields? ["updated_post", "old_post"]
      let post ← fields.required? "updated_post" (Post.ofJson? readKey)
      (fields.optional? "old_post" (Post.ofJson? readKey)).map (.postUpdated post)
  | .postDelete => do
      let fields ← result.fields? ["post"]
      (fields.required? "post" (Post.ofJson? readKey)).map .postDeleted
  | .postDetach => do
      let fields ← result.fields? ["post", "post_group"]
      let post ← fields.required? "post" (Post.ofJson? readKey)
      (fields.required? "post_group" (Group.ofJson? readKey)).map (.postDetached post)
  | .postFocus => do
      let fields ← result.fields? ["post", "user"]
      let post ← fields.required? "post" (Post.ofJson? readKey)
      (fields.required? "user" User.ofJson?).map (.postFocused post)
  | .groupUpdate => (GroupPatch.ofJson? result).map .groupUpdated
  | .groupDelete => do
      let fields ← result.fields? ["id"]
      (fields.required? "id" Json.uuid?).map .groupDeleted

/-- The frame by which a server reports an event, with the request that it answers. -/
def toEnvelope (writeKey : κ → Json) (event : Event κ) (request : Option RequestId) : Envelope :=
  ⟨event.kind.name, true, some (.obj (event.resultMembers writeKey)), none, request⟩

/-- An event is of the kind whose result it was read from, by cases on the kind. -/
theorem kind_of_ofResult? {readKey : Json → Option κ} {kind : EventKind} {result : Json}
    {event : Event κ} (read : ofResult? readKey kind result = some event)
    : event.kind = kind := by
  cases kind <;>
    simp only [ofResult?, Option.bind_eq_bind, Option.bind_eq_some_iff, Option.map_eq_some_iff]
      at read <;>
    grind [Event.kind]

end Event

-----------------------------------------------------------------------------------------
-- Frames
-----------------------------------------------------------------------------------------

/-- What a frame means: an event that happened, or a request that was refused. -/
inductive Inbound (κ : Type) where
  | applied (event : Event κ) (request : Option RequestId)
  | rejected (kind : EventKind) (message : String) (request : Option RequestId)

/-- Why a frame means nothing. -/
inductive FrameError where
  | malformed
  | unknownEvent (name : String)
  | missingResult (kind : EventKind)
  | badResult (kind : EventKind)
deriving DecidableEq

/-- The wording of an error; nothing is said about text that is not JSON or does not fit. -/
def FrameError.message? : FrameError → Option String
  | .malformed => none
  | .unknownEvent name => some ("unknown event kind: " ++ name)
  | .missingResult kind => some ("successful " ++ kind.name ++ " carried no result")
  | .badResult _ => none

namespace Inbound

variable {κ : Type}

def ofEnvelope (readKey : Json → Option κ) (envelope : Envelope)
    : Except FrameError (Inbound κ) :=
  match EventKind.ofName? envelope.event with
  | none => .error (.unknownEvent envelope.event)
  | some kind =>
      if envelope.success then
        match envelope.result with
        | none => .error (.missingResult kind)
        | some result =>
            match Event.ofResult? readKey kind result with
            | none => .error (.badResult kind)
            | some event => .ok (.applied event envelope.request)
      else
        .ok (.rejected kind (envelope.errorMessage.getD (kind.name ++ " failed")) envelope.request)

/-- What the text of a frame means. -/
def ofText (text : String) : Except FrameError (Inbound Float) :=
  match (Json.ofText? text).bind Envelope.ofJson? with
  | none => .error .malformed
  | some envelope => ofEnvelope Json.float? envelope

end Inbound

end SharedBoard
