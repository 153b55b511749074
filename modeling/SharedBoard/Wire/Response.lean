import SharedBoard.Wire.Entity

/-! The bodies of responses to requests for a board. -/

namespace SharedBoard

/-- The body that carries a board. -/
structure BoardResponse where
  result : Board
deriving DecidableEq

/-- The body that carries the groups of a board. -/
structure GroupsResponse (κ : Type) where
  result : List (Group κ)
deriving BEq

/-- The body of a response that reports an error. -/
structure ErrorResponse where
  status : UInt16
  message : String
deriving DecidableEq

namespace BoardResponse

def toJson (response : BoardResponse) : Json :=
  .obj [("result", response.result.toJson)]

def ofJson? (document : Json) : Option BoardResponse := do
  let fields ← document.fields? ["result"]
  (fields.required? "result" (Board.ofJson? 2)).map .mk

end BoardResponse

namespace GroupsResponse

variable {κ : Type}

def toJson (writeKey : κ → Json) (response : GroupsResponse κ) : Json :=
  .obj [("result", .ofList (Group.toJson writeKey) response.result)]

def ofJson? (readKey : Json → Option κ) (document : Json) : Option (GroupsResponse κ) := do
  let fields ← document.fields? ["result"]
  (fields.required? "result" (Json.list? (Group.ofJson? readKey))).map .mk

end GroupsResponse

namespace ErrorResponse

def toJson (response : ErrorResponse) : Json :=
  .obj [("status", .ofUInt16 response.status), ("message", .str response.message)]

def ofJson? (document : Json) : Option ErrorResponse := do
  let fields ← document.fields? ["status", "message"]
  let status ← fields.withDefault? "status" 0 Json.uint16?
  (fields.required? "message" Json.str?).map (.mk status)

end ErrorResponse

end SharedBoard
