/-! Wire frames are JSON. Besides the usual values there is a valueless node: a literal that is
well formed but denotes nothing, such as a string with half a surrogate pair or a number too
large for a double. It can be skipped as an unknown field but never read or kept.
-/

namespace SharedBoard

/-- A JSON document. Objects keep their members in order, repeated names included. -/
inductive Json where
  | null
  | bool (value : Bool)
  | int (value : Int)
  | float (value : Float)
  | str (value : String)
  | arr (elements : List Json)
  | obj (members : List (String × Json))
  | valueless
deriving Inhabited, BEq

namespace Json

mutual

/-- A document can be kept when nothing in it is valueless and its arrays and objects are nested
at most (room) levels deep.
-/
def isKeepable (room : Nat) : Json → Bool
  | .valueless => false
  | .arr elements => 0 < room && areKeepable (room - 1) elements
  | .obj members => 0 < room && membersKeepable (room - 1) members
  | _ => true

/-- All elements of an array can be kept. -/
def areKeepable (room : Nat) : List Json → Bool
  | [] => true
  | element :: rest => isKeepable room element && areKeepable room rest

/-- All values of an object's members can be kept. -/
def membersKeepable (room : Nat) : List (String × Json) → Bool
  | [] => true
  | (_, value) :: rest => isKeepable room value && membersKeepable room rest

end

/-- The members of an object where of several with one name only the last is left. -/
def lastOfEach : List (String × Json) → List (String × Json)
  | [] => []
  | (name, value) :: rest =>
      if rest.any (·.1 == name) then lastOfEach rest else (name, value) :: lastOfEach rest

mutual

/-- A document in which no object repeats a name: the last of several members stays. -/
def settled : Json → Json
  | .arr elements => .arr (allSettled elements)
  | .obj members => .obj (lastOfEach (membersSettled members))
  | document => document

/-- The elements of an array, settled. -/
def allSettled : List Json → List Json
  | [] => []
  | element :: rest => element.settled :: allSettled rest

/-- The members of an object with their values settled. -/
def membersSettled : List (String × Json) → List (String × Json)
  | [] => []
  | (name, value) :: rest => (name, value.settled) :: membersSettled rest

end

/-- The nesting limit of documents that are kept. -/
def nestingLimit : Nat :=
  127

def isNull : Json → Bool
  | .null => true
  | _ => false

/-- Whether a document is an array. -/
def isArray : Json → Bool
  | .arr _ => true
  | _ => false

/-- Whether a document is an object without members. -/
def isBareObject : Json → Bool
  | .obj [] => true
  | _ => false

/-- The text of a string, if the document is one. -/
def str? : Json → Option String
  | .str value => some value
  | _ => none

/-- The truth value, if the document is one. -/
def bool? : Json → Option Bool
  | .bool value => some value
  | _ => none

/-- The integer, if the document is one. -/
def int? : Json → Option Int
  | .int value => some value
  | _ => none

def float? : Json → Option Float
  | .int value => some (Float.ofInt value)
  | .float value => some value
  | _ => none

/-- The elements of an array, each read in the same way. -/
def list? {α : Type} (read : Json → Option α) : Json → Option (List α)
  | .arr elements => elements.mapM read
  | _ => none

/-- Nothing for a null, otherwise the value that it is read as. -/
def nullable? {α : Type} (read : Json → Option α) : Json → Option (Option α)
  | .null => some none
  | document => (read document).map some

/-- A finite double as a number, any other as a null. -/
def ofFloat (value : Float) : Json :=
  if value.isFinite then .float value else .null

/-- A null for nothing, otherwise the value written. -/
def ofOption {α : Type} (write : α → Json) : Option α → Json
  | none => .null
  | some value => write value

/-- An array of values, each written in the same way. -/
def ofList {α : Type} (write : α → Json) (values : List α) : Json :=
  .arr (values.map write)

end Json

end SharedBoard
