import SharedBoard.Json

/-! Records are written as objects. They may also be read from arrays that hold their fields in
order. Fields that a record does not know are skipped; a field it knows may stand only once.
-/

namespace SharedBoard.Json

/-- The known fields that were found, by name. -/
abbrev Fields := List (String × Json)

/-- The known fields of an object, each at most once. -/
def objectFields? (names : List String) : Json → Option Fields
  | .obj members =>
      let known := members.filter (fun member => names.contains member.1)
      if (known.map (·.1)).Nodup then some known else none
  | _ => none

/-- The fields of a record: those of an object by name, or those of an array by position. -/
def fields? (names : List String) : Json → Option Fields
  | .arr elements => if elements.length ≤ names.length then some (names.zip elements) else none
  | document => objectFields? names document

namespace Fields

/-- The value of a field that has to be there. -/
def required? {α : Type} (fields : Fields) (name : String) (read : Json → Option α) : Option α :=
  match fields.lookup name with
  | some value => read value
  | none => none

/-- The value of a field, or the given value if it is missing; a null is not missing. -/
def withDefault? {α : Type} (fields : Fields) (name : String) (default : α)
    (read : Json → Option α) : Option α :=
  match fields.lookup name with
  | some value => read value
  | none => some default

/-- The value of a field, or nothing if it is missing or null. -/
def optional? {α : Type} (fields : Fields) (name : String) (read : Json → Option α)
    : Option (Option α) :=
  match fields.lookup name with
  | some value => value.nullable? read
  | none => some none

end Fields

/-- A choice among names: the name as a string, or as the only member of an object. The value of
that member has to be one that adds nothing to the name.
-/
def choiceWith? {α : Type} (addsNothing : Json → Bool) (named : String → Option α)
    : Json → Option α
  | .str name => named name
  | .obj [(name, value)] => if addsNothing value then named name else none
  | _ => none

/-- A choice among names, where a null adds nothing. -/
def choice? {α : Type} (named : String → Option α) : Json → Option α :=
  choiceWith? isNull named

/-- A choice among names in a document that was set aside, where a null and an object without
members add nothing.
-/
def keptChoice? {α : Type} (named : String → Option α) : Json → Option α :=
  choiceWith? (fun value => value.isNull || value.isBareObject) named

/-- The member for a field that may be absent: none for nothing. -/
def memberIfAny {α : Type} (name : String) (write : α → Json) : Option α → List (String × Json)
  | none => []
  | some value => [(name, write value)]

end SharedBoard.Json
