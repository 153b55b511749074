import SharedBoard.Proofs.Wire.Numbers
import SharedBoard.Proofs.Wire.Records

/-! What a record says does not depend on the members that it does not know. A shape names the
members that a reader knows; a document extends another one of that shape when it says the same
under all known names, at every depth, whatever stands beside them and in whatever order.
-/

namespace SharedBoard

/-- Whether a field of a record is always given. -/
inductive Presence where
  | always
  | maybe
deriving DecidableEq

/-- The shape of a document: what stands in it, and under which names. -/
inductive Shape where
  | scalar
  | number
  | list (shape : Shape)
  | record (fields : List (String × Presence × Shape))

namespace Json

/-- Strings, truth values and numbers. -/
def isScalar : Json → Bool
  | .bool _ | .int _ | .float _ | .str _ => true
  | _ => false

/-- A field is given when it is there and not null. -/
def Lacks (field : Option Json) : Prop :=
  field = none ∨ field = some .null

end Json

namespace Shape

/-- A field says the same in two records: it is lacking in both, if it may be, or it is given in
both with values that say the same.
-/
def Agree (presence : Presence) (same : Json → Json → Prop) (plain document : Option Json) : Prop :=
  (presence = .maybe ∧ Json.Lacks plain ∧ Json.Lacks document)
  ∨ ∃ inPlain inDocument,
      plain = some inPlain ∧ document = some inDocument ∧ same inPlain inDocument

/-- The names that a record knows. -/
def names (fields : List (String × Presence × Shape)) : List String :=
  fields.map (·.1)

mutual

/-- A document says what a plain one of the same shape does. Lists agree element by element. Objects
agree under their known names, none of which the document repeats; it may hold any other members.
-/
def Extends : Shape → (plain document : Json) → Prop
  | .scalar, plain, document => plain.isScalar = true ∧ document = plain
  | .number, plain, document =>
      ∃ value, plain.float? = some value ∧ document.float? = some value
  | .list shape, plain, document =>
      ∃ plains documents, plain = .arr plains ∧ document = .arr documents
        ∧ List.Forall₂ shape.Extends plains documents
  | .record fields, plain, document =>
      ∃ plains documents, plain = .obj plains ∧ document = .obj documents
        ∧ ((documents.filter fun member => (names fields).contains member.1).map (·.1)).Nodup
        ∧ FieldsExtend fields plains documents

/-- The fields of two objects say the same. -/
def FieldsExtend : List (String × Presence × Shape) → (plains documents : List (String × Json)) →
    Prop
  | [], _, _ => True
  | (name, presence, shape) :: rest, plains, documents =>
      Agree presence shape.Extends (plains.lookup name) (documents.lookup name)
        ∧ FieldsExtend rest plains documents

end

/-- Documents that say the same are both given, by cases on their shape. -/
theorem Extends.given {shape : Shape} {plain document : Json} (shown : shape.Extends plain document)
    : plain.isNull = false ∧ document.isNull = false := by
  cases shape with
  | scalar =>
      obtain ⟨scalar, rfl⟩ := shown
      cases document <;> simp_all [Json.isScalar, Json.isNull]
  | number =>
      obtain ⟨value, inPlain, inDocument⟩ := shown
      cases plain <;> cases document <;> simp_all [Json.float?, Json.isNull]
  | list shape =>
      obtain ⟨_, _, rfl, rfl, _⟩ := shown
      exact ⟨rfl, rfl⟩
  | record fields =>
      obtain ⟨_, _, rfl, rfl, _⟩ := shown
      exact ⟨rfl, rfl⟩

/-- Every field of two objects that say the same agrees, by induction over the fields. -/
theorem FieldsExtend.agree {fields : List (String × Presence × Shape)}
    {plains documents : List (String × Json)} (shown : FieldsExtend fields plains documents)
    : ∀ field ∈ fields,
        Agree field.2.1 field.2.2.Extends (plains.lookup field.1) (documents.lookup field.1) := by
  induction fields with
  | nil => simp
  | cons field rest ih =>
      obtain ⟨name, presence, shape⟩ := field
      simp only [FieldsExtend] at shown
      exact List.forall_mem_cons.mpr ⟨shown.1, ih shown.2⟩

/-- Objects say the same if every field agrees, by induction over the fields. -/
theorem fieldsExtend_of_agree {fields : List (String × Presence × Shape)}
    {plains documents : List (String × Json)}
    (agree : ∀ field ∈ fields,
      Agree field.2.1 field.2.2.Extends (plains.lookup field.1) (documents.lookup field.1))
    : FieldsExtend fields plains documents := by
  induction fields with
  | nil => simp [FieldsExtend]
  | cons field rest ih =>
      obtain ⟨name, presence, shape⟩ := field
      obtain ⟨first, others⟩ := List.forall_mem_cons.mp agree
      simp only [FieldsExtend]
      exact ⟨first, ih others⟩

-----------------------------------------------------------------------------------------
-- Settling
-----------------------------------------------------------------------------------------

/-- The values of members are found settled, by induction over the members. -/
theorem lookup_membersSettled (members : List (String × Json)) (name : String)
    : (Json.membersSettled members).lookup name = (members.lookup name).map Json.settled := by
  induction members with
  | nil => rfl
  | cons member rest ih =>
      obtain ⟨first, value⟩ := member
      rw [Json.membersSettled, List.lookup_cons, List.lookup_cons, ih]
      split <;> rfl

/-- A name that is not repeated is found where it was when repeated ones go, by induction over the
members.
-/
theorem lookup_lastOfEach {members : List (String × Json)} {known : String → Bool}
    (once : ((members.filter fun member => known member.1).map (·.1)).Nodup) {name : String}
    (isKnown : known name = true)
    : (Json.lastOfEach members).lookup name = members.lookup name := by
  induction members with
  | nil => rfl
  | cons member rest ih =>
      obtain ⟨first, value⟩ := member
      have onceLater : ((rest.filter fun member => known member.1).map (·.1)).Nodup :=
        (((List.sublist_cons_self _ rest).filter _).map _).nodup once
      have later := ih onceLater
      unfold Json.lastOfEach
      split
      · next repeated =>
          have other : (name == first) = false := by
            refine beq_eq_false_iff_ne.mpr ?_
            rintro rfl
            simp only [List.filter_cons, isKnown, if_true, List.map_cons, List.nodup_cons] at once
            obtain ⟨again, inRest, same⟩ := List.any_eq_true.mp repeated
            rw [beq_iff_eq] at same
            refine once.1 (List.mem_map.mpr ⟨again, List.mem_filter.mpr ⟨inRest, ?_⟩, same⟩)
            rw [same]
            exact isKnown
          rw [List.lookup_cons, other, later]
      · rw [List.lookup_cons, List.lookup_cons, later]

/-- The known names of an object are not repeated when its values are settled. -/
theorem nodup_settled_values {members : List (String × Json)} {known : String → Bool}
    (once : ((members.filter fun member => known member.1).map (·.1)).Nodup)
    : (((Json.membersSettled members).filter fun member => known member.1).map (·.1)).Nodup := by
  have same : ((Json.membersSettled members).filter fun member => known member.1).map (·.1)
      = (members.filter fun member => known member.1).map (·.1) := by
    rw [Json.membersSettled_eq, List.filter_map, List.map_map]
    rfl
  rw [same]
  exact once

/-- The known names of an object are not repeated when it is settled. -/
theorem nodup_settled {members : List (String × Json)} {known : String → Bool}
    (once : ((members.filter fun member => known member.1).map (·.1)).Nodup)
    : (((Json.lastOfEach (Json.membersSettled members)).filter fun member => known member.1).map
        (·.1)).Nodup :=
  (((Json.lastOfEach_sublist _).filter _).map _).nodup (nodup_settled_values once)

mutual

/-- A document that is settled says what it said before, by induction over the shape. -/
theorem Extends.settled {shape : Shape} {plain document : Json}
    (shown : shape.Extends plain document)
    : shape.Extends plain document.settled := by
  match shape with
  | .scalar =>
      obtain ⟨scalar, rfl⟩ := shown
      refine ⟨scalar, ?_⟩
      cases document <;> first | rfl | exact absurd scalar Bool.false_ne_true
  | .number =>
      obtain ⟨value, inPlain, inDocument⟩ := shown
      refine ⟨value, inPlain, ?_⟩
      cases document <;> exact inDocument
  | .list shape =>
      obtain ⟨plains, documents, rfl, rfl, each⟩ := shown
      refine ⟨plains, documents.map Json.settled, rfl, ?_, ?_⟩
      · rw [Json.settled, Json.allSettled_eq]
      · exact List.forall₂_map_right_iff.mpr (each.imp fun _ _ => Extends.settled)
  | .record fields =>
      obtain ⟨plains, documents, rfl, rfl, once, each⟩ := shown
      refine ⟨plains, _, rfl, rfl, nodup_settled once, each.settled fun name known => ?_⟩
      rw [lookup_lastOfEach (nodup_settled_values once) (List.contains_iff_mem.mpr known),
        lookup_membersSettled]

/-- Fields that are settled say what they said before, by induction over the fields. -/
theorem FieldsExtend.settled {fields : List (String × Presence × Shape)}
    {plains documents others : List (String × Json)} (each : FieldsExtend fields plains documents)
    (found : ∀ name ∈ names fields, others.lookup name = (documents.lookup name).map Json.settled)
    : FieldsExtend fields plains others := by
  match fields with
  | [] => trivial
  | (name, presence, shape) :: rest =>
      obtain ⟨first, later⟩ := each
      refine ⟨?_, later.settled fun name known => found name (List.mem_cons_of_mem _ known)⟩
      rw [found name List.mem_cons_self]
      rcases first with
        ⟨maybe, lacksPlain, lacksDocument⟩ | ⟨inPlain, inDocument, atPlain, given, same⟩
      · refine .inl ⟨maybe, lacksPlain, ?_⟩
        rcases lacksDocument with absent | null
        · exact .inl (by rw [absent]; rfl)
        · exact .inr (by rw [null]; rfl)
      · exact .inr ⟨inPlain, inDocument.settled, atPlain, by rw [given]; rfl, same.settled⟩

end

-----------------------------------------------------------------------------------------
-- Readers
-----------------------------------------------------------------------------------------

/-- A reader respects a shape when it reads from every document what it reads from a plain one that
says the same.
-/
def Respects {α : Type} (shape : Shape) (read : Json → Option α) : Prop :=
  ∀ plain document value, shape.Extends plain document → read plain = some value →
    read document = some value

/-- Every reader respects scalars, since they only say the same when they are the same. -/
theorem respects_scalar {α : Type} (read : Json → Option α) : Respects .scalar read := by
  rintro plain document value ⟨_, rfl⟩ atPlain
  exact atPlain

theorem respects_number : Respects .number Json.float? := by
  rintro plain document value ⟨number, inPlain, inDocument⟩ atPlain
  rw [inDocument, ← inPlain, atPlain]

/-- A reader of lists respects them if it respects their elements, by induction over the list. -/
theorem Respects.list {α : Type} {shape : Shape} {read : Json → Option α}
    (respects : shape.Respects read)
    : Respects (.list shape) (Json.list? read) := by
  rintro _ _ values ⟨plains, documents, rfl, rfl, each⟩ atPlain
  show documents.mapM read = some values
  replace atPlain : plains.mapM read = some values := atPlain
  induction each generalizing values with
  | nil => exact atPlain
  | cons same _ ih =>
      simp only [List.mapM_cons, Option.bind_eq_bind, Option.pure_def, Option.bind_eq_some_iff]
        at atPlain ⊢
      obtain ⟨first, atFirst, others, atOthers, whole⟩ := atPlain
      exact ⟨first, respects _ _ _ same atFirst, others, ih others atOthers, whole⟩

section

variable {α : Type} {shape : Shape} {read : Json → Option α} {found others : Json.Fields}
  {name : String}

/-- A field that has to be there is read alike from records that say the same. -/
theorem Agree.required? {value : α}
    (agree : Agree .always shape.Extends (found.lookup name) (others.lookup name))
    (respects : shape.Respects read) (atName : found.required? name read = some value)
    : others.required? name read = some value := by
  rcases agree with ⟨never, _⟩ | ⟨inFound, inOthers, atFound, atOthers, same⟩
  · exact absurd never (by decide)
  · rw [Json.Fields.required?, atFound] at atName
    rw [Json.Fields.required?, atOthers]
    exact respects _ _ _ same atName

/-- A field with a default is read alike from records that say the same. -/
theorem Agree.withDefault? {default value : α}
    (agree : Agree .always shape.Extends (found.lookup name) (others.lookup name))
    (respects : shape.Respects read) (atName : found.withDefault? name default read = some value)
    : others.withDefault? name default read = some value := by
  rcases agree with ⟨never, _⟩ | ⟨inFound, inOthers, atFound, atOthers, same⟩
  · exact absurd never (by decide)
  · rw [Json.Fields.withDefault?, atFound] at atName
    rw [Json.Fields.withDefault?, atOthers]
    exact respects _ _ _ same atName

/-- Nothing is read from a field that is lacking. -/
theorem optional?_of_lacks {fields : Json.Fields} (lacks : Json.Lacks (fields.lookup name))
    : fields.optional? name read = some none := by
  rcases lacks with absent | null
  · rw [Json.Fields.optional?, absent]
  · rw [Json.Fields.optional?, null]
    rfl

/-- A field that may be lacking is read alike from records that say the same. -/
theorem Agree.optional? {value : Option α}
    (agree : Agree .maybe shape.Extends (found.lookup name) (others.lookup name))
    (respects : shape.Respects read) (atName : found.optional? name read = some value)
    : others.optional? name read = some value := by
  rcases agree with ⟨_, lacksFound, lacksOthers⟩ | ⟨inFound, inOthers, atFound, atOthers, same⟩
  · rw [optional?_of_lacks lacksOthers, ← atName, optional?_of_lacks lacksFound]
  · obtain ⟨givenFound, givenOthers⟩ := same.given
    rw [Json.Fields.optional?, atFound] at atName
    rw [Json.Fields.optional?, atOthers]
    simp only [Json.nullable?_of_given givenFound, Option.map_eq_some_iff] at atName
    obtain ⟨inside, atInside, rfl⟩ := atName
    simp only [Json.nullable?_of_given givenOthers, respects _ _ _ same atInside, Option.map_some]

end

/-- A known name is found among the known members where it is found among all. -/
theorem lookup_filter {members : List (String × Json)} {known : String → Bool} {name : String}
    (isKnown : known name = true)
    : (members.filter fun member => known member.1).lookup name = members.lookup name := by
  induction members with
  | nil => rfl
  | cons member rest ih =>
      obtain ⟨first, value⟩ := member
      rw [List.filter_cons]
      split
      · rw [List.lookup_cons, List.lookup_cons, ih]
      · next unknown =>
          have other : (name == first) = false := by
            refine beq_eq_false_iff_ne.mpr ?_
            rintro rfl
            exact unknown isKnown
          rw [List.lookup_cons, other, ih]

/-- A known name is found in the fields of an object where it is found in the object. -/
theorem lookup_fields? {names : List String} {members : List (String × Json)} {found : Json.Fields}
    (read : (Json.obj members).fields? names = some found) {name : String} (known : name ∈ names)
    : found.lookup name = members.lookup name := by
  simp only [Json.fields?, Json.objectFields?, Option.ite_none_right_eq_some] at read
  obtain ⟨_, same⟩ := read
  obtain rfl := Option.some.inj same
  exact lookup_filter (List.contains_iff_mem.mpr known)

/-- The fields of two records that say the same say the same. -/
theorem Extends.fields? {fields : List (String × Presence × Shape)} {plain document : Json}
    (shown : (Shape.record fields).Extends plain document) {found : Json.Fields}
    (read : plain.fields? (names fields) = some found)
    : ∃ others, document.fields? (names fields) = some others
      ∧ FieldsExtend fields found others := by
  obtain ⟨plains, documents, rfl, rfl, once, each⟩ := shown
  have readOthers : (Json.obj documents).fields? (names fields) = some _ := if_pos once
  refine ⟨_, readOthers, fieldsExtend_of_agree fun field inFields => ?_⟩
  have known : field.1 ∈ names fields := List.mem_map_of_mem inFields
  rw [lookup_fields? read known, lookup_fields? readOthers known]
  exact each.agree field inFields

section

variable {α β γ : Type} {first second : String} {shape other : Shape} {read : Json → Option α}
  {readOther : Json → Option β}

/-- What is made of one field is read from what the record is known by. -/
theorem respects_one (respects : shape.Respects read) (make : α → γ)
    : Respects (.record [(first, .always, shape)]) (fun document => do
        let fields ← document.fields? [first]
        (fields.required? first read).map make) := by
  intro plain document value shown atPlain
  obtain ⟨found, atFields, atPlain⟩ := Option.bind_eq_some_iff.mp atPlain
  obtain ⟨inside, atName, rfl⟩ := Option.map_eq_some_iff.mp atPlain
  obtain ⟨others, atOthers, agree, _⟩ := shown.fields? atFields
  simp only [show document.fields? [first] = some others from atOthers,
    agree.required? respects atName, Option.bind_eq_bind, Option.bind_some, Option.map_some]

/-- What is made of two fields is read from what the record is known by. -/
theorem respects_two (respects : shape.Respects read) (respectsOther : other.Respects readOther)
    (make : α → β → γ)
    : Respects (.record [(first, .always, shape), (second, .always, other)]) (fun document => do
        let fields ← document.fields? [first, second]
        let inside ← fields.required? first read
        (fields.required? second readOther).map (make inside)) := by
  intro plain document value shown atPlain
  obtain ⟨found, atFields, atPlain⟩ := Option.bind_eq_some_iff.mp atPlain
  obtain ⟨inside, atFirst, atPlain⟩ := Option.bind_eq_some_iff.mp atPlain
  obtain ⟨beside, atSecond, rfl⟩ := Option.map_eq_some_iff.mp atPlain
  obtain ⟨others, atOthers, agree, agreeOther, _⟩ := shown.fields? atFields
  simp only [show document.fields? [first, second] = some others from atOthers,
    agree.required? respects atFirst, agreeOther.required? respectsOther atSecond,
    Option.bind_eq_bind, Option.bind_some, Option.map_some]

end

end Shape

end SharedBoard
