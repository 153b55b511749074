import SharedBoard.Proofs.Json.Scaling
import SharedBoard.Proofs.OrderKey.Binary64
import SharedBoard.Proofs.Store.Reducer
import SharedBoard.Wire.Frame

/-! What frames bring are numbers. No literal is read as a value that is not a number, and nothing
on the way from a text to an event makes one.
-/

namespace SharedBoard

namespace Json

/-- Documents in which every double is a number. -/
inductive Numeric : Json → Prop
  | null : Numeric .null
  | bool (value : Bool) : Numeric (.bool value)
  | int (value : Int) : Numeric (.int value)
  | float {value : Float} (number : value.isNaN = false) : Numeric (.float value)
  | str (value : String) : Numeric (.str value)
  | arr {elements : List Json} (each : ∀ element ∈ elements, Numeric element)
    : Numeric (.arr elements)
  | obj {members : List (String × Json)} (each : ∀ member ∈ members, Numeric member.2)
    : Numeric (.obj members)
  | valueless : Numeric .valueless

/-- The number in such a document is a number, since whole numbers are rounded to one. -/
theorem Numeric.float? {document : Json} (numeric : document.Numeric) {value : Float}
    (read : document.float? = some value)
    : value.isNaN = false := by
  cases numeric with
  | int whole =>
      obtain rfl := Option.some.inj read
      exact OrderKey.isNaN_ofInt whole
  | float number =>
      obtain rfl := Option.some.inj read
      exact number
  | _ => simp [Json.float?] at read

-----------------------------------------------------------------------------------------
-- Reading
-----------------------------------------------------------------------------------------

/-- A magnitude with a sign is a number if it is one without. -/
theorem numeric_ofMagnitude (negative : Bool) {magnitude : Float}
    (number : magnitude.isNaN = false)
    : (ofMagnitude negative magnitude).Numeric := by
  unfold ofMagnitude
  split
  · exact .valueless
  · refine .float ?_
    cases negative with
    | false => exact number
    | true => exact OrderKey.isNaN_neg number

theorem isNaN_toFloat (number : UInt64) : number.toFloat.isNaN = false :=
  OrderKey.isNaN_pack (OrderKey.isNaN_normalize ..)

/-- The powers of ten that scale numbers are finite and not zero. -/
theorem isDivisor_powerOfTen {places : Nat} (within : places ≤ mostPlaces)
    : OrderKey.isDivisor (powerOfTen places).toModel.unpack = true := by
  obtain ⟨mantissa, exponent, rounded⟩ := roundedTo_powerOfTen within
  obtain ⟨positive, parts⟩ := rounded.parts
  rw [parts]
  rfl

/-- A number that is scaled down is a number, by induction on the steps. -/
theorem isNaN_scaleDown {steps places : Nat} {value : Float} (number : value.isNaN = false)
    (within : places ≤ mostPlaces * (steps + 1))
    : (scaleDown steps value places).isNaN = false := by
  induction steps generalizing value places with
  | zero =>
      have divisor := isDivisor_powerOfTen (show places ≤ mostPlaces by omega)
      exact OrderKey.isNaN_pack (OrderKey.isNaN_div number divisor)
  | succ steps ih =>
      unfold scaleDown
      split
      · exact number
      · have divisor := isDivisor_powerOfTen (Nat.le_refl mostPlaces)
        rw [Nat.mul_succ] at within
        exact ih (OrderKey.isNaN_pack (OrderKey.isNaN_div number divisor)) (by omega)

/-- An integer literal is a number. -/
theorem numeric_ofIntegerLiteral (negative : Bool) (number : Nat)
    : (ofIntegerLiteral negative number).Numeric := by
  unfold ofIntegerLiteral
  split
  · split
    · exact .int _
    · exact numeric_ofMagnitude true (isNaN_toFloat _)
  · exact .int _

/-- A literal with a fraction or an exponent is a number, since its scale is finite and not zero. -/
theorem numeric_ofDecimalLiteral (negative : Bool) (significand : Nat) (exponent : Int)
    : (ofDecimalLiteral negative significand exponent).Numeric := by
  have number := isNaN_toFloat significand.toUInt64
  simp only [ofDecimalLiteral]
  split
  · refine numeric_ofMagnitude negative (isNaN_scaleDown number ?_)
    have steps := Nat.div_add_mod (exponent.natAbs - 1) mostPlaces
    have rest := Nat.mod_lt (exponent.natAbs - 1) (show 0 < mostPlaces by decide)
    rw [Nat.mul_succ]
    omega
  · split
    · have factor := isDivisor_powerOfTen (show exponent.toNat ≤ mostPlaces by omega)
      exact numeric_ofMagnitude negative (OrderKey.isNaN_pack (OrderKey.isNaN_mul number factor))
    · split
      · exact numeric_ofMagnitude negative number
      · exact .valueless

/-- What is read after the sign of a number is a number, whether it is whole or not. -/
theorem numeric_of_readUnsigned? {negative : Bool} {text rest : List Char} {document : Json}
    (read : readUnsigned? negative text = some (document, rest))
    : document.Numeric := by
  simp only [readUnsigned?] at read
  split at read
  · simp at read
  · simp only [Option.bind_eq_bind, Option.bind_eq_some_iff] at read
    obtain ⟨⟨fraction, afterFraction⟩, _, ⟨power, afterPower⟩, _, read⟩ := read
    obtain ⟨rfl, _⟩ := Prod.mk.inj (Option.some.inj read)
    simp only [ofLiteral]
    split
    · exact numeric_ofIntegerLiteral ..
    · exact numeric_ofDecimalLiteral ..

theorem numeric_of_readNumber? {text rest : List Char} {document : Json}
    (read : readNumber? text = some (document, rest))
    : document.Numeric := by
  unfold readNumber? at read
  split at read <;> exact numeric_of_readUnsigned? read

/-- What a reader makes of a list comes from the members of the list, by induction. -/
theorem exists_of_mem_mapM {α β : Type} {read : α → Option β} {list : List α} {results : List β}
    (mapped : list.mapM read = some results) {result : β} (found : result ∈ results)
    : ∃ member ∈ list, read member = some result := by
  induction list generalizing results with
  | nil =>
      obtain rfl : results = [] := by simpa [eq_comm] using mapped
      exact absurd found List.not_mem_nil
  | cons head rest ih =>
      simp only [List.mapM_cons, Option.bind_eq_bind, Option.pure_def, Option.bind_eq_some_iff]
        at mapped
      obtain ⟨first, atHead, others, atRest, same⟩ := mapped
      obtain rfl := Option.some.inj same
      rcases List.mem_cons.mp found with rfl | later
      · exact ⟨head, List.mem_cons_self, atHead⟩
      · obtain ⟨member, inRest, atMember⟩ := ih atRest later
        exact ⟨member, List.mem_cons_of_mem _ inRest, atMember⟩

/-- An object is numeric when the values of its members are. -/
theorem numeric_ofMembers {members : List (Option String × Json)}
    (each : ∀ member ∈ members, member.2.Numeric)
    : (ofMembers members).Numeric := by
  unfold ofMembers
  split
  · next named pairs =>
      refine .obj fun member found => ?_
      obtain ⟨source, inMembers, same⟩ := exists_of_mem_mapM pairs found
      obtain ⟨name, _, rfl⟩ := Option.map_eq_some_iff.mp same
      exact each source inMembers
  · exact .valueless

/-- Whatever is read with some fuel is numeric, by induction on the fuel: a step hands what is left
of it to the elements of an array or the members of an object.
-/
theorem numeric_of_read (fuel : Nat)
    : (∀ text document rest, readValue? fuel text = some (document, rest) → document.Numeric)
      ∧ (∀ text elements rest,
          readElements? fuel text = some (elements, rest) → ∀ element ∈ elements, element.Numeric)
      ∧ ∀ text members rest,
          readMembers? fuel text = some (members, rest) → ∀ member ∈ members, member.2.Numeric := by
  induction fuel with
  | zero =>
      refine ⟨?_, ?_, ?_⟩
      · intro text document rest read
        simp [readValue?] at read
      · intro text elements rest read
        simp [readElements?] at read
      · intro text members rest read
        simp [readMembers?] at read
  | succ fuel ih =>
      obtain ⟨values, elements, members⟩ := ih
      refine ⟨?_, ?_, ?_⟩
      · intro text document rest read
        cases text with
        | nil => simp [readValue?] at read
        | cons head text =>
            simp only [readValue?] at read
            repeat' split at read
            · obtain ⟨rfl, _⟩ := Prod.mk.inj (Option.some.inj read)
              exact .obj (by simp)
            · obtain ⟨⟨found, left⟩, inside, same⟩ := Option.map_eq_some_iff.mp read
              obtain ⟨rfl, _⟩ := Prod.mk.inj same
              exact numeric_ofMembers (members _ found left inside)
            · obtain ⟨rfl, _⟩ := Prod.mk.inj (Option.some.inj read)
              exact .arr (by simp)
            · obtain ⟨⟨found, left⟩, inside, same⟩ := Option.map_eq_some_iff.mp read
              obtain ⟨rfl, _⟩ := Prod.mk.inj same
              exact .arr (elements _ found left inside)
            · obtain ⟨⟨value, left⟩, _, same⟩ := Option.map_eq_some_iff.mp read
              obtain ⟨rfl, _⟩ := Prod.mk.inj same
              cases value with
              | none => exact .valueless
              | some string => exact .str string
            · obtain ⟨left, _, same⟩ := Option.map_eq_some_iff.mp read
              obtain ⟨rfl, _⟩ := Prod.mk.inj same
              exact .null
            · obtain ⟨left, _, same⟩ := Option.map_eq_some_iff.mp read
              obtain ⟨rfl, _⟩ := Prod.mk.inj same
              exact .bool true
            · obtain ⟨left, _, same⟩ := Option.map_eq_some_iff.mp read
              obtain ⟨rfl, _⟩ := Prod.mk.inj same
              exact .bool false
            · exact numeric_of_readNumber? read
      · intro text found rest read
        simp only [readElements?, Option.bind_eq_bind, Option.bind_eq_some_iff] at read
        obtain ⟨⟨element, afterElement⟩, first, read⟩ := read
        have numeric := values _ element afterElement first
        split at read
        · obtain ⟨⟨others, afterOthers⟩, next, same⟩ := Option.bind_eq_some_iff.mp read
          obtain ⟨rfl, _⟩ := Prod.mk.inj (Option.some.inj same)
          exact List.forall_mem_cons.mpr ⟨numeric, elements _ others afterOthers next⟩
        · obtain ⟨rfl, _⟩ := Prod.mk.inj (Option.some.inj read)
          exact List.forall_mem_singleton.mpr numeric
        · simp at read
      · intro text found rest read
        simp only [readMembers?, Option.bind_eq_bind, Option.bind_eq_some_iff] at read
        obtain ⟨_, _, ⟨name, afterName⟩, _, _, _, ⟨value, afterValue⟩, first, read⟩ := read
        have numeric := values _ value afterValue first
        split at read
        · obtain ⟨⟨others, afterOthers⟩, next, same⟩ := Option.bind_eq_some_iff.mp read
          obtain ⟨rfl, _⟩ := Prod.mk.inj (Option.some.inj same)
          exact List.forall_mem_cons.mpr ⟨numeric, members _ others afterOthers next⟩
        · obtain ⟨rfl, _⟩ := Prod.mk.inj (Option.some.inj read)
          exact List.forall_mem_singleton.mpr numeric
        · simp at read

/-- The document in a text is numeric. -/
theorem numeric_of_ofText? {text : String} {document : Json} (read : ofText? text = some document)
    : document.Numeric := by
  unfold ofText? ofChars? at read
  split at read
  · next found rest value =>
      split at read
      · obtain rfl := Option.some.inj read
        exact (numeric_of_read _).1 _ found rest value
      · simp at read
  · simp at read

theorem allSettled_eq (elements : List Json) : allSettled elements = elements.map settled := by
  induction elements with
  | nil => rfl
  | cons head rest ih => rw [allSettled, ih, List.map_cons]

theorem membersSettled_eq (members : List (String × Json))
    : membersSettled members = members.map (fun member => (member.1, member.2.settled)) := by
  induction members with
  | nil => rfl
  | cons head rest ih => rw [membersSettled, ih, List.map_cons]

/-- What is left when repeated names go was there before, by induction over the members. -/
theorem lastOfEach_sublist (members : List (String × Json))
    : (lastOfEach members).Sublist members := by
  induction members with
  | nil => exact List.Sublist.refl []
  | cons head rest ih =>
      unfold lastOfEach
      split
      · exact ih.cons _
      · exact ih.cons_cons _

/-- A numeric document stays numeric when it is settled, by induction over the document. -/
theorem Numeric.settled {document : Json} (numeric : document.Numeric)
    : document.settled.Numeric := by
  induction numeric with
  | arr _ ih =>
      rw [Json.settled, allSettled_eq]
      refine .arr fun element found => ?_
      obtain ⟨source, inside, rfl⟩ := List.mem_map.mp found
      exact ih source inside
  | obj _ ih =>
      rw [Json.settled, membersSettled_eq]
      refine .obj fun member found => ?_
      obtain ⟨source, inside, rfl⟩ := List.mem_map.mp ((lastOfEach_sublist _).subset found)
      exact ih source inside
  | float number => exact .float number
  | null => exact .null
  | bool value => exact .bool value
  | int value => exact .int value
  | str value => exact .str value
  | valueless => exact .valueless

-----------------------------------------------------------------------------------------
-- Records
-----------------------------------------------------------------------------------------

/-- The fields of a numeric record are numeric, whether it is an object or an array. -/
theorem Numeric.fields? {document : Json} (numeric : document.Numeric) {names : List String}
    {fields : Fields} (read : document.fields? names = some fields)
    : ∀ field ∈ fields, field.2.Numeric := by
  cases numeric with
  | arr each =>
      simp only [Json.fields?, Option.ite_none_right_eq_some] at read
      obtain ⟨_, same⟩ := read
      obtain rfl := Option.some.inj same
      intro field found
      exact each field.2 (List.of_mem_zip found).2
  | obj each =>
      simp only [Json.fields?, objectFields?, Option.ite_none_right_eq_some] at read
      obtain ⟨_, same⟩ := read
      obtain rfl := Option.some.inj same
      intro field found
      exact each field (List.mem_of_mem_filter found)
  | _ => simp [Json.fields?, objectFields?] at read

namespace Fields

variable {α : Type} {fields : Fields} {name : String} {read : Json → Option α} {value : α}

/-- The value of a required field is what a numeric document is read as. -/
theorem exists_of_required? (numeric : ∀ field ∈ fields, field.2.Numeric)
    (found : fields.required? name read = some value)
    : ∃ document, document.Numeric ∧ read document = some value := by
  unfold required? at found
  split at found
  · next document atName =>
      obtain ⟨before, after, rfl, _⟩ := List.lookup_eq_some_iff.mp atName
      exact ⟨document, numeric (name, document) (by simp), found⟩
  · simp at found

/-- The value of an optional field that is there is what a numeric document is read as. -/
theorem exists_of_optional? (numeric : ∀ field ∈ fields, field.2.Numeric)
    (found : fields.optional? name read = some (some value))
    : ∃ document, document.Numeric ∧ read document = some value := by
  unfold optional? at found
  split at found
  · next document atName =>
      obtain ⟨before, after, rfl, _⟩ := List.lookup_eq_some_iff.mp atName
      refine ⟨document, numeric (name, document) (by simp), ?_⟩
      unfold nullable? at found
      split at found
      · simp at found
      · simpa using found
  · simp at found

end Fields

end Json

/-- The key of a post in a numeric document is a number. -/
theorem Post.number_of_ofJson? {document : Json} (numeric : document.Numeric) {post : Post Float}
    (read : Post.ofJson? Json.float? document = some post)
    : (post.key == post.key) = true := by
  simp only [Post.ofJson?, Option.bind_eq_bind, Option.bind_eq_some_iff, Option.some.injEq] at read
  obtain ⟨fields, atFields, id, _, board, _, author, _, content, _, color, _, height, _, group, _,
    key, atKey, createdAt, _, updatedAt, _, rfl⟩ := read
  obtain ⟨value, valueNumeric, atValue⟩ :=
    Json.Fields.exists_of_required? (numeric.fields? atFields) atKey
  exact OrderKey.beq_self_iff.mpr (valueNumeric.float? atValue)

/-- The posts that an event in a numeric result brings have numbers as keys, by cases on the kind.
-/
theorem Event.numbers_of_ofResult? {kind : EventKind} {result : Json} (numeric : result.Numeric)
    {event : Event Float} (read : Event.ofResult? Json.float? kind result = some event)
    : ∀ post ∈ event.arrivals, (post.key == post.key) = true := by
  have number {fields : Json.Fields} {names : List String} {name : String} {post : Post Float}
      (atFields : result.fields? names = some fields)
      (atPost : fields.required? name (Post.ofJson? Json.float?) = some post)
      : (post.key == post.key) = true := by
    obtain ⟨document, documentNumeric, atDocument⟩ :=
      Json.Fields.exists_of_required? (numeric.fields? atFields) atPost
    exact Post.number_of_ofJson? documentNumeric atDocument
  cases kind <;>
    simp only [ofResult?, Option.bind_eq_bind, Option.bind_eq_some_iff, Option.map_eq_some_iff]
      at read
  case postCreate =>
    obtain ⟨fields, atFields, post, atPost, group, _, rfl⟩ := read
    exact List.forall_mem_singleton.mpr (number atFields atPost)
  case postUpdate =>
    obtain ⟨fields, atFields, post, atPost, old, _, rfl⟩ := read
    exact List.forall_mem_singleton.mpr (number atFields atPost)
  case postDetach =>
    obtain ⟨fields, atFields, post, atPost, group, _, rfl⟩ := read
    exact List.forall_mem_singleton.mpr (number atFields atPost)
  all_goals
    have none : event.arrivals = [] := by grind [arrivals]
    rw [none]
    exact fun post found => absurd found List.not_mem_nil

/-- The result that an envelope in a numeric document keeps is numeric. -/
theorem Envelope.numeric_of_ofJson? {document : Json} (numeric : document.Numeric)
    {envelope : Envelope} (read : Envelope.ofJson? document = some envelope) {result : Json}
    (kept : envelope.result = some result)
    : result.Numeric := by
  simp only [ofJson?, Option.bind_eq_bind, Option.bind_eq_some_iff, Option.some.injEq] at read
  obtain ⟨fields, atFields, name, _, success, _, result?, atResult, errorMessage, _, answer, _,
    rfl⟩ := read
  obtain rfl : result? = some result := kept
  obtain ⟨source, sourceNumeric, atSource⟩ :=
    Json.Fields.exists_of_optional? (numeric.fields? atFields) atResult
  simp only [kept?, Option.ite_none_right_eq_some] at atSource
  obtain ⟨_, same⟩ := atSource
  obtain rfl := Option.some.inj same
  exact sourceNumeric.settled

/-- The posts that a frame brings have numbers as keys, since everything in its text is read as
one.
-/
theorem Inbound.numbers_of_ofText? {text : String} {event : Event Float}
    {request : Option RequestId} (read : Inbound.ofText text = .ok (.applied event request))
    : ∀ post ∈ event.arrivals, (post.key == post.key) = true := by
  unfold ofText at read
  split at read
  · simp at read
  · next envelope atText =>
      obtain ⟨document, atDocument, atEnvelope⟩ := Option.bind_eq_some_iff.mp atText
      have numeric := Json.numeric_of_ofText? atDocument
      unfold ofEnvelope at read
      split at read
      · simp at read
      · split at read
        · split at read
          · simp at read
          · next result kept =>
              split at read
              · simp at read
              · next found atEvent =>
                  obtain ⟨rfl, _⟩ := Inbound.applied.inj (Except.ok.inj read)
                  exact Event.numbers_of_ofResult?
                    (Envelope.numeric_of_ofJson? numeric atEnvelope kept) atEvent
        · simp at read

end SharedBoard
