import SharedBoard.Proofs.Wire.Shape

/-! What a frame comes to. A text is an envelope or it is not; an envelope names a kind or it does
not; and so on down to the result. The first defect on this way decides, whatever comes after it.
-/

namespace SharedBoard

namespace Json

/-- Only a string has a text. -/
theorem str?_eq_some {document : Json} {text : String}
    : document.str? = some text ↔ document = .str text := by
  cases document <;> simp [str?]

/-- Only a truth value is one. -/
theorem bool?_eq_some {document : Json} {value : Bool}
    : document.bool? = some value ↔ document = .bool value := by
  cases document <;> simp [bool?]

/-- Only a null is null. -/
theorem eq_null_of_isNull {document : Json} (null : document.isNull = true) : document = .null := by
  cases document <;> first | rfl | exact absurd null Bool.false_ne_true

namespace Fields

variable {α : Type} {fields : Fields} {name : String} {read : Json → Option α}

/-- A field that has to be there is read from what stands in it. -/
theorem required?_eq_some {value : α}
    : fields.required? name read = some value
      ↔ ∃ document, fields.lookup name = some document ∧ read document = some value := by
  unfold required?
  cases fields.lookup name with
  | none => simp
  | some document => simp

/-- A field that may be lacking is nothing then, and is read from what stands in it otherwise. -/
theorem optional?_eq_some {value : Option α}
    : fields.optional? name read = some value
      ↔ Lacks (fields.lookup name) ∧ value = none
        ∨ ∃ document inside, fields.lookup name = some document ∧ document.isNull = false
          ∧ read document = some inside ∧ value = some inside := by
  constructor
  · intro atName
    cases found : fields.lookup name with
    | none =>
        have lacks : Lacks (fields.lookup name) := .inl found
        rw [Shape.optional?_of_lacks lacks] at atName
        exact .inl ⟨.inl rfl, (Option.some.inj atName).symm⟩
    | some document =>
        cases null : document.isNull with
        | true =>
            have lacks : Lacks (fields.lookup name) := .inr (eq_null_of_isNull null ▸ found)
            rw [Shape.optional?_of_lacks lacks] at atName
            exact .inl ⟨found ▸ lacks, (Option.some.inj atName).symm⟩
        | false =>
            rw [optional?, found] at atName
            simp only [nullable?_of_given null, Option.map_eq_some_iff] at atName
            obtain ⟨inside, atDocument, same⟩ := atName
            exact .inr ⟨document, inside, rfl, null, atDocument, same.symm⟩
  · rintro (⟨lacks, rfl⟩ | ⟨document, inside, found, given, atDocument, rfl⟩)
    · exact Shape.optional?_of_lacks lacks
    · rw [optional?, found]
      simp only [nullable?_of_given given, atDocument, Option.map_some]

end Fields

end Json

namespace Envelope

/-- The fields of an envelope hold what the envelope says. -/
structure HeldBy (envelope : Envelope) (fields : Json.Fields) : Prop where
  event : fields.lookup "event" = some (.str envelope.event)
  success : fields.lookup "success" = some (.bool envelope.success)
  result : Json.Lacks (fields.lookup "result") ∧ envelope.result = none
    ∨ ∃ document, fields.lookup "result" = some document ∧ document.isNull = false
      ∧ document.isKeepable (Json.nestingLimit - 1) = true
      ∧ envelope.result = some document.settled
  errorMessage : Json.Lacks (fields.lookup "error_message") ∧ envelope.errorMessage = none
    ∨ ∃ message, fields.lookup "error_message" = some (.str message)
      ∧ envelope.errorMessage = some message
  request : Json.Lacks (fields.lookup "request_id") ∧ envelope.request = none
    ∨ ∃ text id, fields.lookup "request_id" = some (.str text) ∧ Uuid.ofText? text = some id
      ∧ envelope.request = some id

/-- A text is an envelope: a document whose fields hold what the envelope says. -/
def InText (envelope : Envelope) (text : String) : Prop :=
  ∃ document fields, Json.ofText? text = some document
    ∧ document.fields? ["event", "success", "result", "error_message", "request_id"] = some fields
    ∧ envelope.HeldBy fields

/-- Fields hold an envelope exactly if each of them is read as what it says. -/
theorem heldBy_iff {envelope : Envelope} {fields : Json.Fields}
    : envelope.HeldBy fields
      ↔ fields.required? "event" Json.str? = some envelope.event
        ∧ fields.required? "success" Json.bool? = some envelope.success
        ∧ fields.optional? "result" kept? = some envelope.result
        ∧ fields.optional? "error_message" Json.str? = some envelope.errorMessage
        ∧ fields.optional? "request_id" Json.uuid? = some envelope.request := by
  have kept {document settled : Json}
      : kept? document = some settled
        ↔ document.isKeepable (Json.nestingLimit - 1) = true ∧ document.settled = settled := by
    simp [kept?]
  simp only [Json.Fields.required?_eq_some, Json.Fields.optional?_eq_some, Json.str?_eq_some,
    Json.bool?_eq_some, kept, Json.uuid?, Option.bind_eq_some_iff]
  constructor
  · intro held
    refine ⟨⟨_, held.event, rfl⟩, ⟨_, held.success, rfl⟩, ?_, ?_, ?_⟩
    · obtain lacks | ⟨document, found, given, keepable, same⟩ := held.result
      · exact .inl lacks
      · exact .inr ⟨document, _, found, given, ⟨keepable, rfl⟩, same⟩
    · obtain lacks | ⟨message, found, same⟩ := held.errorMessage
      · exact .inl lacks
      · exact .inr ⟨_, message, found, rfl, rfl, same⟩
    · obtain lacks | ⟨text, id, found, read, same⟩ := held.request
      · exact .inl lacks
      · exact .inr ⟨_, id, found, rfl, ⟨text, rfl, read⟩, same⟩
  · rintro ⟨⟨_, event, rfl⟩, ⟨_, success, rfl⟩, result, errorMessage, request⟩
    refine ⟨event, success, ?_, ?_, ?_⟩
    · obtain lacks | ⟨document, _, found, given, ⟨keepable, rfl⟩, same⟩ := result
      · exact .inl lacks
      · exact .inr ⟨document, found, given, keepable, same⟩
    · obtain lacks | ⟨_, message, found, _, rfl, same⟩ := errorMessage
      · exact .inl lacks
      · exact .inr ⟨message, found, same⟩
    · obtain lacks | ⟨_, id, found, _, ⟨text, rfl, read⟩, same⟩ := request
      · exact .inl lacks
      · exact .inr ⟨text, id, found, read, same⟩

/-- The envelope in a text is the one that is read from it, field by field. -/
theorem inText_iff {envelope : Envelope} {text : String}
    : envelope.InText text ↔ (Json.ofText? text).bind ofJson? = some envelope := by
  simp only [InText, heldBy_iff, ofJson?, Option.bind_eq_some_iff, Option.bind_eq_bind]
  constructor
  · rintro ⟨document, fields, atText, atFields, event, success, result, errorMessage, request⟩
    exact ⟨document, atText, fields, atFields, _, event, _, success, _, result, _, errorMessage, _,
      request, rfl⟩
  · rintro ⟨document, atText, fields, atFields, _, event, _, success, _, result, _, errorMessage, _,
      request, same⟩
    obtain rfl := Option.some.inj same
    exact ⟨document, fields, atText, atFields, event, success, result, errorMessage, request⟩

end Envelope

-----------------------------------------------------------------------------------------
-- Outcomes
-----------------------------------------------------------------------------------------

/-- What the text of a frame comes to, one case for each way to go on or to end. -/
inductive Inbound.Outcome (text : String) : Except FrameError (Inbound Float) → Prop
  | malformed (noEnvelope : ∀ envelope : Envelope, ¬ envelope.InText text)
    : Outcome text (.error .malformed)
  | unknownEvent {envelope : Envelope} (inText : envelope.InText text)
    (unknown : ∀ kind : EventKind, kind.name ≠ envelope.event)
    : Outcome text (.error (.unknownEvent envelope.event))
  | rejected {envelope : Envelope} (inText : envelope.InText text) {kind : EventKind}
    (known : kind.name = envelope.event) (failed : envelope.success = false)
    : Outcome text
        (.ok (.rejected kind (envelope.errorMessage.getD (kind.name ++ " failed"))
          envelope.request))
  | missingResult {envelope : Envelope} (inText : envelope.InText text) {kind : EventKind}
    (known : kind.name = envelope.event) (succeeded : envelope.success = true)
    (missing : envelope.result = none)
    : Outcome text (.error (.missingResult kind))
  | badResult {envelope : Envelope} (inText : envelope.InText text) {kind : EventKind}
    (known : kind.name = envelope.event) (succeeded : envelope.success = true) {result : Json}
    (given : envelope.result = some result)
    (unfit : ∀ event, Event.ofResult? Json.float? kind result ≠ some event)
    : Outcome text (.error (.badResult kind))
  | applied {envelope : Envelope} (inText : envelope.InText text) {kind : EventKind}
    (known : kind.name = envelope.event) (succeeded : envelope.success = true) {result : Json}
    (given : envelope.result = some result) {event : Event Float}
    (fit : Event.ofResult? Json.float? kind result = some event)
    : Outcome text (.ok (.applied event envelope.request))

/-- No kind is found by a name that no kind has. -/
theorem EventKind.ofName?_eq_none {name : String} (unknown : ∀ kind : EventKind, kind.name ≠ name)
    : EventKind.ofName? name = none := by
  refine List.find?_eq_none.mpr fun kind _ => ?_
  simpa using unknown kind

namespace Inbound

/-- A text that is an envelope is decoded as the envelope is. -/
theorem ofText_of_inText {envelope : Envelope} {text : String} (inText : envelope.InText text)
    : ofText text = ofEnvelope Json.float? envelope := by
  rw [ofText, Envelope.inText_iff.mp inText]

/-- What a text comes to is what it is decoded to, by cases on the outcome. -/
theorem Outcome.ofText_eq {text : String} {outcome : Except FrameError (Inbound Float)}
    (means : Outcome text outcome) : ofText text = outcome := by
  cases means with
  | malformed noEnvelope =>
      have none : (Json.ofText? text).bind Envelope.ofJson? = none :=
        Option.eq_none_iff_forall_ne_some.mpr fun envelope found =>
          noEnvelope envelope (Envelope.inText_iff.mpr found)
      rw [ofText, none]
  | unknownEvent inText unknown =>
      simp only [ofText_of_inText inText, ofEnvelope, EventKind.ofName?_eq_none unknown]
  | rejected inText known failed =>
      simp [ofText_of_inText inText, ofEnvelope, ← known, failed]
  | missingResult inText known succeeded missing =>
      simp [ofText_of_inText inText, ofEnvelope, ← known, succeeded, missing]
  | badResult inText known succeeded given unfit =>
      have none := Option.eq_none_iff_forall_ne_some.mpr unfit
      simp [ofText_of_inText inText, ofEnvelope, ← known, succeeded, given, none]
  | applied inText known succeeded given fit =>
      simp [ofText_of_inText inText, ofEnvelope, ← known, succeeded, given, fit]

/-- A text that is an envelope comes to what the envelope is decoded to, one check after the other.
-/
theorem outcome_ofEnvelope {envelope : Envelope} {text : String} (inText : envelope.InText text)
    : Outcome text (ofEnvelope Json.float? envelope) := by
  rw [ofEnvelope]
  split
  · next notFound =>
      refine .unknownEvent inText fun kind same => ?_
      rw [← same, EventKind.ofName?_name] at notFound
      exact absurd notFound (by simp)
  · next kind found =>
      have known := EventKind.name_of_ofName? found
      split
      · next succeeded =>
          split
          · next missing => exact .missingResult inText known succeeded missing
          · next result given =>
              split
              · next unfit =>
                  exact .badResult inText known succeeded given
                    (Option.eq_none_iff_forall_ne_some.mp unfit)
              · next event fit => exact .applied inText known succeeded given fit
      · next failed => exact .rejected inText known (Bool.not_eq_true _ ▸ failed)

/-- Every text comes to what it is decoded to. -/
theorem outcome_ofText (text : String) : Outcome text (ofText text) := by
  cases read : (Json.ofText? text).bind Envelope.ofJson? with
  | none =>
      rw [ofText, read]
      refine .malformed fun envelope inText => ?_
      rw [Envelope.inText_iff.mp inText] at read
      exact absurd read (by simp)
  | some envelope =>
      have inText := Envelope.inText_iff.mpr read
      rw [ofText_of_inText inText]
      exact outcome_ofEnvelope inText

/-- A text comes to what it is decoded to and to nothing else. -/
theorem outcome_iff {text : String} {outcome : Except FrameError (Inbound Float)}
    : Outcome text outcome ↔ ofText text = outcome :=
  ⟨Outcome.ofText_eq, fun decoded => decoded ▸ outcome_ofText text⟩

end Inbound

end SharedBoard
