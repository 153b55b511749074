import SharedBoard.Proofs.Json.Rereading

/-! A written document is read as itself, but for its doubles: each of them becomes what its own
text is read as. The document is read back where that is the double itself.
-/

namespace SharedBoard.Json

/-- The text of a double is a number that is read as that double. -/
def ReadsBack (value : Float) : Prop :=
  ∃ text, Decimal.ofFloat? value = some text ∧ readNumber? text = some (.float value, [])

/-- A double that is read back is finite, and its text is read as it. -/
theorem ReadsBack.finite {value : Float} (back : ReadsBack value)
    : value.isFinite = true ∧ floatAsRead value = value := by
  obtain ⟨text, written, read⟩ := back
  refine ⟨isFinite_of_ofFloat? written, ?_⟩
  rw [floatAsRead, written, Option.bind_some, read]

/-- A finite double is read back if its text is read as it. -/
theorem readsBack_iff {value : Float} (finite : value.isFinite = true)
    : ReadsBack value ↔ floatAsRead value = value := by
  refine ⟨fun back => back.finite.2, fun same => ?_⟩
  obtain ⟨text, written, read, _⟩ := exists_floatAsRead finite
  exact ⟨text, written, same ▸ read⟩

mutual

/-- A document as its text is read: its doubles become what their own texts are read as. -/
def asRead : Json → Json
  | .float value => .float (floatAsRead value)
  | .arr elements => .arr (allAsRead elements)
  | .obj members => .obj (membersAsRead members)
  | document => document

/-- The elements of an array as they are read. -/
def allAsRead : List Json → List Json
  | [] => []
  | element :: rest => element.asRead :: allAsRead rest

/-- The members of an object with their values as they are read. -/
def membersAsRead : List (String × Json) → List (String × Json)
  | [] => []
  | (name, value) :: rest => (name, value.asRead) :: membersAsRead rest

end

/-- A double that is not finite has no text, and is left as it is. -/
theorem floatAsRead_of_not_isFinite {value : Float} (infinite : ¬value.isFinite = true)
    : floatAsRead value = value := by
  have none : Decimal.ofFloat? value = none := by
    by_contra some
    obtain ⟨text, written⟩ := Option.ne_none_iff_exists'.mp some
    exact infinite (isFinite_of_ofFloat? written)
  rw [floatAsRead, none, Option.bind_none]

/-- A written double is read as the double that its text is read as. -/
@[simp] theorem asRead_ofFloat (value : Float)
    : (ofFloat value).asRead = ofFloat (floatAsRead value) := by
  by_cases finite : value.isFinite = true
  · obtain ⟨_, _, _, read⟩ := exists_floatAsRead finite
    rw [ofFloat, if_pos finite, ofFloat, if_pos read, asRead]
  · rw [floatAsRead_of_not_isFinite finite, ofFloat, if_neg finite]
    rfl

/-- Documents whose text can be read: integers have 64 bits, doubles are (held) to a condition. -/
inductive Readable (held : Float → Prop) : Json → Prop
  | null : Readable held .null
  | bool (value : Bool) : Readable held (.bool value)
  | int {value : Int} (fits : -9223372036854775808 ≤ value ∧ value < 18446744073709551616)
    : Readable held (.int value)
  | float {value : Float} (holds : held value) : Readable held (.float value)
  | str (value : String) : Readable held (.str value)
  | arr {elements : List Json} (each : ∀ element ∈ elements, Readable held element)
    : Readable held (.arr elements)
  | obj {members : List (String × Json)} (each : ∀ member ∈ members, Readable held member.2)
    : Readable held (.obj members)

/-- A document is readable under any weaker condition on its doubles. -/
theorem Readable.mono {held weaker : Float → Prop} (weak : ∀ value, held value → weaker value)
    {document : Json} (readable : document.Readable held)
    : document.Readable weaker := by
  induction readable with
  | null => exact .null
  | bool value => exact .bool value
  | int fits => exact .int fits
  | float holds => exact .float (weak _ holds)
  | str value => exact .str value
  | arr _ ih => exact .arr ih
  | obj _ ih => exact .obj ih

theorem allAsRead_eq_map (elements : List Json) : allAsRead elements = elements.map asRead := by
  induction elements with
  | nil => rfl
  | cons element rest ih => rw [allAsRead, ih, List.map_cons]

theorem membersAsRead_eq_map (members : List (String × Json))
    : membersAsRead members = members.map (fun member => (member.1, member.2.asRead)) := by
  induction members with
  | nil => rfl
  | cons member rest ih => rw [membersAsRead, ih, List.map_cons]

/-- A document whose doubles are all read back is read as itself, by induction over the document. -/
theorem Readable.asRead_eq {document : Json} (readable : document.Readable ReadsBack)
    : document.asRead = document := by
  induction readable with
  | float back => rw [asRead, back.finite.2]
  | arr _ ih => rw [asRead, allAsRead_eq_map, List.map_congr_left ih, List.map_id']
  | @obj members _ ih =>
      have same : ∀ member ∈ members, (member.1, member.2.asRead) = member :=
        fun member found => Prod.ext rfl (ih member found)
      rw [asRead, membersAsRead_eq_map, List.map_congr_left same, List.map_id']
  | _ => rfl

-----------------------------------------------------------------------------------------
-- Beginnings
-----------------------------------------------------------------------------------------

/-- The first character of a number. -/
def BeginsNumber (char : Char) : Prop :=
  char = '-' ∨ char.isDigit = true

/-- A number begins with none of the characters that begin other values. -/
theorem BeginsNumber.ne {char other : Char} (begins : BeginsNumber char) (noSign : other ≠ '-')
    (noDigit : other.isDigit = false)
    : char ≠ other := by
  rintro rfl
  rcases begins with rfl | digit
  · exact noSign rfl
  · exact Decimal.ne_of_isDigit digit noDigit rfl

/-- A value that begins like a number is read as one. -/
theorem readValue?_number {head : Char} (begins : BeginsNumber head) (fuel : Nat)
    (text : List Char)
    : readValue? (fuel + 1) (head :: text) = readNumber? (head :: text) := by
  have noBrace : head ≠ '{' := begins.ne (by decide) (by decide)
  have noBracket : head ≠ '[' := begins.ne (by decide) (by decide)
  have noQuote : head ≠ '"' := begins.ne (by decide) (by decide)
  have noNull : head ≠ 'n' := begins.ne (by decide) (by decide)
  have noTrue : head ≠ 't' := begins.ne (by decide) (by decide)
  have noFalse : head ≠ 'f' := begins.ne (by decide) (by decide)
  simp only [readValue?, noBrace, noBracket, noQuote, noNull, noTrue, noFalse, if_false]

/-- A written integer begins like a number. -/
theorem exists_writeInt (value : Int) (after : List Char)
    : ∃ head text, writeInt value after = head :: text ∧ BeginsNumber head := by
  cases value with
  | ofNat number =>
      obtain ⟨head, digits, same, digit⟩ := Decimal.exists_ofNat number
      exact ⟨head, digits ++ after, by rw [writeInt, same, List.cons_append], .inr digit⟩
  | negSucc number => exact ⟨'-', _, rfl, .inl rfl⟩

/-- The text of a finite double begins like a number, and is read alike before any text that ends a
number.
-/
theorem exists_writeFloat {value : Float} (finite : value.isFinite = true) (after : List Char)
    : ∃ head text, writeFloat value after = head :: text
      ∧ BeginsNumber head
      ∧ (EndsNumber after → readNumber? (head :: text)
        = some (.float (floatAsRead value), after)) := by
  obtain ⟨text, written, read, _⟩ := exists_floatAsRead finite
  obtain ⟨head, tail, rfl, begins⟩ := exists_of_readNumber? read
  refine ⟨head, tail ++ after, ?_, begins, fun ends => ?_⟩
  · rw [writeFloat, written, Option.getD_some, List.cons_append]
  · exact readNumber?_before ends read

/-- A written document begins with no blank and no closing bracket. -/
theorem Readable.begins {document : Json} (readable : document.Readable (·.isFinite))
    (after : List Char)
    : ∃ head text, document.write after = head :: text ∧ isSpace head = false ∧ head ≠ ']' := by
  have number {head : Char} (begins : BeginsNumber head) : isSpace head = false ∧ head ≠ ']' := by
    refine ⟨?_, begins.ne (by decide) (by decide)⟩
    have noSpace : head ≠ ' ' := begins.ne (by decide) (by decide)
    have noTab : head ≠ '\t' := begins.ne (by decide) (by decide)
    have noLine : head ≠ '\n' := begins.ne (by decide) (by decide)
    have noReturn : head ≠ '\r' := begins.ne (by decide) (by decide)
    simp [isSpace, noSpace, noTab, noLine, noReturn]
  cases readable with
  | null => exact ⟨'n', _, rfl, by decide, by decide⟩
  | bool value =>
      cases value with
      | true => exact ⟨'t', _, rfl, by decide, by decide⟩
      | false => exact ⟨'f', _, rfl, by decide, by decide⟩
  | int fits =>
      obtain ⟨head, text, same, begins⟩ := exists_writeInt _ after
      exact ⟨head, text, same, number begins⟩
  | float finite =>
      obtain ⟨head, text, same, begins, _⟩ := exists_writeFloat finite after
      exact ⟨head, text, same, number begins⟩
  | str value => exact ⟨'"', _, rfl, by decide, by decide⟩
  | @arr elements each =>
      cases elements with
      | nil => exact ⟨'[', _, rfl, by decide, by decide⟩
      | cons element rest => exact ⟨'[', _, rfl, by decide, by decide⟩
  | @obj members each =>
      cases members with
      | nil => exact ⟨'{', _, rfl, by decide, by decide⟩
      | cons member rest => exact ⟨'{', _, rfl, by decide, by decide⟩

theorem skipSpace_cons {head : Char} (visible : isSpace head = false) (text : List Char)
    : skipSpace (head :: text) = head :: text := by
  simp [skipSpace, visible]

theorem Readable.skipSpace_write {document : Json} (readable : document.Readable (·.isFinite))
    (after : List Char)
    : skipSpace (document.write after) = document.write after := by
  obtain ⟨head, text, same, visible, _⟩ := readable.begins after
  rw [same, skipSpace_cons visible]

-----------------------------------------------------------------------------------------
-- Lengths
-----------------------------------------------------------------------------------------

/-- A string only puts text in front of what follows. -/
theorem le_length_writeString (value : String) (after : List Char)
    : after.length + 2 ≤ (writeString value after).length := by
  have escapes (chars : List Char)
      : after.length + 1
        ≤ (chars.foldr (fun char rest => escaped char ++ rest) ('"' :: after)).length := by
    induction chars with
    | nil => simp
    | cons char rest ih =>
        rw [List.foldr_cons, List.length_append]
        omega
  have := escapes value.toList
  rw [writeString, List.length_cons]
  omega

mutual

/-- A document only puts text in front of what follows. -/
theorem le_length_write (document : Json) (after : List Char)
    : after.length ≤ (document.write after).length := by
  match document with
  | .null | .valueless | .bool true | .bool false | .arr [] | .obj [] =>
      simp only [write, List.length_cons]
      omega
  | .int (.ofNat number) => simp [write, writeInt]
  | .int (.negSucc number) =>
      simp [write, writeInt]
      omega
  | .float value => simp [write, writeFloat]
  | .str value =>
      have := le_length_writeString value after
      rw [write]
      omega
  | .arr (element :: rest) =>
      have first := le_length_write element (writeElements rest after)
      have others := lt_length_writeElements rest after
      rw [write, List.length_cons]
      omega
  | .obj ((name, value) :: rest) =>
      have string := le_length_writeString name (':' :: value.write (writeMembers rest after))
      have first := le_length_write value (writeMembers rest after)
      have others := lt_length_writeMembers rest after
      rw [List.length_cons] at string
      rw [write, List.length_cons]
      omega

/-- The rest of an array puts its bracket in front of what follows. -/
theorem lt_length_writeElements (elements : List Json) (after : List Char)
    : after.length < (writeElements elements after).length := by
  match elements with
  | [] => simp [writeElements]
  | element :: rest =>
      have first := le_length_write element (writeElements rest after)
      have others := lt_length_writeElements rest after
      rw [writeElements, List.length_cons]
      omega

/-- The rest of an object puts its brace in front of what follows. -/
theorem lt_length_writeMembers (members : List (String × Json)) (after : List Char)
    : after.length < (writeMembers members after).length := by
  match members with
  | [] => simp [writeMembers]
  | (name, value) :: rest =>
      have string := le_length_writeString name (':' :: value.write (writeMembers rest after))
      have first := le_length_write value (writeMembers rest after)
      have others := lt_length_writeMembers rest after
      rw [List.length_cons] at string
      rw [writeMembers, List.length_cons]
      omega

end

-----------------------------------------------------------------------------------------
-- Documents
-----------------------------------------------------------------------------------------

/-- A document is read from its text with two steps for every character of it. -/
def ReadsIn (document : Json) : Prop :=
  ∀ fuel after, EndsNumber after →
    2 * (document.write after).length + 1 ≤ fuel + 2 * after.length →
    readValue? fuel (document.write after) = some (document.asRead, after)

/-- The elements of an array are read if each of them is, by induction on the rest. -/
theorem readElements?_write {element : Json} {rest : List Json}
    (readable : ∀ other ∈ element :: rest, other.Readable (·.isFinite))
    (each : ∀ other ∈ element :: rest, other.ReadsIn) {fuel : Nat} {after : List Char}
    (enough : 2 * (element.write (writeElements rest after)).length + 2 ≤ fuel + 2 * after.length)
    : readElements? fuel (element.write (writeElements rest after))
      = some (allAsRead (element :: rest), after) := by
  induction rest generalizing element fuel with
  | nil =>
      have longer := le_length_write element (']' :: after)
      simp only [writeElements, List.length_cons] at enough longer ⊢
      obtain ⟨fuel, rfl⟩ : ∃ less, fuel = less + 1 := ⟨fuel - 1, by omega⟩
      have first := each element List.mem_cons_self fuel (']' :: after) (.cons (by decide) after)
        (by rw [List.length_cons]; omega)
      simp only [readElements?, first, Option.bind_eq_bind, Option.bind_some,
        skipSpace_cons (show isSpace ']' = false by decide), allAsRead]
  | cons next rest ih =>
      have longer := le_length_write element (',' :: next.write (writeElements rest after))
      have others := lt_length_writeElements rest after
      have nextLonger := le_length_write next (writeElements rest after)
      simp only [writeElements, List.length_cons] at enough longer ⊢
      obtain ⟨fuel, rfl⟩ : ∃ less, fuel = less + 1 := ⟨fuel - 1, by omega⟩
      have first := each element List.mem_cons_self fuel
        (',' :: next.write (writeElements rest after)) (.cons (by decide) _)
        (by rw [List.length_cons]; omega)
      have room : 2 * (next.write (writeElements rest after)).length + 2
          ≤ fuel + 2 * after.length := by
        omega
      have second := ih (fun other found => readable other (List.mem_cons_of_mem _ found))
        (fun other found => each other (List.mem_cons_of_mem _ found)) room
      have blanks := (readable next (by simp)).skipSpace_write (writeElements rest after)
      simp only [readElements?, first, Option.bind_eq_bind, Option.bind_some,
        skipSpace_cons (show isSpace ',' = false by decide), blanks, second, allAsRead]

/-- A member of an object is read with one step, whether it is the last one or others follow. -/
theorem readMembers?_member {name : String} {value : Json}
    (readable : value.Readable (·.isFinite)) (reads : value.ReadsIn) {fuel : Nat}
    {more rest : List Char} (ends : EndsNumber more)
    (enough : 2 * (value.write more).length + 1 ≤ fuel + 2 * more.length)
    : (skipSpace more = '}' :: rest →
        readMembers? (fuel + 1) (writeString name (':' :: value.write more))
          = some ([(some name, value.asRead)], rest))
      ∧ ∀ others after, skipSpace more = ',' :: rest →
          readMembers? fuel (skipSpace rest) = some (others, after) →
          readMembers? (fuel + 1) (writeString name (':' :: value.write more))
            = some ((some name, value.asRead) :: others, after) := by
  obtain ⟨text, quoted, atName⟩ := readString?_writeString name (':' :: value.write more)
  rw [quoted]
  simp only [readMembers?, afterWord?, if_true, atName, Option.bind_eq_bind, Option.bind_some,
    skipSpace_cons (show isSpace ':' = false by decide), readable.skipSpace_write,
    reads fuel more ends enough]
  constructor
  · intro closes
    simp only [closes]
  · intro others after goesOn next
    simp only [goesOn, next, Option.bind_some]

/-- The members of an object are read if each of their values is, by induction on the rest. -/
theorem readMembers?_write {name : String} {value : Json} {rest : List (String × Json)}
    (readable : ∀ other ∈ (name, value) :: rest, other.2.Readable (·.isFinite))
    (each : ∀ other ∈ (name, value) :: rest, other.2.ReadsIn) {fuel : Nat} {after : List Char}
    (enough : 2 * (writeString name (':' :: value.write (writeMembers rest after))).length
      ≤ fuel + 2 * after.length)
    : readMembers? fuel (writeString name (':' :: value.write (writeMembers rest after)))
      = some ((membersAsRead ((name, value) :: rest)).map
          (fun member => (some member.1, member.2)), after) := by
  have atValue : value.Readable (·.isFinite) := readable (name, value) List.mem_cons_self
  have reads : value.ReadsIn := each (name, value) List.mem_cons_self
  induction rest generalizing name value fuel with
  | nil =>
      have string := le_length_writeString name (':' :: value.write ('}' :: after))
      have longer := le_length_write value ('}' :: after)
      simp only [writeMembers, List.length_cons] at enough string longer ⊢
      obtain ⟨fuel, rfl⟩ : ∃ less, fuel = less + 1 := ⟨fuel - 1, by omega⟩
      have ends : EndsNumber ('}' :: after) := .cons (by decide) after
      have room : 2 * (value.write ('}' :: after)).length + 1
          ≤ fuel + 2 * ('}' :: after).length := by
        rw [List.length_cons]
        omega
      exact (readMembers?_member atValue reads ends room).1 (skipSpace_cons (by decide) after)
  | cons next rest ih =>
      obtain ⟨nextName, nextValue⟩ := next
      have others := fun other found => readable other (List.mem_cons_of_mem (name, value) found)
      have eachOther := fun other found => each other (List.mem_cons_of_mem (name, value) found)
      have nextString :=
        le_length_writeString nextName (':' :: nextValue.write (writeMembers rest after))
      have nextLonger := le_length_write nextValue (writeMembers rest after)
      have closed := lt_length_writeMembers rest after
      rw [writeMembers] at enough ⊢
      have step (fuel : Nat) (room : 2 * (writeString nextName
          (':' :: nextValue.write (writeMembers rest after))).length ≤ fuel + 2 * after.length) :=
        ih others eachOther room (others (nextName, nextValue) List.mem_cons_self)
          (eachOther (nextName, nextValue) List.mem_cons_self)
      have blanks : skipSpace (writeString nextName
          (':' :: nextValue.write (writeMembers rest after))) = writeString nextName
          (':' :: nextValue.write (writeMembers rest after)) :=
        skipSpace_cons (by decide) _
      generalize writeString nextName (':' :: nextValue.write (writeMembers rest after)) = more
        at enough nextString step blanks ⊢
      have string := le_length_writeString name (':' :: value.write (',' :: more))
      have longer := le_length_write value (',' :: more)
      simp only [List.length_cons] at string longer nextString
      obtain ⟨fuel, rfl⟩ : ∃ less, fuel = less + 1 := ⟨fuel - 1, by omega⟩
      have ends : EndsNumber (',' :: more) := .cons (by decide) more
      have room : 2 * (value.write (',' :: more)).length + 1
          ≤ fuel + 2 * (',' :: more).length := by
        rw [List.length_cons]
        omega
      refine (readMembers?_member atValue reads ends room).2 _ after
        (skipSpace_cons (by decide) more) ?_
      rw [blanks]
      exact step fuel (by omega)

/-- An object whose names all denote something has them as its names, by induction on them. -/
theorem ofMembers_map (members : List (String × Json))
    : ofMembers (members.map (fun member => (some member.1, member.2))) = .obj members := by
  have all : members.mapM some = some members := by
    induction members with
    | nil => rfl
    | cons member rest ih =>
        rw [List.mapM_cons, ih]
        rfl
  rw [ofMembers, List.mapM_map]
  simp only [Function.comp_def, Option.map_some, Prod.eta, all]

/-- A document is read if its first step reads it, since there is always fuel for one step. -/
theorem ReadsIn.of_step {document : Json}
    (step : ∀ fuel after, EndsNumber after →
      2 * (document.write after).length ≤ fuel + 2 * after.length →
      readValue? (fuel + 1) (document.write after) = some (document.asRead, after))
    : document.ReadsIn := by
  intro fuel after ends enough
  have longer := le_length_write document after
  obtain ⟨fuel, rfl⟩ : ∃ less, fuel = less + 1 := ⟨fuel - 1, by omega⟩
  exact step fuel after ends (by omega)

/-- An array is read if its elements are. -/
theorem ReadsIn.arr {elements : List Json}
    (readable : ∀ element ∈ elements, element.Readable (·.isFinite))
    (each : ∀ element ∈ elements, element.ReadsIn)
    : (Json.arr elements).ReadsIn := by
  refine .of_step fun fuel after ends enough => ?_
  cases elements with
  | nil =>
      simp [write, readValue?, skipSpace_cons (show isSpace ']' = false by decide), asRead,
        allAsRead]
  | cons element rest =>
      rw [write, List.length_cons] at enough
      have room : 2 * (element.write (writeElements rest after)).length + 2
          ≤ fuel + 2 * after.length := by
        omega
      have inside := readElements?_write readable each room
      obtain ⟨head, text, written, visible, noBracket⟩ :=
        (readable element List.mem_cons_self).begins (writeElements rest after)
      rw [write]
      rw [written] at inside ⊢
      simp [readValue?, skipSpace_cons visible, noBracket, inside, asRead]

/-- An object is read if the values of its members are. -/
theorem ReadsIn.obj {members : List (String × Json)}
    (readable : ∀ member ∈ members, member.2.Readable (·.isFinite))
    (each : ∀ member ∈ members, member.2.ReadsIn)
    : (Json.obj members).ReadsIn := by
  refine .of_step fun fuel after ends enough => ?_
  cases members with
  | nil =>
      simp [write, readValue?, skipSpace_cons (show isSpace '}' = false by decide), asRead,
        membersAsRead]
  | cons member rest =>
      obtain ⟨name, value⟩ := member
      rw [write, List.length_cons] at enough
      have room : 2 * (writeString name (':' :: value.write (writeMembers rest after))).length
          ≤ fuel + 2 * after.length := by
        omega
      have inside := readMembers?_write readable each room
      obtain ⟨text, quoted, _⟩ :=
        readString?_writeString name (':' :: value.write (writeMembers rest after))
      rw [write]
      rw [quoted] at inside ⊢
      simp only [readValue?, if_true, skipSpace_cons (show isSpace '"' = false by decide)]
      show (readMembers? fuel ('"' :: text)).map _ = _
      rw [inside, Option.map_some, ofMembers_map, asRead]

/-- A document of finite doubles is read, by induction over the document. -/
theorem Readable.readsIn {document : Json} (readable : document.Readable (·.isFinite))
    : document.ReadsIn := by
  induction readable with
  | null => exact .of_step fun fuel after _ _ => rfl
  | bool value => cases value <;> exact .of_step fun fuel after _ _ => rfl
  | @int value fits =>
      refine .of_step fun fuel after ends _ => ?_
      obtain ⟨head, text, written, begins⟩ := exists_writeInt value after
      rw [write, written, readValue?_number begins, ← written]
      exact readNumber?_writeInt fits ends
  | float finite =>
      refine .of_step fun fuel after ends _ => ?_
      obtain ⟨head, text, written, begins, read⟩ := exists_writeFloat finite after
      rw [write, written, readValue?_number begins]
      exact read ends
  | str value =>
      refine .of_step fun fuel after _ _ => ?_
      obtain ⟨text, written, read⟩ := readString?_writeString value after
      rw [write, written]
      simp [readValue?, read, asRead]
  | arr readable ih => exact .arr readable ih
  | obj readable ih => exact .obj readable ih

/-- The text of a document of finite doubles holds the document as it is read. -/
theorem Readable.ofText?_asRead {document : Json} (readable : document.Readable (·.isFinite))
    : ofText? document.toText = some document.asRead := by
  have read := readable.readsIn (2 * (document.write []).length + 2) [] .nil (by simp)
  rw [ofText?, toText, String.toList_ofList, ofChars?, readable.skipSpace_write, read]
  rfl

/-- The text of a document whose doubles are all read back holds exactly that document. -/
theorem Readable.ofText?_toText {document : Json} (readable : document.Readable ReadsBack)
    : ofText? document.toText = some document := by
  rw [(readable.mono fun _ back => back.finite.1).ofText?_asRead, readable.asRead_eq]

end SharedBoard.Json
