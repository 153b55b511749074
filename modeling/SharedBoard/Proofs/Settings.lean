import SharedBoard.Proofs.Decimal.Integer
import SharedBoard.Proofs.Uuid.Text
import SharedBoard.Settings

/-! Settings are what the variables say: a value that is there is taken at its word or refused, and
a default stands for a missing one only. The grammar of each variable is given apart from its
reader.
-/

namespace SharedBoard.Settings

open Text (Surrounds Spells)

variable {α : Type} {lookup other : String → Option String} {place : Variable} {text : String}

-----------------------------------------------------------------------------------------
-- Values
-----------------------------------------------------------------------------------------

/-- A board is named by a written form of its identifier. -/
def MeansBoard (core : List Char) (board : Option BoardId) : Prop :=
  ∃ id, board = some id ∧ Uuid.Written id core

/-- A delay is a natural number of 64 bits. -/
def MeansDelay (core : List Char) (delay : Nat) : Prop :=
  Decimal.WritesNat core delay ∧ delay < 2 ^ 64

/-- A flag is a word from one of two lists, in any letter case. -/
def MeansFlag (core : List Char) (flag : Bool) : Prop :=
  ∃ word ∈ if flag then wordsForTrue else wordsForFalse, Spells core word.toList

/-- The size of a grid is a positive integer of 32 bits. -/
def MeansGridSize (core : List Char) (size : Int32) : Prop :=
  Decimal.WritesInt core size.toInt ∧ 0 < size

theorem readBoard_eq_ok_iff {board : Option BoardId}
    : (readBoard text).map some = .ok board ↔ MeansBoard (trimmed text) board := by
  simp only [readBoard, MeansBoard, ← Uuid.ofChars?_eq_some_iff]
  cases Uuid.ofChars? (trimmed text) <;> simp [Except.map, eq_comm]

theorem readDelay_eq_ok_iff {delay : Nat}
    : readDelay text = .ok delay ↔ MeansDelay (trimmed text) delay := by
  have read := Decimal.readNat_eq_ok_iff greatestDelay (trimmed text) delay
  have bound : delay ≤ greatestDelay ↔ delay < 2 ^ 64 := by
    rw [greatestDelay]
    omega
  rw [MeansDelay, ← bound, ← read, readDelay]
  cases Decimal.readNat greatestDelay (trimmed text) <;> simp [Except.mapError]

/-- The flag words are written in small letters, by checking them. -/
theorem spells_flagWord_iff {word : String} (known : word ∈ wordsForTrue ++ wordsForFalse)
    : Spells (trimmed text) word.toList ↔ flagWord text = word := by
  have small : ∀ word ∈ wordsForTrue ++ wordsForFalse, word.toList.any Char.isUpper = false := by
    decide
  rw [Text.spells_iff (small word known), flagWord]
  constructor
  · intro spelled
    rw [spelled, String.ofList_toList]
  · rintro rfl
    rw [String.toList_ofList]

theorem meansFlag_iff {flag : Bool}
    : MeansFlag (trimmed text) flag
      ↔ flagWord text ∈ if flag then wordsForTrue else wordsForFalse := by
  constructor
  · rintro ⟨word, listed, spelled⟩
    have known : word ∈ wordsForTrue ++ wordsForFalse := by
      cases flag <;> simp_all
    rwa [(spells_flagWord_iff known).mp spelled]
  · intro listed
    have known : flagWord text ∈ wordsForTrue ++ wordsForFalse := by
      cases flag <;> simp_all
    exact ⟨flagWord text, listed, (spells_flagWord_iff known).mpr rfl⟩

/-- No word both sets and clears a flag. -/
theorem readFlag_eq_ok_iff {flag : Bool}
    : readFlag text = .ok flag ↔ MeansFlag (trimmed text) flag := by
  have apart : ∀ word ∈ wordsForTrue, word ∉ wordsForFalse := by
    decide
  rw [meansFlag_iff, readFlag]
  by_cases sets : flagWord text ∈ wordsForTrue
  · cases flag <;> simp [sets, apart _ sets]
  · by_cases clears : flagWord text ∈ wordsForFalse <;> cases flag <;> simp [sets, clears]

/-- The bounds of the reader are those of integers of 32 bits. -/
theorem readGridSize_eq_ok_iff {size : { size : Int32 // 0 < size }}
    : readGridSize text = .ok size ↔ MeansGridSize (trimmed text) size.val := by
  have read := Decimal.readInt_eq_ok_iff 2147483648 2147483647 (trimmed text)
  rw [readGridSize, MeansGridSize, and_iff_left size.property]
  constructor
  · intro accepted
    split at accepted
    case h_1 => simp at accepted
    case h_2 number same =>
      obtain ⟨writes, above, below⟩ := (read number).mp same
      split at accepted
      case isFalse => simp at accepted
      case isTrue =>
        obtain rfl := Except.ok.inj accepted
        rwa [Int32.toInt_ofInt_of_le (by omega) (by omega)]
  · intro writes
    have same := (read size.val.toInt).mpr
      ⟨writes, Int32.le_toInt size.val, Int32.toInt_le size.val⟩
    simp [same, size.property]

-----------------------------------------------------------------------------------------
-- Variables
-----------------------------------------------------------------------------------------

/-- A setting comes from its variable: it is what the value says between its blanks or, where
there is none, the default.
-/
def ComesFrom (lookup : String → Option String) (place : Variable) (default : α)
    (means : List Char → α → Prop) (value : α) : Prop :=
  match lookup place.name with
  | none => value = default
  | some text => ∃ core, Surrounds text.toList core ∧ means core value

/-- The texts that say something about a variable. -/
def IsRight : Variable → List Char → Prop
  | .board, core => ∃ board, MeansBoard core board
  | .reconnectDelay, core => ∃ delay, MeansDelay core delay
  | .snapping, core => ∃ flag, MeansFlag core flag
  | .gridSize, core => ∃ size, MeansGridSize core size
  | .socketUrl, _ => True
  | .apiUrl, _ => True

/-- A variable offends if it has a value that says nothing about it. -/
def Offends (lookup : String → Option String) (place : Variable) : Prop :=
  ∃ text core, lookup place.name = some text ∧ Surrounds text.toList core ∧ ¬ IsRight place core

/-- The variables whose values are checked, in the order that they are. -/
def checked : List Variable :=
  [.board, .reconnectDelay, .snapping, .gridSize]

/-- Settings are described by the variables if each comes from its own; addresses are taken as they
are.
-/
structure Describes (lookup : String → Option String) (settings : Settings) : Prop where
  socketUrl : settings.socketUrl = (lookup Variable.socketUrl.name).getD default.socketUrl
  apiUrl : settings.apiUrl = (lookup Variable.apiUrl.name).getD default.apiUrl
  board : ComesFrom lookup .board default.board MeansBoard settings.board
  reconnectDelay
    : ComesFrom lookup .reconnectDelay default.reconnectDelay MeansDelay settings.reconnectDelay
  isSnapping : ComesFrom lookup .snapping default.isSnapping MeansFlag settings.isSnapping
  gridSize : ComesFrom lookup .gridSize default.gridSize MeansGridSize settings.gridSize

/-- What stands between the blanks of a value is what its readers see. -/
theorem surrounds_iff_trimmed {core : List Char}
    : Surrounds text.toList core ↔ core = trimmed text := by
  rw [Text.surrounds_iff, trimmed, eq_comm]

section Reading

variable {default : α} {read : String → Except ValueError α} {means : List Char → α → Prop}
  (exact : ∀ text value, read text = .ok value ↔ means (trimmed text) value)

include exact

variable (lookup place default) in
/-- A variable is read as what it means, if that is what its values are read as. -/
theorem readVariable_eq_ok_iff (value : α)
    : readVariable lookup place default read = .ok value
      ↔ ComesFrom lookup place default means value := by
  rw [readVariable, ComesFrom]
  cases lookup place.name with
  | none => simp [eq_comm]
  | some text =>
      simp only [surrounds_iff_trimmed, exists_eq_left, ← exact]
      cases read text <;> simp [Except.mapError]

/-- A variable is refused, by its own name, if it has a value and that means nothing. -/
theorem readVariable_isError_iff
    : (∃ error, readVariable lookup place default read = .error error)
      ↔ ∃ text core, lookup place.name = some text ∧ Surrounds text.toList core
        ∧ ¬ ∃ value, means core value := by
  rw [readVariable]
  cases lookup place.name with
  | none => simp
  | some text =>
      simp only [surrounds_iff_trimmed, Option.some.injEq, exists_and_left, exists_eq_left, ← exact,
        exists_eq_left']
      cases read text <;> simp [Except.mapError]

end Reading

/-- The error of a variable names it. -/
theorem place_of_readVariable {default : α} {read : String → Except ValueError α}
    {error : SettingsError} (refused : readVariable lookup place default read = .error error)
    : error.place = place := by
  rw [readVariable] at refused
  cases missing : lookup place.name with
  | none => simp [missing] at refused
  | some text =>
      cases outcome : read text with
      | error reason =>
          simp only [missing, outcome, Except.mapError, Except.error.injEq] at refused
          rw [← refused]
      | ok value => simp [missing, outcome, Except.mapError] at refused

-----------------------------------------------------------------------------------------
-- Settings
-----------------------------------------------------------------------------------------

/-- The error of a result, if it is one. -/
def failure? {ε : Type} : Except ε α → Option ε
  | .ok _ => none
  | .error error => some error

/-- What is done in two steps is done if both are. -/
theorem exists_ok_of_bind {ε β : Type} {first : Except ε α} {next : α → Except ε β} {result : β}
    (done : first >>= next = .ok result)
    : ∃ value, first = .ok value ∧ next value = .ok result := by
  cases first with
  | error _ => cases done
  | ok value => exact ⟨value, rfl, done⟩

/-- The error that a variable makes by itself. -/
def error? (lookup : String → Option String) : Variable → Option SettingsError
  | .board =>
      failure? (readVariable lookup .board default.board
        (fun value => (readBoard value).map some))
  | .reconnectDelay =>
      failure? (readVariable lookup .reconnectDelay default.reconnectDelay readDelay)
  | .snapping => failure? (readVariable lookup .snapping default.isSnapping readFlag)
  | .gridSize =>
      failure? (readVariable lookup .gridSize ⟨default.gridSize, default.gridSize_pos⟩ readGridSize)
  | .socketUrl => none
  | .apiUrl => none

theorem failure?_eq_some_iff {ε : Type} {result : Except ε α} {error : ε}
    : failure? result = some error ↔ result = .error error := by
  cases result <;> simp [failure?]

/-- An error names the variable that makes it. -/
theorem place_of_error? {error : SettingsError} (refused : error? lookup place = some error)
    : error.place = place := by
  cases place <;> simp only [error?, failure?_eq_some_iff, reduceCtorEq] at refused
  all_goals exact place_of_readVariable refused

/-- The variables that make an error are those that offend. -/
theorem exists_error?_iff
    : (∃ error, error? lookup place = some error) ↔ Offends lookup place := by
  cases place with
  | socketUrl => simp [error?, Offends, IsRight]
  | apiUrl => simp [error?, Offends, IsRight]
  | board =>
      simp only [error?, failure?_eq_some_iff, Offends, IsRight]
      exact readVariable_isError_iff fun _ _ => readBoard_eq_ok_iff
  | reconnectDelay =>
      simp only [error?, failure?_eq_some_iff, Offends, IsRight]
      exact readVariable_isError_iff fun _ _ => readDelay_eq_ok_iff
  | snapping =>
      simp only [error?, failure?_eq_some_iff, Offends, IsRight]
      exact readVariable_isError_iff fun _ _ => readFlag_eq_ok_iff
  | gridSize =>
      have packed (core : List Char)
          : (∃ size : { size : Int32 // 0 < size }, MeansGridSize core size.val)
            ↔ ∃ size, MeansGridSize core size :=
        ⟨fun ⟨size, means⟩ => ⟨size.val, means⟩, fun ⟨size, means⟩ => ⟨⟨size, means.2⟩, means⟩⟩
      simp only [error?, failure?_eq_some_iff, Offends, IsRight, ← packed]
      exact readVariable_isError_iff fun _ _ => readGridSize_eq_ok_iff

/-- A variable makes the same error wherever it has the same value. -/
theorem error?_congr (same : other place.name = lookup place.name)
    : error? other place = error? lookup place := by
  cases place <;> simp only [error?, readVariable, same]

/-- The error of the settings is the first one that a variable makes. -/
theorem ofLookup_eq_error_iff {error : SettingsError}
    : ofLookup lookup = .error error ↔ checked.findSome? (error? lookup) = some error := by
  simp only [ofLookup, checked, List.findSome?_cons, List.findSome?_nil, error?]
  cases readVariable lookup .board default.board (fun value => (readBoard value).map some) with
  | error _ => simp [failure?, bind, Except.bind]
  | ok _ =>
  cases readVariable lookup .reconnectDelay default.reconnectDelay readDelay with
  | error _ => simp [failure?, bind, Except.bind]
  | ok _ =>
  cases readVariable lookup .snapping default.isSnapping readFlag with
  | error _ => simp [failure?, bind, Except.bind]
  | ok _ =>
  cases readVariable lookup .gridSize ⟨default.gridSize, default.gridSize_pos⟩ readGridSize with
  | error _ => simp [failure?, bind, Except.bind]
  | ok _ => simp [failure?, bind, Except.bind]

/-- A read size of a grid comes from its variable with or without the fact that it is positive. -/
theorem comesFrom_gridSize_iff {size : { size : Int32 // 0 < size }}
    : ComesFrom lookup .gridSize ⟨default.gridSize, default.gridSize_pos⟩
        (fun core size => MeansGridSize core size.val) size
      ↔ ComesFrom lookup .gridSize default.gridSize MeansGridSize size.val := by
  unfold ComesFrom
  cases lookup Variable.gridSize.name with
  | none => exact Subtype.ext_iff
  | some text => exact Iff.rfl

/-- Settings are read if they are what the variables describe. -/
theorem ofLookup_eq_ok_iff {settings : Settings}
    : ofLookup lookup = .ok settings ↔ Describes lookup settings := by
  have board := readVariable_eq_ok_iff lookup .board default.board
    fun _ _ => readBoard_eq_ok_iff
  have delay := readVariable_eq_ok_iff lookup .reconnectDelay default.reconnectDelay
    fun _ _ => readDelay_eq_ok_iff
  have flag := readVariable_eq_ok_iff lookup .snapping default.isSnapping
    fun _ _ => readFlag_eq_ok_iff
  have size (value : { size : Int32 // 0 < size })
      : readVariable lookup .gridSize ⟨default.gridSize, default.gridSize_pos⟩ readGridSize = .ok value
        ↔ ComesFrom lookup .gridSize default.gridSize MeansGridSize value.val :=
    (readVariable_eq_ok_iff lookup .gridSize _ (fun _ _ => readGridSize_eq_ok_iff) value).trans
      comesFrom_gridSize_iff
  constructor
  · intro accepted
    rw [ofLookup] at accepted
    obtain ⟨_, readBoard, accepted⟩ := exists_ok_of_bind accepted
    obtain ⟨_, readDelay, accepted⟩ := exists_ok_of_bind accepted
    obtain ⟨_, readFlag, accepted⟩ := exists_ok_of_bind accepted
    obtain ⟨_, readSize, accepted⟩ := exists_ok_of_bind accepted
    obtain rfl := Except.ok.inj accepted
    exact ⟨rfl, rfl, (board _).mp readBoard, (delay _).mp readDelay, (flag _).mp readFlag,
      (size _).mp readSize⟩
  · rintro ⟨socketUrl, apiUrl, hasBoard, hasDelay, hasFlag, hasSize⟩
    rw [ofLookup, (board _).mpr hasBoard, (delay _).mpr hasDelay, (flag _).mpr hasFlag,
      (size ⟨settings.gridSize, settings.gridSize_pos⟩).mpr hasSize]
    simp only [bind, Except.bind, ← socketUrl, ← apiUrl]

/-- A variable is the first to offend if those before it do not. -/
def FirstOffending (lookup : String → Option String) (place : Variable) : Prop :=
  ∃ earlier later, checked = earlier ++ place :: later ∧ Offends lookup place
    ∧ ∀ other ∈ earlier, ¬ Offends lookup other

theorem error?_eq_none_iff
    : error? lookup place = none ↔ ¬ Offends lookup place := by
  rw [← exists_error?_iff, Option.eq_none_iff_forall_ne_some, not_exists]

/-- The settings are refused in the name of the first variable that offends. -/
theorem ofLookup_isError_iff
    : (∃ error, ofLookup lookup = .error ⟨place, error⟩) ↔ FirstOffending lookup place := by
  simp only [ofLookup_eq_error_iff, List.findSome?_eq_some_iff, FirstOffending,
    error?_eq_none_iff]
  constructor
  · rintro ⟨error, earlier, refusing, later, shape, refused, before⟩
    obtain rfl : place = refusing := place_of_error? refused
    exact ⟨earlier, later, shape, exists_error?_iff.mp ⟨_, refused⟩, before⟩
  · rintro ⟨earlier, later, shape, offends, before⟩
    obtain ⟨error, refused⟩ := exists_error?_iff.mpr offends
    obtain rfl := place_of_error? refused
    exact ⟨error.error, earlier, error.place, later, shape, refused, before⟩

/-- Settings are read if no checked variable offends. -/
theorem ofLookup_isOk_iff
    : (∃ settings, ofLookup lookup = .ok settings) ↔ ∀ place ∈ checked, ¬ Offends lookup place := by
  have none := List.findSome?_eq_none_iff (l := checked) (p := error? lookup)
  simp only [error?_eq_none_iff] at none
  rw [← none, Option.eq_none_iff_forall_ne_some]
  simp only [ne_eq, ← ofLookup_eq_error_iff]
  cases ofLookup lookup <;> simp

/-- Nothing after the variable that settings are refused for matters. -/
theorem refused_congr {error : SettingsError} (refused : ofLookup lookup = .error error)
    : ∃ earlier later, checked = earlier ++ error.place :: later
      ∧ ∀ other : String → Option String,
        (∀ place ∈ earlier ++ [error.place], other place.name = lookup place.name) →
          ofLookup other = .error error := by
  obtain ⟨earlier, refusing, later, shape, made, before⟩ :=
    List.findSome?_eq_some_iff.mp (ofLookup_eq_error_iff.mp refused)
  obtain rfl := place_of_error? made
  refine ⟨earlier, later, shape, fun other same => ?_⟩
  rw [ofLookup_eq_error_iff, List.findSome?_eq_some_iff]
  refine ⟨earlier, error.place, later, shape, ?_, fun place member => ?_⟩
  · rw [error?_congr (same _ (by simp)), made]
  · rw [error?_congr (same place (by simp [member])), before place member]

/-- Reading settings is exact. They are read if every variable that is checked is missing or right,
and then each is what its variable says or, where that is missing, the default; otherwise they are
refused in the name of the first variable that offends, whatever stands after it.
-/
theorem ofLookup_exact (lookup : String → Option String)
    : (∀ settings, ofLookup lookup = .ok settings ↔ Describes lookup settings)
      ∧ ((∃ settings, ofLookup lookup = .ok settings)
        ↔ ∀ place ∈ checked, ¬ Offends lookup place)
      ∧ (∀ settings, ofLookup lookup = .ok settings →
        settings.grid = none ∨ ∃ cell, settings.grid = some cell ∧ 0 < cell)
      ∧ (∀ place, (∃ error, ofLookup lookup = .error ⟨place, error⟩)
        ↔ FirstOffending lookup place)
      ∧ ∀ error, ofLookup lookup = .error error →
        ∃ earlier later, checked = earlier ++ error.place :: later
          ∧ ∀ other : String → Option String,
            (∀ place ∈ earlier ++ [error.place], other place.name = lookup place.name) →
              ofLookup other = .error error := by
  refine ⟨fun _ => ofLookup_eq_ok_iff, ofLookup_isOk_iff, fun settings _ => ?_,
    fun _ => ofLookup_isError_iff, fun _ => refused_congr⟩
  rw [grid]
  split
  · exact .inr ⟨settings.gridSize, rfl, settings.gridSize_pos⟩
  · exact .inl rfl

/-- A negative delay is refused before a grid without size. -/
theorem ofLookup_exact_twoWrong
    : FirstOffending
        (fun name =>
          if name = "BOARDS_RECONNECT_MS" then some "-1"
          else if name = "BOARDS_GRID_SIZE" then some "0"
          else none)
        .reconnectDelay := by
  obtain ⟨_, _, _, refused, _⟩ := ofLookup_exact fun name =>
    if name = "BOARDS_RECONNECT_MS" then some "-1"
    else if name = "BOARDS_GRID_SIZE" then some "0"
    else none
  exact (refused .reconnectDelay).mp ⟨.notAnInteger .badDigit, by decide⟩

end SharedBoard.Settings
