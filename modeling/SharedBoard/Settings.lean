import SharedBoard.Decimal.Integer
import SharedBoard.Text.Quoted
import SharedBoard.Uuid.Text

/-! Settings are read from named variables, wherever those come from. A variable that is missing
has a default; one that is there has to be right.
-/

namespace SharedBoard

/-- The variables that settings are read from. -/
inductive Variable where
  | socketUrl
  | apiUrl
  | board
  | reconnectDelay
  | snapping
  | gridSize
deriving DecidableEq, Repr

def Variable.name : Variable → String
  | .socketUrl => "BOARDS_WS_URL"
  | .apiUrl => "BOARDS_API_URL"
  | .board => "BOARDS_BOARD_ID"
  | .reconnectDelay => "BOARDS_RECONNECT_MS"
  | .snapping => "BOARDS_SNAP_TO_GRID"
  | .gridSize => "BOARDS_GRID_SIZE"

/-- What is wrong with the value of a variable. -/
inductive ValueError where
  | notAnIdentifier
  | notAnInteger (error : Decimal.IntegerError)
  | notPositive
  | notAFlag (word : String)
deriving DecidableEq

/-- The wording of an error; nothing is said about identifiers. -/
def ValueError.reason? : ValueError → Option String
  | .notAnIdentifier => none
  | .notAnInteger error => some error.message
  | .notPositive => some "must be positive"
  | .notAFlag word => some ("expected a boolean, got " ++ Text.quoted word)

/-- A variable with a wrong value. -/
structure SettingsError where
  place : Variable
  error : ValueError
deriving DecidableEq

/-- The settings of a session: where the server is, which board to open, how many milliseconds to
wait before connecting again, and the grid that drops may keep to.
-/
structure Settings where
  socketUrl : String
  apiUrl : String
  board : Option BoardId
  reconnectDelay : Nat
  isSnapping : Bool
  gridSize : Int32
  gridSize_pos : 0 < gridSize
deriving DecidableEq

namespace Settings

/-- The settings where no variable is set. -/
def default : Settings :=
  { socketUrl := "ws://localhost:8080/ws"
    apiUrl := "http://localhost:8080"
    board := none
    reconnectDelay := 1000
    isSnapping := false
    gridSize := 32
    gridSize_pos := by decide }

instance : Inhabited Settings :=
  ⟨default⟩

/-- The grid that drops keep to, if they keep to one. -/
def grid (settings : Settings) : Option Int32 :=
  if settings.isSnapping then some settings.gridSize else none

-----------------------------------------------------------------------------------------
-- Values
-----------------------------------------------------------------------------------------

/-- The characters of a value without the blanks around it. -/
def trimmed (value : String) : List Char :=
  Text.trim value.toList

def readBoard (value : String) : Except ValueError BoardId :=
  match Uuid.ofChars? (trimmed value) with
  | some id => .ok id
  | none => .error .notAnIdentifier

/-- The longest delay, the largest number of 64 bits. -/
def greatestDelay : Nat :=
  18446744073709551615

def readDelay (value : String) : Except ValueError Nat :=
  (Decimal.readNat greatestDelay (trimmed value)).mapError .notAnInteger

/-- The word that a flag is read from: letter case does not count. -/
def flagWord (value : String) : String :=
  String.ofList ((trimmed value).map Char.toLower)

/-- The words that set a flag. -/
def wordsForTrue : List String :=
  ["1", "true", "yes", "on"]

/-- The words that clear a flag; the empty word is one of them. -/
def wordsForFalse : List String :=
  ["0", "false", "no", "off", ""]

def readFlag (value : String) : Except ValueError Bool :=
  if flagWord value ∈ wordsForTrue then .ok true
  else if flagWord value ∈ wordsForFalse then .ok false
  else .error (.notAFlag (flagWord value))

/-- Read the size of a grid, which has 32 bits and is positive. -/
def readGridSize (value : String) : Except ValueError { size : Int32 // 0 < size } :=
  match Decimal.readInt 2147483648 2147483647 (trimmed value) with
  | .error error => .error (.notAnInteger error)
  | .ok size =>
      if positive : 0 < Int32.ofInt size then .ok ⟨Int32.ofInt size, positive⟩
      else .error .notPositive

-----------------------------------------------------------------------------------------
-- Variables
-----------------------------------------------------------------------------------------

/-- Read a variable, or take the default if it is missing. -/
def readVariable {α : Type} (lookup : String → Option String) (place : Variable) (default : α)
    (read : String → Except ValueError α) : Except SettingsError α :=
  match lookup place.name with
  | none => .ok default
  | some value => (read value).mapError (⟨place, ·⟩)

/-- Read the settings. The first variable with a wrong value, in the order of reading, is the
error; addresses are taken as they are.
-/
def ofLookup (lookup : String → Option String) : Except SettingsError Settings := do
  let board ← readVariable lookup .board default.board (fun value => (readBoard value).map some)
  let reconnectDelay ← readVariable lookup .reconnectDelay default.reconnectDelay readDelay
  let isSnapping ← readVariable lookup .snapping default.isSnapping readFlag
  let ⟨gridSize, gridSize_pos⟩ ←
    readVariable lookup .gridSize ⟨default.gridSize, default.gridSize_pos⟩ readGridSize
  .ok
    { socketUrl := (lookup Variable.socketUrl.name).getD default.socketUrl
      apiUrl := (lookup Variable.apiUrl.name).getD default.apiUrl
      board, reconnectDelay, isSnapping, gridSize, gridSize_pos }

end Settings

end SharedBoard
