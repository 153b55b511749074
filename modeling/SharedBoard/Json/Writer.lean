import SharedBoard.Decimal.Shortest
import SharedBoard.Json
import SharedBoard.Uuid.Text

/-! Writing JSON text, without any blanks. Each writer puts its text in front of the text that is
to follow, so that a document is written in one pass from its end.
-/

namespace SharedBoard.Json

/-- The escape of a character in a string literal: quotes, backslashes and control characters
are escaped and all others stand for themselves.
-/
def escaped (char : Char) : List Char :=
  if char = '"' then ['\\', '"']
  else if char = '\\' then ['\\', '\\']
  else if char = '\x08' then ['\\', 'b']
  else if char = '\x0c' then ['\\', 'f']
  else if char = '\n' then ['\\', 'n']
  else if char = '\r' then ['\\', 'r']
  else if char = '\t' then ['\\', 't']
  else if char.toNat < 0x20 then ['\\', 'u'] ++ Hex.ofNat 4 char.toNat
  else [char]

def writeString (value : String) (after : List Char) : List Char :=
  '"' :: value.toList.foldr (fun char rest => escaped char ++ rest) ('"' :: after)

def writeInt (value : Int) (after : List Char) : List Char :=
  match value with
  | .ofNat number => Decimal.ofNat number ++ after
  | .negSucc number => '-' :: Decimal.ofNat (number + 1) ++ after

/-- Write a double with the fewest digits that round to it; one that is not finite is a null. -/
def writeFloat (value : Float) (after : List Char) : List Char :=
  (Decimal.ofFloat? value).getD ['n', 'u', 'l', 'l'] ++ after

mutual

/-- Write a document. A valueless node has no text of its own and is written as a null. -/
def write : Json → (after : List Char) → List Char
  | .null, after => 'n' :: 'u' :: 'l' :: 'l' :: after
  | .bool true, after => 't' :: 'r' :: 'u' :: 'e' :: after
  | .bool false, after => 'f' :: 'a' :: 'l' :: 's' :: 'e' :: after
  | .int value, after => writeInt value after
  | .float value, after => writeFloat value after
  | .str value, after => writeString value after
  | .arr [], after => '[' :: ']' :: after
  | .arr (element :: rest), after => '[' :: element.write (writeElements rest after)
  | .obj [], after => '{' :: '}' :: after
  | .obj ((name, value) :: rest), after =>
      '{' :: writeString name (':' :: value.write (writeMembers rest after))
  | .valueless, after => 'n' :: 'u' :: 'l' :: 'l' :: after

/-- Write the elements that follow the first one, and the closing bracket. -/
def writeElements : List Json → (after : List Char) → List Char
  | [], after => ']' :: after
  | element :: rest, after => ',' :: element.write (writeElements rest after)

/-- Write the members that follow the first one, and the closing brace. -/
def writeMembers : List (String × Json) → (after : List Char) → List Char
  | [], after => '}' :: after
  | (name, value) :: rest, after =>
      ',' :: writeString name (':' :: value.write (writeMembers rest after))

end

def toText (document : Json) : String :=
  String.ofList (document.write [])

end SharedBoard.Json
