import SharedBoard.Text.Invisible

/-! Texts in quotation marks, as messages show them. Quotation marks, backslashes and whatever
would not show are escaped.
-/

namespace SharedBoard.Text

/-- A character between quotation marks. Invisible ones are shown by their code points. -/
def quotedChar (char : Char) : List Char :=
  if char = '"' then ['\\', '"']
  else if char = '\\' then ['\\', '\\']
  else if char = '\t' then ['\\', 't']
  else if char = '\n' then ['\\', 'n']
  else if char = '\r' then ['\\', 'r']
  else if char = '\x00' then ['\\', '0']
  else if isInvisible char then ['\\', 'u', '{'] ++ Nat.toDigits 16 char.toNat ++ ['}']
  else [char]

def quoted (text : String) : String :=
  String.ofList ('"' :: text.toList.flatMap quotedChar ++ ['"'])

end SharedBoard.Text
