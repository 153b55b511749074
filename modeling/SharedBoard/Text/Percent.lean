import SharedBoard.Uuid.Text

/-! Percent-encoding. A character that may not stand in some part of an address is written as its
bytes, each as a percent sign and two hexadecimal digits.
-/

namespace SharedBoard.Text

/-- A byte as a percent sign and two upper-case digits. -/
def percentByte (byte : UInt8) : List Char :=
  '%' :: (Hex.ofNat 2 byte.toNat).map Char.toUpper

/-- A text whose reserved characters are percent-encoded. -/
def percentEncoded (isReserved : Char → Bool) (text : List Char) : List Char :=
  text.flatMap fun char =>
    if isReserved char then (String.utf8EncodeChar char).flatMap percentByte else [char]

end SharedBoard.Text
