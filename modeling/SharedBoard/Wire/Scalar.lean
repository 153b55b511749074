import SharedBoard.Instant.Text
import SharedBoard.Json
import SharedBoard.Uuid.Text

/-! The scalars of wire records: identifiers and instants are strings, and whole numbers have to
fit their width.
-/

namespace SharedBoard.Json

def uuid? (document : Json) : Option Uuid :=
  document.str?.bind Uuid.ofText?

def instant? (document : Json) : Option Instant :=
  document.str?.bind Instant.ofText?

/-- Read a whole number of 32 bits. -/
def int32? (document : Json) : Option Int32 :=
  document.int?.bind fun value =>
    if -2147483648 ≤ value ∧ value ≤ 2147483647 then some (Int32.ofInt value) else none

/-- Read a natural number of 16 bits. -/
def uint16? (document : Json) : Option UInt16 :=
  document.int?.bind fun value =>
    if 0 ≤ value ∧ value ≤ 65535 then some (UInt16.ofNat value.toNat) else none

def ofUuid (id : Uuid) : Json :=
  .str id.toText

def ofInstant (instant : Instant) : Json :=
  .str instant.toText

/-- Write a whole number of 32 bits. -/
def ofInt32 (value : Int32) : Json :=
  .int value.toInt

/-- Write a natural number of 16 bits. -/
def ofUInt16 (value : UInt16) : Json :=
  .int value.toNat

/-- A written identifier is read back, since its text is. -/
@[simp] theorem uuid?_ofUuid (id : Uuid)
    : (ofUuid id).uuid? = some id := by
  simp [ofUuid, uuid?, str?]

/-- A written number of 32 bits is read back, since it is within its own bounds. -/
@[simp] theorem int32?_ofInt32 (value : Int32)
    : (ofInt32 value).int32? = some value := by
  have low := Int32.le_toInt value
  have high := Int32.toInt_lt value
  simp only [ofInt32, int32?, int?, Option.bind_some]
  rw [if_pos ⟨by omega, by omega⟩]
  simp

/-- A written number of 16 bits is read back, since it is within its own bounds. -/
@[simp] theorem uint16?_ofUInt16 (value : UInt16)
    : (ofUInt16 value).uint16? = some value := by
  have high : value.toNat < 65536 := value.toNat_lt
  simp only [ofUInt16, uint16?, int?, Option.bind_some]
  rw [if_pos ⟨by omega, by omega⟩]
  simp

end SharedBoard.Json
