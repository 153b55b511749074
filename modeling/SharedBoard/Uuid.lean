/-! Identifiers are 128-bit numbers. They are ordered by value, and since their written form has
a fixed width, that is the order of the written forms too.
-/

namespace SharedBoard

/-- An identifier of a board, group, post, user or request. -/
structure Uuid where
  bits : BitVec 128
deriving DecidableEq, Inhabited

namespace Uuid

def toNat (id : Uuid) : Nat :=
  id.bits.toNat

/-- The identifier with the given number, taken modulo 2 ^ 128. -/
def ofNat (number : Nat) : Uuid :=
  ⟨BitVec.ofNat 128 number⟩

instance : LT Uuid where
  lt left right := left.toNat < right.toNat

instance (left right : Uuid) : Decidable (left < right) :=
  inferInstanceAs (Decidable (left.toNat < right.toNat))

/-- Order of identifiers is order of their numbers, by definition. -/
theorem lt_iff {left right : Uuid}
    : left < right ↔ left.toNat < right.toNat :=
  Iff.rfl

/-- Identifiers with the same number are equal, by extensionality of bit vectors. -/
theorem toNat_inj {left right : Uuid}
    : left.toNat = right.toNat ↔ left = right := by
  constructor
  · intro same
    cases left
    cases right
    exact congrArg Uuid.mk (BitVec.eq_of_toNat_eq same)
  · intro same
    rw [same]

def count : Nat :=
  340282366920938463463374607431768211456

/-- The numbers of identifiers are those below their count, since bit vectors are bounded. -/
theorem toNat_lt (id : Uuid)
    : id.toNat < count :=
  id.bits.isLt

/-- Reading the number of an identifier back gives the identifier, since it fits 128 bits. -/
@[simp] theorem ofNat_toNat (id : Uuid)
    : ofNat id.toNat = id := by
  cases id
  simp [ofNat, toNat]

end Uuid

/-- The identifier of a board. -/
abbrev BoardId := Uuid

/-- The identifier of a user. -/
abbrev UserId := Uuid

/-- The identifier of a post. -/
abbrev PostId := Uuid

/-- The identifier of a group of posts. -/
abbrev GroupId := Uuid

/-- The identifier of a request, which an answer may repeat. -/
abbrev RequestId := Uuid

end SharedBoard
