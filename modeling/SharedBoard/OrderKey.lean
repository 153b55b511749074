/-! Order keys put the posts of a group into a sequence. A key is found between any two keys, so
a post can be placed anywhere without touching the others. The rules are the same for doubles,
which the wire carries, and for exact rationals, on which they never run out of room.
-/

namespace SharedBoard

/-- Numbers that can serve as order keys. Equality and order are numeric: doubles have two equal
zeros and a value that equals nothing.
-/
class OrderKey (κ : Type) extends Add κ, Sub κ, BEq κ, LT κ, Zero κ, One κ where
  /-- Half of a key. -/
  half : κ → κ
  /-- The total order in which whole groups are sorted. -/
  sortsBefore : κ → κ → Bool
  /-- The numeric order can be decided. -/
  decidableLt : DecidableLT κ

instance instDecidableLT (κ : Type) [OrderKey κ] : DecidableLT κ :=
  OrderKey.decidableLt

/-- The bits of a key on a board. Nothing that is read brings a key that is not a number, so such
a key is a sum of opposite infinities, which has its sign set.
-/
def OrderKey.bits (key : Float) : UInt64 :=
  if key.isNaN then 0xFFF8000000000000 else key.toBits

/-- The place of a double in the total order of its format: negative numbers come in reverse, and
the negative zero is just before the positive one.
-/
def OrderKey.totalRank (key : Float) : Int :=
  let bits : Int := (OrderKey.bits key).toNat
  if bits < 9223372036854775808 then bits else 9223372036854775807 - bits

instance : OrderKey Float where
  zero := 0.0
  one := 1.0
  half key := key / 2.0
  sortsBefore left right := OrderKey.totalRank left ≤ OrderKey.totalRank right
  decidableLt := inferInstance

instance : OrderKey Rat where
  add := Rat.add
  sub := Rat.sub
  beq left right := left.num == right.num && left.den == right.den
  lt left right := left.blt right
  zero := Rat.ofInt 0
  one := Rat.ofInt 1
  half key := key.div (Rat.ofInt 2)
  sortsBefore left right := !right.blt left
  decidableLt left right := instDecidableEqBool (left.blt right) true

namespace OrderKey

variable {κ : Type} [OrderKey κ]

/-- The key of the first post of a new group. -/
def first : κ :=
  1

/-- A key below the lowest one: half of a positive key, otherwise one less. -/
def below (key : κ) : κ :=
  if 0 < key then half key else key - 1

/-- A key above the highest one. -/
def above (key : κ) : κ :=
  key + 1

/-- The key half way between two keys. -/
def between (low high : κ) : κ :=
  half (low + high)

/-- A place among ascending keys. -/
inductive Gap (κ : Type) where
  | below (lowest : κ)
  | above (highest : κ)
  | between (low high : κ)

def Gap.key : Gap κ → κ
  | .below lowest => OrderKey.below lowest
  | .above highest => OrderKey.above highest
  | .between low high => OrderKey.between low high

/-- The place next to the target in an ascending list of keys: before the target, or after it. The
neighbour on that side, if there is one, bounds the other side.
-/
def gap? (keys : List κ) (target : Nat) (before : Bool) : Option (Gap κ) :=
  match keys[target]? with
  | none => none
  | some key =>
      if before then
        match target with
        | 0 => some (.below key)
        | previous + 1 => keys[previous]?.map (.between · key)
      else
        match keys[target + 1]? with
        | none => some (.above key)
        | some next => some (.between key next)

/-- The key for the place next to the target. -/
def beside? (keys : List κ) (target : Nat) (before : Bool) : Option κ :=
  (gap? keys target before).map Gap.key

/-- The bits of the key for a place among doubles. What is worked out from a key that is not a
number keeps the sign of that key, and only sums of opposite infinities have theirs set.
-/
def Gap.bits (gap : Gap Float) : UInt64 :=
  match gap with
  | .between low high =>
      if low.isNaN || high.isNaN then gap.key.toBits else OrderKey.bits gap.key
  | _ => gap.key.toBits

/-- The index at which a key belongs: that of the first key above it, or the end. -/
def insertionIndex (keys : List κ) (key : κ) : Nat :=
  keys.findIdx (fun other => decide (key < other))

/-- Every key is below the next one. -/
def isStrictlyAscending : List κ → Bool
  | low :: high :: rest => low < high && isStrictlyAscending (high :: rest)
  | _ => true

end OrderKey

end SharedBoard
