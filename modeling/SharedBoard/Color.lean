/-! The palette of posts. A color is written as its hexadecimal code. -/

namespace SharedBoard

/-- A color of the palette. -/
inductive Color where
  | lightPink
  | lightGreen
  | lightLavender
  | lightPeach
  | lightAqua
deriving DecidableEq, Repr, Inhabited

namespace Color

def all : List Color :=
  [.lightPink, .lightGreen, .lightLavender, .lightPeach, .lightAqua]

/-- The hexadecimal code, in upper case. -/
def hex : Color → String
  | .lightPink => "#F5E6E8"
  | .lightGreen => "#E7ECD9"
  | .lightLavender => "#E5E1F1"
  | .lightPeach => "#FCE6C9"
  | .lightAqua => "#D8E2DC"

/-- The hexadecimal code in lower case. -/
def lowerHex : Color → String
  | .lightPink => "#f5e6e8"
  | .lightGreen => "#e7ecd9"
  | .lightLavender => "#e5e1f1"
  | .lightPeach => "#fce6c9"
  | .lightAqua => "#d8e2dc"

def label : Color → String
  | .lightPink => "light pink"
  | .lightGreen => "light green"
  | .lightLavender => "light lavender"
  | .lightPeach => "light peach"
  | .lightAqua => "light aqua"

/-- The color with a code that is all upper case or all lower case. -/
def ofHex? (code : String) : Option Color :=
  all.find? (fun color => color.hex == code || color.lowerHex == code)

/-- Every color is found by its own code, by checking the palette. -/
@[simp] theorem ofHex?_hex (color : Color)
    : ofHex? color.hex = some color := by
  cases color <;> decide

end Color

end SharedBoard
