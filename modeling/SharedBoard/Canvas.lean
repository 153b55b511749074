import SharedBoard.Group
import SharedBoard.Rounding

/-! Geometry of the canvas: where dropped things land, how tall a post has to be for its text and
how much room a board takes.
-/

namespace SharedBoard.Canvas

def postWidth : Int32 := 275

/-- The least height of a post. -/
def postHeight : Int32 := 125

/-- The room kept beyond the groups farthest right and farthest down. -/
def margin : Int32 := 200

/-- The height of a row of text. -/
def rowHeight : Nat := 16

/-- The number of characters in a row of text. -/
def charsPerRow : Nat := 34

/-- The height of a post that is not text. -/
def padding : Nat := 61

-----------------------------------------------------------------------------------------
-- Extent
-----------------------------------------------------------------------------------------

/-- The size of a canvas that shows all groups, with some room to grow. -/
def extent {κ : Type} (groups : List (Group κ)) : Int32 × Int32 :=
  let right := groups.foldl (fun farthest group => max farthest group.x) 0
  let bottom := groups.foldl (fun farthest group => max farthest group.y) 0
  (right + postWidth + margin, bottom + postHeight + margin)

-----------------------------------------------------------------------------------------
-- Heights
-----------------------------------------------------------------------------------------

/-- The lines of a text: line feeds separate them, so there is one more than there are feeds. -/
def lines : List Char → List (List Char)
  | [] => [[]]
  | char :: rest =>
      if char = '\n' then
        [] :: lines rest
      else
        match lines rest with
        | [] => [[char]]
        | line :: others => (char :: line) :: others

/-- The rows that a line takes: at least one, and otherwise as many as its characters need. -/
def rowsOfLine (line : List Char) : Nat :=
  max ((line.length + (charsPerRow - 1)) / charsPerRow) 1

/-- The rows that a text takes. -/
def rows (text : List Char) : Nat :=
  (lines text).foldr (fun line below => rowsOfLine line + below) 0

/-- The height of a text, which stops growing at the largest value of 32 bits. -/
def textHeight (rows : Nat) : Nat :=
  let largest := Rounding.greatest.toNat
  min ((if rows ≤ largest then rows else largest / rowHeight) * rowHeight) largest

/-- The height of a post with the given content. -/
def contentHeight (content : String) : Int32 :=
  max (Int32.ofInt (textHeight (rows content.toList) + padding : Nat)) postHeight

-----------------------------------------------------------------------------------------
-- Positions
-----------------------------------------------------------------------------------------

/-- A coordinate moved to the nearest line of a grid; half way it moves away from zero. -/
def snap (grid value : Int32) : Int32 :=
  Rounding.toInt32 (Rounding.ofInt32 value / Rounding.ofInt32 grid) * grid

/-- A position moved to the nearest corner of a grid. -/
def snapToGrid (x y grid : Int32) : Int32 × Int32 :=
  (snap grid x, snap grid y)

/-- A coordinate with everything that is not positive replaced by zero. -/
def clamp (value : Float) : Float :=
  if 0.0 < value then value else 0.0

/-- Where the top left corner of a dropped thing lands: on the canvas, in whole numbers, and on
the grid if there is one.
-/
def dropPosition (x y : Float) (grid : Option Int32) : Int32 × Int32 :=
  let x := Rounding.toInt32 (clamp x)
  let y := Rounding.toInt32 (clamp y)
  match grid with
  | some cell => if 0 < cell then snapToGrid x y cell else (x, y)
  | none => (x, y)

/-- Whether a pointer is in the upper half of something between top and bottom. -/
def isHoverAbove (top bottom pointer : Float) : Bool :=
  pointer - top < (bottom - top) / 2.0

end SharedBoard.Canvas
