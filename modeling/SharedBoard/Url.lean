import SharedBoard.Decimal.Digits
import SharedBoard.Text.Percent

/-! The addresses of resources on web servers. They are read with some tolerance: blanks around an
address and line breaks in it do not count, slashes may lean either way, and a fragment is
dropped. A server is asked for the target, which is the path without steps to the same folder or
the outer one, and the query.
-/

namespace SharedBoard

/-- The address of a resource: its server, the segments of its path and its query. Reserved
characters in segments and queries are percent-encoded.
-/
structure Url where
  server : String
  path : List String
  query : Option String
deriving DecidableEq

namespace Url

/-- What a server is asked for. -/
def target (url : Url) : String :=
  "/" ++ "/".intercalate url.path ++ (url.query.map ("?" ++ ·)).getD ""

-----------------------------------------------------------------------------------------
-- Characters
-----------------------------------------------------------------------------------------

/-- A slash that leans either way. -/
def isSlash (char : Char) : Bool :=
  char == '/' || char == '\\'

/-- A character that does not count at the ends of an address. -/
def isEdge (char : Char) : Bool :=
  char.toNat ≤ 0x20

/-- A character that does not count anywhere in an address. -/
def isBreak (char : Char) : Bool :=
  char == '\t' || char == '\n' || char == '\r'

/-- A character that is reserved in every part: a control, a space, a quotation mark, a number
sign, an angle bracket, or one beyond ASCII.
-/
def isReserved (char : Char) : Bool :=
  char.toNat ≤ 0x20 || 0x7F ≤ char.toNat || ['"', '#', '<', '>'].contains char

/-- A character that is reserved in paths. -/
def isReservedInPath (char : Char) : Bool :=
  isReserved char || ['?', '\x60', '{', '}'].contains char

/-- A character that is reserved in queries. -/
def isReservedInQuery (char : Char) : Bool :=
  isReserved char || char == '\x27'

-----------------------------------------------------------------------------------------
-- Paths
-----------------------------------------------------------------------------------------

/-- The ways to write a dot. -/
def dots : List String :=
  [".", "%2e", "%2E"]

/-- A segment that stays in the folder. -/
def isHere (segment : String) : Bool :=
  dots.contains segment

/-- A segment that steps to the outer folder. -/
def isOuter (segment : String) : Bool :=
  dots.any (fun first => dots.any (fun second => first ++ second == segment))

/-- A drive, which no step leaves: a letter with a colon or a bar. -/
def isDrive (segment : String) : Bool :=
  match segment.toList with
  | [letter, mark] => letter.isAlpha && (mark == ':' || mark == '|')
  | _ => false

/-- The folders, innermost first, after one more segment of a path. -/
def enter (folders : List String) (segment : String) : List String :=
  if isOuter segment then
    match folders with
    | [] => []
    | folder :: outer => if isDrive folder then folder :: outer else outer
  else if isHere segment then
    folders
  else
    segment :: folders

/-- The segments of a path without steps, after the given folders, innermost first. A step at the
end leaves an empty segment, which stands for the folder itself.
-/
def resolve (folders : List String) : List String → List String
  | [] => folders.reverse
  | [last] =>
      if isOuter last || isHere last then ("" :: enter folders last).reverse
      else (last :: folders).reverse
  | segment :: rest => resolve (enter folders segment) rest

/-- The segments of a path as it is written. -/
def readPath (text : List Char) : List String :=
  let path := text.map (fun char => if isSlash char then '/' else char)
  let segments := (path.drop 1).splitOn '/'
  resolve [] (segments.map (fun segment =>
    String.ofList (Text.percentEncoded isReservedInPath segment)))

-----------------------------------------------------------------------------------------
-- Addresses
-----------------------------------------------------------------------------------------

/-- What is left of an address after the name of its scheme, in either letter case. -/
def afterScheme? (text : List Char) : Option (List Char) :=
  ["http:", "https:"].findSome? fun scheme =>
    let (start, rest) := text.splitAt scheme.length
    if start.map Char.toLower == scheme.toList then some rest else none

/-- A server: a name of ASCII letters, digits, hyphens, underscores and dots, which may be followed
by a colon and a number of 16 bits.
-/
def isServer (text : List Char) : Bool :=
  let (name, rest) := text.span (· != ':')
  let digits := rest.drop 1
  !name.isEmpty
    && name.all (fun char => char.isAlphanum || ['-', '_', '.'].contains char)
    && digits.all Char.isDigit
    && Decimal.toNat digits < 65536

/-- Read the query that begins with a question mark, if there is one. -/
def readQuery : List Char → Option String
  | [] => none
  | _ :: text => some (String.ofList (Text.percentEncoded isReservedInQuery text))

def ofText? (text : String) : Option Url := do
  let inner := ((text.toList.dropWhile isEdge).reverse.dropWhile isEdge).reverse
  let rest ← afterScheme? (inner.filter (!isBreak ·))
  let (server, rest) :=
    (rest.dropWhile isSlash).span (fun char => !isSlash char && char != '?' && char != '#')
  let (path, query) := (rest.takeWhile (· != '#')).span (· != '?')
  if isServer server then some ⟨String.ofList server, readPath path, readQuery query⟩ else none

end Url

end SharedBoard
