import SharedBoard.Json.Reader
import SharedBoard.Url
import SharedBoard.Wire.Response

/-! The first picture of a board comes from two requests, one for the board and one for its
groups. The second is made only after the first has succeeded.
-/

namespace SharedBoard

/-- A request as a server sees it: what is asked for, and the credential. -/
structure Request where
  target : String
  authorization : Option String
deriving DecidableEq

/-- The answer to a request. -/
structure Reply where
  status : Nat
  body : String
deriving DecidableEq

/-- A board with its groups, as it was at one time. -/
structure Snapshot where
  board : Board
  groups : List (Group Float)

/-- Why there is no snapshot: a request was refused, or it did not get a usable answer. -/
inductive SnapshotError where
  | refused (status : Nat) (message : String)
  | failed
deriving DecidableEq

/-- The wording of an error; nothing is said about answers that cannot be used. -/
def SnapshotError.message? : SnapshotError → Option String
  | .refused status message => some ("API returned " ++ toString status ++ ": " ++ message)
  | .failed => none

namespace Reply

/-- The phrase that goes with a status. -/
def phrases : List (Nat × String) :=
  [(101, "Switching Protocols"), (300, "Multiple Choices"), (301, "Moved Permanently"), (302, "Found"), (303, "See Other"),
    (304, "Not Modified"), (305, "Use Proxy"), (307, "Temporary Redirect"),
    (308, "Permanent Redirect"), (400, "Bad Request"), (401, "Unauthorized"),
    (402, "Payment Required"), (403, "Forbidden"), (404, "Not Found"),
    (405, "Method Not Allowed"), (406, "Not Acceptable"),
    (407, "Proxy Authentication Required"), (408, "Request Timeout"), (409, "Conflict"),
    (410, "Gone"), (411, "Length Required"), (412, "Precondition Failed"),
    (413, "Payload Too Large"), (414, "URI Too Long"), (415, "Unsupported Media Type"),
    (416, "Range Not Satisfiable"), (417, "Expectation Failed"), (418, "I'm a teapot"),
    (421, "Misdirected Request"), (422, "Unprocessable Entity"), (423, "Locked"),
    (424, "Failed Dependency"), (425, "Too Early"), (426, "Upgrade Required"),
    (428, "Precondition Required"), (429, "Too Many Requests"),
    (431, "Request Header Fields Too Large"), (451, "Unavailable For Legal Reasons"),
    (500, "Internal Server Error"), (501, "Not Implemented"), (502, "Bad Gateway"),
    (503, "Service Unavailable"), (504, "Gateway Timeout"),
    (505, "HTTP Version Not Supported"), (506, "Variant Also Negotiates"),
    (507, "Insufficient Storage"), (508, "Loop Detected"), (510, "Not Extended"),
    (511, "Network Authentication Required")]

/-- The line for a status: the number and its phrase. -/
def statusLine (status : Nat) : String :=
  toString status ++ " " ++ (phrases.lookup status).getD "<unknown status code>"

/-- Replies with a status between 200 and 299 report success. -/
def isSuccess (reply : Reply) : Bool :=
  200 ≤ reply.status && reply.status < 300

/-- Whether a reply ends its exchange. Below 200 only 101 does, since the others announce a reply
that is still to come. Statuses have three digits, and what has more is no reply.
-/
def isFinal (reply : Reply) : Bool :=
  reply.status == 101 || (200 ≤ reply.status && reply.status < 1000)

/-- The body of a reply; replies of three statuses have none. -/
def content (reply : Reply) : String :=
  if [101, 204, 304].contains reply.status then "" else reply.body

/-- What a refusal says: the message in its body, or else the body, or else the status line. -/
def refusal (reply : Reply) : String :=
  match (Json.ofText? reply.content).bind ErrorResponse.ofJson? with
  | some response => response.message
  | none => if reply.content.isEmpty then statusLine reply.status else reply.content

/-- Read the body of a successful reply. -/
def read {α : Type} (ofJson? : Json → Option α) (reply : Reply) : Except SnapshotError α :=
  if reply.isSuccess then
    match (Json.ofText? reply.content).bind ofJson? with
    | some value => .ok value
    | none => .error .failed
  else if reply.isFinal then
    .error (.refused reply.status reply.refusal)
  else
    .error .failed

/-- Read the body of the first of some replies. -/
def readFirst {α : Type} (ofJson? : Json → Option α) (replies : List Reply)
    : Except SnapshotError α :=
  match replies with
  | [] => .error .failed
  | reply :: _ => reply.read ofJson?

end Reply

namespace Snapshot

/-- An address without the slashes at its end. -/
def baseOf (apiUrl : String) : String :=
  String.ofList (apiUrl.toList.reverse.dropWhile (· == '/')).reverse

def boardUrl? (apiUrl : String) (board : BoardId) : Option Url :=
  Url.ofText? (baseOf apiUrl ++ "/boards/" ++ board.toText)

/-- The address of the groups of a board. -/
def groupsUrl? (apiUrl : String) (board : BoardId) : Option Url :=
  Url.ofText? (baseOf apiUrl ++ "/post-groups/?boardID=" ++ board.toText)

/-- Whether a token can stand in a header: it holds no control characters but tabs. -/
def canCarry (token : String) : Bool :=
  token.toList.all (fun char => char == '\t' || (0x20 ≤ char.toNat && char != '\x7f'))

/-- The request for a resource; there is none with a token that no header can carry. -/
def request? (token : Option String) (url : Url) : Option Request :=
  if token.all canCarry then some ⟨url.target, token.map ("Bearer " ++ ·)⟩ else none

/-- Load a snapshot from an API that gives the replies in order, and no answer after them. The
requests are those that were made.
-/
def fetch (apiUrl : String) (board : BoardId) (token : Option String) (replies : List Reply)
    : List Request × Except SnapshotError Snapshot :=
  match (boardUrl? apiUrl board).bind (request? token),
    (groupsUrl? apiUrl board).bind (request? token) with
  | some first, some second =>
      match Reply.readFirst BoardResponse.ofJson? replies with
      | .error error => ([first], .error error)
      | .ok board =>
          ([first, second],
            (Reply.readFirst (GroupsResponse.ofJson? Json.float?) (replies.drop 1)).map
              (⟨board.result, ·.result⟩))
  | _, _ => ([], .error .failed)

end Snapshot

end SharedBoard
