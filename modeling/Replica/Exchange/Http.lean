/-
Replica.Exchange.Http — sending a request over HTTP.

A request is posted as the JSON object of its document and variables, with the
configured headers. An answer with a success status is the backend's response if its
body is JSON text; any other status is reported with its standard phrase and the body.
-/
import Replica.Json.Parser
import Replica.Json.Shape
import Replica.Request.Codec

namespace Replica

/-- Where requests are sent. -/
structure HttpConfig where
  endpoint : String
  headers : Dict String
  timeoutMillis : Nat

namespace HttpConfig

/-- A local endpoint, no headers, thirty seconds. -/
def default : HttpConfig := ⟨"http://localhost:20002/graphql", Dict.empty, 30000⟩

open Json

def encode (c : HttpConfig) : Json :=
  object [("endpoint", .str c.endpoint), ("headers", .ofDict (c.headers.mapValues .str)),
    ("timeout_ms", .int c.timeoutMillis)]

/-- The members of a configuration; each has a default. -/
def shape : Shape HttpConfig := do
  let endpoint ← Shape.defaulted "endpoint" default.endpoint asText?
  let headers ← Shape.defaulted "headers" default.headers (dictOf? asText?)
  let timeoutMillis ← Shape.defaulted "timeout_ms" default.timeoutMillis asUnsigned64?
  return ⟨endpoint, headers, timeoutMillis⟩

def decode? : Json → Option HttpConfig := Shape.read shape

end HttpConfig

/-! ## Requests -/

/-- What goes over the wire. -/
structure HttpRequest where
  start : String
  headers : Dict String
  body : Json

namespace HttpRequest

/-- The characters of a header's name. -/
def isNameChar (c : Char) : Bool :=
  c.isAlphanum || "!#$%&'*+-.^_|~".toList.contains c || c.toNat = 0x60

/-- The characters of a header's value. -/
def isValueChar (c : Char) : Bool := c = '\t' || (32 ≤ c.toNat && c.toNat ≠ 127)

def isHeader (name value : String) : Bool :=
  !name.isEmpty && name.toList.all isNameChar && value.toList.all isValueChar

/-- The name of a header in lower case. -/
def lowerName (name : String) : String := String.ofList (name.toList.map Char.toLower)

/-- A header's value without blanks around it. -/
def trimmed (value : String) : String := Text.trim value

/-- The headers of a request; a configured content type takes the place of the usual
one. -/
def headersOf (configured : Dict String) : Dict String :=
  configured.entries.foldl (fun all e => all.insert (lowerName e.1) (trimmed e.2))
    (Dict.empty.insert "content-type" "application/json")

/-- One byte of an escaped path. -/
def escapedByte (b : UInt8) : String :=
  String.ofList ['%', (Nat.digitChar (b.toNat / 16)).toUpper, (Nat.digitChar (b.toNat % 16)).toUpper]

/-- Whether a path has to escape a character. -/
def isEscaped (c : Char) : Bool :=
  c.toNat ≤ 32 || 127 ≤ c.toNat || "\"<>".toList.contains c || c.toNat = 0x60
    || c = '\x7b' || c = '\x7d'

/-- A path as it stands in the first line: nothing from a hash sign on, and characters
that have no place in an address as escaped bytes. -/
def target (path : String) : String :=
  String.join ((path.toList.takeWhile (· ≠ '#')).map fun c =>
    if isEscaped c then String.join (c.toString.toUTF8.toList.map escapedByte) else c.toString)

/-- The request that posts to a path; none if a header cannot be sent. -/
def post? (path : String) (headers : Dict String) (q : Request) : Option HttpRequest :=
  if headers.entries.all (fun e => isHeader e.1 e.2) then
    some ⟨"POST " ++ target path ++ " HTTP/1.1", headersOf headers,
      Json.object [("query", .str q.document), ("variables", .ofDict q.values)]⟩
  else none

end HttpRequest

/-! ## Answers -/

/-- What became of a request. -/
inductive HttpReply where
  | answer (status : Nat) (body : String)
  /-- Nothing came before the time was over. -/
  | silent
  /-- The request was not sent, or its connection broke. -/
  | unreachable

namespace HttpReply

/-- The standard phrases of status codes. -/
def phrases : List (Nat × String) := [
  (100, "Continue"), (101, "Switching Protocols"), (102, "Processing"), (103, "Early Hints"),
  (200, "OK"), (201, "Created"), (202, "Accepted"), (203, "Non Authoritative Information"),
  (204, "No Content"), (205, "Reset Content"), (206, "Partial Content"), (207, "Multi-Status"),
  (208, "Already Reported"), (226, "IM Used"), (300, "Multiple Choices"),
  (301, "Moved Permanently"), (302, "Found"), (303, "See Other"), (304, "Not Modified"),
  (305, "Use Proxy"), (307, "Temporary Redirect"), (308, "Permanent Redirect"),
  (400, "Bad Request"), (401, "Unauthorized"), (402, "Payment Required"), (403, "Forbidden"),
  (404, "Not Found"), (405, "Method Not Allowed"), (406, "Not Acceptable"),
  (407, "Proxy Authentication Required"), (408, "Request Timeout"), (409, "Conflict"),
  (410, "Gone"), (411, "Length Required"), (412, "Precondition Failed"),
  (413, "Payload Too Large"), (414, "URI Too Long"), (415, "Unsupported Media Type"),
  (416, "Range Not Satisfiable"), (417, "Expectation Failed"), (418, "I'm a teapot"),
  (421, "Misdirected Request"), (422, "Unprocessable Entity"), (423, "Locked"),
  (424, "Failed Dependency"), (425, "Too Early"), (426, "Upgrade Required"),
  (428, "Precondition Required"), (429, "Too Many Requests"),
  (431, "Request Header Fields Too Large"), (451, "Unavailable For Legal Reasons"),
  (500, "Internal Server Error"), (501, "Not Implemented"), (502, "Bad Gateway"),
  (503, "Service Unavailable"), (504, "Gateway Timeout"), (505, "HTTP Version Not Supported"),
  (506, "Variant Also Negotiates"), (507, "Insufficient Storage"), (508, "Loop Detected"),
  (510, "Not Extended"), (511, "Network Authentication Required")]

def phrase (status : Nat) : String := (phrases.lookup status).getD "<unknown status code>"

/-- The body that belongs to a status; some statuses never have one. -/
def bodyOf (status : Nat) (body : String) : String :=
  if status = 204 ∨ status = 304 then "" else body

/-- The backend's response, or why there is none. -/
def result : HttpReply → Except SyncError Json
  | silent => .error .timeout
  | unreachable => .error (.network .unreachable)
  | answer status body =>
    let body := bodyOf status body
    if 200 ≤ status ∧ status ≤ 299 then
      match Json.parse? body with
      | some j => .ok j
      | none => .error (.protocol .notJson)
    else .error (.network (.status status (phrase status) body))

end HttpReply

end Replica
