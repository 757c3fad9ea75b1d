import RecencyCache.Json.Document

/-!
# Messages

Requests as they arrive and responses as they leave, without the transport around them.
-/

namespace RecencyCache.Http

/-- A request. -/
structure Request where
  method : String
  /-- The path, percent-encoded, with an optional query. -/
  target : String
  headers : List (String × String) := []
  body : String := ""

/-- The content of a response. -/
inductive Body where
  | empty
  | json (document : Json.Document)
  | text (content : String)

/-- A response. -/
structure Response where
  status : Nat
  headers : List (String × String)
  body : Body

namespace Request

/-- The path without the query. -/
def path (request : Request) : String :=
  String.ofList (request.target.toList.takeWhile fun c => c ≠ '?' && c ≠ '#')

/-- The first header of this name, which is given in lower case. -/
def header? (request : Request) (name : String) : Option String :=
  (request.headers.find? fun (other, _) => other.toLower == name).map (·.2)

end Request

namespace Body

/-- The content as text. -/
def render : Body → String
  | .empty => ""
  | .json document => document.render
  | .text content => content

/-- The headers that describe the content. -/
def headers (body : Body) : List (String × String) :=
  let contentType := match body with
    | .empty => []
    | .json _ => [("content-type", "application/json")]
    | .text _ => [("content-type", "text/plain; charset=utf-8")]
  contentType ++ [("content-length", Decimal.padded 1 body.render.utf8ByteSize)]

end Body

namespace Response

/-- The headers of every response: any origin may read it. -/
def commonHeaders : List (String × String) :=
  [("access-control-allow-origin", "*"),
    ("vary", "origin, access-control-request-method, access-control-request-headers")]

/-- A response with the headers that describe its content. -/
def create (status : Nat) (body : Body) (headers : List (String × String)) : Response where
  status
  headers := headers ++ body.headers ++ commonHeaders
  body

/-- The response to a request for headers alone. They describe the content that is left out. -/
def withoutBody (response : Response) : Response := { response with body := .empty }

/-- The header of this name, which is given in lower case. -/
def header? (response : Response) (name : String) : Option String := response.headers.lookup name

end Response

end RecencyCache.Http
