/-!
# Routes

The paths that are served, and the method that each of them expects. Paths are compared as they
stand, without decoding them; a key is a single segment that is not empty.
-/

namespace RecencyCache.Http

/-- A path that is served. -/
inductive Route where
  | set
  /-- Getting the value of a key, which is a percent-encoded segment. -/
  | get (segment : String)
  /-- Taking out the value of a key, which is a percent-encoded segment. -/
  | delete (segment : String)
  | capacity
  | statistics
  | diagnosis
  | health
  deriving DecidableEq

namespace Route

/-- The route of the segments of a path. -/
def ofSegments? : List String → Option Route
  | ["set"] => some .set
  | ["get", segment] => if segment = "" then none else some (.get segment)
  | ["del", segment] => if segment = "" then none else some (.delete segment)
  | ["capacity"] => some .capacity
  | ["stats"] => some .statistics
  | ["info"] => some .diagnosis
  | ["health"] => some .health
  | _ => none

/-- The segments of a path, that is, what stands between its slashes. -/
def segments (path : List Char) : List (List Char) :=
  match path with
  | [] => [[]]
  | '/' :: rest => [] :: segments rest
  | c :: rest =>
      match segments rest with
      | [] => [[c]]
      | segment :: others => (c :: segment) :: others

/-- The route of a path, which starts with a slash. -/
def ofPath? (path : String) : Option Route :=
  match segments path.toList with
  | [] :: rest => ofSegments? (rest.map String.ofList)
  | _ => none

/-- The method that a route expects. -/
def method : Route → String
  | .set | .capacity => "PUT"
  | .delete _ => "DELETE"
  | .get _ | .statistics | .diagnosis | .health => "GET"

/-- The methods that a route admits: whatever can be got can also be asked for its headers. -/
def allowed (route : Route) : String :=
  if route.method = "GET" then "GET,HEAD" else route.method

end Route

end RecencyCache.Http
