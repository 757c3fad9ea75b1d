import RecencyCache.Engine
import RecencyCache.Http.MediaType
import RecencyCache.Http.Message
import RecencyCache.Http.Percent
import RecencyCache.Http.RequestBody
import RecencyCache.Http.ResponseBody
import RecencyCache.Http.Route

/-!
# Server

Answers requests from an engine. A request is turned down for its path, its method, its content
type, its body and its content, in this order; only then is the engine called, and by one operation
at most.
-/

namespace RecencyCache.Http

namespace Response

/-- A response with a document. -/
def ofDocument (status : Nat) (document : Json.Document) : Response :=
  .create status (.json document) []

/-- The status of a refusal. -/
def refusalStatus : Refusal → Nat
  | .notFound _ => 404
  | .invalidCapacity _ | .invalidRequest _ => 400

/-- The response that turns a request down. -/
def ofRefusal (refusal : Refusal) : Response :=
  ofDocument (refusalStatus refusal) (refusalDocument refusal.message)

/-- The response to a segment that does not stand for text. -/
def invalidSegment : Response :=
  .create 400 (.text "Invalid URL: Invalid UTF-8 in \x60key\x60") []

/-- The response to a body that is not said to be JSON. -/
def unsupportedMediaType : Response :=
  .create 415 (.text "Expected request with \x60Content-Type: application/json\x60") []

/-- The response to a body that cannot be read. -/
def ofFailure (failure : Json.Failure) (body : List Char) : Response :=
  let detail := failure.render body
  match failure.cause.category with
  | .wellFormedness | .endOfText =>
      .create 400 (.text ("Failed to parse the request body as JSON: " ++ detail)) []
  | .shape =>
      .create 422
        (.text ("Failed to deserialize the JSON body into the target type: " ++ detail)) []

/-- The response to a question about the methods that are admitted from other origins. -/
def preflight (route : Option Route) : Response :=
  let allow := (route.map fun route => ("allow", route.allowed)).toList
  .create 200 .empty
    (allow ++
      [("access-control-allow-methods", "GET,PUT,DELETE"),
        ("access-control-allow-headers", "*")])

end Response

namespace Request

/-- The record in the body, or the response to a body without it. What follows the record is
ignored. A body of any length is read: the default limit of the framework, which answers 413 to a
body of more than 2 MiB, is left out. -/
def readBody {α : Type} (request : Request) (record : Json.Record α) : Except Response α :=
  if (request.header? "content-type").any promisesJson then
    let body := request.body.toList
    match record.readStart body with
    | .ok (value, _) => .ok value
    | .error failure => .error (.ofFailure failure body)
  else .error .unsupportedMediaType

end Request

namespace Server

/-- Stores a value. -/
def set (request : Request) (engine : Engine) : Answer Response :=
  match request.readBody SetRequest.record with
  | .error response => (.ok response, engine)
  | .ok content =>
      match content.objection? with
      | some reason => (.ok (.ofRefusal (.invalidRequest reason)), engine)
      | none =>
          let (result, engine) := engine.put content.key { text := content.value } content.options
          let respond _ := Response.ofDocument 200 <|
            storedDocument content.key content.lifetimeMillis content.surviveMillis
              engine.store.size
          (result.map respond, engine)

/-- Gets a value. -/
def get (segment : String) (engine : Engine) : Answer Response :=
  match decodeSegment? segment with
  | none => (.ok .invalidSegment, engine)
  | some key =>
      let (result, engine) := engine.getWithSnapshot key
      let respond
        | some (text, snapshot) => Response.ofDocument 200 (foundDocument key text snapshot)
        | none => Response.ofRefusal (.notFound key)
      (result.map respond, engine)

/-- Takes a value out. -/
def delete (segment : String) (engine : Engine) : Answer Response :=
  match decodeSegment? segment with
  | none => (.ok .invalidSegment, engine)
  | some key =>
      let (result, engine) := engine.remove key
      let respond removed :=
        if removed then Response.ofDocument 200 (removedDocument key engine.store.size)
        else Response.ofRefusal (.notFound key)
      (result.map respond, engine)

/-- Changes the capacity. -/
def setCapacity (request : Request) (engine : Engine) : Answer Response :=
  match request.readBody CapacityRequest.record with
  | .error response => (.ok response, engine)
  | .ok content =>
      let (result, engine) := engine.setCapacity content.capacity
      let respond
        | .ok () => Response.ofDocument 200 (diagnosisDocument engine.diagnosis)
        | .error refusal => Response.ofRefusal refusal
      (result.map respond, engine)

/-- Serves a route with the method that it expects. -/
def serve (route : Route) (request : Request) (engine : Engine) : Answer Response :=
  match route with
  | .set => set request engine
  | .get segment => get segment engine
  | .delete segment => delete segment engine
  | .capacity => setCapacity request engine
  | .statistics => (.ok (.ofDocument 200 (statisticsDocument engine.store.statistics)), engine)
  | .diagnosis => (.ok (.ofDocument 200 (diagnosisDocument engine.diagnosis)), engine)
  | .health =>
      let respond timeOfDay :=
        Response.ofDocument 200 (healthDocument engine.control.running timeOfDay)
      (engine.moment.timeOfDay.map respond, engine)

/-- Answers a request. -/
def respond (request : Request) (engine : Engine) : Answer Response :=
  let route := Route.ofPath? request.path
  if request.method = "OPTIONS" then (.ok (.preflight route), engine)
  else
    match route with
    | none => (.ok (.create 404 .empty []), engine)
    | some route =>
        if request.method = route.method then serve route request engine
        else if request.method = "HEAD" ∧ route.method = "GET" then
          let (result, engine) := serve route request engine
          (result.map (·.withoutBody), engine)
        else (.ok (.create 405 .empty [("allow", route.allowed)]), engine)

end Server

end RecencyCache.Http
