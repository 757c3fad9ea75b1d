import RecencyCache.Http.Server
import RecencyCache.Proofs.Http.Routes
import RecencyCache.Proofs.Trace

/-!
# What requests ask for

A request asks for one action or for none, and its method, its path and its body tell which. This is
said twice, of a request as it arrives and of one whose route is known, and both say the same.
-/

namespace RecencyCache.Http

/-- The action that a request asks for. -/
inductive Request.Performs (request : Request) : Action → Prop where
  | put {content : SetRequest} : request.method = "PUT" → request.path = "/set" →
      request.readBody SetRequest.record = .ok content →
      1 ≤ content.key.utf8ByteSize → content.key.utf8ByteSize ≤ 256 →
      Performs request (.put content.key { text := content.value } content.options)
  | get {segment key : String} : request.method = "GET" ∨ request.method = "HEAD" →
      request.path = "/get/" ++ segment → segment ≠ "" → '/' ∉ segment.toList →
      decodeSegment? segment = some key → Performs request (.getWithSnapshot key)
  | remove {segment key : String} : request.method = "DELETE" →
      request.path = "/del/" ++ segment → segment ≠ "" → '/' ∉ segment.toList →
      decodeSegment? segment = some key → Performs request (.remove key)
  | setCapacity {content : CapacityRequest} : request.method = "PUT" → request.path = "/capacity" →
      request.readBody CapacityRequest.record = .ok content →
      Performs request (.setCapacity content.capacity)

/-- The action that a request asks for on its route, whose method it has. -/
inductive Route.Performs (request : Request) : Route → Action → Prop where
  | put {content : SetRequest} : request.readBody SetRequest.record = .ok content →
      content.objection? = none →
      Performs request .set (.put content.key { text := content.value } content.options)
  | get {segment key : String} : decodeSegment? segment = some key →
      Performs request (.get segment) (.getWithSnapshot key)
  | remove {segment key : String} : decodeSegment? segment = some key →
      Performs request (.delete segment) (.remove key)
  | setCapacity {content : CapacityRequest} :
      request.readBody CapacityRequest.record = .ok content →
      Performs request .capacity (.setCapacity content.capacity)

/-- The route is served for this method: headers alone may be asked for of what can be got. -/
def Route.Admits (route : Route) (method : String) : Prop :=
  method = route.method ∨ method = "HEAD" ∧ route.method = "GET"

/-- A request asks for one action on its route at most. -/
theorem Route.Performs.unique {request : Request} {route : Route} {action other : Action}
    (performs : route.Performs request action) (also : route.Performs request other) :
    other = action := by
  cases performs with
  | put read =>
      cases also with
      | put readAlso =>
          cases read.symm.trans readAlso
          rfl
  | get decoded | remove decoded =>
      cases also
      rename_i decodedAlso
      cases decoded.symm.trans decodedAlso
      rfl
  | setCapacity read =>
      cases also with
      | setCapacity readAlso =>
          cases read.symm.trans readAlso
          rfl

theorem SetRequest.objection?_eq_none_iff {content : SetRequest} :
    content.objection? = none ↔
      1 ≤ content.key.utf8ByteSize ∧ content.key.utf8ByteSize ≤ 256 := by
  rw [objection?, longestKey]
  split
  · rename_i empty
    have zero : content.key.utf8ByteSize = 0 := by simpa using empty
    simp [zero]
  · rename_i filled
    have positive : content.key.utf8ByteSize ≠ 0 := by simpa using filled
    split
    · simp only [reduceCtorEq, false_iff]
      omega
    · simp only [true_iff]
      omega

namespace Request

open Route

/-- A request asks for what it asks for on the route of its path, if the route admits its method. -/
theorem performs_iff {request : Request} {action : Action} :
    request.Performs action ↔ ∃ route, Route.ofPath? request.path = some route ∧
      route.Admits request.method ∧ route.Performs request action := by
  constructor
  · intro performs
    cases performs with
    | put method path read short long =>
        refine ⟨.set, ofPath?_eq_some_iff.mpr ⟨path, by simp [IsProper, names]⟩, .inl method, ?_⟩
        exact .put read (SetRequest.objection?_eq_none_iff.mpr ⟨short, long⟩)
    | @get segment key method path filled single decoded =>
        refine ⟨.get segment, ofPath?_eq_some_iff.mpr ⟨path, ?_⟩, ?_, .get decoded⟩
        · simp [IsProper, names, filled, single]
        · exact method.imp_right fun method => ⟨method, rfl⟩
    | @remove segment key method path filled single decoded =>
        refine ⟨.delete segment, ofPath?_eq_some_iff.mpr ⟨path, ?_⟩, .inl method, .remove decoded⟩
        simp [IsProper, names, filled, single]
    | setCapacity method path read =>
        exact ⟨.capacity, ofPath?_eq_some_iff.mpr ⟨path, by simp [IsProper, names]⟩, .inl method,
          .setCapacity read⟩
  · -- Headers alone are asked for where something can be got, so the other routes admit one method.
    rintro ⟨route, found, method, performs⟩
    obtain ⟨path, proper⟩ := ofPath?_eq_some_iff.mp found
    cases performs with
    | put read accepted =>
        obtain ⟨short, long⟩ := SetRequest.objection?_eq_none_iff.mp accepted
        exact .put (by simpa [Admits, Route.method] using method) path read short long
    | @get segment key decoded =>
        have single : segment ≠ "" ∧ '/' ∉ segment.toList := proper segment (by simp [names])
        exact .get (by simpa [Admits, Route.method] using method) path single.1 single.2 decoded
    | @remove segment key decoded =>
        have single : segment ≠ "" ∧ '/' ∉ segment.toList := proper segment (by simp [names])
        exact .remove (by simpa [Admits, Route.method] using method) path single.1 single.2 decoded
    | setCapacity read => exact .setCapacity (by simpa [Admits, Route.method] using method) path read

/-- On a route that admits its method, a request asks for what it asks for there. -/
theorem performs_iff_of_admitted {request : Request} {route : Route} {action : Action}
    (found : Route.ofPath? request.path = some route)
    (admitted : route.Admits request.method) :
    request.Performs action ↔ route.Performs request action := by
  rw [performs_iff, found]
  simp [admitted]

/-- A request whose method its route does not admit asks for nothing. -/
theorem not_performs_of_refused {request : Request}
    (refused : ∀ route, Route.ofPath? request.path = some route → ¬route.Admits request.method)
    (action : Action) : ¬request.Performs action := by
  intro performs
  obtain ⟨route, found, admitted, -⟩ := performs_iff.mp performs
  exact refused route found admitted

end Request

end RecencyCache.Http
