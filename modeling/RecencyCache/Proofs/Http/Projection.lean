import RecencyCache.Http.Server
import RecencyCache.Proofs.Http.Requests
import RecencyCache.Proofs.Views

/-!
# The server as a projection

A request does to the engine what one action does, or nothing. Which of the two is told by its
method, its path and its body alone. A request that does not succeed leaves the engine as it is,
unless it has asked for a key that has no live entry, and what a response tells of the engine is
true of the engine that it leaves.
-/

namespace RecencyCache

/-! ## Lookups in vain -/

/-- A lookup of the key counts. It takes out the entry of the key, if there is one, which is dead
then and counts as expired. Nothing else changes. -/
structure Engine.LosesAtMost (engine : Engine) (key : Key) (after : Engine) : Prop where
  dead : ∀ entry ∈ engine.store.chain.toList, entry.key = key → entry.outlived engine.now = true
  alone : engine.store.chain.toList.countP (·.key = key) ≤ 1
  entries_eq : after.store.chain.toList = engine.store.chain.toList.filter (·.key ≠ key)
  counters_eq : after.store.counters =
    { engine.store.counters with
      requests := engine.store.counters.requests + 1
      expirations := engine.store.counters.expirations +
        engine.store.chain.toList.countP (·.key = key) }
  rest_eq : after.plain =
    { engine.plain with
      store := { engine.plain.store with
        entries := after.store.chain.toList
        counters := after.store.counters } }

namespace PlainStore

variable {store : PlainStore} {key : Key}

/-- A key is stored once or not at all. -/
theorem countP_key_eq (distinct : (store.entries.map (·.key)).Nodup) (key : Key) :
    store.entries.countP (·.key = key) = (store.find? key).isSome.toNat := by
  rw [List.countP_eq_length_filter, filter_key_eq distinct]
  cases store.find? key <;> rfl

end PlainStore

theorem Engine.Misses.losesAtMost {engine after : Engine} {key : Key} {faulty : Bool}
    (misses : engine.Misses key faulty after) (sound : engine.Sound) :
    engine.LosesAtMost key after := by
  have distinct := nodup_keys_plain sound.represents
  have count : engine.store.chain.toList.countP (·.key = key) =
      (engine.plain.store.find? key).isSome.toNat :=
    PlainStore.countP_key_eq distinct key
  have store := congrArg PlainEngine.store misses.plain_eq
  constructor
  case dead =>
    intro entry member sameKey
    have found : engine.plain.store.find? key = some entry :=
      (PlainStore.find?_eq_some_iff distinct).mpr ⟨member, sameKey⟩
    have dead := misses.dead
    rw [← live?_plain sound.represents, PlainStore.live?, found, Option.filter_some] at dead
    simpa [Entry.live, plain] using dead
  case alone =>
    rw [count]
    exact Bool.toNat_le _
  case entries_eq => exact congrArg PlainStore.entries store
  case counters_eq =>
    rw [count]
    exact congrArg PlainStore.counters store
  case rest_eq =>
    rw [show after.store.chain.toList = _ from congrArg PlainStore.entries store,
      show after.store.counters = _ from congrArg PlainStore.counters store]
    exact misses.plain_eq

/-- What a lookup finds is in sight after it. -/
theorem Engine.sight?_of_found {engine : Engine} (sound : engine.Sound) {key : Key}
    {found : String × Snapshot} (done : (engine.getWithSnapshot key).1 = .ok (some found)) :
    (engine.getWithSnapshot key).2.sight? key = some found := by
  have reply : (Call.run (.getWithSnapshot key) engine).1 = .foundWithSnapshot (some found) :=
    congrArg (Reply.ofResult .foundWithSnapshot) done
  cases live : engine.store.live? key engine.now with
  | none => exact absurd reply (getWithSnapshot_of_dead sound live found)
  | some entry =>
      rw [(getWithSnapshot_of_live sound live).result_eq] at reply
      cases reply
      exact (sight?_after_hit sound live).1

/-- A lookup that finds nothing takes out at most a dead entry. -/
theorem Engine.losesAtMost_of_unfound {engine : Engine} (sound : engine.Sound) {key : Key}
    (done : (engine.getWithSnapshot key).1 = .ok none) :
    engine.LosesAtMost key (engine.getWithSnapshot key).2 := by
  have reply : (Call.run (.getWithSnapshot key) engine).1 = .foundWithSnapshot none :=
    congrArg (Reply.ofResult .foundWithSnapshot) done
  cases live : engine.store.live? key engine.now with
  | none => exact (get_of_dead sound live).2.losesAtMost sound
  | some entry =>
      rw [(getWithSnapshot_of_live sound live).result_eq] at reply
      cases reply

/-- Taking out a key that has no entry changes nothing. -/
theorem Engine.remove_eq_self {engine : Engine} {key : Key}
    (absent : (engine.remove key).1 = .ok false) : (engine.remove key).2 = engine := by
  rw [remove, Store.remove, Chain.remove] at absent ⊢
  cases stored : engine.store.chain.slotOf? key with
  | none => rfl
  | some slot =>
      simp only [stored] at absent ⊢
      cases removed : engine.store.chain.removeAt slot with
      | none => rfl
      | some left =>
          cases faulty : left.1.value.faulty with
          | true => simp [adopt, removed, faulty] at absent
          | false => simp [adopt, removed, faulty] at absent

/-- A capacity that is refused changes nothing. -/
theorem Engine.setCapacity_eq_self {engine : Engine} {capacity : Int} {refusal : Refusal}
    (refused : (engine.setCapacity capacity).1 = .ok (.error refusal)) :
    (engine.setCapacity capacity).2 = engine := by
  cases capacity with
  | ofNat capacity =>
      have mapped : (engine.adopt (engine.store.setCapacity capacity)).1.map Except.ok =
          .ok (.error refusal) := refused
      obtain ⟨_, -, same⟩ := Json.exists_of_map_eq_ok mapped
      cases same
  | negSucc capacity => rfl

namespace Http

/-! ## What a response tells -/

/-- The size, the capacity or a counter of an engine, by its name in documents. -/
def numberOf? (engine : Engine) : String → Option Nat
  | "size" => some engine.store.size
  | "capacity" => some engine.store.capacity
  | "requests" => some engine.store.counters.requests
  | "hits" => some engine.store.counters.hits
  | "misses" => some engine.store.counters.misses
  | "evictions" => some engine.store.counters.evictions
  | "expirations" => some engine.store.counters.expirations
  | _ => none

/-- A member with the name of a size, a capacity or a counter has that of the engine. -/
def IsTrue (engine : Engine) (member : String × Json.Document) : Prop :=
  ∀ number, numberOf? engine member.1 = some number → member.2 = .natural number

theorem isTrue_optionalMember {engine : Engine} {name : String}
    (other : numberOf? engine name = none) (number : Option Nat) :
    ∀ member ∈ optionalMember name number, IsTrue engine member := by
  intro member present told expected
  cases number with
  | none => cases present
  | some number =>
      cases List.mem_singleton.mp present
      simp [other] at expected

/-- The members of an object. -/
def membersOf : Json.Document → List (String × Json.Document)
  | .object members => members
  | _ => []

namespace Route

/-- The document in the response to a request that succeeds on the route. It tells the engine that
the request leaves. -/
inductive Shows (request : Request) (after : Engine) : Route → Json.Document → Prop where
  | stored {content : SetRequest} : request.readBody SetRequest.record = .ok content →
      Shows request after .set
        (storedDocument content.key content.lifetimeMillis content.surviveMillis after.store.size)
  | found {segment key text : String} {snapshot : Snapshot} :
      decodeSegment? segment = some key → after.sight? key = some (text, snapshot) →
      Shows request after (.get segment) (foundDocument key text snapshot)
  | removed {segment key : String} : decodeSegment? segment = some key →
      Shows request after (.delete segment) (removedDocument key after.store.size)
  | capacity : Shows request after .capacity (diagnosisDocument after.diagnosis)
  | statistics : Shows request after .statistics (statisticsDocument after.store.statistics)
  | diagnosis : Shows request after .diagnosis (diagnosisDocument after.diagnosis)
  | health {timeOfDay : Timestamp} : after.moment.timeOfDay = .ok timeOfDay →
      Shows request after .health (healthDocument after.control.running timeOfDay)

/-- Such a document tells nothing else of the engine than what is true of it. -/
theorem Shows.isTrue {request : Request} {after : Engine} {route : Route} {document : Json.Document}
    (shows : route.Shows request after document) :
    ∀ member ∈ membersOf document, IsTrue after member := by
  cases shows with
  | stored =>
      simp only [storedDocument, membersOf, List.forall_mem_append, List.forall_mem_singleton]
      refine ⟨⟨⟨?_, isTrue_optionalMember rfl _⟩, isTrue_optionalMember rfl _⟩, ?_⟩
      all_goals simp [IsTrue, numberOf?]
  | found =>
      simp only [foundDocument, membersOf, List.forall_mem_append, List.forall_mem_singleton]
      refine ⟨⟨?_, isTrue_optionalMember rfl _⟩, ?_⟩
      all_goals simp [IsTrue, numberOf?]
  | removed => simp [removedDocument, membersOf, IsTrue, numberOf?]
  | capacity | diagnosis =>
      simp [diagnosisDocument, membersOf, IsTrue, numberOf?, Engine.diagnosis]
  | statistics => simp [statisticsDocument, membersOf, IsTrue, numberOf?, Store.statistics]
  | health => simp [healthDocument, membersOf, IsTrue, numberOf?]

end Route

/-! ## Routes -/

/-- What an answer to a request on the route may be. -/
structure Route.Serves (route : Route) (request : Request) (engine : Engine)
    (answer : Answer Response) : Prop where
  performs : ∀ action, route.Performs request action → answer.2 = (action.run engine).2
  idles : (∀ action, ¬route.Performs request action) → answer.2 = engine
  fails : ∀ response, answer.1 = .ok response → response.status ≠ 200 →
    answer.2 = engine ∨ response.status = 404 ∧
      ∃ key, route.Performs request (.getWithSnapshot key) ∧ engine.LosesAtMost key answer.2
  shows : ∀ response, answer.1 = .ok response → response.status = 200 →
    ∃ document, response.body = .json document ∧ route.Shows request answer.2 document

namespace Server

variable {request : Request} {engine : Engine}

/-- A body that cannot be read is answered with a failure. -/
theorem status_ne_of_readBody_eq {α : Type} {record : Json.Record α} {response : Response}
    (unread : request.readBody record = .error response) : response.status ≠ 200 := by
  rw [Request.readBody] at unread
  split at unread
  · simp only at unread
    split at unread
    · cases unread
    · cases unread
      rw [Response.ofFailure]
      split
      all_goals simp [Response.create]
  · cases unread
    simp [Response.unsupportedMediaType, Response.create]

/-- A request that asks for nothing is served by leaving the engine as it is. -/
theorem serves_of_idle {route : Route} {result : Except Fault Response}
    (idle : ∀ action, ¬route.Performs request action)
    (shows : ∀ response, result = .ok response → response.status = 200 →
      ∃ document, response.body = .json document ∧ route.Shows request engine document) :
    route.Serves request engine (result, engine) where
  performs action performs := absurd performs (idle action)
  idles _ := rfl
  fails _ _ _ := .inl rfl
  shows := shows

theorem serves_of_failure {route : Route} {response : Response}
    (idle : ∀ action, ¬route.Performs request action) (failed : response.status ≠ 200) :
    route.Serves request engine (.ok response, engine) := by
  apply serves_of_idle idle
  intro _ answered succeeded
  cases answered
  exact absurd succeeded failed

/-- A request that asks for an action is served with its result and the engine that it leaves. -/
theorem serves_of_performs {α : Type} {route : Route} {action : Action} {result : Except Fault α}
    {respond : α → Response} {after : Engine} (performs : route.Performs request action)
    (left : after = (action.run engine).2)
    (fails : ∀ answer, result = .ok answer → (respond answer).status ≠ 200 →
      after = engine ∨ (respond answer).status = 404 ∧
        ∃ key, route.Performs request (.getWithSnapshot key) ∧ engine.LosesAtMost key after)
    (shows : ∀ answer, result = .ok answer → (respond answer).status = 200 →
      ∃ document, (respond answer).body = .json document ∧ route.Shows request after document) :
    route.Serves request engine (result.map respond, after) where
  performs other also := by rw [performs.unique also, left]
  idles idle := absurd performs (idle action)
  fails response answered failed := by
    obtain ⟨answer, done, rfl⟩ :=
      Json.exists_of_map_eq_ok (show result.map respond = .ok response from answered)
    exact fails answer done failed
  shows response answered succeeded := by
    obtain ⟨answer, done, rfl⟩ :=
      Json.exists_of_map_eq_ok (show result.map respond = .ok response from answered)
    exact shows answer done succeeded

theorem status_ofRefusal_ne (refusal : Refusal) : (Response.ofRefusal refusal).status ≠ 200 := by
  cases refusal <;>
    simp [Response.ofRefusal, Response.refusalStatus, Response.ofDocument, Response.create]

theorem serves_set : Route.set.Serves request engine (set request engine) := by
  rw [set]
  cases read : request.readBody SetRequest.record with
  | error response =>
      refine serves_of_failure ?_ (status_ne_of_readBody_eq read)
      intro action performs
      cases performs with
      | put readable => cases read.symm.trans readable
  | ok content =>
      simp only
      cases objection : content.objection? with
      | some reason =>
          refine serves_of_failure ?_ (status_ofRefusal_ne _)
          intro action performs
          cases performs with
          | put readable accepted =>
              cases read.symm.trans readable
              cases objection.symm.trans accepted
      | none =>
          apply serves_of_performs (.put read objection) rfl
          case fails => exact fun _ _ failed => absurd rfl failed
          case shows => exact fun _ _ _ => ⟨_, rfl, .stored read⟩

theorem serves_setCapacity : Route.capacity.Serves request engine (setCapacity request engine) := by
  rw [setCapacity]
  cases read : request.readBody CapacityRequest.record with
  | error response =>
      refine serves_of_failure ?_ (status_ne_of_readBody_eq read)
      intro action performs
      cases performs with
      | setCapacity readable => cases read.symm.trans readable
  | ok content =>
      apply serves_of_performs (.setCapacity read) rfl
      case fails =>
        intro answer done failed
        cases answer with
        | ok => exact absurd rfl failed
        | error refusal => exact .inl (Engine.setCapacity_eq_self done)
      case shows =>
        intro answer _ succeeded
        cases answer with
        | ok => exact ⟨_, rfl, .capacity⟩
        | error refusal => exact absurd succeeded (status_ofRefusal_ne refusal)

theorem serves_delete (segment : String) :
    (Route.delete segment).Serves request engine (delete segment engine) := by
  rw [delete]
  cases decoded : decodeSegment? segment with
  | none =>
      refine serves_of_failure ?_ (by simp [Response.invalidSegment, Response.create])
      intro action performs
      cases performs with
      | remove decodable => cases decoded.symm.trans decodable
  | some key =>
      apply serves_of_performs (.remove decoded) rfl
      case fails =>
        intro removed done failed
        cases removed with
        | true => exact absurd rfl failed
        | false => exact .inl (Engine.remove_eq_self done)
      case shows =>
        intro removed _ succeeded
        cases removed with
        | true => exact ⟨_, rfl, .removed decoded⟩
        | false => exact absurd succeeded (status_ofRefusal_ne _)

theorem serves_get (sound : engine.Sound) (segment : String) :
    (Route.get segment).Serves request engine (get segment engine) := by
  rw [get]
  cases decoded : decodeSegment? segment with
  | none =>
      refine serves_of_failure ?_ (by simp [Response.invalidSegment, Response.create])
      intro action performs
      cases performs with
      | get decodable => cases decoded.symm.trans decodable
  | some key =>
      apply serves_of_performs (.get decoded) rfl
      case fails =>
        intro found done failed
        cases found with
        | some found => exact absurd rfl failed
        | none =>
            -- The one failure that leaves a trace: the lookup has been made.
            exact .inr ⟨rfl, key, .get decoded, Engine.losesAtMost_of_unfound sound done⟩
      case shows =>
        intro found done succeeded
        cases found with
        | some found =>
            exact ⟨_, rfl, .found decoded (Engine.sight?_of_found sound done)⟩
        | none => exact absurd succeeded (status_ofRefusal_ne _)

/-- Every route is served by the action that the request asks for. -/
theorem serves (sound : engine.Sound) (route : Route) :
    route.Serves request engine (serve route request engine) := by
  cases route with
  | set => exact serves_set
  | get segment => exact serves_get sound segment
  | delete segment => exact serves_delete segment
  | capacity => exact serves_setCapacity
  | statistics =>
      apply serves_of_idle
      · nofun
      · rintro response ⟨⟩ -
        exact ⟨_, rfl, .statistics⟩
  | diagnosis =>
      apply serves_of_idle
      · nofun
      · rintro response ⟨⟩ -
        exact ⟨_, rfl, .diagnosis⟩
  | health =>
      apply serves_of_idle
      · nofun
      · intro response answered _
        obtain ⟨timeOfDay, readable, rfl⟩ := Json.exists_of_map_eq_ok answered
        exact ⟨_, rfl, .health readable⟩

/-! ## Requests -/

/-- A request does to an engine what the action does that it asks for, or nothing. If it fails, it
changes nothing, or has looked up a key that has no live entry. If it succeeds, what the response
tells is true of the engine that is left. -/
structure Projects (request : Request) (engine : Engine) (answer : Answer Response) : Prop where
  performs : ∀ action, request.Performs action → answer.2 = (action.run engine).2
  idles : (∀ action, ¬request.Performs action) → answer.2 = engine
  fails : ∀ response, answer.1 = .ok response → response.status ≠ 200 →
    answer.2 = engine ∨ response.status = 404 ∧
      ∃ key, request.Performs (.getWithSnapshot key) ∧ engine.LosesAtMost key answer.2
  shows : ∀ response, answer.1 = .ok response → response.status = 200 →
    response.body = .empty ∧ (request.method = "OPTIONS" ∨ request.method = "HEAD") ∨
      ∃ (route : Route) (document : Json.Document), request.path = route.text ∧
        response.body = .json document ∧ route.Shows request answer.2 document ∧
        ∀ member ∈ membersOf document, IsTrue answer.2 member

/-- A request whose method is not admitted is answered without a document. -/
theorem projects_of_refused {response : Response}
    (refused : ∀ route, Route.ofPath? request.path = some route → ¬route.Admits request.method)
    (empty : response.body = .empty) (known : response.status = 200 → request.method = "OPTIONS") :
    Projects request engine (.ok response, engine) where
  performs action performs := absurd performs (Request.not_performs_of_refused refused action)
  idles _ := rfl
  fails _ _ _ := .inl rfl
  shows _ answered succeeded := by
    cases answered
    exact .inl ⟨empty, .inl (known succeeded)⟩

section

variable {route : Route} {answer : Answer Response}
  (found : Route.ofPath? request.path = some route)
  (serves : route.Serves request engine answer)

include found serves

/-- The method is the one that the route expects. -/
theorem projects_of_serves (expected : request.method = route.method) :
    Projects request engine answer := by
  have same (action : Action) : request.Performs action ↔ route.Performs request action :=
    Request.performs_iff_of_admitted found (.inl expected)
  constructor
  case performs => simpa only [same] using serves.performs
  case idles => simpa only [same] using serves.idles
  case fails => simpa only [same] using serves.fails
  case shows =>
    intro response answered succeeded
    obtain ⟨document, body, shows⟩ := serves.shows response answered succeeded
    exact .inr ⟨route, document, (Route.ofPath?_eq_some_iff.mp found).1, body, shows, shows.isTrue⟩

/-- The headers alone are asked for, of what can be got. -/
theorem projects_of_head (head : request.method = "HEAD") (got : route.method = "GET") :
    Projects request engine (answer.1.map (·.withoutBody), answer.2) := by
  have same (action : Action) : request.Performs action ↔ route.Performs request action :=
    Request.performs_iff_of_admitted found (.inr ⟨head, got⟩)
  constructor
  case performs => simpa only [same] using serves.performs
  case idles => simpa only [same] using serves.idles
  case fails =>
    intro response answered failed
    obtain ⟨whole, answeredWhole, rfl⟩ := Json.exists_of_map_eq_ok answered
    simpa only [same, Response.withoutBody] using serves.fails whole answeredWhole failed
  case shows =>
    intro response answered _
    obtain ⟨whole, -, rfl⟩ := Json.exists_of_map_eq_ok answered
    exact .inl ⟨rfl, .inr head⟩

end

/-- Every request is answered in this way by a sound engine. -/
theorem respond_projects (sound : engine.Sound) :
    Projects request engine (respond request engine) := by
  rw [respond]
  by_cases preflight : request.method = "OPTIONS"
  · simp only [if_pos preflight]
    refine projects_of_refused ?_ rfl fun _ => preflight
    intro route _
    cases route <;> simp [Route.Admits, Route.method, preflight]
  · simp only [if_neg preflight]
    cases found : Route.ofPath? request.path with
    | none =>
        refine projects_of_refused ?_ rfl (by simp [Response.create])
        simp [found]
    | some route =>
        have served : route.Serves request engine (serve route request engine) := serves sound route
        by_cases expected : request.method = route.method
        · simp only [if_pos expected]
          exact projects_of_serves found served expected
        · by_cases head : request.method = "HEAD" ∧ route.method = "GET"
          · simp only [if_neg expected, if_pos head]
            exact projects_of_head found served head.1 head.2
          · simp only [if_neg expected, if_neg head]
            refine projects_of_refused ?_ rfl (by simp [Response.create])
            rintro other same
            cases found.symm.trans same
            exact not_or.mpr ⟨expected, head⟩

end Server

/-! ## Histories -/

/-- What happens to an engine behind a server. -/
inductive Occurrence where
  | received (request : Request)
  | called (call : Call)

namespace Occurrence

/-- The engine after it has happened. -/
def run : Occurrence → Engine → Engine
  | .received request, engine => (Server.respond request engine).2
  | .called call, engine => (call.run engine).2

/-- The engine after several things have happened one after the other. -/
def runAll (occurrences : List Occurrence) (engine : Engine) : Engine :=
  occurrences.foldl (fun engine occurrence => occurrence.run engine) engine

variable {engine : Engine}

/-- What happens consists of actions. -/
theorem exists_path (sound : engine.Sound) (occurrence : Occurrence) :
    ∃ events, Path engine events (occurrence.run engine) := by
  cases occurrence with
  | called call => exact ⟨_, call.path_trace engine⟩
  | received request =>
      have projects : Server.Projects request engine (Server.respond request engine) :=
        Server.respond_projects sound
      rw [run]
      -- A request is one action or none, so all that a history adds to a path is requests in vain.
      by_cases asks : ∃ action, request.Performs action
      · obtain ⟨action, performs⟩ := asks
        rw [projects.performs action performs]
        exact ⟨_, .single engine action⟩
      · rw [projects.idles (not_exists.mp asks)]
        exact ⟨[], .nil engine⟩

theorem exists_path_runAll (sound : engine.Sound) (occurrences : List Occurrence) :
    ∃ events, Path engine events (runAll occurrences engine) := by
  induction occurrences generalizing engine with
  | nil => exact ⟨[], .nil engine⟩
  | cons occurrence occurrences ih =>
      obtain ⟨events, path⟩ := occurrence.exists_path sound
      obtain ⟨later, rest⟩ := ih (sound.of_path path)
      exact ⟨events ++ later, path.append rest⟩

end Occurrence

/-- Whatever has happened to an engine, a request does to it what the action does that it asks for,
or nothing. A request that fails changes nothing, unless it has looked up a key that has no live
entry, and what a response tells is true of the engine that is left. -/
theorem Server.projects (origin : Origin) (past : List Occurrence) (request : Request) :
    let engine := Occurrence.runAll past origin.engine
    Projects request engine (respond request engine) := by
  intro engine
  obtain ⟨events, path⟩ := Occurrence.exists_path_runAll origin.sound past
  exact respond_projects (origin.sound.of_path path)

end Http

end RecencyCache
