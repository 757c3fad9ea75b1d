import RecencyCache.Query

/-!
# Programs

Everything that can be done to an engine, as data, and what comes of it. A program is a list of
calls. The supplier of a call that gets or creates a value is itself a program, which runs on the
same engine and may do anything, so programs nest to any depth. Running a program yields one step
for each call: its reply, and the view of the cache after it.
-/

namespace RecencyCache

/-- How a supplier ends. -/
inductive Ending where
  /-- With a value, one that can always be disposed of. -/
  | value (text : String)
  /-- With an error, after which the call stores nothing. -/
  | error
  /-- Broken off by a fault of its own, after which the call stores nothing either. -/
  | broken
  deriving DecidableEq

/-- A call of an engine. -/
inductive Call where
  | ask (question : Query)
  | put (key : Key) (value : Value) (options : EntryOptions)
  | get (key : Key)
  | getWithSnapshot (key : Key)
  | getSince (key : Key) (since : Int)
  /-- Gets a value or has a supplier make it: a program and its end. -/
  | getOrCreate (key : Key) (supplier : List Call) (ending : Ending)
  | remove (key : Key)
  | clear
  | setCapacity (capacity : Int)
  | setRefreshOnHit (refreshOnHit : Bool)
  | purge (default : Option Nat)
  | enable (interval survive : Nat) (name : Option String)
  | disable
  | advance (duration : Nat)

/-- What can be seen of a cache between two calls. -/
structure View where
  capacity : Nat
  size : Nat
  counters : Counters
  /-- All stored entries from the most to the least recently used. -/
  entries : List Entry
  /-- The keys of the live ones. -/
  liveKeys : List Key

/-- What can be seen of an engine. -/
def Engine.view (engine : Engine) : View where
  capacity := engine.store.capacity
  size := engine.store.size
  counters := engine.store.counters
  entries := engine.store.chain.toList
  liveKeys := engine.store.keysByRecency engine.now

mutual

/-- The reply to a call. -/
inductive Reply where
  /-- The call is done and has nothing to tell. -/
  | done
  | finding (finding : Finding)
  /-- The text of a value, if one was found. -/
  | found (text : Option String)
  | foundWithSnapshot (found : Option (String × Snapshot))
  /-- The value that was found or made, and the steps of the supplier if it was called. -/
  | created (text : Option String) (supplied : Option (List Step))
  | flag (truth : Bool)
  | count (number : Nat)
  | refused (refusal : Refusal)
  | broken (fault : Fault)

/-- A reply and the view of the cache after it. -/
inductive Step where
  | mk (reply : Reply) (view : View)

end

namespace Reply

/-- The reply that tells the result of an operation. -/
def ofResult {α : Type} (tell : α → Reply) : Except Fault α → Reply
  | .ok result => tell result
  | .error fault => .broken fault

end Reply

namespace Call

mutual

/-- Makes a call. -/
def run : Call → Engine → Reply × Engine
  | .ask question, engine => (.finding (question.ask engine), engine)
  | .put key value options, engine =>
      let (result, engine) := engine.put key value options
      (.ofResult (fun _ => .done) result, engine)
  | .get key, engine =>
      let (result, engine) := engine.get key
      (.ofResult .found result, engine)
  | .getWithSnapshot key, engine =>
      let (result, engine) := engine.getWithSnapshot key
      (.ofResult .foundWithSnapshot result, engine)
  | .getSince key since, engine =>
      let (result, engine) := engine.getSince key since
      (.ofResult .found result, engine)
  | .getOrCreate key supplier ending, engine =>
      match engine.get key with
      | (.error fault, engine) => (.broken fault, engine)
      | (.ok (some text), engine) => (.created (some text) none, engine)
      | (.ok none, engine) =>
          let (steps, engine) := runAll supplier engine
          match ending with
          | .value text =>
              let (result, engine) := engine.putIfAbsent key text
              (.ofResult (fun text => .created (some text) (some steps)) result, engine)
          | .error | .broken => (.created none (some steps), engine)
  | .remove key, engine =>
      let (result, engine) := engine.remove key
      (.ofResult .flag result, engine)
  | .clear, engine =>
      let (result, engine) := engine.clear
      (.ofResult (fun _ => .done) result, engine)
  | .setCapacity capacity, engine =>
      let (result, engine) := engine.setCapacity capacity
      let tell
        | .ok _ => .done
        | .error refusal => .refused refusal
      (.ofResult tell result, engine)
  | .setRefreshOnHit refreshOnHit, engine => (.done, engine.setRefreshOnHit refreshOnHit)
  | .purge default, engine =>
      let (result, engine) := engine.purge default
      (.ofResult .count result, engine)
  | .enable interval survive name, engine =>
      let (result, engine) := engine.enable interval survive name
      (.ofResult .flag result, engine)
  | .disable, engine => (.done, engine.disable)
  | .advance duration, engine => (.done, engine.advance duration)

/-- Makes several calls, one after the other. -/
def runAll : List Call → Engine → List Step × Engine
  | [], engine => ([], engine)
  | call :: calls, engine =>
      let (reply, engine) := call.run engine
      let step := Step.mk reply engine.view
      let (steps, engine) := runAll calls engine
      (step :: steps, engine)

end

end Call

end RecencyCache
