import RecencyCache.Config
import RecencyCache.Fault
import RecencyCache.Refusal
import RecencyCache.Store
import RecencyCache.Sweeper

/-!
# Engine

A store with a clock and its sweepers. An operation takes no time, and answers with its result or
with the fault that broke it off; in either case it has an engine to go on with. Time passes only
in `advance`, during which the sleeping sweepers that are due wake one after the other.

An engine lasts as long as its history. Left out are the end of an engine, after which its sweepers
end as they wake, what is written to a log, and a thread that the system refuses to start.
-/

namespace RecencyCache

/-- A cache at one moment. -/
structure Engine where
  store : Store
  control : SweepControl := {}
  /-- The threads that are asleep, in the order in which they were started. -/
  sleepers : List Sleeper := []
  now : Nat := 0
  /-- The time of day, in nanoseconds since the start of 1970, at which the clock read zero. -/
  epoch : Int

/-- The result of an operation, or the fault that broke it off, and the engine afterwards. -/
abbrev Answer (α : Type) := Except Fault α × Engine

namespace Engine

/-- The current moment. -/
def moment (engine : Engine) : Moment := .after engine.epoch engine.now

/-- Adopts the outcome of a step on the store. Disposing of a faulty value breaks the operation off
after the step, but goes unnoticed if the step itself was broken off. -/
def adopt {α : Type} (engine : Engine) : Option (Outcome α) → Answer α
  | none => (.error .danglingSlot, engine)
  | some outcome =>
      let result := match outcome.interruption with
        | some fault => .error fault
        | none =>
            if outcome.disposed.any (·.faulty) then .error .disposal else .ok outcome.answer
      (result, { engine with store := outcome.store })

/-! ## Writing -/

/-- Stores a value. -/
def put (engine : Engine) (key : Key) (value : Value) (options : EntryOptions) : Answer Unit :=
  engine.adopt (engine.store.put key value options engine.moment)

/-- Takes out the entry of a key, dead or alive, and tells whether there was one. -/
def remove (engine : Engine) (key : Key) : Answer Bool :=
  engine.adopt (engine.store.remove key)

/-- Takes out all entries and starts the counters anew. -/
def clear (engine : Engine) : Answer Unit :=
  engine.adopt (some engine.store.clear)

/-- Changes the capacity; a negative one is refused. -/
def setCapacity (engine : Engine) (capacity : Int) : Answer (Except Refusal Unit) :=
  match capacity with
  | .ofNat capacity =>
      let (result, engine) := engine.adopt (engine.store.setCapacity capacity)
      (result.map .ok, engine)
  | .negSucc _ => (.ok (.error (.invalidCapacity capacity)), engine)

/-- Chooses whether a hit refreshes the access time of its entry. -/
def setRefreshOnHit (engine : Engine) (refreshOnHit : Bool) : Engine :=
  { engine with store := { engine.store with refreshOnHit } }

/-- Takes out every entry whose time is over, with `default` as the survive time of entries that
have none of their own, and tells their number. -/
def purge (engine : Engine) (default : Option Nat) : Answer Nat :=
  engine.adopt (engine.store.sweep engine.now default)

/-! ## Looking up -/

/-- The value of a key, which becomes the most recently used one. -/
def get (engine : Engine) (key : Key) : Answer (Option String) :=
  let (result, engine) := engine.adopt (engine.store.lookup key engine.now)
  (result.map fun entry => entry.map (·.value.text), engine)

/-- The value of a key with its data as of this hit. -/
def getWithSnapshot (engine : Engine) (key : Key) : Answer (Option (String × Snapshot)) :=
  let (result, after) := engine.adopt (engine.store.lookup key engine.now)
  (result.map fun entry => entry.map fun entry =>
    (entry.value.text, entry.snapshot engine.now), after)

/-- The value of a key that was stored at `since` or later. -/
def getSince (engine : Engine) (key : Key) (since : Int) : Answer (Option String) :=
  let (result, engine) := engine.adopt (engine.store.lookupSince key since engine.now)
  (result.map fun entry => entry.map (·.value.text), engine)

/-- Stores a newly made value unless a live entry of its key has appeared meanwhile, and answers
with the value that is stored in the end. Disposing of a newly made value never fails. -/
def putIfAbsent (engine : Engine) (key : Key) (text : String) : Answer String :=
  match engine.store.live? key engine.now with
  | some entry => (.ok entry.value.text, engine)
  | none =>
      let (result, engine) := engine.put key { text } {}
      (result.map fun _ => text, engine)

/-! ## Sweeping -/

/-- Starts a sweeper and tells whether it did: it does nothing if one is running already or if one
of the durations is zero. The settings are stored before the thread is made, which fails for a name
with the character NUL. -/
def enable (engine : Engine) (interval survive : Nat) (name : Option String) :
    Answer Bool :=
  if positive : 0 < interval ∧ 0 < survive then
    if engine.control.running then (.ok false, engine)
    else
      let name := name.getD Sleeper.defaultName
      let engine := { engine with control := engine.control.start interval survive }
      if name.toList.contains '\x00' then (.error (.nameWithNul name), engine)
      else
        let sleeper : Sleeper :=
          { name
            generation := engine.control.generation
            interval
            interval_pos := positive.1
            wakeAt := engine.now + interval }
        (.ok true, { engine with sleepers := engine.sleepers ++ [sleeper] })
  else (.ok false, engine)

/-- A sweeper starts alike whatever is stored. -/
theorem enable_withStore (engine : Engine) (store : Store) (interval survive : Nat)
    (name : Option String) :
    enable { engine with store } interval survive name =
      ((engine.enable interval survive name).1,
        { (engine.enable interval survive name).2 with store }) := by
  rw [enable, enable]
  split
  · split
    · rfl
    · simp only
      split <;> rfl
  · rfl

theorem store_enable (engine : Engine) (interval survive : Nat) (name : Option String) :
    (engine.enable interval survive name).2.store = engine.store :=
  congrArg (·.2.store) (engine.enable_withStore engine.store interval survive name)

/-- Switches the running sweeper off. -/
def disable (engine : Engine) : Engine :=
  { engine with control := engine.control.stop }

/-- One pass of the current sweeper, which no faulty value stops. -/
def sweepPass (engine : Engine) : Engine :=
  match engine.store.sweep engine.now engine.control.surviveTime with
  | some outcome => { engine with store := outcome.store }
  | none => engine

/-! ## Time -/

/-- Wakes the sleeper between `before` and `after`: the current one sweeps and goes to sleep again,
any other one ends. -/
def wake (engine : Engine) (before : List Sleeper) (sleeper : Sleeper) (after : List Sleeper) :
    Engine :=
  let engine := { engine with now := sleeper.wakeAt }
  if engine.control.isCurrent sleeper.generation then
    { engine.sweepPass with sleepers := before ++ sleeper.renewed :: after }
  else { engine with sleepers := before ++ after }

theorem slack_wake_lt {engine : Engine} {target : Nat} {before after : List Sleeper}
    {sleeper : Sleeper} (due : sleeper.wakeAt ≤ target) :
    Sleeper.slack target (engine.wake before sleeper after).sleepers
      < Sleeper.slack target (before ++ sleeper :: after) := by
  simp only [wake]
  split
  · exact Sleeper.slack_renewed_lt due
  · exact Sleeper.slack_ended_lt due

/-- Lets time pass up to `target`, waking each sleeper that is due by then. -/
def runUntil (engine : Engine) (target : Nat) : Engine :=
  match _split : Sleeper.splitEarliest? engine.sleepers with
  | none => { engine with now := target }
  | some (before, sleeper, after) =>
      if sleeper.wakeAt ≤ target then (engine.wake before sleeper after).runUntil target
      else { engine with now := target }
termination_by Sleeper.slack target engine.sleepers
decreasing_by
  rw [Sleeper.eq_append_of_splitEarliest? _split]
  exact slack_wake_lt (by assumption)

/-- Lets time pass. -/
def advance (engine : Engine) (duration : Nat) : Engine :=
  engine.runUntil (engine.now + duration)

/-! ## Making an engine -/

/-- An empty cache at time zero. -/
def create (capacity : Nat) (epoch : Int) : Engine where
  store := { capacity }
  epoch

/-- An empty cache with the given settings, which starts a sweeper if the interval is not zero. -/
def ofConfig (config : Config) (epoch : Int) : Engine :=
  let engine := (create config.capacity epoch).setRefreshOnHit config.refreshOnHit
  let engine :=
    { engine with control := { engine.control with surviveMillis := config.surviveMillis } }
  (engine.enable config.interval config.surviveTime none).2

/-! ## Reporting -/

/-- A diagnosis of the cache. -/
def diagnosis (engine : Engine) : Diagnosis where
  capacity := engine.store.capacity
  size := engine.store.size
  fillRate := engine.store.fillRate
  hitRate := engine.store.counters.hitRate
  sweepRunning := engine.control.running
  intervalMillis := engine.control.intervalMillis
  surviveMillis := engine.control.surviveMillis

/-- A short description for debugging, in one line. -/
def debugText (engine : Engine) : String :=
  "CacheEngine \x7b capacity: " ++ Decimal.padded 1 engine.store.capacity
    ++ ", size: " ++ Decimal.padded 1 engine.store.size
    ++ ", sweep_running: " ++ truthText engine.control.running ++ " \x7d"

/-- The names of the threads asleep and the time until each wakes, in the order of name and
time. -/
def sleepTimes (engine : Engine) : List (String × Nat) :=
  (engine.sleepers.map fun sleeper => (sleeper.name, sleeper.wakeAt - engine.now)).mergeSort
    fun left right => left.1 < right.1 || (left.1 == right.1 && left.2 ≤ right.2)

end Engine

end RecencyCache
