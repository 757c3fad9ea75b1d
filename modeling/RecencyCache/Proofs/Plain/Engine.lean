import RecencyCache.Proofs.Plain.Store
import RecencyCache.Proofs.Trace

/-!
# Plain engines

A reference for the engine: a plain store with the clock and the sweepers of an engine. Its actions,
its answers to questions and its programs are defined anew in terms of the list of entries.
-/

namespace RecencyCache

/-- A plain store at one moment, with its sweepers. -/
structure PlainEngine where
  store : PlainStore
  control : SweepControl := {}
  sleepers : List Sleeper := []
  now : Nat := 0
  epoch : Int

namespace PlainEngine

/-- An empty cache at time zero. -/
def create (capacity : Nat) (epoch : Int) : PlainEngine where
  store := { capacity }
  epoch

/-- The current moment. -/
def moment (engine : PlainEngine) : Moment := .after engine.epoch engine.now

/-! ## Questions -/

/-- A diagnosis of the cache. -/
def diagnosis (engine : PlainEngine) : Diagnosis where
  capacity := engine.store.capacity
  size := engine.store.entries.length
  fillRate := rate engine.store.entries.length engine.store.capacity
  hitRate := engine.store.counters.hitRate
  sweepRunning := engine.control.running
  intervalMillis := engine.control.intervalMillis
  surviveMillis := engine.control.surviveMillis

/-- A short description in one line. -/
def debugText (engine : PlainEngine) : String :=
  "CacheEngine \x7b capacity: " ++ Decimal.padded 1 engine.store.capacity
    ++ ", size: " ++ Decimal.padded 1 engine.store.entries.length
    ++ ", sweep_running: " ++ truthText engine.control.running ++ " \x7d"

/-- The names of the threads asleep and the time until each wakes, in the order of name and time. -/
def sleepTimes (engine : PlainEngine) : List (String × Nat) :=
  (engine.sleepers.map fun sleeper => (sleeper.name, sleeper.wakeAt - engine.now)).mergeSort
    fun left right => left.1 < right.1 || (left.1 == right.1 && left.2 ≤ right.2)

mutual

/-- The answer to a question. -/
def ask : Query → PlainEngine → Finding
  | .contains key, engine => .flag (engine.store.live? key engine.now).isSome
  | .peek key, engine =>
      .optionalText ((engine.store.live? key engine.now).map (·.value.text))
  | .snapshot key, engine =>
      .snapshot ((engine.store.live? key engine.now).map (·.snapshot engine.now))
  | .keysByRecency, engine => .keys (engine.store.liveKeys engine.now)
  | .mostRecent, engine => .optionalText (engine.store.liveKeys engine.now).head?
  | .leastRecent, engine => .optionalText (engine.store.liveKeys engine.now).getLast?
  | .capacity, engine => .count engine.store.capacity
  | .size, engine => .count engine.store.entries.length
  | .isEmpty, engine => .flag engine.store.entries.isEmpty
  | .refreshOnHit, engine => .flag engine.store.refreshOnHit
  | .sweepRunning, engine => .flag engine.control.running
  | .fillRate, engine => .rate (rate engine.store.entries.length engine.store.capacity)
  | .hitRate, engine => .rate engine.store.counters.hitRate
  | .statistics, engine => .statistics engine.store.statistics
  | .diagnosis, engine => .diagnosis engine.diagnosis
  | .diagnosisText, engine => .text engine.diagnosis.render
  | .debugText, engine => .text engine.debugText
  | .sleepTimes, engine => .sleepTimes engine.sleepTimes
  | .traverse questions, engine =>
      let findings := askAll questions engine
      .visits ((engine.store.liveByKey engine.now).map fun entry =>
        (entry.key, entry.value.text, findings))

/-- The answers to several questions. -/
def askAll : List Query → PlainEngine → List Finding
  | [], _ => []
  | question :: questions, engine => ask question engine :: askAll questions engine

end

/-! ## Actions -/

/-- Goes on with the store that an operation leaves, and replies with its result. -/
def conclude {α : Type} (engine : PlainEngine) (tell : α → Reply)
    (outcome : Except Fault α × PlainStore) : Reply × PlainEngine :=
  (.ofResult tell outcome.1, { engine with store := outcome.2 })

/-- A reply tells the answer unless a faulty value was disposed of. -/
theorem ofResult_disposing {α : Type} (tell : α → Reply) (disposed : List Value) (answer : α) :
    Reply.ofResult tell (disposing disposed answer) =
      if disposed.any (·.faulty) then .broken .disposal else tell answer := by
  rw [disposing]
  split <;> rfl

/-- A newly made value is stored unless its key has a live entry by now. The reply tells the value
that is stored in the end. -/
def putIfAbsent (engine : PlainEngine) (key : Key) (text : String) (tell : String → Reply) :
    Reply × PlainEngine :=
  match engine.store.live? key engine.now with
  | some entry => (tell entry.value.text, engine)
  | none =>
      engine.conclude (fun _ => tell text) (engine.store.put key { text } {} engine.moment)

/-- A sweeper starts unless a duration is zero or one is running. Its settings are stored even if
its name is one that no thread can bear. -/
def enable (engine : PlainEngine) (interval survive : Nat) (name : Option String) :
    Reply × PlainEngine :=
  if positive : 0 < interval then
    if survive = 0 ∨ engine.control.running = true then (.flag false, engine)
    else
      let name := name.getD Sleeper.defaultName
      let control := engine.control.start interval survive
      if name.toList.contains '\x00' then (.broken (.nameWithNul name), { engine with control })
      else
        let sleeper : Sleeper :=
          { name
            generation := control.generation
            interval
            interval_pos := positive
            wakeAt := engine.now + interval }
        (.flag true, { engine with control, sleepers := engine.sleepers ++ [sleeper] })
  else (.flag false, engine)

/-- A sweeper starts alike whatever is stored. -/
theorem enable_withStore (engine : PlainEngine) (store : PlainStore) (interval survive : Nat)
    (name : Option String) :
    enable { engine with store } interval survive name =
      ((engine.enable interval survive name).1,
        { (engine.enable interval survive name).2 with store }) := by
  rw [enable, enable]
  split
  · split
    · rfl
    · simp only
      split
      · rfl
      · rfl
  · rfl

@[simp] theorem store_enable (engine : PlainEngine) (interval survive : Nat)
    (name : Option String) : (engine.enable interval survive name).2.store = engine.store :=
  congrArg (·.2.store) (engine.enable_withStore engine.store interval survive name)

/-- The sleeper between `before` and `after` wakes: the current one sweeps and goes to sleep
again, any other one ends. -/
def wake (engine : PlainEngine) (before : List Sleeper) (sleeper : Sleeper)
    (after : List Sleeper) : PlainEngine :=
  let now := sleeper.wakeAt
  if engine.control.isCurrent sleeper.generation then
    { engine with
      store := (engine.store.sweep now engine.control.surviveTime).2
      sleepers := before ++ sleeper.renewed :: after
      now }
  else { engine with sleepers := before ++ after, now }

/-- The reply to an action, and the engine after it. -/
def act : Action → PlainEngine → Reply × PlainEngine
  | .ask question, engine => (.finding (ask question engine), engine)
  | .put key value options, engine =>
      engine.conclude (fun _ => .done) (engine.store.put key value options engine.moment)
  | .get key, engine =>
      engine.conclude (fun entry => .found (entry.map (·.value.text)))
        (engine.store.lookup key engine.now)
  | .getWithSnapshot key, engine =>
      engine.conclude
        (fun entry => .foundWithSnapshot
          (entry.map fun entry => (entry.value.text, entry.snapshot engine.now)))
        (engine.store.lookup key engine.now)
  | .getSince key since, engine =>
      engine.conclude (fun entry => .found (entry.map (·.value.text)))
        (engine.store.lookupSince key since engine.now)
  | .putIfAbsent key text, engine =>
      engine.putIfAbsent key text fun text => .found (some text)
  | .remove key, engine => engine.conclude .flag (engine.store.remove key)
  | .clear, engine => engine.conclude (fun _ => .done) engine.store.clear
  | .setCapacity (.ofNat capacity), engine =>
      engine.conclude (fun _ => .done) (engine.store.setCapacity capacity)
  | .setCapacity (.negSucc capacity), engine =>
      (.refused (.invalidCapacity (.negSucc capacity)), engine)
  | .setRefreshOnHit refreshOnHit, engine =>
      (.done, { engine with store := { engine.store with refreshOnHit } })
  | .purge default, engine => engine.conclude .count (engine.store.sweep engine.now default)
  | .enable interval survive name, engine => engine.enable interval survive name
  | .disable, engine => (.done, { engine with control := engine.control.stop })
  | .wake, engine =>
      match Sleeper.splitEarliest? engine.sleepers with
      | none => (.done, engine)
      | some (before, sleeper, after) => (.done, engine.wake before sleeper after)
  | .rest time, engine => (.done, { engine with now := time })

/-- Whoever wakes sweeps the store or leaves it as it is. -/
theorem store_act_wake (engine : PlainEngine) :
    (act .wake engine).2.store = engine.store ∨
      ∃ now default, (act .wake engine).2.store = (engine.store.sweep now default).2 := by
  rw [act]
  split
  · exact .inl rfl
  · rename_i sleeper _ _
    rw [wake]
    split
    · exact .inr ⟨sleeper.wakeAt, engine.control.surviveTime, rfl⟩
    · exact .inl rfl

/-- The replies to several actions, one after the other, each with the engine after it. -/
def replay : List Action → PlainEngine → List (Reply × PlainEngine)
  | [], _ => []
  | action :: actions, engine => act action engine :: replay actions (act action engine).2

/-! ## Programs -/

theorem slack_wake_lt {engine : PlainEngine} {target : Nat} {before after : List Sleeper}
    {sleeper : Sleeper} (due : sleeper.wakeAt ≤ target) :
    Sleeper.slack target (engine.wake before sleeper after).sleepers
      < Sleeper.slack target (before ++ sleeper :: after) := by
  simp only [wake]
  split
  · exact Sleeper.slack_renewed_lt due
  · exact Sleeper.slack_ended_lt due

/-- Time passes up to `target`, and each sleeper that is due by then wakes. -/
def runUntil (engine : PlainEngine) (target : Nat) : PlainEngine :=
  match _split : Sleeper.splitEarliest? engine.sleepers with
  | none => { engine with now := target }
  | some (before, sleeper, after) =>
      if sleeper.wakeAt ≤ target then (engine.wake before sleeper after).runUntil target
      else { engine with now := target }
termination_by Sleeper.slack target engine.sleepers
decreasing_by
  rw [Sleeper.eq_append_of_splitEarliest? _split]
  exact slack_wake_lt (by assumption)

/-- While nobody is due, time passes at once. -/
theorem runUntil_of_idle {engine : PlainEngine} {target : Nat}
    (idle : ∀ before sleeper after,
      Sleeper.splitEarliest? engine.sleepers = some (before, sleeper, after) →
        ¬sleeper.wakeAt ≤ target) :
    engine.runUntil target = { engine with now := target } := by
  rw [runUntil]
  split
  · rfl
  · rename_i split
    rw [if_neg (idle _ _ _ split)]

/-- The sleeper that is due first wakes before the others. -/
theorem runUntil_of_due {engine : PlainEngine} {target : Nat} {before after : List Sleeper}
    {sleeper : Sleeper}
    (split : Sleeper.splitEarliest? engine.sleepers = some (before, sleeper, after))
    (due : sleeper.wakeAt ≤ target) :
    engine.runUntil target = (engine.wake before sleeper after).runUntil target := by
  rw [runUntil]
  split
  · rename_i asleep
    simp [split] at asleep
  · rename_i again
    cases split.symm.trans again
    rw [if_pos due]

/-- What can be seen of the cache. -/
def view (engine : PlainEngine) : View where
  capacity := engine.store.capacity
  size := engine.store.entries.length
  counters := engine.store.counters
  entries := engine.store.entries
  liveKeys := engine.store.liveKeys engine.now

mutual

/-- Makes a call. -/
def run : Call → PlainEngine → Reply × PlainEngine
  | .ask question, engine => act (.ask question) engine
  | .put key value options, engine => act (.put key value options) engine
  | .get key, engine => act (.get key) engine
  | .getWithSnapshot key, engine => act (.getWithSnapshot key) engine
  | .getSince key since, engine => act (.getSince key since) engine
  | .getOrCreate key supplier ending, engine =>
      match engine.store.lookup key engine.now with
      | (.error fault, store) => (.broken fault, { engine with store })
      | (.ok (some entry), store) =>
          (.created (some entry.value.text) none, { engine with store })
      | (.ok none, store) =>
          let (steps, engine) := runAll supplier { engine with store }
          match ending with
          | .error | .broken => (.created none (some steps), engine)
          | .value text =>
              engine.putIfAbsent key text fun text => .created (some text) (some steps)
  | .remove key, engine => act (.remove key) engine
  | .clear, engine => act .clear engine
  | .setCapacity capacity, engine => act (.setCapacity capacity) engine
  | .setRefreshOnHit refreshOnHit, engine => act (.setRefreshOnHit refreshOnHit) engine
  | .purge default, engine => act (.purge default) engine
  | .enable interval survive name, engine => act (.enable interval survive name) engine
  | .disable, engine => act .disable engine
  | .advance duration, engine => (.done, engine.runUntil (engine.now + duration))

/-- Makes several calls, one after the other. -/
def runAll : List Call → PlainEngine → List Step × PlainEngine
  | [], engine => ([], engine)
  | call :: calls, engine =>
      let (reply, engine) := run call engine
      let step := Step.mk reply engine.view
      let (steps, engine) := runAll calls engine
      (step :: steps, engine)

end

/-- An empty cache with the given settings, which starts a sweeper if the interval is not zero. -/
def ofConfig (config : Config) (epoch : Int) : PlainEngine :=
  let engine : PlainEngine :=
    { store := { capacity := config.capacity, refreshOnHit := config.refreshOnHit }
      control := { surviveMillis := config.surviveMillis }
      epoch }
  (engine.enable config.interval config.surviveTime none).2

end PlainEngine

/-- The plain engine that is made. -/
def Origin.plain : Origin → PlainEngine
  | .create capacity epoch => .create capacity epoch
  | .ofConfig config epoch => .ofConfig config epoch

end RecencyCache
