import RecencyCache.Proofs.Trace

/-!
# Values

No operation looks at a value before it disposes of it. Changing all stored values and those that
are to be stored has no other effect on what an operation leaves: slots, links and directory, data
and counters are the same.
-/

namespace RecencyCache

/-- Two steps in a row commute with a change if each of them does. -/
theorem bind_eq_map_bind {α β γ δ : Type} {first : Option α} {firstChanged : Option β}
    {second : α → Option γ} {secondChanged : β → Option δ} {change : α → β} {finish : γ → δ}
    (alike : firstChanged = first.map change)
    (alikeAfter : ∀ result, secondChanged (change result) = (second result).map finish) :
    firstChanged.bind secondChanged = (first.bind second).map finish := by
  rw [alike]
  cases first with
  | none => rfl
  | some result => exact alikeAfter result

/-! ## Chains -/

/-- The entry with its value changed. -/
def Entry.mapValue (change : Value → Value) (entry : Entry) : Entry :=
  { entry with value := change entry.value }

/-- The occupied slot with the value of its entry changed. -/
def Node.mapValue (change : Value → Value) (node : Node) : Node :=
  { node with entry := node.entry.mapValue change }

namespace Chain

/-- The chain with all values changed. -/
def mapValues (change : Value → Value) (chain : Chain) : Chain :=
  { chain with slots := chain.slots.map (·.map (·.mapValue change)) }

variable {change : Value → Value} (chain : Chain)

theorem node?_mapValues (slot : Nat) :
    (chain.mapValues change).node? slot = (chain.node? slot).map (·.mapValue change) := by
  rw [node?, node?, mapValues, Array.getElem?_map]
  rcases chain.slots[slot]? with _ | _ | node <;> rfl

theorem entry?_mapValues (slot : Nat) :
    entry? (chain.mapValues change) slot = (chain.entry? slot).map (·.mapValue change) := by
  rw [ entry?, entry?, node?_mapValues, Option.map_map, Option.map_map]
  rfl

theorem find?_mapValues (key : Key) :
    (chain.mapValues change).find? key = (chain.find? key).map (·.mapValue change) := by
  rw [find?, find?, show (chain.mapValues change).slotOf? key = chain.slotOf? key from rfl]
  cases chain.slotOf? key with
  | none => rfl
  | some slot => exact chain.entry?_mapValues slot

theorem slotsFrom_mapValues (fuel : Nat) (slot : Option Nat) :
    (chain.mapValues change).slotsFrom fuel slot = chain.slotsFrom fuel slot := by
  induction fuel generalizing slot with
  | zero => rfl
  | succ fuel ih =>
      cases slot with
      | none => rfl
      | some slot =>
          rw [slotsFrom, slotsFrom, node?_mapValues]
          cases chain.node? slot with
          | none => rfl
          | some node => exact congrArg (slot :: ·) (ih node.older)

theorem toList_mapValues :
    (chain.mapValues change).toList = chain.toList.map (·.mapValue change) := by
  have order : (chain.mapValues change).order = chain.order := by
    rw [order, order, slotsFrom_mapValues, mapValues, Array.size_map]
  have entries : entry? (chain.mapValues change) =
      fun slot => (chain.entry? slot).map (·.mapValue change) := funext chain.entry?_mapValues
  rw [toList, toList, order, entries, List.map_filterMap]

theorem modify_mapValues (slot : Nat) {modification : Node → Node}
    (alike : ∀ node, modification (node.mapValue change) = (modification node).mapValue change) :
    (chain.mapValues change).modify slot modification =
      (chain.modify slot modification).map (mapValues change) := by
  rw [modify, modify, node?_mapValues, Option.map_map, Option.map_map]
  refine Option.map_congr fun node _ => ?_
  simp [mapValues, alike]

theorem setOlder_mapValues (slot older : Option Nat) :
    (chain.mapValues change).setOlder slot older =
      (chain.setOlder slot older).map (mapValues change) := by
  cases slot with
  | none => rfl
  | some slot => exact chain.modify_mapValues slot fun _ => rfl

theorem setNewer_mapValues (slot newer : Option Nat) :
    (chain.mapValues change).setNewer slot newer =
      (chain.setNewer slot newer).map (mapValues change) := by
  cases slot with
  | none => rfl
  | some slot => exact chain.modify_mapValues slot fun _ => rfl

theorem unlink_mapValues (slot : Nat) :
    (chain.mapValues change).unlink slot = (chain.unlink slot).map (mapValues change) :=
  bind_eq_map_bind (chain.node?_mapValues slot) fun node =>
    bind_eq_map_bind (chain.setOlder_mapValues node.newer node.older) fun chain =>
      bind_eq_map_bind (chain.setNewer_mapValues node.older node.newer) fun chain =>
        chain.modify_mapValues slot fun _ => rfl

theorem linkNewest_mapValues (slot : Nat) :
    (chain.mapValues change).linkNewest slot = (chain.linkNewest slot).map (mapValues change) :=
  bind_eq_map_bind (chain.modify_mapValues slot fun _ => rfl) fun linked =>
    bind_eq_map_bind (linked.setNewer_mapValues chain.newest (some slot)) fun _ => rfl

theorem moveToFront_mapValues (slot : Nat) :
    (chain.mapValues change).moveToFront slot =
      (chain.moveToFront slot).map (mapValues change) := by
  rw [moveToFront, moveToFront, show (chain.mapValues change).newest = chain.newest from rfl]
  split
  · rfl
  · exact bind_eq_map_bind (chain.unlink_mapValues slot) fun unlinked =>
      unlinked.linkNewest_mapValues slot

theorem updateEntry_mapValues (slot : Nat) {update : Entry → Entry}
    (alike : ∀ entry, update (entry.mapValue change) = (update entry).mapValue change) :
    (chain.mapValues change).updateEntry slot update =
      (chain.updateEntry slot update).map (mapValues change) :=
  chain.modify_mapValues slot fun node =>
    congrArg (fun entry => { node with entry }) (alike node.entry)

theorem allocate_mapValues (entry : Entry) :
    (chain.mapValues change).allocate (entry.mapValue change) =
      (chain.allocate entry).map fun (slot, chain) => (slot, chain.mapValues change) := by
  rw [allocate, allocate, show (chain.mapValues change).free = chain.free from rfl]
  have size : (chain.mapValues change).slots.size = chain.slots.size := Array.size_map
  rw [size]
  cases chain.free with
  | nil => simp [mapValues, Node.mapValue]
  | cons slot free =>
      simp only
      split
      · simp [mapValues, Node.mapValue]
      · rfl

theorem insert_mapValues (entry : Entry) :
    (chain.mapValues change).insert (entry.mapValue change) =
      (chain.insert entry).map fun (slot, chain) => (slot, chain.mapValues change) :=
  bind_eq_map_bind (chain.allocate_mapValues entry) fun (slot, allocated) =>
    bind_eq_map_bind (allocated.linkNewest_mapValues slot) fun _ => rfl

theorem removeAt_mapValues (slot : Nat) :
    (chain.mapValues change).removeAt slot =
      (chain.removeAt slot).map fun (entry, chain) =>
        (entry.mapValue change, chain.mapValues change) := by
  refine bind_eq_map_bind (chain.unlink_mapValues slot) fun unlinked => ?_
  refine bind_eq_map_bind (unlinked.entry?_mapValues slot) fun entry => ?_
  simp [mapValues, Entry.mapValue]

theorem remove_mapValues (key : Key) :
    (chain.mapValues change).remove key =
      (chain.remove key).map fun (entry, chain) =>
        (entry.map (·.mapValue change), chain.mapValues change) := by
  rw [remove, remove, show (chain.mapValues change).slotOf? key = chain.slotOf? key from rfl]
  cases chain.slotOf? key with
  | none => rfl
  | some slot => exact bind_eq_map_bind (chain.removeAt_mapValues slot) fun _ => rfl

theorem popOldest_mapValues (count : Nat) :
    (chain.mapValues change).popOldest count =
      (chain.popOldest count).map fun (entries, chain) =>
        (entries.map (·.mapValue change), chain.mapValues change) := by
  induction count generalizing chain with
  | zero => rfl
  | succ count ih =>
      rw [popOldest, popOldest, show (chain.mapValues change).oldest = chain.oldest from rfl]
      cases chain.oldest with
      | none => rfl
      | some slot =>
          exact bind_eq_map_bind (chain.removeAt_mapValues slot) fun (_, left) =>
            bind_eq_map_bind (ih left) fun _ => rfl

theorem removeSlots_mapValues (slots : List Nat) :
    (chain.mapValues change).removeSlots slots =
      (chain.removeSlots slots).map fun (entries, chain) =>
        (entries.map (·.mapValue change), chain.mapValues change) := by
  induction slots generalizing chain with
  | nil => rfl
  | cons slot slots ih =>
      exact bind_eq_map_bind (chain.removeAt_mapValues slot) fun (_, left) =>
        bind_eq_map_bind (ih left) fun _ => rfl

theorem removeWhere_mapValues {condition : Entry → Bool}
    (alike : ∀ entry, condition (entry.mapValue change) = condition entry) :
    (chain.mapValues change).removeWhere condition =
      (chain.removeWhere condition).map fun (entries, chain) =>
        (entries.map (·.mapValue change), chain.mapValues change) := by
  have slots : (chain.mapValues change).slotsWhere condition = chain.slotsWhere condition := by
    rw [slotsWhere, slotsWhere, show (chain.mapValues change).directory = chain.directory from rfl]
    refine List.filter_congr fun slot _ => ?_
    rw [entry?_mapValues, Option.any_map]
    exact congrArg (Option.any · (chain.entry? slot)) (funext alike)
  rw [removeWhere, removeWhere, slots]
  exact chain.removeSlots_mapValues _

theorem occupants_mapValues :
    (chain.mapValues change).occupants = chain.occupants.map (·.mapValue change) := by
  rw [occupants, occupants, mapValues, Array.toList_map, List.filterMap_map, List.map_filterMap]
  refine congrArg (List.filterMap · chain.slots.toList) (funext fun node => ?_)
  cases node <;> rfl

end Chain

/-! ## Stores -/

/-- The store with all values changed. -/
def Store.mapValues (change : Value → Value) (store : Store) : Store :=
  { store with chain := store.chain.mapValues change }

/-- The outcome with all values changed, those that were disposed of included. -/
def Outcome.mapValues {α : Type} (change : Value → Value) (tell : α → α) (outcome : Outcome α) :
    Outcome α where
  answer := tell outcome.answer
  disposed := outcome.disposed.map change
  store := outcome.store.mapValues change
  interruption := outcome.interruption

/-- The values of changed entries are the changed values. -/
theorem map_value_mapValue (change : Value → Value) (entries : List Entry) :
    (entries.map (·.mapValue change)).map (·.value) = (entries.map (·.value)).map change := by
  rw [List.map_map, List.map_map]
  rfl

namespace Store

variable {change : Value → Value} (store : Store)

theorem put_mapValues (key : Key) (value : Value) (options : EntryOptions) (moment : Moment) :
    (store.mapValues change).put key (change value) options moment =
      (store.put key value options moment).map (·.mapValues change id) := by
  rw [put, put, show (store.mapValues change).capacity = store.capacity from rfl]
  split
  · rfl
  · refine bind_eq_map_bind (store.chain.remove_mapValues key) fun (replaced, without) => ?_
    refine bind_eq_map_bind (without.popOldest_mapValues _) fun (evicted, kept) => ?_
    have displaced : ((replaced.map (·.mapValue change)).toList ++
        evicted.map (·.mapValue change)).map (·.value) =
          ((replaced.toList ++ evicted).map (·.value)).map change := by
      rw [← map_value_mapValue, List.map_append]
      cases replaced <;> rfl
    have counters :
        (store.mapValues change).counters.evicted (evicted.map (·.mapValue change)).length =
          store.counters.evicted evicted.length := by
      rw [List.length_map]
      rfl
    simp only [displaced, counters]
    cases moment.timeOfDay with
    | ok timeOfDay =>
        have inserted : (kept.mapValues change).insert
            (Entry.create key (change value) options moment.now timeOfDay) = _ :=
          kept.insert_mapValues (Entry.create key value options moment.now timeOfDay)
        exact bind_eq_map_bind inserted fun _ => rfl
    | error fault => rfl

theorem lookup_mapValues (key : Key) (now : Nat) :
    (store.mapValues change).lookup key now =
      (store.lookup key now).map (·.mapValues change (·.map (·.mapValue change))) := by
  rw [lookup, lookup, show (store.mapValues change).chain.slotOf? key = store.chain.slotOf? key
    from rfl]
  cases store.chain.slotOf? key with
  | none => rfl
  | some slot =>
      refine bind_eq_map_bind (store.chain.entry?_mapValues slot) fun entry => ?_
      rw [show (entry.mapValue change).outlived now = entry.outlived now from rfl]
      split
      · exact bind_eq_map_bind (store.chain.removeAt_mapValues slot) fun _ => rfl
      · refine bind_eq_map_bind (store.chain.moveToFront_mapValues slot) fun moved => ?_
        exact bind_eq_map_bind (moved.updateEntry_mapValues slot fun _ => rfl) fun _ => rfl

theorem lookupSince_mapValues (key : Key) (since : Int) (now : Nat) :
    (store.mapValues change).lookupSince key since now =
      (store.lookupSince key since now).map (·.mapValues change (·.map (·.mapValue change))) := by
  rw [lookupSince, lookupSince]
  have found : (store.mapValues change).chain.find? key = _ := store.chain.find?_mapValues key
  rw [found]
  cases store.chain.find? key with
  | none => rfl
  | some entry =>
      simp only [Option.map_some]
      rw [show (entry.mapValue change).createdAt = entry.createdAt from rfl]
      split
      · exact store.lookup_mapValues key now
      · rfl

theorem remove_mapValues (key : Key) :
    (store.mapValues change).remove key = (store.remove key).map (·.mapValues change id) := by
  refine bind_eq_map_bind (store.chain.remove_mapValues key) fun (removed, chain) => ?_
  cases removed <;> rfl

theorem clear_mapValues :
    (store.mapValues change).clear = store.clear.mapValues change id := by
  have disposed : (store.chain.mapValues change).occupants.map (·.value) =
      (store.chain.occupants.map (·.value)).map change := by
    rw [Chain.occupants_mapValues, map_value_mapValue]
  rw [clear, show (store.mapValues change).chain = store.chain.mapValues change from rfl, disposed]
  simp [clear, Outcome.mapValues, mapValues, Chain.mapValues]

theorem setCapacity_mapValues (capacity : Nat) :
    (store.mapValues change).setCapacity capacity =
      (store.setCapacity capacity).map (·.mapValues change id) := by
  refine bind_eq_map_bind (store.chain.popOldest_mapValues _) fun (evicted, chain) => ?_
  simp only [map_value_mapValue, List.length_map]
  rfl

theorem sweep_mapValues (now : Nat) (default : Option Nat) :
    (store.mapValues change).sweep now default =
      (store.sweep now default).map (·.mapValues change id) := by
  refine bind_eq_map_bind (store.chain.removeWhere_mapValues fun _ => rfl) fun (gone, chain) => ?_
  simp only [map_value_mapValue, List.length_map]
  rfl

theorem live?_mapValues (key : Key) (now : Nat) :
    (store.mapValues change).live? key now = (store.live? key now).map (·.mapValue change) := by
  have found : (store.mapValues change).chain.find? key = _ := store.chain.find?_mapValues key
  rw [live?, live?, found, Option.filter_map]
  rfl

theorem keysByRecency_mapValues (now : Nat) :
    (store.mapValues change).keysByRecency now = store.keysByRecency now := by
  have entries : (store.mapValues change).chain.toList = _ := store.chain.toList_mapValues
  rw [keysByRecency, liveEntries, entries, List.filter_map, List.map_map]
  rfl

theorem liveEntriesByKey_mapValues (now : Nat) :
    (store.mapValues change).liveEntriesByKey now =
      (store.liveEntriesByKey now).map (·.mapValue change) := by
  have entries : (store.mapValues change).chain.entriesByKey =
      store.chain.entriesByKey.map (·.mapValue change) := by
    rw [Chain.entriesByKey, Chain.entriesByKey, List.map_filterMap]
    exact congrArg (List.filterMap · store.chain.directory.toList)
      (funext fun (_, slot) => store.chain.entry?_mapValues slot)
  rw [liveEntriesByKey, liveEntriesByKey, entries, List.filter_map]
  rfl

end Store

/-! ## Engines -/

/-- The value with nothing amiss. -/
def Value.harmless (value : Value) : Value :=
  { value with faulty := false }

/-- The engine with nothing amiss in any value. -/
def Engine.harmless (engine : Engine) : Engine :=
  { engine with store := engine.store.mapValues .harmless }

/-- The action with nothing amiss in the value that it is to store. -/
def Action.harmless : Action → Action
  | .put key value options => .put key value.harmless options
  | action => action

/-- The same action on the same engine, with nothing amiss in any value. -/
def Event.harmless (event : Event) : Event :=
  ⟨event.engine.harmless, event.action.harmless⟩

mutual

/-- No answer tells whether anything is amiss. -/
theorem Query.ask_harmless (question : Query) (engine : Engine) :
    question.ask engine.harmless = question.ask engine := by
  have live (key : Key) : engine.harmless.store.live? key engine.harmless.now = _ :=
    engine.store.live?_mapValues key engine.now
  have keys : engine.harmless.store.keysByRecency engine.harmless.now = _ :=
    engine.store.keysByRecency_mapValues engine.now
  cases question with
  | contains key =>
      rw [ask, ask, live, Option.isSome_map]
  | peek key | snapshot key =>
      rw [ask, ask, live, Option.map_map]
      rfl
  | keysByRecency => rw [ask, ask, keys]
  | mostRecent =>
      rw [ask, ask, Store.mostRecentKey?_eq_head?, keys, Store.mostRecentKey?_eq_head?]
  | leastRecent =>
      rw [ask, ask, Store.leastRecentKey?_eq_getLast?, keys, Store.leastRecentKey?_eq_getLast?]
  | traverse questions =>
      have entries : engine.harmless.store.liveEntriesByKey engine.harmless.now = _ :=
        engine.store.liveEntriesByKey_mapValues engine.now
      rw [ask, ask, askAll_harmless questions engine, entries, List.map_map]
      rfl
  | capacity | size | isEmpty | refreshOnHit | sweepRunning | fillRate | hitRate | statistics |
      diagnosis | diagnosisText | debugText | sleepTimes => rfl

theorem Query.askAll_harmless (questions : List Query) (engine : Engine) :
    Query.askAll questions engine.harmless = Query.askAll questions engine := by
  cases questions with
  | nil => rfl
  | cons question questions =>
      rw [askAll, askAll, ask_harmless question engine, askAll_harmless questions engine]

end

theorem Reply.ofResult_map {α β : Type} (change : α → β) (tell : β → Reply)
    (result : Except Fault α) :
    ofResult tell (result.map change) = ofResult (tell ∘ change) result := by
  cases result <;> rfl

/-- One reply and engine are what another one comes to with nothing amiss: the engine is the same
apart from the values, and so is the reply unless a faulty value has broken the other one off. -/
structure Spares (spared done : Reply × Engine) : Prop where
  left : spared.2 = done.2.harmless
  told : done.1 ≠ .broken .disposal → spared.1 = done.1

namespace Engine

variable (engine : Engine)

theorem adopt_spares {α : Type} {outcome spared : Option (Outcome α)} {change : α → α}
    (alike : spared = outcome.map (·.mapValues .harmless change)) {tell : α → Reply}
    (unseen : ∀ answer, tell (change answer) = tell answer) :
    Spares
      (.ofResult tell (engine.harmless.adopt spared).1, (engine.harmless.adopt spared).2)
      (.ofResult tell (engine.adopt outcome).1, (engine.adopt outcome).2) := by
  rw [alike]
  cases outcome with
  | none => exact ⟨rfl, fun _ => rfl⟩
  | some outcome =>
      refine ⟨rfl, fun unbroken => ?_⟩
      rcases outcome with ⟨answer, disposed, store, interruption⟩
      cases interruption with
      | some fault => rfl
      | none =>
          have harmless : (disposed.map Value.harmless).any (·.faulty) = false := by
            simp [Value.harmless]
          have intact : ¬disposed.any (·.faulty) = true := by
            intro faulty
            simp [adopt, faulty, Reply.ofResult] at unbroken
          simp only [adopt, Option.map_some, Outcome.mapValues, harmless, if_neg intact]
          exact unseen answer

theorem put_spares (key : Key) (value : Value) (options : EntryOptions) {tell : Unit → Reply} :
    Spares
      (.ofResult tell (engine.harmless.put key value.harmless options).1,
        (engine.harmless.put key value.harmless options).2)
      (.ofResult tell (engine.put key value options).1, (engine.put key value options).2) :=
  engine.adopt_spares (engine.store.put_mapValues key value options engine.moment) fun _ => rfl

/-- A pass leaves the same with nothing amiss. -/
theorem wake_harmless (before : List Sleeper) (sleeper : Sleeper) (after : List Sleeper) :
    engine.harmless.wake before sleeper after = (engine.wake before sleeper after).harmless := by
  have swept : Engine.sweepPass { engine.harmless with now := sleeper.wakeAt } =
      (Engine.sweepPass { engine with now := sleeper.wakeAt }).harmless := by
    have sweep : engine.harmless.store.sweep sleeper.wakeAt engine.control.surviveTime = _ :=
      engine.store.sweep_mapValues sleeper.wakeAt engine.control.surviveTime
    rw [sweepPass, sweepPass]
    simp only [show engine.harmless.control = engine.control from rfl, sweep]
    cases engine.store.sweep sleeper.wakeAt engine.control.surviveTime <;> rfl
  rw [wake, wake]
  by_cases current : engine.control.isCurrent sleeper.generation = true
  · have currentHarmless : engine.harmless.control.isCurrent sleeper.generation = true := current
    simp only [swept, if_pos current, if_pos currentHarmless]
    rfl
  · have currentHarmless : ¬engine.harmless.control.isCurrent sleeper.generation = true := current
    simp only [if_neg current, if_neg currentHarmless]
    rfl

theorem enable_harmless (interval survive : Nat) (name : Option String) :
    engine.harmless.enable interval survive name =
      ((engine.enable interval survive name).1,
        (engine.enable interval survive name).2.harmless) := by
  rw [harmless, enable_withStore, harmless, store_enable]

end Engine

/-- Every action leaves the same with nothing amiss in any value, down to slots, links, directory
and counters, and replies the same unless a faulty value breaks it off. -/
theorem Action.run_spares (action : Action) (engine : Engine) :
    Spares (action.harmless.run engine.harmless) (action.run engine) := by
  cases action with
  | ask question =>
      exact ⟨rfl, fun _ => congrArg Reply.finding (question.ask_harmless engine)⟩
  | put key value options => exact engine.put_spares key value options
  | get key =>
      simp only [harmless, run, Engine.get, Reply.ofResult_map]
      exact engine.adopt_spares (engine.store.lookup_mapValues key engine.now)
        fun found => by cases found <;> rfl
  | getWithSnapshot key =>
      simp only [harmless, run, Engine.getWithSnapshot, Reply.ofResult_map]
      exact engine.adopt_spares (engine.store.lookup_mapValues key engine.now)
        fun found => by cases found <;> rfl
  | getSince key since =>
      simp only [harmless, run, Engine.getSince, Reply.ofResult_map]
      exact engine.adopt_spares (engine.store.lookupSince_mapValues key since engine.now)
        fun found => by cases found <;> rfl
  | putIfAbsent key text =>
      have live : engine.harmless.store.live? key engine.harmless.now = _ :=
        engine.store.live?_mapValues key engine.now
      simp only [harmless, run, Engine.putIfAbsent, live]
      cases engine.store.live? key engine.now with
      | some entry => exact ⟨rfl, fun _ => rfl⟩
      | none =>
          simp only [Option.map_none, Reply.ofResult_map]
          exact engine.put_spares key { text } {}
  | remove key => exact engine.adopt_spares (engine.store.remove_mapValues key) fun _ => rfl
  | clear =>
      have cleared : some engine.harmless.store.clear =
          (some engine.store.clear).map (·.mapValues .harmless id) :=
        congrArg some engine.store.clear_mapValues
      exact engine.adopt_spares cleared fun _ => rfl
  | setCapacity capacity =>
      cases capacity with
      | ofNat capacity =>
          simp only [harmless, run, Engine.setCapacity, Reply.ofResult_map]
          exact engine.adopt_spares (engine.store.setCapacity_mapValues capacity) fun _ => rfl
      | negSucc capacity => exact ⟨rfl, fun _ => rfl⟩
  | purge default =>
      exact engine.adopt_spares (engine.store.sweep_mapValues engine.now default) fun _ => rfl
  | enable interval survive name =>
      simp only [harmless, run, engine.enable_harmless]
      exact ⟨rfl, fun _ => rfl⟩
  | setRefreshOnHit | disable | rest => exact ⟨rfl, fun _ => rfl⟩
  | wake =>
      simp only [harmless, run]
      rw [show engine.harmless.sleepers = engine.sleepers from rfl]
      cases Sleeper.splitEarliest? engine.sleepers with
      | none => exact ⟨rfl, fun _ => rfl⟩
      | some parts => exact ⟨engine.wake_harmless _ _ _, fun _ => rfl⟩

end RecencyCache
