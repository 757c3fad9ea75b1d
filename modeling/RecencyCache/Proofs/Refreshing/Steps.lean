import RecencyCache.Proofs.Soundness

/-!
# Refreshing: single steps

A hit may refresh the access time of its entry. Nothing reads the access time but the test whether
an entry is idle for too long, which only sweeps make, and the idle time in a snapshot. So as long
as sweeps take out dead entries only, a cache goes the way of one that never refreshes anything: the
two differ in their access times and in their choice whether to refresh.
-/

namespace RecencyCache

/-! ## Entries -/

-- An entry that is not refreshed was last accessed when it was created. Any fixed time would hide
-- the access time, but with this one an operation on what is unrefreshed leaves it so.

/-- The entry as if no hit had refreshed it. -/
def Entry.unrefreshed (entry : Entry) : Entry :=
  { entry with lastAccessAt := entry.createdAt }

/-- The data as if no hit had refreshed the entry. -/
def Snapshot.unrefreshed (snapshot : Snapshot) : Snapshot :=
  { snapshot with idle := snapshot.age }

/-- The values of unrefreshed entries are the values of the entries. -/
theorem map_value_unrefreshed (entries : List Entry) :
    (entries.map (·.unrefreshed)).map (·.value) = entries.map (·.value) := by
  rw [List.map_map]
  rfl

/-! ## Stores -/

theorem map_disposing {α β : Type} (change : α → β) (disposed : List Value) (answer : α) :
    (disposing disposed answer).map change = disposing disposed (change answer) := by
  rw [disposing, disposing]
  split <;> rfl

namespace PlainStore

/-- The store as if it had never refreshed an entry. -/
def unrefreshed (store : PlainStore) : PlainStore :=
  { store with entries := store.entries.map (·.unrefreshed), refreshOnHit := false }

/-- The dead entries go; the others keep their order. -/
def sweepDead (store : PlainStore) (now : Nat) : Except Fault Nat × PlainStore :=
  let gone := store.entries.filter (·.outlived now)
  (disposing (gone.map (·.value)) gone.length,
    { store with
      entries := store.entries.filter (!·.outlived now)
      counters := store.counters.expired gone.length })

variable (store : PlainStore)

/-! ### Views -/

/-- What depends on nothing that refreshing changes selects the same entries. -/
theorem filter_unrefreshed (entries : List Entry) {keep : Entry → Bool}
    (alike : ∀ entry, keep entry.unrefreshed = keep entry) :
    (entries.map (·.unrefreshed)).filter keep = (entries.filter keep).map (·.unrefreshed) := by
  rw [List.filter_map, show keep ∘ Entry.unrefreshed = keep from funext alike]

theorem find?_unrefreshed (key : Key) :
    store.unrefreshed.find? key = (store.find? key).map (·.unrefreshed) :=
  List.find?_map ..

theorem others_unrefreshed (key : Key) :
    store.unrefreshed.others key = (store.others key).map (·.unrefreshed) :=
  filter_unrefreshed _ fun _ => rfl

theorem live?_unrefreshed (key : Key) (now : Nat) :
    store.unrefreshed.live? key now = (store.live? key now).map (·.unrefreshed) := by
  rw [live?, live?, find?_unrefreshed, Option.filter_map]
  rfl

theorem liveKeys_unrefreshed (now : Nat) :
    store.unrefreshed.liveKeys now = store.liveKeys now := by
  rw [liveKeys, liveKeys, unrefreshed, filter_unrefreshed _ fun _ => rfl, List.map_map]
  rfl

theorem liveByKey_unrefreshed (now : Nat) :
    store.unrefreshed.liveByKey now = (store.liveByKey now).map (·.unrefreshed) := by
  have sorted : store.unrefreshed.entries.mergeSort
      (fun left right => (compare left.key right.key).isLE) =
        (store.entries.mergeSort fun left right =>
          (compare left.key right.key).isLE).map (·.unrefreshed) :=
    (List.map_mergeSort (f := Entry.unrefreshed) fun _ _ _ _ => rfl).symm
  rw [liveByKey, liveByKey, sorted, filter_unrefreshed _ fun _ => rfl]

theorem statistics_unrefreshed : store.unrefreshed.statistics = store.statistics := by
  simp only [statistics, unrefreshed, List.length_map]

/-! ### Operations -/

theorem put_unrefreshed (key : Key) (value : Value) (options : EntryOptions) (moment : Moment) :
    store.unrefreshed.put key value options moment =
      ((store.put key value options moment).1, (store.put key value options moment).2.unrefreshed)
    := by
  have replaced : store.unrefreshed.entries.filter (·.key = key) =
      (store.entries.filter (·.key = key)).map (·.unrefreshed) :=
    filter_unrefreshed _ fun _ => rfl
  rw [put, put, show store.unrefreshed.capacity = store.capacity from rfl]
  split
  · rfl
  · simp only [others_unrefreshed, replaced, ← List.map_drop, ← List.map_take, List.length_map,
      ← List.map_append, map_value_unrefreshed]
    cases moment.timeOfDay <;> rfl

theorem lookup_unrefreshed (key : Key) (now : Nat) :
    store.unrefreshed.lookup key now =
      ((store.lookup key now).1.map (·.map (·.unrefreshed)), (store.lookup key now).2.unrefreshed)
    := by
  rw [lookup, lookup, find?_unrefreshed, others_unrefreshed]
  cases store.find? key with
  | none => rfl
  | some entry =>
      simp only [Option.map_some]
      rw [show entry.unrefreshed.outlived now = entry.outlived now from rfl]
      split
      · exact congrArg (·, _) (map_disposing (Option.map Entry.unrefreshed) [entry.value] none).symm
      · rfl

theorem lookupSince_unrefreshed (key : Key) (since : Int) (now : Nat) :
    store.unrefreshed.lookupSince key since now =
      ((store.lookupSince key since now).1.map (·.map (·.unrefreshed)),
        (store.lookupSince key since now).2.unrefreshed) := by
  rw [lookupSince, lookupSince, find?_unrefreshed]
  cases store.find? key with
  | none => rfl
  | some entry =>
      simp only [Option.map_some]
      rw [show entry.unrefreshed.createdAt = entry.createdAt from rfl]
      split
      · exact store.lookup_unrefreshed key now
      · rfl

theorem remove_unrefreshed (key : Key) :
    store.unrefreshed.remove key = ((store.remove key).1, (store.remove key).2.unrefreshed) := by
  have removed : store.unrefreshed.entries.filter (·.key = key) =
      (store.entries.filter (·.key = key)).map (·.unrefreshed) :=
    filter_unrefreshed _ fun _ => rfl
  simp only [remove, removed, map_value_unrefreshed, List.isEmpty_map, others_unrefreshed]
  rfl

theorem clear_unrefreshed :
    store.unrefreshed.clear = (store.clear.1, store.clear.2.unrefreshed) := by
  have values : store.unrefreshed.entries.map (·.value) = _ := map_value_unrefreshed store.entries
  rw [clear, values]
  rfl

theorem setCapacity_unrefreshed (capacity : Nat) :
    store.unrefreshed.setCapacity capacity =
      ((store.setCapacity capacity).1, (store.setCapacity capacity).2.unrefreshed) := by
  simp only [setCapacity, unrefreshed, ← List.map_drop, ← List.map_take, map_value_unrefreshed,
    List.length_map]

theorem sweepDead_unrefreshed (now : Nat) :
    store.unrefreshed.sweepDead now =
      ((store.sweepDead now).1, (store.sweepDead now).2.unrefreshed) := by
  have dead : store.unrefreshed.entries.filter (·.outlived now) = _ :=
    filter_unrefreshed store.entries fun _ => rfl
  have alive : store.unrefreshed.entries.filter (!·.outlived now) = _ :=
    filter_unrefreshed store.entries fun _ => rfl
  simp only [sweepDead, dead, alive, map_value_unrefreshed, List.length_map]
  rfl

/-- A sweep that takes out no live entry takes out the dead ones. -/
theorem sweep_eq_sweepDead {now : Nat} {default : Option Nat}
    (spares : ∀ entry ∈ store.entries, entry.live now = true →
      entry ∈ (store.sweep now default).2.entries) :
    store.sweep now default = store.sweepDead now := by
  have same : ∀ entry ∈ store.entries, entry.expired now default = entry.outlived now := by
    intro entry member
    by_cases dead : entry.outlived now = true
    · rw [Entry.expired, dead, Bool.true_or]
    · -- a live entry is spared, so it cannot have been neglected
      have live : entry.live now = true := by simpa [Entry.live] using dead
      have kept : ¬entry.expired now default = true := by
        simpa using (List.mem_filter.mp (spares entry member live)).2
      rw [Bool.eq_false_iff.mpr kept, Bool.eq_false_iff.mpr dead]
  have gone : store.entries.filter (·.expired now default) =
      store.entries.filter (·.outlived now) :=
    List.filter_congr same
  have left : store.entries.filter (!·.expired now default) =
      store.entries.filter (!·.outlived now) :=
    List.filter_congr fun entry member => congrArg (!·) (same entry member)
  rw [sweep, sweepDead, gone, left]

end PlainStore

/-! ## Questions -/

namespace Query

mutual

/-- The answer to the question as if nothing had been refreshed nor were to be. -/
def unrefreshed : Query → Finding → Finding
  | .refreshOnHit, _ => .flag false
  | .snapshot _, .snapshot found => .snapshot (found.map (·.unrefreshed))
  | .traverse questions, .visits visits =>
      .visits (visits.map fun (key, text, findings) =>
        (key, text, unrefreshedAll questions findings))
  | _, finding => finding

/-- The answers to several questions as if nothing had been refreshed nor were to be. -/
def unrefreshedAll : List Query → List Finding → List Finding
  | question :: questions, finding :: findings =>
      question.unrefreshed finding :: unrefreshedAll questions findings
  | _, findings => findings

end

end Query

namespace PlainEngine

/-- The engine as if it had never refreshed an entry. -/
def unrefreshed (engine : PlainEngine) : PlainEngine :=
  { engine with store := engine.store.unrefreshed }

variable (engine : PlainEngine)

@[simp] theorem length_entries_unrefreshed :
    engine.unrefreshed.store.entries.length = engine.store.entries.length :=
  List.length_map ..

theorem diagnosis_unrefreshed : engine.unrefreshed.diagnosis = engine.diagnosis := by
  rw [diagnosis, length_entries_unrefreshed]
  rfl

theorem debugText_unrefreshed : engine.unrefreshed.debugText = engine.debugText := by
  unfold debugText
  rw [length_entries_unrefreshed, show engine.unrefreshed.store.capacity = engine.store.capacity
    from rfl, show engine.unrefreshed.control = engine.control from rfl]

mutual

/-- No answer but the idle time in a snapshot and the choice itself depends on refreshing. -/
theorem ask_unrefreshed (question : Query) :
    ask question engine.unrefreshed = question.unrefreshed (ask question engine) := by
  have live (key : Key) : engine.unrefreshed.store.live? key engine.unrefreshed.now = _ :=
    engine.store.live?_unrefreshed key engine.now
  have keys : engine.unrefreshed.store.liveKeys engine.unrefreshed.now = _ :=
    engine.store.liveKeys_unrefreshed engine.now
  cases question with
  | contains key =>
      rw [ask, ask, live, Option.isSome_map]
      rfl
  | peek key =>
      rw [ask, ask, live, Option.map_map]
      rfl
  | snapshot key =>
      rw [ask, ask, live, Option.map_map, Query.unrefreshed, Option.map_map]
      rfl
  | keysByRecency | mostRecent | leastRecent =>
      rw [ask, ask, keys]
      rfl
  | size | fillRate =>
      rw [ask, ask, length_entries_unrefreshed]
      rfl
  | isEmpty =>
      rw [ask, ask, show engine.unrefreshed.store.entries.isEmpty = _ from List.isEmpty_map ..]
      rfl
  | statistics =>
      rw [ask, ask, show engine.unrefreshed.store.statistics = _ from
        engine.store.statistics_unrefreshed]
      rfl
  | diagnosis | diagnosisText =>
      rw [ask, ask, diagnosis_unrefreshed]
      rfl
  | debugText =>
      rw [ask, ask, debugText_unrefreshed]
      rfl
  | traverse questions =>
      have entries : engine.unrefreshed.store.liveByKey engine.unrefreshed.now = _ :=
        engine.store.liveByKey_unrefreshed engine.now
      rw [ask, ask, askAll_unrefreshed questions, entries, List.map_map, Query.unrefreshed,
        List.map_map]
      rfl
  | capacity | refreshOnHit | sweepRunning | hitRate | sleepTimes => rfl

theorem askAll_unrefreshed (questions : List Query) :
    askAll questions engine.unrefreshed =
      Query.unrefreshedAll questions (askAll questions engine) := by
  cases questions with
  | nil => rfl
  | cons question questions =>
      rw [askAll, askAll, ask_unrefreshed question, askAll_unrefreshed questions]
      rfl

end

end PlainEngine

/-! ## Actions -/

namespace Action

/-- The action with the choice not to refresh in place of any choice. -/
def unrefreshing : Action → Action
  | .setRefreshOnHit _ => .setRefreshOnHit false
  | action => action

/-- The reply to the action as if nothing had been refreshed nor were to be. -/
def unrefreshed : Action → Reply → Reply
  | .ask question, .finding finding => .finding (question.unrefreshed finding)
  | .getWithSnapshot _, .foundWithSnapshot found =>
      .foundWithSnapshot (found.map fun (text, snapshot) => (text, snapshot.unrefreshed))
  | _, reply => reply

/-- The action sweeps, or wakes a sleeper, which sweeps if it is the current one. -/
def maySweep : Action → Bool
  | .purge _ | .wake => true
  | _ => false

end Action

namespace PlainEngine

/-- If the action sweeps, it takes out no live entry. -/
def Spares (engine : PlainEngine) (action : Action) : Prop :=
  action.maySweep = true → ∀ entry ∈ engine.store.entries,
    entry.live (act action engine).2.now = true → entry ∈ (act action engine).2.store.entries

/-- The sleeper wakes, and if it is the current one takes out the dead entries. -/
def wakeSparingly (engine : PlainEngine) (before : List Sleeper) (sleeper : Sleeper)
    (after : List Sleeper) : PlainEngine :=
  if engine.control.isCurrent sleeper.generation then
    { engine with
      store := (engine.store.sweepDead sleeper.wakeAt).2
      sleepers := before ++ sleeper.renewed :: after
      now := sleeper.wakeAt }
  else { engine with sleepers := before ++ after, now := sleeper.wakeAt }

/-- The reply to an action, and the engine after it, if sweeps take out dead entries only. -/
def actSparingly : Action → PlainEngine → Reply × PlainEngine
  | .purge _, engine => engine.conclude .count (engine.store.sweepDead engine.now)
  | .wake, engine =>
      match Sleeper.splitEarliest? engine.sleepers with
      | none => (.done, engine)
      | some (before, sleeper, after) => (.done, engine.wakeSparingly before sleeper after)
  | action, engine => act action engine

variable (engine : PlainEngine)

/-- The outcome of an operation is told alike if its result is. -/
theorem conclude_unrefreshed {α : Type} {tell : α → Reply} {change : α → α}
    {outcome changed : Except Fault α × PlainStore}
    (alike : changed = (outcome.1.map change, outcome.2.unrefreshed)) {action : Action}
    (told : ∀ answer, tell (change answer) = action.unrefreshed (tell answer))
    (broken : ∀ fault, action.unrefreshed (.broken fault) = .broken fault) :
    engine.unrefreshed.conclude tell changed =
      (action.unrefreshed (engine.conclude tell outcome).1,
        (engine.conclude tell outcome).2.unrefreshed) := by
  rw [alike]
  rcases outcome with ⟨answer | fault, store⟩
  · exact congrArg (·, _) (broken _).symm
  · exact congrArg (·, _) (told _)

/-- The outcome of an operation whose result does not depend on refreshing is told alike. -/
theorem conclude_unrefreshed_of_eq {α : Type} {tell : α → Reply}
    {outcome changed : Except Fault α × PlainStore}
    (alike : changed = (outcome.1, outcome.2.unrefreshed)) :
    engine.unrefreshed.conclude tell changed =
      ((engine.conclude tell outcome).1, (engine.conclude tell outcome).2.unrefreshed) := by
  rw [alike]
  rfl

theorem enable_unrefreshed (interval survive : Nat) (name : Option String) :
    engine.unrefreshed.enable interval survive name =
      ((engine.enable interval survive name).1,
        (engine.enable interval survive name).2.unrefreshed) := by
  rw [unrefreshed, engine.enable_withStore, unrefreshed, store_enable]

/-- A pass that spares the live entries is one that takes out the dead ones. -/
theorem wake_unrefreshed {before after : List Sleeper} {sleeper : Sleeper}
    (spares : ∀ entry ∈ engine.store.entries,
      entry.live (engine.wake before sleeper after).now = true →
        entry ∈ (engine.wake before sleeper after).store.entries) :
    engine.unrefreshed.wakeSparingly before sleeper after =
      (engine.wake before sleeper after).unrefreshed := by
  rw [wakeSparingly, wake, show engine.unrefreshed.control = engine.control from rfl]
  by_cases current : engine.control.isCurrent sleeper.generation = true
  · rw [wake, if_pos current] at spares
    simp only [if_pos current]
    rw [engine.store.sweep_eq_sweepDead spares]
    rw [show engine.unrefreshed.store.sweepDead sleeper.wakeAt = _ from
      engine.store.sweepDead_unrefreshed sleeper.wakeAt]
    rfl
  · simp only [if_neg current]
    rfl

/-- An action that takes out no live entry does the same whether or not anything is refreshed. -/
theorem act_unrefreshed {action : Action} (spares : engine.Spares action) :
    actSparingly action.unrefreshing engine.unrefreshed =
      (action.unrefreshed (act action engine).1, (act action engine).2.unrefreshed) := by
  cases action with
  | ask question => exact congrArg (Reply.finding · , _) (engine.ask_unrefreshed question)
  | put key value options =>
      exact engine.conclude_unrefreshed_of_eq
        (engine.store.put_unrefreshed key value options engine.moment)
  | get key =>
      exact engine.conclude_unrefreshed (engine.store.lookup_unrefreshed key engine.now)
        (fun found => by cases found <;> rfl) fun _ => rfl
  | getWithSnapshot key =>
      exact engine.conclude_unrefreshed (engine.store.lookup_unrefreshed key engine.now)
        (fun found => by cases found <;> rfl) fun _ => rfl
  | getSince key since =>
      exact engine.conclude_unrefreshed (engine.store.lookupSince_unrefreshed key since engine.now)
        (fun found => by cases found <;> rfl) fun _ => rfl
  | putIfAbsent key text =>
      have live : engine.unrefreshed.store.live? key engine.unrefreshed.now = _ :=
        engine.store.live?_unrefreshed key engine.now
      simp only [Action.unrefreshing, actSparingly, act, putIfAbsent, live]
      cases engine.store.live? key engine.now with
      | some entry => rfl
      | none =>
          exact engine.conclude_unrefreshed_of_eq
            (engine.store.put_unrefreshed key { text } {} engine.moment)
  | remove key => exact engine.conclude_unrefreshed_of_eq (engine.store.remove_unrefreshed key)
  | clear => exact engine.conclude_unrefreshed_of_eq engine.store.clear_unrefreshed
  | setCapacity capacity =>
      cases capacity with
      | ofNat capacity =>
          exact engine.conclude_unrefreshed_of_eq (engine.store.setCapacity_unrefreshed capacity)
      | negSucc capacity => rfl
  | purge default =>
      have swept : engine.store.sweep engine.now default = engine.store.sweepDead engine.now :=
        engine.store.sweep_eq_sweepDead (spares rfl)
      simp only [act, swept]
      exact engine.conclude_unrefreshed_of_eq (engine.store.sweepDead_unrefreshed engine.now)
  | enable interval survive name => exact engine.enable_unrefreshed interval survive name
  | setRefreshOnHit | disable | rest => rfl
  | wake =>
      rw [Spares, act] at spares
      simp only [Action.unrefreshing, actSparingly, act]
      rw [show engine.unrefreshed.sleepers = engine.sleepers from rfl]
      cases split : Sleeper.splitEarliest? engine.sleepers with
      | none => rfl
      | some parts =>
          obtain ⟨before, sleeper, after⟩ := parts
          simp only [split] at spares
          exact congrArg (Reply.done, ·) (engine.wake_unrefreshed (spares rfl))

end PlainEngine

end RecencyCache
