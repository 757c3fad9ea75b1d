import RecencyCache.Proofs.Soundness

/-!
# Overwriting

What is stored under a key makes no difference to what an insertion under this key leaves. It may be
removed before, or be overwritten by another insertion at the same moment. Under a stored key an
insertion takes the place of the old entry and evicts nothing; under an absent one it evicts the
least recent entry if the cache is full, and nothing otherwise.
-/

namespace RecencyCache

/-! ## Plain stores -/

namespace PlainStore

variable {store : PlainStore} {key : Key} {value : Value} {options : EntryOptions} {moment : Moment}

/-- The new entry, or nothing while the time of day cannot be told. -/
def newcomer? (key : Key) (value : Value) (options : EntryOptions) (moment : Moment) :
    Option Entry :=
  moment.timeOfDay.toOption.map (Entry.create key value options moment.now)

theorem key_of_newcomer? {entry : Entry} (new : newcomer? key value options moment = some entry) :
    entry.key = key := by
  obtain ⟨timeOfDay, -, rfl⟩ := Option.map_eq_some_iff.mp new
  rfl

/-- With some capacity, the new entry comes in front of as many others as there is room for. -/
theorem put_eq (room : store.capacity ≠ 0) (key : Key) (value : Value) (options : EntryOptions)
    (moment : Moment) :
    (store.put key value options moment).2 =
      { store with
        entries := (newcomer? key value options moment).toList ++
          (store.others key).take (store.capacity - 1)
        counters := store.counters.evicted
          ((store.others key).length - (store.capacity - 1)) } := by
  rw [put, if_neg room, newcomer?, ← List.length_drop]
  cases moment.timeOfDay <;> rfl

theorem others_remove (store : PlainStore) (key : Key) :
    (store.remove key).2.others key = store.others key := by
  simp [remove, others]

/-- An insertion leaves as many other entries as there is room for. -/
theorem others_put (room : store.capacity ≠ 0) :
    (store.put key value options moment).2.others key =
      (store.others key).take (store.capacity - 1) := by
  have new : (newcomer? key value options moment).toList.filter (·.key ≠ key) = [] := by
    rw [List.filter_eq_nil_iff]
    intro entry member
    simpa using key_of_newcomer? (Option.mem_toList.mp member)
  have kept : ((store.others key).take (store.capacity - 1)).filter (·.key ≠ key) =
      (store.others key).take (store.capacity - 1) := by
    rw [List.filter_eq_self]
    intro entry member
    simpa using (mem_others_iff.mp (List.mem_of_mem_take member)).2
  rw [put_eq room, others, List.filter_append, new, kept, List.nil_append]

/-- Without capacity, nothing is stored or removed. -/
theorem remove_of_no_room (fits : store.Fits) (full : store.capacity = 0) (key : Key) :
    (store.remove key).2 = store := by
  have empty : store.entries = [] := List.eq_nil_of_length_eq_zero (by rw [Fits] at fits; omega)
  have same : store.others key = store.entries := by rw [others, empty, List.filter_nil]
  rw [remove, same]

/-- An insertion does not depend on the removal of its key before. -/
theorem put_remove (fits : store.Fits) (key : Key) (value : Value) (options : EntryOptions)
    (moment : Moment) :
    ((store.remove key).2.put key value options moment).2 =
      (store.put key value options moment).2 := by
  by_cases full : store.capacity = 0
  · rw [remove_of_no_room fits full]
  · have room : (store.remove key).2.capacity ≠ 0 := full
    rw [put_eq room, put_eq full, others_remove]
    rfl

/-- An insertion does not depend on another one under its key before, at the same moment. What the
first one has evicted the second one need not evict any more. -/
theorem put_put (store : PlainStore) (key : Key) (earlier value : Value)
    (others options : EntryOptions) (moment : Moment) :
    ((store.put key earlier others moment).2.put key value options moment).2 =
      (store.put key value options moment).2 := by
  by_cases full : store.capacity = 0
  · have unchanged : (store.put key earlier others moment).2 = store := by rw [put, if_pos full]
    rw [unchanged]
  · have left := put_eq full key earlier others moment
    have room : (store.put key earlier others moment).2.capacity ≠ 0 := by rwa [left]
    have taken := List.length_take_le (store.capacity - 1) (store.others key)
    rw [put_eq room, others_put full, put_eq full key value options moment, left]
    simp only [List.take_take, Nat.min_self, Nat.sub_eq_zero_of_le taken, Counters.evicted,
      Nat.add_zero]

/-- Under a stored key nothing is evicted. -/
theorem put_of_stored (fits : store.Fits) {old : Entry} (found : store.find? key = some old) :
    (store.put key value options moment).2 =
      { store with
        entries := (newcomer? key value options moment).toList ++ store.others key } := by
  have fewer : (store.others key).length < store.capacity :=
    Nat.lt_of_lt_of_le (length_others_lt found) fits
  have enough : (store.others key).length ≤ store.capacity - 1 := by omega
  rw [put_eq (by omega), List.take_of_length_le enough, Nat.sub_eq_zero_of_le enough]
  rfl

/-- Under an absent key the last entry is evicted if the store is full. -/
theorem put_of_absent (fits : store.Fits) (room : store.capacity ≠ 0)
    (absent : store.find? key = none) :
    let full := store.entries.length = store.capacity
    (store.put key value options moment).2 =
      { store with
        entries := (newcomer? key value options moment).toList ++
          if full then store.entries.dropLast else store.entries
        counters := store.counters.evicted (if full then 1 else 0) } := by
  intro full
  rw [put_eq room, others_of_find?_eq_none absent]
  by_cases filled : store.entries.length = store.capacity
  · have one : store.entries.length - (store.capacity - 1) = 1 := by omega
    rw [if_pos filled, if_pos filled, one, List.dropLast_eq_take, filled]
  · have enough : store.entries.length ≤ store.capacity - 1 := by
      rw [Fits] at fits
      omega
    rw [if_neg filled, if_neg filled, List.take_of_length_le enough, Nat.sub_eq_zero_of_le enough]

end PlainStore

/-! ## Engines -/

/-- What insertions under one key do to an engine. -/
structure Engine.Overwrites (engine : Engine) (key : Key) (value : Value) (options : EntryOptions) :
    Prop where
  /-- The same is left if the key is removed first, or if something else is stored under it
  first. -/
  absorbing : let left := (Call.run (.put key value options) engine).2
    (Call.runAll [.remove key, .put key value options] engine).2.plain = left.plain ∧
      ∀ earlier others,
        (Call.runAll [.put key earlier others, .put key value options] engine).2.plain = left.plain
  /-- Under a stored key, dead or alive, nothing is evicted, and the other entries stay as they are
  behind the new one. -/
  stored : (∃ entry ∈ engine.store.chain.toList, entry.key = key) →
    (Call.run (.put key value options) engine).2.plain =
      { engine.plain with store := { engine.plain.store with
        entries := (PlainStore.newcomer? key value options engine.moment).toList ++
          engine.store.chain.toList.filter (·.key ≠ key) } }
  /-- Under an absent key the least recent entry is evicted if the cache is full, and nothing
  otherwise. -/
  absent : 0 < engine.store.capacity → (∀ entry ∈ engine.store.chain.toList, entry.key ≠ key) →
    let full := engine.store.size = engine.store.capacity
    (Call.run (.put key value options) engine).2.plain =
      { engine.plain with store := { engine.plain.store with
        entries := (PlainStore.newcomer? key value options engine.moment).toList ++
          if full then engine.store.chain.toList.dropLast else engine.store.chain.toList
        counters := engine.store.counters.evicted (if full then 1 else 0) } }
  /-- The new entry has no hits and only what it was given, and there is one whenever the time of
  day can be told. -/
  new : (∀ entry ∈ PlainStore.newcomer? key value options engine.moment,
      entry.key = key ∧ entry.value = value ∧ entry.hitCount = 0 ∧
        entry.context = options.context ∧ entry.subContext = options.subContext ∧
        entry.surviveTime = options.surviveTime ∧
        entry.timeToLive = options.timeToLive.filter (· ≠ 0) ∧
        entry.createdAt = engine.now ∧ entry.lastAccessAt = engine.now) ∧
    ((PlainStore.newcomer? key value options engine.moment).isSome ↔
      ∃ timeOfDay, engine.moment.timeOfDay = .ok timeOfDay)

namespace Engine

variable {engine : Engine}

theorem run_put_matches (sound : engine.Sound) (key : Key) (value : Value)
    (options : EntryOptions) :
    Matches (Call.run (.put key value options) engine)
      (engine.plain.conclude (fun _ => .done)
        (engine.plain.store.put key value options engine.moment)) :=
  act_matches sound.represents (.put key value options)

/-- After other calls that only change the store, an insertion depends on the store they leave. -/
theorem plain_put_of_eq (sound : engine.Sound) {between : Engine} (soundBetween : between.Sound)
    {store : PlainStore} (left : between.plain = { engine.plain with store })
    {key : Key} {value : Value} {options : EntryOptions}
    (same : (store.put key value options engine.moment).2 =
      (engine.plain.store.put key value options engine.moment).2) :
    (Call.run (.put key value options) between).2.plain =
      (Call.run (.put key value options) engine).2.plain := by
  have moment : between.moment = engine.moment := congrArg PlainEngine.moment left
  rw [(run_put_matches soundBetween key value options).plain_eq,
    (run_put_matches sound key value options).plain_eq, moment, left, PlainEngine.conclude,
    PlainEngine.conclude, same]

/-- A sound engine overwrites. -/
theorem Sound.overwritesUnder (sound : engine.Sound) (key : Key) (value : Value)
    (options : EntryOptions) : engine.Overwrites key value options := by
  have fits := sound.fits
  have left := (run_put_matches sound key value options).plain_eq
  have find? : engine.plain.store.find? key = none ↔
      ∀ entry ∈ engine.plain.store.entries, entry.key ≠ key := PlainStore.find?_eq_none_iff
  constructor
  case absorbing =>
    intro left
    constructor
    · have removed := (act_matches sound.represents (.remove key)).plain_eq
      exact plain_put_of_eq sound (sound.run (.remove key)).1 removed
        (PlainStore.put_remove fits key value options engine.moment)
    · intro earlier others
      have stored := (run_put_matches sound key earlier others).plain_eq
      exact plain_put_of_eq sound (sound.run (.put key earlier others)).1 stored
        (PlainStore.put_put engine.plain.store key earlier value others options engine.moment)
  case stored =>
    rintro ⟨entry, member, sameKey⟩
    cases found : engine.plain.store.find? key with
    | none => exact absurd sameKey (find?.mp found entry member)
    | some old =>
        rw [left, PlainEngine.conclude, PlainStore.put_of_stored fits found]
        rfl
  case absent =>
    intro room absent full
    rw [left, PlainEngine.conclude,
      PlainStore.put_of_absent fits (Nat.ne_of_gt room) (find?.mpr absent),
      size_plain sound.represents]
    rfl
  case new =>
    constructor
    · intro entry member
      obtain ⟨timeOfDay, -, rfl⟩ := Option.map_eq_some_iff.mp member
      exact ⟨rfl, rfl, rfl, rfl, rfl, rfl, rfl, rfl, rfl⟩
    · rw [PlainStore.newcomer?, Option.isSome_map]
      cases engine.moment.timeOfDay <;> simp [Except.toOption]

end Engine

/-- Whatever has happened to an engine, it makes no difference to an insertion what is stored under
its key. -/
theorem Origin.overwrites (origin : Origin) {past : List Event} {engine : Engine}
    (path : Path origin.engine past engine) (key : Key) (value : Value) (options : EntryOptions) :
    engine.Overwrites key value options :=
  (origin.sound.of_path path).overwritesUnder key value options

/-- In a full cache the least recent entry is dead. To store something under its key evicts nothing,
to store something under a new key evicts it. -/
theorem Origin.overwrites_full :
    let origin := Origin.create 2 0
    let calls := [Call.put "a" ⟨"1", false⟩ { timeToLive := some 5, context := some "x" },
      .put "b" ⟨"2", false⟩ {}, .advance 5]
    let engine := (Call.runAll calls origin.engine).2
    let left (key : Key) := (Call.run (.put key ⟨"3", false⟩ {}) engine).2
    engine.store.chain.toList.map (·.key) = ["b", "a"] ∧
      (left "a").store.chain.toList.map (fun entry => (entry.key, entry.context)) =
        [("a", none), ("b", none)] ∧
      (left "a").store.counters.evictions = 0 ∧
      (left "c").store.chain.toList.map (·.key) = ["c", "b"] ∧
      (left "c").store.counters.evictions = 1 ∧
      ∀ key, engine.Overwrites key ⟨"3", false⟩ {} := by
  intro origin calls engine left
  have path : Path origin.engine _ engine := Call.path_traceAll calls origin.engine
  exact ⟨by decide +kernel, by decide +kernel, by decide +kernel, by decide +kernel,
    by decide +kernel, fun key => origin.overwrites path key _ _⟩

end RecencyCache
