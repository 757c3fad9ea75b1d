import RecencyCache.Proofs.Provenance
import RecencyCache.Proofs.Timeline

/-!
# Balance

Every entry that is stored leaves for one reason only, and the books show which. Of the entries
that have come since the counters were last at zero, some are still stored, some are counted as
evicted or as expired, some have been replaced under their own key, and some have been removed on
demand. One event changes at most one of these numbers against the number of those that came.
-/

namespace RecencyCache

/-! ## Plain stores -/

namespace PlainStore

variable {store : PlainStore} {key : Key}

/-- The entries that are stored and those that have been counted as they left. -/
def accounted (store : PlainStore) : Nat :=
  store.entries.length + store.counters.evictions + store.counters.expirations

/-- All entries are the others of a key and at most one under it. -/
theorem length_others_add (distinct : (store.entries.map (·.key)).Nodup) (key : Key) :
    (store.others key).length + (store.find? key).isSome.toNat = store.entries.length := by
  cases found : store.find? key with
  | none => rw [others_of_find?_eq_none found, Option.isSome_none, Bool.toNat_false, Nat.add_zero]
  | some entry =>
      obtain ⟨newer, older, split, others, -⟩ := split_of_find? distinct found
      rw [split, others, Option.isSome_some, Bool.toNat_true, List.length_append,
        List.length_append, List.length_cons, Nat.add_assoc]

/-- Without any capacity, nothing is stored. -/
theorem put_of_full (full : store.capacity = 0) (key : Key) (value : Value)
    (options : EntryOptions) (moment : Moment) :
    (store.put key value options moment).2 = store := by
  rw [put, if_pos full]

/-- An insertion for which there is room takes in the new entry if the time of day can be told.
What goes to make room is counted, but what is replaced is not. -/
theorem accounted_put (distinct : (store.entries.map (·.key)).Nodup) (room : store.capacity ≠ 0)
    (key : Key) (value : Value) (options : EntryOptions) (moment : Moment) :
    (store.put key value options moment).2.accounted + (store.find? key).isSome.toNat =
      store.accounted + moment.timeOfDay.isOk.toNat := by
  have fewer := length_others_add distinct key
  -- The others of the key are either kept or evicted.
  have parts := congrArg List.length (List.take_append_drop (store.capacity - 1) (store.others key))
  rw [List.length_append] at parts
  rw [put, if_neg room]
  cases moment.timeOfDay with
  | ok timeOfDay =>
      simp only [accounted, Counters.evicted, List.length_cons, Except.isOk, Except.toBool,
        Bool.toNat_true]
      omega
  | error fault =>
      simp only [accounted, Counters.evicted, Except.isOk, Except.toBool, Bool.toNat_false]
      omega

/-- What is dead when it is looked up goes and is counted. -/
theorem accounted_lookup (distinct : (store.entries.map (·.key)).Nodup) (key : Key) (now : Nat) :
    (store.lookup key now).2.accounted = store.accounted := by
  have fewer := length_others_add distinct key
  rw [lookup]
  cases found : store.find? key with
  | none => rfl
  | some entry =>
      rw [found, Option.isSome_some, Bool.toNat_true] at fewer
      simp only
      split
      · simp only [accounted, Counters.request, Counters.expired]
        omega
      · simp only [accounted, Counters.request, Counters.hit, List.length_cons]
        omega

theorem accounted_lookupSince (distinct : (store.entries.map (·.key)).Nodup) (key : Key)
    (since : Int) (now : Nat) : (store.lookupSince key since now).2.accounted = store.accounted := by
  rw [lookupSince]
  split
  · rfl
  · split
    · exact accounted_lookup distinct key now
    · rfl

/-- What is removed on demand is not counted. -/
theorem accounted_remove (distinct : (store.entries.map (·.key)).Nodup) (key : Key) :
    (store.remove key).2.accounted + (store.find? key).isSome.toNat = store.accounted := by
  have fewer := length_others_add distinct key
  simp only [accounted, remove]
  omega

/-- What a smaller capacity leaves no room for goes and is counted. -/
theorem accounted_setCapacity (store : PlainStore) (capacity : Nat) :
    (store.setCapacity capacity).2.accounted = store.accounted := by
  have parts := congrArg List.length (List.take_append_drop capacity store.entries)
  rw [List.length_append] at parts
  simp only [accounted, setCapacity, Counters.evicted]
  omega

/-- What a sweep takes out is counted. -/
theorem accounted_sweep (store : PlainStore) (now : Nat) (default : Option Nat) :
    (store.sweep now default).2.accounted = store.accounted := by
  have parts := List.length_eq_length_filter_add (l := store.entries) (·.expired now default)
  simp only [accounted, sweep, Counters.expired]
  omega

end PlainStore

/-! ## Events -/

/-- The entries that are stored and those that have been counted as they left. -/
def Engine.accounted (engine : Engine) : Nat :=
  engine.store.size + engine.store.counters.evictions + engine.store.counters.expirations

theorem Engine.Sound.accounted_plain {engine : Engine} (sound : engine.Sound) :
    engine.plain.store.accounted = engine.accounted := by
  rw [PlainStore.accounted, Engine.size_plain sound.represents]
  rfl

namespace Event

/-- The key under which the event is about to store, unless there is no capacity. The end of a call
that gets or creates a value stores nothing if its key has a live entry by then. -/
def target? : Event → Option Key
  | ⟨engine, .put key _ _⟩ => if engine.store.capacity = 0 then none else some key
  | ⟨engine, .putIfAbsent key _⟩ =>
      if engine.store.capacity = 0 ∨ (engine.store.live? key engine.now).isSome then none
      else some key
  | _ => none

/-- The event stores a new entry: there is a time of day for it. -/
def accepts (event : Event) : Bool :=
  event.target?.isSome && event.engine.moment.timeOfDay.isOk

/-- The event takes out what is stored under the key under which it is about to store. -/
def replaces (event : Event) : Bool :=
  event.target?.any fun key => (event.engine.store.chain.find? key).isSome

/-- The event removes an entry on demand. -/
def removes : Event → Bool
  | ⟨engine, .remove key⟩ => (engine.store.chain.find? key).isSome
  | _ => false

variable {event : Event} {key : Key} {text : String} {lifetime : Option Nat}

/-- The event is about to store under a key if it is an insertion under that key. -/
theorem target?_eq_some_iff :
    event.target? = some key ↔ ∃ text lifetime, event.Inserts key text lifetime := by
  constructor
  · intro found
    rw [target?.eq_def] at found
    split at found
    · split at found
      · cases found
      · rename_i room
        cases found
        exact ⟨_, _, .put room⟩
    · split at found
      · cases found
      · rename_i room
        rw [not_or, Option.not_isSome_iff_eq_none] at room
        cases found
        exact ⟨_, _, .putIfAbsent room.1 room.2⟩
    · cases found
  · rintro ⟨text, lifetime, inserts⟩
    cases inserts with
    | put room => rw [target?, if_neg room]
    | putIfAbsent room absent => rw [target?, if_neg (by simp [room, absent])]

/-- An insertion is one on the plain store. -/
theorem Inserts.exists_put (inserts : event.Inserts key text lifetime)
    (sound : event.engine.Sound) :
    ∃ value options, event.engine.plain.store.capacity ≠ 0 ∧ event.removes = false ∧
      event.after.plain.store =
        (event.engine.plain.store.put key value options event.engine.moment).2 := by
  have same := (Engine.act_matches sound.represents event.action).plain_eq
  cases inserts with
  | @put engine key value options room =>
      exact ⟨value, options, room, rfl, congrArg PlainEngine.store same⟩
  | @putIfAbsent engine key text room absent =>
      rw [PlainEngine.act, PlainEngine.putIfAbsent, Engine.live?_plain sound.represents,
        absent] at same
      exact ⟨{ text }, {}, room, rfl, congrArg PlainEngine.store same⟩

/-- An insertion keeps the balance. -/
theorem Inserts.accounted_after (inserts : event.Inserts key text lifetime)
    (sound : event.engine.Sound) :
    event.after.plain.store.accounted + event.replaces.toNat + event.removes.toNat =
      event.engine.plain.store.accounted + event.accepts.toNat := by
  have target : event.target? = some key := target?_eq_some_iff.mpr ⟨text, lifetime, inserts⟩
  obtain ⟨value, options, room, idle, left⟩ := inserts.exists_put sound
  have balance := PlainStore.accounted_put (Engine.nodup_keys_plain sound.represents) room key value
    options event.engine.moment
  rw [left, replaces, accepts, idle, target, Option.any_some,
    ← Engine.find?_plain sound.represents]
  simpa using balance

/-- An action that is no insertion keeps the balance, unless it takes out everything at once. -/
theorem accounted_of_target?_eq_none {engine : Engine} {action : Action} (sound : engine.Sound)
    (target : target? ⟨engine, action⟩ = none) (kept : action ≠ .clear) :
    (PlainEngine.act action engine.plain).2.store.accounted + (removes ⟨engine, action⟩).toNat =
      engine.plain.store.accounted := by
  have distinct := Engine.nodup_keys_plain sound.represents
  cases action with
  | put key value options =>
      have full : engine.store.capacity = 0 := by simpa [target?] using target
      exact congrArg PlainStore.accounted (PlainStore.put_of_full full key value options _)
  | putIfAbsent key text =>
      rw [PlainEngine.act, PlainEngine.putIfAbsent, Engine.live?_plain sound.represents]
      cases found : engine.store.live? key engine.now with
      | some entry => rfl
      | none =>
          have full : engine.store.capacity = 0 := by simpa [target?, found] using target
          exact congrArg PlainStore.accounted (PlainStore.put_of_full full key { text } {} _)
  | get key | getWithSnapshot key => exact PlainStore.accounted_lookup distinct key engine.now
  | getSince key since => exact PlainStore.accounted_lookupSince distinct key since engine.now
  | remove key =>
      rw [removes, ← Engine.find?_plain sound.represents]
      exact PlainStore.accounted_remove distinct key
  | clear => exact absurd rfl kept
  | setCapacity capacity =>
      cases capacity with
      | ofNat capacity => exact PlainStore.accounted_setCapacity engine.plain.store capacity
      | negSucc capacity => rfl
  | purge default => exact PlainStore.accounted_sweep engine.plain.store engine.now default
  | enable interval survive name =>
      rw [PlainEngine.act, PlainEngine.store_enable]
      rfl
  | wake =>
      rcases engine.plain.store_act_wake with same | ⟨now, default, swept⟩
      · exact congrArg PlainStore.accounted same
      · rw [swept]
        exact PlainStore.accounted_sweep engine.plain.store now default
  | ask | setRefreshOnHit | disable | rest => rfl

/-- Every event keeps the balance, unless it takes out everything at once. -/
theorem accounted_after (sound : event.engine.Sound) (kept : event.action ≠ .clear) :
    event.after.accounted + event.replaces.toNat + event.removes.toNat =
      event.engine.accounted + event.accepts.toNat := by
  have soundAfter : event.after.Sound := (sound.run event.action).1
  rw [← sound.accounted_plain, ← soundAfter.accounted_plain]
  cases target : event.target? with
  | some key =>
      obtain ⟨text, lifetime, inserts⟩ := target?_eq_some_iff.mp target
      exact inserts.accounted_after sound
  | none =>
      -- Nothing is stored or replaced.
      have rejects : event.accepts = false := by rw [accepts, target]; rfl
      have spares : event.replaces = false := by rw [replaces, target]; rfl
      have left : event.after.plain = (PlainEngine.act event.action event.engine.plain).2 :=
        (Engine.act_matches sound.represents event.action).plain_eq
      rw [rejects, spares, left]
      exact accounted_of_target?_eq_none sound target kept

end Event

/-! ## Paths -/

theorem Event.countP_cons (test : Event → Bool) (event : Event) (events : List Event) :
    (event :: events).countP test = events.countP test + (test event).toNat := by
  rw [List.countP_cons]
  cases test event with
  | false => rfl
  | true => rfl

/-- What happens without taking out everything at once keeps the balance. -/
theorem Engine.accounted_of_path {first last : Engine} {events : List Event} (sound : first.Sound)
    (path : Path first events last) (kept : ∀ event ∈ events, event.action ≠ .clear) :
    last.accounted + events.countP Event.replaces + events.countP Event.removes =
      first.accounted + events.countP Event.accepts := by
  induction path with
  | nil => rfl
  | @cons engine last events action _ ih =>
      obtain ⟨keptNow, keptLater⟩ := List.forall_mem_cons.mp kept
      have now : _ = engine.accounted + _ := Event.accounted_after sound keptNow
      have later := ih (sound.run action).1 keptLater
      change _ = (Event.after ⟨engine, action⟩).accounted + _ at later
      simp only [Event.countP_cons]
      omega

/-- A new engine has nothing to account for. -/
theorem Origin.accounted_blank (origin : Origin) : origin.blank.accounted = 0 := by
  cases origin with
  | create | ofConfig => rfl

/-- Of a store from which everything is taken out at once, the settings stay. -/
theorem Event.store_after_clear {event : Event} (clears : event.action = .clear) :
    event.after.store = { event.engine.store with chain := {}, counters := {} } := by
  rcases event with ⟨engine, action⟩
  obtain rfl : action = .clear := clears
  rfl

theorem Event.accounted_after_clear {event : Event} (clears : event.action = .clear) :
    event.after.accounted = 0 := by
  rw [Engine.accounted, store_after_clear clears]
  rfl

/-- From the start or a moment at which all entries are taken out at once to the next such moment,
as many entries are stored anew as are still there, have been counted as evicted, have been counted
as expired, have been replaced under their own key and have been removed on demand. -/
theorem Origin.balanced_since_clear (origin : Origin) (calls : List Call)
    {past middle : List Event} (reached : past ++ middle <+: origin.history calls)
    (anew : past = [] ∨ ∃ older clear, past = older ++ [clear] ∧ clear.action = .clear)
    (kept : ∀ event ∈ middle, event.action ≠ .clear) :
    let last := origin.blank.through (past ++ middle)
    middle.countP Event.accepts =
      last.store.size + last.store.counters.evictions + last.store.counters.expirations +
        middle.countP Event.replaces + middle.countP Event.removes := by
  intro last
  have path : Path origin.blank (past ++ middle) last :=
    (origin.path_history calls).path_through reached
  -- Either way the account is at zero when the middle begins.
  obtain ⟨first, sound, nothing, since⟩ : ∃ first : Engine,
      first.Sound ∧ first.accounted = 0 ∧ Path first middle last := by
    rcases anew with rfl | ⟨older, clear, rfl, clears⟩
    · exact ⟨origin.blank, origin.sound_blank, origin.accounted_blank, path⟩
    · rw [List.append_assoc] at path
      obtain ⟨before, after⟩ := path.split
      have sound := origin.sound_blank.of_path before
      exact ⟨clear.after, (sound.run clear.action).1, Event.accounted_after_clear clears, after⟩
  have balance := Engine.accounted_of_path sound since kept
  rw [nothing, Nat.zero_add] at balance
  exact balance.symm

/-- After a clearing, a supplier stores, replaces, makes room and removes, one of its values is
faulty, and a sweeper passes. -/
theorem Origin.balanced_since_clear_supplier :
    let origin := Origin.create 2 0
    let supplier := [Call.put "b" ⟨"1", true⟩ {}, .put "b" ⟨"2", false⟩ {}, .put "c" ⟨"3", false⟩ {},
      .put "d" ⟨"4", false⟩ { timeToLive := some 5 }, .remove "c", .advance 10]
    let calls := [Call.put "a" ⟨"0", false⟩ {}, .enable 10 1000000 none, .clear,
      .getOrCreate "a" supplier (.value "5")]
    let past := (origin.history calls).take 3
    let middle := (origin.history calls).drop 3
    let last := origin.blank.through (past ++ middle)
    last.store.chain.toList.map (·.key) = ["a"] ∧ last.store.counters.evictions = 1 ∧
      last.store.counters.expirations = 1 ∧ middle.countP Event.replaces = 1 ∧
      middle.countP Event.removes = 1 ∧
      middle.countP Event.accepts =
        last.store.size + last.store.counters.evictions + last.store.counters.expirations +
          middle.countP Event.replaces + middle.countP Event.removes := by
  intro origin supplier calls past middle last
  have reached : past ++ middle <+: origin.history calls :=
    ⟨[], by rw [List.append_nil, List.take_append_drop]⟩
  have anew : past = [] ∨ ∃ older clear, past = older ++ [clear] ∧ clear.action = .clear :=
    .inr ⟨past.take 2, ⟨(Call.runAll (calls.take 2) origin.engine).2, .clear⟩, rfl, rfl⟩
  have kept : ∀ event ∈ middle, event.action ≠ .clear := by
    have checked : middle.all (fun event => !(event.action matches .clear)) = true := by
      decide +kernel
    intro event member clears
    have unlike := List.all_eq_true.mp checked event member
    rw [clears] at unlike
    cases unlike
  exact ⟨by decide +kernel, by decide +kernel, by decide +kernel, by decide +kernel,
    by decide +kernel, origin.balanced_since_clear calls reached anew kept⟩

/-- Past the end of the calendar, an insertion is broken off after it has taken out what was stored
under its key. Whether such an insertion is counted among those that come or not, the one that it
has taken out is missing unless it counts as replaced. -/
theorem Origin.unbalanced_past_calendar :
    let origin := Origin.create 1 (8210266876799999 * 1000000)
    let calls := [Call.put "a" ⟨"1", false⟩ {}, .advance 1000000, .put "a" ⟨"2", false⟩ {}]
    let history := origin.history calls
    let last := origin.blank.through history
    let left := last.store.size + last.store.counters.evictions + last.store.counters.expirations +
      history.countP Event.removes
    history.countP (·.target?.isSome) ≠ left + history.countP Event.replaces ∧
      history.countP Event.accepts ≠
        left + history.countP fun event => event.accepts && event.replaces := by
  decide +kernel

end RecencyCache
