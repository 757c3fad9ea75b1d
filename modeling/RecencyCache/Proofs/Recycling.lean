import RecencyCache.Proofs.Chain.Arena
import RecencyCache.Proofs.Lookups

/-!
# Recycling of slots

A cache has no more slots than it has had entries at once since all entries were last taken out
together. However an entry leaves, its slot is free from then on, and a new entry takes a free slot
if there is one. So the arena stays within the largest capacity at which an entry has been stored,
however long the history is.
-/

namespace RecencyCache

/-! ## Stores -/

namespace Store

variable {store : Store} {key : Key} {now : Nat}

/-- An insertion adds a slot only if the new entry is stored and all slots are occupied then. -/
theorem size_slots_put {value : Value} {options : EntryOptions} {moment : Moment}
    {done : Outcome Unit} (put : store.put key value options moment = some done) :
    done.store.chain.slots.size = store.chain.slots.size ∨
      (store.capacity ≠ 0 ∧ moment.timeOfDay.isOk = true) ∧
        Chain.Filled store.chain done.store.chain := by
  rw [Store.put] at put
  split at put
  · cases put
    exact .inl rfl
  · rename_i room
    simp only [Option.bind_eq_bind, Option.bind_eq_some_iff] at put
    obtain ⟨⟨replaced, others⟩, removing, ⟨evicted, kept⟩, popped, put⟩ := put
    have size : kept.slots.size = store.chain.slots.size :=
      (Chain.size_slots_popOldest popped).trans (Chain.size_slots_remove removing)
    cases told : moment.timeOfDay with
    | error fault =>
        rw [told] at put
        cases put
        exact .inl size
    | ok timeOfDay =>
        rw [told] at put
        obtain ⟨⟨slot, changed⟩, inserted, left⟩ := Option.bind_eq_some_iff.mp put
        cases left
        rcases Chain.size_slots_insert inserted with same | ⟨grown, full⟩
        · exact .inl (same.trans size)
        · exact .inr ⟨⟨room, rfl⟩, size ▸ grown, full⟩

theorem size_slots_lookup {done : Outcome (Option Entry)}
    (looked : store.lookup key now = some done) :
    done.store.chain.slots.size = store.chain.slots.size := by
  rw [lookup] at looked
  split at looked
  · cases looked
    rfl
  · obtain ⟨entry, -, looked⟩ := Option.bind_eq_some_iff.mp looked
    split at looked
    · obtain ⟨⟨dead, shorter⟩, taken, left⟩ := Option.bind_eq_some_iff.mp looked
      cases left
      exact Chain.size_slots_removeAt taken
    · simp only [Option.bind_eq_bind, Option.bind_eq_some_iff] at looked
      obtain ⟨moved, moving, touched, touching, left⟩ := looked
      cases left
      exact ((Chain.sameArena_moveToFront moving).trans (Chain.sameArena_modify touching)).size_eq

theorem size_slots_lookupSince {since : Int} {done : Outcome (Option Entry)}
    (looked : store.lookupSince key since now = some done) :
    done.store.chain.slots.size = store.chain.slots.size := by
  rw [lookupSince] at looked
  split at looked
  · split at looked
    · exact size_slots_lookup looked
    · cases looked
      rfl
  · cases looked
    rfl

theorem size_slots_remove {done : Outcome Bool} (removed : store.remove key = some done) :
    done.store.chain.slots.size = store.chain.slots.size := by
  obtain ⟨⟨entry, shorter⟩, taken, left⟩ := Option.bind_eq_some_iff.mp removed
  cases left
  exact Chain.size_slots_remove taken

theorem size_slots_setCapacity {capacity : Nat} {done : Outcome Unit}
    (changed : store.setCapacity capacity = some done) :
    done.store.chain.slots.size = store.chain.slots.size := by
  obtain ⟨⟨evicted, shorter⟩, taken, left⟩ := Option.bind_eq_some_iff.mp changed
  cases left
  exact Chain.size_slots_popOldest taken

theorem size_slots_sweep {default : Option Nat} {done : Outcome Nat}
    (swept : store.sweep now default = some done) :
    done.store.chain.slots.size = store.chain.slots.size := by
  obtain ⟨⟨expired, shorter⟩, taken, left⟩ := Option.bind_eq_some_iff.mp swept
  cases left
  exact Chain.size_slots_removeSlots taken

end Store

/-! ## Events -/

namespace Engine

variable {engine : Engine}

/-- Occupied and free slots are all slots. -/
theorem Sound.size_slots_eq_add (sound : engine.Sound) :
    engine.store.chain.slots.size = engine.store.size + engine.store.chain.free.length := by
  rw [sound.size_eq, sound.represents.size_slots_eq_add]

/-- An engine that adopts the outcome of a step keeps its slots if the step does. -/
theorem size_slots_adopt {α : Type} {outcome : Option (Outcome α)}
    (kept : ∀ done, outcome = some done →
      done.store.chain.slots.size = engine.store.chain.slots.size) :
    (engine.adopt outcome).2.store.chain.slots.size = engine.store.chain.slots.size := by
  cases outcome with
  | none => rfl
  | some done => exact kept done rfl

/-- An engine adds a slot only for a new entry that it stores while all slots are occupied. -/
theorem size_slots_put (engine : Engine) (key : Key) (value : Value) (options : EntryOptions) :
    let left := (engine.put key value options).2
    left.store.chain.slots.size = engine.store.chain.slots.size ∨
      (engine.store.capacity ≠ 0 ∧ engine.moment.timeOfDay.isOk = true) ∧
        Chain.Filled engine.store.chain left.store.chain := by
  rw [put]
  cases stored : engine.store.put key value options engine.moment with
  | none => exact .inl rfl
  | some done => exact Store.size_slots_put stored

/-- A pass of a sweeper leaves the slots to the arena. -/
theorem size_slots_sweepPass (engine : Engine) :
    engine.sweepPass.store.chain.slots.size = engine.store.chain.slots.size := by
  rw [sweepPass]
  split
  · rename_i swept
    exact Store.size_slots_sweep swept
  · rfl

theorem size_slots_wake (engine : Engine) (before : List Sleeper) (sleeper : Sleeper)
    (after : List Sleeper) :
    (engine.wake before sleeper after).store.chain.slots.size = engine.store.chain.slots.size := by
  rw [wake]
  split
  · exact size_slots_sweepPass _
  · rfl

end Engine

namespace Event

variable {event : Event}

/-- No event adds a slot but one that stores a new entry, after which all slots are occupied. Only
the event that takes out everything at once gives slots up. -/
theorem size_slots_after (kept : event.action ≠ .clear) :
    event.after.store.chain.slots.size = event.engine.store.chain.slots.size ∨
      event.accepts = true ∧ Chain.Filled event.engine.store.chain event.after.store.chain := by
  rcases event with ⟨engine, action⟩
  cases action with
  | put key value options =>
      rcases engine.size_slots_put key value options with same | ⟨⟨room, told⟩, filled⟩
      · exact .inl same
      · exact .inr ⟨by simpa [accepts, target?, room] using told, filled⟩
  | putIfAbsent key text =>
      rw [Event.after, Action.run, Engine.putIfAbsent]
      cases found : engine.store.live? key engine.now with
      | some entry => exact .inl rfl
      | none =>
          rcases engine.size_slots_put key { text } {} with same | ⟨⟨room, told⟩, filled⟩
          · exact .inl same
          · exact .inr ⟨by simpa [accepts, target?, room, found] using told, filled⟩
  | get key | getWithSnapshot key =>
      exact .inl (Engine.size_slots_adopt fun _ => Store.size_slots_lookup)
  | getSince key since =>
      exact .inl (Engine.size_slots_adopt fun _ => Store.size_slots_lookupSince)
  | remove key => exact .inl (Engine.size_slots_adopt fun _ => Store.size_slots_remove)
  | clear => exact absurd rfl kept
  | setCapacity capacity =>
      cases capacity with
      | ofNat capacity =>
          exact .inl (Engine.size_slots_adopt fun _ => Store.size_slots_setCapacity)
      | negSucc capacity => exact .inl rfl
  | purge default => exact .inl (Engine.size_slots_adopt fun _ => Store.size_slots_sweep)
  | enable interval survive name =>
      exact .inl (congrArg (·.chain.slots.size) (engine.store_enable interval survive name))
  | wake =>
      rw [Event.after, Action.run]
      split
      · exact .inl rfl
      · exact .inl (engine.size_slots_wake _ _ _)
  | ask | setRefreshOnHit | disable | rest => exact .inl rfl

/-- An event that stores a new entry does not change the capacity. -/
theorem capacity_after_of_accepts (sound : event.engine.Sound) (accepts : event.accepts = true) :
    event.after.store.capacity = event.engine.store.capacity := by
  rw [Event.accepts, Bool.and_eq_true, Option.isSome_iff_exists] at accepts
  obtain ⟨⟨key, target⟩, -⟩ := accepts
  obtain ⟨text, lifetime, inserts⟩ := target?_eq_some_iff.mp target
  obtain ⟨value, options, -, -, left⟩ := inserts.exists_put sound
  exact (congrArg (·.capacity) left).trans (PlainStore.capacity_put ..)

/-- The arena grows no further than to hold what is stored. -/
theorem size_slots_after_eq_max (sound : event.engine.Sound) (kept : event.action ≠ .clear) :
    event.after.store.chain.slots.size =
      max event.engine.store.chain.slots.size event.after.store.size := by
  have all : event.after.store.chain.slots.size = event.after.store.size + _ :=
    Engine.Sound.size_slots_eq_add (sound.run event.action).1
  rcases size_slots_after kept with same | ⟨-, grown, full⟩
  · omega
  · rw [full, List.length_nil] at all
    omega

/-- If it grows, the capacity has room for all of its slots. -/
theorem size_slots_after_le (sound : event.engine.Sound) (kept : event.action ≠ .clear) :
    event.after.store.chain.slots.size = event.engine.store.chain.slots.size ∨
      event.accepts = true ∧ event.after.store.chain.slots.size ≤ event.engine.store.capacity := by
  refine (size_slots_after kept).imp_right ?_
  rintro ⟨accepts, -, full⟩
  have soundAfter : event.after.Sound := (sound.run event.action).1
  refine ⟨accepts, ?_⟩
  calc event.after.store.chain.slots.size = event.after.store.size := by
        rw [soundAfter.size_slots_eq_add, full, List.length_nil, Nat.add_zero]
    _ ≤ event.after.store.capacity := soundAfter.size_le
    _ = event.engine.store.capacity := capacity_after_of_accepts sound accepts

end Event

/-! ## Histories -/

/-- The largest number of entries stored at once after any of these events. No event stores more of
them in its course, since it makes room before it stores. -/
def peak (events : List Event) : Nat := (events.map (·.after.store.size)).foldl max 0

/-- The largest capacity at which one of these events stores a new entry, zero if none does. -/
def largestCapacity (events : List Event) : Nat :=
  ((events.filter Event.accepts).map (·.engine.store.capacity)).foldl max 0

theorem peak_concat (events : List Event) (event : Event) :
    peak (events ++ [event]) = max (peak events) event.after.store.size := by
  simp [peak]

theorem largestCapacity_concat (events : List Event) (event : Event) :
    largestCapacity (events ++ [event]) =
      if event.accepts then max (largestCapacity events) event.engine.store.capacity
      else largestCapacity events := by
  cases accepts : event.accepts <;> simp [largestCapacity, accepts]

/-- Each slot of the arena is occupied or free. There are as many as entries were stored at once since
all of them were last taken out together, which the largest capacity at which one of these was stored
has room for. -/
structure Engine.Recycles (engine : Engine) (past : List Event) : Prop where
  size_slots_eq_add : engine.store.chain.slots.size =
    engine.store.size + engine.store.chain.free.length
  size_slots_eq_peak : engine.store.chain.slots.size = peak (sinceClear past)
  size_slots_le : engine.store.chain.slots.size ≤ largestCapacity (sinceClear past)

/-- Every event keeps to as many slots as are needed. -/
theorem Event.recycles_after (event : Event) {past : List Event} (sound : event.engine.Sound)
    (recycles : event.engine.Recycles past) : event.after.Recycles (past ++ [event]) := by
  have all := Engine.Sound.size_slots_eq_add (sound.run event.action).1
  obtain ⟨-, atPeak, within⟩ := recycles
  cases clears : event.clears with
  | true =>
      have none : event.after.store.chain.slots.size = 0 := by
        rw [store_after_clear (clears_iff.mp clears)]
        rfl
      refine ⟨all, ?_, none ▸ Nat.zero_le _⟩
      rw [none, sinceClear_concat, if_pos clears]
      rfl
  | false =>
      have kept : event.action ≠ .clear := by simp [← clears_iff, clears]
      have since : sinceClear (past ++ [event]) = sinceClear past ++ [event] := by
        rw [sinceClear_concat, clears, if_neg Bool.false_ne_true]
      refine ⟨all, ?_, ?_⟩
      · rw [since, peak_concat, ← atPeak]
        exact size_slots_after_eq_max sound kept
      · rw [since, largestCapacity_concat]
        rcases size_slots_after_le sound kept with same | ⟨accepts, fits⟩
        · split <;> omega
        · rw [if_pos accepts]
          exact Nat.le_trans fits (Nat.le_max_right _ _)

/-- A new engine has no slots. -/
theorem Origin.recycles_blank (origin : Origin) : origin.blank.Recycles [] := by
  cases origin with
  | create | ofConfig => exact ⟨rfl, rfl, Nat.zero_le _⟩

/-- At every moment of a history, each slot is occupied or free, there are as many as there have been
entries at once since all of them were last taken out together, and these are no more than the
largest capacity at which one was stored since then. -/
theorem Origin.recycles_slots (origin : Origin) (calls : List Call) {past : List Event}
    (reached : past <+: origin.history calls) : (origin.blank.through past).Recycles past := by
  have path := (origin.path_history calls).path_through reached
  exact origin.sound_blank.accumulates (motive := Engine.Recycles)
    (fun event _ => event.recycles_after) path origin.recycles_blank

/-- After a clearing, entries leave to make room, by replacement, on demand, in a sweep and as the
capacity is lowered, a supplier stores under the key of its own call, and slots are used again. -/
theorem Origin.recycles_slots_after_clear :
    let origin := Origin.create 5 0
    let short : EntryOptions := { timeToLive := some 5 }
    let supplier := [Call.put "f" ⟨"6", false⟩ short, .advance 10, .put "g" ⟨"7", false⟩ {},
      .put "h" ⟨"8", false⟩ {}]
    let calls := [Call.put "a" ⟨"1", false⟩ {}, .put "b" ⟨"2", false⟩ {}, .put "c" ⟨"3", false⟩ {},
      .put "d" ⟨"4", false⟩ {}, .clear, .setCapacity 3, .put "a" ⟨"1", false⟩ {},
      .put "b" ⟨"2", true⟩ short, .put "a" ⟨"3", false⟩ {}, .put "c" ⟨"4", false⟩ {},
      .put "d" ⟨"5", false⟩ {}, .remove "c", .enable 10 1000000 none,
      .getOrCreate "f" supplier (.value "9"), .setCapacity 1]
    let past := origin.history calls
    let engine := origin.blank.through past
    engine.store.size = 1 ∧ engine.store.chain.free.length = 2 ∧ peak (sinceClear past) = 3 ∧
      largestCapacity (sinceClear past) = 3 ∧ engine.Recycles past := by
  intro origin short supplier calls past engine
  exact ⟨by decide +kernel, by decide +kernel, by decide +kernel, by decide +kernel,
    origin.recycles_slots calls List.prefix_rfl⟩

end RecencyCache
