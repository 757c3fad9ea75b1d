import RecencyCache.Proofs.Chain.Contents
import RecencyCache.Proofs.Plain.Store

/-!
# Stores refine plain stores

A store is seen as the plain store with the entries of its chain. On a store with a sound chain
every operation succeeds, has the result of the same operation on the plain store, and leaves a
store with a sound chain that is seen as the plain store left there.
-/

namespace RecencyCache

/-- The result of an operation, or the fault that broke it off. -/
def Outcome.result {α : Type} (outcome : Outcome α) : Except Fault α :=
  match outcome.interruption with
  | some fault => .error fault
  | none => disposing outcome.disposed outcome.answer

namespace Store

/-- A store without its slots, links and directory. -/
def plain (store : Store) : PlainStore where
  entries := store.chain.toList
  capacity := store.capacity
  counters := store.counters
  refreshOnHit := store.refreshOnHit

/-- An operation succeeds with the result of its reference, and leaves a sound chain that is seen as
the store left by the reference. -/
def Refines {α : Type} (outcome : Option (Outcome α))
    (reference : Except Fault α × PlainStore) : Prop :=
  ∃ done, outcome = some done ∧ done.store.chain.Sound ∧
    (done.result, done.store.plain) = reference

variable {store : Store} {key : Key}

/-- An operation refines its reference if it agrees with it on the result and on each part of the
store. -/
theorem Refines.of_parts {α : Type} {outcome : Option (Outcome α)} {done : Outcome α}
    {result : Except Fault α} {left : PlainStore} (succeeded : outcome = some done)
    (sound : done.store.chain.Sound) (sameResult : done.result = result)
    (entries : done.store.chain.toList = left.entries)
    (capacity : done.store.capacity = left.capacity)
    (counters : done.store.counters = left.counters)
    (refresh : done.store.refreshOnHit = left.refreshOnHit) :
    Refines outcome (result, left) := by
  refine ⟨done, succeeded, sound, ?_⟩
  rw [sameResult, plain, entries, capacity, counters, refresh]

/-! ## Reading -/

theorem find?_plain (sound : store.chain.Sound) (key : Key) :
    store.plain.find? key = store.chain.find? key := by
  apply Option.ext
  intro entry
  rw [sound.find?_eq_some_iff, PlainStore.find?_eq_some_iff sound.nodup_keys, plain]

theorem live?_plain (sound : store.chain.Sound) (key : Key) (now : Nat) :
    store.plain.live? key now = store.live? key now := by
  rw [PlainStore.live?, find?_plain sound, live?]

theorem size_plain (sound : store.chain.Sound) : store.plain.entries.length = store.size :=
  sound.size_eq.symm

theorem statistics_plain (sound : store.chain.Sound) :
    store.plain.statistics = store.statistics := by
  simp only [PlainStore.statistics, statistics, fillRate, size_plain sound]
  rfl

theorem liveByKey_plain (sound : store.chain.Sound) (now : Nat) :
    store.plain.liveByKey now = store.liveEntriesByKey now := by
  rw [liveEntriesByKey, sound.entriesByKey_eq, PlainStore.liveByKey, plain]

/-! ## Writing -/

/-- Removing a key takes out what the plain store has under it. -/
theorem exists_remove (sound : store.chain.Sound) (key : Key) :
    ∃ removed chain, store.chain.remove key = some (removed, chain) ∧ chain.Sound ∧
      chain.toList = store.plain.others key ∧
      removed.toList = store.plain.entries.filter (·.key = key) := by
  cases found : store.plain.find? key with
  | none =>
      have absent := PlainStore.find?_eq_none_iff.mp found
      refine ⟨none, store.chain, sound.remove_absent absent, sound, ?_, ?_⟩
      · rw [PlainStore.others_of_find?_eq_none found, plain]
      · exact (List.filter_eq_nil_iff.mpr (by simpa using absent)).symm
  | some entry =>
      obtain ⟨newer, older, split, others, same⟩ :=
        PlainStore.split_of_find? sound.nodup_keys found
      obtain rfl := PlainStore.key_of_find? found
      obtain ⟨chain, removed, chainSound, list⟩ := sound.exists_remove split
      exact ⟨some entry, chain, removed, chainSound, by rw [list, others], by rw [same]; rfl⟩

/-- Making room for all but `limit` entries keeps the first of them. -/
theorem exists_shrink {chain : Chain} (sound : chain.Sound) (limit : Nat) :
    ∃ evicted changed, chain.popOldest (chain.size - limit) = some (evicted, changed) ∧
      changed.Sound ∧ changed.toList = chain.toList.take limit ∧
      evicted = (chain.toList.drop limit).reverse := by
  obtain ⟨evicted, changed, popped, changedSound, list, evictedEq⟩ :=
    sound.exists_popOldest (chain.size - limit)
  have bound : chain.toList.length - (chain.size - limit) = min limit chain.toList.length := by
    rw [sound.size_eq]
    omega
  refine ⟨evicted, changed, popped, changedSound, ?_, ?_⟩
  · rw [list, bound, ← List.take_eq_take_min]
  · rw [evictedEq, bound, ← List.drop_eq_drop_min]

/-- Disposing of some values in another order has the same result. -/
theorem disposing_perm {α : Type} {disposed other : List Value} (perm : disposed.Perm other)
    (answer : α) : disposing disposed answer = disposing other answer := by
  rw [disposing, disposing, perm.any_eq]

theorem put_refines (sound : store.chain.Sound) (key : Key) (value : Value)
    (options : EntryOptions) (moment : Moment) :
    Refines (store.put key value options moment)
      (store.plain.put key value options moment) := by
  rw [put, PlainStore.put]
  by_cases full : store.capacity = 0
  · rw [if_pos full, if_pos (show store.plain.capacity = 0 from full)]
    exact ⟨_, rfl, sound, rfl⟩
  · rw [if_neg full, if_neg (show store.plain.capacity ≠ 0 from full)]
    obtain ⟨removed, without, removing, withoutSound, others, replaced⟩ := exists_remove sound key
    obtain ⟨evicted, kept, popped, keptSound, keptList, evictedEq⟩ :=
      exists_shrink withoutSound (store.capacity - 1)
    rw [others] at keptList evictedEq
    have disposed : ((removed.toList ++ evicted).map (·.value)).Perm
        ((store.plain.entries.filter (·.key = key) ++
          (store.plain.others key).drop (store.plain.capacity - 1)).map (·.value)) := by
      rw [replaced, evictedEq]
      exact ((List.reverse_perm _).append_left _).map _
    have evictedLength : evicted.length =
        ((store.plain.others key).drop (store.plain.capacity - 1)).length := by
      rw [evictedEq, List.length_reverse]
      rfl
    simp only [removing, popped, Option.bind_eq_bind, Option.bind_some]
    cases moment.timeOfDay with
    | error fault =>
        refine .of_parts rfl keptSound rfl keptList rfl ?_ rfl
        rw [evictedLength]
        rfl
    | ok timeOfDay =>
        have absent : ∀ other ∈ kept.toList, other.key ≠ key := by
          intro other member
          rw [keptList] at member
          exact (PlainStore.mem_others_iff.mp (List.mem_of_mem_take member)).2
        obtain ⟨slot, changed, inserted, changedSound, list⟩ :=
          keptSound.exists_insert
            (show ∀ other ∈ kept.toList,
              other.key ≠ (Entry.create key value options moment.now timeOfDay).key from absent)
        simp only [inserted, Option.bind_some]
        refine .of_parts rfl changedSound (disposing_perm disposed ()) ?_ rfl ?_ rfl
        · rw [list, keptList]
          rfl
        · rw [evictedLength]
          rfl

/-! ## Looking up -/

theorem lookup_refines (sound : store.chain.Sound) (key : Key) (now : Nat) :
    Refines (store.lookup key now) (store.plain.lookup key now) := by
  rw [lookup, PlainStore.lookup]
  cases found : store.plain.find? key with
  | none =>
      have absent := PlainStore.find?_eq_none_iff.mp found
      rw [sound.slotOf?_eq_none_iff.mpr absent]
      exact ⟨_, rfl, sound, rfl⟩
  | some entry =>
      obtain ⟨newer, older, split, others, -⟩ := PlainStore.split_of_find? sound.nodup_keys found
      obtain rfl := PlainStore.key_of_find? found
      by_cases dead : entry.outlived now = true
      · obtain ⟨slot, changed, stored, occupied, removed, changedSound, list⟩ :=
          sound.exists_removeAt split
        simp only [stored, occupied, removed, Option.bind_eq_bind, Option.bind_some, if_pos dead]
        exact .of_parts rfl changedSound rfl (list.trans others.symm) rfl rfl rfl
      · obtain ⟨slot, moved, changed, stored, occupied, moving, updated, changedSound, list⟩ :=
          sound.exists_moveToFront_updateEntry split (·.touch now store.refreshOnHit) rfl
        simp only [stored, occupied, moving, updated, Option.bind_eq_bind, Option.bind_some,
          if_neg dead]
        refine .of_parts rfl changedSound rfl ?_ rfl rfl rfl
        rw [list, ← others]
        rfl

theorem lookupSince_refines (sound : store.chain.Sound) (key : Key) (since : Int) (now : Nat) :
    Refines (store.lookupSince key since now) (store.plain.lookupSince key since now) := by
  rw [lookupSince, PlainStore.lookupSince]
  rw [find?_plain sound]
  cases store.chain.find? key with
  | none => exact ⟨_, rfl, sound, rfl⟩
  | some entry =>
      simp only
      split
      · exact lookup_refines sound key now
      · exact ⟨_, rfl, sound, rfl⟩

/-! ## Taking out -/

theorem remove_refines (sound : store.chain.Sound) (key : Key) :
    Refines (store.remove key) (store.plain.remove key) := by
  obtain ⟨removed, chain, removing, chainSound, list, removedList⟩ := exists_remove sound key
  rw [remove, PlainStore.remove]
  simp only [removing, Option.bind_eq_bind, Option.bind_some]
  have present : removed.isSome = !removed.toList.isEmpty := by cases removed <;> rfl
  refine .of_parts rfl chainSound ?_ list rfl rfl rfl
  rw [← removedList, ← present]
  rfl

theorem clear_refines (sound : store.chain.Sound) :
    Refines (some store.clear) store.plain.clear := by
  refine .of_parts rfl Chain.sound_empty ?_ Chain.toList_empty rfl rfl rfl
  exact disposing_perm (sound.occupants_perm_toList.map (·.value)) ()

theorem setCapacity_refines (sound : store.chain.Sound) (capacity : Nat) :
    Refines (store.setCapacity capacity) (store.plain.setCapacity capacity) := by
  obtain ⟨evicted, kept, popped, keptSound, list, evictedEq⟩ := exists_shrink sound capacity
  rw [setCapacity, PlainStore.setCapacity, size]
  simp only [popped, Option.bind_eq_bind, Option.bind_some]
  have disposed : evicted.Perm (store.chain.toList.drop capacity) := by
    rw [evictedEq]
    exact List.reverse_perm _
  refine .of_parts rfl keptSound (disposing_perm (disposed.map Entry.value) ()) list rfl ?_ rfl
  rw [disposed.length_eq]
  rfl

/-- Takes out the entries of the given slots, one after the other, as a sweep does. -/
def sweepSlots (store : Store) (slots : List Nat) : Option (Outcome Nat) := do
  let (expired, chain) ← store.chain.removeSlots slots
  some
    { answer := expired.length
      disposed := expired.map (·.value)
      store := { store with chain, counters := store.counters.expired expired.length } }

/-- These are the slots of the entries that a sweep takes out, in any order. -/
def Dooms (store : Store) (now : Nat) (default : Option Nat) (slots : List Nat) : Prop :=
  slots.Perm (store.chain.slotsWhere (·.expired now default))

/-- A sweep takes the entries that it takes out in the order of their keys. -/
theorem exists_sweep_eq (store : Store) (now : Nat) (default : Option Nat) :
    ∃ slots, store.Dooms now default slots ∧ store.sweep now default = store.sweepSlots slots :=
  ⟨_, .refl _, rfl⟩

/-- In whatever order they are taken, the outcome is that of the plain sweep. -/
theorem sweepSlots_refines (sound : store.chain.Sound) {now : Nat} {default : Option Nat}
    {slots : List Nat} (dooms : store.Dooms now default slots) :
    Refines (store.sweepSlots slots) (store.plain.sweep now default) := by
  obtain ⟨gone, kept, removed, keptSound, perm, list⟩ := sound.exists_removeSlots dooms
  rw [sweepSlots, PlainStore.sweep]
  simp only [removed, Option.bind_eq_bind, Option.bind_some]
  refine .of_parts rfl keptSound ?_ list rfl ?_ rfl
  · rw [perm.length_eq]
    exact disposing_perm (perm.map (·.value)) _
  · rw [perm.length_eq]
    rfl

theorem sweep_refines (sound : store.chain.Sound) (now : Nat) (default : Option Nat) :
    Refines (store.sweep now default) (store.plain.sweep now default) := by
  obtain ⟨slots, dooms, same⟩ := store.exists_sweep_eq now default
  rw [same]
  exact sweepSlots_refines sound dooms

end Store

end RecencyCache
