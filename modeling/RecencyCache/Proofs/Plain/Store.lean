import RecencyCache.Store
import Mathlib.Data.List.Nodup

/-!
# Plain stores

A reference for the store that holds its entries as a list, most recent first, and knows of no
slots, links or directory. Each operation is written out on this list. It tells its answer, or the
fault that broke it off, and the store that it leaves.
-/

namespace RecencyCache

/-- The entries of a cache as a list, most recent first, with its settings and counters. -/
structure PlainStore where
  entries : List Entry := []
  capacity : Nat
  counters : Counters := {}
  refreshOnHit : Bool := true

/-- The answer of an operation that is complete, unless it disposed of a faulty value. -/
def disposing {α : Type} (disposed : List Value) (answer : α) : Except Fault α :=
  if disposed.any (·.faulty) then .error .disposal else .ok answer

theorem disposing_of_harmless {α : Type} {disposed : List Value} {answer : α}
    (harmless : ∀ value ∈ disposed, value.faulty = false) :
    disposing disposed answer = .ok answer := by
  rw [disposing, if_neg]
  simpa using harmless

namespace PlainStore

/-- The entry of a key. -/
def find? (store : PlainStore) (key : Key) : Option Entry :=
  store.entries.find? (·.key = key)

/-- The entries of all other keys. -/
def others (store : PlainStore) (key : Key) : List Entry :=
  store.entries.filter (·.key ≠ key)

/-! ## Operations -/

/-- Without capacity, a value is disposed of at once. Otherwise the entry of the same key goes,
then the least recent entries that leave no room, and then the new entry comes in front, if the
time of day can be told. -/
def put (store : PlainStore) (key : Key) (value : Value) (options : EntryOptions)
    (moment : Moment) : Except Fault Unit × PlainStore :=
  if store.capacity = 0 then (disposing [value] (), store)
  else
    let replaced := store.entries.filter (·.key = key)
    let kept := (store.others key).take (store.capacity - 1)
    let evicted := (store.others key).drop (store.capacity - 1)
    let counters := store.counters.evicted evicted.length
    match moment.timeOfDay with
    | .ok timeOfDay =>
        let entry := Entry.create key value options moment.now timeOfDay
        (disposing ((replaced ++ evicted).map (·.value)) (),
          { store with entries := entry :: kept, counters })
    | .error fault => (.error fault, { store with entries := kept, counters })

/-- Counts a lookup that finds nothing to look at. -/
def countMiss (store : PlainStore) : PlainStore :=
  { store with counters := store.counters.request }

/-- A live entry is touched and comes in front; a dead one goes. -/
def lookup (store : PlainStore) (key : Key) (now : Nat) :
    Except Fault (Option Entry) × PlainStore :=
  match store.find? key with
  | none => (.ok none, store.countMiss)
  | some entry =>
      if entry.outlived now then
        (disposing [entry.value] none,
          { store with
            entries := store.others key
            counters := store.counters.request.expired 1 })
      else
        let touched := entry.touch now store.refreshOnHit
        (.ok (some touched),
          { store with
            entries := touched :: store.others key
            counters := store.counters.request.hit })

/-- Only an entry that was stored at `since` or later is looked up. -/
def lookupSince (store : PlainStore) (key : Key) (since : Int) (now : Nat) :
    Except Fault (Option Entry) × PlainStore :=
  match store.find? key with
  | none => (.ok none, store.countMiss)
  | some entry =>
      if since ≤ entry.createdAt then store.lookup key now
      else (.ok none, store.countMiss)

/-- The entry of a key goes, dead or alive. -/
def remove (store : PlainStore) (key : Key) : Except Fault Bool × PlainStore :=
  let removed := store.entries.filter (·.key = key)
  (disposing (removed.map (·.value)) (!removed.isEmpty),
    { store with entries := store.others key })

/-- All entries go, and the counters start anew. -/
def clear (store : PlainStore) : Except Fault Unit × PlainStore :=
  (disposing (store.entries.map (·.value)) (), { store with entries := [], counters := {} })

/-- The most recent entries that fit stay. -/
def setCapacity (store : PlainStore) (capacity : Nat) : Except Fault Unit × PlainStore :=
  let evicted := store.entries.drop capacity
  (disposing (evicted.map (·.value)) (),
    { store with
      entries := store.entries.take capacity
      capacity
      counters := store.counters.evicted evicted.length })

/-- The entries whose time is over go; the others keep their order. -/
def sweep (store : PlainStore) (now : Nat) (default : Option Nat) :
    Except Fault Nat × PlainStore :=
  let gone := store.entries.filter (·.expired now default)
  (disposing (gone.map (·.value)) gone.length,
    { store with
      entries := store.entries.filter (!·.expired now default)
      counters := store.counters.expired gone.length })

/-! ## Views -/

/-- The live entry of a key. -/
def live? (store : PlainStore) (key : Key) (now : Nat) : Option Entry :=
  (store.find? key).filter (·.live now)

/-- The keys of the live entries, most recent first. -/
def liveKeys (store : PlainStore) (now : Nat) : List Key :=
  (store.entries.filter (·.live now)).map (·.key)

/-- The live entries in the order of their keys. -/
def liveByKey (store : PlainStore) (now : Nat) : List Entry :=
  (store.entries.mergeSort fun left right => (compare left.key right.key).isLE).filter (·.live now)

/-- The counters with the size and the rates. -/
def statistics (store : PlainStore) : Statistics where
  requests := store.counters.requests
  hits := store.counters.hits
  misses := store.counters.misses
  evictions := store.counters.evictions
  expirations := store.counters.expirations
  size := store.entries.length
  capacity := store.capacity
  hitRate := store.counters.hitRate
  fillRate := rate store.entries.length store.capacity

/-! ## Keys -/

variable {store : PlainStore} {key : Key} {entry : Entry}

theorem key_of_find? (found : store.find? key = some entry) : entry.key = key := by
  simpa using List.find?_some found

theorem mem_of_find? (found : store.find? key = some entry) : entry ∈ store.entries :=
  List.mem_of_find?_eq_some found

theorem find?_eq_none_iff :
    store.find? key = none ↔ ∀ entry ∈ store.entries, entry.key ≠ key := by
  simp [find?]

/-- If no key occurs twice, the entry of a key is the one that is found. -/
theorem find?_eq_some_iff (distinct : (store.entries.map (·.key)).Nodup) :
    store.find? key = some entry ↔ entry ∈ store.entries ∧ entry.key = key := by
  constructor
  · intro found
    exact ⟨mem_of_find? found, key_of_find? found⟩
  · intro member
    rcases member with ⟨member, rfl⟩
    cases found : store.find? entry.key with
    | none => exact absurd rfl (find?_eq_none_iff.mp found entry member)
    | some other =>
        rw [List.inj_on_of_nodup_map distinct member (mem_of_find? found)
          (key_of_find? found).symm]

theorem mem_others_iff : entry ∈ store.others key ↔ entry ∈ store.entries ∧ entry.key ≠ key := by
  simp [others]

/-- If no key occurs twice, the entry of a key is the only one that the others lack. -/
theorem split_of_find? (distinct : (store.entries.map (·.key)).Nodup)
    (found : store.find? key = some entry) :
    ∃ newer older, store.entries = newer ++ entry :: older ∧ store.others key = newer ++ older ∧
      store.entries.filter (·.key = key) = [entry] := by
  obtain rfl := key_of_find? found
  obtain ⟨newer, older, split⟩ := List.append_of_mem (mem_of_find? found)
  have fresh : entry.key ∉ (newer ++ older).map (·.key) := by
    rw [split, List.map_append, List.map_cons, List.nodup_middle] at distinct
    simpa using (List.nodup_cons.mp distinct).1
  have different : ∀ other ∈ newer ++ older, other.key ≠ entry.key := by
    intro other member sameKey
    exact fresh (sameKey ▸ List.mem_map_of_mem member)
  have newerDifferent : ∀ other ∈ newer, other.key ≠ entry.key := by
    intro other member
    exact different other (List.mem_append_left _ member)
  have olderDifferent : ∀ other ∈ older, other.key ≠ entry.key := by
    intro other member
    exact different other (List.mem_append_right _ member)
  refine ⟨newer, older, split, ?_, ?_⟩
  · rw [others, split, List.filter_append, List.filter_cons_of_neg (by simp),
      List.filter_eq_self.mpr (by simpa using newerDifferent),
      List.filter_eq_self.mpr (by simpa using olderDifferent)]
  · rw [split, List.filter_append, List.filter_cons_of_pos (by simp),
      List.filter_eq_nil_iff.mpr (by simpa using newerDifferent),
      List.filter_eq_nil_iff.mpr (by simpa using olderDifferent)]
    rfl

/-- If no key occurs twice, the entry that is found is all that is stored under its key. -/
theorem filter_key_eq (distinct : (store.entries.map (·.key)).Nodup) (key : Key) :
    store.entries.filter (·.key = key) = (store.find? key).toList := by
  cases found : store.find? key with
  | none => exact List.filter_eq_nil_iff.mpr (by simpa using find?_eq_none_iff.mp found)
  | some entry =>
      obtain ⟨-, -, -, -, alone⟩ := split_of_find? distinct found
      exact alone

/-- The others of an absent key are all entries. -/
theorem others_of_find?_eq_none (absent : store.find? key = none) :
    store.others key = store.entries := by
  rw [others, List.filter_eq_self]
  simpa using find?_eq_none_iff.mp absent

theorem length_others_le (store : PlainStore) (key : Key) :
    (store.others key).length ≤ store.entries.length :=
  List.length_filter_le _ _

/-- The others of a stored key are fewer than all entries. -/
theorem length_others_lt (found : store.find? key = some entry) :
    (store.others key).length < store.entries.length := by
  rw [others, List.length_filter_lt_length_iff_exists]
  exact ⟨entry, mem_of_find? found, by simp [key_of_find? found]⟩

/-! ## Entries -/

/-- After an insertion, an entry is the new one or an old one of another key. -/
theorem mem_put {value : Value} {options : EntryOptions} {moment : Moment}
    (member : entry ∈ (store.put key value options moment).2.entries) :
    (store.capacity ≠ 0 ∧ ∃ timeOfDay, moment.timeOfDay = .ok timeOfDay ∧
        entry = .create key value options moment.now timeOfDay) ∨
      (entry ∈ store.entries ∧ (store.capacity ≠ 0 → entry.key ≠ key)) := by
  by_cases full : store.capacity = 0
  · rw [put, if_pos full] at member
    exact .inr ⟨member, fun room => absurd full room⟩
  · have old (kept : entry ∈ (store.others key).take (store.capacity - 1)) :
        entry ∈ store.entries ∧ (store.capacity ≠ 0 → entry.key ≠ key) := by
      obtain ⟨stored, different⟩ := mem_others_iff.mp (List.mem_of_mem_take kept)
      exact ⟨stored, fun _ => different⟩
    rw [put, if_neg full] at member
    cases readable : moment.timeOfDay with
    | error fault =>
        simp only [readable] at member
        exact .inr (old member)
    | ok timeOfDay =>
        simp only [readable] at member
        rcases List.mem_cons.mp member with new | kept
        · exact .inl ⟨full, timeOfDay, rfl, new⟩
        · exact .inr (old kept)

/-- After a lookup, an entry is an old one or one that has just been touched. -/
theorem mem_lookup {now : Nat} (member : entry ∈ (store.lookup key now).2.entries) :
    entry ∈ store.entries ∨
      ∃ old ∈ store.entries, entry = old.touch now store.refreshOnHit := by
  rw [lookup] at member
  cases found : store.find? key with
  | none =>
      rw [found] at member
      exact .inl member
  | some live =>
      simp only [found] at member
      split at member
      · exact .inl (mem_others_iff.mp member).1
      · rcases List.mem_cons.mp member with touched | kept
        · exact .inr ⟨live, mem_of_find? found, touched⟩
        · exact .inl (mem_others_iff.mp kept).1

theorem mem_lookupSince {since : Int} {now : Nat}
    (member : entry ∈ (store.lookupSince key since now).2.entries) :
    entry ∈ store.entries ∨
      ∃ old ∈ store.entries, entry = old.touch now store.refreshOnHit := by
  rw [lookupSince] at member
  split at member
  · exact .inl member
  · split at member
    · exact mem_lookup member
    · exact .inl member

/-! ## The capacity -/

/-- There are no more entries than the capacity allows. -/
def Fits (store : PlainStore) : Prop := store.entries.length ≤ store.capacity

namespace Fits

theorem put (fits : store.Fits) (key : Key) (value : Value) (options : EntryOptions)
    (moment : Moment) : (store.put key value options moment).2.Fits := by
  rw [PlainStore.put]
  split
  · exact fits
  · rename_i capacity
    have taken := List.length_take_le (store.capacity - 1) (store.others key)
    have room : store.capacity - 1 < store.capacity := Nat.sub_one_lt capacity
    split
    · exact Nat.succ_le_of_lt (Nat.lt_of_le_of_lt taken room)
    · exact Nat.le_trans taken (Nat.le_of_lt room)

theorem lookup (fits : store.Fits) (key : Key) (now : Nat) : (store.lookup key now).2.Fits := by
  have fewer := Nat.le_trans (store.length_others_le key) fits
  rw [PlainStore.lookup]
  cases found : store.find? key with
  | none => exact fits
  | some entry =>
      simp only
      split
      · exact fewer
      · exact Nat.le_trans (Nat.succ_le_of_lt (length_others_lt found)) fits

theorem lookupSince (fits : store.Fits) (key : Key) (since : Int) (now : Nat) :
    (store.lookupSince key since now).2.Fits := by
  rw [PlainStore.lookupSince]
  cases store.find? key with
  | none => exact fits
  | some entry =>
      simp only
      split
      · exact fits.lookup key now
      · exact fits

theorem remove (fits : store.Fits) (key : Key) : (store.remove key).2.Fits :=
  Nat.le_trans (store.length_others_le key) fits

theorem clear (store : PlainStore) : store.clear.2.Fits := Nat.zero_le _

theorem setCapacity (store : PlainStore) (capacity : Nat) : (store.setCapacity capacity).2.Fits :=
  List.length_take_le capacity store.entries

theorem sweep (fits : store.Fits) (now : Nat) (default : Option Nat) :
    (store.sweep now default).2.Fits :=
  Nat.le_trans (List.length_filter_le _ _) fits

end Fits

end PlainStore

end RecencyCache
