import RecencyCache.Chain
import RecencyCache.Moment
import RecencyCache.Report

/-!
# Store

A chain of entries held to a capacity, with its counters. Each operation is given the current
time, and tells next to its answer which values it disposed of. An answer of `none` means that the
chain held a dangling reference.

A lookup moves what it finds to the front of the chain; the views at the end of the module leave
the store as it is and show live entries only.
-/

namespace RecencyCache

/-- The entries of a cache with its settings and counters. -/
structure Store where
  chain : Chain := {}
  capacity : Nat
  counters : Counters := {}
  /-- Whether a hit refreshes the access time of its entry. -/
  refreshOnHit : Bool := true

/-- What an operation leaves behind: an answer, the values it disposed of, and the store. -/
structure Outcome (α : Type) where
  answer : α
  disposed : List Value := []
  store : Store
  /-- The fault that broke the operation off before its end, in which case the answer is void. -/
  interruption : Option Fault := none

namespace Store

/-- The number of stored entries, dead ones included. -/
def size (store : Store) : Nat := store.chain.size

/-! ## Operations -/

/-- Stores a value in front of all others. An entry of the same key goes first, then as many of
the least recently used as needed to stay within the capacity. Only then is the time of day asked
for; while it cannot be told, the value is disposed of with those that went. Without any capacity
the value is disposed of at once. -/
def put (store : Store) (key : Key) (value : Value) (options : EntryOptions)
    (moment : Moment) : Option (Outcome Unit) :=
  if store.capacity = 0 then some { answer := (), disposed := [value], store }
  else do
    let (replaced, chain) ← store.chain.remove key
    let (evicted, chain) ← chain.popOldest (chain.size - (store.capacity - 1))
    let displaced := (replaced.toList ++ evicted).map (·.value)
    let counters := store.counters.evicted evicted.length
    match moment.timeOfDay with
    | .ok timeOfDay => do
        let (_, chain) ← chain.insert (Entry.create key value options moment.now timeOfDay)
        some { answer := (), disposed := displaced, store := { store with chain, counters } }
    | .error fault =>
        some
          { answer := ()
            disposed := value :: displaced
            store := { store with chain, counters }
            interruption := some fault }

/-- Counts a lookup that finds nothing to look at. -/
def countMiss (store : Store) : Store :=
  { store with counters := store.counters.request }

/-- Looks a key up. A live entry is touched, moves to the front and is the answer; a dead one is
taken out and counts as expired. -/
def lookup (store : Store) (key : Key) (now : Nat) : Option (Outcome (Option Entry)) :=
  match store.chain.slotOf? key with
  | none => some { answer := none, store := store.countMiss }
  | some slot => do
      let counters := store.counters.request
      let entry ← store.chain.entry? slot
      if entry.outlived now then
        let (entry, chain) ← store.chain.removeAt slot
        some
          { answer := none
            disposed := [entry.value]
            store := { store with chain, counters := counters.expired 1 } }
      else
        let chain ← store.chain.moveToFront slot
        let chain ← chain.updateEntry slot (·.touch now store.refreshOnHit)
        some
          { answer := some (entry.touch now store.refreshOnHit)
            store := { store with chain, counters := counters.hit } }

/-- Looks a key up if its entry was stored at `since` or later. An older entry stays as it is and
counts as not found, dead or alive. -/
def lookupSince (store : Store) (key : Key) (since : Int) (now : Nat) :
    Option (Outcome (Option Entry)) :=
  match store.chain.find? key with
  | some entry =>
      if since ≤ entry.createdAt then store.lookup key now
      else some { answer := none, store := store.countMiss }
  | none => some { answer := none, store := store.countMiss }

/-- Takes out the entry of a key, dead or alive, and tells whether there was one. -/
def remove (store : Store) (key : Key) : Option (Outcome Bool) := do
  let (removed, chain) ← store.chain.remove key
  some
    { answer := removed.isSome
      disposed := removed.toList.map (·.value)
      store := { store with chain } }

/-- Takes out all entries and starts all counters and the arena anew. -/
def clear (store : Store) : Outcome Unit where
  answer := ()
  disposed := store.chain.occupants.map (·.value)
  store := { store with chain := {}, counters := {} }

/-- Changes the capacity and evicts the least recently used entries that no longer fit. -/
def setCapacity (store : Store) (capacity : Nat) : Option (Outcome Unit) := do
  let (evicted, chain) ← store.chain.popOldest (store.size - capacity)
  some
    { answer := ()
      disposed := evicted.map (·.value)
      store := { store with chain, capacity, counters := store.counters.evicted evicted.length } }

/-- Takes out every entry whose time is over and tells their number. -/
def sweep (store : Store) (now : Nat) (default : Option Nat) :
    Option (Outcome Nat) := do
  let (expired, chain) ← store.chain.removeWhere (·.expired now default)
  some
    { answer := expired.length
      disposed := expired.map (·.value)
      store := { store with chain, counters := store.counters.expired expired.length } }

/-! ## Views -/

/-- The live entry of a key. -/
def live? (store : Store) (key : Key) (now : Nat) : Option Entry :=
  (store.chain.find? key).filter (·.live now)

/-- The live entries from the most to the least recently used. -/
def liveEntries (store : Store) (now : Nat) : List Entry :=
  store.chain.toList.filter (·.live now)

/-- The live entries in the order of their keys. -/
def liveEntriesByKey (store : Store) (now : Nat) : List Entry :=
  store.chain.entriesByKey.filter (·.live now)

/-- The keys of the live entries from the most to the least recently used. -/
def keysByRecency (store : Store) (now : Nat) : List Key :=
  (store.liveEntries now).map (·.key)

/-- The key of the live entry used most recently: the walk along the chain ends at the first live
entry that it meets. -/
def mostRecentKey? (store : Store) (now : Nat) : Option Key :=
  (store.chain.toList.find? (·.live now)).map (·.key)

/-- The key of the live entry used least recently: the walk goes on to the end of the chain and
tells the last live entry that it met. -/
def leastRecentKey? (store : Store) (now : Nat) : Option Key :=
  (store.liveEntries now).getLast?.map (·.key)

theorem mostRecentKey?_eq_head? (store : Store) (now : Nat) :
    store.mostRecentKey? now = (store.keysByRecency now).head? := by
  rw [mostRecentKey?, keysByRecency, liveEntries, List.head?_map, List.head?_filter]

theorem leastRecentKey?_eq_getLast? (store : Store) (now : Nat) :
    store.leastRecentKey? now = (store.keysByRecency now).getLast? := by
  rw [leastRecentKey?, keysByRecency, List.getLast?_map]

/-- The share of the capacity in use, one if there is no capacity. -/
def fillRate (store : Store) : Float := rate store.size store.capacity

/-- The counters with the size and the rates. -/
def statistics (store : Store) : Statistics where
  requests := store.counters.requests
  hits := store.counters.hits
  misses := store.counters.misses
  evictions := store.counters.evictions
  expirations := store.counters.expirations
  size := store.size
  capacity := store.capacity
  hitRate := store.counters.hitRate
  fillRate := store.fillRate

end Store

end RecencyCache
