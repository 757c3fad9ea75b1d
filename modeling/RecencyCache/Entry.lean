import RecencyCache.Duration
import RecencyCache.Timestamp

/-!
# Entries

An entry is a stored value with its key, tags, settings and age. Two rules end its life. Its
time to live runs from its creation and is over once it has elapsed in full. Its survive time
runs from the last access that refreshed it, and an entry is idle for too long once it has been
exceeded. The first rule makes an entry dead for every reader; the second counts only when the
cache is swept.
-/

namespace RecencyCache

/-- The name under which a value is stored. -/
abbrev Key := String

/-- A stored value. Reading a value hands out its text; disposing of a `faulty` one fails. -/
structure Value where
  text : String
  faulty : Bool := false
  deriving DecidableEq

/-- The settings with which an entry may be stored. -/
structure EntryOptions where
  /-- Lifetime measured from creation; zero means the same as none. -/
  timeToLive : Option Nat := none
  /-- Idle time that the entry survives, in place of the default of the cache. -/
  surviveTime : Option Nat := none
  context : Option String := none
  subContext : Option String := none
  deriving DecidableEq

/-- A stored entry. -/
structure Entry where
  key : Key
  value : Value
  context : Option String
  subContext : Option String
  surviveTime : Option Nat
  timeToLive : Option Nat
  /-- Monotonic time of the insertion. -/
  createdAt : Nat
  /-- Monotonic time of the insertion or of the last hit that refreshed the entry. -/
  lastAccessAt : Nat
  /-- Time of day of the insertion. -/
  insertedAt : Timestamp
  /-- Hits since the insertion, assumed to be fewer than `2 ^ 64`, the range of a 64-bit word. -/
  hitCount : Nat
  deriving DecidableEq

/-- What can be asked about a live entry at one moment. -/
structure Snapshot where
  hitCount : Nat
  age : Nat
  idle : Nat
  /-- What is left of the time to live. -/
  remaining : Option Nat
  surviveTime : Option Nat
  context : Option String
  subContext : Option String
  insertedAt : Timestamp
  deriving DecidableEq

namespace Entry

/-- A new entry, created and last accessed at `now`. -/
def create (key : Key) (value : Value) (options : EntryOptions) (now : Nat)
    (timeOfDay : Timestamp) : Entry where
  key
  value
  context := options.context
  subContext := options.subContext
  surviveTime := options.surviveTime
  timeToLive := options.timeToLive.filter (· ≠ 0)
  createdAt := now
  lastAccessAt := now
  insertedAt := timeOfDay
  hitCount := 0

/-- Records a hit, which refreshes the access time only if `refresh` holds. -/
def touch (entry : Entry) (now : Nat) (refresh : Bool) : Entry :=
  { entry with
    hitCount := entry.hitCount + 1
    lastAccessAt := if refresh then now else entry.lastAccessAt }

/-- Time since the insertion. -/
def age (entry : Entry) (now : Nat) : Nat := now - entry.createdAt

/-- Time since the last refreshed access. -/
def idle (entry : Entry) (now : Nat) : Nat := now - entry.lastAccessAt

/-- The time to live has elapsed; an entry as old as its time to live is over it. -/
def outlived (entry : Entry) (now : Nat) : Bool :=
  match entry.timeToLive with
  | some lifetime => decide (lifetime ≤ entry.age now)
  | none => false

/-- Every reader may see the entry. -/
def live (entry : Entry) (now : Nat) : Bool := !entry.outlived now

/-- The idle time exceeds the entry's own survive time, or `default` if it has none. Without
either, idleness is no reason to go. -/
def neglected (entry : Entry) (now : Nat) (default : Option Nat) : Bool :=
  match entry.surviveTime.or default with
  | some survive => decide (survive < entry.idle now)
  | none => false

/-- A sweep at `now` removes the entry. -/
def expired (entry : Entry) (now : Nat) (default : Option Nat) : Bool :=
  entry.outlived now || entry.neglected now default

/-- What is left of the time to live, zero once it has elapsed. -/
def remaining (entry : Entry) (now : Nat) : Option Nat :=
  entry.timeToLive.map (· - entry.age now)

/-- The entry's data as of `now`. -/
def snapshot (entry : Entry) (now : Nat) : Snapshot where
  hitCount := entry.hitCount
  age := entry.age now
  idle := entry.idle now
  remaining := entry.remaining now
  surviveTime := entry.surviveTime
  context := entry.context
  subContext := entry.subContext
  insertedAt := entry.insertedAt

@[simp] theorem key_create (key : Key) (value : Value) (options : EntryOptions)
    (now : Nat) (timeOfDay : Timestamp) :
    (create key value options now timeOfDay).key = key := rfl

@[simp] theorem key_touch (entry : Entry) (now : Nat) (refresh : Bool) :
    (entry.touch now refresh).key = entry.key := rfl

@[simp] theorem value_touch (entry : Entry) (now : Nat) (refresh : Bool) :
    (entry.touch now refresh).value = entry.value := rfl

/-- The time to live of a new entry is not over, and was not over before. -/
theorem outlived_create {time now : Nat} (earlier : time ≤ now) (key : Key) (value : Value)
    (options : EntryOptions) (timeOfDay : Timestamp) :
    (create key value options now timeOfDay).outlived time = false := by
  have age : (create key value options now timeOfDay).age time = 0 :=
    Nat.sub_eq_zero_of_le earlier
  rw [outlived, age]
  split
  · rename_i lifetime limited
    have positive : lifetime ≠ 0 := by simpa using (Option.filter_eq_some_iff.mp limited).2
    simpa using positive
  · rfl

@[simp] theorem outlived_touch (entry : Entry) (now later : Nat) (refresh : Bool) :
    (entry.touch now refresh).outlived later = entry.outlived later := rfl

end Entry

end RecencyCache
