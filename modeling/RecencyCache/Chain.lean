import RecencyCache.Entry
import Std.Data.TreeMap

/-!
# Recency chain

The entries of a cache, from the one used most recently to the one used least recently. Entries
live in the slots of an arena and link to their neighbours by slot number, so that an entry moves
or leaves without touching more than its neighbours. A directory leads from a key to its slot,
and slots that have become free are used again before the arena grows.

A step that meets a slot number without an entry behind it has found a dangling reference and
answers `none`. The view of a chain is `toList`, its entries in order of recency.
-/

namespace RecencyCache

/-- An occupied slot: an entry between its neighbours. -/
structure Node where
  entry : Entry
  /-- Slot of the neighbour that was used more recently. -/
  newer : Option Nat := none
  /-- Slot of the neighbour that was used less recently. -/
  older : Option Nat := none
  deriving DecidableEq

/-- An arena of linked entries with a directory of their keys. -/
structure Chain where
  slots : Array (Option Node) := #[]
  /-- Slots to be used again, the last one freed first. -/
  free : List Nat := []
  directory : Std.TreeMap Key Nat := {}
  /-- Slot of the entry used most recently. -/
  newest : Option Nat := none
  /-- Slot of the entry used least recently. -/
  oldest : Option Nat := none

namespace Chain

/-- The number of stored entries. -/
def size (chain : Chain) : Nat := chain.directory.size

/-! ## Reading -/

/-- The occupant of a slot. -/
def node? (chain : Chain) (slot : Nat) : Option Node := chain.slots[slot]?.join

/-- The entry in a slot. -/
def entry? (chain : Chain) (slot : Nat) : Option Entry := (chain.node? slot).map (·.entry)

/-- The slot that holds `key`. -/
def slotOf? (chain : Chain) (key : Key) : Option Nat := chain.directory[key]?

/-- The entry stored under `key`. -/
def find? (chain : Chain) (key : Key) : Option Entry := (chain.slotOf? key).bind chain.entry?

/-- The slots met when following the links to older entries, at most `fuel` of them. -/
def slotsFrom (chain : Chain) : Nat → Option Nat → List Nat
  | 0, _ => []
  | _ + 1, none => []
  | fuel + 1, some slot =>
      match chain.node? slot with
      | none => []
      | some node => slot :: chain.slotsFrom fuel node.older

/-- The slots from the newest to the oldest entry. No chain is longer than its arena. -/
def order (chain : Chain) : List Nat := chain.slotsFrom chain.slots.size chain.newest

/-- The entries from the most to the least recently used. -/
def toList (chain : Chain) : List Entry := chain.order.filterMap chain.entry?

/-- The entries in the order of their keys. -/
def entriesByKey (chain : Chain) : List Entry :=
  chain.directory.toList.filterMap fun (_, slot) => chain.entry? slot

/-! ## Links -/

/-- Changes the occupant of a slot. -/
def modify (chain : Chain) (slot : Nat) (change : Node → Node) : Option Chain :=
  (chain.node? slot).map fun node =>
    { chain with slots := chain.slots.setIfInBounds slot (some (change node)) }

/-- Lets `older` follow the entry in `slot`; with no such entry it becomes the newest. -/
def setOlder (chain : Chain) (slot older : Option Nat) : Option Chain :=
  match slot with
  | some slot => chain.modify slot ({ · with older })
  | none => some { chain with newest := older }

/-- Lets `newer` precede the entry in `slot`; with no such entry it becomes the oldest. -/
def setNewer (chain : Chain) (slot newer : Option Nat) : Option Chain :=
  match slot with
  | some slot => chain.modify slot ({ · with newer })
  | none => some { chain with oldest := newer }

/-- Takes the entry in `slot` out of the chain by joining its neighbours. -/
def unlink (chain : Chain) (slot : Nat) : Option Chain := do
  let node ← chain.node? slot
  let chain ← chain.setOlder node.newer node.older
  let chain ← chain.setNewer node.older node.newer
  chain.modify slot ({ · with newer := none, older := none })

/-- Puts the unlinked entry in `slot` in front of the chain. -/
def linkNewest (chain : Chain) (slot : Nat) : Option Chain := do
  let front := chain.newest
  let chain ← chain.modify slot ({ · with newer := none, older := front })
  let chain ← chain.setNewer front (some slot)
  some { chain with newest := some slot }

/-! ## Operations -/

/-- Makes the entry in `slot` the most recently used one. -/
def moveToFront (chain : Chain) (slot : Nat) : Option Chain :=
  if chain.newest = some slot then some chain
  else do (← chain.unlink slot).linkNewest slot

/-- Changes the entry in `slot`; its links stay. -/
def updateEntry (chain : Chain) (slot : Nat) (change : Entry → Entry) : Option Chain :=
  chain.modify slot fun node => { node with entry := change node.entry }

/-- Occupies a free slot, or a new one if there is none. -/
def allocate (chain : Chain) (entry : Entry) : Option (Nat × Chain) :=
  match chain.free with
  | slot :: free =>
      if slot < chain.slots.size then
        some (slot,
          { chain with slots := chain.slots.setIfInBounds slot (some { entry }), free })
      else none
  | [] => some (chain.slots.size, { chain with slots := chain.slots.push (some { entry }) })

/-- Stores an entry, whose key must be absent, in front of the chain and tells its slot. -/
def insert (chain : Chain) (entry : Entry) : Option (Nat × Chain) := do
  let (slot, chain) ← chain.allocate entry
  let chain ← chain.linkNewest slot
  some (slot, { chain with directory := chain.directory.insert entry.key slot })

/-- Takes out the entry in `slot` and frees the slot. -/
def removeAt (chain : Chain) (slot : Nat) : Option (Entry × Chain) := do
  let chain ← chain.unlink slot
  let entry ← chain.entry? slot
  some (entry,
    { chain with
      slots := chain.slots.setIfInBounds slot none
      free := slot :: chain.free
      directory := chain.directory.erase entry.key })

/-- Takes out the entry stored under `key`, if there is one. -/
def remove (chain : Chain) (key : Key) : Option (Option Entry × Chain) :=
  match chain.slotOf? key with
  | none => some (none, chain)
  | some slot => do
      let (entry, chain) ← chain.removeAt slot
      some (some entry, chain)

/-- Takes out the `count` least recently used entries, or all if there are fewer. -/
def popOldest (chain : Chain) : Nat → Option (List Entry × Chain)
  | 0 => some ([], chain)
  | count + 1 =>
      match chain.oldest with
      | none => some ([], chain)
      | some slot => do
          let (entry, chain) ← chain.removeAt slot
          let (others, chain) ← chain.popOldest count
          some (entry :: others, chain)

/-- Takes out the entries of the given slots, one after the other. -/
def removeSlots (chain : Chain) : List Nat → Option (List Entry × Chain)
  | [] => some ([], chain)
  | slot :: slots => do
      let (entry, chain) ← chain.removeAt slot
      let (others, chain) ← chain.removeSlots slots
      some (entry :: others, chain)

/-- The slots of all entries that `condition` holds of, in the order of their keys. -/
def slotsWhere (chain : Chain) (condition : Entry → Bool) : List Nat :=
  chain.directory.values.filter fun slot => (chain.entry? slot).any condition

/-- Takes out every entry that `condition` holds of. -/
def removeWhere (chain : Chain) (condition : Entry → Bool) : Option (List Entry × Chain) :=
  chain.removeSlots (chain.slotsWhere condition)

/-- All stored entries in the order of their slots. -/
def occupants (chain : Chain) : List Entry :=
  chain.slots.toList.filterMap fun node => node.map (·.entry)

end Chain

end RecencyCache
