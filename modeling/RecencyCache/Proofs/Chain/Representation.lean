import RecencyCache.Proofs.Chain.Links
import Mathlib.Data.List.Nodup

/-!
# Representation of a chain

A chain represents an order of slots if these slots are linked in this order and are the occupied
ones, the directory leads from each stored key to its slot and from no other key anywhere, and the
free slots are the unoccupied ones. Each operation on a chain that represents an order succeeds, and
the chain it leaves represents the order that one expects.
-/

namespace RecencyCache.Chain

variable {chain changed : Chain} {order before after : List Nat} {slot query : Nat}
variable {entry : Entry} {key : Key}

/-- The occupied slots are those of `order`, linked in this order, and directory and free slots
agree with them. -/
structure Represents (chain : Chain) (order : List Nat) : Prop where
  linked : Linked chain order
  mem_of_entry? : ∀ {slot entry}, chain.entry? slot = some entry → slot ∈ order
  slotOf?_eq_some_iff : ∀ {key slot}, chain.slotOf? key = some slot ↔
    ∃ entry, chain.entry? slot = some entry ∧ entry.key = key
  free_nodup : chain.free.Nodup
  mem_free_iff : ∀ {slot}, slot ∈ chain.free ↔
    slot < chain.slots.size ∧ chain.entry? slot = none

/-! ## The arena and the directory -/

theorem entry?_setIfInBounds (inBounds : slot < chain.slots.size) (occupant : Option Node) :
    (Option.join (chain.slots.setIfInBounds slot occupant)[query]?).map (·.entry) =
      if query = slot then occupant.map (·.entry) else chain.entry? query := by
  rw [node?_setIfInBounds inBounds]
  split <;> rfl

theorem lt_size_of_entry? (found : chain.entry? slot = some entry) : slot < chain.slots.size := by
  obtain ⟨node, occupied, -⟩ := entry?_eq_some_iff.mp found
  exact lt_size_of_node? occupied

theorem slotOf?_insert {other : Key} :
    (chain.directory.insert key slot)[other]? =
      if other = key then some slot else chain.slotOf? other := by
  rw [Std.TreeMap.getElem?_insert]
  exact if_congr (Std.LawfulEqCmp.compare_eq_iff_eq.trans eq_comm) rfl rfl

theorem slotOf?_erase {other : Key} :
    (chain.directory.erase key)[other]? =
      if other = key then none else chain.slotOf? other := by
  rw [Std.TreeMap.getElem?_erase]
  exact if_congr (Std.LawfulEqCmp.compare_eq_iff_eq.trans eq_comm) rfl rfl

/-- Slots that keep their links and an entry stay linked. -/
theorem Linked.of_links (linked : Linked chain order) (newest : changed.newest = chain.newest)
    (oldest : changed.oldest = chain.oldest)
    (links : ∀ slot ∈ order, ∀ node, chain.node? slot = some node →
      ∃ entry, changed.node? slot = some ⟨entry, node.newer, node.older⟩) :
    Linked changed order where
  nodup := linked.nodup
  newest_eq := newest.trans linked.newest_eq
  oldest_eq := oldest.trans linked.oldest_eq
  neighbours before slot after split := by
    obtain ⟨entry, found⟩ := linked.neighbours before slot after split
    exact links slot (by simp [split]) _ found

/-- An empty chain represents the empty order. -/
theorem represents_empty : Represents {} [] where
  linked := linked_empty
  mem_of_entry? found := by simp [Chain.entry?, node?] at found
  slotOf?_eq_some_iff := by simp [slotOf?, Chain.entry?, node?]
  free_nodup := .nil
  mem_free_iff := by simp

namespace Represents

/-! ## What is represented -/

/-- Relinking the slots in another order represents this order. -/
theorem of_relinked (represents : chain.Represents order) (relinked : Relinked chain changed)
    {changedOrder : List Nat} (linked : Linked changed changedOrder)
    (subset : order ⊆ changedOrder) : changed.Represents changedOrder where
  linked := linked
  mem_of_entry? found := by
    rw [relinked.entry?_eq] at found
    exact subset (represents.mem_of_entry? found)
  slotOf?_eq_some_iff := by
    intro key slot
    rw [slotOf?, relinked.directory_eq, relinked.entry?_eq]
    exact represents.slotOf?_eq_some_iff
  free_nodup := relinked.free_eq ▸ represents.free_nodup
  mem_free_iff := by
    intro slot
    rw [relinked.free_eq, relinked.size_eq, relinked.entry?_eq]
    exact represents.mem_free_iff

theorem order_eq (represents : chain.Represents order) : chain.order = order :=
  represents.linked.order_eq

theorem exists_entry (represents : chain.Represents order) (member : slot ∈ order) :
    ∃ entry, chain.entry? slot = some entry := by
  obtain ⟨node, found⟩ := represents.linked.occupied member
  exact ⟨node.entry, by simp [Chain.entry?, found]⟩

theorem slotOf?_key (represents : chain.Represents order)
    (found : chain.entry? slot = some entry) : chain.slotOf? entry.key = some slot :=
  represents.slotOf?_eq_some_iff.mpr ⟨entry, found, rfl⟩

/-- A key is stored in one slot only. -/
theorem slot_unique (represents : chain.Represents order) {other : Nat} {otherEntry : Entry}
    (found : chain.entry? slot = some entry) (otherFound : chain.entry? other = some otherEntry)
    (sameKey : entry.key = otherEntry.key) : slot = other := by
  have first := represents.slotOf?_key found
  rw [sameKey, represents.slotOf?_key otherFound] at first
  exact (Option.some.inj first).symm

/-- A directory without a stored key leads to the slots without the one of this key. -/
theorem leads_without (represents : chain.Represents order)
    (found : chain.entry? slot = some entry) :
    (if key = entry.key then none else chain.slotOf? key) = some query ↔
      ∃ other, (if query = slot then none else chain.entry? query) = some other ∧
        other.key = key := by
  by_cases sameKey : key = entry.key
  · subst sameKey
    simp only [↓reduceIte, reduceCtorEq, false_iff, not_exists, not_and]
    intro other occupied sameKey
    by_cases same : query = slot
    · simp [same] at occupied
    · rw [if_neg same] at occupied
      exact same (represents.slot_unique occupied found sameKey)
  · rw [if_neg sameKey, represents.slotOf?_eq_some_iff]
    by_cases same : query = slot
    · subst same
      simp [found, Ne.symm sameKey]
    · rw [if_neg same]

/-- A directory with one more key leads to the slots with one more for this key. -/
theorem leads_with (represents : chain.Represents order)
    (absent : chain.slotOf? entry.key = none) (unoccupied : chain.entry? slot = none) :
    (if key = entry.key then some slot else chain.slotOf? key) = some query ↔
      ∃ other, (if query = slot then some entry else chain.entry? query) = some other ∧
        other.key = key := by
  by_cases sameKey : key = entry.key
  · subst sameKey
    by_cases same : query = slot
    · simp [same]
    · simp only [↓reduceIte, same, Option.some.injEq, Ne.symm same, false_iff, not_exists, not_and]
      intro other occupied sameKey
      have stored := represents.slotOf?_key occupied
      simp [sameKey, absent] at stored
  · rw [if_neg sameKey, represents.slotOf?_eq_some_iff]
    by_cases same : query = slot
    · subst same
      simp [unoccupied, Ne.symm sameKey]
    · rw [if_neg same]

/-! ## Taking out -/

/-- Taking out the entry in a slot succeeds, gives this entry, and takes the slot out of the
order. -/
theorem exists_removeAt (represents : chain.Represents (before ++ slot :: after))
    (found : chain.entry? slot = some entry) :
    ∃ changed, chain.removeAt slot = some (entry, changed) ∧
      changed.Represents (before ++ after) ∧
      ∀ query, changed.entry? query = if query = slot then none else chain.entry? query := by
  obtain ⟨unlinked, taken, relinked, -, linked⟩ := represents.linked.exists_unlink
  have stays : unlinked.entry? slot = some entry := (relinked.entry?_eq slot).trans found
  have inBounds : slot < unlinked.slots.size := lt_size_of_entry? stays
  let changed : Chain :=
    { unlinked with
      slots := unlinked.slots.setIfInBounds slot none
      free := slot :: unlinked.free
      directory := unlinked.directory.erase entry.key }
  have entries : ∀ query, changed.entry? query =
      if query = slot then none else chain.entry? query := by
    intro query
    rw [← relinked.entry?_eq]
    exact entry?_setIfInBounds inBounds none
  have size : changed.slots.size = chain.slots.size := by
    simp [changed, relinked.size_eq]
  have directory : ∀ key, changed.slotOf? key =
      if key = entry.key then none else chain.slotOf? key := by
    intro key
    have unchanged : unlinked.slotOf? key = chain.slotOf? key := by
      rw [slotOf?, relinked.directory_eq, slotOf?]
    rw [← unchanged]
    exact slotOf?_erase
  refine ⟨changed, by simp [removeAt, taken, stays, changed], ?_, entries⟩
  have fresh : slot ∉ before ++ after := by
    have distinct := represents.linked.nodup
    rw [List.nodup_middle] at distinct
    exact (List.nodup_cons.mp distinct).1
  constructor
  · refine linked.of_links rfl rfl ?_
    intro query member node occupied
    have different : query ≠ slot := ne_of_mem_of_not_mem member fresh
    refine ⟨node.entry, ?_⟩
    rw [node?, node?_setIfInBounds inBounds, if_neg different, occupied]
  · intro query other occupied
    rw [entries, ite_eq_iff] at occupied
    rcases occupied with ⟨-, impossible⟩ | ⟨different, occupied⟩
    · simp at impossible
    · have member := represents.mem_of_entry? occupied
      simpa [different] using member
  · intro key query
    rw [directory, entries]
    exact represents.leads_without found
  · refine List.nodup_cons.mpr ⟨?_, relinked.free_eq ▸ represents.free_nodup⟩
    rw [relinked.free_eq, represents.mem_free_iff, found]
    simp
  · intro query
    rw [entries, size]
    by_cases same : query = slot
    · subst same
      simp [changed, ← relinked.size_eq, inBounds]
    · simp [changed, same, relinked.free_eq, represents.mem_free_iff]

/-! ## Putting in -/

/-- Occupying a slot succeeds, takes an unoccupied one, and leaves the others as they are. -/
theorem exists_allocate (represents : chain.Represents order) (entry : Entry) :
    ∃ slot changed, chain.allocate entry = some (slot, changed) ∧ chain.entry? slot = none ∧
      (∀ query, changed.node? query =
        if query = slot then some { entry } else chain.node? query) ∧
      changed.newest = chain.newest ∧ changed.oldest = chain.oldest ∧
      changed.directory = chain.directory ∧ changed.free.Nodup ∧
      ∀ query, query ∈ changed.free ↔
        query < changed.slots.size ∧ changed.entry? query = none := by
  cases free : chain.free with
  | nil =>
      let changed : Chain := { chain with slots := chain.slots.push (some { entry }) }
      have unoccupied : chain.node? chain.slots.size = none := by
        simp [node?]
      have nodes : ∀ query, changed.node? query =
          if query = chain.slots.size then some { entry } else chain.node? query := by
        intro query
        simp only [node?, changed, Array.getElem?_push]
        split <;> rfl
      refine ⟨chain.slots.size, changed, by simp [allocate, free, changed], by
        simp [Chain.entry?, unoccupied], nodes, rfl, rfl, rfl, by simp [changed, free], ?_⟩
      intro query
      have full : query < chain.slots.size → chain.node? query ≠ none := by
        intro inBounds empty
        have member := represents.mem_free_iff.mpr ⟨inBounds, by simp [Chain.entry?, empty]⟩
        simp [free] at member
      have grown : changed.slots.size = chain.slots.size + 1 := by simp [changed]
      have none : changed.free = [] := free
      simp only [none, List.not_mem_nil, grown, Chain.entry?, nodes, false_iff, not_and]
      intro inBounds
      split
      · simp
      · simpa using full (by omega)
  | cons slot rest =>
      obtain ⟨inBounds, unoccupied⟩ :=
        represents.mem_free_iff.mp (show slot ∈ chain.free by simp [free])
      have distinct := represents.free_nodup
      rw [free, List.nodup_cons] at distinct
      let changed : Chain :=
        { chain with slots := chain.slots.setIfInBounds slot (some { entry }), free := rest }
      have nodes : ∀ query, changed.node? query =
          if query = slot then some { entry } else chain.node? query :=
        fun query => node?_setIfInBounds inBounds _
      refine ⟨slot, changed, by simp [allocate, free, inBounds, changed], unoccupied, nodes,
        rfl, rfl, rfl, distinct.2, ?_⟩
      intro query
      have size : changed.slots.size = chain.slots.size := by simp [changed]
      rw [size, Chain.entry?, nodes]
      by_cases same : query = slot
      · subst same
        simpa using distinct.1
      · rw [if_neg same, ← Chain.entry?, ← represents.mem_free_iff, free]
        simp [changed, same]

/-- Storing an entry of an absent key succeeds, takes an unoccupied slot, and puts this slot in
front of the order. -/
theorem exists_insert (represents : chain.Represents order)
    (absent : chain.slotOf? entry.key = none) :
    ∃ slot changed, chain.insert entry = some (slot, changed) ∧ chain.entry? slot = none ∧
      changed.Represents (slot :: order) ∧
      ∀ query, changed.entry? query =
        if query = slot then some entry else chain.entry? query := by
  obtain ⟨slot, allocated, allocation, unoccupied, nodes, newest, oldest, directory,
    freeDistinct, freeMembers⟩ := represents.exists_allocate entry
  have fresh : slot ∉ order := by
    intro member
    obtain ⟨other, found⟩ := represents.exists_entry member
    simp [unoccupied] at found
  have stillLinked : allocated.Linked order := by
    apply represents.linked.of_links newest oldest
    intro query member node occupied
    have different : query ≠ slot := ne_of_mem_of_not_mem member fresh
    exact ⟨node.entry, by rw [nodes, if_neg different, occupied]⟩
  have allocatedEntries : ∀ query, allocated.entry? query =
      if query = slot then some entry else chain.entry? query := by
    intro query
    rw [Chain.entry?, nodes]
    split <;> rfl
  obtain ⟨linked, put, relinked, linkedOrder⟩ :=
    stillLinked.exists_linkNewest (show allocated.entry? slot = some entry by
      simp [allocatedEntries]) fresh
  let changed : Chain := { linked with directory := linked.directory.insert entry.key slot }
  have entries : ∀ query, changed.entry? query =
      if query = slot then some entry else chain.entry? query :=
    fun query => (relinked.entry?_eq query).trans (allocatedEntries query)
  have slots : ∀ key, changed.slotOf? key =
      if key = entry.key then some slot else chain.slotOf? key := by
    intro key
    have unchanged : linked.slotOf? key = chain.slotOf? key := by
      rw [slotOf?, relinked.directory_eq, directory, slotOf?]
    rw [← unchanged]
    exact slotOf?_insert
  refine ⟨slot, changed, by simp [Chain.insert, allocation, put, changed], unoccupied, ?_, entries⟩
  constructor
  · exact linkedOrder.of_links rfl rfl fun query _ node occupied => ⟨node.entry, occupied⟩
  · intro query other occupied
    rw [entries] at occupied
    by_cases same : query = slot
    · simp [same]
    · rw [if_neg same] at occupied
      exact List.mem_cons_of_mem _ (represents.mem_of_entry? occupied)
  · intro key query
    rw [slots, entries]
    exact represents.leads_with absent unoccupied
  · exact relinked.free_eq ▸ freeDistinct
  · intro query
    have members := freeMembers query
    rw [allocatedEntries, ← entries, ← relinked.free_eq, ← relinked.size_eq] at members
    exact members

/-! ## Moving and changing -/

/-- Moving an entry to the front succeeds, puts its slot in front of the others, and leaves all
entries as they are. -/
theorem exists_moveToFront (represents : chain.Represents (before ++ slot :: after)) :
    ∃ changed, chain.moveToFront slot = some changed ∧
      changed.Represents (slot :: (before ++ after)) ∧
      ∀ query, changed.entry? query = chain.entry? query := by
  have distinct := List.nodup_cons.mp (List.nodup_middle.mp represents.linked.nodup)
  by_cases first : chain.newest = some slot
  · have atFront : before = [] := by
      rw [represents.linked.newest_eq] at first
      cases before with
      | nil => rfl
      | cons newest rest =>
          obtain rfl : newest = slot := by simpa using first
          simp at distinct
    subst atFront
    exact ⟨chain, by simp [moveToFront, first], represents, fun _ => rfl⟩
  · obtain ⟨entry, found⟩ := represents.exists_entry (show slot ∈ before ++ slot :: after by simp)
    obtain ⟨unlinked, taken, unlinkedRelinked, -, linked⟩ := represents.linked.exists_unlink
    obtain ⟨changed, put, linkedRelinked, linkedOrder⟩ :=
      linked.exists_linkNewest ((unlinkedRelinked.entry?_eq slot).trans found) distinct.1
    have relinked := unlinkedRelinked.trans linkedRelinked
    refine ⟨changed, by simp [moveToFront, first, taken, put], ?_, relinked.entry?_eq⟩
    exact represents.of_relinked relinked linkedOrder (by simp)

/-- A change of an entry that keeps its key succeeds and leaves the order and the other entries as
they are. -/
theorem exists_updateEntry (represents : chain.Represents order)
    (found : chain.entry? slot = some entry) (change : Entry → Entry)
    (sameKey : (change entry).key = entry.key) :
    ∃ changed, chain.updateEntry slot change = some changed ∧ changed.Represents order ∧
      ∀ query, changed.entry? query =
        if query = slot then some (change entry) else chain.entry? query := by
  obtain ⟨node, occupied, rfl⟩ := entry?_eq_some_iff.mp found
  obtain ⟨changed, modified, newest, oldest, free, directory, size, nodes⟩ :=
    exists_modify occupied fun node => { node with entry := change node.entry }
  have entries : ∀ query, changed.entry? query =
      if query = slot then some (change node.entry) else chain.entry? query := by
    intro query
    rw [Chain.entry?, nodes]
    split <;> rfl
  refine ⟨changed, modified, ?_, entries⟩
  constructor
  · apply represents.linked.of_links newest oldest
    intro query member other otherOccupied
    rw [nodes]
    by_cases same : query = slot
    · subst same
      rw [occupied] at otherOccupied
      cases otherOccupied
      exact ⟨change node.entry, by simp⟩
    · exact ⟨other.entry, by rw [if_neg same, otherOccupied]⟩
  · intro query other otherFound
    by_cases same : query = slot
    · exact same ▸ represents.mem_of_entry? found
    · rw [entries, if_neg same] at otherFound
      exact represents.mem_of_entry? otherFound
  · intro key query
    rw [slotOf?, directory, ← slotOf?, represents.slotOf?_eq_some_iff, entries]
    by_cases same : query = slot
    · subst same
      simp [found, sameKey]
    · rw [if_neg same]
  · exact free ▸ represents.free_nodup
  · intro query
    rw [free, size, represents.mem_free_iff, entries]
    by_cases same : query = slot
    · subst same
      simp [found]
    · rw [if_neg same]

end Represents

end RecencyCache.Chain
