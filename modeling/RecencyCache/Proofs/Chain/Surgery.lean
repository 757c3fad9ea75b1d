import RecencyCache.Proofs.Soundness

/-!
# Surgery on a chain

What the operations on the links of a chain do to the order that it represents: each of them is the
operation on a list that its name says, at whatever place a slot stands in the order. An entry that
leaves has lost its links before, and all others stay as they are in their slots.
-/

namespace RecencyCache.Chain

variable {chain : Chain} {order : List Nat} {slot : Nat}

/-- The operations on the links of a chain are operations on the order that it represents. -/
structure ActsOnOrder (chain : Chain) (order : List Nat) : Prop where
  /-- An entry is unlinked and then taken out of its slot. -/
  removeAt : ∀ slot ∈ order, ∃ entry unlinked changed, chain.entry? slot = some entry ∧
    chain.unlink slot = some unlinked ∧ unlinked.node? slot = some { entry } ∧
    chain.removeAt slot = some (entry, changed) ∧ changed.Represents (order.erase slot) ∧
    ∀ query, changed.entry? query = if query = slot then none else chain.entry? query
  /-- The last entry is the first to leave. -/
  popOldest : ∀ slot ∈ order.getLast?, ∃ entry changed, chain.entry? slot = some entry ∧
    chain.popOldest 1 = some ([entry], changed) ∧ changed.Represents order.dropLast ∧
    ∀ query, changed.entry? query = if query = slot then none else chain.entry? query
  /-- Nothing leaves an empty chain. -/
  popOldest_empty : order = [] → chain.popOldest 1 = some ([], chain)
  /-- A slot comes in front of the others, if it is not the first already. -/
  moveToFront : ∀ slot ∈ order, ∃ changed, chain.moveToFront slot = some changed ∧
    changed.Represents (slot :: order.erase slot) ∧
    (∀ query, changed.entry? query = chain.entry? query) ∧
    (order.head? = some slot → changed = chain)
  /-- A new entry occupies a slot that was free and comes in front. -/
  insert : ∀ entry, chain.slotOf? entry.key = none → ∃ slot changed,
    chain.insert entry = some (slot, changed) ∧ chain.entry? slot = none ∧ slot ∉ order ∧
    changed.Represents (slot :: order) ∧
    ∀ query, changed.entry? query = if query = slot then some entry else chain.entry? query

namespace Represents

/-- A slot that is taken out has been unlinked before. -/
theorem exists_unlink_removeAt (represents : chain.Represents order) (member : slot ∈ order) :
    ∃ entry unlinked changed, chain.entry? slot = some entry ∧
      chain.unlink slot = some unlinked ∧ unlinked.node? slot = some { entry } ∧
      chain.removeAt slot = some (entry, changed) ∧ changed.Represents (order.erase slot) ∧
      ∀ query, changed.entry? query = if query = slot then none else chain.entry? query := by
  obtain ⟨entry, found⟩ := represents.exists_entry member
  obtain ⟨before, after, -, rfl, erased⟩ := List.exists_erase_eq member
  obtain ⟨unlinked, taken, relinked, ⟨other, cleared⟩, -⟩ := represents.linked.exists_unlink
  obtain ⟨changed, removed, represented, entries⟩ := represents.exists_removeAt found
  obtain rfl : other = entry := by
    have stays := (relinked.entry?_eq slot).trans found
    rw [ entry?, cleared] at stays
    exact Option.some.inj stays
  exact ⟨other, unlinked, changed, found, taken, cleared, removed, erased ▸ represented, entries⟩

/-- The last slot leaves first. -/
theorem exists_popOldest (represents : chain.Represents order)
    (last : order.getLast? = some slot) :
    ∃ entry changed, chain.entry? slot = some entry ∧
      chain.popOldest 1 = some ([entry], changed) ∧ changed.Represents order.dropLast ∧
      ∀ query, changed.entry? query = if query = slot then none else chain.entry? query := by
  obtain ⟨before, rfl⟩ := List.getLast?_eq_some_iff.mp last
  obtain ⟨entry, found⟩ := represents.exists_entry (show slot ∈ before ++ [slot] by simp)
  obtain ⟨changed, removed, represented, entries⟩ := represents.exists_removeAt found
  refine ⟨entry, changed, found, ?_, ?_, entries⟩
  · simp [popOldest, represents.linked.oldest_eq, removed]
  · simpa using represented

/-- The order does not change if its first slot is to come in front. -/
theorem exists_moveToFront_erase (represents : chain.Represents order) (member : slot ∈ order) :
    ∃ changed, chain.moveToFront slot = some changed ∧
      changed.Represents (slot :: order.erase slot) ∧
      (∀ query, changed.entry? query = chain.entry? query) ∧
      (order.head? = some slot → changed = chain) := by
  obtain ⟨before, after, -, rfl, erased⟩ := List.exists_erase_eq member
  obtain ⟨changed, moved, represented, entries⟩ := represents.exists_moveToFront
  refine ⟨changed, moved, erased ▸ represented, entries, ?_⟩
  intro first
  rw [moveToFront, if_pos (represents.linked.newest_eq.trans first)] at moved
  exact (Option.some.inj moved).symm

/-- The operations on a chain act on the order that it represents. -/
theorem acts_on_order (represents : chain.Represents order) : chain.ActsOnOrder order := by
  constructor
  case removeAt => exact fun slot member => represents.exists_unlink_removeAt member
  case popOldest => exact fun slot last => represents.exists_popOldest last
  case popOldest_empty =>
    rintro rfl
    rw [popOldest, represents.linked.oldest_eq]
    rfl
  case moveToFront => exact fun slot member => represents.exists_moveToFront_erase member
  case insert =>
    intro entry absent
    obtain ⟨slot, changed, inserted, unoccupied, represented, entries⟩ :=
      represents.exists_insert absent
    have fresh := (List.nodup_cons.mp represented.linked.nodup).1
    exact ⟨slot, changed, inserted, unoccupied, fresh, represented, entries⟩

/-- The slots of a chain stand in another order than in the arena, one slot is free, and one was
used again. -/
theorem acts_on_order_reused_slot :
    let calls := [Call.put "a" ⟨"1", false⟩ {}, .put "b" ⟨"2", false⟩ {}, .put "c" ⟨"3", false⟩ {},
      .remove "b", .put "d" ⟨"4", false⟩ {}, .get "a", .put "e" ⟨"5", false⟩ {}, .remove "c"]
    let chain := (Call.runAll calls (Origin.create 4 0).engine).2.store.chain
    chain.free = [2] ∧ chain.Represents [3, 0, 1] ∧ chain.ActsOnOrder [3, 0, 1] := by
  intro calls chain
  have path := Call.path_traceAll calls (Origin.create 4 0).engine
  have order : chain.order = [3, 0, 1] := by decide +kernel
  have represents : chain.Represents [3, 0, 1] :=
    order ▸ ((Origin.create 4 0).sound.of_path path).represents
  exact ⟨by decide +kernel, represents, represents.acts_on_order⟩

end Represents

end RecencyCache.Chain
