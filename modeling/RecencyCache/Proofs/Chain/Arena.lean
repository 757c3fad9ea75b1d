import RecencyCache.Proofs.Chain.Representation

/-!
# Arena of a chain

Every slot of the arena is either in the order that its chain represents or free to be used again.
What has been taken out leaves its slot to the arena, and relinking does not touch it, so only an
insertion can add a slot. It does so only if none is free, and then all slots are occupied.
-/

namespace RecencyCache.Chain

variable {chain changed : Chain} {order : List Nat} {slot : Nat} {entry : Entry}

/-! ## Occupied and free slots -/

namespace Represents

/-- Each slot is in the order or free, and none is both. -/
theorem perm_range (represents : chain.Represents order) :
    (order ++ chain.free).Perm (List.range chain.slots.size) := by
  have apart : order.Disjoint chain.free := by
    intro slot member free
    obtain ⟨entry, found⟩ := represents.exists_entry member
    simp [(represents.mem_free_iff.mp free).2] at found
  have distinct := represents.linked.nodup.append represents.free_nodup apart
  apply (List.perm_ext_iff_of_nodup distinct List.nodup_range).mpr
  intro slot
  rw [List.mem_append, List.mem_range, represents.mem_free_iff]
  constructor
  · intro held
    rcases held with ordered | ⟨inBounds, -⟩
    · exact represents.linked.lt_size ordered
    · exact inBounds
  · intro inBounds
    cases found : chain.entry? slot with
    | some entry => exact .inl (represents.mem_of_entry? found)
    | none => exact .inr ⟨inBounds, rfl⟩

theorem size_slots_eq_add (represents : chain.Represents order) :
    chain.slots.size = order.length + chain.free.length := by
  rw [← List.length_append, represents.perm_range.length_eq, List.length_range]

end Represents

/-! ## Relinking -/

/-- The chains have as many slots, and the same ones are free. -/
structure SameArena (chain changed : Chain) : Prop where
  size_eq : changed.slots.size = chain.slots.size
  free_eq : changed.free = chain.free

theorem SameArena.refl (chain : Chain) : SameArena chain chain := ⟨rfl, rfl⟩

theorem SameArena.trans {last : Chain} (first : SameArena chain changed)
    (second : SameArena changed last) : SameArena chain last where
  size_eq := second.size_eq.trans first.size_eq
  free_eq := second.free_eq.trans first.free_eq

theorem sameArena_modify {change : Node → Node} (modified : chain.modify slot change = some changed) :
    SameArena chain changed := by
  obtain ⟨node, -, rfl⟩ := Option.map_eq_some_iff.mp modified
  exact ⟨Array.size_setIfInBounds, rfl⟩

theorem sameArena_setOlder {slot older : Option Nat} (set : chain.setOlder slot older = some changed) :
    SameArena chain changed := by
  cases slot with
  | none =>
      cases set
      exact ⟨rfl, rfl⟩
  | some slot => exact sameArena_modify set

theorem sameArena_setNewer {slot newer : Option Nat} (set : chain.setNewer slot newer = some changed) :
    SameArena chain changed := by
  cases slot with
  | none =>
      cases set
      exact ⟨rfl, rfl⟩
  | some slot => exact sameArena_modify set

theorem sameArena_unlink (unlinked : chain.unlink slot = some changed) : SameArena chain changed := by
  simp only [unlink, Option.bind_eq_bind, Option.bind_eq_some_iff] at unlinked
  obtain ⟨node, -, followed, joined, preceded, joinedAgain, cleared⟩ := unlinked
  exact ((sameArena_setOlder joined).trans (sameArena_setNewer joinedAgain)).trans
    (sameArena_modify cleared)

theorem sameArena_linkNewest (linked : chain.linkNewest slot = some changed) :
    SameArena chain changed := by
  simp only [linkNewest, Option.bind_eq_bind, Option.bind_eq_some_iff] at linked
  obtain ⟨opened, modified, preceded, joined, left⟩ := linked
  cases left
  have same := (sameArena_modify modified).trans (sameArena_setNewer joined)
  exact ⟨same.size_eq, same.free_eq⟩

theorem sameArena_moveToFront (moved : chain.moveToFront slot = some changed) :
    SameArena chain changed := by
  rw [moveToFront] at moved
  split at moved
  · cases moved
    exact .refl _
  · obtain ⟨unlinked, taken, linked⟩ := Option.bind_eq_some_iff.mp moved
    exact (sameArena_unlink taken).trans (sameArena_linkNewest linked)

/-! ## Taking out -/

theorem size_slots_removeAt (taken : chain.removeAt slot = some (entry, changed)) :
    changed.slots.size = chain.slots.size := by
  simp only [removeAt, Option.bind_eq_bind, Option.bind_eq_some_iff] at taken
  obtain ⟨unlinked, unlinking, other, -, left⟩ := taken
  cases left
  exact Array.size_setIfInBounds.trans (sameArena_unlink unlinking).size_eq

theorem size_slots_remove {key : Key} {removed : Option Entry}
    (taken : chain.remove key = some (removed, changed)) :
    changed.slots.size = chain.slots.size := by
  rw [remove] at taken
  split at taken
  · cases taken
    rfl
  · obtain ⟨⟨entry, shorter⟩, first, left⟩ := Option.bind_eq_some_iff.mp taken
    cases left
    exact size_slots_removeAt first

theorem size_slots_popOldest {count : Nat} {evicted : List Entry}
    (taken : chain.popOldest count = some (evicted, changed)) :
    changed.slots.size = chain.slots.size := by
  induction count generalizing chain evicted with
  | zero =>
      cases taken
      rfl
  | succ count ih =>
      rw [popOldest] at taken
      split at taken
      · cases taken
        rfl
      · simp only [Option.bind_eq_bind, Option.bind_eq_some_iff] at taken
        obtain ⟨⟨entry, shorter⟩, first, ⟨others, last⟩, rest, left⟩ := taken
        cases left
        exact (ih rest).trans (size_slots_removeAt first)

theorem size_slots_removeSlots {slots : List Nat} {removed : List Entry}
    (taken : chain.removeSlots slots = some (removed, changed)) :
    changed.slots.size = chain.slots.size := by
  induction slots generalizing chain removed with
  | nil =>
      cases taken
      rfl
  | cons slot slots ih =>
      simp only [removeSlots, Option.bind_eq_bind, Option.bind_eq_some_iff] at taken
      obtain ⟨⟨entry, shorter⟩, first, ⟨others, last⟩, rest, left⟩ := taken
      cases left
      exact (ih rest).trans (size_slots_removeAt first)

/-! ## Putting in -/

/-- The arena has not shrunk, and all its slots are occupied. -/
structure Filled (chain changed : Chain) : Prop where
  size_le : chain.slots.size ≤ changed.slots.size
  free_eq : changed.free = []

/-- An insertion uses a slot again unless all are occupied. -/
theorem size_slots_insert (inserted : chain.insert entry = some (slot, changed)) :
    changed.slots.size = chain.slots.size ∨ Filled chain changed := by
  simp only [Chain.insert, Option.bind_eq_bind, Option.bind_eq_some_iff] at inserted
  obtain ⟨⟨slot, allocated⟩, allocation, linked, linking, left⟩ := inserted
  cases left
  obtain ⟨size, free⟩ := sameArena_linkNewest linking
  rw [allocate] at allocation
  split at allocation
  · split at allocation
    · cases allocation
      exact .inl (size.trans Array.size_setIfInBounds)
    · cases allocation
  · rename_i full
    cases allocation
    have grown := size.trans (Array.size_push _)
    exact .inr ⟨grown ▸ Nat.le_succ _, free.trans full⟩

end RecencyCache.Chain
