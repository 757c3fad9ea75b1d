import RecencyCache.Chain
import Mathlib.Data.List.Perm.Subperm

/-!
# Links of a chain

The slots of a chain hang together in one order if every slot knows its neighbours in that order
and the chain knows its two ends. Taking a slot out of the chain and putting one in front of it
change at most the links of three slots, and do to the order what they should. Entries, free slots
and the directory stay.
-/

namespace RecencyCache.Chain

variable {chain changed : Chain} {order before after : List Nat} {slot query : Nat} {node : Node}

/-! ## Slots -/

theorem entry?_eq_some_iff {entry : Entry} :
    chain.entry? slot = some entry ↔ ∃ node, chain.node? slot = some node ∧ node.entry = entry := by
  simp [Chain.entry?]

theorem lt_size_of_node? (occupied : chain.node? slot = some node) : slot < chain.slots.size := by
  by_contra outside
  simp [node?, Array.getElem?_eq_none (Nat.le_of_not_lt outside)] at occupied

/-- Filling or emptying a slot of the arena changes this slot only. -/
theorem node?_setIfInBounds (inBounds : slot < chain.slots.size) (occupant : Option Node) :
    Option.join (chain.slots.setIfInBounds slot occupant)[query]? =
      if query = slot then occupant else chain.node? query := by
  by_cases same : query = slot
  · subst same
    simp [inBounds]
  · rw [Array.getElem?_setIfInBounds_ne (Ne.symm same), if_neg same]
    rfl

/-! ## Relinking -/

/-- Two chains that differ in links only. -/
structure Relinked (chain changed : Chain) : Prop where
  entry?_eq : ∀ slot, changed.entry? slot = chain.entry? slot
  size_eq : changed.slots.size = chain.slots.size
  free_eq : changed.free = chain.free
  directory_eq : changed.directory = chain.directory

theorem Relinked.trans {last : Chain} (first : Relinked chain changed)
    (second : Relinked changed last) : Relinked chain last where
  entry?_eq slot := (second.entry?_eq slot).trans (first.entry?_eq slot)
  size_eq := second.size_eq.trans first.size_eq
  free_eq := second.free_eq.trans first.free_eq
  directory_eq := second.directory_eq.trans first.directory_eq

/-- A change of one occupied slot always succeeds and leaves the others alone. -/
theorem exists_modify (occupied : chain.node? slot = some node) (change : Node → Node) :
    ∃ changed, chain.modify slot change = some changed ∧
      changed.newest = chain.newest ∧ changed.oldest = chain.oldest ∧
      changed.free = chain.free ∧ changed.directory = chain.directory ∧
      changed.slots.size = chain.slots.size ∧
      ∀ query, changed.node? query =
        if query = slot then some (change node) else chain.node? query := by
  refine ⟨{ chain with slots := chain.slots.setIfInBounds slot (some (change node)) }, ?_,
    rfl, rfl, rfl, rfl, Array.size_setIfInBounds, ?_⟩
  · simp [modify, occupied]
  · intro query
    exact node?_setIfInBounds (lt_size_of_node? occupied) _

/-- A change of the links of one occupied slot is a relinking. -/
theorem exists_modify_links (occupied : chain.node? slot = some node) (change : Node → Node)
    (keeps : ∀ node, (change node).entry = node.entry) :
    ∃ changed, chain.modify slot change = some changed ∧ Relinked chain changed ∧
      changed.newest = chain.newest ∧ changed.oldest = chain.oldest ∧
      ∀ query, changed.node? query =
        if query = slot then some (change node) else chain.node? query := by
  obtain ⟨changed, modified, newest, oldest, free, directory, size, nodes⟩ :=
    exists_modify occupied change
  refine ⟨changed, modified, ⟨?_, size, free, directory⟩, newest, oldest, nodes⟩
  intro query
  by_cases same : query = slot
  · subst same
    simp [Chain.entry?, nodes, occupied, keeps]
  · simp [Chain.entry?, nodes, same]

/-- Setting the older neighbour of an entry, or the newest slot. -/
theorem exists_setOlder {target : Option Nat} (older : Option Nat)
    (occupied : ∀ slot ∈ target, ∃ node, chain.node? slot = some node) :
    ∃ changed, chain.setOlder target older = some changed ∧ Relinked chain changed ∧
      changed.newest = (if target = none then older else chain.newest) ∧
      changed.oldest = chain.oldest ∧
      ∀ query, changed.node? query = (chain.node? query).map fun node =>
        { node with older := if target = some query then older else node.older } := by
  cases target with
  | none => exact ⟨{ chain with newest := older }, rfl, ⟨fun _ => rfl, rfl, rfl, rfl⟩, rfl, rfl,
      fun query => by simp [node?]⟩
  | some slot =>
      obtain ⟨node, found⟩ := occupied slot rfl
      obtain ⟨changed, modified, relinked, newest, oldest, nodes⟩ :=
        exists_modify_links found ({ · with older }) (fun _ => rfl)
      refine ⟨changed, modified, relinked, by simp [newest], oldest, ?_⟩
      intro query
      by_cases same : query = slot
      · subst same
        simp [nodes, found]
      · simp [nodes, same, Ne.symm same]

/-- Setting the newer neighbour of an entry, or the oldest slot. -/
theorem exists_setNewer {target : Option Nat} (newer : Option Nat)
    (occupied : ∀ slot ∈ target, ∃ node, chain.node? slot = some node) :
    ∃ changed, chain.setNewer target newer = some changed ∧ Relinked chain changed ∧
      changed.newest = chain.newest ∧
      changed.oldest = (if target = none then newer else chain.oldest) ∧
      ∀ query, changed.node? query = (chain.node? query).map fun node =>
        { node with newer := if target = some query then newer else node.newer } := by
  cases target with
  | none => exact ⟨{ chain with oldest := newer }, rfl, ⟨fun _ => rfl, rfl, rfl, rfl⟩, rfl, rfl,
      fun query => by simp [node?]⟩
  | some slot =>
      obtain ⟨node, found⟩ := occupied slot rfl
      obtain ⟨changed, modified, relinked, newest, oldest, nodes⟩ :=
        exists_modify_links found ({ · with newer }) (fun _ => rfl)
      refine ⟨changed, modified, relinked, newest, by simp [oldest], ?_⟩
      intro query
      by_cases same : query = slot
      · subst same
        simp [nodes, found]
      · simp [nodes, same, Ne.symm same]

/-! ## Linked orders -/

/-- The slots of `order` know their neighbours in it, and the chain knows its ends. -/
structure Linked (chain : Chain) (order : List Nat) : Prop where
  nodup : order.Nodup
  newest_eq : chain.newest = order.head?
  oldest_eq : chain.oldest = order.getLast?
  neighbours : ∀ before slot after, order = before ++ slot :: after →
    ∃ entry, chain.node? slot = some ⟨entry, before.getLast?, after.head?⟩

namespace Linked

/-- Every slot of a linked order is occupied. -/
theorem occupied (linked : Linked chain order) (member : slot ∈ order) :
    ∃ node, chain.node? slot = some node := by
  obtain ⟨before, after, split⟩ := List.append_of_mem member
  obtain ⟨entry, found⟩ := linked.neighbours _ _ _ split
  exact ⟨_, found⟩

theorem lt_size (linked : Linked chain order) (member : slot ∈ order) :
    slot < chain.slots.size := by
  obtain ⟨node, found⟩ := linked.occupied member
  exact lt_size_of_node? found

/-- A linked order has no more slots than the arena. -/
theorem length_le (linked : Linked chain order) : order.length ≤ chain.slots.size := by
  have within : order ⊆ List.range chain.slots.size := by
    intro slot member
    exact List.mem_range.mpr (linked.lt_size member)
  simpa using (linked.nodup.subperm within).length_le

/-- Following the links from a slot to older ones visits the rest of the order, however much fuel is
left over. -/
theorem slotsFrom_eq (linked : Linked chain order) (before : List Nat)
    (split : order = before ++ after) {fuel : Nat} (enough : after.length ≤ fuel) :
    chain.slotsFrom fuel after.head? = after := by
  induction after generalizing before fuel with
  | nil => cases fuel <;> rfl
  | cons slot rest ih =>
      obtain ⟨fuel, rfl⟩ : ∃ less, fuel = less + 1 :=
        Nat.exists_eq_add_one_of_ne_zero (by rintro rfl; simp at enough)
      obtain ⟨entry, found⟩ := linked.neighbours _ _ _ split
      have tail : chain.slotsFrom fuel rest.head? = rest :=
        ih (before ++ [slot]) (by simp [split]) (by simpa using enough)
      simp [slotsFrom, found, tail]

/-- The order in which a chain is linked is the one that is found by following its links. -/
theorem order_eq (linked : Linked chain order) : chain.order = order := by
  rw [Chain.order, linked.newest_eq]
  exact linked.slotsFrom_eq [] rfl linked.length_le

end Linked

/-- The links of an empty chain. -/
theorem linked_empty : Linked {} [] where
  nodup := .nil
  newest_eq := rfl
  oldest_eq := rfl
  neighbours _ _ _ split := by simp at split

/-! ## Taking a slot out -/

/-- Where an element stands in two lists that are appended. -/
private theorem split_of_append_eq {α : Type} {left right front back : List α} {middle : α}
    (split : left ++ right = front ++ middle :: back) :
    (∃ gap, left = front ++ middle :: gap ∧ back = gap ++ right) ∨
      ∃ gap, right = gap ++ middle :: back ∧ front = left ++ gap := by
  rcases List.append_eq_append_iff.mp split with ⟨gap, frontEq, rightEq⟩ | ⟨gap, leftEq, backEq⟩
  · exact .inr ⟨gap, rightEq, frontEq⟩
  · cases gap with
    | nil => exact .inr ⟨[], backEq.symm, by simpa using leftEq.symm⟩
    | cons first gap =>
        obtain ⟨rfl, rfl⟩ := List.cons.inj backEq
        exact .inl ⟨gap, leftEq, rfl⟩

/-- Once `slot` is gone, the older neighbour of an element before it has changed only if it was
`slot`. -/
private theorem head?_append_of_older {gap : List Nat}
    (distinct : (before ++ query :: gap ++ slot :: after).Nodup) :
    (if (before ++ query :: gap).getLast? = some query then after.head?
      else (gap ++ slot :: after).head?) = (gap ++ after).head? := by
  cases gap with
  | nil => simp
  | cons next gap =>
      have lastBefore : (before ++ query :: next :: gap).getLast? ≠ some query := by
        intro last
        have member : query ∈ next :: gap := by
          apply List.mem_of_getLast?
          simpa [List.getLast?_append, List.getLast?_cons_cons] using last
        have fresh := (List.nodup_append.mp distinct).1
        rw [List.nodup_append] at fresh
        exact (List.nodup_cons.mp fresh.2.1).1 member
      rw [if_neg lastBefore]
      rfl

/-- Once `slot` is gone, the newer neighbour of an element after it has changed only if it was
`slot`. -/
private theorem getLast?_append_of_newer {gap : List Nat}
    (distinct : (before ++ slot :: (gap ++ query :: after)).Nodup) :
    (if (gap ++ query :: after).head? = some query then before.getLast?
      else (before ++ slot :: gap).getLast?) = (before ++ gap).getLast? := by
  rcases List.eq_nil_or_concat gap with rfl | ⟨gap, last, rfl⟩
  · simp
  · have firstAfter : (gap.concat last ++ query :: after).head? ≠ some query := by
      intro first
      have member : query ∈ gap.concat last := by
        apply List.mem_of_head?
        simpa using first
      have fresh := (List.nodup_cons.mp (List.nodup_append.mp distinct).2.1).2
      exact (List.nodup_append.mp fresh).2.2 query member query (by simp) rfl
    rw [if_neg firstAfter]
    simp [List.getLast?_cons]

/-- Unlinking joins the neighbours of an occupied slot and clears its own links. -/
theorem exists_unlink {entry : Entry} {newer older : Option Nat}
    (found : chain.node? slot = some ⟨entry, newer, older⟩)
    (newerOccupied : ∀ slot ∈ newer, ∃ node, chain.node? slot = some node)
    (olderOccupied : ∀ slot ∈ older, ∃ node, chain.node? slot = some node) :
    ∃ changed, chain.unlink slot = some changed ∧ Relinked chain changed ∧
      changed.newest = (if newer = none then older else chain.newest) ∧
      changed.oldest = (if older = none then newer else chain.oldest) ∧
      changed.node? slot = some ⟨entry, none, none⟩ ∧
      ∀ query, query ≠ slot → changed.node? query = (chain.node? query).map fun node =>
        ⟨node.entry, if older = some query then newer else node.newer,
          if newer = some query then older else node.older⟩ := by
  obtain ⟨first, firstSet, firstRelinked, firstNewest, firstOldest, firstNodes⟩ :=
    exists_setOlder older newerOccupied
  have olderStays : ∀ slot ∈ older, ∃ node, first.node? slot = some node := by
    intro slot member
    obtain ⟨node, occupied⟩ := olderOccupied slot member
    exact ⟨_, by rw [firstNodes, occupied]; rfl⟩
  obtain ⟨second, secondSet, secondRelinked, secondNewest, secondOldest, secondNodes⟩ :=
    exists_setNewer newer olderStays
  have slotStays : ∃ newer older, second.node? slot = some ⟨entry, newer, older⟩ :=
    ⟨_, _, by simp only [secondNodes, firstNodes, found, Option.map_some]; rfl⟩
  rcases slotStays with ⟨_, _, linksFound⟩
  obtain ⟨third, cleared, thirdRelinked, thirdNewest, thirdOldest, thirdNodes⟩ :=
    exists_modify_links linksFound ({ · with newer := none, older := none }) (fun _ => rfl)
  refine ⟨third, ?_, (firstRelinked.trans secondRelinked).trans thirdRelinked, ?_, ?_, ?_, ?_⟩
  · simp [unlink, found, firstSet, secondSet, cleared]
  · rw [thirdNewest, secondNewest, firstNewest]
  · rw [thirdOldest, secondOldest, firstOldest]
  · simp [thirdNodes]
  · intro query other
    simp [thirdNodes, other, secondNodes, firstNodes, Function.comp_def]

/-- Taking a slot out of a linked order clears its links and leaves the others linked in the same
order. -/
theorem Linked.exists_unlink (linked : Linked chain (before ++ slot :: after)) :
    ∃ changed, chain.unlink slot = some changed ∧ Relinked chain changed ∧
      (∃ entry, changed.node? slot = some { entry }) ∧ Linked changed (before ++ after) := by
  obtain ⟨entry, found⟩ := linked.neighbours before slot after rfl
  have newerOccupied : ∀ slot ∈ before.getLast?, ∃ node, chain.node? slot = some node := by
    intro neighbour member
    exact linked.occupied (List.mem_append_left _ (List.mem_of_getLast? member))
  have olderOccupied : ∀ slot ∈ after.head?, ∃ node, chain.node? slot = some node := by
    intro neighbour member
    exact linked.occupied
      (List.mem_append_right _ (List.mem_cons_of_mem _ (List.mem_of_head? member)))
  obtain ⟨changed, unlinked, relinked, newest, oldest, cleared, nodes⟩ :=
    Chain.exists_unlink found newerOccupied olderOccupied
  refine ⟨changed, unlinked, relinked, ⟨entry, cleared⟩, ?_⟩
  have distinct := linked.nodup
  have others : ∀ query ∈ before ++ after, query ≠ slot := by
    intro query member same
    subst same
    simp [List.nodup_append] at distinct
    grind
  constructor
  · exact distinct.sublist (by simp)
  · rw [newest, linked.newest_eq]
    cases before <;> simp
  · rw [oldest, linked.oldest_eq]
    cases after <;> simp
  · -- The order splits at `query` on one side of `slot` or on the other.
    intro front query back split
    have different : query ≠ slot := others query (by simp [split])
    rcases split_of_append_eq split with ⟨gap, rfl, rfl⟩ | ⟨gap, rfl, rfl⟩
    · have notAfter : after.head? ≠ some query := by
        intro next
        exact (List.nodup_append.mp distinct).2.2 query (by simp) query
          (List.mem_cons_of_mem _ (List.mem_of_head? next)) rfl
      obtain ⟨other, otherFound⟩ :=
        linked.neighbours front query (gap ++ slot :: after) (by simp)
      refine ⟨other, ?_⟩
      rw [nodes query different, otherFound, Option.map_some, if_neg notAfter,
        head?_append_of_older distinct]
    · have notBefore : before.getLast? ≠ some query := by
        intro previous
        exact (List.nodup_append.mp distinct).2.2 query (List.mem_of_getLast? previous) query
          (by simp) rfl
      obtain ⟨other, otherFound⟩ :=
        linked.neighbours (before ++ slot :: gap) query back (by simp)
      refine ⟨other, ?_⟩
      rw [nodes query different, otherFound, Option.map_some, if_neg notBefore,
        getLast?_append_of_newer distinct]

/-! ## Putting a slot in front -/

/-- Linking an occupied slot in front makes it the newest, before what was the newest until then. -/
theorem exists_linkNewest {entry : Entry} (found : chain.entry? slot = some entry)
    (newestOccupied : ∀ slot ∈ chain.newest, ∃ node, chain.node? slot = some node) :
    ∃ changed, chain.linkNewest slot = some changed ∧ Relinked chain changed ∧
      changed.newest = some slot ∧
      changed.oldest = (if chain.newest = none then some slot else chain.oldest) ∧
      ∀ query, changed.node? query =
        (if query = slot then some ⟨entry, none, chain.newest⟩ else chain.node? query).map
          fun node => { node with newer := if chain.newest = some query then some slot
                                            else node.newer } := by
  obtain ⟨node, occupied, rfl⟩ := entry?_eq_some_iff.mp found
  obtain ⟨first, modified, firstRelinked, firstNewest, firstOldest, firstNodes⟩ :=
    exists_modify_links occupied ({ · with newer := none, older := chain.newest })
      (fun _ => rfl)
  have newestStays : ∀ slot ∈ chain.newest, ∃ node, first.node? slot = some node := by
    intro neighbour member
    obtain ⟨other, otherOccupied⟩ := newestOccupied neighbour member
    rw [firstNodes, otherOccupied]
    split <;> exact ⟨_, rfl⟩
  obtain ⟨second, set, secondRelinked, -, secondOldest, secondNodes⟩ :=
    exists_setNewer (some slot) newestStays
  refine ⟨{ second with newest := some slot }, ?_, ?_, rfl, ?_, ?_⟩
  · simp [linkNewest, modified, set]
  · exact firstRelinked.trans ⟨secondRelinked.entry?_eq, secondRelinked.size_eq,
      secondRelinked.free_eq, secondRelinked.directory_eq⟩
  · rw [← firstOldest]
    exact secondOldest
  · intro query
    rw [← firstNodes]
    exact secondNodes query

/-- Putting an occupied slot that is not linked in front of a linked order. -/
theorem Linked.exists_linkNewest (linked : Linked chain order) {entry : Entry}
    (found : chain.entry? slot = some entry) (fresh : slot ∉ order) :
    ∃ changed, chain.linkNewest slot = some changed ∧ Relinked chain changed ∧
      Linked changed (slot :: order) := by
  have newestOccupied : ∀ slot ∈ chain.newest, ∃ node, chain.node? slot = some node := by
    intro neighbour member
    rw [linked.newest_eq] at member
    exact linked.occupied (List.mem_of_head? member)
  obtain ⟨changed, put, relinked, newest, oldest, nodes⟩ :=
    Chain.exists_linkNewest found newestOccupied
  refine ⟨changed, put, relinked, ?_⟩
  constructor
  · exact List.nodup_cons.mpr ⟨fresh, linked.nodup⟩
  · simp [newest]
  · rw [oldest, linked.newest_eq, linked.oldest_eq]
    cases order <;> simp [List.getLast?_cons]
  · intro front query back split
    cases front with
    | nil =>
        obtain ⟨rfl, rfl⟩ := List.cons.inj split
        have notNewest : chain.newest ≠ some slot := by
          rw [linked.newest_eq]
          exact fun first => fresh (List.mem_of_head? first)
        refine ⟨entry, ?_⟩
        rw [nodes, if_pos rfl, Option.map_some, if_neg notNewest, linked.newest_eq]
        rfl
    | cons first front =>
        obtain ⟨rfl, rfl⟩ := List.cons.inj split
        have different : query ≠ slot := by
          intro same
          subst same
          simp at fresh
        obtain ⟨other, otherFound⟩ := linked.neighbours front query back rfl
        refine ⟨other, ?_⟩
        rw [nodes, if_neg different, otherFound, linked.newest_eq]
        cases front with
        | nil => simp
        | cons next front =>
            have notFirst : next ≠ query := by
              intro same
              subst same
              simpa using linked.nodup
            simp [notFirst, List.getLast?_cons_cons]

end RecencyCache.Chain
