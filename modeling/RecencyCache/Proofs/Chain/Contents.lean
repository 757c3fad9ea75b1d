import RecencyCache.Proofs.Chain.Representation

/-!
# Contents of a chain

A sound chain is seen through its entries from the newest to the oldest. No key occurs twice among
them, each operation does to this list what its name says, and the two other ways to read a chain,
by key and in the order of the keys, show the same entries.
-/

namespace RecencyCache.Chain

variable {chain changed : Chain} {order : List Nat} {slot : Nat}
variable {entry : Entry} {newer older : List Entry} {key : Key}

/-- The order found by following the links is the one that the chain represents. -/
def Sound (chain : Chain) : Prop := chain.Represents chain.order

theorem Represents.sound (represents : chain.Represents order) : chain.Sound := by
  rw [Sound, represents.order_eq]
  exact represents

theorem Represents.toList_eq (represents : chain.Represents order) :
    chain.toList = order.filterMap chain.entry? := by
  rw [toList, represents.order_eq]

theorem sound_empty : Sound {} := represents_empty.sound

@[simp] theorem toList_empty : toList {} = [] := rfl

/-- An entry in the list stands in a slot that divides the order in the same way. -/
theorem exists_slot_of_toList (split : chain.toList = newer ++ entry :: older) :
    ∃ before slot after, chain.order = before ++ slot :: after ∧ chain.entry? slot = some entry ∧
      before.filterMap chain.entry? = newer ∧ after.filterMap chain.entry? = older := by
  obtain ⟨front, back, orderEq, newerEq, backEq⟩ := List.filterMap_eq_append_iff.mp split
  obtain ⟨gap, slot, after, rfl, gapEmpty, found, olderEq⟩ := List.filterMap_eq_cons_iff.mp backEq
  refine ⟨front ++ gap, slot, after, by simp [orderEq], found, ?_, olderEq⟩
  rw [List.filterMap_append, newerEq, List.filterMap_eq_nil_iff.mpr gapEmpty, List.append_nil]

namespace Sound

/-! ## Reading -/

theorem mem_toList_iff (sound : chain.Sound) :
    entry ∈ chain.toList ↔ ∃ slot, chain.entry? slot = some entry := by
  rw [toList, List.mem_filterMap]
  constructor
  · intro listed
    rcases listed with ⟨slot, -, found⟩
    exact ⟨slot, found⟩
  · intro occupied
    rcases occupied with ⟨slot, found⟩
    exact ⟨slot, sound.mem_of_entry? found, found⟩

/-- No key is stored twice. -/
theorem nodup_keys (sound : chain.Sound) : (chain.toList.map (·.key)).Nodup := by
  rw [toList, List.map_filterMap]
  apply sound.linked.nodup.filterMap
  intro slot other key foundKey otherKey
  obtain ⟨entry, found, rfl⟩ := Option.map_eq_some_iff.mp foundKey
  obtain ⟨otherEntry, otherFound, sameKey⟩ := Option.map_eq_some_iff.mp otherKey
  exact sound.slot_unique found otherFound sameKey.symm

/-- The directory leads to the entry of a key. -/
theorem find?_eq_some_iff (sound : chain.Sound) :
    chain.find? key = some entry ↔ entry ∈ chain.toList ∧ entry.key = key := by
  rw [Chain.find?, Option.bind_eq_some_iff, sound.mem_toList_iff]
  constructor
  · intro stored
    rcases stored with ⟨slot, stored, found⟩
    obtain ⟨other, otherFound, sameKey⟩ := sound.slotOf?_eq_some_iff.mp stored
    cases found.symm.trans otherFound
    exact ⟨⟨slot, found⟩, sameKey⟩
  · intro member
    rcases member with ⟨⟨slot, found⟩, rfl⟩
    exact ⟨slot, sound.slotOf?_key found, found⟩

theorem slotOf?_eq_none_iff (sound : chain.Sound) :
    chain.slotOf? key = none ↔ ∀ entry ∈ chain.toList, entry.key ≠ key := by
  rw [Option.eq_none_iff_forall_ne_some]
  constructor
  · intro absent entry member same
    subst same
    obtain ⟨slot, found⟩ := sound.mem_toList_iff.mp member
    exact absent slot (sound.slotOf?_key found)
  · intro absent slot stored
    obtain ⟨entry, found, sameKey⟩ := sound.slotOf?_eq_some_iff.mp stored
    exact absent entry (sound.mem_toList_iff.mpr ⟨slot, found⟩) sameKey

/-! ## The directory as a list -/

theorem values_directory (chain : Chain) :
    chain.directory.values = chain.directory.toList.map (·.2) := by
  have fold : chain.directory.values =
      chain.directory.foldr (fun _ slot slots => slot :: slots) [] := rfl
  rw [fold, Std.TreeMap.foldr_eq_foldr_toList]
  induction chain.directory.toList with
  | nil => rfl
  | cons pair rest ih => simp [ih]

theorem mem_directory_iff (sound : chain.Sound) :
    (key, slot) ∈ chain.directory.toList ↔
      ∃ entry, chain.entry? slot = some entry ∧ entry.key = key :=
  Std.TreeMap.mem_toList_iff_getElem?_eq_some.trans sound.slotOf?_eq_some_iff

/-- The directory holds the slots of the order, arranged by key. -/
theorem values_perm_order (sound : chain.Sound) : chain.directory.values.Perm chain.order := by
  have pairsDistinct : chain.directory.toList.Nodup :=
    Std.TreeMap.ordered_keys_toList.imp fun ordered same => by simp [same] at ordered
  have distinct : chain.directory.values.Nodup := by
    rw [values_directory]
    apply pairsDistinct.map_on
    rintro ⟨key, slot⟩ member ⟨otherKey, other⟩ otherMember (rfl : slot = other)
    obtain ⟨entry, found, rfl⟩ := sound.mem_directory_iff.mp member
    obtain ⟨otherEntry, otherFound, rfl⟩ := sound.mem_directory_iff.mp otherMember
    cases found.symm.trans otherFound
    rfl
  apply (List.perm_ext_iff_of_nodup distinct sound.linked.nodup).mpr
  intro slot
  rw [values_directory, List.mem_map]
  constructor
  · intro member
    rcases member with ⟨⟨key, slot⟩, member, rfl⟩
    obtain ⟨entry, found, -⟩ := sound.mem_directory_iff.mp member
    exact sound.mem_of_entry? found
  · intro member
    obtain ⟨entry, found⟩ := sound.exists_entry member
    exact ⟨(entry.key, slot), sound.mem_directory_iff.mpr ⟨entry, found, rfl⟩, rfl⟩

/-- The size of a chain is the length of its list. -/
theorem size_eq (sound : chain.Sound) : chain.size = chain.toList.length := by
  have occupied : ∀ slot ∈ chain.order, (chain.entry? slot).isSome := by
    intro slot member
    obtain ⟨entry, found⟩ := sound.exists_entry member
    simp [found]
  calc chain.size = chain.directory.values.length := by
        rw [values_directory, List.length_map, Std.TreeMap.length_toList, size]
    _ = chain.order.length := sound.values_perm_order.length_eq
    _ = chain.toList.length := (List.filterMap_length_eq_length.mpr occupied).symm

/-- The entries in the order of their keys are the list, sorted by key. -/
theorem entriesByKey_eq (sound : chain.Sound) :
    chain.entriesByKey =
      chain.toList.mergeSort fun left right => (compare left.key right.key).isLE := by
  have sameEntries : chain.entriesByKey.Perm chain.toList := by
    have byValues : chain.entriesByKey = chain.directory.values.filterMap chain.entry? := by
      rw [values_directory, List.filterMap_map]
      rfl
    rw [byValues]
    exact sound.values_perm_order.filterMap _
  have sorted : chain.entriesByKey.Pairwise fun left right =>
      (compare left.key right.key).isLE := by
    apply List.pairwise_filterMap.mpr
    apply Std.TreeMap.ordered_keys_toList.imp_of_mem
    rintro ⟨key, slot⟩ ⟨otherKey, other⟩ member otherMember ordered entry found
    intro otherEntry otherFound
    obtain ⟨_, foundAgain, rfl⟩ := sound.mem_directory_iff.mp member
    obtain ⟨_, otherFoundAgain, rfl⟩ := sound.mem_directory_iff.mp otherMember
    cases found.symm.trans foundAgain
    cases otherFound.symm.trans otherFoundAgain
    exact Ordering.isLE_of_eq_lt ordered
  refine List.Perm.eq_of_pairwise ?_ sorted (List.pairwise_mergeSort ?_ ?_ _)
    (sameEntries.trans (List.mergeSort_perm _ _).symm)
  · intro left right member otherMember le ge
    have sameKey := Std.LawfulEqCmp.compare_eq_iff_eq.mp (Std.OrientedCmp.isLE_antisymm le ge)
    exact List.inj_on_of_nodup_map sound.nodup_keys (sameEntries.mem_iff.mp member)
      ((List.mem_mergeSort).mp otherMember) sameKey
  · intro left middle right
    exact Std.TransCmp.isLE_trans
  · intro left right
    have swapped : compare right.key left.key = (compare left.key right.key).swap :=
      Std.OrientedCmp.eq_swap
    rw [swapped]
    cases compare left.key right.key <;> rfl

/-- The occupants of the arena are the entries of the list, arranged by slot. -/
theorem occupants_perm_toList (sound : chain.Sound) : chain.occupants.Perm chain.toList := by
  have bySlot : chain.occupants = (List.range chain.slots.size).filterMap chain.entry? := by
    have entries : chain.slots.toList.map (·.map (·.entry)) =
        (List.range chain.slots.size).map chain.entry? := by
      apply List.ext_getElem (by simp)
      intro slot inBounds _
      have within : slot < chain.slots.size := by simpa using inBounds
      simp [Chain.entry?, node?, within]
    calc chain.occupants = (chain.slots.toList.map (·.map (·.entry))).filterMap id := by
          rw [List.filterMap_map]
          rfl
      _ = (List.range chain.slots.size).filterMap chain.entry? := by
          rw [entries, List.filterMap_map]
          rfl
  have onlyOccupied : (List.range chain.slots.size).filterMap chain.entry? =
      ((List.range chain.slots.size).filter fun slot =>
        (chain.entry? slot).isSome).filterMap chain.entry? := by
    rw [List.filterMap_filter]
    apply List.filterMap_congr
    intro slot _
    cases chain.entry? slot <;> rfl
  have sameSlots : ((List.range chain.slots.size).filter fun slot =>
      (chain.entry? slot).isSome).Perm chain.order := by
    apply (List.perm_ext_iff_of_nodup (List.nodup_range.filter _) sound.linked.nodup).mpr
    intro slot
    rw [List.mem_filter, List.mem_range, Option.isSome_iff_exists]
    constructor
    · intro occupied
      rcases occupied with ⟨-, entry, found⟩
      exact sound.mem_of_entry? found
    · intro member
      exact ⟨sound.linked.lt_size member, sound.exists_entry member⟩
  rw [bySlot, onlyOccupied]
  exact sameSlots.filterMap _

/-! ## Operations -/

/-- The entry of a key, if there is one, is taken out of the list. -/
theorem exists_removeAt (sound : chain.Sound) (split : chain.toList = newer ++ entry :: older) :
    ∃ slot changed, chain.slotOf? entry.key = some slot ∧ chain.entry? slot = some entry ∧
      chain.removeAt slot = some (entry, changed) ∧ changed.Sound ∧
      changed.toList = newer ++ older := by
  obtain ⟨before, slot, after, orderEq, found, rfl, rfl⟩ := exists_slot_of_toList split
  have represents : chain.Represents (before ++ slot :: after) := orderEq ▸ sound
  obtain ⟨changed, removed, represented, entries⟩ := represents.exists_removeAt found
  refine ⟨slot, changed, represents.slotOf?_key found, found, removed, represented.sound, ?_⟩
  have distinct := List.nodup_cons.mp (List.nodup_middle.mp represents.linked.nodup)
  rw [represented.toList_eq, ← List.filterMap_append]
  apply List.filterMap_congr
  intro query member
  have different : query ≠ slot := ne_of_mem_of_not_mem member distinct.1
  rw [entries, if_neg different]

theorem exists_remove (sound : chain.Sound) (split : chain.toList = newer ++ entry :: older) :
    ∃ changed, chain.remove entry.key = some (some entry, changed) ∧ changed.Sound ∧
      changed.toList = newer ++ older := by
  obtain ⟨slot, changed, stored, -, removed, changedSound, list⟩ := sound.exists_removeAt split
  exact ⟨changed, by simp [remove, stored, removed], changedSound, list⟩

theorem remove_absent (sound : chain.Sound) (absent : ∀ entry ∈ chain.toList, entry.key ≠ key) :
    chain.remove key = some (none, chain) := by
  simp [remove, sound.slotOf?_eq_none_iff.mpr absent]

/-- An entry of an absent key is put in front of the list. -/
theorem exists_insert (sound : chain.Sound)
    (absent : ∀ other ∈ chain.toList, other.key ≠ entry.key) :
    ∃ slot changed, chain.insert entry = some (slot, changed) ∧ changed.Sound ∧
      changed.toList = entry :: chain.toList := by
  obtain ⟨slot, changed, inserted, unoccupied, represented, entries⟩ :=
    Represents.exists_insert sound (sound.slotOf?_eq_none_iff.mpr absent)
  refine ⟨slot, changed, inserted, represented.sound, ?_⟩
  have first : changed.entry? slot = some entry := by simp [entries]
  rw [represented.toList_eq, List.filterMap_cons_some first, toList]
  congr 1
  apply List.filterMap_congr
  intro query member
  have different : query ≠ slot := by
    intro same
    subst same
    obtain ⟨other, found⟩ := sound.exists_entry member
    simp [unoccupied] at found
  rw [entries, if_neg different]

/-- An entry that is moved to the front and changed there, but for its key, comes before the
others. -/
theorem exists_moveToFront_updateEntry (sound : chain.Sound)
    (split : chain.toList = newer ++ entry :: older) (change : Entry → Entry)
    (sameKey : (change entry).key = entry.key) :
    ∃ slot moved changed, chain.slotOf? entry.key = some slot ∧ chain.entry? slot = some entry ∧
      chain.moveToFront slot = some moved ∧ moved.updateEntry slot change = some changed ∧
      changed.Sound ∧ changed.toList = change entry :: (newer ++ older) := by
  obtain ⟨before, slot, after, orderEq, found, rfl, rfl⟩ := exists_slot_of_toList split
  have represents : chain.Represents (before ++ slot :: after) := orderEq ▸ sound
  obtain ⟨moved, moving, movedRepresents, movedEntries⟩ := represents.exists_moveToFront
  obtain ⟨changed, updated, represented, entries⟩ :=
    movedRepresents.exists_updateEntry ((movedEntries slot).trans found) change sameKey
  refine ⟨slot, moved, changed, represents.slotOf?_key found, found, moving, updated,
    represented.sound, ?_⟩
  have distinct := List.nodup_cons.mp (List.nodup_middle.mp represents.linked.nodup)
  have first : changed.entry? slot = some (change entry) := by simp [entries]
  rw [represented.toList_eq, List.filterMap_cons_some first, ← List.filterMap_append]
  congr 1
  apply List.filterMap_congr
  intro query member
  have different : query ≠ slot := ne_of_mem_of_not_mem member distinct.1
  rw [entries, if_neg different, movedEntries]

theorem oldest_eq_none (sound : chain.Sound) (empty : chain.toList = []) :
    chain.oldest = none := by
  have orderEmpty : chain.order = [] := by
    apply List.eq_nil_iff_forall_not_mem.mpr
    intro slot member
    obtain ⟨entry, found⟩ := sound.exists_entry member
    have listed := sound.mem_toList_iff.mpr ⟨slot, found⟩
    simp [empty] at listed
  rw [sound.linked.oldest_eq, orderEmpty, List.getLast?_nil]

theorem exists_oldest (sound : chain.Sound) (split : chain.toList = newer ++ [entry]) :
    ∃ slot, chain.oldest = some slot ∧ chain.entry? slot = some entry := by
  obtain ⟨before, slot, after, orderEq, found, -, afterEmpty⟩ := exists_slot_of_toList split
  obtain rfl : after = [] := by
    apply List.eq_nil_iff_forall_not_mem.mpr
    intro other member
    obtain ⟨otherEntry, otherFound⟩ := sound.exists_entry (show other ∈ chain.order by
      simp [orderEq, member])
    have missing := List.filterMap_eq_nil_iff.mp afterEmpty other member
    simp [otherFound] at missing
  exact ⟨slot, by simp [sound.linked.oldest_eq, orderEq], found⟩

/-- The oldest entries leave one by one from the end of the list. -/
theorem exists_popOldest (sound : chain.Sound) (count : Nat) :
    ∃ evicted changed, chain.popOldest count = some (evicted, changed) ∧ changed.Sound ∧
      changed.toList = chain.toList.take (chain.toList.length - count) ∧
      evicted = (chain.toList.drop (chain.toList.length - count)).reverse := by
  induction count generalizing chain with
  | zero => exact ⟨[], chain, rfl, sound, by simp, by simp⟩
  | succ count ih =>
      rcases List.eq_nil_or_concat chain.toList with empty | ⟨newer, entry, split⟩
      · refine ⟨[], chain, ?_, sound, by simp [empty], by simp [empty]⟩
        simp [popOldest, sound.oldest_eq_none empty]
      · rw [List.concat_eq_append] at split
        obtain ⟨oldest, last, lastFound⟩ := sound.exists_oldest split
        obtain ⟨slot, shorter, -, found, removed, shorterSound, shorterList⟩ :=
          sound.exists_removeAt split
        obtain rfl := sound.slot_unique lastFound found rfl
        obtain ⟨evicted, changed, popped, changedSound, changedList, evictedEq⟩ := ih shorterSound
        rw [List.append_nil] at shorterList
        have fewer : (newer ++ [entry]).length - (count + 1) = newer.length - count := by
          simp
        refine ⟨entry :: evicted, changed, ?_, changedSound, ?_, ?_⟩
        · simp [popOldest, last, removed, popped]
        · rw [changedList, shorterList, split, fewer, List.take_append_of_le_length (by omega)]
        · rw [evictedEq, shorterList, split, fewer, List.drop_append_of_le_length (by omega),
            List.reverse_append]
          rfl

end Sound

/-- Slots leave the order together, in whatever order they are taken out one by one. -/
theorem Represents.exists_removeSlots (represents : chain.Represents order) {slots : List Nat}
    (distinct : slots.Nodup) (subset : slots ⊆ order) :
    ∃ changed, chain.removeSlots slots = some (slots.filterMap chain.entry?, changed) ∧
      changed.Represents (order.filter (· ∉ slots)) ∧
      ∀ query, changed.entry? query = if query ∈ slots then none else chain.entry? query := by
  induction slots generalizing chain order with
  | nil => exact ⟨chain, rfl, by simpa using represents, by simp⟩
  | cons slot slots ih =>
      obtain ⟨fresh, restDistinct⟩ := List.nodup_cons.mp distinct
      obtain ⟨before, after, rfl⟩ := List.append_of_mem (subset (List.mem_cons_self))
      obtain ⟨entry, found⟩ := represents.exists_entry (show slot ∈ before ++ slot :: after by simp)
      obtain ⟨shorter, removed, shorterRepresents, shorterEntries⟩ :=
        represents.exists_removeAt found
      have others : ∀ query ∈ slots, query ≠ slot :=
        fun query member => ne_of_mem_of_not_mem member fresh
      have restSubset : slots ⊆ before ++ after := by
        intro query member
        simpa [others query member] using subset (List.mem_cons_of_mem _ member)
      obtain ⟨changed, removedRest, represented, entries⟩ :=
        ih shorterRepresents restDistinct restSubset
      have rest : slots.filterMap shorter.entry? = slots.filterMap chain.entry? := by
        apply List.filterMap_congr
        intro query member
        rw [shorterEntries, if_neg (others query member)]
      have order : (before ++ slot :: after).filter (· ∉ slot :: slots) =
          (before ++ after).filter (· ∉ slots) := by
        have absent := (List.nodup_cons.mp (List.nodup_middle.mp represents.linked.nodup)).1
        have same : ∀ query ∈ before ++ after,
            decide (query ∉ slot :: slots) = decide (query ∉ slots) := by
          intro query member
          have different : query ≠ slot := ne_of_mem_of_not_mem member absent
          simp [different]
        rw [← List.filter_congr same]
        simp
      refine ⟨changed, ?_, order ▸ represented, ?_⟩
      · simp [removeSlots, removed, removedRest, found, rest]
      · intro query
        rw [entries, shorterEntries]
        by_cases same : query = slot
        · simp [same]
        · simp [same]

theorem Sound.mem_slotsWhere_iff (sound : chain.Sound) {condition : Entry → Bool} :
    slot ∈ chain.slotsWhere condition ↔
      ∃ entry, chain.entry? slot = some entry ∧ condition entry := by
  rw [slotsWhere, List.mem_filter, sound.values_perm_order.mem_iff, Option.any_eq_true]
  constructor
  · intro holds
    rcases holds with ⟨-, entry, found, holds⟩
    exact ⟨entry, found, holds⟩
  · intro holds
    rcases holds with ⟨entry, found, holds⟩
    exact ⟨sound.mem_of_entry? found, entry, found, holds⟩

/-- The slots of the entries that meet a condition hold the entries of the list that meet it. -/
theorem Sound.slotsWhere_perm (sound : chain.Sound) (condition : Entry → Bool) :
    ((chain.slotsWhere condition).filterMap chain.entry?).Perm (chain.toList.filter condition) := by
  have ordered : (chain.order.filter fun slot => (chain.entry? slot).any condition).filterMap
      chain.entry? = chain.toList.filter condition := by
    rw [toList, List.filter_filterMap, List.filterMap_filter]
    apply List.filterMap_congr
    intro slot _
    cases chain.entry? slot <;> simp [Option.filter]
  rw [← ordered]
  exact (sound.values_perm_order.filter _).filterMap _

/-- In whatever order their slots are taken, the entries that meet a condition leave together, and the
others keep their order. -/
theorem Sound.exists_removeSlots (sound : chain.Sound) {condition : Entry → Bool}
    {slots : List Nat} (perm : slots.Perm (chain.slotsWhere condition)) :
    ∃ removed changed, chain.removeSlots slots = some (removed, changed) ∧ changed.Sound ∧
      removed.Perm (chain.toList.filter condition) ∧
      changed.toList = chain.toList.filter (!condition ·) := by
  have distinct : slots.Nodup :=
    perm.nodup_iff.mpr ((sound.values_perm_order.nodup_iff.mpr sound.linked.nodup).filter _)
  have subset : slots ⊆ chain.order := by
    intro slot member
    obtain ⟨entry, found, -⟩ := sound.mem_slotsWhere_iff.mp (perm.mem_iff.mp member)
    exact sound.mem_of_entry? found
  obtain ⟨changed, removed, represented, entries⟩ :=
    Represents.exists_removeSlots sound distinct subset
  refine ⟨_, changed, removed, represented.sound, ?_, ?_⟩
  · exact (perm.filterMap _).trans (sound.slotsWhere_perm condition)
  · rw [represented.toList_eq, toList, List.filter_filterMap, List.filterMap_filter]
    apply List.filterMap_congr
    intro slot member
    obtain ⟨entry, found⟩ := sound.exists_entry member
    have doomed : slot ∈ slots ↔ condition entry = true := by
      simp [perm.mem_iff, sound.mem_slotsWhere_iff, found]
    rw [entries, found]
    by_cases holds : condition entry = true <;> simp [doomed, holds, Option.filter]

end RecencyCache.Chain
