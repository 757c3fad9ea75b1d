import RecencyCache.Proofs.Overwriting
import RecencyCache.Proofs.Views

/-!
# The next entry to be evicted

A full cache makes room for a new key by evicting the entry at the end of its chain, dead or alive.
The least recent key that it reports is that of a live entry, behind which only dead ones stand. So
the entry of this key is evicted if there are none, and otherwise one of the dead ones is, which no
live key misses.
-/

namespace RecencyCache

/-! ## Entries -/

/-- The last of the live entries stands before nothing but dead ones. -/
theorem Entry.exists_split_of_last_live {entries : List Entry} {now : Nat} {last : Entry}
    (least : (entries.filter (·.live now)).getLast? = some last) :
    last.live now = true ∧ ∃ newer dead, entries = newer ++ last :: dead ∧
      ∀ other ∈ dead, other.live now = false := by
  obtain ⟨front, split⟩ := List.getLast?_eq_some_iff.mp least
  obtain ⟨newer, rest, rfl, -, restLive⟩ := List.filter_eq_append_iff.mp split
  obtain ⟨gap, dead, rfl, -, live, noneLive⟩ := List.filter_eq_cons_iff.mp restLive
  refine ⟨live, newer ++ gap, dead, by simp, ?_⟩
  intro other member
  exact Bool.eq_false_iff.mpr (List.filter_eq_nil_iff.mp noneLive other member)

namespace PlainStore

/-- A new entry is alive. -/
theorem live_of_newcomer? {key : Key} {value : Value} {options : EntryOptions} {moment : Moment}
    {entry : Entry} (new : newcomer? key value options moment = some entry) :
    entry.live moment.now = true := by
  obtain ⟨timeOfDay, -, rfl⟩ := Option.map_eq_some_iff.mp new
  rw [Entry.live, Entry.outlived_create (Nat.le_refl _)]
  rfl

/-- Without the last entry, the last live key is missing if nothing stood behind its entry, and none
is missing if only dead entries did. -/
theorem liveKeys_dropLast {store : PlainStore} (distinct : (store.entries.map (·.key)).Nodup)
    {now : Nat} {newer dead : List Entry} {entry : Entry}
    (stored : store.entries = newer ++ entry :: dead) (live : entry.live now = true)
    (allDead : ∀ other ∈ dead, other.live now = false) :
    (store.entries.dropLast.filter (·.live now)).map (·.key) =
      if dead = [] then (store.liveKeys now).erase entry.key else store.liveKeys now := by
  have alone (others : List Entry) (othersDead : ∀ other ∈ others, other.live now = false) :
      (entry :: others).filter (·.live now) = [entry] := by
    have none : others.filter (·.live now) = [] :=
      List.filter_eq_nil_iff.mpr fun other member => by simp [othersDead other member]
    simp [live, none]
  have keys : store.liveKeys now = (newer.filter (·.live now)).map (·.key) ++ [entry.key] := by
    rw [liveKeys, stored, List.filter_append, alone dead allDead, List.map_append]
    rfl
  rcases List.eq_nil_or_concat dead with rfl | ⟨others, last, rfl⟩
  · have fresh : entry.key ∉ (newer.filter (·.live now)).map (·.key) := by
      have once := nodup_liveKeys distinct now
      rw [keys] at once
      exact fun member => (List.nodup_append.mp once).2.2 _ member _ (by simp) rfl
    rw [if_pos rfl, keys, stored, List.dropLast_concat, List.erase_append_right _ fresh]
    simp
  · have shorter : store.entries.dropLast = newer ++ entry :: others := by
      rw [stored, List.concat_eq_append, ← List.cons_append, ← List.append_assoc,
        List.dropLast_concat]
    have othersDead : ∀ other ∈ others, other.live now = false :=
      fun other member => allDead other (by simp [member])
    rw [if_neg (by simp), keys, shorter, List.filter_append, alone others othersDead,
      List.map_append]
    rfl

end PlainStore

/-! ## Engines -/

/-- How a full engine makes room: `left` is what an insertion of `new` leaves of it, where
`reported` was the least recent key. -/
structure Engine.EvictsLast (engine left : Engine) (new : Option Entry) (reported : Key)
    (newer : List Entry) (entry : Entry) (dead : List Entry) : Prop where
  /-- The entry of the reported key stands before nothing but dead ones. -/
  stored : engine.store.chain.toList = newer ++ entry :: dead
  key_eq : entry.key = reported
  live : entry.live engine.now = true
  all_dead : ∀ other ∈ dead, other.live engine.now = false
  /-- The last entry goes and is counted, and nothing else does. -/
  evicted : left.plain =
    { engine.plain with store := { engine.plain.store with
      entries := new.toList ++ engine.store.chain.toList.dropLast
      counters := engine.store.counters.evicted 1 } }
  /-- The reported key disappears if no dead entry stands behind its own, and no key disappears
  otherwise. -/
  keys : left.store.keysByRecency left.now = new.toList.map (·.key) ++
    if dead = [] then (engine.store.keysByRecency engine.now).erase reported
    else engine.store.keysByRecency engine.now

namespace Engine

variable {engine : Engine}

/-- The entry of the least recent key stands before nothing but dead ones. -/
theorem exists_split_of_leastRecent {reported : Key}
    (least : Query.ask .leastRecent engine = .optionalText (some reported)) :
    ∃ newer entry dead, engine.store.chain.toList = newer ++ entry :: dead ∧
      entry.key = reported ∧ entry.live engine.now = true ∧
      ∀ other ∈ dead, other.live engine.now = false := by
  have last : engine.store.leastRecentKey? engine.now = some reported :=
    Finding.optionalText.inj least
  obtain ⟨entry, isLast, key⟩ := Option.map_eq_some_iff.mp last
  obtain ⟨live, newer, dead, split, allDead⟩ := Entry.exists_split_of_last_live isLast
  exact ⟨newer, entry, dead, split, key, live, allDead⟩

/-- A sound engine that is full evicts the last entry. -/
theorem Sound.exists_evictsLast (sound : engine.Sound)
    (full : engine.store.size = engine.store.capacity) {reported key : Key}
    (least : Query.ask .leastRecent engine = .optionalText (some reported))
    (absent : ∀ entry ∈ engine.store.chain.toList, entry.key ≠ key) (value : Value)
    (options : EntryOptions) :
    ∃ newer entry dead, engine.EvictsLast (Call.run (.put key value options) engine).2
      (PlainStore.newcomer? key value options engine.moment) reported newer entry dead := by
  obtain ⟨newer, entry, dead, stored, rfl, live, allDead⟩ := exists_split_of_leastRecent least
  have room : 0 < engine.store.capacity := by
    rw [← full, Store.size, Chain.Sound.size_eq sound.represents, stored, List.length_append]
    exact Nat.add_pos_right _ (Nat.succ_pos _)
  have evicted := (sound.overwritesUnder key value options).absent room absent
  simp only [full, if_true] at evicted
  refine ⟨newer, entry, dead, stored, rfl, live, allDead, evicted, ?_⟩
  let new := (PlainStore.newcomer? key value options engine.moment).toList
  have newLive : new.filter (·.live engine.now) = new := by
    rw [List.filter_eq_self]
    intro entry member
    exact PlainStore.live_of_newcomer? (Option.mem_toList.mp member)
  have kept := PlainStore.liveKeys_dropLast (nodup_keys_plain sound.represents) stored live allDead
  calc (Call.run (.put key value options) engine).2.store.keysByRecency _
    _ = ((new ++ engine.store.chain.toList.dropLast).filter (·.live engine.now)).map (·.key) :=
        congrArg (fun left => left.store.liveKeys left.now) evicted
    _ = new.map (·.key) ++
          (engine.store.chain.toList.dropLast.filter (·.live engine.now)).map (·.key) := by
        rw [List.filter_append, newLive, List.map_append]
    _ = _ := congrArg (new.map (·.key) ++ ·) kept

end Engine

/-! ## Histories -/

/-- Whatever has happened to a full engine, it makes room for a new key by evicting the last entry,
which is that of the least recent key if no dead entry stands behind it. -/
theorem Origin.evicts_last (origin : Origin) {past : List Event} {engine : Engine}
    (path : Path origin.engine past engine) (full : engine.store.size = engine.store.capacity)
    {reported key : Key} (least : Query.ask .leastRecent engine = .optionalText (some reported))
    (absent : ∀ entry ∈ engine.store.chain.toList, entry.key ≠ key) (value : Value)
    (options : EntryOptions) :
    ∃ newer entry dead, engine.EvictsLast (Call.run (.put key value options) engine).2
      (PlainStore.newcomer? key value options engine.moment) reported newer entry dead :=
  (origin.sound.of_path path).exists_evictsLast full least absent value options

/-- Two dead entries stand behind that of the least recent key. A new key takes the place of one of
them, and no key disappears. -/
theorem Origin.evicts_last_of_dead :
    let origin := Origin.create 3 0
    let mortal : EntryOptions := { timeToLive := some 5 }
    let calls := [Call.put "a" ⟨"1", false⟩ mortal, .put "b" ⟨"2", false⟩ mortal,
      .put "c" ⟨"3", false⟩ {}, .advance 5]
    let engine := (Call.runAll calls origin.engine).2
    let left := (Call.run (.put "d" ⟨"4", false⟩ {}) engine).2
    engine.store.size = engine.store.capacity ∧
      (∀ entry ∈ engine.store.chain.toList, entry.key ≠ "d") ∧
      engine.store.keysByRecency engine.now = ["c"] ∧
      left.store.chain.toList.map (·.key) = ["d", "c", "b"] ∧
      left.store.keysByRecency left.now = ["d", "c"] ∧
      ∃ new newer entry dead, engine.EvictsLast left new "c" newer entry dead := by
  intro origin mortal calls engine left
  have path : Path origin.engine _ engine := Call.path_traceAll calls origin.engine
  have full : engine.store.size = engine.store.capacity := by decide +kernel
  have absent : ∀ entry ∈ engine.store.chain.toList, entry.key ≠ "d" := by decide +kernel
  have keys : engine.store.keysByRecency engine.now = ["c"] := by decide +kernel
  have least : Query.ask .leastRecent engine = .optionalText (some "c") := by
    rw [Query.ask, Store.leastRecentKey?_eq_getLast?, keys]
    rfl
  exact ⟨full, absent, keys, by decide +kernel, by decide +kernel, _,
    origin.evicts_last path full least absent ⟨"4", false⟩ {}⟩

/-- The least recent key of a full cache need not make room for a new one: a dead entry behind its
own goes, and it stays. -/
theorem Origin.unevicted_before_dead :
    let origin := Origin.create 2 0
    let calls := [Call.put "a" ⟨"1", false⟩ { timeToLive := some 5 }, .put "b" ⟨"2", false⟩ {},
      .advance 5]
    let engine := (Call.runAll calls origin.engine).2
    let left := (Call.run (.put "c" ⟨"3", false⟩ {}) engine).2
    engine.store.size = engine.store.capacity ∧ 0 < engine.store.capacity ∧
      (engine.store.keysByRecency engine.now).getLast? = some "b" ∧
      (∀ entry ∈ engine.store.chain.toList, entry.key ≠ "c") ∧
      left.store.keysByRecency left.now ≠
        "c" :: (engine.store.keysByRecency engine.now).erase "b" := by
  decide +kernel

end RecencyCache
