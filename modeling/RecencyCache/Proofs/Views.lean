import RecencyCache.Proofs.Creation
import RecencyCache.Proofs.Timeline

/-!
# Agreement of views

A cache can be read by key, along its chain and by visiting its entries, and each way judges anew
what is alive at the moment. They all show the same: under each key one live entry or none, and the
live keys once each, in order of recency. A dead entry that is still stored counts in the size
only.
-/

namespace RecencyCache

/-! ## Plain stores -/

namespace PlainStore

variable {store : PlainStore} {key : Key} {now : Nat} {entry : Entry}

/-- The key of a hit is the most recent one. -/
theorem head?_liveKeys_lookup (found : store.live? key now = some entry) :
    ((store.lookup key now).2.liveKeys now).head? = some key := by
  obtain ⟨stored, live⟩ := live?_eq_some_iff.mp found
  have young : (entry.touch now store.refreshOnHit).live now = true := live
  simp [lookup_eq_of_live found, liveKeys, young, key_of_find? stored]

/-- The live keys are those under which there is a live entry. -/
theorem mem_liveKeys_iff (distinct : (store.entries.map (·.key)).Nodup) :
    key ∈ store.liveKeys now ↔ (store.live? key now).isSome := by
  simp only [liveKeys, List.mem_map, List.mem_filter, Option.isSome_iff_exists,
    live?_eq_some_iff, find?_eq_some_iff distinct]
  constructor
  · rintro ⟨entry, ⟨member, live⟩, rfl⟩
    exact ⟨entry, ⟨member, rfl⟩, live⟩
  · rintro ⟨entry, ⟨member, rfl⟩, live⟩
    exact ⟨entry, ⟨member, live⟩, rfl⟩

theorem nodup_liveKeys (distinct : (store.entries.map (·.key)).Nodup) (now : Nat) :
    (store.liveKeys now).Nodup :=
  distinct.sublist (List.filter_sublist.map _)

/-- Every entry is alive or has outlived its time. -/
theorem length_liveKeys_add (store : PlainStore) (now : Nat) :
    (store.liveKeys now).length + store.entries.countP (·.outlived now) =
      store.entries.length := by
  have parts := List.length_eq_countP_add_countP (fun entry : Entry => entry.live now)
    (l := store.entries)
  rw [liveKeys, List.length_map, ← List.countP_eq_length_filter, parts]
  simp [Entry.live]

/-- Arranged by key, the live entries are the same. -/
theorem liveByKey_perm (store : PlainStore) (now : Nat) :
    (store.liveByKey now).Perm (store.entries.filter (·.live now)) :=
  (List.mergeSort_perm _ _).filter _

end PlainStore

/-! ## Engines -/

/-- All ways to read the engine show the same: what is in sight under each key, if anything, and the
keys under which something is in sight. -/
structure Engine.ViewsAgree (engine : Engine) (sight : Key → Option (String × Snapshot))
    (keys : List Key) : Prop where
  contains : ∀ key, Query.ask (.contains key) engine = .flag (sight key).isSome
  peek : ∀ key, Query.ask (.peek key) engine = .optionalText ((sight key).map (·.1))
  snapshot : ∀ key, Query.ask (.snapshot key) engine = .snapshot ((sight key).map (·.2))
  /-- The keys in sight are listed once each. -/
  keysByRecency : Query.ask .keysByRecency engine = .keys keys ∧ keys.Nodup ∧
    ∀ key, key ∈ keys ↔ (sight key).isSome
  mostRecent : Query.ask .mostRecent engine = .optionalText keys.head?
  leastRecent : Query.ask .leastRecent engine = .optionalText keys.getLast?
  /-- The keys in sight are visited once each, with the text in sight under them. -/
  traverse : ∀ questions, ∃ visits, Query.ask (.traverse questions) engine = .visits visits ∧
    (visits.map (·.1)).Perm keys ∧
    ∀ visit ∈ visits, (sight visit.1).map (·.1) = some visit.2.1
  /-- What is stored in addition has outlived its time. -/
  size : Query.ask .size engine =
    .count (keys.length + engine.store.chain.toList.countP (·.outlived engine.now))
  /-- A call at this moment would find what is in sight, and nothing else. -/
  get : ∀ key text, (Call.run (.get key) engine).1 = .found (some text) ↔
    (sight key).map (·.1) = some text
  getWithSnapshot : ∀ key text,
    (∃ snapshot, (Call.run (.getWithSnapshot key) engine).1 =
      .foundWithSnapshot (some (text, snapshot))) ↔ (sight key).map (·.1) = some text
  /-- What such a call tells is in sight right after it, under the most recent key. -/
  afterHit : ∀ key text snapshot,
    (Call.run (.getWithSnapshot key) engine).1 = .foundWithSnapshot (some (text, snapshot)) →
    let after := (Call.run (.getWithSnapshot key) engine).2
    Query.ask (.snapshot key) after = .snapshot (some snapshot) ∧
      Query.ask .mostRecent after = .optionalText (some key)

namespace Engine

variable {engine : Engine} {key : Key} {entry : Entry}

/-- The text and the data of the live entry of a key. -/
def sight? (engine : Engine) (key : Key) : Option (String × Snapshot) :=
  (engine.store.live? key engine.now).map fun entry =>
    (entry.value.text, entry.snapshot engine.now)

theorem text_sight? (engine : Engine) (key : Key) :
    (engine.sight? key).map (·.1) = (engine.store.live? key engine.now).map (·.value.text) := by
  rw [sight?, Option.map_map]
  rfl

theorem snapshot_sight? (engine : Engine) (key : Key) :
    (engine.sight? key).map (·.2) =
      (engine.store.live? key engine.now).map (·.snapshot engine.now) := by
  rw [sight?, Option.map_map]
  rfl

/-- A live entry is found with its data as of this hit. -/
theorem getWithSnapshot_of_live (sound : engine.Sound)
    (live : engine.store.live? key engine.now = some entry) :
    let touched := entry.touch engine.now engine.store.refreshOnHit
    Matches (Call.run (.getWithSnapshot key) engine)
      (.foundWithSnapshot (some (entry.value.text, touched.snapshot engine.now)),
        { engine.plain with store := (engine.plain.store.lookup key engine.now).2 }) := by
  have same := act_matches sound.represents (.getWithSnapshot key)
  have found := (live?_plain sound.represents key).trans live
  rw [PlainEngine.act, PlainEngine.conclude, (PlainStore.lookup_of_live found).1] at same
  exact same

/-- What a hit has touched is in sight right after it, under the most recent key. -/
theorem sight?_after_hit (sound : engine.Sound)
    (live : engine.store.live? key engine.now = some entry) :
    let after := (Call.run (.getWithSnapshot key) engine).2
    let touched := entry.touch engine.now engine.store.refreshOnHit
    after.sight? key = some (entry.value.text, touched.snapshot engine.now) ∧
      (after.store.keysByRecency after.now).head? = some key := by
  intro after touched
  have found := (live?_plain sound.represents key).trans live
  have same := getWithSnapshot_of_live sound live
  have left : after.plain =
      { engine.plain with store := (engine.plain.store.lookup key engine.now).2 } := same.plain_eq
  have now : after.now = engine.now := congrArg PlainEngine.now left
  have kept : after.store.live? key after.now = some touched := by
    rw [← live?_plain same.1, left]
    exact (PlainStore.lookup_of_live found).2
  have listed : after.store.keysByRecency after.now =
      (engine.plain.store.lookup key engine.now).2.liveKeys engine.now :=
    congrArg (fun engine => engine.store.liveKeys engine.now) left
  constructor
  · rw [sight?, kept, now]
    rfl
  · rw [listed]
    exact PlainStore.head?_liveKeys_lookup found

/-- Nothing is found if nothing is alive. -/
theorem getWithSnapshot_of_dead (sound : engine.Sound)
    (dead : engine.store.live? key engine.now = none) (found : String × Snapshot) :
    (Call.run (.getWithSnapshot key) engine).1 ≠ .foundWithSnapshot (some found) := by
  have same := (act_matches sound.represents (.getWithSnapshot key)).result_eq
  rw [PlainEngine.act, PlainStore.lookup_of_dead ((live?_plain sound.represents key).trans dead)]
    at same
  change (Action.run (.getWithSnapshot key) engine).1 ≠ _
  rw [same, PlainEngine.conclude, disposing]
  split <;> simp [Reply.ofResult]

/-- A lookup tells the text that is in sight. -/
theorem get_eq_found_iff (sound : engine.Sound) (key : Key) (text : String) :
    (Call.run (.get key) engine).1 = .found (some text) ↔
      (engine.sight? key).map (·.1) = some text := by
  rw [text_sight?]
  change Reply.ofResult .found (engine.get key).1 = _ ↔ _
  cases live : engine.store.live? key engine.now with
  | some entry =>
      rw [(get_of_live sound live).1]
      simp [Reply.ofResult]
  | none =>
      rw [(get_of_dead sound live).1]
      split <;> simp [Reply.ofResult]

theorem getWithSnapshot_eq_found_iff (sound : engine.Sound) (key : Key) (text : String) :
    (∃ snapshot, (Call.run (.getWithSnapshot key) engine).1 =
      .foundWithSnapshot (some (text, snapshot))) ↔ (engine.sight? key).map (·.1) = some text := by
  rw [text_sight?]
  cases live : engine.store.live? key engine.now with
  | some entry =>
      rw [(getWithSnapshot_of_live sound live).result_eq]
      simp
  | none => simp [getWithSnapshot_of_dead sound live]

/-- The views of every sound engine agree. -/
theorem Sound.viewsAgree (sound : engine.Sound) :
    engine.ViewsAgree engine.sight? (engine.store.keysByRecency engine.now) := by
  have distinct := nodup_keys_plain sound.represents
  constructor
  case contains =>
    intro key
    rw [Query.ask, sight?, Option.isSome_map]
  case peek =>
    intro key
    rw [Query.ask, text_sight?]
  case snapshot =>
    intro key
    rw [Query.ask, snapshot_sight?]
  case keysByRecency =>
    refine ⟨rfl, PlainStore.nodup_liveKeys distinct engine.now, ?_⟩
    intro key
    rw [sight?, Option.isSome_map, ← live?_plain sound.represents]
    exact PlainStore.mem_liveKeys_iff distinct
  case mostRecent => rw [Query.ask, Store.mostRecentKey?_eq_head?]
  case leastRecent => rw [Query.ask, Store.leastRecentKey?_eq_getLast?]
  case traverse =>
    intro questions
    have perm := engine.plain.store.liveByKey_perm engine.now
    refine ⟨_, rfl, ?_, ?_⟩
    · rw [List.map_map, ← Store.liveByKey_plain sound.represents]
      exact perm.map _
    · intro visit visited
      obtain ⟨entry, member, rfl⟩ := List.mem_map.mp visited
      rw [← Store.liveByKey_plain sound.represents] at member
      obtain ⟨stored, live⟩ := List.mem_filter.mp (perm.mem_iff.mp member)
      have found : engine.store.live? entry.key engine.now = some entry := by
        rw [← live?_plain sound.represents, PlainStore.live?_eq_some_iff,
          PlainStore.find?_eq_some_iff distinct]
        exact ⟨⟨stored, rfl⟩, live⟩
      rw [text_sight?, found]
      rfl
  case size =>
    rw [Query.ask, ← size_plain sound.represents]
    exact congrArg Finding.count (engine.plain.store.length_liveKeys_add engine.now).symm
  case get => exact get_eq_found_iff sound
  case getWithSnapshot => exact getWithSnapshot_eq_found_iff sound
  case afterHit =>
    intro key text snapshot hit after
    cases live : engine.store.live? key engine.now with
    | none => exact absurd hit (getWithSnapshot_of_dead sound live _)
    | some entry =>
        obtain ⟨sighted, front⟩ := sight?_after_hit sound live
        rw [(getWithSnapshot_of_live sound live).result_eq] at hit
        cases hit
        constructor
        · rw [Query.ask, ← snapshot_sight?, sighted]
          rfl
        · rw [Query.ask, Store.mostRecentKey?_eq_head?, front]

end Engine

/-! ## Histories -/

/-- At every moment of a history, all ways to read the engine show the same. -/
theorem Origin.views_agree (origin : Origin) (calls : List Call) {past : List Event}
    (reached : past <+: origin.history calls) :
    let engine := origin.blank.through past
    ∃ sight keys, engine.ViewsAgree sight keys := by
  intro engine
  have path : Path origin.blank past engine := (origin.path_history calls).path_through reached
  exact ⟨engine.sight?, engine.store.keysByRecency engine.now,
    (origin.sound_blank.of_path path).viewsAgree⟩

/-- The views agree while the most and the least recent of three stored entries are dead. -/
theorem Origin.views_agree_dead_ends :
    let origin := Origin.create 3 0
    let mortal : EntryOptions := { timeToLive := some 5 }
    let calls := [Call.put "a" ⟨"1", false⟩ mortal, .put "b" ⟨"2", false⟩ {},
      .put "c" ⟨"3", false⟩ mortal, .advance 5]
    let engine := origin.blank.through (origin.history calls)
    engine.store.chain.toList.map (fun entry => (entry.key, entry.live engine.now)) =
        [("c", false), ("b", true), ("a", false)] ∧
      ∃ sight, engine.ViewsAgree sight ["b"] := by
  intro origin mortal calls engine
  obtain ⟨sight, keys, agree⟩ := origin.views_agree calls List.prefix_rfl
  obtain rfl : ["b"] = keys := by
    have listed : engine.store.keysByRecency engine.now = ["b"] := by decide +kernel
    rw [← listed]
    exact Finding.keys.inj agree.keysByRecency.1
  exact ⟨by decide +kernel, sight, agree⟩

end RecencyCache
