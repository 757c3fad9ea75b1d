import RecencyCache.Proofs.Balance
import RecencyCache.Proofs.Creation
import Mathlib.Algebra.GroupWithZero.Nat
import Mathlib.Algebra.Order.BigOperators.Group.List
import Mathlib.Algebra.Order.Group.Nat
import Mathlib.Data.List.DropRight

/-!
# Counting lookups

What a cache counts about lookups is what a reader of its history would count: all lookups and all
hits since the counters were last at zero, and for each entry the hits on its key since it was
stored. So the hits of the stored entries are among all hits, and these are among all lookups.
-/

namespace RecencyCache

/-! ## Counting in lists -/

/-- Different keys occur in a list no more often than it has elements. -/
theorem sum_count_le_length {keys : List Key} (distinct : keys.Nodup) (list : List Key) :
    (keys.map fun key => list.count key).sum ≤ list.length := by
  -- Each key takes its own occurrences out of the list.
  induction keys generalizing list with
  | nil => exact Nat.zero_le _
  | cons key keys ih =>
      obtain ⟨absent, distinct⟩ := List.nodup_cons.mp distinct
      have others : ∀ other ∈ keys, (list.filter (· ≠ key)).count other = list.count other := by
        intro other member
        apply List.count_filter
        simpa using ne_of_mem_of_not_mem member absent
      have parts := List.length_eq_countP_add_countP (· = key) (l := list)
      have rest := ih distinct (list.filter (· ≠ key))
      rw [List.map_congr_left others, ← List.countP_eq_length_filter] at rest
      rw [List.map_cons, List.sum_cons, List.count, List.countP_congr (q := (· = key)) (by simp),
        parts]
      simpa using rest

theorem filterMap_concat {α β : Type} (change : α → Option β) (list : List α) (last : α) :
    (list ++ [last]).filterMap change = list.filterMap change ++ (change last).toList := by
  rw [List.filterMap_append, List.filterMap_cons]
  cases change last <;> rfl

/-! ## Events -/

namespace Event

/-- The event takes out everything at once and starts the counters anew. -/
def clears (event : Event) : Bool := event.action matches .clear

/-- The key that the event looks up. A call that gets or creates a value begins with a `get`. -/
def lookup? (event : Event) : Option Key :=
  match event.action with
  | .get key | .getWithSnapshot key | .getSince key _ => some key
  | _ => none

/-- The live entry that the event looks up and finds. If a time of storing is asked for, an entry
that is older is not found. -/
def found? : Event → Option Entry
  | ⟨engine, .get key⟩ | ⟨engine, .getWithSnapshot key⟩ => engine.store.live? key engine.now
  | ⟨engine, .getSince key since⟩ =>
      (engine.store.live? key engine.now).filter (since ≤ ·.createdAt)
  | _ => none

/-- The key of a hit. -/
def hit? (event : Event) : Option Key := event.found?.map (·.key)

end Event

/-- The events after the last one that starts the counters anew, or all of them. -/
def sinceClear (events : List Event) : List Event := events.rtakeWhile (!·.clears)

/-! ## Plain stores -/

namespace PlainStore

variable {store : PlainStore} {key : Key} {now : Nat} {entry : Entry}

/-- The lookup of a key has been counted, and so has what was found. -/
structure Counted (store left : PlainStore) (found : Option Entry) : Prop where
  requests : left.counters.requests = store.counters.requests + 1
  hits : left.counters.hits = store.counters.hits + found.toList.length
  /-- The entry that was found has been touched, and all others are as they were. -/
  kept_or_touched : ∀ entry ∈ left.entries,
    (found.map (·.key) ≠ some entry.key ∧ entry ∈ store.entries) ∨
      (found.map (·.key) = some entry.key ∧
        ∃ old ∈ store.entries, ∃ now, entry = old.touch now store.refreshOnHit)

theorem counted_countMiss (store : PlainStore) : Counted store store.countMiss none where
  requests := rfl
  hits := rfl
  kept_or_touched entry member := .inl ⟨by simp, member⟩

theorem counted_lookup (store : PlainStore) (key : Key) (now : Nat) :
    Counted store (store.lookup key now).2 (store.live? key now) := by
  cases found : store.live? key now with
  | none =>
      rw [lookup_of_dead found]
      exact ⟨rfl, rfl, fun entry member => .inl ⟨by simp, (mem_others_iff.mp member).1⟩⟩
  | some live =>
      obtain ⟨stored, -⟩ := live?_eq_some_iff.mp found
      rw [lookup_eq_of_live found]
      refine ⟨rfl, rfl, ?_⟩
      intro entry member
      rcases List.mem_cons.mp member with rfl | other
      · exact .inr ⟨rfl, live, mem_of_find? stored, now, rfl⟩
      · obtain ⟨member, different⟩ := mem_others_iff.mp other
        refine .inl ⟨?_, member⟩
        simpa [key_of_find? stored] using different.symm

/-- If a time of storing is asked for, an entry is either looked up as ever or not found. -/
theorem lookupSince_cases (store : PlainStore) (key : Key) (since : Int) (now : Nat) :
    let found := (store.live? key now).filter (since ≤ ·.createdAt)
    (store.lookupSince key since now = store.lookup key now ∧ found = store.live? key now) ∨
      (store.lookupSince key since now = (.ok none, store.countMiss) ∧ found = none) := by
  simp only [lookupSince, live?]
  cases stored : store.find? key with
  | none => exact .inr ⟨rfl, rfl⟩
  | some entry =>
      by_cases recent : since ≤ entry.createdAt
      · refine .inl ⟨if_pos recent, ?_⟩
        cases live : entry.live now <;> simp [Option.filter_some, live, recent]
      · refine .inr ⟨if_neg recent, ?_⟩
        cases live : entry.live now <;> simp [Option.filter_some, live, Int.not_le.mp recent]

theorem counted_lookupSince (store : PlainStore) (key : Key) (since : Int) (now : Nat) :
    Counted store (store.lookupSince key since now).2
      ((store.live? key now).filter (since ≤ ·.createdAt)) := by
  rcases store.lookupSince_cases key since now with ⟨looked, found⟩ | ⟨missed, found⟩
  · rw [looked, found]
    exact store.counted_lookup key now
  · rw [missed, found]
    exact store.counted_countMiss

/-- An insertion is no lookup, and what it leaves under other keys is old. -/
theorem uncounted_put (store : PlainStore) (key : Key) (value : Value) (options : EntryOptions)
    (moment : Moment) :
    (store.put key value options moment).2.counters.requests = store.counters.requests ∧
      (store.put key value options moment).2.counters.hits = store.counters.hits ∧
      ∀ entry ∈ (store.put key value options moment).2.entries,
        (store.capacity ≠ 0 → entry.key ≠ key) → entry ∈ store.entries := by
  have old : ∀ entry ∈ (store.put key value options moment).2.entries,
      (store.capacity ≠ 0 → entry.key ≠ key) → entry ∈ store.entries := by
    intro entry member different
    rcases mem_put member with ⟨room, timeOfDay, -, rfl⟩ | ⟨old, -⟩
    · exact absurd rfl (different room)
    · exact old
  refine ⟨?_, ?_, old⟩
  all_goals
    rw [put]
    split
    · rfl
    · split <;> rfl

end PlainStore

/-! ## Events -/

namespace Event

variable {event : Event} {entry : Entry}

/-- A lookup of the engine is one of its plain store. -/
theorem counted_after (sound : event.engine.Sound) (looks : event.lookup?.isSome) :
    PlainStore.Counted event.engine.plain.store event.after.plain.store event.found? := by
  rcases event with ⟨engine, action⟩
  rw [after, (Engine.act_matches sound.represents action).plain_eq]
  cases action with
  | get key | getWithSnapshot key =>
      rw [found?, ← Engine.live?_plain sound.represents]
      exact engine.plain.store.counted_lookup key engine.now
  | getSince key since =>
      rw [found?, ← Engine.live?_plain sound.represents]
      exact engine.plain.store.counted_lookupSince key since engine.now
  | _ => cases looks

theorem found?_eq_none (idle : event.lookup? = none) : event.found? = none := by
  rcases event with ⟨engine, action⟩
  cases action with
  | get | getWithSnapshot | getSince => cases idle
  | _ => rfl

/-- An event that looks nothing up counts nothing of the kind, unless it starts the counters anew,
and leaves as it is whatever it does not displace. -/
theorem uncounted_after (sound : event.engine.Sound) (idle : event.lookup? = none)
    (kept : event.action ≠ .clear) :
    event.after.store.counters.requests = event.engine.store.counters.requests ∧
      event.after.store.counters.hits = event.engine.store.counters.hits ∧
      ∀ entry ∈ event.after.store.chain.toList, ¬event.Displaces entry.key →
        entry ∈ event.engine.store.chain.toList := by
  rcases event with ⟨engine, action⟩
  suffices unchanged : ∀ left, left = (PlainEngine.act action engine.plain).2.store →
      left.counters.requests = engine.store.counters.requests ∧
        left.counters.hits = engine.store.counters.hits ∧
        ∀ entry ∈ left.entries, ¬Displaces ⟨engine, action⟩ entry.key →
          entry ∈ engine.store.chain.toList by
    have same := (Engine.act_matches sound.represents action).plain_eq
    exact unchanged _ (congrArg PlainEngine.store same)
  rintro left rfl
  cases action with
  | put key value options =>
      obtain ⟨requests, hits, old⟩ :=
        engine.plain.store.uncounted_put key value options engine.moment
      refine ⟨requests, hits, fun entry member untouched => old entry member ?_⟩
      rintro room rfl
      exact untouched (.insert (.put room))
  | putIfAbsent key text =>
      rw [PlainEngine.act, PlainEngine.putIfAbsent, Engine.live?_plain sound.represents]
      cases absent : engine.store.live? key engine.now with
      | some other => exact ⟨rfl, rfl, fun entry member _ => member⟩
      | none =>
          obtain ⟨requests, hits, old⟩ :=
            engine.plain.store.uncounted_put key { text } {} engine.moment
          refine ⟨requests, hits, fun entry member untouched => old entry member ?_⟩
          rintro room rfl
          exact untouched (.insert (.putIfAbsent room absent))
  | get | getWithSnapshot | getSince => cases idle
  | remove key => exact ⟨rfl, rfl, fun entry member _ => (PlainStore.mem_others_iff.mp member).1⟩
  | clear => exact absurd rfl kept
  | setCapacity capacity =>
      cases capacity with
      | ofNat capacity => exact ⟨rfl, rfl, fun entry member _ => List.mem_of_mem_take member⟩
      | negSucc capacity => exact ⟨rfl, rfl, fun entry member _ => member⟩
  | purge default => exact ⟨rfl, rfl, fun entry member _ => List.mem_of_mem_filter member⟩
  | enable interval survive name =>
      rw [PlainEngine.act, PlainEngine.store_enable]
      exact ⟨rfl, rfl, fun entry member _ => member⟩
  | wake =>
      rcases engine.plain.store_act_wake with same | ⟨now, default, swept⟩
      · rw [same]
        exact ⟨rfl, rfl, fun entry member _ => member⟩
      · rw [swept]
        exact ⟨rfl, rfl, fun entry member _ => List.mem_of_mem_filter member⟩
  | ask | setRefreshOnHit | disable | rest => exact ⟨rfl, rfl, fun entry member _ => member⟩

/-- Unless the counters start anew, an event counts what it looks up and what it finds. -/
theorem counters_after (sound : event.engine.Sound) (kept : event.action ≠ .clear) :
    event.after.store.counters.requests =
        event.engine.store.counters.requests + event.lookup?.toList.length ∧
      event.after.store.counters.hits =
        event.engine.store.counters.hits + event.hit?.toList.length := by
  cases looks : event.lookup? with
  | none =>
      obtain ⟨requests, hits, -⟩ := uncounted_after sound looks kept
      rw [hit?, found?_eq_none looks]
      exact ⟨requests, hits⟩
  | some key =>
      have counted := counted_after sound (Option.isSome_of_eq_some looks)
      refine ⟨counted.requests, counted.hits.trans ?_⟩
      rw [hit?]
      cases event.found? <;> rfl

/-- An entry that the event has just stored has no hits. -/
theorem Inserts.hitCount_eq_zero {text : String} {lifetime : Option Nat}
    (inserts : event.Inserts entry.key text lifetime) (sound : event.engine.Sound)
    (member : entry ∈ event.after.store.chain.toList) : entry.hitCount = 0 := by
  obtain ⟨value, options, room, -, left⟩ := inserts.exists_put sound
  have member : entry ∈ event.after.plain.store.entries := member
  rw [left] at member
  rcases PlainStore.mem_put member with ⟨-, timeOfDay, -, same⟩ | ⟨-, different⟩
  · rw [same]
    rfl
  · exact absurd rfl (different room)

/-- An entry that is not displaced has one hit more than before if it is the one that is found. -/
theorem exists_of_mem_after (sound : event.engine.Sound)
    (member : entry ∈ event.after.store.chain.toList) (kept : ¬event.Displaces entry.key) :
    ∃ old ∈ event.engine.store.chain.toList, old.Touched entry ∧
      entry.hitCount = old.hitCount + event.hit?.toList.count entry.key := by
  cases looks : event.lookup? with
  | none =>
      have unclear : event.action ≠ .clear := by
        rcases event with ⟨engine, action⟩
        rintro rfl
        exact kept .clear
      refine ⟨entry, (uncounted_after sound looks unclear).2.2 entry member kept, .refl entry, ?_⟩
      rw [hit?, found?_eq_none looks]
      rfl
  | some key =>
      have counted := counted_after sound (Option.isSome_of_eq_some looks)
      rcases counted.kept_or_touched entry member with
        ⟨unfound, stored⟩ | ⟨found, old, stored, now, rfl⟩
      · refine ⟨entry, stored, .refl entry, ?_⟩
        rw [List.count_eq_zero.mpr (by simpa [hit?] using unfound), Nat.add_zero]
      · refine ⟨old, stored, old.touched_touch now _, ?_⟩
        rw [hit?, found]
        simp [Entry.touch]

end Event

/-! ## Histories -/

theorem sinceClear_concat (past : List Event) (event : Event) :
    sinceClear (past ++ [event]) = if event.clears then [] else sinceClear past ++ [event] := by
  rw [sinceClear, List.rtakeWhile_concat]
  cases event.clears <;> rfl

/-- Events none of which starts the counters anew are the last ones that are counted. -/
theorem suffix_sinceClear (older : List Event) {newer : List Event}
    (kept : ∀ event ∈ newer, ¬event.clears) : newer <:+ sinceClear (older ++ newer) := by
  have taken : ∀ event ∈ newer.reverse, !event.clears := by simpa using kept
  rw [sinceClear, List.rtakeWhile, List.reverse_append, List.takeWhile_append_of_pos taken,
    List.reverse_append, List.reverse_reverse]
  exact List.suffix_append _ _

/-- The engine has counted the lookups and hits of the past since the counters were last at zero.
Each entry goes back to an event that stored it, and has counted the hits on its key since then. -/
structure Engine.Tallied (engine : Engine) (past : List Event) : Prop where
  requests : engine.store.counters.requests = ((sinceClear past).filterMap Event.lookup?).length
  hits : engine.store.counters.hits = ((sinceClear past).filterMap Event.hit?).length
  hitCount : ∀ entry ∈ engine.store.chain.toList, ∃ older insertion newer,
    past = older ++ insertion :: newer ∧ insertion.Explains newer entry ∧
      entry.hitCount = (newer.filterMap Event.hit?).count entry.key

theorem Event.clears_iff {event : Event} : event.clears = true ↔ event.action = .clear := by
  rw [clears]
  cases event.action <;> simp

theorem Event.clear_displaces {event : Event} (clears : event.action = .clear) (key : Key) :
    event.Displaces key := by
  rcases event with ⟨engine, action⟩
  obtain rfl : action = .clear := clears
  exact .clear

theorem Event.counters_after_clear {event : Event} (clears : event.action = .clear) :
    event.after.store.counters = {} :=
  congrArg Store.counters (store_after_clear clears)

/-- An event adds to the tally. -/
theorem Event.tallied_after (event : Event) {past : List Event} (sound : event.engine.Sound)
    (tallied : event.engine.Tallied past) : event.after.Tallied (past ++ [event]) := by
  constructor
  case requests | hits =>
    rw [sinceClear_concat]
    cases clears : event.clears with
    | true => rw [counters_after_clear (clears_iff.mp clears)]; rfl
    | false =>
        have kept : event.action ≠ .clear := by simp [← clears_iff, clears]
        obtain ⟨requests, hits⟩ := counters_after sound kept
        simp only [Bool.false_eq_true, if_false, filterMap_concat, List.length_append, requests,
          hits, tallied.requests, tallied.hits]
  case hitCount =>
    intro entry member
    rcases event.explains_or_kept sound.represents member with explains | ⟨kept, -⟩
    · obtain ⟨lifetime, inserts, -⟩ := explains.inserts
      exact ⟨past, event, [], rfl, explains, inserts.hitCount_eq_zero sound member⟩
    · obtain ⟨old, stored, touched, hits⟩ := exists_of_mem_after sound member kept
      obtain ⟨older, insertion, newer, split, explains, counted⟩ := tallied.hitCount old stored
      refine ⟨older, insertion, newer ++ [event], ?_, (explains.touched touched).snoc kept, ?_⟩
      · rw [split, List.append_assoc, List.cons_append]
      · rw [hits, counted, filterMap_concat, List.count_append, touched.key]

/-- A path adds its events to the tally. -/
theorem Engine.Tallied.of_path {first last : Engine} {past events : List Event}
    (sound : first.Sound) (tallied : first.Tallied past) (path : Path first events last) :
    last.Tallied (past ++ events) :=
  sound.accumulates (motive := Engine.Tallied) (fun event _ => event.tallied_after) path tallied

/-- A new engine has nothing to tally. -/
theorem Origin.tallied_blank (origin : Origin) : origin.blank.Tallied [] := by
  cases origin with
  | create | ofConfig => exact ⟨rfl, rfl, List.forall_mem_nil _⟩

namespace Engine

variable {engine : Engine} {past : List Event}

/-- The hits of the stored entries are different hits since the counters were last at zero. -/
theorem Tallied.sum_hitCount_le (tallied : engine.Tallied past) (sound : engine.Sound) :
    (engine.store.chain.toList.map (·.hitCount)).sum ≤ engine.store.counters.hits := by
  have each : ∀ entry ∈ engine.store.chain.toList,
      entry.hitCount ≤ ((sinceClear past).filterMap Event.hit?).count entry.key := by
    intro entry member
    obtain ⟨older, insertion, newer, split, explains, counted⟩ := tallied.hitCount entry member
    have kept : ∀ event ∈ newer, ¬event.clears := by
      intro event later clears
      exact explains.undisturbed event later
        (Event.clear_displaces (Event.clears_iff.mp clears) entry.key)
    have counts := suffix_sinceClear (older ++ [insertion]) kept
    rw [counted, split]
    rw [List.append_assoc, List.singleton_append] at counts
    exact (counts.sublist.filterMap _).count_le _
  calc (engine.store.chain.toList.map (·.hitCount)).sum
      ≤ (engine.store.chain.toList.map fun entry =>
          ((sinceClear past).filterMap Event.hit?).count entry.key).sum :=
        List.sum_le_sum each
    _ ≤ ((sinceClear past).filterMap Event.hit?).length := by
        have distinct := Chain.Sound.nodup_keys sound.represents
        have bound := sum_count_le_length distinct ((sinceClear past).filterMap Event.hit?)
        rwa [List.map_map] at bound
    _ = engine.store.counters.hits := tallied.hits.symm

/-- What is found has been looked up. -/
theorem Tallied.hits_le_requests (tallied : engine.Tallied past) :
    engine.store.counters.hits ≤ engine.store.counters.requests := by
  rw [tallied.hits, tallied.requests, List.length_filterMap_eq_countP,
    List.length_filterMap_eq_countP]
  apply List.countP_mono_left
  intro event _ hit
  cases looks : event.lookup? with
  | some key => rfl
  | none => simp [Event.hit?, Event.found?_eq_none looks] at hit

end Engine

/-- The engine has counted the lookups and hits of the past and goes on to count nothing else. -/
structure Engine.CountsLookups (engine : Engine) (past : List Event) : Prop where
  tallied : engine.Tallied past
  sum_hitCount_le : (engine.store.chain.toList.map (·.hitCount)).sum ≤ engine.store.counters.hits
  hits_le_requests : engine.store.counters.hits ≤ engine.store.counters.requests
  misses : engine.store.counters.hits + engine.store.counters.misses =
    engine.store.counters.requests
  /-- An action that is no lookup leaves these numbers as they are, unless it starts the counters
  anew, and so it does for every entry that it neither displaces nor stores. -/
  steady : ∀ action, let event : Event := ⟨engine, action⟩
    event.lookup? = none → action ≠ .clear →
      event.after.store.counters.requests = engine.store.counters.requests ∧
        event.after.store.counters.hits = engine.store.counters.hits ∧
        ∀ entry ∈ event.after.store.chain.toList, ¬event.Displaces entry.key →
          entry ∈ engine.store.chain.toList

/-- At every moment of a history, the lookups, the hits and the hits on each entry are counted
exactly, those of the entries are among all hits, and these are among all lookups. -/
theorem Origin.counts_lookups (origin : Origin) (calls : List Call) {past : List Event}
    (reached : past <+: origin.history calls) :
    (origin.blank.through past).CountsLookups past := by
  have path := (origin.path_history calls).path_through reached
  have sound := origin.sound_blank.of_path path
  have tallied := origin.tallied_blank.of_path origin.sound_blank path
  have fewer := tallied.hits_le_requests
  exact
    { tallied
      sum_hitCount_le := tallied.sum_hitCount_le sound
      hits_le_requests := fewer
      misses := Nat.add_sub_of_le fewer
      steady := fun action idle kept => Event.uncounted_after sound idle kept }

/-- A supplier starts the counters anew between the lookup of its call and the insertion, and looks
up an entry that is new enough once and too old another time. -/
theorem Origin.counts_lookups_cleared_by_supplier :
    let origin := Origin.create 2 0
    let supplier := [Call.get "a", .clear, .put "a" ⟨"2", false⟩ {}, .get "a", .getSince "a" 0,
      .getSince "a" 1]
    let calls := [Call.put "a" ⟨"1", false⟩ {}, .get "a", .getOrCreate "b" supplier (.value "3"),
      .getWithSnapshot "b"]
    let past := origin.history calls
    let engine := origin.blank.through past
    engine.store.counters.requests = 4 ∧ engine.store.counters.hits = 3 ∧
      engine.store.chain.toList.map (fun entry => (entry.key, entry.hitCount)) =
        [("b", 1), ("a", 2)] ∧
      engine.CountsLookups past := by
  intro origin supplier calls past engine
  exact ⟨by decide +kernel, by decide +kernel, by decide +kernel,
    origin.counts_lookups calls List.prefix_rfl⟩

end RecencyCache
