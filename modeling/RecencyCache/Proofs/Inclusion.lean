import RecencyCache.Proofs.Soundness

/-!
# Inclusion

Of two caches that differ in their capacity only and go through the same calls, the larger one
holds at any time what the smaller one holds, in the same order. The reason is that their sizes
never differ by more than their capacities: the larger cache is full only when the smaller one is.
-/

namespace RecencyCache

/-! ## Lists -/

/-- The first elements of a sublist are among the first elements of the list, if the list is not
longer by more than the number of elements that it may keep in addition. -/
theorem take_sublist_take {α : Type} {small large : List α} (sublist : small.Sublist large) :
    ∀ {few many : Nat}, few ≤ many → large.length + few ≤ small.length + many →
      (small.take few).Sublist (large.take many) := by
  induction sublist with
  | slnil => simp
  | @cons small large extra sublist ih =>
      intro few many le gap
      have shorter := sublist.length_le
      cases many with
      | zero =>
          obtain rfl : few = 0 := Nat.le_zero.mp le
          simp
      | succ many =>
          rw [List.length_cons] at gap
          rw [List.take_succ_cons]
          exact (ih (by omega) (by omega)).cons extra
  | @cons_cons small large shared sublist ih =>
      intro few many le gap
      cases few with
      | zero => simp
      | succ few =>
          obtain ⟨many, rfl⟩ := Nat.exists_eq_add_one_of_ne_zero (show many ≠ 0 by omega)
          rw [List.length_cons, List.length_cons] at gap
          rw [List.take_succ_cons, List.take_succ_cons]
          exact (ih (by omega) (by omega)).cons_cons shared

/-- A list loses at least as many elements to a condition as its sublists do. -/
theorem length_filter_add_length_le {α : Type} {small large : List α}
    (sublist : small.Sublist large) (keep : α → Bool) :
    (large.filter keep).length + small.length ≤ (small.filter keep).length + large.length := by
  induction sublist with
  | slnil => simp
  | cons extra _ ih =>
      rw [List.filter_cons, List.length_cons]
      split
      · rw [List.length_cons]
        omega
      · omega
  | cons_cons shared _ ih =>
      rw [List.filter_cons, List.filter_cons, List.length_cons, List.length_cons]
      split
      · rw [List.length_cons, List.length_cons]
        omega
      · omega

/-- The entries of two caches with room for `few` and for `many`. The larger one holds what the
smaller one holds and is full only if the smaller one is. -/
structure Nested (small large : List Entry) (few many : Nat) : Prop where
  sublist : small.Sublist large
  le : few ≤ many
  gap : large.length + few ≤ small.length + many

namespace Nested

variable {small large : List Entry} {few many : Nat}

/-- Both caches lose the entries that do not meet a condition. -/
theorem filter (nested : Nested small large few many) (keep : Entry → Bool) :
    Nested (small.filter keep) (large.filter keep) few many := by
  have lost := length_filter_add_length_le nested.sublist keep
  have gap := nested.gap
  exact ⟨nested.sublist.filter keep, nested.le, by omega⟩

/-- Both caches gain the same entry in front. -/
theorem cons (nested : Nested small large few many) (entry : Entry) :
    Nested (entry :: small) (entry :: large) few many := by
  have gap := nested.gap
  exact ⟨nested.sublist.cons_cons entry, nested.le, by simp only [List.length_cons]; omega⟩

/-- Both caches make room for one more entry. -/
theorem makeRoom (nested : Nested small large few many) (room : few ≠ 0) :
    Nested (small.take (few - 1)) (large.take (many - 1)) few many := by
  have le := nested.le
  have gap := nested.gap
  constructor
  · exact take_sublist_take nested.sublist (by omega) (by omega)
  · exact le
  · simp only [List.length_take]
    omega

/-- Nothing is missing in a cache without room. -/
theorem of_no_room (bound : large.length ≤ many) : Nested [] large 0 many :=
  ⟨List.nil_sublist large, Nat.zero_le many, by simpa using bound⟩

end Nested

/-! ## Stores -/

namespace PlainStore

variable {store small large : PlainStore} {key : Key}

/-- The larger store holds what the smaller one holds, and counts as many hits. -/
structure Within (small large : PlainStore) : Prop where
  nested : Nested small.entries large.entries small.capacity large.capacity
  hits : small.counters.hits ≤ large.counters.hits
  refresh : large.refreshOnHit = small.refreshOnHit

@[simp] theorem hits_put (value : Value) (options : EntryOptions) (moment : Moment) :
    (store.put key value options moment).2.counters.hits = store.counters.hits := by
  rw [put]
  split
  · rfl
  · split <;> rfl

@[simp] theorem refreshOnHit_put (value : Value) (options : EntryOptions) (moment : Moment) :
    (store.put key value options moment).2.refreshOnHit = store.refreshOnHit := by
  rw [put]
  split
  · rfl
  · split <;> rfl

namespace Within

/-- What the smaller store has under a key, the larger one has too. -/
theorem find?_eq_some (within : small.Within large)
    (distinct : (large.entries.map (·.key)).Nodup) {entry : Entry}
    (found : small.find? key = some entry) : large.find? key = some entry := by
  rw [find?_eq_some_iff distinct]
  exact ⟨within.nested.sublist.subset (mem_of_find? found), key_of_find? found⟩

theorem put (within : small.Within large) (fits : small.Fits) (largeFits : large.Fits) (key : Key)
    (value : Value) (options : EntryOptions) (moment : Moment) :
    (small.put key value options moment).2.Within (large.put key value options moment).2 := by
  by_cases full : small.capacity = 0
  · have empty : small.entries = [] := List.length_eq_zero_iff.mp (Nat.le_zero.mp (full ▸ fits))
    have bound := largeFits.put key value options moment
    rw [show small.put key value options moment = (disposing [value] (), small) from if_pos full]
    refine ⟨?_, ?_, ?_⟩
    · rw [empty, full]
      exact .of_no_room bound
    · rw [hits_put]
      exact within.hits
    · rw [refreshOnHit_put]
      exact within.refresh
  · have largeFull : large.capacity ≠ 0 := by
      have le := within.nested.le
      omega
    have kept := (within.nested.filter (·.key ≠ key)).makeRoom full
    rw [PlainStore.put, PlainStore.put, if_neg full, if_neg largeFull]
    cases moment.timeOfDay with
    | ok timeOfDay => exact ⟨kept.cons _, within.hits, within.refresh⟩
    | error fault => exact ⟨kept, within.hits, within.refresh⟩

theorem countMiss (within : small.Within large) : small.countMiss.Within large.countMiss :=
  ⟨within.nested, within.hits, within.refresh⟩

/-- What a lookup finds in the smaller store, it finds in the larger one too. -/
theorem lookup (within : small.Within large) (distinct : (large.entries.map (·.key)).Nodup)
    (key : Key) (now : Nat) :
    (small.lookup key now).2.Within (large.lookup key now).2 ∧
      ∀ entry, (small.lookup key now).1 = .ok (some entry) →
        (large.lookup key now).1 = .ok (some entry) := by
  have others := within.nested.filter (·.key ≠ key)
  rw [PlainStore.lookup, PlainStore.lookup]
  cases found : small.find? key with
  | some entry =>
      rw [within.find?_eq_some distinct found, within.refresh]
      by_cases dead : entry.outlived now = true
      · simp only [if_pos dead]
        exact ⟨⟨others, within.hits, rfl⟩, by simp [disposing]⟩
      · simp only [if_neg dead]
        exact ⟨⟨others.cons _, Nat.succ_le_succ within.hits, rfl⟩, fun _ hit => hit⟩
  | none =>
      refine ⟨?_, by simp⟩
      have unchanged := others_of_find?_eq_none found
      cases largeFound : large.find? key with
      | none => exact within.countMiss
      | some entry =>
          have kept : Nested small.entries (large.others key) small.capacity large.capacity := by
            rw [← unchanged]
            exact others
          by_cases dead : entry.outlived now = true
          · simp only [if_pos dead]
            exact ⟨kept, within.hits, within.refresh⟩
          · simp only [if_neg dead]
            have moved : (large.others key).length + 1 + small.capacity ≤
                small.entries.length + large.capacity :=
              Nat.le_trans (Nat.add_le_add_right (length_others_lt largeFound) _)
                within.nested.gap
            exact ⟨⟨kept.sublist.cons _, kept.le, moved⟩, Nat.le_succ_of_le within.hits,
              within.refresh⟩

theorem lookupSince (within : small.Within large)
    (distinct : (large.entries.map (·.key)).Nodup) (key : Key) (since : Int) (now : Nat) :
    (small.lookupSince key since now).2.Within (large.lookupSince key since now).2 ∧
      ∀ entry, (small.lookupSince key since now).1 = .ok (some entry) →
        (large.lookupSince key since now).1 = .ok (some entry) := by
  rw [PlainStore.lookupSince, PlainStore.lookupSince]
  cases found : small.find? key with
  | some entry =>
      rw [within.find?_eq_some distinct found]
      simp only
      split
      · exact within.lookup distinct key now
      · exact ⟨within.countMiss, by simp⟩
  | none =>
      refine ⟨?_, by simp⟩
      cases largeFound : large.find? key with
      | none => exact within.countMiss
      | some entry =>
          have missed : small.lookup key now = (.ok none, small.countMiss) := by
            rw [PlainStore.lookup, found]
          simp only
          split
          · rw [← show (small.lookup key now).2 = small.countMiss from congrArg Prod.snd missed]
            exact (within.lookup distinct key now).1
          · exact within.countMiss

theorem remove (within : small.Within large) (key : Key) :
    (small.remove key).2.Within (large.remove key).2 :=
  ⟨within.nested.filter _, within.hits, within.refresh⟩

theorem clear (within : small.Within large) : small.clear.2.Within large.clear.2 :=
  ⟨⟨.slnil, within.nested.le, Nat.add_le_add_left within.nested.le 0⟩, Nat.le_refl 0,
    within.refresh⟩

theorem sweep (within : small.Within large) (now : Nat) (default : Option Nat) :
    (small.sweep now default).2.Within (large.sweep now default).2 :=
  ⟨within.nested.filter _, within.hits, within.refresh⟩

end Within

end PlainStore

/-! ## Engines -/

/-- The reply tells that a lookup has found something. -/
def Reply.isHit : Reply → Bool
  | .found (some _) | .foundWithSnapshot (some _) => true
  | _ => false

/-- The call neither changes the capacity nor calls a supplier. -/
def Call.isSteady : Call → Bool
  | .setCapacity _ | .getOrCreate .. => false
  | _ => true

namespace PlainEngine

/-- The engines differ in their stores only. -/
inductive Within : PlainEngine → PlainEngine → Prop where
  | mk {engine : PlainEngine} {store : PlainStore} :
      engine.store.Within store → Within engine { engine with store }

theorem Within.sleepers_eq {small large : PlainEngine} (within : Within small large) :
    large.sleepers = small.sleepers := by
  cases within
  rfl

theorem Within.stores {small large : PlainEngine} (within : Within small large) :
    small.store.Within large.store := by
  cases within
  assumption

/-- A call leaves the larger engine with what it leaves the smaller one with, and hits in the larger
one if it does in the smaller one. -/
def Follows (small large : Reply × PlainEngine) : Prop :=
  Within small.2 large.2 ∧ (small.1.isHit → large.1 = small.1)

variable {engine : PlainEngine} {store : PlainStore}

/-- An operation that is no lookup is followed if its stores are. -/
theorem conclude_follows {α : Type} {small large : Except Fault α × PlainStore}
    (stores : small.2.Within large.2) {tell : α → Reply}
    (misses : ∀ answer, (tell answer).isHit = false) :
    Follows (engine.conclude tell small) ({ engine with store }.conclude tell large) := by
  refine ⟨.mk stores, ?_⟩
  intro hit
  rcases small with ⟨result, left⟩
  cases result with
  | ok answer => simp [conclude, Reply.ofResult, misses] at hit
  | error fault => simp [conclude, Reply.ofResult, Reply.isHit] at hit

/-- A lookup is followed if the larger store finds what the smaller one finds. -/
theorem conclude_lookup_follows {small large : Except Fault (Option Entry) × PlainStore}
    (stores : small.2.Within large.2)
    (found : ∀ entry, small.1 = .ok (some entry) → large.1 = .ok (some entry))
    {tell : Option Entry → Reply} (misses : (tell none).isHit = false) :
    Follows (engine.conclude tell small) ({ engine with store }.conclude tell large) := by
  refine ⟨.mk stores, ?_⟩
  intro hit
  rcases small with ⟨result, left⟩
  cases result with
  | ok answer =>
      cases answer with
      | some entry =>
          rw [conclude, found entry rfl]
          rfl
      | none => simp [conclude, Reply.ofResult, misses] at hit
  | error fault => simp [conclude, Reply.ofResult, Reply.isHit] at hit

theorem wake_within {small large : PlainEngine} (within : Within small large)
    (before : List Sleeper) (sleeper : Sleeper) (after : List Sleeper) :
    Within (small.wake before sleeper after) (large.wake before sleeper after) := by
  rcases within with ⟨stores⟩
  rw [wake, wake]
  by_cases current : small.control.isCurrent sleeper.generation = true
  · simp only [if_pos current]
    exact .mk (stores.sweep _ _)
  · simp only [if_neg current]
    exact .mk stores

/-- Time passes alike for both engines. -/
theorem runUntil_within {small large : PlainEngine} (within : Within small large) (target : Nat) :
    Within (small.runUntil target) (large.runUntil target) := by
  have sleepers := within.sleepers_eq
  fun_induction runUntil small target generalizing large with
  | case1 small asleep =>
      rw [runUntil_of_idle (by simp [sleepers, asleep])]
      cases within with
      | mk stores => exact .mk stores
  | case2 small before sleeper after split due ih =>
      have later : large.runUntil target = (large.wake before sleeper after).runUntil target :=
        runUntil_of_due (sleepers ▸ split) due
      have woken := wake_within within before sleeper after
      rw [later]
      exact ih woken woken.sleepers_eq
  | case3 small before sleeper after split early =>
      rw [runUntil_of_idle (by simpa [sleepers, split] using early)]
      cases within with
      | mk stores => exact .mk stores

/-- A sweeper is started alike in both engines. -/
theorem enable_follows (stores : engine.store.Within store) (interval survive : Nat)
    (name : Option String) :
    Follows (engine.enable interval survive name)
      ({ engine with store }.enable interval survive name) := by
  rw [engine.enable_withStore store]
  refine ⟨.mk ?_, fun _ => rfl⟩
  rw [store_enable]
  exact stores

/-- Every call that is steady is followed. -/
theorem run_follows {small large : PlainEngine} (within : Within small large)
    (fits : small.store.Fits) (largeFits : large.store.Fits)
    (distinct : (large.store.entries.map (·.key)).Nodup) {call : Call}
    (steady : call.isSteady = true) : Follows (run call small) (run call large) := by
  rcases within with ⟨stores⟩
  cases call with
  | put key value options =>
      exact conclude_follows (stores.put fits largeFits key value options small.moment)
        fun _ => rfl
  | get key =>
      obtain ⟨left, found⟩ := stores.lookup distinct key small.now
      exact conclude_lookup_follows left found rfl
  | getWithSnapshot key =>
      obtain ⟨left, found⟩ := stores.lookup distinct key small.now
      exact conclude_lookup_follows left found rfl
  | getSince key since =>
      obtain ⟨left, found⟩ := stores.lookupSince distinct key since small.now
      exact conclude_lookup_follows left found rfl
  | remove key => exact conclude_follows (stores.remove key) fun _ => rfl
  | clear => exact conclude_follows stores.clear fun _ => rfl
  | purge default => exact conclude_follows (stores.sweep small.now default) fun _ => rfl
  | setRefreshOnHit refreshOnHit =>
      exact ⟨.mk ⟨stores.nested, stores.hits, rfl⟩, by simp [run, act, Reply.isHit]⟩
  | enable interval survive name => exact enable_follows stores interval survive name
  | disable => exact ⟨.mk stores, fun _ => rfl⟩
  | advance duration => exact ⟨runUntil_within (.mk stores) _, fun _ => rfl⟩
  | ask question => exact ⟨.mk stores, by simp [run, act, Reply.isHit]⟩
  | setCapacity | getOrCreate => simp [Call.isSteady] at steady

end PlainEngine

/-! ## Programs -/

/-- The larger cache shows all entries that the smaller one shows, in the same order, and under each
of their keys nothing else. It has counted as many hits, and a lookup that hits in the smaller cache
has the same reply. -/
def Step.Within : Step → Step → Prop
  | .mk reply view, .mk largeReply largeView =>
      view.entries.Sublist largeView.entries ∧
        (∀ entry ∈ view.entries, ∀ other ∈ largeView.entries,
          other.key = entry.key → other = entry) ∧
        view.counters.hits ≤ largeView.counters.hits ∧
        (reply.isHit → largeReply = reply)

namespace Engine

/-- A larger engine that holds what a smaller one holds goes on to do so. -/
theorem runAll_within {small large : Engine} (sound : small.Sound) (largeSound : large.Sound)
    (within : small.plain.Within large.plain) {calls : List Call}
    (steady : ∀ call ∈ calls, call.isSteady = true) :
    List.Forall₂ Step.Within (Call.runAll calls small).1 (Call.runAll calls large).1 := by
  induction calls generalizing small large with
  | nil => exact .nil
  | cons call calls ih =>
      obtain ⟨callSteady, restSteady⟩ := List.forall_mem_cons.mp steady
      have follows := PlainEngine.run_follows within sound.fits largeSound.fits
        (Chain.Sound.nodup_keys largeSound.represents) callSteady
      rw [← (run_matches sound.represents call).2, ← (run_matches largeSound.represents call).2]
        at follows
      rcases follows with ⟨left, hit⟩
      have after := sound.of_path (call.path_trace small)
      have largeAfter := largeSound.of_path (call.path_trace large)
      have distinct := Chain.Sound.nodup_keys largeAfter.represents
      refine .cons ⟨left.stores.nested.sublist, ?_, left.stores.hits, hit⟩
        (ih after largeAfter left restSteady)
      intro entry member other otherMember sameKey
      exact List.inj_on_of_nodup_map distinct otherMember
        (left.stores.nested.sublist.subset member) sameKey

/-- A larger cache never does worse: step by step it holds what a smaller one holds that goes
through the same calls, and it finds what the smaller one finds. -/
theorem runAll_create_within {small large : Nat} (le : small ≤ large) (epoch : Int)
    {calls : List Call} (steady : ∀ call ∈ calls, call.isSteady = true) :
    List.Forall₂ Step.Within (Call.runAll calls (.create small epoch)).1
      (Call.runAll calls (.create large epoch)).1 := by
  refine runAll_within (Origin.create small epoch).sound (Origin.create large epoch).sound ?_ steady
  exact .mk ⟨⟨.slnil, le, Nat.add_le_add_left le 0⟩, Nat.le_refl 0, rfl⟩

/-- A cache with room for two entries, of which one dies, against a cache with room for one. -/
theorem runAll_create_within_one_two :
    let calls := [Call.put "a" ⟨"1", false⟩ { timeToLive := some 5 }, .put "b" ⟨"2", false⟩ {},
      .get "a", .get "b", .advance 5, .get "a", .put "c" ⟨"3", false⟩ {}]
    1 ≤ 2 ∧ (∀ call ∈ calls, call.isSteady = true) ∧
      List.Forall₂ Step.Within (Call.runAll calls (.create 1 0)).1
        (Call.runAll calls (.create 2 0)).1 := by
  intro calls
  have le : 1 ≤ 2 := by decide
  have steady : ∀ call ∈ calls, call.isSteady = true := by simp [calls, Call.isSteady]
  exact ⟨le, steady, runAll_create_within le 0 steady⟩

end Engine

end RecencyCache
