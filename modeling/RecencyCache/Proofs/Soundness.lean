import RecencyCache.Proofs.Refinement.Program

/-!
# Soundness of engines

From the moment an engine is made and whatever is done to it, the chain of its store represents
the order that is found by following the links, and holds no more entries than the capacity
allows. So no operation ever meets a dangling reference, and a walk along the links ends.
-/

namespace RecencyCache

/-! ## The capacity -/

namespace PlainEngine

variable {engine : PlainEngine}

/-- Every action keeps to the capacity. -/
theorem fits_act (fits : engine.store.Fits) (action : Action) :
    (act action engine).2.store.Fits := by
  cases action with
  | put key value options => exact fits.put key value options engine.moment
  | get key | getWithSnapshot key => exact fits.lookup key engine.now
  | getSince key since => exact fits.lookupSince key since engine.now
  | putIfAbsent key text =>
      rw [act, putIfAbsent]
      split
      · exact fits
      · exact fits.put key { text } {} engine.moment
  | remove key => exact fits.remove key
  | clear => exact PlainStore.Fits.clear engine.store
  | setCapacity capacity =>
      cases capacity with
      | ofNat capacity => exact PlainStore.Fits.setCapacity engine.store capacity
      | negSucc capacity => exact fits
  | purge default => exact fits.sweep engine.now default
  | enable interval survive name =>
      rw [act, store_enable]
      exact fits
  | wake =>
      rcases engine.store_act_wake with same | ⟨now, default, swept⟩
      · exact same ▸ fits
      · exact swept ▸ fits.sweep now default
  | ask | setRefreshOnHit | disable | rest => exact fits

end PlainEngine

/-! ## Faults -/

theorem timeOfDay_ne_danglingSlot (epoch : Int) (now : Nat) :
    (Moment.after epoch now).timeOfDay ≠ .error .danglingSlot := by
  rw [Moment.after, Moment.readClock]
  split
  · simp
  · split <;> simp

theorem disposing_ne_danglingSlot {α : Type} (disposed : List Value) (answer : α) :
    disposing disposed answer ≠ .error .danglingSlot := by
  rw [disposing]
  split <;> simp

namespace PlainStore

variable {store : PlainStore}

theorem put_ne_danglingSlot (key : Key) (value : Value) (options : EntryOptions) {moment : Moment}
    (readable : moment.timeOfDay ≠ .error .danglingSlot) :
    (store.put key value options moment).1 ≠ .error .danglingSlot := by
  rw [put]
  split
  · exact disposing_ne_danglingSlot [value] ()
  · split
    · exact disposing_ne_danglingSlot _ ()
    · rename_i fault unreadable
      rw [unreadable] at readable
      exact fun same => readable (congrArg _ (Except.error.inj same))

theorem lookup_ne_danglingSlot (key : Key) (now : Nat) :
    (store.lookup key now).1 ≠ .error .danglingSlot := by
  rw [lookup]
  split
  · simp
  · split
    · exact disposing_ne_danglingSlot _ none
    · simp

theorem lookupSince_ne_danglingSlot (key : Key) (since : Int) (now : Nat) :
    (store.lookupSince key since now).1 ≠ .error .danglingSlot := by
  rw [lookupSince]
  split
  · simp
  · split
    · exact lookup_ne_danglingSlot key now
    · simp

end PlainStore

namespace PlainEngine

variable {engine : PlainEngine}

/-- A reply that tells a result is broken off as the result is. -/
theorem conclude_ne_danglingSlot {α : Type} (tell : α → Reply)
    {outcome : Except Fault α × PlainStore} (sound : outcome.1 ≠ .error .danglingSlot)
    (told : ∀ answer, tell answer ≠ .broken .danglingSlot) :
    (engine.conclude tell outcome).1 ≠ .broken .danglingSlot := by
  rcases outcome with ⟨result, store⟩
  cases result with
  | ok answer => exact told answer
  | error fault => exact fun same => sound (congrArg _ (Reply.broken.inj same))

theorem act_ne_danglingSlot (engine : PlainEngine) (action : Action) :
    (act action engine).1 ≠ .broken .danglingSlot := by
  have readable := timeOfDay_ne_danglingSlot engine.epoch engine.now
  cases action with
  | put key value options =>
      exact conclude_ne_danglingSlot _ (PlainStore.put_ne_danglingSlot key value options readable)
        (by simp)
  | get key =>
      exact conclude_ne_danglingSlot _ (PlainStore.lookup_ne_danglingSlot key engine.now) (by simp)
  | getWithSnapshot key =>
      exact conclude_ne_danglingSlot _ (PlainStore.lookup_ne_danglingSlot key engine.now) (by simp)
  | getSince key since =>
      exact conclude_ne_danglingSlot _
        (PlainStore.lookupSince_ne_danglingSlot key since engine.now) (by simp)
  | putIfAbsent key text =>
      rw [act, putIfAbsent]
      split
      · simp
      · exact conclude_ne_danglingSlot _
          (PlainStore.put_ne_danglingSlot key { text } {} readable) (by simp)
  | remove key => exact conclude_ne_danglingSlot _ (disposing_ne_danglingSlot _ _) (by simp)
  | clear => exact conclude_ne_danglingSlot _ (disposing_ne_danglingSlot _ _) (by simp)
  | setCapacity capacity =>
      cases capacity with
      | ofNat capacity =>
          exact conclude_ne_danglingSlot _ (disposing_ne_danglingSlot _ _) (by simp)
      | negSucc capacity => simp [act]
  | purge default => exact conclude_ne_danglingSlot _ (disposing_ne_danglingSlot _ _) (by simp)
  | enable interval survive name =>
      rw [act, enable]
      split
      · split
        · simp
        · simp only
          split <;> simp
      · simp
  | wake =>
      rw [act]
      split <;> simp
  | ask | setRefreshOnHit | disable | rest => simp [act]

end PlainEngine

/-! ## Sound engines -/

/-- No operation on the store meets a dangling reference, whatever it is given, and every walk along
the links ends within the arena. -/
structure Store.Intact (store : Store) : Prop where
  put : ∀ key value options moment, (store.put key value options moment).isSome
  lookup : ∀ key now, (store.lookup key now).isSome
  lookupSince : ∀ key since now, (store.lookupSince key since now).isSome
  remove : ∀ key, (store.remove key).isSome
  setCapacity : ∀ capacity, (store.setCapacity capacity).isSome
  sweep : ∀ now default, (store.sweep now default).isSome
  walk : ∀ fuel, store.chain.slots.size ≤ fuel →
    store.chain.slotsFrom fuel store.chain.newest = store.chain.order

theorem Store.Refines.isSome {α : Type} {outcome : Option (Outcome α)}
    {reference : Except Fault α × PlainStore} (refines : Refines outcome reference) :
    outcome.isSome := by
  rcases refines with ⟨done, rfl, -⟩
  rfl

theorem Chain.Sound.intact {store : Store} (sound : store.chain.Sound) : store.Intact where
  put key value options moment := (Store.put_refines sound key value options moment).isSome
  lookup key now := (Store.lookup_refines sound key now).isSome
  lookupSince key since now := (Store.lookupSince_refines sound key since now).isSome
  remove key := (Store.remove_refines sound key).isSome
  setCapacity capacity := (Store.setCapacity_refines sound capacity).isSome
  sweep now default := (Store.sweep_refines sound now default).isSome
  walk fuel enough := by
    rw [sound.linked.newest_eq]
    exact sound.linked.slotsFrom_eq [] rfl (Nat.le_trans sound.linked.length_le enough)

/-- The links of the chain, its directory and its free slots agree on an order of the occupied
slots, which are no more than the capacity allows. -/
structure Engine.Sound (engine : Engine) : Prop where
  represents : engine.store.chain.Represents engine.store.chain.order
  size_eq : engine.store.size = engine.store.chain.order.length
  size_le : engine.store.size ≤ engine.store.capacity

namespace Engine

variable {engine : Engine}

/-- Soundness is a matter of the chain alone but for the capacity. -/
theorem sound_of_fits (sound : engine.store.chain.Sound) (fits : engine.plain.store.Fits) :
    engine.Sound where
  represents := sound
  size_eq := by
    rw [Store.size, sound.size_eq, Chain.toList, List.filterMap_length_eq_length]
    intro slot member
    obtain ⟨entry, found⟩ := Chain.Represents.exists_entry sound member
    simp [found]
  size_le := Nat.le_trans (Nat.le_of_eq sound.size_eq) fits

theorem Sound.fits (sound : engine.Sound) : engine.plain.store.Fits :=
  Nat.le_trans (Nat.le_of_eq (Chain.Sound.size_eq sound.represents).symm) sound.size_le

/-- Every action keeps an engine sound and meets no dangling reference. -/
theorem Sound.run (sound : engine.Sound) (action : Action) :
    (action.run engine).2.Sound ∧ (action.run engine).1 ≠ .broken .danglingSlot := by
  have same := act_matches sound.represents action
  constructor
  · apply sound_of_fits same.1
    rw [same.plain_eq]
    exact PlainEngine.fits_act sound.fits action
  · rw [same.result_eq]
    exact engine.plain.act_ne_danglingSlot action

/-- An engine is sound at the end of a path if it is at its start. -/
theorem Sound.of_path {last : Engine} {events : List Event} (sound : engine.Sound)
    (path : Path engine events last) : last.Sound :=
  path.invariant (fun _ action sound => (sound.run action).1) sound

/-- On sound engines, what every event keeps true while it joins the past holds with all events of a
path in the past at its end. -/
theorem Sound.accumulates {last : Engine} {past events : List Event}
    {motive : Engine → List Event → Prop} (sound : engine.Sound)
    (joined : ∀ (event : Event) (past : List Event), event.engine.Sound →
      motive event.engine past → motive event.after (past ++ [event]))
    (path : Path engine events last) (initially : motive engine past) :
    motive last (past ++ events) := by
  have both : last.Sound ∧ motive last (past ++ events) := by
    apply path.accumulates (motive := fun engine past => engine.Sound ∧ motive engine past)
    · intro event past held
      exact ⟨(held.1.run event.action).1, joined event past held.1 held.2⟩
    · exact ⟨sound, initially⟩
  exact both.2

end Engine

namespace Origin

/-- An engine is made sound. -/
theorem sound (origin : Origin) : origin.engine.Sound := by
  obtain ⟨chainSound, same⟩ := origin.engine_plain
  apply Engine.sound_of_fits chainSound
  rw [same]
  cases origin with
  | create capacity epoch => exact Nat.zero_le _
  | ofConfig config epoch =>
      rw [plain, PlainEngine.ofConfig, PlainEngine.store_enable]
      exact Nat.zero_le _

/-- An engine stays sound through every program, from one action to the next, and none of its
operations ever meets a dangling reference. -/
theorem sound_throughout (origin : Origin) (calls : List Call) :
    (Call.runAll calls origin.engine).2.Sound ∧
      ∀ event ∈ Call.traceAll calls origin.engine,
        event.engine.Sound ∧ event.engine.store.Intact ∧
          event.reply ≠ .broken .danglingSlot ∧ event.after.Sound := by
  have path := Call.path_traceAll calls origin.engine
  constructor
  · exact origin.sound.of_path path
  · intro event member
    obtain ⟨past, future, split⟩ := List.append_of_mem member
    rw [split] at path
    have before := origin.sound.of_path path.split.1
    obtain ⟨after, safe⟩ := before.run event.action
    exact ⟨before, Chain.Sound.intact before.represents, safe, after⟩

/-- It stays sound when making room disposes of a faulty value. -/
theorem sound_throughout_faulty_eviction :
    let origin := Origin.create 2 0
    let calls := [Call.put "a" ⟨"1", false⟩ {}, .put "b" ⟨"2", true⟩ {}, .get "a"]
    let eviction : Event := ⟨(Call.runAll calls origin.engine).2, .put "c" ⟨"3", false⟩ {}⟩
    eviction ∈ Call.traceAll (calls ++ [.put "c" ⟨"3", false⟩ {}]) origin.engine ∧
      (eviction.reply matches .broken .disposal) ∧ eviction.after.Sound := by
  intro origin calls eviction
  have member : eviction ∈ Call.traceAll (calls ++ [.put "c" ⟨"3", false⟩ {}]) origin.engine :=
    .tail _ (.tail _ (.tail _ (.head _)))
  refine ⟨member, ?_, ((sound_throughout origin _).2 eviction member).2.2.2⟩
  decide +kernel

end Origin

end RecencyCache
