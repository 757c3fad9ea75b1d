import RecencyCache.Proofs.Plain.Engine
import RecencyCache.Proofs.Refinement.Store

/-!
# Engines refine plain engines

An engine is seen as the plain engine with the plain store of its store. From the refinement of each
operation on the store follows that of each action, and by induction on the calls that of each
program: a plain engine has the same replies and views, down to those of nested suppliers.
-/

namespace RecencyCache

namespace Engine

/-- An engine without the slots, links and directory of its store. -/
def plain (engine : Engine) : PlainEngine where
  store := engine.store.plain
  control := engine.control
  sleepers := engine.sleepers
  now := engine.now
  epoch := engine.epoch

/-- A result and an engine are those of a reference, if the engine is seen as a plain one. Its chain
is sound. -/
def Matches {α : Type} (done : α × Engine) (reference : α × PlainEngine) : Prop :=
  done.2.store.chain.Sound ∧ (done.1, done.2.plain) = reference

namespace Matches

variable {α : Type} {done : α × Engine} {reference : α × PlainEngine}

theorem exists_eq (same : Matches done reference) :
    ∃ result after, done = (result, after) ∧ after.store.chain.Sound ∧
      reference = (result, after.plain) :=
  ⟨done.1, done.2, rfl, same.1, same.2.symm⟩

theorem result_eq (same : Matches done reference) : done.1 = reference.1 :=
  congrArg Prod.fst same.2

theorem plain_eq (same : Matches done reference) : done.2.plain = reference.2 :=
  congrArg Prod.snd same.2

theorem map {β : Type} (same : Matches done reference) (change : α → β) :
    Matches (change done.1, done.2) (change reference.1, reference.2) :=
  ⟨same.1, congrArg (fun done => (change done.1, done.2)) same.2⟩

end Matches

variable {engine : Engine} {key : Key}

/-! ## Reading -/

theorem size_plain (sound : engine.store.chain.Sound) :
    engine.plain.store.entries.length = engine.store.size :=
  Store.size_plain sound

theorem find?_plain (sound : engine.store.chain.Sound) (key : Key) :
    engine.plain.store.find? key = engine.store.chain.find? key :=
  Store.find?_plain sound key

theorem live?_plain (sound : engine.store.chain.Sound) (key : Key) :
    engine.plain.store.live? key engine.plain.now = engine.store.live? key engine.now :=
  Store.live?_plain sound key engine.now

theorem nodup_keys_plain (sound : engine.store.chain.Sound) :
    (engine.plain.store.entries.map (·.key)).Nodup :=
  sound.nodup_keys

/-! ## Questions -/

theorem diagnosis_plain (sound : engine.store.chain.Sound) :
    engine.plain.diagnosis = engine.diagnosis := by
  simp only [PlainEngine.diagnosis, diagnosis, Store.fillRate, plain, Store.size_plain sound]
  rfl

theorem debugText_plain (sound : engine.store.chain.Sound) :
    engine.plain.debugText = engine.debugText := by
  unfold PlainEngine.debugText debugText
  rw [size_plain sound]
  congr

mutual

/-- A plain engine answers every question alike. -/
theorem ask_plain (sound : engine.store.chain.Sound) (question : Query) :
    PlainEngine.ask question engine.plain = question.ask engine := by
  cases question with
  | contains key | peek key => rw [PlainEngine.ask, Query.ask, live?_plain sound]
  | snapshot key =>
      rw [PlainEngine.ask, Query.ask, live?_plain sound]
      rfl
  | size => rw [PlainEngine.ask, Query.ask, size_plain sound]
  | fillRate =>
      rw [PlainEngine.ask, Query.ask, size_plain sound]
      rfl
  | isEmpty =>
      rw [PlainEngine.ask, Query.ask, ← size_plain sound]
      cases engine.plain.store.entries <;> rfl
  | statistics => rw [PlainEngine.ask, Query.ask, ← Store.statistics_plain sound, plain]
  | diagnosis => rw [PlainEngine.ask, Query.ask, diagnosis_plain sound]
  | diagnosisText => rw [PlainEngine.ask, Query.ask, diagnosis_plain sound]
  | debugText => rw [PlainEngine.ask, Query.ask, debugText_plain sound]
  | traverse questions =>
      rw [PlainEngine.ask, Query.ask, askAll_plain sound questions,
        ← Store.liveByKey_plain sound]
      rfl
  | mostRecent =>
      rw [PlainEngine.ask, Query.ask, Store.mostRecentKey?_eq_head?]
      rfl
  | leastRecent =>
      rw [PlainEngine.ask, Query.ask, Store.leastRecentKey?_eq_getLast?]
      rfl
  | keysByRecency | capacity | refreshOnHit | sweepRunning | hitRate | sleepTimes => rfl

/-- A plain engine answers several questions alike. -/
theorem askAll_plain (sound : engine.store.chain.Sound) (questions : List Query) :
    PlainEngine.askAll questions engine.plain = Query.askAll questions engine := by
  cases questions with
  | nil => rfl
  | cons question questions =>
      rw [PlainEngine.askAll, Query.askAll, ask_plain sound question, askAll_plain sound questions]

end

/-! ## Actions -/

/-- An engine that adopts what refines a reference goes on with the store of the reference. -/
theorem adopt_matches {α : Type} (engine : Engine) {outcome : Option (Outcome α)}
    {reference : Except Fault α × PlainStore} (refines : Store.Refines outcome reference) :
    Matches (engine.adopt outcome) (reference.1, { engine.plain with store := reference.2 }) := by
  rcases refines with ⟨done, rfl, sound, rfl⟩
  exact ⟨sound, rfl⟩

theorem conclude_matches {α : Type} (engine : Engine) {outcome : Option (Outcome α)}
    {reference : Except Fault α × PlainStore} (refines : Store.Refines outcome reference)
    (tell : α → Reply) :
    Matches (.ofResult tell (engine.adopt outcome).1, (engine.adopt outcome).2)
      (engine.plain.conclude tell reference) :=
  (engine.adopt_matches refines).map (Reply.ofResult tell)

/-- The result may be changed before it is told. -/
theorem conclude_map_matches {α β : Type} (engine : Engine) {outcome : Option (Outcome α)}
    {reference : Except Fault α × PlainStore} (refines : Store.Refines outcome reference)
    (change : α → β) (tell : β → Reply) :
    Matches (.ofResult tell ((engine.adopt outcome).1.map change), (engine.adopt outcome).2)
      (engine.plain.conclude (tell ∘ change) reference) := by
  have told (result : Except Fault α) :
      Reply.ofResult tell (result.map change) = Reply.ofResult (tell ∘ change) result := by
    cases result <;> rfl
  rw [told]
  exact engine.conclude_matches refines _

theorem lookup_matches (sound : engine.store.chain.Sound) (key : Key) :
    Matches (engine.adopt (engine.store.lookup key engine.now))
      ((engine.plain.store.lookup key engine.plain.now).1,
        { engine.plain with store := (engine.plain.store.lookup key engine.plain.now).2 }) :=
  engine.adopt_matches (Store.lookup_refines sound key engine.now)

theorem putIfAbsent_matches (sound : engine.store.chain.Sound) (key : Key) (text : String)
    (tell : String → Reply) :
    Matches (.ofResult tell (engine.putIfAbsent key text).1, (engine.putIfAbsent key text).2)
      (engine.plain.putIfAbsent key text tell) := by
  rw [putIfAbsent, PlainEngine.putIfAbsent, live?_plain sound]
  cases engine.store.live? key engine.now with
  | some entry => exact ⟨sound, rfl⟩
  | none =>
      exact engine.conclude_map_matches
        (Store.put_refines sound key { text } {} engine.moment) _ tell

theorem enable_matches (sound : engine.store.chain.Sound) (interval survive : Nat)
    (name : Option String) :
    Matches
      (.ofResult .flag (engine.enable interval survive name).1,
        (engine.enable interval survive name).2)
      (engine.plain.enable interval survive name) := by
  rw [enable, PlainEngine.enable]
  by_cases positive : 0 < interval ∧ 0 < survive
  · have survives : survive ≠ 0 := Nat.ne_of_gt positive.2
    simp only [dif_pos positive, dif_pos positive.1, survives, false_or]
    by_cases running : engine.control.running = true
    · rw [if_pos running, if_pos (show engine.plain.control.running = true from running)]
      exact ⟨sound, rfl⟩
    · rw [if_neg running, if_neg (show ¬engine.plain.control.running = true from running)]
      split
      · exact ⟨sound, rfl⟩
      · exact ⟨sound, rfl⟩
  · rw [dif_neg positive]
    split
    · rename_i intervalPositive
      have dies : survive = 0 := by omega
      rw [if_pos (.inl dies)]
      exact ⟨sound, rfl⟩
    · exact ⟨sound, rfl⟩

theorem enable_plain (sound : engine.store.chain.Sound) (interval survive : Nat)
    (name : Option String) :
    (engine.enable interval survive name).2.store.chain.Sound ∧
      (engine.enable interval survive name).2.plain =
        (engine.plain.enable interval survive name).2 := by
  have same := enable_matches sound interval survive name
  exact ⟨same.1, same.plain_eq⟩

/-- A waking sleeper sweeps alike. -/
theorem wake_plain (sound : engine.store.chain.Sound) (before : List Sleeper) (sleeper : Sleeper)
    (after : List Sleeper) :
    (engine.wake before sleeper after).store.chain.Sound ∧
      (engine.wake before sleeper after).plain = engine.plain.wake before sleeper after := by
  obtain ⟨done, swept, doneSound, same⟩ :=
    Store.sweep_refines sound sleeper.wakeAt engine.control.surviveTime
  rw [wake, PlainEngine.wake]
  by_cases current : engine.control.isCurrent sleeper.generation = true
  · have currentPlain : engine.plain.control.isCurrent sleeper.generation = true := current
    simp only [sweepPass, swept, if_pos current, if_pos currentPlain]
    refine ⟨doneSound, ?_⟩
    rw [show engine.plain.store = engine.store.plain from rfl,
      show engine.plain.control = engine.control from rfl, ← same]
    rfl
  · have currentPlain : ¬engine.plain.control.isCurrent sleeper.generation = true := current
    simp only [if_neg current, if_neg currentPlain]
    exact ⟨sound, rfl⟩

/-- A plain engine replies to every action alike. -/
theorem act_matches (sound : engine.store.chain.Sound) (action : Action) :
    Matches (action.run engine) (PlainEngine.act action engine.plain) := by
  cases action with
  | ask question => exact ⟨sound, by rw [PlainEngine.act, ask_plain sound]; rfl⟩
  | put key value options =>
      exact engine.conclude_matches (Store.put_refines sound key value options engine.moment) _
  | get key =>
      exact engine.conclude_map_matches (Store.lookup_refines sound key engine.now) _ .found
  | getWithSnapshot key =>
      exact engine.conclude_map_matches (Store.lookup_refines sound key engine.now) _
        .foundWithSnapshot
  | getSince key since =>
      exact engine.conclude_map_matches (Store.lookupSince_refines sound key since engine.now) _
        .found
  | putIfAbsent key text => exact putIfAbsent_matches sound key text _
  | remove key => exact engine.conclude_matches (Store.remove_refines sound key) _
  | clear => exact engine.conclude_matches (Store.clear_refines sound) _
  | setCapacity capacity =>
      cases capacity with
      | ofNat capacity =>
          exact engine.conclude_map_matches (Store.setCapacity_refines sound capacity) _ _
      | negSucc capacity => exact ⟨sound, rfl⟩
  | setRefreshOnHit | disable | rest => exact ⟨sound, rfl⟩
  | purge default =>
      exact engine.conclude_matches (Store.sweep_refines sound engine.now default) _
  | enable interval survive name => exact enable_matches sound interval survive name
  | wake =>
      rw [Action.run, PlainEngine.act, show engine.plain.sleepers = engine.sleepers from rfl]
      cases Sleeper.splitEarliest? engine.sleepers with
      | none => exact ⟨sound, rfl⟩
      | some split =>
          rcases split with ⟨before, sleeper, after⟩
          obtain ⟨wokenSound, woken⟩ := wake_plain sound before sleeper after
          exact ⟨wokenSound, congrArg (Prod.mk Reply.done) woken⟩

end Engine

end RecencyCache
