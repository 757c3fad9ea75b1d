import RecencyCache.Proofs.Soundness

/-!
# Timelines

The history of an engine begins before the engine starts a sweeper on its own. As far as the clock,
the switch and the sleepers are concerned, an event takes one of a few courses, whatever else it
does. In a history nobody misses the time to wake: while a sleeper is due, nothing happens but that
one wakes, and the clock only goes forward.
-/

namespace RecencyCache

/-! ## Histories -/

/-- The engine that is left after some events. -/
def Engine.through : Engine → List Event → Engine
  | engine, [] => engine
  | _, event :: events => event.after.through events

/-- Somebody wakes. -/
def Action.isWake : Action → Bool
  | .wake => true
  | _ => false

/-- These events end between two operations: the last of them is not that somebody wakes, after
which time may still be passing. -/
def Settled (events : List Event) : Prop :=
  ∀ event ∈ events.getLast?, event.action.isWake = false

instance (events : List Event) : Decidable (Settled events) :=
  inferInstanceAs (Decidable (∀ event ∈ events.getLast?, event.action.isWake = false))

namespace Path

variable {first last : Engine} {events : List Event}

theorem through_eq (path : Path first events last) : first.through events = last := by
  induction path with
  | nil => rfl
  | cons action _ ih => exact ih

/-- The beginning of a path is the path to the engine that it leaves. -/
theorem path_through {past : List Event} (path : Path first events last) (reached : past <+: events) :
    Path first past (first.through past) := by
  rcases reached with ⟨future, rfl⟩
  induction past generalizing first with
  | nil => exact .nil first
  | cons event past ih =>
      cases path with
      | cons action rest => exact .cons action (ih rest)

end Path

namespace Origin

/-- The engine before it starts a sweeper on its own. -/
def blank : Origin → Engine
  | .create capacity epoch => .create capacity epoch
  | .ofConfig config epoch =>
      { (Engine.create config.capacity epoch).setRefreshOnHit config.refreshOnHit with
        control := { surviveMillis := config.surviveMillis } }

/-- What makes the engine out of the blank one. -/
def opening : Origin → List Event
  | .create _ _ => []
  | .ofConfig config epoch =>
      [⟨(ofConfig config epoch).blank, .enable config.interval config.surviveTime none⟩]

/-- All events from the blank engine to the end of a program. -/
def history (origin : Origin) (calls : List Call) : List Event :=
  origin.opening ++ Call.traceAll calls origin.engine

theorem path_history (origin : Origin) (calls : List Call) :
    Path origin.blank (origin.history calls) (Call.runAll calls origin.engine).2 := by
  have path := Call.path_traceAll calls origin.engine
  cases origin with
  | create capacity epoch => exact path
  | ofConfig config epoch => exact .cons _ path

/-- All events of a program lead to the engine that the program leaves. -/
theorem through_history (origin : Origin) (calls : List Call) :
    origin.blank.through (origin.history calls) = (Call.runAll calls origin.engine).2 :=
  (origin.path_history calls).through_eq

theorem sound_blank (origin : Origin) : origin.blank.Sound := by
  cases origin with
  | create | ofConfig => exact Engine.sound_of_fits Chain.sound_empty (Nat.zero_le _)

end Origin

/-! ## Sleepers -/

namespace Sleeper

variable {sleepers before after : List Sleeper} {earliest : Sleeper}

theorem eq_nil_of_splitEarliest? (asleep : splitEarliest? sleepers = none) : sleepers = [] := by
  cases sleepers with
  | nil => rfl
  | cons sleeper rest =>
      rw [splitEarliest?] at asleep
      split at asleep
      · cases asleep
      · split at asleep <;> cases asleep

/-- Nobody wakes before the one that wakes first. -/
theorem wakeAt_le_of_splitEarliest? (split : splitEarliest? sleepers = some (before, earliest, after)) :
    ∀ sleeper ∈ sleepers, earliest.wakeAt ≤ sleeper.wakeAt := by
  induction sleepers generalizing before earliest after with
  | nil => simp
  | cons sleeper rest ih =>
      rw [splitEarliest?] at split
      split at split
      · rename_i alone
        cases split
        simp [eq_nil_of_splitEarliest? alone]
      · rename_i tailBefore tailEarliest tailAfter tailSplit
        have least := ih tailSplit
        split at split
        · rename_i first
          cases split
          refine List.forall_mem_cons.mpr ⟨Nat.le_refl _, ?_⟩
          exact fun other member => Nat.le_trans first (least other member)
        · rename_i later
          cases split
          exact List.forall_mem_cons.mpr ⟨Nat.le_of_not_le later, least⟩

end Sleeper

/-! ## Courses -/

namespace Event

/-- The sleeper that wakes. -/
def woken? (event : Event) : Option Sleeper :=
  match event.action with
  | .wake => (Sleeper.splitEarliest? event.engine.sleepers).map fun (_, sleeper, _) => sleeper
  | _ => none

theorem woken?_eq_none {event : Event} (operation : event.action.isWake = false) :
    event.woken? = none := by
  rw [woken?]
  split
  · rename_i wakes
    rw [wakes] at operation
    cases operation
  · rfl

theorem exists_split_of_woken? {event : Event} {sleeper : Sleeper}
    (woken : event.woken? = some sleeper) :
    event.action = .wake ∧ ∃ before later,
      Sleeper.splitEarliest? event.engine.sleepers = some (before, sleeper, later) := by
  rw [woken?] at woken
  split at woken
  · rename_i wakes
    obtain ⟨⟨before, _, later⟩, split, rfl⟩ := Option.map_eq_some_iff.mp woken
    exact ⟨wakes, before, later, split⟩
  · cases woken

/-- The sweeper that makes a pass: the sleeper that wakes, if it is the current one. -/
def pass? (event : Event) : Option Sleeper :=
  event.woken?.filter fun sleeper => event.engine.control.isCurrent sleeper.generation

/-- What an event may do to the clock, the switch and the sleepers of the engine that it meets. -/
inductive Course (engine : Engine) (action : Action) : Prop where
  /-- All three stay as they are. -/
  | aside (store : Store) : woken? ⟨engine, action⟩ = none →
      after ⟨engine, action⟩ = { engine with store } → Course engine action
  /-- A sweeper starts. -/
  | starts (sleeper : Sleeper) (survive : Nat) : woken? ⟨engine, action⟩ = none →
      engine.control.running = false → sleeper.generation = engine.control.generation →
      sleeper.wakeAt = engine.now + sleeper.interval →
      after ⟨engine, action⟩ =
        { engine with
          control := engine.control.start sleeper.interval survive
          sleepers := engine.sleepers ++ [sleeper] } → Course engine action
  /-- Sweeping is switched on for a sweeper whose name no thread can bear. -/
  | jams (interval survive : Nat) : woken? ⟨engine, action⟩ = none →
      engine.control.running = false →
      after ⟨engine, action⟩ = { engine with control := engine.control.start interval survive } →
      Course engine action
  /-- Sweeping is switched off. -/
  | stops : woken? ⟨engine, action⟩ = none → action = .disable →
      after ⟨engine, action⟩ = { engine with control := engine.control.stop } →
      Course engine action
  /-- The current sweeper makes a pass. -/
  | passes (before : List Sleeper) (sleeper : Sleeper) (later : List Sleeper) (store : Store) :
      woken? ⟨engine, action⟩ = some sleeper →
      engine.control.isCurrent sleeper.generation = true →
      engine.sleepers = before ++ sleeper :: later →
      (∀ other ∈ engine.sleepers, sleeper.wakeAt ≤ other.wakeAt) →
      after ⟨engine, action⟩ =
        { engine with
          store
          now := sleeper.wakeAt
          sleepers := before ++ sleeper.renewed :: later } → Course engine action
  /-- A sweeper that is not the current one ends. -/
  | ends (before : List Sleeper) (sleeper : Sleeper) (later : List Sleeper) :
      woken? ⟨engine, action⟩ = some sleeper →
      engine.control.isCurrent sleeper.generation = false →
      engine.sleepers = before ++ sleeper :: later →
      (∀ other ∈ engine.sleepers, sleeper.wakeAt ≤ other.wakeAt) →
      after ⟨engine, action⟩ =
        { engine with now := sleeper.wakeAt, sleepers := before ++ later } → Course engine action
  /-- Time passes. -/
  | rests (time : Nat) : woken? ⟨engine, action⟩ = none → action = .rest time →
      after ⟨engine, action⟩ = { engine with now := time } → Course engine action

end Event

namespace Engine

variable (engine : Engine)

theorem exists_adopt {α : Type} (outcome : Option (Outcome α)) :
    ∃ store, (engine.adopt outcome).2 = { engine with store } := by
  cases outcome with
  | none => exact ⟨engine.store, rfl⟩
  | some outcome => exact ⟨outcome.store, rfl⟩

theorem exists_putIfAbsent (key : Key) (text : String) :
    ∃ store, (engine.putIfAbsent key text).2 = { engine with store } := by
  rw [putIfAbsent]
  split
  · exact ⟨engine.store, rfl⟩
  · exact engine.exists_adopt _

theorem exists_setCapacity (capacity : Int) :
    ∃ store, (engine.setCapacity capacity).2 = { engine with store } := by
  cases capacity with
  | ofNat capacity => exact engine.exists_adopt (engine.store.setCapacity capacity)
  | negSucc capacity => exact ⟨engine.store, rfl⟩

theorem exists_sweepPass : ∃ store, engine.sweepPass = { engine with store } := by
  rw [sweepPass]
  split
  · exact ⟨_, rfl⟩
  · exact ⟨engine.store, rfl⟩

theorem now_wake (before : List Sleeper) (sleeper : Sleeper) (after : List Sleeper) :
    (engine.wake before sleeper after).now = sleeper.wakeAt := by
  rw [wake]
  split
  · obtain ⟨store, swept⟩ := exists_sweepPass { engine with now := sleeper.wakeAt }
    simp only [swept]
  · rfl

variable {engine}

/-- With a duration of zero or while one is running, no sweeper starts, and nothing is changed. -/
theorem enable_of_refused {interval survive : Nat} {name : Option String}
    (refused : interval = 0 ∨ survive = 0 ∨ engine.control.running = true) :
    engine.enable interval survive name = (.ok false, engine) := by
  rw [enable]
  split
  · rename_i positive
    obtain running : engine.control.running = true := by
      rcases refused with zero | zero | running
      · omega
      · omega
      · exact running
    rw [if_pos running]
  · rfl

/-- A sweeper that starts is asleep for one interval, and of the present generation. -/
theorem enable_of_started {interval survive : Nat} {name : Option String}
    (started : (engine.enable interval survive name).1 = .ok true) :
    ∃ sleeper : Sleeper, sleeper.interval = interval ∧
      sleeper.generation = engine.control.generation ∧
      sleeper.wakeAt = engine.now + interval ∧ engine.control.running = false ∧
      (engine.enable interval survive name).2 =
        { engine with
          control := engine.control.start interval survive
          sleepers := engine.sleepers ++ [sleeper] } := by
  rw [enable] at started ⊢
  split at started
  · rename_i positive
    rw [dif_pos positive]
    split at started
    · cases started
    · rename_i stopped
      rw [if_neg stopped]
      simp only at started ⊢
      split at started
      · cases started
      · rename_i bearable
        rw [if_neg bearable]
        exact ⟨_, rfl, rfl, rfl, by simpa using stopped, rfl⟩
  · cases started

end Engine

namespace Event

/-- An attempt to start a sweeper is refused, jams or takes effect. -/
theorem course_enable (engine : Engine) (interval survive : Nat) (name : Option String) :
    Course engine (.enable interval survive name) := by
  have left : after ⟨engine, .enable interval survive name⟩ =
      (engine.enable interval survive name).2 := rfl
  rw [Engine.enable] at left
  split at left
  · rename_i positive
    split at left
    · exact .aside engine.store rfl left
    · rename_i stopped
      rw [Bool.not_eq_true] at stopped
      simp only at left
      split at left
      · exact .jams interval survive rfl stopped left
      · let sleeper : Sleeper :=
          { name := name.getD Sleeper.defaultName
            generation := engine.control.generation
            interval
            interval_pos := positive.1
            wakeAt := engine.now + interval }
        exact .starts sleeper survive rfl stopped rfl rfl left
  · exact .aside engine.store rfl left

/-- The sleeper that is due first sweeps or ends. -/
theorem course_wake (engine : Engine) : Course engine .wake := by
  have left : after ⟨engine, .wake⟩ = (Action.wake.run engine).2 := rfl
  have woken : woken? ⟨engine, .wake⟩ =
      (Sleeper.splitEarliest? engine.sleepers).map fun (_, sleeper, _) => sleeper := rfl
  rw [Action.run] at left
  cases split : Sleeper.splitEarliest? engine.sleepers with
  | none =>
      rw [split] at left woken
      exact .aside engine.store woken left
  | some parts =>
      rcases parts with ⟨before, sleeper, later⟩
      have whole := Sleeper.eq_append_of_splitEarliest? split
      have least := Sleeper.wakeAt_le_of_splitEarliest? split
      simp only [split, Engine.wake] at left
      rw [split] at woken
      cases current : engine.control.isCurrent sleeper.generation with
      | true =>
          obtain ⟨store, swept⟩ := Engine.exists_sweepPass { engine with now := sleeper.wakeAt }
          rw [if_pos current, swept] at left
          exact .passes before sleeper later store woken current whole least left
      | false =>
          rw [if_neg (by simp [current])] at left
          exact .ends before sleeper later woken current whole least left

/-- Every action takes one of the courses. -/
theorem course (engine : Engine) (action : Action) : Course engine action := by
  have storing (unwoken : woken? ⟨engine, action⟩ = none)
      (left : ∃ store, after ⟨engine, action⟩ = { engine with store }) : Course engine action := by
    rcases left with ⟨store, same⟩
    exact .aside store unwoken same
  cases action with
  | ask question => exact storing rfl ⟨engine.store, rfl⟩
  | put key value options =>
      exact storing rfl (engine.exists_adopt (engine.store.put key value options engine.moment))
  | get key | getWithSnapshot key =>
      exact storing rfl (engine.exists_adopt (engine.store.lookup key engine.now))
  | getSince key since =>
      exact storing rfl (engine.exists_adopt (engine.store.lookupSince key since engine.now))
  | putIfAbsent key text => exact storing rfl (engine.exists_putIfAbsent key text)
  | remove key => exact storing rfl (engine.exists_adopt (engine.store.remove key))
  | clear => exact storing rfl (engine.exists_adopt (some engine.store.clear))
  | setCapacity capacity => exact storing rfl (engine.exists_setCapacity capacity)
  | setRefreshOnHit refreshOnHit => exact storing rfl ⟨{ engine.store with refreshOnHit }, rfl⟩
  | purge default =>
      exact storing rfl (engine.exists_adopt (engine.store.sweep engine.now default))
  | enable interval survive name => exact course_enable engine interval survive name
  | disable => exact .stops rfl rfl rfl
  | wake => exact course_wake engine
  | rest time => exact .rests time rfl rfl rfl

end Event

/-! ## Timely events -/

/-- Nobody asleep has missed the time to wake. -/
def Engine.Punctual (engine : Engine) : Prop :=
  ∀ sleeper ∈ engine.sleepers, engine.now ≤ sleeper.wakeAt

/-- Nobody asleep is due. -/
def Engine.Rested (engine : Engine) : Prop :=
  ∀ sleeper ∈ engine.sleepers, engine.now < sleeper.wakeAt

theorem Engine.Rested.punctual {engine : Engine} (rested : engine.Rested) : engine.Punctual :=
  fun sleeper member => Nat.le_of_lt (rested sleeper member)

/-- The event takes place while nobody is overdue, and while somebody is due it is that one
wakes. -/
structure Event.Timely (event : Event) : Prop where
  punctual : event.engine.Punctual
  rested : event.woken? = none → event.engine.Rested
  /-- Time passes forward, and not up to the time at which somebody wakes. -/
  forward : ∀ time, event.action = .rest time →
    event.engine.now ≤ time ∧ ∀ sleeper ∈ event.engine.sleepers, time < sleeper.wakeAt

namespace Event.Timely

variable {event : Event}

/-- An operation is timely if nobody is due. -/
theorem of_rested (rested : event.engine.Rested)
    (operation : ∀ time, event.action ≠ .rest time) : event.Timely where
  punctual := rested.punctual
  rested _ := rested
  forward time same := absurd same (operation time)

/-- Unless somebody wakes, nobody is due after the event either. -/
theorem rested_after (timely : event.Timely) (unwoken : event.woken? = none) :
    event.after.Rested := by
  rcases event with ⟨engine, action⟩
  have rested : engine.Rested := timely.rested unwoken
  cases course engine action with
  | aside store _ left | stops _ _ left | jams _ _ _ _ left =>
      rw [left]
      exact rested
  | starts sleeper survive _ _ _ due left =>
      have asleep : engine.now < sleeper.wakeAt :=
        due ▸ Nat.lt_add_of_pos_right sleeper.interval_pos
      rw [left]
      intro other member
      rcases List.mem_append.mp member with older | newest
      · exact rested other older
      · rw [List.mem_singleton.mp newest]
        exact asleep
  | passes _ _ _ _ woken | ends _ _ _ woken =>
      rw [unwoken] at woken
      cases woken
  | rests time _ resting left =>
      rw [left]
      exact (timely.forward time resting).2

/-- Nobody has missed the time to wake after the event. -/
theorem punctual_after (timely : event.Timely) : event.after.Punctual := by
  rcases event with ⟨engine, action⟩
  cases course engine action with
  | aside _ unwoken | starts _ _ unwoken | jams _ _ unwoken | stops unwoken | rests _ unwoken =>
      exact (timely.rested_after unwoken).punctual
  -- The clock now shows the time at which the first of them woke.
  | passes before sleeper later store _ _ whole least left =>
      rw [left]
      rw [whole] at least
      obtain ⟨least, others⟩ := List.forall_mem_append.mp least
      obtain ⟨-, others⟩ := List.forall_mem_cons.mp others
      refine List.forall_mem_append.mpr ⟨least, List.forall_mem_cons.mpr ⟨?_, others⟩⟩
      exact Nat.le_add_right _ _
  | ends before sleeper later _ _ whole least left =>
      rw [left]
      rw [whole] at least
      obtain ⟨least, others⟩ := List.forall_mem_append.mp least
      exact List.forall_mem_append.mpr ⟨least, (List.forall_mem_cons.mp others).2⟩

/-- The clock does not go back. -/
theorem now_le_after (timely : event.Timely) : event.engine.now ≤ event.after.now := by
  rcases event with ⟨engine, action⟩
  cases course engine action with
  | aside _ _ left | starts _ _ _ _ _ _ left | jams _ _ _ _ left | stops _ _ left =>
      exact Nat.le_of_eq (congrArg Engine.now left).symm
  | passes before sleeper later _ _ _ whole _ left | ends before sleeper later _ _ whole _ left =>
      rw [left]
      apply timely.punctual
      simp [whole]
  | rests time _ resting left =>
      rw [left]
      exact (timely.forward time resting).1

end Event.Timely

/-- Nobody has missed the time to wake at the end of a path. -/
theorem Path.punctual {first last : Engine} {events : List Event} (path : Path first events last)
    (timely : ∀ event ∈ events, event.Timely) (punctual : first.Punctual) : last.Punctual :=
  path.invariant_of_forall (fun _ timely _ => timely.punctual_after) timely punctual

/-- Nobody is due at the end of a path unless time is passing. -/
theorem Path.rested {first last : Engine} {events : List Event} (path : Path first events last)
    (timely : ∀ event ∈ events, event.Timely) (settled : Settled events)
    (rested : first.Rested) : last.Rested := by
  rcases List.eq_nil_or_concat events with rfl | ⟨earlier, event, rfl⟩
  · cases path
    exact rested
  · rw [List.concat_eq_append] at path timely settled
    have finished := path.split.2
    cases finished
    exact (timely event (by simp)).rested_after (Event.woken?_eq_none (settled event (by simp)))

/-! ## Timely histories -/

/-- Time may pass while nobody is due. -/
theorem Event.Timely.of_idle {engine : Engine} {time : Nat} (forward : engine.now ≤ time)
    (idle : ∀ sleeper ∈ engine.sleepers, time < sleeper.wakeAt) :
    Event.Timely ⟨engine, .rest time⟩ := by
  have rested : engine.Rested :=
    fun sleeper member => Nat.lt_of_le_of_lt forward (idle sleeper member)
  refine ⟨rested.punctual, fun _ => rested, ?_⟩
  intro other same
  cases same
  exact ⟨forward, idle⟩

/-- While time passes, those who are due wake one after the other, until nobody is. -/
theorem Engine.timely_wakings {engine : Engine} {target : Nat} (punctual : engine.Punctual)
    (forward : engine.now ≤ target) :
    (∀ event ∈ engine.wakings target, event.Timely) ∧ (engine.runUntil target).Rested := by
  -- Each waking leaves an engine on which nobody has missed the time to wake.
  fun_induction Engine.wakings engine target with
  | case1 engine asleep =>
      have idle : ∀ sleeper ∈ engine.sleepers, target < sleeper.wakeAt := by
        simp [Sleeper.eq_nil_of_splitEarliest? asleep]
      rw [runUntil_of_idle (by simp [asleep])]
      exact ⟨List.forall_mem_singleton.mpr (.of_idle forward idle), idle⟩
  | case2 engine before sleeper after split due ih =>
      have woken : Event.woken? ⟨engine, .wake⟩ = some sleeper := by
        simp [Event.woken?, split]
      have waking : Event.Timely ⟨engine, .wake⟩ := ⟨punctual, by simp [woken], by simp⟩
      have left : Event.after ⟨engine, .wake⟩ = engine.wake before sleeper after := by
        rw [Event.after, Action.run, split]
      rw [runUntil_of_due split due]
      have later : (engine.wake before sleeper after).now ≤ target := by
        rw [now_wake]
        exact due
      obtain ⟨rest, rested⟩ := ih (left ▸ waking.punctual_after) later
      exact ⟨List.forall_mem_cons.mpr ⟨waking, rest⟩, rested⟩
  | case3 engine before sleeper after split early =>
      have idle : ∀ other ∈ engine.sleepers, target < other.wakeAt := by
        intro other member
        have first := Sleeper.wakeAt_le_of_splitEarliest? split other member
        omega
      rw [runUntil_of_idle (by simpa [split] using early)]
      exact ⟨List.forall_mem_singleton.mpr (.of_idle forward idle), idle⟩

namespace Call

mutual

/-- If nobody is due at the start of a call, its events are timely and nobody is due at its end. -/
theorem timely_trace (call : Call) {engine : Engine} (rested : engine.Rested) :
    (∀ event ∈ call.trace engine, event.Timely) ∧ (call.run engine).2.Rested := by
  have operation (action : Action) (unwoken : Event.woken? ⟨engine, action⟩ = none)
      (operates : ∀ time, action ≠ .rest time) :
      (∀ event ∈ [(⟨engine, action⟩ : Event)], event.Timely) ∧ (action.run engine).2.Rested := by
    have timely : Event.Timely ⟨engine, action⟩ := .of_rested rested operates
    exact ⟨List.forall_mem_singleton.mpr timely, timely.rested_after unwoken⟩
  cases call with
  | getOrCreate key supplier ending =>
      obtain ⟨looking, looked⟩ := operation (.get key) rfl (by simp)
      change (engine.get key).2.Rested at looked
      rw [trace, run]
      generalize engine.get key = found at looked ⊢
      rcases found with ⟨fault | text, after⟩
      · exact ⟨looking, looked⟩
      · cases text with
        | some text => exact ⟨looking, looked⟩
        | none =>
            -- The supplier starts where the lookup has left the engine, and the end of the call
            -- takes place where the supplier has.
            obtain ⟨supplying, supplied⟩ := timely_traceAll supplier looked
            have before := List.forall_mem_append.mpr ⟨looking, supplying⟩
            cases ending with
            | value text =>
                have ended : Event.Timely ⟨(runAll supplier after).2, .putIfAbsent key text⟩ :=
                  .of_rested supplied (by simp)
                refine ⟨?_, ended.rested_after rfl⟩
                exact List.forall_mem_append.mpr ⟨before, List.forall_mem_singleton.mpr ended⟩
            | error | broken =>
                refine ⟨?_, supplied⟩
                simpa using before
  | advance duration =>
      exact Engine.timely_wakings rested.punctual (Nat.le_add_right _ _)
  | ask question => exact operation (.ask question) rfl (by simp)
  | put key value options => exact operation (.put key value options) rfl (by simp)
  | get key => exact operation (.get key) rfl (by simp)
  | getWithSnapshot key => exact operation (.getWithSnapshot key) rfl (by simp)
  | getSince key since => exact operation (.getSince key since) rfl (by simp)
  | remove key => exact operation (.remove key) rfl (by simp)
  | clear => exact operation .clear rfl (by simp)
  | setCapacity capacity => exact operation (.setCapacity capacity) rfl (by simp)
  | setRefreshOnHit refreshOnHit => exact operation (.setRefreshOnHit refreshOnHit) rfl (by simp)
  | purge default => exact operation (.purge default) rfl (by simp)
  | enable interval survive name => exact operation (.enable interval survive name) rfl (by simp)
  | disable => exact operation .disable rfl (by simp)

/-- If nobody is due at the start of several calls, their events are timely. -/
theorem timely_traceAll (calls : List Call) {engine : Engine} (rested : engine.Rested) :
    (∀ event ∈ traceAll calls engine, event.Timely) ∧ (runAll calls engine).2.Rested := by
  cases calls with
  | nil => exact ⟨by simp [traceAll], rested⟩
  | cons call calls =>
      obtain ⟨first, left⟩ := timely_trace call rested
      obtain ⟨rest, last⟩ := timely_traceAll calls left
      exact ⟨List.forall_mem_append.mpr ⟨first, rest⟩, last⟩

end

end Call

namespace Origin

theorem rested_blank (origin : Origin) : origin.blank.Rested := by
  cases origin with
  | create | ofConfig => exact List.forall_mem_nil _

/-- Every event of a history is timely. -/
theorem timely_history (origin : Origin) (calls : List Call) :
    ∀ event ∈ origin.history calls, event.Timely := by
  have rested := origin.rested_blank
  cases origin with
  | create capacity epoch => exact (Call.timely_traceAll calls rested).1
  | ofConfig config epoch =>
      have opening : Event.Timely ⟨_, .enable config.interval config.surviveTime none⟩ :=
        .of_rested rested (by simp)
      have later := Call.timely_traceAll calls (opening.rested_after rfl)
      exact List.forall_mem_cons.mpr ⟨opening, later.1⟩

end Origin

end RecencyCache
