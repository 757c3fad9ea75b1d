import RecencyCache.Proofs.Refinement.Engine

/-!
# The order of a sweep

A sweep finds out first which entries are to go and then takes them out one after the other. Nothing
says in which order, so there are as many ways to sweep as there are orders, and what a program may
come to depends on the order of each of its sweeps. The arenas that are left may differ, but nothing
that can be seen of them: all ways lead to the same replies, and to engines that are seen as the same
plain engine.
-/

namespace RecencyCache

/-! ## Sweeps in any order -/

namespace Engine

/-- Purges the engine of the entries in the given slots, in this order. -/
def purgeSlots (engine : Engine) (slots : List Nat) : Answer Nat :=
  engine.adopt (engine.store.sweepSlots slots)

/-- The engine may be left so when the sleeper between `before` and `after` wakes. -/
inductive WakesTo (engine : Engine) (before : List Sleeper) (sleeper : Sleeper)
    (after : List Sleeper) : Engine → Prop where
  | passes {slots : List Nat} : engine.control.isCurrent sleeper.generation = true →
      engine.store.Dooms sleeper.wakeAt engine.control.surviveTime slots →
      WakesTo engine before sleeper after
        { (purgeSlots { engine with now := sleeper.wakeAt } slots).2 with
          sleepers := before ++ sleeper.renewed :: after }
  | ends : ¬engine.control.isCurrent sleeper.generation = true →
      WakesTo engine before sleeper after
        { engine with now := sleeper.wakeAt, sleepers := before ++ after }

/-- The engine may be left so when time has passed up to `target`. -/
inductive RunsUntil (target : Nat) : Engine → Engine → Prop where
  | idle {engine : Engine} :
      (∀ before sleeper after,
        Sleeper.splitEarliest? engine.sleepers = some (before, sleeper, after) →
          ¬sleeper.wakeAt ≤ target) →
      RunsUntil target engine { engine with now := target }
  | due {engine woken last : Engine} {before after : List Sleeper} {sleeper : Sleeper} :
      Sleeper.splitEarliest? engine.sleepers = some (before, sleeper, after) →
      sleeper.wakeAt ≤ target → engine.WakesTo before sleeper after woken →
      RunsUntil target woken last → RunsUntil target engine last

end Engine

/-- The end of a call that gets or creates a value, after its supplier has ended. -/
def Ending.conclude (key : Key) (steps : List Step) (engine : Engine) : Ending → Reply × Engine
  | .value text =>
      (.ofResult (fun text => .created (some text) (some steps)) (engine.putIfAbsent key text).1,
        (engine.putIfAbsent key text).2)
  | .error | .broken => (.created none (some steps), engine)

namespace Call

mutual

/-- A call may come to this reply and engine, in whatever order its sweeps take the entries out. -/
def Comes : Call → Engine → Reply × Engine → Prop
  | .purge default, engine, done =>
      ∃ slots, engine.store.Dooms engine.now default slots ∧
        done = (.ofResult .count (engine.purgeSlots slots).1, (engine.purgeSlots slots).2)
  | .advance duration, engine, done =>
      ∃ later, engine.RunsUntil (engine.now + duration) later ∧ done = (.done, later)
  | .getOrCreate key supplier ending, engine, done =>
      match engine.get key with
      | (.error fault, engine) => done = (.broken fault, engine)
      | (.ok (some text), engine) => done = (.created (some text) none, engine)
      | (.ok none, engine) =>
          ∃ steps left, ComesAll supplier engine (steps, left) ∧
            done = ending.conclude key steps left
  | call, engine, done => done = call.run engine

/-- Several calls may come to these steps and this engine. -/
def ComesAll : List Call → Engine → List Step × Engine → Prop
  | [], engine, done => done = ([], engine)
  | call :: calls, engine, done =>
      ∃ reply between steps left, call.Comes engine (reply, between) ∧
        ComesAll calls between (steps, left) ∧ done = (.mk reply between.view :: steps, left)

end

end Call

/-! ## The order of the keys -/

namespace Engine

theorem exists_purge_eq (engine : Engine) (default : Option Nat) :
    ∃ slots, engine.store.Dooms engine.now default slots ∧
      engine.purge default = engine.purgeSlots slots := by
  obtain ⟨slots, dooms, same⟩ := engine.store.exists_sweep_eq engine.now default
  exact ⟨slots, dooms, by rw [purge, same]; rfl⟩

/-- A pass leaves what a purge leaves, whatever the result of the purge would be. -/
theorem exists_sweepPass_eq (engine : Engine) :
    ∃ slots, engine.store.Dooms engine.now engine.control.surviveTime slots ∧
      engine.sweepPass = (engine.purgeSlots slots).2 := by
  obtain ⟨slots, dooms, same⟩ :=
    engine.store.exists_sweep_eq engine.now engine.control.surviveTime
  refine ⟨slots, dooms, ?_⟩
  rw [sweepPass, same, purgeSlots]
  cases engine.store.sweepSlots slots <;> rfl

theorem wakesTo_wake (engine : Engine) (before : List Sleeper) (sleeper : Sleeper)
    (after : List Sleeper) :
    engine.WakesTo before sleeper after (engine.wake before sleeper after) := by
  rw [wake]
  by_cases current : engine.control.isCurrent sleeper.generation = true
  · obtain ⟨slots, dooms, same⟩ := exists_sweepPass_eq { engine with now := sleeper.wakeAt }
    simp only [if_pos current, same]
    exact .passes current dooms
  · simp only [if_neg current]
    exact .ends current

theorem runsUntil_runUntil (engine : Engine) (target : Nat) :
    engine.RunsUntil target (engine.runUntil target) := by
  fun_induction runUntil engine target with
  | case1 engine asleep => exact .idle (by simp [asleep])
  | case2 engine before sleeper after split due ih =>
      exact .due split due (engine.wakesTo_wake before sleeper after) ih
  | case3 engine before sleeper after split early => exact .idle (by simpa [split] using early)

end Engine

namespace Call

mutual

/-- What a call comes to if each sweep goes by the order of the keys. -/
theorem comes_run (call : Call) (engine : Engine) : call.Comes engine (call.run engine) := by
  cases call with
  | purge default =>
      obtain ⟨slots, dooms, same⟩ := engine.exists_purge_eq default
      rw [Comes, run, same]
      exact ⟨slots, dooms, rfl⟩
  | advance duration => exact ⟨_, engine.runsUntil_runUntil _, rfl⟩
  | getOrCreate key supplier ending =>
      rw [Comes, run]
      rcases engine.get key with ⟨fault | found, missed⟩
      · rfl
      · cases found with
        | some text => rfl
        | none =>
            refine ⟨_, _, comesAll_runAll supplier missed, ?_⟩
            cases ending <;> rfl
  | _ => rfl

theorem comesAll_runAll (calls : List Call) (engine : Engine) :
    ComesAll calls engine (runAll calls engine) := by
  cases calls with
  | nil => rfl
  | cons call calls => exact ⟨_, _, _, _, call.comes_run engine, comesAll_runAll calls _, rfl⟩

end

end Call

/-! ## All orders alike -/

namespace Engine

variable {engine : Engine}

theorem purgeSlots_matches (sound : engine.store.chain.Sound) {default : Option Nat}
    {slots : List Nat} (dooms : engine.store.Dooms engine.now default slots) :
    Matches (engine.purgeSlots slots)
      ((engine.plain.store.sweep engine.now default).1,
        { engine.plain with store := (engine.plain.store.sweep engine.now default).2 }) :=
  engine.adopt_matches (Store.sweepSlots_refines sound dooms)

theorem WakesTo.plain_eq {woken : Engine} {before after : List Sleeper} {sleeper : Sleeper}
    (wakes : engine.WakesTo before sleeper after woken) (sound : engine.store.chain.Sound) :
    woken.store.chain.Sound ∧ woken.plain = engine.plain.wake before sleeper after := by
  rw [PlainEngine.wake]
  cases wakes with
  | passes current dooms =>
      let timed : Engine := { engine with now := sleeper.wakeAt }
      have passed := purgeSlots_matches (show timed.store.chain.Sound from sound) dooms
      rw [if_pos (show engine.plain.control.isCurrent sleeper.generation = true from current)]
      refine ⟨passed.1, ?_⟩
      let asleep (engine : PlainEngine) :=
        { engine with sleepers := before ++ sleeper.renewed :: after }
      exact congrArg asleep passed.plain_eq
  | ends outdated =>
      rw [if_neg (show ¬engine.plain.control.isCurrent sleeper.generation = true from outdated)]
      exact ⟨sound, rfl⟩

theorem RunsUntil.plain_eq {target : Nat} {last : Engine} (runs : engine.RunsUntil target last)
    (sound : engine.store.chain.Sound) :
    last.store.chain.Sound ∧ last.plain = engine.plain.runUntil target := by
  induction runs with
  | idle early => exact ⟨sound, .symm (PlainEngine.runUntil_of_idle early)⟩
  | @due engine woken last before after sleeper split due wakes _ ih =>
      obtain ⟨wokenSound, same⟩ := wakes.plain_eq sound
      rw [PlainEngine.runUntil_of_due split due, ← same]
      exact ih wokenSound

end Engine

/-- A plain engine looks alike. -/
theorem Engine.view_plain {engine : Engine} (sound : engine.store.chain.Sound) :
    engine.plain.view = engine.view := by
  rw [PlainEngine.view, view, ← size_plain sound]
  rfl

namespace Call

mutual

/-- Whatever a call may come to, a plain engine comes to the same. -/
theorem Comes.matches {call : Call} {engine : Engine} {done : Reply × Engine}
    (comes : call.Comes engine done) (sound : engine.store.chain.Sound) :
    Engine.Matches done (PlainEngine.run call engine.plain) := by
  cases call with
  | purge default =>
      obtain ⟨slots, dooms, rfl⟩ := comes
      exact (Engine.purgeSlots_matches sound dooms).map (Reply.ofResult .count)
  | advance duration =>
      obtain ⟨later, runs, rfl⟩ := comes
      obtain ⟨laterSound, same⟩ := runs.plain_eq sound
      exact ⟨laterSound, congrArg (Prod.mk Reply.done) same⟩
  | getOrCreate key supplier ending =>
      obtain ⟨looked, found, ran, foundSound, same⟩ := (Engine.lookup_matches sound key).exists_eq
      rw [Comes, Engine.get, ran] at comes
      rw [PlainEngine.run]
      generalize engine.plain.store.lookup key engine.plain.now = reference at same ⊢
      rcases reference with ⟨result, store⟩
      obtain ⟨rfl, left⟩ := Prod.mk.inj same
      cases result with
      | error fault =>
          cases comes
          exact ⟨foundSound, congrArg (Prod.mk (Reply.broken fault)) left.symm⟩
      | ok entry =>
          cases entry with
          | some entry =>
              cases comes
              exact ⟨foundSound,
                congrArg (Prod.mk (Reply.created (some entry.value.text) none)) left.symm⟩
          | none =>
              obtain ⟨steps, supplied, comesSupplier, rfl⟩ := comes
              obtain ⟨suppliedSound, sameSupplied⟩ := comesSupplier.matches foundSound
              simp only [left, ← sameSupplied]
              cases ending with
              | value text => exact Engine.putIfAbsent_matches suppliedSound key text _
              | error | broken => exact ⟨suppliedSound, rfl⟩
  -- No other call sweeps, so it comes to one end only.
  | ask question => exact comes ▸ Engine.act_matches sound (.ask question)
  | put key value options => exact comes ▸ Engine.act_matches sound (.put key value options)
  | get key => exact comes ▸ Engine.act_matches sound (.get key)
  | getWithSnapshot key => exact comes ▸ Engine.act_matches sound (.getWithSnapshot key)
  | getSince key since => exact comes ▸ Engine.act_matches sound (.getSince key since)
  | remove key => exact comes ▸ Engine.act_matches sound (.remove key)
  | clear => exact comes ▸ Engine.act_matches sound .clear
  | setCapacity capacity => exact comes ▸ Engine.act_matches sound (.setCapacity capacity)
  | setRefreshOnHit refreshOnHit =>
      exact comes ▸ Engine.act_matches sound (.setRefreshOnHit refreshOnHit)
  | enable interval survive name =>
      exact comes ▸ Engine.act_matches sound (.enable interval survive name)
  | disable => exact comes ▸ Engine.act_matches sound .disable

/-- Whatever several calls may come to, a plain engine comes to the same. -/
theorem ComesAll.matches {calls : List Call} {engine : Engine} {done : List Step × Engine}
    (comes : ComesAll calls engine done) (sound : engine.store.chain.Sound) :
    Engine.Matches done (PlainEngine.runAll calls engine.plain) := by
  cases calls with
  | nil =>
      cases comes
      exact ⟨sound, rfl⟩
  | cons call calls =>
      obtain ⟨reply, between, steps, left, comes, comesRest, rfl⟩ := comes
      obtain ⟨betweenSound, same⟩ := comes.matches sound
      obtain ⟨leftSound, sameRest⟩ := comesRest.matches betweenSound
      rw [PlainEngine.runAll, ← same]
      simp only [← sameRest, Engine.view_plain betweenSound]
      exact ⟨leftSound, rfl⟩

end

end Call

end RecencyCache
