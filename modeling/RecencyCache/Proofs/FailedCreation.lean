import RecencyCache.Proofs.Creation
import RecencyCache.Proofs.Timeline

/-!
# Failed creations

A supplier may fail, with an error or by a fault of its own, after it has done anything to the engine.
The call then stores nothing: all that has happened is its lookup and what the supplier did. So in a
program each call that fails can be replaced by a lookup and the calls of its supplier. This is done
here at all depths, and leaves a program without any failure that has the same trace.
-/

namespace RecencyCache

/-- A supplier that ends so has made no value. -/
def Ending.fails : Ending → Bool
  | .value _ => false
  | .error | .broken => true

/-- A reply without the steps of the supplier. -/
def Reply.withoutSteps : Reply → Reply
  | .created text _ => .created text none
  | reply => reply

namespace Call

/-! ## Unfolding -/

mutual

/-- No supplier fails, at any depth. -/
def isSure : Call → Bool
  | .getOrCreate _ supplier ending => !ending.fails && areSure supplier
  | _ => true

/-- No supplier of these calls fails, at any depth. -/
def areSure : List Call → Bool
  | [] => true
  | call :: calls => call.isSure && areSure calls

end

mutual

/-- The calls that come to the same as a call on this engine. One whose supplier fails becomes a
lookup and the calls of its supplier, if this is called at all. -/
def unfold : Call → Engine → List Call
  | .getOrCreate key supplier ending, engine =>
      let calls := unfoldAll supplier (engine.get key).2
      if ending.fails then
        match (engine.get key).1 with
        | .ok none => .get key :: calls
        | _ => [.get key]
      else [.getOrCreate key calls ending]
  | call, _ => [call]

/-- The calls that come to the same as several calls, made one after the other. -/
def unfoldAll : List Call → Engine → List Call
  | [], _ => []
  | call :: calls, engine => call.unfold engine ++ unfoldAll calls (call.run engine).2

end

theorem areSure_append (calls others : List Call) :
    areSure (calls ++ others) = (areSure calls && areSure others) := by
  induction calls with
  | nil => rfl
  | cons call calls ih => rw [List.cons_append, areSure, areSure, ih, Bool.and_assoc]

mutual

theorem areSure_unfold (call : Call) (engine : Engine) : areSure (call.unfold engine) := by
  cases call with
  | getOrCreate key supplier ending =>
      have sure := areSure_unfoldAll supplier (engine.get key).2
      rw [unfold]
      cases fails : ending.fails with
      | true =>
          simp only [if_true]
          split
          · simpa [areSure, isSure] using sure
          · rfl
      | false => simpa [areSure, isSure, fails] using sure
  | _ => rfl

theorem areSure_unfoldAll (calls : List Call) (engine : Engine) :
    areSure (unfoldAll calls engine) := by
  cases calls with
  | nil => rfl
  | cons call calls =>
      rw [unfoldAll, areSure_append, areSure_unfold call engine, areSure_unfoldAll calls _]
      rfl

end

/-! ## Traces -/

theorem runAll_append (calls others : List Call) (engine : Engine) :
    runAll (calls ++ others) engine =
      ((runAll calls engine).1 ++ (runAll others (runAll calls engine).2).1,
        (runAll others (runAll calls engine).2).2) := by
  induction calls generalizing engine with
  | nil => rfl
  | cons call calls ih =>
      rw [List.cons_append, runAll, runAll]
      simp only [ih]
      rfl

theorem traceAll_append (calls others : List Call) (engine : Engine) :
    traceAll (calls ++ others) engine =
      traceAll calls engine ++ traceAll others (runAll calls engine).2 := by
  induction calls generalizing engine with
  | nil => rfl
  | cons call calls ih =>
      rw [List.cons_append, traceAll, traceAll, ih, List.append_assoc]
      rfl

/-- Programs with the same trace leave the same engine. -/
theorem left_of_trace_eq {calls others : List Call} {engine : Engine}
    (same : traceAll calls engine = traceAll others engine) :
    (runAll calls engine).2 = (runAll others engine).2 := by
  rw [← (path_traceAll calls engine).through_eq, same, (path_traceAll others engine).through_eq]

mutual

/-- Unfolding a call does not change its trace. -/
theorem traceAll_unfold (call : Call) (engine : Engine) :
    traceAll (call.unfold engine) engine = call.trace engine := by
  cases call with
  | getOrCreate key supplier ending =>
      rw [unfold, trace]
      rcases looked : engine.get key with ⟨fault | found, missed⟩
      · cases ending with
        | value text => simp [Ending.fails, traceAll, trace, looked]
        | error | broken => rfl
      · have same : traceAll (unfoldAll supplier missed) missed = traceAll supplier missed :=
          traceAll_unfoldAll supplier missed
        cases ending with
        | value text =>
            -- The suppliers leave the same engine, so the value meets the same.
            have left := left_of_trace_eq same
            cases found with
            | none => simp [Ending.fails, traceAll, trace, looked, same, left]
            | some found => simp [Ending.fails, traceAll, trace, looked]
        | error | broken =>
            cases found with
            | none =>
                have missedLeft : ((Call.get key).run engine).2 = missed := by rw [run, looked]
                simp [Ending.fails, traceAll, missedLeft, same, trace]
            | some found => rfl
  | _ => exact List.append_nil _

theorem traceAll_unfoldAll (calls : List Call) (engine : Engine) :
    traceAll (unfoldAll calls engine) engine = traceAll calls engine := by
  cases calls with
  | nil => rfl
  | cons call calls =>
      have same := traceAll_unfold call engine
      have left : (runAll (call.unfold engine) engine).2 = (call.run engine).2 := by
        rw [← (path_traceAll _ engine).through_eq, same, (call.path_trace engine).through_eq]
      rw [unfoldAll, traceAll_append, same, left, traceAll_unfoldAll calls _]
      rfl

end

/-- Unfolding its supplier does not change what a call answers that stores a value. -/
theorem withoutSteps_unfold (key : Key) (supplier : List Call) (text : String) (engine : Engine) :
    ((getOrCreate key (unfoldAll supplier (engine.get key).2) (.value text)).run
        engine).1.withoutSteps =
      ((getOrCreate key supplier (.value text)).run engine).1.withoutSteps := by
  rw [run, run]
  rcases engine.get key with ⟨fault | found, missed⟩
  · rfl
  · cases found with
    | some found => rfl
    | none =>
        have left := left_of_trace_eq (traceAll_unfoldAll supplier missed)
        simp only [left]
        cases ((runAll supplier missed).2.putIfAbsent key text).1 <;> rfl

end Call

/-! ## The call -/

/-- What comes of a call for the key whose supplier fails. -/
structure Engine.MakesNothing (engine : Engine) (key : Key) (supplier : List Call)
    (ending : Ending) : Prop where
  /-- A live entry is found, and the supplier is not called. -/
  found : ∀ entry, engine.store.live? key engine.now = some entry →
    let call := Call.getOrCreate key supplier ending
    call.run engine = (.created (some entry.value.text) none, (engine.get key).2) ∧
      call.trace engine = [⟨engine, .get key⟩]
  /-- Otherwise the lookup is a miss. -/
  missed : engine.store.live? key engine.now = none →
    engine.Misses key ((engine.store.chain.find? key).any (·.value.faulty)) (engine.get key).2
  /-- A miss that disposes of a faulty value breaks the call off, and the supplier is not called. -/
  broken : ∀ missed, engine.Misses key true missed →
    let call := Call.getOrCreate key supplier ending
    call.run engine = (.broken .disposal, missed) ∧ call.trace engine = [⟨engine, .get key⟩]
  /-- After any other miss the call answers with nothing, and all that has happened is the lookup and
  what the supplier has done. Whatever is called later, it goes on as after these alone. -/
  failed : ∀ missed, engine.Misses key false missed → ∀ later,
    let call := Call.getOrCreate key supplier ending
    ∃ steps left laterSteps last, Call.runAll supplier missed = (steps, left) ∧
      call.run engine = (.created none (some steps), left) ∧
      Call.runAll (call :: later) engine =
        (.mk (.created none (some steps)) left.view :: laterSteps, last) ∧
      Call.runAll (.get key :: (supplier ++ later)) engine =
        (.mk (.found none) missed.view :: (steps ++ laterSteps), last) ∧
      Call.traceAll (call :: later) engine = Call.traceAll (.get key :: (supplier ++ later)) engine
  /-- In this way all failing calls go from a program, at whatever depth, and nothing changes. -/
  unfolds : ∀ calls, let unfolded := Call.unfoldAll calls engine
    Call.areSure unfolded ∧ Call.traceAll unfolded engine = Call.traceAll calls engine ∧
      (Call.runAll unfolded engine).2 = (Call.runAll calls engine).2
  /-- A call that stores a value answers as before when they have gone from its supplier. -/
  outer : ∀ other calls text, let unfolded := Call.unfoldAll calls (engine.get other).2
    Call.unfold (.getOrCreate other calls (.value text)) engine =
        [.getOrCreate other unfolded (.value text)] ∧
      (Call.run (.getOrCreate other unfolded (.value text)) engine).1.withoutSteps =
        (Call.run (.getOrCreate other calls (.value text)) engine).1.withoutSteps

/-- Whatever a supplier does before it fails, the call adds nothing to it but the lookup. -/
theorem Engine.makes_nothing {engine : Engine} (sound : engine.Sound) (key : Key)
    (supplier : List Call) {ending : Ending} (fails : ending.fails = true) :
    engine.MakesNothing key supplier ending := by
  constructor
  case found =>
    intro entry live call
    have looked : engine.get key = (.ok (some entry.value.text), (engine.get key).2) :=
      Prod.ext (get_of_live sound live).1 rfl
    rw [Call.run, Call.trace, looked]
    exact ⟨rfl, rfl⟩
  case missed => exact fun dead => (get_of_dead sound dead).2
  case broken =>
    intro missed misses call
    have looked := (get_of_dead sound misses.dead).1
    rw [misses.faulty_eq] at looked
    have looked : engine.get key = (.error .disposal, missed) := Prod.ext looked misses.left
    rw [Call.run, Call.trace, looked]
    exact ⟨rfl, rfl⟩
  case failed =>
    intro missed misses later call
    have looked := (get_of_dead sound misses.dead).1
    rw [misses.faulty_eq] at looked
    have looked : engine.get key = (.ok none, missed) := Prod.ext looked misses.left
    have lookup : (Call.get key).run engine = (.found none, missed) := by
      rw [Call.run, looked]
      rfl
    rcases supplied : Call.runAll supplier missed with ⟨steps, left⟩
    rcases ran : Call.runAll later left with ⟨laterSteps, last⟩
    have called : call.run engine = (.created none (some steps), left) := by
      rw [Call.run, looked]
      simp only [supplied]
      cases ending with
      | value text => cases fails
      | error | broken => rfl
    have traced : call.trace engine = ⟨engine, .get key⟩ :: Call.traceAll supplier missed := by
      rw [Call.trace, looked]
      cases ending with
      | value text => cases fails
      | error | broken => simp
    refine ⟨steps, left, laterSteps, last, rfl, called, ?_, ?_, ?_⟩
    · rw [Call.runAll, called]
      simp only [ran]
    · rw [Call.runAll, lookup]
      simp only [Call.runAll_append, supplied, ran]
    · rw [Call.traceAll, Call.traceAll, called, traced, lookup, Call.traceAll_append, supplied]
      rfl
  case unfolds =>
    intro calls unfolded
    have same := Call.traceAll_unfoldAll calls engine
    exact ⟨Call.areSure_unfoldAll calls engine, same, Call.left_of_trace_eq same⟩
  case outer =>
    intro other calls text unfolded
    exact ⟨rfl, Call.withoutSteps_unfold other calls text engine⟩

/-- A supplier that stores under the key of its call, and has a call inside that fails, fails itself:
what it has stored remains. -/
theorem Engine.makes_nothing_nested :
    let engine := Engine.create 2 0
    let inner := Call.getOrCreate "b" [.put "c" ⟨"3", false⟩ {}] .broken
    let supplier := [Call.put "a" ⟨"1", false⟩ {}, inner]
    let call := Call.getOrCreate "a" supplier .error
    engine.MakesNothing "a" supplier .error ∧
      ((call.run engine).1 matches .created none (some _)) ∧
      (call.run engine).2.store.chain.toList.map (·.key) = ["c", "a"] ∧
      (call.run engine).2.store.counters = { requests := 2 } ∧
      (call.unfold engine).length = 4 := by
  intro engine inner supplier call
  have sound : engine.Sound := Origin.sound (.create 2 0)
  exact ⟨makes_nothing sound "a" supplier rfl, by decide +kernel, by decide +kernel,
    by decide +kernel, by decide +kernel⟩

/-- A call whose supplier fails may be broken off itself, by a dead entry with a faulty value. -/
theorem Engine.makes_fault_of_dead_entry :
    let engine := (Call.runAll [.put "a" ⟨"1", true⟩ { timeToLive := some 5 }, .advance 5]
      (Engine.create 1 0)).2
    let call := Call.getOrCreate "a" [.put "b" ⟨"2", false⟩ {}] .broken
    ((call.run engine).1 matches .broken .disposal) ∧
      (call.run engine).2.store.chain.toList.map (·.key) = [] ∧
      (Call.runAll [.get "a", .put "b" ⟨"2", false⟩ {}] engine).2.store.chain.toList.map (·.key) =
        ["b"] := by
  decide +kernel

end RecencyCache
