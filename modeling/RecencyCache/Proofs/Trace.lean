import RecencyCache.Program

/-!
# Traces

A program is taken apart into actions, which happen in one go: the calls of the program and of all
suppliers that it calls, with a call that gets or creates taken apart into its lookup and its end,
and the passing of time into the waking of one sleeper after the other. The trace of a program
lists its actions in the order in which they happen, each with the engine that it meets. It is a
path from the engine on which the program starts to the engine that the program leaves.
-/

namespace RecencyCache

/-- How an engine is made. -/
inductive Origin where
  | create (capacity : Nat) (epoch : Int)
  | ofConfig (config : Config) (epoch : Int)

/-- The engine that is made. -/
def Origin.engine : Origin → Engine
  | .create capacity epoch => .create capacity epoch
  | .ofConfig config epoch => .ofConfig config epoch

/-- What happens to an engine in one go. -/
inductive Action where
  | ask (question : Query)
  | put (key : Key) (value : Value) (options : EntryOptions)
  | get (key : Key)
  | getWithSnapshot (key : Key)
  | getSince (key : Key) (since : Int)
  /-- The end of a call whose supplier has made a value. -/
  | putIfAbsent (key : Key) (text : String)
  | remove (key : Key)
  | clear
  | setCapacity (capacity : Int)
  | setRefreshOnHit (refreshOnHit : Bool)
  | purge (default : Option Nat)
  | enable (interval survive : Nat) (name : Option String)
  | disable
  /-- The sleeper that is due first wakes. -/
  | wake
  /-- Time passes during which nobody wakes. -/
  | rest (time : Nat)

namespace Action

/-- The reply to an action, and the engine after it. -/
def run : Action → Engine → Reply × Engine
  | .ask question, engine => (.finding (question.ask engine), engine)
  | .put key value options, engine =>
      let (result, engine) := engine.put key value options
      (.ofResult (fun _ => .done) result, engine)
  | .get key, engine =>
      let (result, engine) := engine.get key
      (.ofResult .found result, engine)
  | .getWithSnapshot key, engine =>
      let (result, engine) := engine.getWithSnapshot key
      (.ofResult .foundWithSnapshot result, engine)
  | .getSince key since, engine =>
      let (result, engine) := engine.getSince key since
      (.ofResult .found result, engine)
  | .putIfAbsent key text, engine =>
      let (result, engine) := engine.putIfAbsent key text
      (.ofResult (fun text => .found (some text)) result, engine)
  | .remove key, engine =>
      let (result, engine) := engine.remove key
      (.ofResult .flag result, engine)
  | .clear, engine =>
      let (result, engine) := engine.clear
      (.ofResult (fun _ => .done) result, engine)
  | .setCapacity capacity, engine =>
      let (result, engine) := engine.setCapacity capacity
      let tell
        | .ok _ => .done
        | .error refusal => .refused refusal
      (.ofResult tell result, engine)
  | .setRefreshOnHit refreshOnHit, engine => (.done, engine.setRefreshOnHit refreshOnHit)
  | .purge default, engine =>
      let (result, engine) := engine.purge default
      (.ofResult .count result, engine)
  | .enable interval survive name, engine =>
      let (result, engine) := engine.enable interval survive name
      (.ofResult .flag result, engine)
  | .disable, engine => (.done, engine.disable)
  | .wake, engine =>
      match Sleeper.splitEarliest? engine.sleepers with
      | none => (.done, engine)
      | some (before, sleeper, after) => (.done, engine.wake before sleeper after)
  | .rest time, engine => (.done, { engine with now := time })

end Action

/-- An action with the engine that it meets. -/
structure Event where
  engine : Engine
  action : Action

namespace Event

/-- The reply to the action. -/
def reply (event : Event) : Reply := (event.action.run event.engine).1

/-- The engine after the action. -/
def after (event : Event) : Engine := (event.action.run event.engine).2

end Event

/-! ## Traces of programs -/

/-- The events while time passes up to `target`. -/
def Engine.wakings (engine : Engine) (target : Nat) : List Event :=
  match _split : Sleeper.splitEarliest? engine.sleepers with
  | none => [⟨engine, .rest target⟩]
  | some (before, sleeper, after) =>
      if sleeper.wakeAt ≤ target then
        ⟨engine, .wake⟩ :: (engine.wake before sleeper after).wakings target
      else [⟨engine, .rest target⟩]
termination_by Sleeper.slack target engine.sleepers
decreasing_by
  rw [Sleeper.eq_append_of_splitEarliest? _split]
  exact Engine.slack_wake_lt (by assumption)

namespace Call

mutual

/-- The events of a call, those of its supplier included. -/
def trace : Call → Engine → List Event
  | .ask question, engine => [⟨engine, .ask question⟩]
  | .put key value options, engine => [⟨engine, .put key value options⟩]
  | .get key, engine => [⟨engine, .get key⟩]
  | .getWithSnapshot key, engine => [⟨engine, .getWithSnapshot key⟩]
  | .getSince key since, engine => [⟨engine, .getSince key since⟩]
  | .getOrCreate key supplier ending, engine =>
      let ended : Engine → List Event := fun engine =>
        match ending with
        | .value text => [⟨engine, .putIfAbsent key text⟩]
        | .error | .broken => []
      let supplied : List Event :=
        match engine.get key with
        | (.ok none, engine) =>
            traceAll supplier engine ++ ended (runAll supplier engine).2
        | _ => []
      ⟨engine, .get key⟩ :: supplied
  | .remove key, engine => [⟨engine, .remove key⟩]
  | .clear, engine => [⟨engine, .clear⟩]
  | .setCapacity capacity, engine => [⟨engine, .setCapacity capacity⟩]
  | .setRefreshOnHit refreshOnHit, engine => [⟨engine, .setRefreshOnHit refreshOnHit⟩]
  | .purge default, engine => [⟨engine, .purge default⟩]
  | .enable interval survive name, engine => [⟨engine, .enable interval survive name⟩]
  | .disable, engine => [⟨engine, .disable⟩]
  | .advance duration, engine => engine.wakings (engine.now + duration)

/-- The events of several calls, made one after the other. -/
def traceAll : List Call → Engine → List Event
  | [], _ => []
  | call :: calls, engine => call.trace engine ++ traceAll calls (call.run engine).2

end

end Call

/-! ## Paths -/

/-- Each event happens to the engine that the one before it leaves. -/
inductive Path : Engine → List Event → Engine → Prop where
  | nil (engine : Engine) : Path engine [] engine
  | cons {engine last : Engine} {events : List Event} (action : Action) :
      Path (action.run engine).2 events last → Path engine (⟨engine, action⟩ :: events) last

namespace Path

variable {first middle last : Engine} {events before after : List Event} {event : Event}

theorem single (engine : Engine) (action : Action) :
    Path engine [⟨engine, action⟩] (action.run engine).2 :=
  .cons action (.nil _)

theorem append (front : Path first before middle) (back : Path middle after last) :
    Path first (before ++ after) last := by
  induction front with
  | nil => exact back
  | cons action _ ih => exact .cons action (ih back)

/-- A path divides at each of its events. -/
theorem split (path : Path first (before ++ event :: after) last) :
    Path first before event.engine ∧ Path event.after after last := by
  induction before generalizing first with
  | nil =>
      cases path with
      | cons action rest => exact ⟨.nil _, rest⟩
  | cons head tail ih =>
      cases path with
      | cons action rest =>
          obtain ⟨front, back⟩ := ih rest
          exact ⟨.cons action front, back⟩

/-- What every event of a kind preserves holds at the end of a path of such events if it holds at its
start. -/
theorem invariant_of_forall {kind : Event → Prop} {motive : Engine → Prop}
    (preserved : ∀ event : Event, kind event → motive event.engine → motive event.after)
    (path : Path first events last) (all : ∀ event ∈ events, kind event)
    (initially : motive first) : motive last := by
  induction path with
  | nil => exact initially
  | cons action _ ih =>
      obtain ⟨now, later⟩ := List.forall_mem_cons.mp all
      exact ih later (preserved _ now initially)

/-- What every action preserves holds at the end of a path if it holds at its start. -/
theorem invariant {property : Engine → Prop}
    (preserved : ∀ engine action, property engine → property (Action.run action engine).2)
    (path : Path first events last) (initially : property first) : property last :=
  path.invariant_of_forall (fun event _ => preserved event.engine event.action)
    (fun _ _ => trivial) initially

/-- What every event keeps true while it joins the past holds with all events of a path in the past
at its end. -/
theorem accumulates {motive : Engine → List Event → Prop} {past : List Event}
    (joined : ∀ (event : Event) (past : List Event),
      motive event.engine past → motive event.after (past ++ [event]))
    (path : Path first events last) (initially : motive first past) :
    motive last (past ++ events) := by
  induction path generalizing past with
  | nil => rwa [List.append_nil]
  | @cons engine last events action _ ih =>
      have later := ih (joined ⟨engine, action⟩ past initially)
      rwa [List.append_assoc] at later

end Path

/-- While nobody is due, time passes at once. -/
theorem Engine.runUntil_of_idle {engine : Engine} {target : Nat}
    (idle : ∀ before sleeper after,
      Sleeper.splitEarliest? engine.sleepers = some (before, sleeper, after) →
        ¬sleeper.wakeAt ≤ target) :
    engine.runUntil target = { engine with now := target } := by
  rw [runUntil]
  split
  · rfl
  · rename_i split
    rw [if_neg (idle _ _ _ split)]

/-- The sleeper that is due first wakes before the others. -/
theorem Engine.runUntil_of_due {engine : Engine} {target : Nat} {before after : List Sleeper}
    {sleeper : Sleeper}
    (split : Sleeper.splitEarliest? engine.sleepers = some (before, sleeper, after))
    (due : sleeper.wakeAt ≤ target) :
    engine.runUntil target = (engine.wake before sleeper after).runUntil target := by
  rw [runUntil]
  split
  · rename_i asleep
    simp [split] at asleep
  · rename_i again
    cases split.symm.trans again
    rw [if_pos due]

/-- While nobody is due, nothing happens but that time passes. -/
theorem Engine.wakings_of_idle {engine : Engine} {target : Nat}
    (idle : ∀ before sleeper after,
      Sleeper.splitEarliest? engine.sleepers = some (before, sleeper, after) →
        ¬sleeper.wakeAt ≤ target) :
    engine.wakings target = [⟨engine, .rest target⟩] := by
  rw [wakings]
  split
  · rfl
  · rename_i split
    rw [if_neg (idle _ _ _ split)]

/-- The waking of the sleeper that is due first happens before the others. -/
theorem Engine.wakings_of_due {engine : Engine} {target : Nat} {before after : List Sleeper}
    {sleeper : Sleeper}
    (split : Sleeper.splitEarliest? engine.sleepers = some (before, sleeper, after))
    (due : sleeper.wakeAt ≤ target) :
    engine.wakings target =
      ⟨engine, .wake⟩ :: (engine.wake before sleeper after).wakings target := by
  rw [wakings]
  split
  · rename_i asleep
    simp [split] at asleep
  · rename_i again
    cases split.symm.trans again
    rw [if_pos due]

/-- The passing of time is the waking of one sleeper after the other. -/
theorem Engine.path_wakings (engine : Engine) (target : Nat) :
    Path engine (engine.wakings target) (engine.runUntil target) := by
  fun_induction Engine.wakings engine target with
  | case1 engine asleep =>
      rw [runUntil_of_idle (by simp [asleep])]
      exact .single engine (.rest target)
  | case2 engine before sleeper after split due ih =>
      rw [runUntil_of_due split due]
      refine .cons .wake ?_
      rw [Action.run, split]
      exact ih
  | case3 engine before sleeper after split early =>
      rw [runUntil_of_idle (by simpa [split] using early)]
      exact .single engine (.rest target)

namespace Call

mutual

/-- The trace of a call leads to the engine that the call leaves. -/
theorem path_trace (call : Call) (engine : Engine) :
    Path engine (call.trace engine) (call.run engine).2 := by
  cases call with
  | getOrCreate key supplier ending =>
      rw [trace, run]
      refine .cons (.get key) ?_
      rw [Action.run]
      rcases engine.get key with ⟨fault | text, after⟩
      · exact .nil after
      · cases text with
        | some text => exact .nil after
        | none =>
            apply (path_traceAll supplier after).append
            cases ending with
            | value text => exact .single _ (.putIfAbsent key text)
            | error | broken => exact .nil _
  | advance duration => exact engine.path_wakings _
  | ask | put | get | getWithSnapshot | getSince | remove | clear | setCapacity |
      setRefreshOnHit | purge | enable | disable => exact .single engine _

/-- The trace of a program leads to the engine that the program leaves. -/
theorem path_traceAll (calls : List Call) (engine : Engine) :
    Path engine (traceAll calls engine) (runAll calls engine).2 := by
  cases calls with
  | nil => exact .nil engine
  | cons call calls =>
      exact (call.path_trace engine).append (path_traceAll calls _)

end

/-- The value that a call gets or creates is the one that the last event of its trace tells. -/
theorem exists_event_of_created {key : Key} {supplier : List Call} {ending : Ending}
    {engine : Engine} {text : String} {supplied : Option (List Step)}
    (created : (run (.getOrCreate key supplier ending) engine).1 = .created (some text) supplied) :
    ∃ events event, trace (.getOrCreate key supplier ending) engine = events ++ [event] ∧
      event.reply = .found (some text) := by
  rw [run] at created
  rw [trace]
  rcases looked : engine.get key with ⟨fault | found, after⟩
  · rw [looked] at created
    cases created
  · rw [looked] at created
    cases found with
    | some found =>
        cases created
        refine ⟨[], ⟨engine, .get key⟩, rfl, ?_⟩
        rw [Event.reply, Action.run, looked]
        rfl
    | none =>
        cases ending with
        | value made =>
            refine ⟨_, ⟨_, .putIfAbsent key made⟩, (List.cons_append ..).symm, ?_⟩
            change Reply.ofResult _ ((runAll supplier after).2.putIfAbsent key made).1 = _
              at created
            change Reply.ofResult _ ((runAll supplier after).2.putIfAbsent key made).1 = _
            cases stored : ((runAll supplier after).2.putIfAbsent key made).1 with
            | error fault =>
                rw [stored] at created
                cases created
            | ok kept =>
                rw [stored] at created
                cases created
                rfl
        | error | broken => cases created

end Call

end RecencyCache
