import RecencyCache.Proofs.Refinement.SweepOrder

/-!
# Programs refine plain programs

A program has the same replies and views on an engine as on the plain engine that this is seen as,
whatever its suppliers do and however much time passes. Likewise the actions of its trace, which
show each sweep and each step of a supplier, have the same replies and effects one by one.
-/

namespace RecencyCache

namespace Engine

variable {engine : Engine}

/-! ## Calls -/

/-- A plain engine replies to every call alike. -/
theorem run_matches (sound : engine.store.chain.Sound) (call : Call) :
    Matches (call.run engine) (PlainEngine.run call engine.plain) :=
  (call.comes_run engine).matches sound

/-- A plain engine goes through several calls with the same steps. -/
theorem runAll_matches (sound : engine.store.chain.Sound) (calls : List Call) :
    Matches (Call.runAll calls engine) (PlainEngine.runAll calls engine.plain) :=
  (Call.comesAll_runAll calls engine).matches sound

/-! ## Traces -/

/-- Along a path, a plain engine replies to every action alike and is left alike. -/
theorem replay_plain {last : Engine} {events : List Event} (sound : engine.store.chain.Sound)
    (path : Path engine events last) :
    events.map (fun event => (event.reply, event.after.plain)) =
      PlainEngine.replay (events.map (·.action)) engine.plain := by
  induction path with
  | nil => rfl
  | @cons engine last events action _ ih =>
      obtain ⟨afterSound, same⟩ := act_matches sound action
      rw [List.map_cons, List.map_cons, ih afterSound, PlainEngine.replay, ← same]
      rfl

end Engine

namespace Origin

/-- A plain engine is made alike. -/
theorem engine_plain (origin : Origin) :
    origin.engine.store.chain.Sound ∧ origin.engine.plain = origin.plain := by
  cases origin with
  | create capacity epoch => exact ⟨Chain.sound_empty, rfl⟩
  | ofConfig config epoch =>
      rw [engine, plain, Engine.ofConfig, PlainEngine.ofConfig]
      apply Engine.enable_plain
      exact Chain.sound_empty

/-- A program on an engine has the steps of the same program on the plain engine, and leaves an
engine that is seen as the one left there. The actions in its trace, performed one by one on the
plain engine, have the same replies and leave what the engine is seen as after each of them. -/
theorem runAll_refines_plain (origin : Origin) (calls : List Call) :
    ((Call.runAll calls origin.engine).1, (Call.runAll calls origin.engine).2.plain) =
        PlainEngine.runAll calls origin.plain ∧
      (Call.traceAll calls origin.engine).map (fun event => (event.reply, event.after.plain)) =
        PlainEngine.replay ((Call.traceAll calls origin.engine).map (·.action)) origin.plain := by
  obtain ⟨sound, same⟩ := origin.engine_plain
  rw [← same]
  constructor
  · exact (Engine.runAll_matches sound calls).2
  · exact Engine.replay_plain sound (Call.path_traceAll calls origin.engine)

end Origin

end RecencyCache
