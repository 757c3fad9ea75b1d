import RecencyCache.Proofs.Sweeping

/-!
# Running

While sweeping is switched on, the sweeper in charge is asleep, with one exception. An attempt to
start a sweeper switches sweeping on before the thread is made, and leaves it on if no thread can
bear the name. From then on nobody sweeps and no sweeper can be started, until sweeping is switched
off. An attempt that starts no sweeper for any other reason changes nothing.
-/

namespace RecencyCache

namespace Engine

variable {engine : Engine}

/-- The sweeper in charge is asleep. -/
def Staffed (engine : Engine) : Prop :=
  ∃ sleeper ∈ engine.sleepers, engine.control.isCurrent sleeper.generation = true

instance : Decidable engine.Staffed :=
  inferInstanceAs (Decidable (∃ sleeper ∈ engine.sleepers,
    engine.control.isCurrent sleeper.generation = true))

/-- Somebody is in charge only while sweeping is switched on. -/
theorem Staffed.running (staffed : engine.Staffed) : engine.control.running = true := by
  obtain ⟨sleeper, -, current⟩ := staffed
  exact (SweepControl.isCurrent_iff.mp current).1

/-- Nobody is in charge of sweeping that was switched off before. -/
theorem Numbered.not_staffed_start (numbered : engine.Numbered)
    (stopped : engine.control.running = false) (interval survive : Nat) :
    ¬Staffed { engine with control := engine.control.start interval survive } := by
  rintro ⟨sleeper, asleep, current⟩
  have older := numbered.stopped stopped sleeper asleep
  have present := (SweepControl.isCurrent_iff.mp current).2
  rw [SweepControl.generation_start] at present
  omega

theorem control_wake (before : List Sleeper) (sleeper : Sleeper) (after : List Sleeper) :
    (engine.wake before sleeper after).control = engine.control := by
  rw [wake]
  split
  · obtain ⟨store, swept⟩ := exists_sweepPass { engine with now := sleeper.wakeAt }
    simp only [swept]
  · rfl

/-- While nobody is in charge, whoever wakes ends. -/
theorem wake_of_unstaffed (unstaffed : ¬engine.Staffed) {before after : List Sleeper}
    {sleeper : Sleeper} (whole : engine.sleepers = before ++ sleeper :: after) :
    engine.wake before sleeper after =
        { engine with now := sleeper.wakeAt, sleepers := before ++ after } ∧
      ¬(engine.wake before sleeper after).Staffed := by
  have expired : ¬engine.control.isCurrent sleeper.generation = true := fun current =>
    unstaffed ⟨sleeper, by simp [whole], current⟩
  have woken : engine.wake before sleeper after =
      { engine with now := sleeper.wakeAt, sleepers := before ++ after } := by
    rw [wake]
    exact if_neg expired
  refine ⟨woken, ?_⟩
  rw [woken]
  rintro ⟨other, asleep, current⟩
  have present : other ∈ engine.sleepers := by
    rw [whole]
    exact (List.mem_append.mp asleep).elim (List.mem_append_left _) fun later =>
      List.mem_append_right _ (.tail _ later)
  exact unstaffed ⟨other, present, current⟩

/-- Then time passes without a sweep. -/
theorem exists_runUntil_of_unstaffed (unstaffed : ¬engine.Staffed) (target : Nat) :
    ∃ sleepers, engine.runUntil target = { engine with now := target, sleepers } ∧
      ¬(engine.runUntil target).Staffed := by
  fun_induction runUntil engine target with
  | case1 engine asleep => exact ⟨engine.sleepers, rfl, unstaffed⟩
  | case2 engine before sleeper after split due ih =>
      obtain ⟨woken, vacant⟩ :=
        wake_of_unstaffed unstaffed (Sleeper.eq_append_of_splitEarliest? split)
      obtain ⟨sleepers, left, remains⟩ := ih vacant
      refine ⟨sleepers, ?_, remains⟩
      rw [left, woken]
  | case3 engine before sleeper after split early => exact ⟨engine.sleepers, rfl, unstaffed⟩

end Engine

/-! ## Attempts to start a sweeper -/

namespace Event

variable {event : Event}

/-- A sweeper is to start under a name that no thread can bear, and nothing else is wrong. -/
structure Jams (event : Event) (interval survive : Nat) (name : String) : Prop where
  attempts : event.action = .enable interval survive (some name)
  positive : 0 < interval ∧ 0 < survive
  stopped : event.engine.control.running = false
  unbearable : '\x00' ∈ name.toList

/-- Such an attempt is broken off after sweeping has been switched on. -/
theorem Jams.run_eq {interval survive : Nat} {name : String}
    (jams : event.Jams interval survive name) :
    event.reply = .broken (.nameWithNul name) ∧
      event.after =
        { event.engine with control := event.engine.control.start interval survive } := by
  rcases event with ⟨engine, action⟩
  obtain rfl : action = .enable interval survive (some name) := jams.attempts
  have unbearable : name.toList.contains '\x00' = true := by simpa using jams.unbearable
  have stopped : ¬engine.control.running = true := by simpa using jams.stopped
  have result : engine.enable interval survive (some name) =
      (.error (.nameWithNul name),
        { engine with control := engine.control.start interval survive }) := by
    rw [Engine.enable, dif_pos jams.positive, if_neg stopped]
    exact if_pos unbearable
  rw [reply, after, Action.run, result]
  exact ⟨rfl, rfl⟩

/-- Every other attempt that starts no sweeper is refused, and nothing is changed. -/
theorem refused_of_not_jams {interval survive : Nat} {name : Option String}
    (attempts : event.action = .enable interval survive name)
    (failed : event.reply ≠ .flag true) (free : ∀ text, ¬event.Jams interval survive text) :
    event.reply = .flag false ∧ event.after = event.engine := by
  rcases event with ⟨engine, action⟩
  obtain rfl : action = .enable interval survive name := attempts
  have result : engine.enable interval survive name = (.ok false, engine) := by
    by_cases positive : 0 < interval ∧ 0 < survive
    · by_cases running : engine.control.running = true
      · exact Engine.enable_of_refused (.inr (.inr running))
      · exfalso
        by_cases unbearable : (name.getD Sleeper.defaultName).toList.contains '\x00' = true
        · cases name with
          | none => exact absurd unbearable (by decide)
          | some text =>
              exact free text ⟨rfl, positive, by simpa using running, by simpa using unbearable⟩
        · refine failed ?_
          have started : (engine.enable interval survive name).1 = .ok true := by
            rw [Engine.enable, dif_pos positive, if_neg running]
            simp only [if_neg unbearable]
          change Reply.ofResult .flag (engine.enable interval survive name).1 = _
          rw [started]
          rfl
    · exact Engine.enable_of_refused (by omega)
  rw [reply, after, Action.run, result]
  exact ⟨rfl, rfl⟩

/-- The switch and its settings stay as they are unless an attempt jams, a sweeper starts, or
sweeping is switched off. -/
theorem control_after_eq (free : ∀ interval survive name, ¬event.Jams interval survive name)
    (unstarted : ∀ interval survive name,
      event.action = .enable interval survive name → event.reply ≠ .flag true)
    (kept : ¬event.Stops) : event.after.control = event.engine.control := by
  rcases event with ⟨engine, action⟩
  have storing {left : Engine} (stored : ∃ store, left = { engine with store }) :
      left.control = engine.control := by
    rcases stored with ⟨store, rfl⟩
    rfl
  cases action with
  | enable interval survive name =>
      have failed := unstarted interval survive name rfl
      rw [(refused_of_not_jams rfl failed (free interval survive)).2]
  | disable =>
      have stopped : ¬engine.control.running = true := fun running => kept ⟨rfl, running⟩
      change engine.control.stop = engine.control
      rw [SweepControl.stop, if_neg stopped]
  | put | get | getWithSnapshot | getSince | remove | purge =>
      exact storing (engine.exists_adopt _)
  | clear => exact storing (engine.exists_adopt (some engine.store.clear))
  | putIfAbsent key text => exact storing (engine.exists_putIfAbsent key text)
  | setCapacity capacity => exact storing (engine.exists_setCapacity capacity)
  | ask | setRefreshOnHit | rest => rfl
  | wake =>
      change (Action.wake.run engine).2.control = engine.control
      rw [Action.run]
      split
      · rfl
      · exact Engine.control_wake _ _ _

/-- As long as the switch stays as it is, nobody is put in charge and nobody who is leaves. -/
theorem staffed_after_iff (same : event.after.control = event.engine.control) :
    event.after.Staffed ↔ event.engine.Staffed := by
  rcases event with ⟨engine, action⟩
  change _ = engine.control at same
  cases course engine action with
  | aside _ _ left | rests _ _ _ left =>
      rw [left]
      exact Iff.rfl
  | starts _ _ _ stopped _ _ left | jams _ _ _ stopped left =>
      rw [left] at same
      rw [← same] at stopped
      cases stopped
  | stops _ _ left =>
      rw [left] at same
      change engine.control.stop = engine.control at same
      rw [left, same]
  | passes before sleeper later store _ current whole _ left =>
      have charged : engine.Staffed := ⟨sleeper, by simp [whole], current⟩
      rw [left]
      exact iff_of_true ⟨sleeper.renewed, by simp, current⟩ charged
  | ends before sleeper later _ expired whole _ left =>
      rw [left]
      simp only [Engine.Staffed, whole, List.mem_append, List.mem_cons]
      constructor
      · rintro ⟨other, asleep, current⟩
        exact ⟨other, asleep.imp_right .inr, current⟩
      · rintro ⟨other, earlier | rfl | further, current⟩
        · exact ⟨other, .inl earlier, current⟩
        · rw [expired] at current
          cases current
        · exact ⟨other, .inr further, current⟩

end Event

/-! ## Being in charge -/

/-- Among these events is an attempt that jammed, and sweeping has not been switched off since. -/
def Jammed (past : List Event) : Prop :=
  ∃ earlier jam later interval survive name, past = earlier ++ jam :: later ∧
    jam.Jams interval survive name ∧ ∀ event ∈ later, ¬event.Stops

theorem not_jammed_nil : ¬Jammed [] := by
  rintro ⟨earlier, jam, later, -, -, -, split, -⟩
  simp at split

theorem jammed_concat {past : List Event} {event : Event} :
    Jammed (past ++ [event]) ↔
      (∃ interval survive name, event.Jams interval survive name) ∨
        Jammed past ∧ ¬event.Stops := by
  constructor
  · rintro ⟨earlier, jam, later, interval, survive, name, split, jams, kept⟩
    rcases List.eq_nil_or_concat later with rfl | ⟨between, last, rfl⟩
    · obtain ⟨-, same⟩ := List.append_inj' split rfl
      cases same
      exact .inl ⟨interval, survive, name, jams⟩
    · rw [List.concat_eq_append, ← List.cons_append, ← List.append_assoc] at split
      obtain ⟨front, same⟩ := List.append_inj' split rfl
      cases same
      rw [List.concat_eq_append] at kept
      obtain ⟨between, last⟩ := List.forall_mem_append.mp kept
      exact .inr ⟨⟨earlier, jam, _, interval, survive, name, front, jams, between⟩,
        last event List.mem_cons_self⟩
  · rintro (⟨interval, survive, name, jams⟩ | ⟨jammed, kept⟩)
    · exact ⟨past, event, [], interval, survive, name, rfl, jams, List.forall_mem_nil _⟩
    · obtain ⟨earlier, jam, later, interval, survive, name, rfl, jams, between⟩ := jammed
      refine ⟨earlier, jam, later ++ [event], interval, survive, name, by simp, jams, ?_⟩
      exact List.forall_mem_append.mpr ⟨between, List.forall_mem_singleton.mpr kept⟩

/-- After these events, sweeping is switched on if and only if somebody is in charge or an attempt
has jammed, and not for both reasons. -/
structure Engine.Attended (engine : Engine) (past : List Event) : Prop where
  running_iff : engine.control.running = true ↔ engine.Staffed ∨ Jammed past
  jammed : Jammed past → ¬engine.Staffed

namespace Engine.Attended

variable {past : List Event} {event : Event}

theorem of_jams {interval survive : Nat} {name : String}
    (jams : event.Jams interval survive name) (numbered : event.engine.Numbered) :
    event.after.Attended (past ++ [event]) := by
  have jammed : Jammed (past ++ [event]) := jammed_concat.mpr (.inl ⟨interval, survive, name, jams⟩)
  have unstaffed := numbered.not_staffed_start jams.stopped interval survive
  rw [jams.run_eq.2]
  exact ⟨iff_of_true rfl (.inr jammed), fun _ => unstaffed⟩

/-- Switching off makes up for every attempt that has jammed. -/
theorem of_stops (stops : event.Stops) : event.after.Attended (past ++ [event]) := by
  have unjammed : ¬Jammed (past ++ [event]) := by
    rw [jammed_concat]
    rintro (⟨interval, survive, name, jams⟩ | ⟨-, kept⟩)
    · have stopped := jams.stopped
      rw [stops.2] at stopped
      cases stopped
    · exact kept stops
  have stopped : ¬event.after.control.running = true := by
    rw [Event.after, stops.1]
    simp [Action.run, Engine.disable]
  have unstaffed : ¬event.after.Staffed := fun staffed => stopped staffed.running
  exact ⟨iff_of_false stopped (not_or.mpr ⟨unstaffed, unjammed⟩), fun _ => unstaffed⟩

/-- A sweeper starts only if no attempt has jammed before. -/
theorem of_starts {engine : Engine} {interval survive : Nat} {name : Option String}
    (attended : engine.Attended past)
    (started : Event.reply ⟨engine, .enable interval survive name⟩ = .flag true) :
    (Event.after ⟨engine, .enable interval survive name⟩).Attended
      (past ++ [⟨engine, .enable interval survive name⟩]) := by
  obtain ⟨sweeper, -, -, -, charges⟩ := Event.exists_charges started
  have staffed : (Event.after ⟨engine, .enable interval survive name⟩).Staffed :=
    ⟨sweeper, charges.asleep, charges.current⟩
  have unjammed : ¬Jammed (past ++ [⟨engine, .enable interval survive name⟩]) := by
    rw [jammed_concat]
    rintro (⟨_, _, _, jams⟩ | ⟨jammed, -⟩)
    · rw [jams.run_eq.1] at started
      cases started
    · have running : engine.control.running = true := attended.running_iff.mpr (.inr jammed)
      have result := Event.result_of_started started
      rw [Engine.enable_of_refused (.inr (.inr running))] at result
      cases result
  exact ⟨iff_of_true staffed.running (.inl staffed), fun jammed => absurd jammed unjammed⟩

/-- Every event keeps it so. -/
theorem after (attended : event.engine.Attended past) (numbered : event.engine.Numbered) :
    event.after.Attended (past ++ [event]) := by
  by_cases jams : ∃ interval survive name, event.Jams interval survive name
  · obtain ⟨interval, survive, name, jams⟩ := jams
    exact of_jams jams numbered
  by_cases stops : event.Stops
  · exact of_stops stops
  by_cases started : ∃ interval survive name, event.action = .enable interval survive name ∧
      event.reply = .flag true
  · obtain ⟨interval, survive, name, attempts, started⟩ := started
    rcases event with ⟨engine, _⟩
    obtain rfl := attempts
    exact attended.of_starts started
  -- What is left neither touches the switch nor makes up for an attempt that has jammed.
  have same : event.after.control = event.engine.control := by
    refine Event.control_after_eq ?_ ?_ stops
    · exact fun interval survive name jam => jams ⟨interval, survive, name, jam⟩
    · exact fun interval survive name attempts reply =>
        started ⟨interval, survive, name, attempts, reply⟩
  have charged := Event.staffed_after_iff same
  have lasting : Jammed (past ++ [event]) ↔ Jammed past := by
    rw [jammed_concat]
    exact ⟨fun either => (either.resolve_left jams).1, fun jammed => .inr ⟨jammed, stops⟩⟩
  constructor
  · rw [same, charged, lasting]
    exact attended.running_iff
  · rw [charged, lasting]
    exact attended.jammed

/-- It remains so at the end of a path. -/
theorem of_path {first last : Engine} {events : List Event} (attended : first.Attended past)
    (numbered : first.Numbered) (path : Path first events last) :
    last.Attended (past ++ events) := by
  have both : last.Numbered ∧ last.Attended (past ++ events) := by
    apply path.accumulates (motive := fun engine past => engine.Numbered ∧ engine.Attended past)
    · intro event past held
      exact ⟨held.1.run event.action, held.2.after held.1⟩
    · exact ⟨numbered, attended⟩
  exact both.2

end Engine.Attended

/-- Nobody is asleep at the beginning of a history, and sweeping is switched off. -/
theorem Origin.attended_blank (origin : Origin) : origin.blank.Attended [] := by
  have stopped : origin.blank.control.running = false := by
    cases origin with
    | create | ofConfig => rfl
  have unstaffed : ¬origin.blank.Staffed := by
    intro staffed
    rw [staffed.running] at stopped
    cases stopped
  refine ⟨?_, fun _ => unstaffed⟩
  simp [stopped, unstaffed, not_jammed_nil]

/-! ## Histories -/

/-- What the switch tells about who sweeps, in a history that begins with `first`. -/
structure SweptWhileRunning (first : Engine) (history : List Event) : Prop where
  /-- Sweeping is reported as running if and only if somebody is in charge, unless an attempt has
  jammed. -/
  running_iff : ∀ past, past <+: history → ¬Jammed past →
    ((first.through past).control.running = true ↔ (first.through past).Staffed)
  /-- From an attempt that jams until sweeping is switched off, it is reported as running, but
  nobody is in charge. -/
  jammed : ∀ past, past <+: history → Jammed past →
    (first.through past).control.running = true ∧ ¬(first.through past).Staffed
  /-- An attempt that starts no sweeper and does not jam changes nothing. -/
  refused : ∀ event ∈ history, ∀ interval survive name,
    event.action = .enable interval survive name → event.reply ≠ .flag true →
      (∀ text, ¬event.Jams interval survive text) →
        event.reply = .flag false ∧ event.after = event.engine
  /-- An attempt that jams leaves sweeping switched on with the new settings. -/
  jams : ∀ event ∈ history, ∀ interval survive name, event.Jams interval survive name →
    event.reply = .broken (.nameWithNul name) ∧
      event.after =
        { event.engine with control := event.engine.control.start interval survive }

/-- Whatever a program does, somebody sweeps while sweeping is switched on, unless an attempt to
start a sweeper has jammed. -/
theorem Origin.swept_while_running (origin : Origin) (calls : List Call) :
    SweptWhileRunning origin.blank (origin.history calls) := by
  have attended (past : List Event) (reached : past <+: origin.history calls) :
      (origin.blank.through past).Attended past := by
    have path := (origin.path_history calls).path_through reached
    simpa using origin.attended_blank.of_path origin.numbered_blank path
  constructor
  case running_iff =>
    intro past reached unjammed
    rw [(attended past reached).running_iff]
    exact or_iff_left unjammed
  case jammed =>
    intro past reached jammed
    exact ⟨(attended past reached).running_iff.mpr (.inr jammed),
      (attended past reached).jammed jammed⟩
  case refused =>
    intro event _ interval survive name attempts failed free
    exact Event.refused_of_not_jams attempts failed free
  case jams =>
    intro event _ interval survive name jams
    exact jams.run_eq

/-- After an attempt under a name that no thread can bear, sweeping is reported as running although
nobody is asleep, and the settings are those of the attempt. A sweeper with a proper name is turned
away. -/
theorem Origin.running_without_sweeper :
    let origin := Origin.create 1 0
    let calls := [Call.enable 10000000 1000000000 (some "a\x00b"), .enable 10000000 1000000000 none]
    let last := (Call.runAll calls origin.engine).2
    origin.engine.control = {} ∧ last.control = ⟨true, 0, 10, 1000⟩ ∧ ¬last.Staffed := by
  decide +kernel

end RecencyCache
