import RecencyCache.Proofs.Timeline

/-!
# Sweeping

Any number of sweepers may be asleep, but only one of them is in charge. Each was started in a
generation of its own, and no generation that has been stopped ever comes back. So a sweeper that
was asleep when sweeping was switched off ends as soon as it wakes, whoever has been started
meanwhile, and the one in charge sweeps once per interval without missing a pass.
-/

namespace RecencyCache

/-! ## Generations -/

/-- The sleepers are of different generations, in the order in which they were started. None is of
a generation to come, and none of the present one unless sweeping is switched on. -/
structure Engine.Numbered (engine : Engine) : Prop where
  ordered : (engine.sleepers.map (·.generation)).Pairwise (· < ·)
  bounded : ∀ sleeper ∈ engine.sleepers, sleeper.generation ≤ engine.control.generation
  stopped : engine.control.running = false →
    ∀ sleeper ∈ engine.sleepers, sleeper.generation < engine.control.generation

namespace Engine.Numbered

variable {engine : Engine}

theorem nodup (numbered : engine.Numbered) : (engine.sleepers.map (·.generation)).Nodup :=
  numbered.ordered.imp Nat.ne_of_lt

/-- A sleeper is known by its generation. -/
theorem eq_of_generation_eq (numbered : engine.Numbered) {one other : Sleeper}
    (oneAsleep : one ∈ engine.sleepers) (otherAsleep : other ∈ engine.sleepers)
    (same : one.generation = other.generation) : one = other :=
  List.inj_on_of_nodup_map numbered.nodup oneAsleep otherAsleep same

/-- At most one sleeper is current. -/
theorem length_current_le_one (numbered : engine.Numbered) :
    (engine.sleepers.filter fun sleeper =>
      engine.control.isCurrent sleeper.generation).length ≤ 1 := by
  have ordered := (List.pairwise_map.mp numbered.ordered).filter fun sleeper =>
    engine.control.isCurrent sleeper.generation
  have present : ∀ sleeper ∈ engine.sleepers.filter fun sleeper =>
      engine.control.isCurrent sleeper.generation,
      engine.control.generation = sleeper.generation := by
    intro sleeper member
    exact (SweepControl.isCurrent_iff.mp (List.mem_filter.mp member).2).2
  revert ordered present
  generalize engine.sleepers.filter _ = current
  intro ordered present
  match current with
  | [] | [_] => simp
  -- Two of them would be of the present generation, and one of an earlier one at the same time.
  | one :: other :: _ =>
      have less := (List.pairwise_cons.mp ordered).1 other (by simp)
      have first := present one (by simp)
      have second := present other (by simp)
      omega

/-- Fewer sleepers, or the same ones after another nap, are still numbered. -/
theorem of_sublist (numbered : engine.Numbered) {other : Engine}
    (control : other.control = engine.control)
    (fewer : (other.sleepers.map (·.generation)).Sublist (engine.sleepers.map (·.generation))) :
    other.Numbered := by
  have known : ∀ sleeper ∈ other.sleepers,
      ∃ same ∈ engine.sleepers, same.generation = sleeper.generation := fun sleeper member =>
    List.mem_map.mp (fewer.subset (List.mem_map_of_mem member))
  refine ⟨numbered.ordered.sublist fewer, ?_, ?_⟩
  · intro sleeper member
    obtain ⟨same, asleep, generation⟩ := known sleeper member
    rw [control, ← generation]
    exact numbered.bounded same asleep
  · intro off sleeper member
    obtain ⟨same, asleep, generation⟩ := known sleeper member
    rw [control] at off ⊢
    rw [← generation]
    exact numbered.stopped off same asleep

/-- Every action keeps the sleepers numbered. -/
theorem run (numbered : engine.Numbered) (action : Action) : (action.run engine).2.Numbered := by
  have ordered := numbered.ordered
  have bounded := numbered.bounded
  change (Event.after ⟨engine, action⟩).Numbered
  cases Event.course engine action with
  | aside _ _ left | rests _ _ _ left =>
      rw [left]
      exact ⟨ordered, bounded, numbered.stopped⟩
  | jams interval survive _ _ left =>
      rw [left]
      exact ⟨ordered, bounded, by simp⟩
  | starts sleeper survive _ stopped present _ left =>
      rw [left]
      have older := numbered.stopped stopped
      refine ⟨?_, ?_, by simp⟩
      · rw [List.map_append, List.map_singleton]
        refine List.pairwise_append.mpr ⟨ordered, List.pairwise_singleton _ _, ?_⟩
        simpa [present] using older
      · refine List.forall_mem_append.mpr ⟨bounded, ?_⟩
        exact List.forall_mem_singleton.mpr (Nat.le_of_eq present)
  | stops _ _ left =>
      have outdated : ∀ sleeper ∈ engine.sleepers,
          sleeper.generation < engine.control.stop.generation := by
        rw [SweepControl.stop]
        split
        · exact fun sleeper asleep => Nat.lt_succ_of_le (bounded sleeper asleep)
        · rename_i stopped
          exact numbered.stopped (by simpa using stopped)
      rw [left]
      exact ⟨ordered, fun sleeper asleep => Nat.le_of_lt (outdated sleeper asleep),
        fun _ => outdated⟩
  | passes before sleeper later store _ _ whole _ left =>
      have again : sleeper.renewed.generation = sleeper.generation := rfl
      rw [left]
      refine numbered.of_sublist rfl ?_
      simp [whole, again]
  | ends before sleeper later _ _ whole _ left =>
      rw [left]
      refine numbered.of_sublist rfl ?_
      rw [whole]
      exact ((List.sublist_cons_self _ _).append_left _).map _

/-- Sleepers are numbered at the end of a path if they are at its start. -/
theorem of_path {first last : Engine} {events : List Event} (numbered : first.Numbered)
    (path : Path first events last) : last.Numbered :=
  path.invariant (fun _ action numbered => numbered.run action) numbered

end Engine.Numbered

/-- A new engine has no sleepers to number. -/
theorem Origin.numbered_blank (origin : Origin) : origin.blank.Numbered := by
  cases origin with
  | create | ofConfig => exact ⟨.nil, List.forall_mem_nil _, fun _ => List.forall_mem_nil _⟩

/-! ## Switching off -/

/-- The event switches sweeping off. -/
def Event.Stops (event : Event) : Prop :=
  event.action = .disable ∧ event.engine.control.running = true

/-- A sleeper is of a generation that is over, and nobody else is of that generation. -/
structure Engine.Outdates (engine : Engine) (sleeper : Sleeper) : Prop where
  elapsed : sleeper.generation < engine.control.generation
  alone : ∀ other ∈ engine.sleepers, other.generation = sleeper.generation → other = sleeper

namespace Engine.Outdates

variable {engine : Engine} {sleeper : Sleeper}

/-- Switching off outdates everybody who is asleep. -/
theorem of_stops {event : Event} (stops : event.Stops) (numbered : event.engine.Numbered)
    (asleep : sleeper ∈ event.engine.sleepers) : event.after.Outdates sleeper := by
  rcases event with ⟨engine, action⟩
  rcases stops with ⟨disables, running⟩
  have running : engine.control.running = true := running
  have left : Event.after ⟨engine, action⟩ = { engine with control := engine.control.stop } := by
    rw [show action = .disable from disables]
    rfl
  rw [left]
  constructor
  · rw [SweepControl.stop, if_pos running]
    exact Nat.lt_succ_of_le (numbered.bounded sleeper asleep)
  · intro other otherAsleep same
    exact numbered.eq_of_generation_eq otherAsleep asleep same

/-- Nothing brings a generation back. -/
theorem run (outdates : engine.Outdates sleeper) (action : Action) :
    (action.run engine).2.Outdates sleeper := by
  have elapsed := outdates.elapsed
  have alone := outdates.alone
  change (Event.after ⟨engine, action⟩).Outdates sleeper
  cases Event.course engine action with
  | aside _ _ left | rests _ _ _ left | jams _ _ _ _ left =>
      rw [left]
      exact ⟨elapsed, alone⟩
  | starts newest survive _ _ present _ left =>
      rw [left]
      refine ⟨elapsed, List.forall_mem_append.mpr ⟨alone, ?_⟩⟩
      refine List.forall_mem_singleton.mpr fun same => ?_
      omega
  | stops _ _ left =>
      rw [left]
      refine ⟨?_, alone⟩
      rw [SweepControl.stop]
      split
      · exact Nat.lt_succ_of_lt elapsed
      · exact elapsed
  | passes before woken later store _ current whole _ left =>
      have present := (SweepControl.isCurrent_iff.mp current).2
      rw [left]
      rw [whole] at alone
      obtain ⟨earlier, rest⟩ := List.forall_mem_append.mp alone
      obtain ⟨-, rest⟩ := List.forall_mem_cons.mp rest
      refine ⟨elapsed, List.forall_mem_append.mpr ⟨earlier, List.forall_mem_cons.mpr ⟨?_, rest⟩⟩⟩
      intro same
      change woken.generation = sleeper.generation at same
      omega
  | ends before woken later _ _ whole _ left =>
      rw [left]
      rw [whole] at alone
      obtain ⟨earlier, rest⟩ := List.forall_mem_append.mp alone
      exact ⟨elapsed, List.forall_mem_append.mpr ⟨earlier, (List.forall_mem_cons.mp rest).2⟩⟩

theorem of_path {first last : Engine} {events : List Event} (outdates : first.Outdates sleeper)
    (path : Path first events last) : last.Outdates sleeper := by
  have preserved : ∀ engine action, Outdates engine sleeper →
      (Action.run action engine).2.Outdates sleeper := fun _ action outdates => outdates.run action
  exact path.invariant preserved outdates

end Engine.Outdates

/-- The sleeper ends when it wakes in this event, without sweeping. -/
structure Event.Dismisses (event : Event) (sleeper : Sleeper) : Prop where
  idle : event.pass? = none
  store_eq : event.after.store = event.engine.store
  gone : ∀ other ∈ event.after.sleepers, other.generation ≠ sleeper.generation

/-- Whoever is outdated ends as soon as it wakes. -/
theorem Engine.Outdates.dismisses {event : Event} {sleeper woken : Sleeper}
    (outdates : event.engine.Outdates sleeper) (numbered : event.engine.Numbered)
    (wakes : event.woken? = some woken) (same : woken.generation = sleeper.generation) :
    woken = sleeper ∧ event.Dismisses sleeper := by
  rcases event with ⟨engine, action⟩
  have elapsed : sleeper.generation < engine.control.generation := outdates.elapsed
  cases Event.course engine action with
  | aside _ unwoken | starts _ _ unwoken | jams _ _ unwoken | stops unwoken | rests _ unwoken =>
      rw [unwoken] at wakes
      cases wakes
  -- Only the present generation makes passes.
  | passes _ other _ _ otherWakes current =>
      cases wakes.symm.trans otherWakes
      have present := (SweepControl.isCurrent_iff.mp current).2
      omega
  | ends before other later otherWakes expired whole _ left =>
      cases wakes.symm.trans otherWakes
      have member : woken ∈ engine.sleepers := by simp [whole]
      have found := outdates.alone woken member same
      have idle : Event.pass? ⟨engine, action⟩ = none := by
        rw [Event.pass?, wakes]
        simpa using expired
      have store_eq : (Event.after ⟨engine, action⟩).store = engine.store := by rw [left]
      have distinct : (engine.sleepers.map (·.generation)).Nodup := numbered.nodup
      rw [whole, List.map_append, List.map_cons, List.nodup_middle, ← List.map_append] at distinct
      refine ⟨found, idle, store_eq, ?_⟩
      rw [left]
      intro other member sameOther
      apply (List.nodup_cons.mp distinct).1
      rw [same, ← sameOther]
      exact List.mem_map_of_mem member

/-! ## The sweeper in charge -/

/-- The passes among some events: when each was made, and by whom. -/
def passes (events : List Event) : List (Nat × Sleeper) :=
  events.filterMap fun event => event.pass?.map fun sweeper => (event.after.now, sweeper)

/-- The sleeper as it is after a number of passes. -/
def Sleeper.afterPasses (sleeper : Sleeper) (count : Nat) : Sleeper :=
  { sleeper with wakeAt := sleeper.wakeAt + count * sleeper.interval }

theorem Sleeper.afterPasses_zero (sleeper : Sleeper) : sleeper.afterPasses 0 = sleeper := by
  simp [afterPasses]

theorem Sleeper.afterPasses_succ (sleeper : Sleeper) (count : Nat) :
    sleeper.afterPasses (count + 1) = sleeper.renewed.afterPasses count := by
  simp only [afterPasses, renewed, mk.injEq, true_and]
  rw [Nat.add_one_mul]
  omega

/-- The sweeper in charge is asleep, and has been for no longer than its interval. -/
structure Engine.Charges (engine : Engine) (sweeper : Sleeper) : Prop where
  current : engine.control.isCurrent sweeper.generation = true
  asleep : sweeper ∈ engine.sleepers
  recent : sweeper.wakeAt ≤ engine.now + sweeper.interval

namespace Engine.Charges

variable {sweeper : Sleeper}

/-- Unless sweeping is switched off, the sweeper in charge remains so with the same settings, and
nobody else makes a pass. -/
theorem after {event : Event} (charges : event.engine.Charges sweeper)
    (numbered : event.engine.Numbered) (timely : event.Timely) (kept : ¬event.Stops) :
    event.after.control = event.engine.control ∧
      ((event.pass? = none ∧ event.after.Charges sweeper) ∨
        (event.pass? = some sweeper ∧ event.after.now = sweeper.wakeAt ∧
          event.after.Charges sweeper.renewed)) := by
  rcases event with ⟨engine, action⟩
  have current : engine.control.isCurrent sweeper.generation = true := charges.current
  have asleep : sweeper ∈ engine.sleepers := charges.asleep
  have recent : sweeper.wakeAt ≤ engine.now + sweeper.interval := charges.recent
  obtain ⟨running, present⟩ := SweepControl.isCurrent_iff.mp current
  have idle (unwoken : Event.woken? ⟨engine, action⟩ = none) :
      Event.pass? ⟨engine, action⟩ = none := by rw [Event.pass?, unwoken, Option.filter_none]
  cases Event.course engine action with
  | aside _ unwoken left =>
      rw [left]
      exact ⟨rfl, .inl ⟨idle unwoken, current, asleep, recent⟩⟩
  | starts _ _ _ stopped | jams _ _ _ stopped =>
      rw [running] at stopped
      cases stopped
  | stops _ disables => exact absurd ⟨disables, running⟩ kept
  | passes before woken later store wakes wokenCurrent whole _ left =>
      have member : woken ∈ engine.sleepers := by simp [whole]
      have same := (SweepControl.isCurrent_iff.mp wokenCurrent).2.symm.trans present
      obtain rfl := numbered.eq_of_generation_eq member asleep same
      have passes : Event.pass? ⟨engine, action⟩ = some woken := by
        rw [Event.pass?, wakes, Option.filter_some, if_pos wokenCurrent]
      rw [left]
      refine ⟨rfl, .inr ⟨passes, rfl, current, ?_, Nat.le_refl _⟩⟩
      exact List.mem_append_right _ List.mem_cons_self
  | ends before woken later wakes expired whole _ left =>
      have member : woken ∈ engine.sleepers := by simp [whole]
      have other : sweeper ≠ woken := by
        rintro rfl
        rw [current] at expired
        cases expired
      have stays : sweeper ∈ before ++ later := by
        rw [whole, List.mem_append, List.mem_cons] at asleep
        rw [List.mem_append]
        simpa [other] using asleep
      have passes : Event.pass? ⟨engine, action⟩ = none := by
        rw [Event.pass?, wakes, Option.filter_some, if_neg (by simp [expired])]
      have forward : engine.now ≤ woken.wakeAt := timely.punctual woken member
      rw [left]
      exact ⟨rfl, .inl ⟨passes, current, stays,
        Nat.le_trans recent (Nat.add_le_add_right forward _)⟩⟩
  | rests time unwoken resting left =>
      have forward : engine.now ≤ time := (timely.forward time resting).1
      rw [left]
      exact ⟨rfl, .inl ⟨idle unwoken, current, asleep,
        Nat.le_trans recent (Nat.add_le_add_right forward _)⟩⟩

/-- Until sweeping is switched off, the sweeper in charge makes all passes, one per interval. -/
theorem exists_passes_eq {first last : Engine} {events : List Event}
    (charges : first.Charges sweeper) (path : Path first events last)
    (numbered : first.Numbered) (timely : ∀ event ∈ events, event.Timely)
    (kept : ∀ event ∈ events, ¬event.Stops) :
    ∃ count,
      passes events = (List.range count).map (fun passed =>
        ((sweeper.afterPasses passed).wakeAt, sweeper.afterPasses passed)) ∧
      last.Charges (sweeper.afterPasses count) := by
  -- A pass renews the sweeper in charge, and the rest of the passes are those of the renewed one.
  induction path generalizing sweeper with
  | nil => exact ⟨0, rfl, sweeper.afterPasses_zero.symm ▸ charges⟩
  | @cons engine last events action _ ih =>
      obtain ⟨now, later⟩ := List.forall_mem_cons.mp timely
      obtain ⟨keptNow, keptLater⟩ := List.forall_mem_cons.mp kept
      rcases (after charges numbered now keptNow).2 with ⟨idle, charged⟩ | ⟨pass, time, charged⟩
      · obtain ⟨count, rest, last⟩ := ih charged (numbered.run action) later keptLater
        refine ⟨count, ?_, last⟩
        rw [← rest, passes, List.filterMap_cons, idle]
        rfl
      · obtain ⟨count, rest, last⟩ := ih charged (numbered.run action) later keptLater
        simp only [← Sleeper.afterPasses_succ] at rest last
        have head : passes (⟨engine, action⟩ :: events) =
            (sweeper.wakeAt, sweeper) :: passes events := by
          rw [passes, List.filterMap_cons, pass, Option.map_some, time]
          rfl
        refine ⟨count + 1, ?_, last⟩
        rw [head, rest, List.range_succ_eq_map, List.map_cons, List.map_map,
          sweeper.afterPasses_zero]
        rfl

end Engine.Charges

/-- The reply tells that a sweeper has started only if that is the result. -/
theorem Event.result_of_started {engine : Engine} {interval survive : Nat} {name : Option String}
    (started : Event.reply ⟨engine, .enable interval survive name⟩ = .flag true) :
    (engine.enable interval survive name).1 = .ok true := by
  change Reply.ofResult .flag (engine.enable interval survive name).1 = _ at started
  cases answer : (engine.enable interval survive name).1 with
  | error fault =>
      rw [answer] at started
      cases started
  | ok truth =>
      rw [answer] at started
      cases started
      rfl

/-- A sweeper is in charge as soon as it starts. -/
theorem Event.exists_charges {engine : Engine} {interval survive : Nat} {name : Option String}
    (started : Event.reply ⟨engine, .enable interval survive name⟩ = .flag true) :
    ∃ sweeper : Sleeper,
      (Event.after ⟨engine, .enable interval survive name⟩).sleepers =
        engine.sleepers ++ [sweeper] ∧
      sweeper.interval = interval ∧ sweeper.wakeAt = engine.now + interval ∧
      (Event.after ⟨engine, .enable interval survive name⟩).Charges sweeper := by
  obtain ⟨sweeper, period, present, due, -, left⟩ :=
    Engine.enable_of_started (result_of_started started)
  have after : Event.after ⟨engine, .enable interval survive name⟩ =
      { engine with
        control := engine.control.start interval survive
        sleepers := engine.sleepers ++ [sweeper] } := left
  rw [after]
  refine ⟨sweeper, rfl, period, due, ?_, by simp, ?_⟩
  · exact SweepControl.isCurrent_iff.mpr ⟨rfl, present.symm⟩
  · exact Nat.le_of_eq (by rw [due, period])

/-! ## One sweeper at a time -/

/-- The sweepers of a history that begins with `first` never get in each other's way. -/
structure SweptByOne (first : Engine) (history : List Event) : Prop where
  /-- At most one of those who are asleep is current. -/
  single : ∀ past, past <+: history →
    ((first.through past).sleepers.filter fun sleeper =>
      (first.through past).control.isCurrent sleeper.generation).length ≤ 1
  /-- Those who are asleep are told apart by their generations. -/
  distinct : ∀ past, past <+: history →
    ((first.through past).sleepers.map (·.generation)).Nodup
  /-- Whoever is asleep when sweeping is switched off sleeps on as it is, does not sweep when it
  wakes, and is gone after that, whatever happens meanwhile. -/
  dismissed : ∀ past stop future, history = past ++ stop :: future → stop.Stops →
    ∀ sleeper ∈ stop.engine.sleepers, ∀ event ∈ future, ∀ woken,
      event.woken? = some woken → woken.generation = sleeper.generation →
        woken = sleeper ∧ event.Dismisses sleeper
  /-- With a duration of zero or while one is running, no sweeper starts, and nothing changes. -/
  refused : ∀ event ∈ history, ∀ interval survive name,
    event.action = .enable interval survive name →
    interval = 0 ∨ survive = 0 ∨ event.engine.control.running = true →
      event.reply = .flag false ∧ event.after = event.engine
  /-- From its start until sweeping is switched off, a sweeper makes all passes. Their number is
  that of the intervals that have gone by; while those who are due at the end of an interval wake
  one after the other, its pass may be still to come. -/
  paced : ∀ past engine interval survive name middle future,
    history = past ++ ⟨engine, .enable interval survive name⟩ :: (middle ++ future) →
    Event.reply ⟨engine, .enable interval survive name⟩ = .flag true →
    (∀ event ∈ middle, ¬event.Stops) →
      let started := Event.after ⟨engine, .enable interval survive name⟩
      let now := (started.through middle).now
      ∃ sweeper, started.sleepers = engine.sleepers ++ [sweeper] ∧
        sweeper.interval = interval ∧
        ∃ count,
          passes middle = (List.range count).map (fun passed =>
            (engine.now + (passed + 1) * interval, sweeper.afterPasses passed)) ∧
          engine.now + count * interval ≤ now ∧ now ≤ engine.now + (count + 1) * interval ∧
          (Settled middle → now < engine.now + (count + 1) * interval)

/-- Whatever a program does, at most one sweeper at a time is in effect. -/
theorem Origin.swept_by_one (origin : Origin) (calls : List Call) :
    SweptByOne origin.blank (origin.history calls) := by
  have path := origin.path_history calls
  have timely := origin.timely_history calls
  constructor
  case single =>
    intro past reached
    exact (origin.numbered_blank.of_path (path.path_through reached)).length_current_le_one
  case distinct =>
    intro past reached
    exact (origin.numbered_blank.of_path (path.path_through reached)).nodup
  case dismissed =>
    intro past stop future split stops sleeper asleep event member woken wakes same
    rw [split] at path
    obtain ⟨before, after⟩ := path.split
    have numbered := origin.numbered_blank.of_path before
    obtain ⟨meanwhile, rest, futureSplit⟩ := List.append_of_mem member
    rw [futureSplit] at after
    have between := after.split.1
    -- Outdated once and for all, it is dismissed by whichever event it wakes in.
    have outdates := (Engine.Outdates.of_stops stops numbered asleep).of_path between
    have stillNumbered := (numbered.run stop.action).of_path between
    exact outdates.dismisses stillNumbered wakes same
  case refused =>
    intro event _ interval survive name action refused
    rcases event with ⟨engine, _⟩
    obtain rfl := action
    have unchanged : engine.enable interval survive name = (.ok false, engine) :=
      Engine.enable_of_refused refused
    constructor
    · change Reply.ofResult .flag (engine.enable interval survive name).1 = _
      rw [unchanged]
      rfl
    · change (engine.enable interval survive name).2 = engine
      rw [unchanged]
  case paced =>
    intro past engine interval survive name middle future split started kept
    rw [split] at path timely
    obtain ⟨before, after⟩ := path.split
    have reached := after.path_through (List.prefix_append middle future)
    have numbered := (origin.numbered_blank.of_path before).run (.enable interval survive name)
    have starting := timely ⟨engine, .enable interval survive name⟩ (by simp)
    have between : ∀ event ∈ middle, event.Timely := fun event member =>
      timely event (by simp [member])
    obtain ⟨sweeper, asleep, period, due, charges⟩ := Event.exists_charges started
    obtain ⟨count, made, last⟩ := charges.exists_passes_eq reached numbered between kept
    have schedule (passed : Nat) : (sweeper.afterPasses passed).wakeAt =
        engine.now + (passed + 1) * interval := by
      calc (sweeper.afterPasses passed).wakeAt
        _ = sweeper.wakeAt + passed * sweeper.interval := rfl
        _ = engine.now + interval + passed * interval := by rw [due, period]
        _ = engine.now + (passed + 1) * interval := by rw [Nat.add_one_mul]; omega
    -- The next pass is to come, and it is no further away than one interval.
    have recent := last.recent
    have next := schedule count
    have period : (sweeper.afterPasses count).interval = interval := period
    rw [next, period, Nat.add_one_mul] at recent
    refine ⟨sweeper, asleep, period, count, ?_, by omega, ?_, ?_⟩
    · simp only [made, schedule]
    · rw [← next]
      exact reached.punctual between starting.punctual_after _ last.asleep
    · intro settled
      rw [← next]
      exact reached.rested between settled (starting.rested_after rfl) _ last.asleep

/-- A sweeper that has been stopped wakes while another one is in charge, and ends. -/
theorem Origin.swept_by_one_restarted :
    let origin := Origin.create 1 0
    let calls := [Call.enable 10 1000000 none, .advance 5, .disable, .enable 3 1000000 none,
      .advance 10]
    let history := origin.history calls
    SweptByOne origin.blank history ∧
      (history.filterMap Event.woken?).map (fun sleeper => (sleeper.wakeAt, sleeper.generation)) =
        [(8, 1), (10, 0), (11, 1), (14, 1)] ∧
      (passes history).map (fun pass => (pass.1, pass.2.generation)) =
        [(8, 1), (11, 1), (14, 1)] := by
  intro origin calls history
  exact ⟨origin.swept_by_one calls, by decide +kernel, by decide +kernel⟩

end RecencyCache
