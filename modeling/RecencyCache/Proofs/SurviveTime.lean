import RecencyCache.Proofs.Retention

/-!
# Survive times

A sweeper takes out what has been idle for longer than its survive time, but the default that it
goes by is not quite the one that it was given. The default is stored in whole milliseconds that
fit into a word, and zero milliseconds stand for no default. So a sweeper heeds exactly the
durations that are a whole number of milliseconds and fit; a fraction of a millisecond is dropped,
and a duration of less than one millisecond is not heeded at all. The times that come with an entry
are kept to the nanosecond.
-/

namespace RecencyCache

/-! ## Durations -/

namespace Duration

/-- What a sweeper heeds of the survive time that it is given. -/
def heeded (survive : Nat) : Option Nat :=
  if wholeMillis survive = 0 then none else some (ofMillis (wholeMillis survive))

/-- A duration is heeded in full if and only if it is a positive number of whole milliseconds that
fits into a word. -/
theorem heeded_eq_some_self_iff {survive : Nat} :
    heeded survive = some survive ↔
      0 < survive ∧ 1000000 ∣ survive ∧ survive ≤ ofMillis largestWord := by
  have bound : (0 : Nat) < largestWord := by decide
  rw [heeded, wholeMillis, ofMillis, ofMillis]
  constructor
  · intro whole
    split at whole
    · cases whole
    · rename_i positive
      have whole := Option.some.inj whole
      exact ⟨by omega, by omega, by omega⟩
  · rintro ⟨positive, divides, fits⟩
    rw [if_neg (by omega)]
    exact congrArg some (by omega)

end Duration

theorem SweepControl.surviveTime_start (control : SweepControl) (interval survive : Nat) :
    (control.start interval survive).surviveTime = Duration.heeded survive := rfl

/-! ## Entries -/

namespace Entry

variable {entry : Entry} {now : Nat} {default : Option Nat}

/-- At `now` the entry has been there for its time to live, or its last access lies back by more
than its own survive time or, if it has none, by more than `default`. -/
def Overdue (entry : Entry) (now : Nat) (default : Option Nat) : Prop :=
  (∃ lifetime ∈ entry.timeToLive, entry.createdAt + lifetime ≤ now) ∨
    ∃ limit ∈ entry.surviveTime.or default, entry.lastAccessAt + limit < now

instance : Decidable (entry.Overdue now default) :=
  inferInstanceAs (Decidable (_ ∨ _))

/-- A sweep takes out exactly the entries that are overdue. -/
theorem expired_iff_overdue (lasting : entry.timeToLive ≠ some 0) :
    entry.expired now default = true ↔ entry.Overdue now default := by
  rw [expired, Bool.or_eq_true]
  refine or_congr ?_ ?_
  · rw [outlived, age]
    cases limited : entry.timeToLive with
    | none => simp
    | some lifetime =>
        have positive : lifetime ≠ 0 := fun zero => lasting (zero ▸ limited)
        simp only [decide_eq_true_eq, Option.mem_def, Option.some.injEq, exists_eq_left']
        omega
  · rw [neglected, idle]
    cases entry.surviveTime.or default with
    | none => simp
    | some limit =>
        simp only [decide_eq_true_eq, Option.mem_def, Option.some.injEq, exists_eq_left']
        omega

end Entry

/-- No entry has a time to live of zero. -/
def Engine.Lasting (engine : Engine) : Prop :=
  ∀ entry ∈ engine.store.chain.toList, entry.timeToLive ≠ some 0

namespace Engine.Lasting

variable {engine : Engine}

theorem run (lasting : engine.Lasting) (sound : engine.Sound) (action : Action) :
    (action.run engine).2.Lasting := by
  intro entry member
  have member : entry ∈ (Event.after ⟨engine, action⟩).store.chain.toList := member
  have stems := Event.stems_of_mem sound member
  cases stems with
  | kept stored => exact lasting entry stored
  | @touched old refresh stored => exact lasting old stored
  | created key value options timeOfDay =>
      intro zero
      simpa using (Option.filter_eq_some_iff.mp zero).2

theorem of_path {last : Engine} {events : List Event} (lasting : engine.Lasting)
    (sound : engine.Sound) (path : Path engine events last) : last.Lasting := by
  have preserved : ∀ engine action, Sound engine ∧ Lasting engine →
      Sound (Action.run action engine).2 ∧ Lasting (Action.run action engine).2 :=
    fun _ action both => ⟨(both.1.run action).1, both.2.run both.1 action⟩
  exact (path.invariant preserved ⟨sound, lasting⟩).2

end Engine.Lasting

theorem Origin.lasting_blank (origin : Origin) : origin.blank.Lasting := by
  cases origin with
  | create | ofConfig => exact List.forall_mem_nil _

/-! ## Passes -/

namespace Event

variable {event : Event} {sweeper : Sleeper}

/-- A pass is made at the time at which its sweeper is due. -/
theorem now_of_pass (pass : event.pass? = some sweeper) : event.after.now = sweeper.wakeAt := by
  rcases event with ⟨engine, action⟩
  obtain ⟨rfl, before, later, split⟩ :=
    exists_split_of_woken? (Option.filter_eq_some_iff.mp pass).1
  rw [after, Action.run, split]
  exact engine.now_wake before sweeper later

/-- A pass is a sweep of the plain store by the default of the moment. -/
theorem store_of_pass (sound : event.engine.Sound) (pass : event.pass? = some sweeper) :
    event.after.plain.store =
      (event.engine.plain.store.sweep event.after.now event.engine.control.surviveTime).2 := by
  rcases event with ⟨engine, action⟩
  obtain ⟨wakes, current⟩ := Option.filter_eq_some_iff.mp pass
  obtain ⟨rfl, before, later, split⟩ := exists_split_of_woken? wakes
  have current : engine.plain.control.isCurrent sweeper.generation = true := current
  have left : after ⟨engine, .wake⟩ = engine.wake before sweeper later := by
    rw [after, Action.run, split]
  obtain ⟨-, same⟩ := Engine.wake_plain sound.represents before sweeper later
  rw [now_of_pass pass, left, same, PlainEngine.wake, if_pos current]
  rfl

/-- A pass leaves exactly the entries that are not expired, in their order. -/
theorem toList_of_pass (sound : event.engine.Sound) (pass : event.pass? = some sweeper) :
    event.after.store.chain.toList = event.engine.store.chain.toList.filter
      (!·.expired event.after.now event.engine.control.surviveTime) :=
  congrArg PlainStore.entries (store_of_pass sound pass)

/-- The generation does not go back, and is over as soon as sweeping is switched off. -/
theorem generation_le_after (event : Event) :
    event.engine.control.generation ≤ event.after.control.generation ∧
      (event.Stops → event.engine.control.generation < event.after.control.generation) := by
  by_cases stops : event.Stops
  · have later : event.after.control.generation = event.engine.control.generation + 1 := by
      rw [after, stops.1]
      change (event.engine.control.stop).generation = _
      rw [SweepControl.stop, if_pos stops.2]
    omega
  · refine ⟨?_, fun stop => absurd stop stops⟩
    rcases event with ⟨engine, action⟩
    cases course engine action with
    | aside _ _ left | starts _ _ _ _ _ _ left | jams _ _ _ _ left | rests _ _ _ left
    | passes _ _ _ _ _ _ _ _ left | ends _ _ _ _ _ _ _ left =>
        exact Nat.le_of_eq (congrArg (·.control.generation) left).symm
    | stops _ disables left =>
        have stopped : ¬engine.control.running = true := fun running => stops ⟨disables, running⟩
        have same : engine.control.stop = engine.control := by
          rw [SweepControl.stop, if_neg stopped]
        have unchanged := (congrArg Engine.control left).trans same
        exact Nat.le_of_eq (congrArg (·.generation) unchanged).symm

/-- Whoever is started is given a survive time, by which the default is set. -/
theorem survive_of_started {engine : Engine} {interval survive : Nat} {name : Option String}
    (started : reply ⟨engine, .enable interval survive name⟩ = .flag true) :
    0 < survive ∧
      (after ⟨engine, .enable interval survive name⟩).control.surviveTime =
        Duration.heeded survive := by
  have result := result_of_started started
  constructor
  · by_contra zero
    rw [Engine.enable_of_refused (.inr (.inl (Nat.eq_zero_of_not_pos zero)))] at result
    cases result
  · obtain ⟨sleeper, -, -, -, -, left⟩ := Engine.enable_of_started result
    change (engine.enable interval survive name).2.control.surviveTime = _
    rw [left]
    exact SweepControl.surviveTime_start _ _ _

end Event

/-- As long as its generation lasts, sweeping is not switched off. -/
theorem Path.not_stops {first last : Engine} {events : List Event} (path : Path first events last)
    (lasts : last.control.generation ≤ first.control.generation) :
    ∀ event ∈ events, ¬event.Stops := by
  have later {first last : Engine} {events : List Event} (path : Path first events last) :
      first.control.generation ≤ last.control.generation := by
    have preserved : ∀ engine action, first.control.generation ≤ engine.control.generation →
        first.control.generation ≤ (Action.run action engine).2.control.generation :=
      fun engine action low => Nat.le_trans low (Event.generation_le_after ⟨engine, action⟩).1
    exact path.invariant preserved (Nat.le_refl _)
  intro event member stops
  obtain ⟨before, after, rfl⟩ := List.append_of_mem member
  obtain ⟨front, back⟩ := path.split
  have elapsed := event.generation_le_after.2 stops
  have front := later front
  have back := later back
  omega

/-- Until sweeping is switched off, the settings are those with which it was switched on. -/
theorem Engine.Charges.control_eq_of_path {first last : Engine} {events : List Event}
    {sweeper : Sleeper} (charges : first.Charges sweeper) (path : Path first events last)
    (numbered : first.Numbered) (timely : ∀ event ∈ events, event.Timely)
    (kept : ∀ event ∈ events, ¬event.Stops) : last.control = first.control := by
  induction path generalizing sweeper with
  | nil => rfl
  | @cons engine last events action _ ih =>
      obtain ⟨now, later⟩ := List.forall_mem_cons.mp timely
      obtain ⟨keptNow, keptLater⟩ := List.forall_mem_cons.mp kept
      obtain ⟨same, charged⟩ := after charges numbered now keptNow
      have numbered := numbered.run action
      rcases charged with ⟨-, charged⟩ | ⟨-, -, charged⟩
      · exact (ih charged numbered later keptLater).trans same
      · exact (ih charged numbered later keptLater).trans same

/-! ## Histories -/

/-- Every pass of a sweeper takes out exactly the entries that are overdue by what it heeds of the
survive time that it was started with. That is the survive time itself if and only if it is a whole
number of milliseconds that fits into a word. -/
theorem Origin.sweeps_by_heeded_time (origin : Origin) (calls : List Call)
    {past future : List Event} {engine : Engine} {interval survive : Nat} {name : Option String}
    (split : origin.history calls = past ++ ⟨engine, .enable interval survive name⟩ :: future)
    (started : Event.reply ⟨engine, .enable interval survive name⟩ = .flag true) :
    ∃ sweeper : Sleeper,
      (Event.after ⟨engine, .enable interval survive name⟩).sleepers =
        engine.sleepers ++ [sweeper] ∧
      sweeper.interval = interval ∧
      (∀ event ∈ future, ∀ woken, event.pass? = some woken →
        woken.generation = sweeper.generation →
          event.after.store.chain.toList = event.engine.store.chain.toList.filter
            (¬·.Overdue event.after.now (Duration.heeded survive))) ∧
      (Duration.heeded survive = some survive ↔
        1000000 ∣ survive ∧ survive ≤ Duration.ofMillis largestWord) := by
  have path := origin.path_history calls
  have timely := origin.timely_history calls
  rw [split] at path timely
  obtain ⟨before, after⟩ := path.split
  have numbered := (origin.numbered_blank.of_path before).run (.enable interval survive name)
  have sound := ((origin.sound_blank.of_path before).run (.enable interval survive name)).1
  have lasting := (origin.lasting_blank.of_path origin.sound_blank before).run
    (origin.sound_blank.of_path before) (.enable interval survive name)
  obtain ⟨sweeper, asleep, period, -, charges⟩ := Event.exists_charges started
  obtain ⟨positive, stored⟩ := Event.survive_of_started started
  have present := (SweepControl.isCurrent_iff.mp charges.current).2
  refine ⟨sweeper, asleep, period, ?_, ?_⟩
  · intro event member woken pass same
    obtain ⟨middle, rest, futureSplit⟩ := List.append_of_mem member
    rw [futureSplit] at after timely
    obtain ⟨between, -⟩ := after.split
    have betweenTimely : ∀ event ∈ middle, event.Timely := fun event member =>
      timely event (by simp [member])
    -- The generation of the sweeper is still the present one.
    have later := (SweepControl.isCurrent_iff.mp (Option.filter_eq_some_iff.mp pass).2).2
    have kept := between.not_stops (Nat.le_of_eq (later.trans (same.trans present.symm)))
    have control := charges.control_eq_of_path between numbered betweenTimely kept
    rw [Event.toList_of_pass (sound.of_path between) pass, control, stored]
    refine List.filter_congr fun entry member => ?_
    have overdue : entry.expired event.after.now (Duration.heeded survive) = true ↔
        entry.Overdue event.after.now (Duration.heeded survive) :=
      Entry.expired_iff_overdue (lasting.of_path sound between entry member)
    simp [← overdue]
  · rw [Duration.heeded_eq_some_self_iff]
    exact and_iff_right positive

/-- A sweeper that was given one and a half milliseconds takes out what has been idle for more than
one, but keeps what comes with a survive time of its own. -/
theorem Origin.sweeps_by_heeded_time_fraction :
    let origin := Origin.create 2 0
    let start := Call.enable 1200000 1500000 none
    let calls := [Call.put "a" ⟨"1", false⟩ {},
      .put "b" ⟨"2", false⟩ { surviveTime := some 1200000 }, start, .advance 1200000]
    let history := origin.history calls
    let engine := origin.blank.through (history.take 2)
    let future := history.drop 3
    history = history.take 2 ++ ⟨engine, .enable 1200000 1500000 none⟩ :: future ∧
      future.map (fun event => event.pass?.map (·.generation)) = [some 0, none] ∧
      (origin.blank.through history).store.chain.toList.map (·.key) = ["b"] ∧
      Event.reply ⟨engine, .enable 1200000 1500000 none⟩ = .flag true ∧
      ∃ sweeper : Sleeper,
        (Event.after ⟨engine, .enable 1200000 1500000 none⟩).sleepers =
          engine.sleepers ++ [sweeper] ∧
        sweeper.interval = 1200000 ∧
        (∀ event ∈ future, ∀ woken, event.pass? = some woken →
          woken.generation = sweeper.generation →
            event.after.store.chain.toList = event.engine.store.chain.toList.filter
              (¬·.Overdue event.after.now (Duration.heeded 1500000))) ∧
        (Duration.heeded 1500000 = some 1500000 ↔
          1000000 ∣ 1500000 ∧ 1500000 ≤ Duration.ofMillis largestWord) := by
  intro origin start calls history engine future
  have split : history = history.take 2 ++ ⟨engine, .enable 1200000 1500000 none⟩ :: future := rfl
  have result : (engine.enable 1200000 1500000 none).1 = .ok true := by decide +kernel
  have started : Event.reply ⟨engine, .enable 1200000 1500000 none⟩ = .flag true :=
    congrArg (Reply.ofResult .flag) result
  exact ⟨split, by decide +kernel, by decide +kernel, started,
    origin.sweeps_by_heeded_time calls split started⟩

/-- A sweeper that was given half a millisecond leaves what has been idle for longer. -/
theorem Origin.unswept_by_half_millisecond :
    let origin := Origin.create 1 0
    let calls := [Call.put "a" ⟨"1", false⟩ {}, .enable 1000000 500000 none, .advance 5000000]
    ∃ event ∈ origin.history calls, event.pass?.isSome ∧
      event.after.store.chain.toList ≠ event.engine.store.chain.toList.filter
        (¬·.Overdue event.after.now (some 500000)) := by
  decide +kernel

end RecencyCache
