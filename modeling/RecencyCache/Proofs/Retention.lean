import RecencyCache.Proofs.Sweeping

/-!
# Retention

How long a dead entry may remain stored. While a sweeper is in charge that has made a pass, nothing
is stored that would have been taken out in its latest pass: what was there then has stayed for a
reason, and what has come since then is younger. The latest pass is less than one interval ago.
-/

namespace RecencyCache

/-! ## Entries over time -/

namespace Entry

variable {entry : Entry} {time now : Nat} {default : Option Nat}

/-- Nothing has been idle for long before its last access. -/
theorem neglected_eq_false (recent : time ≤ entry.lastAccessAt) :
    entry.neglected time default = false := by
  have idle : entry.idle time = 0 := Nat.sub_eq_zero_of_le recent
  rw [neglected, idle]
  split <;> simp

/-- A new entry would have been spared by an earlier sweep. -/
theorem spared_create (earlier : time ≤ now) (key : Key) (value : Value) (options : EntryOptions)
    (timeOfDay : Timestamp) :
    (create key value options now timeOfDay).expired time default = false := by
  rw [expired, outlived_create earlier, neglected_eq_false earlier, Bool.or_false]

/-- Hits do not make an earlier sweep more severe. -/
theorem spared_touch (spared : entry.expired time default = false) (earlier : time ≤ now)
    (refresh : Bool) : (entry.touch now refresh).expired time default = false := by
  cases refresh with
  | false => exact spared
  | true =>
      rw [expired, Bool.or_eq_false_iff] at spared
      rw [expired, outlived_touch, spared.1, neglected_eq_false earlier, Bool.or_false]

/-- The time to live of an entry that is spared is not over. -/
theorem lt_of_spared (spared : entry.expired time default = false) {lifetime : Nat}
    (limited : entry.timeToLive = some lifetime) : time < entry.createdAt + lifetime := by
  rw [expired, Bool.or_eq_false_iff, outlived, limited, age] at spared
  have young := of_decide_eq_false spared.1
  omega

/-- The survive time of an entry that is spared is not exceeded. -/
theorem le_of_spared (spared : entry.expired time default = false) {survive : Nat}
    (limited : entry.surviveTime.or default = some survive) :
    time ≤ entry.lastAccessAt + survive := by
  rw [expired, Bool.or_eq_false_iff, neglected, limited, idle] at spared
  have busy := of_decide_eq_false spared.2
  omega

/-- The entry is an old one, one that has just been touched, or a new one. -/
inductive Stems (old : List Entry) (now : Nat) : Entry → Prop where
  | kept {entry : Entry} : entry ∈ old → Stems old now entry
  | touched {entry : Entry} (refresh : Bool) : entry ∈ old → Stems old now (entry.touch now refresh)
  | created (key : Key) (value : Value) (options : EntryOptions) (timeOfDay : Timestamp) :
      Stems old now (create key value options now timeOfDay)

theorem Stems.spared {old : List Entry} (stems : entry.Stems old now)
    (spared : ∀ entry ∈ old, entry.expired time default = false) (earlier : time ≤ now) :
    entry.expired time default = false := by
  cases stems with
  | kept member => exact spared entry member
  | touched refresh member => exact spared_touch (spared _ member) earlier refresh
  | created key value options timeOfDay => exact spared_create earlier key value options timeOfDay

end Entry

namespace PlainStore

variable {store : PlainStore} {key : Key} {entry : Entry}

theorem stems_of_mem_put {value : Value} {options : EntryOptions} {moment : Moment}
    (member : entry ∈ (store.put key value options moment).2.entries) :
    entry.Stems store.entries moment.now := by
  rcases mem_put member with ⟨-, timeOfDay, -, rfl⟩ | ⟨stored, -⟩
  · exact .created key value options timeOfDay
  · exact .kept stored

theorem stems_of_mem_lookup {now : Nat} (member : entry ∈ (store.lookup key now).2.entries) :
    entry.Stems store.entries now := by
  rcases mem_lookup member with stored | ⟨old, stored, rfl⟩
  · exact .kept stored
  · exact .touched store.refreshOnHit stored

theorem stems_of_mem_lookupSince {since : Int} {now : Nat}
    (member : entry ∈ (store.lookupSince key since now).2.entries) :
    entry.Stems store.entries now := by
  rcases mem_lookupSince member with stored | ⟨old, stored, rfl⟩
  · exact .kept stored
  · exact .touched store.refreshOnHit stored

end PlainStore

/-- Every action leaves only old entries, touched ones and new ones. -/
theorem PlainEngine.stems_of_mem_act {engine : PlainEngine} {action : Action} {entry : Entry}
    (member : entry ∈ (act action engine).2.store.entries) :
    entry.Stems engine.store.entries engine.now := by
  cases action with
  | put key value options => exact PlainStore.stems_of_mem_put member
  | putIfAbsent key text =>
      rw [act, putIfAbsent] at member
      split at member
      · exact .kept member
      · exact PlainStore.stems_of_mem_put member
  | get key | getWithSnapshot key => exact PlainStore.stems_of_mem_lookup member
  | getSince key since => exact PlainStore.stems_of_mem_lookupSince member
  | remove key => exact .kept (PlainStore.mem_others_iff.mp member).1
  | clear => simp [act, conclude, PlainStore.clear] at member
  | setCapacity capacity =>
      cases capacity with
      | ofNat capacity => exact .kept (List.mem_of_mem_take member)
      | negSucc capacity => exact .kept member
  | purge default => exact .kept (List.mem_of_mem_filter member)
  | enable interval survive name =>
      rw [act, store_enable] at member
      exact .kept member
  | wake =>
      rcases engine.store_act_wake with same | ⟨now, default, swept⟩
      · exact .kept (same ▸ member)
      · rw [swept] at member
        exact .kept (List.mem_of_mem_filter member)
  | setRefreshOnHit | disable | rest | ask => exact .kept member

namespace Event

variable {event : Event} {sweeper : Sleeper}

theorem stems_of_mem (sound : event.engine.Sound) {entry : Entry}
    (member : entry ∈ event.after.store.chain.toList) :
    entry.Stems event.engine.store.chain.toList event.engine.now := by
  have same := (Engine.act_matches sound.represents event.action).plain_eq
  have member : entry ∈ event.after.plain.store.entries := member
  rw [after, same] at member
  exact PlainEngine.stems_of_mem_act member

/-- A pass spares what it leaves. -/
theorem spared_of_pass (sound : event.engine.Sound) (pass : event.pass? = some sweeper) :
    ∀ entry ∈ event.after.store.chain.toList,
      entry.expired sweeper.wakeAt event.engine.control.surviveTime = false := by
  rcases event with ⟨engine, action⟩
  obtain ⟨wakes, current⟩ := Option.filter_eq_some_iff.mp pass
  obtain ⟨rfl, before, later, split⟩ := exists_split_of_woken? wakes
  have current : engine.plain.control.isCurrent sweeper.generation = true := current
  have left : after ⟨engine, .wake⟩ = engine.wake before sweeper later := by
    rw [after, Action.run, split]
  obtain ⟨-, same⟩ := Engine.wake_plain sound.represents before sweeper later
  intro entry member
  have member : entry ∈ (after ⟨engine, .wake⟩).plain.store.entries := member
  rw [left, same, PlainEngine.wake, if_pos current] at member
  exact (Bool.not_eq_true' _).mp (List.mem_filter.mp member).2

end Event

/-! ## The latest pass -/

/-- The sweeper in charge has made a pass, in which it would have spared all that is stored. -/
structure Engine.Swept (engine : Engine) (sweeper : Sleeper) : Prop where
  charges : engine.Charges sweeper
  passed : sweeper.interval ≤ sweeper.wakeAt
  spared : ∀ entry ∈ engine.store.chain.toList,
    entry.expired (sweeper.wakeAt - sweeper.interval) engine.control.surviveTime = false

namespace Engine.Swept

variable {sweeper : Sleeper}

/-- An engine is swept after a pass. -/
theorem of_pass {event : Event} (sound : event.engine.Sound)
    (pass : event.pass? = some sweeper) : event.after.Swept sweeper.renewed := by
  have spared := Event.spared_of_pass sound pass
  rcases event with ⟨engine, action⟩
  obtain ⟨wakes, current⟩ := Option.filter_eq_some_iff.mp pass
  cases Event.course engine action with
  | aside _ unwoken | starts _ _ unwoken | jams _ _ unwoken | stops unwoken | rests _ unwoken =>
      rw [unwoken] at wakes
      cases wakes
  | ends before woken later otherWakes expired =>
      cases wakes.symm.trans otherWakes
      exact absurd current (by simp [expired])
  | passes before woken later store otherWakes _ _ _ left =>
      cases wakes.symm.trans otherWakes
      have latest : sweeper.renewed.wakeAt - sweeper.renewed.interval = sweeper.wakeAt :=
        Nat.add_sub_cancel ..
      refine ⟨⟨?_, ?_, ?_⟩, Nat.le_add_left _ _, ?_⟩
      · rw [left]
        exact current
      · rw [left]
        exact List.mem_append_right _ List.mem_cons_self
      · rw [left]
        exact Nat.le_refl _
      · rw [latest, congrArg Engine.control left]
        exact spared

/-- Unless sweeping is switched off, the engine remains swept by the same sweeper. -/
theorem after {event : Event} (swept : event.engine.Swept sweeper) (sound : event.engine.Sound)
    (numbered : event.engine.Numbered) (timely : event.Timely) (kept : ¬event.Stops) :
    ∃ later : Sleeper, later.generation = sweeper.generation ∧ event.after.Swept later := by
  obtain ⟨control, ⟨-, charged⟩ | ⟨pass, -⟩⟩ := swept.charges.after numbered timely kept
  -- No pass is made, and the latest one would have spared whatever has come since then.
  · refine ⟨sweeper, rfl, charged, swept.passed, ?_⟩
    intro entry member
    have recent := swept.charges.recent
    rw [control]
    exact (Event.stems_of_mem sound member).spared swept.spared (by omega)
  · exact ⟨sweeper.renewed, rfl, of_pass sound pass⟩

/-- As long as its generation lasts, the engine remains swept by the same sweeper. -/
theorem of_path {first last : Engine} {events : List Event} (swept : first.Swept sweeper)
    (path : Path first events last) (sound : first.Sound) (numbered : first.Numbered)
    (timely : ∀ event ∈ events, event.Timely)
    (current : last.control.isCurrent sweeper.generation = true) :
    ∃ later : Sleeper, later.generation = sweeper.generation ∧ last.Swept later := by
  induction path generalizing sweeper with
  | nil => exact ⟨sweeper, rfl, swept⟩
  | @cons engine last events action rest ih =>
      obtain ⟨now, later⟩ := List.forall_mem_cons.mp timely
      by_cases stops : Event.Stops ⟨engine, action⟩
      -- The generation would be over at the end.
      · have outdates := Engine.Outdates.of_stops stops numbered swept.charges.asleep
        have elapsed := (outdates.of_path rest).elapsed
        have present := (SweepControl.isCurrent_iff.mp current).2
        omega
      · obtain ⟨next, same, sweptNext⟩ := after swept sound numbered now stops
        rw [← same] at current
        obtain ⟨final, sameFinal, sweptFinal⟩ :=
          ih sweptNext (sound.run action).1 (numbered.run action) later current
        exact ⟨final, sameFinal.trans same, sweptFinal⟩

end Engine.Swept

/-- Between two operations, while a sweeper is in charge that has made a pass, its latest pass is
less than one interval ago. Whatever is stored had neither outlived its time to live nor exceeded
its survive time then, so it does not stay for a whole interval after that has happened, be there
faulty values or not. -/
theorem Origin.swept_within_interval (origin : Origin) (calls : List Call) {past : List Event}
    (reached : past <+: origin.history calls) (settled : Settled past) {sweeper : Sleeper}
    (asleep : sweeper ∈ (origin.blank.through past).sleepers)
    (current : (origin.blank.through past).control.isCurrent sweeper.generation = true)
    (passed : ∃ event ∈ past, ∃ earlier,
      event.pass? = some earlier ∧ earlier.generation = sweeper.generation) :
    let engine := origin.blank.through past
    let latest := sweeper.wakeAt - sweeper.interval
    sweeper.interval ≤ sweeper.wakeAt ∧ latest ≤ engine.now ∧ engine.now < sweeper.wakeAt ∧
      ∀ entry ∈ engine.store.chain.toList,
        (∀ lifetime, entry.timeToLive = some lifetime →
          latest < entry.createdAt + lifetime ∧
            engine.now < entry.createdAt + lifetime + sweeper.interval) ∧
        (∀ survive, entry.surviveTime.or engine.control.surviveTime = some survive →
          latest ≤ entry.lastAccessAt + survive ∧
            engine.now < entry.lastAccessAt + survive + sweeper.interval) := by
  intro engine latest
  have path : Path origin.blank past engine := (origin.path_history calls).path_through reached
  have timely : ∀ event ∈ past, event.Timely := fun event member =>
    origin.timely_history calls event (reached.subset member)
  have early := path.rested timely settled origin.rested_blank sweeper asleep
  have numbered := origin.numbered_blank.of_path path
  -- From its first pass on, the sweeper keeps the engine swept up to the end.
  obtain ⟨pass, member, earlier, passes, same⟩ := passed
  obtain ⟨before, since, split⟩ := List.append_of_mem member
  rw [split] at path timely
  obtain ⟨toPass, fromPass⟩ := path.split
  have sound := origin.sound_blank.of_path toPass
  have numberedThen := origin.numbered_blank.of_path toPass
  have sinceTimely : ∀ event ∈ since, event.Timely := fun event member =>
    timely event (by simp [member])
  have sweptThen := Engine.Swept.of_pass sound passes
  obtain ⟨later, sameLater, swept⟩ := sweptThen.of_path fromPass (sound.run pass.action).1
    (numberedThen.run pass.action) sinceTimely (by rw [← same] at current; exact current)
  have sameGeneration := sameLater.trans same
  obtain rfl := numbered.eq_of_generation_eq swept.charges.asleep asleep sameGeneration
  have recent := swept.charges.recent
  have started := swept.passed
  refine ⟨started, by omega, early, ?_⟩
  intro entry stored
  have spared := swept.spared entry stored
  constructor
  · intro lifetime limited
    have young : latest < entry.createdAt + lifetime := Entry.lt_of_spared spared limited
    exact ⟨young, by omega⟩
  · intro survive limited
    have busy : latest ≤ entry.lastAccessAt + survive := Entry.le_of_spared spared limited
    exact ⟨busy, by omega⟩

/-- A dead entry waits for the next pass, after an earlier one that disposed of a faulty value. -/
theorem Origin.swept_within_interval_dead_entry :
    let origin := Origin.create 2 0
    let calls := [Call.put "a" ⟨"1", true⟩ { timeToLive := some 5 },
      .put "b" ⟨"2", false⟩ { timeToLive := some 25 }, .enable 10 1000000 none, .advance 25]
    let past := origin.history calls
    let engine := origin.blank.through past
    Settled past ∧ engine.now = 25 ∧
      engine.store.chain.toList.map (fun entry => (entry.key, entry.live 25)) = [("b", false)] ∧
      ∃ sweeper ∈ engine.sleepers,
        sweeper.wakeAt = 30 ∧ sweeper.interval = 10 ∧
        engine.control.isCurrent sweeper.generation = true ∧
        (∃ event ∈ past, ∃ earlier,
          event.pass? = some earlier ∧ earlier.generation = sweeper.generation) ∧
        ∀ entry ∈ engine.store.chain.toList, ∀ lifetime, entry.timeToLive = some lifetime →
          20 < entry.createdAt + lifetime ∧ engine.now < entry.createdAt + lifetime + 10 := by
  intro origin calls past engine
  have settled : Settled past := by decide +kernel
  have asleep : engine.sleepers.map (fun sweeper =>
      (sweeper.wakeAt, sweeper.interval, sweeper.generation)) = [(30, 10, 0)] := by decide +kernel
  obtain ⟨sweeper, member, same⟩ := List.mem_map.mp (asleep ▸ List.mem_singleton_self _)
  obtain ⟨wakeAt, interval, generation⟩ : sweeper.wakeAt = 30 ∧ sweeper.interval = 10 ∧
      sweeper.generation = 0 := by simpa using same
  have current : engine.control.isCurrent sweeper.generation = true := by
    rw [generation]
    decide +kernel
  have made : (past.filterMap Event.pass?).map (·.generation) = [0, 0] := by decide +kernel
  have passed : ∃ event ∈ past, ∃ earlier,
      event.pass? = some earlier ∧ earlier.generation = sweeper.generation := by
    obtain ⟨earlier, pass, first⟩ := List.mem_map.mp (made ▸ List.mem_cons_self)
    obtain ⟨event, eventMember, found⟩ := List.mem_filterMap.mp pass
    exact ⟨event, eventMember, earlier, found, first.trans generation.symm⟩
  obtain ⟨-, -, -, stored⟩ :=
    origin.swept_within_interval calls List.prefix_rfl settled member current passed
  refine ⟨settled, by decide +kernel, by decide +kernel, sweeper, member, wakeAt, interval,
    current, passed, ?_⟩
  intro entry entryMember lifetime limited
  have bound := (stored entry entryMember).1 lifetime limited
  rwa [wakeAt, interval] at bound

end RecencyCache
