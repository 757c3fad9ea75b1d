import RecencyCache.Proofs.Balance
import RecencyCache.Proofs.Creation
import RecencyCache.Proofs.SurviveTime
import RecencyCache.Proofs.Values

/-!
# Disposal

An operation completes all its changes before it disposes of the values that have gone. A faulty
value among them therefore breaks off the reply, but not the operation. Each value that was stored
or is to be stored is accounted for: it is stored afterwards, or has been disposed of.
-/

namespace RecencyCache

/-! ## Plain stores -/

/-- An operation that is otherwise complete is broken off by any faulty value among those that it
disposes of. -/
theorem disposing_eq_disposal_iff {α : Type} {disposed : List Value} {answer : α} :
    disposing disposed answer = .error .disposal ↔ ∃ value ∈ disposed, value.faulty = true := by
  rw [← List.any_eq_true, disposing]
  split
  · rename_i faulty
    exact iff_of_true rfl faulty
  · rename_i intact
    exact iff_of_false (by simp) intact

namespace PlainStore

variable {store : PlainStore} {key : Key}

/-- The stored values. -/
def values (store : PlainStore) : List Value := store.entries.map (·.value)

/-- Of the values that are stored and those that are given, an operation disposes of some and stores
the others. It has an answer unless one of those that it has disposed of is faulty. -/
structure Disposes {α : Type} (store : PlainStore) (given : List Value)
    (done : Except Fault α × PlainStore) (disposed : List Value) : Prop where
  parts : (store.values ++ given).Perm (done.2.values ++ disposed)
  result_eq : ∃ answer, done.1 = disposing disposed answer

/-- An operation disposes of the values of the entries that it takes out. -/
theorem disposes_of_perm {α : Type} {left : PlainStore} {gone : List Entry} (answer : α)
    (parts : store.entries.Perm (left.entries ++ gone)) :
    store.Disposes [] (disposing (gone.map (·.value)) answer, left) (gone.map (·.value)) := by
  refine ⟨?_, answer, rfl⟩
  rw [values, values, List.append_nil, ← List.map_append]
  exact parts.map _

/-- An operation that disposes of nothing keeps the values. -/
theorem disposes_nil {α : Type} {left : PlainStore} (answer : α)
    (kept : store.values.Perm left.values) : store.Disposes [] (.ok answer, left) [] :=
  ⟨kept.append_right [], answer, rfl⟩

/-- Any entries are the others of a key and those of the key. -/
theorem perm_others_append (store : PlainStore) (key : Key) :
    store.entries.Perm (store.others key ++ store.entries.filter (·.key = key)) := by
  have parts :=
    List.filter_append_perm (fun entry : Entry => decide (entry.key ≠ key)) store.entries
  simp only [decide_not, Bool.not_not] at parts
  rw [others]
  simpa using parts.symm

/-- An insertion disposes of what it replaces and evicts, or of what it is given if there is no
capacity. -/
theorem exists_disposes_put (key : Key) (value : Value) (options : EntryOptions) {moment : Moment}
    (readable : store.capacity = 0 ∨ moment.timeOfDay.isOk = true) :
    ∃ disposed, store.Disposes [value] (store.put key value options moment) disposed := by
  rw [put]
  split
  · exact ⟨[value], .refl _, (), rfl⟩
  · rename_i room
    cases clock : moment.timeOfDay with
    | error fault => simp [clock, room, Except.isOk, Except.toBool] at readable
    | ok timeOfDay =>
        refine ⟨_, ?_, (), rfl⟩
        have parts := store.perm_others_append key
        -- The others of the key are kept or evicted.
        rw [← List.take_append_drop (store.capacity - 1) (store.others key)] at parts
        have values := (parts.map (·.value)).append_right [value]
        refine List.perm_iff_count.mpr fun other => ?_
        have same := values.count_eq other
        have created : (Entry.create key value options moment.now timeOfDay).value = value := rfl
        simp only [PlainStore.values, List.map_append, List.map_cons, List.count_append,
          List.count_cons, List.count_nil, created] at same ⊢
        omega

/-- An insertion for which there is room is broken off while the time of day cannot be told. -/
theorem put_of_untold (room : store.capacity ≠ 0) (key : Key) (value : Value)
    (options : EntryOptions) {moment : Moment} {fault : Fault}
    (untold : moment.timeOfDay = .error fault) :
    (store.put key value options moment).1 = .error fault := by
  simp only [put, if_neg room, untold]

/-- A lookup disposes of a dead entry. -/
theorem exists_disposes_lookup (distinct : (store.entries.map (·.key)).Nodup) (key : Key)
    (now : Nat) : ∃ disposed, store.Disposes [] (store.lookup key now) disposed := by
  rw [lookup]
  cases found : store.find? key with
  | none => exact ⟨[], disposes_nil none (.refl _)⟩
  | some entry =>
      obtain ⟨newer, older, split, others, -⟩ := split_of_find? distinct found
      simp only
      split
      · refine ⟨[entry.value], ?_, none, rfl⟩
        rw [values, values, List.append_nil, split, others, List.map_append, List.map_append,
          List.map_cons]
        exact List.perm_middle.trans (List.perm_append_singleton _ _).symm
      · refine ⟨[], disposes_nil _ ?_⟩
        rw [values, values, split, others]
        simp [List.perm_middle]

theorem exists_disposes_lookupSince (distinct : (store.entries.map (·.key)).Nodup) (key : Key)
    (since : Int) (now : Nat) :
    ∃ disposed, store.Disposes [] (store.lookupSince key since now) disposed := by
  rw [lookupSince]
  split
  · exact ⟨[], disposes_nil none (.refl _)⟩
  · split
    · exact exists_disposes_lookup distinct key now
    · exact ⟨[], disposes_nil none (.refl _)⟩

theorem disposes_remove (store : PlainStore) (key : Key) :
    store.Disposes [] (store.remove key)
      ((store.entries.filter (·.key = key)).map (·.value)) :=
  disposes_of_perm _ (store.perm_others_append key)

theorem disposes_clear (store : PlainStore) :
    store.Disposes [] store.clear (store.entries.map (·.value)) :=
  disposes_of_perm () (.refl _)

theorem disposes_setCapacity (store : PlainStore) (capacity : Nat) :
    store.Disposes [] (store.setCapacity capacity)
      ((store.entries.drop capacity).map (·.value)) := by
  refine disposes_of_perm () ?_
  rw [List.take_append_drop]

theorem disposes_sweep (store : PlainStore) (now : Nat) (default : Option Nat) :
    store.Disposes [] (store.sweep now default)
      ((store.entries.filter (·.expired now default)).map (·.value)) := by
  refine disposes_of_perm _ ?_
  have parts :=
    List.filter_append_perm (fun entry : Entry => !entry.expired now default) store.entries
  simpa using parts.symm

end PlainStore

/-! ## Operations -/

/-- The stored values. -/
def Engine.values (engine : Engine) : List Value :=
  engine.store.chain.toList.map (·.value)

/-- The values that an action is given to store. -/
def Action.given : Action → List Value
  | .put _ value _ => [value]
  | .putIfAbsent _ text => [{ text }]
  | _ => []

/-- The time of day can be told if the event asks for it, which it does to store a new entry. -/
def Event.Told (event : Event) : Prop :=
  event.target? = none ∨ event.engine.moment.timeOfDay.isOk = true

/-- Of the values that are stored and those that are given, the event disposes of some and stores
the others. It is broken off by a faulty one among those that it disposes of. -/
structure Event.Disposes (event : Event) (disposed : List Value) : Prop where
  parts : (event.engine.values ++ event.action.given).Perm (event.after.values ++ disposed)
  broken_iff : event.reply = .broken .disposal ↔ ∃ value ∈ disposed, value.faulty = true

namespace Event

variable {engine : Engine} {action : Action}

/-- An event with the result of an operation on the plain store disposes of the same values. -/
theorem exists_disposes_of_conclude {α : Type} {done : Except Fault α × PlainStore}
    {tell : α → Reply} (sound : engine.Sound)
    (same : PlainEngine.act action engine.plain = engine.plain.conclude tell done)
    (answers : ∀ answer, tell answer ≠ .broken .disposal)
    (disposes : ∃ disposed, engine.plain.store.Disposes action.given done disposed) :
    ∃ disposed, Disposes ⟨engine, action⟩ disposed := by
  obtain ⟨disposed, parts, answer, result⟩ := disposes
  have matching := Engine.act_matches sound.represents action
  rw [same] at matching
  refine ⟨disposed, ?_, ?_⟩
  · have left : (after ⟨engine, action⟩).values = done.2.values :=
      congrArg (·.store.values) matching.plain_eq
    rw [left]
    exact parts
  · have told : reply ⟨engine, action⟩ = Reply.ofResult tell done.1 := matching.result_eq
    have broken : disposing disposed answer = .error .disposal ↔ _ := disposing_eq_disposal_iff
    rw [told, ← broken, result]
    cases disposing disposed answer with
    | ok answer => simpa [Reply.ofResult] using answers answer
    | error fault => simp [Reply.ofResult]

/-- An event that keeps the values and is given none disposes of nothing. -/
theorem exists_disposes_of_kept (kept : (after ⟨engine, action⟩).values = engine.values)
    (given : action.given = []) (unbroken : reply ⟨engine, action⟩ ≠ .broken .disposal) :
    ∃ disposed, Disposes ⟨engine, action⟩ disposed := by
  refine ⟨[], ?_, iff_of_false unbroken (by simp)⟩
  rw [given, kept]

/-- An attempt to start a sweeper disposes of nothing. -/
theorem exists_disposes_enable (engine : Engine) (interval survive : Nat) (name : Option String) :
    ∃ disposed, Disposes ⟨engine, .enable interval survive name⟩ disposed := by
  have kept : (engine.enable interval survive name).2.store = engine.store ∧
      (engine.enable interval survive name).1 ≠ .error .disposal := by
    rw [Engine.enable]
    split
    · split
      · simp
      · simp only
        split <;> simp
    · simp
  refine exists_disposes_of_kept ?_ rfl ?_
  · exact congrArg (fun store => store.chain.toList.map (·.value)) kept.1
  · intro broken
    refine kept.2 ?_
    change Reply.ofResult .flag (engine.enable interval survive name).1 = _ at broken
    cases result : (engine.enable interval survive name).1 with
    | ok truth =>
        rw [result] at broken
        cases broken
    | error fault =>
        rw [result] at broken
        cases broken
        rfl

/-- The end of a call that gets or creates a value disposes of that value if there is one
already. -/
theorem exists_disposes_putIfAbsent {key : Key} {text : String} (sound : engine.Sound)
    (told : Told ⟨engine, .putIfAbsent key text⟩) :
    ∃ disposed, Disposes ⟨engine, .putIfAbsent key text⟩ disposed := by
  cases found : engine.store.live? key engine.now with
  | some winner =>
      have lost : Action.run (.putIfAbsent key text) engine =
          (.found (some winner.value.text), engine) := by
        rw [Action.run, Engine.putIfAbsent, found]
        rfl
      refine ⟨[{ text }], ?_, iff_of_false ?_ (by simp)⟩
      · rw [after, lost]
        exact .refl _
      · rw [reply, lost]
        simp
  | none =>
      have stores : PlainEngine.act (.putIfAbsent key text) engine.plain =
          engine.plain.conclude (fun _ => .found (some text))
            (engine.plain.store.put key { text } {} engine.plain.moment) := by
        rw [PlainEngine.act, PlainEngine.putIfAbsent, Engine.live?_plain sound.represents, found]
      refine exists_disposes_of_conclude sound stores (by simp) ?_
      refine PlainStore.exists_disposes_put key { text } {} ?_
      refine told.imp_left fun absent => ?_
      have full : engine.store.capacity = 0 := by simpa [target?, found] using absent
      exact full

/-- Every operation accounts for all values, and for its being broken off by a faulty one. -/
theorem exists_disposes (sound : engine.Sound) (operation : action.isWake = false)
    (told : Told ⟨engine, action⟩) : ∃ disposed, Disposes ⟨engine, action⟩ disposed := by
  have distinct := Engine.nodup_keys_plain sound.represents
  cases action with
  | put key value options =>
      refine exists_disposes_of_conclude sound rfl (by simp) ?_
      refine PlainStore.exists_disposes_put key value options ?_
      refine told.imp_left fun absent => ?_
      have full : engine.store.capacity = 0 := by simpa [target?] using absent
      exact full
  | putIfAbsent key text => exact exists_disposes_putIfAbsent sound told
  | get key | getWithSnapshot key =>
      exact exists_disposes_of_conclude sound rfl (by simp)
        (PlainStore.exists_disposes_lookup distinct key engine.now)
  | getSince key since =>
      exact exists_disposes_of_conclude sound rfl (by simp)
        (PlainStore.exists_disposes_lookupSince distinct key since engine.now)
  | remove key =>
      exact exists_disposes_of_conclude sound rfl (by simp) ⟨_, PlainStore.disposes_remove _ key⟩
  | clear => exact exists_disposes_of_conclude sound rfl (by simp) ⟨_, PlainStore.disposes_clear _⟩
  | setCapacity capacity =>
      cases capacity with
      | ofNat capacity =>
          exact exists_disposes_of_conclude sound rfl (by simp)
            ⟨_, PlainStore.disposes_setCapacity _ capacity⟩
      | negSucc capacity =>
          have refused : reply ⟨engine, .setCapacity (.negSucc capacity)⟩ =
              .refused (.invalidCapacity (.negSucc capacity)) := rfl
          exact exists_disposes_of_kept rfl rfl (by simp [refused])
  | purge default =>
      exact exists_disposes_of_conclude sound rfl (by simp)
        ⟨_, PlainStore.disposes_sweep _ engine.now default⟩
  | enable interval survive name => exact exists_disposes_enable engine interval survive name
  | ask | setRefreshOnHit | disable | rest =>
      exact exists_disposes_of_kept rfl rfl (by simp [reply, Action.run])
  | wake => cases operation

/-- An insertion is broken off while the time of day cannot be told, whatever it disposes of. -/
theorem Inserts.reply_of_untold {event : Event} {key : Key} {text : String}
    {lifetime : Option Nat} {fault : Fault} (inserts : event.Inserts key text lifetime)
    (sound : event.engine.Sound) (untold : event.engine.moment.timeOfDay = .error fault) :
    event.reply = .broken fault := by
  have same := (Engine.act_matches sound.represents event.action).result_eq
  cases inserts with
  | @put engine key value options room =>
      have unstored :
          (engine.plain.store.put key value options engine.plain.moment).1 = .error fault :=
        PlainStore.put_of_untold room key value options untold
      rw [reply, same, PlainEngine.act, PlainEngine.conclude, unstored]
      rfl
  | @putIfAbsent engine key text room absent =>
      have unstored :
          (engine.plain.store.put key { text } {} engine.plain.moment).1 = .error fault :=
        PlainStore.put_of_untold room key { text } {} untold
      rw [reply, same, PlainEngine.act, PlainEngine.putIfAbsent,
        Engine.live?_plain sound.represents, absent]
      simp only [PlainEngine.conclude, unstored]
      rfl

end Event

/-! ## Calls that get or create a value -/

/-- The clock for the time of day disposes of nothing. -/
theorem timeOfDay_ne_disposal (epoch : Int) (now : Nat) :
    (Moment.after epoch now).timeOfDay ≠ .error .disposal := by
  rw [Moment.after, Moment.readClock]
  split
  · simp
  · split <;> simp

/-- An insertion that a faulty value breaks off has stored the new entry. -/
theorem Engine.Sound.holds_of_disposal {engine after : Engine} {key : Key} {text : String}
    (sound : engine.Sound) (broken : engine.put key { text } {} = (.error .disposal, after)) :
    after.Holds key text := by
  have same := Engine.put_matches sound key { text } {}
  rw [broken] at same
  have room : engine.plain.store.capacity ≠ 0 := by
    intro full
    have result := same.result_eq
    simp [PlainStore.put, full, disposing] at result
  obtain ⟨timeOfDay, told⟩ : ∃ timeOfDay, engine.plain.moment.timeOfDay = .ok timeOfDay := by
    cases clock : engine.plain.moment.timeOfDay with
    | ok timeOfDay => exact ⟨timeOfDay, rfl⟩
    | error fault =>
        have result := same.result_eq
        rw [PlainStore.put_of_untold room key { text } {} clock] at result
        cases result
        exact absurd clock (timeOfDay_ne_disposal _ _)
  have soundAfter : after.Sound := by
    have run := (sound.run (.put key { text } {})).1
    rw [Action.run, broken] at run
    exact run
  obtain ⟨entry, live, kept⟩ : ∃ entry, after.store.live? key after.now = some entry ∧
      entry.value = { text } := by
    rw [← live?_plain same.1, same.plain_eq]
    exact PlainStore.exists_live?_put_of_told room told
  have holds := soundAfter.holds_of_live live
  rw [kept] at holds
  exact holds

/-- How a call that gets or creates a value ends if a faulty value breaks it off. -/
inductive Call.Broken (engine : Engine) (key : Key) (supplier : List Call) :
    Ending → List Event → Engine → Prop where
  /-- The first lookup has taken out a dead entry and counted it, and the supplier is not called. -/
  | looking {ending : Ending} {missed : Engine} :
      engine.Misses key true missed → missed = (engine.get key).2 →
      Broken engine key supplier ending [⟨engine, .get key⟩] missed
  /-- The value that the supplier has made is stored, after as much has been evicted as is evicted
  with nothing amiss. -/
  | storing {text : String} {missed left after : Engine} :
      engine.Misses key false missed → left = (Call.runAll supplier missed).2 →
      after = (left.put key { text } {}).2 →
      after.harmless = (left.harmless.put key { text } {}).2 → after.Holds key text →
      Broken engine key supplier (.value text)
        (⟨engine, .get key⟩ :: (Call.traceAll supplier missed ++ [⟨left, .putIfAbsent key text⟩]))
        after

/-- There are no other ends. -/
theorem Call.broken_of_disposal {engine : Engine} (sound : engine.Sound) {key : Key}
    {supplier : List Call} {ending : Ending}
    (broken : (run (.getOrCreate key supplier ending) engine).1 = .broken .disposal) :
    Broken engine key supplier ending (trace (.getOrCreate key supplier ending) engine)
      (run (.getOrCreate key supplier ending) engine).2 := by
  have creation := Call.creation sound key supplier ending
  rw [broken] at creation
  generalize trace (.getOrCreate key supplier ending) engine = events at creation ⊢
  generalize (run (.getOrCreate key supplier ending) engine).2 = after at creation ⊢
  cases creation with
  | broken misses => exact .looking misses misses.left.symm
  | @unstored text missed left after steps fault misses supplied dead stored =>
      have sameLeft : left = (runAll supplier missed).2 := (congrArg Prod.snd supplied).symm
      have sameAfter : after = (left.put key { text } {}).2 := (congrArg Prod.snd stored).symm
      have leftSound := Creation.sound_left sound misses supplied
      have spares := (Action.run_spares (.put key { text } {}) left).left
      refine .storing misses sameLeft sameAfter ?_ (leftSound.holds_of_disposal stored)
      rw [sameAfter]
      exact spares.symm

/-! ## Passes -/

/-- A sweeper in charge has made a pass by the time at which it is due, once nobody is due. -/
theorem Engine.Charges.exists_pass {first last : Engine} {events : List Event} {sweeper : Sleeper}
    (charges : first.Charges sweeper) (path : Path first events last) (numbered : first.Numbered)
    (timely : ∀ event ∈ events, event.Timely) (kept : ∀ event ∈ events, ¬event.Stops)
    (rested : last.Rested) (due : sweeper.wakeAt ≤ last.now) :
    ∃ event ∈ events, event.pass? = some sweeper ∧ event.after.now = sweeper.wakeAt := by
  obtain ⟨count, made, still⟩ := charges.exists_passes_eq path numbered timely kept
  cases count with
  | zero =>
      -- The sweeper would be asleep and due.
      rw [sweeper.afterPasses_zero] at still
      have early := rested sweeper still.asleep
      omega
  | succ count =>
      have first : (sweeper.wakeAt, sweeper) ∈ passes events := by
        rw [made, List.range_succ_eq_map, List.map_cons, sweeper.afterPasses_zero]
        exact List.mem_cons_self
      obtain ⟨event, member, pass⟩ := List.mem_filterMap.mp first
      obtain ⟨_, passed, same⟩ := Option.map_eq_some_iff.mp pass
      obtain ⟨time, rfl⟩ := Prod.mk.inj same
      exact ⟨event, member, passed, time⟩

/-- A pass takes out all entries that are expired and counts them. The sweeper that has made it is
asleep for another interval and remains in charge. -/
structure Event.CompletesPass (event : Event) (sweeper : Sleeper) : Prop where
  kept : event.after.store.chain.toList = event.engine.store.chain.toList.filter
    (!·.expired event.after.now event.engine.control.surviveTime)
  counters : event.after.store.counters = event.engine.store.counters.expired
    (event.engine.store.chain.toList.filter
      (·.expired event.after.now event.engine.control.surviveTime)).length
  asleep : sweeper.renewed ∈ event.after.sleepers
  current : event.after.control.isCurrent sweeper.renewed.generation = true

theorem Event.completesPass {event : Event} {sweeper : Sleeper} (sound : event.engine.Sound)
    (pass : event.pass? = some sweeper) : event.CompletesPass sweeper := by
  have charges := (Engine.Swept.of_pass sound pass).charges
  exact ⟨toList_of_pass sound pass, congrArg PlainStore.counters (store_of_pass sound pass),
    charges.asleep, charges.current⟩

/-! ## Completeness -/

/-- On an engine with any faulty values, whatever is begun is completed. -/
structure Engine.CompletesAll (engine : Engine) : Prop where
  /-- An action leaves slots, links, directory, data, counters and everything else as it does with
  nothing amiss in any value. -/
  left : ∀ action : Action,
    (action.harmless.run engine.harmless).2 = (action.run engine).2.harmless
  /-- Unless an operation is to store a new entry and cannot be told the time of day, it is broken
  off by a faulty value if and only if it disposes of one. -/
  broken : ∀ action : Action, action.isWake = false → Event.Told ⟨engine, action⟩ →
    ∃ disposed, Event.Disposes ⟨engine, action⟩ disposed
  /-- If it cannot be told the time of day, it is broken off for that reason, whatever it disposes
  of. -/
  untold : ∀ action key fault, Event.target? ⟨engine, action⟩ = some key →
    engine.moment.timeOfDay = .error fault → (action.run engine).1 = .broken fault
  /-- What is not broken off by a faulty value replies as it does with nothing amiss. -/
  replied : ∀ action : Action, (action.run engine).1 ≠ .broken .disposal →
    (action.harmless.run engine.harmless).1 = (action.run engine).1
  /-- A call that gets or creates a value is broken off after its first lookup or after its
  insertion. -/
  created : ∀ key supplier ending,
    (Call.run (.getOrCreate key supplier ending) engine).1 = .broken .disposal →
      Call.Broken engine key supplier ending (Call.trace (.getOrCreate key supplier ending) engine)
        (Call.run (.getOrCreate key supplier ending) engine).2
  /-- Every pass in the course of a program is complete, and unless sweeping is switched off, the
  same sweeper has made the next one as soon as another interval has gone by. -/
  swept : ∀ calls past pass middle future sweeper,
    Call.traceAll calls engine = past ++ pass :: (middle ++ future) →
    pass.pass? = some sweeper →
      pass.CompletesPass sweeper ∧
        ((∀ event ∈ middle, ¬event.Stops) → Settled middle →
          sweeper.renewed.wakeAt ≤ (pass.after.through middle).now →
            ∃ event ∈ middle, event.pass? = some sweeper.renewed ∧
              event.after.now = pass.after.now + sweeper.interval)

/-- In a course of timely events, the sweeper that has made a pass has made the next one as soon as
another interval has gone by. -/
theorem Path.exists_next_pass {first last : Engine} {past middle future : List Event}
    {pass : Event} {sweeper : Sleeper} (path : Path first (past ++ pass :: (middle ++ future)) last)
    (sound : first.Sound) (numbered : first.Numbered)
    (timely : ∀ event ∈ past ++ pass :: (middle ++ future), event.Timely)
    (made : pass.pass? = some sweeper) (kept : ∀ event ∈ middle, ¬event.Stops)
    (settled : Settled middle) (due : sweeper.renewed.wakeAt ≤ (pass.after.through middle).now) :
    ∃ event ∈ middle, event.pass? = some sweeper.renewed ∧
      event.after.now = pass.after.now + sweeper.interval := by
  obtain ⟨before, after⟩ := path.split
  have between := after.path_through (List.prefix_append middle future)
  have charges := (Engine.Swept.of_pass (sound.of_path before) made).charges
  have numberedAfter := (numbered.of_path before).run pass.action
  have betweenTimely : ∀ event ∈ middle, event.Timely := fun event member =>
    timely event (by simp [member])
  have time : pass.after.now = sweeper.wakeAt := Event.now_of_pass made
  have restedLast : (pass.after.through middle).Rested := by
    rcases List.eq_nil_or_concat middle with rfl | ⟨earlier, event, rfl⟩
    · have early : pass.after.now < sweeper.renewed.wakeAt :=
        time ▸ Nat.lt_add_of_pos_right sweeper.interval_pos
      exact absurd due (Nat.not_le_of_lt early)
    · rw [List.concat_eq_append] at between settled betweenTimely ⊢
      rw [← between.split.2.through_eq]
      exact (betweenTimely event (by simp)).rested_after
        (Event.woken?_eq_none (settled event (by simp)))
  obtain ⟨event, member, next, later⟩ :=
    charges.exists_pass between numberedAfter betweenTimely kept restedLast due
  exact ⟨event, member, next, by rw [later, time]; rfl⟩

/-- Whatever values are faulty, nothing is left half done: an operation changes the engine as if
none were, and is broken off only after that, if it has disposed of a faulty one. -/
theorem Engine.completes_all {engine : Engine} (sound : engine.Sound) (numbered : engine.Numbered)
    (rested : engine.Rested) : engine.CompletesAll := by
  constructor
  case left => exact fun action => (action.run_spares engine).left
  case broken => exact fun action operation told => Event.exists_disposes sound operation told
  case untold =>
    intro action key fault target untold
    obtain ⟨text, lifetime, inserts⟩ := Event.target?_eq_some_iff.mp target
    exact inserts.reply_of_untold sound untold
  case replied => exact fun action => (action.run_spares engine).told
  case created => exact fun key supplier ending broken => Call.broken_of_disposal sound broken
  case swept =>
    intro calls past pass middle future sweeper split made
    have path := Call.path_traceAll calls engine
    have timely := (Call.timely_traceAll calls rested).1
    rw [split] at path timely
    refine ⟨Event.completesPass (sound.of_path path.split.1) made, ?_⟩
    exact fun kept settled due =>
      path.exists_next_pass sound numbered timely made kept settled due

/-- Both stored values are faulty. An insertion evicts one, and a sweeper takes out the same one
when its time is over and goes on. -/
theorem Engine.completes_all_faulty_entries :
    let origin := Origin.create 2 0
    let calls := [Call.put "a" ⟨"1", true⟩ { timeToLive := some 5 }, .put "b" ⟨"2", true⟩ {},
      .enable 10 1000000 none]
    let engine := (Call.runAll calls origin.engine).2
    let insertion : Event := ⟨engine, .put "c" ⟨"3", false⟩ {}⟩
    let course := Call.traceAll [.advance 20] engine
    let left := (Call.runAll [.advance 20] engine).2
    (engine.Sound ∧ engine.Numbered ∧ engine.Rested) ∧ engine.CompletesAll ∧
      engine.values = [⟨"2", true⟩, ⟨"1", true⟩] ∧
      (insertion.reply matches .broken .disposal) ∧
      insertion.after.values = [⟨"3", false⟩, ⟨"2", true⟩] ∧
      insertion.after.store.counters.evictions = 1 ∧
      (passes course).map (·.1) = [10, 20] ∧ left.values = [⟨"2", true⟩] ∧
      left.store.counters.expirations = 1 := by
  intro origin calls engine insertion course left
  have path : Path origin.engine (Call.traceAll calls origin.engine) engine :=
    Call.path_traceAll calls origin.engine
  have sound : engine.Sound := origin.sound.of_path path
  have numbered : engine.Numbered := origin.numbered_blank.of_path path
  have rested : engine.Rested := (Call.timely_traceAll calls origin.rested_blank).2
  exact ⟨⟨sound, numbered, rested⟩, Engine.completes_all sound numbered rested,
    by decide +kernel, by decide +kernel, by decide +kernel, by decide +kernel,
    by decide +kernel, by decide +kernel, by decide +kernel⟩

/-- Past the end of the calendar, an insertion that disposes of a faulty value is not broken off for
that reason. -/
theorem Engine.unbroken_past_calendar :
    let origin := Origin.create 1 (8210266876799999 * 1000000)
    let calls := [Call.put "a" ⟨"1", true⟩ {}, .advance 1000000]
    let insertion : Event := ⟨(Call.runAll calls origin.engine).2, .put "a" ⟨"2", false⟩ {}⟩
    let disposed : List Value := [⟨"2", false⟩, ⟨"1", true⟩]
    (insertion.engine.values ++ insertion.action.given).Perm (insertion.after.values ++ disposed) ∧
      (∃ value ∈ disposed, value.faulty = true) ∧
      ¬(insertion.reply matches .broken .disposal) := by
  decide +kernel

end RecencyCache
