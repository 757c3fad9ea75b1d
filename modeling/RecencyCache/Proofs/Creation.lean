import RecencyCache.Proofs.Soundness

/-!
# Creation of values

A call that gets or creates a value looks its key up, and calls the supplier if nothing alive is
found. The supplier is a program of its own and may do anything to the engine meanwhile: store or
remove the very key, let time pass, leave no capacity, or make calls of the same kind. Whatever it
does, it is called once, and the value that the call answers with is the one that is stored then.
-/

namespace RecencyCache

/-! ## Plain stores -/

namespace PlainStore

variable {store : PlainStore} {key : Key} {now : Nat} {entry : Entry}

/-- What a lookup leaves that finds nothing alive: a dead entry is gone and counted as expired. -/
def missed (store : PlainStore) (key : Key) : PlainStore :=
  { store with
    entries := store.others key
    counters := store.counters.request.expired (store.find? key).isSome.toNat }

theorem live?_eq_some_iff :
    store.live? key now = some entry ↔ store.find? key = some entry ∧ entry.live now = true :=
  Option.filter_eq_some_iff

theorem find?_missed (store : PlainStore) (key : Key) : (store.missed key).find? key = none := by
  rw [find?_eq_none_iff]
  intro entry member
  exact (mem_others_iff.mp member).2

/-- Nothing but its counters tells apart a store in which an absent key has been looked up. -/
theorem missed_of_absent (absent : store.find? key = none) : store.missed key = store.countMiss := by
  rw [missed, others_of_find?_eq_none absent, absent]
  rfl

/-- A lookup that finds nothing alive is a miss, broken off if it disposes of a faulty value. -/
theorem lookup_of_dead (dead : store.live? key now = none) :
    store.lookup key now =
      (disposing ((store.find? key).toList.map (·.value)) none, store.missed key) := by
  rw [lookup]
  cases found : store.find? key with
  | none =>
      rw [missed_of_absent found]
      rfl
  | some entry =>
      have elapsed : entry.outlived now = true := by
        rw [live?, found, Option.filter_some] at dead
        simpa [Entry.live] using dead
      simp only [if_pos elapsed, missed, found]
      rfl

/-- A lookup touches the live entry that it finds and brings it to the front. -/
theorem lookup_eq_of_live (found : store.live? key now = some entry) :
    store.lookup key now =
      (.ok (some (entry.touch now store.refreshOnHit)),
        { store with
          entries := entry.touch now store.refreshOnHit :: store.others key
          counters := store.counters.request.hit }) := by
  obtain ⟨stored, live⟩ := live?_eq_some_iff.mp found
  have young : ¬entry.outlived now = true := by simpa [Entry.live] using live
  simp only [lookup, stored, if_neg young]

/-- What a lookup has touched is alive. -/
theorem lookup_of_live (found : store.live? key now = some entry) :
    (store.lookup key now).1 = .ok (some (entry.touch now store.refreshOnHit)) ∧
      (store.lookup key now).2.live? key now = some (entry.touch now store.refreshOnHit) := by
  obtain ⟨stored, live⟩ := live?_eq_some_iff.mp found
  rw [lookup_eq_of_live found]
  refine ⟨rfl, live?_eq_some_iff.mpr ⟨?_, live⟩⟩
  simp [find?, key_of_find? stored]

/-- What an insertion stores is alive. -/
theorem exists_live?_put_of_told {value : Value} {options : EntryOptions} {moment : Moment}
    (room : store.capacity ≠ 0) {timeOfDay : Timestamp} (told : moment.timeOfDay = .ok timeOfDay) :
    ∃ entry, (store.put key value options moment).2.live? key moment.now = some entry ∧
      entry.value = value := by
  simp only [put, if_neg room, told]
  refine ⟨.create key value options moment.now timeOfDay, live?_eq_some_iff.mpr ⟨?_, ?_⟩, rfl⟩
  · simp [find?]
  · rw [Entry.live, Entry.outlived_create (Nat.le_refl _), Bool.not_false]

/-- What an insertion stores that is not broken off is alive. -/
theorem exists_live?_put {value : Value} {options : EntryOptions} {moment : Moment}
    (room : store.capacity ≠ 0) (stored : (store.put key value options moment).1 = .ok ()) :
    ∃ entry, (store.put key value options moment).2.live? key moment.now = some entry ∧
      entry.value = value := by
  cases told : moment.timeOfDay with
  | error fault => simp [put, room, told] at stored
  | ok timeOfDay => exact exists_live?_put_of_told room told

theorem capacity_put (store : PlainStore) (key : Key) (value : Value) (options : EntryOptions)
    (moment : Moment) : (store.put key value options moment).2.capacity = store.capacity := by
  rw [put]
  split
  · rfl
  · cases moment.timeOfDay <;> rfl

/-- Whether an insertion is broken off does not depend on the counters. -/
theorem result_put_countMiss (store : PlainStore) (key : Key) (value : Value)
    (options : EntryOptions) (moment : Moment) :
    (store.countMiss.put key value options moment).1 = (store.put key value options moment).1 := by
  rw [put, put]
  by_cases full : store.capacity = 0
  · rw [if_pos full, if_pos (show store.countMiss.capacity = 0 from full)]
  · rw [if_neg full, if_neg (show ¬store.countMiss.capacity = 0 from full)]
    cases moment.timeOfDay with
    | ok timeOfDay => rfl
    | error fault => rfl

end PlainStore

/-! ## The first lookup -/

/-- The key has no live entry. Looking it up counts as a miss that leaves `missed`: a dead entry is
gone and counted as expired, and all else is as before. It is told whether the value of that entry
was faulty. -/
structure Engine.Misses (engine : Engine) (key : Key) (faulty : Bool) (missed : Engine) : Prop where
  dead : engine.store.live? key engine.now = none
  faulty_eq : (engine.store.chain.find? key).any (·.value.faulty) = faulty
  left : (engine.get key).2 = missed
  plain_eq : missed.plain = { engine.plain with store := engine.plain.store.missed key }

namespace Engine

variable {engine : Engine} {key : Key} {entry : Entry}

theorem get_matches (sound : engine.store.chain.Sound) (key : Key) :
    Matches (engine.get key)
      ((engine.plain.store.lookup key engine.plain.now).1.map fun entry =>
          entry.map (·.value.text),
        { engine.plain with store := (engine.plain.store.lookup key engine.plain.now).2 }) :=
  (lookup_matches sound key).map fun result => result.map fun entry => entry.map (·.value.text)

theorem getWithSnapshot_matches (sound : engine.store.chain.Sound) (key : Key) :
    Matches (engine.getWithSnapshot key)
      ((engine.plain.store.lookup key engine.plain.now).1.map fun entry =>
          entry.map fun entry => (entry.value.text, entry.snapshot engine.now),
        { engine.plain with store := (engine.plain.store.lookup key engine.plain.now).2 }) :=
  (lookup_matches sound key).map fun result =>
    result.map fun entry => entry.map fun entry => (entry.value.text, entry.snapshot engine.now)

/-- A live entry is found and remains alive. -/
theorem get_of_live (sound : engine.Sound)
    (live : engine.store.live? key engine.now = some entry) :
    (engine.get key).1 = .ok (some entry.value.text) ∧
      ∃ touched, (engine.get key).2.store.live? key (engine.get key).2.now = some touched ∧
        touched.value = entry.value := by
  have same := get_matches sound.represents key
  have livePlain := (live?_plain sound.represents key).trans live
  obtain ⟨found, kept⟩ := PlainStore.lookup_of_live livePlain
  constructor
  · rw [same.result_eq, found]
    rfl
  · refine ⟨_, ?_, entry.value_touch engine.now engine.store.refreshOnHit⟩
    rw [← live?_plain same.1, same.plain_eq]
    exact kept

/-- A lookup that finds nothing alive is broken off if it disposes of a faulty value. -/
theorem get_of_dead (sound : engine.Sound) (dead : engine.store.live? key engine.now = none) :
    (engine.get key).1 =
        (if (engine.store.chain.find? key).any (·.value.faulty) then .error .disposal
        else .ok none) ∧
      engine.Misses key ((engine.store.chain.find? key).any (·.value.faulty))
        (engine.get key).2 := by
  have same := get_matches sound.represents key
  have deadPlain := (live?_plain sound.represents key).trans dead
  have looked := PlainStore.lookup_of_dead deadPlain
  refine ⟨?_, dead, rfl, rfl, ?_⟩
  · rw [same.result_eq, looked, disposing, find?_plain sound.represents]
    cases engine.store.chain.find? key with
    | none => rfl
    | some entry =>
        cases faulty : entry.value.faulty <;> simp [faulty, Except.map]
  · rw [same.plain_eq, looked]

end Engine

/-! ## The call -/

/-- What comes of a call that gets or creates a value: its events, its reply and the engine that
it leaves. -/
inductive Call.Creation (engine : Engine) (key : Key) (supplier : List Call) :
    Ending → List Event → Reply → Engine → Prop where
  /-- A live entry is found, and the supplier is not called. -/
  | found {ending : Ending} {entry : Entry} :
      engine.store.live? key engine.now = some entry →
      Creation engine key supplier ending [⟨engine, .get key⟩]
        (.created (some entry.value.text) none) (engine.get key).2
  /-- A dead entry goes whose value is faulty, and the supplier is not called. -/
  | broken {ending : Ending} {missed : Engine} : engine.Misses key true missed →
      Creation engine key supplier ending [⟨engine, .get key⟩] (.broken .disposal) missed
  /-- The supplier makes no value. -/
  | failed {ending : Ending} {missed left : Engine} {steps : List Step} :
      engine.Misses key false missed → Call.runAll supplier missed = (steps, left) →
      ending = .error ∨ ending = .broken →
      Creation engine key supplier ending (⟨engine, .get key⟩ :: Call.traceAll supplier missed)
        (.created none (some steps)) left
  /-- A live entry has appeared while the supplier made a value, and stays as it is. -/
  | lost {text : String} {missed left : Engine} {steps : List Step} {winner : Entry} :
      engine.Misses key false missed → Call.runAll supplier missed = (steps, left) →
      left.store.live? key left.now = some winner →
      Creation engine key supplier (.value text)
        (⟨engine, .get key⟩ :: (Call.traceAll supplier missed ++ [⟨left, .putIfAbsent key text⟩]))
        (.created (some winner.value.text) (some steps)) left
  /-- The value that the supplier has made is stored. -/
  | stored {text : String} {missed left after : Engine} {steps : List Step} :
      engine.Misses key false missed → Call.runAll supplier missed = (steps, left) →
      left.store.live? key left.now = none → left.put key { text } {} = (.ok (), after) →
      Creation engine key supplier (.value text)
        (⟨engine, .get key⟩ :: (Call.traceAll supplier missed ++ [⟨left, .putIfAbsent key text⟩]))
        (.created (some text) (some steps)) after
  /-- The insertion of the value that the supplier has made is broken off. -/
  | unstored {text : String} {missed left after : Engine} {steps : List Step} {fault : Fault} :
      engine.Misses key false missed → Call.runAll supplier missed = (steps, left) →
      left.store.live? key left.now = none → left.put key { text } {} = (.error fault, after) →
      Creation engine key supplier (.value text)
        (⟨engine, .get key⟩ :: (Call.traceAll supplier missed ++ [⟨left, .putIfAbsent key text⟩]))
        (.broken fault) after

namespace Call

variable {engine missed left : Engine} {key : Key} {supplier : List Call} {steps : List Step}
  {text : String}

/-- A call whose supplier has made a value ends with the insertion of that value. -/
theorem run_of_made (looked : engine.get key = (.ok none, missed))
    (supplied : runAll supplier missed = (steps, left)) :
    run (.getOrCreate key supplier (.value text)) engine =
      (.ofResult (fun text => .created (some text) (some steps)) (left.putIfAbsent key text).1,
        (left.putIfAbsent key text).2) := by
  rw [run, looked]
  simp only [supplied]

theorem run_of_lost {winner : Entry} (looked : engine.get key = (.ok none, missed))
    (supplied : runAll supplier missed = (steps, left))
    (live : left.store.live? key left.now = some winner) :
    run (.getOrCreate key supplier (.value text)) engine =
      (.created (some winner.value.text) (some steps), left) := by
  rw [run_of_made looked supplied, Engine.putIfAbsent, live]
  rfl

theorem run_of_absent (looked : engine.get key = (.ok none, missed))
    (supplied : runAll supplier missed = (steps, left))
    (dead : left.store.live? key left.now = none) :
    run (.getOrCreate key supplier (.value text)) engine =
      (.ofResult (fun _ => .created (some text) (some steps)) (left.put key { text } {}).1,
        (left.put key { text } {}).2) := by
  rw [run_of_made looked supplied, Engine.putIfAbsent, dead]
  rcases left.put key { text } {} with ⟨fault | stored, after⟩
  · rfl
  · rfl

/-- A call that gets or creates a value comes to one of these ends. -/
theorem creation (sound : engine.Sound) (key : Key) (supplier : List Call) (ending : Ending) :
    Creation engine key supplier ending (trace (.getOrCreate key supplier ending) engine)
      (run (.getOrCreate key supplier ending) engine).1
      (run (.getOrCreate key supplier ending) engine).2 := by
  cases live : engine.store.live? key engine.now with
  | some entry =>
      have found : Creation engine key supplier ending _ _ _ := .found live
      obtain ⟨looked, -⟩ := Engine.get_of_live sound live
      rcases looking : engine.get key with ⟨result, after⟩
      rw [looking] at looked found
      obtain rfl : result = .ok (some entry.value.text) := looked
      rw [trace, run, looking]
      exact found
  | none =>
      obtain ⟨looked, misses⟩ := Engine.get_of_dead sound live
      rcases looking : engine.get key with ⟨result, missed⟩
      rw [looking] at looked misses
      cases faulty : (engine.store.chain.find? key).any (·.value.faulty) with
      | true =>
          rw [faulty] at looked misses
          obtain rfl : result = .error .disposal := looked
          rw [trace, run, looking]
          exact .broken misses
      | false =>
          -- The supplier is called, and its ending decides what follows.
          rw [faulty] at looked misses
          obtain rfl : result = .ok none := looked
          rcases supplied : runAll supplier missed with ⟨steps, left⟩
          cases ending with
          | value text =>
              have ended : trace (.getOrCreate key supplier (.value text)) engine =
                  ⟨engine, .get key⟩ ::
                    (traceAll supplier missed ++ [⟨left, .putIfAbsent key text⟩]) := by
                rw [trace, looking]
                simp only [supplied]
              rw [ended]
              cases winner : left.store.live? key left.now with
              | some winner =>
                  rw [run_of_lost looking supplied winner]
                  exact .lost misses supplied winner
              | none =>
                  rw [run_of_absent looking supplied winner]
                  rcases stored : left.put key { text } {} with ⟨fault | _, after⟩
                  · exact .unstored misses supplied winner stored
                  · exact .stored misses supplied winner stored
          | error | broken =>
              rw [trace, run, looking]
              simp only [supplied, List.append_nil]
              exact .failed misses supplied (by simp)

end Call

/-! ## Agreement -/

/-- A key has one entry, which is alive and has this text. -/
structure Engine.Holds (engine : Engine) (key : Key) (text : String) : Prop where
  peeked : Query.ask (.peek key) engine = .optionalText (some text)
  alone : (engine.store.chain.toList.filter (·.key = key)).length = 1

namespace Engine

variable {engine : Engine} {key : Key} {entry : Entry} {text : String}

theorem Sound.holds_of_live (sound : engine.Sound)
    (live : engine.store.live? key engine.now = some entry) :
    engine.Holds key entry.value.text := by
  have livePlain := (live?_plain sound.represents key).trans live
  have stored := (PlainStore.live?_eq_some_iff.mp livePlain).1
  obtain ⟨-, -, -, -, alone⟩ :=
    PlainStore.split_of_find? (nodup_keys_plain sound.represents) stored
  constructor
  · rw [Query.ask, live]
    rfl
  · exact congrArg List.length alone

theorem Sound.toList_eq_nil (sound : engine.Sound) (full : engine.store.capacity = 0) :
    engine.store.chain.toList = [] := by
  have fits := sound.fits
  rw [PlainStore.Fits, show engine.plain.store.capacity = 0 from full] at fits
  exact List.eq_nil_of_length_eq_zero (Nat.le_zero.mp fits)

theorem put_matches (sound : engine.Sound) (key : Key) (value : Value) (options : EntryOptions) :
    Matches (engine.put key value options)
      ((engine.plain.store.put key value options engine.plain.moment).1,
        { engine.plain with
          store := (engine.plain.store.put key value options engine.plain.moment).2 }) :=
  engine.adopt_matches (Store.put_refines sound.represents key value options engine.moment)

/-- An insertion for which there is room, and which is not broken off, stores a live entry. -/
theorem exists_live?_of_put (sound : engine.Sound) {after : Engine} {value : Value}
    {options : EntryOptions} (room : engine.store.capacity ≠ 0)
    (stored : engine.put key value options = (.ok (), after)) :
    ∃ entry, after.store.live? key after.now = some entry ∧ entry.value = value := by
  have same := put_matches sound key value options
  rw [stored] at same
  obtain ⟨entry, live, kept⟩ := PlainStore.exists_live?_put room same.result_eq.symm
  refine ⟨entry, ?_, kept⟩
  rw [← live?_plain same.1, same.plain_eq]
  exact live

end Engine

/-- What has been looked up without success is absent afterwards. -/
theorem Engine.Misses.absent_after {engine missed : Engine} {key : Key} {faulty : Bool}
    (misses : engine.Misses key faulty missed) (sound : engine.Sound) :
    missed.Sound ∧ missed.store.chain.find? key = none := by
  have missedSound : missed.Sound := misses.left ▸ (sound.run (.get key)).1
  refine ⟨missedSound, ?_⟩
  rw [← Engine.find?_plain missedSound.represents, misses.plain_eq]
  exact engine.plain.store.find?_missed key

namespace Call.Creation

variable {engine after : Engine} {key : Key} {supplier : List Call} {ending : Ending}
  {events : List Event} {reply : Reply}

theorem sound_left {missed left : Engine} {steps : List Step} {faulty : Bool}
    (sound : engine.Sound) (misses : engine.Misses key faulty missed)
    (supplied : runAll supplier missed = (steps, left)) : left.Sound := by
  have path := path_traceAll supplier missed
  rw [supplied] at path
  exact (misses.absent_after sound).1.of_path path

/-- The value that a call answers with is the one that is stored then, if there is any capacity. -/
theorem holds (creation : Creation engine key supplier ending events reply after)
    (sound : engine.Sound) {text : String} {supplied : Option (List Step)}
    (answered : reply = .created (some text) supplied) (room : after.store.capacity ≠ 0) :
    after.Holds key text := by
  cases creation with
  | found live =>
      cases answered
      obtain ⟨-, touched, touchedLive, same⟩ := Engine.get_of_live sound live
      rw [← same]
      exact Engine.Sound.holds_of_live (sound.run (.get key)).1 touchedLive
  | lost misses supplied live =>
      cases answered
      exact (sound_left sound misses supplied).holds_of_live live
  | @stored text missed left after steps misses supplied dead stored =>
      cases answered
      have leftSound := sound_left sound misses supplied
      have afterSound : after.Sound := by
        have run := (leftSound.run (.put key { text } {})).1
        rw [Action.run, stored] at run
        exact run
      have same := Engine.put_matches leftSound key { text } {}
      rw [stored] at same
      have capacity : after.store.capacity = left.store.capacity :=
        (congrArg (·.store.capacity) same.plain_eq).trans (PlainStore.capacity_put ..)
      obtain ⟨entry, live, kept⟩ :=
        Engine.exists_live?_of_put leftSound (capacity ▸ room) stored
      have holds := afterSound.holds_of_live live
      rw [kept] at holds
      exact holds
  | broken | failed | unstored => cases answered

end Call.Creation

/-! ## Nested calls -/

/-- Calls for one key, each the only one that the supplier of the one before makes. The innermost
supplier makes `innermost`, and the others make the given texts, from the outermost inwards. -/
def Call.nested (key : Key) (innermost : String) : List String → Call
  | [] => .getOrCreate key [] (.value innermost)
  | text :: texts => .getOrCreate key [nested key innermost texts] (.value text)

/-- Nested calls have answered with this text, as many as are told. -/
inductive Reply.Unanimous (text : String) : Nat → Reply → Prop where
  | innermost : Unanimous text 1 (.created (some text) (some []))
  | outer {depth : Nat} {reply : Reply} {view : View} : Unanimous text depth reply →
      Unanimous text (depth + 1) (.created (some text) (some [.mk reply view]))

namespace Engine

variable {engine : Engine} {key : Key}

theorem live?_of_absent (absent : engine.store.chain.find? key = none) :
    engine.store.live? key engine.now = none := by
  rw [Store.live?, absent, Option.filter_none]

/-- Looking an absent key up once more is a miss. -/
theorem exists_get_of_absent (sound : engine.Sound)
    (absent : engine.store.chain.find? key = none) :
    ∃ missed, engine.get key = (.ok none, missed) ∧ engine.Misses key false missed := by
  obtain ⟨looked, misses⟩ := get_of_dead sound (live?_of_absent absent)
  rw [absent] at looked misses
  exact ⟨(engine.get key).2, Prod.ext looked rfl, misses⟩

/-- A miss of an absent key has no bearing on whether an insertion is broken off. -/
theorem Misses.result_put {missed : Engine} (misses : engine.Misses key false missed)
    (sound : engine.Sound) (absent : engine.store.chain.find? key = none) (value : Value)
    (options : EntryOptions) :
    missed.store.capacity = engine.store.capacity ∧
      (missed.put key value options).1 = (engine.put key value options).1 := by
  have absentPlain := (find?_plain sound.represents key).trans absent
  have left := misses.plain_eq
  rw [PlainStore.missed_of_absent absentPlain] at left
  refine ⟨congrArg (·.store.capacity) left, ?_⟩
  rw [(put_matches (misses.absent_after sound).1 key value options).result_eq,
    (put_matches sound key value options).result_eq, left]
  exact engine.plain.store.result_put_countMiss key value options engine.plain.moment

end Engine

/-- All nested calls answer with the innermost value, which is stored then. -/
theorem Call.exists_run_nested {engine missed : Engine} {key : Key} {innermost : String}
    (texts : List String) (sound : engine.Sound) (looked : engine.get key = (.ok none, missed))
    (misses : engine.Misses key false missed) (room : missed.store.capacity ≠ 0)
    (stored : (missed.put key { text := innermost } {}).1 = .ok ()) :
    ∃ reply left, (nested key innermost texts).run engine = (reply, left) ∧
      reply.Unanimous innermost (texts.length + 1) ∧
      ∃ entry, left.store.live? key left.now = some entry ∧ entry.value.text = innermost := by
  -- A call hands on an engine on which the key is absent, so the next one starts with a miss as
  -- well, and on the way back each call finds what the one inside has stored.
  induction texts generalizing engine missed with
  | nil =>
      obtain ⟨missedSound, absent⟩ := misses.absent_after sound
      have put : missed.put key { text := innermost } {} =
          (.ok (), (missed.put key { text := innermost } {}).2) := Prod.ext stored rfl
      obtain ⟨entry, live, kept⟩ := Engine.exists_live?_of_put missedSound room put
      have supplied : runAll [] missed = ([], missed) := rfl
      refine ⟨.created (some innermost) (some []), _, ?_, .innermost, entry, live, ?_⟩
      · rw [nested, run_of_absent looked supplied (Engine.live?_of_absent absent), put]
        rfl
      · rw [kept]
  | cons text texts ih =>
      obtain ⟨missedSound, absent⟩ := misses.absent_after sound
      obtain ⟨again, lookedAgain, missesAgain⟩ := Engine.exists_get_of_absent missedSound absent
      obtain ⟨capacity, result⟩ :=
        missesAgain.result_put missedSound absent { text := innermost } {}
      obtain ⟨reply, left, ran, unanimous, entry, live, kept⟩ :=
        ih missedSound lookedAgain missesAgain (capacity ▸ room) (result.trans stored)
      have supplied : runAll [nested key innermost texts] missed = ([.mk reply left.view], left) := by
        rw [runAll, ran]
        rfl
      refine ⟨.created (some innermost) (some [.mk reply left.view]), left, ?_,
        .outer unanimous, entry, live, kept⟩
      rw [nested, run_of_lost looked supplied live, kept]

/-! ## One supplier at most -/

/-- Calls that get or create the value of a key call their supplier at most once, and answer with
what is stored then. -/
structure Engine.CreatesOnce (engine : Engine) (key : Key) : Prop where
  /-- The supplier is called if nothing alive is found, unless the lookup is broken off. It starts
  where the miss has left the engine. A live entry that it leaves is the answer, and nothing changes
  after it; otherwise the value that it has made is stored. -/
  comes : ∀ supplier ending, let call := Call.getOrCreate key supplier ending
    Call.Creation engine key supplier ending (call.trace engine) (call.run engine).1
      (call.run engine).2
  /-- The answer is the value of the only entry under the key, which is alive, unless there is no
  capacity and thus no entry at all. -/
  agrees : ∀ supplier ending text supplied, let call := Call.getOrCreate key supplier ending
    (call.run engine).1 = .created (some text) supplied →
      let after := (call.run engine).2
      (after.store.capacity = 0 → after.store.chain.toList = []) ∧
        (after.store.capacity ≠ 0 → after.Holds key text)
  /-- Any number of nested calls for an absent key answer with the innermost value, if it can be
  stored. -/
  nests : ∀ innermost texts missed, engine.Misses key false missed →
    missed.store.capacity ≠ 0 → (missed.put key { text := innermost } {}).1 = .ok () →
      ((Call.nested key innermost texts).run engine).1.Unanimous innermost (texts.length + 1)

/-- Whatever the suppliers do, all calls for a key call them at most once. -/
theorem Engine.creates_once {engine : Engine} (sound : engine.Sound) (key : Key) :
    engine.CreatesOnce key := by
  constructor
  case comes =>
    intro supplier ending
    exact Call.creation sound key supplier ending
  case agrees =>
    intro supplier ending text supplied call answered after
    have creation := Call.creation sound key supplier ending
    have afterSound : after.Sound := sound.of_path (call.path_trace engine)
    exact ⟨afterSound.toList_eq_nil, creation.holds sound answered⟩
  case nests =>
    intro innermost texts missed misses room stored
    have looked := (get_of_dead sound misses.dead).1
    rw [misses.faulty_eq] at looked
    obtain ⟨reply, left, ran, unanimous, -⟩ :=
      Call.exists_run_nested texts sound (Prod.ext looked misses.left) misses room stored
    rw [ran]
    exact unanimous

/-- Three nested calls for a key whose entry is dead answer with the innermost value. -/
theorem Engine.creates_once_nested :
    let origin := Origin.create 1 0
    let engine := (Call.runAll [.put "a" ⟨"0", false⟩ { timeToLive := some 5 }, .advance 5]
      origin.engine).2
    let reply := ((Call.nested "a" "3" ["1", "2"]).run engine).1
    engine.store.size = 1 ∧ engine.CreatesOnce "a" ∧ reply.Unanimous "3" 3 := by
  intro origin engine reply
  have sound : engine.Sound := origin.sound.of_path (Call.path_traceAll _ _)
  have dead : engine.store.live? "a" engine.now = none := by decide +kernel
  have harmless : (engine.store.chain.find? "a").any (·.value.faulty) = false := by decide +kernel
  have misses := (get_of_dead sound dead).2
  rw [harmless] at misses
  have creates := creates_once sound "a"
  exact ⟨by decide +kernel, creates,
    creates.nests "3" ["1", "2"] _ misses (by decide +kernel) (by decide +kernel)⟩

/-- A dead entry with a faulty value keeps the supplier from being called. After it has been called,
a faulty value that makes room for the one that it has made breaks the call off. -/
theorem Engine.uncreated_faulty_entries :
    let origin := Origin.create 1 0
    let expiry := (Call.runAll [.put "a" ⟨"1", true⟩ { timeToLive := some 5 }, .advance 5]
      origin.engine).2
    let eviction := (Call.runAll [.put "b" ⟨"1", true⟩ {}] origin.engine).2
    let call := Call.getOrCreate "a" [.ask .size] (.value "2")
    expiry.store.live? "a" expiry.now = none ∧ eviction.store.live? "a" eviction.now = none ∧
      ((call.run expiry).1 matches .broken .disposal) ∧ (call.trace expiry).length = 1 ∧
      ((call.run eviction).1 matches .broken .disposal) ∧ (call.trace eviction).length = 3 := by
  decide +kernel

end RecencyCache
