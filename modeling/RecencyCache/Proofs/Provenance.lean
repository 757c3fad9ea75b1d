import RecencyCache.Proofs.Soundness

/-!
# Provenance of entries

Every entry goes back to an event that stored it. Nothing that has happened since then has taken
its key away, and all that hits have changed are its access time and its count of hits. So a value
that is handed out is the one stored last under its key, and its time to live is not over.
-/

namespace RecencyCache

namespace Event

/-- The event stores a text under a key, with the time to live that is asked for. A cache without
capacity does not accept it. -/
inductive Inserts : Event → Key → String → Option Nat → Prop where
  | put {engine : Engine} {key : Key} {value : Value} {options : EntryOptions} :
      engine.store.capacity ≠ 0 →
      Inserts ⟨engine, .put key value options⟩ key value.text options.timeToLive
  | putIfAbsent {engine : Engine} {key : Key} {text : String} :
      engine.store.capacity ≠ 0 → engine.store.live? key engine.now = none →
      Inserts ⟨engine, .putIfAbsent key text⟩ key text none

/-- The event takes away what is stored under a key. -/
inductive Displaces : Event → Key → Prop where
  | insert {event : Event} {key : Key} {text : String} {lifetime : Option Nat} :
      event.Inserts key text lifetime → Displaces event key
  | remove {engine : Engine} {key : Key} : Displaces ⟨engine, .remove key⟩ key
  | clear {engine : Engine} {key : Key} : Displaces ⟨engine, .clear⟩ key

end Event

/-- The later entry is the earlier one after some hits. -/
structure Entry.Touched (earlier later : Entry) : Prop where
  key : later.key = earlier.key
  value : later.value = earlier.value
  timeToLive : later.timeToLive = earlier.timeToLive
  createdAt : later.createdAt = earlier.createdAt

theorem Entry.Touched.refl (entry : Entry) : entry.Touched entry := ⟨rfl, rfl, rfl, rfl⟩

theorem Entry.touched_touch (entry : Entry) (now : Nat) (refresh : Bool) :
    entry.Touched (entry.touch now refresh) := ⟨rfl, rfl, rfl, rfl⟩

/-- The time to live of a live entry is not over. -/
theorem Entry.lt_of_live {entry : Entry} {now duration : Nat} (live : entry.live now = true)
    (limited : entry.timeToLive = some duration) : now < entry.createdAt + duration := by
  rw [Entry.live, Entry.outlived, limited, Entry.age] at live
  simp only [Bool.not_eq_true', decide_eq_false_iff_not, Nat.not_le] at live
  omega

/-! ## Entries of plain stores -/

namespace PlainStore

variable {store : PlainStore} {key : Key} {entry : Entry}

/-- A lookup leaves no entry but old ones, perhaps touched. -/
theorem exists_of_mem_lookup {now : Nat} (member : entry ∈ (store.lookup key now).2.entries) :
    ∃ old ∈ store.entries, old.Touched entry := by
  rcases mem_lookup member with stored | ⟨old, stored, rfl⟩
  · exact ⟨entry, stored, .refl entry⟩
  · exact ⟨old, stored, old.touched_touch now store.refreshOnHit⟩

theorem exists_of_mem_lookupSince {since : Int} {now : Nat}
    (member : entry ∈ (store.lookupSince key since now).2.entries) :
    ∃ old ∈ store.entries, old.Touched entry := by
  rcases mem_lookupSince member with stored | ⟨old, stored, rfl⟩
  · exact ⟨entry, stored, .refl entry⟩
  · exact ⟨old, stored, old.touched_touch now store.refreshOnHit⟩

end PlainStore

/-! ## History -/

namespace Event

/-- An entry was stored by an event, and none of those since then has taken its key away. -/
structure Explains (insertion : Event) (since : List Event) (entry : Entry) : Prop where
  inserts : ∃ lifetime, insertion.Inserts entry.key entry.value.text lifetime ∧
    entry.timeToLive = lifetime.filter (· ≠ 0)
  createdAt : entry.createdAt = insertion.engine.now
  readable : ∃ timeOfDay, insertion.engine.moment.timeOfDay = .ok timeOfDay
  undisturbed : ∀ event ∈ since, ¬event.Displaces entry.key

variable {event insertion : Event} {since : List Event} {entry old : Entry}

/-- Hits do not change where an entry comes from. -/
theorem Explains.touched (explains : insertion.Explains since old) (touched : old.Touched entry) :
    insertion.Explains since entry where
  inserts := by
    rw [touched.key, touched.value, touched.timeToLive]
    exact explains.inserts
  createdAt := touched.createdAt.trans explains.createdAt
  readable := explains.readable
  undisturbed := by
    rw [touched.key]
    exact explains.undisturbed

theorem Explains.snoc (explains : insertion.Explains since entry)
    (kept : ¬event.Displaces entry.key) : insertion.Explains (since ++ [event]) entry where
  inserts := explains.inserts
  createdAt := explains.createdAt
  readable := explains.readable
  undisturbed := by
    intro later member
    rcases List.mem_append.mp member with before | last
    · exact explains.undisturbed later before
    · rw [List.mem_singleton.mp last]
      exact kept

/-- An insertion under a key stores the entry that is there, or has left it alone. -/
theorem explains_or_kept_of_put {engine : Engine} {action : Action} {key : Key} {value : Value}
    {options : EntryOptions}
    (inserts : engine.store.capacity ≠ 0 →
      Inserts ⟨engine, action⟩ key value.text options.timeToLive)
    (only : ∀ other, Displaces ⟨engine, action⟩ other → other = key ∧ engine.store.capacity ≠ 0)
    (member : entry ∈ (engine.plain.store.put key value options engine.moment).2.entries) :
    Explains ⟨engine, action⟩ [] entry ∨
      (¬Displaces ⟨engine, action⟩ entry.key ∧
        ∃ old ∈ engine.store.chain.toList, old.Touched entry) := by
  rcases PlainStore.mem_put member with ⟨room, timeOfDay, readable, rfl⟩ | ⟨stored, different⟩
  · exact .inl ⟨⟨_, inserts room, rfl⟩, rfl, ⟨timeOfDay, readable⟩, by simp⟩
  · refine .inr ⟨?_, entry, stored, .refl entry⟩
    intro displaced
    obtain ⟨same, room⟩ := only _ displaced
    exact different room same

/-- An entry that is there after an event was stored by it, or was there before and was left
alone. -/
theorem explains_or_kept (sound : event.engine.store.chain.Sound)
    (member : entry ∈ event.after.store.chain.toList) :
    event.Explains [] entry ∨
      (¬event.Displaces entry.key ∧
        ∃ old ∈ event.engine.store.chain.toList, old.Touched entry) := by
  rcases event with ⟨engine, action⟩
  have after : entry ∈ (PlainEngine.act action engine.plain).2.store.entries :=
    (Engine.act_matches sound action).plain_eq ▸ member
  have kept (untouched : ¬Displaces ⟨engine, action⟩ entry.key)
      (stored : entry ∈ engine.store.chain.toList) :
      Explains ⟨engine, action⟩ [] entry ∨
        (¬Displaces ⟨engine, action⟩ entry.key ∧
          ∃ old ∈ engine.store.chain.toList, old.Touched entry) :=
    .inr ⟨untouched, entry, stored, .refl entry⟩
  clear member
  cases action with
  | put key value options =>
      refine explains_or_kept_of_put .put ?_ after
      intro other displaced
      cases displaced with
      | insert inserts =>
          cases inserts with
          | put room => exact ⟨rfl, room⟩
  | putIfAbsent key text =>
      rw [PlainEngine.act, PlainEngine.putIfAbsent, Engine.live?_plain sound] at after
      cases found : engine.store.live? key engine.now with
      | some other =>
          rw [found] at after
          refine kept ?_ after
          intro displaced
          cases displaced with
          | insert inserts =>
              cases inserts with
              | putIfAbsent _ absent => simp [found] at absent
      | none =>
          rw [found] at after
          refine explains_or_kept_of_put (fun room => .putIfAbsent room found) ?_ after
          intro other displaced
          cases displaced with
          | insert inserts =>
              cases inserts with
              | putIfAbsent room _ => exact ⟨rfl, room⟩
  | get key | getWithSnapshot key =>
      obtain ⟨old, stored, touched⟩ := PlainStore.exists_of_mem_lookup after
      exact .inr ⟨by rintro ⟨⟨⟩⟩, old, stored, touched⟩
  | getSince key since =>
      obtain ⟨old, stored, touched⟩ := PlainStore.exists_of_mem_lookupSince after
      exact .inr ⟨by rintro ⟨⟨⟩⟩, old, stored, touched⟩
  | remove key =>
      obtain ⟨stored, different⟩ := PlainStore.mem_others_iff.mp after
      refine kept ?_ stored
      rintro (⟨⟨⟩⟩ | ⟨⟩)
      exact different rfl
  | clear => simp [PlainEngine.act, PlainEngine.conclude, PlainStore.clear] at after
  | setCapacity capacity =>
      apply kept (by rintro ⟨⟨⟩⟩)
      cases capacity with
      | ofNat capacity => exact List.mem_of_mem_take after
      | negSucc capacity => exact after
  | purge default => exact kept (by rintro ⟨⟨⟩⟩) (List.mem_of_mem_filter after)
  | enable interval survive name =>
      rw [PlainEngine.act, PlainEngine.store_enable] at after
      exact kept (by rintro ⟨⟨⟩⟩) after
  | wake =>
      apply kept (by rintro ⟨⟨⟩⟩)
      rcases engine.plain.store_act_wake with same | ⟨now, default, swept⟩
      · rw [same] at after
        exact after
      · rw [swept] at after
        exact List.mem_of_mem_filter after
  | setRefreshOnHit | disable | rest | ask => exact kept (by rintro ⟨⟨⟩⟩) after

end Event

/-- Every entry was stored by an event of the past, and has not been displaced since. -/
def Engine.Recorded (engine : Engine) (past : List Event) : Prop :=
  ∀ entry ∈ engine.store.chain.toList, ∃ older insertion newer,
    past = older ++ insertion :: newer ∧ insertion.Explains newer entry

/-- An event adds to the record. -/
theorem Event.recorded_after (event : Event) {past : List Event} (sound : event.engine.Sound)
    (recorded : event.engine.Recorded past) : event.after.Recorded (past ++ [event]) := by
  intro entry member
  rcases event.explains_or_kept sound.represents member with explains | ⟨kept, old, stored, touched⟩
  · exact ⟨past, event, [], rfl, explains⟩
  · obtain ⟨older, insertion, newer, split, explains⟩ := recorded old stored
    refine ⟨older, insertion, newer ++ [event], ?_, (explains.touched touched).snoc kept⟩
    rw [split, List.append_assoc, List.cons_append]

/-- A path adds its events to the record. -/
theorem Engine.Recorded.of_path {first last : Engine} {past events : List Event}
    (sound : first.Sound) (recorded : first.Recorded past) (path : Path first events last) :
    last.Recorded (past ++ events) :=
  sound.accumulates (motive := Engine.Recorded) (fun event _ => event.recorded_after) path recorded

/-- An engine is made without entries. -/
theorem Origin.toList_eq_nil (origin : Origin) : origin.engine.store.chain.toList = [] := by
  change origin.engine.plain.store.entries = []
  rw [origin.engine_plain.2]
  cases origin with
  | create capacity epoch => rfl
  | ofConfig config epoch => rw [plain, PlainEngine.ofConfig, PlainEngine.store_enable]

/-- A new engine has nothing to record. -/
theorem Origin.recorded (origin : Origin) : origin.engine.Recorded [] := by
  intro entry member
  simp [origin.toList_eq_nil] at member

/-! ## Values that are handed out -/

/-- The answer to a question shows a text under a key, be it asked alone or during the visits of a
traversal. -/
inductive Query.Shows (engine : Engine) (key : Key) (text : String) : Query → Prop where
  | peek : Query.ask (.peek key) engine = .optionalText (some text) →
      Shows engine key text (.peek key)
  | visit {questions : List Query} {visits : List (Key × String × List Finding)}
      {findings : List Finding} : Query.ask (.traverse questions) engine = .visits visits →
      (key, text, findings) ∈ visits → Shows engine key text (.traverse questions)
  | during {questions : List Query} {question : Query} : question ∈ questions →
      Shows engine key text question → Shows engine key text (.traverse questions)

/-- The event hands out a text that is stored under a key. A call that gets or creates a value
begins with a `get`, and its end hands out a stored text if there is a live entry by then. -/
inductive Event.HandsOut : Event → Key → String → Prop where
  | get {engine : Engine} {key : Key} {text : String} :
      Event.reply ⟨engine, .get key⟩ = .found (some text) → HandsOut ⟨engine, .get key⟩ key text
  | getWithSnapshot {engine : Engine} {key : Key} {text : String} {snapshot : Snapshot} :
      Event.reply ⟨engine, .getWithSnapshot key⟩ = .foundWithSnapshot (some (text, snapshot)) →
      HandsOut ⟨engine, .getWithSnapshot key⟩ key text
  | getSince {engine : Engine} {key : Key} {since : Int} {text : String} :
      Event.reply ⟨engine, .getSince key since⟩ = .found (some text) →
      HandsOut ⟨engine, .getSince key since⟩ key text
  | putIfAbsent {engine : Engine} {key : Key} {made text : String} :
      (engine.store.live? key engine.now).isSome →
      Event.reply ⟨engine, .putIfAbsent key made⟩ = .found (some text) →
      HandsOut ⟨engine, .putIfAbsent key made⟩ key text
  | ask {engine : Engine} {question : Query} {key : Key} {text : String} :
      question.Shows engine key text → HandsOut ⟨engine, .ask question⟩ key text

namespace PlainStore

variable {store : PlainStore} {key : Key} {entry : Entry} {now : Nat}

/-- A lookup finds a live entry and touches it. -/
theorem exists_of_lookup_eq (found : (store.lookup key now).1 = .ok (some entry)) :
    ∃ old, store.find? key = some old ∧ old.live now = true ∧ old.Touched entry := by
  rw [lookup] at found
  cases stored : store.find? key with
  | none => simp [stored] at found
  | some old =>
      by_cases dead : old.outlived now = true
      · simp only [stored, if_pos dead, disposing] at found
        split at found <;> cases found
      · simp only [stored, if_neg dead] at found
        cases found
        exact ⟨old, rfl, by simpa [Entry.live] using dead, old.touched_touch now _⟩

/-- A lookup that asks for a time of storing finds no entry that is older. -/
theorem exists_of_lookupSince_eq {since : Int}
    (found : (store.lookupSince key since now).1 = .ok (some entry)) :
    since ≤ entry.createdAt ∧ (store.lookup key now).1 = .ok (some entry) := by
  rw [lookupSince] at found
  cases stored : store.find? key with
  | none => simp [stored] at found
  | some old =>
      by_cases recent : since ≤ old.createdAt
      · simp only [stored, if_pos recent] at found
        obtain ⟨again, storedAgain, -, touched⟩ := exists_of_lookup_eq found
        cases stored.symm.trans storedAgain
        rw [touched.createdAt]
        exact ⟨recent, found⟩
      · simp [stored, recent] at found

end PlainStore

/-- A reply that neither a fault nor a miss has tells of an entry. -/
theorem Reply.exists_of_ofResult_eq {tell : Option Entry → Reply}
    {result : Except Fault (Option Entry)} {reply : Reply} (told : ofResult tell result = reply)
    (complete : ∀ fault, .broken fault ≠ reply) (hit : tell none ≠ reply) :
    ∃ entry, result = .ok (some entry) ∧ tell (some entry) = reply := by
  cases result with
  | error fault => exact absurd told (complete fault)
  | ok found =>
      cases found with
      | none => exact absurd told hit
      | some entry => exact ⟨entry, rfl, told⟩

/-- An entry that an event can hand out is stored and live, and as recent as is asked for. -/
structure Event.Serves (event : Event) (key : Key) (text : String) (entry : Entry) : Prop where
  stored : entry ∈ event.engine.store.chain.toList
  key_eq : entry.key = key
  text_eq : entry.value.text = text
  live : entry.live event.engine.now = true
  recent : ∀ since, event.action = .getSince key since → since ≤ entry.createdAt

namespace Engine

variable {engine : Engine} {key : Key} {text : String}

/-- A lookup serves what it finds. -/
theorem exists_serves_of_lookup {action : Action} {entry : Entry}
    (found : (engine.plain.store.lookup key engine.now).1 = .ok (some entry))
    (recent : ∀ since, action = .getSince key since → since ≤ entry.createdAt) :
    ∃ old, Event.Serves ⟨engine, action⟩ key entry.value.text old := by
  obtain ⟨old, stored, live, touched⟩ := PlainStore.exists_of_lookup_eq found
  refine ⟨old, PlainStore.mem_of_find? stored, PlainStore.key_of_find? stored, ?_, live, ?_⟩
  · rw [touched.value]
  · rw [← touched.createdAt]
    exact recent

/-- The live entry of a key serves every action that does not ask for a time of storing. -/
theorem serves_of_live? (sound : engine.store.chain.Sound) {action : Action} {entry : Entry}
    (found : engine.store.live? key engine.now = some entry)
    (anytime : ∀ since, action ≠ .getSince key since) :
    Event.Serves ⟨engine, action⟩ key entry.value.text entry := by
  obtain ⟨stored, live⟩ := Option.filter_eq_some_iff.mp found
  obtain ⟨member, sameKey⟩ := sound.find?_eq_some_iff.mp stored
  exact ⟨member, sameKey, rfl, live, fun since same => absurd same (anytime since)⟩

/-- What an answer shows is served. -/
theorem exists_serves_of_shows (sound : engine.store.chain.Sound) {question asked : Query}
    (shows : question.Shows engine key text) :
    ∃ entry, Event.Serves ⟨engine, .ask asked⟩ key text entry := by
  induction shows with
  | peek answer =>
      rw [Query.ask, Finding.optionalText.injEq, Option.map_eq_some_iff] at answer
      rcases answer with ⟨entry, found, rfl⟩
      exact ⟨entry, serves_of_live? sound found (by simp)⟩
  | visit answer visited =>
      rw [Query.ask, Finding.visits.injEq] at answer
      rw [← answer, List.mem_map] at visited
      rcases visited with ⟨entry, member, same⟩
      rcases same with ⟨rfl, rfl, -⟩
      obtain ⟨listed, live⟩ := List.mem_filter.mp member
      rw [sound.entriesByKey_eq, List.mem_mergeSort] at listed
      exact ⟨entry, listed, rfl, rfl, live, by simp⟩
  | during _ _ ih => exact ih

end Engine

namespace Event

/-- Whatever hands out a text serves a live entry that has it. -/
theorem HandsOut.exists_serves {event : Event} {key : Key} {text : String}
    (handsOut : event.HandsOut key text) (sound : event.engine.store.chain.Sound) :
    ∃ entry, event.Serves key text entry := by
  cases handsOut with
  | @get engine key text hit =>
      have told := (Engine.act_matches sound (.get key)).result_eq.symm.trans hit
      obtain ⟨entry, found, same⟩ := Reply.exists_of_ofResult_eq told (by simp) (by simp)
      cases same
      exact Engine.exists_serves_of_lookup found (by simp)
  | @getWithSnapshot engine key text snapshot hit =>
      have told := (Engine.act_matches sound (.getWithSnapshot key)).result_eq.symm.trans hit
      obtain ⟨entry, found, same⟩ := Reply.exists_of_ofResult_eq told (by simp) (by simp)
      cases same
      exact Engine.exists_serves_of_lookup found (by simp)
  | @getSince engine key since text hit =>
      have told := (Engine.act_matches sound (.getSince key since)).result_eq.symm.trans hit
      obtain ⟨entry, found, same⟩ := Reply.exists_of_ofResult_eq told (by simp) (by simp)
      obtain ⟨recent, looked⟩ := PlainStore.exists_of_lookupSince_eq found
      cases same
      apply Engine.exists_serves_of_lookup looked
      intro asked same
      cases same
      exact recent
  | @putIfAbsent engine key made text present hit =>
      obtain ⟨entry, found⟩ := Option.isSome_iff_exists.mp present
      have told : (Action.run (.putIfAbsent key made) engine).1 = _ := hit
      rw [Action.run, Engine.putIfAbsent, found] at told
      cases told
      exact ⟨entry, Engine.serves_of_live? sound found (by simp)⟩
  | ask shows => exact Engine.exists_serves_of_shows sound shows

end Event

/-- A text that is handed out in the course of a program is the one stored by the latest insertion
of its key that has been accepted. Since then the key has neither been removed nor have all
entries been cleared, and the time to live that came with the insertion, if it is not zero, is not
over. If a time of storing was asked for, the insertion is no earlier. -/
theorem Origin.exists_latest_insertion (origin : Origin) (calls : List Call)
    {past future : List Event} {event : Event} {key : Key} {text : String}
    (split : Call.traceAll calls origin.engine = past ++ event :: future)
    (handsOut : event.HandsOut key text) :
    ∃ older insertion newer lifetime,
      past = older ++ insertion :: newer ∧
        insertion.Inserts key text lifetime ∧
        (∃ timeOfDay, insertion.engine.moment.timeOfDay = .ok timeOfDay) ∧
        (∀ later ∈ newer, ¬later.Displaces key) ∧
        (∀ duration, lifetime = some duration → 0 < duration →
          event.engine.now < insertion.engine.now + duration) ∧
        (∀ since, event.action = .getSince key since → since ≤ insertion.engine.now) := by
  have path := Call.path_traceAll calls origin.engine
  rw [split] at path
  have reached := path.split.1
  have sound := origin.sound.of_path reached
  obtain ⟨entry, serves⟩ := handsOut.exists_serves sound.represents
  have recorded : event.engine.Recorded past :=
    Engine.Recorded.of_path origin.sound origin.recorded reached
  obtain ⟨older, insertion, newer, pastEq, explains⟩ := recorded entry serves.stored
  obtain ⟨lifetime, inserts, timeToLive⟩ := explains.inserts
  have createdAt := explains.createdAt
  rw [serves.key_eq, serves.text_eq] at inserts
  refine ⟨older, insertion, newer, lifetime, pastEq, inserts, explains.readable, ?_, ?_, ?_⟩
  · rw [← serves.key_eq]
    exact explains.undisturbed
  · intro duration asked positive
    rw [asked, Option.filter_some, if_pos (by simpa using Nat.ne_of_gt positive)] at timeToLive
    rw [← createdAt]
    exact Entry.lt_of_live serves.live timeToLive
  · rw [← createdAt]
    exact serves.recent

/-- A supplier stores the value that its call then finds, and loses the one that it has made. -/
theorem Origin.exists_latest_insertion_lost_race :
    let origin := Origin.create 1 0
    let value : Value := ⟨"1", false⟩
    let options : EntryOptions := { timeToLive := some 5 }
    let calls := [Call.getOrCreate "a" [.put "a" value options] (.value "2")]
    let miss : Event := ⟨origin.engine, .get "a"⟩
    let supply : Event := ⟨miss.after, .put "a" value options⟩
    let loss : Event := ⟨supply.after, .putIfAbsent "a" "2"⟩
    Call.traceAll calls origin.engine = [miss, supply] ++ loss :: [] ∧ loss.HandsOut "a" "1" ∧
      ∃ older insertion newer lifetime,
        [miss, supply] = older ++ insertion :: newer ∧
          insertion.Inserts "a" "1" lifetime ∧
          (∃ timeOfDay, insertion.engine.moment.timeOfDay = .ok timeOfDay) ∧
          (∀ later ∈ newer, ¬later.Displaces "a") ∧
          (∀ duration, lifetime = some duration → 0 < duration →
            loss.engine.now < insertion.engine.now + duration) ∧
          (∀ since, loss.action = .getSince "a" since → since ≤ insertion.engine.now) := by
  intro origin value options calls miss supply loss
  have split : Call.traceAll calls origin.engine = [miss, supply] ++ loss :: [] := rfl
  have present : (loss.engine.store.live? "a" loss.engine.now).isSome := by decide +kernel
  have kept : (loss.engine.putIfAbsent "a" "2").1 = .ok "1" := by decide +kernel
  have told : loss.reply = .found (some "1") :=
    congrArg (Reply.ofResult fun text => .found (some text)) kept
  have handsOut : loss.HandsOut "a" "1" := .putIfAbsent present told
  exact ⟨split, handsOut, origin.exists_latest_insertion calls split handsOut⟩

end RecencyCache
