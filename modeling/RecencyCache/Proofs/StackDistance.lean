import RecencyCache.Proofs.Balance
import RecencyCache.Proofs.Creation

/-!
# Stack distance

As long as no value has a time to live and nothing is swept, what a cache holds can be told from its
history alone, without knowing how it is kept. It holds the keys touched last, as many as there is
room for, and a lookup finds a key if fewer other keys have been touched since its last touch than
there is room for.
-/

namespace RecencyCache

/-! ## Lists without repetitions -/

theorem eraseDups_filter (keep : Key → Bool) (list : List Key) :
    (list.filter keep).eraseDups = list.eraseDups.filter keep := by
  cases list with
  | nil => rfl
  | cons head tail =>
      have rest := eraseDups_filter keep (tail.filter (!· == head))
      rw [List.eraseDups_cons, List.filter_cons, List.filter_cons, ← rest]
      split
      · rw [List.eraseDups_cons, List.filter_comm]
      · -- What is like the head goes with it anyway.
        rename_i dropped
        congr 1
        rw [List.filter_filter]
        refine List.filter_congr fun key _ => ?_
        by_cases same : key = head
        · subst same
          simp [dropped]
        · simp [same]
termination_by list.length
decreasing_by exact Nat.lt_succ_of_le (List.length_filter_le _ _)

theorem nodup_eraseDups (list : List Key) : list.eraseDups.Nodup := by
  cases list with
  | nil => exact List.nodup_nil
  | cons head tail =>
      rw [List.eraseDups_cons, List.nodup_cons]
      refine ⟨?_, nodup_eraseDups (tail.filter (!· == head))⟩
      simp [List.mem_eraseDups]
termination_by list.length
decreasing_by exact Nat.lt_succ_of_le (List.length_filter_le _ _)

theorem filter_ne_of_not_mem {key : Key} {list : List Key} (absent : key ∉ list) :
    list.filter (· ≠ key) = list := by
  rw [List.filter_eq_self]
  intro other member
  simpa using ne_of_mem_of_not_mem member absent

/-- Of different keys, the first ones that are left when one is taken out are among those that come
first and one more. -/
theorem take_filter_take {list : List Key} (distinct : list.Nodup) (key : Key) (count : Nat) :
    ((list.take (count + 1)).filter (· ≠ key)).take count = (list.filter (· ≠ key)).take count := by
  induction list generalizing count with
  | nil => simp
  | cons head tail ih =>
      obtain ⟨absent, distinct⟩ := List.nodup_cons.mp distinct
      rw [List.take_succ_cons]
      by_cases same : head = key
      · subst same
        have untaken : head ∉ tail.take count := fun taken => absent (List.mem_of_mem_take taken)
        rw [List.filter_cons_of_neg (by simp), List.filter_cons_of_neg (by simp),
          filter_ne_of_not_mem untaken, filter_ne_of_not_mem absent, List.take_take, Nat.min_self]
      · rw [List.filter_cons_of_pos (by simpa using same),
          List.filter_cons_of_pos (by simpa using same)]
        cases count with
        | zero => rfl
        | succ count => rw [List.take_succ_cons, List.take_succ_cons, ih distinct]

theorem mem_take_append_cons_iff {newer older : List Key} {key : Key} {count : Nat}
    (fresh : key ∉ newer) : key ∈ (newer ++ key :: older).take count ↔ newer.length < count := by
  have untaken : key ∉ newer.take count := fun taken => fresh (List.mem_of_mem_take taken)
  rw [List.take_append, List.mem_append, or_iff_right untaken, ← Nat.sub_pos_iff_lt]
  cases count - newer.length with
  | zero => simp
  | succ left => simp

/-- A key is among the first different ones if it occurs and few others do before it. -/
theorem mem_take_eraseDups_iff {list : List Key} {key : Key} {count : Nat} :
    key ∈ list.eraseDups.take count ↔
      key ∈ list ∧ (list.takeWhile (· ≠ key)).eraseDups.length < count := by
  by_cases member : key ∈ list
  · obtain ⟨newer, older, rfl, fresh⟩ := List.eq_append_cons_of_mem member
    have different : ∀ other ∈ newer, decide (other ≠ key) = true := by
      intro other newest
      simpa using ne_of_mem_of_not_mem newest fresh
    obtain ⟨rest, split⟩ :
        ∃ rest, (newer ++ key :: older).eraseDups = newer.eraseDups ++ key :: rest := by
      rw [List.eraseDups_append]
      simp [List.removeAll, fresh, List.eraseDups_cons]
    have unlisted : key ∉ newer.eraseDups := fun listed => fresh (List.mem_eraseDups.mp listed)
    rw [and_iff_right member, List.takeWhile_append_of_pos different, split,
      mem_take_append_cons_iff unlisted]
    simp
  · have absent : key ∉ list.eraseDups.take count :=
      fun taken => member (List.mem_eraseDups.mp (List.mem_of_mem_take taken))
    simp [member, absent]

/-! ## Touches -/

/-- A key that a call has touched, with the text that the call has stored under it, if any. -/
structure Touch where
  key : Key
  stored : Option String := none
  deriving DecidableEq

namespace Call

/-- What a call with this reply touches: the key under which it stores or finds something. -/
def touch? : Call → Reply → Option Touch
  | .put key value _, _ => some { key, stored := some value.text }
  | .get key, .found (some _) => some { key }
  | .getOrCreate key _ _, .created _ none => some { key }
  | .getOrCreate key _ (.value text), _ => some { key, stored := some text }
  | _, _ => none

/-- The call stores or looks up, no value has a time to live, and a supplier only makes a value; or
the call lets time pass. -/
def isTimeless : Call → Bool
  | .put _ _ options => options.timeToLive.isNone
  | .get _ | .getOrCreate _ [] (.value _) | .advance _ => true
  | _ => false

/-- A value that a supplier has made is stored even if making room for it is broken off. -/
theorem touch?_made {α : Type} (key : Key) (supplier : List Call) (text : String)
    (steps : List Step) (result : Except Fault α) :
    touch? (.getOrCreate key supplier (.value text))
        (.ofResult (fun _ => .created (some text) (some steps)) result) =
      some { key, stored := some text } := by
  cases result with
  | ok => rfl
  | error fault => rfl

/-- The touches of calls with these steps, the latest first. -/
def touches (calls : List Call) (steps : List Step) : List Touch :=
  ((calls.zip steps).filterMap fun (call, .mk reply _) => call.touch? reply).reverse

end Call

/-- The touched keys in the order of their last touches, the latest first. -/
def recentKeys (touches : List Touch) : List Key := (touches.map (·.key)).eraseDups

/-- The text stored under a key by the latest touch that has stored one. -/
def lastText? (touches : List Touch) (key : Key) : Option String :=
  touches.findSome? fun touch => if touch.key = key then touch.stored else none

/-- The key has been touched, and since its last touch fewer other keys have been than there is room
for. -/
def Recent (capacity : Nat) (touches : List Touch) (key : Key) : Prop :=
  (∃ touch ∈ touches, touch.key = key) ∧
    (recentKeys (touches.takeWhile (·.key ≠ key))).length < capacity

theorem recentKeys_cons (touch : Touch) (touches : List Touch) :
    recentKeys (touch :: touches) = touch.key :: (recentKeys touches).filter (· ≠ touch.key) := by
  rw [recentKeys, List.map_cons, List.eraseDups_cons, eraseDups_filter, recentKeys]
  congr 1
  refine List.filter_congr fun key _ => ?_
  by_cases same : key = touch.key
  · simp [same]
  · simp [same]

theorem nodup_recentKeys (touches : List Touch) : (recentKeys touches).Nodup := nodup_eraseDups _

theorem mem_take_recentKeys_iff {capacity : Nat} {touches : List Touch} {key : Key} :
    key ∈ (recentKeys touches).take capacity ↔ Recent capacity touches key := by
  rw [recentKeys, mem_take_eraseDups_iff, List.takeWhile_map, List.mem_map]
  rfl

/-- A touch brings its key to the front, and what is in excess behind it goes. -/
theorem take_recentKeys_cons (capacity : Nat) (touch : Touch) (touches : List Touch) :
    (recentKeys (touch :: touches)).take (capacity + 1) =
      touch.key ::
        (((recentKeys touches).take (capacity + 1)).filter (· ≠ touch.key)).take capacity := by
  rw [recentKeys_cons, List.take_succ_cons, take_filter_take (nodup_recentKeys touches)]

/-- A new key comes in front of what fits behind it. -/
theorem take_recentKeys_of_new {capacity : Nat} {touch : Touch} {touches : List Touch}
    (new : touch.key ∉ (recentKeys touches).take capacity)
    (full : ((recentKeys touches).take capacity).length = capacity) :
    (recentKeys (touch :: touches)).take capacity =
      (touch.key :: (recentKeys touches).take capacity).dropLast := by
  rw [List.dropLast_eq_take, List.length_cons, full, Nat.add_sub_cancel]
  cases capacity with
  | zero => rfl
  | succ capacity => rw [take_recentKeys_cons, filter_ne_of_not_mem new, List.take_succ_cons]

theorem lastText?_cons_of_ne {touch : Touch} {key : Key} (different : key ≠ touch.key)
    (touches : List Touch) : lastText? (touch :: touches) key = lastText? touches key := by
  rw [lastText?, List.findSome?_cons, if_neg (Ne.symm different), lastText?]

theorem lastText?_cons_stored (key : Key) (text : String) (touches : List Touch) :
    lastText? ({ key, stored := some text } :: touches) key = some text := by
  rw [lastText?, List.findSome?_cons, if_pos rfl]

/-- A touch that stores nothing leaves the texts as they are. -/
theorem lastText?_cons_found (key other : Key) (touches : List Touch) :
    lastText? ({ key := other } :: touches) key = lastText? touches key := by
  rw [lastText?, List.findSome?_cons, ite_self, lastText?]

/-! ## Plain stores -/

namespace PlainStore

variable {store : PlainStore} {touches : List Touch} {key : Key} {capacity : Nat}

/-- A lookup that finds nothing only counts. -/
theorem lookup_of_absent (absent : store.find? key = none) (now : Nat) :
    store.lookup key now = (.ok none, store.countMiss) := by
  rw [lookup, absent]

/-- The store holds the keys touched last, each with the text stored under it last and with no time
to live. -/
structure Recalls (store : PlainStore) (capacity : Nat) (touches : List Touch) : Prop where
  capacity_eq : store.capacity = capacity
  keys_eq : store.entries.map (·.key) = (recentKeys touches).take capacity
  text_eq : ∀ entry ∈ store.entries, lastText? touches entry.key = some entry.value.text
  ageless : ∀ entry ∈ store.entries, entry.timeToLive = none

namespace Recalls

/-- Nothing is ever dead. -/
theorem live_of_mem (recalls : store.Recalls capacity touches) {entry : Entry}
    (member : entry ∈ store.entries) (now : Nat) : entry.live now = true := by
  rw [Entry.live, Entry.outlived, recalls.ageless entry member, Bool.not_false]

theorem liveKeys_eq (recalls : store.Recalls capacity touches) (now : Nat) :
    store.liveKeys now = (recentKeys touches).take capacity := by
  rw [liveKeys, List.filter_eq_self.mpr fun entry member => recalls.live_of_mem member now,
    recalls.keys_eq]

theorem live?_eq (recalls : store.Recalls capacity touches) (key : Key) (now : Nat) :
    store.live? key now = store.find? key := by
  cases found : store.find? key with
  | none => rw [live?, found, Option.filter_none]
  | some entry =>
      exact live?_eq_some_iff.mpr ⟨found, recalls.live_of_mem (mem_of_find? found) now⟩

/-- Something is stored under the keys that are recent. -/
theorem isSome_find?_iff (recalls : store.Recalls capacity touches) (key : Key) :
    (store.find? key).isSome ↔ Recent capacity touches key := by
  rw [← mem_take_recentKeys_iff, ← recalls.keys_eq, find?, List.find?_isSome, List.mem_map]
  simp

/-- What is left of the others when a new entry comes in front has been recalled before. -/
theorem cons_others (recalls : store.Recalls (capacity + 1) touches) {left : PlainStore}
    {entry : Entry} {touch : Touch}
    (entries : left.entries = entry :: (store.others touch.key).take capacity)
    (kept : left.capacity = store.capacity) (sameKey : entry.key = touch.key)
    (text : lastText? (touch :: touches) entry.key = some entry.value.text)
    (ageless : entry.timeToLive = none) : left.Recalls (capacity + 1) (touch :: touches) := by
  have old {other : Entry} (member : other ∈ (store.others touch.key).take capacity) :
      other ∈ store.entries ∧ other.key ≠ touch.key :=
    mem_others_iff.mp (List.mem_of_mem_take member)
  constructor
  case capacity_eq => exact kept.trans recalls.capacity_eq
  case keys_eq =>
    have keys : (store.others touch.key).map (·.key) =
        (store.entries.map (·.key)).filter (· ≠ touch.key) := by
      rw [List.filter_map]
      rfl
    rw [take_recentKeys_cons, entries, List.map_cons, List.map_take, keys, recalls.keys_eq, sameKey]
  case text_eq =>
    rw [entries]
    refine List.forall_mem_cons.mpr ⟨text, fun other member => ?_⟩
    obtain ⟨stored, different⟩ := old member
    rw [lastText?_cons_of_ne different, recalls.text_eq other stored]
  case ageless =>
    rw [entries]
    exact List.forall_mem_cons.mpr
      ⟨ageless, fun other member => recalls.ageless other (old member).1⟩

theorem put (recalls : store.Recalls capacity touches) (key : Key) (value : Value)
    {options : EntryOptions} (timeless : options.timeToLive = none) {moment : Moment}
    (readable : moment.timeOfDay.isOk) :
    (store.put key value options moment).2.Recalls capacity
      ({ key, stored := some value.text } :: touches) := by
  cases room : capacity with
  | zero =>
      have full := recalls.capacity_eq.trans room
      have empty : store.entries = [] := by simpa [room] using recalls.keys_eq
      rw [put_of_full full]
      exact ⟨full, by simp [empty], by simp [empty], by simp [empty]⟩
  | succ capacity =>
      subst room
      have roomy : store.capacity ≠ 0 := by simp [recalls.capacity_eq]
      cases readable' : moment.timeOfDay with
      | error fault => simp [readable', Except.isOk, Except.toBool] at readable
      | ok timeOfDay =>
          rw [PlainStore.put, if_neg roomy]
          simp only [readable', recalls.capacity_eq, Nat.add_sub_cancel]
          refine recalls.cons_others rfl recalls.capacity_eq.symm rfl ?_ ?_
          · exact lastText?_cons_stored key value.text touches
          · simp [Entry.create, timeless]

/-- A lookup that finds something touches its key and tells the text stored under it last. -/
theorem lookup (recalls : store.Recalls capacity touches) {entry : Entry}
    (found : store.find? key = some entry) (now : Nat) :
    (store.lookup key now).2.Recalls capacity ({ key } :: touches) := by
  have member := mem_of_find? found
  obtain rfl := key_of_find? found
  have fewer : (store.others entry.key).length < capacity := by
    refine Nat.lt_of_lt_of_le (length_others_lt found) ?_
    rw [← List.length_map (·.key), recalls.keys_eq]
    exact List.length_take_le capacity (recentKeys touches)
  obtain ⟨capacity, rfl⟩ := Nat.exists_eq_succ_of_ne_zero (Nat.ne_zero_of_lt fewer)
  have entries : entry.touch now store.refreshOnHit :: store.others entry.key =
      entry.touch now store.refreshOnHit :: (store.others entry.key).take capacity := by
    rw [List.take_of_length_le (Nat.le_of_lt_succ fewer)]
  rw [lookup_eq_of_live ((recalls.live?_eq entry.key now).trans found)]
  refine recalls.cons_others entries rfl rfl ?_ (recalls.ageless entry member)
  rw [Entry.key_touch, lastText?_cons_found]
  exact recalls.text_eq entry member

theorem countMiss (recalls : store.Recalls capacity touches) :
    store.countMiss.Recalls capacity touches :=
  ⟨recalls.capacity_eq, recalls.keys_eq, recalls.text_eq, recalls.ageless⟩

end Recalls

end PlainStore

/-! ## Plain engines -/

/-- The store of the engine recalls the touches, and no sweeper is asleep. -/
structure PlainEngine.Recalls (engine : PlainEngine) (capacity : Nat) (touches : List Touch) :
    Prop where
  store : engine.store.Recalls capacity touches
  sleepers_eq : engine.sleepers = []

namespace PlainEngine.Recalls

variable {engine : PlainEngine} {capacity : Nat} {touches : List Touch}

theorem get (recalls : engine.Recalls capacity touches) (key : Key) :
    (run (.get key) engine).2.Recalls capacity
      ((Call.touch? (.get key) (run (.get key) engine).1).toList ++ touches) := by
  rw [run, act, conclude]
  cases found : engine.store.find? key with
  | none =>
      rw [PlainStore.lookup_of_absent found]
      exact ⟨recalls.store.countMiss, recalls.sleepers_eq⟩
  | some entry =>
      have live := (recalls.store.live?_eq key engine.now).trans found
      rw [(PlainStore.lookup_of_live live).1]
      exact ⟨recalls.store.lookup found engine.now, recalls.sleepers_eq⟩

theorem put (recalls : engine.Recalls capacity touches) (key : Key) (value : Value)
    {options : EntryOptions} (timeless : options.timeToLive = none)
    (readable : engine.moment.timeOfDay.isOk) :
    (run (.put key value options) engine).2.Recalls capacity
      ({ key, stored := some value.text } :: touches) :=
  ⟨recalls.store.put key value timeless readable, recalls.sleepers_eq⟩

/-- A supplier that only makes a value is called for a key that is not stored, and its value is. -/
theorem getOrCreate (recalls : engine.Recalls capacity touches) (key : Key) (text : String)
    (readable : engine.moment.timeOfDay.isOk) :
    let call := Call.getOrCreate key [] (.value text)
    (run call engine).2.Recalls capacity
      ((call.touch? (run call engine).1).toList ++ touches) := by
  intro call
  cases found : engine.store.find? key with
  | some entry =>
      have live := (recalls.store.live?_eq key engine.now).trans found
      have looked := recalls.store.lookup found engine.now
      rw [PlainStore.lookup_eq_of_live live] at looked
      rw [run, PlainStore.lookup_eq_of_live live]
      exact ⟨looked, recalls.sleepers_eq⟩
  | none =>
      have missed : { engine with store := engine.store.countMiss }.Recalls capacity touches :=
        ⟨recalls.store.countMiss, recalls.sleepers_eq⟩
      have dead := (missed.store.live?_eq key engine.now).trans found
      have stored :
          (run (.put key { text } {}) { engine with store := engine.store.countMiss }).2.Recalls
            capacity ({ key, stored := some text } :: touches) :=
        missed.put key { text } rfl readable
      rw [run, PlainStore.lookup_of_absent found]
      simp only [runAll, putIfAbsent, dead]
      rw [conclude, Call.touch?_made]
      exact stored

/-- No time to live ends, and nobody wakes. -/
theorem advance (recalls : engine.Recalls capacity touches) (duration : Nat) :
    (run (.advance duration) engine).2.Recalls capacity touches := by
  have idle : engine.runUntil (engine.now + duration) =
      { engine with now := engine.now + duration } :=
    runUntil_of_idle (by simp [recalls.sleepers_eq, Sleeper.splitEarliest?])
  rw [run, idle]
  exact ⟨recalls.store, recalls.sleepers_eq⟩

/-- A call goes on to recall what has been touched. -/
theorem run (recalls : engine.Recalls capacity touches) {call : Call}
    (timeless : call.isTimeless = true) (readable : engine.moment.timeOfDay.isOk) :
    (PlainEngine.run call engine).2.Recalls capacity
      ((call.touch? (PlainEngine.run call engine).1).toList ++ touches) := by
  cases call with
  | put key value options =>
      exact recalls.put key value (Option.isNone_iff_eq_none.mp timeless) readable
  | get key => exact recalls.get key
  | getOrCreate key supplier ending =>
      cases supplier with
      | cons => simp [Call.isTimeless] at timeless
      | nil =>
          cases ending with
          | value text => exact recalls.getOrCreate key text readable
          | error | broken => simp [Call.isTimeless] at timeless
  | advance duration => exact recalls.advance duration
  | _ => simp [Call.isTimeless] at timeless

end PlainEngine.Recalls

/-! ## Engines -/

/-- Every call does something to the engine that it meets. -/
theorem Call.exists_first (call : Call) (engine : Engine) :
    ∃ event ∈ call.trace engine, event.engine = engine := by
  cases call with
  | advance duration =>
      rw [trace, Engine.wakings]
      split
      · exact ⟨_, .head _, rfl⟩
      · split
        · exact ⟨_, .head _, rfl⟩
        · exact ⟨_, .head _, rfl⟩
  | _ =>
      rw [trace]
      exact ⟨_, .head _, rfl⟩

theorem Call.touches_cons (call : Call) (calls : List Call) (reply : Reply) (view : View)
    (steps : List Step) :
    touches (call :: calls) (.mk reply view :: steps) =
      touches calls steps ++ (call.touch? reply).toList := by
  simp only [touches, List.zip_cons_cons, List.filterMap_cons]
  cases call.touch? reply with
  | none => exact (List.append_nil _).symm
  | some touch => exact List.reverse_cons

namespace Engine

variable {engine : Engine} {capacity : Nat} {past : List Touch}

/-- Through a program, an engine goes on to recall what has been touched. -/
theorem recalls_runAll (sound : engine.Sound) (recalls : engine.plain.Recalls capacity past)
    {calls : List Call} (timeless : ∀ call ∈ calls, call.isTimeless = true)
    (readable : ∀ event ∈ Call.traceAll calls engine, event.engine.moment.timeOfDay.isOk) :
    (Call.runAll calls engine).2.plain.Recalls capacity
      (Call.touches calls (Call.runAll calls engine).1 ++ past) := by
  induction calls generalizing engine past with
  | nil => exact recalls
  | cons call calls ih =>
      obtain ⟨callTimeless, restTimeless⟩ := List.forall_mem_cons.mp timeless
      rw [Call.traceAll, List.forall_mem_append] at readable
      obtain ⟨event, member, rfl⟩ := call.exists_first engine
      have left := recalls.run callTimeless (readable.1 event member)
      have same := run_matches sound.represents call
      rw [← same.result_eq, ← same.plain_eq] at left
      have rest := ih (sound.of_path (call.path_trace event.engine)) left restTimeless readable.2
      rw [Call.runAll, Call.touches_cons, List.append_assoc]
      exact rest

end Engine

/-- What an engine shows, finds and gives up is told by the touches up to now and its capacity. -/
structure Engine.ToldByTouches (engine : Engine) (capacity : Nat) (touches : List Touch) :
    Prop where
  keysByRecency : Query.ask .keysByRecency engine = .keys ((recentKeys touches).take capacity)
  get : ∀ key, ∃ found, (Call.run (.get key) engine).1 = .found found ∧
    (found.isSome ↔ Recent capacity touches key) ∧
    ∀ text, found = some text → lastText? touches key = some text
  /-- If there is no room left, a new key takes the place of the one touched least recently. -/
  evicts : ∀ call : Call, call.isTimeless = true → engine.moment.timeOfDay.isOk →
    ∀ touch, call.touch? (call.run engine).1 = some touch →
    ∀ keys, Query.ask .keysByRecency engine = .keys keys →
      touch.key ∉ keys → keys.length = capacity →
      Query.ask .keysByRecency (call.run engine).2 = .keys (touch.key :: keys).dropLast

namespace Engine

variable {engine : Engine} {capacity : Nat} {touches : List Touch}

theorem keysByRecency_of_recalls (recalls : engine.plain.Recalls capacity touches) :
    Query.ask .keysByRecency engine = .keys ((recentKeys touches).take capacity) :=
  congrArg Finding.keys (recalls.store.liveKeys_eq engine.now)

theorem toldByTouches (sound : engine.Sound) (recalls : engine.plain.Recalls capacity touches) :
    engine.ToldByTouches capacity touches := by
  have listed := keysByRecency_of_recalls recalls
  constructor
  case keysByRecency => exact listed
  case get =>
    intro key
    have same := run_matches sound.represents (.get key)
    rw [same.result_eq, PlainEngine.run, PlainEngine.act, PlainEngine.conclude,
      ← recalls.store.isSome_find?_iff key]
    cases found : engine.plain.store.find? key with
    | none =>
        rw [PlainStore.lookup_of_absent found]
        exact ⟨none, rfl, by simp, by simp⟩
    | some entry =>
        have live := (recalls.store.live?_eq key engine.plain.now).trans found
        rw [(PlainStore.lookup_of_live live).1]
        refine ⟨some entry.value.text, rfl, by simp, ?_⟩
        rintro text ⟨rfl⟩
        rw [← PlainStore.key_of_find? found]
        exact recalls.store.text_eq entry (PlainStore.mem_of_find? found)
  case evicts =>
    intro call timeless readable touch touched keys shown new full
    obtain rfl : (recentKeys touches).take capacity = keys :=
      Finding.keys.inj (listed.symm.trans shown)
    have left := recalls.run timeless readable
    have same := run_matches sound.represents call
    rw [← same.result_eq, ← same.plain_eq, touched] at left
    rw [keysByRecency_of_recalls left]
    exact congrArg Finding.keys (take_recentKeys_of_new new full)

end Engine

/-! ## Histories -/

namespace Origin

/-- An engine recalls nothing when it is made without a sweeper. -/
theorem recalls_nothing (origin : Origin) (unswept : origin.engine.sleepers = []) :
    origin.engine.plain.Recalls origin.engine.store.capacity [] := by
  have empty : origin.engine.plain.store.entries = [] := by
    rw [origin.engine_plain.2]
    cases origin with
    | create => rfl
    | ofConfig => rw [plain, PlainEngine.ofConfig, PlainEngine.store_enable]
  refine ⟨⟨rfl, ?_, ?_, ?_⟩, unswept⟩
  · rw [empty]
    exact List.take_nil.symm
  · simp [empty]
  · simp [empty]

/-- As long as nothing has a time to live, nothing is swept and the time of day can be told, the
keys that are stored are those touched last, a lookup finds those since whose last touch few others
have been touched, and a new key takes the place of the one touched least recently. -/
theorem told_by_touches (origin : Origin) (unswept : origin.engine.sleepers = [])
    {calls : List Call} (timeless : ∀ call ∈ calls, call.isTimeless = true)
    (readable : ∀ event ∈ Call.traceAll calls origin.engine,
      event.engine.moment.timeOfDay.isOk) :
    let done := Call.runAll calls origin.engine
    done.2.ToldByTouches origin.engine.store.capacity (Call.touches calls done.1) := by
  intro done
  have recalls := Engine.recalls_runAll origin.sound (origin.recalls_nothing unswept) timeless
    readable
  rw [List.append_nil] at recalls
  exact Engine.toldByTouches (origin.sound.of_path (Call.path_traceAll calls origin.engine)) recalls

/-- A key that has been found again outlives a later one when a supplier makes a third, and the
lookup that finds nothing touches nothing. -/
theorem told_by_touches_found_again :
    let origin := Origin.create 2 0
    let calls := [Call.put "a" ⟨"1", false⟩ {}, .put "b" ⟨"2", false⟩ {}, .get "a", .advance 5,
      .getOrCreate "c" [] (.value "3"), .get "b"]
    let done := Call.runAll calls origin.engine
    let touches : List Touch := [⟨"c", some "3"⟩, ⟨"a", none⟩, ⟨"b", some "2"⟩, ⟨"a", some "1"⟩]
    done.2.ToldByTouches 2 touches ∧ recentKeys touches = ["c", "a", "b"] := by
  intro origin calls done touches
  have timeless : ∀ call ∈ calls, call.isTimeless = true := by simp [calls, Call.isTimeless]
  have readable : ∀ event ∈ Call.traceAll calls origin.engine,
      event.engine.moment.timeOfDay.isOk := by
    apply List.all_eq_true.mp
    decide +kernel
  have touched : Call.touches calls done.1 = touches := by decide +kernel
  have told : done.2.ToldByTouches 2 (Call.touches calls done.1) :=
    origin.told_by_touches rfl timeless readable
  rw [touched] at told
  exact ⟨told, by decide +kernel⟩

/-- Past the end of the calendar, a cache with room for an entry does not store it. -/
theorem untold_past_calendar :
    let origin := Origin.create 1 (8210266876800000 * 1000000)
    let calls := [Call.put "a" ⟨"1", false⟩ {}]
    let done := Call.runAll calls origin.engine
    origin.engine.sleepers = [] ∧ (∀ call ∈ calls, call.isTimeless = true) ∧
      ¬done.2.ToldByTouches origin.engine.store.capacity (Call.touches calls done.1) := by
  intro origin calls done
  refine ⟨rfl, by simp [calls, Call.isTimeless], ?_⟩
  intro told
  have listed : done.2.store.keysByRecency done.2.now = [] := by decide +kernel
  have expected : (recentKeys (Call.touches calls done.1)).take 1 = ["a"] := by decide +kernel
  have shown := Finding.keys.inj told.keysByRecency
  rw [listed] at shown
  exact List.cons_ne_nil _ _ (expected.symm.trans shown.symm)

end Origin

end RecencyCache
