import RecencyCache.Proofs.Creation
import RecencyCache.Proofs.Http.Bodies
import RecencyCache.Proofs.Http.Requests
import RecencyCache.Proofs.Http.Segments
import RecencyCache.Proofs.Running

/-!
# Storing a value and getting it back

A value that is stored by a request is told by a later one until its lifetime has elapsed in full,
and is gone then. It matters neither how the first request spells its content nor how the second one
encodes the key, and what is left of the lifetime is told to the millisecond. The value is stored
only if the time of day can be told, because it bears the time of its insertion.
-/

namespace RecencyCache

/-! ## Storing -/

namespace PlainStore

variable {store : PlainStore} {key : Key} {value : Value} {options : EntryOptions}
  {moment : Moment} {timeOfDay : Timestamp}

theorem find?_put_of_told (room : store.capacity ≠ 0) (told : moment.timeOfDay = .ok timeOfDay) :
    (store.put key value options moment).2.find? key =
      some (.create key value options moment.now timeOfDay) := by
  simp only [put, if_neg room, told]
  simp [find?]

/-- An insertion disposes of nothing but stored values. -/
theorem result_put_of_harmless (room : store.capacity ≠ 0)
    (told : moment.timeOfDay = .ok timeOfDay)
    (harmless : ∀ entry ∈ store.entries, entry.value.faulty = false) :
    (store.put key value options moment).1 = .ok () := by
  simp only [put, if_neg room, told]
  apply disposing_of_harmless
  intro value disposed
  obtain ⟨entry, gone, rfl⟩ := List.mem_map.mp disposed
  apply harmless
  rcases List.mem_append.mp gone with replaced | evicted
  · exact (List.mem_filter.mp replaced).1
  · exact (mem_others_iff.mp (List.mem_of_mem_drop evicted)).1

end PlainStore

namespace Engine

variable {engine : Engine} {entry : Entry} {timeOfDay : Timestamp}

/-- The engine can store a value: there is room, every other value can be disposed of, and the time
of day can be told. Nobody sweeps. -/
structure Ready (engine : Engine) (timeOfDay : Timestamp) : Prop where
  sound : engine.Sound
  room : 0 < engine.store.capacity
  unstaffed : ¬engine.Staffed
  harmless : ∀ entry ∈ engine.store.chain.toList, entry.value.faulty = false
  told : engine.moment.timeOfDay = .ok timeOfDay

/-- The engine holds the entry, and nobody sweeps. -/
structure Keeps (engine : Engine) (entry : Entry) : Prop where
  sound : engine.Sound
  unstaffed : ¬engine.Staffed
  stored : engine.store.chain.find? entry.key = some entry

/-- An engine that is ready stores a value. -/
theorem Ready.exists_put_eq (ready : engine.Ready timeOfDay) (key : Key) (value : Value)
    (options : EntryOptions) :
    ∃ after, engine.put key value options = (.ok (), after) ∧ after.now = engine.now ∧
      after.Keeps (.create key value options engine.now timeOfDay) := by
  have room : engine.plain.store.capacity ≠ 0 := Nat.ne_of_gt ready.room
  have same := put_matches ready.sound key value options
  have left := same.plain_eq
  refine ⟨_, Prod.ext ?_ rfl, congrArg PlainEngine.now left, ?_, ?_, ?_⟩
  · rw [same.result_eq]
    exact PlainStore.result_put_of_harmless room ready.told ready.harmless
  · exact (ready.sound.run (.put key value options)).1
  · rintro ⟨sleeper, asleep, current⟩
    have sleepers : (engine.put key value options).2.sleepers = engine.sleepers :=
      congrArg PlainEngine.sleepers left
    have control : (engine.put key value options).2.control = engine.control :=
      congrArg PlainEngine.control left
    rw [sleepers] at asleep
    rw [control] at current
    exact ready.unstaffed ⟨sleeper, asleep, current⟩
  · rw [← find?_plain same.1, left]
    exact PlainStore.find?_put_of_told room ready.told

/-- What is stored is kept while time passes. -/
theorem Keeps.advance (keeps : engine.Keeps entry) (duration : Nat) :
    (engine.advance duration).now = engine.now + duration ∧
      (engine.advance duration).Keeps entry := by
  obtain ⟨sleepers, left, unstaffed⟩ :=
    exists_runUntil_of_unstaffed keeps.unstaffed (engine.now + duration)
  rw [Engine.advance]
  rw [left] at unstaffed ⊢
  exact ⟨rfl, ⟨keeps.sound.represents, keeps.sound.size_eq, keeps.sound.size_le⟩, unstaffed,
    keeps.stored⟩

/-! ## Getting -/

/-- An entry that is alive is told with one more hit. -/
theorem Keeps.exists_getWithSnapshot_of_live (keeps : engine.Keeps entry)
    (live : entry.outlived engine.now = false) :
    ∃ after, engine.getWithSnapshot entry.key =
      (.ok (some (entry.value.text,
        (entry.touch engine.now engine.store.refreshOnHit).snapshot engine.now)), after) := by
  have found : engine.plain.store.live? entry.key engine.plain.now = some entry := by
    rw [PlainStore.live?_eq_some_iff, find?_plain keeps.sound.represents]
    refine ⟨keeps.stored, ?_⟩
    change entry.live engine.now = true
    simpa [Entry.live] using live
  refine ⟨_, Prod.ext ?_ rfl⟩
  rw [(getWithSnapshot_matches keeps.sound.represents entry.key).result_eq,
    (PlainStore.lookup_of_live found).1]
  rfl

/-- An entry whose time to live has elapsed goes as soon as it is looked up, and counts as
expired. -/
theorem Keeps.exists_getWithSnapshot_of_outlived (keeps : engine.Keeps entry)
    (outlived : entry.outlived engine.now = true) (harmless : entry.value.faulty = false) :
    ∃ after, engine.getWithSnapshot entry.key = (.ok none, after) ∧
      after.store.chain.toList = engine.store.chain.toList.filter (·.key ≠ entry.key) ∧
      after.store.counters =
        { engine.store.counters with
          requests := engine.store.counters.requests + 1
          expirations := engine.store.counters.expirations + 1 } := by
  have stored : engine.plain.store.find? entry.key = some entry :=
    (find?_plain keeps.sound.represents entry.key).trans keeps.stored
  have dead : engine.plain.store.live? entry.key engine.plain.now = none := by
    rw [PlainStore.live?, stored]
    change (some entry).filter (·.live engine.now) = none
    simpa [Entry.live] using outlived
  have same := getWithSnapshot_matches keeps.sound.represents entry.key
  have left := same.plain_eq
  rw [PlainStore.lookup_of_dead dead, PlainStore.missed, stored] at left
  refine ⟨_, Prod.ext ?_ rfl, congrArg (·.store.entries) left, congrArg (·.store.counters) left⟩
  rw [same.result_eq, PlainStore.lookup_of_dead dead, stored,
    disposing_of_harmless (by simpa using harmless)]
  rfl

end Engine

namespace Http

open Json (IsHexDigit SpellsMembers SpellsString quoted spellsString_quoted)

/-! ## Requests -/

/-- The request asks to store the content. -/
structure SetRequest.AskedBy (content : SetRequest) (request : Request) : Prop where
  method_eq : request.method = "PUT"
  path_eq : request.path = "/set"
  promised : (request.header? "content-type").any promisesJson = true
  encoded : content.EncodedBy request.body.toList

/-- The content can be stored. -/
structure SetRequest.Acceptable (content : SetRequest) : Prop where
  encodable : content.Encodable
  filled : 1 ≤ content.key.utf8ByteSize
  short : content.key.utf8ByteSize ≤ 256

/-- The request asks for the value of the key. -/
structure Request.AsksFor (request : Request) (key : Key) : Prop where
  method_eq : request.method = "GET"
  path_eq : ∃ segment, request.path = "/get/" ++ segment ∧
    EncodesSegment key.toList segment.toList

theorem SetRequest.AskedBy.readBody_eq {content : SetRequest} {request : Request}
    (asked : content.AskedBy request) (acceptable : content.Acceptable) :
    request.readBody SetRequest.record = .ok content := by
  obtain ⟨rest, read⟩ := asked.encoded.exists_readStart_eq acceptable.encodable
  rw [Request.readBody, if_pos asked.promised]
  simp only [read]

namespace Server

variable {engine : Engine} {content : SetRequest}

/-- A request to store something that can be stored is answered by storing it. -/
theorem respond_of_asked {request : Request} (asked : content.AskedBy request)
    (acceptable : content.Acceptable) {result : Except Fault Unit} {after : Engine}
    (put : engine.put content.key { text := content.value } content.options = (result, after)) :
    respond request engine =
      (result.map fun _ => .ofDocument 200
        (storedDocument content.key content.lifetimeMillis content.surviveMillis after.store.size),
        after) := by
  have found : Route.ofPath? request.path = some .set :=
    Route.ofPath?_eq_some_iff.mpr ⟨asked.path_eq, by simp [Route.IsProper, Route.names]⟩
  have accepted := SetRequest.objection?_eq_none_iff.mpr ⟨acceptable.filled, acceptable.short⟩
  simp [respond, found, asked.method_eq, Route.method, serve, set, asked.readBody_eq acceptable,
    accepted, put]

/-- A request for a key is answered by looking the key up. -/
theorem respond_of_asks {request : Request} {key : Key} (asks : request.AsksFor key)
    (filled : key ≠ "") {found : Except Fault (Option (String × Snapshot))} {after : Engine}
    (looked : engine.getWithSnapshot key = (found, after)) :
    respond request engine =
      (found.map fun
        | some (text, snapshot) => .ofDocument 200 (foundDocument key text snapshot)
        | none => .ofRefusal (.notFound key),
        after) := by
  obtain ⟨segment, path, encodes⟩ := asks.path_eq
  have proper : (Route.get segment).IsProper := by
    have present := encodes.ne_nil (by simpa using filled)
    simpa [Route.IsProper, Route.names, encodes.slash_notMem] using present
  have route : Route.ofPath? request.path = some (.get segment) :=
    Route.ofPath?_eq_some_iff.mpr ⟨path, proper⟩
  rcases found with fault | missed | ⟨text, snapshot⟩
  all_goals
    simp [respond, route, asks.method_eq, Route.method, serve, get,
      decodeSegment?_of_encodes encodes, looked, Except.map]

end Server

/-! ## Lifetimes -/

namespace SetRequest

/-- The lifetime lasts for longer than `elapsed` nanoseconds. None, and one of zero, lasts for
ever. -/
def Lasts (content : SetRequest) (elapsed : Nat) : Prop :=
  ∀ millis ∈ content.lifetimeMillis, millis ≠ 0 → elapsed < millis * 1000000

/-- What is left of the lifetime, in whole milliseconds. -/
def remainingMillis (content : SetRequest) (elapsed : Nat) : Option Nat :=
  (content.lifetimeMillis.filter (· ≠ 0)).map fun millis => (millis * 1000000 - elapsed) / 1000000

/-- The entry that is stored. -/
def entry (content : SetRequest) (now : Nat) (timeOfDay : Timestamp) : Entry :=
  .create content.key { text := content.value } content.options now timeOfDay

variable {content : SetRequest} {now elapsed : Nat} {timeOfDay : Timestamp}

theorem timeToLive_entry : (content.entry now timeOfDay).timeToLive =
    (content.lifetimeMillis.filter (· ≠ 0)).map Duration.ofMillis := by
  rw [entry, Entry.create, options]
  cases content.lifetimeMillis with
  | none => rfl
  | some millis =>
      by_cases zero : millis = 0
      · subst zero
        rfl
      · have positive : Duration.ofMillis millis ≠ 0 := Nat.mul_ne_zero (by decide) zero
        simp [Option.filter, zero, positive]

theorem outlived_entry_iff :
    (content.entry now timeOfDay).outlived (now + elapsed) = true ↔ ¬content.Lasts elapsed := by
  have age : (content.entry now timeOfDay).age (now + elapsed) = elapsed :=
    Nat.add_sub_cancel_left now elapsed
  rw [Entry.outlived, timeToLive_entry, age, Lasts]
  cases content.lifetimeMillis with
  | none => simp
  | some millis =>
      by_cases zero : millis = 0
      · simp [Option.filter, zero]
      · simp [Option.filter, zero, Duration.ofMillis, Nat.mul_comm]

/-- What is left of the lifetime is told exactly, because it fits a word. -/
theorem remaining_entry (encodable : content.Encodable) (now elapsed : Nat)
    (timeOfDay : Timestamp) :
    ((content.entry now timeOfDay).remaining (now + elapsed)).map Duration.wholeMillis =
      content.remainingMillis elapsed := by
  have age : (content.entry now timeOfDay).age (now + elapsed) = elapsed :=
    Nat.add_sub_cancel_left now elapsed
  rw [Entry.remaining, timeToLive_entry, age, remainingMillis, Option.map_map, Option.map_map]
  refine Option.map_congr ?_
  intro millis given
  have fits := encodable.lifetime_le millis (Option.filter_eq_some_iff.mp given).1
  have small : (millis * 1000000 - elapsed) / 1000000 ≤ largestWord := by omega
  rw [Function.comp_apply, Function.comp_apply, Duration.ofMillis, Nat.mul_comm,
    Duration.wholeMillis, Nat.min_eq_left small]

end SetRequest

/-! ## The round trip -/

/-- The content comes back: the engine stores it on the first request and tells it on the second,
unless its lifetime has elapsed by then. -/
structure SetRequest.ComesBack (content : SetRequest) (timeOfDay : Timestamp) (set get : Request)
    (engine : Engine) : Prop where
  /-- The answer repeats the key and the times that were given. -/
  stored : let (result, after) := Server.respond set engine
    result = .ok (.ofDocument 200 (.object
      ([("key", .text content.key)]
        ++ optionalMember "ttl_ms" content.lifetimeMillis
        ++ optionalMember "survive_ms" content.surviveMillis
        ++ [("size", .natural after.store.size)])))
  /-- What is left of the lifetime is told if there is one. -/
  found : ∀ elapsed, content.Lasts elapsed →
    let later := (Server.respond set engine).2.advance elapsed
    (Server.respond get later).1 = .ok (.ofDocument 200 (.object
      ([("key", .text content.key), ("value", .text content.value), ("hit_count", .natural 1)]
        ++ optionalMember "ttl_remaining_ms" (content.remainingMillis elapsed)
        ++ [("inserted_at", .text timeOfDay.render)])))
  /-- The entry is there until it is asked for, and then it goes and counts as expired. -/
  lost : ∀ elapsed, ¬content.Lasts elapsed →
    let later := (Server.respond set engine).2.advance elapsed
    let (result, after) := Server.respond get later
    result = .ok (.ofDocument 404 (refusalDocument (Refusal.notFound content.key).message)) ∧
      (∃ entry ∈ later.store.chain.toList, entry.key = content.key) ∧
      after.store.chain.toList = later.store.chain.toList.filter (·.key ≠ content.key) ∧
      after.store.counters =
        { later.store.counters with
          requests := later.store.counters.requests + 1
          expirations := later.store.counters.expirations + 1 }

/-- Whatever the engine holds and however the requests are written, what can be stored comes
back. -/
theorem Server.comes_back {engine : Engine} {timeOfDay : Timestamp}
    (ready : engine.Ready timeOfDay) {content : SetRequest} (acceptable : content.Acceptable)
    {set get : Request} (asked : content.AskedBy set) (asks : get.AsksFor content.key) :
    content.ComesBack timeOfDay set get engine := by
  have filled : content.key ≠ "" := by
    intro empty
    have positive := acceptable.filled
    simp [empty] at positive
  obtain ⟨after, put, time, keeps⟩ :=
    ready.exists_put_eq content.key { text := content.value } content.options
  have answered := respond_of_asked asked acceptable put
  -- The insertion takes no time, so what has elapsed since is the age of the entry.
  have kept (elapsed : Nat) : (after.advance elapsed).now = engine.now + elapsed ∧
      (after.advance elapsed).Keeps (content.entry engine.now timeOfDay) :=
    time ▸ keeps.advance elapsed
  constructor
  case stored =>
    rw [answered]
    rfl
  case found =>
    intro elapsed lasts
    obtain ⟨now, kept⟩ := kept elapsed
    have live : (content.entry engine.now timeOfDay).outlived (engine.now + elapsed) = false := by
      simpa using mt SetRequest.outlived_entry_iff.mp (not_not.mpr lasts)
    obtain ⟨_, looked⟩ := kept.exists_getWithSnapshot_of_live (now ▸ live)
    rw [answered]
    simp only [respond_of_asks asks filled looked]
    rw [now, ← SetRequest.remaining_entry acceptable.encodable engine.now elapsed timeOfDay]
    rfl
  case lost =>
    intro elapsed ended
    obtain ⟨now, kept⟩ := kept elapsed
    have outlived : (content.entry engine.now timeOfDay).outlived (engine.now + elapsed) = true :=
      SetRequest.outlived_entry_iff.mpr ended
    obtain ⟨_, looked, gone, counted⟩ :=
      kept.exists_getWithSnapshot_of_outlived (now ▸ outlived) rfl
    rw [answered]
    simp only [respond_of_asks asks filled looked]
    have stored := (Engine.find?_plain kept.sound.represents content.key).trans kept.stored
    exact ⟨rfl, ⟨_, PlainStore.mem_of_find? stored, rfl⟩, gone, counted⟩

/-- A key with a slash and a letter of two bytes comes back. It is written once with escapes of JSON
and once with percent signs, and the members stand in another order than in the answer. -/
theorem Server.comes_back_escaped :
    let content : SetRequest := { key := "é/", value := "v", lifetimeMillis := some 1500 }
    let set : Request :=
      { method := "PUT"
        target := "/set"
        headers := [("content-type", "application/json")]
        body := "\x7b\"value\":\"v\", \"ttl_ms\":1500,\"key\":\"\\u00E9\\/\"\x7d" }
    let get : Request := { method := "GET", target := "/get/%C3%a9%2F" }
    content.Lasts 1499999999 ∧ ¬content.Lasts 1500000000 ∧
      content.ComesBack ⟨1700000000, 0⟩ set get (Engine.create 1 1700000000000000000) := by
  intro content set get
  have encoded : content.EncodedBy set.body.toList := by
    have parts : set.body.toList = '{' :: ((quoted "value").toList ++ ':' ::
        ((quoted "v").toList ++ ',' :: ([' '] ++ ((quoted "ttl_ms").toList ++ ':' ::
          (Nat.toDigits 10 1500 ++ ',' :: ((quoted "key").toList ++ ':' ::
            ['"', '\\', 'u', '0', '0', 'E', '9', '\\', '/', '"', '}'])))))) := by decide
    have perm : ([("value", .text "v"), ("ttl_ms", .integer 1500), ("key", .text "é/")] ++
        [("survive_ms", .absent)] : Json.Members).Perm content.fields := by decide
    have zero : IsHexDigit 0 '0' := ⟨by decide, by decide⟩
    have nine : IsHexDigit 9 '9' := ⟨by decide, by decide⟩
    have fourteen : IsHexDigit 14 'E' := ⟨by decide, by decide⟩
    have key : SpellsString "é/" ['"', '\\', 'u', '0', '0', 'E', '9', '\\', '/', '"', '}'] ['}'] :=
      .quoted (.char (.unit (.digits zero zero fourteen nine)) (.char (.short (by decide)) .close))
    have spells : SpellsMembers true _ _ [] :=
      .member (.first (.refl _)) (spellsString_quoted "value" _) (.refl _) (.refl _)
        (.text (spellsString_quoted "v" _)) <|
      .member (.next (.refl _) (.cons (c := ' ') rfl (.refl _)))
        (spellsString_quoted "ttl_ms" _) (.refl _) (.refl _) (.natural 1500) <|
      .member (.next (.refl _) (.refl _)) (spellsString_quoted "key" _) (.refl _) (.refl _)
        (.text key) <|
      .close (.refl _)
    rw [parts]
    exact .object (.refl _) perm (by decide) spells
  have segment : EncodesSegment "é/".toList "%C3%a9%2F".toList := by
    change EncodesSegment ['é', '/'] (['%', 'C', '3', '%', 'a', '9'] ++ (['%', '2', 'F'] ++ []))
    refine .escaped (.cons ?_ ?_ (.cons ?_ ?_ .nil)) (.escaped (.cons ?_ ?_ .nil) .nil)
    all_goals exact ⟨by decide, by decide⟩
  refine ⟨by simp [SetRequest.Lasts, content], by simp [SetRequest.Lasts, content], ?_⟩
  apply Server.comes_back
  case ready =>
    exact ⟨(Origin.create 1 1700000000000000000).sound, by decide, by decide, by decide, by decide⟩
  case acceptable => exact ⟨⟨by decide, by decide⟩, by decide, by decide⟩
  case asked => exact ⟨rfl, by decide, by decide +kernel, encoded⟩
  case asks => exact ⟨rfl, "%C3%a9%2F", by decide, segment⟩

/-- Before 1970 nothing is stored, although the request is in order and there is room. -/
theorem Server.unstored_before_epoch :
    let content : SetRequest := { key := "a", value := "v" }
    let set : Request :=
      { method := "PUT"
        target := "/set"
        headers := [("content-type", "application/json")]
        body := "\x7b\"key\":\"a\",\"value\":\"v\"\x7d" }
    let engine := Engine.create 1 (-1000000)
    engine.Sound ∧ 0 < engine.store.capacity ∧ ¬engine.Staffed ∧
      engine.store.chain.toList = [] ∧ content.Acceptable ∧ content.AskedBy set ∧
      (Server.respond set engine).1 = .error (.clockTooEarly 1000000) := by
  intro content set engine
  have encoded : content.EncodedBy set.body.toList := by
    have parts : set.body.toList = '{' :: ((quoted "key").toList ++ ':' ::
        ((quoted "a").toList ++ ',' :: ((quoted "value").toList ++ ':' ::
          ((quoted "v").toList ++ ['}'])))) := by decide
    have perm : ([("key", .text "a"), ("value", .text "v")] ++
        [("ttl_ms", .absent), ("survive_ms", .absent)] : Json.Members).Perm content.fields := by
      decide
    have spells : SpellsMembers true _ _ [] :=
      .member (.first (.refl _)) (spellsString_quoted "key" _) (.refl _) (.refl _)
        (.text (spellsString_quoted "a" _)) <|
      .member (.next (.refl _) (.refl _)) (spellsString_quoted "value" _) (.refl _) (.refl _)
        (.text (spellsString_quoted "v" _)) <|
      .close (.refl _)
    rw [parts]
    exact .object (.refl _) perm (by decide) spells
  have asked : content.AskedBy set := ⟨rfl, by decide, by decide +kernel, encoded⟩
  have acceptable : content.Acceptable := ⟨⟨by decide, by decide⟩, by decide, by decide⟩
  have broken : (engine.put content.key { text := content.value } content.options).1 =
      .error (.clockTooEarly 1000000) := by decide +kernel
  refine ⟨(Origin.create 1 (-1000000)).sound, ?_, ?_, ?_, acceptable, asked, ?_⟩
  iterate 3 decide
  rw [Server.respond_of_asked asked acceptable (Prod.ext broken rfl)]
  rfl

end Http

end RecencyCache
