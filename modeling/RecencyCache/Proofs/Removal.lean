import RecencyCache.Proofs.Http.Projection

/-!
# Removal

Removing a key takes out whatever is stored under it and tells whether anything was, while the views
and the lookups know of live entries only. So both say the same unless the entry of the key has
outlived its time without having been collected: nobody sees such an entry any more, but its removal
is still reported.
-/

namespace RecencyCache

/-! ## Plain stores -/

namespace PlainStore

variable {store : PlainStore} {key : Key}

/-- If no key occurs twice, removal disposes of the entry that is found, if there is one. -/
theorem remove_eq (distinct : (store.entries.map (·.key)).Nodup) (key : Key) :
    store.remove key =
      (disposing ((store.find? key).toList.map (·.value)) (store.find? key).isSome,
        { store with entries := store.others key }) := by
  rw [remove, filter_key_eq distinct]
  cases store.find? key <;> rfl

end PlainStore

/-! ## Requests -/

namespace Http.Server

/-- The status with which a request is answered, or the fault that leaves it without an answer. -/
def status (request : Request) (engine : Engine) : Except Fault Nat :=
  (respond request engine).1.map (·.status)

/-- The status of a response to a request for something that is there or not. -/
def presenceStatus (present : Bool) : Nat := if present then 200 else 404

variable {request : Request} {key : Key}

theorem status_of_remove (performs : request.Performs (.remove key)) (engine : Engine) :
    status request engine = (engine.remove key).1.map presenceStatus := by
  obtain ⟨route, found, admitted, onRoute⟩ := Request.performs_iff.mp performs
  cases onRoute with
  | @remove segment _ decoded =>
      have method : request.method = "DELETE" := by
        simpa [Route.Admits, Route.method] using admitted
      simp only [status, respond, found, method, Route.method, serve, delete, decoded]
      cases (engine.remove key).1 with
      | error fault => rfl
      | ok removed => cases removed <;> rfl

theorem status_of_get (performs : request.Performs (.getWithSnapshot key)) (engine : Engine) :
    status request engine =
      (engine.getWithSnapshot key).1.map fun found => presenceStatus found.isSome := by
  obtain ⟨route, found, admitted, onRoute⟩ := Request.performs_iff.mp performs
  cases onRoute with
  | @get segment _ decoded =>
      have method : request.method = "GET" ∨ request.method = "HEAD" := by
        simpa [Route.Admits, Route.method] using admitted
      rcases method with method | method
      all_goals
        simp only [status, respond, found, method, Route.method, serve, get, decoded]
        cases (engine.getWithSnapshot key).1 with
        | error fault => rfl
        | ok found => cases found <;> rfl

end Http.Server

/-! ## Engines -/

/-- What removing the key does, where `seen` tells whether the key is seen and `stored` whether an
entry of the key is stored. -/
structure Engine.RemovesStored (engine : Engine) (key : Key) (seen stored : Bool) : Prop where
  contains : Query.ask (.contains key) engine = .flag seen
  stored_iff : stored = true ↔ ∃ entry ∈ engine.store.chain.toList, entry.key = key
  /-- The two differ while a dead entry of the key has not been collected, and only then. -/
  differ_iff : seen ≠ stored ↔
    ∃ entry ∈ engine.store.chain.toList, entry.key = key ∧ entry.outlived engine.now = true
  /-- Removal tells whether an entry is stored, and so does the answer to a request for it. A request
  that gets the key instead tells whether it is seen. -/
  harmless : (∀ entry ∈ engine.store.chain.toList, entry.key = key → entry.value.faulty = false) →
    (Call.run (.remove key) engine).1 = .flag stored ∧
      (∀ request : Http.Request, request.Performs (.remove key) →
        Http.Server.status request engine = .ok (Http.Server.presenceStatus stored)) ∧
      ∀ request : Http.Request, request.Performs (.getWithSnapshot key) →
        Http.Server.status request engine = .ok (Http.Server.presenceStatus seen)
  /-- Removal is broken off if it disposes of a faulty value. -/
  faulty : (∃ entry ∈ engine.store.chain.toList, entry.key = key ∧ entry.value.faulty = true) →
    (Call.run (.remove key) engine).1 = .broken .disposal ∧
      ∀ request : Http.Request, request.Performs (.remove key) →
        Http.Server.status request engine = .error .disposal
  /-- The entry of the key is gone in any case, and nothing else has changed. -/
  left : let after := (Call.run (.remove key) engine).2
    after.plain = { engine.plain with store := { engine.plain.store with
      entries := engine.store.chain.toList.filter (·.key ≠ key) } } ∧
    Query.ask (.contains key) after = .flag false ∧
      (Call.run (.remove key) after).1 = .flag false

namespace Engine

variable {engine : Engine} {key : Key}

theorem remove_matches (sound : engine.Sound) (key : Key) :
    Matches (engine.remove key)
      (disposing ((engine.store.chain.find? key).toList.map (·.value))
          (engine.store.chain.find? key).isSome,
        { engine.plain with store := { engine.plain.store with
          entries := engine.plain.store.others key } }) := by
  have removal : engine.store.plain.remove key = _ :=
    PlainStore.remove_eq (nodup_keys_plain sound.represents) key
  have same := engine.adopt_matches (Store.remove_refines sound.represents key)
  rw [removal] at same
  rw [← find?_plain sound.represents]
  exact same

/-- A lookup finds the live entry of a key, unless it is broken off by a dead one. -/
theorem isSome_getWithSnapshot (sound : engine.Sound)
    (harmless : ∀ entry, engine.store.chain.find? key = some entry → entry.value.faulty = false) :
    (engine.getWithSnapshot key).1.map (·.isSome) =
      .ok (engine.store.live? key engine.now).isSome := by
  rw [(getWithSnapshot_matches sound.represents key).result_eq, ← live?_plain sound.represents]
  cases live : engine.plain.store.live? key engine.plain.now with
  | some entry =>
      rw [(PlainStore.lookup_of_live live).1]
      rfl
  | none =>
      rw [PlainStore.lookup_of_dead live, find?_plain sound.represents,
        disposing_of_harmless (by simpa using harmless)]
      rfl

/-- Nothing is removed where nothing is stored. -/
theorem run_remove_of_absent (sound : engine.Sound)
    (absent : engine.store.chain.find? key = none) :
    Query.ask (.contains key) engine = .flag false ∧
      (Call.run (.remove key) engine).1 = .flag false := by
  constructor
  · rw [Query.ask, live?_of_absent absent]
    rfl
  · change Reply.ofResult .flag (engine.remove key).1 = _
    rw [(remove_matches sound key).result_eq, absent]
    rfl

/-- A sound engine removes what is stored. -/
theorem Sound.removesStored (sound : engine.Sound) (key : Key) :
    engine.RemovesStored key (engine.store.live? key engine.now).isSome
      (engine.store.chain.find? key).isSome := by
  have same := remove_matches sound key
  have stored : ∀ entry, engine.store.chain.find? key = some entry ↔
      entry ∈ engine.store.chain.toList ∧ entry.key = key :=
    fun entry => Chain.Sound.find?_eq_some_iff sound.represents
  constructor
  case contains => rw [Query.ask]
  case stored_iff => simp only [Option.isSome_iff_exists, stored]
  case differ_iff =>
    rw [Store.live?]
    cases found : engine.store.chain.find? key with
    | none =>
        simp only [Option.filter_none, ne_eq, not_true_eq_false, false_iff]
        rintro ⟨entry, member, sameKey, -⟩
        cases found.symm.trans ((stored entry).mpr ⟨member, sameKey⟩)
    | some entry =>
        have only : (∃ other ∈ engine.store.chain.toList,
            other.key = key ∧ other.outlived engine.now = true) ↔
              entry.outlived engine.now = true := by
          simp only [← and_assoc, ← stored, found, Option.some.injEq, exists_eq_left']
        rw [only, Option.filter_some, Entry.live]
        cases entry.outlived engine.now <;> simp
  case harmless =>
    intro harmless
    have harmless : ∀ entry, engine.store.chain.find? key = some entry →
        entry.value.faulty = false :=
      fun entry found => harmless entry ((stored entry).mp found).1 ((stored entry).mp found).2
    have removed : (engine.remove key).1 = .ok (engine.store.chain.find? key).isSome := by
      rw [same.result_eq, disposing_of_harmless (by simpa using harmless)]
    refine ⟨congrArg (Reply.ofResult .flag) removed, ?_, ?_⟩
    · intro request performs
      rw [Http.Server.status_of_remove performs, removed]
      rfl
    · intro request performs
      have found := isSome_getWithSnapshot sound harmless
      rw [Http.Server.status_of_get performs]
      cases looked : (engine.getWithSnapshot key).1 with
      | error fault => simp [looked, Except.map] at found
      | ok answer =>
          rw [looked] at found
          simp only [Except.map, Except.ok.injEq] at found ⊢
          rw [found]
  case faulty =>
    rintro ⟨entry, member, sameKey, faulty⟩
    have broken : (engine.remove key).1 = .error .disposal := by
      rw [same.result_eq, (stored entry).mpr ⟨member, sameKey⟩, disposing, if_pos]
      simpa using faulty
    refine ⟨congrArg (Reply.ofResult .flag) broken, ?_⟩
    intro request performs
    rw [Http.Server.status_of_remove performs, broken]
    rfl
  case left =>
    intro after
    have left : after.plain = { engine.plain with store := { engine.plain.store with
        entries := engine.plain.store.others key } } := same.plain_eq
    have absent : after.store.chain.find? key = none := by
      have sound : after.store.chain.Sound := same.1
      rw [← find?_plain sound, left, PlainStore.find?_eq_none_iff]
      exact fun entry member => (PlainStore.mem_others_iff.mp member).2
    exact ⟨left, run_remove_of_absent (sound.run (.remove key)).1 absent⟩

end Engine

/-- Whatever has happened to an engine, removing a key takes out what is stored and tells whether
anything was. This is what the views and the requests tell of the key, unless its entry is dead. -/
theorem Origin.removes_stored (origin : Origin) {past : List Event} {engine : Engine}
    (path : Path origin.engine past engine) (key : Key) :
    ∃ seen stored, engine.RemovesStored key seen stored :=
  ⟨_, _, (origin.sound.of_path path).removesStored key⟩

/-- An entry that has reached its time to live is not seen, but it is still stored. -/
theorem Origin.removes_stored_dead_entry :
    let origin := Origin.create 1 0
    let calls := [Call.put "a" ⟨"1", false⟩ { timeToLive := some 5 }, .advance 5]
    let engine := (Call.runAll calls origin.engine).2
    (∀ entry ∈ engine.store.chain.toList, entry.key = "a" → entry.value.faulty = false) ∧
      engine.RemovesStored "a" false true := by
  intro origin calls engine
  have path : Path origin.engine _ engine := Call.path_traceAll calls origin.engine
  obtain ⟨seen, stored, removes⟩ := origin.removes_stored path "a"
  have unseen : (engine.store.live? "a" engine.now).isSome = false := by decide +kernel
  have kept : ∃ entry ∈ engine.store.chain.toList, entry.key = "a" := by decide +kernel
  obtain rfl : seen = false := by
    rw [← unseen]
    exact (Finding.flag.inj removes.contains).symm
  obtain rfl : stored = true := removes.stored_iff.mpr kept
  exact ⟨by decide +kernel, removes⟩

/-- What is not contained any more is still removed. -/
theorem Origin.removed_though_unseen :
    let origin := Origin.create 1 0
    let calls := [Call.put "a" ⟨"1", false⟩ { timeToLive := some 5 }, .advance 5]
    let engine := (Call.runAll calls origin.engine).2
    ¬((Call.run (.remove "a") engine).1 = .flag true ↔
      Query.ask (.contains "a") engine = .flag true) := by
  intro origin calls engine same
  have removed : (engine.remove "a").1 = .ok true := by decide +kernel
  have unseen : (engine.store.live? "a" engine.now).isSome = false := by decide +kernel
  have seen := same.mp (congrArg (Reply.ofResult .flag) removed)
  rw [Query.ask, unseen] at seen
  cases seen

end RecencyCache
