import RecencyCache.Proofs.LastAccess
import RecencyCache.Proofs.SurviveTime

/-!
# Expiry

Whenever a sweep is made, and in whatever order, it takes out exactly the entries that are overdue at
the moment. An entry is overdue by its time to live from the event that stored it on, or by its survive
time from its last access on. All others stay as they are, in their order, so a second sweep has
nothing to do, and a longer default takes out no more.
-/

namespace RecencyCache

/-- With a longer default, or none, an entry is overdue only if it is overdue anyway. -/
theorem Entry.Overdue.of_longer {entry : Entry} {now : Nat} {default longer : Option Nat}
    (overdue : entry.Overdue now longer)
    (lenient : ∀ limit ∈ longer, ∃ shorter ∈ default, shorter ≤ limit) :
    entry.Overdue now default := by
  rcases overdue with outlived | ⟨limit, chosen, exceeded⟩
  · exact .inl outlived
  · right
    cases own : entry.surviveTime with
    | some survive =>
        rw [own] at chosen
        exact ⟨limit, chosen, exceeded⟩
    | none =>
        rw [own] at chosen
        obtain ⟨shorter, given, le⟩ := lenient limit chosen
        exact ⟨shorter, given, by omega⟩

namespace Engine

/-- The entries that are overdue by this default, from the most to the least recently used. -/
def overdue (engine : Engine) (default : Option Nat) : List Entry :=
  engine.store.chain.toList.filter (·.Overdue engine.now default)

/-- What is to be seen of the engine without its overdue entries, which count as expired. -/
def withoutOverdue (engine : Engine) (default : Option Nat) : PlainEngine :=
  { engine.plain with store := { engine.plain.store with
    entries := engine.store.chain.toList.filter (¬·.Overdue engine.now default)
    counters := engine.store.counters.expired (engine.overdue default).length } }

/-- What a sweep of an engine with this past takes out. -/
structure SweepsOverdue (engine : Engine) (past : List Event) : Prop where
  /-- An entry has the time of the event that stored it, and that of its last access. -/
  dated : engine.Dated past
  /-- In whatever order a purge takes the entries out, it tells their number, unless a value that it
  disposes of is faulty. The overdue entries are gone, and nothing is left for another purge. -/
  purged : ∀ default slots, engine.store.Dooms engine.now default slots →
    let done := engine.purgeSlots slots
    done.1 = (if (engine.overdue default).any (·.value.faulty) then .error .disposal
      else .ok (engine.overdue default).length) ∧
    done.2.plain = engine.withoutOverdue default ∧
    ∀ again, done.2.store.Dooms engine.now default again →
      done.2.purgeSlots again = (.ok 0, done.2)
  /-- A purge takes the entries out in some order. So does a pass of a sweeper, by the default that
  has been set, and leaves the same. -/
  ordered : (∀ default, ∃ slots, engine.store.Dooms engine.now default slots ∧
      engine.purge default = engine.purgeSlots slots) ∧
    ∃ slots, engine.store.Dooms engine.now engine.control.surviveTime slots ∧
      engine.sweepPass = (engine.purgeSlots slots).2
  /-- In whatever order the sweeps of a program take the entries out, its steps are the same, and so is
  what is to be seen of the engine that it leaves. -/
  unordered : ∀ calls done, Call.ComesAll calls engine done →
    done.1 = (Call.runAll calls engine).1 ∧ done.2.plain = (Call.runAll calls engine).2.plain
  /-- A longer default, or none, takes out no more. -/
  lenient : ∀ default longer, (∀ limit ∈ longer, ∃ shorter ∈ default, shorter ≤ limit) →
    (engine.overdue longer).Sublist (engine.overdue default)

variable {engine : Engine} {default : Option Nat} {slots : List Nat}

/-- The plain sweep takes out what is overdue. -/
theorem sweep_plain (lasting : engine.Lasting) (default : Option Nat) :
    engine.plain.store.sweep engine.now default =
      (disposing ((engine.overdue default).map (·.value)) (engine.overdue default).length,
        (engine.withoutOverdue default).store) := by
  have same : ∀ entry ∈ engine.store.chain.toList,
      entry.expired engine.now default = decide (entry.Overdue engine.now default) := by
    intro entry member
    rw [← decide_eq_decide.mpr (Entry.expired_iff_overdue (lasting entry member)), Bool.decide_coe]
  have gone : engine.plain.store.entries.filter (·.expired engine.now default) =
      engine.overdue default := List.filter_congr same
  have kept : engine.plain.store.entries.filter (!·.expired engine.now default) =
      (engine.withoutOverdue default).store.entries := by
    refine List.filter_congr fun entry member => ?_
    rw [same entry member, decide_not]
  rw [PlainStore.sweep, gone, kept]
  rfl

/-- After a sweep nothing is doomed any more. -/
theorem eq_nil_of_dooms {after : Engine} (lasting : engine.Lasting)
    (sound : after.store.chain.Sound) (left : after.plain = engine.withoutOverdue default)
    (dooms : after.store.Dooms engine.now default slots) : slots = [] := by
  have kept : after.store.chain.toList =
      engine.store.chain.toList.filter (¬·.Overdue engine.now default) :=
    congrArg (·.store.entries) left
  apply List.eq_nil_iff_forall_not_mem.mpr
  intro slot member
  obtain ⟨entry, found, expired⟩ := sound.mem_slotsWhere_iff.mp (dooms.mem_iff.mp member)
  have listed := sound.mem_toList_iff.mpr ⟨slot, found⟩
  rw [kept] at listed
  obtain ⟨stored, spared⟩ := List.mem_filter.mp listed
  exact of_decide_eq_true spared ((Entry.expired_iff_overdue (lasting entry stored)).mp expired)

/-- A sound engine is swept of its overdue entries. -/
theorem Sound.sweepsOverdue (sound : engine.Sound) (lasting : engine.Lasting) {past : List Event}
    (dated : engine.Dated past) : engine.SweepsOverdue past := by
  constructor
  case dated => exact dated
  case purged =>
    intro default slots dooms done
    have same := purgeSlots_matches sound.represents dooms
    rw [sweep_plain lasting] at same
    have left : done.2.plain = engine.withoutOverdue default := same.plain_eq
    refine ⟨?_, left, ?_⟩
    · exact same.result_eq.trans (by rw [disposing, List.any_map]; rfl)
    · intro again doomsAgain
      rw [eq_nil_of_dooms lasting same.1 left doomsAgain]
      rfl
  case ordered => exact ⟨engine.exists_purge_eq, engine.exists_sweepPass_eq⟩
  case unordered =>
    intro calls done comes
    have same := comes.matches sound.represents
    have ran := runAll_matches sound.represents calls
    exact ⟨same.result_eq.trans ran.result_eq.symm, same.plain_eq.trans ran.plain_eq.symm⟩
  case lenient =>
    intro default longer lenient
    apply List.monotone_filter_right
    intro entry overdue
    simpa using Entry.Overdue.of_longer (by simpa using overdue) lenient

end Engine

/-- Whatever has happened to an engine, a sweep takes out exactly the entries that are overdue. A path
may end with time that passes, so this goes for any moment. -/
theorem Origin.sweeps_overdue (origin : Origin) {past : List Event} {engine : Engine}
    (path : Path origin.engine past engine) : engine.SweepsOverdue past := by
  have lasting : origin.engine.Lasting := by
    intro entry member
    simp [origin.toList_eq_nil] at member
  have dated := origin.dated.of_path origin.sound path
  rw [List.nil_append] at dated
  exact (origin.sound.of_path path).sweepsOverdue (lasting.of_path origin.sound path) dated

/-- One entry has reached its time to live, one was last hit six nanoseconds ago in a way that counts,
and one has a survive time of its own. -/
theorem Origin.sweeps_overdue_uncounted_hit :
    let origin := Origin.create 3 0
    let calls := [Call.put "a" ⟨"1", false⟩ { timeToLive := some 9 }, .put "b" ⟨"2", false⟩ {},
      .put "c" ⟨"3", false⟩ { surviveTime := some 20 }, .advance 3, .get "b",
      .setRefreshOnHit false, .advance 1, .get "b", .advance 5]
    let engine := (Call.runAll calls origin.engine).2
    (engine.overdue (some 5)).map (·.key) = ["b", "a"] ∧
      (engine.overdue (some 6)).map (·.key) = ["a"] ∧
      (engine.purge (some 5)).1 = .ok 2 ∧
      engine.SweepsOverdue (Call.traceAll calls origin.engine) := by
  intro origin calls engine
  have path : Path origin.engine (Call.traceAll calls origin.engine) engine :=
    Call.path_traceAll calls origin.engine
  exact ⟨by decide +kernel, by decide +kernel, by decide +kernel, origin.sweeps_overdue path⟩

/-- A purge that takes out one entry does not tell so if the value is faulty. -/
theorem Origin.purge_broken_by_faulty_value :
    let origin := Origin.create 1 0
    let calls := [Call.put "a" ⟨"1", true⟩ { timeToLive := some 5 }, .advance 5]
    let engine := (Call.runAll calls origin.engine).2
    (engine.overdue none).length = 1 ∧ (Call.run (.purge none) engine).1 ≠ .count 1 := by
  intro origin calls engine
  have broken : (engine.purge none).1 = .error .disposal := by decide +kernel
  refine ⟨by decide +kernel, ?_⟩
  change Reply.ofResult .count (engine.purge none).1 ≠ _
  rw [broken]
  simp [Reply.ofResult]

end RecencyCache
