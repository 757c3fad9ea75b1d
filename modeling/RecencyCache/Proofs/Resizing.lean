import RecencyCache.Proofs.Soundness
import Mathlib.Data.List.Induction

/-!
# Changes of the capacity

A smaller capacity keeps the most recent entries that fit and counts the others as evicted. How it is
reached does not matter: step by step or at once, the same is left. A larger capacity makes room, but
brings back nothing that is gone.
-/

namespace RecencyCache

/-! ## Plain stores -/

namespace PlainStore

/-- What several changes of the capacity leave, made one after the other. -/
def resized (capacities : List Nat) (store : PlainStore) : PlainStore :=
  capacities.foldl (fun store capacity => (store.setCapacity capacity).2) store

variable {store : PlainStore} {capacity : Nat}

/-- The most recent entries stay, as many as there are and fit, and the others count as evicted. -/
theorem setCapacity_eq (store : PlainStore) (capacity : Nat) :
    let kept := min store.entries.length capacity
    (store.setCapacity capacity).2 =
      { store with
        entries := store.entries.take kept
        capacity
        counters := store.counters.evicted (store.entries.length - kept) } := by
  intro kept
  have entries : store.entries.take capacity = store.entries.take kept := by
    rw [List.take_eq_take_min, Nat.min_comm]
  have evicted : (store.entries.drop capacity).length = store.entries.length - kept := by
    rw [List.length_drop]
    omega
  rw [setCapacity, entries, evicted]

/-- Two changes of the capacity come to the second one alone, unless it allows for more. -/
theorem setCapacity_setCapacity (store : PlainStore) {wider narrower : Nat}
    (shrinks : narrower ≤ wider) :
    ((store.setCapacity wider).2.setCapacity narrower).2 = (store.setCapacity narrower).2 := by
  have kept : (store.entries.take wider).take narrower = store.entries.take narrower := by
    rw [List.take_take, Nat.min_eq_left shrinks]
  have evicted : (store.entries.drop wider).length +
      ((store.entries.take wider).drop narrower).length =
        (store.entries.drop narrower).length := by
    simp only [List.length_drop, List.length_take]
    omega
  simp only [setCapacity, kept, Counters.evicted, Nat.add_assoc, evicted]

/-- If none of them allows for more than the one before, several changes come to the last one
alone. -/
theorem resized_of_shrinking {capacities : List Nat} {last : Nat}
    (shrinking : (capacities ++ [last]).Pairwise (· ≥ ·)) (store : PlainStore) :
    resized (capacities ++ [last]) store = (store.setCapacity last).2 := by
  induction capacities generalizing store with
  | nil => rfl
  | cons capacity capacities ih =>
      obtain ⟨narrower, shrinking⟩ := List.pairwise_cons.mp shrinking
      rw [List.cons_append, resized, List.foldl_cons, ← resized, ih shrinking]
      exact store.setCapacity_setCapacity (narrower last (by simp))

/-- What several changes leave has fitted each time. -/
theorem entries_resized (capacities : List Nat) (store : PlainStore) :
    (resized capacities store).entries =
      store.entries.take (capacities.foldl min store.entries.length) := by
  induction capacities using List.reverseRecOn with
  | nil => exact (List.take_length ..).symm
  | append_singleton capacities capacity ih =>
      rw [resized, List.foldl_concat, ← resized, setCapacity, ih, List.take_take, List.foldl_concat,
        Nat.min_comm]

end PlainStore

/-! ## Engines -/

/-- What changes of the capacity do to an engine. -/
structure Engine.KeepsRecent (engine : Engine) : Prop where
  /-- The most recent entries that fit stay as they are, the others count as evicted, and nothing else
  changes, whether or not the call is broken off. -/
  left : ∀ capacity : Nat, let kept := min engine.store.size capacity
    (Call.run (.setCapacity (.ofNat capacity)) engine).2.plain =
      { engine.plain with store := { engine.plain.store with
        entries := engine.store.chain.toList.take kept
        capacity
        counters := engine.store.counters.evicted (engine.store.size - kept) } }
  /-- The call is broken off if and only if it disposes of a faulty value. -/
  reply : ∀ capacity : Nat, (Call.run (.setCapacity (.ofNat capacity)) engine).1 =
    if (engine.store.chain.toList.drop capacity).any (·.value.faulty) then .broken .disposal
    else .done
  /-- A negative capacity is refused and changes nothing. -/
  refused : ∀ capacity < 0, Call.run (.setCapacity capacity) engine =
    (.refused (.invalidCapacity capacity), engine)
  /-- Capacities that do not grow leave the same, set one after the other, as the last one alone. -/
  steps : ∀ capacities last, (capacities ++ [last]).Pairwise (· ≥ ·) →
    (Call.runAll ((capacities ++ [last]).map (Call.setCapacity <| .ofNat ·)) engine).2.plain =
      (Call.run (.setCapacity (.ofNat last)) engine).2.plain
  /-- Whatever the capacities are, what is left has fitted each of them. -/
  unrevived : ∀ capacities : List Nat,
    (Call.runAll (capacities.map (Call.setCapacity <| .ofNat ·)) engine).2.store.chain.toList =
      engine.store.chain.toList.take (capacities.foldl min engine.store.size)

namespace Engine

variable {engine : Engine}

theorem setCapacity_matches (sound : engine.Sound) (capacity : Nat) :
    Matches (Call.run (.setCapacity (.ofNat capacity)) engine)
      (engine.plain.conclude (fun _ => .done) (engine.plain.store.setCapacity capacity)) :=
  act_matches sound.represents (.setCapacity (.ofNat capacity))

/-- Several changes of the capacity are made on the plain store. -/
theorem plain_of_resized (sound : engine.Sound) (capacities : List Nat) :
    (Call.runAll (capacities.map (Call.setCapacity <| .ofNat ·)) engine).2.plain =
      { engine.plain with store := engine.plain.store.resized capacities } := by
  induction capacities generalizing engine with
  | nil => rfl
  | cons capacity capacities ih =>
      have resized : (Call.run (.setCapacity (.ofNat capacity)) engine).2.Sound :=
        (sound.run (.setCapacity (.ofNat capacity))).1
      rw [List.map_cons, Call.runAll]
      exact (ih resized).trans (by rw [(setCapacity_matches sound capacity).plain_eq]; rfl)

/-- A sound engine keeps the most recent entries. -/
theorem Sound.keepsRecent (sound : engine.Sound) : engine.KeepsRecent := by
  have size : engine.store.chain.toList.length = engine.store.size := size_plain sound.represents
  constructor
  case left =>
    intro capacity kept
    have resized := engine.plain.store.setCapacity_eq capacity
    rw [(setCapacity_matches sound capacity).plain_eq, PlainEngine.conclude, resized]
    simp only [size_plain sound.represents]
    rfl
  case reply =>
    intro capacity
    rw [(setCapacity_matches sound capacity).result_eq, PlainEngine.conclude, PlainStore.setCapacity,
      PlainEngine.ofResult_disposing, List.any_map]
    rfl
  case refused =>
    intro capacity negative
    cases capacity with
    | ofNat capacity => exact absurd negative (Int.not_lt.mpr (Int.natCast_nonneg capacity))
    | negSucc capacity => rfl
  case steps =>
    intro capacities last shrinking
    rw [plain_of_resized sound, PlainStore.resized_of_shrinking shrinking,
      (setCapacity_matches sound last).plain_eq]
    rfl
  case unrevived =>
    intro capacities
    rw [← size]
    have left := congrArg (·.store.entries) (plain_of_resized sound capacities)
    exact left.trans (PlainStore.entries_resized capacities engine.plain.store)

end Engine

/-- Whatever has happened to an engine, a change of the capacity keeps the most recent entries. -/
theorem Origin.keeps_recent (origin : Origin) {past : List Event} {engine : Engine}
    (path : Path origin.engine past engine) : engine.KeepsRecent :=
  (origin.sound.of_path path).keepsRecent

/-- Of three entries, one of them dead, two remain and then one, which is also the only one after
there is room for three again. -/
theorem Origin.keeps_recent_shrinking :
    let origin := Origin.create 3 0
    let calls := [Call.put "a" ⟨"1", false⟩ {}, .put "b" ⟨"2", false⟩ { timeToLive := some 5 },
      .put "c" ⟨"3", false⟩ {}, .advance 5, .get "a"]
    let engine := (Call.runAll calls origin.engine).2
    let resize (capacities : List Nat) :=
      (Call.runAll (capacities.map (Call.setCapacity <| .ofNat ·)) engine).2
    engine.store.chain.toList.map (·.key) = ["a", "c", "b"] ∧
      (resize [3, 2, 1]).plain = (Call.run (.setCapacity (.ofNat 1)) engine).2.plain ∧
      (resize [2, 1, 3]).store.chain.toList.map (·.key) = ["a"] ∧ engine.KeepsRecent := by
  intro origin calls engine resize
  have path : Path origin.engine _ engine := Call.path_traceAll calls origin.engine
  have keeps := origin.keeps_recent path
  exact ⟨by decide +kernel, keeps.steps [3, 2] 1 (by decide), by decide +kernel, keeps⟩

/-- The call does not succeed if a value that no longer fits is faulty. -/
theorem Origin.resize_broken_by_faulty_value :
    let origin := Origin.create 1 0
    let engine := (Call.runAll [.put "a" ⟨"1", true⟩ {}] origin.engine).2
    (Call.run (.setCapacity 0) engine).1 ≠ .done := by
  intro origin engine done
  have sound : engine.Sound := origin.sound.of_path (Call.path_traceAll _ _)
  have faulty : (engine.store.chain.toList.drop 0).any (·.value.faulty) = true := by decide +kernel
  have broken := sound.keepsRecent.reply 0
  rw [if_pos faulty] at broken
  cases broken.symm.trans done

end RecencyCache
