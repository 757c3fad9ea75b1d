import RecencyCache.Proofs.Sweeping
import Mathlib.Algebra.BigOperators.Group.List.Basic
import Mathlib.Algebra.GroupWithZero.Nat
import Mathlib.Algebra.Order.Group.Nat

/-!
# Passing of time

While time passes, those who are due wake one after the other, and of several who are due at the
same time any may be the next. Whatever the order, the same is left, because only one of them sweeps.
As nobody sleeps for no time at all, only so many wake up to a given time, and it does not matter
whether time passes at once or in parts.
-/

namespace RecencyCache

namespace Sleeper

/-- How often the sleeper wakes up to `target`: once per interval if it is the current one, and at
most once if it is not. -/
def wakingsUntil (control : SweepControl) (target : Nat) (sleeper : Sleeper) : Nat :=
  if target < sleeper.wakeAt then 0
  else if control.isCurrent sleeper.generation then
    (target - sleeper.wakeAt) / sleeper.interval + 1
  else 1

/-- What is left of the sleeper after it has woken. -/
def rearmed (control : SweepControl) (sleeper : Sleeper) : List Sleeper :=
  if control.isCurrent sleeper.generation then [sleeper.renewed] else []

/-- What is left of a store after the sleeper has woken. -/
def swept (control : SweepControl) (store : Store) (sleeper : Sleeper) : Store :=
  if control.isCurrent sleeper.generation then
    ((store.sweep sleeper.wakeAt control.surviveTime).map (·.store)).getD store
  else store

variable {control : SweepControl} {sleeper : Sleeper} {target : Nat}

/-- With each waking the sleeper has one less to come. -/
theorem wakingsUntil_of_due (due : sleeper.wakeAt ≤ target) :
    sleeper.wakingsUntil control target =
      ((sleeper.rearmed control).map (·.wakingsUntil control target)).sum + 1 := by
  have positive := sleeper.interval_pos
  have early : ¬target < sleeper.wakeAt := Nat.not_lt.mpr due
  rw [wakingsUntil, if_neg early, rearmed]
  by_cases current : control.isCurrent sleeper.generation = true
  · have again : sleeper.renewed.wakingsUntil control target =
        (target - sleeper.wakeAt) / sleeper.interval := by
      have next : sleeper.renewed.wakeAt = sleeper.wakeAt + sleeper.interval := rfl
      have period : sleeper.renewed.interval = sleeper.interval := rfl
      rw [wakingsUntil, next, period]
      split
      · exact (Nat.div_eq_of_lt (by omega)).symm
      · have longer : sleeper.interval ≤ target - sleeper.wakeAt := by omega
        rw [if_pos (show control.isCurrent sleeper.renewed.generation = true from current),
          Nat.div_eq_sub_div positive longer, Nat.sub_sub]
    rw [if_pos current, if_pos current, List.map_singleton, List.sum_singleton, again]
  · rw [if_neg current, if_neg current]
    rfl

/-- Nobody wakes earlier again than the time of its waking. -/
theorem wakeAt_le_of_mem_rearmed {other : Sleeper} (member : other ∈ sleeper.rearmed control) :
    sleeper.wakeAt ≤ other.wakeAt := by
  rw [rearmed] at member
  split at member
  · rw [List.mem_singleton.mp member]
    exact Nat.le_add_right _ _
  · cases member

end Sleeper

namespace Engine

variable {engine between other last : Engine} {sleeper : Sleeper} {before after : List Sleeper}
  {target : Nat}

/-! ## Waking -/

/-- How often somebody wakes up to `target`. -/
def wakingsUntil (engine : Engine) (target : Nat) : Nat :=
  (engine.sleepers.map (·.wakingsUntil engine.control target)).sum

/-- Waking changes the store, the clock and the sleeper that wakes. -/
theorem wake_eq (engine : Engine) (before : List Sleeper) (sleeper : Sleeper)
    (after : List Sleeper) :
    engine.wake before sleeper after =
      { engine with
        store := sleeper.swept engine.control engine.store
        sleepers := before ++ sleeper.rearmed engine.control ++ after
        now := sleeper.wakeAt } := by
  rw [wake, Sleeper.swept, Sleeper.rearmed]
  by_cases current : engine.control.isCurrent sleeper.generation = true
  · simp only [if_pos current, sweepPass]
    cases engine.store.sweep sleeper.wakeAt engine.control.surviveTime <;> simp
  · simp only [if_neg current, List.append_nil]

/-- One of those who are due first, and by `target`, wakes. -/
inductive Wakes (target : Nat) (engine : Engine) (sleeper : Sleeper) : Engine → Prop where
  | intro {before after : List Sleeper} : engine.sleepers = before ++ sleeper :: after →
      (∀ other ∈ engine.sleepers, sleeper.wakeAt ≤ other.wakeAt) → sleeper.wakeAt ≤ target →
      Wakes target engine sleeper (engine.wake before sleeper after)

theorem exists_wakes (asleep : sleeper ∈ engine.sleepers)
    (first : ∀ other ∈ engine.sleepers, sleeper.wakeAt ≤ other.wakeAt)
    (due : sleeper.wakeAt ≤ target) : ∃ next, Wakes target engine sleeper next := by
  obtain ⟨before, after, whole⟩ := List.append_of_mem asleep
  exact ⟨_, .intro whole first due⟩

theorem wakes_of_splitEarliest?
    (split : Sleeper.splitEarliest? engine.sleepers = some (before, sleeper, after))
    (due : sleeper.wakeAt ≤ target) :
    Wakes target engine sleeper (engine.wake before sleeper after) :=
  .intro (Sleeper.eq_append_of_splitEarliest? split) (Sleeper.wakeAt_le_of_splitEarliest? split) due

/-- Each waking is one less to come. -/
theorem Wakes.wakingsUntil_eq (wakes : Wakes target engine sleeper between) :
    engine.wakingsUntil target = between.wakingsUntil target + 1 := by
  cases wakes with
  | intro whole first due =>
      rw [wakingsUntil, wakingsUntil, wake_eq, whole]
      simp only [List.map_append, List.map_cons, List.sum_append, List.sum_cons,
        Sleeper.wakingsUntil_of_due due]
      omega

theorem Wakes.control_eq (wakes : Wakes target engine sleeper between) :
    between.control = engine.control := by
  cases wakes with
  | intro => rw [wake_eq]

/-- Waking keeps the sleepers numbered. -/
theorem Wakes.numbered (wakes : Wakes target engine sleeper between) (numbered : engine.Numbered) :
    between.Numbered := by
  refine numbered.of_sublist wakes.control_eq ?_
  cases wakes with
  | intro whole first due =>
      rw [wake_eq, whole, Sleeper.rearmed]
      split
      · have again : sleeper.renewed.generation = sleeper.generation := rfl
        simp [again]
      · rw [List.append_nil]
        exact ((List.sublist_cons_self _ _).append_left _).map _

/-! ## Ties -/

/-- Of two sleepers at most one sweeps, so the store does not depend on who wakes first. -/
theorem swept_comm {one two : Sleeper} (control : SweepControl) (store : Store)
    (differ : one.generation ≠ two.generation) :
    two.swept control (one.swept control store) = one.swept control (two.swept control store) := by
  have idle : (∀ store, one.swept control store = store) ∨
      ∀ store, two.swept control store = store := by
    by_cases current : control.isCurrent one.generation = true
    · have present := (SweepControl.isCurrent_iff.mp current).2
      have outdated : ¬control.isCurrent two.generation = true := fun currentTwo =>
        differ (present.symm.trans (SweepControl.isCurrent_iff.mp currentTwo).2)
      exact .inr fun store => if_neg outdated
    · exact .inl fun store => if_neg current
  rcases idle with idle | idle <;> simp only [idle]

theorem wakes_of_eq (whole : engine.sleepers = before ++ sleeper :: after)
    (first : ∀ other ∈ engine.sleepers, sleeper.wakeAt ≤ other.wakeAt)
    (due : sleeper.wakeAt ≤ target)
    (left : last =
      { engine with
        store := sleeper.swept engine.control engine.store
        sleepers := before ++ sleeper.rearmed engine.control ++ after
        now := sleeper.wakeAt }) :
    Wakes target engine sleeper last := by
  rw [left, ← wake_eq]
  exact .intro whole first due

/-- Whoever wakes first, nobody is to wake earlier afterwards. -/
theorem wakeAt_le_of_mem_wake (whole : engine.sleepers = before ++ sleeper :: after)
    (first : ∀ other ∈ engine.sleepers, sleeper.wakeAt ≤ other.wakeAt) :
    ∀ other ∈ (engine.wake before sleeper after).sleepers, sleeper.wakeAt ≤ other.wakeAt := by
  intro other member
  rw [wake_eq] at member
  simp only [List.mem_append] at member
  rcases member with (earlier | again) | later
  · exact first other (by simp [whole, earlier])
  · exact Sleeper.wakeAt_le_of_mem_rearmed again
  · exact first other (by simp [whole, later])

/-- Two who are due at the same time may wake one after the other in either order. -/
theorem exists_wakes_of_tie {one two : Sleeper} {middle : List Sleeper} (numbered : engine.Numbered)
    (whole : engine.sleepers = before ++ one :: (middle ++ two :: after))
    (first : ∀ other ∈ engine.sleepers, one.wakeAt ≤ other.wakeAt)
    (tie : one.wakeAt = two.wakeAt) (due : one.wakeAt ≤ target) :
    ∃ both, Wakes target (engine.wake before one (middle ++ two :: after)) two both ∧
      Wakes target (engine.wake (before ++ one :: middle) two after) one both := by
  have differ : one.generation ≠ two.generation := by
    have ordered := numbered.ordered
    rw [whole, List.map_append, List.map_cons, List.pairwise_append] at ordered
    exact Nat.ne_of_lt ((List.pairwise_cons.mp ordered.2.1).1 _ (by simp))
  let both : Engine :=
    { engine with
      store := two.swept engine.control (one.swept engine.control engine.store)
      sleepers := before ++ one.rearmed engine.control ++ middle ++
        two.rearmed engine.control ++ after
      now := two.wakeAt }
  have oneFirst : Wakes target (engine.wake before one (middle ++ two :: after)) two both := by
    have stillFirst := wakeAt_le_of_mem_wake whole first
    have split : before ++ one.rearmed engine.control ++ (middle ++ two :: after) =
        before ++ one.rearmed engine.control ++ middle ++ two :: after := by simp
    rw [wake_eq] at stillFirst ⊢
    exact wakes_of_eq split (tie ▸ stillFirst) (tie ▸ due) rfl
  have twoFirst : Wakes target (engine.wake (before ++ one :: middle) two after) one both := by
    have wholeAlso : engine.sleepers = (before ++ one :: middle) ++ two :: after := by simp [whole]
    have stillFirst := wakeAt_le_of_mem_wake wholeAlso (tie ▸ first)
    have split : before ++ one :: middle ++ two.rearmed engine.control ++ after =
        before ++ one :: (middle ++ two.rearmed engine.control ++ after) := by simp
    rw [wake_eq] at stillFirst ⊢
    refine wakes_of_eq split (tie ▸ stillFirst) due ?_
    simp only [both, swept_comm engine.control engine.store differ, tie, List.append_assoc]
  exact ⟨both, oneFirst, twoFirst⟩

/-- Of two who may wake now, the one that does not may still do so next. -/
theorem Wakes.join {one two : Sleeper} (numbered : engine.Numbered)
    (wakes : Wakes target engine one between) (wakesOther : Wakes target engine two other) :
    between = other ∨ ∃ both, Wakes target between two both ∧ Wakes target other one both := by
  cases wakes with
  | intro whole first due =>
      cases wakesOther with
      | intro wholeOther firstOther dueOther =>
          have tie : one.wakeAt = two.wakeAt :=
            Nat.le_antisymm (first two (by simp [wholeOther])) (firstOther one (by simp [whole]))
          rcases List.append_eq_append_iff.mp (whole.symm.trans wholeOther) with
            ⟨middle, rfl, rest⟩ | ⟨middle, rfl, rest⟩
          · cases middle with
            | nil =>
                cases rest
                simp
            | cons head middle =>
                cases rest
                exact .inr (exists_wakes_of_tie numbered whole first tie due)
          · cases middle with
            | nil =>
                cases rest
                simp
            | cons head middle =>
                cases rest
                obtain ⟨both, oneFirst, twoFirst⟩ :=
                  exists_wakes_of_tie numbered wholeOther firstOther tie.symm dueOther
                exact .inr ⟨both, twoFirst, oneFirst⟩

/-- Whoever wakes first, what time leaves is the same. -/
theorem Wakes.runUntil_eq (wakes : Wakes target engine sleeper between)
    (numbered : engine.Numbered) : between.runUntil target = engine.runUntil target := by
  -- The ones to come decrease with each waking, and after two they have come together again.
  induction left : engine.wakingsUntil target generalizing engine between sleeper with
  | zero =>
      have one := wakes.wakingsUntil_eq
      omega
  | succ count ih =>
      have fewer {someone : Sleeper} {next : Engine} (wakes : Wakes target engine someone next) :
          next.wakingsUntil target = count := by
        have one := wakes.wakingsUntil_eq
        omega
      obtain ⟨before, earliest, after, split, due⟩ :
          ∃ before earliest after,
            Sleeper.splitEarliest? engine.sleepers = some (before, earliest, after) ∧
              earliest.wakeAt ≤ target := by
        cases wakes with
        | intro whole first due =>
            have asleep : sleeper ∈ engine.sleepers := by simp [whole]
            cases split : Sleeper.splitEarliest? engine.sleepers with
            | none => simp [Sleeper.eq_nil_of_splitEarliest? split] at asleep
            | some found =>
                exact ⟨_, _, _, rfl,
                  Nat.le_trans (Sleeper.wakeAt_le_of_splitEarliest? split sleeper asleep) due⟩
      have earliestWakes := wakes_of_splitEarliest? split due
      rw [runUntil_of_due split due]
      rcases wakes.join numbered earliestWakes with same | ⟨both, next, nextOther⟩
      · rw [same]
      · calc between.runUntil target
          _ = both.runUntil target := (ih next (wakes.numbered numbered) (fewer wakes)).symm
          _ = (engine.wake before earliest after).runUntil target :=
              ih nextOther (earliestWakes.numbered numbered) (fewer earliestWakes)

/-! ## Passing time -/

/-- Those listed wake one after the other. -/
inductive WakesAll (target : Nat) : Engine → List Sleeper → Engine → Prop where
  | nil (engine : Engine) : WakesAll target engine [] engine
  | cons {engine between last : Engine} {sleeper : Sleeper} {woken : List Sleeper} :
      Wakes target engine sleeper between → WakesAll target between woken last →
      WakesAll target engine (sleeper :: woken) last

/-- Time may pass so: those listed wake one after the other until nobody is due. -/
def Elapses (engine : Engine) (duration : Nat) (woken : List Sleeper) (last : Engine) : Prop :=
  ∃ rested, WakesAll (engine.now + duration) engine woken rested ∧
    (∀ sleeper ∈ rested.sleepers, engine.now + duration < sleeper.wakeAt) ∧
    last = { rested with now := engine.now + duration }

variable {woken : List Sleeper}

theorem WakesAll.wakingsUntil_eq (wakes : WakesAll target engine woken last) :
    engine.wakingsUntil target = woken.length + last.wakingsUntil target := by
  induction wakes with
  | nil => rw [List.length_nil, Nat.zero_add]
  | cons wakes _ ih =>
      rw [wakes.wakingsUntil_eq, ih, List.length_cons]
      omega

theorem WakesAll.runUntil_eq (wakes : WakesAll target engine woken last)
    (numbered : engine.Numbered) : last.runUntil target = engine.runUntil target := by
  induction wakes with
  | nil => rfl
  | cons wakes _ ih => exact (ih (wakes.numbered numbered)).trans (wakes.runUntil_eq numbered)

/-- Time passes as it does if of several that wake at the same time the oldest is always first. -/
theorem exists_wakesAll_runUntil (engine : Engine) (target : Nat) :
    ∃ woken rested, WakesAll target engine woken rested ∧
      (∀ sleeper ∈ rested.sleepers, target < sleeper.wakeAt) ∧
      engine.runUntil target = { rested with now := target } := by
  fun_induction runUntil engine target with
  | case1 engine asleep =>
      refine ⟨[], engine, .nil engine, ?_, rfl⟩
      simp [Sleeper.eq_nil_of_splitEarliest? asleep]
  | case2 engine before sleeper after split due ih =>
      obtain ⟨woken, rested, wakes, idle, left⟩ := ih
      exact ⟨sleeper :: woken, rested, .cons (wakes_of_splitEarliest? split due) wakes, idle, left⟩
  | case3 engine before sleeper after split early =>
      refine ⟨[], engine, .nil engine, ?_, rfl⟩
      intro other member
      exact Nat.lt_of_lt_of_le (Nat.lt_of_not_le early)
        (Sleeper.wakeAt_le_of_splitEarliest? split other member)

theorem runUntil_of_forall_lt (idle : ∀ sleeper ∈ engine.sleepers, target < sleeper.wakeAt) :
    engine.runUntil target = { engine with now := target } := by
  refine runUntil_of_idle fun before sleeper after split => Nat.not_le.mpr (idle sleeper ?_)
  simp [Sleeper.eq_append_of_splitEarliest? split]

theorem wakingsUntil_of_forall_lt (idle : ∀ sleeper ∈ engine.sleepers, target < sleeper.wakeAt) :
    engine.wakingsUntil target = 0 := by
  rw [wakingsUntil, List.sum_eq_zero]
  intro count member
  obtain ⟨sleeper, asleep, rfl⟩ := List.mem_map.mp member
  exact if_pos (idle sleeper asleep)

/-- What time does depends on where it ends but not on when it starts. -/
theorem runUntil_of_now (engine : Engine) (time target : Nat) :
    ({ engine with now := time } : Engine).runUntil target = engine.runUntil target := by
  cases split : Sleeper.splitEarliest? engine.sleepers with
  | none => rw [runUntil_of_idle (by simp [split]), runUntil_of_idle (by simp [split])]
  | some found =>
      obtain ⟨before, sleeper, after⟩ := found
      by_cases due : sleeper.wakeAt ≤ target
      · have splitLater :
            Sleeper.splitEarliest? ({ engine with now := time } : Engine).sleepers =
              some (before, sleeper, after) := split
        rw [runUntil_of_due split due, runUntil_of_due splitLater due]
        rfl
      · rw [runUntil_of_idle (by simpa [split] using due),
          runUntil_of_idle (by simpa [split] using due)]

/-- Time may stop on its way. -/
theorem runUntil_runUntil (engine : Engine) {middle target : Nat} (le : middle ≤ target) :
    (engine.runUntil middle).runUntil target = engine.runUntil target := by
  fun_induction runUntil engine middle with
  | case1 engine asleep => exact runUntil_of_now engine middle target
  | case2 engine before sleeper after split due ih =>
      rw [ih, runUntil_of_due split (Nat.le_trans due le)]
  | case3 engine before sleeper after split early => exact runUntil_of_now engine middle target

/-! ## Time on a reachable engine -/

/-- Time is finite and additive, and does not depend on the order of those who wake at the same
time. -/
structure PassesTime (engine : Engine) : Prop where
  /-- At most one of those who are asleep is current. -/
  single : (engine.sleepers.filter fun sleeper =>
    engine.control.isCurrent sleeper.generation).length ≤ 1
  interval_pos : ∀ sleeper ∈ engine.sleepers, 0 < sleeper.interval
  /-- However they wake, only so many do so up to a given time. -/
  finite {target : Nat} {woken : List Sleeper} {last : Engine} :
    WakesAll target engine woken last → woken.length ≤ engine.wakingsUntil target
  /-- Passing in parts or at once, time leaves the same engine. -/
  additive (one two : Nat) : (engine.advance one).advance two = engine.advance (one + two)
  /-- Time can pass. -/
  elapses (duration : Nat) : ∃ woken, engine.Elapses duration woken (engine.advance duration)
  /-- In whatever order they wake, just as many do so, and the same engine is left. -/
  unique {duration : Nat} {woken : List Sleeper} {last : Engine} :
    engine.Elapses duration woken last →
      woken.length = engine.wakingsUntil (engine.now + duration) ∧ last = engine.advance duration

theorem Numbered.passesTime (numbered : engine.Numbered) : engine.PassesTime := by
  constructor
  case single => exact numbered.length_current_le_one
  case interval_pos => exact fun sleeper _ => sleeper.interval_pos
  case finite =>
    intro target woken last wakes
    rw [wakes.wakingsUntil_eq]
    exact Nat.le_add_right _ _
  case additive =>
    intro one two
    obtain ⟨-, rested, -, -, left⟩ := exists_wakesAll_runUntil engine (engine.now + one)
    have time : (engine.advance one).now = engine.now + one := by rw [advance, left]
    rw [advance, time, advance, runUntil_runUntil engine (Nat.le_add_right _ two), Nat.add_assoc]
    rfl
  case elapses =>
    intro duration
    obtain ⟨woken, rested, wakes, idle, left⟩ :=
      exists_wakesAll_runUntil engine (engine.now + duration)
    exact ⟨woken, rested, wakes, idle, left⟩
  case unique =>
    rintro duration woken last ⟨rested, wakes, idle, rfl⟩
    constructor
    · rw [wakes.wakingsUntil_eq, wakingsUntil_of_forall_lt idle, Nat.add_zero]
    · rw [advance, ← wakes.runUntil_eq numbered, runUntil_of_forall_lt idle]

end Engine

/-- Whatever has happened to an engine, time is well defined on it. -/
theorem Origin.passes_time (origin : Origin) (calls : List Call) {past : List Event}
    (reached : past <+: origin.history calls) : (origin.blank.through past).PassesTime :=
  (origin.numbered_blank.of_path ((origin.path_history calls).path_through reached)).passesTime

/-- Two wake at the same time, one of them stopped and the other one in charge. Either may be the
first. -/
theorem Origin.passes_time_tie :
    let origin := Origin.create 1 0
    let calls := [Call.enable 10 1000000 none, .advance 5, .disable, .enable 5 1000000 none]
    let engine := origin.blank.through (origin.history calls)
    engine.sleepers.map (fun sleeper => (sleeper.wakeAt, sleeper.generation)) =
        [(10, 0), (10, 1)] ∧
      (∀ sleeper ∈ engine.sleepers, ∃ next, Engine.Wakes 10 engine sleeper next) ∧
      engine.wakingsUntil 10 = 2 ∧ engine.wakingsUntil 20 = 4 ∧ engine.PassesTime := by
  intro origin calls engine
  have tied : ∀ sleeper ∈ engine.sleepers, sleeper.wakeAt = 10 := by decide +kernel
  refine ⟨by decide +kernel, fun sleeper asleep => ?_, by decide +kernel, by decide +kernel,
    origin.passes_time calls List.prefix_rfl⟩
  exact Engine.exists_wakes asleep
    (fun other member => Nat.le_of_eq ((tied sleeper asleep).trans (tied other member).symm))
    (Nat.le_of_eq (tied sleeper asleep))

end RecencyCache
