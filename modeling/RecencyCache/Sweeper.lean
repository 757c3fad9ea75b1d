import RecencyCache.Duration

/-!
# Sweepers

A sweeper is a thread that sleeps for an interval, sweeps, and sleeps again. Switching it off does
not wake it: it remains asleep, and ends when it wakes and finds that it is no longer the current
one. Each switching off starts a new generation, so a sweeper of an earlier generation is never
taken for the current one, even if another has been started meanwhile.
-/

namespace RecencyCache

/-- The switch and the settings that a cache shares with its sweepers. -/
structure SweepControl where
  running : Bool := false
  /-- The number of times that a running sweeper was switched off, assumed to be fewer than
  `2 ^ 64`. A 64-bit word would return to zero then and repeat the generations. -/
  generation : Nat := 0
  intervalMillis : Nat := 0
  surviveMillis : Nat := 0
  deriving DecidableEq

namespace SweepControl

/-- The default survive time, none unless it is at least one millisecond. -/
def surviveTime (control : SweepControl) : Option Nat :=
  if control.surviveMillis = 0 then none else some (Duration.ofMillis control.surviveMillis)

/-- A sweeper of this generation is to go on. -/
def isCurrent (control : SweepControl) (generation : Nat) : Bool :=
  control.running && control.generation == generation

/-- Switches sweeping on with new settings. -/
def start (control : SweepControl) (interval survive : Nat) : SweepControl :=
  { control with
    running := true
    intervalMillis := Duration.wholeMillis interval
    surviveMillis := Duration.wholeMillis survive }

/-- Switches sweeping off, if it is on. -/
def stop (control : SweepControl) : SweepControl :=
  if control.running then
    { control with running := false, generation := control.generation + 1 }
  else control

@[simp] theorem running_start (control : SweepControl) (interval survive : Nat) :
    (control.start interval survive).running = true := rfl

@[simp] theorem generation_start (control : SweepControl) (interval survive : Nat) :
    (control.start interval survive).generation = control.generation := rfl

@[simp] theorem running_stop (control : SweepControl) : control.stop.running = false := by
  rw [stop]
  split <;> simp_all

theorem isCurrent_iff {control : SweepControl} {generation : Nat} :
    control.isCurrent generation = true ↔
      control.running = true ∧ control.generation = generation := by
  simp [isCurrent]

end SweepControl

/-- A thread that is asleep. Its interval is never zero. -/
structure Sleeper where
  name : String
  /-- The generation in which it was started. -/
  generation : Nat
  interval : Nat
  interval_pos : 0 < interval
  wakeAt : Nat

namespace Sleeper

/-- The name of a sweeper that was given none. -/
def defaultName : String := "mru-cache-sweeper"

/-- The sleeper after it has gone to sleep again on waking. -/
def renewed (sleeper : Sleeper) : Sleeper :=
  { sleeper with wakeAt := sleeper.wakeAt + sleeper.interval }

/-- The sleeper that wakes first, between those before and after it. Of several that wake at the
same time it is the one started first. -/
def splitEarliest? : List Sleeper → Option (List Sleeper × Sleeper × List Sleeper)
  | [] => none
  | sleeper :: rest =>
      match splitEarliest? rest with
      | none => some ([], sleeper, rest)
      | some (before, earliest, after) =>
          if sleeper.wakeAt ≤ earliest.wakeAt then some ([], sleeper, rest)
          else some (sleeper :: before, earliest, after)

/-- The split list is the list. -/
theorem eq_append_of_splitEarliest? {sleepers before after : List Sleeper} {earliest : Sleeper}
    (split : splitEarliest? sleepers = some (before, earliest, after)) :
    sleepers = before ++ earliest :: after := by
  induction sleepers generalizing before earliest after with
  | nil => simp [splitEarliest?] at split
  | cons sleeper rest ih =>
      simp only [splitEarliest?] at split
      split at split
      · cases split
        rfl
      · rename_i tailBefore tailEarliest tailAfter tailSplit
        split at split
        · cases split
          rfl
        · cases split
          simp [ih tailSplit]

/-- An upper bound for the number of times that the sleepers wake up to `target`: the times at which
each of them may still wake. -/
def slack (target : Nat) : List Sleeper → Nat
  | [] => 0
  | sleeper :: rest => (target + 1 - sleeper.wakeAt) + slack target rest

theorem slack_append (target : Nat) (before after : List Sleeper) :
    slack target (before ++ after) = slack target before + slack target after := by
  induction before with
  | nil => simp [slack]
  | cons sleeper rest ih => rw [List.cons_append, slack, slack, ih, Nat.add_assoc]

/-- Waking uses up slack, because the interval of a sleeper is never zero. -/
theorem slack_renewed_lt {target : Nat} {before after : List Sleeper} {sleeper : Sleeper}
    (due : sleeper.wakeAt ≤ target) :
    slack target (before ++ sleeper.renewed :: after)
      < slack target (before ++ sleeper :: after) := by
  have positive := sleeper.interval_pos
  have later : sleeper.renewed.wakeAt = sleeper.wakeAt + sleeper.interval := rfl
  rw [slack_append, slack_append, slack, slack, later]
  omega

/-- A sleeper that ends uses up its slack. -/
theorem slack_ended_lt {target : Nat} {before after : List Sleeper} {sleeper : Sleeper}
    (due : sleeper.wakeAt ≤ target) :
    slack target (before ++ after) < slack target (before ++ sleeper :: after) := by
  rw [slack_append, slack_append, slack]
  omega

end Sleeper

end RecencyCache
