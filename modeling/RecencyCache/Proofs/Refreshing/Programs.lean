import RecencyCache.Proofs.Refreshing.Steps

/-!
# Refreshing: whole programs

Two caches that differ in nothing but their access times and in the choice whether a hit refreshes
them go through the same program, which may choose anew at any time and differently for each. As
long as no sweep in either run takes out a live entry, the two do the same in action after action,
those of nested suppliers and of sweepers included, and cannot be told apart but by the idle times
in snapshots and by asking for the choice.
-/

namespace RecencyCache

/-! ## Programs and steps -/

namespace Call

mutual

/-- The call with the choice not to refresh in place of every choice. -/
def unrefreshing : Call → Call
  | .setRefreshOnHit _ => .setRefreshOnHit false
  | .getOrCreate key supplier ending => .getOrCreate key (unrefreshingAll supplier) ending
  | call => call

/-- Several calls with the choice not to refresh in place of every choice. -/
def unrefreshingAll : List Call → List Call
  | [] => []
  | call :: calls => call.unrefreshing :: unrefreshingAll calls

end

end Call

/-- The view as if nothing had been refreshed. -/
def View.unrefreshed (view : View) : View :=
  { view with entries := view.entries.map (·.unrefreshed) }

namespace Call

mutual

/-- The reply to the call as if nothing had been refreshed nor were to be. -/
def unrefreshed : Call → Reply → Reply
  | .ask question, .finding answer => .finding (question.unrefreshed answer)
  | .getWithSnapshot _, .foundWithSnapshot result =>
      .foundWithSnapshot (result.map fun (text, snapshot) => (text, snapshot.unrefreshed))
  | .getOrCreate _ supplier _, .created text (some steps) =>
      .created text (some (unrefreshedAll supplier steps))
  | _, reply => reply

/-- The steps of several calls as if nothing had been refreshed nor were to be. -/
def unrefreshedAll : List Call → List Step → List Step
  | call :: calls, .mk reply view :: steps =>
      .mk (call.unrefreshed reply) view.unrefreshed :: unrefreshedAll calls steps
  | _, steps => steps

end

/-- The action that the call is, if it is a single one. -/
def action? : Call → Option Action
  | .ask question => some (.ask question)
  | .put key value options => some (.put key value options)
  | .get key => some (.get key)
  | .getWithSnapshot key => some (.getWithSnapshot key)
  | .getSince key since => some (.getSince key since)
  | .remove key => some (.remove key)
  | .clear => some .clear
  | .setCapacity capacity => some (.setCapacity capacity)
  | .setRefreshOnHit refreshOnHit => some (.setRefreshOnHit refreshOnHit)
  | .purge default => some (.purge default)
  | .enable interval survive name => some (.enable interval survive name)
  | .disable => some .disable
  | .getOrCreate .. | .advance _ => none

section
variable {call other : Call} {action : Action}

theorem of_action? (single : call.action? = some action) (engine : Engine) (reply : Reply) :
    call.trace engine = [⟨engine, action⟩] ∧ call.run engine = action.run engine ∧
      call.unrefreshed reply = action.unrefreshed reply := by
  cases call with
  | getOrCreate | advance => cases single
  | ask | getWithSnapshot =>
      cases single
      exact ⟨rfl, rfl, by cases reply <;> rfl⟩
  | put | get | getSince | remove | clear | setCapacity | setRefreshOnHit | purge | enable |
      disable =>
      cases single
      exact ⟨rfl, rfl, rfl⟩

theorem action?_unrefreshing (call : Call) :
    call.unrefreshing.action? = call.action?.map (·.unrefreshing) := by
  cases call <;> rfl

/-- A call that is the same as a single action up to choices is one too. -/
theorem exists_action?_of_unrefreshing_eq (same : call.unrefreshing = other.unrefreshing)
    (single : call.action? = some action) :
    ∃ otherAction, other.action? = some otherAction ∧
      otherAction.unrefreshing = action.unrefreshing := by
  have actions := congrArg action? same
  rw [action?_unrefreshing, action?_unrefreshing, single] at actions
  exact Option.map_eq_some_iff.mp actions.symm

theorem eq_of_unrefreshing_eq_advance {duration : Nat}
    (same : (Call.advance duration).unrefreshing = other.unrefreshing) :
    other = .advance duration := by
  cases other <;> cases same
  rfl

theorem exists_of_unrefreshing_eq_getOrCreate {key : Key} {supplier : List Call} {ending : Ending}
    (same : (Call.getOrCreate key supplier ending).unrefreshing = other.unrefreshing) :
    ∃ otherSupplier, other = .getOrCreate key otherSupplier ending ∧
      unrefreshingAll supplier = unrefreshingAll otherSupplier := by
  cases other with
  | getOrCreate otherKey otherSupplier otherEnding =>
      simp only [unrefreshing, Call.getOrCreate.injEq] at same
      obtain ⟨rfl, suppliers, rfl⟩ := same
      exact ⟨otherSupplier, rfl, suppliers⟩
  | _ => cases same

end

end Call

/-! ## Engines -/

namespace Engine

/-- The engines agree in everything that can be seen of them but the access times of their entries
and their choice whether to refresh. -/
def Alike (engine other : Engine) : Prop :=
  engine.plain.unrefreshed = other.plain.unrefreshed

variable {engine other : Engine}

namespace Alike

theorem now_eq (alike : engine.Alike other) : engine.now = other.now :=
  congrArg PlainEngine.now alike

theorem sleepers_eq (alike : engine.Alike other) : engine.sleepers = other.sleepers :=
  congrArg PlainEngine.sleepers alike

/-- Engines that are alike look alike. -/
theorem view_eq (alike : engine.Alike other) (sound : engine.Sound) (otherSound : other.Sound) :
    engine.view.unrefreshed = other.view.unrefreshed := by
  have seen (engine : PlainEngine) : engine.view.unrefreshed = engine.unrefreshed.view := by
    simp only [PlainEngine.view, View.unrefreshed]
    rw [show engine.unrefreshed.store.liveKeys engine.unrefreshed.now = _ from
      engine.store.liveKeys_unrefreshed engine.now, PlainEngine.length_entries_unrefreshed]
    rfl
  rw [← view_plain sound.represents, ← view_plain otherSound.represents, seen, seen]
  exact congrArg PlainEngine.view alike

end Alike

/-- The choice makes no difference. -/
theorem alike_setRefreshOnHit (engine : Engine) (refreshOnHit : Bool) :
    engine.Alike (engine.setRefreshOnHit refreshOnHit) := rfl

theorem Sound.setRefreshOnHit (sound : engine.Sound) (refreshOnHit : Bool) :
    (engine.setRefreshOnHit refreshOnHit).Sound :=
  (sound.run (.setRefreshOnHit refreshOnHit)).1

end Engine

/-- A sweeper starts whatever the choice. -/
theorem Engine.enable_setRefreshOnHit (engine : Engine) (refreshOnHit : Bool)
    (interval survive : Nat) (name : Option String) :
    (engine.setRefreshOnHit refreshOnHit).enable interval survive name =
      ((engine.enable interval survive name).1,
        (engine.enable interval survive name).2.setRefreshOnHit refreshOnHit) := by
  rw [setRefreshOnHit, enable_withStore, setRefreshOnHit, store_enable]

/-! ## Events -/

namespace Event

/-- The event is no sweep that takes out a live entry. -/
def Spares (event : Event) : Prop :=
  event.action.maySweep = true → ∀ entry ∈ event.engine.store.chain.toList,
    entry.live event.after.now = true → entry ∈ event.after.store.chain.toList

instance (event : Event) : Decidable event.Spares :=
  inferInstanceAs (Decidable (event.action.maySweep = true →
    ∀ entry ∈ event.engine.store.chain.toList,
      entry.live event.after.now = true → entry ∈ event.after.store.chain.toList))

/-- The same action has the same reply and leaves engines that are alike. -/
structure Alike (event other : Event) : Prop where
  action : event.action.unrefreshing = other.action.unrefreshing
  reply : event.action.unrefreshed event.reply = other.action.unrefreshed other.reply
  after : event.after.Alike other.after

variable {engine other : Engine} {action otherAction : Action}

theorem Spares.plain (sound : engine.Sound) (spares : Spares ⟨engine, action⟩) :
    engine.plain.Spares action := by
  rw [PlainEngine.Spares, ← (Engine.act_matches sound.represents action).plain_eq]
  exact spares

/-- The same action does the same on engines that are alike, unless it takes out a live entry of one
of them. -/
theorem alike_of_spares (engines : engine.Alike other) (sound : engine.Sound)
    (otherSound : other.Sound) (same : action.unrefreshing = otherAction.unrefreshing)
    (spares : Spares ⟨engine, action⟩) (otherSpares : Spares ⟨other, otherAction⟩) :
    Alike ⟨engine, action⟩ ⟨other, otherAction⟩ := by
  have done := Engine.act_matches sound.represents action
  have otherDone := Engine.act_matches otherSound.represents otherAction
  have unrefreshed := engine.plain.act_unrefreshed (spares.plain sound)
  have otherUnrefreshed := other.plain.act_unrefreshed (otherSpares.plain otherSound)
  rw [same, show engine.plain.unrefreshed = _ from engines, otherUnrefreshed, ← done.2,
    ← otherDone.2] at unrefreshed
  exact ⟨same, (congrArg Prod.fst unrefreshed).symm, (congrArg Prod.snd unrefreshed).symm⟩

end Event

/-! ## Traces -/

/-- The same actions happen one after the other with the same effects, as long as they take out no
live entry in either of two runs. -/
inductive InStep : List Event → List Event → Prop where
  | nil : InStep [] []
  | cons {event other : Event} {events others : List Event} :
      (event.Spares → other.Spares → event.Alike other) →
      (event.Spares → other.Spares → InStep events others) →
      InStep (event :: events) (other :: others)

namespace InStep

variable {events others later otherLater : List Event}

/-- If what comes first takes out no live entry, what comes later is to be in step too. -/
theorem append (front : InStep events others)
    (back : (∀ event ∈ events, event.Spares) → (∀ other ∈ others, other.Spares) →
      InStep later otherLater) : InStep (events ++ later) (others ++ otherLater) := by
  induction front with
  | nil => exact back (by simp) (by simp)
  | @cons event other events others alike _ ih =>
      refine .cons alike fun spares otherSpares => ih spares otherSpares fun rest otherRest => ?_
      exact back (List.forall_mem_cons.mpr ⟨spares, rest⟩)
        (List.forall_mem_cons.mpr ⟨otherSpares, otherRest⟩)

/-- As long as no live entry is taken out, the events are alike. -/
theorem forall₂_take (inStep : InStep events others) (count : Nat)
    (spares : ∀ event ∈ events.take count, event.Spares)
    (otherSpares : ∀ other ∈ others.take count, other.Spares) :
    List.Forall₂ Event.Alike (events.take count) (others.take count) := by
  induction inStep generalizing count with
  | nil => simp
  | @cons event other events others alike _ ih =>
      cases count with
      | zero => simp
      | succ count =>
          obtain ⟨spared, rest⟩ := List.forall_mem_cons.mp spares
          obtain ⟨otherSpared, otherRest⟩ := List.forall_mem_cons.mp otherSpares
          exact .cons (alike spared otherSpared) (ih spared otherSpared count rest otherRest)

end InStep

/-- Two runs are in step. If neither takes out a live entry, they have the same result and end with
engines that are alike. -/
structure Concur {α : Type} (events others : List Event) (done otherDone : α × Engine) : Prop where
  inStep : InStep events others
  result : (∀ event ∈ events, event.Spares) → (∀ other ∈ others, other.Spares) →
    done.1 = otherDone.1 ∧ done.2.Alike otherDone.2

namespace Concur

variable {α β : Type} {events others later otherLater : List Event} {last otherLast : Engine}
  {result otherResult : α} {told otherTold : β}

/-- The same single action on engines that are alike. -/
theorem single {engine other : Engine} {action otherAction : Action}
    (engines : engine.Alike other) (sound : engine.Sound) (otherSound : other.Sound)
    (same : action.unrefreshing = otherAction.unrefreshing) :
    Concur [⟨engine, action⟩] [⟨other, otherAction⟩]
      (action.unrefreshed (action.run engine).1, (action.run engine).2)
      (otherAction.unrefreshed (otherAction.run other).1, (otherAction.run other).2) := by
  have alike := Event.alike_of_spares engines sound otherSound same
  refine ⟨.cons alike fun _ _ => .nil, fun spares otherSpares => ?_⟩
  have spared := List.forall_mem_singleton.mp spares
  have otherSpared := List.forall_mem_singleton.mp otherSpares
  exact ⟨(alike spared otherSpared).reply, (alike spared otherSpared).after⟩

/-- Nothing happens. -/
theorem nil (same : result = otherResult) (alike : last.Alike otherLast) :
    Concur [] [] (result, last) (otherResult, otherLast) :=
  ⟨.nil, fun _ _ => ⟨same, alike⟩⟩

/-- One part of two runs and then another one. -/
theorem bind {done otherDone : β × Engine}
    (front : Concur events others (result, last) (otherResult, otherLast))
    (back : result = otherResult → last.Alike otherLast →
      Concur later otherLater done otherDone) :
    Concur (events ++ later) (others ++ otherLater) done otherDone := by
  have continued (spares : ∀ event ∈ events, event.Spares)
      (otherSpares : ∀ other ∈ others, other.Spares) : Concur later otherLater done otherDone := by
    obtain ⟨same, alike⟩ := front.result spares otherSpares
    exact back same alike
  refine ⟨front.inStep.append fun spares otherSpares => (continued spares otherSpares).inStep, ?_⟩
  intro spares otherSpares
  obtain ⟨spared, rest⟩ := List.forall_mem_append.mp spares
  obtain ⟨otherSpared, otherRest⟩ := List.forall_mem_append.mp otherSpares
  exact (continued spared otherSpared).result rest otherRest

/-- The result may be told in other words. -/
theorem imp (concur : Concur events others (result, last) (otherResult, otherLast))
    (tell : result = otherResult → told = otherTold) :
    Concur events others (told, last) (otherTold, otherLast) := by
  refine ⟨concur.inStep, fun spares otherSpares => ?_⟩
  obtain ⟨same, alike⟩ := concur.result spares otherSpares
  exact ⟨tell same, alike⟩

end Concur

/-! ## Time -/

namespace Engine

/-- Time passes in step on engines that are alike: the same sleepers wake. -/
theorem concur_wakings {engine other : Engine} (alike : engine.Alike other) (sound : engine.Sound)
    (otherSound : other.Sound) (target : Nat) :
    Concur (engine.wakings target) (other.wakings target)
      (Reply.done, engine.runUntil target) (Reply.done, other.runUntil target) := by
  fun_induction wakings engine target generalizing other with
  | case1 engine asleep =>
      have otherAsleep := alike.sleepers_eq ▸ asleep
      rw [runUntil_of_idle (by simp [asleep]), runUntil_of_idle (by simp [otherAsleep]),
        wakings_of_idle (by simp [otherAsleep])]
      exact .single alike sound otherSound (Eq.refl (Action.rest target).unrefreshing)
  | case2 engine before sleeper after split due ih =>
      have otherSplit := alike.sleepers_eq ▸ split
      have woke (engine : Engine)
          (split : Sleeper.splitEarliest? engine.sleepers = some (before, sleeper, after)) :
          (Action.run .wake engine).2 = engine.wake before sleeper after := by
        rw [Action.run, split]
      -- whether or not the sleeper sweeps, its waking is one event and the rest of the time follows
      have happen := Concur.single alike sound otherSound (Eq.refl Action.wake.unrefreshing)
      have wokenSound := (sound.run .wake).1
      have otherWokenSound := (otherSound.run .wake).1
      rw [woke engine split] at happen wokenSound
      rw [woke other otherSplit] at happen otherWokenSound
      rw [runUntil_of_due split due, runUntil_of_due otherSplit due, wakings_of_due otherSplit due]
      exact happen.bind fun _ woken => ih woken wokenSound otherWokenSound
  | case3 engine before sleeper after split early =>
      have otherSplit := alike.sleepers_eq ▸ split
      rw [runUntil_of_idle (by simpa [split] using early),
        runUntil_of_idle (by simpa [otherSplit] using early),
        wakings_of_idle (by simpa [otherSplit] using early)]
      exact .single alike sound otherSound (Eq.refl (Action.rest target).unrefreshing)

end Engine

/-! ## Calls -/

/-- Results that are told alike are the same. -/
theorem Reply.ofResult_injective {α : Type} {tell : α → Reply} (injective : Function.Injective tell)
    (unbroken : ∀ answer fault, tell answer ≠ .broken fault) :
    Function.Injective (Reply.ofResult tell) := by
  intro result other same
  cases result with
  | ok answer =>
      cases other with
      | ok otherAnswer => exact congrArg Except.ok (injective same)
      | error fault => exact absurd same (unbroken answer fault)
  | error fault =>
      cases other with
      | ok otherAnswer => exact absurd same.symm (unbroken otherAnswer fault)
      | error otherFault => exact congrArg Except.error (Reply.broken.inj same)

namespace Call

/-- The same single action, whatever its choice. -/
theorem concur_of_action? {call other : Call} {action : Action} {engine otherEngine : Engine}
    (single : call.action? = some action) (same : call.unrefreshing = other.unrefreshing)
    (alike : engine.Alike otherEngine) (sound : engine.Sound) (otherSound : otherEngine.Sound) :
    Concur (call.trace engine) (other.trace otherEngine)
      (call.unrefreshed (call.run engine).1, (call.run engine).2)
      (other.unrefreshed (other.run otherEngine).1, (other.run otherEngine).2) := by
  obtain ⟨otherAction, otherSingle, sameAction⟩ := exists_action?_of_unrefreshing_eq same single
  obtain ⟨trace, run, told⟩ := of_action? single engine (call.run engine).1
  obtain ⟨otherTrace, otherRun, otherTold⟩ :=
    of_action? otherSingle otherEngine (other.run otherEngine).1
  rw [trace, otherTrace, told, otherTold, run, otherRun]
  exact .single alike sound otherSound sameAction.symm

/-- The end of a call that gets or creates a value, after suppliers that have concurred. -/
theorem concur_ending {engine otherEngine : Engine} (alike : engine.Alike otherEngine)
    (sound : engine.Sound) (otherSound : otherEngine.Sound) (key : Key) (ending : Ending)
    {supplier otherSupplier : List Call} {steps otherSteps : List Step}
    (same : unrefreshedAll supplier steps = unrefreshedAll otherSupplier otherSteps) :
    Concur
      (match ending with
        | .value text => [⟨engine, .putIfAbsent key text⟩]
        | .error | .broken => [])
      (match ending with
        | .value text => [⟨otherEngine, .putIfAbsent key text⟩]
        | .error | .broken => [])
      (unrefreshed (.getOrCreate key supplier ending) (ending.conclude key steps engine).1,
        (ending.conclude key steps engine).2)
      (unrefreshed (.getOrCreate key otherSupplier ending)
          (ending.conclude key otherSteps otherEngine).1,
        (ending.conclude key otherSteps otherEngine).2) := by
  have told (text : Option String) :
      unrefreshed (.getOrCreate key supplier ending) (.created text (some steps)) =
        unrefreshed (.getOrCreate key otherSupplier ending) (.created text (some otherSteps)) :=
    congrArg (fun steps => Reply.created text (some steps)) same
  cases ending with
  | error | broken => exact .nil (told none) alike
  | value text =>
      have stored := Concur.single alike sound otherSound
        (Eq.refl (Action.putIfAbsent key text).unrefreshing)
      refine stored.imp fun sameReply => ?_
      have result : (engine.putIfAbsent key text).1 = (otherEngine.putIfAbsent key text).1 :=
        Reply.ofResult_injective (fun _ _ same => by simpa using same) (by simp) sameReply
      rw [Ending.conclude, Ending.conclude, result]
      cases (otherEngine.putIfAbsent key text).1 with
      | ok kept => exact told (some kept)
      | error fault => rfl

mutual

/-- The same call on engines that are alike, whatever its choices. -/
theorem concur {call other : Call} (same : call.unrefreshing = other.unrefreshing)
    {engine otherEngine : Engine} (alike : engine.Alike otherEngine) (sound : engine.Sound)
    (otherSound : otherEngine.Sound) :
    Concur (call.trace engine) (other.trace otherEngine)
      (call.unrefreshed (call.run engine).1, (call.run engine).2)
      (other.unrefreshed (other.run otherEngine).1, (other.run otherEngine).2) := by
  cases call with
  | ask | put | get | getWithSnapshot | getSince | remove | clear | setCapacity | setRefreshOnHit |
      purge | enable | disable => exact concur_of_action? rfl same alike sound otherSound
  | advance duration =>
      obtain rfl := eq_of_unrefreshing_eq_advance same
      rw [trace, trace, run, run, Engine.advance, Engine.advance, ← alike.now_eq]
      exact Engine.concur_wakings alike sound otherSound (engine.now + duration)
  | getOrCreate key supplier ending =>
      obtain ⟨otherSupplier, rfl, suppliers⟩ := exists_of_unrefreshing_eq_getOrCreate same
      have got := Concur.single alike sound otherSound (Eq.refl (Action.get key).unrefreshing)
      have after : (engine.get key).2.Sound := (sound.run (.get key)).1
      have otherAfter : (otherEngine.get key).2.Sound := (otherSound.run (.get key)).1
      rw [trace, trace, run, run]
      refine got.bind fun sameReply left => ?_
      have left : (engine.get key).2.Alike (otherEngine.get key).2 := left
      have found : (engine.get key).1 = (otherEngine.get key).1 :=
        Reply.ofResult_injective (fun _ _ same => Reply.found.inj same) (by simp) sameReply
      -- both lookups have the same result, so either both suppliers are called or none is
      generalize engine.get key = looked at after left found ⊢
      generalize otherEngine.get key = otherLooked at otherAfter left found ⊢
      rcases looked with ⟨result, engine⟩
      rcases otherLooked with ⟨otherResult, otherEngine⟩
      obtain rfl : result = otherResult := found
      rcases result with fault | _ | text
      · exact .nil rfl left
      · have supplied := concurAll suppliers left after otherAfter
        refine supplied.bind fun sameSteps alikeAfter => ?_
        have ended := concur_ending alikeAfter
          (after.of_path (path_traceAll supplier engine))
          (otherAfter.of_path (path_traceAll otherSupplier otherEngine)) key ending sameSteps
        cases ending <;> exact ended
      · exact .nil rfl left

/-- The same calls on engines that are alike, whatever their choices. -/
theorem concurAll {calls others : List Call} (same : unrefreshingAll calls = unrefreshingAll others)
    {engine otherEngine : Engine} (alike : engine.Alike otherEngine) (sound : engine.Sound)
    (otherSound : otherEngine.Sound) :
    Concur (traceAll calls engine) (traceAll others otherEngine)
      (unrefreshedAll calls (runAll calls engine).1, (runAll calls engine).2)
      (unrefreshedAll others (runAll others otherEngine).1, (runAll others otherEngine).2) := by
  cases calls with
  | nil =>
      cases others with
      | nil => exact .nil rfl alike
      | cons => cases same
  | cons call calls =>
      cases others with
      | nil => cases same
      | cons other others =>
          obtain ⟨sameCall, sameRest⟩ := List.cons.inj same
          have after := sound.of_path (call.path_trace engine)
          have otherAfter := otherSound.of_path (other.path_trace otherEngine)
          refine (concur sameCall alike sound otherSound).bind fun sameReply alikeAfter => ?_
          refine (concurAll sameRest alikeAfter after otherAfter).imp fun sameSteps => ?_
          simp only [runAll, unrefreshedAll, sameReply, sameSteps,
            alikeAfter.view_eq after otherAfter]

end

end Call

/-! ## Histories -/

/-- Two programs do the same on two engines as long as no sweep takes out a live entry. -/
structure Engine.HidesRefreshing (engine : Engine) (calls : List Call) (other : Engine)
    (others : List Call) : Prop where
  /-- As long as neither run has taken out a live entry, the events of both are alike. -/
  stepwise : ∀ count,
    (∀ event ∈ (Call.traceAll calls engine).take count, event.Spares) →
    (∀ event ∈ (Call.traceAll others other).take count, event.Spares) →
    List.Forall₂ Event.Alike ((Call.traceAll calls engine).take count)
      ((Call.traceAll others other).take count)
  /-- If no event of either run does, neither the steps of the programs and of their suppliers nor
  the engines that they leave can be told apart. -/
  overall : (∀ event ∈ Call.traceAll calls engine, event.Spares) →
    (∀ event ∈ Call.traceAll others other, event.Spares) →
    Call.unrefreshedAll calls (Call.runAll calls engine).1 =
        Call.unrefreshedAll others (Call.runAll others other).1 ∧
      (Call.runAll calls engine).2.Alike (Call.runAll others other).2

namespace Origin

/-- The choice of a new engine may as well be made by its settings. -/
theorem engine_setRefreshOnHit (config : Config) (epoch : Int) (refreshOnHit : Bool) :
    (ofConfig config epoch).engine.setRefreshOnHit refreshOnHit =
      (ofConfig { config with refreshOnHit } epoch).engine := by
  rw [engine, engine, Engine.ofConfig, Engine.ofConfig]
  exact congrArg Prod.snd (Engine.enable_setRefreshOnHit ..).symm

/-- Whatever has happened to an engine, no program shows whether a hit refreshes an entry, but by
the sweeps that it brings about, by the idle times in snapshots and by asking for the choice. -/
theorem hides_refreshing (origin : Origin) {past : List Event} {engine : Engine}
    (path : Path origin.engine past engine) (refreshOnHit : Bool) {calls others : List Call}
    (same : Call.unrefreshingAll calls = Call.unrefreshingAll others) :
    engine.HidesRefreshing calls (engine.setRefreshOnHit refreshOnHit) others := by
  have sound := origin.sound.of_path path
  have concur := Call.concurAll same (engine.alike_setRefreshOnHit refreshOnHit) sound
    (sound.setRefreshOnHit refreshOnHit)
  exact ⟨concur.inStep.forall₂_take, concur.result⟩

/-- One cache refreshes an entry, and another one with otherwise the same settings does not. The
sweeper spares it in both, although it has been idle for different times. -/
theorem hides_refreshing_idle :
    let config : Config := { capacity := 2, intervalMillis := 2, surviveMillis := 6 }
    let engine := (ofConfig config 0).engine
    let other := (ofConfig { config with refreshOnHit := false } 0).engine
    let program (choice : Bool) : List Call :=
      [.put "a" ⟨"1", false⟩ {}, .advance (Duration.ofMillis 3), .get "a",
        .getOrCreate "b" [.setRefreshOnHit choice, .getWithSnapshot "a"] (.value "2"),
        .advance (Duration.ofMillis 3), .ask (.snapshot "a"), .ask .refreshOnHit]
    let last := (Call.runAll (program true) engine).2
    let otherLast := (Call.runAll (program false) other).2
    Call.unrefreshingAll (program true) = Call.unrefreshingAll (program false) ∧
      (last.store.live? "a" last.now).map (·.idle last.now) = some (Duration.ofMillis 3) ∧
      (otherLast.store.live? "a" otherLast.now).map (·.idle otherLast.now) =
        some (Duration.ofMillis 6) ∧
      Call.unrefreshedAll (program true) (Call.runAll (program true) engine).1 =
        Call.unrefreshedAll (program false) (Call.runAll (program false) other).1 ∧
      last.Alike otherLast := by
  intro config engine other program last otherLast
  have same : Call.unrefreshingAll (program true) = Call.unrefreshingAll (program false) := rfl
  have hides := (ofConfig config 0).hides_refreshing (.nil _) false same
  rw [engine_setRefreshOnHit] at hides
  have spares : ∀ event ∈ Call.traceAll (program true) engine, event.Spares := by decide +kernel
  have otherSpares : ∀ event ∈ Call.traceAll (program false) other, event.Spares := by
    decide +kernel
  exact ⟨same, by decide +kernel, by decide +kernel, hides.overall spares otherSpares⟩

end Origin

end RecencyCache
