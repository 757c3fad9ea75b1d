import RecencyCache.Proofs.SurviveTime

/-!
# Order of access

The chain keeps the entries in the order of their use, and each entry keeps the time of its last
access. While hits refresh the access time, the two agree: from the most to the least recently used
entry, the last access does not become later. So if nothing but the common default limits the life
of the entries, a sweep takes out the last ones.
-/

namespace RecencyCache

/-- If whatever comes before a kept element is kept, a beginning of the list is. -/
theorem exists_filter_append {α : Type} {keep : α → Bool} {list : List α}
    (earlier : list.Pairwise fun before after => keep after = true → keep before = true) :
    ∃ gone, list = list.filter keep ++ gone := by
  induction list with
  | nil => exact ⟨[], rfl⟩
  | cons first rest ih =>
      obtain ⟨head, tail⟩ := List.pairwise_cons.mp earlier
      by_cases kept : keep first = true
      · obtain ⟨gone, split⟩ := ih tail
        refine ⟨gone, ?_⟩
        rw [List.filter_cons_of_pos kept, List.cons_append, ← split]
      · have none : (first :: rest).filter keep = [] := by
          rw [List.filter_cons_of_neg kept, List.filter_eq_nil_iff]
          exact fun later member keeps => kept (head later member keeps)
        exact ⟨first :: rest, by rw [none, List.nil_append]⟩

/-! ## Entries -/

namespace Entry

/-- Nothing but the common default limits the life of the entry. -/
def Unlimited (entry : Entry) : Prop := entry.timeToLive = none ∧ entry.surviveTime = none

instance (entry : Entry) : Decidable entry.Unlimited := inferInstanceAs (Decidable (_ ∧ _))

theorem Unlimited.live {entry : Entry} (unlimited : entry.Unlimited) (now : Nat) :
    entry.live now = true := by
  rw [Entry.live, outlived, unlimited.1]
  rfl

/-- A sweep spares an entry if it spares one that was last accessed earlier. -/
theorem Unlimited.spared_of_earlier {newer older : Entry} (unlimited : newer.Unlimited)
    (olderUnlimited : older.Unlimited) (earlier : older.lastAccessAt ≤ newer.lastAccessAt)
    {now : Nat} {default : Option Nat} (spared : older.expired now default = false) :
    newer.expired now default = false := by
  rw [expired, outlived, neglected, olderUnlimited.1, olderUnlimited.2] at spared
  rw [expired, outlived, neglected, unlimited.1, unlimited.2]
  cases default with
  | none => rfl
  | some limit =>
      have busy : ¬limit < now - older.lastAccessAt := of_decide_eq_false spared
      exact decide_eq_false (p := limit < now - newer.lastAccessAt) (by omega)

/-- These are old entries in their old order, behind at most one that has just been accessed. -/
inductive Follow (old : List Entry) (now : Nat) : List Entry → Prop where
  | kept {rest : List Entry} : rest.Sublist old → Follow old now rest
  | front {entry : Entry} {rest : List Entry} : entry.lastAccessAt = now → rest.Sublist old →
      Follow old now (entry :: rest)

end Entry

/-! ## Plain engines -/

namespace PlainStore

variable {store : PlainStore} {now : Nat}

theorem others_sublist (store : PlainStore) (key : Key) :
    (store.others key).Sublist store.entries :=
  List.filter_sublist

theorem follow_put (store : PlainStore) (key : Key) (value : Value) (options : EntryOptions)
    (moment : Moment) :
    Entry.Follow store.entries moment.now (store.put key value options moment).2.entries := by
  rw [put]
  split
  · exact .kept (List.Sublist.refl _)
  · have kept := (List.take_sublist (store.capacity - 1) _).trans (store.others_sublist key)
    cases moment.timeOfDay with
    | ok timeOfDay => exact .front rfl kept
    | error fault => exact .kept kept

/-- While hits refresh the access time, an entry that moves to the front has just been accessed. -/
theorem follow_lookup (refreshes : store.refreshOnHit = true) (key : Key) (now : Nat) :
    Entry.Follow store.entries now (store.lookup key now).2.entries := by
  rw [lookup]
  cases store.find? key with
  | none => exact .kept (List.Sublist.refl _)
  | some entry =>
      simp only
      split
      · exact .kept (store.others_sublist key)
      · refine .front ?_ (store.others_sublist key)
        rw [refreshes]
        rfl

theorem follow_lookupSince (refreshes : store.refreshOnHit = true) (key : Key) (since : Int)
    (now : Nat) : Entry.Follow store.entries now (store.lookupSince key since now).2.entries := by
  rw [lookupSince]
  split
  · exact .kept (List.Sublist.refl _)
  · split
    · exact follow_lookup refreshes key now
    · exact .kept (List.Sublist.refl _)

end PlainStore

/-- Every action leaves the entries in their order, but that one may come to the front. -/
theorem PlainEngine.follow_act {engine : PlainEngine}
    (refreshes : engine.store.refreshOnHit = true) (action : Action) :
    Entry.Follow engine.store.entries engine.now (act action engine).2.store.entries := by
  cases action with
  | put key value options => exact PlainStore.follow_put _ key value options engine.moment
  | putIfAbsent key text =>
      rw [act, putIfAbsent]
      split
      · exact .kept (List.Sublist.refl _)
      · exact PlainStore.follow_put _ key { text } {} engine.moment
  | get key | getWithSnapshot key => exact PlainStore.follow_lookup refreshes key engine.now
  | getSince key since => exact PlainStore.follow_lookupSince refreshes key since engine.now
  | remove key => exact .kept (engine.store.others_sublist key)
  | clear => exact .kept (List.nil_sublist _)
  | setCapacity capacity =>
      cases capacity with
      | ofNat capacity => exact .kept (List.take_sublist capacity _)
      | negSucc capacity => exact .kept (List.Sublist.refl _)
  | purge default => exact .kept List.filter_sublist
  | enable interval survive name =>
      rw [act, store_enable]
      exact .kept (List.Sublist.refl _)
  | wake =>
      rcases engine.store_act_wake with same | ⟨now, default, swept⟩
      · exact same ▸ .kept (List.Sublist.refl _)
      · exact swept ▸ .kept List.filter_sublist
  | setRefreshOnHit | disable | rest | ask => exact .kept (List.Sublist.refl _)

/-! ## Engines -/

/-- No entry was accessed before it was stored, or is going to be accessed. -/
def Engine.Stamped (engine : Engine) : Prop :=
  ∀ entry ∈ engine.store.chain.toList,
    entry.createdAt ≤ entry.lastAccessAt ∧ entry.lastAccessAt ≤ engine.now

/-- The further back an entry is in the chain, the longer its last access lies back. -/
def Engine.InAccessOrder (engine : Engine) : Prop :=
  engine.store.chain.toList.Pairwise fun newer older => older.lastAccessAt ≤ newer.lastAccessAt

namespace Event

variable {event : Event}

/-- The event is a purge or a pass of a sweeper. -/
def sweeps (event : Event) : Bool := event.action matches .purge _ || event.pass?.isSome

/-- The clock does not go back behind an access. -/
theorem stamped_after (stamped : event.engine.Stamped) (sound : event.engine.Sound)
    (timely : event.Timely) : event.after.Stamped := by
  have forward := timely.now_le_after
  intro entry member
  have stems := stems_of_mem sound member
  cases stems with
  | kept stored =>
      obtain ⟨created, accessed⟩ := stamped entry stored
      exact ⟨created, Nat.le_trans accessed forward⟩
  | @touched old refresh stored =>
      obtain ⟨created, accessed⟩ := stamped old stored
      cases refresh with
      | true => exact ⟨Nat.le_trans created accessed, forward⟩
      | false => exact ⟨created, Nat.le_trans accessed forward⟩
  | created => exact ⟨Nat.le_refl _, forward⟩

theorem follow_after (sound : event.engine.Sound)
    (refreshes : event.engine.store.refreshOnHit = true) :
    Entry.Follow event.engine.store.chain.toList event.engine.now
      event.after.store.chain.toList := by
  have same := (Engine.act_matches sound.represents event.action).plain_eq
  have refreshesPlain : event.engine.plain.store.refreshOnHit = true := refreshes
  have follow := PlainEngine.follow_act refreshesPlain event.action
  rw [← same] at follow
  exact follow

/-- Whoever comes to the front has been accessed last. -/
theorem inAccessOrder_after (ordered : event.engine.InAccessOrder)
    (stamped : event.engine.Stamped) (sound : event.engine.Sound)
    (refreshes : event.engine.store.refreshOnHit = true) : event.after.InAccessOrder := by
  have follow := follow_after sound refreshes
  rw [Engine.InAccessOrder]
  generalize event.after.store.chain.toList = left at follow ⊢
  cases follow with
  | kept sublist => exact ordered.sublist sublist
  | front accessed sublist =>
      refine List.pairwise_cons.mpr ⟨?_, ordered.sublist sublist⟩
      intro older member
      rw [accessed]
      exact (stamped older (sublist.subset member)).2

/-- A sweep spares some entries and leaves them in their order. -/
theorem exists_toList_of_sweeps (sound : event.engine.Sound) (sweeps : event.sweeps = true) :
    ∃ now default, event.after.store.chain.toList =
      event.engine.store.chain.toList.filter (!·.expired now default) := by
  rw [Event.sweeps, Bool.or_eq_true, Option.isSome_iff_exists] at sweeps
  rcases sweeps with purges | ⟨sweeper, pass⟩
  · rcases event with ⟨engine, action⟩
    cases action with
    | purge default =>
        have same := (Engine.act_matches sound.represents (.purge default)).plain_eq
        exact ⟨engine.now, default, congrArg (·.store.entries) same⟩
    | _ => cases purges
  · exact ⟨_, _, toList_of_pass sound pass⟩

/-- Of entries that only the default limits, a sweep takes out the last ones. -/
theorem exists_suffix_of_sweeps (sound : event.engine.Sound)
    (ordered : event.engine.InAccessOrder) (sweeps : event.sweeps = true)
    (unlimited : ∀ entry ∈ event.engine.store.chain.toList, entry.Unlimited) :
    ∃ gone, event.engine.store.chain.toList = event.after.store.chain.toList ++ gone := by
  obtain ⟨now, default, left⟩ := exists_toList_of_sweeps sound sweeps
  rw [left]
  apply exists_filter_append
  refine ordered.imp_of_mem ?_
  intro newer older newerStored olderStored earlier spared
  rw [Bool.not_eq_true'] at spared ⊢
  exact (unlimited newer newerStored).spared_of_earlier (unlimited older olderStored) earlier spared

end Event

/-- If nothing else limits them, all entries are live. -/
theorem Engine.keysByRecency_of_unlimited {engine : Engine} (now : Nat)
    (unlimited : ∀ entry ∈ engine.store.chain.toList, entry.Unlimited) :
    engine.store.keysByRecency now = engine.store.chain.toList.map (·.key) := by
  rw [Store.keysByRecency, Store.liveEntries,
    List.filter_eq_self.mpr fun entry member => (unlimited entry member).live now]

/-! ## Histories -/

/-- Hits have refreshed the access time throughout these events. -/
def Refreshing (past : List Event) : Prop :=
  ∀ event ∈ past, event.engine.store.refreshOnHit = true

instance (past : List Event) : Decidable (Refreshing past) :=
  inferInstanceAs (Decidable (∀ event ∈ past, event.engine.store.refreshOnHit = true))

namespace Path

variable {first last : Engine} {events : List Event}

theorem stamped (path : Path first events last) (timely : ∀ event ∈ events, event.Timely)
    (sound : first.Sound) (stamped : first.Stamped) : last.Stamped := by
  refine (path.invariant_of_forall (motive := fun engine => engine.Sound ∧ engine.Stamped) ?_
    timely ⟨sound, stamped⟩).2
  intro event now both
  exact ⟨(both.1.run event.action).1, Event.stamped_after both.2 both.1 now⟩

theorem inAccessOrder (path : Path first events last) (timely : ∀ event ∈ events, event.Timely)
    (refreshing : Refreshing events) (sound : first.Sound) (stamped : first.Stamped)
    (ordered : first.InAccessOrder) : last.InAccessOrder := by
  have refreshTimely : ∀ event ∈ events, event.Timely ∧ event.engine.store.refreshOnHit = true :=
    fun event member => ⟨timely event member, refreshing event member⟩
  refine (path.invariant_of_forall
    (motive := fun engine => engine.Sound ∧ engine.Stamped ∧ engine.InAccessOrder) ?_
    refreshTimely ⟨sound, stamped, ordered⟩).2.2
  rintro event ⟨now, refreshes⟩ ⟨sound, stamped, ordered⟩
  exact ⟨(sound.run event.action).1, Event.stamped_after stamped sound now,
    Event.inAccessOrder_after ordered stamped sound refreshes⟩

end Path

/-- What the times of access tell about the order of the chain, in a history that begins with
`first`. -/
structure AccessedInOrder (first : Engine) (history : List Event) : Prop where
  /-- Every entry was last accessed between its insertion and now. -/
  stamped : ∀ past, past <+: history → (first.through past).Stamped
  /-- If hits have refreshed the access time throughout, the last access does not become later from
  the most to the least recently used entry. -/
  ordered : ∀ past, past <+: history → Refreshing past → (first.through past).InAccessOrder
  /-- Then, if nothing but the default limits the life of the entries, what a purge or a pass of a
  sweeper takes out are the last ones, and so are their keys among those in the order of recency. -/
  suffix : ∀ past event, past ++ [event] <+: history → Refreshing past → event.sweeps = true →
    (∀ entry ∈ event.engine.store.chain.toList, entry.Unlimited) →
      ∃ gone, event.engine.store.chain.toList = event.after.store.chain.toList ++ gone ∧
        event.engine.store.keysByRecency event.engine.now =
          event.after.store.keysByRecency event.after.now ++ gone.map (·.key)

/-- Whatever a program does, the chain is in the order of access while hits refresh the access
time. -/
theorem Origin.accessed_in_order (origin : Origin) (calls : List Call) :
    AccessedInOrder origin.blank (origin.history calls) := by
  have path := origin.path_history calls
  have timely := origin.timely_history calls
  have empty : origin.blank.store.chain.toList = [] := by
    cases origin with
    | create | ofConfig => exact Chain.toList_empty
  have stamped : origin.blank.Stamped := by
    intro entry member
    simp [empty] at member
  have ordered : origin.blank.InAccessOrder := by
    rw [Engine.InAccessOrder, empty]
    exact .nil
  have timelyPast (past : List Event) (reached : past <+: origin.history calls) :
      ∀ event ∈ past, event.Timely := fun event member => timely event (reached.subset member)
  constructor
  case stamped =>
    intro past reached
    exact (path.path_through reached).stamped (timelyPast past reached) origin.sound_blank stamped
  case ordered =>
    intro past reached refreshing
    exact (path.path_through reached).inAccessOrder (timelyPast past reached) refreshing
      origin.sound_blank stamped ordered
  case suffix =>
    intro past event reached refreshing sweeps unlimited
    have toEvent := (path.path_through reached).split.1
    have sound := origin.sound_blank.of_path toEvent
    have timelyBefore := timelyPast past ((List.prefix_append past [event]).trans reached)
    have inOrder := toEvent.inAccessOrder timelyBefore refreshing origin.sound_blank stamped ordered
    obtain ⟨gone, split⟩ := Event.exists_suffix_of_sweeps sound inOrder sweeps unlimited
    have unlimitedAfter : ∀ entry ∈ event.after.store.chain.toList, entry.Unlimited := by
      intro entry member
      apply unlimited
      rw [split]
      exact List.mem_append_left gone member
    refine ⟨gone, split, ?_⟩
    rw [Engine.keysByRecency_of_unlimited _ unlimited,
      Engine.keysByRecency_of_unlimited _ unlimitedAfter, split, List.map_append]

/-- Stored first but used last, an entry is spared by a purge that takes out the other one. -/
theorem Origin.accessed_in_order_spared_hit :
    let origin := Origin.create 2 0
    let calls := [Call.put "a" ⟨"1", false⟩ {}, .put "b" ⟨"2", false⟩ {}, .advance 10, .get "a",
      .purge (some 5)]
    let history := origin.history calls
    AccessedInOrder origin.blank history ∧ Refreshing history.dropLast ∧
      ∃ purge, history.dropLast ++ [purge] = history ∧ purge.sweeps = true ∧
        (∀ entry ∈ purge.engine.store.chain.toList, entry.Unlimited) ∧
        purge.engine.store.keysByRecency 10 = ["a", "b"] ∧
        purge.after.store.keysByRecency 10 = ["a"] := by
  intro origin calls history
  have removed : ∃ purge ∈ history.getLast?, purge.sweeps = true ∧
      (∀ entry ∈ purge.engine.store.chain.toList, entry.Unlimited) ∧
      purge.engine.store.keysByRecency 10 = ["a", "b"] ∧
      purge.after.store.keysByRecency 10 = ["a"] := by decide +kernel
  obtain ⟨purge, last, facts⟩ := removed
  exact ⟨origin.accessed_in_order calls, by decide +kernel, purge,
    List.dropLast_append_getLast? purge last, facts⟩

end RecencyCache
