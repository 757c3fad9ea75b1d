import RecencyCache.Proofs.Lookups

/-!
# Last accesses

An entry is idle since its last access. This is the latest hit on its key that was made while hits
refreshed the access time, or the event that stored the entry if there has been none since then. What
an entry has for its last access is the time of that event.
-/

namespace RecencyCache

/-- The later entry is the earlier one, accessed at `now` if `refreshed` holds and perhaps hit. -/
structure Entry.Accessed (earlier later : Entry) (now : Nat) (refreshed : Bool) : Prop where
  touched : earlier.Touched later
  lastAccessAt : later.lastAccessAt = if refreshed then now else earlier.lastAccessAt

theorem Entry.accessed_self (entry : Entry) (now : Nat) : entry.Accessed entry now false :=
  ⟨.refl entry, rfl⟩

/-! ## Plain stores -/

namespace PlainStore

variable {store : PlainStore} {key : Key} {now : Nat} {entry : Entry}

/-- What is left is what was there, but that the entry that was found has been accessed if hits
refresh. -/
def Accesses (store left : PlainStore) (now : Nat) (found : Option Entry) : Prop :=
  ∀ entry ∈ left.entries, ∃ old ∈ store.entries,
    old.Accessed entry now (store.refreshOnHit && found.map (·.key) == some entry.key)

theorem accesses_of_subset {left : PlainStore} (kept : left.entries ⊆ store.entries) (now : Nat) :
    Accesses store left now none := by
  intro entry member
  refine ⟨entry, kept member, ?_⟩
  simpa using entry.accessed_self now

theorem accesses_lookup (store : PlainStore) (key : Key) (now : Nat) :
    Accesses store (store.lookup key now).2 now (store.live? key now) := by
  cases found : store.live? key now with
  | none =>
      rw [lookup_of_dead found]
      exact accesses_of_subset (fun entry member => (mem_others_iff.mp member).1) now
  | some live =>
      obtain ⟨stored, -⟩ := live?_eq_some_iff.mp found
      rw [lookup_eq_of_live found]
      intro entry member
      rcases List.mem_cons.mp member with rfl | other
      · exact ⟨live, mem_of_find? stored, live.touched_touch now _, by simp [Entry.touch]⟩
      · obtain ⟨member, different⟩ := mem_others_iff.mp other
        have unfound : (live.key == entry.key) = false := by
          simpa [key_of_find? stored] using different.symm
        refine ⟨entry, member, ?_⟩
        simpa [unfound] using entry.accessed_self now

theorem accesses_lookupSince (store : PlainStore) (key : Key) (since : Int) (now : Nat) :
    Accesses store (store.lookupSince key since now).2 now
      ((store.live? key now).filter (since ≤ ·.createdAt)) := by
  rcases store.lookupSince_cases key since now with ⟨looked, found⟩ | ⟨missed, found⟩
  · rw [looked, found]
    exact store.accesses_lookup key now
  · rw [missed, found]
    exact accesses_of_subset (List.Subset.refl _) now

end PlainStore

/-! ## Events -/

namespace Event

variable {event : Event} {entry : Entry}

/-- The event is a hit on the key that refreshes the access time. -/
def refreshes (event : Event) (key : Key) : Bool :=
  event.engine.store.refreshOnHit && event.hit? == some key

/-- The last access to an entry of the key, given the events since its insertion. -/
def lastAccess (insertion : Event) (since : List Event) (key : Key) : Event :=
  (since.filter (·.refreshes key)).getLast?.getD insertion

theorem lastAccess_concat (insertion : Event) (since : List Event) (event : Event) (key : Key) :
    insertion.lastAccess (since ++ [event]) key =
      if event.refreshes key then event else insertion.lastAccess since key := by
  rw [lastAccess, List.filter_append, List.filter_singleton]
  cases event.refreshes key with
  | true => simp
  | false => simp [lastAccess]

/-- An entry that the event has just stored was last accessed then. -/
theorem Inserts.lastAccessAt_eq {text : String} {lifetime : Option Nat}
    (inserts : event.Inserts entry.key text lifetime) (sound : event.engine.Sound)
    (member : entry ∈ event.after.store.chain.toList) :
    entry.lastAccessAt = event.engine.now := by
  obtain ⟨value, options, room, -, left⟩ := inserts.exists_put sound
  have member : entry ∈ event.after.plain.store.entries := member
  rw [left] at member
  rcases PlainStore.mem_put member with ⟨-, timeOfDay, -, same⟩ | ⟨-, different⟩
  · rw [same]
    rfl
  · exact absurd rfl (different room)

/-- An entry that is not displaced has been accessed if the event is a hit that refreshes it. -/
theorem exists_accessed (sound : event.engine.Sound)
    (member : entry ∈ event.after.store.chain.toList) (kept : ¬event.Displaces entry.key) :
    ∃ old ∈ event.engine.store.chain.toList,
      old.Accessed entry event.engine.now (event.refreshes entry.key) := by
  rw [refreshes, hit?]
  cases looks : event.lookup? with
  | none =>
      have unclear : event.action ≠ .clear := fun clears => kept (clear_displaces clears _)
      rw [found?_eq_none looks]
      refine ⟨entry, (uncounted_after sound looks unclear).2.2 entry member kept, ?_⟩
      simpa using entry.accessed_self event.engine.now
  | some key =>
      rcases event with ⟨engine, action⟩
      have member : entry ∈ (PlainEngine.act action engine.plain).2.store.entries :=
        (Engine.act_matches sound.represents action).plain_eq ▸ member
      cases action with
      | get key | getWithSnapshot key =>
          rw [found?, ← Engine.live?_plain sound.represents]
          exact engine.plain.store.accesses_lookup key engine.now entry member
      | getSince key since =>
          rw [found?, ← Engine.live?_plain sound.represents]
          exact engine.plain.store.accesses_lookupSince key since engine.now entry member
      | _ => cases looks

end Event

/-! ## Histories -/

/-- Each entry goes back to an event that stored it, and has the time of its last access since
then. -/
def Engine.Dated (engine : Engine) (past : List Event) : Prop :=
  ∀ entry ∈ engine.store.chain.toList, ∃ older insertion newer,
    past = older ++ insertion :: newer ∧ insertion.Explains newer entry ∧
      entry.lastAccessAt = (insertion.lastAccess newer entry.key).engine.now

/-- An event may be the last access. -/
theorem Event.dated_after (event : Event) {past : List Event} (sound : event.engine.Sound)
    (dated : event.engine.Dated past) : event.after.Dated (past ++ [event]) := by
  intro entry member
  rcases event.explains_or_kept sound.represents member with explains | ⟨kept, -⟩
  · obtain ⟨lifetime, inserts, -⟩ := explains.inserts
    exact ⟨past, event, [], rfl, explains, inserts.lastAccessAt_eq sound member⟩
  · obtain ⟨old, stored, accessed⟩ := exists_accessed sound member kept
    obtain ⟨older, insertion, newer, split, explains, last⟩ := dated old stored
    refine ⟨older, insertion, newer ++ [event], ?_, (explains.touched accessed.touched).snoc kept,
      ?_⟩
    · rw [split, List.append_assoc, List.cons_append]
    · rw [accessed.lastAccessAt, lastAccess_concat, last, accessed.touched.key]
      split <;> rfl

/-- Along a path, its events are added. -/
theorem Engine.Dated.of_path {first last : Engine} {past events : List Event}
    (sound : first.Sound) (dated : first.Dated past) (path : Path first events last) :
    last.Dated (past ++ events) :=
  sound.accumulates (motive := Engine.Dated) (fun event _ => event.dated_after) path dated

theorem Origin.dated (origin : Origin) : origin.engine.Dated [] := by
  intro entry member
  simp [origin.toList_eq_nil] at member

end RecencyCache
