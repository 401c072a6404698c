import RiffDb.ConflictSafety
import Mathlib.Data.Set.Card

/-!
# Accounting of the conflict manager

The counter of queued acquisitions is the number of those in the table that still wait, and the
shards list exactly the keys that are held or queued for, within their limits. An operation changes
one record and the states of its keys: the counter follows the record, the shards follow the keys.
-/

namespace ConflictAccounting

open ConflictManager ConflictLeases ConflictSafety Runs List Function

universe u

variable {κ : Type u}

/-- The acquisitions in the table that still wait. -/
def waitingIds (waiters : Nat → Option (Waiter κ)) : Set Nat :=
  {id | ∃ waiter, waiters id = some waiter ∧ waiter.registered = true ∧ waiter.state = .waiting}

/-- A changed record joins or leaves the waiting ones. -/
theorem waitingIds_update (waiters : Nat → Option (Waiter κ)) (id : Nat) (record : Waiter κ) :
    waitingIds (update waiters id (some record)) =
      if record.registered = true ∧ record.state = .waiting then insert id (waitingIds waiters)
      else waitingIds waiters \ {id} := by
  ext other
  by_cases same : other = id
  · subst same
    split <;> simp_all [waitingIds]
  · split <;> simp [waitingIds, same]

structure Counted (manager : Manager κ) : Prop where
  flags : ∀ id waiter, manager.waiters id = some waiter →
    (waiter.queued = true ↔ waiter.registered = true ∧ waiter.state = .waiting)
  count : (manager.queuedWaiters : ℕ∞) = (waitingIds manager.waiters).encard
  within : manager.queuedWaiters ≤ manager.config.maxWaiters

/-- Entries for exactly the keys that are held or queued for, within the limits. -/
structure Listed (config : ConflictManagerConfig) (shardFor : κ → Nat) (table : κ → KeyState)
    (entries : Finset κ) : Prop where
  present : ∀ key, key ∈ entries ↔ (table key).holder ≠ none ∨ (table key).waiters ≠ []
  shards : ∀ shard, (entries.filter (shardFor · = shard)).card ≤ config.maxKeysPerShard
  queues : ∀ key, (table key).waiters.length ≤ config.maxWaitersPerKey

structure Accounted (manager : Manager κ) : Prop where
  counted : Counted manager
  listed : Listed manager.config manager.shardFor manager.table manager.entries

section Counter

variable {manager next : Manager κ} {id : Nat} {record : Waiter κ} (counted : Counted manager)
  (isNext : next.waiters = update manager.waiters id (some record))

include counted

/-- Outside the queues the flag is down. -/
theorem Counted.unqueued {waiter : Waiter κ} (found : manager.waiters id = some waiter)
    (past : waiter.state ≠ .waiting) : waiter.queued = false := by
  rw [← Bool.not_eq_true, counted.flags id waiter found]
  exact fun both => past both.2

include isNext

theorem Counted.flags_update
    (flag : record.queued = true ↔ record.registered = true ∧ record.state = .waiting)
    (other : Nat) (waiter : Waiter κ) (found : next.waiters other = some waiter) :
    waiter.queued = true ↔ waiter.registered = true ∧ waiter.state = .waiting := by
  rw [isNext] at found
  by_cases same : other = id
  · rw [same, update_self] at found
    cases found
    exact flag
  · rw [update_of_ne same] at found
    exact counted.flags other waiter found

/-- A record that does not wait, whether it did before or not. -/
theorem Counted.leave (idle : record.queued = false)
    (past : ¬ (record.registered = true ∧ record.state = .waiting))
    (sameConfig : next.config = manager.config) (count : next.queuedWaiters =
      if (manager.waiters id).any Waiter.queued then manager.queuedWaiters - 1
      else manager.queuedWaiters) :
    Counted next := by
  have waited :
      id ∈ waitingIds manager.waiters ↔ (manager.waiters id).any Waiter.queued = true := by
    cases found : manager.waiters id with
    | none => simp [waitingIds, found]
    | some waiter => simp [waitingIds, found, counted.flags id waiter found]
  refine ⟨counted.flags_update isNext (by simp [idle, past]), ?_, ?_⟩
  · rw [isNext, waitingIds_update, if_neg past, count]
    by_cases queued : (manager.waiters id).any Waiter.queued = true
    · rw [if_pos queued, Set.encard_sdiff_singleton_of_mem (waited.mpr queued), ← counted.count]
      rfl
    · rw [if_neg queued, Set.sdiff_singleton_eq_self (mt waited.mp queued), counted.count]
  · rw [sameConfig, count]
    have within := counted.within
    split <;> omega

end Counter

variable [LinearOrder κ]

section Tables

variable {manager : Manager κ} {keys : List κ}
  (listed : Listed manager.config manager.shardFor manager.table manager.entries)
    (distinct : keys.Nodup)
  (change : KeyState → KeyState)

include listed distinct

/-- No queue grows, and the entries are some of those before. -/
theorem Listed.shrink {rest : Finset κ} (fewer : rest ⊆ manager.entries)
    (shorter : ∀ state, (change state).waiters.length ≤ state.waiters.length)
    (present : ∀ key, key ∈ rest ↔ (updateKeys keys change manager.table key).holder ≠ none ∨
      (updateKeys keys change manager.table key).waiters ≠ []) :
    Listed manager.config manager.shardFor (updateKeys keys change manager.table) rest := by
  refine ⟨present, fun shard => ?_, fun key => ?_⟩
  · exact (Finset.card_le_card (Finset.filter_subset_filter _ fewer)).trans (listed.shards shard)
  · rw [updateKeys_apply distinct]
    split
    · exact (shorter _).trans (listed.queues key)
    · exact listed.queues key

/-- A finished acquisition takes out those of its keys that became idle. -/
theorem Listed.cleanup (shorter : ∀ state, (change state).waiters.length ≤ state.waiters.length)
    (kept : ∀ state, (change state).holder ≠ none → state.holder ≠ none) :
    Listed manager.config manager.shardFor (updateKeys keys change manager.table)
      (manager.entries.filter fun key =>
        ¬ (key ∈ keys ∧ (updateKeys keys change manager.table key).idle = true)) := by
  refine listed.shrink distinct change (Finset.filter_subset _ _) shorter fun key => ?_
  rw [Finset.mem_filter, listed.present, updateKeys_apply distinct]
  split
  · next inside =>
    have held := kept (manager.table key)
    have queued := shorter (manager.table key)
    by_cases empty : (manager.table key).waiters = []
    · simp_all [KeyState.idle]
    · simp_all [KeyState.idle, imp_iff_not_or]
  · next outside => simp [outside]

/-- New entries for keys that fit into their shards. -/
theorem Listed.extend (room : manager.overflowsShard keys = false)
    (busy : ∀ state, (change state).holder ≠ none ∨ (change state).waiters ≠ [])
    (short :
      ∀ key ∈ keys, (change (manager.table key)).waiters.length ≤ manager.config.maxWaitersPerKey) :
    Listed manager.config manager.shardFor (updateKeys keys change manager.table)
      (manager.entries ∪ keys.toFinset) := by
  refine ⟨fun key => ?_, fun shard => ?_, fun key => ?_⟩
  · rw [Finset.mem_union, mem_toFinset, listed.present, updateKeys_apply distinct]
    split
    · next inside => exact iff_of_true (.inr inside) (busy _)
    · next outside => simp [outside]
  · let added := (keys.filter (· ∉ manager.entries)).filter (manager.shardFor · = shard)
    have split : (manager.entries ∪ keys.toFinset).filter (manager.shardFor · = shard) ⊆
        manager.entries.filter (manager.shardFor · = shard) ∪ added.toFinset := by
      intro key
      simp only [Finset.mem_filter, Finset.mem_union, mem_toFinset, added, mem_filter,
        decide_eq_true_eq]
      tauto
    have bound := (Finset.card_le_card split).trans
      ((Finset.card_union_le _ _).trans (Nat.add_le_add_left (toFinset_card_le added) _))
    cases isAdded : added with
    | nil =>
      rw [isAdded] at bound
      exact bound.trans (listed.shards shard)
    | cons key rest =>
      obtain ⟨isNew, isShard⟩ := mem_filter.mp (show key ∈ added from isAdded ▸ mem_cons_self)
      have fits := any_eq_false.mp room key isNew
      rw [of_decide_eq_true isShard, decide_eq_true_eq, Nat.not_lt] at fits
      exact bound.trans fits
  · rw [updateKeys_apply distinct]
    split
    · next inside => exact short key inside
    · exact listed.queues key

end Tables

namespace Accounted

variable {manager : Manager κ} (accounted : Accounted manager) {id : Nat} {waiter : Waiter κ}

include accounted

theorem enqueue (found : manager.waiters id = some waiter)
    (unregistered : waiter.registered = false)
    (waits : waiter.state = .waiting) {result : Manager κ × Bool}
    (registered : manager.register id waiter = .ok result) :
      Accounted (manager.enqueue id waiter) := by
  obtain ⟨short, fits, room, _⟩ := register_eq_ok registered
  refine ⟨⟨accounted.counted.flags_update rfl (by simp [waits]), ?_, room⟩, accounted.listed.extend
    waiter.distinct (fun state => { state with waiters := state.waiters ++ [id] }) fits (by simp)
    (by simpa using short)⟩
  have outside : id ∉ waitingIds manager.waiters := by simp [waitingIds, found, unregistered]
  change ((manager.queuedWaiters + 1 : Nat) : ℕ∞) = (waitingIds (update _ _ _)).encard
  rw [waitingIds_update, if_pos ⟨rfl, waits⟩, Set.encard_insert_of_notMem outside,
    ← accounted.counted.count]
  rfl

theorem tryGrant (id : Nat) : Accounted (manager.tryGrant id).1 := by
  unfold Manager.tryGrant
  split
  · exact accounted
  · next waiter found =>
    split
    · next passes =>
      rw [Manager.grant, finishQueued_eq rfl]
      refine ⟨accounted.counted.leave rfl rfl (by simp) rfl (by rw [found]; rfl),
        accounted.listed.shrink waiter.distinct
        (fun state => ⟨some id, state.waiters.tail⟩) subset_rfl
          (by simp) fun key => ?_⟩
      change key ∈ manager.entries ↔ _
      rw [accounted.listed.present, updateKeys_apply waiter.distinct]
      split
      · next inside =>
        have front := all_eq_true.mp passes.2 key inside
        cases queue : (manager.table key).waiters <;> simp_all
      · rfl
    · exact accounted

end Accounted

variable {system next : System κ}

theorem accounted_moves (sound : Sound system) (accounted : Accounted system.manager)
    (moves : Moves system next) : Accounted next.manager := by
  cases moves with
  | stay => exact accounted
  | acquire available keys =>
    refine ⟨accounted.counted.leave rfl rfl (by simp) rfl ?_, accounted.listed⟩
    rw [sound.unused available _ le_rfl]
    rfl
  | register found unregistered registered =>
    rw [(register_eq_ok registered).2.2.2]
    exact (accounted.enqueue found unregistered (sound.outside _ _ found unregistered)
      registered).tryGrant _
  | spend available => exact ⟨⟨accounted.counted.1, accounted.counted.2, accounted.counted.3⟩,
      accounted.listed⟩
  | hold available keys idle room =>
    refine ⟨accounted.counted.leave rfl rfl (by simp) rfl ?_, accounted.listed.extend keys.2.2
      (fun state => { state with holder := some system.manager.nextWaiterId }) room (by simp)
      fun key _ => accounted.listed.queues key⟩
    rw [sound.unused available _ le_rfl]
    rfl
  | grant id => exact accounted.tryGrant id
  | consume found granted =>
    have down := accounted.counted.unqueued found (by rw [granted]; decide)
    refine ⟨accounted.counted.leave rfl down (by simp) rfl ?_, accounted.listed⟩
    rw [found, Option.any_some, down]
    rfl
  | @leave id waiter target found waits past free =>
    rw [Manager.leaveQueues, finishQueued_eq rfl]
    refine ⟨accounted.counted.leave rfl rfl (by simp [past]) rfl ?_,
      accounted.listed.cleanup waiter.distinct
      (fun state => { state with waiters := state.waiters.filter (· ≠ id) })
      (fun state => length_filter_le _ _) fun _ held => held⟩
    rw [(entered_eq_some.mp found).1]
    rfl
  | @drop id waiter target found held past free =>
    have down := accounted.counted.unqueued found (not_waiting_of_holds held)
    refine ⟨accounted.counted.leave rfl down (by simp [past]) rfl ?_,
      accounted.listed.cleanup waiter.distinct
      (fun state => if state.holder = some id then { state with holder := none } else state)
      (fun state => ?_)
      fun state => ?_⟩
    · rw [found, Option.any_some, down]
      rfl
    · split <;> exact le_rfl
    · split <;> simp_all

theorem accounted_after (config : ConflictManagerConfig) (shardFor : κ → Nat)
    (events : List (Event κ)) :
    Sound (System.after config shardFor events) ∧
      Accounted (System.after config shardFor events).manager := by
  refine run_invariant (P := fun state => Sound state ∧ Accounted state.manager) ?_
    ⟨Sound.start config shardFor, ⟨nofun, ?_, Nat.zero_le _⟩, ?_, fun _ => Nat.zero_le _, fun _ =>
      Nat.zero_le _⟩
    events
  · rintro state event ⟨sound, accounted⟩
    exact ⟨sound_moves sound (moves_step state event),
      accounted_moves sound accounted (moves_step state event)⟩
  · simp [waitingIds, System.start, Manager.new]
  · simp [System.start, Manager.new, KeyState.default]

/-- In every reachable state the counter of queued acquisitions is the number of those registered
that still wait, the entries of the shards are the keys held or queued for, and the limits hold.
With every registered acquisition finished nothing is left. A refused registration changes nothing;
a refused immediate acquisition spends at most an identifier. -/
theorem accounting_exact (config : ConflictManagerConfig) (shardFor : κ → Nat)
    (events : List (Event κ)) :
    let system := System.after config shardFor events
    let manager := system.manager
    ((manager.queuedWaiters : ℕ∞) = (waitingIds manager.waiters).encard ∧
      manager.queuedWaiters ≤ manager.config.maxWaiters) ∧
    (∀ key, key ∈ manager.entries ↔
      (manager.table key).holder ≠ none ∨ (manager.table key).waiters ≠ []) ∧
    ((∀ id waiter, entered manager.waiters id = some waiter →
      waiter.state ≠ .waiting ∧ holds waiter.state = false) → manager.entries = ∅) ∧
    (∀ shard, manager.shardLen shard ≤ manager.config.maxKeysPerShard) ∧
    (∀ key, (manager.table key).waiters.length ≤ manager.config.maxWaitersPerKey) ∧
    (∀ id waiter reason, manager.waiters id = some waiter →
      manager.register id waiter = .error reason → system.step (.register id) = system) ∧
    ∀ keys cancelled expired,
      (∀ id, (manager.tryAcquireMut keys cancelled expired).2 ≠ .ok (some id)) →
      { (manager.tryAcquireMut keys cancelled expired).1 with nextWaiterId :=
        manager.nextWaiterId } = manager := by
  intro system manager
  obtain ⟨sound, counted, listed⟩ := accounted_after config shardFor events
  refine ⟨⟨counted.count, counted.within⟩, listed.present, fun finished => ?_, listed.shards,
    listed.queues, ?_, ?_⟩
  · refine Finset.eq_empty_of_forall_notMem fun key member => ?_
    rcases (listed.present key).mp member with held | queued
    · obtain ⟨id, isHolder⟩ := Option.ne_none_iff_exists'.mp held
      obtain ⟨waiter, found, _, holding⟩ := (holder_iff sound key id).mp isHolder
      have settled := finished id waiter
        (sound.entered_of_past found (not_waiting_of_holds holding))
      rw [holding] at settled
      cases settled.2
    · obtain ⟨id, inside⟩ := exists_mem_of_ne_nil _ queued
      obtain ⟨waiter, found, waits, _⟩ := (queued_iff sound key id).mp inside
      exact (finished id waiter found).1 waits
  · intro id waiter reason found refused
    change system.manager.waiters id = some waiter at found
    change system.manager.register id waiter = .error reason at refused
    simp only [System.step, found, refused, ite_self]
  · intro keys cancelled expired refused
    rcases tryAcquireMut_cases manager keys cancelled expired with
      ⟨reason, same⟩ | ⟨_, result, _, spent⟩ | ⟨_, checked, _, _, _, success⟩
    · rw [same]
    · rw [spent]
      rfl
    · rw [success] at refused
      exact absurd rfl (refused _)

/-- An immediate acquisition of a held key is refused and spends its identifier. -/
theorem refused_try_spends_identifier :
    let manager := (System.after smallConfig (· % 2) [.tryAcquireMut [1] false false]).manager
    (manager.tryAcquireMut [1] false false).2 = .ok none ∧
      (manager.tryAcquireMut [1] false false).1.nextWaiterId ≠ manager.nextWaiterId := by
  decide

end ConflictAccounting
