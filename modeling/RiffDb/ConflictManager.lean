import RiffDb.FifoLocks
import RiffDb.Runs
import Mathlib.Data.Finset.Card
import Mathlib.Data.List.Dedup
import Mathlib.Data.List.Sort

/-!
# The conflict manager

A sharded table of exclusive leases on conflict keys. An acquisition is queued on all of its keys
under the locks of their shards, and is granted all of them when it is at the front of every queue
and none is held. The grant is consumed by a compare-and-swap outside the locks. Finishing
acquisitions collect the fronts of their queues under the locks and promote them after the locks are
dropped.

Every definition is one critical section or one atomic operation. The hash that assigns a key to a
shard is arbitrary.
-/

namespace ConflictManager

open Runs

universe u

def maxCommandConflictKeysV1 : Nat := 256

inductive WaiterState where
  | waiting
  | granted
  | consumed
  | cancelled
  | timedOut
  | abandoned
  | released
deriving DecidableEq, Repr

inductive AbortKind where
  | cancelled
  | deadlineExceeded
  | abandoned
deriving DecidableEq, Repr

def AbortKind.waiterState : AbortKind → WaiterState
  | .cancelled => .cancelled
  | .deadlineExceeded => .timedOut
  | .abandoned => .abandoned

inductive ConflictError where
  | inputKeyCountExceeded (actual maximum : Nat)
  | emptyKeySet
  | tooManyKeys (actual maximum : Nat)
  | identifierExhausted
  | cancelled
  | deadlineExceeded
  | keyQueueCapacityExceeded (maximum : Nat)
  | tableCapacityExceeded (maximumPerShard : Nat)
  | waiterCapacityExceeded (maximum : Nat)
deriving DecidableEq, Repr

/-- Runtime limits within their hard process bounds. -/
structure ConflictManagerConfig where
  shardCount : Nat
  maxKeysPerAcquisition : Nat
  maxKeysPerShard : Nat
  maxWaiters : Nat
  maxWaitersPerKey : Nat
  shardCountBound : 0 < shardCount ∧ shardCount ≤ 256
  keysPerAcquisitionBound :
    0 < maxKeysPerAcquisition ∧ maxKeysPerAcquisition ≤ maxCommandConflictKeysV1
  keysPerShardBound : 0 < maxKeysPerShard ∧ maxKeysPerShard ≤ 4096
  waitersBound : 0 < maxWaiters ∧ maxWaiters ≤ 65536
  waitersPerKeyBound : 0 < maxWaitersPerKey ∧ maxWaitersPerKey ≤ 4096
  perKeyWithinTotal : maxWaitersPerKey ≤ maxWaiters

structure KeyState where
  holder : Option Nat
  waiters : List Nat
deriving DecidableEq

/-- The state of a key without an entry. -/
def KeyState.default : KeyState := ⟨none, []⟩

def KeyState.idle (state : KeyState) : Bool := state.holder.isNone && state.waiters.isEmpty

/-- One acquisition. `registered` says that it has entered the table, by registration or by an
immediate acquisition that succeeded. -/
structure Waiter (κ : Type u) where
  keys : List κ
  state : WaiterState
  queued : Bool
  registered : Bool
  nonempty : keys ≠ []
  distinct : keys.Nodup

/-- The shard tables, the acquisitions by identifier and the two counters. A key without an
entry reads as the default state; `entries` says which keys have one. -/
structure Manager (κ : Type u) where
  config : ConflictManagerConfig
  shardFor : κ → Nat
  table : κ → KeyState
  entries : Finset κ
  waiters : Nat → Option (Waiter κ)
  queuedWaiters : Nat
  nextWaiterId : Nat

variable {κ : Type u} [LinearOrder κ]

/-- A loop over distinct keys that changes each key's state. -/
def updateKeys (keys : List κ) (change : KeyState → KeyState) (table : κ → KeyState) :
    κ → KeyState :=
  keys.foldl (fun table key => Function.update table key (change (table key))) table

theorem updateKeys_apply {keys : List κ} (distinct : keys.Nodup) (change : KeyState → KeyState)
    (table : κ → KeyState) (key : κ) :
    updateKeys keys change table key = if key ∈ keys then change (table key) else table key := by
  induction keys generalizing table with
  | nil => rfl
  | cons first keys ih =>
    obtain ⟨fresh, rest⟩ := List.nodup_cons.mp distinct
    have unfolded : updateKeys (first :: keys) change table =
        updateKeys keys change (Function.update table first (change (table first))) := rfl
    rw [unfolded, ih rest]
    by_cases same : key = first
    · subst same
      simp [fresh]
    · simp [same]

namespace Manager

variable (manager : Manager κ)

/-- Change the record of one acquisition. -/
def setWaiter (id : Nat) (waiter : Waiter κ) : Manager κ :=
  { manager with waiters := Function.update manager.waiters id (some waiter) }

/-- Zero is the exhausted sentinel; the largest identifier is still handed out once. -/
def advanceWaiterId : Manager κ :=
  { manager with
    nextWaiterId := if manager.nextWaiterId + 1 < 2 ^ 64 then manager.nextWaiterId + 1 else 0 }

/-- The keys of an acquisition: not empty and without repetition. -/
abbrev KeySet (κ : Type u) : Type u := { keys : List κ // keys ≠ [] ∧ keys.Nodup }

/-- Sorted, deduplicated keys, after the checks on their number. -/
def checkedKeys (keys : List κ) : Except ConflictError (KeySet κ) :=
  if maxCommandConflictKeysV1 < keys.length then
    .error (.inputKeyCountExceeded keys.length maxCommandConflictKeysV1)
  else
    let canonical := (keys.insertionSort (· ≤ ·)).dedup
    if empty : canonical = [] then .error .emptyKeySet
    else if manager.config.maxKeysPerAcquisition < canonical.length then
      .error (.tooManyKeys canonical.length manager.config.maxKeysPerAcquisition)
    else .ok ⟨canonical, empty, List.nodup_dedup _⟩

/-- `Acquisition::new`: a waiting acquisition that is in no queue yet. -/
def newAcquisition (keys : List κ) : Except ConflictError (Manager κ) :=
  match manager.checkedKeys keys with
  | .error reason => .error reason
  | .ok keys =>
    if manager.nextWaiterId = 0 then .error .identifierExhausted
    else .ok (manager.advanceWaiterId.setWaiter manager.nextWaiterId
      ⟨keys.1, .waiting, false, false, keys.2.1, keys.2.2⟩)

/-- The live entries of a shard. -/
def shardLen (shard : Nat) : Nat :=
  (manager.entries.filter fun key => manager.shardFor key = shard).card

/-- Some shard would exceed its table with the entries these keys add. -/
def overflowsShard (keys : List κ) : Bool :=
  let added := keys.filter (· ∉ manager.entries)
  added.any fun key =>
    manager.config.maxKeysPerShard < manager.shardLen (manager.shardFor key) +
      (added.filter fun other => manager.shardFor other = manager.shardFor key).length

/-- Leave the count of queued acquisitions, once. -/
def finishQueued (id : Nat) : Manager κ :=
  match manager.waiters id with
  | none => manager
  | some waiter =>
    if waiter.queued then
      { manager.setWaiter id { waiter with queued := false } with
        queuedWaiters := manager.queuedWaiters - 1 }
    else manager

/-- The critical section of an immediate acquisition that finds every key idle. -/
def holdAll (id : Nat) (keys : KeySet κ) : Manager κ :=
  { manager.setWaiter id ⟨keys.1, .consumed, false, true, keys.2.1, keys.2.2⟩ with
    table := updateKeys keys.1 (fun state => { state with holder := some id }) manager.table
    entries := manager.entries ∪ keys.1.toFinset }

/-- `try_acquire_mut`. The identifier is spent even when the acquisition does not succeed. -/
def tryAcquireMut (keys : List κ) (cancelled expired : Bool) :
    Manager κ × Except ConflictError (Option Nat) :=
  match manager.checkedKeys keys with
  | .error reason => (manager, .error reason)
  | .ok keys =>
    if cancelled then (manager, .error .cancelled)
    else if expired then (manager, .error .deadlineExceeded)
    else if manager.nextWaiterId = 0 then (manager, .error .identifierExhausted)
    else if keys.1.any fun key => !(manager.table key).idle then
      (manager.advanceWaiterId, .ok none)
    else if manager.overflowsShard keys.1 then
      (manager.advanceWaiterId, .error (.tableCapacityExceeded manager.config.maxKeysPerShard))
    else
      (manager.advanceWaiterId.holdAll manager.nextWaiterId keys, .ok (some manager.nextWaiterId))

def eligible (id : Nat) (waiter : Waiter κ) : Bool :=
  waiter.keys.all fun key =>
    (manager.table key).holder.isNone && (manager.table key).waiters.head? == some id

/-- Take the front of every queue and hold every key. -/
def grant (id : Nat) (waiter : Waiter κ) : Manager κ :=
  Manager.finishQueued
    { manager.setWaiter id { waiter with state := .granted } with
      table := updateKeys waiter.keys (fun state => ⟨some id, state.waiters.tail⟩) manager.table }
    id

/-- `try_grant` and `try_grant_locked`: nothing happens unless every key is free and the
acquisition is next for all of them. -/
def tryGrant (id : Nat) : Manager κ × Bool :=
  match manager.waiters id with
  | none => (manager, false)
  | some waiter =>
    if waiter.state = .waiting ∧ manager.eligible id waiter = true then
      (manager.grant id waiter, true)
    else (manager, false)

/-- Join the back of every queue. -/
def enqueue (id : Nat) (waiter : Waiter κ) : Manager κ :=
  { manager.setWaiter id { waiter with queued := true, registered := true } with
    table := updateKeys waiter.keys
      (fun state => { state with waiters := state.waiters ++ [id] }) manager.table
    entries := manager.entries ∪ waiter.keys.toFinset
    queuedWaiters := manager.queuedWaiters + 1 }

/-- `register`: three capacity checks, then the queues, then a first attempt at a grant. -/
def register (id : Nat) (waiter : Waiter κ) : Except ConflictError (Manager κ × Bool) :=
  if waiter.keys.any fun key =>
      manager.config.maxWaitersPerKey ≤ (manager.table key).waiters.length then
    .error (.keyQueueCapacityExceeded manager.config.maxWaitersPerKey)
  else if manager.overflowsShard waiter.keys then
    .error (.tableCapacityExceeded manager.config.maxKeysPerShard)
  else if manager.config.maxWaiters ≤ manager.queuedWaiters then
    .error (.waiterCapacityExceeded manager.config.maxWaiters)
  else .ok ((manager.enqueue id waiter).tryGrant id)

/-- Under the locks of a finishing acquisition: the fronts of its queues by identifier, and
the removal of its idle entries. -/
def collectCandidatesAndCleanup (waiter : Waiter κ) : Manager κ × List Nat :=
  ({ manager with
      entries := manager.entries.filter fun key =>
        ¬ (key ∈ waiter.keys ∧ (manager.table key).idle = true) },
    ((waiter.keys.filterMap fun key => (manager.table key).waiters.head?).insertionSort
      (· ≤ ·)).dedup)

/-- The waiting branch of an abort. -/
def leaveQueues (id : Nat) (waiter : Waiter κ) (target : WaiterState) : Manager κ :=
  Manager.finishQueued
    { manager.setWaiter id { waiter with state := target } with
      table := updateKeys waiter.keys
        (fun state => { state with waiters := state.waiters.filter (· ≠ id) }) manager.table }
    id

/-- What the granted branch of an abort and a release do: free the keys it still holds. -/
def dropHolds (id : Nat) (waiter : Waiter κ) (target : WaiterState) : Manager κ :=
  { manager.setWaiter id { waiter with state := target } with
    table := updateKeys waiter.keys
      (fun state => if state.holder = some id then { state with holder := none } else state)
      manager.table }

/-- `abort` with the state it loaded. The compare-and-swap fails when a consumer changed the
state in between; a state other than waiting or granted is left alone. -/
def abort (id : Nat) (kind : AbortKind) (observed : WaiterState) : Option (Manager κ × List Nat) :=
  match manager.waiters id with
  | none => none
  | some waiter =>
    match observed with
    | .waiting =>
      if waiter.state = .waiting then
        some ((manager.leaveQueues id waiter kind.waiterState).collectCandidatesAndCleanup waiter)
      else none
    | .granted =>
      if waiter.state = .granted then
        some ((manager.dropHolds id waiter kind.waiterState).collectCandidatesAndCleanup waiter)
      else none
    | _ => none

/-- The compare-and-swap of `poll` that takes a grant, outside the locks. -/
def consume (id : Nat) : Manager κ :=
  match manager.waiters id with
  | none => manager
  | some waiter =>
    if waiter.state = .granted then manager.setWaiter id { waiter with state := .consumed }
    else manager

def release (id : Nat) : Option (Manager κ × List Nat) :=
  match manager.waiters id with
  | none => none
  | some waiter =>
    if waiter.state = .consumed then
      some ((manager.dropHolds id waiter .released).collectCandidatesAndCleanup waiter)
    else none

/-- The manager as built: empty shards and the first identifier. -/
def new (config : ConflictManagerConfig) (shardFor : κ → Nat) : Manager κ where
  config := config
  shardFor := shardFor
  table := fun _ => KeyState.default
  entries := ∅
  waiters := fun _ => none
  queuedWaiters := 0
  nextWaiterId := 1

end Manager

/-- The manager with two observations of the run: the acquisitions that entered the table, in
order, and the collected candidates that have not been tried yet. -/
structure System (κ : Type u) where
  manager : Manager κ
  arrivals : List Nat
  pending : List Nat

inductive Event (κ : Type u) where
  | acquireMut (keys : List κ)
  | register (id : Nat)
  | tryAcquireMut (keys : List κ) (cancelled expired : Bool)
  | tryGrant (id : Nat)
  | consume (id : Nat)
  | abort (id : Nat) (kind : AbortKind) (observed : WaiterState)
  | release (id : Nat)

namespace System

def start (config : ConflictManagerConfig) (shardFor : κ → Nat) : System κ :=
  ⟨Manager.new config shardFor, [], []⟩

/-- The effect of a finished acquisition: its candidates wait to be tried. -/
def finished (system : System κ) : Option (Manager κ × List Nat) → System κ
  | none => system
  | some (manager, candidates) =>
    { system with manager := manager, pending := system.pending ++ candidates }

/-- One atomic step. An acquisition registers once; only registered ones are aborted. -/
def step (system : System κ) : Event κ → System κ
  | .acquireMut keys =>
    match system.manager.newAcquisition keys with
    | .error _ => system
    | .ok manager => { system with manager := manager }
  | .register id =>
    match system.manager.waiters id with
    | none => system
    | some waiter =>
      if waiter.registered then system
      else
        match system.manager.register id waiter with
        | .error _ => system
        | .ok (manager, _) =>
          { system with manager := manager, arrivals := system.arrivals ++ [id] }
  | .tryAcquireMut keys cancelled expired =>
    match system.manager.tryAcquireMut keys cancelled expired with
    | (manager, .ok (some id)) =>
      { system with manager := manager, arrivals := system.arrivals ++ [id] }
    | (manager, _) => { system with manager := manager }
  | .tryGrant id =>
    { system with
      manager := (system.manager.tryGrant id).1
      pending := system.pending.erase id }
  | .consume id => { system with manager := system.manager.consume id }
  | .abort id kind observed =>
    match system.manager.waiters id with
    | none => system
    | some waiter =>
      if waiter.registered then system.finished (system.manager.abort id kind observed)
      else system
  | .release id => system.finished (system.manager.release id)

/-- The state after a run from an empty manager. -/
def after (config : ConflictManagerConfig) (shardFor : κ → Nat) (events : List (Event κ)) :
    System κ := run step (start config shardFor) events

end System

end ConflictManager
