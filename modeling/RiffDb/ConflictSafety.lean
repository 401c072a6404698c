import RiffDb.ConflictLeases

/-!
# Exclusion, progress and order of conflict leases

Results about every reachable state of the conflict manager, whatever the interleaving of its
critical sections, grant consumptions, aborts, releases and late promotions. Nothing is said
about fairness of the scheduler: a pending promotion may be delayed for ever.
-/

namespace ConflictSafety

open ConflictManager ConflictLeases FifoLocks Runs List

universe u

variable {κ : Type u} [LinearOrder κ]
variable {manager : Manager κ} {keys : List κ}

theorem mem_checkedKeys {checked : Manager.KeySet κ}
    (passed : manager.checkedKeys keys = .ok checked) (key : κ) : key ∈ checked.1 ↔ key ∈ keys := by
  unfold Manager.checkedKeys at passed
  split at passed
  · cases passed
  · dsimp only at passed
    split at passed
    · cases passed
    · split at passed
      · cases passed
      · cases passed
        rw [mem_dedup, mem_insertionSort]

/-- What an immediate acquisition can do. -/
theorem tryAcquireMut_cases (manager : Manager κ) (keys : List κ) (cancelled expired : Bool) :
    (∃ reason, manager.tryAcquireMut keys cancelled expired = (manager, .error reason)) ∨
    (manager.nextWaiterId ≠ 0 ∧ ∃ result, (∀ id, result ≠ .ok (some id)) ∧
      manager.tryAcquireMut keys cancelled expired = (manager.advanceWaiterId, result)) ∨
    (manager.nextWaiterId ≠ 0 ∧ ∃ checked, manager.checkedKeys keys = .ok checked ∧
      (∀ key ∈ checked.1, (manager.table key).idle = true) ∧
      manager.overflowsShard checked.1 = false ∧ manager.tryAcquireMut keys cancelled expired =
        (manager.advanceWaiterId.holdAll manager.nextWaiterId checked,
        .ok (some manager.nextWaiterId))) := by
  unfold Manager.tryAcquireMut
  cases passed : manager.checkedKeys keys with
  | error reason => exact Or.inl ⟨reason, rfl⟩
  | ok checked =>
    dsimp only
    split
    · exact Or.inl ⟨_, rfl⟩
    · split
      · exact Or.inl ⟨_, rfl⟩
      · split
        · exact Or.inl ⟨_, rfl⟩
        · next available =>
          split
          · exact Or.inr (Or.inl ⟨available, _, by simp, rfl⟩)
          · next free =>
            split
            · exact Or.inr (Or.inl ⟨available, _, by simp, rfl⟩)
            · next fits =>
              refine Or.inr (Or.inr ⟨available, checked, rfl, ?_, Bool.not_eq_true _ ▸ fits, rfl⟩)
              simpa using free

variable {id : Nat}

/-- A successful immediate acquisition finds no key held and no key with a queue. -/
theorem tryAcquireMut_success {next : Manager κ} {cancelled expired : Bool}
    (success : manager.tryAcquireMut keys cancelled expired = (next, .ok (some id))) :
    ∀ key ∈ keys, (manager.table key).holder = none ∧ (manager.table key).waiters = [] := by
  rcases tryAcquireMut_cases manager keys cancelled expired with
    ⟨reason, refused⟩ | ⟨_, result, unsuccessful, spent⟩ | ⟨_, checked, passed, idle, _⟩
  · rw [refused] at success
    cases success
  · rw [spent] at success
    cases success
    exact absurd rfl (unsuccessful id)
  · intro key member
    have free := idle key ((mem_checkedKeys passed key).mpr member)
    simpa [KeyState.idle] using free

variable {waiter : Waiter κ}

/-- A registration has passed the three capacity checks. -/
theorem register_eq_ok {result : Manager κ × Bool}
    (registered : manager.register id waiter = .ok result) :
    (∀ key ∈ waiter.keys, (manager.table key).waiters.length < manager.config.maxWaitersPerKey) ∧
      manager.overflowsShard waiter.keys = false ∧
      manager.queuedWaiters < manager.config.maxWaiters ∧
      result = (manager.enqueue id waiter).tryGrant id := by
  unfold Manager.register at registered
  split at registered
  · cases registered
  · next short =>
    split at registered
    · cases registered
    · next fits =>
      split at registered
      · cases registered
      · next room =>
        cases registered
        exact ⟨by simpa using short, by simpa using fits, Nat.lt_of_not_le room, rfl⟩

/-- What one atomic step can do. -/
inductive Moves (system : System κ) : System κ → Prop where
  | stay : Moves system system
  | acquire (available : system.manager.nextWaiterId ≠ 0) (keys : Manager.KeySet κ) :
      Moves system { system with
        manager := system.manager.advanceWaiterId.setWaiter system.manager.nextWaiterId
          ⟨keys.1, .waiting, false, false, keys.2.1, keys.2.2⟩ }
  | register {id : Nat} {waiter : Waiter κ} {result : Manager κ × Bool}
      (found : system.manager.waiters id = some waiter) (unregistered : waiter.registered = false)
      (registered : system.manager.register id waiter = .ok result) :
      Moves system ⟨result.1, system.arrivals ++ [id], system.pending⟩
  | spend (available : system.manager.nextWaiterId ≠ 0) :
      Moves system { system with manager := system.manager.advanceWaiterId }
  | hold (available : system.manager.nextWaiterId ≠ 0) (keys : Manager.KeySet κ)
      (idle : ∀ key ∈ keys.1, (system.manager.table key).idle = true)
      (room : system.manager.overflowsShard keys.1 = false) :
      Moves system ⟨system.manager.advanceWaiterId.holdAll system.manager.nextWaiterId keys,
        system.arrivals ++ [system.manager.nextWaiterId], system.pending⟩
  | grant (id : Nat) :
      Moves system ⟨(system.manager.tryGrant id).1, system.arrivals, system.pending.erase id⟩
  | consume {id : Nat} {waiter : Waiter κ} (found : system.manager.waiters id = some waiter)
      (granted : waiter.state = .granted) :
      Moves system
        { system with manager := system.manager.setWaiter id { waiter with state := .consumed } }
  | leave {id : Nat} {waiter : Waiter κ} {target : WaiterState}
      (found : entered system.manager.waiters id = some waiter) (waits : waiter.state = .waiting)
      (past : target ≠ .waiting) (free : holds target = false) :
      Moves system (system.finished (some
        ((system.manager.leaveQueues id waiter target).collectCandidatesAndCleanup waiter)))
  | drop {id : Nat} {waiter : Waiter κ} {target : WaiterState}
      (found : system.manager.waiters id = some waiter) (held : holds waiter.state = true)
      (past : target ≠ .waiting) (free : holds target = false) :
      Moves system (system.finished (some
        ((system.manager.dropHolds id waiter target).collectCandidatesAndCleanup waiter)))

variable {system : System κ}

theorem moves_abort (found : entered system.manager.waiters id = some waiter) (kind : AbortKind)
    (observed : WaiterState) :
    Moves system (system.finished (system.manager.abort id kind observed)) := by
  have settles : kind.waiterState ≠ .waiting ∧ holds kind.waiterState = false := by
    cases kind <;> decide
  obtain ⟨isRecord, _⟩ := entered_eq_some.mp found
  unfold Manager.abort
  rw [isRecord]
  cases observed with
  | waiting =>
    dsimp only
    split
    · next waits => exact .leave found waits settles.1 settles.2
    · exact .stay
  | granted =>
    dsimp only
    split
    · next granted => exact .drop isRecord (by rw [granted]; rfl) settles.1 settles.2
    · exact .stay
  | _ => exact .stay

open System

theorem moves_step (system : System κ) (event : Event κ) : Moves system (system.step event) := by
  cases event with
  | acquireMut keys =>
    unfold step Manager.newAcquisition
    dsimp only
    cases system.manager.checkedKeys keys with
    | error reason => exact .stay
    | ok checked =>
      by_cases exhausted : system.manager.nextWaiterId = 0
      · simp only [if_pos exhausted]
        exact .stay
      · simp only [if_neg exhausted]
        exact .acquire exhausted checked
  | register id =>
    unfold step
    dsimp only
    split
    · exact .stay
    · next waiter found =>
      split
      · exact .stay
      · next unregistered =>
        split
        · exact .stay
        · next registered => exact .register found (Bool.not_eq_true _ ▸ unregistered) registered
  | tryAcquireMut keys cancelled expired =>
    unfold step
    dsimp only
    rcases tryAcquireMut_cases system.manager keys cancelled expired with
      ⟨reason, refused⟩ | ⟨available, result, unsuccessful, spent⟩ |
        ⟨available, checked, _, idle, room, success⟩
    · rw [refused]
      exact .stay
    · rw [spent]
      split
      · next id shown =>
        cases shown
        exact absurd rfl (unsuccessful id)
      · next shown =>
        cases shown
        exact .spend available
    · rw [success]
      exact .hold available checked idle room
  | tryGrant id => exact .grant id
  | consume id =>
    unfold step Manager.consume
    dsimp only
    split
    · exact .stay
    · next waiter found =>
      split
      · next granted => exact .consume found granted
      · exact .stay
  | abort id kind observed =>
    unfold step
    dsimp only
    split
    · exact .stay
    · next waiter found =>
      split
      · next registered => exact moves_abort (entered_eq_some.mpr ⟨found, registered⟩) kind observed
      · exact .stay
  | release id =>
    unfold step Manager.release
    dsimp only
    split
    · exact .stay
    · next waiter found =>
      split
      · next consumed => exact .drop found (by rw [consumed]; rfl) (by decide) rfl
      · exact .stay

variable {next : System κ}

theorem sound_moves (sound : Sound system) (moves : Moves system next) : Sound next := by
  cases moves with
  | stay => exact sound
  | acquire available keys => exact sound.acquire available keys
  | register found unregistered registered =>
    rw [(register_eq_ok registered).2.2.2]
    exact sound.register found unregistered
  | spend available => exact sound.advance available
  | hold available keys idle room => exact sound.holdAll available keys idle
  | grant id => exact sound.tryGrant id
  | consume found granted => exact sound.consume found granted
  | leave found waits past free => exact sound.leaveQueues past free found waits
  | drop found held past free => exact sound.dropHolds past free found held

variable (config : ConflictManagerConfig) (shardFor : κ → Nat) (events : List (Event κ))

theorem sound_after : Sound (System.after config shardFor events) :=
  run_invariant (P := Sound) (fun state event sound => sound_moves sound (moves_step state event))
    (.start config shardFor) events

/-- What a lock table owes to its acquisitions. -/
structure Exclusive (manager : Manager κ) : Prop where
  single : ∀ key first second, ∀ one two : Waiter κ, manager.waiters first = some one →
    manager.waiters second = some two → holds one.state = true → holds two.state = true →
    key ∈ one.keys → key ∈ two.keys → first = second
  holder : ∀ key id, (manager.table key).holder = some id ↔
    ∃ waiter, manager.waiters id = some waiter ∧ key ∈ waiter.keys ∧ holds waiter.state = true
  granted : ∀ id waiter, manager.waiters id = some waiter → holds waiter.state = true →
    (∀ key ∈ waiter.keys, (manager.table key).holder = some id) ∧
      ∀ key, id ∉ (manager.table key).waiters
  waiting : ∀ id waiter, manager.waiters id = some waiter → waiter.registered = true →
    waiter.state = .waiting →
    (∀ key ∈ waiter.keys, (manager.table key).waiters.count id = 1) ∧
      (∀ key, key ∉ waiter.keys → id ∉ (manager.table key).waiters) ∧
      ∀ key, (manager.table key).holder ≠ some id
  settled : ∀ id waiter, manager.waiters id = some waiter → waiter.state ≠ .waiting →
    holds waiter.state = false →
    ∀ key, id ∉ (manager.table key).waiters ∧ (manager.table key).holder ≠ some id

section Reading

variable {system : System κ} {id : Nat} {waiter : Waiter κ} {key : κ}

theorem holder_iff (sound : Sound system) (key : κ) (id : Nat) :
    (system.manager.table key).holder = some id ↔
      ∃ waiter, system.manager.waiters id = some waiter ∧ key ∈ waiter.keys ∧
        holds waiter.state = true := by
  rw [sound.represents.holder]
  constructor
  · rintro ⟨holding, wanted⟩
    obtain ⟨waiter, found, held⟩ := holding_iff.mp holding
    exact ⟨waiter, (entered_eq_some.mp found).1, wants_of_entered found ▸ wanted, held⟩
  · rintro ⟨waiter, isRecord, wanted, held⟩
    have found := sound.entered_of_past isRecord (not_waiting_of_holds held)
    exact ⟨holding_iff.mpr ⟨waiter, found, held⟩, (wants_of_entered found).symm ▸ wanted⟩

theorem queued_iff (sound : Sound system) (key : κ) (id : Nat) :
    id ∈ (system.manager.table key).waiters ↔
      ∃ waiter, entered system.manager.waiters id = some waiter ∧ waiter.state = .waiting ∧
        key ∈ waiter.keys := by
  rw [sound.represents.queue, Claims.mem_queue]
  constructor
  · rintro ⟨_, waiting, wanted⟩
    obtain ⟨waiter, found, waits⟩ := waiting_iff.mp waiting
    exact ⟨waiter, found, waits, wants_of_entered found ▸ wanted⟩
  · rintro ⟨waiter, found, waits, wanted⟩
    exact ⟨sound.arrived_of_entered found, waiting_iff.mpr ⟨waiter, found, waits⟩,
      (wants_of_entered found).symm ▸ wanted⟩

theorem not_queued (sound : Sound system) (found : system.manager.waiters id = some waiter)
    (past : waiter.state ≠ .waiting) (key : κ) : id ∉ (system.manager.table key).waiters := by
  intro member
  obtain ⟨record, entry, waits, _⟩ := (queued_iff sound key id).mp member
  obtain ⟨same, _⟩ := entered_eq_some.mp entry
  rw [found] at same
  cases same
  exact past waits

theorem not_holder (sound : Sound system) (found : system.manager.waiters id = some waiter)
    (idle : holds waiter.state = false) (key : κ) :
      (system.manager.table key).holder ≠ some id := by
  intro holder
  obtain ⟨record, same, _, held⟩ := (holder_iff sound key id).mp holder
  rw [found] at same
  cases same
  rw [held] at idle
  cases idle

end Reading

/-- In every reachable state the holders and queues of the table are exactly what the states of
the acquisitions say. -/
theorem leases_exclusive : Exclusive (System.after config shardFor events).manager := by
  have sound := sound_after config shardFor events
  refine ⟨?_, holder_iff sound, ?_, ?_, ?_⟩
  · intro key first second one two isOne isTwo heldOne heldTwo inOne inTwo
    have holderOne := (holder_iff sound key first).mpr ⟨one, isOne, inOne, heldOne⟩
    have holderTwo := (holder_iff sound key second).mpr ⟨two, isTwo, inTwo, heldTwo⟩
    rw [holderOne] at holderTwo
    exact Option.some.inj holderTwo
  · intro id waiter found held
    exact ⟨fun key wanted => (holder_iff sound key id).mpr ⟨waiter, found, wanted, held⟩,
      not_queued sound found (not_waiting_of_holds held)⟩
  · intro id waiter found registered waits
    have entry := entered_eq_some.mpr ⟨found, registered⟩
    refine ⟨?_, ?_, not_holder sound found (by rw [waits]; rfl)⟩
    · intro key wanted
      apply count_eq_one_of_mem
      · rw [sound.represents.queue]
        exact Claims.nodup_queue sound.distinct key
      · exact (queued_iff sound key id).mpr ⟨waiter, entry, waits, wanted⟩
    · intro key unwanted member
      obtain ⟨record, same, _, wanted⟩ := (queued_iff sound key id).mp member
      rw [entry] at same
      cases same
      exact unwanted wanted
  · intro id waiter found past idle key
    exact ⟨not_queued sound found past key, not_holder sound found idle key⟩

/-- In every reachable state an acquisition that could be granted has a promotion pending; so
with no promotion pending and nothing held, nobody registered waits. -/
theorem no_stranded_waiter :
    (∀ id waiter, (System.after config shardFor events).manager.waiters id = some waiter →
      waiter.registered = true → waiter.state = .waiting →
      (∀ key ∈ waiter.keys, ((System.after config shardFor events).manager.table key).holder =
      none ∧ ((System.after config shardFor events).manager.table key).waiters.head? = some id) →
      id ∈ (System.after config shardFor events).pending) ∧
    ((System.after config shardFor events).pending = [] →
      (∀ key, ((System.after config shardFor events).manager.table key).holder = none) →
      ∀ id waiter, (System.after config shardFor events).manager.waiters id = some waiter →
        waiter.registered = true → waiter.state ≠ .waiting) := by
  have sound := sound_after config shardFor events
  constructor
  · intro id waiter found registered waits free
    have test : (System.after config shardFor events).manager.eligible id waiter = true := by
      simpa [Manager.eligible] using free
    exact sound.served id ((sound.eligible_iff found).mp test).2
  · intro nothing unheld id waiter found registered waits
    have idle : ∀ claimant,
        (claims (.after config shardFor events)).holding claimant = false := by
      intro claimant
      by_contra holding
      rw [Bool.not_eq_false] at holding
      obtain ⟨holder, isHolder, held⟩ := holding_iff.mp holding
      obtain ⟨key, wanted⟩ := exists_mem_of_ne_nil _ holder.nonempty
      have holds := (holder_iff sound key claimant).mpr
        ⟨holder, (entered_eq_some.mp isHolder).1, wanted, held⟩
      rw [unheld key] at holds
      cases holds
    have entry := entered_eq_some.mpr ⟨found, registered⟩
    obtain ⟨next, _, eligible⟩ := Claims.exists_eligible idle
      ⟨id, sound.arrived_of_entered entry, waiting_iff.mpr ⟨waiter, entry, waits⟩⟩
    have pending := sound.served next eligible
    rw [nothing] at pending
    cases pending

/-- Small limits for a run over numbered keys. -/
def smallConfig : ConflictManagerConfig where
  shardCount := 2
  maxKeysPerAcquisition := 4
  maxKeysPerShard := 4
  maxWaiters := 4
  maxWaitersPerKey := 2
  shardCountBound := by decide
  keysPerAcquisitionBound := by decide
  keysPerShardBound := by decide
  waitersBound := by decide
  waitersPerKeyBound := by decide
  perKeyWithinTotal := by decide

/-- The second acquisition waits for a key of the first, which is then released. -/
def released : List (Event (Fin 4)) :=
  [.acquireMut [2, 1], .register 1, .acquireMut [2, 3], .register 2, .consume 1, .release 1]

/-- The release has collected the waiting acquisition; once that is granted and released too,
nothing is held or pending, and it waits no more. -/
theorem no_stranded_waiter_released :
    2 ∈ (System.after smallConfig Fin.val released).pending ∧
      ∃ waiter, (System.after smallConfig Fin.val
          (released ++ [.tryGrant 2, .consume 2, .release 2])).manager.waiters 2 = some waiter ∧
        waiter.state ≠ .waiting :=
  ⟨(no_stranded_waiter smallConfig Fin.val released).1 2 _ rfl rfl rfl (by decide), _, rfl,
    (no_stranded_waiter smallConfig Fin.val
      (released ++ [.tryGrant 2, .consume 2, .release 2])).2 rfl (by decide) 2 _ rfl rfl⟩

theorem arrivals_moves (moves : Moves system next) : system.arrivals <+: next.arrivals := by
  cases moves with
  | register => exact prefix_append _ _
  | hold => exact prefix_append _ _
  | _ => exact prefix_rfl

theorem arrivals_run (system : System κ) (events : List (Event κ)) :
    system.arrivals <+: (run step system events).arrivals :=
  run_invariant (P := fun state => system.arrivals <+: state.arrivals)
    (fun state event before => before.trans (arrivals_moves (moves_step state event)))
      prefix_rfl events

omit [LinearOrder κ] in
/-- Whoever entered the table between two states of a run entered it after whoever was in it
at the first. -/
theorem arrival_order {before after : System κ} (grown : before.arrivals <+: after.arrivals)
    {earlier later : Nat} (inside : earlier ∈ before.arrivals) (outside : later ∉ before.arrivals)
    (arrived : later ∈ after.arrivals) : [earlier, later].Sublist after.arrivals := by
  obtain ⟨rest, split⟩ := grown
  rw [← split] at arrived ⊢
  rcases mem_append.mp arrived with old | new
  · exact absurd old outside
  · exact (singleton_sublist.mpr inside).append (singleton_sublist.mpr new)

/-- If one acquisition is in the table when another is not, then in every later state of the
run the other is not granted a shared key while the first still waits. An immediate acquisition
that succeeds in a reachable state finds its keys free and without a queue. -/
theorem no_barging :
    (∀ earlier later entry, (System.after config shardFor events).manager.waiters earlier =
        some entry → entry.registered = true →
      (∀ waiter, (System.after config shardFor events).manager.waiters later = some waiter →
        waiter.registered = false) →
      ∀ more first second key,
        (System.after config shardFor (events ++ more)).manager.waiters earlier = some first →
        (System.after config shardFor (events ++ more)).manager.waiters later = some second →
        key ∈ first.keys → key ∈ second.keys → first.state = .waiting →
        second.state ≠ .granted ∧ second.state ≠ .consumed) ∧
    ∀ keys cancelled expired next id,
      (System.after config shardFor events).manager.tryAcquireMut keys cancelled expired =
        (next, .ok (some id)) →
      ∀ key ∈ keys, ((System.after config shardFor events).manager.table key).holder = none ∧
        ((System.after config shardFor events).manager.table key).waiters = [] := by
  refine ⟨?_, fun keys cancelled expired next id success => tryAcquireMut_success success⟩
  intro earlier later entry isEntry inTable outside more first second key isFirst isSecond
    inFirst inSecond waits
  have soundBefore := sound_after config shardFor events
  have sound := sound_after config shardFor (events ++ more)
  have grown : (System.after config shardFor events).arrivals <+:
      (System.after config shardFor (events ++ more)).arrivals := by
    unfold System.after
    rw [run_append]
    exact arrivals_run _ more
  have inside := soundBefore.arrived_of_entered (entered_eq_some.mpr ⟨isEntry, inTable⟩)
  have absent : later ∉ (System.after config shardFor events).arrivals := by
    intro member
    obtain ⟨waiter, entry⟩ := Option.isSome_iff_exists.mp ((soundBefore.arrived later).mp member)
    obtain ⟨found, registered⟩ := entered_eq_some.mp entry
    rw [outside waiter found] at registered
    cases registered
  have idle : holds second.state = false := by
    by_contra held
    rw [Bool.not_eq_false] at held
    obtain ⟨holding, wantedSecond⟩ := (sound.represents.holder key later).mp
      ((holder_iff sound key later).mpr ⟨second, isSecond, inSecond, held⟩)
    obtain ⟨waiter, found, _⟩ := holding_iff.mp holding
    have order := arrival_order grown inside absent (sound.arrived_of_entered found)
    obtain ⟨record, entry⟩ :=
      Option.isSome_iff_exists.mp ((sound.arrived earlier).mp (grown.subset inside))
    obtain ⟨isRecord, _⟩ := entered_eq_some.mp entry
    rw [isFirst] at isRecord
    cases isRecord
    have settled := sound.fair earlier later key order
      ((wants_of_entered entry).symm ▸ inFirst) wantedSecond
      (waiting_iff.mpr ⟨first, entry, waits⟩)
    rw [holding] at settled
    cases settled
  constructor
  · intro granted
    rw [granted] at idle
    cases idle
  · intro consumed
    rw [consumed] at idle
    cases idle

/-- The second acquisition waits when the third enters the table for one of its keys; meanwhile
a free key is taken at once. -/
theorem no_barging_queued :
    (∃ first second, (System.after smallConfig Fin.val (released.take 4 ++
          [.acquireMut [3], .register 3])).manager.waiters 2 = some first ∧
        (System.after smallConfig Fin.val (released.take 4 ++
          [.acquireMut [3], .register 3])).manager.waiters 3 = some second ∧
        first.state = .waiting ∧ second.state ≠ .granted ∧ second.state ≠ .consumed) ∧
      ((System.after smallConfig Fin.val (released.take 4)).manager.table 0).holder = none ∧
        ((System.after smallConfig Fin.val (released.take 4)).manager.table 0).waiters = [] :=
  ⟨⟨_, _, rfl, rfl, rfl, (no_barging smallConfig Fin.val (released.take 4)).1 2 3 _ rfl rfl
      (by decide) [.acquireMut [3], .register 3] _ _ 3 rfl rfl (by decide) (by decide) rfl⟩,
    (no_barging smallConfig Fin.val (released.take 4)).2 [0] false false _ 3 rfl 0 (by decide)⟩

end ConflictSafety
