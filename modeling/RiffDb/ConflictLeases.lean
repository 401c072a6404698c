import RiffDb.ConflictManager

/-!
# Leases of the conflict manager

The lock table represents first-come first-served claims: its queues are the arrival order of the
waiting acquisitions, its holders the granted and consumed ones. Every critical section is one move
of those claims, and consuming a grant is none. Exclusion, no stranded acquisition and no barging
are read off the representation.
-/

namespace ConflictLeases

open ConflictManager FifoLocks Runs Claims List Function

universe u

variable {κ : Type u}

def holds : WaiterState → Bool
  | .granted | .consumed => true
  | _ => false

/-- The record of an acquisition that has entered the table. -/
def entered (waiters : Nat → Option (Waiter κ)) (id : Nat) : Option (Waiter κ) :=
  (waiters id).filter Waiter.registered

/-- The acquisitions in the table as claims on their keys. -/
def claimsOf (arrivals : List Nat) (waiters : Nat → Option (Waiter κ)) : Claims Nat κ where
  arrivals := arrivals
  wants id := ((entered waiters id).map Waiter.keys).getD []
  waiting id := (entered waiters id).any fun waiter => waiter.state = .waiting
  holding id := (entered waiters id).any fun waiter => holds waiter.state

section Records

variable {arrivals : List Nat} {waiters : Nat → Option (Waiter κ)} {id : Nat} {waiter : Waiter κ}

theorem entered_eq_some :
    entered waiters id = some waiter ↔ waiters id = some waiter ∧ waiter.registered = true := by
  simp [entered, Option.filter_eq_some_iff]

theorem entered_update (registered : waiter.registered = true) :
    entered (update waiters id (some waiter)) = update (entered waiters) id (some waiter) := by
  funext other
  by_cases isId : other = id
  · subst isId
    simp [entered, registered]
  · simp [entered, isId]

/-- Records outside the table are no claims. -/
theorem entered_update_unregistered (absent : entered waiters id = none)
    (unregistered : waiter.registered = false) :
      entered (update waiters id (some waiter)) = entered waiters := by
  funext other
  by_cases isId : other = id
  · subst isId
    rw [absent]
    simp [entered, unregistered]
  · simp [entered, isId]

/-- A record in the table replaces the claim of its acquisition. -/
theorem claimsOf_update (registered : waiter.registered = true) :
    claimsOf arrivals (update waiters id (some waiter)) =
      { arrivals := arrivals
        wants := update (claimsOf arrivals waiters).wants id waiter.keys
        waiting := update (claimsOf arrivals waiters).waiting id (decide (waiter.state = .waiting))
        holding := update (claimsOf arrivals waiters).holding id (holds waiter.state) } := by
  rw [claimsOf, entered_update registered]
  congr 1 <;> funext other <;> by_cases isId : other = id <;> simp [isId, claimsOf]

section Entered

variable (found : entered waiters id = some waiter)

include found

theorem wants_of_entered : (claimsOf arrivals waiters).wants id = waiter.keys := by
  simp [claimsOf, found]

theorem waiting_of_entered :
    (claimsOf arrivals waiters).waiting id = decide (waiter.state = .waiting) := by
  simp [claimsOf, found]

theorem holding_of_entered : (claimsOf arrivals waiters).holding id = holds waiter.state := by
  simp [claimsOf, found]

/-- A change of state moves a claim and keeps what it wants. -/
theorem claimsOf_moved (target : WaiterState) (queued : Bool) :
    claimsOf arrivals (update waiters id (some { waiter with state := target, queued := queued })) =
      { claimsOf arrivals waiters with
        waiting := update (claimsOf arrivals waiters).waiting id (decide (target = .waiting))
        holding := update (claimsOf arrivals waiters).holding id (holds target) } := by
  have registered :
      ({ waiter with state := target, queued := queued } : Waiter κ).registered = true :=
    (entered_eq_some.mp found).2
  have kept :
      update (claimsOf arrivals waiters).wants id waiter.keys = (claimsOf arrivals waiters).wants :=
    update_eq_self_iff.mpr (wants_of_entered found).symm
  rw [claimsOf_update registered]
  simp only [kept]
  rfl

end Entered

theorem holding_of_absent (absent : entered waiters id = none) :
    (claimsOf arrivals waiters).holding id = false := by
  simp [claimsOf, absent]

theorem waiting_iff : (claimsOf arrivals waiters).waiting id = true ↔
    ∃ waiter, entered waiters id = some waiter ∧ waiter.state = .waiting := by
  simp [claimsOf, Option.any_eq_true]

theorem holding_iff : (claimsOf arrivals waiters).holding id = true ↔
    ∃ waiter, entered waiters id = some waiter ∧ holds waiter.state = true := by
  simp [claimsOf, Option.any_eq_true]

end Records

variable [LinearOrder κ]

/-- A lock table that says exactly what the claims say. -/
structure Represents (table : κ → KeyState) (claims : Claims Nat κ) : Prop where
  queue : ∀ key, (table key).waiters = claims.queue key
  holder : ∀ key id,
    (table key).holder = some id ↔ claims.holding id = true ∧ key ∈ claims.wants id

namespace Represents

variable {table : κ → KeyState} {claims : Claims Nat κ} {id : Nat} {keys : List κ}

section

variable (represents : Represents table claims)

include represents

theorem unheld_iff (key : κ) : (table key).holder = none ↔ claims.Unheld key := by
  rw [Option.eq_none_iff_forall_ne_some]
  constructor
  · intro free claimant holding wanted
    exact free claimant ((represents.holder key claimant).mpr ⟨holding, wanted⟩)
  · intro unheld claimant holder
    obtain ⟨holding, wanted⟩ := (represents.holder key claimant).mp holder
    exact unheld claimant holding wanted

/-- The manager's test for a grant is eligibility. -/
theorem eligible_iff (waits : claims.waiting id = true) : (∀ key ∈ claims.wants id,
      (table key).holder = none ∧ (table key).waiters.head? = some id) ↔ claims.Eligible id := by
  constructor
  · intro free
    refine ⟨waits, ?_, ?_⟩
    · intro key wanted
      exact (represents.unheld_iff key).mp (free key wanted).1
    · intro key wanted
      rw [← represents.queue key]
      exact (free key wanted).2
  · intro eligible key wanted
    rw [represents.unheld_iff, represents.queue]
    exact ⟨eligible.unheld key wanted, eligible.front key wanted⟩

theorem grant (arrivals : claims.arrivals.Nodup)
    (distinct : keys.Nodup) (wants : claims.wants id = keys) (eligible : claims.Eligible id) :
    Represents (updateKeys keys (fun state => ⟨some id, state.waiters.tail⟩) table)
    (claims.grant id) := by
  subst wants
  constructor
  · intro key
    rw [updateKeys_apply distinct, queue_grant]
    by_cases wanted : key ∈ claims.wants id
    · rw [if_pos wanted, queue_filter_of_front arrivals (eligible.front key wanted),
        represents.queue]
    · rw [if_neg wanted, queue_filter_of_not_wanted wanted, represents.queue]
  · intro key other
    have before := represents.holder key other
    rw [updateKeys_apply distinct]
    by_cases wanted : key ∈ claims.wants id
    · have free : ¬ (claims.holding other = true ∧ key ∈ claims.wants other) := fun both =>
        eligible.unheld key wanted other both.1 both.2
      by_cases same : other = id
      · simp [Claims.grant, wanted, same]
      · simpa [Claims.grant, wanted, same, Ne.symm same] using free
    · by_cases same : other = id
      · subst same
        simp [Claims.grant, wanted, before]
      · simpa [Claims.grant, wanted, same] using before

/-- Whoever holds a key after an acquisition has stopped held it before. -/
theorem holder_stop (key : κ) (other : Nat) :
    (claims.stop id).holding other = true ∧ key ∈ claims.wants other ↔
    other ≠ id ∧ (table key).holder = some other := by
  rw [represents.holder]
  by_cases same : other = id <;> simp [Claims.stop, same]

/-- An acquisition that holds nothing leaves its queues. -/
theorem leave (distinct : keys.Nodup)
    (wants : claims.wants id = keys) (idle : claims.holding id = false) :
    Represents (updateKeys keys
      (fun state => { state with waiters := state.waiters.filter (· ≠ id) }) table)
      (claims.stop id) := by
  constructor
  · intro key
    rw [updateKeys_apply distinct, queue_stop, ← represents.queue]
    by_cases wanted : key ∈ keys
    · rw [if_pos wanted]
    · rw [if_neg wanted, represents.queue, queue_filter_of_not_wanted (wants ▸ wanted)]
  · intro key other
    refine Iff.trans ?_ (represents.holder_stop key other).symm
    simp only [updateKeys_apply distinct, apply_ite KeyState.holder, ite_self]
    refine ⟨fun holder => ⟨?_, holder⟩, And.right⟩
    rintro rfl
    rw [((represents.holder key other).mp holder).1] at idle
    cases idle

/-- An acquisition that is in no queue frees its keys. -/
theorem free (distinct : keys.Nodup)
    (wants : claims.wants id = keys) (settled : claims.waiting id = false) :
    Represents (updateKeys keys
      (fun state => if state.holder = some id then { state with holder := none } else state) table)
      (claims.stop id) := by
  constructor
  · intro key
    simp only [updateKeys_apply distinct, apply_ite KeyState.waiters, ite_self]
    rw [queue_stop, represents.queue, eq_comm, filter_eq_self]
    intro claimant member
    have different : claimant ≠ id := by
      rintro rfl
      rw [(mem_queue.mp member).2.1] at settled
      cases settled
    simpa using different
  · intro key other
    refine Iff.trans ?_ (represents.holder_stop key other).symm
    rw [updateKeys_apply distinct]
    by_cases held : (table key).holder = some id
    · have wanted : key ∈ keys := wants ▸ ((represents.holder key id).mp held).2
      simp [wanted, held, eq_comm]
    · simp only [if_neg held, ite_self]
      exact ⟨fun holder => ⟨fun same => held (same ▸ holder), holder⟩, And.right⟩

section

variable (absent : id ∉ claims.arrivals) (distinct : keys.Nodup) (idle : claims.holding id = false)

include absent distinct idle

/-- An acquisition joins the back of its queues. -/
theorem enqueue : Represents (updateKeys keys
      (fun state => { state with waiters := state.waiters ++ [id] }) table)
      (claims.arrive id keys false) := by
  constructor
  · intro key
    rw [updateKeys_apply distinct, queue_arrive absent, ← represents.queue]
    by_cases wanted : key ∈ keys <;> simp [wanted]
  · intro key other
    simp only [updateKeys_apply distinct, apply_ite KeyState.holder, ite_self, represents.holder]
    by_cases same : other = id
    · subst same
      simp [arrive, idle]
    · simp [arrive, same]

/-- An acquisition takes keys that nobody holds. -/
theorem seize (unheld : ∀ key ∈ keys, (table key).holder = none) :
    Represents (updateKeys keys (fun state => { state with holder := some id }) table)
      (claims.arrive id keys true) := by
  constructor
  · intro key
    rw [updateKeys_apply distinct, queue_arrive absent, ← represents.queue]
    by_cases wanted : key ∈ keys <;> simp [wanted]
  · intro key other
    have before := represents.holder key other
    rw [updateKeys_apply distinct]
    by_cases same : other = id
    · subst same
      rw [idle] at before
      by_cases wanted : key ∈ keys
      · simp [arrive, wanted]
      · simpa [arrive, wanted] using before
    · by_cases wanted : key ∈ keys
      · rw [unheld key wanted] at before
        simpa [arrive, wanted, same, Ne.symm same] using before
      · simpa [arrive, wanted, same] using before

end

end

end Represents

section Updates

variable {manager : Manager κ} {id : Nat} {waiter : Waiter κ}

open Manager

omit [LinearOrder κ] in
/-- Leaving the count changes one flag and the counter. -/
theorem finishQueued_eq {records : Nat → Option (Waiter κ)}
    (waiters : manager.waiters = update records id (some waiter)) :
      manager.finishQueued id = { manager with
      waiters := update records id (some { waiter with queued := false })
      queuedWaiters := if waiter.queued then manager.queuedWaiters - 1
      else manager.queuedWaiters } := by
  have found : manager.waiters id = some waiter := by
    rw [waiters, update_self]
  unfold finishQueued
  rw [found]
  cases queued : waiter.queued with
  | true => simp [queued, setWaiter, waiters]
  | false =>
    have same : ({ waiter with queued := false } : Waiter κ) = waiter := by
      rw [← queued]
    simp [queued, same, ← waiters]

theorem grant_waiters : (manager.grant id waiter).waiters =
    update manager.waiters id (some { waiter with state := .granted, queued := false }) := by
  rw [Manager.grant, finishQueued_eq rfl]

theorem leaveQueues_waiters (target : WaiterState) :
    (manager.leaveQueues id waiter target).waiters =
    update manager.waiters id (some { waiter with state := target, queued := false }) := by
  rw [leaveQueues, finishQueued_eq rfl]

end Updates

/-- The claims of a state. -/
def claims (system : System κ) : Claims Nat κ :=
  claimsOf system.arrivals system.manager.waiters

/-- The invariant of every run. -/
structure Sound (system : System κ) : Prop where
  distinct : system.arrivals.Nodup
  arrived : ∀ id, id ∈ system.arrivals ↔ (entered system.manager.waiters id).isSome
  outside : ∀ id waiter, system.manager.waiters id = some waiter →
    waiter.registered = false → waiter.state = .waiting
  unused : system.manager.nextWaiterId ≠ 0 →
    ∀ id, system.manager.nextWaiterId ≤ id → system.manager.waiters id = none
  represents : Represents system.manager.table (claims system)
  fair : (claims system).Fair
  served : ∀ id, (claims system).Eligible id → id ∈ system.pending

theorem not_waiting_of_holds {state : WaiterState} (held : holds state = true) :
    state ≠ .waiting := by
  rintro rfl
  cases held

namespace Sound

variable {system : System κ} {id : Nat} {waiter : Waiter κ}

theorem start (config : ConflictManagerConfig) (shardFor : κ → Nat) :
    Sound (System.start config shardFor) := by
  constructor
  · exact nodup_nil
  · intro id
    simp [System.start, Manager.new, entered]
  · intro id waiter found
    cases found
  · intro _ id _
    rfl
  · constructor
    · intro key
      rfl
    · intro key id
      simp [System.start, Manager.new, KeyState.default, claims, claimsOf, entered]
  · intro earlier later resource order
    cases order
  · intro id eligible
    have waits := eligible.waiting
    simp [claims, claimsOf, entered, System.start, Manager.new] at waits

variable {manager : Manager κ} {next : Waiter κ}

section

variable (sound : Sound system)

include sound

/-- Whoever is past waiting has entered the table. -/
theorem entered_of_past (found : system.manager.waiters id = some waiter)
    (past : waiter.state ≠ .waiting) : entered system.manager.waiters id = some waiter := by
  refine entered_eq_some.mpr ⟨found, ?_⟩
  by_contra unregistered
  rw [Bool.not_eq_true] at unregistered
  exact past (sound.outside id waiter found unregistered)

theorem arrived_of_entered (found : entered system.manager.waiters id = some waiter) :
    id ∈ system.arrivals := by
  rw [sound.arrived, found]
  rfl

theorem unarrived (absent : entered system.manager.waiters id = none) : id ∉ system.arrivals := by
  rw [sound.arrived, absent]
  simp

variable {other : Nat}

theorem outside_update (enters : next.registered = false → next.state = .waiting)
    {record : Waiter κ} (isRecord :
      update system.manager.waiters id (some next) other = some record)
    (unregistered : record.registered = false) : record.state = .waiting := by
  by_cases same : other = id
  · rw [same, update_self] at isRecord
    cases isRecord
    exact enters unregistered
  · rw [update_of_ne same] at isRecord
    exact sound.outside other record isRecord unregistered

theorem unused_update (found : system.manager.waiters id = some waiter)
    (available : system.manager.nextWaiterId ≠ 0) (later : system.manager.nextWaiterId ≤ other) :
    update system.manager.waiters id (some next) other = none := by
  have absent := sound.unused available other later
  have different : other ≠ id := by
    rintro rfl
    rw [absent] at found
    cases found
  rw [update_of_ne different, absent]

variable {target : WaiterState}

/-- A changed state of an acquisition in the table keeps arrivals, identifiers and registration
as they are; the table and the candidates have to follow the claims. -/
theorem records (found : entered system.manager.waiters id = some waiter) (moved : Claims Nat κ)
    {queued : Bool} (waiters : manager.waiters =
      update system.manager.waiters id (some { waiter with state := target, queued := queued }))
    (nextWaiterId : manager.nextWaiterId = system.manager.nextWaiterId)
    (isMoved : { claims system with
        waiting := update (claims system).waiting id (decide (target = .waiting))
        holding := update (claims system).holding id (holds target) } = moved)
    {pending : List Nat} (represents : Represents manager.table moved) (fair : moved.Fair)
    (served : ∀ id, moved.Eligible id → id ∈ pending) :
    Sound ⟨manager, system.arrivals, pending⟩ := by
  have after : claims ⟨manager, system.arrivals, pending⟩ = moved := by
    rw [← isMoved, claims, waiters]
    exact claimsOf_moved found target queued
  obtain ⟨isRecord, registered⟩ := entered_eq_some.mp found
  have kept :
    ({ waiter with state := target, queued := queued } : Waiter κ).registered = true := registered
  subst after
  refine ⟨sound.distinct, ?_, ?_, ?_, represents, fair, served⟩
  · intro other
    change other ∈ system.arrivals ↔ (entered manager.waiters other).isSome
    rw [sound.arrived, waiters, entered_update kept]
    by_cases same : other = id
    · subst same
      simp [found]
    · rw [update_of_ne same]
  · intro other record isOther
    change manager.waiters other = some record at isOther
    rw [waiters] at isOther
    refine sound.outside_update ?_ isOther
    intro unregistered
    rw [kept] at unregistered
    cases unregistered
  · intro available other later
    change manager.waiters other = none
    rw [waiters]
    exact sound.unused_update isRecord (nextWaiterId ▸ available) (nextWaiterId ▸ later)

/-- The same for a record that enters the table. -/
theorem entering (absent : entered system.manager.waiters id = none) {immediate : Bool}
    (kept : next.registered = true)
    (waits : decide (next.state = .waiting) = !immediate) (held : holds next.state = immediate)
    (waiters : manager.waiters = update system.manager.waiters id (some next))
    (unused : manager.nextWaiterId ≠ 0 → ∀ other, manager.nextWaiterId ≤ other →
      manager.waiters other = none)
    (represents : Represents manager.table ((claims system).arrive id next.keys immediate))
    (free : immediate = true → ∀ key ∈ next.keys, (claims system).queue key = []) :
    Sound ⟨manager, system.arrivals ++ [id], id :: system.pending⟩ := by
  have fresh := sound.unarrived absent
  have arrived : claims ⟨manager, system.arrivals ++ [id], id :: system.pending⟩ =
      (claims system).arrive id next.keys immediate := by
    rw [claims, waiters, claimsOf_update kept, waits, held]
    rfl
  refine ⟨?_, ?_, ?_, unused, ?_, ?_, ?_⟩
  · exact nodup_append_comm.mp (nodup_cons.mpr ⟨fresh, sound.distinct⟩)
  · intro other
    change other ∈ system.arrivals ++ [id] ↔ (entered manager.waiters other).isSome
    rw [waiters, entered_update kept]
    by_cases same : other = id
    · subst same
      simp
    · rw [update_of_ne same, ← sound.arrived]
      simp [same]
  · intro other record isRecord
    change manager.waiters other = some record at isRecord
    rw [waiters] at isRecord
    refine sound.outside_update ?_ isRecord
    intro unregistered
    rw [kept] at unregistered
    cases unregistered
  · rw [arrived]
    exact represents
  · rw [arrived]
    exact sound.fair.arrive fresh free
  · intro other eligible
    by_cases same : other = id
    · subst same
      exact mem_cons_self
    · rw [arrived] at eligible
      exact mem_cons_of_mem _ (sound.served other
        (eligible.of_arrive fresh same (holding_of_absent absent)))

/-- Whoever passes the manager's test for a grant is eligible, and has entered the table. -/
theorem eligible_iff (found : system.manager.waiters id = some waiter) :
    system.manager.eligible id waiter = true ↔ waiter.registered = true ∧
      (claims system).Eligible id := by
  have test : system.manager.eligible id waiter = true ↔ ∀ key ∈ waiter.keys,
      (system.manager.table key).holder = none ∧
        (system.manager.table key).waiters.head? = some id := by
    simp [Manager.eligible]
  rw [test]
  constructor
  · intro free
    obtain ⟨key, wanted⟩ := exists_mem_of_ne_nil _ waiter.nonempty
    have queued : id ∈ (claims system).queue key := by
      rw [← sound.represents.queue]
      exact mem_of_mem_head? (free key wanted).2
    obtain ⟨_, waits, _⟩ := mem_queue.mp queued
    obtain ⟨record, isRecord, _⟩ := waiting_iff.mp waits
    obtain ⟨same, registered⟩ := entered_eq_some.mp isRecord
    rw [found] at same
    cases same
    refine ⟨registered, (sound.represents.eligible_iff waits).mp ?_⟩
    rw [claims, wants_of_entered isRecord]
    exact free
  · rintro ⟨registered, eligible⟩
    have free := (sound.represents.eligible_iff eligible.waiting).mpr eligible
    rw [claims, wants_of_entered (entered_eq_some.mpr ⟨found, registered⟩)] at free
    exact free

/-- Trying a candidate settles it: it is granted, or it was not eligible. -/
theorem tryGrant (id : Nat) :
    Sound ⟨(system.manager.tryGrant id).1, system.arrivals, system.pending.erase id⟩ := by
  -- The attempt is over for nobody but the candidate.
  have others :
      ∀ other, other ≠ id → (claims system).Eligible other → other ∈ system.pending.erase id :=
    fun other different eligible => (mem_erase_of_ne different).mpr (sound.served other eligible)
  have refused : ¬ (claims system).Eligible id →
      Sound ⟨system.manager, system.arrivals, system.pending.erase id⟩ := by
    intro ineligible
    refine ⟨sound.distinct, sound.arrived, sound.outside, sound.unused, sound.represents,
      sound.fair, ?_⟩
    intro other eligible
    refine others other ?_ eligible
    rintro rfl
    exact ineligible eligible
  unfold Manager.tryGrant
  split
  · next absent =>
    apply refused
    intro eligible
    have waits := eligible.waiting
    simp [claims, claimsOf, entered, absent] at waits
  · next waiter isRecord =>
    by_cases passes : waiter.state = .waiting ∧ system.manager.eligible id waiter = true
    · rw [if_pos passes]
      obtain ⟨registered, eligible⟩ := (sound.eligible_iff isRecord).mp passes.2
      have found := entered_eq_some.mpr ⟨isRecord, registered⟩
      refine sound.records found ((claims system).grant id) grant_waiters
        (by rw [Manager.grant, finishQueued_eq rfl]; rfl) rfl ?_
          (sound.fair.grant sound.distinct eligible) ?_
      · rw [Manager.grant, finishQueued_eq rfl]
        exact sound.represents.grant sound.distinct waiter.distinct
          (wants_of_entered found) eligible
      · intro other still
        refine others other ?_ still.of_grant
        rintro rfl
        have waits := still.waiting
        simp [Claims.grant] at waits
    · rw [if_neg passes]
      apply refused
      intro eligible
      obtain ⟨record, found, state⟩ := waiting_iff.mp eligible.waiting
      obtain ⟨same, registered⟩ := entered_eq_some.mp found
      rw [isRecord] at same
      cases same
      exact passes ⟨state, (sound.eligible_iff isRecord).mpr ⟨registered, eligible⟩⟩

theorem register (found : system.manager.waiters id = some waiter)
    (unregistered : waiter.registered = false) :
    Sound ⟨((system.manager.enqueue id waiter).tryGrant id).1, system.arrivals ++ [id],
      system.pending⟩ := by
  have absent : entered system.manager.waiters id = none := by
    simp [entered, found, unregistered]
  have state := sound.outside id waiter found unregistered
  have queued : Sound ⟨system.manager.enqueue id waiter, system.arrivals ++ [id],
      id :: system.pending⟩ := by
    let next : Waiter κ := { waiter with queued := true, registered := true }
    have kept : next.registered = true := rfl
    have waits : decide (next.state = .waiting) = !false := by simp [next, state]
    have held : holds next.state = false := by simp [next, state, holds]
    apply sound.entering absent kept waits held rfl
    · intro available other later
      exact sound.unused_update found available later
    · exact sound.represents.enqueue (sound.unarrived absent) waiter.distinct
        (holding_of_absent absent)
    · intro immediate
      cases immediate
  -- The first attempt at a grant is the pending attempt of the newcomer.
  have tried := queued.tryGrant id
  rw [erase_cons_head] at tried
  exact tried

section

variable (available : system.manager.nextWaiterId ≠ 0)

include available

section

variable (unexhausted : system.manager.advanceWaiterId.nextWaiterId ≠ 0)
  (later : system.manager.advanceWaiterId.nextWaiterId ≤ other)

include unexhausted later

/-- A spent identifier is below every later one. -/
theorem advanced : system.manager.nextWaiterId < other ∧ system.manager.waiters other = none := by
  have next : system.manager.advanceWaiterId.nextWaiterId = system.manager.nextWaiterId + 1 := by
    unfold Manager.advanceWaiterId at unexhausted ⊢
    by_cases fits : system.manager.nextWaiterId + 1 < 2 ^ 64
    · simp only [if_pos fits]
    · simp only [if_neg fits] at unexhausted
      exact absurd rfl unexhausted
  rw [next] at later
  exact ⟨later, sound.unused available other (Nat.le_of_succ_le later)⟩

theorem unused_advanced :
    update system.manager.waiters system.manager.nextWaiterId (some next) other = none := by
  obtain ⟨above, absent⟩ := sound.advanced available unexhausted later
  rw [update_of_ne (Nat.ne_of_gt above), absent]

end

theorem advance : Sound { system with manager := system.manager.advanceWaiterId } :=
  ⟨sound.distinct, sound.arrived, sound.outside,
    fun unexhausted _ later => (sound.advanced available unexhausted later).2,
    sound.represents, sound.fair, sound.served⟩

/-- The next identifier belongs to nobody. -/
theorem next_absent : entered system.manager.waiters system.manager.nextWaiterId = none := by
  rw [entered, sound.unused available _ (Nat.le_refl _)]
  rfl

end

theorem acquire (available : system.manager.nextWaiterId ≠ 0) (keys : Manager.KeySet κ) :
    Sound { system with
      manager := system.manager.advanceWaiterId.setWaiter system.manager.nextWaiterId
        ⟨keys.1, .waiting, false, false, keys.2.1, keys.2.2⟩ } := by
  let record : Waiter κ := ⟨keys.1, .waiting, false, false, keys.2.1, keys.2.2⟩
  let manager := system.manager.advanceWaiterId.setWaiter system.manager.nextWaiterId record
  have unseen : entered manager.waiters = entered system.manager.waiters :=
    entered_update_unregistered (sound.next_absent available) rfl
  have same : claims { system with manager := manager } = claims system := by
    simp only [claims, claimsOf, unseen]
  refine ⟨sound.distinct, unseen ▸ sound.arrived, ?_, ?_, same ▸ sound.represents,
    same ▸ sound.fair, same ▸ sound.served⟩
  · intro other record isRecord
    exact sound.outside_update (fun _ => rfl) isRecord
  · intro unexhausted other later
    exact sound.unused_advanced available unexhausted later

/-- The critical section of a successful immediate acquisition. -/
theorem holdAll (available : system.manager.nextWaiterId ≠ 0) (keys : Manager.KeySet κ)
    (idle : ∀ key ∈ keys.1, (system.manager.table key).idle = true) :
    Sound ⟨system.manager.advanceWaiterId.holdAll system.manager.nextWaiterId keys,
      system.arrivals ++ [system.manager.nextWaiterId], system.pending⟩ := by
  have absent := sound.next_absent available
  have empty : ∀ key ∈ keys.1, (system.manager.table key).holder = none ∧
      (system.manager.table key).waiters = [] := by
    intro key wanted
    simpa [KeyState.idle] using idle key wanted
  let next : Waiter κ := ⟨keys.1, .consumed, false, true, keys.2.1, keys.2.2⟩
  have kept : next.registered = true := rfl
  have held : Sound ⟨system.manager.advanceWaiterId.holdAll system.manager.nextWaiterId keys,
      system.arrivals ++ [system.manager.nextWaiterId],
      system.manager.nextWaiterId :: system.pending⟩ := by
    apply sound.entering absent kept rfl rfl rfl
    · intro unexhausted other later
      exact sound.unused_advanced available unexhausted later
    · exact sound.represents.seize (sound.unarrived absent) keys.2.2 (holding_of_absent absent)
        (fun key wanted => (empty key wanted).1)
    · intro _ key wanted
      rw [← sound.represents.queue]
      exact (empty key wanted).2
  -- The newcomer holds its keys, so no attempt for it is needed.
  refine ⟨held.distinct, held.arrived, held.outside, held.unused, held.represents, held.fair, ?_⟩
  intro other eligible
  have different : other ≠ system.manager.nextWaiterId := by
    rintro rfl
    obtain ⟨waiter, found, state⟩ := waiting_iff.mp eligible.waiting
    have isRecord : update system.manager.waiters _ (some next) _ = some waiter :=
      (entered_eq_some.mp found).1
    rw [update_self] at isRecord
    cases isRecord
    cases state
  exact mem_of_ne_of_mem different (held.served other eligible)

/-- Consuming a grant moves no claim. -/
theorem consume (isRecord : system.manager.waiters id = some waiter)
    (granted : waiter.state = .granted) :
    Sound { system with manager :=
  system.manager.setWaiter id { waiter with state := .consumed } } := by
  have found := sound.entered_of_past isRecord (by rw [granted]; decide)
  have waiting : (claims system).waiting id = false := by
    rw [claims, waiting_of_entered found, granted]
    rfl
  have holding : (claims system).holding id = true := by
    rw [claims, holding_of_entered found, granted]
    rfl
  have waiters : (system.manager.setWaiter id { waiter with state := .consumed }).waiters =
    update system.manager.waiters id
      (some { waiter with state := .consumed, queued := waiter.queued }) := rfl
  refine sound.records found (claims system) waiters rfl ?_ sound.represents sound.fair sound.served
  rw [update_eq_self_iff.mpr waiting.symm, update_eq_self_iff.mpr holding.symm]

section

variable (notWaiting : target ≠ .waiting) (notHolding : holds target = false)

include notWaiting notHolding

/-- A finished acquisition leaves its candidates to be tried: whoever its departure made
eligible stands at the front of one of its queues. -/
theorem stop (found : entered system.manager.waiters id = some waiter) {queued : Bool}
    (waiters : manager.waiters =
      update system.manager.waiters id (some { waiter with state := target, queued := queued }))
    (nextWaiterId : manager.nextWaiterId = system.manager.nextWaiterId)
    (represents : Represents manager.table ((claims system).stop id)) :
    Sound (system.finished (some (manager.collectCandidatesAndCleanup waiter))) := by
  change (manager.collectCandidatesAndCleanup waiter).1.waiters = _ at waiters
  refine sound.records found ((claims system).stop id) waiters nextWaiterId ?_ represents
    (sound.fair.stop id) ?_
  · rw [decide_eq_false notWaiting, notHolding]
    rfl
  · intro other eligible
    rcases eligible.of_stop with before | ⟨key, wanted, front⟩
    · exact mem_append_left _ (sound.served other before)
    · apply mem_append_right
      rw [claims, wants_of_entered found] at wanted
      rw [← represents.queue] at front
      rw [mem_dedup, mem_insertionSort, mem_filterMap]
      exact ⟨key, wanted, front⟩

theorem leaveQueues (found : entered system.manager.waiters id = some waiter)
    (waits : waiter.state = .waiting) : Sound (system.finished (some
      ((system.manager.leaveQueues id waiter target).collectCandidatesAndCleanup waiter))) := by
  have idle : (claims system).holding id = false := by
    rw [claims, holding_of_entered found, waits]
    rfl
  refine sound.stop notWaiting notHolding found (leaveQueues_waiters target)
    (by rw [Manager.leaveQueues, finishQueued_eq rfl]; rfl) ?_
  rw [Manager.leaveQueues, finishQueued_eq rfl]
  exact sound.represents.leave waiter.distinct (wants_of_entered found) idle

theorem dropHolds (isRecord : system.manager.waiters id = some waiter)
    (held : holds waiter.state = true) : Sound (system.finished (some
      ((system.manager.dropHolds id waiter target).collectCandidatesAndCleanup waiter))) := by
  have past := not_waiting_of_holds held
  have found := sound.entered_of_past isRecord past
  have settled : (claims system).waiting id = false := by
    rw [claims, waiting_of_entered found, decide_eq_false past]
  exact sound.stop notWaiting notHolding found rfl rfl
    (sound.represents.free waiter.distinct (wants_of_entered found) settled)

end

end

end Sound

end ConflictLeases
