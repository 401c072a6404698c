import RiffDb.ReplicationQuorum
import RiffDb.Runs

/-!
# The primary's quorum lease

The tracker remembers the latest contact of every configured voter and stops the primary when too
few are fresh. The routing state it stops is a one-way latch, and the contact table sits behind a
lock that may be poisoned. Times are numbers of clock ticks.

The threshold is half the voters, rounded down, and not the complement of the majority that elects a
successor. The last section compares the two.
-/

namespace PrimaryLease

open Quorums ReplicationTypes ReplicationQuorum Runs List

inductive RuntimeStopReason where
  | auditUnavailable
  | coordinatorFenced
  | integrity
  | acceptedServiceJobPanicked
  | acceptedServiceJobDisappeared
  | supervisionStateCorrupted
  | diagnosticCapacityExceeded
deriving DecidableEq, Repr

/-- The first failure that stopped routing; nothing clears it. -/
structure RuntimeRoutingState where
  stopReason : Option RuntimeStopReason
deriving DecidableEq, Repr

namespace RuntimeRoutingState

def running : RuntimeRoutingState := ⟨none⟩

def isRoutingAllowed (routing : RuntimeRoutingState) : Bool := routing.stopReason.isNone

/-- A compare-and-swap from the running state: later reasons are dropped. -/
def stop (routing : RuntimeRoutingState) (reason : RuntimeStopReason) : RuntimeRoutingState :=
  match routing.stopReason with
  | none => ⟨some reason⟩
  | some _ => routing

theorem stop_isRoutingAllowed (routing : RuntimeRoutingState) (reason : RuntimeStopReason) :
    (routing.stop reason).isRoutingAllowed = false := by
  unfold stop isRoutingAllowed
  cases stopped : routing.stopReason with
  | none => rfl
  | some first => simp [stopped]

theorem stop_of_stopped {routing : RuntimeRoutingState} (stopped : routing.isRoutingAllowed = false)
    (reason : RuntimeStopReason) : routing.stop reason = routing := by
  unfold isRoutingAllowed at stopped
  unfold stop
  cases first : routing.stopReason with
  | none => simp [first] at stopped
  | some _ => rfl

end RuntimeRoutingState

/-- A tracker as its constructor leaves it: a bounded list of distinct voters, each with an
entry in the contact table, and the threshold computed from their number. -/
structure PrimaryQuorumLeaseTracker where
  voters : List ReplicationSourceHoldIdV1
  requiredVoters : Nat
  leaseDuration : Nat
  electionTimeout : Nat
  lastVoterContact : ReplicationSourceHoldIdV1 → Option Nat
  poisoned : Bool
  routing : RuntimeRoutingState
  nonempty : voters ≠ []
  bounded : voters.length ≤ maxReplicationVotersV1
  distinct : voters.Nodup
  threshold : requiredVoters = max (voters.length / 2) 1
  leasePositive : 0 < leaseDuration
  leaseExpiresFirst : leaseDuration < electionTimeout
  seeded : ∀ voter ∈ voters, (lastVoterContact voter).isSome

variable {now : Nat}

namespace PrimaryQuorumLeaseTracker

def new (voters : List ReplicationSourceHoldIdV1) (leaseDuration electionTimeout : Nat)
    (routing : RuntimeRoutingState) (startedAt : Nat) : Option PrimaryQuorumLeaseTracker :=
  if valid : (voters ≠ [] ∧ voters.length ≤ maxReplicationVotersV1) ∧
      (0 < leaseDuration ∧ leaseDuration < electionTimeout) ∧ voters.Nodup then
    some {
      voters := voters
      requiredVoters := max (voters.length / 2) 1
      leaseDuration := leaseDuration
      electionTimeout := electionTimeout
      lastVoterContact := fun voter => if voter ∈ voters then some startedAt else none
      poisoned := false
      routing := routing
      nonempty := valid.1.1
      bounded := valid.1.2
      distinct := valid.2.2
      threshold := rfl
      leasePositive := valid.2.1.1
      leaseExpiresFirst := valid.2.1.2
      seeded := by intro voter member; simp [member] }
  else none

variable (tracker : PrimaryQuorumLeaseTracker)

/-- Stop routing on behalf of the tracker. -/
def fence : PrimaryQuorumLeaseTracker :=
  { tracker with routing := tracker.routing.stop .coordinatorFenced }

/-- The table entry moves only forwards. -/
def laterContact (previous : Option Nat) (contactAt : Nat) : Option Nat :=
  match previous with
  | some last => some (if contactAt > last then contactAt else last)
  | none => some contactAt

/-- The table write of a contact, made under the lock. -/
def recordAt (holdId : ReplicationSourceHoldIdV1) (contactAt : Nat) : PrimaryQuorumLeaseTracker :=
  { tracker with
    lastVoterContact := Function.update tracker.lastVoterContact holdId
      (laterContact (tracker.lastVoterContact holdId) contactAt)
    seeded := by
      intro voter member
      by_cases same : voter = holdId
      · subst same
        rw [Function.update_self]
        unfold laterContact
        split <;> rfl
      · rw [Function.update_of_ne same]
        exact tracker.seeded voter member }

def recordVoterContact (holdId : ReplicationSourceHoldIdV1) (contactAt : Nat) :
    Bool × PrimaryQuorumLeaseTracker :=
  if tracker.routing.isRoutingAllowed = false then (false, tracker)
  else if holdId ∉ tracker.voters then (false, tracker)
  else if tracker.poisoned then (false, tracker.fence)
  else (true, tracker.recordAt holdId contactAt)

/-- Contact younger than the lease; a contact later than `now` has age zero. -/
def isFresh (now : Nat) (voter : ReplicationSourceHoldIdV1) : Bool :=
  match tracker.lastVoterContact voter with
  | some lastContact => now - lastContact < tracker.leaseDuration
  | none => false

def activeVoters (now : Nat) : Nat := (tracker.voters.filter (tracker.isFresh now)).length

def checkOrFence (now : Nat) : Bool × PrimaryQuorumLeaseTracker :=
  if tracker.routing.isRoutingAllowed = false then (false, tracker)
  else if tracker.poisoned then (false, tracker.fence)
  else if tracker.activeVoters now < tracker.requiredVoters then (false, tracker.fence)
  else (true, tracker)

def isFenced : Bool :=
  tracker.routing.isRoutingAllowed = false &&
    tracker.routing.stopReason = some .coordinatorFenced

variable {tracker}

theorem fence_isRoutingAllowed : tracker.fence.routing.isRoutingAllowed = false :=
  RuntimeRoutingState.stop_isRoutingAllowed _ _

theorem recordVoterContact_cases (holdId : ReplicationSourceHoldIdV1) (contactAt : Nat) :
    tracker.recordVoterContact holdId contactAt = (false, tracker) ∨
    tracker.recordVoterContact holdId contactAt = (false, tracker.fence) ∨
      (holdId ∈ tracker.voters ∧
      tracker.recordVoterContact holdId contactAt = (true, tracker.recordAt holdId contactAt)) := by
  unfold recordVoterContact
  split
  · exact .inl rfl
  · split
    · exact .inl rfl
    · rename_i member
      split
      · exact .inr (.inl rfl)
      · exact .inr (.inr ⟨not_not.mp member, rfl⟩)

theorem checkOrFence_cases (now : Nat) :
    (tracker.routing.isRoutingAllowed = false ∧ tracker.checkOrFence now = (false, tracker)) ∨
    tracker.checkOrFence now = (false, tracker.fence) ∨
      (tracker.requiredVoters ≤ tracker.activeVoters now ∧
      tracker.routing.isRoutingAllowed = true ∧ tracker.checkOrFence now = (true, tracker)) := by
  unfold checkOrFence
  split
  · rename_i stopped
    exact .inl ⟨stopped, rfl⟩
  · rename_i running
    split
    · exact .inr (.inl rfl)
    · split
      · exact .inr (.inl rfl)
      · rename_i enough
        exact .inr (.inr ⟨not_lt.mp enough, by simpa using running, rfl⟩)

/-- A check that reports the primary fenced leaves routing stopped. -/
theorem checkOrFence_stops (reported : (tracker.checkOrFence now).1 = false) :
    (tracker.checkOrFence now).2.routing.isRoutingAllowed = false := by
  rcases tracker.checkOrFence_cases now with ⟨stopped, same⟩ | fenced | ⟨_, _, passed⟩
  · rwa [same]
  · rw [fenced]
    exact fence_isRoutingAllowed
  · simp [passed] at reported

theorem checkOrFence_of_stopped (stopped : tracker.routing.isRoutingAllowed = false)
    (now : Nat) : tracker.checkOrFence now = (false, tracker) := if_pos stopped

theorem recordVoterContact_of_stopped (stopped : tracker.routing.isRoutingAllowed = false)
    (holdId : ReplicationSourceHoldIdV1) (contactAt : Nat) :
    tracker.recordVoterContact holdId contactAt = (false, tracker) := if_pos stopped

end PrimaryQuorumLeaseTracker

open PrimaryQuorumLeaseTracker

/-- What can happen to a tracker: a contact call, a check, a panic that poisons the lock, or
another component stopping the daemon. -/
inductive LeaseEvent where
  | contact (holdId : ReplicationSourceHoldIdV1) (contactAt : Nat)
  | check (now : Nat)
  | poison
  | stop (reason : RuntimeStopReason)

/-- A tracker together with every contact it has recorded so far. -/
structure LeaseRun where
  tracker : PrimaryQuorumLeaseTracker
  recorded : List (ReplicationSourceHoldIdV1 × Nat)

variable (tracker : PrimaryQuorumLeaseTracker)

namespace LeaseRun

/-- The constructor's own entries count as contacts made when the tracker started. -/
def start (startedAt : Nat) : LeaseRun :=
  ⟨tracker, tracker.voters.map (·, startedAt)⟩

def step (run : LeaseRun) : LeaseEvent → LeaseRun
  | .contact holdId contactAt =>
    ⟨(run.tracker.recordVoterContact holdId contactAt).2,
      if (run.tracker.recordVoterContact holdId contactAt).1 then
        (holdId, contactAt) :: run.recorded else run.recorded⟩
  | .check now => ⟨(run.tracker.checkOrFence now).2, run.recorded⟩
  | .poison => ⟨{ run.tracker with poisoned := true }, run.recorded⟩
  | .stop reason =>
    ⟨{ run.tracker with routing := run.tracker.routing.stop reason }, run.recorded⟩

def after (start : LeaseRun) (events : List LeaseEvent) : LeaseRun := run step start events

/-- The contact table holds each voter's latest recorded contact. -/
def Latest (run : LeaseRun) : Prop :=
  ∀ voter ∈ run.tracker.voters, ∃ last, run.tracker.lastVoterContact voter = some last ∧
    (voter, last) ∈ run.recorded ∧ ∀ contactAt, (voter, contactAt) ∈ run.recorded →
      contactAt ≤ last

/-- No recorded contact of the voter is younger than the lease. -/
def Stale (run : LeaseRun) (now : Nat) (voter : ReplicationSourceHoldIdV1) : Prop :=
  ∀ contactAt, (voter, contactAt) ∈ run.recorded →
    run.tracker.leaseDuration ≤ now - contactAt

theorem step_static (run : LeaseRun) (event : LeaseEvent) :
    (run.step event).tracker.voters = run.tracker.voters ∧
      (run.step event).tracker.leaseDuration = run.tracker.leaseDuration ∧
      (run.step event).tracker.requiredVoters = run.tracker.requiredVoters := by
  cases event with
  | contact holdId contactAt =>
    rcases run.tracker.recordVoterContact_cases holdId contactAt with same | fenced | ⟨_, written⟩
    · simp [step, same]
    · simp [step, fenced, fence]
    · simp [step, written, recordAt]
  | check now =>
    rcases run.tracker.checkOrFence_cases now with ⟨_, same⟩ | fenced | ⟨_, _, passed⟩
    · simp [step, same]
    · simp [step, fenced, fence]
    · simp [step, passed]
  | poison => exact ⟨rfl, rfl, rfl⟩
  | stop reason => exact ⟨rfl, rfl, rfl⟩

variable {run : LeaseRun}

theorem latest_step (latest : run.Latest) (event : LeaseEvent) : (run.step event).Latest := by
  cases event with
  | contact holdId contactAt =>
    rcases run.tracker.recordVoterContact_cases holdId contactAt with same | fenced | ⟨_, written⟩
    · simpa [step, same] using latest
    · simpa [step, fenced, fence, Latest] using latest
    · intro voter member
      simp only [step, written, recordAt, if_true] at member ⊢
      obtain ⟨last, found, recorded, newest⟩ := latest voter member
      by_cases same : voter = holdId
      · subst same
        refine ⟨if contactAt > last then contactAt else last, ?_, ?_, ?_⟩
        · rw [Function.update_self, found]
          rfl
        · split
          · exact mem_cons_self
          · exact mem_cons_of_mem _ recorded
        · intro other otherRecorded
          have bound : other = contactAt ∨ other ≤ last := by
            rcases mem_cons.mp otherRecorded with fresh | older
            · exact .inl (Prod.mk.inj fresh).2
            · exact .inr (newest other older)
          split <;> omega
      · refine ⟨last, ?_, mem_cons_of_mem _ recorded, ?_⟩
        · rw [Function.update_of_ne same, found]
        · intro other otherRecorded
          rcases mem_cons.mp otherRecorded with fresh | older
          · exact False.elim (same (Prod.mk.inj fresh).1)
          · exact newest other older
  | check now =>
    rcases run.tracker.checkOrFence_cases now with ⟨_, same⟩ | fenced | ⟨_, _, passed⟩
    · simpa [step, same] using latest
    · simpa [step, fenced, fence, Latest] using latest
    · simpa [step, passed] using latest
  | poison => exact latest
  | stop reason => exact latest

theorem latest_after (latest : run.Latest) (events : List LeaseEvent) : (run.after events).Latest :=
  run_invariant (P := Latest) (fun _ event held => latest_step held event) latest events

theorem after_static (run : LeaseRun) (events : List LeaseEvent) :
    (run.after events).tracker.voters = run.tracker.voters ∧
      (run.after events).tracker.leaseDuration = run.tracker.leaseDuration ∧
      (run.after events).tracker.requiredVoters = run.tracker.requiredVoters := by
  refine run_invariant (P := fun later : LeaseRun =>
    later.tracker.voters = run.tracker.voters ∧
    later.tracker.leaseDuration = run.tracker.leaseDuration ∧
      later.tracker.requiredVoters = run.tracker.requiredVoters) ?_ ⟨rfl, rfl, rfl⟩ events
  rintro later event ⟨voters, lease, required⟩
  obtain ⟨sameVoters, sameLease, sameRequired⟩ := step_static later event
  exact ⟨sameVoters.trans voters, sameLease.trans lease, sameRequired.trans required⟩

/-- A stopped routing state is never changed again. -/
theorem step_of_stopped (stopped : run.tracker.routing.isRoutingAllowed = false)
    (event : LeaseEvent) : (run.step event).tracker.routing = run.tracker.routing := by
  cases event with
  | contact holdId contactAt =>
    simp [step, recordVoterContact_of_stopped stopped]
  | check now => simp [step, checkOrFence_of_stopped stopped]
  | poison => rfl
  | stop reason => exact RuntimeRoutingState.stop_of_stopped stopped reason

theorem after_of_stopped (run : LeaseRun) (stopped : run.tracker.routing.isRoutingAllowed = false)
    (events : List LeaseEvent) : (run.after events).tracker.routing = run.tracker.routing := by
  refine run_invariant (P := fun later : LeaseRun =>
    later.tracker.routing = run.tracker.routing) ?_ rfl events
  intro later event same
  rw [step_of_stopped (by rwa [same]), same]

variable {voter : ReplicationSourceHoldIdV1}

/-- A voter whose recorded contacts are all stale is not counted. -/
theorem isFresh_of_stale (latest : run.Latest) (member : voter ∈ run.tracker.voters)
    (stale : run.Stale now voter) : run.tracker.isFresh now voter = false := by
  obtain ⟨last, found, recorded, _⟩ := latest voter member
  simpa [isFresh, found] using stale last recorded

variable {group : List ReplicationSourceHoldIdV1}

/-- With an even number of voters, or one, a stale majority leaves too few fresh ones. -/
theorem checkOrFence_of_stale_majority (latest : run.Latest)
    (parity : run.tracker.voters.length % 2 = 0 ∨ run.tracker.voters.length = 1)
    (distinct : group.Nodup) (inside : group ⊆ run.tracker.voters)
    (majority : strictMajority run.tracker.voters.length ≤ group.length)
    (stale : ∀ voter ∈ group, run.Stale now voter) : (run.tracker.checkOrFence now).1 = false := by
  have few := length_filter_add_le (p := run.tracker.isFresh now) distinct inside
    fun voter member => isFresh_of_stale latest (inside member) (stale voter member)
  rcases run.tracker.checkOrFence_cases now with ⟨_, same⟩ | fenced | ⟨enough, _, _⟩
  · rw [same]
  · rw [fenced]
  · have threshold := run.tracker.threshold
    simp only [activeVoters] at enough
    simp only [strictMajority] at majority
    omega

/-- Contacts of configured voters are all recorded while the primary runs. -/
theorem after_contacts (run : LeaseRun)
    (running : run.tracker.routing.isRoutingAllowed = true) (healthy : run.tracker.poisoned = false)
    (inside : group ⊆ run.tracker.voters) (contactAt : Nat) :
    (run.after (group.map (LeaseEvent.contact · contactAt))).tracker.routing = run.tracker.routing ∧
      (run.after (group.map (LeaseEvent.contact · contactAt))).tracker.poisoned = false ∧
      (run.after (group.map (LeaseEvent.contact · contactAt))).recorded =
        group.reverse.map (·, contactAt) ++ run.recorded := by
  induction group generalizing run with
  | nil => exact ⟨rfl, healthy, rfl⟩
  | cons voter group ih =>
    have member := inside mem_cons_self
    have written : run.step (.contact voter contactAt) =
        ⟨run.tracker.recordAt voter contactAt, (voter, contactAt) :: run.recorded⟩ := by
      simp [step, recordVoterContact, running, member, healthy]
    have rest := ih (run.step (.contact voter contactAt)) (by rw [written]; exact running)
      (by rw [written]; exact healthy)
      (by rw [written]; exact fun other later => inside (mem_cons_of_mem _ later))
    simp only [map_cons, after, run_cons] at rest ⊢
    rw [written] at rest ⊢
    refine ⟨rest.1, rest.2.1, rest.2.2.trans ?_⟩
    simp

end LeaseRun

/-- In every history, a check made after every recorded contact reports the primary fenced
whenever enough voters to elect a successor are stale. -/
def FencesStaleMajority (startedAt : Nat) : Prop :=
  ∀ (events : List LeaseEvent) (now : Nat),
    (∀ contact ∈ ((LeaseRun.start tracker startedAt).after events).recorded, contact.2 ≤ now) →
    ∀ group : List ReplicationSourceHoldIdV1, group.Nodup → group ⊆ tracker.voters →
      strictMajority tracker.voters.length ≤ group.length →
      (∀ voter ∈ group, ((LeaseRun.start tracker startedAt).after events).Stale now voter) →
      (((LeaseRun.start tracker startedAt).after events).tracker.checkOrFence now).1 = false

/-- Once a check has reported the primary fenced, nothing later reports it running. -/
def FenceIsFinal (startedAt : Nat) : Prop :=
  ∀ (before : List LeaseEvent) (now : Nat) (later : List LeaseEvent),
    let run := (LeaseRun.start tracker startedAt).after before
    let fenced := run.step (.check now)
    (run.tracker.checkOrFence now).1 = false →
      (∀ at', ((fenced.after later).tracker.checkOrFence at').1 = false) ∧
      (∀ holdId at', ((fenced.after later).tracker.recordVoterContact holdId at').1 = false) ∧
      (fenced.after later).tracker.isFenced = fenced.tracker.isFenced

open LeaseRun

theorem fenceIsFinal (startedAt : Nat) : FenceIsFinal tracker startedAt := by
  intro before now later run fenced reported
  have stopped : fenced.tracker.routing.isRoutingAllowed = false :=
    checkOrFence_stops reported
  have same := after_of_stopped fenced stopped later
  have still : (fenced.after later).tracker.routing.isRoutingAllowed = false := by rwa [same]
  refine ⟨?_, ?_, ?_⟩
  · intro now
    rw [checkOrFence_of_stopped still]
  · intro holdId contactAt
    rw [recordVoterContact_of_stopped still]
  · rw [isFenced, isFenced, same]

section Threshold

variable {voters : List ReplicationSourceHoldIdV1} {leaseDuration electionTimeout : Nat}
  {routing : RuntimeRoutingState} {startedAt : Nat} {tracker : PrimaryQuorumLeaseTracker}

theorem fencesStaleMajority_of_stopped (stopped : tracker.routing.isRoutingAllowed = false) :
    FencesStaleMajority tracker startedAt := by
  intro events now _ group _ _ _ _
  have same := after_of_stopped (start tracker startedAt) stopped events
  rw [checkOrFence_of_stopped]
  rw [same]
  exact stopped

/-- A healthy running primary keeps running while a group of the required size is fresh. -/
theorem checkOrFence_of_fresh_group {run : LeaseRun} (latest : run.Latest)
    (running : run.tracker.routing.isRoutingAllowed = true) (healthy : run.tracker.poisoned = false)
    {group : List ReplicationSourceHoldIdV1} (distinct : group.Nodup)
    (inside : group ⊆ run.tracker.voters) (recorded : ∀ voter ∈ group, (voter, now) ∈ run.recorded)
    (enough : run.tracker.requiredVoters ≤ group.length) :
    (run.tracker.checkOrFence now).1 = true := by
  have counted : group ⊆ run.tracker.voters.filter (run.tracker.isFresh now) := by
    intro voter member
    obtain ⟨last, found, _, newest⟩ := latest voter (inside member)
    have bound := newest now (recorded voter member)
    have positive := run.tracker.leasePositive
    refine mem_filter.mpr ⟨inside member, ?_⟩
    simp only [isFresh, found, decide_eq_true_eq]
    omega
  have active : run.tracker.requiredVoters ≤ run.tracker.activeVoters now :=
    enough.trans (subperm_of_subset distinct counted).length_le
  simp [checkOrFence, running, healthy, not_lt.mpr active]

/-- The run in which the first half of the voters is in contact when the first lease ends. -/
def halfInContact (tracker : PrimaryQuorumLeaseTracker) (startedAt : Nat) : LeaseRun :=
  (LeaseRun.start tracker startedAt).after
    ((tracker.voters.take (tracker.voters.length / 2)).map
      (LeaseEvent.contact · (startedAt + tracker.leaseDuration)))

section

variable (running : tracker.routing.isRoutingAllowed = true) (healthy : tracker.poisoned = false)

include running healthy

theorem halfInContact_recorded : (halfInContact tracker startedAt).recorded =
      (tracker.voters.take (tracker.voters.length / 2)).reverse.map
        (·, startedAt + tracker.leaseDuration) ++ tracker.voters.map (·, startedAt) :=
  (after_contacts (start tracker startedAt) running healthy (take_subset _ _) _).2.2

/-- Contacts change neither the configuration nor the routing. -/
theorem halfInContact_kept :
    (halfInContact tracker startedAt).tracker.routing = tracker.routing ∧
      (halfInContact tracker startedAt).tracker.poisoned = false ∧
      (halfInContact tracker startedAt).tracker.voters = tracker.voters ∧
      (halfInContact tracker startedAt).tracker.leaseDuration = tracker.leaseDuration ∧
      (halfInContact tracker startedAt).tracker.requiredVoters = tracker.requiredVoters := by
  obtain ⟨routed, unpoisoned, _⟩ := after_contacts (start tracker startedAt)
    running healthy (take_subset (tracker.voters.length / 2) _)
    (startedAt + tracker.leaseDuration)
  exact ⟨routed, unpoisoned, after_static (start tracker startedAt) _⟩

/-- No contact of that run lies in the future, and the other half has only its start. -/
theorem halfInContact_contact {voter : ReplicationSourceHoldIdV1} {contactAt : Nat}
    (contact : (voter, contactAt) ∈ (halfInContact tracker startedAt).recorded) :
    contactAt = startedAt + tracker.leaseDuration ∧
        voter ∈ tracker.voters.take (tracker.voters.length / 2) ∨ contactAt = startedAt := by
  rw [halfInContact_recorded running healthy] at contact
  rcases mem_append.mp contact with fresh | seeded
  · obtain ⟨other, inHalf, equal⟩ := mem_map.mp fresh
    cases equal
    exact Or.inl ⟨rfl, mem_reverse.mp inHalf⟩
  · obtain ⟨_, _, equal⟩ := mem_map.mp seeded
    cases equal
    exact Or.inr rfl

end

variable
  (accepted :
    PrimaryQuorumLeaseTracker.new voters leaseDuration electionTimeout routing startedAt
    = some tracker)

include accepted

theorem latest_start : (start tracker startedAt).Latest := by
  unfold PrimaryQuorumLeaseTracker.new at accepted
  split at accepted
  · cases accepted
    intro voter member
    change voter ∈ voters at member
    refine ⟨startedAt, by simp [start, member], mem_map.mpr ⟨voter, member, rfl⟩, ?_⟩
    intro contactAt recorded
    obtain ⟨_, _, equal⟩ := mem_map.mp recorded
    cases equal
    exact le_rfl
  · cases accepted

theorem new_fields : tracker.voters = voters ∧ tracker.leaseDuration = leaseDuration ∧
      tracker.routing = routing ∧ tracker.poisoned = false := by
  unfold PrimaryQuorumLeaseTracker.new at accepted
  split at accepted
  · cases accepted
    exact ⟨rfl, rfl, rfl, rfl⟩
  · cases accepted

theorem fencesStaleMajority_of_even (parity : voters.length % 2 = 0 ∨ voters.length = 1) :
    FencesStaleMajority tracker startedAt := by
  intro events now _ group distinct inside majority stale
  have latest := latest_after (latest_start accepted) events
  obtain ⟨sameVoters, _, _⟩ := after_static (start tracker startedAt) events
  change _ = tracker.voters at sameVoters
  rw [← sameVoters] at inside majority
  rw [← (new_fields accepted).1, ← sameVoters] at parity
  exact checkOrFence_of_stale_majority latest parity distinct inside majority stale

theorem halfInContact_passes (running : tracker.routing.isRoutingAllowed = true)
    (healthy : tracker.poisoned = false) (several : 1 < tracker.voters.length) :
    ((halfInContact tracker startedAt).tracker.checkOrFence
      (startedAt + tracker.leaseDuration)).1 = true := by
  obtain ⟨sameRouting, unpoisoned, sameVoters, _, sameRequired⟩ :=
    halfInContact_kept running healthy
  have latest : (halfInContact tracker startedAt).Latest :=
    latest_after (latest_start accepted) _
  apply checkOrFence_of_fresh_group latest (sameRouting ▸ running) unpoisoned
    (tracker.distinct.sublist (take_sublist (tracker.voters.length / 2) _))
    (sameVoters ▸ take_subset _ _)
  · intro voter member
    rw [halfInContact_recorded running healthy]
    exact mem_append_left _ (mem_map.mpr ⟨voter, mem_reverse.mpr member, rfl⟩)
  · have threshold := tracker.threshold
    rw [sameRequired, length_take]
    omega

/-- With an odd number of voters above one, the first half keeps the primary running while the
remaining majority is stale. -/
theorem not_fencesStaleMajority_of_odd (running : routing.isRoutingAllowed = true)
    (odd : voters.length % 2 = 1) (several : 1 < voters.length) :
    ¬ FencesStaleMajority tracker startedAt := by
  obtain ⟨sameVoters, sameLease, sameRouting, healthy⟩ := new_fields accepted
  subst sameVoters sameLease sameRouting
  intro fences
  have apart : ∀ voter ∈ tracker.voters.drop (tracker.voters.length / 2),
      voter ∉ tracker.voters.take (tracker.voters.length / 2) := by
    have split := tracker.distinct
    rw [← take_append_drop (tracker.voters.length / 2) tracker.voters] at split
    intro voter inRest inHalf
    exact (nodup_append.mp split).2.2 voter inHalf voter inRest rfl
  have bounded : ∀ contact ∈ (halfInContact tracker startedAt).recorded,
      contact.2 ≤ startedAt + tracker.leaseDuration := by
    intro contact member
    rcases halfInContact_contact running healthy member with ⟨fresh, _⟩ | seeded <;> omega
  have stale : ∀ voter ∈ tracker.voters.drop (tracker.voters.length / 2),
      (halfInContact tracker startedAt).Stale (startedAt + tracker.leaseDuration) voter := by
    intro voter member contactAt contact
    rw [(halfInContact_kept running healthy).2.2.2.1]
    rcases halfInContact_contact running healthy contact with ⟨_, inHalf⟩ | seeded
    · exact False.elim (apart voter member inHalf)
    · rw [seeded]
      exact (Nat.add_sub_cancel_left startedAt tracker.leaseDuration).ge
  have reported := fences _ _ bounded _
    (tracker.distinct.sublist (drop_sublist (tracker.voters.length / 2) _))
    (drop_subset _ _) (by rw [length_drop]; simp only [strictMajority]; omega) stale
  have passes := halfInContact_passes accepted running healthy several
  rw [halfInContact] at passes
  rw [passes] at reported
  cases reported

/-- For every accepted configuration, the lease outlasts no electing majority exactly when the
number of voters is even or one, or the daemon was already stopped; the fence is always final. -/
theorem lease_fences_stale_majority_iff : (FencesStaleMajority tracker startedAt ↔
      voters.length % 2 = 0 ∨ voters.length = 1 ∨ routing.isRoutingAllowed = false) ∧
    FenceIsFinal tracker startedAt := by
  refine ⟨⟨?_, ?_⟩, fenceIsFinal tracker startedAt⟩
  · intro fences
    by_contra outside
    push Not at outside
    obtain ⟨odd, several, running⟩ := outside
    have nonempty : voters.length ≠ 0 := by
      rw [← (new_fields accepted).1]
      exact fun empty => tracker.nonempty (length_eq_zero_iff.mp empty)
    exact not_fencesStaleMajority_of_odd accepted (by simpa using running) (by omega) (by omega)
      fences
  · rintro (even | single | stopped)
    · exact fencesStaleMajority_of_even accepted (.inl even)
    · exact fencesStaleMajority_of_even accepted (.inr single)
    · apply fencesStaleMajority_of_stopped
      rwa [(new_fields accepted).2.2.1]

end Threshold

open ReplicationSourceHoldIdV1 in
/-- Three voters under a lease of ten ticks, started at time zero. -/
def threeVoterTracker : PrimaryQuorumLeaseTracker :=
  (PrimaryQuorumLeaseTracker.new [filledWith 1, filledWith 2, filledWith 3] 10 20 .running 0).get
    (by decide)

open ReplicationSourceHoldIdV1 in
/-- One contact at time ten keeps the primary running although the other two voters, a majority,
have been silent for the whole lease. -/
theorem threeVoterTracker_outlasts_majority : strictMajority 3 = 2 ∧
    ((LeaseRun.start threeVoterTracker 0).after [.contact (filledWith 1) 10]).recorded =
      [(filledWith 1, 10), (filledWith 1, 0), (filledWith 2, 0), (filledWith 3, 0)] ∧
    (((LeaseRun.start threeVoterTracker 0).after [.contact (filledWith 1) 10]).tracker.checkOrFence
      10).1 = true ∧
    ¬ FencesStaleMajority threeVoterTracker 0 := by
  refine ⟨by decide, by decide, by decide, ?_⟩
  intro fences
  have reported := fences [.contact (filledWith 1) 10] 10 (by decide)
    [filledWith 2, filledWith 3] (by decide) (by decide) (by decide)
    (by
      have checked : ∀ voter ∈ [filledWith 2, filledWith 3],
          ∀ contact ∈ ((start threeVoterTracker 0).after
            [.contact (filledWith 1) 10]).recorded, contact.1 = voter → 10 ≤ 10 - contact.2 := by
        decide
      exact fun voter member contactAt contact =>
      checked voter member (voter, contactAt) contact rfl)
  exact absurd reported (by decide)

open ReplicationSourceHoldIdV1 in
/-- Two voters under a lease of ten ticks, started at time zero. -/
def twoVoterTracker : PrimaryQuorumLeaseTracker :=
  (PrimaryQuorumLeaseTracker.new [filledWith 1, filledWith 2] 10 20 .running 0).get (by decide)

theorem lease_fences_stale_majority_twoVoters :
    FencesStaleMajority twoVoterTracker 0 ∧ FenceIsFinal twoVoterTracker 0 := by
  have accepted : PrimaryQuorumLeaseTracker.new _ 10 20 .running 0 = some twoVoterTracker :=
    (Option.some_get _).symm
  have settled := lease_fences_stale_majority_iff accepted
  exact ⟨settled.1.mpr (.inl (by decide)), settled.2⟩

end PrimaryLease
