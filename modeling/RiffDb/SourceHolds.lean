import RiffDb.ChangelogHistory
import RiffDb.ReplicationQuorum
import RiffDb.SortedRows

/-!
# Source holds and voter progress

The source keeps one row per registered follower, archive or live bootstrap, each pinning a retained
position. Modelled are the rows, the acknowledgement and attachment transactions that move them, and
the observation from which the primary decides that a quorum has acknowledged a commit.
-/

namespace SourceHolds

open ByteWire CheckedCode SortedRows ReplicationTypes ChangelogHistory List

def maxReplicationSourceHoldsV1 : Nat := 4096

def maxQuorumAckFollowersV1 : Nat := 15

inductive ReplicationSourceHoldKindV1 where
  | followerAcknowledgement
  | archiveAcknowledgement
  | bootstrap
deriving DecidableEq, Repr

/-- The frozen key tags. -/
def ReplicationSourceHoldKindV1.tag : ReplicationSourceHoldKindV1 → UInt8
  | .followerAcknowledgement => 1
  | .archiveAcknowledgement => 2
  | .bootstrap => 3

@[ext] structure ReplicationSourceHoldV1 where
  id : ReplicationSourceHoldIdV1
  kind : ReplicationSourceHoldKindV1
  lineage : ChangelogLineageV3
  fence : ChangelogHistoryPointV3
deriving DecidableEq

namespace ReplicationSourceHoldV1

def storageKeyFor (id : ReplicationSourceHoldIdV1) (kind : ReplicationSourceHoldKindV1) : Bytes :=
  kind.tag :: id.asBytes.toList

def storageKey (hold : ReplicationSourceHoldV1) : Bytes := storageKeyFor hold.id hold.kind

theorem storageKeyFor_injective {id other : ReplicationSourceHoldIdV1}
    {kind otherKind : ReplicationSourceHoldKindV1}
    (same : storageKeyFor id kind = storageKeyFor other otherKind) :
      id = other ∧ kind = otherKind := by
  obtain ⟨tags, bytes⟩ := List.cons.inj same
  refine ⟨ReplicationSourceHoldIdV1.ext (List.Vector.eq _ _ bytes), ?_⟩
  cases kind <;> cases otherKind <;> first | rfl | exact absurd tags (by decide)

end ReplicationSourceHoldV1

/-- Nonzero application-sequence allowance of one registration. -/
abbrev FollowerHoldBudget := NonZeroU64

structure FollowerHoldBudgetObservation where
  applicationLagSequences : Nat
  remainingSequences : Nat
deriving DecidableEq, Repr

def FollowerHoldBudgetObservation.isExhausted (observation : FollowerHoldBudgetObservation) :
    Bool := observation.remainingSequences = 0

/-- A health observation; administration and physical receipts consume no allowance. -/
def FollowerHoldBudget.observe (budget : FollowerHoldBudget) (hold : ReplicationSourceHoldV1)
    (history : ChangelogHistoryStateV3) :
    Except ChangelogV3Error FollowerHoldBudgetObservation := do
  require (hold.kind = .followerAcknowledgement ∧ hold.lineage = history.lineage ∧
    history.minimumResume.precedesOrEquals hold.fence = true ∧
    hold.fence.precedesOrEquals history.tail = true) .predecessorMismatch
  let head := sequenceValue history.tail.frontier.application
  let acknowledged := sequenceValue hold.fence.frontier.application
  require (acknowledged ≤ head) .predecessorMismatch
  let lag := head - acknowledged
  .ok ⟨lag, budget.get - lag⟩

inductive FollowerRegistrationPhaseV1 where
  | awaitingBootstrap
  | attached
  | retired
deriving DecidableEq, Repr

/-- The shape checks of a registration policy, in the constructor's order. -/
def checkPolicy (hold : ReplicationSourceHoldV1) (registeredAt : ChangelogHistoryPointV3)
    (budget : FollowerHoldBudget) (expiresAt : Option CommitSequence)
    (phase : FollowerRegistrationPhaseV1) (degradedAt : Option ChangelogHistoryPointV3) :
    Except ChangelogV3Error Unit := do
  require (hold.kind = .followerAcknowledgement ∧ (hold.fence.precedesOrEquals registeredAt = true ∨
      registeredAt.precedesOrEquals hold.fence = true) ∧
    (phase = .awaitingBootstrap → hold.fence = registeredAt) ∧
    (∀ expiry ∈ expiresAt, sequenceValue registeredAt.frontier.application < expiry.get))
    .invalidEncoding
  match degradedAt with
  | none => .ok ()
  | some observed => do
    require (hold.fence.precedesOrEquals observed = true ∧
      registeredAt.precedesOrEquals observed = true) .predecessorMismatch
    let head := sequenceValue observed.frontier.application
    let ack := sequenceValue hold.fence.frontier.application
    require (ack ≤ head) .predecessorMismatch
    require (¬(head - ack < budget.get ∧ ∀ expiry ∈ expiresAt, head < expiry.get)) .invalidEncoding

/-- A registration policy that passed its constructor. -/
@[ext] structure ReplicationSourceHoldV2 where
  hold : ReplicationSourceHoldV1
  registeredAt : ChangelogHistoryPointV3
  generation : ChangelogTransactionSequence
  budget : FollowerHoldBudget
  expiresAt : Option CommitSequence
  phase : FollowerRegistrationPhaseV1
  degradedAt : Option ChangelogHistoryPointV3
  successor : registeredAt.sequence.checkedNext = some generation
  checked : checkPolicy hold registeredAt budget expiresAt phase degradedAt = .ok ()

def ReplicationSourceHoldV2.new (hold : ReplicationSourceHoldV1)
    (registeredAt : ChangelogHistoryPointV3) (budget : FollowerHoldBudget)
    (expiresAt : Option CommitSequence) (phase : FollowerRegistrationPhaseV1)
    (degradedAt : Option ChangelogHistoryPointV3) :
    Except ChangelogV3Error ReplicationSourceHoldV2 :=
  match successor : registeredAt.sequence.checkedNext with
  | none => .error .invalidEncoding
  | some generation =>
    match checked : checkPolicy hold registeredAt budget expiresAt phase degradedAt with
    | .error reason => .error reason
    | .ok () => .ok ⟨hold, registeredAt, generation, budget, expiresAt, phase, degradedAt,
        successor, checked⟩

inductive ReplicationSourceHoldStateV1 where
  | legacy (hold : ReplicationSourceHoldV1)
  | registered (policy : ReplicationSourceHoldV2)

namespace ReplicationSourceHoldStateV1

def hold : ReplicationSourceHoldStateV1 → ReplicationSourceHoldV1
  | .legacy hold => hold
  | .registered policy => policy.hold

/-- A row whose owner may acknowledge: unregistered legacy or attached. -/
def isActive : ReplicationSourceHoldStateV1 → Bool
  | .legacy _ => true
  | .registered policy => policy.phase = .attached

def isRetired : ReplicationSourceHoldStateV1 → Bool
  | .legacy _ => false
  | .registered policy => policy.phase = .retired

end ReplicationSourceHoldStateV1

/-- The source-control table, in key order. -/
abbrev HoldRows := List (Bytes × ReplicationSourceHoldStateV1)

namespace HoldRows

def get (rows : HoldRows) (key : Bytes) : Option ReplicationSourceHoldStateV1 := rows.lookup key

/-- Replace the row of a key, or insert it at its place. -/
def insert (key : Bytes) (state : ReplicationSourceHoldStateV1) (rows : HoldRows) : HoldRows :=
  put compare key state rows

def remove (rows : HoldRows) (key : Bytes) : HoldRows := rows.filter (·.1 ≠ key)

/-- Rows in the order of their keys. -/
abbrev Ordered (rows : HoldRows) : Prop := Ascending compare rows

theorem get_insert (key other : Bytes) (state : ReplicationSourceHoldStateV1) (rows : HoldRows) :
    (rows.insert key state).get other = if other = key then some state else rows.get other := by
  simpa [get, insert] using lookup_put key other state rows

end HoldRows

inductive Refusal where
  | unavailable
  | invalidPosition
  | value (reason : ChangelogV3Error)
deriving DecidableEq, Repr

/-- What the source-control writer reads: its own admission flags, the published roots, the
rows, and which positions its receipt cursor still opens at. -/
structure SourceControl where
  writeFenced : Bool
  followerMode : Bool
  history : ChangelogHistoryStateV3
  retained : ChangelogLineageV3 → ChangelogHistoryPointV3 → Bool
  rows : HoldRows

/-- The fence of a registration moves and its health is recomputed at the published head. -/
def withFence (prior : ReplicationSourceHoldV2) (hold : ReplicationSourceHoldV1)
    (history : ChangelogHistoryStateV3) : Except ChangelogV3Error ReplicationSourceHoldV2 := do
  let observation ← FollowerHoldBudget.observe prior.budget hold history
  let head := sequenceValue history.tail.frontier.application
  let expired := prior.expiresAt.any (·.get ≤ head)
  ReplicationSourceHoldV2.new hold prior.registeredAt prior.budget prior.expiresAt .attached
    (if observation.isExhausted || expired then some history.tail else none)

def advanceRegistered (prior : ReplicationSourceHoldV2) (hold : ReplicationSourceHoldV1)
    (history : ChangelogHistoryStateV3) : Except ChangelogV3Error ReplicationSourceHoldV2 := do
  require (prior.phase = .attached ∧ prior.hold.id = hold.id ∧
    prior.hold.lineage = hold.lineage ∧ prior.hold.fence.precedesOrEquals hold.fence = true ∧
    prior.hold.fence.sequence.get < hold.fence.sequence.get) .predecessorMismatch
  withFence prior hold history

variable {hold : ReplicationSourceHoldV1}

variable {prior policy : ReplicationSourceHoldV2} {history : ChangelogHistoryStateV3}

theorem withFence_hold (moved : withFence prior hold history = .ok policy) :
    policy.hold = hold := by
  obtain ⟨observation, _, built⟩ := bind_eq_ok.mp moved
  unfold ReplicationSourceHoldV2.new at built
  split at built
  · cases built
  · dsimp only at built
    split at built
    · cases built
    · cases built
      rfl

theorem advanceRegistered_hold
    (moved : advanceRegistered prior hold history = .ok policy) : policy.hold = hold := by
  obtain ⟨_, _, moved⟩ := bind_eq_ok.mp moved
  exact withFence_hold moved

namespace SourceControl

variable (control : SourceControl)

def isReplicationFollowerAlreadyAcknowledgedV3 (id : ReplicationSourceHoldIdV1)
    (lineage : ChangelogLineageV3) (acknowledged : ChangelogHistoryPointV3) :
    Except Refusal Bool := do
  require (control.writeFenced = false ∧ control.followerMode = false) .unavailable
  match control.rows.get (ReplicationSourceHoldV1.storageKeyFor id .followerAcknowledgement) with
  | none => .ok false
  | some state => .ok (state.isActive && state.hold.id = id &&
      state.hold.kind = .followerAcknowledgement && state.hold.lineage = lineage &&
      state.hold.fence = acknowledged)

/-- The row an acknowledgement writes; `none` when the stored hold is already the same. -/
def acknowledgedRow (hold : ReplicationSourceHoldV1) :
    Except Refusal (Option ReplicationSourceHoldStateV1) := do
  require (control.writeFenced = false ∧ control.followerMode = false) .unavailable
  require (hold.kind = .followerAcknowledgement) .invalidPosition
  require (control.retained hold.lineage hold.fence = true) .invalidPosition
  let state ← okOr (control.rows.get hold.storageKey) .invalidPosition
  require (state.isActive = true) .invalidPosition
  require (state.hold.id = hold.id ∧ state.hold.lineage = hold.lineage) .invalidPosition
  if state.hold = hold then .ok none
  else do
    require (state.hold.fence.sequence.get < hold.fence.sequence.get) .invalidPosition
    match state with
    | .legacy _ => .ok (some (.legacy hold))
    | .registered policy =>
      ((advanceRegistered policy hold control.history).mapError Refusal.value).map
        fun policy => some (.registered policy)

/-- One acknowledgement transaction. The control receipt it writes extends the published
history like any other receipt and is not part of the rows. -/
def acknowledgeFollower (hold : ReplicationSourceHoldV1) : Except Refusal HoldRows := do
  let written ← control.acknowledgedRow hold
  match written with
  | none => .ok control.rows
  | some state => .ok (control.rows.insert hold.storageKey state)

variable {control}

/-- An acknowledgement leaves the rows alone, or moves one row to a later retained fence. -/
theorem acknowledgeFollower_eq_ok {hold : ReplicationSourceHoldV1} {rows : HoldRows}
    (acknowledged : control.acknowledgeFollower hold = .ok rows) :
    rows = control.rows ∨ ∃ prior state, control.rows.get hold.storageKey = some prior ∧
      prior.hold.fence.sequence.get < hold.fence.sequence.get ∧
      control.retained hold.lineage hold.fence = true ∧ state.hold = hold ∧
      rows = control.rows.insert hold.storageKey state := by
  simp only [acknowledgeFollower, acknowledgedRow, bind_eq_ok, require_eq_ok, okOr_eq_ok]
    at acknowledged
  obtain ⟨written, ⟨_, _, _, _, _, retained, prior, isPrior, _, _, _, _, decided⟩, stored⟩ :=
    acknowledged
  by_cases same : prior.hold = hold
  · rw [if_pos same] at decided
    cases decided
    cases stored
    exact Or.inl rfl
  · rw [if_neg same] at decided
    obtain ⟨_, later, moved⟩ := bind_eq_ok.mp decided
    rw [require_eq_ok] at later
    right
    cases prior with
    | legacy old =>
      cases moved
      cases stored
      exact ⟨_, _, isPrior, later, retained, rfl, rfl⟩
    | registered policy =>
      simp only [map_eq_ok, mapError_eq_ok] at moved
      obtain ⟨advanced, isAdvanced, rfl⟩ := moved
      cases stored
      exact ⟨_, .registered advanced, isPrior, later, retained,
        advanceRegistered_hold isAdvanced, rfl⟩

variable (control)

/-- The row an attachment writes in place of a bootstrap hold; `none` when the follower row
already stands at that fence. -/
def attachedRow (bootstrap : ReplicationSourceHoldV1) :
    Except Refusal (Option ReplicationSourceHoldStateV1) := do
  require (bootstrap.kind = .bootstrap) .invalidPosition
  require (control.retained bootstrap.lineage bootstrap.fence = true) .invalidPosition
  let follower := { bootstrap with kind := .followerAcknowledgement }
  let oldBootstrap := (control.rows.get bootstrap.storageKey).map (·.hold)
  match oldBootstrap, control.rows.get follower.storageKey with
  | none, some (.registered policy) => do
    require (policy.phase = .attached ∧ policy.hold = follower) .invalidPosition
    .ok none
  | none, some (.legacy exact) => do
    require (exact = follower) .invalidPosition
    .ok none
  | some exact, some (.registered policy) => do
    require (exact = bootstrap ∧ policy.phase = .awaitingBootstrap ∧
      policy.hold.id = bootstrap.id ∧ policy.hold.lineage = bootstrap.lineage ∧
      policy.registeredAt.precedesOrEquals bootstrap.fence = true) .invalidPosition
    ((withFence policy follower control.history).mapError Refusal.value).map
      fun policy => some (.registered policy)
  | some exact, none => do
    require (exact = bootstrap) .invalidPosition
    .ok (some (.legacy follower))
  | some exact, some (.legacy attached) => do
    require (exact = bootstrap ∧ attached = follower) .invalidPosition
    .ok (some (.legacy follower))
  | none, none => .error .invalidPosition

/-- One attachment transaction: the follower row is inserted and the bootstrap row removed. -/
def attachBootstrap (bootstrap : ReplicationSourceHoldV1) : Except Refusal HoldRows := do
  let written ← control.attachedRow bootstrap
  match written with
  | none => .ok control.rows
  | some state => .ok ((control.rows.insert
      (ReplicationSourceHoldV1.storageKeyFor bootstrap.id .followerAcknowledgement) state).remove
        bootstrap.storageKey)

end SourceControl

end SourceHolds
