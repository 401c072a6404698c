import RiffDb.ElectionSafety
import RiffDb.SourceProgress

/-!
# Quorum commits and failover

The primary of one epoch, the followers that receive its frames and the elections among them, as one
system. The primary releases a commit when enough of the configured voters have acknowledged it. A
follower applies, acknowledges and publishes in separate steps, checks the epoch fence when it
opens, when an item arrives and when the frame is applied, and meanwhile answers vote requests and
runs its own candidacy.

Requests and votes are values handed over by an arbitrary network.
-/

namespace Failover

open ReplicationTypes ReplicationQuorum ChangelogHistory SourceHolds SourceProgress EpochPromise
  Quorums Runs

/-- Where the receiver of a follower is. A frame that fails its epoch check leaves the receiver
without its writer until the process restarts. -/
inductive Receiver where
  | closed
  | opening
  | streaming
  | received (covered : ChangelogHistoryPointV3)
  | admitted (covered : ChangelogHistoryPointV3)
  | committed
  | acknowledged
  | failed
deriving DecidableEq

/-- A frame has arrived and waits for the applier's check. -/
def Receiver.isReceived : Receiver → Bool
  | .received _ => true
  | _ => false

/-- A frame has passed the check and waits for its commit. -/
def Receiver.isAdmitted : Receiver → Bool
  | .admitted _ => true
  | _ => false

/-- A follower: its voter, its durable applied position, the acknowledgement it has recorded
locally and its receiver. The view of the voter is the published read view. -/
structure Replica where
  node : VoterNode
  applied : ChangelogHistoryPointV3
  localAcknowledgement : Option ChangelogHistoryPointV3
  receiver : Receiver

/-- The primary: the points it has published, its history roots and its source-control rows. -/
structure Primary where
  chain : List ChangelogHistoryPointV3
  history : ChangelogHistoryStateV3
  rows : HoldRows

/-- The primary, the followers, the reports and votes that have left their senders, and the
commits the primary has released. -/
structure Cluster where
  primary : Primary
  replicas : ReplicationSourceHoldIdV1 → Replica
  reports : List (ReplicationSourceHoldIdV1 × ChangelogHistoryPointV3)
  votes : List ReplicationEpochVoteV1
  released : List CommitSequence

/-- One step of one party. -/
inductive Event where
  | publishFrame (point : ChangelogHistoryPointV3)
  | deliverReport (voter : ReplicationSourceHoldIdV1) (point : ChangelogHistoryPointV3)
  | releaseCommit (commit : CommitSequence)
  | openStream (voter : ReplicationSourceHoldIdV1)
  | report (voter : ReplicationSourceHoldIdV1)
  | closeStream (voter : ReplicationSourceHoldIdV1)
  | receive (voter : ReplicationSourceHoldIdV1) (covered : ChangelogHistoryPointV3)
  | recheckFence (voter : ReplicationSourceHoldIdV1)
  | commit (voter : ReplicationSourceHoldIdV1)
  | acknowledge (voter : ReplicationSourceHoldIdV1)
  | publishView (voter : ReplicationSourceHoldIdV1)
  | vote (voter : ReplicationSourceHoldIdV1) (event : NodeEvent)
  | restart (voter : ReplicationSourceHoldIdV1) (keepsRename : Bool)

variable (primary : Primary) (replica : Replica)

/-- What the source-control writer of the primary reads. -/
def Primary.control : SourceControl where
  writeFenced := false
  followerMode := false
  history := primary.history
  retained := fun lineage point => lineage = primary.history.lineage && point ∈ primary.chain
  rows := primary.rows

/-- The published history moves to a later point of the same shape. -/
def Primary.publishFrame (point : ChangelogHistoryPointV3) : Primary :=
  if primary.history.tail.sequence.get < point.sequence.get ∧
      primary.history.tail.precedesOrEquals point = true then
    match ChangelogHistoryStateV3.new primary.history.lineage primary.history.anchor point
        primary.history.minimumResume with
    | .error _ => primary
    | .ok history => { primary with chain := primary.chain ++ [point], history := history }
  else primary

/-- A follower-phase open: the acknowledgement transaction at the reported position. -/
def Primary.acknowledge (voter : ReplicationSourceHoldIdV1) (point : ChangelogHistoryPointV3) :
    Primary :=
  match primary.control.acknowledgeFollower
      ⟨voter, .followerAcknowledgement, primary.history.lineage, point⟩ with
  | .error _ => primary
  | .ok rows => { primary with rows := rows }

/-- The test of `wait_for_commit_quorum`. -/
def Primary.hasQuorum (voters : List ReplicationSourceHoldIdV1) (required : ℕ+)
    (commit : CommitSequence) : Bool :=
  match observeForVoters (.checkpoint primary.history) primary.rows (some voters) with
  | .error _ => false
  | .ok progress => progress.hasQuorumAcknowledgedApplicationCommit commit required

namespace Replica

/-- The lineage of a follower is behind its in-memory fence. -/
def isFenced : Bool :=
  replica.node.view.lineage.leadershipEpoch.get < replica.node.promisedEpoch.get

/-- The receiver's own steps, in the order a stream takes them. -/
def openStream : Replica :=
  if replica.receiver = .closed ∧ replica.isFenced = false then
    { replica with receiver := .opening }
  else replica

def closeStream : Replica :=
  if replica.receiver = .streaming then { replica with receiver := .closed } else replica

/-- An item has arrived; only frames beyond the durable position go on. -/
def receive (covered : ChangelogHistoryPointV3) : Replica :=
  if replica.receiver = .streaming then
    if replica.isFenced ∨ covered.sequence.get ≤ replica.applied.sequence.get then
      { replica with receiver := .failed }
    else { replica with receiver := .received covered }
  else replica

/-- The applier checks the fence again inside its transaction. -/
def recheckFence : Replica :=
  match replica.receiver with
  | .received covered =>
    { replica with receiver := if replica.isFenced then .failed else .admitted covered }
  | _ => replica

def commit : Replica :=
  match replica.receiver with
  | .admitted covered => { replica with applied := covered, receiver := .committed }
  | _ => replica

def acknowledge : Replica :=
  if replica.receiver = .committed then
    { replica with localAcknowledgement := some replica.applied, receiver := .acknowledged }
  else replica

def publishView (voters : List ReplicationSourceHoldIdV1) (replica : Replica) : Replica :=
  if replica.receiver = .acknowledged then
    { replica with
      node := (replica.node.step voters (.publish replica.applied)).1
      receiver := .streaming }
  else replica

def restart (voters : List ReplicationSourceHoldIdV1) (replica : Replica) (keepsRename : Bool) :
    Replica :=
  { replica with
    node := (replica.node.step voters
      (.restart keepsRename ⟨replica.node.view.lineage, replica.applied⟩)).1
    receiver := .closed }

end Replica

/-- Events of a voter that concern its promise only. -/
def isVoteEvent : NodeEvent → Bool
  | .publish _ => false
  | .restart _ _ => false
  | _ => true

namespace Cluster

def setReplica (cluster : Cluster) (voter : ReplicationSourceHoldIdV1) (replica : Replica) :
    Cluster :=
  { cluster with replicas := Function.update cluster.replicas voter replica }

/-- A stream request after the epoch check: the durable position is acknowledged locally and
reported. -/
def report (cluster : Cluster) (voter : ReplicationSourceHoldIdV1) : Cluster :=
  let replica := cluster.replicas voter
  if replica.receiver = .opening then
    { cluster.setReplica voter { replica with
        localAcknowledgement := some replica.applied, receiver := .streaming } with
      reports := (voter, replica.applied) :: cluster.reports }
  else cluster

/-- One step. Frames come from the published history, reports from followers. -/
def step (voters : List ReplicationSourceHoldIdV1) (required : ℕ+) (cluster : Cluster) :
    Event → Cluster
  | .publishFrame point => { cluster with primary := cluster.primary.publishFrame point }
  | .deliverReport voter point =>
    if (voter, point) ∈ cluster.reports then
      { cluster with primary := cluster.primary.acknowledge voter point }
    else cluster
  | .releaseCommit commit =>
    if cluster.primary.hasQuorum voters required commit then
      { cluster with released := commit :: cluster.released }
    else cluster
  | .openStream voter => cluster.setReplica voter (cluster.replicas voter).openStream
  | .report voter => cluster.report voter
  | .closeStream voter => cluster.setReplica voter (cluster.replicas voter).closeStream
  | .receive voter covered =>
    if covered ∈ cluster.primary.chain then
      cluster.setReplica voter ((cluster.replicas voter).receive covered)
    else cluster
  | .recheckFence voter => cluster.setReplica voter (cluster.replicas voter).recheckFence
  | .commit voter => cluster.setReplica voter (cluster.replicas voter).commit
  | .acknowledge voter => cluster.setReplica voter (cluster.replicas voter).acknowledge
  | .publishView voter =>
    cluster.setReplica voter ((cluster.replicas voter).publishView voters)
  | .vote voter event =>
    if isVoteEvent event then
      let result := (cluster.replicas voter).node.step voters event
      { cluster.setReplica voter { cluster.replicas voter with node := result.1 } with
        votes := cluster.votes ++ result.2.toList }
    else cluster
  | .restart voter keepsRename =>
    cluster.setReplica voter ((cluster.replicas voter).restart voters keepsRename)

/-- Followers that have just started on an intact history: every applied position and every
recorded acknowledgement is a published point, and no row is ahead of its follower. -/
structure Initial (lineage : ChangelogLineageV3) (cluster : Cluster) : Prop where
  followed : cluster.primary.history.lineage = lineage
  head : cluster.primary.history.tail ∈ cluster.primary.chain
  ordered : cluster.primary.chain.Pairwise fun earlier later =>
    earlier.sequence.get < later.sequence.get ∧ earlier.precedesOrEquals later = true
  covered : ∀ point ∈ cluster.primary.chain,
    point.precedesOrEquals cluster.primary.history.tail = true
  rows : cluster.primary.rows.Ordered
  recorded : ∀ voter state, cluster.primary.rows.get
      (ReplicationSourceHoldV1.storageKeyFor voter .followerAcknowledgement) = some state →
    state.hold.fence ∈ cluster.primary.chain ∧
      state.hold.fence.sequence.get ≤ (cluster.replicas voter).applied.sequence.get
  started : ∀ voter, ∃ promise, (cluster.replicas voter).node =
    VoterNode.start voter ⟨lineage, (cluster.replicas voter).applied⟩ promise promise
  applied : ∀ voter, (cluster.replicas voter).applied ∈ cluster.primary.chain
  closed : ∀ voter, (cluster.replicas voter).receiver = .closed
  quiet : cluster.reports = [] ∧ cluster.votes = [] ∧ cluster.released = []

/-- When a promise is granted, the durable position is still the sampled one and no frame is
between its last epoch check and its commit; and no frame passes that check at a follower whose
durable promise is already beyond its lineage. A check that refuses its frame is free. -/
def PositionHeld (cluster : Cluster) : Event → Prop
  | .vote voter (.raiseFence id) => ∀ attempt ∈ (cluster.replicas voter).node.attempts id,
    attempt.stage = .persisted →
    positionOf (cluster.replicas voter).applied = attempt.voterApplied ∧
      (cluster.replicas voter).receiver.isAdmitted = false
  | .recheckFence voter => (cluster.replicas voter).receiver.isReceived = true →
    (cluster.replicas voter).isFenced = false →
    ∀ promise ∈ (cluster.replicas voter).node.synced,
      promise.epoch.get ≤ (cluster.replicas voter).node.view.lineage.leadershipEpoch.get
  | _ => True

instance (cluster : Cluster) (event : Event) : Decidable (cluster.PositionHeld event) := by
  unfold PositionHeld
  split <;> infer_instance

end Cluster

end Failover
