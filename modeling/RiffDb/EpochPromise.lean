import RiffDb.ChangelogHistory
import RiffDb.ReplicationQuorum

/-!
# The epoch promise of one voter

A voter keeps one durable promise: the highest epoch it has voted in and the candidate it voted for.
The handler of vote requests and the candidate's own promise write it under one storage lock. The
handler reads the published view before it takes the lock and raises the fence after the promise is
durable; these are separate steps, as are the rename and the directory sync of the file.

A crash drops every attempt in progress and keeps the renamed or the synced file; the fence is taken
from it.
-/

namespace EpochPromise

open ReplicationTypes ReplicationQuorum ChangelogHistory

/-- The larger of two epochs, as an atomic maximum computes it. -/
def fetchMax (current proposed : LeadershipEpochV1) : LeadershipEpochV1 :=
  if current.get ≤ proposed.get then proposed else current

@[simp] theorem fetchMax_get (current proposed : LeadershipEpochV1) :
    (fetchMax current proposed).get = max current.get proposed.get := by
  unfold fetchMax
  split
  · next ordered => exact (max_eq_right ordered).symm
  · next unordered => exact (max_eq_left (Nat.le_of_not_le unordered)).symm

/-- The content of the promise file. -/
structure Promise where
  epoch : LeadershipEpochV1
  candidate : ReplicationSourceHoldIdV1
deriving DecidableEq

/-- What `persist_promised_leadership_epoch` does after reading the file. -/
inductive PersistPlan where
  | refuse
  | retry
  | write
deriving DecidableEq, Repr

/-- A lower epoch and a rival in the same epoch are refused; a repetition is synced again. -/
def persistPlan (prior : Option Promise) (epoch : LeadershipEpochV1)
    (candidate : ReplicationSourceHoldIdV1) : PersistPlan :=
  match prior with
  | none => .write
  | some prior =>
    if epoch.get < prior.epoch.get then .refuse
    else if epoch = prior.epoch then
      if candidate ≠ prior.candidate then .refuse else .retry
    else .write

structure View where
  lineage : ChangelogLineageV3
  tail : ChangelogHistoryPointV3
deriving DecidableEq

/-- The part of a history point that votes carry. -/
def positionOf (point : ChangelogHistoryPointV3) : ReplicationEpochVotePositionV1 :=
  ⟨point.sequence, point.historyHash, point.frontier⟩

/-- How far an attempt to promise has come. -/
inductive Stage where
  | sampled
  | locked (current : LeadershipEpochV1)
  | writing
  | persisted
  | decided (granted : Bool) (effective : LeadershipEpochV1)
deriving DecidableEq

inductive Origin where
  | voteRequest
  | ownCandidacy
deriving DecidableEq, Repr

/-- One run of the vote handler, or one self-promise of a candidate. The proposed epoch is the
successor of the epoch of the sampled view. -/
structure Attempt where
  origin : Origin
  lineage : ChangelogLineageV3
  candidate : ReplicationSourceHoldIdV1
  proposed : LeadershipEpochV1
  candidateApplied : ReplicationEpochVotePositionV1
  voterApplied : ReplicationEpochVotePositionV1
  stage : Stage
  successor : lineage.leadershipEpoch.checkedNext = some proposed

/-- A voter: its published view, its in-memory fence, the promise file as visible and as last
synced, the storage lock and the attempts in progress. -/
structure VoterNode where
  holdId : ReplicationSourceHoldIdV1
  view : View
  promisedEpoch : LeadershipEpochV1
  visible : Option Promise
  synced : Option Promise
  lockedBy : Option Nat
  attempts : Nat → Option Attempt

inductive NodeEvent where
  | publish (tail : ChangelogHistoryPointV3)
  | requestEpochVote (id : Nat) (request : ReplicationEpochVoteRequestV1)
  | collectQuorumFenceEvidence (id : Nat)
  | takeLock (id : Nat)
  | persist (id : Nat)
  | sync (id : Nat)
  | raiseFence (id : Nat)
  | reply (id : Nat)
  | fail (id : Nat)
  | restart (keepsRename : Bool) (view : View)

namespace VoterNode

/-- A node as it starts: the fence is the epoch of its lineage, raised to the promise found. -/
def start (holdId : ReplicationSourceHoldIdV1) (view : View) (visible synced : Option Promise) :
    VoterNode where
  holdId := holdId
  view := view
  promisedEpoch :=
    match visible with
    | none => view.lineage.leadershipEpoch
    | some promise => fetchMax view.lineage.leadershipEpoch promise.epoch
  visible := visible
  synced := synced
  lockedBy := none
  attempts := fun _ => none

variable (node : VoterNode) (id : Nat)

def setAttempt (attempt : Option Attempt) : VoterNode :=
  { node with attempts := Function.update node.attempts id attempt }

/-- An attempt ends and gives up the lock if it has it. -/
def drop : VoterNode :=
  { node.setAttempt id none with
    lockedBy := if node.lockedBy = some id then none else node.lockedBy }

/-- The handler reads the latest published view and refuses a target of another lineage. -/
def requestEpochVote (request : ReplicationEpochVoteRequestV1) : VoterNode :=
  if matching : request.candidateTarget.databaseId = node.view.lineage.databaseId ∧
      request.candidateTarget.historyIncarnation = node.view.lineage.historyIncarnation ∧
      request.candidateTarget.leadershipEpoch = node.view.lineage.leadershipEpoch then
    node.setAttempt id (some
      { origin := .voteRequest
        lineage := node.view.lineage
        candidate := request.candidateTarget.holdId
        proposed := request.proposedEpoch
        candidateApplied := request.candidateApplied
        voterApplied := positionOf node.view.tail
        stage := .sampled
        successor := matching.2.2 ▸ request.successor })
  else node

/-- The candidate fixes its own position before it takes the lock. -/
def collectQuorumFenceEvidence (voters : List ReplicationSourceHoldIdV1) (node : VoterNode)
    (id : Nat) : VoterNode :=
  if voters ≠ [] ∧ voters.length ≤ maxReplicationVotersV1 ∧ voters.Nodup ∧
      node.holdId ∈ voters then
    match successor : node.view.lineage.leadershipEpoch.checkedNext with
    | none => node
    | some proposed => node.setAttempt id (some
        { origin := .ownCandidacy
          lineage := node.view.lineage
          candidate := node.holdId
          proposed := proposed
          candidateApplied := positionOf node.view.tail
          voterApplied := positionOf node.view.tail
          stage := .sampled
          successor := successor })
  else node

/-- The promised epoch the handler compares with. -/
def currentPromised (lineage : ChangelogLineageV3) : LeadershipEpochV1 :=
  (node.visible.map Promise.epoch).getD lineage.leadershipEpoch

/-- A candidate stops here when it has promised a later epoch or this one to a rival. -/
def canSelfPromise (proposed : LeadershipEpochV1) : Bool :=
  node.visible.all fun promise =>
    promise.epoch.get < proposed.get ||
      (proposed = promise.epoch && promise.candidate = node.holdId)

/-- The lock is taken and the promise read; only the handler raises the fence to it. -/
def takeLock (attempt : Attempt) : VoterNode :=
  match attempt.origin with
  | .voteRequest =>
    { node.setAttempt id (some
        { attempt with stage := .locked (node.currentPromised attempt.lineage) }) with
      promisedEpoch := fetchMax node.promisedEpoch (node.currentPromised attempt.lineage)
      lockedBy := some id }
  | .ownCandidacy =>
    if node.canSelfPromise attempt.proposed then
      { node.setAttempt id (some
          { attempt with stage := .locked attempt.lineage.leadershipEpoch }) with
        lockedBy := some id }
    else node.drop id

/-- A persist call that returned false: the handler raises the fence to what it reads again. -/
def refuse (attempt : Attempt) (current : LeadershipEpochV1) : VoterNode :=
  match attempt.origin with
  | .ownCandidacy => node.drop id
  | .voteRequest =>
    let refreshed := (node.visible.map Promise.epoch).getD current
    { node.setAttempt id (some
        { attempt with stage := .decided false (fetchMax refreshed attempt.proposed) }) with
      promisedEpoch := fetchMax node.promisedEpoch refreshed }

/-- The handler's own checks, then the persist call up to the rename of the file. -/
def persist (attempt : Attempt) (current : LeadershipEpochV1) : VoterNode :=
  if attempt.origin = .voteRequest ∧
      (attempt.candidateApplied.isAtLeastAsUpToDateAs attempt.voterApplied = false ∨
        attempt.proposed.get < current.get) then
    node.setAttempt id (some
      { attempt with stage := .decided false (fetchMax current attempt.proposed) })
  else
    match persistPlan node.visible attempt.proposed attempt.candidate with
    | .refuse => node.refuse id attempt current
    | .retry => node.setAttempt id (some { attempt with stage := .writing })
    | .write =>
      { node.setAttempt id (some { attempt with stage := .writing }) with
        visible := some ⟨attempt.proposed, attempt.candidate⟩ }

/-- The sync after which the persist call returns true. -/
def sync (attempt : Attempt) : VoterNode :=
  { node.setAttempt id (some { attempt with stage := .persisted }) with synced := node.visible }

/-- Only the handler raises the in-memory fence for a promise it granted. -/
def raiseFence (attempt : Attempt) : VoterNode :=
  { node.setAttempt id (some { attempt with stage := .decided true attempt.proposed }) with
    promisedEpoch :=
      match attempt.origin with
      | .voteRequest => fetchMax node.promisedEpoch attempt.proposed
      | .ownCandidacy => node.promisedEpoch }

/-- The vote an attempt returns. -/
def vote (attempt : Attempt) (granted : Bool) (effective : LeadershipEpochV1) :
    Option ReplicationEpochVoteV1 :=
  ReplicationEpochVoteV1.new node.holdId attempt.lineage.databaseId
    attempt.lineage.historyIncarnation.get
    (match attempt.origin with
      | .voteRequest => fetchMax effective node.promisedEpoch
      | .ownCandidacy => effective)
    attempt.candidate attempt.candidateApplied attempt.voterApplied granted

/-- One step of a node and the vote it returns, if any. An event that does not fit the stage of
its attempt changes nothing. -/
def step (voters : List ReplicationSourceHoldIdV1) (node : VoterNode) :
    NodeEvent → VoterNode × Option ReplicationEpochVoteV1
  | .publish tail => ({ node with view := { node.view with tail := tail } }, none)
  | .requestEpochVote id request =>
    (if node.attempts id = none then node.requestEpochVote id request else node, none)
  | .collectQuorumFenceEvidence id =>
    (if node.attempts id = none then node.collectQuorumFenceEvidence voters id else node, none)
  | .takeLock id =>
    match node.attempts id, node.lockedBy with
    | some attempt, none =>
      (if attempt.stage = .sampled then node.takeLock id attempt else node, none)
    | _, _ => (node, none)
  | .persist id =>
    match node.attempts id with
    | none => (node, none)
    | some attempt =>
      match attempt.stage with
      | .locked current => (node.persist id attempt current, none)
      | _ => (node, none)
  | .sync id =>
    match node.attempts id with
    | none => (node, none)
    | some attempt => (if attempt.stage = .writing then node.sync id attempt else node, none)
  | .raiseFence id =>
    match node.attempts id with
    | none => (node, none)
    | some attempt =>
      (if attempt.stage = .persisted then node.raiseFence id attempt else node, none)
  | .reply id =>
    match node.attempts id with
    | none => (node, none)
    | some attempt =>
      match attempt.stage with
      | .decided granted effective => (node.drop id, node.vote attempt granted effective)
      | _ => (node, none)
  | .fail id => (node.drop id, none)
  | .restart keepsRename view =>
    (start node.holdId view (if keepsRename then node.visible else node.synced) node.synced, none)

end VoterNode

end EpochPromise
