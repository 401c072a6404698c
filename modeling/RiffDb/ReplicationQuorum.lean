import RiffDb.Quorums
import RiffDb.ReplicationTypes

/-!
# Epoch votes and quorum fence certificates

The checked values of the election protocol: the position a vote compares, the request of a
candidate, the vote of a follower and the certificate of a majority of votes, with the two wire
layouts. The digest is an arbitrary function to thirty-two bytes.

A value built here proves nothing about the storage of the node that sent it.
-/

namespace ReplicationQuorum

open ByteWire CheckedCode Quorums ReplicationTypes List

def maxReplicationVotersV1 : Nat := 15

/-- `RIFF_EVR1`. -/
def voteRequestMagicV1 : Bytes := [82, 73, 70, 70, 95, 69, 86, 82, 49]

/-- `RIFF_EVV1`. -/
def voteResponseMagicV1 : Bytes := [82, 73, 70, 70, 95, 69, 86, 86, 49]

@[simp] theorem length_voteRequestMagicV1 : voteRequestMagicV1.length = 9 := by decide

@[simp] theorem length_voteResponseMagicV1 : voteResponseMagicV1.length = 9 := by decide

inductive QuorumFenceCertificateError where
  | invalidEncoding
  | invalidVoterConfiguration
  | candidateNotVoter
  | invalidProposedEpoch
  | identityMismatch
  | candidateFrontierLagging
  | insufficientQuorum
deriving DecidableEq, Repr

open QuorumFenceCertificateError

/-- A request-selected follower registration in one exact source lineage. -/
@[ext] structure ReplicationFollowerAuditTargetV1 where
  databaseId : DatabaseId
  historyIncarnation : NonZeroU64
  leadershipEpoch : LeadershipEpochV1
  holdId : ReplicationSourceHoldIdV1
deriving DecidableEq

namespace ReplicationFollowerAuditTargetV1

def new (databaseId : DatabaseId) (historyIncarnation : Nat) (leadershipEpoch : LeadershipEpochV1)
    (holdId : ReplicationSourceHoldIdV1) : Option ReplicationFollowerAuditTargetV1 :=
  (NonZeroU64.new historyIncarnation).map fun historyIncarnation =>
    ⟨databaseId, historyIncarnation, leadershipEpoch, holdId⟩

end ReplicationFollowerAuditTargetV1

/-- The durable history point summary carried in vote requests and responses. -/
@[ext] structure ReplicationEpochVotePositionV1 where
  transactionSequence : NonZeroU64
  historyHash : ByteArrayOf 32
  frontier : DualFrontier
deriving DecidableEq

namespace ReplicationEpochVotePositionV1

/-- At an equal transaction sequence the whole positions must coincide. -/
def isAtLeastAsUpToDateAs (candidate voter : ReplicationEpochVotePositionV1) : Bool :=
  if candidate.transactionSequence.get < voter.transactionSequence.get ∨
      sequenceLt candidate.frontier.application voter.frontier.application ∨
      sequenceLt candidate.frontier.administration voter.frontier.administration then false
  else if candidate.transactionSequence = voter.transactionSequence ∧ candidate ≠ voter then false
  else true

theorem isAtLeastAsUpToDateAs_iff {candidate voter : ReplicationEpochVotePositionV1} :
    candidate.isAtLeastAsUpToDateAs voter = true ↔
      voter.transactionSequence.get ≤ candidate.transactionSequence.get ∧
      sequenceValue voter.frontier.application ≤ sequenceValue candidate.frontier.application ∧
      sequenceValue voter.frontier.administration ≤
        sequenceValue candidate.frontier.administration ∧
      (candidate.transactionSequence = voter.transactionSequence → candidate = voter) := by
  simp only [isAtLeastAsUpToDateAs, sequenceLt_iff]
  split
  · rename_i behind
    simp only [Bool.false_eq_true, false_iff]
    omega
  · rename_i ahead
    split
    · rename_i differs
      simp only [Bool.false_eq_true, false_iff]
      exact fun all => differs.2 (all.2.2.2 differs.1)
    · rename_i agrees
      simp only [true_iff]
      refine ⟨by omega, by omega, by omega, ?_⟩
      intro same
      exact not_not.mp fun differ => agrees ⟨same, differ⟩

/-- Fifty-six bytes: the sequence, the history hash and both frontier components. -/
def encodeInto (position : ReplicationEpochVotePositionV1) : Bytes :=
  position.transactionSequence.toBeBytes ++ position.historyHash.toList ++
    beBytes 8 (sequenceValue position.frontier.application) ++
    beBytes 8 (sequenceValue position.frontier.administration)

end ReplicationEpochVotePositionV1

/-- An eight-byte big-endian word at a fixed offset. -/
def readU64 (bytes : Bytes) (start stop : Nat) : Except QuorumFenceCertificateError Nat := do
  let word ← okOr (arrayOf 8 (slice bytes start stop)) invalidEncoding
  .ok (beValue word.toList)

def readNonZeroU64 (bytes : Bytes) (start stop : Nat) :
    Except QuorumFenceCertificateError NonZeroU64 := do
  let raw ← readU64 bytes start stop
  okOr (NonZeroU64.new raw) invalidEncoding

def readHoldId (bytes : Bytes) (start stop : Nat) :
    Except QuorumFenceCertificateError ReplicationSourceHoldIdV1 := do
  let array ← okOr (arrayOf 16 (slice bytes start stop)) invalidEncoding
  okOr (ReplicationSourceHoldIdV1.new array) invalidEncoding

def readUuid (bytes : Bytes) (start stop : Nat) : Except QuorumFenceCertificateError UuidV7 := do
  let array ← okOr (arrayOf 16 (slice bytes start stop)) invalidEncoding
  (UuidV7.fromBytes array).mapError fun _ => invalidEncoding

/-- Zero encodes a component that has never advanced. -/
def optionalSequence (raw : Nat) : Except QuorumFenceCertificateError (Option NonZeroU64) :=
  if raw = 0 then .ok none else (okOr (NonZeroU64.new raw) invalidEncoding).map some

def ReplicationEpochVotePositionV1.decodeFrom (bytes : Bytes) :
    Except QuorumFenceCertificateError ReplicationEpochVotePositionV1 := do
  require (bytes.length = 56) invalidEncoding
  let sequence ← readNonZeroU64 bytes 0 8
  let historyHash ← okOr (arrayOf 32 (slice bytes 8 40)) invalidEncoding
  let rawApp ← readU64 bytes 40 48
  let rawAdmin ← readU64 bytes 48 56
  let app ← optionalSequence rawApp
  let admin ← optionalSequence rawAdmin
  .ok ⟨sequence, historyHash, ⟨app, admin⟩⟩

/-- A candidate's request for a voter's durable epoch promise. The proposed epoch is the
exact successor of the epoch the candidate follows. -/
@[ext] structure ReplicationEpochVoteRequestV1 where
  requestId : RequestId
  candidateTarget : ReplicationFollowerAuditTargetV1
  proposedEpoch : LeadershipEpochV1
  candidateApplied : ReplicationEpochVotePositionV1
  successor : candidateTarget.leadershipEpoch.checkedNext = some proposedEpoch
deriving DecidableEq

namespace ReplicationEpochVoteRequestV1

def new (requestId : RequestId) (candidateTarget : ReplicationFollowerAuditTargetV1)
    (proposedEpoch : LeadershipEpochV1) (candidateApplied : ReplicationEpochVotePositionV1) :
    Option ReplicationEpochVoteRequestV1 :=
  if successor : candidateTarget.leadershipEpoch.checkedNext = some proposedEpoch then
    some ⟨requestId, candidateTarget, proposedEpoch, candidateApplied, successor⟩
  else none

/-- The payload without its checksum. -/
def payload (request : ReplicationEpochVoteRequestV1) : Bytes :=
  voteRequestMagicV1 ++ request.requestId.intoBytes.toList ++
    request.candidateTarget.databaseId.intoBytes.toList ++
    request.candidateTarget.historyIncarnation.toBeBytes ++
    request.candidateTarget.leadershipEpoch.toBeBytes ++
    request.candidateTarget.holdId.asBytes.toList ++
    request.proposedEpoch.toBeBytes ++ request.candidateApplied.encodeInto

def encodeV1 (sha256 : Bytes → ByteArrayOf 32) (request : ReplicationEpochVoteRequestV1) : Bytes :=
  request.payload ++ (sha256 request.payload).toList

def decodeV1 (sha256 : Bytes → ByteArrayOf 32) (bytes : Bytes) :
    Except QuorumFenceCertificateError ReplicationEpochVoteRequestV1 := do
  require (bytes.length = 161 ∧ slice bytes 0 9 = voteRequestMagicV1) invalidEncoding
  require (slice bytes 129 161 = (sha256 (slice bytes 0 129)).toList) invalidEncoding
  let requestId ← readUuid bytes 9 25
  let databaseId ← readUuid bytes 25 41
  let historyIncarnation ← readU64 bytes 41 49
  let sourceEpoch ← readNonZeroU64 bytes 49 57
  let holdId ← readHoldId bytes 57 73
  let proposedEpoch ← readNonZeroU64 bytes 73 81
  let candidateTarget ← okOr (ReplicationFollowerAuditTargetV1.new databaseId historyIncarnation
    sourceEpoch holdId) invalidEncoding
  let candidateApplied ← ReplicationEpochVotePositionV1.decodeFrom (slice bytes 81 137)
  okOr (new requestId candidateTarget proposedEpoch candidateApplied) invalidProposedEpoch

end ReplicationEpochVoteRequestV1

/-- A voter's durable response. A granted vote carries its own justification. -/
@[ext] structure ReplicationEpochVoteV1 where
  voterHoldId : ReplicationSourceHoldIdV1
  databaseId : DatabaseId
  historyIncarnation : NonZeroU64
  promisedEpoch : LeadershipEpochV1
  candidateHoldId : ReplicationSourceHoldIdV1
  candidateApplied : ReplicationEpochVotePositionV1
  voterApplied : ReplicationEpochVotePositionV1
  granted : Bool
  justified : granted = true → candidateApplied.isAtLeastAsUpToDateAs voterApplied = true
deriving DecidableEq

variable {databaseId : DatabaseId} {historyIncarnation : Nat} {promisedEpoch : LeadershipEpochV1}
  {vote : ReplicationEpochVoteV1}

namespace ReplicationEpochVoteV1

def new (voterHoldId : ReplicationSourceHoldIdV1) (databaseId : DatabaseId)
    (historyIncarnation : Nat) (promisedEpoch : LeadershipEpochV1)
    (candidateHoldId : ReplicationSourceHoldIdV1)
    (candidateApplied voterApplied : ReplicationEpochVotePositionV1) (granted : Bool) :
    Option ReplicationEpochVoteV1 := do
  let historyIncarnation ← NonZeroU64.new historyIncarnation
  if justified : granted = true → candidateApplied.isAtLeastAsUpToDateAs voterApplied = true then
    some ⟨voterHoldId, databaseId, historyIncarnation, promisedEpoch, candidateHoldId,
      candidateApplied, voterApplied, granted, justified⟩
  else none

theorem new_eq_some {voterHoldId : ReplicationSourceHoldIdV1}
    {candidateHoldId : ReplicationSourceHoldIdV1}
    {candidateApplied voterApplied : ReplicationEpochVotePositionV1} {granted : Bool} :
    new voterHoldId databaseId historyIncarnation promisedEpoch candidateHoldId candidateApplied
        voterApplied granted = some vote ↔ voterHoldId = vote.voterHoldId ∧
          databaseId = vote.databaseId ∧
      historyIncarnation = vote.historyIncarnation.get ∧ promisedEpoch = vote.promisedEpoch ∧
      candidateHoldId = vote.candidateHoldId ∧ candidateApplied = vote.candidateApplied ∧
      voterApplied = vote.voterApplied ∧ granted = vote.granted := by
  unfold new
  constructor
  · intro found
    obtain ⟨incarnation, nonzero, found⟩ := Option.bind_eq_some_iff.mp found
    split at found
    · cases found
      exact ⟨rfl, rfl, (NonZeroU64.new_eq_some.mp nonzero).symm, rfl, rfl, rfl, rfl, rfl⟩
    · cases found
  · rintro ⟨rfl, rfl, rfl, rfl, rfl, rfl, rfl, rfl⟩
    simp only [NonZeroU64.new_get, Option.bind_eq_bind, Option.bind_some]
    rw [dif_pos vote.justified]

/-- The payload without its checksum. -/
def payload (vote : ReplicationEpochVoteV1) : Bytes :=
  voteResponseMagicV1 ++ vote.voterHoldId.asBytes.toList ++ vote.databaseId.intoBytes.toList ++
    vote.historyIncarnation.toBeBytes ++ vote.promisedEpoch.toBeBytes ++
    vote.candidateHoldId.asBytes.toList ++ vote.candidateApplied.encodeInto ++
    vote.voterApplied.encodeInto ++ [if vote.granted then 1 else 0]

def encodeV1 (sha256 : Bytes → ByteArrayOf 32) (vote : ReplicationEpochVoteV1) : Bytes :=
  vote.payload ++ (sha256 vote.payload).toList

/-- The grant byte is exactly zero or one. -/
def readGranted (bytes : Bytes) : Except QuorumFenceCertificateError Bool :=
  match (bytes[185]? : Option UInt8) with
  | some 0 => .ok false
  | some 1 => .ok true
  | _ => .error invalidEncoding

def decodeV1 (sha256 : Bytes → ByteArrayOf 32) (bytes : Bytes) :
    Except QuorumFenceCertificateError ReplicationEpochVoteV1 := do
  require (bytes.length = 218 ∧ slice bytes 0 9 = voteResponseMagicV1) invalidEncoding
  require (slice bytes 186 218 = (sha256 (slice bytes 0 186)).toList) invalidEncoding
  let voterHoldId ← readHoldId bytes 9 25
  let databaseId ← readUuid bytes 25 41
  let historyIncarnation ← readU64 bytes 41 49
  let promisedEpoch ← readNonZeroU64 bytes 49 57
  let candidateHoldId ← readHoldId bytes 57 73
  let candidateApplied ← ReplicationEpochVotePositionV1.decodeFrom (slice bytes 73 129)
  let voterApplied ← ReplicationEpochVotePositionV1.decodeFrom (slice bytes 129 185)
  let granted ← readGranted bytes
  okOr (new voterHoldId databaseId historyIncarnation promisedEpoch candidateHoldId
    candidateApplied voterApplied granted) candidateFrontierLagging

end ReplicationEpochVoteV1

/-- A majority of votes fencing out the source epoch and certifying the candidate's position. -/
@[ext] structure QuorumFenceCertificateV1 where
  databaseId : DatabaseId
  historyIncarnation : NonZeroU64
  sourceEpoch : LeadershipEpochV1
  promisedEpoch : LeadershipEpochV1
  candidateHoldId : ReplicationSourceHoldIdV1
  candidateApplied : ReplicationEpochVotePositionV1
  votes : List ReplicationEpochVoteV1
deriving DecidableEq

namespace QuorumFenceCertificateV1

/-- The checks the constructor makes on one vote, in its order. -/
def checkVote (databaseId : DatabaseId) (historyIncarnation : NonZeroU64)
    (promisedEpoch : LeadershipEpochV1) (candidateHoldId : ReplicationSourceHoldIdV1)
    (candidateApplied : ReplicationEpochVotePositionV1)
    (sortedVoters : List ReplicationSourceHoldIdV1) (vote : ReplicationEpochVoteV1) :
    Except QuorumFenceCertificateError Unit := do
  require (vote.voterHoldId ∈ sortedVoters) invalidVoterConfiguration
  require (vote.databaseId = databaseId ∧ vote.historyIncarnation = historyIncarnation ∧
    vote.promisedEpoch = promisedEpoch ∧ vote.candidateHoldId = candidateHoldId ∧
    vote.candidateApplied = candidateApplied) identityMismatch
  require (vote.granted = true ∧ candidateApplied.isAtLeastAsUpToDateAs vote.voterApplied = true)
    candidateFrontierLagging

/-- Both lists are sorted first, so that equal neighbours reveal every duplicate and a binary
search decides membership. -/
def new (databaseId : DatabaseId) (historyIncarnation : Nat)
    (sourceEpoch promisedEpoch : LeadershipEpochV1) (candidateHoldId : ReplicationSourceHoldIdV1)
    (candidateApplied : ReplicationEpochVotePositionV1)
    (configuredVoters : List ReplicationSourceHoldIdV1) (votes : List ReplicationEpochVoteV1) :
    Except QuorumFenceCertificateError QuorumFenceCertificateV1 := do
  let historyIncarnation ← okOr (NonZeroU64.new historyIncarnation) identityMismatch
  require (sourceEpoch.checkedNext = some promisedEpoch) invalidProposedEpoch
  require (configuredVoters ≠ [] ∧ configuredVoters.length ≤ maxReplicationVotersV1)
    invalidVoterConfiguration
  let sortedVoters := configuredVoters.insertionSort ReplicationSourceHoldIdV1.le
  require (adjacentDuplicate sortedVoters = false) invalidVoterConfiguration
  require (candidateHoldId ∈ sortedVoters) candidateNotVoter
  let votes := votes.insertionSort fun left right =>
    ReplicationSourceHoldIdV1.le left.voterHoldId right.voterHoldId
  require (adjacentDuplicate (votes.map (·.voterHoldId)) = false) invalidVoterConfiguration
  votes.forM (checkVote databaseId historyIncarnation promisedEpoch candidateHoldId
    candidateApplied sortedVoters)
  require (strictMajority configuredVoters.length ≤ votes.length) insufficientQuorum
  .ok ⟨databaseId, historyIncarnation, sourceEpoch, promisedEpoch, candidateHoldId,
    candidateApplied, votes⟩

/-- What a certificate over a voter list establishes about its votes. -/
structure Certifies (certificate : QuorumFenceCertificateV1)
    (configuredVoters : List ReplicationSourceHoldIdV1) : Prop where
  successor : certificate.sourceEpoch.checkedNext = some certificate.promisedEpoch
  voters : configuredVoters.Nodup
  candidate : certificate.candidateHoldId ∈ configuredVoters
  distinct : (certificate.votes.map (·.voterHoldId)).Nodup
  configured : certificate.votes.map (·.voterHoldId) ⊆ configuredVoters
  identity : ∀ vote ∈ certificate.votes, vote.databaseId = certificate.databaseId ∧
    vote.historyIncarnation = certificate.historyIncarnation ∧
    vote.promisedEpoch = certificate.promisedEpoch ∧
    vote.candidateHoldId = certificate.candidateHoldId ∧
    vote.candidateApplied = certificate.candidateApplied
  granted : ∀ vote ∈ certificate.votes, vote.granted = true ∧
    certificate.candidateApplied.isAtLeastAsUpToDateAs vote.voterApplied = true
  majority : strictMajority configuredVoters.length ≤ certificate.votes.length

variable {candidateHoldId : ReplicationSourceHoldIdV1}

variable {candidateApplied : ReplicationEpochVotePositionV1}

theorem checkVote_eq_ok {historyIncarnation : NonZeroU64}
    {sortedVoters : List ReplicationSourceHoldIdV1} :
    checkVote databaseId historyIncarnation promisedEpoch candidateHoldId candidateApplied
        sortedVoters vote = .ok () ↔ vote.voterHoldId ∈ sortedVoters ∧
      (vote.databaseId = databaseId ∧ vote.historyIncarnation = historyIncarnation ∧
        vote.promisedEpoch = promisedEpoch ∧ vote.candidateHoldId = candidateHoldId ∧
        vote.candidateApplied = candidateApplied) ∧ (vote.granted = true ∧
        candidateApplied.isAtLeastAsUpToDateAs vote.voterApplied = true) := by
  simp only [checkVote, bind_eq_ok, require_eq_ok, exists_const]

theorem sorted_voterHoldIds (votes : List ReplicationEpochVoteV1) :
    ((votes.insertionSort fun left right =>
      ReplicationSourceHoldIdV1.le left.voterHoldId right.voterHoldId).map
        (·.voterHoldId)).Pairwise ReplicationSourceHoldIdV1.le := by
  have total : Std.Total fun left right : ReplicationEpochVoteV1 =>
      ReplicationSourceHoldIdV1.le left.voterHoldId right.voterHoldId :=
    ⟨fun _ _ => Nat.le_total _ _⟩
  have transitive : IsTrans ReplicationEpochVoteV1 fun left right =>
      ReplicationSourceHoldIdV1.le left.voterHoldId right.voterHoldId :=
    ⟨fun _ _ _ first second => Nat.le_trans first second⟩
  exact pairwise_map.mpr (pairwise_insertionSort _ votes)

variable {sourceEpoch promisedEpoch : LeadershipEpochV1}

/-- Every accepted certificate certifies its voter list, from the votes it was given. -/
theorem new_eq_ok {configuredVoters : List ReplicationSourceHoldIdV1}
    {votes : List ReplicationEpochVoteV1} {certificate : QuorumFenceCertificateV1}
    (accepted : new databaseId historyIncarnation sourceEpoch promisedEpoch candidateHoldId
      candidateApplied configuredVoters votes = .ok certificate) :
    certificate.Certifies configuredVoters ∧ certificate.votes.Perm votes ∧
      certificate.databaseId = databaseId ∧
        certificate.historyIncarnation.get = historyIncarnation ∧
      certificate.sourceEpoch = sourceEpoch ∧ certificate.promisedEpoch = promisedEpoch ∧
      certificate.candidateHoldId = candidateHoldId ∧
        certificate.candidateApplied = candidateApplied := by
  simp only [new, bind_eq_ok, okOr_eq_ok, require_eq_ok, forM_eq_ok, checkVote_eq_ok,
    Except.ok.injEq, NonZeroU64.new_eq_some, exists_const] at accepted
  obtain ⟨incarnation, incarnationEq, successor, bounds, apart, candidate, votesApart, checked,
    majority, rfl⟩ := accepted
  have voterMember : ∀ voter, voter ∈ configuredVoters.insertionSort ReplicationSourceHoldIdV1.le ↔
      voter ∈ configuredVoters := fun _ => (perm_insertionSort _ _).mem_iff
  have votersDistinct := nodup_of_sorted ReplicationSourceHoldIdV1.le_antisymm
    (pairwise_insertionSort ReplicationSourceHoldIdV1.le configuredVoters) apart
  refine ⟨?_, perm_insertionSort _ _, rfl, incarnationEq, rfl, rfl, rfl, rfl⟩
  constructor
  · exact successor
  · exact (perm_insertionSort _ _).nodup_iff.mp votersDistinct
  · exact (voterMember _).mp candidate
  · exact nodup_of_sorted ReplicationSourceHoldIdV1.le_antisymm (sorted_voterHoldIds votes)
      votesApart
  · intro voter member
    obtain ⟨vote, voteMember, rfl⟩ := mem_map.mp member
    exact (voterMember _).mp (checked vote voteMember).1
  · intro vote member
    exact (checked vote member).2.1
  · intro vote member
    exact (checked vote member).2.2
  · exact majority

/-- A granted vote of a voter that stands exactly where the candidate does. -/
def agreeingVote (databaseId : DatabaseId) (historyIncarnation : NonZeroU64)
    (promisedEpoch : LeadershipEpochV1) (candidateHoldId : ReplicationSourceHoldIdV1)
    (applied : ReplicationEpochVotePositionV1) (voter : ReplicationSourceHoldIdV1) :
    ReplicationEpochVoteV1 where
  voterHoldId := voter
  databaseId := databaseId
  historyIncarnation := historyIncarnation
  promisedEpoch := promisedEpoch
  candidateHoldId := candidateHoldId
  candidateApplied := applied
  voterApplied := applied
  granted := true
  justified _ := ReplicationEpochVotePositionV1.isAtLeastAsUpToDateAs_iff.mpr
    ⟨le_rfl, le_rfl, le_rfl, fun _ => rfl⟩

/-- Any majority of a duplicate-free voter list can certify any of the listed candidates. -/
theorem exists_certificate (databaseId : DatabaseId) (historyIncarnation : NonZeroU64)
    (applied : ReplicationEpochVotePositionV1) {voters group : List ReplicationSourceHoldIdV1}
    (successor : sourceEpoch.checkedNext = some promisedEpoch) (distinct : voters.Nodup)
    (bounded : voters.length ≤ maxReplicationVotersV1) (candidate : candidateHoldId ∈ voters)
    (apart : group.Nodup) (inside : group ⊆ voters)
    (majority : strictMajority voters.length ≤ group.length) :
    ∃ certificate, new databaseId historyIncarnation.get sourceEpoch promisedEpoch candidateHoldId
        applied voters (group.map (agreeingVote databaseId historyIncarnation promisedEpoch
          candidateHoldId applied)) = .ok certificate ∧
      ∀ vote ∈ certificate.votes, vote.voterHoldId ∈ group := by
  let votes := group.map
    (agreeingVote databaseId historyIncarnation promisedEpoch candidateHoldId applied)
  let sorted := votes.insertionSort fun left right =>
    ReplicationSourceHoldIdV1.le left.voterHoldId right.voterHoldId
  have perm : sorted.Perm votes := perm_insertionSort _ _
  have votersPerm := perm_insertionSort ReplicationSourceHoldIdV1.le voters
  have ids : votes.map (·.voterHoldId) = group := by
    simp [votes, agreeingVote, Function.comp_def]
  have votesApart : (sorted.map (·.voterHoldId)).Nodup := by
    rw [(perm.map _).nodup_iff, ids]
    exact apart
  have agree : ∀ vote ∈ sorted, ∃ voter ∈ group,
      agreeingVote databaseId historyIncarnation promisedEpoch candidateHoldId applied
        voter = vote :=
    fun vote member => mem_map.mp (perm.mem_iff.mp member)
  have checked : sorted.forM (checkVote databaseId historyIncarnation promisedEpoch candidateHoldId
      applied (voters.insertionSort ReplicationSourceHoldIdV1.le)) = .ok () := by
    apply forM_eq_ok.mpr
    intro vote member
    obtain ⟨voter, isMember, rfl⟩ := agree vote member
    exact checkVote_eq_ok.mpr ⟨votersPerm.mem_iff.mpr (inside isMember), ⟨rfl, rfl, rfl, rfl, rfl⟩,
      rfl, (agreeingVote databaseId historyIncarnation promisedEpoch candidateHoldId applied
        voter).justified rfl⟩
  have enough : strictMajority voters.length ≤ sorted.length := by
    rw [perm.length_eq, length_map]
    exact majority
  refine ⟨⟨databaseId, historyIncarnation, sourceEpoch, promisedEpoch, candidateHoldId, applied,
    sorted⟩, ?_, ?_⟩
  · simp only [new, bind_eq_ok, okOr_eq_ok, require_eq_ok, Except.ok.injEq, NonZeroU64.new_eq_some,
      exists_const]
    exact ⟨historyIncarnation, rfl, successor, ⟨ne_nil_of_mem candidate, bounded⟩,
      adjacentDuplicate_of_nodup (votersPerm.nodup_iff.mpr distinct),
      votersPerm.mem_iff.mpr candidate, adjacentDuplicate_of_nodup votesApart, (), checked,
      enough, rfl⟩
  · intro vote member
    obtain ⟨voter, isMember, rfl⟩ := agree vote member
    exact isMember

end QuorumFenceCertificateV1

end ReplicationQuorum
