import RiffDb.CanonicalScalars
import RiffDb.FailoverSafety

/-!
# The deployment's quorum document

How a deployment chooses its voters and the number of acknowledgements a commit waits for. Both are
bounded, and nothing relates the one to the other. A fence majority sees every acknowledged commit
exactly when the configured count and a majority together outnumber the voters, and only as long as
no voter is counted that awaits its bootstrap.
-/

namespace QuorumConfiguration

open ByteWire CheckedCode Quorums ReplicationTypes SourceHolds SourceProgress
open ReplicationQuorum CanonicalScalars

inductive ServerConfigError where
  | invalidFollowerConfiguration
deriving DecidableEq, Repr

inductive CommitAcknowledgementMode where
  | localCommit
  | quorum (requiredFollowers : ℕ+) (timeoutMs : Nat)
deriving DecidableEq

structure ReplicationQuorumConfig where
  commitAcknowledgement : CommitAcknowledgementMode
  autoFailover : Bool
  leaseDurationMs : Nat
  electionTimeoutMs : Nat
  voters : List String
deriving DecidableEq

/-- Every field may be absent. -/
structure ReplicationQuorumDocument where
  commitAcknowledgement : Option String
  quorumAckFollowers : Option Nat
  quorumAckTimeoutMs : Option Nat
  autoFailover : Option Bool
  leaseDurationMs : Option Nat
  electionTimeoutMs : Option Nat
  voters : Option (List String)

namespace ReplicationQuorumDocument

open ServerConfigError

def resolveQuorum (document : ReplicationQuorumDocument) :
    Except ServerConfigError CommitAcknowledgementMode := do
  let rawK ← okOr document.quorumAckFollowers invalidFollowerConfiguration
  if positive : 0 < rawK then do
    require (rawK ≤ maxQuorumAckFollowersV1) invalidFollowerConfiguration
    let timeoutMs := document.quorumAckTimeoutMs.getD 5000
    require (100 ≤ timeoutMs ∧ timeoutMs ≤ 30000) invalidFollowerConfiguration
    .ok (.quorum ⟨rawK, positive⟩ timeoutMs)
  else .error invalidFollowerConfiguration

def resolveAcknowledgement (document : ReplicationQuorumDocument) :
    Except ServerConfigError CommitAcknowledgementMode :=
  let mode := document.commitAcknowledgement.getD "local"
  if mode = "local" then do
    require (document.quorumAckFollowers = none ∧ document.quorumAckTimeoutMs = none)
      invalidFollowerConfiguration
    .ok .localCommit
  else if mode = "quorum" then document.resolveQuorum
  else .error invalidFollowerConfiguration

def resolve (document : ReplicationQuorumDocument) :
    Except ServerConfigError ReplicationQuorumConfig := do
  let commitAcknowledgement ← document.resolveAcknowledgement
  let autoFailover := document.autoFailover.getD false
  let leaseMs := document.leaseDurationMs.getD 3000
  let electionMs := document.electionTimeoutMs.getD 6000
  require ((100 ≤ leaseMs ∧ leaseMs ≤ 30000) ∧ (200 ≤ electionMs ∧ electionMs ≤ 60000) ∧
    leaseMs < electionMs) invalidFollowerConfiguration
  let voters := document.voters.getD []
  require (voters.length ≤ maxQuorumAckFollowersV1 ∧
    ∀ voter ∈ voters, voter ≠ "" ∧ (utf8Bytes voter).length ≤ 256) invalidFollowerConfiguration
  .ok ⟨commitAcknowledgement, autoFailover, leaseMs, electionMs, voters⟩

/-- An accepted document lists no more voters than there are acknowledgement slots. -/
theorem length_voters_of_resolve {document : ReplicationQuorumDocument}
    {config : ReplicationQuorumConfig} (resolved : document.resolve = .ok config) :
    config.voters.length ≤ maxQuorumAckFollowersV1 := by
  simp only [resolve, bind_eq_ok, require_eq_ok, exists_const, Except.ok.injEq] at resolved
  obtain ⟨_, _, _, bounded, rfl⟩ := resolved
  exact bounded.1

theorem required_le_of_resolve {document : ReplicationQuorumDocument}
    {config : ReplicationQuorumConfig} (resolved : document.resolve = .ok config) {required : ℕ+}
    {timeoutMs : Nat} (mode : config.commitAcknowledgement = .quorum required timeoutMs) :
    required ≤ maxQuorumAckFollowersV1 := by
  simp only [resolve, bind_eq_ok, require_eq_ok, exists_const, Except.ok.injEq] at resolved
  obtain ⟨acknowledgement, isMode, _, _, rfl⟩ := resolved
  obtain rfl : acknowledgement = .quorum required timeoutMs := mode
  simp only [resolveAcknowledgement] at isMode
  split at isMode
  · simp [bind_eq_ok] at isMode
  · split at isMode
    · simp only [resolveQuorum, bind_eq_ok] at isMode
      obtain ⟨rawK, _, isMode⟩ := isMode
      split at isMode
      · simp only [bind_eq_ok, require_eq_ok, exists_const, Except.ok.injEq] at isMode
        obtain ⟨bounded, _, same⟩ := isMode
        cases same
        exact bounded
      · cases isMode
    · cases isMode

end ReplicationQuorumDocument

def hexNibble (byte : UInt8) : Option UInt8 :=
  if 48 ≤ byte ∧ byte ≤ 57 then some (byte - 48)
  else if 97 ≤ byte ∧ byte ≤ 102 then some (byte - 97 + 10)
  else none

def parseHexPairs : Bytes → Option Bytes
  | high :: low :: rest => do
    let high ← hexNibble high
    let low ← hexNibble low
    let rest ← parseHexPairs rest
    some ((high <<< 4 ||| low) :: rest)
  | _ => some []

def parseHex16 (text : Bytes) : Option (ByteArrayOf 16) :=
  if text.length = 32 then (parseHexPairs text).bind (arrayOf 16) else none

/-- The text before the first mark, and what follows the mark if there is one. -/
def splitOnce (mark : UInt8) : Bytes → Bytes × Option Bytes
  | [] => ([], none)
  | byte :: rest =>
    if byte = mark then ([], some rest)
    else
      let split := splitOnce mark rest
      (byte :: split.1, split.2)

/-- Which texts are endpoints and server identities. -/
structure AddressSyntax where
  isEndpoint : Bytes → Bool
  isServerIdentity : Bytes → Bool

/-- `hold`, `hold@endpoint` or `hold@endpoint#server`, with the hold in lower-case hexadecimal. -/
def parseVoterEntry (addresses : AddressSyntax) (entry : String) :
    Option ReplicationSourceHoldIdV1 := do
  let (holdHex, rest) := splitOnce 64 (utf8Bytes entry)
  let holdBytes ← parseHex16 holdHex
  let holdId ← ReplicationSourceHoldIdV1.new holdBytes
  match rest with
  | none => some holdId
  | some rest =>
    let (endpoint, serverName) := splitOnce 35 rest
    if addresses.isEndpoint endpoint && serverName.all addresses.isServerIdentity then some holdId
    else none

/-- Entries that do not parse are passed over. -/
def ReplicationQuorumConfig.voterIds (addresses : AddressSyntax)
    (config : ReplicationQuorumConfig) : List ReplicationSourceHoldIdV1 :=
  config.voters.filterMap (parseVoterEntry addresses)

section Intersection

variable {voters : List ReplicationSourceHoldIdV1} {rows : HoldRows} {commit : CommitSequence}

/-- The configured voters that have acknowledged the commit. -/
def covering (voters : List ReplicationSourceHoldIdV1) (rows : HoldRows) (commit : CommitSequence) :
    List ReplicationSourceHoldIdV1 :=
  voters.filter fun voter => rows.any fun row =>
    acknowledges (some voters) commit row.2 && decide (row.2.hold.id = voter)

/-- Every certificate that is accepted over the voters has a vote of a covering voter. -/
def Intersects (voters : List ReplicationSourceHoldIdV1) (rows : HoldRows)
    (commit : CommitSequence) : Prop :=
  ∀ databaseId historyIncarnation sourceEpoch promisedEpoch candidateHoldId candidateApplied votes
    certificate, QuorumFenceCertificateV1.new databaseId historyIncarnation sourceEpoch
      promisedEpoch candidateHoldId candidateApplied voters votes = .ok certificate →
    ∃ vote ∈ certificate.votes, vote.voterHoldId ∈ covering voters rows commit

/-- Whatever such a table the source observes, a commit with its quorum is seen by every
certificate. -/
def Guaranteed (voters : List ReplicationSourceHoldIdV1) (required : ℕ+)
    (table : HoldRows → Prop) : Prop :=
  ∀ access history rows progress commit, ReadAccess.history access = .ok history →
    Chained history rows → table rows → observeForVoters access rows (some voters) = .ok progress →
    progress.hasQuorumAcknowledgedApplicationCommit commit required = true →
    Intersects voters rows commit

/-- No voter of the table awaits its bootstrap. -/
def Attached (voters : List ReplicationSourceHoldIdV1) (rows : HoldRows) : Prop :=
  ∀ row ∈ rows, awaits (some voters) row.2 = false

open QuorumFenceCertificateV1 ReplicationSourceHoldV1 List

/-- Too many covering voters to be avoided by a majority. -/
theorem intersects_of_crowded (crowded : voters.Nodup →
      voters.length < (covering voters rows commit).length + strictMajority voters.length) :
    Intersects voters rows commit := by
  intro databaseId historyIncarnation sourceEpoch promisedEpoch candidateHoldId candidateApplied
    votes certificate accepted
  obtain ⟨certifies, _⟩ := new_eq_ok accepted
  have outnumber : voters.length <
      (covering voters rows commit).length + (certificate.votes.map (·.voterHoldId)).length := by
    have enough := crowded certifies.voters
    have majority := certifies.majority
    rw [length_map]
    omega
  obtain ⟨voter, covered, voted⟩ := exists_common (certifies.voters.filter _) certifies.distinct
    (filter_subset_self voters) certifies.configured outnumber
  obtain ⟨vote, member, rfl⟩ := mem_map.mp voted
  exact ⟨vote, member, covered⟩

/-- The voters that do not cover the commit certify a candidate as soon as they are a majority. -/
theorem crowded_of_intersects (bounded : voters.length ≤ maxReplicationVotersV1)
    (listed : voters ≠ []) (intersects : Intersects voters rows commit) (distinct : voters.Nodup) :
    voters.length < (covering voters rows commit).length + strictMajority voters.length := by
  by_contra sparse
  let outside := voters.filter fun voter => voter ∉ covering voters rows commit
  have majority : strictMajority voters.length ≤ outside.length := by
    have split := length_eq_length_filter_add (l := voters) (· ∈ covering voters rows commit)
    have covered : voters.filter (· ∈ covering voters rows commit) = covering voters rows commit :=
      filter_congr fun voter member =>
        by simp only [covering, mem_filter, member, true_and, Bool.decide_eq_true]
    have others :
        outside = voters.filter fun voter => !decide (voter ∈ covering voters rows commit) :=
      filter_congr fun voter _ => decide_not
    rw [covered, ← others] at split
    omega
  obtain ⟨candidate, isVoter⟩ := exists_mem_of_ne_nil voters listed
  have successor : (NonZeroU64.lit 1).checkedNext = some (NonZeroU64.lit 2) := rfl
  obtain ⟨certificate, accepted, inside⟩ := exists_certificate
    UuidV7.sample (.lit 1) ⟨.lit 1, List.Vector.replicate 32 0, ⟨none, none⟩⟩ successor distinct
    bounded isVoter (distinct.filter _) (filter_subset_self voters : outside ⊆ voters) majority
  obtain ⟨vote, member, covered⟩ := intersects _ _ _ _ _ _ _ _ accepted
  exact of_decide_eq_true (mem_filter.mp (inside vote member)).2 covered

variable {history : ChangelogHistory.ChangelogHistoryStateV3} {access : ReadAccess}
  {progress : ReplicationSourceProgressV3} {required : ℕ+}

section

variable (opened : access.history = .ok history) (chained : Chained history rows)
  (observed : observeForVoters access rows (some voters) = .ok progress)
  (tracked : required ≤ maxQuorumAckFollowersV1)
  (quorum : progress.hasQuorumAcknowledgedApplicationCommit commit required = true)

include opened chained observed tracked quorum

/-- A quorum is that many counted rows at the commit. -/
theorem required_le_counted :
    required ≤ rows.countP fun row => counted (some voters) row.2 && covers commit row.2 := by
  obtain ⟨again, same, counts⟩ :=
    observeForVoters_exact opened chained (healthy_of_observed opened chained observed)
  cases observed.symm.trans same
  exact (counts commit required tracked).mp quorum

/-- Rows that pass a test and count belong to that many voters. -/
theorem required_le_of_rows {group : List ReplicationSourceHoldIdV1}
    (inside : ∀ row ∈ rows, counted (some voters) row.2 = true → covers commit row.2 = true →
      row.2.hold.id ∈ group) : required ≤ group.length := by
  refine (required_le_counted opened chained observed tracked quorum).trans ?_
  rw [countP_eq_length_filter, ← length_map (·.2.hold.id)]
  refine (subperm_of_subset ?_ ?_).length_le
  · have keys : ∀ row ∈ rows.filter fun row => counted (some voters) row.2 && covers commit row.2,
        row.1 = storageKeyFor row.2.hold.id .followerAcknowledgement := by
      intro row member
      obtain ⟨present, both⟩ := mem_filter.mp member
      have counts := (Bool.and_eq_true_iff.mp both).1
      rw [(chained.keyed row present).1, storageKey, (counted_iff.mp counts).2.1]
    have apart := (filter_sublist (p := fun row : _ × ReplicationSourceHoldStateV1 =>
      counted (some voters) row.2 && covers commit row.2)).map Prod.fst |>.nodup chained.distinct
    rw [map_congr_left keys] at apart
    exact Nodup.of_map (storageKeyFor · .followerAcknowledgement) (by rwa [map_map])
  · intro voter member
    obtain ⟨row, isRow, rfl⟩ := mem_map.mp member
    obtain ⟨present, both⟩ := mem_filter.mp isRow
    obtain ⟨counts, reaches⟩ := Bool.and_eq_true_iff.mp both
    exact inside row present counts reaches

end

/-- The given voters stand at a commit, all in one phase. As long as none is retired they are a
quorum for the code. -/
theorem exists_quorum {ids : List ReplicationSourceHoldIdV1} {phase : FollowerRegistrationPhaseV1}
    (live : phase ≠ .retired) (distinct : ids.Nodup) (inside : ids ⊆ voters)
    (enough : ids.length = required) (tracked : required ≤ maxQuorumAckFollowersV1) :
    ∃ progress, observeForVoters (.checkpoint shortHistory) (ids.map (enrolled phase))
    (some voters) = .ok progress ∧
      progress.hasQuorumAcknowledgedApplicationCommit (.lit 1) required = true := by
  have chained : Chained shortHistory (ids.map (enrolled phase)) :=
    chained_enrolled distinct (enough.trans_le tracked) phase
  have healthy :
      ((ids.map (enrolled phase)).countP fun row => isDegraded shortHistory row.2) = 0 := by
    refine countP_eq_zero.mpr (forall_mem_map.mpr fun id _ => ?_)
    cases phase <;> exact Bool.false_ne_true
  have all : ((ids.map (enrolled phase)).countP fun row =>
      counted (some voters) row.2 && covers (.lit 1) row.2) = required := by
    rw [← enough, ← length_map (enrolled phase)]
    refine countP_eq_length.mpr (forall_mem_map.mpr fun id member => ?_)
    have counts : counted (some voters) (enrolled phase id).2 = true :=
      counted_iff.mpr ⟨decide_eq_false live, rfl, by rintro _ ⟨⟩; exact inside member⟩
    rw [counts]
    rfl
  have opened : (ReadAccess.checkpoint shortHistory).history = .ok shortHistory := rfl
  obtain ⟨progress, observed, counts⟩ :=
    observeForVoters_exact opened chained (healthy ▸ Nat.zero_le _)
  exact ⟨progress, observed, (counts (.lit 1) required tracked).mpr all.ge⟩

/-- A guarantee bounds the voters by those that have acknowledged in a table of some voters in one
phase. -/
theorem crowded_of_guaranteed {table : HoldRows → Prop}
    (guaranteed : Guaranteed voters required table)
    (bounded : voters.length ≤ maxReplicationVotersV1) (listed : voters ≠ [])
    (distinct : voters.Nodup)
    (tracked : required ≤ maxQuorumAckFollowersV1) (fits : required ≤ voters.length)
    {phase : FollowerRegistrationPhaseV1} (live : phase ≠ .retired)
    (allowed : table ((voters.take required).map (enrolled phase))) :
    voters.length < (covering voters ((voters.take required).map (enrolled phase))
      (.lit 1)).length + strictMajority voters.length := by
  have some := distinct.sublist (take_sublist required voters)
  have enough : (voters.take required).length = required := length_take_of_le fits
  obtain ⟨progress, observed, quorum⟩ :=
    exists_quorum live some (take_subset required voters) enough tracked
  have chained := chained_enrolled some (enough.trans_le tracked) phase
  exact crowded_of_intersects bounded listed
    (guaranteed _ _ _ _ _ rfl chained allowed observed quorum) distinct

end Intersection

/-- For an accepted document with quorum acknowledgement: over all tables whose positions lie on one
chain and in which no voter awaits its bootstrap, every fence certificate meets a voter that has
acknowledged an acknowledged commit exactly when the voters repeat or the configured count and a
majority together outnumber them. If voters may await their bootstrap, it takes a count that is
never reached. -/
theorem quorum_intersection_iff (addresses : AddressSyntax) {document : ReplicationQuorumDocument}
    {config : ReplicationQuorumConfig} {required : ℕ+} {timeoutMs : Nat}
    (resolved : document.resolve = .ok config)
    (mode : config.commitAcknowledgement = .quorum required timeoutMs)
    (listed : config.voterIds addresses ≠ []) :
    let voters := config.voterIds addresses
    (Guaranteed voters required (Attached voters) ↔
      (voters.Nodup → voters.length < required + strictMajority voters.length)) ∧
    (Guaranteed voters required (fun _ => True) ↔ (voters.Nodup → voters.length < required)) := by
  intro voters
  have bounded : voters.length ≤ maxReplicationVotersV1 := (List.length_filterMap_le _ _).trans
    (ReplicationQuorumDocument.length_voters_of_resolve resolved)
  have tracked := ReplicationQuorumDocument.required_le_of_resolve resolved mode
  refine ⟨⟨fun guaranteed distinct => ?_, fun crowded => ?_⟩, fun guaranteed distinct => ?_,
    fun few => ?_⟩
  · by_contra sparse
    have fits : required ≤ voters.length := by omega
    have attached : Attached voters ((voters.take required).map (enrolled .attached)) :=
      List.forall_mem_map.mpr fun id _ => Bool.and_false _
    have enough := crowded_of_guaranteed guaranteed bounded listed distinct tracked fits
      (by decide) attached
    refine sparse (enough.trans_le (Nat.add_le_add_right ?_ _))
    have inside : covering voters ((voters.take required).map (enrolled .attached)) (.lit 1) ⊆
        voters.take required := by
      intro voter member
      obtain ⟨row, isRow, both⟩ := List.any_eq_true.mp (List.mem_filter.mp member).2
      obtain ⟨id, isId, rfl⟩ := List.mem_map.mp isRow
      rwa [← of_decide_eq_true (Bool.and_eq_true_iff.mp both).2]
    exact (List.subperm_of_subset (distinct.filter _) inside).length_le.trans
      (List.length_take_le _ _)
  · intro access history rows progress commit opened chained attached observed quorum
    refine intersects_of_crowded fun distinct =>
      (crowded distinct).trans_le (Nat.add_le_add_right ?_ _)
    refine required_le_of_rows opened chained observed tracked quorum
      fun row present counts reaches => ?_
    have active : row.2.isActive = true := by
      simpa [awaits, counts] using attached row present
    refine List.mem_filter.mpr ⟨(counted_iff.mp counts).2.2 voters rfl,
      List.any_eq_true.mpr ⟨row, present, ?_⟩⟩
    simp [acknowledges_eq, counts, active, reaches]
  · by_contra fits
    have waiting : FollowerRegistrationPhaseV1.awaitingBootstrap ≠ .retired := by decide
    have enough := crowded_of_guaranteed guaranteed bounded listed distinct tracked
      (Nat.le_of_not_lt fits) waiting trivial
    have none : covering voters ((voters.take required).map (enrolled .awaitingBootstrap))
        (.lit 1) = [] := by
      refine List.filter_eq_nil_iff.mpr fun voter _ covered => ?_
      obtain ⟨row, isRow, both⟩ := List.any_eq_true.mp covered
      obtain ⟨id, _, rfl⟩ := List.mem_map.mp isRow
      cases (Bool.and_eq_true_iff.mp both).1
    have nonempty : 0 < voters.length := List.length_pos_of_ne_nil listed
    rw [none, List.length_nil, strictMajority] at enough
    omega
  · intro access history rows progress commit opened chained _ observed quorum
    refine intersects_of_crowded fun distinct => ?_
    have many := required_le_of_rows opened chained observed tracked quorum
      fun row _ counts _ => (counted_iff.mp counts).2.2 voters rfl
    exact absurd (few distinct) (Nat.not_lt_of_le many)

section ThreeVoters

open ReplicationSourceHoldIdV1 FailoverSafety

def threeEntries : List String :=
  ["01010101010101010101010101010101", "02020202020202020202020202020202",
    "03030303030303030303030303030303"]

/-- Three voters and a choice of the acknowledgement count; everything else is left at its
default. -/
def threeVoters (quorumAckFollowers : Nat) : ReplicationQuorumDocument where
  commitAcknowledgement := some "quorum"
  quorumAckFollowers := some quorumAckFollowers
  quorumAckTimeoutMs := none
  autoFailover := none
  leaseDurationMs := none
  electionTimeoutMs := none
  voters := some threeEntries

def threeVotersConfig (requiredFollowers : ℕ+) : ReplicationQuorumConfig where
  commitAcknowledgement := .quorum requiredFollowers 5000
  autoFailover := false
  leaseDurationMs := 3000
  electionTimeoutMs := 6000
  voters := threeEntries

def anyAddress : AddressSyntax := ⟨fun _ => true, fun _ => true⟩

theorem voterIds_threeVoters (requiredFollowers : ℕ+) :
    (threeVotersConfig requiredFollowers).voterIds anyAddress =
      [filledWith 1, filledWith 2, filledWith 3] := by
  have parsed : threeEntries.filterMap (parseVoterEntry anyAddress) =
      [filledWith 1, filledWith 2, filledWith 3] := by decide +kernel
  exact parsed

/-- One acknowledgement is accepted as the quorum of three voters; the other two are a majority
and certify a candidate that never saw the commit. -/
theorem quorum_missed_by_majority : (threeVoters 1).resolve = .ok (threeVotersConfig 1) ∧
    Chained shortHistory ([filledWith 1].map (enrolled .attached)) ∧
    (∃ progress, observeForVoters (.checkpoint shortHistory)
      ([filledWith 1].map (enrolled .attached))
        (some ((threeVotersConfig 1).voterIds anyAddress)) = .ok progress ∧
      progress.hasQuorumAcknowledgedApplicationCommit (.lit 1) 1 = true) ∧
    ∃ certificate, QuorumFenceCertificateV1.new UuidV7.sample 1 (.lit 1) (.lit 2) (filledWith 2)
        (EpochPromise.positionOf firstPoint) ((threeVotersConfig 1).voterIds anyAddress)
        ([filledWith 2, filledWith 3].map (QuorumFenceCertificateV1.agreeingVote UuidV7.sample
          (.lit 1) (.lit 2) (filledWith 2) (EpochPromise.positionOf firstPoint))) =
          .ok certificate ∧ ∀ vote ∈ certificate.votes, vote.voterHoldId ∉
        covering ((threeVotersConfig 1).voterIds anyAddress)
          ([filledWith 1].map (enrolled .attached)) (.lit 1) := by
  rw [voterIds_threeVoters]
  have single : [filledWith 1].Nodup := List.nodup_singleton _
  refine ⟨by decide +kernel, chained_enrolled single (by decide) _,
    exists_quorum (by decide) single (List.cons_subset_cons _ (List.nil_subset _)) rfl
    (by decide), ?_⟩
  have distinct : [filledWith 1, filledWith 2, filledWith 3].Nodup := by decide +kernel
  have successor : (NonZeroU64.lit 1).checkedNext = some (NonZeroU64.lit 2) := rfl
  obtain ⟨certificate, accepted, inside⟩ := QuorumFenceCertificateV1.exists_certificate
    UuidV7.sample (.lit 1) (EpochPromise.positionOf firstPoint) successor distinct
    (by decide) (List.mem_cons_of_mem _ List.mem_cons_self) distinct.of_cons
    (List.subset_cons_self _ _) (by decide)
  refine ⟨certificate, accepted, ?_⟩
  intro vote member
  have uncovered : ∀ voter ∈ [filledWith 2, filledWith 3], voter ∉
      covering [filledWith 1, filledWith 2, filledWith 3] ([filledWith 1].map (enrolled .attached))
        (.lit 1) := by decide +kernel
  exact uncovered _ (inside vote member)

/-- With two acknowledgements of three voters the quorums meet, but not if the two may await their
bootstrap. -/
theorem quorum_intersection_threeVoters : (threeVoters 2).resolve = .ok (threeVotersConfig 2) ∧
    Guaranteed ((threeVotersConfig 2).voterIds anyAddress) 2
      (Attached ((threeVotersConfig 2).voterIds anyAddress)) ∧
    ¬Guaranteed ((threeVotersConfig 2).voterIds anyAddress) 2 (fun _ => True) := by
  have resolved : (threeVoters 2).resolve = .ok (threeVotersConfig 2) := by decide +kernel
  have listed : (threeVotersConfig 2).voterIds anyAddress ≠ [] := by decide +kernel
  have exactly := quorum_intersection_iff anyAddress resolved rfl listed
  have distinct : [filledWith 1, filledWith 2, filledWith 3].Nodup := by decide +kernel
  refine ⟨resolved, exactly.1.mpr fun _ => by decide +kernel, fun guaranteed => ?_⟩
  have few := exactly.2.mp guaranteed
  rw [voterIds_threeVoters] at few
  exact absurd (few distinct) (by decide)

end ThreeVoters

end QuorumConfiguration
