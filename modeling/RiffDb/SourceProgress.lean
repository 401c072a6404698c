import RiffDb.SourceHolds
import RiffDb.TopSlots
import Mathlib.Data.PNat.Basic

/-!
# Source progress and quorum acknowledgement

The bounded observation of the source-control rows from which the primary decides that enough
followers have acknowledged a commit. One pass checks each row against the published roots, counts
the live followers and keeps their highest acknowledged points, ordered by their transaction
sequence alone. On one chain of positions that is enough to count the live rows at a commit. But a
row that still awaits its bootstrap is counted although its follower has acknowledged nothing, and
degraded registrations outside the voters can make the whole observation fail. -/

namespace SourceProgress

open ByteWire CheckedCode ReplicationTypes ChangelogHistory SourceHolds TopSlots
  ReplicationSourceHoldV1 ReplicationSourceHoldStateV1 List

inductive ObserveError where
  | corrupt
  | limit
  | value (reason : ChangelogV3Error)
deriving DecidableEq, Repr

/-- Source head, slowest acknowledgement and the highest ones, in descending sequence. -/
structure ReplicationSourceProgressV3 where
  history : ChangelogHistoryStateV3
  followerCount : Nat
  oldestAcknowledged : Option ChangelogHistoryPointV3
  topAcknowledged : List (Option ChangelogHistoryPointV3)
  degradedFollowers : Nat
  maintenancePending : Bool

namespace ReplicationSourceProgressV3

def new (history : ChangelogHistoryStateV3) (followerCount : Nat)
    (oldestAcknowledged : Option ChangelogHistoryPointV3) :
    Except ChangelogV3Error ReplicationSourceProgressV3 := do
  require (followerCount ≤ maxReplicationSourceHoldsV1) .limitExceeded
  require (followerCount = 0 ↔ oldestAcknowledged = none) .invalidEncoding
  match oldestAcknowledged with
  | none => .ok ⟨history, followerCount, none,
      List.replicate maxQuorumAckFollowersV1 none, 0, false⟩
  | some point => do
    require (history.minimumResume.sequence.get ≤ point.sequence.get) .predecessorMismatch
    let _ ← ChangelogHistoryStateV3.new history.lineage history.minimumResume history.tail point
    let fill := min followerCount maxQuorumAckFollowersV1
    .ok ⟨history, followerCount, some point, List.replicate fill (some point) ++
      List.replicate (maxQuorumAckFollowersV1 - fill) none, 0, false⟩

/-- The slots of the counted followers are present, ordered and inside the retained range; the
remaining ones are empty. -/
def checkTop (progress : ReplicationSourceProgressV3) :
    Nat → Option Nat → List (Option ChangelogHistoryPointV3) → Except ChangelogV3Error Unit
  | _, _, [] => .ok ()
  | 0, previous, item :: rest => do
    require (item = none) .invalidEncoding
    checkTop progress 0 previous rest
  | _ + 1, _, none :: _ => .error .invalidEncoding
  | expected + 1, previous, some point :: rest => do
    require (progress.history.minimumResume.sequence.get ≤ point.sequence.get) .predecessorMismatch
    let _ ← ChangelogHistoryStateV3.new progress.history.lineage progress.history.minimumResume
      progress.history.tail point
    require (∀ bound ∈ previous, point.sequence.get ≤ bound) .invalidEncoding
    require (∀ oldest ∈ progress.oldestAcknowledged, oldest.sequence.get ≤ point.sequence.get)
      .invalidEncoding
    checkTop progress expected (some point.sequence.get) rest

variable (progress : ReplicationSourceProgressV3)

def withTopAcknowledged (topAcknowledged : List (Option ChangelogHistoryPointV3)) :
    Except ChangelogV3Error ReplicationSourceProgressV3 := do
  progress.checkTop (min progress.followerCount maxQuorumAckFollowersV1) none topAcknowledged
  .ok { progress with topAcknowledged := topAcknowledged }

def withDegradedFollowers (degraded : Nat) :
    Except ChangelogV3Error ReplicationSourceProgressV3 := do
  require (degraded ≤ progress.followerCount ∧
    ¬ (degraded = 0 ∧ progress.maintenancePending = true)) .invalidEncoding
  .ok { progress with degradedFollowers := degraded }

def withRegistrationMaintenancePending (pending : Bool) :
    Except ChangelogV3Error ReplicationSourceProgressV3 := do
  require (¬ (pending = true ∧ progress.degradedFollowers = 0)) .invalidEncoding
  .ok { progress with maintenancePending := pending }

/-- The `k`-th highest acknowledgement; there is none beyond the slots. -/
def kthFollowerAcknowledged (k : ℕ+) : Option ChangelogHistoryPointV3 :=
  if maxQuorumAckFollowersV1 ≤ k.natPred then none
  else (progress.topAcknowledged[k.natPred]?).join

def hasQuorumAcknowledgedApplicationCommit (commitSequence : CommitSequence)
    (requiredFollowers : ℕ+) : Bool :=
  ((progress.kthFollowerAcknowledged requiredFollowers).bind (·.frontier.application)).any
    fun acknowledged => commitSequence.get ≤ acknowledged.get

end ReplicationSourceProgressV3

/-- What the pass over the rows accumulates. -/
structure Tally where
  count : Nat
  degraded : Nat
  maintenancePending : Bool
  oldest : Option ChangelogHistoryPointV3
  topAcknowledged : List (Option ChangelogHistoryPointV3)

def Tally.empty : Tally := ⟨0, 0, false, none, List.replicate maxQuorumAckFollowersV1 none⟩

def insertTopAcknowledged (top : List (Option ChangelogHistoryPointV3))
    (candidate : ChangelogHistoryPointV3) : List (Option ChangelogHistoryPointV3) :=
  insertTop (fun point : ChangelogHistoryPointV3 => point.sequence.get) top candidate

/-- Two followers at one sequence must stand at one point. -/
def slowest (oldest : Option ChangelogHistoryPointV3) (fence : ChangelogHistoryPointV3) :
    Except ObserveError (Option ChangelogHistoryPointV3) :=
  match oldest with
  | none => .ok (some fence)
  | some point =>
    if fence.sequence.get < point.sequence.get then .ok (some fence)
    else if point.sequence = fence.sequence ∧ point ≠ fence then .error .corrupt
    else .ok (some point)

/-- The row of a live hold: only follower acknowledgements of the listed voters count. -/
def countRow (history : ChangelogHistoryStateV3)
    (voters : Option (List ReplicationSourceHoldIdV1)) (tally : Tally)
    (hold : ReplicationSourceHoldV1) : Except ObserveError Tally := do
  let _ ← (ChangelogHistoryStateV3.new history.lineage history.minimumResume history.tail
    hold.fence).mapError ObserveError.value
  if hold.kind = .followerAcknowledgement ∧ ∀ ids ∈ voters, hold.id ∈ ids then do
    let oldest ← slowest tally.oldest hold.fence
    .ok { tally with
      count := tally.count + 1
      oldest := oldest
      topAcknowledged := insertTopAcknowledged tally.topAcknowledged hold.fence }
  else .ok tally

def observeRow (history : ChangelogHistoryStateV3)
    (voters : Option (List ReplicationSourceHoldIdV1)) (tally : Tally)
    (row : Bytes × ReplicationSourceHoldStateV1) : Except ObserveError Tally := do
  require (row.1 = row.2.hold.storageKey ∧ row.2.hold.lineage = history.lineage)
    ObserveError.corrupt
  match row.2 with
  | .legacy hold => countRow history voters tally hold
  | .registered policy => do
    require (policy.registeredAt.precedesOrEquals history.tail = true ∧
      policy.generation.get ≤ history.tail.sequence.get ∧
      policy.hold.fence.precedesOrEquals history.tail = true ∧
      ∀ point ∈ policy.degradedAt, point.precedesOrEquals history.tail = true)
      ObserveError.corrupt
    if policy.phase = .retired then .ok tally
    else do
      let observation ← (FollowerHoldBudget.observe policy.budget policy.hold history).mapError
        ObserveError.value
      let exhausted := observation.isExhausted
      let expired := policy.expiresAt.any
        (·.get ≤ sequenceValue history.tail.frontier.application)
      countRow history voters
        { tally with
          maintenancePending := tally.maintenancePending || expired ||
            (exhausted && policy.degradedAt.isNone)
          degraded := tally.degraded + if exhausted || expired then 1 else 0 }
        policy.hold

/-- Where the rows and roots are read: a checkpoint, or a composite view whose published
frontier must be the one of its history. -/
inductive ReadAccess where
  | checkpoint (history : ChangelogHistoryStateV3)
  | composite (history : ChangelogHistoryStateV3) (published : DualFrontier)

def ReadAccess.history : ReadAccess → Except ObserveError ChangelogHistoryStateV3
  | .checkpoint history => .ok history
  | .composite history published =>
    if history.tail.frontier = published then .ok history else .error .corrupt

def observeForVoters (access : ReadAccess) (rows : HoldRows)
    (voters : Option (List ReplicationSourceHoldIdV1)) :
    Except ObserveError ReplicationSourceProgressV3 := do
  let history ← access.history
  require (rows.length ≤ maxReplicationSourceHoldsV1) ObserveError.limit
  let tally ← rows.foldlM (observeRow history voters) Tally.empty
  (do
    let progress ← ReplicationSourceProgressV3.new history tally.count tally.oldest
    let progress ← progress.withTopAcknowledged tally.topAcknowledged
    let progress ← progress.withDegradedFollowers tally.degraded
    progress.withRegistrationMaintenancePending tally.maintenancePending).mapError
      ObserveError.value

/-- The rows whose acknowledgement is counted. -/
def counted (voters : Option (List ReplicationSourceHoldIdV1))
    (state : ReplicationSourceHoldStateV1) : Bool :=
  !state.isRetired && decide (state.hold.kind = .followerAcknowledgement ∧
    ∀ ids ∈ voters, state.hold.id ∈ ids)

/-- The position of a row is at the commit or beyond. -/
def covers (commit : CommitSequence) (state : ReplicationSourceHoldStateV1) : Bool :=
  commit.get ≤ sequenceValue state.hold.fence.frontier.application

/-- The hold of a voter that has acknowledged the commit; while it awaits its bootstrap it has
acknowledged nothing. -/
def acknowledges (voters : Option (List ReplicationSourceHoldIdV1)) (commit : CommitSequence)
    (state : ReplicationSourceHoldStateV1) : Bool :=
  state.isActive && decide (state.hold.kind = .followerAcknowledgement ∧
    ∀ ids ∈ voters, state.hold.id ∈ ids) && covers commit state

/-- The hold of a voter that has been registered and awaits its bootstrap. -/
def awaits (voters : Option (List ReplicationSourceHoldIdV1))
    (state : ReplicationSourceHoldStateV1) : Bool :=
  counted voters state && !state.isActive

variable {voters : Option (List ReplicationSourceHoldIdV1)}

theorem counted_iff {state : ReplicationSourceHoldStateV1} : counted voters state = true ↔
      state.isRetired = false ∧ state.hold.kind = .followerAcknowledgement ∧
        ∀ ids ∈ voters, state.hold.id ∈ ids := by
  simp [counted]

def countedFences (voters : Option (List ReplicationSourceHoldIdV1)) (rows : HoldRows) :
    List ChangelogHistoryPointV3 :=
  (rows.filter fun row => counted voters row.2).map (·.2.hold.fence)

variable {history : ChangelogHistoryStateV3} {tally next : Tally}

theorem countRow_top
    {hold : ReplicationSourceHoldV1} (observed : countRow history voters tally hold = .ok next) :
    next.topAcknowledged = if hold.kind = .followerAcknowledgement ∧ ∀ ids ∈ voters,
      hold.id ∈ ids then
        insertTopAcknowledged tally.topAcknowledged hold.fence else tally.topAcknowledged := by
  simp only [countRow, bind_eq_ok, mapError_eq_ok] at observed
  obtain ⟨_, _, observed⟩ := observed
  split at observed
  · next counts =>
    rw [if_pos counts]
    obtain ⟨_, _, done⟩ := bind_eq_ok.mp observed
    cases done
    rfl
  · next ignored =>
    rw [if_neg ignored]
    cases observed
    rfl

/-- A row that passes has the key of its hold and moves the slots if it counts. -/
theorem observeRow_eq_ok {row : Bytes × ReplicationSourceHoldStateV1}
    (observed : observeRow history voters tally row = .ok next) :
    row.1 = row.2.hold.storageKey ∧ next.topAcknowledged =
      if counted voters row.2 then insertTopAcknowledged tally.topAcknowledged row.2.hold.fence
      else tally.topAcknowledged := by
  obtain ⟨key, state⟩ := row
  simp only [observeRow, bind_eq_ok, require_eq_ok] at observed
  obtain ⟨_, ⟨keyed, _⟩, observed⟩ := observed
  refine ⟨keyed, ?_⟩
  cases state with
  | legacy hold =>
    have top := countRow_top observed
    simpa [counted, isRetired, ReplicationSourceHoldStateV1.hold]
      using top
  | registered policy =>
    simp only [bind_eq_ok, require_eq_ok] at observed
    obtain ⟨_, _, observed⟩ := observed
    split at observed
    · next retired =>
      cases observed
      simp [counted, isRetired, retired]
    · next live =>
      obtain ⟨observation, _, observed⟩ := bind_eq_ok.mp observed
      have top := countRow_top observed
      simpa [counted, isRetired, ReplicationSourceHoldStateV1.hold, live] using top

/-- The slots of a tally hold the highest counted fences of the rows seen so far, and every one
of those rows has the key of its hold. -/
structure Walked (voters : Option (List ReplicationSourceHoldIdV1)) (tally : Tally)
    (rows : HoldRows) : Prop where
  keyed : ∀ row ∈ rows, row.1 = row.2.hold.storageKey
  top : tally.topAcknowledged = topOf (fun point : ChangelogHistoryPointV3 => point.sequence.get)
    maxQuorumAckFollowersV1 (countedFences voters rows)

variable {rows : HoldRows}

theorem Walked.observeRow {row : Bytes × ReplicationSourceHoldStateV1}
    (walked : Walked voters tally rows)
    (observed : observeRow history voters tally row = .ok next) :
      Walked voters next (rows ++ [row]) := by
  obtain ⟨keyed, top⟩ := observeRow_eq_ok observed
  constructor
  · intro other member
    rcases mem_append.mp member with old | new
    · exact walked.keyed other old
    · rw [mem_singleton.mp new]
      exact keyed
  · rw [top, walked.top]
    by_cases counts : counted voters row.2 = true
    · simp [countedFences, counts, topOf, insertTopAcknowledged]
    · simp [countedFences, counts]

open ReplicationSourceProgressV3

variable {progress : ReplicationSourceProgressV3}

theorem Walked.observeRows (folded :
    rows.foldlM (SourceProgress.observeRow history voters) Tally.empty = .ok tally) :
    Walked voters tally rows := by
  have initially : Walked voters Tally.empty [] := ⟨by simp, rfl⟩
  have walked := foldlM_invariant (P := Walked voters)
    (fun _ _ _ _ held moved => .observeRow held moved) initially folded
  rwa [nil_append] at walked

variable {access : ReadAccess}

theorem observeForVoters_walked (observed : observeForVoters access rows voters = .ok progress) :
    ∃ tally, Walked voters tally rows ∧ progress.topAcknowledged = tally.topAcknowledged := by
  simp only [observeForVoters, bind_eq_ok, require_eq_ok, mapError_eq_ok] at observed
  obtain ⟨history, _, _, _, tally, folded, first, _, second, topped, third, degraded, pending⟩ :=
    observed
  refine ⟨tally, .observeRows folded, ?_⟩
  simp only [withTopAcknowledged, bind_eq_ok] at topped
  simp only [withDegradedFollowers, bind_eq_ok] at degraded
  simp only [withRegistrationMaintenancePending, bind_eq_ok] at pending
  obtain ⟨_, _, topped⟩ := topped
  obtain ⟨_, _, degraded⟩ := degraded
  obtain ⟨_, _, pending⟩ := pending
  cases topped
  cases degraded
  cases pending
  rfl

variable {tally : Tally}

/-- A counted row stands under the key of its follower. -/
theorem Walked.row (walked : Walked voters tally rows) {row : Bytes × ReplicationSourceHoldStateV1}
    (present : row ∈ rows) (counts : counted voters row.2 = true) :
    row.1 = storageKeyFor row.2.hold.id .followerAcknowledgement := by
  rw [walked.keyed row present, storageKey, (counted_iff.mp counts).2.1]

/-- The counted rows of the voters at a sequence or beyond. -/
def standing (voters : List ReplicationSourceHoldIdV1) (sequence : Nat)
    (rows : HoldRows) : HoldRows :=
  rows.filter fun row => counted (some voters) row.2 &&
    decide (sequence ≤ row.2.hold.fence.sequence.get)

theorem mem_countedFences {fence : ChangelogHistoryPointV3} : fence ∈ countedFences voters rows ↔
    ∃ row ∈ rows, counted voters row.2 = true ∧ row.2.hold.fence = fence := by
  simp [countedFences, and_assoc]

section Standing

variable {voters : List ReplicationSourceHoldIdV1} {sequence : Nat} {rows : HoldRows}

theorem mem_standing {row : Bytes × ReplicationSourceHoldStateV1} :
    row ∈ standing voters sequence rows ↔ row ∈ rows ∧ counted (some voters) row.2 = true ∧
      sequence ≤ row.2.hold.fence.sequence.get := by
  simp [standing]

theorem length_standing : (standing voters sequence rows).length =
    (countedFences (some voters) rows).countP fun point => sequence ≤ point.sequence.get := by
  rw [standing, countedFences, countP_map, countP_eq_length_filter, filter_filter]
  congr 1
  apply filter_congr
  intro row _
  rw [Bool.and_comm]
  rfl

/-- Rows under distinct keys belong to distinct voters. -/
theorem Walked.nodup_standing (walked : Walked (some voters) tally rows)
    (distinct : (rows.map (·.1)).Nodup) :
    ((standing voters sequence rows).map (·.2.hold.id)).Nodup := by
  have keys : (standing voters sequence rows).map (·.1) =
      ((standing voters sequence rows).map (·.2.hold.id)).map fun id =>
        storageKeyFor id .followerAcknowledgement := by
    rw [map_map]
    apply map_congr_left
    intro row inside
    obtain ⟨present, counts, _⟩ := mem_standing.mp inside
    exact walked.row present counts
  have apart : ((standing voters sequence rows).map (·.1)).Nodup :=
    (filter_sublist.map _).nodup distinct
  rw [keys] at apart
  exact apart.of_map

end Standing

variable {progress : ReplicationSourceProgressV3} {commit : CommitSequence} {required : ℕ+}

/-- The quorum test reads one slot. -/
theorem hasQuorum_iff :
    progress.hasQuorumAcknowledgedApplicationCommit commit required = true ↔
      required.natPred < maxQuorumAckFollowersV1 ∧
        (progress.topAcknowledged[required.natPred]?.join).any
        (fun point => commit.get ≤ sequenceValue point.frontier.application) = true := by
  unfold hasQuorumAcknowledgedApplicationCommit kthFollowerAcknowledged
  split
  · next beyond => simp [beyond]
  · next inside =>
    rw [and_iff_right (Nat.lt_of_not_le inside)]
    cases progress.topAcknowledged[required.natPred]?.join with
    | none => rfl
    | some point =>
      cases isFrontier : point.frontier.application with
      | none => simp [isFrontier, sequenceValue, commit.pos.ne']
      | some acknowledged => simp [isFrontier, sequenceValue]

/-- A commit with a quorum: some row's acknowledged point covers it, and that many rows of
distinct voters stand at that point's sequence or beyond. -/
theorem quorum_rows {voters : List ReplicationSourceHoldIdV1} (distinct : (rows.map (·.1)).Nodup)
    (observed : observeForVoters access rows (some voters) = .ok progress)
    (quorum : progress.hasQuorumAcknowledgedApplicationCommit commit required = true) :
    ∃ id state, (storageKeyFor id .followerAcknowledgement, state) ∈ rows ∧
      counted (some voters) state = true ∧
      commit.get ≤ sequenceValue state.hold.fence.frontier.application ∧
      ∃ group : List ReplicationSourceHoldIdV1, group.Nodup ∧ group ⊆ voters ∧
        required ≤ group.length ∧ ∀ voter ∈ group, ∃ other,
          (storageKeyFor voter .followerAcknowledgement, other) ∈ rows ∧
          state.hold.fence.sequence.get ≤ other.hold.fence.sequence.get ∧
          counted (some voters) other = true ∧ other.hold.id = voter := by
  obtain ⟨tally, walked, top⟩ := observeForVoters_walked observed
  obtain ⟨point, found, covers⟩ := (Option.any_eq_true _ _).mp (hasQuorum_iff.mp quorum).2
  rw [Option.join_eq_some_iff, top, walked.top] at found
  have enough := le_countP_of_topOf found
  obtain ⟨source, sourcePresent, sourceCounts, rfl⟩ :=
    mem_countedFences.mp (mem_of_topOf (mem_of_getElem? found))
  refine ⟨source.2.hold.id, source.2, ?_, sourceCounts, of_decide_eq_true covers, ?_⟩
  · rw [← walked.row sourcePresent sourceCounts]
    exact sourcePresent
  · refine ⟨(standing voters source.2.hold.fence.sequence.get rows).map (·.2.hold.id),
      walked.nodup_standing distinct, ?_, ?_, ?_⟩
    · intro voter inside
      obtain ⟨row, stands, rfl⟩ := mem_map.mp inside
      exact (counted_iff.mp (mem_standing.mp stands).2.1).2.2 voters rfl
    · rw [length_map, length_standing, ← PNat.natPred_add_one required]
      exact enough
    · intro voter inside
      obtain ⟨row, stands, rfl⟩ := mem_map.mp inside
      obtain ⟨present, counts, reaches⟩ := mem_standing.mp stands
      refine ⟨row.2, ?_, reaches, counts, rfl⟩
      rw [← walked.row present counts]
      exact present

/-- A live registration whose allowance is used up or whose expiry is reached. -/
def isDegraded (history : ChangelogHistoryStateV3) : ReplicationSourceHoldStateV1 → Bool
  | .legacy _ => false
  | .registered policy => policy.phase ≠ .retired &&
      ((FollowerHoldBudget.observe policy.budget policy.hold history).toOption.any
        (·.isExhausted) ||
        policy.expiresAt.any (·.get ≤ sequenceValue history.tail.frontier.application))

/-- A position in the retained range of a history. -/
def Retained (history : ChangelogHistoryStateV3) (point : ChangelogHistoryPointV3) : Prop :=
  history.minimumResume.precedesOrEquals point = true ∧ point.precedesOrEquals history.tail = true

/-- The rows of a source: each stands under its key in the lineage of the history, what it names is
no later than the tail, and the positions that live rows hold are on one retained chain. -/
structure Chained (history : ChangelogHistoryStateV3) (rows : HoldRows) : Prop where
  bounded : rows.length ≤ maxReplicationSourceHoldsV1
  distinct : (rows.map (·.1)).Nodup
  keyed : ∀ row ∈ rows, row.1 = row.2.hold.storageKey ∧ row.2.hold.lineage = history.lineage
  registered : ∀ row ∈ rows, ∀ policy, row.2 = .registered policy →
    policy.registeredAt.precedesOrEquals history.tail = true ∧
      policy.generation.get ≤ history.tail.sequence.get ∧
      policy.hold.fence.precedesOrEquals history.tail = true ∧
      ∀ point ∈ policy.degradedAt, point.precedesOrEquals history.tail = true
  retained : ∀ row ∈ rows, row.2.isRetired = false → Retained history row.2.hold.fence
  chained : ∀ row ∈ rows, ∀ other ∈ rows, row.2.isRetired = false → other.2.isRetired = false →
    row.2.hold.fence.precedesOrEquals other.2.hold.fence = true ∨
      other.2.hold.fence.precedesOrEquals row.2.hold.fence = true

/-- The slowest of the counted fences, if there is one. -/
def Least (fences : List ChangelogHistoryPointV3) : Option ChangelogHistoryPointV3 → Prop
  | none => fences = []
  | some point => point ∈ fences ∧ ∀ fence ∈ fences, point.sequence.get ≤ fence.sequence.get

/-- What the pass has gathered from the rows seen so far. -/
structure Tallied (history : ChangelogHistoryStateV3)
    (voters : Option (List ReplicationSourceHoldIdV1))
    (tally : Tally) (rows : HoldRows) : Prop where
  count : tally.count = (countedFences voters rows).length
  least : Least (countedFences voters rows) tally.oldest
  degraded : tally.degraded = rows.countP fun row => isDegraded history row.2
  pending : tally.maintenancePending = true → 0 < tally.degraded

section Exact

open ChangelogHistoryPointV3

variable {row : Bytes × ReplicationSourceHoldStateV1} {rest : HoldRows}
  {fences : List ChangelogHistoryPointV3}
  {oldest : Option ChangelogHistoryPointV3} {point fence : ChangelogHistoryPointV3}

theorem Retained.checked (retained : Retained history point) :
    ChangelogHistoryStateV3.new history.lineage history.minimumResume history.tail point =
      .ok ⟨history.lineage, history.minimumResume, history.tail, point, retained.1, retained.2⟩ :=
  dif_pos retained

theorem Chained.retained_of_counted (chained : Chained history rows) :
    ∀ fence ∈ countedFences voters rows, Retained history fence := by
  intro fence member
  obtain ⟨row, present, counts, rfl⟩ := mem_countedFences.mp member
  exact chained.retained row present (counted_iff.mp counts).1

/-- The counted fences of a chain come in the order of their sequences. -/
theorem Chained.ordered (chained : Chained history rows) (first : point ∈ countedFences voters rows)
    (second : fence ∈ countedFences voters rows) (order : point.sequence.get ≤ fence.sequence.get) :
    point.precedesOrEquals fence = true := by
  obtain ⟨row, present, counts, rfl⟩ := mem_countedFences.mp first
  obtain ⟨other, otherPresent, otherCounts, rfl⟩ := mem_countedFences.mp second
  rcases chained.chained row present other otherPresent (counted_iff.mp counts).1
    (counted_iff.mp otherCounts).1
    with before | after
  · exact before
  · -- the two stand at one sequence and are one point
    have same : other.2.hold.fence.sequence = row.2.hold.fence.sequence :=
      NonZeroU64.ext (le_antisymm (precedesOrEquals_sequence after) order)
    simpa [precedesOrEquals, same, eq_comm] using after

theorem Least.slowest (least : Least fences oldest)
    (agree : ∀ point ∈ fences, point.sequence = fence.sequence → point = fence) :
    ∃ next, slowest oldest fence = .ok next ∧ Least (fences ++ [fence]) next := by
  cases oldest with
  | none =>
    cases least
    exact ⟨some fence, rfl, by simp [Least]⟩
  | some point =>
    obtain ⟨inside, below⟩ := least
    by_cases before : fence.sequence.get < point.sequence.get
    · refine ⟨some fence, if_pos before, mem_append_right _ mem_cons_self, ?_⟩
      refine forall_mem_append.mpr ⟨fun other member => before.le.trans (below other member), ?_⟩
      simp
    · have same : ¬ (point.sequence = fence.sequence ∧ point ≠ fence) := fun both =>
        both.2 (agree point inside both.1)
      refine ⟨some point, (if_neg before).trans (if_neg same), mem_append_left _ inside, ?_⟩
      refine forall_mem_append.mpr ⟨below, ?_⟩
      simpa using Nat.le_of_not_lt before

theorem countedFences_append (rows : HoldRows) (row : Bytes × ReplicationSourceHoldStateV1) :
    countedFences voters (rows ++ [row]) =
      countedFences voters rows ++ if counted voters row.2 then [row.2.hold.fence] else [] := by
  by_cases counts : counted voters row.2 = true <;> simp [countedFences, counts]

/-- A live row whose health is already in the tally. -/
theorem countRow_tallied (chained : Chained history (rows ++ row :: rest))
    (live : row.2.isRetired = false) (count : tally.count = (countedFences voters rows).length)
    (least : Least (countedFences voters rows) tally.oldest)
    (degraded : tally.degraded = (rows ++ [row]).countP fun row => isDegraded history row.2)
    (pending : tally.maintenancePending = true → 0 < tally.degraded) :
    ∃ next, countRow history voters tally row.2.hold = .ok next ∧
      Tallied history voters next (rows ++ [row]) := by
  have present : row ∈ rows ++ row :: rest := by simp
  simp only [countRow, (chained.retained row present live).checked, Except.mapError, ok_bind]
  by_cases counts : counted voters row.2 = true
  · have agree : ∀ fence ∈ countedFences voters rows,
        fence.sequence = row.2.hold.fence.sequence → fence = row.2.hold.fence := by
      intro fence member same
      obtain ⟨other, seen, isCounted, rfl⟩ := mem_countedFences.mp member
      have ordered := chained.ordered
        (mem_countedFences.mpr ⟨other, mem_append_left _ seen, isCounted, rfl⟩)
        (mem_countedFences.mpr ⟨row, present, counts, rfl⟩) (by rw [same])
      simpa [precedesOrEquals, same] using ordered
    obtain ⟨oldest, isOldest, isLeast⟩ := least.slowest agree
    rw [if_pos (counted_iff.mp counts).2, isOldest]
    refine ⟨_, rfl, ?_, ?_, degraded, pending⟩
    · rw [countedFences_append, if_pos counts, length_append, ← count]
      rfl
    · rw [countedFences_append, if_pos counts]
      exact isLeast
  · have ignored : countedFences voters (rows ++ [row]) = countedFences voters rows := by
      rw [countedFences_append, if_neg counts, append_nil]
    rw [if_neg fun both => counts (counted_iff.mpr ⟨live, both⟩)]
    exact ⟨tally, rfl, by rw [ignored, count], by rwa [ignored], degraded, pending⟩

theorem observe_succeeds {policy : ReplicationSourceHoldV2}
    (lineage : policy.hold.lineage = history.lineage)
    (retained : Retained history policy.hold.fence) :
    ∃ observation, FollowerHoldBudget.observe policy.budget policy.hold history =
      .ok observation := by
  have checked := policy.checked
  simp only [checkPolicy, bind_eq_ok, require_eq_ok] at checked
  obtain ⟨_, ⟨kind, _⟩, _⟩ := checked
  rw [FollowerHoldBudget.observe, require_pos ⟨kind, lineage, retained⟩, ok_bind]
  dsimp only
  rw [require_pos (precedesOrEquals_application retained.2)]
  exact ⟨_, rfl⟩

/-- A row of a chain passes, whatever its health. -/
theorem Tallied.observeRow (chained : Chained history (rows ++ row :: rest))
    (tallied : Tallied history voters tally rows) :
    ∃ next, observeRow history voters tally row = .ok next ∧
      Tallied history voters next (rows ++ [row]) := by
  have present : row ∈ rows ++ row :: rest := by simp
  obtain ⟨keyed, lineage⟩ := chained.keyed row present
  rw [SourceProgress.observeRow, require_pos ⟨keyed, lineage⟩, ok_bind]
  obtain ⟨key, state⟩ := row
  cases state with
  | legacy hold =>
    refine countRow_tallied chained rfl tallied.count tallied.least ?_ tallied.pending
    rw [tallied.degraded, countP_append]
    rfl
  | registered policy =>
    dsimp only
    rw [require_pos (chained.registered _ present policy rfl), ok_bind]
    by_cases retired : policy.phase = .retired
    · rw [if_pos retired]
      have ignored : countedFences voters (rows ++ [(key, .registered policy)]) =
          countedFences voters rows := by
        simp [countedFences, counted, isRetired, retired]
      refine ⟨tally, rfl, by rw [ignored, tallied.count], by rw [ignored]; exact tallied.least, ?_,
        tallied.pending⟩
      simp [tallied.degraded, isDegraded, retired]
    · rw [if_neg retired]
      have live : isRetired (.registered policy) = false := decide_eq_false retired
      obtain ⟨observation, observed⟩ := observe_succeeds lineage (chained.retained _ present live)
      simp only [observed, Except.mapError, ok_bind]
      refine countRow_tallied chained live tallied.count tallied.least ?_ ?_
      · rw [tallied.degraded, countP_append, countP_singleton]
        simp [isDegraded, retired, observed, Except.toOption]
      · intro isPending
        split
        · exact Nat.succ_pos _
        · next healthy =>
          refine tallied.pending ?_
          simp_all

theorem Tallied.observeRows (chained : Chained history rows)
    (voters : Option (List ReplicationSourceHoldIdV1)) :
    ∃ tally, rows.foldlM (SourceProgress.observeRow history voters) Tally.empty = .ok tally ∧
      Tallied history voters tally rows := by
  refine foldlM_succeeds (P := Tallied history voters) ?_ ⟨rfl, rfl, rfl, by simp [Tally.empty]⟩
  rintro tally seen row rest rfl tallied
  exact tallied.observeRow chained

theorem checkTop_succeeds {slots : List (Option ChangelogHistoryPointV3)} {previous : Option Nat}
    (descending : Descending (fun point : ChangelogHistoryPointV3 => point.sequence.get) slots)
    (bounded : ∀ bound ∈ previous, ∀ point, some point ∈ slots → point.sequence.get ≤ bound)
    (passes : ∀ point, some point ∈ slots → Retained progress.history point ∧
      ∀ oldest ∈ progress.oldestAcknowledged, oldest.sequence.get ≤ point.sequence.get) :
    progress.checkTop (values slots).length previous slots = .ok () := by
  induction slots generalizing previous with
  | nil => cases previous <;> rfl
  | cons slot rest ih =>
    obtain ⟨above, tail⟩ := pairwise_cons.mp descending
    have later := fun point member => passes point (mem_cons_of_mem slot member)
    cases slot with
    | none =>
      have empty : values rest = [] := by
        rw [values, filterMap_eq_nil_iff]
        intro slot member
        cases slot with
        | none => rfl
        | some point =>
          obtain ⟨_, impossible, _⟩ := above _ member point rfl
          cases impossible
      have others := ih tail (fun bound isBound point member =>
        bounded bound isBound point (mem_cons_of_mem _ member)) later
      rw [empty] at others
      change progress.checkTop (values rest).length previous (none :: rest) = _
      rw [empty]
      simp only [length_nil, checkTop, require_pos, ok_bind]
      exact others
    | some point =>
      obtain ⟨retained, slowest⟩ := passes point mem_cons_self
      have below : ∀ bound ∈ some point.sequence.get, ∀ lower, some lower ∈ rest →
          lower.sequence.get ≤ bound := by
        rintro _ ⟨⟩ lower member
        obtain ⟨_, same, order⟩ := above _ member lower rfl
        cases same
        exact order
      have ordered : ∀ bound ∈ previous, point.sequence.get ≤ bound := fun bound isBound =>
        bounded bound isBound point mem_cons_self
      change progress.checkTop ((values rest).length + 1) previous (some point :: rest) = _
      simp only [checkTop, retained.checked, require_pos (precedesOrEquals_sequence retained.1),
        require_pos ordered, require_pos slowest, ok_bind]
      exact ih tail below later

theorem new_succeeds (bounded : fences.length ≤ maxReplicationSourceHoldsV1)
    (least : Least fences oldest) (retained : ∀ fence ∈ fences, Retained history fence) :
    ∃ progress, ReplicationSourceProgressV3.new history fences.length oldest = .ok progress ∧
      progress.history = history ∧ progress.followerCount = fences.length ∧
      progress.oldestAcknowledged = oldest ∧ progress.maintenancePending = false := by
  cases oldest with
  | none =>
    cases least
    exact ⟨_, rfl, rfl, rfl, rfl, rfl⟩
  | some point =>
    have held := retained point least.1
    have present : fences.length = 0 ↔ some point = none := by
      simpa using ne_nil_of_mem least.1
    simp only [ReplicationSourceProgressV3.new, require_pos bounded,
      require_pos present, held.checked, require_pos (precedesOrEquals_sequence held.1), ok_bind]
    exact ⟨_, rfl, rfl, rfl, rfl, rfl⟩

theorem length_countedFences :
    (countedFences voters rows).length = rows.countP fun row => counted voters row.2 := by
  rw [countedFences, length_map, countP_eq_length_filter]

/-- While no more registrations are degraded than rows are counted, the pass over the rows succeeds,
and a commit has a quorum of `k` followers exactly when `k` counted rows cover it. -/
theorem observeForVoters_exact (opened : access.history = .ok history)
    (chained : Chained history rows)
    (healthy : (rows.countP fun row => isDegraded history row.2) ≤
      rows.countP fun row => counted voters row.2) :
    ∃ progress, observeForVoters access rows voters = .ok progress ∧
      ∀ (commit : CommitSequence) (required : ℕ+), required ≤ maxQuorumAckFollowersV1 →
        (progress.hasQuorumAcknowledgedApplicationCommit commit required = true ↔
          required ≤ rows.countP fun row => counted voters row.2 && covers commit row.2) := by
  obtain ⟨tally, folded, tallied⟩ := Tallied.observeRows chained voters
  have top := (Walked.observeRows folded).top
  have bounded : (countedFences voters rows).length ≤ maxReplicationSourceHoldsV1 :=
    length_countedFences.trans_le (countP_le_length.trans chained.bounded)
  obtain ⟨progress, created, isHistory, isCount, isOldest, notPending⟩ :=
    new_succeeds bounded tallied.least chained.retained_of_counted
  have filled : (values tally.topAcknowledged).countP (fun _ => true) =
      min maxQuorumAckFollowersV1 ((countedFences voters rows).countP fun _ => true) := by
    rw [top]
    exact countP_topOf fun _ _ _ _ => rfl
  rw [countP_true, min_comm, ← isCount] at filled
  have topped : progress.withTopAcknowledged tally.topAcknowledged =
      .ok { progress with topAcknowledged := tally.topAcknowledged } := by
    rw [withTopAcknowledged, ← filled, checkTop_succeeds]
    · rfl
    · rw [top]
      exact descending_topOf
    · rintro _ ⟨⟩
    · intro point member
      rw [top] at member
      have inside := mem_of_topOf member
      rw [isHistory, isOldest]
      refine ⟨chained.retained_of_counted point inside, fun oldest isOldest => ?_⟩
      have least := tallied.least
      rw [isOldest] at least
      exact least.2 point inside
  have health : tally.degraded ≤ progress.followerCount ∧
      ¬ (tally.degraded = 0 ∧ progress.maintenancePending = true) := by
    rw [isCount, length_countedFences, tallied.degraded, notPending]
    exact ⟨healthy, by simp⟩
  have pending : ¬ (tally.maintenancePending = true ∧ tally.degraded = 0) := fun both =>
    (tallied.pending both.1).ne' both.2
  refine ⟨{ progress with
    topAcknowledged := tally.topAcknowledged
    degradedFollowers := tally.degraded
    maintenancePending := tally.maintenancePending }, ?_, ?_⟩
  · rw [observeForVoters, opened, ok_bind, require_pos chained.bounded, ok_bind, folded, ok_bind,
      tallied.count,
      created, ok_bind, topped, ok_bind, withDegradedFollowers, require_pos health,
      ok_bind, ok_bind, withRegistrationMaintenancePending, require_pos pending]
    rfl
  · intro commit required tracked
    rw [← PNat.natPred_add_one required] at tracked ⊢
    have inside : required.natPred < maxQuorumAckFollowersV1 := tracked
    have rising : ∀ low ∈ countedFences voters rows, ∀ high ∈ countedFences voters rows,
        low.sequence.get ≤ high.sequence.get →
        decide (commit.get ≤ sequenceValue low.frontier.application) = true →
        decide (commit.get ≤ sequenceValue high.frontier.application) = true := by
      intro low isLow high isHigh order covers
      exact decide_eq_true ((of_decide_eq_true covers).trans
        (precedesOrEquals_application (chained.ordered isLow isHigh order)))
    rw [hasQuorum_iff, and_iff_right inside, top, any_topOf_iff inside rising,
      countedFences, countP_map, countP_filter]
    simp only [Function.comp_def, Bool.and_comm]
    rfl

theorem new_followerCount {count : Nat}
    (created : ReplicationSourceProgressV3.new history count oldest = .ok progress) :
    progress.followerCount = count := by
  simp only [ReplicationSourceProgressV3.new, bind_eq_ok] at created
  obtain ⟨_, _, _, _, created⟩ := created
  cases oldest with
  | none =>
    cases created
    rfl
  | some point =>
    simp only [bind_eq_ok] at created
    obtain ⟨_, _, _, _, created⟩ := created
    cases created
    rfl

/-- A pass that succeeds has met no more degraded registrations than rows it counts. -/
theorem healthy_of_observed (opened : access.history = .ok history) (chained : Chained history rows)
    (observed : observeForVoters access rows voters = .ok progress) :
    (rows.countP fun row => isDegraded history row.2) ≤ rows.countP fun row =>
      counted voters row.2 := by
  obtain ⟨tally, folded, tallied⟩ := Tallied.observeRows chained voters
  simp only [observeForVoters, opened, ok_bind, folded, bind_eq_ok, mapError_eq_ok] at observed
  obtain ⟨_, _, first, created, second, topped, third, degraded, _⟩ := observed
  simp only [withTopAcknowledged, bind_eq_ok] at topped
  simp only [withDegradedFollowers, bind_eq_ok, require_eq_ok] at degraded
  obtain ⟨_, _, topped⟩ := topped
  obtain ⟨_, ⟨few, _⟩, _⟩ := degraded
  cases topped
  rw [← length_countedFences, ← tallied.count, ← tallied.degraded, ← new_followerCount created]
  exact few

theorem acknowledges_eq (commit : CommitSequence) (state : ReplicationSourceHoldStateV1) :
    acknowledges voters commit state =
      (counted voters state && state.isActive && covers commit state) := by
  have live : state.isActive = true → state.isRetired = false := by
    cases state with
    | legacy hold => exact fun _ => rfl
    | registered policy => simp +contextual [isActive, isRetired]
  unfold acknowledges counted
  cases active : state.isActive with
  | false => simp
  | true => simp [live active]

/-- The counted rows at a commit are those that have acknowledged it and those that await their
bootstrap. -/
theorem countP_counted (voters : Option (List ReplicationSourceHoldIdV1)) (rows : HoldRows)
    (commit : CommitSequence) :
      (rows.countP fun row => counted voters row.2 && covers commit row.2) =
      (rows.countP fun row => acknowledges voters commit row.2) +
        rows.countP fun row => awaits voters row.2 && covers commit row.2 := by
  simp only [acknowledges_eq, awaits]
  induction rows with
  | nil => rfl
  | cons row rows ih =>
    rw [countP_cons, countP_cons, countP_cons, ih]
    cases counted voters row.2 <;> cases row.2.isActive <;> simp <;> omega

/-- For every table whose positions lie on one chain: the observation succeeds, and its quorum test
counts the voters that have acknowledged the commit, exactly when no more registrations are degraded
than rows are counted and every voter that awaits its bootstrap stands at no commit, or only at
commits that fill all the slots without it. -/
theorem voter_quorum_exact_iff (access : ReadAccess)
    (voters : Option (List ReplicationSourceHoldIdV1))
    (opened : access.history = .ok history) (chained : Chained history rows) :
    (∃ progress, observeForVoters access rows voters = .ok progress ∧
      ∀ (commit : CommitSequence) (required : ℕ+), required ≤ maxQuorumAckFollowersV1 →
        (progress.hasQuorumAcknowledgedApplicationCommit commit required = true ↔
          required ≤ rows.countP fun row => acknowledges voters commit row.2)) ↔
    (rows.countP fun row => isDegraded history row.2) ≤
      (rows.countP fun row => counted voters row.2) ∧
      ∀ row ∈ rows, awaits voters row.2 = true → ∀ commit, covers commit row.2 = true →
        maxQuorumAckFollowersV1 ≤ rows.countP fun row => acknowledges voters commit row.2 := by
  constructor
  · rintro ⟨progress, observed, exact⟩
    have healthy := healthy_of_observed opened chained observed
    refine ⟨healthy, fun row present waits commit reaches => ?_⟩
    obtain ⟨again, same, counts⟩ := observeForVoters_exact opened chained healthy
    cases observed.symm.trans same
    by_contra few
    -- one more than have acknowledged the commit is a quorum for the code
    have extra : 0 < rows.countP fun row => awaits voters row.2 && covers commit row.2 :=
      countP_pos_iff.mpr ⟨row, present, by simp [waits, reaches]⟩
    have tracked :
      ((Nat.succPNat (rows.countP fun row => acknowledges voters commit row.2) : ℕ+) : Nat) ≤
        maxQuorumAckFollowersV1 := Nat.lt_of_not_le few
    have quorum := (counts commit _ tracked).mpr (by rw [countP_counted, Nat.succPNat_coe]; omega)
    have enough := (exact commit _ tracked).mp quorum
    rw [Nat.succPNat_coe] at enough
    exact Nat.not_succ_le_self _ enough
  · rintro ⟨healthy, idle⟩
    obtain ⟨progress, observed, counts⟩ := observeForVoters_exact opened chained healthy
    refine ⟨progress, observed, fun commit required tracked => ?_⟩
    rw [counts commit required tracked, countP_counted]
    refine ⟨fun enough => ?_, fun enough => enough.trans (Nat.le_add_right _ _)⟩
    rcases Nat.eq_zero_or_pos (rows.countP fun row => awaits voters row.2 &&
      covers commit row.2) with
      none | some
    · rwa [none] at enough
    · obtain ⟨row, present, both⟩ := countP_pos_iff.mp some
      obtain ⟨waits, reaches⟩ := Bool.and_eq_true_iff.mp both
      exact tracked.trans (idle row present waits commit reaches)

theorem Chained.sublist {some : HoldRows} (chained : Chained history rows) (inside : some <+ rows) :
    Chained history some :=
  ⟨inside.length_le.trans chained.bounded, (inside.map _).nodup chained.distinct,
    fun row member => chained.keyed row (inside.subset member),
    fun row member => chained.registered row (inside.subset member),
    fun row member => chained.retained row (inside.subset member),
    fun row member other isOther => chained.chained row (inside.subset member) other
    (inside.subset isOther)⟩

def firstPoint : ChangelogHistoryPointV3 := ⟨.lit 1, .replicate 32 0, ⟨none, none⟩⟩

def middlePoint : ChangelogHistoryPointV3 := ⟨.lit 2, .replicate 32 0, ⟨some (.lit 1), none⟩⟩

def lastPoint : ChangelogHistoryPointV3 := ⟨.lit 3, .replicate 32 0, ⟨some (.lit 1), some (.lit 1)⟩⟩

def shortHistory : ChangelogHistoryStateV3 :=
  ⟨⟨UuidV7.sample, .lit 1, .lit 1, .v1⟩, firstPoint, lastPoint, firstPoint, by decide, by decide⟩

def holdAt (id : ReplicationSourceHoldIdV1) (point : ChangelogHistoryPointV3) :
    ReplicationSourceHoldV1 :=
  ⟨id, .followerAcknowledgement, shortHistory.lineage, point⟩

/-- A registration that stands at the first commit. While it awaits its bootstrap this is where it
was registered; once it is attached it has acknowledged the commit. -/
def enrolled (phase : FollowerRegistrationPhaseV1) (id : ReplicationSourceHoldIdV1) :
    Bytes × ReplicationSourceHoldStateV1 :=
  ((holdAt id middlePoint).storageKey,
    .registered ⟨holdAt id middlePoint, middlePoint, .lit 3, .lit 1,
    none, phase, none, rfl, by cases phase <;> rfl⟩)

theorem chained_enrolled {ids : List ReplicationSourceHoldIdV1} (distinct : ids.Nodup)
    (few : ids.length ≤ maxQuorumAckFollowersV1) (phase : FollowerRegistrationPhaseV1) :
    Chained shortHistory (ids.map (enrolled phase)) := by
  refine ⟨?_, ?_, ?_, ?_, ?_, ?_⟩
  · rw [length_map]
    exact few.trans (by decide)
  · rw [map_map]
    exact distinct.map fun _ _ same => (storageKeyFor_injective same).1
  · exact forall_mem_map.mpr fun id _ => ⟨rfl, rfl⟩
  · refine forall_mem_map.mpr fun id _ policy isPolicy => ?_
    cases isPolicy
    exact ⟨rfl, le_rfl, rfl, by simp⟩
  · exact forall_mem_map.mpr fun id _ _ => ⟨rfl, rfl⟩
  · exact forall_mem_map.mpr fun id _ => forall_mem_map.mpr fun other _ _ _ => Or.inl rfl

/-- An attached registration that acknowledged nothing since the first receipt, with an allowance of
one commit. -/
def late : Bytes × ReplicationSourceHoldStateV1 :=
  ((holdAt (.filledWith 4) firstPoint).storageKey, .registered ⟨holdAt (.filledWith 4) firstPoint,
    firstPoint, .lit 2, .lit 1, none, .attached, none, by decide, by decide⟩)

/-- Two voters have acknowledged the commit, and a follower outside the voters lags. -/
def shortRows : HoldRows :=
  [enrolled .attached (.filledWith 1), enrolled .attached (.filledWith 2), late]

theorem chained_shortRows : Chained shortHistory shortRows := by
  refine ⟨by decide, by decide, by decide, ?_, by unfold Retained; decide, by decide⟩
  intro row member policy isPolicy
  simp only [shortRows, mem_cons, not_mem_nil, or_false] at member
  rcases member with rfl | rfl | rfl <;> cases isPolicy <;> decide

theorem voter_quorum_exact_iff_sample :
    ∃ progress, observeForVoters (.checkpoint shortHistory) shortRows
      (some [.filledWith 1, .filledWith 2]) = .ok progress ∧
    progress.hasQuorumAcknowledgedApplicationCommit (.lit 1) 2 = true := by
  have attached :
      ∀ row ∈ shortRows, awaits (some [.filledWith 1, .filledWith 2]) row.2 = false := by
    decide
  obtain ⟨progress, observed, exact⟩ := (voter_quorum_exact_iff (.checkpoint shortHistory)
    (some [.filledWith 1, .filledWith 2]) rfl chained_shortRows).mpr
    ⟨by decide, fun row member waits => by simp [attached row member] at waits⟩
  exact ⟨progress, observed, (exact (.lit 1) 2 (by decide)).mpr (by decide)⟩

/-- An exhausted registration outside the voters makes the observation for the voters fail. A voter
that was only registered is a quorum of one. -/
theorem voter_quorum_misread :
    (Chained shortHistory [late] ∧
      observeForVoters (.checkpoint shortHistory) [late] (some [.filledWith 1]) =
        .error (.value .invalidEncoding)) ∧
    Chained shortHistory [enrolled .awaitingBootstrap (.filledWith 1)] ∧
      acknowledges (some [.filledWith 1]) (.lit 1)
        (enrolled .awaitingBootstrap (.filledWith 1)).2 = false ∧
      ∃ progress, observeForVoters (.checkpoint shortHistory)
          [enrolled .awaitingBootstrap (.filledWith 1)] (some [.filledWith 1]) = .ok progress ∧
        progress.hasQuorumAcknowledgedApplicationCommit (.lit 1) 1 = true :=
  ⟨⟨chained_shortRows.sublist (by simp [shortRows]), rfl⟩,
    chained_enrolled (nodup_singleton _) (by decide) .awaitingBootstrap, by decide, _, rfl, rfl⟩

end Exact

end SourceProgress
