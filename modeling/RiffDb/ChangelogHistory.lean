import RiffDb.ReplicationTypes

/-!
# Changelog lineages, history points and retained roots

The bounded values a replica keeps about its place in a history: the lineage, the point of the last
receipt, and the roots of the retained range with the order their constructor checked. They do not
certify that the receipts behind a point exist.
-/

namespace ChangelogHistory

open ByteWire ReplicationTypes

abbrev ChangelogTransactionSequence := NonZeroU64

inductive ChangelogV3Error where
  | invalidEncoding
  | invalidNamespace
  | limitExceeded
  | sequenceExhausted
  | predecessorMismatch
deriving DecidableEq, Repr

/-- The three supported authoritative state catalogs. -/
inductive AuthoritativeStateCatalog where
  | v1
  | v2
  | v3
deriving DecidableEq, Repr

/-- Exact lineage fence and checked catalog binding. -/
@[ext] structure ChangelogLineageV3 where
  databaseId : DatabaseId
  historyIncarnation : NonZeroU64
  leadershipEpoch : LeadershipEpochV1
  catalog : AuthoritativeStateCatalog
deriving DecidableEq

/-- A receipt position with its exact checksum and dual frontier, not a bare counter. -/
@[ext] structure ChangelogHistoryPointV3 where
  sequence : ChangelogTransactionSequence
  historyHash : ByteArrayOf 32
  frontier : DualFrontier
deriving DecidableEq

namespace ChangelogHistoryPointV3

/-- Monotone shape at different sequences, exact identity at equal ones. -/
def precedesOrEquals (point other : ChangelogHistoryPointV3) : Bool :=
  if point.sequence = other.sequence then point = other
  else point.sequence.get < other.sequence.get &&
    (point.frontier = other.frontier || other.frontier.advancesFrom point.frontier)

theorem precedesOrEquals_refl (point : ChangelogHistoryPointV3) :
    point.precedesOrEquals point = true := by
  simp [precedesOrEquals]

theorem precedesOrEquals_trans {point middle other : ChangelogHistoryPointV3}
    (first : point.precedesOrEquals middle = true) (second : middle.precedesOrEquals other = true) :
    point.precedesOrEquals other = true := by
  unfold precedesOrEquals at first second ⊢
  by_cases start : point.sequence = middle.sequence
  · obtain rfl : point = middle := by simpa [start] using first
    exact second
  by_cases finish : middle.sequence = other.sequence
  · obtain rfl : middle = other := by simpa [finish] using second
    exact first
  simp only [if_neg start, if_neg finish, Bool.and_eq_true, decide_eq_true_eq, Bool.or_eq_true]
    at first second
  have ordered : point.sequence ≠ other.sequence := by
    intro same
    rw [same] at first
    omega
  simp only [if_neg ordered, Bool.and_eq_true, decide_eq_true_eq, Bool.or_eq_true]
  refine ⟨first.1.trans second.1, ?_⟩
  rcases first.2 with same | rises
  · rw [same]
    exact second.2
  · rcases second.2 with same | rising
    · exact Or.inr (same ▸ rises)
    · right
      rw [DualFrontier.advancesFrom_iff] at rises rising ⊢
      omega

variable {point other : ChangelogHistoryPointV3}

theorem precedesOrEquals_sequence
    (ordered : point.precedesOrEquals other = true) : point.sequence.get ≤ other.sequence.get := by
  by_cases same : point.sequence = other.sequence
  · rw [same]
  · simp only [precedesOrEquals, same, if_false, Bool.and_eq_true, decide_eq_true_eq] at ordered
    exact ordered.1.le

theorem precedesOrEquals_application (ordered : point.precedesOrEquals other = true) :
    sequenceValue point.frontier.application ≤ sequenceValue other.frontier.application := by
  by_cases same : point.sequence = other.sequence
  · simp only [precedesOrEquals, same, if_true, decide_eq_true_eq] at ordered
    rw [ordered]
  · simp only [precedesOrEquals, same, if_false, Bool.and_eq_true, Bool.or_eq_true,
      decide_eq_true_eq] at ordered
    rcases ordered.2 with equal | advances
    · rw [equal]
    · exact (DualFrontier.advancesFrom_iff.mp advances).1

end ChangelogHistoryPointV3

/-- Materialized history roots at one checkpoint, in the order they were checked. -/
@[ext] structure ChangelogHistoryStateV3 where
  lineage : ChangelogLineageV3
  anchor : ChangelogHistoryPointV3
  tail : ChangelogHistoryPointV3
  minimumResume : ChangelogHistoryPointV3
  anchored : anchor.precedesOrEquals minimumResume = true
  resumable : minimumResume.precedesOrEquals tail = true
deriving DecidableEq

variable {lineage : ChangelogLineageV3}

namespace ChangelogHistoryStateV3

def new (lineage : ChangelogLineageV3) (anchor tail minimumResume : ChangelogHistoryPointV3) :
    Except ChangelogV3Error ChangelogHistoryStateV3 :=
  if ordered : anchor.precedesOrEquals minimumResume = true ∧
      minimumResume.precedesOrEquals tail = true then
    .ok ⟨lineage, anchor, tail, minimumResume, ordered.1, ordered.2⟩
  else .error .predecessorMismatch

theorem new_eq_ok {anchor tail minimumResume : ChangelogHistoryPointV3}
    {state : ChangelogHistoryStateV3} :
    new lineage anchor tail minimumResume = .ok state ↔
      lineage = state.lineage ∧ anchor = state.anchor ∧ tail = state.tail ∧
        minimumResume = state.minimumResume := by
  by_cases ordered : anchor.precedesOrEquals minimumResume = true ∧
      minimumResume.precedesOrEquals tail = true
  · rw [new, dif_pos ordered, Except.ok.injEq]
    constructor
    · rintro rfl; exact ⟨rfl, rfl, rfl, rfl⟩
    · rintro ⟨rfl, rfl, rfl, rfl⟩; rfl
  · rw [new, dif_neg ordered]
    constructor
    · intro impossible; cases impossible
    · rintro ⟨-, rfl, rfl, rfl⟩
      exact False.elim (ordered ⟨state.anchored, state.resumable⟩)

end ChangelogHistoryStateV3

/-- Follower-local attachment and durable progress. The acknowledgement never outruns the
applied prefix. -/
@[ext] structure FollowerAttachment where
  lineage : ChangelogLineageV3
  applied : ChangelogHistoryPointV3
  acknowledged : Option ChangelogHistoryPointV3
  bounded : ∀ ack, acknowledged = some ack → ack.precedesOrEquals applied = true

/-- `none` is the explicit detached state. -/
abbrev ReplicationFollowerStateV3 := Option FollowerAttachment

namespace ReplicationFollowerStateV3

def attached (lineage : ChangelogLineageV3) (applied : ChangelogHistoryPointV3)
    (acknowledged : Option ChangelogHistoryPointV3) :
    Except ChangelogV3Error ReplicationFollowerStateV3 :=
  match acknowledged with
  | none => .ok (some ⟨lineage, applied, none, by simp⟩)
  | some ack =>
    if ordered : ack.precedesOrEquals applied = true then
      .ok (some ⟨lineage, applied, some ack, by simpa using ordered⟩)
    else .error .predecessorMismatch

variable {acknowledged : Option ChangelogHistoryPointV3} {applied : ChangelogHistoryPointV3}

theorem attached_ok (bounded :
    ∀ ack, acknowledged = some ack → ack.precedesOrEquals applied = true) :
    ∃ row, attached lineage applied acknowledged = .ok row := by
  cases acknowledged with
  | none => exact ⟨_, rfl⟩
  | some ack => exact ⟨_, dif_pos (bounded ack rfl)⟩

theorem attached_of_ok {row : ReplicationFollowerStateV3}
    (written : attached lineage applied acknowledged = .ok row) :
    ∃ attachment, row = some attachment ∧ attachment.lineage = lineage ∧
      attachment.applied = applied ∧ attachment.acknowledged = acknowledged := by
  unfold attached at written
  split at written
  · cases written
    exact ⟨_, rfl, rfl, rfl, rfl⟩
  · split at written
    · cases written
      exact ⟨_, rfl, rfl, rfl, rfl⟩
    · cases written

end ReplicationFollowerStateV3

end ChangelogHistory
