import RiffDb.FrameStream

/-!
# Applying frames on a follower

A follower holds the rows of the replicated domains beside its own roots: the history roots, the
attachment row and the clean-close row. A frame is staged privately, receipt by receipt, with every
pre-image and frontier checked, and becomes visible in one commit. What storage and outside
validations answer during one call is an `Answers` value.
-/

namespace FollowerApply

open ByteWire CheckedCode ReplicationTypes ChangelogHistory AuthorityCatalog ChangelogReceipt
  ReceiptCodec ChangelogFrame ChangelogChain FrameStream

inductive FixedPhysicalKey where
  | bytes (key : Bytes)
  | str (key : String)
deriving DecidableEq

/-- The place of a row: its table and its key there. -/
structure Place where
  table : String
  key : FixedPhysicalKey
deriving DecidableEq

/-- The physical rows of a database. -/
abbrev Rows := Place → Option Bytes

/-- The table of single rows. -/
def metaTable : String := "meta"

def metaApplicationSequence : String := "next_application_sequence"

def metaAdministrationSequence : String := "next_administration_sequence"

structure FixedPhysicalPoint where
  table : String
  key : FixedPhysicalKey
  value : Option Bytes

/-- Where the row of a domain is kept: under its own name in `meta`, or in the domain's table. -/
def placeOf (domain : AuthoritativeNamespaceV3) (key : Bytes) : Place :=
  match domain.metadataKey with
  | some name => ⟨metaTable, .str name⟩
  | none => ⟨domain.table, .bytes key⟩

def physicalMutationView (mutation : AuthoritativeMutationV3) :
    Except StorageErrorKind FixedPhysicalPoint := do
  require (mutation.domain.isRetiredLocatorTable = false) .corruptData
  let place := placeOf mutation.domain mutation.key
  .ok ⟨place.table, place.key, mutation.value⟩

def applyMutation (rows : Rows) (mutation : AuthoritativeMutationV3) :
    Except StorageErrorKind Rows := do
  let physical ← physicalMutationView mutation
  .ok (Function.update rows ⟨physical.table, physical.key⟩ physical.value)

theorem applyMutation_eq_ok {rows next : Rows} {mutation : AuthoritativeMutationV3} :
    applyMutation rows mutation = .ok next ↔ mutation.domain.isRetiredLocatorTable = false ∧
        next = Function.update rows (placeOf mutation.domain mutation.key) mutation.value := by
  simp only [applyMutation, physicalMutationView, bind_eq_ok, require_eq_ok, exists_and_left,
    exists_const, Except.ok.injEq, exists_eq_left', and_assoc, @eq_comm _ next]

/-- How a changelog failure is reported by the storage. -/
def valueError : ChangelogV3Error → StorageErrorKind
  | .limitExceeded => .limitExceeded
  | .sequenceExhausted => .sequenceExhausted
  | _ => .corruptData

/-- A stored sequence allocator. -/
inductive SequenceAllocator where
  | next (sequence : NonZeroU64)
  | exhausted
deriving DecidableEq

/-- The last allocated sequence; none before the first one. -/
def SequenceAllocator.frontier : SequenceAllocator → Option NonZeroU64
  | .next sequence => NonZeroU64.new (sequence.get - 1)
  | .exhausted => NonZeroU64.new (2 ^ 64 - 1)

/-- The record codec of the two allocator rows. -/
structure AllocatorCodec where
  decodeApplication : Bytes → Except StorageErrorKind SequenceAllocator
  decodeAdministration : Bytes → Except StorageErrorKind SequenceAllocator

def decodePhysicalFrontier (codec : AllocatorCodec) (application administration : Bytes) :
    Except StorageErrorKind DualFrontier := do
  let applied ← codec.decodeApplication application
  let administered ← codec.decodeAdministration administration
  .ok ⟨applied.frontier, administered.frontier⟩

/-- How the single commit of a call ended. A failed commit may still have reached the disk. -/
inductive CommitOutcome where
  | committed
  | failed (kind : StorageErrorKind) (landed : Bool)

/-- What the engine and the validations outside the applier answer during one call. -/
structure Answers where
  /-- The mutation gate, the write transaction and the validation of the stored roots. -/
  begins : Option StorageErrorKind
  inventory : Except StorageErrorKind (List String)
  /-- Taking the transient indexes. -/
  indexes : Option StorageErrorKind
  /-- The received-prefix and export-ledger validations of one receipt. -/
  received : AuthoritativeTransactionV3 → Option StorageErrorKind
  /-- The segment a stored history stub stands for; other values are their own. -/
  resolveCommitsValue : Bytes → Except StorageErrorKind Bytes
  /-- Carrying one receipt into the indexes, and row access. -/
  indexed : AuthoritativeTransactionV3 → Option StorageErrorKind
  /-- Staging the roots, reading them back and the locator successor. -/
  roots : Option StorageErrorKind
  abort : Option StorageErrorKind
  commit : CommitOutcome
  /-- Publishing the indexes after the commit. -/
  publish : Option StorageErrorKind

/-- What the follower's database keeps. The attachment row is absent, detached or attached. -/
@[ext] structure Durable where
  rows : Rows
  history : Option ChangelogHistoryStateV3
  follower : Option ReplicationFollowerStateV3
  cleanClose : Bool

/-- The applier: its database, the shared write fence and its own chain of frame checksums. -/
structure RedbFollowerApplier where
  durable : Durable
  writeFenced : Bool
  priorFrameHash : ByteArrayOf 32
  lastFrameHash : Option (ByteArrayOf 32)
  promisedEpoch : Nat
  failed : Bool

section Receipts

variable (env : Hashing) (codec : AllocatorCodec) (answers : Answers)

/-- The stored value a mutation finds; a history stub counts as the segment it stands for. -/
def storedPrior (rows : Rows) (mutation : AuthoritativeMutationV3) :
    Except StorageErrorKind (Option Bytes) :=
  match rows (placeOf mutation.domain mutation.key) with
  | some stored =>
    if mutation.domain = .ofV1 .commits then (answers.resolveCommitsValue stored).map some
    else .ok (some stored)
  | none => .ok none

def checkPredecessor (rows : Rows) (mutation : AuthoritativeMutationV3) :
    Except StorageErrorKind Unit := do
  require (mutation.domain.isRetiredLocatorTable = false) .corruptData
  let before ← storedPrior answers rows mutation
  require (∀ bytes ∈ before, bytes.length ≤ maxChangelogFrameBytes) .limitExceeded
  require (mutation.matchesPrior env before = true) .corruptData

/-- The frontier the allocator rows stand at. -/
def physicalFrontier (rows : Rows) : Except StorageErrorKind DualFrontier := do
  let application ← okOr (rows ⟨metaTable, .str metaApplicationSequence⟩) .corruptData
  let administration ← okOr (rows ⟨metaTable, .str metaAdministrationSequence⟩) .corruptData
  decodePhysicalFrontier codec application administration

/-- Stage one receipt over the roots and rows staged so far. -/
def applyReceipt (tables : List String) (staged : ChangelogHistoryStateV3 × Rows)
    (receipt : AuthoritativeTransactionV3) :
    Except StorageErrorKind (ChangelogHistoryStateV3 × Rows) := do
  let successor ← (advance staged.1 receipt).mapError valueError
  refuse (answers.received receipt)
  receipt.mutations.forM fun mutation => do
    require (mutation.domain.table ∈ tables) .corruptData
    checkPredecessor env answers staged.2 mutation
  let rows ← receipt.mutations.foldlM applyMutation staged.2
  refuse (answers.indexed receipt)
  -- a later receipt cannot hide a false intermediate frontier
  let frontier ← physicalFrontier codec rows
  require (frontier = successor.tail.frontier) .corruptData
  .ok (successor, rows)

theorem applyReceipt_eq_ok {tables : List String} {staged next : ChangelogHistoryStateV3 × Rows}
    {receipt : AuthoritativeTransactionV3} :
      applyReceipt env codec answers tables staged receipt = .ok next ↔
      advance staged.1 receipt = .ok next.1 ∧ answers.received receipt = none ∧
      (∀ mutation ∈ receipt.mutations, mutation.domain.table ∈ tables ∧
        checkPredecessor env answers staged.2 mutation = .ok ()) ∧
      receipt.mutations.foldlM applyMutation staged.2 = .ok next.2 ∧
        answers.indexed receipt = none ∧
      physicalFrontier codec next.2 = .ok next.1.tail.frontier := by
  obtain ⟨successor, rows⟩ := next
  simp only [applyReceipt, bind_eq_ok, mapError_eq_ok, refuse_eq_ok, forM_eq_ok, require_eq_ok,
    exists_and_left, exists_const, Except.ok.injEq, Prod.mk.injEq]
  constructor
  · rintro ⟨_, advanced, received, checked, _, folded, indexed, _, frontier, rfl, rfl, rfl⟩
    exact ⟨advanced, received, checked, folded, indexed, frontier⟩
  · rintro ⟨advanced, received, checked, folded, indexed, frontier⟩
    exact ⟨_, advanced, received, checked, _, folded, indexed, _, frontier, rfl, rfl, rfl⟩

end Receipts

namespace RedbFollowerApplier

section Frames

variable (env : Hashing) (codec : AllocatorCodec) (answers : Answers)

/-- The binding is that of the lineage. -/
def OfLineage (binding : ChangelogFrameBindingV3) (lineage : ChangelogLineageV3) : Prop :=
  binding.databaseId = lineage.databaseId ∧
    binding.historyIncarnation = lineage.historyIncarnation ∧
    binding.leadershipEpoch = lineage.leadershipEpoch ∧ binding.catalog = lineage.catalog

instance (binding : ChangelogFrameBindingV3) (lineage : ChangelogLineageV3) :
    Decidable (OfLineage binding lineage) := inferInstanceAs (Decidable (_ ∧ _ ∧ _ ∧ _))

/-- The roots and the attachment, if the database is an attached follower's at rest. -/
def attachedRoots (durable : Durable) :
    Except StorageErrorKind (ChangelogHistoryStateV3 × FollowerAttachment) := do
  let history ← okOr durable.history .corruptData
  let row ← okOr durable.follower .corruptData
  let attachment ← okOr row .corruptData
  require (history.lineage = attachment.lineage ∧ history.tail = attachment.applied ∧
    durable.cleanClose = false) .corruptData
  .ok (history, attachment)

variable {history : ChangelogHistoryStateV3} {attachment : FollowerAttachment}

theorem attachedRoots_eq_ok {durable : Durable} :
    attachedRoots durable = .ok (history, attachment) ↔
      durable.history = some history ∧ durable.follower = some (some attachment) ∧
        history.lineage = attachment.lineage ∧ history.tail = attachment.applied ∧
        durable.cleanClose = false := by
  simp only [attachedRoots, bind_eq_ok, okOr_eq_ok, require_eq_ok, exists_and_left, exists_const,
    Except.ok.injEq, Prod.mk.injEq]
  constructor
  · rintro ⟨_, stored, _, row, _, rfl, agrees, rfl, rfl⟩
    exact ⟨stored, row, agrees⟩
  · rintro ⟨stored, row, agrees⟩
    exact ⟨_, stored, _, row, _, rfl, agrees, rfl, rfl⟩

/-- What a frame leads to before the commit. An exact repetition stages nothing. -/
structure Staged where
  checksum : ByteArrayOf 32
  covered : ChangelogHistoryPointV3
  successor : Option Durable

/-- A repetition is recognised by its checksum, or after a reconnect by being seeded at the
history hash before its first receipt. -/
def Repeats (applier : RedbFollowerApplier) (frame : ChangelogFrameV3) (checksum : ByteArrayOf 32) :
    Prop :=
  match applier.lastFrameHash with
  | none => frame.binding.priorFrameHash = frame.first.binding.priorHistoryHash
  | some previous => previous = checksum

instance (applier : RedbFollowerApplier) (frame : ChangelogFrameV3) (checksum : ByteArrayOf 32) :
    Decidable (applier.Repeats frame checksum) := by
  unfold Repeats
  cases applier.lastFrameHash <;> infer_instance

/-- The successor of the database under all receipts of the frame. -/
def stageReceipts (applier : RedbFollowerApplier) (frame : ChangelogFrameV3)
    (history : ChangelogHistoryStateV3) (attachment : FollowerAttachment) :
    Except StorageErrorKind Durable := do
  require (frame.binding.priorFrameHash = applier.priorFrameHash) .corruptData
  let tables ← answers.inventory
  refuse answers.indexes
  let (successor, rows) ←
    frame.receipts.foldlM (applyReceipt env codec answers tables) (history, applier.durable.rows)
  let row ← (ReplicationFollowerStateV3.attached attachment.lineage (fromReceipt frame.last)
    attachment.acknowledged).mapError valueError
  refuse answers.roots
  .ok { applier.durable with rows := rows, history := some successor, follower := some row }

variable {applier : RedbFollowerApplier} {frame : ChangelogFrameV3}

theorem stageReceipts_eq_ok {next : Durable} :
    stageReceipts env codec answers applier frame history attachment = .ok next ↔
      frame.binding.priorFrameHash = applier.priorFrameHash ∧ ∃ tables,
        answers.inventory = .ok tables ∧ answers.indexes = none ∧ ∃ successor rows,
        frame.receipts.foldlM (applyReceipt env codec answers tables)
          (history, applier.durable.rows) = .ok (successor, rows) ∧ ∃ row,
        ReplicationFollowerStateV3.attached attachment.lineage (fromReceipt frame.last)
          attachment.acknowledged = .ok row ∧ answers.roots = none ∧
        { applier.durable with
          rows := rows, history := some successor, follower := some row } = next := by
  simp only [stageReceipts, bind_eq_ok, require_eq_ok, refuse_eq_ok, mapError_eq_ok,
    exists_and_left, exists_const, Except.ok.injEq, Prod.exists]

/-- Everything `apply_inner` does before the commit. -/
def stageFrame (applier : RedbFollowerApplier) (bytes : Bytes) :
    Except StorageErrorKind Staged := do
  let frame ← (ChangelogFrameV3.decode env bytes).mapError valueError
  let checksum ← okOr (arrayOf 32 (bytes.drop (bytes.length - 32))) .corruptData
  refuse answers.begins
  let (history, attachment) ← attachedRoots applier.durable
  require (OfLineage frame.binding attachment.lineage ∧
    applier.promisedEpoch ≤ frame.binding.leadershipEpoch.get) .corruptData
  let covered := fromReceipt frame.last
  if covered = attachment.applied then do
    require (applier.Repeats frame checksum) .corruptData
    refuse answers.abort
    .ok ⟨checksum, covered, none⟩
  else do
    let successor ← stageReceipts env codec answers applier frame history attachment
    .ok ⟨checksum, covered, some successor⟩

variable {bytes : Bytes}

/-- A staged frame either repeats the applied point or carries all its receipts. -/
theorem stageFrame_cases {staged : Staged}
    (done : stageFrame env codec answers applier bytes = .ok staged) :
    ∃ frame history attachment, ChangelogFrameV3.decode env bytes = .ok frame ∧
      arrayOf 32 (bytes.drop (bytes.length - 32)) = some staged.checksum ∧
      attachedRoots applier.durable = .ok (history, attachment) ∧
        OfLineage frame.binding attachment.lineage ∧
      applier.promisedEpoch ≤ frame.binding.leadershipEpoch.get ∧
        staged.covered = fromReceipt frame.last ∧
      (staged.covered = attachment.applied ∧ staged.successor = none ∨
        staged.covered ≠ attachment.applied ∧ ∃ next, staged.successor = some next ∧
          stageReceipts env codec answers applier frame history attachment = .ok next) := by
  simp only [stageFrame, bind_eq_ok, mapError_eq_ok, okOr_eq_ok, refuse_eq_ok, require_eq_ok,
    exists_and_left, exists_const, Prod.exists] at done
  obtain ⟨frame, decoded, checksum, trailing, _, history, attachment, roots, bound, done⟩ := done
  by_cases same : fromReceipt frame.last = attachment.applied
  · simp only [if_pos same, bind_eq_ok, require_eq_ok, refuse_eq_ok, exists_and_left, exists_const,
      Except.ok.injEq] at done
    obtain ⟨_, _, rfl⟩ := done
    exact ⟨frame, history, attachment, decoded, trailing, roots, bound.1, bound.2, rfl,
      Or.inl ⟨same, rfl⟩⟩
  · simp only [if_neg same, bind_eq_ok, Except.ok.injEq] at done
    obtain ⟨next, received, rfl⟩ := done
    exact ⟨frame, history, attachment, decoded, trailing, roots, bound.1, bound.2, rfl,
      Or.inr ⟨same, next, rfl, received⟩⟩

/-- The applier after a frame was taken over. -/
def accept (applier : RedbFollowerApplier) (checksum : ByteArrayOf 32) : RedbFollowerApplier :=
  { applier with priorFrameHash := checksum, lastFrameHash := some checksum }

/-- The single commit of a staged frame and what follows it. -/
def commitStaged (applier : RedbFollowerApplier) (staged : Staged) :
    Except StorageErrorKind ChangelogHistoryPointV3 × RedbFollowerApplier :=
  match staged.successor with
  | none => (.ok staged.covered, applier.accept staged.checksum)
  | some successor =>
    let written := { applier with durable := successor }
    match answers.commit with
    | .failed kind landed => (.error kind, if landed then written else applier)
    | .committed =>
      match answers.publish with
      | some kind => (.error kind, written)
      | none => (.ok staged.covered, written.accept staged.checksum)

def applyInner (applier : RedbFollowerApplier) (bytes : Bytes) :
    Except StorageErrorKind ChangelogHistoryPointV3 × RedbFollowerApplier :=
  match stageFrame env codec answers applier bytes with
  | .error kind => (.error kind, applier)
  | .ok staged => commitStaged answers applier staged

/-- Neither a failed call nor the shared fence stands in the way. -/
def isLive (applier : RedbFollowerApplier) : Bool := !applier.failed && !applier.writeFenced

/-- Run a fallible call on a live handle. The handle counts as failed until the call succeeds. -/
def guarded (applier : RedbFollowerApplier)
    (inner : RedbFollowerApplier → Except StorageErrorKind ChangelogHistoryPointV3 ×
      RedbFollowerApplier) :
    Except StorageErrorKind ChangelogHistoryPointV3 × RedbFollowerApplier :=
  if applier.isLive then
    match inner { applier with failed := true } with
    | (.ok point, after) => (.ok point, { after with failed := false })
    | (.error kind, after) => (.error kind, after)
  else (.error .unavailable, applier)

def applyFrame (applier : RedbFollowerApplier) (bytes : Bytes) :
    Except StorageErrorKind ChangelogHistoryPointV3 × RedbFollowerApplier :=
  applier.guarded fun entered => entered.applyInner env codec answers bytes

variable {applier after : RedbFollowerApplier} {point : ChangelogHistoryPointV3}

theorem applyInner_ok (done : applier.applyInner env codec answers bytes = (.ok point, after)) :
    ∃ staged, stageFrame env codec answers applier bytes = .ok staged ∧ point = staged.covered ∧
      after = { applier with
        durable := staged.successor.getD applier.durable
        priorFrameHash := staged.checksum
        lastFrameHash := some staged.checksum } := by
  unfold applyInner at done
  split at done
  · cases done
  · next staged found =>
    refine ⟨staged, found, ?_⟩
    unfold commitStaged at done
    split at done
    · next nothing =>
      cases done
      exact ⟨rfl, by rw [nothing]; rfl⟩
    · next successor carried =>
      split at done
      · cases done
      · split at done
        · cases done
        · cases done
          exact ⟨rfl, by rw [carried]; rfl⟩

/-- A fault the engine reports after the frame has reached the disk. -/
def Faults (answers : Answers) : Prop :=
  (∃ kind, answers.commit = .failed kind true) ∨ answers.commit = .committed ∧
    answers.publish ≠ none

/-- The frame passed every check and is on disk, but the call reports a fault of the engine. -/
def Landed (applier : RedbFollowerApplier) (bytes : Bytes) (next : Durable) : Prop :=
  Faults answers ∧ ∃ staged, stageFrame env codec answers applier bytes = .ok staged ∧
    staged.successor = some next

theorem applyInner_error {kind : StorageErrorKind}
    (done : applier.applyInner env codec answers bytes = (.error kind, after)) :
    after = applier ∨ ∃ next, Landed env codec answers applier bytes next ∧
      after = { applier with durable := next } := by
  unfold applyInner at done
  split at done
  · cases done
    exact Or.inl rfl
  · next staged found =>
    unfold commitStaged at done
    split at done
    · cases done
    · next successor carried =>
      split at done
      · next reason landed outcome =>
        cases landed with
        | false =>
          cases done
          exact Or.inl rfl
        | true =>
          cases done
          exact Or.inr ⟨successor, ⟨Or.inl ⟨_, outcome⟩, staged, found, carried⟩, rfl⟩
      · next outcome =>
        split at done
        · next reason reported =>
          cases done
          exact Or.inr ⟨successor, ⟨Or.inr ⟨outcome, by simp [reported]⟩, staged, found,
            carried⟩, rfl⟩
        · cases done

section Guarded

variable {applier after : RedbFollowerApplier}
  {inner : RedbFollowerApplier → Except StorageErrorKind ChangelogHistoryPointV3 ×
    RedbFollowerApplier}

theorem guarded_dead (dead : applier.isLive = false) :
    applier.guarded inner = (.error .unavailable, applier) := by
  simp [guarded, dead]

theorem guarded_ok (done : applier.guarded inner = (.ok point, after)) :
    applier.isLive = true ∧ ∃ final, inner { applier with failed := true } = (.ok point, final) ∧
      after = { final with failed := false } := by
  unfold guarded at done
  split at done
  · next live =>
    refine ⟨live, ?_⟩
    split at done
    · next _ final called =>
      cases done
      exact ⟨final, called, rfl⟩
    · cases done
  · cases done

theorem guarded_error {kind : StorageErrorKind}
    (done : applier.guarded inner = (.error kind, after)) :
    after = applier ∧ applier.isLive = false ∨
      inner { applier with failed := true } = (.error kind, after) := by
  unfold guarded at done
  split at done
  · split at done
    · cases done
    · next called =>
      cases done
      exact Or.inr called
  · next dead =>
    cases done
    exact Or.inl ⟨rfl, by simpa using dead⟩

/-- What holds of the database before a call and after its inner part holds after the call. -/
theorem guarded_durable {P : Durable → Prop} (before : P applier.durable)
    (called : P (inner { applier with failed := true }).2.durable) :
    P (applier.guarded inner).2.durable := by
  unfold guarded
  split
  · rcases outcome : inner { applier with failed := true } with ⟨answer, final⟩
    rw [outcome] at called
    cases answer <;> exact called
  · exact before

end Guarded

/-- The frame taken over last, applied again, answers its point and leaves the handle as it is. -/
theorem applyFrame_repeats {checksum : ByteArrayOf 32}
    (live : applier.isLive = true) (prior : applier.priorFrameHash = checksum)
    (last : applier.lastFrameHash = some checksum)
    (decoded : ChangelogFrameV3.decode env bytes = .ok frame)
    (trailing : arrayOf 32 (bytes.drop (bytes.length - 32)) = some checksum)
    (begins : answers.begins = none)
    (roots : attachedRoots applier.durable = .ok (history, attachment))
    (bound : OfLineage frame.binding attachment.lineage ∧
      applier.promisedEpoch ≤ frame.binding.leadershipEpoch.get)
    (covered : fromReceipt frame.last = attachment.applied) (aborts : answers.abort = none) :
    applier.applyFrame env codec answers bytes = (.ok (fromReceipt frame.last), applier) := by
  obtain ⟨durable, fenced, priorHash, lastHash, promised, failed⟩ := applier
  obtain rfl : checksum = priorHash := prior.symm
  obtain rfl : some checksum = lastHash := last.symm
  cases failed with
  | true => simp [isLive] at live
  | false =>
    have repeats :
      Repeats ⟨durable, fenced, checksum, some checksum, promised, true⟩ frame checksum := rfl
    have staged : stageFrame env codec answers
        ⟨durable, fenced, checksum, some checksum, promised, true⟩ bytes =
        .ok ⟨checksum, fromReceipt frame.last, none⟩ := by
      simp only [stageFrame, decoded, Except.mapError, ok_bind, trailing, okOr_some,
        begins, refuse_none, roots, require_pos bound, if_pos covered, require_pos repeats, aborts]
    simp only [applyFrame, guarded, if_pos live, applyInner, staged, commitStaged, accept]

end Frames

/-- The roots of an attached follower must agree with its attachment; a detached one has no say. -/
def preserveAttachedLifecycle (durable : Durable) (history : ChangelogHistoryStateV3) :
    Except StorageErrorKind Unit :=
  match durable.follower with
  | some (some attachment) =>
    require (attachment.lineage = history.lineage ∧ attachment.applied = history.tail ∧
      durable.cleanClose = false) .corruptData
  | _ => .ok ()

def durableHistory (refusal : Option StorageErrorKind) (applier : RedbFollowerApplier) :
    Except StorageErrorKind ChangelogHistoryStateV3 := do
  require (applier.isLive = true) .unavailable
  refuse refusal
  let history ← okOr applier.durable.history .corruptData
  preserveAttachedLifecycle applier.durable history
  .ok history

/-- Start a new frame chain at the durable position. -/
def resumeStream (refusal : Option StorageErrorKind) (applier : RedbFollowerApplier) :
    Except StorageErrorKind ChangelogHistoryPointV3 × RedbFollowerApplier :=
  match applier.durableHistory refusal with
  | .error kind => (.error kind, applier)
  | .ok history =>
    (.ok history.tail,
      { applier with priorFrameHash := history.tail.historyHash, lastFrameHash := none })

/-- The attachment row an acknowledgement writes, none when it is already recorded. -/
def stageAcknowledgement (answers : Answers) (applier : RedbFollowerApplier) :
    Except StorageErrorKind (ChangelogHistoryPointV3 × Option ReplicationFollowerStateV3) := do
  refuse answers.begins
  let (_, attachment) ← attachedRoots applier.durable
  if attachment.acknowledged = some attachment.applied then do
    refuse answers.abort
    .ok (attachment.applied, none)
  else do
    let row ← (ReplicationFollowerStateV3.attached attachment.lineage attachment.applied
      (some attachment.applied)).mapError valueError
    refuse answers.roots
    .ok (attachment.applied, some row)

def acknowledgeInner (answers : Answers) (applier : RedbFollowerApplier) :
    Except StorageErrorKind ChangelogHistoryPointV3 × RedbFollowerApplier :=
  match stageAcknowledgement answers applier with
  | .error kind => (.error kind, applier)
  | .ok (applied, none) => (.ok applied, applier)
  | .ok (applied, some row) =>
    let written := { applier with durable := { applier.durable with follower := some row } }
    match answers.commit with
    | .failed kind landed => (.error kind, if landed then written else applier)
    | .committed => (.ok applied, written)

/-- Record the durable position before it may be offered as an acknowledgement. -/
def acknowledgeDurablePosition (answers : Answers) (applier : RedbFollowerApplier) :
    Except StorageErrorKind ChangelogHistoryPointV3 × RedbFollowerApplier :=
  applier.guarded fun entered => entered.acknowledgeInner answers

/-- Raise the promised epoch; a lower one changes nothing. -/
def recordPromisedLeadershipEpoch (epoch : LeadershipEpochV1) (applier : RedbFollowerApplier) :
    RedbFollowerApplier := { applier with promisedEpoch := max applier.promisedEpoch epoch.get }

end RedbFollowerApplier

end FollowerApply
