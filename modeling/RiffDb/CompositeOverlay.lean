import RiffDb.OverlayMap
import RiffDb.ReplicationTypes

/-!
# Checkpoint-plus-overlay views

A published view is a frozen checkpoint and an overlay of what the journal has changed since. An
overlay grows by whole frames, decoded ones or the sealed mutations of a running command group. Each
mutation is checked against the value it expects to replace, and the overlay is charged for its
entries and for its lineage, the keys that each frame has changed.

The ownership ledger is not modelled: a call meets an arbitrary `Ledger`, which says whether
accounting is enabled, what it grants and where it places a new lineage node.
-/

namespace CompositeOverlay

open ByteWire CheckedCode Methods SortedRows ReplicationTypes OverlayMap
  OverlayMap.StorageValueError

def maxCompositeOverlayTransitions : Nat := 65536

def maxCompositeSuffixBytes : Nat := 256 * 1024 * 1024

def maxCompositeOverlayBytes : Nat := 256 * 1024 * 1024

def maxCompositeComponentBytes : Nat := 16 * 1024 * 1024

/-- The closed catalog of tables, in durable tag order. -/
inductive CompositeTableV1 where
  | metadata
  | entities
  | secondaryIndexes
  | indexEpochs
  | idempotency
  | idempotencyPending
  | events
  | eventRoutes
  | outbox
  | provenance
  | commits
  | audit
  | auditByRequest
  | entityChainHeads
  | vectorEvidence
  | vectorObservations
  | vectorEvidenceIndex
  | idempotencyLocators
  | provenanceLocators
  | auditByRequestLocators
  | historyTombstones
  | outboxStatus
deriving DecidableEq, Repr

namespace CompositeTableV1

def all : List CompositeTableV1 :=
  [metadata, entities, secondaryIndexes, indexEpochs, idempotency, idempotencyPending, events,
    eventRoutes, outbox, provenance, commits, audit, auditByRequest, entityChainHeads,
    vectorEvidence, vectorObservations, vectorEvidenceIndex, idempotencyLocators,
    provenanceLocators, auditByRequestLocators, historyTombstones, outboxStatus]

theorem mem_all (table : CompositeTableV1) : table ∈ all := by
  cases table <;> decide

theorem nodup_all : all.Nodup := by decide

end CompositeTableV1

/-- A put requires the value it replaces, or that there is none; a delete requires the value. -/
inductive CompositeMutationV1 where
  | put (table : CompositeTableV1) (key : Bytes) (expectedHash : Option (ByteArrayOf 32))
      (value : Bytes)
  | delete (table : CompositeTableV1) (key : Bytes) (expectedHash : ByteArrayOf 32)
deriving DecidableEq

namespace CompositeMutationV1

def table : CompositeMutationV1 → CompositeTableV1
  | .put table _ _ _ => table
  | .delete table _ _ => table

def key : CompositeMutationV1 → Bytes
  | .put _ key _ _ => key
  | .delete _ key _ => key

def value : CompositeMutationV1 → Option Bytes
  | .put _ _ _ value => some value
  | .delete _ _ _ => none

def expectedHash : CompositeMutationV1 → Option (ByteArrayOf 32)
  | .put _ _ expectedHash _ => expectedHash
  | .delete _ _ expectedHash => some expectedHash

end CompositeMutationV1

/-- The complete rows of a checkpoint, or of any later state. -/
structure TableRows where
  rows : CompositeTableV1 → List (Bytes × Bytes)
  ordered : ∀ table, Ascending compare (rows table)

namespace TableRows

def read (state : TableRows) (table : CompositeTableV1) (key : Bytes) : Option Bytes :=
  (state.rows table).lookup key

/-- Put or remove one row, whatever was there. -/
def execute (state : TableRows) (mutation : CompositeMutationV1) : TableRows where
  rows table :=
    if table = mutation.table then
      match mutation.value with
      | some value => put compare mutation.key value (state.rows table)
      | none => (state.rows table).filter fun row => row.1 ≠ mutation.key
    else state.rows table
  ordered table := by
    split
    · split
      · exact (state.ordered table).put _ _
      · exact (state.ordered table).filter _
    · exact state.ordered table

theorem read_execute (state : TableRows) (mutation : CompositeMutationV1)
    (table : CompositeTableV1) (key : Bytes) : (state.execute mutation).read table key =
      if table = mutation.table ∧ key = mutation.key then mutation.value
        else state.read table key := by
  unfold read execute
  dsimp only
  by_cases sameTable : table = mutation.table
  · rw [if_pos sameTable]
    cases mutation.value with
    | some value =>
      dsimp only
      rw [lookup_put]
      simp only [sameTable, true_and, beq_iff_eq]
    | none =>
      have removed := lookup_filter (fun other => decide (other ≠ mutation.key))
        (state.rows table) key
      dsimp only at removed ⊢
      rw [removed]
      by_cases sameKey : key = mutation.key <;> simp [sameTable, sameKey]
  · rw [if_neg sameTable, if_neg fun both => sameTable both.1]

end TableRows

/-- The last change a list of mutations makes to a row. -/
def written (mutations : List CompositeMutationV1) (table : CompositeTableV1) (key : Bytes) :
    Option (Option Bytes) :=
  mutations.foldl (fun change mutation =>
    if table = mutation.table ∧ key = mutation.key then some mutation.value else change) none

theorem written_append_singleton (mutations : List CompositeMutationV1)
    (mutation : CompositeMutationV1) (table : CompositeTableV1) (key : Bytes) :
    written (mutations ++ [mutation]) table key =
      if table = mutation.table ∧ key = mutation.key then some mutation.value
      else written mutations table key := by
  simp [written]

theorem read_foldl_execute (state : TableRows) (mutations : List CompositeMutationV1)
    (table : CompositeTableV1) (key : Bytes) :
      (mutations.foldl TableRows.execute state).read table key =
      (written mutations table key).getD (state.read table key) := by
  induction mutations using List.reverseRecOn with
  | nil => rfl
  | append_singleton earlier last ih =>
    rw [List.foldl_append, List.foldl_cons, List.foldl_nil, TableRows.read_execute, ih,
      written_append_singleton]
    split <;> rfl

/-- The checkpoint under a view, with the validation of its tables. -/
structure CompositeViewBase where
  state : TableRows
  validateEntry : CompositeTableV1 → Bytes → Option Bytes → Except StorageValueError Unit

def CompositeViewBase.readBase (base : CompositeViewBase) (table : CompositeTableV1) (key : Bytes) :
    Option Bytes := base.state.read table key

structure CompositeCheckpointV1 where
  databaseId : DatabaseId
  historyIncarnation : NonZeroU64
  registryDigest : ByteArrayOf 32
  applicationFrontier : Option CommitSequence
  administrationFrontier : Option AdministrationSequence
  terminalFrameHash : ByteArrayOf 32
deriving DecidableEq

section Arithmetic

/-- Sizes are words of 64 bits. -/
def checkedAdd (left right : Nat) : Option Nat :=
  if left + right < 2 ^ 64 then some (left + right) else none

def checkedSub (left right : Nat) : Option Nat :=
  if right ≤ left then some (left - right) else none

@[simp] theorem checkedAdd_eq_some {left right sum : Nat} :
    checkedAdd left right = some sum ↔ left + right < 2 ^ 64 ∧ left + right = sum := by
  simp [checkedAdd]

@[simp] theorem checkedSub_eq_some {left right difference : Nat} :
    checkedSub left right = some difference ↔ right ≤ left ∧ left - right = difference := by
  simp [checkedSub]

def sequenceDelta : Option NonZeroU64 → Option NonZeroU64 → Except StorageValueError Nat
  | none, none => .ok 0
  | none, some covered => .ok covered.get
  | some predecessor, some covered => okOr (checkedSub covered.get predecessor.get) invalidShape
  | some _, none => .error invalidShape

end Arithmetic

inductive CompositeFrameKindV1 where
  | command
  | serviceAudit
  | retentionPrune
  | sourceReclamation
deriving DecidableEq, Repr

structure CompositeFrameV1 where
  kind : CompositeFrameKindV1
  databaseId : DatabaseId
  predecessorApplication : Option CommitSequence
  coveredApplication : Option CommitSequence
  predecessorAdministration : Option AdministrationSequence
  coveredAdministration : Option AdministrationSequence
  transitionCount : Nat
  encodedBytes : Nat
  previousHash : ByteArrayOf 32
  frameHash : ByteArrayOf 32
  mutations : List CompositeMutationV1
deriving DecidableEq

/-- The frontiers advance by the counted transitions, as far as the kind advances them. -/
def CompositeFrameKindV1.countsMatch (kind : CompositeFrameKindV1)
    (appDelta adminDelta transitions : Nat) : Bool :=
  match kind with
  | .command => appDelta = transitions && (adminDelta = 0 || transitions ≤ adminDelta)
  | .serviceAudit => appDelta = 0 && adminDelta = transitions
  | .retentionPrune | .sourceReclamation => appDelta = 0 && adminDelta = 0 && transitions = 1

def CompositeFrameV1.new (frame : CompositeFrameV1) :
    Except StorageValueError CompositeFrameV1 := do
  require (frame.transitionCount ≠ 0 ∧ frame.encodedBytes ≠ 0 ∧
    frame.encodedBytes ≤ maxCompositeComponentBytes ∧ frame.mutations ≠ []) invalidShape
  let appDelta ← sequenceDelta frame.predecessorApplication frame.coveredApplication
  let adminDelta ← sequenceDelta frame.predecessorAdministration frame.coveredAdministration
  require (frame.kind.countsMatch appDelta adminDelta frame.transitionCount = true) invalidShape
  .ok frame

/-- The memory an entry and a lineage key are charged beyond their bytes, and the stack an
insertion needs; all three are sizes of records on the platform. -/
structure OverlayLayout where
  entryOverhead : Nat
  nodePlanBytes : Nat
  lineageKeyOverhead : Nat

/-- `none` is a tombstone. -/
abbrev OverlayValue := Option Bytes

abbrev OverlayTables := CompositeTableV1 → PersistentOverlayMap Bytes OverlayValue

/-- The keys one frame has changed. `allocation` is the identity of the node. -/
structure OverlayLineageNode where
  allocation : Nat
  keys : List (CompositeTableV1 × Bytes)
deriving DecidableEq

/-- The newest node first. A reference to a node is the list that starts with it. -/
abbrev OverlayLineage := List OverlayLineageNode

structure Ledger where
  enabled : Bool
  member : Nat → Bool
  insertion : CompositeTableV1 → Bytes → Allocation
  lineage : Option Nat

/-- The parameters of every call: record sizes and the digest of values. -/
structure Setting where
  layout : OverlayLayout
  digest : Bytes → ByteArrayOf 32

variable (setting : Setting) (ledger : Ledger)

def validateOverlayFamily : Except StorageValueError Unit :=
  require (ledger.enabled = true) limitExceeded

def validateComponent (bytes : Bytes) : Except StorageValueError Unit := do
  require (bytes ≠ []) empty
  require (bytes.length ≤ maxCompositeComponentBytes) limitExceeded

section Charges

variable (layout : OverlayLayout)

def rawEntryCharge (key : Bytes) (value : Option Bytes) : Except StorageValueError Nat :=
  okOr ((checkedAdd key.length (value.elim 1 List.length)).bind
    fun size => checkedAdd size layout.entryOverhead) sizeOverflow

/-- A stored entry is charged as the mutation that wrote it was. -/
def entryCharge (key : Bytes) (value : OverlayValue) : Except StorageValueError Nat :=
  rawEntryCharge layout key value

def lineageKeyCharge (key : Bytes) : Except StorageValueError Nat :=
  okOr (checkedAdd key.length layout.lineageKeyOverhead) sizeOverflow

end Charges

section Calls

variable (setting : Setting) (ledger : Ledger)

def validateBeforeImage (current : Option Bytes) (expectedHash : Option (ByteArrayOf 32)) :
    Except StorageValueError Unit :=
  match current, expectedHash with
  | none, none => .ok ()
  | some value, some expected => require (setting.digest value = expected) identityMismatch
  | _, _ => .error identityMismatch

def overlayLineageSuccessor (predecessor : OverlayLineage) (predecessorBytes : Nat)
    (mutations : List CompositeMutationV1) : Except StorageValueError (OverlayLineage × Nat) :=
  if mutations = [] then .ok (predecessor, predecessorBytes)
  else do
    let addedBytes ← mutations.foldlM (fun added mutation => do
      let charge ← lineageKeyCharge setting.layout mutation.key
      okOr (checkedAdd added charge) sizeOverflow) 0
    let lineageBytes ← okOr (checkedAdd predecessorBytes addedBytes) limitExceeded
    require (lineageBytes + setting.layout.nodePlanBytes ≤ maxCompositeOverlayBytes) limitExceeded
    let allocation ← okOr ledger.lineage limitExceeded
    .ok (⟨allocation, mutations.map fun mutation => (mutation.table, mutation.key)⟩ :: predecessor,
      lineageBytes)

/-- What a point resolves to: the newest overlay entry, or the checkpoint. -/
def resolve (tables : OverlayTables) (state : TableRows) (table : CompositeTableV1) (key : Bytes) :
    Option Bytes :=
  ((tables table).get key).getD (state.read table key)

def resolveOverlayPoint (tables : OverlayTables) (base : CompositeViewBase)
    (table : CompositeTableV1) (key : Bytes) : Except StorageValueError (Option Bytes) :=
  match (tables table).get key with
  | none => .ok (base.readBase table key)
  | some none => .ok none
  | some (some value) => .ok (some value)

/-- The entries of one frame before they are inserted. -/
structure PendingTables where
  entries : CompositeTableV1 → List (Bytes × OverlayValue)
  candidateCharge : Nat

/-- The charge of an entry that is replaced is given back first. -/
def giveBack (charge : Nat) (key : Bytes) : Option OverlayValue → Except StorageValueError Nat
  | none => .ok charge
  | some prior => do
    let priorCharge ← entryCharge setting.layout key prior
    okOr (checkedSub charge priorCharge) sizeOverflow

def recharge (charge : Nat) (key : Bytes) (prior : Option OverlayValue) (value : Option Bytes) :
    Except StorageValueError Nat := do
  let kept ← giveBack setting charge key prior
  let added ← rawEntryCharge setting.layout key value
  okOr (checkedAdd kept added) sizeOverflow

def applyPending (tables : OverlayTables) (base : CompositeViewBase) (maximumTableCharge : Nat)
    (pending : PendingTables) (indexed : CompositeMutationV1 × Nat) :
    Except StorageValueError PendingTables := do
  let (mutation, index) := indexed
  base.validateEntry mutation.table mutation.key mutation.value
  let prior := ((pending.entries mutation.table).lookup mutation.key).or
    ((tables mutation.table).get mutation.key)
  let current := prior.getD (base.readBase mutation.table mutation.key)
  validateBeforeImage setting current mutation.expectedHash
  let charge ← recharge setting pending.candidateCharge mutation.key prior mutation.value
  require (charge ≤ maximumTableCharge) limitExceeded
  require (ledger.member index = true) limitExceeded
  .ok ⟨Function.update pending.entries mutation.table
    (put compare mutation.key mutation.value (pending.entries mutation.table)), charge⟩

def insertPending (tables : OverlayTables)
    (pending : CompositeTableV1 → List (Bytes × OverlayValue)) (table : CompositeTableV1) :
    Except StorageValueError OverlayTables := do
  let target ← (pending table).foldlM (fun target entry =>
    Method.run (PersistentOverlayMap.insert (ledger.insertion table entry.1) entry.1 entry.2)
      target) (tables table)
  .ok (Function.update tables table target)

/-- Every mutation is checked against the ones before it; only then the tables change. -/
def applyMutationsAtomically (tables : OverlayTables) (chargedBytes : Nat)
    (mutations : List CompositeMutationV1) (base : CompositeViewBase) (maximumTableCharge : Nat) :
    Except StorageValueError (OverlayTables × Nat) := do
  validateOverlayFamily ledger
  let pending ← mutations.zipIdx.foldlM (applyPending setting ledger tables base maximumTableCharge)
    ⟨fun _ => [], chargedBytes⟩
  let tables ← CompositeTableV1.all.foldlM
    (fun tables table => insertPending ledger tables pending.entries table) tables
  .ok (tables, pending.candidateCharge)

end Calls

/-- An immutable published view over one checkpoint. -/
structure FrozenCompositeOverlay where
  checkpoint : CompositeCheckpointV1
  publishedApplication : Option CommitSequence
  publishedAdministration : Option AdministrationSequence
  terminalFrameHash : ByteArrayOf 32
  transitionCount : Nat
  encodedFrameBytes : Nat
  chargedBytes : Nat
  tables : OverlayTables
  lineage : OverlayLineage
  lineageBytes : Nat

def FrozenCompositeOverlay.resolvePoint (view : FrozenCompositeOverlay) (ledger : Ledger)
    (base : CompositeViewBase) (table : CompositeTableV1) (key : Bytes) :
    Except StorageValueError (Option Bytes) := do
  validateOverlayFamily ledger
  resolveOverlayPoint view.tables base table key

structure CompositeOverlayBuilder where
  checkpoint : CompositeCheckpointV1
  currentApplication : Option CommitSequence
  currentAdministration : Option AdministrationSequence
  currentHash : ByteArrayOf 32
  transitionCount : Nat
  encodedFrameBytes : Nat
  chargedBytes : Nat
  tables : OverlayTables
  lineage : OverlayLineage
  lineageBytes : Nat

namespace CompositeOverlayBuilder

def new (checkpoint : CompositeCheckpointV1) : CompositeOverlayBuilder where
  checkpoint := checkpoint
  currentApplication := checkpoint.applicationFrontier
  currentAdministration := checkpoint.administrationFrontier
  currentHash := checkpoint.terminalFrameHash
  transitionCount := 0
  encodedFrameBytes := 0
  chargedBytes := 0
  tables := fun _ => .empty
  lineage := []
  lineageBytes := 0

def fromPublished (published : FrozenCompositeOverlay) : CompositeOverlayBuilder where
  checkpoint := published.checkpoint
  currentApplication := published.publishedApplication
  currentAdministration := published.publishedAdministration
  currentHash := published.terminalFrameHash
  transitionCount := published.transitionCount
  encodedFrameBytes := published.encodedFrameBytes
  chargedBytes := published.chargedBytes
  tables := published.tables
  lineage := published.lineage
  lineageBytes := published.lineageBytes

def freeze (builder : CompositeOverlayBuilder) : FrozenCompositeOverlay where
  checkpoint := builder.checkpoint
  publishedApplication := builder.currentApplication
  publishedAdministration := builder.currentAdministration
  terminalFrameHash := builder.currentHash
  transitionCount := builder.transitionCount
  encodedFrameBytes := builder.encodedFrameBytes
  chargedBytes := builder.chargedBytes
  tables := builder.tables
  lineage := builder.lineage
  lineageBytes := builder.lineageBytes

def validateFrameIdentity (builder : CompositeOverlayBuilder) (frame : CompositeFrameV1) :
    Except StorageValueError Unit :=
  require (frame.databaseId = builder.checkpoint.databaseId ∧
    frame.predecessorApplication = builder.currentApplication ∧
    frame.predecessorAdministration = builder.currentAdministration ∧
    frame.previousHash = builder.currentHash ∧
    builder.transitionCount + frame.transitionCount ≤ maxCompositeOverlayTransitions ∧
    builder.encodedFrameBytes + frame.encodedBytes ≤ maxCompositeSuffixBytes) identityMismatch

/-- The first entry must fit before the ownership family is allocated. -/
def validateFirstEntry (mutations : List CompositeMutationV1) : Except StorageValueError Unit :=
  match mutations with
  | [] => .ok ()
  | mutation :: _ => do
    let minimum ← rawEntryCharge setting.layout mutation.key mutation.value
    require (minimum + setting.layout.nodePlanBytes ≤ maxCompositeOverlayBytes) limitExceeded

def applyFrame (frame : CompositeFrameV1) (base : CompositeViewBase) :
    Method CompositeOverlayBuilder StorageValueError Unit := do
  let builder ← Method.current
  Method.check (builder.validateFrameIdentity frame)
  Method.check (validateOverlayFamily ledger)
  Method.check (validateFirstEntry setting frame.mutations)
  let (lineage, lineageBytes) ← Method.check (overlayLineageSuccessor setting ledger
    builder.lineage builder.lineageBytes frame.mutations)
  let maximumTableCharge ← Method.check
    (okOr ((checkedSub maxCompositeOverlayBytes lineageBytes).bind
    fun rest => checkedSub rest setting.layout.nodePlanBytes) limitExceeded)
  let (tables, chargedBytes) ← Method.check (applyMutationsAtomically setting ledger builder.tables
    builder.chargedBytes frame.mutations base maximumTableCharge)
  Method.update fun builder => { builder with chargedBytes := chargedBytes }
  let transitionCount ← Method.check
    (okOr (checkedAdd builder.transitionCount frame.transitionCount) sizeOverflow)
  Method.update fun builder => { builder with transitionCount := transitionCount }
  let encodedFrameBytes ← Method.check
    (okOr (checkedAdd builder.encodedFrameBytes frame.encodedBytes) sizeOverflow)
  Method.update fun builder => { builder with
    encodedFrameBytes := encodedFrameBytes
    currentApplication := frame.coveredApplication
    currentAdministration := frame.coveredAdministration
    currentHash := frame.frameHash
    tables := tables
    lineage := lineage
    lineageBytes := lineageBytes }

end CompositeOverlayBuilder

/-- The private read-your-writes state of one command group. -/
structure CompositeMutationStage where
  checkpoint : CompositeCheckpointV1
  predecessorApplication : Option CommitSequence
  predecessorAdministration : Option AdministrationSequence
  predecessorHash : ByteArrayOf 32
  predecessorTransitionCount : Nat
  predecessorEncodedFrameBytes : Nat
  tables : OverlayTables
  chargedBytes : Nat
  mutations : List CompositeMutationV1
  predecessorLineage : OverlayLineage
  predecessorLineageBytes : Nat
  stagedLineageBytes : Nat

namespace CompositeMutationStage

def new (predecessor : FrozenCompositeOverlay) : CompositeMutationStage where
  checkpoint := predecessor.checkpoint
  predecessorApplication := predecessor.publishedApplication
  predecessorAdministration := predecessor.publishedAdministration
  predecessorHash := predecessor.terminalFrameHash
  predecessorTransitionCount := predecessor.transitionCount
  predecessorEncodedFrameBytes := predecessor.encodedFrameBytes
  tables := predecessor.tables
  chargedBytes := predecessor.chargedBytes
  mutations := []
  predecessorLineage := predecessor.lineage
  predecessorLineageBytes := predecessor.lineageBytes
  stagedLineageBytes := 0

def insertInto (table : CompositeTableV1) (key : Bytes) (value : OverlayValue) :
    Method CompositeMutationStage StorageValueError Unit :=
  Method.onPart (fun stage => stage.tables table)
    (fun target stage => { stage with tables := Function.update stage.tables table target })
    (PersistentOverlayMap.insert (ledger.insertion table key) key value)

/-- The table charge, the lineage of the predecessor and of the staged keys must fit together. -/
def validateCharge (stage : CompositeMutationStage) (charge stagedLineage : Nat) :
    Except StorageValueError Unit :=
  require (charge + stage.predecessorLineageBytes + stagedLineage + setting.layout.nodePlanBytes ≤
    maxCompositeOverlayBytes) limitExceeded

def applyAfterCurrentValidation (mutation : CompositeMutationV1) (observed : Option Bytes) :
    Method CompositeMutationStage StorageValueError Unit := do
  let stage ← Method.current
  Method.check (validateOverlayFamily ledger)
  Method.check (validateBeforeImage setting observed mutation.expectedHash)
  let lineageCharge ← Method.check (lineageKeyCharge setting.layout mutation.key)
  let stagedLineageBytes ← Method.check
    (okOr (checkedAdd stage.stagedLineageBytes lineageCharge) sizeOverflow)
  let charge ← Method.check (recharge setting stage.chargedBytes mutation.key
    ((stage.tables mutation.table).get mutation.key) mutation.value)
  Method.check (stage.validateCharge setting charge stagedLineageBytes)
  Method.check (require (ledger.member 0 = true) limitExceeded)
  insertInto ledger mutation.table mutation.key mutation.value
  Method.update fun stage => { stage with
    chargedBytes := charge
    stagedLineageBytes := stagedLineageBytes
    mutations := stage.mutations ++ [mutation] }

def apply (mutation : CompositeMutationV1) (base : CompositeViewBase) :
    Method CompositeMutationStage StorageValueError Unit := do
  let stage ← Method.current
  Method.check (validateOverlayFamily ledger)
  Method.check (base.validateEntry mutation.table mutation.key mutation.value)
  let observed := resolve stage.tables base.state mutation.table mutation.key
  applyAfterCurrentValidation setting ledger mutation observed

/-- The caller has read the current bytes itself. -/
def applyWithObservedCurrent (mutation : CompositeMutationV1) (observed : Option Bytes)
    (base : CompositeViewBase) : Method CompositeMutationStage StorageValueError Unit := do
  Method.check (validateOverlayFamily ledger)
  Method.check (base.validateEntry mutation.table mutation.key mutation.value)
  applyAfterCurrentValidation setting ledger mutation observed

/-- The caller has read the current bytes and constructed valid ones. -/
def applyWithProvenCurrent (mutation : CompositeMutationV1) (proven : Option Bytes) :
    Method CompositeMutationStage StorageValueError Unit :=
  applyAfterCurrentValidation setting ledger mutation proven

/-- Another representation of a value this stage has inserted; the staged mutation keeps the
value itself. -/
def representStaged (index : Nat) (representation : Bytes) :
    Method CompositeMutationStage StorageValueError Bool := do
  let stage ← Method.current
  let mutation ← Method.check (okOr (stage.mutations[index]?) identityMismatch)
  match mutation.value, mutation.expectedHash with
  | some value, none => do
    Method.check (validateOverlayFamily ledger)
    if (stage.tables mutation.table).get mutation.key = some (some value) then do
      let charge ← Method.check (recharge setting stage.chargedBytes mutation.key
        (some (some value)) (some representation))
      Method.check (stage.validateCharge setting charge stage.stagedLineageBytes)
      Method.check (require (ledger.member 0 = true) limitExceeded)
      insertInto ledger mutation.table mutation.key (some representation)
      Method.update fun stage => { stage with chargedBytes := charge }
      pure true
    else pure false
  | _, _ => pure false

def resolvePoint (stage : CompositeMutationStage) (ledger : Ledger) (base : CompositeViewBase)
    (table : CompositeTableV1) (key : Bytes) : Except StorageValueError (Option Bytes) := do
  validateOverlayFamily ledger
  resolveOverlayPoint stage.tables base table key

/-- What sealing checks once the frame is known to continue the predecessor. -/
def sealChecked (stage : CompositeMutationStage) (frame : CompositeFrameV1) :
    Except StorageValueError FrozenCompositeOverlay := do
  let transitionCount ← okOr (checkedAdd stage.predecessorTransitionCount frame.transitionCount)
    limitExceeded
  require (transitionCount ≤ maxCompositeOverlayTransitions) limitExceeded
  let encodedFrameBytes ← okOr (checkedAdd stage.predecessorEncodedFrameBytes frame.encodedBytes)
    limitExceeded
  require (encodedFrameBytes ≤ maxCompositeSuffixBytes) limitExceeded
  let (lineage, lineageBytes) ← overlayLineageSuccessor setting ledger stage.predecessorLineage
    stage.predecessorLineageBytes frame.mutations
  require (lineageBytes + stage.chargedBytes ≤ maxCompositeOverlayBytes) limitExceeded
  .ok
    { checkpoint := stage.checkpoint
      publishedApplication := frame.coveredApplication
      publishedAdministration := frame.coveredAdministration
      terminalFrameHash := frame.frameHash
      transitionCount := transitionCount
      encodedFrameBytes := encodedFrameBytes
      chargedBytes := stage.chargedBytes
      tables := stage.tables
      lineage := lineage
      lineageBytes := lineageBytes }

def sealFrame (stage : CompositeMutationStage) (frame : CompositeFrameV1) :
    Except StorageValueError FrozenCompositeOverlay := do
  validateOverlayFamily ledger
  require (frame.databaseId = stage.checkpoint.databaseId ∧
    frame.predecessorApplication = stage.predecessorApplication ∧
    frame.predecessorAdministration = stage.predecessorAdministration ∧
    frame.previousHash = stage.predecessorHash ∧ frame.mutations = stage.mutations)
    identityMismatch
  stage.sealChecked setting ledger frame

/-- The frame is put together here, from its identity and the staged mutations. -/
def sealEncodedFrameWithMutations (stage : CompositeMutationStage) (identity : CompositeFrameV1) :
    Except StorageValueError (FrozenCompositeOverlay × List CompositeMutationV1) := do
  validateOverlayFamily ledger
  require (identity.databaseId = stage.checkpoint.databaseId ∧
    identity.predecessorApplication = stage.predecessorApplication ∧
    identity.predecessorAdministration = stage.predecessorAdministration ∧
    identity.previousHash = stage.predecessorHash) identityMismatch
  let frame ← CompositeFrameV1.new { identity with mutations := stage.mutations }
  let view ← stage.sealChecked setting ledger frame
  .ok (view, frame.mutations)

end CompositeMutationStage

end CompositeOverlay
