import RiffDb.AuthorityCatalog

/-!
# Authoritative mutations and transaction receipts

A mutation is one checked net transition of one key; a receipt is the strictly ordered net
transition set of one physical transaction with its place in the history. Both carry what their
checked constructors establish. Attributions and frontiers are proved against durable rows
elsewhere.
-/

namespace ChangelogReceipt

open ByteWire CheckedCode ReplicationTypes ChangelogHistory AuthorityCatalog

def maxChangelogFrameBytes : Nat := 32 * 1024 * 1024

def maxChangelogFrameEntries : Nat := 262144

def maxStagedCommands : Nat := 256

def originalSourceCount : Nat := 33

def footerBytes : Nat := 48

/-- Frame bytes beside the receipts, for a header with the given number of source counters. -/
def fixedBytes (sourceCount : Nat) : Nat := 166 + 4 * sourceCount + footerBytes

/-- The original receipt ceiling, kept for compatibility. -/
def maxReceiptBytes : Nat := maxChangelogFrameBytes - fixedBytes originalSourceCount - 4

/-- The hash function, and the digests of the three closed inventories. -/
structure Hashing where
  sha256 : Bytes → ByteArrayOf 32
  catalogDigest : AuthoritativeStateCatalog → ByteArrayOf 32
  distinct : Function.Injective catalogDigest

/-- The UTF-8 bytes of a metadata key. -/
def keyBytes (key : String) : Bytes := key.toUTF8.toList

namespace AuthoritativeMutationV3

def validate (domain : AuthoritativeNamespaceV3) (key : Bytes) (valueLen : Nat) :
    Except ChangelogV3Error Unit := do
  require (domain.authority = .replicatedAuthoritative ∧
    ∀ expected ∈ domain.metadataKey, keyBytes expected = key) .invalidNamespace
  require (key ≠ []) .invalidEncoding
  require (44 + key.length + valueLen ≤ maxChangelogFrameBytes) .limitExceeded

end AuthoritativeMutationV3

/-- One checked net key transition. A delete always names the value it removes. -/
@[ext] structure AuthoritativeMutationV3 where
  domain : AuthoritativeNamespaceV3
  key : Bytes
  expectedHash : Option (ByteArrayOf 32)
  value : Option Bytes
  valid : AuthoritativeMutationV3.validate domain key (value.elim 0 List.length) = .ok ()
  deletes : value = none → expectedHash ≠ none
deriving DecidableEq

namespace AuthoritativeMutationV3

/-- An exact insert (absent prior) or replacement (hashed prior). -/
def put (domain : AuthoritativeNamespaceV3) (key : Bytes) (expectedHash : Option (ByteArrayOf 32))
    (value : Bytes) : Except ChangelogV3Error AuthoritativeMutationV3 :=
  match valid : validate domain key value.length with
  | .ok () => .ok ⟨domain, key, expectedHash, some value, valid, by simp⟩
  | .error reason => .error reason

def delete (domain : AuthoritativeNamespaceV3) (key : Bytes) (expectedHash : ByteArrayOf 32) :
    Except ChangelogV3Error AuthoritativeMutationV3 :=
  match valid : validate domain key 0 with
  | .ok () => .ok ⟨domain, key, some expectedHash, none, valid, by simp⟩
  | .error reason => .error reason

/-- Absence of the prior value is an exact expectation, not a wildcard. -/
def matchesPrior (env : Hashing) (mutation : AuthoritativeMutationV3)
    (prior : Option Bytes) : Bool :=
  mutation.expectedHash = prior.map env.sha256

def encodedLen (mutation : AuthoritativeMutationV3) : Nat :=
  44 + mutation.key.length + mutation.value.elim 0 List.length

/-- The order of namespace and key in which a receipt lists its mutations. -/
def Precedes (left right : AuthoritativeMutationV3) : Prop :=
  left.domain.tag < right.domain.tag ∨ left.domain.tag = right.domain.tag ∧ left.key < right.key

instance : DecidableRel Precedes := fun _ _ => inferInstanceAs (Decidable (_ ∨ _))

theorem validate_eq_ok {domain : AuthoritativeNamespaceV3} {key : Bytes} {valueLen : Nat} :
    validate domain key valueLen = .ok () ↔ (domain.authority = .replicatedAuthoritative ∧
        ∀ expected ∈ domain.metadataKey, keyBytes expected = key) ∧
      key ≠ [] ∧ 44 + key.length + valueLen ≤ maxChangelogFrameBytes := by
  simp only [validate, bind_eq_ok, require_eq_ok, exists_and_left, exists_const]

section

variable (mutation : AuthoritativeMutationV3)

include mutation

theorem encodedLen_le :
    mutation.encodedLen ≤ maxChangelogFrameBytes := (validate_eq_ok.mp mutation.valid).2.2

theorem key_pos : 0 < mutation.key.length :=
  List.length_pos_iff.mpr (validate_eq_ok.mp mutation.valid).2.1

end

variable {mutation : AuthoritativeMutationV3} {domain : AuthoritativeNamespaceV3} {key : Bytes}

theorem put_eq_ok {expectedHash : Option (ByteArrayOf 32)} {value : Bytes} :
    put domain key expectedHash value = .ok mutation ↔ mutation.domain = domain ∧
      mutation.key = key ∧ mutation.expectedHash = expectedHash ∧ mutation.value = some value := by
  unfold put
  constructor
  · intro formed
    split at formed
    · cases formed
      exact ⟨rfl, rfl, rfl, rfl⟩
    · cases formed
  · rintro ⟨rfl, rfl, rfl, holds⟩
    obtain ⟨domain, key, expectedHash, stored, valid, deletes⟩ := mutation
    cases holds
    split
    · rfl
    · next refused => cases valid.symm.trans refused

theorem delete_eq_ok {hash : ByteArrayOf 32} :
    delete domain key hash = .ok mutation ↔ mutation.domain = domain ∧
      mutation.key = key ∧ mutation.expectedHash = some hash ∧ mutation.value = none := by
  unfold delete
  constructor
  · intro formed
    split at formed
    · cases formed
      exact ⟨rfl, rfl, rfl, rfl⟩
    · cases formed
  · rintro ⟨rfl, rfl, expected, absent⟩
    obtain ⟨domain, key, expectedHash, stored, valid, deletes⟩ := mutation
    cases absent
    cases expected
    split
    · rfl
    · next refused => cases valid.symm.trans refused

end AuthoritativeMutationV3

/-- Inputs checked when a transaction is sealed. -/
@[ext] structure AuthoritativeTransactionBindingV3 where
  databaseId : DatabaseId
  historyIncarnation : UInt64
  predecessor : Option ChangelogTransactionSequence
  sequence : ChangelogTransactionSequence
  predecessorFrontier : DualFrontier
  coveredFrontier : DualFrontier
  priorHistoryHash : ByteArrayOf 32
deriving DecidableEq

variable (binding : AuthoritativeTransactionBindingV3)

namespace AuthoritativeTransactionBindingV3

/-- Application positions allocated by the transaction. -/
def applicationSpan : Nat :=
  sequenceValue binding.coveredFrontier.application -
    sequenceValue binding.predecessorFrontier.application

def administrationSpan : Nat :=
  sequenceValue binding.coveredFrontier.administration -
    sequenceValue binding.predecessorFrontier.administration

end AuthoritativeTransactionBindingV3

/-- Closed source attribution. -/
inductive ChangelogAttributionV3 where
  | journaledApplicationGroup
  | journaledServiceAudit
  | directApplicationOrServiceAuditGroup
  | catalogAdministration
  | queryModuleAdministration
  | reactiveModuleAdministration
  | applicationInstallationCampaign
  | applicationExportOperation
  | eventConsumerTransition
  | capabilityAdministration
  | capabilityBootstrap
  | outboxTransition
  | columnarProjectionControl
  | vectorProjectionControl
  | contractMigrationBatch
  | contractMigrationCutover
  | indexMigrationBatch
  | storageFormatMigration
  | retentionHold
  | retentionPrune
  | validatedPrefixCheckpoint
  | cleanClose
  | dirtyActivation
  | v3Activation
  | v3Rotation
  | historyReclamation
  | replicationSourceHold
  | followerApply
  | promotion
  | restoreAnchor
  | projectionControl
  | commandAdmission
  | commandExecutionFailure
  | primaryFence
  | projectionSourceMaintenance
deriving DecidableEq, Repr

namespace ChangelogAttributionV3

def tag : ChangelogAttributionV3 → Nat
  | .journaledApplicationGroup => 1
  | .journaledServiceAudit => 2
  | .directApplicationOrServiceAuditGroup => 3
  | .catalogAdministration => 4
  | .queryModuleAdministration => 5
  | .reactiveModuleAdministration => 6
  | .applicationInstallationCampaign => 7
  | .applicationExportOperation => 8
  | .eventConsumerTransition => 9
  | .capabilityAdministration => 10
  | .capabilityBootstrap => 11
  | .outboxTransition => 12
  | .columnarProjectionControl => 13
  | .vectorProjectionControl => 14
  | .contractMigrationBatch => 15
  | .contractMigrationCutover => 16
  | .indexMigrationBatch => 17
  | .storageFormatMigration => 18
  | .retentionHold => 19
  | .retentionPrune => 20
  | .validatedPrefixCheckpoint => 21
  | .cleanClose => 22
  | .dirtyActivation => 23
  | .v3Activation => 24
  | .v3Rotation => 25
  | .historyReclamation => 26
  | .replicationSourceHold => 27
  | .followerApply => 28
  | .promotion => 29
  | .restoreAnchor => 30
  | .projectionControl => 31
  | .commandAdmission => 32
  | .commandExecutionFailure => 33
  | .primaryFence => 34
  | .projectionSourceMaintenance => 35

/-- All source tags in canonical tag order. -/
def all : List ChangelogAttributionV3 :=
  [.journaledApplicationGroup, .journaledServiceAudit, .directApplicationOrServiceAuditGroup,
   .catalogAdministration, .queryModuleAdministration, .reactiveModuleAdministration,
   .applicationInstallationCampaign, .applicationExportOperation, .eventConsumerTransition,
   .capabilityAdministration, .capabilityBootstrap, .outboxTransition,
   .columnarProjectionControl, .vectorProjectionControl, .contractMigrationBatch,
   .contractMigrationCutover, .indexMigrationBatch, .storageFormatMigration, .retentionHold,
   .retentionPrune, .validatedPrefixCheckpoint, .cleanClose, .dirtyActivation, .v3Activation,
   .v3Rotation, .historyReclamation, .replicationSourceHold, .followerApply, .promotion,
   .restoreAnchor, .projectionControl, .commandAdmission, .commandExecutionFailure,
   .primaryFence, .projectionSourceMaintenance]

def fromTag (tag : Nat) : Option ChangelogAttributionV3 := all.find? fun source => source.tag = tag

/-- What each source may allocate, and whether it may be empty. -/
def admits (attribution : ChangelogAttributionV3) (binding : AuthoritativeTransactionBindingV3)
    (empty : Bool) : Bool :=
  let app := binding.applicationSpan
  let admin := binding.administrationSpan
  match attribution with
  | .journaledApplicationGroup => 0 < app && app ≤ maxStagedCommands && !empty
  | .journaledServiceAudit => app = 0 && 0 < admin && admin ≤ maxStagedCommands && !empty
  | .directApplicationOrServiceAuditGroup => (0 < app || 0 < admin) && !empty
  | .commandAdmission => app = 0 && admin = 0 && !empty
  | .commandExecutionFailure => app = 0 && admin ≤ maxStagedCommands && !empty
  | .projectionSourceMaintenance =>
    app = 0 && admin ≤ 1 && !empty && binding.predecessor.isSome
  | .primaryFence =>
    app = 0 && admin = 1 && !empty && binding.predecessorFrontier.administration.isSome &&
      binding.predecessor.isSome
  | .cleanClose | .dirtyActivation | .v3Rotation | .historyReclamation | .replicationSourceHold =>
    app = 0 && admin = 0 && empty
  | _ => true

def validate (attribution : ChangelogAttributionV3) (binding : AuthoritativeTransactionBindingV3)
    (empty : Bool) : Except ChangelogV3Error Unit := do
  require (binding.coveredFrontier = binding.predecessorFrontier ∨
    binding.coveredFrontier.advancesFrom binding.predecessorFrontier = true) .predecessorMismatch
  require (attribution.admits binding empty = true) .invalidEncoding

section

variable (attribution : ChangelogAttributionV3)

@[simp] theorem fromTag_tag :
    fromTag attribution.tag = some attribution := by cases attribution <;> rfl

theorem tag_pos : 0 < attribution.tag := by
  cases attribution <;> decide

theorem tag_le : attribution.tag ≤ 35 := by
  cases attribution <;> decide

end

end ChangelogAttributionV3

namespace AuthoritativeTransactionV3

/-- Logical transitions charged to the frame ceiling. -/
def bindingTransitionCount (attribution : ChangelogAttributionV3) : Nat :=
  match attribution with
  | .journaledApplicationGroup => binding.applicationSpan
  | .journaledServiceAudit => binding.administrationSpan
  | .directApplicationOrServiceAuditGroup =>
    if 0 < binding.applicationSpan then binding.applicationSpan else binding.administrationSpan
  | _ => 1

def validateShape (attribution : ChangelogAttributionV3) (count : Nat) (bytes : Option Nat) :
    Except ChangelogV3Error Unit := do
  require (binding.historyIncarnation ≠ 0) .invalidEncoding
  require (binding.predecessor.elim (NonZeroU64.new 1) NonZeroU64.checkedNext =
    some binding.sequence) .predecessorMismatch
  attribution.validate binding (count = 0)
  require (count ≤ maxChangelogFrameEntries ∧ (∀ total ∈ bytes, total ≤ maxReceiptBytes) ∧
    bindingTransitionCount binding attribution ≤ maxStagedCommands) .limitExceeded

/-- Header and checksum take 160 bytes; every mutation adds its own. -/
def receiptLen (mutations : List AuthoritativeMutationV3) : Nat :=
  160 + (mutations.map AuthoritativeMutationV3.encodedLen).sum

end AuthoritativeTransactionV3

/-- One immutable canonical net transition set with complete source attribution. -/
@[ext] structure AuthoritativeTransactionV3 where
  binding : AuthoritativeTransactionBindingV3
  attribution : ChangelogAttributionV3
  mutations : List AuthoritativeMutationV3
  historyHash : ByteArrayOf 32
  shaped :
    AuthoritativeTransactionV3.validateShape binding attribution mutations.length none = .ok ()
  ordered : mutations.IsChain AuthoritativeMutationV3.Precedes
  bounded : AuthoritativeTransactionV3.receiptLen mutations ≤ maxReceiptBytes
deriving DecidableEq

namespace AuthoritativeTransactionV3

def encodedLen (receipt : AuthoritativeTransactionV3) : Nat := receiptLen receipt.mutations

def transitionCount (receipt : AuthoritativeTransactionV3) : Nat :=
  bindingTransitionCount receipt.binding receipt.attribution

theorem validateShape_eq_ok {binding : AuthoritativeTransactionBindingV3}
    {attribution : ChangelogAttributionV3} {count : Nat} {bytes : Option Nat} :
    validateShape binding attribution count bytes = .ok () ↔ binding.historyIncarnation ≠ 0 ∧
      binding.predecessor.elim (NonZeroU64.new 1) NonZeroU64.checkedNext = some binding.sequence ∧
      attribution.validate binding (count = 0) = .ok () ∧
      count ≤ maxChangelogFrameEntries ∧ (∀ total ∈ bytes, total ≤ maxReceiptBytes) ∧
      bindingTransitionCount binding attribution ≤ maxStagedCommands := by
  simp only [validateShape, bind_eq_ok, require_eq_ok, exists_and_left, exists_const]
  constructor
  · rintro ⟨incarnation, follows, ⟨⟩, attributed, bounds⟩
    exact ⟨incarnation, follows, attributed, bounds⟩
  · rintro ⟨incarnation, follows, attributed, bounds⟩
    exact ⟨incarnation, follows, ⟨⟩, attributed, bounds⟩

section

variable (receipt : AuthoritativeTransactionV3)

include receipt

theorem sequence_after {previous : ChangelogTransactionSequence}
    (follows : receipt.binding.predecessor = some previous) :
    previous.checkedNext = some receipt.binding.sequence := by
  have expected := (validateShape_eq_ok.mp receipt.shaped).2.1
  rwa [follows] at expected

theorem count_le : receipt.mutations.length ≤ maxChangelogFrameEntries :=
  (validateShape_eq_ok.mp receipt.shaped).2.2.2.1

theorem transitionCount_le : receipt.transitionCount ≤ maxStagedCommands :=
  (validateShape_eq_ok.mp receipt.shaped).2.2.2.2.2

/-- A retained receipt never moves its frontier back. -/
theorem frontier_grows : receipt.binding.coveredFrontier = receipt.binding.predecessorFrontier ∨
      receipt.binding.coveredFrontier.advancesFrom receipt.binding.predecessorFrontier = true := by
  have validated := (validateShape_eq_ok.mp receipt.shaped).2.2.1
  simp only [ChangelogAttributionV3.validate, bind_eq_ok, require_eq_ok,
    exists_and_left] at validated
  exact validated.1

end

end AuthoritativeTransactionV3

end ChangelogReceipt
