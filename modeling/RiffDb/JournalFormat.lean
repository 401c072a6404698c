import RiffDb.ChangelogReceipt

/-!
# The logical frames of the durability journal

A journal frame is one group of transitions: a fixed header, the mutations, and a footer with the
digest of everything before it. The decoder checks the digest before it looks at a mutation, and its
walk over the mutations must end exactly at the footer.

Parameters are the digest, the checks inside a mutation's key and value, the codec of a reclamation
proof, and the arithmetic of the recovery window, which depends on the target.
-/

namespace JournalFormat

open ByteWire CheckedCode ReplicationTypes ChangelogHistory

abbrev Hash := ByteArrayOf 32

inductive JournalCodecError where
  | checksum
  | invalidValue
  | limitExceeded
  | truncated
  | unknownTable
  | unknownVersion
deriving DecidableEq, Repr

def frameMagic : Bytes := [0x52, 0x44, 0x42, 0x46, 0x52, 0x4d, 0x30, 0x31]

def footerMagic : Bytes := [0x52, 0x44, 0x42, 0x45, 0x4e, 0x44, 0x30, 0x31]

def frameHeaderBytesV2 : Nat := 108

def frameBindingBytes : Nat := 96

def frameHeaderBytes : Nat := frameHeaderBytesV2 + frameBindingBytes

def frameFooterBytes : Nat := 48

def mutationHeaderBytes : Nat := 44

def deleteValueLength : Nat := 2 ^ 32 - 1

def maxJournalTransitions : Nat := 256

def maxJournalFrameBytes : Nat := 16 * 1024 * 1024

def readArray (count : Nat) (bytes : Bytes) (offset : Nat) :
    Except JournalCodecError (ByteArrayOf count) :=
  okOr (arrayOf count (slice bytes offset (offset + count))) .truncated

def readWord (width : Nat) (bytes : Bytes) (offset : Nat) : Except JournalCodecError Nat :=
  (readArray width bytes offset).map fun word => beValue word.toList

def readU16 : Bytes → Nat → Except JournalCodecError Nat := readWord 2

def readU32 : Bytes → Nat → Except JournalCodecError Nat := readWord 4

def readU64 : Bytes → Nat → Except JournalCodecError Nat := readWord 8

/-- Every byte of a reserved range is zero. -/
def allZero (bytes : Bytes) : Bool := bytes.all (· == 0)

variable {bytes : Bytes}
variable {count offset : Nat} {array : ByteArrayOf count}

theorem readArray_eq_ok :
    readArray count bytes offset = .ok array ↔
      array.toList = slice bytes offset (offset + count) := by
  rw [readArray, okOr_eq_ok, arrayOf_eq_some]

variable {width : Nat}

theorem readWord_eq_ok {value : Nat} : readWord width bytes offset = .ok value ↔
      (slice bytes offset (offset + width)).length = width ∧
        beValue (slice bytes offset (offset + width)) = value := by
  simp only [readWord, map_eq_ok, readArray_eq_ok]
  constructor
  · rintro ⟨word, read, rfl⟩
    rw [← read]
    exact ⟨word.toList_length, rfl⟩
  · rintro ⟨length, rfl⟩
    exact ⟨⟨_, length⟩, rfl, rfl⟩

theorem length_slice {start stop : Nat} (inside : stop ≤ bytes.length) :
    (slice bytes start stop).length = stop - start := by
  rw [slice, List.length_take, List.length_drop]
  omega

theorem readWord_of_slice {value : Nat}
    (held : slice bytes offset (offset + width) = beBytes width value)
    (fits : value < 256 ^ width) : readWord width bytes offset = .ok value := by
  rw [readWord_eq_ok, held, length_beBytes, beValue_beBytes fits]
  exact ⟨rfl, rfl⟩

theorem readArray_of_slice (held : slice bytes offset (offset + count) = array.toList) :
    readArray count bytes offset = .ok array := readArray_eq_ok.mpr held.symm

theorem allZero_replicate (count : Nat) : allZero (List.replicate count 0) = true := by
  simp [allZero]

theorem allZero_slice (zero : allZero bytes = true) (start stop : Nat) :
    allZero (slice bytes start stop) = true := by
  simp only [allZero, List.all_eq_true] at zero ⊢
  exact fun byte member => zero byte (List.mem_of_mem_drop (List.mem_of_mem_take member))

inductive JournalTable where
  | metadata
  | entities
  | secondaryIndexes
  | indexEpochs
  | idempotency
  | idempotencyPending
  | events
  | eventRoutes
  | outbox
  | provenance
  | commits
  | audit
  | auditByRequest
  | entityChainHeads
  | vectorEvidence
  | vectorObservations
  | vectorEvidenceIndex
  | idempotencyLocators
  | provenanceLocators
  | auditByRequestLocators
  | historyTombstones
  | outboxStatus
deriving DecidableEq, Repr

namespace JournalTable

def all : List JournalTable :=
  [.metadata, .entities, .secondaryIndexes, .indexEpochs, .idempotency,
    .idempotencyPending, .events,
    .eventRoutes, .outbox, .provenance, .commits, .audit, .auditByRequest, .entityChainHeads,
    .vectorEvidence, .vectorObservations, .vectorEvidenceIndex, .idempotencyLocators,
    .provenanceLocators, .auditByRequestLocators, .historyTombstones, .outboxStatus]

/-- The tags run from one in the order of the declaration. -/
def tag (table : JournalTable) : UInt8 := UInt8.ofNat (table.ctorIdx + 1)

def decode (value : UInt8) : Except JournalCodecError JournalTable :=
  okOr (all.find? fun table => table.tag == value) .unknownTable

/-- Tables that only the fourth format version introduced. -/
def needsV4 (table : JournalTable) : Bool := table = .historyTombstones || table = .outboxStatus

end JournalTable

inductive JournalFrameKind where
  | command
  | serviceAudit
  | retentionPrune
  | sourceReclamation
deriving DecidableEq, Repr

namespace JournalFrameKind

def decode (value : UInt8) : Except JournalCodecError JournalFrameKind :=
  if value = 1 then .ok .command
  else if value = 2 then .ok .serviceAudit
  else if value = 3 then .ok .retentionPrune
  else if value = 4 then .ok .sourceReclamation
  else .error .unknownVersion

end JournalFrameKind

inductive JournalMutation where
  | put (table : JournalTable) (key : Bytes) (expectedHash : Option Hash) (value : Bytes)
  | delete (table : JournalTable) (key : Bytes) (expectedHash : Hash)
deriving DecidableEq

namespace JournalMutation

def table : JournalMutation → JournalTable
  | .put table _ _ _ => table
  | .delete table _ _ => table

def key : JournalMutation → Bytes
  | .put _ key _ _ => key
  | .delete _ key _ => key

def value : JournalMutation → Option Bytes
  | .put _ _ _ value => some value
  | .delete _ _ _ => none

/-- The bytes one mutation occupies in a frame. -/
def encodedLen (mutation : JournalMutation) : Nat :=
  mutationHeaderBytes + mutation.key.length + (mutation.value.elim 0 List.length)

end JournalMutation

def validateComponent (bytes : Bytes) : Except JournalCodecError Unit :=
  require (bytes ≠ [] ∧ bytes.length ≤ maxJournalFrameBytes) .limitExceeded

def JournalMutation.checkedPut (table : JournalTable) (key value : Bytes) :
    Except JournalCodecError JournalMutation := do
  validateComponent key
  validateComponent value
  .ok (.put table key none value)

/-- What a frame's receipt is derived with, beyond what the frame header carries. -/
@[ext] structure FrameChangelogBinding where
  historyIncarnation : UInt64
  predecessor : Option ChangelogTransactionSequence
  sequence : ChangelogTransactionSequence
  priorHistoryHash : Hash
  catalogDigest : Hash
deriving DecidableEq

namespace FrameChangelogBinding

def decode (bytes : Bytes) : Except JournalCodecError (Option FrameChangelogBinding) := do
  require (frameBindingBytes ≤ bytes.length) .truncated
  let bytes := slice bytes 0 frameBindingBytes
  require (allZero (slice bytes 1 8)) .invalidValue
  if bytes.head? = some 0 then do
    require (allZero bytes) .invalidValue
    .ok none
  else if bytes.head? = some 1 then do
    let historyIncarnation ← readU64 bytes 8
    let sequence ← okOr (NonZeroU64.new (← readU64 bytes 24)) .invalidValue
    let predecessor := NonZeroU64.new (← readU64 bytes 16)
    require (historyIncarnation ≠ 0 ∧
      ¬ (predecessor.bind NonZeroU64.checkedNext).any fun next => next ≠ sequence) .invalidValue
    .ok (some ⟨UInt64.ofNat historyIncarnation, predecessor, sequence, ← readArray 32 bytes 32,
      ← readArray 32 bytes 64⟩)
  else .error .invalidValue

end FrameChangelogBinding

structure SourceReceiptPreimage where
  canonicalBytes : UInt32
  canonicalHash : Hash
deriving DecidableEq

/-- A cut of the source prefix: the roots before and after, and what was removed. -/
structure SourceReclamationProof where
  predecessor : ChangelogHistoryStateV3
  retained : ChangelogHistoryStateV3
  removed : List SourceReceiptPreimage
deriving DecidableEq

@[ext] structure JournalFrame where
  formatVersion : Nat
  databaseId : DatabaseId
  kind : JournalFrameKind
  predecessorSequence : Option CommitSequence
  coveredSequence : Option CommitSequence
  predecessorAdministrationSequence : Option AdministrationSequence
  coveredAdministrationSequence : Option AdministrationSequence
  transitionCount : Nat
  commandCount : Nat
  auditCount : Nat
  previousHash : Hash
  mutations : List JournalMutation
  changelog : Option FrameChangelogBinding
  sourceReclamation : Option SourceReclamationProof
deriving DecidableEq

/-- What the frame codec calls and this development does not embed. -/
structure FrameEnv where
  digest : Bytes → Hash
  decodeProof : Bytes → Except JournalCodecError SourceReclamationProof
  /-- The checks of a frame's mutations against its kind and counts; the flag asks for the
  counts to be derived again from the command segments. -/
  mutationsAdmitted : JournalFrame → Bool → Except JournalCodecError Bool
  validateSourceReclamation : JournalFrame → Except JournalCodecError Unit
  admitNativeLayout : Nat → Nat → Bool

namespace JournalFrame

def sequenceDelta (previous covered : Option NonZeroU64) : Option Nat :=
  match previous, covered with
  | none, none => some 0
  | none, some covered => some covered.get
  | some previous, some covered =>
    if previous.get ≤ covered.get then some (covered.get - previous.get) else none
  | some _, none => none

/-- One mutation at the cursor. `gate` is the version check of the walk that keeps nothing. -/
def decodeMutation (gate : JournalTable → Except JournalCodecError Unit) (bytes : Bytes)
    (cursor : Nat) : Except JournalCodecError (JournalMutation × Nat) := do
  let table ← okOr bytes[cursor]? .truncated >>= JournalTable.decode
  gate table
  let operation ← okOr bytes[cursor + 1]? .truncated
  let expectation ← okOr bytes[cursor + 2]? .truncated
  require (bytes[cursor + 3]? = some 0) .invalidValue
  let keyLen ← readU32 bytes (cursor + 4)
  let valueLen ← readU32 bytes (cursor + 8)
  let expectedHash ← readArray 32 bytes (cursor + 12)
  let keyStart := cursor + mutationHeaderBytes
  let keyEnd := keyStart + keyLen
  require (keyEnd ≤ bytes.length) .truncated
  let key := slice bytes keyStart keyEnd
  if operation = 0 ∧ valueLen ≠ deleteValueLength then do
    let valueEnd := keyEnd + valueLen
    require (valueEnd ≤ bytes.length) .truncated
    let value := slice bytes keyEnd valueEnd
    if expectation = 0 ∧ expectedHash.toList = List.replicate 32 0 then do
      .ok (← JournalMutation.checkedPut table key value, valueEnd)
    else if expectation = 1 then .ok (.put table key (some expectedHash) value, valueEnd)
    else .error .invalidValue
  else if operation = 1 ∧ valueLen = deleteValueLength ∧ expectation = 1 then
    .ok (.delete table key expectedHash, keyEnd)
  else .error .invalidValue

def decodeMutations (gate : JournalTable → Except JournalCodecError Unit) (bytes : Bytes) :
    Nat → Nat → Except JournalCodecError (List JournalMutation × Nat)
  | 0, cursor => .ok ([], cursor)
  | count + 1, cursor => do
    let (mutation, next) ← decodeMutation gate bytes cursor
    let (rest, last) ← decodeMutations gate bytes count next
    .ok (mutation :: rest, last)

/-- What the decoder knows once the digest of the frame has been checked. -/
structure Envelope where
  version : Nat
  headerBytes : Nat
  changelog : Option FrameChangelogBinding
  mutationCount : Nat
  payloadLen : Nat
  frameHash : Hash

def Envelope.footer (envelope : Envelope) : Nat := envelope.headerBytes + envelope.payloadLen

def headerBytesOf (version : Nat) : Except JournalCodecError Nat :=
  if version = 3 ∨ version = 4 ∨ version = 5 then .ok frameHeaderBytes
  else if version = 2 then .ok frameHeaderBytesV2
  else .error .unknownVersion

/-- The binding a header from the third version on records. -/
def recordedBinding (bytes : Bytes) (headerBytes : Nat) :
    Except JournalCodecError (Option FrameChangelogBinding) :=
  if headerBytes = frameHeaderBytes then
    FrameChangelogBinding.decode (slice bytes frameHeaderBytesV2 frameHeaderBytes)
  else .ok none

variable (env : FrameEnv)

def decodeEnvelope (bytes : Bytes) (proven admitted : Option Hash) :
    Except JournalCodecError Envelope := do
  require (frameHeaderBytesV2 + frameFooterBytes ≤ bytes.length) .truncated
  require (slice bytes 0 8 = frameMagic) .unknownVersion
  let version ← readU16 bytes 8
  let headerBytes ← headerBytesOf version
  require (headerBytes + frameFooterBytes ≤ bytes.length) .truncated
  let changelog ← recordedBinding bytes headerBytes
  require (bytes[27]? = some 0) .invalidValue
  let reserved ← readU16 bytes 66
  require (reserved = 0) .invalidValue
  let mutationCount ← readU32 bytes 68
  let payloadLen ← readU32 bytes 72
  let expectedLen := headerBytes + payloadLen + frameFooterBytes
  require (expectedLen ≤ maxJournalFrameBytes) .limitExceeded
  require (bytes.length = expectedLen) .truncated
  let footer := headerBytes + payloadLen
  require (slice bytes footer (footer + 8) = footerMagic) .invalidValue
  let recordedLen ← readU64 bytes (footer + 8)
  require (recordedLen = expectedLen) .invalidValue
  let frameHash := admitted.getD (env.digest (slice bytes 0 footer))
  let recordedHash ← readArray 32 bytes (footer + 16)
  require (frameHash = recordedHash ∧ proven.all fun hash => hash = frameHash) .checksum
  require (mutationCount ≤ payloadLen / mutationHeaderBytes) .invalidValue
  .ok ⟨version, headerBytes, changelog, mutationCount, payloadLen, frameHash⟩

/-- The proof a reclamation frame carries before its one mutation. -/
def decodeReclamation (bytes : Bytes) (envelope : Envelope) (kind : JournalFrameKind) :
    Except JournalCodecError (Option SourceReclamationProof × Nat) :=
  if kind = .sourceReclamation then do
    require (5 ≤ envelope.version) .unknownVersion
    let length ← readU32 bytes envelope.headerBytes
    let start := envelope.headerBytes + 4
    require (start + length ≤ envelope.footer) .truncated
    .ok (some (← env.decodeProof (slice bytes start (start + length))), start + length)
  else .ok (none, envelope.headerBytes)

/-- The header fields, with nothing yet in place of the mutations. -/
def readFields (bytes : Bytes) (version : Nat) (kind : JournalFrameKind)
    (changelog : Option FrameChangelogBinding) : Except JournalCodecError JournalFrame := do
  let rawDatabaseId ← readArray 16 bytes 10
  let databaseId ← (UuidV7.fromBytes rawDatabaseId).mapError fun _ => JournalCodecError.invalidValue
  let predecessorSequence ← readU64 bytes 28
  let coveredSequence ← readU64 bytes 36
  let predecessorAdministrationSequence ← readU64 bytes 44
  let coveredAdministrationSequence ← readU64 bytes 52
  let transitionCount ← readU16 bytes 60
  let commandCount ← readU16 bytes 62
  let auditCount ← readU16 bytes 64
  let previousHash ← readArray 32 bytes 76
  .ok {
    formatVersion := version
    databaseId := databaseId
    kind := kind
    predecessorSequence := NonZeroU64.new predecessorSequence
    coveredSequence := NonZeroU64.new coveredSequence
    predecessorAdministrationSequence := NonZeroU64.new predecessorAdministrationSequence
    coveredAdministrationSequence := NonZeroU64.new coveredAdministrationSequence
    transitionCount := transitionCount
    commandCount := commandCount
    auditCount := auditCount
    previousHash := previousHash
    mutations := []
    changelog := changelog
    sourceReclamation := none }

/-- The counts a header must carry whatever its mutations are. -/
def CountsMatch (frame : JournalFrame) : Prop :=
  0 < frame.transitionCount ∧ frame.transitionCount ≤ maxJournalTransitions ∧
    sequenceDelta frame.predecessorSequence frame.coveredSequence = some frame.commandCount ∧
    sequenceDelta frame.predecessorAdministrationSequence frame.coveredAdministrationSequence =
      some frame.auditCount

instance (frame : JournalFrame) : Decidable frame.CountsMatch := by
  unfold CountsMatch; infer_instance

/-- What a frame of a kind requires of its counts. -/
def KindMatches (frame : JournalFrame) : Prop :=
  match frame.kind with
  | .command => frame.transitionCount = frame.commandCount ∧ frame.commandCount ≠ 0
  | .retentionPrune | .sourceReclamation =>
    frame.transitionCount = 1 ∧ frame.commandCount = 0 ∧ frame.auditCount = 0
  | .serviceAudit => frame.transitionCount = frame.auditCount ∧ frame.commandCount = 0

instance (frame : JournalFrame) : Decidable frame.KindMatches := by
  unfold KindMatches; cases frame.kind <;> infer_instance

def payloadLen (frame : JournalFrame) : Nat :=
  (frame.mutations.map JournalMutation.encodedLen).sum

def checkedWith (frame : JournalFrame) (deriveCounts : Bool) :
    Except JournalCodecError JournalFrame := do
  require (frame.CountsMatch ∧ frame.mutations ≠ []) .invalidValue
  let admitted ← env.mutationsAdmitted frame deriveCounts
  require (frame.KindMatches ∧ admitted) .invalidValue
  require (frameHeaderBytes + frame.payloadLen + frameFooterBytes ≤ maxJournalFrameBytes)
    .limitExceeded
  .ok frame

/-- The walk over a proven command frame, which keeps its header and drops its mutations. -/
def decodeHeaderOnly (bytes : Bytes) (envelope : Envelope) (cursor : Nat) :
    Except JournalCodecError JournalFrame := do
  require (envelope.mutationCount ≠ 0 ∧
    frameHeaderBytes + envelope.payloadLen + frameFooterBytes ≤ maxJournalFrameBytes) .invalidValue
  let (_, last) ← decodeMutations
    (fun table => require (¬ (envelope.version < 4 ∧ table.needsV4)) .unknownVersion) bytes
    envelope.mutationCount cursor
  require (last = envelope.footer) .invalidValue
  let frame ← readFields bytes envelope.version .command envelope.changelog
  require (frame.CountsMatch ∧ frame.KindMatches) .invalidValue
  .ok frame

def decodeWith (bytes : Bytes) (proven admitted : Option Hash) (retainMutations : Bool) :
    Except JournalCodecError (JournalFrame × Hash) := do
  let envelope ← decodeEnvelope env bytes proven admitted
  let kind ← okOr bytes[26]? .truncated >>= JournalFrameKind.decode
  let (sourceReclamation, cursor) ← decodeReclamation env bytes envelope kind
  if retainMutations = false ∧ proven.isSome ∧ kind = .command then do
    .ok (← decodeHeaderOnly bytes envelope cursor, envelope.frameHash)
  else do
    let (mutations, last) ← decodeMutations (fun _ => .ok ()) bytes envelope.mutationCount cursor
    require (last = envelope.footer) .invalidValue
    require (¬ (envelope.version < 4 ∧
      (kind = .retentionPrune ∨ mutations.any fun mutation => mutation.table.needsV4)))
      .unknownVersion
    let fields ← readFields bytes envelope.version kind none
    let frame ← checkedWith env { fields with mutations := mutations } proven.isNone
    let frame := { frame with
      changelog := envelope.changelog, sourceReclamation := sourceReclamation }
    env.validateSourceReclamation frame
    .ok (frame, envelope.frameHash)

def decode (bytes : Bytes) : Except JournalCodecError (JournalFrame × Hash) :=
  decodeWith env bytes none none true

def decodeProven (bytes : Bytes) (proven : Hash) : Except JournalCodecError JournalFrame :=
  (decodeWith env bytes (some proven) none true).map Prod.fst

def decodeProvenHeaderOnly (bytes : Bytes) (proven : Hash) :
    Except JournalCodecError JournalFrame :=
  (decodeWith env bytes (some proven) none false).map Prod.fst

section Decoded

variable {env : FrameEnv} {bytes : Bytes} {proven admitted : Option Hash} {envelope : Envelope}

/-- The part of the envelope that does not depend on where the digest comes from. -/
structure Envelope.ReadFrom (envelope : Envelope) (bytes : Bytes) : Prop where
  long : frameHeaderBytesV2 + frameFooterBytes ≤ bytes.length
  magic : slice bytes 0 8 = frameMagic
  version : readU16 bytes 8 = .ok envelope.version
  header : headerBytesOf envelope.version = .ok envelope.headerBytes
  footed : envelope.headerBytes + frameFooterBytes ≤ bytes.length
  changelog : recordedBinding bytes envelope.headerBytes = .ok envelope.changelog
  padding : bytes[27]? = some 0
  reserved : readU16 bytes 66 = .ok 0
  mutations : readU32 bytes 68 = .ok envelope.mutationCount
  payload : readU32 bytes 72 = .ok envelope.payloadLen
  bounded : envelope.footer + frameFooterBytes ≤ maxJournalFrameBytes
  length : bytes.length = envelope.footer + frameFooterBytes
  footerMagic : slice bytes envelope.footer (envelope.footer + 8) = footerMagic
  recordedLen : readU64 bytes (envelope.footer + 8) = .ok (envelope.footer + frameFooterBytes)
  counted : envelope.mutationCount ≤ envelope.payloadLen / mutationHeaderBytes

theorem decodeEnvelope_eq_ok : decodeEnvelope env bytes proven admitted = .ok envelope ↔
      envelope.ReadFrom bytes ∧
        admitted.getD (env.digest (slice bytes 0 envelope.footer)) = envelope.frameHash ∧
        readArray 32 bytes (envelope.footer + 16) = .ok envelope.frameHash ∧
        ∀ hash ∈ proven, hash = envelope.frameHash := by
  simp only [decodeEnvelope, bind_eq_ok, require_eq_ok, exists_const, Except.ok.injEq,
    Option.all_eq_true, decide_eq_true_eq]
  constructor
  · rintro ⟨long, magic, version, versionRead, headerBytes, header, footed, changelog, decoded,
      padding, reserved, reservedRead, rfl, mutationCount, mutations, payloadLen, payload, bounded,
      length, footerMagic, recordedLen, lengthRead, rfl, recordedHash, hashRead, ⟨same, all⟩,
      counted, rfl⟩
    exact ⟨⟨long, magic, versionRead, header, footed, decoded, padding, reservedRead, mutations,
      payload, bounded, length, footerMagic, lengthRead, counted⟩, rfl, same ▸ hashRead, all⟩
  · rintro ⟨read, same, hashRead, all⟩
    refine ⟨read.long, read.magic, _, read.version, _, read.header, read.footed, _, read.changelog,
      read.padding, _, read.reserved, rfl, _, read.mutations, _, read.payload, read.bounded,
      read.length, read.footerMagic, _, read.recordedLen, rfl, _, hashRead, ⟨same, ?_⟩,
      read.counted, ?_⟩
    · intro hash member
      rw [all hash member]
      exact same.symm
    · rw [show envelope.headerBytes + envelope.payloadLen = envelope.footer from rfl, same]

variable {frame : JournalFrame}

theorem readFields_previousHash {version : Nat} {kind : JournalFrameKind}
    {changelog : Option FrameChangelogBinding}
    (read : readFields bytes version kind changelog = .ok frame) :
    frame.previousHash.toList = slice bytes 76 108 := by
  simp only [readFields, bind_eq_ok, Except.ok.injEq] at read
  obtain ⟨_, -, _, -, _, -, _, -, _, -, _, -, _, -, _, -, _, -, previousHash, hashRead, rfl⟩ := read
  exact readArray_eq_ok.mp hashRead

theorem checkedWith_eq_ok {frame result : JournalFrame} {deriveCounts : Bool} :
    checkedWith env frame deriveCounts = .ok result ↔
      result = frame ∧ frame.CountsMatch ∧ frame.mutations ≠ [] ∧ frame.KindMatches ∧
        env.mutationsAdmitted frame deriveCounts = .ok true ∧
        frameHeaderBytes + frame.payloadLen + frameFooterBytes ≤ maxJournalFrameBytes := by
  simp only [checkedWith, bind_eq_ok, require_eq_ok, exists_const, Except.ok.injEq]
  constructor
  · rintro ⟨⟨counts, some⟩, admitted, checked, ⟨kind, holds⟩, bounded, rfl⟩
    exact ⟨rfl, counts, some, kind, holds ▸ checked, bounded⟩
  · rintro ⟨rfl, counts, some, kind, checked, bounded⟩
    exact ⟨⟨counts, some⟩, true, checked, ⟨kind, rfl⟩, bounded, rfl⟩

variable {hash : Hash}

theorem decodeWith_previousHash {retain : Bool}
    (decoded : decodeWith env bytes proven admitted retain = .ok (frame, hash)) :
    frame.previousHash.toList = slice bytes 76 108 := by
  simp only [decodeWith, bind_eq_ok] at decoded
  obtain ⟨envelope, -, kind, -, ⟨proof, cursor⟩, -, decoded⟩ := decoded
  split at decoded
  · simp only [decodeHeaderOnly, bind_eq_ok, require_eq_ok, exists_const, Except.ok.injEq,
      Prod.mk.injEq] at decoded
    obtain ⟨_, ⟨-, _, -, -, fields, read, -, rfl⟩, rfl, -⟩ := decoded
    exact readFields_previousHash read
  · simp only [bind_eq_ok, require_eq_ok, exists_const, Except.ok.injEq, Prod.mk.injEq] at decoded
    obtain ⟨_, -, -, -, fields, read, checked, kept, _, -, rfl, -⟩ := decoded
    rw [(checkedWith_eq_ok.mp kept).1]
    exact (readFields_previousHash read : fields.previousHash.toList = _)

/-- The digest a scan has already checked stands in for deriving it again. -/
theorem decodeWith_admitted (decoded : decode env bytes = .ok (frame, hash)) :
    decodeWith env bytes none (some hash) true = .ok (frame, hash) := by
  have shared : ∀ envelope, decodeEnvelope env bytes none none = .ok envelope →
      decodeEnvelope env bytes none (some envelope.frameHash) = .ok envelope := by
    intro envelope opened
    obtain ⟨read, -, recorded, -⟩ := decodeEnvelope_eq_ok.mp opened
    exact decodeEnvelope_eq_ok.mpr ⟨read, rfl, recorded, by simp⟩
  simp only [decode, decodeWith, bind_eq_ok] at decoded ⊢
  obtain ⟨envelope, opened, kind, kinded, reclaimed, reclamation, rest⟩ := decoded
  have same : envelope.frameHash = hash := by
    simp only [Option.isSome_none, Bool.false_eq_true, false_and, and_false, if_false,
      bind_eq_ok, Except.ok.injEq, Prod.mk.injEq] at rest
    obtain ⟨_, -, _, -, _, -, _, -, _, -, _, -, -, same⟩ := rest
    exact same
  exact ⟨envelope, same ▸ shared envelope opened, kind, kinded, reclaimed, reclamation, rest⟩

/-- A frame the decoder accepts is not empty and within the ceiling. -/
theorem decode_length (decoded : decode env bytes = .ok (frame, hash)) :
    frameHeaderBytesV2 + frameFooterBytes ≤ bytes.length ∧ bytes.length ≤ maxJournalFrameBytes := by
  simp only [decode, decodeWith, bind_eq_ok] at decoded
  obtain ⟨envelope, opened, -⟩ := decoded
  obtain ⟨read, -⟩ := decodeEnvelope_eq_ok.mp opened
  exact ⟨read.long, read.length ▸ read.bounded⟩

end Decoded

end JournalFrame

end JournalFormat
