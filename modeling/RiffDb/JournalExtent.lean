import RiffDb.BlockFiles
import RiffDb.JournalFormat

/-!
# Journal extents: header slots, physical frames and the walk over them

An extent is a preallocated file. Of its two header slots, the one with the highest generation and
revision names the checkpoint and the first frame after it. Frames are padded to whole blocks, with
a header in the first block and a footer at the end of the last. An extent used again keeps the
bytes of earlier generations beyond its tail.

The walk reads frames up to a header that is not of this generation, and tells a torn frame at the
tail from damage.
-/

namespace JournalExtent

open ByteWire CheckedCode BlockFiles ReplicationTypes JournalFormat

inductive JournalIoError where
  | corrupt
  | io
  | capacity
deriving DecidableEq, Repr

/-- `map_err(|_| JournalIoError::Corrupt)`. -/
def corruptly {α : Type} (value : Except JournalCodecError α) : Except JournalIoError α :=
  value.mapError fun _ => .corrupt

def extentMagic : Bytes := [0x52, 0x44, 0x42, 0x4a, 0x45, 0x58, 0x30, 0x33]

def extentFrameMagic : Bytes := [0x52, 0x44, 0x42, 0x4a, 0x50, 0x46, 0x30, 0x33]

def extentFrameFooterMagic : Bytes := [0x52, 0x44, 0x42, 0x4a, 0x50, 0x45, 0x30, 0x33]

def sealedFooterMagic : Bytes := [0x52, 0x44, 0x42, 0x4a, 0x53, 0x46, 0x30, 0x34]

def extentFormatVersion : Nat := 4

def extentHeaderVersionV3 : Nat := 3

def extentFrameVersion : Nat := 3

def extentHeaderSlotBytes : Nat := 4096

def extentDataOffset : Nat := 8192

def extentFrameAlignment : Nat := 4096

def extentFrameHeaderBytes : Nat := 128

def extentFrameFooterBytes : Nat := 64

def extentHeaderChecksumOffset : Nat := 4064

def compactExtentDataBytes : Nat := 8 * 1024 * 1024

def legacyExtentDataBytes : Nat := 40 * 1024 * 1024

/-- The configured capacity of a release build. -/
def extentDataBytes : Nat := 320 * 1024 * 1024

def maxJournalSuffixTransitions : Nat := 65536

def maxJournalSuffixBytes : Nat := 256 * 1024 * 1024

def sourceSuffixTransitions : Nat := 256

def sourceSuffixBytes : Nat := 1024 * 1024

def extentFileBytes (dataBytes : Nat) : Nat := extentDataOffset + dataBytes

def KnownExtentDataBytes (dataBytes : Nat) : Prop :=
  dataBytes = compactExtentDataBytes ∨ dataBytes = extentDataBytes ∨
    dataBytes = legacyExtentDataBytes

instance (dataBytes : Nat) : Decidable (KnownExtentDataBytes dataBytes) := by
  unfold KnownExtentDataBytes; infer_instance

def zeros (count : Nat) : Bytes := List.replicate count 0

@[simp] theorem length_zeros (count : Nat) : (zeros count).length = count := List.length_replicate

/-- `read_exact_at`: a read past the end of the file fails. -/
def readExactAt (file : File) (position count : Nat) : Except JournalIoError Bytes := do
  require (position + count ≤ file.length) .io
  .ok (file.readAt position count)

theorem readExactAt_eq_ok {file : File} {position count : Nat} {bytes : Bytes} :
    readExactAt file position count = .ok bytes ↔
      position + count ≤ file.length ∧ file.readAt position count = bytes := by
  simp only [readExactAt, bind_eq_ok, require_eq_ok, exists_const, Except.ok.injEq]

@[ext] structure JournalFileHeader where
  databaseId : DatabaseId
  checkpointSequence : Option CommitSequence
  checkpointAdministrationSequence : Option AdministrationSequence
  checkpointFrameHash : Hash
deriving DecidableEq

/-- A slot's header, with the ranges its decoder checks. -/
@[ext] structure ExtentHeader where
  logical : JournalFileHeader
  generation : Nat
  slot : Nat
  dataBytes : Nat
  revision : Nat
  anchorPosition : Nat
  generated : 0 < generation ∧ generation < 2 ^ 64
  slotted : slot < 2
  known : KnownExtentDataBytes dataBytes
  revised : revision < 2 ^ 64
  placed : extentDataOffset ≤ anchorPosition ∧ anchorPosition ≤ extentFileBytes dataBytes ∧
    extentFrameAlignment ∣ anchorPosition

variable (env : FrameEnv)

namespace ExtentHeader

instance : DecidableEq ExtentHeader := fun left right =>
  decidable_of_iff (left.logical = right.logical ∧ left.generation = right.generation ∧
    left.slot = right.slot ∧ left.dataBytes = right.dataBytes ∧ left.revision = right.revision ∧
    left.anchorPosition = right.anchorPosition) ExtentHeader.ext_iff.symm

/-- The fields of a slot before its checksum. -/
def fields (header : ExtentHeader) : List Bytes :=
  [extentMagic, beBytes 2 extentFormatVersion, beBytes 2 header.slot,
    beBytes 4 extentHeaderSlotBytes, header.logical.databaseId.intoBytes.toList,
    beBytes 8 header.generation, beBytes 8 (sequenceValue header.logical.checkpointSequence),
    beBytes 8 (sequenceValue header.logical.checkpointAdministrationSequence),
    header.logical.checkpointFrameHash.toList, beBytes 8 extentDataOffset,
    beBytes 8 header.dataBytes, beBytes 8 header.revision, beBytes 8 header.anchorPosition,
    zeros (extentHeaderChecksumOffset - 120)]

def encode (header : ExtentHeader) : Bytes :=
  header.fields.flatten ++ (env.digest header.fields.flatten).toList

/-- The third header version has no revision and no anchor: every frame is suffix. -/
def revisionAndAnchor (bytes : Bytes) (version : Nat) : Except JournalCodecError (Nat × Nat) :=
  if version = extentHeaderVersionV3 then .ok (0, extentDataOffset)
  else do
    let anchorPosition ← readU64 bytes 112
    let revision ← readU64 bytes 104
    .ok (revision, anchorPosition)

def decode (bytes : Bytes) (expectedSlot : Nat) : Except JournalCodecError ExtentHeader := do
  require (bytes.length = extentHeaderSlotBytes) .truncated
  let version ← readU16 bytes 8
  let slot ← readU16 bytes 10
  let slotBytes ← readU32 bytes 12
  let dataOffset ← readU64 bytes 88
  let dataBytes ← readU64 bytes 96
  require (slice bytes 0 8 = extentMagic ∧
    (version = extentFormatVersion ∨ version = extentHeaderVersionV3) ∧ slot = expectedSlot ∧
    slotBytes = extentHeaderSlotBytes ∧ dataOffset = extentDataOffset ∧
    KnownExtentDataBytes dataBytes) .unknownVersion
  require ((env.digest (slice bytes 0 extentHeaderChecksumOffset)).toList =
    slice bytes extentHeaderChecksumOffset extentHeaderSlotBytes) .checksum
  let reservedFrom := if version = extentHeaderVersionV3 then 104 else 120
  require (allZero (slice bytes reservedFrom extentHeaderChecksumOffset)) .invalidValue
  let (revision, anchorPosition) ← revisionAndAnchor bytes version
  let rawDatabaseId ← readArray 16 bytes 16
  let generation ← readU64 bytes 32
  let checkpoint ← readU64 bytes 40
  let administration ← readU64 bytes 48
  let checkpointFrameHash ← readArray 32 bytes 56
  if valid : (0 < generation ∧ generation < 2 ^ 64) ∧ expectedSlot < 2 ∧
      KnownExtentDataBytes dataBytes ∧ revision < 2 ^ 64 ∧ extentDataOffset ≤ anchorPosition ∧
      anchorPosition ≤ extentFileBytes dataBytes ∧ extentFrameAlignment ∣ anchorPosition then do
    let databaseId ← (UuidV7.fromBytes rawDatabaseId).mapError fun _ =>
      JournalCodecError.invalidValue
    .ok {
      logical := ⟨databaseId, NonZeroU64.new checkpoint, NonZeroU64.new administration,
        checkpointFrameHash⟩
      generation := generation
      slot := expectedSlot
      dataBytes := dataBytes
      revision := revision
      anchorPosition := anchorPosition
      generated := valid.1
      slotted := valid.2.1
      known := valid.2.2.1
      revised := valid.2.2.2.1
      placed := valid.2.2.2.2 }
  else .error .invalidValue

/-- The order of selection: generation first, then revision. -/
def keyLe (left right : ExtentHeader) : Prop :=
  left.generation < right.generation ∨
    left.generation = right.generation ∧ left.revision ≤ right.revision

instance : DecidableRel keyLe := fun _ _ => inferInstanceAs (Decidable (_ ∨ _))

end ExtentHeader

/-- A slot that is blank or does not decode is passed over. -/
def slotHeader (file : File) (slot : Nat) : Option ExtentHeader :=
  let bytes := file.readAt (slot * extentHeaderSlotBytes) extentHeaderSlotBytes
  if allZero bytes then none else (ExtentHeader.decode env bytes slot).toOption

def readSelectedExtentHeader (file : File) (exactLen : Bool) :
    Except JournalIoError ExtentHeader := do
  require (extentDataOffset ≤ file.length) .corrupt
  let valid := ([0, 1].filterMap (slotHeader env file)).insertionSort ExtentHeader.keyLe
  let selected ← okOr valid.getLast? .corrupt
  require (¬ valid.dropLast.getLast?.any (fun header =>
      (header.generation, header.revision) = (selected.generation, selected.revision) ∧
        header ≠ selected) ∧ (exactLen → file.length = extentFileBytes selected.dataBytes) ∧
    file.length ≤ extentFileBytes selected.dataBytes) .corrupt
  .ok selected

/-- A logical frame as it is submitted: the recovery decoder gives it back. -/
@[ext] structure EncodedJournalFrame (env : FrameEnv) where
  frame : JournalFrame
  bytes : Bytes
  frameHash : Hash
  decodes : JournalFrame.decode env bytes = .ok (frame, frameHash)

def alignUp (value alignment : Nat) : Nat := (value + (alignment - 1)) / alignment * alignment

def extentFrameBytes (encodedLen : Nat) : Option Nat :=
  let padded := alignUp (extentFrameHeaderBytes + encodedLen + extentFrameFooterBytes)
    extentFrameAlignment
  if padded ≤ extentDataBytes then some padded else none

/-- What the checksum of a physical frame covers: the frame with its checksum blanked. -/
def checksumInput (bytes : Bytes) : Bytes := bytes.take 68 ++ zeros 32 ++ bytes.drop 100

def extentFrameChecksum (bytes : Bytes) : Hash := env.digest (checksumInput bytes)

/-- The fields of a physical frame around a given checksum. -/
def frameFields (generation position paddedLen : Nat) (logical : Bytes) (frameHash : Hash)
    (checksum : Bytes) : List Bytes :=
  [extentFrameMagic, beBytes 2 extentFrameVersion, beBytes 2 extentFrameHeaderBytes,
    beBytes 8 generation, beBytes 8 position, beBytes 4 logical.length, beBytes 4 paddedLen,
    frameHash.toList, checksum, zeros 28, logical,
    zeros (paddedLen - extentFrameFooterBytes - (extentFrameHeaderBytes + logical.length)),
    extentFrameFooterMagic, beBytes 8 generation, beBytes 8 position, frameHash.toList, zeros 8]

@[ext] structure EncodedExtentFrame where
  bytes : Bytes
  position : Nat
deriving DecidableEq

namespace EncodedExtentFrame

def encodeForExtent (generation position dataBytes : Nat) (logical : EncodedJournalFrame env) :
    Except JournalIoError EncodedExtentFrame := do
  require (generation ≠ 0 ∧ extentDataOffset ≤ position ∧ extentFrameAlignment ∣ position) .corrupt
  let encodedLen := logical.bytes.length
  let paddedLen ← okOr (extentFrameBytes encodedLen) .capacity
  require (paddedLen ≤ dataBytes ∧ position + paddedLen ≤ extentFileBytes dataBytes) .capacity
  require (encodedLen < 2 ^ 32 ∧ paddedLen < 2 ^ 32 ∧ position < 2 ^ 64) .capacity
  let blank := (frameFields generation position paddedLen logical.bytes logical.frameHash
    (zeros 32)).flatten
  let checksum := extentFrameChecksum env blank
  .ok ⟨(frameFields generation position paddedLen logical.bytes logical.frameHash
    checksum.toList).flatten, position⟩

end EncodedExtentFrame

/-- The allocation check of a recovery scan, and the digest it has checked on the way. -/
def admitPhysicalRecovery (logical : Bytes) (recorded : Hash) :
    Except JournalIoError (Option Hash) := do
  require (frameHeaderBytesV2 + frameFooterBytes ≤ logical.length ∧
    slice logical 0 8 = frameMagic) .corrupt
  let version ← corruptly (readU16 logical 8)
  if version = 2 then .ok none
  else do
    require (version = 3 ∨ version = 4 ∨ version = 5) .corrupt
    require (frameHeaderBytes + frameFooterBytes ≤ logical.length) .corrupt
    let changelog ← corruptly
      (FrameChangelogBinding.decode (slice logical frameHeaderBytesV2 frameHeaderBytes))
    if changelog.isNone then .ok none
    else do
      let count ← corruptly (readU32 logical 68)
      let payload ← corruptly (readU32 logical 72)
      let footer := frameHeaderBytes + payload
      require (footer + frameFooterBytes = logical.length) .corrupt
      let recordedLen ← corruptly (readU64 logical (footer + 8))
      let recordedHash ← corruptly (readArray 32 logical (footer + 16))
      require (slice logical footer (footer + 8) = footerMagic ∧ recordedLen = logical.length ∧
        env.digest (slice logical 0 footer) = recorded ∧ recordedHash = recorded) .corrupt
      require (count * mutationHeaderBytes ≤ payload) .corrupt
      require (env.admitNativeLayout count (payload - count * mutationHeaderBytes)) .capacity
      .ok (some recorded)

/-- The footer names this generation and position and the hash of the frame's own header. -/
def FooterCurrent (physical : Bytes) (generation position : Nat) : Prop :=
  let footer := physical.length - extentFrameFooterBytes
  slice physical footer (footer + 8) = extentFrameFooterMagic ∧
    readU64 physical (footer + 8) = .ok generation ∧
    readU64 physical (footer + 16) = .ok position ∧
    slice physical (footer + 24) (footer + 56) = slice physical 36 68 ∧
    allZero (slice physical (footer + 56) (footer + 64))

instance (physical : Bytes) (generation position : Nat) :
    Decidable (FooterCurrent physical generation position) := by
  unfold FooterCurrent; infer_instance

/-- The logical frame inside a physical one. A proven frame skips the derivation of counts. -/
def decodeLogical (physical : Bytes) (encodedLen : Nat) (proven : Option Hash)
    (retainMutations : Bool) : Except JournalIoError (JournalFrame × Hash) := do
  let logical := slice physical extentFrameHeaderBytes (extentFrameHeaderBytes + encodedLen)
  match proven with
  | some proven =>
    if retainMutations then
      corruptly ((JournalFrame.decodeProven env logical proven).map (·, proven))
    else corruptly ((JournalFrame.decodeProvenHeaderOnly env logical proven).map (·, proven))
  | none => do
    let recorded ← corruptly (readArray 32 physical 36)
    let admitted ← admitPhysicalRecovery env logical recorded
    corruptly (JournalFrame.decodeWith env logical none admitted true)

/-- One padded frame read at `position`; `none` is a torn tail. -/
def decodePhysicalFrame (physical : Bytes) (generation position encodedLen : Nat)
    (proven : Option Hash) (retainMutations : Bool) :
    Except JournalIoError (Option (JournalFrame × Hash)) := do
  require (extentFrameHeaderBytes + encodedLen + extentFrameFooterBytes ≤ physical.length) .corrupt
  let footer := physical.length - extentFrameFooterBytes
  if FooterCurrent physical generation position then do
    require (allZero (slice physical 100 extentFrameHeaderBytes) ∧
      allZero (slice physical (extentFrameHeaderBytes + encodedLen) footer) ∧
      (proven = none → (extentFrameChecksum env physical).toList = slice physical 68 100)) .corrupt
    let (frame, frameHash) ← decodeLogical env physical encodedLen proven retainMutations
    require (frameHash.toList = slice physical 36 68) .corrupt
    .ok (some (frame, frameHash))
  else .ok none

inductive ExtentWalk where
  | fromAnchor
  | fromOrigin
deriving DecidableEq, Repr

@[ext] structure FramePlacement where
  position : Nat
  paddedLen : Nat
  frameHash : Hash
deriving DecidableEq

/-- The chain point the first frame of an extent continues from. -/
structure ChainPoint where
  sequence : Option CommitSequence
  administrationSequence : Option AdministrationSequence
  hash : Hash
deriving DecidableEq

@[ext] structure WalkState where
  previous : ChainPoint
  position : Nat
  origin : Option ChainPoint
  footer : Bool
  transitionCount : Nat
  commandCount : Nat
  auditCount : Nat
  encodedByteCount : Nat
  incompleteTail : Bool
deriving DecidableEq

/-- What the walk finds at one position. -/
inductive FrameReading where
  | ended
  | sealedFooter
  | incomplete
  | complete (frame : JournalFrame) (frameHash : Hash) (encodedLen paddedLen : Nat)
deriving DecidableEq

section Walk

variable (env : FrameEnv) (file : File) (extent : ExtentHeader) (walk : ExtentWalk)
  (fileBytes : Nat) (onlineSource : Bool)

/-- A header of this generation: its lengths are checked before the frame is read. -/
def readCurrentFrame (state : WalkState) (header : Bytes) : Except JournalIoError FrameReading := do
  let version ← corruptly (readU16 header 8)
  let headerBytes ← corruptly (readU16 header 10)
  let position ← corruptly (readU64 header 20)
  require (version = extentFrameVersion ∧ headerBytes = extentFrameHeaderBytes ∧
    position = state.position) .corrupt
  let encodedLen ← corruptly (readU32 header 28)
  let paddedLen ← corruptly (readU32 header 32)
  require (encodedLen ≠ 0 ∧ encodedLen ≤ maxJournalFrameBytes ∧
    extentFrameHeaderBytes + encodedLen + extentFrameFooterBytes ≤ paddedLen ∧
    extentFrameAlignment ∣ paddedLen ∧ state.position + paddedLen ≤ fileBytes) .corrupt
  require (onlineSource → state.transitionCount < sourceSuffixTransitions ∧
    state.encodedByteCount + encodedLen ≤ sourceSuffixBytes ∧
    ∃ maximum ∈ extentFrameBytes encodedLen, paddedLen ≤ maximum) .corrupt
  let recorded ← corruptly (readArray 32 header 36)
  let physical ← readExactAt file state.position paddedLen
  let decoded ← decodePhysicalFrame env physical extent.generation state.position encodedLen
    (if walk = .fromOrigin then some recorded else none) (walk ≠ .fromOrigin)
  match decoded with
  | none => .ok .incomplete
  | some (frame, frameHash) => do
    require (frameHash = recorded) .corrupt
    .ok (.complete frame frameHash encodedLen paddedLen)

def readFrame (state : WalkState) : Except JournalIoError FrameReading := do
  let header ← readExactAt file state.position extentFrameHeaderBytes
  if allZero header then .ok .ended
  else if slice header 0 8 = sealedFooterMagic then .ok .sealedFooter
  else if slice header 0 8 ≠ extentFrameMagic then .ok .incomplete
  else do
    let generation ← corruptly (readU64 header 12)
    if generation < extent.generation then .ok .ended
    else do
      require (generation = extent.generation) .corrupt
      readCurrentFrame env file extent walk fileBytes onlineSource state header

end Walk

/-- The chain point a frame says it continues from. -/
def continuesFrom (frame : JournalFrame) : ChainPoint :=
  ⟨frame.predecessorSequence, frame.predecessorAdministrationSequence, frame.previousHash⟩

/-- The chain point a frame ends at. -/
def endsAt (frame : JournalFrame) (frameHash : Hash) : ChainPoint :=
  ⟨frame.coveredSequence, frame.coveredAdministrationSequence, frameHash⟩

/-- Recovery wants the exact predecessor; a walk from the origin crosses commits that left no
frame and accepts a forward jump. The hash chain is unbroken either way. -/
def Chained (walk : ExtentWalk) (own previous : ChainPoint) : Prop :=
  own.hash = previous.hash ∧
    match walk with
    | .fromAnchor => own.sequence = previous.sequence ∧
        own.administrationSequence = previous.administrationSequence
    | .fromOrigin => sequenceValue previous.sequence ≤ sequenceValue own.sequence ∧
        sequenceValue previous.administrationSequence ≤ sequenceValue own.administrationSequence

instance (walk : ExtentWalk) (own previous : ChainPoint) :
    Decidable (Chained walk own previous) := by
  unfold Chained; cases walk <;> infer_instance

/-- The ceilings of a recovery suffix. -/
def WithinSuffix (onlineSource : Bool) (transitionCount encodedByteCount : Nat) : Prop :=
  transitionCount ≤ (if onlineSource then sourceSuffixTransitions
    else maxJournalSuffixTransitions) ∧
    encodedByteCount ≤ (if onlineSource then sourceSuffixBytes else maxJournalSuffixBytes)

instance (onlineSource : Bool) (transitionCount encodedByteCount : Nat) :
    Decidable (WithinSuffix onlineSource transitionCount encodedByteCount) := by
  unfold WithinSuffix; infer_instance

namespace WalkState

/-- The state of a walk from the origin takes its chain point from the first frame. -/
def opened (walk : ExtentWalk) (state : WalkState) (frame : JournalFrame) : WalkState :=
  if walk = .fromOrigin ∧ state.origin = none then
    { state with previous := continuesFrom frame, origin := some (continuesFrom frame) }
  else state

/-- The totals and the chain point after a complete frame. -/
def advanced (state : WalkState) (frame : JournalFrame) (frameHash : Hash)
    (encodedLen paddedLen : Nat) : WalkState :=
  { state with
    previous := endsAt frame frameHash
    position := state.position + paddedLen
    transitionCount := state.transitionCount + frame.transitionCount
    commandCount := state.commandCount + frame.commandCount
    auditCount := state.auditCount + frame.auditCount
    encodedByteCount := state.encodedByteCount + encodedLen }

def chain (extent : ExtentHeader) (walk : ExtentWalk) (onlineSource : Bool) (state : WalkState)
    (frame : JournalFrame) (frameHash : Hash) (encodedLen paddedLen : Nat) :
    Except JournalIoError WalkState := do
  let state := state.opened walk frame
  require (frame.databaseId = extent.logical.databaseId ∧
    Chained walk (continuesFrom frame) state.previous) .corrupt
  let after := state.advanced frame frameHash encodedLen paddedLen
  require (walk = .fromAnchor →
    WithinSuffix onlineSource after.transitionCount after.encodedByteCount) .corrupt
  .ok after

def start (extent : ExtentHeader) (walk : ExtentWalk) : WalkState where
  previous := ⟨extent.logical.checkpointSequence, extent.logical.checkpointAdministrationSequence,
    extent.logical.checkpointFrameHash⟩
  position := match walk with
    | .fromAnchor => extent.anchorPosition
    | .fromOrigin => extentDataOffset
  origin := none
  footer := false
  transitionCount := 0
  commandCount := 0
  auditCount := 0
  encodedByteCount := 0
  incompleteTail := false

end WalkState

section Loop

variable {σ : Type} (env : FrameEnv) (file : File) (extent : ExtentHeader) (walk : ExtentWalk)
  (fileBytes : Nat) (onlineSource : Bool)
  (visit : σ → JournalFrame → FramePlacement → Except JournalIoError σ)

/-- The loop of the walk. Every round moves on by at least one block. -/
def walkRounds : Nat → WalkState → σ → Except JournalIoError (WalkState × σ)
  | 0, state, seen => .ok (state, seen)
  | rounds + 1, state, seen =>
    if state.position < fileBytes then do
      match ← readFrame env file extent walk fileBytes onlineSource state with
      | .ended => .ok (state, seen)
      | .sealedFooter => .ok ({ state with footer := true }, seen)
      | .incomplete => .ok ({ state with incompleteTail := true }, seen)
      | .complete frame frameHash encodedLen paddedLen => do
        let after ← state.chain extent walk onlineSource frame frameHash encodedLen paddedLen
        let seen ← visit seen frame ⟨state.position, paddedLen, frameHash⟩
        walkRounds rounds after seen
    else .ok (state, seen)

def walkExtentFramesWithLimits (seen : σ) : Except JournalIoError (WalkState × σ) :=
  walkRounds env file extent walk fileBytes onlineSource visit
    (fileBytes / extentFrameAlignment + 1)
    (.start extent walk) seen

def walkExtentFrames (seen : σ) : Except JournalIoError (WalkState × σ) :=
  walkExtentFramesWithLimits env file extent walk fileBytes false visit seen

end Loop

structure JournalScanTail where
  lastSequence : Option CommitSequence
  lastAdministrationSequence : Option AdministrationSequence
  lastHash : Hash
  incompleteTail : Bool
  completeBytes : Nat
  transitionCount : Nat
  commandCount : Nat
  auditCount : Nat
deriving DecidableEq

def WalkState.tail (state : WalkState) : JournalScanTail where
  lastSequence := state.previous.sequence
  lastAdministrationSequence := state.previous.administrationSequence
  lastHash := state.previous.hash
  incompleteTail := state.incompleteTail
  completeBytes := state.position
  transitionCount := state.transitionCount
  commandCount := state.commandCount
  auditCount := state.auditCount

structure ExtentState where
  header : ExtentHeader
  nextPosition : Nat
deriving DecidableEq

/-- The recovery scan: every frame after the anchor of the selected header. -/
def scanExtent {σ : Type} (env : FrameEnv) (file : File) (expectedDatabase : Option DatabaseId)
    (visit : σ → JournalFrame → FramePlacement → Except JournalIoError σ) (seen : σ) :
    Except JournalIoError (JournalScanTail × ExtentState × σ) := do
  let extent ← readSelectedExtentHeader env file true
  require (∀ expected ∈ expectedDatabase, extent.logical.databaseId = expected) .corrupt
  let (state, seen) ← walkExtentFrames env file extent .fromAnchor
    (extentFileBytes extent.dataBytes)
    visit seen
  -- A sealed footer is never part of an active or recovering extent.
  require (state.footer = false) .corrupt
  .ok (state.tail, ⟨extent, state.position⟩, seen)

/-- A visitor that keeps every frame it is shown, in order. -/
def collect (seen : List (JournalFrame × FramePlacement)) (frame : JournalFrame)
    (placement : FramePlacement) : Except JournalIoError (List (JournalFrame × FramePlacement)) :=
  .ok (seen ++ [(frame, placement)])

end JournalExtent
