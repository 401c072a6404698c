import RiffDb.ByteReader
import RiffDb.ChangelogReceipt

/-!
# The canonical receipt encoding

A receipt is a fixed header, its mutations, and a checksum over both that doubles as the history
hash of the next receipt. The decoder refuses oversized input first, then a wrong checksum, then
anything noncanonical. A receipt whose history hash is the checksum of its own bytes decodes from
its encoding to itself, whatever the hash function is.
-/

namespace ReceiptCodec

open ByteWire ByteReader CheckedCode ReplicationTypes ChangelogHistory AuthorityCatalog
  ChangelogReceipt AuthoritativeTransactionV3 List

/-- The letters `RDBCTX03`. -/
def magic : Bytes := [0x52, 0x44, 0x42, 0x43, 0x54, 0x58, 0x30, 0x33]

def headerBytes : Nat := 128

def checksumBytes : Nat := 32

def deleteValueLength : Nat := 2 ^ 32 - 1

def zeroHash : ByteArrayOf 32 := List.Vector.replicate 32 0

/-- `u32::try_from` followed by its big-endian bytes. -/
def u32Bytes (value : Nat) : Except ChangelogV3Error Bytes :=
  if value < 2 ^ 32 then .ok (beBytes 4 value) else .error .limitExceeded

def flag (set : Bool) : Bytes := if set then [1] else [0]

def writeMutation (mutation : AuthoritativeMutationV3) : Except ChangelogV3Error Bytes := do
  let keyLen ← u32Bytes mutation.key.length
  let valueLen ← match mutation.value with
    | some value => u32Bytes value.length
    | none => .ok (beBytes 4 deleteValueLength)
  .ok (beBytes 2 mutation.domain.tag ++ (flag mutation.value.isNone ++
    (flag mutation.expectedHash.isSome ++ (keyLen ++ (valueLen ++
    ((mutation.expectedHash.getD zeroHash).toList ++ (mutation.key ++ mutation.value.getD [])))))))

variable (env : Hashing) (binding : AuthoritativeTransactionBindingV3)
  (attribution : ChangelogAttributionV3)

variable (mutations : List AuthoritativeMutationV3)

def writeCanonical : Except ChangelogV3Error Bytes := do
  let total := AuthoritativeTransactionV3.receiptLen mutations
  require (total ≤ maxReceiptBytes) .limitExceeded
  let count ← u32Bytes mutations.length
  let payloadLen ← u32Bytes (total - headerBytes - checksumBytes)
  let rows ← mutations.mapM writeMutation
  .ok (magic ++ (beBytes 2 3 ++ (binding.databaseId.intoBytes.toList ++
    (beBytes 8 binding.historyIncarnation.toNat ++ (beBytes 8 (sequenceValue binding.predecessor) ++
    (binding.sequence.toBeBytes ++ (binding.predecessorFrontier.canonicalArray.toList ++
    (binding.coveredFrontier.canonicalArray.toList ++ (beBytes 2 attribution.tag ++
    (binding.priorHistoryHash.toList ++ (count ++ (payloadLen ++ rows.flatten))))))))))))

/-- The constructor behind creation and decoding. Without a verified hash it is computed. -/
def newWithHistoryHash (verified : Option (ByteArrayOf 32)) :
    Except ChangelogV3Error AuthoritativeTransactionV3 :=
  match shaped : AuthoritativeTransactionV3.validateShape binding attribution mutations.length
      none with
  | .error reason => .error reason
  | .ok () =>
    if ordered : mutations.IsChain AuthoritativeMutationV3.Precedes then
      if bounded : AuthoritativeTransactionV3.receiptLen mutations ≤ maxReceiptBytes ∧
          AuthoritativeTransactionV3.bindingTransitionCount binding attribution ≤
            maxStagedCommands then do
        let historyHash ← match verified with
          | some hash => .ok hash
          | none => (writeCanonical binding attribution mutations).map env.sha256
        .ok ⟨binding, attribution, mutations, historyHash, shaped, ordered, bounded.1⟩
      else .error .limitExceeded
    else .error .invalidEncoding

/-- A receipt created from its parts. -/
def new : Except ChangelogV3Error AuthoritativeTransactionV3 :=
  newWithHistoryHash env binding attribution mutations none

def encode (receipt : AuthoritativeTransactionV3) : Except ChangelogV3Error Bytes := do
  let canonical ← writeCanonical receipt.binding receipt.attribution receipt.mutations
  .ok (canonical ++ receipt.historyHash.toList)

/-- The presence byte and the hash must agree on absence. -/
def expectedOf (present : Nat) (hash : ByteArrayOf 32) :
    Except ChangelogV3Error (Option (ByteArrayOf 32)) :=
  if present = 0 ∧ hash = zeroHash then .ok none
  else if present = 1 then .ok (some hash)
  else .error .invalidEncoding

def readValue (operation valueLen : Nat) (expected : Option (ByteArrayOf 32)) :
    Reader ChangelogV3Error (Option Bytes) :=
  if operation = 0 ∧ valueLen ≠ deleteValueLength then do
    let value ← take .invalidEncoding valueLen
    pure (some value)
  else if operation = 1 ∧ valueLen = deleteValueLength ∧ expected.isSome = true then pure none
  else check (.error .invalidEncoding)

/-- The fields of one mutation, before it is formed. -/
structure MutationFields where
  domain : AuthoritativeNamespaceV3
  key : Bytes
  expected : Option (ByteArrayOf 32)
  value : Option Bytes

def readMutation : Reader ChangelogV3Error MutationFields := do
  let tag ← word .invalidEncoding 2
  let domain ← check (okOr (byTag .v3 tag) .invalidNamespace)
  let operation ← word .invalidEncoding 1
  let present ← word .invalidEncoding 1
  let keyLen ← word .invalidEncoding 4
  let valueLen ← word .invalidEncoding 4
  let hash ← array .invalidEncoding 32
  let expected ← check (expectedOf present hash)
  let key ← take .invalidEncoding keyLen
  let value ← readValue operation valueLen expected
  let _ ← check (AuthoritativeMutationV3.validate domain key (value.elim 0 List.length))
  pure ⟨domain, key, expected, value⟩

def formMutation (fields : MutationFields) : Except ChangelogV3Error AuthoritativeMutationV3 :=
  match fields.value, fields.expected with
  | some value, expected => AuthoritativeMutationV3.put fields.domain fields.key expected value
  | none, some hash => AuthoritativeMutationV3.delete fields.domain fields.key hash
  | none, none => .error .invalidEncoding

def decodeMutation : Reader ChangelogV3Error AuthoritativeMutationV3 := do
  let fields ← readMutation
  check (formMutation fields)

/-- The fields of the fixed receipt header. -/
structure Header where
  binding : AuthoritativeTransactionBindingV3
  attribution : ChangelogAttributionV3
  count : Nat
  payloadLen : Nat

def invalid {δ α : Type} (value : Except δ α) : Except ChangelogV3Error α :=
  value.mapError fun _ => .invalidEncoding

def readHeader : Reader ChangelogV3Error Header := do
  let letters ← take .invalidEncoding 8
  let version ← word .invalidEncoding 2
  let _ ← check (require (letters = magic ∧ version = 3) .invalidEncoding : Except _ Unit)
  let databaseBytes ← array .invalidEncoding 16
  let databaseId ← check (invalid (UuidV7.fromBytes databaseBytes))
  let historyIncarnation ← word .invalidEncoding 8
  let predecessor ← word .invalidEncoding 8
  let rawSequence ← word .invalidEncoding 8
  let sequence ← check (okOr (NonZeroU64.new rawSequence) .invalidEncoding)
  let predecessorBytes ← array .invalidEncoding 18
  let predecessorFrontier ← check (invalid (DualFrontier.fromCanonicalBytes predecessorBytes))
  let coveredBytes ← array .invalidEncoding 18
  let coveredFrontier ← check (invalid (DualFrontier.fromCanonicalBytes coveredBytes))
  let tag ← word .invalidEncoding 2
  let attribution ← check (okOr (ChangelogAttributionV3.fromTag tag) .invalidEncoding)
  let priorHistoryHash ← array .invalidEncoding 32
  let count ← word .invalidEncoding 4
  let payloadLen ← word .invalidEncoding 4
  pure ⟨⟨databaseId, UInt64.ofNat historyIncarnation, NonZeroU64.new predecessor, sequence,
    predecessorFrontier, coveredFrontier, priorHistoryHash⟩, attribution, count, payloadLen⟩

/-- Sizes and checksum come first; the rest is the header and the bytes of the mutations. -/
def receiptHeader (bytes : Bytes) : Except ChangelogV3Error (Header × Bytes) := do
  require (bytes.length ≤ maxReceiptBytes) .limitExceeded
  require (headerBytes + checksumBytes ≤ bytes.length) .invalidEncoding
  let payloadEnd := bytes.length - checksumBytes
  require (bytes.drop payloadEnd = (env.sha256 (bytes.take payloadEnd)).toList) .invalidEncoding
  let (header, remaining) ← readHeader (bytes.take payloadEnd)
  require (header.count ≤ maxChangelogFrameEntries) .limitExceeded
  require (header.payloadLen = remaining.length ∧ header.count ≤ header.payloadLen / 45)
    .invalidEncoding
  .ok (header, remaining)

def decode (bytes : Bytes) : Except ChangelogV3Error AuthoritativeTransactionV3 := do
  let (header, remaining) ← receiptHeader env bytes
  let (mutations, left) ← repeated decodeMutation header.count remaining
  require (left = []) .invalidEncoding
  let checksum ← okOr (arrayOf 32 (bytes.drop (bytes.length - checksumBytes))) .invalidEncoding
  newWithHistoryHash env header.binding header.attribution mutations (some checksum)

def valueLength (mutation : AuthoritativeMutationV3) : Nat :=
  mutation.value.elim deleteValueLength List.length

def mutationBytes (mutation : AuthoritativeMutationV3) : Bytes :=
  beBytes 2 mutation.domain.tag ++ (flag mutation.value.isNone ++
    (flag mutation.expectedHash.isSome ++ (beBytes 4 mutation.key.length ++
    (beBytes 4 (valueLength mutation) ++ ((mutation.expectedHash.getD zeroHash).toList ++
    (mutation.key ++ mutation.value.getD []))))))

theorem u32Bytes_eq {value : Nat} (fits : value < 2 ^ 32) :
    u32Bytes value = .ok (beBytes 4 value) := if_pos fits

@[simp] theorem length_flag (set : Bool) : (flag set).length = 1 := by cases set <;> rfl

theorem flag_eq (set : Bool) : flag set = beBytes 1 set.toNat := by cases set <;> rfl

section

variable (mutation : AuthoritativeMutationV3)

include mutation

theorem key_lt : mutation.key.length < 2 ^ 32 := by
  have bound := mutation.encodedLen_le
  simp only [AuthoritativeMutationV3.encodedLen, maxChangelogFrameBytes] at bound
  omega

theorem value_lt {value : Bytes}
    (holds : mutation.value = some value) : value.length < deleteValueLength := by
  have bound := mutation.encodedLen_le
  simp only [AuthoritativeMutationV3.encodedLen, holds, Option.elim,
    maxChangelogFrameBytes] at bound
  simp only [deleteValueLength]
  omega

theorem valueLength_lt : valueLength mutation < 2 ^ 32 := by
  unfold valueLength
  cases holds : mutation.value with
  | none => decide
  | some value =>
    have bound := value_lt mutation holds
    simp only [deleteValueLength] at bound
    simp only [Option.elim]
    omega

theorem writeMutation_eq : writeMutation mutation = .ok (mutationBytes mutation) := by
  have keyLen := u32Bytes_eq (key_lt mutation)
  unfold writeMutation mutationBytes valueLength
  cases holds : mutation.value with
  | none =>
    rw [keyLen]
    rfl
  | some value =>
    have bound := value_lt mutation holds
    have valueLen : u32Bytes value.length = .ok (beBytes 4 value.length) :=
      u32Bytes_eq (by simp only [deleteValueLength] at bound; omega)
    simp only [keyLen, valueLen, ok_bind]
    rfl

theorem length_mutationBytes : (mutationBytes mutation).length = mutation.encodedLen := by
  simp only [mutationBytes, AuthoritativeMutationV3.encodedLen, length_append, length_beBytes,
    length_flag, List.Vector.toList_length]
  cases mutation.value with
  | none => simp only [Option.getD_none, length_nil, Option.elim]; omega
  | some value => simp only [Option.getD_some, Option.elim]; omega

end

variable {hash : ByteArrayOf 32} {expected : Option (ByteArrayOf 32)}

theorem expectedOf_eq_ok {present : Nat} :
    expectedOf present hash = .ok expected ↔
      present = expected.isSome.toNat ∧ hash = expected.getD zeroHash := by
  unfold expectedOf
  cases expected <;> grind

variable {input rest : Bytes}

/-- A put reads as many bytes as its length says; a delete has the reserved length and no bytes. -/
theorem readValue_eq_ok {operation valueLen : Nat} {value : Option Bytes} :
    readValue operation valueLen expected input = .ok (value, rest) ↔
      operation = value.isNone.toNat ∧ valueLen = value.elim deleteValueLength List.length ∧
      (∀ bytes, value = some bytes → bytes.length ≠ deleteValueLength) ∧
      (value = none → expected.isSome = true) ∧ input = value.getD [] ++ rest := by
  unfold readValue
  split
  · next put =>
    simp only [bind_pure_comp, read_map_eq_ok, take_eq_ok]
    cases value <;> simp <;> grind
  · split
    · next delete =>
      rw [read_pure_eq_ok]
      cases value <;> simp <;> grind
    · next other =>
      rw [check_eq_ok]
      cases value <;> simp <;> grind

theorem formMutation_eq_ok {fields : MutationFields} {mutation : AuthoritativeMutationV3} :
    formMutation fields = .ok mutation ↔ mutation.domain = fields.domain ∧
      mutation.key = fields.key ∧
      mutation.expectedHash = fields.expected ∧ mutation.value = fields.value := by
  obtain ⟨domain, key, expected, value⟩ := fields
  cases value with
  | some value => exact AuthoritativeMutationV3.put_eq_ok
  | none =>
    cases expected with
    | some hash => exact AuthoritativeMutationV3.delete_eq_ok
    | none =>
      refine ⟨nofun, fun ⟨_, _, absent, deleted⟩ => absurd absent (mutation.deletes deleted)⟩

variable {tag : Nat}

theorem byTag_eq_some {domain : AuthoritativeNamespaceV3} :
    byTag .v3 tag = some domain ↔ domain.tag = tag := by
  constructor
  · intro found
    simpa using List.find?_some found
  · rintro rfl
    exact byTag_tag domain

/-- A mutation is accepted from its own bytes and from no others. -/
theorem decodeMutation_exact : Exact decodeMutation (fun _ => True) mutationBytes := by
  intro input mutation rest
  simp only [decodeMutation, readMutation, read_bind_eq_ok, word_eq_ok, array_eq_ok, take_eq_ok,
    check_eq_ok, okOr_eq_ok, read_pure_eq_ok, byTag_eq_some, expectedOf_eq_ok, readValue_eq_ok,
    formMutation_eq_ok]
  constructor
  · rintro ⟨fields, _, ⟨tag, _, ⟨_, rfl⟩, domain, _, ⟨rfl, rfl⟩, operation, _, ⟨_, rfl⟩, present, _,
      ⟨_, rfl⟩, read⟩, ⟨sameDomain, sameKey, sameExpected, sameValue⟩, rfl⟩
    obtain ⟨keyLen, _, ⟨_, rfl⟩, valueLen, _, ⟨_, rfl⟩, hash, _, rfl, expected, _,
      ⟨⟨rfl, rfl⟩, rfl⟩,
      key, _, ⟨rfl, rfl⟩, value, _, ⟨rfl, rfl, _, _, rfl⟩, _, _, ⟨_, rfl⟩, rfl, rfl⟩ := read
    refine ⟨trivial, ?_⟩
    simp only [mutationBytes, valueLength, flag_eq, sameDomain, sameKey, sameExpected, sameValue,
      append_assoc]
  · rintro ⟨_, rfl⟩
    have flagFits : ∀ set : Bool, set.toNat < 256 ^ 1 := by decide
    have tagFits : mutation.domain.tag < 256 ^ 2 := (tag_lt mutation.domain).trans (by decide)
    have present := fun absent => Option.isSome_iff_ne_none.mpr (mutation.deletes absent)
    have short := fun bytes (holds : mutation.value = some bytes) => (value_lt mutation holds).ne
    simp only [mutationBytes, flag_eq, append_assoc]
    exact ⟨⟨mutation.domain, mutation.key, mutation.expectedHash, mutation.value⟩, rest,
      ⟨_, _, ⟨tagFits, rfl⟩, _, _, ⟨rfl, rfl⟩, _, _, ⟨flagFits _, rfl⟩, _, _,
      ⟨flagFits _, rfl⟩, _, _,
        ⟨key_lt mutation, rfl⟩, _, _, ⟨valueLength_lt mutation, rfl⟩, _, _, rfl, _, _,
        ⟨⟨rfl, rfl⟩, rfl⟩, _, _, ⟨rfl, rfl⟩, _, _, ⟨rfl, rfl, short, present, rfl⟩, _, _,
        ⟨mutation.valid, rfl⟩, rfl, rfl⟩, ⟨rfl, rfl, rfl, rfl⟩, rfl⟩

/-- The bytes of a decoded receipt header. -/
def headerBytesOf (header : Header) : Bytes :=
  magic ++ (beBytes 2 3 ++ (header.binding.databaseId.intoBytes.toList ++
    (beBytes 8 header.binding.historyIncarnation.toNat ++
    (beBytes 8 (sequenceValue header.binding.predecessor) ++ (header.binding.sequence.toBeBytes ++
    (header.binding.predecessorFrontier.canonicalArray.toList ++
    (header.binding.coveredFrontier.canonicalArray.toList ++ (beBytes 2 header.attribution.tag ++
    (header.binding.priorHistoryHash.toList ++ (beBytes 4 header.count ++
    beBytes 4 header.payloadLen))))))))))

def headerLayout : Bytes :=
  headerBytesOf ⟨binding, attribution, mutations.length,
    AuthoritativeTransactionV3.receiptLen mutations - headerBytes - checksumBytes⟩

/-- The bytes the checksum covers. -/
def canonicalBytes (receipt : AuthoritativeTransactionV3) : Bytes :=
  headerLayout receipt.binding receipt.attribution receipt.mutations ++
    receipt.mutations.flatMap mutationBytes

/-- The retained hash is the checksum of the receipt's own bytes. -/
def IsSealed (receipt : AuthoritativeTransactionV3) : Prop :=
  receipt.historyHash = env.sha256 (canonicalBytes receipt)

instance (env : Hashing) (receipt : AuthoritativeTransactionV3) :
    Decidable (IsSealed env receipt) := inferInstanceAs (Decidable (_ = _))

/-- Zero is the absent sequence, and every other word is a sequence. -/
theorem sequenceValue_new {raw : Nat} (fits : raw < 256 ^ 8) :
    sequenceValue (NonZeroU64.new raw) = raw := by
  unfold NonZeroU64.new
  split
  · rfl
  · next invalid =>
    have zero : raw = 0 := by omega
    rw [zero]
    rfl

theorem new_sequenceValue (sequence : Option NonZeroU64) :
    NonZeroU64.new (sequenceValue sequence) = sequence := by
  cases sequence with
  | none => rfl
  | some value => exact NonZeroU64.new_get value

open ChangelogAttributionV3

variable {attribution : ChangelogAttributionV3}

theorem fromTag_eq_some : fromTag tag = some attribution ↔ attribution.tag = tag := by
  constructor
  · intro found
    simpa using List.find?_some found
  · rintro rfl
    exact fromTag_tag _

/-- A header is accepted from its own bytes and from no others. -/
theorem readHeader_exact : Exact readHeader
    (fun header => header.count < 2 ^ 32 ∧ header.payloadLen < 2 ^ 32) headerBytesOf := by
  intro input header rest
  simp only [readHeader, read_bind_eq_ok, take_eq_ok, word_eq_ok, array_eq_ok, check_eq_ok,
    require_eq_ok, okOr_eq_ok, read_pure_eq_ok, invalid, mapError_eq_ok, UuidV7.fromBytes_eq_ok,
    NonZeroU64.new_eq_some, DualFrontier.fromCanonicalBytes_eq_ok, fromTag_eq_some]
  constructor
  · rintro ⟨letters, _, ⟨_, rfl⟩, version, _, ⟨_, rfl⟩, _, _, ⟨⟨rfl, rfl⟩, rfl⟩,
      databaseBytes, _, rfl, databaseId, _, ⟨rfl, rfl⟩, read⟩
    obtain ⟨incarnation, _, ⟨incarnationFits, rfl⟩, predecessor, _, ⟨predecessorFits, rfl⟩, _, _,
      ⟨_, rfl⟩, sequence, _, ⟨rfl, rfl⟩, read⟩ := read
    obtain ⟨predecessorBytes, _, rfl, predecessorFrontier, _, ⟨rfl, rfl⟩, coveredBytes, _, rfl,
      coveredFrontier, _, ⟨rfl, rfl⟩, read⟩ := read
    obtain ⟨tag, _, ⟨_, rfl⟩, attribution, _, ⟨rfl, rfl⟩, priorHistoryHash, _, rfl, count, _,
      ⟨countFits, rfl⟩, payloadLen, _, ⟨payloadFits, rfl⟩, rfl, rfl⟩ := read
    refine ⟨⟨countFits, payloadFits⟩, ?_⟩
    have incarnationBack : (UInt64.ofNat incarnation).toNat = incarnation :=
      UInt64.toNat_ofNat_of_lt' incarnationFits
    simp only [headerBytesOf, incarnationBack, sequenceValue_new predecessorFits,
      NonZeroU64.toBeBytes, append_assoc]
  · rintro ⟨⟨countFits, payloadFits⟩, rfl⟩
    obtain ⟨binding, attribution, count, payloadLen⟩ := header
    have predecessorFits : sequenceValue binding.predecessor < 256 ^ 8 := by
      simpa using sequenceValue_fits binding.predecessor
    have sequenceFits : binding.sequence.get < 256 ^ 8 := by simpa using binding.sequence.fits
    have tagFits : attribution.tag < 256 ^ 2 := attribution.tag_le.trans_lt (by decide)
    simp only [headerBytesOf, append_assoc]
    exact ⟨magic, _, ⟨rfl, rfl⟩, 3, _, ⟨by decide, rfl⟩, ⟨⟩, _, ⟨⟨rfl, rfl⟩, rfl⟩, _, _, rfl, _, _,
      ⟨rfl, rfl⟩, _, _, ⟨binding.historyIncarnation.toNat_lt, rfl⟩, _, _,
      ⟨predecessorFits, rfl⟩, _, _,
      ⟨sequenceFits, rfl⟩, _, _, ⟨rfl, rfl⟩, _, _, rfl, _, _, ⟨rfl, rfl⟩, _, _, rfl, _,
      _, ⟨rfl, rfl⟩,
      _, _, ⟨tagFits, rfl⟩, _, _, ⟨rfl, rfl⟩, _, _, rfl, _, _, ⟨countFits, rfl⟩, _, _,
      ⟨payloadFits, rfl⟩, by rw [new_sequenceValue, UInt64.ofNat_toNat], rfl⟩

theorem length_headerLayout :
    (headerLayout binding attribution mutations).length = headerBytes := by
  have letters : magic.length = 8 := by decide
  simp [headerLayout, headerBytesOf, headerBytes, letters]

theorem length_flatMap_mutationBytes : (mutations.flatMap mutationBytes).length =
      receiptLen mutations - headerBytes - checksumBytes := by
  have each : mutations.map (fun mutation => (mutationBytes mutation).length) =
      mutations.map AuthoritativeMutationV3.encodedLen :=
    map_congr_left fun mutation _ => length_mutationBytes mutation
  simp only [length_flatMap, each, receiptLen, headerBytes, checksumBytes]
  omega

/-- Every mutation takes at least forty-five bytes, so the count is bounded by the payload. -/
theorem count_le_payload : mutations.length ≤ (mutations.flatMap mutationBytes).length / 45 := by
  refine length_le_div_flatMap (by decide) fun mutation _ => ?_
  rw [length_mutationBytes]
  have key := mutation.key_pos
  simp only [AuthoritativeMutationV3.encodedLen]
  omega

section

variable (receipt : AuthoritativeTransactionV3)

include receipt

theorem receiptLen_lt : receiptLen receipt.mutations < 2 ^ 32 :=
  receipt.bounded.trans_lt (by decide)

theorem length_lt : receipt.mutations.length < 2 ^ 32 :=
  receipt.count_le.trans_lt (by decide)

theorem writeCanonical_eq :
    writeCanonical receipt.binding receipt.attribution receipt.mutations =
      .ok (canonicalBytes receipt) := by
  have total := receiptLen_lt receipt
  have payload : u32Bytes (receiptLen receipt.mutations - headerBytes -
      checksumBytes) = .ok (beBytes 4 _) := u32Bytes_eq (by omega)
  have rows := mapM_eq_map fun mutation (_ : mutation ∈ receipt.mutations) =>
    writeMutation_eq mutation
  simp only [writeCanonical, require_pos receipt.bounded, u32Bytes_eq (length_lt receipt), payload,
    rows, ok_bind, canonicalBytes, headerLayout, headerBytesOf, append_assoc, flatMap_def]

theorem encode_eq :
    encode receipt = .ok (canonicalBytes receipt ++ receipt.historyHash.toList) := by
  rw [encode, writeCanonical_eq]
  rfl

theorem length_canonicalBytes :
    (canonicalBytes receipt).length + checksumBytes = receipt.encodedLen := by
  rw [canonicalBytes, length_append, length_headerLayout, length_flatMap_mutationBytes]
  simp only [encodedLen, receiptLen, headerBytes, checksumBytes]
  omega

end

variable {env : Hashing} {binding : AuthoritativeTransactionBindingV3}
  {mutations : List AuthoritativeMutationV3}

theorem newWithHistoryHash_eq_ok {receipt : AuthoritativeTransactionV3} :
    newWithHistoryHash env binding attribution mutations (some hash) = .ok receipt ↔
      receipt.binding = binding ∧ receipt.attribution = attribution ∧
        receipt.mutations = mutations ∧ receipt.historyHash = hash := by
  unfold newWithHistoryHash
  constructor
  · intro formed
    split at formed
    · cases formed
    · split at formed
      · split at formed
        · cases formed
          exact ⟨rfl, rfl, rfl, rfl⟩
        · cases formed
      · cases formed
  · rintro ⟨rfl, rfl, rfl, rfl⟩
    split
    · next refused => cases receipt.shaped.symm.trans refused
    · rw [dif_pos receipt.ordered, dif_pos ⟨receipt.bounded, receipt.transitionCount_le⟩]
      rfl

variable {receipt : AuthoritativeTransactionV3}

/-- A sealed receipt decodes from its encoding, and nothing else is accepted. -/
theorem decode_eq_ok {bytes : Bytes} : decode env bytes = .ok receipt ↔
    IsSealed env receipt ∧ bytes = canonicalBytes receipt ++ receipt.historyHash.toList := by
  simp only [decode, receiptHeader, bind_eq_ok, require_eq_ok, okOr_eq_ok,
    arrayOf_eq_some, Prod.exists,
    newWithHistoryHash_eq_ok, Except.ok.injEq, Prod.mk.injEq, readHeader_exact _ _ _,
    decodeMutation_exact.repeated, exists_and_left, exists_const]
  constructor
  · rintro ⟨header, _, ⟨_, _, hashed, _, _, ⟨_, read⟩, _, ⟨sized, _⟩, rfl, rfl⟩, _, _,
      ⟨counted, _, rfl⟩, rfl, checksum, summed, sameBinding, sameAttribution, rfl, rfl⟩
    have canonical : bytes.take (bytes.length - checksumBytes) = canonicalBytes receipt := by
      rw [append_nil, length_flatMap_mutationBytes] at sized
      rw [read, append_nil, canonicalBytes, headerLayout, counted, ← sized, sameBinding,
        sameAttribution]
    refine ⟨List.Vector.eq _ _ ?_, ?_⟩
    · rw [summed, hashed, canonical]
    · rw [summed, ← canonical, take_append_drop]
  · rintro ⟨isSealed, rfl⟩
    let bytes := canonicalBytes receipt ++ receipt.historyHash.toList
    have split : bytes.length - checksumBytes = (canonicalBytes receipt).length := by
      simp [bytes, checksumBytes]
    have front : bytes.take (bytes.length - checksumBytes) = canonicalBytes receipt := by
      rw [split, take_left]
    have back : bytes.drop (bytes.length - checksumBytes) = receipt.historyHash.toList := by
      rw [split, drop_left]
    have total : bytes.length = receipt.encodedLen := by
      rw [← length_canonicalBytes]
      simp [bytes, checksumBytes]
    have upper : bytes.length ≤ maxReceiptBytes := total ▸ receipt.bounded
    have lower : headerBytes + checksumBytes ≤ bytes.length := by
      rw [total]
      simp only [encodedLen, receiptLen, headerBytes, checksumBytes]
      omega
    have checksum : bytes.drop (bytes.length - checksumBytes) =
        (env.sha256 (bytes.take (bytes.length - checksumBytes))).toList := by
      rw [front, back, isSealed]
    have payloadFits : receiptLen receipt.mutations - headerBytes - checksumBytes < 2 ^ 32 := by
      have total := receiptLen_lt receipt
      omega
    have sizes := length_flatMap_mutationBytes receipt.mutations
    have counted := count_le_payload receipt.mutations
    rw [sizes] at counted
    let header : Header := ⟨receipt.binding, receipt.attribution, receipt.mutations.length,
      receiptLen receipt.mutations - headerBytes - checksumBytes⟩
    exact ⟨header, _, ⟨upper, lower, checksum, header, _, ⟨⟨length_lt receipt, payloadFits⟩, front⟩,
      receipt.count_le, ⟨sizes.symm, counted⟩, rfl, rfl⟩, receipt.mutations, [],
      ⟨rfl, fun _ _ => trivial, (append_nil _).symm⟩, rfl, _, back.symm, rfl, rfl, rfl, rfl⟩

/-- Every receipt created from its parts is sealed. -/
theorem new_isSealed (created : new env binding attribution mutations = .ok receipt) :
    IsSealed env receipt := by
  unfold new newWithHistoryHash at created
  split at created
  · cases created
  · split at created
    · split at created
      · rw [bind_eq_ok] at created
        obtain ⟨historyHash, hashed, formed⟩ := created
        obtain ⟨canonical, written, rfl⟩ := map_eq_ok.mp hashed
        cases formed
        have layout := writeCanonical_eq (.mk binding attribution mutations
          (env.sha256 canonical) ‹_› ‹_› (And.left ‹_›))
        rw [written] at layout
        exact congrArg env.sha256 (Except.ok.inj layout)
      · cases created
    · cases created

end ReceiptCodec
