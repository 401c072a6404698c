import RiffDb.ReplicationQuorum

/-!
# The epoch-vote wire layouts

Both messages of the vote exchange have an encoder that appends fields and a decoder that slices at
fixed offsets; the layouts are compared byte for byte.

The vote layout agrees with its decoder. The request layout does not: the encoder writes 169 bytes
and the decoder demands 161, with the last position component read from the bytes of the checksum.
-/

namespace EpochVoteWire

open ByteWire CheckedCode ReplicationTypes ReplicationQuorum ReplicationEpochVoteV1
  ReplicationEpochVotePositionV1
open QuorumFenceCertificateError

variable {bytes : Bytes}

theorem readU64_eq_ok {start stop raw : Nat} : readU64 bytes start stop = .ok raw ↔
      (slice bytes start stop).length = 8 ∧ beValue (slice bytes start stop) = raw := by
  simp only [readU64, bind_eq_ok, okOr_eq_ok, arrayOf_eq_some, Except.ok.injEq]
  constructor
  · rintro ⟨word, bytesEq, rfl⟩
    rw [← bytesEq]
    exact ⟨word.toList_length, rfl⟩
  · rintro ⟨width, rfl⟩
    exact ⟨⟨_, width⟩, rfl, rfl⟩

variable {value : NonZeroU64}

theorem slice_eq_toBeBytes :
    bytes.length = 8 ∧ beValue bytes = value.get ↔ bytes = value.toBeBytes := by
  constructor
  · rintro ⟨width, equal⟩
    rw [NonZeroU64.toBeBytes, ← equal, ← width, beBytes_beValue]
  · rintro rfl
    exact ⟨value.length_toBeBytes, value.beValue_toBeBytes⟩

variable {start stop : Nat}

theorem readNonZeroU64_eq_ok : readNonZeroU64 bytes start stop = .ok value ↔
      slice bytes start stop = value.toBeBytes := by
  simp only [readNonZeroU64, bind_eq_ok, okOr_eq_ok, NonZeroU64.new_eq_some, readU64_eq_ok]
  rw [← slice_eq_toBeBytes]
  constructor
  · rintro ⟨raw, ⟨width, equal⟩, same⟩
    exact ⟨width, equal.trans same.symm⟩
  · rintro ⟨width, equal⟩
    exact ⟨value.get, ⟨width, equal⟩, rfl⟩

theorem readHoldId_eq_ok {hold : ReplicationSourceHoldIdV1} :
    readHoldId bytes start stop = .ok hold ↔ slice bytes start stop = hold.asBytes.toList := by
  simp only [readHoldId, bind_eq_ok, okOr_eq_ok, arrayOf_eq_some,
    ReplicationSourceHoldIdV1.new_eq_some, exists_eq_right']
  exact eq_comm

theorem readUuid_eq_ok {id : UuidV7} :
    readUuid bytes start stop = .ok id ↔ slice bytes start stop = id.intoBytes.toList := by
  simp only [readUuid, bind_eq_ok, okOr_eq_ok, arrayOf_eq_some, mapError_eq_ok,
    UuidV7.fromBytes_eq_ok, exists_eq_right']
  exact eq_comm

variable {sequence : Option NonZeroU64}

theorem optionalSequence_eq_ok {raw : Nat} :
    optionalSequence raw = .ok sequence ↔ raw = sequenceValue sequence := by
  unfold optionalSequence
  by_cases zero : raw = 0
  · subst zero
    rw [if_pos rfl, Except.ok.injEq]
    constructor
    · rintro rfl; rfl
    · intro equal; exact sequenceValue_injective equal
  · rw [if_neg zero]
    simp only [map_eq_ok, okOr_eq_ok, NonZeroU64.new_eq_some]
    constructor
    · rintro ⟨value, rfl, rfl⟩; rfl
    · intro equal
      cases sequence with
      | none => exact False.elim (zero equal)
      | some value => exact ⟨value, equal.symm, rfl⟩

/-- A word read at a fixed offset and taken as an optional sequence is the component's own
eight bytes. -/
theorem sequence_bytes :
    bytes.length = 8 ∧ beValue bytes = sequenceValue sequence ↔
      bytes = beBytes 8 (sequenceValue sequence) := by
  constructor
  · rintro ⟨width, equal⟩
    rw [← equal, ← width, beBytes_beValue]
  · rintro rfl
    exact ⟨length_beBytes _ _, beValue_beBytes (by simpa using sequenceValue_fits sequence)⟩

@[simp] theorem length_encodeInto (position : ReplicationEpochVotePositionV1) :
    position.encodeInto.length = 56 := by
  simp [encodeInto]

/-- A position is decoded from its own encoding and from nothing else. -/
theorem decodeFrom_eq_ok {position : ReplicationEpochVotePositionV1} :
    decodeFrom bytes = .ok position ↔ bytes = position.encodeInto := by
  simp only [decodeFrom, bind_eq_ok, require_eq_ok,
    readNonZeroU64_eq_ok, okOr_eq_ok, arrayOf_eq_some, readU64_eq_ok, optionalSequence_eq_ok,
    Except.ok.injEq]
  constructor
  · rintro ⟨_, width, sequence, sequenceEq, hash, hashEq, rawApp, ⟨appWidth, appEq⟩, rawAdmin,
      ⟨adminWidth, adminEq⟩, app, rfl, admin, rfl, rfl⟩
    have appBytes := sequence_bytes.mp ⟨appWidth, appEq⟩
    have adminBytes := sequence_bytes.mp ⟨adminWidth, adminEq⟩
    rw [encodeInto, ← sequenceEq, hashEq, ← appBytes, ← adminBytes,
      slice_append_slice (by omega) (by omega), slice_append_slice (by omega) (by omega),
      slice_append_slice (by omega) (by omega), ← width, slice_zero_length]
  · rintro rfl
    have fields : slice position.encodeInto 0 8 = position.transactionSequence.toBeBytes ∧
        slice position.encodeInto 8 40 = position.historyHash.toList ∧
        slice position.encodeInto 40 48 = beBytes 8 (sequenceValue position.frontier.application) ∧
        slice position.encodeInto 48 56 =
          beBytes 8 (sequenceValue position.frontier.administration) := by
      simp [encodeInto, slice_append_right, slice_append_left, slice_whole]
    obtain ⟨sequence, hash, app, admin⟩ := fields
    exact ⟨⟨⟩, length_encodeInto position, _, sequence, _, hash.symm, _,
      by rw [app]; exact sequence_bytes.mpr rfl, _, by rw [admin]; exact sequence_bytes.mpr rfl,
      _, rfl, _, rfl, rfl⟩

theorem readGranted_eq_ok {granted : Bool} (width : bytes.length = 218) :
    readGranted bytes = .ok granted ↔
      slice bytes 185 186 = [if granted then 1 else 0] := by
  have inside : 185 < bytes.length := by omega
  have single : slice bytes 185 186 = [bytes[185]] := by
    rw [slice, List.drop_eq_getElem_cons inside]
    rfl
  simp only [readGranted, List.getElem?_eq_getElem inside, single]
  generalize bytes[185] = byte
  constructor
  · intro found
    split at found
    · rename_i zero
      cases found
      simpa using zero
    · rename_i one
      cases found
      simpa using one
    · cases found
  · intro equal
    cases granted <;> simp_all

theorem length_votePayload (vote : ReplicationEpochVoteV1) : vote.payload.length = 186 := by
  simp [payload]

theorem length_requestPayload (request : ReplicationEpochVoteRequestV1) :
    request.payload.length = 137 := by
  simp [ReplicationEpochVoteRequestV1.payload]

section Layouts

variable (sha256 : Bytes → ByteArrayOf 32)

theorem length_encodeV1_request (request : ReplicationEpochVoteRequestV1) :
    (request.encodeV1 sha256).length = 169 := by
  simp [ReplicationEpochVoteRequestV1.encodeV1, length_requestPayload]

theorem length_encodeV1_vote (vote : ReplicationEpochVoteV1) :
    (vote.encodeV1 sha256).length = 218 := by
  simp [encodeV1, length_votePayload]

variable {sha256}
variable {bytes : Bytes}

theorem decodeV1_vote_bytes {vote : ReplicationEpochVoteV1}
    (accepted : decodeV1 sha256 bytes = .ok vote) : bytes = vote.encodeV1 sha256 := by
  simp only [decodeV1, bind_eq_ok, require_eq_ok, readHoldId_eq_ok,
    readUuid_eq_ok, readU64_eq_ok, readNonZeroU64_eq_ok, decodeFrom_eq_ok, okOr_eq_ok,
    new_eq_some] at accepted
  obtain ⟨_, ⟨width, magic⟩, _, checksum, voter, voterEq, database, databaseEq, raw,
    ⟨rawWidth, rawEq⟩, promised, promisedEq, candidate, candidateEq, candidateAt, candidateAtEq,
    voterAt, voterAtEq, granted, grantedEq, rfl, rfl, rawSame, rfl, rfl, rfl, rfl, rfl⟩ := accepted
  rw [readGranted_eq_ok width] at grantedEq
  have incarnationEq := slice_eq_toBeBytes.mp ⟨rawWidth, rawEq.trans rawSame⟩
  have payloadEq : vote.payload = slice bytes 0 186 := by
    rw [payload, ← magic, ← voterEq, ← databaseEq, ← incarnationEq,
      ← promisedEq, ← candidateEq, ← candidateAtEq, ← voterAtEq, ← grantedEq]
    repeat rw [slice_append_slice (by omega) (by omega)]
  rw [encodeV1, payloadEq, ← checksum,
    slice_append_slice (by omega) (by omega), ← width, slice_zero_length]

theorem decodeV1_encodeV1_vote (vote : ReplicationEpochVoteV1) :
    decodeV1 sha256 (vote.encodeV1 sha256) = .ok vote := by
  have width := length_encodeV1_vote sha256 vote
  have payloadSlice : slice (vote.encodeV1 sha256) 0 186 = vote.payload := by
    simp [encodeV1, slice_append_left, slice_whole, length_votePayload]
  have checksum : slice (vote.encodeV1 sha256) 186 218 = (sha256 vote.payload).toList := by
    simp [encodeV1, slice_append_right, slice_whole, length_votePayload]
  have fields : ∀ start stop, stop ≤ 186 →
      slice (vote.encodeV1 sha256) start stop = slice vote.payload start stop := by
    intro start stop inside
    exact slice_append_left (by rwa [length_votePayload])
  have incarnation : slice (vote.encodeV1 sha256) 41 49 = vote.historyIncarnation.toBeBytes := by
    simp [fields, payload, slice_append_right, slice_append_left, slice_whole]
  simp only [decodeV1, bind_eq_ok, require_eq_ok, readHoldId_eq_ok,
    readUuid_eq_ok, readU64_eq_ok, readNonZeroU64_eq_ok, decodeFrom_eq_ok, okOr_eq_ok,
    new_eq_some, readGranted_eq_ok width]
  refine ⟨⟨⟩, ⟨width, ?_⟩, ⟨⟩, checksum.trans (by rw [payloadSlice]), vote.voterHoldId, ?_,
    vote.databaseId, ?_, vote.historyIncarnation.get, slice_eq_toBeBytes.mpr incarnation,
    vote.promisedEpoch, ?_, vote.candidateHoldId, ?_, vote.candidateApplied, ?_,
    vote.voterApplied, ?_, vote.granted, ?_, rfl, rfl, rfl, rfl, rfl, rfl, rfl, rfl⟩
  all_goals
    simp [fields, payload, slice_append_right, slice_append_left, slice_whole]

/-- The decoder's length check is eight bytes short of what the encoder writes. -/
theorem decodeV1_encodeV1_request (request : ReplicationEpochVoteRequestV1) :
    ReplicationEpochVoteRequestV1.decodeV1 sha256 (request.encodeV1 sha256) =
      .error invalidEncoding := by
  have short : ¬((request.encodeV1 sha256).length = 161 ∧
      slice (request.encodeV1 sha256) 0 9 = voteRequestMagicV1) := by
    rw [length_encodeV1_request]
    omega
  rw [ReplicationEpochVoteRequestV1.decodeV1, require_neg short, error_bind]

theorem decodeV1_request_length {request : ReplicationEpochVoteRequestV1}
    (accepted : ReplicationEpochVoteRequestV1.decodeV1 sha256 bytes = .ok request) :
    bytes.length = 161 := by
  obtain ⟨_, checked, _⟩ := bind_eq_ok.mp accepted
  exact (require_eq_ok.mp checked).1

end Layouts

/-- What the two layouts guarantee for any digest: votes are decoded from their own encoding
and from nothing else, an encoded request is always refused, and no byte string accepted as a
request is the encoding of the request it yields. -/
theorem epochVote_layouts_agree_only_for_votes (sha256 : Bytes → ByteArrayOf 32) :
    (∀ vote : ReplicationEpochVoteV1,
      ReplicationEpochVoteV1.decodeV1 sha256 (vote.encodeV1 sha256) = .ok vote) ∧
    (∀ (bytes : Bytes) (vote : ReplicationEpochVoteV1),
      ReplicationEpochVoteV1.decodeV1 sha256 bytes = .ok vote → bytes = vote.encodeV1 sha256) ∧
    (∀ request : ReplicationEpochVoteRequestV1,
      ReplicationEpochVoteRequestV1.decodeV1 sha256 (request.encodeV1 sha256) =
      .error invalidEncoding) ∧ (∀ (bytes : Bytes) (request : ReplicationEpochVoteRequestV1),
      ReplicationEpochVoteRequestV1.decodeV1 sha256 bytes = .ok request →
        bytes ≠ request.encodeV1 sha256) := by
  refine ⟨decodeV1_encodeV1_vote, fun _ _ => decodeV1_vote_bytes, decodeV1_encodeV1_request, ?_⟩
  intro bytes request accepted same
  have written := length_encodeV1_request sha256 request
  rw [← same, decodeV1_request_length accepted] at written
  omega

def zeroDigest : Bytes → ByteArrayOf 32 := fun _ => List.Vector.replicate 32 0

def samplePosition : ReplicationEpochVotePositionV1 :=
  ⟨.lit 1, List.Vector.replicate 32 0, ⟨none, none⟩⟩

def sampleRequest : ReplicationEpochVoteRequestV1 where
  requestId := UuidV7.sample
  candidateTarget := ⟨UuidV7.sample, .lit 1, .lit 1, ReplicationSourceHoldIdV1.filledWith 7⟩
  proposedEpoch := .lit 2
  candidateApplied := samplePosition
  successor := by decide

def sampleVote : ReplicationEpochVoteV1 where
  voterHoldId := ReplicationSourceHoldIdV1.filledWith 9
  databaseId := UuidV7.sample
  historyIncarnation := .lit 1
  promisedEpoch := .lit 2
  candidateHoldId := ReplicationSourceHoldIdV1.filledWith 7
  candidateApplied := samplePosition
  voterApplied := samplePosition
  granted := true
  justified := by decide

/-- A well-formed request does not survive its own wire format. -/
theorem sampleRequest_refused :
    ReplicationEpochVoteRequestV1.decodeV1 zeroDigest (sampleRequest.encodeV1 zeroDigest) =
        .error invalidEncoding ∧
      ReplicationEpochVoteRequestV1.decodeV1 zeroDigest
        (slice (sampleRequest.encodeV1 zeroDigest) 0 161) = .ok sampleRequest ∧
      slice (sampleRequest.encodeV1 zeroDigest) 0 161 ≠ sampleRequest.encodeV1 zeroDigest := by
  decide +kernel

theorem epochVote_layouts_zeroDigest :
    ReplicationEpochVoteV1.decodeV1 zeroDigest (sampleVote.encodeV1 zeroDigest) = .ok sampleVote ∧
      ReplicationEpochVoteRequestV1.decodeV1 zeroDigest (sampleRequest.encodeV1 zeroDigest) =
        .error invalidEncoding ∧
      slice (sampleRequest.encodeV1 zeroDigest) 0 161 ≠ sampleRequest.encodeV1 zeroDigest :=
  have layouts := epochVote_layouts_agree_only_for_votes zeroDigest
  ⟨layouts.1 sampleVote, layouts.2.2.1 sampleRequest,
    layouts.2.2.2 (slice (sampleRequest.encodeV1 zeroDigest) 0 161) sampleRequest
      (by decide +kernel)⟩

end EpochVoteWire
