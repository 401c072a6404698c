import RiffDb.JournalExtent

/-!
# One frame in an extent: its image and what the walk makes of it

A submitted frame has one image at a position of an extent. Where the file holds the image's header,
the walk reads as many bytes as the image has and finds the footer missing, finds damage, or accepts
the bytes. Then the checksum has matched, and a digest that separates the image from what else could
stand there leaves only the image.
-/

namespace ExtentFrames

open ByteWire CheckedCode BlockFiles JournalFormat JournalExtent List

variable {env : FrameEnv}

variable (generation position : Nat) (logical : EncodedJournalFrame env)

/-- The whole blocks a frame occupies. -/
def paddedLen : Nat :=
  alignUp (extentFrameHeaderBytes + logical.bytes.length + extentFrameFooterBytes)
    extentFrameAlignment

/-- The bytes of a frame with its checksum still blank. -/
def blankImage : Bytes :=
  (frameFields generation position (paddedLen logical) logical.bytes logical.frameHash
    (zeros 32)).flatten

def imageChecksum : Hash :=
  extentFrameChecksum env (blankImage generation position logical)

def imageFields : List Bytes :=
  frameFields generation position (paddedLen logical) logical.bytes logical.frameHash
    (imageChecksum generation position logical).toList

def frameImage : Bytes :=
  (imageFields generation position logical).flatten

/-- A frame that an extent accepts at a position. -/
structure Fits (generation position dataBytes : Nat)
    (logical : EncodedJournalFrame env) : Prop where
  generated : generation ≠ 0
  past : extentDataOffset ≤ position
  aligned : extentFrameAlignment ∣ position
  configured : paddedLen logical ≤ extentDataBytes
  capacity : paddedLen logical ≤ dataBytes
  inside : position + paddedLen logical ≤ extentFileBytes dataBytes
  addressed : position < 2 ^ 64

theorem alignUp_dvd (value alignment : Nat) : alignment ∣ alignUp value alignment :=
  Nat.dvd_mul_left _ _

theorem le_alignUp (value : Nat) {alignment : Nat} (positive : 0 < alignment) :
    value ≤ alignUp value alignment := by
  have bound := Nat.lt_div_mul_add positive (a := value + (alignment - 1))
  simp only [alignUp]
  omega

section

variable (logical : EncodedJournalFrame env)

theorem paddedLen_dvd : extentFrameAlignment ∣ paddedLen logical := alignUp_dvd _ _

theorem le_paddedLen :
    extentFrameHeaderBytes + logical.bytes.length + extentFrameFooterBytes ≤ paddedLen logical :=
  le_alignUp _ (by decide)

theorem length_le : 156 ≤ logical.bytes.length ∧ logical.bytes.length ≤ maxJournalFrameBytes := by
  have bounds := JournalFrame.decode_length logical.decodes
  simpa only [frameHeaderBytesV2, frameFooterBytes] using bounds

theorem block_le_paddedLen : extentFrameAlignment ≤ paddedLen logical := by
  refine Nat.le_of_dvd ?_ (paddedLen_dvd logical)
  have := le_paddedLen logical
  simp only [extentFrameHeaderBytes] at this
  omega

end

theorem encodeForExtent_eq_ok {generation position dataBytes : Nat}
    {logical : EncodedJournalFrame env} {physical : EncodedExtentFrame} :
    EncodedExtentFrame.encodeForExtent env generation position dataBytes logical = .ok physical ↔
      Fits generation position dataBytes logical ∧
        physical = ⟨frameImage generation position logical, position⟩ := by
  simp only [EncodedExtentFrame.encodeForExtent, bind_eq_ok, require_eq_ok, exists_const,
    okOr_eq_ok, extentFrameBytes, Except.ok.injEq]
  constructor
  · rintro ⟨⟨generated, past, aligned⟩, padded, allowed, ⟨capacity, inside⟩, ⟨-, -, addressed⟩, rfl⟩
    split at allowed
    · rename_i configured
      cases allowed
      exact ⟨⟨generated, past, aligned, configured, capacity, inside, addressed⟩, rfl⟩
    · cases allowed
  · rintro ⟨fits, rfl⟩
    have length := (length_le logical).2
    have configured := fits.configured
    simp only [maxJournalFrameBytes, extentDataBytes] at length configured
    exact ⟨⟨fits.generated, fits.past, fits.aligned⟩, paddedLen logical, if_pos fits.configured,
      ⟨fits.capacity, fits.inside⟩, ⟨by omega, by omega, fits.addressed⟩, rfl⟩

/-- The header fields of a frame, wherever its first block was read. -/
structure HeaderHeld (bytes : Bytes) (generation position encodedLen paddedLen : Nat)
    (frameHash : Hash) (checksum : Bytes) : Prop where
  magic : slice bytes 0 8 = extentFrameMagic
  version : slice bytes 8 10 = beBytes 2 extentFrameVersion
  headerBytes : slice bytes 10 12 = beBytes 2 extentFrameHeaderBytes
  generation : slice bytes 12 20 = beBytes 8 generation
  position : slice bytes 20 28 = beBytes 8 position
  encodedLen : slice bytes 28 32 = beBytes 4 encodedLen
  paddedLen : slice bytes 32 36 = beBytes 4 paddedLen
  frameHash : slice bytes 36 68 = frameHash.toList
  checksum : slice bytes 68 100 = checksum
  reserved : slice bytes 100 128 = zeros 28

/-- The footer fields of a frame in the last bytes of its padding. -/
structure FooterHeld (bytes : Bytes) (generation position paddedLen : Nat) (frameHash : Hash) :
    Prop where
  magic : slice bytes (paddedLen - 64) (paddedLen - 64 + 8) = extentFrameFooterMagic
  generation : slice bytes (paddedLen - 64 + 8) (paddedLen - 64 + 16) = beBytes 8 generation
  position : slice bytes (paddedLen - 64 + 16) (paddedLen - 64 + 24) = beBytes 8 position
  frameHash : slice bytes (paddedLen - 64 + 24) (paddedLen - 64 + 56) = frameHash.toList
  reserved : slice bytes (paddedLen - 64 + 56) (paddedLen - 64 + 64) = zeros 8

/-- The lengths of the fields in their order. -/
def frameSizes (logical padded : Nat) : List Nat :=
  [8, 2, 2, 8, 8, 4, 4, 32, 32, 28, logical, padded - 64 - (128 + logical), 8, 8, 8, 32, 8]

/-- The fields of the footer stand behind the padding. -/
theorem sum_frameSizes {logical padded : Nat} (fits : 128 + logical ≤ padded - 64) (index : Nat) :
    ((frameSizes logical padded).take (12 + index)).sum =
      padded - 64 + ([8, 8, 8, 32, 8].take index).sum := by
  let front := [8, 2, 2, 8, 8, 4, 4, 32, 32, 28, logical, padded - 64 - (128 + logical)]
  have split :
      (frameSizes logical padded).take (12 + index) = front ++ [8, 8, 8, 32, 8].take index :=
    @take_length_add_append Nat front _ index
  rw [split, sum_append]
  simp only [front, sum_cons, sum_nil]
  omega

section Image

variable {generation position : Nat} {logical : EncodedJournalFrame env}

theorem length_imageFields : (imageFields generation position logical).map List.length =
    frameSizes logical.bytes.length (paddedLen logical) := by
  simp [imageFields, frameFields, frameSizes, extentFrameMagic, extentFrameFooterMagic,
    extentFrameFooterBytes, extentFrameHeaderBytes]

/-- A field by its place in the layout; the offsets are sums of the lengths before it. -/
theorem slice_frameImage (index : Nat) {start stop : Nat} {field : Bytes}
    (held : (imageFields generation position logical)[index]? = some field)
    (before : ((frameSizes logical.bytes.length (paddedLen logical)).take index).sum = start)
    (after : start + field.length = stop) :
    slice (frameImage generation position logical) start stop = field := by
  rw [← @length_imageFields env generation position, ← map_take] at before
  exact slice_flatten index held before after

theorem le_paddedLen_sub : 128 + logical.bytes.length ≤ paddedLen logical - 64 := by
  have fits := le_paddedLen logical
  simp only [extentFrameHeaderBytes, extentFrameFooterBytes] at fits
  omega

theorem slice_frameImage_logical : slice (frameImage generation position logical) 128
    (128 + logical.bytes.length) = logical.bytes := slice_frameImage 10 rfl rfl rfl

theorem slice_frameImage_padding : slice (frameImage generation position logical)
    (128 + logical.bytes.length) (paddedLen logical - 64) =
      zeros (paddedLen logical - 64 - (128 + logical.bytes.length)) := by
  have fits := @le_paddedLen_sub _ logical
  refine slice_frameImage 11 rfl ?_ ?_
  · simp only [frameSizes, take_succ_cons, take_zero, sum_cons, sum_nil]
    omega
  · simp only [length_zeros]
    omega

variable (generation position logical)

@[simp] theorem length_frameImage :
    (frameImage generation position logical).length = paddedLen logical := by
  have fits := @le_paddedLen_sub _ logical
  rw [frameImage, length_flatten, length_imageFields]
  refine (sum_frameSizes fits 5).trans (Nat.sub_add_cancel (m := 64) ?_)
  omega

theorem headerHeld_frameImage :
    HeaderHeld (frameImage generation position logical) generation position
    logical.bytes.length (paddedLen logical) logical.frameHash
    (imageChecksum generation position logical).toList := by
  constructor
  · exact slice_frameImage 0 rfl rfl (by simp [extentFrameMagic])
  · exact slice_frameImage 1 rfl rfl (by simp)
  · exact slice_frameImage 2 rfl rfl (by simp)
  · exact slice_frameImage 3 rfl rfl (by simp)
  · exact slice_frameImage 4 rfl rfl (by simp)
  · exact slice_frameImage 5 rfl rfl (by simp)
  · exact slice_frameImage 6 rfl rfl (by simp)
  · exact slice_frameImage 7 rfl rfl (by simp)
  · exact slice_frameImage 8 rfl rfl (by simp)
  · exact slice_frameImage 9 rfl rfl (by simp)

theorem footerHeld_frameImage :
    FooterHeld (frameImage generation position logical) generation position
    (paddedLen logical) logical.frameHash := by
  have fits := @le_paddedLen_sub _ logical
  constructor
  · exact slice_frameImage 12 rfl ((sum_frameSizes fits 0).trans (Nat.add_zero _))
      (by simp [extentFrameFooterMagic])
  · exact slice_frameImage 13 rfl (sum_frameSizes fits 1) (by simp)
  · exact slice_frameImage 14 rfl (sum_frameSizes fits 2) (by simp)
  · exact slice_frameImage 15 rfl (sum_frameSizes fits 3) (by simp)
  · exact slice_frameImage 16 rfl (sum_frameSizes fits 4) (by simp)

end Image

namespace HeaderHeld

variable {bytes other : Bytes} {generation position encodedLen paddedLen : Nat} {frameHash : Hash}
  {checksum : Bytes}

section

variable (held : HeaderHeld bytes generation position encodedLen paddedLen frameHash checksum)

include held

theorem of_slice (same : slice other 0 128 = slice bytes 0 128) :
    HeaderHeld other generation position encodedLen paddedLen frameHash checksum := by
  have field : ∀ start stop, stop ≤ 128 → slice other start stop = slice bytes start stop := by
    intro start stop inside
    have cut := congrArg (fun header => slice header start stop) same
    have low : 0 + stop ≤ 128 := by omega
    simpa only [slice_slice low, Nat.zero_add] using cut
  constructor
  · rw [field 0 8 (by omega), held.magic]
  · rw [field 8 10 (by omega), held.version]
  · rw [field 10 12 (by omega), held.headerBytes]
  · rw [field 12 20 (by omega), held.generation]
  · rw [field 20 28 (by omega), held.position]
  · rw [field 28 32 (by omega), held.encodedLen]
  · rw [field 32 36 (by omega), held.paddedLen]
  · rw [field 36 68 (by omega), held.frameHash]
  · rw [field 68 100 (by omega), held.checksum]
  · rw [field 100 128 (by omega), held.reserved]

theorem not_allZero : allZero bytes = false := by
  rw [← Bool.not_eq_true]
  intro zero
  have first := allZero_slice zero 0 8
  rw [held.magic] at first
  exact absurd first (by decide)

end

end HeaderHeld

/-- What follows once the bytes of a frame have been decoded. -/
def readingOf (frameHash : Hash) (encodedLen paddedLen : Nat) :
    Option (JournalFrame × Hash) → Except JournalIoError FrameReading
  | none => .ok .incomplete
  | some (frame, found) => do
    require (found = frameHash) .corrupt
    .ok (.complete frame found encodedLen paddedLen)

variable {frameHash : Hash}

theorem readFrame_of_held (env : FrameEnv) {file : File} {extent : ExtentHeader} (walk : ExtentWalk)
    {fileBytes encodedLen padded : Nat} {state : WalkState} {checksum : Bytes}
    (held : HeaderHeld (file.readAt state.position 128) extent.generation state.position encodedLen
      padded frameHash checksum) (addressed : state.position < 2 ^ 64) (nonempty : encodedLen ≠ 0)
    (bounded : encodedLen ≤ maxJournalFrameBytes)
    (minimum : extentFrameHeaderBytes + encodedLen + extentFrameFooterBytes ≤ padded)
    (aligned : extentFrameAlignment ∣ padded) (sized : padded < 2 ^ 32)
    (inside : state.position + padded ≤ fileBytes) (present : fileBytes ≤ file.length) :
    readFrame env file extent walk fileBytes false state =
      decodePhysicalFrame env (file.readAt state.position padded) extent.generation state.position
          encodedLen (if walk = .fromOrigin then some frameHash else none) (walk ≠ .fromOrigin) >>=
        readingOf frameHash encodedLen padded := by
  have short : state.position + extentFrameHeaderBytes ≤ file.length := by
    simp only [extentFrameHeaderBytes] at minimum ⊢
    omega
  have header : readExactAt file state.position extentFrameHeaderBytes =
      .ok (file.readAt state.position 128) := readExactAt_eq_ok.mpr ⟨short, rfl⟩
  have physical :
      readExactAt file state.position padded = .ok (file.readAt state.position padded) :=
    readExactAt_eq_ok.mpr ⟨inside.trans present, rfl⟩
  generalize file.readAt state.position 128 = block at held header
  have generation : readU64 block 12 = .ok extent.generation :=
    readWord_of_slice held.generation extent.generated.2
  have version : readU16 block 8 = .ok extentFrameVersion :=
    readWord_of_slice held.version (by decide)
  have headerBytes : readU16 block 10 = .ok extentFrameHeaderBytes :=
    readWord_of_slice held.headerBytes (by decide)
  have position : readU64 block 20 = .ok state.position :=
    readWord_of_slice held.position addressed
  have encoded : readU32 block 28 = .ok encodedLen := by
    refine readWord_of_slice held.encodedLen ?_
    simp only [extentFrameHeaderBytes] at minimum
    omega
  have paddedRead : readU32 block 32 = .ok padded :=
    readWord_of_slice held.paddedLen sized
  have recorded : readArray 32 block 36 = .ok frameHash :=
    readArray_of_slice held.frameHash
  have notSealed : extentFrameMagic ≠ sealedFooterMagic := by decide
  have lengths : encodedLen ≠ 0 ∧ encodedLen ≤ maxJournalFrameBytes ∧
      extentFrameHeaderBytes + encodedLen + extentFrameFooterBytes ≤ padded ∧
      extentFrameAlignment ∣ padded ∧ state.position + padded ≤ fileBytes :=
    ⟨nonempty, bounded, minimum, aligned, inside⟩
  rw [readFrame, header, ok_bind, held.not_allZero, if_neg Bool.false_ne_true, held.magic,
    if_neg notSealed, if_neg (not_not_intro rfl), generation]
  simp only [corruptly, Except.mapError, ok_bind]
  rw [if_neg (Nat.lt_irrefl _), require_pos trivial, ok_bind]
  simp only [readCurrentFrame, corruptly, version, headerBytes, position, encoded, paddedRead,
    recorded, physical, Except.mapError, ok_bind]
  rw [require_pos ⟨trivial, trivial, trivial⟩, ok_bind, require_pos lengths, ok_bind,
    require_pos (by simp), ok_bind]
  rfl

theorem checksumInput_append {front checksum back : Bytes} (before : front.length = 68)
    (sized : checksum.length = 32) :
      checksumInput (front ++ (checksum ++ back)) = front ++ zeros 32 ++ back := by
  have rest : 100 = front.length + checksum.length := by rw [before, sized]
  rw [checksumInput, ← before, take_left, rest, ← drop_drop, drop_left, drop_left]

/-- Bytes with the same checksum field and the same checksummed content are the same. -/
theorem eq_of_checksumInput {left right : Bytes} (long : 100 ≤ left.length)
    (same : left.length = right.length) (field : slice left 68 100 = slice right 68 100)
    (input : checksumInput left = checksumInput right) : left = right := by
  have whole : ∀ bytes :
      Bytes, bytes = bytes.take 68 ++ (slice bytes 68 100 ++ bytes.drop 100) := by
    intro bytes
    have tail : bytes.drop 68 = slice bytes 68 100 ++ bytes.drop 100 := by
      rw [slice, show 100 = 68 + (100 - 68) by rfl, ← drop_drop, take_append_drop]
    rw [← tail, take_append_drop]
  simp only [checksumInput, append_assoc] at input
  obtain ⟨front, rest⟩ := append_inj input (by simp only [length_take]; omega)
  obtain ⟨-, back⟩ := append_inj rest rfl
  rw [whole left, whole right, front, back, field]

/-- The checksum an image carries is the checksum of the image: the field does not enter it. -/
theorem extentFrameChecksum_frameImage :
    extentFrameChecksum env (frameImage generation position logical) =
      imageChecksum generation position logical := by
  obtain ⟨front, back, before, split⟩ : ∃ front back :
    Bytes, front.length = 68 ∧ ∀ checksum : Bytes,
      (frameFields generation position (paddedLen logical) logical.bytes logical.frameHash
        checksum).flatten = front ++ (checksum ++ back) := by
    let fields := imageFields generation position logical
    refine ⟨(fields.take 8).flatten, (fields.drop 9).flatten, ?_, fun checksum => ?_⟩
    · simp [fields, imageFields, frameFields, extentFrameMagic]
    · simp only [fields, imageFields, frameFields, take_succ_cons, take_zero,
        drop_succ_cons, drop_zero, flatten_cons, flatten_nil, append_assoc, append_nil]
  rw [imageChecksum, extentFrameChecksum, extentFrameChecksum, frameImage, imageFields,
    blankImage, split,
    split, checksumInput_append before (by simp), checksumInput_append before (length_zeros 32)]

theorem footerCurrent_of_held {physical : Bytes} {generation position : Nat}
    (held : FooterHeld physical generation position physical.length frameHash)
    (header : slice physical 36 68 = frameHash.toList) (generated : generation < 2 ^ 64)
    (addressed : position < 2 ^ 64) : FooterCurrent physical generation position := by
  refine ⟨held.magic, readWord_of_slice ?_ generated, readWord_of_slice ?_ addressed, ?_, ?_⟩
  · exact held.generation
  · exact held.position
  · rw [header]
    exact held.frameHash
  · rw [extentFrameFooterBytes, held.reserved]
    exact allZero_replicate 8

theorem admitPhysicalRecovery_value {bytes : Bytes} {recorded : Hash} {admitted : Option Hash}
    (allowed : admitPhysicalRecovery env bytes recorded = .ok admitted) :
    admitted = none ∨ admitted = some recorded := by
  simp only [admitPhysicalRecovery, bind_eq_ok, require_eq_ok, exists_const] at allowed
  obtain ⟨-, version, -, allowed⟩ := allowed
  split at allowed
  · cases allowed; exact .inl rfl
  simp only [bind_eq_ok, require_eq_ok, exists_const] at allowed
  obtain ⟨-, -, changelog, -, allowed⟩ := allowed
  split at allowed
  · cases allowed; exact .inl rfl
  simp only [bind_eq_ok, require_eq_ok, exists_const, Except.ok.injEq] at allowed
  obtain ⟨_, -, _, -, -, _, -, _, -, -, -, -, rfl⟩ := allowed
  exact .inr rfl

section Decode

variable {generation position : Nat} {logical : EncodedJournalFrame env} {physical : Bytes}

theorem decodeLogical_frameImage (retain : Bool) :
    decodeLogical env (frameImage generation position logical) logical.bytes.length none retain =
      (admitPhysicalRecovery env logical.bytes logical.frameHash).map
        fun _ => (logical.frame, logical.frameHash) := by
  have inner : slice (frameImage generation position logical) extentFrameHeaderBytes
      (extentFrameHeaderBytes + logical.bytes.length) = logical.bytes :=
    slice_frameImage_logical
  have recorded :
      readArray 32 (frameImage generation position logical) 36 = .ok logical.frameHash :=
    readArray_of_slice (headerHeld_frameImage generation position logical).frameHash
  simp only [decodeLogical, inner, recorded, corruptly, Except.mapError, ok_bind]
  cases allowed : admitPhysicalRecovery env logical.bytes logical.frameHash with
  | error reason => rfl
  | ok admitted =>
    rcases admitPhysicalRecovery_value allowed with rfl | rfl
    · have decoded := logical.decodes
      rw [JournalFrame.decode] at decoded
      simp only [ok_bind, decoded, Except.map]
    · simp only [ok_bind, JournalFrame.decodeWith_admitted logical.decodes, Except.map]

/-- An image read back whole. -/
theorem decodePhysicalFrame_frameImage (generated : generation < 2 ^ 64)
    (addressed : position < 2 ^ 64)
    (retain : Bool) :
      decodePhysicalFrame env (frameImage generation position logical) generation position
        logical.bytes.length none retain =
          (admitPhysicalRecovery env logical.bytes logical.frameHash).map
        fun _ => some (logical.frame, logical.frameHash) := by
  have header := headerHeld_frameImage generation position logical
  have footer := footerHeld_frameImage generation position logical
  have length := length_frameImage generation position logical
  have checksum := extentFrameChecksum_frameImage generation position logical
  have padding :
    slice (frameImage generation position logical) (extentFrameHeaderBytes + logical.bytes.length)
      (paddedLen logical - extentFrameFooterBytes) =
        zeros (paddedLen logical - 64 - (128 + logical.bytes.length)) :=
    slice_frameImage_padding
  have inner := @decodeLogical_frameImage _ generation position logical retain
  generalize frameImage generation position logical =
    image at header footer length checksum padding inner ⊢
  have current : FooterCurrent image generation position :=
    footerCurrent_of_held (by rwa [length]) header.frameHash generated addressed
  have long :
      extentFrameHeaderBytes + logical.bytes.length + extentFrameFooterBytes ≤ image.length := by
    rw [length]
    exact le_paddedLen logical
  have clean : allZero (slice image 100 extentFrameHeaderBytes) ∧
      allZero (slice image (extentFrameHeaderBytes + logical.bytes.length)
        (image.length - extentFrameFooterBytes)) ∧
      ((none : Option Hash) = none →
        (extentFrameChecksum env image).toList = slice image 68 100) := by
    refine ⟨?_, ?_, fun _ => ?_⟩
    · rw [extentFrameHeaderBytes, header.reserved]
      exact allZero_replicate 28
    · rw [length, padding]
      exact allZero_replicate _
    · rw [checksum, header.checksum]
  rw [decodePhysicalFrame, require_pos long, ok_bind, if_pos current, require_pos clean,
    ok_bind, inner]
  cases admitPhysicalRecovery env logical.bytes logical.frameHash with
  | error reason => rfl
  | ok admitted => simp only [Except.map, ok_bind, header.frameHash, require_pos]

/-- Bytes that the recovery walk accepts under an image's header are the image. -/
theorem decodePhysicalFrame_sound {found : JournalFrame × Hash}
    (decoded : decodePhysicalFrame env physical generation position logical.bytes.length none true =
      .ok (some found)) (generated : generation < 2 ^ 64) (addressed : position < 2 ^ 64)
    (length : physical.length = paddedLen logical)
    (header : slice physical 0 128 = slice (frameImage generation position logical) 0 128)
    (separated : env.digest (checksumInput physical) =
        env.digest (checksumInput (frameImage generation position logical)) →
      checksumInput physical = checksumInput (frameImage generation position logical)) :
    physical = frameImage generation position logical ∧
      found = (logical.frame, logical.frameHash) := by
  have held := (headerHeld_frameImage generation position logical).of_slice header
  have checked : (extentFrameChecksum env physical).toList = slice physical 68 100 := by
    simp only [decodePhysicalFrame, bind_eq_ok, require_eq_ok, exists_const] at decoded
    obtain ⟨-, decoded⟩ := decoded
    split at decoded
    · simp only [bind_eq_ok, require_eq_ok, exists_const] at decoded
      exact decoded.1.2.2 trivial
    · cases decoded
  rw [held.checksum, ← extentFrameChecksum_frameImage] at checked
  have whole : physical = frameImage generation position logical := by
    refine eq_of_checksumInput ?_ (length.trans (length_frameImage _ _ _).symm) ?_
      (separated (List.Vector.eq _ _ checked))
    · have := le_paddedLen logical
      have := (length_le logical).1
      simp only [extentFrameHeaderBytes] at *
      omega
    · rw [held.checksum, (headerHeld_frameImage generation position logical).checksum]
  rw [whole, decodePhysicalFrame_frameImage generated addressed, map_eq_ok] at decoded
  obtain ⟨_, -, same⟩ := decoded
  exact ⟨whole, (Option.some.inj same).symm⟩

end Decode

end ExtentFrames
