import RiffDb.JournalWorker

/-!
# What recovery visits after a crash

A crash during a batch leaves every block of the batch old or new. Over the receipted frames the
recovery walk cannot stop. At a frame of the unsynced batch its first block decides: a new block
leads to the whole image or to a stop, because the checksum covers every byte; an old one holds
stale bytes, and a stale frame does not continue the hash chain of this run.

Of the digest it is assumed only that what is read at a frame of the batch and what was written
there do not collide.
-/

namespace JournalCrash

open ByteWire CheckedCode BlockFiles ReplicationTypes JournalFormat JournalExtent ExtentFrames
  JournalWorker File List

variable {env : FrameEnv}

/-- Frames with their placements from a position on. -/
def placed : Nat → List (EncodedJournalFrame env) → List (JournalFrame × FramePlacement)
  | _, [] => []
  | position, frame :: rest =>
    (frame.frame, ⟨position, paddedLen frame, frame.frameHash⟩) ::
      placed (position + paddedLen frame) rest

theorem placed_append (position : Nat) (first second : List (EncodedJournalFrame env)) :
    placed position (first ++ second) = placed position first ++
      placed (endOf position first) second := by
  induction first generalizing position with
  | nil => rfl
  | cons frame rest ih => simp only [cons_append, placed, ih, endOf_cons]

/-- The digest the chain stands at after some frames. -/
def lastHash (hash : Hash) (frames : List (EncodedJournalFrame env)) : Hash :=
  (frames.getLast?.map EncodedJournalFrame.frameHash).getD hash

/-- Stale contents: where a block from `start` on begins like a frame of this generation, the
frame does not continue from any of the given digests. Contents that only earlier generations
wrote have no such block. -/
def Unchained (file : File) (generation start limit : Nat) (hashes : List Hash) : Prop :=
  ∀ position, start ≤ position → position < limit → extentFrameAlignment ∣ position →
    file.readAt position 8 = extentFrameMagic →
    beValue (file.readAt (position + 12) 8) = generation →
    ∀ hash ∈ hashes, file.readAt (position + 204) 32 ≠ hash.toList

/-- What stands at each frame of a batch does not collide with what was written there. -/
def CollisionFree (generation : Nat) (found : File) : Nat → List (EncodedJournalFrame env) → Prop
  | _, [] => True
  | position, frame :: rest =>
    (env.digest (checksumInput (found.readAt position (paddedLen frame))) =
        env.digest (checksumInput (frameImage generation position frame)) →
      checksumInput (found.readAt position (paddedLen frame)) =
        checksumInput (frameImage generation position frame)) ∧
      CollisionFree generation found (position + paddedLen frame) rest

section Round

variable {file : File} {extent : ExtentHeader} {walk : ExtentWalk} {fileBytes : Nat}
  {onlineSource : Bool} {state after : WalkState} {frame : JournalFrame} {frameHash : Hash}
  {encodedLen padded : Nat}

theorem chain_eq_ok :
    state.chain extent .fromAnchor onlineSource frame frameHash encodedLen padded = .ok after ↔
      frame.databaseId = extent.logical.databaseId ∧
        Chained .fromAnchor (continuesFrom frame) state.previous ∧
        WithinSuffix onlineSource (state.transitionCount + frame.transitionCount)
          (state.encodedByteCount + encodedLen) ∧
        after = state.advanced frame frameHash encodedLen padded := by
  have opened : state.opened .fromAnchor frame = state := if_neg (by simp)
  simp only [WalkState.chain, opened, bind_eq_ok, require_eq_ok, exists_const, Except.ok.injEq,
    true_implies, WalkState.advanced, and_assoc]
  constructor <;> rintro ⟨id, chained, within, rfl⟩ <;> exact ⟨id, chained, within, rfl⟩

open JournalFrame

theorem decodeWith_length {bytes : Bytes} {proven admitted : Option Hash} {retain : Bool}
    (decoded : decodeWith env bytes proven admitted retain = .ok (frame, frameHash)) :
    156 ≤ bytes.length := by
  simp only [decodeWith, bind_eq_ok] at decoded
  obtain ⟨envelope, opened, -⟩ := decoded
  exact (decodeEnvelope_eq_ok.mp opened).1.long

/-- A complete frame starts with a current header and carries its predecessor's digest in its
first block. -/
theorem readFrame_complete
    (read : readFrame env file extent .fromAnchor fileBytes onlineSource state =
      .ok (.complete frame frameHash encodedLen padded)) :
    file.readAt state.position 8 = extentFrameMagic ∧
      beValue (file.readAt (state.position + 12) 8) = extent.generation ∧
      frame.previousHash.toList = file.readAt (state.position + 204) 32 := by
  simp only [readFrame, bind_eq_ok, readExactAt_eq_ok] at read
  obtain ⟨header, ⟨-, rfl⟩, read⟩ := read
  split at read
  · cases read
  split at read
  · cases read
  split at read
  · cases read
  rename_i magic
  simp only [bind_eq_ok, corruptly, mapError_eq_ok] at read
  obtain ⟨generation, generationRead, read⟩ := read
  split at read
  · cases read
  simp only [bind_eq_ok, require_eq_ok, exists_const, readCurrentFrame, corruptly, mapError_eq_ok,
    readExactAt_eq_ok] at read
  obtain ⟨rfl, _, -, _, -, _, -, -, length, -, total, -, lengths, -, recorded, -,
    physical, ⟨-, rfl⟩, decoded, decodes, read⟩ := read
  have magic' := not_not.mp magic
  rw [slice_readAt (by simp [extentFrameHeaderBytes])] at magic'
  have word := (readWord_eq_ok.mp generationRead).2
  rw [slice_readAt (by simp [extentFrameHeaderBytes])] at word
  refine ⟨magic', word, ?_⟩
  cases decoded with
  | none => cases read
  | some pair =>
    obtain ⟨found, hash⟩ := pair
    simp only [bind_eq_ok, require_eq_ok, exists_const, Except.ok.injEq,
      FrameReading.complete.injEq]
      at read
    obtain ⟨-, rfl, rfl, rfl, rfl⟩ := read
    simp only [decodePhysicalFrame, bind_eq_ok, require_eq_ok, exists_const] at decodes
    obtain ⟨long, decodes⟩ := decodes
    split at decodes
    · simp only [bind_eq_ok, require_eq_ok, exists_const, Except.ok.injEq, Option.some.injEq,
        decodeLogical, corruptly, mapError_eq_ok, reduceCtorEq, if_false] at decodes
      obtain ⟨-, ⟨inner, innerHash⟩, ⟨_, -, admitted, -, logical⟩, -, same⟩ := decodes
      obtain ⟨rfl, rfl⟩ := Prod.mk.inj same
      have minimum := decodeWith_length logical
      have fits := lengths.2.2.1
      rw [decodeWith_previousHash logical]
      simp only [extentFrameHeaderBytes, extentFrameFooterBytes] at minimum fits ⊢
      rw [length_slice (by rw [length_readAt]; omega)] at minimum
      rw [slice_slice (by omega), slice_readAt (by omega)]
    · cases decodes

end Round

variable {generation position limit : Nat} {frames : List (EncodedJournalFrame env)} {stale : File}

section Walk

variable {file : File} {extent : ExtentHeader} {state after : WalkState}

variable {frame : EncodedJournalFrame env}

/-- A frame's header in place: the walk goes on to decode the bytes that follow. -/
theorem readFrame_headed (fits : Fits extent.generation state.position extent.dataBytes frame)
    (header : file.readAt state.position 128 =
      slice (frameImage extent.generation state.position frame) 0 128)
    (present : extentFileBytes extent.dataBytes ≤ file.length) :
    readFrame env file extent .fromAnchor (extentFileBytes extent.dataBytes) false state =
      decodePhysicalFrame env (file.readAt state.position (paddedLen frame)) extent.generation
          state.position frame.bytes.length none true >>=
        readingOf frame.frameHash frame.bytes.length (paddedLen frame) := by
  have held : HeaderHeld (file.readAt state.position 128) extent.generation state.position
      frame.bytes.length (paddedLen frame) frame.frameHash
      (imageChecksum extent.generation state.position frame).toList := by
    refine (headerHeld_frameImage extent.generation state.position frame).of_slice ?_
    rw [header, slice_slice (by omega)]
  have bounds := length_le frame
  have configured := fits.configured
  have sized : paddedLen frame < 2 ^ 32 := by
    simp only [extentDataBytes] at configured
    omega
  have read := readFrame_of_held env .fromAnchor held fits.addressed (by omega)
    bounds.2 (le_paddedLen frame) (paddedLen_dvd frame) sized fits.inside present
  simpa using read

theorem header_of_image
    (held : file.readAt position (paddedLen frame) = frameImage generation position frame) :
    file.readAt position 128 = slice (frameImage generation position frame) 0 128 := by
  have long := le_paddedLen frame
  simp only [extentFrameHeaderBytes] at long
  rw [← held, slice_readAt (by omega)]
  rfl

theorem readFrame_image (extent : ExtentHeader) (state : WalkState)
    (fits : Fits extent.generation state.position extent.dataBytes frame)
    (held : file.readAt state.position (paddedLen frame) =
      frameImage extent.generation state.position frame)
    (present : extentFileBytes extent.dataBytes ≤ file.length) :
    readFrame env file extent .fromAnchor (extentFileBytes extent.dataBytes) false state =
      (admitPhysicalRecovery env frame.bytes frame.frameHash).map
        fun _ => .complete frame.frame frame.frameHash frame.bytes.length (paddedLen frame) := by
  rw [readFrame_headed fits (header_of_image held) present, held,
    decodePhysicalFrame_frameImage extent.generated.2 fits.addressed]
  cases admitPhysicalRecovery env frame.bytes frame.frameHash with
  | error reason => rfl
  | ok admitted => simp only [Except.map, ok_bind, readingOf, require_pos]

/-- One round over a frame that stands whole and continues the chain. -/
theorem walkRounds_image (extent : ExtentHeader) (state : WalkState) {rounds : Nat}
    {seen : List (JournalFrame × FramePlacement)} {proof : Option Hash}
    (fits : Fits extent.generation state.position extent.dataBytes frame)
    (held : file.readAt state.position (paddedLen frame) =
      frameImage extent.generation state.position frame)
    (present : extentFileBytes extent.dataBytes ≤ file.length)
    (admitted : admitPhysicalRecovery env frame.bytes frame.frameHash = .ok proof)
    (chained : state.chain extent .fromAnchor false frame.frame frame.frameHash frame.bytes.length
      (paddedLen frame) = .ok after) :
    walkRounds env file extent .fromAnchor (extentFileBytes extent.dataBytes) false
      collect (rounds + 1) state seen =
      walkRounds env file extent .fromAnchor (extentFileBytes extent.dataBytes) false collect rounds
        after (seen ++ placed state.position [frame]) := by
  have below : state.position < extentFileBytes extent.dataBytes := by
    have block := block_le_paddedLen frame
    have inside := fits.inside
    simp only [extentFrameAlignment] at block
    omega
  rw [walkRounds, if_pos below, readFrame_image extent state fits held present, admitted]
  simp only [Except.map, ok_bind, chained, collect]
  rfl

/-- The rounds left are enough for the blocks left. -/
def Rounds (limit rounds position : Nat) : Prop := limit < position + rounds * extentFrameAlignment

variable {padded : Nat}
variable {rounds : Nat}

theorem Rounds.next (enough : Rounds limit (rounds + 1) position)
    (whole : extentFrameAlignment ≤ padded) : Rounds limit rounds (position + padded) := by
  unfold Rounds at *
  rw [Nat.add_mul] at enough
  omega

theorem Rounds.pos (enough : Rounds limit rounds position) (below : position ≤ limit) :
    ∃ less, rounds = less + 1 := by
  cases rounds with
  | zero =>
    unfold Rounds at enough
    omega
  | succ less => exact ⟨less, rfl⟩

variable {seen out : List (JournalFrame × FramePlacement)} {final : WalkState}

/-- Over frames that stand whole, a successful walk visits every one and goes on behind them. -/
theorem walk_holds (state : WalkState) (holds : Holds extent.generation file state.position frames)
    (fitting : Fitting extent.generation extent.dataBytes state.position frames)
    (present : extentFileBytes extent.dataBytes ≤ file.length)
    (enough : Rounds (extentFileBytes extent.dataBytes) rounds state.position)
    (walked :
      walkRounds env file extent .fromAnchor (extentFileBytes extent.dataBytes) false collect
      rounds state seen = .ok (final, out)) :
    ∃ less reached, reached.position = endOf state.position frames ∧
      reached.previous.hash = lastHash state.previous.hash frames ∧
      Rounds (extentFileBytes extent.dataBytes) less reached.position ∧
      walkRounds env file extent .fromAnchor (extentFileBytes extent.dataBytes) false collect less
        reached (seen ++ placed state.position frames) = .ok (final, out) := by
  induction frames generalizing rounds state seen with
  | nil => exact ⟨rounds, state, rfl, rfl, enough, by simpa [placed] using walked⟩
  | cons frame rest ih =>
    obtain ⟨fits, fitting⟩ := fitting
    have block := block_le_paddedLen frame
    have inside := fits.inside
    have below : state.position < extentFileBytes extent.dataBytes := by
      simp only [extentFrameAlignment] at block
      omega
    obtain ⟨less, rfl⟩ := enough.pos below.le
    have reading := readFrame_image extent state fits holds.1 present
    rw [walkRounds, if_pos below, reading, bind_eq_ok] at walked
    obtain ⟨_, mapped, walked⟩ := walked
    obtain ⟨_, -, rfl⟩ := map_eq_ok.mp mapped
    simp only [bind_eq_ok, collect, Except.ok.injEq] at walked
    obtain ⟨after, chained, _, rfl, walked⟩ := walked
    obtain ⟨-, -, -, rfl⟩ := chain_eq_ok.mp chained
    obtain ⟨fewer, reached, position, hash, left, walked⟩ :=
      ih _ holds.2 fitting (enough.next block) walked
    refine ⟨fewer, reached, by rw [endOf_cons]; exact position, ?_, left, ?_⟩
    · rw [hash]
      cases rest with
      | nil => rfl
      | cons next others => simp [lastHash, List.getLast?_cons]
    · rw [append_assoc] at walked
      exact walked

/-- A block that the batch did not change, or that begins with a blank header. -/
def StaleAt (stale found : File) (position : Nat) : Prop :=
  Agree found stale position (position + extentFrameAlignment) ∨
    found.readAt position extentFrameHeaderBytes = zeros extentFrameHeaderBytes

/-- The first blocks of a torn batch and of the tail behind it. -/
def FirstBlocks (generation limit : Nat) (stale found : File) :
    Nat → List (EncodedJournalFrame env) → Prop
  | position, [] => position < limit → StaleAt stale found position
  | position, frame :: rest =>
    (StaleAt stale found position ∨
      found.readAt position 128 = slice (frameImage generation position frame) 0 128) ∧
      FirstBlocks generation limit stale found (position + paddedLen frame) rest

variable {start : Nat} {hashes : List Hash}

/-- A stale block does not begin a frame that continues the chain. -/
theorem not_chained_of_stale {onlineSource : Bool} {frame : JournalFrame} {frameHash : Hash}
    {encodedLen : Nat} {after : WalkState} (blocks : StaleAt stale file state.position)
    (unchained : Unchained stale extent.generation start limit hashes)
    (known : state.previous.hash ∈ hashes) (low : start ≤ state.position)
    (high : state.position < limit) (aligned : extentFrameAlignment ∣ state.position)
    (read : readFrame env file extent .fromAnchor limit onlineSource state =
      .ok (.complete frame frameHash encodedLen padded))
    (chained : state.chain extent .fromAnchor onlineSource frame frameHash encodedLen padded =
      .ok after) : False := by
  obtain ⟨magic, generation, previous⟩ := readFrame_complete read
  rcases blocks with same | blank
  · have old : ∀ offset count, offset + count ≤ extentFrameAlignment →
        stale.readAt (state.position + offset) count =
          file.readAt (state.position + offset) count :=
      fun offset count inside => readAt_congr (same.symm.mono (by omega) (by omega))
    refine unchained state.position low high aligned ?_ ?_ _ known ?_
    · rw [← magic]
      exact old 0 8 (by decide)
    · rw [old 12 8 (by decide), generation]
    · rw [old 204 32 (by decide), ← previous]
      have same := (chain_eq_ok.mp chained).2.1.1
      exact congrArg List.Vector.toList same
  · have front := congrArg (slice · 0 8) blank
    rw [slice_readAt (by decide), Nat.add_zero] at front
    rw [show (8 - 0 : Nat) = 8 from rfl, magic] at front
    exact absurd front (by decide)

/-- A successful walk stopped here, or it went on behind a chained frame. -/
theorem walkRounds_cases (enough : Rounds limit rounds state.position)
    (walked : walkRounds env file extent .fromAnchor limit false collect rounds state seen =
      .ok (final, out)) :
    out = seen ∨ state.position < limit ∧ ∃ less frame frameHash encodedLen padded after,
      rounds = less + 1 ∧ readFrame env file extent .fromAnchor limit false state =
        .ok (.complete frame frameHash encodedLen padded) ∧
      state.chain extent .fromAnchor false frame frameHash encodedLen padded = .ok after ∧
      walkRounds env file extent .fromAnchor limit false collect less after
        (seen ++ [(frame, ⟨state.position, padded, frameHash⟩)]) = .ok (final, out) := by
  by_cases below : state.position < limit
  · obtain ⟨less, rfl⟩ := enough.pos below.le
    rw [walkRounds, if_pos below, bind_eq_ok] at walked
    obtain ⟨reading, read, walked⟩ := walked
    cases reading with
    | ended => cases walked; exact .inl rfl
    | sealedFooter => cases walked; exact .inl rfl
    | incomplete => cases walked; exact .inl rfl
    | complete frame frameHash encodedLen padded =>
      simp only [bind_eq_ok, collect, Except.ok.injEq] at walked
      obtain ⟨after, chained, _, rfl, walked⟩ := walked
      exact .inr ⟨below, less, frame, frameHash, encodedLen, padded, after, rfl, read,
        chained, walked⟩
  · refine .inl ?_
    cases rounds with
    | zero => cases walked; rfl
    | succ less =>
      rw [walkRounds, if_neg below] at walked
      cases walked; rfl

/-- Over a torn batch a successful walk visits a prefix of its frames. -/
theorem walk_batch (stale : File) (frames : List (EncodedJournalFrame env))
    (blocks : FirstBlocks extent.generation (extentFileBytes extent.dataBytes) stale file
      state.position frames)
    (fitting : Fitting extent.generation extent.dataBytes state.position frames)
    (collisionFree : CollisionFree extent.generation file state.position frames)
    (unchained : Unchained stale extent.generation start (extentFileBytes extent.dataBytes) hashes)
    (known : state.previous.hash ∈ hashes) (members : ∀ frame ∈ frames, frame.frameHash ∈ hashes)
    (low : start ≤ state.position) (aligned : extentFrameAlignment ∣ state.position)
    (present : extentFileBytes extent.dataBytes ≤ file.length)
    (enough : Rounds (extentFileBytes extent.dataBytes) rounds state.position)
    (walked :
      walkRounds env file extent .fromAnchor (extentFileBytes extent.dataBytes) false collect
      rounds state seen = .ok (final, out)) :
    ∃ count ≤ frames.length, out = seen ++ placed state.position (frames.take count) := by
  induction frames generalizing state rounds seen with
  | nil =>
    rcases walkRounds_cases enough walked with rfl | ⟨below, _, _, _, _, _, _, -, read, chained, -⟩
    · exact ⟨0, le_rfl, by simp [placed]⟩
    · exact (not_chained_of_stale (blocks below) unchained known low below aligned
        read chained).elim
  | cons head rest ih =>
    obtain ⟨first, later⟩ := blocks
    obtain ⟨fits, fitting⟩ := fitting
    rcases walkRounds_cases enough walked with rfl | ⟨below, less, frame, frameHash,
      encodedLen, padded, after, rfl, read, chained, walked⟩
    · exact ⟨0, Nat.zero_le _, by simp [placed]⟩
    rcases first with old | new
    · exact (not_chained_of_stale old unchained known low below aligned read chained).elim
    rw [readFrame_headed fits new present, bind_eq_ok] at read
    obtain ⟨decoded, decodes, read⟩ := read
    cases decoded with
    | none => cases read
    | some found =>
      have header : slice (file.readAt state.position (paddedLen head)) 0 128 =
          slice (frameImage extent.generation state.position head) 0 128 := by
        have long := le_paddedLen head
        simp only [extentFrameHeaderBytes] at long
        rw [slice_readAt (by omega), ← new]
        rfl
      -- The checksum has matched, so what was read is the image that was written.
      obtain ⟨-, rfl⟩ := decodePhysicalFrame_sound decodes extent.generated.2 fits.addressed
        (length_readAt _ _ _) header collisionFree.1
      simp only [readingOf, bind_eq_ok, require_eq_ok, exists_const, Except.ok.injEq,
        FrameReading.complete.injEq] at read
      obtain ⟨-, rfl, rfl, rfl, rfl⟩ := read
      obtain ⟨-, -, -, rfl⟩ := chain_eq_ok.mp chained
      have next : extentFrameAlignment ∣ state.position + paddedLen head :=
        (Nat.dvd_add_right aligned).mpr (paddedLen_dvd head)
      obtain ⟨count, bound, same⟩ := ih later fitting collisionFree.2
        (members head mem_cons_self)
        (fun other member => members other (mem_cons_of_mem _ member))
        (low.trans (Nat.le_add_right _ _)) next (enough.next (block_le_paddedLen head)) walked
      refine ⟨count + 1, Nat.succ_le_succ bound, ?_⟩
      rw [same, take_succ_cons, placed, append_assoc]
      rfl

end Walk

variable {cursor : Nat}
variable {found : File}

theorem staleAt_of_quiet {file : File} (quiet : TailQuiet stale file cursor limit)
    (reached : cursor ≤ position) (cursorAligned : extentFrameAlignment ∣ cursor)
    (aligned : extentFrameAlignment ∣ position) (inside : position + extentFrameAlignment ≤ limit)
    (same : Agree found file position (position + extentFrameAlignment)) :
    StaleAt stale found position := by
  rcases quiet with old | ⟨blank, old⟩
  · exact .inl (same.trans (old.mono reached inside))
  by_cases here : position = cursor
  · subst here
    refine .inr ?_
    rw [readAt_congr (same.mono le_rfl (by simp [extentFrameHeaderBytes, extentFrameAlignment])),
      blank]
  · have beyond : cursor + extentFrameHeaderBytes ≤ position := by
      obtain ⟨first, rfl⟩ := cursorAligned
      obtain ⟨second, rfl⟩ := aligned
      simp only [extentFrameHeaderBytes, extentFrameAlignment] at *
      omega
    exact .inl (same.trans (old.mono beyond inside))

variable {dataBytes : Nat}

/-- A block that begins inside the extent ends inside it. -/
theorem block_inside (known : KnownExtentDataBytes dataBytes)
    (aligned : extentFrameAlignment ∣ position) (below : position < extentFileBytes dataBytes) :
    position + extentFrameAlignment ≤ extentFileBytes dataBytes := by
  obtain ⟨blocks, total⟩ := block_dvd_file known
  obtain ⟨block, rfl⟩ := aligned
  rw [total] at below ⊢
  simp only [extentFrameAlignment] at *
  omega

variable {crashed : File}

theorem firstBlocks_of_torn {file after : File}
    (torn : Torn extentFrameAlignment file after crashed)
    (data : Agree found crashed extentDataOffset (extentFileBytes dataBytes))
    (quiet : TailQuiet stale file cursor (extentFileBytes dataBytes))
    (known : KnownExtentDataBytes dataBytes) (past : extentDataOffset ≤ position)
    (reached : cursor ≤ position) (cursorAligned : extentFrameAlignment ∣ cursor)
    (aligned : extentFrameAlignment ∣ position) (holds : Holds generation after position frames)
    (fitting : Fitting generation dataBytes position frames)
    (blank : endOf position frames < extentFileBytes dataBytes →
      after.readAt (endOf position frames) extentFrameHeaderBytes = zeros extentFrameHeaderBytes) :
    FirstBlocks generation (extentFileBytes dataBytes) stale found position frames := by
  induction frames generalizing position with
  | nil =>
    intro below
    have inside := block_inside known aligned below
    have here := data.mono past inside
    rcases torn.block_at aligned with old | new
    · exact staleAt_of_quiet quiet reached cursorAligned aligned inside (here.trans old)
    · refine .inr ?_
      rw [readAt_congr ((here.trans new).mono le_rfl
        (by simp [extentFrameHeaderBytes, extentFrameAlignment]))]
      exact blank below
  | cons frame rest ih =>
    obtain ⟨fits, fitting⟩ := fitting
    have block := block_le_paddedLen frame
    have inside : position + extentFrameAlignment ≤ extentFileBytes dataBytes := by
      have := fits.inside
      omega
    have here := data.mono past inside
    have next : extentFrameAlignment ∣ position + paddedLen frame :=
      (Nat.dvd_add_right aligned).mpr (paddedLen_dvd frame)
    rw [endOf_cons] at blank
    refine ⟨?_, ih (by omega) (by omega) next holds.2 fitting blank⟩
    rcases torn.block_at aligned with old | new
    · exact .inl (staleAt_of_quiet quiet reached cursorAligned aligned inside (here.trans old))
    · refine .inr ?_
      rw [readAt_congr ((here.trans new).mono le_rfl (by simp [extentFrameAlignment]))]
      exact header_of_image holds.1

theorem scanExtent_eq_ok {σ : Type} {file : File} {expected : Option DatabaseId}
    {visit : σ → JournalFrame → FramePlacement → Except JournalIoError σ} {seen out : σ}
    {tail : JournalScanTail} {reached : ExtentState} :
    scanExtent env file expected visit seen = .ok (tail, reached, out) ↔
      readSelectedExtentHeader env file true = .ok reached.header ∧
        (∀ id ∈ expected, reached.header.logical.databaseId = id) ∧
        ∃ final, walkExtentFrames env file reached.header .fromAnchor
            (extentFileBytes reached.header.dataBytes) visit seen = .ok (final, out) ∧
          final.footer = false ∧ tail = final.tail ∧ reached.nextPosition = final.position := by
  simp only [scanExtent, bind_eq_ok, require_eq_ok, exists_const, Except.ok.injEq, Prod.mk.injEq,
    Prod.exists]
  constructor
  · rintro ⟨extent, selected, owned, final, _, walked, unsealed, rfl, rfl, rfl⟩
    exact ⟨selected, owned, final, walked, unsealed, rfl, rfl⟩
  · rintro ⟨selected, owned, final, walked, unsealed, rfl, position⟩
    exact ⟨_, selected, owned, final, out, walked, unsealed, rfl, by rw [← position], rfl⟩

theorem selected_length {file : File} {header : ExtentHeader}
    (selected : readSelectedExtentHeader env file true = .ok header) :
    file.length = extentFileBytes header.dataBytes := by
  simp only [readSelectedExtentHeader, bind_eq_ok, require_eq_ok, exists_const, Except.ok.injEq]
    at selected
  obtain ⟨-, _, -, ⟨-, exact', -⟩, rfl⟩ := selected
  exact exact' trivial

theorem rounds_start : Rounds limit (limit / extentFrameAlignment + 1) position := by
  have bound := Nat.lt_div_mul_add (a := limit) (show 0 < extentFrameAlignment by decide)
  rw [Rounds, Nat.add_mul, Nat.one_mul]
  omega

theorem lastHash_mem (hash : Hash) (frames : List (EncodedJournalFrame env)) :
    lastHash hash frames ∈ hash :: frames.map EncodedJournalFrame.frameHash := by
  unfold lastHash
  cases last : frames.getLast? with
  | none => simp
  | some frame =>
    exact mem_cons_of_mem _ (mem_map_of_mem (mem_of_getLast? last))

/-- What a crash during a batch leaves: the contents before it whole, and a torn batch. -/
theorem crashed_batch {state : WorkerState env} {last : List (EncodedJournalFrame env)}
    (crash : Crashed extentFrameAlignment state.file (unsyncedWrites state last) crashed)
    (data : Agree found crashed extentDataOffset (extentFileBytes state.header.dataBytes))
    (quiet :
      TailQuiet stale state.file state.nextPosition (extentFileBytes state.header.dataBytes)) :
    Agree found state.file extentDataOffset state.nextPosition ∧ ∃ written,
      (written = last ∨ written = []) ∧
        Fitting state.header.generation state.header.dataBytes state.nextPosition written ∧
        FirstBlocks state.header.generation (extentFileBytes state.header.dataBytes) stale found
          state.nextPosition written := by
  have upTo := data.mono le_rfl state.inside
  cases encoded : batchWrites env state.header.generation state.header.dataBytes state.nextPosition
      last with
  | error reason =>
    -- Nothing encoded: the crash is a crash of no writes.
    rw [unsyncedWrites, encoded] at crash
    obtain ⟨done, rest, empty, torn⟩ := crash
    obtain ⟨rfl, -⟩ := nil_eq_append_iff.mp empty
    refine ⟨upTo.trans (torn.agree (by decide) (.refl _ _ _)), [], .inr rfl, trivial, ?_⟩
    intro below
    have inside := block_inside state.header.known state.aligned below
    exact staleAt_of_quiet quiet le_rfl state.aligned state.aligned inside
      ((data.mono state.past inside).trans (torn.agree (by decide) (.refl _ _ _)))
  | ok pair =>
    obtain ⟨fitting, -⟩ := batchWrites_eq_ok.mp encoded
    have torn := crash.torn (laid_unsyncedWrites state fitting)
      (unsyncedWrites_inside state fitting)
    refine ⟨upTo.trans (torn.agree (by decide)
      ((agree_written state fitting).mono (Nat.zero_le _) le_rfl)), last, .inl rfl, fitting, ?_⟩
    exact firstBlocks_of_torn torn data quiet state.header.known state.past le_rfl state.aligned
      state.aligned (holds_written state fitting) fitting (blank_written state fitting)

/-- Durability across crashes. A worker ran any batches on an extent with any stale contents
beyond its cursor, and crashed at any point of a further batch. The header slots may have been
rewritten since, as long as the selected anchor lies at the end of receipted frames. If the scan
of what is found succeeds, it visits the receipted frames behind the anchor, in order and in
place, and then a prefix of the unsynced batch. -/
theorem recovery_visits_receipted_then_prefix (start state : WorkerState env)
    (batches : List (List (EncodedJournalFrame env))) (last : List (EncodedJournalFrame env))
    (ran : journalWorker start batches = .ok state) {crashed found : File}
    (crash : Crashed extentFrameAlignment state.file (unsyncedWrites state last) crashed)
    (data : Agree found crashed extentDataOffset (extentFileBytes start.header.dataBytes))
    {expected : Option DatabaseId} {tail : JournalScanTail} {reached : ExtentState}
    {visited : List (JournalFrame × FramePlacement)}
    (scanned : scanExtent env found expected collect [] = .ok (tail, reached, visited))
    (generation : reached.header.generation = start.header.generation)
    (capacity : reached.header.dataBytes = start.header.dataBytes)
    (before after : List (EncodedJournalFrame env)) (split : batches.flatten = before ++ after)
    (anchor : reached.header.anchorPosition = endOf start.nextPosition before)
    (stale : Unchained start.file start.header.generation start.nextPosition
      (extentFileBytes start.header.dataBytes) (reached.header.logical.checkpointFrameHash ::
        (batches.flatten ++ last).map EncodedJournalFrame.frameHash))
    (collisionFree : CollisionFree start.header.generation found state.nextPosition last) :
    ∃ count ≤ last.length,
      visited = placed reached.header.anchorPosition (after ++ last.take count) := by
  obtain ⟨selected, -, final, walked, -⟩ := scanExtent_eq_ok.mp scanned
  have present : extentFileBytes reached.header.dataBytes ≤ found.length :=
    (selected_length selected).ge
  have grown := grown_of_run ran
  rw [← grown.header] at generation capacity data
  have quiet := grown.quiet
  rw [← grown.header] at quiet
  obtain ⟨whole, written, which, fitting, blocks⟩ := crashed_batch crash data quiet
  -- The receipted frames behind the anchor stand whole in what is found.
  have cursor : state.nextPosition = endOf reached.header.anchorPosition after := by
    rw [grown.cursor, split, endOf_append, anchor]
  have held : Holds reached.header.generation found reached.header.anchorPosition after := by
    have all := grown.holds
    rw [split, holds_append, ← anchor, ← grown.header, ← generation] at all
    refine all.2.congr ?_
    rw [← cursor]
    exact whole.mono reached.header.placed.1 le_rfl
  have fits : Fitting reached.header.generation reached.header.dataBytes
      reached.header.anchorPosition after := by
    have all := grown.fitting
    rw [split, ← grown.header, ← generation, ← capacity] at all
    rw [anchor]
    exact all.drop
  obtain ⟨less, resumed, position, hash, enough, walked⟩ :=
    walk_holds (.start reached.header .fromAnchor) held fits present rounds_start walked
  have arrived : resumed.position = state.nextPosition := position.trans cursor.symm
  have forward := le_endOf start.nextPosition batches.flatten
  rw [← grown.cursor] at forward
  rw [← grown.header, ← generation, ← capacity] at stale
  rw [← generation, ← capacity] at blocks fitting
  rw [← grown.header, ← generation] at collisionFree
  have known : resumed.previous.hash ∈ reached.header.logical.checkpointFrameHash ::
      (batches.flatten ++ last).map EncodedJournalFrame.frameHash := by
    rw [hash]
    rcases mem_cons.mp (lastHash_mem _ after) with same | member
    · rw [same]
      exact mem_cons_self
    · rw [split]
      refine mem_cons_of_mem _ ?_
      rw [map_append, map_append]
      exact mem_append_left _ (mem_append_right _ member)
  obtain ⟨count, bound, same⟩ := walk_batch start.file written
    (by rwa [arrived]) (by rwa [arrived])
    (by
      rw [arrived]
      rcases which with rfl | rfl
      · exact collisionFree
      · trivial)
    stale known
    (by
      intro frame member
      rcases which with rfl | rfl
      · exact mem_cons_of_mem _ (mem_map_of_mem (mem_append_right _ member))
      · cases member)
    (by rwa [arrived]) (by rw [arrived]; exact state.aligned) present enough walked
  rcases which with rfl | rfl
  · refine ⟨count, bound, ?_⟩
    rw [same, nil_append, placed_append, arrived, cursor]
    rfl
  · refine ⟨0, Nat.zero_le _, ?_⟩
    rw [same, take_nil, take_zero, append_nil]
    simp [placed, WalkState.start]

namespace Sample

/-- A digest that is the sum of the bytes. -/
def byteSum (bytes : Bytes) : Hash :=
  ⟨beBytes 32 (bytes.foldl (fun total byte => total + byte.toNat) 0), length_beBytes _ _⟩

def environment : FrameEnv where
  digest := byteSum
  decodeProof _ := .error .invalidValue
  mutationsAdmitted _ _ := .ok true
  validateSourceReclamation _ := .ok ()
  admitNativeLayout _ _ := true

def originHash : Hash := ⟨List.replicate 32 0, List.length_replicate⟩

/-- The bytes before the footer of a frame of one command that puts one value. -/
def frontBytes (predecessor covered : Option NonZeroU64) (previous : Hash) : Bytes :=
  frameMagic ++ beBytes 2 3 ++ UuidV7.sample.intoBytes.toList ++ [1, 0] ++
    beBytes 8 (sequenceValue predecessor) ++ beBytes 8 (sequenceValue covered) ++ beBytes 8 0 ++
    beBytes 8 0 ++ beBytes 2 1 ++ beBytes 2 1 ++ beBytes 2 0 ++ beBytes 2 0 ++ beBytes 4 1 ++
    beBytes 4 46 ++ previous.toList ++ List.replicate 96 0 ++ [2, 0, 0, 0] ++ beBytes 4 1 ++
    beBytes 4 1 ++ List.replicate 32 0 ++ [1, 1]

def logicalBytes (predecessor covered : Option NonZeroU64) (previous : Hash) : Bytes :=
  frontBytes predecessor covered previous ++ footerMagic ++ beBytes 8 298 ++
    (byteSum (frontBytes predecessor covered previous)).toList

def frame (predecessor covered : Option NonZeroU64) (previous : Hash) : JournalFrame where
  formatVersion := 3
  databaseId := UuidV7.sample
  kind := .command
  predecessorSequence := predecessor
  coveredSequence := covered
  predecessorAdministrationSequence := none
  coveredAdministrationSequence := none
  transitionCount := 1
  commandCount := 1
  auditCount := 0
  previousHash := previous
  mutations := [.put .entities [1] none [1]]
  changelog := none
  sourceReclamation := none

/-- A frame of a single block. -/
def linked (predecessor covered : Option NonZeroU64) (previous : Hash)
    (decodes : JournalFrame.decode environment (logicalBytes predecessor covered previous) =
      .ok (frame predecessor covered previous, byteSum (frontBytes predecessor covered previous))) :
    EncodedJournalFrame environment := ⟨_, _, _, decodes⟩

/-- Three frames, each continuing from the one before it. -/
def first : EncodedJournalFrame environment :=
  linked none (some (.lit 1)) originHash (by decide +kernel)

def second : EncodedJournalFrame environment :=
  linked (some (.lit 1)) (some (.lit 2)) first.frameHash (by decide +kernel)

def third : EncodedJournalFrame environment :=
  linked (some (.lit 2)) (some (.lit 3)) second.frameHash (by decide +kernel)

theorem paddedLen_first : paddedLen first = 4096 := by decide +kernel

theorem paddedLen_second : paddedLen second = 4096 := by decide +kernel

theorem paddedLen_third : paddedLen third = 4096 := by decide +kernel

def header : ExtentHeader where
  logical := ⟨UuidV7.sample, none, none, originHash⟩
  generation := 2
  slot := 0
  dataBytes := compactExtentDataBytes
  revision := 0
  anchorPosition := extentDataOffset
  generated := ⟨Nat.two_pos, by norm_num⟩
  slotted := Nat.two_pos
  known := .inl rfl
  revised := by norm_num
  placed := ⟨le_rfl, Nat.le_add_right _ _, ⟨2, rfl⟩⟩

/-- A frame of the generation before, in the third data block. -/
def staleImage : Bytes := frameImage 1 16384 first

theorem length_staleImage : staleImage.length = 4096 :=
  (length_frameImage 1 16384 first).trans paddedLen_first

theorem length_slot : (header.encode environment).length = extentHeaderSlotBytes := by
  decide +kernel

theorem decode_slot :
    ExtentHeader.decode environment (header.encode environment) 0 = .ok header := by
  decide +kernel

/-- An extent used before: one header, zeros behind it, and the stale frame. -/
def blank : File := ⟨fun _ => 0, extentFileBytes compactExtentDataBytes⟩

def headed : File := blank.writeAt 0 (header.encode environment)

def file : File := headed.writeAt 16384 staleImage

theorem length_file : file.length = extentFileBytes compactExtentDataBytes := by
  have inner : headed.length = extentFileBytes compactExtentDataBytes :=
    length_writeAt_inside (by
      rw [length_slot]
      exact show (4096 : Nat) ≤ 8192 + 8388608 by norm_num)
  rw [file, length_writeAt_inside, inner]
  rw [length_staleImage, inner]
  exact show (16384 + 4096 : Nat) ≤ 8192 + 8388608 by norm_num

def worker : WorkerState environment where
  header := header
  nextPosition := extentDataOffset
  file := file
  receipted := []
  sized := length_file
  past := le_rfl
  inside := Nat.le_add_right _ _
  aligned := ⟨2, rfl⟩

theorem readAt_stale : file.readAt 16384 4096 = staleImage := by
  rw [← length_staleImage]
  exact readAt_writeAt_self _ _ _

/-- Beside the header slot and the stale frame the extent is blank. -/
theorem readAt_file {position count : Nat} (beyond : extentHeaderSlotBytes ≤ position)
    (beside : position + count ≤ 16384 ∨ 20480 ≤ position) :
    file.readAt position count = zeros count := by
  have same : Agree file blank position (position + count) := by
    intro index low high
    rw [file, byte_writeAt_outside (by rw [length_staleImage]; omega), headed,
      byte_writeAt_outside (.inr (by rw [length_slot]; omega))]
  rw [readAt_congr same]
  simp [readAt, blank, zeros, map_const']

/-- Nothing but the header slots of an extent decides which header is selected. -/
theorem selected {found : File} (same : Agree found file 0 extentDataOffset)
    (sized : found.length = extentFileBytes compactExtentDataBytes) :
    readSelectedExtentHeader environment found true = .ok header := by
  have written : found.readAt 0 extentHeaderSlotBytes = header.encode environment := by
    have unstaled : Agree file headed 0 extentHeaderSlotBytes := fun index _ high =>
      byte_writeAt_outside (.inl (high.trans (by decide)))
    rw [readAt_congr ((same.mono le_rfl (by decide)).trans unstaled)]
    have written := readAt_writeAt_self blank 0 (header.encode environment)
    rwa [length_slot] at written
  have blank :
      found.readAt extentHeaderSlotBytes extentHeaderSlotBytes = zeros extentHeaderSlotBytes := by
    have low : extentHeaderSlotBytes + extentHeaderSlotBytes ≤ 16384 := by decide
    have low' : extentHeaderSlotBytes + extentHeaderSlotBytes ≤ extentDataOffset := by decide
    rw [readAt_congr (same.mono (Nat.zero_le _) low'), readAt_file le_rfl (.inl low)]
  have held : allZero (header.encode environment) = false := by decide +kernel
  have firstSlot : slotHeader environment found 0 = some header := by
    simp only [slotHeader, Nat.zero_mul, written, held, Bool.false_eq_true, if_false, decode_slot,
      Except.toOption]
  have secondSlot : slotHeader environment found 1 = none := by
    simp only [slotHeader, Nat.one_mul, blank, zeros, allZero_replicate, if_true]
  have long : extentDataOffset ≤ found.length := sized ▸ Nat.le_add_right _ _
  simp only [readSelectedExtentHeader, require_pos long, ok_bind, filterMap_cons,
    firstSlot, secondSlot,
    filterMap_nil, insertionSort_cons, insertionSort_nil, orderedInsert_nil,
    getLast?_singleton, okOr_some, dropLast_singleton, getLast?_nil, Option.any_none]
  rw [require_pos ⟨Bool.false_ne_true, fun _ => sized, sized.le⟩, ok_bind]

/-- The stale frame is of another generation, and no other block begins like a frame. -/
theorem unchained (hashes : List Hash) : Unchained file 2 extentDataOffset
    (extentFileBytes compactExtentDataBytes) hashes := by
  intro position low _ aligned magic generation
  by_cases here : position = 16384
  · have field : file.readAt (16384 + 12) 8 = slice (file.readAt 16384 4096) 12 20 :=
      (slice_readAt (show 20 ≤ 4096 by decide)).symm
    rw [here, field, readAt_stale] at generation
    exact absurd generation (by decide +kernel)
  · have beside : position + 8 ≤ 16384 ∨ 20480 ≤ position := by
      obtain ⟨block, rfl⟩ := aligned
      simp only [extentFrameAlignment] at *
      omega
    rw [readAt_file (le_trans (by decide) low) beside] at magic
    exact absurd magic (by decide)

theorem fits {single : EncodedJournalFrame environment} (short : paddedLen single = 4096)
    {position : Nat} (past : extentDataOffset ≤ position)
    (aligned : extentFrameAlignment ∣ position)
    (low : position ≤ 16384) : Fits 2 position compactExtentDataBytes single where
  generated := two_ne_zero
  past := past
  aligned := aligned
  configured := by rw [short]; decide
  capacity := by rw [short]; decide
  inside := by
    rw [short]
    exact (Nat.add_le_add_right low 4096).trans (show (16384 + 4096 : Nat) ≤ 8192 +
      8388608 by norm_num)
  addressed := low.trans_lt (by norm_num)

theorem fits_first : Fits 2 extentDataOffset compactExtentDataBytes first :=
  fits paddedLen_first le_rfl ⟨2, rfl⟩ (by decide)

theorem fits_second : Fits 2 12288 compactExtentDataBytes second :=
  fits paddedLen_second (by decide) ⟨3, rfl⟩ (by decide)

theorem endOf_first : endOf extentDataOffset [first] = 12288 := by
  rw [endOf_cons, endOf_nil, paddedLen_first, extentDataOffset]

/-- What a crash leaves between the two writes of the batch. -/
def torn (state : WorkerState environment) : File :=
  state.file.writeAt 12288 (frameImage 2 12288 second)

section Crash

variable {state : WorkerState environment}

theorem agree_torn {start stop : Nat} (outside : stop ≤ 12288 ∨ 16384 ≤ start) :
    Agree (torn state) state.file start stop := fun _ _ _ =>
  byte_writeAt_outside (by rw [length_frameImage, paddedLen_second]; omega)

theorem torn_second : (torn state).readAt 12288 (paddedLen second) = frameImage 2 12288 second := by
  rw [← length_frameImage 2 12288 second]
  exact readAt_writeAt_self _ _ _

variable (ran : journalBatch worker [first] = .ok state)

include ran

theorem grown : Grown worker state [first] := (Grown.refl worker).journalBatch ran

theorem nextPosition : state.nextPosition = 12288 := (grown ran).cursor.trans endOf_first

theorem length_torn : (torn state).length = extentFileBytes compactExtentDataBytes := by
  have sized : state.file.length = extentFileBytes compactExtentDataBytes := by
    rw [state.sized, (grown ran).header]
    rfl
  rw [torn, length_writeAt_inside, sized]
  rw [length_frameImage, paddedLen_second, sized]
  exact show (12288 + 4096 : Nat) ≤ 8192 + 8388608 by norm_num

theorem crash : Crashed extentFrameAlignment state.file (unsyncedWrites state [second, third])
    (torn state) := by
  have fitting : Fitting state.header.generation state.header.dataBytes state.nextPosition
      [second, third] := by
    rw [(grown ran).header, nextPosition ran]
    refine ⟨fits_second, ?_, trivial⟩
    rw [paddedLen_second]
    exact fits paddedLen_third (by decide) ⟨4, rfl⟩ le_rfl
  rw [unsyncedWrites_of_fitting state fitting, (grown ran).header, nextPosition ran,
    frameWrites, cons_append]
  refine ⟨[_], _, singleton_append.symm, ?_⟩
  rw [applyAll_cons, applyAll_nil]
  exact Torn.persisted _ _ _

theorem torn_stale : (torn state).readAt 16384 4096 = staleImage := by
  have old := (grown ran).quiet.beyond
  rw [nextPosition ran] at old
  rw [readAt_congr ((agree_torn (.inr le_rfl)).trans (old.mono (by decide) (by
    exact show (16384 + 4096 : Nat) ≤ 8192 + 8388608 by norm_num))), ← readAt_stale]
  rfl

theorem torn_first : (torn state).readAt extentDataOffset (paddedLen first) =
    frameImage 2 extentDataOffset first := by
  have low : extentDataOffset + paddedLen first ≤ 12288 := by
    rw [paddedLen_first]
    decide
  rw [readAt_congr (agree_torn (.inl low))]
  exact (grown ran).holds.1

/-- The walk after the first frame, and after the two that survive. -/
def afterFirst : WalkState :=
  (WalkState.start header .fromAnchor).advanced first.frame first.frameHash first.bytes.length
    (paddedLen first)

def afterSecond : WalkState :=
  afterFirst.advanced second.frame second.frameHash second.bytes.length (paddedLen second)

omit ran in
theorem position_afterFirst : afterFirst.position = 12288 := by
  rw [afterFirst, WalkState.advanced, paddedLen_first]
  rfl

omit ran in
theorem position_afterSecond : afterSecond.position = 16384 := by
  rw [afterSecond, WalkState.advanced, position_afterFirst, paddedLen_second]

/-- The walk ends at the frame of the generation before. -/
theorem readFrame_torn : readFrame environment (torn state) header .fromAnchor
    (extentFileBytes header.dataBytes) false afterSecond = .ok .ended := by
  have found : readExactAt (torn state) afterSecond.position extentFrameHeaderBytes =
      .ok (slice staleImage 0 128) := by
    rw [position_afterSecond, readExactAt_eq_ok, length_torn ran, ← torn_stale ran,
      slice_readAt (by decide)]
    exact ⟨show (16384 + 128 : Nat) ≤ 8192 + 8388608 by norm_num, rfl⟩
  have held : allZero (slice staleImage 0 128) = false := by decide +kernel
  have magic : slice (slice staleImage 0 128) 0 8 = extentFrameMagic := by decide +kernel
  have older : readU64 (slice staleImage 0 128) 12 = .ok 1 := by decide +kernel
  rw [readFrame, found, ok_bind, if_neg (by rw [held]; decide), if_neg (by rw [magic]; decide),
    if_neg (not_not.mpr magic), older]
  rfl

theorem scan_torn : scanExtent environment (torn state) none collect [] =
    .ok (afterSecond.tail, ⟨header, afterSecond.position⟩,
      placed extentDataOffset [first, second]) := by
  have slots : Agree (torn state) file 0 extentDataOffset :=
    (agree_torn (.inl (by decide))).trans (grown ran).before
  refine scanExtent_eq_ok.mpr ⟨selected slots (length_torn ran),
    by simp, afterSecond, ?_, rfl, rfl, rfl⟩
  have firstHeld := torn_first ran
  have secondHeld := @torn_second state
  have secondFits := fits_second
  rw [← position_afterFirst] at secondHeld secondFits
  have below : afterSecond.position < extentFileBytes header.dataBytes := by
    rw [position_afterSecond]
    exact show (16384 : Nat) < 8192 + 8388608 by norm_num
  have firstProof : admitPhysicalRecovery environment first.bytes first.frameHash = .ok none := by
    decide +kernel
  have secondProof :
      admitPhysicalRecovery environment second.bytes second.frameHash = .ok none := by
    decide +kernel
  have firstChain : (WalkState.start header .fromAnchor).chain header .fromAnchor false first.frame
      first.frameHash first.bytes.length (paddedLen first) = .ok afterFirst :=
    chain_eq_ok.mpr ⟨rfl, ⟨rfl, rfl, rfl⟩, by decide +kernel, rfl⟩
  have secondChain : afterFirst.chain header .fromAnchor false second.frame second.frameHash
      second.bytes.length (paddedLen second) = .ok afterSecond :=
    chain_eq_ok.mpr ⟨rfl, ⟨rfl, rfl, rfl⟩, by decide +kernel, rfl⟩
  obtain ⟨less, rounds⟩ :
      ∃ less, extentFileBytes header.dataBytes / extentFrameAlignment = less + 2 :=
    ⟨2048, by decide⟩
  rw [walkExtentFrames, walkExtentFramesWithLimits, rounds,
    walkRounds_image header (.start header .fromAnchor) fits_first firstHeld
    (length_torn ran).ge firstProof firstChain,
    walkRounds_image header afterFirst secondFits secondHeld
    (length_torn ran).ge secondProof secondChain,
    walkRounds, if_pos below, readFrame_torn ran, position_afterFirst]
  simp only [ok_bind, nil_append, placed, cons_append, paddedLen_first]
  rfl

end Crash

end Sample

open Sample

/-- The premises hold of a run over an extent used before: one batch is receipted, and the crash
tears the next one where a frame of the generation before still stands. -/
theorem recovery_visits_receipted_then_prefix_sample : ∃ state : WorkerState Sample.environment,
    journalWorker Sample.worker [[Sample.first]] = .ok state ∧
      scanExtent Sample.environment (Sample.torn state) none collect [] =
        .ok (Sample.afterSecond.tail, ⟨Sample.header, Sample.afterSecond.position⟩,
          placed extentDataOffset [Sample.first, Sample.second]) ∧
      ∃ count ≤ 2, placed extentDataOffset [Sample.first, Sample.second] =
        placed extentDataOffset
          ([Sample.first] ++ [Sample.second, Sample.third].take count) := by
  obtain ⟨state, ran⟩ := journalBatch_of_fitting worker
    (show Fitting 2 _ _ [first] from ⟨fits_first, trivial⟩)
  have whole : journalWorker worker [[first]] = .ok state := by
    rw [journalWorker, foldlM_cons, ran]
    rfl
  refine ⟨state, whole, scan_torn ran, ?_⟩
  refine recovery_visits_receipted_then_prefix worker state [[first]] [second, third] whole
    (crash ran) (.refl _ _ _) (scan_torn ran) rfl rfl [] [first] rfl rfl (unchained _) ?_
  rw [nextPosition ran]
  refine ⟨fun _ => congrArg checksumInput torn_second, fun same => ?_, trivial⟩
  rw [paddedLen_second, paddedLen_third, torn_stale ran] at same
  exact absurd same (by decide +kernel)

end JournalCrash
