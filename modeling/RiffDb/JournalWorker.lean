import RiffDb.ExtentFrames

/-!
# The journal worker and the contents it leaves

The worker lays the images of one batch out from its cursor, writes them with one blank header at
the new tail, and syncs once. Receipts complete only after the sync. A frame that does not fit fails
the whole batch before anything is written.

The invariant of a run: from where it began the images stand one after another up to the cursor, the
block at the cursor is blank or untouched, and so is everything beyond.
-/

namespace JournalWorker

open CheckedCode BlockFiles JournalFormat JournalExtent ExtentFrames

variable {env : FrameEnv} {batch : List (EncodedJournalFrame env)}

/-- A running worker on its preallocated extent. -/
structure WorkerState (env : FrameEnv) where
  header : ExtentHeader
  nextPosition : Nat
  file : File
  receipted : List (EncodedJournalFrame env)
  sized : file.length = extentFileBytes header.dataBytes
  past : extentDataOffset ≤ nextPosition
  inside : nextPosition ≤ extentFileBytes header.dataBytes
  aligned : extentFrameAlignment ∣ nextPosition

/-- The images of one batch from a position on, and the tail after them. -/
def encodeBatch (env : FrameEnv) (generation dataBytes : Nat) :
    Nat → List (EncodedJournalFrame env) → Except JournalIoError (List EncodedExtentFrame × Nat)
  | position, [] => .ok ([], position)
  | position, frame :: rest => do
    let physical ← EncodedExtentFrame.encodeForExtent env generation position dataBytes frame
    let (others, tail) ← encodeBatch env generation dataBytes
      (position + physical.bytes.length) rest
    .ok (physical :: others, tail)

/-- The positional writes of one batch: its frames, then a blank header at the new tail so that
no stale frame beyond it is taken for a torn one of this generation. -/
def batchWrites (env : FrameEnv) (generation dataBytes position : Nat)
    (batch : List (EncodedJournalFrame env)) : Except JournalIoError (List Write × Nat) := do
  let (physical, tail) ← encodeBatch env generation dataBytes position batch
  let blank : List Write :=
    if tail < extentFileBytes dataBytes then [⟨tail, zeros extentFrameHeaderBytes⟩] else []
  .ok (physical.map (fun frame => ⟨frame.position, frame.bytes⟩) ++ blank, tail)

def endOf (position : Nat) (frames : List (EncodedJournalFrame env)) : Nat :=
  position + (frames.map paddedLen).sum

@[simp] theorem endOf_nil (position : Nat) :
    endOf position ([] : List (EncodedJournalFrame env)) = position := rfl

open List

@[simp] theorem endOf_cons (position : Nat) (frame : EncodedJournalFrame env)
    (rest : List (EncodedJournalFrame env)) :
    endOf position (frame :: rest) = endOf (position + paddedLen frame) rest := by
  simp only [endOf, map_cons, sum_cons]
  omega

theorem endOf_append (position : Nat) (first second : List (EncodedJournalFrame env)) :
    endOf position (first ++ second) = endOf (endOf position first) second := by
  simp only [endOf, map_append, sum_append]
  omega

theorem le_endOf (position : Nat) (frames : List (EncodedJournalFrame env)) :
    position ≤ endOf position frames := Nat.le_add_right _ _

theorem endOf_dvd {position : Nat} (frames : List (EncodedJournalFrame env)) :
    extentFrameAlignment ∣ endOf position frames ↔ extentFrameAlignment ∣ position := by
  refine Nat.dvd_add_left (dvd_sum ?_)
  intro length member
  obtain ⟨frame, -, rfl⟩ := mem_map.mp member
  exact paddedLen_dvd frame

/-- Every frame of a batch fits where it is laid out. -/
def Fitting (generation dataBytes : Nat) : Nat → List (EncodedJournalFrame env) → Prop
  | _, [] => True
  | position, frame :: rest =>
    Fits generation position dataBytes frame ∧
      Fitting generation dataBytes (position + paddedLen frame) rest

/-- The writes of a batch's frames. -/
def frameWrites (generation : Nat) : Nat → List (EncodedJournalFrame env) → List Write
  | _, [] => []
  | position, frame :: rest =>
    ⟨position, frameImage generation position frame⟩ ::
      frameWrites generation (position + paddedLen frame) rest

/-- The blank header at a tail that lies inside the file. -/
def tailWrites (dataBytes tail : Nat) : List Write :=
  if tail < extentFileBytes dataBytes then [⟨tail, zeros extentFrameHeaderBytes⟩] else []

variable {generation dataBytes position tail : Nat}

theorem encodeBatch_eq_ok {physical : List EncodedExtentFrame} :
    encodeBatch env generation dataBytes position batch = .ok (physical, tail) ↔
      Fitting generation dataBytes position batch ∧ tail = endOf position batch ∧
        physical.map (fun frame => (⟨frame.position, frame.bytes⟩ : Write)) =
          frameWrites generation position batch := by
  induction batch generalizing position physical with
  | nil =>
    simp only [encodeBatch, Except.ok.injEq, Prod.mk.injEq, Fitting, frameWrites, true_and,
      map_eq_nil_iff, endOf_nil]
    constructor <;> rintro ⟨rfl, rfl⟩ <;> exact ⟨rfl, rfl⟩
  | cons frame rest ih =>
    simp only [encodeBatch, bind_eq_ok, encodeForExtent_eq_ok, Fitting, frameWrites, endOf_cons,
      Prod.exists, Except.ok.injEq, Prod.mk.injEq]
    constructor
    · rintro ⟨_, ⟨fits, rfl⟩, others, last, encoded, rfl, rfl⟩
      rw [length_frameImage, ih] at encoded
      obtain ⟨fitting, stop, same⟩ := encoded
      exact ⟨⟨fits, fitting⟩, stop, by rw [map_cons, same]⟩
    · rintro ⟨⟨fits, fitting⟩, stop, same⟩
      cases physical with
      | nil => cases same
      | cons head others =>
        rw [map_cons, List.cons.injEq] at same
        obtain ⟨first, others'⟩ := same
        have shape : head = ⟨frameImage generation position frame, position⟩ := by
          obtain ⟨place, bytes⟩ := Write.mk.inj first
          exact EncodedExtentFrame.ext bytes place
        refine ⟨head, ⟨fits, shape⟩, others, tail, ?_, rfl, rfl⟩
        rw [shape, length_frameImage, ih]
        exact ⟨fitting, stop, others'⟩

theorem batchWrites_eq_ok {writes : List Write} :
    batchWrites env generation dataBytes position batch = .ok (writes, tail) ↔
      Fitting generation dataBytes position batch ∧ tail = endOf position batch ∧
        writes = frameWrites generation position batch ++ tailWrites dataBytes tail := by
  simp only [batchWrites, bind_eq_ok, Prod.exists, Except.ok.injEq, Prod.mk.injEq]
  constructor
  · rintro ⟨physical, stop, encoded, rfl, rfl⟩
    obtain ⟨fitting, rfl, same⟩ := encodeBatch_eq_ok.mp encoded
    exact ⟨fitting, rfl, by rw [same]; rfl⟩
  · rintro ⟨fitting, rfl, rfl⟩
    refine ⟨(frameWrites generation position batch).map fun write => ⟨write.bytes, write.position⟩,
      endOf position batch, encodeBatch_eq_ok.mpr ⟨fitting, rfl, ?_⟩, ?_, rfl⟩
    · rw [map_map]
      exact map_id _
    · rw [map_map]
      exact congrArg (· ++ tailWrites dataBytes (endOf position batch)) (map_id _)

variable {generation dataBytes position : Nat}

theorem Fitting.inside (fitting : Fitting generation dataBytes position batch)
    (start : position ≤ extentFileBytes dataBytes) :
    endOf position batch ≤ extentFileBytes dataBytes := by
  induction batch generalizing position with
  | nil => exact start
  | cons frame rest ih =>
    rw [endOf_cons]
    exact ih fitting.2 fitting.1.inside

variable {generation position : Nat}

theorem frameWrites_inside : ∀ write ∈ frameWrites generation position batch,
      position ≤ write.position ∧ write.stop ≤ endOf position batch := by
  induction batch generalizing position with
  | nil => simp [frameWrites]
  | cons frame rest ih =>
    intro write member
    rw [endOf_cons]
    rcases mem_cons.mp member with rfl | later
    · refine ⟨le_rfl, ?_⟩
      simp only [Write.stop, length_frameImage]
      exact le_endOf _ rest
    · obtain ⟨low, high⟩ := ih write later
      exact ⟨by omega, high⟩

variable {dataBytes : Nat}

theorem block_dvd_file (known : KnownExtentDataBytes dataBytes) :
    extentFrameAlignment ∣ extentFileBytes dataBytes := by
  rcases known with rfl | rfl | rfl <;> decide

variable {tail : Nat}

/-- A blank header at an aligned tail stays inside the file. -/
theorem tailWrites_inside (known : KnownExtentDataBytes dataBytes)
    (aligned : extentFrameAlignment ∣ tail) : ∀ write ∈ tailWrites dataBytes tail,
      write.position = tail ∧ write.bytes = zeros extentFrameHeaderBytes ∧
        write.stop ≤ extentFileBytes dataBytes := by
  intro write member
  simp only [tailWrites] at member
  split at member
  · rename_i below
    rw [mem_singleton] at member
    subst member
    refine ⟨rfl, rfl, ?_⟩
    obtain ⟨blocks, total⟩ := block_dvd_file known
    obtain ⟨block, rfl⟩ := aligned
    simp only [Write.stop, length_zeros, extentFrameHeaderBytes, extentFrameAlignment] at *
    omega
  · cases member

theorem laid_frameWrites (aligned : extentFrameAlignment ∣ position) (rest : List Write)
    (after : Laid extentFrameAlignment (endOf position batch) rest) :
    Laid extentFrameAlignment position (frameWrites generation position batch ++ rest) := by
  induction batch generalizing position with
  | nil => exact after
  | cons frame others ih =>
    rw [endOf_cons] at after
    refine ⟨le_rfl, aligned, ?_⟩
    rw [Write.stop, length_frameImage]
    exact ih ((Nat.dvd_add_right aligned).mpr (paddedLen_dvd frame)) after

theorem laid_tail (aligned : extentFrameAlignment ∣ tail) :
    Laid extentFrameAlignment tail (tailWrites dataBytes tail) := by
  unfold tailWrites
  split
  · exact ⟨le_rfl, aligned, trivial⟩
  · trivial

theorem laid_batch (aligned : extentFrameAlignment ∣ position) : Laid extentFrameAlignment position
      (frameWrites generation position batch ++ tailWrites dataBytes (endOf position batch)) := by
  exact laid_frameWrites aligned _ (laid_tail ((endOf_dvd batch).mpr aligned))

/-- All writes of a batch stay inside the extent. -/
theorem batch_inside (fitting : Fitting generation dataBytes position batch)
    (known : KnownExtentDataBytes dataBytes)
    (start : position ≤ extentFileBytes dataBytes) (aligned : extentFrameAlignment ∣ position) :
    ∀ write ∈ frameWrites generation position batch ++ tailWrites dataBytes (endOf position batch),
      write.stop ≤ extentFileBytes dataBytes := by
  intro write member
  rcases mem_append.mp member with frame | tail
  · exact (frameWrites_inside write frame).2.trans (fitting.inside start)
  · exact (tailWrites_inside known ((endOf_dvd batch).mpr aligned) write tail).2.2

/-- One batch: encode, write, sync, complete the receipts. -/
def journalBatch (state : WorkerState env) (batch : List (EncodedJournalFrame env)) :
    Except JournalIoError (WorkerState env) :=
  match encoded : batchWrites env state.header.generation state.header.dataBytes state.nextPosition
      batch with
  | .error reason => .error reason
  | .ok (writes, tail) =>
    have laid := batchWrites_eq_ok.mp encoded
    .ok {
      header := state.header
      nextPosition := tail
      file := applyAll state.file writes
      receipted := state.receipted ++ batch
      sized := by
        rw [← state.sized]
        refine length_applyAll_inside _ ?_
        rw [state.sized, laid.2.2, laid.2.1]
        exact batch_inside laid.1 state.header.known state.inside state.aligned
      past := by rw [laid.2.1]; exact state.past.trans (le_endOf _ _)
      inside := by rw [laid.2.1]; exact laid.1.inside state.inside
      aligned := by rw [laid.2.1]; exact (endOf_dvd batch).mpr state.aligned }

/-- A worker that is handed one batch after another and stops at the first failure. -/
def journalWorker (state : WorkerState env) (batches : List (List (EncodedJournalFrame env))) :
    Except JournalIoError (WorkerState env) := batches.foldlM journalBatch state

/-- What a batch writes before its sync; a batch that does not encode writes nothing. -/
def unsyncedWrites (state : WorkerState env)
    (batch : List (EncodedJournalFrame env)) : List Write :=
  match batchWrites env state.header.generation state.header.dataBytes state.nextPosition batch with
  | .error _ => []
  | .ok (writes, _) => writes

theorem unsyncedWrites_of_fitting (state : WorkerState env)
    (fitting : Fitting state.header.generation state.header.dataBytes state.nextPosition batch) :
    unsyncedWrites state batch = frameWrites state.header.generation state.nextPosition batch ++
      tailWrites state.header.dataBytes (endOf state.nextPosition batch) := by
  rw [unsyncedWrites, batchWrites_eq_ok.mpr ⟨fitting, rfl, rfl⟩]

variable {state after : WorkerState env}

theorem journalBatch_eq_ok (done : journalBatch state batch = .ok after) :
    Fitting state.header.generation state.header.dataBytes state.nextPosition batch ∧
      after.header = state.header ∧ after.nextPosition = endOf state.nextPosition batch ∧
      after.receipted = state.receipted ++ batch ∧ after.file = applyAll state.file
        (frameWrites state.header.generation state.nextPosition batch ++
          tailWrites state.header.dataBytes (endOf state.nextPosition batch)) := by
  unfold journalBatch at done
  split at done
  · cases done
  · rename_i writes tail encoded
    obtain ⟨fitting, rfl, rfl⟩ := batchWrites_eq_ok.mp encoded
    cases done
    exact ⟨fitting, rfl, rfl, rfl, rfl⟩

theorem journalBatch_of_fitting (state : WorkerState env)
    (fitting : Fitting state.header.generation state.header.dataBytes state.nextPosition batch) :
    ∃ after, journalBatch state batch = .ok after := by
  unfold journalBatch
  split
  · rename_i reason failed
    rw [batchWrites_eq_ok.mpr ⟨fitting, rfl, rfl⟩] at failed
    cases failed
  · exact ⟨_, rfl⟩

/-- The images of the frames stand one after another from a position on. -/
def Holds (generation : Nat) (file : File) : Nat → List (EncodedJournalFrame env) → Prop
  | _, [] => True
  | position, frame :: rest =>
    file.readAt position (paddedLen frame) = frameImage generation position frame ∧
      Holds generation file (position + paddedLen frame) rest

variable {frames : List (EncodedJournalFrame env)}
variable {file : File}

theorem Holds.congr {other : File} (holds : Holds generation file position frames)
    (same : Agree other file position (endOf position frames)) :
    Holds generation other position frames := by
  induction frames generalizing position with
  | nil => trivial
  | cons frame rest ih =>
    rw [endOf_cons] at same
    have short := le_endOf (position + paddedLen frame) rest
    refine ⟨?_, ih holds.2 (same.mono (by omega) le_rfl)⟩
    rw [File.readAt_congr (same.mono le_rfl short), holds.1]

variable {first second : List (EncodedJournalFrame env)}

theorem holds_append : Holds generation file position (first ++ second) ↔
      Holds generation file position first ∧
        Holds generation file (endOf position first) second := by
  induction first generalizing position with
  | nil => simp [Holds]
  | cons frame rest ih => simp only [cons_append, Holds, ih, endOf_cons, and_assoc]

theorem holds_frameWrites (file : File) (aligned : extentFrameAlignment ∣ position)
    (rest : List Write) (after : Laid extentFrameAlignment (endOf position frames) rest) :
    Holds generation (applyAll file (frameWrites generation position frames ++ rest))
      position frames := by
  induction frames generalizing position file with
  | nil => trivial
  | cons frame others ih =>
    rw [endOf_cons] at after
    have next : extentFrameAlignment ∣ position + paddedLen frame :=
      (Nat.dvd_add_right aligned).mpr (paddedLen_dvd frame)
    have later : Laid extentFrameAlignment (position + paddedLen frame)
        (frameWrites generation (position + paddedLen frame) others ++ rest) :=
      laid_frameWrites next rest after
    simp only [frameWrites, cons_append, applyAll_cons]
    refine ⟨?_, ih _ next after⟩
    rw [File.readAt_congr ((agree_applyAll_before _ later).mono (Nat.zero_le _) le_rfl),
      ← length_frameImage generation position frame]
    exact File.readAt_writeAt_self _ _ _

/-- From the cursor on the file is as it was found, but for a blank header that may stand at the
cursor itself. -/
def TailQuiet (found file : File) (cursor limit : Nat) : Prop :=
  Agree file found cursor limit ∨
    file.readAt cursor extentFrameHeaderBytes = zeros extentFrameHeaderBytes ∧
      Agree file found (cursor + extentFrameHeaderBytes) limit

theorem TailQuiet.beyond {found : File} {cursor limit : Nat}
    (quiet : TailQuiet found file cursor limit) :
    Agree file found (cursor + extentFrameHeaderBytes) limit := by
  rcases quiet with same | ⟨-, same⟩
  · exact same.mono (Nat.le_add_right _ _) le_rfl
  · exact same

/-- What a run has done to the extent it began with. -/
structure Grown (start state : WorkerState env)
    (frames : List (EncodedJournalFrame env)) : Prop where
  header : state.header = start.header
  receipted : state.receipted = start.receipted ++ frames
  cursor : state.nextPosition = endOf start.nextPosition frames
  fitting : Fitting start.header.generation start.header.dataBytes start.nextPosition frames
  holds : Holds start.header.generation state.file start.nextPosition frames
  before : Agree state.file start.file 0 start.nextPosition
  quiet :
    TailQuiet start.file state.file state.nextPosition (extentFileBytes start.header.dataBytes)

theorem Grown.refl (start : WorkerState env) : Grown start start [] where
  header := rfl
  receipted := (append_nil _).symm
  cursor := rfl
  fitting := trivial
  holds := trivial
  before := .refl _ _ _
  quiet := .inl (.refl _ _ _)

theorem Fitting.append (before : Fitting generation dataBytes position first)
    (after : Fitting generation dataBytes (endOf position first) second) :
    Fitting generation dataBytes position (first ++ second) := by
  induction first generalizing position with
  | nil => exact after
  | cons frame rest ih => exact ⟨before.1, ih before.2 (by rwa [endOf_cons] at after)⟩

theorem Fitting.drop (whole : Fitting generation dataBytes position (first ++ second)) :
    Fitting generation dataBytes (endOf position first) second := by
  induction first generalizing position with
  | nil => exact whole
  | cons frame rest ih =>
    rw [endOf_cons]
    exact ih whole.2

/-- After a batch the block at the new cursor starts with a blank header, and nothing beyond it
has changed. -/
theorem tail_after_batch (generation dataBytes position : Nat) (file : File)
    (batch : List (EncodedJournalFrame env)) : (endOf position batch < extentFileBytes dataBytes →
      (applyAll file (frameWrites generation position batch ++
          tailWrites dataBytes (endOf position batch))).readAt (endOf position batch)
        extentFrameHeaderBytes = zeros extentFrameHeaderBytes) ∧
    ∀ index, endOf position batch + extentFrameHeaderBytes ≤ index →
      (applyAll file (frameWrites generation position batch ++
        tailWrites dataBytes (endOf position batch))).byte index = file.byte index := by
  constructor
  · intro below
    rw [applyAll_append, tailWrites, if_pos below, applyAll_cons, applyAll_nil]
    have blank := File.readAt_writeAt_self (applyAll file (frameWrites generation position batch))
      (endOf position batch) (zeros extentFrameHeaderBytes)
    rwa [length_zeros] at blank
  · intro index above
    refine byte_applyAll_outside file fun write member => .inr ?_
    rcases mem_append.mp member with frame | tail
    · exact (frameWrites_inside write frame).2.trans ((Nat.le_add_right _ _).trans above)
    · unfold tailWrites at tail
      split at tail
      · rw [mem_singleton] at tail
        subst tail
        rwa [Write.stop, length_zeros]
      · cases tail

variable {start : WorkerState env}

theorem Grown.journalBatch {frames batch : List (EncodedJournalFrame env)}
    (grown : Grown start state frames) (done : journalBatch state batch = .ok after) :
    Grown start after (frames ++ batch) := by
  obtain ⟨fitting, header, cursor, receipted, file⟩ := journalBatch_eq_ok done
  rw [grown.header] at fitting file
  have laid : Laid extentFrameAlignment state.nextPosition
      (frameWrites start.header.generation state.nextPosition batch ++
        tailWrites start.header.dataBytes (endOf state.nextPosition batch)) :=
        laid_batch state.aligned
  have kept : Agree after.file state.file 0 state.nextPosition :=
    file ▸ agree_applyAll_before _ laid
  have forward := le_endOf start.nextPosition frames
  rw [← grown.cursor] at forward
  refine ⟨header.trans grown.header, ?_, ?_, ?_, ?_, ?_, ?_⟩
  · rw [receipted, grown.receipted, append_assoc]
  · rw [cursor, grown.cursor, endOf_append]
  · exact grown.fitting.append (grown.cursor ▸ fitting)
  · refine holds_append.mpr ⟨grown.holds.congr ?_, ?_⟩
    · rw [← grown.cursor]
      exact kept.mono (Nat.zero_le _) le_rfl
    · rw [← grown.cursor, file]
      exact holds_frameWrites _ state.aligned _ (laid_tail ((endOf_dvd batch).mpr state.aligned))
  · exact (kept.mono le_rfl forward).trans grown.before
  · have forward' := le_endOf state.nextPosition batch
    obtain ⟨blank, untouched⟩ := tail_after_batch start.header.generation
      start.header.dataBytes state.nextPosition state.file batch
    rw [← file, ← cursor] at blank untouched
    by_cases below : after.nextPosition < extentFileBytes start.header.dataBytes
    · refine .inr ⟨blank below, fun index above high => (untouched index above).trans ?_⟩
      exact grown.quiet.beyond index (by omega) high
    · exact .inl fun index above high => absurd (above.trans_lt high) below

theorem grown_of_run {batches : List (List (EncodedJournalFrame env))}
    (ran : journalWorker start batches = .ok state) : Grown start state batches.flatten := by
  suffices general : ∀ (middle : WorkerState env) frames, Grown start middle frames →
      batches.foldlM journalBatch middle = .ok state →
      Grown start state (frames ++ batches.flatten) by
    simpa using general start [] (.refl start) ran
  clear ran
  induction batches with
  | nil =>
    intro middle frames grown done
    cases done
    simpa using grown
  | cons batch rest ih =>
    intro middle frames grown done
    rw [foldlM_cons, bind_eq_ok] at done
    obtain ⟨next, stepped, done⟩ := done
    have whole := ih next (frames ++ batch) (grown.journalBatch stepped) done
    rwa [append_assoc] at whole

section Written

variable (state : WorkerState env)
  (fitting : Fitting state.header.generation state.header.dataBytes state.nextPosition batch)

include fitting

theorem laid_unsyncedWrites :
    Laid extentFrameAlignment state.nextPosition (unsyncedWrites state batch) := by
  rw [unsyncedWrites_of_fitting state fitting]
  exact laid_batch state.aligned

theorem unsyncedWrites_inside :
    ∀ write ∈ unsyncedWrites state batch, write.stop ≤ state.file.length := by
  rw [unsyncedWrites_of_fitting state fitting, state.sized]
  exact batch_inside fitting state.header.known state.inside state.aligned

theorem agree_written :
    Agree (applyAll state.file (unsyncedWrites state batch)) state.file 0 state.nextPosition :=
  agree_applyAll_before _ (laid_unsyncedWrites state fitting)

theorem holds_written : Holds state.header.generation
    (applyAll state.file (unsyncedWrites state batch)) state.nextPosition batch := by
  rw [unsyncedWrites_of_fitting state fitting]
  exact holds_frameWrites _ state.aligned _ (laid_tail ((endOf_dvd batch).mpr state.aligned))

theorem blank_written (below :
    endOf state.nextPosition batch < extentFileBytes state.header.dataBytes) :
    (applyAll state.file (unsyncedWrites state batch)).readAt (endOf state.nextPosition batch)
      extentFrameHeaderBytes = zeros extentFrameHeaderBytes := by
  rw [unsyncedWrites_of_fitting state fitting]
  exact (tail_after_batch _ _ _ state.file batch).1 below

end Written

end JournalWorker
