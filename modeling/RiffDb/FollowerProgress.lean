import RiffDb.FollowerRefinement

/-!
# A connected follower catches up

The refinement says that an accepted frame is right; here the right frame is accepted. The source
records in every receipt what the follower checks on its own rows: the hash of each replaced value
and the frontier its allocator rows reach. So a follower that resumed at its durable position takes
over every frame of a stream opened there.
-/

namespace FollowerProgress

open ByteWire CheckedCode ReplicationTypes ChangelogHistory ChangelogReceipt ReceiptCodec
  ChangelogFrame ChangelogChain FrameStream StreamFidelity FollowerApply FollowerRefinement List

/-- The mutation fits the state before its receipt and a table the follower has. -/
structure Fitting (env : Hashing) (tables : List String) (state : State)
    (mutation : AuthoritativeMutationV3) : Prop where
  active : mutation.domain.isRetiredLocatorTable = false
  listed : mutation.domain.table ∈ tables
  replaces : mutation.matchesPrior env (state mutation.domain mutation.key) = true
  bounded : ∀ value ∈ state mutation.domain mutation.key, value.length ≤ maxChangelogFrameBytes

/-- The frontier the allocators of a state stand at. -/
def stateFrontier (codec : AllocatorCodec) (state : State) :
    Except StorageErrorKind DualFrontier := do
  let application ← okOr (state (.ofV1 .nextApplicationSequence) (keyBytes metaApplicationSequence))
    .corruptData
  let administration ← okOr
    (state (.ofV1 .nextAdministrationSequence) (keyBytes metaAdministrationSequence)) .corruptData
  decodePhysicalFrontier codec application administration

/-- The receipts describe the transactions of a source that starts in the state. -/
def Recorded (env : Hashing) (codec : AllocatorCodec) (tables : List String) :
    State → List AuthoritativeTransactionV3 → Prop
  | _, [] => True
  | state, receipt :: rest =>
    (∀ mutation ∈ receipt.mutations, Fitting env tables state mutation) ∧
      stateFrontier codec (state.afterReceipt receipt) = .ok receipt.binding.coveredFrontier ∧
      Recorded env codec tables (state.afterReceipt receipt) rest

/-- Nothing outside the applier objects. -/
structure Clear (answers : Answers) (tables : List String) : Prop where
  begins : answers.begins = none
  inventory : answers.inventory = .ok tables
  indexes : answers.indexes = none
  received : ∀ receipt, answers.received receipt = none
  whole : ∀ stored, answers.resolveCommitsValue stored = .ok stored
  indexed : ∀ receipt, answers.indexed receipt = none
  roots : answers.roots = none
  commit : answers.commit = .committed
  publish : answers.publish = none

section Receipts

variable {env : Hashing} {codec : AllocatorCodec} {tables : List String} {answers : Answers}
  {lineage : ChangelogLineageV3} {rows : Rows} {state : State}

theorem recorded_append {before after : List AuthoritativeTransactionV3} :
    Recorded env codec tables state (before ++ after) ↔ Recorded env codec tables state before ∧
        Recorded env codec tables (state.after before) after := by
  induction before generalizing state with
  | nil => simp [Recorded, State.after]
  | cons receipt rest ih =>
    rw [cons_append, Recorded, Recorded, ih, and_assoc, and_assoc]
    rfl

theorem physicalFrontier_represents (represents : Represents rows state) :
    physicalFrontier codec rows = stateFrontier codec state := by
  have application := represents (.ofV1 .nextApplicationSequence) (keyBytes metaApplicationSequence)
    ⟨rfl, by rintro _ ⟨⟩; rfl⟩
  have administration := represents (.ofV1 .nextAdministrationSequence)
    (keyBytes metaAdministrationSequence) ⟨rfl, by rintro _ ⟨⟩; rfl⟩
  unfold physicalFrontier stateFrontier
  rw [← application, ← administration]
  rfl

variable (clear : Clear answers tables)

include clear

theorem storedPrior_represents (represents : Represents rows state)
    (mutation : AuthoritativeMutationV3) :
    storedPrior answers rows mutation = .ok (state mutation.domain mutation.key) := by
  unfold storedPrior
  rw [represents _ _ (mutation_replicates mutation)]
  cases state mutation.domain mutation.key with
  | none => rfl
  | some stored =>
    simp only [clear.whole]
    split <;> rfl

theorem checkPredecessor_fitting (represents : Represents rows state)
    {mutation : AuthoritativeMutationV3} (fitting : Fitting env tables state mutation) :
    checkPredecessor env answers rows mutation = .ok () := by
  simp only [checkPredecessor, require_pos fitting.active, storedPrior_represents clear represents,
    ok_bind, require_pos fitting.bounded, require_pos fitting.replaces]

variable {staged : ChangelogHistoryStateV3 × Rows} {point : ChangelogHistoryPointV3}

/-- A recorded receipt that follows the roots is staged. -/
theorem applyReceipt_recorded (stands : StandsAt lineage staged (point, state))
    {receipt : AuthoritativeTransactionV3} (succeeds : Succeeds lineage point receipt)
    (fitting : ∀ mutation ∈ receipt.mutations, Fitting env tables state mutation)
    (frontier :
      stateFrontier codec (state.afterReceipt receipt) = .ok receipt.binding.coveredFrontier) :
    ∃ next, applyReceipt env codec answers tables staged receipt = .ok next := by
  obtain ⟨rfl, rfl, represents⟩ := stands
  obtain ⟨successor, advanced⟩ := succeeds.advances
  obtain ⟨_, _, _, tail, _⟩ := advance_eq_ok.mp advanced
  obtain ⟨next, folded, moved⟩ :
    ∃ next, receipt.mutations.foldlM applyMutation staged.2 = .ok next ∧
      Represents next (state.afterReceipt receipt) := by
    refine foldlM_succeeds (P := fun rows seen =>
      Represents rows (seen.foldl State.write state)) ?_ represents
    intro rows seen mutation rest isMutations held
    have written : applyMutation rows mutation = .ok _ :=
      applyMutation_eq_ok.mpr ⟨(fitting mutation (by simp [isMutations])).active, rfl⟩
    rw [foldl_append]
    exact ⟨_, written, represents_applyMutation _ _ _ _ held written⟩
  refine ⟨(successor, next), (applyReceipt_eq_ok env codec answers).mpr ⟨advanced,
    clear.received receipt, fun mutation member => ⟨(fitting mutation member).listed,
      checkPredecessor_fitting clear represents (fitting mutation member)⟩, folded,
    clear.indexed receipt, ?_⟩⟩
  rw [physicalFrontier_represents moved, frontier, ← tail]
  rfl

theorem applyReceipts_recorded {receipts : List AuthoritativeTransactionV3}
    (stands : StandsAt lineage staged (point, state)) (linked : Linked lineage point receipts)
    (recorded : Recorded env codec tables state receipts) :
    ∃ next, receipts.foldlM (applyReceipt env codec answers tables) staged = .ok next := by
  induction receipts generalizing staged point state with
  | nil => exact ⟨staged, rfl⟩
  | cons receipt rest ih =>
    obtain ⟨fitting, frontier, later⟩ := recorded
    obtain ⟨next, done⟩ := applyReceipt_recorded clear stands linked.1 fitting frontier
    obtain ⟨final, folded⟩ := ih (standsAt_applyReceipt staged _ receipt next stands done) linked.2
      later
    exact ⟨final, by rw [foldlM_cons, done, ok_bind, folded]⟩

end Receipts

section Frames

variable {env : Hashing} {codec : AllocatorCodec} {tables : List String} {answers : Answers}
  {source : Source env} {follower : RedbFollowerApplier} {count : Nat} {hash : ByteArrayOf 32}

open RedbFollowerApplier

/-- A live follower at the point after the first receipts, waiting for a frame that names the
given hash. -/
structure Ready (source : Source env) (follower : RedbFollowerApplier) (count : Nat)
    (hash : ByteArrayOf 32) : Prop where
  holds : Holds source follower.durable count
  atRest : follower.durable.cleanClose = false
  live : follower.isLive = true
  prior : follower.priorFrameHash = hash
  promised : follower.promisedEpoch ≤ source.chain.lineage.leadershipEpoch.get

/-- Resuming makes a live follower wait for the frame seeded at its durable position. -/
theorem resumeStream_ready (ready : Ready source follower count hash) :
    ∃ after, follower.resumeStream none = (.ok (source.chain.pointAt count), after) ∧
      Ready source after count (source.chain.pointAt count).historyHash := by
  obtain ⟨history, stored, lineage, tail⟩ := ready.holds.roots
  obtain ⟨attachment, attached, sameLineage, applied⟩ := ready.holds.attached
  have agrees : attachment.lineage = history.lineage ∧ attachment.applied = history.tail ∧
      follower.durable.cleanClose = false := by
    rw [lineage, tail]
    exact ⟨sameLineage, applied, ready.atRest⟩
  have found : follower.durableHistory none = .ok history := by
    simp only [durableHistory, require_pos ready.live, refuse_none, ok_bind, stored, okOr_some,
      preserveAttachedLifecycle, attached, require_pos agrees]
  refine ⟨{ follower with
    priorFrameHash := history.tail.historyHash, lastFrameHash := none }, ?_, ?_⟩
  · simp only [resumeStream, found, tail]
  · exact ⟨ready.holds, ready.atRest, ready.live, by rw [tail], ready.promised⟩

variable {before later : List AuthoritativeTransactionV3}

open ChangelogFrameV3

variable (clear : Clear answers tables)
  (recorded : Recorded env codec tables source.base source.chain.receipts)

include clear recorded

section

variable (ready : Ready source follower count hash) {frame : ChangelogFrameV3}
  (split : source.chain.receipts = before ++ (frame.receipts ++ later))
    (placed : before.length = count)

include ready split placed

theorem stageReceipts_recorded {history : ChangelogHistoryStateV3} {attachment : FollowerAttachment}
    (roots : attachedRoots follower.durable = .ok (history, attachment))
    (lineage : attachment.lineage = source.chain.lineage)
    (applied : attachment.applied = source.chain.pointAt count)
    (prior : frame.binding.priorFrameHash = hash) :
    ∃ next, stageReceipts env codec answers follower frame history attachment = .ok next := by
  subst placed
  obtain ⟨_, _, sameLineage, tail, _⟩ := attachedRoots_eq_ok.mp roots
  have front : source.chain.receipts.take before.length = before := by rw [split, take_left]
  have linked := source.chain.linked
  rw [split, linked_append, linked_append, ← front] at linked
  rw [split, recorded_append, recorded_append, ← front] at recorded
  have here : StandsAt source.chain.lineage (history, follower.durable.rows)
      (source.chain.pointAt before.length, source.stateAt before.length) :=
    ⟨sameLineage.trans lineage, tail.trans applied, ready.holds.represents⟩
  obtain ⟨⟨successor, rows⟩, folded⟩ := applyReceipts_recorded clear here linked.2.1 recorded.2.1
  have ahead : attachment.applied.precedesOrEquals (fromReceipt frame.last) = true := by
    have ordered := linked.2.1.point_ordered
    rw [pointAfter_getLast frame.nonempty] at ordered
    rw [applied]
    exact ordered
  obtain ⟨updated, written⟩ : ∃ row, ReplicationFollowerStateV3.attached attachment.lineage
      (fromReceipt frame.last) attachment.acknowledged = .ok row :=
    ReplicationFollowerStateV3.attached_ok fun ack earlier =>
      ChangelogHistoryPointV3.precedesOrEquals_trans (attachment.bounded ack earlier) ahead
  exact ⟨_, (stageReceipts_eq_ok env codec answers).mpr ⟨prior.trans ready.prior.symm, tables,
    clear.inventory, clear.indexes, successor, rows, folded, updated, written, clear.roots, rfl⟩⟩

/-- The frame that carries the next receipts and names the expected hash is taken over. -/
theorem applyFrame_ready {bytes : Bytes} {checksum : ByteArrayOf 32}
    (decoded : ChangelogFrameV3.decode env bytes = .ok frame)
    (trailing : bytes.drop (bytes.length - 32) = checksum.toList)
    (bound : frame.binding = bindingOf source.chain.lineage hash) :
    ∃ after, follower.applyFrame env codec answers bytes =
        (.ok (source.chain.pointAt (count + frame.receipts.length)), after) ∧
      Ready source after (count + frame.receipts.length) checksum := by
  obtain ⟨history, attachment, roots, lineage, applied⟩ :=
    attachedRoots_of_holds ready.holds ready.atRest
  obtain ⟨next, received⟩ := stageReceipts_recorded clear recorded ready split placed roots lineage
    applied (by rw [bound]; rfl)
  obtain ⟨_, covered, moved⟩ := holds_stageReceipts ready.holds roots split received
  rw [placed] at covered moved
  have advances : fromReceipt frame.last ≠ attachment.applied := by
    rw [covered, applied]
    intro same
    have gap := source.chain.pointAt_injective moved.inside ready.holds.inside (by rw [same])
    have positive := length_pos_iff.mpr frame.nonempty
    omega
  have ofLineage : OfLineage frame.binding attachment.lineage ∧
      follower.promisedEpoch ≤ frame.binding.leadershipEpoch.get := by
    rw [bound, lineage]
    exact ⟨⟨rfl, rfl, rfl, rfl⟩, ready.promised⟩
  have atRest : next.cleanClose = false := by
    obtain ⟨_, _, _, _, _, _, _, _, _, _, rfl⟩ :=
      (stageReceipts_eq_ok env codec answers).mp received
    exact ready.atRest
  have staged : stageFrame env codec answers { follower with failed := true } bytes =
      .ok ⟨checksum, fromReceipt frame.last, some next⟩ := by
    have entered : stageReceipts env codec answers { follower with failed := true } frame history
        attachment = .ok next := received
    simp only [stageFrame, decoded, Except.mapError, ok_bind, trailing, arrayOf_toList, okOr_some,
      clear.begins, refuse_none, roots, require_pos ofLineage, if_neg advances, entered]
  refine ⟨{ follower with
    durable := next, priorFrameHash := checksum, lastFrameHash := some checksum, failed := false },
    ?_, moved, atRest, ?_, rfl, ready.promised⟩
  · simp only [applyFrame, guarded, if_pos ready.live, applyInner, staged,
      commitStaged, clear.commit, clear.publish, accept, covered]
  · have live := ready.live
    simp only [isLive, Bool.and_eq_true] at live
    simp [isLive, live.2]

end

/-- The follower after a list of frames. -/
def appliedAll (env : Hashing) (codec : AllocatorCodec) (answers : Answers)
    (follower : RedbFollowerApplier) (chunks : List Bytes) : RedbFollowerApplier :=
  Runs.run (fun reached bytes => (reached.applyFrame env codec answers bytes).2) follower chunks

open EmittedChangelogFrameV3

/-- Frames that name each other's checksums and carry the next receipts are all taken over. -/
theorem appliedAll_ready {emitted : List EmittedChangelogFrameV3} {frames : List ChangelogFrameV3}
    {final : ByteArrayOf 32} (ready : Ready source follower count hash)
    (decoded : emitted.map (fun sent => ChangelogFrameV3.decode env sent.bytes) = frames.map .ok)
    (trailing :
      ∀ sent ∈ emitted, sent.bytes.drop (sent.bytes.length - 32) = sent.frameChecksum.toList)
    (chained : hash :: emitted.map frameChecksum =
      frames.map (fun frame => frame.binding.priorFrameHash) ++ [final]) (bound : ∀ frame ∈ frames,
      frame.binding = bindingOf source.chain.lineage frame.binding.priorFrameHash)
    (split : source.chain.receipts = before ++ (frames.flatMap receipts ++ later))
    (placed : before.length = count) :
    Ready source (appliedAll env codec answers follower (emitted.map bytes))
      (count + (frames.flatMap receipts).length) final := by
  induction frames generalizing emitted follower count hash before with
  | nil =>
    obtain rfl : emitted = [] := map_eq_nil_iff.mp decoded
    obtain rfl : hash = final := by simpa using chained
    exact ready
  | cons frame rest ih =>
    obtain ⟨sent, others, rfl⟩ : ∃ sent others, emitted = sent :: others := by
      cases emitted with
      | nil => cases decoded
      | cons sent others => exact ⟨sent, others, rfl⟩
    simp only [map_cons, List.cons.injEq, cons_append] at decoded chained
    obtain ⟨first, decoded⟩ := decoded
    obtain ⟨named, chained⟩ := chained
    rw [flatMap_cons, append_assoc] at split
    have own := bound frame (mem_cons_self ..)
    rw [← named] at own
    obtain ⟨after, applied, reached⟩ := applyFrame_ready clear recorded ready split placed first
      (trailing sent (mem_cons_self ..)) own
    have splitNext : source.chain.receipts = (before ++ frame.receipts) ++
        (rest.flatMap receipts ++ later) := by rw [split, append_assoc]
    have further := ih reached decoded
      (fun other member => trailing other (mem_cons_of_mem _ member)) chained
      (fun other member => bound other (mem_cons_of_mem _ member)) splitNext
      (by rw [length_append, placed])
    rw [flatMap_cons, length_append, ← Nat.add_assoc]
    rw [appliedAll, map_cons, Runs.run, foldl_cons, applied]
    exact further

/-- A live follower resumes at its durable position, takes over every frame a stream of the source
opened there emits, whatever calls produced them, and holds the source's state at the stream's
position. -/
theorem follower_catches_up (ready : Ready source follower count hash)
    (snapshot : Snapshot source.chain) {stream : ChangelogFrameCursorV3}
    (opened : ChangelogFrameCursorV3.openAt snapshot source.chain.lineage
      (source.chain.pointAt count) = .ok stream) (calls : List (Call source.chain)) :
    ∃ resumed reached final, follower.resumeStream none =
      (.ok (source.chain.pointAt count), resumed) ∧
      source.chain.pointAt reached = (sessionAfter source.chain stream calls).stream.position ∧
      Ready source (appliedAll env codec answers resumed
        ((sessionAfter source.chain stream calls).emitted.map bytes)) reached final := by
  obtain ⟨resumed, answered, waiting⟩ := resumeStream_ready ready
  obtain ⟨sent, rest, frames, delivered, _⟩ := sound_session snapshot opened calls
  have placed : (source.chain.receipts.take count).length = count := by
    rw [length_take, Nat.min_eq_left ready.holds.inside]
  have split := delivered.split
  rw [← delivered.received] at split
  have position := delivered.pointAt
  rw [placed, ← delivered.received] at position
  exact ⟨resumed, _, _, answered, position,
    appliedAll_ready clear recorded waiting delivered.decoded
    delivered.trailing delivered.chained delivered.bound split placed⟩

omit clear recorded in
theorem follower_catches_up_sample : ∃ stream,
    ChangelogFrameCursorV3.openAt sampleSnapshot sampleLineage samplePoint = .ok stream ∧
    ∀ calls : List (Call sampleChain), ∃ resumed reached final,
      sampleFollower.resumeStream none = (.ok samplePoint, resumed) ∧
      sampleChain.pointAt reached = (sessionAfter sampleChain stream calls).stream.position ∧
      Ready sampleSource (appliedAll flatHashing sampleCodec sampleAnswers resumed
        ((sessionAfter sampleChain stream calls).emitted.map bytes)) reached final := by
  have recorded : Recorded flatHashing sampleCodec ["meta", "entities"] sampleSource.base
      sampleChain.receipts := by
    refine ⟨fun mutation member => ?_, by decide +kernel, trivial⟩
    cases mem_singleton.mp member
    exact ⟨rfl, by decide, rfl, nofun⟩
  have ready : Ready sampleSource sampleFollower 0 zeroHash :=
    ⟨sampleDurable_holds, rfl, rfl, rfl, le_rfl⟩
  exact ⟨_, rfl, follower_catches_up (by constructor <;> intros <;> rfl) recorded ready
    sampleSnapshot rfl⟩

end Frames

end FollowerProgress
