import RiffDb.FrameStream
import RiffDb.Runs

/-!
# What a connection receives is the published history

The receipts decoded from the emitted frames are those of the chain from the resume point to the
stream's position. The argument follows the unread part of the pin, the lookahead and what the
cursor still holds: a frame takes a front part of it, an overflow puts the last receipt back, and a
new pin starts at the emitted position. The emitting side never compares history hashes inside a
frame; that its frames pass the decoder follows from the chain.
-/

namespace StreamFidelity

open ByteWire CheckedCode ReplicationTypes ChangelogHistory ChangelogReceipt ReceiptCodec
  ChangelogFrame ChangelogChain FrameStream ChangelogFrameV3 ChangelogFrameCursorV3 List

variable {receipt : AuthoritativeTransactionV3} {catalog : AuthoritativeStateCatalog}

theorem validateReceiptCount_of_catalog (passes : validateReceiptCatalog receipt catalog = .ok ()) :
    validateReceiptCount receipt (sourceCount catalog) = .ok () := by
  simp only [validateReceiptCatalog, bind_eq_ok] at passes
  obtain ⟨⟨⟩, shaped, _⟩ := passes
  exact shaped

/-- A receipt admitted by its catalog fits a frame of its own. -/
theorem fits_alone (passes : validateReceiptCatalog receipt catalog = .ok ()) :
    fixedBytes (sourceCount catalog) + 4 + receipt.encodedLen ≤ maxChangelogFrameBytes := by
  have counted := validateReceiptCount_of_catalog passes
  have narrow := sourceCount_le catalog
  simp only [validateReceiptCount, bind_eq_ok, require_eq_ok, exists_and_left, exists_const]
    at counted
  have room := counted.2
  simp only [fixedBytes, footerBytes, maxChangelogFrameBytes] at room ⊢
  omega

/-- The binding a stream of the lineage gives its frames. -/
def bindingOf (lineage : ChangelogLineageV3) (priorFrameHash : ByteArrayOf 32) :
    ChangelogFrameBindingV3 :=
  ⟨lineage.databaseId, lineage.historyIncarnation, lineage.leadershipEpoch, lineage.catalog,
    priorFrameHash⟩

theorem new_bindingOf (env : Hashing) (lineage : ChangelogLineageV3)
    (priorFrameHash : ByteArrayOf 32) :
    ChangelogFrameBindingV3.new env lineage.databaseId lineage.historyIncarnation.get
      lineage.leadershipEpoch.get (env.catalogDigest lineage.catalog) priorFrameHash =
      .ok (bindingOf lineage priorFrameHash) := by
  simp [ChangelogFrameBindingV3.new, catalogByDigest_self, bindingOf]

theorem fixedFrameBytes_bindingOf (lineage : ChangelogLineageV3) (priorFrameHash : ByteArrayOf 32) :
    (bindingOf lineage priorFrameHash).fixedFrameBytes =
      fixedBytes (sourceCount lineage.catalog) := by
  simp only [ChangelogFrameBindingV3.fixedFrameBytes, bindingOf]

/-- The transitions a list of receipts is charged. -/
def charge (receipts : List AuthoritativeTransactionV3) : Nat :=
  (receipts.map AuthoritativeTransactionV3.transitionCount).sum

variable {lineage : ChangelogLineageV3}

theorem fold_linked {hash : ByteArrayOf 32}
    {point : ChangelogHistoryPointV3} {receipts : List AuthoritativeTransactionV3}
    {seen : Nat × Option AuthoritativeTransactionV3} (linked : Linked lineage point receipts)
    (behind : ∀ previous ∈ seen.2, fromReceipt previous = point)
    (limited : seen.1 + charge receipts ≤ maxStagedCommands) :
    ∃ result, receipts.foldlM (checkReceipt true (bindingOf lineage hash)) seen = .ok result := by
  induction receipts generalizing point seen with
  | nil => exact ⟨seen, rfl⟩
  | cons receipt rest ih =>
    have total : seen.1 + receipt.transitionCount + charge rest ≤ maxStagedCommands := by
      simp only [charge, map_cons, sum_cons] at limited ⊢
      omega
    obtain ⟨database, incarnation, predecessor, frontier, hashed⟩ := linked.1.continues
    have edges : ∀ previous ∈ seen.2, ChangelogFrameV3.Follows true previous receipt := by
      intro previous member
      have reached := behind previous member
      subst reached
      exact ⟨predecessor, frontier, fun _ => hashed⟩
    have checked : checkReceipt true (bindingOf lineage hash) seen receipt =
        .ok (seen.1 + receipt.transitionCount, some receipt) :=
      checkReceipt_eq_ok.mpr
        ⟨validateReceiptCount_of_catalog linked.1.catalogued, linked.1.catalogued,
          ⟨database, incarnation⟩, by omega, edges, rfl⟩
    have next : ∀ previous ∈ (some receipt : Option AuthoritativeTransactionV3),
        fromReceipt previous = fromReceipt receipt := by
      rintro _ ⟨⟩
      rfl
    obtain ⟨result, folded⟩ :=
      @ih (fromReceipt receipt) (seen.1 + receipt.transitionCount, some receipt) linked.2 next total
    refine ⟨result, ?_⟩
    rw [foldlM_cons, checked, ok_bind]
    exact folded

/-- What the pin still holds: the lookahead, then the cursor. -/
def unread (cursor : ReceiptCursor) (lookahead : Option AuthoritativeTransactionV3) :
    List AuthoritativeTransactionV3 := lookahead.toList ++ cursor.remaining

/-- Between two states of the loop, a front part of the unread receipts was collected. -/
structure Took (taken : List AuthoritativeTransactionV3) (before after : Gathered) : Prop where
  moved : unread before.cursor before.lookahead = taken ++ unread after.cursor after.lookahead
  covered : after.covered = pointAfter before.covered taken
  receipts : after.receipts = before.receipts ++ taken
  transitions : after.transitions = before.transitions + charge taken
  bytes : after.bytes = before.bytes +
    (taken.map fun receipt => 4 + receipt.encodedLen).sum
  history : after.cursor.history = before.cursor.history

theorem Took.refl (gathered : Gathered) : Took [] gathered gathered :=
  ⟨rfl, rfl, by simp, by simp [charge], by simp, rfl⟩

theorem Took.trans {front back : List AuthoritativeTransactionV3} {before middle after : Gathered}
    (first : Took front before middle) (second : Took back middle after) :
    Took (front ++ back) before after where
  moved := by rw [first.moved, second.moved, append_assoc]
  covered := by rw [second.covered, first.covered, pointAfter_append]
  receipts := by rw [second.receipts, first.receipts, append_assoc]
  transitions := by
    rw [second.transitions, first.transitions]
    simp [charge, Nat.add_assoc]
  bytes := by
    rw [second.bytes, first.bytes]
    simp [Nat.add_assoc]
  history := second.history.trans first.history

/-- The loop after it has read a receipt. -/
def readTo (gathered : Gathered) (cursor : ReceiptCursor) : Gathered :=
  { gathered with cursor := cursor, lookahead := none }

/-- Reading one receipt: the end, the front of the unread part, or a refusal. -/
theorem next_cases (gathered : Gathered) :
    (gathered.next = (.ok none, gathered) ∧ unread gathered.cursor gathered.lookahead = []) ∨
    (∃ receipt cursor, gathered.next = (.ok (some receipt), readTo gathered cursor) ∧
      unread gathered.cursor gathered.lookahead = receipt :: cursor.remaining ∧
      cursor.history = gathered.cursor.history ∧
      (gathered.cursor.refusal = none → cursor.refusal = none)) ∨
    (∃ reason after, gathered.next = (.error reason, after) ∧ gathered.cursor.refusal ≠ none) := by
  obtain ⟨cursor, lookahead, covered, receipts, transitions, bytes⟩ := gathered
  cases lookahead with
  | some receipt => exact Or.inr (Or.inl ⟨receipt, cursor, rfl, rfl, rfl, id⟩)
  | none =>
    obtain ⟨history, remaining, refusal⟩ := cursor
    cases refusal with
    | none =>
      cases remaining with
      | nil => exact Or.inl ⟨rfl, rfl⟩
      | cons receipt rest => exact Or.inr (Or.inl ⟨receipt, _, rfl, rfl, rfl, id⟩)
    | some refused =>
      obtain ⟨rows, reason⟩ := refused
      cases rows with
      | zero => exact Or.inr (Or.inr ⟨reason, _, rfl, by simp⟩)
      | succ rows =>
        cases remaining with
        | nil => exact Or.inl ⟨rfl, rfl⟩
        | cons receipt rest => exact Or.inr (Or.inl ⟨receipt, _, rfl, rfl, rfl, by simp⟩)

/-- The state of the loop belongs to a pin of the chain. -/
structure Collecting (lineage : ChangelogLineageV3) (tail : ChangelogHistoryPointV3)
    (gathered : Gathered) : Prop where
  linked : Linked lineage gathered.covered (unread gathered.cursor gathered.lookahead)
  ends : tail = pointAfter gathered.covered (unread gathered.cursor gathered.lookahead)
  transitions : gathered.transitions ≤ maxStagedCommands
  bytes : gathered.bytes ≤ maxChangelogFrameBytes
  empty : gathered.receipts = [] → gathered.transitions = 0 ∧
    gathered.bytes = fixedBytes (sourceCount lineage.catalog)

variable {tail : ChangelogHistoryPointV3} {gathered : Gathered} {cursor : ReceiptCursor}

/-- Collecting the front of the unread part keeps the pin. -/
theorem Collecting.push (collecting : Collecting lineage tail gathered)
    (front : unread gathered.cursor gathered.lookahead = receipt :: cursor.remaining)
    (within : ¬ (readTo gathered cursor).Overflows receipt) :
    Collecting lineage tail ((readTo gathered cursor).push receipt) := by
  have linked := collecting.linked
  have ends := collecting.ends
  rw [front] at linked ends
  simp only [Gathered.Overflows, not_or, Nat.not_lt] at within
  exact ⟨linked.2, ends, within.1, within.2, by simp [Gathered.push]⟩

/-- The next receipt of a pin always continues the collected position. -/
theorem fits_head {tail covered : ChangelogHistoryPointV3} {rest : List AuthoritativeTransactionV3}
    (linked : Linked lineage covered (receipt :: rest))
    (ends : tail = pointAfter covered (receipt :: rest)) : Fits lineage tail covered receipt := by
  have sequence : tail.sequence.get = receipt.binding.sequence.get + rest.length := by
    rw [ends, pointAfter_cons, linked.2.sequence]
    rfl
  refine ⟨linked.1.continues, receipt.sequence_after linked.1.continues.2.2.1, by omega, ?_⟩
  intro same
  rw [same] at sequence
  have last : rest = [] := length_eq_zero_iff.mp (by omega)
  rw [ends, last]
  rfl

/-- A pass of the loop over a pin fails on a refused row only. It collects a front part of the
unread receipts within the ceilings, and something unless the pin is at its end. -/
theorem gather_cases (room : Nat) (collecting : Collecting lineage tail gathered) :
    (∃ reason after, gather lineage tail room gathered = (.error reason, after) ∧
      gathered.cursor.refusal ≠ none) ∨
    ∃ taken after, gather lineage tail room gathered = (.ok (), after) ∧ Took taken gathered after ∧
      taken.length ≤ room ∧ after.transitions ≤ maxStagedCommands ∧
        after.bytes ≤ maxChangelogFrameBytes ∧
      (0 < room → gathered.receipts = [] → unread gathered.cursor gathered.lookahead ≠ [] →
        taken ≠ []) := by
  induction room generalizing gathered with
  | zero =>
    exact Or.inr ⟨[], gathered, rfl, Took.refl _, le_rfl, collecting.transitions,
      collecting.bytes, by simp⟩
  | succ room ih =>
    rw [gather]
    split
    · rcases next_cases gathered with ⟨ended, nothing⟩ |
        ⟨receipt, cursor, took, front, history, open_⟩ | ⟨reason, read, failed, refused⟩
      · have atTail : gathered.covered = tail := by
          rw [collecting.ends, nothing]
          rfl
        rw [ended]
        dsimp only
        rw [if_pos atTail]
        exact Or.inr ⟨[], gathered, rfl, Took.refl _, Nat.zero_le _, collecting.transitions,
          collecting.bytes, fun _ _ left => absurd nothing left⟩
      · have linked := collecting.linked
        have ends := collecting.ends
        rw [front] at linked ends
        rw [took]
        dsimp only
        rw [if_pos (show Fits lineage tail (readTo gathered cursor).covered receipt
          from fits_head linked ends)]
        split
        · next exceeded =>
          have started : (readTo gathered cursor).receipts ≠ [] := by
            intro nothing
            obtain ⟨none_yet, fixed⟩ := collecting.empty nothing
            have alone := fits_alone linked.1.catalogued
            have light := receipt.transitionCount_le
            simp only [Gathered.Overflows, readTo, none_yet, fixed] at exceeded
            omega
          rw [if_neg started]
          -- the receipt goes back as lookahead, so nothing was collected
          exact Or.inr ⟨[], _, rfl,
            ⟨front, rfl, by simp [readTo], by simp [readTo, charge], by simp [readTo],
            history⟩, Nat.zero_le _, collecting.transitions, collecting.bytes,
            fun _ nothing => absurd nothing started⟩
        · next within =>
          rcases ih (collecting.push front within) with
            ⟨reason, after, failed, refused⟩ | ⟨taken, after, done, more, few, limited, sized, _⟩
          · exact Or.inl ⟨reason, after, failed, fun readable => refused (open_ readable)⟩
          · have pushed : Took [receipt] gathered ((readTo gathered cursor).push receipt) :=
              ⟨front, rfl, rfl, by simp [Gathered.push, readTo, charge],
                by simp [Gathered.push, readTo, Nat.add_assoc], history⟩
            exact Or.inr ⟨[receipt] ++ taken, after, done, pushed.trans more,
              by simpa using few, limited, sized, by simp⟩
      · rw [failed]
        exact Or.inl ⟨_, read, rfl, refused⟩
    · next full =>
      refine Or.inr ⟨[], gathered, rfl, Took.refl _, Nat.zero_le _, collecting.transitions,
        collecting.bytes, fun _ nothing => ?_⟩
      rw [(collecting.empty nothing).1] at full
      exact absurd (by decide) full

theorem trailing_checksum (env : Hashing) (frame : ChangelogFrameV3) :
    (frameBytes env frame).drop ((frameBytes env frame).length - 32) =
      (env.sha256 (bodyLayout env frame)).toList := by
  have shape : frameBytes env frame =
      (bodyLayout env frame ++ (footerMagic ++
        beBytes 8 (frameLen frame.binding frame.receipts))) ++
      (env.sha256 (bodyLayout env frame)).toList := by
    simp [frameBytes, footerLayout]
  rw [shape, length_append, List.Vector.toList_length, Nat.add_sub_cancel, drop_left]

/-- The emitted frame decodes to the receipts it took from the pin. -/
structure Emits (env : Hashing) (before after : ChangelogFrameCursorV3)
    (emitted : EmittedChangelogFrameV3) (frame : ChangelogFrameV3) : Prop where
  decoded : ChangelogFrameV3.decode env emitted.bytes = .ok frame
  moved : unread before.cursor before.lookahead =
    frame.receipts ++ unread after.cursor after.lookahead
  position : after.position = pointAfter before.position frame.receipts
  bound : frame.binding = bindingOf before.lineage before.priorFrameHash
  checksum : after.priorFrameHash = emitted.frameChecksum
  trailing : emitted.bytes.drop (emitted.bytes.length - 32) = emitted.frameChecksum.toList

/-- What a call may never touch, and what it keeps unless it emits a frame. -/
structure Keeps (before after : ChangelogFrameCursorV3) : Prop where
  lineage : after.lineage = before.lineage
  history : after.cursor.history = before.cursor.history
  failure : after.failure = before.failure

/-- The pin of a live stream: unread receipts of the chain up to the pinned tail. -/
structure Pin {env : Hashing} (chain : PublishedChain env) (stream : ChangelogFrameCursorV3)
    (rest : List AuthoritativeTransactionV3) : Prop where
  unread : ∃ later, rest = unread stream.cursor stream.lookahead ++ later
  ends : stream.cursor.history.tail =
    pointAfter stream.position (StreamFidelity.unread stream.cursor stream.lookahead)

section OneCall

variable {env : Hashing} {chain : PublishedChain env} {stream : ChangelogFrameCursorV3}
  {rest : List AuthoritativeTransactionV3}

/-- The state in which the loop starts. -/
def starting (stream : ChangelogFrameCursorV3) : Gathered :=
  ⟨stream.cursor, stream.lookahead, stream.position, [], 0,
    fixedBytes (sourceCount stream.lineage.catalog)⟩

theorem collecting_start (pin : Pin chain stream rest)
    (linked : Linked stream.lineage stream.position rest) :
    Collecting stream.lineage stream.cursor.history.tail (starting stream) := by
  obtain ⟨later, split⟩ := pin.unread
  rw [split, linked_append] at linked
  refine ⟨linked.1, pin.ends, Nat.zero_le _, ?_, fun _ => ⟨rfl, rfl⟩⟩
  change fixedBytes (sourceCount stream.lineage.catalog) ≤ maxChangelogFrameBytes
  cases stream.lineage.catalog <;> decide

/-- The loop's collection always becomes a frame that the decoder accepts. -/
theorem frame_of_taken {taken : List AuthoritativeTransactionV3} {after : Gathered}
    (took : Took taken (starting stream) after)
    (linked : Linked stream.lineage stream.position taken)
    (isSealed : ∀ receipt ∈ taken, IsSealed env receipt) (nonempty : taken ≠ [])
    (few : taken.length ≤ maxStagedCommands) (limited : after.transitions ≤ maxStagedCommands)
    (sized : after.bytes ≤ maxChangelogFrameBytes) :
    ∃ frame, fromCheckedStream (bindingOf stream.lineage stream.priorFrameHash)
        taken = .ok frame ∧ frame.receipts = taken ∧
      frame.binding = bindingOf stream.lineage stream.priorFrameHash ∧
      ChangelogFrameV3.decode env (frameBytes env frame) = .ok frame := by
  have charged : charge taken ≤ maxStagedCommands := by
    have total := took.transitions
    simp only [starting, Nat.zero_add] at total
    omega
  have fits : frameLen (bindingOf stream.lineage stream.priorFrameHash) taken ≤
      maxChangelogFrameBytes := by
    have total := took.bytes
    rw [frameLen_eq]
    change fixedBytes (sourceCount stream.lineage.catalog) + _ ≤ _
    simp only [starting] at total
    omega
  have chained :
      checkReceipts true (bindingOf stream.lineage stream.priorFrameHash) taken = .ok () :=
    checkReceipts_eq_ok.mpr ⟨nonempty, few, fold_linked linked (by simp)
      (by simpa using charged), fits⟩
  let frame : ChangelogFrameV3 := ⟨bindingOf stream.lineage stream.priorFrameHash, taken,
      checkReceipts_weaken chained⟩
  refine ⟨frame, ?_, rfl, rfl, decode_eq_ok.mpr ⟨isSealed, chained, rfl⟩⟩
  exact build_eq_ok.mpr ⟨checkReceipts_weaken chained, rfl, rfl⟩

theorem frameNext_ok {maximum : Nat}
    (run : gather stream.lineage stream.cursor.history.tail maximum (starting stream) =
      (.ok (), gathered)) : stream.frameNextReceipts env maximum =
      stream.emit env (bindingOf stream.lineage stream.priorFrameHash) gathered := by
  unfold starting at run
  simp only [frameNextReceipts, new_bindingOf, fixedFrameBytes_bindingOf, run]

open ChangelogFrameCursorV3

section

variable (pin : Pin chain stream rest) (linked : Linked stream.lineage stream.position rest)

include pin linked

/-- Every outcome of one framing call on a pinned stream. -/
theorem frameNext_cases (maximum : Nat) (few : maximum ≤ maxStagedCommands)
    (isSealed : ∀ receipt ∈ rest, IsSealed env receipt) :
    (∃ reason after, stream.frameNextReceipts env maximum = (.error reason, after) ∧
      after.lineage = stream.lineage ∧ after.position = stream.position ∧
      after.priorFrameHash = stream.priorFrameHash ∧ stream.cursor.refusal ≠ none) ∨
    (∃ after, stream.frameNextReceipts env maximum = (.ok none, after) ∧
      Keeps stream after ∧ after.position = stream.position ∧
      after.priorFrameHash = stream.priorFrameHash ∧
      unread after.cursor after.lookahead = unread stream.cursor stream.lookahead ∧
      (0 < maximum → unread stream.cursor stream.lookahead = [])) ∨
    (∃ emitted after frame, stream.frameNextReceipts env maximum = (.ok (some emitted), after) ∧
      Keeps stream after ∧ Emits env stream after emitted frame) := by
  obtain ⟨later, split⟩ := pin.unread
  rcases gather_cases maximum (collecting_start pin linked) with
    ⟨reason, gathered, failed, refused⟩ | ⟨taken, gathered, run, took, short, limited,
      sized, collects⟩
  · refine Or.inl ⟨reason, { stream with
      cursor := gathered.cursor, lookahead := gathered.lookahead }, ?_, rfl, rfl, rfl, refused⟩
    unfold starting at failed
    simp only [frameNextReceipts, new_bindingOf, fixedFrameBytes_bindingOf, failed]
  · rw [frameNext_ok run]
    have collected : gathered.receipts = taken := by simpa [starting] using took.receipts
    have moved : unread stream.cursor stream.lookahead =
        taken ++ unread gathered.cursor gathered.lookahead := took.moved
    by_cases nothing : gathered.receipts = []
    · rw [collected] at nothing
      refine Or.inr (Or.inl ⟨_, if_pos (collected.trans nothing), ⟨rfl, took.history, rfl⟩,
        rfl, rfl, ?_, ?_⟩)
      · rw [nothing] at moved
        exact moved.symm
      · intro room
        by_contra left
        exact collects room rfl left nothing
    · right; right
      rw [split, moved, append_assoc] at linked isSealed
      obtain ⟨frame, formed, received, bound, decoded⟩ := frame_of_taken took
        (linked_append.mp linked).1
        (fun receipt member => isSealed receipt (mem_append_left _ member))
        (collected ▸ nothing) (short.trans few) limited sized
      have encoded := encodeWithDigests_eq env frame
      unfold emit
      dsimp only
      rw [if_neg nothing, collected, formed, ok_bind, encoded]
      refine ⟨_, _, frame, rfl, ⟨rfl, took.history, rfl⟩, ?_⟩
      refine ⟨decoded, ?_, ?_, bound, rfl, trailing_checksum env frame⟩
      · rw [received]
        exact moved
      · rw [received]
        exact took.covered

/-- Nothing is left to read exactly at the pinned tail. -/
theorem unread_eq_nil_iff :
    unread stream.cursor stream.lookahead = [] ↔ stream.position = stream.cursor.history.tail := by
  obtain ⟨later, split⟩ := pin.unread
  rw [split, linked_append] at linked
  rw [pin.ends]
  constructor
  · intro nothing
    rw [nothing]
    rfl
  · intro same
    have sequence := linked.1.sequence
    rw [← same] at sequence
    exact length_eq_zero_iff.mp (by omega)

/-- A readable pin always answers, with nothing exactly at its tail. -/
theorem frameNext_progress (maximum : Nat) (room : 0 < maximum) (few : maximum ≤ maxStagedCommands)
    (isSealed : ∀ receipt ∈ rest, IsSealed env receipt) (readable : stream.cursor.refusal = none) :
    ∃ outcome after, stream.frameNextReceipts env maximum = (.ok outcome, after) ∧
      (outcome = none ↔ stream.position = stream.cursor.history.tail) := by
  rw [← unread_eq_nil_iff pin linked]
  rcases frameNext_cases pin linked maximum few isSealed with
    ⟨reason, after, _, _, _, _, refused⟩ | ⟨after, answered, _, _, _, _, ended⟩ |
    ⟨emitted, after, frame, answered, _, emits⟩
  · exact absurd readable refused
  · exact ⟨none, after, answered, fun _ => ended room, fun _ => rfl⟩
  · refine ⟨some emitted, after, answered, by simp, fun nothing => ?_⟩
    rw [emits.moved] at nothing
    exact absurd (append_eq_nil_iff.mp nothing).1 frame.nonempty

end

end OneCall

/-- What a connection has received: the chain is what came before the resume point, what was
sent and the rest; the sent part is what the emitted frames decode to. -/
structure Delivered {env : Hashing} (chain : PublishedChain env) (resume : ChangelogHistoryPointV3)
    (session : Session) (before sent rest : List AuthoritativeTransactionV3)
    (frames : List ChangelogFrameV3) : Prop where
  split : chain.receipts = before ++ (sent ++ rest)
  resumes : pointAfter chain.floor before = resume
  lineage : session.stream.lineage = chain.lineage
  position : session.stream.position = pointAfter resume sent
  decoded : session.emitted.map (fun emitted => ChangelogFrameV3.decode env emitted.bytes) =
    frames.map .ok
  received : frames.flatMap ChangelogFrameV3.receipts = sent
  bound : ∀ frame ∈ frames, frame.binding = bindingOf chain.lineage frame.binding.priorFrameHash
  /-- Each frame names the checksum before it, the first one the resume hash. -/
  chained : resume.historyHash :: session.emitted.map EmittedChangelogFrameV3.frameChecksum =
    frames.map (fun frame => frame.binding.priorFrameHash) ++ [session.stream.priorFrameHash]
  trailing : ∀ emitted ∈ session.emitted,
    emitted.bytes.drop (emitted.bytes.length - 32) = emitted.frameChecksum.toList

section Sessions

variable {env : Hashing} {chain : PublishedChain env} {resume : ChangelogHistoryPointV3}
  {session : Session} {before sent rest : List AuthoritativeTransactionV3}
  {frames : List ChangelogFrameV3}

section

variable (delivered : Delivered chain resume session before sent rest frames)

include delivered

theorem Delivered.linked : Linked session.stream.lineage session.stream.position rest := by
  have whole := chain.linked
  rw [delivered.split, linked_append, linked_append, delivered.resumes] at whole
  rw [delivered.lineage, delivered.position]
  exact whole.2.2

theorem Delivered.isSealed :
    ∀ receipt ∈ rest, IsSealed env receipt := by
  intro receipt member
  apply chain.isSealed
  rw [delivered.split]
  exact mem_append_right _ (mem_append_right _ member)

/-- The stream's position is the point after the receipts behind it. -/
theorem Delivered.pointAt :
    chain.pointAt (before.length + sent.length) = session.stream.position := by
  have front : chain.receipts.take (before.length + sent.length) = before ++ sent := by
    rw [delivered.split, ← append_assoc, ← length_append, take_left]
  rw [PublishedChain.pointAt, front, pointAfter_append, delivered.resumes, delivered.position]

variable {stream : ChangelogFrameCursorV3}

/-- A call that emits nothing keeps everything delivered. -/
theorem Delivered.quiet (lineage : stream.lineage = session.stream.lineage)
    (position : stream.position = session.stream.position)
    (hash : stream.priorFrameHash = session.stream.priorFrameHash) :
    Delivered chain resume ⟨stream, session.emitted⟩ before sent rest frames where
  split := delivered.split
  resumes := delivered.resumes
  lineage := lineage.trans delivered.lineage
  position := position.trans delivered.position
  decoded := delivered.decoded
  received := delivered.received
  bound := delivered.bound
  chained := by
    rw [hash]
    exact delivered.chained
  trailing := delivered.trailing

/-- A call that emits a frame moves its receipts from the rest to what was sent. -/
theorem Delivered.emit {later : List AuthoritativeTransactionV3}
    {emitted : EmittedChangelogFrameV3} {frame : ChangelogFrameV3}
    (keeps : Keeps session.stream stream) (emits : Emits env session.stream stream emitted frame)
    (front : rest = frame.receipts ++ later) :
    Delivered chain resume ⟨stream, session.emitted ++ [emitted]⟩ before (sent ++ frame.receipts)
      later (frames ++ [frame]) where
  split := by rw [delivered.split, front, append_assoc]
  resumes := delivered.resumes
  lineage := keeps.lineage.trans delivered.lineage
  position := by rw [emits.position, delivered.position, pointAfter_append]
  decoded := by simp [delivered.decoded, emits.decoded]
  received := by simp [delivered.received]
  bound := by
    intro other member
    rcases mem_append.mp member with older | newest
    · exact delivered.bound other older
    · rw [mem_singleton.mp newest, emits.bound, delivered.lineage]
      rfl
  chained := by
    have earlier := delivered.chained
    have prior : frame.binding.priorFrameHash = session.stream.priorFrameHash := by
      rw [emits.bound]
      rfl
    rw [← prior] at earlier
    simp only [map_append, map_cons, map_nil, emits.checksum]
    rw [← cons_append, earlier]
  trailing := by
    intro other member
    rcases mem_append.mp member with older | newest
    · exact delivered.trailing other older
    · rw [mem_singleton.mp newest]
      exact emits.trailing

end

/-- What every reachable session satisfies. -/
def Sound (chain : PublishedChain env) (resume : ChangelogHistoryPointV3)
    (before : List AuthoritativeTransactionV3) (session : Session) : Prop :=
  ∃ sent rest frames, Delivered chain resume session before sent rest frames ∧
    (session.stream.failure = none → Pin chain session.stream rest)

/-- The receipts of a chain from one count up to another lead from point to point. -/
theorem pointAfter_segment (chain : PublishedChain env) {from_ upTo : Nat}
    (ordered : from_ ≤ upTo) :
    pointAfter (chain.pointAt from_) ((chain.receipts.take upTo).drop from_) =
      chain.pointAt upTo := by
  have whole := take_append_drop from_ (chain.receipts.take upTo)
  rw [take_take, Nat.min_eq_left ordered] at whole
  rw [PublishedChain.pointAt, PublishedChain.pointAt, ← pointAfter_append, whole]

theorem Delivered.pin (delivered : Delivered chain resume session before sent rest frames)
    (snapshot : Snapshot chain) {lineage : ChangelogLineageV3}
    (opened : snapshot.changelogReceiptsV3 lineage session.stream.position = .ok cursor) :
    Pin chain { session.stream with cursor := cursor, lookahead := none } rest := by
  obtain ⟨_, _, _, _, covered, stored, rfl⟩ := Snapshot.changelogReceiptsV3_eq_ok.mp opened
  rw [snapshot.tail_eq, chain.sequence_pointAt snapshot.inside] at covered
  have bound := snapshot.inside
  have inside :
    session.stream.position.sequence.get - chain.floor.sequence.get ≤ snapshot.published := by omega
  generalize session.stream.position.sequence.get - chain.floor.sequence.get =
    count at stored inside ⊢
  have placed : count = before.length + sent.length := by
    refine chain.pointAt_injective (by omega) ?_ (by rw [stored, delivered.pointAt])
    rw [delivered.split]
    simp
  have behind : chain.receipts.drop count = rest := by
    rw [placed, delivered.split, ← append_assoc, ← length_append, drop_left]
  refine ⟨⟨chain.receipts.drop snapshot.published, ?_⟩, ?_⟩
  · change rest = (chain.receipts.take snapshot.published).drop count ++ _
    rw [← behind, ← drop_append_of_le_length (by simp; omega), take_append_drop]
  · change snapshot.history.tail =
      pointAfter session.stream.position ((chain.receipts.take snapshot.published).drop count)
    rw [snapshot.tail_eq, ← stored, pointAfter_segment chain inside]

end Sessions

section Runs

variable {env : Hashing} {chain : PublishedChain env} {resume : ChangelogHistoryPointV3}
  {before : List AuthoritativeTransactionV3} {session : Session}

/-- A failed call fences the stream and keeps what was delivered. -/
structure Fences (mark :
    ReplicationStreamErrorV3 → ChangelogFrameCursorV3 → ChangelogFrameCursorV3) : Prop where
  lineage : ∀ reason stream, (mark reason stream).lineage = stream.lineage
  position : ∀ reason stream, (mark reason stream).position = stream.position
  hash : ∀ reason stream, (mark reason stream).priorFrameHash = stream.priorFrameHash
  failure : ∀ reason stream, (mark reason stream).failure = some reason

/-- The answer of a framing call, with a failure latched the way the caller latches it. -/
def answer (mark : ReplicationStreamErrorV3 → ChangelogFrameCursorV3 → ChangelogFrameCursorV3) :
    Except ReplicationStreamErrorV3 (Option EmittedChangelogFrameV3) × ChangelogFrameCursorV3 →
    Except ReplicationStreamErrorV3 (Option EmittedChangelogFrameV3) × ChangelogFrameCursorV3
  | (.error reason, after) => (.error reason, mark reason after)
  | (.ok frame, after) => (.ok frame, after)

section

variable (sound : Sound chain resume before session)

include sound

theorem sound_framing {mark : ReplicationStreamErrorV3 → ChangelogFrameCursorV3 →
      ChangelogFrameCursorV3} (fences : Fences mark) {maximum : Nat}
    (few : maximum ≤ maxStagedCommands)
    (alive : session.stream.failure = none) : Sound chain resume before
      (session.record (answer mark (session.stream.frameNextReceipts env maximum))) := by
  obtain ⟨sent, rest, frames, delivered, pinned⟩ := sound
  have pin := pinned alive
  rcases frameNext_cases pin delivered.linked maximum few delivered.isSealed with
    ⟨reason, after, failed, lineage, position, hash, _⟩ |
    ⟨after, quiet, keeps, position, hash, same, _⟩ | ⟨emitted, after, frame, sentOne, keeps, emits⟩
  · rw [failed]
    refine ⟨sent, rest, frames, delivered.quiet ((fences.lineage reason after).trans lineage)
      ((fences.position reason after).trans position) ((fences.hash reason after).trans hash), ?_⟩
    intro live
    have fenced := fences.failure reason after
    rw [show (mark reason after).failure = none from live] at fenced
    cases fenced
  · rw [quiet]
    refine ⟨sent, rest, frames, delivered.quiet keeps.lineage position hash, fun _ => ?_⟩
    refine ⟨?_, ?_⟩
    · obtain ⟨later, split⟩ := pin.unread
      exact ⟨later, by rw [split, ← same]; rfl⟩
    · change after.cursor.history.tail =
        pointAfter after.position (unread after.cursor after.lookahead)
      rw [keeps.history, same, position, pin.ends]
  · obtain ⟨later, split⟩ := pin.unread
    rw [emits.moved, append_assoc] at split
    rw [sentOne]
    refine ⟨_, _, _, delivered.emit keeps emits split, fun _ => ⟨⟨later, rfl⟩, ?_⟩⟩
    change after.cursor.history.tail =
      pointAfter after.position (unread after.cursor after.lookahead)
    rw [keeps.history, pin.ends, emits.moved, emits.position, pointAfter_append]

theorem sound_nextFrame :
    Sound chain resume before (session.record (session.stream.nextFrame env)) := by
  have fences : Fences fun reason after => { after with failure := some reason } :=
    ⟨fun _ _ => rfl, fun _ _ => rfl, fun _ _ => rfl, fun _ _ => rfl⟩
  unfold nextFrame
  split
  · exact sound
  · next alive => exact sound_framing sound fences (show 1 ≤ maxStagedCommands by decide) alive

theorem sound_nextCoalescedFrame :
    Sound chain resume before (session.record (session.stream.nextCoalescedFrame env)) := by
  have fences :
      Fences fun reason after => { after with failure := some reason, lookahead := none } :=
    ⟨fun _ _ => rfl, fun _ _ => rfl, fun _ _ => rfl, fun _ _ => rfl⟩
  unfold nextCoalescedFrame
  split
  · exact sound
  · next alive => exact sound_framing sound fences le_rfl alive

theorem sound_advanceSnapshot (snapshot : Snapshot chain) :
    Sound chain resume before ⟨(session.stream.advanceSnapshot snapshot).2, session.emitted⟩ := by
  unfold advanceSnapshot
  split
  · exact sound
  · obtain ⟨sent, rest, frames, delivered, _⟩ := sound
    dsimp only
    split
    · rename_i cursor repinned
      simp only [bind_eq_ok, mapError_eq_ok, Except.ok.injEq] at repinned
      obtain ⟨_, opened, _, _, rfl⟩ := repinned
      have pin := delivered.pin snapshot opened
      exact ⟨sent, rest, frames, delivered.quiet rfl rfl rfl, fun _ => ⟨pin.unread, pin.ends⟩⟩
    · refine ⟨sent, rest, frames, delivered.quiet rfl rfl rfl, ?_⟩
      intro live
      cases live

theorem sound_step (call : Call chain) : Sound chain resume before (session.step call) := by
  cases call with
  | nextFrame => exact sound_nextFrame sound
  | nextCoalescedFrame => exact sound_nextCoalescedFrame sound
  | advanceSnapshot snapshot => exact sound_advanceSnapshot sound snapshot

end

variable {count : Nat}

/-- A snapshot opens at every retained point it covers. -/
theorem opens_at (snapshot : Snapshot chain) (answers : snapshot.openRefusal = none)
    (retained : snapshot.pruned ≤ count) (covered : count ≤ snapshot.published) :
    ∃ cursor, snapshot.changelogReceiptsV3 chain.lineage (chain.pointAt count) = .ok cursor ∧
      validatePin cursor.history chain.lineage (chain.pointAt count) = .ok () := by
  have inside := snapshot.inside
  have ordered := snapshot.ordered
  have placed := chain.sequence_pointAt (covered.trans inside)
  have lowest := chain.sequence_pointAt (ordered.trans inside)
  have highest := chain.sequence_pointAt inside
  have counted : (chain.pointAt count).sequence.get - chain.floor.sequence.get = count := by omega
  refine ⟨_, Snapshot.changelogReceiptsV3_eq_ok.mpr ⟨answers, ?_, ?_, ?_, ?_, ?_, rfl⟩, ?_⟩
  · exact ⟨by rw [snapshot.lineage_eq], by rw [snapshot.lineage_eq]⟩
  · rw [snapshot.lineage_eq]
  · rw [snapshot.minimum_eq]
    omega
  · rw [snapshot.tail_eq]
    omega
  · rw [counted]
  · -- at an end of the retained range the whole point must agree, and a sequence fixes the point
    simp only [validatePin, snapshot.lineage_eq, snapshot.minimum_eq, snapshot.tail_eq, bind_eq_ok,
      require_eq_ok, exists_and_left, exists_const, and_self, true_and]
    refine ⟨by omega, by omega, fun same => ?_, fun same => ?_⟩
    · rw [chain.pointAt_injective (covered.trans inside) inside same]
    · rw [chain.pointAt_injective (covered.trans inside) (ordered.trans inside) same]

/-- What a live stream can still do. A later snapshot that covers its position is pinned, and the
stream goes on to the tail of that one. -/
structure Live (chain : PublishedChain env) (session : Session) : Prop where
  nextFrame : session.stream.failure = none → session.stream.cursor.refusal = none →
    ∃ outcome after, session.stream.nextFrame env = (.ok outcome, after) ∧
      (outcome = none ↔ session.stream.position = session.stream.cursor.history.tail)
  nextCoalescedFrame : session.stream.failure = none → session.stream.cursor.refusal = none →
    ∃ outcome after, session.stream.nextCoalescedFrame env = (.ok outcome, after) ∧
      (outcome = none ↔ session.stream.position = session.stream.cursor.history.tail)
  advanceSnapshot : session.stream.failure = none → ∀ snapshot : Snapshot chain,
    snapshot.openRefusal = none →
    snapshot.history.minimumResume.sequence.get ≤ session.stream.position.sequence.get →
    session.stream.position.sequence.get ≤ snapshot.history.tail.sequence.get →
    ∃ after, session.stream.advanceSnapshot snapshot = (.ok (), after) ∧ after.failure = none ∧
      after.position = session.stream.position ∧ after.cursor.history = snapshot.history

theorem Sound.live (sound : Sound chain resume before session) : Live chain session := by
  obtain ⟨sent, rest, frames, delivered, pinned⟩ := sound
  refine ⟨fun alive readable => ?_, fun alive readable => ?_,
    fun alive snapshot answers low high => ?_⟩
  · obtain ⟨outcome, after, answered, ending⟩ := frameNext_progress (pinned alive)
      delivered.linked 1 (by decide) (by decide) delivered.isSealed readable
    refine ⟨outcome, after, ?_, ending⟩
    unfold nextFrame
    rw [alive]
    dsimp only
    rw [answered]
  · obtain ⟨outcome, after, answered, ending⟩ := frameNext_progress (pinned alive)
      delivered.linked maxStagedCommands (by decide) le_rfl delivered.isSealed readable
    refine ⟨outcome, after, ?_, ending⟩
    unfold nextCoalescedFrame
    rw [alive]
    dsimp only
    rw [answered]
  · have placed := delivered.pointAt
    have bound : before.length + sent.length ≤ chain.receipts.length := by
      rw [delivered.split]
      simp
    rw [← placed, chain.sequence_pointAt bound] at low high
    rw [snapshot.minimum_eq, chain.sequence_pointAt (snapshot.ordered.trans snapshot.inside)] at low
    rw [snapshot.tail_eq, chain.sequence_pointAt snapshot.inside] at high
    obtain ⟨cursor, opened, valid⟩ := opens_at snapshot answers (Nat.add_le_add_iff_left.mp low)
      (Nat.add_le_add_iff_left.mp high)
    rw [placed, ← delivered.lineage] at opened valid
    unfold advanceSnapshot
    rw [alive]
    dsimp only
    rw [opened]
    simp only [Except.mapError, ok_bind, valid]
    obtain ⟨_, _, _, _, _, _, rfl⟩ := Snapshot.changelogReceiptsV3_eq_ok.mp opened
    exact ⟨_, rfl, rfl, rfl, rfl⟩

/-- The session after a list of calls. -/
def sessionAfter (chain : PublishedChain env) (stream : ChangelogFrameCursorV3)
    (calls : List (Call chain)) : Session :=
  Runs.run (fun session (call : Call chain) => session.step call) (Session.start stream) calls

section

variable (snapshot : Snapshot chain) {stream : ChangelogFrameCursorV3}
  (opened : openAt snapshot chain.lineage (chain.pointAt count) = .ok stream)

include snapshot opened

theorem sound_start :
    Sound chain (chain.pointAt count) (chain.receipts.take count) (Session.start stream) := by
  simp only [openAt, bind_eq_ok, mapError_eq_ok, Except.ok.injEq] at opened
  obtain ⟨cursor, received, _, _, rfl⟩ := opened
  have delivered : Delivered chain (chain.pointAt count) (Session.start ⟨chain.lineage,
      chain.pointAt count, (chain.pointAt count).historyHash, cursor, none, none⟩)
      (chain.receipts.take count) [] (chain.receipts.drop count) [] :=
    ⟨by simp, rfl, rfl, rfl, rfl, rfl, by simp, rfl, by simp [Session.start]⟩
  have pin := delivered.pin snapshot received
  exact ⟨[], _, [], delivered, fun _ => ⟨pin.unread, pin.ends⟩⟩

theorem sound_session (calls : List (Call chain)) :
    Sound chain (chain.pointAt count) (chain.receipts.take count)
    (sessionAfter chain stream calls) :=
  Runs.run_invariant (P := Sound chain (chain.pointAt count) (chain.receipts.take count))
    (fun _ call kept => sound_step kept call) (sound_start snapshot opened) calls

end

/-- For every retained point of every snapshot of a chain, and every list of calls on the stream
opened there: the emitted frames decode, their receipts are the receipts of the chain from that
point to the stream's position, each frame names the checksum before it, and a live stream whose
reads are answered goes on to the pinned tail. -/
theorem stream_fidelity (chain : PublishedChain env) (snapshot : Snapshot chain) (count : Nat)
    (retained : snapshot.pruned ≤ count) (covered : count ≤ snapshot.published) :
    (snapshot.openRefusal = none → ∃ stream,
      ChangelogFrameCursorV3.openAt snapshot chain.lineage (chain.pointAt count) = .ok stream) ∧
    ∀ stream, ChangelogFrameCursorV3.openAt snapshot chain.lineage (chain.pointAt count) =
        .ok stream → ∀ calls : List (Call chain),
      (∃ sent rest frames, Delivered chain (chain.pointAt count) (sessionAfter chain stream calls)
        (chain.receipts.take count) sent rest frames) ∧
      Live chain (sessionAfter chain stream calls) := by
  refine ⟨fun answers => ?_, fun stream opened calls => ?_⟩
  · obtain ⟨cursor, received, valid⟩ := opens_at snapshot answers retained covered
    refine ⟨⟨chain.lineage, chain.pointAt count, (chain.pointAt count).historyHash, cursor,
      none, none⟩, ?_⟩
    simp only [openAt, received, Except.mapError, ok_bind, valid]
  · have sound := sound_session snapshot opened calls
    have live := sound.live
    obtain ⟨sent, rest, frames, delivered, _⟩ := sound
    exact ⟨⟨sent, rest, frames, delivered⟩, live⟩

end Runs

/-- A hash function that tells nothing apart; only the three inventories are distinct. -/
def flatHashing : Hashing where
  sha256 _ := zeroHash
  catalogDigest
    | .v1 => List.Vector.replicate 32 1
    | .v2 => List.Vector.replicate 32 2
    | .v3 => List.Vector.replicate 32 3
  distinct := by
    intro left right same
    cases left <;> cases right <;> first | rfl | exact absurd same (by decide)

def sampleLineage : ChangelogLineageV3 := ⟨UuidV7.sample, .lit 1, .lit 1, .v1⟩

def samplePoint : ChangelogHistoryPointV3 := ⟨.lit 1, zeroHash, DualFrontier.initial⟩

def sampleMutation : AuthoritativeMutationV3 where
  domain := .ofV1 .entities
  key := [7]
  expectedHash := none
  value := some [9]
  valid := by decide
  deletes := by decide

def sampleReceipt : AuthoritativeTransactionV3 where
  binding := ⟨UuidV7.sample, 1, some (.lit 1), .lit 2, DualFrontier.initial, DualFrontier.initial,
    zeroHash⟩
  attribution := .catalogAdministration
  mutations := [sampleMutation]
  historyHash := zeroHash
  shaped := by decide
  ordered := by decide
  bounded := by decide

def sampleChain : PublishedChain flatHashing where
  lineage := sampleLineage
  floor := samplePoint
  receipts := [sampleReceipt]
  linked := ⟨⟨by decide, by decide⟩, trivial⟩
  isSealed := by decide

def sampleSnapshot : Snapshot sampleChain where
  pruned := 0
  published := 1
  history := ⟨sampleLineage, samplePoint, fromReceipt sampleReceipt, samplePoint,
    by decide, by decide⟩
  ordered := by decide
  inside := by decide
  lineage_eq := rfl
  minimum_eq := rfl
  tail_eq := rfl
  openRefusal := none
  readRefusal := none

/-- The sample stream opens at the floor and delivers faithfully whatever is called on it. -/
theorem stream_fidelity_sample :
    (sampleSnapshot.pruned ≤ 0 ∧ 0 ≤ sampleSnapshot.published) ∧ ∃ stream,
      ChangelogFrameCursorV3.openAt sampleSnapshot sampleLineage samplePoint = .ok stream ∧
      ∀ calls : List (Call sampleChain), ∃ sent rest frames,
        Delivered sampleChain samplePoint (sessionAfter sampleChain stream calls) [] sent rest
          frames := by
  have faithful := stream_fidelity sampleChain sampleSnapshot 0 (by decide) (by decide)
  obtain ⟨stream, opened⟩ := faithful.1 rfl
  exact ⟨by decide, stream, opened, fun calls => (faithful.2 stream opened calls).1⟩

end StreamFidelity
