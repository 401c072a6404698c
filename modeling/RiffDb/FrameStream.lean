import RiffDb.ChangelogChain

/-!
# Framing a published history

A frame cursor reads receipts from an immutable snapshot pin and emits them as frames. It keeps at
most one receipt of lookahead, cuts frames at the byte and transition ceilings between receipts, and
may replace its pin at the position it has emitted. Any failure fences the stream for good.

A snapshot is a prefix of the published chain with its retained floor; it may fail to open or at any
row. Negotiation before a stream opens is not modelled.
-/

namespace FrameStream

open ByteWire CheckedCode ChangelogHistory ChangelogReceipt ReceiptCodec ChangelogFrame
  ChangelogChain

inductive StorageErrorKind where
  | unavailable
  | commitStatusUnknown
  | corruptData
  | incompatibleFormat
  | limitExceeded
  | invariantViolation
  | sequenceExhausted
  | historyPruned
deriving DecidableEq, Repr

inductive ChangelogCursorErrorV3 where
  | foreignLineage
  | staleEpoch
  | invalidPosition
  | storage (kind : StorageErrorKind)
deriving DecidableEq, Repr

inductive ReplicationStreamErrorV3 where
  | foreignLineage
  | staleEpoch
  | historyPruned
  | unsupportedFormat
  | unsupportedCatalog
  | unsupportedBounds
  | invalidPosition
  | corruptHistory
  | unavailable
deriving DecidableEq, Repr

def ofCursorError : ChangelogCursorErrorV3 → ReplicationStreamErrorV3
  | .foreignLineage => .foreignLineage
  | .staleEpoch => .staleEpoch
  | .invalidPosition => .invalidPosition
  | .storage .historyPruned => .historyPruned
  | .storage .incompatibleFormat => .unsupportedFormat
  | .storage .unavailable => .unavailable
  | .storage .commitStatusUnknown => .unavailable
  | .storage _ => .corruptHistory

/-- A cursor pinned to one published history. After a refused row it keeps refusing. -/
structure ReceiptCursor where
  history : ChangelogHistoryStateV3
  remaining : List AuthoritativeTransactionV3
  refusal : Option (Nat × ChangelogCursorErrorV3)

namespace ReceiptCursor

def nextReceipt (cursor : ReceiptCursor) :
    Except ChangelogCursorErrorV3 (Option AuthoritativeTransactionV3) × ReceiptCursor :=
  match cursor.refusal, cursor.remaining with
  | some (0, reason), _ => (.error reason, cursor)
  | _, [] => (.ok none, cursor)
  | some (rows + 1, reason), receipt :: rest =>
    (.ok (some receipt), { cursor with remaining := rest, refusal := some (rows, reason) })
  | none, receipt :: rest => (.ok (some receipt), { cursor with remaining := rest })

end ReceiptCursor

/-- One published durable snapshot of a chain: what it retains, what it covers, and where the
environment makes a read fail. -/
structure Snapshot {env : Hashing} (chain : PublishedChain env) where
  pruned : Nat
  published : Nat
  history : ChangelogHistoryStateV3
  ordered : pruned ≤ published
  inside : published ≤ chain.receipts.length
  lineage_eq : history.lineage = chain.lineage
  minimum_eq : history.minimumResume = chain.pointAt pruned
  tail_eq : history.tail = chain.pointAt published
  openRefusal : Option ChangelogCursorErrorV3
  readRefusal : Option (Nat × ChangelogCursorErrorV3)

namespace Snapshot

variable {env : Hashing} {chain : PublishedChain env}

/-- Open the successor cursor of an exact point. -/
def changelogReceiptsV3 (snapshot : Snapshot chain) (lineage : ChangelogLineageV3)
    (after : ChangelogHistoryPointV3) : Except ChangelogCursorErrorV3 ReceiptCursor :=
  match snapshot.openRefusal with
  | some reason => .error reason
  | none => do
    let history := snapshot.history
    require (lineage.databaseId = history.lineage.databaseId ∧
      lineage.historyIncarnation = history.lineage.historyIncarnation) .foreignLineage
    require (lineage.leadershipEpoch = history.lineage.leadershipEpoch) .staleEpoch
    require (history.minimumResume.sequence.get ≤ after.sequence.get) (.storage .historyPruned)
    require (after.sequence.get ≤ history.tail.sequence.get) .invalidPosition
    -- the receipt stored under the sequence decides the point, not the caller
    let count := after.sequence.get - chain.floor.sequence.get
    require (chain.pointAt count = after) .invalidPosition
    .ok ⟨history, (chain.receipts.take snapshot.published).drop count, snapshot.readRefusal⟩

theorem changelogReceiptsV3_eq_ok {snapshot : Snapshot chain} {lineage : ChangelogLineageV3}
    {after : ChangelogHistoryPointV3} {cursor : ReceiptCursor} :
    snapshot.changelogReceiptsV3 lineage after = .ok cursor ↔ snapshot.openRefusal = none ∧
      (lineage.databaseId = snapshot.history.lineage.databaseId ∧
        lineage.historyIncarnation = snapshot.history.lineage.historyIncarnation) ∧
      lineage.leadershipEpoch = snapshot.history.lineage.leadershipEpoch ∧
      snapshot.history.minimumResume.sequence.get ≤ after.sequence.get ∧
      after.sequence.get ≤ snapshot.history.tail.sequence.get ∧
      chain.pointAt (after.sequence.get - chain.floor.sequence.get) = after ∧
      cursor = ⟨snapshot.history, (chain.receipts.take snapshot.published).drop
        (after.sequence.get - chain.floor.sequence.get), snapshot.readRefusal⟩ := by
  unfold changelogReceiptsV3
  cases snapshot.openRefusal with
  | some reason => simp
  | none =>
    simp only [bind_eq_ok, require_eq_ok, exists_and_left, exists_const, Except.ok.injEq,
      true_and, @eq_comm _ cursor]

end Snapshot

def validatePin (history : ChangelogHistoryStateV3) (lineage : ChangelogLineageV3)
    (after : ChangelogHistoryPointV3) : Except ReplicationStreamErrorV3 Unit := do
  require (history.lineage.databaseId = lineage.databaseId ∧
    history.lineage.historyIncarnation = lineage.historyIncarnation) .foreignLineage
  require (history.lineage.leadershipEpoch = lineage.leadershipEpoch) .staleEpoch
  require (history.lineage.catalog = lineage.catalog) .unsupportedCatalog
  require (history.minimumResume.sequence.get ≤ after.sequence.get) .historyPruned
  require (after.sequence.get ≤ history.tail.sequence.get ∧
    (after.sequence = history.tail.sequence → after = history.tail) ∧
    (after.sequence = history.minimumResume.sequence → after = history.minimumResume))
    .invalidPosition

/-- Complete frame bytes with the emitted fence. -/
structure EmittedChangelogFrameV3 where
  bytes : Bytes
  lineage : ChangelogLineageV3
  before : ChangelogHistoryPointV3
  covered : ChangelogHistoryPointV3
  priorFrameHash : ByteArrayOf 32
  frameChecksum : ByteArrayOf 32
  fileDigest : ByteArrayOf 32

structure ChangelogFrameCursorV3 where
  lineage : ChangelogLineageV3
  position : ChangelogHistoryPointV3
  priorFrameHash : ByteArrayOf 32
  cursor : ReceiptCursor
  lookahead : Option AuthoritativeTransactionV3
  failure : Option ReplicationStreamErrorV3

/-- What the loop has collected for the next frame. -/
structure Gathered where
  cursor : ReceiptCursor
  lookahead : Option AuthoritativeTransactionV3
  covered : ChangelogHistoryPointV3
  receipts : List AuthoritativeTransactionV3
  transitions : Nat
  bytes : Nat

/-- The receipt continues the collected position and stays inside the pinned history. -/
def Fits (lineage : ChangelogLineageV3) (tail covered : ChangelogHistoryPointV3)
    (receipt : AuthoritativeTransactionV3) : Prop :=
  Continues lineage covered receipt.binding ∧
    covered.sequence.checkedNext = some receipt.binding.sequence ∧
    receipt.binding.sequence.get ≤ tail.sequence.get ∧
    (receipt.binding.sequence = tail.sequence → fromReceipt receipt = tail)

instance (lineage : ChangelogLineageV3) (tail covered : ChangelogHistoryPointV3)
    (receipt : AuthoritativeTransactionV3) : Decidable (Fits lineage tail covered receipt) :=
  inferInstanceAs (Decidable (_ ∧ _ ∧ _ ∧ _))

namespace Gathered

/-- The lookahead comes before the cursor. -/
def next (gathered : Gathered) :
    Except ChangelogCursorErrorV3 (Option AuthoritativeTransactionV3) × Gathered :=
  match gathered.lookahead with
  | some receipt => (.ok (some receipt), { gathered with lookahead := none })
  | none =>
    let (result, cursor) := gathered.cursor.nextReceipt
    (result, { gathered with cursor := cursor })

def push (gathered : Gathered) (receipt : AuthoritativeTransactionV3) : Gathered :=
  { gathered with
    covered := fromReceipt receipt
    receipts := gathered.receipts ++ [receipt]
    transitions := gathered.transitions + receipt.transitionCount
    bytes := gathered.bytes + 4 + receipt.encodedLen }

/-- One receipt more would exceed a ceiling of the frame. -/
def Overflows (gathered : Gathered) (receipt : AuthoritativeTransactionV3) : Prop :=
  maxStagedCommands < gathered.transitions + receipt.transitionCount ∨
    maxChangelogFrameBytes < gathered.bytes + 4 + receipt.encodedLen

instance (gathered : Gathered) (receipt : AuthoritativeTransactionV3) :
    Decidable (gathered.Overflows receipt) := inferInstanceAs (Decidable (_ ∨ _))

end Gathered

/-- The collecting loop, at most `room` receipts further. -/
def gather (lineage : ChangelogLineageV3) (tail : ChangelogHistoryPointV3) :
    Nat → Gathered → Except ReplicationStreamErrorV3 Unit × Gathered
  | 0, gathered => (.ok (), gathered)
  | room + 1, gathered =>
    if gathered.transitions < maxStagedCommands then
      match gathered.next with
      | (.error reason, after) => (.error (ofCursorError reason), after)
      | (.ok none, after) =>
        if after.covered = tail then (.ok (), after) else (.error .corruptHistory, after)
      | (.ok (some receipt), after) =>
        if Fits lineage tail after.covered receipt then
          if after.Overflows receipt then
            -- a receipt that does not fit an empty frame can never be emitted
            if after.receipts = [] then (.error .corruptHistory, after)
            else (.ok (), { after with lookahead := some receipt })
          else gather lineage tail room (after.push receipt)
        else (.error .corruptHistory, after)
    else (.ok (), gathered)

namespace ChangelogFrameCursorV3

variable {env : Hashing} {chain : PublishedChain env}

/-- Open a stream at the negotiated resume point. -/
def openAt (snapshot : Snapshot chain) (lineage : ChangelogLineageV3)
    (after : ChangelogHistoryPointV3) : Except ReplicationStreamErrorV3 ChangelogFrameCursorV3 := do
  let cursor ← (snapshot.changelogReceiptsV3 lineage after).mapError ofCursorError
  validatePin cursor.history lineage after
  .ok ⟨lineage, after, after.historyHash, cursor, none, none⟩

/-- Replace the pin at the emitted position; the frame chain of the connection goes on. -/
def advanceSnapshot (stream : ChangelogFrameCursorV3) (snapshot : Snapshot chain) :
    Except ReplicationStreamErrorV3 Unit × ChangelogFrameCursorV3 :=
  match stream.failure with
  | some reason => (.error reason, stream)
  | none =>
    let repinned : Except ReplicationStreamErrorV3 ReceiptCursor := do
      let cursor ← (snapshot.changelogReceiptsV3 stream.lineage stream.position).mapError
        ofCursorError
      validatePin cursor.history stream.lineage stream.position
      .ok cursor
    match repinned with
    | .ok cursor => (.ok (), { stream with cursor := cursor, lookahead := none })
    | .error reason => (.error reason, { stream with failure := some reason })

/-- The end of a framing call: nothing at the pinned end, otherwise one encoded frame. -/
def emit (env : Hashing) (stream : ChangelogFrameCursorV3) (binding : ChangelogFrameBindingV3)
    (gathered : Gathered) :
    Except ReplicationStreamErrorV3 (Option EmittedChangelogFrameV3) × ChangelogFrameCursorV3 :=
  let read := { stream with cursor := gathered.cursor, lookahead := gathered.lookahead }
  if gathered.receipts = [] then (.ok none, read)
  else
    match ChangelogFrameV3.fromCheckedStream binding gathered.receipts >>=
        ChangelogFrameV3.encodeWithDigests env with
    | .error _ => (.error .corruptHistory, read)
    | .ok encoded =>
      (.ok (some ⟨encoded.bytes, stream.lineage, stream.position, gathered.covered,
          stream.priorFrameHash, encoded.checksum, encoded.fileDigest⟩),
        { read with priorFrameHash := encoded.checksum, position := gathered.covered })

def frameNextReceipts (env : Hashing) (stream : ChangelogFrameCursorV3) (maximumReceipts : Nat) :
    Except ReplicationStreamErrorV3 (Option EmittedChangelogFrameV3) × ChangelogFrameCursorV3 :=
  match ChangelogFrameBindingV3.new env stream.lineage.databaseId
      stream.lineage.historyIncarnation.get stream.lineage.leadershipEpoch.get
      (env.catalogDigest stream.lineage.catalog) stream.priorFrameHash with
  | .error _ => (.error .corruptHistory, stream)
  | .ok binding =>
    match gather stream.lineage stream.cursor.history.tail maximumReceipts
        ⟨stream.cursor, stream.lookahead, stream.position, [], 0, binding.fixedFrameBytes⟩ with
    | (.error reason, gathered) =>
      (.error reason, { stream with cursor := gathered.cursor, lookahead := gathered.lookahead })
    | (.ok (), gathered) => stream.emit env binding gathered

/-- A one-receipt frame, or the exact pinned end. -/
def nextFrame (env : Hashing) (stream : ChangelogFrameCursorV3) :
    Except ReplicationStreamErrorV3 (Option EmittedChangelogFrameV3) × ChangelogFrameCursorV3 :=
  match stream.failure with
  | some reason => (.error reason, stream)
  | none =>
    match stream.frameNextReceipts env 1 with
    | (.error reason, after) => (.error reason, { after with failure := some reason })
    | (.ok frame, after) => (.ok frame, after)

/-- Published receipts up to the ceilings. A failure also drops the lookahead. -/
def nextCoalescedFrame (env : Hashing) (stream : ChangelogFrameCursorV3) :
    Except ReplicationStreamErrorV3 (Option EmittedChangelogFrameV3) × ChangelogFrameCursorV3 :=
  match stream.failure with
  | some reason => (.error reason, stream)
  | none =>
    match stream.frameNextReceipts env maxStagedCommands with
    | (.error reason, after) =>
      (.error reason, { after with failure := some reason, lookahead := none })
    | (.ok frame, after) => (.ok frame, after)

end ChangelogFrameCursorV3

/-- The calls a connection makes on its stream. -/
inductive Call {env : Hashing} (chain : PublishedChain env) where
  | nextFrame
  | nextCoalescedFrame
  | advanceSnapshot (snapshot : Snapshot chain)

/-- A stream with every frame it has emitted, oldest first. -/
structure Session where
  stream : ChangelogFrameCursorV3
  emitted : List EmittedChangelogFrameV3

namespace Session

variable {env : Hashing} {chain : PublishedChain env}

def start (stream : ChangelogFrameCursorV3) : Session := ⟨stream, []⟩

/-- Keep the frame a call has produced. -/
def record (session : Session)
    (outcome : Except ReplicationStreamErrorV3 (Option EmittedChangelogFrameV3) ×
      ChangelogFrameCursorV3) : Session :=
  match outcome with
  | (.ok (some frame), stream) => ⟨stream, session.emitted ++ [frame]⟩
  | (_, stream) => ⟨stream, session.emitted⟩

def step (session : Session) : Call chain → Session
  | .nextFrame => session.record (session.stream.nextFrame env)
  | .nextCoalescedFrame => session.record (session.stream.nextCoalescedFrame env)
  | .advanceSnapshot snapshot => ⟨(session.stream.advanceSnapshot snapshot).2, session.emitted⟩

end Session

end FrameStream
