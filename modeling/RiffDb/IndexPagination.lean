import RiffDb.RowPolicies
import Mathlib.Data.List.Pairwise

/-!
# Pages of an index scan

A query reads its ranges of the index one after the other, each in pages of the storage, and leaves
out rows of other partitions and rows that its policy hides. It looks for one row more than its
page takes: if there is one, the page goes on after the key of its last row. A row that its policy
cannot evaluate is not left out but ends the query.
-/

namespace IndexPagination

open CheckedCode CanonicalScalars CanonicalValues CanonicalRecords ValueTypes KeySchemas
  BytePrefixes MemoTables RowPolicies

inductive StorageError where
  | limitExceeded
  | invariantViolated
  | corrupt
deriving DecidableEq

/-- The scan ceiling is told apart from the other exits; it too is a limit error to the caller. -/
inductive ScanFailure where
  | ceiling
  | storage (error : StorageError)
deriving DecidableEq

def invariant : ScanFailure := .storage .invariantViolated

def corrupt : ScanFailure := .storage .corrupt

abbrev Scanned := Except ScanFailure

def maxQueryScannedRows : Nat := 65535

def maxScanPageEntries : Nat := 500

inductive AccessDirection where
  | forward
  | reverse
deriving DecidableEq

section Keys

variable {Key : Type} [LinearOrder Key] {direction : AccessDirection}

namespace AccessDirection

def before (direction : AccessDirection) (left right : Key) : Bool :=
  match direction with
  | .forward => left < right
  | .reverse => right < left

theorem before_trans {first second third : Key} (low : direction.before first second = true)
    (high : direction.before second third = true) : direction.before first third = true := by
  cases direction <;> grind [before]

theorem passed {after : Option Key} {key other : Key}
    (reached : after.all (direction.before · key) = true)
    (behind : direction.before key other = true) : after.all (direction.before · other) = true := by
  cases after with
  | none => rfl
  | some start => exact before_trans reached behind

end AccessDirection

structure BoundIndexRangeV1 (Key : Type) [LinearOrder Key] where
  startInclusive : Key
  endExclusive : Key
  ordered : startInclusive < endExclusive

structure BoundIndexRangeWindowV1 (Key : Type) where
  startInclusive : Key
  endExclusive : Key
  skipStartEqual : Bool
  includeEndEqual : Bool

def BoundIndexRangeV1.contains (range : BoundIndexRangeV1 Key) (key : Key) : Bool :=
  range.startInclusive ≤ key && key < range.endExclusive

def BoundIndexRangeWindowV1.covers (window : BoundIndexRangeWindowV1 Key) (key : Key) : Bool :=
  (window.startInclusive < key || (!window.skipStartEqual && key = window.startInclusive)) &&
    (key < window.endExclusive || (window.includeEndEqual && key = window.endExclusive))

def BoundIndexRangeV1.whole (range : BoundIndexRangeV1 Key) : BoundIndexRangeWindowV1 Key :=
  ⟨range.startInclusive, range.endExclusive, false, false⟩

/-- What a scan has to read of a range after a position. -/
def BoundIndexRangeV1.rest (range : BoundIndexRangeV1 Key) (direction : AccessDirection)
    (after : Option Key) (key : Key) : Bool :=
  range.contains key && after.all (direction.before · key)

open AccessDirection BoundIndexRangeV1 BoundIndexRangeWindowV1

section Ordered

open List

variable {α : Type} {key : α → Key}

end Ordered

/-- Ranges in the order of the scan, none into the other. -/
def InOrder (direction : AccessDirection) (ranges : List (BoundIndexRangeV1 Key)) : Prop :=
  ranges.Pairwise fun left right => match direction with
    | .forward => left.endExclusive ≤ right.startInclusive
    | .reverse => right.endExclusive ≤ left.startInclusive

structure SnapshotIndexRangeRequestV1 (Key : Type) where
  window : BoundIndexRangeWindowV1 Key
  direction : AccessDirection
  after : Option Key
  limit : Nat

def SnapshotIndexRangeRequestV1.new (window : BoundIndexRangeWindowV1 Key)
    (direction : AccessDirection)
    (after : Option Key) (limit : Nat) : Scanned (SnapshotIndexRangeRequestV1 Key) := do
  require (window.startInclusive < window.endExclusive ∧
    after.all (fun key => window.startInclusive ≤ key && key ≤ window.endExclusive) = true)
    invariant
  .ok ⟨window, direction, after, limit⟩

end Keys

open AccessDirection BoundIndexRangeV1 BoundIndexRangeWindowV1

abbrev Range := BoundIndexRangeV1 IndexEntryKey

abbrev Window := BoundIndexRangeWindowV1 IndexEntryKey

abbrev Request := SnapshotIndexRangeRequestV1 IndexEntryKey

/-- What a query asks of its entity, bound to its parameters. -/
structure QueryAccessStep (Row : Type) where
  entity : EntityTypeId
  entityKeySchema : KeySchema
  indexKeySchema : KeySchema
  partition : PartitionKey
  direction : AccessDirection
  ranges : List Range
  materialize : CanonicalRecord → Except StorageError Row

section Rows

variable {Row : Type} (step : QueryAccessStep Row)
  (indexedRelationshipExists : AuthorizedIndexedRelationshipLookupV1 → Scanned Bool)
  (snapshot : Snapshot) (policy : Policy)

/-- A record that was read, after the policy. -/
def shown (record : CanonicalRecord) : Memoised indexedRelationshipExists (Option Row) := do
  if ← allowsPolicyRecord invariant indexedRelationshipExists policy step.entity record then
    let row ← (step.materialize record).mapError ScanFailure.storage
    pure (some row)
  else pure none

end Rows

abbrev Entries (Row : Type) := List (IndexEntryKey × Row)

/-- A loop over entries that collects rows. The flag says that it has all that it looks for. -/
def gather {m : Type → Type} [Monad m] {Row : Type} (visit : IndexEntry → m (Option Row))
    (fetchLimit : Nat) : List IndexEntry → Entries Row → m (Entries Row × Bool)
  | [], entries => pure (entries, false)
  | entry :: rows, entries => do
    match ← visit entry with
    | none => gather visit fetchLimit rows entries
    | some row =>
      if entries.length + 1 = fetchLimit then pure (entries ++ [(entry.key, row)], true)
      else gather visit fetchLimit rows (entries ++ [(entry.key, row)])

/-- What stays the same over the pages of one query. Every entry that it meets in its partition
leads to a stored row with the fields that it shows. -/
structure RangeScan (Row : Type) extends QueryAccessStep Row where
  snapshot : Snapshot
  policy : Policy
  inOrder : InOrder direction ranges
  indexed : ∀ entry ∈ snapshot.entries, ranges.any (·.contains entry.key) = true →
    entry.partitionKey = partition → ∃ key record row,
      indexKeySchema.decodeIndexEntityKey entry.key = .ok key ∧
      snapshot.entities entity key = some record ∧ materialize record = .ok row

/-- One call: its page limit, and how many entries the storage has ready for each of its
requests. -/
structure PageCall where
  limit : Nat
  positive : 0 < limit
  ready : Request → Nat

/-- The addition saturates only far above the number of rows that a scan can read. -/
def PageCall.fetchLimit (call : PageCall) : Nat := call.limit + 1

section Lower

variable (snapshot : Snapshot)

def arranged (direction : AccessDirection) : List IndexEntry :=
  match direction with
  | .forward => snapshot.entries
  | .reverse => snapshot.entries.reverse

def pending (direction : AccessDirection) (window : Window) (after : Option IndexEntryKey) :
    List IndexEntry :=
  (arranged snapshot direction).filter fun entry =>
    window.covers entry.key && after.all (direction.before · entry.key)

variable (ready : Request → Nat)

/-- The storage gives at least one entry if there is one and at most the limit. -/
def scanSnapshotIndexRange (request : Request) : List IndexEntry × Option IndexEntryKey :=
  let pending := pending snapshot request.direction request.window request.after
  let count := max 1 (min (ready request) request.limit)
  (pending.take count,
    if pending.drop count = [] then none else (pending.take count).getLast?.map IndexEntry.key)

def inspectEntries (partition : PartitionKey) : List IndexEntry → Nat → Scanned (Bool × Nat)
  | [], inspected => .ok (false, inspected)
  | entry :: entries, inspected => do
    require (inspected ≠ maxQueryScannedRows) .ceiling
    if entry.partitionKey = partition then .ok (true, inspected + 1)
    else inspectEntries partition entries (inspected + 1)

/-- The loop over the lower pages of a relationship. -/
def inspect (partition : PartitionKey) (window : Window) :
    Nat → Option IndexEntryKey → Nat → Scanned Bool
  | 0, _, _ => .error invariant
  | fuel + 1, after, inspected => do
    let request ← SnapshotIndexRangeRequestV1.new window .forward after
      (min maxQueryScannedRows maxScanPageEntries)
    let page := scanSnapshotIndexRange snapshot ready request
    let result ← inspectEntries partition page.1 inspected
    if result.1 then .ok true
    else match page.2 with
      | none => .ok false
      | some next => inspect partition window fuel (some next) result.2

def indexedRelationshipExists (lookup : AuthorizedIndexedRelationshipLookupV1) : Scanned Bool := do
  let upper ← okOr (exclusivePrefixEnd lookup.indexPrefix) invariant
  inspect snapshot ready lookup.partition ⟨⟨lookup.indexPrefix⟩, ⟨upper⟩, false, false⟩
    (snapshot.entries.length + 1) none 0

end Lower

structure QueryScanPage (Row : Type) where
  rows : List Row
  continuation : Option IndexEntryKey
deriving DecidableEq

section Scan

variable {Row : Type} (scan : RangeScan Row) (call : PageCall)

end Scan

open List

section Expected

variable {Row : Type} (step : QueryAccessStep Row) (snapshot : Snapshot) (policy : Policy)

/-- What becomes of a record by the decision of the policy. -/
def seen (record : CanonicalRecord) : Scanned (Option Row) := do
  let allowed ← (snapshot.decision policy step.entity record).mapError fun _ => invariant
  if allowed then ((step.materialize record).mapError .storage).map some else .ok none

/-- What becomes of an entry. -/
def outcome (entry : IndexEntry) : Scanned (Option Row) :=
  if entry.partitionKey ≠ step.partition then .ok none
  else do
    let key ← (step.indexKeySchema.decodeIndexEntityKey entry.key).mapError fun _ => corrupt
    let fetched ← okOr (snapshot.entities step.entity key) corrupt
    seen step snapshot policy fetched

variable {step snapshot policy} {within : Prop}
  {indexedRelationshipExists : AuthorizedIndexedRelationshipLookupV1 → Scanned Bool}

end Expected

section Gathering

variable {Row : Type} {visit : IndexEntry → Scanned (Option Row)} {fetchLimit : Nat}
  {rows : List IndexEntry} {entries : Entries Row}

/-- The row that an entry adds. -/
def added (visit : IndexEntry → Scanned (Option Row)) (entry : IndexEntry) :
    Option (IndexEntryKey × Row) :=
  (visit entry).toOption.join.map (Prod.mk entry.key)

end Gathering

section Paging

variable {snapshot : Snapshot} {ready : Request → Nat} {direction : AccessDirection}
  {window : Window}
  {after : Option IndexEntryKey} {within : Prop}

end Paging

section Pages

variable {Row : Type} {call : PageCall} {rows : Entries Row} {physical : Nat}

variable {scan : RangeScan Row} {within : Prop} {after : Option IndexEntryKey}

namespace RangeScan

/-- What becomes of an entry that the scan meets. -/
def meets (scan : RangeScan Row) : IndexEntry → Scanned (Option Row) :=
  outcome scan.toQueryAccessStep scan.snapshot scan.policy

/-- The entries of the ranges after a position, in the order of the scan. -/
def entriesAfter (scan : RangeScan Row) (after : Option IndexEntryKey) (ranges : List Range) :
    List IndexEntry :=
  ranges.flatMap fun range => (arranged scan.snapshot scan.direction).filter fun entry =>
    range.rest scan.direction after entry.key

/-- The records of the entries that the scan meets in its partition. -/
def Meets (scan : RangeScan Row) (entry : IndexEntry) (record : CanonicalRecord) : Prop :=
  entry ∈ scan.entriesAfter none scan.ranges ∧ entry.partitionKey = scan.partition ∧
    ∃ key, scan.indexKeySchema.decodeIndexEntityKey entry.key = .ok key ∧
      scan.snapshot.entities scan.entity key = some record

/-- The policy can be evaluated for every row that the scan meets. -/
def Evaluable (scan : RangeScan Row) : Prop :=
  ∀ entry record, scan.Meets entry record → scan.policy.Evaluable scan.entity record

/-- The ranges have fewer entries than the ceiling, and so has each relationship that a row of them
needs. -/
def Fits (scan : RangeScan Row) : Prop :=
  (scan.entriesAfter none scan.ranges).length < maxQueryScannedRows ∧
    ∀ entry record lookups, scan.Meets entry record →
      scan.policy.lookups scan.entity record = .ok lookups → ∀ lookup ∈ lookups,
        (scan.snapshot.under lookup.indexPrefix).length ≤ maxQueryScannedRows

end RangeScan

open RangeScan

namespace RangeScan

/-- The row that an entry stands for, with its key, if it is in the partition and the policy admits
it. -/
def admitted (scan : RangeScan Row) : IndexEntry → Option (IndexEntryKey × Row) := added scan.meets

/-- The admitted rows after a position. -/
def remaining (scan : RangeScan Row) (after : Option IndexEntryKey) : Entries Row :=
  (scan.entriesAfter after scan.ranges).filterMap scan.admitted

end RangeScan

/-- Pages that have just these rows; only the last one has no continuation, and every other has
rows behind it. -/
def Exact : List (QueryScanPage Row) → List Row → Prop
  | [], _ => False
  | page :: pages, rows => (page.continuation = none ∧ pages = [] ∧ page.rows = rows) ∨
    (page.continuation.isSome = true ∧ ∃ behind, behind ≠ [] ∧ rows = page.rows ++ behind ∧
      Exact pages behind)

variable {calls : Nat → PageCall}
  {caches : ∀ index, Memo (indexedRelationshipExists scan.snapshot (calls index).ready)}

end Pages

namespace Sample

def one : NonZeroU32 := NonZeroU32.lit 1

def two : NonZeroU32 := NonZeroU32.lit 2

def component : KeyComponentSchema := ⟨.u64, [], .canonical, 8, rfl⟩

def entity : KeySchema := .mk (.entity one) [component] none 14

def index (id : IndexId) : KeySchema := .mk (.index id one) [component] (some entity) 32

def word (value : UInt8) : ByteWire.Bytes := [0, 0, 0, 0, 0, 0, 0, value]

def keyOf (key : UInt8) : EntityKey := ⟨[0x45, 1, 0, 0, 0, 1] ++ word key⟩

def partitionOf (tenant : UInt8) : PartitionKey := ⟨[0x50, 1, 0, 0, 0, 1] ++ word tenant⟩

def boundOf (index value : UInt8) : IndexEntryKey := ⟨[0x49, 1, 0, 0, 0, index] ++ word value⟩

def entryOf (index value key tenant : UInt8) : IndexEntry :=
  ⟨⟨(boundOf index value).asBytes ++ [0, 0, 0, 14] ++ (keyOf key).asBytes⟩, partitionOf tenant⟩

def recordOf (key group : UInt64) : CanonicalRecord :=
  ⟨[(one, .u64 key), (two, .u64 group)], pairwise_pair.mpr (show (1 : UInt32) < 2 by decide)⟩

/-- A row is visible if the second index has an entry under its group. -/
def context : AuthorizedQueryRowPolicyContextV1 :=
  ⟨⟨none, ⟨"Human", by decide +kernel⟩, fun _ => none⟩,
    fun _ => some ⟨[⟨.read, [.indexedExists one two [⟨.u64, .rowField two⟩]], 0⟩],
      fun _ _ => some ⟨one, two, index two, .mk (.partition one) [component] none 14, 1⟩⟩⟩

/-- Three rows of the first tenant around one of the second, and an entry for the group 1. -/
def snapshot (third : CanonicalRecord) : Snapshot where
  entries := [entryOf 1 1 1 1, entryOf 1 1 2 2, entryOf 1 2 3 1, entryOf 1 5 4 1, entryOf 2 1 9 1]
  increasing := by decide +kernel
  entities := fun _ key =>
    [(keyOf 1, recordOf 1 1), (keyOf 2, recordOf 2 1), (keyOf 3, third),
      (keyOf 4, recordOf 4 1)].lookup key

def step : QueryAccessStep CanonicalValue where
  entity := one
  entityKeySchema := entity
  indexKeySchema := index one
  partition := partitionOf 1
  direction := .forward
  ranges := [⟨boundOf 1 1, boundOf 1 3, by decide +kernel⟩,
    ⟨boundOf 1 5, boundOf 1 6, by decide +kernel⟩]
  materialize := fun record => okOr (record.recordField one) .corrupt

theorem indexed {third : CanonicalRecord} (shows : ∃ row, step.materialize third = .ok row) :
    ∀ entry ∈ (snapshot third).entries, step.ranges.any (·.contains entry.key) = true →
      entry.partitionKey = step.partition → ∃ key record row,
        step.indexKeySchema.decodeIndexEntityKey entry.key = .ok key ∧
        (snapshot third).entities step.entity key = some record ∧
          step.materialize record = .ok row := by
  obtain ⟨row, isRow⟩ := shows
  intro entry member contained own
  simp only [snapshot, mem_cons, not_mem_nil, or_false] at member
  rcases member with rfl | rfl | rfl | rfl | rfl
  · exact ⟨keyOf 1, _, _, by decide +kernel, rfl, rfl⟩
  · exact absurd own (by decide +kernel)
  · exact ⟨keyOf 3, third, row, by decide +kernel, rfl, isRow⟩
  · exact ⟨keyOf 4, _, _, by decide +kernel, rfl, rfl⟩
  · exact absurd contained (by decide +kernel)

def scan (third : CanonicalRecord) (shows : ∃ row, step.materialize third = .ok row) :
    RangeScan CanonicalValue where
  toQueryAccessStep := step
  snapshot := snapshot third
  policy := some context
  inOrder := by
    refine pairwise_pair.mpr ?_
    show boundOf 1 3 ≤ boundOf 1 5
    decide +kernel
  indexed := indexed shows

def oneByOne (_ : Nat) : PageCall := ⟨1, Nat.one_pos, fun _ => 1⟩

end Sample

open Sample

end IndexPagination
