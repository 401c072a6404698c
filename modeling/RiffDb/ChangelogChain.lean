import RiffDb.ChangelogFrame

/-!
# The receipt chain of one lineage

A receipt succeeds a history point when it names the point's sequence, frontier and hash under the
same database, incarnation and catalog. The retained roots advance over exactly such receipts. A
published chain is a starting point and a list of sealed receipts, each the successor of the one
before; a sequence number names at most one place of it.
-/

namespace ChangelogChain

open ByteWire CheckedCode ReplicationTypes ChangelogHistory ChangelogReceipt ReceiptCodec
  ChangelogFrame ChangelogHistoryPointV3

/-- The point a receipt leads to. -/
def fromReceipt (receipt : AuthoritativeTransactionV3) : ChangelogHistoryPointV3 :=
  ⟨receipt.binding.sequence, receipt.historyHash, receipt.binding.coveredFrontier⟩

/-- The binding continues the given point under the given lineage. -/
def Continues (lineage : ChangelogLineageV3) (point : ChangelogHistoryPointV3)
    (row : AuthoritativeTransactionBindingV3) : Prop :=
  row.databaseId = lineage.databaseId ∧
    row.historyIncarnation.toNat = lineage.historyIncarnation.get ∧
    row.predecessor = some point.sequence ∧ row.predecessorFrontier = point.frontier ∧
    row.priorHistoryHash = point.historyHash

instance (lineage : ChangelogLineageV3) (point : ChangelogHistoryPointV3)
    (row : AuthoritativeTransactionBindingV3) : Decidable (Continues lineage point row) :=
  inferInstanceAs (Decidable (_ ∧ _ ∧ _ ∧ _ ∧ _))

variable (history : ChangelogHistoryStateV3)

def checkBinding (row : AuthoritativeTransactionBindingV3) : Except ChangelogV3Error Unit :=
  require (Continues history.lineage history.tail row) .predecessorMismatch

def checkSuccessor (receipt : AuthoritativeTransactionV3) : Except ChangelogV3Error Unit := do
  validateReceiptCatalog receipt history.lineage.catalog
  checkBinding history receipt.binding

def successor (receipt : AuthoritativeTransactionV3) (historyHash : ByteArrayOf 32) :
    Except ChangelogV3Error ChangelogHistoryStateV3 :=
  ChangelogHistoryStateV3.new history.lineage history.anchor
    ⟨receipt.binding.sequence, historyHash, receipt.binding.coveredFrontier⟩ history.minimumResume

/-- The roots after one more receipt. -/
def advance (receipt : AuthoritativeTransactionV3) :
    Except ChangelogV3Error ChangelogHistoryStateV3 := do
  checkSuccessor history receipt
  successor history receipt receipt.historyHash

/-- The receipt may follow the point in the lineage's history. -/
structure Succeeds (lineage : ChangelogLineageV3) (point : ChangelogHistoryPointV3)
    (receipt : AuthoritativeTransactionV3) : Prop where
  continues : Continues lineage point receipt.binding
  catalogued : validateReceiptCatalog receipt lineage.catalog = .ok ()

variable {receipt : AuthoritativeTransactionV3} {history : ChangelogHistoryStateV3}

theorem checkSuccessor_eq_ok {result : Unit} :
    checkSuccessor history receipt = .ok result ↔
      Succeeds history.lineage history.tail receipt := by
  simp only [checkSuccessor, checkBinding, bind_eq_ok, require_eq_ok]
  exact ⟨fun ⟨⟨⟩, catalogued, continues⟩ => ⟨continues, catalogued⟩,
    fun succeeds => ⟨⟨⟩, succeeds.catalogued, succeeds.continues⟩⟩

theorem advance_eq_ok {history next : ChangelogHistoryStateV3} :
    advance history receipt = .ok next ↔
      Succeeds history.lineage history.tail receipt ∧ history.lineage = next.lineage ∧
        history.anchor = next.anchor ∧ fromReceipt receipt = next.tail ∧
        history.minimumResume = next.minimumResume := by
  simp only [advance, bind_eq_ok, checkSuccessor_eq_ok, successor,
    ChangelogHistoryStateV3.new_eq_ok, exists_const, fromReceipt]

/-- A list of receipts, each the successor of the point the previous one leads to. -/
def Linked (lineage : ChangelogLineageV3) :
    ChangelogHistoryPointV3 → List AuthoritativeTransactionV3 → Prop
  | _, [] => True
  | point, receipt :: rest =>
    Succeeds lineage point receipt ∧ Linked lineage (fromReceipt receipt) rest

/-- The point reached after a list of receipts. -/
def pointAfter (point : ChangelogHistoryPointV3) (receipts : List AuthoritativeTransactionV3) :
    ChangelogHistoryPointV3 := receipts.foldl (fun _ receipt => fromReceipt receipt) point

section

variable (point : ChangelogHistoryPointV3)

@[simp] theorem pointAfter_nil : pointAfter point [] = point := rfl

@[simp] theorem pointAfter_cons
    (receipt : AuthoritativeTransactionV3) (rest : List AuthoritativeTransactionV3) :
    pointAfter point (receipt :: rest) = pointAfter (fromReceipt receipt) rest := rfl

theorem pointAfter_append (before after : List AuthoritativeTransactionV3) :
    pointAfter point (before ++ after) = pointAfter (pointAfter point before) after :=
  List.foldl_append

end

variable {receipts : List AuthoritativeTransactionV3}

theorem pointAfter_getLast (nonempty : receipts ≠ []) (point : ChangelogHistoryPointV3) :
    pointAfter point receipts = fromReceipt (receipts.getLast nonempty) := by
  obtain ⟨front, final, rfl⟩ := List.eq_nil_or_concat receipts |>.resolve_left nonempty
  simp [pointAfter_append]

section Linked

variable {lineage : ChangelogLineageV3} {point : ChangelogHistoryPointV3}

theorem linked_append {before after : List AuthoritativeTransactionV3} :
    Linked lineage point (before ++ after) ↔
      Linked lineage point before ∧ Linked lineage (pointAfter point before) after := by
  induction before generalizing point with
  | nil => simp [Linked]
  | cons receipt before ih => simp [Linked, ih, and_assoc]

variable {receipt : AuthoritativeTransactionV3}

theorem Succeeds.next_sequence (succeeds : Succeeds lineage point receipt) :
    (fromReceipt receipt).sequence.get = point.sequence.get + 1 :=
  NonZeroU64.checkedNext_eq_some.mp (receipt.sequence_after succeeds.continues.2.2.1)

/-- Every receipt takes the next sequence. -/
theorem Linked.sequence (linked : Linked lineage point receipts) :
    (pointAfter point receipts).sequence.get = point.sequence.get + receipts.length := by
  induction receipts generalizing point with
  | nil => rfl
  | cons receipt rest ih =>
    have next := linked.1.next_sequence
    have tail := ih linked.2
    simp only [pointAfter_cons, List.length_cons]
    omega

/-- The point a receipt leads to comes after the point it succeeds. -/
theorem Succeeds.point_ordered (succeeds : Succeeds lineage point receipt) :
    point.precedesOrEquals (fromReceipt receipt) = true := by
  have next := succeeds.next_sequence
  have frontier := receipt.frontier_grows
  rw [succeeds.continues.2.2.2.1] at frontier
  have different : point.sequence ≠ (fromReceipt receipt).sequence := by
    intro same
    rw [← same] at next
    omega
  simp only [precedesOrEquals, different, if_false, Bool.and_eq_true,
    Bool.or_eq_true, decide_eq_true_eq]
  refine ⟨by omega, ?_⟩
  rcases frontier with unchanged | advances
  · exact Or.inl unchanged.symm
  · exact Or.inr advances

theorem Linked.point_ordered
    (linked : Linked lineage point receipts) :
      point.precedesOrEquals (pointAfter point receipts) = true := by
  induction receipts generalizing point with
  | nil => exact point.precedesOrEquals_refl
  | cons receipt rest ih =>
    exact precedesOrEquals_trans linked.1.point_ordered (ih linked.2)

/-- The roots advance over every successor of their tail. -/
theorem Succeeds.advances
    (succeeds : Succeeds history.lineage history.tail receipt) :
      ∃ next, advance history receipt = .ok next :=
  ⟨⟨history.lineage, history.anchor, fromReceipt receipt, history.minimumResume, history.anchored,
    precedesOrEquals_trans history.resumable succeeds.point_ordered⟩,
    advance_eq_ok.mpr ⟨succeeds, rfl, rfl, rfl, rfl⟩⟩

end Linked

/-- The history one lineage has published: a first retained point and the receipts after it. -/
structure PublishedChain (env : Hashing) where
  lineage : ChangelogLineageV3
  floor : ChangelogHistoryPointV3
  receipts : List AuthoritativeTransactionV3
  linked : Linked lineage floor receipts
  isSealed : ∀ receipt ∈ receipts, IsSealed env receipt

namespace PublishedChain

variable {env : Hashing}

/-- The point after the first receipts of the chain. -/
def pointAt (chain : PublishedChain env) (count : Nat) : ChangelogHistoryPointV3 :=
  pointAfter chain.floor (chain.receipts.take count)

theorem sequence_pointAt (chain : PublishedChain env) {count : Nat}
    (inside : count ≤ chain.receipts.length) :
    (chain.pointAt count).sequence.get = chain.floor.sequence.get + count := by
  have split := chain.linked
  rw [← List.take_append_drop count chain.receipts, linked_append] at split
  rw [pointAt, split.1.sequence, List.length_take, Nat.min_eq_left inside]

/-- A sequence names at most one place of a chain. -/
theorem pointAt_injective (chain : PublishedChain env) {left right : Nat}
    (leftInside : left ≤ chain.receipts.length) (rightInside : right ≤ chain.receipts.length)
    (same : (chain.pointAt left).sequence = (chain.pointAt right).sequence) : left = right := by
  have leftSequence := chain.sequence_pointAt leftInside
  have rightSequence := chain.sequence_pointAt rightInside
  rw [same] at leftSequence
  omega

end PublishedChain

end ChangelogChain
