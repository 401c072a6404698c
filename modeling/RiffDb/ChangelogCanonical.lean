import RiffDb.ChangelogFrame

/-!
# The changelog codecs are canonical

Receipts and frames have one encoding each: whatever the decoder accepts is, byte for byte, what the
encoder writes for the decoded value, and whatever the checked constructors form is read back.
Nothing is assumed about the hash function.
-/

namespace ChangelogCanonical

open ByteWire ChangelogHistory ChangelogReceipt ReceiptCodec ChangelogFrame List

section Receipts

variable {receipt : AuthoritativeTransactionV3} {env : Hashing}

/-- Receipts as the two public constructors form them. -/
def Formed (env : Hashing) (receipt : AuthoritativeTransactionV3) : Prop :=
  (∃ binding attribution mutations,
    ReceiptCodec.new env binding attribution mutations = .ok receipt) ∨
  (∃ bytes, ReceiptCodec.decode env bytes = .ok receipt)

theorem Formed.isSealed (formed : Formed env receipt) : IsSealed env receipt := by
  rcases formed with ⟨_, _, _, created⟩ | ⟨_, decoded⟩
  · exact new_isSealed created
  · exact (ReceiptCodec.decode_eq_ok.mp decoded).1

end Receipts

section Frames

variable {env : Hashing}

open ChangelogFrameV3

variable {binding : ChangelogFrameBindingV3}

/-- The edge the emitting side has compared before it forms a frame. -/
def Continues (previous row : AuthoritativeTransactionV3) : Prop :=
  row.binding.priorHistoryHash = previous.historyHash

/-- A frame the emitting side forms from receipts it has compared is one the checked
constructor accepts too. -/
theorem new_of_fromCheckedStream {receipts : List AuthoritativeTransactionV3}
    {frame : ChangelogFrameV3} (accepted : fromCheckedStream binding receipts = .ok frame)
    (chained : receipts.IsChain Continues) : ChangelogFrameV3.new binding receipts = .ok frame := by
  obtain ⟨checked, sameBinding, sameReceipts⟩ := build_eq_ok.mp accepted
  obtain ⟨nonempty, few, ⟨result, folded⟩, fits⟩ := checkReceipts_eq_ok.mp checked
  have strong : receipts.foldlM (checkReceipt true binding) (0, none) = .ok result :=
    foldlM_compared folded
    (by simp) (chained.imp fun _ _ continues follows =>
      ⟨follows.1, follows.2.1, fun _ => continues⟩)
  exact build_eq_ok.mpr
    ⟨checkReceipts_eq_ok.mpr ⟨nonempty, few, ⟨result, strong⟩, fits⟩, sameBinding, sameReceipts⟩

/-- Frames as the encoding names them. -/
def encodeFrame (env : Hashing) (frame : ChangelogFrameV3) : Except ChangelogV3Error Bytes :=
  (encodeWithDigests env frame).map Encoded.bytes

theorem encodeFrame_eq (frame : ChangelogFrameV3) :
    encodeFrame env frame = .ok (frameBytes env frame) := by
  rw [encodeFrame, encodeWithDigests_eq]
  rfl

end Frames

/-- Receipts formed by their constructors and frames of such receipts are read back from their
encodings, and every accepted byte string is the encoding of what it decodes to. The emitting
side leaves out one comparison that its stream has made; with it the same holds. -/
theorem changelog_codecs_canonical (env : Hashing) : (∀ receipt, Formed env receipt → ∃ bytes,
      ReceiptCodec.encode receipt = .ok bytes ∧ ReceiptCodec.decode env bytes = .ok receipt) ∧
    (∀ bytes receipt, ReceiptCodec.decode env bytes = .ok receipt →
      ReceiptCodec.encode receipt = .ok bytes) ∧
    (∀ binding receipts frame, (∀ receipt ∈ receipts, Formed env receipt) →
      ChangelogFrameV3.new binding receipts = .ok frame → ∃ bytes,
        encodeFrame env frame = .ok bytes ∧ ChangelogFrameV3.decode env bytes = .ok frame) ∧
    (∀ binding receipts frame, (∀ receipt ∈ receipts, Formed env receipt) →
      receipts.IsChain Continues →
      ChangelogFrameV3.fromCheckedStream binding receipts = .ok frame → ∃ bytes,
        encodeFrame env frame = .ok bytes ∧ ChangelogFrameV3.decode env bytes = .ok frame) ∧
    (∀ bytes frame, ChangelogFrameV3.decode env bytes = .ok frame →
      encodeFrame env frame = .ok bytes) := by
  have readsBack : ∀ binding receipts frame, (∀ receipt ∈ receipts, Formed env receipt) →
      ChangelogFrameV3.new binding receipts = .ok frame → ∃ bytes,
        encodeFrame env frame = .ok bytes ∧ ChangelogFrameV3.decode env bytes = .ok frame := by
    intro binding receipts frame formed accepted
    obtain ⟨chained, rfl, rfl⟩ := ChangelogFrameV3.build_eq_ok.mp accepted
    exact ⟨_, encodeFrame_eq frame, ChangelogFrameV3.decode_eq_ok.mpr
      ⟨fun receipt member => (formed receipt member).isSealed, chained, rfl⟩⟩
  refine ⟨?_, ?_, readsBack, ?_, ?_⟩
  · intro receipt formed
    exact ⟨_, encode_eq receipt, ReceiptCodec.decode_eq_ok.mpr ⟨formed.isSealed, rfl⟩⟩
  · intro bytes receipt decoded
    rw [encode_eq, ← (ReceiptCodec.decode_eq_ok.mp decoded).2]
  · intro binding receipts frame formed chained accepted
    exact readsBack binding receipts frame formed (new_of_fromCheckedStream accepted chained)
  · intro bytes frame decoded
    rw [encodeFrame_eq, ← (ChangelogFrameV3.decode_eq_ok.mp decoded).2.2]

end ChangelogCanonical
