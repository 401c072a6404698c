import RiffDb.ReceiptCodec

/-!
# Changelog frames

A frame is a bounded nonempty group of receipts under one binding. Its header names the endpoints
and counts the receipts of every source; its footer repeats the length and closes the body with a
checksum. The emitting side skips the comparison of history hashes between neighbours, the decoding
side makes it.

The catalog digest of the binding chooses the width of the counter table.
-/

namespace ChangelogFrame

open ByteWire ByteReader CheckedCode ReplicationTypes ChangelogHistory AuthorityCatalog
  ChangelogReceipt ReceiptCodec ChangelogV3Error List

/-- The letters `RDBCLF03`. -/
def frameMagic : Bytes := [0x52, 0x44, 0x42, 0x43, 0x4C, 0x46, 0x30, 0x33]

/-- The letters `RDBCLE03`. -/
def footerMagic : Bytes := [0x52, 0x44, 0x42, 0x43, 0x4C, 0x45, 0x30, 0x33]

/-- Source counters in the header of each catalog. -/
def sourceCount : AuthoritativeStateCatalog → Nat
  | .v1 => originalSourceCount
  | .v2 => 34
  | .v3 => 35

variable (env : Hashing) (catalog : AuthoritativeStateCatalog)

/-- The accepted catalog with the given digest. -/
def catalogByDigest (digest : ByteArrayOf 32) : Option AuthoritativeStateCatalog :=
  if digest = env.catalogDigest .v1 then some .v1
  else if digest = env.catalogDigest .v2 then some .v2
  else if digest = env.catalogDigest .v3 then some .v3
  else none

/-- A receipt needs a counter for its source and room in a frame of its own. -/
def validateReceiptShape (attribution : ChangelogAttributionV3) (bytes : Nat)
    (catalog : AuthoritativeStateCatalog) : Except ChangelogV3Error Unit := do
  require (attribution.tag ≤ sourceCount catalog) .invalidEncoding
  require (bytes ≤ maxChangelogFrameBytes - fixedBytes (sourceCount catalog) - 4) .limitExceeded

/-- A new namespace cannot enter an old catalog under an existing attribution. -/
def validateNamespaceCatalog (domain : AuthoritativeNamespaceV3) : Except ChangelogV3Error Unit :=
  require (byTag catalog domain.tag = some domain) .invalidNamespace

def validateReceiptCatalog (receipt : AuthoritativeTransactionV3)
    (catalog : AuthoritativeStateCatalog) : Except ChangelogV3Error Unit := do
  validateReceiptShape receipt.attribution receipt.encodedLen catalog
  receipt.mutations.forM fun mutation => validateNamespaceCatalog catalog mutation.domain

/-- The first half of the catalog check, made once more from the cached counter width. -/
def validateReceiptCount (receipt : AuthoritativeTransactionV3) (count : Nat) :
    Except ChangelogV3Error Unit := do
  require (receipt.attribution.tag ≤ count) .invalidEncoding
  require (receipt.encodedLen ≤ maxChangelogFrameBytes - fixedBytes count - 4) .limitExceeded

/-- Checked lineage, leadership, catalog and prior-frame binding. -/
@[ext] structure ChangelogFrameBindingV3 where
  databaseId : DatabaseId
  historyIncarnation : NonZeroU64
  leadershipEpoch : LeadershipEpochV1
  catalog : AuthoritativeStateCatalog
  priorFrameHash : ByteArrayOf 32
deriving DecidableEq

namespace ChangelogFrameBindingV3

def new (databaseId : DatabaseId) (historyIncarnation leadershipEpoch : Nat)
    (catalogDigest priorFrameHash : ByteArrayOf 32) :
    Except ChangelogV3Error ChangelogFrameBindingV3 := do
  let epoch ← okOr (NonZeroU64.new leadershipEpoch) .invalidEncoding
  let catalog ← okOr (catalogByDigest env catalogDigest) .invalidEncoding
  let incarnation ← okOr (NonZeroU64.new historyIncarnation) .invalidEncoding
  .ok ⟨databaseId, incarnation, epoch, catalog, priorFrameHash⟩

def fixedFrameBytes (binding : ChangelogFrameBindingV3) :
    Nat := fixedBytes (sourceCount binding.catalog)

end ChangelogFrameBindingV3

namespace ChangelogFrameV3

/-- Total frame bytes including header and footer. -/
def frameLen (binding : ChangelogFrameBindingV3)
    (receipts : List AuthoritativeTransactionV3) : Nat :=
  receipts.foldl (fun bytes row => bytes + 4 + row.encodedLen) binding.fixedFrameBytes

/-- Neighbouring receipts; the history hash is compared only on request. -/
def Follows (rehashEdges : Bool) (previous row : AuthoritativeTransactionV3) : Prop :=
  row.binding.predecessor = some previous.binding.sequence ∧
    row.binding.predecessorFrontier = previous.binding.coveredFrontier ∧
    (rehashEdges = true → row.binding.priorHistoryHash = previous.historyHash)

instance (rehashEdges : Bool) : DecidableRel (Follows rehashEdges) :=
  fun _ _ => inferInstanceAs (Decidable (_ ∧ _ ∧ _))

/-- One pass of the loop over the receipts: the transitions so far and the receipt before. -/
def checkReceipt (rehashEdges : Bool) (binding : ChangelogFrameBindingV3)
    (seen : Nat × Option AuthoritativeTransactionV3) (receipt : AuthoritativeTransactionV3) :
    Except ChangelogV3Error (Nat × Option AuthoritativeTransactionV3) := do
  validateReceiptCount receipt (sourceCount binding.catalog)
  validateReceiptCatalog receipt binding.catalog
  require (receipt.binding.databaseId = binding.databaseId ∧
    receipt.binding.historyIncarnation.toNat = binding.historyIncarnation.get) .predecessorMismatch
  let transitions := seen.1 + receipt.transitionCount
  require (transitions ≤ maxStagedCommands) .limitExceeded
  require (∀ previous ∈ seen.2, Follows rehashEdges previous receipt) .predecessorMismatch
  .ok (transitions, some receipt)

def checkReceipts (rehashEdges : Bool) (binding : ChangelogFrameBindingV3)
    (receipts : List AuthoritativeTransactionV3) : Except ChangelogV3Error Unit := do
  require (receipts ≠ []) .invalidEncoding
  require (receipts.length ≤ maxStagedCommands) .limitExceeded
  let _ ← receipts.foldlM (checkReceipt rehashEdges binding) (0, none)
  require (frameLen binding receipts ≤ maxChangelogFrameBytes) .limitExceeded

end ChangelogFrameV3

/-- Bounded nonempty group of complete receipts. -/
@[ext] structure ChangelogFrameV3 where
  binding : ChangelogFrameBindingV3
  receipts : List AuthoritativeTransactionV3
  checked : ChangelogFrameV3.checkReceipts false binding receipts = .ok ()

namespace ChangelogFrameV3

variable {receipts : List AuthoritativeTransactionV3} {binding : ChangelogFrameBindingV3}
  {rehashEdges : Bool}

theorem checkReceipts_eq_ok : checkReceipts rehashEdges binding receipts = .ok () ↔
      receipts ≠ [] ∧ receipts.length ≤ maxStagedCommands ∧
      (∃ result, receipts.foldlM (checkReceipt rehashEdges binding) (0, none) = .ok result) ∧
      frameLen binding receipts ≤ maxChangelogFrameBytes := by
  simp only [checkReceipts, bind_eq_ok, require_eq_ok, exists_and_left, exists_const,
    exists_and_right]

variable {receipt : AuthoritativeTransactionV3}

theorem checkReceipt_eq_ok {seen next : Nat × Option AuthoritativeTransactionV3} :
    checkReceipt rehashEdges binding seen receipt = .ok next ↔
      validateReceiptCount receipt (sourceCount binding.catalog) = .ok () ∧
      validateReceiptCatalog receipt binding.catalog = .ok () ∧
      (receipt.binding.databaseId = binding.databaseId ∧
        receipt.binding.historyIncarnation.toNat = binding.historyIncarnation.get) ∧
      seen.1 + receipt.transitionCount ≤ maxStagedCommands ∧
      (∀ previous ∈ seen.2, Follows rehashEdges previous receipt) ∧
      next = (seen.1 + receipt.transitionCount, some receipt) := by
  simp only [checkReceipt, bind_eq_ok, require_eq_ok, exists_and_left, exists_const,
    Except.ok.injEq]
  constructor
  · rintro ⟨⟨⟩, counted, ⟨⟩, catalogued, lineage, limited, edges, formed⟩
    exact ⟨counted, catalogued, lineage, limited, edges, formed.symm⟩
  · rintro ⟨counted, catalogued, lineage, limited, edges, formed⟩
    exact ⟨⟨⟩, counted, ⟨⟩, catalogued, lineage, limited, edges, formed.symm⟩

variable {seen result : Nat × Option AuthoritativeTransactionV3}

/-- Neighbours may be compared in another way where that accepts them too. -/
theorem foldlM_compared {others : Bool}
    (folded : receipts.foldlM (checkReceipt rehashEdges binding) seen = .ok result)
    (entering : ∀ previous ∈ seen.2, ∀ row ∈ receipts.head?,
      Follows rehashEdges previous row → Follows others previous row)
    (chained : receipts.IsChain fun previous row => Follows rehashEdges previous row →
      Follows others previous row) :
    receipts.foldlM (checkReceipt others binding) seen = .ok result := by
  induction receipts generalizing seen with
  | nil => exact folded
  | cons receipt receipts ih =>
    rw [foldlM_cons, bind_eq_ok] at folded ⊢
    obtain ⟨next, checked, folded⟩ := folded
    obtain ⟨counted, catalogued, lineage, limited, edges, formed⟩ := checkReceipt_eq_ok.mp checked
    refine ⟨next, checkReceipt_eq_ok.mpr ⟨counted, catalogued, lineage, limited, ?_, formed⟩, ?_⟩
    · exact fun previous member => entering previous member receipt rfl (edges previous member)
    · apply ih folded
      · rw [formed]
        intro previous member row isNext
        cases member
        exact IsChain.rel_head? chained isNext
      · exact chained.tail

theorem checkReceipts_weaken (checked : checkReceipts rehashEdges binding receipts = .ok ()) :
    checkReceipts false binding receipts = .ok () := by
  cases rehashEdges with
  | false => exact checked
  | true =>
    obtain ⟨nonempty, few, ⟨result, folded⟩, fits⟩ := checkReceipts_eq_ok.mp checked
    have weaker : ∀ previous row, Follows true previous row → Follows false previous row :=
      fun _ _ follows => ⟨follows.1, follows.2.1, nofun⟩
    have folded := foldlM_compared folded (by simp) (pairwise_of_forall weaker).isChain
    exact checkReceipts_eq_ok.mpr ⟨nonempty, few, ⟨result, folded⟩, fits⟩

def build (rehashEdges : Bool) (binding : ChangelogFrameBindingV3)
    (receipts : List AuthoritativeTransactionV3) : Except ChangelogV3Error ChangelogFrameV3 :=
  match checked : checkReceipts rehashEdges binding receipts with
  | .ok () => .ok ⟨binding, receipts, checkReceipts_weaken checked⟩
  | .error reason => .error reason

def new (binding : ChangelogFrameBindingV3) (receipts : List AuthoritativeTransactionV3) :
    Except ChangelogV3Error ChangelogFrameV3 := build true binding receipts

def fromCheckedStream (binding : ChangelogFrameBindingV3)
    (receipts : List AuthoritativeTransactionV3) : Except ChangelogV3Error ChangelogFrameV3 :=
  build false binding receipts

theorem build_eq_ok {frame : ChangelogFrameV3} : build rehashEdges binding receipts = .ok frame ↔
      checkReceipts rehashEdges binding receipts = .ok () ∧ frame.binding = binding ∧
        frame.receipts = receipts := by
  unfold build
  split
  · rename_i checked
    constructor
    · rintro ⟨⟩
      exact ⟨checked, rfl, rfl⟩
    · rintro ⟨_, sameBinding, sameReceipts⟩
      exact congrArg Except.ok (ChangelogFrameV3.ext sameBinding.symm sameReceipts.symm)
  · rename_i reason refused
    constructor
    · intro impossible; cases impossible
    · rintro ⟨checked, _⟩
      rw [refused] at checked
      cases checked

/-- Receipts of every source, in tag order. -/
def sourceCounts (receipts : List AuthoritativeTransactionV3) : List Nat :=
  receipts.foldl (fun counts receipt => counts.modify (receipt.attribution.tag - 1) (· + 1))
    (List.replicate 35 0)

def writeReceipt (receipt : AuthoritativeTransactionV3) : Except ChangelogV3Error Bytes := do
  let length ← u32Bytes receipt.encodedLen
  let bytes ← encode receipt
  .ok (length ++ bytes)

/-- The encoded frame, its checksum, and the digest of the whole. -/
structure Encoded where
  bytes : Bytes
  checksum : ByteArrayOf 32
  fileDigest : ByteArrayOf 32

def encodeWithDigests (frame : ChangelogFrameV3) : Except ChangelogV3Error Encoded := do
  let total := frameLen frame.binding frame.receipts
  let first ← okOr frame.receipts.head? .invalidEncoding
  let last ← okOr frame.receipts.getLast? .invalidEncoding
  let count ← u32Bytes frame.receipts.length
  let payloadLen ← u32Bytes (total - frame.binding.fixedFrameBytes)
  let rows ← frame.receipts.mapM writeReceipt
  let counters := (sourceCounts frame.receipts).take (sourceCount frame.binding.catalog)
  let body := frameMagic ++ (beBytes 2 3 ++ (frame.binding.databaseId.intoBytes.toList ++
    (frame.binding.historyIncarnation.toBeBytes ++ (frame.binding.leadershipEpoch.toBeBytes ++
    ((env.catalogDigest frame.binding.catalog).toList ++
    (beBytes 8 (sequenceValue first.binding.predecessor) ++ (last.binding.sequence.toBeBytes ++
    (first.binding.predecessorFrontier.canonicalArray.toList ++
    (last.binding.coveredFrontier.canonicalArray.toList ++
    (frame.binding.priorFrameHash.toList ++ (count ++ (payloadLen ++
    (counters.flatMap (beBytes 4) ++ rows.flatten)))))))))))))
  let checksum := env.sha256 body
  let bytes := body ++ (footerMagic ++ (beBytes 8 total ++ checksum.toList))
  .ok ⟨bytes, checksum, env.sha256 bytes⟩

/-- The fixed fields of the frame header. -/
structure FrameHeader where
  binding : ChangelogFrameBindingV3
  predecessor : Nat
  covered : Nat
  predecessorFrontier : DualFrontier
  coveredFrontier : DualFrontier
  count : Nat
  payloadLen : Nat

def readFrameHeader : Reader ChangelogV3Error FrameHeader := do
  let letters ← take .invalidEncoding 8
  let version ← word .invalidEncoding 2
  let _ ← check (require (letters = frameMagic ∧ version = 3) .invalidEncoding : Except _ Unit)
  let databaseBytes ← array .invalidEncoding 16
  let databaseId ← check (invalid (UuidV7.fromBytes databaseBytes))
  let incarnation ← word .invalidEncoding 8
  let epoch ← word .invalidEncoding 8
  let catalog ← array .invalidEncoding 32
  let predecessor ← word .invalidEncoding 8
  let covered ← word .invalidEncoding 8
  let predecessorBytes ← array .invalidEncoding 18
  let predecessorFrontier ← check (invalid (DualFrontier.fromCanonicalBytes predecessorBytes))
  let coveredBytes ← array .invalidEncoding 18
  let coveredFrontier ← check (invalid (DualFrontier.fromCanonicalBytes coveredBytes))
  let priorFrameHash ← array .invalidEncoding 32
  let binding ← check
    (ChangelogFrameBindingV3.new env databaseId incarnation epoch catalog priorFrameHash)
  let count ← word .invalidEncoding 4
  let payloadLen ← word .invalidEncoding 4
  pure ⟨binding, predecessor, covered, predecessorFrontier, coveredFrontier, count, payloadLen⟩

def readReceipt : Reader ChangelogV3Error AuthoritativeTransactionV3 := do
  let length ← word .invalidEncoding 4
  let bytes ← take .invalidEncoding length
  check (ReceiptCodec.decode env bytes)

/-- The footer closes exactly these bytes. -/
def checkFooter (bytes : Bytes) : Except ChangelogV3Error Unit := do
  require (bytes.length ≤ maxChangelogFrameBytes) .limitExceeded
  require (fixedBytes originalSourceCount ≤ bytes.length) .invalidEncoding
  let stop := bytes.length - footerBytes
  let ((letters, length, checksum), _) ← (do
    let letters ← take .invalidEncoding 8
    let length ← word .invalidEncoding 8
    let checksum ← take .invalidEncoding 32
    pure (letters, length, checksum) : Reader ChangelogV3Error (Bytes × Nat × Bytes))
      (bytes.drop stop)
  require (letters = footerMagic ∧ length = bytes.length ∧
    checksum = (env.sha256 (bytes.take stop)).toList) .invalidEncoding

def decode (bytes : Bytes) : Except ChangelogV3Error ChangelogFrameV3 := do
  checkFooter env bytes
  let (header, afterHeader) ← readFrameHeader env (bytes.take (bytes.length - footerBytes))
  require (header.count ≤ maxStagedCommands) .limitExceeded
  let width := sourceCount header.binding.catalog
  let (listed, remaining) ← repeated (word .invalidEncoding 4) width afterHeader
  require (header.count ≠ 0 ∧ header.payloadLen = remaining.length ∧
    header.count ≤ header.payloadLen / 164) .invalidEncoding
  let (receipts, left) ← repeated (readReceipt env) header.count remaining
  require (left = []) .invalidEncoding
  let frame ← new header.binding receipts
  let first ← okOr frame.receipts.head? .invalidEncoding
  let last ← okOr frame.receipts.getLast? .invalidEncoding
  require (header.predecessor = sequenceValue first.binding.predecessor ∧
    header.covered = last.binding.sequence.get ∧
    header.predecessorFrontier = first.binding.predecessorFrontier ∧
    header.coveredFrontier = last.binding.coveredFrontier ∧
    listed ++ List.replicate (35 - width) 0 = sourceCounts frame.receipts) .invalidEncoding
  .ok frame

theorem frameLen_eq (binding : ChangelogFrameBindingV3)
    (receipts : List AuthoritativeTransactionV3) :
    frameLen binding receipts = binding.fixedFrameBytes +
      (receipts.map fun receipt => 4 + receipt.encodedLen).sum := by
  unfold frameLen
  generalize binding.fixedFrameBytes = start
  induction receipts generalizing start with
  | nil => simp
  | cons receipt receipts ih =>
    rw [foldl_cons, ih, map_cons, sum_cons]
    omega

variable (frame : ChangelogFrameV3)

theorem nonempty : frame.receipts ≠ [] := (checkReceipts_eq_ok.mp frame.checked).1

theorem length_le : frame.receipts.length ≤ maxStagedCommands :=
  (checkReceipts_eq_ok.mp frame.checked).2.1

theorem frameLen_le : frameLen frame.binding frame.receipts ≤ maxChangelogFrameBytes :=
  (checkReceipts_eq_ok.mp frame.checked).2.2.2

section

variable (receipts : List AuthoritativeTransactionV3)

/-- The counter of a slot is the number of receipts whose source has that slot. -/
theorem getElem?_sourceCounts (counts : List Nat) (slot : Nat) :
    (receipts.foldl (fun counts receipt => counts.modify (receipt.attribution.tag - 1) (· + 1))
      counts)[slot]? =
      counts[slot]?.map
        (· + receipts.countP fun receipt => receipt.attribution.tag - 1 = slot) := by
  induction receipts generalizing counts with
  | nil => simp
  | cons receipt receipts ih =>
    rw [foldl_cons, ih, getElem?_modify, countP_cons]
    by_cases same : receipt.attribution.tag - 1 = slot
    · simp [same, Function.comp_def, Nat.add_assoc, Nat.add_comm 1]
    · simp [same]

theorem sourceCounts_slot (slot : Nat) : (sourceCounts receipts)[slot]? = if slot < 35 then
      some (receipts.countP fun receipt => receipt.attribution.tag - 1 = slot) else none := by
  rw [sourceCounts, getElem?_sourceCounts, getElem?_replicate]
  by_cases inside : slot < 35 <;> simp [inside]

@[simp] theorem length_sourceCounts : (sourceCounts receipts).length = 35 := by
  have past := sourceCounts_slot receipts 35
  have last := sourceCounts_slot receipts 34
  simp only [Nat.lt_irrefl, if_false, getElem?_eq_none_iff] at past
  have inside : 34 < (sourceCounts receipts).length := by
    by_contra outside
    rw [getElem?_eq_none (by omega)] at last
    simp at last
  omega

end

/-- Slots beyond the table of the frame's catalog stay zero. -/
theorem sourceCounts_padded {width : Nat}
    (narrow : width ≤ 35) (inside : ∀ receipt ∈ receipts, receipt.attribution.tag ≤ width) :
    (sourceCounts receipts).take width ++ replicate (35 - width) 0 = sourceCounts receipts := by
  have zero : (sourceCounts receipts).drop width = replicate (35 - width) 0 := by
    apply ext_getElem?
    intro slot
    rw [getElem?_drop, sourceCounts_slot, getElem?_replicate]
    by_cases within : slot < 35 - width
    · rw [if_pos (by omega), if_pos within, Option.some.injEq, countP_eq_zero]
      intro receipt member
      have bounded := inside receipt member
      have positive := receipt.attribution.tag_pos
      simp only [decide_eq_true_eq]
      omega
    · rw [if_neg (by omega), if_neg within]
  rw [← zero, take_append_drop]

theorem sourceCounts_lt
    (few : receipts.length ≤ maxStagedCommands) :
      ∀ count ∈ sourceCounts receipts, count < 256 ^ 4 := by
  intro count member
  obtain ⟨slot, found⟩ := mem_iff_getElem?.mp member
  rw [sourceCounts_slot] at found
  split at found
  · cases found
    exact (countP_le_length.trans few).trans_lt (by decide)
  · cases found

/-- What the checks say about every receipt of an accepted list. -/
theorem admitted (folded : receipts.foldlM (checkReceipt rehashEdges binding) seen = .ok result) :
    ∀ receipt ∈ receipts, validateReceiptCount receipt (sourceCount binding.catalog) = .ok () := by
  induction receipts generalizing seen with
  | nil => simp
  | cons receipt receipts ih =>
    rw [foldlM_cons, bind_eq_ok] at folded
    obtain ⟨next, checked, folded⟩ := folded
    intro other member
    rcases mem_cons.mp member with rfl | later
    · exact (checkReceipt_eq_ok.mp checked).1
    · exact ih folded other later

theorem tag_le_sourceCount :
    ∀ receipt ∈ frame.receipts, receipt.attribution.tag ≤ sourceCount frame.binding.catalog := by
  obtain ⟨_, _, ⟨_, folded⟩, _⟩ := checkReceipts_eq_ok.mp frame.checked
  intro receipt member
  have counted := admitted folded receipt member
  simp only [validateReceiptCount, bind_eq_ok, require_eq_ok, exists_and_left,
    exists_const] at counted
  exact counted.1

theorem sourceCount_le : sourceCount catalog ≤ 35 := by
  cases catalog <;> decide

theorem sourceCount_ge : originalSourceCount ≤ sourceCount catalog := by
  cases catalog <;> decide

theorem catalogByDigest_self : catalogByDigest env (env.catalogDigest catalog) = some catalog := by
  unfold catalogByDigest
  simp only [env.distinct.eq_iff]
  cases catalog <;> rfl

theorem catalogByDigest_eq_some {env : Hashing} {digest : ByteArrayOf 32}
    {catalog : AuthoritativeStateCatalog} :
    catalogByDigest env digest = some catalog ↔ env.catalogDigest catalog = digest := by
  constructor
  · intro found
    unfold catalogByDigest at found
    split at found
    · next same => cases found; exact same.symm
    · split at found
      · next same => cases found; exact same.symm
      · split at found
        · next same => cases found; exact same.symm
        · cases found
  · rintro rfl
    exact catalogByDigest_self env catalog

theorem bindingNew_eq_ok {env : Hashing} {databaseId : DatabaseId}
    {historyIncarnation leadershipEpoch : Nat}
    {catalogDigest priorFrameHash : ByteArrayOf 32} {binding : ChangelogFrameBindingV3} :
    ChangelogFrameBindingV3.new env databaseId historyIncarnation leadershipEpoch
        catalogDigest priorFrameHash = .ok binding ↔
      binding.databaseId = databaseId ∧ binding.historyIncarnation.get = historyIncarnation ∧
      binding.leadershipEpoch.get = leadershipEpoch ∧ env.catalogDigest binding.catalog =
        catalogDigest ∧ binding.priorFrameHash = priorFrameHash := by
  simp only [ChangelogFrameBindingV3.new, bind_eq_ok, okOr_eq_ok, Except.ok.injEq,
    NonZeroU64.new_eq_some, catalogByDigest_eq_some]
  constructor
  · rintro ⟨epoch, rfl, catalog, rfl, incarnation, rfl, rfl⟩
    exact ⟨rfl, rfl, rfl, rfl, rfl⟩
  · rintro ⟨rfl, rfl, rfl, rfl, rfl⟩
    exact ⟨_, rfl, _, rfl, _, rfl, rfl⟩

/-- The bytes of a decoded frame header. -/
def frameHeaderBytesOf (header : FrameHeader) : Bytes :=
  frameMagic ++ (beBytes 2 3 ++ (header.binding.databaseId.intoBytes.toList ++
    (header.binding.historyIncarnation.toBeBytes ++ (header.binding.leadershipEpoch.toBeBytes ++
    ((env.catalogDigest header.binding.catalog).toList ++ (beBytes 8 header.predecessor ++
    (beBytes 8 header.covered ++ (header.predecessorFrontier.canonicalArray.toList ++
    (header.coveredFrontier.canonicalArray.toList ++ (header.binding.priorFrameHash.toList ++
    (beBytes 4 header.count ++ beBytes 4 header.payloadLen)))))))))))

/-- A frame header is accepted from its own bytes and from no others. -/
theorem readFrameHeader_exact : Exact (readFrameHeader env)
    (fun header => header.predecessor < 2 ^ 64 ∧ header.covered < 2 ^ 64 ∧ header.count < 2 ^ 32 ∧
      header.payloadLen < 2 ^ 32) (frameHeaderBytesOf env) := by
  intro input header rest
  simp only [readFrameHeader, read_bind_eq_ok, take_eq_ok, word_eq_ok, array_eq_ok, check_eq_ok,
    require_eq_ok, read_pure_eq_ok, invalid, mapError_eq_ok, UuidV7.fromBytes_eq_ok,
    DualFrontier.fromCanonicalBytes_eq_ok, bindingNew_eq_ok]
  constructor
  · rintro ⟨letters, _, ⟨_, rfl⟩, version, _, ⟨_, rfl⟩, _, _, ⟨⟨rfl, rfl⟩, rfl⟩,
      databaseBytes, _, rfl, databaseId, _, ⟨rfl, rfl⟩, read⟩
    obtain ⟨incarnation, _, ⟨_, rfl⟩, epoch, _, ⟨_, rfl⟩, catalog, _, rfl, predecessor, _,
      ⟨predecessorFits, rfl⟩, covered, _, ⟨coveredFits, rfl⟩, read⟩ := read
    obtain ⟨predecessorBytes, _, rfl, predecessorFrontier, _, ⟨rfl, rfl⟩, coveredBytes, _, rfl,
      coveredFrontier, _, ⟨rfl, rfl⟩, priorFrameHash, _, rfl, read⟩ := read
    obtain ⟨binding, _, ⟨⟨rfl, rfl, rfl, rfl, rfl⟩, rfl⟩, count, _, ⟨countFits, rfl⟩, payloadLen, _,
      ⟨payloadFits, rfl⟩, rfl, rfl⟩ := read
    refine ⟨⟨predecessorFits, coveredFits, countFits, payloadFits⟩, ?_⟩
    simp only [frameHeaderBytesOf, NonZeroU64.toBeBytes, append_assoc]
  · rintro ⟨⟨predecessorFits, coveredFits, countFits, payloadFits⟩, rfl⟩
    obtain ⟨binding, predecessor, covered, predecessorFrontier, coveredFrontier, count,
      payloadLen⟩ := header
    have wordFits : ∀ value : NonZeroU64, value.get < 256 ^ 8 := fun value => by
      simpa using value.fits
    simp only [frameHeaderBytesOf, append_assoc]
    exact ⟨frameMagic, _, ⟨rfl, rfl⟩, 3, _, ⟨by decide, rfl⟩, ⟨⟩, _, ⟨⟨rfl, rfl⟩, rfl⟩,
      _, _, rfl, _, _, ⟨rfl, rfl⟩, _, _, ⟨wordFits binding.historyIncarnation, rfl⟩, _, _,
      ⟨wordFits binding.leadershipEpoch, rfl⟩, _, _, rfl, _, _, ⟨predecessorFits, rfl⟩, _, _,
      ⟨coveredFits, rfl⟩, _, _, rfl, _, _, ⟨rfl, rfl⟩, _, _, rfl, _, _, ⟨rfl, rfl⟩, _, _, rfl, _, _,
      ⟨⟨rfl, rfl, rfl, rfl, rfl⟩, rfl⟩, _, _, ⟨countFits, rfl⟩, _, _, ⟨payloadFits, rfl⟩, rfl, rfl⟩

/-- The footer names the length and the checksum of the bytes before it. -/
theorem checkFooter_eq_ok {env : Hashing} {bytes : Bytes} {result : Unit} :
    checkFooter env bytes = .ok result ↔
    bytes.length ≤ maxChangelogFrameBytes ∧ fixedBytes originalSourceCount ≤ bytes.length ∧
      bytes.drop (bytes.length - footerBytes) = footerMagic ++ (beBytes 8 bytes.length ++
        (env.sha256 (bytes.take (bytes.length - footerBytes))).toList) := by
  simp only [checkFooter, bind_eq_ok, require_eq_ok, Prod.exists, read_bind_eq_ok, take_eq_ok,
    word_eq_ok, read_pure_eq_ok, Prod.mk.injEq, exists_and_left, exists_const]
  refine and_congr_right fun upper => and_congr_right fun lower => ?_
  constructor
  · rintro ⟨_, _, _, _, ⟨_, _, ⟨_, whole⟩, _, _, ⟨_, rfl⟩, _, beyond, ⟨sized, rfl⟩,
      ⟨rfl, rfl, rfl⟩, _⟩, rfl, rfl, rfl⟩
    have letters : footerMagic.length = 8 := by decide
    have total := congrArg List.length whole
    simp only [length_drop, length_append, letters, length_beBytes, sized] at total
    have nothing : beyond = [] := by
      simp only [fixedBytes, footerBytes] at lower total
      exact eq_nil_of_length_eq_zero (by omega)
    rw [whole, nothing, append_nil]
  · intro footer
    have lengthFits : bytes.length < 256 ^ 8 := upper.trans_lt (by decide)
    exact ⟨_, _, _, [], ⟨footerMagic, _, ⟨rfl, footer⟩, bytes.length, _, ⟨lengthFits, rfl⟩, _, [],
      ⟨Vector.toList_length _, (append_nil _).symm⟩, ⟨rfl, rfl, rfl⟩, rfl⟩, rfl, rfl, rfl⟩

/-- A receipt behind its length. -/
def receiptLayout (receipt : AuthoritativeTransactionV3) : Bytes :=
  beBytes 4 receipt.encodedLen ++ (canonicalBytes receipt ++ receipt.historyHash.toList)

section

variable (receipt : AuthoritativeTransactionV3)

theorem encodedLen_lt : receipt.encodedLen < 2 ^ 32 :=
  receiptLen_lt receipt

theorem length_receiptLayout : (receiptLayout receipt).length = 4 + receipt.encodedLen := by
  have canonical := length_canonicalBytes receipt
  simp only [checksumBytes] at canonical
  simp only [receiptLayout, length_append, length_beBytes, Vector.toList_length]
  omega

theorem writeReceipt_eq : writeReceipt receipt = .ok (receiptLayout receipt) := by
  simp only [writeReceipt, u32Bytes_eq (encodedLen_lt receipt), encode_eq, ok_bind, receiptLayout]

end

/-- A receipt behind its length is accepted from its own layout and from no other. -/
theorem readReceipt_exact {env : Hashing} :
    Exact (readReceipt env) (IsSealed env) receiptLayout := by
  intro input receipt rest
  have sized :
      (canonicalBytes receipt ++ receipt.historyHash.toList).length = receipt.encodedLen := by
    rw [← length_canonicalBytes]
    simp [checksumBytes]
  simp only [readReceipt, read_bind_eq_ok, word_eq_ok, take_eq_ok, check_eq_ok, decode_eq_ok]
  constructor
  · rintro ⟨_, _, ⟨_, rfl⟩, bytes, _, ⟨rfl, rfl⟩, ⟨isSealed, rfl⟩, rfl⟩
    rw [receiptLayout, sized, append_assoc (beBytes 4 _)]
    exact ⟨isSealed, rfl⟩
  · rintro ⟨isSealed, rfl⟩
    rw [receiptLayout, append_assoc]
    exact ⟨_, _, ⟨encodedLen_lt receipt, rfl⟩, _, _, ⟨sized, rfl⟩, ⟨isSealed, rfl⟩, rfl⟩

theorem length_flatMap_receiptLayout (receipts : List AuthoritativeTransactionV3) :
    (receipts.flatMap receiptLayout).length =
      (receipts.map fun receipt => 4 + receipt.encodedLen).sum := by
  rw [length_flatMap]
  exact congrArg sum (map_congr_left fun receipt _ => length_receiptLayout receipt)

/-- Every receipt takes at least 164 bytes with its length. -/
theorem count_le_frame (receipts : List AuthoritativeTransactionV3) :
    receipts.length ≤ (receipts.flatMap receiptLayout).length / 164 := by
  refine length_le_div_flatMap (by decide) fun receipt _ => ?_
  rw [length_receiptLayout]
  simp only [AuthoritativeTransactionV3.encodedLen, AuthoritativeTransactionV3.receiptLen]
  omega

def first : AuthoritativeTransactionV3 := frame.receipts.head frame.nonempty

def last : AuthoritativeTransactionV3 := frame.receipts.getLast frame.nonempty

theorem head?_receipts : frame.receipts.head? = some frame.first :=
  head?_eq_some_head frame.nonempty

theorem getLast?_receipts : frame.receipts.getLast? = some frame.last :=
  getLast?_eq_some_getLast frame.nonempty

def payloadBytes : Nat :=
  frameLen frame.binding frame.receipts - frame.binding.fixedFrameBytes

def frameHeaderLayout : Bytes :=
  frameHeaderBytesOf env ⟨frame.binding, sequenceValue frame.first.binding.predecessor,
    frame.last.binding.sequence.get, frame.first.binding.predecessorFrontier,
    frame.last.binding.coveredFrontier, frame.receipts.length, frame.payloadBytes⟩

def counterLayout : Bytes :=
  ((sourceCounts frame.receipts).take (sourceCount frame.binding.catalog)).flatMap (beBytes 4)

/-- The bytes the frame checksum covers. -/
def bodyLayout : Bytes :=
  frameHeaderLayout env frame ++ (counterLayout frame ++ frame.receipts.flatMap receiptLayout)

def footerLayout : Bytes :=
  footerMagic ++ (beBytes 8 (frameLen frame.binding frame.receipts) ++
    (env.sha256 (bodyLayout env frame)).toList)

/-- The complete encoded frame. -/
def frameBytes : Bytes :=
  bodyLayout env frame ++ footerLayout env frame

theorem payloadBytes_eq : frame.payloadBytes = (frame.receipts.flatMap receiptLayout).length := by
  rw [payloadBytes, frameLen_eq, length_flatMap_receiptLayout, Nat.add_sub_cancel_left]

theorem frameLen_lt :
    frameLen frame.binding frame.receipts < 2 ^ 32 := frame.frameLen_le.trans_lt (by decide)

theorem payloadBytes_lt : frame.payloadBytes < 2 ^ 32 :=
  (Nat.sub_le _ _).trans_lt frame.frameLen_lt

theorem count_lt : frame.receipts.length < 2 ^ 32 :=
  frame.length_le.trans_lt (by decide)

theorem encodeWithDigests_eq :
    encodeWithDigests env frame = .ok ⟨frameBytes env frame, env.sha256 (bodyLayout env frame),
      env.sha256 (frameBytes env frame)⟩ := by
  have rows := mapM_eq_map fun receipt (_ : receipt ∈ frame.receipts) => writeReceipt_eq receipt
  have payload : u32Bytes (frameLen frame.binding frame.receipts - frame.binding.fixedFrameBytes) =
      .ok (beBytes 4 frame.payloadBytes) := u32Bytes_eq frame.payloadBytes_lt
  simp only [encodeWithDigests, head?_receipts, getLast?_receipts, okOr_some, ok_bind,
    u32Bytes_eq frame.count_lt, payload, rows, frameBytes, bodyLayout, footerLayout,
    frameHeaderLayout, frameHeaderBytesOf, counterLayout, append_assoc, flatMap_def]
  rfl

theorem length_bodyLayout :
    (bodyLayout env frame).length + footerBytes = frameLen frame.binding frame.receipts := by
  have letters : frameMagic.length = 8 := by decide
  have narrow := sourceCount_le frame.binding.catalog
  have counters : (counterLayout frame).length = 4 * sourceCount frame.binding.catalog := by
    simp only [counterLayout, length_flatMap, length_beBytes, map_const', length_take,
      length_sourceCounts, sum_replicate, smul_eq_mul, Nat.min_eq_left narrow]
    omega
  simp only [bodyLayout, frameHeaderLayout, frameHeaderBytesOf, length_append, letters, counters,
    length_beBytes, Vector.toList_length, NonZeroU64.length_toBeBytes, frameLen_eq,
    length_flatMap_receiptLayout, ChangelogFrameBindingV3.fixedFrameBytes, fixedBytes]
  omega

theorem length_footerLayout : (footerLayout env frame).length = footerBytes := by
  have letters : footerMagic.length = 8 := by decide
  simp [footerLayout, letters, footerBytes]

theorem length_frameBytes :
    (frameBytes env frame).length = frameLen frame.binding frame.receipts := by
  rw [frameBytes, length_append, length_footerLayout, length_bodyLayout]

theorem split_frameBytes :
    (frameBytes env frame).length - footerBytes = (bodyLayout env frame).length := by
  rw [length_frameBytes, ← length_bodyLayout env frame, Nat.add_sub_cancel]

theorem take_frameBytes :
    (frameBytes env frame).take ((frameBytes env frame).length - footerBytes) =
      bodyLayout env frame := by
  rw [split_frameBytes, frameBytes, take_left]

theorem drop_frameBytes :
    (frameBytes env frame).drop ((frameBytes env frame).length - footerBytes) =
      footerLayout env frame := by
  rw [split_frameBytes, frameBytes, drop_left]

/-- A frame of sealed receipts whose history hashes chain decodes from its encoding to itself, and
nothing else is accepted. -/
theorem decode_eq_ok {env : Hashing} {bytes : Bytes} {frame : ChangelogFrameV3} :
    decode env bytes = .ok frame ↔ (∀ receipt ∈ frame.receipts, IsSealed env receipt) ∧
      checkReceipts true frame.binding frame.receipts = .ok () ∧ bytes = frameBytes env frame := by
  have wordExact : Exact (word ChangelogV3Error.invalidEncoding 4) (· < 256 ^ 4) (beBytes 4) :=
    fun _ _ _ => word_eq_ok
  simp only [decode, bind_eq_ok, require_eq_ok, okOr_eq_ok, Prod.exists, checkFooter_eq_ok,
    readFrameHeader_exact env _ _ _, wordExact.repeated, readReceipt_exact.repeated,
    new, build_eq_ok, Except.ok.injEq, exists_and_left, exists_const]
  constructor
  · rintro ⟨⟨_, lower, footer⟩, header, _, ⟨_, read⟩, _, listed, _, ⟨listedLength, _, rfl⟩,
      ⟨_, sized, _⟩, _, _, ⟨counted, isSealed, rfl⟩, rfl, frame, ⟨chained, sameBinding, rfl⟩,
      first, isFirst,
      last, isLast, ⟨samePredecessor, sameCovered, sameStart, sameEnd, sameCounts⟩, rfl⟩
    rw [head?_receipts, Option.some.injEq] at isFirst
    rw [getLast?_receipts, Option.some.injEq] at isLast
    rw [append_nil] at read sized
    have counters :
        (sourceCounts frame.receipts).take (sourceCount frame.binding.catalog) = listed := by
      rw [← sameCounts, sameBinding, take_left' listedLength]
    have payload : frame.payloadBytes = header.payloadLen :=
      (payloadBytes_eq frame).trans sized.symm
    have body : bytes.take (bytes.length - footerBytes) = bodyLayout env frame := by
      rw [read, bodyLayout, frameHeaderLayout, counterLayout, counters, payload,
        counted, sameBinding, isFirst, isLast, ← samePredecessor, ← sameCovered,
        ← sameStart, ← sameEnd]
    have total : bytes.length = frameLen frame.binding frame.receipts := by
      rw [← length_bodyLayout env frame, ← body, length_take]
      simp only [fixedBytes] at lower
      omega
    refine ⟨isSealed, sameBinding ▸ chained, ?_⟩
    rw [← take_append_drop (bytes.length - footerBytes) bytes, footer, body, total]
    rfl
  · rintro ⟨isSealed, chained, rfl⟩
    have upper : (frameBytes env frame).length ≤ maxChangelogFrameBytes := by
      rw [length_frameBytes]
      exact frame.frameLen_le
    have lower : fixedBytes originalSourceCount ≤ (frameBytes env frame).length := by
      have wide := sourceCount_ge frame.binding.catalog
      rw [length_frameBytes, frameLen_eq]
      simp only [ChangelogFrameBindingV3.fixedFrameBytes, fixedBytes]
      omega
    have footer := drop_frameBytes env frame
    rw [footerLayout, ← length_frameBytes env frame, ← take_frameBytes env frame] at footer
    have listedLength :
      ((sourceCounts frame.receipts).take (sourceCount frame.binding.catalog)).length =
        sourceCount frame.binding.catalog := by
      simp [Nat.min_eq_left (sourceCount_le frame.binding.catalog)]
    have small : ∀ count ∈ (sourceCounts frame.receipts).take (sourceCount frame.binding.catalog),
        count < 256 ^ 4 := fun count member =>
          sourceCounts_lt frame.length_le count (mem_of_mem_take member)
    have someReceipt : frame.receipts.length ≠ 0 := by simpa using frame.nonempty
    have counted := count_le_frame frame.receipts
    rw [← payloadBytes_eq] at counted
    have padded := sourceCounts_padded (sourceCount_le frame.binding.catalog)
      frame.tag_le_sourceCount
    let header : FrameHeader := ⟨frame.binding, sequenceValue frame.first.binding.predecessor,
      frame.last.binding.sequence.get, frame.first.binding.predecessorFrontier,
      frame.last.binding.coveredFrontier, frame.receipts.length, frame.payloadBytes⟩
    exact ⟨⟨upper, lower, footer⟩, header, _,
      ⟨⟨sequenceValue_fits _, frame.last.binding.sequence.fits,
      frame.count_lt, frame.payloadBytes_lt⟩, take_frameBytes env frame⟩, frame.length_le, _, _,
      ⟨listedLength, small, rfl⟩, ⟨someReceipt, payloadBytes_eq frame, counted⟩, frame.receipts, [],
      ⟨rfl, isSealed, (append_nil _).symm⟩, rfl, frame, ⟨chained, rfl, rfl⟩, _,
      head?_receipts frame, _, getLast?_receipts frame, ⟨rfl, rfl, rfl, rfl, padded⟩, rfl⟩

end ChangelogFrameV3

end ChangelogFrame
