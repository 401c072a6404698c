import RiffDb.ByteWire
import RiffDb.CheckedCode

/-!
# Checked replication identities

The identifiers and positions the replication protocol exchanges. What a Rust constructor refuses
cannot be formed: a zero epoch, a zero hold identity, a byte string that is not a version 7 UUID.
-/

namespace ReplicationTypes

open ByteWire CheckedCode

/-- A nonzero 64-bit word. The upper bound is the range of the machine word itself. -/
@[ext] structure NonZeroU64 where
  get : Nat
  pos : 0 < get
  fits : get < 2 ^ 64
deriving DecidableEq

namespace NonZeroU64

def new (value : Nat) : Option NonZeroU64 :=
  if valid : 0 < value ∧ value < 2 ^ 64 then some ⟨value, valid.1, valid.2⟩ else none

/-- A literal word. -/
def lit (value : Nat)
    (valid : (Nat.blt 0 value && Nat.blt value (2 ^ 64)) = true := by exact Eq.refl true) :
    NonZeroU64 :=
  ⟨value, Nat.blt_eq.mp (Bool.and_eq_true_iff.mp valid).1,
    Nat.blt_eq.mp (Bool.and_eq_true_iff.mp valid).2⟩

/-- Allocation of the successor; exhaustion is reported and never wraps. -/
def checkedNext (value : NonZeroU64) : Option NonZeroU64 := new (value.get + 1)

def toBeBytes (value : NonZeroU64) : Bytes := beBytes 8 value.get

theorem new_eq_some {raw : Nat} {value : NonZeroU64} : new raw = some value ↔ value.get = raw := by
  unfold new
  constructor
  · intro found
    split at found
    · cases found; rfl
    · cases found
  · rintro rfl
    rw [dif_pos ⟨value.pos, value.fits⟩]

@[simp] theorem new_get (value : NonZeroU64) : new value.get = some value := new_eq_some.mpr rfl

theorem checkedNext_eq_some {value next : NonZeroU64} :
    value.checkedNext = some next ↔ next.get = value.get + 1 := new_eq_some

@[simp] theorem length_toBeBytes (value : NonZeroU64) : value.toBeBytes.length = 8 :=
  length_beBytes 8 value.get

@[simp] theorem beValue_toBeBytes (value : NonZeroU64) : beValue value.toBeBytes = value.get :=
  beValue_beBytes (by simpa using value.fits)

end NonZeroU64

abbrev CommitSequence := NonZeroU64

abbrev AdministrationSequence := NonZeroU64

/-- Lineage-shared leadership fence. -/
abbrev LeadershipEpochV1 := NonZeroU64

/-- Opaque storage-local hold identity; sixteen zero bytes are unassigned. -/
@[ext] structure ReplicationSourceHoldIdV1 where
  asBytes : ByteArrayOf 16
  assigned : asBytes.toList ≠ List.replicate 16 0
deriving DecidableEq

namespace ReplicationSourceHoldIdV1

def new (bytes : ByteArrayOf 16) : Option ReplicationSourceHoldIdV1 :=
  if assigned : bytes.toList ≠ List.replicate 16 0 then some ⟨bytes, assigned⟩ else none

theorem new_eq_some {bytes : ByteArrayOf 16} {hold : ReplicationSourceHoldIdV1} :
    new bytes = some hold ↔ hold.asBytes = bytes := by
  unfold new
  constructor
  · intro found
    split at found
    · cases found; rfl
    · cases found
  · rintro rfl
    rw [dif_pos hold.assigned]

/-- The identity whose sixteen bytes all equal a nonzero tag. -/
def filledWith (tag : UInt8) (nonzero : (tag == 0) = false := by exact Eq.refl false) :
    ReplicationSourceHoldIdV1 :=
  ⟨List.Vector.replicate 16 tag, by simp [List.Vector.replicate, beq_eq_false_iff_ne.mp nonzero]⟩

/-- The derived order on byte arrays of one length is the order of their big-endian values. -/
def le (left right : ReplicationSourceHoldIdV1) : Prop :=
  beValue left.asBytes.toList ≤ beValue right.asBytes.toList

instance : DecidableRel le := fun _ _ => inferInstanceAs (Decidable (_ ≤ _))

instance : Std.Total le := ⟨fun _ _ => Nat.le_total _ _⟩

instance : IsTrans ReplicationSourceHoldIdV1 le :=
  ⟨fun _ _ _ first second => Nat.le_trans first second⟩

theorem le_antisymm {left right : ReplicationSourceHoldIdV1} (first : le left right)
    (second : le right left) : left = right := by
  apply ReplicationSourceHoldIdV1.ext
  apply List.Vector.eq
  exact beValue_injective (by simp) (Nat.le_antisymm first second)

end ReplicationSourceHoldIdV1

inductive UuidV7Error where
  | invalidVariant
  | invalidVersion
deriving DecidableEq, Repr

def validateUuidV7 (bytes : ByteArrayOf 16) : Except UuidV7Error Unit :=
  if bytes.get 8 &&& 0xC0 ≠ 0x80 then .error .invalidVariant
  else if bytes.get 6 >>> 4 ≠ 7 then .error .invalidVersion
  else .ok ()

/-- Sixteen network-order bytes of a version 7 UUID. -/
@[ext] structure UuidV7 where
  intoBytes : ByteArrayOf 16
  valid : validateUuidV7 intoBytes = .ok ()
deriving DecidableEq

namespace UuidV7

def fromBytes (bytes : ByteArrayOf 16) : Except UuidV7Error UuidV7 :=
  match checked : validateUuidV7 bytes with
  | .ok () => .ok ⟨bytes, checked⟩
  | .error reason => .error reason

/-- The identifier `018f0000-0000-7001-8002-000000000003`. -/
def sample : UuidV7 :=
  ⟨⟨[0x01, 0x8f, 0, 0, 0, 0, 0x70, 0x01, 0x80, 0x02, 0, 0, 0, 0, 0, 3], rfl⟩, by decide⟩

theorem fromBytes_eq_ok {bytes : ByteArrayOf 16} {id : UuidV7} :
    fromBytes bytes = .ok id ↔ id.intoBytes = bytes := by
  unfold fromBytes
  constructor
  · intro found
    split at found
    · cases found; rfl
    · cases found
  · rintro rfl
    split
    · rfl
    · rename_i reason failed
      rw [id.valid] at failed
      cases failed

end UuidV7

abbrev DatabaseId := UuidV7

abbrev RequestId := UuidV7

/-- The number an optional sequence stands for: an absent one has never advanced. -/
def sequenceValue (sequence : Option NonZeroU64) : Nat := sequence.elim 0 NonZeroU64.get

/-- The derived order on optional sequences: absence is below every present value. -/
def sequenceLt : Option NonZeroU64 → Option NonZeroU64 → Bool
  | none, some _ => true
  | some left, some right => left.get < right.get
  | _, none => false

variable {left right : Option NonZeroU64}

theorem sequenceLt_iff :
    sequenceLt left right = true ↔ sequenceValue left < sequenceValue right := by
  cases left with
  | none =>
    cases right with
    | none => simp [sequenceLt, sequenceValue]
    | some right => simpa [sequenceLt, sequenceValue] using right.pos
  | some left =>
    cases right with
    | none => simp [sequenceLt, sequenceValue]
    | some right => simp [sequenceLt, sequenceValue]

theorem sequenceValue_injective
    (equal : sequenceValue left = sequenceValue right) : left = right := by
  cases left with
  | none =>
    cases right with
    | none => rfl
    | some right => exact absurd equal.symm (Nat.ne_of_gt right.pos)
  | some left =>
    cases right with
    | none => exact absurd equal (Nat.ne_of_gt left.pos)
    | some right => exact congrArg some (NonZeroU64.ext equal)

theorem sequenceValue_fits (sequence : Option NonZeroU64) : sequenceValue sequence < 2 ^ 64 := by
  cases sequence with
  | none => simp [sequenceValue]
  | some value => exact value.fits

/-- One published durable frontier: an application and an administration position. -/
@[ext] structure DualFrontier where
  application : Option CommitSequence
  administration : Option AdministrationSequence
deriving DecidableEq

inductive DualFrontierError where
  | invalidShape
  | nonCanonicalAbsence
  | zeroSequence
deriving DecidableEq, Repr

namespace DualFrontier

def initial : DualFrontier := ⟨none, none⟩

def componentCmp (left right : Option NonZeroU64) : Ordering :=
  compare (sequenceValue left) (sequenceValue right)

/-- The componentwise order, in which a pair that rises and falls is incomparable. -/
def partialCmp (left right : DualFrontier) : Option Ordering :=
  match componentCmp left.application right.application,
      componentCmp left.administration right.administration with
  | .eq, value => some value
  | value, .eq => some value
  | .lt, .lt => some .lt
  | .gt, .gt => some .gt
  | _, _ => none

def advancesFrom (frontier predecessor : DualFrontier) : Bool :=
  frontier.partialCmp predecessor = some .gt

theorem advancesFrom_iff {frontier predecessor : DualFrontier} :
    frontier.advancesFrom predecessor = true ↔
      sequenceValue predecessor.application ≤ sequenceValue frontier.application ∧
      sequenceValue predecessor.administration ≤ sequenceValue frontier.administration ∧
      (sequenceValue predecessor.application < sequenceValue frontier.application ∨
        sequenceValue predecessor.administration < sequenceValue frontier.administration) := by
  simp only [advancesFrom, partialCmp, componentCmp]
  rcases Nat.lt_trichotomy (sequenceValue frontier.application)
      (sequenceValue predecessor.application) with application | application | application <;>
    rcases Nat.lt_trichotomy (sequenceValue frontier.administration)
      (sequenceValue predecessor.administration) with administration | administration |
        administration <;>
    simp [Nat.compare_eq_lt.mpr, Nat.compare_eq_gt.mpr, application, administration] <;> omega

def componentBytes (component : Option NonZeroU64) : Bytes :=
  match component with
  | some value => 0x01 :: value.toBeBytes
  | none => 0x00 :: beBytes 8 0

/-- The canonical eighteen bytes: a presence tag and a word for each component. -/
def toCanonicalBytes (frontier : DualFrontier) : Bytes :=
  componentBytes frontier.application ++ componentBytes frontier.administration

def decodeComponent (presence : UInt8) (value : Bytes) : Except DualFrontierError (Option Nat) := do
  require (value.length = 8) .invalidShape
  let raw := beValue value
  if presence = 0x00 then
    if raw = 0 then .ok none else .error .nonCanonicalAbsence
  else if presence = 0x01 then .ok (some raw)
  else .error .invalidShape

def checkedSequence : Option Nat → Except DualFrontierError (Option NonZeroU64)
  | none => .ok none
  | some raw => (okOr (NonZeroU64.new raw) .zeroSequence).map some

def fromCanonicalBytes (bytes : ByteArrayOf 18) : Except DualFrontierError DualFrontier := do
  let application ← decodeComponent (bytes.get 0) (slice bytes.toList 1 9) >>= checkedSequence
  let administration ← decodeComponent (bytes.get 9) (slice bytes.toList 10 18) >>= checkedSequence
  .ok ⟨application, administration⟩

@[simp] theorem length_componentBytes (component : Option NonZeroU64) :
    (componentBytes component).length = 9 := by
  cases component <;> simp [componentBytes]

/-- The canonical bytes as the fixed array that is written and read. -/
def canonicalArray (frontier : DualFrontier) : ByteArrayOf 18 :=
  ⟨frontier.toCanonicalBytes, by simp [toCanonicalBytes]⟩

/-- A component and its presence tag and word determine each other. -/
theorem decodeComponent_eq_ok {presence : UInt8} {value : Bytes} {component : Option NonZeroU64} :
    decodeComponent presence value >>= checkedSequence = .ok component ↔
      componentBytes component = presence :: value := by
  constructor
  · intro decoded
    obtain ⟨raw, read, accepted⟩ := bind_eq_ok.mp decoded
    obtain ⟨_, sized, read⟩ := bind_eq_ok.mp read
    rw [require_eq_ok] at sized
    have bytes := beBytes_beValue value
    rw [sized] at bytes
    dsimp only at read
    split at read
    · next absent =>
      split at read
      · next zero =>
        cases read
        cases accepted
        rw [zero] at bytes
        rw [componentBytes, bytes, absent]
      · cases read
    · split at read
      · next present =>
        cases read
        obtain ⟨sequence, found, rfl⟩ := map_eq_ok.mp accepted
        rw [okOr_eq_ok, NonZeroU64.new_eq_some] at found
        rw [componentBytes, NonZeroU64.toBeBytes, found, bytes, present]
      · cases read
  · intro same
    cases component with
    | none =>
      obtain ⟨rfl, rfl⟩ := List.cons.inj same
      have zero : beValue (beBytes 8 0) = 0 := beValue_beBytes (by decide)
      simp [decodeComponent, checkedSequence, require, zero]
    | some sequence =>
      obtain ⟨rfl, rfl⟩ := List.cons.inj same
      have restored : checkedSequence (some sequence.get) = .ok (some sequence) := by
        simp [checkedSequence, Except.map]
      simpa [decodeComponent, require] using restored

/-- A frontier decodes from its canonical bytes and from no others. -/
theorem fromCanonicalBytes_eq_ok {bytes : ByteArrayOf 18} {frontier : DualFrontier} :
    fromCanonicalBytes bytes = .ok frontier ↔ frontier.canonicalArray = bytes := by
  have single : ∀ (index : Fin 18), bytes.get index :: slice bytes.toList (index + 1) (index + 9) =
      slice bytes.toList index (index + 9) := by
    intro index
    have inside : index.val < bytes.toList.length := by rw [bytes.toList_length]; exact index.isLt
    rw [slice, slice, List.drop_eq_getElem_cons inside, List.Vector.get_eq_get_toList,
      show index.val + 9 - index.val = 8 + 1 by omega, List.take_succ_cons,
      show index.val + 9 - (index.val + 1) = 8 by omega]
    rfl
  have first : bytes.get 0 :: slice bytes.toList 1 9 = slice bytes.toList 0 9 := single 0
  have second : bytes.get 9 :: slice bytes.toList 10 18 = slice bytes.toList 9 18 := single 9
  have halves : slice bytes.toList 0 9 ++ slice bytes.toList 9 18 = bytes.toList := by
    rw [slice_append_slice (by decide) (by decide), slice_whole (by rw [bytes.toList_length])]
  constructor
  · intro decoded
    obtain ⟨application, applicationRead, decoded⟩ := bind_eq_ok.mp decoded
    obtain ⟨administration, administrationRead, decoded⟩ := bind_eq_ok.mp decoded
    cases decoded
    rw [decodeComponent_eq_ok] at applicationRead administrationRead
    apply List.Vector.eq
    change componentBytes application ++ componentBytes administration = bytes.toList
    rw [applicationRead, administrationRead, first, second, halves]
  · intro same
    have parts := (congrArg List.Vector.toList same).trans halves.symm
    obtain ⟨application, administration⟩ := List.append_inj parts (by simp [slice])
    rw [fromCanonicalBytes, decodeComponent_eq_ok.mpr (application.trans first.symm),
      decodeComponent_eq_ok.mpr (administration.trans second.symm)]
    rfl

end DualFrontier

end ReplicationTypes
