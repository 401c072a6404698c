import RiffDb.Budgets
import RiffDb.Methods
import RiffDb.Runs
import RiffDb.SortedRows
import Mathlib.Data.Nat.Size

/-!
# The persistent overlay map

A height-balanced search tree whose versions share their nodes. A successor copies the nodes on one
search path that another version still refers to, and updates in place those it owns alone. All
copies are admitted before the tree is touched: the root is out of the map while it is rebuilt, and
an insertion that failed on the way would lose the table.

`entries` is the row list in key order. An insertion is a `put` on it, and the iterators yield the
rows of a range from either end.
-/

namespace OverlayMap

open Budgets Methods SortedRows List

inductive StorageValueError where
  | empty
  | invalidShape
  | identityMismatch
  | nonCanonicalOrder
  | limitExceeded
  | sizeOverflow
deriving DecidableEq, Repr

/-- What could stop an insertion that has begun. -/
inductive NodeFault where
  | exhausted
  | missingChild
deriving DecidableEq, Repr

variable {K V : Type}

/-- `shared` says that another version refers to the node. -/
inductive OverlayNode (K V : Type) where
  | absent
  | node (key : K) (value : V) (height : Nat) (left right : OverlayNode K V) (shared : Bool)

variable {rows : List (K × V)}
variable {key : K} {value : V}

namespace OverlayNode

def overlayHeight : OverlayNode K V → Nat
  | .absent => 0
  | .node _ _ height _ _ _ => height

def entries : OverlayNode K V → List (K × V)
  | .absent => []
  | .node key value _ left right _ => left.entries ++ (key, value) :: right.entries

/-- Every recorded height is the height of its subtree. -/
def Measured : OverlayNode K V → Prop
  | .absent => True
  | .node _ _ height left right _ =>
    height = max left.overlayHeight right.overlayHeight + 1 ∧ left.Measured ∧ right.Measured

/-- Sibling heights differ by at most one. -/
def Balanced : OverlayNode K V → Prop
  | .absent => True
  | .node _ _ _ left right _ => left.overlayHeight ≤ right.overlayHeight + 1 ∧
    right.overlayHeight ≤ left.overlayHeight + 1 ∧ left.Balanced ∧ right.Balanced

def overlayNodeOwned (key : K) (value : V) (left right : OverlayNode K V) : OverlayNode K V :=
  .node key value (max left.overlayHeight right.overlayHeight + 1) left right false

@[grind =] theorem overlayHeight_node (key : K) (value : V) (height : Nat)
    (left right : OverlayNode K V)
    (shared : Bool) : (node key value height left right shared).overlayHeight = height := rfl

/-- A copied node refers to the children of the original. -/
def sharedIf (copied : Bool) : OverlayNode K V → OverlayNode K V
  | .absent => .absent
  | .node key value height left right shared => .node key value height left right (shared || copied)

/-- The references of other versions, by the path to the node. -/
def withSharing (references : List Bool → Bool) (path : List Bool) :
    OverlayNode K V → OverlayNode K V
  | .absent => .absent
  | .node key value height left right _ =>
    .node key value height (left.withSharing references (false :: path))
      (right.withSharing references (true :: path)) (references path)

@[simp, grind =] theorem entries_sharedIf (copied : Bool) (node : OverlayNode K V) :
    (node.sharedIf copied).entries = node.entries := by cases node <;> rfl

@[simp, grind =] theorem overlayHeight_sharedIf (copied : Bool) (node : OverlayNode K V) :
    (node.sharedIf copied).overlayHeight = node.overlayHeight := by cases node <;> rfl

variable {copied : Bool}

@[simp, grind =] theorem measured_sharedIf {node : OverlayNode K V} :
    (node.sharedIf copied).Measured ↔ node.Measured := by cases node <;> rfl

@[simp, grind =] theorem balanced_sharedIf {node : OverlayNode K V} :
    (node.sharedIf copied).Balanced ↔ node.Balanced := by cases node <;> rfl

@[simp] theorem overlayHeight_withSharing (references : List Bool → Bool) (path : List Bool)
    (node : OverlayNode K V) : (node.withSharing references path).overlayHeight =
      node.overlayHeight := by cases node <;> rfl

@[simp] theorem entries_withSharing (references : List Bool → Bool) (path : List Bool)
    (node : OverlayNode K V) : (node.withSharing references path).entries = node.entries := by
  induction node generalizing path with
  | absent => rfl
  | node key value height left right shared leftIh rightIh =>
    simp only [withSharing, entries, leftIh, rightIh]

variable {references : List Bool → Bool} {path : List Bool} {node : OverlayNode K V}

@[simp] theorem measured_withSharing :
    (node.withSharing references path).Measured ↔ node.Measured := by
  induction node generalizing path with
  | absent => rfl
  | node key value height left right shared leftIh rightIh =>
    simp only [withSharing, Measured, leftIh, rightIh, overlayHeight_withSharing]

@[simp] theorem balanced_withSharing :
    (node.withSharing references path).Balanced ↔ node.Balanced := by
  induction node generalizing path with
  | absent => rfl
  | node key value height left right shared leftIh rightIh =>
    simp only [withSharing, Balanced, leftIh, rightIh, overlayHeight_withSharing]

/-- The members admitted for copies are taken one by one. -/
def copyIf (shared : Bool) : Spending NodeFault Unit :=
  if shared then Spending.spend .exhausted else pure ()

/-- A node that is not shared is updated in place; a shared one is copied. -/
def ownedOverlayNode : OverlayNode K V → Spending NodeFault (OverlayNode K V)
  | .absent => pure .absent
  | .node key value height left right shared => do
    copyIf shared
    pure (.node key value height (left.sharedIf shared) (right.sharedIf shared) false)

def rotateOverlayLeft (node : OverlayNode K V) : Spending NodeFault (OverlayNode K V) := do
  match ← ownedOverlayNode node with
  | .absent => Spending.fail .missingChild
  | .node key value _ left right _ =>
    match ← ownedOverlayNode right with
    | .absent => Spending.fail .missingChild
    | .node rightKey rightValue _ middle rightRight _ =>
      pure (overlayNodeOwned rightKey rightValue
        (overlayNodeOwned key value left middle) rightRight)

def rotateOverlayRight (node : OverlayNode K V) : Spending NodeFault (OverlayNode K V) := do
  match ← ownedOverlayNode node with
  | .absent => Spending.fail .missingChild
  | .node key value _ left right _ =>
    match ← ownedOverlayNode left with
    | .absent => Spending.fail .missingChild
    | .node leftKey leftValue _ leftLeft middle _ =>
      pure (overlayNodeOwned leftKey leftValue leftLeft (overlayNodeOwned key value middle right))

/-- The children a double rotation looks at. -/
def leftChild : OverlayNode K V → OverlayNode K V
  | .absent => .absent
  | .node _ _ _ left _ _ => left

def rightChild : OverlayNode K V → OverlayNode K V
  | .absent => .absent
  | .node _ _ _ _ right _ => right

/-- The node has been owned by the insertion that rebalances it. -/
def rebalanceOverlayNode (key : K) (value : V) (left right : OverlayNode K V) :
    Spending NodeFault (OverlayNode K V) :=
  if right.overlayHeight + 1 < left.overlayHeight then
    if left.leftChild.overlayHeight < left.rightChild.overlayHeight then do
      let left ← rotateOverlayLeft left
      rotateOverlayRight (overlayNodeOwned key value left right)
    else rotateOverlayRight (overlayNodeOwned key value left right)
  else if left.overlayHeight + 1 < right.overlayHeight then
    if right.rightChild.overlayHeight < right.leftChild.overlayHeight then do
      let right ← rotateOverlayRight right
      rotateOverlayLeft (overlayNodeOwned key value left right)
    else rotateOverlayLeft (overlayNodeOwned key value left right)
  else pure (overlayNodeOwned key value left right)

/-- `inherited` says that the parent has just been copied, so that both copies refer to this
node. -/
def insertOverlayNode [Ord K] (key : K) (value : V) :
    Bool → OverlayNode K V → Spending NodeFault (OverlayNode K V)
  | _, .absent => do
    Spending.spend .exhausted
    pure (overlayNodeOwned key value .absent .absent)
  | inherited, .node nodeKey nodeValue _ left right shared => do
    let copied := shared || inherited
    copyIf copied
    match compare key nodeKey with
    | .lt => do
      let left ← insertOverlayNode key value copied left
      rebalanceOverlayNode nodeKey nodeValue left (right.sharedIf copied)
    | .eq =>
      rebalanceOverlayNode key value (left.sharedIf copied) (right.sharedIf copied)
    | .gt => do
      let right ← insertOverlayNode key value copied right
      rebalanceOverlayNode nodeKey nodeValue (left.sharedIf copied) right

/-- A tree that has just been built over the given rows. -/
structure Built (rows : List (K × V)) (node : OverlayNode K V) : Prop where
  entries : node.entries = rows
  measured : node.Measured
  owned : ∃ key value height left right, node = .node key value height left right false

theorem built_overlayNodeOwned {left right : OverlayNode K V} (leftMeasured : left.Measured)
    (rightMeasured : right.Measured) :
    Built (left.entries ++ (key, value) :: right.entries) (overlayNodeOwned key value left right) :=
  ⟨rfl, ⟨rfl, leftMeasured, rightMeasured⟩, _, _, _, _, _, rfl⟩

section Rotations

variable {key pivotKey : K} {value pivotValue : V} {height pivotHeight : Nat}
variable {first second third : OverlayNode K V} {shared pivotShared : Bool}

theorem affords_copyIf : Affords (copyIf shared) shared.toNat fun _ => True := by
  cases shared with
  | false => exact affords_pure trivial
  | true => exact affords_spend _

theorem ownedOverlayNode_affords :
    Affords (ownedOverlayNode (.node key value height first second shared))
      shared.toNat fun owned =>
      owned = .node key value height (first.sharedIf shared) (second.sharedIf shared) false := by
  refine Affords.bind affords_copyIf (fun _ _ => affords_pure ?_) (Nat.add_zero _).le
  rfl

/-- At most two nodes are copied: the one that goes down and the one that comes up. -/
theorem rotateOverlayLeft_affords : Affords (rotateOverlayLeft (.node key value height first
        (.node pivotKey pivotValue pivotHeight second third pivotShared) shared))
      (shared.toNat + (pivotShared || shared).toNat)
      (· = overlayNodeOwned pivotKey pivotValue (overlayNodeOwned key value (first.sharedIf shared)
        (second.sharedIf (pivotShared || shared))) (third.sharedIf (pivotShared || shared))) := by
  unfold rotateOverlayLeft
  refine Affords.bind ownedOverlayNode_affords ?_ (Nat.le_refl _)
  rintro _ rfl
  refine Affords.bind ownedOverlayNode_affords ?_ (Nat.add_zero _).le
  rintro _ rfl
  exact affords_pure rfl

theorem rotateOverlayRight_affords : Affords (rotateOverlayRight (.node key value height
        (.node pivotKey pivotValue pivotHeight first second pivotShared) third shared))
      (shared.toNat + (pivotShared || shared).toNat)
      (· = overlayNodeOwned pivotKey pivotValue (first.sharedIf (pivotShared || shared))
        (overlayNodeOwned key value (second.sharedIf (pivotShared || shared))
        (third.sharedIf shared))) := by
  unfold rotateOverlayRight
  refine Affords.bind ownedOverlayNode_affords ?_ (Nat.le_refl _)
  rintro _ rfl
  refine Affords.bind ownedOverlayNode_affords ?_ (Nat.add_zero _).le
  rintro _ rfl
  exact affords_pure rfl

variable {left right : OverlayNode K V}

/-- Two balanced trees whose heights differ by at most two are joined to a balanced one. -/
def Levels (left right node : OverlayNode K V) : Prop :=
  left.Balanced → right.Balanced → left.overlayHeight ≤ right.overlayHeight + 2 →
    right.overlayHeight ≤ left.overlayHeight + 2 → node.Balanced ∧
      max left.overlayHeight right.overlayHeight ≤ node.overlayHeight ∧
      node.overlayHeight ≤ max left.overlayHeight right.overlayHeight + 1 ∧
      (left.overlayHeight ≤ right.overlayHeight + 1 → right.overlayHeight ≤ left.overlayHeight + 1 →
        max left.overlayHeight right.overlayHeight < node.overlayHeight)

attribute [grind =] overlayNodeOwned Levels Balanced Measured leftChild rightChild

/-- Rebalancing copies at most two nodes and keeps the rows. -/
theorem rebalanceOverlayNode_affords (leftMeasured : left.Measured) (rightMeasured : right.Measured)
    (isRows : left.entries ++ (key, value) :: right.entries = rows) :
    Affords (rebalanceOverlayNode key value left right) 2 fun node =>
      Built rows node ∧ Levels left right node := by
  subst isRows
  have two (first second : Bool) : first.toNat + second.toNat ≤ 2 :=
    Nat.add_le_add (Bool.toNat_le first) (Bool.toNat_le second)
  unfold rebalanceOverlayNode
  split
  · next leftHeavy =>
    cases left with
    | absent => cases leftHeavy
    | node pivotKey pivotValue pivotHeight first second pivotShared =>
      split
      · next leaning =>
        cases second with
        | absent => cases leaning
        | node innerKey innerValue innerHeight second third innerShared =>
          refine Affords.bind (rotateOverlayLeft_affords.mono (two _ _) fun _ => id) ?_
            (Nat.add_zero 2).le
          rintro _ rfl
          refine rotateOverlayRight_affords.mono (Nat.le_refl 0) ?_
          rintro _ rfl
          refine ⟨⟨by simp [overlayNodeOwned, entries], ?_, _, _, _, _, _, rfl⟩, ?_⟩ <;> grind
      · next leaning =>
        refine rotateOverlayRight_affords.mono (two false _) ?_
        rintro _ rfl
        refine ⟨⟨by simp [overlayNodeOwned, entries], ?_, _, _, _, _, _, rfl⟩, ?_⟩ <;> grind
  · split
    · next rightHeavy =>
      cases right with
      | absent => cases rightHeavy
      | node pivotKey pivotValue pivotHeight second third pivotShared =>
        split
        · next leaning =>
          cases second with
          | absent => cases leaning
          | node innerKey innerValue innerHeight first second innerShared =>
            refine Affords.bind (rotateOverlayRight_affords.mono (two _ _) fun _ => id) ?_
              (Nat.add_zero 2).le
            rintro _ rfl
            refine rotateOverlayLeft_affords.mono (Nat.le_refl 0) ?_
            rintro _ rfl
            refine ⟨⟨by simp [overlayNodeOwned, entries], ?_, _, _, _, _, _, rfl⟩, ?_⟩ <;> grind
        · next leaning =>
          refine rotateOverlayLeft_affords.mono (two false _) ?_
          rintro _ rfl
          refine ⟨⟨by simp [overlayNodeOwned, entries], ?_, _, _, _, _, _, rfl⟩, ?_⟩ <;> grind
    · refine (affords_pure ⟨built_overlayNodeOwned leftMeasured rightMeasured, ?_⟩).mono (by decide)
        fun _ holds => holds
      grind

end Rotations

section Insertion

variable [Ord K] [Std.TransOrd K] [Std.LawfulEqOrd K]

/-- Three copies for each level and one new node are always enough, however the tree leans. A
balanced tree stays balanced and grows by at most one level. -/
theorem insertOverlayNode_affords (key : K) (value : V) (inherited : Bool) {node : OverlayNode K V}
    (ordered : Ascending compare node.entries) (measured : node.Measured) :
    Affords (insertOverlayNode key value inherited node) (3 * node.overlayHeight + 1) fun after =>
      Built (put compare key value node.entries) after ∧ (node.Balanced → after.Balanced ∧
        node.overlayHeight ≤ after.overlayHeight ∧
        after.overlayHeight ≤ node.overlayHeight + 1) := by
  induction node generalizing inherited with
  | absent =>
    refine Affords.bind (affords_spend _) (fun _ _ => affords_pure ?_) (Nat.le_refl _)
    exact ⟨⟨rfl, ⟨rfl, trivial, trivial⟩, _, _, _, _, _, rfl⟩, fun _ =>
      ⟨⟨Nat.zero_le _, Nat.zero_le _, trivial, trivial⟩, Nat.zero_le _, Nat.le_refl _⟩⟩
  | node nodeKey nodeValue height left right shared leftIh rightIh =>
    obtain ⟨heightEq, leftMeasured, rightMeasured⟩ := measured
    obtain ⟨leftOrdered, upper, below⟩ := pairwise_append.mp ordered
    obtain ⟨above, rightOrdered⟩ := ascending_cons.mp upper
    have fits : 1 + (3 * max left.overlayHeight right.overlayHeight + 3) ≤
        3 * (node nodeKey nodeValue height left right shared).overlayHeight + 1 := by
      rw [overlayHeight, heightEq]
      omega
    unfold insertOverlayNode
    refine Affords.bind (affords_copyIf.mono (Bool.toNat_le _) fun _ holds => holds) ?_ fits
    rintro _ _
    cases compared : compare key nodeKey with
    | lt =>
      refine Affords.bind (leftIh _ leftOrdered leftMeasured) ?_ (by omega : _ + 2 ≤ _)
      rintro inserted ⟨⟨insertedEntries, insertedMeasured, _⟩, leveled⟩
      refine (rebalanceOverlayNode_affords insertedMeasured (by simpa using rightMeasured) ?_).mono
        (Nat.le_refl 2) fun after holds => ⟨holds.1, fun balanced => ?_⟩
      · rw [insertedEntries, entries_sharedIf, entries, put_append_lt compared]
      · grind
    | eq =>
      have same : key = nodeKey := Std.LawfulEqOrd.eq_of_compare compared
      refine (rebalanceOverlayNode_affords ?_ ?_ ?_).mono (by omega)
        fun after holds => ⟨holds.1, fun balanced => ?_⟩
      · simpa using leftMeasured
      · simpa using rightMeasured
      · rw [entries_sharedIf, entries_sharedIf, entries, put_append_of_gt, put, compared]
        intro row member
        rw [same]
        exact below row member _ mem_cons_self
      · grind
    | gt =>
      refine Affords.bind (rightIh _ rightOrdered rightMeasured) ?_ (by omega : _ + 2 ≤ _)
      rintro inserted ⟨⟨insertedEntries, insertedMeasured, _⟩, leveled⟩
      refine (rebalanceOverlayNode_affords (by simpa using leftMeasured) insertedMeasured ?_).mono
        (Nat.le_refl 2) fun after holds => ⟨holds.1, fun balanced => ?_⟩
      · rw [insertedEntries, entries_sharedIf, entries, put_append_of_gt, put, compared]
        intro row member
        exact Std.TransCmp.lt_trans (below row member _ mem_cons_self)
          (Std.OrientedCmp.gt_iff_lt.mp compared)
      · grind

end Insertion

section Lookup

variable [Ord K]

def get (key : K) : OverlayNode K V → Option V
  | .absent => none
  | .node nodeKey value _ left right _ =>
    match compare key nodeKey with
    | .lt => left.get key
    | .eq => some value
    | .gt => right.get key

variable [Std.TransOrd K] [Std.LawfulEqOrd K] [BEq K] [LawfulBEq K]

theorem get_eq_lookup (key : K) {node : OverlayNode K V}
    (ordered : Ascending compare node.entries) : node.get key = node.entries.lookup key := by
  induction node with
  | absent => rfl
  | node nodeKey value height left right shared leftIh rightIh =>
    obtain ⟨leftOrdered, upper, below⟩ := pairwise_append.mp ordered
    obtain ⟨above, rightOrdered⟩ := ascending_cons.mp upper
    have leftMissing : compare key nodeKey ≠ .lt → left.entries.lookup key = none := by
      intro beyond
      apply lookup_eq_none_iff.mpr
      intro row member
      refine bne_iff_ne.mpr fun same => beyond ?_
      rw [same]
      exact below row member _ mem_cons_self
    unfold get entries
    rw [lookup_append]
    cases compared : compare key nodeKey with
    | lt =>
      have missing : ((nodeKey, value) :: right.entries).lookup key = none := by
        refine @lookup_eq_none _ _ compare _ _ _ _ _ ?_
        intro row member
        rcases mem_cons.mp member with rfl | deeper
        · exact compared
        · exact Std.TransCmp.lt_trans compared (above row deeper)
      rw [missing, Option.or_none, leftIh leftOrdered]
    | eq =>
      have same : key = nodeKey := Std.LawfulEqOrd.eq_of_compare compared
      rw [leftMissing (by rw [compared]; decide), same, lookup_cons_self]
      rfl
    | gt =>
      have apart : key ≠ nodeKey :=
        Ne.symm (SortedRows.ne_of_lt (Std.OrientedCmp.gt_iff_lt.mp compared))
      rw [leftMissing (by rw [compared]; decide), lookup_cons_ne apart, rightIh rightOrdered]
      rfl

end Lookup

/-- Half of the rows go to the left, the next one to the root. `fuel` is the number of rows. -/
def buildBalancedOverlay : Nat → Nat → List (K × V) → OverlayNode K V × List (K × V)
  | 0, _, rows => (.absent, rows)
  | fuel + 1, len, rows =>
    if len = 0 then (.absent, rows)
    else
      let (left, rest) := buildBalancedOverlay fuel (len / 2) rows
      match rest with
      | [] => (left, [])
      | (key, value) :: rest =>
        let (right, rest) := buildBalancedOverlay fuel (len - len / 2 - 1) rest
        (overlayNodeOwned key value left right, rest)

theorem size_of_ne_zero {len : Nat} (positive : len ≠ 0) : len.size = (len / 2).size + 1 := by
  conv_lhs => rw [← Nat.bit_bodd_div2 len]
  rw [Nat.size_bit (by rwa [Nat.bit_bodd_div2]), Nat.div2_val]

theorem size_halves (len : Nat) : (len - len / 2 - 1).size ≤ (len / 2).size ∧
    (len / 2).size ≤ (len - len / 2 - 1).size + 1 := by
  constructor
  · exact Nat.size_le_size (by omega)
  · have fits := Nat.lt_size_self (len - len / 2 - 1)
    rw [Nat.size_le, pow_succ]
    omega

theorem buildBalancedOverlay_spec {fuel len : Nat} (enough : len ≤ fuel)
    (present : len ≤ rows.length) : (buildBalancedOverlay fuel len rows).1.entries = rows.take len ∧
      (buildBalancedOverlay fuel len rows).1.Measured ∧
      (buildBalancedOverlay fuel len rows).2 = rows.drop len ∧
      (buildBalancedOverlay fuel len rows).1.Balanced ∧
      (buildBalancedOverlay fuel len rows).1.overlayHeight = len.size := by
  induction fuel generalizing len rows with
  | zero =>
    obtain rfl : len = 0 := by omega
    exact ⟨rfl, trivial, rfl, trivial, rfl⟩
  | succ fuel ih =>
    unfold buildBalancedOverlay
    by_cases none : len = 0
    · subst none
      exact ⟨rfl, trivial, rfl, trivial, rfl⟩
    · rw [if_neg none]
      have half : len / 2 ≤ rows.length := by omega
      obtain ⟨leftEntries, leftMeasured, leftRest, leftBalanced, leftHeight⟩ := ih (by omega) half
      cases rest : rows.drop (len / 2) with
      | nil =>
        have short := congrArg List.length rest
        rw [length_drop, length_nil] at short
        omega
      | cons row others =>
        obtain ⟨key, value⟩ := row
        have longer : len - len / 2 - 1 ≤ others.length := by
          have size := congrArg List.length rest
          rw [length_drop, length_cons] at size
          omega
        obtain ⟨rightEntries, rightMeasured, rightRest, rightBalanced, rightHeight⟩ :=
          ih (by omega) longer
        have whole : rows = rows.take (len / 2) ++ (key, value) :: others := by
          rw [← rest, take_append_drop]
        have size : (rows.take (len / 2)).length = len / 2 := by
          rw [length_take, Nat.min_eq_left half]
        have parts : len - len / 2 = (len - len / 2 - 1) + 1 := by omega
        dsimp only
        rw [leftRest, rest]
        refine ⟨?_, ⟨rfl, leftMeasured, rightMeasured⟩, ?_, ?_, ?_⟩
        · conv_rhs => rw [whole]
          rw [take_append, size, parts, take_succ_cons, take_of_length_le (by omega)]
          simp [overlayNodeOwned, entries, leftEntries, rightEntries]
        · conv_rhs => rw [whole]
          rw [drop_append, size, parts, drop_succ_cons, drop_of_length_le (by omega), nil_append]
          exact rightRest
        · obtain ⟨near, far⟩ := size_halves len
          exact ⟨by omega, by omega, leftBalanced, rightBalanced⟩
        · have near := (size_halves len).1
          rw [size_of_ne_zero none]
          exact congrArg (· + 1) (by rw [leftHeight, rightHeight, Nat.max_eq_left near])

/-- A balanced tree has many rows for its height. -/
theorem two_pow_le_length {node : OverlayNode K V} (measured : node.Measured)
    (balanced : node.Balanced) : 2 ^ (node.overlayHeight / 2) ≤ node.entries.length + 1 := by
  induction node with
  | absent => simp [overlayHeight, entries]
  | node key value height left right shared leftIh rightIh =>
    obtain ⟨rfl, leftMeasured, rightMeasured⟩ := measured
    obtain ⟨leftNear, rightNear, leftBalanced, rightBalanced⟩ := balanced
    have leftRows := leftIh leftMeasured leftBalanced
    have rightRows := rightIh rightMeasured rightBalanced
    rw [overlayHeight, entries, length_append, length_cons]
    rcases Nat.eq_zero_or_pos (max left.overlayHeight right.overlayHeight) with flat | tall
    · rw [flat]
      exact Nat.succ_le_succ (Nat.zero_le _)
    · obtain ⟨half, isHalf⟩ :
          ∃ half, (max left.overlayHeight right.overlayHeight + 1) / 2 = half + 1 :=
        ⟨_, (Nat.sub_add_cancel (by omega)).symm⟩
      have leftHalf := Nat.pow_le_pow_right two_pos (show half ≤ left.overlayHeight / 2 by omega)
      have rightHalf := Nat.pow_le_pow_right two_pos (show half ≤ right.overlayHeight / 2 by omega)
      rw [isHalf, pow_succ]
      omega

end OverlayNode

/-- The end an iterator starts from. -/
inductive Direction where
  | ascending
  | descending
deriving DecidableEq, Repr

namespace Direction

def order [Ord K] : Direction → K → K → Ordering
  | .ascending => compare
  | .descending => fun left right => compare right left

instance [Ord K] [Std.TransOrd K] (direction : Direction) :
    Std.TransCmp (direction.order : K → K → Ordering) := by
  cases direction
  · exact inferInstanceAs (Std.TransCmp compare)
  · exact inferInstanceAs (Std.TransCmp fun left right => compare right left)

instance [Ord K] [Std.TransOrd K] [Std.LawfulEqOrd K] (direction : Direction) :
    Std.LawfulEqCmp (direction.order : K → K → Ordering) := by
  cases direction
  · exact inferInstanceAs (Std.LawfulEqCmp compare)
  · exact inferInstanceAs (Std.LawfulEqCmp fun left right => compare right left)

/-- The subtree visited before a node, and the one visited after it. -/
def near (direction : Direction) (left right : OverlayNode K V) : OverlayNode K V :=
  match direction with
  | .ascending => left
  | .descending => right

def far (direction : Direction) (left right : OverlayNode K V) : OverlayNode K V :=
  match direction with
  | .ascending => right
  | .descending => left

/-- Rows in key order, read from the given end. -/
def arrange (direction : Direction) (rows : List (K × V)) : List (K × V) :=
  match direction with
  | .ascending => rows
  | .descending => rows.reverse

theorem arrange_node (direction : Direction) (key : K) (value : V) (height : Nat)
    (left right : OverlayNode K V) (shared : Bool) :
    direction.arrange (OverlayNode.node key value height left right shared).entries =
      direction.arrange (direction.near left right).entries ++
        (key, value) :: direction.arrange (direction.far left right).entries := by
  cases direction with
  | ascending => rfl
  | descending => simp [arrange, near, far, OverlayNode.entries]

theorem ascending_arrange [Ord K] (direction : Direction) (ordered : Ascending compare rows) :
    Ascending direction.order (direction.arrange rows) := by
  cases direction with
  | ascending => exact ordered
  | descending => exact ordered.reverse

theorem lookup_arrange [Ord K] [Std.TransOrd K] [Std.LawfulEqOrd K] [BEq K] [LawfulBEq K]
    (direction : Direction) (ordered : Ascending compare rows) (key : K) :
    (direction.arrange rows).lookup key = rows.lookup key := by
  cases direction with
  | ascending => rfl
  | descending => exact ordered.lookup_reverse key

end Direction

/-- A node that is still to be yielded, with the subtree that comes after it. -/
structure Visit (K V : Type) where
  key : K
  value : V
  later : OverlayNode K V

/-- Both range iterators: the nodes to visit, and the keys past the end of the range. -/
structure PersistentOverlayRange (K V : Type) where
  direction : Direction
  stack : List (Visit K V)
  beyond : K → Bool

variable {root : OverlayNode K V}

namespace PersistentOverlayRange

/-- Descend to the first key that is not before the range. -/
def descend (direction : Direction) (before : K → Bool) :
    OverlayNode K V → List (Visit K V) → List (Visit K V)
  | .absent, stack => stack
  | .node key value _ left right _, stack =>
    match direction with
    | .ascending =>
      if before key then descend direction before right stack
      else descend direction before left (⟨key, value, right⟩ :: stack)
    | .descending =>
      if before key then descend direction before left stack
      else descend direction before right (⟨key, value, left⟩ :: stack)

def new (direction : Direction) (before beyond : K → Bool) (root : OverlayNode K V) :
    PersistentOverlayRange K V :=
  ⟨direction, descend direction before root [], beyond⟩

/-- `push_left` and `push_right` descend without a bound. -/
def next (range : PersistentOverlayRange K V) : Option ((K × V) × PersistentOverlayRange K V) :=
  match range.stack with
  | [] => none
  | visit :: stack =>
    if range.beyond visit.key then none
    else some ((visit.key, visit.value),
      { range with stack := descend range.direction (fun _ => false) visit.later stack })

/-- The rows under the stack, in the order of the iterator. -/
def pending (direction : Direction) (stack : List (Visit K V)) : List (K × V) :=
  stack.flatMap fun visit => (visit.key, visit.value) :: direction.arrange visit.later.entries

/-- What the iterator has yet to yield. -/
def remaining (range : PersistentOverlayRange K V) : List (K × V) :=
  (pending range.direction range.stack).takeWhile fun row => !range.beyond row.1

variable (direction : Direction)

theorem descend_node (before : K → Bool) (key : K) (value : V) (height : Nat)
    (left right : OverlayNode K V) (shared : Bool) (stack : List (Visit K V)) :
    descend direction before (.node key value height left right shared) stack =
      if before key then descend direction before (direction.far left right) stack
      else descend direction before (direction.near left right)
        (⟨key, value, direction.far left right⟩ :: stack) := by
  cases direction <;> rfl

theorem pending_cons (visit : Visit K V) (stack : List (Visit K V)) :
    pending direction (visit :: stack) = (visit.key, visit.value) ::
      (direction.arrange visit.later.entries ++ pending direction stack) := rfl

variable {before : K → Bool}

/-- The descent leaves out the keys before the range, if they come first. The recursion goes to the
subtrees in the order of the iterator. -/
theorem pending_descend (node : OverlayNode K V)
    (lowered : (direction.arrange node.entries).Pairwise fun earlier later =>
      before later.1 = true → before earlier.1 = true) (stack : List (Visit K V)) :
    pending direction (descend direction before node stack) =
      (direction.arrange node.entries).filter (fun row => !before row.1) ++
        pending direction stack := by
  cases node with
  | absent => cases direction <;> rfl
  | node key value height left right shared =>
    rw [Direction.arrange_node] at lowered ⊢
    obtain ⟨nearLowered, farther, below⟩ := pairwise_append.mp lowered
    obtain ⟨above, farLowered⟩ := pairwise_cons.mp farther
    have nearIh := pending_descend (direction.near left right) nearLowered
    have farIh := pending_descend (direction.far left right) farLowered
    rw [descend_node, filter_append, filter_cons]
    by_cases skipped : before key = true
    · have nearSkipped : (direction.arrange (direction.near left right).entries).filter
          (fun row => !before row.1) = [] := by
        apply filter_eq_nil_iff.mpr
        intro row member
        simpa using below row member _ mem_cons_self skipped
      rw [if_pos skipped, farIh, nearSkipped]
      simp [skipped]
    · have farKept : (direction.arrange (direction.far left right).entries).filter
          (fun row => !before row.1) = direction.arrange (direction.far left right).entries := by
        apply filter_eq_self.mpr
        intro row member
        simpa using fun later => skipped (above row member later)
      rw [if_neg skipped, nearIh, pending_cons, farKept]
      simp [skipped]
termination_by node
decreasing_by
  all_goals
    subst_vars
    cases direction <;> simp only [Direction.near, Direction.far,
      OverlayNode.node.sizeOf_spec] <;> omega

theorem pending_descend_all (node : OverlayNode K V) (stack : List (Visit K V)) :
    pending direction (descend direction (fun _ => false) node stack) =
      direction.arrange node.entries ++ pending direction stack := by
  rw [pending_descend direction node (pairwise_of_forall fun _ _ => id) stack]
  simp

theorem next_eq_none {range : PersistentOverlayRange K V} (exhausted : range.next = none) :
    range.remaining = [] := by
  unfold next at exhausted
  unfold remaining
  split at exhausted
  · next empty => rw [empty]; rfl
  · next visit stack isStack =>
    split at exhausted
    · next past => simp [isStack, pending, past]
    · cases exhausted

theorem next_eq_some {range later : PersistentOverlayRange K V} {row : K × V}
    (yielded : range.next = some (row, later)) :
    range.remaining = row :: later.remaining ∧ later.direction = range.direction := by
  unfold next at yielded
  split at yielded
  · cases yielded
  · next visit stack isStack =>
    split at yielded
    · cases yielded
    · next inside =>
      cases yielded
      refine ⟨?_, rfl⟩
      unfold remaining
      rw [isStack, pending_descend_all, pending_cons, takeWhile_cons]
      simp [inside]

/-- The rows that an iterator yields until it is exhausted. -/
inductive Yields : PersistentOverlayRange K V → List (K × V) → Prop where
  | done {range} : range.next = none → Yields range []
  | next {range later row rows} : range.next = some (row, later) → Yields later rows →
    Yields range (row :: rows)

theorem yields_remaining (range : PersistentOverlayRange K V) : Yields range range.remaining := by
  generalize isRows : range.remaining = rows
  induction rows generalizing range with
  | nil =>
    cases step : range.next with
    | none => exact .done step
    | some yielded => cases isRows.symm.trans (next_eq_some step).1
  | cons row rows ih =>
    cases step : range.next with
    | none => cases isRows.symm.trans (next_eq_none step)
    | some yielded =>
      cases isRows.symm.trans (next_eq_some step).1
      exact .next step (ih _ rfl)

section Bounds

variable [Ord K]

/-- A bound a range is entered at: with a key it refuses every earlier key. -/
def Closed (order : K → K → Ordering) (before : K → Bool) : Prop :=
  ∀ earlier later, order earlier later = .lt → before later = true → before earlier = true

/-- A bound a range is left at: with a key it refuses every later key. -/
def Upward (order : K → K → Ordering) (beyond : K → Bool) : Prop :=
  ∀ earlier later, order earlier later = .lt → beyond earlier = true → beyond later = true

variable {beyond : K → Bool}

omit [Ord K] in
theorem takeWhile_eq_filter {order : K → K → Ordering} (upward : Upward order beyond)
    (ordered : Ascending order rows) :
    rows.takeWhile (fun row => !beyond row.1) = rows.filter fun row => !beyond row.1 := by
  induction rows with
  | nil => rfl
  | cons first rest ih =>
    obtain ⟨above, others⟩ := ascending_cons.mp ordered
    rw [takeWhile_cons, filter_cons, ih others]
    by_cases past : beyond first.1 = true
    · have none : rest.filter (fun row => !beyond row.1) = [] := by
        apply filter_eq_nil_iff.mpr
        intro row member
        simpa using upward _ _ (above row member) past
      simp [past, none]
    · simp [past]

/-- A new iterator yields the rows of its range. -/
theorem remaining_new (closed : Closed direction.order before)
    (upward : Upward direction.order beyond) (ordered : Ascending compare root.entries) :
    (new direction before beyond root).remaining =
      (direction.arrange root.entries).filter fun row => !before row.1 && !beyond row.1 := by
  have arranged := direction.ascending_arrange ordered
  unfold remaining new
  dsimp only
  rw [pending_descend direction root (arranged.imp (closed _ _)), pending, flatMap_nil, append_nil,
    takeWhile_eq_filter upward (arranged.filter _), filter_filter]
  congr 1
  funext row
  rw [Bool.and_comm]

end Bounds

end PersistentOverlayRange

/-- One table of an overlay: rows in key order under a tree that knows its heights. -/
structure PersistentOverlayMap (K V : Type) [Ord K] where
  root : OverlayNode K V
  ordered : Ascending compare root.entries
  measured : root.Measured

/-- What the allocator does during one insertion: whether it admits the copies, and which nodes
other versions refer to. -/
structure Allocation where
  granted : Bool
  references : List Bool → Bool

def maxOverlayHeight : Nat := 130

namespace PersistentOverlayMap

variable [Ord K]

def empty : PersistentOverlayMap K V := ⟨.absent, ascending_nil, trivial⟩

def entries (map : PersistentOverlayMap K V) : List (K × V) := map.root.entries

def get (map : PersistentOverlayMap K V) (key : K) : Option V := map.root.get key

/-- A map over rows that are in order already. -/
def fromSortedEntries (rows : List (K × V)) (ordered : Ascending compare rows) :
    PersistentOverlayMap K V :=
  have spec := OverlayNode.buildBalancedOverlay_spec (Nat.le_refl rows.length) (Nat.le_refl _)
  ⟨(OverlayNode.buildBalancedOverlay rows.length rows.length rows).1,
    by rw [spec.1, List.take_length]; exact ordered, spec.2.1⟩

theorem entries_fromSortedEntries (rows : List (K × V)) (ordered : Ascending compare rows) :
    (fromSortedEntries rows ordered).entries = rows := by
  have spec := OverlayNode.buildBalancedOverlay_spec (Nat.le_refl rows.length) (Nat.le_refl _)
  rw [entries, fromSortedEntries, spec.1, take_length]

theorem balanced_fromSortedEntries (rows : List (K × V)) (ordered : Ascending compare rows) :
    (fromSortedEntries rows ordered).root.Balanced :=
  (OverlayNode.buildBalancedOverlay_spec (Nat.le_refl rows.length) (Nat.le_refl _)).2.2.2.1

/-- A balanced map that memory can hold is never too high for an insertion. -/
theorem overlayHeight_le {map : PersistentOverlayMap K V} (balanced : map.root.Balanced)
    (few : map.entries.length < 2 ^ 64) : map.root.overlayHeight ≤ maxOverlayHeight := by
  have rows := OverlayNode.two_pow_le_length map.measured balanced
  have half : map.root.overlayHeight / 2 < 65 :=
    (Nat.pow_lt_pow_iff_right (by decide : 1 < 2)).mp
      (lt_of_le_of_lt rows (by rw [entries] at few; omega))
  rw [maxOverlayHeight]
  omega

variable [Std.TransOrd K] [Std.LawfulEqOrd K]

/-- The copies admitted for a tree of its height are always enough. -/
theorem insertOverlayNode_succeeds (map : PersistentOverlayMap K V) (references : List Bool → Bool)
    (key : K) (value : V) :
    ∃ root left, OverlayNode.insertOverlayNode key value false
        (map.root.withSharing references []) (4 * map.root.overlayHeight + 8) = .ok (root, left) ∧
      OverlayNode.Built (put compare key value map.entries) root ∧
      (map.root.Balanced → root.Balanced) := by
  have ordered : Ascending compare (map.root.withSharing references []).entries := by
    simpa using map.ordered
  have measured : (map.root.withSharing references []).Measured := by simpa using map.measured
  have affords := OverlayNode.insertOverlayNode_affords key value false ordered measured
  rw [OverlayNode.overlayHeight_withSharing, OverlayNode.entries_withSharing] at affords
  obtain ⟨root, left, ran, _, built, leveled⟩ := affords (4 * map.root.overlayHeight + 8) (by omega)
  exact ⟨root, left, ran, built, fun balanced => (leveled (by simpa using balanced)).1⟩

variable {map : PersistentOverlayMap K V}

theorem built_of_insertOverlayNode {references : List Bool → Bool} {left : Nat}
    (inserted : OverlayNode.insertOverlayNode key value false
      (map.root.withSharing references []) (4 * map.root.overlayHeight + 8) = .ok (root, left)) :
    OverlayNode.Built (put compare key value map.entries) root := by
  obtain ⟨result, rest, ran, built, _⟩ := map.insertOverlayNode_succeeds references key value
  rw [inserted] at ran
  cases ran
  exact built

theorem Built.ordered (built : OverlayNode.Built (put compare key value map.entries) root) :
    Ascending compare root.entries := by
  rw [built.entries]
  exact map.ordered.put key value

/-- All copies are admitted first. A failure after that would leave the map without its root. -/
def insert (allocation : Allocation) (key : K) (value : V) :
    Method (PersistentOverlayMap K V) StorageValueError Unit := fun map =>
  if maxOverlayHeight < map.root.overlayHeight ∨ allocation.granted = false then
    (.error .limitExceeded, map)
  else
    match inserted : OverlayNode.insertOverlayNode key value false
        (map.root.withSharing allocation.references []) (4 * map.root.overlayHeight + 8) with
    | .error _ => (.error .limitExceeded, empty)
    | .ok (root, _) =>
      (.ok ⟨⟩, ⟨root, Built.ordered (built_of_insertOverlayNode inserted),
        (built_of_insertOverlayNode inserted).measured⟩)

/-- An insertion is refused before it touches the map, or it puts its row. -/
theorem insert_cases (allocation : Allocation) (key : K) (value : V)
    (map : PersistentOverlayMap K V) :
    (maxOverlayHeight < map.root.overlayHeight ∨ allocation.granted = false) ∧
        insert allocation key value map = (.error .limitExceeded, map) ∨
      ∃ after, insert allocation key value map = (.ok ⟨⟩, after) ∧
        after.entries = put compare key value map.entries ∧
          (map.root.Balanced → after.root.Balanced) := by
  unfold insert
  split
  · next refused => exact Or.inl ⟨refused, rfl⟩
  · right
    obtain ⟨_, _, ran, built, leveled⟩ :=
      map.insertOverlayNode_succeeds allocation.references key value
    split
    · next failed =>
      rw [failed] at ran
      cases ran
    · next inserted =>
      rw [inserted] at ran
      cases ran
      exact ⟨_, rfl, built.entries, leveled⟩

theorem keeps_insert (allocation : Allocation) (key : K) (value : V)
    (map : PersistentOverlayMap K V) : Keeps (insert allocation key value) map := by
  intro reason after refused
  rcases insert_cases allocation key value map with ⟨_, unchanged⟩ | ⟨changed, accepted, _⟩
  · rw [unchanged] at refused
    exact (Prod.mk.inj refused).2.symm
  · rw [accepted] at refused
    cases refused

theorem entries_of_insert {allocation : Allocation} {map after : PersistentOverlayMap K V}
    (inserted : insert allocation key value map = (.ok ⟨⟩, after)) :
    after.entries = put compare key value map.entries := by
  rcases insert_cases allocation key value map with ⟨_, unchanged⟩ | ⟨changed, accepted, puts, _⟩
  · rw [unchanged] at inserted
    cases inserted
  · rw [accepted] at inserted
    cases inserted
    exact puts

theorem get_eq_lookup [BEq K] [LawfulBEq K] (map : PersistentOverlayMap K V) (key : K) :
    map.get key = map.entries.lookup key := OverlayNode.get_eq_lookup key map.ordered

/-- A bound of a range. -/
inductive Bound (K : Type) where
  | included (key : K)
  | excluded (key : K)
  | unbounded

/-- The keys before a first bound. -/
def Bound.isBefore : Bound K → K → Bool
  | .included start, key => compare key start = .lt
  | .excluded start, key => compare key start ≠ .gt
  | .unbounded, _ => false

/-- The keys past a last bound. -/
def Bound.isBeyond : Bound K → K → Bool
  | .included stop, key => compare key stop = .gt
  | .excluded stop, key => compare key stop ≠ .lt
  | .unbounded, _ => false

/-- `range` and `range_reverse` enter at opposite bounds. -/
def rangeBetween (map : PersistentOverlayMap K V) (direction : Direction) (start stop : Bound K) :
    PersistentOverlayRange K V :=
  match direction with
  | .ascending => .new .ascending start.isBefore stop.isBeyond map.root
  | .descending => .new .descending stop.isBeyond start.isBefore map.root

omit [Std.LawfulEqOrd K] in
theorem remaining_rangeBetween (map : PersistentOverlayMap K V) (direction : Direction)
    (start stop : Bound K) : (map.rangeBetween direction start stop).remaining =
      (direction.arrange map.entries).filter fun row =>
        !start.isBefore row.1 && !stop.isBeyond row.1 := by
  have before : ∀ earlier later : K, compare earlier later = .lt →
      start.isBefore later = true → start.isBefore earlier = true := by
    intro earlier later below isBefore
    cases start with
    | included start => exact decide_eq_true (Std.TransCmp.lt_trans below
        (of_decide_eq_true isBefore))
    | excluded start =>
      refine decide_eq_true fun above => of_decide_eq_true isBefore ?_
      rw [Std.OrientedCmp.gt_iff_lt] at above ⊢
      exact Std.TransCmp.lt_trans above below
    | unbounded => cases isBefore
  have beyond : ∀ earlier later : K, compare earlier later = .lt →
      stop.isBeyond earlier = true → stop.isBeyond later = true := by
    intro earlier later below isBeyond
    cases stop with
    | included stop =>
      have past := Std.OrientedCmp.gt_iff_lt.mp (of_decide_eq_true isBeyond)
      exact decide_eq_true (Std.OrientedCmp.gt_iff_lt.mpr (Std.TransCmp.lt_trans past below))
    | excluded stop =>
      exact decide_eq_true fun inside =>
        of_decide_eq_true isBeyond (Std.TransCmp.lt_trans below inside)
    | unbounded => cases isBeyond
  cases direction with
  | ascending => exact PersistentOverlayRange.remaining_new .ascending before beyond map.ordered
  | descending =>
    have reversed := PersistentOverlayRange.remaining_new .descending
      (fun earlier later below => beyond later earlier below)
      (fun earlier later below => before later earlier below) map.ordered
    rw [rangeBetween, reversed]
    congr 1
    funext row
    exact Bool.and_comm _ _

/-- A range from a first key, up to but not including a last one. -/
structure KeyRange (K : Type) where
  startInclusive : K
  endExclusive : Option K

namespace KeyRange

def start (range : KeyRange K) : Bound K := .included range.startInclusive

def stop (range : KeyRange K) : Bound K := range.endExclusive.elim .unbounded .excluded

def contains (range : KeyRange K) (key : K) : Bool :=
  !range.start.isBefore key && !range.stop.isBeyond key

end KeyRange

/-- What makes a version: a bulk build, or an insertion into a version that is still there. -/
inductive Operation (K V : Type) [Ord K] where
  | build (rows : List (K × V)) (ordered : Ascending compare rows)
  | insert (version : Nat) (allocation : Allocation) (key : K) (value : V)

/-- The versions, the newest first. -/
def apply (versions : List (PersistentOverlayMap K V)) :
    Operation K V → List (PersistentOverlayMap K V)
  | .build rows ordered => fromSortedEntries rows ordered :: versions
  | .insert version allocation key value =>
    (insert allocation key value (versions.getD version empty)).2 :: versions

theorem apply_balanced {versions : List (PersistentOverlayMap K V)}
    (balanced : ∀ map ∈ versions, map.root.Balanced) (operation : Operation K V) :
    ∀ map ∈ apply versions operation, map.root.Balanced := by
  cases operation with
  | build rows ordered =>
      exact forall_mem_cons.mpr ⟨balanced_fromSortedEntries rows ordered, balanced⟩
  | insert version allocation key value =>
    refine forall_mem_cons.mpr ⟨?_, balanced⟩
    have before : (versions.getD version empty).root.Balanced := by
      rw [getD_eq_getElem?_getD]
      cases found : versions[version]? with
      | none => trivial
      | some map => exact balanced map (mem_of_getElem? found)
    rcases insert_cases allocation key value (versions.getD version empty) with
      ⟨_, unchanged⟩ | ⟨after, accepted, _, keeps⟩
    · rw [unchanged]
      exact before
    · rw [accepted]
      exact keeps before

/-- Every version of every run is a balanced search tree with exact heights, and later operations
leave it as it is. Its iterators yield the rows between any two bounds, in either direction. An
insertion whose nodes are not admitted changes nothing; one whose nodes are admitted succeeds,
whatever other versions share, and changes the value of its key alone. -/
theorem overlay_map_exact (operations more : List (Operation K V)) :
    Runs.run apply [] operations <:+ Runs.run apply [] (operations ++ more) ∧
    ∀ map ∈ Runs.run apply [] operations,
      map.root.Balanced ∧ map.root.Measured ∧ Ascending compare map.entries ∧
      (∀ direction start stop, (map.rangeBetween direction start stop).Yields
        ((direction.arrange map.entries).filter fun row => !start.isBefore row.1 &&
        !stop.isBeyond row.1)) ∧ ∀ allocation key value,
        (allocation.granted = false → insert allocation key value map =
          (.error .limitExceeded, map)) ∧ (allocation.granted = true → map.entries.length < 2 ^ 64 →
          ∃ after, insert allocation key value map = (.ok ⟨⟩, after) ∧
            after.root.Balanced ∧ after.root.Measured ∧ Ascending compare after.entries ∧
            after.get key = some value ∧ ∀ other, other ≠ key → after.get other =
            map.get other) := by
  have balanced := Runs.run_invariant (P := fun versions : List (PersistentOverlayMap K V) =>
    ∀ map ∈ versions, map.root.Balanced) (fun _ operation kept => apply_balanced kept operation)
    (forall_mem_nil _) operations
  refine ⟨?_, fun map member => ⟨balanced map member, map.measured, map.ordered, ?_, ?_⟩⟩
  · rw [Runs.run_append]
    refine Runs.run_invariant (P := fun versions => _ <:+ versions)
      (fun versions operation kept => ?_)
      (suffix_refl _) more
    cases operation <;> exact kept.trans (suffix_cons _ _)
  · intro direction start stop
    rw [← remaining_rangeBetween]
    exact PersistentOverlayRange.yields_remaining _
  · intro allocation key value
    refine ⟨fun refused => if_pos (.inr refused), fun granted few => ?_⟩
    rcases insert_cases allocation key value map with
      ⟨high | refused, _⟩ | ⟨after, accepted, puts, keeps⟩
    · exact absurd (overlayHeight_le (balanced map member) few) (Nat.not_le.mpr high)
    · rw [granted] at refused
      cases refused
    · classical
      refine ⟨after, accepted, keeps (balanced map member), after.measured, after.ordered, ?_, ?_⟩
      · rw [get_eq_lookup, puts, lookup_put, if_pos BEq.rfl]
      · intro other different
        rw [get_eq_lookup, get_eq_lookup, puts, lookup_put, if_neg (by simpa using different)]

/-- An insertion into a tree whose nodes are all shared. -/
theorem overlay_map_exact_shared : ∃ after, insert ⟨true, fun _ => true⟩ 1 10
      (fromSortedEntries [(2, 20)] (pairwise_singleton _ _)) = (.ok ⟨⟩, after) ∧
    after.get 1 = some 10 ∧ after.get 2 = some 20 := by
  obtain ⟨_, _, _, _, inserts⟩ :=
    (overlay_map_exact [.build [(2, 20)] (pairwise_singleton _ _)] []).2
    _ mem_cons_self
  obtain ⟨after, inserted, _, _, _, found, others⟩ :=
    (inserts ⟨true, fun _ => true⟩ 1 10).2 rfl (by decide)
  exact ⟨after, inserted, found, others 2 (by decide)⟩

/-- The owner of the node memory refuses. -/
theorem overlay_insert_refused :
    (insert ⟨false, fun _ => false⟩ 1 10 (empty : PersistentOverlayMap Nat Nat)).1 =
      .error .limitExceeded := rfl

end PersistentOverlayMap

end OverlayMap
