import RiffDb.CanonicalValues
import RiffDb.SortedRows

/-!
# Canonical records and their fields

A record is a list of fields in strictly increasing order of their identifiers. Looking a field
up and assigning one are the two operations the runtime uses; an assignment changes the one
field and nothing else, and it keeps fields that the current schema does not know.
-/

namespace CanonicalRecords

open CheckedCode CanonicalScalars CanonicalValues SortedRows List

mutual

/-- Structural equality. -/
def same : CanonicalValue → CanonicalValue → Bool
  | .null, .null => true
  | .bool left, .bool right => left = right
  | .i64 left, .i64 right => left = right
  | .u64 left, .u64 right => left = right
  | .decimal left, .decimal right => left = right
  | .money left, .money right => left = right
  | .string left, .string right => left = right
  | .bytes left, .bytes right => left = right
  | .timestamp left, .timestamp right => left = right
  | .date left, .date right => left = right
  | .uuid left, .uuid right => left = right
  | .enum leftType left, .enum rightType right => leftType = rightType ∧ left = right
  | .list left, .list right => sameList left right
  | .record left, .record right => sameFields left right
  | .vector left, .vector right => left = right
  | _, _ => false

def sameList : List CanonicalValue → List CanonicalValue → Bool
  | [], [] => true
  | left :: lefts, right :: rights => same left right && sameList lefts rights
  | _, _ => false

def sameFields : List (FieldId × CanonicalValue) → List (FieldId × CanonicalValue) → Bool
  | [], [] => true
  | (leftId, left) :: lefts, (rightId, right) :: rights =>
      leftId = rightId && same left right && sameFields lefts rights
  | _, _ => false

end

mutual

theorem same_iff : ∀ left right : CanonicalValue, same left right = true ↔ left = right
  | left, right => by
    cases left with
    | list left =>
      cases right with
      | list right => simp [same, sameList_iff left right]
      | _ => simp [same]
    | record left =>
      cases right with
      | record right => simp [same, sameFields_iff left right]
      | _ => simp [same]
    | _ => cases right <;> simp [same]

theorem sameList_iff : ∀ left right : List CanonicalValue, sameList left right = true ↔ left = right
  | [], right => by cases right <;> simp [sameList]
  | left :: lefts, right => by
    cases right with
    | nil => simp [sameList]
    | cons right rights => simp [sameList, same_iff left right, sameList_iff lefts rights]

theorem sameFields_iff : ∀ left right : List (FieldId × CanonicalValue),
    sameFields left right = true ↔ left = right
  | [], right => by cases right <;> simp [sameFields]
  | (leftId, left) :: lefts, right => by
    cases right with
    | nil => simp [sameFields]
    | cons field rights =>
      simp [sameFields, same_iff left field.2, sameFields_iff lefts rights, Prod.ext_iff]

end

instance : DecidableEq CanonicalValue := fun left right => decidable_of_iff _ (same_iff left right)

@[ext] structure CanonicalRecord where
  fields : List (FieldId × CanonicalValue)
  increasing : Increasing fields
deriving DecidableEq

namespace CanonicalRecord

def empty : CanonicalRecord := ⟨[], List.Pairwise.nil⟩

variable {fields : List (FieldId × CanonicalValue)}

/-- Sorted fields without equal neighbours increase strictly. -/
theorem increasing_of_distinct (sorted : fields.Pairwise fun left right => left.1.get ≤ right.1.get)
    (distinct : duplicateField fields = none) : Increasing fields := by
  induction fields with
  | nil => exact List.Pairwise.nil
  | cons first rest ih =>
    obtain ⟨below, others⟩ := pairwise_cons.mp sorted
    cases rest with
    | nil => exact pairwise_singleton _ _
    | cons second rest =>
      rw [duplicateField] at distinct
      split at distinct
      · cases distinct
      · next apart =>
        have later := ih others distinct
        have step : first.1.get < second.1.get := by
          refine UInt32.lt_of_le_of_ne (below second mem_cons_self) fun same => ?_
          exact apart (NonZeroU32.ext same)
        refine pairwise_cons.mpr ⟨fun field member => ?_, later⟩
        rcases mem_cons.mp member with rfl | member
        · exact step
        · exact UInt32.lt_trans step ((pairwise_cons.mp later).1 field member)

variable {fields result : List (FieldId × CanonicalValue)}

theorem new_eq_ok (built : CanonicalRecord.new fields = .ok result) :
    result = fields.mergeSort (fun left right => left.1.get ≤ right.1.get) ∧
      duplicateField result = none := by
  simp only [CanonicalRecord.new, bind_eq_ok] at built
  obtain ⟨_, _, built⟩ := built
  split at built
  · cases built
  · next distinct =>
    obtain ⟨_, _, built⟩ := bind_eq_ok.mp built
    cases built
    exact ⟨rfl, distinct⟩

theorem increasing_of_new
    (built : CanonicalRecord.new fields = .ok result) : Increasing result := by
  obtain ⟨rfl, distinct⟩ := new_eq_ok built
  refine increasing_of_distinct ?_ distinct
  refine (pairwise_mergeSort ?_ ?_ fields).imp fun less => of_decide_eq_true less
  · intro first second third low high
    exact decide_eq_true (UInt32.le_trans (of_decide_eq_true low) (of_decide_eq_true high))
  · intro first second
    simpa using UInt32.le_total first.1.get second.1.get

/-- The checked constructor: bounded, shallow and without repeated fields. -/
def ofFields (fields : List (FieldId × CanonicalValue)) : Except ValueError CanonicalRecord :=
  match built : CanonicalRecord.new fields with
  | .ok result => .ok ⟨result, increasing_of_new built⟩
  | .error reason => .error reason

variable {record : CanonicalRecord}

theorem ofFields_eq_ok
    (formed : ofFields fields = .ok record) : CanonicalRecord.new fields = .ok record.fields := by
  unfold ofFields at formed
  split at formed
  · next built =>
    cases formed
    exact built
  · cases formed

/-- Fields that increase already are kept as they stand. -/
theorem fields_of_increasing (increasing : Increasing fields)
    (formed : ofFields fields = .ok record) : record.fields = fields := by
  obtain ⟨sorted, _⟩ := new_eq_ok (ofFields_eq_ok formed)
  rw [sorted]
  apply mergeSort_of_pairwise
  exact increasing.imp fun less => decide_eq_true (UInt32.le_of_lt less)

/-- The order of the identifiers. -/
def order (left right : FieldId) : Ordering := compare left.get right.get

instance : Std.TransCmp order := inferInstanceAs (Std.TransCmp (compareOn NonZeroU32.get))

instance : Std.LawfulEqCmp order where
  eq_of_compare same := NonZeroU32.ext (Std.LawfulEqCmp.eq_of_compare same)
  compare_self := Std.ReflCmp.compare_self

theorem ascending_iff : Ascending order fields ↔ Increasing fields := by
  simp only [Ascending, order, Std.compare_eq_lt, Increasing]

/-- The identifiers are sorted, so the search finds the one field with the identifier. -/
def recordField (record : CanonicalRecord) (fieldId : FieldId) : Option CanonicalValue :=
  record.fields.lookup fieldId

/-- Replaces the field that the search finds, or inserts one where the search ended. -/
def assign (fieldId : FieldId) (value : CanonicalValue) (fields : List (FieldId × CanonicalValue)) :
    List (FieldId × CanonicalValue) := put order fieldId value fields

variable {value : CanonicalValue} {fieldId : FieldId}

theorem increasing_assign (fieldId : FieldId) (value : CanonicalValue)
    (increasing : Increasing fields) : Increasing (assign fieldId value fields) :=
  ascending_iff.mp ((ascending_iff.mpr increasing).put fieldId value)

/-- One field of the record set to a value; the result is rebuilt by the constructor. -/
def setField (record : CanonicalRecord) (fieldId : FieldId) (value : CanonicalValue) :
    Except ValueError CanonicalRecord :=
  ofFields (assign fieldId value record.fields)

/-- An assignment fails only at the bounds of a record. -/
theorem setField_of_bounded (bounded :
    (assign fieldId value record.fields).length ≤ maxRecordFields)
    (shallow : CanonicalValue.fieldDepth (assign fieldId value record.fields) ≤ maxNestingDepth) :
    record.setField fieldId value = .ok ⟨assign fieldId value record.fields,
      increasing_assign fieldId value record.increasing⟩ := by
  have built := CanonicalRecord.new_of_increasing bounded
    (increasing_assign fieldId value record.increasing) shallow
  unfold setField ofFields
  split
  · next result formed =>
    rw [built] at formed
    cases formed
    rfl
  · next formed =>
    rw [built] at formed
    cases formed

theorem recordField_setField {record result : CanonicalRecord}
    (set : record.setField fieldId value = .ok result) (other : FieldId) :
    result.recordField other = if other = fieldId then some value
      else record.recordField other := by
  have fields := fields_of_increasing (increasing_assign fieldId value record.increasing) set
  simpa [recordField, fields, assign] using lookup_put fieldId other value record.fields

end CanonicalRecord

end CanonicalRecords
