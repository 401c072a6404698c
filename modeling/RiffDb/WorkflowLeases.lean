import RiffDb.CommandExecution

/-!
# Fencing of workflow leases

An entity with a lease has an owner, an expiry and a fencing token, written by the five lease
operations only. The token of the stored entity never falls and rises with every claim that is
committed; whoever presents a token from before that claim is rejected from then on, at whatever
time and under whatever name.
-/

namespace WorkflowLeases

open ByteWire CheckedCode EarlyReturn CanonicalScalars CanonicalValues CanonicalRecords ValueTypes
  KeySchemas CanonicalRecord List
open CommandPlans CommandRuntime CommandExecution

variable {unavailable : OutcomeConstruction} {value : UInt64}

section Checks

variable {exec : Execution} {records roots : Records} {element : Option CanonicalValue} {α : Type}

variable {outcome : OutcomeConstruction}

theorem reject_ne_ok {value : α} :
    reject exec records roots element outcome ≠ .ok value := leave_ne_ok

theorem requireOr_eq_ok {condition : Prop} [Decidable condition] {result : Unit} :
    requireOr exec records roots element condition outcome = .ok result ↔ condition := by
  unfold requireOr
  by_cases holds : condition
  · simp [holds]
  · simp [holds, reject_ne_ok]

theorem presentOr_eq_ok {value : Option α} {result : α} :
    presentOr exec records roots element value outcome = .ok result ↔ value = some result := by
  cases value with
  | none => simp [presentOr, reject_ne_ok]
  | some value => simp [presentOr]

variable {invalid : OutcomeConstruction}

theorem expiryInstant_eq_ok {expiry : CanonicalValue} {instant : Timestamp} :
    expiryInstant exec records roots element expiry invalid = .ok instant ↔
      expiry = .timestamp instant := by
  cases expiry <;> simp [expiryInstant, reject_ne_ok]

theorem requireAvailable_eq_ok {owner expiry : CanonicalValue}
    (available : requireAvailable exec records roots element owner expiry unavailable = .ok ()) :
    (owner = .null ∧ expiry = .null) ∨ ∃ holder instant, owner = .uuid holder ∧
      expiry = .timestamp instant ∧ instant ≤ exec.txTime := by
  unfold requireAvailable at available
  split at available
  · exact .inl ⟨rfl, rfl⟩
  · exact .inr ⟨_, _, rfl, rfl, requireOr_eq_ok.mp available⟩
  · cases available

theorem evaluateExpr_eq_ok {expression : ExprId} {value : CanonicalValue} :
    evaluateExpr exec records roots element expression = .ok value ↔
      exec.evaluator (exec.values records roots element) expression = .ok value := by
  simp [evaluateExpr, Execution.evaluate]

theorem requireHolder_eq_ok {current : CurrentLease} {owner fencingToken : ExprId}
    (holder :
      requireHolder exec records roots element current owner fencingToken invalid = .ok ()) :
    exec.evaluator (exec.values records roots element) fencingToken = .ok (.u64 current.fence) := by
  simp only [requireHolder, bind_eq_ok, requireOr_eq_ok, evaluateExpr_eq_ok] at holder
  obtain ⟨_, _, _, _, presented, evaluated, rfl⟩ := holder
  exact evaluated

theorem checkedIncrement_eq_some {next : UInt64}
    (incremented : checkedIncrement value = some next) : next.toNat = value.toNat + 1 := by
  unfold checkedIncrement at incremented
  split at incremented
  · next fits =>
    cases incremented
    rw [UInt64.toNat_add]
    exact Nat.mod_eq_of_lt fits
  · cases incremented

end Checks

/-- The value a list of assignments leaves in a field. -/
def assigned (writes : List (FieldId × CanonicalValue)) (fieldId : FieldId)
    (before : Option CanonicalValue) : Option CanonicalValue :=
  writes.foldl (fun value write => if fieldId = write.1 then some write.2 else value) before

variable {writes : List (FieldId × CanonicalValue)} {fieldId : FieldId}

theorem assigned_of_not_mem
    (absent : fieldId ∉ writes.map Prod.fst) (before : Option CanonicalValue) :
    assigned writes fieldId before = before := by
  induction writes generalizing before with
  | nil => rfl
  | cons write rest ih =>
    rw [map_cons, mem_cons, not_or] at absent
    rw [assigned, foldl_cons, if_neg absent.1]
    exact ih absent.2 before

variable {record : CanonicalRecord}

theorem setWorkingFields_eq_ok {exec : Execution} {bindingId : BindingId} {records result : Records}
    (held : records[bindingId]? = some (some record))
    (set : setWorkingFields exec bindingId records writes = .ok result) :
    ∃ updated, result[bindingId]? = some (some updated) ∧
      ∀ fieldId, updated.recordField fieldId =
        assigned writes fieldId (record.recordField fieldId) := by
  induction writes generalizing records record with
  | nil =>
    cases set
    exact ⟨record, held, fun _ => rfl⟩
  | cons write rest ih =>
    simp only [setWorkingFields, bind_eq_ok, attempt_eq_ok] at set
    obtain ⟨written, first, later⟩ := set
    obtain ⟨before, updated, heldBefore, setField, rfl⟩ := setWorkingField_eq_ok first
    rw [held] at heldBefore
    cases heldBefore
    have inside : bindingId < records.length := (List.getElem?_eq_some_iff.mp held).1
    obtain ⟨last, heldLast, fields⟩ := ih (List.getElem?_set_self inside) later
    refine ⟨last, heldLast, fun fieldId => ?_⟩
    rw [fields, recordField_setField setField]
    rfl

def isClaim : WorkflowLeaseOperation → Bool
  | .claim .. => true
  | _ => false

/-- The expression whose value a renewal, a release or a fence presents as its token. -/
def fencingToken : WorkflowLeaseOperation → Option ExprId
  | .renew _ fencingToken .. | .release _ fencingToken .. | .fence _ fencingToken .. =>
      some fencingToken
  | .claim .. | .expire .. => none

variable (fields : WorkflowLeaseFields)

/-- The fencing token a record holds. -/
def token (record : CanonicalRecord) : Nat :=
  match record.recordField fields.fencingTokenField with
  | some (.u64 value) => value.toNat
  | _ => 0

/-- Owner and expiry are both set or both null, and the token is a number. -/
structure Paired (record : CanonicalRecord) : Prop where
  together : (record.recordField fields.ownerField = some .null ∧
      record.recordField fields.expiryField = some .null) ∨
    ∃ owner expiry, record.recordField fields.ownerField = some (.uuid owner) ∧
      record.recordField fields.expiryField = some (.timestamp expiry)
  numbered : ∃ value, record.recordField fields.fencingTokenField = some (.u64 value)

/-- The lease is held at the instant: it ends later. -/
def UnexpiredAt (record : CanonicalRecord) (now : Timestamp) : Prop :=
  ∃ expiry, record.recordField fields.expiryField = some (.timestamp expiry) ∧ ¬ expiry ≤ now

/-- Agreement on the fields of the lease; whatever else a command writes is left open. -/
structure SameLease (left right : CanonicalRecord) : Prop where
  owner : left.recordField fields.ownerField = right.recordField fields.ownerField
  expiry : left.recordField fields.expiryField = right.recordField fields.expiryField
  token : left.recordField fields.fencingTokenField = right.recordField fields.fencingTokenField

/-- Agreement of a working record with what an operation read from it. -/
structure Reads (record : CanonicalRecord) (current : CurrentLease) : Prop where
  owner : record.recordField fields.ownerField = some current.owner
  expiry : record.recordField fields.expiryField = some current.expiry
  fence : record.recordField fields.fencingTokenField = some (.u64 current.fence)

/-- What a passed operation does to a lease: it stays paired, its token does not fall, and a
claim raises the token of a lease that nobody holds. -/
structure Step (now : Timestamp) (operation : WorkflowLeaseOperation)
    (before after : CanonicalRecord) : Prop where
  paired : Paired fields after
  kept : token fields before ≤ token fields after
  claimed : isClaim operation = true →
    token fields before < token fields after ∧ ¬ UnexpiredAt fields before now

variable {fields}

theorem SameLease.refl (record : CanonicalRecord) : SameLease fields record record :=
  ⟨rfl, rfl, rfl⟩

theorem SameLease.trans {first second third : CanonicalRecord}
    (left : SameLease fields first second)
    (right : SameLease fields second third) : SameLease fields first third :=
  ⟨left.owner.trans right.owner, left.expiry.trans right.expiry, left.token.trans right.token⟩

variable {left right : CanonicalRecord}

theorem SameLease.token_eq (same : SameLease fields left right) :
    WorkflowLeases.token fields left = WorkflowLeases.token fields right := by
  rw [WorkflowLeases.token, same.token, WorkflowLeases.token]

theorem SameLease.paired (same : SameLease fields left right) (paired : Paired fields left) :
    Paired fields right := by
  obtain ⟨together, numbered⟩ := paired
  rw [same.owner, same.expiry] at together
  rw [same.token] at numbered
  exact ⟨together, numbered⟩

theorem token_of_eq (held : record.recordField fields.fencingTokenField = some (.u64 value)) :
    token fields record = value.toNat := by
  rw [token, held]

theorem ownerField_ne_expiryField : fields.ownerField ≠ fields.expiryField := by
  have distinct := fields.distinct
  simp only [cons_append, nodup_cons, mem_cons, not_or] at distinct
  exact distinct.1.1

theorem ownerField_ne_fencingTokenField : fields.ownerField ≠ fields.fencingTokenField := by
  have distinct := fields.distinct
  simp only [cons_append, nodup_cons, mem_cons, not_or] at distinct
  exact distinct.1.2.1

theorem expiryField_ne_fencingTokenField : fields.expiryField ≠ fields.fencingTokenField := by
  have distinct := fields.distinct
  simp only [cons_append, nodup_cons, mem_cons, not_or] at distinct
  exact distinct.2.1.1

theorem not_mem_attemptWrites (attempt : Option UInt64)
    (lease : fieldId ∈ [fields.ownerField, fields.expiryField, fields.fencingTokenField]) :
    fieldId ∉ (attemptWrites fields.attemptField attempt).map Prod.fst := by
  have disjoint := (nodup_append.mp fields.distinct).2.2
  intro member
  cases fieldCase : fields.attemptField with
  | none => simp [attemptWrites, fieldCase] at member
  | some attemptField =>
    cases attempt with
    | none => simp [attemptWrites, fieldCase] at member
    | some value =>
      simp only [attemptWrites, fieldCase, map_cons, map_nil, mem_singleton] at member
      exact disjoint fieldId lease attemptField (by simp [fieldCase]) member

variable (fields) in
/-- What the fields of the lease hold after a claim's assignments. -/
theorem assigned_lease (owner expiry fence : CanonicalValue) (attempt : Option UInt64)
    (before : FieldId → Option CanonicalValue) :
    let writes := [(fields.ownerField, owner), (fields.expiryField, expiry),
      (fields.fencingTokenField, fence)] ++ attemptWrites fields.attemptField attempt
    assigned writes fields.ownerField (before fields.ownerField) = some owner ∧
      assigned writes fields.expiryField (before fields.expiryField) = some expiry ∧
      assigned writes fields.fencingTokenField (before fields.fencingTokenField) = some fence := by
  have last :
    ∀ fieldId value, fieldId ∈ [fields.ownerField, fields.expiryField, fields.fencingTokenField] →
      assigned (attemptWrites fields.attemptField attempt) fieldId value = value :=
    fun fieldId value lease => assigned_of_not_mem (not_mem_attemptWrites attempt lease) value
  simp only [assigned, foldl_append] at last ⊢
  rw [last _ _ (by simp), last _ _ (by simp), last _ _ (by simp)]
  simp [ownerField_ne_expiryField, ownerField_ne_fencingTokenField,
    expiryField_ne_fencingTokenField]

section Operations

variable {exec : Execution} {records roots written : Records} {element : Option CanonicalValue}
  {bindingId : BindingId} {record : CanonicalRecord} {current : CurrentLease}

theorem u64Field_eq_ok :
    u64Field record fieldId = .ok value ↔ record.recordField fieldId = some (.u64 value) := by
  unfold u64Field
  split <;> simp_all

theorem currentLease_reads (read : currentLease record fields = .ok current) :
    Reads fields record current := by
  simp only [currentLease, bind_eq_ok, okOr_eq_ok, u64Field_eq_ok, Except.ok.injEq] at read
  obtain ⟨owner, ownerHeld, expiry, expiryHeld, fence, fenceHeld, attempt, _, rfl⟩ := read
  exact ⟨ownerHeld, expiryHeld, fenceHeld⟩

variable {operation : WorkflowLeaseOperation}

/-- Clearing owner and expiry keeps the token. -/
theorem cleared (other : isClaim operation = false)
    (reads : Reads fields record current) (held : records[bindingId]? = some (some record))
    (set : setWorkingFields exec bindingId records
      [(fields.ownerField, .null), (fields.expiryField, .null)] = .ok written) :
    ∃ after, written[bindingId]? = some (some after) ∧
      Step fields exec.txTime operation record after := by
  obtain ⟨after, heldAfter, values⟩ := setWorkingFields_eq_ok held set
  have tokenKept : after.recordField fields.fencingTokenField = some (.u64 current.fence) := by
    rw [values, assigned_of_not_mem, reads.fence]
    simp [ownerField_ne_fencingTokenField.symm, expiryField_ne_fencingTokenField.symm]
  refine ⟨after, heldAfter, ⟨.inl ⟨?_, ?_⟩, current.fence, tokenKept⟩, ?_, ?_⟩
  · simp [values, assigned, ownerField_ne_expiryField]
  · simp [values, assigned]
  · rw [token_of_eq reads.fence, token_of_eq tokenKept]
  · rw [other]
    rintro ⟨⟩

variable {revision : Nat}

section

variable (reads : Reads fields record current) (held : records[bindingId]? = some (some record))

include reads held

variable {durationSeconds expectedRevision : ExprId} {stale invalid exhausted : OutcomeConstruction}

theorem claim_step {owner : ExprId}
    (ran : leaseOperation exec records roots element bindingId fields revision current
      (.claim owner durationSeconds expectedRevision stale unavailable invalid exhausted) =
      .ok written) : ∃ after, written[bindingId]? = some (some after) ∧ Step fields exec.txTime
      (.claim owner durationSeconds expectedRevision stale unavailable invalid exhausted)
        record after := by
  simp only [leaseOperation, bind_eq_ok, presentOr_eq_ok, Option.filter_eq_some_iff] at ran
  obtain ⟨_, _, holder, _, duration, _, _, _, _, available, next, ⟨incremented, _⟩, attempt, _,
    expiry, _, set⟩ := ran
  have raised := checkedIncrement_eq_some incremented
  obtain ⟨after, heldAfter, values⟩ := setWorkingFields_eq_ok held set
  obtain ⟨ownerSet, expirySet, tokenSet⟩ := assigned_lease fields (.uuid holder)
    (.timestamp expiry) (.u64 next) attempt record.recordField
  rw [← values] at ownerSet expirySet tokenSet
  refine ⟨after, heldAfter, ⟨.inr ⟨holder, expiry, ownerSet, expirySet⟩, next, tokenSet⟩, ?_, ?_⟩
  · rw [token_of_eq reads.fence, token_of_eq tokenSet]
    omega
  · intro _
    refine ⟨by rw [token_of_eq reads.fence, token_of_eq tokenSet]; omega, ?_⟩
    -- an unexpired lease would have been refused as unavailable
    rintro ⟨instant, expiryHeld, later⟩
    rw [reads.expiry, Option.some.injEq] at expiryHeld
    rcases requireAvailable_eq_ok available with ⟨_, none⟩ | ⟨_, ended, _, ends, past⟩
    · rw [none] at expiryHeld
      cases expiryHeld
    · rw [ends] at expiryHeld
      cases expiryHeld
      exact later past

theorem renew_step {owner token : ExprId} {expired : OutcomeConstruction}
    (paired : Paired fields record)
    (ran : leaseOperation exec records roots element bindingId fields revision current
      (.renew owner token durationSeconds expectedRevision stale invalid expired exhausted) =
      .ok written) : (∃ after, written[bindingId]? = some (some after) ∧ Step fields exec.txTime
      (.renew owner token durationSeconds expectedRevision stale invalid expired exhausted)
      record after) ∧
    exec.evaluator (exec.values records roots element) token = .ok (.u64 current.fence) := by
  simp only [leaseOperation, bind_eq_ok, presentOr_eq_ok, requireOr_eq_ok, expiryInstant_eq_ok,
    evaluateExpr_eq_ok] at ran
  obtain ⟨_, _, _, _, _, presented, _, _, _, _, _, ⟨_, rfl⟩, instant, ends, _, _, expiry, _, set⟩ :=
    ran
  refine ⟨?_, presented⟩
  obtain ⟨after, heldAfter, values⟩ := setWorkingFields_eq_ok held set
  have ownerKept : after.recordField fields.ownerField = record.recordField fields.ownerField := by
    rw [values, assigned_of_not_mem]
    simp [ownerField_ne_expiryField]
  have tokenKept : after.recordField fields.fencingTokenField = some (.u64 current.fence) := by
    rw [values, assigned_of_not_mem, reads.fence]
    simp [expiryField_ne_fencingTokenField.symm]
  have expirySet : after.recordField fields.expiryField = some (.timestamp expiry) := by
    simp [values, assigned]
  refine ⟨after, heldAfter, ⟨?_, current.fence, tokenKept⟩, ?_, fun claims => by cases claims⟩
  · -- the lease that is renewed ends at an instant, so it has an owner
    rcases paired.together with ⟨_, unset⟩ | ⟨holder, _, ownerHeld, _⟩
    · rw [reads.expiry, ends] at unset
      cases unset
    · exact .inr ⟨holder, expiry, by rw [ownerKept, ownerHeld], expirySet⟩
  · rw [token_of_eq reads.fence, token_of_eq tokenKept]

/-- A passed operation takes one step, and the token it presents is the current one. -/
theorem leaseOperation_step (paired : Paired fields record)
    (ran : leaseOperation exec records roots element bindingId fields revision current operation =
      .ok written) : (∃ after, written[bindingId]? = some (some after) ∧
      Step fields exec.txTime operation record after) ∧
    ∀ expression, fencingToken operation = some expression →
      exec.evaluator (exec.values records roots element) expression = .ok (.u64 current.fence) := by
  cases operation with
  | claim owner durationSeconds expectedRevision stale unavailable invalid exhausted =>
    exact ⟨claim_step reads held ran, fun _ presents => by cases presents⟩
  | renew owner token durationSeconds expectedRevision stale invalid expired exhausted =>
    obtain ⟨stepped, presented⟩ := renew_step reads held paired ran
    refine ⟨stepped, fun expression presents => ?_⟩
    cases presents
    exact presented
  | release owner token expectedRevision stale invalid =>
    simp only [leaseOperation, bind_eq_ok] at ran
    obtain ⟨_, _, _, holder, _, _, set⟩ := ran
    refine ⟨cleared rfl reads held set, fun expression presents => ?_⟩
    cases presents
    exact requireHolder_eq_ok holder
  | expire expectedRevision stale active =>
    simp only [leaseOperation, bind_eq_ok] at ran
    obtain ⟨_, _, _, _, set⟩ := ran
    exact ⟨cleared rfl reads held set, fun _ presents => by cases presents⟩
  | fence owner token expectedRevision stale invalid expired =>
    simp only [leaseOperation, bind_eq_ok, Except.ok.injEq] at ran
    obtain ⟨_, _, _, holder, _, _, _, _, rfl⟩ := ran
    refine ⟨⟨record, held, paired, le_rfl, fun claims => by cases claims⟩,
      fun expression presents => ?_⟩
    cases presents
    exact requireHolder_eq_ok holder

end

end Operations

/-- One lease operation with everything it runs on. The binding stands for the entity. -/
structure Attempt where
  exec : Execution
  observation : EntityObservation
  records : Records
  roots : Records
  element : Option CanonicalValue
  binding : BindingId
  operation : WorkflowLeaseOperation

namespace Attempt

variable (fields)

def execute (attempt : Attempt) : Except ExecutionFault (Option DeclaredOutcome × Records) :=
  executeWorkflowInstruction attempt.exec attempt.observation attempt.records attempt.roots
    attempt.element (.workflowLease ⟨attempt.binding, fields, attempt.operation⟩)

/-- The operation is not rejected; the command goes on. -/
def Passes (attempt : Attempt) : Prop := ∃ written, attempt.execute fields = .ok (none, written)

/-- A renewal, a release or a fence whose token expression has the value. -/
def Presents (attempt : Attempt) (presented : UInt64) : Prop :=
  ∃ expression, fencingToken attempt.operation = some expression ∧
    attempt.exec.evaluator (attempt.exec.values attempt.records attempt.roots attempt.element)
      expression = .ok (.u64 presented)

/-- Once the claim has passed, the attempt passes with no token from before the claim. -/
def Fences (claim attempt : Attempt) : Prop :=
  ∀ working presented, isClaim claim.operation = true → claim.Passes fields →
    claim.records[claim.binding]? = some (some working) → attempt.Presents presented →
      presented.toNat ≤ token fields working → ¬ attempt.Passes fields

variable {fields}

theorem execute_step {attempt : Attempt} {record : CanonicalRecord} {written : Records}
    (paired : Paired fields record) (held : attempt.records[attempt.binding]? = some (some record))
    (passed : attempt.execute fields = .ok (none, written)) :
    (∃ after, written[attempt.binding]? = some (some after) ∧
      Step fields attempt.exec.txTime attempt.operation record after) ∧
    ∀ presented, attempt.Presents presented → presented.toNat = token fields record := by
  have ran : workflowLease attempt.exec attempt.observation attempt.records attempt.roots
      attempt.element ⟨attempt.binding, fields, attempt.operation⟩ = .ok written := by
    unfold execute executeWorkflowInstruction at passed
    split at passed
    · next ran =>
      cases passed
      exact ran
    · cases passed
    · cases passed
  simp only [workflowLease, bind_eq_ok, attempt_eq_ok, okOr_eq_ok, Option.join_eq_some_iff] at ran
  obtain ⟨_, _, _, _, working, heldWorking, current, read, ran⟩ := ran
  rw [held] at heldWorking
  cases heldWorking
  have reads := currentLease_reads read
  obtain ⟨stepped, presents⟩ := leaseOperation_step reads held paired ran
  refine ⟨stepped, ?_⟩
  rintro presented ⟨expression, isToken, evaluated⟩
  rw [presents expression isToken] at evaluated
  cases evaluated
  exact (token_of_eq reads.fence).symm

end Attempt

variable (fields) in
/-- The lease operations of one command in order, on a working record that other instructions
may change elsewhere. The first operation that does not pass ends the command. -/
inductive Ran : CanonicalRecord → List Attempt → Option CanonicalRecord → Prop where
  | done {record last : CanonicalRecord} (same : SameLease fields record last) :
      Ran record [] (some last)
  | passed {record working next : CanonicalRecord} {attempt : Attempt} {rest : List Attempt}
      {last : Option CanonicalRecord} {written : Records} (same : SameLease fields record working)
      (held : attempt.records[attempt.binding]? = some (some working))
      (passes : attempt.execute fields = .ok (none, written))
      (left : written[attempt.binding]? = some (some next)) (later : Ran next rest last) :
      Ran record (attempt :: rest) last
  | stopped {record working : CanonicalRecord} {attempt : Attempt}
      (same : SameLease fields record working)
      (held : attempt.records[attempt.binding]? = some (some working))
      (refused : ¬ attempt.Passes fields) : Ran record [attempt] none

/-- The executed lease operations of one command, and whether the rest of it is committed. -/
structure LeaseCommand where
  attempts : List Attempt
  committed : Bool

namespace LeaseCommand

/-- The record that is stored once the command is over. -/
def stored (command : LeaseCommand) (before : CanonicalRecord) :
    Option CanonicalRecord → CanonicalRecord
  | some last => if command.committed then last else before
  | none => before

variable (fields)

def Moves (before : CanonicalRecord) (command : LeaseCommand) (after : CanonicalRecord) : Prop :=
  ∃ last, Ran fields before command.attempts last ∧
    SameLease fields (command.stored before last) after

/-- Every lease operation of the command passed and the command was committed. -/
def Succeeds (command : LeaseCommand) : Prop :=
  command.committed = true ∧ ∀ attempt ∈ command.attempts, attempt.Passes fields

end LeaseCommand

variable (fields) in
/-- What the operations of one command did, whether or not the last of them passed. -/
structure RunFacts (record : CanonicalRecord) (attempts : List Attempt)
    (last : Option CanonicalRecord) : Prop where
  reached :
    ∀ final, last = some final → Paired fields final ∧ token fields record ≤ token fields final ∧
    ((∃ attempt ∈ attempts, isClaim attempt.operation = true) →
      token fields record < token fields final)
  all : (∀ attempt ∈ attempts, attempt.Passes fields) → last.isSome = true
  available : ∀ attempt ∈ attempts, isClaim attempt.operation = true → attempt.Passes fields →
    ∃ working, attempt.records[attempt.binding]? = some (some working) ∧
      ¬ UnexpiredAt fields working attempt.exec.txTime
  presented : ∀ attempt ∈ attempts, ∀ presented, attempt.Presents presented →
    attempt.Passes fields → token fields record ≤ presented.toNat
  fenced : attempts.Pairwise (Attempt.Fences fields)

theorem Ran.facts {attempts : List Attempt} {last : Option CanonicalRecord}
    (ran : Ran fields record attempts last) (paired : Paired fields record) :
    RunFacts fields record attempts last := by
  induction ran with
  | done same =>
    refine ⟨?_, fun _ => rfl, by simp, by simp, .nil⟩
    rintro final ⟨⟩
    exact ⟨same.paired paired, same.token_eq.le, by simp⟩
  | @passed record working next attempt rest last written same held passes left later ih =>
    have workingPaired := same.paired paired
    obtain ⟨⟨after, leftAfter, step⟩, presents⟩ := Attempt.execute_step workingPaired held passes
    rw [left] at leftAfter
    cases leftAfter
    have facts := ih step.paired
    have kept : token fields record ≤ token fields next := by
      rw [same.token_eq]
      exact step.kept
    refine ⟨fun final reached => ?_, fun all => ?_, fun other member claims passes => ?_,
      fun other member presented isPresented passes => ?_,
      pairwise_cons.mpr ⟨fun later member found presented claims _ heldFound isPresented earlier
        passes => ?_, facts.fenced⟩⟩
    · obtain ⟨finalPaired, laterKept, laterClaimed⟩ := facts.reached final reached
      refine ⟨finalPaired, kept.trans laterKept, ?_⟩
      rintro ⟨claim, member, claims⟩
      rcases mem_cons.mp member with rfl | member
      · have raised := (step.claimed claims).1
        rw [← same.token_eq] at raised
        exact raised.trans_le laterKept
      · exact kept.trans_lt (laterClaimed ⟨claim, member, claims⟩)
    · exact facts.all fun other member => all other (mem_cons_of_mem attempt member)
    · rcases mem_cons.mp member with rfl | member
      · exact ⟨working, held, (step.claimed claims).2⟩
      · exact facts.available other member claims passes
    · rcases mem_cons.mp member with rfl | member
      · rw [presents presented isPresented, same.token_eq]
      · exact kept.trans (facts.presented other member presented isPresented passes)
    · -- the claim has raised the token above what the later operation presents
      rw [held] at heldFound
      cases heldFound
      have raised := (step.claimed claims).1
      have current := facts.presented later member presented isPresented passes
      omega
  | @stopped record working attempt same held refused =>
    refine ⟨fun final reached => (by cases reached), fun all => ?_, fun other member _ passes => ?_,
      fun other member _ _ passes => ?_, pairwise_singleton _ _⟩
    · exact absurd (all attempt mem_cons_self) refused
    all_goals
      rw [mem_singleton.mp member] at passes
      exact absurd passes refused

/-- One command keeps the lease paired and its token from falling; a claim that succeeds raises
the token. -/
theorem LeaseCommand.Moves.step {before after : CanonicalRecord} {command : LeaseCommand}
    (moves : command.Moves fields before after) (paired : Paired fields before) :
    Paired fields after ∧ token fields before ≤ token fields after ∧
      (command.Succeeds fields → (∃ attempt ∈ command.attempts, isClaim attempt.operation = true) →
        token fields before < token fields after) := by
  obtain ⟨last, ran, same⟩ := moves
  have facts := ran.facts paired
  cases last with
  | none =>
    refine ⟨same.paired paired, same.token_eq.le, fun succeeds _ => ?_⟩
    have reached := facts.all succeeds.2
    cases reached
  | some final =>
    obtain ⟨finalPaired, kept, claimed⟩ := facts.reached final rfl
    rw [LeaseCommand.stored] at same
    split at same
    · exact ⟨same.paired finalPaired, kept.trans same.token_eq.le,
        fun _ claim => (claimed claim).trans_le same.token_eq.le⟩
    · next refused =>
      exact ⟨same.paired paired, same.token_eq.le, fun succeeds => absurd succeeds.1 refused⟩

section Execution

variable (fields) (inv : Invocation) (roots : Records) (binding : BindingId)

/-- The operation of an instruction on the lease of the binding. -/
def operationOf : Instruction → Option WorkflowLeaseOperation
  | .workflowLease lease =>
      if lease.binding = binding ∧ lease.fields = fields then some lease.operation else none
  | _ => none

/-- The instruction keeps the lease of the binding. -/
def Spares (instruction : Instruction) : Prop :=
  ∀ working next record, ordinaryStep inv roots working instruction = .ok next →
    working.records[binding]? = some (some record) →
      ∃ after, next.records[binding]? = some (some after) ∧ SameLease fields record after

/-- The operations on the lease of the binding up to the return, or to the instruction that ends the
command before it. -/
def attempts : List Instruction → Working → List Attempt
  | [], _ => []
  | instruction :: rest, working =>
      match ordinaryStep inv roots working instruction with
      | .ok next => (do
          let operation ← operationOf fields binding instruction
          let observation ← inv.snapshot.bindings[binding]?
          some (⟨inv.toExecution, observation, working.records, roots, none, binding, operation⟩ :
            Attempt)).toList ++ attempts rest next
      | .error _ => []

variable {fields inv roots binding} {working next : Working}

theorem operationOf_eq_some {instruction : Instruction} {operation : WorkflowLeaseOperation}
    (isOperation : operationOf fields binding instruction = some operation) :
    instruction = .workflowLease ⟨binding, fields, operation⟩ := by
  unfold operationOf at isOperation
  split at isOperation
  · split at isOperation
    · next own =>
      cases isOperation
      rw [← own.1, ← own.2]
    · cases isOperation
  · cases isOperation

/-- A lease operation after which the command goes on has passed. -/
theorem ordinaryStep_workflowLease {operation : WorkflowLeaseOperation}
    (stepped :
      ordinaryStep inv roots working (.workflowLease ⟨binding, fields, operation⟩) = .ok next) :
    ∃ observation, inv.snapshot.bindings[binding]? = some observation ∧
      Attempt.execute fields ⟨inv.toExecution, observation, working.records, roots, none, binding,
        operation⟩ = .ok (none, next.records) := by
  simp only [ordinaryStep, runWorkflow, bind_eq_ok, attempt_eq_ok, okOr_eq_ok] at stepped
  obtain ⟨_, ⟨_, ⟨⟩, observation, observed, ⟨rejected, written⟩, executed, ran⟩, ⟨⟩⟩ := stepped
  cases rejected with
  | some outcome => exact absurd ran leave_ne_ok
  | none =>
    cases ran
    exact ⟨observation, observed, executed⟩

theorem Ran.of_same {before after : CanonicalRecord} {attempts : List Attempt}
    {last : Option CanonicalRecord} (same : SameLease fields before after)
    (ran : Ran fields after attempts last) : Ran fields before attempts last := by
  cases ran with
  | done later => exact .done (same.trans later)
  | passed later held passes left ran => exact .passed (same.trans later) held passes left ran
  | stopped later held refused => exact .stopped (same.trans later) held refused

/-- The instructions of an ordinary plan run the operations on a lease one after the other, and hand
on the record that they leave. -/
theorem runOrdinary_ran {instructions : List Instruction} (paired : Paired fields record)
    (spared : ∀ instruction ∈ instructions, operationOf fields binding instruction = none →
      Spares fields inv roots binding instruction)
    (held : working.records[binding]? = some (some record)) :
    ∃ final, Ran fields record (attempts fields inv roots binding instructions working)
    (some final) ∧
      ∀ result, runOrdinary inv roots instructions working = .ok result → ∃ outcome ended,
        ended.records[binding]? = some (some final) ∧
          finishSuccess inv outcome ended = .ok result := by
  induction instructions generalizing working record with
  | nil => exact ⟨record, .done (.refl record), fun result ended => by cases ended⟩
  | cons instruction rest ih =>
    obtain ⟨first, others⟩ := forall_mem_cons.mp spared
    by_cases returns : ∃ construction, instruction = .return construction
    · obtain ⟨construction, rfl⟩ := returns
      refine ⟨record, .done (.refl record), fun result ended => ?_⟩
      simp only [runOrdinary, bind_eq_ok, attempt_eq_ok] at ended
      obtain ⟨outcome, _, finished⟩ := ended
      exact ⟨outcome, working, held, finished⟩
    · rw [attempts, runOrdinary]
      · cases stepped : ordinaryStep inv roots working instruction with
        | error reason => exact ⟨record, .done (.refl record), fun result ended => by cases ended⟩
        | ok next =>
          cases isOperation : operationOf fields binding instruction with
          | none =>
            obtain ⟨after, heldAfter, same⟩ := first isOperation working next record stepped held
            obtain ⟨final, later, ends⟩ := ih (same.paired paired) others heldAfter
            exact ⟨final, later.of_same same, ends⟩
          | some operation =>
            cases operationOf_eq_some isOperation
            obtain ⟨observation, observed, passes⟩ := ordinaryStep_workflowLease stepped
            obtain ⟨⟨after, heldAfter, step⟩, _⟩ := Attempt.execute_step paired held passes
            obtain ⟨final, later, ends⟩ := ih step.paired others heldAfter
            rw [observed]
            exact ⟨final, .passed (.refl record) held passes heldAfter later, ends⟩
      · intro construction same
        exact returns ⟨construction, same⟩

/-- The execution of an ordinary plan moves the lease of an entity that it binds: what the
operations leave is handed on for storage if the plan ends well, and nothing is if it does not. -/
theorem executeOrdinary_moves {records : Records} (paired : Paired fields record)
    (bound : bindOrdinary inv (inv.plan.bindings.zip inv.snapshot.bindings) [] = .ok records)
    (rooted : materializeRoots inv = .ok roots) (held : records[binding]? = some (some record))
    (spared : ∀ instruction ∈ inv.plan.instructions, operationOf fields binding instruction = none →
      Spares fields inv roots binding instruction) :
    ∃ after, LeaseCommand.Moves fields record ⟨attempts fields inv roots binding
        inv.plan.instructions ⟨records, [], none⟩, (executeOrdinary inv).isOk⟩ after ∧
      ∀ result, executeOrdinary inv = .ok result → ∃ outcome ended,
        ended.records[binding]? = some (some after) ∧
          finishSuccess inv outcome ended = .ok result := by
  obtain ⟨final, ran, ends⟩ := @runOrdinary_ran record fields inv roots binding
    ⟨records, [], none⟩ inv.plan.instructions paired spared held
  cases executed : executeOrdinary inv with
  | error reason => exact ⟨record, ⟨some final, ran, .refl record⟩, fun result ended =>
      by cases ended⟩
  | ok result =>
    refine ⟨final, ⟨some final, ran, .refl final⟩, fun _ same => ends _ ?_⟩
    simp only [executeOrdinary, bind_eq_ok, attempt_eq_ok, bound, rooted,
      Except.ok.injEq] at executed
    obtain ⟨_, _, _, rfl, _, rfl, came⟩ := executed
    exact came.trans same

end Execution

section Sequence

variable {commands : List LeaseCommand} {states : Nat → CanonicalRecord}

section

variable (moves : ∀ (position : Nat) (command : LeaseCommand), commands[position]? = some command →
  command.Moves fields (states position) (states (position + 1)))

include moves

theorem paired_of_moves (start : Paired fields (states 0)) {position : Nat}
    (inside : position ≤ commands.length) : Paired fields (states position) := by
  induction position with
  | zero => exact start
  | succ position ih =>
    have step := moves position commands[position] (List.getElem?_eq_getElem (by omega))
    exact (step.step (ih (by omega))).1

theorem token_mono (start : Paired fields (states 0)) {first last : Nat} (ordered : first ≤ last)
    (inside : last ≤ commands.length) :
      token fields (states first) ≤ token fields (states last) := by
  induction last, ordered using Nat.le_induction with
  | base => exact le_rfl
  | succ last ordered ih =>
    have step := moves last commands[last] (List.getElem?_eq_getElem (by omega))
    have kept := (step.step (paired_of_moves moves start (by omega))).2.1
    exact (ih (by omega)).trans kept

end

end Sequence

/-- Fencing, for any sequence of commands and lease operations at any logical times. Nothing is
assumed of the times, of the observations or of the other records the operations run on. -/
theorem lease_fencing (fields : WorkflowLeaseFields) (commands : List LeaseCommand)
    (states : Nat → CanonicalRecord)
    (moves : ∀ (position : Nat) (command : LeaseCommand), commands[position]? = some command →
      command.Moves fields (states position) (states (position + 1)))
    (start : Paired fields (states 0)) :
    (∀ position ≤ commands.length, Paired fields (states position)) ∧
    (∀ (position : Nat) (command : LeaseCommand), commands[position]? = some command →
      token fields (states position) ≤ token fields (states (position + 1)) ∧
      (command.Succeeds fields → (∃ attempt ∈ command.attempts, isClaim attempt.operation = true) →
        token fields (states position) < token fields (states (position + 1))) ∧
      command.attempts.Pairwise (Attempt.Fences fields) ∧
      ∀ attempt ∈ command.attempts, isClaim attempt.operation = true → attempt.Passes fields →
        ∃ working, attempt.records[attempt.binding]? = some (some working) ∧
          ¬ UnexpiredAt fields working attempt.exec.txTime) ∧
    (∀ (claimed : Nat) (command : LeaseCommand), commands[claimed]? = some command →
      command.Succeeds fields → (∃ attempt ∈ command.attempts, isClaim attempt.operation = true) →
      ∀ (position : Nat) (later : LeaseCommand), claimed < position →
      commands[position]? = some later →
      ∀ attempt ∈ later.attempts, ∀ presented, attempt.Presents presented →
        presented.toNat < token fields (states (claimed + 1)) → ¬ attempt.Passes fields) := by
  refine ⟨fun position inside => paired_of_moves moves start inside, ?_, ?_⟩
  · intro position command here
    have inside := (List.getElem?_eq_some_iff.mp here).1
    have paired := paired_of_moves moves start (Nat.le_of_lt inside)
    have move := moves position command here
    obtain ⟨_, kept, claimed⟩ := move.step paired
    obtain ⟨last, ran, _⟩ := move
    exact ⟨kept, claimed, (ran.facts paired).fenced, (ran.facts paired).available⟩
  · intro claimed command _ _ _ position later ordered here attempt member presented presents
      earlier passes
    have inside := (List.getElem?_eq_some_iff.mp here).1
    have paired := paired_of_moves moves start (Nat.le_of_lt inside)
    obtain ⟨last, ran, _⟩ := moves position later here
    have current := (ran.facts paired).presented attempt member presented presents passes
    have mono := token_mono moves start (Nat.succ_le_of_lt ordered) (Nat.le_of_lt inside)
    exact absurd (mono.trans current) (Nat.not_le.mpr earlier)

namespace Sample

def keyField : FieldId := .lit 1

theorem fields_distinct : ([.lit 2, .lit 3, .lit 4] ++ none.toList : List FieldId).Nodup := by
  decide

def leaseFields : WorkflowLeaseFields where
  ownerField := .lit 2
  expiryField := .lit 3
  fencingTokenField := .lit 4
  attemptField := none
  minimumDurationSeconds := 1
  maximumDurationSeconds := 3600
  distinct := fields_distinct

def keySchema : KeySchema := .mk (.entity (.lit 1)) [] none 6

def schema : SchemaIr where
  entities := [{
    id := .lit 1
    record := ⟨[⟨keyField, .u64⟩, ⟨leaseFields.ownerField, .optional .uuid⟩,
      ⟨leaseFields.expiryField, .optional .timestamp⟩, ⟨leaseFields.fencingTokenField, .u64⟩]⟩
    primaryKey := keySchema
    primaryKeyFields := [keyField]
    indexes := [] }]
  enumerations := []
  vectorProductions := []

def outcome (id : OutcomeId) : OutcomeConstruction := ⟨id, ⟨[]⟩⟩

def plan : CommandPlan where
  commandId := .lit 1
  planHash := []
  contractVersion := .lit 1
  input := ⟨[]⟩
  successOutcome := .lit 1
  bindings := [{
    id := 0
    mode := .mutate
    entityType := .lit 1
    keySchema := keySchema
    keyExpressions := []
    initializer := []
    failure := none
    restrictionFailure := none
    cascadeFailure := none
    indexedSelection := false }]
  deleteChecks := []
  rootValidationReads := []
  locality := ⟨keySchema, 0⟩
  instructions := []
  decisions := []
  collectionExpansion := none
  executionClass := .idempotentMutation
  requiresIrV18 := false
  returns := by simp

def owner : ByteArrayOf 16 := ⟨List.replicate 16 7, rfl⟩

def instant (seconds : Int64) : Timestamp := ⟨seconds, 0, zero_lt_nanosPerSecond⟩

/-- The caller names revision one, itself, a minute and the token zero. -/
def exec (now : Int64) : Execution where
  schema := schema
  plan := plan
  input := .empty
  txTime := instant now
  partitionKey := ⟨[]⟩
  serviceValues := .empty
  evaluator := fun _ expression =>
    match expression with
    | 0 => .ok (.u64 1)
    | 1 => .ok (.uuid owner)
    | 2 => .ok (.u64 60)
    | _ => .ok (.u64 0)

def lease (owner expiry : CanonicalValue) (token : UInt64) : CanonicalRecord :=
  ⟨[(keyField, .u64 5), (leaseFields.ownerField, owner), (leaseFields.expiryField, expiry),
    (leaseFields.fencingTokenField, .u64 token)],
    by simp [Increasing, keyField, leaseFields, NonZeroU32.lit]⟩

def unclaimed : CanonicalRecord := lease .null .null 0

def claimed : CanonicalRecord := lease (.uuid owner) (.timestamp (instant 160)) 1

def attempt (now : Int64) (record : CanonicalRecord)
    (operation : WorkflowLeaseOperation) : Attempt where
  exec := exec now
  observation := .present ⟨⟨.lit 1, ⟨[]⟩⟩, .lit 1, record⟩
  records := [some record]
  roots := []
  element := none
  binding := 0
  operation := operation

def claim : Attempt := attempt 100 unclaimed
  (.claim 1 2 0 (outcome (.lit 2)) (outcome (.lit 3)) (outcome (.lit 4)) (outcome (.lit 5)))

def renewal : Attempt := attempt 110 claimed
  (.renew 1 3 2 0 (outcome (.lit 2)) (outcome (.lit 4)) (outcome (.lit 6)) (outcome (.lit 5)))

theorem claim_passes : claim.execute leaseFields = .ok (none, [some claimed]) := by
  have ownerSet :
    setWorkingField (exec 100) [some unclaimed] 0 leaseFields.ownerField (.uuid owner) =
      .ok [some (lease (.uuid owner) .null 0)] :=
    setWorkingField_of_valid rfl rfl rfl rfl rfl
      (setField_of_bounded (by decide) (by decide))
  have expirySet : setWorkingField (exec 100) [some (lease (.uuid owner) .null 0)] 0
      leaseFields.expiryField (.timestamp (instant 160)) =
        .ok [some (lease (.uuid owner) (.timestamp (instant 160)) 0)] :=
    setWorkingField_of_valid rfl rfl rfl rfl rfl
      (setField_of_bounded (by decide) (by decide))
  have tokenSet : setWorkingField (exec 100)
      [some (lease (.uuid owner) (.timestamp (instant 160)) 0)] 0 leaseFields.fencingTokenField
        (.u64 1) = .ok [some claimed] :=
    setWorkingField_of_valid rfl rfl rfl rfl rfl
      (setField_of_bounded (by decide) (by decide))
  have ran : workflowLease claim.exec claim.observation claim.records claim.roots claim.element
      ⟨claim.binding, leaseFields, claim.operation⟩ = .ok [some claimed] := by
    change setWorkingFields (exec 100) 0 [some unclaimed] [(leaseFields.ownerField, .uuid owner),
      (leaseFields.expiryField, .timestamp (instant 160)),
      (leaseFields.fencingTokenField, .u64 1)] = _
    simp [setWorkingFields, ownerSet, expirySet, tokenSet, EarlyReturn.attempt, Except.mapError]
  rw [Attempt.execute, executeWorkflowInstruction, workflowInstruction, ran]

theorem renewal_rejected : ¬ renewal.Passes leaseFields := by
  have rejected : renewal.execute leaseFields =
      .ok (some ⟨.lit 4, .empty⟩, [some claimed]) := by
    decide +kernel
  rintro ⟨written, passed⟩
  rw [rejected] at passed
  cases passed

def commands : List LeaseCommand := [⟨[claim], true⟩, ⟨[renewal], true⟩]

def states : Nat → CanonicalRecord
  | 0 => unclaimed
  | _ => claimed

theorem unclaimed_paired : Paired leaseFields unclaimed := ⟨.inl ⟨rfl, rfl⟩, 0, rfl⟩

theorem commands_move (position : Nat) (command : LeaseCommand)
    (here : commands[position]? = some command) :
    command.Moves leaseFields (states position) (states (position + 1)) := by
  match position with
  | 0 =>
    cases here
    exact ⟨some claimed, .passed (.refl unclaimed) rfl claim_passes rfl
      (.done (.refl claimed)), .refl claimed⟩
  | 1 =>
    cases here
    exact ⟨none, .stopped (.refl claimed) rfl renewal_rejected, .refl claimed⟩
  | position + 2 => cases here

end Sample

open Sample

/-- After the claim the token is one, and the renewal that still presents zero does not pass. -/
theorem lease_fencing_sample :
    token Sample.leaseFields (Sample.states 0) < token Sample.leaseFields (Sample.states 1) ∧
      ¬ Sample.renewal.Passes Sample.leaseFields := by
  obtain ⟨_, each, fenced⟩ := lease_fencing leaseFields commands states
    commands_move unclaimed_paired
  have succeeds : (⟨[claim], true⟩ : LeaseCommand).Succeeds leaseFields := by
    refine ⟨rfl, fun attempt member => ?_⟩
    rw [mem_singleton.mp member]
    exact ⟨_, claim_passes⟩
  have claims : ∃ attempt ∈ [claim], isClaim attempt.operation = true :=
    ⟨claim, mem_singleton_self _, rfl⟩
  refine ⟨(each 0 _ rfl).2.1 succeeds claims, ?_⟩
  exact fenced 0 _ rfl succeeds claims 1 _ (by decide) rfl renewal
    (mem_singleton_self _) 0 ⟨3, rfl, rfl⟩ (by decide)

end WorkflowLeases
