import RiffDb.CollectionExecution

/-!
# Rejected commands have no effects

Whatever plan is executed and wherever it stops, an outcome other than the success outcome comes
without a mutation, an embedding write or an event. Every early return of the runtime ends with
empty effects; effects reach the result only with the outcome of the return instruction, and a
checked plan returns its success outcome.
-/

namespace CommandRejections

open CheckedCode EarlyReturn CanonicalScalars CanonicalValues CanonicalRecords ValueTypes KeySchemas
open CommandPlans CommandRuntime EvaluatedCommands InputFacts CommandExecution CollectionExecution

def outcomeOf : ExecutionResult → DeclaredOutcome
  | .readOnly outcome => outcome
  | .commitRequired command => command.outcome

/-- No entity mutation, no embedding write and no event. -/
def Silent : ExecutionResult → Prop
  | .readOnly _ => True
  | .commitRequired command =>
      command.mutations = [] ∧ command.embeddingWrites = [] ∧ command.eventIntents = []

section Finish

variable {inv : Invocation} {outcome : DeclaredOutcome} {mutations : List EntityMutation}
  {events : List EventIntent} {embeddingWrites : List EmbeddingWriteIntentV1}
  {result : ExecutionResult}
variable {command : EvaluatedCommand}

theorem buildDeclared_outcome
    (built : buildDeclared inv outcome mutations events embeddingWrites = .ok command) :
    command.outcome = outcome := by
  simp only [buildDeclared, bind_eq_ok] at built
  obtain ⟨_, _, _, _, _, _, _, _, last, set, finished⟩ := built
  obtain ⟨held, _⟩ := finish_eq_ok finished
  rw [(setOutcome_eq_ok set).2.2.2] at held
  exact (Option.some.inj held).symm

theorem buildDeclared_empty (built : buildDeclared inv outcome [] [] [] = .ok command) :
    command.mutations = [] ∧ command.embeddingWrites = [] ∧ command.eventIntents = [] := by
  simp only [buildDeclared, pushEmbeddingWrites, EmbeddingWriteIntentV1.sorted, List.mergeSort_nil,
    List.foldlM_nil, pure, Except.pure, bind_eq_ok, Except.ok.injEq] at built
  obtain ⟨first, started, _, rfl, _, rfl, _, rfl, last, set, finished⟩ := built
  obtain ⟨mutationsKept, writesKept, eventsKept, _⟩ := setOutcome_eq_ok set
  obtain ⟨_, mutationsHeld, writesHeld, eventsHeld, _⟩ := finish_eq_ok finished
  rw [new_eq_ok started] at mutationsKept writesKept eventsKept
  exact ⟨mutationsHeld.trans mutationsKept, writesHeld.trans writesKept,
    eventsHeld.trans eventsKept⟩

theorem finishDeclared_spec
    (finished : finishDeclared inv outcome mutations events embeddingWrites = .ok result) :
    outcomeOf result = outcome ∧
      (mutations = [] → events = [] → embeddingWrites = [] → Silent result) := by
  unfold finishDeclared at finished
  split at finished
  · simp only [bind_eq_ok, Except.ok.injEq] at finished
    obtain ⟨_, _, rfl⟩ := finished
    exact ⟨rfl, fun _ _ _ => trivial⟩
  · simp only [bind_eq_ok, mapError_eq_ok, Except.ok.injEq] at finished
    obtain ⟨command, built, rfl⟩ := finished
    refine ⟨buildDeclared_outcome built, ?_⟩
    rintro rfl rfl rfl
    exact buildDeclared_empty built

theorem finishDeclared_silent (finished : finishDeclared inv outcome [] [] [] = .ok result) :
    Silent result := (finishDeclared_spec finished).2 rfl rfl rfl

theorem finishSuccess_outcome {working : Working}
    (finished : finishSuccess inv outcome working = .ok result) : outcomeOf result = outcome := by
  unfold finishSuccess at finished
  split at finished
  · cases finished
    rfl
  · simp only [bind_eq_ok, mapError_eq_ok, Except.ok.injEq] at finished
    obtain ⟨_, _, _, _, _, _, last, set, command, finished, rfl⟩ := finished
    obtain ⟨held, _⟩ := finish_eq_ok finished
    rw [(setOutcome_eq_ok set).2.2.2] at held
    exact (Option.some.inj held).symm

end Finish

variable (roots : Records) (element : Option CanonicalValue)
  (slot : BindingId → Except ExecutionFault Nat)

section Returns

variable {inv : Invocation} {α : Type}

theorem leaves_rejectWith (values : ExpressionValues) (construction : OutcomeConstruction) :
    Leaves Silent (rejectWith inv values construction : Body α) :=
  .after fun _ => .leave fun _ => finishDeclared_silent

theorem leaves_rejectBinding (values : ExpressionValues) (binding : BindingPlan) :
    Leaves Silent (rejectBinding inv values binding : Body α) :=
  .after fun _ => leaves_rejectWith values _

theorem leaves_requirePredicate (values : ExpressionValues) (predicate : ExprId)
    (reject : OutcomeConstruction) :
      Leaves Silent (requirePredicate inv values predicate reject) := by
  refine .after fun holds => ?_
  cases holds with
  | true => exact .ok ()
  | false => exact leaves_rejectWith values reject

theorem leaves_runWorkflow (records roots : Records) (element : Option CanonicalValue)
    (slot : Except ExecutionFault Nat) (instruction : Instruction) :
    Leaves Silent (runWorkflow inv records roots element slot instruction) := by
  refine .after fun _ => .after fun _ =>
    .after fun answer => ?_
  obtain ⟨rejected, written⟩ := answer
  cases rejected with
  | none => exact .ok written
  | some outcome => exact .leave fun _ => finishDeclared_silent

theorem leaves_bindOrdinary (entries : List (BindingPlan × EntityObservation)) (records : Records) :
    Leaves Silent (bindOrdinary inv entries records) := by
  induction entries generalizing records with
  | nil => exact .ok records
  | cons entry rest ih =>
    obtain ⟨binding, observation⟩ := entry
    refine .after fun _ => .after fun installed => ?_
    cases installed with
    | none => exact leaves_rejectBinding _ binding
    | some records => exact ih records

theorem leaves_ordinaryStep (working : Working) (instruction : Instruction) :
    Leaves Silent (ordinaryStep inv roots working instruction) := by
  cases instruction with
  | require predicate reject =>
    exact (leaves_requirePredicate _ predicate reject).bind fun _ _ => .ok working
  | setField | setEmbedding => exact .after fun _ => .ok _
  | workflowTransition | workflowLease =>
    exact (leaves_runWorkflow _ _ _ _ _).bind fun _ _ => .ok _
  | emitEvent => exact .attempt _
  | «return» => exact .fault _

theorem leaves_runOrdinary (instructions : List Instruction) (working : Working) :
    Leaves Silent (runOrdinary inv roots instructions working) := by
  induction instructions generalizing working with
  | nil => exact .fault _
  | cons instruction rest ih =>
    by_cases last : ∃ construction, instruction = .return construction
    · obtain ⟨construction, rfl⟩ := last
      exact .after fun _ => .attempt _
    · rw [runOrdinary]
      · exact (leaves_ordinaryStep roots working instruction).bind fun next _ => ih next
      · intro construction same
        exact last ⟨construction, same⟩

theorem leaves_bindDecision (entries : List ((BindingPlan × EntityObservation) × Nat))
    (records : Records) : Leaves Silent (bindDecision inv entries records) := by
  induction entries generalizing records with
  | nil => exact .ok records
  | cons entry rest ih =>
    obtain ⟨⟨binding, observation⟩, index⟩ := entry
    rw [bindDecision]
    split
    · exact ih records
    · refine .after fun installed => ?_
      cases installed with
      | none => exact leaves_rejectBinding _ binding
      | some records => exact ih records

theorem leaves_effectStep (effects : Effects) (instruction : Instruction) :
    Leaves Silent (effectStep inv roots element slot effects instruction) := by
  cases instruction with
  | setField | setEmbedding => exact .after fun _ => .ok _
  | emitEvent =>
    exact .after fun _ => .after fun _ => .ok _
  | workflowTransition | workflowLease =>
    exact (leaves_runWorkflow _ _ _ _ _).bind fun _ _ => .ok _
  | require => exact .fault _
  | «return» => exact .fault _

theorem leaves_openBranchBinding (effects : Effects) (bindingId : BindingId) :
    Leaves Silent (openBranchBinding inv roots element slot effects bindingId) := by
  refine .after fun binding => .after fun _ =>
    .after fun _ => .after fun installed => ?_
  cases installed with
  | none => exact leaves_rejectBinding _ binding
  | some records => exact .ok _

theorem leaves_runDecision (effects : Effects) (decision : CommandDecisionPlanV1) :
    Leaves Silent (runDecision inv roots element slot effects decision) := by
  refine .after fun action => ?_
  cases action with
  | noEffect => exact .ok effects
  | reject outcome => exact leaves_rejectWith _ outcome
  | apply bindings instructions =>
    refine .bind (.foldlM (fun effects bindingId _ =>
      leaves_openBranchBinding roots element slot effects bindingId) _) fun opened _ => ?_
    exact .foldlM (fun effects instruction _ =>
      leaves_effectStep roots element slot effects instruction) opened

theorem leaves_decisionCommonSuffix (records roots : Records) (instructions : List Instruction) :
    Leaves Silent (decisionCommonSuffix inv records roots instructions) := by
  induction instructions with
  | nil => exact .fault _
  | cons instruction rest ih =>
    cases instruction with
    | require predicate reject =>
      exact (leaves_requirePredicate _ predicate reject).bind fun _ _ => ih
    | «return» => exact .attempt _
    | _ => exact .fault _

theorem leaves_checkSelection : Leaves Silent (checkSelection inv) := by
  unfold checkSelection
  split
  · refine .after fun _ => ?_
    unfold emptyOutcome
    split
    · exact .ok ()
    · exact .after fun _ => .after fun failed =>
        leaves_rejectBinding _ failed.1
  · exact .ok ()

theorem leaves_bindSlots (limit : Nat) (entries : List ((Slot × EntityObservation) × Nat))
    (records : Records) : Leaves Silent (bindSlots inv element limit entries records) := by
  induction entries generalizing records with
  | nil => exact .ok records
  | cons entry rest ih =>
    obtain ⟨⟨slot, observation⟩, position⟩ := entry
    refine (Leaves.require _ _).bind fun _ _ => .after fun binding =>
      .after fun _ => .after fun installed => ?_
    cases installed with
    | none => exact leaves_rejectBinding _ binding
    | some records => exact ih records

section

variable (facts : InputDerivedCommandFacts)

theorem leaves_collectionStep
    (element : Option (Nat × CanonicalValue)) (firstBinding : Nat) (collected : Collected)
    (instruction : Instruction) :
    Leaves Silent (collectionStep inv facts element firstBinding collected instruction) := by
  cases instruction with
  | require predicate reject =>
    exact (leaves_requirePredicate _ predicate reject).bind fun _ _ => .ok collected
  | setField | setEmbedding =>
    exact (Leaves.require _ _).bind fun _ _ => .after fun _ => Leaves.ok _
  | emitEvent =>
    exact .after fun _ => .after fun _ => .ok _
  | _ => exact .fault _

theorem leaves_runElement (evidence : CollectionDeleteEvidence)
    (firstBinding : Nat) (template : List Instruction) (collected : Collected)
    (entry : CanonicalValue × Nat) :
    Leaves Silent (runElement inv facts evidence firstBinding template collected entry) := by
  refine .after fun _ => (leaves_bindSlots _ _ _ _).bind fun _ _ =>
    .after fun _ => (Leaves.require _ _).bind fun _ _ => ?_
  refine Leaves.bind (Leaves.foldlM (fun collected instruction _ =>
    leaves_collectionStep facts _ firstBinding collected instruction) _) fun _ _ => ?_
  exact .after fun _ => .ok _

/-- A refused delete returns before anything has been collected. -/
theorem leaves_refuseDelete (evidence : CollectionDeleteEvidence) (records roots : Records) :
    Leaves Silent (refuseDelete inv facts evidence ⟨records, roots, [], [], []⟩) := by
  unfold refuseDelete
  split
  · exact .ok ()
  · exact .after fun _ => .after fun _ =>
      Leaves.leave fun _ => finishDeclared_silent

end

theorem leaves_bindDecisionSlots (roots : Records)
    (entries : List ((Slot × EntityObservation) × Nat)) (records : Records) :
    Leaves Silent (bindDecisionSlots inv element roots entries records) := by
  induction entries generalizing records with
  | nil => exact .ok records
  | cons entry rest ih =>
    obtain ⟨⟨slot, observation⟩, position⟩ := entry
    refine .after fun binding => ?_
    split
    · exact ih records
    · refine .after fun installed => ?_
      cases installed with
      | none => exact leaves_rejectBinding _ binding
      | some records => exact ih records

theorem leaves_runDecisionElement (facts : InputDerivedCommandFacts) (firstBinding : Nat)
    (collected : Collected) (entry : CanonicalValue × Nat) :
    Leaves Silent (runDecisionElement inv facts firstBinding collected entry) := by
  refine .after fun _ => (leaves_bindDecisionSlots _ _ _ _).bind fun _ _ =>
    .after fun roots => ?_
  refine .bind (.foldlM (fun effects decision _ =>
    leaves_runDecision roots _ _ effects decision) _) fun _ _ => ?_
  exact .after fun _ => .ok _

end Returns

/-- An outcome other than success comes without effects. -/
def Quiet (inv : Invocation) (result : ExecutionResult) : Prop :=
  (outcomeOf result).outcomeId ≠ inv.plan.successOutcome → Silent result

/-- Every early return is silent, and the end of the body returns the success outcome. -/
structure Settles (inv : Invocation) (body : Body ExecutionResult) : Prop where
  returns : Leaves Silent body
  ends : ∀ result, body = .ok result → (outcomeOf result).outcomeId = inv.plan.successOutcome

variable {inv : Invocation}

theorem Settles.quiet {body : Body ExecutionResult} (settles : Settles inv body)
    {result : ExecutionResult} (returned : run body = .ok result) : Quiet inv result := by
  rcases run_eq_ok.mp returned with ended | left
  · intro other
    exact absurd (settles.ends result ended) other
  · intro _
    exact settles.returns result left

variable {α : Type} {next : α → Body ExecutionResult}

/-- Sequencing before a body that settles. -/
theorem Settles.bind {first : Body α} (early : Leaves Silent first)
    (later : ∀ value, first = .ok value → Settles inv (next value)) :
    Settles inv (first >>= next) := by
  refine ⟨early.bind fun value ran => (later value ran).returns, fun result ended => ?_⟩
  obtain ⟨value, ran, ended⟩ := bind_eq_ok.mp ended
  exact (later value ran).ends result ended

theorem Settles.after {call : Except ExecutionFault α} (later : ∀ value, Settles inv (next value)) :
    Settles inv (attempt call >>= next) :=
  .bind (.attempt call) fun value _ => later value

variable {outcome : DeclaredOutcome}

theorem settles_finishDeclared
    (succeeds : outcome.outcomeId = inv.plan.successOutcome) (mutations : List EntityMutation)
    (events : List EventIntent) (embeddingWrites : List EmbeddingWriteIntentV1) :
    Settles inv (attempt (finishDeclared inv outcome mutations events embeddingWrites)) := by
  refine ⟨.attempt _, fun result ended => ?_⟩
  rw [(finishDeclared_spec (attempt_eq_ok.mp ended)).1]
  exact succeeds

variable {instructions : List Instruction}

section

variable (part : ∀ instruction ∈ instructions, instruction ∈ inv.plan.instructions)

include part

theorem settles_runOrdinary (working : Working) :
    Settles inv (runOrdinary inv roots instructions working) := by
  refine ⟨leaves_runOrdinary roots instructions working, fun result ended => ?_⟩
  induction instructions generalizing working with
  | nil => cases ended
  | cons instruction rest ih =>
    by_cases last : ∃ construction, instruction = .return construction
    · obtain ⟨construction, rfl⟩ := last
      simp only [runOrdinary, bind_eq_ok, attempt_eq_ok] at ended
      obtain ⟨outcome, constructed, finished⟩ := ended
      rw [finishSuccess_outcome finished, constructOutcome_outcomeId constructed]
      exact inv.plan.returns construction (part _ List.mem_cons_self)
    · rw [runOrdinary, bind_eq_ok] at ended
      · obtain ⟨next, _, ended⟩ := ended
        exact ih (fun other member =>
          part other (List.mem_cons_of_mem instruction member)) next ended
      · intro construction same
        exact last ⟨construction, same⟩

theorem decisionCommonSuffix_outcomeId {records roots : Records}
    (ended : decisionCommonSuffix inv records roots instructions = .ok outcome) :
    outcome.outcomeId = inv.plan.successOutcome := by
  induction instructions with
  | nil => cases ended
  | cons instruction rest ih =>
    cases instruction with
    | require predicate reject =>
      simp only [decisionCommonSuffix, bind_eq_ok] at ended
      obtain ⟨_, _, ended⟩ := ended
      exact ih (fun other member => part other (List.mem_cons_of_mem _ member)) ended
    | «return» construction =>
      simp only [decisionCommonSuffix, attempt_eq_ok] at ended
      rw [constructOutcome_outcomeId ended]
      exact inv.plan.returns construction (part _ List.mem_cons_self)
    | _ => cases ended

end

theorem returnOutcome_outcomeId {collected : Collected}
    (constructed : returnOutcome inv collected = .ok outcome) :
    outcome.outcomeId = inv.plan.successOutcome := by
  unfold returnOutcome at constructed
  split at constructed
  · next construction last =>
    rw [constructOutcome_outcomeId constructed]
    exact inv.plan.returns construction (List.mem_of_getLast? last)
  · cases constructed

section

variable (inv : Invocation)

theorem settles_executeOrdinary : Settles inv (executeOrdinary inv) :=
  .after fun _ => .bind (leaves_bindOrdinary _ _) fun _ _ =>
    .after fun roots => settles_runOrdinary roots (fun _ member => member) _

theorem settles_executeOrdinaryDecision : Settles inv (executeOrdinaryDecision inv) := by
  refine .after fun _ => .bind (leaves_bindDecision _ _) fun _ _ =>
    .after fun roots => .bind (.foldlM
      (fun effects decision _ => (Leaves.require _ _).bind fun _ _ =>
        leaves_runDecision roots none .ok effects decision) _) fun effects _ => ?_
  refine .bind (leaves_decisionCommonSuffix _ _ _) fun outcome suffix => ?_
  refine .after fun mutations => ?_
  exact settles_finishDeclared
    (decisionCommonSuffix_outcomeId (fun _ member => member) suffix) _ _ _

theorem settles_executeCollectionCommand : Settles inv (executeCollectionCommand inv) := by
  refine .after fun expansion => .after fun elements => .after fun _ => .after fun facts =>
    .after fun _ =>
    .bind (.require _ _) fun _ _ => .after fun evidence => ?_
  refine .bind (leaves_bindSlots _ _ _ _) fun records _ => .bind (.require _ _)
    fun _ _ => .after fun roots =>
    .bind (leaves_refuseDelete facts evidence records roots) fun _ _ => ?_
  refine .bind (.foldlM (fun collected entry _ =>
    leaves_runElement facts evidence _ _ collected entry) _) fun elementwise _ => ?_
  refine .bind (.foldlM (fun collected instruction _ =>
    leaves_collectionStep facts none _ collected instruction) _) fun collected _ => ?_
  refine .after fun shared => .bind (.require _ _)
    fun _ _ => .bind (.attempt _) fun outcome constructed => ?_
  exact settles_finishDeclared (returnOutcome_outcomeId (attempt_eq_ok.mp constructed)) _ _ _

theorem settles_executeCollectionDecision : Settles inv (executeCollectionDecision inv) := by
  refine .after fun expansion => .after fun elements => .after fun _ => .after fun facts =>
    .after fun _ =>
    .bind (.require _ _) fun _ _ => ?_
  refine .bind (leaves_bindDecisionSlots _ _ _ _) fun records _ => .after fun roots => ?_
  refine .bind (.foldlM (fun effects decision _ =>
    leaves_runDecision roots none _ effects decision) _) fun shared _ => ?_
  refine .bind (.foldlM (fun collected entry _ =>
    leaves_runDecisionElement facts _ collected entry) _) fun collected _ => ?_
  refine .after fun mutations => .bind (.require _ _)
    fun _ _ => .bind (leaves_decisionCommonSuffix _ _ _) fun outcome suffix => ?_
  exact settles_finishDeclared
    (decisionCommonSuffix_outcomeId (fun _ member => member) suffix) _ _ _

theorem settles_executeBody : Settles inv (executeBody inv) := by
  refine .after fun _ => .bind leaves_checkSelection fun _ _ => ?_
  split
  · split
    · exact settles_executeCollectionDecision inv
    · exact settles_executeOrdinaryDecision inv
  · split
    · exact settles_executeCollectionCommand inv
    · exact settles_executeOrdinary inv

end

/-- A command whose outcome is not the success outcome of its plan carries no entity mutation, no
embedding write and no event: for every plan of the bundle, every input, context, snapshot and
budget, and every evaluator. -/
theorem rejected_without_effects (engine : Engine) (bundle : ContractBundle) (plan : CommandPlan)
    (input : CanonicalRecord) (snapshot : ReadSnapshot) (context : TransactionContext)
    (budget : EvaluationBudget) (result : ExecutionResult)
    (identified : validateExecutionIdentity bundle snapshot context = .ok plan)
    (executed : executeCommand engine bundle input snapshot context budget = .ok result)
    (rejected : (outcomeOf result).outcomeId ≠ plan.successOutcome) : Silent result := by
  simp only [executeCommand, identified, ok_bind] at executed
  exact (settles_executeBody _).quiet executed rejected

namespace Sample

def entityType : EntityTypeId := .lit 1

def keySchema : KeySchema := .mk (.entity entityType) [] none 6

theorem number_bounded : authoritativeComponentMaximum .canonical .u64 = .ok 8 := rfl

def partitionSchema : KeySchema :=
  .mk (.partition (.lit 1)) [⟨.u64, [], .canonical, 8, number_bounded⟩] none 14

def success : OutcomeConstruction := ⟨.lit 1, ⟨[]⟩⟩

def refused : OutcomeConstruction := ⟨.lit 2, ⟨[]⟩⟩

def field : FieldId := .lit 1

/-- Creates one entity and sets its field; a predicate that fails then is the declared outcome
two. -/
def plan : CommandPlan where
  commandId := .lit 1
  planHash := []
  contractVersion := .lit 1
  input := ⟨[]⟩
  successOutcome := .lit 1
  bindings := [{
    id := 0
    mode := .create
    entityType := entityType
    keySchema := keySchema
    keyExpressions := []
    initializer := []
    failure := some refused
    restrictionFailure := none
    cascadeFailure := none
    indexedSelection := false }]
  deleteChecks := []
  rootValidationReads := []
  locality := ⟨partitionSchema, 0⟩
  instructions := [.setField 0 field 0, .require 1 refused, .return success]
  decisions := []
  collectionExpansion := none
  executionClass := .idempotentMutation
  requiresIrV18 := false
  returns := by
    simp [success]

def bundle : ContractBundle where
  schema := ⟨[⟨entityType, ⟨[⟨field, .u64⟩]⟩, keySchema, [], []⟩], [], []⟩
  lineage := ""
  contractVersion := .lit 1
  bundleHash := []
  commands := [plan]

def planRef : ExecutablePlanRef :=
  ⟨"", .lit 1, [], .lit 1, []⟩

def target : EntityTarget := ⟨entityType, ⟨[0x45, 0x01, 0, 0, 0, 1]⟩⟩

def snapshot : ReadSnapshot := ⟨planRef, 0, [.absent target], [], [], []⟩

def context : TransactionContext where
  plan := planRef
  txTime := ⟨0, 0, zero_lt_nanosPerSecond⟩
  partitionKey := ⟨[0x50, 0x01, 0, 0, 0, 1, 0, 0, 0, 0, 0, 0, 0, 7]⟩
  serviceValues := .empty

def budget : EvaluationBudget := ⟨10, 10, 10, 10, 1000⟩

/-- The predicate has the given value, and every other expression the value seven. -/
def engine (holds : Bool) : Engine where
  evaluator := fun _ _ expression => .ok (if expression = 1 then .bool holds else .u64 7)
  eventIntent := fun _ _ => .error .integrity
  selectedTargets := fun _ _ _ => .error .integrity

def result : ExecutionResult := .commitRequired ⟨[], [], [], ⟨.lit 2, .empty⟩⟩

def written : ExecutionResult → Nat
  | .readOnly _ => 0
  | .commitRequired command => command.mutations.length

theorem executes :
    executeCommand (engine false) bundle .empty snapshot context budget = .ok result := by
  decide +kernel

end Sample

open Sample

/-- The command has created an entity and set its field when the predicate fails: the declared
outcome two comes without effects. Where the predicate holds, the entity is written. -/
theorem rejected_without_effects_sample :
    (executeCommand (Sample.engine true) Sample.bundle CanonicalRecord.empty Sample.snapshot
        Sample.context Sample.budget).map Sample.written = .ok 1 ∧
      executeCommand (Sample.engine false) Sample.bundle CanonicalRecord.empty Sample.snapshot
        Sample.context Sample.budget = .ok Sample.result ∧ Silent Sample.result :=
  ⟨by decide +kernel, executes, rejected_without_effects (engine false) bundle plan
    CanonicalRecord.empty snapshot context budget result rfl executes (by decide)⟩

end CommandRejections
