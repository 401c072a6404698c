import RiffDb.OutboxStatus
import RiffDb.StatefulCode

/-!
# Recovery of interrupted deliveries

Recovery lists the undelivered events page by page up to a fence, the last event at its first read,
and makes interrupted deliveries pending. Events are committed meanwhile. A page read opens its view
of the tables first and asks the index afterwards, for the fence and for the undelivered events of
the page. Whether more rows remain is what the index says, and it counts events behind the fence.
-/

namespace OutboxRecovery

open CheckedCode CanonicalScalars CommandRuntime OutboxStatus OutboxStatus.OutboxStatusObservationV1
  OutboxStore StatefulCode List

def maxScanPageEntries : Nat := 500

def maxScanPageBytes : Nat := 4 * 1024 * 1024

structure OutboxPageLimit where
  get : Nat
  positive : 0 < get
  bounded : get ≤ maxScanPageEntries

inductive StorageErrorKind where
  | corruptData
  | limitExceeded
  | invariantViolation
deriving DecidableEq

def storedValueError : StorageValueError → StorageErrorKind
  | .limitExceeded | .sizeOverflow => .limitExceeded
  | .empty | .nonCanonicalOrder | .duplicate | .identityMismatch | .invalidShape => .corruptData

section Scan

variable {EventId : Type} [LinearOrder EventId]

/-- The encoded size of event, intent and status of one row. Event and intent are each at most one
document, so a row fits in a page. -/
structure RowSizes (EventId : Type) where
  encodedBytes : OutboxRow EventId → Nat
  fits : ∀ row, encodedBytes row ≤ maxScanPageBytes

/-- A request with the fence of the first page, if that was read already. -/
structure UndeliveredOutboxStatusScanRequestV1 (EventId : Type) where
  after : Option EventId
  inclusiveUpper : Option EventId
  limit : OutboxPageLimit

structure UndeliveredOutboxStatusContinuationV1 (EventId : Type) where
  after : EventId
  inclusiveUpper : EventId
deriving DecidableEq

/-- One page; without a continuation it is the exact end. -/
structure UndeliveredOutboxStatusScanV1 (EventId : Type) where
  items : List (OutboxRow EventId)
  continuation : Option (UndeliveredOutboxStatusContinuationV1 EventId)
deriving DecidableEq

def startsAfter (after : Option EventId) (event : EventId) : Bool := after.all (· < event)

/-- `page_event_index`: a page of the index and whether it has more. -/
def undeliveredOutboxPage (store : OutboxStore EventId) (after : Option EventId) (limit : Nat) :
    List EventId × Bool :=
  let events := (store.undelivered.filter (startsAfter after)).take (limit + 1)
  (events.take limit, limit < events.length)

variable (sizes : RowSizes EventId)

def pageBytes (items : List (OutboxRow EventId)) : Nat := (items.map sizes.encodedBytes).sum

def validateUndeliveredScanItems (request : UndeliveredOutboxStatusScanRequestV1 EventId)
    (inclusiveUpper : EventId) (items : List (OutboxRow EventId)) :
      Except StorageValueError Unit := do
  require (request.inclusiveUpper.all (· = inclusiveUpper)) .identityMismatch
  require (items.length ≤ request.limit.get) .limitExceeded
  require (Increasing items) .nonCanonicalOrder
  require (items.all fun item => startsAfter request.after item.1 && item.1 ≤
    inclusiveUpper) .invalidShape
  require (pageBytes sizes items ≤ maxScanPageBytes) .limitExceeded

/-- A page that is not the last one. -/
def scanPage (request : UndeliveredOutboxStatusScanRequestV1 EventId) (inclusiveUpper : EventId)
    (items : List (OutboxRow EventId)) :
    Except StorageValueError (UndeliveredOutboxStatusScanV1 EventId) := do
  validateUndeliveredScanItems sizes request inclusiveUpper items
  let last ← okOr items.getLast? .invalidShape
  require (last.1 < inclusiveUpper) .invalidShape
  .ok ⟨items, some ⟨last.1, inclusiveUpper⟩⟩

def scanExactEnd (request : UndeliveredOutboxStatusScanRequestV1 EventId) (inclusiveUpper : EventId)
    (items : List (OutboxRow EventId)) :
    Except StorageValueError (UndeliveredOutboxStatusScanV1 EventId) := do
  validateUndeliveredScanItems sizes request inclusiveUpper items
  .ok ⟨items, none⟩

/-- The loop over the page of the index: the items, and whether a row had to be left out. -/
def collect (view : OutboxStore EventId) (inclusiveUpper : EventId) (wanted : Nat) :
    List EventId → List (OutboxRow EventId) → Nat →
      Except StorageErrorKind (List (OutboxRow EventId) × Bool)
  | [], items, _ => .ok (items, false)
  | event :: rest, items, bytes =>
    if inclusiveUpper < event then .ok (items, false)
    else do
      let status ← okOr (view.status event) .corruptData
      let next := bytes + sizes.encodedBytes (event, status)
      if isUndelivered status = false then
        collect view inclusiveUpper wanted rest items bytes
      else if items.length = wanted ∨ maxScanPageBytes < next then
        require (items ≠ []) .limitExceeded
        .ok (items, true)
      else
        collect view inclusiveUpper wanted rest (items ++ [(event, status)]) next

/-- One page read. `view` is the view of the tables, `atFence` and `atPage` are the states in which
the index is asked for its last intent and for its page. -/
def scanUndeliveredOutboxStatuses (view atFence atPage : OutboxStore EventId)
    (request : UndeliveredOutboxStatusScanRequestV1 EventId) :
    Except StorageErrorKind (UndeliveredOutboxStatusScanV1 EventId) :=
  match request.inclusiveUpper.or atFence.lastIntent with
  | none =>
    if view.rows.any fun row => row.2.isSome then .error .corruptData else .ok ⟨[], none⟩
  | some inclusiveUpper => do
    require (request.after.all (· ≤ inclusiveUpper)) .invariantViolation
    let source := undeliveredOutboxPage atPage request.after (request.limit.get + 1)
    let collected ← collect sizes view inclusiveUpper request.limit.get source.1 [] 0
    if source.2 || collected.2 then
      (scanPage sizes request inclusiveUpper collected.1).mapError storedValueError
    else (scanExactEnd sizes request inclusiveUpper collected.1).mapError storedValueError

inductive OutboxClockError where
  | unavailable
  | invalidValue
deriving DecidableEq

inductive OutboxTransitionPhase where
  | claim
  | renew
  | succeed
  | retry
  | deadLetter
  | recovery
deriving DecidableEq

inductive OutboxFailpoint where
  | recoveryAfterScanBeforeNormalize
  | recoveryAfterNormalize
  | recoveryBeforeReady
  | deliveryAfterClaimBeforeConnector
  | deliveryAfterConnectorAcceptedBeforeSuccess
  | deliveryAfterConnectorRetryableBeforeRetry
  | deliveryAfterConnectorRejectedBeforeDeadLetter
deriving DecidableEq

inductive OutboxWorkerError where
  | storage (kind : Option StorageErrorKind)
  | invalidWorkerValue (reason : StorageValueError)
  | clock (reason : OutboxClockError)
  | stateChanged (phase : OutboxTransitionPhase)
  | authoritativeIntentMissing
  | interrupted (failpoint : OutboxFailpoint)
  | crashed
deriving DecidableEq

def interruptedSafeError : String := "delivery interrupted before durable completion"

/-- What recovery asks of its environment. The retry time is that of the policy by the clock. -/
structure RecoveryCalls (σ EventId : Type) where
  readPage : UndeliveredOutboxStatusScanRequestV1 EventId →
    Code σ OutboxWorkerError (UndeliveredOutboxStatusScanV1 EventId)
  stopAt : OutboxFailpoint → Code σ OutboxWorkerError Unit
  retryAt : EventId → NonZeroU32 → Code σ OutboxWorkerError (Option Timestamp)
  complete :
    EventId → OutboxStatusObservationV1 → OutboxDeliveryStateV1 → Code σ OutboxWorkerError Unit

section Loop

variable {σ : Type} (calls : RecoveryCalls σ EventId)

/-- An event that was being delivered becomes pending. -/
def recoverItem (item : OutboxRow EventId) : Code σ OutboxWorkerError Unit :=
  match item.2 with
  | some (.delivering attempt destinationId startedAt leaseDeadline) => do
    calls.stopAt .recoveryAfterScanBeforeNormalize
    let nextAttemptAt ← calls.retryAt item.1 attempt
    let delivering := .delivering attempt destinationId startedAt leaseDeadline
    let updated ← ofExcept
      ((retry delivering nextAttemptAt (some interruptedSafeError)).mapError .invalidWorkerValue)
    calls.complete item.1 (some delivering) updated
    calls.stopAt .recoveryAfterNormalize
  | _ => pure ()

def recoverItems : List (OutboxRow EventId) → Code σ OutboxWorkerError Unit
  | [] => pure ()
  | item :: items => do
    recoverItem calls item
    recoverItems items

def recoverPage (request : UndeliveredOutboxStatusScanRequestV1 EventId) :
    Code σ OutboxWorkerError (Option (UndeliveredOutboxStatusContinuationV1 EventId)) := do
  let scan ← calls.readPage request
  recoverItems calls scan.items
  pure scan.continuation

/-- The loop over the pages, with a bound on their number. -/
def recoverPages (limit : OutboxPageLimit) :
    Nat → UndeliveredOutboxStatusScanRequestV1 EventId → Code σ OutboxWorkerError Unit
  | 0, _ => fail .crashed
  | pages + 1, request => do
    match ← recoverPage calls request with
    | none => calls.stopAt .recoveryBeforeReady
    | some continuation =>
      recoverPages limit pages ⟨some continuation.after, some continuation.inclusiveUpper, limit⟩

end Loop

/-- What clock and policy answer for the next attempt of an event. -/
abbrev RetryClock (EventId : Type) := EventId → NonZeroU32 →
    Except OutboxClockError (Option Timestamp)

/-- The events that are committed while one page is read and handled: between the view and the
fence, between the fence and the page of the index, and before the next page. -/
structure Arrivals (EventId : Type) where
  beforeFence : List EventId
  beforePage : List EventId
  afterPage : List EventId

/-- A recovery that nothing interrupts: the store, what is to be committed during each of the pages
to come, and the pages that it has read. -/
structure Progress (EventId : Type) [LinearOrder EventId] where
  store : OutboxStore EventId
  arrivals : List (Arrivals EventId)
  pages : List (List (OutboxRow EventId))

variable (retryAt : RetryClock EventId)

def uninterrupted : RecoveryCalls (Progress EventId) EventId where
  readPage request := fun progress =>
    match progress.arrivals with
    | [] => (.error .crashed, progress)
    | arrivals :: rest =>
      let atFence := progress.store.commit arrivals.beforeFence
      let atPage := atFence.commit arrivals.beforePage
      match scanUndeliveredOutboxStatuses sizes progress.store atFence atPage request with
      | .error kind => (.error (.storage (some kind)), progress)
      | .ok scan => (.ok scan, ⟨atPage.commit arrivals.afterPage, rest,
          progress.pages ++ [scan.items]⟩)
  stopAt _ := pure ()
  retryAt event attempt := ofExcept ((retryAt event attempt).mapError .clock)
  complete event expected updated := fun progress =>
    match progress.store.transitionOutbox event expected updated with
    | (store, .applied _) => (.ok (), { progress with store := store })
    | (_, .stateChanged _) => (.error (.stateChanged .recovery), progress)
    | (_, .authoritativeIntentMissing) => (.error .authoritativeIntentMissing, progress)

inductive RecoveryOutcome where
  | ready
  | degraded (error : OutboxWorkerError)
  | unfinished
deriving DecidableEq

structure Recovery (EventId : Type) [LinearOrder EventId] where
  pages : List (List (OutboxRow EventId))
  store : OutboxStore EventId
  outcome : RecoveryOutcome

def outcomeOf : Except OutboxWorkerError Unit → RecoveryOutcome
  | .ok _ => .ready
  | .error .crashed => .unfinished
  | .error error => .degraded error

/-- One page for each element of the list, until the end or an error. -/
def recover (limit : OutboxPageLimit) (request : UndeliveredOutboxStatusScanRequestV1 EventId)
    (arrivals : List (Arrivals EventId)) (store : OutboxStore EventId) : Recovery EventId :=
  let ended := recoverPages (uninterrupted sizes retryAt) limit (arrivals.length + 1) request
    ⟨store, arrivals, []⟩
  ⟨ended.2.pages, ended.2.store, outcomeOf ended.1⟩

/-- The times of a clock that always answers. -/
abbrev RetryTimes (EventId : Type) := EventId → NonZeroU32 → Option Timestamp

def RetryTimes.answered (times : RetryTimes EventId) : RetryClock EventId :=
  fun event attempt => .ok (times event attempt)

variable {retryAt : RetryTimes EventId}

/-- The rows that go into one page, of those that are ahead. -/
def takePage (wanted : Nat) : Nat → Nat → List (OutboxRow EventId) → List (OutboxRow EventId)
  | _, _, [] => []
  | count, bytes, row :: rest =>
    if count = wanted ∨ maxScanPageBytes < bytes + sizes.encodedBytes row then []
    else row :: takePage wanted (count + 1) (bytes + sizes.encodedBytes row) rest

variable {rows : List (OutboxRow EventId)}
variable {wanted : Nat}

section

omit [LinearOrder EventId]

theorem takePage_prefix (wanted count bytes : Nat) (rows : List (OutboxRow EventId)) :
    takePage sizes wanted count bytes rows <+: rows := by
  induction rows generalizing count bytes with
  | nil => exact prefix_refl _
  | cons row rest ih =>
    rw [takePage]
    split
    · exact nil_prefix
    · exact (prefix_cons_inj row).mpr (ih _ _)

theorem takePage_within {count bytes : Nat} (counted : count ≤ wanted)
    (sized : bytes ≤ maxScanPageBytes) (rows : List (OutboxRow EventId)) :
    count + (takePage sizes wanted count bytes rows).length ≤ wanted ∧
      bytes + pageBytes sizes (takePage sizes wanted count bytes rows) ≤ maxScanPageBytes := by
  induction rows generalizing count bytes with
  | nil => exact ⟨counted, sized⟩
  | cons row rest ih =>
    rw [takePage]
    split
    · exact ⟨counted, sized⟩
    · next room =>
      rw [not_or] at room
      obtain ⟨few, small⟩ := @ih (count + 1) (bytes + sizes.encodedBytes row) (by omega) (by omega)
      rw [length_cons, pageBytes, map_cons, sum_cons, ← pageBytes]
      omega

theorem takePage_ne_nil (positive : 0 < wanted) (something : rows ≠ []) :
    takePage sizes wanted 0 0 rows ≠ [] := by
  cases rows with
  | nil => exact absurd rfl something
  | cons row rest =>
    have fits := sizes.fits row
    rw [takePage, if_neg (by omega)]
    exact cons_ne_nil _ _

end

/-- The loop gathers a page of the rows ahead, from the part of the index that it was given. -/
theorem collect_eq {view : OutboxStore EventId} {inclusiveUpper : EventId} (positive : 0 < wanted)
    {within : List (OutboxRow EventId)} {beyond : List EventId}
    (stored : ∀ row ∈ within, row ∈ view.rows ∧ isUndelivered row.2 = true ∧ row.1 ≤ inclusiveUpper)
    (behind : ∀ event ∈ beyond, inclusiveUpper < event) (items : List (OutboxRow EventId))
    (bytes : Nat) (counted : items.length ≤ wanted) (start : items = [] → bytes = 0) :
    ∃ cut, collect sizes view inclusiveUpper wanted
        ((within.map Prod.fst ++ beyond).take (wanted + 1 - items.length)) items bytes =
          .ok (items ++ takePage sizes wanted items.length bytes within, cut) ∧
      (cut = true ↔ takePage sizes wanted items.length bytes within ≠ within) := by
  induction within generalizing items bytes with
  | nil =>
    refine ⟨false, ?_, by simp [takePage]⟩
    rw [map_nil, nil_append, takePage, append_nil]
    obtain ⟨count, isCount⟩ : ∃ count, wanted + 1 - items.length = count + 1 :=
      ⟨wanted - items.length, by omega⟩
    rw [isCount]
    cases beyond with
    | nil => rfl
    | cons event rest =>
      rw [take_succ_cons, collect, if_pos (behind event mem_cons_self)]
  | cons row rest ih =>
    obtain ⟨event, status⟩ := row
    obtain ⟨isStored, undelivered, below⟩ := stored (event, status) mem_cons_self
    have found := status_eq_some.mpr isStored
    obtain ⟨count, isCount⟩ : ∃ count, wanted + 1 - items.length = count + 1 :=
      ⟨wanted - items.length, by omega⟩
    rw [isCount, map_cons, cons_append, take_succ_cons, collect, if_neg (not_lt.mpr below),
      found, okOr_some, ok_bind, undelivered]
    simp only [Bool.true_eq_false, if_false]
    by_cases full :
      items.length = wanted ∨ maxScanPageBytes < bytes + sizes.encodedBytes (event, status)
    · have some' : items ≠ [] := by
        intro isEmpty
        have fits := sizes.fits (event, status)
        have zero := start isEmpty
        rw [isEmpty, length_nil] at full
        omega
      refine ⟨true, ?_, ?_⟩
      · rw [if_pos full, require_pos some', ok_bind, takePage, if_pos full, append_nil]
      · rw [takePage, if_pos full]
        simp
    · rw [if_neg full, takePage, if_neg full]
      rw [not_or] at full
      have longer : (items ++ [(event, status)]).length = items.length + 1 := by simp
      obtain ⟨cut, collected, isCut⟩ := ih (fun row member => stored row (mem_cons_of_mem _ member))
        (items ++ [(event, status)]) (bytes + sizes.encodedBytes (event, status))
        (by rw [longer]; omega) (fun isEmpty => by simp at isEmpty)
      have sameCount : wanted + 1 - (items ++ [(event, status)]).length = count := by
        rw [longer]
        omega
      rw [sameCount] at collected
      refine ⟨cut, ?_, ?_⟩
      · rw [collected, longer, append_assoc, singleton_append]
      · rw [isCut, longer]
        simp

variable {sizes}

variable (retryAt) in
def normalizeRow (row : OutboxRow EventId) : OutboxRow EventId :=
  (row.1, match row.2 with
    | some (.delivering attempt destinationId startedAt _) =>
      some (.pending ⟨attempt, startedAt, retryAt row.1 attempt, destinationId,
      some interruptedSafeError⟩)
    | other => other)

variable {row : OutboxRow EventId}

omit [LinearOrder EventId] in
/-- A row that is not being delivered stays as it is. -/
theorem normalizeRow_eq_self (idle : ∀ attempt destinationId startedAt leaseDeadline,
      row.2 ≠ some (.delivering attempt destinationId startedAt leaseDeadline)) :
    normalizeRow retryAt row = row := by
  obtain ⟨event, status⟩ := row
  unfold normalizeRow
  split
  · next same => exact absurd same (idle _ _ _ _)
  · rfl

omit [LinearOrder EventId] in
theorem normalizeRow_of_delivered (delivered : isUndelivered row.2 = false) :
    normalizeRow retryAt row = row := by
  apply normalizeRow_eq_self
  intro _ _ _ _ same
  rw [same] at delivered
  cases delivered

variable {store : OutboxStore EventId}

theorem row_unique {left right : OutboxRow EventId}
    (leftIn : left ∈ store.rows) (rightIn : right ∈ store.rows) (same : left.1 = right.1) :
      left = right := by
  have leftStatus := status_eq_some.mpr leftIn
  have rightStatus := status_eq_some.mpr rightIn
  rw [same] at leftStatus
  exact Prod.ext same (Option.some.inj (leftStatus.symm.trans rightStatus))

/-- One stored row of a page: its delivery becomes pending if it was interrupted. -/
theorem recoverItem_eq {event : EventId} {status : OutboxStatusObservationV1}
    (isStored : (event, status) ∈ store.rows) :
    ∃ moved, (∀ arrivals pages, recoverItem (uninterrupted sizes retryAt.answered) (event, status)
        ⟨store, arrivals, pages⟩ = (.ok (), ⟨moved, arrivals, pages⟩)) ∧
      moved.rows = store.rows.map fun row => if row.1 = event then normalizeRow retryAt row
        else row := by
  have here : ∀ row ∈ store.rows, row.1 = event → row = (event, status) := fun row member same =>
    row_unique member isStored same
  rcases status with _ | (_ | ⟨attempt, destinationId, startedAt, leaseDeadline⟩ | _ | _)
  case some.delivering =>
    let settled : OutboxDeliveryStateV1 :=
      .pending ⟨attempt, startedAt, retryAt event attempt, destinationId, some interruptedSafeError⟩
    refine ⟨store.setStatus event settled, fun arrivals pages => ?_,
      map_congr_left fun row member => ?_⟩
    · have recorded : (uninterrupted sizes retryAt.answered).complete event
          (some (.delivering attempt destinationId startedAt leaseDeadline)) settled
          ⟨store, arrivals, pages⟩ =
            (.ok (), ⟨store.setStatus event settled, arrivals, pages⟩) := by
        simp only [uninterrupted, transitionOutbox, status_eq_some.mpr isStored, if_true]
      exact bind_ok recorded
    · split
      · next same =>
        rw [here row member same]
        rfl
      · rfl
  all_goals
    refine ⟨store, fun _ _ => rfl, ((map_congr_left fun row member => ?_).trans (map_id _)).symm⟩
    split
    · next same =>
      rw [here row member same]
      rfl
    · rfl

/-- Every transition of a page is applied: its rows are the stored ones. -/
theorem recoverItems_eq {items : List (OutboxRow EventId)}
    (stored : ∀ row ∈ items, row ∈ store.rows) (increasing : Increasing items) :
    ∃ next, (∀ arrivals pages, recoverItems (uninterrupted sizes retryAt.answered) items
        ⟨store, arrivals, pages⟩ = (.ok (), ⟨next, arrivals, pages⟩)) ∧
      next.rows = store.rows.map fun row =>
        if row.1 ∈ items.map Prod.fst then normalizeRow retryAt row else row := by
  induction items generalizing store with
  | nil => exact ⟨store, fun _ _ => rfl, by simp⟩
  | cons first rest ih =>
    obtain ⟨event, status⟩ := first
    obtain ⟨before, others⟩ := pairwise_cons.mp increasing
    obtain ⟨moved, step, isMoved⟩ := recoverItem_eq (stored (event, status) mem_cons_self)
    have apart : ∀ row ∈ rest, row.1 ≠ event := fun row member same =>
      (before row member).ne same.symm
    have later : ∀ row ∈ rest, row ∈ moved.rows := by
      intro row member
      rw [isMoved]
      exact mem_map.mpr ⟨row, stored row (mem_cons_of_mem _ member), if_neg (apart row member)⟩
    obtain ⟨next, normalized, isRows⟩ := ih later others
    refine ⟨next, fun arrivals pages => (bind_ok (step arrivals pages)).trans (normalized _ _), ?_⟩
    rw [isRows, isMoved, map_map]
    refine map_congr_left fun row _ => ?_
    by_cases same : row.1 = event
    · have absent : event ∉ rest.map Prod.fst := fun member =>
        (mem_map.mp member).elim fun other found => apart other found.1 found.2
      simp [same, absent, normalizeRow]
    · simp only [Function.comp_apply, map_cons, mem_cons, same, if_false, false_or]

variable {after : Option EventId}

theorem startsAfter_of_lt {event later : EventId}
    (starts : startsAfter after event = true) (less : event < later) :
      startsAfter after later = true := by
  cases after with
  | none => rfl
  | some start =>
    simp only [startsAfter, Option.all_some, decide_eq_true_eq] at starts ⊢
    exact lt_trans starts less

/-- What recovery has made of the rows it started from, when it has come to `after`. -/
def progress (retryAt : RetryTimes EventId) (after : Option EventId)
    (rows : List (OutboxRow EventId)) : List (OutboxRow EventId) :=
  rows.map fun row => if startsAfter after row.1 then row else normalizeRow retryAt row

/-- The rows that are still to be listed. -/
def ahead (after : Option EventId) (rows : List (OutboxRow EventId)) : List (OutboxRow EventId) :=
  rows.filter fun row => isUndelivered row.2 && startsAfter after row.1

theorem ahead_progress (after : Option EventId) (rows : List (OutboxRow EventId)) :
    ahead after (progress retryAt after rows) = ahead after rows := by
  induction rows with
  | nil => rfl
  | cons row rest ih =>
    unfold ahead progress at ih ⊢
    rw [map_cons, filter_cons, filter_cons, ih]
    cases starts : startsAfter after row.1 with
    | true => simp [starts]
    | false =>
      have notAhead : startsAfter after (normalizeRow retryAt row).1 = false := starts
      simp [notAhead]

theorem ahead_append (after : Option EventId) (left right : List (OutboxRow EventId)) :
    ahead after (left ++ right) = ahead after left ++ ahead after right :=
  filter_append ..

theorem mem_ahead :
    row ∈ ahead after rows ↔ row ∈ rows ∧ isUndelivered row.2 = true ∧
      startsAfter after row.1 = true := by
  rw [ahead, mem_filter, Bool.and_eq_true]

theorem increasing_ahead (increasing : Increasing rows) : Increasing (ahead after rows) :=
  increasing.sublist filter_sublist

/-- The index lists the rows ahead. -/
theorem undelivered_ahead (store : OutboxStore EventId) (after : Option EventId) :
    store.undelivered.filter (startsAfter after) = (ahead after store.rows).map Prod.fst := by
  unfold undelivered ahead
  rw [filter_map, filter_filter]
  congr 1
  refine filter_congr fun row _ => ?_
  simp only [Function.comp_apply, Bool.and_comm]

theorem page_eq (store : OutboxStore EventId) (after : Option EventId) (limit : Nat) :
    (undeliveredOutboxPage store after limit).1 =
      ((ahead after store.rows).map Prod.fst).take limit ∧
      ((undeliveredOutboxPage store after limit).2 = true ↔
        limit < (ahead after store.rows).length) := by
  simp only [undeliveredOutboxPage, undelivered_ahead, take_take, length_take, length_map,
    decide_eq_true_eq]
  constructor
  · congr 1
    omega
  · omega

variable {last : OutboxRow EventId}

theorem le_getLast (increasing : Increasing rows) (isLast : rows.getLast? = some last) :
    ∀ row ∈ rows, row.1 ≤ last.1 := by
  obtain ⟨before, rfl⟩ := List.getLast?_eq_some_iff.mp isLast
  intro row member
  rcases mem_append.mp member with member | member
  · exact le_of_lt ((pairwise_append.mp increasing).2.2 row member last (by simp))
  · rw [mem_singleton.mp member]

/-- A later start, at the last row of a page: the page comes off the rows ahead. -/
theorem ahead_after_page {rows items rest : List (OutboxRow EventId)} (increasing : Increasing rows)
    (split : ahead after rows = items ++ rest) (isLast : items.getLast? = some last) :
    ahead (some last.1) rows = rest ∧
      ∀ row, row ∈ items ↔ row ∈ ahead after rows ∧ startsAfter (some last.1) row.1 = false := by
  have sorted : Increasing (items ++ rest) := split ▸ increasing_ahead increasing
  obtain ⟨sortedItems, _, between⟩ := pairwise_append.mp sorted
  have lastIn := mem_of_getLast? isLast
  have upTo := le_getLast sortedItems isLast
  have lastAhead : startsAfter after last.1 = true :=
    (mem_ahead.mp (split ▸ mem_append_left rest lastIn)).2.2
  constructor
  · have narrowed :
        ahead (some last.1) rows = (ahead after rows).filter fun row => last.1 < row.1 := by
      unfold ahead
      rw [filter_filter]
      refine filter_congr fun row _ => ?_
      by_cases later : last.1 < row.1
      · have both := startsAfter_of_lt lastAhead later
        simp [startsAfter.eq_def (some last.1), later, both]
      · simp [startsAfter.eq_def (some last.1), later]
    rw [narrowed, split, filter_append]
    have none' : items.filter (fun row => decide (last.1 < row.1)) = [] := by
      refine filter_eq_nil_iff.mpr fun row member => ?_
      simp [upTo row member]
    have all : rest.filter (fun row => decide (last.1 < row.1)) = rest := by
      refine filter_eq_self.mpr fun row member => ?_
      simp [between last lastIn row member]
    rw [none', all, nil_append]
  · intro row
    simp only [split, mem_append, startsAfter, Option.all_some, decide_eq_false_iff_not, not_lt]
    constructor
    · exact fun member => ⟨Or.inl member, upTo row member⟩
    · rintro ⟨member | behind, early⟩
      · exact member
      · exact absurd (between last lastIn row behind) (not_lt.mpr early)

variable {limit : OutboxPageLimit} {arrivals : List (Arrivals EventId)}

section Page

variable {rows : List (OutboxRow EventId)} {upper : EventId} {after : Option EventId}
  {request : UndeliveredOutboxStatusScanRequestV1 EventId}

variable (retryAt) in
/-- The store holds the rows that recovery started from, as far as it has come, and then newer
ones. -/
def Carries (rows : List (OutboxRow EventId)) (upper : EventId) (after : Option EventId)
    (store : OutboxStore EventId) : Prop :=
  ∃ newer, store.rows = progress retryAt after rows ++ newer ∧ ∀ row ∈ newer, upper < row.1

variable (sizes) in
/-- The rows that the next page takes. -/
def nextPage (request : UndeliveredOutboxStatusScanRequestV1 EventId)
    (rows : List (OutboxRow EventId)) : List (OutboxRow EventId) :=
  takePage sizes request.limit.get 0 0 (ahead request.after rows)

theorem nextPage_prefix : nextPage sizes request rows <+: ahead request.after rows :=
  takePage_prefix ..

variable {store : OutboxStore EventId}

/-- New events come behind the fence. -/
theorem commit_beyond {base newer : List (OutboxRow EventId)}
    (isRows : store.rows = base ++ newer) (beyond : ∀ row ∈ newer, upper < row.1)
    (upperIn : upper ∈ base.map Prod.fst) (events : List EventId) :
    ∃ newer, (store.commit events).rows = base ++ newer ∧ ∀ row ∈ newer, upper < row.1 := by
  unfold commit
  split
  · next later =>
    refine ⟨newer ++ events.map fun event => (event, none), by rw [← append_assoc, ← isRows], ?_⟩
    intro row member
    rcases mem_append.mp member with member | member
    · exact beyond row member
    · obtain ⟨old, isOld, rfl⟩ := mem_map.mp upperIn
      have held : old ∈ store.rows := by
        rw [isRows]
        exact mem_append_left _ isOld
      exact (pairwise_append.mp later).2.2 old held row member
  · exact ⟨newer, isRows, beyond⟩

omit [LinearOrder EventId] in
theorem map_fst_choice (rows : List (OutboxRow EventId)) (keeps : OutboxRow EventId → Bool) :
    (rows.map fun row => if keeps row then row else normalizeRow retryAt row).map Prod.fst =
      rows.map Prod.fst := by
  rw [map_map]
  refine map_congr_left fun row _ => ?_
  simp only [Function.comp_apply]
  split <;> rfl

theorem Carries.commit (carries : Carries retryAt rows upper after store)
    (upperIn : upper ∈ rows.map Prod.fst) (events : List EventId) :
    Carries retryAt rows upper after (store.commit events) := by
  obtain ⟨newer, isRows, beyond⟩ := carries
  exact commit_beyond isRows beyond ((map_fst_choice rows _).symm ▸ upperIn) events

variable {row : OutboxRow EventId}

theorem Carries.holds (carries : Carries retryAt rows upper after store)
    (isAhead : row ∈ ahead after rows) : row ∈ store.rows := by
  obtain ⟨newer, isRows, _⟩ := carries
  obtain ⟨member, _, starts⟩ := mem_ahead.mp isAhead
  rw [isRows]
  exact mem_append_left _ (mem_map.mpr ⟨row, member, by rw [if_pos starts]⟩)

theorem validate_ok (sameUpper : request.inclusiveUpper.all (· = upper) = true)
    (increasing : Increasing rows) (bounded : ∀ row ∈ rows, row.1 ≤ upper) :
    validateUndeliveredScanItems sizes request upper (nextPage sizes request rows) = .ok () := by
  have taken : nextPage sizes request rows <+: ahead request.after rows := nextPage_prefix
  obtain ⟨few, small⟩ := takePage_within sizes (Nat.zero_le request.limit.get)
    (Nat.zero_le maxScanPageBytes)
    (ahead request.after rows)
  have sorted : Increasing (nextPage sizes request rows) :=
    (increasing_ahead increasing).sublist taken.sublist
  rw [Nat.zero_add] at few small
  simp only [validateUndeliveredScanItems, bind_eq_ok, require_eq_ok]
  refine ⟨(), sameUpper, (), few, (), sorted, (), ?_, small⟩
  refine all_eq_true.mpr fun row member => ?_
  obtain ⟨isRow, _, starts⟩ := mem_ahead.mp (taken.subset member)
  rw [starts, Bool.true_and]
  exact decide_eq_true (bounded row isRow)

/-- A page read that no event behind the fence disturbs: it is the last one when the rows ahead fit
into the page, and otherwise it goes on from its last row. -/
theorem scan_eq {view atFence atPage : OutboxStore EventId}
    (inView : Carries retryAt rows upper request.after view)
    (inPage : Carries retryAt rows upper request.after atPage)
    (isUpper : request.inclusiveUpper.or atFence.lastIntent = some upper)
    (start : request.after.all (· ≤ upper) = true) (increasing : Increasing rows)
    (bounded : ∀ row ∈ rows, row.1 ≤ upper)
    (clear : (ahead request.after atPage.rows).length ≤ request.limit.get + 1 ∨
      nextPage sizes request rows ≠ ahead request.after rows) :
    scanUndeliveredOutboxStatuses sizes view atFence atPage request =
      .ok ⟨ahead request.after rows, none⟩ ∨
      ∃ last, (nextPage sizes request rows).getLast? = some last ∧
        scanUndeliveredOutboxStatuses sizes view atFence atPage request =
          .ok ⟨nextPage sizes request rows, some ⟨last.1, upper⟩⟩ := by
  obtain ⟨newer, isRows, beyond⟩ := id inPage
  have sameUpper : request.inclusiveUpper.all (· = upper) = true := by
    cases given : request.inclusiveUpper with
    | none => rfl
    | some value =>
      rw [given, Option.some_or, Option.some.injEq] at isUpper
      simp [isUpper]
  have indexed :
      ahead request.after atPage.rows = ahead request.after rows ++ ahead request.after newer := by
    rw [isRows, ahead_append, ahead_progress]
  obtain ⟨isSource, hasMore⟩ := page_eq atPage request.after (request.limit.get + 1)
  have stored : ∀ row ∈ ahead request.after rows,
      row ∈ view.rows ∧ isUndelivered row.2 = true ∧ row.1 ≤ upper := by
    intro row member
    obtain ⟨isRow, undelivered, _⟩ := mem_ahead.mp member
    exact ⟨inView.holds member, undelivered, bounded row isRow⟩
  have behind : ∀ event ∈ (ahead request.after newer).map Prod.fst, upper < event := by
    intro event member
    obtain ⟨row, isRow, rfl⟩ := mem_map.mp member
    exact beyond row (mem_ahead.mp isRow).1
  obtain ⟨cut, collected, isCut⟩ :=
    collect_eq sizes request.limit.positive stored behind [] 0 (Nat.zero_le _) (fun _ => rfl)
  rw [length_nil, Nat.sub_zero, nil_append, ← map_append, ← indexed, ← isSource,
    ← nextPage] at collected
  rw [length_nil, ← nextPage] at isCut
  have valid :
      validateUndeliveredScanItems sizes request upper (nextPage sizes request rows) = .ok () :=
    validate_ok sameUpper increasing bounded
  rw [scanUndeliveredOutboxStatuses, isUpper]
  simp only [require_pos start, ok_bind]
  rw [collected]
  simp only [ok_bind]
  by_cases whole : nextPage sizes request rows = ahead request.after rows
  · left
    have notCut : cut = false := by
      rw [← Bool.not_eq_true, isCut]
      exact not_not.mpr whole
    have few := clear.resolve_right (not_not.mpr whole)
    have noMore :
        (undeliveredOutboxPage atPage request.after (request.limit.get + 1)).2 = false := by
      rw [← Bool.not_eq_true, hasMore]
      omega
    rw [whole] at valid ⊢
    simp only [notCut, noMore, Bool.or_self, Bool.false_eq_true, if_false, scanExactEnd,
      valid, ok_bind, Except.mapError]
  · right
    have something : ahead request.after rows ≠ [] := by
      intro nothing
      rw [nextPage, nothing] at whole
      exact whole rfl
    obtain ⟨last, isLast⟩ : ∃ last, (nextPage sizes request rows).getLast? = some last :=
      ⟨_, List.getLast?_eq_some_getLast (takePage_ne_nil sizes request.limit.positive something)⟩
    refine ⟨last, isLast, ?_⟩
    -- a row was left out, and it lies between the last one of the page and the fence
    have below : last.1 < upper := by
      obtain ⟨rest, split⟩ : nextPage sizes request rows <+: ahead request.after rows :=
        nextPage_prefix
      obtain ⟨isRest, _⟩ := ahead_after_page increasing split.symm isLast
      have left : rest ≠ [] := by
        rintro rfl
        exact whole ((append_nil _).symm.trans split)
      obtain ⟨next, isNext⟩ := exists_mem_of_ne_nil rest left
      rw [← isRest, mem_ahead] at isNext
      exact lt_of_lt_of_le (of_decide_eq_true isNext.2.2) (bounded next isNext.1)
    have isCut := isCut.mpr whole
    simp only [isCut, Bool.or_true, if_true, scanPage, valid, isLast, okOr_some,
      require_pos below, ok_bind, Except.mapError]

variable {items : List (OutboxRow EventId)}

/-- A page makes those of its rows pending that were being delivered; `later` are the events that it
leaves for the next one. -/
theorem rows_after_page {starts later : EventId → Bool}
    (narrow : ∀ event, later event = true → starts event = true)
    (listed : ∀ row ∈ rows, row.1 ∈ items.map Prod.fst ↔
      isUndelivered row.2 = true ∧ starts row.1 = true ∧ later row.1 = false) :
    ((rows.map fun row => if starts row.1 then row else normalizeRow retryAt row).map fun row =>
        if row.1 ∈ items.map Prod.fst then normalizeRow retryAt row else row) =
      rows.map fun row => if later row.1 then row else normalizeRow retryAt row := by
  rw [map_map]
  refine map_congr_left fun row member => ?_
  have isListed := listed row member
  simp only [Function.comp_apply]
  cases isLater : later row.1 with
  | true =>
    have starts := narrow row.1 isLater
    rw [if_pos starts, if_pos rfl, if_neg]
    rw [isListed, isLater]
    simp
  | false =>
    rw [if_neg Bool.false_ne_true]
    cases isStart : starts row.1 with
    | false =>
      rw [if_neg Bool.false_ne_true]
      refine if_neg fun inPage => ?_
      have both := isListed.mp inPage
      rw [isStart] at both
      exact Bool.false_ne_true both.2.1
    | true =>
      rw [if_pos rfl]
      cases undelivered : isUndelivered row.2 with
      | true => exact if_pos (isListed.mpr ⟨undelivered, isStart, isLater⟩)
      | false =>
        rw [normalizeRow_of_delivered undelivered]
        exact ite_self row

theorem mem_map_fst (increasing : Increasing rows) (subset : ∀ item ∈ items, item ∈ rows)
    (member : row ∈ rows) : row.1 ∈ items.map Prod.fst ↔ row ∈ items := by
  constructor
  · intro listed
    obtain ⟨item, isItem, same⟩ := mem_map.mp listed
    have unique := @row_unique _ _ ⟨rows, increasing⟩ _ _ (subset item isItem) member same
    rw [← unique]
    exact isItem
  · exact mem_map_of_mem

/-- The transitions of a page, in the store that the page was read from. -/
theorem recoverItems_page
    (carries : Carries retryAt rows upper after store) (bounded : ∀ row ∈ rows, row.1 ≤ upper)
    (increasing : Increasing rows) (isPage : items <+: ahead after rows) {later : EventId → Bool}
    (narrow : ∀ event, later event = true → startsAfter after event = true)
    (taken : ∀ row, row ∈ items ↔ row ∈ ahead after rows ∧ later row.1 = false) :
    ∃ next newer, (∀ arrivals pages, recoverItems (uninterrupted sizes retryAt.answered) items
        ⟨store, arrivals, pages⟩ = (.ok (), ⟨next, arrivals, pages⟩)) ∧
      next.rows = (rows.map fun row => if later row.1 then row else normalizeRow retryAt row) ++
        newer ∧ ∀ row ∈ newer, upper < row.1 := by
  have stored : ∀ row ∈ items, row ∈ store.rows :=
    fun row member => carries.holds (isPage.subset member)
  have sorted : Increasing items := (increasing_ahead increasing).sublist isPage.sublist
  obtain ⟨next, normalized, isNext⟩ := @recoverItems_eq _ _ sizes retryAt _ _ stored sorted
  obtain ⟨newer, isRows, beyond⟩ := carries
  refine ⟨next, newer, normalized, ?_, beyond⟩
  rw [isNext, isRows, map_append]
  congr 1
  · refine rows_after_page narrow fun row member => ?_
    rw [mem_map_fst increasing (fun item isItem => (mem_ahead.mp (isPage.subset isItem)).1) member,
      taken, mem_ahead, and_assoc, and_assoc, and_iff_right member]
  · refine (map_congr_left fun row member => if_neg fun inPage => ?_).trans (map_id newer)
    obtain ⟨item, isItem, same⟩ := mem_map.mp inPage
    have below := bounded item (mem_ahead.mp (isPage.subset isItem)).1
    rw [same] at below
    exact absurd (beyond row member) (not_lt.mpr below)

variable (sizes) in
/-- Nothing disturbs the page read: no event is committed between the view and the first reading of
the fence, and when the rows up to the fence fit into the page, the index has no more events than
that page looks at. -/
def Unobstructed (request : UndeliveredOutboxStatusScanRequestV1 EventId)
    (store : OutboxStore EventId) (arrivals : Arrivals EventId) : Prop :=
  (request.inclusiveUpper = none → arrivals.beforeFence = []) ∧
  ∀ upper, request.inclusiveUpper.or store.lastIntent = some upper →
    let atPage := (store.commit arrivals.beforeFence).commit arrivals.beforePage
    let within := (ahead request.after store.rows).filter fun row => row.1 ≤ upper
    (ahead request.after atPage.rows).length ≤ request.limit.get + 1 ∨
      takePage sizes request.limit.get 0 0 within ≠ within

theorem commit_nil (store : OutboxStore EventId) : store.commit [] = store := by
  have same : store.rows ++ ([] : List EventId).map (fun event => (event, none)) = store.rows :=
    append_nil _
  unfold commit
  rw [dif_pos (same.symm ▸ store.increasing)]
  exact OutboxStore.ext same

theorem Carries.within (carries : Carries retryAt rows upper after store)
    (bounded : ∀ row ∈ rows, row.1 ≤ upper) :
    ((ahead after store.rows).filter fun row => row.1 ≤ upper) = ahead after rows := by
  obtain ⟨newer, isRows, beyond⟩ := carries
  rw [isRows, ahead_append, ahead_progress, filter_append]
  have all : (ahead after rows).filter (fun row => row.1 ≤ upper) = ahead after rows := by
    refine filter_eq_self.mpr fun row member => ?_
    exact decide_eq_true (bounded row (mem_ahead.mp member).1)
  have none' : (ahead after newer).filter (fun row => row.1 ≤ upper) = [] := by
    refine filter_eq_nil_iff.mpr fun row member => ?_
    simp [beyond row (mem_ahead.mp member).1]
  rw [all, none', append_nil]

theorem recoverPage_of_scan {arrivals : Arrivals EventId}
    {scan : UndeliveredOutboxStatusScanV1 EventId}
    {next : OutboxStore EventId} (scanned : scanUndeliveredOutboxStatuses sizes store
      (store.commit arrivals.beforeFence)
      ((store.commit arrivals.beforeFence).commit arrivals.beforePage) request = .ok scan)
    (normalized : ∀ rest pages, recoverItems (uninterrupted sizes retryAt.answered) scan.items
      ⟨((store.commit arrivals.beforeFence).commit arrivals.beforePage).commit arrivals.afterPage,
      rest, pages⟩ =
        (.ok (), ⟨next, rest, pages⟩)) (rest : List (Arrivals EventId)) (pages :
        List (List (OutboxRow EventId))) :
    recoverPage (uninterrupted sizes retryAt.answered) request ⟨store, arrivals :: rest, pages⟩ =
      (.ok scan.continuation, ⟨next, rest, pages ++ [scan.items]⟩) := by
  rw [recoverPage, bind_apply]
  simp only [uninterrupted, scanned]
  exact bind_ok (normalized rest _)

/-- What one undisturbed page does: it is the last one and leaves no row to recover, or it takes
some rows and the next page goes on behind them. -/
theorem recoverPage_eq {arrivals : Arrivals EventId}
    (carries : Carries retryAt rows upper request.after store)
    (isUpper : request.inclusiveUpper.or store.lastIntent = some upper)
    (start : request.after.all (· ≤ upper) = true) (increasing : Increasing rows)
    (bounded : ∀ row ∈ rows, row.1 ≤ upper) (upperIn : upper ∈ rows.map Prod.fst)
    (clear : Unobstructed sizes request store arrivals) :
    (∃ final newer, (∀ rest pages, recoverPage (uninterrupted sizes retryAt.answered) request
        ⟨store, arrivals :: rest, pages⟩ =
        (.ok none, ⟨final, rest, pages ++ [ahead request.after rows]⟩)) ∧
      final.rows = rows.map (normalizeRow retryAt) ++ newer ∧ ∀ row ∈ newer, upper < row.1) ∨
    ∃ items last next, (∀ rest pages, recoverPage (uninterrupted sizes retryAt.answered) request
        ⟨store, arrivals :: rest, pages⟩ =
        (.ok (some ⟨last, upper⟩), ⟨next, rest, pages ++ [items]⟩)) ∧ items ≠ [] ∧ last ≤ upper ∧
      ahead request.after rows = items ++ ahead (some last) rows ∧
      Carries retryAt rows upper (some last) next := by
  have atFence :
      request.inclusiveUpper.or (store.commit arrivals.beforeFence).lastIntent = some upper := by
    cases given : request.inclusiveUpper with
    | none =>
      rw [given] at isUpper
      rw [clear.1 given, commit_nil]
      exact isUpper
    | some value =>
      rw [given] at isUpper
      exact isUpper
  have inPage := (carries.commit upperIn arrivals.beforeFence).commit upperIn arrivals.beforePage
  have room := clear.2 upper isUpper
  simp only [carries.within bounded] at room
  have handled := inPage.commit upperIn arrivals.afterPage
  rcases scan_eq carries inPage atFence start increasing bounded room with
    scanned | ⟨last, isLast, scanned⟩
  · left
    obtain ⟨next, newer, normalized, isNext, beyond⟩ := recoverItems_page handled bounded increasing
      (prefix_refl _) (fun _ never => absurd never Bool.false_ne_true)
        (fun row => (and_iff_left rfl).symm)
    simp only [Bool.false_eq_true, if_false] at isNext
    exact ⟨next, newer, recoverPage_of_scan scanned normalized, isNext, beyond⟩
  · right
    have isPage : nextPage sizes request rows <+: ahead request.after rows := nextPage_prefix
    obtain ⟨rest, split⟩ := id isPage
    obtain ⟨isRest, taken⟩ := ahead_after_page increasing split.symm isLast
    have lastIn := mem_ahead.mp (isPage.subset (mem_of_getLast? isLast))
    have narrow : ∀ event, startsAfter (some last.1) event = true →
        startsAfter request.after event = true := by
      intro event later
      simp only [startsAfter, Option.all_some, decide_eq_true_eq] at later
      exact startsAfter_of_lt lastIn.2.2 later
    obtain ⟨next, newer, normalized, isNext, beyond⟩ := recoverItems_page handled bounded increasing
      isPage narrow taken
    refine ⟨nextPage sizes request rows, last.1, next, recoverPage_of_scan scanned normalized, ?_,
      bounded last lastIn.1, isRest.symm ▸ split.symm, ⟨newer, isNext, beyond⟩⟩
    intro nothing
    rw [nothing] at isLast
    cases isLast

variable (sizes) (retryAt) in
/-- Nothing disturbs any of the page reads. -/
def Undisturbed (limit : OutboxPageLimit) : UndeliveredOutboxStatusScanRequestV1 EventId →
    List (Arrivals EventId) → OutboxStore EventId → Prop
  | _, [], _ => True
  | request, arrivals :: rest, store => Unobstructed sizes request store arrivals ∧
    match recoverPage (uninterrupted sizes retryAt.answered) request ⟨store, [arrivals], []⟩ with
    | (.ok (some continuation), progress) => Undisturbed limit
        ⟨some continuation.after, some continuation.inclusiveUpper, limit⟩ rest progress.store
    | _ => True

theorem recoverPages_eq (increasing : Increasing rows) (bounded : ∀ row ∈ rows, row.1 ≤ upper)
    (upperIn : upper ∈ rows.map Prod.fst) (carries : Carries retryAt rows upper request.after store)
    (isUpper : request.inclusiveUpper.or store.lastIntent = some upper)
    (start : request.after.all (· ≤ upper) = true)
    (enough : (ahead request.after rows).length < arrivals.length)
    (undisturbed : Undisturbed sizes retryAt limit request arrivals store) :
    ∃ pages final left newer, (∀ before, recoverPages (uninterrupted sizes retryAt.answered) limit
        (arrivals.length + 1) request ⟨store, arrivals, before⟩ =
        (.ok (), ⟨final, left, before ++ pages⟩)) ∧ pages.flatten = ahead request.after rows ∧
      final.rows = rows.map (normalizeRow retryAt) ++ newer ∧ ∀ row ∈ newer, upper < row.1 := by
  -- every page but the last takes a row, so the rows ahead bound the number of pages
  induction arrivals generalizing request store with
  | nil => exact absurd enough (Nat.not_lt_zero _)
  | cons first rest ih =>
    obtain ⟨clear, others⟩ := undisturbed
    rcases recoverPage_eq carries isUpper start increasing bounded upperIn clear with
      ⟨final, newer, isPage, isRows, beyond⟩ | ⟨items, last, next, isPage, something, below,
        split, carried⟩
    · exact ⟨[ahead request.after rows], final, rest, newer, fun before =>
        bind_ok (isPage rest before), flatten_singleton, isRows, beyond⟩
    · rw [isPage] at others
      have shorter : (ahead (some last) rows).length < rest.length := by
        have counted := congrArg List.length split
        have positive := length_pos_of_ne_nil something
        rw [length_append] at counted
        rw [length_cons] at enough
        omega
      obtain ⟨pages, final, left, newer, recovered, listed, isRows, beyond⟩ :=
        @ih ⟨some last, some upper, limit⟩ next carried rfl (decide_eq_true below) shorter others
      refine ⟨items :: pages, final, left, newer, fun before => ?_, ?_, isRows, beyond⟩
      · rw [append_cons]
        exact (bind_ok (isPage rest before)).trans (recovered _)
      · rw [flatten_cons, listed, split]

end Page

omit [LinearOrder EventId] in
theorem not_delivering_normalizeRow (row : OutboxRow EventId) :
    isDelivering (normalizeRow retryAt row).2 = false := by
  obtain ⟨event, status⟩ := row
  rcases status with _ | (_ | _ | _ | _) <;> rfl

/-- The first request of a recovery. -/
def initialRequest (EventId : Type) (limit : OutboxPageLimit) :
    UndeliveredOutboxStatusScanRequestV1 EventId :=
  ⟨none, none, limit⟩

theorem le_lastIntent {upper : EventId} (isUpper : store.lastIntent = some upper) :
    upper ∈ store.rows.map Prod.fst ∧ ∀ row ∈ store.rows, row.1 ≤ upper := by
  obtain ⟨last, isLast, rfl⟩ := Option.map_eq_some_iff.mp isUpper
  exact ⟨mem_map_of_mem (mem_of_getLast? isLast), le_getLast store.increasing isLast⟩

theorem progress_none (rows : List (OutboxRow EventId)) : progress retryAt none rows = rows :=
  map_id rows

/-- With no event at the start there is nothing to recover. -/
theorem recover_of_empty (isEmpty : store.rows = []) (enough : 0 < arrivals.length)
    (undisturbed : Undisturbed sizes retryAt limit (initialRequest EventId limit) arrivals store) :
    ∃ final, recover sizes retryAt.answered limit (initialRequest EventId limit) arrivals store =
      ⟨[[]], final, .ready⟩ := by
  cases arrivals with
  | nil => exact absurd enough (lt_irrefl 0)
  | cons first rest =>
    have noFence : store.lastIntent = none := by rw [lastIntent, isEmpty]; rfl
    have scanned : scanUndeliveredOutboxStatuses sizes store (store.commit first.beforeFence)
        ((store.commit first.beforeFence).commit first.beforePage) (initialRequest EventId limit) =
        .ok ⟨[], none⟩ := by
      rw [undisturbed.1.1 rfl, commit_nil, scanUndeliveredOutboxStatuses, initialRequest]
      simp only [Option.none_or, noFence, isEmpty, any_nil, Bool.false_eq_true, if_false]
    refine ⟨((store.commit first.beforeFence).commit first.beforePage).commit first.afterPage, ?_⟩
    rw [recover, recoverPages, bind_ok (recoverPage_of_scan scanned (fun _ _ => rfl) rest [])]
    rfl

/-- Recovery completes with every interrupted delivery pending again, when nothing disturbs its page
reads: the pages list the undelivered events up to the fence, and as many pages as there are events,
and one, are enough. -/
theorem recovery_completes (sizes : RowSizes EventId) (retryAt : RetryTimes EventId)
    (limit : OutboxPageLimit) (arrivals : List (Arrivals EventId)) (store : OutboxStore EventId)
    (enough : store.rows.length < arrivals.length)
    (undisturbed : Undisturbed sizes retryAt limit (initialRequest EventId limit) arrivals store) :
    let recovery := recover sizes retryAt.answered limit
      (initialRequest EventId limit) arrivals store
    recovery.outcome = .ready ∧
    recovery.pages.flatten = store.rows.filter (fun row => isUndelivered row.2) ∧
    (∃ newer, recovery.store.rows = store.rows.map (normalizeRow retryAt) ++ newer) ∧
    ∀ row ∈ recovery.store.rows, store.lastIntent.any (row.1 ≤ ·) = true →
      isDelivering row.2 = false := by
  intro recovery
  cases isUpper : store.lastIntent with
  | none =>
    have isEmpty : store.rows = [] :=
      List.getLast?_eq_none_iff.mp (Option.map_eq_none_iff.mp isUpper)
    obtain ⟨final, recovered⟩ := recover_of_empty isEmpty (by omega) undisturbed
    have isRecovery : recovery = ⟨[[]], final, .ready⟩ := recovered
    rw [isRecovery, isEmpty]
    exact ⟨rfl, rfl, ⟨final.rows, rfl⟩, fun _ _ never => absurd never Bool.false_ne_true⟩
  | some upper =>
    obtain ⟨upperIn, bounded⟩ := le_lastIntent isUpper
    have carries : Carries retryAt store.rows upper (initialRequest EventId limit).after store :=
      ⟨[],
        by rw [initialRequest, progress_none, append_nil], fun _ never => absurd never not_mem_nil⟩
    have isAhead : ahead (initialRequest EventId limit).after store.rows =
        store.rows.filter fun row => isUndelivered row.2 := by
      refine filter_congr fun row _ => ?_
      exact Bool.and_true _
    have fits : (ahead (initialRequest EventId limit).after store.rows).length < arrivals.length :=
      lt_of_le_of_lt (length_filter_le _ _) enough
    obtain ⟨pages, final, _, newer, recovered, listed, isRows, beyond⟩ :=
      recoverPages_eq store.increasing bounded upperIn carries isUpper rfl fits undisturbed
    have isRecovery : recovery = ⟨pages, final, .ready⟩ := by
      simp only [recovery, recover, recovered, nil_append, outcomeOf]
    rw [isRecovery]
    refine ⟨rfl, listed.trans isAhead, ⟨newer, isRows⟩, ?_⟩
    intro row member below
    rw [isRows] at member
    rcases mem_append.mp member with member | member
    · obtain ⟨old, _, rfl⟩ := mem_map.mp member
      exact not_delivering_normalizeRow old
    · exact absurd (beyond row member) (not_lt.mpr (of_decide_eq_true below))

end Scan

theorem one_le_maxScanPageEntries : 1 ≤ maxScanPageEntries := by decide

theorem one_le_maxScanPageBytes (_ : OutboxRow Nat) : 1 ≤ maxScanPageBytes := by decide

def oneByOne : OutboxPageLimit := ⟨1, Nat.one_pos, one_le_maxScanPageEntries⟩

def smallRows : RowSizes Nat := ⟨fun _ => 1, one_le_maxScanPageBytes⟩

def atOnce : RetryTimes Nat := fun _ _ => none

def instant (seconds : Int64) : Timestamp := ⟨seconds, 0, zero_lt_nanosPerSecond⟩

def interrupted :
    OutboxDeliveryStateV1 := .delivering (NonZeroU32.lit 1) "sink" (instant 10) (instant 40)

def unborn : OutboxStore Nat := ⟨[], List.Pairwise.nil⟩

/-- The first event is pending, the delivery of the second one was interrupted. -/
def crashed : OutboxStore Nat := (unborn.commit [1, 2]).setStatus 2 interrupted

def quiet : Arrivals Nat := ⟨[], [], []⟩

theorem recovery_completes_crashed :
    let recovery := recover smallRows atOnce.answered oneByOne (initialRequest Nat oneByOne)
      [quiet, ⟨[], [3], []⟩, quiet] crashed
    recovery.outcome = .ready ∧
    recovery.pages.flatten = [(1, none), (2, some interrupted)] ∧
    (∃ newer, recovery.store.rows = crashed.rows.map (normalizeRow atOnce) ++ newer) ∧
    ∀ row ∈ recovery.store.rows, crashed.lastIntent.any (row.1 ≤ ·) = true →
      isDelivering row.2 = false :=
  recovery_completes smallRows atOnce oneByOne [quiet, ⟨[], [3], []⟩, quiet] crashed (by decide)
    ⟨⟨fun _ => rfl, fun _ _ => Or.inl (by decide +kernel)⟩,
      ⟨fun _ => rfl, fun _ _ => Or.inl (by decide +kernel)⟩, trivial⟩

/-- Two events that are committed after the first page are behind the fence, but the second page
takes them for a reason to continue. It fails, and the delivery stays interrupted. The same happens
to the first page when an event comes between the view and the fence. -/
theorem recovery_fails_of_later_events :
    (recover smallRows atOnce.answered oneByOne (initialRequest Nat oneByOne)
      [⟨[], [], [3, 4]⟩, quiet, quiet] crashed).outcome = .degraded (.storage (some .corruptData)) ∧
    (recover smallRows atOnce.answered oneByOne (initialRequest Nat oneByOne)
      [⟨[], [], [3, 4]⟩, quiet, quiet] crashed).store.status 2 = some (some interrupted) ∧
    (recover smallRows atOnce.answered oneByOne (initialRequest Nat oneByOne)
      [⟨[1], [], []⟩] unborn).outcome = .degraded (.storage (some .corruptData)) := by
  decide +kernel

end OutboxRecovery
