import RiffDb.OutboxProtocol
import RiffDb.OutboxRecovery

/-!
# The outbox worker

The worker claims pending events, calls the connector for each durable claim and records its answer;
before that, recovery makes interrupted deliveries pending. Clock, connector, failpoints and storage
answer from a list, one element for each question. When the list ends, the process is gone. A
storage call that fails may have been carried out or not.
-/

namespace OutboxWorker

open CheckedCode CanonicalScalars CommandRuntime OutboxStatus OutboxStatus.OutboxStatusObservationV1
  OutboxProtocol OutboxRecovery StatefulCode

def maxOutboxDeliveryAttempts : Nat := 32

def maxOutboxDeliveryTimeoutSeconds : Nat := 3600

def maxOutboxPolicyDelaySeconds : Nat := 86400

structure DeliveryPolicy where
  destinationId : String
  deliveryTimeoutSeconds : NonZeroU32
  leaseSeconds : NonZeroU32
  maxAttempts : NonZeroU32
  retryDelaysSeconds : List NonZeroU32
  scanLimit : OutboxPageLimit
  timeoutLimited : deliveryTimeoutSeconds.get.toNat ≤ maxOutboxDeliveryTimeoutSeconds
  leaseLimited : leaseSeconds.get.toNat ≤ maxOutboxPolicyDelaySeconds
  attemptsLimited : maxAttempts.get.toNat ≤ maxOutboxDeliveryAttempts
  delaysLimited : ∀ delay ∈ retryDelaysSeconds, delay.get.toNat ≤ maxOutboxPolicyDelaySeconds
  scheduled : retryDelaysSeconds.length + 1 = maxAttempts.get.toNat
  leaseCovers : deliveryTimeoutSeconds.get.toNat ≤ leaseSeconds.get.toNat

def addSeconds (timestamp : Timestamp) (seconds : UInt32) : Except OutboxClockError Timestamp :=
  let total := timestamp.seconds.toInt + seconds.toNat
  if total < 2 ^ 63 then .ok ⟨Int64.ofInt total, timestamp.nanoseconds, timestamp.inRange⟩
  else .error .invalidValue

namespace DeliveryPolicy

def permitsAttemptAfter (policy : DeliveryPolicy) (attempts : UInt32) : Bool :=
  attempts.toNat < policy.maxAttempts.get.toNat

/-- No time when the attempts are used up. -/
def retryAt (policy : DeliveryPolicy) (start : Timestamp) (failedAttempt : NonZeroU32) :
    Except OutboxClockError (Option Timestamp) :=
  if policy.permitsAttemptAfter failedAttempt.get then do
    let delay ← okOr policy.retryDelaysSeconds[failedAttempt.get.toNat - 1]? .invalidValue
    (addSeconds start delay.get).map some
  else .ok none

def leaseDeadline (policy : DeliveryPolicy) (startedAt : Timestamp) :
    Except OutboxClockError Timestamp :=
  addSeconds startedAt policy.leaseSeconds.get

end DeliveryPolicy

def isEligible (status : OutboxStatusObservationV1) (now : Timestamp) : Bool :=
  match status with
  | none => true
  | some (.pending metadata) => metadata.nextAttemptAt.all (· ≤ now)
  | _ => false

/-- A call is served, or it fails without or with its effect. -/
inductive StorageAnswer where
  | served
  | refused
  | unknown
deriving DecidableEq

/-- What the environment does at one question; only the part that is asked for matters, and
the events that were committed until then. -/
structure Answer (EventId : Type) where
  arrivals : List EventId
  clock : Except OutboxClockError Timestamp
  ready : Bool
  admitted : Nat
  disposition : ConnectorDisposition
  storage : StorageAnswer
  stops : Bool

structure Transition (EventId : Type) where
  event : EventId
  expected : OutboxStatusObservationV1
  updated : OutboxDeliveryStateV1

/-- The durable rows with the history of effects, what the environment is about to answer, and the
memory of the worker: its scan position and the accepted deliveries that are not recorded yet. -/
structure World (EventId : Type) [LinearOrder EventId] where
  store : OutboxStore EventId
  log : List (Entry EventId)
  answers : List (Answer EventId)
  scanAfter : Option EventId
  successes : List (Transition EventId)

/-- The worker with its policy, and what its repository supports. -/
structure Setup where
  policy : DeliveryPolicy
  supportsOutboxClaimGroups : Bool
  supportsOutboxSucceedGroups : Bool

def maxOutboxClaimGroupEntries : Nat := 16

def maxOutboxSuccessGroupEntries : Nat := 16

def attemptLimitSafeError : String := "delivery attempt limit exhausted"

section Worker

variable {EventId : Type} [LinearOrder EventId]

abbrev Worker (EventId : Type) [LinearOrder EventId] := Code (World EventId) OutboxWorkerError

def answer : Worker EventId (Answer EventId) := fun world =>
  match world.answers with
  | [] => (.error .crashed, world)
  | given :: answers =>
    (.ok given, { world with answers := answers, store := world.store.commit given.arrivals })

def record (entry : Entry EventId) : Worker EventId Unit :=
  change fun world => { world with log := entry :: world.log }

def clockNow : Worker EventId Timestamp := do
  let given ← answer
  ofExcept (given.clock.mapError .clock)

def stopAt (failpoint : OutboxFailpoint) : Worker EventId Unit := do
  let given ← answer
  if given.stops then fail (.interrupted failpoint) else pure ()

/-- The connector is called, and the process may be gone before it answers. -/
def deliver (event : EventId) (attempt : NonZeroU32) : Worker EventId ConnectorDisposition := do
  record (.called event attempt)
  let given ← answer
  record (.answered event attempt given.disposition)
  pure given.disposition

def storageCall {α : Type} (operation : Worker EventId α) : Worker EventId α := do
  let given ← answer
  match given.storage with
  | .served => operation
  | .refused => fail (.storage none)
  | .unknown => do
    let _ ← operation
    fail (.storage none)

def applyTransition (transition : Transition EventId) :
    Worker EventId OutboxStore.OutboxTransitionResultV1 := fun world =>
  match world.store.transitionOutbox transition.event transition.expected transition.updated with
  | (store, .applied state) =>
    (.ok (.applied state),
      { world with store := store, log := .wrote transition.event transition.expected state
      :: world.log })
  | (_, result) => (.ok result, world)

def transitionOutbox (transition : Transition EventId) :
    Worker EventId OutboxStore.OutboxTransitionResultV1 :=
  storageCall (applyTransition transition)

/-- The events of a group differ, so every comparison sees the row as it was before the group. -/
def applyAll :
    List (Transition EventId) → Worker EventId (List OutboxStore.OutboxTransitionResultV1)
  | [] => pure []
  | transition :: rest => do
    let result ← applyTransition transition
    let results ← applyAll rest
    pure (result :: results)

def checkGroup (limit : Nat) (transitions : List (Transition EventId)) :
    Except StorageValueError Unit := do
  require (transitions ≠ []) .empty
  require (transitions.length ≤ limit) .limitExceeded
  require (transitions.Pairwise fun left right => left.event < right.event) .nonCanonicalOrder

/-- One transaction for a group. A missing intent leaves every row as it is. -/
def transitionGroup (limit : Nat) (transitions : List (Transition EventId)) :
    Worker EventId (List OutboxStore.OutboxTransitionResultV1) := do
  ofExcept ((checkGroup limit transitions).mapError .invalidWorkerValue)
  storageCall do
    let known ← fetch fun world => transitions.all fun transition =>
      (world.store.status transition.event).isSome
    if known then applyAll transitions else fail .authoritativeIntentMissing

variable (setup : Setup)

def flushSuccesses : Worker EventId Unit := do
  let successes ← fetch World.successes
  if successes.isEmpty then pure ()
  else do
    change fun world => { world with successes := [] }
    let results ← transitionGroup maxOutboxSuccessGroupEntries successes
    if results.all (fun result => result matches .applied _) then pure ()
    else fail (.stateChanged .succeed)

/-- A transition of a claimed event that has to be applied. -/
def complete (phase : OutboxTransitionPhase) (transition : Transition EventId) :
    Worker EventId Unit := do
  match ← transitionOutbox transition with
  | .applied _ => pure ()
  | .stateChanged _ => fail (.stateChanged phase)
  | .authoritativeIntentMissing => fail .authoritativeIntentMissing

def completeSuccess (event : EventId) (delivering : OutboxDeliveryStateV1) :
    Worker EventId Unit := do
  let now ← clockNow
  let updated ← ofExcept ((succeed delivering now).mapError .invalidWorkerValue)
  if setup.supportsOutboxSucceedGroups then do
    change fun world => { world with successes := world.successes ++
      [⟨event, some delivering, updated⟩] }
    let successes ← fetch World.successes
    if successes.length = maxOutboxSuccessGroupEntries then flushSuccesses else pure ()
  else complete .succeed ⟨event, some delivering, updated⟩

def completeDeadLetter (event : EventId) (delivering : OutboxDeliveryStateV1)
    (safeError : Option String) : Worker EventId Unit := do
  let now ← clockNow
  let updated ← ofExcept ((deadLetter (some delivering) none now safeError).mapError
    .invalidWorkerValue)
  complete .deadLetter ⟨event, some delivering, updated⟩

def completeRetry (event : EventId) (delivering : OutboxDeliveryStateV1) (attempt : NonZeroU32)
    (safeError : Option String) : Worker EventId Unit := do
  let now ← clockNow
  let nextAttemptAt ← ofExcept ((setup.policy.retryAt now attempt).mapError .clock)
  if nextAttemptAt.isNone then completeDeadLetter event delivering safeError
  else do
    let updated ← ofExcept ((retry delivering nextAttemptAt safeError).mapError .invalidWorkerValue)
    complete .retry ⟨event, some delivering, updated⟩

def deadLetterPending (item : OutboxRow EventId) (failedAt : Timestamp) : Worker EventId Unit := do
  let initialDestination := if item.2.isNone then some setup.policy.destinationId else none
  let updated ← ofExcept
    ((deadLetter item.2 initialDestination failedAt (some attemptLimitSafeError)).mapError
      .invalidWorkerValue)
  match ← transitionOutbox ⟨item.1, item.2, updated⟩ with
  | .applied _ | .stateChanged _ => pure ()
  | .authoritativeIntentMissing => fail .authoritativeIntentMissing

def deliveringAttempt : OutboxDeliveryStateV1 → Except StorageValueError NonZeroU32
  | .delivering attempt _ _ _ => .ok attempt
  | _ => .error .invalidShape

def renewIfExpired (event : EventId) (delivering : OutboxDeliveryStateV1) :
    Worker EventId OutboxDeliveryStateV1 :=
  match delivering with
  | .delivering _ _ _ leaseDeadline => do
    let now ← clockNow
    if now ≤ leaseDeadline then pure delivering
    else do
      let deadline ← ofExcept ((setup.policy.leaseDeadline now).mapError .clock)
      let renewed ← ofExcept ((renew delivering deadline).mapError .invalidWorkerValue)
      match ← transitionOutbox ⟨event, some delivering, renewed⟩ with
      | .applied state => pure state
      | .stateChanged _ => do
        flushSuccesses
        fail (.stateChanged .renew)
      | .authoritativeIntentMissing => fail .authoritativeIntentMissing
  | _ => fail (.invalidWorkerValue .invalidShape)

def deliverClaimed (event : EventId) (delivering : OutboxDeliveryStateV1) :
    Worker EventId Unit := do
  let attempt ← ofExcept ((deliveringAttempt delivering).mapError .invalidWorkerValue)
  stopAt .deliveryAfterClaimBeforeConnector
  let delivering ← renewIfExpired setup event delivering
  match ← deliver event attempt with
  | .accepted => do
    stopAt .deliveryAfterConnectorAcceptedBeforeSuccess
    completeSuccess setup event delivering
  | .retryable safeError => do
    flushSuccesses
    stopAt .deliveryAfterConnectorRetryableBeforeRetry
    completeRetry setup event delivering attempt safeError
  | .permanentFailure safeError => do
    flushSuccesses
    stopAt .deliveryAfterConnectorRejectedBeforeDeadLetter
    completeDeadLetter event delivering safeError

def claimTransition (item : OutboxRow EventId) (startedAt leaseDeadline : Timestamp) :
    Except OutboxWorkerError (Transition EventId) := do
  let updated ← (claim item.2 setup.policy.destinationId startedAt leaseDeadline).mapError
    .invalidWorkerValue
  .ok ⟨item.1, item.2, updated⟩

/-- The individual path. -/
def dispatchItem (item : OutboxRow EventId) : Worker EventId Unit := do
  let startedAt ← clockNow
  if isEligible item.2 startedAt = false then flushSuccesses
  else do
    let given ← answer
    if given.ready = false then flushSuccesses
    else if setup.policy.permitsAttemptAfter (attempts item.2) = false then do
      flushSuccesses
      deadLetterPending setup item startedAt
    else do
      let leaseDeadline ← ofExcept ((setup.policy.leaseDeadline startedAt).mapError .clock)
      let transition ← ofExcept (claimTransition setup item startedAt leaseDeadline)
      match ← transitionOutbox transition with
      | .applied delivering => deliverClaimed setup item.1 delivering
      | .stateChanged _ => flushSuccesses
      | .authoritativeIntentMissing => fail .authoritativeIntentMissing

/-- How many of the first items are claimed together. -/
def claimableRun (items : List (OutboxRow EventId)) : Worker EventId Nat :=
  if setup.supportsOutboxClaimGroups = false then pure 0
  else do
    let now ← clockNow
    let candidates := (items.take maxOutboxClaimGroupEntries).takeWhile fun item =>
      isEligible item.2 now && setup.policy.permitsAttemptAfter (attempts item.2)
    if candidates.isEmpty then pure 0
    else do
      let given ← answer
      pure (min given.admitted candidates.length)

def deliverRun : List (OutboxRow EventId) → List OutboxStore.OutboxTransitionResultV1 →
    Worker EventId Unit
  | item :: items, .applied delivering :: results => do
    deliverClaimed setup item.1 delivering
    deliverRun items results
  | _ :: items, .stateChanged _ :: results => do
    flushSuccesses
    deliverRun items results
  | _ :: _, .authoritativeIntentMissing :: _ => fail .authoritativeIntentMissing
  | _, _ => pure ()

def dispatchRun (items : List (OutboxRow EventId)) : Worker EventId Unit := do
  let startedAt ← clockNow
  let leaseDeadline ← ofExcept ((setup.policy.leaseDeadline startedAt).mapError .clock)
  let claims ← ofExcept (items.mapM fun item => claimTransition setup item startedAt leaseDeadline)
  let results ← transitionGroup maxOutboxClaimGroupEntries claims
  deliverRun setup items results

/-- The loop over a page; `skipped` counts the items that the last run has taken already. -/
def dispatchItems : List (OutboxRow EventId) → Nat → Worker EventId Unit
  | [], _ => pure ()
  | _ :: items, skipped + 1 => dispatchItems items skipped
  | item :: items, 0 => do
    match ← claimableRun setup (item :: items) with
    | 0 => do
      dispatchItem setup item
      change fun world => { world with scanAfter := some item.1 }
      dispatchItems items 0
    | run + 1 => do
      let taken := (item :: items).take (run + 1)
      dispatchRun setup taken
      change fun world => { world with scanAfter := taken.getLast?.map Prod.fst }
      dispatchItems items run

variable (sizes : RowSizes EventId)

def collectPending (view : OutboxStore EventId) :
    List EventId → List (OutboxRow EventId) → Nat →
      Except StorageErrorKind (List (OutboxRow EventId) × Bool)
  | [], items, _ => .ok (items, false)
  | event :: rest, items, bytes => do
    let status ← okOr (view.status event) .corruptData
    require (isPending status) .corruptData
    let next := bytes + sizes.encodedBytes (event, status)
    if maxScanPageBytes < next then
      require (items ≠ []) .limitExceeded
      .ok (items, true)
    else collectPending view rest (items ++ [(event, status)]) next

/-- A page of pending events and where the next one starts. -/
def scanPendingOutbox (store : OutboxStore EventId) (after : Option EventId)
    (limit : OutboxPageLimit) :
    Except StorageErrorKind (List (OutboxRow EventId) × Option EventId) := do
  let pending := ((store.rows.filter fun row => isPending row.2).map Prod.fst).filter
    (startsAfter after)
  let collected ← collectPending sizes store (pending.take limit.get) [] 0
  require (collected.1.length ≤ maxScanPageEntries) .limitExceeded
  require (Increasing collected.1) .corruptData
  if collected.2 || limit.get < pending.length then do
    let last ← okOr collected.1.getLast? .corruptData
    .ok (collected.1, some last.1)
  else .ok (collected.1, none)

/-- The errors after which the accepted deliveries are recorded at once. -/
def keepsSuccesses : OutboxWorkerError → Bool
  | .clock _ | .invalidWorkerValue _ | .stateChanged _ => true
  | _ => false

def dispatchOnce : Worker EventId Unit := do
  let scan ← storageCall do
    let read ← fetch fun world =>
      scanPendingOutbox sizes world.store world.scanAfter setup.policy.scanLimit
    ofExcept (read.mapError fun kind => .storage (some kind))
  change fun world => { world with successes := [] }
  onError (dispatchItems setup scan.1 0) fun error =>
    if keepsSuccesses error then do
      flushSuccesses
      fail error
    else fail error
  flushSuccesses
  change fun world => { world with scanAfter := scan.2 }

/-- The view of a page read, and the states in which the index is asked for the fence and the
page. -/
def readPage (request : UndeliveredOutboxStatusScanRequestV1 EventId) :
    Worker EventId (UndeliveredOutboxStatusScanV1 EventId) := do
  let admission ← answer
  if admission.ready = false then fail (.storage none)
  else do
    let view ← storageCall (fetch World.store)
    let _ ← answer
    let atFence ← fetch World.store
    let _ ← answer
    let atPage ← fetch World.store
    ofExcept ((scanUndeliveredOutboxStatuses sizes view atFence atPage request).mapError fun kind =>
      .storage (some kind))

def recoveryCalls : RecoveryCalls (World EventId) EventId where
  readPage := readPage sizes
  stopAt := stopAt
  retryAt _ attempt := do
    let now ← clockNow
    ofExcept ((setup.policy.retryAt now attempt).mapError .clock)
  complete event expected updated := complete .recovery ⟨event, expected, updated⟩

/-- Every page asks a question, so there are fewer pages than answers. -/
def recover : Worker EventId Unit := fun world =>
  recoverPages (recoveryCalls setup sizes) setup.policy.scanLimit (world.answers.length + 1)
    (initialRequest EventId setup.policy.scanLimit) world

end Worker

end OutboxWorker
