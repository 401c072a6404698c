import RiffDb.CommandRuntime

/-!
# Delivery states of committed events

Every committed event has an outbox intent and a delivery state. No stored row means pending with no
attempt yet. A transition names the state that it expects and the one that it writes, and it is
applied only when the stored state is the expected one.
-/

namespace OutboxStatus

open CheckedCode CanonicalScalars CommandRuntime

structure OutboxRetryMetadataV1 where
  attempts : NonZeroU32
  lastAttemptAt : Timestamp
  nextAttemptAt : Option Timestamp
  destinationId : String
  lastSafeError : Option String
deriving DecidableEq

inductive OutboxDeliveryStateV1 where
  | pending (metadata : OutboxRetryMetadataV1)
  | delivering (attempt : NonZeroU32) (destinationId : String) (startedAt leaseDeadline : Timestamp)
  | delivered (attempts : NonZeroU32) (destinationId : String) (deliveredAt : Timestamp)
  | deadLetter (attempts : UInt32) (destinationId : String) (failedAt : Timestamp)
      (lastSafeError : Option String)
deriving DecidableEq

/-- The stored row of an event; `none` is the initial pending state. -/
abbrev OutboxStatusObservationV1 := Option OutboxDeliveryStateV1

namespace OutboxStatusObservationV1

def isPending : OutboxStatusObservationV1 → Bool
  | none | some (.pending _) => true
  | _ => false

def attempts : OutboxStatusObservationV1 → UInt32
  | none => 0
  | some (.pending metadata) => metadata.attempts.get
  | some (.delivering attempt _ _ _) => attempt.get
  | some (.delivered attempts _ _) => attempts.get
  | some (.deadLetter attempts _ _ _) => attempts

def isUndelivered : OutboxStatusObservationV1 → Bool
  | some (.delivered _ _ _) => false
  | _ => true

def isDelivering : OutboxStatusObservationV1 → Bool
  | some (.delivering _ _ _ _) => true
  | _ => false

end OutboxStatusObservationV1

open OutboxStatusObservationV1

/-- The next attempt of a pending event. -/
def claim (expected : OutboxStatusObservationV1) (destinationId : String)
    (startedAt leaseDeadline : Timestamp) : Except StorageValueError OutboxDeliveryStateV1 := do
  require (isPending expected) .invalidShape
  require ((attempts expected).toNat + 1 < 2 ^ 32) .sizeOverflow
  let attempt ← okOr (NonZeroU32.new (attempts expected + 1)) .sizeOverflow
  .ok (.delivering attempt destinationId startedAt leaseDeadline)

def renew (expected : OutboxDeliveryStateV1) (leaseDeadline : Timestamp) :
    Except StorageValueError OutboxDeliveryStateV1 :=
  match expected with
  | .delivering attempt destinationId startedAt _ =>
    .ok (.delivering attempt destinationId startedAt leaseDeadline)
  | _ => .error .invalidShape

def succeed (expected : OutboxDeliveryStateV1) (deliveredAt : Timestamp) :
    Except StorageValueError OutboxDeliveryStateV1 :=
  match expected with
  | .delivering attempt destinationId _ _ => .ok (.delivered attempt destinationId deliveredAt)
  | _ => .error .invalidShape

def retry (expected : OutboxDeliveryStateV1) (nextAttemptAt : Option Timestamp)
    (lastSafeError : Option String) : Except StorageValueError OutboxDeliveryStateV1 :=
  match expected with
  | .delivering attempt destinationId startedAt _ =>
    .ok (.pending ⟨attempt, startedAt, nextAttemptAt, destinationId, lastSafeError⟩)
  | _ => .error .invalidShape

/-- A destination is given exactly for an event that was never attempted. -/
def deadLetter (expected : OutboxStatusObservationV1) (initialDestination : Option String)
    (failedAt : Timestamp) (lastSafeError : Option String) :
    Except StorageValueError OutboxDeliveryStateV1 := do
  require (expected.isNone = initialDestination.isSome) .invalidShape
  let destinationId ← match expected with
    | none => okOr initialDestination .invalidShape
    | some (.pending metadata) => .ok metadata.destinationId
    | some (.delivering _ destinationId _ _) => .ok destinationId
    | some _ => .error .invalidShape
  .ok (.deadLetter (attempts expected) destinationId failedAt lastSafeError)

section Store

variable {EventId : Type} [LinearOrder EventId]

abbrev OutboxRow (EventId : Type) := EventId × OutboxStatusObservationV1

def Increasing (rows : List (OutboxRow EventId)) : Prop :=
  rows.Pairwise fun left right => left.1 < right.1

instance (rows : List (OutboxRow EventId)) : Decidable (Increasing rows) :=
  inferInstanceAs (Decidable (rows.Pairwise fun left right => left.1 < right.1))

/-- The intents of all committed events in their order, each with its status. -/
@[ext] structure OutboxStore (EventId : Type) [LinearOrder EventId] where
  rows : List (OutboxRow EventId)
  increasing : Increasing rows

namespace OutboxStore

variable (store : OutboxStore EventId)

def status (event : EventId) : Option OutboxStatusObservationV1 :=
  (store.rows.find? (·.1 = event)).map Prod.snd

def lastIntent : Option EventId := store.rows.getLast?.map Prod.fst

/-- The commit-coupled index of events that are not delivered. -/
def undelivered : List EventId :=
  (store.rows.filter fun row => isUndelivered row.2).map Prod.fst

theorem increasing_map (change : OutboxRow EventId → OutboxStatusObservationV1) :
    Increasing (store.rows.map fun row => (row.1, change row)) :=
  List.pairwise_map.mpr store.increasing

def setStatus (event : EventId) (state : OutboxDeliveryStateV1) : OutboxStore EventId :=
  ⟨store.rows.map fun row => (row.1, if row.1 = event then some state else row.2),
    store.increasing_map fun row => if row.1 = event then some state else row.2⟩

/-- Events get their numbers in commit order, so new ones come after all others. -/
def commit (events : List EventId) : OutboxStore EventId :=
  if later : Increasing (store.rows ++ events.map fun event => (event, none)) then ⟨_, later⟩
  else store

inductive OutboxTransitionResultV1 where
  | applied (state : OutboxDeliveryStateV1)
  | stateChanged (observed : OutboxStatusObservationV1)
  | authoritativeIntentMissing
deriving DecidableEq

def transitionOutbox (event : EventId) (expected : OutboxStatusObservationV1)
    (updated : OutboxDeliveryStateV1) : OutboxStore EventId × OutboxTransitionResultV1 :=
  match store.status event with
  | none => (store, .authoritativeIntentMissing)
  | some current =>
    if current = expected then (store.setStatus event updated, .applied updated)
    else (store, .stateChanged current)

variable {observed : OutboxStatusObservationV1} {event : EventId}

theorem find_eq_some {rows : List (OutboxRow EventId)} (increasing : Increasing rows) :
    (rows.find? (·.1 = event)).map Prod.snd = some observed ↔ (event, observed) ∈ rows := by
  induction rows with
  | nil => simp
  | cons first rest ih =>
    obtain ⟨id, held⟩ := first
    obtain ⟨before, others⟩ := List.pairwise_cons.mp increasing
    rw [List.find?_cons, List.mem_cons]
    by_cases here : id = event
    · subst here
      simp only [decide_true, Option.map_some, Option.some.injEq, Prod.mk.injEq, true_and]
      constructor
      · rintro rfl
        exact Or.inl rfl
      · rintro (same | member)
        · exact same.symm
        · exact absurd (before _ member) (lt_irrefl id)
    · simp only [here, decide_false, ih others, Prod.mk.injEq]
      constructor
      · exact Or.inr
      · rintro (⟨same, _⟩ | member)
        · exact absurd same.symm here
        · exact member

theorem status_eq_some {store : OutboxStore EventId} :
    store.status event = some observed ↔ (event, observed) ∈ store.rows :=
  find_eq_some store.increasing

end OutboxStore

end Store

end OutboxStatus
