import RiffDb.OutboxStatus

/-!
# The delivery protocol

What a delivery worker may do, as a law on the history of its effects, newest first: the durable
status changes, the calls of the connector and its answers. That an accepted event is never
delivered again, that attempts are counted and that no call is made without a durable claim follow
from the law.
-/

namespace OutboxProtocol

open CanonicalScalars OutboxStatus OutboxStatus.OutboxStatusObservationV1 List

inductive ConnectorDisposition where
  | accepted
  | retryable (safeError : Option String)
  | permanentFailure (safeError : Option String)
deriving DecidableEq

inductive Entry (EventId : Type) where
  | wrote (event : EventId) (before : OutboxStatusObservationV1) (after : OutboxDeliveryStateV1)
  | called (event : EventId) (attempt : NonZeroU32)
  | answered (event : EventId) (attempt : NonZeroU32) (disposition : ConnectorDisposition)
deriving DecidableEq

section Law

variable {EventId : Type} [DecidableEq EventId]

/-- The status of an event after a history. -/
def current : List (Entry EventId) → EventId → OutboxStatusObservationV1
  | [], _ => none
  | .wrote event _ after :: past, id => if event = id then some after else current past id
  | _ :: past, id => current past id

def isTerminal : OutboxStatusObservationV1 → Bool
  | some (.delivered _ _ _) | some (.deadLetter _ _ _ _) => true
  | _ => false

/-- The status changes that the protocol knows. -/
inductive Change (maxAttempts : NonZeroU32) (past : List (Entry EventId)) (event : EventId) :
    OutboxStatusObservationV1 → OutboxDeliveryStateV1 → Prop
  | claim {before attempt destinationId startedAt leaseDeadline} :
      isPending before = true → attempt.get.toNat = (attempts before).toNat + 1 →
      attempt.get.toNat ≤ maxAttempts.get.toNat →
      Change maxAttempts past event before
        (.delivering attempt destinationId startedAt leaseDeadline)
  | renew {attempt destinationId startedAt leaseDeadline renewed} :
      Change maxAttempts past event
        (some (.delivering attempt destinationId startedAt leaseDeadline))
        (.delivering attempt destinationId startedAt renewed)
  | succeed {attempt destinationId startedAt leaseDeadline deliveredAt} :
      .answered event attempt .accepted ∈ past →
      Change maxAttempts past event
        (some (.delivering attempt destinationId startedAt leaseDeadline))
        (.delivered attempt destinationId deliveredAt)
  | retry {attempt destinationId startedAt leaseDeadline nextAttemptAt safeError} :
      Change maxAttempts past event
        (some (.delivering attempt destinationId startedAt leaseDeadline))
        (.pending ⟨attempt, startedAt, nextAttemptAt, destinationId, safeError⟩)
  | reject {attempt destinationId startedAt leaseDeadline failedAt safeError} :
      (∃ reason, .answered event attempt (.permanentFailure reason) ∈ past) ∨
        maxAttempts.get.toNat ≤ attempt.get.toNat →
      Change maxAttempts past event
        (some (.delivering attempt destinationId startedAt leaseDeadline))
        (.deadLetter attempt.get destinationId failedAt safeError)
  | exhaust {before destinationId failedAt safeError} :
      isPending before = true → maxAttempts.get.toNat ≤ (attempts before).toNat →
      Change maxAttempts past event before
        (.deadLetter (attempts before) destinationId failedAt safeError)

/-- The entry that makes an attempt durable. -/
def IsClaim (attempt : NonZeroU32) (event : EventId) (entry : Entry EventId) : Prop :=
  ∃ before destinationId startedAt leaseDeadline, isPending before = true ∧
    entry = .wrote event before (.delivering attempt destinationId startedAt leaseDeadline)

/-- What may follow a history. -/
def Law (maxAttempts : NonZeroU32) (past : List (Entry EventId)) : Entry EventId → Prop
  | .wrote event before after => current past event = before ∧
      Change maxAttempts past event before after
  | .called event attempt => ∃ entry ∈ past, IsClaim attempt event entry
  | .answered event attempt _ => past.head? = some (.called event attempt)

def Lawful (maxAttempts : NonZeroU32) : List (Entry EventId) → Prop
  | [] => True
  | entry :: past => Law maxAttempts past entry ∧ Lawful maxAttempts past

variable {maxAttempts : NonZeroU32} {log added past : List (Entry EventId)} {event : EventId}

theorem Lawful.of_append (lawful : Lawful maxAttempts (added ++ log)) : Lawful maxAttempts log := by
  induction added with
  | nil => exact lawful
  | cons entry added ih => exact ih lawful.2

variable {entry : Entry EventId}

theorem Lawful.law_of_append
    (lawful : Lawful maxAttempts (added ++ entry :: past)) : Law maxAttempts past entry :=
  lawful.of_append.1

@[simp] theorem current_wrote_self (before : OutboxStatusObservationV1)
    (after : OutboxDeliveryStateV1) :
    current (.wrote event before after :: past) event = some after :=
  if_pos rfl

theorem current_wrote_of_ne {other : EventId} (apart : event ≠ other)
    (before : OutboxStatusObservationV1) (after : OutboxDeliveryStateV1) :
    current (.wrote event before after :: past) other = current past other :=
  if_neg apart

variable {before : OutboxStatusObservationV1} {after : OutboxDeliveryStateV1}

omit [DecidableEq EventId] in
/-- No change starts from a terminal status. -/
theorem Change.not_terminal
    (changes : Change maxAttempts past event before after) : isTerminal before = false := by
  cases changes with
  | claim pending | exhaust pending =>
    rcases before with _ | (_ | _ | _ | _)
    all_goals first | rfl | cases pending
  | renew | succeed | retry | reject => rfl

open OutboxStatusObservationV1

omit [DecidableEq EventId] in
/-- A change keeps the attempts, but for a claim, which adds one. -/
theorem Change.attempts (changes : Change maxAttempts past event before after) :
    attempts (some after) = attempts before ∨
      isPending before = true ∧ isDelivering (some after) = true ∧
      (attempts (some after)).toNat = (attempts before).toNat + 1 ∧
      (attempts (some after)).toNat ≤ maxAttempts.get.toNat := by
  cases changes with
  | claim pending counted bounded => exact Or.inr ⟨pending, rfl, counted, bounded⟩
  | renew | succeed | retry | reject | exhaust => exact Or.inl rfl

/-- What an entry does to the status of an event: nothing, or a change of the protocol. -/
theorem Law.current_cons (law : Law maxAttempts past entry) (event : EventId) :
    current (entry :: past) event = current past event ∨
      ∃ after, entry = .wrote event (current past event) after ∧
        current (entry :: past) event = some after ∧
        Change maxAttempts past event (current past event) after := by
  cases entry with
  | called id attempt => exact Or.inl rfl
  | answered id attempt disposition => exact Or.inl rfl
  | wrote id before after =>
    by_cases same : id = event
    · subst same
      obtain ⟨rfl, changes⟩ := law
      exact Or.inr ⟨after, rfl, current_wrote_self _ _, changes⟩
    · exact Or.inl (current_wrote_of_ne same before after)

/-- No event leaves a terminal status. -/
theorem Lawful.terminal_forever (lawful : Lawful maxAttempts (added ++ log))
    (terminal : isTerminal (current log event) = true) :
      current (added ++ log) event = current log event := by
  induction added with
  | nil => rfl
  | cons entry added ih =>
    rw [cons_append] at lawful ⊢
    have same := ih lawful.2
    rcases Law.current_cons lawful.1 event with unchanged | ⟨after, _, _, changes⟩
    · exact unchanged.trans same
    · rw [same] at changes
      rw [changes.not_terminal] at terminal
      cases terminal

theorem Lawful.attempts_mono (lawful : Lawful maxAttempts (added ++ log)) (event : EventId) :
    (attempts (current log event)).toNat ≤ (attempts (current (added ++ log) event)).toNat := by
  induction added with
  | nil => exact le_rfl
  | cons entry added ih =>
    rw [cons_append] at lawful ⊢
    refine (ih lawful.2).trans ?_
    rcases Law.current_cons lawful.1 event with unchanged | ⟨after, _, isAfter, changes⟩
    · rw [unchanged]
    · rw [isAfter]
      rcases changes.attempts with same | ⟨_, _, counted, _⟩
      · rw [same]
      · omega

/-- No event is claimed more often than the policy allows. -/
theorem Lawful.attempts_le (lawful : Lawful maxAttempts log) (event : EventId) :
    (attempts (current log event)).toNat ≤ maxAttempts.get.toNat := by
  induction log with
  | nil => exact Nat.zero_le _
  | cons entry past ih =>
    rcases Law.current_cons lawful.1 event with unchanged | ⟨after, _, isAfter, changes⟩
    · rw [unchanged]
      exact ih lawful.2
    · rw [isAfter]
      rcases changes.attempts with same | ⟨_, _, _, bounded⟩
      · rw [same]
        exact ih lawful.2
      · exact bounded

variable {attempt : NonZeroU32}

/-- A claim that was made has been counted. -/
theorem Lawful.claim_counted (lawful : Lawful maxAttempts log)
    (member : entry ∈ log) (claims : IsClaim attempt event entry) :
    attempt.get.toNat ≤ (attempts (current log event)).toNat := by
  obtain ⟨added, past, rfl⟩ := append_of_mem member
  obtain ⟨before, destinationId, startedAt, leaseDeadline, _, rfl⟩ := claims
  have grown := lawful.attempts_mono event
  rw [current_wrote_self] at grown
  exact grown

/-- A claim makes the next attempt. -/
theorem Lawful.claim_next
    (lawful : Lawful maxAttempts (entry :: past)) (claims : IsClaim attempt event entry) :
    attempt.get.toNat = (attempts (current past event)).toNat + 1 ∧
      attempt.get.toNat ≤ maxAttempts.get.toNat := by
  obtain ⟨before, destinationId, startedAt, leaseDeadline, pending, rfl⟩ := claims
  obtain ⟨isBefore, changes⟩ := lawful.1
  rw [isBefore]
  cases changes with
  | claim _ counted bounded => exact ⟨counted, bounded⟩
  | renew => cases pending

omit [DecidableEq EventId] in
theorem Change.of_deadLetter {count : UInt32} {destinationId : String}
    {failedAt : Timestamp} {safeError : Option String}
    (changes :
      Change maxAttempts past event before (.deadLetter count destinationId failedAt safeError)) :
    (∃ attempt reason, isDelivering before = true ∧
      OutboxStatusObservationV1.attempts before = attempt.get ∧
      .answered event attempt (.permanentFailure reason) ∈ past) ∨
      maxAttempts.get.toNat ≤ count.toNat := by
  cases changes with
  | reject reason =>
    rcases reason with ⟨reason, rejected⟩ | exhausted
    · exact Or.inl ⟨_, reason, rfl, rfl, rejected⟩
    · exact Or.inr exhausted
  | exhaust _ exhausted => exact Or.inr exhausted

/-- An event becomes delivered after an acceptance of the attempt that its last claim made
durable. -/
theorem Lawful.delivered_after_acceptance {destinationId : String} {deliveredAt : Timestamp}
    (lawful :
      Lawful maxAttempts (.wrote event before
      (.delivered attempt destinationId deliveredAt) :: past)) :
    ∃ newer older, past = newer ++ .answered event attempt .accepted ::
      .called event attempt :: older ∧ (∃ entry ∈ older, IsClaim attempt event entry) ∧
      ∀ entry ∈ newer, ∀ later, ¬ IsClaim later event entry := by
  obtain ⟨isBefore, changes⟩ := lawful.1
  have lawfulPast := lawful.2
  cases changes with
  | succeed accepted =>
    obtain ⟨newer, rest, rfl⟩ := append_of_mem accepted
    obtain ⟨older, rfl⟩ := List.head?_eq_some_iff.mp lawfulPast.law_of_append
    have isCalled : Law maxAttempts older (.called event attempt) := lawfulPast.of_append.2.1
    refine ⟨newer, older, rfl, isCalled, fun entry member later claims => ?_⟩
    -- the claim would have counted beyond the attempt that is being delivered
    obtain ⟨claim, isClaim, claimed⟩ := isCalled
    have lastCounted := lawfulPast.claim_counted (mem_append_left _ member) claims
    rw [isBefore] at lastCounted
    obtain ⟨first, second, rfl⟩ := append_of_mem member
    rw [append_assoc, cons_append] at lawfulPast
    have next := lawfulPast.of_append.claim_next claims
    have counted := lawfulPast.of_append.2.claim_counted
      (mem_append_right second (mem_cons_of_mem _ (mem_cons_of_mem _ isClaim))) claimed
    change later.get.toNat ≤ attempt.get.toNat at lastCounted
    omega

end Law

end OutboxProtocol
