import RiffDb.OutboxWorker
import Mathlib.Data.List.TakeWhile

/-!
# The worker keeps to the delivery protocol

Whatever the environment answers and wherever the process is lost, the effects of a dispatch and of
a recovery extend the history by the law of the protocol, and the stored rows are what the history
says.
-/

namespace OutboxEffects

open CheckedCode CanonicalScalars CommandRuntime OutboxStatus OutboxStatus.OutboxStatusObservationV1
  OutboxProtocol OutboxRecovery OutboxWorker StatefulCode List

section Effects

variable {EventId : Type} [LinearOrder EventId] {maxAttempts : NonZeroU32}

structure Valid (maxAttempts : NonZeroU32) (world : World EventId) : Prop where
  lawful : Lawful maxAttempts world.log
  tracked : ∀ event, current world.log event = (world.store.status event).join
  accepted : ∀ success ∈ world.successes,
    Change maxAttempts world.log success.event success.expected success.updated
  recording : ∀ success ∈ world.successes, isDelivering (some success.updated) = false

/-- From a valid world the worker gets to a valid one, and the history grows. -/
def Evolves (maxAttempts : NonZeroU32) (world later : World EventId) : Prop :=
  Valid maxAttempts world → Valid maxAttempts later ∧ world.log <:+ later.log

instance : Std.Refl (@Evolves EventId _ maxAttempts) where
  refl _ valid := ⟨valid, List.suffix_refl _⟩

instance : IsTrans (World EventId) (Evolves maxAttempts) where
  trans _ _ _ first second valid :=
    ⟨(second (first valid).1).1, (first valid).2.trans (second (first valid).1).2⟩

/-- The events in delivery are the claimed ones and the accepted ones that wait to be recorded. -/
def Open (claimed : List EventId) (world : World EventId) : Prop :=
  ∀ row ∈ world.store.rows, isDelivering row.2 = true →
    row.1 ∈ claimed ∨ row.1 ∈ world.successes.map Transition.event

variable {world : World EventId}

theorem Open.mono {claimed more : List EventId} (isOpen : Open claimed world)
    (subset : claimed ⊆ more) : Open more world :=
  fun row member delivering => (isOpen row member delivering).imp_left fun isClaimed =>
    subset isClaimed

/-- A valid world with a fact about its history and the events that are claimed. -/
structure Holding (maxAttempts : NonZeroU32) (fact : List (Entry EventId) → Prop)
    (claimed : List EventId) (world : World EventId) : Prop where
  valid : Valid maxAttempts world
  known : fact world.log
  isOpen : Open claimed world

theorem Open.all (world : World EventId) : Open (world.store.rows.map Prod.fst) world :=
  fun _ member _ => Or.inl (mem_map_of_mem member)

/-- Code that keeps to the law however it ends. If it ends well, it gives a fact about the history
and the events that are still claimed. -/
def Keeps {α : Type} (maxAttempts : NonZeroU32) (fact : List (Entry EventId) → Prop)
    (claimed : List EventId)
    (code : Worker EventId α) (post : α → List (Entry EventId) → Prop)
    (left : α → List EventId) : Prop :=
  Safe (Evolves maxAttempts) (Holding maxAttempts fact claimed) code fun value =>
    Holding maxAttempts (post value) (left value)

/-- Code that relies on no history and leaves the claimed events as they are. -/
def Steady {α : Type} (maxAttempts : NonZeroU32) (claimed : List EventId)
    (code : Worker EventId α) : Prop :=
  Keeps maxAttempts (fun _ => True) claimed code (fun _ _ => True) (fun _ => claimed)

/-- A fact about the history that later entries cannot undo. -/
def Lasting (fact : List (Entry EventId) → Prop) : Prop :=
  ∀ {past later : List (Entry EventId)}, past <:+ later → fact past → fact later

section Rules

variable {α β : Type} {code : Worker EventId α} {fact given : List (Entry EventId) → Prop}
  {post : α → List (Entry EventId) → Prop} {claimed : List EventId} {left : α → List EventId}

variable {last : β → List (Entry EventId) → Prop} {next : α → Worker EventId β}
variable {ending : β → List EventId}

theorem Keeps.bind (first : Keeps maxAttempts fact claimed code post left)
    (rest : ∀ value, Keeps maxAttempts (post value) (left value) (next value) last ending) :
    Keeps maxAttempts fact claimed (code >>= next) last ending :=
  Safe.bind first rest

theorem Keeps.pure {value : α} (ends : ∀ log, fact log → post value log) :
    Keeps maxAttempts fact claimed (Pure.pure value) post (fun _ => claimed) :=
  Safe.pure fun world holding => ⟨holding.valid, ends world.log holding.known, holding.isOpen⟩

theorem Keeps.fail {error : OutboxWorkerError} :
    Keeps maxAttempts fact claimed (StatefulCode.fail error) post left :=
  Safe.fail

theorem Keeps.bind_ofExcept {result : Except OutboxWorkerError α}
    (rest : ∀ value, result = .ok value → Keeps maxAttempts fact claimed (next value) last ending) :
    Keeps maxAttempts fact claimed (StatefulCode.ofExcept result >>= next) last ending :=
  Safe.bind_ofExcept rest

section

variable (keeps : Keeps maxAttempts fact claimed code post left)

include keeps

theorem Keeps.weaken {weaker : α → List (Entry EventId) → Prop}
    (before : ∀ log, given log → fact log)
    (after : ∀ value log, post value log → weaker value log) :
    Keeps maxAttempts given claimed code weaker left :=
  Safe.weaken keeps (fun world holding =>
    ⟨holding.valid, before world.log holding.known, holding.isOpen⟩)
    fun value world holding => ⟨holding.valid, after value world.log holding.known, holding.isOpen⟩

theorem Keeps.claims {fewer : List EventId} {more : α → List EventId} (before : fewer ⊆ claimed)
    (after : ∀ value, left value ⊆ more value) : Keeps maxAttempts fact fewer code post more :=
  Safe.weaken keeps (fun _ holding => ⟨holding.valid, holding.known, holding.isOpen.mono before⟩)
    fun value _ holding => ⟨holding.valid, holding.known, holding.isOpen.mono (after value)⟩

/-- A lasting fact is carried through any part of the worker. -/
theorem Keeps.carry (lasting : Lasting given) :
    Keeps maxAttempts (fun log => fact log ∧ given log) claimed code
      (fun value log => post value log ∧ given log) left := by
  rintro world ⟨valid, ⟨holds, known⟩, isOpen⟩
  obtain ⟨moved, ends⟩ := keeps world ⟨valid, holds, isOpen⟩
  refine ⟨moved, fun value isValue => ?_⟩
  obtain ⟨validLater, result, openLater⟩ := ends value isValue
  exact ⟨validLater, ⟨result, lasting (moved valid).2 known⟩, openLater⟩

end

theorem Steady.pass (steady : Steady maxAttempts claimed code) (lasting : Lasting given) :
    Keeps maxAttempts given claimed code (fun _ => given) (fun _ => claimed) :=
  (Keeps.carry steady lasting).weaken (fun _ holds => ⟨trivial, holds⟩) fun _ _ both => both.2

theorem Steady.after (steady : Steady maxAttempts claimed code)
    (fact : List (Entry EventId) → Prop) :
    Keeps maxAttempts fact claimed code (fun _ _ => True) (fun _ => claimed) :=
  Keeps.weaken steady (fun _ _ => trivial) fun _ _ _ => trivial

theorem Keeps.assuming {condition : Prop}
    (keeps : condition → Keeps maxAttempts fact claimed code post left) :
    Keeps maxAttempts (fun log => fact log ∧ condition) claimed code post left := by
  rintro world ⟨valid, ⟨holds, met⟩, isOpen⟩
  exact keeps met world ⟨valid, holds, isOpen⟩

end Rules

variable {event : EventId}

section

omit [LinearOrder EventId]

theorem lasting_mem (entry : Entry EventId) :
    Lasting (entry ∈ ·) := fun grown member => grown.subset member

theorem lasting_claimed (attempt : NonZeroU32) (event : EventId) :
    Lasting fun log => ∃ entry ∈ log, IsClaim attempt event entry := by
  rintro past later grown ⟨entry, member, claims⟩
  exact ⟨entry, grown.subset member, claims⟩

theorem lasting_change {before : OutboxStatusObservationV1} {after : OutboxDeliveryStateV1} :
    Lasting fun log => Change maxAttempts log event before after := by
  intro past later grown changes
  cases changes with
  | claim pending counted bounded => exact .claim pending counted bounded
  | renew => exact .renew
  | succeed accepted => exact .succeed (grown.subset accepted)
  | retry => exact .retry
  | exhaust pending used => exact .exhaust pending used
  | reject reason =>
    refine .reject (reason.imp_left ?_)
    rintro ⟨safeError, rejected⟩
    exact ⟨safeError, grown.subset rejected⟩

end

open OutboxStore

theorem status_commit (store : OutboxStore EventId) (events : List EventId) (event : EventId) :
    ((store.commit events).status event).join = (store.status event).join := by
  unfold commit
  split
  · unfold status
    rw [find?_append]
    cases store.rows.find? (·.1 = event) with
    | some row => rfl
    | none =>
      rw [Option.none_or]
      cases found : (events.map fun event => (event, none)).find? (·.1 = event) with
      | none => rfl
      | some row =>
        obtain ⟨id, _, rfl⟩ := mem_map.mp (mem_of_find?_eq_some found)
        rfl
  · rfl

theorem Valid.commit (valid : Valid maxAttempts world) (events : List EventId)
    (answers : List (Answer EventId)) :
    Valid maxAttempts { world with answers := answers, store := world.store.commit events } :=
  ⟨valid.lawful, fun event =>
    (valid.tracked event).trans (status_commit world.store events event).symm,
    valid.accepted, valid.recording⟩

variable {store : OutboxStore EventId} {row : OutboxRow EventId}
variable {events : List EventId}

theorem mem_commit (member : row ∈ (store.commit events).rows) :
    row ∈ store.rows ∨ row.2 = none := by
  unfold commit at member
  split at member
  · rcases mem_append.mp member with member | member
    · exact Or.inl member
    · obtain ⟨event, _, rfl⟩ := mem_map.mp member
      exact Or.inr rfl
  · exact Or.inl member

theorem mem_commit_of_mem (member : row ∈ store.rows)
    (events : List EventId) : row ∈ (store.commit events).rows := by
  unfold commit
  split
  · exact mem_append_left _ member
  · exact member

theorem delivering_of_commit (member : row ∈ (store.commit events).rows)
    (delivering : isDelivering row.2 = true) : row ∈ store.rows := by
  rcases mem_commit member with member | new
  · exact member
  · rw [new] at delivering
    cases delivering

variable {claimed : List EventId}

/-- A question leaves the history as it is, and new events are pending. -/
theorem answer_keeps (fact : List (Entry EventId) → Prop) :
    Keeps maxAttempts fact claimed answer (fun _ => fact) (fun _ => claimed) := by
  intro world holding
  unfold answer
  split
  · exact ⟨fun valid => ⟨valid, suffix_refl _⟩, fun _ _ => holding⟩
  · next given answers _ =>
    have later := holding.valid.commit given.arrivals answers
    refine ⟨fun _ => ⟨later, suffix_refl _⟩, fun _ _ => ⟨later, holding.known, ?_⟩⟩
    exact fun row member delivering =>
      holding.isOpen row (delivering_of_commit member delivering) delivering

theorem clockNow_keeps (fact : List (Entry EventId) → Prop) :
    Keeps maxAttempts fact claimed clockNow (fun _ => fact) (fun _ => claimed) :=
  (answer_keeps fact).bind fun _ => .ofExcept fun _ _ _ holds => holds

theorem stopAt_keeps (failpoint : OutboxFailpoint) (fact : List (Entry EventId) → Prop) :
    Keeps maxAttempts fact claimed (stopAt failpoint) (fun _ => fact) (fun _ => claimed) := by
  refine (answer_keeps fact).bind fun given => ?_
  split
  · exact .fail
  · exact .pure fun _ holds => holds

variable {fact : List (Entry EventId) → Prop}

/-- An entry that the law allows and that is no status change. -/
theorem record_keeps {entry : Entry EventId} (law : ∀ log, fact log → Law maxAttempts log entry)
    (still :
      ∀ (log : List (Entry EventId)) event, current (entry :: log) event = current log event) :
    Keeps maxAttempts fact claimed (record entry) (fun _ log => log.head? = some entry)
      (fun _ => claimed) := by
  refine .change ?_
  rintro world ⟨valid, holds, isOpen⟩
  have later : Valid maxAttempts { world with log := entry :: world.log } := by
    refine ⟨⟨law world.log holds, valid.lawful⟩, fun event => ?_, fun success member => ?_,
      valid.recording⟩
    · exact (still world.log event).trans (valid.tracked event)
    · exact lasting_change (suffix_cons _ _) (valid.accepted success member)
  exact ⟨fun _ => ⟨later, suffix_cons _ _⟩, later, rfl, isOpen⟩

theorem deliver_keeps (event : EventId) (attempt : NonZeroU32) :
    Keeps maxAttempts (fun log => ∃ entry ∈ log, IsClaim attempt event entry) claimed
      (deliver event attempt)
      (fun disposition log => .answered event attempt disposition ∈ log) (fun _ => claimed) := by
  have call : Keeps maxAttempts (fun log => ∃ entry ∈ log, IsClaim attempt event entry) claimed
      (record (.called event attempt)) (fun _ log => log.head? = some (.called event attempt))
      (fun _ => claimed) :=
    record_keeps (fun _ claimed => claimed) fun _ _ => rfl
  -- the call is still the last entry when the connector answers
  refine call.bind fun _ => (answer_keeps _).bind fun given => ?_
  have reply : Keeps maxAttempts (fun log => log.head? = some (.called event attempt)) claimed
      (record (.answered event attempt given.disposition))
      (fun _ log => log.head? = some (.answered event attempt given.disposition))
        (fun _ => claimed) :=
    record_keeps (fun _ last => last) fun _ _ => rfl
  exact reply.bind fun _ => .pure fun _ last => mem_of_head? last

variable {α : Type} {operation : Worker EventId α}

theorem storageCall_safe {R : World EventId → World EventId → Prop} [Std.Refl R] [IsTrans _ R]
    {pre : World EventId → Prop} {post : α → World EventId → Prop}
    (asked : Safe R pre answer fun _ => pre) (safe : Safe R pre operation post) :
    Safe R pre (storageCall operation) post := by
  refine asked.bind fun given => ?_
  split
  · exact safe
  · exact .fail
  · exact safe.bind fun _ => .fail

theorem storageCall_keeps {post : α → List (Entry EventId) → Prop} {left : α → List EventId}
    (keeps : Keeps maxAttempts fact claimed operation post left) :
    Keeps maxAttempts fact claimed (storageCall operation) post left :=
  storageCall_safe (answer_keeps fact) keeps

variable {state : OutboxDeliveryStateV1}

theorem status_setStatus
    (known : (store.status event).isSome) (other : EventId) :
      (store.setStatus event state).status other =
      if other = event then some (some state) else store.status other := by
  have looked :
    (store.setStatus event state).status other = (store.rows.find? (·.1 = other)).map fun row =>
      if row.1 = event then some state else row.2 := by
    unfold status setStatus
    rw [find?_map, Option.map_map]
    rfl
  rw [looked]
  unfold status at known ⊢
  by_cases same : other = event
  · subst same
    rw [if_pos rfl]
    cases found : store.rows.find? (·.1 = other) with
    | none =>
      rw [found] at known
      cases known
    | some row =>
      have isRow : row.1 = other := by simpa using find?_some found
      rw [Option.map_some, if_pos isRow]
  · rw [if_neg same]
    cases found : store.rows.find? (·.1 = other) with
    | none => rfl
    | some row =>
      have isRow : row.1 = other := by simpa using find?_some found
      rw [Option.map_some, Option.map_some, if_neg (isRow ▸ same)]

theorem mem_setStatus (member : row ∈ (store.setStatus event state).rows) :
    row = (event, some state) ∨ row.1 ≠ event ∧ row ∈ store.rows := by
  obtain ⟨old, isOld, rfl⟩ := mem_map.mp member
  by_cases same : old.1 = event
  · left
    rw [if_pos same, same]
  · right
    rw [if_neg same]
    exact ⟨same, isOld⟩

/-- What the result of a transition says about the history. -/
def Written (log : List (Entry EventId)) (transition : Transition EventId)
    (result : OutboxStore.OutboxTransitionResultV1) : Prop :=
  ∀ state, result = .applied state → state = transition.updated ∧
    .wrote transition.event transition.expected transition.updated ∈ log

def Allowed (maxAttempts : NonZeroU32) (transitions : List (Transition EventId))
    (log : List (Entry EventId)) : Prop :=
  ∀ transition ∈ transitions,
    Change maxAttempts log transition.event transition.expected transition.updated

omit [LinearOrder EventId] in
theorem lasting_allowed (transitions : List (Transition EventId)) :
    Lasting (Allowed maxAttempts transitions) :=
  fun grown allowed transition member => lasting_change grown (allowed transition member)

omit [LinearOrder EventId] in
theorem lasting_written (transition : Transition EventId) (result : OutboxTransitionResultV1) :
    Lasting fun log => Written log transition result := by
  intro past later grown written state isState
  obtain ⟨same, member⟩ := written state isState
  exact ⟨same, grown.subset member⟩

variable {updated : OutboxDeliveryStateV1} {expected : OutboxStatusObservationV1}

theorem Valid.write (valid : Valid maxAttempts world)
    (found : world.store.status event = some expected)
    (changes : Change maxAttempts world.log event expected updated) : Valid maxAttempts { world with
      store := world.store.setStatus event updated,
      log := .wrote event expected updated :: world.log } := by
  have before : current world.log event = expected := by
    rw [valid.tracked, found]
    rfl
  refine ⟨⟨⟨before, changes⟩, valid.lawful⟩, fun other => ?_, fun success member => ?_,
    valid.recording⟩
  · change current (.wrote event expected updated :: world.log) other =
      ((world.store.setStatus event updated).status other).join
    rw [status_setStatus (by rw [found]; rfl)]
    by_cases here : other = event
    · rw [if_pos here, here]
      exact current_wrote_self _ _
    · rw [if_neg here, current_wrote_of_ne (Ne.symm here)]
      exact valid.tracked other
  · exact lasting_change (suffix_cons _ _) (valid.accepted success member)

/-- A transition is applied, or nothing happens. -/
theorem applyTransition_cases (transition : Transition EventId) (world : World EventId) :
    (world.store.status transition.event = some transition.expected ∧
      applyTransition transition world = (.ok (.applied transition.updated), { world with
        store := world.store.setStatus transition.event transition.updated
        log := .wrote transition.event transition.expected transition.updated :: world.log })) ∨
      ∃ result, (∀ state, result ≠ .applied state) ∧
        applyTransition transition world = (.ok result, world) := by
  unfold applyTransition OutboxStore.transitionOutbox
  cases found : world.store.status transition.event with
  | none =>
    refine Or.inr ⟨.authoritativeIntentMissing, ?_, rfl⟩
    rintro state ⟨⟩
  | some status =>
    by_cases same : status = transition.expected
    · refine Or.inl ⟨congrArg some same, ?_⟩
      simp only [same, if_true]
    · refine Or.inr ⟨.stateChanged status, ?_, ?_⟩
      · rintro state ⟨⟩
      · simp only [same, if_false]

/-- The claimed events after a transition. -/
def leaves (transition : Transition EventId) (claimed : List EventId) :
    OutboxStore.OutboxTransitionResultV1 → List EventId
  | .applied _ =>
    bif isDelivering (some transition.updated) then transition.event :: claimed
    else claimed.filter (· ≠ transition.event)
  | _ => claimed

theorem Open.write (isOpen : Open claimed world) (transition : Transition EventId)
    (state : OutboxDeliveryStateV1) : Open (leaves transition claimed (.applied state)) { world with
      store := world.store.setStatus transition.event transition.updated
      log := .wrote transition.event transition.expected transition.updated :: world.log } := by
  intro row member delivering
  rcases mem_setStatus member with rfl | ⟨apart, member⟩
  · refine Or.inl ?_
    rw [leaves, delivering, cond_true]
    exact mem_cons_self
  · refine (isOpen row member delivering).imp_left fun isClaimed => ?_
    rw [leaves]
    cases isDelivering (some transition.updated) with
    | true => exact mem_cons_of_mem _ isClaimed
    | false => exact mem_filter.mpr ⟨isClaimed, decide_eq_true apart⟩

variable {transition : Transition EventId}

theorem leaves_settled (settled : isDelivering (some transition.updated) = false)
    (result : OutboxTransitionResultV1) : leaves transition claimed result ⊆ claimed := by
  cases result with
  | applied state =>
    rw [leaves, settled, cond_false]
    exact filter_sublist.subset
  | stateChanged observed => exact Subset.refl _
  | authoritativeIntentMissing => exact Subset.refl _

/-- A transition to another status takes its event out of delivery when it is applied. -/
theorem leaves_closed (settled : isDelivering (some transition.updated) = false)
    (state : OutboxDeliveryStateV1) :
    leaves transition (transition.event :: claimed) (.applied state) ⊆ claimed := by
  rw [leaves, settled, cond_false]
  intro event member
  obtain ⟨isClaimed, apart⟩ := mem_filter.mp member
  exact (mem_cons.mp isClaimed).resolve_left (of_decide_eq_true apart)

theorem applyTransition_keeps (transition : Transition EventId) (claimed : List EventId) :
    Keeps maxAttempts
      (fun log => Change maxAttempts log transition.event transition.expected
        transition.updated) claimed
      (applyTransition transition) (fun result log => Written log transition result)
      (leaves transition claimed) := by
  rintro world ⟨valid, changes, isOpen⟩
  rcases applyTransition_cases transition world with ⟨found, applied⟩ |
    ⟨result, notApplied, unchanged⟩
  · have later := valid.write found changes
    rw [applied]
    refine ⟨fun _ => ⟨later, suffix_cons _ _⟩, ?_⟩
    rintro _ ⟨⟩
    refine ⟨later, ?_, isOpen.write transition _⟩
    rintro state ⟨⟩
    exact ⟨rfl, mem_cons_self⟩
  · rw [unchanged]
    refine ⟨Std.Refl.refl world, ?_⟩
    rintro _ ⟨⟩
    refine ⟨valid, fun state never => absurd never (notApplied state), ?_⟩
    cases result with
    | applied state => exact absurd rfl (notApplied state)
    | stateChanged observed => exact isOpen
    | authoritativeIntentMissing => exact isOpen

theorem transitionOutbox_keeps (transition : Transition EventId)
    (claimed : List EventId) (changes : ∀ log, fact log →
      Change maxAttempts log transition.event transition.expected transition.updated) :
    Keeps maxAttempts fact claimed (transitionOutbox transition)
      (fun result log => Written log transition result) (leaves transition claimed) :=
  storageCall_keeps ((applyTransition_keeps transition claimed).weaken changes
    fun _ _ written => written)

/-- The claimed events after a group of transitions. -/
def leavesAll :
    List (Transition EventId) → List OutboxStore.OutboxTransitionResultV1 → List EventId →
    List EventId
  | transition :: rest, result :: results, claimed =>
      leavesAll rest results (leaves transition claimed result)
  | _, _, claimed => claimed

variable {results : List OutboxStore.OutboxTransitionResultV1}

theorem leavesAll_closed {transitions : List (Transition EventId)}
    (settled : ∀ transition ∈ transitions, isDelivering (some transition.updated) = false)
    (sameLength : transitions.length = results.length)
    (all : results.all (fun result => result matches .applied _) = true) {within : List EventId}
    (covered : within ⊆ transitions.map Transition.event ++ claimed) :
    leavesAll transitions results within ⊆ claimed := by
  induction transitions generalizing results within with
  | nil =>
    cases results with
    | nil => exact covered
    | cons _ _ => cases sameLength
  | cons transition rest ih =>
    cases results with
    | nil => cases sameLength
    | cons result results =>
      rw [all_cons, Bool.and_eq_true] at all
      cases result with
      | applied state =>
        refine ih (fun other member => settled other (mem_cons_of_mem _ member))
          (Nat.succ.inj sameLength) all.2 fun event member => ?_
        refine leaves_closed (settled transition mem_cons_self) state ?_
        rw [leaves, settled transition mem_cons_self, cond_false] at member ⊢
        obtain ⟨inside, apart⟩ := mem_filter.mp member
        exact mem_filter.mpr ⟨covered inside, apart⟩
      | stateChanged observed => cases all.1
      | authoritativeIntentMissing => cases all.1

theorem applyAll_keeps (transitions : List (Transition EventId)) (claimed : List EventId) :
    Keeps maxAttempts (Allowed maxAttempts transitions) claimed (applyAll transitions)
      (fun results log => Forall₂ (Written log) transitions results)
      (fun results => leavesAll transitions results claimed) := by
  induction transitions generalizing claimed with
  | nil => exact Safe.pure fun _ holding => ⟨holding.valid, .nil, holding.isOpen⟩
  | cons transition rest ih =>
    have split : ∀ log : List (Entry EventId), Allowed maxAttempts (transition :: rest) log →
        Change maxAttempts log transition.event transition.expected transition.updated ∧
          Allowed maxAttempts rest log := fun log allowed =>
      ⟨allowed transition mem_cons_self, fun other member =>
        allowed other (mem_cons_of_mem _ member)⟩
    have first := Keeps.weaken
      ((applyTransition_keeps transition claimed).carry (lasting_allowed rest)) split
      fun _ _ both => both
    refine first.bind fun result => ?_
    have others := Keeps.weaken
      ((ih (leaves transition claimed result)).carry (lasting_written transition result))
      (fun _ both => And.symm both) fun _ _ both => both
    exact others.bind fun results => Safe.pure fun _ holding =>
      ⟨holding.valid, .cons holding.known.2 holding.known.1, holding.isOpen⟩

theorem transitionGroup_keeps (limit : Nat) (transitions : List (Transition EventId))
    (claimed : List EventId) :
    Keeps maxAttempts (Allowed maxAttempts transitions) claimed (transitionGroup limit transitions)
      (fun results log => Forall₂ (Written log) transitions results)
      (fun results => leavesAll transitions results claimed) := by
  refine .bind_ofExcept fun _ _ => storageCall_keeps (.bind_fetch fun known => ?_)
  split
  · exact .weaken (applyAll_keeps transitions claimed)
      (fun _ both => both.1) fun _ _ holding => holding
  · exact .fail

theorem Valid.emptied (valid : Valid maxAttempts world) :
    Valid maxAttempts { world with successes := [] } :=
  ⟨valid.lawful, valid.tracked, fun _ never => absurd never not_mem_nil,
    fun _ never => absurd never not_mem_nil⟩

theorem emptySuccesses_safe (successes : List (Transition EventId)) (claimed : List EventId) :
    Safe (Evolves maxAttempts)
      (fun world => Holding maxAttempts (fun _ => True) claimed world ∧ world.successes = successes)
      (change fun world => { world with successes := [] } : Worker EventId Unit)
      (fun _ world => Holding maxAttempts (Allowed maxAttempts successes)
        (successes.map Transition.event ++ claimed) world ∧
        ∀ success ∈ successes, isDelivering (some success.updated) = false) := by
  refine .change ?_
  rintro world ⟨⟨valid, _, isOpen⟩, rfl⟩
  refine ⟨fun _ => ⟨valid.emptied, suffix_refl _⟩,
    ⟨valid.emptied, valid.accepted, fun row member delivering => ?_⟩, valid.recording⟩
  exact Or.inl (mem_append.mpr (isOpen row member delivering).symm)

/-- The deliveries that wait to be recorded are ones that the connector has accepted. A flush that
ends well has recorded them all. -/
theorem flushSuccesses_keeps (claimed : List EventId) :
    Steady maxAttempts claimed (flushSuccesses : Worker EventId Unit) := by
  refine .bind_fetch fun successes => ?_
  split
  · exact .pure fun _ both => both.1
  · refine (emptySuccesses_safe successes claimed).bind fun _ => .assuming fun settled =>
      (transitionGroup_keeps _ successes _).bind fun results => ?_
    split
    · next all =>
      refine Safe.pure fun world holding => ⟨holding.valid, trivial, holding.isOpen.mono ?_⟩
      exact leavesAll_closed settled holding.known.length_eq all (Subset.refl _)
    · exact .fail

theorem complete_keeps (phase : OutboxTransitionPhase)
    (settled : isDelivering (some updated) = false)
    (changes : ∀ log, fact log → Change maxAttempts log event expected updated) :
    Keeps maxAttempts fact (event :: claimed) (complete phase ⟨event, expected, updated⟩)
    (fun _ _ => True) (fun _ => claimed) := by
  refine (transitionOutbox_keeps ⟨event, expected, updated⟩ _ changes).bind fun result => ?_
  cases result with
  | applied state =>
    refine .claims (.pure fun _ _ => trivial) ?_ fun _ => Subset.refl _
    exact leaves_closed settled state
  | stateChanged observed => exact .fail
  | authoritativeIntentMissing => exact .fail

variable {setup : Setup} {event : EventId} {attempt : NonZeroU32} {destinationId : String}
  {startedAt leaseDeadline : Timestamp}

theorem completeSuccess_keeps :
    Keeps maxAttempts (fun log => .answered event attempt .accepted ∈ log) (event :: claimed)
      (completeSuccess setup event (.delivering attempt destinationId startedAt leaseDeadline))
      (fun _ _ => True) (fun _ => claimed) := by
  refine (clockNow_keeps _).bind fun now => .bind_ofExcept ?_
  rintro updated ⟨⟩
  split
  · have pushed : Keeps maxAttempts (fun log => .answered event attempt .accepted ∈ log)
      (event :: claimed)
        (change fun world => { world with successes := world.successes ++ [⟨event,
          some (.delivering attempt destinationId startedAt leaseDeadline),
          .delivered attempt destinationId now⟩] }) (fun _ _ => True) (fun _ => claimed) := by
      refine .change ?_
      rintro world ⟨valid, accepted, isOpen⟩
      have later : Valid maxAttempts { world with successes := world.successes ++ [⟨event,
          some (.delivering attempt destinationId startedAt leaseDeadline),
          .delivered attempt destinationId now⟩] } := by
        refine ⟨valid.lawful, valid.tracked, ?_, ?_⟩
        · refine forall_mem_append.mpr ⟨valid.accepted, forall_mem_singleton.mpr ?_⟩
          exact .succeed accepted
        · exact forall_mem_append.mpr ⟨valid.recording, forall_mem_singleton.mpr rfl⟩
      refine ⟨fun _ => ⟨later, suffix_refl _⟩, later, trivial, fun row member delivering => ?_⟩
      rw [map_append, mem_append]
      rcases isOpen row member delivering with isClaimed | waiting
      · rcases mem_cons.mp isClaimed with same | isClaimed
        · exact Or.inr (Or.inr (mem_singleton.mpr same))
        · exact Or.inl isClaimed
      · exact Or.inr (Or.inl waiting)
    refine pushed.bind fun _ => .bind_fetch fun successes => ?_
    split
    · exact .weaken (flushSuccesses_keeps claimed) (fun _ both => both.1) fun _ _ holding => holding
    · exact .pure fun _ both => both.1
  · exact complete_keeps .succeed rfl fun _ accepted => .succeed accepted

theorem completeDeadLetter_keeps (safeError : Option String) : Keeps maxAttempts
      (fun log => (∃ reason, .answered event attempt (.permanentFailure reason) ∈ log) ∨
        maxAttempts.get.toNat ≤ attempt.get.toNat) (event :: claimed)
      (completeDeadLetter event
        (.delivering attempt destinationId startedAt leaseDeadline) safeError)
      (fun _ _ => True) (fun _ => claimed) := by
  refine (clockNow_keeps _).bind fun now => .bind_ofExcept ?_
  rintro updated ⟨⟩
  exact complete_keeps .deadLetter rfl fun _ reason => .reject reason

theorem retryAt_eq_none {policy : DeliveryPolicy} {start : Timestamp}
    (unscheduled : policy.retryAt start attempt = .ok none) :
    policy.maxAttempts.get.toNat ≤ attempt.get.toNat := by
  unfold DeliveryPolicy.retryAt at unscheduled
  split at unscheduled
  · obtain ⟨delay, _, added⟩ := bind_eq_ok.mp unscheduled
    obtain ⟨_, _, never⟩ := map_eq_ok.mp added
    cases never
  · next exhausted =>
    simpa [DeliveryPolicy.permitsAttemptAfter] using exhausted

theorem completeRetry_keeps (safeError : Option String) :
    Keeps setup.policy.maxAttempts (fun _ => True) (event :: claimed)
      (completeRetry setup event (.delivering attempt destinationId startedAt leaseDeadline)
        attempt safeError) (fun _ _ => True) (fun _ => claimed) := by
  refine (clockNow_keeps _).bind fun now => .bind_ofExcept fun nextAttemptAt isNext => ?_
  cases nextAttemptAt with
  | none =>
    have exhausted := retryAt_eq_none (mapError_eq_ok.mp isNext)
    exact (completeDeadLetter_keeps safeError).weaken (fun _ _ => Or.inr exhausted)
      fun _ _ _ => trivial
  | some retryTime =>
    refine .bind_ofExcept ?_
    rintro updated ⟨⟩
    exact complete_keeps .retry rfl fun _ _ => .retry

variable {status : OutboxStatusObservationV1}
variable {failedAt : Timestamp}

theorem deadLetter_of_pending {initialDestination : Option String} {safeError : Option String}
    (pending : isPending status = true)
    (rejected : deadLetter status initialDestination failedAt safeError = .ok updated) :
    ∃ destinationId, updated = .deadLetter (attempts status) destinationId failedAt safeError := by
  obtain ⟨_, _, rejected⟩ := bind_eq_ok.mp rejected
  rcases status with _ | (metadata | _ | _ | _)
  · obtain ⟨destinationId, _, isUpdated⟩ := bind_eq_ok.mp rejected
    cases isUpdated
    exact ⟨destinationId, rfl⟩
  · cases rejected
    exact ⟨metadata.destinationId, rfl⟩
  all_goals cases pending

variable {item : OutboxRow EventId}

theorem deadLetterPending_keeps (pending : isPending item.2 = true)
    (exhausted : setup.policy.maxAttempts.get.toNat ≤ (attempts item.2).toNat) :
    Steady setup.policy.maxAttempts claimed (deadLetterPending setup item failedAt) := by
  refine .bind_ofExcept fun updated isUpdated => ?_
  obtain ⟨destinationId, rfl⟩ := deadLetter_of_pending pending (mapError_eq_ok.mp isUpdated)
  refine .bind (.claims (transitionOutbox_keeps ⟨item.1, item.2, _⟩ claimed
    fun _ _ => .exhaust pending exhausted) (Subset.refl _) (leaves_settled rfl)) fun result => ?_
  cases result with
  | applied state => exact .pure fun _ _ => trivial
  | stateChanged observed => exact .pure fun _ _ => trivial
  | authoritativeIntentMissing => exact .fail

/-- A renewal changes only the deadline. -/
theorem renewIfExpired_keeps : Keeps maxAttempts (fun _ => True) (event :: claimed)
      (renewIfExpired setup event (.delivering attempt destinationId startedAt leaseDeadline))
      (fun renewed _ => ∃ deadline, renewed = .delivering attempt destinationId startedAt deadline)
      (fun _ => event :: claimed) := by
  refine (clockNow_keeps _).bind fun now => ?_
  split
  · exact .pure fun _ _ => ⟨leaseDeadline, rfl⟩
  · refine .bind_ofExcept fun deadline _ => .bind_ofExcept ?_
    rintro renewed ⟨⟩
    refine .bind (transitionOutbox_keeps ⟨event, _, _⟩ _ fun _ _ => .renew) fun result => ?_
    cases result with
    | applied state =>
      refine .claims (.pure fun _ written => ⟨deadline, (written state rfl).1⟩) ?_
        fun _ => Subset.refl _
      exact cons_subset.mpr ⟨mem_cons_self, Subset.refl _⟩
    | stateChanged observed => exact ((flushSuccesses_keeps _).after _).bind fun _ => .fail
    | authoritativeIntentMissing => exact .fail

theorem deliverClaimed_keeps :
    Keeps setup.policy.maxAttempts (fun log => ∃ entry ∈ log, IsClaim attempt event entry)
    (event :: claimed)
      (deliverClaimed setup event (.delivering attempt destinationId startedAt leaseDeadline))
      (fun _ _ => True) (fun _ => claimed) := by
  refine .bind_ofExcept ?_
  rintro _ ⟨⟩
  refine (stopAt_keeps _ _).bind fun _ => ?_
  have renewal :
    Keeps setup.policy.maxAttempts (fun log => ∃ entry ∈ log, IsClaim attempt event entry)
      (event :: claimed)
        (renewIfExpired setup event (.delivering attempt destinationId startedAt leaseDeadline))
      (fun renewed log => (∃ entry ∈ log, IsClaim attempt event entry) ∧
        ∃ deadline, renewed = .delivering attempt destinationId startedAt deadline)
      (fun _ => event :: claimed) :=
    (renewIfExpired_keeps.carry (lasting_claimed attempt event)).weaken
      (fun _ claimed => ⟨trivial, claimed⟩) fun _ _ both => And.symm both
  refine renewal.bind fun renewed => .assuming ?_
  rintro ⟨deadline, rfl⟩
  refine (deliver_keeps event attempt).bind fun disposition => ?_
  cases disposition with
  | accepted => exact (stopAt_keeps _ _).bind fun _ => completeSuccess_keeps
  | retryable safeError =>
    refine ((flushSuccesses_keeps _).after _).bind fun _ => ?_
    exact (stopAt_keeps _ _).bind fun _ => completeRetry_keeps safeError
  | permanentFailure safeError =>
    refine ((flushSuccesses_keeps _).pass (lasting_mem _)).bind fun _ =>
      (stopAt_keeps _ _).bind fun _ => ?_
    exact (completeDeadLetter_keeps safeError).weaken
      (fun _ rejected => Or.inl ⟨safeError, rejected⟩)
      fun _ _ _ => trivial

variable {log : List (Entry EventId)}

section

omit [LinearOrder EventId]

theorem claim_eq_ok (claimed : claim expected destinationId startedAt leaseDeadline = .ok updated) :
    isPending expected = true ∧ ∃ attempt :
      NonZeroU32, attempt.get.toNat = (attempts expected).toNat + 1 ∧
      updated = .delivering attempt destinationId startedAt leaseDeadline := by
  simp only [claim, bind_eq_ok, require_eq_ok, okOr_eq_ok] at claimed
  obtain ⟨_, pending, _, fits, attempt, isAttempt, isUpdated⟩ := claimed
  cases isUpdated
  refine ⟨pending, attempt, ?_, rfl⟩
  rw [NonZeroU32.new_eq_some.mp isAttempt, UInt32.toNat_add]
  exact Nat.mod_eq_of_lt fits

/-- An event whose claim was applied. -/
def Claimed (event : EventId) (result : OutboxStore.OutboxTransitionResultV1)
    (log : List (Entry EventId)) : Prop :=
  ∀ delivering, result = .applied delivering → ∃ attempt destinationId startedAt leaseDeadline,
    delivering = .delivering attempt destinationId startedAt leaseDeadline ∧
      ∃ entry ∈ log, IsClaim attempt event entry

theorem lasting_claimedResult (event : EventId) (result : OutboxTransitionResultV1) :
    Lasting (Claimed event result) := by
  intro past later grown claimed delivering isApplied
  obtain ⟨attempt, destinationId, startedAt, leaseDeadline, isDelivering, entry, member, claims⟩ :=
    claimed delivering isApplied
  exact ⟨attempt, destinationId, startedAt, leaseDeadline, isDelivering, entry,
    grown.subset member, claims⟩

variable (isClaim : claimTransition setup item startedAt leaseDeadline = .ok transition)

include isClaim

theorem claimTransition_eq_ok :
    isPending item.2 = true ∧ ∃ attempt :
      NonZeroU32, attempt.get.toNat = (attempts item.2).toNat + 1 ∧ transition = ⟨item.1, item.2,
        .delivering attempt setup.policy.destinationId startedAt leaseDeadline⟩ := by
  obtain ⟨updated, isUpdated, isTransition⟩ := bind_eq_ok.mp isClaim
  obtain ⟨pending, attempt, counted, rfl⟩ := claim_eq_ok (mapError_eq_ok.mp isUpdated)
  cases isTransition
  exact ⟨pending, attempt, counted, rfl⟩

/-- A claim is allowed when the policy permits one more attempt. -/
theorem change_of_claim
    (permitted : setup.policy.permitsAttemptAfter (attempts item.2) = true)
    (log : List (Entry EventId)) :
    Change setup.policy.maxAttempts log transition.event transition.expected
      transition.updated := by
  obtain ⟨pending, attempt, counted, rfl⟩ := claimTransition_eq_ok isClaim
  refine .claim pending counted ?_
  have room := of_decide_eq_true permitted
  omega

theorem claimed_of_written {result : OutboxTransitionResultV1}
    (written : Written log transition result) : Claimed item.1 result log := by
  intro delivering isApplied
  obtain ⟨rfl, member⟩ := written delivering isApplied
  obtain ⟨pending, attempt, _, rfl⟩ := claimTransition_eq_ok isClaim
  exact ⟨attempt, _, _, _, rfl, _, member, _, _, _, _, pending, rfl⟩

end

theorem deliverApplied_keeps {delivering : OutboxDeliveryStateV1} :
    Keeps setup.policy.maxAttempts (Claimed event (.applied delivering)) (event :: claimed)
      (deliverClaimed setup event delivering) (fun _ _ => True) (fun _ => claimed) := by
  rintro world ⟨valid, isClaim, isOpen⟩
  obtain ⟨attempt, destinationId, startedAt, leaseDeadline, rfl, isClaimed⟩ :=
    isClaim delivering rfl
  exact deliverClaimed_keeps world ⟨valid, isClaimed, isOpen⟩

theorem isPending_of_isEligible {now : Timestamp}
    (eligible : isEligible status now = true) : isPending status = true := by
  rcases status with _ | (_ | _ | _ | _)
  all_goals first | rfl | cases eligible

theorem dispatchItem_keeps (item : OutboxRow EventId) :
    Steady setup.policy.maxAttempts claimed (dispatchItem setup item) := by
  refine (clockNow_keeps _).bind fun startedAt => ?_
  split
  · exact flushSuccesses_keeps claimed
  · next eligible =>
    have pending := isPending_of_isEligible (Bool.not_eq_false _ ▸ eligible)
    refine (answer_keeps _).bind fun given => ?_
    split
    · exact flushSuccesses_keeps claimed
    · split
      · next exhausted =>
        refine (flushSuccesses_keeps claimed).bind fun _ => deadLetterPending_keeps pending ?_
        simpa [DeliveryPolicy.permitsAttemptAfter] using exhausted
      · next permitted =>
        refine .bind_ofExcept fun leaseDeadline _ => .bind_ofExcept fun transition isClaim => ?_
        have claiming := (transitionOutbox_keeps transition claimed fun log (_ : True) =>
          change_of_claim isClaim (Bool.not_eq_false _ ▸ permitted) log).weaken
          (fun _ holds => holds)
            fun _ _ written => claimed_of_written isClaim written
        obtain ⟨_, _, _, rfl⟩ := claimTransition_eq_ok isClaim
        refine claiming.bind fun result => ?_
        cases result with
        | applied delivering => exact deliverApplied_keeps
        | stateChanged observed => exact (flushSuccesses_keeps claimed).after _
        | authoritativeIntentMissing => exact .fail

/-- Every item of a run has an attempt left. -/
theorem claimableRun_keeps (items : List (OutboxRow EventId)) :
    Keeps maxAttempts (fun _ => True) claimed (claimableRun setup items)
      (fun run _ => ∀ item ∈ items.take run,
        setup.policy.permitsAttemptAfter (attempts item.2) = true) (fun _ => claimed) := by
  have nothing :
      ∀ item ∈ items.take 0, setup.policy.permitsAttemptAfter (attempts item.2) = true := by
    rw [take_zero]
    exact fun _ never => absurd never not_mem_nil
  unfold claimableRun
  split
  · exact .pure fun _ _ => nothing
  · refine (clockNow_keeps _).bind fun now => ?_
    dsimp only
    split
    · exact .pure fun _ _ => nothing
    · refine (answer_keeps _).bind fun given => .pure fun _ _ item member => ?_
      set candidates := (items.take maxOutboxClaimGroupEntries).takeWhile fun item =>
        isEligible item.2 now && setup.policy.permitsAttemptAfter
          (attempts item.2) with isCandidates
      have leading : candidates <+: items := ( takeWhile_prefix _).trans ( take_prefix _ _)
      have isCandidate : item ∈ candidates := by
        rw [prefix_iff_eq_take.mp leading]
        exact take_subset_take_left items (min_le_right _ _) member
      rw [isCandidates] at isCandidate
      have passes := mem_takeWhile_imp isCandidate
      exact (Bool.and_eq_true_iff.mp passes).2

/-- The events whose claims were applied. -/
def appliedEvents : List EventId → List OutboxStore.OutboxTransitionResultV1 → List EventId
  | event :: events, .applied _ :: results => event :: appliedEvents events results
  | _ :: events, _ :: results => appliedEvents events results
  | _, _ => []

theorem deliverRun_keeps (items : List (OutboxRow EventId))
    (results : List OutboxTransitionResultV1) : Keeps setup.policy.maxAttempts
      (fun log => Forall₂ (fun item result => Claimed item.1 result log) items results)
      (appliedEvents (items.map Prod.fst) results ++ claimed) (deliverRun setup items results)
      (fun _ _ => True) (fun _ => claimed) := by
  induction items generalizing results with
  | nil => exact .pure fun _ _ => trivial
  | cons item items ih =>
    cases results with
    | nil => exact .pure fun _ _ => trivial
    | cons result results =>
      have lasting : Lasting fun log : List (Entry EventId) =>
          Forall₂ (fun item result => Claimed item.1 result log) items results :=
        fun grown all => all.imp fun item result claimed =>
          lasting_claimedResult item.1 result grown claimed
      have split : ∀ log : List (Entry EventId),
          Forall₂ (fun item result => Claimed item.1 result log) (item :: items)
            (result :: results) →
          Claimed item.1 result log ∧
            Forall₂ (fun item result => Claimed item.1 result log) items results :=
        fun log all => forall₂_cons.mp all
      cases result with
      | applied delivering =>
        refine .bind ((deliverApplied_keeps.carry lasting).weaken split fun _ _ both =>
          both) fun _ => ?_
        exact (ih results).weaken (fun _ both => both.2) fun _ _ _ => trivial
      | stateChanged observed =>
        refine .bind (((flushSuccesses_keeps _).pass lasting).weaken
          (fun log all => (split log all).2) fun _ _ all => all) fun _ => ih results
      | authoritativeIntentMissing => exact .fail

variable {items : List (OutboxRow EventId)} {claims : List (Transition EventId)}

section

omit [LinearOrder EventId]

variable (isClaims : Forall₂
  (fun item transition => claimTransition setup item startedAt leaseDeadline =
  .ok transition) items claims)

include isClaims

theorem claimed_of_results (written : Forall₂ (Written log) claims results) :
    Forall₂ (fun item result => Claimed item.1 result log) items results := by
  induction isClaims generalizing results with
  | nil =>
    cases written
    exact .nil
  | cons isClaim _ ih =>
    cases written with
    | cons isWritten others => exact .cons (claimed_of_written isClaim isWritten) (ih others)

theorem allowed_of_claims
    (permitted : ∀ item ∈ items, setup.policy.permitsAttemptAfter (attempts item.2) = true)
    (log : List (Entry EventId)) : Allowed setup.policy.maxAttempts claims log := by
  induction isClaims with
  | nil => exact fun _ never => absurd never not_mem_nil
  | cons isClaim _ ih =>
    rintro transition (_ | ⟨_, member⟩)
    · exact change_of_claim isClaim (permitted _ mem_cons_self) log
    · exact ih (fun item isItem => permitted item (mem_cons_of_mem _ isItem)) transition member

end

theorem leavesAll_claims (isClaims : Forall₂
      (fun item transition => claimTransition setup item startedAt leaseDeadline =
      .ok transition) items claims)
    (results : List OutboxTransitionResultV1) (claimed : List EventId) :
    leavesAll claims results claimed ⊆ appliedEvents (items.map Prod.fst) results ++ claimed := by
  induction isClaims generalizing results claimed with
  | nil => exact subset_append_right _ _
  | cons isClaim _ ih =>
    obtain ⟨_, _, _, rfl⟩ := claimTransition_eq_ok isClaim
    cases results with
    | nil => exact subset_append_right _ _
    | cons result results =>
      cases result with
      | applied state =>
          exact Subset.trans (ih results _) (by simp [appliedEvents, leaves, isDelivering])
      | stateChanged observed => exact ih results claimed
      | authoritativeIntentMissing => exact ih results claimed

theorem dispatchRun_keeps
    (permitted : ∀ item ∈ items, setup.policy.permitsAttemptAfter (attempts item.2) = true) :
    Steady setup.policy.maxAttempts claimed (dispatchRun setup items) := by
  refine (clockNow_keeps _).bind fun startedAt => .bind_ofExcept fun leaseDeadline _ =>
    Keeps.bind_ofExcept fun claims isClaims => ?_
  have claiming := mapM_forall₂ isClaims
  have group := ((transitionGroup_keeps maxOutboxClaimGroupEntries claims claimed).weaken
    (fun log (_ : True) => allowed_of_claims claiming permitted log)
    fun _ _ written => claimed_of_results claiming written).claims (Subset.refl _)
      fun results => leavesAll_claims claiming results claimed
  exact group.bind fun results => deliverRun_keeps items results

theorem moveScan_keeps (position : Option EventId) :
    Steady maxAttempts claimed (change fun world => { world with scanAfter := position }) := by
  refine .change ?_
  rintro world ⟨valid, _, isOpen⟩
  have later : Valid maxAttempts { world with scanAfter := position } :=
    ⟨valid.lawful, valid.tracked, valid.accepted, valid.recording⟩
  exact ⟨fun _ => ⟨later, suffix_refl _⟩, later, trivial, isOpen⟩

theorem dispatchItems_keeps (items : List (OutboxRow EventId)) (skipped : Nat) :
    Steady setup.policy.maxAttempts claimed (dispatchItems setup items skipped) := by
  induction items generalizing skipped with
  | nil => exact .pure fun _ _ => trivial
  | cons item items ih =>
    cases skipped with
    | succ skipped => exact ih skipped
    | zero =>
      have counting :
        Keeps setup.policy.maxAttempts (fun _ => True) claimed (claimableRun setup (item :: items))
          (fun run _ => True ∧ ∀ taken ∈ (item :: items).take run,
            setup.policy.permitsAttemptAfter (attempts taken.2) = true) (fun _ => claimed) :=
        (claimableRun_keeps (item :: items)).weaken (fun _ _ => trivial)
          fun _ _ permitted => ⟨trivial, permitted⟩
      refine counting.bind fun run => .assuming fun permitted => ?_
      cases run with
      | zero =>
        exact (dispatchItem_keeps item).bind fun _ => (moveScan_keeps _).bind fun _ => ih 0
      | succ run =>
        exact (dispatchRun_keeps permitted).bind fun _ => (moveScan_keeps _).bind fun _ => ih run

theorem readPage_keeps (sizes : RowSizes EventId)
    (request : UndeliveredOutboxStatusScanRequestV1 EventId) :
    Steady maxAttempts claimed (readPage sizes request) := by
  refine (answer_keeps _).bind fun admission => ?_
  split
  · exact .fail
  · have reading :
        Steady maxAttempts claimed (storageCall (fetch World.store) : Worker EventId _) :=
      storageCall_keeps fun world holding => ⟨Std.Refl.refl world, fun _ _ => holding⟩
    refine reading.bind fun view => (answer_keeps _).bind fun _ => .bind_fetch fun atFence => ?_
    refine .bind (.weaken (answer_keeps fun _ => True) (fun _ both => both.1)
      fun _ _ holding => holding)
      fun _ => .bind_fetch fun atPage => ?_
    exact .ofExcept fun _ _ _ both => both.1

section

variable (sizes : RowSizes EventId)

theorem recoverItem_keeps (item : OutboxRow EventId) :
    Steady setup.policy.maxAttempts claimed (recoverItem (recoveryCalls setup sizes) item) := by
  unfold recoverItem
  split
  · have timed (attempt : NonZeroU32) : Steady setup.policy.maxAttempts claimed
        ((recoveryCalls setup sizes).retryAt item.1 attempt) :=
      (clockNow_keeps _).bind fun _ => .ofExcept fun _ _ _ holding => holding
    refine (stopAt_keeps _ _).bind fun _ => (timed _).bind fun nextAttemptAt =>
      Keeps.bind_ofExcept ?_
    rintro updated ⟨⟩
    refine .bind (.claims (complete_keeps .recovery rfl fun _ _ => .retry)
      (subset_cons_self item.1 claimed) fun _ => Subset.refl claimed) fun _ => ?_
    exact stopAt_keeps _ _
  · exact .pure fun _ _ => trivial

theorem recoverItems_keeps (items : List (OutboxRow EventId)) :
    Steady setup.policy.maxAttempts claimed (recoverItems (recoveryCalls setup sizes) items) := by
  induction items with
  | nil => exact .pure fun _ _ => trivial
  | cons item items ih => exact .bind (recoverItem_keeps sizes item) fun _ => ih

theorem recoverPages_keeps (pages : Nat) (request : UndeliveredOutboxStatusScanRequestV1 EventId) :
    Steady setup.policy.maxAttempts claimed
      (recoverPages (recoveryCalls setup sizes) setup.policy.scanLimit pages request) := by
  induction pages generalizing request with
  | zero => exact .fail
  | succ pages ih =>
    have page :
        Steady setup.policy.maxAttempts claimed (recoverPage (recoveryCalls setup sizes) request) :=
      .bind (readPage_keeps sizes request) fun scan => .bind (recoverItems_keeps sizes scan.items)
        fun _ => .pure fun _ _ => trivial
    refine page.bind fun continuation => ?_
    split
    · exact stopAt_keeps _ _
    · exact ih _

end

theorem recover_keeps (sizes : RowSizes EventId) :
    Steady setup.policy.maxAttempts claimed (OutboxWorker.recover setup sizes) :=
  fun world holding => recoverPages_keeps sizes _ _ world holding

end Effects

end OutboxEffects
