import RiffDb.OutboxEffects
import RiffDb.Runs

/-!
# Every event is delivered, dead-lettered or pending again

A dispatch that ends well leaves no event in delivery: what it claimed is recorded, or waits in the
group of accepted deliveries until that is recorded. Recovery that ends well leaves none either, and
between the two the worker is never ready.
-/

namespace OutboxDelivery

open CheckedCode CanonicalScalars OutboxStatus OutboxStatus.OutboxStatusObservationV1 OutboxProtocol
  OutboxRecovery OutboxWorker OutboxEffects StatefulCode List

section Settling

variable {EventId : Type} [LinearOrder EventId] {setup : Setup}

def Ends {α : Type} (pre : World EventId → Prop) (code : Worker EventId α)
    (post : α → World EventId → Prop) : Prop :=
  Safe Anyhow pre code post

/-- The rows in delivery are of one kind. -/
def DeliveringOnly (kind : OutboxRow EventId → Prop) (world : World EventId) : Prop :=
  ∀ row ∈ world.store.rows, isDelivering row.2 = true → kind row

/-- No event is in delivery. -/
def Settled (world : World EventId) : Prop := DeliveringOnly (fun _ => False) world

theorem DeliveringOnly.mono {kind wider : OutboxRow EventId → Prop} {world : World EventId}
    (only : DeliveringOnly kind world)
    (within : ∀ row, isDelivering row.2 = true → kind row → wider row) :
    DeliveringOnly wider world :=
  fun row member delivering => within row delivering (only row member delivering)

theorem answer_only (kind : OutboxRow EventId → Prop) :
    Ends (DeliveringOnly kind) answer (fun _ => DeliveringOnly kind) := by
  refine fun world only => ⟨trivial, fun given isGiven => ?_⟩
  unfold answer at isGiven ⊢
  split
  · exact only
  · exact fun row member delivering => only row (delivering_of_commit member delivering) delivering

/-! A group does not touch the deliveries that wait. -/

def SameSuccesses (world later : World EventId) : Prop := later.successes = world.successes

instance : Std.Refl (@SameSuccesses EventId _) := ⟨fun _ => rfl⟩

instance : IsTrans (World EventId) SameSuccesses :=
  ⟨fun _ _ _ first second => Eq.trans second first⟩

theorem answer_same :
    Safe SameSuccesses (fun _ => True) (answer : Worker EventId _) (fun _ _ => True) := by
  refine fun world _ => ⟨?_, fun _ _ => trivial⟩
  unfold answer
  split <;> rfl

theorem applyAll_same (transitions : List (Transition EventId)) :
    Safe SameSuccesses (fun _ => True) (applyAll transitions) (fun _ _ => True) := by
  induction transitions with
  | nil => exact .pure fun _ _ => trivial
  | cons transition rest ih =>
    have first :
        Safe SameSuccesses (fun _ => True) (applyTransition transition) (fun _ _ => True) := by
      refine fun world _ => ⟨?_, fun _ _ => trivial⟩
      rcases applyTransition_cases transition world with ⟨_, applied⟩ | ⟨result, _, unchanged⟩
      · rw [applied]
        rfl
      · rw [unchanged]
        rfl
    exact first.bind fun _ => ih.bind fun _ => .pure fun _ _ => trivial

theorem transitionGroup_same (limit : Nat) (transitions : List (Transition EventId)) :
    Safe SameSuccesses (fun _ => True) (transitionGroup limit transitions) (fun _ _ => True) := by
  refine .bind_ofExcept fun _ _ => storageCall_safe answer_same (.bind_fetch fun known => ?_)
  split
  · exact (applyAll_same transitions).weaken (fun _ _ => trivial) fun _ _ _ => trivial
  · exact .fail

theorem flushSuccesses_empties :
    Ends (fun _ => True) (flushSuccesses : Worker EventId Unit)
    (fun _ world => world.successes = []) := by
  refine .bind_fetch fun successes => ?_
  split
  · next isEmpty =>
    refine .pure ?_
    rintro world ⟨_, rfl⟩
    exact isEmpty_iff.mp isEmpty
  · have emptied : Ends (fun world : World EventId => True ∧ world.successes = successes)
        (change fun world => { world with successes := [] })
          (fun _ world => True ∧ world.successes = []) :=
      Safe.change fun _ _ => ⟨trivial, trivial, rfl⟩
    have group : Ends (fun world : World EventId => True ∧ world.successes = [])
        (transitionGroup maxOutboxSuccessGroupEntries successes)
          (fun _ world => True ∧ world.successes = []) :=
      fun world both => ⟨trivial, (((transitionGroup_same _ successes).keep fun same isNil =>
        Eq.trans same isNil) world both).2⟩
    refine emptied.bind fun _ => group.bind fun results => ?_
    split
    · exact .pure fun _ both => both.2
    · exact .fail

/-- A flush after an error; how it ends does not matter then. -/
theorem flushSuccesses_safe {maxAttempts : NonZeroU32} :
    Safe (Evolves maxAttempts) (Valid maxAttempts) (flushSuccesses : Worker EventId Unit)
    (fun _ _ => True) :=
  fun world valid => ⟨(flushSuccesses_keeps _ world ⟨valid, trivial, .all world⟩).1,
    fun _ _ => trivial⟩

/-- A valid world with no event in delivery. -/
def Resting (maxAttempts : NonZeroU32) (world : World EventId) : Prop :=
  Holding maxAttempts (fun _ => True) [] world ∧ Settled world

/-- A dispatch that ends well has recorded everything that it claimed. -/
theorem dispatchOnce_ends (sizes : RowSizes EventId) :
    Safe (Evolves setup.policy.maxAttempts) (Resting setup.policy.maxAttempts)
    (dispatchOnce setup sizes) (fun _ => Settled) := by
  have asked :
    Safe (Evolves setup.policy.maxAttempts) (@Resting EventId _ setup.policy.maxAttempts) answer
      (fun _ => Resting setup.policy.maxAttempts) := (answer_keeps _).also (answer_only _)
  have emptied :
    Safe (Evolves setup.policy.maxAttempts) (@Resting EventId _ setup.policy.maxAttempts)
      (change fun world => { world with successes := [] } : Worker EventId Unit)
      (fun _ => Holding setup.policy.maxAttempts (fun _ => True) []) := by
    refine .change ?_
    rintro world ⟨⟨valid, _⟩, settled⟩
    exact ⟨fun _ => ⟨valid.emptied, suffix_refl _⟩, valid.emptied, trivial,
      fun row member delivering =>
      (settled row member delivering).elim⟩
  refine (storageCall_safe asked (.bind_fetch fun read => .ofExcept fun _ _ _ both => both.1)).bind
    fun scan => emptied.bind fun _ => ?_
  have loop :
    Steady setup.policy.maxAttempts [] (onError (dispatchItems setup scan.1 0) fun error =>
        if keepsSuccesses error then do
          flushSuccesses
          fail error
        else fail error) := by
    refine .onError (dispatchItems_keeps scan.1 0)
      (fun world later holding moved => (moved holding.valid).1) fun error => ?_
    split
    · exact flushSuccesses_safe.bind fun _ => .fail
    · exact .fail
  refine .bind loop fun _ => .bind (((flushSuccesses_keeps []).also flushSuccesses_empties).weaken
    (fun _ holding => ⟨holding, trivial⟩) fun _ _ both => both) fun _ => ?_
  refine .change ?_
  rintro world ⟨holding, isNil⟩
  refine ⟨(moveScan_keeps scan.2 world holding).1, fun row member delivering => ?_⟩
  have accounted := holding.isOpen row member delivering
  rw [isNil] at accounted
  simp at accounted

section Recovery

variable {sizes : RowSizes EventId} {request : UndeliveredOutboxStatusScanRequestV1 EventId}

variable {upper : EventId}

/-- The loop takes the undelivered rows of the events that it looks at; it leaves the others when
the page is full or they lie beyond the fence. -/
theorem collect_covers {view : OutboxStore EventId} {wanted : Nat} {events : List EventId}
    {items out : List (OutboxRow EventId)} {bytes : Nat} {cut : Bool}
    (collected : collect sizes view upper wanted events items bytes = .ok (out, cut))
    (sorted : events.Pairwise (· < ·)) :
    ∃ seen rest, events = seen ++ rest ∧ items ⊆ out ∧ (∀ row ∈ out, row ∈ items ∨ row.1 ∈ seen) ∧
      (∀ row ∈ view.rows, isUndelivered row.2 = true → row.1 ∈ seen → row ∈ out) ∧
      (cut = false → ∀ event ∈ rest, upper < event) := by
  induction events generalizing items bytes with
  | nil =>
    cases collected
    exact ⟨[], [], rfl, Subset.refl _, fun _ => Or.inl, by simp, by simp⟩
  | cons event rest ih =>
    obtain ⟨before, later⟩ := pairwise_cons.mp sorted
    rw [collect] at collected
    split at collected
    · next beyond =>
      cases collected
      refine ⟨[], event :: rest, rfl, Subset.refl _, fun _ => Or.inl, by simp, fun _ => ?_⟩
      exact forall_mem_cons.mpr ⟨beyond, fun other member => lt_trans beyond (before other member)⟩
    · obtain ⟨status, found, collected⟩ := bind_eq_ok.mp collected
      have stored := OutboxStore.status_eq_some.mp (okOr_eq_ok.mp found)
      split at collected
      · next delivered =>
        obtain ⟨seen, unseen, rfl, kept, within, covers, ends⟩ := ih collected later
        refine ⟨event :: seen, unseen, rfl, kept, fun row member =>
          (within row member).imp_right (mem_cons_of_mem _), ?_, ends⟩
        intro row member undelivered listed
        rcases mem_cons.mp listed with same | listed
        · rw [row_unique member stored same, delivered] at undelivered
          cases undelivered
        · exact covers row member undelivered listed
      · dsimp only at collected
        split at collected
        · obtain ⟨_, _, isOut⟩ := bind_eq_ok.mp collected
          cases isOut
          exact ⟨[], event :: rest, rfl, Subset.refl _, fun _ => Or.inl, by simp, by simp⟩
        · obtain ⟨seen, unseen, rfl, kept, within, covers, ends⟩ := ih collected later
          obtain ⟨keptItems, keptRow⟩ := append_subset.mp kept
          refine ⟨event :: seen, unseen, rfl, keptItems, fun row member => ?_, ?_, ends⟩
          · rcases within row member with inItems | listed
            · refine (mem_append.mp inItems).imp_right fun isEvent => ?_
              rw [mem_singleton.mp isEvent]
              exact mem_cons_self
            · exact Or.inr (mem_cons_of_mem _ listed)
          · intro row member undelivered listed
            rcases mem_cons.mp listed with same | listed
            · rw [row_unique member stored same]
              exact keptRow mem_cons_self
            · exact covers row member undelivered listed

variable {scan : UndeliveredOutboxStatusScanV1 EventId} {items : List (OutboxRow EventId)}

theorem scanPage_eq_ok (scanned : scanPage sizes request upper items = .ok scan) :
    ∃ last, items.getLast? = some last ∧ scan.items = items ∧
      scan.continuation = some ⟨last.1, upper⟩ := by
  simp only [scanPage, bind_eq_ok, okOr_eq_ok, require_eq_ok] at scanned
  obtain ⟨_, _, last, isLast, _, _, isScan⟩ := scanned
  cases isScan
  exact ⟨last, isLast, rfl, rfl⟩

theorem scanExactEnd_eq_ok (scanned : scanExactEnd sizes request upper items = .ok scan) :
    scan.items = items := by
  simp only [scanExactEnd, bind_eq_ok] at scanned
  obtain ⟨_, _, isScan⟩ := scanned
  cases isScan
  rfl

/-- What a page read that succeeds leaves out lies behind its continuation. -/
theorem scan_covers {view atFence atPage : OutboxStore EventId}
    (scanned : scanUndeliveredOutboxStatuses sizes view atFence atPage request = .ok scan)
    (inFence : ∀ row ∈ view.rows, row ∈ atFence.rows)
    (inPage : ∀ row ∈ view.rows, row ∈ atPage.rows)
    {row : OutboxRow EventId} (member : row ∈ view.rows) (undelivered : isUndelivered row.2 = true)
    (starts : startsAfter request.after row.1 = true)
    (below : request.inclusiveUpper.all (row.1 ≤ ·) = true) :
    row ∈ scan.items ∨ ∃ continuation, scan.continuation = some continuation ∧
      continuation.after < row.1 ∧ row.1 ≤ continuation.inclusiveUpper := by
  unfold scanUndeliveredOutboxStatuses at scanned
  split at scanned
  · next noFence =>
    have nothing : atFence.lastIntent = none := (Option.or_eq_none_iff.mp noFence).2
    have isEmpty : atFence.rows = [] :=
      List.getLast?_eq_none_iff.mp (Option.map_eq_none_iff.mp nothing)
    have inRows := inFence row member
    rw [isEmpty] at inRows
    exact absurd inRows not_mem_nil
  · next upper isUpper =>
    have fenced : row.1 ≤ upper := by
      cases given : request.inclusiveUpper with
      | none =>
        rw [given, Option.none_or] at isUpper
        exact (le_lastIntent isUpper).2 row (inFence row member)
      | some value =>
        rw [given, Option.some_or, Option.some.injEq] at isUpper
        rw [given, isUpper] at below
        exact of_decide_eq_true below
    obtain ⟨_, _, scanned⟩ := bind_eq_ok.mp scanned
    obtain ⟨⟨items, cut⟩, collected, scanned⟩ := bind_eq_ok.mp scanned
    obtain ⟨isSource, hasMore⟩ := page_eq atPage request.after (request.limit.get + 1)
    set listing := (ahead request.after atPage.rows).map Prod.fst with isListing
    have sorted : listing.Pairwise (· < ·) := pairwise_map.mpr (increasing_ahead atPage.increasing)
    rw [isSource] at collected
    obtain ⟨seen, rest, split, _, within, covers, ends⟩ :=
      collect_covers collected (sorted.sublist (take_sublist _ listing))
    have whole : seen ++ (rest ++ listing.drop (request.limit.get + 1)) = listing := by
      rw [← append_assoc, ← split, take_append_drop]
    have listed : row.1 ∈ listing :=
      mem_map_of_mem (mem_ahead.mpr ⟨inPage row member, undelivered, starts⟩)
    rw [← whole, mem_append] at listed
    rw [← whole] at sorted
    split at scanned
    · obtain ⟨last, isLast, isItems, isContinuation⟩ := scanPage_eq_ok (mapError_eq_ok.mp scanned)
      have inSeen := (within last (mem_of_getLast? isLast)).resolve_left not_mem_nil
      rw [isItems]
      exact listed.imp (covers row member undelivered) fun behind =>
        ⟨_, isContinuation, (pairwise_append.mp sorted).2.2 last.1 inSeen row.1 behind, fenced⟩
    · next complete =>
      left
      rw [scanExactEnd_eq_ok (mapError_eq_ok.mp scanned)]
      refine listed.elim (covers row member undelivered) fun behind => ?_
      rw [Bool.not_eq_true, Bool.or_eq_false_iff, ← Bool.not_eq_true, hasMore] at complete
      -- the index had no more than the page looked at
      have short : listing.drop (request.limit.get + 1) = [] := by
        rw [drop_eq_nil_iff, isListing, length_map]
        exact Nat.le_of_not_lt complete.1
      rw [short, append_nil] at behind
      exact absurd (ends complete.2 row.1 behind) (not_lt.mpr fenced)

variable {status : OutboxStatusObservationV1}

theorem isUndelivered_of_isDelivering
    (delivering : isDelivering status = true) : isUndelivered status = true := by
  rcases status with _ | (_ | _ | _ | _)
  all_goals first | rfl | cases delivering

theorem delivering_of_isDelivering (delivering : isDelivering status = true) :
    ∃ attempt destinationId startedAt leaseDeadline,
      status = some (.delivering attempt destinationId startedAt leaseDeadline) := by
  rcases status with _ | (_ | _ | _ | _)
  case some.delivering => exact ⟨_, _, _, _, rfl⟩
  all_goals cases delivering

/-- The rows that a page read is to find. -/
def ToFind (request : UndeliveredOutboxStatusScanRequestV1 EventId)
    (row : OutboxRow EventId) : Prop :=
  startsAfter request.after row.1 = true ∧ request.inclusiveUpper.all (row.1 ≤ ·) = true

/-- The rows that a page has, or leaves for the pages after it. -/
def Listed (scan : UndeliveredOutboxStatusScanV1 EventId) (row : OutboxRow EventId) : Prop :=
  row ∈ scan.items ∨ ∃ continuation, scan.continuation = some continuation ∧
    continuation.after < row.1 ∧ row.1 ≤ continuation.inclusiveUpper

/-- The view of a page read: all rows in delivery are in it, and its rows stay. -/
def Seen (request : UndeliveredOutboxStatusScanRequestV1 EventId) (view : OutboxStore EventId)
    (world : World EventId) : Prop :=
  DeliveringOnly (fun row => row ∈ view.rows ∧ ToFind request row) world ∧
    ∀ row ∈ view.rows, row ∈ world.store.rows

theorem answer_seen (view : OutboxStore EventId) :
    Ends (Seen request view) answer (fun _ => Seen request view) := by
  rintro world ⟨only, kept⟩
  refine ⟨trivial, fun given isGiven => ⟨((answer_only _ world only).2 given isGiven), ?_⟩⟩
  unfold answer at isGiven ⊢
  split
  · exact kept
  · exact fun row member => mem_commit_of_mem (kept row member) _

theorem readPage_ends :
    Ends (DeliveringOnly (ToFind request)) (readPage sizes request)
    (fun scan => DeliveringOnly (Listed scan)) := by
  refine (answer_only _).bind fun admission => ?_
  split
  · exact .fail
  · have viewing : Ends (DeliveringOnly (ToFind request)) (storageCall (fetch World.store))
        (fun view => Seen request view) := by
      refine storageCall_safe (answer_only _) fun world only => ⟨trivial, ?_⟩
      rintro _ ⟨⟩
      exact ⟨fun row member delivering => ⟨member, only row member delivering⟩,
        fun row member => member⟩
    refine viewing.bind fun view => (answer_seen view).bind fun _ => .bind_fetch fun atFence => ?_
    have asked :
      Ends (fun world : World EventId => Seen request view world ∧ world.store = atFence) answer
        (fun _ world => Seen request view world ∧ ∀ row ∈ view.rows, row ∈ atFence.rows) := by
      rintro world ⟨seen, rfl⟩
      exact ⟨trivial, fun given isGiven => ⟨(answer_seen view world seen).2 given isGiven, seen.2⟩⟩
    refine asked.bind fun _ => .bind_fetch fun atPage => .ofExcept ?_
    rintro scan scanned world ⟨⟨⟨only, inPage⟩, inFence⟩, rfl⟩ row member delivering
    obtain ⟨inView, starts, below⟩ := only row member delivering
    exact scan_covers (mapError_eq_ok.mp scanned) inFence inPage inView
      (isUndelivered_of_isDelivering delivering) starts below

section

variable (kind : OutboxRow EventId → Prop)

theorem clockNow_only : Ends (DeliveringOnly kind) clockNow (fun _ => DeliveringOnly kind) :=
  (answer_only kind).bind fun _ => .ofExcept fun _ _ _ only => only

theorem stopAt_only (failpoint : OutboxFailpoint) :
    Ends (DeliveringOnly kind) (stopAt failpoint) (fun _ => DeliveringOnly kind) := by
  refine (answer_only kind).bind fun given => ?_
  split
  · exact .fail
  · exact .pure fun _ only => only

/-- A recorded transition takes its event out of delivery. -/
theorem complete_only (phase : OutboxTransitionPhase) (event : EventId)
    (expected : OutboxStatusObservationV1)
    {updated : OutboxDeliveryStateV1} (settled : isDelivering (some updated) = false) :
      Ends (DeliveringOnly kind) (complete phase ⟨event, expected, updated⟩)
      (fun _ => DeliveringOnly fun row => kind row ∧ row.1 ≠ event) := by
  have writes : Ends (DeliveringOnly kind) (applyTransition ⟨event, expected, updated⟩)
      (fun result world => (∃ state, result = .applied state) →
        DeliveringOnly (fun row => kind row ∧ row.1 ≠ event) world) := by
    refine fun world only => ⟨trivial, ?_⟩
    rcases applyTransition_cases ⟨event, expected, updated⟩ world with ⟨_, applied⟩ |
      ⟨result, notApplied, unchanged⟩
    · rw [applied]
      rintro _ ⟨⟩ _ row member delivering
      rcases mem_setStatus member with rfl | ⟨apart, member⟩
      · rw [settled] at delivering
        cases delivering
      · exact ⟨only row member delivering, apart⟩
    · rw [unchanged]
      rintro _ ⟨⟩ ⟨state, isApplied⟩
      exact absurd isApplied (notApplied state)
  refine (storageCall_safe (answer_only kind) writes).bind fun result => ?_
  cases result with
  | applied state => exact .pure fun _ only => only ⟨state, rfl⟩
  | stateChanged observed => exact .fail
  | authoritativeIntentMissing => exact .fail

theorem recoverItem_ends (item : OutboxRow EventId) :
    Ends (DeliveringOnly fun row => row = item ∨ kind row)
    (recoverItem (recoveryCalls setup sizes) item) (fun _ => DeliveringOnly kind) := by
  unfold recoverItem
  split
  · refine (stopAt_only _ _).bind fun _ => Safe.bind ((clockNow_only _).bind fun now =>
      .ofExcept fun _ _ _ only => only) fun nextAttemptAt => .bind_ofExcept ?_
    rintro updated ⟨⟩
    refine (complete_only _ .recovery item.1 _ rfl).bind fun _ => ?_
    refine (stopAt_only kind _).weaken (fun world only => only.mono ?_) fun _ _ only => only
    rintro row _ ⟨rfl | isKind, apart⟩
    · exact absurd rfl apart
    · exact isKind
  · next idle =>
    refine .pure fun world only => only.mono ?_
    rintro row delivering (rfl | isKind)
    · obtain ⟨attempt, destinationId, startedAt, leaseDeadline, isRow⟩ :=
        delivering_of_isDelivering delivering
      exact absurd isRow (idle attempt destinationId startedAt leaseDeadline)
    · exact isKind

theorem recoverItems_ends (items : List (OutboxRow EventId)) :
    Ends (DeliveringOnly fun row => row ∈ items ∨ kind row)
    (recoverItems (recoveryCalls setup sizes) items) (fun _ => DeliveringOnly kind) := by
  induction items with
  | nil => exact .pure fun world only => only.mono fun row _ isKind =>
      isKind.resolve_left not_mem_nil
  | cons item items ih =>
    refine .bind ((recoverItem_ends (fun row => row ∈ items ∨ kind row) item).weaken
      (fun world only => only.mono fun row _ isKind => ?_) fun _ _ only => only) fun _ => ih
    rw [mem_cons, or_assoc] at isKind
    exact isKind

end

theorem recoverPage_ends (request : UndeliveredOutboxStatusScanRequestV1 EventId) :
    Ends (DeliveringOnly (ToFind request)) (recoverPage (recoveryCalls setup sizes) request)
      (fun continuation => DeliveringOnly fun row => ∃ found, continuation = some found ∧
        found.after < row.1 ∧ row.1 ≤ found.inclusiveUpper) :=
  readPage_ends.bind fun scan => (recoverItems_ends _ scan.items).bind fun _ =>
    .pure fun _ only => only

theorem recoverPages_ends (pages : Nat) (request : UndeliveredOutboxStatusScanRequestV1 EventId) :
    Ends (DeliveringOnly (ToFind request))
      (recoverPages (recoveryCalls setup sizes) setup.policy.scanLimit pages request)
        (fun _ => Settled) := by
  induction pages generalizing request with
  | zero => exact .fail
  | succ pages ih =>
    refine (recoverPage_ends request).bind fun continuation => ?_
    cases continuation with
    | none =>
      refine (stopAt_only _ _).weaken (fun world only => only.mono ?_) fun _ _ only => only
      rintro row _ ⟨_, ⟨⟩, _⟩
    | some continuation =>
      refine (ih _).weaken (fun world only => only.mono ?_) fun _ _ settled => settled
      rintro row _ ⟨_, ⟨⟩, behind, below⟩
      exact ⟨decide_eq_true behind, decide_eq_true below⟩

/-- Recovery that ends well leaves no event in delivery. -/
theorem recover_ends : Ends (fun _ => True) (OutboxWorker.recover setup sizes : Worker EventId Unit)
    (fun _ => Settled) :=
  fun world _ => recoverPages_ends _ (initialRequest EventId setup.policy.scanLimit) world
    fun _ _ _ => ⟨rfl, rfl⟩

end Recovery

section System

variable (setup) (sizes : RowSizes EventId)

/-- The worker is ready to dispatch between a recovery that ended well and an error. -/
structure System (EventId : Type) [LinearOrder EventId] where
  world : World EventId
  ready : Bool

/-- Events are committed, the process is started again, and the worker recovers or dispatches with
what the environment answers to it. -/
inductive Action (EventId : Type) where
  | commit (events : List EventId)
  | restart
  | recover (answers : List (Answer EventId))
  | dispatch (answers : List (Answer EventId))

def afterwards (ran : Except OutboxWorkerError Unit × World EventId) : System EventId :=
  ⟨ran.2, ran.1 matches .ok _⟩

def step (system : System EventId) : Action EventId → System EventId
  | .commit events =>
    { system with world := { system.world with store := system.world.store.commit events } }
  | .restart => { system with ready := false }
  | .recover answers =>
    if system.ready then system
    else afterwards (OutboxWorker.recover setup sizes
      { system.world with answers := answers, scanAfter := none })
  | .dispatch answers =>
    if system.ready then afterwards
      (dispatchOnce setup sizes { system.world with answers := answers })
    else system

def start : System EventId := ⟨⟨⟨[], List.Pairwise.nil⟩, [], [], none, []⟩, false⟩

/-- The effects keep to the protocol, and a worker that is ready has nothing in delivery. -/
structure Sound (system : System EventId) : Prop where
  valid : Valid setup.policy.maxAttempts system.world
  settled : system.ready = true → Settled system.world

variable {setup} {sizes}

theorem sound_start : Sound setup (start : System EventId) :=
  ⟨⟨trivial, fun _ => rfl, fun _ never => absurd never not_mem_nil,
    fun _ never => absurd never not_mem_nil⟩, fun never => by cases never⟩

theorem sound_afterwards {code : Worker EventId Unit} {world : World EventId}
    (evolves : Evolves setup.policy.maxAttempts world (code world).2)
    (settled : ∀ value, (code world).1 = .ok value → Settled (code world).2)
    (valid : Valid setup.policy.maxAttempts world) :
    Sound setup (afterwards (code world)) ∧ world.log <:+ (afterwards (code world)).world.log := by
  obtain ⟨validLater, grown⟩ := evolves valid
  refine ⟨⟨validLater, fun isReady => ?_⟩, grown⟩
  unfold afterwards at isReady ⊢
  rcases ran : code world with ⟨result, later⟩
  rw [ran] at isReady settled
  cases result with
  | error error => cases isReady
  | ok value => exact settled value rfl

variable {system : System EventId}

theorem sound_step (sound : Sound setup system) (action : Action EventId) :
    Sound setup (step setup sizes system action) ∧
      system.world.log <:+ (step setup sizes system action).world.log := by
  have rewound : ∀ answers position,
      Valid setup.policy.maxAttempts
        { system.world with answers := answers, scanAfter := position } :=
    fun _ _ => ⟨sound.valid.lawful, sound.valid.tracked, sound.valid.accepted,
      sound.valid.recording⟩
  cases action with
  | commit events =>
    refine ⟨⟨sound.valid.commit events _, fun isReady row member delivering => ?_⟩, suffix_refl _⟩
    exact sound.settled isReady row (delivering_of_commit member delivering) delivering
  | restart => exact ⟨⟨sound.valid, fun never => by cases never⟩, suffix_refl _⟩
  | recover answers =>
    rw [step]
    split
    · exact ⟨sound, suffix_refl _⟩
    · have valid := rewound answers none
      exact sound_afterwards (recover_keeps sizes _ ⟨valid, trivial, .all _⟩).1
        (recover_ends _ trivial).2 valid
  | dispatch answers =>
    rw [step]
    split
    · next isReady =>
      have valid := rewound answers system.world.scanAfter
      have settled := sound.settled isReady
      have dispatched := dispatchOnce_ends sizes { system.world with answers := answers }
        ⟨⟨valid, trivial, fun row member delivering => (settled row member delivering).elim⟩,
          settled⟩
      exact sound_afterwards dispatched.1 dispatched.2 valid
    · exact ⟨sound, suffix_refl _⟩

theorem sound_run (sound : Sound setup system) (actions : List (Action EventId)) :
    Sound setup (Runs.run (step setup sizes) system actions) ∧
      system.world.log <:+ (Runs.run (step setup sizes) system actions).world.log := by
  induction actions generalizing system with
  | nil => exact ⟨sound, suffix_refl _⟩
  | cons action actions ih =>
    obtain ⟨soundNext, grown⟩ := @sound_step _ _ setup sizes system sound action
    obtain ⟨soundLater, grownLater⟩ := ih soundNext
    exact ⟨soundLater, grown.trans grownLater⟩

variable {status : OutboxStatusObservationV1}

section

variable (sound : Sound setup system) {event : EventId}
  (stored : system.world.store.status event = some status)

include sound stored

theorem Sound.current_eq : current system.world.log event = status := by
  rw [sound.valid.tracked, stored]
  rfl

/-- A terminal status stays. -/
theorem Sound.terminal_forever
    (terminal : isTerminal status = true) (actions : List (Action EventId)) :
    (Runs.run (step setup sizes) system actions).world.store.status event = some status := by
  obtain ⟨later, added, isLog⟩ := @sound_run _ _ setup sizes system sound actions
  have before := sound.current_eq stored
  have lawful := later.valid.lawful
  rw [← isLog] at lawful
  have kept := lawful.terminal_forever (by rw [before]; exact terminal)
  rw [isLog, later.valid.tracked, before] at kept
  cases status with
  | none => cases terminal
  | some state =>
    cases found : (Runs.run (step setup sizes) system actions).world.store.status event with
    | none =>
      rw [found] at kept
      cases kept
    | some observed =>
      rw [found] at kept
      exact congrArg some kept

end

/-- When the worker's test for a claim passes. -/
def isClaimable (policy : DeliveryPolicy) (status : OutboxStatusObservationV1)
    (now : Timestamp) : Bool :=
  isEligible status now && policy.permitsAttemptAfter (attempts status)

/-- A pending event is eligible from its next attempt on. -/
theorem eligible_of_pending (pending : isPending status = true) :
    ∃ nextAttemptAt : Option Timestamp, ∀ now, nextAttemptAt.all (· ≤ now) = true →
      isEligible status now = true := by
  rcases status with _ | (metadata | _ | _ | _)
  · exact ⟨none, fun _ _ => rfl⟩
  · exact ⟨metadata.nextAttemptAt, fun _ reached => reached⟩
  all_goals cases pending

theorem pending_of_settled (running : isTerminal status = false)
    (settled : isDelivering status = false) : isPending status = true := by
  rcases status with _ | (_ | _ | _ | _)
  · rfl
  · rfl
  · cases settled
  · cases running
  · cases running

/-- A claim of an event with an attempt left can be written, and a dead letter of one without. -/
theorem transition_of_pending (policy : DeliveryPolicy) (pending : isPending status = true) :
    (policy.permitsAttemptAfter (attempts status) = true → ∀ startedAt leaseDeadline,
      ∃ attempt : NonZeroU32,
      attempt.get.toNat = (attempts status).toNat + 1 ∧
      claim status policy.destinationId startedAt leaseDeadline =
        .ok (.delivering attempt policy.destinationId startedAt leaseDeadline)) ∧
    ∀ failedAt safeError, ∃ destinationId,
      deadLetter status (if status.isNone then some policy.destinationId else none)
        failedAt safeError =
        .ok (.deadLetter (attempts status) destinationId failedAt safeError) := by
  constructor
  · intro permitted startedAt leaseDeadline
    have room := of_decide_eq_true permitted
    have few := policy.attemptsLimited
    have fits : (attempts status).toNat + 1 < 2 ^ 32 := by
      rw [maxOutboxDeliveryAttempts] at few
      omega
    have counted : (attempts status + 1).toNat = (attempts status).toNat + 1 := by
      rw [UInt32.toNat_add]
      exact Nat.mod_eq_of_lt fits
    have nonzero : attempts status + 1 ≠ 0 := by
      intro isZero
      rw [isZero] at counted
      exact Nat.succ_ne_zero _ counted.symm
    refine ⟨⟨attempts status + 1, nonzero⟩, counted, ?_⟩
    simp only [claim, require_pos pending, require_pos fits, NonZeroU32.new, dif_pos nonzero,
      okOr_some, ok_bind]
  · intro failedAt safeError
    rcases status with _ | (metadata | _ | _ | _)
    · exact ⟨policy.destinationId, rfl⟩
    · exact ⟨metadata.destinationId, rfl⟩
    all_goals cases pending

/-- Delivery is at least once and nothing is lost, over every run of the worker: the connector is
called for durable claims only, an event becomes delivered after an acceptance of its current claim
and dead-lettered after a permanent failure or its last attempt, no event leaves these states,
every claim counts one attempt up to the maximum of the policy, and whenever the worker is ready,
any other event is pending: from its next attempt on it can be claimed, or dead-lettered when its
attempts are used up. -/
theorem delivery_guarantees (setup : Setup) (sizes : RowSizes EventId)
    (actions more : List (Action EventId)) : let system := Runs.run (step setup sizes) start actions
    let later := Runs.run (step setup sizes) system more
    let log := system.world.log
    let maxAttempts := setup.policy.maxAttempts.get.toNat
    (∀ newer older event attempt, log = newer ++ .called event attempt :: older →
      ∃ entry ∈ older, IsClaim attempt event entry) ∧
    (∀ newer older event before attempt destinationId deliveredAt,
      log = newer ++ .wrote event before (.delivered attempt destinationId deliveredAt) :: older →
      ∃ between past, older = between ++ .answered event attempt .accepted ::
      .called event attempt :: past ∧ (∃ entry ∈ past, IsClaim attempt event entry) ∧
        ∀ entry ∈ between, ∀ other, ¬ IsClaim other event entry) ∧
    (∀ newer older event before count destinationId failedAt safeError,
      log = newer ++ .wrote event before
      (.deadLetter count destinationId failedAt safeError) :: older →
      (∃ attempt reason, isDelivering before = true ∧ attempts before = attempt.get ∧
        .answered event attempt (.permanentFailure reason) ∈ older) ∨ maxAttempts ≤ count.toNat) ∧
    (∀ newer older event attempt entry, log = newer ++ entry :: older →
      IsClaim attempt event entry →
      attempt.get.toNat = (attempts (current older event)).toNat + 1 ∧
      attempt.get.toNat ≤ maxAttempts) ∧
    (∀ event status, system.world.store.status event = some status →
      current log event = status ∧ (attempts status).toNat ≤ maxAttempts ∧
      (isTerminal status = true → later.world.store.status event = some status) ∧
      (isTerminal status = false → system.ready = true →
        ∃ nextAttemptAt : Option Timestamp, ∀ now, nextAttemptAt.all (· ≤ now) = true →
          isEligible status now = true ∧
          ((isClaimable setup.policy status now = true ∧ ∀ startedAt leaseDeadline,
          ∃ attempt : NonZeroU32, attempt.get.toNat = (attempts status).toNat + 1 ∧
              claim status setup.policy.destinationId startedAt leaseDeadline =
                .ok (.delivering attempt setup.policy.destinationId startedAt leaseDeadline)) ∨
            maxAttempts ≤ (attempts status).toNat ∧ ∀ failedAt safeError, ∃ destinationId,
              deadLetter status (if status.isNone then some setup.policy.destinationId else none)
                failedAt safeError = .ok (.deadLetter (attempts status) destinationId failedAt
                safeError)))) := by
  intro system later log maxAttempts
  have sound : Sound setup system := (sound_run sound_start actions).1
  have lawful : Lawful setup.policy.maxAttempts log := sound.valid.lawful
  refine ⟨?_, ?_, ?_, ?_, ?_⟩
  · intro newer older event attempt isLog
    exact (isLog ▸ lawful).law_of_append
  · intro newer older event before attempt destinationId deliveredAt isLog
    exact (isLog ▸ lawful).of_append.delivered_after_acceptance
  · intro newer older event before count destinationId failedAt safeError isLog
    exact (isLog ▸ lawful).law_of_append.2.of_deadLetter
  · intro newer older event attempt entry isLog claims
    exact (isLog ▸ lawful).of_append.claim_next claims
  · intro event status stored
    have isCurrent := sound.current_eq stored
    refine ⟨isCurrent, ?_, fun terminal => sound.terminal_forever stored terminal more, ?_⟩
    · have bounded := lawful.attempts_le event
      rw [isCurrent] at bounded
      exact bounded
    · intro running isReady
      have settled : isDelivering status = false := by
        rw [← Bool.not_eq_true]
        exact fun delivering => sound.settled isReady (event, status)
          (OutboxStore.status_eq_some.mp stored) delivering
      have pending := pending_of_settled running settled
      obtain ⟨nextAttemptAt, eligible⟩ := eligible_of_pending pending
      obtain ⟨claims, rejects⟩ := transition_of_pending setup.policy pending
      refine ⟨nextAttemptAt, fun now reached => ⟨eligible now reached, ?_⟩⟩
      cases permitted : setup.policy.permitsAttemptAfter (attempts status) with
      | true =>
        refine Or.inl ⟨?_, claims permitted⟩
        rw [isClaimable, eligible now reached, permitted]
        rfl
      | false =>
        refine Or.inr ⟨?_, rejects⟩
        simpa [DeliveryPolicy.permitsAttemptAfter] using permitted

end System

end Settling

theorem one_le_hour : (NonZeroU32.lit 1).get.toNat ≤ maxOutboxDeliveryTimeoutSeconds := by decide

theorem one_le_day : (NonZeroU32.lit 1).get.toNat ≤ maxOutboxPolicyDelaySeconds := by decide

theorem one_le_maxOutboxDeliveryAttempts :
    (NonZeroU32.lit 1).get.toNat ≤ maxOutboxDeliveryAttempts := by decide

theorem no_delays (delay : NonZeroU32) (never : delay ∈ []) :
    delay.get.toNat ≤ maxOutboxPolicyDelaySeconds :=
  absurd never not_mem_nil

theorem no_delays_scheduled : ([] : List NonZeroU32).length + 1 = (NonZeroU32.lit 1).get.toNat :=
  rfl

theorem lease_covers_timeout : (NonZeroU32.lit 1).get.toNat ≤ (NonZeroU32.lit 1).get.toNat := le_rfl

/-- A single attempt, and no groups. -/
def onlyOnce : Setup :=
  ⟨⟨"sink", NonZeroU32.lit 1, NonZeroU32.lit 1, NonZeroU32.lit 1, [], oneByOne,
    one_le_hour, one_le_day,
    one_le_maxOutboxDeliveryAttempts, no_delays, no_delays_scheduled, lease_covers_timeout⟩, false,
    false⟩

/-- The environment at its best. -/
def smooth : Answer Nat := ⟨[], .ok (instant 10), true, 16, .accepted, .served, false⟩

def recovered : List (Action Nat) := [.commit [1], .recover (List.replicate 5 smooth)]

/-- The process is lost after the claim of the only attempt. -/
def lostClaim : List (Action Nat) :=
  recovered ++ [.dispatch (List.replicate 4 smooth), .recover (List.replicate 9 smooth)]

def afterLoss : OutboxDeliveryStateV1 :=
  .pending ⟨NonZeroU32.lit 1, instant 10, none, "sink", some interruptedSafeError⟩

/-- The event is pending again, but without an attempt it is never claimable: it is dead-lettered
next. -/
theorem exhausted_never_claimable :
    (Runs.run (step onlyOnce smallRows) start lostClaim).ready = true ∧
    (Runs.run (step onlyOnce smallRows) start lostClaim).world.store.status 1 =
      some (some afterLoss) ∧
    ∀ (more : List (Action Nat)) (status : OutboxStatusObservationV1) (now : Timestamp),
      (Runs.run (step onlyOnce smallRows) start (lostClaim ++ more)).world.store.status 1
        = some status → isClaimable onlyOnce.policy status now = false := by
  have stored : (Runs.run (step onlyOnce smallRows) start lostClaim).world.store.status 1 =
      some (some afterLoss) := by decide +kernel
  refine ⟨by decide +kernel, stored, fun more status now storedLater => ?_⟩
  have sound : Sound onlyOnce (Runs.run (step onlyOnce smallRows) start lostClaim) :=
    (sound_run sound_start lostClaim).1
  obtain ⟨later, added, isLog⟩ := @sound_run _ _ onlyOnce smallRows _ sound more
  rw [Runs.run_append] at storedLater
  have lawful := later.valid.lawful
  rw [← isLog] at lawful
  have counted := lawful.attempts_mono 1
  rw [isLog, later.current_eq storedLater, sound.current_eq stored] at counted
  have used : 1 ≤ (attempts status).toNat := counted
  have refused : onlyOnce.policy.permitsAttemptAfter (attempts status) = false :=
    decide_eq_false (not_lt.mpr used)
  rw [isClaimable, refused, Bool.and_false]

/-- The event is claimed, the connector accepts it, and the delivery is recorded. -/
def completed : List (Action Nat) := recovered ++ [.dispatch (List.replicate 10 smooth)]

def afterDelivery : OutboxDeliveryStateV1 := .delivered (NonZeroU32.lit 1) "sink" (instant 10)

theorem delivery_guarantees_completed :
    (Runs.run (step onlyOnce smallRows) start completed).world.store.status 1 =
      some (some afterDelivery) ∧
    (Runs.run (step onlyOnce smallRows) (Runs.run (step onlyOnce smallRows) start completed)
      [.restart, .recover (List.replicate 5 smooth)]).world.store.status 1 =
      some (some afterDelivery) := by
  have stored : (Runs.run (step onlyOnce smallRows) start completed).world.store.status 1 =
      some (some afterDelivery) := by decide +kernel
  obtain ⟨_, _, _, _, statuses⟩ := delivery_guarantees onlyOnce smallRows completed
    [.restart, .recover (List.replicate 5 smooth)]
  exact ⟨stored, (statuses 1 _ stored).2.2.1 rfl⟩

end OutboxDelivery
