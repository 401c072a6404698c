import RiffDb.PrimaryLease
import RiffDb.SourceHolds

/-!
# Which follower a lease contact is credited to

Followers open replication streams against the primary and pull items from them; some of these steps
record a lease contact for a voter. The model keeps the follower that each request came from, to
compare a contact with the request being served.

A request in the follower or attachment phase names its own hold, and this is assumed of every
request. A tail request names none: the source credits every configured voter whose stored
acknowledgement equals the requested position.
-/

namespace SourceContact

open ByteWire CheckedCode ReplicationTypes ChangelogHistory SourceHolds List
open PrimaryLease Runs

/-- The fence a bootstrap manifest certifies. -/
structure BootstrapManifest where
  holdId : ReplicationSourceHoldIdV1
  lineage : ChangelogLineageV3
  tail : ChangelogHistoryPointV3

/-- The hold identity of a follower request is raw bytes; an attachment may fail to decode. -/
inductive ReplicationPhase where
  | tail
  | follower (holdId : ByteArrayOf 16)
  | attach (manifest : Option BootstrapManifest)
  | bootstrap
  | fenceEvidence

/-- Whatever identity a phase carries is the given follower's own. -/
def ReplicationPhase.Names (phase : ReplicationPhase) (caller : ReplicationSourceHoldIdV1) : Prop :=
  match phase with
  | .follower holdId => holdId = caller.asBytes
  | .attach (some manifest) => manifest.holdId = caller
  | _ => True

/-- A stream request together with the follower that makes it. -/
structure ReplicationRequest where
  caller : ReplicationSourceHoldIdV1
  lineage : ChangelogLineageV3
  after : ChangelogHistoryPointV3
  phase : ReplicationPhase
  named : phase.Names caller

/-- What the environment decides about one open: whether the coordinates, the stream capacity
and a published pin admit it, whether the frame cursor opens at the position, whether the
acknowledgement job is admitted, and the clock. -/
structure OpenEnvironment where
  admitted : Bool
  cursorOpens : Bool
  jobAdmitted : Bool
  now : Nat

/-- An open stream. Only published frames refresh a contact. -/
inductive ReplicationItemSource where
  | publishedFrames (caller : ReplicationSourceHoldIdV1)
      (voterHoldId : Option ReplicationSourceHoldIdV1)
  | fenceItems
  | bootstrapItems

/-- A contact the tracker recorded while serving a follower's request. -/
structure Contact where
  voter : ReplicationSourceHoldIdV1
  caller : ReplicationSourceHoldIdV1
deriving DecidableEq

structure Source where
  leaseTracker : Option PrimaryQuorumLeaseTracker
  control : SourceControl
  streams : List ReplicationItemSource
  contacts : List Contact

namespace Source

/-- `record_voter_contact` on behalf of a request; only a recorded contact is remembered. -/
def recordVoterContact (source : Source) (caller voter : ReplicationSourceHoldIdV1) (now : Nat) :
    Source :=
  match source.leaseTracker with
  | none => source
  | some tracker =>
    { source with
      leaseTracker := some (tracker.recordVoterContact voter now).2
      contacts := if (tracker.recordVoterContact voter now).1 then
          ⟨voter, caller⟩ :: source.contacts
        else source.contacts }

/-- A storage failure while probing counts as not acknowledged. -/
def alreadyAcknowledged (source : Source) (id : ReplicationSourceHoldIdV1)
    (lineage : ChangelogLineageV3) (after : ChangelogHistoryPointV3) : Bool :=
  match source.control.isReplicationFollowerAlreadyAcknowledgedV3 id lineage after with
  | .ok acknowledged => acknowledged
  | .error _ => false

def acknowledgeFollower (environment : OpenEnvironment) (caller id : ReplicationSourceHoldIdV1)
    (lineage : ChangelogLineageV3) (after : ChangelogHistoryPointV3) (source : Source) :
    Except Refusal Source :=
  if source.leaseTracker.isSome && source.alreadyAcknowledged id lineage after then
    .ok (source.recordVoterContact caller id environment.now)
  else do
    require (environment.jobAdmitted = true) .unavailable
    let rows ← source.control.acknowledgeFollower ⟨id, .followerAcknowledgement, lineage, after⟩
    .ok ({ source with control := { source.control with rows := rows } }.recordVoterContact caller
      id environment.now)

def attach (environment : OpenEnvironment) (caller : ReplicationSourceHoldIdV1)
    (manifest : BootstrapManifest) (after : ChangelogHistoryPointV3) (source : Source) :
    Except Refusal Source := do
  require (environment.jobAdmitted = true) .unavailable
  require (after = manifest.tail) .invalidPosition
  let rows ← source.control.attachBootstrap ⟨manifest.holdId, .bootstrap, manifest.lineage, after⟩
  .ok ({ source with control := { source.control with rows := rows } }.recordVoterContact caller
    manifest.holdId environment.now)

/-- The voter loop of a tail open: contacts are recorded for every match, and the stream keeps
the first. -/
def creditVoters (caller : ReplicationSourceHoldIdV1) (lineage : ChangelogLineageV3)
    (after : ChangelogHistoryPointV3) (now : Nat) :
    List ReplicationSourceHoldIdV1 → Option ReplicationSourceHoldIdV1 → Source →
      Option ReplicationSourceHoldIdV1 × Source
  | [], voterHoldId, source => (voterHoldId, source)
  | voter :: voters, voterHoldId, source =>
    if source.alreadyAcknowledged voter lineage after then
      creditVoters caller lineage after now voters (voterHoldId.or (some voter))
        (source.recordVoterContact caller voter now)
    else creditVoters caller lineage after now voters voterHoldId source

def pushFrames (caller : ReplicationSourceHoldIdV1)
    (voterHoldId : Option ReplicationSourceHoldIdV1) (source : Source) : Source :=
  { source with streams := source.streams ++ [.publishedFrames caller voterHoldId] }

/-- `open`, after the request coordinates and the stream capacity were checked. -/
def openStream (environment : OpenEnvironment) (request : ReplicationRequest) (source : Source) :
    Except Refusal Source := do
  require (environment.admitted = true) .unavailable
  match request.phase with
  | .bootstrap => .ok { source with streams := source.streams ++ [.bootstrapItems] }
  | .fenceEvidence => do
    require (environment.cursorOpens = true) .invalidPosition
    .ok { source with streams := source.streams ++ [.fenceItems] }
  | .follower raw => do
    require (environment.cursorOpens = true) .invalidPosition
    let id ← okOr (ReplicationSourceHoldIdV1.new raw) .invalidPosition
    let source ← source.acknowledgeFollower environment request.caller id request.lineage
      request.after
    .ok (source.pushFrames request.caller (some id))
  | .attach manifest => do
    require (environment.cursorOpens = true) .invalidPosition
    let manifest ← okOr manifest .invalidPosition
    require (manifest.lineage = request.lineage ∧ manifest.tail = request.after) .invalidPosition
    let source ← source.attach environment request.caller manifest request.after
    .ok (source.pushFrames request.caller (some manifest.holdId))
  | .tail => do
    require (environment.cursorOpens = true) .invalidPosition
    match source.leaseTracker with
    | none => .ok (source.pushFrames request.caller none)
    | some tracker =>
      let credited := source.creditVoters request.caller request.lineage request.after
        environment.now tracker.voters none
      .ok (credited.2.pushFrames request.caller credited.1)

/-- How a pull ends: an expired or idle stream and a released frame refresh the contact once
more, a failure does not. -/
inductive PullOutcome where
  | expired
  | frame
  | idle
  | failed
deriving DecidableEq

def refreshVoterContact (caller : ReplicationSourceHoldIdV1)
    (voterHoldId : Option ReplicationSourceHoldIdV1) (now : Nat) (source : Source) : Source :=
  match voterHoldId with
  | none => source
  | some voter => source.recordVoterContact caller voter now

def nextItem (stream : ReplicationItemSource) (entered finished : Nat) (outcome : PullOutcome)
    (source : Source) : Source :=
  match stream with
  | .publishedFrames caller voterHoldId =>
    let source := source.refreshVoterContact caller voterHoldId entered
    if outcome = .failed then source else source.refreshVoterContact caller voterHoldId finished
  | .fenceItems => source
  | .bootstrapItems => source

/-- Everything that can happen to the source. Any component may stop the routing, and other holders
of the storage may change the hold table, the roots and the admission flags in any way between two
requests. -/
inductive Event where
  | openStream (environment : OpenEnvironment) (request : ReplicationRequest)
  | nextItem (index entered finished : Nat) (outcome : PullOutcome)
  | checkLease (now : Nat)
  | poisonLease
  | stopRouting (reason : RuntimeStopReason)
  | storage (control : SourceControl)

def step (source : Source) : Event → Source
  | .openStream environment request =>
    match source.openStream environment request with
    | .ok opened => opened
    | .error _ => source
  | .nextItem index entered finished outcome =>
    match source.streams[index]? with
    | none => source
    | some stream => source.nextItem stream entered finished outcome
  | .checkLease now =>
    { source with leaseTracker := source.leaseTracker.map fun tracker =>
        (tracker.checkOrFence now).2 }
  | .poisonLease =>
    { source with leaseTracker := source.leaseTracker.map fun tracker =>
        { tracker with poisoned := true } }
  | .stopRouting reason =>
    { source with leaseTracker := source.leaseTracker.map fun tracker =>
        { tracker with routing := tracker.routing.stop reason } }
  | .storage control => { source with control := control }

/-- Every recorded contact and every stream's remembered voter belongs to the follower whose
request was served. -/
structure Attributed (source : Source) : Prop where
  contacts : ∀ contact ∈ source.contacts, contact.voter = contact.caller
  streams : ∀ caller voter, .publishedFrames caller (some voter) ∈ source.streams → voter = caller

/-- No configured voter but the caller has acknowledged the position that a tail request asks for,
if the request comes as far as the voters. -/
def CallerOnly (source : Source) : Event → Prop
  | .openStream environment request =>
    environment.admitted = true → environment.cursorOpens = true → request.phase = .tail →
      ∀ tracker, source.leaseTracker = some tracker →
      ∀ voter ∈ tracker.voters, source.alreadyAcknowledged voter request.lineage request.after →
        voter = request.caller
  | _ => True

variable {source : Source}

theorem recordVoterContact_attributed (attributed : source.Attributed)
    (caller : ReplicationSourceHoldIdV1) (now : Nat) :
    (source.recordVoterContact caller caller now).Attributed := by
  unfold recordVoterContact
  cases source.leaseTracker with
  | none => exact attributed
  | some tracker =>
    refine ⟨?_, attributed.streams⟩
    intro contact member
    simp only at member
    split at member
    · rcases mem_cons.mp member with rfl | earlier
      · rfl
      · exact attributed.contacts contact earlier
    · exact attributed.contacts contact member

theorem recordVoterContact_control (source : Source) (caller voter : ReplicationSourceHoldIdV1)
    (now : Nat) : (source.recordVoterContact caller voter now).control = source.control := by
  unfold recordVoterContact
  cases source.leaseTracker <;> rfl

variable {caller : ReplicationSourceHoldIdV1}

variable {voterHoldId : Option ReplicationSourceHoldIdV1}

theorem pushFrames_attributed (attributed : source.Attributed)
    (own : ∀ voter, voterHoldId = some voter → voter = caller) :
    (source.pushFrames caller voterHoldId).Attributed := by
  refine ⟨attributed.contacts, ?_⟩
  intro opener voter member
  rcases mem_append.mp member with earlier | last
  · exact attributed.streams opener voter earlier
  · cases mem_singleton.mp last
    exact own voter rfl

variable {after : ChangelogHistoryPointV3}

variable {voters : List ReplicationSourceHoldIdV1}
variable {lineage : ChangelogLineageV3}

theorem creditVoters_attributed {now : Nat} (attributed : source.Attributed)
    (callerOnly : ∀ voter ∈ voters, source.alreadyAcknowledged voter lineage after → voter = caller)
    (own : ∀ voter, voterHoldId = some voter → voter = caller) :
    (source.creditVoters caller lineage after now voters voterHoldId).2.Attributed ∧
      ∀ voter, (source.creditVoters caller lineage after now voters voterHoldId).1 = some voter →
        voter = caller := by
  induction voters generalizing voterHoldId source with
  | nil => exact ⟨attributed, own⟩
  | cons voter voters ih =>
    rw [creditVoters]
    by_cases acknowledged : source.alreadyAcknowledged voter lineage after = true
    · have same := callerOnly voter mem_cons_self acknowledged
      subst same
      rw [if_pos acknowledged]
      apply ih (recordVoterContact_attributed attributed voter now)
      · intro other member credited
        apply callerOnly other (mem_cons_of_mem _ member)
        rwa [alreadyAcknowledged, recordVoterContact_control] at credited
      · intro other remembered
        cases voterHoldId with
        | none => simpa using remembered.symm
        | some first => exact own other remembered
    · rw [if_neg acknowledged]
      exact ih attributed (fun other member => callerOnly other (mem_cons_of_mem _ member)) own

variable {environment : OpenEnvironment}

section

variable (attributed : source.Attributed)

include attributed

theorem acknowledgeFollower_attributed {acknowledged : Source}
    (done : source.acknowledgeFollower environment caller caller lineage after =
      .ok acknowledged) : acknowledged.Attributed := by
  unfold acknowledgeFollower at done
  split at done
  · cases done
    exact recordVoterContact_attributed attributed caller environment.now
  · simp only [bind_eq_ok, Except.ok.injEq] at done
    obtain ⟨_, _, rows, _, rfl⟩ := done
    refine recordVoterContact_attributed ?_ caller environment.now
    exact ⟨attributed.contacts, attributed.streams⟩

theorem attach_attributed {manifest : BootstrapManifest} {attached : Source}
    (done : source.attach environment manifest.holdId manifest after = .ok attached) :
    attached.Attributed := by
  simp only [attach, bind_eq_ok, Except.ok.injEq] at done
  obtain ⟨_, _, _, _, rows, _, rfl⟩ := done
  refine recordVoterContact_attributed ?_ manifest.holdId environment.now
  exact ⟨attributed.contacts, attributed.streams⟩

theorem openStream_attributed {request : ReplicationRequest} {opened : Source}
    (callerOnly : source.CallerOnly (.openStream environment request))
    (done : source.openStream environment request = .ok opened) : opened.Attributed := by
  have withStream : ∀ stream, (∀ caller voter, stream ≠ .publishedFrames caller (some voter)) →
      Attributed { source with streams := source.streams ++ [stream] } := by
    intro stream silent
    refine ⟨attributed.contacts, ?_⟩
    intro caller voter member
    rcases mem_append.mp member with earlier | last
    · exact attributed.streams caller voter earlier
    · exact False.elim (silent caller voter (mem_singleton.mp last).symm)
  have named := request.named
  simp only [openStream, bind_eq_ok, require_eq_ok, exists_const] at done
  obtain ⟨admitted, done⟩ := done
  cases phase : request.phase with
  | bootstrap =>
    simp only [phase, Except.ok.injEq] at done
    subst done
    exact withStream _ (by intro _ _ equal; cases equal)
  | fenceEvidence =>
    simp only [phase, bind_eq_ok, Except.ok.injEq] at done
    obtain ⟨_, _, rfl⟩ := done
    exact withStream _ (by intro _ _ equal; cases equal)
  | follower raw =>
    simp only [phase, bind_eq_ok, okOr_eq_ok, ReplicationSourceHoldIdV1.new_eq_some,
      Except.ok.injEq] at done
    obtain ⟨_, _, id, own, acknowledged, transaction, rfl⟩ := done
    rw [phase] at named
    have same : id = request.caller := ReplicationSourceHoldIdV1.ext (own.trans named)
    subst same
    exact pushFrames_attributed (acknowledgeFollower_attributed attributed transaction)
      (by rintro _ ⟨⟩; rfl)
  | attach manifest =>
    simp only [phase, bind_eq_ok, okOr_eq_ok, Except.ok.injEq] at done
    obtain ⟨_, _, manifest, rfl, _, _, attached, transaction, rfl⟩ := done
    rw [phase] at named
    change manifest.holdId = request.caller at named
    rw [← named] at transaction ⊢
    exact pushFrames_attributed (attach_attributed attributed transaction) (by rintro _ ⟨⟩; rfl)
  | tail =>
    simp only [phase, bind_eq_ok, require_eq_ok, exists_const] at done
    obtain ⟨cursorOpens, done⟩ := done
    cases tracked : source.leaseTracker with
    | none =>
      simp only [tracked, Except.ok.injEq] at done
      subst done
      exact pushFrames_attributed attributed (by rintro _ ⟨⟩)
    | some tracker =>
      simp only [tracked, Except.ok.injEq] at done
      subst done
      have unset : ∀ voter, none = some voter → voter = request.caller := by rintro _ ⟨⟩
      obtain ⟨credited, remembered⟩ :=
        creditVoters_attributed attributed
          (callerOnly admitted cursorOpens phase tracker tracked) unset
      exact pushFrames_attributed credited remembered

theorem nextItem_attributed {stream : ReplicationItemSource} (opened : stream ∈ source.streams)
    (entered finished : Nat)
    (outcome : PullOutcome) : (source.nextItem stream entered finished outcome).Attributed := by
  cases stream with
  | fenceItems => exact attributed
  | bootstrapItems => exact attributed
  | publishedFrames caller voterHoldId =>
    cases voterHoldId with
    | none =>
      simp only [nextItem, refreshVoterContact, ite_self]
      exact attributed
    | some voter =>
      have same := attributed.streams caller voter opened
      subst same
      have first := recordVoterContact_attributed attributed voter entered
      simp only [nextItem, refreshVoterContact]
      split
      · exact first
      · exact recordVoterContact_attributed first voter finished

end

/-- One step keeps every contact attributed unless a tail request meets another voter's
acknowledgement. -/
theorem step_attributed (source : Source) (event : Event) (attributed : source.Attributed)
    (callerOnly : source.CallerOnly event) : (source.step event).Attributed := by
  cases event with
  | openStream environment request =>
    simp only [step]
    split
    · rename_i opened done
      exact openStream_attributed attributed callerOnly done
    · exact attributed
  | nextItem index entered finished outcome =>
    simp only [step]
    split
    · exact attributed
    · rename_i stream found
      exact nextItem_attributed attributed (mem_of_getElem? found) entered finished outcome
  | _ => exact ⟨attributed.contacts, attributed.streams⟩

/-- The tracker records contacts: it is running and its table is not poisoned. -/
def Recording (source : Source) (voters : List ReplicationSourceHoldIdV1) : Prop :=
  ∃ tracker, source.leaseTracker = some tracker ∧ tracker.routing.isRoutingAllowed = true ∧
    tracker.poisoned = false ∧ tracker.voters = voters

variable {voter : ReplicationSourceHoldIdV1}

theorem recordVoterContact_recording
    (recording : source.Recording voters) (caller : ReplicationSourceHoldIdV1)
    (member : voter ∈ voters) (now : Nat) :
    (source.recordVoterContact caller voter now).Recording voters ∧
      (source.recordVoterContact caller voter now).contacts = ⟨voter, caller⟩ ::
        source.contacts := by
  obtain ⟨tracker, tracked, running, healthy, rfl⟩ := recording
  have written : tracker.recordVoterContact voter now = (true, tracker.recordAt voter now) := by
    simp [PrimaryQuorumLeaseTracker.recordVoterContact, running, healthy, member]
  have stored : source.recordVoterContact caller voter now =
      { source with
        leaseTracker := some (tracker.recordAt voter now)
        contacts := ⟨voter, caller⟩ :: source.contacts } := by
    simp [recordVoterContact, tracked, written]
  rw [stored]
  exact ⟨⟨tracker.recordAt voter now, rfl, running, healthy, rfl⟩, rfl⟩

/-- A recording tracker credits every matching voter of a tail open. -/
theorem creditVoters_records (caller : ReplicationSourceHoldIdV1) (lineage : ChangelogLineageV3)
    (after : ChangelogHistoryPointV3) (now : Nat)
    {voters configured : List ReplicationSourceHoldIdV1}
    (voterHoldId : Option ReplicationSourceHoldIdV1)
    (recording : source.Recording configured) (inside : voters ⊆ configured) :
    (∀ contact ∈ source.contacts, contact ∈
      (source.creditVoters caller lineage after now voters voterHoldId).2.contacts) ∧
    ∀ voter ∈ voters, source.alreadyAcknowledged voter lineage after → ⟨voter, caller⟩ ∈
      (source.creditVoters caller lineage after now voters voterHoldId).2.contacts := by
  induction voters generalizing voterHoldId source with
  | nil => exact ⟨fun _ member => member, by simp⟩
  | cons first voters ih =>
    have rest : voters ⊆ configured := fun voter member => inside (mem_cons_of_mem _ member)
    rw [creditVoters]
    by_cases acknowledged : source.alreadyAcknowledged first lineage after = true
    · rw [if_pos acknowledged]
      obtain ⟨still, recorded⟩ :=
        recordVoterContact_recording recording caller (inside mem_cons_self) now
      obtain ⟨kept, later⟩ := ih (voterHoldId.or (some first)) still rest
      rw [recorded] at kept
      refine ⟨fun contact member => kept contact (mem_cons_of_mem _ member), ?_⟩
      intro voter member credited
      rcases mem_cons.mp member with rfl | other
      · exact kept _ mem_cons_self
      · apply later voter other
        rwa [alreadyAcknowledged, recordVoterContact_control]
    · rw [if_neg acknowledged]
      obtain ⟨kept, later⟩ := ih voterHoldId recording rest
      refine ⟨kept, ?_⟩
      intro voter member credited
      rcases mem_cons.mp member with rfl | other
      · exact False.elim (acknowledged credited)
      · exact later voter other credited

/-- In every run whose tail requests only ever meet the caller's own acknowledgement, each
recorded contact belongs to the follower whose request was served; a single served tail request
that meets another voter's acknowledgement records a contact for that voter. -/
theorem contacts_follow_callers {start : Source} (attributed : start.Attributed) :
    (∀ events, Meets step CallerOnly start events →
      ∀ contact ∈ (run step start events).contacts, contact.voter = contact.caller) ∧
    ∀ (source : Source) (environment : OpenEnvironment) (request : ReplicationRequest)
      (tracker : PrimaryQuorumLeaseTracker),
      environment.admitted = true → environment.cursorOpens = true → request.phase = .tail →
      source.leaseTracker = some tracker → tracker.routing.isRoutingAllowed = true →
      tracker.poisoned = false → ¬ source.CallerOnly (.openStream environment request) →
      ∃ contact ∈ (source.step (.openStream environment request)).contacts,
        contact.voter ≠ contact.caller := by
  constructor
  · intro events meets
    exact (run_invariant_of_meets (P := Attributed) step_attributed attributed meets).contacts
  · intro source environment request tracker admitted cursorOpens phase tracked running healthy
      foreign
    simp only [CallerOnly, not_forall] at foreign
    obtain ⟨_, _, _, other, otherTracked, voter, member, acknowledged, different⟩ := foreign
    cases tracked.symm.trans otherTracked
    have credited :=
      (creditVoters_records request.caller request.lineage request.after environment.now none
      ⟨tracker, tracked, running, healthy, rfl⟩ fun _ inside => inside).2 voter member acknowledged
    refine ⟨⟨voter, request.caller⟩, ?_, different⟩
    simp only [step, openStream, phase, tracked, require_pos admitted,
      require_pos cursorOpens, ok_bind]
    exact credited

end Source

section TwoVoters

open ReplicationSourceHoldIdV1

def sampleLineage : ChangelogLineageV3 := ⟨UuidV7.sample, .lit 1, .lit 1, .v1⟩

def samplePoint : ChangelogHistoryPointV3 :=
  ⟨.lit 5, List.Vector.replicate 32 0, ⟨some (.lit 3), none⟩⟩

/-- A running primary with two voters, both of which have acknowledged the same position. -/
def twoVoterSource : Source where
  leaseTracker := some twoVoterTracker
  control := {
    writeFenced := false
    followerMode := false
    history := ⟨sampleLineage, samplePoint, samplePoint, samplePoint, Eq.refl true, Eq.refl true⟩
    retained := fun _ _ => true
    rows := [filledWith 1, filledWith 2].map fun voter =>
      (ReplicationSourceHoldV1.storageKeyFor voter .followerAcknowledgement,
        .legacy ⟨voter, .followerAcknowledgement, sampleLineage, samplePoint⟩) }
  streams := []
  contacts := []

/-- The first voter opens a tail stream at the shared position. -/
def firstVoterTail : ReplicationRequest :=
  ⟨filledWith 1, sampleLineage, samplePoint, .tail, trivial⟩

/-- The second voter is credited with the first voter's request, at the open. -/
theorem twoVoterSource_misattributes :
    (twoVoterSource.step (.openStream ⟨true, true, true, 10⟩ firstVoterTail)).contacts =
      [⟨filledWith 2, filledWith 1⟩, ⟨filledWith 1, filledWith 1⟩] := by
  decide

/-- The first voter reopens its stream in the follower phase, reporting the same position. -/
def firstVoterReport : ReplicationRequest :=
  ⟨filledWith 1, sampleLineage, samplePoint, .follower (filledWith 1).asBytes, rfl⟩

theorem contacts_follow_callers_twoVoters : (∀ contact ∈ (run Source.step twoVoterSource
      [.openStream ⟨true, true, true, 10⟩ firstVoterReport, .nextItem 0 11 12 .frame]).contacts,
        contact.voter = contact.caller) ∧
    ∃ contact ∈ (twoVoterSource.step (.openStream ⟨true, true, true, 10⟩ firstVoterTail)).contacts,
      contact.voter ≠ contact.caller := by
  have fresh : twoVoterSource.Attributed := ⟨by simp [twoVoterSource], by simp [twoVoterSource]⟩
  have settled := Source.contacts_follow_callers fresh
  refine ⟨settled.1 _ ⟨by simp [Source.CallerOnly, firstVoterReport], trivial, trivial⟩, ?_⟩
  refine settled.2 twoVoterSource ⟨true, true, true, 10⟩ firstVoterTail twoVoterTracker rfl rfl rfl
    rfl (by decide) (by decide) ?_
  intro callerOnly
  have same := callerOnly rfl rfl rfl twoVoterTracker rfl (filledWith 2) (by decide) (by decide)
  exact absurd same (by decide)

end TwoVoters

end SourceContact
