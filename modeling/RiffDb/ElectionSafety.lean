import RiffDb.EpochPromise
import RiffDb.Runs

/-!
# Election safety

Every granted vote is backed by a promise that was synced before the vote left the voter, and the
synced promise only moves to later epochs. So a voter never grants one epoch to two candidates,
whatever the interleaving of handlers, own candidacies, failures and restarts, and two certificates
for one epoch share a voter. Views and requests are arbitrary.
-/

namespace ElectionSafety

open ReplicationTypes ReplicationQuorum EpochPromise Quorums Runs Function

/-- A promise is kept, or replaced by one for a later epoch. -/
def Advances (before after : Option Promise) : Prop :=
  ∀ promise, before = some promise → ∃ later, after = some later ∧
    (later = promise ∨ promise.epoch.get < later.epoch.get)

theorem Advances.refl (promise : Option Promise) : Advances promise promise :=
  fun kept same => ⟨kept, same, Or.inl rfl⟩

theorem Advances.trans {first second third : Option Promise} (before : Advances first second)
    (after : Advances second third) : Advances first third := by
  intro promise isFirst
  obtain ⟨middle, isSecond, order⟩ := before promise isFirst
  obtain ⟨last, isThird, later⟩ := after middle isSecond
  refine ⟨last, isThird, ?_⟩
  rcases order with rfl | earlier
  · exact later
  · rcases later with rfl | further
    · exact Or.inr earlier
    · exact Or.inr (earlier.trans further)

section Plan

variable {prior : Option Promise} {epoch : LeadershipEpochV1}
  {candidate : ReplicationSourceHoldIdV1}

/-- The persist call only writes what its plan allows. -/
theorem advances_of_write (plan : persistPlan prior epoch candidate = .write) :
    Advances prior (some ⟨epoch, candidate⟩) := by
  rintro promise rfl
  refine ⟨_, rfl, Or.inr ?_⟩
  simp only [persistPlan] at plan
  split_ifs at plan with lower same
  have different : epoch.get ≠ promise.epoch.get := fun equal => same (NonZeroU64.ext equal)
  change promise.epoch.get < epoch.get
  omega

theorem visible_of_retry (plan : persistPlan prior epoch candidate = .retry) :
    prior = some ⟨epoch, candidate⟩ := by
  cases prior with
  | none => cases plan
  | some promise =>
    simp only [persistPlan] at plan
    split_ifs at plan with lower same rival
    rw [same, not_not.mp rival]

end Plan

/-- The promise an attempt is about. -/
def promiseOf (attempt : Attempt) : Promise := ⟨attempt.proposed, attempt.candidate⟩

/-- The highest epoch a node has a reason to know. -/
def fenceLimit (node : VoterNode) : Nat :=
  max node.view.lineage.leadershipEpoch.get
    ((node.visible.map fun promise => promise.epoch.get).getD 0)

variable {node : VoterNode}

theorem fenceLimit_none (unpromised : node.visible = none) :
    fenceLimit node = node.view.lineage.leadershipEpoch.get := by
  simp [fenceLimit, unpromised]

theorem fenceLimit_some {promise : Promise} (promised : node.visible = some promise) :
    fenceLimit node = max node.view.lineage.leadershipEpoch.get promise.epoch.get := by
  simp [fenceLimit, promised]

/-- What the stage of an attempt says about the node. -/
structure Backed (node : VoterNode) (id : Nat) (attempt : Attempt) : Prop where
  lineage : attempt.lineage = node.view.lineage
  exclusive : attempt.stage ≠ .sampled → node.lockedBy = some id
  bounded : ∀ current, attempt.stage = .locked current → current.get ≤ fenceLimit node
  written : attempt.stage = .writing → node.visible = some (promiseOf attempt)
  persisted : attempt.stage = .persisted →
    node.visible = some (promiseOf attempt) ∧ node.synced = some (promiseOf attempt)
  granted : ∀ effective, attempt.stage = .decided true effective →
    effective = attempt.proposed ∧ node.visible = some (promiseOf attempt) ∧
      node.synced = some (promiseOf attempt)

/-- The invariant of one voter. The fence never passes both the lineage and the promise. -/
structure Sound (node : VoterNode) : Prop where
  newest : Advances node.synced node.visible
  fence : node.promisedEpoch.get ≤ fenceLimit node
  backed : ∀ id attempt, node.attempts id = some attempt → Backed node id attempt

open VoterNode

theorem sound_start (holdId : ReplicationSourceHoldIdV1) (view : View)
    {visible synced : Option Promise} (newest : Advances synced visible) :
    Sound (start holdId view visible synced) := by
  refine ⟨newest, ?_, ?_⟩
  · cases visible <;> simp [start, fenceLimit]
  · intro id attempt found
    cases found

variable {next : VoterNode} {current effective : LeadershipEpochV1}

section Moves

variable {node : VoterNode} {id : Nat} {attempt : Attempt}

theorem Backed.of_sampled (sampled : attempt.stage = .sampled)
    (lineage : attempt.lineage = node.view.lineage) : Backed node id attempt := by
  refine ⟨lineage, ?_, ?_, ?_, ?_, ?_⟩ <;> simp [sampled]

section

variable (sound : Sound node)

include sound

/-- A change of one attempt is sound when the others can keep what they say. -/
theorem Sound.change {changed : Option Attempt}
    (attempts : next.attempts = Function.update node.attempts id changed)
    (lineage : next.view.lineage = node.view.lineage) (newest : Advances next.synced next.visible)
    (fence : next.promisedEpoch.get ≤ fenceLimit next)
    (others : ∀ other attempt, other ≠ id → node.attempts other = some attempt →
      attempt.stage = .sampled ∨ (next.lockedBy = node.lockedBy ∧
        next.visible = node.visible ∧ next.synced = node.synced))
    (itself : ∀ attempt, changed = some attempt → Backed next id attempt) : Sound next := by
  refine ⟨newest, fence, ?_⟩
  intro other attempt found
  rw [attempts] at found
  by_cases same : other = id
  · subst same
    rw [update_self] at found
    exact itself attempt found
  · rw [update_of_ne same] at found
    have before := sound.backed other attempt found
    rcases others other attempt same found with sampled | ⟨lock, visible, synced⟩
    · exact .of_sampled sampled (lineage ▸ before.lineage)
    · refine ⟨lineage.symm ▸ before.lineage, ?_, ?_, ?_, ?_, ?_⟩
      · intro past
        exact lock.trans (before.exclusive past)
      · intro current locked
        have same : fenceLimit next = fenceLimit node := by
          rw [fenceLimit, fenceLimit, lineage, visible]
        exact same ▸ before.bounded current locked
      · intro writing
        exact visible.trans (before.written writing)
      · intro persisted
        rw [visible, synced]
        exact before.persisted persisted
      · intro effective decided
        rw [visible, synced]
        exact before.granted effective decided

/-- Only the holder of the lock is past its sample. -/
theorem Sound.alone (holder : node.lockedBy = some id) {other : Nat}
    (different : other ≠ id) (found : node.attempts other = some attempt) :
      attempt.stage = .sampled := by
  by_contra past
  have locked := (sound.backed other attempt found).exclusive past
  rw [holder] at locked
  exact different (Option.some.inj locked).symm

theorem Sound.waiting (free : node.lockedBy = none)
    (found : node.attempts id = some attempt) : attempt.stage = .sampled := by
  by_contra past
  have locked := (sound.backed id attempt found).exclusive past
  rw [free] at locked
  cases locked

theorem Sound.sample (sampled : attempt.stage = .sampled)
    (lineage : attempt.lineage = node.view.lineage) :
      Sound (node.setAttempt id (some attempt)) := by
  refine sound.change rfl rfl sound.newest sound.fence ?_ ?_
  · intro other _ _ _
    exact Or.inr ⟨rfl, rfl, rfl⟩
  · rintro changed ⟨⟩
    exact .of_sampled sampled lineage

theorem Sound.drop (id : Nat) : Sound (node.drop id) := by
  refine sound.change rfl rfl sound.newest sound.fence ?_ ?_
  · intro other attempt different found
    by_cases holder : node.lockedBy = some id
    · exact Or.inl (sound.alone holder different found)
    · refine Or.inr ⟨?_, rfl, rfl⟩
      simp [VoterNode.drop, holder]
  · intro attempt impossible
    cases impossible

end

/-- The promise the handler reads is within the bound of the fence. -/
theorem currentPromised_le (lineage : attempt.lineage = node.view.lineage) :
    (node.currentPromised attempt.lineage).get ≤ fenceLimit node := by
  unfold currentPromised fenceLimit
  rw [lineage]
  cases node.visible <;> simp

section

variable (sound : Sound node)

include sound

theorem Sound.takeLock (free : node.lockedBy = none)
    (found : node.attempts id = some attempt) : Sound (node.takeLock id attempt) := by
  have lineage := (sound.backed id attempt found).lineage
  have others : ∀ other attempt, other ≠ id → node.attempts other = some attempt →
      attempt.stage = .sampled := fun _ _ _ present => sound.waiting free present
  have current : (node.currentPromised attempt.lineage).get ≤ fenceLimit node :=
    currentPromised_le lineage
  unfold VoterNode.takeLock
  split
  · refine sound.change rfl rfl sound.newest ?_ (fun other attempt different present =>
      Or.inl (others other attempt different present)) ?_
    · simp only [fetchMax_get]
      exact max_le sound.fence current
    · rintro changed ⟨⟩
      refine ⟨lineage, fun _ => rfl, ?_, by simp, by simp, by simp⟩
      rintro _ ⟨⟩
      exact current
  · split
    · refine sound.change rfl rfl sound.newest sound.fence (fun other attempt different present =>
        Or.inl (others other attempt different present)) ?_
      rintro changed ⟨⟩
      refine ⟨lineage, fun _ => rfl, ?_, by simp, by simp, by simp⟩
      rintro _ ⟨⟩
      change _ ≤ fenceLimit node
      rw [lineage]
      exact le_max_left _ _
    · exact sound.drop id

/-- A move of the lock holder leaves the others at their samples. -/
theorem Sound.holderMove (holder : node.lockedBy = some id) {changed : Attempt}
    (attempts : next.attempts = Function.update node.attempts id (some changed))
    (lineage : next.view.lineage = node.view.lineage) (newest : Advances next.synced next.visible)
    (fence : next.promisedEpoch.get ≤ fenceLimit next) (itself : Backed next id changed) :
    Sound next := by
  refine sound.change attempts lineage newest fence ?_ ?_
  · intro other attempt different present
    exact Or.inl (sound.alone holder different present)
  · rintro attempt ⟨⟩
    exact itself

section

variable (found : node.attempts id = some attempt)

include found

theorem Sound.refuse (locked : attempt.stage = .locked current) :
    Sound (node.refuse id attempt current) := by
  have backed := sound.backed id attempt found
  have holder := backed.exclusive (by rw [locked]; simp)
  have refreshed : ((node.visible.map Promise.epoch).getD current).get ≤ fenceLimit node := by
    cases seen : node.visible with
    | none => exact backed.bounded current locked
    | some promise =>
      rw [fenceLimit_some seen]
      exact le_max_right _ _
  unfold VoterNode.refuse
  split
  · exact sound.drop id
  · refine sound.holderMove holder rfl rfl sound.newest ?_ ?_
    · simp only [fetchMax_get]
      exact max_le sound.fence refreshed
    · exact ⟨backed.lineage, fun _ => holder, by simp, by simp, by simp, by simp⟩

theorem Sound.persist (locked : attempt.stage = .locked current) :
    Sound (node.persist id attempt current) := by
  have backed := sound.backed id attempt found
  have holder := backed.exclusive (by rw [locked]; simp)
  unfold VoterNode.persist
  split
  · refine sound.holderMove holder rfl rfl sound.newest sound.fence ?_
    exact ⟨backed.lineage, fun _ => holder, by simp, by simp, by simp, by simp⟩
  · split
    · exact sound.refuse found locked
    · next plan =>
      refine sound.holderMove holder rfl rfl sound.newest sound.fence ?_
      exact ⟨backed.lineage, fun _ => holder,
        by simp, fun _ => visible_of_retry plan, by simp, by simp⟩
    · next plan =>
      have written := advances_of_write plan
      refine sound.holderMove holder rfl rfl (sound.newest.trans written) ?_ ?_
      · have fence := sound.fence
        rw [fenceLimit_some rfl]
        cases seen : node.visible with
        | none =>
          rw [fenceLimit_none seen] at fence
          exact fence.trans (le_max_left _ _)
        | some promise =>
          obtain ⟨later, isLater, order⟩ := written promise seen
          have epochs : promise.epoch.get ≤ attempt.proposed.get := by
            cases isLater
            rcases order with same | above
            · rw [← same]
            · exact above.le
          rw [fenceLimit_some seen] at fence
          exact fence.trans (max_le_max_left _ epochs)
      · exact ⟨backed.lineage, fun _ => holder, by simp, fun _ => rfl, by simp, by simp⟩

theorem Sound.sync (writing : attempt.stage = .writing) : Sound (node.sync id attempt) := by
  have backed := sound.backed id attempt found
  have holder := backed.exclusive (by rw [writing]; simp)
  have visible := backed.written writing
  refine sound.holderMove holder rfl rfl (.refl _) sound.fence ?_
  exact ⟨backed.lineage, fun _ => holder, by simp, by simp, fun _ => ⟨visible, visible⟩, by simp⟩

/-- Raising the fence to a durable promise keeps it within the limit. -/
theorem Sound.raiseFence (persisted : attempt.stage = .persisted) :
    Sound (node.raiseFence id attempt) := by
  have backed := sound.backed id attempt found
  have holder := backed.exclusive (by rw [persisted]; simp)
  obtain ⟨visible, synced⟩ := backed.persisted persisted
  have limit : fenceLimit node = max node.view.lineage.leadershipEpoch.get attempt.proposed.get :=
    fenceLimit_some visible
  refine sound.holderMove holder rfl rfl sound.newest ?_ ?_
  · unfold VoterNode.raiseFence
    dsimp only
    split
    · rw [fetchMax_get]
      exact max_le sound.fence (le_trans (le_max_right _ _) limit.ge)
    · exact sound.fence
  · refine ⟨backed.lineage, fun _ => holder, by simp, by simp, by simp, ?_⟩
    rintro effective ⟨⟩
    exact ⟨rfl, visible, synced⟩

/-- A granted vote names the promise the voter has synced. -/
theorem Sound.grants (decided : attempt.stage = .decided true effective)
    {vote : ReplicationEpochVoteV1} (returned : node.vote attempt true effective = some vote) :
    node.synced = some ⟨vote.promisedEpoch, vote.candidateHoldId⟩ := by
  have backed := sound.backed id attempt found
  obtain ⟨rfl, visible, synced⟩ := backed.granted effective decided
  obtain ⟨_, _, _, promised, candidate, _, _, _⟩ := ReplicationEpochVoteV1.new_eq_some.mp returned
  have next : attempt.proposed.get = attempt.lineage.leadershipEpoch.get + 1 :=
    NonZeroU64.checkedNext_eq_some.mp attempt.successor
  have settled : vote.promisedEpoch = attempt.proposed := by
    rw [← promised]
    split
    · apply NonZeroU64.ext
      have fence := sound.fence
      rw [fenceLimit_some visible, ← backed.lineage] at fence
      change _ ≤ max _ attempt.proposed.get at fence
      rw [fetchMax_get]
      omega
    · rfl
  rw [synced, settled, ← candidate]
  rfl

end

end

end Moves

/-- One step of a node: it stays sound, its durable promise advances, and a granted vote names
the promise that is durable after the step. -/
structure Safe (node : VoterNode) (result : VoterNode × Option ReplicationEpochVoteV1) : Prop where
  sound : Sound result.1
  holdId : result.1.holdId = node.holdId
  durable : Advances node.synced result.1.synced
  vote : ∀ vote, result.2 = some vote → vote.voterHoldId = node.holdId ∧
    (vote.granted = true → result.1.synced = some ⟨vote.promisedEpoch, vote.candidateHoldId⟩)

theorem Safe.silent {node : VoterNode} (sound : Sound next) (holdId : next.holdId = node.holdId)
    (durable : Advances node.synced next.synced) : Safe node (next, none) :=
  ⟨sound, holdId, durable, by simp⟩

theorem Safe.idle (sound : Sound node) : Safe node (node, none) := .silent sound rfl (.refl _)

section Steps

variable {node : VoterNode} (sound : Sound node)

include sound

theorem safe_requestEpochVote (id : Nat) (request : ReplicationEpochVoteRequestV1) :
    Safe node (node.requestEpochVote id request, none) := by
  unfold requestEpochVote
  split
  · exact .silent (sound.sample rfl rfl) rfl (.refl _)
  · exact .idle sound

theorem safe_collectQuorumFenceEvidence (voters : List ReplicationSourceHoldIdV1) (id : Nat) :
    Safe node (node.collectQuorumFenceEvidence voters id, none) := by
  unfold collectQuorumFenceEvidence
  split
  · split
    · exact .idle sound
    · exact .silent (sound.sample rfl rfl) rfl (.refl _)
  · exact .idle sound

variable {attempt : Attempt} {id : Nat}

section

variable (found : node.attempts id = some attempt)

include found

theorem safe_takeLock (free : node.lockedBy = none) :
    Safe node (node.takeLock id attempt, none) := by
  have kept : (node.takeLock id attempt).holdId = node.holdId ∧
      (node.takeLock id attempt).synced = node.synced := by
    unfold takeLock
    split
    · exact ⟨rfl, rfl⟩
    · split <;> exact ⟨rfl, rfl⟩
  exact .silent (sound.takeLock free found) kept.1 (kept.2.symm ▸ Advances.refl _)

theorem safe_persist (locked : attempt.stage = .locked current) :
    Safe node (node.persist id attempt current, none) := by
  have kept : (node.persist id attempt current).holdId = node.holdId ∧
      (node.persist id attempt current).synced = node.synced := by
    unfold persist refuse
    split
    · exact ⟨rfl, rfl⟩
    · split
      · split <;> exact ⟨rfl, rfl⟩
      · exact ⟨rfl, rfl⟩
      · exact ⟨rfl, rfl⟩
  exact .silent (sound.persist found locked) kept.1 (kept.2.symm ▸ Advances.refl _)

theorem safe_reply {granted : Bool} (decided : attempt.stage = .decided granted effective) :
    Safe node (node.drop id, node.vote attempt granted effective) := by
  refine ⟨sound.drop id, rfl, Advances.refl _, ?_⟩
  intro vote returned
  have fields := ReplicationEpochVoteV1.new_eq_some.mp returned
  refine ⟨fields.1.symm, ?_⟩
  intro isGranted
  have same : granted = true := fields.2.2.2.2.2.2.2.trans isGranted
  subst same
  exact sound.grants found decided returned

end

theorem safe_step (voters : List ReplicationSourceHoldIdV1) (event : NodeEvent) :
    Safe node (node.step voters event) := by
  cases event with
  | publish tail =>
    refine .silent ⟨sound.newest, sound.fence, ?_⟩ rfl (.refl _)
    intro id attempt found
    have backed := sound.backed id attempt found
    exact ⟨backed.lineage, backed.exclusive, backed.bounded, backed.written, backed.persisted,
      backed.granted⟩
  | requestEpochVote id request =>
    unfold step
    dsimp only
    split
    · exact safe_requestEpochVote sound id request
    · exact .idle sound
  | collectQuorumFenceEvidence id =>
    unfold step
    dsimp only
    split
    · exact safe_collectQuorumFenceEvidence sound voters id
    · exact .idle sound
  | takeLock id =>
    unfold step
    dsimp only
    split
    · next attempt found free =>
      split
      · exact safe_takeLock sound found free
      · exact .idle sound
    · exact .idle sound
  | persist id =>
    unfold step
    dsimp only
    split
    · exact .idle sound
    · next attempt found =>
      split
      · next current locked => exact safe_persist sound found locked
      · exact .idle sound
  | sync id =>
    unfold step
    dsimp only
    split
    · exact .idle sound
    · next attempt found =>
      split
      · next writing =>
        exact .silent (sound.sync found writing) rfl sound.newest
      · exact .idle sound
  | raiseFence id =>
    unfold step
    dsimp only
    split
    · exact .idle sound
    · next attempt found =>
      split
      · next persisted =>
        exact .silent (sound.raiseFence found persisted) rfl (.refl _)
      · exact .idle sound
  | reply id =>
    unfold step
    dsimp only
    split
    · exact .idle sound
    · next attempt found =>
      split
      · next granted effective decided => exact safe_reply sound found decided
      · exact .idle sound
  | fail id => exact .silent (sound.drop id) rfl (.refl _)
  | restart keepsRename view =>
    refine .silent (sound_start _ _ ?_) rfl (.refl _)
    cases keepsRename
    · exact .refl _
    · exact sound.newest

end Steps

/-- The voters of a run and the votes they have returned. -/
structure Election where
  nodes : ReplicationSourceHoldIdV1 → VoterNode
  votes : List ReplicationEpochVoteV1

/-- One step of one node. -/
structure Event where
  voter : ReplicationSourceHoldIdV1
  event : NodeEvent

namespace Election

/-- Every node as it starts, with the promise its disk holds. -/
def start (view : ReplicationSourceHoldIdV1 → View)
    (promise : ReplicationSourceHoldIdV1 → Option Promise) : Election where
  nodes voter := VoterNode.start voter (view voter) (promise voter) (promise voter)
  votes := []

def step (voters : List ReplicationSourceHoldIdV1) (election : Election) (event : Event) :
    Election :=
  let result := (election.nodes event.voter).step voters event.event
  { nodes := Function.update election.nodes event.voter result.1
    votes := election.votes ++ result.2.toList }

/-- Every granted vote is covered by the promise of its voter, and no voter grants one epoch to
two candidates. -/
structure Sound (election : Election) : Prop where
  nodes : ∀ voter, ElectionSafety.Sound (election.nodes voter)
  named : ∀ voter, (election.nodes voter).holdId = voter
  covered : ∀ vote ∈ election.votes, vote.granted = true →
    Advances (some ⟨vote.promisedEpoch, vote.candidateHoldId⟩)
      (election.nodes vote.voterHoldId).synced
  single : ∀ first ∈ election.votes, ∀ second ∈ election.votes, first.granted = true →
    second.granted = true → first.voterHoldId = second.voterHoldId →
    first.promisedEpoch = second.promisedEpoch → first.candidateHoldId = second.candidateHoldId

theorem sound_start (view : ReplicationSourceHoldIdV1 → View)
    (promise : ReplicationSourceHoldIdV1 → Option Promise) : Sound (start view promise) := by
  refine ⟨?_, fun _ => rfl, ?_, ?_⟩
  · intro voter
    exact ElectionSafety.sound_start voter (view voter) (.refl _)
  · intro vote member
    cases member
  · intro first member
    cases member

variable {voters : List ReplicationSourceHoldIdV1} {election : Election}

theorem synced_step (sound : Sound election) (event : Event) (voter : ReplicationSourceHoldIdV1) :
    Advances (election.nodes voter).synced ((election.step voters event).nodes voter).synced := by
  unfold step
  dsimp only
  by_cases same : voter = event.voter
  · subst same
    rw [update_self]
    exact (safe_step (sound.nodes _) voters event.event).durable
  · rw [update_of_ne same]
    exact .refl _

/-- A promise for the same epoch names the same candidate. -/
theorem candidate_of_advances {epoch : LeadershipEpochV1} {first second : ReplicationSourceHoldIdV1}
    (covered : Advances (some ⟨epoch, first⟩) (some ⟨epoch, second⟩)) : first = second := by
  obtain ⟨later, isLater, order⟩ := covered _ rfl
  cases isLater
  rcases order with same | above
  · exact (congrArg Promise.candidate same).symm
  · exact absurd above (lt_irrefl _)

theorem sound_step (sound : Sound election) (event : Event) :
    Sound (election.step voters event) := by
  have safe := safe_step (sound.nodes event.voter) voters event.event
  have fresh : ∀ vote ∈ ((election.nodes event.voter).step voters event.event).2.toList,
      vote.granted = true → vote.voterHoldId = event.voter ∧
        ((election.step voters event).nodes event.voter).synced =
          some ⟨vote.promisedEpoch, vote.candidateHoldId⟩ := by
    intro vote member granted
    obtain ⟨owner, durable⟩ := safe.vote vote (Option.mem_toList.mp member)
    refine ⟨owner.trans (sound.named event.voter), ?_⟩
    unfold step
    dsimp only
    rw [update_self]
    exact durable granted
  have covered : ∀ vote ∈ (election.step voters event).votes, vote.granted = true →
      Advances (some ⟨vote.promisedEpoch, vote.candidateHoldId⟩)
        ((election.step voters event).nodes vote.voterHoldId).synced := by
    intro vote member granted
    rcases List.mem_append.mp member with earlier | new
    · exact (sound.covered vote earlier granted).trans (synced_step sound event vote.voterHoldId)
    · obtain ⟨owner, durable⟩ := fresh vote new granted
      rw [owner, durable]
      exact .refl _
  -- a new vote agrees with every other one of its voter and epoch
  have agrees : ∀ vote ∈ (election.step voters event).votes, vote.granted = true →
      ∀ new ∈ ((election.nodes event.voter).step voters event.event).2.toList, new.granted = true →
      vote.voterHoldId = new.voterHoldId → vote.promisedEpoch = new.promisedEpoch →
      vote.candidateHoldId = new.candidateHoldId := by
    intro vote member granted new isNew newGranted sameVoter sameEpoch
    obtain ⟨owner, durable⟩ := fresh new isNew newGranted
    have advances := covered vote member granted
    rw [sameVoter, owner, durable, sameEpoch] at advances
    exact candidate_of_advances advances
  refine ⟨?_, ?_, covered, ?_⟩
  · exact (forall_update_iff _ fun _ node => ElectionSafety.Sound node).mpr
      ⟨safe.sound, fun voter _ => sound.nodes voter⟩
  · exact (forall_update_iff _ fun voter (node : VoterNode) => node.holdId = voter).mpr
      ⟨safe.holdId.trans (sound.named event.voter), fun voter _ => sound.named voter⟩
  · intro first firstMember second secondMember firstGranted secondGranted sameVoter sameEpoch
    rcases List.mem_append.mp secondMember with secondOld | secondNew
    · rcases List.mem_append.mp firstMember with firstOld | firstNew
      · exact sound.single first firstOld second secondOld firstGranted secondGranted
          sameVoter sameEpoch
      · exact (agrees second secondMember secondGranted first firstNew firstGranted sameVoter.symm
          sameEpoch.symm).symm
    · exact agrees first firstMember firstGranted second secondNew secondGranted sameVoter sameEpoch

/-- The state after a run from nodes as they start. -/
def after (voters : List ReplicationSourceHoldIdV1) (view : ReplicationSourceHoldIdV1 → View)
    (promise : ReplicationSourceHoldIdV1 → Option Promise) (events : List Event) : Election :=
  run (step voters) (start view promise) events

theorem sound_after (voters : List ReplicationSourceHoldIdV1)
    (view : ReplicationSourceHoldIdV1 → View)
    (promise : ReplicationSourceHoldIdV1 → Option Promise) (events : List Event) :
    Sound (after voters view promise events) :=
  run_invariant (P := Sound) (fun _ event sound => sound_step sound event)
    (sound_start view promise) events

/-- Between any two states of a run the durable promise of a voter advances. -/
theorem synced_run (sound : Sound election) (events : List Event)
    (voter : ReplicationSourceHoldIdV1) :
    Advances (election.nodes voter).synced
      ((run (step voters) election events).nodes voter).synced := by
  have both : Sound (run (step voters) election events) ∧ Advances (election.nodes voter).synced
      ((run (step voters) election events).nodes voter).synced := run_invariant
    (P := fun state => Sound state ∧
      Advances (election.nodes voter).synced (state.nodes voter).synced)
    (fun state event held => ⟨sound_step held.1 event,
      held.2.trans (synced_step held.1 event voter)⟩) ⟨sound, .refl _⟩ events
  exact both.2

/-- Two certificates from votes of one run share a voter, and a voter has one candidate. -/
theorem candidate_unique (sound : Sound election) {first second : QuorumFenceCertificateV1}
    (firstCertifies : first.Certifies voters) (secondCertifies : second.Certifies voters)
    (firstVotes : first.votes ⊆ election.votes) (secondVotes : second.votes ⊆ election.votes)
    (sameEpoch : first.promisedEpoch = second.promisedEpoch) :
    first.candidateHoldId = second.candidateHoldId := by
  have crowded : voters.length < (first.votes.map (·.voterHoldId)).length +
      (second.votes.map (·.voterHoldId)).length := by
    rw [List.length_map, List.length_map]
    exact lt_of_lt_of_le (two_majorities voters.length)
      (Nat.add_le_add firstCertifies.majority secondCertifies.majority)
  obtain ⟨voter, inFirst, inSecond⟩ := exists_common firstCertifies.distinct
    secondCertifies.distinct firstCertifies.configured secondCertifies.configured crowded
  obtain ⟨one, isOne, oneVoter⟩ := List.mem_map.mp inFirst
  obtain ⟨two, isTwo, twoVoter⟩ := List.mem_map.mp inSecond
  obtain ⟨_, _, oneEpoch, oneCandidate, _⟩ := firstCertifies.identity one isOne
  obtain ⟨_, _, twoEpoch, twoCandidate, _⟩ := secondCertifies.identity two isTwo
  rw [← oneCandidate, ← twoCandidate]
  exact sound.single one (firstVotes isOne) two (secondVotes isTwo)
    (firstCertifies.granted one isOne).1 (secondCertifies.granted two isTwo).1
    (oneVoter.trans twoVoter.symm) (by rw [oneEpoch, twoEpoch, sameEpoch])

open QuorumFenceCertificateV1

/-- Two certificates for one epoch name one candidate, and the durable promise of a voter
never returns to an earlier epoch or changes its candidate within one. -/
theorem election_safety (voters : List ReplicationSourceHoldIdV1)
    (view : ReplicationSourceHoldIdV1 → View)
    (promise : ReplicationSourceHoldIdV1 → Option Promise) (events : List Event) :
    (∀ databaseId historyIncarnation promisedEpoch sourceEpoch otherSourceEpoch candidate rival
      applied rivalApplied votes rivalVotes first second,
      votes ⊆ (after voters view promise events).votes →
      rivalVotes ⊆ (after voters view promise events).votes →
      QuorumFenceCertificateV1.new databaseId historyIncarnation sourceEpoch promisedEpoch
        candidate applied voters votes = .ok first →
      QuorumFenceCertificateV1.new databaseId historyIncarnation otherSourceEpoch promisedEpoch
        rival rivalApplied voters rivalVotes = .ok second →
      candidate = rival ∧ first.candidateHoldId = second.candidateHoldId) ∧
    ∀ voter more durable, ((after voters view promise events).nodes voter).synced = some durable →
      ∃ later, ((after voters view promise (events ++ more)).nodes voter).synced = some later ∧
        durable.epoch.get ≤ later.epoch.get ∧
        (later.epoch = durable.epoch → later.candidate = durable.candidate) := by
  have sound := sound_after voters view promise events
  constructor
  · intro databaseId historyIncarnation promisedEpoch sourceEpoch otherSourceEpoch candidate rival
      applied rivalApplied votes rivalVotes first second included rivalIncluded accepted
      rivalAccepted
    obtain ⟨certifies, perm, _, _, _, epoch, named, _⟩ := new_eq_ok accepted
    obtain ⟨rivalCertifies, rivalPerm, _, _, _, rivalEpoch, rivalNamed, _⟩ :=
      new_eq_ok rivalAccepted
    have same := candidate_unique sound certifies rivalCertifies
      (fun vote member => included (perm.mem_iff.mp member))
      (fun vote member => rivalIncluded (rivalPerm.mem_iff.mp member))
      (epoch.trans rivalEpoch.symm)
    exact ⟨by rw [← named, ← rivalNamed, same], same⟩
  · intro voter more durable isDurable
    have advanced : Advances ((after voters view promise events).nodes voter).synced
        ((after voters view promise (events ++ more)).nodes voter).synced := by
      unfold after
      rw [run_append]
      exact synced_run sound more voter
    obtain ⟨later, isLater, order⟩ := advanced durable isDurable
    refine ⟨later, isLater, ?_⟩
    rcases order with rfl | above
    · exact ⟨le_rfl, fun _ => rfl⟩
    · refine ⟨above.le, fun same => ?_⟩
      rw [same] at above
      exact absurd above (lt_irrefl _)

/-- Whatever attempts overlap and wherever nodes crash, the promise of a granted vote stays durable
at its voter until a later one replaces it, and no voter grants an epoch to two candidates. -/
theorem granted_votes_durable (view : ReplicationSourceHoldIdV1 → View)
    (promise : ReplicationSourceHoldIdV1 → Option Promise) (events : List Event) :
    let election := after voters view promise events
    (∀ vote ∈ election.votes, vote.granted = true → ∃ durable,
      (election.nodes vote.voterHoldId).synced = some durable ∧
        (durable = ⟨vote.promisedEpoch, vote.candidateHoldId⟩ ∨
          vote.promisedEpoch.get < durable.epoch.get)) ∧
    ∀ first ∈ election.votes, ∀ second ∈ election.votes, first.granted = true →
      second.granted = true →
      first.voterHoldId = second.voterHoldId → first.promisedEpoch = second.promisedEpoch →
      first.candidateHoldId = second.candidateHoldId := by
  have sound := sound_after voters view promise events
  exact ⟨fun vote member granted => sound.covered vote member granted _ rfl, sound.single⟩

end Election

end ElectionSafety
