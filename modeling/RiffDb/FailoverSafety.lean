import RiffDb.Failover

/-!
# Released commits and certificates

The argument needs every voter to stand, when its promise is granted, exactly at the position it has
sampled, and to stay there: then the voter that acknowledged a commit and voted for a candidate
binds the one to the other. The code enforces neither half: the handler samples the published view
before it takes the storage lock and raises the fence, and a candidate's own promise raises no
fence. Two runs at the end show what follows.
-/

namespace FailoverSafety

open CheckedCode ReplicationTypes ReplicationQuorum ChangelogHistory SourceHolds SourceProgress
  EpochPromise Quorums Runs Failover ReplicationSourceHoldV1 ChangelogHistoryPointV3 List Function

/-- The order of published points. -/
def Before (earlier later : ChangelogHistoryPointV3) : Prop :=
  earlier.sequence.get < later.sequence.get ∧
    sequenceValue earlier.frontier.application ≤ sequenceValue later.frontier.application

theorem application_le_of_sequence {chain : List ChangelogHistoryPointV3}
    (ordered : chain.Pairwise Before) {first second : ChangelogHistoryPointV3}
    (isFirst : first ∈ chain) (isSecond : second ∈ chain)
    (order : first.sequence.get ≤ second.sequence.get) :
    sequenceValue first.frontier.application ≤ sequenceValue second.frontier.application := by
  by_cases same : first = second
  · rw [same]
  · have comparable : chain.Pairwise fun first second => Before first second ∨
        Before second first := ordered.imp Or.inl
    have symmetric : Std.Symm fun first second => Before first second ∨ Before second first :=
      ⟨fun _ _ => Or.symm⟩
    rcases comparable.forall isFirst isSecond same with before | after
    · exact before.2
    · exact absurd after.1 (Nat.not_lt_of_le order)

/-- A follower that cannot move: it stands at the position it voted with, no frame is on its
way into its store, and its durable promise is beyond its lineage. -/
structure Sealed (replica : Replica) (position : ReplicationEpochVotePositionV1) : Prop where
  applied : positionOf replica.applied = position
  quiet : ∀ covered, replica.receiver ≠ .admitted covered
  promised : ∃ promise, replica.node.synced = some promise ∧
    replica.node.view.lineage.leadershipEpoch.get < promise.epoch.get

/-- Enough voters stand, in the rows of the primary, at the commit or beyond. -/
def Acknowledged (voters : List ReplicationSourceHoldIdV1) (required : ℕ+) (rows : HoldRows)
    (commit : CommitSequence) : Prop :=
  ∃ group : List ReplicationSourceHoldIdV1, group.Nodup ∧ group ⊆ voters ∧
    required ≤ group.length ∧ ∀ voter ∈ group, ∃ state,
      rows.get (ReplicationSourceHoldV1.storageKeyFor voter .followerAcknowledgement) =
        some state ∧ commit.get ≤ sequenceValue state.hold.fence.frontier.application

/-- What holds of one follower. -/
structure Follows (lineage : ChangelogLineageV3) (chain : List ChangelogHistoryPointV3)
    (voter : ReplicationSourceHoldIdV1) (replica : Replica) : Prop where
  node : ElectionSafety.Sound replica.node
  holdId : replica.node.holdId = voter
  lineage : replica.node.view.lineage = lineage
  applied : replica.applied ∈ chain
  incoming : ∀ covered, replica.receiver = .received covered ∨
    replica.receiver = .admitted covered →
      covered ∈ chain ∧ replica.applied.sequence.get < covered.sequence.get
  decided : ∀ id attempt effective, replica.node.attempts id = some attempt →
    attempt.stage = .decided true effective → Sealed replica attempt.voterApplied

/-- The invariant of runs in which positions are held. -/
structure Sound (voters : List ReplicationSourceHoldIdV1) (required : ℕ+)
    (lineage : ChangelogLineageV3) (cluster : Cluster) : Prop where
  ordered : cluster.primary.chain.Pairwise Before
  head : ∀ point ∈ cluster.primary.chain,
    point.sequence.get ≤ cluster.primary.history.tail.sequence.get ∧
      sequenceValue point.frontier.application ≤
        sequenceValue cluster.primary.history.tail.frontier.application
  rows : cluster.primary.rows.Ordered
  follows : ∀ voter, Follows lineage cluster.primary.chain voter (cluster.replicas voter)
  reports : ∀ report ∈ cluster.reports, report.2 ∈ cluster.primary.chain ∧
    report.2.sequence.get ≤ (cluster.replicas report.1).applied.sequence.get
  recorded : ∀ voter state, cluster.primary.rows.get
      (ReplicationSourceHoldV1.storageKeyFor voter .followerAcknowledgement) = some state →
    state.hold.fence ∈ cluster.primary.chain ∧
      state.hold.fence.sequence.get ≤ (cluster.replicas voter).applied.sequence.get
  released : ∀ commit ∈ cluster.released,
    Acknowledged voters required cluster.primary.rows commit
  votes : ∀ vote ∈ cluster.votes, vote.granted = true →
    Sealed (cluster.replicas vote.voterHoldId) vote.voterApplied

variable {voters : List ReplicationSourceHoldIdV1} {required : ℕ+} {lineage : ChangelogLineageV3}
  {cluster : Cluster}

theorem sound_initial (initial : cluster.Initial lineage) :
    Sound voters required lineage cluster := by
  obtain ⟨noReports, noVotes, noReleases⟩ := initial.quiet
  refine ⟨?_, ?_, initial.rows, ?_, ?_, initial.recorded, ?_, ?_⟩
  · refine initial.ordered.imp ?_
    rintro earlier later ⟨before, precedes⟩
    exact ⟨before, precedesOrEquals_application precedes⟩
  · intro point inside
    have precedes := initial.covered point inside
    exact ⟨precedesOrEquals_sequence precedes, precedesOrEquals_application precedes⟩
  · intro voter
    obtain ⟨promise, started⟩ := initial.started voter
    refine ⟨?_, ?_, ?_, initial.applied voter, ?_, ?_⟩
    · rw [started]
      exact ElectionSafety.sound_start _ _ (ElectionSafety.Advances.refl _)
    · rw [started]
      rfl
    · rw [started]
      rfl
    · intro covered incoming
      rw [initial.closed voter] at incoming
      rcases incoming with impossible | impossible <;> cases impossible
    · intro id attempt effective found
      rw [started] at found
      cases found
  · intro report member
    rw [noReports] at member
    cases member
  · intro commit member
    rw [noReleases] at member
    cases member
  · intro vote member
    rw [noVotes] at member
    cases member

variable {replica : Replica}

open Cluster

/-- A follower moves without going back, and whatever sealed it still does. -/
theorem Sound.move (sound : Sound voters required lineage cluster)
    {voter : ReplicationSourceHoldIdV1}
    (follows : Follows lineage cluster.primary.chain voter replica)
    (forward : (cluster.replicas voter).applied.sequence.get ≤ replica.applied.sequence.get)
    (kept : ∀ position, Sealed (cluster.replicas voter) position → Sealed replica position) :
    Sound voters required lineage (cluster.setReplica voter replica) := by
  have later : ∀ other, (cluster.replicas other).applied.sequence.get ≤
      ((cluster.setReplica voter replica).replicas other).applied.sequence.get := by
    intro other
    by_cases same : other = voter
    · subst same
      simpa [setReplica] using forward
    · simp [setReplica, same]
  refine ⟨sound.ordered, sound.head, sound.rows, ?_, ?_, ?_, sound.released, ?_⟩
  · intro other
    by_cases same : other = voter
    · subst same
      simpa [setReplica] using follows
    · simpa [setReplica, same] using sound.follows other
  · intro report member
    obtain ⟨inside, bounded⟩ := sound.reports report member
    exact ⟨inside, bounded.trans (later report.1)⟩
  · intro other state found
    obtain ⟨inside, bounded⟩ := sound.recorded other state found
    exact ⟨inside, bounded.trans (later other)⟩
  · intro vote member granted
    have before := sound.votes vote member granted
    by_cases same : vote.voterHoldId = voter
    · simp only [setReplica, same, update_self]
      exact kept _ (same ▸ before)
    · simpa [setReplica, same] using before

variable {position : ReplicationEpochVotePositionV1}

section Receiving

variable {chain : List ChangelogHistoryPointV3} {voter : ReplicationSourceHoldIdV1}
  {replica : Replica}

/-- A follower whose node, position and incoming frame are kept. -/
theorem Follows.receiver (follows : Follows lineage chain voter replica) {receiver : Receiver}
    (acknowledgement : Option ChangelogHistoryPointV3)
    (incoming : ∀ covered, receiver = .received covered ∨ receiver = .admitted covered →
      covered ∈ chain ∧ replica.applied.sequence.get < covered.sequence.get)
    (kept : ∀ position, Sealed replica position →
      Sealed ⟨replica.node, replica.applied, acknowledgement, receiver⟩ position) :
    Follows lineage chain voter ⟨replica.node, replica.applied, acknowledgement, receiver⟩ :=
  ⟨follows.node, follows.holdId, follows.lineage, follows.applied, incoming,
    fun id attempt effective found decided =>
      kept _ (follows.decided id attempt effective found decided)⟩

/-- A receiver that does not admit a frame breaks no seal. -/
theorem Sealed.receiver (isSealed : Sealed replica position) {receiver : Receiver}
    (acknowledgement : Option ChangelogHistoryPointV3)
    (quiet : ∀ covered, receiver ≠ .admitted covered) :
    Sealed ⟨replica.node, replica.applied, acknowledgement, receiver⟩ position :=
  ⟨isSealed.applied, quiet, isSealed.promised⟩

section

variable (sound : Sound voters required lineage cluster)

include sound

/-- A move of the receiver that neither takes nor admits a frame. -/
theorem Sound.settle {receiver : Receiver}
    (acknowledgement : Option ChangelogHistoryPointV3)
    (untaken : ∀ covered, receiver ≠ .received covered)
    (quiet : ∀ covered, receiver ≠ .admitted covered) :
    Sound voters required lineage (cluster.setReplica voter
      ⟨(cluster.replicas voter).node, (cluster.replicas voter).applied, acknowledgement,
      receiver⟩) := by
  refine sound.move ((sound.follows voter).receiver acknowledgement ?_ ?_) le_rfl ?_
  · rintro covered (taken | admitted)
    · exact absurd taken (untaken covered)
    · exact absurd admitted (quiet covered)
  all_goals exact fun position isSealed => isSealed.receiver acknowledgement quiet

theorem Sound.unmoved (voter : ReplicationSourceHoldIdV1) :
    Sound voters required lineage (cluster.setReplica voter (cluster.replicas voter)) :=
  sound.move (sound.follows voter) le_rfl fun _ isSealed => isSealed

theorem Sound.openStream : Sound voters required lineage
      (cluster.setReplica voter (cluster.replicas voter).openStream) := by
  unfold Replica.openStream
  split
  · exact sound.settle _ (by simp) (by simp)
  · exact sound.unmoved voter

theorem Sound.closeStream : Sound voters required lineage
      (cluster.setReplica voter (cluster.replicas voter).closeStream) := by
  unfold Replica.closeStream
  split
  · exact sound.settle _ (by simp) (by simp)
  · exact sound.unmoved voter

theorem Sound.acknowledge : Sound voters required lineage
      (cluster.setReplica voter (cluster.replicas voter).acknowledge) := by
  unfold Replica.acknowledge
  split
  · exact sound.settle _ (by simp) (by simp)
  · exact sound.unmoved voter

theorem Sound.receive {covered : ChangelogHistoryPointV3}
    (published : covered ∈ cluster.primary.chain) :
    Sound voters required lineage
      (cluster.setReplica voter ((cluster.replicas voter).receive covered)) := by
  unfold Replica.receive
  split
  · split
    · exact sound.settle _ (by simp) (by simp)
    · next fresh =>
      have beyond : (cluster.replicas voter).applied.sequence.get < covered.sequence.get := by
        rw [not_or] at fresh
        exact Nat.lt_of_not_le fresh.2
      have quiet : ∀ position, Sealed (cluster.replicas voter) position →
          Sealed { cluster.replicas voter with receiver := .received covered } position :=
        fun position isSealed => isSealed.receiver _ (by simp)
      refine sound.move ((sound.follows voter).receiver _ ?_ quiet) le_rfl quiet
      rintro other (taken | admitted)
      · cases taken
        exact ⟨published, beyond⟩
      · cases admitted
  · exact sound.unmoved voter

/-- A frame is admitted only where no promise is beyond the lineage, so no seal is broken. -/
theorem Sound.recheckFence (held : cluster.PositionHeld (.recheckFence voter)) :
    Sound voters required lineage
      (cluster.setReplica voter (cluster.replicas voter).recheckFence) := by
  unfold Replica.recheckFence
  split
  · next covered taken =>
    split
    · exact sound.settle _ (by simp) (by simp)
    · next passed =>
      have unsealed : ∀ position, ¬ Sealed (cluster.replicas voter) position := by
        intro position isSealed
        obtain ⟨promise, synced, beyond⟩ := isSealed.promised
        have received : (cluster.replicas voter).receiver.isReceived = true := by rw [taken]; rfl
        have within := held received (Bool.eq_false_iff.mpr passed) promise synced
        exact absurd within (Nat.not_le_of_lt beyond)
      have kept : ∀ position, Sealed (cluster.replicas voter) position →
          Sealed { cluster.replicas voter with receiver := .admitted covered } position :=
        fun position isSealed => absurd isSealed (unsealed position)
      refine sound.move ((sound.follows voter).receiver _ ?_ kept) le_rfl kept
      rintro other (impossible | admitted)
      · cases impossible
      · cases admitted
        exact (sound.follows voter).incoming covered (Or.inl taken)
  · exact sound.unmoved voter

theorem Sound.commit : Sound voters required lineage
      (cluster.setReplica voter (cluster.replicas voter).commit) := by
  unfold Replica.commit
  split
  · next covered admitted =>
    have follows := sound.follows voter
    have unsealed : ∀ position, ¬ Sealed (cluster.replicas voter) position :=
      fun position isSealed => isSealed.quiet covered admitted
    obtain ⟨inside, beyond⟩ := follows.incoming covered (Or.inr admitted)
    refine sound.move ⟨follows.node, follows.holdId, follows.lineage, inside, ?_, ?_⟩ beyond.le
      fun position isSealed => absurd isSealed (unsealed position)
    · rintro other (impossible | impossible) <;> cases impossible
    · intro id attempt effective found decided
      exact absurd (follows.decided id attempt effective found decided) (unsealed _)
  · exact sound.unmoved voter

end

end Receiving

section Voting

variable {node next : VoterNode} {voter : ReplicationSourceHoldIdV1} {event : NodeEvent}

/-- A step of the promise machinery keeps the view, and an attempt is newly granted only by
raising the fence for a durable promise. -/
structure Moves (node : VoterNode) (event : NodeEvent) (next : VoterNode) : Prop where
  view : next.view = node.view
  granted : ∀ id attempt effective, next.attempts id = some attempt →
    attempt.stage = .decided true effective → node.attempts id = some attempt ∨
      (event = .raiseFence id ∧ ∃ before, node.attempts id = some before ∧
        before.stage = .persisted ∧ before.voterApplied = attempt.voterApplied)

theorem Moves.same : Moves node event node := ⟨rfl, fun _ _ _ found _ => Or.inl found⟩

variable {id : Nat}

/-- One attempt changes, to something that is not granted. -/
theorem Moves.change {changed : Option Attempt} (view : next.view = node.view)
    (attempts : next.attempts = Function.update node.attempts id changed)
    (ungranted : ∀ attempt, changed = some attempt →
      ∀ effective, attempt.stage ≠ .decided true effective) : Moves node event next := by
  refine ⟨view, ?_⟩
  intro other attempt effective found granted
  rw [attempts] at found
  by_cases same : other = id
  · subst same
    rw [update_self] at found
    exact absurd granted (ungranted attempt found effective)
  · rw [update_of_ne same] at found
    exact Or.inl found

theorem Moves.drop (id : Nat) : Moves node event (node.drop id) := .change rfl rfl (by simp)

variable {attempt : Attempt}

/-- The attempt is set to a stage that is not granted. -/
theorem Moves.stage (view : next.view = node.view)
    (attempts : next.attempts = Function.update node.attempts id (some attempt))
    (ungranted : ∀ effective, attempt.stage ≠ .decided true effective) : Moves node event next := by
  refine .change view attempts ?_
  rintro _ ⟨⟩
  exact ungranted

theorem moves_requestEpochVote (id : Nat) (request : ReplicationEpochVoteRequestV1) :
    Moves node event (node.step voters (.requestEpochVote id request)).1 := by
  unfold VoterNode.step VoterNode.requestEpochVote
  dsimp only
  split
  · split
    · exact .stage rfl rfl (by simp)
    · exact .same
  · exact .same

theorem moves_collectQuorumFenceEvidence (id : Nat) :
    Moves node event (node.step voters (.collectQuorumFenceEvidence id)).1 := by
  unfold VoterNode.step VoterNode.collectQuorumFenceEvidence
  dsimp only
  split
  · split
    · split
      · exact .same
      · exact .stage rfl rfl (by simp)
    · exact .same
  · exact .same

theorem moves_takeLock (id : Nat) : Moves node event (node.step voters (.takeLock id)).1 := by
  unfold VoterNode.step VoterNode.takeLock
  dsimp only
  split
  · split
    · split
      · exact .stage rfl rfl (by simp)
      · split
        · exact .stage rfl rfl (by simp)
        · exact .drop id
    · exact .same
  · exact .same

theorem moves_persist (id : Nat) : Moves node event (node.step voters (.persist id)).1 := by
  unfold VoterNode.step VoterNode.persist VoterNode.refuse
  dsimp only
  split
  · exact .same
  · split
    · split
      · exact .stage rfl rfl (by simp)
      · split
        · split
          · exact .drop id
          · exact .stage rfl rfl (by simp)
        · exact .stage rfl rfl (by simp)
        · exact .stage rfl rfl (by simp)
    · exact .same

/-- The only step that grants: the fence is raised for a promise that is already durable. -/
theorem moves_raiseFence (id : Nat) :
    Moves node (.raiseFence id) (node.step voters (.raiseFence id)).1 := by
  unfold VoterNode.step
  dsimp only
  split
  · exact .same
  · next before isBefore =>
    split
    · next persisted =>
      refine ⟨rfl, ?_⟩
      intro other attempt effective found granted
      change Function.update node.attempts id _ other = _ at found
      by_cases same : other = id
      · subst same
        rw [update_self] at found
        cases found
        exact Or.inr ⟨rfl, before, isBefore, persisted, rfl⟩
      · rw [update_of_ne same] at found
        exact Or.inl found
    · exact .same

theorem moves_step (voting : isVoteEvent event = true) :
    Moves node event (node.step voters event).1 := by
  cases event with
  | publish tail => cases voting
  | restart keepsRename view => cases voting
  | requestEpochVote id request => exact moves_requestEpochVote id request
  | collectQuorumFenceEvidence id => exact moves_collectQuorumFenceEvidence id
  | takeLock id => exact moves_takeLock id
  | persist id => exact moves_persist id
  | sync id =>
    unfold VoterNode.step
    dsimp only
    split
    · exact .same
    · split
      · exact .stage rfl rfl (by simp)
      · exact .same
  | raiseFence id => exact moves_raiseFence id
  | reply id =>
    unfold VoterNode.step
    dsimp only
    split
    · exact .same
    · split
      · exact .drop id
      · exact .same
  | fail id => exact .drop id

/-- A returned grant comes from a granted attempt and carries its sample. -/
theorem vote_of_step {vote : ReplicationEpochVoteV1}
    (returned : (node.step voters event).2 = some vote) (granted : vote.granted = true) :
    ∃ id attempt effective, node.attempts id = some attempt ∧
      attempt.stage = .decided true effective ∧ attempt.voterApplied = vote.voterApplied := by
  unfold VoterNode.step at returned
  split at returned
  case h_8 id =>
    split at returned
    · cases returned
    · next attempt found =>
      split at returned
      · next isGranted effective decided =>
        obtain ⟨_, _, _, _, _, _, sample, same⟩ := ReplicationEpochVoteV1.new_eq_some.mp returned
        rw [granted] at same
        subst same
        exact ⟨id, attempt, effective, found, decided, sample⟩
      · cases returned
  case h_4 id =>
    split at returned <;> cases returned
  case h_5 id =>
    split at returned
    · cases returned
    · split at returned <;> cases returned
  case h_6 id =>
    split at returned <;> cases returned
  case h_7 id =>
    split at returned <;> cases returned
  all_goals cases returned

/-- A durable promise that advances stays beyond the lineage. -/
theorem promised_of_advances {limit : Nat} {before after : Option Promise}
    (advances : ElectionSafety.Advances before after)
    (promised : ∃ promise, before = some promise ∧ limit < promise.epoch.get) :
    ∃ promise, after = some promise ∧ limit < promise.epoch.get := by
  obtain ⟨promise, isPromise, beyond⟩ := promised
  obtain ⟨later, isLater, order⟩ := advances promise isPromise
  refine ⟨later, isLater, ?_⟩
  rcases order with rfl | above
  · exact beyond
  · exact beyond.trans above

/-- A granted attempt has synced a promise beyond the lineage. -/
theorem promised_of_granted (sound : ElectionSafety.Sound node) {effective : LeadershipEpochV1}
    (found : node.attempts id = some attempt) (granted : attempt.stage = .decided true effective) :
    ∃ promise, node.synced = some promise ∧
      node.view.lineage.leadershipEpoch.get < promise.epoch.get := by
  have backed := sound.backed id attempt found
  obtain ⟨_, _, synced⟩ := backed.granted effective granted
  refine ⟨_, synced, ?_⟩
  have next : attempt.proposed.get = attempt.lineage.leadershipEpoch.get + 1 :=
    NonZeroU64.checkedNext_eq_some.mp attempt.successor
  rw [← backed.lineage]
  change _ < attempt.proposed.get
  omega

theorem Sealed.vote (isSealed : Sealed replica position) (view : next.view = replica.node.view)
    (durable : ElectionSafety.Advances replica.node.synced next.synced) :
    Sealed { replica with node := next } position := by
  refine ⟨isSealed.applied, isSealed.quiet, ?_⟩
  have kept := promised_of_advances durable isSealed.promised
  rw [← view] at kept
  exact kept

section

variable (sound : Sound voters required lineage cluster)

include sound

/-- A step of the promise machinery; the votes it returns are sealed. -/
theorem Sound.vote (voting : isVoteEvent event = true)
    (held : cluster.PositionHeld (.vote voter event)) :
    Sound voters required lineage (cluster.step voters required (.vote voter event)) := by
  have follows := sound.follows voter
  have safe := ElectionSafety.safe_step follows.node voters event
  have moves : Moves (cluster.replicas voter).node event
      ((cluster.replicas voter).node.step voters event).1 := moves_step voting
  have kept : ∀ position, Sealed (cluster.replicas voter) position →
      Sealed { cluster.replicas voter with
        node := ((cluster.replicas voter).node.step voters event).1 } position :=
    fun position isSealed => isSealed.vote moves.view safe.durable
  have moved : Sound voters required lineage (cluster.setReplica voter { cluster.replicas voter with
        node := ((cluster.replicas voter).node.step voters event).1 }) := by
    refine sound.move ⟨safe.sound, safe.holdId.trans follows.holdId, ?_, follows.applied,
      follows.incoming, ?_⟩ le_rfl kept
    · exact (congrArg View.lineage moves.view).trans follows.lineage
    · intro id attempt effective found granted
      rcases moves.granted id attempt effective found granted with
        before | ⟨rfl, before, isBefore, persisted, sample⟩
      · exact kept _ (follows.decided id attempt effective before granted)
      · obtain ⟨current, quiet⟩ := held before isBefore persisted
        refine ⟨current.trans sample, fun covered admitted => ?_,
          promised_of_granted safe.sound found granted⟩
        rw [admitted] at quiet
        cases quiet
  rw [step, if_pos voting]
  refine ⟨moved.ordered, moved.head, moved.rows, moved.follows, moved.reports, moved.recorded,
    moved.released, ?_⟩
  intro vote member granted
  rcases mem_append.mp member with old | new
  · exact moved.votes vote old granted
  · have returned := Option.mem_toList.mp new
    obtain ⟨id, attempt, effective, found, decided, sample⟩ := vote_of_step returned granted
    have owner : vote.voterHoldId = voter := (safe.vote vote returned).1.trans follows.holdId
    have isSealed := kept _ (follows.decided id attempt effective found decided)
    rw [owner]
    simp only [setReplica, update_self]
    rw [← sample]
    exact isSealed

theorem Sound.publishView : Sound voters required lineage
      (cluster.setReplica voter ((cluster.replicas voter).publishView voters)) := by
  unfold Replica.publishView
  split
  · have follows := sound.follows voter
    have safe := ElectionSafety.safe_step follows.node voters
      (.publish (cluster.replicas voter).applied)
    have kept : ∀ position, Sealed (cluster.replicas voter) position →
        Sealed { cluster.replicas voter with
          node := ((cluster.replicas voter).node.step voters
            (.publish (cluster.replicas voter).applied)).1
          receiver := .streaming } position :=
      fun position isSealed => ⟨isSealed.applied, by simp, isSealed.promised⟩
    refine sound.move ⟨safe.sound, safe.holdId.trans follows.holdId, follows.lineage,
      follows.applied, ?_, ?_⟩ le_rfl kept
    · rintro covered (impossible | impossible) <;> cases impossible
    · intro id attempt effective found granted
      exact kept _ (follows.decided id attempt effective found granted)
  · exact sound.unmoved voter

theorem Sound.restart (keepsRename : Bool) : Sound voters required lineage
      (cluster.setReplica voter ((cluster.replicas voter).restart voters keepsRename)) := by
  have follows := sound.follows voter
  have safe := ElectionSafety.safe_step follows.node voters
    (.restart keepsRename ⟨(cluster.replicas voter).node.view.lineage,
      (cluster.replicas voter).applied⟩)
  refine sound.move ⟨safe.sound, safe.holdId.trans follows.holdId, follows.lineage,
    follows.applied, ?_, ?_⟩ le_rfl ?_
  · rintro covered (impossible | impossible) <;> cases impossible
  · intro id attempt effective found
    cases found
  · intro position isSealed
    exact ⟨isSealed.applied, by simp [Replica.restart], isSealed.promised⟩

theorem Sound.report : Sound voters required lineage (cluster.report voter) := by
  unfold Cluster.report
  dsimp only
  split
  · have settled : Sound voters required lineage (cluster.setReplica voter
        ⟨(cluster.replicas voter).node, (cluster.replicas voter).applied,
          some (cluster.replicas voter).applied, .streaming⟩) :=
      sound.settle _ (by simp) (by simp)
    refine ⟨settled.ordered, settled.head, settled.rows, settled.follows, ?_, settled.recorded,
      settled.released, settled.votes⟩
    intro report member
    rcases mem_cons.mp member with rfl | old
    · refine ⟨(sound.follows voter).applied, ?_⟩
      simp [setReplica]
    · exact settled.reports report old
  · exact sound

end

end Voting

variable {commit : CommitSequence}

section Publishing

variable {voter : ReplicationSourceHoldIdV1}

theorem Follows.mono {chain longer : List ChangelogHistoryPointV3}
    (follows : Follows lineage chain voter replica) (included : chain ⊆ longer) :
    Follows lineage longer voter replica :=
  ⟨follows.node, follows.holdId, follows.lineage, included follows.applied,
    fun covered incoming => ⟨included (follows.incoming covered incoming).1,
      (follows.incoming covered incoming).2⟩, follows.decided⟩

theorem Sound.publishFrame (sound : Sound voters required lineage cluster)
    (point : ChangelogHistoryPointV3) : Sound voters required lineage
      { cluster with primary := cluster.primary.publishFrame point } := by
  unfold Primary.publishFrame
  split
  · next advances =>
    split
    · exact sound
    · next history built =>
      obtain ⟨_, _, tail, _⟩ := ChangelogHistoryStateV3.new_eq_ok.mp built
      have application := precedesOrEquals_application advances.2
      have below : ∀ earlier ∈ cluster.primary.chain, Before earlier point := by
        intro earlier inside
        obtain ⟨sequences, applications⟩ := sound.head earlier inside
        exact ⟨lt_of_le_of_lt sequences advances.1, applications.trans application⟩
      have included : cluster.primary.chain ⊆ cluster.primary.chain ++ [point] :=
        subset_append_left _ _
      refine ⟨?_, ?_, sound.rows, fun voter => (sound.follows voter).mono included, ?_, ?_,
        sound.released, sound.votes⟩
      · refine pairwise_append.mpr ⟨sound.ordered, pairwise_singleton _ _, ?_⟩
        intro earlier inside later isLast
        rw [mem_singleton.mp isLast]
        exact below earlier inside
      · intro earlier inside
        change earlier.sequence.get ≤ history.tail.sequence.get ∧
          _ ≤ sequenceValue history.tail.frontier.application
        rw [← tail]
        rcases mem_append.mp inside with old | new
        · exact ⟨(below earlier old).1.le, (below earlier old).2⟩
        · rw [mem_singleton.mp new]
          exact ⟨le_rfl, le_rfl⟩
      · intro report member
        exact ⟨included (sound.reports report member).1, (sound.reports report member).2⟩
      · intro voter state found
        exact ⟨included (sound.recorded voter state found).1, (sound.recorded voter state found).2⟩
  · exact sound

open HoldRows

/-- Moving one row to a later point of the history keeps every quorum. -/
theorem Acknowledged.insert {rows : HoldRows}
    (acknowledged : Acknowledged voters required rows commit)
    {prior state : ReplicationSourceHoldStateV1}
    (isPrior : rows.get (storageKeyFor voter .followerAcknowledgement) = some prior)
    (later : sequenceValue prior.hold.fence.frontier.application ≤
      sequenceValue state.hold.fence.frontier.application) :
    Acknowledged voters required (rows.insert
      (storageKeyFor voter .followerAcknowledgement) state) commit := by
  obtain ⟨group, distinct, configured, enough, reached⟩ := acknowledged
  refine ⟨group, distinct, configured, enough, ?_⟩
  intro member inGroup
  obtain ⟨row, found, reaches⟩ := reached member inGroup
  by_cases same : member = voter
  · subst same
    rw [isPrior] at found
    cases found
    exact ⟨state, by rw [get_insert, if_pos rfl], reaches.trans later⟩
  · refine ⟨row, ?_, reaches⟩
    rw [get_insert, if_neg fun equal => same (storageKeyFor_injective equal).1]
    exact found

theorem Sound.deliverReport (sound : Sound voters required lineage cluster)
    {point : ChangelogHistoryPointV3} (reported : (voter, point) ∈ cluster.reports) :
    Sound voters required lineage
      { cluster with primary := cluster.primary.acknowledge voter point } := by
  unfold Primary.acknowledge
  split
  · exact sound
  · next rows acknowledged =>
    rcases SourceControl.acknowledgeFollower_eq_ok acknowledged with
      same | ⟨prior, state, isPrior, later, retained, hold, rfl⟩
    · subst same
      exact sound
    · obtain ⟨inside, bounded⟩ := sound.reports _ reported
      obtain ⟨priorInside, _⟩ := sound.recorded voter prior isPrior
      have fence : state.hold.fence = point := by rw [hold]
      have applications := application_le_of_sequence sound.ordered priorInside inside later.le
      refine ⟨sound.ordered, sound.head, sound.rows.put _ state, sound.follows, sound.reports,
        ?_, ?_, sound.votes⟩
      · intro other row found
        by_cases same : other = voter
        · subst same
          have isNew := found
          rw [storageKey] at isNew
          change HoldRows.get (.insert _ state _) _ = _ at isNew
          rw [get_insert, if_pos rfl] at isNew
          cases isNew
          rw [fence]
          exact ⟨inside, bounded⟩
        · have different : storageKeyFor other .followerAcknowledgement ≠
              storageKeyFor voter .followerAcknowledgement :=
            fun equal => same (storageKeyFor_injective equal).1
          change HoldRows.get (.insert _ state _) _ = _ at found
          rw [storageKey, get_insert, if_neg different] at found
          exact sound.recorded other row found
      · intro commit member
        refine (sound.released commit member).insert isPrior ?_
        rw [fence]
        exact applications

theorem Sound.releaseCommit (sound : Sound voters required lineage cluster)
    (quorum : cluster.primary.hasQuorum voters required commit = true) :
    Sound voters required lineage { cluster with released := commit :: cluster.released } := by
  refine ⟨sound.ordered, sound.head, sound.rows, sound.follows, sound.reports, sound.recorded, ?_,
    sound.votes⟩
  intro other member
  rcases mem_cons.mp member with rfl | earlier
  · unfold Primary.hasQuorum at quorum
    split at quorum
    · cases quorum
    · next progress observed =>
      obtain ⟨id, state, present, _, reached, group, distinct, configured, enough, stands⟩ :=
        quorum_rows sound.rows.nodup_keys observed quorum
      have inside := (sound.recorded id state (sound.rows.mem_iff.mp present)).1
      refine ⟨group, distinct, configured, enough, ?_⟩
      intro voter inGroup
      obtain ⟨row, isRow, order, _⟩ := stands voter inGroup
      have found := sound.rows.mem_iff.mp isRow
      refine ⟨row, found, reached.trans ?_⟩
      exact application_le_of_sequence sound.ordered inside (sound.recorded voter row found).1 order
  · exact sound.released other earlier

end Publishing

theorem sound_step (event : Event) (sound : Sound voters required lineage cluster)
    (held : cluster.PositionHeld event) :
    Sound voters required lineage (cluster.step voters required event) := by
  cases event with
  | publishFrame point => exact sound.publishFrame point
  | deliverReport voter point =>
    unfold step
    dsimp only
    split
    · next reported => exact sound.deliverReport reported
    · exact sound
  | releaseCommit commit =>
    unfold step
    dsimp only
    split
    · next quorum => exact sound.releaseCommit quorum
    · exact sound
  | openStream voter => exact sound.openStream
  | report voter => exact sound.report
  | closeStream voter => exact sound.closeStream
  | receive voter covered =>
    unfold step
    dsimp only
    split
    · next published => exact sound.receive published
    · exact sound
  | recheckFence voter => exact sound.recheckFence held
  | commit voter => exact sound.commit
  | acknowledge voter => exact sound.acknowledge
  | publishView voter => exact sound.publishView
  | vote voter event =>
    by_cases voting : isVoteEvent event = true
    · exact sound.vote voting held
    · unfold step
      dsimp only
      rw [if_neg voting]
      exact sound
  | restart voter keepsRename => exact sound.restart keepsRename

/-- The candidate of a certificate is at least as far as every commit that was released: some
voter both acknowledged the commit and voted. -/
theorem Sound.covers (sound : Sound voters required lineage cluster)
    (overlap : voters.length < required + strictMajority voters.length)
    (released : commit ∈ cluster.released) {certificate : QuorumFenceCertificateV1}
    (certifies : certificate.Certifies voters) (returned : certificate.votes ⊆ cluster.votes) :
    commit.get ≤ sequenceValue certificate.candidateApplied.frontier.application := by
  obtain ⟨group, distinct, configured, enough, reached⟩ := sound.released commit released
  have crowded : voters.length < group.length + (certificate.votes.map (·.voterHoldId)).length := by
    have majority := certifies.majority
    rw [length_map]
    omega
  obtain ⟨voter, inGroup, inVotes⟩ := exists_common distinct certifies.distinct configured
    certifies.configured crowded
  obtain ⟨vote, isVote, rfl⟩ := mem_map.mp inVotes
  obtain ⟨granted, upToDate⟩ := certifies.granted vote isVote
  obtain ⟨state, found, reaches⟩ := reached vote.voterHoldId inGroup
  obtain ⟨inside, bounded⟩ := sound.recorded vote.voterHoldId state found
  have isSealed := sound.votes vote (returned isVote) granted
  have applied := (sound.follows vote.voterHoldId).applied
  calc commit.get
      ≤ sequenceValue state.hold.fence.frontier.application := reaches
    _ ≤ sequenceValue (cluster.replicas vote.voterHoldId).applied.frontier.application :=
      application_le_of_sequence sound.ordered inside applied bounded
    _ = sequenceValue vote.voterApplied.frontier.application := by
      rw [← isSealed.applied]
      rfl
    _ ≤ sequenceValue certificate.candidateApplied.frontier.application :=
      (ReplicationEpochVotePositionV1.isAtLeastAsUpToDateAs_iff.mp upToDate).2.1

open QuorumFenceCertificateV1

/-- Along every run in which positions are held, a certificate built for the next epoch from
returned votes covers every commit the primary ever releases. -/
theorem released_commits_survive (initial : cluster.Initial lineage)
    (overlap : voters.length < required + strictMajority voters.length) {events : List Event}
    (held : Meets (Cluster.step voters required) Cluster.PositionHeld cluster events) :
    ∀ commit ∈ (run (Cluster.step voters required) cluster events).released,
      ∀ promisedEpoch candidate candidateApplied votes certificate,
        votes ⊆ (run (Cluster.step voters required) cluster events).votes →
        QuorumFenceCertificateV1.new lineage.databaseId lineage.historyIncarnation.get
          lineage.leadershipEpoch promisedEpoch candidate candidateApplied voters votes =
            .ok certificate →
        commit.get ≤ sequenceValue certificate.candidateApplied.frontier.application := by
  intro commit released promisedEpoch candidate candidateApplied votes certificate returned accepted
  have sound : Sound voters required lineage (run (step voters required) cluster events) :=
    run_invariant_of_meets (P := Sound voters required lineage)
      (fun _ event sound held => sound_step event sound held) (sound_initial initial) held
  obtain ⟨certifies, perm, _⟩ := new_eq_ok accepted
  exact sound.covers overlap released certifies
    (fun vote member => returned (perm.mem_iff.mp member))

section Lost

open ReplicationSourceHoldIdV1

def sampleLineage : ChangelogLineageV3 := ⟨UuidV7.sample, .lit 1, .lit 1, .v1⟩

/-- The point every follower starts at. -/
def basePoint : ChangelogHistoryPointV3 :=
  ⟨.lit 5, List.Vector.replicate 32 0, ⟨some (.lit 3), none⟩⟩

/-- The next published point, which carries the next application commit. -/
def nextPoint : ChangelogHistoryPointV3 :=
  ⟨.lit 6, List.Vector.replicate 32 1, ⟨some (.lit 4), none⟩⟩

/-- A point behind the next one. -/
def finalPoint : ChangelogHistoryPointV3 :=
  ⟨.lit 7, List.Vector.replicate 32 2, ⟨some (.lit 5), none⟩⟩

/-- Voters that have all applied and acknowledged the base point. -/
def baseCluster (voters : List ReplicationSourceHoldIdV1) : Cluster where
  primary :=
    { chain := [basePoint]
      history := ⟨sampleLineage, basePoint, basePoint, basePoint, Eq.refl true, Eq.refl true⟩
      rows := voters.map fun voter =>
        (ReplicationSourceHoldV1.storageKeyFor voter .followerAcknowledgement,
          .legacy ⟨voter, .followerAcknowledgement, sampleLineage, basePoint⟩) }
  replicas voter := ⟨VoterNode.start voter ⟨sampleLineage, basePoint⟩ none none, basePoint, none,
    .closed⟩
  reports := []
  votes := []
  released := []

variable {voters : List ReplicationSourceHoldIdV1}

theorem initial_baseCluster
    (rows : (baseCluster voters).primary.rows.Ordered) :
      (baseCluster voters).Initial sampleLineage := by
  refine ⟨rfl, mem_singleton_self _, pairwise_singleton _ _, ?_, rows, ?_,
    fun _ => ⟨none, rfl⟩, fun _ => mem_singleton_self _, fun _ => rfl, ⟨rfl, rfl, rfl⟩⟩
  · intro point inside
    rw [mem_singleton.mp inside]
    exact precedesOrEquals_refl _
  · intro voter state found
    have fence : state.hold.fence = basePoint := by
      obtain ⟨listed, _, same⟩ := mem_map.mp (rows.mem_iff.mpr found)
      rw [← (Prod.mk.inj same).2]
      rfl
    rw [fence]
    exact ⟨mem_singleton_self _, le_rfl⟩

/-- The steps by which a voter becomes a candidate and votes for itself. -/
def candidacy (voter : ReplicationSourceHoldIdV1) : List Event :=
  [.collectQuorumFenceEvidence 0, .takeLock 0, .persist 0, .sync 0, .raiseFence 0,
    .reply 0].map (.vote voter)

/-- The steps by which a follower applies a point and reports it. -/
def replication (voter : ReplicationSourceHoldIdV1) (point : ChangelogHistoryPointV3) :
    List Event :=
  [.openStream voter, .report voter, .receive voter point, .recheckFence voter, .commit voter,
    .acknowledge voter, .publishView voter, .closeStream voter, .openStream voter, .report voter,
    .deliverReport voter point]

/-- The request of the first voter at the base point. -/
def baseRequest : ReplicationEpochVoteRequestV1 where
  requestId := UuidV7.sample
  candidateTarget := ⟨UuidV7.sample, .lit 1, .lit 1, filledWith 1⟩
  proposedEpoch := .lit 2
  candidateApplied := positionOf basePoint
  successor := by decide

/-- A released commit beyond an accepted certificate. -/
def LosesCommit (voters : List ReplicationSourceHoldIdV1) (required : ℕ+) (cluster : Cluster)
    (events : List Event) (commit : CommitSequence) : Prop :=
  commit ∈ (run (Cluster.step voters required) cluster events).released ∧
    ∃ certificate, QuorumFenceCertificateV1.new UuidV7.sample 1 (.lit 1) (.lit 2) (filledWith 1)
      (positionOf basePoint) voters (run (Cluster.step voters required) cluster events).votes =
        .ok certificate ∧
      sequenceValue certificate.candidateApplied.frontier.application < commit.get

theorem losesCommit_of_accepted {required : ℕ+} {cluster : Cluster} {events : List Event}
    (released : NonZeroU64.lit 4 ∈ (run (step voters required) cluster events).released)
    (accepted : (QuorumFenceCertificateV1.new UuidV7.sample 1 (.lit 1) (.lit 2) (filledWith 1)
      (positionOf basePoint) voters (run (step voters required) cluster events).votes).isOk = true)
      : LosesCommit voters required cluster events (.lit 4) := by
  obtain ⟨certificate, built⟩ := ok_of_isOk accepted
  refine ⟨released, certificate, built, ?_⟩
  obtain ⟨_, _, _, _, _, _, _, position⟩ := new_eq_ok built
  rw [position]
  decide

/-- The second voter samples its view before it applies, acknowledges and reports the next
point together with the third, and grants its vote afterwards. -/
def staleSample : List Event :=
  candidacy (filledWith 1) ++ [.vote (filledWith 2) (.requestEpochVote 0 baseRequest),
    .publishFrame nextPoint] ++ replication (filledWith 2) nextPoint ++
    replication (filledWith 3) nextPoint ++ [.releaseCommit (.lit 4)] ++
    [NodeEvent.takeLock 0, .persist 0, .sync 0, .raiseFence 0, .reply 0].map
      (.vote (filledWith 2))

/-- A candidate that has voted for itself goes on applying and reporting. -/
def openCandidate : List Event :=
  candidacy (filledWith 1) ++ [.publishFrame nextPoint] ++ replication (filledWith 1) nextPoint ++
    [.releaseCommit (.lit 4)]

theorem quorum_commit_lost :
    ((baseCluster [filledWith 1, filledWith 2, filledWith 3]).Initial sampleLineage ∧
      3 < (2 : ℕ+) + strictMajority 3 ∧
      LosesCommit [filledWith 1, filledWith 2, filledWith 3] 2
        (baseCluster [filledWith 1, filledWith 2, filledWith 3]) staleSample (.lit 4)) ∧
    (baseCluster [filledWith 1]).Initial sampleLineage ∧ 1 < (1 : ℕ+) + strictMajority 1 ∧
      LosesCommit [filledWith 1] 1 (baseCluster [filledWith 1]) openCandidate (.lit 4) := by
  refine ⟨⟨initial_baseCluster (by decide +kernel), by decide, ?_⟩,
    initial_baseCluster (by decide +kernel), by decide, ?_⟩
  · exact losesCommit_of_accepted (by decide +kernel) (by decide +kernel)
  · exact losesCommit_of_accepted (by decide +kernel) (by decide +kernel)

/-- Two of three voters apply and report the next point and its commit is released; the first then
stands for election. The second has taken one more frame in before it votes, and the applier's check
refuses it afterwards. -/
def heldElection : List Event :=
  .publishFrame nextPoint :: replication (filledWith 1) nextPoint ++
    replication (filledWith 2) nextPoint ++
    [.releaseCommit (.lit 4), .publishFrame finalPoint, .receive (filledWith 2) finalPoint] ++
    candidacy (filledWith 1) ++
    [NodeEvent.requestEpochVote 0 { baseRequest with candidateApplied := positionOf nextPoint },
      .takeLock 0, .persist 0, .sync 0, .raiseFence 0, .reply 0].map (.vote (filledWith 2)) ++
    [.recheckFence (filledWith 2)]

theorem released_commits_survive_threeVoters :
    let voters := [filledWith 1, filledWith 2, filledWith 3]
    let final := run (Cluster.step voters 2) (baseCluster voters) heldElection
    NonZeroU64.lit 4 ∈ final.released ∧ (final.replicas (filledWith 2)).receiver = .failed ∧
      ∃ certificate, QuorumFenceCertificateV1.new UuidV7.sample 1 (.lit 1) (.lit 2) (filledWith 1)
        (positionOf nextPoint) voters final.votes = .ok certificate ∧
        4 ≤ sequenceValue certificate.candidateApplied.frontier.application := by
  intro voters final
  have released : NonZeroU64.lit 4 ∈ final.released := by decide +kernel
  obtain ⟨certificate, built⟩ :=
    ok_of_isOk (show (QuorumFenceCertificateV1.new UuidV7.sample 1 (.lit 1)
    (.lit 2) (filledWith 1) (positionOf nextPoint) voters final.votes).isOk =
    true by decide +kernel)
  have initial : (baseCluster voters).Initial sampleLineage :=
    initial_baseCluster (by decide +kernel)
  have held : Meets (step voters 2) PositionHeld (baseCluster voters) heldElection := by
    decide +kernel
  exact ⟨released,
    by decide +kernel, certificate, built, released_commits_survive initial (by decide)
    held _ released _ _ _ _ _ (List.Subset.refl _) built⟩

end Lost

end FailoverSafety
