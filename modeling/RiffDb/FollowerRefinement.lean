import RiffDb.FollowerApply
import RiffDb.StreamFidelity

/-!
# A follower holds the source's state at its applied point

The source's authoritative state is a map from domains and keys to values, moved by the mutations of
each receipt. The rows of a follower are that state at the point its roots name: the roots advance
only over the receipt that follows them in the chain, and a frame is taken over in one commit or not
at all. Nothing is assumed about the hash function, because the sequence of a receipt fixes its
place in the chain.
-/

namespace FollowerRefinement

open ByteWire CheckedCode ReplicationTypes ChangelogHistory AuthorityCatalog ChangelogReceipt
  ReceiptCodec ChangelogFrame ChangelogChain FrameStream StreamFidelity FollowerApply
  RedbFollowerApplier List

theorem physicalNames_nodup :
    ((namespaces .v3).map fun domain => (domain.table, domain.metadataKey)).Nodup := by
  decide +kernel

theorem mem_namespaces (domain : AuthoritativeNamespaceV3) : domain ∈ namespaces .v3 :=
  mem_of_find?_eq_some (byTag_tag domain)

variable {domain : AuthoritativeNamespaceV3}

/-- Every single row is declared in the table of single rows. -/
theorem table_of_metadataKey {name : String}
    (named : domain.metadataKey = some name) : domain.table = metaTable := by
  have declared : ∀ other ∈ namespaces .v3, other.metadataKey.isSome → other.table = metaTable := by
    decide +kernel
  exact declared domain (mem_namespaces domain) (by rw [named]; rfl)

theorem placeOf_domain {left right : AuthoritativeNamespaceV3} {leftKey rightKey : Bytes}
    (same : placeOf left leftKey = placeOf right rightKey) : left = right := by
  have names : (left.table, left.metadataKey) = (right.table, right.metadataKey) := by
    cases leftName : left.metadataKey with
    | some name =>
      cases rightName : right.metadataKey with
      | some other =>
        simp only [placeOf, leftName, rightName, Place.mk.injEq, FixedPhysicalKey.str.injEq,
          true_and] at same
        rw [table_of_metadataKey leftName, table_of_metadataKey rightName, same]
      | none => simp [placeOf, leftName, rightName] at same
    | none =>
      cases rightName : right.metadataKey with
      | some other => simp [placeOf, leftName, rightName] at same
      | none =>
        simp only [placeOf, leftName, rightName, Place.mk.injEq] at same
        rw [same.1]
  exact inj_on_of_nodup_map physicalNames_nodup (mem_namespaces left) (mem_namespaces right)
    names

/-- The keys under which a replicated domain has rows. -/
def Replicates (domain : AuthoritativeNamespaceV3) (key : Bytes) : Prop :=
  domain.authority = .replicatedAuthoritative ∧
    ∀ expected ∈ domain.metadataKey, keyBytes expected = key

theorem mutation_replicates (mutation : AuthoritativeMutationV3) :
    Replicates mutation.domain mutation.key :=
  (AuthoritativeMutationV3.validate_eq_ok.mp mutation.valid).1

theorem placeOf_key {left right : Bytes}
    (leftReplicates : Replicates domain left) (rightReplicates : Replicates domain right)
    (same : placeOf domain left = placeOf domain right) : left = right := by
  cases named : domain.metadataKey with
  | some name => rw [← leftReplicates.2 name named, ← rightReplicates.2 name named]
  | none => simpa [placeOf, named] using same

/-- The logical content of the replicated domains. -/
abbrev State := AuthoritativeNamespaceV3 → Bytes → Option Bytes

namespace State

def write (state : State) (mutation : AuthoritativeMutationV3) : State := fun domain key =>
  if domain = mutation.domain ∧ key = mutation.key then mutation.value else state domain key

def afterReceipt (state : State) (receipt : AuthoritativeTransactionV3) : State :=
  receipt.mutations.foldl write state

def after (state : State) (receipts : List AuthoritativeTransactionV3) : State :=
  receipts.foldl afterReceipt state

end State

/-- A source: the history it published and its state at the first retained point. -/
structure Source (env : Hashing) where
  chain : PublishedChain env
  base : State

/-- The source's state at the point after the first receipts. -/
def Source.stateAt {env : Hashing} (source : Source env) (count : Nat) : State :=
  source.base.after (source.chain.receipts.take count)

/-- The rows are the physical form of the state. -/
def Represents (rows : Rows) (state : State) : Prop :=
  ∀ domain key, Replicates domain key → rows (placeOf domain key) = state domain key

theorem represents_applyMutation (rows : Rows) (state : State)
    (mutation : AuthoritativeMutationV3) (next : Rows) (represents : Represents rows state)
    (done : applyMutation rows mutation = .ok next) : Represents next (state.write mutation) := by
  intro domain key replicates
  rw [(applyMutation_eq_ok.mp done).2]
  by_cases written : domain = mutation.domain ∧ key = mutation.key
  · obtain ⟨rfl, rfl⟩ := written
    simp [State.write]
  · have elsewhere : placeOf domain key ≠ placeOf mutation.domain mutation.key := by
      intro same
      obtain rfl := placeOf_domain same
      exact written ⟨rfl, placeOf_key replicates (mutation_replicates mutation) same⟩
    rw [Function.update_of_ne elsewhere, represents domain key replicates, State.write,
      if_neg written]

/-- Roots and rows stand at a point of the lineage and at a state. -/
def StandsAt (lineage : ChangelogLineageV3) (staged : ChangelogHistoryStateV3 × Rows)
    (place : ChangelogHistoryPointV3 × State) : Prop :=
  staged.1.lineage = lineage ∧ staged.1.tail = place.1 ∧ Represents staged.2 place.2

section Frames

variable {env : Hashing} {codec : AllocatorCodec} {answers : Answers} {tables : List String}
  {lineage : ChangelogLineageV3}

theorem standsAt_applyReceipt (staged : ChangelogHistoryStateV3 × Rows)
    (place : ChangelogHistoryPointV3 × State) (receipt : AuthoritativeTransactionV3)
    (next : ChangelogHistoryStateV3 × Rows) (stands : StandsAt lineage staged place)
    (done : applyReceipt env codec answers tables staged receipt = .ok next) :
    StandsAt lineage next (fromReceipt receipt, place.2.afterReceipt receipt) := by
  obtain ⟨advanced, _, _, folded, _, _⟩ := (applyReceipt_eq_ok env codec answers).mp done
  obtain ⟨_, kept, _, tail, _⟩ := advance_eq_ok.mp advanced
  refine ⟨kept ▸ stands.1, tail.symm, ?_⟩
  exact foldlM_simulates (R := Represents) represents_applyMutation stands.2.2 folded

/-- Point and state move together over a list of receipts. -/
theorem foldl_place (place : ChangelogHistoryPointV3 × State)
    (receipts : List AuthoritativeTransactionV3) :
    receipts.foldl (fun place receipt =>
      (fromReceipt receipt, place.2.afterReceipt receipt)) place =
      (pointAfter place.1 receipts, place.2.after receipts) := by
  induction receipts generalizing place with
  | nil => rfl
  | cons receipt rest ih => exact ih _

end Frames

variable {frame : ChangelogFrameV3}

section Databases

variable {env : Hashing}

/-- The database is an attached follower's, at the point after the first receipts of the source
and with the source's state there. -/
structure Holds (source : Source env) (durable : Durable) (count : Nat) : Prop where
  inside : count ≤ source.chain.receipts.length
  roots : ∃ history, durable.history = some history ∧ history.lineage = source.chain.lineage ∧
    history.tail = source.chain.pointAt count
  attached : ∃ attachment, durable.follower = some (some attachment) ∧
    attachment.lineage = source.chain.lineage ∧ attachment.applied = source.chain.pointAt count
  represents : Represents durable.rows (source.stateAt count)

/-- Bytes a follower of the source may be handed: if they decode to a frame that claims the
source's lineage, its receipts are consecutive receipts of the source. -/
structure Delivery (source : Source env) where
  bytes : Bytes
  genuine : ∀ frame, ChangelogFrameV3.decode env bytes = .ok frame →
    RedbFollowerApplier.OfLineage frame.binding source.chain.lineage →
    ∃ before after, source.chain.receipts = before ++ (frame.receipts ++ after)

variable {source : Source env}

variable {count : Nat}

/-- Consecutive receipts of a chain that follow one of its points stand right after it. -/
theorem segment_place {chain : PublishedChain env}
    (inside : count ≤ chain.receipts.length) {receipt : AuthoritativeTransactionV3}
    {before rest : List AuthoritativeTransactionV3}
    (split : chain.receipts = before ++ (receipt :: rest)) {lineage : ChangelogLineageV3}
    (succeeds : Succeeds lineage (chain.pointAt count) receipt) : before.length = count := by
  have linked := chain.linked
  rw [split, linked_append] at linked
  have placed : chain.pointAt before.length = pointAfter chain.floor before := by
    rw [PublishedChain.pointAt, split, take_left]
  have same :
      some (chain.pointAt before.length).sequence = some (chain.pointAt count).sequence := by
    rw [placed, ← linked.2.1.continues.2.2.1, succeeds.continues.2.2.1]
  refine chain.pointAt_injective ?_ inside (Option.some.inj same)
  rw [split]
  simp

/-- Over consecutive receipts the source moves from point to point and from state to state. -/
theorem Source.over_segment {before segment after : List AuthoritativeTransactionV3}
    (split : source.chain.receipts = before ++ (segment ++ after)) :
    pointAfter (source.chain.pointAt before.length) segment =
        source.chain.pointAt (before.length + segment.length) ∧
          (source.stateAt before.length).after segment =
        source.stateAt (before.length + segment.length) := by
  have front : source.chain.receipts.take (before.length + segment.length) =
      source.chain.receipts.take before.length ++ segment := by
    rw [split, ← append_assoc, ← length_append, take_left, append_assoc, take_left]
  constructor
  · rw [PublishedChain.pointAt, PublishedChain.pointAt, ← pointAfter_append, ← front]
  · rw [Source.stateAt, Source.stateAt, front, State.after, State.after, State.after, foldl_append]

variable {applier : RedbFollowerApplier}

section

variable {codec : AllocatorCodec} {answers : Answers} (holds : Holds source applier.durable count)

include holds

theorem holds_stageReceipts {history : ChangelogHistoryStateV3} {attachment : FollowerAttachment}
    (roots : attachedRoots applier.durable = .ok (history, attachment))
    {before after : List AuthoritativeTransactionV3}
    (split : source.chain.receipts = before ++ (frame.receipts ++ after)) {next : Durable}
    (staged : stageReceipts env codec answers applier frame history attachment = .ok next) :
    before.length = count ∧
      fromReceipt frame.last = source.chain.pointAt (before.length + frame.receipts.length) ∧
      Holds source next (before.length + frame.receipts.length) := by
  obtain ⟨_, tables, _, _, successor, rows, folded, row, written, _, rfl⟩ :=
    (stageReceipts_eq_ok env codec answers).mp staged
  obtain ⟨stored, attached, agrees, _, _⟩ := attachedRoots_eq_ok.mp roots
  obtain ⟨_, found, lineage, tail⟩ := holds.roots
  obtain rfl := Option.some.inj (stored.symm.trans found)
  have here : StandsAt source.chain.lineage (history, applier.durable.rows)
      (source.chain.pointAt count, source.stateAt count) := ⟨lineage, tail, holds.represents⟩
  have stands := foldlM_simulates (R := StandsAt source.chain.lineage)
    standsAt_applyReceipt here folded
  rw [foldl_place] at stands
  -- the first receipt follows the roots, so the frame stands right after them in the chain
  obtain ⟨first, rest, shape⟩ := exists_cons_of_ne_nil frame.nonempty
  have placed : before.length = count := by
    rw [shape, foldlM_cons, bind_eq_ok] at folded
    obtain ⟨_, done, _⟩ := folded
    have succeeds := (advance_eq_ok.mp ((applyReceipt_eq_ok env codec answers).mp done).1).1
    rw [tail] at succeeds
    rw [shape] at split
    exact segment_place holds.inside split succeeds
  subst placed
  obtain ⟨point, state⟩ := Source.over_segment split
  have covered : fromReceipt frame.last =
      source.chain.pointAt (before.length + frame.receipts.length) := by
    rw [← point, pointAfter_getLast frame.nonempty]
    rfl
  obtain ⟨updated, rfl, sameLineage, applied, _⟩ :=
    ReplicationFollowerStateV3.attached_of_ok written
  refine ⟨rfl, covered, ?_, ⟨successor, rfl, stands.1, ?_⟩,
    ⟨updated, rfl, ?_, applied.trans covered⟩, ?_⟩
  · rw [split]
    simp only [length_append]
    omega
  · exact stands.2.1.trans point
  · rw [sameLineage, ← agrees, lineage]
  · have represents := stands.2.2
    rwa [state] at represents

/-- A staged delivery either stands at the applied point already or leads to a database that
holds the source's state at the point it covers. -/
theorem stageFrame_holds (delivery : Delivery source) {staged : RedbFollowerApplier.Staged}
    (done : applier.stageFrame env codec answers delivery.bytes = .ok staged) :
    staged.successor = none ∧ staged.covered = source.chain.pointAt count ∨
      ∃ next more, staged.successor = some next ∧ staged.covered = source.chain.pointAt more ∧
        Holds source next more := by
  obtain ⟨frame, history, attachment, decoded, _, roots, bound, _, covered, outcome⟩ :=
    stageFrame_cases env codec answers done
  obtain ⟨_, attached, _⟩ := attachedRoots_eq_ok.mp roots
  obtain ⟨_, found, lineage, applied⟩ := holds.attached
  obtain rfl := Option.some.inj (Option.some.inj (attached.symm.trans found))
  rcases outcome with ⟨same, nothing⟩ | ⟨_, next, carried, received⟩
  · exact Or.inl ⟨nothing, same.trans applied⟩
  · rw [lineage] at bound
    obtain ⟨before, after, split⟩ := delivery.genuine frame decoded bound
    obtain ⟨_, point, moved⟩ := holds_stageReceipts holds roots split received
    exact Or.inr ⟨next, _, carried, covered.trans point, moved⟩

end

end Databases

/-- What can happen to an applier: a call with the environment's answers, a higher promised
epoch, or the shared fence. -/
inductive Event {env : Hashing} (source : Source env) where
  | applyFrame (delivery : Delivery source) (answers : Answers)
  | resumeStream (refusal : Option StorageErrorKind)
  | acknowledgeDurablePosition (answers : Answers)
  | recordPromisedLeadershipEpoch (epoch : LeadershipEpochV1)
  | fenceWrites

section Runs

variable {env : Hashing} {source : Source env} {codec : AllocatorCodec}

open RedbFollowerApplier

/-- The answer of a call, if the event is one, and the applier after it. -/
def respond (codec : AllocatorCodec) (follower : RedbFollowerApplier) : Event source →
    Option (Except StorageErrorKind ChangelogHistoryPointV3) × RedbFollowerApplier
  | .applyFrame delivery answers =>
    let (answer, after) := follower.applyFrame env codec answers delivery.bytes
    (some answer, after)
  | .resumeStream refusal =>
    let (answer, after) := follower.resumeStream refusal
    (some answer, after)
  | .acknowledgeDurablePosition answers =>
    let (answer, after) := follower.acknowledgeDurablePosition answers
    (some answer, after)
  | .recordPromisedLeadershipEpoch epoch => (none, follower.recordPromisedLeadershipEpoch epoch)
  | .fenceWrites => (none, { follower with writeFenced := true })

/-- The follower after a list of events. -/
def followerAfter (codec : AllocatorCodec) (start : RedbFollowerApplier)
    (events : List (Event source)) : RedbFollowerApplier :=
  Runs.run (fun follower event => (respond codec follower event).2) start events

variable {follower after : RedbFollowerApplier}

variable {answers : Answers} {point : ChangelogHistoryPointV3} {bytes : Bytes}

theorem applyFrame_ok (done : follower.applyFrame env codec answers bytes = (.ok point, after)) :
    follower.isLive = true ∧ ∃ staged, follower.stageFrame env codec answers bytes = .ok staged ∧
      point = staged.covered ∧ after = { follower with
        durable := staged.successor.getD follower.durable
        priorFrameHash := staged.checksum
        lastFrameHash := some staged.checksum
        failed := false } := by
  obtain ⟨live, final, called, rfl⟩ := guarded_ok done
  obtain ⟨staged, found, covered, rfl⟩ := applyInner_ok env codec answers called
  exact ⟨live, staged, found, covered, rfl⟩

variable {kind : StorageErrorKind}

theorem applyFrame_error (done :
    follower.applyFrame env codec answers bytes = (.error kind, after)) :
    after.isLive = false ∧ (after.durable = follower.durable ∨
      follower.Landed env codec answers bytes after.durable) := by
  rcases guarded_error done with ⟨rfl, dead⟩ | called
  · exact ⟨dead, Or.inl rfl⟩
  · rcases applyInner_error env codec answers called with rfl | ⟨next, landed, rfl⟩
    · exact ⟨rfl, Or.inl rfl⟩
    · exact ⟨rfl, Or.inr landed⟩

variable {count : Nat}

section

variable (holds : Holds source follower.durable count)

include holds

/-- A successful apply leaves the source's state at the returned point. -/
theorem holds_applyFrame_ok (delivery : Delivery source)
    (done : follower.applyFrame env codec answers delivery.bytes = (.ok point, after)) :
    ∃ more, point = source.chain.pointAt more ∧ Holds source after.durable more := by
  obtain ⟨_, staged, found, rfl, rfl⟩ := applyFrame_ok done
  rcases stageFrame_holds holds delivery found with
    ⟨nothing, covered⟩ | ⟨next, more, carried, covered, moved⟩
  · exact ⟨count, covered, by rw [nothing]; exact holds⟩
  · exact ⟨more, covered, by rw [carried]; exact moved⟩

theorem holds_applyFrame_error (delivery : Delivery source)
    (done : follower.applyFrame env codec answers delivery.bytes = (.error kind, after)) :
    after.durable = follower.durable ∨
      follower.Landed env codec answers delivery.bytes after.durable ∧
      ∃ more, Holds source after.durable more := by
  obtain ⟨_, unchanged | landed⟩ := applyFrame_error done
  · exact Or.inl unchanged
  · have ⟨_, staged, found, carried⟩ := landed
    rcases stageFrame_holds holds delivery found with ⟨nothing, _⟩ | ⟨_, more, same, _, moved⟩
    · cases nothing.symm.trans carried
    · obtain rfl := Option.some.inj (same.symm.trans carried)
      exact Or.inr ⟨landed, more, moved⟩

theorem holds_row {applied : ChangelogHistoryPointV3} {row : ReplicationFollowerStateV3}
    (staged : stageAcknowledgement answers follower = .ok (applied, some row)) :
    Holds source { follower.durable with follower := some row } count := by
  simp only [stageAcknowledgement, bind_eq_ok, refuse_eq_ok, exists_and_left, exists_const,
    Prod.exists] at staged
  obtain ⟨_, history, attachment, roots, staged⟩ := staged
  obtain ⟨_, attached, _⟩ := attachedRoots_eq_ok.mp roots
  obtain ⟨_, found, lineage, point⟩ := holds.attached
  obtain rfl := Option.some.inj (Option.some.inj (attached.symm.trans found))
  split at staged
  · simp [bind_eq_ok] at staged
  · simp only [bind_eq_ok, mapError_eq_ok, refuse_eq_ok, exists_and_left, exists_const,
      Except.ok.injEq, Prod.mk.injEq, Option.some.injEq] at staged
    obtain ⟨_, written, _, _, rfl⟩ := staged
    obtain ⟨updated, rfl, sameLineage, sameApplied, _⟩ :=
      ReplicationFollowerStateV3.attached_of_ok written
    exact ⟨holds.inside, holds.roots,
      ⟨updated, rfl, sameLineage.trans lineage, sameApplied.trans point⟩, holds.represents⟩

/-- An acknowledgement rewrites the attachment row for the same point, or nothing. -/
theorem holds_acknowledge (answers : Answers) :
    Holds source (follower.acknowledgeDurablePosition answers).2.durable count := by
  refine guarded_durable (P := fun durable => Holds source durable count) holds ?_
  unfold acknowledgeInner
  split
  · exact holds
  · exact holds
  · next applied row staged =>
    have written := holds_row holds staged
    split
    · next landed _ => cases landed <;> assumption
    · exact written

end

theorem resumeStream_durable (refusal : Option StorageErrorKind) (follower : RedbFollowerApplier) :
    (follower.resumeStream refusal).2.durable = follower.durable := by
  unfold resumeStream
  split <;> rfl

/-- The follower holds the source's state at some point after every event. -/
theorem holds_respond (event : Event source)
    (holds : ∃ count, Holds source follower.durable count) :
    ∃ count, Holds source (respond codec follower event).2.durable count := by
  obtain ⟨count, holds⟩ := holds
  cases event with
  | applyFrame delivery answers =>
    rcases outcome : follower.applyFrame env codec answers delivery.bytes with ⟨answer, after⟩
    simp only [respond, outcome]
    cases answer with
    | ok point =>
      obtain ⟨more, _, moved⟩ := holds_applyFrame_ok holds delivery outcome
      exact ⟨more, moved⟩
    | error kind =>
      rcases holds_applyFrame_error holds delivery outcome with unchanged | ⟨_, moved⟩
      · exact ⟨count, by rw [unchanged]; exact holds⟩
      · exact moved
  | resumeStream refusal =>
    refine ⟨count, ?_⟩
    change Holds source (follower.resumeStream refusal).2.durable count
    rw [resumeStream_durable]
    exact holds
  | acknowledgeDurablePosition answers => exact ⟨count, holds_acknowledge holds answers⟩
  | recordPromisedLeadershipEpoch epoch => exact ⟨count, holds⟩
  | fenceWrites => exact ⟨count, holds⟩

theorem respond_dead (dead : follower.isLive = false) (event : Event source) :
    (respond codec follower event).2.isLive = false ∧
      (respond codec follower event).2.durable = follower.durable ∧
      ∀ answer, (respond codec follower event).1 = some answer → answer = .error .unavailable := by
  cases event with
  | applyFrame delivery answers =>
    simp [respond, applyFrame, guarded_dead dead, dead, eq_comm]
  | resumeStream refusal =>
    have refused : follower.resumeStream refusal = (.error .unavailable, follower) := by
      simp [resumeStream, durableHistory, dead, require]
    simp [respond, refused, dead, eq_comm]
  | acknowledgeDurablePosition answers =>
    simp [respond, acknowledgeDurablePosition, guarded_dead dead, dead, eq_comm]
  | recordPromisedLeadershipEpoch epoch =>
      exact ⟨dead, rfl, fun _ impossible => by cases impossible⟩
  | fenceWrites => exact ⟨by simp [respond, isLive], rfl, fun _ impossible => by cases impossible⟩

/-- Whatever is called from here on is refused and the database stays as it is. -/
def RefusesEverything (source : Source env) (codec : AllocatorCodec)
    (follower : RedbFollowerApplier) : Prop :=
  ∀ later : List (Event source),
    (followerAfter codec follower later).durable = follower.durable ∧
    ∀ event : Event source, ∀ answer,
      (respond codec (followerAfter codec follower later) event).1 = some answer →
      answer = .error .unavailable

theorem refusesEverything_of_dead (dead : follower.isLive = false) :
    RefusesEverything source codec follower := by
  intro later
  have kept : (followerAfter codec follower later).isLive = false ∧
      (followerAfter codec follower later).durable = follower.durable :=
    Runs.run_invariant
      (P := fun reached :
        RedbFollowerApplier => reached.isLive = false ∧ reached.durable = follower.durable)
      (fun reached event ⟨still, same⟩ =>
        ⟨(respond_dead still event).1, (respond_dead still event).2.1.trans same⟩)
      ⟨dead, rfl⟩ later
  exact ⟨kept.2, fun event => (respond_dead kept.1 event).2.2⟩

/-- A frame that ends at the applied point changes nothing durable. -/
theorem covered_unchanged (decoded : ChangelogFrameV3.decode env bytes = .ok frame)
    (covered :
      follower.durable.history.map ChangelogHistoryStateV3.tail = some (fromReceipt frame.last)) :
    (follower.applyFrame env codec answers bytes).2.durable = follower.durable := by
  have stages : ∀ staged, follower.stageFrame env codec answers bytes = .ok staged →
      staged.successor = none := by
    intro staged found
    obtain ⟨same, history, attachment, again, _, roots, _, _, point, outcome⟩ :=
      stageFrame_cases env codec answers found
    obtain rfl := Except.ok.inj (decoded.symm.trans again)
    obtain ⟨stored, _, _, tail, _⟩ := attachedRoots_eq_ok.mp roots
    rw [stored, Option.map_some, Option.some.injEq] at covered
    rcases outcome with ⟨_, nothing⟩ | ⟨different, _⟩
    · exact nothing
    · exact absurd (point.trans (covered.symm.trans tail)) different
  rcases outcome : follower.applyFrame env codec answers bytes with ⟨answer, after⟩
  cases answer with
  | ok point =>
    obtain ⟨_, staged, found, _, rfl⟩ := applyFrame_ok outcome
    change staged.successor.getD follower.durable = follower.durable
    rw [stages staged found]
    rfl
  | error kind =>
    obtain ⟨_, unchanged | ⟨_, staged, found, carried⟩⟩ := applyFrame_error outcome
    · exact unchanged
    · rw [stages staged found] at carried
      cases carried

theorem repetition_unchanged (holds : Holds source follower.durable count)
    (delivery : Delivery source)
    (done : follower.applyFrame env codec answers delivery.bytes = (.ok point, after))
    (again : Answers) :
    (after.applyFrame env codec again delivery.bytes).2.durable = after.durable := by
  obtain ⟨more, place, moved⟩ := holds_applyFrame_ok holds delivery done
  obtain ⟨_, staged, found, rfl, _⟩ := applyFrame_ok done
  obtain ⟨frame, _, _, decoded, _, _, _, _, covered, _⟩ := stageFrame_cases env codec answers found
  obtain ⟨history, stored, _, tail⟩ := moved.roots
  refine covered_unchanged decoded ?_
  rw [stored, Option.map_some, tail, ← place, covered]

theorem attachedRoots_of_holds {durable : Durable} (holds : Holds source durable count)
    (atRest : durable.cleanClose = false) :
    ∃ history attachment, attachedRoots durable = .ok (history, attachment) ∧
      attachment.lineage = source.chain.lineage ∧
        attachment.applied = source.chain.pointAt count := by
  obtain ⟨history, stored, historyLineage, tail⟩ := holds.roots
  obtain ⟨attachment, attached, lineage, applied⟩ := holds.attached
  refine ⟨history, attachment, attachedRoots_eq_ok.mpr ⟨stored, attached, ?_, ?_, atRest⟩,
    lineage, applied⟩
  · rw [historyLineage, lineage]
  · rw [tail, applied]

/-- The same bytes once more on the same connection answer the same point and change nothing. -/
theorem repetition_answers (holds : Holds source follower.durable count)
    (delivery : Delivery source) {answers again : Answers}
    (done : follower.applyFrame env codec answers delivery.bytes = (.ok point, after))
    (begins : again.begins = none) (aborts : again.abort = none) :
    after.applyFrame env codec again delivery.bytes = (.ok point, after) := by
  obtain ⟨more, place, moved⟩ := holds_applyFrame_ok holds delivery done
  obtain ⟨live, staged, found, rfl, rfl⟩ := applyFrame_ok done
  obtain ⟨frame, history, attachment, decoded, trailing, roots, bound, promised,
      covered, outcome⟩ :=
    stageFrame_cases env codec answers found
  obtain ⟨_, attached, _, _, atRest⟩ := attachedRoots_eq_ok.mp roots
  obtain ⟨_, stored, lineage, _⟩ := holds.attached
  obtain rfl := Option.some.inj (Option.some.inj (attached.symm.trans stored))
  have stillAtRest : (staged.successor.getD follower.durable).cleanClose = false := by
    rcases outcome with ⟨_, nothing⟩ | ⟨_, next, carried, received⟩
    · rw [nothing]
      exact atRest
    · obtain ⟨_, _, _, _, _, _, _, _, _, _, rfl⟩ :=
        (stageReceipts_eq_ok env codec answers).mp received
      rw [carried]
      exact atRest
  obtain ⟨later, row, rootsLater, lineageLater, appliedLater⟩ :=
    attachedRoots_of_holds moved stillAtRest
  have ends : fromReceipt frame.last = row.applied := by rw [← covered, place, appliedLater]
  rw [lineage, ← lineageLater] at bound
  rw [covered]
  refine applyFrame_repeats env codec again ?_ rfl rfl decoded trailing begins rootsLater
    ⟨bound, promised⟩ ends aborts
  simp only [isLive, Bool.and_eq_true] at live
  simp [isLive, live.2]

/-- A follower that starts at the source's state of its applied point holds, after any list of
calls and deliveries, the source's state at the point its roots name. A successful apply answers
that point, and its bytes applied again change nothing; so does any frame that ends where the
follower stands. A refused frame leaves rows, roots and attachment as they were; only a frame that
passed every check and whose commit landed under a fault of the engine is there in full. Either way
the handle refuses whatever is called afterwards. -/
theorem follower_refines_source (source : Source env) (codec : AllocatorCodec)
    (start : RedbFollowerApplier) (count : Nat) (attached : Holds source start.durable count)
    (events : List (Event source)) : let follower := followerAfter codec start events
    (∃ reached, Holds source follower.durable reached) ∧
    ∀ (delivery : Delivery source) (answers : Answers),
      (∀ point after, follower.applyFrame env codec answers delivery.bytes = (.ok point, after) →
        (∃ reached, point = source.chain.pointAt reached ∧ Holds source after.durable reached) ∧
        ∀ again :
        Answers, (after.applyFrame env codec again delivery.bytes).2.durable = after.durable ∧
          (again.begins = none → again.abort = none →
            after.applyFrame env codec again delivery.bytes = (.ok point, after))) ∧
      (∀ frame, ChangelogFrameV3.decode env delivery.bytes = .ok frame →
        follower.durable.history.map ChangelogHistoryStateV3.tail = some (fromReceipt frame.last) →
        (follower.applyFrame env codec answers delivery.bytes).2.durable = follower.durable) ∧
      (∀ kind after, follower.applyFrame env codec answers delivery.bytes = (.error kind, after) →
        (after.durable = follower.durable ∨
        follower.Landed env codec answers delivery.bytes after.durable ∧
            ∃ reached, Holds source after.durable reached) ∧
        RefusesEverything source codec after) := by
  intro follower
  have reached : ∃ count, Holds source follower.durable count :=
    Runs.run_invariant (P := fun reached : RedbFollowerApplier =>
      ∃ count, Holds source reached.durable count)
      (fun _ event holds => holds_respond event holds) ⟨count, attached⟩ events
  refine ⟨reached, fun delivery answers => ?_⟩
  obtain ⟨place, holds⟩ := reached
  refine ⟨fun point after done => ⟨holds_applyFrame_ok holds delivery done, fun again =>
    ⟨repetition_unchanged holds delivery done again, repetition_answers holds delivery done⟩⟩,
    fun frame decoded covered => covered_unchanged decoded covered, fun kind after done => ?_⟩
  exact ⟨holds_applyFrame_error holds delivery done,
    refusesEverything_of_dead (applyFrame_error done).1⟩

end Runs

def sampleRows : Rows := fun place =>
  if place = ⟨metaTable, .str metaApplicationSequence⟩ ∨
      place = ⟨metaTable, .str metaAdministrationSequence⟩ then some [1]
  else none

def sampleSource :
    Source flatHashing := ⟨sampleChain, fun domain key => sampleRows (placeOf domain key)⟩

def sampleCodec : AllocatorCodec where
  decodeApplication _ := .ok (.next (.lit 1))
  decodeAdministration _ := .ok (.next (.lit 1))

def sampleDurable : Durable where
  rows := sampleRows
  history := some ⟨sampleLineage, samplePoint, samplePoint, samplePoint, Eq.refl true, Eq.refl true⟩
  follower := some (some ⟨sampleLineage, samplePoint, none, by simp⟩)
  cleanClose := false

def sampleFollower : RedbFollowerApplier := ⟨sampleDurable, false, zeroHash, none, 1, false⟩

def sampleAnswers : Answers where
  begins := none
  inventory := .ok ["meta", "entities"]
  indexes := none
  received _ := none
  resolveCommitsValue stored := .ok stored
  indexed _ := none
  roots := none
  abort := none
  commit := .committed
  publish := none

def sampleFrame : ChangelogFrameV3 := ⟨bindingOf sampleLineage zeroHash, [sampleReceipt], by decide⟩

theorem decode_sampleFrame : ChangelogFrameV3.decode flatHashing
    (ChangelogFrameV3.frameBytes flatHashing sampleFrame) = .ok sampleFrame :=
  ChangelogFrameV3.decode_eq_ok.mpr ⟨sampleChain.isSealed, by decide, rfl⟩

def sampleDelivery : Delivery sampleSource where
  bytes := ChangelogFrameV3.frameBytes flatHashing sampleFrame
  genuine := by
    intro frame decoded _
    obtain rfl := Except.ok.inj (decode_sampleFrame.symm.trans decoded)
    exact ⟨[], [], rfl⟩

theorem sampleDurable_holds : Holds sampleSource sampleDurable 0 where
  inside := Nat.zero_le _
  roots := ⟨_, rfl, rfl, rfl⟩
  attached := ⟨_, rfl, rfl, rfl⟩
  represents _ _ _ := rfl

/-- The sample frame is taken over and answers its point. -/
theorem sample_applies : (sampleFollower.applyFrame flatHashing sampleCodec sampleAnswers
    sampleDelivery.bytes).1 = .ok (fromReceipt sampleReceipt) := by
  decide +kernel

theorem follower_refines_sample : Holds sampleSource sampleDurable 0 ∧ ∃ after,
    sampleFollower.applyFrame flatHashing sampleCodec sampleAnswers sampleDelivery.bytes =
      (.ok (fromReceipt sampleReceipt), after) ∧
    (∃ reached, fromReceipt sampleReceipt = sampleChain.pointAt reached ∧
      Holds sampleSource after.durable reached) ∧
    after.applyFrame flatHashing sampleCodec sampleAnswers sampleDelivery.bytes =
      (.ok (fromReceipt sampleReceipt), after) := by
  have refines := follower_refines_source sampleSource sampleCodec sampleFollower 0
    sampleDurable_holds []
  rcases applied : sampleFollower.applyFrame flatHashing sampleCodec sampleAnswers
    sampleDelivery.bytes with ⟨answer, after⟩
  obtain rfl : .ok (fromReceipt sampleReceipt) = answer := by rw [← sample_applies, applied]
  obtain ⟨held, repeated⟩ := (refines.2 sampleDelivery sampleAnswers).1 _ _ applied
  exact ⟨sampleDurable_holds, after, rfl, held, (repeated sampleAnswers).2 rfl rfl⟩

end FollowerRefinement
