import RiffDb.ChangelogHistory

/-!
# The closed authority inventory

Every physical table, and every exact key of the metadata table, is one declared namespace with a
tag, a table and an authority class. The first inventory is frozen; the second adds the primary
admission row and the third the projection source domains.

The activation column and the canonical text are not modelled: the digests of the inventories are
distinct constants.
-/

namespace AuthorityCatalog

open ChangelogHistory

inductive ReplicationTransferV1 where
  | lineageShared
  | sourceOnly
  | followerLocal
  | staged
deriving DecidableEq, Repr

inductive ReplicationAuthorityClassV1 where
  | replicatedAuthoritative
  | rebuildableLocal
  | replicationControl (transfer : ReplicationTransferV1)
deriving DecidableEq, Repr

/-- One line of the closed declaration. -/
structure Declaration where
  tag : Nat
  table : String
  metadataKey : Option String
  authority : ReplicationAuthorityClassV1

inductive AuthoritativeNamespaceV1 where
  | contractBundles
  | catalogActive
  | queryModules
  | queryModuleActive
  | entities
  | entityChainHeads
  | secondaryIndexes
  | indexEpochs
  | idempotency
  | idempotencyPending
  | commits
  | provenance
  | events
  | eventRoutes
  | outbox
  | outboxStatus
  | projectionState
  | projectionFrontier
  | projectionApplied
  | capabilities
  | capabilityTokens
  | audit
  | auditByRequest
  | contractMigrationJournal
  | contractMigrations
  | contractWriteRetirements
  | retiredEntities
  | historyTombstones
  | reactiveModules
  | eventConsumers
  | eventConsumerDeliveries
  | applicationInstallationCampaigns
  | applicationExportOperations
  | validatedPrefixEntityHeads
  | vectorEvidence
  | vectorObservations
  | vectorEvidenceIndex
  | vectorProjectionControls
  | columnarProjectionControls
  | idempotencyLocators
  | provenanceLocators
  | auditByRequestLocators
  | applicationExportPageCommitments
  | formatVersion
  | databaseIdentity
  | nextApplicationSequence
  | nextAdministrationSequence
  | capabilityBootstrap
  | recordRegistry
  | historyIncarnation
  | indexEpochRowsRepaired
  | validatedPrefixCheckpoint
  | retentionWatermark
  | retentionHolds
  | changelogV2RotationReceipt
  | cleanCloseLifecycle
  | authoritativeStateCatalog
  | leadershipEpoch
  | changelogHistoryState
  | nextChangelogTransaction
  | replicationFollowerState
  | replicationSourceHolds
  | changelogHistory
deriving DecidableEq, Repr

namespace AuthoritativeNamespaceV1

def declaration : AuthoritativeNamespaceV1 → Declaration
  | .contractBundles => ⟨1, "contract_bundles", none, .replicatedAuthoritative⟩
  | .catalogActive => ⟨2, "catalog_active", none, .replicatedAuthoritative⟩
  | .queryModules => ⟨3, "query_modules", none, .replicatedAuthoritative⟩
  | .queryModuleActive => ⟨4, "query_module_active", none, .replicatedAuthoritative⟩
  | .entities => ⟨5, "entities", none, .replicatedAuthoritative⟩
  | .entityChainHeads => ⟨6, "entity_chain_heads", none, .replicatedAuthoritative⟩
  | .secondaryIndexes => ⟨7, "secondary_indexes", none, .replicatedAuthoritative⟩
  | .indexEpochs => ⟨8, "index_epochs", none, .replicatedAuthoritative⟩
  | .idempotency => ⟨9, "idempotency", none, .replicatedAuthoritative⟩
  | .idempotencyPending => ⟨10, "idempotency_pending", none, .replicatedAuthoritative⟩
  | .commits => ⟨11, "commits", none, .replicatedAuthoritative⟩
  | .provenance => ⟨12, "provenance", none, .replicatedAuthoritative⟩
  | .events => ⟨13, "events", none, .replicatedAuthoritative⟩
  | .eventRoutes => ⟨14, "event_routes", none, .replicatedAuthoritative⟩
  | .outbox => ⟨15, "outbox", none, .replicatedAuthoritative⟩
  | .outboxStatus => ⟨16, "outbox_status", none, .replicatedAuthoritative⟩
  | .projectionState => ⟨17, "projection_state", none, .rebuildableLocal⟩
  | .projectionFrontier => ⟨18, "projection_frontier", none, .replicatedAuthoritative⟩
  | .projectionApplied => ⟨19, "projection_applied", none, .rebuildableLocal⟩
  | .capabilities => ⟨20, "capabilities", none, .replicatedAuthoritative⟩
  | .capabilityTokens => ⟨21, "capability_tokens", none, .replicatedAuthoritative⟩
  | .audit => ⟨22, "audit", none, .replicatedAuthoritative⟩
  | .auditByRequest => ⟨23, "audit_by_request", none, .replicatedAuthoritative⟩
  | .contractMigrationJournal => ⟨24, "contract_migration_journal", none, .replicatedAuthoritative⟩
  | .contractMigrations => ⟨25, "contract_migrations", none, .replicatedAuthoritative⟩
  | .contractWriteRetirements => ⟨26, "contract_write_retirements", none, .replicatedAuthoritative⟩
  | .retiredEntities => ⟨27, "retired_entities", none, .replicatedAuthoritative⟩
  | .historyTombstones => ⟨28, "history_tombstones", none, .replicatedAuthoritative⟩
  | .reactiveModules => ⟨29, "reactive_modules", none, .replicatedAuthoritative⟩
  | .eventConsumers => ⟨30, "event_consumers", none, .replicatedAuthoritative⟩
  | .eventConsumerDeliveries => ⟨31, "event_consumer_deliveries", none, .replicatedAuthoritative⟩
  | .applicationInstallationCampaigns =>
      ⟨32, "application_installation_campaigns", none, .replicatedAuthoritative⟩
  | .applicationExportOperations =>
      ⟨33, "application_export_operations", none, .replicatedAuthoritative⟩
  | .validatedPrefixEntityHeads =>
      ⟨34, "validated_prefix_entity_heads", none, .replicatedAuthoritative⟩
  | .vectorEvidence => ⟨35, "vector_evidence", none, .replicatedAuthoritative⟩
  | .vectorObservations => ⟨36, "vector_observations", none, .replicatedAuthoritative⟩
  | .vectorEvidenceIndex => ⟨37, "vector_evidence_index", none, .replicatedAuthoritative⟩
  | .vectorProjectionControls => ⟨38, "vector_projection_controls", none, .replicatedAuthoritative⟩
  | .columnarProjectionControls =>
      ⟨39, "columnar_projection_controls", none, .replicatedAuthoritative⟩
  | .idempotencyLocators => ⟨40, "idempotency_locators", none, .replicatedAuthoritative⟩
  | .provenanceLocators => ⟨41, "provenance_locators", none, .replicatedAuthoritative⟩
  | .auditByRequestLocators => ⟨42, "audit_by_request_locators", none, .replicatedAuthoritative⟩
  | .applicationExportPageCommitments =>
      ⟨43, "application_export_page_commitments", none, .replicatedAuthoritative⟩
  | .formatVersion => ⟨101, "meta", some "format_version", .replicatedAuthoritative⟩
  | .databaseIdentity => ⟨102, "meta", some "database_id", .replicatedAuthoritative⟩
  | .nextApplicationSequence =>
      ⟨103, "meta", some "next_application_sequence", .replicatedAuthoritative⟩
  | .nextAdministrationSequence =>
      ⟨104, "meta", some "next_administration_sequence", .replicatedAuthoritative⟩
  | .capabilityBootstrap => ⟨105, "meta", some "capability_bootstrap/v1", .replicatedAuthoritative⟩
  | .recordRegistry => ⟨106, "meta", some "record_registry/v2", .replicatedAuthoritative⟩
  | .historyIncarnation => ⟨107, "meta", some "history_incarnation/v1", .replicatedAuthoritative⟩
  | .indexEpochRowsRepaired =>
      ⟨108, "meta", some "index_epoch_rows_repaired/v1", .replicatedAuthoritative⟩
  | .validatedPrefixCheckpoint =>
      ⟨109, "meta", some "validated_prefix_checkpoint/v1", .replicatedAuthoritative⟩
  | .retentionWatermark => ⟨110, "meta", some "retention_watermark/v1", .replicatedAuthoritative⟩
  | .retentionHolds => ⟨111, "meta", some "retention_holds/v1", .replicatedAuthoritative⟩
  | .changelogV2RotationReceipt =>
      ⟨112, "meta", some "changelog_v2_rotation_receipt/v1", .replicatedAuthoritative⟩
  | .cleanCloseLifecycle =>
      ⟨113, "meta", some "clean_close_certificate/v1", .replicationControl .sourceOnly⟩
  | .authoritativeStateCatalog =>
      ⟨201, "meta", some "authoritative_state_catalog/v1", .replicationControl .lineageShared⟩
  | .leadershipEpoch => ⟨202, "meta", some "leadership_epoch/v1",
      .replicationControl .lineageShared⟩
  | .changelogHistoryState =>
      ⟨203, "meta", some "changelog_history_state/v3", .replicationControl .lineageShared⟩
  | .nextChangelogTransaction =>
      ⟨204, "meta", some "next_changelog_transaction/v3", .replicationControl .lineageShared⟩
  | .replicationFollowerState =>
      ⟨205, "meta", some "replication_follower_state/v3", .replicationControl .followerLocal⟩
  | .replicationSourceHolds =>
      ⟨206, "replication_source_holds/v1", none, .replicationControl .sourceOnly⟩
  | .changelogHistory => ⟨207, "changelog_history/v3", none, .replicationControl .sourceOnly⟩

/-- Every domain, in frozen ascending tag order. -/
def all : List AuthoritativeNamespaceV1 :=
  [.contractBundles, .catalogActive, .queryModules, .queryModuleActive, .entities,
   .entityChainHeads, .secondaryIndexes, .indexEpochs, .idempotency, .idempotencyPending,
   .commits, .provenance, .events, .eventRoutes, .outbox, .outboxStatus, .projectionState,
   .projectionFrontier, .projectionApplied, .capabilities, .capabilityTokens, .audit,
   .auditByRequest, .contractMigrationJournal, .contractMigrations, .contractWriteRetirements,
   .retiredEntities, .historyTombstones, .reactiveModules, .eventConsumers,
   .eventConsumerDeliveries, .applicationInstallationCampaigns, .applicationExportOperations,
   .validatedPrefixEntityHeads, .vectorEvidence, .vectorObservations, .vectorEvidenceIndex,
   .vectorProjectionControls, .columnarProjectionControls, .idempotencyLocators,
   .provenanceLocators, .auditByRequestLocators, .applicationExportPageCommitments,
   .formatVersion, .databaseIdentity, .nextApplicationSequence, .nextAdministrationSequence,
   .capabilityBootstrap, .recordRegistry, .historyIncarnation, .indexEpochRowsRepaired,
   .validatedPrefixCheckpoint, .retentionWatermark, .retentionHolds, .changelogV2RotationReceipt,
   .cleanCloseLifecycle, .authoritativeStateCatalog, .leadershipEpoch, .changelogHistoryState,
   .nextChangelogTransaction, .replicationFollowerState, .replicationSourceHolds, .changelogHistory]

/-- The locator tables kept in the declaration after their physical tables were retired. -/
def isRetiredLocatorTable : AuthoritativeNamespaceV1 → Bool
  | .idempotencyLocators => true
  | .provenanceLocators => true
  | .auditByRequestLocators => true
  | _ => false

end AuthoritativeNamespaceV1

inductive AuthoritativeNamespaceV2 where
  | existing (domain : AuthoritativeNamespaceV1)
  | replicationPrimaryAdmission
deriving DecidableEq, Repr

def AuthoritativeNamespaceV2.declaration : AuthoritativeNamespaceV2 → Declaration
  | .existing domain => domain.declaration
  | .replicationPrimaryAdmission =>
    ⟨208, "meta", some "replication_primary_admission/v1", .replicationControl .sourceOnly⟩

inductive AuthoritativeNamespaceV3 where
  | existing (domain : AuthoritativeNamespaceV2)
  | projectionSourceRows
  | projectionSourceObjects
  | projectionSourceRoots
  | projectionSourceMaintenance
  | generationSourceBases
  | projectionSourceAllocator
deriving DecidableEq, Repr

variable (domain : AuthoritativeNamespaceV3)

namespace AuthoritativeNamespaceV3

def ofV1 (domain : AuthoritativeNamespaceV1) :
    AuthoritativeNamespaceV3 := .existing (.existing domain)

def declaration : AuthoritativeNamespaceV3 → Declaration
  | .existing domain => domain.declaration
  | .projectionSourceRows => ⟨44, "projection_source_rows/v1", none, .replicatedAuthoritative⟩
  | .projectionSourceObjects => ⟨45, "projection_source_objects/v1", none, .replicatedAuthoritative⟩
  | .projectionSourceRoots => ⟨46, "projection_source_roots/v1", none, .replicatedAuthoritative⟩
  | .projectionSourceMaintenance =>
    ⟨47, "projection_source_maintenance/v1", none, .replicatedAuthoritative⟩
  | .generationSourceBases => ⟨48, "generation_source_bases/v1", none, .rebuildableLocal⟩
  | .projectionSourceAllocator =>
    ⟨114, "meta", some "projection_checkpoint_ordinal/v1", .replicatedAuthoritative⟩

def tag : Nat := domain.declaration.tag

def table : String := domain.declaration.table

def metadataKey : Option String := domain.declaration.metadataKey

def authority : ReplicationAuthorityClassV1 :=
  domain.declaration.authority

def isRetiredLocatorTable : AuthoritativeNamespaceV3 → Bool
  | .existing (.existing domain) => domain.isRetiredLocatorTable
  | _ => false

end AuthoritativeNamespaceV3

/-- The domains of each inventory in ascending tag order. -/
def namespaces : AuthoritativeStateCatalog → List AuthoritativeNamespaceV3
  | .v1 => AuthoritativeNamespaceV1.all.map .ofV1
  | .v2 => AuthoritativeNamespaceV1.all.map .ofV1 ++ [.existing .replicationPrimaryAdmission]
  | .v3 => (AuthoritativeNamespaceV1.all.take 43).map .ofV1 ++
      [.projectionSourceRows, .projectionSourceObjects, .projectionSourceRoots,
        .projectionSourceMaintenance, .generationSourceBases] ++
      ((AuthoritativeNamespaceV1.all.drop 43).take 13).map .ofV1 ++
      [.projectionSourceAllocator] ++ (AuthoritativeNamespaceV1.all.drop 56).map .ofV1 ++
      [.existing .replicationPrimaryAdmission]

/-- Resolve only an exact tag of the inventory. -/
def byTag (catalog : AuthoritativeStateCatalog) (tag : Nat) : Option AuthoritativeNamespaceV3 :=
  (namespaces catalog).find? fun domain => domain.tag = tag

/-- The newest inventory resolves every declared tag to the domain that declares it. -/
theorem byTag_tag : byTag .v3 domain.tag = some domain := by
  cases domain with
  | existing older =>
    cases older with
    | existing frozen => cases frozen <;> rfl
    | replicationPrimaryAdmission => rfl
  | _ => rfl

theorem tag_lt : domain.tag < 256 := by
  have bounded : ∀ other ∈ namespaces .v3, other.tag < 256 := by decide
  exact bounded domain (List.mem_of_find?_eq_some (byTag_tag domain))

end AuthorityCatalog
