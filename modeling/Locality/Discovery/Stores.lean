/-
  Discovery/Stores.lean --- the in-memory and the SQLite store, as far as a discovery commit
  reads and writes them, and the commit in either: `locality-store/src/memory.rs` and
  `sqlite.rs`.

  The in-memory store rebuilds its entities and their index by path.  The database keeps the
  paths of a mount distinct at every statement, so it first moves each row whose path changes
  to a staging path.  A path column is read back as the path that is written to it; only
  entities and observations are written in the logical form, where a backslash separates
  components.  The search index is left out.
-/
import Locality.Discovery.Preflight

set_option autoImplicit false

namespace Locality.Discovery

open Locality.Core Locality.Foundation
open Locality.Daemon (EntityKey EntityRecord StoreError)

/-! ## Tables -/

/-- The tables that the two stores keep in one way. -/
structure SharedRows where
  mounts : RankedTable MountConfig.mountId
  mountLiveModes : RankedTable MountLiveModeRecord.mountId
  connectorStates : RankedTable ConnectorStateRecord.key
  shadows : RankedTable ShadowSnapshotRecord.key
  hydrationJobs : RankedTable HydrationJobRecord.key
  virtualMutations : RankedTable VirtualMutationRecord.key
  autoSaveEnrollments : RankedTable AutoSaveEnrollmentRecord.key
  remoteObservations : RankedTable RemoteObservationRecord.key
  freshnessStates : RankedTable FreshnessStateRecord.key
  metadataDiscoveryJobs : RankedTable MetadataDiscoveryJobRecord.key
  journals : RankedTable JournalEntry.pushId

/-- The rows of the in-memory store. -/
structure MemoryRows where
  shared : SharedRows
  entities : RankedTable EntityRecord.key
  entitiesByPath : Std.ExtTreeMap (MountId × PathBuf) RemoteId rankOrder

def pathKey (entity : EntityRecord) : MountId × PathBuf := (entity.mountId, entity.path)

/-- The rows of the database. -/
structure DatabaseRows where
  shared : SharedRows
  entities : UniqueTable EntityRecord.key pathKey

/-! ## Reading -/

/-- The rows of a mount, in the order of their keys. -/
def rowsOf {κ ρ : Type} [Ranked κ] {key : ρ → κ} (mountOf : ρ → MountId) (mountId : MountId)
    (table : RankedTable key) : List ρ :=
  table.all.filter fun row => mountOf row = mountId

def mountScope (connector : Text) (mountId : MountId) : ConnectorStateKey :=
  (connector, "mount".toList, mountId.value)

/-- What a reservation holds of the shared tables and the entities. -/
def captureReservation (shared : SharedRows) (entities : RankedTable EntityRecord.key)
    (mountId : MountId) : StoreResult DiscoveryReservation :=
  match shared.mounts.lookup mountId with
  | none => .error (.store (.mountMissing mountId))
  | some mount => .ok {
      mount := mount
      mountLiveMode := shared.mountLiveModes.lookup mountId
      checkpoint := shared.connectorStates.lookup (mountScope mount.connector mountId)
      entities := rowsOf (·.mountId) mountId entities
      shadows := rowsOf (·.mountId) mountId shared.shadows
      hydrationJobs := rowsOf (·.mountId) mountId shared.hydrationJobs
      virtualMutations := rowsOf (·.mountId) mountId shared.virtualMutations
      autoSaveEnrollments := rowsOf (·.mountId) mountId shared.autoSaveEnrollments
      remoteObservations := rowsOf (·.mountId) mountId shared.remoteObservations
      freshnessStates := rowsOf (·.mountId) mountId shared.freshnessStates
      metadataDiscoveryJobs := rowsOf (·.mountId) mountId shared.metadataDiscoveryJobs
      unsettledJournals :=
        (rowsOf (·.mountId) mountId shared.journals).filter (·.status.isUnsettled) }

/-- The preflight of a commit over the rows of its mount. -/
def preflightOver (jsonError : Text → Option Text) (shared : SharedRows)
    (entities : RankedTable EntityRecord.key) (commit : DiscoveryCommit) :
    StoreResult DiscoveryPreflight :=
  match shared.mounts.lookup commit.mountId with
  | none => .error (.store (.mountMissing commit.mountId))
  | some mount =>
      commit.preflightDetails jsonError mount.connector
        (rowsOf (·.mountId) commit.mountId entities)
        (rowsOf (·.mountId) commit.mountId shared.autoSaveEnrollments)
        (rowsOf (·.mountId) commit.mountId shared.virtualMutations)

/-! ## The in-memory store -/

namespace MemoryRows

def captureDiscoveryReservation (rows : MemoryRows) (mountId : MountId) :
    StoreResult DiscoveryReservation :=
  captureReservation rows.shared rows.entities mountId

/-- The entities of the other mounts, and the final ones of the mount. -/
def finalEntities (rows : MemoryRows) (mountId : MountId) (final : EntityMap) :
    RankedTable EntityRecord.key :=
  (rows.entities.retain fun entity => entity.mountId ≠ mountId).putAll final.all

/-- The ids of the entities by their paths. -/
def indexByPath (entities : RankedTable EntityRecord.key) :
    Std.ExtTreeMap (MountId × PathBuf) RemoteId rankOrder :=
  tableOf pathKey (·.remoteId) entities.all

/-- The moved enrollments at their new paths. -/
def insertRehomes (enrollments : RankedTable AutoSaveEnrollmentRecord.key) (mountId : MountId) :
    List AutoSaveRehome → StoreResult (RankedTable AutoSaveEnrollmentRecord.key)
  | [] => pure enrollments
  | rehome :: rehomes =>
      if (enrollments.lookup (mountId, rehome.enrollment.path)).isSome then
        invalid ("cannot rehome auto-save enrollment to occupied path ".toList ++
          quoted (displayPath rehome.enrollment.path))
      else insertRehomes (enrollments.put rehome.enrollment) mountId rehomes

/-- The enrollments that are neither of a deleted entity nor at the path of one. -/
def retainEnrollments (enrollments : RankedTable AutoSaveEnrollmentRecord.key)
    (mountId : MountId) (deletedRemoteIds : List RemoteId) (deletedPaths : List PathBuf) :
    RankedTable AutoSaveEnrollmentRecord.key :=
  enrollments.retain fun enrollment =>
    decide (enrollment.mountId ≠ mountId) ||
      DiscoveryCommit.survives deletedRemoteIds deletedPaths enrollment

/-- `InMemoryStateStore::apply_discovery`. -/
def applyDiscovery (jsonError : Text → Option Text) (rows : MemoryRows)
    (commit : DiscoveryCommit) : StoreResult MemoryRows := do
  let mountId := commit.mountId
  let details ← preflightOver jsonError rows.shared rows.entities commit
  let finalEntities := rows.finalEntities mountId details.finalEntities
  let deletedKeys := commit.entityDeletes.map fun remoteId => (mountId, remoteId)
  let retained := retainEnrollments rows.shared.autoSaveEnrollments mountId details.entityDeletes
    (details.deletedPaths.map Prod.snd)
  let vacated := retained.eraseAll
    (details.autoSaveRehomes.map fun rehome => (mountId, rehome.oldPath))
  let rehomed ← insertRehomes vacated mountId details.autoSaveRehomes
  pure {
    shared := { rows.shared with
      connectorStates := rows.shared.connectorStates.put commit.checkpoint
      shadows := rows.shared.shadows.eraseAll deletedKeys
      hydrationJobs := details.pathMoves.foldl (fun jobs move =>
          jobs.update (mountId, move.remoteId) fun job => { job with path := move.newPath })
        (rows.shared.hydrationJobs.eraseAll deletedKeys)
      virtualMutations := rows.shared.virtualMutations.eraseAll
        (commit.virtualMutationDeletes.map fun localId => (mountId, localId))
      autoSaveEnrollments := rehomed.putAll commit.autoSaveUpserts
      remoteObservations :=
        (rows.shared.remoteObservations.eraseAll deletedKeys).putAll commit.observationUpserts
      freshnessStates :=
        (rows.shared.freshnessStates.eraseAll deletedKeys).putAll commit.freshnessUpserts
      metadataDiscoveryJobs := rows.shared.metadataDiscoveryJobs.eraseAll
        (commit.metadataDiscoveryDeletes.map fun identifier => (mountId, identifier)) }
    entities := finalEntities
    entitiesByPath := indexByPath finalEntities }

end MemoryRows

/-! ## The database -/

/-- The pieces of a text between the backslashes. -/
def backslashPieces : Text → List Text
  | [] => [[]]
  | c :: text =>
      if c = '\\' then [] :: backslashPieces text
      else
        match backslashPieces text with
        | [] => [[c]]
        | piece :: pieces => (c :: piece) :: pieces

/-- The path that is read back from `logical_path_to_text`. -/
def logicalPath (path : PathBuf) : PathBuf :=
  if path.components.all fun component => decide ('\\' ∉ component) then path
  else
    let pieces := path.components.flatMap backslashPieces
    ⟨path.absolute || pieces.head? == some [],
      (pieces.take 1).filter (· ≠ []) ++
        (pieces.drop 1).filter fun piece => piece ≠ [] ∧ piece ≠ ".".toList⟩

namespace DatabaseRows

def captureDiscoveryReservation (rows : DatabaseRows) (mountId : MountId) :
    StoreResult DiscoveryReservation :=
  captureReservation rows.shared rows.entities.toRankedTable mountId

/-- The error of a statement that would give two rows of a mount one path. -/
def uniqueViolation : DiscoveryError :=
  .database "UNIQUE constraint failed: entities.mount_id, entities.path".toList

def natText (n : Nat) : Text := (toString n).toList

def stagingPath (index nonce : Nat) : PathBuf :=
  .relative [".locality-discovery-staging".toList, natText index ++ "-".toList ++ natText nonce]

/-- The first nonce whose path is none of those taken; one of them that many nonces finds. -/
def freeNonce (taken : List PathBuf) (index : Nat) : Nat → Nat → Nat
  | 0, nonce => nonce
  | tries + 1, nonce =>
      if stagingPath index nonce ∈ taken then freeNonce taken index tries (nonce + 1) else nonce

/-- `discovery_staging_path`. -/
def discoveryStagingPath (entities : UniqueTable EntityRecord.key pathKey) (mountId : MountId)
    (index : Nat) (finalPaths : List PathBuf) : PathBuf :=
  let taken := finalPaths ++
    (rowsOf (·.mountId) mountId entities.toRankedTable).map (·.path)
  stagingPath index (freeNonce taken index (taken.length + 1) 0)

/-- `UPDATE entities SET path` of the row of an entity. -/
def setEntityPath (entities : UniqueTable EntityRecord.key pathKey) (key : EntityKey)
    (path : PathBuf) : StoreResult (UniqueTable EntityRecord.key pathKey) :=
  match entities.lookup key with
  | none => pure entities
  | some entity =>
      match entities.put { entity with path := path } with
      | some entities' => pure entities'
      | none => .error uniqueViolation

/-- The rows that move, each at a staging path. -/
def stageMoves (mountId : MountId) (finalPaths : List PathBuf) :
    Nat → List PathMove → UniqueTable EntityRecord.key pathKey →
      StoreResult (UniqueTable EntityRecord.key pathKey)
  | _, [], entities => pure entities
  | index, move :: moves, entities => do
      let staged ← setEntityPath entities (mountId, move.remoteId)
        (discoveryStagingPath entities mountId index finalPaths)
      stageMoves mountId finalPaths (index + 1) moves staged

/-- `DELETE FROM auto_save_enrollments` for a deleted entity. -/
def deleteEnrollments (enrollments : RankedTable AutoSaveEnrollmentRecord.key)
    (mountId : MountId) (deletedPaths : List (RemoteId × PathBuf)) (remoteId : RemoteId) :
    RankedTable AutoSaveEnrollmentRecord.key :=
  match deletedPaths.find? fun deleted => deleted.1 == remoteId with
  | some deleted =>
      enrollments.retain fun enrollment => !(decide (enrollment.mountId = mountId) &&
        (decide (enrollment.remoteId = some remoteId) ||
          decide (enrollment.path = logicalPath deleted.2)))
  | none =>
      enrollments.retain fun enrollment => !(decide (enrollment.mountId = mountId) &&
        decide (enrollment.remoteId = some remoteId))

/-- `upsert_discovery_entity`. -/
def upsertDiscoveryEntities (entities : UniqueTable EntityRecord.key pathKey)
    (upserts : List EntityRecord) : StoreResult (UniqueTable EntityRecord.key pathKey) :=
  match entities.putAll (upserts.map fun entity =>
      { entity with path := logicalPath entity.path }) with
  | some entities' => pure entities'
  | none => .error uniqueViolation

/-- `upsert_discovery_observation`. -/
def upsertDiscoveryObservation (observations : RankedTable RemoteObservationRecord.key)
    (observation : RemoteObservationRecord) : RankedTable RemoteObservationRecord.key :=
  observations.put { observation with projectedPath := logicalPath observation.projectedPath }

/-- `upsert_discovery_auto_save`: an update leaves the column `created_at`. -/
def upsertDiscoveryAutoSave (enrollments : RankedTable AutoSaveEnrollmentRecord.key)
    (enrollment : AutoSaveEnrollmentRecord) : RankedTable AutoSaveEnrollmentRecord.key :=
  match enrollments.lookup enrollment.key with
  | none => enrollments.put enrollment
  | some existing => enrollments.put { enrollment with createdAt := existing.createdAt }

/-- `apply_discovery_commit`. -/
def applyDiscoveryCommit (jsonError : Text → Option Text) (rows : DatabaseRows)
    (commit : DiscoveryCommit) : StoreResult DatabaseRows := do
  let mountId := commit.mountId
  commit.validate jsonError
  match rows.shared.mounts.lookup mountId with
  | none => .error (.store (.mountMissing mountId))
  | some mount => do
      commit.validateConnector mount.connector
      let details ← preflightOver jsonError rows.shared rows.entities.toRankedTable commit
      let finalPaths := commit.entityUpserts.map fun entity => logicalPath entity.path
      let staged ← stageMoves mountId finalPaths 0 details.pathMoves rows.entities
      let deletedKeys := commit.entityDeletes.map fun remoteId => (mountId, remoteId)
      let vacated := rows.shared.autoSaveEnrollments.eraseAll
        (details.autoSaveRehomes.map fun rehome => (mountId, rehome.oldPath))
      let enrollments := commit.entityDeletes.foldl (fun enrollments remoteId =>
        deleteEnrollments enrollments mountId details.deletedPaths remoteId) vacated
      let entities ← upsertDiscoveryEntities (deletedKeys.foldl UniqueTable.erase staged)
        commit.entityUpserts
      pure {
        shared := { rows.shared with
          connectorStates := rows.shared.connectorStates.put commit.checkpoint
          shadows := rows.shared.shadows.eraseAll deletedKeys
          hydrationJobs := details.pathMoves.foldl (fun jobs move =>
              jobs.update (mountId, move.remoteId) fun job => { job with path := move.newPath })
            (rows.shared.hydrationJobs.eraseAll deletedKeys)
          virtualMutations := rows.shared.virtualMutations.eraseAll
            (commit.virtualMutationDeletes.map fun localId => (mountId, localId))
          autoSaveEnrollments := commit.autoSaveUpserts.foldl upsertDiscoveryAutoSave
            ((details.autoSaveRehomes.map (·.enrollment)).foldl upsertDiscoveryAutoSave
              enrollments)
          remoteObservations := commit.observationUpserts.foldl upsertDiscoveryObservation
            (rows.shared.remoteObservations.eraseAll deletedKeys)
          freshnessStates :=
            (rows.shared.freshnessStates.eraseAll deletedKeys).putAll commit.freshnessUpserts
          metadataDiscoveryJobs := rows.shared.metadataDiscoveryJobs.eraseAll
            (commit.metadataDiscoveryDeletes.map fun identifier => (mountId, identifier)) }
        entities := entities }

end DatabaseRows

end Locality.Discovery
