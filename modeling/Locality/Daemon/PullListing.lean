/-
  Daemon/PullListing.lean --- the pulls of `localityd/src/pull.rs` that list the remote:
  of a mount root, of a page with what is below it, and of a directory.

  They save every entry that they are given, one after the other, and hydrate some of
  the entities.  What they do to the files beside that (renaming, stubs, the schema of a
  database, the file of a repaired draft) is a parameter: whatever it is, the store is
  left alone, and the process goes on (`PullFiles`).

  The recursions of the source go on as long as the remote lists what was not visited;
  here a fuel bounds their depth, and a pull that runs out of it ends there.
-/
import Locality.Daemon.Pull
import Locality.Daemon.Reconcile

set_option autoImplicit false

namespace Locality.Daemon.Pull

open Locality.Core Locality.Foundation Locality.Foundation.Fallible

/-! ## Listings -/

inductive ChildContainer where
  | root
  | pageChildren (remoteId : RemoteId)
  | databaseRows (remoteId : RemoteId)
  | directoryChildren (remoteId : RemoteId)
  deriving DecidableEq, Repr

structure ListChildrenResult where
  entries : List TreeEntry
  isComplete : Bool
  deriving DecidableEq, Repr

/-- The connector of a pull. -/
structure SourceAdapter extends HydrationSource where
  enumerate : MountId → LocalityResult (List TreeEntry)
  listChildren : MountId → ChildContainer → PathBuf → LocalityResult ListChildrenResult

def pageIds (entries : List TreeEntry) : List RemoteId :=
  (entries.filter fun entry => decide (entry.kind = .page)).map TreeEntry.remoteId

/-! ## Reports -/

structure PullReport where
  enumerated : Nat
  stubbed : Nat
  hydrated : Nat
  skippedDirty : Nat
  conflicts : List PullConflict
  deriving DecidableEq, Repr

namespace PullReport

def empty : PullReport := ⟨0, 0, 0, 0, []⟩

/-- The `ok` of a report. -/
def ok (self : PullReport) : Bool := decide (self.skippedDirty = 0)

/-- A hydration is counted. -/
def count (self : PullReport) : PullOutcome → PullReport
  | .hydrated | .mergedDirty => { self with hydrated := self.hydrated + 1 }
  | .remoteDeleted => self
  | .skippedDirty => { self with skippedDirty := self.skippedDirty + 1 }
  | .conflicted conflict =>
      { self with
        skippedDirty := self.skippedDirty + 1
        conflicts := self.conflicts ++ [conflict] }

def add (self other : PullReport) : PullReport where
  enumerated := self.enumerated + other.enumerated
  stubbed := self.stubbed + other.stubbed
  hydrated := self.hydrated + other.hydrated
  skippedDirty := self.skippedDirty + other.skippedDirty
  conflicts := self.conflicts ++ other.conflicts

end PullReport

/-! ## Records of entries -/

def virtualChildEntityRecord (entry : TreeEntry) (existing : Option EntityRecord) :
    EntityRecord :=
  match existing with
  | none => entry.toRecord
  | some existing =>
      if HydrationState.isEdited existing.hydration then
        { entry.toRecord with
          path := existing.path
          hydration := existing.hydration
          contentHash := existing.contentHash }
      else if entry.path = existing.path then
        { entry.toRecord with
          hydration := existing.hydration
          contentHash := existing.contentHash }
      else entry.toRecord

/-- The path of an edited entity is kept with or without a blocked move. -/
def mergedEntityRecord (entry : TreeEntry) (existing : Option EntityRecord)
    (preserveExistingPath : Bool) : EntityRecord :=
  match existing with
  | none => entry.toRecord
  | some existing =>
      { entry.toRecord with
        path :=
          if preserveExistingPath || HydrationState.isEdited existing.hydration then
            existing.path
          else entry.path
        hydration :=
          if preserveExistingPath && existing.hydration.canTransitionTo .dirty then .dirty
          else existing.hydration
        contentHash := existing.contentHash
        remoteEditedAt :=
          if remotePreconditionBelongsToShadow existing then existing.remoteEditedAt
          else entry.remoteEditedAt }

/-! ## Media -/

/-- `find_markdown_link_href_end`: what stands before the end, and what after it. -/
def linkHref : Text → Bool → Nat → Option (Text × Text)
  | [], _, _ => none
  | c :: rest, escaped, depth =>
      let taken := fun result : Option (Text × Text) =>
        result.map fun (href, tail) => (c :: href, tail)
      if escaped then taken (linkHref rest false depth)
      else if c = '\\' then taken (linkHref rest true depth)
      else if c = '(' then taken (linkHref rest false (depth + 1))
      else if c = ')' then
        match depth with
        | 0 => some ([], rest)
        | depth + 1 => taken (linkHref rest false depth)
      else taken (linkHref rest false depth)

/-- The loop of `local_media_hrefs`; every round takes a link opener. -/
def localMediaHrefs : Nat → Text → List Text
  | 0, _ => []
  | fuel + 1, markdown =>
      match splitOnce "](".toList markdown with
      | none => []
      | some (_, rest) =>
          match linkHref rest false 0 with
          | none => []
          | some (href, tail) => href :: localMediaHrefs fuel tail

def hasMissingLocalMediaHrefs (markdown : Text) (pagePath outputRoot : PathBuf)
    (assets : PathBuf → Option (List UInt8)) : Bool :=
  (localMediaHrefs markdown.length markdown).any fun href =>
    (resolveMediaHrefWithContentRoot pagePath href outputRoot).any fun localPath =>
      (assets (outputRoot.join localPath)).isNone

/-! ## The files of a pull -/

/-- A computation of a pull leaves the store alone, and is not what stops the process. -/
def LeavesStore {α : Type} (op : PullM α) : Prop :=
  ∀ host, host.writesLeft = none →
    (op host).2.durable.store = host.durable.store ∧ (op host).2.writesLeft = none

/-- What a pull does to the files beside a hydration. -/
structure PullFiles where
  renameProjectionIfNeeded : Option EntityRecord → TreeEntry → PullM Unit
  writeStubIfNeeded : TreeEntry → PullM Bool
  repairGmailDraftProjection : TreeEntry → Text → GmailDraftIdentityRepair → PullM Unit
  writeDatabaseSchema : PathBuf → Text → PullM Unit
  rename_leaves : ∀ existing entry, LeavesStore (renameProjectionIfNeeded existing entry)
  stub_leaves : ∀ entry, LeavesStore (writeStubIfNeeded entry)
  repair_leaves : ∀ entry text repair, LeavesStore (repairGmailDraftProjection entry text repair)
  schema_leaves : ∀ path text, LeavesStore (writeDatabaseSchema path text)

section Pull

variable (yaml : YamlSerde) (source : SourceAdapter) (files : PullFiles)
  -- `virtual_projection_mount_point` of the mount, and its `projection_output_root`
  (mountPoint contentRoot : PathBuf) (mount : MountConfig)

def projectionContentPath (relativePath : PathBuf) : PathBuf := contentRoot.join relativePath

def getEntity (key : EntityKey) : PullM (Option EntityRecord) := do
  let durable ← store readDurable
  return durable.store.entities.get key

def listEntities : PullM (List EntityRecord) := do
  let durable ← store readDurable
  return durable.store.listEntities mount.mountId

/-- `hydrate_entity` at the entity's own path. -/
def hydrate (entity : EntityRecord) : PullM PullOutcome :=
  hydrateEntity yaml source.toHydrationSource mountPoint mount entity
    (projectionContentPath contentRoot entity.path) contentRoot

/-- The entity is hydrated, if it is there. -/
def hydrateIfPresent (remoteId : RemoteId) (wanted : EntityRecord → PullM Bool)
    (report : PullReport) : PullM PullReport := do
  let entity ← getEntity (mount.mountId, remoteId)
  match entity with
  | none => return report
  | some entity =>
      let hydrates ← wanted entity
      if !hydrates then return report
      else
        let outcome ← hydrate yaml source mountPoint contentRoot mount entity
        return report.count outcome

def hydrateEach (wanted : EntityRecord → PullM Bool) :
    List RemoteId → PullReport → PullM PullReport
  | [], report => return report
  | remoteId :: remoteIds, report => do
      let report ← hydrateIfPresent yaml source mountPoint contentRoot mount remoteId wanted
        report
      hydrateEach wanted remoteIds report

/-! ## Entries -/

def saveVirtualChild (entry : TreeEntry) : PullM Unit := do
  let existing ← getEntity (entry.mountId, entry.remoteId)
  store (saveEntity (virtualChildEntityRecord entry existing))

def saveVirtualChildren : List TreeEntry → PullM Unit
  | [] => pure ()
  | entry :: entries => do
      saveVirtualChild entry
      saveVirtualChildren entries

def repairLegacyGmailDraftMessageIdCollision (record : EntityRecord)
    (replacementFrontmatter : Text) : PullM GmailDraftIdentityRepair := do
  if !isGmailDraft mount record.remoteId record.path then return .empty
  else
    let durable ← store readDurable
    match durable.store.entities.findByPath mount.mountId record.path with
    | none => return .empty
    | some occupant =>
        if occupant.remoteId = record.remoteId then return .empty
        else if isCleanLegacyGmailDraftMessageId occupant then
          store (writeDurable fun durable => durable.withStore
            (durable.store.retireLegacyDraft mount occupant record replacementFrontmatter))
          return ⟨some occupant, durable.store.shadows (mount.mountId, occupant.remoteId)⟩
        else return .empty

def saveEntityAfterGmailDraftRepair (entry : TreeEntry) (record : EntityRecord) :
    PullM Unit := do
  let replacementFrontmatter := gmailDraftReplacementFrontmatter entry
  let repair ← repairLegacyGmailDraftMessageIdCollision mount record replacementFrontmatter
  store (saveEntity record)
  files.repairGmailDraftProjection entry replacementFrontmatter repair

/-- The entry as it is projected from its record. -/
def projectedEntry (entry : TreeEntry) (record : EntityRecord) : TreeEntry :=
  { entry with
    path := record.path
    hydration := record.hydration
    contentHash := record.contentHash
    remoteEditedAt := record.remoteEditedAt }

/-- One entry over plain files; whether a stub was written for it. -/
def saveListedEntry (project : TreeEntry → EntityRecord → TreeEntry) (preserved : List RemoteId)
    (entry : TreeEntry) : PullM Bool := do
  let existing ← getEntity (entry.mountId, entry.remoteId)
  let record := mergedEntityRecord entry existing (preserved.contains entry.remoteId)
  saveEntityAfterGmailDraftRepair files mount (project entry record) record
  files.renameProjectionIfNeeded existing (project entry record)
  files.writeStubIfNeeded (project entry record)

/-- The stubs that were written for the entries are counted. -/
def saveListedEntries (project : TreeEntry → EntityRecord → TreeEntry)
    (preserved : List RemoteId) : List TreeEntry → Nat → PullM Nat
  | [], stubbed => return stubbed
  | entry :: entries, stubbed => do
      let wrote ← saveListedEntry files mount project preserved entry
      saveListedEntries project preserved entries (if wrote then stubbed + 1 else stubbed)

/-- One entry of a directory of a virtual projection. -/
def saveVirtualListedEntry (entry : TreeEntry) : PullM Unit := do
  let existing ← getEntity (entry.mountId, entry.remoteId)
  let record := virtualChildEntityRecord entry existing
  saveEntityAfterGmailDraftRepair files mount (projectedEntry entry record) record

def saveVirtualListedEntries : List TreeEntry → PullM Unit
  | [] => pure ()
  | entry :: entries => do
      saveVirtualListedEntry files mount entry
      saveVirtualListedEntries entries

/-! ## Moves that local edits block -/

structure RemoteMovePlan where
  preserveRemoteIds : List RemoteId
  conflicts : List PullConflict

/-- `RemoteMovePlan::default()`. -/
def RemoteMovePlan.empty : RemoteMovePlan := ⟨[], []⟩

def canMoveLocalProjection (entity : EntityRecord) : PullM Bool := do
  if HydrationState.isEdited entity.hydration then return false
  else if entity.kind ≠ .page then return true
  else canReplaceFile yaml mount entity (projectionContentPath contentRoot entity.path)

def remoteMoveBlockers (sourceRoot : PathBuf) : List EntityRecord → PullM (List EntityRecord)
  | [] => return []
  | entity :: entities => do
      if !pathInProjectionSubtree entity.namespaceRoot sourceRoot then
        remoteMoveBlockers sourceRoot entities
      else
        let canMove ← canMoveLocalProjection yaml contentRoot mount entity
        let blockers ← remoteMoveBlockers sourceRoot entities
        return if canMove then blockers else entity :: blockers

/-- The moves that are blocked, and what blocks them. -/
def blockedMovesOf (existingEntities : List EntityRecord) :
    List TreeEntry → PullM (List (BlockedProjectionMove × List EntityRecord))
  | [] => return []
  | entry :: entries => do
      match existingEntities.find? fun entity => decide (entity.remoteId = entry.remoteId) with
      | none => blockedMovesOf existingEntities entries
      | some existing =>
          if existing.path = entry.path then blockedMovesOf existingEntities entries
          else
            let blockers ← remoteMoveBlockers yaml contentRoot mount existing.namespaceRoot
              existingEntities
            let blocked ← blockedMovesOf existingEntities entries
            return if blockers.isEmpty then blocked
              else (⟨existing.namespaceRoot, entry.namespaceRoot⟩, blockers) :: blocked

/-- Every blocker is reported once. -/
def remoteMovePlan (entries : List TreeEntry) : PullM RemoteMovePlan := do
  let existingEntities ← listEntities mount
  let blocked ← blockedMovesOf yaml contentRoot mount existingEntities entries
  let moves := blocked.map Prod.fst
  let blockers := (blocked.flatMap Prod.snd).pwFilter fun left right =>
    left.remoteId ≠ right.remoteId
  return {
    preserveRemoteIds := (entries.filter fun entry =>
      match existingEntities.find? fun entity => decide (entity.remoteId = entry.remoteId) with
      | none => false
      | some existing => shouldPreserveForBlockedMove existing entry moves).map
      TreeEntry.remoteId
    conflicts := blockers.map (pullConflict mountPoint mount) }

/-! ## The root of a mount -/

/-- `pull_workspace_virtual_mount_root`. -/
def pullWorkspaceVirtualMountRoot : PullM PullReport := do
  let result ← connector (liftM (source.listChildren mount.mountId .root .empty))
  saveVirtualChildren result.entries
  return { PullReport.empty with enumerated := result.entries.length }

def compactRemoteId (remoteId : RemoteId) : Text := remoteId.value.filter fun c => c != '-'

def remoteIdsMatch (left right : RemoteId) : Bool :=
  decide (left = right) ||
    (decide (mount.connector = "notion".toList) &&
      decide (compactRemoteId left = compactRemoteId right))

def shouldHydrateMountRootEntry (entry : TreeEntry) : Bool :=
  decide (entry.kind = .page) &&
    mount.remoteRootId.any fun remoteRootId => remoteIdsMatch mount remoteRootId entry.remoteId

def projectionHasMissingMedia (path pagePath : PathBuf) : PullM Bool := do
  let durable ← store readDurable
  if (durable.files path).isNone then return false
  else
    let markdown ← readToString path
    return hasMissingLocalMediaHrefs markdown pagePath contentRoot durable.assets

def shouldRepairMissingMedia (entity : EntityRecord) : PullM Bool :=
  if entity.kind = .page ∧ entity.hydration = .hydrated then
    projectionHasMissingMedia contentRoot (projectionContentPath contentRoot entity.path)
      entity.path
  else return false

def repairMissingMediaForHydratedEntries (entries : List TreeEntry) : PullM PullReport :=
  if mount.connector ≠ "notion".toList then return .empty
  else
    hydrateEach yaml source mountPoint contentRoot mount (shouldRepairMissingMedia contentRoot)
      (entries.map TreeEntry.remoteId) .empty

/-- The entry of the mount's own page, where the listing begins with it. -/
def hydrateMountRoot (entries : List TreeEntry) (plan : RemoteMovePlan) (report : PullReport) :
    PullM PullReport := do
  match entries.head?.filter (shouldHydrateMountRootEntry mount) with
  | none => return report
  | some rootEntry =>
      let rootEntity ← getEntity (mount.mountId, rootEntry.remoteId)
      match rootEntity with
      | none =>
          throw (.store (StoreError.entityMissing mount.mountId rootEntry.remoteId).toLocalityError)
      | some rootEntity =>
          if plan.preserveRemoteIds.contains rootEntry.remoteId then return report
          else
            let outcome ← hydrate yaml source mountPoint contentRoot mount rootEntity
            return report.count outcome

def pullMountRoot : PullM PullReport := do
  let entries ← connector (liftM (source.enumerate mount.mountId))
  let plan ← remoteMovePlan yaml mountPoint contentRoot mount entries
  let stubbed ← saveListedEntries files mount
    (fun entry record => { entry with path := record.path }) plan.preserveRemoteIds entries 0
  let report ← hydrateMountRoot yaml source mountPoint contentRoot mount entries plan {
    enumerated := entries.length
    stubbed := stubbed
    hydrated := 0
    skippedDirty := plan.conflicts.length
    conflicts := plan.conflicts }
  let repair ← repairMissingMediaForHydratedEntries yaml source mountPoint contentRoot mount
    entries
  return report.add repair

/-! ## Pages and what is below them -/

/-- The pages of the list, each with the pages below it. -/
def hydratePages (descend : List RemoteId → List RemoteId → PullM (PullReport × List RemoteId)) :
    List RemoteId → PullReport → List RemoteId → PullM (PullReport × List RemoteId)
  | [], report, visited => return (report, visited)
  | pageId :: pageIds_, report, visited => do
      if visited.contains pageId then hydratePages descend pageIds_ report visited
      else
        let visited := pageId :: visited
        let page ← getEntity (mount.mountId, pageId)
        match page with
        | none => hydratePages descend pageIds_ report visited
        | some page =>
            if page.kind ≠ .page then hydratePages descend pageIds_ report visited
            else
              let outcome ← hydrate yaml source mountPoint contentRoot mount page
              let report := report.count outcome
              match outcome with
              | .hydrated | .mergedDirty =>
                  let result ← connector (liftM (source.listChildren mount.mountId
                    (.pageChildren page.remoteId) (pageContainerPath page.path)))
                  saveVirtualChildren result.entries
                  let (below, visited) ← descend (pageIds result.entries) visited
                  hydratePages descend pageIds_
                    (({ report with enumerated := report.enumerated + result.entries.length }
                      : PullReport).add below) visited
              | .remoteDeleted | .skippedDirty | .conflicted _ =>
                  hydratePages descend pageIds_ report visited

def hydratePageDescendants :
    Nat → List RemoteId → List RemoteId → PullM (PullReport × List RemoteId)
  | 0, _, visited => return (.empty, visited)
  | fuel + 1, pageIds_, visited =>
      hydratePages yaml source mountPoint contentRoot mount (hydratePageDescendants fuel)
        pageIds_ .empty visited

/-- `pull_page_directory_path`; the page is the one stored at the directory's `page.md`. -/
def pullPageDirectoryPath (fuel : Nat) (page : EntityRecord) : PullM PullReport := do
  let outcome ← hydrate yaml source mountPoint contentRoot mount page
  if outcome = .remoteDeleted then return .empty
  else
    let result ← connector (liftM (source.listChildren mount.mountId
      (.pageChildren page.remoteId) (pageContainerPath page.path)))
    saveVirtualChildren result.entries
    let (below, _) ← hydratePageDescendants yaml source mountPoint contentRoot mount fuel
      (pageIds result.entries) []
    return (({ PullReport.empty with enumerated := result.entries.length } : PullReport).count
      outcome).add below

/-! ## Pruning -/

def plainEntityListingParentPath (entity : EntityRecord) : PathBuf :=
  if entity.kind = .page ∧ isPageDocumentPath entity.path then
    pageListingParentPath entity.path
  else parentPath entity.path

def plainEntitySubtreeRootPath (entity : EntityRecord) : PathBuf :=
  if entity.kind = .page ∧ isPageDocumentPath entity.path then pageContainerPath entity.path
  else entity.path

def stalePlainChildSubtree (entities : List EntityRecord) (child : EntityRecord) :
    List EntityRecord :=
  entities.filter fun entity =>
    decide (entity.remoteId = child.remoteId) ||
      entity.path.startsWith (plainEntitySubtreeRootPath child)

def stalePlainChildSubtreeCanBeRemoved : List EntityRecord → PullM Bool
  | [] => return true
  | entity :: subtree => do
      if entity.kind ≠ .page then stalePlainChildSubtreeCanBeRemoved subtree
      else
        let canReplace ← canReplaceFile yaml mount entity
          (projectionContentPath contentRoot entity.path)
        if !canReplace then return false
        else stalePlainChildSubtreeCanBeRemoved subtree

/-- A directory is removed where nothing is left in it, which no file shows. -/
def removeCleanEntityProjection (path : PathBuf) (kind : EntityKind) : PullM Unit := do
  match kind with
  | .directory | .database =>
      let durable ← store readDurable
      if (durable.files path).isSome then
        throw (.writeFile path (.io "Not a directory (os error 20)".toList))
      else pure ()
  | .page | .asset | .unknown _ => writeFile path (removeCleanProjection path)

/-- The children of the directory that the listing does not name, with what is below each. -/
def staleSubtrees (entities : List EntityRecord) (parent : PathBuf)
    (returnedRemoteIds : List RemoteId) : List (List EntityRecord) :=
  (entities.filter fun entity =>
    decide (plainEntityListingParentPath entity = parent) &&
      !returnedRemoteIds.contains entity.remoteId).map (stalePlainChildSubtree entities)

/-- The entities that are deleted: of each subtree all, or none. -/
def prunedEntities : List (List EntityRecord) → PullM (List EntityRecord)
  | [] => return []
  | subtree :: subtrees => do
      if subtree.any fun entity => HydrationState.isEdited entity.hydration then
        prunedEntities subtrees
      else
        let canBeRemoved ← stalePlainChildSubtreeCanBeRemoved yaml contentRoot mount subtree
        let pruned ← prunedEntities subtrees
        return if canBeRemoved then subtree ++ pruned else pruned

/-- Deepest first. -/
def removalOrder (left right : PathBuf × EntityKind) : Bool :=
  decide (right.1.components.length < left.1.components.length) ||
    (decide (right.1.components.length = left.1.components.length) &&
      !decide (left.1.components < right.1.components))

def removeProjections : List (PathBuf × EntityKind) → PullM Unit
  | [] => pure ()
  | (path, kind) :: removals => do
      removeCleanEntityProjection path kind
      removeProjections removals

def deleteEntities (mountId : MountId) : List RemoteId → PullM Unit
  | [] => pure ()
  | remoteId :: remoteIds => do
      store (deleteEntity mountId remoteId)
      deleteEntities mountId remoteIds

def prunePlainDirectoryChildren (entities : List EntityRecord) (parent : PathBuf)
    (returnedRemoteIds : List RemoteId) : PullM Nat := do
  let pruned ← prunedEntities yaml contentRoot mount
    (staleSubtrees entities parent returnedRemoteIds)
  let removals := (pruned.map fun entity =>
    (projectionContentPath contentRoot entity.path, entity.kind)).mergeSort removalOrder
  removeProjections (removals.destutter fun left right => left ≠ right)
  let deleteIds := (pruned.map EntityRecord.remoteId).dedup
  deleteEntities mount.mountId deleteIds
  return deleteIds.length

def pruneStalePlainDirectoryChildren (parent : PathBuf) (returnedRemoteIds : List RemoteId) :
    PullM Nat := do
  let entities ← listEntities mount
  prunePlainDirectoryChildren yaml contentRoot mount entities parent returnedRemoteIds

/-- `prune_stale_virtual_children` of `virtual_fs.rs`: the records only. -/
def pruneStaleVirtualChildren (parent : PathBuf) (returnedRemoteIds : List RemoteId) :
    PullM Nat := do
  let entities ← listEntities mount
  let pruned := ((staleSubtrees entities parent returnedRemoteIds).filter fun subtree =>
    !subtree.any fun entity => HydrationState.isEdited entity.hydration).flatten
  let deleteIds := (pruned.map EntityRecord.remoteId).dedup
  deleteEntities mount.mountId deleteIds
  return deleteIds.length

/-! ## Directories -/

/-- `DATABASE_DIRECTORY_ROW_HYDRATION_LIMIT`. -/
def databaseDirectoryRowHydrationLimit : Nat := 5

def shouldHydratePlainDirectoryPage (entity : EntityRecord) : PullM Bool := do
  if entity.kind ≠ .page then return false
  else if entity.hydration ≠ .hydrated then return true
  else
    let path := projectionContentPath contentRoot entity.path
    let durable ← store readDurable
    if (durable.files path).isNone then return true
    else isStubFile path

/-- The ids of the entries of a kind that no blocked move holds back. -/
def movedIds (kind : EntityKind) (plan : RemoteMovePlan) (entries : List TreeEntry) :
    List RemoteId :=
  (entries.filter fun entry =>
    decide (entry.kind = kind) && !plan.preserveRemoteIds.contains entry.remoteId).map
    TreeEntry.remoteId

structure DirectoryTraversal where
  report : PullReport
  pageIds : List RemoteId
  visited : List RemoteId

/-- One listing of a directory over plain files. -/
def listPlainDirectory (container : ChildContainer) (parent : PathBuf) :
    PullM (List TreeEntry × RemoteMovePlan × Nat) := do
  let result ← connector (liftM (source.listChildren mount.mountId container parent))
  if result.isComplete then
    let _ ← pruneStalePlainDirectoryChildren yaml contentRoot mount parent
      (result.entries.map TreeEntry.remoteId)
  let plan ← remoteMovePlan yaml mountPoint contentRoot mount result.entries
  let stubbed ← saveListedEntries files mount projectedEntry plan.preserveRemoteIds
    result.entries 0
  return (result.entries, plan, stubbed)

/-- One listing of a directory of a virtual projection. -/
def listVirtualDirectory (container : ChildContainer) (parent : PathBuf) :
    PullM (List TreeEntry) := do
  let result ← connector (liftM (source.listChildren mount.mountId container parent))
  if result.isComplete then
    let _ ← pruneStaleVirtualChildren mount parent (result.entries.map TreeEntry.remoteId)
  saveVirtualListedEntries files mount result.entries
  return result.entries

/-- The directories of the list, each with the directories below it. -/
def traverseDirectories (descend : List RemoteId → List RemoteId → PullM DirectoryTraversal) :
    List RemoteId → DirectoryTraversal → PullM DirectoryTraversal
  | [], traversal => return traversal
  | directoryId :: directoryIds, traversal => do
      if traversal.visited.contains directoryId then
        traverseDirectories descend directoryIds traversal
      else
        let traversal := { traversal with visited := directoryId :: traversal.visited }
        let directory ← getEntity (mount.mountId, directoryId)
        match directory with
        | none => traverseDirectories descend directoryIds traversal
        | some directory =>
            if directory.kind ≠ .directory then
              traverseDirectories descend directoryIds traversal
            else
              let (entries, plan, stubbed) ← listPlainDirectory yaml source files mountPoint
                contentRoot mount (.directoryChildren directory.remoteId) directory.path
              let below ← descend (movedIds .directory plan entries) traversal.visited
              traverseDirectories descend directoryIds {
                report := (traversal.report.add {
                  enumerated := entries.length
                  stubbed := stubbed
                  hydrated := 0
                  skippedDirty := plan.conflicts.length
                  conflicts := plan.conflicts }).add below.report
                pageIds := traversal.pageIds ++ movedIds .page plan entries ++ below.pageIds
                visited := below.visited }

def collectConnectorDirectoryDescendants :
    Nat → List RemoteId → List RemoteId → PullM DirectoryTraversal
  | 0, _, visited => return ⟨.empty, [], visited⟩
  | fuel + 1, directoryIds, visited =>
      traverseDirectories yaml source files mountPoint contentRoot mount
        (collectConnectorDirectoryDescendants fuel) directoryIds ⟨.empty, [], visited⟩

structure VirtualDirectoryTarget where
  parentPath : PathBuf
  container : ChildContainer
  schemaDatabaseId : Option RemoteId

/-- The rows of a small database are hydrated, unless they are edited. -/
def rowWanted (row : EntityRecord) : PullM Bool :=
  return !HydrationState.isEdited row.hydration

/-- The schema of a database, and its rows where there are few of them. -/
def pullDatabaseRows (hasStateRoot : Bool) (target : VirtualDirectoryTarget)
    (rowIds : List RemoteId) (enumerated : Nat) (report : PullReport) : PullM PullReport := do
  match target.schemaDatabaseId with
  | none => return report
  | some databaseId =>
      if !hasStateRoot then return report
      else
        let schema ← connector (liftM (source.fetchDatabaseSchemaYaml databaseId))
        match schema with
        | none => pure ()
        | some schema =>
            files.writeDatabaseSchema ((contentRoot.join target.parentPath).join schemaFilename)
              schema
        if enumerated ≤ databaseDirectoryRowHydrationLimit then
          hydrateEach yaml source mountPoint contentRoot mount rowWanted rowIds report
        else return report

/-- The directory of a virtual projection. -/
def pullVirtualDirectory (fuel : Nat) (hasStateRoot : Bool) (target : VirtualDirectoryTarget) :
    PullM PullReport := do
  let entries ← listVirtualDirectory source files mount target.container target.parentPath
  let report ← pullDatabaseRows yaml source files mountPoint contentRoot mount hasStateRoot target
    (pageIds entries) entries.length { PullReport.empty with enumerated := entries.length }
  match target.container with
  | .pageChildren _ =>
      let (below, _) ← hydratePageDescendants yaml source mountPoint contentRoot mount fuel
        (pageIds entries) []
      return report.add below
  | .root | .databaseRows _ | .directoryChildren _ => return report

/-- The directory over plain files. -/
def pullPlainDirectory (fuel : Nat) (hasStateRoot : Bool) (target : VirtualDirectoryTarget) :
    PullM PullReport := do
  let (entries, plan, stubbed) ← listPlainDirectory yaml source files mountPoint contentRoot
    mount target.container target.parentPath
  let report ← pullDatabaseRows yaml source files mountPoint contentRoot mount hasStateRoot target
    (movedIds .page plan entries) entries.length {
      enumerated := entries.length
      stubbed := stubbed
      hydrated := 0
      skippedDirty := plan.conflicts.length
      conflicts := plan.conflicts }
  let traversal ← collectConnectorDirectoryDescendants yaml source files mountPoint contentRoot
    mount fuel (movedIds .directory plan entries) []
  let report := report.add traversal.report
  match target.container with
  | .pageChildren _ =>
      let (below, _) ← hydratePageDescendants yaml source mountPoint contentRoot mount fuel
        (movedIds .page plan entries) []
      hydrateEach yaml source mountPoint contentRoot mount
        (shouldHydratePlainDirectoryPage contentRoot) traversal.pageIds (report.add below)
  | .databaseRows _ =>
      hydrateEach yaml source mountPoint contentRoot mount
        (shouldHydratePlainDirectoryPage contentRoot) traversal.pageIds report
  | .root | .directoryChildren _ =>
      hydrateEach yaml source mountPoint contentRoot mount
        (shouldHydratePlainDirectoryPage contentRoot)
        (movedIds .page plan entries ++ traversal.pageIds) report

/-- `virtual_directory_target`. -/
def virtualDirectoryTarget (relativePath : PathBuf) : PullM (Option VirtualDirectoryTarget) := do
  if relativePath.isEmpty then return none
  else
    let entities ← listEntities mount
    match entities.find? fun entity =>
        decide (entity.kind = .page) && decide (pageContainerPath entity.path = relativePath) with
    | some page => return some ⟨relativePath, .pageChildren page.remoteId, none⟩
    | none =>
        let durable ← store readDurable
        match durable.store.entities.findByPath mount.mountId relativePath with
        | none => return none
        | some entity =>
            match entity.kind with
            | .database =>
                return some ⟨entity.path, .databaseRows entity.remoteId, some entity.remoteId⟩
            | .directory => return some ⟨entity.path, .directoryChildren entity.remoteId, none⟩
            | .page | .asset | .unknown _ => return none

/-- `pull_virtual_directory_path`. -/
def pullVirtualDirectoryPath (fuel : Nat) (hasStateRoot : Bool) (relativePath : PathBuf) :
    PullM (Option PullReport) := do
  let target ← virtualDirectoryTarget mount relativePath
  match target with
  | none => return none
  | some target =>
      let report ←
        if mount.projection.usesVirtualFilesystem then
          pullVirtualDirectory yaml source files mountPoint contentRoot mount fuel hasStateRoot
            target
        else
          pullPlainDirectory yaml source files mountPoint contentRoot mount fuel hasStateRoot
            target
      return some report

/-! ## One entity -/

/-- `pull_entity_path`. -/
def pullEntityPath (relativePath : PathBuf) : PullM PullReport := do
  let durable ← store readDurable
  match durable.store.entities.findByPath mount.mountId relativePath with
  | none =>
      throw (.store (.io ("path \x60".toList ++ displayPath relativePath ++
        "\x60 was not found in mount \x60".toList ++ mount.mountId.value ++ "\x60".toList)))
  | some entity =>
      let outcome ← hydrate yaml source mountPoint contentRoot mount entity
      return PullReport.empty.count outcome

end Pull

end Locality.Daemon.Pull
