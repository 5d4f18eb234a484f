/-
  Daemon/Reconcile.lean --- the scheduled pull of `localityd/src/reconcile.rs`: every
  entry that the remote lists is saved, its projection is renamed and refreshed, and a
  hydration may be queued, one entry after the other.

  What the daemon decides elsewhere is a parameter, as it is a trait in the source: the
  strategy, the source of entries, and the engine that hydrations are queued in.  The
  persisted hydration jobs, which the repair of a Gmail draft deletes from, are left
  out, as nothing modelled here reads them; so is the repair of a legacy content root,
  which does something on one platform only.
-/
import Locality.Daemon.Disk
import Locality.Daemon.ShadowMatch

set_option autoImplicit false

namespace Locality.Daemon

open Locality.Core Locality.Foundation

/-! ## Schedules -/

structure PullSchedulerTick where
  pollActive : Bool
  pollCold : Bool
  deriving DecidableEq, Repr

def PullSchedulerTick.isIdle (self : PullSchedulerTick) : Bool :=
  !self.pollActive && !self.pollCold

structure HydrationPolicy where
  autoHydrateRecentDays : Nat
  prefetchNeighbors : Bool
  eagerUnderPageCount : Option Nat
  deriving DecidableEq, Repr

structure MountFetchSchedule where
  mount : MountConfig
  tick : PullSchedulerTick
  policy : HydrationPolicy

structure MountFetchPlan where
  enumerate : Bool
  deriving DecidableEq, Repr

structure EntityFetchSchedule where
  mount : MountConfig
  entry : TreeEntry
  existing : Option EntityRecord
  pageCount : Nat
  tick : PullSchedulerTick
  policy : HydrationPolicy

structure EntityFetchPlan where
  queueHydration : Option HydrationReason
  deriving DecidableEq, Repr

structure FetchScheduleStrategy where
  mountPlan : MountFetchSchedule → MountFetchPlan
  entityPlan : EntityFetchSchedule → EntityFetchPlan

/-- The remote, as a scheduled pull sees it. -/
structure ScheduledPullSource where
  enumerateMount : MountConfig → LocalityResult (List TreeEntry)
  databaseSchemaYaml : MountConfig → RemoteId → LocalityResult (Option Text)

/-- Whatever hydrations are queued in. -/
structure HydrationEngine (η : Type) where
  queue : HydrationRequest → η → LocalityResult Unit × η

inductive BackgroundHydrationPolicy where
  | onDemand
  | eager
  deriving DecidableEq, Repr

/-- The `background_hydration_policy` of the connector's `source_descriptor`. -/
def backgroundHydrationPolicy (connector : Text) : BackgroundHydrationPolicy :=
  if connector = "slack".toList then .eager else .onDemand

/-- The page count is an `as u32`. -/
def shouldEagerHydrate (workspacePageCount : Nat) (policy : HydrationPolicy) : Bool :=
  policy.eagerUnderPageCount.any fun threshold =>
    decide (workspacePageCount % 2 ^ 32 ≤ threshold)

def isRemoteRootEntry (mount : MountConfig) (entry : TreeEntry) : Bool :=
  mount.remoteRootId.any fun remoteRootId => decide (remoteRootId = entry.remoteId)

def shouldRefreshHydratedEntity (existing : EntityRecord) (entry : TreeEntry) : Bool :=
  decide (existing.hydration = .hydrated) && existing.remoteEditedAt.isSome &&
    entry.remoteEditedAt.isSome && decide (existing.remoteEditedAt ≠ entry.remoteEditedAt)

/-- `DefaultFetchScheduleStrategy`. -/
def defaultFetchScheduleStrategy : FetchScheduleStrategy where
  mountPlan := fun request =>
    if request.mount.projection.usesVirtualFilesystem && request.mount.remoteRootId.isNone then
      ⟨false⟩
    else ⟨!request.tick.isIdle⟩
  entityPlan := fun request =>
    if request.entry.kind ≠ .page then ⟨none⟩
    else if isRemoteRootEntry request.mount request.entry then ⟨some .policy⟩
    else if shouldEagerHydrate request.pageCount request.policy then ⟨some .policy⟩
    else if backgroundHydrationPolicy request.mount.connector = .eager ∧
        request.existing.all (fun existing =>
          decide (existing.hydration = .virtual) || decide (existing.hydration = .stub)) then
      ⟨some .prefetch⟩
    else if request.existing.any (fun existing =>
        shouldRefreshHydratedEntity existing request.entry) then
      ⟨some .remoteFastForward⟩
    else ⟨none⟩

structure ScheduledPullReport where
  mountsChecked : Nat
  mountsPolled : Nat
  enumerated : Nat
  stubbed : Nat
  schemasWritten : Nat
  queuedHydrations : Nat
  deriving DecidableEq, Repr

/-- `ScheduledPullReport::default()`. -/
def ScheduledPullReport.empty : ScheduledPullReport := ⟨0, 0, 0, 0, 0, 0⟩

/-! ## The state of a scheduled pull -/

structure Reconciling (η : Type) where
  store : Store
  disk : Disk
  engine : η
  nowMs : Nat

abbrev ReconcileM (η : Type) : Type → Type := Fallible LocalityError (Reconciling η)

section Effects

variable {η : Type}

def readStore : ReconcileM η Store := fun st => (.ok st.store, st)

def readDisk : ReconcileM η Disk := fun st => (.ok st.disk, st)

def modifyStore (change : Store → Store) : ReconcileM η Unit := fun st =>
  (.ok (), { st with store := change st.store })

def storeEntity (record : EntityRecord) : ReconcileM η Unit := fun st =>
  match st.store.entities.save record with
  | .error error => (.error error.toLocalityError, st)
  | .ok entities => (.ok (), { st with store := { st.store with entities := entities } })

/-- An operation on the disk, with the error that it raises. -/
def onDisk (describe : Text → LocalityError) (op : Disk → Except Text Disk) :
    ReconcileM η Unit := fun st =>
  match op st.disk with
  | .error error => (.error (describe error), st)
  | .ok disk => (.ok (), { st with disk := disk })

/-- `observation_timestamp`. -/
def observationTimestamp : ReconcileM η Text := fun st =>
  (.ok ("unix_ms:".toList ++ (toString st.nowMs).toList), st)

def queueHydration (engine : HydrationEngine η) (request : HydrationRequest) :
    ReconcileM η Unit := fun st =>
  ((engine.queue request st.engine).1, { st with engine := (engine.queue request st.engine).2 })

/-! ## Observations -/

def initialFreshnessTier (existing : Option EntityRecord) : FreshnessTier :=
  match existing.map EntityRecord.hydration with
  | some .dirty | some .conflicted => .hot
  | some .hydrated => .warm
  | some .virtual | some .stub | none => .cold

def remoteVersionChanged (existing : Option EntityRecord) (entry : TreeEntry) : Bool :=
  match existing.bind EntityRecord.remoteEditedAt, entry.remoteEditedAt with
  | some base, some observed => decide (base ≠ observed)
  | _, _ => false

def recordRemoteObservation (entry : TreeEntry) (existing : Option EntityRecord)
    (observedAt : Text) : ReconcileM η Unit := do
  modifyStore fun store => store.saveRemoteObservation {
    mountId := entry.mountId
    remoteId := entry.remoteId
    kind := entry.kind
    title := entry.title
    projectedPath := entry.path
    remoteVersion := entry.remoteEditedAt
    observedAt := observedAt
    deleted := false }
  let store ← readStore
  let freshness := (store.freshness (entry.mountId, entry.remoteId)).getD
    (FreshnessStateRecord.new entry.mountId entry.remoteId (initialFreshnessTier existing))
  modifyStore fun store => store.saveFreshnessState
    { freshness with
      lastCheckedAt := some observedAt
      remoteHintPending := freshness.remoteHintPending || remoteVersionChanged existing entry }

/-! ## Files of the projection -/

def createDirAll (path : PathBuf) : ReconcileM η Unit :=
  onDisk (fun error => .io ("failed to create scheduled pull directory \x60".toList ++
    displayPath path ++ "\x60: ".toList ++ error)) fun disk => disk.createDirAll path

def readProjection (path : PathBuf) : ReconcileM η Text := do
  let disk ← readDisk
  match disk.node path with
  | none => throw (readError path "No such file or directory (os error 2)".toList)
  | some .directory => throw (readError path "Is a directory (os error 21)".toList)
  | some (.file (.invalidUtf8 _)) =>
      throw (readError path "stream did not contain valid UTF-8".toList)
  | some (.file (.text contents)) => return contents

/-- The path of the temporary file of a write. -/
def tempPath (path : PathBuf) : PathBuf :=
  match path.fileName with
  | some name =>
      ⟨path.absolute, path.components.dropLast ++ ['.' :: name ++ ".loc-tmp".toList]⟩
  | none => ⟨path.absolute, path.components ++ [".loc-write.loc-tmp".toList]⟩

/-- A file is written beside the path, and renamed over it. -/
def replaceFile (path : PathBuf) (contents : Text) (disk : Disk) : Except Text Disk :=
  if hdirectory : disk.node path ≠ some .directory then
    if hparents : ∀ dir ∈ path.ancestors, path ≠ dir → disk.node dir = some .directory then
      .ok (disk.withFile path (.text contents) hdirectory fun dir habove =>
        hparents dir (PathBuf.mem_ancestors.mpr habove))
    else .error "No such file or directory (os error 2)".toList
  else .error "Is a directory (os error 21)".toList

/-- `write_atomic`; what lay at the temporary path is gone after it. -/
def writeProjection (path : PathBuf) (contents : Text) : ReconcileM η Unit := do
  match path.parent with
  | none => pure ()
  | some parent => createDirAll parent
  onDisk
    (fun error => .io ("failed to write scheduled pull temp file \x60".toList ++
      displayPath (tempPath path) ++ "\x60: ".toList ++ error))
    fun disk =>
      if hfile : disk.node (tempPath path) ≠ some .directory then
        .ok (disk.without (tempPath path) fun _ hbelow hne =>
          Disk.nothing_below hbelow hne hfile)
      else .error "Is a directory (os error 21)".toList
  onDisk
    (fun error => .io ("failed to replace scheduled pull projection \x60".toList ++
      displayPath path ++ "\x60: ".toList ++ error))
    (replaceFile path contents)

def renameProjectedPath (source target : PathBuf) : ReconcileM η Unit := do
  let disk ← readDisk
  if source = target ∨ !disk.pathExists source ∨ disk.pathExists target then pure ()
  else
    match target.parent with
    | none => pure ()
    | some parent => createDirAll parent
    onDisk
      (fun error => .io ("failed to rename scheduled pull projection \x60".toList ++
        displayPath source ++ "\x60 to \x60".toList ++ displayPath target ++ "\x60: ".toList ++
        error))
      fun disk => disk.rename source target

def renamePageProjectionIfNeeded (mount : MountConfig) (existingPath entryPath : PathBuf) :
    ReconcileM η Unit := do
  if existingPath = entryPath then pure ()
  else if isPageDocumentPath existingPath then
    if pageContainerPath existingPath ≠ pageContainerPath entryPath then
      renameProjectedPath (mount.root.join (pageContainerPath existingPath))
        (mount.root.join (pageContainerPath entryPath))
    else renameProjectedPath (mount.root.join existingPath) (mount.root.join entryPath)
  else
    let legacyChildDir := mount.root.join (pageContainerPath existingPath)
    let entryContainer := mount.root.join (pageContainerPath entryPath)
    let disk ← readDisk
    if disk.pathExists legacyChildDir && decide (legacyChildDir ≠ entryContainer) then
      renameProjectedPath legacyChildDir entryContainer
    else if !disk.pathExists entryContainer then createDirAll entryContainer
    renameProjectedPath (mount.root.join existingPath) (mount.root.join entryPath)

def renameProjectionIfNeeded (mount : MountConfig) (existing : Option EntityRecord)
    (entry : TreeEntry) : ReconcileM η Unit :=
  if mount.projection.usesVirtualFilesystem then pure ()
  else
    match existing with
    | none => pure ()
    | some existing =>
        if existing.path = entry.path then pure ()
        else if entry.kind = .page then
          renamePageProjectionIfNeeded mount existing.path entry.path
        else
          renameProjectedPath (mount.root.join existing.path) (mount.root.join entry.path)

/-! ## Stubs -/

def entityTypeName : EntityKind → Text
  | .page => "page".toList
  | .database => "database".toList
  | .directory => "directory".toList
  | .asset => "asset".toList
  | .unknown _ => "unknown".toList

def yamlString (value : Text) : Text :=
  '"' :: (value.flatMap fun c =>
    if c = '\\' then ['\\', '\\'] else if c = '"' then ['\\', '"'] else [c]) ++ ['"']

def stubFrontmatter (entry : TreeEntry) : Text :=
  let version := yamlString (entry.remoteEditedAt.getD "unknown".toList)
  "loc:\n  id: ".toList ++ entry.remoteId.value ++ "\n  type: ".toList ++
    entityTypeName entry.kind ++ "\n  synced_at: ".toList ++ version ++
    "\n  remote_edited_at: ".toList ++ version ++ "\ntitle: ".toList ++
    yamlString entry.title ++ ['\n']

def stubMarkdown (entry : TreeEntry) : Text :=
  renderCanonicalMarkdown ⟨entry.stubFrontmatter.getD (stubFrontmatter entry),
    CanonicalDocument.stubMarker ++ ['\n']⟩

section Yaml

variable (yaml : YamlSerde)

/-- `is_stub_file`: the body of the file is the marker and nothing else. -/
def isStubProjection (path : PathBuf) : ReconcileM η Bool := do
  let contents ← readProjection path
  match parseCanonicalMarkdown yaml contents with
  | .error _ => return false
  | .ok parsed => return parsed.isStub

inductive ProjectionWrite where
  | stub
  | schema
  | none
  deriving DecidableEq, Repr

def schemaFilename : PathBuf := .relative ["_schema.yaml".toList]

/-- The content root is the one of the state root, where there is a state root. -/
def refreshProjection (source : ScheduledPullSource) (mount : MountConfig) (entry : TreeEntry)
    (contentRoot : Option PathBuf) : ReconcileM η ProjectionWrite := do
  if mount.projection.usesVirtualFilesystem then
    match entry.kind, contentRoot with
    | .database, some contentRoot =>
        let directory := contentRoot.join entry.path
        let disk ← readDisk
        if disk.pathExists (directory.join schemaFilename) then return .schema
        else
          let schema ← liftM (source.databaseSchemaYaml mount entry.remoteId)
          match schema with
          | none => return .none
          | some schema =>
              createDirAll directory
              writeProjection (directory.join schemaFilename) schema
              return .schema
    | _, _ => return .none
  else
    match entry.kind with
    | .page =>
        let path := mount.root.join entry.path
        let disk ← readDisk
        let stub ← if disk.pathExists path then isStubProjection yaml path else pure true
        if !stub then return .none
        else
          writeProjection path (stubMarkdown entry)
          return .stub
    | .database =>
        let directory := mount.root.join entry.path
        createDirAll directory
        let schema ← liftM (source.databaseSchemaYaml mount entry.remoteId)
        match schema with
        | none => return .none
        | some schema =>
            writeProjection (directory.join schemaFilename) schema
            return .schema
    | .directory =>
        createDirAll (mount.root.join entry.path)
        return .none
    | .asset | .unknown _ => return .none

/-! ## Drafts of a mail account -/

/-- `GMAIL_CONNECTOR_ID`. -/
def gmailConnectorId : Text := "gmail".toList

/-- `GMAIL_DRAFT_REMOTE_PREFIX`. -/
def gmailDraftRemotePrefix : Text := "gmail-draft:".toList

structure GmailDraftIdentityRepair where
  retiredLegacy : Option EntityRecord
  retiredShadow : Option ShadowDocument

/-- `GmailDraftIdentityRepair::default()`. -/
def GmailDraftIdentityRepair.empty : GmailDraftIdentityRepair := ⟨none, none⟩

def isDirectGmailDraftPath (path : PathBuf) : Bool :=
  match path.absolute, path.components with
  | false, [directory, name] =>
      decide (directory = "draft".toList) && decide (name ≠ "..".toList)
  | _, _ => false

/-- `is_gmail_draft_identity_repair_candidate` and
`is_gmail_draft_projection_repair_candidate`, of the record or the entry at the path. -/
def isGmailDraft (mount : MountConfig) (remoteId : RemoteId) (path : PathBuf) : Bool :=
  decide (mount.connector = gmailConnectorId) &&
    startsWith remoteId.value gmailDraftRemotePrefix && isDirectGmailDraftPath path

def isCleanLegacyGmailDraftMessageId (entity : EntityRecord) : Bool :=
  decide (entity.kind = .page) && !entity.remoteId.value.contains ':' &&
    decide (entity.hydration ≠ .dirty) && decide (entity.hydration ≠ .conflicted)

/-- What is stored of the retired entity goes, its shadow over to the new one. -/
def Store.retireLegacyDraft (self : Store) (mount : MountConfig) (occupant record : EntityRecord)
    (replacementFrontmatter : Text) : Store :=
  let key : EntityKey := (mount.mountId, occupant.remoteId)
  let migrated :=
    match self.shadows key with
    | none => self
    | some shadow => self.saveShadow mount.mountId
        { shadow with entityId := record.remoteId, frontmatter := replacementFrontmatter }
  let retired := ((migrated.deleteFreshnessState key).deleteRemoteObservation key).deleteShadow key
  { retired with entities := retired.entities.delete key }

def repairLegacyGmailDraftMessageIdCollision (mount : MountConfig) (record : EntityRecord)
    (replacementFrontmatter : Text) : ReconcileM η GmailDraftIdentityRepair := do
  if !isGmailDraft mount record.remoteId record.path then return .empty
  else
    let store ← readStore
    match store.entities.findByPath mount.mountId record.path with
    | none => return .empty
    | some occupant =>
        if occupant.remoteId = record.remoteId then return .empty
        else if isCleanLegacyGmailDraftMessageId occupant then
          modifyStore fun store =>
            store.retireLegacyDraft mount occupant record replacementFrontmatter
          return ⟨some occupant, store.shadows (mount.mountId, occupant.remoteId)⟩
        else return .empty

def gmailDraftReplacementFrontmatter (entry : TreeEntry) : Text :=
  entry.stubFrontmatter.getD (stubFrontmatter entry)

def ParsedCanonicalDocument.remoteId (self : ParsedCanonicalDocument) : Option RemoteId :=
  self.frontmatter.loc.bind LocalityMetadata.id

def legacyStubRemoteId (mount : MountConfig) (entry : TreeEntry)
    (parsed : ParsedCanonicalDocument) (repair : GmailDraftIdentityRepair) : Option RemoteId :=
  match repair.retiredLegacy with
  | some legacy => some legacy.remoteId
  | none =>
      if !isGmailDraft mount entry.remoteId entry.path then none
      else
        (ParsedCanonicalDocument.remoteId parsed).filter fun remoteId =>
          !(decide (remoteId = entry.remoteId) || remoteId.value.contains ':')

/-- The equality of two frontmatters. -/
def frontmatterEq (left right : Frontmatter) : Bool :=
  decide (left.loc = right.loc) && decide (left.title = right.title) &&
    propertiesEq yaml left.properties right.properties

def legacyStubFrontmatterHasNoLocalDrift (parsed : ParsedCanonicalDocument) (entry : TreeEntry)
    (replacementFrontmatter : Text) (legacyRemoteId : RemoteId) : Bool :=
  if ParsedCanonicalDocument.remoteId parsed ≠ some legacyRemoteId then false
  else
    match parseCanonicalMarkdown yaml (renderCanonicalMarkdown ⟨replacementFrontmatter,
        CanonicalDocument.stubMarker ++ ['\n']⟩), parsed.frontmatter.loc with
    | .ok expected, some loc =>
        frontmatterEq yaml
          { parsed.frontmatter with loc := some { loc with id := some entry.remoteId } }
          expected.frontmatter
    | _, _ => false

/-- Whether the projection is left alone afterwards. -/
def repairGmailDraftProjectionAfterIdentityRepair (mount : MountConfig) (entry : TreeEntry)
    (replacementFrontmatter : Text) (repair : GmailDraftIdentityRepair) : ReconcileM η Bool := do
  if mount.projection.usesVirtualFilesystem then return false
  else if entry.kind ≠ .page then return false
  else
    let path := mount.root.join entry.path
    let disk ← readDisk
    if !disk.pathExists path then return false
    else
      let contents ← readProjection path
      match parseCanonicalMarkdown yaml contents with
      | .error _ => return false
      | .ok parsed =>
          if parsed.isStub then
            match legacyStubRemoteId mount entry parsed repair with
            | none => return false
            | some legacyRemoteId =>
                if legacyStubFrontmatterHasNoLocalDrift yaml parsed entry replacementFrontmatter
                    legacyRemoteId then
                  writeProjection path (stubMarkdown entry)
                  return false
                else return true
          else
            match repair.retiredLegacy, repair.retiredShadow with
            | some _, some retiredShadow =>
                if !parsedMatchesShadow yaml parsed retiredShadow then return false
                else
                  writeProjection path
                    (renderCanonicalMarkdown ⟨replacementFrontmatter, parsed.document.body⟩)
                  return false
            | _, _ => return false

def saveEntityAfterGmailDraftRepair (mount : MountConfig) (entry : TreeEntry)
    (record : EntityRecord) : ReconcileM η Bool := do
  let replacementFrontmatter := gmailDraftReplacementFrontmatter entry
  let repair ← repairLegacyGmailDraftMessageIdCollision mount record replacementFrontmatter
  storeEntity record
  repairGmailDraftProjectionAfterIdentityRepair yaml mount entry replacementFrontmatter repair

end Yaml

end Effects

/-! ## Records -/

/-- `remote_precondition_belongs_to_shadow`. -/
def remotePreconditionBelongsToShadow (existing : EntityRecord) : Bool :=
  match existing.hydration with
  | .hydrated | .dirty | .conflicted => true
  | .virtual | .stub => false

namespace Reconcile

/-- `merged_entity_record`. -/
def mergedEntityRecord (entry : TreeEntry) (existing : Option EntityRecord)
    (preserveExistingPath : Bool) : EntityRecord :=
  match existing with
  | none => entry.toRecord
  | some existing =>
      { entry.toRecord with
        path := if preserveExistingPath then existing.path else entry.path
        hydration :=
          if preserveExistingPath && existing.hydration.canTransitionTo .dirty then .dirty
          else existing.hydration
        contentHash := existing.contentHash
        remoteEditedAt :=
          if remotePreconditionBelongsToShadow existing then existing.remoteEditedAt
          else entry.remoteEditedAt }

end Reconcile

/-! ## Moves that local edits block -/

def pathInProjectionSubtree (path subtree : PathBuf) : Bool :=
  subtree.isEmpty || decide (path = subtree) || path.startsWith subtree

structure BlockedProjectionMove where
  sourceRoot : PathBuf
  destinationRoot : PathBuf
  deriving DecidableEq, Repr

def EntityRecord.namespaceRoot (self : EntityRecord) : PathBuf :=
  projectionNamespaceRoot self.kind self.path

def TreeEntry.namespaceRoot (self : TreeEntry) : PathBuf :=
  projectionNamespaceRoot self.kind self.path

/-- The entity has local edits, or a conflict. -/
def HydrationState.isEdited : HydrationState → Bool
  | .dirty | .conflicted => true
  | .virtual | .stub | .hydrated => false

def scheduledMoveSubtreeIsDirty (existingEntities : List EntityRecord) (sourceRoot : PathBuf) :
    Bool :=
  existingEntities.any fun entity =>
    pathInProjectionSubtree entity.namespaceRoot sourceRoot &&
      HydrationState.isEdited entity.hydration

def shouldPreserveForBlockedMove (existing : EntityRecord) (entry : TreeEntry)
    (blockedMoves : List BlockedProjectionMove) : Bool :=
  if existing.path = entry.path then false
  else
    blockedMoves.any fun blocked =>
      pathInProjectionSubtree existing.namespaceRoot blocked.sourceRoot &&
        pathInProjectionSubtree entry.namespaceRoot blocked.destinationRoot

/-- The entity of the mount with the id; no two have one id. -/
def Store.existing (self : Store) (mount : MountConfig) (remoteId : RemoteId) :
    Option EntityRecord := self.entities.get (mount.mountId, remoteId)

def blockedMoves (store : Store) (mount : MountConfig) (entries : List TreeEntry) :
    List BlockedProjectionMove :=
  entries.filterMap fun entry =>
    match store.existing mount entry.remoteId with
    | none => none
    | some existing =>
        if existing.path = entry.path then none
        else if scheduledMoveSubtreeIsDirty (store.listEntities mount.mountId)
            existing.namespaceRoot then
          some ⟨existing.namespaceRoot, entry.namespaceRoot⟩
        else none

/-- `remote_move_plan`: the ids whose paths are preserved. -/
def remoteMovePlan (store : Store) (mount : MountConfig) (entries : List TreeEntry) :
    List RemoteId :=
  (entries.filter fun entry =>
    match store.existing mount entry.remoteId with
    | none => false
    | some existing =>
        shouldPreserveForBlockedMove existing entry (blockedMoves store mount entries)).map
    TreeEntry.remoteId

/-! ## The pull -/

section Pull

variable {η : Type} (yaml : YamlSerde) (source : ScheduledPullSource)
  (strategy : FetchScheduleStrategy) (engine : HydrationEngine η) (tick : PullSchedulerTick)
  (policy : HydrationPolicy) (contentRoot : Option PathBuf)

def ScheduledPullReport.afterRefresh (self : ScheduledPullReport) :
    ProjectionWrite → ScheduledPullReport
  | .stub => { self with stubbed := self.stubbed + 1 }
  | .schema => { self with schemasWritten := self.schemasWritten + 1 }
  | .none => self

/-- One entry of the listing. -/
def reconcileEntry (mount : MountConfig) (preserved : List RemoteId) (pageCount : Nat)
    (entry : TreeEntry) (report : ScheduledPullReport) : ReconcileM η ScheduledPullReport := do
  let store ← readStore
  let existing := store.entities.get (entry.mountId, entry.remoteId)
  let observedAt ← observationTimestamp
  recordRemoteObservation entry existing observedAt
  let preserveExistingPath := preserved.contains entry.remoteId
  let entityPlan : EntityFetchPlan :=
    if preserveExistingPath then ⟨none⟩
    else strategy.entityPlan ⟨mount, entry, existing, pageCount, tick, policy⟩
  let record := Reconcile.mergedEntityRecord entry existing preserveExistingPath
  let projectedEntry := { entry with path := record.path }
  let skipProjectionRefresh ← saveEntityAfterGmailDraftRepair yaml mount projectedEntry record
  renameProjectionIfNeeded mount existing projectedEntry
  if skipProjectionRefresh then return report
  else
    let write ← refreshProjection yaml source mount projectedEntry contentRoot
    let report := report.afterRefresh write
    match entityPlan.queueHydration with
    | none => return report
    | some reason =>
        queueHydration engine {
          mountId := mount.mountId
          remoteId := projectedEntry.remoteId
          path := mount.root.join projectedEntry.path
          targetState := .hydrated
          reason := reason }
        return { report with queuedHydrations := report.queuedHydrations + 1 }

def reconcileEntries (mount : MountConfig) (preserved : List RemoteId) (pageCount : Nat) :
    List TreeEntry → ScheduledPullReport → ReconcileM η ScheduledPullReport
  | [], report => return report
  | entry :: entries, report => do
      let report ← reconcileEntry yaml source strategy engine tick policy contentRoot mount
        preserved pageCount entry report
      reconcileEntries mount preserved pageCount entries report

/-- The entries of one mount. -/
def reconcileListing (mount : MountConfig) (entries : List TreeEntry)
    (report : ScheduledPullReport) : ReconcileM η ScheduledPullReport := do
  let store ← readStore
  reconcileEntries yaml source strategy engine tick policy contentRoot mount
    (remoteMovePlan store mount entries)
    (entries.filter fun entry => decide (entry.kind = .page)).length entries report

def reconcileMounts : List MountConfig → ScheduledPullReport →
    ReconcileM η ScheduledPullReport
  | [], report => return report
  | mount :: mounts, report => do
      let report := { report with mountsChecked := report.mountsChecked + 1 }
      if !(strategy.mountPlan ⟨mount, tick, policy⟩).enumerate then reconcileMounts mounts report
      else
        let entries ← liftM (source.enumerateMount mount)
        let report := { report with
          mountsPolled := report.mountsPolled + 1
          enumerated := report.enumerated + entries.length }
        let report ← reconcileListing yaml source strategy engine tick policy contentRoot mount
          entries report
        reconcileMounts mounts report

/-- `reconcile_scheduled_pull_with_state_root`. -/
def reconcileScheduledPullWithStateRoot (mounts : List MountConfig) :
    ReconcileM η ScheduledPullReport :=
  reconcileMounts yaml source strategy engine tick policy contentRoot mounts .empty

/-- `reconcile_scheduled_pull`. -/
def reconcileScheduledPull (mounts : List MountConfig) : ReconcileM η ScheduledPullReport :=
  reconcileScheduledPullWithStateRoot yaml source strategy engine tick policy none mounts

end Pull

end Locality.Daemon
