/-
  Daemon/Hydration.lean --- `HydrationExecutor::hydrate_request` of
  `localityd/src/hydration.rs`.

  A request fetches a render and puts it in the place of the local file, unless the
  file holds local edits.  A file that may not be replaced is marked dirty, or its
  edits are merged with the render, or its conflict is refreshed, depending on the
  markers it holds and on what changed remotely.
-/
import Locality.Daemon.Host
import Locality.Daemon.ShadowMatch

set_option autoImplicit false

namespace Locality.Daemon

open Locality.Core Locality.Foundation

/-! ## Decisions without effects -/

/-- `request_path`. -/
def requestPath (mount : MountConfig) (path : PathBuf) : PathBuf :=
  if path.absolute then path else mount.root.join path

def isRemoteNotFound : LocalityError → Bool
  | .remoteNotFound _ => true
  | .io message =>
      containsText message "HTTP 404".toList && containsText message "object_not_found".toList
  | _ => false

def sameRemoteVersion (entity : EntityRecord) (rendered : HydratedEntity) : Bool :=
  rendered.remoteEditedAt.isSome && decide (rendered.remoteEditedAt = entity.remoteEditedAt)

def frontmatterWithoutSyncVersions (frontmatter : Text) : Text :=
  join ['\n'] ((lines frontmatter).filter fun line =>
    let trimmed := trimStart line
    !startsWith trimmed "synced_at:".toList && !startsWith trimmed "remote_edited_at:".toList)

def renderMatchesPreviousShadow (previousShadow : Option ShadowDocument)
    (rendered : HydratedEntity) : Bool :=
  match previousShadow with
  | none => false
  | some previousShadow =>
      decide (rendered.shadow.renderedBody = previousShadow.renderedBody) &&
        decide (rendered.shadow.blocks = previousShadow.blocks) &&
        decide (frontmatterWithoutSyncVersions rendered.document.frontmatter =
          frontmatterWithoutSyncVersions previousShadow.frontmatter)

def liveModeRemoteFastForwardRenderLooksStale (entity : EntityRecord)
    (previousShadow : Option ShadowDocument) (rendered : HydratedEntity) : Bool :=
  if rendered.remoteEditedAt = entity.remoteEditedAt then false
  else renderMatchesPreviousShadow previousShadow rendered

/-- `LIVE_MODE_POST_PUSH_SAME_VERSION_PROBE_WINDOW_MS`. -/
def liveModePostPushSameVersionProbeWindowMs : Nat := 60000

/-- The file may be replaced: it holds a stub marker, or what it says is what the
stored shadow says. -/
def canReplaceContents (yaml : YamlSerde) (shadow : Option ShadowDocument) (contents : Text) :
    Bool :=
  containsText contents CanonicalDocument.stubMarker ||
    match parseCanonicalMarkdown yaml contents, shadow with
    | .ok parsed, some shadow => parsedMatchesShadow yaml parsed shadow
    | _, _ => false

def hydratedRecord (entity : EntityRecord) (shadow : ShadowDocument)
    (remoteEditedAt : Option Text) : EntityRecord :=
  { entity with
    hydration := .hydrated
    contentHash := some shadow.bodyHash
    remoteEditedAt := remoteEditedAt.orElse fun _ => entity.remoteEditedAt }

def HydrationState.becoming (self next : HydrationState) : HydrationState :=
  if self.canTransitionTo next then next else self

/-- The state of an entity whose file was merged with a render. -/
def mergedState (state : HydrationState) (hasConflictMarkers : Bool) : HydrationState :=
  let state := HydrationState.becoming state .dirty
  if hasConflictMarkers then HydrationState.becoming state .conflicted else state

section Executor

variable (yaml : YamlSerde) (source : HydrationSource) (outputRoot : Option PathBuf)

/-! ## Reading the file -/

def canReplaceFile (mount : MountConfig) (entity : EntityRecord) (path : PathBuf) :
    HostM Bool := do
  let durable ← readDurable
  if (durable.files path).isNone then return true
  else
    let contents ← readToString path
    let shadow ← loadShadow mount.mountId entity.remoteId
    return canReplaceContents yaml shadow contents

def fileHasUnresolvedConflictMarkers (path : PathBuf) : HostM Bool := do
  let contents ← readToString path
  return hasUnresolvedConflictMarkers contents

def remoteMatchesShadow (mount : MountConfig) (entity : EntityRecord)
    (rendered : ShadowDocument) : HostM Bool := do
  let shadow ← loadShadow mount.mountId entity.remoteId
  match shadow with
  | none => return false
  | some shadow => return shadowsMatch yaml shadow rendered

def sameVersionShadowDrifted (mount : MountConfig) (entity : EntityRecord)
    (rendered : HydratedEntity) : HostM Bool := do
  if !sameRemoteVersion entity rendered then return false
  else
    let matched ← remoteMatchesShadow yaml mount entity rendered.shadow
    return !matched

/-! ## Marking the entity -/

def markDirtyIfAllowed (entity : EntityRecord) : HostM Unit :=
  if entity.hydration ≠ .conflicted ∧ entity.hydration.canTransitionTo .dirty then
    saveEntity { entity with hydration := .dirty }
  else pure ()

def markConflictedIfAllowed (entity : EntityRecord) : HostM Unit :=
  let state := HydrationState.becoming entity.hydration .dirty
  if state.canTransitionTo .conflicted then
    saveEntity { entity with hydration := .conflicted }
  else pure ()

def setRemoteHint (pending : Bool) (mountId : MountId) (remoteId : RemoteId) : HostM Unit := do
  let freshness ← getFreshnessState mountId remoteId
  match freshness with
  | none => pure ()
  | some freshness => saveFreshnessState { freshness with remoteHintPending := pending }

def clearRemoteHint (mountId : MountId) (remoteId : RemoteId) : HostM Unit :=
  setRemoteHint false mountId remoteId

def keepRemoteHintPending (mountId : MountId) (remoteId : RemoteId) : HostM Unit :=
  setRemoteHint true mountId remoteId

/-! ## Merging -/

/-- What a merge writes. -/
def conflictMarkdown (entity : EntityRecord) (outputRoot : PathBuf)
    (baseShadow : Option ShadowDocument) (rendered : HydratedEntity) (localContents : Text)
    (useBaseShadow : Bool) : Text :=
  if !useBaseShadow &&
      contentsChangesRetainCurrentShadowBlocks yaml localContents rendered.shadow then
    localContents
  else
    renderInlineConflictMarkdownWithBase yaml localContents
      ((if useBaseShadow then baseShadow else none).map ShadowDocument.renderedBody)
      (documentWithAbsoluteMediaHrefs rendered.document entity.path outputRoot)

def materializeConflictFromContents (mount : MountConfig) (outputRoot : PathBuf)
    (entity : EntityRecord) (path : PathBuf) (rendered : HydratedEntity)
    (localContents : Text) (useBaseShadow : Bool) : HostM DirtyRemoteDriftOutcome := do
  writeHydratedAssetFiles outputRoot rendered.assets
  updateHydratedMediaManifest rendered.assets
  let baseShadow ← loadShadow mount.mountId entity.remoteId
  let markdown := conflictMarkdown yaml entity outputRoot baseShadow rendered localContents
    useBaseShadow
  let hasConflictMarkers := hasUnresolvedConflictMarkers markdown
  writeAtomic path markdown
  saveShadow mount.mountId rendered.shadow
  saveEntity { entity with
    hydration := mergedState entity.hydration hasConflictMarkers
    contentHash := some rendered.shadow.bodyHash
    remoteEditedAt := rendered.remoteEditedAt.orElse fun _ => entity.remoteEditedAt }
  if !hasConflictMarkers then clearRemoteHint mount.mountId rendered.shadow.entityId
  return if hasConflictMarkers then .conflicted else .merged

def materializeConflict (mount : MountConfig) (outputRoot : PathBuf) (entity : EntityRecord)
    (path : PathBuf) (rendered : HydratedEntity) : HostM DirtyRemoteDriftOutcome := do
  let localContents ← readToString path
  materializeConflictFromContents yaml mount outputRoot entity path rendered localContents true

def refreshExistingConflict (mount : MountConfig) (outputRoot : PathBuf)
    (entity : EntityRecord) (path : PathBuf) (rendered : HydratedEntity)
    (useBaseShadow : Bool) : HostM DirtyRemoteDriftOutcome := do
  let contents ← readToString path
  match localVersionFromConflictMarkers yaml contents with
  | none =>
      markConflictedIfAllowed entity
      return .conflicted
  | some localContents =>
      materializeConflictFromContents yaml mount outputRoot entity path rendered localContents
        useBaseShadow

/-! ## Deleted remotes -/

def recordDeletedRemoteObservation (mount : MountConfig) (entity : EntityRecord) :
    HostM Unit := do
  let observedAt ← freshnessTimestamp
  saveRemoteObservation {
    mountId := mount.mountId
    remoteId := entity.remoteId
    kind := entity.kind
    title := entity.title
    projectedPath := entity.path
    remoteVersion := none
    observedAt := observedAt
    deleted := true }
  let freshness ← getFreshnessState mount.mountId entity.remoteId
  match freshness with
  | none => pure ()
  | some freshness =>
      saveFreshnessState
        { freshness with remoteHintPending := true, lastCheckedAt := some observedAt }

def reconcileRemoteNotFound (mount : MountConfig) (entity : EntityRecord) (path : PathBuf)
    (canReplace : Bool) : HostM HydrationOutcome := do
  recordDeletedRemoteObservation mount entity
  if !canReplace then
    markDirtyIfAllowed entity
    return .skippedDirty
  else
    removeCleanProjection path
    deleteEntity mount.mountId entity.remoteId
    return .remoteDeleted

/-! ## The schema of the parent database -/

def parentDatabaseEntity (store : Store) (mountId : MountId) (entity : EntityRecord) :
    Option EntityRecord :=
  if entity.kind ≠ .page then none
  else
    let parentPath := pageListingParentPath entity.path
    if parentPath.isEmpty then none
    else
      (store.entities.findByPath mountId parentPath).filter fun parent =>
        decide (parent.kind = .database)

def writeParentDatabaseSchemaCache (mount : MountConfig) (entity : EntityRecord)
    (outputRoot : PathBuf) : HostM Unit := do
  let durable ← readDurable
  match parentDatabaseEntity durable.store mount.mountId entity with
  | none => pure ()
  | some database =>
      let schema ← liftM (source.fetchDatabaseSchemaYaml database.remoteId)
      match schema with
      | none => pure ()
      | some schema =>
          let path := (outputRoot.join database.path).join (.relative ["_schema.yaml".toList])
          writeDurable fun durable =>
            { durable with schemas := Function.update durable.schemas path (some schema) }

/-! ## A request -/

/-- The file holds local edits: they stay, alone or merged with the render. -/
def hydrateEditedFile (mount : MountConfig) (outputRoot : PathBuf) (entity : EntityRecord)
    (path : PathBuf) (rendered : HydratedEntity) : HostM HydrationOutcome := do
  let hasConflictMarkers ← fileHasUnresolvedConflictMarkers path
  if hasConflictMarkers then
    let drifted ← sameVersionShadowDrifted yaml mount entity rendered
    if drifted then
      let _ ← refreshExistingConflict yaml mount outputRoot entity path rendered true
      return .skippedDirty
    else if sameRemoteVersion entity rendered then
      let _ ← refreshExistingConflict yaml mount outputRoot entity path rendered false
      return .skippedDirty
    else
      markConflictedIfAllowed entity
      return .skippedDirty
  else
    let matched ← remoteMatchesShadow yaml mount entity rendered.shadow
    if !matched then
      let _ ← materializeConflict yaml mount outputRoot entity path rendered
      return .skippedDirty
    else
      markDirtyIfAllowed entity
      return .skippedDirty

def sameVersionLiveModeProbeShouldContinue (request : HydrationRequest)
    (entity : EntityRecord) (previousShadow : Option ShadowDocument)
    (rendered : HydratedEntity) : HostM Bool := do
  if !sameRemoteVersion entity rendered ||
      !renderMatchesPreviousShadow previousShadow rendered then
    return false
  else
    let freshness ← getFreshnessState request.mountId request.remoteId
    match (freshness.bind FreshnessStateRecord.lastLocalChangeAt).bind
        parseFreshnessTimestamp with
    | none => return false
    | some lastLocalChangeMs =>
        let nowMs ← freshnessUnixMs
        return decide (lastLocalChangeMs ≤ nowMs) &&
          decide (nowMs - lastLocalChangeMs ≤ liveModePostPushSameVersionProbeWindowMs)

/-- The render takes the place of the file. -/
def replaceProjection (request : HydrationRequest) (mount : MountConfig)
    (outputRoot : PathBuf) (entity : EntityRecord) (path : PathBuf)
    (rendered : HydratedEntity) : HostM HydrationOutcome := do
  writeHydratedAssetFiles outputRoot rendered.assets
  replaceHydratedMediaManifest outputRoot rendered.assets
  writeAtomic path
    (renderDocumentWithAbsoluteMediaHrefs rendered.document entity.path outputRoot)
  saveShadow mount.mountId rendered.shadow
  saveEntity (hydratedRecord entity rendered.shadow rendered.remoteEditedAt)
  clearRemoteHint request.mountId request.remoteId
  return .hydrated

/-- A live-mode render that shows the last push again is not taken; the hint that made
the daemon look stays. -/
def hydrateReplaceableFile (request : HydrationRequest) (mount : MountConfig)
    (outputRoot : PathBuf) (entity : EntityRecord) (path : PathBuf)
    (previousShadow : Option ShadowDocument) (rendered : HydratedEntity) :
    HostM HydrationOutcome := do
  if request.reason = .liveModeRemoteFastForward then
    if liveModeRemoteFastForwardRenderLooksStale entity previousShadow rendered then
      keepRemoteHintPending request.mountId request.remoteId
      return .hydrated
    else
      let shouldContinue ← sameVersionLiveModeProbeShouldContinue request entity
        previousShadow rendered
      if shouldContinue then
        keepRemoteHintPending request.mountId request.remoteId
        return .hydrated
      else replaceProjection request mount outputRoot entity path rendered
  else replaceProjection request mount outputRoot entity path rendered

def hydrateRendered (request : HydrationRequest) (mount : MountConfig)
    (outputRoot : PathBuf) (entity : EntityRecord) (path : PathBuf) (canReplace : Bool)
    (rendered : HydratedEntity) : HostM HydrationOutcome := do
  if rendered.shadow.entityId ≠ request.remoteId then
    throw (.invalidState ("hydration source returned shadow for \x60".toList ++
      rendered.shadow.entityId.value ++ "\x60 while hydrating \x60".toList ++
      request.remoteId.value ++ "\x60".toList))
  else
    let previousShadow ← loadShadow mount.mountId entity.remoteId
    writeParentDatabaseSchemaCache source mount entity outputRoot
    if !canReplace then hydrateEditedFile yaml mount outputRoot entity path rendered
    else
      hydrateReplaceableFile request mount outputRoot entity path previousShadow rendered

def hydrateRequest (request : HydrationRequest) : HostM HydrationOutcome := do
  if request.targetState ≠ .hydrated then
    throw (.unsupported "daemon hydration currently supports hydrated targets only".toList)
  else
    let mount ← requireMount request.mountId
    let entity ← requireEntity request.mountId request.remoteId
    let outputRoot := outputRoot.getD mount.root
    let path := requestPath mount request.path
    let canReplace ← canReplaceFile yaml mount entity path
    if !canReplace && request.reason.isRemoteFastForward then
      markDirtyIfAllowed entity
      return .skippedDirty
    else
      let durable ← readDurable
      match source.fetchRender { request with path := entity.path } durable.store with
      | .error error =>
          if isRemoteNotFound error then reconcileRemoteNotFound mount entity path canReplace
          else throw error
      | .ok rendered =>
          hydrateRendered yaml source request mount outputRoot entity path canReplace rendered

end Executor

end Locality.Daemon
