/-
  Daemon/Pull.lean --- `hydrate_entity` of `localityd/src/pull.rs`: what `loc pull` does
  with one entity.

  The decision tree is the one of a daemon hydration, written a second time over helper
  functions of its own.  Both run on the same host.  The file and the root of the output
  are arguments, as the mount and the state root determine them
  (`projection_content_path`, `projection_output_root`).
-/
import Locality.Daemon.Hydration

set_option autoImplicit false

namespace Locality.Daemon

open Locality.Core Locality.Foundation

/-! ## Results -/

structure PullConflict where
  path : PathBuf
  remoteId : RemoteId
  deriving DecidableEq, Repr

inductive PullOutcome where
  | hydrated
  | mergedDirty
  | remoteDeleted
  | skippedDirty
  | conflicted (conflict : PullConflict)
  deriving DecidableEq, Repr

/-- The errors that a pull of one entity raises; an error of the store, and one of a
write, is kept as the store and the host word it. -/
inductive PullError where
  | connector (error : LocalityError)
  | readFile (path : PathBuf) (message : Text)
  | store (error : LocalityError)
  | writeFile (path : PathBuf) (error : LocalityError)
  deriving DecidableEq, Repr

abbrev PullM : Type → Type := Fallible PullError Host

namespace Pull

def connector {α : Type} (op : HostM α) : PullM α := ExceptT.adapt PullError.connector op

def store {α : Type} (op : HostM α) : PullM α := ExceptT.adapt PullError.store op

def writeFile (path : PathBuf) (op : HostM Unit) : PullM Unit :=
  ExceptT.adapt (PullError.writeFile path) op

/-! ## Records -/

def conflictedRecord (entity : EntityRecord) (shadow : ShadowDocument)
    (remoteEditedAt : Option Text) : EntityRecord :=
  { entity with
    hydration := HydrationState.becoming (HydrationState.becoming entity.hydration .dirty)
      .conflicted
    contentHash := some shadow.bodyHash
    remoteEditedAt := remoteEditedAt.orElse fun _ => entity.remoteEditedAt }

def markDirtyIfAllowed (entity : EntityRecord) : EntityRecord :=
  if entity.hydration ≠ .conflicted ∧ entity.hydration.canTransitionTo .dirty then
    { entity with hydration := .dirty }
  else entity

/-- A record in conflict stays in conflict. -/
def dirtyRecord (entity : EntityRecord) (shadow : ShadowDocument)
    (remoteEditedAt : Option Text) : EntityRecord :=
  { markDirtyIfAllowed entity with
    contentHash := some shadow.bodyHash
    remoteEditedAt := remoteEditedAt.orElse fun _ => entity.remoteEditedAt }

def markConflictedIfAllowed (entity : EntityRecord) : EntityRecord :=
  { entity with
    hydration := HydrationState.becoming (HydrationState.becoming entity.hydration .dirty)
      .conflicted }

section Executor

variable (yaml : YamlSerde) (source : HydrationSource)
  -- `virtual_projection_mount_point` of the mount
  (mountPoint : PathBuf)

def projectedReportPath (mount : MountConfig) (relativePath : PathBuf) : PathBuf :=
  match mount.projection with
  | .linuxFuse | .windowsCloudFiles => mountPoint.join relativePath
  | .plainFiles | .macosFileProvider => mount.root.join relativePath

def pullConflict (mount : MountConfig) (entity : EntityRecord) : PullConflict :=
  ⟨projectedReportPath mountPoint mount entity.path, entity.remoteId⟩

/-! ## Reading the file -/

def readToString (path : PathBuf) : PullM Text := do
  let durable ← store readDurable
  match durable.files path with
  | none => throw (.readFile path "No such file or directory (os error 2)".toList)
  | some (.invalidUtf8 _) =>
      throw (.readFile path "stream did not contain valid UTF-8".toList)
  | some (.text contents) => return contents

def isStubFile (path : PathBuf) : PullM Bool := do
  let durable ← store readDurable
  if (durable.files path).isNone then return false
  else
    let contents ← readToString path
    return containsText contents CanonicalDocument.stubMarker

def canReplaceFile (mount : MountConfig) (entity : EntityRecord) (path : PathBuf) :
    PullM Bool := do
  let durable ← store readDurable
  if (durable.files path).isNone then return true
  else
    let stub ← isStubFile path
    if stub then return true
    else
      let contents ← readToString path
      match parseCanonicalMarkdown yaml contents with
      | .error _ => return false
      | .ok parsed =>
          let shadow ← store (loadShadow mount.mountId entity.remoteId)
          match shadow with
          | none => return false
          | some shadow => return parsedMatchesShadow yaml parsed shadow

def fileHasUnresolvedConflictMarkers (path : PathBuf) : PullM Bool := do
  let contents ← readToString path
  return hasUnresolvedConflictMarkers contents

def remoteMatchesShadow (mount : MountConfig) (entity : EntityRecord)
    (rendered : ShadowDocument) : PullM Bool := do
  let shadow ← store (loadShadow mount.mountId entity.remoteId)
  match shadow with
  | none => return false
  | some shadow => return shadowsMatch yaml shadow rendered

def sameVersionShadowDrifted (mount : MountConfig) (entity : EntityRecord)
    (rendered : HydratedEntity) : PullM Bool := do
  if !sameRemoteVersion entity rendered then return false
  else
    let matched ← remoteMatchesShadow yaml mount entity rendered.shadow
    return !matched

/-! ## Observations -/

/-- A render that was taken over is an observation of the remote, and answers a hint. -/
def recordSyncedRemoteObservation (mount : MountConfig) (entity : EntityRecord)
    (remoteEditedAt : Option Text) : PullM Unit := do
  let observedAt ← store freshnessTimestamp
  store (saveRemoteObservation {
    mountId := mount.mountId
    remoteId := entity.remoteId
    kind := entity.kind
    title := entity.title
    projectedPath := entity.path
    remoteVersion := remoteEditedAt
    observedAt := observedAt
    deleted := false })
  let freshness ← store (getFreshnessState mount.mountId entity.remoteId)
  match freshness with
  | none => pure ()
  | some freshness =>
      store (saveFreshnessState
        { freshness with remoteHintPending := false, lastCheckedAt := some observedAt })

def reconcileRemoteNotFound (mount : MountConfig) (entity : EntityRecord) (path : PathBuf)
    (canReplace : Bool) : PullM PullOutcome := do
  store (recordDeletedRemoteObservation mount entity)
  if !canReplace then
    store (saveEntity (markDirtyIfAllowed entity))
    return .skippedDirty
  else
    writeFile path (removeCleanProjection path)
    store (deleteEntity mount.mountId entity.remoteId)
    return .remoteDeleted

/-! ## Taking a render over -/

def writeAssets (root : PathBuf) (assets : List HydratedAsset) : PullM Unit := do
  connector (writeHydratedAssetFiles root assets)
  connector (updateHydratedMediaManifest assets)

def acceptRemoteProjection (mount : MountConfig) (entity : EntityRecord)
    (path outputRoot : PathBuf) (rendered : HydratedEntity) : PullM Unit := do
  let markdown := renderDocumentWithAbsoluteMediaHrefs rendered.document entity.path outputRoot
  connector (replaceHydratedMediaManifest outputRoot rendered.assets)
  writeFile path (writeAtomic path markdown)
  store (saveShadow mount.mountId rendered.shadow)
  store (saveEntity (hydratedRecord entity rendered.shadow rendered.remoteEditedAt))
  recordSyncedRemoteObservation mount entity rendered.remoteEditedAt

def materializeConflictFromContents (mount : MountConfig) (entity : EntityRecord)
    (path outputRoot : PathBuf) (rendered : HydratedEntity) (localContents : Text)
    (useBaseShadow : Bool) : PullM DirtyRemoteDriftOutcome := do
  let baseShadow ← store (loadShadow mount.mountId entity.remoteId)
  let markdown := conflictMarkdown yaml entity outputRoot baseShadow rendered localContents
    useBaseShadow
  let hasConflictMarkers := hasUnresolvedConflictMarkers markdown
  writeFile path (writeAtomic path markdown)
  store (saveShadow mount.mountId rendered.shadow)
  let entity :=
    if hasConflictMarkers then conflictedRecord entity rendered.shadow rendered.remoteEditedAt
    else dirtyRecord entity rendered.shadow rendered.remoteEditedAt
  store (saveEntity entity)
  if !hasConflictMarkers then
    recordSyncedRemoteObservation mount entity rendered.remoteEditedAt
  return if hasConflictMarkers then .conflicted else .merged

def materializeConflict (mount : MountConfig) (entity : EntityRecord)
    (path outputRoot : PathBuf) (rendered : HydratedEntity) :
    PullM DirtyRemoteDriftOutcome := do
  let localContents ← readToString path
  materializeConflictFromContents yaml mount entity path outputRoot rendered localContents true

def refreshExistingConflict (mount : MountConfig) (entity : EntityRecord)
    (path outputRoot : PathBuf) (rendered : HydratedEntity) (useBaseShadow : Bool) :
    PullM DirtyRemoteDriftOutcome := do
  let contents ← readToString path
  match localVersionFromConflictMarkers yaml contents with
  | none =>
      store (saveEntity (markConflictedIfAllowed entity))
      return .conflicted
  | some localContents =>
      materializeConflictFromContents yaml mount entity path outputRoot rendered localContents
        useBaseShadow

/-! ## One entity -/

/-- How a merge ends. -/
def driftOutcome (mount : MountConfig) (entity : EntityRecord) :
    DirtyRemoteDriftOutcome → PullOutcome
  | .merged => .mergedDirty
  | .conflicted => .conflicted (pullConflict mountPoint mount entity)

/-- The file holds local edits. -/
def hydrateEditedFile (mount : MountConfig) (entity : EntityRecord)
    (path outputRoot : PathBuf) (rendered : HydratedEntity) : PullM PullOutcome := do
  let hasConflictMarkers ← fileHasUnresolvedConflictMarkers path
  if hasConflictMarkers then
    let drifted ← sameVersionShadowDrifted yaml mount entity rendered
    if drifted then
      let outcome ← refreshExistingConflict yaml mount entity path outputRoot rendered true
      return driftOutcome mountPoint mount entity outcome
    else if sameRemoteVersion entity rendered then
      let outcome ← refreshExistingConflict yaml mount entity path outputRoot rendered false
      return driftOutcome mountPoint mount entity outcome
    else
      store (saveEntity (markConflictedIfAllowed entity))
      return .conflicted (pullConflict mountPoint mount entity)
  else
    let matched ← remoteMatchesShadow yaml mount entity rendered.shadow
    if !matched then
      let outcome ← materializeConflict yaml mount entity path outputRoot rendered
      return driftOutcome mountPoint mount entity outcome
    else
      store (saveEntity (markDirtyIfAllowed entity))
      return .skippedDirty

/-- The assets are written before it is known whether the file may be replaced. -/
def hydrateEntity (mount : MountConfig) (entity : EntityRecord) (path mediaRoot : PathBuf) :
    PullM PullOutcome := do
  let canReplace ← canReplaceFile yaml mount entity path
  let durable ← store readDurable
  match source.fetchRender
      { mountId := mount.mountId
        remoteId := entity.remoteId
        path := entity.path
        targetState := .hydrated
        reason := .explicitPull } durable.store with
  | .error error =>
      if isRemoteNotFound error then reconcileRemoteNotFound mount entity path canReplace
      else throw (.connector error)
  | .ok rendered =>
      connector (writeParentDatabaseSchemaCache source mount entity mediaRoot)
      writeAssets mediaRoot rendered.assets
      if canReplace then
        acceptRemoteProjection mount entity path mediaRoot rendered
        return .hydrated
      else hydrateEditedFile yaml mountPoint mount entity path mediaRoot rendered

end Executor

end Pull

end Locality.Daemon
