/-
  Daemon/Host.lean --- what a hydration reads and writes: the store, the projected
  files, and the caches beside them; and the types of `locality-core/src/hydration.rs`
  and `localityd/src/hydration.rs`.

  Every write is one step, and the process may stop after any of them: `writesLeft`
  counts the writes it still gets to make, and `none` is a process that is not
  interrupted.  What a stopped process has written stays (`Durable`).

  The projected files, the downloaded assets, the media manifest and the schema caches
  are kept apart: the last three lie under `.loc` or are called `_schema.yaml`, where
  no page is projected.
-/
import Locality.Daemon.Store
import Locality.Daemon.Media
import Locality.Foundation.Fallible

set_option autoImplicit false

namespace Locality.Daemon

open Locality.Core Locality.Foundation

/-! ## Requests and renders -/

inductive HydrationReason where
  | explicitPull
  | fileOpen
  | policy
  | remoteFastForward
  | liveModeRemoteFastForward
  | stubRead
  | prefetch
  deriving DecidableEq, Repr

def HydrationReason.isRemoteFastForward : HydrationReason → Bool
  | remoteFastForward | liveModeRemoteFastForward => true
  | _ => false

structure HydrationRequest where
  mountId : MountId
  remoteId : RemoteId
  path : PathBuf
  targetState : HydrationState
  reason : HydrationReason
  deriving DecidableEq, Repr

def HydrationRequest.key (self : HydrationRequest) : EntityKey := (self.mountId, self.remoteId)

structure HydratedAssetMedia where
  blockId : Text
  kind : Text
  sourceUrl : Text
  deriving DecidableEq, Repr

structure HydratedAsset where
  path : PathBuf
  bytes : List UInt8
  media : Option HydratedAssetMedia
  deriving DecidableEq, Repr

structure HydratedEntity where
  document : CanonicalDocument
  shadow : ShadowDocument
  remoteEditedAt : Option Text
  assets : List HydratedAsset
  deriving DecidableEq, Repr

/-- The connector, which is outside of the daemon: what it renders, and the schema of
a database. -/
structure HydrationSource where
  fetchRender : HydrationRequest → Store → LocalityResult HydratedEntity
  fetchDatabaseSchemaYaml : RemoteId → LocalityResult (Option Text)

inductive HydrationOutcome where
  | hydrated
  | skippedDirty
  | remoteDeleted
  deriving DecidableEq, Repr

inductive DirtyRemoteDriftOutcome where
  | merged
  | conflicted
  deriving DecidableEq, Repr

/-! ## The host -/

inductive FileContent where
  | text (contents : Text)
  | invalidUtf8 (bytes : List UInt8)
  deriving DecidableEq, Repr

/-- What outlives the process. -/
structure Durable where
  store : Store
  files : PathBuf → Option FileContent
  assets : PathBuf → Option (List UInt8)
  mediaManifest : List (PathBuf × HydratedAssetMedia)
  schemas : PathBuf → Option Text

structure Host where
  durable : Durable
  nowMs : Nat
  writesLeft : Option Nat

/-- A host whose process is not interrupted. -/
def Host.running (durable : Durable) (nowMs : Nat) : Host := ⟨durable, nowMs, none⟩

abbrev HostM : Type → Type := Fallible LocalityError Host

/-- How a run that may not write any more ends. -/
def interrupted : LocalityError := .io "interrupted".toList

/-- One write. -/
def writeDurable (effect : Durable → Durable) : HostM Unit := fun host =>
  match host.writesLeft with
  | none => (.ok (), { host with durable := effect host.durable })
  | some 0 => (.error interrupted, host)
  | some (left + 1) =>
      (.ok (), { host with durable := effect host.durable, writesLeft := some left })

def readDurable : HostM Durable := fun host => (.ok host.durable, host)

/-- A connector that gives one answer to every request. -/
def HydrationSource.answering (render : LocalityResult HydratedEntity) : HydrationSource where
  fetchRender := fun _ _ => render
  fetchDatabaseSchemaYaml := fun _ => .ok none

/-- One mount, one entity in it, and the entity's file below the root of the mount. -/
def Durable.onePage (mount : MountConfig) (entity : EntityRecord)
    (file : Option FileContent) (shadow : Option ShadowDocument) : Durable where
  store := {
    mounts := fun mountId => if mount.mountId = mountId then some mount else none
    mountsKeyed := by
      intro mountId found h
      split at h
      · cases h
        assumption
      · exact nomatch h
    entities := EntityTable.empty.insert entity fun _ h => nomatch h
    shadows := fun key => if key = entity.key then shadow else none
    freshness := fun _ => none
    freshnessKeyed := freshnessKeyed_none
    observations := fun _ => none }
  files := fun path => if path = mount.root.join entity.path then file else none
  assets := fun _ => none
  mediaManifest := []
  schemas := fun _ => none

/-! ## Files -/

def readError (path : PathBuf) (error : Text) : LocalityError :=
  .io ("failed to read \x60".toList ++ displayPath path ++ "\x60: ".toList ++ error)

/-- `read_to_string` of what lies at a path. -/
def contentsOf (path : PathBuf) : Option FileContent → LocalityResult Text
  | none => .error (readError path "No such file or directory (os error 2)".toList)
  | some (.invalidUtf8 _) =>
      .error (readError path "stream did not contain valid UTF-8".toList)
  | some (.text contents) => .ok contents

def readToString (path : PathBuf) : HostM Text := do
  let durable ← readDurable
  liftM (contentsOf path (durable.files path))

def Durable.writeFile (self : Durable) (path : PathBuf) (contents : Text) : Durable :=
  { self with files := Function.update self.files path (some (.text contents)) }

/-- `write_atomic`. -/
def writeAtomic (path : PathBuf) (contents : Text) : HostM Unit :=
  writeDurable fun durable => durable.writeFile path contents

def Durable.removeFile (self : Durable) (path : PathBuf) : Durable :=
  { self with files := Function.update self.files path none }

/-- `remove_clean_projection`; the directory of a removed page is removed with it
where nothing else lies there, which no file shows. -/
def removeCleanProjection (path : PathBuf) : HostM Unit := do
  let durable ← readDurable
  if (durable.files path).isSome then writeDurable fun durable => durable.removeFile path

/-! ## Assets -/

/-- `mount_relative_path`. -/
def mountRelativePath (root path : PathBuf) : LocalityResult PathBuf :=
  if path.absolute || path.components.any fun component => decide (component = "..".toList) then
    .error (.invalidState ("hydrated asset path \x60".toList ++ displayPath path ++
      "\x60 is not mount-relative".toList))
  else .ok (root.join path)

def Durable.writeAsset (self : Durable) (path : PathBuf) (bytes : List UInt8) : Durable :=
  { self with assets := Function.update self.assets path (some bytes) }

/-- `write_hydrated_asset_files`. -/
def writeHydratedAssetFiles (outputRoot : PathBuf) : List HydratedAsset → HostM Unit
  | [] => pure ()
  | asset :: assets => do
      let path ← liftM (mountRelativePath outputRoot asset.path)
      writeDurable fun durable => durable.writeAsset path asset.bytes
      writeHydratedAssetFiles outputRoot assets

def downloadedMediaAssets (assets : List HydratedAsset) : List (PathBuf × HydratedAssetMedia) :=
  assets.filterMap fun asset => asset.media.map fun media => (asset.path, media)

/-- One entry of the manifest under its path. -/
def manifestInsert (manifest : List (PathBuf × HydratedAssetMedia))
    (entry : PathBuf × HydratedAssetMedia) : List (PathBuf × HydratedAssetMedia) :=
  entry :: manifest.filter fun old => decide (old.1 ≠ entry.1)

/-- `update_hydrated_media_manifest`. -/
def updateHydratedMediaManifest (assets : List HydratedAsset) : HostM Unit :=
  let downloaded := downloadedMediaAssets assets
  if downloaded.isEmpty then pure ()
  else
    writeDurable fun durable =>
      { durable with mediaManifest := downloaded.foldl manifestInsert durable.mediaManifest }

/-- `replace_hydrated_media_manifest`; a file that the old manifest names and the new
one does not is removed. -/
def replaceHydratedMediaManifest (outputRoot : PathBuf) (assets : List HydratedAsset) :
    HostM Unit := do
  let downloaded := downloadedMediaAssets assets
  let durable ← readDurable
  if downloaded.isEmpty && durable.mediaManifest.isEmpty then pure ()
  else
    let manifest := downloaded.foldl manifestInsert []
    let stale := (durable.mediaManifest.map Prod.fst).filter fun path =>
      !(manifest.map Prod.fst).contains path && isMediaPath path
    writeDurable fun durable =>
      { durable with
        mediaManifest := manifest
        assets := fun path =>
          if path ∈ stale.map outputRoot.join then none else durable.assets path }

/-! ## The store -/

def requireMount (mountId : MountId) : HostM MountConfig := do
  let durable ← readDurable
  match durable.store.mounts mountId with
  | some mount => pure mount
  | none => throw (StoreError.mountMissing mountId).toLocalityError

def requireEntity (mountId : MountId) (remoteId : RemoteId) : HostM EntityRecord := do
  let durable ← readDurable
  match durable.store.entities.get (mountId, remoteId) with
  | some entity => pure entity
  | none => throw (StoreError.entityMissing mountId remoteId).toLocalityError

def Durable.withStore (self : Durable) (store : Store) : Durable := { self with store := store }

def saveEntity (entity : EntityRecord) : HostM Unit := do
  let durable ← readDurable
  match durable.store.entities.save entity with
  | .error error => throw error.toLocalityError
  | .ok entities =>
      writeDurable fun durable => durable.withStore { durable.store with entities := entities }

def deleteEntity (mountId : MountId) (remoteId : RemoteId) : HostM Unit :=
  writeDurable fun durable =>
    durable.withStore
      { durable.store with entities := durable.store.entities.delete (mountId, remoteId) }

def loadShadow (mountId : MountId) (remoteId : RemoteId) : HostM (Option ShadowDocument) := do
  let durable ← readDurable
  return durable.store.shadows (mountId, remoteId)

def saveShadow (mountId : MountId) (shadow : ShadowDocument) : HostM Unit :=
  writeDurable fun durable => durable.withStore (durable.store.saveShadow mountId shadow)

def getFreshnessState (mountId : MountId) (remoteId : RemoteId) :
    HostM (Option FreshnessStateRecord) := do
  let durable ← readDurable
  return durable.store.freshness (mountId, remoteId)

def saveFreshnessState (freshness : FreshnessStateRecord) : HostM Unit :=
  writeDurable fun durable => durable.withStore (durable.store.saveFreshnessState freshness)

def saveRemoteObservation (observation : RemoteObservationRecord) : HostM Unit :=
  writeDurable fun durable => durable.withStore (durable.store.saveRemoteObservation observation)

/-! ## The clock -/

/-- `freshness_timestamp`. -/
def freshnessTimestamp : HostM Text := fun host =>
  (.ok ("unix_ms:".toList ++ (toString host.nowMs).toList), host)

/-- `freshness_unix_ms`. -/
def freshnessUnixMs : HostM Nat := fun host => (.ok (min host.nowMs (2 ^ 64 - 1)), host)

/-- `str::parse::<u64>`. -/
def parseU64 (t : Text) : Option Nat :=
  let digits := (stripPrefix t ['+']).getD t
  if digits.isEmpty || !digits.all isAsciiDigit then none
  else
    let value := digits.foldl (fun n c => 10 * n + (c.toNat - '0'.toNat)) 0
    if value < 2 ^ 64 then some value else none

def parseFreshnessTimestamp (value : Text) : Option Nat :=
  parseU64 ((stripPrefix value "unix_ms:".toList).getD value)

end Locality.Daemon
