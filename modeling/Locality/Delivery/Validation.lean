/-
  Delivery/Validation.lean --- what `localityd/src/generation_sync.rs` checks of a delta
  before it reserves it: that it starts at the local base, and that the inventory and the
  local paths that it results in are those of a mount.
-/
import Locality.Delivery.GenerationStore
import Locality.Foundation.OrderedTable

set_option autoImplicit false

namespace Locality.Delivery

open Locality.Core Locality.Foundation Locality.Protocol

/-! ## Errors -/

/-- The errors of an apply that the checks can have.  A `Contract` whose message is the
text of an error of the protocol keeps that error. -/
inductive GenerationSyncError where
  | missingObservedGeneration (mountId : MountId)
  | localBaseMismatch
  | contract (message : Text)
  | delivery (error : FreshnessDeliveryError)
  deriving DecidableEq, Repr

abbrev SyncResult : Type → Type := Except GenerationSyncError

/-! ## Tables by projection -/

def projectionOrder (id id' : ProjectionId) : Ordering := textOrder id.value id'.value

instance : Std.TransCmp projectionOrder := transCmp_key (byteOrder ∘ ProjectionId.value)

instance : Std.LawfulEqCmp projectionOrder :=
  lawfulEqCmp_key fun id id' h => by cases id; cases id'; cases byteOrder_injective h; rfl

/-- A `BTreeMap` by projection. -/
abbrev ByProjection (α : Type) : Type := Std.ExtTreeMap ProjectionId α projectionOrder

/-- `collect` of the paths under their projections. -/
def pathsByProjection (paths : List GenerationPathRecord) : ByProjection GenerationPathRecord :=
  tableOf GenerationPathRecord.projectionId id paths

/-! ## The base of a delta -/

/-- Every old identity is the one that its path was delivered with. -/
def validateOldEntries (paths : ByProjection GenerationPathRecord) :
    List GenerationDeltaEntry → SyncResult Unit
  | [] => pure ()
  | entry :: entries =>
      match entry.old with
      | none => validateOldEntries paths entries
      | some old =>
          match paths[old.projectionId]? with
          | none => throw .localBaseMismatch
          | some path =>
              if path.remoteIdentity ≠ some old then throw .localBaseMismatch
              else validateOldEntries paths entries

def validateLocalBase (store : GenerationStore) (mountId : MountId) (delta : GenerationDelta) :
    SyncResult Unit :=
  match store.observed.lookup (mountId, delta.sourceConnectionId) with
  | none => throw (.missingObservedGeneration mountId)
  | some record =>
      if record.observed.generationId ≠ delta.baseGenerationId ∨
          record.observed.workspaceLayoutVersion ≠ delta.workspaceLayoutVersion ∨
          record.observed.workspaceLayoutDigest ≠ delta.workspaceLayoutDigest.value then
        throw .localBaseMismatch
      else
        validateOldEntries (pathsByProjection
          (store.listGenerationPathsForSource (mountId, delta.sourceConnectionId))) delta.entries

/-! ## The inventory that a delta results in -/

def generationMountLockFile : Text := ".locality-generation.lock".toList

section Codec

variable (codec : Codec)

def validateMountLogicalPath (path : LogicalPath) : SyncResult Unit :=
  let key := path.portableCollisionKey codec.unicode
  if key = generationMountLockFile ∨
      (splitSlash key).any fun component => ".locality-generation-".toList.isPrefixOf component then
    throw (.contract "generation inventory targets a reserved local apply path".toList)
  else pure ()

/-- The paths behind those that are claimed, each under its collision key. -/
def validateInventoryPathSet : List (Text × Text) → List LogicalPath → SyncResult Unit
  | _, [] => pure ()
  | claimed, path :: paths => do
      validateMountLogicalPath codec path
      let key := path.portableCollisionKey codec.unicode
      match claimed.lookup key with
      | some previous =>
          throw (.contract ("resulting generation inventory paths collide: ".toList ++
            quoted previous ++ " and ".toList ++ quoted path.value))
      | none => validateInventoryPathSet ((key, path.value) :: claimed) paths

/-- What a mount holds of a source: the identities of the remote, and the local paths. -/
structure Inventories where
  remote : ByProjection GenerationFileIdentity
  locals : ByProjection LogicalPath

/-- The inventories before a delta, of paths that agree with their identities. -/
def collectInventories : Inventories → List (ProjectionId × GenerationPathRecord) →
    SyncResult Inventories
  | inventories, [] => return inventories
  | inventories, (projectionId, path) :: paths => do
      validateMountLogicalPath codec path.localLogicalPath
      let locals := inventories.locals.insert projectionId path.localLogicalPath
      match path.remoteIdentity with
      | none => collectInventories { inventories with locals := locals } paths
      | some identity =>
          if identity.projectionId ≠ projectionId ∨ identity.logicalPath ≠ path.logicalPath then
            throw .localBaseMismatch
          else
            collectInventories
              { remote := inventories.remote.insert projectionId identity, locals := locals } paths

/-- The remote inventory with what an entry makes of its projection. -/
def applyRemote (remote : ByProjection GenerationFileIdentity) (projectionId : ProjectionId)
    (entry : GenerationDeltaEntry) : ByProjection GenerationFileIdentity :=
  match entry.new with
  | none => remote.erase projectionId
  | some new => (remote.erase projectionId).insert projectionId new

/-- The local paths with what an entry makes of its projection, unless it is in conflict. -/
def applyLocal (locals : ByProjection LogicalPath) (conflicted : Bool)
    (projectionId : ProjectionId) (entry : GenerationDeltaEntry) : ByProjection LogicalPath :=
  if conflicted then locals
  else
    match entry.new with
    | none => locals.erase projectionId
    | some new => (locals.erase projectionId).insert projectionId new.logicalPath

/-- The inventories behind the entries of a delta.  A validated entry has an identity. -/
def applyEntries (paths : ByProjection GenerationPathRecord) :
    Inventories → List GenerationDeltaEntry → SyncResult Inventories
  | inventories, [] => return inventories
  | inventories, entry :: entries =>
      match entry.projectionId with
      | none => throw (.delivery .emptyDeltaEntry)
      | some projectionId =>
          if entry.old.isNone && inventories.remote.contains projectionId then
            throw .localBaseMismatch
          else
            let conflicted := paths[projectionId]?.any fun path => path.state = .conflicted
            applyEntries paths
              { remote := applyRemote inventories.remote projectionId entry
                locals := applyLocal inventories.locals conflicted projectionId entry } entries

/-- The paths of the other sources of a mount. -/
def otherPaths (store : GenerationStore) (mountId : MountId)
    (sourceConnectionId : SourceConnectionId) : List GenerationPathRecord :=
  ((store.listObservedGenerations mountId).filter fun observed =>
    observed.sourceConnectionId ≠ sourceConnectionId).flatMap fun observed =>
      store.listGenerationPathsForSource (mountId, observed.sourceConnectionId)

def validateResultingInventory (store : GenerationStore) (mountId : MountId)
    (delta : GenerationDelta) : SyncResult (ByProjection GenerationPathRecord) := do
  let paths := pathsByProjection
    (store.listGenerationPathsForSource (mountId, delta.sourceConnectionId))
  let others := otherPaths store mountId delta.sourceConnectionId
  let changedProjections := delta.entries.filterMap GenerationDeltaEntry.projectionId
  if others.any fun path => decide (path.projectionId ∈ changedProjections) then
    throw .localBaseMismatch
  else
    let before ← collectInventories codec ⟨∅, ∅⟩ paths.toList
    let result ← applyEntries paths before delta.entries
    validateInventoryPathSet codec [] ((valuesOf result.remote).map GenerationFileIdentity.logicalPath ++
      (others.filterMap GenerationPathRecord.remoteIdentity).map
        GenerationFileIdentity.logicalPath)
    validateInventoryPathSet codec [] (valuesOf result.locals ++
      others.map GenerationPathRecord.localLogicalPath)
    (delta.validateTargetInventory codec.unicode codec.jsonLength codec.sha256
      (valuesOf result.remote)).mapError .delivery
    return paths

end Codec

end Locality.Delivery
