/-
  Daemon/ProjectionState.lean --- `localityd/src/projection_state.rs`: pending mutations of
  a virtual filesystem that are compared with the entities and the files of their mounts,
  and taken back where nothing is lost.

  The repositories are tables in memory, and files and directories are read from a host
  that a run does not change.  Paths and access roots are those of a platform other than
  macOS.
-/
import Locality.Core.Canonical
import Locality.Daemon.Media
import Locality.Discovery.Records

set_option autoImplicit false

namespace Locality.Daemon

open Locality.Core Locality.Foundation
open Locality.Discovery (VirtualMutationRecord VirtualMutationKind)

/-! ## Reports -/

inductive ProjectionStateRepairKind where
  | clearRedundantPendingCreate
  | clearOrphanPendingDelete
  | clearStalePendingDelete
  deriving DecidableEq, Repr

structure ProjectionStateDiagnostic where
  code : Text
  path : PathBuf
  localId : Option Text
  remoteId : Option Text
  message : Text
  repair : Option ProjectionStateRepairKind
  deriving DecidableEq, Repr

structure ProjectionStateReconcileReport where
  checked : Nat
  repaired : Nat
  conflicts : Nat
  diagnostics : List ProjectionStateDiagnostic
  deriving DecidableEq, Repr

structure ProjectionStateRepair where
  mountId : MountId
  localId : Text
  deriving DecidableEq, Repr

structure ProjectionStatePlan where
  checked : Nat
  diagnostics : List ProjectionStateDiagnostic
  repairs : List ProjectionStateRepair
  deriving DecidableEq, Repr

namespace ProjectionStatePlan

def hasConflictForLocalId (self : ProjectionStatePlan) (localId : Text) : Bool :=
  self.diagnostics.any fun diagnostic => diagnostic.repair.isNone &&
    diagnostic.localId.any fun ids => decide (localId ∈ ids.splitOn ',')

def pushRepair (self : ProjectionStatePlan) (repair : ProjectionStateRepair)
    (diagnostic : ProjectionStateDiagnostic) : ProjectionStatePlan :=
  if self.hasConflictForLocalId repair.localId then self
  else { self with
    repairs := self.repairs ++ [repair]
    diagnostics := self.diagnostics ++ [diagnostic] }

def pushConflict (self : ProjectionStatePlan) (diagnostic : ProjectionStateDiagnostic) :
    ProjectionStatePlan :=
  if self.diagnostics.any fun existing => existing.repair.isNone &&
      decide (existing.code = diagnostic.code ∧ existing.path = diagnostic.path ∧
        existing.localId = diagnostic.localId ∧ existing.remoteId = diagnostic.remoteId) then self
  else { self with diagnostics := self.diagnostics ++ [diagnostic] }

end ProjectionStatePlan

def reportFromPlan (plan : ProjectionStatePlan) (repaired : Nat) :
    ProjectionStateReconcileReport where
  checked := plan.checked
  repaired := repaired
  conflicts := plan.diagnostics.countP fun diagnostic => diagnostic.repair.isNone
  diagnostics := plan.diagnostics

/-! ## The store and the host -/

structure ProjectionStore where
  mounts : RankedTable MountConfig.mountId
  entities : RankedTable EntityRecord.key
  virtualMutations : RankedTable VirtualMutationRecord.key

namespace ProjectionStore

def listEntities (self : ProjectionStore) (mountId : MountId) : List EntityRecord :=
  self.entities.all.filter fun entity => decide (entity.mountId = mountId)

/-- By the projected path, and then by the local id. -/
def mutationRank (mutation : VirtualMutationRecord) : List (List Nat) :=
  Ranked.rank mutation.projectedPath ++ Ranked.rank mutation.localId

def listVirtualMutations (self : ProjectionStore) (mountId : MountId) :
    List VirtualMutationRecord :=
  (self.virtualMutations.all.filter fun mutation =>
    decide (mutation.mountId = mountId)).insertionSort fun left right =>
      mutationRank left ≤ mutationRank right

def deleteVirtualMutation (self : ProjectionStore) (mountId : MountId) (localId : Text) :
    ProjectionStore :=
  { self with virtualMutations := self.virtualMutations.erase (mountId, localId) }

end ProjectionStore

structure ProjectionHost where
  /-- The text of a file that can be read. -/
  contents : PathBuf → Option Text
  isDir : PathBuf → Bool
  canonicalize : PathBuf → Option PathBuf
  currentDir : LocalityResult PathBuf
  /-- `LOCALITY_VIRTUAL_FS_CONTENT_ROOT`. -/
  contentRootOverride : Option PathBuf

/-! ## Targets -/

inductive ProjectionStateFilter where
  | all
  | exact (path : PathBuf)
  | subtree (root : PathBuf)
  deriving DecidableEq, Repr

def ProjectionStateFilter.contains : ProjectionStateFilter → PathBuf → Bool
  | all, _ => true
  | exact expected, path => decide (path = expected)
  | subtree root, path => path.startsWith root

structure ProjectionStateScope where
  mount : MountConfig
  filter : ProjectionStateFilter
  deriving DecidableEq, Repr

/-- `source_root_directory_name`. -/
def sourceRootDirectoryName (connector : Text) : Text :=
  let normalized := ((connector.filterMap fun character =>
    if character.isAlphanum then some character.toLower
    else if character = '-' ∨ character = '_' then some '-'
    else none).dropWhile (· = '-')).rdropWhile (· = '-')
  if normalized.isEmpty then "source".toList else normalized

def mountPointDirectoryName (mount : MountConfig) : Text :=
  (mount.root.fileName.filter fun name => !name.isEmpty).getD
    (sourceRootDirectoryName mount.mountId.value)

def virtualProjectionMountPoint (mount : MountConfig) : PathBuf :=
  (mount.root.parent.getD mount.root).join (pathOfText (mountPointDirectoryName mount))

def mountAccessRoots (mount : MountConfig) : List PathBuf :=
  let mountPoint := virtualProjectionMountPoint mount
  if (mount.projection = .linuxFuse ∨ mount.projection = .windowsCloudFiles) ∧
      mountPoint ≠ mount.root then [mount.root, mountPoint]
  else [mount.root]

/-- `safe_mount_relative_path`. -/
def safeMountRelativePath (path : PathBuf) : Option PathBuf :=
  if path.absolute = true ∨ "..".toList ∈ path.components then none else some path

section Host

variable (host : ProjectionHost)

/-- The loop of `canonicalize_existing_prefix`, over the components from the last one on. -/
def canonicalizePrefix (absolute : Bool) : List Text → PathBuf → Option PathBuf
  | [], suffix => (host.canonicalize ⟨absolute, []⟩).map (·.join suffix)
  | name :: rest, suffix =>
      match host.canonicalize ⟨absolute, (name :: rest).reverse⟩ with
      | some canonical => some (canonical.join suffix)
      | none =>
          if name = "..".toList then none
          else canonicalizePrefix absolute rest ((PathBuf.relative [name]).join suffix)

def canonicalizeExistingPrefix (path : PathBuf) : Option PathBuf :=
  canonicalizePrefix host path.absolute path.components.reverse .empty

def canonicalizedPathEscapesAccessRoot (path accessRoot : PathBuf) : Bool :=
  match canonicalizeExistingPrefix host path, canonicalizeExistingPrefix host accessRoot with
  | some canonicalPath, some canonicalRoot => !canonicalPath.startsWith canonicalRoot
  | _, _ => false

def relativeToAccessRoot (path accessRoot : PathBuf) : Option PathBuf :=
  match stripPathPrefix path accessRoot with
  | some relativePath => do
      let relativePath ← safeMountRelativePath relativePath
      if canonicalizedPathEscapesAccessRoot host path accessRoot then none else some relativePath
  | none => do
      let canonicalPath ← canonicalizeExistingPrefix host path
      let canonicalRoot ← canonicalizeExistingPrefix host accessRoot
      let relativePath ← stripPathPrefix canonicalPath canonicalRoot
      safeMountRelativePath relativePath

/-- `components().count()`. -/
def componentCount (path : PathBuf) : Nat :=
  path.components.length + if path.absolute then 1 else 0

/-- The relative path of `match_mount_path`: below the longest access root, and the last one
of these. -/
def matchMountPath (mount : MountConfig) (path : PathBuf) : Option PathBuf :=
  ((mountAccessRoots mount).foldl (fun best accessRoot =>
    match relativeToAccessRoot host path accessRoot, best with
    | none, best => best
    | some relativePath, none => some (componentCount accessRoot, relativePath)
    | some relativePath, some (count, held) =>
        if componentCount accessRoot < count then some (count, held)
        else some (componentCount accessRoot, relativePath)) none).map Prod.snd

def absolutePath (path : PathBuf) : LocalityResult PathBuf :=
  if path.absolute then .ok path else host.currentDir.map (·.join path)

def scopeFilter (target relativePath : PathBuf) : ProjectionStateFilter :=
  if relativePath.isEmpty then .all
  else if host.isDir target then .subtree relativePath
  else .exact relativePath

def projectionStateScopes (store : ProjectionStore) (target : Option PathBuf) :
    LocalityResult (List ProjectionStateScope) :=
  match target with
  | none => .ok (store.mounts.all.map fun mount => ⟨mount, .all⟩)
  | some target => do
      let target ← absolutePath host target
      return store.mounts.all.filterMap fun mount =>
        (matchMountPath host mount target).map fun relativePath =>
          ⟨mount, scopeFilter host target relativePath⟩

end Host

/-! ## Facts -/

structure ProjectionStateFacts where
  entities : List EntityRecord
  mutations : List VirtualMutationRecord

namespace ProjectionStateFacts

def load (store : ProjectionStore) (scope : ProjectionStateScope) : ProjectionStateFacts where
  entities := store.listEntities scope.mount.mountId
  mutations := (store.listVirtualMutations scope.mount.mountId).filter fun mutation =>
    scope.filter.contains mutation.projectedPath

def entityById (self : ProjectionStateFacts) (remoteId : RemoteId) : Option EntityRecord :=
  self.entities.find? fun entity => decide (entity.remoteId = remoteId)

/-- Of the entities at a path, the map has the last one. -/
def entityByPath (self : ProjectionStateFacts) (path : PathBuf) : Option EntityRecord :=
  self.entities.reverse.find? fun entity => decide (entity.path = path)

end ProjectionStateFacts

/-- The mutations under each of their keys, in the order of the keys. -/
def mutationsBy {κ : Type} [DecidableEq κ] [Ranked κ] (key : VirtualMutationRecord → Option κ)
    (mutations : List VirtualMutationRecord) : List (κ × List VirtualMutationRecord) :=
  ((mutations.filterMap key).dedup.insertionSort fun left right =>
    Ranked.rank left ≤ Ranked.rank right).map fun found =>
      (found, mutations.filter fun mutation => decide (key mutation = some found))

def joinedLocalIds (mutations : List VirtualMutationRecord) : Text :=
  join [','] (mutations.map VirtualMutationRecord.localId)

/-! ## Identities of files -/

section Identity

variable (yaml : YamlSerde) (host : ProjectionHost)

inductive PendingCreateIdentity where
  | remote (remoteId : RemoteId)
  | missingIdentity
  | unreadable
  | invalidCanonical
  | conflictingSources (remoteIds : List RemoteId)
  deriving DecidableEq, Repr

def parsedRemoteId (parsed : ParsedCanonicalDocument) : Option RemoteId :=
  parsed.frontmatter.loc.bind (·.id)

def validateRelativePath (path : PathBuf) : LocalityResult Unit :=
  if path.isEmpty then
    .error (.invalidState "virtual filesystem content path cannot be empty".toList)
  else if path.absolute = true ∨ "..".toList ∈ path.components then
    .error (.invalidState ("virtual filesystem content path `".toList ++ displayPath path ++
      "` must be relative".toList))
  else .ok ()

def virtualFsContentRoot (stateRoot : PathBuf) (mountId : MountId) : PathBuf :=
  ((host.contentRootOverride.getD (stateRoot.join (.relative ["content".toList]))).join
    (pathOfText mountId.value)).join (.relative ["files".toList])

def virtualFsContentPath (stateRoot : PathBuf) (mountId : MountId) (relativePath : PathBuf) :
    LocalityResult PathBuf := do
  validateRelativePath relativePath
  return (virtualFsContentRoot host stateRoot mountId).join relativePath

/-- The files that the identity of a create is read from. -/
def pendingCreatePaths (stateRoot : Option PathBuf) (mount : MountConfig)
    (mutation : VirtualMutationRecord) : LocalityResult (List PathBuf) := do
  let current ← match stateRoot with
    | none => pure none
    | some stateRoot =>
        (virtualFsContentPath host stateRoot mount.mountId mutation.projectedPath).map some
  let stored := match mutation.contentPath with
    | some storedPath => some storedPath
    | none => current
  return (stored.toList ++ current.toList ++ [mount.root.join mutation.projectedPath]).eraseDups

/-- What the files say so far: the identities, and whether one was read without any and
whether one was not parsed. -/
structure IdentitySources where
  remoteIds : List RemoteId
  sawReadableWithoutIdentity : Bool
  sawInvalid : Bool

def IdentitySources.read (self : IdentitySources) (path : PathBuf) : IdentitySources :=
  match host.contents path with
  | none => self
  | some contents =>
      match parseCanonicalMarkdown yaml contents with
      | .error _ => { self with sawInvalid := true }
      | .ok parsed =>
          match parsedRemoteId parsed with
          | none => { self with sawReadableWithoutIdentity := true }
          | some remoteId =>
              if remoteId ∈ self.remoteIds then self
              else { self with remoteIds := self.remoteIds ++ [remoteId] }

def pendingCreateIdentity (stateRoot : Option PathBuf) (mount : MountConfig)
    (mutation : VirtualMutationRecord) : LocalityResult PendingCreateIdentity := do
  let paths ← pendingCreatePaths host stateRoot mount mutation
  let sources := paths.foldl (IdentitySources.read yaml host) ⟨[], false, false⟩
  return match sources.remoteIds with
    | [] =>
        if sources.sawReadableWithoutIdentity then .missingIdentity
        else if sources.sawInvalid then .invalidCanonical
        else .unreadable
    | [remoteId] => .remote remoteId
    | remoteIds => .conflictingSources remoteIds

def stalePendingDeleteTargetPresent (mount : MountConfig) (mutation : VirtualMutationRecord) :
    Bool :=
  match mutation.targetRemoteId with
  | none => false
  | some remoteId =>
      match host.contents (mount.root.join mutation.projectedPath) with
      | none => false
      | some contents =>
          match parseCanonicalMarkdown yaml contents with
          | .error _ => false
          | .ok parsed => decide (parsedRemoteId parsed = some remoteId)

end Identity

/-! ## Conflicts and repairs -/

section Plan

variable (yaml : YamlSerde) (host : ProjectionHost) (stateRoot : Option PathBuf)
  (mount : MountConfig) (facts : ProjectionStateFacts)

/-- A conflict of a mutation. -/
def mutationConflict (mutation : VirtualMutationRecord) (code : String)
    (remoteId : Option RemoteId) (message : Text) : ProjectionStateDiagnostic where
  code := code.toList
  path := mutation.projectedPath
  localId := some mutation.localId
  remoteId := remoteId.map RemoteId.value
  message := message
  repair := none

def repairOf (mutation : VirtualMutationRecord) : ProjectionStateRepair :=
  ⟨mount.mountId, mutation.localId⟩

/-- What tells of a repair. -/
def repairDiagnostic (mutation : VirtualMutationRecord) (code : String) (remoteId : RemoteId)
    (message : String) (repair : ProjectionStateRepairKind) : ProjectionStateDiagnostic where
  code := code.toList
  path := mutation.projectedPath
  localId := some mutation.localId
  remoteId := some remoteId.value
  message := message.toList
  repair := some repair

/-- The kinds of the mutations at a path, sorted and without repetition, are that of create
alone where each of them is. -/
def pathConflict (group : PathBuf × List VirtualMutationRecord) : ProjectionStateDiagnostic where
  code := if group.2.all fun mutation => decide (mutation.mutationKind = .create) then
      "duplicate_pending_create_path".toList
    else "multiple_pending_mutations_for_path".toList
  path := group.1
  localId := some (joinedLocalIds group.2)
  remoteId := none
  message := "multiple pending projection mutations claim `".toList ++ displayPath group.1 ++
    "`".toList
  repair := none

def entityConflict (group : RemoteId × List VirtualMutationRecord) :
    ProjectionStateDiagnostic where
  code := "multiple_pending_mutations_for_entity".toList
  path := (group.2.head?.map VirtualMutationRecord.projectedPath).getD .empty
  localId := some (joinedLocalIds group.2)
  remoteId := some group.1.value
  message := "multiple pending projection mutations target remote entity `".toList ++
    group.1.value ++ "`".toList
  repair := none

/-- The groups of more than one mutation. -/
def sharedGroups {κ : Type} [DecidableEq κ] [Ranked κ] (key : VirtualMutationRecord → Option κ) :
    List (κ × List VirtualMutationRecord) :=
  (mutationsBy key facts.mutations).filter fun group => decide (1 < group.2.length)

def planMultiMutationConflicts (plan : ProjectionStatePlan) : ProjectionStatePlan :=
  let plan := (sharedGroups facts fun mutation => some mutation.projectedPath).foldl
    (fun plan group => plan.pushConflict (pathConflict group)) plan
  (sharedGroups facts VirtualMutationRecord.targetRemoteId).foldl
    (fun plan group => plan.pushConflict (entityConflict group)) plan

def planMissingTarget (plan : ProjectionStatePlan) (mutation : VirtualMutationRecord) :
    ProjectionStatePlan :=
  match mutation.mutationKind with
  | .create =>
      if plan.hasConflictForLocalId mutation.localId ||
          (facts.entityByPath mutation.projectedPath).isSome then plan
      else
        match mutation.parentRemoteId with
        | none =>
            plan.pushConflict (mutationConflict mutation "pending_create_missing_parent" none
              "pending create has no parent remote id".toList)
        | some parentId =>
            if decide (mount.remoteRootId = some parentId) || (facts.entityById parentId).isSome then
              plan
            else
              plan.pushConflict (mutationConflict mutation "pending_create_missing_parent"
                (some parentId) ("pending create parent `".toList ++ parentId.value ++
                  "` is missing from local state".toList))
  | .move | .rename =>
      match mutation.targetRemoteId with
      | none =>
          plan.pushConflict (mutationConflict mutation "pending_rename_missing_target" none
            "pending rename has no target remote id".toList)
      | some remoteId =>
          if (facts.entityById remoteId).isSome then plan
          else
            plan.pushConflict (mutationConflict mutation "pending_rename_missing_target"
              (some remoteId) ("pending rename target `".toList ++ remoteId.value ++
                "` is missing from local state".toList))
  | .delete => plan

def planLosslessRepair (plan : ProjectionStatePlan) (mutation : VirtualMutationRecord) :
    ProjectionStatePlan :=
  match mutation.mutationKind, mutation.targetRemoteId with
  | .delete, some remoteId =>
      if plan.hasConflictForLocalId mutation.localId then plan
      else if (facts.entityById remoteId).isNone then
        plan.pushRepair (repairOf mount mutation) (repairDiagnostic mutation
          "orphan_pending_delete" remoteId
          "pending delete target is already absent from local state" .clearOrphanPendingDelete)
      else if stalePendingDeleteTargetPresent yaml host mount mutation then
        plan.pushRepair (repairOf mount mutation) (repairDiagnostic mutation
          "stale_pending_delete" remoteId
          "pending delete target is still present with matching identity"
          .clearStalePendingDelete)
      else plan
  | .move, some remoteId | .rename, some remoteId =>
      if (facts.entityById remoteId).isNone then plan
      else
        match facts.entityByPath mutation.projectedPath with
        | none => plan
        | some colliding =>
            if colliding.remoteId = remoteId then plan
            else
              plan.pushConflict (mutationConflict mutation "pending_rename_path_conflict"
                (some remoteId) ("pending rename target path belongs to remote entity `".toList ++
                  colliding.remoteId.value ++ "`".toList))
  | _, _ => plan

/-- What a create that collides with an entity is, by the identity of its files. -/
def planCollision (entity : EntityRecord) (mutation : VirtualMutationRecord)
    (plan : ProjectionStatePlan) : PendingCreateIdentity → ProjectionStatePlan
  | .remote remoteId =>
      if remoteId = entity.remoteId then
        plan.pushRepair (repairOf mount mutation) (repairDiagnostic mutation
          "redundant_pending_create" entity.remoteId
          "pending local create duplicates an existing tracked entity"
          .clearRedundantPendingCreate)
      else
        plan.pushConflict (mutationConflict mutation "pending_create_identity_conflict"
          (some entity.remoteId) ("pending local create carries loc.id `".toList ++
            remoteId.value ++ "` but the path belongs to `".toList ++ entity.remoteId.value ++
            "`".toList))
  | .conflictingSources remoteIds =>
      plan.pushConflict { mutationConflict mutation "pending_create_identity_source_conflict" none
          "pending local create content sources disagree about loc.id".toList with
        remoteId := some (join [','] (remoteIds.map RemoteId.value)) }
  | .missingIdentity =>
      plan.pushConflict (mutationConflict mutation "pending_create_path_conflict"
        (some entity.remoteId) ("pending local create has no loc.id but the path already ".toList ++
          "belongs to a tracked entity".toList))
  | .unreadable =>
      plan.pushConflict (mutationConflict mutation "pending_create_unreadable"
        (some entity.remoteId) ("pending local create collides with a tracked entity but its ".toList
          ++ "Markdown content could not be read".toList))
  | .invalidCanonical =>
      plan.pushConflict (mutationConflict mutation "pending_create_invalid_canonical"
        (some entity.remoteId) ("pending local create collides with a tracked entity but its ".toList
          ++ "Markdown identity could not be parsed".toList))

def planCreateCollision (plan : ProjectionStatePlan) (mutation : VirtualMutationRecord) :
    LocalityResult ProjectionStatePlan :=
  if decide (mutation.mutationKind ≠ .create) || plan.hasConflictForLocalId mutation.localId then
    .ok plan
  else
    match facts.entityByPath mutation.projectedPath with
    | none => .ok plan
    | some entity =>
        (pendingCreateIdentity yaml host stateRoot mount mutation).map
          (planCollision mount entity mutation plan)

end Plan

/-! ## Reconciling -/

section Reconcile

variable (yaml : YamlSerde) (host : ProjectionHost) (store : ProjectionStore)
  (stateRoot : Option PathBuf)

def planProjectionScope (plan : ProjectionStatePlan) (scope : ProjectionStateScope) :
    LocalityResult ProjectionStatePlan :=
  let facts := ProjectionStateFacts.load store scope
  let plan := { plan with checked := plan.checked + facts.mutations.length }
  let plan := planMultiMutationConflicts facts plan
  let plan := facts.mutations.foldl (planMissingTarget scope.mount facts) plan
  let plan := facts.mutations.foldl (planLosslessRepair yaml host scope.mount facts) plan
  facts.mutations.foldlM (planCreateCollision yaml host stateRoot scope.mount facts) plan

def planProjectionStateReconciliation (target : Option PathBuf) :
    LocalityResult ProjectionStatePlan := do
  let scopes ← projectionStateScopes host store target
  scopes.foldlM (planProjectionScope yaml host store stateRoot) ⟨0, [], []⟩

def diagnoseProjectionStateForTarget (target : Option PathBuf) :
    LocalityResult ProjectionStateReconcileReport :=
  (planProjectionStateReconciliation yaml host store stateRoot target).map fun plan =>
    reportFromPlan plan 0

def reconcileProjectionStateForTarget (target : Option PathBuf) :
    LocalityResult ProjectionStateReconcileReport × ProjectionStore :=
  match planProjectionStateReconciliation yaml host store stateRoot target with
  | .error error => (.error error, store)
  | .ok plan =>
      (.ok (reportFromPlan plan plan.repairs.length),
        plan.repairs.foldl (fun store repair =>
          store.deleteVirtualMutation repair.mountId repair.localId) store)

end Reconcile

end Locality.Daemon
