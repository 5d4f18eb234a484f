/-
  Protocol/WorkspaceExport.lean --- the inventory of a workspace export, planned from the
  entries that were authorized: `plan_inventory` of
  `locality-protocol/src/workspace_export_v2.rs`, with the bytes its digest is taken of.

  An entry is placed below the target of its scope.  Its member path has to be portable,
  and different from those of all others up to case.
-/
import Locality.Protocol.WorkspaceApi
import Mathlib.Data.Finset.Dedup

set_option autoImplicit false

namespace Locality.Protocol

open Locality.Core Locality.Foundation Scope

/-! ## Entries and records -/

/-- What is known of an authorized file. -/
structure WorkspaceFileMetadata where
  projectionId : ProjectionId
  sourceConnectionId : SourceConnectionId
  fileKind : ProjectionFileKind
  effectiveActions : ActionSet
  contentSha256 : Text
  byteLength : UInt64
  deriving DecidableEq

inductive WorkspaceAuthorizedExportEntry where
  | directory (winningScopeOrdinal : UInt32) (mountId : PortableMountId) (logicalPath : Text)
  | file (winningScopeOrdinal : UInt32) (mountId : PortableMountId) (logicalPath : Text)
      (metadata : WorkspaceFileMetadata)
  deriving DecidableEq

namespace WorkspaceAuthorizedExportEntry

def scopeOrdinal : WorkspaceAuthorizedExportEntry → UInt32
  | directory winningScopeOrdinal _ _ => winningScopeOrdinal
  | file winningScopeOrdinal _ _ _ => winningScopeOrdinal

def mountId : WorkspaceAuthorizedExportEntry → PortableMountId
  | directory _ mountId _ => mountId
  | file _ mountId _ _ => mountId

def logicalPath : WorkspaceAuthorizedExportEntry → Text
  | directory _ _ logicalPath => logicalPath
  | file _ _ logicalPath _ => logicalPath

end WorkspaceAuthorizedExportEntry

/-- A file below its target. -/
structure WorkspaceFileRecord where
  winningScopeOrdinal : UInt32
  mountId : PortableMountId
  target : MountTarget
  logicalPath : LogicalPath
  memberPath : Text
  metadata : WorkspaceFileMetadata
  deriving DecidableEq

inductive WorkspaceNamespacedExportRecord where
  | targetDirectory (mountId : PortableMountId) (target : MountTarget) (memberPath : Text)
  | directory (winningScopeOrdinal : UInt32) (mountId : PortableMountId) (target : MountTarget)
      (logicalPath : LogicalPath) (memberPath : Text)
  | file (record : WorkspaceFileRecord)
  | control (memberPath : Text)
  deriving DecidableEq

def WorkspaceNamespacedExportRecord.memberPath : WorkspaceNamespacedExportRecord → Text
  | targetDirectory _ _ memberPath => memberPath
  | directory _ _ _ _ memberPath => memberPath
  | file record => record.memberPath
  | control memberPath => memberPath

structure WorkspaceScopeSourceAuthority where
  scopeOrdinal : UInt32
  sourceConnectionId : SourceConnectionId
  deriving DecidableEq, Repr

structure WorkspaceTargetDirectory where
  mountId : PortableMountId
  target : MountTarget
  directoryCount : UInt64
  fileCount : UInt64
  contentBytes : UInt64
  deriving DecidableEq, Repr

structure WorkspaceNamespacedInventory where
  scopeSources : List WorkspaceScopeSourceAuthority
  targetDirectories : List WorkspaceTargetDirectory
  records : List WorkspaceNamespacedExportRecord
  controlEntryCount : UInt64
  fileCount : UInt64
  directoryCount : UInt64
  archiveEntryCount : UInt64
  selectedContentBytes : UInt64
  inventorySha256 : Text
  deriving DecidableEq

/-! ## Errors -/

inductive WorkspaceArchiveEntryKind where
  | directory
  | file
  | control
  | symlink
  | hardlink
  | blockDevice
  | characterDevice
  | fifo
  deriving DecidableEq, Repr

inductive WorkspaceExportError where
  | unsupportedApiGeneration (actual : UInt16)
  | unknownScopeOrdinal (actual : UInt32)
  | unknownMount (scopeOrdinal : UInt32) (mountId : Text)
  | invalidScopeSourceAuthority
  | sourceNotInOffer (sourceConnectionId : Text)
  | sourceScopeMismatch (scopeOrdinal : UInt32) (expected actual : Text)
  | unknownTopLevelTarget (target : Text)
  | invalidLogicalPath (path : Text)
  | invalidComponent (component : Text)
  | nonNfcComponent (component : Text)
  | componentUtf8TooLong (actual : Nat)
  | componentUtf16TooLong (actual : Nat)
  | pathUtf8TooLong (actual : Nat)
  | pathUtf16TooLong (actual : Nat)
  | duplicateMaterializedPath (path : Text)
  | caseFoldCollision (path : Text)
  | duplicateProjectionId (projectionId : Text)
  | missingParentDirectory (path : Text)
  | invalidFileMetadata
  | countOverflow
  | inventoryDoesNotMatchOffer
  | controlBindingMismatch
  | receiptBindingMismatch
  | declaredCountsMismatch
  | writableMetadataMismatch
  | invalidControlSequence
  | invalidControlPath
  | unsupportedArchiveEntryKind (kind : WorkspaceArchiveEntryKind)
  | missingAuthorizedEntry
  | entryKindMismatch
  | archiveDoesNotMatchInventory
  | api (error : WorkspaceApiValidationError)
  | scope (error : ScopeContractError)
  deriving DecidableEq, Repr

abbrev ExportResult : Type → Type := Except WorkspaceExportError

namespace WorkspaceExport

/-- An error where a condition holds. -/
def failIf (p : Prop) [Decidable p] (error : WorkspaceExportError) : ExportResult Unit :=
  if p then throw error else pure ()

theorem failIf_eq_ok {p : Prop} [Decidable p] {error : WorkspaceExportError} {u : Unit} :
    failIf p error = .ok u ↔ ¬ p :=
  ite_throw_pure_eq_ok

/-! ## Portable paths -/

section Unicode

variable (unicode : UnicodeTables)

def validateComponent (component : Text) : ExportResult Unit := do
  failIf (component = ['.'] ∨ component = ['.', '.'] ∨ component.any isControl ∨
      component.any (· ∈ unsafeCharacters) ∨ endsDotOrSpace component ∨
      isWindowsDeviceName component)
    (.invalidComponent component)
  failIf (unicode.nfc component ≠ component) (.nonNfcComponent component)
  failIf (maxLogicalPathComponentUtf8Bytes < utf8Bytes component)
    (.componentUtf8TooLong (utf8Bytes component))
  failIf (maxLogicalPathComponentUtf16Units < utf16Units component)
    (.componentUtf16TooLong (utf16Units component))

def validateRegularPath (value : Text) : ExportResult Unit := do
  failIf (value = [] ∨ value.head? = some '/' ∨ '\\' ∈ value ∨ [] ∈ splitSlash value)
    (.invalidLogicalPath value)
  (splitSlash value).forM (validateComponent unicode)
  failIf (maxLogicalPathUtf8Bytes < utf8Bytes value) (.pathUtf8TooLong (utf8Bytes value))
  failIf (maxLogicalPathUtf16Units < utf16Units value) (.pathUtf16TooLong (utf16Units value))

def validateConnectorPath (value : Text) : ExportResult LogicalPath := do
  validateRegularPath unicode value
  match LogicalPath.new unicode value with
  | .ok path => return path
  | .error _ => throw (.invalidLogicalPath value)

end Unicode

/-! ## The authority of scopes -/

/-- The entries from an index on, each of its ordinal and of a source. -/
def validateScopeSourcesFrom :
    Nat → List WorkspaceScopeSourceAuthority → ExportResult Unit
  | _, [] => pure ()
  | index, authority :: authorities => do
      failIf (2 ^ 32 ≤ index) .countOverflow
      failIf (authority.scopeOrdinal.toNat ≠ index ∨ authority.sourceConnectionId.value = [])
        .invalidScopeSourceAuthority
      validateScopeSourcesFrom (index + 1) authorities

def validateScopeSourceShape (authorities : List WorkspaceScopeSourceAuthority) :
    ExportResult Unit := do
  failIf (authorities = []) .invalidScopeSourceAuthority
  validateScopeSourcesFrom 0 authorities

def offeredSources (offer : WorkspaceExportOffer) : List SourceConnectionId :=
  offer.offer.sourceGenerations.map OrderedSourceGeneration.sourceConnectionId

def validateScopeSourceAuthorities (sessionLayout : SessionLayout) (offer : WorkspaceExportOffer)
    (authorities : List WorkspaceScopeSourceAuthority) : ExportResult Unit := do
  offer.validate.mapError .api
  failIf (sessionLayout.layoutVersion ≠ offer.layoutVersion ∨
      sessionLayout.layoutDigest ≠ offer.layoutDigest ∨
      authorities.length ≠ sessionLayout.entries.length)
    .invalidScopeSourceAuthority
  validateScopeSourceShape authorities
  failIf ((offeredSources offer).toFinset ≠
      (authorities.map WorkspaceScopeSourceAuthority.sourceConnectionId).toFinset)
    .invalidScopeSourceAuthority

/-- The entry of a scope; `collect` into a map keeps the last one. -/
def entryOfScope (entries : List SessionLayoutEntry) (ordinal : UInt32) :
    Option SessionLayoutEntry :=
  entries.reverse.find? fun entry => decide (entry.scopeOrdinal = ordinal)

def sourceOfScope (authorities : List WorkspaceScopeSourceAuthority) (ordinal : UInt32) :
    Option SourceConnectionId :=
  (authorities.reverse.find? fun authority => decide (authority.scopeOrdinal = ordinal)).map
    WorkspaceScopeSourceAuthority.sourceConnectionId

/-! ## Counts -/

/-- `checked_add` of `u64`. -/
def checkedAdd (n m : UInt64) : Option UInt64 :=
  if n.toNat + m.toNat < 2 ^ 64 then some (n + m) else none

/-- A record as it is counted for its target. -/
def countRecord (counts : WorkspaceTargetDirectory) :
    WorkspaceNamespacedExportRecord → Option WorkspaceTargetDirectory
  | .directory _ _ _ _ _ => do
      let directoryCount ← checkedAdd counts.directoryCount 1
      return { counts with directoryCount := directoryCount }
  | .file record => do
      let fileCount ← checkedAdd counts.fileCount 1
      let contentBytes ← checkedAdd counts.contentBytes record.metadata.byteLength
      return { counts with fileCount := fileCount, contentBytes := contentBytes }
  | _ => return counts

/-- `target_counts.get_mut`: the mounts of the table are distinct. -/
def countInTarget (targets : List WorkspaceTargetDirectory) (mountId : PortableMountId)
    (record : WorkspaceNamespacedExportRecord) : Option (List WorkspaceTargetDirectory) :=
  targets.mapM fun counts => if counts.mountId = mountId then countRecord counts record
    else some counts

def sumTargetCounts (targets : List WorkspaceTargetDirectory) : Option (UInt64 × UInt64 × UInt64) :=
  targets.foldlM (fun (directories, files, bytes) target => do
    let directories ← checkedAdd directories target.directoryCount
    let files ← checkedAdd files target.fileCount
    let bytes ← checkedAdd bytes target.contentBytes
    return (directories, files, bytes)) (0, 0, 0)

/-- `ok_or(CountOverflow)`. -/
def orOverflow {α : Type} : Option α → ExportResult α
  | none => throw .countOverflow
  | some a => return a

/-! ## The plan of an inventory -/

/-- `BTreeMap` from the mounts of a session to their targets, in order. -/
def uniqueTargets (entries : List SessionLayoutEntry) : List (PortableMountId × MountTarget) :=
  (entries.foldl (fun (targets : TargetByMount) entry => targets.insert entry.mountId entry.target)
    ∅).toList

/-- What the entries are planned against. -/
structure PlanScope where
  entries : List SessionLayoutEntry
  offeredSources : List SourceConnectionId
  scopeSources : List WorkspaceScopeSourceAuthority

structure PlanState where
  targetCounts : List WorkspaceTargetDirectory
  directories : List WorkspaceNamespacedExportRecord
  files : List WorkspaceFileRecord
  paths : List Text
  collisionKeys : List Text
  projectionIds : List ProjectionId
  deriving DecidableEq

def validateFileMetadata (metadata : WorkspaceFileMetadata) : ExportResult Unit :=
  failIf (metadata.projectionId.value = [] ∨ metadata.sourceConnectionId.value = [] ∨
    metadata.fileKind = .directory ∨ metadata.effectiveActions = ∅ ∨
    isSha256Label metadata.contentSha256 = false) .invalidFileMetadata

section Unicode

variable (unicode : UnicodeTables)

def PlanState.insertMaterializedPath (self : PlanState) (path : Text) : ExportResult PlanState := do
  failIf (path ∈ self.paths) (.duplicateMaterializedPath path)
  failIf (collisionKey unicode path ∈ self.collisionKeys) (.caseFoldCollision path)
  return { self with
    paths := path :: self.paths
    collisionKeys := collisionKey unicode path :: self.collisionKeys }

/-- A directory below its target. -/
def PlanState.addDirectory (self : PlanState) (scope : SessionLayoutEntry)
    (logicalPath : LogicalPath) (memberPath : Text) : ExportResult PlanState := do
  let record := WorkspaceNamespacedExportRecord.directory scope.scopeOrdinal scope.mountId
    scope.target logicalPath memberPath
  let targetCounts ← orOverflow (countInTarget self.targetCounts scope.mountId record)
  return { self with
    targetCounts := targetCounts
    directories := self.directories ++ [record] }

/-- The source of a file is offered, and is that of its scope.  Every scope of a session
has authority: where one had none, the source panics. -/
def validateSource (plan : PlanScope) (scopeOrdinal : UInt32)
    (sourceConnectionId : SourceConnectionId) : ExportResult Unit := do
  failIf (sourceConnectionId ∉ plan.offeredSources) (.sourceNotInOffer sourceConnectionId.value)
  match sourceOfScope plan.scopeSources scopeOrdinal with
  | none => throw .invalidScopeSourceAuthority
  | some expected =>
      failIf (sourceConnectionId ≠ expected)
        (.sourceScopeMismatch scopeOrdinal expected.value sourceConnectionId.value)

/-- A file below its target. -/
def PlanState.addFile (self : PlanState) (plan : PlanScope) (scope : SessionLayoutEntry)
    (logicalPath : LogicalPath) (memberPath : Text) (metadata : WorkspaceFileMetadata) :
    ExportResult PlanState := do
  validateSource plan scope.scopeOrdinal metadata.sourceConnectionId
  validateFileMetadata metadata
  failIf (metadata.projectionId ∈ self.projectionIds)
    (.duplicateProjectionId metadata.projectionId.value)
  let record : WorkspaceFileRecord := ⟨scope.scopeOrdinal, scope.mountId, scope.target,
    logicalPath, memberPath, metadata⟩
  let targetCounts ← orOverflow (countInTarget self.targetCounts scope.mountId (.file record))
  return { self with
    targetCounts := targetCounts
    files := self.files ++ [record]
    projectionIds := metadata.projectionId :: self.projectionIds }

def PlanState.addMember (self : PlanState) (plan : PlanScope) (scope : SessionLayoutEntry)
    (logicalPath : LogicalPath) (memberPath : Text) :
    WorkspaceAuthorizedExportEntry → ExportResult PlanState
  | .directory _ _ _ => self.addDirectory scope logicalPath memberPath
  | .file _ _ _ metadata => self.addFile plan scope logicalPath memberPath metadata

/-- `{target}/{logical_path}`. -/
def memberPathOf (target : MountTarget) (logicalPath : LogicalPath) : Text :=
  target.value ++ '/' :: logicalPath.value

def PlanState.addEntry (plan : PlanScope) (self : PlanState)
    (entry : WorkspaceAuthorizedExportEntry) : ExportResult PlanState :=
  match entryOfScope plan.entries entry.scopeOrdinal with
  | none => throw (.unknownScopeOrdinal entry.scopeOrdinal)
  | some scope => do
      failIf (entry.mountId ≠ scope.mountId)
        (.unknownMount entry.scopeOrdinal entry.mountId.value)
      let logicalPath ← validateConnectorPath unicode entry.logicalPath
      let memberPath := memberPathOf scope.target logicalPath
      validateRegularPath unicode memberPath
      let state ← self.insertMaterializedPath unicode memberPath
      state.addMember plan scope logicalPath memberPath entry

/-- The targets of a session, before any entry. -/
def PlanState.start (entries : List SessionLayoutEntry) : ExportResult PlanState :=
  (uniqueTargets entries).foldlM
    (fun (state : PlanState) (_, target) => state.insertMaterializedPath unicode target.value)
    { targetCounts := (uniqueTargets entries).map fun (mountId, target) =>
        ⟨mountId, target, 1, 0, 0⟩
      directories := (uniqueTargets entries).map fun (mountId, target) =>
        .targetDirectory mountId target target.value
      files := []
      paths := []
      collisionKeys := []
      projectionIds := [] }

end Unicode

/-! ## The order of records -/

/-- Directories: by depth, then by the bytes of their paths. -/
def directoryRank (record : WorkspaceNamespacedExportRecord) : Nat ×ₗ List Nat :=
  toLex ((splitSlash record.memberPath).length, byteOrder record.memberPath)

/-- `file_record_key`. -/
def fileRank (record : WorkspaceFileRecord) :
    Nat ×ₗ WithBot (List Nat) ×ₗ List Nat ×ₗ List Nat :=
  toLex (record.winningScopeOrdinal.toNat,
    toLex (parentRank ((rsplitSlash record.logicalPath.value).map Prod.fst),
      toLex (byteOrder record.logicalPath.value, byteOrder record.metadata.projectionId.value)))

def sortedDirectories (directories : List WorkspaceNamespacedExportRecord) :
    List WorkspaceNamespacedExportRecord :=
  directories.insertionSort fun left right => directoryRank left ≤ directoryRank right

def sortedFiles (files : List WorkspaceFileRecord) : List WorkspaceFileRecord :=
  files.insertionSort fun left right => fileRank left ≤ fileRank right

/-- The parent of a member is one of the directories. -/
def hasParent (directoryPaths : List Text) (path : Text) : Bool :=
  match rsplitSlash path with
  | none => true
  | some (parent, _) => decide (parent ∈ directoryPaths)

def validateParentDirectories (directories : List WorkspaceNamespacedExportRecord)
    (files : List WorkspaceFileRecord) : ExportResult Unit :=
  let directoryPaths := directories.map WorkspaceNamespacedExportRecord.memberPath
  (directoryPaths ++ files.map WorkspaceFileRecord.memberPath).forM fun path =>
    failIf (hasParent directoryPaths path = false) (.missingParentDirectory path)

/-! ## The bytes of an inventory -/

def workspaceExportInventoryDomain : List UInt8 :=
  asBytes "locality.workspace-export.inventory.v2".toList ++ [0]

def appendCount (output : List UInt8) (count : Nat) : ExportResult (List UInt8) :=
  appendCountOr .countOverflow output count

def appendText (output : List UInt8) (value : Text) : ExportResult (List UInt8) :=
  appendTextOr .countOverflow output value

def appendAuthority (output : List UInt8) (authority : WorkspaceScopeSourceAuthority) :
    ExportResult (List UInt8) :=
  appendText (output ++ toBeBytes 8 authority.scopeOrdinal.toNat) authority.sourceConnectionId.value

def appendRecord (output : List UInt8) : WorkspaceNamespacedExportRecord → ExportResult (List UInt8)
  | .targetDirectory mountId target memberPath => do
      let output ← appendText output "target_directory".toList
      let output ← appendText output mountId.value
      let output ← appendText output target.value
      appendText output memberPath
  | .directory winningScopeOrdinal mountId target logicalPath memberPath => do
      let output ← appendText output "directory".toList
      let output := output ++ toBeBytes 8 winningScopeOrdinal.toNat
      let output ← appendText output mountId.value
      let output ← appendText output target.value
      let output ← appendText output logicalPath.value
      appendText output memberPath
  | .file record => do
      let output ← appendText output "file".toList
      let output := output ++ toBeBytes 8 record.winningScopeOrdinal.toNat
      let output ← appendText output record.mountId.value
      let output ← appendText output record.target.value
      let output ← appendText output record.metadata.sourceConnectionId.value
      let output ← appendText output record.metadata.projectionId.value
      let output ← appendText output record.logicalPath.value
      let output ← appendText output record.memberPath
      let output ← appendText output (projectionFileKindWireLabel record.metadata.fileKind)
      let output ← appendActionsOr .countOverflow output record.metadata.effectiveActions
      let output ← appendText output record.metadata.contentSha256
      return output ++ toBeBytes 8 record.metadata.byteLength.toNat
  | .control _ => return output

def canonicalInventoryPreimage (scopeSources : List WorkspaceScopeSourceAuthority)
    (records : List WorkspaceNamespacedExportRecord) : ExportResult (List UInt8) := do
  let output ← appendCount workspaceExportInventoryDomain scopeSources.length
  let output ← scopeSources.foldlM appendAuthority output
  failIf (records = []) .invalidControlSequence
  let output ← appendCount output (records.length - 1)
  records.foldlM appendRecord output

/-! ## The inventory -/

/-- `records.extend(files)` behind the directories, and the control member last. -/
def inventoryRecords (directories : List WorkspaceNamespacedExportRecord)
    (files : List WorkspaceFileRecord) : List WorkspaceNamespacedExportRecord :=
  directories ++ files.map .file ++ [.control reservedExportMetadataPath]

def planInventory (unicode : UnicodeTables) (sha256 : List UInt8 → List UInt8)
    (sessionLayout : SessionLayout) (offer : WorkspaceExportOffer)
    (scopeSources : List WorkspaceScopeSourceAuthority)
    (entries : List WorkspaceAuthorizedExportEntry) : ExportResult WorkspaceNamespacedInventory := do
  validateScopeSourceAuthorities sessionLayout offer scopeSources
  let state ← PlanState.start unicode sessionLayout.entries
  let state ← entries.foldlM
    (PlanState.addEntry unicode ⟨sessionLayout.entries, offeredSources offer, scopeSources⟩) state
  let directories := sortedDirectories state.directories
  let files := sortedFiles state.files
  validateParentDirectories directories files
  let records := inventoryRecords directories files
  let (directoryCount, fileCount, selectedContentBytes) ←
    orOverflow (sumTargetCounts state.targetCounts)
  let archiveEntryCount ← orOverflow do
    let count ← checkedAdd directoryCount fileCount
    checkedAdd count 1
  let preimage ← canonicalInventoryPreimage scopeSources records
  return {
    scopeSources := scopeSources
    targetDirectories := state.targetCounts
    records := records
    controlEntryCount := 1
    fileCount := fileCount
    directoryCount := directoryCount
    archiveEntryCount := archiveEntryCount
    selectedContentBytes := selectedContentBytes
    inventorySha256 := sha256Label sha256 preimage }

/-! ## Validation of an inventory -/

def authorizedEntryFromRecord :
    WorkspaceNamespacedExportRecord → Option WorkspaceAuthorizedExportEntry
  | .directory winningScopeOrdinal mountId _ logicalPath _ =>
      some (.directory winningScopeOrdinal mountId logicalPath.value)
  | .file record => some (.file record.winningScopeOrdinal record.mountId record.logicalPath.value
      record.metadata)
  | .targetDirectory _ _ _ | .control _ => none

def validateAgainstOffer (self : WorkspaceNamespacedInventory) (offer : WorkspaceExportOffer) :
    ExportResult Unit := do
  offer.validate.mapError .api
  let sealed := offer.offer
  failIf (self.controlEntryCount ≠ sealed.controlEntryCount ∨ self.fileCount ≠ sealed.fileCount ∨
      self.directoryCount ≠ sealed.directoryCount ∨
      self.archiveEntryCount ≠ sealed.archiveEntryCount ∨
      self.selectedContentBytes ≠ sealed.selectedContentBytes ∨
      self.inventorySha256 ≠ sealed.inventorySha256)
    .inventoryDoesNotMatchOffer

def validateAgainstExport (unicode : UnicodeTables) (sha256 : List UInt8 → List UInt8)
    (self : WorkspaceNamespacedInventory) (sessionLayout : SessionLayout)
    (offer : WorkspaceExportOffer) : ExportResult Unit := do
  let entries := self.records.filterMap authorizedEntryFromRecord
  let expected ← planInventory unicode sha256 sessionLayout offer self.scopeSources entries
  validateAgainstOffer expected offer
  failIf (self ≠ expected) .archiveDoesNotMatchInventory

end WorkspaceExport

end Locality.Protocol
