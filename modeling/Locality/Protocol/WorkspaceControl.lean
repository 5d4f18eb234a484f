/-
  Protocol/WorkspaceControl.lean --- the terminal control of a workspace export, and the
  materialization plan of the members of its archive: the second half of
  `locality-protocol/src/workspace_export_v2.rs`.

  The plan takes the inventory of the members' own entries, holds the control against it,
  and walks members and records side by side.
-/
import Locality.Protocol.WorkspaceExport

set_option autoImplicit false

namespace Locality.Protocol

open Locality.Core Locality.Foundation Scope WorkspaceExport

/-! ## Control metadata -/

structure WorkspaceExportControlMetadata where
  apiGeneration : UInt16
  profileId : WorkspaceProfileId
  profileRevision : UInt64
  layoutVersion : UInt16
  layoutDigest : LayoutDigest
  sessionId : SessionId
  exportAttemptId : ExportAttemptId
  inventorySha256 : Text
  scopeSources : List WorkspaceScopeSourceAuthority
  targetDirectories : List WorkspaceTargetDirectory
  declaredControlEntryCount : UInt64
  declaredFileCount : UInt64
  declaredDirectoryCount : UInt64
  declaredArchiveEntryCount : UInt64
  declaredContentBytes : UInt64
  deriving DecidableEq

namespace WorkspaceExport

def validateSha256 (value : Text) : ExportResult Unit :=
  failIf (isSha256Label value = false) .invalidFileMetadata

section Unicode

variable (unicode : UnicodeTables)

/-- The targets behind a mount and keys that were seen: by mount, each of its own key. -/
def validateTargetsFrom : Option PortableMountId → List Text → List WorkspaceTargetDirectory →
    ExportResult Unit
  | _, _, [] => pure ()
  | previous, targetKeys, target :: targets => do
      failIf (target.directoryCount = 0 ∨
          (∃ id ∈ previous, byteOrder target.mountId.value ≤ byteOrder id.value) ∨
          target.target.collisionKey unicode ∈ targetKeys)
        .declaredCountsMismatch
      validateTargetsFrom (some target.mountId) (target.target.collisionKey unicode :: targetKeys)
        targets

def validateTargetDeclarations (targets : List WorkspaceTargetDirectory) : ExportResult Unit := do
  failIf (targets = []) .declaredCountsMismatch
  validateTargetsFrom unicode none [] targets

end Unicode

end WorkspaceExport

section Unicode

variable (unicode : UnicodeTables) (sha256 : List UInt8 → List UInt8)

namespace WorkspaceExportControlMetadata

def validateShape (self : WorkspaceExportControlMetadata) : ExportResult Unit := do
  failIf (self.apiGeneration ≠ workspaceHttpApiGeneration)
    (.unsupportedApiGeneration self.apiGeneration)
  failIf (self.profileRevision = 0 ∨ self.layoutVersion ≠ workspaceLayoutVersion)
    .controlBindingMismatch
  WorkspaceExport.validateSha256 self.inventorySha256
  validateScopeSourceShape self.scopeSources
  validateTargetDeclarations unicode self.targetDirectories
  let (directories, files, bytes) ← orOverflow (sumTargetCounts self.targetDirectories)
  let archiveEntries ← orOverflow do
    let count ← checkedAdd directories files
    checkedAdd count self.declaredControlEntryCount
  failIf (self.declaredControlEntryCount ≠ 1 ∨ directories ≠ self.declaredDirectoryCount ∨
      files ≠ self.declaredFileCount ∨ bytes ≠ self.declaredContentBytes ∨
      archiveEntries ≠ self.declaredArchiveEntryCount)
    .declaredCountsMismatch

/-- The metadata names the session, the offer and the inventory. -/
def validateAgainst (self : WorkspaceExportControlMetadata) (session : WorkspaceProfileSession)
    (offer : WorkspaceExportOffer) (inventory : WorkspaceNamespacedInventory) :
    ExportResult Unit := do
  self.validateShape unicode
  (session.validate unicode sha256).mapError .api
  validateAgainstOffer inventory offer
  failIf (self.profileId ≠ session.profileId ∨ self.profileRevision ≠ session.profileRevision ∨
      self.layoutVersion ≠ session.sessionLayout.layoutVersion ∨
      self.layoutDigest ≠ session.sessionLayout.layoutDigest ∨
      self.profileId ≠ offer.profileId ∨ self.profileRevision ≠ offer.profileRevision ∨
      self.layoutVersion ≠ offer.layoutVersion ∨ self.layoutDigest ≠ offer.layoutDigest ∨
      self.sessionId ≠ session.sessionId ∨ self.sessionId ≠ offer.offer.sessionId ∨
      self.exportAttemptId ≠ offer.offer.exportAttemptId ∨
      self.inventorySha256 ≠ offer.offer.inventorySha256 ∨
      self.scopeSources ≠ inventory.scopeSources ∨
      self.targetDirectories ≠ inventory.targetDirectories ∨
      self.declaredControlEntryCount ≠ inventory.controlEntryCount ∨
      self.declaredFileCount ≠ inventory.fileCount ∨
      self.declaredDirectoryCount ≠ inventory.directoryCount ∨
      self.declaredArchiveEntryCount ≠ inventory.archiveEntryCount ∨
      self.declaredContentBytes ≠ inventory.selectedContentBytes)
    .controlBindingMismatch

end WorkspaceExportControlMetadata

/-! ## The receipt and the terminal control -/

structure WorkspaceExportCompletionReceipt where
  metadata : WorkspaceExportControlMetadata
  receipt : ExportCompletionReceipt
  deriving DecidableEq

def WorkspaceExportCompletionReceipt.validateAgainst (self : WorkspaceExportCompletionReceipt)
    (session : WorkspaceProfileSession) (offer : WorkspaceExportOffer)
    (inventory : WorkspaceNamespacedInventory) : ExportResult Unit := do
  self.metadata.validateAgainst unicode sha256 session offer inventory
  (self.receipt.validateAgainst offer.offer).mapError .scope
  failIf (self.receipt.versions ≠ offer.offer.versions ∨
      self.receipt.sessionId ≠ self.metadata.sessionId ∨
      self.receipt.exportAttemptId ≠ self.metadata.exportAttemptId ∨
      self.receipt.inventorySha256 ≠ self.metadata.inventorySha256 ∨
      self.receipt.deliveredControlEntryCount ≠ self.metadata.declaredControlEntryCount ∨
      self.receipt.deliveredFileCount ≠ self.metadata.declaredFileCount ∨
      self.receipt.deliveredDirectoryCount ≠ self.metadata.declaredDirectoryCount ∨
      self.receipt.deliveredArchiveEntryCount ≠ self.metadata.declaredArchiveEntryCount ∨
      self.receipt.deliveredContentBytes ≠ self.metadata.declaredContentBytes)
    .receiptBindingMismatch

structure WorkspaceExportTerminalControl where
  metadata : WorkspaceExportControlMetadata
  writableMetadata : WritableExportMetadata
  completionReceipt : WorkspaceExportCompletionReceipt
  deriving DecidableEq

namespace WorkspaceExport

def inventoryFile? : WorkspaceNamespacedExportRecord → Option InventoryFile
  | .file record => some ⟨record.metadata.projectionId, record.logicalPath,
      record.metadata.effectiveActions, record.metadata.contentSha256⟩
  | _ => none

/-- Each writable entry is that of a file. -/
def validateWritableEntries (metadata : WritableExportMetadata)
    (inventory : WorkspaceNamespacedInventory) : ExportResult Unit :=
  failIf (∃ entry ∈ metadata.writableEntries,
      entry.matchesFile (inventory.records.filterMap inventoryFile?) = false)
    .writableMetadataMismatch

end WorkspaceExport

def WorkspaceExportTerminalControl.validateAgainst (self : WorkspaceExportTerminalControl)
    (session : WorkspaceProfileSession) (offer : WorkspaceExportOffer)
    (inventory : WorkspaceNamespacedInventory) : ExportResult Unit := do
  self.metadata.validateAgainst unicode sha256 session offer inventory
  failIf (self.completionReceipt.metadata ≠ self.metadata) .receiptBindingMismatch
  self.completionReceipt.validateAgainst unicode sha256 session offer inventory
  (self.writableMetadata.validateAgainst sha256 offer.offer).mapError .scope
  failIf (self.writableMetadata.versions ≠ offer.offer.versions) .controlBindingMismatch
  validateWritableEntries self.writableMetadata inventory

/-! ## Members -/

structure WorkspaceArchiveMember where
  kind : WorkspaceArchiveEntryKind
  memberPath : Text
  authorizedEntry : Option WorkspaceAuthorizedExportEntry
  deriving DecidableEq

structure WorkspaceMaterializationEntry where
  kind : WorkspaceArchiveEntryKind
  mountId : PortableMountId
  target : MountTarget
  logicalPath : Option LogicalPath
  memberPath : Text
  projectionId : Option ProjectionId
  deriving DecidableEq

structure WorkspaceMaterializationPlan where
  targetDirectories : List WorkspaceTargetDirectory
  entries : List WorkspaceMaterializationEntry
  deriving DecidableEq

structure WorkspaceMaterializationPlanWithInventory where
  plan : WorkspaceMaterializationPlan
  inventory : WorkspaceNamespacedInventory
  deriving DecidableEq

namespace WorkspaceExport

/-- The last member is the control, and the only one. -/
def validateControlSequence (members : List WorkspaceArchiveMember) : ExportResult Unit :=
  match members.getLast? with
  | none => throw .invalidControlSequence
  | some last => do
      failIf (last.kind ≠ .control ∨ ∃ member ∈ members.dropLast, member.kind = .control)
        .invalidControlSequence
      failIf (last.memberPath ≠ reservedExportMetadataPath) .invalidControlPath

/-- An entry stands for a member of its kind. -/
def kindMatches (kind : WorkspaceArchiveEntryKind) (entry : WorkspaceAuthorizedExportEntry) :
    Bool :=
  match kind, entry with
  | .directory, .directory _ _ _ => true
  | .file, .file _ _ _ _ => true
  | _, _ => false

/-- A member has the entry that its kind asks for; a target needs none. -/
def checkMember (declaredTargets : List Text) (member : WorkspaceArchiveMember) :
    ExportResult Unit :=
  match member.kind with
  | .directory | .file =>
      if member.kind = .directory ∧ member.authorizedEntry = none ∧
          member.memberPath ∈ declaredTargets then pure ()
      else
        match member.authorizedEntry with
        | none => throw .missingAuthorizedEntry
        | some entry => failIf (kindMatches member.kind entry = false) .entryKindMismatch
  | .control => failIf member.authorizedEntry.isSome .entryKindMismatch
  | unsupported => throw (.unsupportedArchiveEntryKind unsupported)

/-- What comes before the first slash. -/
def topLevel (path : Text) : Text := (splitSlash path).head?.getD []

def validateStreamMemberPath (targets : List Text) (member : WorkspaceArchiveMember) :
    ExportResult Unit :=
  if member.kind = .control then
    failIf (member.memberPath ≠ reservedExportMetadataPath) .invalidControlPath
  else do
    validateRegularPath unicode member.memberPath
    failIf (topLevel member.memberPath ∉ targets) (.unknownTopLevelTarget (topLevel
      member.memberPath))

/-- Members side by side with records, behind paths and keys that were seen. -/
def matchMembers (targets : List Text) : List Text → List Text →
    List (WorkspaceArchiveMember × WorkspaceNamespacedExportRecord) → ExportResult Unit
  | _, _, [] => pure ()
  | seenPaths, collisionKeys, (member, expected) :: rest => do
      validateStreamMemberPath unicode targets member
      failIf (member.memberPath ∈ seenPaths) (.duplicateMaterializedPath member.memberPath)
      failIf (collisionKey unicode member.memberPath ∈ collisionKeys)
        (.caseFoldCollision member.memberPath)
      failIf (member.memberPath ≠ expected.memberPath) .archiveDoesNotMatchInventory
      matchMembers targets (member.memberPath :: seenPaths)
        (collisionKey unicode member.memberPath :: collisionKeys) rest

def materializationEntry :
    WorkspaceNamespacedExportRecord → Option WorkspaceMaterializationEntry
  | .targetDirectory mountId target memberPath =>
      some ⟨.directory, mountId, target, none, memberPath, none⟩
  | .directory _ mountId target logicalPath memberPath =>
      some ⟨.directory, mountId, target, some logicalPath, memberPath, none⟩
  | .file record => some ⟨.file, record.mountId, record.target, some record.logicalPath,
      record.memberPath, some record.metadata.projectionId⟩
  | .control _ => none

end WorkspaceExport

/-- `WorkspaceMaterializationPlanWithInventoryV2::plan`. -/
def WorkspaceMaterializationPlanWithInventory.planMembers (session : WorkspaceProfileSession)
    (offer : WorkspaceExportOffer) (control : WorkspaceExportTerminalControl)
    (members : List WorkspaceArchiveMember) :
    ExportResult WorkspaceMaterializationPlanWithInventory := do
  validateControlSequence members
  members.forM (checkMember (session.sessionLayout.entries.map fun entry => entry.target.value))
  let inventory ← planInventory unicode sha256 session.sessionLayout offer
    control.metadata.scopeSources (members.filterMap WorkspaceArchiveMember.authorizedEntry)
  control.validateAgainst unicode sha256 session offer inventory
  failIf (members.length ≠ inventory.records.length) .archiveDoesNotMatchInventory
  let targets := inventory.targetDirectories.map fun target => target.target.value
  matchMembers unicode targets [] [] (members.zip inventory.records)
  return {
    plan := ⟨inventory.targetDirectories, inventory.records.filterMap materializationEntry⟩
    inventory := inventory }

end Unicode

end Locality.Protocol
