/-
  Protocol/ScopeOffer.lean --- sealed offers, writable metadata, receipts and the
  terminal control of scope-authorized exports, of `locality-protocol/src/lib.rs`.
-/
import Locality.Core.Model
import Locality.Protocol.ScopeContract

set_option autoImplicit false

namespace Locality.Protocol.Scope

open Locality.Core Locality.Foundation

/-! ## Sealed offers -/

structure ExportAttemptLimits where
  maxFiles : UInt64
  maxDirectories : UInt64
  maxContentBytes : UInt64
  deriving DecidableEq, Repr

def ExportAttemptLimits.validate (self : ExportAttemptLimits) : ScopeResult Unit :=
  failIf (self.maxFiles = 0 ∨ self.maxDirectories = 0 ∨ self.maxContentBytes = 0) .invalidLimit

inductive TarContentEncoding where
  | identity
  | zstd
  deriving DecidableEq, Repr

structure SealedExportOffer where
  versions : ComponentVersions
  sessionId : SessionId
  exportAttemptId : ExportAttemptId
  sourceGenerations : List OrderedSourceGeneration
  mediaType : Text
  contentEncoding : TarContentEncoding
  limits : ExportAttemptLimits
  controlEntryCount : UInt64
  fileCount : UInt64
  directoryCount : UInt64
  archiveEntryCount : UInt64
  selectedContentBytes : UInt64
  inventorySha256 : Text
  writableMetadataSha256 : Text
  sealedAt : Text
  expiresAt : Text
  deriving DecidableEq, Repr

/-- One control entry, and as many entries as there are of each kind. -/
def validateExportCounts (controlEntryCount fileCount directoryCount archiveEntryCount : UInt64) :
    ScopeResult Unit :=
  failIf (controlEntryCount ≠ 1 ∨
      controlEntryCount.toNat + directoryCount.toNat + fileCount.toNat ≠ archiveEntryCount.toNat)
    .inconsistentArchiveEntryCount

def validateSelectionLimits (limits : ExportAttemptLimits)
    (fileCount directoryCount selectedContentBytes : UInt64) : ScopeResult Unit :=
  failIf (limits.maxFiles < fileCount ∨ limits.maxDirectories < directoryCount ∨
    limits.maxContentBytes < selectedContentBytes) .selectionExceedsLimits

/-- What the records of an inventory amount to. -/
structure RecordCounts where
  controlEntries : Nat
  directories : Nat
  files : Nat
  contentBytes : Nat
  deriving DecidableEq, Repr

def RecordCounts.add (self : RecordCounts) : CanonicalExportRecord → ScopeResult RecordCounts
  | .control _ _ => return { self with controlEntries := self.controlEntries + 1 }
  | .directory _ => return { self with directories := self.directories + 1 }
  | .file _ _ _ _ _ byteLength =>
      if 2 ^ 64 ≤ self.contentBytes + byteLength.toNat then throw .inventoryTooLarge
      else return { self with
        files := self.files + 1
        contentBytes := self.contentBytes + byteLength.toNat }

namespace SealedExportOffer

def validate (self : SealedExportOffer) : ScopeResult Unit := do
  validateExportVersions self.versions
  validateNonempty "session_id".toList self.sessionId.value
  validateSourceGenerations self.sourceGenerations
  validateNonempty "media_type".toList self.mediaType
  validateNonempty "sealed_at".toList self.sealedAt
  validateNonempty "expires_at".toList self.expiresAt
  self.limits.validate
  validateExportCounts self.controlEntryCount self.fileCount self.directoryCount
    self.archiveEntryCount
  validateSelectionLimits self.limits self.fileCount self.directoryCount
    self.selectedContentBytes
  validateSha256 "inventory_sha256".toList self.inventorySha256
  validateSha256 "writable_metadata_sha256".toList self.writableMetadataSha256

def validateInventory (unicode : UnicodeTables) (sha256 : List UInt8 → List UInt8)
    (self : SealedExportOffer) (records : List CanonicalExportRecord) : ScopeResult Unit := do
  self.validate
  validateCanonicalExportRecords unicode records
  let counts ← records.foldlM RecordCounts.add ⟨0, 0, 0, 0⟩
  let inventorySha256 ← canonicalExportInventorySha256 unicode sha256 records
  failIf (2 ^ 64 ≤ records.length) .inventoryTooLarge
  failIf (counts.controlEntries ≠ self.controlEntryCount.toNat ∨
    counts.directories ≠ self.directoryCount.toNat ∨ counts.files ≠ self.fileCount.toNat ∨
    records.length ≠ self.archiveEntryCount.toNat ∨
    counts.contentBytes ≠ self.selectedContentBytes.toNat ∨
    inventorySha256 ≠ self.inventorySha256) .inventoryDoesNotMatchOffer

end SealedExportOffer

/-! ## Writable metadata -/

structure WritableMetadataEntry where
  projectionId : ProjectionId
  logicalPath : LogicalPath
  sourceRemoteIds : List RemoteId
  deliveredContentSha256 : Text
  providerPrecondition : Text
  effectiveActions : ActionSet
  baselineRequired : Bool
  deriving DecidableEq

structure WritableExportMetadata where
  versions : ComponentVersions
  sessionId : SessionId
  exportAttemptId : ExportAttemptId
  sourceGenerations : List OrderedSourceGeneration
  writableEntries : List WritableMetadataEntry
  deriving DecidableEq

/-- `windows(2)` of remote ids: each comes before the next. -/
def strictlyOrdered (ids : List RemoteId) : Bool :=
  decide (ids.IsChain fun id id' => byteOrder id.value < byteOrder id'.value)

def WritableMetadataEntry.validate (self : WritableMetadataEntry)
    (previous : Option ProjectionId) : ScopeResult Unit := do
  validateNonempty "projection_id".toList self.projectionId.value
  failIf (∃ id ∈ previous, byteOrder self.projectionId.value ≤ byteOrder id.value)
    .nonCanonicalRecordOrder
  failIf (self.sourceRemoteIds = []) (.emptyCollection "source_remote_ids".toList)
  failIf (strictlyOrdered self.sourceRemoteIds = false)
    (.duplicateValue "source_remote_ids".toList)
  failIf (self.effectiveActions = ∅) (.emptyCollection "effective_actions".toList)
  failIf (∀ action ∈ self.effectiveActions, sourceActionAllowsMutation action = false)
    .invalidControlRecord
  validateNonempty "provider_precondition".toList self.providerPrecondition
  validateSha256 "delivered_content_sha256".toList self.deliveredContentSha256

/-- The entries behind one of a projection. -/
def validateEntriesFrom : Option ProjectionId → List WritableMetadataEntry → ScopeResult Unit
  | _, [] => pure ()
  | previous, entry :: entries => do
      entry.validate previous
      validateEntriesFrom (some entry.projectionId) entries

def validateWritableMetadataShape (metadata : WritableExportMetadata) : ScopeResult Unit := do
  validateExportVersions metadata.versions
  validateNonempty "session_id".toList metadata.sessionId.value
  validateSourceGenerations metadata.sourceGenerations
  validateEntriesFrom none metadata.writableEntries

def writableMetadataDomain : List UInt8 :=
  asBytes "locality.export.writable-metadata.v2".toList ++ [0]

def appendGeneration (output : List UInt8) (generation : OrderedSourceGeneration) :
    ScopeResult (List UInt8) := do
  let output ← appendText (output ++ toBeBytes 8 generation.ordinal.toNat)
    generation.sourceConnectionId.value
  appendText output generation.sourceGenerationId.value

def appendWritableEntry (output : List UInt8) (entry : WritableMetadataEntry) :
    ScopeResult (List UInt8) := do
  let output ← appendText output entry.projectionId.value
  let output ← appendText output entry.logicalPath.value
  let output ← appendCount output entry.sourceRemoteIds.length
  let output ← appendTextsOr .inventoryTooLarge output (entry.sourceRemoteIds.map RemoteId.value)
  let output ← appendText output entry.deliveredContentSha256
  let output ← appendText output entry.providerPrecondition
  let output ← appendActionsOr .inventoryTooLarge output entry.effectiveActions
  appendText output (if entry.baselineRequired then "true".toList else "false".toList)

def appendVersions (output : List UInt8) (versions : ComponentVersions) : List UInt8 :=
  output ++ toBeBytes 8 versions.session.toNat ++ toBeBytes 8 versions.replica.toNat ++
    toBeBytes 8 versions.exportMetadata.toNat ++ toBeBytes 8 versions.writableSessionStore.toNat ++
    toBeBytes 8 versions.canonical.toNat ++ toBeBytes 8 versions.path.toNat ++
    toBeBytes 8 versions.changeset.toNat

/-- What `canonical_writable_metadata_sha256` takes the digest of. -/
def canonicalWritableMetadataPreimage (metadata : WritableExportMetadata) :
    ScopeResult (List UInt8) := do
  validateWritableMetadataShape metadata
  let output := appendVersions writableMetadataDomain metadata.versions
  let output ← appendText output metadata.sessionId.value
  let output ← appendText output metadata.exportAttemptId.value
  let output ← appendCount output metadata.sourceGenerations.length
  let output ← metadata.sourceGenerations.foldlM appendGeneration output
  let output ← appendCount output metadata.writableEntries.length
  metadata.writableEntries.foldlM appendWritableEntry output

section Sha256

variable (sha256 : List UInt8 → List UInt8)

def canonicalWritableMetadataSha256 (metadata : WritableExportMetadata) : ScopeResult Text := do
  let preimage ← canonicalWritableMetadataPreimage metadata
  return sha256Label sha256 preimage

def WritableExportMetadata.validateAgainst (self : WritableExportMetadata)
    (offer : SealedExportOffer) : ScopeResult Unit := do
  validateWritableMetadataShape self
  failIf (self.sessionId ≠ offer.sessionId ∨ self.exportAttemptId ≠ offer.exportAttemptId ∨
    self.sourceGenerations ≠ offer.sourceGenerations) .receiptDoesNotMatchOffer
  let digest ← canonicalWritableMetadataSha256 sha256 self
  failIf (digest ≠ offer.writableMetadataSha256) .receiptDoesNotMatchOffer

/-! ## Receipts and the terminal control -/

structure ExportCompletionReceipt where
  versions : ComponentVersions
  sessionId : SessionId
  exportAttemptId : ExportAttemptId
  sourceGenerations : List OrderedSourceGeneration
  inventorySha256 : Text
  writableMetadataSha256 : Text
  deliveredControlEntryCount : UInt64
  deliveredFileCount : UInt64
  deliveredDirectoryCount : UInt64
  deliveredArchiveEntryCount : UInt64
  deliveredContentBytes : UInt64
  deliveredBodySha256 : Text
  completedAt : Text
  deriving DecidableEq, Repr

namespace ExportCompletionReceipt

def validate (self : ExportCompletionReceipt) : ScopeResult Unit := do
  validateExportVersions self.versions
  validateNonempty "session_id".toList self.sessionId.value
  validateSourceGenerations self.sourceGenerations
  validateNonempty "completed_at".toList self.completedAt
  validateExportCounts self.deliveredControlEntryCount self.deliveredFileCount
    self.deliveredDirectoryCount self.deliveredArchiveEntryCount
  validateSha256 "inventory_sha256".toList self.inventorySha256
  validateSha256 "writable_metadata_sha256".toList self.writableMetadataSha256
  validateSha256 "delivered_body_sha256".toList self.deliveredBodySha256

def validateAgainst (self : ExportCompletionReceipt) (offer : SealedExportOffer) :
    ScopeResult Unit := do
  self.validate
  offer.validate
  failIf (self.sessionId ≠ offer.sessionId ∨ self.exportAttemptId ≠ offer.exportAttemptId ∨
    self.sourceGenerations ≠ offer.sourceGenerations ∨
    self.inventorySha256 ≠ offer.inventorySha256 ∨
    self.writableMetadataSha256 ≠ offer.writableMetadataSha256 ∨
    self.deliveredControlEntryCount ≠ offer.controlEntryCount ∨
    self.deliveredFileCount ≠ offer.fileCount ∨
    self.deliveredDirectoryCount ≠ offer.directoryCount ∨
    self.deliveredArchiveEntryCount ≠ offer.archiveEntryCount ∨
    self.deliveredContentBytes ≠ offer.selectedContentBytes) .receiptDoesNotMatchOffer

end ExportCompletionReceipt

structure ExportTerminalControl where
  writableMetadata : WritableExportMetadata
  completionReceipt : ExportCompletionReceipt
  deriving DecidableEq

/-- What an inventory says of a projected file. -/
structure InventoryFile where
  projectionId : ProjectionId
  logicalPath : LogicalPath
  effectiveActions : ActionSet
  contentSha256 : Text
  deriving DecidableEq

/-- The file of a projection; `collect` into a map keeps the last one. -/
def fileOfProjection (files : List InventoryFile) (projectionId : ProjectionId) :
    Option InventoryFile :=
  files.reverse.find? fun file => decide (file.projectionId = projectionId)

def CanonicalExportRecord.inventoryFile? : CanonicalExportRecord → Option InventoryFile
  | file key _ _ effectiveActions contentSha256 _ =>
      some ⟨key.projectionId, key.logicalPath, effectiveActions, contentSha256⟩
  | _ => none

/-- A writable entry is that of a file. -/
def WritableMetadataEntry.matchesFile (self : WritableMetadataEntry)
    (files : List InventoryFile) : Bool :=
  match fileOfProjection files self.projectionId with
  | none => false
  | some file => decide (file.logicalPath = self.logicalPath ∧
      file.effectiveActions = self.effectiveActions ∧
      file.contentSha256 = self.deliveredContentSha256)

namespace ExportTerminalControl

def validateAgainst (self : ExportTerminalControl) (offer : SealedExportOffer) :
    ScopeResult Unit := do
  self.writableMetadata.validateAgainst sha256 offer
  self.completionReceipt.validateAgainst offer

def validateAgainstInventory (unicode : UnicodeTables) (self : ExportTerminalControl)
    (offer : SealedExportOffer) (records : List CanonicalExportRecord) : ScopeResult Unit := do
  self.validateAgainst sha256 offer
  offer.validateInventory unicode sha256 records
  let files := records.filterMap CanonicalExportRecord.inventoryFile?
  failIf (∃ entry ∈ self.writableMetadata.writableEntries, entry.matchesFile files = false)
    .invalidControlRecord
  failIf (¬ (self.writableMetadata.writableEntries.map
    WritableMetadataEntry.projectionId).Nodup) (.duplicateValue "projection_id".toList)

end ExportTerminalControl

end Sha256

end Locality.Protocol.Scope
