/-
  Protocol/FreshnessDelivery.lean --- generation deltas, target inventories and terminal
  receipts of `locality-protocol/src/freshness_delivery.rs`, with what validates them
  and the bytes that their digests are taken of.

  The length of a delta in JSON is that of a serializer outside of the repository, and
  a parameter.
-/
import Locality.Protocol.Portable

set_option autoImplicit false

namespace Locality.Protocol

open Locality.Core Locality.Foundation

/-! ## Limits -/

def freshnessDeliveryReaderVersion : Nat := 1

def generationDeltaFormatVersion : Nat := 1

def maxGenerationDeltaEntries : Nat := 100000

def maxGenerationDeltaMetadataBytes : Nat := 63 * 1024 * 1024

def maxGenerationFileBytes : Nat := 64 * 1024 * 1024

def maxGenerationDeltaContentBytes : Nat := 512 * 1024 * 1024

def maxDeliveryIdBytes : Nat := 128

def maxDeliveryTimestampBytes : Nat := 64

inductive FreshnessDeliveryError where
  | updateRequired (minimum supported : Nat)
  | unsupportedFormatVersion (actual : Nat)
  | invalidVersionEnvelope
  | identifierEmpty (field : Text)
  | identifierTooLong (field : Text)
  | invalidTimestamp
  | invalidSha256
  | emptyDeltaEntry
  | projectionIdentityChanged
  | unchangedDeltaEntry
  | sameGeneration
  | incompleteTargetGeneration
  | invalidLayoutVersion
  | tooManyDeltaEntries (actual : Nat)
  | fileContentTooLarge (actual : Nat)
  | deltaContentTooLarge (actual : Nat)
  | deltaMetadataTooLarge (actual : Nat)
  | nonCanonicalDeltaOrder
  | nonCanonicalTargetInventoryOrder
  | crossEntryPathReuse
  | targetInventoryPathReuse
  | contentLengthOverflow
  | canonicalValueTooLarge
  | receiptMismatch
  | targetInventoryMismatch
  deriving DecidableEq, Repr

abbrev DeliveryResult : Type → Type := Except FreshnessDeliveryError

/-! ## Checks of single values -/

def validateVersions (formatVersion minimumReaderVersion : UInt16) : DeliveryResult Unit :=
  if formatVersion = 0 ∨ minimumReaderVersion = 0 ∨ formatVersion < minimumReaderVersion then
    throw .invalidVersionEnvelope
  else if freshnessDeliveryReaderVersion < minimumReaderVersion.toNat then
    throw (.updateRequired minimumReaderVersion.toNat freshnessDeliveryReaderVersion)
  else if formatVersion.toNat ≠ generationDeltaFormatVersion then
    throw (.unsupportedFormatVersion formatVersion.toNat)
  else pure ()

def validateIdentifier (field value : Text) : DeliveryResult Unit :=
  if value.isEmpty then throw (.identifierEmpty field)
  else if maxDeliveryIdBytes < (asBytes value).length then throw (.identifierTooLong field)
  else pure ()

/-- `char::is_control`. -/
def isControl (c : Char) : Bool := decide (c.toNat < 32) || decide (127 ≤ c.toNat ∧ c.toNat < 160)

def validateTimestamp (value : Text) : DeliveryResult Unit :=
  if value.isEmpty || decide (maxDeliveryTimestampBytes < (asBytes value).length) ||
      decide (trim value ≠ value) || value.any isControl then
    throw .invalidTimestamp
  else pure ()

def validateSha256 (value : Text) : DeliveryResult Unit :=
  if isSha256Label value then pure () else throw .invalidSha256

/-! ## Appending to a preimage -/

def appendU64 (output : List UInt8) (value : UInt64) : List UInt8 :=
  output ++ toBeBytes 8 value.toNat

/-- A count of this machine, as a `u64`. -/
def countU64 (n : Nat) : DeliveryResult UInt64 :=
  if n < 2 ^ 64 then pure (UInt64.ofNat n) else throw .canonicalValueTooLarge

def appendText (output : List UInt8) (value : Text) : DeliveryResult (List UInt8) := do
  let length ← countU64 (asBytes value).length
  return appendU64 output length ++ asBytes value

/-! ## Identities -/

structure GenerationFileIdentity where
  projectionId : ProjectionId
  logicalPath : LogicalPath
  contentVersionId : ContentVersionId
  contentSha256 : Text
  byteLength : UInt64
  deriving DecidableEq, Repr

def GenerationFileIdentity.validate (self : GenerationFileIdentity) : DeliveryResult Unit := do
  validateIdentifier "projection_id".toList self.projectionId.value
  validateIdentifier "content_version_id".toList self.contentVersionId.value
  validateSha256 self.contentSha256
  if maxGenerationFileBytes < self.byteLength.toNat then
    throw (.fileContentTooLarge self.byteLength.toNat)
  else pure ()

def appendIdentityFields (output : List UInt8) (identity : GenerationFileIdentity) :
    DeliveryResult (List UInt8) := do
  let output ← appendText output identity.projectionId.value
  let output ← appendText output identity.logicalPath.value
  let output ← appendText output identity.contentVersionId.value
  let output ← appendText output identity.contentSha256
  return appendU64 output identity.byteLength

def appendIdentity (output : List UInt8) : Option GenerationFileIdentity →
    DeliveryResult (List UInt8)
  | none => appendText output "absent".toList
  | some identity => do
      let output ← appendText output "present".toList
      appendIdentityFields output identity

section Unicode

variable (unicode : UnicodeTables)

/-! ## Target inventories -/

/-- The identities of an inventory, behind the projection before them and among the
paths that are claimed. -/
def appendInventory : List UInt8 → Option Text → List Text → List GenerationFileIdentity →
    DeliveryResult (List UInt8)
  | output, _, _, [] => return output
  | output, previousProjection, claimedPaths, identity :: inventory => do
      identity.validate
      let projectionId := identity.projectionId.value
      if previousProjection.any fun previous => !bytewiseLt previous projectionId then
        throw .nonCanonicalTargetInventoryOrder
      else if identity.logicalPath.portableCollisionKey unicode ∈ claimedPaths then
        throw .targetInventoryPathReuse
      else
        let output ← appendIdentityFields output identity
        appendInventory output (some projectionId)
          (identity.logicalPath.portableCollisionKey unicode :: claimedPaths) inventory

/-- The domain ends in a zero byte. -/
def targetInventoryDomain : List UInt8 :=
  asBytes "locality.generation-target-inventory.v1".toList ++ [0]

def canonicalTargetInventoryPreimage (inventory : List GenerationFileIdentity) :
    DeliveryResult (List UInt8) := do
  let count ← countU64 inventory.length
  appendInventory unicode (appendU64 targetInventoryDomain count) none [] inventory

/-! ## Deltas -/

structure GenerationDeltaEntry where
  old : Option GenerationFileIdentity
  new : Option GenerationFileIdentity
  deriving DecidableEq, Repr

namespace GenerationDeltaEntry

def projectionId (self : GenerationDeltaEntry) : Option ProjectionId :=
  (self.new.map GenerationFileIdentity.projectionId).orElse fun _ =>
    self.old.map GenerationFileIdentity.projectionId

def validate (self : GenerationDeltaEntry) : DeliveryResult Unit := do
  if self.old.isNone && self.new.isNone then throw .emptyDeltaEntry
  else
    self.old.forM GenerationFileIdentity.validate
    self.new.forM GenerationFileIdentity.validate
    match self.old, self.new with
    | some old, some new =>
        if old.projectionId ≠ new.projectionId then throw .projectionIdentityChanged
        else if old = new then throw .unchangedDeltaEntry
        else pure ()
    | _, _ => pure ()

/-- The collision keys of the entry's paths, each once. -/
def paths (self : GenerationDeltaEntry) : List Text :=
  ((self.old.toList ++ self.new.toList).map fun identity =>
    identity.logicalPath.portableCollisionKey unicode).dedup

end GenerationDeltaEntry

structure GenerationDelta where
  formatVersion : UInt16
  minimumReaderVersion : UInt16
  deltaId : Text
  mountId : PortableMountId
  sourceConnectionId : SourceConnectionId
  baseGenerationId : SourceGenerationId
  targetGenerationId : SourceGenerationId
  targetComplete : Bool
  targetInventorySha256 : Text
  workspaceLayoutVersion : UInt16
  workspaceLayoutDigest : LayoutDigest
  entries : List GenerationDeltaEntry
  deriving DecidableEq, Repr

/-- `try_fold` of `checked_add` over the new lengths. -/
def addContentBytes : UInt64 → List GenerationDeltaEntry → DeliveryResult UInt64
  | total, [] => return total
  | total, entry :: entries =>
      let length := (entry.new.map GenerationFileIdentity.byteLength).getD 0
      if total.toNat + length.toNat < 2 ^ 64 then addContentBytes (total + length) entries
      else throw .contentLengthOverflow

def GenerationDelta.changedContentBytes (self : GenerationDelta) : DeliveryResult UInt64 :=
  addContentBytes 0 self.entries

/-- The entries of a delta, behind the projection before them and among the paths that
are claimed. -/
def validateEntries : Option Text → List Text → List GenerationDeltaEntry → DeliveryResult Unit
  | _, _, [] => pure ()
  | previousProjection, claimedPaths, entry :: entries => do
      entry.validate
      let projectionId := (entry.projectionId.map ProjectionId.value).getD []
      if previousProjection.any fun previous => !bytewiseLt previous projectionId then
        throw .nonCanonicalDeltaOrder
      else if (entry.paths unicode).any fun path => decide (path ∈ claimedPaths) then
        throw .crossEntryPathReuse
      else validateEntries (some projectionId) (entry.paths unicode ++ claimedPaths) entries

section Json

variable (jsonLength : GenerationDelta → Option Nat)

def GenerationDelta.serializedMetadataLen (self : GenerationDelta) : DeliveryResult Nat :=
  match jsonLength self with
  | none => throw .canonicalValueTooLarge
  | some length => pure length

namespace GenerationDelta

def validate (self : GenerationDelta) : DeliveryResult Unit := do
  validateVersions self.formatVersion self.minimumReaderVersion
  validateIdentifier "delta_id".toList self.deltaId
  validateIdentifier "mount_id".toList self.mountId.value
  validateIdentifier "source_connection_id".toList self.sourceConnectionId.value
  validateIdentifier "base_generation_id".toList self.baseGenerationId.value
  validateIdentifier "target_generation_id".toList self.targetGenerationId.value
  if self.baseGenerationId = self.targetGenerationId then throw .sameGeneration
  else if !self.targetComplete then throw .incompleteTargetGeneration
  else
    validateSha256 self.targetInventorySha256
    if self.workspaceLayoutVersion = 0 then throw .invalidLayoutVersion
    else if maxGenerationDeltaEntries < self.entries.length then
      throw (.tooManyDeltaEntries self.entries.length)
    else
      validateEntries unicode none [] self.entries
      let changedContentBytes ← self.changedContentBytes
      if maxGenerationDeltaContentBytes < changedContentBytes.toNat then
        throw (.deltaContentTooLarge changedContentBytes.toNat)
      else
        let metadataBytes ← self.serializedMetadataLen jsonLength
        if maxGenerationDeltaMetadataBytes < metadataBytes then
          throw (.deltaMetadataTooLarge metadataBytes)
        else pure ()

def domain : List UInt8 := asBytes "locality.generation-delta.v1".toList ++ [0]

def appendEntries : List UInt8 → List GenerationDeltaEntry → DeliveryResult (List UInt8)
  | output, [] => return output
  | output, entry :: entries => do
      let output ← appendIdentity output entry.old
      let output ← appendIdentity output entry.new
      appendEntries output entries

def canonicalPreimage (self : GenerationDelta) : DeliveryResult (List UInt8) := do
  self.validate unicode jsonLength
  let output := appendU64 domain self.formatVersion.toUInt64
  let output := appendU64 output self.minimumReaderVersion.toUInt64
  let output ← appendText output self.deltaId
  let output ← appendText output self.mountId.value
  let output ← appendText output self.sourceConnectionId.value
  let output ← appendText output self.baseGenerationId.value
  let output ← appendText output self.targetGenerationId.value
  let output ← appendText output (if self.targetComplete then "true".toList else "false".toList)
  let output ← appendText output self.targetInventorySha256
  let output := appendU64 output self.workspaceLayoutVersion.toUInt64
  let output ← appendText output self.workspaceLayoutDigest.value
  let count ← countU64 self.entries.length
  appendEntries (appendU64 output count) self.entries

section Sha256

variable (sha256 : List UInt8 → List UInt8)

def canonicalSha256 (self : GenerationDelta) : DeliveryResult Text := do
  let preimage ← self.canonicalPreimage unicode jsonLength
  return sha256Label sha256 preimage

def validateTargetInventory (self : GenerationDelta)
    (inventory : List GenerationFileIdentity) : DeliveryResult Unit := do
  self.validate unicode jsonLength
  let preimage ← canonicalTargetInventoryPreimage unicode inventory
  if sha256Label sha256 preimage ≠ self.targetInventorySha256 then throw .targetInventoryMismatch
  else pure ()

end Sha256

end GenerationDelta

/-! ## Receipts -/

/-- A `FreshnessEpoch` is an `i64` that is not negative. -/
abbrev FreshnessEpoch : Type := Fin (2 ^ 63)

structure GenerationDeltaTerminalReceipt where
  formatVersion : UInt16
  minimumReaderVersion : UInt16
  deltaId : Text
  mountId : PortableMountId
  sourceConnectionId : SourceConnectionId
  baseGenerationId : SourceGenerationId
  targetGenerationId : SourceGenerationId
  targetInventorySha256 : Text
  workspaceLayoutVersion : UInt16
  workspaceLayoutDigest : LayoutDigest
  deltaSha256 : Text
  entryCount : UInt64
  changedContentBytes : UInt64
  authorizationEpoch : FreshnessEpoch
  completedAt : Text
  deriving DecidableEq, Repr

namespace GenerationDeltaTerminalReceipt

def validate (self : GenerationDeltaTerminalReceipt) : DeliveryResult Unit := do
  validateVersions self.formatVersion self.minimumReaderVersion
  validateIdentifier "delta_id".toList self.deltaId
  validateIdentifier "mount_id".toList self.mountId.value
  validateIdentifier "source_connection_id".toList self.sourceConnectionId.value
  validateIdentifier "base_generation_id".toList self.baseGenerationId.value
  validateIdentifier "target_generation_id".toList self.targetGenerationId.value
  validateSha256 self.targetInventorySha256
  validateSha256 self.deltaSha256
  if self.workspaceLayoutVersion = 0 then throw .invalidLayoutVersion
  else validateTimestamp self.completedAt

def validateAgainst (sha256 : List UInt8 → List UInt8) (self : GenerationDeltaTerminalReceipt)
    (delta : GenerationDelta) : DeliveryResult Unit := do
  self.validate
  delta.validate unicode jsonLength
  let entryCount ← countU64 delta.entries.length
  if self.formatVersion ≠ delta.formatVersion ∨
      self.minimumReaderVersion ≠ delta.minimumReaderVersion ∨
      self.deltaId ≠ delta.deltaId ∨
      self.mountId ≠ delta.mountId ∨
      self.sourceConnectionId ≠ delta.sourceConnectionId ∨
      self.baseGenerationId ≠ delta.baseGenerationId ∨
      self.targetGenerationId ≠ delta.targetGenerationId ∨
      self.targetInventorySha256 ≠ delta.targetInventorySha256 ∨
      self.workspaceLayoutVersion ≠ delta.workspaceLayoutVersion ∨
      self.workspaceLayoutDigest ≠ delta.workspaceLayoutDigest then
    throw .receiptMismatch
  else
    let deltaSha256 ← delta.canonicalSha256 unicode jsonLength sha256
    if self.deltaSha256 ≠ deltaSha256 ∨ self.entryCount ≠ entryCount then throw .receiptMismatch
    else
      let changedContentBytes ← delta.changedContentBytes
      if self.changedContentBytes ≠ changedContentBytes then throw .receiptMismatch
      else pure ()

def domain : List UInt8 :=
  asBytes "locality.generation-delta-terminal-receipt.v1".toList ++ [0]

/-- What the digest of a receipt is taken of. -/
def canonicalPreimage (self : GenerationDeltaTerminalReceipt) : DeliveryResult (List UInt8) := do
  self.validate
  let output := appendU64 domain self.formatVersion.toUInt64
  let output := appendU64 output self.minimumReaderVersion.toUInt64
  let output ← appendText output self.deltaId
  let output ← appendText output self.mountId.value
  let output ← appendText output self.sourceConnectionId.value
  let output ← appendText output self.baseGenerationId.value
  let output ← appendText output self.targetGenerationId.value
  let output ← appendText output self.targetInventorySha256
  let output := appendU64 output self.workspaceLayoutVersion.toUInt64
  let output ← appendText output self.workspaceLayoutDigest.value
  let output ← appendText output self.deltaSha256
  let output := appendU64 output self.entryCount
  let output := appendU64 output self.changedContentBytes
  let output := appendU64 output (UInt64.ofNat self.authorizationEpoch)
  appendText output self.completedAt

end GenerationDeltaTerminalReceipt

end Json

end Unicode

end Locality.Protocol
