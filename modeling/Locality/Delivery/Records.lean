/-
  Delivery/Records.lean --- the records of `locality-store/src/generation_delivery.rs`.

  A journal is active exactly where its status is not completed: the table checks that
  the two columns agree, and the status stands for both.
-/
import Locality.Core.Model
import Locality.Protocol.GenerationBaseline
import Locality.Foundation.Fallible

set_option autoImplicit false

namespace Locality.Delivery

open Locality.Core Locality.Foundation Locality.Protocol

/-! ## What other crates provide -/

/-- Case folding, serialized lengths and digests. -/
structure Codec where
  unicode : UnicodeTables
  jsonLength : GenerationDelta → Option Nat
  sha256 : List UInt8 → List UInt8

/-- `canonical_target_inventory_sha256`. -/
def Codec.canonicalTargetInventorySha256 (codec : Codec)
    (inventory : List GenerationFileIdentity) : DeliveryResult Text := do
  let preimage ← canonicalTargetInventoryPreimage codec.unicode inventory
  return sha256Label codec.sha256 preimage

/-- `GenerationDeltaTerminalReceipt::canonical_sha256`. -/
def Codec.receiptSha256 (codec : Codec) (receipt : GenerationDeltaTerminalReceipt) :
    DeliveryResult Text := do
  let preimage ← receipt.canonicalPreimage
  return sha256Label codec.sha256 preimage

/-! ## Errors -/

/-- The errors of the repository.  An `InvalidState` whose message is the text of an
error of the protocol keeps that error. -/
inductive StoreError where
  | mountMissing (mountId : MountId)
  | invalidState (message : Text)
  | delivery (error : FreshnessDeliveryError)
  | baseline (error : GenerationBaselineError)
  | transport (error : GenerationTransportContractError)
  /-- A constraint of a table failed; the text is that of the database. -/
  | database
  deriving DecidableEq, Repr

abbrev StoreResult : Type → Type := Except StoreError

def ofDelivery {α : Type} (result : DeliveryResult α) : StoreResult α :=
  result.mapError .delivery

def ofBaseline {α : Type} (result : BaselineResult α) : StoreResult α :=
  result.mapError .baseline

def ofTransport {α : Type} (result : TransportResult α) : StoreResult α :=
  result.mapError .transport

/-- A text as it stands in a message. -/
def quoted (value : Text) : Text := "\x60".toList ++ value ++ "\x60".toList

/-- `i64::try_from` of a number. -/
def asI64 (n : Nat) (message : String) : StoreResult Nat :=
  if n < 2 ^ 63 then pure n else throw (.invalidState message.toList)

/-! ## Observed generations -/

structure ObservedGenerationRecord where
  mountId : MountId
  sourceConnectionId : SourceConnectionId
  generationId : SourceGenerationId
  inventorySha256 : Text
  workspaceLayoutVersion : UInt16
  workspaceLayoutDigest : Text
  lastReceiptSha256 : Option Text
  updatedAt : Text
  deriving DecidableEq, Repr

/-- A row of `observed_generations`. -/
structure ObservedGenerationRecordV2 where
  observed : ObservedGenerationRecord
  refreshMode : GenerationBaselineRefreshModeV1
  deriving DecidableEq, Repr

/-- A source of a mount. -/
abbrev SourceKey : Type := MountId × SourceConnectionId

def ObservedGenerationRecord.key (self : ObservedGenerationRecord) : SourceKey :=
  (self.mountId, self.sourceConnectionId)

def ObservedGenerationRecordV2.key (self : ObservedGenerationRecordV2) : SourceKey :=
  self.observed.key

/-! ## Paths -/

inductive GenerationPathState where
  | clean
  | dirty
  | conflicted
  deriving DecidableEq, Repr

/-- The place of a payload: the delta and the index of its entry. -/
abbrev PayloadKey : Type := Text × Nat

/-- The two columns of a payload are written together. -/
structure GenerationPathRecord where
  mountId : MountId
  projectionId : ProjectionId
  logicalPath : LogicalPath
  localLogicalPath : LogicalPath
  baseGenerationId : SourceGenerationId
  baseIdentity : Option GenerationFileIdentity
  basePayload : Option PayloadKey
  conflictPayload : Option PayloadKey
  state : GenerationPathState
  incomingIdentity : Option GenerationFileIdentity
  updatedAt : Text
  deriving DecidableEq, Repr

/-- The identity that the remote has of the path, as far as it was delivered. -/
def GenerationPathRecord.remoteIdentity (self : GenerationPathRecord) :
    Option GenerationFileIdentity :=
  if self.state = .conflicted then self.incomingIdentity else self.baseIdentity

/-- A row of `generation_paths`. -/
structure GenerationPathRow where
  sourceConnectionId : SourceConnectionId
  path : GenerationPathRecord
  deriving DecidableEq, Repr

namespace GenerationPathRow

def key (self : GenerationPathRow) : MountId × ProjectionId :=
  (self.path.mountId, self.path.projectionId)

def source (self : GenerationPathRow) : SourceKey :=
  (self.path.mountId, self.sourceConnectionId)

end GenerationPathRow

/-! ## Seeds -/

structure GenerationBaselineSeedRecord where
  observed : ObservedGenerationRecord
  paths : List GenerationPathRecord
  deriving DecidableEq, Repr

structure GenerationBaselineSeedRecordV2 where
  seed : GenerationBaselineSeedRecord
  refreshMode : GenerationBaselineRefreshModeV1
  deriving DecidableEq, Repr

/-! ## Applies -/

inductive GenerationApplyStatus where
  | staged
  | applying
  | completed
  deriving DecidableEq, Repr

inductive GenerationApplyOutcome where
  | applied
  | merged
  | deleted
  | conflict (localSha256 : Option Text) (incomingIdentity : Option GenerationFileIdentity)
  | conflictOverQuota (localSha256 : Option Text)
      (incomingIdentity : Option GenerationFileIdentity)
  deriving DecidableEq, Repr

structure PreparedGenerationApply where
  delta : GenerationDelta
  receipt : GenerationDeltaTerminalReceipt
  receiptSha256 : Text
  stageRoot : Text
  createdAt : Text
  deriving DecidableEq, Repr

def PreparedGenerationApply.validate (codec : Codec) (self : PreparedGenerationApply) :
    StoreResult Unit := do
  ofDelivery (self.receipt.validateAgainst codec.unicode codec.jsonLength codec.sha256 self.delta)
  let receiptSha256 ← ofDelivery (codec.receiptSha256 self.receipt)
  if self.receiptSha256 ≠ receiptSha256 then
    throw (.invalidState "generation apply receipt digest mismatch".toList)
  else if self.stageRoot = [] ∨ self.createdAt = [] then
    throw (.invalidState
      "generation apply stage root and timestamp must not be empty".toList)
  else pure ()

structure PreparedGenerationApplyV3 where
  apply : PreparedGenerationApply
  selectedCapabilities : GenerationTransportCapabilities
  deriving DecidableEq, Repr

inductive GenerationTransportSelectionBinding where
  | bound (capabilities : GenerationTransportCapabilities)
  | preBindingCompleted (terminalReceiptAcknowledgments : Bool)
  deriving DecidableEq, Repr

/-- A row of `generation_apply_journals` with its rows of `generation_apply_outcomes`, in
the order of their indices. -/
structure StoredGenerationApply where
  delta : GenerationDelta
  receipt : GenerationDeltaTerminalReceipt
  receiptSha256 : Text
  selectionBinding : GenerationTransportSelectionBinding
  acknowledgmentRequired : Bool
  acknowledgedAt : Option Text
  stageRoot : Text
  status : GenerationApplyStatus
  outcomes : List (Nat × GenerationApplyOutcome)
  createdAt : Text
  updatedAt : Text
  completedAt : Option Text
  deriving DecidableEq, Repr

namespace StoredGenerationApply

def key (self : StoredGenerationApply) : Text := self.delta.deltaId

/-- `MountId::new` of the delta's mount. -/
def mountId (self : StoredGenerationApply) : MountId := ⟨self.delta.mountId.value⟩

def source (self : StoredGenerationApply) : SourceKey :=
  (self.mountId, self.delta.sourceConnectionId)

def active (self : StoredGenerationApply) : Bool := decide (self.status ≠ .completed)

def outcomeAt (self : StoredGenerationApply) (entryIndex : Nat) :
    Option GenerationApplyOutcome :=
  (self.outcomes.find? fun (index, _) => index = entryIndex).map Prod.snd

/-- A receipt that is still to be acknowledged. -/
def pendingAcknowledgment (self : StoredGenerationApply) : Bool :=
  decide (self.status = .completed) && self.acknowledgmentRequired && self.acknowledgedAt.isNone

end StoredGenerationApply

/-! ## Evidence of displaced files -/

structure GenerationRetainedInodeRecord where
  evidenceName : Text
  capturedSha256 : Text
  capturedByteLength : UInt64
  deriving DecidableEq, Repr

structure GenerationInodeEvidenceRecord where
  deltaId : Text
  entryIndex : Nat
  mountId : MountId
  logicalPath : LogicalPath
  evidenceName : Text
  capturedSha256 : Text
  capturedByteLength : UInt64
  visibleEvidence : Option GenerationRetainedInodeRecord
  basePayload : Option PayloadKey
  resolvedAt : Option Text
  createdAt : Text
  deriving DecidableEq, Repr

def GenerationInodeEvidenceRecord.key (self : GenerationInodeEvidenceRecord) : Text × Nat :=
  (self.deltaId, self.entryIndex)

structure GenerationInodeEvidenceConflictUpdate where
  localSha256 : Text
  capturedSha256 : Text
  capturedByteLength : UInt64
  visibleEvidence : Option GenerationRetainedInodeRecord
  updatedAt : Text
  deriving DecidableEq, Repr

structure GenerationInodeEvidenceResolution where
  capturedSha256 : Text
  capturedByteLength : UInt64
  visibleCapturedSha256 : Text
  visibleCapturedByteLength : UInt64
  updatedAt : Text
  deriving DecidableEq, Repr

end Locality.Delivery
