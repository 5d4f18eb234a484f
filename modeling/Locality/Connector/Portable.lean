/-
  Connector/Portable.lean --- the portable requests and results of a connector:
  `locality-connector/src/lib.rs`, with the source objects of `locality-core/src/portable.rs`.

  A connector is not modelled.  What it is asked for is an operation, and what it answers
  is arbitrary.
-/
import Locality.Connector.Completeness
import Locality.Foundation.Fallible
import Locality.Protocol.FreshnessDelivery
import Mathlib.Data.Finset.Insert

set_option autoImplicit false

namespace Locality.Connector

open Locality.Core Locality.Foundation Locality.Protocol

/-- `LocalityError::InvalidState`. -/
def invalidState {α : Type} (message : Text) : LocalityResult α := throw (.invalidState message)

/-- A check that is refused. -/
def refuseIf (p : Prop) [Decidable p] (message : Text) : LocalityResult Unit :=
  if p then invalidState message else pure ()

def natText (n : Nat) : Text := (toString n).toList

theorem refuseIf_eq_ok {p : Prop} [Decidable p] {message : Text} {u : Unit} :
    refuseIf p message = .ok u ↔ ¬ p :=
  ite_throw_pure_eq_ok

/-! ## Source objects -/

structure SourceEdge where
  relationship : Text
  targetRemoteId : RemoteId
  deriving DecidableEq, Repr

structure AclObservation where
  subjectId : Text
  role : Text
  inherited : Bool
  deriving DecidableEq, Repr

structure SourceObject where
  sourceConnectionId : SourceConnectionId
  remoteId : RemoteId
  kind : EntityKind
  edges : List SourceEdge
  opaqueVersion : Option Text
  deleted : Bool
  connectorMetadata : List (Text × Text)
  aclObservations : List AclObservation
  discoveredAt : Option Text
  observedAt : Option Text
  deriving DecidableEq, Repr

def portableScopeRootRelationship : Text := "locality_scope_root".toList

/-- `portable_scope_root_remote_id`. -/
def SourceObject.portableScopeRootRemoteId (self : SourceObject) :
    LocalityResult (Option RemoteId) :=
  match self.edges.filter fun edge => decide (edge.relationship = portableScopeRootRelationship) with
  | [] => pure none
  | [edge] => pure (some edge.targetRemoteId)
  | _ :: _ :: _ =>
      invalidState ("portable source `".toList ++ self.remoteId.value ++
        "` returned multiple owning-root edges".toList)

structure PortableSourceChange where
  sourceObject : SourceObject
  logicalPath : Option LogicalPath
  requiresFetch : Bool
  deriving DecidableEq, Repr

/-! ## Scopes and checkpoints -/

inductive PortableSourceScopeMode where
  | allShared
  | restrictedRoots
  deriving DecidableEq, Repr

structure PortableSourceScope where
  mode : PortableSourceScopeMode
  rootRemoteIds : List RemoteId
  deriving DecidableEq, Repr

structure PortableCheckpoint where
  formatVersion : UInt16
  opaqueState : Text
  deriving DecidableEq, Repr

inductive PortableSyncMode where
  | hintsOnly
  | reconcileScope
  deriving DecidableEq, Repr

inductive PortableBatchAuthority where
  | incremental
  | completeScopeSnapshot
  deriving DecidableEq, Repr

/-! ## Bounds of version 2 -/

def portableSyncV2MaxHints : Nat := 4096

def portableSyncV2MaxScopeRoots : Nat := 256

def portableSyncV2MaxChanges : Nat := 10000

def portableSyncV2MaxIdBytes : Nat := 1024

def portableSyncV2MaxProviderVersionBytes : Nat := 1024

def portableSyncV2MaxSourceKindBytes : Nat := 128

def portableSyncV2MaxCheckpointBytes : Nat := 65536

/-- `str::len`. -/
def utf8Length (value : Text) : Nat := (asBytes value).length

def validatePortableSyncV2Id (value label : Text) : LocalityResult Unit :=
  refuseIf (value = [] ∨ portableSyncV2MaxIdBytes < utf8Length value)
    ("portable sync v2 ".toList ++ label ++ " must contain 1..=".toList ++
      natText portableSyncV2MaxIdBytes ++ " UTF-8 bytes".toList)

/-- One more identifier of a set; an error where it is there already. -/
def insertDistinct (duplicate : Text) (seen : Finset RemoteId) (remoteId : RemoteId) :
    LocalityResult (Finset RemoteId) :=
  if remoteId ∈ seen then invalidState duplicate else pure (insert remoteId seen)

def validateMaxChanges (maxChanges : UInt32) : LocalityResult Unit :=
  refuseIf (maxChanges = 0 ∨ portableSyncV2MaxChanges < maxChanges.toNat)
    ("portable sync v2 max_changes must be in 1..=".toList ++ natText portableSyncV2MaxChanges)

def validateScopeMode (scope : PortableSourceScope) : LocalityResult Unit :=
  match scope.mode with
  | .allShared =>
      refuseIf (scope.rootRemoteIds ≠ [])
        "portable all-shared scope must not contain explicit roots".toList
  | .restrictedRoots =>
      refuseIf (scope.rootRemoteIds = [])
        "portable sync v2 scope must contain at least one root".toList

def validatePortableSyncV2Scope (scope : PortableSourceScope) :
    LocalityResult (Finset RemoteId) := do
  validateScopeMode scope
  refuseIf (portableSyncV2MaxScopeRoots < scope.rootRemoteIds.length)
    ("portable sync v2 has ".toList ++ natText scope.rootRemoteIds.length ++
      " scope roots; maximum is ".toList ++ natText portableSyncV2MaxScopeRoots)
  scope.rootRemoteIds.foldlM
    (fun roots remoteId => do
      validatePortableSyncV2Id remoteId.value "scope root remote ID".toList
      insertDistinct "portable sync v2 contains duplicate scope root remote IDs".toList roots
        remoteId)
    ∅

/-! ## Requests -/

structure PortableBootstrapRequest where
  sourceConnectionId : SourceConnectionId
  scope : PortableSourceScope
  checkpoint : Option PortableCheckpoint
  maxChanges : UInt32
  deriving DecidableEq, Repr

structure PortableSyncHintV2 where
  remoteId : RemoteId
  providerVersion : Option Text
  logicalPath : Option LogicalPath
  sourceKind : Option EntityKind
  owningRootRemoteId : Option RemoteId
  deriving DecidableEq, Repr

structure PortableSyncRequestV2 where
  sourceConnectionId : SourceConnectionId
  scope : PortableSourceScope
  checkpoint : PortableCheckpoint
  mode : PortableSyncMode
  hints : List PortableSyncHintV2
  maxChanges : UInt32
  deriving DecidableEq, Repr

def PortableSyncHintV2.sourceKindTooLong (self : PortableSyncHintV2) : Bool :=
  match self.sourceKind with
  | some (.unknown sourceKind) => decide (portableSyncV2MaxSourceKindBytes < utf8Length sourceKind)
  | _ => false

def PortableSyncHintV2.validate (self : PortableSyncHintV2) (scope : PortableSourceScope)
    (scopeRoots remoteIds : Finset RemoteId) : LocalityResult (Finset RemoteId) := do
  validatePortableSyncV2Id self.remoteId.value "hint remote ID".toList
  let remoteIds ← insertDistinct "portable sync v2 contains duplicate hint remote IDs".toList
    remoteIds self.remoteId
  refuseIf (self.providerVersion.any fun version =>
      decide (portableSyncV2MaxProviderVersionBytes < utf8Length version))
    ("portable sync v2 provider version exceeds ".toList ++
      natText portableSyncV2MaxProviderVersionBytes ++ " UTF-8 bytes".toList)
  refuseIf self.sourceKindTooLong
    ("portable sync v2 source kind exceeds ".toList ++
      natText portableSyncV2MaxSourceKindBytes ++ " UTF-8 bytes".toList)
  match self.owningRootRemoteId with
  | none => invalidState "portable sync v2 hint must include an owning root".toList
  | some rootRemoteId => do
      validatePortableSyncV2Id rootRemoteId.value "owning root remote ID".toList
      refuseIf (scope.mode = .restrictedRoots ∧ rootRemoteId ∉ scopeRoots)
        "portable sync v2 hint owning root is outside the request scope".toList
      return remoteIds

def PortableSyncRequestV2.validate (self : PortableSyncRequestV2) : LocalityResult Unit := do
  validatePortableSyncV2Id self.sourceConnectionId.value "source connection ID".toList
  refuseIf (portableSyncV2MaxCheckpointBytes < utf8Length self.checkpoint.opaqueState)
    ("portable sync v2 checkpoint is ".toList ++
      natText (utf8Length self.checkpoint.opaqueState) ++ " UTF-8 bytes; maximum is ".toList ++
      natText portableSyncV2MaxCheckpointBytes)
  refuseIf (portableSyncV2MaxHints < self.hints.length)
    ("portable sync v2 has ".toList ++ natText self.hints.length ++
      " hints; maximum is ".toList ++ natText portableSyncV2MaxHints)
  validateMaxChanges self.maxChanges
  let scopeRoots ← validatePortableSyncV2Scope self.scope
  let _ ← self.hints.foldlM (fun remoteIds hint => hint.validate self.scope scopeRoots remoteIds) ∅
  pure ()

/-! ## Batches -/

structure PortableChangeBatch where
  changes : List PortableSourceChange
  nextCheckpoint : PortableCheckpoint
  completeness : PortableCompleteness
  deriving DecidableEq, Repr

structure PortableChangeBatchV2 where
  changes : List PortableSourceChange
  nextCheckpoint : PortableCheckpoint
  completeness : PortableCompleteness
  coveredRootRemoteIds : List RemoteId
  authority : PortableBatchAuthority
  deriving DecidableEq, Repr

namespace PortableChangeBatchV2

variable (self : PortableChangeBatchV2)

def hasExactScopeCoverage (scope : PortableSourceScope) : LocalityResult Bool := do
  refuseIf (portableSyncV2MaxScopeRoots < self.coveredRootRemoteIds.length)
    ("portable sync v2 batch covers ".toList ++ natText self.coveredRootRemoteIds.length ++
      " scope roots; maximum is ".toList ++ natText portableSyncV2MaxScopeRoots)
  let requested ← validatePortableSyncV2Scope scope
  let covered ← self.coveredRootRemoteIds.foldlM
    (fun covered remoteId => do
      validatePortableSyncV2Id remoteId.value "covered root remote ID".toList
      let covered ← insertDistinct
        "portable sync v2 batch contains duplicate covered root remote IDs".toList covered remoteId
      refuseIf (scope.mode = .restrictedRoots ∧ remoteId ∉ requested)
        "portable sync v2 batch covers a root outside the requested scope".toList
      return covered)
    ∅
  return decide (covered = requested)

def validateForRequest (scope : PortableSourceScope) (maxChanges : UInt32) :
    LocalityResult Bool := do
  validateMaxChanges maxChanges
  refuseIf (maxChanges.toNat < self.changes.length)
    ("portable sync v2 batch has ".toList ++ natText self.changes.length ++
      " changes; request maximum is ".toList ++ natText maxChanges.toNat)
  refuseIf (portableSyncV2MaxCheckpointBytes < utf8Length self.nextCheckpoint.opaqueState)
    ("portable sync v2 response checkpoint is ".toList ++
      natText (utf8Length self.nextCheckpoint.opaqueState) ++
      " UTF-8 bytes; maximum is ".toList ++ natText portableSyncV2MaxCheckpointBytes)
  self.hasExactScopeCoverage scope

end PortableChangeBatchV2

/-! ## Fetches and renders -/

inductive PortableFetchReason where
  | bootstrap
  | synchronization
  | repair
  deriving DecidableEq, Repr

structure PortableFetchRequest where
  sourceConnectionId : SourceConnectionId
  remoteId : RemoteId
  reason : PortableFetchReason
  deriving DecidableEq, Repr

structure NativeEntity where
  remoteId : RemoteId
  kind : Text
  raw : List UInt8
  deriving DecidableEq, Repr

structure PortableFetchResult where
  native : NativeEntity
  providerVersion : Option Text
  completeness : PortableCompleteness
  deriving DecidableEq, Repr

structure PortableRenderRequest where
  sourceConnectionId : SourceConnectionId
  logicalPath : LogicalPath
  native : NativeEntity
  formatVersion : UInt32
  deriving DecidableEq, Repr

structure PortableContentArtifact where
  artifactKey : PortableArtifactKey
  mediaType : Text
  body : List UInt8
  deriving DecidableEq, Repr

structure PortableProjectionArtifact where
  artifact : PortableContentArtifact
  logicalPath : LogicalPath
  fileKind : ProjectionFileKind
  formatVersion : UInt32
  supportedActions : List SourceAction
  deriving DecidableEq, Repr

structure PortableRenderResult where
  canonical : PortableContentArtifact
  projections : List PortableProjectionArtifact
  completeness : PortableCompleteness
  deriving DecidableEq, Repr

def PortableArtifactKey.isValid (self : PortableArtifactKey) : Bool :=
  decide (self.value ≠ []) && !self.value.any isControl

/-! ## Operations of a connector -/

inductive ConnectorOp where
  | bootstrapPortable (request : PortableBootstrapRequest)
  | syncPortableV2 (request : PortableSyncRequestV2)
  | fetchPortable (request : PortableFetchRequest)
  | renderPortable (request : PortableRenderRequest)

def ConnectorOp.Answer : ConnectorOp → Type
  | bootstrapPortable _ => LocalityResult PortableChangeBatch
  | syncPortableV2 _ => LocalityResult PortableChangeBatchV2
  | fetchPortable _ => LocalityResult PortableFetchResult
  | renderPortable _ => LocalityResult PortableRenderResult

end Locality.Connector
