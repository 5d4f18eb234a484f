/-
  Engine/SynchronizeProject.lean --- `locality-engine/src/synchronize_project.rs`: one page
  of a connector through fetch and render, and every page of a bounded run.

  The two aggregates of the source have the same fields, checks and limits: they are one
  definition, with the name of the run in its errors.  SHA-256 is a parameter.
-/
import Locality.Connector.Portable
import Locality.Foundation.OrderedTable
import Locality.Foundation.Program
import Mathlib.Data.Finset.Union

set_option autoImplicit false

namespace Locality.Engine

open Locality.Core Locality.Foundation Locality.Protocol Locality.Connector

/-! ## Candidates -/

structure ImmutableSourceVersionCandidate where
  sourceObject : SourceObject
  providerVersion : Option Text
  nativeSha256 : Text
  canonicalSha256 : Text
  nativeBody : List UInt8
  canonicalArtifactKey : PortableArtifactKey
  deriving DecidableEq, Repr

structure ImmutableContentCandidate where
  artifactKey : PortableArtifactKey
  sha256 : Text
  byteLength : Nat
  mediaType : Text
  body : List UInt8
  deriving DecidableEq, Repr

structure ImmutableProjectionCandidate where
  artifactKey : PortableArtifactKey
  logicalPath : LogicalPath
  contentArtifactKey : PortableArtifactKey
  contentSha256 : Text
  sourceRemoteIds : List RemoteId
  fileKind : ProjectionFileKind
  formatVersion : UInt32
  supportedActions : List SourceAction
  deriving DecidableEq, Repr

structure UnpersistedSynchronizationBatch where
  sourceConnectionId : SourceConnectionId
  observedChanges : List PortableSourceChange
  sourceVersions : List ImmutableSourceVersionCandidate
  contents : List ImmutableContentCandidate
  projections : List ImmutableProjectionCandidate
  nextCheckpoint : PortableCheckpoint
  completeness : PortableCompleteness
  publicationEligible : Bool
  deriving DecidableEq, Repr

structure UnpersistedSynchronizationBatchV2 where
  batch : UnpersistedSynchronizationBatch
  scope : PortableSourceScope
  mode : PortableSyncMode
  authority : PortableBatchAuthority
  authorizesOmission : Bool
  deriving DecidableEq, Repr

/-! ## Orders -/

def remoteIdOrder (id id' : RemoteId) : Ordering := textOrder id.value id'.value

def artifactKeyOrder (key key' : PortableArtifactKey) : Ordering := textOrder key.value key'.value

instance : Std.TransCmp remoteIdOrder := transCmp_key (byteOrder ∘ RemoteId.value)

instance : Std.LawfulEqCmp remoteIdOrder :=
  lawfulEqCmp_key fun id id' h => by cases id; cases id'; cases byteOrder_injective h; rfl

instance : Std.TransCmp artifactKeyOrder := transCmp_key (byteOrder ∘ PortableArtifactKey.value)

instance : Std.LawfulEqCmp artifactKeyOrder :=
  lawfulEqCmp_key fun id id' h => by cases id; cases id'; cases byteOrder_injective h; rfl

/-- What changes are sorted by: the remote identifier, and then the logical path. -/
def changeKey (change : PortableSourceChange) : List (List Nat) :=
  byteOrder change.sourceObject.remoteId.value ::
    (change.logicalPath.map fun path => byteOrder path.value).toList

def changeLe (change change' : PortableSourceChange) : Prop := changeKey change ≤ changeKey change'

instance : DecidableRel changeLe := fun change change' =>
  inferInstanceAs (Decidable (changeKey change ≤ changeKey change'))

def sourceVersionLe (version version' : ImmutableSourceVersionCandidate) : Prop :=
  byteOrder version.sourceObject.remoteId.value ≤ byteOrder version'.sourceObject.remoteId.value

instance : DecidableRel sourceVersionLe := fun version version' =>
  inferInstanceAs (Decidable (byteOrder version.sourceObject.remoteId.value ≤
    byteOrder version'.sourceObject.remoteId.value))

abbrev ContentTable : Type :=
  Std.ExtTreeMap PortableArtifactKey ImmutableContentCandidate artifactKeyOrder

abbrev ProjectionTable : Type :=
  Std.ExtTreeMap PortableArtifactKey ImmutableProjectionCandidate artifactKeyOrder

/-! ## Calls of the connector -/

abbrev EngineProgram : Type → Type := Program ConnectorOp ConnectorOp.Answer LocalityError

def EngineProgram.call (op : ConnectorOp) : EngineProgram op.Answer := Program.perform op

def bootstrapPortable (request : PortableBootstrapRequest) : EngineProgram PortableChangeBatch := do
  .ofExcept (← EngineProgram.call (.bootstrapPortable request))

def fetchPortable (request : PortableFetchRequest) : EngineProgram PortableFetchResult := do
  .ofExcept (← EngineProgram.call (.fetchPortable request))

def renderPortable (request : PortableRenderRequest) : EngineProgram PortableRenderResult := do
  .ofExcept (← EngineProgram.call (.renderPortable request))

/-- `dispatch_portable_sync_v2`. -/
def dispatchPortableSyncV2 (request : PortableSyncRequestV2) :
    EngineProgram PortableChangeBatchV2 := do
  .ofExcept request.validate
  .ofExcept (← EngineProgram.call (.syncPortableV2 request))

/-! ## Checks -/

/-- What `validate_changes` has seen: the identifiers, and whether sources have an owning
root. -/
structure ChangeChecks where
  remoteIds : Finset RemoteId
  provenanceMode : Option Bool
  deriving DecidableEq

def validateChange (sourceConnectionId : SourceConnectionId) (checks : ChangeChecks)
    (change : PortableSourceChange) : LocalityResult ChangeChecks := do
  refuseIf (change.sourceObject.sourceConnectionId ≠ sourceConnectionId)
    "portable connector returned a source object for another connection".toList
  refuseIf (change.sourceObject.remoteId ∈ checks.remoteIds)
    ("portable connector returned duplicate source object `".toList ++
      change.sourceObject.remoteId.value ++ "`".toList)
  let root ← change.sourceObject.portableScopeRootRemoteId
  refuseIf (checks.provenanceMode.any fun expected => decide (expected ≠ root.isSome))
    "portable connector returned a batch with ambiguous owning-root provenance".toList
  return ⟨insert change.sourceObject.remoteId checks.remoteIds,
    some (checks.provenanceMode.getD root.isSome)⟩

def validateChanges (sourceConnectionId : SourceConnectionId)
    (changes : List PortableSourceChange) : LocalityResult Unit := do
  let _ ← changes.foldlM (validateChange sourceConnectionId) ⟨∅, none⟩
  pure ()

def validateArtifact (artifact : PortableContentArtifact) : LocalityResult Unit :=
  refuseIf (artifact.artifactKey.isValid = false ∨ trim artifact.mediaType = [])
    "portable render returned invalid artifact metadata".toList

def validateProjection (sourceRemoteId : RemoteId) (requestedFormatVersion : UInt32)
    (projection : PortableProjectionArtifact) : LocalityResult Unit := do
  validateArtifact projection.artifact
  refuseIf (projection.formatVersion = 0 ∨ projection.formatVersion ≠ requestedFormatVersion)
    ("portable projection for `".toList ++ sourceRemoteId.value ++
      "` returned format version ".toList ++ natText projection.formatVersion.toNat ++
      " when ".toList ++ natText requestedFormatVersion.toNat ++ " was requested".toList)

/-- `validate_v2_batch_scope_provenance`, of one change. -/
def validateScopeProvenance (scope : PortableSourceScope) (change : PortableSourceChange) :
    LocalityResult Unit := do
  match ← change.sourceObject.portableScopeRootRemoteId with
  | some rootRemoteId =>
      refuseIf (rootRemoteId ∉ scope.rootRemoteIds)
        "portable v2 connector returned source outside the requested scope".toList
  | none =>
      invalidState "portable v2 connector returned source without owning-root provenance".toList

def validateV2BatchScopeProvenance (scope : PortableSourceScope)
    (changes : List PortableSourceChange) : LocalityResult Unit :=
  changes.forM (validateScopeProvenance scope)

/-! ## Projecting a batch -/

section Sha256

variable (sha256 : List UInt8 → List UInt8)

def contentCandidate (artifact : PortableContentArtifact) : ImmutableContentCandidate where
  artifactKey := artifact.artifactKey
  sha256 := sha256Label sha256 artifact.body
  byteLength := artifact.body.length
  mediaType := artifact.mediaType
  body := artifact.body

def insertContent (contents : ContentTable) (artifact : PortableContentArtifact) :
    LocalityResult ContentTable := do
  validateArtifact artifact
  let candidate := contentCandidate sha256 artifact
  match contents[candidate.artifactKey]? with
  | some existing =>
      refuseIf (existing ≠ candidate)
        ("portable artifact key `".toList ++ candidate.artifactKey.value ++
          "` identified different immutable bytes".toList)
      return contents
  | none => pure (contents.insert candidate.artifactKey candidate)

/-- What is projected of a batch so far. -/
structure ProjectedBatch where
  completeness : PortableCompleteness
  sourceVersions : List ImmutableSourceVersionCandidate
  contents : ContentTable
  projections : ProjectionTable
  canonicalArtifactKeys : Finset PortableArtifactKey
  projectionPaths : Finset Text

def ProjectedBatch.start (completeness : PortableCompleteness) : ProjectedBatch :=
  ⟨completeness, [], ∅, ∅, ∅, ∅⟩

def projectionCandidate (sourceRemoteId : RemoteId) (projection : PortableProjectionArtifact) :
    ImmutableProjectionCandidate where
  artifactKey := projection.artifact.artifactKey
  logicalPath := projection.logicalPath
  contentArtifactKey := projection.artifact.artifactKey
  contentSha256 := sha256Label sha256 projection.artifact.body
  sourceRemoteIds := [sourceRemoteId]
  fileKind := projection.fileKind
  formatVersion := projection.formatVersion
  supportedActions := projection.supportedActions

def addProjection (sourceRemoteId : RemoteId) (formatVersion : UInt32) (batch : ProjectedBatch)
    (projection : PortableProjectionArtifact) : LocalityResult ProjectedBatch := do
  validateProjection sourceRemoteId formatVersion projection
  let contents ← insertContent sha256 batch.contents projection.artifact
  let candidate := projectionCandidate sha256 sourceRemoteId projection
  refuseIf (candidate.logicalPath.value ∈ batch.projectionPaths)
    ("portable render returned duplicate logical path `".toList ++
      candidate.logicalPath.value ++ "`".toList)
  refuseIf (batch.projections.contains candidate.artifactKey)
    "portable render returned a duplicate projection artifact key".toList
  return { batch with
    contents
    projections := batch.projections.insert candidate.artifactKey candidate
    projectionPaths := insert candidate.logicalPath.value batch.projectionPaths }

/-- What a source that was fetched and rendered adds. -/
def addRendered (formatVersion : UInt32) (batch : ProjectedBatch) (change : PortableSourceChange)
    (fetched : PortableFetchResult) (rendered : PortableRenderResult) :
    LocalityResult ProjectedBatch := do
  validateArtifact rendered.canonical
  refuseIf (rendered.projections = [])
    ("portable render for `".toList ++ change.sourceObject.remoteId.value ++
      "` returned no projection artifacts".toList)
  refuseIf (rendered.canonical.artifactKey ∈ batch.canonicalArtifactKeys)
    "portable render returned a duplicate canonical artifact key".toList
  let contents ← insertContent sha256 batch.contents rendered.canonical
  let batch ← rendered.projections.foldlM
    (addProjection sha256 change.sourceObject.remoteId formatVersion)
    { batch with
      completeness := (batch.completeness.merge fetched.completeness).merge rendered.completeness
      contents
      canonicalArtifactKeys :=
        insert rendered.canonical.artifactKey batch.canonicalArtifactKeys }
  return { batch with
    sourceVersions := batch.sourceVersions ++ [{
      sourceObject := change.sourceObject
      providerVersion := fetched.providerVersion
      nativeSha256 := sha256Label sha256 fetched.native.raw
      canonicalSha256 := sha256Label sha256 rendered.canonical.body
      nativeBody := fetched.native.raw
      canonicalArtifactKey := rendered.canonical.artifactKey }] }

def projectChange (sourceConnectionId : SourceConnectionId) (reason : PortableFetchReason)
    (formatVersion : UInt32) (batch : ProjectedBatch) (change : PortableSourceChange) :
    EngineProgram ProjectedBatch := do
  if change.sourceObject.deleted = true ∨ change.requiresFetch = false then return batch
  else
    match change.logicalPath with
    | none =>
        .fail (.invalidState ("portable source `".toList ++ change.sourceObject.remoteId.value ++
          "` requires fetch but has no logical path".toList))
    | some logicalPath => do
        let fetched ← fetchPortable ⟨sourceConnectionId, change.sourceObject.remoteId, reason⟩
        if fetched.native.remoteId ≠ change.sourceObject.remoteId then
          .fail (.invalidState ("portable fetch for `".toList ++
            change.sourceObject.remoteId.value ++ "` returned `".toList ++
            fetched.native.remoteId.value ++ "`".toList))
        else do
          let rendered ← renderPortable ⟨sourceConnectionId, logicalPath, fetched.native,
            formatVersion⟩
          .ofExcept (addRendered sha256 formatVersion batch change fetched rendered)

def projectChanges (sourceConnectionId : SourceConnectionId) (reason : PortableFetchReason)
    (formatVersion : UInt32) (batch : ProjectedBatch) :
    List PortableSourceChange → EngineProgram ProjectedBatch
  | [] => pure batch
  | change :: changes => do
      let batch ← projectChange sha256 sourceConnectionId reason formatVersion batch change
      projectChanges sourceConnectionId reason formatVersion batch changes

def ProjectedBatch.finish (self : ProjectedBatch) (sourceConnectionId : SourceConnectionId)
    (changes : List PortableSourceChange) (nextCheckpoint : PortableCheckpoint) :
    UnpersistedSynchronizationBatch where
  sourceConnectionId
  observedChanges := changes
  sourceVersions := self.sourceVersions.insertionSort sourceVersionLe
  contents := valuesOf self.contents
  projections := valuesOf self.projections
  nextCheckpoint
  completeness := self.completeness
  publicationEligible := self.completeness.isComplete

def projectBatch (sourceConnectionId : SourceConnectionId) (batch : PortableChangeBatch)
    (reason : PortableFetchReason) (formatVersion : UInt32) :
    EngineProgram UnpersistedSynchronizationBatch := do
  let changes := batch.changes.insertionSort changeLe
  .ofExcept (validateChanges sourceConnectionId changes)
  let projected ← projectChanges sha256 sourceConnectionId reason formatVersion
    (.start batch.completeness) changes
  return projected.finish sourceConnectionId changes batch.nextCheckpoint

/-! ## Aggregates -/

/-- `BootstrapAggregationLimits`, and `SynchronizationAggregationLimits`. -/
structure AggregationLimits where
  maxCheckpoints : Nat
  maxTotalChanges : Nat
  maxTotalContentBytes : Nat
  deriving DecidableEq, Repr

/-- An error of an aggregation, with the name of the run. -/
def aggregationMessage (run : Text) (message : String) : Text := run ++ ' ' :: message.toList

def AggregationLimits.validate (self : AggregationLimits) (run : Text) : LocalityResult Unit :=
  refuseIf (self.maxCheckpoints = 0 ∨ self.maxTotalChanges = 0 ∨ self.maxTotalContentBytes = 0)
    (aggregationMessage run "aggregation limits must be nonzero")

/-- `checked_add` of words of 64 bits, with the error of an overflow. -/
def checkedAdd (overflow : Text) (n m : Nat) : LocalityResult Nat :=
  if 2 ^ 64 ≤ n + m then invalidState overflow else pure (n + m)

/-- `BootstrapAggregate`, and `SynchronizationAggregateV2` but for its covered roots. -/
structure Aggregate where
  observedChanges : Std.ExtTreeMap RemoteId PortableSourceChange remoteIdOrder
  sourceVersions : Std.ExtTreeMap RemoteId ImmutableSourceVersionCandidate remoteIdOrder
  contents : ContentTable
  projections : ProjectionTable
  projectionPaths : Finset Text
  completeness : PortableCompleteness
  totalChanges : Nat
  totalContentBytes : Nat

namespace Aggregate

def new : Aggregate := ⟨∅, ∅, ∅, ∅, ∅, .full, 0, 0⟩

/-- The checks of a page against the pages before it. -/
def checkDistinct (run : Text) (self : Aggregate) (page : UnpersistedSynchronizationBatch) :
    LocalityResult Unit := do
  page.sourceVersions.forM fun source =>
    refuseIf (self.sourceVersions.contains source.sourceObject.remoteId)
      (aggregationMessage run "aggregation repeated a source version")
  page.observedChanges.forM fun change =>
    refuseIf (self.observedChanges.contains change.sourceObject.remoteId)
      (aggregationMessage run "aggregation repeated an observed source")
  page.projections.forM fun projection => do
    refuseIf (self.projections.contains projection.artifactKey)
      (aggregationMessage run "aggregation repeated a projection artifact")
    refuseIf (projection.logicalPath.value ∈ self.projectionPaths)
      (aggregationMessage run "aggregation repeated a logical path")
  page.contents.forM fun content =>
    refuseIf (self.contents.contains content.artifactKey)
      (aggregationMessage run "aggregation repeated a content artifact")

/-- The number of changes and of content bytes with a page. -/
def addTotals (run : Text) (self : Aggregate) (page : UnpersistedSynchronizationBatch)
    (limits : AggregationLimits) : LocalityResult (Nat × Nat) := do
  let totalChanges ← checkedAdd (aggregationMessage run "aggregation change count overflowed")
    self.totalChanges page.observedChanges.length
  refuseIf (limits.maxTotalChanges < totalChanges)
    (aggregationMessage run "aggregation exceeded its change limit")
  let bytesError := aggregationMessage run "aggregation content bytes overflowed"
  let pageContentBytes ← page.contents.foldlM
    (fun total content => checkedAdd bytesError total content.byteLength) 0
  let totalContentBytes ← checkedAdd bytesError self.totalContentBytes pageContentBytes
  refuseIf (limits.maxTotalContentBytes < totalContentBytes)
    (aggregationMessage run "aggregation exceeded its content byte limit")
  return (totalChanges, totalContentBytes)

def push (run : Text) (self : Aggregate) (page : UnpersistedSynchronizationBatch)
    (completeness : PortableCompleteness) (limits : AggregationLimits) :
    LocalityResult Aggregate := do
  self.checkDistinct run page
  let (totalChanges, totalContentBytes) ← self.addTotals run page limits
  return {
    observedChanges := page.observedChanges.foldl
      (fun table change => table.insert change.sourceObject.remoteId change) self.observedChanges
    sourceVersions := page.sourceVersions.foldl
      (fun table source => table.insert source.sourceObject.remoteId source) self.sourceVersions
    contents := page.contents.foldl
      (fun table content => table.insert content.artifactKey content) self.contents
    projections := page.projections.foldl
      (fun table projection => table.insert projection.artifactKey projection) self.projections
    projectionPaths := self.projectionPaths ∪
      (page.projections.map fun projection => projection.logicalPath.value).toFinset
    completeness := self.completeness.merge completeness
    totalChanges
    totalContentBytes }

def finish (self : Aggregate) (sourceConnectionId : SourceConnectionId)
    (nextCheckpoint : PortableCheckpoint) : UnpersistedSynchronizationBatch where
  sourceConnectionId
  observedChanges := valuesOf self.observedChanges
  sourceVersions := valuesOf self.sourceVersions
  contents := valuesOf self.contents
  projections := valuesOf self.projections
  nextCheckpoint
  completeness := self.completeness
  publicationEligible := self.completeness.isComplete

end Aggregate

/-- `completeness_without_continuation`. -/
def completenessWithoutContinuation (completeness : PortableCompleteness) :
    Bool × PortableCompleteness :=
  let reasons := completeness.incompleteReasons
  let preserved : PortableCompleteness :=
    if reasons = [] ∧ completeness.isComplete = false then .default else .full
  (decide (PortableIncompleteReason.checkpointContinuation ∈ reasons),
    (reasons.filter fun reason => decide (reason ≠ .checkpointContinuation)).foldl
      (fun preserved reason => preserved.merge (.incomplete reason)) preserved)

/-- The messages of a continuation that is refused. -/
structure ContinuationErrors where
  empty : Text
  repeated : Text
  cycle : Text

/-- `validate_continuation_checkpoint`, and `validate_sync_v2_continuation_checkpoint`. -/
def validateContinuationCheckpoint (errors : ContinuationErrors)
    (current : Option PortableCheckpoint) (next : PortableCheckpoint)
    (seen : Finset (UInt16 × Text)) : LocalityResult (Finset (UInt16 × Text)) :=
  if next.opaqueState = [] then invalidState errors.empty
  else if current = some next then invalidState errors.repeated
  else if (next.formatVersion, next.opaqueState) ∈ seen then invalidState errors.cycle
  else pure (insert (next.formatVersion, next.opaqueState) seen)

def checkpointIdentity (checkpoint : PortableCheckpoint) : UInt16 × Text :=
  (checkpoint.formatVersion, checkpoint.opaqueState)

/-! ## Bootstrap -/

def bootstrapRun : Text := "portable bootstrap".toList

def bootstrapContinuationErrors : ContinuationErrors where
  empty := "portable bootstrap continuation returned an empty checkpoint".toList
  repeated := "portable bootstrap continuation repeated its checkpoint".toList
  cycle := "portable bootstrap continuation formed a checkpoint cycle".toList

def bootstrapAndProject (request : PortableBootstrapRequest) (formatVersion : UInt32) :
    EngineProgram UnpersistedSynchronizationBatch := do
  let batch ← bootstrapPortable request
  projectBatch sha256 request.sourceConnectionId batch .bootstrap formatVersion

/-- The loop of `bootstrap_and_project_to_completion`, with the number of checkpoints that
are left. -/
def bootstrapLoop (request : PortableBootstrapRequest) (formatVersion : UInt32)
    (limits : AggregationLimits) : Nat → Option PortableCheckpoint → Finset (UInt16 × Text) →
      Aggregate → EngineProgram UnpersistedSynchronizationBatch
  | 0, _, _, _ =>
      .fail (.invalidState
        (aggregationMessage bootstrapRun "aggregation exceeded its checkpoint limit"))
  | checkpoints + 1, current, seen, aggregate => do
      let page ← (bootstrapAndProject sha256 { request with checkpoint := current }
        formatVersion).mapError fun _ =>
          .invalidState (aggregationMessage bootstrapRun "aggregation page failed")
      if page.sourceConnectionId ≠ request.sourceConnectionId then
        .fail (.invalidState
          (aggregationMessage bootstrapRun "aggregation changed source connection"))
      else do
        let (continuation, preserved) := completenessWithoutContinuation page.completeness
        let seen ← .ofExcept (if continuation then
            validateContinuationCheckpoint bootstrapContinuationErrors current page.nextCheckpoint
              seen
          else pure seen)
        let aggregate ← .ofExcept (aggregate.push bootstrapRun page preserved limits)
        if continuation then
          bootstrapLoop request formatVersion limits checkpoints (some page.nextCheckpoint) seen
            aggregate
        else return aggregate.finish request.sourceConnectionId page.nextCheckpoint

def bootstrapAndProjectToCompletion (request : PortableBootstrapRequest) (formatVersion : UInt32)
    (limits : AggregationLimits) : EngineProgram UnpersistedSynchronizationBatch := do
  .ofExcept (limits.validate bootstrapRun)
  bootstrapLoop sha256 request formatVersion limits limits.maxCheckpoints request.checkpoint
    (request.checkpoint.map checkpointIdentity).toList.toFinset .new

/-! ## Synchronization -/

def syncV2Run : Text := "portable v2 synchronization".toList

def syncV2ContinuationErrors : ContinuationErrors where
  empty := "portable v2 synchronization returned an empty next checkpoint".toList
  repeated := "portable v2 synchronization did not advance its checkpoint".toList
  cycle := "portable v2 synchronization formed a checkpoint cycle".toList

structure ProjectedSynchronizationPageV2 where
  result : UnpersistedSynchronizationBatchV2
  coveredRootRemoteIds : List RemoteId
  hasCheckpointContinuation : Bool
  hasExactScopeCoverage : Bool

def synchronizeAndProjectPortableV2Page (request : PortableSyncRequestV2) (formatVersion : UInt32)
    (stripConnectorContinuation : Bool) (remainingAggregateChanges : Option Nat) :
    EngineProgram ProjectedSynchronizationPageV2 := do
  let batch ← dispatchPortableSyncV2 request
  let hasExactScopeCoverage ← .ofExcept (batch.validateForRequest request.scope request.maxChanges)
  let (hasCheckpointContinuation, preserved) := completenessWithoutContinuation batch.completeness
  .ofExcept (validateV2BatchScopeProvenance request.scope batch.changes)
  if remainingAggregateChanges.any fun remaining => decide (remaining < batch.changes.length) then
    .fail (.invalidState (aggregationMessage syncV2Run "aggregation exceeded its change limit"))
  else do
    let projected ← projectBatch sha256 request.sourceConnectionId
      { changes := batch.changes
        nextCheckpoint := batch.nextCheckpoint
        completeness := if stripConnectorContinuation then preserved else batch.completeness }
      .synchronization formatVersion
    return {
      result := {
        batch := projected
        scope := request.scope
        mode := request.mode
        authority := batch.authority
        authorizesOmission := decide (request.mode = .reconcileScope) &&
          decide (batch.authority = .completeScopeSnapshot) && !hasCheckpointContinuation &&
          projected.completeness.isComplete && hasExactScopeCoverage }
      coveredRootRemoteIds := batch.coveredRootRemoteIds
      hasCheckpointContinuation
      hasExactScopeCoverage }

def synchronizeAndProjectPortableV2 (request : PortableSyncRequestV2) (formatVersion : UInt32) :
    EngineProgram UnpersistedSynchronizationBatchV2 := do
  let page ← synchronizeAndProjectPortableV2Page sha256 request formatVersion false none
  return page.result

/-- `SynchronizationAggregateV2`. -/
structure SynchronizationAggregateV2 where
  aggregate : Aggregate
  coveredRootRemoteIds : Finset RemoteId

namespace SynchronizationAggregateV2

def new : SynchronizationAggregateV2 := ⟨.new, ∅⟩

def remainingChanges (self : SynchronizationAggregateV2) (limits : AggregationLimits) : Nat :=
  limits.maxTotalChanges - self.aggregate.totalChanges

def push (self : SynchronizationAggregateV2) (page : UnpersistedSynchronizationBatch)
    (coveredRootRemoteIds : List RemoteId) (limits : AggregationLimits) :
    LocalityResult SynchronizationAggregateV2 := do
  let aggregate ← self.aggregate.push syncV2Run page page.completeness limits
  return ⟨aggregate, self.coveredRootRemoteIds ∪ coveredRootRemoteIds.toFinset⟩

def finish (self : SynchronizationAggregateV2) (sourceConnectionId : SourceConnectionId)
    (nextCheckpoint : PortableCheckpoint) (scope : PortableSourceScope) (mode : PortableSyncMode)
    (authority : PortableBatchAuthority) (terminalHasExactScopeCoverage : Bool) :
    UnpersistedSynchronizationBatchV2 where
  batch := self.aggregate.finish sourceConnectionId nextCheckpoint
  scope
  mode
  authority
  authorizesOmission := decide (mode = .reconcileScope) &&
    decide (authority = .completeScopeSnapshot) && self.aggregate.completeness.isComplete &&
    terminalHasExactScopeCoverage &&
    decide (self.coveredRootRemoteIds = scope.rootRemoteIds.toFinset)

end SynchronizationAggregateV2

/-- The loop of `synchronize_and_project_portable_v2_to_completion`, with the number of
checkpoints that are left. -/
def syncV2Loop (request : PortableSyncRequestV2) (formatVersion : UInt32)
    (limits : AggregationLimits) : Nat → PortableCheckpoint → Finset (UInt16 × Text) →
      SynchronizationAggregateV2 → EngineProgram UnpersistedSynchronizationBatchV2
  | 0, _, _, _ =>
      .fail (.invalidState
        (aggregationMessage syncV2Run "aggregation exceeded its checkpoint limit"))
  | checkpoints + 1, current, seen, aggregate => do
      let page ← synchronizeAndProjectPortableV2Page sha256 { request with checkpoint := current }
        formatVersion true (some (aggregate.remainingChanges limits))
      if page.result.batch.sourceConnectionId ≠ request.sourceConnectionId ∨
          page.result.scope ≠ request.scope ∨ page.result.mode ≠ request.mode then
        .fail (.invalidState (aggregationMessage syncV2Run "aggregation changed request identity"))
      else do
        let seen ← .ofExcept (if page.hasCheckpointContinuation then
            validateContinuationCheckpoint syncV2ContinuationErrors (some current)
              page.result.batch.nextCheckpoint seen
          else pure seen)
        let aggregate ← .ofExcept
          (aggregate.push page.result.batch page.coveredRootRemoteIds limits)
        if page.hasCheckpointContinuation then
          syncV2Loop request formatVersion limits checkpoints page.result.batch.nextCheckpoint seen
            aggregate
        else
          return aggregate.finish request.sourceConnectionId page.result.batch.nextCheckpoint
            request.scope request.mode page.result.authority page.hasExactScopeCoverage

def synchronizeAndProjectPortableV2ToCompletion (request : PortableSyncRequestV2)
    (formatVersion : UInt32) (limits : AggregationLimits) :
    EngineProgram UnpersistedSynchronizationBatchV2 := do
  .ofExcept (limits.validate syncV2Run)
  syncV2Loop sha256 request formatVersion limits limits.maxCheckpoints request.checkpoint
    {checkpointIdentity request.checkpoint} .new

end Sha256

end Locality.Engine
