/-
  Core/Push.lean --- the journaled execution of an approved push:
  `execute_journaled_push_with_host` of `locality-core/src/push.rs`.

  The host owns the journal, the remote and the projection; its six hooks may fail at
  any call, those that the failure handlers make included.  A run is kept with the
  calls it made and their outcomes.  What a run can look like is said once, by
  `PushRun`; what the journal holds after it, or after a part of it, is read off that.
-/
import Locality.Core.Journal
import Locality.Foundation.Fallible

set_option autoImplicit false

namespace Locality.Core

open Locality.Foundation

/-! ## The pipeline's result -/

inductive PushStage where
  | parseAndValidate
  | diff
  | planAndConfirm
  | concurrencyCheckAndApply
  | journalAndReconcile
  deriving DecidableEq, Repr

inductive GuardrailDecision where
  | proceed
  | confirmRequired (reasons : List Text)
  deriving DecidableEq, Repr

structure ValidationReport where
  issues : List ValidationIssue
  deriving DecidableEq, Repr

inductive PushPipelineAction where
  | noop
  | fixValidation
  | confirmPlan
  | confirmDangerousPlan
  | proceedToApply
  | readOnlyBlocked
  | unsupportedOperations (operations : List Text) (message suggestedFix : Text)
  deriving DecidableEq, Repr

structure PushPipelineResult where
  validation : ValidationReport
  plan : Option PushPlan
  guardrail : GuardrailDecision
  action : PushPipelineAction
  completedStages : List PushStage

/-! ## Requests and results of the hooks -/

structure RemotePrecondition where
  remoteId : RemoteId
  remoteEditedAt : Option Text
  deriving DecidableEq, Repr

structure PushExecutionRequest where
  pushId : PushId
  mountId : MountId
  pipeline : PushPipelineResult
  preimages : List JournalPreimage
  metadata : JournalMetadata
  readableDiff : Option ReadableDiffOutput
  remotePreconditions : List RemotePrecondition

inductive PushExecutionAction where
  | notReady (pipelineAction : PushPipelineAction)
  | reconciled
  deriving DecidableEq, Repr

structure PushExecutionResult where
  pushId : PushId
  action : PushExecutionAction
  changedRemoteIds : List RemoteId
  applyEffects : List JournalApplyEffect
  reconciledRemoteIds : List RemoteId
  journalStatus : Option JournalStatus
  completedStages : List PushStage
  deriving DecidableEq, Repr

/-- `PushConcurrencyRequest` and `PushApplyRequest`, which have the same fields. -/
structure PushRemoteRequest where
  pushId : PushId
  mountId : MountId
  plan : PushPlan
  operationIds : List PushOperationId
  remoteIds : List RemoteId
  remotePreconditions : List RemotePrecondition

structure PushApplyResult where
  changedRemoteIds : List RemoteId
  effects : List JournalApplyEffect
  deriving DecidableEq, Repr

structure PushReconcileRequest where
  pushId : PushId
  mountId : MountId
  plan : PushPlan
  changedRemoteIds : List RemoteId
  applyEffects : List JournalApplyEffect

structure PushReconcileResult where
  reconciledRemoteIds : List RemoteId
  deriving DecidableEq, Repr

/-! ## Hosts -/

/-- A host with state in `σ`: every hook gives its outcome and the next state. -/
structure PushExecutionHost (σ : Type) where
  append : σ → JournalEntry → LocalityResult Unit × σ
  recordApplyEffects : σ → PushId → List JournalApplyEffect → LocalityResult Unit × σ
  updateStatus : σ → PushId → JournalStatus → LocalityResult Unit × σ
  check : σ → PushRemoteRequest → LocalityResult Unit × σ
  apply : σ → PushRemoteRequest → LocalityResult PushApplyResult × σ
  reconcile : σ → PushReconcileRequest → LocalityResult PushReconcileResult × σ

/-- A call of a hook, with its outcome. -/
inductive HookCall where
  | append (entry : JournalEntry) (outcome : LocalityResult Unit)
  | recordApplyEffects (pushId : PushId) (effects : List JournalApplyEffect)
      (outcome : LocalityResult Unit)
  | updateStatus (pushId : PushId) (status : JournalStatus) (outcome : LocalityResult Unit)
  | check (request : PushRemoteRequest) (outcome : LocalityResult Unit)
  | apply (request : PushRemoteRequest) (outcome : LocalityResult PushApplyResult)
  | reconcile (request : PushReconcileRequest) (outcome : LocalityResult PushReconcileResult)

/-- Computations over a host's state, with the calls made so far. -/
abbrev HostM (σ : Type) : Type → Type := Fallible LocalityError (σ × List HookCall)

namespace HostM

variable {σ α : Type}

/-- Run a hook and note the call. -/
def call (hook : σ → LocalityResult α × σ) (note : LocalityResult α → HookCall) : HostM σ α :=
  fun st =>
    let (outcome, next) := hook st.1
    (outcome, (next, st.2 ++ [note outcome]))

end HostM

section Execute

variable {σ : Type} (host : PushExecutionHost σ)

def updateStatus (pushId : PushId) (status : JournalStatus) : HostM σ Unit :=
  HostM.call (fun s => host.updateStatus s pushId status) (.updateStatus pushId status)

def markFailed (pushId : PushId) (error : LocalityError) : HostM σ Unit :=
  updateStatus host pushId (.failed error.display)

def markReverted (pushId : PushId) : HostM σ Unit := updateStatus host pushId .reverted

/-- The request that the freshness check and the connector get. -/
def remoteRequest (request : PushExecutionRequest) (plan : PushPlan) : PushRemoteRequest where
  pushId := request.pushId
  mountId := request.mountId
  plan := plan
  operationIds := plan.operations.zipIdx.map fun p =>
    PushOperationId.forOperation request.pushId p.2 p.1
  remoteIds := plan.affectedEntities
  remotePreconditions := request.remotePreconditions

/-- The entry that is written before anything is applied. -/
def preparedEntry (request : PushExecutionRequest) (plan : PushPlan) : JournalEntry :=
  (((JournalEntry.ofPlan request.pushId request.mountId plan.affectedEntities plan
    .prepared).withPreimages request.preimages).withMetadata request.metadata).withReadableDiff
      request.readableDiff

def reconcileRequest (request : PushExecutionRequest) (plan : PushPlan)
    (applyResult : PushApplyResult) : PushReconcileRequest where
  pushId := request.pushId
  mountId := request.mountId
  plan := plan
  changedRemoteIds := applyResult.changedRemoteIds
  applyEffects := applyResult.effects

def notReadyResult (request : PushExecutionRequest) : PushExecutionResult where
  pushId := request.pushId
  action := .notReady request.pipeline.action
  changedRemoteIds := []
  applyEffects := []
  reconciledRemoteIds := []
  journalStatus := none
  completedStages := request.pipeline.completedStages

def reconciledResult (request : PushExecutionRequest) (applyResult : PushApplyResult)
    (reconcileResult : PushReconcileResult) : PushExecutionResult where
  pushId := request.pushId
  action := .reconciled
  changedRemoteIds := applyResult.changedRemoteIds
  applyEffects := applyResult.effects
  reconciledRemoteIds := reconcileResult.reconciledRemoteIds
  journalStatus := some .reconciled
  completedStages := request.pipeline.completedStages ++
    [.concurrencyCheckAndApply, .journalAndReconcile]

def missingPlanError : LocalityError :=
  .invalidState "push pipeline approved apply without a plan".toList

/-- The execution of a plan that was approved. -/
def executePlan (request : PushExecutionRequest) (plan : PushPlan) :
    HostM σ PushExecutionResult := do
  let entry := preparedEntry request plan
  let remote := remoteRequest request plan
  HostM.call (fun s => host.append s entry) (.append entry)
  updateStatus host request.pushId .applying
  tryCatch (HostM.call (fun s => host.check s remote) (.check remote)) fun error => do
    markReverted host request.pushId
    throw error
  let applyResult ←
    tryCatch (HostM.call (fun s => host.apply s remote) (.apply remote)) fun error => do
      markFailed host request.pushId error
      throw error
  tryCatch (HostM.call (fun s => host.recordApplyEffects s request.pushId applyResult.effects)
      (.recordApplyEffects request.pushId applyResult.effects)) fun error => do
    markFailed host request.pushId error
    throw error
  updateStatus host request.pushId .applied
  let reconcile := reconcileRequest request plan applyResult
  let reconcileResult ←
    tryCatch (HostM.call (fun s => host.reconcile s reconcile) (.reconcile reconcile))
      fun error => do
        markFailed host request.pushId error
        throw error
  updateStatus host request.pushId .reconciled
  return reconciledResult request applyResult reconcileResult

def executeJournaledPushWithHost (request : PushExecutionRequest) :
    HostM σ PushExecutionResult :=
  if request.pipeline.action ≠ .proceedToApply then pure (notReadyResult request)
  else
    match request.pipeline.plan with
    | none => throw missingPlanError
    | some plan => executePlan host request plan

/-- The result of an execution, and the calls it made. -/
def pushRun (request : PushExecutionRequest) (s : σ) :
    LocalityResult PushExecutionResult × List HookCall :=
  let run := executeJournaledPushWithHost host request (s, [])
  (run.1, run.2.2)

end Execute

end Locality.Core
