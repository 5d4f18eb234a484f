/-
  Engine/ScopeProvenance.lean --- whether one page of a synchronization treats the owning
  roots of its changes as the scope of its request does.

  Hints and covered roots are checked against the roots of a scope only where the scope is
  restricted to them.  The roots of the changes are checked against them in every scope.
-/
import Locality.Engine.OmissionAuthority

set_option autoImplicit false

namespace Locality.Engine

open Locality.Core Locality.Foundation Locality.Protocol Locality.Connector

/-! ## Roots that a scope admits -/

/-- The membership rule of a scope. -/
def Admits (scope : PortableSourceScope) (root : RemoteId) : Prop :=
  scope.mode = .restrictedRoots → root ∈ scope.rootRemoteIds

/-- A source with one owning-root edge, to the root. -/
def OwnedBy (object : SourceObject) (root : RemoteId) : Prop :=
  ∃ edge : SourceEdge, edge.targetRemoteId = root ∧
    object.edges.filter (fun edge => decide (edge.relationship = portableScopeRootRelationship)) =
      [edge]

theorem OwnedBy.portableScopeRootRemoteId {object : SourceObject} {root : RemoteId}
    (h : OwnedBy object root) : object.portableScopeRootRemoteId = .ok (some root) := by
  obtain ⟨edge, rfl, hedges⟩ := h
  rw [SourceObject.portableScopeRootRemoteId, hedges]
  rfl

/-! ## What a page should do -/

section Page

variable (sha256 : List UInt8 → List UInt8)

def otherConnectionMessage : Text :=
  "portable connector returned a source object for another connection".toList

def duplicateMessage (object : SourceObject) : Text :=
  "portable connector returned duplicate source object `".toList ++ object.remoteId.value ++
    "`".toList

/-- How a run goes on behind the answer of the connector where the roots of its changes are
no obstacle: it stops at a change of another connection or a change that comes twice, or
the changes are projected. -/
def PassesProvenance (request : PortableSyncRequestV2) (formatVersion : UInt32)
    (batch : PortableChangeBatchV2) (log : List Exchange)
    (result : LocalityResult UnpersistedSynchronizationBatchV2) : Prop :=
  log = [] ∧ (result = invalidState otherConnectionMessage ∨
      ∃ change ∈ batch.changes, result = invalidState (duplicateMessage change.sourceObject)) ∨
    ∃ projected,
      (projectChanges sha256 request.sourceConnectionId .synchronization formatVersion
        (.start batch.completeness) (batch.changes.insertionSort changeLe)).Runs log projected ∧
      result.map UnpersistedSynchronizationBatchV2.batch =
        projected.map fun projected => projected.finish request.sourceConnectionId
          (batch.changes.insertionSort changeLe) batch.nextCheckpoint

/-- A run whose connector answers the synchronization with the batch. -/
def Answered (request : PortableSyncRequestV2) (formatVersion : UInt32)
    (batch : PortableChangeBatchV2) (log : List Exchange)
    (result : LocalityResult UnpersistedSynchronizationBatchV2) : Prop :=
  (synchronizeAndProjectPortableV2 sha256 request formatVersion).Runs
    (⟨.syncPortableV2 request, (.ok batch : LocalityResult PortableChangeBatchV2)⟩ :: log) result

/-- A batch is refused for its owning roots exactly where the scope does not admit them. -/
structure UniformProvenance (request : PortableSyncRequestV2) (batch : PortableChangeBatchV2) :
    Prop where
  admitted : (∀ change ∈ batch.changes,
      ∃ root, OwnedBy change.sourceObject root ∧ Admits request.scope root) →
    ∀ formatVersion log result, Answered sha256 request formatVersion batch log result →
      PassesProvenance sha256 request formatVersion batch log result
  refused : (∃ change ∈ batch.changes,
      ∃ root, OwnedBy change.sourceObject root ∧ ¬ Admits request.scope root) →
    ∀ formatVersion log result, Answered sha256 request formatVersion batch log result →
      log = [] ∧ ∃ message, result = invalidState message

/-! ## The checks behind an answer -/

variable {sha256} {request : PortableSyncRequestV2} {formatVersion : UInt32}
  {batch : PortableChangeBatchV2} {log : List Exchange} {exact : Bool}
  {result : LocalityResult UnpersistedSynchronizationBatchV2}

/-- What is left of a page behind a valid answer. -/
def pageRest (sha256 : List UInt8 → List UInt8) (request : PortableSyncRequestV2)
    (formatVersion : UInt32) (batch : PortableChangeBatchV2) (exact : Bool) :
    EngineProgram UnpersistedSynchronizationBatchV2 := do
  .ofExcept (validateV2BatchScopeProvenance request.scope batch.changes)
  let projected ← projectBatch sha256 request.sourceConnectionId
    ⟨batch.changes, batch.nextCheckpoint, batch.completeness⟩ .synchronization formatVersion
  return {
    batch := projected
    scope := request.scope
    mode := request.mode
    authority := batch.authority
    authorizesOmission := decide (request.mode = .reconcileScope) &&
      decide (batch.authority = .completeScopeSnapshot) &&
      !(completenessWithoutContinuation batch.completeness).1 &&
      projected.completeness.isComplete && exact }

theorem answered_iff (hrequest : request.validate = .ok ())
    (hbatch : batch.validateForRequest request.scope request.maxChanges = .ok exact) :
    Answered sha256 request formatVersion batch log result ↔
      (pageRest sha256 request formatVersion batch exact).Runs log result := by
  have hpage : synchronizeAndProjectPortableV2 sha256 request formatVersion =
      .ask (.syncPortableV2 request) fun answer => Program.ofExcept answer >>= fun batch =>
        Program.ofExcept (batch.validateForRequest request.scope request.maxChanges) >>=
          fun exact => pageRest sha256 request formatVersion batch exact := by
    rw [synchronizeAndProjectPortableV2, synchronizeAndProjectPortableV2Page,
      dispatchPortableSyncV2, hrequest, Program.bind_assoc]
    refine congrArg (Program.ask _) (funext fun answer => ?_)
    cases answer with
    | error error => rfl
    | ok batch =>
        change (Program.ofExcept (batch.validateForRequest request.scope request.maxChanges) >>=
          _) >>= _ = Program.ofExcept (batch.validateForRequest request.scope request.maxChanges) >>= _
        rw [Program.bind_assoc]
        refine congrArg (Program.ofExcept _ >>= ·) (funext fun exact => ?_)
        rw [pageRest]
        refine Eq.trans (Program.bind_assoc _ _ _) ?_
        refine congrArg (Program.ofExcept _ >>= ·) (funext fun _ => ?_)
        exact Program.bind_assoc _ _ _
  have hchecked : (Program.ofExcept (batch.validateForRequest request.scope request.maxChanges) >>=
      fun exact => pageRest sha256 request formatVersion batch exact) =
      pageRest sha256 request formatVersion batch exact := by
    rw [hbatch]
    rfl
  rw [Answered, hpage, ← hchecked]
  constructor
  · rintro ⟨answer, rest, hlog, hrest⟩
    cases hlog
    exact hrest
  · exact fun h => ⟨_, log, rfl, h⟩

/-- The checks of a batch pass where each of its changes has one owning root: but for
changes of another connection and changes that come twice. -/
theorem validateChanges_of_owned {sourceConnectionId : SourceConnectionId}
    {changes : List PortableSourceChange}
    (howned : ∀ change ∈ changes, ∃ root, OwnedBy change.sourceObject root) :
    validateChanges sourceConnectionId changes = .ok () ∨
      validateChanges sourceConnectionId changes = invalidState otherConnectionMessage ∨
      ∃ change ∈ changes, validateChanges sourceConnectionId changes =
        invalidState (duplicateMessage change.sourceObject) := by
  have hfold : ∀ checks : ChangeChecks, checks.provenanceMode ≠ some false →
      (∃ next, changes.foldlM (validateChange sourceConnectionId) checks = .ok next) ∨
        changes.foldlM (validateChange sourceConnectionId) checks =
          invalidState otherConnectionMessage ∨
        ∃ change ∈ changes, changes.foldlM (validateChange sourceConnectionId) checks =
          invalidState (duplicateMessage change.sourceObject) := by
    induction changes with
    | nil => exact fun checks _ => Or.inl ⟨checks, rfl⟩
    | cons change changes ih =>
        intro checks hmode
        obtain ⟨⟨root, hroot⟩, howned⟩ := List.forall_mem_cons.mp howned
        rw [List.foldlM_cons]
        by_cases hconnection : change.sourceObject.sourceConnectionId ≠ sourceConnectionId
        · rw [validateChange, refuseIf, if_pos hconnection]
          exact Or.inr (Or.inl rfl)
        by_cases htwice : change.sourceObject.remoteId ∈ checks.remoteIds
        · rw [validateChange, refuseIf, if_neg hconnection, refuseIf, if_pos htwice]
          exact Or.inr (Or.inr ⟨change, List.mem_cons_self, rfl⟩)
        have hstep : validateChange sourceConnectionId checks change =
            .ok ⟨insert change.sourceObject.remoteId checks.remoteIds, some true⟩ := by
          rw [validateChange, refuseIf, if_neg hconnection, refuseIf, if_neg htwice,
            hroot.portableScopeRootRemoteId]
          cases hheld : checks.provenanceMode with
          | none => rfl
          | some expected =>
              cases expected with
              | false => exact absurd hheld hmode
              | true => rfl
        rw [hstep]
        obtain hnext | hrest | ⟨other, hother, hrest⟩ := ih howned
          ⟨insert change.sourceObject.remoteId checks.remoteIds, some true⟩ nofun
        · exact Or.inl hnext
        · exact Or.inr (Or.inl hrest)
        · exact Or.inr (Or.inr ⟨other, List.mem_cons_of_mem _ hother, hrest⟩)
  rw [validateChanges]
  obtain ⟨next, hnext⟩ | hrest | ⟨other, hother, hrest⟩ := hfold ⟨∅, none⟩ nofun
  · rw [hnext]
    exact Or.inl rfl
  · rw [hrest]
    exact Or.inr (Or.inl rfl)
  · rw [hrest]
    exact Or.inr (Or.inr ⟨other, hother, rfl⟩)

theorem validateScopeProvenance_of_owned {scope : PortableSourceScope}
    {change : PortableSourceChange} {root : RemoteId} (howned : OwnedBy change.sourceObject root) :
    validateScopeProvenance scope change = refuseIf (root ∉ scope.rootRemoteIds)
      "portable v2 connector returned source outside the requested scope".toList := by
  rw [validateScopeProvenance, howned.portableScopeRootRemoteId]
  rfl

/-- What the check of the roots refuses with. -/
theorem validateScopeProvenance_eq_error {scope : PortableSourceScope}
    {change : PortableSourceChange} {error : LocalityError}
    (h : validateScopeProvenance scope change = .error error) :
    ∃ message, error = .invalidState message := by
  rw [validateScopeProvenance, SourceObject.portableScopeRootRemoteId] at h
  split at h
  · exact ⟨_, (Except.error.inj h).symm⟩
  · rename_i edge hedges
    by_cases hroot : edge.targetRemoteId ∉ scope.rootRemoteIds
    · have hrefused : refuseIf (edge.targetRemoteId ∉ scope.rootRemoteIds)
          "portable v2 connector returned source outside the requested scope".toList =
            .error error := h
      rw [refuseIf, if_pos hroot] at hrefused
      exact ⟨_, (Except.error.inj hrefused).symm⟩
    · have hrefused : refuseIf (edge.targetRemoteId ∉ scope.rootRemoteIds)
          "portable v2 connector returned source outside the requested scope".toList =
            .error error := h
      rw [refuseIf, if_neg hroot] at hrefused
      cases hrefused
  · exact ⟨_, (Except.error.inj h).symm⟩

theorem validateV2BatchScopeProvenance_eq_error {scope : PortableSourceScope}
    {changes : List PortableSourceChange} {error : LocalityError}
    (h : validateV2BatchScopeProvenance scope changes = .error error) :
    ∃ message, error = .invalidState message := by
  obtain ⟨change, -, hchange⟩ := forM_eq_error h
  exact validateScopeProvenance_eq_error hchange

/-! ## Projecting without an exchange -/

def noPathMessage (object : SourceObject) : Text :=
  "portable source `".toList ++ object.remoteId.value ++
    "` requires fetch but has no logical path".toList

section Nothing

variable {sourceConnectionId : SourceConnectionId} {reason : PortableFetchReason}
  {held : ProjectedBatch} {projected : LocalityResult ProjectedBatch}

theorem runs_projectChange_nil {change : PortableSourceChange}
    (h : (projectChange sha256 sourceConnectionId reason formatVersion held change).Runs []
      projected) :
    (∃ batch, projected = .ok batch) ∨
      projected = invalidState (noPathMessage change.sourceObject) := by
  unfold projectChange at h
  split at h
  · exact Or.inl ⟨held, h.2⟩
  · split at h
    · exact Or.inr h.2
    · obtain ⟨_, _, hlog, -⟩ := h
      exact nomatch hlog

theorem runs_projectChanges_nil {changes : List PortableSourceChange}
    (h : (projectChanges sha256 sourceConnectionId reason formatVersion held changes).Runs []
      projected) :
    (∃ batch, projected = .ok batch) ∨
      ∃ object, projected = invalidState (noPathMessage object) := by
  induction changes generalizing held with
  | nil => exact Or.inl ⟨held, h.2⟩
  | cons change changes ih =>
      obtain ⟨error, hfirst, rfl⟩ | ⟨batch, first, rest, hlog, hfirst, hrest⟩ :=
        Program.runs_bind.mp h
      · obtain ⟨_, hok⟩ | herror := runs_projectChange_nil hfirst
        · exact nomatch hok
        · exact Or.inr ⟨change.sourceObject, congrArg Except.error (Except.error.inj herror)⟩
      · rw [(List.append_eq_nil_iff.mp hlog.symm).2] at hrest
        exact ih hrest

end Nothing

/-! ## Pages -/

def outsideMessage : Text :=
  "portable v2 connector returned source outside the requested scope".toList

/-- What a run that goes on, without an exchange, may end with. -/
theorem PassesProvenance.error_cases {error : LocalityError}
    (h : PassesProvenance sha256 request formatVersion batch [] (.error error)) :
    error = .invalidState otherConnectionMessage ∨
      (∃ object, error = .invalidState (duplicateMessage object)) ∨
      ∃ object, error = .invalidState (noPathMessage object) := by
  obtain ⟨-, h | ⟨change, -, h⟩⟩ | ⟨projected, hruns, h⟩ := h
  · exact Or.inl (Except.error.inj h)
  · exact Or.inr (Or.inl ⟨change.sourceObject, Except.error.inj h⟩)
  · obtain ⟨_, rfl⟩ | ⟨object, rfl⟩ := runs_projectChanges_nil hruns
    · exact nomatch h
    · exact Or.inr (Or.inr ⟨object, Except.error.inj h⟩)

theorem outsideMessage_ninth : outsideMessage[9]? = some 'v' := rfl

theorem duplicateMessage_ninth (object : SourceObject) :
    (duplicateMessage object)[9]? = some 'c' := rfl

theorem noPathMessage_ninth (object : SourceObject) : (noPathMessage object)[9]? = some 's' := rfl

/-- The messages of a run that goes on are not the one for roots outside of the scope. -/
theorem not_passesProvenance_outside : ¬ PassesProvenance sha256 request formatVersion batch []
    (.error (.invalidState outsideMessage)) := by
  intro h
  obtain h | ⟨object, h⟩ | ⟨object, h⟩ := h.error_cases
  · have hninth := congrArg (fun message : Text => message[9]?) (LocalityError.invalidState.inj h)
    exact absurd hninth (by decide)
  · have hninth := congrArg (fun message : Text => message[9]?) (LocalityError.invalidState.inj h)
    rw [outsideMessage_ninth, duplicateMessage_ninth] at hninth
    exact absurd hninth (by decide)
  · have hninth := congrArg (fun message : Text => message[9]?) (LocalityError.invalidState.inj h)
    rw [outsideMessage_ninth, noPathMessage_ninth] at hninth
    exact absurd hninth (by decide)

/-- A sequence that ends without more operations: how its first part ended. -/
theorem runs_bind_pure {α β : Type} {program : EngineProgram α} {finish : α → β}
    {result : LocalityResult β}
    (h : (program >>= fun value => pure (finish value)).Runs log result) :
    ∃ found, program.Runs log found ∧ result = found.map finish := by
  obtain ⟨error, hfirst, rfl⟩ | ⟨value, first, rest, rfl, hfirst, rfl, rfl⟩ := Program.runs_bind.mp h
  · exact ⟨.error error, hfirst, rfl⟩
  · rw [List.append_nil]
    exact ⟨.ok value, hfirst, rfl⟩

/-- A page whose roots are all checked goes on. -/
theorem passesProvenance_of_checked
    (howned : ∀ change ∈ batch.changes, ∃ root, OwnedBy change.sourceObject root)
    (hchecked : validateV2BatchScopeProvenance request.scope batch.changes = .ok ())
    (h : (pageRest sha256 request formatVersion batch exact).Runs log result) :
    PassesProvenance sha256 request formatVersion batch log result := by
  have hsorted : ∀ change, change ∈ batch.changes.insertionSort changeLe ↔
      change ∈ batch.changes := fun change => List.mem_insertionSort _
  rw [pageRest, hchecked] at h
  obtain ⟨found, hfound, rfl⟩ := runs_bind_pure h
  rw [projectBatch] at hfound
  obtain hvalid | hrefused | ⟨change, hchange, hrefused⟩ :=
    @validateChanges_of_owned request.sourceConnectionId
      (batch.changes.insertionSort changeLe)
      (fun change hchange => howned change ((hsorted change).mp hchange))
  · dsimp only at hfound
    rw [hvalid] at hfound
    obtain ⟨projected, hprojected, rfl⟩ := runs_bind_pure hfound
    refine Or.inr ⟨projected, hprojected, ?_⟩
    cases projected <;> rfl
  · dsimp only at hfound
    rw [hrefused] at hfound
    obtain ⟨rfl, rfl⟩ := hfound
    exact Or.inl ⟨rfl, Or.inl rfl⟩
  · dsimp only at hfound
    rw [hrefused] at hfound
    obtain ⟨rfl, rfl⟩ := hfound
    exact Or.inl ⟨rfl, Or.inr ⟨change, (hsorted change).mp hchange, rfl⟩⟩

/-- A page whose roots are refused ends there. -/
theorem refused_of_checked {error : LocalityError}
    (hchecked : validateV2BatchScopeProvenance request.scope batch.changes = .error error)
    (h : (pageRest sha256 request formatVersion batch exact).Runs log result) :
    log = [] ∧ result = .error error := by
  rw [pageRest, hchecked] at h
  exact h

theorem rootRemoteIds_eq_nil (hrequest : request.validate = .ok ())
    (hmode : request.scope.mode = .allShared) : request.scope.rootRemoteIds = [] := by
  obtain ⟨_, -, h⟩ := bind_eq_ok.mp hrequest
  obtain ⟨_, -, h⟩ := bind_eq_ok.mp h
  obtain ⟨_, -, h⟩ := bind_eq_ok.mp h
  obtain ⟨_, -, h⟩ := bind_eq_ok.mp h
  obtain ⟨_, hscope, -⟩ := bind_eq_ok.mp h
  obtain ⟨_, hscope, -⟩ := bind_eq_ok.mp hscope
  rw [validateScopeMode, hmode] at hscope
  exact not_not.mp (refuseIf_eq_ok.mp hscope)

/-! ## Scopes whose roots are checked as they are meant -/

/-- In a shared scope every root is admitted, and the first change is refused for its root. -/
theorem not_uniformProvenance_of_shared (hrequest : request.validate = .ok ())
    (hbatch : batch.validateForRequest request.scope request.maxChanges = .ok exact)
    (hmode : request.scope.mode = .allShared) (hsome : batch.changes ≠ [])
    (howned : ∀ change ∈ batch.changes, ∃ root, OwnedBy change.sourceObject root) :
    ¬ UniformProvenance sha256 request batch := by
  intro h
  have hadmitted : ∀ change ∈ batch.changes,
      ∃ root, OwnedBy change.sourceObject root ∧ Admits request.scope root := by
    intro change hchange
    obtain ⟨root, hroot⟩ := howned change hchange
    refine ⟨root, hroot, fun hrestricted => ?_⟩
    rw [hmode] at hrestricted
    exact nomatch hrestricted
  have hrefused : validateV2BatchScopeProvenance request.scope batch.changes =
      .error (.invalidState outsideMessage) := by
    obtain ⟨first, changes, hchanges⟩ := List.exists_cons_of_ne_nil hsome
    obtain ⟨root, hroot⟩ := howned first (hchanges ▸ List.mem_cons_self)
    have hfirst : validateScopeProvenance request.scope first =
        .error (.invalidState outsideMessage) := by
      rw [validateScopeProvenance_of_owned hroot, rootRemoteIds_eq_nil hrequest hmode]
      exact if_pos List.not_mem_nil
    have hstep : (validateScopeProvenance request.scope first >>= fun _ =>
        changes.forM (validateScopeProvenance request.scope)) =
          .error (.invalidState outsideMessage) := by
      rw [hfirst]
      rfl
    rw [hchanges]
    exact hstep
  refine not_passesProvenance_outside (h.admitted hadmitted 0 [] _ ?_)
  rw [answered_iff hrequest hbatch, pageRest, hrefused]
  exact ⟨rfl, rfl⟩

/-- Whether the roots of an accepted batch are checked by the rule of the scope of its
accepted request: not where the scope is shared, and there is a change. -/
theorem uniformProvenance_iff (hrequest : request.validate = .ok ())
    (hbatch : batch.validateForRequest request.scope request.maxChanges = .ok exact) :
    UniformProvenance sha256 request batch ↔ request.scope.mode = .restrictedRoots ∨
      batch.changes = [] ∨ ∃ change ∈ batch.changes, ∀ root, ¬ OwnedBy change.sourceObject root := by
  constructor
  · intro h
    cases hmode : request.scope.mode with
    | restrictedRoots => exact Or.inl rfl
    | allShared =>
        refine Or.inr (or_iff_not_imp_left.mpr fun hsome => by_contra fun hnone => ?_)
        refine not_uniformProvenance_of_shared hrequest hbatch hmode hsome ?_ h
        intro change hchange
        exact by_contra fun hnot => hnone ⟨change, hchange, not_exists.mp hnot⟩
  · intro h
    refine ⟨fun hadmitted formatVersion log result hruns => ?_,
      fun hforeign formatVersion log result hruns => ?_⟩
    · rw [answered_iff hrequest hbatch] at hruns
      have howned : ∀ change ∈ batch.changes, ∃ root, OwnedBy change.sourceObject root :=
        fun change hchange => (hadmitted change hchange).imp fun root hroot => hroot.1
      refine passesProvenance_of_checked howned (forM_eq_ok.mpr fun change hchange => ?_) hruns
      obtain ⟨root, hroot, hadmits⟩ := hadmitted change hchange
      rw [validateScopeProvenance_of_owned hroot]
      obtain hmode | hnil | ⟨other, hother, hnone⟩ := h
      · exact if_neg (not_not.mpr (hadmits hmode))
      · rw [hnil] at hchange
        exact nomatch hchange
      · obtain ⟨root, hroot⟩ := howned other hother
        exact absurd hroot (hnone root)
    · rw [answered_iff hrequest hbatch] at hruns
      obtain ⟨change, hchange, root, hroot, hforeign⟩ := hforeign
      cases hchecked : validateV2BatchScopeProvenance request.scope batch.changes with
      | ok u =>
          have hpassed := forM_eq_ok.mp hchecked change hchange
          rw [validateScopeProvenance_of_owned hroot] at hpassed
          exact absurd (fun _ => not_not.mp (refuseIf_eq_ok.mp hpassed)) hforeign
      | error error =>
          obtain ⟨message, rfl⟩ := validateV2BatchScopeProvenance_eq_error hchecked
          obtain ⟨hlog, hresult⟩ := refused_of_checked hchecked hruns
          exact ⟨hlog, message, hresult⟩

end Page

/-! ## Sample -/

/-- One change of the page that the root is swept with, of the root. -/
def rootedBatch : PortableChangeBatchV2 :=
  { sweepPages.head (by decide) with coveredRootRemoteIds := [sweepRoot] }

def sharedScopeRequest : PortableSyncRequestV2 := { sweepRequest with scope := ⟨.allShared, []⟩ }

theorem uniformProvenance_sweep : UniformProvenance (fun _ => []) sweepRequest rootedBatch :=
  (@uniformProvenance_iff _ _ _ true (by decide +kernel) (by decide +kernel)).mpr (Or.inl rfl)

/-- Each root is in the shared scope, and no change is. -/
theorem not_uniformProvenance_shared :
    sharedScopeRequest.validate = .ok () ∧
      rootedBatch.validateForRequest sharedScopeRequest.scope sharedScopeRequest.maxChanges = .ok false ∧
      ¬ UniformProvenance (fun _ => []) sharedScopeRequest rootedBatch := by
  have hrequest : sharedScopeRequest.validate = .ok () := by decide +kernel
  have hbatch : rootedBatch.validateForRequest sharedScopeRequest.scope sharedScopeRequest.maxChanges =
      .ok false := by decide +kernel
  refine ⟨hrequest, hbatch, not_uniformProvenance_of_shared hrequest hbatch rfl ?_ ?_⟩
  · exact List.cons_ne_nil _ _
  · intro change hchange
    obtain rfl := List.mem_singleton.mp hchange
    exact ⟨sweepRoot, _, rfl, rfl⟩

end Locality.Engine
