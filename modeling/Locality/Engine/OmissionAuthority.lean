/-
  Engine/OmissionAuthority.lean --- what a bounded synchronization guarantees, whatever its
  connector answers: how often it is asked, what its result has at most, and when the
  result says that what it omits is absent.
-/
import Locality.Engine.ProjectBatch

set_option autoImplicit false

namespace Locality.Engine

open Locality.Core Locality.Foundation Locality.Protocol Locality.Connector

/-! ## What a connector was asked, and answered -/

abbrev Exchange : Type := (op : ConnectorOp) × op.Answer

namespace Exchange

/-- The exchange is a dispatch of a synchronization. -/
def isDispatch : Exchange → Bool
  | ⟨.syncPortableV2 _, _⟩ => true
  | _ => false

def response : Exchange → Option PortableChangeBatchV2
  | ⟨.syncPortableV2 _, answer⟩ => (answer : LocalityResult PortableChangeBatchV2).toOption
  | _ => none

/-- What the answer says about completeness. -/
def report : Exchange → Option PortableCompleteness
  | ⟨.bootstrapPortable _, answer⟩ =>
      (answer : LocalityResult PortableChangeBatch).toOption.map PortableChangeBatch.completeness
  | ⟨.syncPortableV2 _, answer⟩ =>
      (answer : LocalityResult PortableChangeBatchV2).toOption.map
        PortableChangeBatchV2.completeness
  | ⟨.fetchPortable _, answer⟩ =>
      (answer : LocalityResult PortableFetchResult).toOption.map PortableFetchResult.completeness
  | ⟨.renderPortable _, answer⟩ =>
      (answer : LocalityResult PortableRenderResult).toOption.map PortableRenderResult.completeness

end Exchange

def dispatches (log : List Exchange) : Nat := log.countP Exchange.isDispatch

def responses (log : List Exchange) : List PortableChangeBatchV2 := log.filterMap Exchange.response

def reports (log : List Exchange) : List PortableCompleteness := log.filterMap Exchange.report

theorem responses_append (log log' : List Exchange) :
    responses (log ++ log') = responses log ++ responses log' := List.filterMap_append

theorem reports_append (log log' : List Exchange) :
    reports (log ++ log') = reports log ++ reports log' := List.filterMap_append

theorem dispatches_append (log log' : List Exchange) :
    dispatches (log ++ log') = dispatches log + dispatches log' := List.countP_append

/-! ## Programs that do not dispatch -/

/-- No run of the program dispatches a synchronization. -/
def Quiet {α : Type} (program : EngineProgram α) : Prop :=
  ∀ log result, program.Runs log result → ∀ exchange ∈ log, Exchange.isDispatch exchange = false

section Quiet

variable {α β : Type}

theorem quiet_pure (value : α) : Quiet (pure value : EngineProgram α) := by
  rintro log result ⟨rfl, -⟩
  exact nofun

theorem quiet_fail (error : LocalityError) : Quiet (.fail error : EngineProgram α) := by
  rintro log result ⟨rfl, -⟩
  exact nofun

theorem quiet_ofExcept (outcome : LocalityResult α) :
    Quiet (.ofExcept outcome : EngineProgram α) := by
  intro log result h
  obtain ⟨rfl, -⟩ := Program.runs_ofExcept.mp h
  exact nofun

theorem Quiet.bind {program : EngineProgram α} {next : α → EngineProgram β}
    (h : Quiet program) (hnext : ∀ value, Quiet (next value)) : Quiet (program >>= next) := by
  intro log result hrun
  rcases Program.runs_bind.mp hrun with ⟨error, herror, -⟩ |
    ⟨value, first, rest, rfl, hfirst, hrest⟩
  · exact h log _ herror
  · exact List.forall_mem_append.mpr ⟨h first _ hfirst, hnext value rest _ hrest⟩

theorem quiet_fetchPortable (request : PortableFetchRequest) : Quiet (fetchPortable request) := by
  refine Quiet.bind (fun log result h => ?_) fun _ => quiet_ofExcept _
  obtain ⟨answer, rfl, -⟩ := Program.runs_perform.mp h
  exact List.forall_mem_singleton.mpr rfl

theorem quiet_renderPortable (request : PortableRenderRequest) :
    Quiet (renderPortable request) := by
  refine Quiet.bind (fun log result h => ?_) fun _ => quiet_ofExcept _
  obtain ⟨answer, rfl, -⟩ := Program.runs_perform.mp h
  exact List.forall_mem_singleton.mpr rfl

variable {sha256 : List UInt8 → List UInt8} {sourceConnectionId : SourceConnectionId}
  {reason : PortableFetchReason} {formatVersion : UInt32}

theorem quiet_projectChange (batch : ProjectedBatch) (change : PortableSourceChange) :
    Quiet (projectChange sha256 sourceConnectionId reason formatVersion batch change) := by
  unfold projectChange
  split
  · exact quiet_pure batch
  · split
    · exact quiet_fail _
    · refine (quiet_fetchPortable _).bind fun fetched => ?_
      split
      · exact quiet_fail _
      · exact (quiet_renderPortable _).bind fun rendered => quiet_ofExcept _

theorem quiet_projectChanges (changes : List PortableSourceChange) : ∀ batch : ProjectedBatch,
    Quiet (projectChanges sha256 sourceConnectionId reason formatVersion batch changes) := by
  induction changes with
  | nil => exact fun batch => quiet_pure batch
  | cons change changes ih => exact fun batch => (quiet_projectChange batch change).bind ih

theorem quiet_projectBatch (batch : PortableChangeBatch) :
    Quiet (projectBatch sha256 sourceConnectionId batch reason formatVersion) :=
  (quiet_ofExcept _).bind fun _ => (quiet_projectChanges _ _).bind fun _ => quiet_pure _

end Quiet

theorem dispatches_eq_zero {log : List Exchange}
    (h : ∀ exchange ∈ log, Exchange.isDispatch exchange = false) : dispatches log = 0 :=
  List.countP_eq_zero.mpr fun exchange hmem => by rw [h exchange hmem]; exact nofun

theorem responses_eq_nil {log : List Exchange}
    (h : ∀ exchange ∈ log, Exchange.isDispatch exchange = false) : responses log = [] := by
  refine List.filterMap_eq_nil_iff.mpr fun exchange hmem => ?_
  have hquiet := h exchange hmem
  obtain ⟨op, answer⟩ := exchange
  cases op with
  | syncPortableV2 request => cases hquiet
  | bootstrapPortable request => rfl
  | fetchPortable request => rfl
  | renderPortable request => rfl

/-! ## Pages -/

section Page

variable {sha256 : List UInt8 → List UInt8} {sourceConnectionId : SourceConnectionId}
  {reason : PortableFetchReason} {formatVersion : UInt32}

theorem runs_fetchPortable {request : PortableFetchRequest} {log : List Exchange}
    {fetched : PortableFetchResult} (h : (fetchPortable request).Runs log (.ok fetched)) :
    log = [⟨.fetchPortable request, (.ok fetched : LocalityResult PortableFetchResult)⟩] := by
  obtain ⟨answer, first, rest, rfl, hask, hanswer⟩ := Program.runs_bind_ok.mp h
  obtain ⟨_, rfl, heq⟩ := Program.runs_perform.mp hask
  cases heq
  obtain ⟨rfl, houtcome⟩ := Program.runs_ofExcept.mp hanswer
  rw [List.append_nil]
  exact congrArg (fun found : LocalityResult PortableFetchResult =>
    [(⟨.fetchPortable request, found⟩ : Exchange)]) houtcome.symm

theorem runs_renderPortable {request : PortableRenderRequest} {log : List Exchange}
    {rendered : PortableRenderResult} (h : (renderPortable request).Runs log (.ok rendered)) :
    log = [⟨.renderPortable request, (.ok rendered : LocalityResult PortableRenderResult)⟩] := by
  obtain ⟨answer, first, rest, rfl, hask, hanswer⟩ := Program.runs_bind_ok.mp h
  obtain ⟨_, rfl, heq⟩ := Program.runs_perform.mp hask
  cases heq
  obtain ⟨rfl, houtcome⟩ := Program.runs_ofExcept.mp hanswer
  rw [List.append_nil]
  exact congrArg (fun found : LocalityResult PortableRenderResult =>
    [(⟨.renderPortable request, found⟩ : Exchange)]) houtcome.symm

theorem runs_projectChange {batch next : ProjectedBatch} {change : PortableSourceChange}
    {log : List Exchange}
    (h : (projectChange sha256 sourceConnectionId reason formatVersion batch change).Runs log
      (.ok next)) :
    ∃ sources : List RenderedSource, sources.map RenderedSource.change = [change].filter isFetched ∧
      sources.foldlM (addSource sha256 formatVersion) batch = .ok next ∧
      reports log = sourceReports sources := by
  unfold projectChange at h
  split at h
  · rename_i hskip
    obtain ⟨rfl, heq⟩ := Program.runs_pure.mp h
    cases heq
    refine ⟨[], ?_, rfl, rfl⟩
    rw [List.filter_cons_of_neg, List.filter_nil, List.map_nil]
    rcases hskip with hdeleted | hfetch
    · rw [isFetched, hdeleted]
      exact nofun
    · rw [isFetched, hfetch, Bool.and_false]
      exact nofun
  · rename_i hskip
    have hfetched : isFetched change = true := by
      rw [not_or, Bool.not_eq_true, Bool.not_eq_false] at hskip
      rw [isFetched, hskip.1, hskip.2]
      rfl
    split at h
    · obtain ⟨-, herror⟩ := h
      cases herror
    · rename_i logicalPath _
      obtain ⟨fetched, first, rest, rfl, hfetch, h⟩ := Program.runs_bind_ok.mp h
      split at h
      · obtain ⟨-, herror⟩ := h
        cases herror
      · obtain ⟨rendered, second, last, rfl, hrender, h⟩ := Program.runs_bind_ok.mp h
        obtain ⟨rfl, hadd⟩ := Program.runs_ofExcept.mp h
        rw [runs_fetchPortable hfetch, runs_renderPortable hrender]
        refine ⟨[⟨change, fetched, rendered⟩], ?_, ?_, rfl⟩
        · rw [List.filter_cons_of_pos hfetched]
          rfl
        · exact bind_eq_ok.mpr ⟨next, hadd.symm, rfl⟩

theorem runs_projectChanges (changes : List PortableSourceChange) :
    ∀ {batch next : ProjectedBatch} {log : List Exchange},
    (projectChanges sha256 sourceConnectionId reason formatVersion batch changes).Runs log
      (.ok next) →
    ∃ sources : List RenderedSource, sources.map RenderedSource.change = changes.filter isFetched ∧
      sources.foldlM (addSource sha256 formatVersion) batch = .ok next ∧
      reports log = sourceReports sources := by
  induction changes with
  | nil =>
      intro batch next log h
      obtain ⟨rfl, heq⟩ := Program.runs_pure.mp h
      cases heq
      exact ⟨[], rfl, rfl, rfl⟩
  | cons change changes ih =>
      intro batch next log h
      obtain ⟨middle, first, rest, rfl, hfirst, hrest⟩ := Program.runs_bind_ok.mp h
      obtain ⟨sources, hchange, hadd, hreports⟩ := runs_projectChange hfirst
      obtain ⟨sources', hchanges, hadd', hreports'⟩ := ih hrest
      refine ⟨sources ++ sources', ?_, ?_, ?_⟩
      · rw [List.map_append, hchange, hchanges, ← List.filter_append, List.singleton_append]
      · rw [List.foldlM_append]
        exact bind_eq_ok.mpr ⟨middle, hadd, hadd'⟩
      · rw [reports_append, hreports, hreports', sourceReports, sourceReports, sourceReports,
          List.flatMap_append]

theorem runs_projectBatch {batch : PortableChangeBatch} {page : UnpersistedSynchronizationBatch}
    {log : List Exchange}
    (h : (projectBatch sha256 sourceConnectionId batch reason formatVersion).Runs log (.ok page)) :
    ∃ sources, IsPage sha256 formatVersion sourceConnectionId batch sources page ∧
      reports log = sourceReports sources := by
  obtain ⟨_, first, rest, rfl, hchecked, hrest⟩ := Program.runs_bind_ok.mp h
  obtain ⟨rfl, hvalid⟩ := Program.runs_ofExcept.mp hchecked
  obtain ⟨projected, second, last, rfl, hprojected, hlast⟩ := Program.runs_bind_ok.mp hrest
  obtain ⟨rfl, hpage⟩ := Program.runs_pure.mp hlast
  obtain ⟨sources, hfetched, hadd, hreports⟩ := runs_projectChanges _ hprojected
  cases hpage
  refine ⟨sources, ⟨validateChanges_eq_ok.mp hvalid.symm, hfetched, projected, hadd, rfl⟩, ?_⟩
  rw [List.nil_append, List.append_nil, hreports]

end Page

/-! ## Pages of a synchronization -/

section Synchronization

variable {sha256 : List UInt8 → List UInt8} {formatVersion : UInt32}

/-- Only the reason that pages are left is reported. -/
def OnlyContinuation (completeness : PortableCompleteness) : Prop :=
  ∀ reason ∈ completeness.incompleteReasons, reason = .checkpointContinuation

theorem onlyContinuation_of_isComplete {completeness : PortableCompleteness}
    (h : completeness.isComplete = true) : OnlyContinuation completeness :=
  fun reason hmem => absurd hmem ((PortableCompleteness.isComplete_iff.mp h).2 reason)

theorem isComplete_foldl_incomplete (reasons : List PortableIncompleteReason) :
    ∀ completeness : PortableCompleteness,
      (reasons.foldl (fun preserved reason => preserved.merge (.incomplete reason))
        completeness).isComplete = true → reasons = [] := by
  induction reasons with
  | nil => exact fun _ _ => rfl
  | cons reason reasons ih =>
      intro completeness h
      cases ih _ h
      exact nomatch (PortableCompleteness.isComplete_merge.mp h).2

/-- What is complete without the continuation reported nothing else. -/
theorem onlyContinuation_of_preserved {completeness : PortableCompleteness}
    (h : (completenessWithoutContinuation completeness).2.isComplete = true) :
    OnlyContinuation completeness := by
  intro reason hmem
  have hnil := isComplete_foldl_incomplete _ _ h
  exact not_not.mp fun hne => List.filter_eq_nil_iff.mp hnil reason hmem (decide_eq_true hne)

/-- A pass that inserts each identifier ends with the set of them. -/
theorem foldlM_insert {step : Finset RemoteId → RemoteId → LocalityResult (Finset RemoteId)}
    (hstep : ∀ seen id next, step seen id = .ok next → next = insert id seen)
    (ids : List RemoteId) : ∀ {seen next : Finset RemoteId},
      ids.foldlM step seen = .ok next → next = seen ∪ ids.toFinset := by
  induction ids with
  | nil =>
      intro seen next h
      cases h
      rw [List.toFinset_nil, Finset.union_empty]
  | cons id ids ih =>
      intro seen next h
      obtain ⟨middle, hfirst, hrest⟩ := bind_eq_ok.mp h
      rw [ih hrest, hstep seen id middle hfirst, List.toFinset_cons, Finset.insert_union,
        Finset.union_insert]

theorem insertDistinct_eq_ok {duplicate : Text} {seen next : Finset RemoteId} {id : RemoteId}
    (h : insertDistinct duplicate seen id = .ok next) : next = insert id seen :=
  (Except.ok.inj (ite_throw_eq_ok.mp h).2).symm

theorem validatePortableSyncV2Scope_eq_ok {scope : PortableSourceScope} {roots : Finset RemoteId}
    (h : validatePortableSyncV2Scope scope = .ok roots) : roots = scope.rootRemoteIds.toFinset := by
  obtain ⟨_, -, h⟩ := bind_eq_ok.mp h
  obtain ⟨_, -, h⟩ := bind_eq_ok.mp h
  rw [foldlM_insert _ _ h, Finset.empty_union]
  intro seen id next hstep
  obtain ⟨_, -, hstep⟩ := bind_eq_ok.mp hstep
  exact insertDistinct_eq_ok hstep

theorem hasExactScopeCoverage_eq_ok {batch : PortableChangeBatchV2} {scope : PortableSourceScope}
    {exact : Bool} (h : batch.hasExactScopeCoverage scope = .ok exact) :
    exact = decide (batch.coveredRootRemoteIds.toFinset = scope.rootRemoteIds.toFinset) := by
  obtain ⟨_, -, h⟩ := bind_eq_ok.mp h
  obtain ⟨requested, hrequested, h⟩ := bind_eq_ok.mp h
  obtain ⟨covered, hcovered, h⟩ := bind_eq_ok.mp h
  have hset : covered = batch.coveredRootRemoteIds.toFinset := by
    rw [foldlM_insert _ _ hcovered, Finset.empty_union]
    intro seen id next hstep
    obtain ⟨_, -, hstep⟩ := bind_eq_ok.mp hstep
    obtain ⟨inserted, hinsert, hstep⟩ := bind_eq_ok.mp hstep
    obtain ⟨_, -, hstep⟩ := bind_eq_ok.mp hstep
    rw [← insertDistinct_eq_ok hinsert]
    exact (Except.ok.inj hstep).symm
  rw [← hset, ← validatePortableSyncV2Scope_eq_ok hrequested]
  exact (Except.ok.inj h).symm

theorem validateForRequest_eq_ok {batch : PortableChangeBatchV2} {scope : PortableSourceScope}
    {maxChanges : UInt32} {exact : Bool} (h : batch.validateForRequest scope maxChanges = .ok exact) :
    exact = decide (batch.coveredRootRemoteIds.toFinset = scope.rootRemoteIds.toFinset) := by
  obtain ⟨_, -, h⟩ := bind_eq_ok.mp h
  obtain ⟨_, -, h⟩ := bind_eq_ok.mp h
  obtain ⟨_, -, h⟩ := bind_eq_ok.mp h
  exact hasExactScopeCoverage_eq_ok h

theorem validateScopeProvenance_eq_ok {scope : PortableSourceScope} {change : PortableSourceChange}
    {u : Unit} (h : validateScopeProvenance scope change = .ok u) :
    ∃ root ∈ scope.rootRemoteIds,
      change.sourceObject.portableScopeRootRemoteId = .ok (some root) := by
  obtain ⟨root, hroot, h⟩ := bind_eq_ok.mp h
  cases root with
  | none => cases h
  | some root => exact ⟨root, not_not.mp (refuseIf_eq_ok.mp h), hroot⟩

/-- What a page is, whose synchronization was answered with the batch. -/
structure IsSyncPage (sha256 : List UInt8 → List UInt8) (formatVersion : UInt32)
    (request : PortableSyncRequestV2) (batch : PortableChangeBatchV2)
    (sources : List RenderedSource) (page : ProjectedSynchronizationPageV2) : Prop where
  projected : IsPage sha256 formatVersion request.sourceConnectionId
    ⟨batch.changes, batch.nextCheckpoint,
      (completenessWithoutContinuation batch.completeness).2⟩ sources page.result.batch
  inScope : ∀ change ∈ batch.changes, ∃ root ∈ request.scope.rootRemoteIds,
    change.sourceObject.portableScopeRootRemoteId = .ok (some root)
  authority : page.result.authority = batch.authority
  covered : page.coveredRootRemoteIds = batch.coveredRootRemoteIds
  exact : page.hasExactScopeCoverage =
    decide (batch.coveredRootRemoteIds.toFinset = request.scope.rootRemoteIds.toFinset)

theorem dispatches_syncPortableV2 {request : PortableSyncRequestV2} {log : List Exchange}
    {result : LocalityResult PortableChangeBatchV2}
    (h : (dispatchPortableSyncV2 request).Runs log result) : dispatches log ≤ 1 := by
  rcases Program.runs_bind.mp h with ⟨error, hchecked, -⟩ | ⟨_, first, rest, rfl, hchecked, hrest⟩
  · obtain ⟨rfl, -⟩ := Program.runs_ofExcept.mp hchecked
    exact Nat.zero_le _
  · obtain ⟨rfl, -⟩ := Program.runs_ofExcept.mp hchecked
    rcases Program.runs_bind.mp hrest with ⟨error, hask, -⟩ |
      ⟨answer, second, last, rfl, hask, hanswer⟩
    · obtain ⟨answer, -, herror⟩ := Program.runs_perform.mp hask
      cases herror
    · obtain ⟨_, rfl, -⟩ := Program.runs_perform.mp hask
      obtain ⟨rfl, -⟩ := Program.runs_ofExcept.mp hanswer
      exact Nat.le_refl 1

theorem runs_dispatchPortableSyncV2 {request : PortableSyncRequestV2} {log : List Exchange}
    {batch : PortableChangeBatchV2} (h : (dispatchPortableSyncV2 request).Runs log (.ok batch)) :
    log = [⟨.syncPortableV2 request, (.ok batch : LocalityResult PortableChangeBatchV2)⟩] := by
  obtain ⟨_, first, rest, rfl, hchecked, hrest⟩ := Program.runs_bind_ok.mp h
  obtain ⟨rfl, -⟩ := Program.runs_ofExcept.mp hchecked
  obtain ⟨answer, second, last, rfl, hask, hanswer⟩ := Program.runs_bind_ok.mp hrest
  obtain ⟨_, rfl, heq⟩ := Program.runs_perform.mp hask
  cases heq
  obtain ⟨rfl, houtcome⟩ := Program.runs_ofExcept.mp hanswer
  exact congrArg (fun found : LocalityResult PortableChangeBatchV2 =>
    [(⟨.syncPortableV2 request, found⟩ : Exchange)]) houtcome.symm

/-- A page asks for one synchronization at most. -/
theorem dispatches_page {request : PortableSyncRequestV2} {strip : Bool} {remaining : Option Nat}
    {log : List Exchange} {result : LocalityResult ProjectedSynchronizationPageV2}
    (h : (synchronizeAndProjectPortableV2Page sha256 request formatVersion strip remaining).Runs
      log result) : dispatches log ≤ 1 := by
  rcases Program.runs_bind.mp h with ⟨error, hask, -⟩ | ⟨batch, first, rest, rfl, hask, hrest⟩
  · exact dispatches_syncPortableV2 hask
  · have hquiet : ∀ exchange ∈ rest, Exchange.isDispatch exchange = false := by
      refine (?_ : Quiet _) rest result hrest
      refine (quiet_ofExcept _).bind fun exact => (quiet_ofExcept _).bind fun _ => ?_
      split
      · exact quiet_fail _
      · exact (quiet_projectBatch _).bind fun _ => quiet_pure _
    rw [dispatches_append, dispatches_eq_zero hquiet]
    exact dispatches_syncPortableV2 hask

theorem runs_page {request : PortableSyncRequestV2} {remaining : Option Nat}
    {log : List Exchange} {page : ProjectedSynchronizationPageV2}
    (h : (synchronizeAndProjectPortableV2Page sha256 request formatVersion true remaining).Runs log
      (.ok page)) :
    ∃ batch sources, IsSyncPage sha256 formatVersion request batch sources page ∧
      responses log = [batch] ∧
      reports log = batch.completeness :: sourceReports sources := by
  obtain ⟨batch, first, rest, rfl, hask, hrest⟩ := Program.runs_bind_ok.mp h
  obtain ⟨exact, second, rest, rfl, hchecked, hrest⟩ := Program.runs_bind_ok.mp hrest
  obtain ⟨_, third, rest, rfl, hprovenance, hrest⟩ := Program.runs_bind_ok.mp hrest
  split at hrest
  · cases hrest.2
  · obtain ⟨projected, fourth, rest, rfl, hprojected, hrest⟩ := Program.runs_bind_ok.mp hrest
    obtain ⟨rfl, hpage⟩ := Program.runs_pure.mp hrest
    cases hpage
    obtain ⟨rfl, hexact⟩ := Program.runs_ofExcept.mp hchecked
    obtain ⟨rfl, hroots⟩ := Program.runs_ofExcept.mp hprovenance
    obtain ⟨sources, hpage, hreports⟩ := runs_projectBatch hprojected
    refine ⟨batch, sources, ⟨hpage, fun change hmem =>
      validateScopeProvenance_eq_ok (forM_eq_ok.mp hroots.symm change hmem), rfl, rfl,
      validateForRequest_eq_ok hexact.symm⟩, ?_, ?_⟩
    · rw [runs_dispatchPortableSyncV2 hask, List.nil_append, List.nil_append, List.append_nil,
        responses_append, responses_eq_nil (quiet_projectBatch _ fourth _ hprojected)]
      rfl
    · rw [runs_dispatchPortableSyncV2 hask, List.nil_append, List.nil_append, List.append_nil,
        reports_append, hreports]
      rfl

/-! ## Sweeps -/

/-- What the pages of a log left in the aggregate. -/
structure Swept (limits : AggregationLimits) (scope : PortableSourceScope) (log : List Exchange)
    (held : SynchronizationAggregateV2) : Prop where
  holds : ∃ pages, held.aggregate.Holds pages ∧
    ∀ change ∈ pages.flatMap (·.observedChanges), ∃ root ∈ scope.rootRemoteIds,
      change.sourceObject.portableScopeRootRemoteId = .ok (some root)
  changes : held.aggregate.totalChanges ≤ limits.maxTotalChanges
  bytes : held.aggregate.totalContentBytes ≤ limits.maxTotalContentBytes
  covered : ∀ root, root ∈ held.coveredRootRemoteIds ↔
    ∃ response ∈ responses log, root ∈ response.coveredRootRemoteIds
  complete : held.aggregate.completeness.isComplete = true →
    ∀ report ∈ reports log, OnlyContinuation report

theorem swept_new (limits : AggregationLimits) (scope : PortableSourceScope) :
    Swept limits scope [] .new where
  holds := ⟨[], Aggregate.holds_new, List.forall_mem_nil _⟩
  changes := Nat.zero_le _
  bytes := Nat.zero_le _
  covered := fun _ => iff_of_false (Finset.notMem_empty _) fun ⟨_, hmem, _⟩ => nomatch hmem
  complete := fun _ => List.forall_mem_nil _

theorem Swept.push {limits : AggregationLimits} {request : PortableSyncRequestV2}
    {log rest : List Exchange} {held next : SynchronizationAggregateV2}
    {page : ProjectedSynchronizationPageV2} {batch : PortableChangeBatchV2}
    {sources : List RenderedSource} {scope : PortableSourceScope}
    (h : Swept limits scope log held) (hrequest : request.scope = scope)
    (hpage : IsSyncPage sha256 formatVersion request batch sources page)
    (hresponses : responses rest = [batch])
    (hreports : reports rest = batch.completeness :: sourceReports sources)
    (hpush : held.push page.result.batch page.coveredRootRemoteIds limits = .ok next) :
    Swept limits scope (log ++ rest) next := by
  subst hrequest
  obtain ⟨aggregate, hrows, hnext⟩ := bind_eq_ok.mp hpush
  cases hnext
  obtain ⟨hadmits, hfits, rfl⟩ := Aggregate.push_eq_ok.mp hrows
  obtain ⟨pages, hholds, hscope⟩ := h.holds
  refine ⟨⟨pages ++ [page.result.batch], hholds.pushed hpage.projected.distinct hadmits _, ?_⟩,
    hfits.changes, hfits.bytes, fun root => ?_, fun hcomplete => ?_⟩
  · rw [List.flatMap_append, List.flatMap_singleton, List.forall_mem_append]
    refine ⟨hscope, fun change hmem => hpage.inScope change ?_⟩
    exact hpage.projected.observedChanges.mem_iff.mp hmem
  · rw [Finset.mem_union, h.covered, List.mem_toFinset, hpage.covered, responses_append, hresponses]
    simp only [List.mem_append, List.mem_singleton, or_and_right, exists_or, exists_eq_left]
  · obtain ⟨hbefore, hlast⟩ := PortableCompleteness.isComplete_merge.mp hcomplete
    obtain ⟨hbatch, hsources⟩ := hpage.projected.isComplete.mp hlast
    rw [reports_append, hreports, List.forall_mem_append, List.forall_mem_cons]
    exact ⟨h.complete hbefore, onlyContinuation_of_preserved hbatch, fun report hmem =>
      onlyContinuation_of_isComplete (hsources report hmem)⟩

/-! ## The loop -/

/-- The loop asks once for each checkpoint at most. -/
theorem dispatches_syncV2Loop {request : PortableSyncRequestV2} {limits : AggregationLimits}
    (checkpoints : Nat) : ∀ {current : PortableCheckpoint} {seen : Finset (UInt16 × Text)}
      {held : SynchronizationAggregateV2} {log : List Exchange}
      {result : LocalityResult UnpersistedSynchronizationBatchV2},
      (syncV2Loop sha256 request formatVersion limits checkpoints current seen held).Runs log
        result → dispatches log ≤ checkpoints := by
  induction checkpoints with
  | zero =>
      rintro current seen held log result ⟨rfl, -⟩
      exact Nat.le_refl 0
  | succ checkpoints ih =>
      intro current seen held log result h
      rcases Program.runs_bind.mp h with ⟨error, hask, -⟩ | ⟨page, first, rest, rfl, hask, hrest⟩
      · exact Nat.le_trans (dispatches_page hask) (Nat.le_add_left 1 checkpoints)
      · have hloop : dispatches rest ≤ checkpoints := by
          split at hrest
          · rw [hrest.1]
            exact Nat.zero_le _
          · rcases Program.runs_bind.mp hrest with ⟨error, hseen, -⟩ |
              ⟨seen', second, rest, rfl, hseen, hrest⟩
            · rw [(Program.runs_ofExcept.mp hseen).1]
              exact Nat.zero_le _
            · rw [(Program.runs_ofExcept.mp hseen).1, List.nil_append]
              rcases Program.runs_bind.mp hrest with ⟨error, hpush, -⟩ |
                ⟨next, third, rest, rfl, hpush, hrest⟩
              · rw [(Program.runs_ofExcept.mp hpush).1]
                exact Nat.zero_le _
              · rw [(Program.runs_ofExcept.mp hpush).1, List.nil_append]
                split at hrest
                · exact ih hrest
                · rw [(Program.runs_pure.mp hrest).1]
                  exact Nat.zero_le _
        rw [dispatches_append, Nat.add_comm checkpoints]
        exact Nat.add_le_add (dispatches_page hask) hloop

/-- What a loop ends with: the aggregate of all pages, and the answer of the last one. -/
theorem runs_syncV2Loop {request : PortableSyncRequestV2} {limits : AggregationLimits}
    (checkpoints : Nat) : ∀ {current : PortableCheckpoint} {seen : Finset (UInt16 × Text)}
      {held : SynchronizationAggregateV2} {before log : List Exchange}
      {value : UnpersistedSynchronizationBatchV2}, Swept limits request.scope before held →
      (syncV2Loop sha256 request formatVersion limits checkpoints current seen held).Runs log
        (.ok value) →
      ∃ final last, Swept limits request.scope (before ++ log) final ∧
        (responses log).getLast? = some last ∧
        value = final.finish request.sourceConnectionId last.nextCheckpoint request.scope
          request.mode last.authority
          (decide (last.coveredRootRemoteIds.toFinset = request.scope.rootRemoteIds.toFinset)) := by
  induction checkpoints with
  | zero =>
      rintro current seen held before log value hswept ⟨-, herror⟩
      cases herror
  | succ checkpoints ih =>
      intro current seen held before log value hswept h
      obtain ⟨page, first, rest, rfl, hask, hrest⟩ := Program.runs_bind_ok.mp h
      obtain ⟨batch, sources, hpage, hresponses, hreports⟩ := runs_page hask
      split at hrest
      · cases hrest.2
      · obtain ⟨seen', second, rest, rfl, hseen, hpushed⟩ := Program.runs_bind_ok.mp hrest
        obtain ⟨next, third, rest, rfl, hpush, hlast⟩ := Program.runs_bind_ok.mp hpushed
        obtain ⟨rfl, -⟩ := Program.runs_ofExcept.mp hseen
        obtain ⟨rfl, hnext⟩ := Program.runs_ofExcept.mp hpush
        have hstep : Swept limits request.scope (before ++ first) next := by
          refine hswept.push ?_ hpage hresponses hreports hnext.symm
          rfl
        rw [List.nil_append, List.nil_append]
        split at hlast
        · obtain ⟨final, last, hfinal, hresponse, hvalue⟩ := ih hstep hlast
          refine ⟨final, last, by rw [← List.append_assoc]; exact hfinal, ?_, hvalue⟩
          rw [responses_append, List.getLast?_append, hresponse]
          rfl
        · obtain ⟨rfl, hvalue⟩ := Program.runs_pure.mp hlast
          refine ⟨next, batch, by rw [List.append_nil]; exact hstep, ?_, ?_⟩
          · rw [List.append_nil, hresponses]
            rfl
          · rw [Except.ok.inj hvalue, hpage.authority, hpage.exact,
              hpage.projected.nextCheckpoint]

/-- A result says that what it omits is absent only behind a complete sweep of the scope,
whatever the connector answers; and its rows are distinct, of the scope and within the
limits. -/
theorem omission_of_complete_sweep {request : PortableSyncRequestV2} {limits : AggregationLimits}
    {log : List Exchange} {result : LocalityResult UnpersistedSynchronizationBatchV2}
    (h : (synchronizeAndProjectPortableV2ToCompletion sha256 request formatVersion limits).Runs
      log result) :
    dispatches log ≤ limits.maxCheckpoints ∧ ∀ swept, result = .ok swept →
      swept.batch.observedChanges.length ≤ limits.maxTotalChanges ∧
      Aggregate.contentBytes swept.batch.contents ≤ limits.maxTotalContentBytes ∧
      swept.batch.Distinct ∧
      (∀ change ∈ swept.batch.observedChanges, ∃ root ∈ request.scope.rootRemoteIds,
        change.sourceObject.portableScopeRootRemoteId = .ok (some root)) ∧
      (swept.authorizesOmission = true →
        request.mode = .reconcileScope ∧
        (∃ last, (responses log).getLast? = some last ∧
          last.authority = .completeScopeSnapshot ∧
          ∀ root, root ∈ last.coveredRootRemoteIds ↔ root ∈ request.scope.rootRemoteIds) ∧
        (∀ root, (∃ response ∈ responses log, root ∈ response.coveredRootRemoteIds) ↔
          root ∈ request.scope.rootRemoteIds) ∧
        ∀ report ∈ reports log, ∀ reason ∈ report.incompleteReasons,
          reason = .checkpointContinuation) := by
  rcases Program.runs_bind.mp h with ⟨error, hlimits, rfl⟩ |
    ⟨_, first, rest, rfl, hlimits, hloop⟩
  · rw [(Program.runs_ofExcept.mp hlimits).1]
    exact ⟨Nat.zero_le _, nofun⟩
  · rw [(Program.runs_ofExcept.mp hlimits).1, List.nil_append]
    refine ⟨dispatches_syncV2Loop _ hloop, ?_⟩
    rintro swept rfl
    obtain ⟨final, last, hfinal, hlast, rfl⟩ :=
      runs_syncV2Loop _ (swept_new limits request.scope) hloop
    rw [List.nil_append] at hfinal
    obtain ⟨pages, hholds, hscope⟩ := hfinal.holds
    refine ⟨?_, ?_, hholds.distinct_finish _ _, fun change hmem =>
      hscope change (hholds.changes.mem_iff.mp hmem), fun homits => ?_⟩
    · refine Nat.le_trans (Nat.le_of_eq ?_) hfinal.changes
      rw [hholds.totalChanges]
      exact hholds.changes.length_eq
    · refine Nat.le_trans (Nat.le_of_eq ?_) hfinal.bytes
      rw [hholds.totalContentBytes]
      exact (hholds.contents.map ImmutableContentCandidate.byteLength).sum_nat
    · have hset : ∀ {covered : Finset RemoteId},
          covered = request.scope.rootRemoteIds.toFinset → ∀ root,
            root ∈ covered ↔ root ∈ request.scope.rootRemoteIds := by
        rintro covered rfl root
        exact List.mem_toFinset
      rw [SynchronizationAggregateV2.finish, Bool.and_eq_true, Bool.and_eq_true, Bool.and_eq_true,
        Bool.and_eq_true, decide_eq_true_eq, decide_eq_true_eq, decide_eq_true_eq,
        decide_eq_true_eq] at homits
      obtain ⟨⟨⟨⟨hmode, hauthority⟩, hcomplete⟩, hexact⟩, hcovered⟩ := homits
      refine ⟨hmode, ⟨last, hlast, hauthority, fun root => ?_⟩, fun root => ?_,
        hfinal.complete hcomplete⟩
      · rw [← hset hexact root, List.mem_toFinset]
      · rw [← hset hcovered root, hfinal.covered]

end Synchronization

/-! ## A sweep of two pages -/

def sweepRoot : RemoteId := ⟨"root".toList⟩

/-- The request to reconcile the root. -/
def sweepRequest : PortableSyncRequestV2 where
  sourceConnectionId := ⟨"c".toList⟩
  scope := ⟨.restrictedRoots, [sweepRoot]⟩
  checkpoint := ⟨1, "start".toList⟩
  mode := .reconcileScope
  hints := []
  maxChanges := 10

/-- A page that reports a deletion and goes on, and one that covers the root. -/
def sweepPages : List PortableChangeBatchV2 :=
  [{ changes := [{
       sourceObject := {
         sourceConnectionId := ⟨"c".toList⟩
         remoteId := ⟨"gone".toList⟩
         kind := .page
         edges := [⟨portableScopeRootRelationship, sweepRoot⟩]
         opaqueVersion := none
         deleted := true
         connectorMetadata := []
         aclObservations := []
         discoveredAt := none
         observedAt := none }
       logicalPath := none
       requiresFetch := false }]
     nextCheckpoint := ⟨1, "middle".toList⟩
     completeness := .incomplete .checkpointContinuation
     coveredRootRemoteIds := []
     authority := .incremental },
   { changes := []
     nextCheckpoint := ⟨1, "end".toList⟩
     completeness := .full
     coveredRootRemoteIds := [sweepRoot]
     authority := .completeScopeSnapshot }]

/-- A connector that answers a synchronization with the next page. -/
def answerPages : (op : ConnectorOp) → List PortableChangeBatchV2 →
    op.Answer × List PortableChangeBatchV2
  | .syncPortableV2 _, page :: pages => (.ok page, pages)
  | .syncPortableV2 _, [] => (invalidState [], [])
  | .bootstrapPortable _, pages => (invalidState [], pages)
  | .fetchPortable _, pages => (invalidState [], pages)
  | .renderPortable _, pages => (invalidState [], pages)

def sweepResult : LocalityResult UnpersistedSynchronizationBatchV2 :=
  ((synchronizeAndProjectPortableV2ToCompletion (fun _ => []) sweepRequest 1 ⟨2, 10, 10⟩).run
    answerPages sweepPages).1

theorem omission_of_complete_sweep_twoPages :
    ∃ log swept, sweepResult = .ok swept ∧ swept.authorizesOmission = true ∧
      dispatches log ≤ 2 ∧ swept.batch.Distinct ∧
      ∀ report ∈ reports log, ∀ reason ∈ report.incompleteReasons,
        reason = .checkpointContinuation := by
  obtain ⟨log, hlog⟩ := Program.exists_runs answerPages
    (synchronizeAndProjectPortableV2ToCompletion (fun _ => []) sweepRequest 1 ⟨2, 10, 10⟩) sweepPages
  have hresult : (sweepResult.toOption.map
      UnpersistedSynchronizationBatchV2.authorizesOmission) = some true := by decide +kernel
  cases hswept : sweepResult with
  | error error =>
      rw [hswept] at hresult
      cases hresult
  | ok swept =>
      rw [hswept] at hresult
      have homits : swept.authorizesOmission = true := Option.some.inj hresult
      obtain ⟨hdispatches, hall⟩ := omission_of_complete_sweep hlog
      obtain ⟨-, -, hdistinct, -, hauthority⟩ := hall swept hswept
      exact ⟨log, swept, rfl, homits, hdispatches, hdistinct, (hauthority homits).2.2.2⟩

end Locality.Engine
