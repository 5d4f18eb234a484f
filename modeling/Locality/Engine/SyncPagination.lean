/-
  Engine/SyncPagination.lean --- a synchronization over pages and over the list as one page:
  they agree but where two pages render one artifact key.
-/
import Locality.Engine.OmissionAuthority
import Locality.Engine.Pagination

set_option autoImplicit false

namespace Locality.Engine

open Locality.Core Locality.Foundation Locality.Protocol Locality.Connector

/-! ## Requests and pages -/

/-- The source is under a root of the scope. -/
def InScope (scope : PortableSourceScope) (change : PortableSourceChange) : Prop :=
  ∃ root ∈ scope.rootRemoteIds, change.sourceObject.portableScopeRootRemoteId = .ok (some root)

theorem validateV2BatchScopeProvenance_eq_ok {scope : PortableSourceScope}
    {changes : List PortableSourceChange} {u : Unit} :
    validateV2BatchScopeProvenance scope changes = .ok u ↔
      ∀ change ∈ changes, InScope scope change := by
  rw [validateV2BatchScopeProvenance, forM_eq_ok]
  refine forall_congr' fun change => forall_congr' fun _ => ?_
  constructor
  · exact validateScopeProvenance_eq_ok
  · rintro ⟨root, hmem, hroot⟩
    exact bind_eq_ok.mpr ⟨some root, hroot, refuseIf_eq_ok.mpr (not_not.mpr hmem)⟩

/-- A request stays valid at another checkpoint that is short enough. -/
theorem validate_at_checkpoint {request : PortableSyncRequestV2} {checkpoint : PortableCheckpoint}
    (h : request.validate = .ok ())
    (hshort : utf8Length checkpoint.opaqueState ≤ portableSyncV2MaxCheckpointBytes) :
    PortableSyncRequestV2.validate { request with checkpoint } = .ok () := by
  obtain ⟨_, hconnection, h⟩ := bind_eq_ok.mp h
  obtain ⟨_, -, h⟩ := bind_eq_ok.mp h
  exact bind_eq_ok.mpr ⟨(), hconnection, bind_eq_ok.mpr ⟨(),
    refuseIf_eq_ok.mpr (Nat.not_lt.mpr hshort), h⟩⟩

/-- A request that is valid bounds the changes of a page. -/
theorem maxChanges_of_validate {request : PortableSyncRequestV2} (h : request.validate = .ok ()) :
    validateMaxChanges request.maxChanges = .ok () := by
  obtain ⟨_, -, h⟩ := bind_eq_ok.mp h
  obtain ⟨_, -, h⟩ := bind_eq_ok.mp h
  obtain ⟨_, -, h⟩ := bind_eq_ok.mp h
  obtain ⟨_, hmax, -⟩ := bind_eq_ok.mp h
  exact hmax

namespace PortablePage

/-- The page as a batch. -/
def plain (page : PortableChangeBatchV2) : PortableChangeBatch :=
  ⟨page.changes, page.nextCheckpoint, page.completeness⟩

/-- The batch that is projected of the page. -/
def stripped (page : PortableChangeBatchV2) : PortableChangeBatch :=
  ⟨page.changes, page.nextCheckpoint, (completenessWithoutContinuation page.completeness).2⟩

end PortablePage

open PortablePage

/-- Pages in a row that a synchronization accepts as answers to its requests: each but the
last one continues at a new checkpoint, and the coverage, the checkpoints and the number of
the changes are within the bounds of the request. -/
structure IsSyncCut (request : PortableSyncRequestV2) (seen : Finset (UInt16 × Text))
    (earlier : List PortableChangeBatchV2) (last : PortableChangeBatchV2) : Prop where
  cut : IsCut seen (earlier.map plain) (plain last)
  covered : ∀ page ∈ earlier ++ [last], ∃ exact,
    page.hasExactScopeCoverage request.scope = .ok exact
  checkpoints : ∀ page ∈ earlier ++ [last],
    utf8Length page.nextCheckpoint.opaqueState ≤ portableSyncV2MaxCheckpointBytes
  count : ((earlier ++ [last]).flatMap (·.changes)).length ≤ request.maxChanges.toNat

theorem IsSyncCut.tail {request : PortableSyncRequestV2} {seen : Finset (UInt16 × Text)}
    {page : PortableChangeBatchV2} {earlier : List PortableChangeBatchV2}
    {last : PortableChangeBatchV2} (h : IsSyncCut request seen (page :: earlier) last) :
    IsSyncCut request (insert (checkpointIdentity page.nextCheckpoint) seen) earlier last where
  cut := h.cut.tail
  covered := (List.forall_mem_cons.mp h.covered).2
  checkpoints := (List.forall_mem_cons.mp h.checkpoints).2
  count := by
    have hcount := h.count
    rw [List.cons_append, List.flatMap_cons, List.length_append] at hcount
    exact Nat.le_trans (Nat.le_add_left _ _) hcount

theorem IsSyncCut.accepts {request : PortableSyncRequestV2} {seen : Finset (UInt16 × Text)}
    {earlier : List PortableChangeBatchV2} {last : PortableChangeBatchV2}
    (h : IsSyncCut request seen earlier last)
    (hmax : validateMaxChanges request.maxChanges = .ok ()) {page : PortableChangeBatchV2}
    (hmem : page ∈ earlier ++ [last]) :
    ∃ exact, page.validateForRequest request.scope request.maxChanges = .ok exact := by
  obtain ⟨exact, hexact⟩ := h.covered page hmem
  have hlength : page.changes.length ≤ request.maxChanges.toNat := by
    refine Nat.le_trans ?_ h.count
    rw [List.flatMap]
    exact (List.sublist_flatten_of_mem (List.mem_map_of_mem hmem)).length_le
  exact ⟨exact, bind_eq_ok.mpr ⟨(), hmax, bind_eq_ok.mpr ⟨(),
    refuseIf_eq_ok.mpr (Nat.not_lt.mpr hlength), bind_eq_ok.mpr ⟨(),
      refuseIf_eq_ok.mpr (Nat.not_lt.mpr (h.checkpoints page hmem)), hexact⟩⟩⟩⟩

/-! ## The loop -/

section Synchronization

variable {connector : PureConnector} {sha256 : List UInt8 → List UInt8}
  {request : PortableSyncRequestV2} {formatVersion : UInt32} {limits : AggregationLimits}
  {bootstrap : List PortableChangeBatch}

/-- The page that is made of a batch that was projected. -/
def pageOf (request : PortableSyncRequestV2) (page : PortableChangeBatchV2) (exact : Bool)
    (out : UnpersistedSynchronizationBatch) : ProjectedSynchronizationPageV2 where
  result := {
    batch := out
    scope := request.scope
    mode := request.mode
    authority := page.authority
    authorizesOmission := decide (request.mode = .reconcileScope) &&
      decide (page.authority = .completeScopeSnapshot) &&
      !decide (.checkpointContinuation ∈ page.completeness.incompleteReasons) &&
      out.completeness.isComplete && exact }
  coveredRootRemoteIds := page.coveredRootRemoteIds
  hasCheckpointContinuation := decide (.checkpointContinuation ∈ page.completeness.incompleteReasons)
  hasExactScopeCoverage := exact

theorem run_page_eq_ok {page : PortableChangeBatchV2} {pages : List PortableChangeBatchV2}
    {remaining : Nat} {exact : Bool} {result : ProjectedSynchronizationPageV2} {left : PagesLeft}
    (hvalid : request.validate = .ok ())
    (hexact : page.validateForRequest request.scope request.maxChanges = .ok exact) :
    (synchronizeAndProjectPortableV2Page sha256 request formatVersion true (some remaining)).run
      connector.paged ⟨bootstrap, page :: pages⟩ = (.ok result, left) ↔
      left = ⟨bootstrap, pages⟩ ∧ (∀ change ∈ page.changes, InScope request.scope change) ∧
        page.changes.length ≤ remaining ∧ ∃ out,
          ProjectsTo connector sha256 request.sourceConnectionId .synchronization formatVersion
            (stripped page) out ∧ result = pageOf request page exact out := by
  have hdispatch : (dispatchPortableSyncV2 request).run connector.paged ⟨bootstrap, page :: pages⟩ =
      (.ok page, ⟨bootstrap, pages⟩) :=
    (Program.run_bind_eq_ok connector.paged).mpr ⟨(), _,
      (Program.run_ofExcept_eq_ok connector.paged).mpr ⟨hvalid, rfl⟩, rfl⟩
  have hchecked : (Program.ofExcept (page.validateForRequest request.scope request.maxChanges) :
      EngineProgram Bool).run connector.paged ⟨bootstrap, pages⟩ =
        (.ok exact, ⟨bootstrap, pages⟩) :=
    (Program.run_ofExcept_eq_ok connector.paged).mpr ⟨hexact, rfl⟩
  rw [synchronizeAndProjectPortableV2Page, Program.run_bind_of_ok connector.paged hdispatch,
    Program.run_bind_of_ok connector.paged hchecked]
  constructor
  · intro h
    obtain ⟨_, middle, hroots, hrest⟩ := (Program.run_bind_eq_ok connector.paged).mp h
    obtain ⟨hscope, rfl⟩ := (Program.run_ofExcept_eq_ok connector.paged).mp hroots
    split at hrest
    · exact nomatch congrArg Prod.fst hrest
    · rename_i hremaining
      obtain ⟨out, last, hprojected, hlast⟩ := (Program.run_bind_eq_ok connector.paged).mp hrest
      obtain ⟨rfl, hout⟩ := (run_projectBatch_eq_ok connector.answers_paged).mp hprojected
      rw [Option.any_some, decide_eq_true_eq, Nat.not_lt] at hremaining
      cases hlast
      exact ⟨rfl, validateV2BatchScopeProvenance_eq_ok.mp hscope, hremaining, out, hout, rfl⟩
  · rintro ⟨rfl, hscope, hremaining, out, hout, rfl⟩
    refine (Program.run_bind_eq_ok connector.paged).mpr ⟨(), _,
      (Program.run_ofExcept_eq_ok connector.paged).mpr
        ⟨validateV2BatchScopeProvenance_eq_ok.mpr hscope, rfl⟩, ?_⟩
    rw [if_neg (by rw [Option.any_some, decide_eq_true_eq, Nat.not_lt]; exact hremaining)]
    exact (Program.run_bind_eq_ok connector.paged).mpr ⟨out, _,
      (run_projectBatch_eq_ok connector.answers_paged).mpr ⟨rfl, hout⟩, rfl⟩

/-- A page with what it reports. -/
def withReported (out : UnpersistedSynchronizationBatch) : PushedPage := (out, out.completeness)

/-- One page of the loop. -/
theorem run_syncV2Loop_succ {page : PortableChangeBatchV2} {pages : List PortableChangeBatchV2}
    {checkpoints : Nat} {current : PortableCheckpoint} {seen : Finset (UInt16 × Text)}
    {held : SynchronizationAggregateV2} {value : UnpersistedSynchronizationBatchV2}
    {left : PagesLeft} {exact : Bool}
    (hvalid : PortableSyncRequestV2.validate { request with checkpoint := current } = .ok ())
    (hexact : page.validateForRequest request.scope request.maxChanges = .ok exact) :
    (syncV2Loop sha256 request formatVersion limits (checkpoints + 1) current seen held).run
      connector.paged ⟨bootstrap, page :: pages⟩ = (.ok value, left) ↔
      (∀ change ∈ page.changes, InScope request.scope change) ∧ ∃ out seen' next,
        ProjectsTo connector sha256 request.sourceConnectionId .synchronization formatVersion
          (stripped page) out ∧
        (if .checkpointContinuation ∈ page.completeness.incompleteReasons then
          validateContinuationCheckpoint syncV2ContinuationErrors (some current)
            page.nextCheckpoint seen
        else pure seen) = .ok seen' ∧
        held.aggregate.push syncV2Run out out.completeness limits = .ok next ∧
        (if .checkpointContinuation ∈ page.completeness.incompleteReasons then
          syncV2Loop sha256 request formatVersion limits checkpoints page.nextCheckpoint seen'
            ⟨next, held.coveredRootRemoteIds ∪ page.coveredRootRemoteIds.toFinset⟩
        else pure (SynchronizationAggregateV2.finish
          ⟨next, held.coveredRootRemoteIds ∪ page.coveredRootRemoteIds.toFinset⟩
          request.sourceConnectionId page.nextCheckpoint request.scope request.mode page.authority
          exact)).run connector.paged ⟨bootstrap, pages⟩ = (.ok value, left) := by
  constructor
  · intro h
    obtain ⟨result, middle, hpage, hrest⟩ := (Program.run_bind_eq_ok connector.paged).mp h
    obtain ⟨rfl, hscope, -, out, hout, rfl⟩ := (run_page_eq_ok hvalid hexact).mp hpage
    split at hrest
    · exact nomatch congrArg Prod.fst hrest
    · obtain ⟨seen', middle, hseen, hpushed⟩ := (Program.run_bind_eq_ok connector.paged).mp hrest
      obtain ⟨hfound, rfl⟩ := (Program.run_ofExcept_eq_ok connector.paged).mp hseen
      obtain ⟨next, middle, hpush, hlast⟩ := (Program.run_bind_eq_ok connector.paged).mp hpushed
      obtain ⟨hheld, rfl⟩ := (Program.run_ofExcept_eq_ok connector.paged).mp hpush
      obtain ⟨aggregate, haggregate, hnext⟩ := bind_eq_ok.mp hheld
      cases hnext
      have hcheckpoint : out.nextCheckpoint = page.nextCheckpoint := by
        obtain ⟨sources, -, hout⟩ := hout
        exact hout.nextCheckpoint
      simp only [pageOf, decide_eq_true_eq, hcheckpoint] at hfound hlast
      exact ⟨hscope, out, seen', aggregate, hout, hfound, haggregate, hlast⟩
  · rintro ⟨hscope, out, seen', next, hout, hseen, hpush, hlast⟩
    have hpage := hout
    obtain ⟨sources, -, hpage⟩ := hpage
    have hcheckpoint : out.nextCheckpoint = page.nextCheckpoint := hpage.nextCheckpoint
    have hremaining : page.changes.length ≤ held.remainingChanges limits := by
      have hfits := (Aggregate.push_eq_ok.mp hpush).2.1.changes
      have hcount : out.observedChanges.length = page.changes.length :=
        hpage.observedChanges.length_eq
      rw [SynchronizationAggregateV2.remainingChanges]
      omega
    refine (Program.run_bind_eq_ok connector.paged).mpr
      ⟨pageOf { request with checkpoint := current } page exact out, ⟨bootstrap, pages⟩,
        (run_page_eq_ok hvalid hexact).mpr ⟨rfl, hscope, hremaining, out, hout, rfl⟩, ?_⟩
    rw [if_neg (by
      rw [not_or, not_or, not_not, not_not, not_not]
      exact ⟨hpage.sourceConnectionId, rfl, rfl⟩)]
    refine (Program.run_bind_eq_ok connector.paged).mpr ⟨seen', ⟨bootstrap, pages⟩,
      (Program.run_ofExcept_eq_ok connector.paged).mpr ⟨?_, rfl⟩,
      (Program.run_bind_eq_ok connector.paged).mpr
        ⟨⟨next, held.coveredRootRemoteIds ∪ page.coveredRootRemoteIds.toFinset⟩,
          ⟨bootstrap, pages⟩, (Program.run_ofExcept_eq_ok connector.paged).mpr
            ⟨bind_eq_ok.mpr ⟨next, hpush, rfl⟩, rfl⟩, ?_⟩⟩
    · simp only [pageOf, decide_eq_true_eq, hcheckpoint]
      exact hseen
    · simp only [pageOf, decide_eq_true_eq, hcheckpoint]
      exact hlast

theorem run_syncV2Loop_eq_ok (earlier : List PortableChangeBatchV2)
    {last : PortableChangeBatchV2} :
    ∀ {checkpoints : Nat} {current : PortableCheckpoint} {seen : Finset (UInt16 × Text)}
      {held : SynchronizationAggregateV2} {batch : UnpersistedSynchronizationBatch}
      {left : PagesLeft},
    IsSyncCut request seen earlier last → earlier.length < checkpoints →
    checkpointIdentity current ∈ seen → request.validate = .ok () →
    utf8Length current.opaqueState ≤ portableSyncV2MaxCheckpointBytes →
    ((∃ value, (syncV2Loop sha256 request formatVersion limits checkpoints current seen held).run
      connector.paged ⟨bootstrap, earlier ++ [last]⟩ = (.ok value, left) ∧ value.batch = batch) ↔
      left = ⟨bootstrap, []⟩ ∧
      (∀ change ∈ (earlier ++ [last]).flatMap (·.changes), InScope request.scope change) ∧
      ∃ outs out final,
        ProjectsAll connector sha256 request.sourceConnectionId .synchronization formatVersion
          (earlier.map stripped) outs ∧
        ProjectsTo connector sha256 request.sourceConnectionId .synchronization formatVersion
          (stripped last) out ∧
        pushAll syncV2Run limits held.aggregate ((outs ++ [out]).map withReported) = .ok final ∧
        batch = final.finish request.sourceConnectionId last.nextCheckpoint) := by
  induction earlier with
  | nil =>
      intro checkpoints current seen held batch left hcut hlength hcurrent hrequest hshort
      obtain ⟨checkpoints, rfl⟩ : ∃ n, checkpoints = n + 1 := ⟨_, (Nat.sub_add_cancel hlength).symm⟩
      have hmax := maxChanges_of_validate hrequest
      have hvalid := validate_at_checkpoint hrequest hshort
      obtain ⟨exact, hexact⟩ := hcut.accepts hmax (List.mem_append_right [] List.mem_cons_self)
      have hends : .checkpointContinuation ∉ last.completeness.incompleteReasons := hcut.cut.ends
      rw [List.nil_append, List.flatMap_singleton]
      constructor
      · rintro ⟨value, hrun, rfl⟩
        obtain ⟨hscope, out, seen', next, hout, hseen, hpush, hlast⟩ :=
          (run_syncV2Loop_succ hvalid hexact).mp hrun
        rw [if_neg hends] at hlast
        cases hlast
        exact ⟨rfl, hscope, [], out, next, List.Forall₂.nil, hout,
          bind_eq_ok.mpr ⟨next, hpush, rfl⟩, rfl⟩
      · rintro ⟨rfl, hscope, outs, out, final, houts, hout, hpush, rfl⟩
        cases houts
        obtain ⟨next, hpush, hfinal⟩ := bind_eq_ok.mp hpush
        cases hfinal
        refine ⟨SynchronizationAggregateV2.finish
          ⟨final, held.coveredRootRemoteIds ∪ last.coveredRootRemoteIds.toFinset⟩
          request.sourceConnectionId last.nextCheckpoint request.scope request.mode
          last.authority exact, (run_syncV2Loop_succ hvalid hexact).mpr ⟨hscope, out, seen, final,
            hout, ?_, hpush, ?_⟩, rfl⟩
        · rw [if_neg hends]
          rfl
        · rw [if_neg hends]
          rfl
  | cons page earlier ih =>
      intro checkpoints current seen held batch left hcut hlength hcurrent hrequest hshort
      obtain ⟨checkpoints, rfl⟩ : ∃ n, checkpoints = n + 1 :=
        ⟨_, (Nat.sub_add_cancel (Nat.lt_of_le_of_lt (Nat.zero_le _) hlength)).symm⟩
      have hmax := maxChanges_of_validate hrequest
      have hvalid := validate_at_checkpoint hrequest hshort
      have hmem : page ∈ page :: earlier ++ [last] := List.mem_cons_self
      obtain ⟨exact, hexact⟩ := hcut.accepts hmax hmem
      have hcontinues : .checkpointContinuation ∈ page.completeness.incompleteReasons := by
        have hpage : (plain page).completeness = .incomplete .checkpointContinuation :=
          hcut.cut.continues (plain page) List.mem_cons_self
        have hpage : page.completeness = .incomplete .checkpointContinuation := hpage
        rw [hpage]
        exact List.mem_cons_self
      have hseen : validateContinuationCheckpoint syncV2ContinuationErrors (some current)
          page.nextCheckpoint seen = .ok (insert (checkpointIdentity page.nextCheckpoint) seen) := by
        refine validateContinuationCheckpoint_of_fresh
          (hcut.cut.nonempty (plain page) List.mem_cons_self)
          (hcut.cut.fresh (plain page) List.mem_cons_self) fun checkpoint heq => ?_
        cases heq
        exact hcurrent
      have hnext := hcut.checkpoints page hmem
      have hlength := Nat.lt_of_succ_lt_succ hlength
      rw [List.cons_append, List.flatMap_cons, List.forall_mem_append, List.map_cons]
      constructor
      · rintro ⟨value, hrun, rfl⟩
        obtain ⟨hscope, out, seen', next, hout, hfound, hpush, hlast⟩ :=
          (run_syncV2Loop_succ hvalid hexact).mp hrun
        rw [if_pos hcontinues] at hfound hlast
        cases hseen.symm.trans hfound
        obtain ⟨rfl, hrest, outs, last', final, houts, hlast', hpushes, hbatch⟩ :=
          (ih hcut.tail hlength (Finset.mem_insert_self _ _) hrequest hnext).mp ⟨value, hlast, rfl⟩
        exact ⟨rfl, ⟨hscope, hrest⟩, out :: outs, last', final, List.Forall₂.cons hout houts,
          hlast', bind_eq_ok.mpr ⟨next, hpush, hpushes⟩, hbatch⟩
      · rintro ⟨rfl, ⟨hscope, hrest⟩, outs, out, final, houts, hout, hpushes, rfl⟩
        cases houts with
        | @cons _ first _ rest hfirst hothers =>
            obtain ⟨next, hpush, hpushes⟩ := bind_eq_ok.mp hpushes
            have hlater : ∃ value, (syncV2Loop sha256 request formatVersion limits checkpoints
                page.nextCheckpoint (insert (checkpointIdentity page.nextCheckpoint) seen)
                ⟨next, held.coveredRootRemoteIds ∪ page.coveredRootRemoteIds.toFinset⟩).run
                  connector.paged ⟨bootstrap, earlier ++ [last]⟩ =
                    (.ok value, ⟨bootstrap, []⟩) ∧
                value.batch = final.finish request.sourceConnectionId last.nextCheckpoint :=
              (ih hcut.tail hlength (Finset.mem_insert_self _ _) hrequest hnext).mpr
                ⟨rfl, hrest, rest, out, final, hothers, hout, hpushes, rfl⟩
            obtain ⟨value, hlast, hbatch⟩ := hlater
            refine ⟨value, (run_syncV2Loop_succ hvalid hexact).mpr ⟨hscope, first,
              insert (checkpointIdentity page.nextCheckpoint) seen, next, hfirst, ?_, hpush, ?_⟩,
              hbatch⟩
            · rw [if_pos hcontinues]
              exact hseen
            · rw [if_pos hcontinues]
              exact hlast

/-- A loop that succeeds had a valid request. -/
theorem validate_of_run {checkpoints : Nat} {current : PortableCheckpoint}
    {seen : Finset (UInt16 × Text)} {held : SynchronizationAggregateV2}
    {value : UnpersistedSynchronizationBatchV2} {start left : PagesLeft}
    (h : (syncV2Loop sha256 request formatVersion limits checkpoints current seen held).run
      connector.paged start = (.ok value, left)) :
    PortableSyncRequestV2.validate { request with checkpoint := current } = .ok () := by
  cases checkpoints with
  | zero => exact nomatch congrArg Prod.fst h
  | succ checkpoints =>
      obtain ⟨page, middle, hpage, -⟩ := (Program.run_bind_eq_ok connector.paged).mp h
      obtain ⟨batch, middle, hask, -⟩ := (Program.run_bind_eq_ok connector.paged).mp hpage
      obtain ⟨_, middle, hchecked, -⟩ := (Program.run_bind_eq_ok connector.paged).mp hask
      exact ((Program.run_ofExcept_eq_ok connector.paged).mp hchecked).1

end Synchronization

/-! ## Agreement -/

/-- A synchronization over the pages. -/
def syncV2Over (connector : PureConnector) (sha256 : List UInt8 → List UInt8)
    (request : PortableSyncRequestV2) (formatVersion : UInt32) (limits : AggregationLimits)
    (pages : List PortableChangeBatchV2) : LocalityResult UnpersistedSynchronizationBatch :=
  ((synchronizeAndProjectPortableV2ToCompletion sha256 request formatVersion limits).run
    connector.paged ⟨[], pages⟩).1.map UnpersistedSynchronizationBatchV2.batch

/-- The checkpoint that a synchronization has seen before it asks. -/
def syncStart (request : PortableSyncRequestV2) : Finset (UInt16 × Text) :=
  {checkpointIdentity request.checkpoint}

/-- The list of the changes of some pages, as one page. -/
def wholeOfV2 (earlier : List PortableChangeBatchV2) (last : PortableChangeBatchV2) :
    PortableChangeBatchV2 :=
  { last with changes := (earlier ++ [last]).flatMap (·.changes) }

section Agreement

variable {connector : PureConnector} {sha256 : List UInt8 → List UInt8}
  {request : PortableSyncRequestV2} {formatVersion : UInt32} {limits : AggregationLimits}
  {earlier : List PortableChangeBatchV2} {last : PortableChangeBatchV2}

theorem map_eq_ok {ε α β : Type} {f : α → β} {outcome : Except ε α} {b : β} :
    outcome.map f = .ok b ↔ ∃ a, outcome = .ok a ∧ f a = b := by
  cases outcome with
  | error error => exact iff_of_false nofun fun ⟨_, h, _⟩ => nomatch h
  | ok a =>
      constructor
      · exact fun h => ⟨a, rfl, Except.ok.inj h⟩
      · rintro ⟨a', heq, rfl⟩
        cases heq
        rfl

theorem syncV2Over_eq_ok {batch : UnpersistedSynchronizationBatch}
    (hcut : IsSyncCut request (syncStart request) earlier last)
    (hlength : earlier.length < limits.maxCheckpoints) :
    syncV2Over connector sha256 request formatVersion limits (earlier ++ [last]) = .ok batch ↔
      request.validate = .ok () ∧ limits.Nonzero ∧
      (∀ change ∈ (earlier ++ [last]).flatMap (·.changes), InScope request.scope change) ∧
      ∃ outs out final,
        ProjectsAll connector sha256 request.sourceConnectionId .synchronization formatVersion
          (earlier.map stripped) outs ∧
        ProjectsTo connector sha256 request.sourceConnectionId .synchronization formatVersion
          (stripped last) out ∧
        pushAll syncV2Run limits .new ((outs ++ [out]).map withReported) = .ok final ∧
        batch = final.finish request.sourceConnectionId last.nextCheckpoint := by
  have hcurrent : checkpointIdentity request.checkpoint ∈ syncStart request :=
    Finset.mem_singleton_self _
  have hshort : request.validate = .ok () →
      utf8Length request.checkpoint.opaqueState ≤ portableSyncV2MaxCheckpointBytes := by
    intro hvalid
    obtain ⟨_, -, h⟩ := bind_eq_ok.mp hvalid
    obtain ⟨_, hlimit, -⟩ := bind_eq_ok.mp h
    exact Nat.not_lt.mp (refuseIf_eq_ok.mp hlimit)
  rw [syncV2Over, map_eq_ok]
  constructor
  · rintro ⟨value, hvalue, hbatch⟩
    obtain ⟨left, h⟩ : ∃ left,
        (synchronizeAndProjectPortableV2ToCompletion sha256 request formatVersion limits).run
          connector.paged ⟨[], earlier ++ [last]⟩ = (.ok value, left) := ⟨_, Prod.ext hvalue rfl⟩
    obtain ⟨_, middle, hlimits, hrest⟩ := (Program.run_bind_eq_ok connector.paged).mp h
    obtain ⟨hnonzero, rfl⟩ := (Program.run_ofExcept_eq_ok connector.paged).mp hlimits
    have hvalid : request.validate = .ok () := validate_of_run hrest
    exact ⟨hvalid, AggregationLimits.validate_eq_ok.mp hnonzero,
      ((run_syncV2Loop_eq_ok earlier hcut hlength hcurrent hvalid (hshort hvalid)).mp
        ⟨value, hrest, hbatch⟩).2⟩
  · rintro ⟨hvalid, hnonzero, hpages⟩
    have hlast : ∃ value, (syncV2Loop sha256 request formatVersion limits limits.maxCheckpoints
        request.checkpoint (syncStart request) .new).run connector.paged ⟨[], earlier ++ [last]⟩ =
          (.ok value, ⟨[], []⟩) ∧ value.batch = batch :=
      (run_syncV2Loop_eq_ok earlier hcut hlength hcurrent hvalid (hshort hvalid)).mpr ⟨rfl, hpages⟩
    obtain ⟨value, hloop, hbatch⟩ := hlast
    have hrun : (synchronizeAndProjectPortableV2ToCompletion sha256 request formatVersion
        limits).run connector.paged ⟨[], earlier ++ [last]⟩ = (.ok value, ⟨[], []⟩) :=
      (Program.run_bind_eq_ok connector.paged).mpr ⟨(), ⟨[], earlier ++ [last]⟩,
        (Program.run_ofExcept_eq_ok connector.paged).mpr
          ⟨AggregationLimits.validate_eq_ok.mpr hnonzero, rfl⟩, hloop⟩
    exact ⟨value, congrArg Prod.fst hrun, hbatch⟩

theorem flatMap_stripped (pages : List PortableChangeBatchV2) :
    (pages.map stripped).flatMap PortableChangeBatch.changes =
      pages.flatMap PortableChangeBatchV2.changes := by
  rw [List.flatMap_map]
  rfl

theorem sameProvenance_of_inScope {scope : PortableSourceScope}
    {changes : List PortableSourceChange} (h : ∀ change ∈ changes, InScope scope change) :
    SameProvenance changes := by
  refine ⟨true, fun change hmem => ?_⟩
  obtain ⟨root, -, hroot⟩ := h change hmem
  exact ⟨some root, hroot, rfl⟩

/-- A synchronization over pages succeeds exactly if its request is valid, the list is sound
and in the scope, and no artifact key is rendered on two pages. -/
theorem exists_syncV2Over_iff (hcut : IsSyncCut request (syncStart request) earlier last)
    (hlength : earlier.length < limits.maxCheckpoints) :
    (∃ batch, syncV2Over connector sha256 request formatVersion limits (earlier ++ [last]) =
      .ok batch) ↔
      request.validate = .ok () ∧ limits.Nonzero ∧
      (∀ change ∈ (earlier ++ [last]).flatMap (·.changes), InScope request.scope change) ∧
      Sound connector sha256 request.sourceConnectionId .synchronization formatVersion limits
        ((earlier ++ [last]).flatMap (·.changes)) ∧
      KeysApart connector request.sourceConnectionId .synchronization formatVersion
        ((earlier ++ [last]).map stripped) := by
  have hfst : ∀ outs : List UnpersistedSynchronizationBatch,
      (outs.map withReported).map Prod.fst = outs := by
    intro outs
    rw [List.map_map]
    exact List.map_id outs
  have hmap : (earlier ++ [last]).map stripped = earlier.map stripped ++ [stripped last] := by
    rw [List.map_append, List.map_singleton]
  have hdistinctPages : ∀ {all : List UnpersistedSynchronizationBatch},
      ProjectsAll connector sha256 request.sourceConnectionId .synchronization formatVersion
        ((earlier ++ [last]).map stripped) all →
      ∀ page ∈ all.map withReported, page.1.Distinct := by
    intro all hall page hmem
    obtain ⟨found, hfound, rfl⟩ := List.mem_map.mp hmem
    exact distinct_of_projectsAll hall found hfound
  constructor
  · rintro ⟨batch, h⟩
    obtain ⟨hvalid, hnonzero, hscope, outs, out, final, houts, hout, hpush, -⟩ :=
      (syncV2Over_eq_ok hcut hlength).mp h
    have hall := projectsAll_append.mpr ⟨outs, out, rfl, houts, hout⟩
    rw [← hmap] at hall
    obtain ⟨hdistinct, hfit, -⟩ := pushAll_eq_ok _ (hdistinctPages hall) hpush
    rw [hfst] at hdistinct hfit
    obtain ⟨hsound, -, hapart⟩ := exists_pages_iff.mp ⟨_, hall, hdistinct, hfit⟩
    rw [flatMap_stripped] at hsound
    exact ⟨hvalid, hnonzero, hscope, hsound, hapart⟩
  · rintro ⟨hvalid, hnonzero, hscope, hsound, hapart⟩
    rw [← flatMap_stripped] at hsound
    have hprovenance : ∀ page ∈ (earlier ++ [last]).map stripped, SameProvenance page.changes := by
      intro page hmem
      obtain ⟨found, hfound, rfl⟩ := List.mem_map.mp hmem
      exact sameProvenance_of_inScope fun change hchange =>
        hscope change (List.mem_flatMap.mpr ⟨found, hfound, hchange⟩)
    obtain ⟨all, hall, hdistinct, hfit⟩ := exists_pages_iff.mpr ⟨hsound, hprovenance, hapart⟩
    have hpages := hdistinctPages hall
    rw [hmap] at hall
    obtain ⟨outs, out, rfl, houts, hout⟩ := projectsAll_append.mp hall
    rw [← hfst (outs ++ [out])] at hdistinct hfit
    obtain ⟨final, hpush⟩ := exists_pushAll _ hpages hdistinct hfit
    exact ⟨_, (syncV2Over_eq_ok hcut hlength).mpr ⟨hvalid, hnonzero, hscope, outs, out, final,
      houts, hout, hpush, rfl⟩⟩

/-- Pages that report nothing of their own say what their fetches and renders report. -/
theorem completeness_of_full {sourceConnectionId : SourceConnectionId}
    {reason : PortableFetchReason} {pages : List PortableChangeBatch}
    {outs : List UnpersistedSynchronizationBatch}
    (hfull : ∀ page ∈ pages, page.completeness = .full)
    (houts : ProjectsAll connector sha256 sourceConnectionId reason formatVersion pages outs) :
    (∀ found, (∃ out ∈ outs, found ∈ out.completeness.incompleteReasons) ↔
      ∃ report ∈ (pages.flatMap (·.changes)).flatMap
        (reportsOf connector sourceConnectionId reason formatVersion),
        found ∈ report.incompleteReasons) ∧
    ((∀ out ∈ outs, out.completeness.complete = true) ↔
      ∀ report ∈ (pages.flatMap (·.changes)).flatMap
        (reportsOf connector sourceConnectionId reason formatVersion), report.complete = true) := by
  induction houts with
  | nil => exact ⟨fun _ => iff_of_false (fun ⟨_, hmem, _⟩ => List.not_mem_nil hmem)
      fun ⟨_, hmem, _⟩ => List.not_mem_nil hmem,
      iff_of_true (List.forall_mem_nil _) (List.forall_mem_nil _)⟩
  | cons hpage _ ih =>
      obtain ⟨hfirst, hrest⟩ := List.forall_mem_cons.mp hfull
      obtain ⟨hreasons, hcomplete⟩ := ih hrest
      have hpage : ProjectsTo connector sha256 sourceConnectionId reason formatVersion _ _ := hpage
      constructor
      · intro found
        have hnone : found ∉ PortableCompleteness.full.incompleteReasons := List.not_mem_nil
        simp only [List.mem_cons, exists_eq_left, List.flatMap_cons, List.flatMap_append,
          List.mem_append, or_and_right, exists_or]
        rw [hreasons, hpage.mem_reasons, hfirst, or_iff_right hnone]
      · rw [List.forall_mem_cons, hcomplete, hpage.complete, hfirst, List.flatMap_cons,
          List.flatMap_append, List.forall_mem_append]
        exact and_congr_left fun _ => and_iff_right rfl

/-- What a synchronization over pages says of completeness: the reasons of the last page, and
of the fetches and renders of all pages. -/
theorem completeness_of_syncPages {seen : Finset (UInt16 × Text)}
    {outs : List UnpersistedSynchronizationBatch} {out : UnpersistedSynchronizationBatch}
    {final : Aggregate} (hcut : IsSyncCut request seen earlier last)
    (houts : ProjectsAll connector sha256 request.sourceConnectionId .synchronization formatVersion
      (earlier.map stripped) outs)
    (hout : ProjectsTo connector sha256 request.sourceConnectionId .synchronization formatVersion
      (stripped last) out)
    (hfinal : final.completeness = ((outs ++ [out]).map withReported).foldl
      (fun held page => held.merge page.2) .full) :
    final.completeness.Normal ∧
    (∀ reason, reason ∈ final.completeness.incompleteReasons ↔
      reason ∈ (stripped last).completeness.incompleteReasons ∨
        ∃ report ∈ ((earlier ++ [last]).flatMap (·.changes)).flatMap
          (reportsOf connector request.sourceConnectionId .synchronization formatVersion),
          reason ∈ report.incompleteReasons) ∧
    (final.completeness.complete = true ↔ (stripped last).completeness.complete = true ∧
      ∀ report ∈ ((earlier ++ [last]).flatMap (·.changes)).flatMap
        (reportsOf connector request.sourceConnectionId .synchronization formatVersion),
        report.complete = true) := by
  have hmerge : final.completeness =
      ((outs ++ [out]).map UnpersistedSynchronizationBatch.completeness).foldl
        PortableCompleteness.merge .full := by
    rw [hfinal, List.foldl_map, List.foldl_map]
    rfl
  have hfull : ∀ page ∈ earlier.map stripped, page.completeness = .full := by
    intro page hmem
    obtain ⟨found, hfound, rfl⟩ := List.mem_map.mp hmem
    have hcontinues : found.completeness = .incomplete .checkpointContinuation :=
      hcut.cut.continues (plain found) (List.mem_map_of_mem hfound)
    rw [stripped, hcontinues]
    rfl
  obtain ⟨hreasons, hcomplete⟩ := completeness_of_full hfull houts
  rw [flatMap_stripped] at hreasons hcomplete
  have hreported : ((earlier ++ [last]).flatMap (·.changes)).flatMap
      (reportsOf connector request.sourceConnectionId .synchronization formatVersion) =
      (earlier.flatMap (·.changes)).flatMap
          (reportsOf connector request.sourceConnectionId .synchronization formatVersion) ++
        (stripped last).changes.flatMap
          (reportsOf connector request.sourceConnectionId .synchronization formatVersion) := by
    rw [List.flatMap_append, List.flatMap_append, List.flatMap_singleton]
    rfl
  refine ⟨?_, fun reason => ?_, ?_⟩
  · rw [hmerge, List.map_append, List.map_singleton, List.foldl_append, List.foldl_cons,
      List.foldl_nil]
    exact PortableCompleteness.normal_merge _ _
  · have hnone : reason ∉ PortableCompleteness.full.incompleteReasons := List.not_mem_nil
    rw [hmerge, PortableCompleteness.mem_foldl_merge, or_iff_right hnone, hreported]
    simp only [List.mem_map, exists_exists_and_eq_and, List.mem_append, List.mem_singleton,
      or_and_right, exists_or, exists_eq_left, exists_eq_left']
    rw [hreasons, hout.mem_reasons, or_left_comm]
  · have htrue : PortableCompleteness.full.complete = true := rfl
    rw [hmerge, PortableCompleteness.complete_foldl_merge, and_iff_right htrue,
      List.forall_mem_map, List.forall_mem_append, List.forall_mem_singleton, hcomplete,
      hout.complete, hreported, List.forall_mem_append, and_left_comm]

theorem isSyncCut_whole (hcut : IsSyncCut request (syncStart request) earlier last) :
    IsSyncCut request (syncStart request) [] (wholeOfV2 earlier last) where
  cut := ⟨List.forall_mem_nil _, List.forall_mem_nil _, List.nodup_nil, List.forall_mem_nil _,
    hcut.cut.ends⟩
  covered := List.forall_mem_singleton.mpr
    (hcut.covered last (List.mem_append_right _ List.mem_cons_self))
  checkpoints := List.forall_mem_singleton.mpr
    (hcut.checkpoints last (List.mem_append_right _ List.mem_cons_self))
  count := by
    rw [List.nil_append, List.flatMap_singleton]
    exact hcut.count

theorem syncV2Over_holds {batch : UnpersistedSynchronizationBatch}
    (hcut : IsSyncCut request (syncStart request) earlier last)
    (hlength : earlier.length < limits.maxCheckpoints)
    (h : syncV2Over connector sha256 request formatVersion limits (earlier ++ [last]) =
      .ok batch) :
    ∃ outs out, ∃ final : Aggregate,
      ProjectsAll connector sha256 request.sourceConnectionId .synchronization formatVersion
        (earlier.map stripped) outs ∧
      ProjectsTo connector sha256 request.sourceConnectionId .synchronization formatVersion
        (stripped last) out ∧
      PagesDistinct (outs ++ [out]) ∧ final.Holds (outs ++ [out]) ∧
      final.completeness = ((outs ++ [out]).map withReported).foldl
        (fun held page => held.merge page.2) .full ∧
      batch = final.finish request.sourceConnectionId last.nextCheckpoint := by
  obtain ⟨-, -, -, outs, out, final, houts, hout, hpush, rfl⟩ :=
    (syncV2Over_eq_ok hcut hlength).mp h
  have hall := projectsAll_append.mpr ⟨outs, out, rfl, houts, hout⟩
  have hpages : ∀ page ∈ (outs ++ [out]).map withReported, page.1.Distinct := by
    intro page hmem
    obtain ⟨found, hfound, rfl⟩ := List.mem_map.mp hmem
    exact distinct_of_projectsAll hall found hfound
  have hfst : ((outs ++ [out]).map withReported).map Prod.fst = outs ++ [out] := by
    rw [List.map_map]
    exact List.map_id _
  obtain ⟨hdistinct, -, hholds, hcompleteness⟩ := pushAll_eq_ok _ hpages hpush
  rw [hfst] at hdistinct hholds
  exact ⟨outs, out, final, houts, hout, hdistinct, hholds, hcompleteness, rfl⟩

/-- Where both succeed, they make the same. -/
theorem agree_of_syncPages {paged whole : UnpersistedSynchronizationBatch}
    (hcut : IsSyncCut request (syncStart request) earlier last)
    (hlength : earlier.length < limits.maxCheckpoints)
    (hpaged : syncV2Over connector sha256 request formatVersion limits (earlier ++ [last]) =
      .ok paged)
    (hwhole : syncV2Over connector sha256 request formatVersion limits [wholeOfV2 earlier last] =
      .ok whole) : Agree (.ok paged) (.ok whole) := by
  obtain ⟨outs, out, final, houts, hout, hdistinct, hholds, hcompleteness, rfl⟩ :=
    syncV2Over_holds hcut hlength hpaged
  obtain ⟨outs', out', final', houts', hout', hdistinct', hholds', hcompleteness', rfl⟩ :=
    syncV2Over_holds (isSyncCut_whole hcut) (Nat.lt_of_le_of_lt (Nat.zero_le _) hlength) hwhole
  cases houts'
  have hone : ([] ++ [wholeOfV2 earlier last]).flatMap PortableChangeBatchV2.changes =
      (earlier ++ [last]).flatMap PortableChangeBatchV2.changes := by
    rw [List.nil_append, List.flatMap_singleton]
    rfl
  have hsame : (earlier.map stripped ++ [stripped last]).flatMap PortableChangeBatch.changes =
      ([] ++ [stripped (wholeOfV2 earlier last)]).flatMap PortableChangeBatch.changes := by
    rw [List.nil_append, List.flatMap_singleton, ← List.map_singleton, ← List.map_append,
      flatMap_stripped]
    rfl
  obtain ⟨hchanges, hversions, hcontents, hprojections⟩ := same_rows hsame
    (projectsAll_append.mpr ⟨outs, out, rfl, houts, hout⟩)
    (projectsAll_append.mpr ⟨[], out', rfl, List.Forall₂.nil, hout'⟩) hdistinct hdistinct' hholds
    hholds'
  obtain ⟨hnormal, hreasons, hcomplete⟩ := completeness_of_syncPages hcut houts hout hcompleteness
  obtain ⟨hnormal', hreasons', hcomplete'⟩ := completeness_of_syncPages (isSyncCut_whole hcut)
    List.Forall₂.nil hout' hcompleteness'
  rw [hone] at hreasons' hcomplete'
  have heq : final.completeness = final'.completeness :=
    hnormal.eq hnormal' (hcomplete.trans hcomplete'.symm) fun reason =>
      (hreasons reason).trans (hreasons' reason).symm
  refine ⟨List.Perm.of_eq ?_, ?_, ?_, ?_, heq, ?_⟩
  · exact congrArg valuesOf hchanges
  · exact congrArg valuesOf hversions
  · exact congrArg valuesOf hcontents
  · exact congrArg valuesOf hprojections
  · exact congrArg PortableCompleteness.isComplete heq

/-- If the request is valid and the list of the changes is sound and in the scope, then no
artifact key is rendered on two pages. -/
def SeamlessSync (connector : PureConnector) (sha256 : List UInt8 → List UInt8)
    (request : PortableSyncRequestV2) (formatVersion : UInt32) (limits : AggregationLimits)
    (earlier : List PortableChangeBatchV2) (last : PortableChangeBatchV2) : Prop :=
  request.validate = .ok () → limits.Nonzero →
  (∀ change ∈ (earlier ++ [last]).flatMap (·.changes), InScope request.scope change) →
  Sound connector sha256 request.sourceConnectionId .synchronization formatVersion limits
    ((earlier ++ [last]).flatMap (·.changes)) →
  KeysApart connector request.sourceConnectionId .synchronization formatVersion
    ((earlier ++ [last]).map stripped)

/-- A list is synchronized in pages as it is as one page, exactly if the pages are seamless. -/
theorem sync_agrees_iff (hcut : IsSyncCut request (syncStart request) earlier last)
    (hlength : earlier.length < limits.maxCheckpoints) :
    Agree (syncV2Over connector sha256 request formatVersion limits (earlier ++ [last]))
      (syncV2Over connector sha256 request formatVersion limits [wholeOfV2 earlier last]) ↔
    SeamlessSync connector sha256 request formatVersion limits earlier last := by
  have hwhole : (∃ batch, syncV2Over connector sha256 request formatVersion limits
      ([] ++ [wholeOfV2 earlier last]) = .ok batch) ↔ _ :=
    exists_syncV2Over_iff (isSyncCut_whole hcut) (Nat.lt_of_le_of_lt (Nat.zero_le _) hlength)
  have hone : ([] ++ [wholeOfV2 earlier last]).flatMap PortableChangeBatchV2.changes =
      (earlier ++ [last]).flatMap PortableChangeBatchV2.changes := by
    rw [List.nil_append, List.flatMap_singleton]
    rfl
  have hapart : KeysApart connector request.sourceConnectionId .synchronization formatVersion
      (([] ++ [wholeOfV2 earlier last]).map stripped) := List.pairwise_singleton _ _
  rw [hone, and_iff_left hapart, List.nil_append] at hwhole
  rw [agree_iff (exists_syncV2Over_iff hcut hlength) hwhole fun value whole hpaged hsingle =>
    iff_true_intro (agree_of_syncPages hcut hlength hpaged hsingle)]
  constructor
  · rintro ⟨hiff, -⟩ hvalid hnonzero hscope hsound
    exact (hiff.mpr ⟨hvalid, hnonzero, hscope, hsound⟩).2.2.2.2
  · intro hcondition
    refine ⟨⟨?_, ?_⟩, fun _ _ => trivial⟩
    · rintro ⟨hvalid, hnonzero, hscope, hsound, -⟩
      exact ⟨hvalid, hnonzero, hscope, hsound⟩
    · rintro ⟨hvalid, hnonzero, hscope, hsound⟩
      exact ⟨hvalid, hnonzero, hscope, hsound, hcondition hvalid hnonzero hscope hsound⟩

/-- The number of changes on a page does not show, in a bootstrap and in a synchronization,
exactly where the pages are seamless. -/
theorem pages_agree_iff {bootstrapRequest : PortableBootstrapRequest}
    {bootstrapEarlier : List PortableChangeBatch} {bootstrapLast : PortableChangeBatch}
    (hbootstrap : IsCut (bootstrapStart bootstrapRequest) bootstrapEarlier bootstrapLast)
    (hbootstrapLength : bootstrapEarlier.length < limits.maxCheckpoints)
    (hsync : IsSyncCut request (syncStart request) earlier last)
    (hsyncLength : earlier.length < limits.maxCheckpoints) :
    (Agree (bootstrapOver connector sha256 bootstrapRequest formatVersion limits
        (bootstrapEarlier ++ [bootstrapLast]))
      (bootstrapOver connector sha256 bootstrapRequest formatVersion limits
        [wholeOf bootstrapEarlier bootstrapLast]) ↔
      SeamlessBootstrap connector sha256 bootstrapRequest formatVersion limits bootstrapEarlier
        bootstrapLast) ∧
    (Agree (syncV2Over connector sha256 request formatVersion limits (earlier ++ [last]))
      (syncV2Over connector sha256 request formatVersion limits [wholeOfV2 earlier last]) ↔
      SeamlessSync connector sha256 request formatVersion limits earlier last) :=
  ⟨bootstrap_agrees_iff hbootstrap hbootstrapLength, sync_agrees_iff hsync hsyncLength⟩

end Agreement

/-! ## Two sources with one artifact -/

def sharedRoot : RemoteId := ⟨"root".toList⟩

/-- A source of the connection that is fetched. -/
def sharedChange (id : String) : PortableSourceChange where
  sourceObject := {
    sourceConnectionId := ⟨"c".toList⟩
    remoteId := ⟨id.toList⟩
    kind := .page
    edges := [⟨portableScopeRootRelationship, sharedRoot⟩]
    opaqueVersion := none
    deleted := false
    connectorMetadata := []
    aclObservations := []
    discoveredAt := none
    observedAt := none }
  logicalPath := some ⟨id.toList⟩
  requiresFetch := true

def sharedArtifact (key : Text) : PortableContentArtifact := ⟨⟨key⟩, "text".toList, []⟩

/-- A connector that renders the source a with a legend of its own, and the source b as this
legend. -/
def sharedConnector : PureConnector where
  fetch request := .ok ⟨⟨request.remoteId, "page".toList, []⟩, none, .full⟩
  render request := .ok {
    canonical := if request.logicalPath.value = "a".toList then sharedArtifact "legend".toList
      else sharedArtifact request.logicalPath.value
    projections := [{
      artifact := if request.logicalPath.value = "a".toList then sharedArtifact "a".toList
        else sharedArtifact "legend".toList
      logicalPath := request.logicalPath
      fileKind := .text
      formatVersion := request.formatVersion
      supportedActions := [] }]
    completeness := .full }

def sharedBootstrap : PortableBootstrapRequest where
  sourceConnectionId := ⟨"c".toList⟩
  scope := ⟨.restrictedRoots, [sharedRoot]⟩
  checkpoint := none
  maxChanges := 10

def sharedRequest : PortableSyncRequestV2 where
  sourceConnectionId := ⟨"c".toList⟩
  scope := ⟨.restrictedRoots, [sharedRoot]⟩
  checkpoint := ⟨1, "start".toList⟩
  mode := .hintsOnly
  hints := []
  maxChanges := 10

def sharedFirst : PortableChangeBatchV2 where
  changes := [sharedChange "a"]
  nextCheckpoint := ⟨1, "middle".toList⟩
  completeness := .incomplete .checkpointContinuation
  coveredRootRemoteIds := []
  authority := .incremental

def sharedLast : PortableChangeBatchV2 where
  changes := [sharedChange "b"]
  nextCheckpoint := ⟨1, "end".toList⟩
  completeness := .full
  coveredRootRemoteIds := []
  authority := .incremental

def noDigest : List UInt8 → List UInt8 := fun _ => []

theorem isCut_shared : IsCut (bootstrapStart sharedBootstrap) [plain sharedFirst]
    (plain sharedLast) :=
  ⟨by decide, by decide, by decide, by decide, by decide⟩

theorem isSyncCut_shared :
    IsSyncCut sharedRequest (syncStart sharedRequest) [sharedFirst] sharedLast where
  cut := ⟨by decide, by decide, by decide, by decide, by decide⟩
  covered := by
    rintro page hmem
    rcases List.mem_pair.mp hmem with rfl | rfl
    · exact ⟨false, by decide⟩
    · exact ⟨false, by decide⟩
  checkpoints := by decide
  count := by decide

/-- Runs that agree succeed both, or neither. -/
theorem Agree.isOk_eq {paged whole : LocalityResult UnpersistedSynchronizationBatch}
    (h : Agree paged whole) : paged.isOk = whole.isOk := by
  cases paged with
  | error error =>
      cases whole with
      | error error' => rfl
      | ok value => cases h
  | ok value =>
      cases whole with
      | error error => cases h
      | ok value' => rfl

theorem not_agree_bootstrap_shared :
    ¬ Agree (bootstrapOver sharedConnector noDigest sharedBootstrap 1 ⟨2, 10, 10⟩
        ([plain sharedFirst] ++ [plain sharedLast]))
      (bootstrapOver sharedConnector noDigest sharedBootstrap 1 ⟨2, 10, 10⟩
        [wholeOf [plain sharedFirst] (plain sharedLast)]) := by
  intro h
  have hpaged : (bootstrapOver sharedConnector noDigest sharedBootstrap 1 ⟨2, 10, 10⟩
      ([plain sharedFirst] ++ [plain sharedLast])).isOk = false := by decide +kernel
  have hwhole : (bootstrapOver sharedConnector noDigest sharedBootstrap 1 ⟨2, 10, 10⟩
      [wholeOf [plain sharedFirst] (plain sharedLast)]).isOk = true := by decide +kernel
  exact nomatch hpaged.symm.trans (h.isOk_eq.trans hwhole)

theorem not_agree_sync_shared :
    ¬ Agree (syncV2Over sharedConnector noDigest sharedRequest 1 ⟨2, 10, 10⟩
        ([sharedFirst] ++ [sharedLast]))
      (syncV2Over sharedConnector noDigest sharedRequest 1 ⟨2, 10, 10⟩
        [wholeOfV2 [sharedFirst] sharedLast]) := by
  intro h
  have hpaged : (syncV2Over sharedConnector noDigest sharedRequest 1 ⟨2, 10, 10⟩
      ([sharedFirst] ++ [sharedLast])).isOk = false := by decide +kernel
  have hwhole : (syncV2Over sharedConnector noDigest sharedRequest 1 ⟨2, 10, 10⟩
      [wholeOfV2 [sharedFirst] sharedLast]).isOk = true := by decide +kernel
  exact nomatch hpaged.symm.trans (h.isOk_eq.trans hwhole)

/-- The two sources are refused in two pages, and accepted in one. -/
theorem not_agree_shared :
    (IsCut (bootstrapStart sharedBootstrap) [plain sharedFirst] (plain sharedLast) ∧
      ¬ Agree (bootstrapOver sharedConnector noDigest sharedBootstrap 1 ⟨2, 10, 10⟩
          ([plain sharedFirst] ++ [plain sharedLast]))
        (bootstrapOver sharedConnector noDigest sharedBootstrap 1 ⟨2, 10, 10⟩
          [wholeOf [plain sharedFirst] (plain sharedLast)])) ∧
    IsSyncCut sharedRequest (syncStart sharedRequest) [sharedFirst] sharedLast ∧
      ¬ Agree (syncV2Over sharedConnector noDigest sharedRequest 1 ⟨2, 10, 10⟩
          ([sharedFirst] ++ [sharedLast]))
        (syncV2Over sharedConnector noDigest sharedRequest 1 ⟨2, 10, 10⟩
          [wholeOfV2 [sharedFirst] sharedLast]) :=
  ⟨⟨isCut_shared, not_agree_bootstrap_shared⟩, isSyncCut_shared, not_agree_sync_shared⟩

theorem pages_agree_iff_shared :
    ¬ SeamlessBootstrap sharedConnector noDigest sharedBootstrap 1 ⟨2, 10, 10⟩
        [plain sharedFirst] (plain sharedLast) ∧
      ¬ SeamlessSync sharedConnector noDigest sharedRequest 1 ⟨2, 10, 10⟩ [sharedFirst]
        sharedLast := by
  have hlength : ([sharedFirst] : List PortableChangeBatchV2).length < 2 := by decide
  exact ⟨(pages_agree_iff isCut_shared hlength isSyncCut_shared hlength).1.not.mp
      not_agree_bootstrap_shared,
    (pages_agree_iff isCut_shared hlength isSyncCut_shared hlength).2.not.mp
      not_agree_sync_shared⟩

end Locality.Engine
