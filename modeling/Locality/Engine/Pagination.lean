/-
  Engine/Pagination.lean --- a list of changes in pages, and as one page: when a bootstrap
  and a synchronization to completion make the same of both.

  A page may render one artifact for several sources, and two pages may not: that is where
  the number of changes on a page shows.  A bootstrap also looks at each page alone for
  the owning roots of its sources, and takes an incompleteness that a fetch reports on a
  page for the continuation that the page reports.
-/
import Locality.Engine.Paging
import Mathlib.Data.List.Forall2

set_option autoImplicit false

namespace Locality.Engine

open Locality.Core Locality.Foundation Locality.Protocol Locality.Connector

/-! ## Completeness without the continuation -/

theorem mem_preserved {completeness : PortableCompleteness} {reason : PortableIncompleteReason} :
    reason ∈ (completenessWithoutContinuation completeness).2.incompleteReasons ↔
      reason ∈ completeness.incompleteReasons ∧ reason ≠ .checkpointContinuation := by
  rw [completenessWithoutContinuation, ← List.foldl_map (f := PortableCompleteness.incomplete)
    (g := PortableCompleteness.merge), PortableCompleteness.mem_foldl_merge]
  have hbase : reason ∉ (if completeness.incompleteReasons = [] ∧ completeness.isComplete = false
      then PortableCompleteness.default else PortableCompleteness.full).incompleteReasons := by
    split
    · exact List.not_mem_nil
    · exact List.not_mem_nil
  rw [or_iff_right hbase]
  constructor
  · rintro ⟨report, hreport, hreason⟩
    obtain ⟨found, hfound, rfl⟩ := List.mem_map.mp hreport
    obtain ⟨hmem, hne⟩ := List.mem_filter.mp hfound
    cases List.mem_singleton.mp hreason
    exact ⟨hmem, of_decide_eq_true hne⟩
  · rintro ⟨hmem, hne⟩
    exact ⟨.incomplete reason, List.mem_map.mpr ⟨reason,
      List.mem_filter.mpr ⟨hmem, decide_eq_true hne⟩, rfl⟩, List.mem_cons_self⟩

/-- What is complete without the continuation: what gives no other reason, and does not say
that it is incomplete without one. -/
theorem complete_preserved {completeness : PortableCompleteness} :
    (completenessWithoutContinuation completeness).2.complete = true ↔
      (∀ reason ∈ completeness.incompleteReasons, reason = .checkpointContinuation) ∧
        (completeness.incompleteReasons = [] → completeness.complete = true) := by
  rw [completenessWithoutContinuation, ← List.foldl_map (f := PortableCompleteness.incomplete)
    (g := PortableCompleteness.merge), PortableCompleteness.complete_foldl_merge, and_comm]
  refine and_congr ?_ ?_
  · constructor
    · intro hall reason hmem
      by_contra hne
      cases hall (.incomplete reason) (List.mem_map.mpr ⟨reason,
        List.mem_filter.mpr ⟨hmem, decide_eq_true hne⟩, rfl⟩)
    · intro hall report hreport
      obtain ⟨reason, hreason, rfl⟩ := List.mem_map.mp hreport
      obtain ⟨hmem, hne⟩ := List.mem_filter.mp hreason
      exact absurd (hall reason hmem) (of_decide_eq_true hne)
  · split
    · rename_i hsilent
      refine iff_of_false (fun h => by cases h) fun hcomplete => ?_
      have hfalse := hsilent.2
      rw [PortableCompleteness.isComplete, hcomplete hsilent.1, hsilent.1] at hfalse
      cases hfalse
    · rename_i hsaid
      refine iff_of_true rfl fun hnil => ?_
      rw [PortableCompleteness.isComplete, hnil, List.isEmpty_nil, Bool.and_true, not_and,
        Bool.not_eq_false] at hsaid
      exact hsaid rfl

/-! ## Pages that are answered -/

/-- The pages that are left: of a bootstrap, and of a synchronization. -/
structure PagesLeft where
  bootstrap : List PortableChangeBatch
  sync : List PortableChangeBatchV2

/-- A connector that answers with the next page, and fetches and renders by its functions. -/
def PureConnector.paged (connector : PureConnector) :
    (op : ConnectorOp) → PagesLeft → op.Answer × PagesLeft
  | .bootstrapPortable _, ⟨page :: pages, sync⟩ => (.ok page, ⟨pages, sync⟩)
  | .bootstrapPortable _, ⟨[], sync⟩ => (invalidState [], ⟨[], sync⟩)
  | .syncPortableV2 _, ⟨bootstrap, page :: pages⟩ => (.ok page, ⟨bootstrap, pages⟩)
  | .syncPortableV2 _, ⟨bootstrap, []⟩ => (invalidState [], ⟨bootstrap, []⟩)
  | .fetchPortable request, left => (connector.fetch request, left)
  | .renderPortable request, left => (connector.render request, left)

theorem PureConnector.answers_paged (connector : PureConnector) :
    connector.Answers connector.paged :=
  ⟨fun _ _ => rfl, fun _ _ => rfl⟩

/-- Pages in a row: each but the last one continues at a checkpoint that is new. -/
structure IsCut (seen : Finset (UInt16 × Text)) (earlier : List PortableChangeBatch)
    (last : PortableChangeBatch) : Prop where
  continues : ∀ page ∈ earlier, page.completeness = .incomplete .checkpointContinuation
  nonempty : ∀ page ∈ earlier, page.nextCheckpoint.opaqueState ≠ []
  distinct : (earlier.map fun page => checkpointIdentity page.nextCheckpoint).Nodup
  fresh : ∀ page ∈ earlier, checkpointIdentity page.nextCheckpoint ∉ seen
  ends : .checkpointContinuation ∉ last.completeness.incompleteReasons

theorem IsCut.tail {seen : Finset (UInt16 × Text)} {page : PortableChangeBatch}
    {earlier : List PortableChangeBatch} {last : PortableChangeBatch}
    (h : IsCut seen (page :: earlier) last) :
    IsCut (insert (checkpointIdentity page.nextCheckpoint) seen) earlier last where
  continues := (List.forall_mem_cons.mp h.continues).2
  nonempty := (List.forall_mem_cons.mp h.nonempty).2
  distinct := (List.nodup_cons.mp h.distinct).2
  fresh := fun later hmem hseen => by
    rcases Finset.mem_insert.mp hseen with heq | hseen
    · exact (List.nodup_cons.mp h.distinct).1 (List.mem_map.mpr ⟨later, hmem, heq⟩)
    · exact (List.forall_mem_cons.mp h.fresh).2 later hmem hseen
  ends := h.ends

theorem validateContinuationCheckpoint_of_fresh {errors : ContinuationErrors}
    {current : Option PortableCheckpoint} {next : PortableCheckpoint}
    {seen : Finset (UInt16 × Text)} (hnonempty : next.opaqueState ≠ [])
    (hfresh : checkpointIdentity next ∉ seen)
    (hcurrent : ∀ checkpoint, current = some checkpoint → checkpointIdentity checkpoint ∈ seen) :
    validateContinuationCheckpoint errors current next seen =
      .ok (insert (checkpointIdentity next) seen) := by
  have hnew : (next.formatVersion, next.opaqueState) ∉ seen := hfresh
  rw [validateContinuationCheckpoint, if_neg hnonempty, if_neg, if_neg hnew]
  · rfl
  · exact fun heq => hfresh (hcurrent next heq)

theorem IsPage.sourceConnectionId {sha256 : List UInt8 → List UInt8} {formatVersion : UInt32}
    {sourceConnectionId : SourceConnectionId} {batch : PortableChangeBatch}
    {sources : List RenderedSource} {page : UnpersistedSynchronizationBatch}
    (h : IsPage sha256 formatVersion sourceConnectionId batch sources page) :
    page.sourceConnectionId = sourceConnectionId := by
  obtain ⟨projected, -, rfl⟩ := h.projected
  rfl

theorem foldl_report_eq (sources : List RenderedSource) : ∀ completeness : PortableCompleteness,
    sources.foldl (fun completeness source => source.report completeness) completeness =
      (sourceReports sources).foldl PortableCompleteness.merge completeness := by
  induction sources with
  | nil => exact fun _ => rfl
  | cons source sources ih => exact fun completeness => ih (source.report completeness)

theorem IsPage.mem_reasons {sha256 : List UInt8 → List UInt8} {formatVersion : UInt32}
    {sourceConnectionId : SourceConnectionId} {batch : PortableChangeBatch}
    {sources : List RenderedSource} {page : UnpersistedSynchronizationBatch}
    (h : IsPage sha256 formatVersion sourceConnectionId batch sources page)
    {reason : PortableIncompleteReason} : reason ∈ page.completeness.incompleteReasons ↔
      reason ∈ batch.completeness.incompleteReasons ∨
        ∃ report ∈ sourceReports sources, reason ∈ report.incompleteReasons := by
  rw [h.completeness, foldl_report_eq, PortableCompleteness.mem_foldl_merge]

/-! ## The bootstrap -/

section Bootstrap

variable {connector : PureConnector} {sha256 : List UInt8 → List UInt8}
  {request : PortableBootstrapRequest} {formatVersion : UInt32} {limits : AggregationLimits}
  {sync : List PortableChangeBatchV2}

/-- The page is what the batch is projected to. -/
def ProjectsTo (connector : PureConnector) (sha256 : List UInt8 → List UInt8)
    (sourceConnectionId : SourceConnectionId) (reason : PortableFetchReason)
    (formatVersion : UInt32) (batch : PortableChangeBatch)
    (out : UnpersistedSynchronizationBatch) : Prop :=
  ∃ sources, Projects connector sha256 sourceConnectionId reason formatVersion batch sources out

/-- A page with what it reports but its continuation. -/
def withPreserved (out : UnpersistedSynchronizationBatch) : PushedPage :=
  (out, (completenessWithoutContinuation out.completeness).2)

theorem mem_withPreserved {out : UnpersistedSynchronizationBatch}
    {reason : PortableIncompleteReason} :
    reason ∈ (withPreserved out).2.incompleteReasons ↔
      reason ∈ out.completeness.incompleteReasons ∧ reason ≠ .checkpointContinuation :=
  mem_preserved

theorem complete_withPreserved {out : UnpersistedSynchronizationBatch} :
    (withPreserved out).2.complete = true ↔
      (∀ reason ∈ out.completeness.incompleteReasons, reason = .checkpointContinuation) ∧
        (out.completeness.incompleteReasons = [] → out.completeness.complete = true) :=
  complete_preserved

theorem run_bootstrapAndProject_eq_ok {page : PortableChangeBatch}
    {pages : List PortableChangeBatch} {out : UnpersistedSynchronizationBatch}
    {left : PagesLeft} :
    (bootstrapAndProject sha256 request formatVersion).run connector.paged ⟨page :: pages, sync⟩ =
      (.ok out, left) ↔ left = ⟨pages, sync⟩ ∧
        ProjectsTo connector sha256 request.sourceConnectionId .bootstrap formatVersion page out := by
  have hask : (bootstrapPortable request).run connector.paged ⟨page :: pages, sync⟩ =
      (.ok page, ⟨pages, sync⟩) := rfl
  rw [bootstrapAndProject, Program.run_bind_of_ok connector.paged hask]
  exact run_projectBatch_eq_ok connector.answers_paged

/-- Behind the last page a bootstrap does not succeed. -/
theorem run_bootstrapLoop_nil {checkpoints : Nat} {current : Option PortableCheckpoint}
    {seen : Finset (UInt16 × Text)} {held : Aggregate} {value : UnpersistedSynchronizationBatch}
    {left : PagesLeft} :
    (bootstrapLoop sha256 request formatVersion limits checkpoints current seen held).run
      connector.paged ⟨[], sync⟩ ≠ (.ok value, left) := by
  cases checkpoints with
  | zero => exact fun h => nomatch congrArg Prod.fst h
  | succ checkpoints =>
      intro h
      obtain ⟨page, middle, hpage, -⟩ := (Program.run_bind_eq_ok connector.paged).mp h
      have hask := (Program.run_mapError_eq_ok connector.paged).mp hpage
      exact nomatch congrArg Prod.fst hask

/-- One page of the loop. -/
theorem run_bootstrapLoop_succ {page : PortableChangeBatch} {pages : List PortableChangeBatch}
    {checkpoints : Nat} {current : Option PortableCheckpoint} {seen : Finset (UInt16 × Text)}
    {held : Aggregate} {value : UnpersistedSynchronizationBatch} {left : PagesLeft} :
    (bootstrapLoop sha256 request formatVersion limits (checkpoints + 1) current seen held).run
      connector.paged ⟨page :: pages, sync⟩ = (.ok value, left) ↔
      ∃ out seen' next,
        ProjectsTo connector sha256 request.sourceConnectionId .bootstrap formatVersion page out ∧
        (if .checkpointContinuation ∈ out.completeness.incompleteReasons then
          validateContinuationCheckpoint bootstrapContinuationErrors current page.nextCheckpoint seen
        else pure seen) = .ok seen' ∧
        held.push bootstrapRun out (withPreserved out).2 limits = .ok next ∧
        (if .checkpointContinuation ∈ out.completeness.incompleteReasons then
          bootstrapLoop sha256 request formatVersion limits checkpoints
            (some page.nextCheckpoint) seen' next
        else pure (next.finish request.sourceConnectionId page.nextCheckpoint)).run
          connector.paged ⟨pages, sync⟩ = (.ok value, left) := by
  constructor
  · intro h
    obtain ⟨out, middle, hpage, hrest⟩ := (Program.run_bind_eq_ok connector.paged).mp h
    obtain ⟨rfl, hout⟩ := run_bootstrapAndProject_eq_ok.mp
      ((Program.run_mapError_eq_ok connector.paged).mp hpage)
    split at hrest
    · exact nomatch congrArg Prod.fst hrest
    · obtain ⟨seen', middle, hseen, hpushed⟩ := (Program.run_bind_eq_ok connector.paged).mp hrest
      obtain ⟨hfound, rfl⟩ := (Program.run_ofExcept_eq_ok connector.paged).mp hseen
      obtain ⟨next, middle, hpush, hlast⟩ := (Program.run_bind_eq_ok connector.paged).mp hpushed
      obtain ⟨hheld, rfl⟩ := (Program.run_ofExcept_eq_ok connector.paged).mp hpush
      have hcheckpoint : out.nextCheckpoint = page.nextCheckpoint := by
        obtain ⟨sources, -, hout⟩ := hout
        exact hout.nextCheckpoint
      rw [hcheckpoint] at hfound hlast
      simp only [decide_eq_true_eq] at hfound hlast
      exact ⟨out, seen', next, hout, hfound, hheld, hlast⟩
  · rintro ⟨out, seen', next, hout, hseen, hpush, hlast⟩
    refine (Program.run_bind_eq_ok connector.paged).mpr ⟨out, ⟨pages, sync⟩,
      (Program.run_mapError_eq_ok connector.paged).mpr
        (run_bootstrapAndProject_eq_ok.mpr ⟨rfl, hout⟩), ?_⟩
    obtain ⟨sources, -, hpage⟩ := hout
    rw [if_neg (not_not.mpr hpage.sourceConnectionId)]
    refine (Program.run_bind_eq_ok connector.paged).mpr ⟨seen', ⟨pages, sync⟩,
      (Program.run_ofExcept_eq_ok connector.paged).mpr ⟨?_, rfl⟩,
      (Program.run_bind_eq_ok connector.paged).mpr ⟨next, ⟨pages, sync⟩,
        (Program.run_ofExcept_eq_ok connector.paged).mpr ⟨hpush, rfl⟩, ?_⟩⟩
    · rw [hpage.nextCheckpoint]
      simp only [decide_eq_true_eq]
      exact hseen
    · rw [hpage.nextCheckpoint]
      simp only [decide_eq_true_eq]
      exact hlast

theorem run_bootstrapLoop_eq_ok (earlier : List PortableChangeBatch) {last : PortableChangeBatch} :
    ∀ {checkpoints : Nat} {current : Option PortableCheckpoint} {seen : Finset (UInt16 × Text)}
      {held : Aggregate} {value : UnpersistedSynchronizationBatch} {left : PagesLeft},
    IsCut seen earlier last → earlier.length < checkpoints →
    (∀ checkpoint, current = some checkpoint → checkpointIdentity checkpoint ∈ seen) →
    ((bootstrapLoop sha256 request formatVersion limits checkpoints current seen held).run
      connector.paged ⟨earlier ++ [last], sync⟩ = (.ok value, left) ↔
      left = ⟨[], sync⟩ ∧ ∃ outs out final,
        ProjectsAll connector sha256 request.sourceConnectionId .bootstrap formatVersion earlier
          outs ∧
        ProjectsTo connector sha256 request.sourceConnectionId .bootstrap formatVersion last out ∧
        .checkpointContinuation ∉ out.completeness.incompleteReasons ∧
        pushAll bootstrapRun limits held ((outs ++ [out]).map withPreserved) = .ok final ∧
        value = final.finish request.sourceConnectionId last.nextCheckpoint) := by
  induction earlier with
  | nil =>
      intro checkpoints current seen held value left hcut hlength hcurrent
      obtain ⟨checkpoints, rfl⟩ : ∃ n, checkpoints = n + 1 := ⟨_, (Nat.sub_add_cancel hlength).symm⟩
      rw [List.nil_append, run_bootstrapLoop_succ]
      constructor
      · rintro ⟨out, seen', next, hout, hseen, hpush, hlast⟩
        split at hlast
        · exact absurd hlast run_bootstrapLoop_nil
        · rename_i hends
          cases hlast
          refine ⟨rfl, [], out, next, List.Forall₂.nil, hout, hends, ?_, rfl⟩
          exact bind_eq_ok.mpr ⟨next, hpush, rfl⟩
      · rintro ⟨rfl, outs, out, final, houts, hout, hends, hpush, rfl⟩
        cases houts
        obtain ⟨next, hpush, hfinal⟩ := bind_eq_ok.mp hpush
        cases hfinal
        refine ⟨out, seen, final, hout, ?_, hpush, ?_⟩
        · rw [if_neg hends]
          rfl
        · rw [if_neg hends]
          rfl
  | cons page earlier ih =>
      intro checkpoints current seen held value left hcut hlength hcurrent
      obtain ⟨checkpoints, rfl⟩ : ∃ n, checkpoints = n + 1 :=
        ⟨_, (Nat.sub_add_cancel (Nat.lt_of_le_of_lt (Nat.zero_le _) hlength)).symm⟩
      have hcontinues : ∀ {out : UnpersistedSynchronizationBatch},
          ProjectsTo connector sha256 request.sourceConnectionId .bootstrap formatVersion page out →
            .checkpointContinuation ∈ out.completeness.incompleteReasons := by
        rintro out ⟨sources, -, hout⟩
        refine hout.mem_reasons.mpr (Or.inl ?_)
        rw [hcut.continues page List.mem_cons_self]
        exact List.mem_cons_self
      have hseen : validateContinuationCheckpoint bootstrapContinuationErrors current
          page.nextCheckpoint seen = .ok (insert (checkpointIdentity page.nextCheckpoint) seen) :=
        validateContinuationCheckpoint_of_fresh (hcut.nonempty page List.mem_cons_self)
          (hcut.fresh page List.mem_cons_self) hcurrent
      have hnext : ∀ checkpoint, some page.nextCheckpoint = some checkpoint →
          checkpointIdentity checkpoint ∈ insert (checkpointIdentity page.nextCheckpoint) seen := by
        intro checkpoint heq
        cases heq
        exact Finset.mem_insert_self _ _
      have hlength := Nat.lt_of_succ_lt_succ hlength
      rw [List.cons_append, run_bootstrapLoop_succ]
      constructor
      · rintro ⟨out, seen', next, hout, hfound, hpush, hlast⟩
        rw [if_pos (hcontinues hout)] at hfound hlast
        cases hseen.symm.trans hfound
        obtain ⟨rfl, outs, last', final, houts, hlast', hends, hpushes, rfl⟩ :=
          (ih hcut.tail hlength hnext).mp hlast
        exact ⟨rfl, out :: outs, last', final, List.Forall₂.cons hout houts, hlast', hends,
          bind_eq_ok.mpr ⟨next, hpush, hpushes⟩, rfl⟩
      · rintro ⟨rfl, outs, out, final, houts, hout, hends, hpushes, rfl⟩
        cases houts with
        | @cons _ first _ rest hfirst hothers =>
            obtain ⟨next, hpush, hpushes⟩ := bind_eq_ok.mp hpushes
            refine ⟨first, insert (checkpointIdentity page.nextCheckpoint) seen, next, hfirst, ?_,
              hpush, ?_⟩
            · rw [if_pos (hcontinues hfirst)]
              exact hseen
            · rw [if_pos (hcontinues hfirst)]
              exact (ih hcut.tail hlength hnext).mpr
                ⟨rfl, rest, out, final, hothers, hout, hends, hpushes, rfl⟩

end Bootstrap

/-! ## What is reported -/

section Reports

variable (connector : PureConnector) (sourceConnectionId : SourceConnectionId)
  (reason : PortableFetchReason) (formatVersion : UInt32)

/-- What the fetch and the render of a change report. -/
def reportsOf (change : PortableSourceChange) : List PortableCompleteness :=
  match renderedSource connector sourceConnectionId reason formatVersion change with
  | .ok sources => sourceReports sources
  | .error _ => []

end Reports

section Lists

variable {connector : PureConnector} {sha256 : List UInt8 → List UInt8}
  {sourceConnectionId : SourceConnectionId} {reason : PortableFetchReason}
  {formatVersion : UInt32}

theorem sourceReports_eq (changes : List PortableSourceChange) :
    ∀ {sources : List RenderedSource},
      renderedSources connector sourceConnectionId reason formatVersion changes = .ok sources →
        sourceReports sources =
          changes.flatMap (reportsOf connector sourceConnectionId reason formatVersion) := by
  induction changes with
  | nil =>
      intro sources h
      cases h
      rfl
  | cons change changes ih =>
      intro sources h
      obtain ⟨first, rest, hfirst, hrest, rfl⟩ := renderedSources_cons_eq_ok.mp h
      rw [sourceReports, List.flatMap_append, List.flatMap_cons, reportsOf, hfirst, ← ih hrest]
      rfl

theorem Projects.mem_reports {page : PortableChangeBatch} {sources : List RenderedSource}
    {out : UnpersistedSynchronizationBatch}
    (h : Projects connector sha256 sourceConnectionId reason formatVersion page sources out)
    {report : PortableCompleteness} : report ∈ sourceReports sources ↔
      report ∈ page.changes.flatMap
        (reportsOf connector sourceConnectionId reason formatVersion) := by
  obtain ⟨sources', hperm, hrendered⟩ := h.rendered
  rw [← sourceReports_eq _ hrendered]
  exact (hperm.flatMap_right _).mem_iff

/-- The reasons of a page: those of its batch, and those of its fetches and renders. -/
theorem ProjectsTo.mem_reasons {page : PortableChangeBatch} {out : UnpersistedSynchronizationBatch}
    (h : ProjectsTo connector sha256 sourceConnectionId reason formatVersion page out)
    {found : PortableIncompleteReason} : found ∈ out.completeness.incompleteReasons ↔
      found ∈ page.completeness.incompleteReasons ∨
        ∃ report ∈ page.changes.flatMap
          (reportsOf connector sourceConnectionId reason formatVersion),
          found ∈ report.incompleteReasons := by
  obtain ⟨sources, hpage⟩ := h
  rw [hpage.2.mem_reasons]
  simp only [hpage.mem_reports]

theorem ProjectsTo.complete {page : PortableChangeBatch} {out : UnpersistedSynchronizationBatch}
    (h : ProjectsTo connector sha256 sourceConnectionId reason formatVersion page out) :
    out.completeness.complete = true ↔ page.completeness.complete = true ∧
      ∀ report ∈ page.changes.flatMap
        (reportsOf connector sourceConnectionId reason formatVersion),
        report.complete = true := by
  obtain ⟨sources, hpage⟩ := h
  rw [hpage.2.completeness, foldl_report_eq, PortableCompleteness.complete_foldl_merge]
  simp only [hpage.mem_reports]

theorem projectsAll_append {earlier : List PortableChangeBatch} {last : PortableChangeBatch}
    {all : List UnpersistedSynchronizationBatch} :
    ProjectsAll connector sha256 sourceConnectionId reason formatVersion (earlier ++ [last]) all ↔
      ∃ outs out, all = outs ++ [out] ∧
        ProjectsAll connector sha256 sourceConnectionId reason formatVersion earlier outs ∧
        ProjectsTo connector sha256 sourceConnectionId reason formatVersion last out := by
  constructor
  · intro h
    induction earlier generalizing all with
    | nil =>
        cases h with
        | cons hlast hnil =>
            cases hnil
            exact ⟨[], _, rfl, List.Forall₂.nil, hlast⟩
    | cons page earlier ih =>
        cases h with
        | cons hpage hrest =>
            obtain ⟨outs, out, rfl, houts, hout⟩ := ih hrest
            exact ⟨_ :: outs, out, rfl, List.Forall₂.cons hpage houts, hout⟩
  · rintro ⟨outs, out, rfl, houts, hout⟩
    exact List.rel_append houts (List.Forall₂.cons hout List.Forall₂.nil)

theorem distinct_of_projectsAll {pages : List PortableChangeBatch}
    {outs : List UnpersistedSynchronizationBatch}
    (h : ProjectsAll connector sha256 sourceConnectionId reason formatVersion pages outs) :
    ∀ out ∈ outs, out.Distinct := by
  induction h with
  | nil => exact List.forall_mem_nil _
  | cons hpage _ ih =>
      obtain ⟨sources, -, hpage⟩ := hpage
      exact List.forall_mem_cons.mpr ⟨hpage.distinct, ih⟩

/-- Aggregates of two cuts of one list hold the same rows. -/
theorem same_rows {pages pages' : List PortableChangeBatch}
    {outs outs' : List UnpersistedSynchronizationBatch} {final final' : Aggregate}
    (hsame : pages.flatMap (·.changes) = pages'.flatMap (·.changes))
    (h : ProjectsAll connector sha256 sourceConnectionId reason formatVersion pages outs)
    (h' : ProjectsAll connector sha256 sourceConnectionId reason formatVersion pages' outs')
    (hdistinct : PagesDistinct outs) (hdistinct' : PagesDistinct outs')
    (hholds : final.Holds outs) (hholds' : final'.Holds outs') :
    final.observedChanges = final'.observedChanges ∧
      final.sourceVersions = final'.sourceVersions ∧ final.contents = final'.contents ∧
      final.projections = final'.projections := by
  obtain ⟨⟨sources, hsources, hrows, -⟩, -⟩ := exists_rows h hdistinct
  obtain ⟨⟨sources', hsources', hrows', -⟩, -⟩ := exists_rows h' hdistinct'
  rw [hsame, hsources'] at hsources
  cases hsources
  rw [hsame] at hrows
  refine ⟨?_, ?_, ?_, ?_⟩
  · exact hholds.changesKeyed.eq_of_perm hholds'.changesKeyed
      (hholds.changes.trans ((hrows.changes.trans hrows'.changes.symm).trans hholds'.changes.symm))
  · exact hholds.versionsKeyed.eq_of_perm hholds'.versionsKeyed (hholds.sourceVersions.trans
      ((hrows.sourceVersions.trans hrows'.sourceVersions.symm).trans hholds'.sourceVersions.symm))
  · exact hholds.contentsKeyed.eq_of_perm hholds'.contentsKeyed (hholds.contents.trans
      ((hrows.contents_perm hrows' hdistinct hdistinct').trans hholds'.contents.symm))
  · exact hholds.projectionsKeyed.eq_of_perm hholds'.projectionsKeyed (hholds.projections.trans
      ((hrows.projections.trans hrows'.projections.symm).trans hholds'.projections.symm))

end Lists

/-! ## Agreement -/

/-- Both are refused, or both are accepted with one result, but for the order of the
observed changes. -/
def Agree : LocalityResult UnpersistedSynchronizationBatch →
    LocalityResult UnpersistedSynchronizationBatch → Prop
  | .ok paged, .ok whole =>
      paged.observedChanges.Perm whole.observedChanges ∧
      paged.sourceVersions = whole.sourceVersions ∧ paged.contents = whole.contents ∧
      paged.projections = whole.projections ∧ paged.completeness = whole.completeness ∧
      paged.publicationEligible = whole.publicationEligible
  | .error _, .error _ => True
  | _, _ => False

/-- What agreement comes to, where it is known when each side succeeds. -/
theorem agree_iff {paged whole : LocalityResult UnpersistedSynchronizationBatch}
    {paging single same : Prop} (hpaged : (∃ value, paged = .ok value) ↔ paging)
    (hwhole : (∃ value, whole = .ok value) ↔ single)
    (hboth : ∀ value value', paged = .ok value → whole = .ok value' →
      (Agree (.ok value) (.ok value') ↔ same)) :
    Agree paged whole ↔ (paging ↔ single) ∧ (paging → single → same) := by
  cases hp : paged with
  | error error =>
      have hno : ¬ paging := fun h => by
        obtain ⟨value, hvalue⟩ := hpaged.mpr h
        cases hp.symm.trans hvalue
      cases hw : whole with
      | error error' =>
          have hno' : ¬ single := fun h => by
            obtain ⟨value, hvalue⟩ := hwhole.mpr h
            cases hw.symm.trans hvalue
          exact iff_of_true trivial ⟨iff_of_false hno hno', fun h => absurd h hno⟩
      | ok value =>
          exact iff_of_false id fun h => hno (h.1.mpr (hwhole.mp ⟨value, hw⟩))
  | ok value =>
      have hyes := hpaged.mp ⟨value, hp⟩
      cases hw : whole with
      | error error =>
          refine iff_of_false id fun h => ?_
          obtain ⟨value', hvalue⟩ := hwhole.mpr (h.1.mp hyes)
          cases hw.symm.trans hvalue
      | ok value' =>
          have hyes' := hwhole.mp ⟨value', hw⟩
          rw [hboth value value' hp hw]
          exact ⟨fun h => ⟨iff_of_true hyes hyes', fun _ _ => h⟩, fun h => h.2 hyes hyes'⟩

/-- The list of the changes of some pages, as one page. -/
def wholeOf (earlier : List PortableChangeBatch) (last : PortableChangeBatch) :
    PortableChangeBatch :=
  { last with changes := (earlier ++ [last]).flatMap (·.changes) }

/-- A bootstrap over the pages. -/
def bootstrapOver (connector : PureConnector) (sha256 : List UInt8 → List UInt8)
    (request : PortableBootstrapRequest) (formatVersion : UInt32) (limits : AggregationLimits)
    (pages : List PortableChangeBatch) : LocalityResult UnpersistedSynchronizationBatch :=
  ((bootstrapAndProjectToCompletion sha256 request formatVersion limits).run connector.paged
    ⟨pages, []⟩).1

/-- The checkpoints that a bootstrap has seen before it asks. -/
def bootstrapStart (request : PortableBootstrapRequest) : Finset (UInt16 × Text) :=
  (request.checkpoint.map checkpointIdentity).toList.toFinset

def AggregationLimits.Nonzero (limits : AggregationLimits) : Prop :=
  limits.maxCheckpoints ≠ 0 ∧ limits.maxTotalChanges ≠ 0 ∧ limits.maxTotalContentBytes ≠ 0

theorem AggregationLimits.validate_eq_ok {limits : AggregationLimits} {run : Text} {u : Unit} :
    limits.validate run = .ok u ↔ limits.Nonzero := by
  rw [AggregationLimits.validate, refuseIf_eq_ok, not_or, not_or]
  rfl

section Bootstrap

variable {connector : PureConnector} {sha256 : List UInt8 → List UInt8}
  {request : PortableBootstrapRequest} {formatVersion : UInt32} {limits : AggregationLimits}
  {earlier : List PortableChangeBatch} {last : PortableChangeBatch}

/-- No fetch or render of the changes reports the continuation of pages. -/
def NoContinuation (connector : PureConnector) (sourceConnectionId : SourceConnectionId)
    (reason : PortableFetchReason) (formatVersion : UInt32)
    (changes : List PortableSourceChange) : Prop :=
  ∀ report ∈ changes.flatMap (reportsOf connector sourceConnectionId reason formatVersion),
    .checkpointContinuation ∉ report.incompleteReasons

theorem bootstrapOver_eq_ok {value : UnpersistedSynchronizationBatch}
    (hcut : IsCut (bootstrapStart request) earlier last)
    (hlength : earlier.length < limits.maxCheckpoints) :
    bootstrapOver connector sha256 request formatVersion limits (earlier ++ [last]) = .ok value ↔
      limits.Nonzero ∧ ∃ outs out final,
        ProjectsAll connector sha256 request.sourceConnectionId .bootstrap formatVersion earlier
          outs ∧
        ProjectsTo connector sha256 request.sourceConnectionId .bootstrap formatVersion last out ∧
        .checkpointContinuation ∉ out.completeness.incompleteReasons ∧
        pushAll bootstrapRun limits .new ((outs ++ [out]).map withPreserved) = .ok final ∧
        value = final.finish request.sourceConnectionId last.nextCheckpoint := by
  have hcurrent : ∀ checkpoint, request.checkpoint = some checkpoint →
      checkpointIdentity checkpoint ∈ bootstrapStart request := by
    intro checkpoint heq
    rw [bootstrapStart, heq]
    exact List.mem_toFinset.mpr List.mem_cons_self
  constructor
  · intro h
    obtain ⟨left, h⟩ : ∃ left,
        (bootstrapAndProjectToCompletion sha256 request formatVersion limits).run connector.paged
          ⟨earlier ++ [last], []⟩ = (.ok value, left) := ⟨_, Prod.ext h rfl⟩
    obtain ⟨_, middle, hlimits, hrest⟩ := (Program.run_bind_eq_ok connector.paged).mp h
    obtain ⟨hnonzero, rfl⟩ := (Program.run_ofExcept_eq_ok connector.paged).mp hlimits
    exact ⟨AggregationLimits.validate_eq_ok.mp hnonzero,
      ((run_bootstrapLoop_eq_ok earlier hcut hlength hcurrent).mp hrest).2⟩
  · rintro ⟨hnonzero, hpages⟩
    have hrun : (bootstrapAndProjectToCompletion sha256 request formatVersion limits).run
        connector.paged ⟨earlier ++ [last], []⟩ = (.ok value, ⟨[], []⟩) :=
      (Program.run_bind_eq_ok connector.paged).mpr ⟨(), ⟨earlier ++ [last], []⟩,
        (Program.run_ofExcept_eq_ok connector.paged).mpr
          ⟨AggregationLimits.validate_eq_ok.mpr hnonzero, rfl⟩,
        (run_bootstrapLoop_eq_ok earlier hcut hlength hcurrent).mpr ⟨rfl, hpages⟩⟩
    exact congrArg Prod.fst hrun

theorem continuation_iff {out : UnpersistedSynchronizationBatch}
    (hends : .checkpointContinuation ∉ last.completeness.incompleteReasons)
    (hout : ProjectsTo connector sha256 request.sourceConnectionId .bootstrap formatVersion last
      out) :
    .checkpointContinuation ∉ out.completeness.incompleteReasons ↔
      NoContinuation connector request.sourceConnectionId .bootstrap formatVersion
        last.changes := by
  rw [hout.mem_reasons, or_iff_right hends, NoContinuation]
  simp only [not_exists, not_and]

/-- A bootstrap over pages succeeds exactly if the list is sound, each page has one
provenance, no artifact key is rendered on two pages, and the last page is the last one. -/
theorem exists_bootstrapOver_iff (hcut : IsCut (bootstrapStart request) earlier last)
    (hlength : earlier.length < limits.maxCheckpoints) :
    (∃ value, bootstrapOver connector sha256 request formatVersion limits (earlier ++ [last]) =
      .ok value) ↔
      limits.Nonzero ∧
      Sound connector sha256 request.sourceConnectionId .bootstrap formatVersion limits
        ((earlier ++ [last]).flatMap (·.changes)) ∧
      (∀ page ∈ earlier ++ [last], SameProvenance page.changes) ∧
      KeysApart connector request.sourceConnectionId .bootstrap formatVersion (earlier ++ [last]) ∧
      NoContinuation connector request.sourceConnectionId .bootstrap formatVersion
        last.changes := by
  have hfst : ∀ outs : List UnpersistedSynchronizationBatch,
      (outs.map withPreserved).map Prod.fst = outs := by
    intro outs
    rw [List.map_map]
    exact List.map_id outs
  constructor
  · rintro ⟨value, h⟩
    obtain ⟨hnonzero, outs, out, final, houts, hout, hends, hpush, -⟩ :=
      (bootstrapOver_eq_ok hcut hlength).mp h
    have hall := projectsAll_append.mpr ⟨outs, out, rfl, houts, hout⟩
    have hpages : ∀ page ∈ (outs ++ [out]).map withPreserved, page.1.Distinct := by
      intro page hmem
      obtain ⟨found, hfound, rfl⟩ := List.mem_map.mp hmem
      exact distinct_of_projectsAll hall found hfound
    obtain ⟨hdistinct, hfit, -⟩ := pushAll_eq_ok _ hpages hpush
    rw [hfst] at hdistinct hfit
    obtain ⟨hsound, hprovenance, hapart⟩ := exists_pages_iff.mp ⟨_, hall, hdistinct, hfit⟩
    exact ⟨hnonzero, hsound, hprovenance, hapart, (continuation_iff hcut.ends hout).mp hends⟩
  · rintro ⟨hnonzero, hsound, hprovenance, hapart, hends⟩
    obtain ⟨all, hall, hdistinct, hfit⟩ := exists_pages_iff.mpr ⟨hsound, hprovenance, hapart⟩
    obtain ⟨outs, out, rfl, houts, hout⟩ := projectsAll_append.mp hall
    have hpages : ∀ page ∈ (outs ++ [out]).map withPreserved, page.1.Distinct := by
      intro page hmem
      obtain ⟨found, hfound, rfl⟩ := List.mem_map.mp hmem
      exact distinct_of_projectsAll hall found hfound
    rw [← hfst (outs ++ [out])] at hdistinct hfit
    obtain ⟨final, hpush⟩ := exists_pushAll _ hpages hdistinct hfit
    exact ⟨_, (bootstrapOver_eq_ok hcut hlength).mpr ⟨hnonzero, outs, out, final, houts, hout,
      (continuation_iff hcut.ends hout).mpr hends, hpush, rfl⟩⟩

/-- What the earlier pages add to the reasons. -/
theorem reasons_of_earlier {outs : List UnpersistedSynchronizationBatch}
    (hcontinues : ∀ page ∈ earlier, page.completeness = .incomplete .checkpointContinuation)
    (houts : ProjectsAll connector sha256 request.sourceConnectionId .bootstrap formatVersion
      earlier outs) {reason : PortableIncompleteReason} :
    (∃ out ∈ outs, reason ∈ (withPreserved out).2.incompleteReasons) ↔
      reason ≠ .checkpointContinuation ∧
        ∃ report ∈ (earlier.flatMap (·.changes)).flatMap
          (reportsOf connector request.sourceConnectionId .bootstrap formatVersion),
          reason ∈ report.incompleteReasons := by
  induction houts with
  | nil =>
      exact iff_of_false (fun ⟨_, hmem, _⟩ => List.not_mem_nil hmem)
        fun ⟨_, _, hmem, _⟩ => List.not_mem_nil hmem
  | cons hpage _ ih =>
      obtain ⟨hfirst, hrest⟩ := List.forall_mem_cons.mp hcontinues
      have hpage : ProjectsTo connector sha256 request.sourceConnectionId .bootstrap formatVersion
        _ _ := hpage
      simp only [List.mem_cons, exists_eq_left, List.flatMap_cons, List.flatMap_append,
        List.mem_append, or_and_right, exists_or]
      rw [ih hrest, mem_withPreserved, hpage.mem_reasons, hfirst, and_or_left]
      refine or_congr_left ?_
      constructor
      · rintro ⟨hcontinuation | hreport, hne⟩
        · exact absurd (List.mem_singleton.mp hcontinuation) hne
        · exact ⟨hne, hreport⟩
      · exact fun ⟨hne, hreport⟩ => ⟨Or.inr hreport, hne⟩

/-- An earlier page is complete but for its continuation if no reason is given on it. -/
theorem complete_of_earlier {outs : List UnpersistedSynchronizationBatch}
    (hcontinues : ∀ page ∈ earlier, page.completeness = .incomplete .checkpointContinuation)
    (houts : ProjectsAll connector sha256 request.sourceConnectionId .bootstrap formatVersion
      earlier outs) :
    (∀ out ∈ outs, (withPreserved out).2.complete = true) ↔
      ∀ report ∈ (earlier.flatMap (·.changes)).flatMap
        (reportsOf connector request.sourceConnectionId .bootstrap formatVersion),
        ∀ reason ∈ report.incompleteReasons, reason = .checkpointContinuation := by
  induction houts with
  | nil => exact iff_of_true (List.forall_mem_nil _) (List.forall_mem_nil _)
  | cons hpage _ ih =>
      obtain ⟨hfirst, hrest⟩ := List.forall_mem_cons.mp hcontinues
      have hpage : ProjectsTo connector sha256 request.sourceConnectionId .bootstrap formatVersion
        _ _ := hpage
      rw [List.forall_mem_cons, ih hrest, List.flatMap_cons, List.flatMap_append,
        List.forall_mem_append, complete_withPreserved]
      refine and_congr_left fun _ => ?_
      simp only [hpage.mem_reasons, hfirst]
      constructor
      · rintro ⟨hall, -⟩ report hreport reason hreason
        exact hall reason (Or.inr ⟨report, hreport, hreason⟩)
      · intro hall
        refine ⟨?_, fun hnil => ?_⟩
        · rintro reason (hcontinuation | ⟨report, hreport, hreason⟩)
          · exact List.mem_singleton.mp hcontinuation
          · exact hall report hreport reason hreason
        · have hmem : .checkpointContinuation ∈ PortableCompleteness.incompleteReasons _ :=
            hpage.mem_reasons.mpr (Or.inl (by rw [hfirst]; exact List.mem_cons_self))
          rw [hnil] at hmem
          cases hmem

/-- What a bootstrap over pages says of completeness: each reason of the last page, and of
the fetches and renders of all pages; and that it is complete, if the last page is, and no
reason is given. -/
theorem completeness_of_pages {outs : List UnpersistedSynchronizationBatch}
    {out : UnpersistedSynchronizationBatch} {final : Aggregate}
    (hcut : IsCut (bootstrapStart request) earlier last)
    (houts : ProjectsAll connector sha256 request.sourceConnectionId .bootstrap formatVersion
      earlier outs)
    (hout : ProjectsTo connector sha256 request.sourceConnectionId .bootstrap formatVersion last
      out)
    (hends : .checkpointContinuation ∉ out.completeness.incompleteReasons)
    (hfinal : final.completeness = ((outs ++ [out]).map withPreserved).foldl
      (fun held page => held.merge page.2) .full) :
    final.completeness.Normal ∧
    (∀ reason, reason ∈ final.completeness.incompleteReasons ↔
      reason ≠ .checkpointContinuation ∧ (reason ∈ last.completeness.incompleteReasons ∨
        ∃ report ∈ ((earlier ++ [last]).flatMap (·.changes)).flatMap
          (reportsOf connector request.sourceConnectionId .bootstrap formatVersion),
          reason ∈ report.incompleteReasons)) ∧
    (final.completeness.complete = true ↔
      (∀ report ∈ ((earlier ++ [last]).flatMap (·.changes)).flatMap
          (reportsOf connector request.sourceConnectionId .bootstrap formatVersion),
          ∀ reason ∈ report.incompleteReasons, reason = .checkpointContinuation) ∧
        last.completeness.isComplete = true ∧
        ∀ report ∈ last.changes.flatMap
          (reportsOf connector request.sourceConnectionId .bootstrap formatVersion),
          report.complete = true) := by
  have hmerge : final.completeness =
      ((outs ++ [out]).map fun out => (withPreserved out).2).foldl PortableCompleteness.merge
        .full := by
    rw [hfinal, List.foldl_map, List.foldl_map]
  refine ⟨?_, fun reason => ?_, ?_⟩
  · rw [hmerge, List.map_append, List.map_singleton, List.foldl_append, List.foldl_cons,
      List.foldl_nil]
    exact PortableCompleteness.normal_merge _ _
  · have hfull : reason ∉ PortableCompleteness.full.incompleteReasons := List.not_mem_nil
    rw [hmerge, PortableCompleteness.mem_foldl_merge, or_iff_right hfull]
    simp only [List.mem_map, exists_exists_and_eq_and, List.mem_append, List.mem_singleton,
      or_and_right, exists_or, exists_eq_left, exists_eq_left', List.flatMap_append,
      List.flatMap_singleton]
    rw [reasons_of_earlier hcut.continues houts, mem_withPreserved, hout.mem_reasons,
      and_comm (b := reason ≠ .checkpointContinuation), ← and_or_left]
    refine and_congr_right fun _ => ?_
    rw [or_left_comm]
  · have hfull : PortableCompleteness.full.complete = true := rfl
    rw [hmerge, PortableCompleteness.complete_foldl_merge, and_iff_right hfull,
      List.forall_mem_map, List.forall_mem_append, List.forall_mem_singleton,
      complete_of_earlier hcut.continues houts, complete_withPreserved, List.flatMap_append,
      List.flatMap_append, List.forall_mem_append, and_assoc]
    refine and_congr_right fun _ => ?_
    rw [List.flatMap_singleton]
    have hnil : (∀ reason ∈ out.completeness.incompleteReasons,
        reason = .checkpointContinuation) ↔ out.completeness.incompleteReasons = [] := by
      rw [List.eq_nil_iff_forall_not_mem]
      refine forall_congr' fun reason => forall_congr' fun hmem => ?_
      exact iff_of_false (fun heq => hends (heq ▸ hmem)) id
    rw [hnil, hout.complete]
    have hreasons : out.completeness.incompleteReasons = [] ↔
        last.completeness.incompleteReasons = [] ∧
          ∀ report ∈ last.changes.flatMap
            (reportsOf connector request.sourceConnectionId .bootstrap formatVersion),
            report.incompleteReasons = [] := by
      simp only [List.eq_nil_iff_forall_not_mem, hout.mem_reasons, not_or, not_exists, not_and,
        forall_and]
      exact and_congr_right fun _ => ⟨fun h report hmem reason => h reason report hmem,
        fun h reason report hmem => h report hmem reason⟩
    have hlast := (continuation_iff hcut.ends hout).mp hends
    rw [PortableCompleteness.isComplete, Bool.and_eq_true, List.isEmpty_iff]
    constructor
    · rintro ⟨hempty, hcomplete⟩
      obtain ⟨hnone, hsilent⟩ := hreasons.mp hempty
      obtain ⟨hlastComplete, hall⟩ := hcomplete hempty
      exact ⟨fun report hmem reason hreason => absurd hreason (hsilent report hmem ▸
        List.not_mem_nil), ⟨hlastComplete, hnone⟩, hall⟩
    · rintro ⟨honly, ⟨hlastComplete, hnone⟩, hall⟩
      refine ⟨hreasons.mpr ⟨hnone, fun report hmem => ?_⟩, fun _ => ⟨hlastComplete, hall⟩⟩
      refine List.eq_nil_iff_forall_not_mem.mpr fun reason hreason => ?_
      exact hlast report hmem (honly report hmem reason hreason ▸ hreason)

/-- If nothing else is incomplete, and no fetch or render of an earlier page gives a reason,
then each of them is complete. -/
def EarlierHeard (connector : PureConnector) (sourceConnectionId : SourceConnectionId)
    (reason : PortableFetchReason) (formatVersion : UInt32) (earlier : List PortableChangeBatch)
    (last : PortableChangeBatch) : Prop :=
  last.completeness.isComplete = true →
  (∀ report ∈ last.changes.flatMap (reportsOf connector sourceConnectionId reason formatVersion),
    report.isComplete = true) →
  (∀ report ∈ (earlier.flatMap (·.changes)).flatMap
    (reportsOf connector sourceConnectionId reason formatVersion),
    report.incompleteReasons = []) →
  ∀ report ∈ (earlier.flatMap (·.changes)).flatMap
    (reportsOf connector sourceConnectionId reason formatVersion), report.complete = true

theorem isCut_whole (hcut : IsCut (bootstrapStart request) earlier last) :
    IsCut (bootstrapStart request) [] (wholeOf earlier last) :=
  ⟨List.forall_mem_nil _, List.forall_mem_nil _, List.nodup_nil, List.forall_mem_nil _, hcut.ends⟩

theorem bootstrapOver_holds {value : UnpersistedSynchronizationBatch}
    (hcut : IsCut (bootstrapStart request) earlier last)
    (hlength : earlier.length < limits.maxCheckpoints)
    (h : bootstrapOver connector sha256 request formatVersion limits (earlier ++ [last]) =
      .ok value) :
    ∃ outs out, ∃ final : Aggregate,
      ProjectsAll connector sha256 request.sourceConnectionId .bootstrap formatVersion earlier
        outs ∧
      ProjectsTo connector sha256 request.sourceConnectionId .bootstrap formatVersion last out ∧
      .checkpointContinuation ∉ out.completeness.incompleteReasons ∧
      PagesDistinct (outs ++ [out]) ∧ final.Holds (outs ++ [out]) ∧
      final.completeness = ((outs ++ [out]).map withPreserved).foldl
        (fun held page => held.merge page.2) .full ∧
      value = final.finish request.sourceConnectionId last.nextCheckpoint := by
  obtain ⟨-, outs, out, final, houts, hout, hends, hpush, rfl⟩ :=
    (bootstrapOver_eq_ok hcut hlength).mp h
  have hall := projectsAll_append.mpr ⟨outs, out, rfl, houts, hout⟩
  have hpages : ∀ page ∈ (outs ++ [out]).map withPreserved, page.1.Distinct := by
    intro page hmem
    obtain ⟨found, hfound, rfl⟩ := List.mem_map.mp hmem
    exact distinct_of_projectsAll hall found hfound
  have hfst : ((outs ++ [out]).map withPreserved).map Prod.fst = outs ++ [out] := by
    rw [List.map_map]
    exact List.map_id _
  obtain ⟨hdistinct, -, hholds, hcompleteness⟩ := pushAll_eq_ok _ hpages hpush
  rw [hfst] at hdistinct hholds
  exact ⟨outs, out, final, houts, hout, hends, hdistinct, hholds, hcompleteness, rfl⟩

/-- Where both succeed, they agree exactly if nothing of the earlier pages is unheard. -/
theorem agree_ok_iff {value whole : UnpersistedSynchronizationBatch}
    (hcut : IsCut (bootstrapStart request) earlier last)
    (hlength : earlier.length < limits.maxCheckpoints)
    (hpaged : bootstrapOver connector sha256 request formatVersion limits (earlier ++ [last]) =
      .ok value)
    (hwhole : bootstrapOver connector sha256 request formatVersion limits [wholeOf earlier last] =
      .ok whole)
    (hends : NoContinuation connector request.sourceConnectionId .bootstrap formatVersion
      ((earlier ++ [last]).flatMap (·.changes))) :
    Agree (.ok value) (.ok whole) ↔
      EarlierHeard connector request.sourceConnectionId .bootstrap formatVersion earlier last := by
  obtain ⟨outs, out, final, houts, hout, hcontinuation, hdistinct, hholds, hcompleteness, rfl⟩ :=
    bootstrapOver_holds hcut hlength hpaged
  obtain ⟨outs', out', final', houts', hout', hcontinuation', hdistinct', hholds',
    hcompleteness', rfl⟩ := bootstrapOver_holds (isCut_whole hcut)
      (Nat.lt_of_le_of_lt (Nat.zero_le _) hlength) hwhole
  cases houts'
  have hsame : (earlier ++ [last]).flatMap PortableChangeBatch.changes =
      ([] ++ [wholeOf earlier last]).flatMap PortableChangeBatch.changes := by
    rw [List.nil_append, List.flatMap_singleton]
    rfl
  obtain ⟨hchanges, hversions, hcontents, hprojections⟩ := same_rows hsame
    (projectsAll_append.mpr ⟨outs, out, rfl, houts, hout⟩)
    (projectsAll_append.mpr ⟨[], out', rfl, List.Forall₂.nil, hout'⟩) hdistinct hdistinct' hholds
    hholds'
  obtain ⟨hnormal, hreasons, hcomplete⟩ :=
    completeness_of_pages hcut houts hout hcontinuation hcompleteness
  obtain ⟨hnormal', hreasons', hcomplete'⟩ := completeness_of_pages (isCut_whole hcut)
    List.Forall₂.nil hout' hcontinuation' hcompleteness'
  rw [← hsame] at hreasons' hcomplete'
  have hmerged : final.completeness = final'.completeness ↔
      (final.completeness.complete = true ↔ final'.completeness.complete = true) := by
    constructor
    · intro heq
      rw [heq]
    · intro hiff
      exact hnormal.eq hnormal' hiff fun reason => (hreasons reason).trans (hreasons' reason).symm
  have hagree : Agree (.ok (final.finish request.sourceConnectionId last.nextCheckpoint))
      (.ok (final'.finish request.sourceConnectionId (wholeOf earlier last).nextCheckpoint)) ↔
        final.completeness = final'.completeness := by
    constructor
    · exact fun h => h.2.2.2.2.1
    · intro heq
      refine ⟨List.Perm.of_eq ?_, ?_, ?_, ?_, heq, ?_⟩
      · exact congrArg valuesOf hchanges
      · exact congrArg valuesOf hversions
      · exact congrArg valuesOf hcontents
      · exact congrArg valuesOf hprojections
      · exact congrArg PortableCompleteness.isComplete heq
  rw [hagree, hmerged, hcomplete, hcomplete']
  have hreported : ((earlier ++ [last]).flatMap (·.changes)).flatMap
      (reportsOf connector request.sourceConnectionId .bootstrap formatVersion) =
      (earlier.flatMap (·.changes)).flatMap
          (reportsOf connector request.sourceConnectionId .bootstrap formatVersion) ++
        last.changes.flatMap
          (reportsOf connector request.sourceConnectionId .bootstrap formatVersion) := by
    rw [List.flatMap_append, List.flatMap_append, List.flatMap_singleton]
  -- no reason of a report is the continuation, so that no reason is left
  have hsilent : ∀ {report : PortableCompleteness},
      .checkpointContinuation ∉ report.incompleteReasons →
        ((∀ reason ∈ report.incompleteReasons, reason = .checkpointContinuation) ↔
          report.incompleteReasons = []) := by
    intro report hnone
    rw [List.eq_nil_iff_forall_not_mem]
    refine forall_congr' fun reason => forall_congr' fun hmem => ?_
    exact iff_of_false (fun heq => hnone (heq ▸ hmem)) id
  have hwholeReports : (wholeOf earlier last).changes.flatMap
      (reportsOf connector request.sourceConnectionId .bootstrap formatVersion) =
      ((earlier ++ [last]).flatMap (·.changes)).flatMap
        (reportsOf connector request.sourceConnectionId .bootstrap formatVersion) := rfl
  rw [NoContinuation, hreported, List.forall_mem_append] at hends
  rw [hwholeReports, hreported, List.forall_mem_append, List.forall_mem_append]
  constructor
  · intro hiff hlast hlastReports hnone report hmem
    refine (hiff.mp ⟨⟨fun report hmem => ?_, fun report hmem => ?_⟩, hlast, fun report hmem => ?_⟩
      ).2.2.1 report hmem
    · exact (hsilent (hends.1 report hmem)).mpr (hnone report hmem)
    · exact (hsilent (hends.2 report hmem)).mpr (List.eq_nil_iff_forall_not_mem.mpr
        (PortableCompleteness.isComplete_iff.mp (hlastReports report hmem)).2)
    · exact (PortableCompleteness.isComplete_iff.mp (hlastReports report hmem)).1
  · intro hheard
    refine and_congr_right fun honly => and_congr_right fun hlast => ?_
    constructor
    · intro hall
      refine ⟨hheard hlast (fun report hmem => ?_) fun report hmem => ?_, hall⟩
      · have hnil := (hsilent (hends.2 report hmem)).mp (honly.2 report hmem)
        exact PortableCompleteness.isComplete_iff.mpr
          ⟨hall report hmem, List.eq_nil_iff_forall_not_mem.mp hnil⟩
      · exact (hsilent (hends.1 report hmem)).mp (honly.1 report hmem)
    · exact And.right

/-- If the list of the changes is sound: where it is one page, no artifact key is rendered on
two pages and nothing of the earlier pages is unheard; and where the pages have one
provenance each and the last one does not go on, the list has one provenance, and no fetch
or render of it reports a continuation. -/
def SeamlessBootstrap (connector : PureConnector) (sha256 : List UInt8 → List UInt8)
    (request : PortableBootstrapRequest) (formatVersion : UInt32) (limits : AggregationLimits)
    (earlier : List PortableChangeBatch) (last : PortableChangeBatch) : Prop :=
  limits.Nonzero →
  Sound connector sha256 request.sourceConnectionId .bootstrap formatVersion limits
    ((earlier ++ [last]).flatMap (·.changes)) →
  (SameProvenance ((earlier ++ [last]).flatMap (·.changes)) →
    NoContinuation connector request.sourceConnectionId .bootstrap formatVersion
      ((earlier ++ [last]).flatMap (·.changes)) →
    KeysApart connector request.sourceConnectionId .bootstrap formatVersion
      (earlier ++ [last]) ∧
    EarlierHeard connector request.sourceConnectionId .bootstrap formatVersion earlier last) ∧
  ((∀ page ∈ earlier ++ [last], SameProvenance page.changes) →
    KeysApart connector request.sourceConnectionId .bootstrap formatVersion
      (earlier ++ [last]) →
    NoContinuation connector request.sourceConnectionId .bootstrap formatVersion last.changes →
    SameProvenance ((earlier ++ [last]).flatMap (·.changes)) ∧
    NoContinuation connector request.sourceConnectionId .bootstrap formatVersion
      ((earlier ++ [last]).flatMap (·.changes)))

/-- A list is bootstrapped in pages as it is as one page, exactly if the pages are seamless. -/
theorem bootstrap_agrees_iff (hcut : IsCut (bootstrapStart request) earlier last)
    (hlength : earlier.length < limits.maxCheckpoints) :
    Agree (bootstrapOver connector sha256 request formatVersion limits (earlier ++ [last]))
      (bootstrapOver connector sha256 request formatVersion limits [wholeOf earlier last]) ↔
    SeamlessBootstrap connector sha256 request formatVersion limits earlier last := by
  have hwhole : (∃ value, bootstrapOver connector sha256 request formatVersion limits
      ([] ++ [wholeOf earlier last]) = .ok value) ↔ _ :=
    exists_bootstrapOver_iff (isCut_whole hcut) (Nat.lt_of_le_of_lt (Nat.zero_le _) hlength)
  have hsame : ([] ++ [wholeOf earlier last]).flatMap PortableChangeBatch.changes =
      (earlier ++ [last]).flatMap PortableChangeBatch.changes := by
    rw [List.nil_append, List.flatMap_singleton]
    rfl
  rw [hsame, List.nil_append, List.forall_mem_singleton] at hwhole
  rw [agree_iff (exists_bootstrapOver_iff hcut hlength) hwhole fun value whole hpaged hone =>
    agree_ok_iff hcut hlength hpaged hone (hwhole.mp ⟨whole, hone⟩).2.2.2.2]
  have hone : KeysApart connector request.sourceConnectionId .bootstrap formatVersion
      [wholeOf earlier last] := List.pairwise_singleton _ _
  have hpages : SameProvenance ((earlier ++ [last]).flatMap (·.changes)) →
      ∀ page ∈ earlier ++ [last], SameProvenance page.changes := by
    rintro ⟨hasRoot, hall⟩ page hpage
    exact ⟨hasRoot, fun change hmem => hall change (List.mem_flatMap.mpr ⟨page, hpage, hmem⟩)⟩
  have hends : NoContinuation connector request.sourceConnectionId .bootstrap formatVersion
      ((earlier ++ [last]).flatMap (·.changes)) →
      NoContinuation connector request.sourceConnectionId .bootstrap formatVersion
        last.changes := by
    intro hall report hmem
    refine hall report ?_
    rw [List.flatMap_append, List.flatMap_append, List.flatMap_singleton]
    exact List.mem_append_right _ hmem
  constructor
  · rintro ⟨hiff, hheard⟩ hnonzero hsound
    constructor
    · intro hprovenance hnone
      have hpaged := hiff.mpr ⟨hnonzero, hsound, hprovenance, hone, hnone⟩
      exact ⟨hpaged.2.2.2.1, hheard hpaged ⟨hnonzero, hsound, hprovenance, hone, hnone⟩⟩
    · intro hprovenance hapart hnone
      have hsingle := hiff.mp ⟨hnonzero, hsound, hprovenance, hapart, hnone⟩
      exact ⟨hsingle.2.2.1, hsingle.2.2.2.2⟩
  · intro hcondition
    refine ⟨⟨?_, ?_⟩, ?_⟩
    · rintro ⟨hnonzero, hsound, hprovenance, hapart, hnone⟩
      obtain ⟨hsameProvenance, hsilent⟩ :=
        (hcondition hnonzero hsound).2 hprovenance hapart hnone
      exact ⟨hnonzero, hsound, hsameProvenance, hone, hsilent⟩
    · rintro ⟨hnonzero, hsound, hprovenance, -, hnone⟩
      obtain ⟨hapart, -⟩ := (hcondition hnonzero hsound).1 hprovenance hnone
      exact ⟨hnonzero, hsound, hpages hprovenance, hapart, hends hnone⟩
    · rintro - ⟨hnonzero, hsound, hprovenance, -, hnone⟩
      exact ((hcondition hnonzero hsound).1 hprovenance hnone).2

end Bootstrap

end Locality.Engine
