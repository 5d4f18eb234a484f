/-
  Engine/Paging.lean --- what the pages of a list of changes are together, and the list as
  one page.

  Pages are pushed one after the other exactly if no key is on two of them and the totals
  stay within the limits.  They have the rows of the whole list, and the totals of it,
  where no artifact key is rendered on two pages.
-/
import Locality.Engine.PureProjection

set_option autoImplicit false

namespace Locality.Engine

open Locality.Core Locality.Foundation Locality.Protocol Locality.Connector

/-! ## Rows of pages -/

/-- No identifier, artifact key or path is on the pages twice. -/
structure PagesDistinct (pages : List UnpersistedSynchronizationBatch) : Prop where
  changes : ((pages.flatMap (·.observedChanges)).map changeId).Nodup
  sourceVersions : ((pages.flatMap (·.sourceVersions)).map versionId).Nodup
  contents : ((pages.flatMap (·.contents)).map ImmutableContentCandidate.artifactKey).Nodup
  projections :
    ((pages.flatMap (·.projections)).map ImmutableProjectionCandidate.artifactKey).Nodup
  paths : ((pages.flatMap (·.projections)).map projectionPath).Nodup

/-- The totals of the pages are words, and within the limits. -/
structure PagesFit (limits : AggregationLimits) (pages : List UnpersistedSynchronizationBatch) :
    Prop where
  changesWord : (pages.flatMap (·.observedChanges)).length < 2 ^ 64
  changes : (pages.flatMap (·.observedChanges)).length ≤ limits.maxTotalChanges
  bytesWord : Aggregate.contentBytes (pages.flatMap (·.contents)) < 2 ^ 64
  bytes : Aggregate.contentBytes (pages.flatMap (·.contents)) ≤ limits.maxTotalContentBytes

theorem nodup_map_append {α κ : Type} {key : α → κ} {rows rows' : List α} :
    ((rows ++ rows').map key).Nodup ↔
      (rows.map key).Nodup ∧ (rows'.map key).Nodup ∧ ∀ row ∈ rows', key row ∉ rows.map key := by
  rw [List.map_append, List.nodup_append]
  refine and_congr_right fun _ => and_congr_right fun _ => ?_
  constructor
  · exact fun h row hrow hmem => h _ hmem _ (List.mem_map_of_mem hrow) rfl
  · rintro h k hmem k' hmem' rfl
    obtain ⟨row, hrow, rfl⟩ := List.mem_map.mp hmem'
    exact h row hrow hmem

theorem contentBytes_append (contents contents' : List ImmutableContentCandidate) :
    Aggregate.contentBytes (contents ++ contents') =
      Aggregate.contentBytes contents + Aggregate.contentBytes contents' := by
  rw [Aggregate.contentBytes, List.map_append, List.sum_append_nat]
  rfl

/-- A page is admitted to an aggregate of pages exactly if it has no key of them. -/
theorem pagesDistinct_append {held : Aggregate} {pages : List UnpersistedSynchronizationBatch}
    {page : UnpersistedSynchronizationBatch} (h : held.Holds pages)
    (hdistinct : PagesDistinct pages) (hpage : page.Distinct) :
    PagesDistinct (pages ++ [page]) ↔ held.Admits page := by
  have hfresh : ∀ {κ α : Type} {cmp : κ → κ → Ordering} [Std.TransCmp cmp]
      [Std.LawfulEqCmp cmp] {key : α → κ} {table : Std.ExtTreeMap κ α cmp} {rows : List α},
      Keyed key table → (valuesOf table).Perm rows → ∀ k, table[k]? = none ↔ k ∉ rows.map key := by
    intro κ α cmp _ _ key table rows hkeyed hperm k
    rw [hkeyed.getElem?_eq_none, (hperm.map key).mem_iff]
  have hflatMap : ∀ {α : Type} (rows : UnpersistedSynchronizationBatch → List α),
      (pages ++ [page]).flatMap rows = pages.flatMap rows ++ rows page := by
    intro α rows
    rw [List.flatMap_append, List.flatMap_singleton]
  constructor
  · intro hall
    have hchanges := hall.changes
    have hversions := hall.sourceVersions
    have hcontents := hall.contents
    have hprojections := hall.projections
    have hpaths := hall.paths
    rw [hflatMap, nodup_map_append] at hchanges hversions hcontents hprojections hpaths
    exact {
      changes := fun change hmem =>
        (hfresh h.changesKeyed h.changes _).mpr (hchanges.2.2 change hmem)
      sourceVersions := fun source hmem =>
        (hfresh h.versionsKeyed h.sourceVersions _).mpr (hversions.2.2 source hmem)
      contents := fun content hmem =>
        (hfresh h.contentsKeyed h.contents _).mpr (hcontents.2.2 content hmem)
      projections := fun projection hmem =>
        (hfresh h.projectionsKeyed h.projections _).mpr (hprojections.2.2 projection hmem)
      paths := fun projection hmem => (h.pathsOf _).not.mpr (hpaths.2.2 projection hmem) }
  · intro hadmits
    refine ⟨?_, ?_, ?_, ?_, ?_⟩
    · rw [hflatMap, nodup_map_append]
      exact ⟨hdistinct.changes, hpage.changes, fun change hmem =>
        (hfresh h.changesKeyed h.changes _).mp (hadmits.changes change hmem)⟩
    · rw [hflatMap, nodup_map_append]
      exact ⟨hdistinct.sourceVersions, hpage.sourceVersions, fun source hmem =>
        (hfresh h.versionsKeyed h.sourceVersions _).mp (hadmits.sourceVersions source hmem)⟩
    · rw [hflatMap, nodup_map_append]
      exact ⟨hdistinct.contents, hpage.contents, fun content hmem =>
        (hfresh h.contentsKeyed h.contents _).mp (hadmits.contents content hmem)⟩
    · rw [hflatMap, nodup_map_append]
      exact ⟨hdistinct.projections, hpage.projections, fun projection hmem =>
        (hfresh h.projectionsKeyed h.projections _).mp (hadmits.projections projection hmem)⟩
    · rw [hflatMap, nodup_map_append]
      exact ⟨hdistinct.paths, hpage.paths, fun projection hmem =>
        (h.pathsOf _).not.mp (hadmits.paths projection hmem)⟩

theorem PagesDistinct.of_append {pages pages' : List UnpersistedSynchronizationBatch}
    (h : PagesDistinct (pages ++ pages')) : PagesDistinct pages := by
  obtain ⟨hchanges, hversions, hcontents, hprojections, hpaths⟩ := h
  rw [List.flatMap_append, nodup_map_append] at hchanges hversions hcontents hprojections hpaths
  exact ⟨hchanges.1, hversions.1, hcontents.1, hprojections.1, hpaths.1⟩

theorem pagesDistinct_nil : PagesDistinct [] :=
  ⟨List.nodup_nil, List.nodup_nil, List.nodup_nil, List.nodup_nil, List.nodup_nil⟩

theorem pagesFit_nil (limits : AggregationLimits) : PagesFit limits [] :=
  ⟨by decide, Nat.zero_le _, by decide, Nat.zero_le _⟩

/-- The totals of the pages and one more. -/
theorem pagesFit_append {limits : AggregationLimits} {held : Aggregate}
    {pages : List UnpersistedSynchronizationBatch} {page : UnpersistedSynchronizationBatch}
    (h : held.Holds pages) : PagesFit limits (pages ++ [page]) ↔ held.Fits page limits := by
  have hchanges : ((pages ++ [page]).flatMap (·.observedChanges)).length =
      held.totalChanges + page.observedChanges.length := by
    rw [List.flatMap_append, List.flatMap_singleton, List.length_append, h.totalChanges]
  have hbytes : Aggregate.contentBytes ((pages ++ [page]).flatMap (·.contents)) =
      held.totalContentBytes + Aggregate.contentBytes page.contents := by
    rw [List.flatMap_append, List.flatMap_singleton, contentBytes_append, h.totalContentBytes]
  constructor
  · rintro ⟨hword, hlimit, hbytesWord, hbytesLimit⟩
    rw [hchanges] at hword hlimit
    rw [hbytes] at hbytesWord hbytesLimit
    exact ⟨hword, hlimit, hbytesWord, hbytesLimit⟩
  · rintro ⟨hword, hlimit, hbytesWord, hbytesLimit⟩
    rw [← hchanges] at hword hlimit
    rw [← hbytes] at hbytesWord hbytesLimit
    exact ⟨hword, hlimit, hbytesWord, hbytesLimit⟩

theorem PagesFit.of_append {limits : AggregationLimits}
    {pages pages' : List UnpersistedSynchronizationBatch} (h : PagesFit limits (pages ++ pages')) :
    PagesFit limits pages := by
  obtain ⟨hword, hlimit, hbytesWord, hbytesLimit⟩ := h
  rw [List.flatMap_append, List.length_append] at hword hlimit
  rw [List.flatMap_append, contentBytes_append] at hbytesWord hbytesLimit
  exact ⟨by omega, by omega, by omega, by omega⟩

/-! ## Pushing pages -/

/-- A page, and the completeness that it is pushed with. -/
abbrev PushedPage : Type := UnpersistedSynchronizationBatch × PortableCompleteness

def pushAll (run : Text) (limits : AggregationLimits) (held : Aggregate)
    (pages : List PushedPage) : LocalityResult Aggregate :=
  pages.foldlM (fun held page => held.push run page.1 page.2 limits) held

theorem pushAll_eq_ok {run : Text} {limits : AggregationLimits} (pages : List PushedPage)
    (hpages : ∀ page ∈ pages, page.1.Distinct) :
    ∀ {final : Aggregate}, pushAll run limits .new pages = .ok final →
      PagesDistinct (pages.map Prod.fst) ∧ PagesFit limits (pages.map Prod.fst) ∧
      final.Holds (pages.map Prod.fst) ∧
      final.completeness = pages.foldl (fun held page => held.merge page.2) .full := by
  induction pages using List.reverseRecOn with
  | nil =>
      intro final h
      cases h
      exact ⟨pagesDistinct_nil, pagesFit_nil limits, Aggregate.holds_new, rfl⟩
  | append_singleton pages page ih =>
      intro final h
      obtain ⟨hearlier, hlast⟩ := List.forall_mem_append.mp hpages
      rw [pushAll, List.foldlM_append] at h
      obtain ⟨held, hheld, h⟩ := bind_eq_ok.mp h
      obtain ⟨next, hpush, h⟩ := bind_eq_ok.mp h
      cases h
      obtain ⟨hdistinct, -, hholds, hcompleteness⟩ := ih hearlier hheld
      obtain ⟨hadmits, hfits, rfl⟩ := Aggregate.push_eq_ok.mp hpush
      have hpage := hlast page List.mem_cons_self
      rw [List.map_append, List.map_singleton]
      refine ⟨(pagesDistinct_append hholds hdistinct hpage).mpr hadmits,
        (pagesFit_append hholds).mpr hfits, hholds.pushed hpage hadmits page.2, ?_⟩
      rw [List.foldl_append, ← hcompleteness, List.foldl_cons, List.foldl_nil]
      rfl

theorem exists_pushAll {run : Text} {limits : AggregationLimits} (pages : List PushedPage)
    (hpages : ∀ page ∈ pages, page.1.Distinct) (hdistinct : PagesDistinct (pages.map Prod.fst))
    (hfit : PagesFit limits (pages.map Prod.fst)) :
    ∃ final, pushAll run limits .new pages = .ok final := by
  induction pages using List.reverseRecOn with
  | nil => exact ⟨.new, rfl⟩
  | append_singleton pages page ih =>
      obtain ⟨hearlier, hlast⟩ := List.forall_mem_append.mp hpages
      rw [List.map_append, List.map_singleton] at hdistinct hfit
      obtain ⟨held, hheld⟩ := ih hearlier hdistinct.of_append hfit.of_append
      obtain ⟨hbefore, -, hholds, -⟩ := pushAll_eq_ok pages hearlier hheld
      have hpush : held.push run page.1 page.2 limits = .ok (held.pushed page.1 page.2) :=
        Aggregate.push_eq_ok.mpr ⟨(pagesDistinct_append hholds hbefore (hlast page List.mem_cons_self)).mp
          hdistinct, (pagesFit_append hholds).mp hfit, rfl⟩
      refine ⟨held.pushed page.1 page.2, ?_⟩
      rw [pushAll, List.foldlM_append]
      exact bind_eq_ok.mpr ⟨held, hheld, bind_eq_ok.mpr ⟨_, hpush, rfl⟩⟩

/-! ## Rows of a list of changes -/

/-- The pages have the rows of the changes and of the sources. -/
structure RowsOf (sha256 : List UInt8 → List UInt8) (changes : List PortableSourceChange)
    (sources : List RenderedSource) (pages : List UnpersistedSynchronizationBatch) : Prop where
  changes : (pages.flatMap (·.observedChanges)).Perm changes
  sourceVersions : (pages.flatMap (·.sourceVersions)).Perm
    (sources.map (RenderedSource.version sha256))
  projections : (pages.flatMap (·.projections)).Perm
    (sources.flatMap (RenderedSource.candidates sha256))
  contents : ∀ candidate, candidate ∈ pages.flatMap (·.contents) ↔
    ∃ artifact ∈ sources.flatMap RenderedSource.artifacts,
      contentCandidate sha256 artifact = candidate

section Rows

variable {sha256 : List UInt8 → List UInt8} {formatVersion : UInt32}
  {sourceConnectionId : SourceConnectionId} {changes changes' : List PortableSourceChange}
  {sources sources' : List RenderedSource} {pages pages' : List UnpersistedSynchronizationBatch}

theorem rowsOf_nil : RowsOf sha256 [] [] [] :=
  ⟨List.Perm.nil, List.Perm.nil, List.Perm.nil,
    fun _ => iff_of_false List.not_mem_nil fun ⟨_, hmem, _⟩ => List.not_mem_nil hmem⟩

theorem RowsOf.append (h : RowsOf sha256 changes sources pages)
    (h' : RowsOf sha256 changes' sources' pages') :
    RowsOf sha256 (changes ++ changes') (sources ++ sources') (pages ++ pages') := by
  refine ⟨?_, ?_, ?_, fun candidate => ?_⟩
  · rw [List.flatMap_append]
    exact h.changes.append h'.changes
  · rw [List.flatMap_append, List.map_append]
    exact h.sourceVersions.append h'.sourceVersions
  · rw [List.flatMap_append, List.flatMap_append]
    exact h.projections.append h'.projections
  · rw [List.flatMap_append, List.flatMap_append, List.mem_append, h.contents, h'.contents]
    simp only [List.mem_append, or_and_right, exists_or]

/-- The order of the sources does not matter. -/
theorem RowsOf.perm (h : RowsOf sha256 changes sources pages) (hperm : sources.Perm sources') :
    RowsOf sha256 changes sources' pages := by
  refine ⟨h.changes, h.sourceVersions.trans (hperm.map _), h.projections.trans (hperm.flatMap_right _),
    fun candidate => ?_⟩
  rw [h.contents]
  simp only [(hperm.flatMap_right RenderedSource.artifacts).mem_iff]

theorem IsPage.rowsOf {batch : PortableChangeBatch} {page : UnpersistedSynchronizationBatch}
    (h : IsPage sha256 formatVersion sourceConnectionId batch sources page) :
    RowsOf sha256 batch.changes sources [page] := by
  obtain ⟨projected, hprojected, rfl⟩ := h.projected
  obtain ⟨-, hholds, -, hversions⟩ := addSources_eq_ok sources hprojected
  refine ⟨?_, ?_, ?_, fun candidate => ?_⟩
  · rw [List.flatMap_singleton]
    exact List.perm_insertionSort changeLe batch.changes
  · rw [List.flatMap_singleton, ← hversions]
    exact List.perm_insertionSort sourceVersionLe _
  · rw [List.flatMap_singleton]
    exact hholds.projections
  · rw [List.flatMap_singleton]
    refine mem_valuesOf.trans ?_
    constructor
    · rintro ⟨key, hlookup⟩
      obtain ⟨artifact, hmem, -, hcandidate⟩ := (hholds.contents key candidate).mp hlookup
      exact ⟨artifact, hmem, hcandidate⟩
    · rintro ⟨artifact, hmem, hcandidate⟩
      exact ⟨artifact.artifactKey,
        (hholds.contents _ candidate).mpr ⟨artifact, hmem, rfl, hcandidate⟩⟩

/-- Pages with the rows of one list have the same rows, where no key is on two of them. -/
theorem RowsOf.contents_perm (h : RowsOf sha256 changes sources pages)
    (h' : RowsOf sha256 changes' sources pages') (hdistinct : PagesDistinct pages)
    (hdistinct' : PagesDistinct pages') :
    (pages.flatMap (·.contents)).Perm (pages'.flatMap (·.contents)) := by
  refine (List.perm_ext_iff_of_nodup hdistinct.contents.of_map hdistinct'.contents.of_map).mpr
    fun candidate => ?_
  rw [h.contents, h'.contents]

end Rows

/-! ## Lists that are projected, in pages and as one -/

/-- All of the changes have an owning root, or none has. -/
def SameProvenance (changes : List PortableSourceChange) : Prop :=
  ∃ hasRoot : Bool, ∀ change ∈ changes, ∃ root,
    change.sourceObject.portableScopeRootRemoteId = .ok root ∧ root.isSome = hasRoot

/-- The bytes of the artifacts, each content once. -/
def sharedBytes (sha256 : List UInt8 → List UInt8) (sources : List RenderedSource) : Nat :=
  Aggregate.contentBytes
    ((sources.flatMap RenderedSource.artifacts).map (contentCandidate sha256)).dedup

section Setup

variable (connector : PureConnector) (sha256 : List UInt8 → List UInt8)
  (sourceConnectionId : SourceConnectionId) (reason : PortableFetchReason)
  (formatVersion : UInt32)

/-- The artifacts that are rendered of a change. -/
def artifactsOf (change : PortableSourceChange) : List PortableContentArtifact :=
  match renderedSource connector sourceConnectionId reason formatVersion change with
  | .ok sources => sources.flatMap RenderedSource.artifacts
  | .error _ => []

/-- No artifact key is rendered of changes on two pages. -/
def KeysApart (pages : List PortableChangeBatch) : Prop :=
  pages.Pairwise fun page page' =>
    ∀ artifact ∈ page.changes.flatMap (artifactsOf connector sourceConnectionId reason formatVersion),
    ∀ artifact' ∈
      page'.changes.flatMap (artifactsOf connector sourceConnectionId reason formatVersion),
      artifact.artifactKey ≠ artifact'.artifactKey

/-- What is asked of a list of changes however it is cut: its sources are of the connection,
each once, they are rendered and go together, and the totals are within the limits. -/
structure Sound (limits : AggregationLimits) (changes : List PortableSourceChange) : Prop where
  connection : ∀ change ∈ changes, change.sourceObject.sourceConnectionId = sourceConnectionId
  distinct : (changes.map changeId).Nodup
  count : changes.length < 2 ^ 64 ∧ changes.length ≤ limits.maxTotalChanges
  sources : ∃ sources,
    renderedSources connector sourceConnectionId reason formatVersion changes = .ok sources ∧
    Compatible sha256 formatVersion sources ∧
    sharedBytes sha256 sources < 2 ^ 64 ∧ sharedBytes sha256 sources ≤ limits.maxTotalContentBytes

/-- The pages as they are projected. -/
def ProjectsAll (pages : List PortableChangeBatch) (outs : List UnpersistedSynchronizationBatch) :
    Prop :=
  List.Forall₂ (fun page out => ∃ sources,
    Projects connector sha256 sourceConnectionId reason formatVersion page sources out) pages outs

end Setup

section Lists

variable {connector : PureConnector} {sha256 : List UInt8 → List UInt8}
  {sourceConnectionId : SourceConnectionId} {reason : PortableFetchReason}
  {formatVersion : UInt32}

theorem flatMap_artifacts (changes : List PortableSourceChange) :
    ∀ {sources : List RenderedSource},
      renderedSources connector sourceConnectionId reason formatVersion changes = .ok sources →
        sources.flatMap RenderedSource.artifacts =
          changes.flatMap (artifactsOf connector sourceConnectionId reason formatVersion) := by
  induction changes with
  | nil =>
      intro sources h
      cases h
      rfl
  | cons change changes ih =>
      intro sources h
      obtain ⟨first, rest, hfirst, hrest, rfl⟩ := renderedSources_cons_eq_ok.mp h
      rw [List.flatMap_append, List.flatMap_cons, ih hrest, artifactsOf, hfirst]

theorem Compatible.perm {sources sources' : List RenderedSource}
    (h : Compatible sha256 formatVersion sources) (hperm : sources.Perm sources') :
    Compatible sha256 formatVersion sources' where
  valid := fun source hmem => h.valid source (hperm.mem_iff.mpr hmem)
  contents := fun artifact hmem artifact' hmem' =>
    h.contents artifact ((hperm.flatMap_right _).mem_iff.mpr hmem) artifact'
      ((hperm.flatMap_right _).mem_iff.mpr hmem')
  canonical := (hperm.map _).nodup_iff.mp h.canonical
  projections := ((hperm.flatMap_right _).map _).nodup_iff.mp h.projections
  paths := ((hperm.flatMap_right _).map _).nodup_iff.mp h.paths

/-- Sources that go together do so in each part. -/
theorem Compatible.append {sources sources' : List RenderedSource}
    (h : Compatible sha256 formatVersion (sources ++ sources')) :
    Compatible sha256 formatVersion sources ∧ Compatible sha256 formatVersion sources' := by
  obtain ⟨hvalid, hcontents, hcanonical, hprojections, hpaths⟩ := h
  rw [List.forall_mem_append] at hvalid
  rw [nodup_map_append] at hcanonical
  rw [List.flatMap_append] at hcontents
  rw [List.flatMap_append, nodup_map_append] at hprojections hpaths
  exact ⟨⟨hvalid.1, fun artifact hmem artifact' hmem' =>
      hcontents artifact (List.mem_append_left _ hmem) artifact' (List.mem_append_left _ hmem'),
      hcanonical.1, hprojections.1, hpaths.1⟩,
    ⟨hvalid.2, fun artifact hmem artifact' hmem' =>
      hcontents artifact (List.mem_append_right _ hmem) artifact'
        (List.mem_append_right _ hmem'), hcanonical.2.1, hprojections.2.1, hpaths.2.1⟩⟩

/-- Pages that have the rows of the sources, with no key on two of them, have their bytes. -/
theorem RowsOf.contentBytes {changes : List PortableSourceChange} {sources : List RenderedSource}
    {pages : List UnpersistedSynchronizationBatch} (h : RowsOf sha256 changes sources pages)
    (hnodup : ((pages.flatMap (·.contents)).map ImmutableContentCandidate.artifactKey).Nodup) :
    Aggregate.contentBytes (pages.flatMap (·.contents)) = sharedBytes sha256 sources := by
  have hperm : (pages.flatMap (·.contents)).Perm
      ((sources.flatMap RenderedSource.artifacts).map (contentCandidate sha256)).dedup := by
    refine (List.perm_ext_iff_of_nodup hnodup.of_map (List.nodup_dedup _)).mpr fun candidate => ?_
    rw [h.contents, List.mem_dedup, List.mem_map]
  exact (hperm.map ImmutableContentCandidate.byteLength).sum_nat

theorem Projects.rendered {page : PortableChangeBatch} {sources : List RenderedSource}
    {out : UnpersistedSynchronizationBatch}
    (h : Projects connector sha256 sourceConnectionId reason formatVersion page sources out) :
    ∃ sources', sources.Perm sources' ∧
      renderedSources connector sourceConnectionId reason formatVersion page.changes =
        .ok sources' := by
  obtain ⟨sources', hrendered, hperm⟩ :=
    exists_renderedSources_of_perm (List.perm_insertionSort changeLe page.changes) h.1
  exact ⟨sources', hperm, hrendered⟩

theorem Projects.compatible {page : PortableChangeBatch} {sources : List RenderedSource}
    {out : UnpersistedSynchronizationBatch}
    (h : Projects connector sha256 sourceConnectionId reason formatVersion page sources out) :
    Compatible sha256 formatVersion sources := by
  obtain ⟨projected, hprojected, -⟩ := h.2.projected
  exact compatible_iff.mpr ⟨projected, hprojected⟩

theorem artifacts_of_contents {changes : List PortableSourceChange} {sources : List RenderedSource}
    {pages : List UnpersistedSynchronizationBatch} (h : RowsOf sha256 changes sources pages)
    {artifact : PortableContentArtifact}
    (hmem : artifact ∈ sources.flatMap RenderedSource.artifacts) :
    artifact.artifactKey ∈
      (pages.flatMap (·.contents)).map ImmutableContentCandidate.artifactKey :=
  List.mem_map.mpr ⟨contentCandidate sha256 artifact, (h.contents _).mpr ⟨artifact, hmem, rfl⟩, rfl⟩

theorem canonical_mem_artifacts {sources : List RenderedSource} {source : RenderedSource}
    (hmem : source ∈ sources) :
    source.rendered.canonical ∈ sources.flatMap RenderedSource.artifacts :=
  List.mem_flatMap.mpr ⟨source, hmem, List.mem_cons_self⟩

theorem PagesDistinct.of_cons {page : UnpersistedSynchronizationBatch}
    {pages : List UnpersistedSynchronizationBatch} (h : PagesDistinct (page :: pages)) :
    PagesDistinct pages := by
  obtain ⟨hchanges, hversions, hcontents, hprojections, hpaths⟩ := h
  rw [List.flatMap_cons, nodup_map_append] at hchanges hversions hcontents hprojections hpaths
  exact ⟨hchanges.2.1, hversions.2.1, hcontents.2.1, hprojections.2.1, hpaths.2.1⟩

/-- What the pages say of the list: its sources, and that its keys are apart. -/
theorem exists_rows {pages : List PortableChangeBatch}
    {outs : List UnpersistedSynchronizationBatch}
    (h : ProjectsAll connector sha256 sourceConnectionId reason formatVersion pages outs)
    (hdistinct : PagesDistinct outs) :
    (∃ sources, renderedSources connector sourceConnectionId reason formatVersion
        (pages.flatMap (·.changes)) = .ok sources ∧
      RowsOf sha256 (pages.flatMap (·.changes)) sources outs ∧
      (∀ source ∈ sources, RenderedSource.Valid formatVersion source) ∧
      (sources.map fun source => source.rendered.canonical.artifactKey).Nodup) ∧
    KeysApart connector sourceConnectionId reason formatVersion pages := by
  induction h with
  | nil => exact ⟨⟨[], rfl, rowsOf_nil, List.forall_mem_nil _, List.nodup_nil⟩, List.Pairwise.nil⟩
  | @cons page out pages outs hpage _ ih =>
      obtain ⟨sources, hpage⟩ := hpage
      obtain ⟨⟨rest, hrest, hrows, hvalid, hcanonical⟩, hapart⟩ := ih hdistinct.of_cons
      obtain ⟨first, hperm, hfirst⟩ := hpage.rendered
      have hcompatible := hpage.compatible.perm hperm
      have hfirstRows := hpage.2.rowsOf.perm hperm
      have hfresh : ∀ artifact ∈ first.flatMap RenderedSource.artifacts,
          ∀ artifact' ∈ rest.flatMap RenderedSource.artifacts,
            artifact.artifactKey ≠ artifact'.artifactKey := by
        intro artifact hmem artifact' hmem' heq
        have hcontents := hdistinct.contents
        rw [List.flatMap_cons, nodup_map_append] at hcontents
        have hkey := artifacts_of_contents hfirstRows hmem
        have hkey' := artifacts_of_contents hrows hmem'
        rw [List.flatMap_singleton] at hkey
        obtain ⟨content, hcontent, hsame⟩ := List.mem_map.mp hkey'
        exact hcontents.2.2 content hcontent (hsame ▸ heq ▸ hkey)
      refine ⟨⟨first ++ rest, ?_, hfirstRows.append hrows, ?_, ?_⟩, ?_⟩
      · rw [List.flatMap_cons]
        exact (renderedSources_append_eq_ok _).mpr ⟨first, rest, hfirst, hrest, rfl⟩
      · exact List.forall_mem_append.mpr ⟨hcompatible.valid, hvalid⟩
      · refine nodup_map_append.mpr ⟨hcompatible.canonical, hcanonical, fun source hmem hkey => ?_⟩
        obtain ⟨source', hmem', hsame⟩ := List.mem_map.mp hkey
        exact hfresh _ (canonical_mem_artifacts hmem') _ (canonical_mem_artifacts hmem) hsame
      · refine List.pairwise_cons.mpr ⟨fun page' hmem artifact hfound artifact' hfound' => ?_, hapart⟩
        rw [← flatMap_artifacts _ hfirst] at hfound
        refine hfresh artifact hfound artifact' ?_
        rw [flatMap_artifacts _ hrest]
        obtain ⟨change, hchange, hartifact⟩ := List.mem_flatMap.mp hfound'
        exact List.mem_flatMap.mpr ⟨change, List.mem_flatMap.mpr ⟨page', hmem, hchange⟩, hartifact⟩

/-- Two artifacts of the pages with one key have one content, as no key is there twice. -/
theorem RowsOf.consistent {changes : List PortableSourceChange} {sources : List RenderedSource}
    {pages : List UnpersistedSynchronizationBatch} (h : RowsOf sha256 changes sources pages)
    (hnodup : ((pages.flatMap (·.contents)).map ImmutableContentCandidate.artifactKey).Nodup) :
    Consistent sha256 (sources.flatMap RenderedSource.artifacts) := by
  intro artifact hmem artifact' hmem' hkey
  have hcontent := (h.contents _).mpr ⟨artifact, hmem, rfl⟩
  have hcontent' := (h.contents _).mpr ⟨artifact', hmem', rfl⟩
  exact List.inj_on_of_nodup_map hnodup hcontent hcontent' hkey

theorem provenance_of_projectsAll {pages : List PortableChangeBatch}
    {outs : List UnpersistedSynchronizationBatch}
    (h : ProjectsAll connector sha256 sourceConnectionId reason formatVersion pages outs) :
    ∀ page ∈ pages, SameProvenance page.changes ∧
      ∀ change ∈ page.changes, change.sourceObject.sourceConnectionId = sourceConnectionId := by
  induction h with
  | nil => exact List.forall_mem_nil _
  | cons hpage _ ih =>
      obtain ⟨sources, -, hpage⟩ := hpage
      have hvalid := hpage.changes.perm (List.perm_insertionSort changeLe _)
      exact List.forall_mem_cons.mpr ⟨⟨hvalid.provenance, hvalid.connection⟩, ih⟩

/-- The pages are accepted one by one. -/
theorem exists_projectsAll (pages : List PortableChangeBatch)
    (hconnection : ∀ change ∈ pages.flatMap (·.changes),
      change.sourceObject.sourceConnectionId = sourceConnectionId)
    (hdistinct : ((pages.flatMap (·.changes)).map changeId).Nodup)
    (hprovenance : ∀ page ∈ pages, SameProvenance page.changes) : ∀ {sources : List RenderedSource},
    renderedSources connector sourceConnectionId reason formatVersion
      (pages.flatMap (·.changes)) = .ok sources →
    Compatible sha256 formatVersion sources →
    ∃ outs, ProjectsAll connector sha256 sourceConnectionId reason formatVersion pages outs ∧
      RowsOf sha256 (pages.flatMap (·.changes)) sources outs ∧
      (KeysApart connector sourceConnectionId reason formatVersion pages →
        ((outs.flatMap (·.contents)).map ImmutableContentCandidate.artifactKey).Nodup) := by
  induction pages with
  | nil =>
      intro sources hsources _
      cases hsources
      exact ⟨[], List.Forall₂.nil, rowsOf_nil, fun _ => List.nodup_nil⟩
  | cons page pages ih =>
      intro sources hsources hcompatible
      rw [List.flatMap_cons] at hconnection hdistinct hsources
      obtain ⟨hpageConnection, hrestConnection⟩ := List.forall_mem_append.mp hconnection
      obtain ⟨hpageDistinct, hrestDistinct, -⟩ := nodup_map_append.mp hdistinct
      obtain ⟨hpageProvenance, hrestProvenance⟩ := List.forall_mem_cons.mp hprovenance
      obtain ⟨first, rest, hfirst, hrest, rfl⟩ := (renderedSources_append_eq_ok _).mp hsources
      obtain ⟨hpageCompatible, hrestCompatible⟩ := hcompatible.append
      obtain ⟨outs, houts, hrows, hcontents⟩ :=
        ih hrestConnection hrestDistinct hrestProvenance hrest hrestCompatible
      have hsorted := (List.perm_insertionSort changeLe page.changes).symm
      obtain ⟨ordered, hordered, hperm⟩ := exists_renderedSources_of_perm hsorted hfirst
      obtain ⟨projected, hprojected⟩ :=
        compatible_iff.mp (hpageCompatible.perm hperm)
      have hchanges : ValidChanges sourceConnectionId (page.changes.insertionSort changeLe) :=
        ValidChanges.perm ⟨hpageConnection, hpageDistinct, hpageProvenance⟩ hsorted
      have hpage : IsPage sha256 formatVersion sourceConnectionId page ordered
          (projected.finish sourceConnectionId (page.changes.insertionSort changeLe)
            page.nextCheckpoint) :=
        ⟨hchanges, map_change_of_renderedSources _ hordered, projected, hprojected, rfl⟩
      have hpageRows := hpage.rowsOf.perm hperm.symm
      refine ⟨_ :: outs, List.Forall₂.cons ⟨ordered, hordered, hpage⟩ houts,
        hpageRows.append hrows, fun hapart => ?_⟩
      obtain ⟨hfresh, hapart⟩ := List.pairwise_cons.mp hapart
      rw [List.flatMap_cons, nodup_map_append]
      refine ⟨hpage.distinct.contents, hcontents hapart, fun content hmem hkey => ?_⟩
      -- a key of the other pages is rendered there, and one of this page is rendered here
      obtain ⟨artifact', hartifact', rfl⟩ := (hrows.contents content).mp hmem
      obtain ⟨content, hcontent, hsame⟩ := List.mem_map.mp hkey
      obtain ⟨artifact, hartifact, rfl⟩ := (hpageRows.contents content).mp
        (List.mem_flatMap.mpr ⟨_, List.mem_cons_self, hcontent⟩)
      rw [flatMap_artifacts _ hrest] at hartifact'
      rw [flatMap_artifacts _ hfirst] at hartifact
      obtain ⟨change, hchange, hfound⟩ := List.mem_flatMap.mp hartifact'
      obtain ⟨page', hpage', hchange⟩ := List.mem_flatMap.mp hchange
      exact hfresh page' hpage' artifact hartifact artifact'
        (List.mem_flatMap.mpr ⟨change, hchange, hfound⟩) hsame

/-- The versions of distinct changes are distinct. -/
theorem nodup_versions {changes : List PortableSourceChange} {sources : List RenderedSource}
    (hdistinct : (changes.map changeId).Nodup)
    (hsources : renderedSources connector sourceConnectionId reason formatVersion changes =
      .ok sources) : ((sources.map (RenderedSource.version sha256)).map versionId).Nodup := by
  have hids : (sources.map (RenderedSource.version sha256)).map versionId =
      (sources.map RenderedSource.change).map changeId := by
    rw [List.map_map, List.map_map]
    rfl
  rw [hids, map_change_of_renderedSources _ hsources]
  exact hdistinct.sublist (List.filter_sublist.map changeId)

/-- Pages go together exactly if the list of their changes is sound, the changes of each
page have one provenance, and no artifact key is rendered on two pages. -/
theorem exists_pages_iff {limits : AggregationLimits} {pages : List PortableChangeBatch} :
    (∃ outs, ProjectsAll connector sha256 sourceConnectionId reason formatVersion pages outs ∧
      PagesDistinct outs ∧ PagesFit limits outs) ↔
    Sound connector sha256 sourceConnectionId reason formatVersion limits
        (pages.flatMap (·.changes)) ∧
      (∀ page ∈ pages, SameProvenance page.changes) ∧
      KeysApart connector sourceConnectionId reason formatVersion pages := by
  constructor
  · rintro ⟨outs, houts, hdistinct, hfit⟩
    obtain ⟨⟨sources, hsources, hrows, hvalid, hcanonical⟩, hapart⟩ := exists_rows houts hdistinct
    have hpages := provenance_of_projectsAll houts
    have hbytes := hrows.contentBytes hdistinct.contents
    have hcount := hrows.changes.length_eq
    refine ⟨⟨fun change hmem => ?_, (hrows.changes.map changeId).nodup_iff.mp hdistinct.changes,
      ⟨hcount ▸ hfit.changesWord, hcount ▸ hfit.changes⟩, sources, hsources, ?_,
      hbytes ▸ hfit.bytesWord, hbytes ▸ hfit.bytes⟩, fun page hmem => (hpages page hmem).1, hapart⟩
    · obtain ⟨page, hpage, hchange⟩ := List.mem_flatMap.mp hmem
      exact (hpages page hpage).2 change hchange
    · exact {
        valid := hvalid
        contents := hrows.consistent hdistinct.contents
        canonical := hcanonical
        projections := (hrows.projections.map _).nodup_iff.mp hdistinct.projections
        paths := (hrows.projections.map _).nodup_iff.mp hdistinct.paths }
  · rintro ⟨hsound, hprovenance, hapart⟩
    obtain ⟨sources, hsources, hcompatible, hword, hlimit⟩ := hsound.sources
    obtain ⟨outs, houts, hrows, hcontents⟩ := exists_projectsAll pages hsound.connection
      hsound.distinct hprovenance hsources hcompatible
    have hcontents := hcontents hapart
    have hbytes := hrows.contentBytes hcontents
    have hcount := hrows.changes.length_eq
    refine ⟨outs, houts, ?_, ⟨hcount ▸ hsound.count.1, hcount ▸ hsound.count.2,
      hbytes ▸ hword, hbytes ▸ hlimit⟩⟩
    exact {
      changes := (hrows.changes.map changeId).nodup_iff.mpr hsound.distinct
      sourceVersions := (hrows.sourceVersions.map versionId).nodup_iff.mpr
        (nodup_versions hsound.distinct hsources)
      contents := hcontents
      projections := (hrows.projections.map _).nodup_iff.mpr hcompatible.projections
      paths := (hrows.projections.map _).nodup_iff.mpr hcompatible.paths }

end Lists

end Locality.Engine
