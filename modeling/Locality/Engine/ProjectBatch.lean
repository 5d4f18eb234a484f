/-
  Engine/ProjectBatch.lean --- what projecting a batch accepts, and what it makes of the
  sources that were fetched and rendered.

  A batch accepts its sources exactly if each of them is rendered as it should be, and if
  the keys and the paths of all of them are compatible: which source comes first does not
  matter.
-/
import Locality.Engine.Aggregation

set_option autoImplicit false

namespace Locality.Engine

open Locality.Core Locality.Foundation Locality.Protocol Locality.Connector

/-- A source that was fetched and rendered. -/
structure RenderedSource where
  change : PortableSourceChange
  fetched : PortableFetchResult
  rendered : PortableRenderResult

section Sha256

variable (sha256 : List UInt8 → List UInt8) (formatVersion : UInt32)

namespace RenderedSource

variable (self : RenderedSource)

def artifacts : List PortableContentArtifact :=
  self.rendered.canonical :: self.rendered.projections.map PortableProjectionArtifact.artifact

def candidates : List ImmutableProjectionCandidate :=
  self.rendered.projections.map (projectionCandidate sha256 self.change.sourceObject.remoteId)

def version : ImmutableSourceVersionCandidate where
  sourceObject := self.change.sourceObject
  providerVersion := self.fetched.providerVersion
  nativeSha256 := sha256Label sha256 self.fetched.native.raw
  canonicalSha256 := sha256Label sha256 self.rendered.canonical.body
  nativeBody := self.fetched.native.raw
  canonicalArtifactKey := self.rendered.canonical.artifactKey

/-- The completeness with what the source was reported with. -/
def report (completeness : PortableCompleteness) : PortableCompleteness :=
  (completeness.merge self.fetched.completeness).merge self.rendered.completeness

/-- The artifacts of the source are valid, and it has projections of the right format. -/
structure Valid (source : RenderedSource) : Prop where
  canonical : validateArtifact source.rendered.canonical = .ok ()
  nonempty : source.rendered.projections ≠ []
  projections : ∀ projection ∈ source.rendered.projections,
    validateProjection source.change.sourceObject.remoteId formatVersion projection = .ok ()

end RenderedSource

def addSource (batch : ProjectedBatch) (source : RenderedSource) : LocalityResult ProjectedBatch :=
  addRendered sha256 formatVersion batch source.change source.fetched source.rendered

/-! ## Contents -/

/-- The table has the candidates of the artifacts, each under its key. -/
def HoldsContents (table : ContentTable) (artifacts : List PortableContentArtifact) : Prop :=
  ∀ key candidate, table[key]? = some candidate ↔
    ∃ artifact ∈ artifacts, artifact.artifactKey = key ∧ contentCandidate sha256 artifact = candidate

/-- Artifacts with one key have one content. -/
def Consistent (artifacts : List PortableContentArtifact) : Prop :=
  ∀ artifact ∈ artifacts, ∀ artifact' ∈ artifacts, artifact.artifactKey = artifact'.artifactKey →
    contentCandidate sha256 artifact = contentCandidate sha256 artifact'

variable {sha256} {formatVersion}

theorem HoldsContents.consistent {table : ContentTable} {artifacts : List PortableContentArtifact}
    (h : HoldsContents sha256 table artifacts) : Consistent sha256 artifacts := by
  intro artifact hmem artifact' hmem' hkey
  have hlookup := (h artifact.artifactKey _).mpr ⟨artifact, hmem, rfl, rfl⟩
  have hlookup' := (h artifact'.artifactKey _).mpr ⟨artifact', hmem', rfl, rfl⟩
  rw [← hkey, hlookup] at hlookup'
  exact Option.some.inj hlookup'

theorem holdsContents_empty : HoldsContents sha256 ∅ [] := by
  intro key candidate
  rw [Std.ExtTreeMap.getElem?_empty]
  exact iff_of_false nofun fun ⟨_, hmem, _⟩ => nomatch hmem

/-- What an insertion accepts, and what it leaves. -/
theorem insertContent_eq_ok {table next : ContentTable} {artifacts : List PortableContentArtifact}
    (h : HoldsContents sha256 table artifacts) (artifact : PortableContentArtifact) :
    insertContent sha256 table artifact = .ok next →
      validateArtifact artifact = .ok () ∧ HoldsContents sha256 next (artifacts ++ [artifact]) := by
  intro hinsert
  obtain ⟨_, hvalid, hinsert⟩ := bind_eq_ok.mp hinsert
  refine ⟨hvalid, fun key candidate => ?_⟩
  have hmem : (∃ found ∈ artifacts ++ [artifact], found.artifactKey = key ∧
      contentCandidate sha256 found = candidate) ↔
      table[key]? = some candidate ∨
        artifact.artifactKey = key ∧ contentCandidate sha256 artifact = candidate := by
    rw [h key candidate]
    simp only [List.mem_append, List.mem_singleton, or_and_right, exists_or, exists_eq_left]
  rw [hmem]
  cases hlookup : table[artifact.artifactKey]? with
  | none =>
      have hlookup' : table[(contentCandidate sha256 artifact).artifactKey]? = none := hlookup
      dsimp only at hinsert
      rw [hlookup'] at hinsert
      cases hinsert
      rw [getElem?_insert_eq]
      split
      · rename_i hkey
        have hkey : artifact.artifactKey = key := hkey
        rw [← hkey, hlookup, Option.some.injEq]
        constructor
        · exact fun heq => Or.inr ⟨rfl, heq⟩
        · rintro (hnone | ⟨-, heq⟩)
          · cases hnone
          · exact heq
      · rename_i hkey
        exact (or_iff_left fun hsame => hkey hsame.1).symm
  | some existing =>
      have hlookup' : table[(contentCandidate sha256 artifact).artifactKey]? = some existing :=
        hlookup
      dsimp only at hinsert
      rw [hlookup'] at hinsert
      obtain ⟨_, hsame, hinsert⟩ := bind_eq_ok.mp hinsert
      cases hinsert
      refine (or_iff_left_of_imp ?_).symm
      rintro ⟨rfl, rfl⟩
      rw [hlookup, not_not.mp (refuseIf_eq_ok.mp hsame)]

theorem exists_insertContent {table : ContentTable} {artifacts : List PortableContentArtifact}
    (h : HoldsContents sha256 table artifacts) {artifact : PortableContentArtifact}
    (hvalid : validateArtifact artifact = .ok ())
    (hconsistent : Consistent sha256 (artifacts ++ [artifact])) :
    ∃ next, insertContent sha256 table artifact = .ok next := by
  cases hlookup : table[artifact.artifactKey]? with
  | none =>
      refine ⟨table.insert artifact.artifactKey (contentCandidate sha256 artifact),
        bind_eq_ok.mpr ⟨(), hvalid, ?_⟩⟩
      have hlookup' : table[(contentCandidate sha256 artifact).artifactKey]? = none := hlookup
      dsimp only
      rw [hlookup']
      rfl
  | some existing =>
      have hlookup' : table[(contentCandidate sha256 artifact).artifactKey]? = some existing :=
        hlookup
      obtain ⟨found, hmem, hkey, rfl⟩ := (h _ _).mp hlookup
      have hsame := hconsistent found (List.mem_append_left _ hmem) artifact
        (List.mem_append_right _ List.mem_cons_self) hkey
      refine ⟨table, bind_eq_ok.mpr ⟨(), hvalid, ?_⟩⟩
      dsimp only
      rw [hlookup']
      exact bind_eq_ok.mpr ⟨(), refuseIf_eq_ok.mpr (not_not.mpr hsame), rfl⟩

/-! ## Batches -/

/-- The batch has the artifacts, the canonical keys and the projections, each key and path
of a projection once. -/
structure ProjectedBatch.Holds (sha256 : List UInt8 → List UInt8) (held : ProjectedBatch)
    (artifacts : List PortableContentArtifact) (canonicalKeys : List PortableArtifactKey)
    (candidates : List ImmutableProjectionCandidate) : Prop where
  contents : HoldsContents sha256 held.contents artifacts
  canonicalOf : ∀ key, key ∈ held.canonicalArtifactKeys ↔ key ∈ canonicalKeys
  canonical : canonicalKeys.Nodup
  projectionsKeyed : Keyed ImmutableProjectionCandidate.artifactKey held.projections
  projections : (valuesOf held.projections).Perm candidates
  pathsOf : ∀ path, path ∈ held.projectionPaths ↔ path ∈ candidates.map projectionPath
  paths : (candidates.map projectionPath).Nodup

section Add

variable {batch next : ProjectedBatch} {artifacts : List PortableContentArtifact}
  {canonicalKeys : List PortableArtifactKey} {projections : List ImmutableProjectionCandidate}
  {remoteId : RemoteId}

theorem ProjectedBatch.Holds.key_fresh (h : ProjectedBatch.Holds sha256 batch artifacts canonicalKeys projections)
    {key : PortableArtifactKey} : batch.projections[key]? = none ↔
      key ∉ projections.map ImmutableProjectionCandidate.artifactKey := by
  rw [h.projectionsKeyed.getElem?_eq_none,
    (h.projections.map ImmutableProjectionCandidate.artifactKey).mem_iff]

theorem addProjection_eq_ok (h : ProjectedBatch.Holds sha256 batch artifacts canonicalKeys projections)
    {projection : PortableProjectionArtifact}
    (hadd : addProjection sha256 remoteId formatVersion batch projection = .ok next) :
    validateProjection remoteId formatVersion projection = .ok () ∧
      ProjectedBatch.Holds sha256 next (artifacts ++ [projection.artifact]) canonicalKeys
        (projections ++ [projectionCandidate sha256 remoteId projection]) ∧
      next.completeness = batch.completeness ∧ next.sourceVersions = batch.sourceVersions := by
  obtain ⟨_, hvalid, hadd⟩ := bind_eq_ok.mp hadd
  obtain ⟨contents, hcontents, hadd⟩ := bind_eq_ok.mp hadd
  obtain ⟨_, hpath, hadd⟩ := bind_eq_ok.mp hadd
  obtain ⟨_, hkey, hadd⟩ := bind_eq_ok.mp hadd
  have hpath := (h.pathsOf _).not.mp (refuseIf_eq_ok.mp hpath)
  have hkey := Aggregate.refuseIf_contains_eq_ok.mp hkey
  cases hadd
  refine ⟨hvalid, ?_, rfl, rfl⟩
  exact {
    contents := (insertContent_eq_ok h.contents _ hcontents).2
    canonicalOf := h.canonicalOf
    canonical := h.canonical
    projectionsKeyed := h.projectionsKeyed.insert _
    projections := (perm_valuesOf_insert hkey _).trans
      ((h.projections.cons _).trans (List.perm_append_singleton _ _).symm)
    pathsOf := fun path => by
      rw [Finset.mem_insert, h.pathsOf, List.map_append, List.mem_append, List.map_singleton,
        List.mem_singleton, or_comm]
      rfl
    paths := by
      rw [List.map_append, List.map_singleton, List.nodup_append]
      refine ⟨h.paths, List.nodup_singleton _, fun path hmem path' hmem' heq => ?_⟩
      rw [List.mem_singleton] at hmem'
      rw [heq, hmem'] at hmem
      exact hpath hmem }

theorem exists_addProjection (h : ProjectedBatch.Holds sha256 batch artifacts canonicalKeys projections)
    {projection : PortableProjectionArtifact}
    (hvalid : validateProjection remoteId formatVersion projection = .ok ())
    (hconsistent : Consistent sha256 (artifacts ++ [projection.artifact]))
    (hkey : projection.artifact.artifactKey ∉
      projections.map ImmutableProjectionCandidate.artifactKey)
    (hpath : projection.logicalPath.value ∉ projections.map projectionPath) :
    ∃ next, addProjection sha256 remoteId formatVersion batch projection = .ok next := by
  obtain ⟨_, hartifact, -⟩ := bind_eq_ok.mp hvalid
  obtain ⟨contents, hcontents⟩ := exists_insertContent h.contents hartifact hconsistent
  exact ⟨_, bind_eq_ok.mpr ⟨(), hvalid, bind_eq_ok.mpr ⟨contents, hcontents,
    bind_eq_ok.mpr ⟨(), refuseIf_eq_ok.mpr ((h.pathsOf _).not.mpr hpath),
      bind_eq_ok.mpr ⟨(), Aggregate.refuseIf_contains_eq_ok.mpr (h.key_fresh.mpr hkey), rfl⟩⟩⟩⟩⟩

/-- The projections of a source, one after the other. -/
theorem foldlM_addProjection_eq_ok (list : List PortableProjectionArtifact) :
    ∀ {batch : ProjectedBatch} {artifacts : List PortableContentArtifact}
      {projections : List ImmutableProjectionCandidate},
      ProjectedBatch.Holds sha256 batch artifacts canonicalKeys projections →
      list.foldlM (addProjection sha256 remoteId formatVersion) batch = .ok next →
        (∀ projection ∈ list, validateProjection remoteId formatVersion projection = .ok ()) ∧
        ProjectedBatch.Holds sha256 next (artifacts ++ list.map PortableProjectionArtifact.artifact) canonicalKeys
          (projections ++ list.map (projectionCandidate sha256 remoteId)) ∧
        next.completeness = batch.completeness ∧ next.sourceVersions = batch.sourceVersions := by
  induction list with
  | nil =>
      intro batch artifacts projections h hfold
      cases hfold
      rw [List.map_nil, List.map_nil, List.append_nil, List.append_nil]
      exact ⟨List.forall_mem_nil _, h, rfl, rfl⟩
  | cons projection list ih =>
      intro batch artifacts projections h hfold
      obtain ⟨middle, hadd, hfold⟩ := bind_eq_ok.mp hfold
      obtain ⟨hvalid, hmiddle, hcompleteness, hversions⟩ := addProjection_eq_ok h hadd
      obtain ⟨hrest, hnext, hcompleteness', hversions'⟩ := ih hmiddle hfold
      rw [List.append_assoc, List.append_assoc] at hnext
      exact ⟨List.forall_mem_cons.mpr ⟨hvalid, hrest⟩, hnext, hcompleteness'.trans hcompleteness,
        hversions'.trans hversions⟩

theorem exists_foldlM_addProjection (list : List PortableProjectionArtifact) :
    ∀ {batch : ProjectedBatch} {artifacts : List PortableContentArtifact}
      {projections : List ImmutableProjectionCandidate},
      ProjectedBatch.Holds sha256 batch artifacts canonicalKeys projections →
      (∀ projection ∈ list, validateProjection remoteId formatVersion projection = .ok ()) →
      Consistent sha256 (artifacts ++ list.map PortableProjectionArtifact.artifact) →
      ((projections ++ list.map (projectionCandidate sha256 remoteId)).map
        ImmutableProjectionCandidate.artifactKey).Nodup →
      ((projections ++ list.map (projectionCandidate sha256 remoteId)).map projectionPath).Nodup →
        ∃ next, list.foldlM (addProjection sha256 remoteId formatVersion) batch = .ok next := by
  induction list with
  | nil => exact fun _ _ _ _ _ => ⟨_, rfl⟩
  | cons projection list ih =>
      intro batch artifacts projections h hvalid hconsistent hkeys hpaths
      obtain ⟨hfirst, hvalid⟩ := List.forall_mem_cons.mp hvalid
      rw [List.map_cons, List.append_cons] at hconsistent hkeys hpaths
      have hfresh : ∀ {α : Type} {key : ImmutableProjectionCandidate → α},
          ((projections ++ [projectionCandidate sha256 remoteId projection] ++
            list.map (projectionCandidate sha256 remoteId)).map key).Nodup →
          key (projectionCandidate sha256 remoteId projection) ∉ projections.map key := by
        intro α key hnodup hmem
        rw [List.map_append, List.map_append, List.map_singleton] at hnodup
        exact (List.nodup_append.mp (List.nodup_append.mp hnodup).1).2.2 _ hmem _
          List.mem_cons_self rfl
      obtain ⟨middle, hadd⟩ := exists_addProjection h hfirst
        (fun artifact hmem artifact' hmem' => hconsistent artifact (List.mem_append_left _ hmem)
          artifact' (List.mem_append_left _ hmem')) (hfresh hkeys) (hfresh hpaths)
      obtain ⟨next, hnext⟩ := ih (addProjection_eq_ok h hadd).2.1 hvalid hconsistent hkeys hpaths
      exact ⟨next, bind_eq_ok.mpr ⟨middle, hadd, hnext⟩⟩

/-! ## Sources -/

/-- Where a source is added, its canonical key is new. -/
theorem ProjectedBatch.Holds.insertCanonical
    (h : ProjectedBatch.Holds sha256 batch artifacts canonicalKeys projections)
    {artifact : PortableContentArtifact} {contents : ContentTable}
    (hkey : artifact.artifactKey ∉ canonicalKeys)
    (hcontents : HoldsContents sha256 contents (artifacts ++ [artifact]))
    (completeness : PortableCompleteness) :
    ProjectedBatch.Holds sha256 { batch with
      completeness
      contents
      canonicalArtifactKeys := insert artifact.artifactKey batch.canonicalArtifactKeys }
      (artifacts ++ [artifact]) (canonicalKeys ++ [artifact.artifactKey]) projections where
  contents := hcontents
  canonicalOf := fun key => by
    rw [Finset.mem_insert, h.canonicalOf, List.mem_append, List.mem_singleton, or_comm]
  canonical := by
    rw [List.nodup_append]
    refine ⟨h.canonical, List.nodup_singleton _, fun key hmem key' hmem' heq => ?_⟩
    rw [List.mem_singleton] at hmem'
    rw [heq, hmem'] at hmem
    exact hkey hmem
  projectionsKeyed := h.projectionsKeyed
  projections := h.projections
  pathsOf := h.pathsOf
  paths := h.paths

theorem addSource_eq_ok (h : ProjectedBatch.Holds sha256 batch artifacts canonicalKeys projections)
    {source : RenderedSource} (hadd : addSource sha256 formatVersion batch source = .ok next) :
    RenderedSource.Valid formatVersion source ∧
      ProjectedBatch.Holds sha256 next (artifacts ++ source.artifacts)
        (canonicalKeys ++ [source.rendered.canonical.artifactKey])
        (projections ++ source.candidates sha256) ∧
      next.completeness = source.report batch.completeness ∧
      next.sourceVersions = batch.sourceVersions ++ [source.version sha256] := by
  obtain ⟨_, hcanonical, hadd⟩ := bind_eq_ok.mp hadd
  obtain ⟨_, hnonempty, hadd⟩ := bind_eq_ok.mp hadd
  obtain ⟨_, hkey, hadd⟩ := bind_eq_ok.mp hadd
  obtain ⟨contents, hcontents, hadd⟩ := bind_eq_ok.mp hadd
  obtain ⟨middle, hfold, hadd⟩ := bind_eq_ok.mp hadd
  have hkey := (h.canonicalOf _).not.mp (refuseIf_eq_ok.mp hkey)
  obtain ⟨hprojections, hmiddle, hcompleteness, hversions⟩ := foldlM_addProjection_eq_ok _
    (h.insertCanonical hkey (insertContent_eq_ok h.contents _ hcontents).2 _) hfold
  cases hadd
  rw [List.append_assoc, List.singleton_append] at hmiddle
  refine ⟨⟨hcanonical, refuseIf_eq_ok.mp hnonempty, hprojections⟩,
    ⟨hmiddle.contents, hmiddle.canonicalOf, hmiddle.canonical, hmiddle.projectionsKeyed,
      hmiddle.projections, hmiddle.pathsOf, hmiddle.paths⟩, hcompleteness, ?_⟩
  exact congrArg (· ++ [source.version sha256]) hversions

theorem exists_addSource (h : ProjectedBatch.Holds sha256 batch artifacts canonicalKeys projections)
    {source : RenderedSource} (hvalid : RenderedSource.Valid formatVersion source)
    (hconsistent : Consistent sha256 (artifacts ++ source.artifacts))
    (hcanonical : source.rendered.canonical.artifactKey ∉ canonicalKeys)
    (hkeys : ((projections ++ source.candidates sha256).map
      ImmutableProjectionCandidate.artifactKey).Nodup)
    (hpaths : ((projections ++ source.candidates sha256).map projectionPath).Nodup) :
    ∃ next, addSource sha256 formatVersion batch source = .ok next := by
  rw [RenderedSource.artifacts, List.append_cons] at hconsistent
  obtain ⟨contents, hcontents⟩ := exists_insertContent h.contents hvalid.canonical
    fun artifact hmem artifact' hmem' => hconsistent artifact (List.mem_append_left _ hmem)
      artifact' (List.mem_append_left _ hmem')
  obtain ⟨next, hnext⟩ := exists_foldlM_addProjection source.rendered.projections
    (h.insertCanonical hcanonical (insertContent_eq_ok h.contents _ hcontents).2
      (source.report batch.completeness)) hvalid.projections hconsistent hkeys hpaths
  exact ⟨_, bind_eq_ok.mpr ⟨(), hvalid.canonical, bind_eq_ok.mpr ⟨(),
    refuseIf_eq_ok.mpr hvalid.nonempty, bind_eq_ok.mpr ⟨(),
      refuseIf_eq_ok.mpr ((h.canonicalOf _).not.mpr hcanonical),
      bind_eq_ok.mpr ⟨contents, hcontents, bind_eq_ok.mpr ⟨next, hnext, rfl⟩⟩⟩⟩⟩⟩

end Add

/-! ## Lists of sources -/

/-- The sources go together in one batch. -/
structure Compatible (sha256 : List UInt8 → List UInt8) (formatVersion : UInt32)
    (sources : List RenderedSource) : Prop where
  valid : ∀ source ∈ sources, RenderedSource.Valid formatVersion source
  contents : Consistent sha256 (sources.flatMap RenderedSource.artifacts)
  canonical : (sources.map fun source => source.rendered.canonical.artifactKey).Nodup
  projections : ((sources.flatMap (RenderedSource.candidates sha256)).map
    ImmutableProjectionCandidate.artifactKey).Nodup
  paths : ((sources.flatMap (RenderedSource.candidates sha256)).map projectionPath).Nodup

def addSources (sha256 : List UInt8 → List UInt8) (formatVersion : UInt32)
    (completeness : PortableCompleteness) (sources : List RenderedSource) :
    LocalityResult ProjectedBatch :=
  sources.foldlM (addSource sha256 formatVersion) (.start completeness)

theorem holds_start (completeness : PortableCompleteness) :
    ProjectedBatch.Holds sha256 (.start completeness) [] [] [] where
  contents := holdsContents_empty
  canonicalOf := fun _ => iff_of_false (Finset.notMem_empty _) List.not_mem_nil
  canonical := List.nodup_nil
  projectionsKeyed := keyed_empty _
  projections := List.Perm.of_eq valuesOf_empty
  pathsOf := fun _ => iff_of_false (Finset.notMem_empty _) List.not_mem_nil
  paths := List.nodup_nil

theorem addSources_eq_ok {completeness : PortableCompleteness} {batch : ProjectedBatch}
    (sources : List RenderedSource)
    (h : addSources sha256 formatVersion completeness sources = .ok batch) :
    (∀ source ∈ sources, RenderedSource.Valid formatVersion source) ∧
      ProjectedBatch.Holds sha256 batch (sources.flatMap RenderedSource.artifacts)
        (sources.map fun source => source.rendered.canonical.artifactKey)
        (sources.flatMap (RenderedSource.candidates sha256)) ∧
      batch.completeness =
        sources.foldl (fun completeness source => source.report completeness) completeness ∧
      batch.sourceVersions = sources.map (RenderedSource.version sha256) := by
  induction sources using List.reverseRecOn generalizing batch with
  | nil =>
      cases h
      exact ⟨List.forall_mem_nil _, holds_start completeness, rfl, rfl⟩
  | append_singleton sources source ih =>
      rw [addSources, List.foldlM_append] at h
      obtain ⟨middle, hmiddle, h⟩ := bind_eq_ok.mp h
      obtain ⟨next, hadd, h⟩ := bind_eq_ok.mp h
      cases h
      obtain ⟨hvalid, hholds, hcompleteness, hversions⟩ := ih hmiddle
      obtain ⟨hlast, hnext, hcompleteness', hversions'⟩ := addSource_eq_ok hholds hadd
      refine ⟨?_, ?_, ?_, ?_⟩
      · rw [List.forall_mem_append]
        exact ⟨hvalid, List.forall_mem_singleton.mpr hlast⟩
      · simp only [List.flatMap_append, List.flatMap_singleton, List.map_append,
          List.map_singleton]
        exact hnext
      · rw [List.foldl_append, ← hcompleteness, List.foldl_cons, List.foldl_nil]
        exact hcompleteness'
      · rw [List.map_append, ← hversions, List.map_singleton]
        exact hversions'

/-- Sources are accepted exactly if they are compatible. -/
theorem compatible_iff {completeness : PortableCompleteness} {sources : List RenderedSource} :
    Compatible sha256 formatVersion sources ↔
      ∃ batch, addSources sha256 formatVersion completeness sources = .ok batch := by
  constructor
  · intro h
    induction sources using List.reverseRecOn with
    | nil => exact ⟨_, rfl⟩
    | append_singleton sources source ih =>
        have hvalid := List.forall_mem_append.mp h.valid
        have hcontents := h.contents
        have hcanonical := h.canonical
        have hkeys := h.projections
        have hpaths := h.paths
        simp only [List.flatMap_append, List.flatMap_singleton, List.map_append,
          List.map_singleton] at hcontents hcanonical hkeys hpaths
        obtain ⟨middle, hmiddle⟩ := ih {
          valid := hvalid.1
          contents := fun artifact hmem artifact' hmem' =>
            hcontents artifact (List.mem_append_left _ hmem) artifact'
              (List.mem_append_left _ hmem')
          canonical := (List.nodup_append.mp hcanonical).1
          projections := (List.nodup_append.mp hkeys).1
          paths := (List.nodup_append.mp hpaths).1 }
        obtain ⟨next, hnext⟩ := exists_addSource (addSources_eq_ok sources hmiddle).2.1
          (hvalid.2 source List.mem_cons_self) hcontents
          (fun hmem => (List.nodup_append.mp hcanonical).2.2 _ hmem _ List.mem_cons_self rfl)
          (by rw [List.map_append]; exact hkeys) (by rw [List.map_append]; exact hpaths)
        refine ⟨next, ?_⟩
        rw [addSources, List.foldlM_append]
        exact bind_eq_ok.mpr ⟨middle, hmiddle, bind_eq_ok.mpr ⟨next, hnext, rfl⟩⟩
  · rintro ⟨batch, h⟩
    obtain ⟨hvalid, hholds, -, -⟩ := addSources_eq_ok sources h
    exact {
      valid := hvalid
      contents := hholds.contents.consistent
      canonical := hholds.canonical
      projections := (hholds.projections.map _).nodup_iff.mp hholds.projectionsKeyed.nodup
      paths := hholds.paths }

end Sha256

/-! ## Changes -/

/-- The changes are of the connection, each source once, and all of them have an owning
root or none has. -/
structure ValidChanges (sourceConnectionId : SourceConnectionId)
    (changes : List PortableSourceChange) : Prop where
  connection : ∀ change ∈ changes, change.sourceObject.sourceConnectionId = sourceConnectionId
  distinct : (changes.map changeId).Nodup
  provenance : ∃ hasRoot : Bool, ∀ change ∈ changes, ∃ root,
    change.sourceObject.portableScopeRootRemoteId = .ok root ∧ root.isSome = hasRoot

section Changes

variable {sourceConnectionId : SourceConnectionId}

/-- What was seen of the changes. -/
structure ChangeChecks.Saw (checks : ChangeChecks) (changes : List PortableSourceChange) :
    Prop where
  remoteIds : ∀ id, id ∈ checks.remoteIds ↔ id ∈ changes.map changeId
  unset : checks.provenanceMode = none → changes = []
  set : ∀ hasRoot, checks.provenanceMode = some hasRoot → changes ≠ [] ∧
    ∀ change ∈ changes, ∃ root,
      change.sourceObject.portableScopeRootRemoteId = .ok root ∧ root.isSome = hasRoot

theorem validateChange_eq_ok {checks next : ChangeChecks} {change : PortableSourceChange} :
    validateChange sourceConnectionId checks change = .ok next ↔
      change.sourceObject.sourceConnectionId = sourceConnectionId ∧
      changeId change ∉ checks.remoteIds ∧ ∃ root,
        change.sourceObject.portableScopeRootRemoteId = .ok root ∧
        (∀ expected, checks.provenanceMode = some expected → root.isSome = expected) ∧
        next = ⟨insert (changeId change) checks.remoteIds, some root.isSome⟩ := by
  have hany : ∀ root : Option RemoteId,
      ¬ (checks.provenanceMode.any fun expected => decide (expected ≠ root.isSome)) = true ↔
        ∀ expected, checks.provenanceMode = some expected → root.isSome = expected := by
    intro root
    cases checks.provenanceMode with
    | none => exact iff_of_true nofun nofun
    | some mode =>
        rw [Option.any_some, decide_eq_true_eq, not_not]
        exact ⟨fun h expected heq => (h.symm.trans (Option.some.inj heq)), fun h => (h mode rfl).symm⟩
  have hgetD : ∀ root : Option RemoteId,
      (∀ expected, checks.provenanceMode = some expected → root.isSome = expected) →
        checks.provenanceMode.getD root.isSome = root.isSome := by
    intro root h
    cases hmode : checks.provenanceMode with
    | none => rfl
    | some mode => exact (h mode hmode).symm
  unfold validateChange
  constructor
  · intro h
    obtain ⟨_, hconnection, h⟩ := bind_eq_ok.mp h
    obtain ⟨_, hfresh, h⟩ := bind_eq_ok.mp h
    obtain ⟨root, hroot, h⟩ := bind_eq_ok.mp h
    obtain ⟨_, hmode, h⟩ := bind_eq_ok.mp h
    have hmode := (hany root).mp (refuseIf_eq_ok.mp hmode)
    rw [hgetD root hmode] at h
    exact ⟨not_not.mp (refuseIf_eq_ok.mp hconnection), refuseIf_eq_ok.mp hfresh, root, hroot,
      hmode, (Except.ok.inj h).symm⟩
  · rintro ⟨hconnection, hfresh, root, hroot, hmode, rfl⟩
    refine bind_eq_ok.mpr ⟨(), refuseIf_eq_ok.mpr (not_not.mpr hconnection), bind_eq_ok.mpr ⟨(),
      refuseIf_eq_ok.mpr hfresh, bind_eq_ok.mpr ⟨root, hroot, bind_eq_ok.mpr ⟨(),
        refuseIf_eq_ok.mpr ((hany root).mpr hmode), ?_⟩⟩⟩⟩
    rw [hgetD root hmode]
    rfl

theorem foldlM_validateChange_eq_ok (changes : List PortableSourceChange) :
    ∀ {checks : ChangeChecks},
      changes.foldlM (validateChange sourceConnectionId) ⟨∅, none⟩ = .ok checks →
        ValidChanges sourceConnectionId changes ∧ checks.Saw changes := by
  induction changes using List.reverseRecOn with
  | nil =>
      intro checks h
      cases h
      exact ⟨⟨List.forall_mem_nil _, List.nodup_nil, true, List.forall_mem_nil _⟩,
        ⟨fun _ => iff_of_false (Finset.notMem_empty _) List.not_mem_nil, fun _ => rfl, nofun⟩⟩
  | append_singleton changes change ih =>
      intro checks h
      rw [List.foldlM_append] at h
      obtain ⟨middle, hmiddle, h⟩ := bind_eq_ok.mp h
      obtain ⟨next, hnext, h⟩ := bind_eq_ok.mp h
      cases h
      obtain ⟨hvalid, hsaw⟩ := ih hmiddle
      obtain ⟨hconnection, hfresh, root, hroot, hmode, rfl⟩ := validateChange_eq_ok.mp hnext
      have hall : ∀ earlier ∈ changes ++ [change], ∃ found,
          earlier.sourceObject.portableScopeRootRemoteId = .ok found ∧
            found.isSome = root.isSome := by
        refine List.forall_mem_append.mpr ⟨fun earlier hmem => ?_,
          List.forall_mem_singleton.mpr ⟨root, hroot, rfl⟩⟩
        cases hmiddleMode : middle.provenanceMode with
        | none =>
            rw [hsaw.unset hmiddleMode] at hmem
            cases hmem
        | some expected =>
            rw [hmode expected hmiddleMode]
            exact (hsaw.set expected hmiddleMode).2 earlier hmem
      refine ⟨⟨List.forall_mem_append.mpr ⟨hvalid.connection,
        List.forall_mem_singleton.mpr hconnection⟩, ?_, root.isSome, hall⟩, ⟨fun id => ?_, nofun,
          fun hasRoot heq => ⟨List.append_ne_nil_of_right_ne_nil _ (List.cons_ne_nil _ _), ?_⟩⟩⟩
      · rw [List.map_append, List.map_singleton, List.nodup_append]
        refine ⟨hvalid.distinct, List.nodup_singleton _, fun id hmem id' hmem' heq => ?_⟩
        rw [List.mem_singleton] at hmem'
        rw [heq, hmem'] at hmem
        exact hfresh ((hsaw.remoteIds _).mpr hmem)
      · rw [Finset.mem_insert, hsaw.remoteIds, List.map_append, List.mem_append,
          List.map_singleton, List.mem_singleton, or_comm]
      · cases heq
        exact hall

theorem exists_foldlM_validateChange (changes : List PortableSourceChange)
    (h : ValidChanges sourceConnectionId changes) :
    ∃ checks, changes.foldlM (validateChange sourceConnectionId) ⟨∅, none⟩ = .ok checks := by
  induction changes using List.reverseRecOn with
  | nil => exact ⟨_, rfl⟩
  | append_singleton changes change ih =>
      obtain ⟨hconnection, hlast⟩ := List.forall_mem_append.mp h.connection
      obtain ⟨hasRoot, hprovenance⟩ := h.provenance
      obtain ⟨hearlier, hroot⟩ := List.forall_mem_append.mp hprovenance
      obtain ⟨root, hroot, hsome⟩ := List.forall_mem_singleton.mp hroot
      have hdistinct := h.distinct
      rw [List.map_append, List.map_singleton] at hdistinct
      obtain ⟨hnodup, -, hfresh⟩ := List.nodup_append.mp hdistinct
      obtain ⟨middle, hmiddle⟩ := ih ⟨hconnection, hnodup, hasRoot, hearlier⟩
      have hsaw := (foldlM_validateChange_eq_ok changes hmiddle).2
      have hmode : ∀ expected, middle.provenanceMode = some expected → root.isSome = expected := by
        intro expected hexpected
        obtain ⟨hne, hseen⟩ := hsaw.set expected hexpected
        obtain ⟨earlier, hmem⟩ := List.exists_mem_of_ne_nil _ hne
        obtain ⟨found, hfound, hsame⟩ := hseen earlier hmem
        obtain ⟨found', hfound', hsame'⟩ := hearlier earlier hmem
        cases hfound.symm.trans hfound'
        rw [hsome, ← hsame', hsame]
      have hnew : changeId change ∉ middle.remoteIds := fun hmem =>
        hfresh _ ((hsaw.remoteIds _).mp hmem) _ List.mem_cons_self rfl
      have hnext := validateChange_eq_ok.mpr
        ⟨hlast change List.mem_cons_self, hnew, root, hroot, hmode, rfl⟩
      refine ⟨⟨insert (changeId change) middle.remoteIds, some root.isSome⟩, ?_⟩
      rw [List.foldlM_append]
      exact bind_eq_ok.mpr ⟨middle, hmiddle, bind_eq_ok.mpr ⟨_, hnext, rfl⟩⟩

theorem validateChanges_eq_ok {changes : List PortableSourceChange} {u : Unit} :
    validateChanges sourceConnectionId changes = .ok u ↔
      ValidChanges sourceConnectionId changes := by
  constructor
  · intro h
    obtain ⟨checks, hchecks, -⟩ := bind_eq_ok.mp h
    exact (foldlM_validateChange_eq_ok changes hchecks).1
  · intro h
    obtain ⟨checks, hchecks⟩ := exists_foldlM_validateChange changes h
    exact bind_eq_ok.mpr ⟨checks, hchecks, rfl⟩

/-- The order of the changes does not matter. -/
theorem ValidChanges.perm {changes changes' : List PortableSourceChange}
    (h : ValidChanges sourceConnectionId changes) (hperm : changes.Perm changes') :
    ValidChanges sourceConnectionId changes' where
  connection := fun change hmem => h.connection change (hperm.mem_iff.mpr hmem)
  distinct := (hperm.map changeId).nodup_iff.mp h.distinct
  provenance := by
    obtain ⟨hasRoot, hall⟩ := h.provenance
    exact ⟨hasRoot, fun change hmem => hall change (hperm.mem_iff.mpr hmem)⟩

end Changes

/-! ## Pages -/

section Page

variable {sha256 : List UInt8 → List UInt8} {formatVersion : UInt32}

theorem HoldsContents.keyed {table : ContentTable} {artifacts : List PortableContentArtifact}
    (h : HoldsContents sha256 table artifacts) :
    Keyed ImmutableContentCandidate.artifactKey table := by
  intro key candidate hlookup
  obtain ⟨artifact, -, rfl, rfl⟩ := (h key candidate).mp hlookup
  rfl

/-- The change is fetched and rendered. -/
def isFetched (change : PortableSourceChange) : Bool :=
  !change.sourceObject.deleted && change.requiresFetch

/-- The page of a batch, with its sources: the changes in order, and what was projected of
those that are fetched. -/
structure IsPage (sha256 : List UInt8 → List UInt8) (formatVersion : UInt32)
    (sourceConnectionId : SourceConnectionId) (batch : PortableChangeBatch)
    (sources : List RenderedSource) (page : UnpersistedSynchronizationBatch) : Prop where
  changes : ValidChanges sourceConnectionId (batch.changes.insertionSort changeLe)
  fetched : sources.map RenderedSource.change =
    (batch.changes.insertionSort changeLe).filter isFetched
  projected : ∃ projected, addSources sha256 formatVersion batch.completeness sources =
      .ok projected ∧
    page = projected.finish sourceConnectionId (batch.changes.insertionSort changeLe)
      batch.nextCheckpoint

/-- What was reported of the sources. -/
def sourceReports (sources : List RenderedSource) : List PortableCompleteness :=
  sources.flatMap fun source => [source.fetched.completeness, source.rendered.completeness]

theorem isComplete_foldl_report (sources : List RenderedSource) :
    ∀ completeness : PortableCompleteness,
      (sources.foldl (fun completeness source => source.report completeness)
        completeness).isComplete = true ↔
          completeness.isComplete = true ∧
            ∀ report ∈ sourceReports sources, report.isComplete = true := by
  induction sources with
  | nil => exact fun completeness => (and_iff_left (List.forall_mem_nil _)).symm
  | cons source sources ih =>
      intro completeness
      rw [List.foldl_cons, ih, RenderedSource.report, PortableCompleteness.isComplete_merge,
        PortableCompleteness.isComplete_merge]
      have hreports : sourceReports (source :: sources) =
          source.fetched.completeness :: source.rendered.completeness :: sourceReports sources := rfl
      rw [hreports, List.forall_mem_cons, List.forall_mem_cons, and_assoc, and_assoc]

namespace IsPage

variable {sourceConnectionId : SourceConnectionId} {batch : PortableChangeBatch}
  {sources : List RenderedSource} {page : UnpersistedSynchronizationBatch}

theorem sourceVersions_nodup
    (h : IsPage sha256 formatVersion sourceConnectionId batch sources page) :
    ((sources.map (RenderedSource.version sha256)).map versionId).Nodup := by
  have hids : (sources.map (RenderedSource.version sha256)).map versionId =
      (sources.map RenderedSource.change).map changeId := by
    rw [List.map_map, List.map_map]
    rfl
  rw [hids, h.fetched]
  exact h.changes.distinct.sublist (List.filter_sublist.map changeId)

theorem distinct (h : IsPage sha256 formatVersion sourceConnectionId batch sources page) :
    page.Distinct := by
  obtain ⟨projected, hprojected, rfl⟩ := h.projected
  obtain ⟨-, hholds, -, hversions⟩ := addSources_eq_ok sources hprojected
  have hsorted : (projected.sourceVersions.insertionSort sourceVersionLe).Perm
      (sources.map (RenderedSource.version sha256)) := by
    rw [hversions]
    exact List.perm_insertionSort _ _
  exact {
    changes := h.changes.distinct
    sourceVersions := (hsorted.map versionId).nodup_iff.mpr h.sourceVersions_nodup
    contents := hholds.contents.keyed.nodup
    projections := hholds.projectionsKeyed.nodup
    paths := (hholds.projections.map projectionPath).nodup_iff.mpr hholds.paths }

theorem observedChanges
    (h : IsPage sha256 formatVersion sourceConnectionId batch sources page) :
    page.observedChanges.Perm batch.changes := by
  obtain ⟨projected, -, rfl⟩ := h.projected
  exact List.perm_insertionSort changeLe batch.changes

theorem nextCheckpoint
    (h : IsPage sha256 formatVersion sourceConnectionId batch sources page) :
    page.nextCheckpoint = batch.nextCheckpoint := by
  obtain ⟨projected, -, rfl⟩ := h.projected
  rfl

theorem completeness (h : IsPage sha256 formatVersion sourceConnectionId batch sources page) :
    page.completeness =
      sources.foldl (fun completeness source => source.report completeness)
        batch.completeness := by
  obtain ⟨projected, hprojected, rfl⟩ := h.projected
  exact (addSources_eq_ok sources hprojected).2.2.1

theorem isComplete (h : IsPage sha256 formatVersion sourceConnectionId batch sources page) :
    page.completeness.isComplete = true ↔ batch.completeness.isComplete = true ∧
      ∀ report ∈ sourceReports sources, report.isComplete = true := by
  rw [h.completeness]
  exact isComplete_foldl_report sources batch.completeness

end IsPage

end Page

end Locality.Engine
