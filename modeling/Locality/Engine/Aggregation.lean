/-
  Engine/Aggregation.lean --- what an aggregate holds: the rows of the pages that were
  pushed, each key once, and their numbers.

  A page is pushed exactly if its keys are new and the totals stay within the limits.
-/
import Locality.Engine.SynchronizeProject

set_option autoImplicit false

namespace Locality.Engine

open Locality.Core Locality.Foundation Locality.Protocol Locality.Connector

/-! ## Keys of rows -/

def changeId (change : PortableSourceChange) : RemoteId := change.sourceObject.remoteId

def versionId (version : ImmutableSourceVersionCandidate) : RemoteId := version.sourceObject.remoteId

def projectionPath (projection : ImmutableProjectionCandidate) : Text :=
  projection.logicalPath.value

/-- No identifier, artifact key or path is there twice. -/
structure UnpersistedSynchronizationBatch.Distinct (batch : UnpersistedSynchronizationBatch) :
    Prop where
  changes : (batch.observedChanges.map changeId).Nodup
  sourceVersions : (batch.sourceVersions.map versionId).Nodup
  contents : (batch.contents.map ImmutableContentCandidate.artifactKey).Nodup
  projections : (batch.projections.map ImmutableProjectionCandidate.artifactKey).Nodup
  paths : (batch.projections.map projectionPath).Nodup

/-! ## Checks of a page -/

namespace Aggregate

variable {self next : Aggregate} {page : UnpersistedSynchronizationBatch}
  {completeness : PortableCompleteness} {limits : AggregationLimits} {run : Text}

/-- No key of the page is held already. -/
structure Admits (held : Aggregate) (page : UnpersistedSynchronizationBatch) : Prop where
  sourceVersions : ∀ source ∈ page.sourceVersions, held.sourceVersions[versionId source]? = none
  changes : ∀ change ∈ page.observedChanges, held.observedChanges[changeId change]? = none
  projections : ∀ projection ∈ page.projections,
    held.projections[projection.artifactKey]? = none
  paths : ∀ projection ∈ page.projections, projectionPath projection ∉ held.projectionPaths
  contents : ∀ content ∈ page.contents, held.contents[content.artifactKey]? = none

theorem refuseIf_contains_eq_ok {κ α : Type} {cmp : κ → κ → Ordering} [Std.TransCmp cmp]
    {table : Std.ExtTreeMap κ α cmp} {k : κ} {message : Text} {u : Unit} :
    refuseIf (table.contains k) message = .ok u ↔ table[k]? = none := by
  rw [refuseIf_eq_ok, Std.ExtTreeMap.contains_eq_isSome_getElem?, Bool.not_eq_true,
    Option.isSome_eq_false_iff, Option.isNone_iff_eq_none]

theorem checkDistinct_eq_ok {u : Unit} :
    self.checkDistinct run page = .ok u ↔ self.Admits page := by
  unfold checkDistinct
  constructor
  · intro h
    obtain ⟨_, hsources, h⟩ := bind_eq_ok.mp h
    obtain ⟨_, hchanges, h⟩ := bind_eq_ok.mp h
    obtain ⟨_, hprojections, hcontents⟩ := bind_eq_ok.mp h
    have hprojections : ∀ projection ∈ page.projections,
        self.projections[projection.artifactKey]? = none ∧
          projectionPath projection ∉ self.projectionPaths := by
      intro projection hmem
      obtain ⟨_, hkey, hpath⟩ := bind_eq_ok.mp (forM_eq_ok.mp hprojections projection hmem)
      exact ⟨refuseIf_contains_eq_ok.mp hkey, refuseIf_eq_ok.mp hpath⟩
    exact {
      sourceVersions := fun source hmem =>
        refuseIf_contains_eq_ok.mp (forM_eq_ok.mp hsources source hmem)
      changes := fun change hmem =>
        refuseIf_contains_eq_ok.mp (forM_eq_ok.mp hchanges change hmem)
      projections := fun projection hmem => (hprojections projection hmem).1
      paths := fun projection hmem => (hprojections projection hmem).2
      contents := fun content hmem =>
        refuseIf_contains_eq_ok.mp (forM_eq_ok.mp hcontents content hmem) }
  · intro h
    refine bind_eq_ok.mpr ⟨(), forM_eq_ok.mpr fun source hmem => ?_, bind_eq_ok.mpr ⟨(),
      forM_eq_ok.mpr fun change hmem => ?_, bind_eq_ok.mpr ⟨(),
        forM_eq_ok.mpr fun projection hmem => bind_eq_ok.mpr ⟨(), ?_, ?_⟩,
        forM_eq_ok.mpr fun content hmem => ?_⟩⟩⟩
    · exact refuseIf_contains_eq_ok.mpr (h.sourceVersions source hmem)
    · exact refuseIf_contains_eq_ok.mpr (h.changes change hmem)
    · exact refuseIf_contains_eq_ok.mpr (h.projections projection hmem)
    · exact refuseIf_eq_ok.mpr (h.paths projection hmem)
    · exact refuseIf_contains_eq_ok.mpr (h.contents content hmem)

/-! ## Totals -/

def contentBytes (contents : List ImmutableContentCandidate) : Nat :=
  (contents.map ImmutableContentCandidate.byteLength).sum

/-- The totals with the page are words, and within the limits. -/
structure Fits (held : Aggregate) (page : UnpersistedSynchronizationBatch)
    (limits : AggregationLimits) : Prop where
  changesWord : held.totalChanges + page.observedChanges.length < 2 ^ 64
  changes : held.totalChanges + page.observedChanges.length ≤ limits.maxTotalChanges
  bytesWord : held.totalContentBytes + contentBytes page.contents < 2 ^ 64
  bytes : held.totalContentBytes + contentBytes page.contents ≤ limits.maxTotalContentBytes

theorem checkedAdd_eq_ok {n m total : Nat} {overflow : Text} :
    checkedAdd overflow n m = .ok total ↔ n + m < 2 ^ 64 ∧ total = n + m := by
  unfold checkedAdd invalidState
  rw [ite_throw_eq_ok, Nat.not_le]
  exact and_congr_right fun _ => ⟨fun h => (Except.ok.inj h).symm, fun h => congrArg Except.ok h.symm⟩

theorem foldlM_checkedAdd_eq_ok {overflow : Text} {total : Nat}
    (contents : List ImmutableContentCandidate) : ∀ {start : Nat}, start < 2 ^ 64 →
    (contents.foldlM (fun total content => checkedAdd overflow total content.byteLength) start =
      .ok total ↔
        start + contentBytes contents < 2 ^ 64 ∧ total = start + contentBytes contents) := by
  induction contents with
  | nil =>
      intro start hstart
      exact ⟨fun h => ⟨hstart, (Except.ok.inj h).symm⟩, fun h => congrArg Except.ok h.2.symm⟩
  | cons content contents ih =>
      intro start hstart
      have hsum : start + contentBytes (content :: contents) =
          start + content.byteLength + contentBytes contents := by
        rw [contentBytes, List.map_cons, List.sum_cons, ← Nat.add_assoc]
        rfl
      rw [List.foldlM_cons, bind_eq_ok, hsum]
      constructor
      · rintro ⟨middle, hstep, hrest⟩
        obtain ⟨hword, rfl⟩ := checkedAdd_eq_ok.mp hstep
        exact (ih hword).mp hrest
      · rintro ⟨hword, rfl⟩
        have hmiddle : start + content.byteLength < 2 ^ 64 :=
          Nat.lt_of_le_of_lt (Nat.le_add_right _ _) hword
        exact ⟨_, checkedAdd_eq_ok.mpr ⟨hmiddle, rfl⟩, (ih hmiddle).mpr ⟨hword, rfl⟩⟩

theorem addTotals_eq_ok {totals : Nat × Nat} :
    self.addTotals run page limits = .ok totals ↔ self.Fits page limits ∧
      totals = (self.totalChanges + page.observedChanges.length,
        self.totalContentBytes + contentBytes page.contents) := by
  unfold addTotals
  constructor
  · intro h
    obtain ⟨totalChanges, hchanges, h⟩ := bind_eq_ok.mp h
    obtain ⟨hword, rfl⟩ := checkedAdd_eq_ok.mp hchanges
    obtain ⟨_, hlimit, h⟩ := bind_eq_ok.mp h
    obtain ⟨pageBytes, hpage, h⟩ := bind_eq_ok.mp h
    obtain ⟨-, rfl⟩ := (foldlM_checkedAdd_eq_ok page.contents (by decide)).mp hpage
    obtain ⟨totalBytes, hbytes, h⟩ := bind_eq_ok.mp h
    obtain ⟨hbytesWord, rfl⟩ := checkedAdd_eq_ok.mp hbytes
    obtain ⟨_, hbytesLimit, h⟩ := bind_eq_ok.mp h
    rw [Nat.zero_add] at hbytesWord hbytesLimit h
    exact ⟨⟨hword, Nat.not_lt.mp (refuseIf_eq_ok.mp hlimit), hbytesWord,
      Nat.not_lt.mp (refuseIf_eq_ok.mp hbytesLimit)⟩, (Except.ok.inj h).symm⟩
  · rintro ⟨hfits, rfl⟩
    have hpage : 0 + contentBytes page.contents < 2 ^ 64 := by
      rw [Nat.zero_add]
      exact Nat.lt_of_le_of_lt (Nat.le_add_left _ _) hfits.bytesWord
    refine bind_eq_ok.mpr ⟨_, checkedAdd_eq_ok.mpr ⟨hfits.changesWord, rfl⟩,
      bind_eq_ok.mpr ⟨(), refuseIf_eq_ok.mpr (Nat.not_lt.mpr hfits.changes),
        bind_eq_ok.mpr ⟨_, (foldlM_checkedAdd_eq_ok page.contents (by decide)).mpr
          ⟨hpage, rfl⟩, ?_⟩⟩⟩
    rw [Nat.zero_add]
    exact bind_eq_ok.mpr ⟨_, checkedAdd_eq_ok.mpr ⟨hfits.bytesWord, rfl⟩,
      bind_eq_ok.mpr ⟨(), refuseIf_eq_ok.mpr (Nat.not_lt.mpr hfits.bytes), rfl⟩⟩

/-! ## Pushes -/

/-- The aggregate with a page. -/
def pushed (self : Aggregate) (page : UnpersistedSynchronizationBatch)
    (completeness : PortableCompleteness) : Aggregate where
  observedChanges := page.observedChanges.foldl
    (fun table change => table.insert (changeId change) change) self.observedChanges
  sourceVersions := page.sourceVersions.foldl
    (fun table source => table.insert (versionId source) source) self.sourceVersions
  contents := page.contents.foldl
    (fun table content => table.insert content.artifactKey content) self.contents
  projections := page.projections.foldl
    (fun table projection => table.insert projection.artifactKey projection) self.projections
  projectionPaths := self.projectionPaths ∪ (page.projections.map projectionPath).toFinset
  completeness := self.completeness.merge completeness
  totalChanges := self.totalChanges + page.observedChanges.length
  totalContentBytes := self.totalContentBytes + contentBytes page.contents

theorem push_eq_ok :
    self.push run page completeness limits = .ok next ↔
      self.Admits page ∧ self.Fits page limits ∧ next = self.pushed page completeness := by
  unfold push
  constructor
  · intro h
    obtain ⟨_, hdistinct, h⟩ := bind_eq_ok.mp h
    obtain ⟨totals, htotals, h⟩ := bind_eq_ok.mp h
    obtain ⟨hfits, rfl⟩ := addTotals_eq_ok.mp htotals
    exact ⟨checkDistinct_eq_ok.mp hdistinct, hfits, (Except.ok.inj h).symm⟩
  · rintro ⟨hadmits, hfits, rfl⟩
    exact bind_eq_ok.mpr ⟨(), checkDistinct_eq_ok.mpr hadmits,
      bind_eq_ok.mpr ⟨_, addTotals_eq_ok.mpr ⟨hfits, rfl⟩, rfl⟩⟩

/-- The aggregate holds the rows of the pages, each key once, and counts them. -/
structure Holds (held : Aggregate) (pages : List UnpersistedSynchronizationBatch) : Prop where
  changesKeyed : Keyed changeId held.observedChanges
  changes : (valuesOf held.observedChanges).Perm (pages.flatMap (·.observedChanges))
  versionsKeyed : Keyed versionId held.sourceVersions
  sourceVersions : (valuesOf held.sourceVersions).Perm (pages.flatMap (·.sourceVersions))
  contentsKeyed : Keyed ImmutableContentCandidate.artifactKey held.contents
  contents : (valuesOf held.contents).Perm (pages.flatMap (·.contents))
  projectionsKeyed : Keyed ImmutableProjectionCandidate.artifactKey held.projections
  projections : (valuesOf held.projections).Perm (pages.flatMap (·.projections))
  pathsOf : ∀ path, path ∈ held.projectionPaths ↔
    path ∈ (pages.flatMap (·.projections)).map projectionPath
  paths : ((pages.flatMap (·.projections)).map projectionPath).Nodup
  totalChanges : held.totalChanges = (pages.flatMap (·.observedChanges)).length
  totalContentBytes : held.totalContentBytes = contentBytes (pages.flatMap (·.contents))

theorem holds_new : Aggregate.new.Holds [] where
  changesKeyed := keyed_empty _
  changes := List.Perm.of_eq valuesOf_empty
  versionsKeyed := keyed_empty _
  sourceVersions := List.Perm.of_eq valuesOf_empty
  contentsKeyed := keyed_empty _
  contents := List.Perm.of_eq valuesOf_empty
  projectionsKeyed := keyed_empty _
  projections := List.Perm.of_eq valuesOf_empty
  pathsOf := fun _ => iff_of_false (Finset.notMem_empty _) List.not_mem_nil
  paths := List.nodup_nil
  totalChanges := rfl
  totalContentBytes := rfl

theorem Holds.pushed {pages : List UnpersistedSynchronizationBatch} (h : self.Holds pages)
    (hdistinct : page.Distinct) (hadmits : self.Admits page)
    (completeness : PortableCompleteness) :
    (self.pushed page completeness).Holds (pages ++ [page]) := by
  have hflatMap : ∀ {α : Type} (rows : UnpersistedSynchronizationBatch → List α),
      (pages ++ [page]).flatMap rows = pages.flatMap rows ++ rows page := by
    intro α rows
    rw [List.flatMap_append, List.flatMap_singleton]
  refine ⟨h.changesKeyed.foldl_insert, ?_, h.versionsKeyed.foldl_insert, ?_,
    h.contentsKeyed.foldl_insert, ?_, h.projectionsKeyed.foldl_insert, ?_, fun path => ?_, ?_, ?_,
    ?_⟩
  · rw [hflatMap]
    exact (perm_valuesOf_foldl_insert hdistinct.changes hadmits.changes).trans
      (h.changes.append_right _)
  · rw [hflatMap]
    exact (perm_valuesOf_foldl_insert hdistinct.sourceVersions hadmits.sourceVersions).trans
      (h.sourceVersions.append_right _)
  · rw [hflatMap]
    exact (perm_valuesOf_foldl_insert hdistinct.contents hadmits.contents).trans
      (h.contents.append_right _)
  · rw [hflatMap]
    exact (perm_valuesOf_foldl_insert hdistinct.projections hadmits.projections).trans
      (h.projections.append_right _)
  · rw [hflatMap, List.map_append, List.mem_append, ← h.pathsOf, Aggregate.pushed,
      Finset.mem_union, List.mem_toFinset]
  · rw [hflatMap, List.map_append, List.nodup_append]
    refine ⟨h.paths, hdistinct.paths, fun path hpath path' hpath' heq => ?_⟩
    obtain ⟨projection, hmem, rfl⟩ := List.mem_map.mp hpath'
    exact hadmits.paths projection hmem (heq ▸ (h.pathsOf path).mpr hpath)
  · rw [hflatMap, List.length_append, ← h.totalChanges]
    rfl
  · rw [hflatMap, contentBytes, List.map_append, List.sum_append_nat]
    exact congrArg (· + contentBytes page.contents) h.totalContentBytes

/-- What is finished has each key once. -/
theorem Holds.distinct_finish {pages : List UnpersistedSynchronizationBatch}
    (h : self.Holds pages) (sourceConnectionId : SourceConnectionId)
    (nextCheckpoint : PortableCheckpoint) :
    (self.finish sourceConnectionId nextCheckpoint).Distinct where
  changes := h.changesKeyed.nodup
  sourceVersions := h.versionsKeyed.nodup
  contents := h.contentsKeyed.nodup
  projections := h.projectionsKeyed.nodup
  paths := (h.projections.map projectionPath).nodup_iff.mpr h.paths

end Aggregate

end Locality.Engine
