/-
  Engine/PureProjection.lean --- projecting a batch with a connector whose fetches and
  renders are functions of their requests.

  A batch is projected exactly if its changes are valid, each of its sources is fetched and
  rendered, and the sources go together.
-/
import Locality.Engine.ProjectBatch

set_option autoImplicit false

namespace Locality.Engine

open Locality.Core Locality.Foundation Locality.Protocol Locality.Connector

/-- What a connector fetches and renders. -/
structure PureConnector where
  fetch : PortableFetchRequest → LocalityResult PortableFetchResult
  render : PortableRenderRequest → LocalityResult PortableRenderResult

/-- The device answers fetches and renders as the connector does. -/
structure PureConnector.Answers {σ : Type} (connector : PureConnector)
    (device : (op : ConnectorOp) → σ → op.Answer × σ) : Prop where
  fetch : ∀ request st, device (.fetchPortable request) st = (connector.fetch request, st)
  render : ∀ request st, device (.renderPortable request) st = (connector.render request, st)

section Sources

variable (connector : PureConnector) (sourceConnectionId : SourceConnectionId)
  (reason : PortableFetchReason) (formatVersion : UInt32)

/-- The source of a change, if it is fetched. -/
def renderedSource (change : PortableSourceChange) : LocalityResult (List RenderedSource) :=
  if isFetched change = false then pure []
  else
    match change.logicalPath with
    | none => invalidState []
    | some logicalPath => do
        let fetched ← connector.fetch ⟨sourceConnectionId, change.sourceObject.remoteId, reason⟩
        refuseIf (fetched.native.remoteId ≠ change.sourceObject.remoteId) []
        let rendered ← connector.render ⟨sourceConnectionId, logicalPath, fetched.native,
          formatVersion⟩
        return [⟨change, fetched, rendered⟩]

def renderedSources : List PortableSourceChange → LocalityResult (List RenderedSource)
  | [] => pure []
  | change :: changes => do
      let first ← renderedSource connector sourceConnectionId reason formatVersion change
      let rest ← renderedSources changes
      return first ++ rest

end Sources

section Sources

variable {connector : PureConnector} {sourceConnectionId : SourceConnectionId}
  {reason : PortableFetchReason} {formatVersion : UInt32}

theorem map_change_of_renderedSource {change : PortableSourceChange}
    {sources : List RenderedSource}
    (h : renderedSource connector sourceConnectionId reason formatVersion change = .ok sources) :
    sources.map RenderedSource.change = [change].filter isFetched := by
  unfold renderedSource at h
  split at h
  · rename_i hskip
    cases h
    rw [List.filter_cons_of_neg (by rw [hskip]; exact nofun)]
    rfl
  · rename_i hfetched
    split at h
    · cases h
    · obtain ⟨fetched, -, h⟩ := bind_eq_ok.mp h
      obtain ⟨_, -, h⟩ := bind_eq_ok.mp h
      obtain ⟨rendered, -, h⟩ := bind_eq_ok.mp h
      cases h
      rw [List.filter_cons_of_pos (Bool.not_eq_false _ ▸ hfetched)]
      rfl

theorem renderedSources_cons_eq_ok {change : PortableSourceChange}
    {changes : List PortableSourceChange} {sources : List RenderedSource} :
    renderedSources connector sourceConnectionId reason formatVersion (change :: changes) =
      .ok sources ↔ ∃ first rest,
        renderedSource connector sourceConnectionId reason formatVersion change = .ok first ∧
        renderedSources connector sourceConnectionId reason formatVersion changes = .ok rest ∧
        sources = first ++ rest := by
  constructor
  · intro h
    obtain ⟨first, hfirst, h⟩ := bind_eq_ok.mp h
    obtain ⟨rest, hrest, h⟩ := bind_eq_ok.mp h
    exact ⟨first, rest, hfirst, hrest, (Except.ok.inj h).symm⟩
  · rintro ⟨first, rest, hfirst, hrest, rfl⟩
    exact bind_eq_ok.mpr ⟨first, hfirst, bind_eq_ok.mpr ⟨rest, hrest, rfl⟩⟩

theorem renderedSources_append_eq_ok (changes : List PortableSourceChange)
    {changes' : List PortableSourceChange} : ∀ {sources : List RenderedSource},
    renderedSources connector sourceConnectionId reason formatVersion (changes ++ changes') =
      .ok sources ↔ ∃ first rest,
        renderedSources connector sourceConnectionId reason formatVersion changes = .ok first ∧
        renderedSources connector sourceConnectionId reason formatVersion changes' = .ok rest ∧
        sources = first ++ rest := by
  induction changes with
  | nil =>
      intro sources
      constructor
      · exact fun h => ⟨[], sources, rfl, h, rfl⟩
      · rintro ⟨first, rest, hfirst, hrest, rfl⟩
        cases hfirst
        exact hrest
  | cons change changes ih =>
      intro sources
      rw [List.cons_append, renderedSources_cons_eq_ok]
      constructor
      · rintro ⟨first, rest, hfirst, hrest, rfl⟩
        obtain ⟨middle, last, hmiddle, hlast, rfl⟩ := ih.mp hrest
        exact ⟨first ++ middle, last,
          renderedSources_cons_eq_ok.mpr ⟨first, middle, hfirst, hmiddle, rfl⟩, hlast,
          (List.append_assoc first middle last).symm⟩
      · rintro ⟨sources, last, hsources, hlast, rfl⟩
        obtain ⟨first, middle, hfirst, hmiddle, rfl⟩ := renderedSources_cons_eq_ok.mp hsources
        exact ⟨first, middle ++ last, hfirst, ih.mpr ⟨middle, last, hmiddle, hlast, rfl⟩,
          List.append_assoc first middle last⟩

theorem map_change_of_renderedSources (changes : List PortableSourceChange) :
    ∀ {sources : List RenderedSource},
      renderedSources connector sourceConnectionId reason formatVersion changes = .ok sources →
        sources.map RenderedSource.change = changes.filter isFetched := by
  induction changes with
  | nil =>
      intro sources h
      cases h
      rfl
  | cons change changes ih =>
      intro sources h
      obtain ⟨first, rest, hfirst, hrest, rfl⟩ := renderedSources_cons_eq_ok.mp h
      rw [List.map_append, map_change_of_renderedSource hfirst, ih hrest, ← List.filter_append,
        List.singleton_append]

/-- Changes in another order have the sources in another order. -/
theorem exists_renderedSources_of_perm {changes changes' : List PortableSourceChange}
    (hperm : changes.Perm changes') : ∀ {sources : List RenderedSource},
      renderedSources connector sourceConnectionId reason formatVersion changes = .ok sources →
        ∃ sources', renderedSources connector sourceConnectionId reason formatVersion changes' =
          .ok sources' ∧ sources.Perm sources' := by
  induction hperm with
  | nil => exact fun h => ⟨_, h, List.Perm.refl _⟩
  | cons change _ ih =>
      intro sources h
      obtain ⟨first, rest, hfirst, hrest, rfl⟩ := renderedSources_cons_eq_ok.mp h
      obtain ⟨rest', hrest', hperm⟩ := ih hrest
      exact ⟨first ++ rest', renderedSources_cons_eq_ok.mpr ⟨first, rest', hfirst, hrest', rfl⟩,
        hperm.append_left first⟩
  | swap change change' changes =>
      intro sources h
      obtain ⟨first, rest, hfirst, hrest, rfl⟩ := renderedSources_cons_eq_ok.mp h
      obtain ⟨second, last, hsecond, hlast, rfl⟩ := renderedSources_cons_eq_ok.mp hrest
      refine ⟨second ++ (first ++ last), renderedSources_cons_eq_ok.mpr ⟨second, _, hsecond,
        renderedSources_cons_eq_ok.mpr ⟨first, last, hfirst, hlast, rfl⟩, rfl⟩, ?_⟩
      rw [← List.append_assoc, ← List.append_assoc]
      exact List.perm_append_comm.append_right last
  | trans _ _ ih ih' =>
      intro sources h
      obtain ⟨middle, hmiddle, hperm⟩ := ih h
      obtain ⟨last, hlast, hperm'⟩ := ih' hmiddle
      exact ⟨last, hlast, hperm.trans hperm'⟩

end Sources

/-! ## Projecting -/

section Project

variable {σ : Type} {device : (op : ConnectorOp) → σ → op.Answer × σ} {connector : PureConnector}
  {sha256 : List UInt8 → List UInt8} {sourceConnectionId : SourceConnectionId}
  {reason : PortableFetchReason} {formatVersion : UInt32}

theorem run_fetchPortable (h : connector.Answers device) (request : PortableFetchRequest) (st : σ) :
    (fetchPortable request).run device st = (connector.fetch request, st) := by
  have hask : (EngineProgram.call (.fetchPortable request)).run device st =
      (.ok (connector.fetch request), st) := by
    rw [EngineProgram.call, Program.run_perform, h.fetch]
  rw [fetchPortable, Program.run_bind_of_ok device hask, Program.run_ofExcept]

theorem run_renderPortable (h : connector.Answers device) (request : PortableRenderRequest)
    (st : σ) : (renderPortable request).run device st = (connector.render request, st) := by
  have hask : (EngineProgram.call (.renderPortable request)).run device st =
      (.ok (connector.render request), st) := by
    rw [EngineProgram.call, Program.run_perform, h.render]
  rw [renderPortable, Program.run_bind_of_ok device hask, Program.run_ofExcept]

theorem run_projectChange_eq_ok (h : connector.Answers device) {batch next : ProjectedBatch}
    {change : PortableSourceChange} {st st' : σ} :
    (projectChange sha256 sourceConnectionId reason formatVersion batch change).run device st =
      (.ok next, st') ↔ st' = st ∧ ∃ sources,
        renderedSource connector sourceConnectionId reason formatVersion change = .ok sources ∧
        sources.foldlM (addSource sha256 formatVersion) batch = .ok next := by
  have hskip : change.sourceObject.deleted = true ∨ change.requiresFetch = false ↔
      isFetched change = false := by
    rw [isFetched, Bool.and_eq_false_iff, Bool.not_eq_false']
  unfold projectChange renderedSource
  by_cases hfetched : isFetched change = false
  · rw [if_pos (hskip.mpr hfetched), if_pos hfetched, Program.run_pure, Prod.mk.injEq,
      Except.ok.injEq]
    constructor
    · rintro ⟨rfl, rfl⟩
      exact ⟨rfl, [], rfl, rfl⟩
    · rintro ⟨rfl, sources, hsources, hadd⟩
      cases hsources
      cases hadd
      exact ⟨rfl, rfl⟩
  · rw [if_neg (hskip.not.mpr hfetched), if_neg hfetched]
    cases change.logicalPath with
    | none =>
        refine iff_of_false (fun hrun => nomatch congrArg Prod.fst hrun) ?_
        rintro ⟨-, sources, hsources, -⟩
        cases hsources
    | some logicalPath =>
        constructor
        · intro hrun
          obtain ⟨fetched, middle, hfetch, hrun⟩ := (Program.run_bind_eq_ok device).mp hrun
          rw [run_fetchPortable h, Prod.mk.injEq] at hfetch
          obtain ⟨hfetch, rfl⟩ := hfetch
          split at hrun
          · cases congrArg Prod.fst hrun
          · rename_i hsame
            obtain ⟨rendered, middle, hrender, hrun⟩ := (Program.run_bind_eq_ok device).mp hrun
            rw [run_renderPortable h, Prod.mk.injEq] at hrender
            obtain ⟨hrender, rfl⟩ := hrender
            obtain ⟨hadd, rfl⟩ := (Program.run_ofExcept_eq_ok device).mp hrun
            refine ⟨rfl, [⟨change, fetched, rendered⟩], ?_, bind_eq_ok.mpr ⟨next, hadd, rfl⟩⟩
            exact bind_eq_ok.mpr ⟨fetched, hfetch, bind_eq_ok.mpr ⟨(), refuseIf_eq_ok.mpr hsame,
              bind_eq_ok.mpr ⟨rendered, hrender, rfl⟩⟩⟩
        · rintro ⟨rfl, sources, hsources, hadd⟩
          obtain ⟨fetched, hfetch, hsources⟩ := bind_eq_ok.mp hsources
          obtain ⟨_, hsame, hsources⟩ := bind_eq_ok.mp hsources
          obtain ⟨rendered, hrender, hsources⟩ := bind_eq_ok.mp hsources
          cases hsources
          obtain ⟨last, hadd, hlast⟩ := bind_eq_ok.mp hadd
          cases hlast
          refine (Program.run_bind_eq_ok device).mpr ⟨fetched, st', ?_, ?_⟩
          · rw [run_fetchPortable h, hfetch]
          · rw [if_neg (refuseIf_eq_ok.mp hsame)]
            refine (Program.run_bind_eq_ok device).mpr ⟨rendered, st', ?_, ?_⟩
            · rw [run_renderPortable h, hrender]
            · exact (Program.run_ofExcept_eq_ok device).mpr ⟨hadd, rfl⟩

theorem run_projectChanges_eq_ok (h : connector.Answers device)
    (changes : List PortableSourceChange) : ∀ {batch next : ProjectedBatch} {st st' : σ},
    (projectChanges sha256 sourceConnectionId reason formatVersion batch changes).run device st =
      (.ok next, st') ↔ st' = st ∧ ∃ sources,
        renderedSources connector sourceConnectionId reason formatVersion changes = .ok sources ∧
        sources.foldlM (addSource sha256 formatVersion) batch = .ok next := by
  induction changes with
  | nil =>
      intro batch next st st'
      rw [projectChanges, Program.run_pure, Prod.mk.injEq, Except.ok.injEq]
      constructor
      · rintro ⟨rfl, rfl⟩
        exact ⟨rfl, [], rfl, rfl⟩
      · rintro ⟨rfl, sources, hsources, hadd⟩
        cases hsources
        cases hadd
        exact ⟨rfl, rfl⟩
  | cons change changes ih =>
      intro batch next st st'
      rw [projectChanges, Program.run_bind_eq_ok]
      constructor
      · rintro ⟨middle, st'', hfirst, hrest⟩
        obtain ⟨rfl, first, hsource, hadd⟩ := (run_projectChange_eq_ok h).mp hfirst
        obtain ⟨rfl, rest, hsources, hadd'⟩ := ih.mp hrest
        refine ⟨rfl, first ++ rest,
          renderedSources_cons_eq_ok.mpr ⟨first, rest, hsource, hsources, rfl⟩, ?_⟩
        rw [List.foldlM_append]
        exact bind_eq_ok.mpr ⟨middle, hadd, hadd'⟩
      · rintro ⟨rfl, sources, hsources, hadd⟩
        obtain ⟨first, rest, hsource, hrest, rfl⟩ := renderedSources_cons_eq_ok.mp hsources
        rw [List.foldlM_append] at hadd
        obtain ⟨middle, hadd, hadd'⟩ := bind_eq_ok.mp hadd
        exact ⟨middle, st', (run_projectChange_eq_ok h).mpr ⟨rfl, first, hsource, hadd⟩,
          ih.mpr ⟨rfl, rest, hrest, hadd'⟩⟩

/-- The page of a batch, with the sources that the connector renders. -/
def Projects (connector : PureConnector) (sha256 : List UInt8 → List UInt8)
    (sourceConnectionId : SourceConnectionId) (reason : PortableFetchReason)
    (formatVersion : UInt32) (batch : PortableChangeBatch) (sources : List RenderedSource)
    (page : UnpersistedSynchronizationBatch) : Prop :=
  renderedSources connector sourceConnectionId reason formatVersion
    (batch.changes.insertionSort changeLe) = .ok sources ∧
  IsPage sha256 formatVersion sourceConnectionId batch sources page

theorem run_projectBatch_eq_ok (h : connector.Answers device) {batch : PortableChangeBatch}
    {page : UnpersistedSynchronizationBatch} {st st' : σ} :
    (projectBatch sha256 sourceConnectionId batch reason formatVersion).run device st =
      (.ok page, st') ↔ st' = st ∧ ∃ sources,
        Projects connector sha256 sourceConnectionId reason formatVersion batch sources page := by
  constructor
  · intro hrun
    obtain ⟨_, middle, hchecked, hrest⟩ := (Program.run_bind_eq_ok device).mp hrun
    obtain ⟨hvalid, rfl⟩ := (Program.run_ofExcept_eq_ok device).mp hchecked
    obtain ⟨projected, last, hprojected, hlast⟩ := (Program.run_bind_eq_ok device).mp hrest
    obtain ⟨rfl, sources, hsources, hadd⟩ := (run_projectChanges_eq_ok h _).mp hprojected
    cases hlast
    exact ⟨rfl, sources, hsources, validateChanges_eq_ok.mp hvalid,
      map_change_of_renderedSources _ hsources, projected, hadd, rfl⟩
  · rintro ⟨rfl, sources, hsources, hvalid, -, projected, hadd, rfl⟩
    refine (Program.run_bind_eq_ok device).mpr ⟨(), st', ?_, ?_⟩
    · exact (Program.run_ofExcept_eq_ok device).mpr ⟨validateChanges_eq_ok.mpr hvalid, rfl⟩
    · refine (Program.run_bind_eq_ok device).mpr ⟨projected, st', ?_, rfl⟩
      exact (run_projectChanges_eq_ok h _).mpr ⟨rfl, sources, hsources, hadd⟩

end Project

end Locality.Engine
