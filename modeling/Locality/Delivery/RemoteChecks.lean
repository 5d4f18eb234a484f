/-
  Delivery/RemoteChecks.lean --- what the checks of a delta and of a baseline say of the
  view of a source: its digest after the delta, and after the baseline.
-/
import Locality.Delivery.RemoteView

set_option autoImplicit false

namespace Locality.Delivery

open Locality.Core Locality.Foundation Locality.Protocol GenerationStore

variable {codec : Codec} {store store' : GenerationStore} {source : SourceKey}

/-! ## The inventory that a delta results in -/

theorem remote_of_collectInventories {inventories result : Inventories}
    {paths : List (ProjectionId × GenerationPathRecord)}
    (h : collectInventories codec inventories paths = .ok result)
    (hdistinct : paths.Pairwise fun row row' => row.1 ≠ row'.1)
    (hnew : ∀ row ∈ paths, inventories.remote[row.1]? = none) (projectionId : ProjectionId)
    (identity : GenerationFileIdentity) :
    result.remote[projectionId]? = some identity ↔
      inventories.remote[projectionId]? = some identity ∨
        ∃ path, (projectionId, path) ∈ paths ∧ path.remoteIdentity = some identity := by
  induction paths generalizing inventories with
  | nil =>
      cases h
      refine (or_iff_left ?_).symm
      rintro ⟨path, hmem, -⟩
      exact nomatch hmem
  | cons row paths ih =>
      obtain ⟨id, path⟩ := row
      obtain ⟨hfirst, hdistinct⟩ := List.pairwise_cons.mp hdistinct
      obtain ⟨hnone, hnew⟩ := List.forall_mem_cons.mp hnew
      obtain ⟨_, -, h⟩ := bind_eq_ok.mp h
      dsimp only at h
      have hsplit : (∃ path', (projectionId, path') ∈ (id, path) :: paths ∧
            path'.remoteIdentity = some identity) ↔
          (projectionId = id ∧ path.remoteIdentity = some identity) ∨
            ∃ path', (projectionId, path') ∈ paths ∧ path'.remoteIdentity = some identity := by
        simp only [List.mem_cons, Prod.mk.injEq]
        constructor
        · rintro ⟨path', ⟨rfl, rfl⟩ | hmem, hidentity⟩
          · exact .inl ⟨rfl, hidentity⟩
          · exact .inr ⟨path', hmem, hidentity⟩
        · rintro (⟨rfl, hidentity⟩ | ⟨path', hmem, hidentity⟩)
          · exact ⟨path, .inl ⟨rfl, rfl⟩, hidentity⟩
          · exact ⟨path', .inr hmem, hidentity⟩
      rw [hsplit]
      split at h
      · rename_i hmissing
        rw [ih h hdistinct hnew, hmissing]
        simp only [reduceCtorEq, and_false, false_or]
      · rename_i known hknown
        obtain ⟨-, h⟩ := ite_throw_eq_ok.mp h
        rw [ih h hdistinct ?_, getElem?_insert_eq, hknown, Option.some.injEq]
        · by_cases hid : id = projectionId
          · subst hid
            rw [if_pos rfl, hnone, Option.some.injEq]
            simp only [reduceCtorEq, false_or, true_and]
          · rw [if_neg hid]
            simp only [Ne.symm hid, false_and, false_or]
        · intro row hmem
          rw [getElem?_insert_eq, if_neg (hfirst row hmem)]
          exact hnew row hmem

theorem getElem?_pathsByProjection (store : GenerationStore) (source : SourceKey)
    (projectionId : ProjectionId) :
    (pathsByProjection (store.listGenerationPathsForSource source))[projectionId]? =
      store.selectGenerationPath source projectionId := by
  refine Option.ext fun path => ?_
  have hnodup : ((store.listGenerationPathsForSource source).map
      GenerationPathRecord.projectionId).Nodup :=
    ((List.perm_insertionSort _ _).map _).nodup_iff.mpr (nodup_projections store source)
  rw [pathsByProjection, getElem?_tableOf hnodup]
  constructor
  · rintro ⟨path', hmem, rfl, rfl⟩
    exact mem_listGenerationPathsForSource.mp hmem
  · intro hselect
    obtain ⟨row, -, -, rfl, rfl⟩ := selectGenerationPath_eq_some.mp hselect
    exact ⟨row.path, mem_listGenerationPathsForSource.mpr hselect, rfl, rfl⟩

/-- The remote inventory before a delta is the view of its source. -/
theorem remote_of_collected {result : Inventories}
    (h : collectInventories codec ⟨∅, ∅⟩
      (pathsByProjection (store.listGenerationPathsForSource source)).toList = .ok result)
    (projectionId : ProjectionId) :
    result.remote[projectionId]? = remoteOf store source projectionId := by
  refine Option.ext fun identity => ?_
  have hdistinct : (pathsByProjection (store.listGenerationPathsForSource source)).toList.Pairwise
      fun row row' => row.1 ≠ row'.1 := by
    refine Std.ExtTreeMap.distinct_keys_toList.imp fun hne heq => hne ?_
    rw [heq]
    exact Std.ReflCmp.compare_self
  rw [remote_of_collectInventories h hdistinct (fun _ _ => Std.ExtTreeMap.getElem?_empty),
    Std.ExtTreeMap.getElem?_empty, remoteOf, Option.bind_eq_some_iff]
  simp only [Std.ExtTreeMap.mem_toList_iff_getElem?_eq_some, getElem?_pathsByProjection,
    reduceCtorEq, false_or]

theorem remote_of_applyEntries {paths : ByProjection GenerationPathRecord}
    {inventories result : Inventories} {entries : List GenerationDeltaEntry}
    (h : applyEntries paths inventories entries = .ok result) (projectionId : ProjectionId) :
    result.remote[projectionId]? =
      deliverAll (fun id => inventories.remote[id]?) entries projectionId := by
  induction entries generalizing inventories with
  | nil =>
      cases h
      rfl
  | cons entry entries ih =>
      unfold applyEntries at h
      split at h
      · exact nomatch h
      · rename_i id hid
        obtain ⟨-, h⟩ := ite_throw_eq_ok.mp h
        rw [ih h]
        refine deliverAll_congr (fun id' => ?_) entries projectionId
        change (applyRemote inventories.remote id entry)[id']? =
          if entry.projectionId = some id' then entry.new else inventories.remote[id']?
        have hsame : entry.projectionId = some id' ↔ id = id' := by
          rw [hid, Option.some.injEq]
        unfold applyRemote
        split
        · rename_i hnew
          rw [getElem?_erase_eq, hnew]
          exact if_congr hsame.symm rfl rfl
        · rename_i new hnew
          rw [getElem?_insert_eq, getElem?_erase_eq, hnew]
          by_cases heq : id = id'
          · rw [if_pos heq, if_pos (hsame.mpr heq)]
          · rw [if_neg heq, if_neg heq, if_neg (fun h => heq (hsame.mp h))]

/-- The digest of a delta that is to be reserved is that of the view it leads to. -/
theorem hasDigest_of_validateResultingInventory {mountId : MountId} {delta : GenerationDelta}
    {paths : ByProjection GenerationPathRecord}
    (h : validateResultingInventory codec store mountId delta = .ok paths) :
    HasDigest codec .generationDeltaV1
      (deliverAll (remoteOf store (mountId, delta.sourceConnectionId)) delta.entries)
      delta.targetInventorySha256 := by
  unfold validateResultingInventory at h
  dsimp only at h
  obtain ⟨-, h⟩ := ite_throw_eq_ok.mp h
  obtain ⟨before, hbefore, h⟩ := bind_eq_ok.mp h
  obtain ⟨result, hresult, h⟩ := bind_eq_ok.mp h
  obtain ⟨_, -, h⟩ := bind_eq_ok.mp h
  obtain ⟨_, -, h⟩ := bind_eq_ok.mp h
  obtain ⟨_, htarget, -⟩ := bind_eq_ok.mp h
  refine ⟨result.remote, fun id => ?_, ?_⟩
  · rw [remote_of_applyEntries hresult]
    exact deliverAll_congr (remote_of_collected hbefore) _ id
  · have htarget : delta.validateTargetInventory codec.unicode codec.jsonLength codec.sha256
        (valuesOf result.remote) = .ok () := by
      cases hvalid : delta.validateTargetInventory codec.unicode codec.jsonLength codec.sha256
          (valuesOf result.remote) with
      | error error =>
          rw [hvalid] at htarget
          exact nomatch htarget
      | ok _ => rfl
    obtain ⟨_, -, htarget⟩ := bind_eq_ok.mp htarget
    obtain ⟨preimage, hpreimage, htarget⟩ := bind_eq_ok.mp htarget
    obtain ⟨hdigest, -⟩ := ite_throw_eq_ok.mp htarget
    rw [Codec.inventorySha256, Codec.canonicalTargetInventorySha256, hpreimage,
      ← not_not.mp hdigest]
    rfl

/-! ## The inventory of a baseline -/

/-- What is checked of the paths of a seed. -/
structure CleanSeed (observed : ObservedGenerationRecord) (paths : List GenerationPathRecord) :
    Prop where
  mount : ∀ path ∈ paths, path.mountId = observed.mountId
  clean : ∀ path ∈ paths, path.state = .clean
  identity : ∀ path ∈ paths, ∃ identity, path.baseIdentity = some identity ∧
    identity.projectionId = path.projectionId
  distinct : (paths.map GenerationPathRecord.projectionId).Nodup

theorem validateSeedPaths_ok {observed : ObservedGenerationRecord}
    {projections : List ProjectionId} {logicalPaths localPaths : List Text}
    {paths : List GenerationPathRecord} {inventory : List GenerationFileIdentity}
    (h : validateSeedPaths codec observed projections logicalPaths localPaths paths =
      .ok inventory) :
    CleanSeed observed paths ∧ inventory = paths.filterMap GenerationPathRecord.baseIdentity ∧
      ∀ path ∈ paths, path.projectionId ∉ projections := by
  induction paths generalizing projections logicalPaths localPaths inventory with
  | nil =>
      cases h
      exact ⟨⟨fun _ h => (nomatch h), fun _ h => (nomatch h), fun _ h => (nomatch h),
        List.nodup_nil⟩, rfl, fun _ h => nomatch h⟩
  | cons path paths ih =>
      unfold validateSeedPaths at h
      dsimp only at h
      obtain ⟨hrow, h⟩ := ite_throw_eq_ok.mp h
      simp only [not_or, ne_eq, not_not] at hrow
      obtain ⟨hmount, -, -, hclaimed, -, -⟩ := hrow
      split at h
      · exact nomatch h
      · rename_i identity hidentity
        obtain ⟨hsame, h⟩ := ite_throw_eq_ok.mp h
        obtain ⟨hstate, h⟩ := ite_throw_eq_ok.mp h
        obtain ⟨identities, hrest, h⟩ := bind_eq_ok.mp h
        cases h
        obtain ⟨hclean, rfl, hnew⟩ := ih hrest
        have hprojection := not_not.mp (not_or.mp hsame).1
        refine ⟨⟨?_, ?_, ?_, ?_⟩, ?_, ?_⟩
        · exact List.forall_mem_cons.mpr ⟨hmount, hclean.mount⟩
        · exact List.forall_mem_cons.mpr ⟨not_not.mp (not_or.mp hstate).1, hclean.clean⟩
        · exact List.forall_mem_cons.mpr ⟨⟨identity, hidentity, hprojection⟩, hclean.identity⟩
        · refine List.nodup_cons.mpr ⟨fun hmem => ?_, hclean.distinct⟩
          obtain ⟨other, hother, heq⟩ := List.mem_map.mp hmem
          exact hnew other hother (heq ▸ List.mem_cons_self)
        · rw [List.filterMap_cons, hidentity]
        · exact List.forall_mem_cons.mpr
            ⟨hclaimed, fun other hother hmem => hnew other hother (List.mem_cons_of_mem _ hmem)⟩

/-- The digest of deltas is that of a baseline whose identities it does not refuse. -/
theorem appendInventory_of_baseline {unicode : UnicodeTables} {output bytes : List UInt8}
    {previous : Option Text} {claimed : List Text} {files : List GenerationFileIdentity}
    (hfiles : validateBaselineFiles unicode previous claimed files = .ok ())
    (hvalid : ∀ file ∈ files, file.validate = .ok ())
    (h : appendBaselineFiles output files = .ok bytes) :
    appendInventory unicode output previous claimed files = .ok bytes := by
  induction files generalizing output previous claimed with
  | nil =>
      cases h
      rfl
  | cons file files ih =>
      obtain ⟨hfile, hvalid⟩ := List.forall_mem_cons.mp hvalid
      obtain ⟨_, -, hfiles⟩ := bind_eq_ok.mp hfiles
      obtain ⟨_, -, hfiles⟩ := bind_eq_ok.mp hfiles
      obtain ⟨-, hfiles⟩ := ite_throw_eq_ok.mp hfiles
      obtain ⟨-, hfiles⟩ := ite_throw_eq_ok.mp hfiles
      obtain ⟨horder, hfiles⟩ := ite_throw_eq_ok.mp hfiles
      obtain ⟨hpath, hfiles⟩ := ite_throw_eq_ok.mp hfiles
      unfold appendBaselineFiles at h
      split at h
      · exact nomatch h
      · rename_i middle hmiddle
        refine bind_eq_ok.mpr ⟨(), hfile, ?_⟩
        refine ite_throw_eq_ok.mpr ⟨horder, ite_throw_eq_ok.mpr ⟨hpath, ?_⟩⟩
        exact bind_eq_ok.mpr ⟨middle, hmiddle, ih hfiles hvalid h⟩

theorem canonical_of_baseline {files : List GenerationFileIdentity} {digest : Text}
    (hvalid : ∀ file ∈ files, file.validate = .ok ())
    (h : baselineTargetInventorySha256 codec.unicode codec.sha256 files = .ok digest) :
    codec.canonicalTargetInventorySha256 files = .ok digest := by
  obtain ⟨_, hfiles, h⟩ := bind_eq_ok.mp h
  split at h
  · exact nomatch h
  · rename_i count hcount
    obtain ⟨bytes, hbytes, h⟩ := bind_eq_ok.mp h
    cases h
    refine bind_eq_ok.mpr ⟨bytes, ?_, rfl⟩
    exact bind_eq_ok.mpr ⟨count, hcount, appendInventory_of_baseline hfiles hvalid hbytes⟩

theorem validateSeedGeneration_ok {observed : ObservedGenerationRecord}
    {paths : List GenerationPathRecord}
    (h : validateSeedGeneration codec observed paths = .ok ()) :
    CleanSeed observed paths ∧ baselineTargetInventorySha256 codec.unicode codec.sha256
      (identitiesByProjection (paths.filterMap GenerationPathRecord.baseIdentity)) =
        .ok observed.inventorySha256 := by
  obtain ⟨-, h⟩ := ite_throw_eq_ok.mp h
  obtain ⟨inventory, hinventory, h⟩ := bind_eq_ok.mp h
  obtain ⟨digest, hdigest, h⟩ := bind_eq_ok.mp h
  obtain ⟨hsame, -⟩ := ite_throw_eq_ok.mp h
  obtain ⟨hclean, rfl, -⟩ := validateSeedPaths_ok hinventory
  refine ⟨hclean, ?_⟩
  rw [← not_not.mp hsame]
  cases hbaseline : baselineTargetInventorySha256 codec.unicode codec.sha256
      (identitiesByProjection (paths.filterMap GenerationPathRecord.baseIdentity)) with
  | error error =>
      rw [hbaseline] at hdigest
      exact nomatch hdigest
  | ok digest' =>
      rw [hbaseline] at hdigest
      cases hdigest
      rfl

theorem nodup_of_cleanSeed {observed : ObservedGenerationRecord}
    {paths : List GenerationPathRecord} (h : CleanSeed observed paths) :
    ((paths.filterMap GenerationPathRecord.baseIdentity).map
      GenerationFileIdentity.projectionId).Nodup := by
  have heq : (paths.filterMap GenerationPathRecord.baseIdentity).map
      GenerationFileIdentity.projectionId = paths.map GenerationPathRecord.projectionId := by
    have hidentity := h.identity
    clear h
    induction paths with
    | nil => rfl
    | cons path paths ih =>
        obtain ⟨⟨identity, hbase, hsame⟩, hidentity⟩ := List.forall_mem_cons.mp hidentity
        rw [List.filterMap_cons, hbase, List.map_cons, List.map_cons, ih hidentity, hsame]
  rw [heq]
  exact h.distinct

theorem hasDigest_of_seed {observed : ObservedGenerationRecord}
    {paths : List GenerationPathRecord} {view : ProjectionId → Option GenerationFileIdentity}
    (h : validateSeedGeneration codec observed paths = .ok ())
    (hview : ∀ projectionId identity, view projectionId = some identity ↔
      ∃ path ∈ paths, path.projectionId = projectionId ∧ path.baseIdentity = some identity) :
    HasDigest codec (generationSeedRefreshMode observed paths) view
      observed.inventorySha256 := by
  obtain ⟨hclean, hdigest⟩ := validateSeedGeneration_ok h
  have hnodup := nodup_of_cleanSeed hclean
  let inventory := paths.filterMap GenerationPathRecord.baseIdentity
  let table : ByProjection GenerationFileIdentity :=
    tableOf GenerationFileIdentity.projectionId id inventory
  have hlookup : ∀ projectionId identity, table[projectionId]? = some identity ↔
      identity ∈ inventory ∧ identity.projectionId = projectionId := by
    intro projectionId identity
    rw [getElem?_tableOf hnodup]
    constructor
    · rintro ⟨identity', hmem, hsame, rfl⟩
      exact ⟨hmem, hsame⟩
    · rintro ⟨hmem, hsame⟩
      exact ⟨identity, hmem, hsame, rfl⟩
  have hvalues : valuesOf table = identitiesByProjection inventory := by
    have hrows : table.toList = (identitiesByProjection inventory).map fun identity =>
        (identity.projectionId, identity) := by
      refine toList_eq_of_ordered ?_ ?_
      · rw [List.pairwise_map]
        refine ordered_insertionSort ?_
        have hvalues := hnodup.map projectionValue_injective
        rwa [List.map_map] at hvalues
      · intro projectionId identity
        rw [hlookup, List.mem_map]
        constructor
        · rintro ⟨identity', hmem, hpair⟩
          cases hpair
          exact ⟨(List.mem_insertionSort _).mp hmem, rfl⟩
        · rintro ⟨hmem, rfl⟩
          exact ⟨identity, (List.mem_insertionSort _).mpr hmem, rfl⟩
    rw [valuesOf, hrows, List.map_map]
    exact List.map_id _
  refine ⟨table, fun projectionId => Option.ext fun identity => ?_, ?_⟩
  · rw [hlookup, hview, List.mem_filterMap]
    constructor
    · rintro ⟨⟨path, hmem, hbase⟩, rfl⟩
      obtain ⟨identity', hbase', hsame⟩ := hclean.identity path hmem
      rw [hbase] at hbase'
      cases hbase'
      exact ⟨path, hmem, hsame.symm, hbase⟩
    · rintro ⟨path, hmem, rfl, hbase⟩
      obtain ⟨identity', hbase', hsame⟩ := hclean.identity path hmem
      rw [hbase] at hbase'
      cases hbase'
      exact ⟨⟨path, hmem, hbase⟩, hsame⟩
  · rw [hvalues]
    unfold Codec.inventorySha256 generationSeedRefreshMode
    dsimp only
    split
    · rename_i hmode
      split at hmode
      · rename_i hfit
        have hvalid : ∀ file ∈ identitiesByProjection inventory, file.validate = .ok () := by
          intro file hfile
          obtain ⟨path, hmem, hbase⟩ :=
            List.mem_filterMap.mp ((List.mem_insertionSort _).mp hfile)
          have hpaths := (Bool.and_eq_true_iff.mp hfit).2
          have hpath := (Bool.and_eq_true_iff.mp (List.all_eq_true.mp hpaths path hmem)).2
          have hok := List.all_eq_true.mp hpath file
            (List.mem_append_left _ (by rw [hbase]; exact List.mem_singleton_self file))
          cases hfile : file.validate with
          | error error =>
              rw [hfile] at hok
              cases hok
          | ok _ => rfl
        rw [canonical_of_baseline hvalid hdigest]
        rfl
      · cases hmode
    · rw [hdigest]
      rfl

/-! ## The paths of a baseline -/

theorem selectGenerationPath_of_insertPaths {sourceConnectionId : SourceConnectionId}
    {paths : List GenerationPathRecord}
    (h : paths.foldlM (fun store path => store.insertPath ⟨sourceConnectionId, path⟩) store =
      .ok store') (source : SourceKey) (projectionId : ProjectionId)
    (path : GenerationPathRecord) :
    store'.selectGenerationPath source projectionId = some path ↔
      store.selectGenerationPath source projectionId = some path ∨
        (path ∈ paths ∧ (path.mountId, sourceConnectionId) = source ∧
          path.projectionId = projectionId) := by
  induction paths generalizing store with
  | nil =>
      cases h
      simp only [List.not_mem_nil, false_and, or_false]
  | cons first paths ih =>
      rw [List.foldlM_cons] at h
      obtain ⟨middle, hinsert, hrest⟩ := bind_eq_ok.mp h
      obtain ⟨hnew, hplace⟩ := insertPath_ok hinsert
      have hmiddle := selectGenerationPath_of_place hplace
        (fun existing hexisting => nomatch hnew.symm.trans hexisting) source projectionId
      rw [ih hrest, hmiddle, List.mem_cons]
      split
      · rename_i hsame
        obtain ⟨rfl, rfl⟩ := hsame
        have hnone : store.selectGenerationPath (first.mountId, sourceConnectionId)
            first.projectionId = none := by
          unfold selectGenerationPath
          rw [show store.paths.table.lookup (first.mountId, first.projectionId) = none from hnew]
        change some first = some path ∨ _ ↔ store.selectGenerationPath
          (first.mountId, sourceConnectionId) first.projectionId = some path ∨ _
        rw [hnone, Option.some.injEq]
        constructor
        · rintro (rfl | hrest)
          · exact .inr ⟨.inl rfl, rfl, rfl⟩
          · exact .inr ⟨.inr hrest.1, hrest.2⟩
        · rintro (hfalse | ⟨rfl | hmem, hboth⟩)
          · exact nomatch hfalse
          · exact .inl rfl
          · exact .inr ⟨hmem, hboth⟩
      · rename_i hother
        refine or_congr Iff.rfl ⟨fun h => ⟨.inr h.1, h.2⟩, ?_⟩
        rintro ⟨rfl | hmem, hsource, hprojection⟩
        · exact absurd ⟨hsource, hprojection⟩ hother
        · exact ⟨hmem, hsource, hprojection⟩

theorem selectGenerationPath_of_insertSeeds {seeds : List GenerationBaselineSeedRecordV2}
    (h : seeds.foldlM insertSeed store = .ok store') (source : SourceKey)
    (projectionId : ProjectionId) (path : GenerationPathRecord) :
    store'.selectGenerationPath source projectionId = some path ↔
      store.selectGenerationPath source projectionId = some path ∨
        ∃ seed ∈ seeds, path ∈ seed.seed.paths ∧
          (path.mountId, seed.seed.observed.sourceConnectionId) = source ∧
          path.projectionId = projectionId := by
  induction seeds generalizing store with
  | nil =>
      cases h
      refine (or_iff_left ?_).symm
      rintro ⟨seed, hmem, -⟩
      exact nomatch hmem
  | cons seed seeds ih =>
      rw [List.foldlM_cons] at h
      obtain ⟨middle, hinsert, hrest⟩ := bind_eq_ok.mp h
      have hmiddle := selectGenerationPath_of_insertPaths hinsert source projectionId path
      rw [ih hrest, hmiddle, List.exists_mem_cons_iff, or_assoc]
      rfl

theorem validateSeeds_ok {layout : Option (UInt16 × Text)}
    {seeds : List GenerationBaselineSeedRecordV2}
    (h : validateSeeds codec layout seeds = .ok ()) :
    ∀ seed ∈ seeds,
      validateSeedGeneration codec seed.seed.observed seed.seed.paths = .ok () ∧
        seed.refreshMode = generationSeedRefreshMode seed.seed.observed seed.seed.paths := by
  induction seeds generalizing layout with
  | nil => exact fun _ hmem => nomatch hmem
  | cons seed seeds ih =>
      obtain ⟨_, hvalid, h⟩ := bind_eq_ok.mp h
      obtain ⟨-, h⟩ := ite_throw_eq_ok.mp h
      obtain ⟨hmode, h⟩ := ite_throw_eq_ok.mp h
      exact List.forall_mem_cons.mpr ⟨⟨hvalid, not_not.mp hmode⟩, ih h⟩

/-- The seeds that are inserted are checked ones with sorted paths. -/
theorem origin_of_seeds {seeds inserted : List GenerationBaselineSeedRecordV2}
    (h : Seeds codec store seeds inserted) :
    ∀ seed ∈ inserted, ∃ paths,
      validateSeedGeneration codec seed.seed.observed paths = .ok () ∧
        seed.refreshMode = generationSeedRefreshMode seed.seed.observed paths ∧
        seed.seed.paths = byProjection paths := by
  intro seed hseed
  have hmem := (newSeeds_ok h.inserts).1.subset hseed
  obtain ⟨original, horiginal, rfl⟩ := List.mem_map.mp ((List.mem_insertionSort _).mp hmem)
  obtain ⟨hvalid, hmode⟩ := validateSeeds_ok h.valid original horiginal
  exact ⟨original.seed.paths, hvalid, hmode, rfl⟩

theorem mount_of_seeds {seeds inserted : List GenerationBaselineSeedRecordV2}
    (h : Seeds codec store seeds inserted) :
    ∀ seed ∈ inserted, ∀ path ∈ seed.seed.paths,
      path.mountId = seed.seed.observed.mountId ∧ path.state = .clean := by
  intro seed hseed path hpath
  obtain ⟨paths, hvalid, -, hsorted⟩ := origin_of_seeds h seed hseed
  have hclean := (validateSeedGeneration_ok hvalid).1
  rw [hsorted] at hpath
  have hpath := (List.mem_insertionSort _).mp hpath
  exact ⟨hclean.mount path hpath, hclean.clean path hpath⟩

/-- The view of a source that no seed is of. -/
theorem remoteOf_of_other_seeds {seeds inserted : List GenerationBaselineSeedRecordV2}
    (h : Seeds codec store seeds inserted) (hinsert : inserted.foldlM insertSeed store = .ok store')
    (hother : source ∉ seedKeys inserted) (projectionId : ProjectionId) :
    remoteOf store' source projectionId = remoteOf store source projectionId := by
  have hselect : store'.selectGenerationPath source projectionId =
      store.selectGenerationPath source projectionId := by
    refine Option.ext fun path => ?_
    rw [selectGenerationPath_of_insertSeeds hinsert, or_iff_left]
    rintro ⟨seed, hseed, hpath, rfl, -⟩
    refine hother (List.mem_map.mpr ⟨seed, hseed, ?_⟩)
    rw [(mount_of_seeds h seed hseed path hpath).1]
    rfl
  rw [remoteOf, hselect, remoteOf]

/-- The view of a source that a seed is of, where the source had no path before. -/
theorem remoteOf_of_seed {seeds inserted : List GenerationBaselineSeedRecordV2}
    {seed : GenerationBaselineSeedRecordV2} (h : Seeds codec store seeds inserted)
    (hinsert : inserted.foldlM insertSeed store = .ok store') (hseed : seed ∈ inserted)
    (hnone : ∀ id, store.selectGenerationPath seed.seed.observed.key id = none)
    (projectionId : ProjectionId) (identity : GenerationFileIdentity) :
    remoteOf store' seed.seed.observed.key projectionId = some identity ↔
      ∃ path ∈ seed.seed.paths, path.projectionId = projectionId ∧
        path.baseIdentity = some identity := by
  rw [remoteOf, Option.bind_eq_some_iff]
  simp only [selectGenerationPath_of_insertSeeds hinsert, hnone, reduceCtorEq, false_or]
  have hbase : ∀ path ∈ seed.seed.paths, path.remoteIdentity = path.baseIdentity := by
    intro path hpath
    refine remoteIdentity_of_ne_conflicted ?_
    rw [(mount_of_seeds h seed hseed path hpath).2]
    exact fun h => by cases h
  constructor
  · rintro ⟨path, ⟨seed', hseed', hpath, hsource, rfl⟩, hidentity⟩
    have hkey : seed'.seed.observed.key = seed.seed.observed.key := by
      rw [← hsource, (mount_of_seeds h seed' hseed' path hpath).1]
      rfl
    have hsame : seed' = seed := List.inj_on_of_nodup_map h.nodup hseed' hseed hkey
    subst hsame
    exact ⟨path, hpath, rfl, hbase path hpath ▸ hidentity⟩
  · rintro ⟨path, hpath, rfl, hidentity⟩
    refine ⟨path, ⟨seed, hseed, hpath, ?_, rfl⟩, (hbase path hpath).trans hidentity⟩
    rw [(mount_of_seeds h seed hseed path hpath).1]
    rfl

end Locality.Delivery
