/-
  Delivery/RemoteView.lean --- what the store knows of the remote.

  The view of a source takes a projection to the identity that the remote has of it.  A
  delta says of each of its projections what the view is to be; the other calls leave the
  view of every source, where a late write is to evidence that is not superseded.
-/
import Locality.Delivery.StoreRun
import Locality.Delivery.Validation

set_option autoImplicit false

namespace Locality.Delivery

open Locality.Core Locality.Foundation Locality.Protocol GenerationStore

/-! ## Views -/

/-- The identity that the remote has of a projection of a source. -/
def remoteOf (store : GenerationStore) (source : SourceKey) (projectionId : ProjectionId) :
    Option GenerationFileIdentity :=
  (store.selectGenerationPath source projectionId).bind GenerationPathRecord.remoteIdentity

/-- The identities of a source, sorted by projection. -/
def remoteIdentities (store : GenerationStore) (source : SourceKey) :
    List GenerationFileIdentity :=
  (store.listGenerationPathsForSource source).filterMap GenerationPathRecord.remoteIdentity

/-- The view with what entries make of it, one after the other. -/
def deliverAll (view : ProjectionId → Option GenerationFileIdentity)
    (entries : List GenerationDeltaEntry) : ProjectionId → Option GenerationFileIdentity :=
  entries.foldl (fun view entry projectionId =>
    if entry.projectionId = some projectionId then entry.new else view projectionId) view

/-- The digest of an inventory as a source takes it: that of deltas refuses identifiers
that only full exports may have. -/
def Codec.inventorySha256 (codec : Codec) (mode : GenerationBaselineRefreshModeV1)
    (inventory : List GenerationFileIdentity) : StoreResult Text :=
  match mode with
  | .generationDeltaV1 => ofDelivery (codec.canonicalTargetInventorySha256 inventory)
  | .fullExportOnly =>
      ofBaseline (baselineTargetInventorySha256 codec.unicode codec.sha256 inventory)

/-- The digest is that of the inventory that a view is of. -/
def HasDigest (codec : Codec) (mode : GenerationBaselineRefreshModeV1)
    (view : ProjectionId → Option GenerationFileIdentity) (digest : Text) : Prop :=
  ∃ table : ByProjection GenerationFileIdentity,
    (∀ projectionId, table[projectionId]? = view projectionId) ∧
      codec.inventorySha256 mode (valuesOf table) = .ok digest

variable {codec : Codec} {store store' : GenerationStore} {source : SourceKey}

theorem HasDigest.congr {mode : GenerationBaselineRefreshModeV1} {digest : Text}
    {view view' : ProjectionId → Option GenerationFileIdentity}
    (h : HasDigest codec mode view digest) (hview : ∀ id, view' id = view id) :
    HasDigest codec mode view' digest := by
  obtain ⟨table, htable, hdigest⟩ := h
  exact ⟨table, fun id => (htable id).trans (hview id).symm, hdigest⟩

theorem deliverAll_congr {view view' : ProjectionId → Option GenerationFileIdentity}
    (h : ∀ id, view id = view' id) (entries : List GenerationDeltaEntry) :
    ∀ id, deliverAll view entries id = deliverAll view' entries id := by
  rw [funext h]
  exact fun _ => rfl

/-! ## Rows of a source -/

theorem mem_pathRowsOfSource {row : GenerationPathRow} :
    row ∈ store.pathRowsOfSource source ↔
      row ∈ store.paths.table.rows ∧ row.source = source := by
  rw [pathRowsOfSource, List.mem_filter, decide_eq_true_eq]

theorem selectGenerationPath_eq_some {projectionId : ProjectionId} {path : GenerationPathRecord} :
    store.selectGenerationPath source projectionId = some path ↔
      ∃ row ∈ store.paths.table.rows, row.source = source ∧
        row.path.projectionId = projectionId ∧ row.path = path := by
  unfold selectGenerationPath
  constructor
  · intro h
    split at h
    · exact nomatch h
    · rename_i row hrow
      obtain ⟨hmem, hkey⟩ := KeyedTable.lookup_eq_some.mp hrow
      split at h
      · rename_i hsource
        cases h
        exact ⟨row, hmem, hsource, congrArg Prod.snd hkey, rfl⟩
      · exact nomatch h
  · rintro ⟨row, hmem, rfl, rfl, rfl⟩
    have hlookup : store.paths.table.lookup (row.source.1, row.path.projectionId) = some row :=
      KeyedTable.lookup_eq_some.mpr ⟨hmem, rfl⟩
    rw [hlookup]
    exact if_pos rfl

/-- The paths of a source are of distinct projections. -/
theorem nodup_projections (store : GenerationStore) (source : SourceKey) :
    (((store.pathRowsOfSource source).map GenerationPathRow.path).map
      GenerationPathRecord.projectionId).Nodup := by
  rw [List.map_map]
  refine List.Nodup.map_on ?_
    (List.Nodup.filter _ (List.Nodup.of_map _ store.paths.table.distinct))
  intro row hrow row' hrow' hsame
  obtain ⟨hmem, hsource⟩ := mem_pathRowsOfSource.mp hrow
  obtain ⟨hmem', hsource'⟩ := mem_pathRowsOfSource.mp hrow'
  refine store.paths.table.eq_of_key hmem hmem' (Prod.ext ?_ hsame)
  exact (congrArg Prod.fst hsource).trans (congrArg Prod.fst hsource').symm

/-! ## Sorted rows -/

/-- Rows with distinct texts are sorted strictly by them. -/
theorem ordered_insertionSort {ρ : Type} {value : ρ → Text} {rows : List ρ}
    (hdistinct : (rows.map value).Nodup) :
    (rows.insertionSort fun row row' => byteOrder (value row) ≤ byteOrder (value row')).Pairwise
      fun row row' => textOrder (value row) (value row') = .lt := by
  let le : ρ → ρ → Prop := fun row row' => byteOrder (value row) ≤ byteOrder (value row')
  have htotal : Std.Total le := ⟨fun row row' => le_total _ _⟩
  have htrans : IsTrans ρ le := ⟨fun _ _ _ h h' => le_trans h h'⟩
  have hsorted : (rows.insertionSort le).Pairwise le := List.pairwise_insertionSort le rows
  have hne : (rows.insertionSort le).Pairwise fun row row' => value row ≠ value row' := by
    rw [← List.pairwise_map]
    exact ((List.perm_insertionSort le rows).map value).nodup_iff.mpr hdistinct
  refine (hsorted.and hne).imp fun ⟨hle, hne⟩ => textOrder_eq_lt.mpr ?_
  exact lt_of_le_of_ne hle fun heq => hne (byteOrder_injective heq)

theorem projectionValue_injective : Function.Injective ProjectionId.value := by
  intro id id' h
  cases id
  cases id'
  cases h
  rfl

theorem mem_listGenerationPathsForSource {path : GenerationPathRecord} :
    path ∈ store.listGenerationPathsForSource source ↔
      store.selectGenerationPath source path.projectionId = some path := by
  rw [listGenerationPathsForSource, byProjection, List.mem_insertionSort, List.mem_map,
    selectGenerationPath_eq_some]
  constructor
  · rintro ⟨row, hrow, rfl⟩
    obtain ⟨hmem, hsource⟩ := mem_pathRowsOfSource.mp hrow
    exact ⟨row, hmem, hsource, rfl, rfl⟩
  · rintro ⟨row, hmem, hsource, -, hpath⟩
    exact ⟨row, mem_pathRowsOfSource.mpr ⟨hmem, hsource⟩, hpath⟩

theorem ordered_listGenerationPathsForSource (store : GenerationStore) (source : SourceKey) :
    (store.listGenerationPathsForSource source).Pairwise fun path path' =>
      projectionOrder path.projectionId path'.projectionId = .lt := by
  refine ordered_insertionSort ?_
  have hnodup := (nodup_projections store source).map projectionValue_injective
  rwa [List.map_map] at hnodup

/-- The identities of a source are the values of the table that its view is of. -/
theorem remoteIdentities_eq_valuesOf {table : ByProjection GenerationFileIdentity}
    (h : ∀ projectionId, table[projectionId]? = remoteOf store source projectionId) :
    remoteIdentities store source = valuesOf table := by
  have hrows : table.toList = (store.listGenerationPathsForSource source).filterMap fun path =>
      path.remoteIdentity.map fun identity => (path.projectionId, identity) := by
    refine toList_eq_of_ordered ?_ ?_
    · refine List.pairwise_filterMap.mpr
        ((ordered_listGenerationPathsForSource store source).imp ?_)
      intro path path' hlt row hrow row' hrow'
      obtain ⟨identity, -, rfl⟩ := Option.map_eq_some_iff.mp hrow
      obtain ⟨identity', -, rfl⟩ := Option.map_eq_some_iff.mp hrow'
      exact hlt
    · intro projectionId identity
      rw [h, remoteOf, List.mem_filterMap, Option.bind_eq_some_iff]
      constructor
      · rintro ⟨path, hpath, hrow⟩
        obtain ⟨identity', hidentity, hpair⟩ := Option.map_eq_some_iff.mp hrow
        cases hpair
        exact ⟨path, mem_listGenerationPathsForSource.mp hpath, hidentity⟩
      · rintro ⟨path, hpath, hidentity⟩
        obtain ⟨row, -, -, rfl, rfl⟩ := selectGenerationPath_eq_some.mp hpath
        refine ⟨row.path, mem_listGenerationPathsForSource.mpr hpath, ?_⟩
        rw [hidentity, Option.map_some]
  rw [valuesOf, hrows, List.map_filterMap, remoteIdentities]
  refine List.filterMap_congr fun path _ => ?_
  cases path.remoteIdentity <;> rfl

/-! ## What writes do to views -/

/-- A row in the place of one of the same source, or of none. -/
theorem selectGenerationPath_of_place {row : GenerationPathRow}
    (h : store.placePath row = .ok store')
    (hsame : ∀ existing, store.paths.table.lookup row.key = some existing →
      existing.sourceConnectionId = row.sourceConnectionId)
    (source : SourceKey) (projectionId : ProjectionId) :
    store'.selectGenerationPath source projectionId =
      if row.source = source ∧ row.path.projectionId = projectionId then some row.path
      else store.selectGenerationPath source projectionId := by
  obtain ⟨free, -, rfl⟩ := placePath_ok h
  have hput : ({ store with paths := store.paths.place row free } : GenerationStore).paths.table =
      store.paths.table.put row := rfl
  unfold selectGenerationPath
  rw [hput]
  by_cases hkey : row.key = (source.1, projectionId)
  · have hlookup : (store.paths.table.put row).lookup (source.1, projectionId) = some row := by
      rw [← hkey]
      exact KeyedTable.lookup_put_self _ _
    have hprojection : row.path.projectionId = projectionId := congrArg Prod.snd hkey
    have hmount : row.path.mountId = source.1 := congrArg Prod.fst hkey
    rw [hlookup]
    dsimp only
    by_cases hsource : row.source = source
    · rw [if_pos hsource, if_pos ⟨hsource, hprojection⟩]
    · rw [if_neg hsource, if_neg (fun hboth => hsource hboth.1)]
      -- A row that was there is of the row's source, so it is not of this one.
      split
      · rfl
      · rename_i existing hexisting
        rw [if_neg]
        intro hother
        refine hsource (Prod.ext hmount ?_)
        have hconnection := hsame existing (hkey ▸ hexisting)
        exact hconnection.symm.trans (congrArg Prod.snd hother)
  · have hother : ¬ (row.source = source ∧ row.path.projectionId = projectionId) := by
      intro h
      obtain ⟨rfl, rfl⟩ := h
      exact hkey rfl
    rw [KeyedTable.lookup_put_ne _ hkey, if_neg hother]

theorem remoteOf_of_place {row : GenerationPathRow} (h : store.placePath row = .ok store')
    (hsame : ∀ existing, store.paths.table.lookup row.key = some existing →
      existing.sourceConnectionId = row.sourceConnectionId)
    (source : SourceKey) (projectionId : ProjectionId) :
    remoteOf store' source projectionId =
      if row.source = source ∧ row.path.projectionId = projectionId then row.path.remoteIdentity
      else remoteOf store source projectionId := by
  unfold remoteOf
  rw [selectGenerationPath_of_place h hsame]
  split
  · rfl
  · rfl

theorem remoteOf_congr (h : store'.paths = store.paths) (source : SourceKey)
    (projectionId : ProjectionId) :
    remoteOf store' source projectionId = remoteOf store source projectionId := by
  unfold remoteOf selectGenerationPath
  rw [h]

/-- Rows are erased where a test of their source and projection says so. -/
theorem remoteOf_of_erase {p : SourceKey → ProjectionId → Bool}
    (h : store'.paths = store.paths.eraseWhere fun row => p row.source row.path.projectionId)
    (source : SourceKey) (projectionId : ProjectionId) :
    remoteOf store' source projectionId =
      if p source projectionId then none else remoteOf store source projectionId := by
  have hselect : store'.selectGenerationPath source projectionId =
      if p source projectionId then none else store.selectGenerationPath source projectionId := by
    refine Option.ext fun path => ?_
    rw [selectGenerationPath_eq_some, h]
    change (∃ row ∈ (store.paths.table.eraseWhere _).rows, _) ↔ _
    simp only [KeyedTable.mem_eraseWhere]
    split
    · rename_i hp
      refine iff_of_false ?_ nofun
      rintro ⟨row, ⟨-, hkept⟩, rfl, rfl, -⟩
      exact Bool.eq_false_iff.mp hkept hp
    · rename_i hp
      rw [selectGenerationPath_eq_some]
      constructor
      · rintro ⟨row, ⟨hmem, -⟩, hrow⟩
        exact ⟨row, hmem, hrow⟩
      · rintro ⟨row, hmem, rfl, rfl, hpath⟩
        exact ⟨row, ⟨hmem, Bool.eq_false_iff.mpr hp⟩, rfl, rfl, hpath⟩
  unfold remoteOf
  rw [hselect]
  split
  · rfl
  · rfl

/-! ## Completing -/

/-- An outcome that an apply of the entry can have: a conflict is with its new identity. -/
def Fits (entry : GenerationDeltaEntry) : GenerationApplyOutcome → Prop
  | .conflict _ incomingIdentity => incomingIdentity = entry.new
  | .conflictOverQuota _ incomingIdentity => incomingIdentity = entry.new
  | _ => True

theorem remoteIdentity_of_ne_conflicted {path : GenerationPathRecord}
    (h : path.state ≠ .conflicted) : path.remoteIdentity = path.baseIdentity :=
  if_neg h

theorem remoteIdentity_of_conflicted {path : GenerationPathRecord}
    (h : path.state = .conflicted) : path.remoteIdentity = path.incomingIdentity :=
  if_pos h

theorem projectionId_of_identity {entry : GenerationDeltaEntry}
    {identity : GenerationFileIdentity}
    (h : (entry.new.orElse fun _ => entry.old) = some identity) (projectionId : ProjectionId) :
    entry.projectionId = some projectionId ↔ identity.projectionId = projectionId := by
  have hid : entry.projectionId = some identity.projectionId := by
    rw [GenerationDeltaEntry.projectionId]
    cases hnew : entry.new with
    | none =>
        rw [hnew] at h
        have hold : entry.old = some identity := h
        rw [hold]
        rfl
    | some new =>
        rw [hnew] at h
        cases h
        rfl
  rw [hid, Option.some.injEq]

/-- The view after one entry: it is the entry's new identity at the entry's projection. -/
theorem remoteOf_of_completeEntry {journal : StoredGenerationApply} {entryIndex : Nat}
    {entry : GenerationDeltaEntry} {outcome : GenerationApplyOutcome} {completedAt : Text}
    (h : store.completeEntry journal entryIndex entry outcome completedAt = .ok store')
    (hfits : Fits entry outcome) (source : SourceKey) (projectionId : ProjectionId) :
    remoteOf store' source projectionId =
      if journal.source = source ∧ entry.projectionId = some projectionId then entry.new
      else remoteOf store source projectionId := by
  cases completeEntry_ok h with
  | delivered new state hnew hcause hpath =>
      obtain ⟨hplace, hsame⟩ := upsertPath_ok hpath
      have hidentity : (entry.new.orElse fun _ => entry.old) = some new := by
        rw [hnew]
        rfl
      have hid := projectionId_of_identity hidentity projectionId
      have hstate : state ≠ .conflicted := by
        rcases hcause with ⟨-, rfl⟩ | ⟨-, rfl⟩
        · exact nofun
        · exact nofun
      rw [remoteOf_of_place hplace hsame, hnew]
      exact if_congr (and_congr_right fun _ => hid.symm)
        (remoteIdentity_of_ne_conflicted hstate) rfl
  | conflicted identity localSha256 incomingIdentity retained hidentity hcause hpath =>
      obtain ⟨hplace, hsame⟩ := upsertPath_ok hpath
      have hid := projectionId_of_identity hidentity projectionId
      have hincoming : incomingIdentity = entry.new := by
        rcases hcause with ⟨rfl, -⟩ | ⟨rfl, -⟩
        · exact hfits
        · exact hfits
      rw [remoteOf_of_place hplace hsame, ← hincoming]
      exact if_congr (and_congr_right fun _ => hid.symm) (remoteIdentity_of_conflicted rfl) rfl
  | deleted old _ hold hnew _ hresult =>
      have hid := projectionId_of_identity (by rw [hnew, hold]; rfl) projectionId
      rw [hresult, remoteOf_of_erase (p := fun source' id =>
        decide (source' = journal.source) && decide (id = old.projectionId)) rfl, hnew]
      refine if_congr ?_ rfl rfl
      rw [Bool.and_eq_true, decide_eq_true_eq, decide_eq_true_eq, hid, eq_comm]
      exact and_congr_right fun _ => eq_comm

/-- The view after the entries, each with an outcome that fits. -/
theorem remoteOf_of_completeEntries {journal : StoredGenerationApply} {completedAt : Text}
    {entryIndex : Nat} {rest : List (GenerationDeltaEntry × GenerationApplyOutcome)}
    (h : completeEntries journal completedAt entryIndex rest store = .ok store')
    (hfits : ∀ pair ∈ rest, Fits pair.1 pair.2) (source : SourceKey)
    (projectionId : ProjectionId) :
    remoteOf store' source projectionId =
      if journal.source = source then
        deliverAll (remoteOf store source) (rest.map Prod.fst) projectionId
      else remoteOf store source projectionId := by
  induction rest generalizing entryIndex store with
  | nil =>
      cases h
      exact (ite_self _).symm
  | cons first rest ih =>
      obtain ⟨middle, hentry, hrest⟩ := bind_eq_ok.mp h
      obtain ⟨hfirst, hfits⟩ := List.forall_mem_cons.mp hfits
      have hmiddle := remoteOf_of_completeEntry hentry hfirst source
      rw [ih hrest hfits]
      split
      · rename_i hsource
        refine deliverAll_congr (fun id => ?_) (rest.map Prod.fst) projectionId
        rw [hmiddle]
        exact if_congr (and_iff_right hsource) rfl rfl
      · rename_i hsource
        rw [hmiddle, if_neg (fun hboth => hsource hboth.1)]

end Locality.Delivery
