/-
  Discovery/CommitEffects.lean --- what a commit leaves in the tables of the two stores.

  The staged rows are at paths that no final row has, and the deleted ones are gone, so each
  final row finds its path free; what the database then holds is looked up as in the
  in-memory store.  The two make the same enrollments of the survivors of the deletes, and
  of those that moved.
-/
import Locality.Discovery.PreflightFacts
import Locality.Discovery.Stores
import Std.Data.String.ToNat

set_option autoImplicit false

namespace Locality.Discovery

open Locality.Core Locality.Foundation
open Locality.Daemon (EntityKey EntityRecord StoreError)

/-! ## Logical paths -/

theorem not_mem_backslashPieces {text : Text} :
    ∀ piece ∈ backslashPieces text, '\\' ∉ piece := by
  induction text with
  | nil =>
      intro piece hmem
      rw [List.mem_singleton.mp hmem]
      exact List.not_mem_nil
  | cons c text ih =>
      intro piece hmem
      rw [backslashPieces] at hmem
      split at hmem
      · rcases List.mem_cons.mp hmem with rfl | hmem
        · exact List.not_mem_nil
        · exact ih piece hmem
      · rename_i hne
        split at hmem
        · rw [List.mem_singleton.mp hmem, List.mem_singleton]
          exact fun h => hne h.symm
        · rename_i first rest hpieces
          rcases List.mem_cons.mp hmem with rfl | hmem
          · refine fun h => (List.mem_cons.mp h).elim (fun h => hne h.symm) ?_
            exact ih first (hpieces ▸ List.mem_cons_self)
          · exact ih piece (hpieces ▸ List.mem_cons_of_mem _ hmem)

/-- No component of the path has a backslash. -/
def IsLogical (path : PathBuf) : Prop := ∀ component ∈ path.components, '\\' ∉ component

instance (path : PathBuf) : Decidable (IsLogical path) := List.decidableBAll _ _

theorem isLogical_logicalPath (path : PathBuf) : IsLogical (logicalPath path) := by
  rw [logicalPath]
  split
  · rename_i hall
    exact fun component hmem => of_decide_eq_true (List.all_eq_true.mp hall component hmem)
  · intro component hmem
    have hpiece : component ∈ path.components.flatMap backslashPieces := by
      rcases List.mem_append.mp hmem with hmem | hmem
      · exact List.mem_of_mem_take (List.mem_of_mem_filter hmem)
      · exact List.mem_of_mem_drop (List.mem_of_mem_filter hmem)
    obtain ⟨text, -, hpiece⟩ := List.mem_flatMap.mp hpiece
    exact not_mem_backslashPieces component hpiece

theorem logicalPath_eq_self {path : PathBuf} : logicalPath path = path ↔ IsLogical path := by
  refine ⟨fun h => h ▸ isLogical_logicalPath path, fun h => ?_⟩
  rw [logicalPath, if_pos]
  exact List.all_eq_true.mpr fun component hmem => decide_eq_true (h component hmem)

/-! ## Rows of one mount -/

section Rows

variable {κ ρ : Type} [Ranked κ] [DecidableEq κ] {key : ρ → MountId × κ} {sub : ρ → κ}
  {mountOf : ρ → MountId} {mountId : MountId}

omit [DecidableEq κ] in
theorem mem_rowsOf {key : ρ → κ} {mountOf : ρ → MountId} {table : RankedTable key} {row : ρ} :
    row ∈ rowsOf mountOf mountId table ↔
      table.lookup (key row) = some row ∧ mountOf row = mountId := by
  rw [rowsOf, List.mem_filter, RankedTable.mem_all, decide_eq_true_eq]

omit [DecidableEq κ] in
theorem nodup_rowsOf (hkey : ∀ row, key row = (mountOf row, sub row)) (table : RankedTable key) :
    ((rowsOf mountOf mountId table).map sub).Nodup := by
  have hkeys : ((rowsOf mountOf mountId table).map key).Nodup :=
    (List.filter_sublist.map key).nodup table.nodup_all
  refine List.Nodup.of_map (fun k => (mountId, k)) ?_
  rw [List.map_map]
  refine (List.map_congr_left fun row hmem => ?_) ▸ hkeys
  rw [hkey row, (mem_rowsOf.mp hmem).2]
  rfl

/-- The rows of a mount by their second keys, as the whole table looks them up. -/
theorem lookup_rowsOf (hkey : ∀ row, key row = (mountOf row, sub row))
    (table : RankedTable key) (k : κ) :
    ((RankedTable.empty : RankedTable sub).putAll (rowsOf mountOf mountId table)).lookup k =
      table.lookup (mountId, k) := by
  refine Option.ext fun row => ?_
  rw [RankedTable.lookup_putAll_eq_some (nodup_rowsOf hkey table), RankedTable.lookup_empty,
    mem_rowsOf, hkey row]
  simp only [reduceCtorEq, and_false, or_false]
  constructor
  · rintro ⟨⟨hlookup, rfl⟩, rfl⟩
    exact hlookup
  · intro hlookup
    have hpair := (hkey row).symm.trans (RankedTable.key_of_lookup hlookup)
    obtain ⟨rfl, rfl⟩ := Prod.mk.inj hpair
    exact ⟨⟨hlookup, rfl⟩, rfl⟩

end Rows

/-! ## Staging -/

namespace DatabaseRows

theorem stagingPath_injective {index nonce nonce' : Nat}
    (h : stagingPath index nonce = stagingPath index nonce') : nonce = nonce' := by
  have hname := (List.cons.inj (List.cons.inj (PathBuf.mk.inj h).2).2).1
  exact Nat.repr_injective (String.toList_inj.mp (List.append_cancel_left hname))

/-- A free nonce is found, or all that were tried are taken. -/
theorem freeNonce_spec (taken : List PathBuf) (index : Nat) : ∀ tries nonce : Nat,
    stagingPath index (freeNonce taken index tries nonce) ∉ taken ∨
      ∀ i < tries, stagingPath index (nonce + i) ∈ taken := by
  intro tries
  induction tries with
  | zero =>
      intro nonce
      exact Or.inr fun i hi => absurd hi (Nat.not_lt_zero i)
  | succ tries ih =>
      intro nonce
      rw [freeNonce]
      split
      · rename_i htaken
        refine (ih (nonce + 1)).imp_right fun hall i hi => ?_
        cases i with
        | zero => exact htaken
        | succ i =>
            have hnext := hall i (Nat.lt_of_succ_lt_succ hi)
            rwa [Nat.add_assoc, Nat.add_comm 1 i] at hnext
      · rename_i hfree
        exact Or.inl hfree

/-- One more try than there are taken paths finds a free one. -/
theorem stagingPath_free (taken : List PathBuf) (index : Nat) :
    stagingPath index (freeNonce taken index (taken.length + 1) 0) ∉ taken := by
  refine (freeNonce_spec taken index (taken.length + 1) 0).resolve_right fun hall => ?_
  have hnodup : ((List.range (taken.length + 1)).map (stagingPath index)).Nodup :=
    List.Nodup.map (fun _ _ => stagingPath_injective) List.nodup_range
  have hsubset : (List.range (taken.length + 1)).map (stagingPath index) ⊆ taken := by
    intro path hmem
    obtain ⟨i, hi, rfl⟩ := List.mem_map.mp hmem
    have htaken := hall i (List.mem_range.mp hi)
    rwa [Nat.zero_add] at htaken
  have hle := (List.subperm_of_subset hnodup hsubset).length_le
  rw [List.length_map, List.length_range] at hle
  exact absurd hle (Nat.not_succ_le_self _)

theorem discoveryStagingPath_free (entities : UniqueTable EntityRecord.key pathKey)
    (mountId : MountId) (index : Nat) (finalPaths : List PathBuf) :
    discoveryStagingPath entities mountId index finalPaths ∉ finalPaths ∧
      ∀ entity ∈ entities.all, entity.mountId = mountId →
        entity.path ≠ discoveryStagingPath entities mountId index finalPaths := by
  have hfree := stagingPath_free (finalPaths ++
    (rowsOf (·.mountId) mountId entities.toRankedTable).map (·.path)) index
  refine ⟨fun hmem => hfree (List.mem_append_left _ hmem), fun entity hmem hmount hpath => ?_⟩
  refine hfree (List.mem_append_right _ (List.mem_map.mpr ⟨entity, ?_, hpath⟩))
  exact mem_rowsOf.mpr ⟨RankedTable.mem_all.mp hmem, hmount⟩

/-- A row is moved to a path that no row of its mount has. -/
theorem setEntityPath_ok {entities : UniqueTable EntityRecord.key pathKey} (key : EntityKey)
    {path : PathBuf} (hfree : ∀ entity ∈ entities.all, entity.mountId = key.1 →
      entity.path ≠ path) :
    ∃ entities', setEntityPath entities key path = .ok entities' ∧
      ∀ k, entities'.lookup k = if key = k then (entities.lookup k).map fun entity =>
        { entity with path := path } else entities.lookup k := by
  rw [setEntityPath]
  cases hlookup : entities.lookup key with
  | none =>
      refine ⟨entities, rfl, fun k => ?_⟩
      split
      · rename_i hkey
        rw [← hkey, hlookup]
        rfl
      · rfl
  | some entity =>
      have hkey : entity.key = key := RankedTable.key_of_lookup hlookup
      have hput : entities.Free { entity with path := path } := by
        intro other hmem hmark
        obtain ⟨hmount, hpath⟩ := Prod.mk.inj hmark
        exact absurd hpath (hfree other hmem (hmount.trans (congrArg Prod.fst hkey)))
      obtain ⟨entities', hput, htable⟩ := UniqueTable.put_of_free hput
      refine ⟨entities', ?_, fun k => ?_⟩
      · dsimp only
        rw [hput]
        rfl
      have hsame : EntityRecord.key { entity with path := path } = key := hkey
      rw [htable, RankedTable.lookup_put, hsame]
      split
      · rename_i hk
        rw [← hk, hlookup]
        rfl
      · rfl

/-- The rows that move are staged: none of them keeps a final path, and the others stay. -/
theorem stageMoves_ok (mountId : MountId) (finalPaths : List PathBuf) (moves : List PathMove) :
    ∀ (index : Nat) (entities : UniqueTable EntityRecord.key pathKey),
      ∃ staged, stageMoves mountId finalPaths index moves entities = .ok staged ∧
        (∀ k, (∀ move ∈ moves, (mountId, move.remoteId) ≠ k) →
          staged.lookup k = entities.lookup k) ∧
        ∀ move ∈ moves, ∀ entity, staged.lookup (mountId, move.remoteId) = some entity →
          entity.path ∉ finalPaths := by
  induction moves with
  | nil =>
      intro index entities
      exact ⟨entities, rfl, fun _ _ => rfl, List.forall_mem_nil _⟩
  | cons move moves ih =>
      intro index entities
      obtain ⟨hfinal, hfree⟩ := discoveryStagingPath_free entities mountId index finalPaths
      obtain ⟨next, hnext, hlookup⟩ :=
        setEntityPath_ok (mountId, move.remoteId) hfree
      obtain ⟨staged, hstaged, hrest, hmoved⟩ := ih (index + 1) next
      refine ⟨staged, bind_eq_ok.mpr ⟨next, hnext, hstaged⟩, fun k hk => ?_, ?_⟩
      · obtain ⟨hne, hk⟩ := List.forall_mem_cons.mp hk
        rw [hrest k hk, hlookup, if_neg hne]
      · refine List.forall_mem_cons.mpr ⟨fun entity hentity => ?_, hmoved⟩
        -- a later move of the same row stages it again
        by_cases hlater : ∃ later ∈ moves, (mountId, later.remoteId) = (mountId, move.remoteId)
        · obtain ⟨later, hmem, hsame⟩ := hlater
          exact hmoved later hmem entity (hsame ▸ hentity)
        · rw [hrest _ fun later hmem hsame => hlater ⟨later, hmem, hsame⟩, hlookup,
            if_pos rfl] at hentity
          obtain ⟨before, -, rfl⟩ := Option.map_eq_some_iff.mp hentity
          exact hfinal

theorem lookup_foldl_erase {keys : List EntityKey}
    {entities : UniqueTable EntityRecord.key pathKey} {k : EntityKey} {entity : EntityRecord} :
    (keys.foldl UniqueTable.erase entities).lookup k = some entity ↔
      k ∉ keys ∧ entities.lookup k = some entity := by
  have htable : ∀ {keys : List EntityKey} {entities : UniqueTable EntityRecord.key pathKey},
      (keys.foldl UniqueTable.erase entities).toRankedTable =
        entities.toRankedTable.eraseAll keys := by
    intro keys
    induction keys with
    | nil => exact fun {_} => rfl
    | cons key keys ih =>
        intro entities
        exact ih
  rw [htable, RankedTable.lookup_eraseAll]

end DatabaseRows

/-! ## Accepted commits over the tables -/

section Accepted

variable {jsonError : Text → Option Text} {shared : SharedRows}
  {table : RankedTable EntityRecord.key} {commit : DiscoveryCommit}
  {details : DiscoveryPreflight}

/-- The commit passed its preflight over the rows of its mount. -/
def AcceptedOver (jsonError : Text → Option Text) (shared : SharedRows)
    (table : RankedTable EntityRecord.key) (commit : DiscoveryCommit)
    (details : DiscoveryPreflight) : Prop :=
  ∃ mount, shared.mounts.lookup commit.mountId = some mount ∧
    commit.Accepted jsonError mount.connector (rowsOf (·.mountId) commit.mountId table)
      (rowsOf (·.mountId) commit.mountId shared.autoSaveEnrollments) details

theorem accepted_of_preflightOver
    (h : preflightOver jsonError shared table commit = .ok details) :
    AcceptedOver jsonError shared table commit details := by
  rw [preflightOver] at h
  split at h
  · exact nomatch h
  · rename_i mount hmount
    exact ⟨mount, hmount, DiscoveryCommit.preflightDetails_ok h⟩

theorem lookup_existing (table : RankedTable EntityRecord.key) (mountId : MountId)
    (remoteId : RemoteId) :
    ((RankedTable.empty : EntityMap).putAll
      (rowsOf (·.mountId) mountId table)).lookup remoteId = table.lookup (mountId, remoteId) :=
  lookup_rowsOf (fun _ => rfl) table remoteId

namespace AcceptedOver

variable (h : AcceptedOver jsonError shared table commit details)

include h

theorem valid : commit.Valid := by
  obtain ⟨mount, -, hcommit⟩ := h
  exact hcommit.valid

/-- A final entity is saved, or was there and is neither saved nor deleted. -/
theorem lookup_final {remoteId : RemoteId} {entity : EntityRecord} :
    details.finalEntities.lookup remoteId = some entity ↔
      entity ∈ commit.entityUpserts ∧ entity.remoteId = remoteId ∨
        (∀ upsert ∈ commit.entityUpserts, upsert.remoteId ≠ remoteId) ∧
          remoteId ∉ commit.entityDeletes ∧
            table.lookup (commit.mountId, remoteId) = some entity := by
  obtain ⟨mount, -, hcommit⟩ := h
  have hnodup : ((rowsOf (·.mountId) commit.mountId table).map (·.remoteId)).Nodup :=
    nodup_rowsOf (fun _ => rfl) table
  rw [hcommit.final, DiscoveryCommit.lookup_entitiesAfter hnodup hcommit.valid.entityIds]
  refine or_congr_right (and_congr_right fun _ => and_congr_right fun _ => ?_)
  rw [mem_rowsOf]
  constructor
  · rintro ⟨⟨hlookup, hmount⟩, rfl⟩
    rw [← hmount]
    exact hlookup
  · intro hlookup
    have hkey : entity.key = (commit.mountId, remoteId) := RankedTable.key_of_lookup hlookup
    refine ⟨⟨?_, congrArg Prod.fst hkey⟩, congrArg Prod.snd hkey⟩
    rw [hkey]
    exact hlookup

theorem mount_of_final {remoteId : RemoteId} {entity : EntityRecord}
    (hfinal : details.finalEntities.lookup remoteId = some entity) :
    entity.mountId = commit.mountId := by
  rcases h.lookup_final.mp hfinal with ⟨hmem, -⟩ | ⟨-, -, hlookup⟩
  · exact h.valid.entityMounts entity hmem
  · exact congrArg Prod.fst (RankedTable.key_of_lookup hlookup)

/-- Final entities at one path are one entity. -/
theorem final_apart {remoteId remoteId' : RemoteId} {entity entity' : EntityRecord}
    (hfinal : details.finalEntities.lookup remoteId = some entity)
    (hfinal' : details.finalEntities.lookup remoteId' = some entity')
    (hpath : entity.path = entity'.path) : remoteId = remoteId' := by
  obtain ⟨mount, -, hcommit⟩ := h
  have hmem : ∀ {remoteId : RemoteId} {entity : EntityRecord},
      details.finalEntities.lookup remoteId = some entity →
        entity ∈ details.finalEntities.all ∧ entity.remoteId = remoteId := by
    intro remoteId entity hlookup
    have hid : entity.remoteId = remoteId := RankedTable.key_of_lookup hlookup
    exact ⟨RankedTable.mem_all.mpr (by rw [hid]; exact hlookup), hid⟩
  obtain ⟨hin, rfl⟩ := hmem hfinal
  obtain ⟨hin', rfl⟩ := hmem hfinal'
  exact hcommit.apart entity hin entity' hin' hpath

/-- The moves of a commit are its upserts of entities that lie at another path. -/
theorem mem_moves {move : PathMove} :
    move ∈ details.pathMoves ↔ ∃ entity ∈ commit.entityUpserts, ∃ current,
      table.lookup (commit.mountId, entity.remoteId) = some current ∧
        current.path ≠ entity.path ∧
          move = ⟨entity.remoteId, current.path, entity.path⟩ := by
  obtain ⟨mount, -, hcommit⟩ := h
  rw [hcommit.moves, DiscoveryCommit.mem_pathMovesOf]
  simp only [lookup_existing]

theorem mem_deletedPaths {remoteId : RemoteId} {path : PathBuf} :
    (remoteId, path) ∈ details.deletedPaths ↔ remoteId ∈ commit.entityDeletes ∧
      ∃ entity, table.lookup (commit.mountId, remoteId) = some entity ∧ entity.path = path := by
  obtain ⟨mount, -, hcommit⟩ := h
  rw [hcommit.deletedPaths, DiscoveryCommit.mem_deletedPathsOf]
  simp only [lookup_existing]

end AcceptedOver

end Accepted

/-! ## Entities -/

section Entities

variable {jsonError : Text → Option Text} {shared : SharedRows}
  {entities : UniqueTable EntityRecord.key pathKey} {commit : DiscoveryCommit}
  {details : DiscoveryPreflight}

/-- The final entities of the mount are those of the preflight, and the others stay. -/
theorem MemoryRows.lookup_finalEntities {rows : MemoryRows} {mountId : MountId}
    {final : EntityMap} (hmount : ∀ entity ∈ final.all, entity.mountId = mountId)
    {key : EntityKey} {entity : EntityRecord} :
    (rows.finalEntities mountId final).lookup key = some entity ↔
      key.1 = mountId ∧ final.lookup key.2 = some entity ∨
        key.1 ≠ mountId ∧ rows.entities.lookup key = some entity := by
  rw [finalEntities, RankedTable.lookup_putAll_eq_some (nodup_keys final.nodup_all),
    RankedTable.lookup_retain, Option.filter_eq_some_iff, decide_eq_true_eq]
  constructor
  · rintro (⟨hmem, rfl⟩ | ⟨-, hlookup, hne⟩)
    · exact Or.inl ⟨hmount entity hmem, RankedTable.mem_all.mp hmem⟩
    · rw [← RankedTable.key_of_lookup hlookup]
      exact Or.inr ⟨hne, (RankedTable.key_of_lookup hlookup).symm ▸ hlookup⟩
  · rintro (⟨hkey, hlookup⟩ | ⟨hkey, hlookup⟩)
    · have hid : entity.remoteId = key.2 := RankedTable.key_of_lookup hlookup
      have hmem : entity ∈ final.all := RankedTable.mem_all.mpr (by rw [hid]; exact hlookup)
      exact Or.inl ⟨hmem, Prod.ext ((hmount entity hmem).trans hkey.symm) hid⟩
    · refine Or.inr ⟨fun other hmem hsame => ?_, hlookup, ?_⟩
      · exact hkey ((congrArg Prod.fst hsame).symm.trans (hmount other hmem))
      · exact fun hsame => hkey ((congrArg Prod.fst
          (RankedTable.key_of_lookup hlookup)).symm.trans hsame)

namespace DatabaseRows

/-- What the upserts leave: each of them, and what was there of no entity of theirs. -/
theorem lookup_of_upsertDiscoveryEntities (hvalid : commit.Valid)
    {entities' : UniqueTable EntityRecord.key pathKey}
    (h : upsertDiscoveryEntities entities commit.entityUpserts = .ok entities')
    {key : EntityKey} {entity : EntityRecord} :
    entities'.lookup key = some entity ↔
      (∃ upsert ∈ commit.entityUpserts, upsert.key = key ∧
        entity = { upsert with path := logicalPath upsert.path }) ∨
        (∀ upsert ∈ commit.entityUpserts, upsert.key ≠ key) ∧
          entities.lookup key = some entity := by
  rw [upsertDiscoveryEntities] at h
  split at h
  · rename_i table hput
    cases h
    rw [UniqueTable.toRankedTable_of_putAll hput, RankedTable.lookup_putAll_eq_some]
    · rw [List.mem_map, List.forall_mem_map]
      refine or_congr ?_ Iff.rfl
      constructor
      · rintro ⟨⟨upsert, hmem, rfl⟩, hkey⟩
        exact ⟨upsert, hmem, hkey, rfl⟩
      · rintro ⟨upsert, hmem, hkey, rfl⟩
        exact ⟨⟨upsert, hmem, rfl⟩, hkey⟩
    · rw [List.map_map]
      exact nodup_keys hvalid.entityIds
  · exact nomatch h

/-- After the staging and the deletes, a row with the path of an upsert is of its entity. -/
theorem free_of_accepted
    (h : AcceptedOver jsonError shared entities.toRankedTable commit details)
    {finalPaths : List PathBuf} {staged : UniqueTable EntityRecord.key pathKey}
    (hpaths : ∀ upsert ∈ commit.entityUpserts, upsert.path ∈ finalPaths)
    (hrest : ∀ k, (∀ move ∈ details.pathMoves, (commit.mountId, move.remoteId) ≠ k) →
      staged.lookup k = entities.lookup k)
    (hmoved : ∀ move ∈ details.pathMoves, ∀ entity,
      staged.lookup (commit.mountId, move.remoteId) = some entity → entity.path ∉ finalPaths)
    {upsert : EntityRecord} (hupsert : upsert ∈ commit.entityUpserts) :
    ((commit.entityDeletes.map fun remoteId => (commit.mountId, remoteId)).foldl
      UniqueTable.erase staged).Free upsert := by
  intro row hrow hmark
  obtain ⟨hmount, hpath⟩ := Prod.mk.inj hmark
  have hmount : row.mountId = commit.mountId :=
    hmount.trans (h.valid.entityMounts upsert hupsert)
  obtain ⟨hkept, hstaged⟩ := lookup_foldl_erase.mp (RankedTable.mem_all.mp hrow)
  have hkey : row.key = (commit.mountId, row.remoteId) := Prod.ext hmount rfl
  -- a staged row has no final path, so the row is where it was
  have hstays : ∀ move ∈ details.pathMoves, (commit.mountId, move.remoteId) ≠ row.key := by
    intro move hmem hsame
    refine hmoved move hmem row (hsame ▸ hstaged) ?_
    rw [hpath]
    exact hpaths upsert hupsert
  have hlookup : entities.lookup (commit.mountId, row.remoteId) = some row := by
    rw [← hkey, ← hrest row.key hstays]
    exact hstaged
  have hupsertFinal : details.finalEntities.lookup upsert.remoteId = some upsert :=
    h.lookup_final.mpr (Or.inl ⟨hupsert, rfl⟩)
  have hsame : row.remoteId = upsert.remoteId := by
    by_cases hsaved : ∃ saved ∈ commit.entityUpserts, saved.remoteId = row.remoteId
    · obtain ⟨saved, hmem, hid⟩ := hsaved
      have hplace : row.path = saved.path := by
        by_contra hne
        refine hstays ⟨saved.remoteId, row.path, saved.path⟩ (h.mem_moves.mpr
          ⟨saved, hmem, row, ?_, hne, rfl⟩) ?_
        · rw [hid]
          exact hlookup
        · rw [hkey, hid]
      have hsavedFinal : details.finalEntities.lookup row.remoteId = some saved :=
        h.lookup_final.mpr (Or.inl ⟨hmem, hid⟩)
      exact h.final_apart hsavedFinal hupsertFinal (hplace.symm.trans hpath)
    · have hrowFinal : details.finalEntities.lookup row.remoteId = some row := by
        refine h.lookup_final.mpr (Or.inr ⟨fun saved hmem hid => hsaved ⟨saved, hmem, hid⟩,
          fun hdeleted => hkept ?_, hlookup⟩)
        rw [hkey]
        exact List.mem_map_of_mem hdeleted
      exact h.final_apart hrowFinal hupsertFinal hpath
  exact Prod.ext (hmount.trans (h.valid.entityMounts upsert hupsert).symm) hsame

/-- The database has the final entities of the in-memory store, where the paths of the
upserts are logical. -/
theorem exists_entities
    (h : AcceptedOver jsonError shared entities.toRankedTable commit details)
    (hlogical : ∀ upsert ∈ commit.entityUpserts, IsLogical upsert.path) {rows : MemoryRows}
    (hrows : rows.entities = entities.toRankedTable) :
    ∃ staged entities', stageMoves commit.mountId
        (commit.entityUpserts.map fun entity => logicalPath entity.path) 0 details.pathMoves
          entities = .ok staged ∧
      upsertDiscoveryEntities ((commit.entityDeletes.map fun remoteId =>
        (commit.mountId, remoteId)).foldl UniqueTable.erase staged) commit.entityUpserts =
          .ok entities' ∧
      entities'.toRankedTable = rows.finalEntities commit.mountId details.finalEntities := by
  obtain ⟨staged, hstaged, hrest, hmoved⟩ := stageMoves_ok commit.mountId
    (commit.entityUpserts.map fun entity => logicalPath entity.path) details.pathMoves 0 entities
  have hpaths : ∀ upsert ∈ commit.entityUpserts,
      upsert.path ∈ commit.entityUpserts.map fun entity => logicalPath entity.path :=
    fun upsert hmem => List.mem_map.mpr
      ⟨upsert, hmem, logicalPath_eq_self.mpr (hlogical upsert hmem)⟩
  have hsame : (commit.entityUpserts.map fun entity =>
      { entity with path := logicalPath entity.path }) = commit.entityUpserts := by
    refine (List.map_congr_left fun entity hmem => ?_).trans (List.map_id _)
    rw [logicalPath_eq_self.mpr (hlogical entity hmem)]
    rfl
  have hmarks : (commit.entityUpserts.map pathKey).Nodup := nodup_keys h.valid.entityPaths
  obtain ⟨entities', hput, htable⟩ := UniqueTable.exists_putAll
    (nodup_keys h.valid.entityIds) hmarks
    fun upsert hmem => free_of_accepted h hpaths hrest hmoved hmem
  have hupserts : upsertDiscoveryEntities ((commit.entityDeletes.map fun remoteId =>
      (commit.mountId, remoteId)).foldl UniqueTable.erase staged) commit.entityUpserts =
        .ok entities' := by
    rw [upsertDiscoveryEntities, hsame, hput]
    rfl
  refine ⟨staged, entities', hstaged, hupserts, RankedTable.ext_lookup fun key => ?_⟩
  have hmount : ∀ entity ∈ details.finalEntities.all, entity.mountId = commit.mountId :=
    fun entity hmem => h.mount_of_final (RankedTable.mem_all.mp hmem)
  refine Option.ext fun entity => ?_
  rw [MemoryRows.lookup_finalEntities hmount, hrows, htable,
    RankedTable.lookup_putAll_eq_some (nodup_keys h.valid.entityIds), lookup_foldl_erase]
  obtain ⟨mountId, remoteId⟩ := key
  have hkeys : ∀ upsert ∈ commit.entityUpserts,
      upsert.key = (mountId, remoteId) ↔ mountId = commit.mountId ∧
        upsert.remoteId = remoteId := by
    intro upsert hmem
    rw [EntityRecord.key, Prod.mk.injEq, h.valid.entityMounts upsert hmem]
    exact and_congr_left' eq_comm
  have hdeleted : ((mountId, remoteId) ∈ commit.entityDeletes.map fun remoteId =>
      (commit.mountId, remoteId)) ↔ mountId = commit.mountId ∧
        remoteId ∈ commit.entityDeletes := by
    rw [List.mem_map]
    constructor
    · rintro ⟨id, hmem, hpair⟩
      obtain ⟨rfl, rfl⟩ := Prod.mk.inj hpair
      exact ⟨rfl, hmem⟩
    · rintro ⟨rfl, hmem⟩
      exact ⟨remoteId, hmem, rfl⟩
  by_cases hm : mountId = commit.mountId
  · subst hm
    simp only [true_and, ne_eq, not_true_eq_false, false_and, or_false]
    rw [h.lookup_final]
    constructor
    · rintro (⟨hmem, hkey⟩ | ⟨hnone, hkept, hlookup⟩)
      · exact Or.inl ⟨hmem, ((hkeys entity hmem).mp hkey).2⟩
      · have hids : ∀ upsert ∈ commit.entityUpserts, upsert.remoteId ≠ remoteId :=
          fun upsert hmem hid => hnone upsert hmem ((hkeys upsert hmem).mpr ⟨rfl, hid⟩)
        refine Or.inr ⟨hids, fun hmem => hkept (hdeleted.mpr ⟨rfl, hmem⟩), ?_⟩
        rw [← hrest _ fun move hmem hkey => ?_]
        · exact hlookup
        · obtain ⟨saved, hsaved, _, _, _, rfl⟩ := h.mem_moves.mp hmem
          exact hids saved hsaved (Prod.mk.inj hkey).2
    · rintro (⟨hmem, hid⟩ | ⟨hids, hkept, hlookup⟩)
      · exact Or.inl ⟨hmem, (hkeys entity hmem).mpr ⟨rfl, hid⟩⟩
      · refine Or.inr ⟨fun upsert hmem hkey => hids upsert hmem
          ((hkeys upsert hmem).mp hkey).2, fun hmem => hkept (hdeleted.mp hmem).2, ?_⟩
        rw [hrest _ fun move hmem hkey => ?_]
        · exact hlookup
        · obtain ⟨saved, hsaved, _, _, _, rfl⟩ := h.mem_moves.mp hmem
          exact hids saved hsaved (Prod.mk.inj hkey).2
  · have hfar : ∀ upsert ∈ commit.entityUpserts, upsert.key ≠ (mountId, remoteId) :=
      fun upsert hmem hkey => hm ((hkeys upsert hmem).mp hkey).1
    have hstays : staged.lookup (mountId, remoteId) = entities.lookup (mountId, remoteId) :=
      hrest _ fun move _ hkey => hm (congrArg Prod.fst hkey).symm
    simp only [hm, false_and, ne_eq, not_false_eq_true, true_and, false_or, hdeleted, hstays]
    constructor
    · rintro (⟨hmem, hkey⟩ | ⟨-, hlookup⟩)
      · exact absurd hkey (hfar entity hmem)
      · exact hlookup
    · exact fun hlookup => Or.inr ⟨hfar, hlookup⟩

end DatabaseRows

end Entities

/-! ## Enrollments -/

/-- The enrollment is not of an entity that the commit deletes, nor at the path of one. -/
def DiscoveryCommit.Spares (commit : DiscoveryCommit) (table : RankedTable EntityRecord.key)
    (enrollment : AutoSaveEnrollmentRecord) : Prop :=
  ∀ remoteId ∈ commit.entityDeletes, enrollment.remoteId ≠ some remoteId ∧
    ∀ entity, table.lookup (commit.mountId, remoteId) = some entity →
      enrollment.path ≠ entity.path

/-- The moves of the commit over the entities of its mount. -/
def movesOver (commit : DiscoveryCommit) (table : RankedTable EntityRecord.key) :
    List PathMove :=
  commit.pathMovesOf (RankedTable.empty.putAll (rowsOf (·.mountId) commit.mountId table))

section Enrollments

variable {jsonError : Text → Option Text} {shared : SharedRows}
  {table : RankedTable EntityRecord.key} {commit : DiscoveryCommit}
  {details : DiscoveryPreflight}

theorem survives_iff {deletedRemoteIds : List RemoteId} {deletedPaths : List PathBuf}
    (hids : ∀ remoteId, remoteId ∈ deletedRemoteIds ↔ remoteId ∈ commit.entityDeletes)
    (hpaths : ∀ path, path ∈ deletedPaths ↔ ∃ remoteId ∈ commit.entityDeletes, ∃ entity,
      table.lookup (commit.mountId, remoteId) = some entity ∧ entity.path = path)
    {enrollment : AutoSaveEnrollmentRecord} :
    DiscoveryCommit.survives deletedRemoteIds deletedPaths enrollment = true ↔
      commit.Spares table enrollment := by
  rw [DiscoveryCommit.survives, Bool.and_eq_true, Bool.not_eq_true', Bool.not_eq_true',
    decide_eq_false_iff_not, Option.any_eq_false, hpaths]
  simp only [decide_eq_false_iff_not, hids]
  constructor
  · rintro ⟨hown, hplace⟩ remoteId hmem
    refine ⟨fun howner => hown remoteId howner hmem, fun entity hlookup hsame => ?_⟩
    exact hplace ⟨remoteId, hmem, entity, hlookup, hsame.symm⟩
  · intro hspares
    refine ⟨fun remoteId howner hmem => (hspares remoteId hmem).1 howner, ?_⟩
    rintro ⟨remoteId, hmem, entity, hlookup, hsame⟩
    exact (hspares remoteId hmem).2 entity hlookup hsame.symm

namespace AcceptedOver

variable (h : AcceptedOver jsonError shared table commit details)

include h

theorem moves_eq : details.pathMoves = movesOver commit table := by
  obtain ⟨mount, -, hcommit⟩ := h
  exact hcommit.moves

theorem survives_details {enrollment : AutoSaveEnrollmentRecord} :
    DiscoveryCommit.survives details.entityDeletes (details.deletedPaths.map Prod.snd)
      enrollment = true ↔ commit.Spares table enrollment := by
  refine survives_iff (fun remoteId => ?_) (fun path => ?_)
  · obtain ⟨mount, -, hcommit⟩ := h
    rw [hcommit.deletes, mem_sortedSet]
  · rw [List.mem_map]
    constructor
    · rintro ⟨⟨remoteId, path'⟩, hmem, rfl⟩
      obtain ⟨hdeleted, hentity⟩ := h.mem_deletedPaths.mp hmem
      exact ⟨remoteId, hdeleted, hentity⟩
    · rintro ⟨remoteId, hdeleted, hentity⟩
      exact ⟨(remoteId, path), h.mem_deletedPaths.mpr ⟨hdeleted, hentity⟩, rfl⟩

theorem survives_planned {mount : MountConfig}
    (hcommit : commit.Accepted jsonError mount.connector
      (rowsOf (·.mountId) commit.mountId table)
        (rowsOf (·.mountId) commit.mountId shared.autoSaveEnrollments) details)
    {enrollment : AutoSaveEnrollmentRecord} :
    DiscoveryCommit.survives commit.entityDeletes (commit.plannedDeletedPaths
      (RankedTable.empty.putAll (rowsOf (·.mountId) commit.mountId table))) enrollment = true ↔
        commit.Spares table enrollment := by
  refine Iff.trans ?_ h.survives_details
  rw [DiscoveryCommit.survives, DiscoveryCommit.survives]
  simp only [DiscoveryCommit.mem_plannedDeletedPaths h.valid, hcommit.deletes, mem_sortedSet,
    hcommit.deletedPaths]

/-- The rehomes are of the spared enrollments that a move selects. -/
theorem mem_rehomes {rehome : AutoSaveRehome} :
    rehome ∈ details.autoSaveRehomes ↔ ∃ enrollment,
      shared.autoSaveEnrollments.lookup (commit.mountId, enrollment.path) = some enrollment ∧
        commit.Spares table enrollment ∧
          (∃ move ∈ details.pathMoves,
            isCandidate move.remoteId (some move.oldPath) enrollment = true) ∧
              rehome = ⟨enrollment.path, DiscoveryCommit.landed details.pathMoves enrollment⟩ := by
  obtain ⟨mount, hmount, hcommit⟩ := h
  have h : AcceptedOver jsonError shared table commit details := ⟨mount, hmount, hcommit⟩
  rw [(DiscoveryCommit.planRehomes_ok hcommit.planned).2.2 rehome]
  refine exists_congr fun enrollment => ?_
  rw [mem_rowsOf, h.survives_planned hcommit]
  refine and_congr_left fun _ => ?_
  constructor
  · rintro ⟨hlookup, hown⟩
    rw [← hown]
    exact hlookup
  · intro hlookup
    have hkey : enrollment.key = (commit.mountId, enrollment.path) :=
      RankedTable.key_of_lookup hlookup
    exact ⟨hkey ▸ hlookup, congrArg Prod.fst hkey⟩

end AcceptedOver

/-- The enrollments that the in-memory store keeps where they are. -/
def keptEnrollments (shared : SharedRows) (commit : DiscoveryCommit)
    (details : DiscoveryPreflight) : RankedTable AutoSaveEnrollmentRecord.key :=
  (MemoryRows.retainEnrollments shared.autoSaveEnrollments commit.mountId details.entityDeletes
    (details.deletedPaths.map Prod.snd)).eraseAll
      (details.autoSaveRehomes.map fun rehome => (commit.mountId, rehome.oldPath))

theorem lookup_keptEnrollments
    (h : AcceptedOver jsonError shared table commit details) {key : MountId × PathBuf}
    {enrollment : AutoSaveEnrollmentRecord} :
    (keptEnrollments shared commit details).lookup key = some enrollment ↔
      key ∉ (details.autoSaveRehomes.map fun rehome => (commit.mountId, rehome.oldPath)) ∧
        shared.autoSaveEnrollments.lookup key = some enrollment ∧
          (enrollment.mountId = commit.mountId → commit.Spares table enrollment) := by
  rw [keptEnrollments, RankedTable.lookup_eraseAll, MemoryRows.retainEnrollments,
    RankedTable.lookup_retain, Option.filter_eq_some_iff, Bool.or_eq_true, decide_eq_true_eq,
    h.survives_details, imp_iff_not_or]

/-- What the database deletes of the enrollments for one deleted entity. -/
theorem lookup_deleteEnrollments {enrollments : RankedTable AutoSaveEnrollmentRecord.key}
    {mountId : MountId} {deletedPaths : List (RemoteId × PathBuf)} {remoteId : RemoteId}
    {key : MountId × PathBuf} {enrollment : AutoSaveEnrollmentRecord} :
    (DatabaseRows.deleteEnrollments enrollments mountId deletedPaths remoteId).lookup key =
        some enrollment ↔
      enrollments.lookup key = some enrollment ∧ (enrollment.mountId = mountId →
        enrollment.remoteId ≠ some remoteId ∧
          ∀ deleted, (deletedPaths.find? fun deleted => deleted.1 == remoteId) = some deleted →
            enrollment.path ≠ logicalPath deleted.2) := by
  rw [DatabaseRows.deleteEnrollments]
  split
  · rename_i deleted hfind
    rw [RankedTable.lookup_retain, Option.filter_eq_some_iff]
    simp only [hfind, Option.some.injEq, forall_eq', Bool.not_eq_true', Bool.and_eq_false_imp,
      Bool.or_eq_false_iff, decide_eq_true_eq, decide_eq_false_iff_not, ne_eq]
  · rename_i hfind
    rw [RankedTable.lookup_retain, Option.filter_eq_some_iff]
    simp only [hfind, reduceCtorEq, false_implies, implies_true, and_true, Bool.not_eq_true',
      Bool.and_eq_false_imp, decide_eq_true_eq, decide_eq_false_iff_not, ne_eq]

theorem lookup_foldl_deleteEnrollments {mountId : MountId}
    {deletedPaths : List (RemoteId × PathBuf)} {deletes : List RemoteId}
    {key : MountId × PathBuf} {enrollment : AutoSaveEnrollmentRecord} :
    ∀ {enrollments : RankedTable AutoSaveEnrollmentRecord.key},
      (deletes.foldl (fun enrollments remoteId =>
        DatabaseRows.deleteEnrollments enrollments mountId deletedPaths remoteId)
          enrollments).lookup key = some enrollment ↔
        enrollments.lookup key = some enrollment ∧ (enrollment.mountId = mountId →
          ∀ remoteId ∈ deletes, enrollment.remoteId ≠ some remoteId ∧
            ∀ deleted, (deletedPaths.find? fun deleted => deleted.1 == remoteId) =
              some deleted → enrollment.path ≠ logicalPath deleted.2) := by
  induction deletes with
  | nil =>
      intro enrollments
      exact (and_iff_left fun _ => List.forall_mem_nil _).symm
  | cons remoteId deletes ih =>
      intro enrollments
      rw [List.foldl_cons]
      refine ih.trans ?_
      rw [lookup_deleteEnrollments, and_assoc]
      refine and_congr_right fun _ => ?_
      simp only [List.forall_mem_cons]
      exact ⟨fun hboth hmount => ⟨hboth.1 hmount, hboth.2 hmount⟩,
        fun hboth => ⟨fun hmount => (hboth hmount).1, fun hmount => (hboth hmount).2⟩⟩

/-- The database keeps the enrollments that the in-memory store keeps, where the paths of
the entities are logical. -/
theorem foldl_deleteEnrollments_eq
    (h : AcceptedOver jsonError shared table commit details)
    (hlogical : ∀ entity ∈ table.all, IsLogical entity.path) :
    commit.entityDeletes.foldl (fun enrollments remoteId =>
      DatabaseRows.deleteEnrollments enrollments commit.mountId details.deletedPaths remoteId)
        (shared.autoSaveEnrollments.eraseAll
          (details.autoSaveRehomes.map fun rehome => (commit.mountId, rehome.oldPath))) =
      keptEnrollments shared commit details := by
  refine RankedTable.ext_lookup fun key => Option.ext fun enrollment => ?_
  rw [lookup_foldl_deleteEnrollments, RankedTable.lookup_eraseAll, and_assoc,
    lookup_keptEnrollments h]
  refine and_congr_right fun _ => and_congr_right fun _ => forall_congr' fun _ => ?_
  refine forall_congr' fun remoteId => forall_congr' fun hmem => and_congr_right fun _ => ?_
  have hpath : ∀ entity, table.lookup (commit.mountId, remoteId) = some entity →
      logicalPath entity.path = entity.path := by
    intro entity hlookup
    have hkey : entity.key = (commit.mountId, remoteId) := RankedTable.key_of_lookup hlookup
    exact logicalPath_eq_self.mpr (hlogical entity (RankedTable.mem_all.mpr (hkey ▸ hlookup)))
  constructor
  · intro hall entity hlookup
    cases hfind : details.deletedPaths.find? fun deleted => deleted.1 == remoteId with
    | none =>
        have hin : (remoteId, entity.path) ∈ details.deletedPaths :=
          h.mem_deletedPaths.mpr ⟨hmem, entity, hlookup, rfl⟩
        exact absurd BEq.rfl (List.find?_eq_none.mp hfind _ hin)
    | some deleted =>
        obtain ⟨id, path⟩ := deleted
        have hid := List.find?_some hfind
        cases eq_of_beq hid
        obtain ⟨-, entity', hlookup', rfl⟩ :=
          h.mem_deletedPaths.mp (List.mem_of_find?_eq_some hfind)
        cases hlookup.symm.trans hlookup'
        have hne := hall _ hfind
        rwa [hpath entity hlookup] at hne
  · intro hall deleted hfind
    obtain ⟨id, path⟩ := deleted
    have hid := List.find?_some hfind
    cases eq_of_beq hid
    obtain ⟨-, entity, hlookup, rfl⟩ :=
      h.mem_deletedPaths.mp (List.mem_of_find?_eq_some hfind)
    rw [hpath entity hlookup]
    exact hall entity hlookup

/-- The moved enrollments go to distinct paths that are free in what is kept. -/
theorem rehomes_free (h : AcceptedOver jsonError shared table commit details) :
    (∀ rehome ∈ details.autoSaveRehomes, rehome.enrollment.mountId = commit.mountId ∧
      (keptEnrollments shared commit details).lookup rehome.enrollment.key = none) ∧
      ((details.autoSaveRehomes.map (·.enrollment)).map AutoSaveEnrollmentRecord.key).Nodup := by
  obtain ⟨mount, hmount, hcommit⟩ := h
  have h : AcceptedOver jsonError shared table commit details := ⟨mount, hmount, hcommit⟩
  obtain ⟨placed, hplaced⟩ := hcommit.placed
  obtain ⟨hfree, hnodup⟩ := DiscoveryCommit.placeRehomes_ok hplaced
  have howner : ∀ rehome ∈ details.autoSaveRehomes,
      rehome.enrollment.mountId = commit.mountId := by
    intro rehome hmem
    obtain ⟨enrollment, hlookup, -, -, rfl⟩ := h.mem_rehomes.mp hmem
    exact congrArg Prod.fst (RankedTable.key_of_lookup hlookup)
  refine ⟨fun rehome hmem => ⟨howner rehome hmem, ?_⟩, ?_⟩
  · -- an enrollment that is kept at that path would have been in the way of the plan
    cases hlookup : (keptEnrollments shared commit details).lookup rehome.enrollment.key with
    | none => rfl
    | some enrollment =>
        have hkey : enrollment.key = rehome.enrollment.key := RankedTable.key_of_lookup hlookup
        obtain ⟨hstays, hthere, hspared⟩ := (lookup_keptEnrollments h).mp hlookup
        have hown : enrollment.mountId = commit.mountId :=
          (congrArg Prod.fst hkey).trans (howner rehome hmem)
        have hnone := hfree rehome hmem
        have hsome : (DiscoveryCommit.enrollmentsKept commit.entityDeletes
            (commit.plannedDeletedPaths (RankedTable.empty.putAll
              (rowsOf (·.mountId) commit.mountId table)))
            (rowsOf (·.mountId) commit.mountId shared.autoSaveEnrollments)
            details.autoSaveRehomes).lookup rehome.enrollment.path = some enrollment := by
          have hnodup : (((rowsOf (·.mountId) commit.mountId
              shared.autoSaveEnrollments).filter (DiscoveryCommit.survives commit.entityDeletes
                (commit.plannedDeletedPaths (RankedTable.empty.putAll
                  (rowsOf (·.mountId) commit.mountId table))))).map (·.path)).Nodup :=
            (List.filter_sublist.map _).nodup
              (nodup_rowsOf (fun _ => rfl) shared.autoSaveEnrollments)
          rw [DiscoveryCommit.enrollmentsKept, RankedTable.lookup_eraseAll,
            RankedTable.lookup_putAll_eq_some hnodup, List.mem_filter, mem_rowsOf,
            h.survives_planned hcommit]
          refine ⟨fun hold => hstays ?_,
            Or.inl ⟨⟨⟨hkey ▸ hthere, hown⟩, hspared hown⟩, congrArg Prod.snd hkey⟩⟩
          obtain ⟨other, hother, hpath⟩ := List.mem_map.mp hold
          refine List.mem_map.mpr ⟨other, hother, Prod.ext (howner rehome hmem).symm hpath⟩
        rw [hsome] at hnone
        exact nomatch hnone
  · rw [List.map_map]
    exact nodup_keys hnodup

/-- Both stores have the moved enrollments where they land. -/
theorem insertRehomes_eq {mountId : MountId} {rehomes : List AutoSaveRehome} :
    ∀ {enrollments : RankedTable AutoSaveEnrollmentRecord.key},
      (∀ rehome ∈ rehomes, rehome.enrollment.mountId = mountId ∧
        enrollments.lookup rehome.enrollment.key = none) →
      ((rehomes.map (·.enrollment)).map AutoSaveEnrollmentRecord.key).Nodup →
        MemoryRows.insertRehomes enrollments mountId rehomes =
          .ok (enrollments.putAll (rehomes.map (·.enrollment))) ∧
        (rehomes.map (·.enrollment)).foldl DatabaseRows.upsertDiscoveryAutoSave enrollments =
          enrollments.putAll (rehomes.map (·.enrollment)) := by
  induction rehomes with
  | nil => exact fun _ _ => ⟨rfl, rfl⟩
  | cons rehome rehomes ih =>
      intro enrollments hfree hnodup
      obtain ⟨⟨hown, hnone⟩, hrest⟩ := List.forall_mem_cons.mp hfree
      obtain ⟨hnew, hnodup⟩ := List.nodup_cons.mp hnodup
      have hnext : ∀ other ∈ rehomes, other.enrollment.mountId = mountId ∧
          (enrollments.put rehome.enrollment).lookup other.enrollment.key = none := by
        intro other hmem
        refine ⟨(hrest other hmem).1, ?_⟩
        rw [RankedTable.lookup_put, if_neg]
        · exact (hrest other hmem).2
        · intro hsame
          exact hnew (hsame ▸ List.mem_map_of_mem (List.mem_map_of_mem hmem))
      obtain ⟨hmemory, hdatabase⟩ := ih hnext hnodup
      have hkey : (mountId, rehome.enrollment.path) = rehome.enrollment.key :=
        Prod.ext hown.symm rfl
      constructor
      · rw [MemoryRows.insertRehomes, hkey, hnone]
        exact hmemory
      · rw [List.map_cons, List.foldl_cons, DatabaseRows.upsertDiscoveryAutoSave, hnone]
        exact hdatabase

/-- The enrollments once those that move have landed, before the commit saves its own. -/
def landedEnrollments (shared : SharedRows) (commit : DiscoveryCommit)
    (details : DiscoveryPreflight) : RankedTable AutoSaveEnrollmentRecord.key :=
  (keptEnrollments shared commit details).putAll (details.autoSaveRehomes.map (·.enrollment))

/-- What has landed on a path is a spared enrollment that lands there. -/
theorem lookup_landedEnrollments (h : AcceptedOver jsonError shared table commit details)
    {path : PathBuf} {enrollment : AutoSaveEnrollmentRecord} :
    (landedEnrollments shared commit details).lookup (commit.mountId, path) = some enrollment ↔
      ∃ before, shared.autoSaveEnrollments.lookup (commit.mountId, before.path) = some before ∧
        commit.Spares table before ∧
          DiscoveryCommit.landingPath (movesOver commit table) before = path ∧
            enrollment = DiscoveryCommit.landed (movesOver commit table) before := by
  obtain ⟨hfree, hnodup⟩ := rehomes_free h
  rw [landedEnrollments, RankedTable.lookup_putAll_eq_some hnodup, ← h.moves_eq]
  -- an enrollment that no move selects lands where it is
  have hstill : ∀ before : AutoSaveEnrollmentRecord,
      (¬ ∃ move ∈ details.pathMoves,
        isCandidate move.remoteId (some move.oldPath) before = true) →
      DiscoveryCommit.landingPath details.pathMoves before = before.path := by
    intro before hno
    have hnone : (details.pathMoves.find? fun move =>
        isCandidate move.remoteId (some move.oldPath) before) = none :=
      List.find?_eq_none.mpr fun move hmem hyes => hno ⟨move, hmem, hyes⟩
    rw [DiscoveryCommit.landingPath, hnone]
  have hlanded : ∀ before : AutoSaveEnrollmentRecord,
      DiscoveryCommit.landingPath details.pathMoves before = before.path →
        DiscoveryCommit.landed details.pathMoves before = before := by
    intro before hpath
    rw [DiscoveryCommit.landed, hpath]
  constructor
  · rintro (⟨hmem, hkey⟩ | ⟨hnone, hlookup⟩)
    · obtain ⟨rehome, hrehome, rfl⟩ := List.mem_map.mp hmem
      obtain ⟨before, hbefore, hspared, -, rfl⟩ := h.mem_rehomes.mp hrehome
      exact ⟨before, hbefore, hspared, congrArg Prod.snd hkey, rfl⟩
    · obtain ⟨hstays, hbefore, hspared⟩ := (lookup_keptEnrollments h).mp hlookup
      have hkey : enrollment.key = (commit.mountId, path) := RankedTable.key_of_lookup hbefore
      obtain ⟨hown, rfl⟩ := Prod.mk.inj hkey
      have hpath := hstill enrollment fun hmoved => hstays (List.mem_map.mpr
        ⟨_, h.mem_rehomes.mpr ⟨enrollment, hbefore, hspared hown, hmoved, rfl⟩, rfl⟩)
      exact ⟨enrollment, hbefore, hspared hown, hpath, (hlanded enrollment hpath).symm⟩
  · rintro ⟨before, hbefore, hspared, rfl, rfl⟩
    have hown : before.mountId = commit.mountId :=
      congrArg Prod.fst (RankedTable.key_of_lookup hbefore)
    by_cases hmoved : ∃ move ∈ details.pathMoves,
        isCandidate move.remoteId (some move.oldPath) before = true
    · refine Or.inl ⟨List.mem_map.mpr ⟨_, h.mem_rehomes.mpr
        ⟨before, hbefore, hspared, hmoved, rfl⟩, rfl⟩, ?_⟩
      exact Prod.ext hown rfl
    · have hpath := hstill before hmoved
      have hkept : (keptEnrollments shared commit details).lookup
          (commit.mountId, before.path) = some before := by
        refine (lookup_keptEnrollments h).mpr ⟨fun hold => hmoved ?_, hbefore, fun _ => hspared⟩
        obtain ⟨rehome, hrehome, hkey⟩ := List.mem_map.mp hold
        obtain ⟨other, hother, -, hselected, rfl⟩ := h.mem_rehomes.mp hrehome
        have hsame : other.path = before.path := congrArg Prod.snd hkey
        rw [hsame] at hother
        cases hother.symm.trans hbefore
        exact hselected
      rw [hlanded before hpath, hpath]
      refine Or.inr ⟨fun other hmem hsame => ?_, hkept⟩
      obtain ⟨rehome, hrehome, rfl⟩ := List.mem_map.mp hmem
      have hnone := (hfree rehome hrehome).2
      rw [hsame, hkept] at hnone
      cases hnone

/-- What the database's upserts leave: each of them, made when the enrollment on its path
was. -/
theorem lookup_foldl_upsertDiscoveryAutoSave {upserts : List AutoSaveEnrollmentRecord} :
    ∀ (enrollments : RankedTable AutoSaveEnrollmentRecord.key),
      (upserts.map AutoSaveEnrollmentRecord.key).Nodup → ∀ key,
        (upserts.foldl DatabaseRows.upsertDiscoveryAutoSave enrollments).lookup key =
          match upserts.find? fun upsert => upsert.key = key with
          | none => enrollments.lookup key
          | some upsert => some { upsert with
              createdAt := ((enrollments.lookup key).map (·.createdAt)).getD upsert.createdAt } := by
  induction upserts with
  | nil => exact fun _ _ _ => rfl
  | cons upsert upserts ih =>
      intro enrollments hnodup key
      obtain ⟨hnew, hnodup⟩ := List.nodup_cons.mp hnodup
      -- one upsert changes the row of its key alone
      have hstep : ∀ k, (DatabaseRows.upsertDiscoveryAutoSave enrollments upsert).lookup k =
          if upsert.key = k then some { upsert with
            createdAt := ((enrollments.lookup k).map (·.createdAt)).getD upsert.createdAt }
          else enrollments.lookup k := by
        intro k
        rw [DatabaseRows.upsertDiscoveryAutoSave]
        split
        · rename_i hnone
          rw [RankedTable.lookup_put]
          split
          · rename_i hkey
            rw [← hkey, hnone]
            rfl
          · rfl
        · rename_i existing hsome
          rw [RankedTable.lookup_put]
          have hsame : AutoSaveEnrollmentRecord.key
              { upsert with createdAt := existing.createdAt } = upsert.key := rfl
          rw [hsame]
          split
          · rename_i hkey
            rw [← hkey, hsome]
            rfl
          · rfl
      rw [List.foldl_cons, ih _ hnodup key, hstep, List.find?_cons]
      by_cases hkey : upsert.key = key
      · have hnone : (upserts.find? fun other => decide (other.key = key)) = none := by
          refine List.find?_eq_none.mpr fun other hmem hother => ?_
          rw [decide_eq_true_eq] at hother
          exact hnew ((hkey.trans hother.symm) ▸ List.mem_map_of_mem hmem)
        rw [hnone, decide_eq_true hkey, if_pos hkey]
      · rw [decide_eq_false hkey, if_neg hkey]

/-- The two stores save the same enrollments exactly if those that are replaced were made
when their replacements were. -/
theorem foldl_upsertDiscoveryAutoSave_eq_putAll {upserts : List AutoSaveEnrollmentRecord}
    {enrollments : RankedTable AutoSaveEnrollmentRecord.key}
    (hnodup : (upserts.map AutoSaveEnrollmentRecord.key).Nodup) :
    upserts.foldl DatabaseRows.upsertDiscoveryAutoSave enrollments =
        enrollments.putAll upserts ↔
      ∀ upsert ∈ upserts, ∀ existing, enrollments.lookup upsert.key = some existing →
        existing.createdAt = upsert.createdAt := by
  have hfind : ∀ upsert ∈ upserts,
      (upserts.find? fun other => decide (other.key = upsert.key)) = some upsert := by
    intro upsert hmem
    cases hfind : upserts.find? fun other => decide (other.key = upsert.key) with
    | none =>
        exact absurd (decide_eq_true rfl) (List.find?_eq_none.mp hfind upsert hmem)
    | some other =>
        have hkey := List.find?_some hfind
        rw [decide_eq_true_eq] at hkey
        rw [List.inj_on_of_nodup_map hnodup (List.mem_of_find?_eq_some hfind) hmem hkey]
  constructor
  · intro hsame upsert hmem existing hlookup
    have hrow := lookup_foldl_upsertDiscoveryAutoSave enrollments hnodup upsert.key
    rw [hsame, RankedTable.lookup_putAll_of_mem hnodup hmem, hfind upsert hmem, hlookup] at hrow
    exact (congrArg AutoSaveEnrollmentRecord.createdAt (Option.some.inj hrow)).symm
  · intro hall
    refine RankedTable.ext_lookup fun key => ?_
    rw [lookup_foldl_upsertDiscoveryAutoSave _ hnodup, RankedTable.lookup_putAll hnodup]
    cases hrow : upserts.find? fun upsert => decide (upsert.key = key) with
    | none => rfl
    | some upsert =>
        have hmem := List.mem_of_find?_eq_some hrow
        have hkey := List.find?_some hrow
        rw [decide_eq_true_eq] at hkey
        dsimp only
        rw [Option.some_or, ← hkey]
        cases hlookup : enrollments.lookup upsert.key with
        | none => rfl
        | some existing =>
            have hcreated : ((some existing).map (·.createdAt)).getD upsert.createdAt =
                upsert.createdAt := hall upsert hmem existing hlookup
            rw [hcreated]

/-- The observations are saved alike exactly if their paths are logical. -/
theorem foldl_upsertDiscoveryObservation_eq_putAll {upserts : List RemoteObservationRecord}
    {observations : RankedTable RemoteObservationRecord.key}
    (hnodup : (upserts.map RemoteObservationRecord.key).Nodup) :
    upserts.foldl DatabaseRows.upsertDiscoveryObservation observations =
        observations.putAll upserts ↔
      ∀ upsert ∈ upserts, IsLogical upsert.projectedPath := by
  have hputAll : upserts.foldl DatabaseRows.upsertDiscoveryObservation observations =
      observations.putAll (upserts.map fun upsert =>
        { upsert with projectedPath := logicalPath upsert.projectedPath }) := by
    rw [RankedTable.putAll, List.foldl_map]
    rfl
  rw [hputAll]
  constructor
  · intro hsame upsert hmem
    have hkeys : ((upserts.map fun upsert => { upsert with
        projectedPath := logicalPath upsert.projectedPath }).map
          RemoteObservationRecord.key).Nodup := by
      rw [List.map_map]
      exact hnodup
    have hrow : (observations.putAll upserts).lookup upsert.key =
        some { upsert with projectedPath := logicalPath upsert.projectedPath } := by
      rw [← hsame]
      exact RankedTable.lookup_putAll_of_mem hkeys (List.mem_map_of_mem hmem)
    rw [RankedTable.lookup_putAll_of_mem hnodup hmem] at hrow
    exact logicalPath_eq_self.mp
      (congrArg RemoteObservationRecord.projectedPath (Option.some.inj hrow)).symm
  · intro hall
    congr 1
    refine (List.map_congr_left fun upsert hmem => ?_).trans (List.map_id _)
    rw [logicalPath_eq_self.mpr (hall upsert hmem)]
    rfl

end Enrollments

end Locality.Discovery
