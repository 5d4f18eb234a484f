/-
  Discovery/CommitAgreement.lean --- the two stores apply one commit: when what they leave is
  the same.

  They accept and refuse the same commits.  An accepted one leaves the entities that the
  preflight computed, and each enrollment where its entity is, in both; but the database
  writes the paths of entities and observations in their logical form, and keeps the time at
  which an enrollment was made when another one takes its path.
-/
import Locality.Discovery.CommitEffects

set_option autoImplicit false

namespace Locality.Discovery

open Locality.Core Locality.Foundation
open Locality.Daemon (EntityKey EntityRecord StoreError)

/-! ## Stores that hold the same rows -/

/-- The index has the entities by their paths. -/
def IndexesPaths (index : Std.ExtTreeMap (MountId × PathBuf) RemoteId rankOrder)
    (entities : RankedTable EntityRecord.key) : Prop :=
  ∀ mountId path remoteId, index[(mountId, path)]? = some remoteId ↔
    ∃ entity, entities.lookup (mountId, remoteId) = some entity ∧ entity.path = path

/-- The database holds the rows of the in-memory store, and writes entities at logical
paths only. -/
structure Represents (database : DatabaseRows) (memory : MemoryRows) : Prop where
  shared : database.shared = memory.shared
  entities : database.entities.toRankedTable = memory.entities
  index : IndexesPaths memory.entitiesByPath memory.entities
  logical : ∀ entity ∈ memory.entities.all, IsLogical entity.path

/-- What is left of rows once a change of them ended: a failed one is dropped. -/
def settle {σ : Type} (before : σ) : StoreResult σ → σ
  | .ok after => after
  | .error _ => before

/-- The two stores hold the same rows after the commit, which are the final entities of the
preflight, each surviving enrollment where it lands unless the commit saves another one
there, the jobs at the new paths, and what the commit saves. -/
structure CommittedAlike (memory memory' : MemoryRows) (database' : DatabaseRows)
    (commit : DiscoveryCommit) (details : DiscoveryPreflight) : Prop where
  represents : Represents database' memory'
  final : ∀ remoteId, memory'.entities.lookup (commit.mountId, remoteId) =
    details.finalEntities.lookup remoteId
  others : ∀ key : EntityKey, key.1 ≠ commit.mountId →
    memory'.entities.lookup key = memory.entities.lookup key
  saved : ∀ upsert ∈ commit.autoSaveUpserts,
    memory'.shared.autoSaveEnrollments.lookup upsert.key = some upsert
  landed : ∀ before, memory.shared.autoSaveEnrollments.lookup (commit.mountId, before.path) =
      some before → commit.Spares memory.entities before →
    (∀ upsert ∈ commit.autoSaveUpserts,
      upsert.path ≠ DiscoveryCommit.landingPath details.pathMoves before) →
    memory'.shared.autoSaveEnrollments.lookup
      (commit.mountId, DiscoveryCommit.landingPath details.pathMoves before) =
        some (DiscoveryCommit.landed details.pathMoves before)
  only : ∀ path enrollment, memory'.shared.autoSaveEnrollments.lookup (commit.mountId, path) =
      some enrollment →
    enrollment ∈ commit.autoSaveUpserts ∨
      ∃ before, memory.shared.autoSaveEnrollments.lookup (commit.mountId, before.path) =
        some before ∧ commit.Spares memory.entities before ∧
          enrollment = DiscoveryCommit.landed details.pathMoves before
  jobs : ∀ move ∈ details.pathMoves,
    memory'.shared.hydrationJobs.lookup (commit.mountId, move.remoteId) =
      (memory.shared.hydrationJobs.lookup (commit.mountId, move.remoteId)).map fun job =>
        { job with path := move.newPath }
  observations : ∀ upsert ∈ commit.observationUpserts,
    memory'.shared.remoteObservations.lookup upsert.key = some upsert
  checkpoint : memory'.shared.connectorStates.lookup commit.checkpoint.key =
    some commit.checkpoint

/-- The two stores commit alike: both do what the preflight computed, or both refuse and
stay as they were. -/
def CommitsIdentically (jsonError : Text → Option Text) (memory : MemoryRows)
    (database : DatabaseRows) (commit : DiscoveryCommit) : Prop :=
  match preflightOver jsonError memory.shared memory.entities commit with
  | .ok details => ∃ memory' database', memory.applyDiscovery jsonError commit = .ok memory' ∧
      database.applyDiscoveryCommit jsonError commit = .ok database' ∧
        CommittedAlike memory memory' database' commit details
  | .error _ => settle memory (memory.applyDiscovery jsonError commit) = memory ∧
      settle database (database.applyDiscoveryCommit jsonError commit) = database ∧
        (∃ error, memory.applyDiscovery jsonError commit = .error error) ∧
          ∃ error, database.applyDiscoveryCommit jsonError commit = .error error

/-- What the database writes of the commit is what the commit says: no path that it saves
has a backslash, and an enrollment that takes the place of another was made when that one
was. -/
structure WrittenAsIs (memory : MemoryRows) (commit : DiscoveryCommit) : Prop where
  entityPaths : ∀ upsert ∈ commit.entityUpserts, IsLogical upsert.path
  observationPaths : ∀ upsert ∈ commit.observationUpserts, IsLogical upsert.projectedPath
  createdAt : ∀ upsert ∈ commit.autoSaveUpserts, ∀ before,
    memory.shared.autoSaveEnrollments.lookup (commit.mountId, before.path) = some before →
      commit.Spares memory.entities before →
        DiscoveryCommit.landingPath (movesOver commit memory.entities) before = upsert.path →
          before.createdAt = upsert.createdAt

/-! ## The commit in each store -/

section Commit

variable {jsonError : Text → Option Text} {memory : MemoryRows} {database : DatabaseRows}
  {commit : DiscoveryCommit} {details : DiscoveryPreflight}

/-- The shared tables, after the commit, with the enrollments and observations given. -/
def sharedAfter (shared : SharedRows) (commit : DiscoveryCommit) (details : DiscoveryPreflight)
    (enrollments : RankedTable AutoSaveEnrollmentRecord.key)
    (observations : RankedTable RemoteObservationRecord.key) : SharedRows :=
  let deletedKeys := commit.entityDeletes.map fun remoteId => (commit.mountId, remoteId)
  { shared with
    connectorStates := shared.connectorStates.put commit.checkpoint
    shadows := shared.shadows.eraseAll deletedKeys
    hydrationJobs := details.pathMoves.foldl (fun jobs move =>
        jobs.update (commit.mountId, move.remoteId) fun job => { job with path := move.newPath })
      (shared.hydrationJobs.eraseAll deletedKeys)
    virtualMutations := shared.virtualMutations.eraseAll
      (commit.virtualMutationDeletes.map fun localId => (commit.mountId, localId))
    autoSaveEnrollments := enrollments
    remoteObservations := observations
    freshnessStates :=
      (shared.freshnessStates.eraseAll deletedKeys).putAll commit.freshnessUpserts
    metadataDiscoveryJobs := shared.metadataDiscoveryJobs.eraseAll
      (commit.metadataDiscoveryDeletes.map fun identifier => (commit.mountId, identifier)) }

/-- The observations without those of deleted entities. -/
def keptObservations (shared : SharedRows) (commit : DiscoveryCommit) :
    RankedTable RemoteObservationRecord.key :=
  shared.remoteObservations.eraseAll
    (commit.entityDeletes.map fun remoteId => (commit.mountId, remoteId))

/-- What the in-memory store holds after a commit that it accepts. -/
def memoryAfter (memory : MemoryRows) (commit : DiscoveryCommit) (details : DiscoveryPreflight) :
    MemoryRows where
  shared := sharedAfter memory.shared commit details
    ((landedEnrollments memory.shared commit details).putAll commit.autoSaveUpserts)
    ((keptObservations memory.shared commit).putAll commit.observationUpserts)
  entities := memory.finalEntities commit.mountId details.finalEntities
  entitiesByPath :=
    MemoryRows.indexByPath (memory.finalEntities commit.mountId details.finalEntities)

/-- The in-memory store applies every commit that passes the preflight. -/
theorem MemoryRows.applyDiscovery_of_preflight
    (h : preflightOver jsonError memory.shared memory.entities commit = .ok details) :
    memory.applyDiscovery jsonError commit = .ok (memoryAfter memory commit details) := by
  obtain ⟨hfree, hnodup⟩ := rehomes_free (accepted_of_preflightOver h)
  exact bind_eq_ok.mpr ⟨details, h, bind_eq_ok.mpr
    ⟨landedEnrollments memory.shared commit details, (insertRehomes_eq hfree hnodup).1, rfl⟩⟩

/-- The database refuses what does not pass the preflight, and else ends where its
statements on the entities do. -/
theorem DatabaseRows.applyDiscoveryCommit_eq_ok {database' : DatabaseRows} :
    database.applyDiscoveryCommit jsonError commit = .ok database' ↔
      ∃ details staged entities',
        preflightOver jsonError database.shared database.entities.toRankedTable commit =
          .ok details ∧
        stageMoves commit.mountId (commit.entityUpserts.map fun entity => logicalPath entity.path)
          0 details.pathMoves database.entities = .ok staged ∧
        upsertDiscoveryEntities ((commit.entityDeletes.map fun remoteId =>
          (commit.mountId, remoteId)).foldl UniqueTable.erase staged) commit.entityUpserts =
            .ok entities' ∧
        database' = {
          shared := sharedAfter database.shared commit details
            (commit.autoSaveUpserts.foldl upsertDiscoveryAutoSave
              ((details.autoSaveRehomes.map (·.enrollment)).foldl upsertDiscoveryAutoSave
                (commit.entityDeletes.foldl (fun enrollments remoteId =>
                  deleteEnrollments enrollments commit.mountId details.deletedPaths remoteId)
                    (database.shared.autoSaveEnrollments.eraseAll (details.autoSaveRehomes.map
                      fun rehome => (commit.mountId, rehome.oldPath))))))
            (commit.observationUpserts.foldl upsertDiscoveryObservation
              (keptObservations database.shared commit))
          entities := entities' } := by
  constructor
  · intro h
    obtain ⟨_, -, h⟩ := bind_eq_ok.mp h
    split at h
    · exact nomatch h
    · obtain ⟨_, -, h⟩ := bind_eq_ok.mp h
      obtain ⟨details, hdetails, h⟩ := bind_eq_ok.mp h
      obtain ⟨staged, hstaged, h⟩ := bind_eq_ok.mp h
      obtain ⟨entities', hentities, h⟩ := bind_eq_ok.mp h
      cases h
      exact ⟨details, staged, entities', hdetails, hstaged, hentities, rfl⟩
  · rintro ⟨details, staged, entities', hdetails, hstaged, hentities, rfl⟩
    obtain ⟨mount, hmount, hcommit⟩ := accepted_of_preflightOver hdetails
    refine bind_eq_ok.mpr ⟨(), hcommit.validated, ?_⟩
    rw [hmount]
    exact bind_eq_ok.mpr ⟨(), hcommit.connected, bind_eq_ok.mpr ⟨details, hdetails,
      bind_eq_ok.mpr ⟨staged, hstaged, bind_eq_ok.mpr ⟨entities', hentities, rfl⟩⟩⟩⟩

/-- The index that is rebuilt from entities at distinct paths has them by their paths. -/
theorem indexesPaths_indexByPath (entities : UniqueTable EntityRecord.key pathKey) :
    IndexesPaths (MemoryRows.indexByPath entities.toRankedTable) entities.toRankedTable := by
  have hdistinct : (entities.all.map pathKey).Nodup := by
    refine List.Nodup.map_on (fun entity hmem entity' hmem' hpath => ?_)
      (List.Nodup.of_map EntityRecord.key entities.nodup_all)
    have hkey := entities.unique entity hmem entity' hmem' hpath
    exact List.inj_on_of_nodup_map entities.nodup_all hmem hmem' hkey
  intro mountId path remoteId
  rw [MemoryRows.indexByPath, getElem?_tableOf hdistinct]
  constructor
  · rintro ⟨entity, hmem, hpath, rfl⟩
    obtain ⟨rfl, rfl⟩ := Prod.mk.inj hpath
    exact ⟨entity, RankedTable.mem_all.mp hmem, rfl⟩
  · rintro ⟨entity, hlookup, rfl⟩
    have hkey : entity.key = (mountId, remoteId) := RankedTable.key_of_lookup hlookup
    have hmount : entity.mountId = mountId := congrArg Prod.fst hkey
    exact ⟨entity, RankedTable.mem_all.mpr (hkey ▸ hlookup), Prod.ext hmount rfl,
      congrArg Prod.snd hkey⟩

/-- The job of an entity that moves goes with it. -/
theorem lookup_movedJobs {mountId : MountId} {moves : List PathMove} :
    ∀ {jobs : RankedTable HydrationJobRecord.key}, (moves.map (·.remoteId)).Nodup →
      ∀ move ∈ moves, (moves.foldl (fun jobs move => jobs.update (mountId, move.remoteId)
        fun job => { job with path := move.newPath }) jobs).lookup (mountId, move.remoteId) =
          (jobs.lookup (mountId, move.remoteId)).map fun job =>
            { job with path := move.newPath } := by
  have hupdate : ∀ (jobs : RankedTable HydrationJobRecord.key) (move : PathMove) (k : EntityKey),
      (jobs.update (mountId, move.remoteId) fun job => { job with path := move.newPath }).lookup k =
        if (mountId, move.remoteId) = k then
          (jobs.lookup k).map fun job => { job with path := move.newPath }
        else jobs.lookup k := by
    intro jobs move k
    refine RankedTable.lookup_update ?_ jobs _ k
    exact fun _ => rfl
  -- the job of an entity that does not move stays
  have hstays : ∀ {moves : List PathMove} {jobs : RankedTable HydrationJobRecord.key}
      {remoteId : RemoteId}, remoteId ∉ moves.map (·.remoteId) →
        (moves.foldl (fun jobs move => jobs.update (mountId, move.remoteId)
          fun job => { job with path := move.newPath }) jobs).lookup (mountId, remoteId) =
            jobs.lookup (mountId, remoteId) := by
    intro moves
    induction moves with
    | nil => exact fun _ => rfl
    | cons move moves ih =>
        intro jobs remoteId hmem
        rw [List.map_cons, List.mem_cons, not_or] at hmem
        rw [List.foldl_cons, ih hmem.2, hupdate, if_neg]
        exact fun hsame => hmem.1 (Prod.mk.inj hsame).2.symm
  induction moves with
  | nil => exact fun _ => List.forall_mem_nil _
  | cons first moves ih =>
      intro jobs hnodup
      obtain ⟨hnew, hnodup⟩ := List.nodup_cons.mp hnodup
      rw [List.foldl_cons, List.forall_mem_cons]
      constructor
      · rw [hstays hnew, hupdate, if_pos rfl]
      · intro move hmem
        rw [ih hnodup move hmem, hupdate, if_neg]
        intro hsame
        exact hnew (List.mem_map.mpr ⟨move, hmem, (Prod.mk.inj hsame).2.symm⟩)

/-- The moves are of distinct entities, and of none that is deleted. -/
theorem AcceptedOver.moves_distinct {shared : SharedRows}
    {table : RankedTable EntityRecord.key}
    (h : AcceptedOver jsonError shared table commit details) :
    (details.pathMoves.map (·.remoteId)).Nodup ∧
      ∀ move ∈ details.pathMoves, move.remoteId ∉ commit.entityDeletes := by
  constructor
  · have hsublist : ∀ (existing : EntityMap) (upserts : List EntityRecord),
        ((upserts.filterMap fun entity => (existing.lookup entity.remoteId).bind fun current =>
          if current.path ≠ entity.path then
            some (⟨entity.remoteId, current.path, entity.path⟩ : PathMove)
          else none).map (·.remoteId)).Sublist (upserts.map (·.remoteId)) := by
      intro existing upserts
      induction upserts with
      | nil => exact List.Sublist.refl _
      | cons entity upserts ih =>
          rw [List.filterMap_cons]
          split
          · exact ih.cons _
          · rename_i move hmove
            obtain ⟨current, -, hmove⟩ := Option.bind_eq_some_iff.mp hmove
            split at hmove
            · cases hmove
              exact ih.cons_cons _
            · exact nomatch hmove
    rw [h.moves_eq]
    exact (hsublist _ _).nodup h.valid.entityIds
  · intro move hmem hdeleted
    obtain ⟨entity, hupsert, _, _, _, rfl⟩ := h.mem_moves.mp hmem
    exact h.valid.disjoint _ hdeleted (List.mem_map_of_mem hupsert)

/-- What the in-memory store holds after a commit is what the preflight promised. -/
theorem committedAlike_memoryAfter {database' : DatabaseRows}
    (h : AcceptedOver jsonError memory.shared memory.entities commit details)
    (hrepresents : Represents database' (memoryAfter memory commit details)) :
    CommittedAlike memory (memoryAfter memory commit details) database' commit details := by
  have hmount : ∀ entity ∈ details.finalEntities.all, entity.mountId = commit.mountId :=
    fun entity hmem => h.mount_of_final (RankedTable.mem_all.mp hmem)
  have hkeys : (commit.autoSaveUpserts.map AutoSaveEnrollmentRecord.key).Nodup :=
    nodup_keys h.valid.autoSavePaths
  exact {
    represents := hrepresents
    final := by
      intro remoteId
      refine Option.ext fun entity => ?_
      refine (MemoryRows.lookup_finalEntities hmount).trans ?_
      simp only [true_and, ne_eq, not_true_eq_false, false_and, or_false]
    others := by
      intro key hkey
      refine Option.ext fun entity => ?_
      refine (MemoryRows.lookup_finalEntities hmount).trans ?_
      simp only [hkey, false_and, ne_eq, not_false_eq_true, true_and, false_or]
    saved := fun upsert hmem => RankedTable.lookup_putAll_of_mem hkeys hmem
    landed := by
      intro before hlookup hspared hfree
      rw [h.moves_eq] at hfree ⊢
      refine (RankedTable.lookup_putAll_of_forall_ne ?_).trans
        ((lookup_landedEnrollments h).mpr ⟨before, hlookup, hspared, rfl, rfl⟩)
      exact fun upsert hmem hsame => hfree upsert hmem (congrArg Prod.snd hsame)
    only := by
      intro path enrollment hlookup
      rcases (RankedTable.lookup_putAll_eq_some hkeys).mp hlookup with ⟨hmem, -⟩ | ⟨-, hlanded⟩
      · exact Or.inl hmem
      · obtain ⟨before, hbefore, hspared, -, rfl⟩ := (lookup_landedEnrollments h).mp hlanded
        exact Or.inr ⟨before, hbefore, hspared, by rw [h.moves_eq]⟩
    jobs := by
      intro move hmem
      obtain ⟨hnodup, hkept⟩ := h.moves_distinct
      refine (lookup_movedJobs hnodup move hmem).trans ?_
      congr 1
      refine Option.ext fun job => ?_
      rw [RankedTable.lookup_eraseAll, and_iff_right]
      rw [List.mem_map]
      rintro ⟨remoteId, hdeleted, hsame⟩
      exact hkept move hmem ((Prod.mk.inj hsame).2 ▸ hdeleted)
    observations := fun upsert hmem =>
      RankedTable.lookup_putAll_of_mem (nodup_keys h.valid.observationIds) hmem
    checkpoint := by
      refine (RankedTable.lookup_put _ _ _).trans ?_
      rw [if_pos rfl] }

/-- An accepted commit that is written as it is leaves the same rows in both stores. -/
theorem commits_of_writtenAsIs (hrepresents : Represents database memory)
    (hpreflight : preflightOver jsonError memory.shared memory.entities commit = .ok details)
    (hwritten : WrittenAsIs memory commit) :
    ∃ database', database.applyDiscoveryCommit jsonError commit = .ok database' ∧
      Represents database' (memoryAfter memory commit details) := by
  have h := accepted_of_preflightOver hpreflight
  have hdatabase : preflightOver jsonError database.shared database.entities.toRankedTable
      commit = .ok details := by
    rw [hrepresents.shared, hrepresents.entities]
    exact hpreflight
  obtain ⟨staged, entities', hstaged, hentities, hsame⟩ := DatabaseRows.exists_entities
    (accepted_of_preflightOver hdatabase) hwritten.entityPaths hrepresents.entities.symm
  refine ⟨_, DatabaseRows.applyDiscoveryCommit_eq_ok.mpr
    ⟨details, staged, entities', hdatabase, hstaged, hentities, rfl⟩, ?_⟩
  obtain ⟨hfree, hnodup⟩ := rehomes_free h
  have henrollments : commit.autoSaveUpserts.foldl DatabaseRows.upsertDiscoveryAutoSave
      (landedEnrollments memory.shared commit details) =
        (landedEnrollments memory.shared commit details).putAll commit.autoSaveUpserts := by
    refine (foldl_upsertDiscoveryAutoSave_eq_putAll (nodup_keys h.valid.autoSavePaths)).mpr ?_
    intro upsert hmem existing hlookup
    rw [AutoSaveEnrollmentRecord.key, h.valid.autoSaveMounts upsert hmem] at hlookup
    obtain ⟨before, hbefore, hspared, hpath, rfl⟩ := (lookup_landedEnrollments h).mp hlookup
    exact hwritten.createdAt upsert hmem before hbefore hspared hpath
  exact {
    shared := by
      rw [hrepresents.shared, foldl_deleteEnrollments_eq h hrepresents.logical,
        (insertRehomes_eq hfree hnodup).2,
        (foldl_upsertDiscoveryObservation_eq_putAll (nodup_keys h.valid.observationIds)).mpr
          hwritten.observationPaths]
      exact congrArg (sharedAfter memory.shared commit details · _) henrollments
    entities := hsame
    index := by
      have hindex := indexesPaths_indexByPath entities'
      rw [hsame] at hindex
      exact hindex
    logical := by
      intro entity hmem
      have hmount : ∀ entity ∈ details.finalEntities.all, entity.mountId = commit.mountId :=
        fun entity hmem => h.mount_of_final (RankedTable.mem_all.mp hmem)
      have hold : ∀ {key : EntityKey}, memory.entities.lookup key = some entity →
          IsLogical entity.path := by
        intro key hlookup
        have hkey : entity.key = key := RankedTable.key_of_lookup hlookup
        exact hrepresents.logical entity (RankedTable.mem_all.mpr (hkey ▸ hlookup))
      rcases (MemoryRows.lookup_finalEntities hmount).mp (RankedTable.mem_all.mp hmem) with
        ⟨-, hfinal⟩ | ⟨-, hlookup⟩
      · rcases h.lookup_final.mp hfinal with ⟨hupsert, -⟩ | ⟨-, -, hlookup⟩
        · exact hwritten.entityPaths entity hupsert
        · exact hold hlookup
      · exact hold hlookup }

/-- What both stores hold alike was written as it is. -/
theorem writtenAsIs_of_commits {database' : DatabaseRows}
    (hrepresents : Represents database memory)
    (hpreflight : preflightOver jsonError memory.shared memory.entities commit = .ok details)
    (hdatabase : database.applyDiscoveryCommit jsonError commit = .ok database')
    (halike : Represents database' (memoryAfter memory commit details)) :
    WrittenAsIs memory commit := by
  have h := accepted_of_preflightOver hpreflight
  obtain ⟨details', staged, entities', hdetails, hstaged, hentities, rfl⟩ :=
    DatabaseRows.applyDiscoveryCommit_eq_ok.mp hdatabase
  rw [hrepresents.shared, hrepresents.entities, hpreflight] at hdetails
  cases hdetails
  obtain ⟨hfree, hnodup⟩ := rehomes_free h
  have hshared := halike.shared
  rw [hrepresents.shared, foldl_deleteEnrollments_eq h hrepresents.logical,
    (insertRehomes_eq hfree hnodup).2] at hshared
  have henrollments := congrArg SharedRows.autoSaveEnrollments hshared
  have hobservations := congrArg SharedRows.remoteObservations hshared
  exact {
    entityPaths := by
      intro upsert hmem
      have hdatabaseRow := (DatabaseRows.lookup_of_upsertDiscoveryEntities h.valid hentities).mpr
        (Or.inl ⟨upsert, hmem, rfl, rfl⟩)
      have hmount : ∀ entity ∈ details.finalEntities.all, entity.mountId = commit.mountId :=
        fun entity hmem => h.mount_of_final (RankedTable.mem_all.mp hmem)
      have hmemoryRow : (memory.finalEntities commit.mountId
          details.finalEntities).lookup upsert.key = some upsert :=
        (MemoryRows.lookup_finalEntities hmount).mpr (Or.inl
          ⟨h.valid.entityMounts upsert hmem, h.lookup_final.mpr (Or.inl ⟨hmem, rfl⟩)⟩)
      have hsame : entities'.toRankedTable =
          memory.finalEntities commit.mountId details.finalEntities := halike.entities
      rw [hsame, hmemoryRow] at hdatabaseRow
      exact logicalPath_eq_self.mp
        (congrArg EntityRecord.path (Option.some.inj hdatabaseRow)).symm
    observationPaths := (foldl_upsertDiscoveryObservation_eq_putAll
      (nodup_keys h.valid.observationIds)).mp hobservations
    createdAt := by
      intro upsert hmem before hbefore hspared hpath
      have hcreated := (foldl_upsertDiscoveryAutoSave_eq_putAll
        (nodup_keys h.valid.autoSavePaths)).mp henrollments upsert hmem
          (DiscoveryCommit.landed (movesOver commit memory.entities) before)
      refine hcreated ?_
      rw [AutoSaveEnrollmentRecord.key, h.valid.autoSaveMounts upsert hmem]
      exact (lookup_landedEnrollments h).mpr ⟨before, hbefore, hspared, hpath, rfl⟩ }

end Commit

/-! ## Commits of the two stores -/

/-- Stores that hold the same rows commit alike exactly if an accepted commit is written as
it is. -/
theorem commits_identically_iff (jsonError : Text → Option Text) {memory : MemoryRows}
    {database : DatabaseRows} (hrepresents : Represents database memory)
    (commit : DiscoveryCommit) :
    CommitsIdentically jsonError memory database commit ↔
      ((∃ details, preflightOver jsonError memory.shared memory.entities commit = .ok details) →
        WrittenAsIs memory commit) := by
  rw [CommitsIdentically]
  cases hpreflight : preflightOver jsonError memory.shared memory.entities commit with
  | error error =>
      refine iff_of_true ?_ ?_
      · have hmemory : memory.applyDiscovery jsonError commit = .error error := by
          rw [MemoryRows.applyDiscovery, hpreflight]
          rfl
        cases hdatabase : database.applyDiscoveryCommit jsonError commit with
        | error error' => exact ⟨by rw [hmemory]; rfl, rfl, ⟨error, hmemory⟩, error', rfl⟩
        | ok database' =>
            obtain ⟨details, _, _, hdetails, -⟩ :=
              DatabaseRows.applyDiscoveryCommit_eq_ok.mp hdatabase
            rw [hrepresents.shared, hrepresents.entities, hpreflight] at hdetails
            exact nomatch hdetails
      · rintro ⟨details, hdetails⟩
        exact nomatch hdetails
  | ok details =>
      have hmemory := MemoryRows.applyDiscovery_of_preflight hpreflight
      constructor
      · rintro ⟨memory', database', happlied, hdatabase, halike⟩ -
        cases hmemory.symm.trans happlied
        exact writtenAsIs_of_commits hrepresents hpreflight hdatabase halike.represents
      · intro hwritten
        obtain ⟨database', hdatabase, halike⟩ :=
          commits_of_writtenAsIs hrepresents hpreflight (hwritten ⟨details, rfl⟩)
        exact ⟨_, database', hmemory, hdatabase,
          committedAlike_memoryAfter (accepted_of_preflightOver hpreflight) halike⟩

/-! ## Two stores of one mount -/

def sampleMount : MountConfig :=
  ⟨⟨"m".toList⟩, "notion".toList, .relative ["m".toList], none, none, false, .plainFiles,
    "\x7b\x7d".toList⟩

def sampleEntity (remoteId name : String) : EntityRecord :=
  ⟨⟨"m".toList⟩, ⟨remoteId.toList⟩, .page, remoteId.toList, .relative [name.toList], .hydrated,
    none, none⟩

/-- The enrollment of the entity `a`, at a path. -/
def sampleEnrollment (name createdAt : String) : AutoSaveEnrollmentRecord :=
  ⟨⟨"m".toList⟩, .relative [name.toList], some ⟨"a".toList⟩, true, .userEnabled, .active, none,
    none, createdAt.toList, createdAt.toList⟩

def sampleShared : SharedRows where
  mounts := RankedTable.empty.put sampleMount
  mountLiveModes := .empty
  connectorStates := .empty
  shadows := .empty
  hydrationJobs := .empty
  virtualMutations := .empty
  autoSaveEnrollments := RankedTable.empty.put (sampleEnrollment "a.md" "t0")
  remoteObservations := .empty
  freshnessStates := .empty
  metadataDiscoveryJobs := .empty
  journals := .empty

/-- The entities `a` and `b` of the mount. -/
def sampleDatabase : DatabaseRows where
  shared := sampleShared
  entities := {
    toRankedTable := RankedTable.empty.putAll [sampleEntity "a" "a.md", sampleEntity "b" "b.md"]
    unique := by decide +kernel }

def sampleMemory : MemoryRows where
  shared := sampleShared
  entities := sampleDatabase.entities.toRankedTable
  entitiesByPath := MemoryRows.indexByPath sampleDatabase.entities.toRankedTable

def sampleCommit (entityUpserts : List EntityRecord)
    (autoSaveUpserts : List AutoSaveEnrollmentRecord) : DiscoveryCommit where
  mountId := ⟨"m".toList⟩
  entityUpserts := entityUpserts
  entityDeletes := []
  observationUpserts := []
  freshnessUpserts := []
  autoSaveUpserts := autoSaveUpserts
  metadataDiscoveryDeletes := []
  virtualMutationDeletes := []
  checkpoint := ⟨"notion".toList, "mount".toList, "m".toList, 1, 1, "null".toList, "t1".toList⟩

/-- The two entities change places, and the enrollment of `a` is saved where it goes. -/
def swapCommit : DiscoveryCommit :=
  sampleCommit [sampleEntity "a" "b.md", sampleEntity "b" "a.md"] [sampleEnrollment "b.md" "t0"]

/-- The enrollment of `a` is replaced by one that was made later. -/
def replacingCommit : DiscoveryCommit := sampleCommit [] [sampleEnrollment "a.md" "t1"]

theorem sample_represents : Represents sampleDatabase sampleMemory where
  shared := rfl
  entities := rfl
  index := indexesPaths_indexByPath sampleDatabase.entities
  logical := by decide +kernel

theorem commits_identically_swap :
    CommitsIdentically (fun _ => none) sampleMemory sampleDatabase swapCommit := by
  refine (commits_identically_iff (fun _ => none) sample_represents swapCommit).mpr fun _ => ?_
  have hall : sampleShared.autoSaveEnrollments.all = [sampleEnrollment "a.md" "t0"] := by
    decide +kernel
  exact {
    entityPaths := by decide +kernel
    observationPaths := List.forall_mem_nil _
    createdAt := by
      intro upsert hmem before hlookup _ _
      have hbefore : before ∈ sampleShared.autoSaveEnrollments.all :=
        RankedTable.mem_all.mpr (RankedTable.key_of_lookup hlookup ▸ hlookup)
      rw [hall, List.mem_singleton] at hbefore
      rw [hbefore, List.mem_singleton.mp hmem]
      rfl }

/-- The in-memory store takes the later time, and the database keeps the earlier one. -/
theorem not_commits_identically_replacing :
    ¬ CommitsIdentically (fun _ => none) sampleMemory sampleDatabase replacingCommit := by
  have haccepted : (preflightOver (fun _ => none) sampleMemory.shared sampleMemory.entities
      replacingCommit).toBool = true := by decide +kernel
  have hmemory : (sampleMemory.applyDiscovery (fun _ => none) replacingCommit).toOption.map
      (fun rows => rows.shared.autoSaveEnrollments.all) =
        some [sampleEnrollment "a.md" "t1"] := by decide +kernel
  have hdatabase : (sampleDatabase.applyDiscoveryCommit (fun _ => none)
      replacingCommit).toOption.map (fun rows => rows.shared.autoSaveEnrollments.all) ≠
        some [sampleEnrollment "a.md" "t1"] := by decide +kernel
  intro h
  rw [CommitsIdentically] at h
  split at h
  · obtain ⟨memory', database', hm, hd, halike⟩ := h
    rw [hm] at hmemory
    rw [hd] at hdatabase
    refine hdatabase ?_
    rw [← hmemory, Except.toOption, Except.toOption, Option.map_some, Option.map_some,
      halike.represents.shared]
  · rename_i error herror
    rw [herror] at haccepted
    exact nomatch haccepted

end Locality.Discovery
