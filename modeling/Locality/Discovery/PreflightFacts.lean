/-
  Discovery/PreflightFacts.lean --- what a commit that passed the preflight is known to be.

  Its rows are of its mount and have distinct keys, what it deletes it does not save, and no
  two of the final entities lie at one path.  An enrollment that survives the deletes lands
  at its own path, or at the new one of the entity that it moves with, and what has landed is
  on distinct paths.
-/
import Locality.Discovery.Preflight

set_option autoImplicit false

namespace Locality.Discovery

open Locality.Core Locality.Foundation
open Locality.Daemon (EntityKey EntityRecord StoreError)

/-! ## Checks that were passed -/

theorem refuse_eq_ok {p : Prop} [Decidable p] {message : Text} {u : Unit} :
    refuse p message = .ok u ↔ ¬ p := by
  rw [refuse]
  split
  · rename_i hp
    exact iff_of_false nofun (not_not.mpr hp)
  · rename_i hp
    exact iff_of_true rfl hp

/-- Rows that were passed are good on their own, and apart from each other. -/
theorem checkRows_ok {ρ : Type} {check : List ρ → ρ → StoreResult Unit} (good : ρ → Prop)
    (apart : ρ → ρ → Prop)
    (hcheck : ∀ before row, check before row = .ok () →
      good row ∧ ∀ row' ∈ before, apart row' row) {rows : List ρ} :
    ∀ {before : List ρ}, checkRows check before rows = .ok () →
      (∀ row ∈ rows, good row ∧ ∀ row' ∈ before, apart row' row) ∧ rows.Pairwise apart := by
  induction rows with
  | nil =>
      intro before _
      exact ⟨List.forall_mem_nil _, List.Pairwise.nil⟩
  | cons row rows ih =>
      intro before h
      obtain ⟨_, hrow, hrest⟩ := bind_eq_ok.mp h
      obtain ⟨hall, hapart⟩ := ih hrest
      refine ⟨List.forall_mem_cons.mpr ⟨hcheck before row hrow, ?_⟩,
        List.pairwise_cons.mpr ⟨?_, hapart⟩⟩
      · intro row' hmem
        obtain ⟨hgood, hbefore⟩ := hall row' hmem
        exact ⟨hgood, fun row'' hmem' => hbefore row'' (List.mem_cons_of_mem _ hmem')⟩
      · intro row' hmem
        exact (hall row' hmem).2 row List.mem_cons_self

theorem checkEntityRow_ok {ρ : Type} {recordKind upsertKind : Text} {mountId : MountId}
    {key : ρ → EntityKey} {before : List ρ} {row : ρ}
    (h : checkEntityRow recordKind upsertKind mountId key before row = .ok ()) :
    (key row).1 = mountId ∧ ∀ row' ∈ before, (key row').2 ≠ (key row).2 := by
  obtain ⟨_, hmount, hkey⟩ := bind_eq_ok.mp h
  refine ⟨not_not.mp (refuse_eq_ok.mp hmount), fun row' hmem hsame => ?_⟩
  exact refuse_eq_ok.mp hkey ⟨row', hmem, hsame⟩

theorem nodup_map_of_pairwise {α β : Type} {f : α → β} {rows : List α}
    (h : rows.Pairwise fun row row' => f row ≠ f row') : (rows.map f).Nodup :=
  List.pairwise_map.mpr h

/-- Keys are distinct where their second parts are. -/
theorem nodup_keys {ρ κ : Type} {key : ρ → MountId × κ} {rows : List ρ}
    (hdistinct : (rows.map fun row => (key row).2).Nodup) : (rows.map key).Nodup := by
  refine List.Nodup.of_map Prod.snd ?_
  rw [List.map_map]
  exact hdistinct

/-! ## Valid commits -/

/-- What `validate` promises of the rows of a commit. -/
structure DiscoveryCommit.Valid (commit : DiscoveryCommit) : Prop where
  entityMounts : ∀ entity ∈ commit.entityUpserts, entity.mountId = commit.mountId
  entityIds : (commit.entityUpserts.map (·.remoteId)).Nodup
  entityPaths : (commit.entityUpserts.map (·.path)).Nodup
  deletes : commit.entityDeletes.Nodup
  observationMounts : ∀ row ∈ commit.observationUpserts, row.mountId = commit.mountId
  observationIds : (commit.observationUpserts.map (·.remoteId)).Nodup
  autoSaveMounts : ∀ row ∈ commit.autoSaveUpserts, row.mountId = commit.mountId
  autoSavePaths : (commit.autoSaveUpserts.map (·.path)).Nodup
  disjoint : ∀ remoteId ∈ commit.entityDeletes, remoteId ∉ commit.entityUpserts.map (·.remoteId)

theorem mem_sortedSet {κ : Type} [Ranked κ] [DecidableEq κ] {keys : List κ} {k : κ} :
    k ∈ sortedSet keys ↔ k ∈ keys := by
  have hfold : ∀ {keys : List κ} {table : RankedTable (id : κ → κ)},
      (table.putAll keys).lookup k = some k ↔ k ∈ keys ∨ table.lookup k = some k := by
    intro keys
    induction keys with
    | nil =>
        intro table
        exact (or_iff_right List.not_mem_nil).symm
    | cons key keys ih =>
        intro table
        rw [RankedTable.putAll, List.foldl_cons]
        refine ih.trans ?_
        rw [RankedTable.lookup_put, List.mem_cons]
        by_cases hkey : key = k
        · have hsome : (if id key = k then some key else table.lookup k) = some k := by
            rw [if_pos (show id key = k from hkey), hkey]
          exact iff_of_true (Or.inr hsome) (Or.inl (Or.inl hkey.symm))
        · rw [if_neg (show ¬ id key = k from hkey), or_assoc]
          exact (or_iff_right fun h => hkey h.symm).symm
  rw [sortedSet, RankedTable.mem_all]
  refine hfold.trans (or_iff_left ?_)
  rw [RankedTable.lookup_empty]
  exact fun h => by cases h

namespace DiscoveryCommit

variable {jsonError : Text → Option Text} {commit : DiscoveryCommit}

theorem valid_of_validate (h : commit.validate jsonError = .ok ()) : commit.Valid := by
  obtain ⟨_, hentities, h⟩ := bind_eq_ok.mp h
  obtain ⟨_, hdeletes, h⟩ := bind_eq_ok.mp h
  obtain ⟨_, hobservations, h⟩ := bind_eq_ok.mp h
  obtain ⟨_, -, h⟩ := bind_eq_ok.mp h
  obtain ⟨_, hautoSaves, h⟩ := bind_eq_ok.mp h
  obtain ⟨_, hdisjoint, -⟩ := bind_eq_ok.mp h
  have entities := checkRows_ok (fun entity : EntityRecord => entity.mountId = commit.mountId)
    (fun entity' entity => entity'.remoteId ≠ entity.remoteId ∧
      entity'.path ≠ entity.path) (by
    intro before entity hcheck
    obtain ⟨_, hrow, hpath⟩ := bind_eq_ok.mp hcheck
    obtain ⟨hmount, hids⟩ := checkEntityRow_ok hrow
    refine ⟨hmount, fun entity' hmem => ⟨hids entity' hmem, fun hsame => ?_⟩⟩
    exact refuse_eq_ok.mp hpath ⟨entity', hmem, hsame⟩) hentities
  have deletes := checkRows_ok (fun _ : RemoteId => True)
    (fun remoteId' remoteId => remoteId' ≠ remoteId) (by
    intro before remoteId hcheck
    refine ⟨trivial, fun remoteId' hmem hsame => ?_⟩
    exact refuse_eq_ok.mp hcheck (hsame ▸ hmem)) hdeletes
  have observations := checkRows_ok _ _ (fun _ _ => checkEntityRow_ok) hobservations
  have autoSaves := checkRows_ok
    (fun enrollment : AutoSaveEnrollmentRecord => enrollment.mountId = commit.mountId)
    (fun enrollment' enrollment => enrollment'.path ≠ enrollment.path) (by
    intro before enrollment hcheck
    obtain ⟨_, hmount, hcheck⟩ := bind_eq_ok.mp hcheck
    obtain ⟨_, hpath, -⟩ := bind_eq_ok.mp hcheck
    refine ⟨not_not.mp (refuse_eq_ok.mp hmount), fun enrollment' hmem hsame => ?_⟩
    exact refuse_eq_ok.mp hpath ⟨enrollment', hmem, hsame⟩) hautoSaves
  exact {
    entityMounts := fun entity hmem => (entities.1 entity hmem).1
    entityIds := nodup_map_of_pairwise (entities.2.imp And.left)
    entityPaths := nodup_map_of_pairwise (entities.2.imp And.right)
    deletes := deletes.2
    observationMounts := fun row hmem => (observations.1 row hmem).1
    observationIds := nodup_map_of_pairwise observations.2
    autoSaveMounts := fun row hmem => (autoSaves.1 row hmem).1
    autoSavePaths := nodup_map_of_pairwise autoSaves.2
    disjoint := fun remoteId hmem hupsert =>
      refuse_eq_ok.mp (forM_eq_ok.mp hdisjoint remoteId (mem_sortedSet.mpr hmem))
        (Or.inl hupsert) }

/-! ## The final entities -/

theorem finalEntityMap_ok {existing : List EntityRecord} {final : EntityMap}
    (h : commit.finalEntityMap existing = .ok final) :
    final = commit.entitiesAfter existing ∧
      ∀ entity ∈ final.all, ∀ entity' ∈ final.all, entity.path = entity'.path →
        entity.remoteId = entity'.remoteId := by
  obtain ⟨_, hchecks, hfinal⟩ := bind_eq_ok.mp h
  cases hfinal
  refine ⟨rfl, ?_⟩
  have checks := checkRows_ok (fun _ : EntityRecord => True)
    (fun entity' entity => entity'.path = entity.path →
      entity'.remoteId = entity.remoteId) (by
    intro before entity hcheck
    refine ⟨trivial, fun entity' hmem hpath => ?_⟩
    by_contra hne
    have hdup : ∃ entity' ∈ before, entity'.path = entity.path ∧
        entity'.remoteId ≠ entity.remoteId := ⟨entity', hmem, hpath, hne⟩
    rw [if_pos hdup] at hcheck
    exact nomatch hcheck) hchecks
  have hflip : (commit.entitiesAfter existing).all.Pairwise
      (flip fun entity' entity => entity'.path = entity.path →
        entity'.remoteId = entity.remoteId) :=
    checks.2.imp fun hsame hpath => (hsame hpath.symm).symm
  exact fun entity hmem entity' hmem' =>
    checks.2.forall_of_forall_of_flip (fun _ _ _ => rfl) hflip hmem hmem'

/-- An entity is final if it is saved, or was there and is neither saved nor deleted. -/
theorem lookup_entitiesAfter {existing : List EntityRecord}
    (hexisting : (existing.map (·.remoteId)).Nodup)
    (hupserts : (commit.entityUpserts.map (·.remoteId)).Nodup) {remoteId : RemoteId}
    {entity : EntityRecord} :
    (commit.entitiesAfter existing).lookup remoteId = some entity ↔
      entity ∈ commit.entityUpserts ∧ entity.remoteId = remoteId ∨
        (∀ upsert ∈ commit.entityUpserts, upsert.remoteId ≠ remoteId) ∧
          remoteId ∉ commit.entityDeletes ∧ entity ∈ existing ∧ entity.remoteId = remoteId := by
  rw [entitiesAfter, RankedTable.lookup_putAll_eq_some hupserts, RankedTable.lookup_eraseAll]
  refine or_congr_right (and_congr_right fun _ => and_congr_right fun _ => ?_)
  rw [RankedTable.lookup_putAll_eq_some hexisting, RankedTable.lookup_empty]
  simp only [reduceCtorEq, and_false, or_false]

/-! ## Enrollments that move -/

/-- Where an enrollment lands: at the new path of the first move that it may go with. -/
def landingPath (moves : List PathMove) (enrollment : AutoSaveEnrollmentRecord) : PathBuf :=
  match moves.find? fun move => isCandidate move.remoteId (some move.oldPath) enrollment with
  | some move => move.newPath
  | none => enrollment.path

/-- The enrollment as it lands. -/
def landed (moves : List PathMove) (enrollment : AutoSaveEnrollmentRecord) :
    AutoSaveEnrollmentRecord :=
  { enrollment with path := landingPath moves enrollment }

section Rehomes

variable {deletedRemoteIds : List RemoteId} {deletedPaths : List PathBuf}
  {existing : List AutoSaveEnrollmentRecord}

/-- The rehomes are those of the surviving enrollments that some move selects, each with
the first move that does; no two are of one enrollment. -/
theorem planRehomes_ok {moves : List PathMove} :
    ∀ {selected : List PathBuf} {rehomes : List AutoSaveRehome},
      planRehomes deletedRemoteIds deletedPaths existing selected moves = .ok rehomes →
        (rehomes.map (·.oldPath)).Nodup ∧ (∀ rehome ∈ rehomes, rehome.oldPath ∉ selected) ∧
          ∀ rehome, rehome ∈ rehomes ↔ ∃ enrollment ∈ existing,
            survives deletedRemoteIds deletedPaths enrollment = true ∧
              (∃ move ∈ moves, isCandidate move.remoteId (some move.oldPath) enrollment = true) ∧
                rehome = ⟨enrollment.path, landed moves enrollment⟩ := by
  induction moves with
  | nil =>
      intro selected rehomes h
      cases h
      refine ⟨List.nodup_nil, List.forall_mem_nil _, fun rehome => ?_⟩
      refine iff_of_false List.not_mem_nil ?_
      rintro ⟨_, _, _, ⟨_, hmem, _⟩, _⟩
      exact nomatch hmem
  | cons move moves ih =>
      intro selected rehomes h
      obtain ⟨_, hsingle, h⟩ := bind_eq_ok.mp h
      have hsingle := refuse_eq_ok.mp hsingle
      -- who lands with a later move is no candidate of this one
      have hlanded : ∀ enrollment,
          isCandidate move.remoteId (some move.oldPath) enrollment = false →
            landed (move :: moves) enrollment = landed moves enrollment := by
        intro enrollment hno
        rw [landed, landed, landingPath, landingPath, List.find?_cons, hno]
      have hfirst : ∀ enrollment,
          isCandidate move.remoteId (some move.oldPath) enrollment = true →
            landed (move :: moves) enrollment = { enrollment with path := move.newPath } := by
        intro enrollment hyes
        rw [landed, landingPath, List.find?_cons, hyes]
      cases hhead : (moveCandidates deletedRemoteIds deletedPaths existing move).head? with
      | none =>
          rw [hhead] at h
          have hnone := List.head?_eq_none_iff.mp hhead
          have hno : ∀ enrollment ∈ existing,
              survives deletedRemoteIds deletedPaths enrollment = true →
                isCandidate move.remoteId (some move.oldPath) enrollment = false := by
            intro enrollment hmem hsurvives
            have hfilter := List.filter_eq_nil_iff.mp hnone enrollment hmem
            rw [hsurvives, Bool.true_and, Bool.not_eq_true] at hfilter
            exact hfilter
          obtain ⟨hnodup, hselected, hmem⟩ := ih h
          refine ⟨hnodup, hselected, fun rehome => (hmem rehome).trans ?_⟩
          refine exists_congr fun enrollment => and_congr_right fun hin =>
            and_congr_right fun hsurvives => ?_
          rw [hlanded enrollment (hno enrollment hin hsurvives), List.exists_mem_cons_iff,
            hno enrollment hin hsurvives]
          simp only [Bool.false_eq_true, false_or]
      | some chosen =>
          rw [hhead] at h
          obtain ⟨_, hfresh, h⟩ := bind_eq_ok.mp h
          have hfresh := refuse_eq_ok.mp hfresh
          obtain ⟨rest, hrest, h⟩ := bind_eq_ok.mp h
          cases h
          obtain ⟨hnodup, hselected, hmem⟩ := ih hrest
          have hcandidates : moveCandidates deletedRemoteIds deletedPaths existing move =
              [chosen] := by
            cases hlist : moveCandidates deletedRemoteIds deletedPaths existing move with
            | nil => rw [hlist] at hhead; exact nomatch hhead
            | cons first others =>
                rw [hlist] at hhead hsingle
                cases hhead
                cases others with
                | nil => rfl
                | cons second others => exact absurd (by simp) hsingle
          have hchosen : chosen ∈ existing ∧
              survives deletedRemoteIds deletedPaths chosen = true ∧
                isCandidate move.remoteId (some move.oldPath) chosen = true := by
            have hin : chosen ∈ moveCandidates deletedRemoteIds deletedPaths existing move := by
              rw [hcandidates]
              exact List.mem_singleton_self chosen
            rw [moveCandidates, List.mem_filter, Bool.and_eq_true] at hin
            exact hin
          have honly : ∀ enrollment ∈ existing,
              survives deletedRemoteIds deletedPaths enrollment = true →
                isCandidate move.remoteId (some move.oldPath) enrollment = true →
                  enrollment = chosen := by
            intro enrollment hin hsurvives hcandidate
            have hmem : enrollment ∈
                moveCandidates deletedRemoteIds deletedPaths existing move := by
              rw [moveCandidates, List.mem_filter, hsurvives, hcandidate]
              exact ⟨hin, rfl⟩
            rw [hcandidates] at hmem
            exact List.mem_singleton.mp hmem
          refine ⟨?_, ?_, fun rehome => ?_⟩
          · rw [List.map_cons, List.nodup_cons]
            refine ⟨fun hold => ?_, hnodup⟩
            obtain ⟨rehome, hin, hpath⟩ := List.mem_map.mp hold
            exact hselected rehome hin (hpath ▸ List.mem_cons_self)
          · refine List.forall_mem_cons.mpr ⟨hfresh, fun rehome hin hold => ?_⟩
            exact hselected rehome hin (List.mem_cons_of_mem _ hold)
          · rw [List.mem_cons]
            constructor
            · rintro (rfl | hin)
              · refine ⟨chosen, hchosen.1, hchosen.2.1,
                  ⟨move, List.mem_cons_self, hchosen.2.2⟩, ?_⟩
                rw [hfirst chosen hchosen.2.2]
              · obtain ⟨enrollment, hexists, hsurvives, ⟨later, hlater, hcandidate⟩, rfl⟩ :=
                  (hmem rehome).mp hin
                refine ⟨enrollment, hexists, hsurvives,
                  ⟨later, List.mem_cons_of_mem _ hlater, hcandidate⟩, ?_⟩
                -- its path was not selected yet, so it is not the chosen one
                have hno : isCandidate move.remoteId (some move.oldPath) enrollment = false := by
                  by_contra hyes
                  rw [Bool.not_eq_false] at hyes
                  rw [honly enrollment hexists hsurvives hyes] at hin
                  exact hselected _ hin List.mem_cons_self
                rw [hlanded enrollment hno]
            · rintro ⟨enrollment, hexists, hsurvives, ⟨some, hsome, hcandidate⟩, rfl⟩
              by_cases hyes : isCandidate move.remoteId (Option.some move.oldPath) enrollment = true
              · left
                rw [hfirst enrollment hyes, honly enrollment hexists hsurvives hyes]
              · right
                have hno := Bool.eq_false_iff.mpr hyes
                rw [hlanded enrollment hno]
                refine (hmem _).mpr ⟨enrollment, hexists, hsurvives, ⟨some, ?_, hcandidate⟩, rfl⟩
                rcases List.mem_cons.mp hsome with rfl | hlater
                · exact absurd hcandidate hyes
                · exact hlater

/-- The moved enrollments were placed on distinct paths that no other enrollment has. -/
theorem placeRehomes_ok {rehomes : List AutoSaveRehome} :
    ∀ {enrollments placed : EnrollmentMap}, placeRehomes enrollments rehomes = .ok placed →
      (∀ rehome ∈ rehomes, enrollments.lookup rehome.enrollment.path = none) ∧
        (rehomes.map (·.enrollment.path)).Nodup := by
  induction rehomes with
  | nil =>
      intro enrollments placed _
      exact ⟨List.forall_mem_nil _, List.nodup_nil⟩
  | cons rehome rehomes ih =>
      intro enrollments placed h
      rw [placeRehomes] at h
      split at h
      · exact nomatch h
      · rename_i hfree
        obtain ⟨hall, hnodup⟩ := ih h
        have hne : ∀ rehome' ∈ rehomes, rehome.enrollment.path ≠ rehome'.enrollment.path := by
          intro rehome' hmem hsame
          have hlookup := hall rehome' hmem
          rw [RankedTable.lookup_put, if_pos hsame] at hlookup
          exact nomatch hlookup
        refine ⟨List.forall_mem_cons.mpr ⟨hfree, fun rehome' hmem => ?_⟩, ?_⟩
        · have hlookup := hall rehome' hmem
          rw [RankedTable.lookup_put, if_neg (hne rehome' hmem)] at hlookup
          exact hlookup
        · rw [List.map_cons, List.nodup_cons]
          refine ⟨fun hin => ?_, hnodup⟩
          obtain ⟨rehome', hmem, hpath⟩ := List.mem_map.mp hin
          exact hne rehome' hmem hpath.symm

end Rehomes

/-! ## Accepted commits -/

/-- The paths of deleted entities, as the plan of the enrollments sees them. -/
def plannedDeletedPaths (commit : DiscoveryCommit) (existing : EntityMap) : List PathBuf :=
  ((commit.affectedEntitiesOf existing).filter fun affected =>
    decide (affected.1 ∈ commit.entityDeletes)).filterMap Prod.snd

/-- What is known of a commit whose preflight computed the details. -/
structure Accepted (jsonError : Text → Option Text) (commit : DiscoveryCommit)
    (connector : Text) (existing : List EntityRecord)
    (enrollments : List AutoSaveEnrollmentRecord) (details : DiscoveryPreflight) : Prop where
  validated : commit.validate jsonError = .ok ()
  connected : commit.validateConnector connector = .ok ()
  mounts : ∀ entity ∈ existing, entity.mountId = commit.mountId
  final : details.finalEntities = commit.entitiesAfter existing
  apart : ∀ entity ∈ details.finalEntities.all, ∀ entity' ∈ details.finalEntities.all,
    entity.path = entity'.path → entity.remoteId = entity'.remoteId
  deletes : details.entityDeletes = sortedSet commit.entityDeletes
  deletedPaths : details.deletedPaths = commit.deletedPathsOf (RankedTable.empty.putAll existing)
  moves : details.pathMoves = commit.pathMovesOf (RankedTable.empty.putAll existing)
  planned : planRehomes commit.entityDeletes
    (commit.plannedDeletedPaths (RankedTable.empty.putAll existing)) enrollments []
      details.pathMoves = .ok details.autoSaveRehomes
  placed : ∃ placed, placeRehomes (enrollmentsKept commit.entityDeletes
    (commit.plannedDeletedPaths (RankedTable.empty.putAll existing)) enrollments
      details.autoSaveRehomes) details.autoSaveRehomes = .ok placed

theorem Accepted.valid {connector : Text} {existing : List EntityRecord}
    {enrollments : List AutoSaveEnrollmentRecord} {details : DiscoveryPreflight}
    (h : commit.Accepted jsonError connector existing enrollments details) : commit.Valid :=
  valid_of_validate h.validated

theorem preflightDetails_ok {connector : Text} {existing : List EntityRecord}
    {enrollments : List AutoSaveEnrollmentRecord} {mutations : List VirtualMutationRecord}
    {details : DiscoveryPreflight}
    (h : commit.preflightDetails jsonError connector existing enrollments mutations =
      .ok details) :
    commit.Accepted jsonError connector existing enrollments details := by
  obtain ⟨_, hvalidate, h⟩ := bind_eq_ok.mp h
  obtain ⟨_, hconnector, h⟩ := bind_eq_ok.mp h
  obtain ⟨_, hmounts, h⟩ := bind_eq_ok.mp h
  obtain ⟨_, -, h⟩ := bind_eq_ok.mp h
  obtain ⟨_, -, h⟩ := bind_eq_ok.mp h
  obtain ⟨final, hfinal, h⟩ := bind_eq_ok.mp h
  obtain ⟨_, -, h⟩ := bind_eq_ok.mp h
  obtain ⟨rehomes, hrehomes, h⟩ := bind_eq_ok.mp h
  obtain ⟨_, -, hrehomes⟩ := bind_eq_ok.mp hrehomes
  obtain ⟨planned, hplanned, hrehomes⟩ := bind_eq_ok.mp hrehomes
  obtain ⟨placed, hplaced, hrehomes⟩ := bind_eq_ok.mp hrehomes
  obtain ⟨_, -, hrehomes⟩ := bind_eq_ok.mp hrehomes
  cases h
  cases hrehomes
  obtain ⟨rfl, hapart⟩ := finalEntityMap_ok hfinal
  exact {
    validated := hvalidate
    connected := hconnector
    mounts := fun entity hmem =>
      not_not.mp (refuse_eq_ok.mp (forM_eq_ok.mp hmounts entity hmem))
    final := rfl
    apart := hapart
    deletes := rfl
    deletedPaths := rfl
    moves := rfl
    planned := hplanned
    placed := ⟨placed, hplaced⟩ }

section Moves

variable {existing : EntityMap}

/-- The moves are the upserts that give an entity another path. -/
theorem mem_pathMovesOf {move : PathMove} :
    move ∈ commit.pathMovesOf existing ↔ ∃ entity ∈ commit.entityUpserts, ∃ current,
      existing.lookup entity.remoteId = some current ∧ current.path ≠ entity.path ∧
        move = ⟨entity.remoteId, current.path, entity.path⟩ := by
  rw [pathMovesOf, List.mem_filterMap]
  refine exists_congr fun entity => and_congr_right fun _ => ?_
  rw [Option.bind_eq_some_iff]
  refine exists_congr fun current => and_congr_right fun _ => ?_
  split
  · rename_i hne
    rw [Option.some.injEq]
    exact ⟨fun h => ⟨hne, h.symm⟩, fun h => h.2.symm⟩
  · rename_i heq
    exact iff_of_false nofun fun h => heq h.1

theorem mem_deletedPathsOf {remoteId : RemoteId} {path : PathBuf} :
    (remoteId, path) ∈ commit.deletedPathsOf existing ↔ remoteId ∈ commit.entityDeletes ∧
      ∃ entity, existing.lookup remoteId = some entity ∧ entity.path = path := by
  rw [deletedPathsOf, List.mem_filterMap]
  constructor
  · rintro ⟨id, hmem, h⟩
    obtain ⟨entity, hlookup, hpair⟩ := Option.map_eq_some_iff.mp h
    cases hpair
    exact ⟨hmem, entity, hlookup, rfl⟩
  · rintro ⟨hmem, entity, hlookup, rfl⟩
    exact ⟨remoteId, hmem, by rw [hlookup]; rfl⟩

theorem mem_plannedDeletedPaths (hvalid : commit.Valid) {path : PathBuf} :
    path ∈ commit.plannedDeletedPaths existing ↔
      path ∈ (commit.deletedPathsOf existing).map Prod.snd := by
  rw [plannedDeletedPaths, List.mem_filterMap, List.mem_map]
  constructor
  · rintro ⟨⟨remoteId, owned⟩, hmem, hpath⟩
    obtain ⟨hmem, hdeleted⟩ := List.mem_filter.mp hmem
    have hdeleted := of_decide_eq_true hdeleted
    rw [affectedEntitiesOf, List.mem_append] at hmem
    rcases hmem with hmem | hmem
    · obtain ⟨id, hid, hpair⟩ := List.mem_map.mp hmem
      cases hpair
      obtain ⟨entity, hlookup, rfl⟩ := Option.map_eq_some_iff.mp hpath
      exact ⟨(remoteId, entity.path), mem_deletedPathsOf.mpr ⟨hid, entity, hlookup, rfl⟩, rfl⟩
    · obtain ⟨move, hmove, hpair⟩ := List.mem_map.mp hmem
      cases hpair
      obtain ⟨entity, hupsert, _, _, _, rfl⟩ := mem_pathMovesOf.mp hmove
      exact absurd (List.mem_map_of_mem hupsert) (hvalid.disjoint _ hdeleted)
  · rintro ⟨⟨remoteId, path'⟩, hmem, rfl⟩
    obtain ⟨hdeleted, entity, hlookup, rfl⟩ := mem_deletedPathsOf.mp hmem
    refine ⟨(remoteId, some entity.path), List.mem_filter.mpr ⟨?_, decide_eq_true hdeleted⟩, rfl⟩
    rw [affectedEntitiesOf, List.mem_append]
    left
    exact List.mem_map.mpr ⟨remoteId, hdeleted, by rw [hlookup]; rfl⟩

end Moves

end DiscoveryCommit

end Locality.Discovery
