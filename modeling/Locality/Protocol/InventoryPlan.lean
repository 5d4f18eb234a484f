/-
  Protocol/InventoryPlan.lean --- what the plan of an inventory is, for the entries as a
  whole; and that it is one plan for every order of them.

  An entry becomes a record, whatever the others are.  The records are admitted together:
  their paths, up to case, and their projections are distinct.  Counting them commutes,
  and so nothing of the plan depends on the order of the entries.
-/
import Locality.Foundation.OrderFree
import Locality.Protocol.WorkspaceExport
import Mathlib.Data.List.Perm.Basic

set_option autoImplicit false

namespace Locality.Protocol

open Locality.Core Locality.Foundation Scope

namespace WorkspaceExport

/-! ## Counts -/

theorem checkedAdd_eq_some {n m total : UInt64} :
    checkedAdd n m = some total ↔ n.toNat + m.toNat < 2 ^ 64 ∧ total = n + m := by
  unfold checkedAdd
  split
  · rename_i hfits
    exact ⟨fun h => ⟨hfits, (Option.some.inj h).symm⟩, fun h => congrArg some h.2.symm⟩
  · rename_i hover
    exact ⟨fun h => (nomatch h), fun h => absurd h.1 hover⟩

/-- What a record adds: to the directories, to the files, and to the bytes. -/
def added : WorkspaceNamespacedExportRecord → UInt64 × UInt64 × UInt64
  | .directory _ _ _ _ _ => (1, 0, 0)
  | .file record => (0, 1, record.metadata.byteLength)
  | _ => (0, 0, 0)

/-- The counts of a target leave room for more. -/
def HasRoom (counts : WorkspaceTargetDirectory) (more : UInt64 × UInt64 × UInt64) : Prop :=
  counts.directoryCount.toNat + more.1.toNat < 2 ^ 64 ∧
    counts.fileCount.toNat + more.2.1.toNat < 2 ^ 64 ∧
    counts.contentBytes.toNat + more.2.2.toNat < 2 ^ 64

def plus (counts : WorkspaceTargetDirectory) (more : UInt64 × UInt64 × UInt64) :
    WorkspaceTargetDirectory :=
  { counts with
    directoryCount := counts.directoryCount + more.1
    fileCount := counts.fileCount + more.2.1
    contentBytes := counts.contentBytes + more.2.2 }

theorem countRecord_eq_some {counts counts' : WorkspaceTargetDirectory}
    {record : WorkspaceNamespacedExportRecord} :
    countRecord counts record = some counts' ↔
      HasRoom counts (added record) ∧ counts' = plus counts (added record) := by
  have hdirectories := counts.directoryCount.toNat_lt
  have hfiles := counts.fileCount.toNat_lt
  have hbytes := counts.contentBytes.toNat_lt
  have hzero : (0 : UInt64).toNat = 0 := rfl
  cases record with
  | directory winningScopeOrdinal mountId target logicalPath memberPath =>
      simp only [countRecord, Option.bind_eq_bind, Option.bind_eq_some_iff, checkedAdd_eq_some,
        Option.pure_def, Option.some.injEq, HasRoom, added, plus, UInt64.add_zero, hzero]
      constructor
      · intro h
        obtain ⟨_, ⟨hfits, rfl⟩, rfl⟩ := h
        exact ⟨⟨hfits, by omega, by omega⟩, rfl⟩
      · intro h
        obtain ⟨⟨hfits, -, -⟩, rfl⟩ := h
        exact ⟨_, ⟨hfits, rfl⟩, rfl⟩
  | file record =>
      simp only [countRecord, Option.bind_eq_bind, Option.bind_eq_some_iff, checkedAdd_eq_some,
        Option.pure_def, Option.some.injEq, HasRoom, added, plus, UInt64.add_zero, hzero]
      constructor
      · intro h
        obtain ⟨_, ⟨hfits, rfl⟩, _, ⟨hfits', rfl⟩, rfl⟩ := h
        exact ⟨⟨by omega, hfits, hfits'⟩, rfl⟩
      · intro h
        obtain ⟨⟨-, hfits, hfits'⟩, rfl⟩ := h
        exact ⟨_, ⟨hfits, rfl⟩, _, ⟨hfits', rfl⟩, rfl⟩
  | targetDirectory mountId target memberPath =>
      simp only [countRecord, Option.pure_def, Option.some.injEq, HasRoom, added, plus,
        UInt64.add_zero, hzero]
      exact ⟨fun h => ⟨⟨by omega, by omega, by omega⟩, h.symm⟩, fun h => h.2.symm⟩
  | control memberPath =>
      simp only [countRecord, Option.pure_def, Option.some.injEq, HasRoom, added, plus,
        UInt64.add_zero, hzero]
      exact ⟨fun h => ⟨⟨by omega, by omega, by omega⟩, h.symm⟩, fun h => h.2.symm⟩

theorem room_swap {n a b : UInt64} (h : n.toNat + a.toNat < 2 ^ 64)
    (h' : (n + a).toNat + b.toNat < 2 ^ 64) :
    n.toNat + b.toNat < 2 ^ 64 ∧ (n + b).toNat + a.toNat < 2 ^ 64 := by
  rw [UInt64.toNat_add, Nat.mod_eq_of_lt h] at h'
  rw [UInt64.toNat_add, Nat.mod_eq_of_lt (a := n.toNat + b.toNat) (by omega)]
  omega

theorem add_swap (n a b : UInt64) : n + a + b = n + b + a := by
  rw [UInt64.add_assoc, UInt64.add_assoc, UInt64.add_comm a b]

theorem countRecord_comm (counts : WorkspaceTargetDirectory)
    (record record' : WorkspaceNamespacedExportRecord) :
    (countRecord counts record >>= fun counts => countRecord counts record') =
      countRecord counts record' >>= fun counts => countRecord counts record := by
  have hone : ∀ (record record' : WorkspaceNamespacedExportRecord)
      (total : WorkspaceTargetDirectory),
      (countRecord counts record >>= fun counts => countRecord counts record') = some total →
      (countRecord counts record' >>= fun counts => countRecord counts record) = some total := by
    intro record record' total h
    obtain ⟨counts₁, h₁, h⟩ := Option.bind_eq_some_iff.mp h
    obtain ⟨⟨hdirectories, hfiles, hbytes⟩, rfl⟩ := countRecord_eq_some.mp h₁
    obtain ⟨⟨hdirectories', hfiles', hbytes'⟩, rfl⟩ := countRecord_eq_some.mp h
    obtain ⟨hd, hd'⟩ := room_swap hdirectories hdirectories'
    obtain ⟨hf, hf'⟩ := room_swap hfiles hfiles'
    obtain ⟨hb, hb'⟩ := room_swap hbytes hbytes'
    refine Option.bind_eq_some_iff.mpr ⟨_, countRecord_eq_some.mpr ⟨⟨hd, hf, hb⟩, rfl⟩,
      countRecord_eq_some.mpr ⟨⟨hd', hf', hb'⟩, ?_⟩⟩
    simp only [plus, add_swap _ (added record).1, add_swap _ (added record).2.1,
      add_swap _ (added record).2.2]
  exact Option.ext fun total => ⟨hone record record' total, hone record' record total⟩

/-- A record as it is counted for its mount. -/
def countMember (targets : List WorkspaceTargetDirectory) :
    WorkspaceNamespacedExportRecord → Option (List WorkspaceTargetDirectory)
  | .directory winningScopeOrdinal mountId target logicalPath memberPath =>
      countInTarget targets mountId
        (.directory winningScopeOrdinal mountId target logicalPath memberPath)
  | .file record => countInTarget targets record.mountId (.file record)
  | _ => some targets

/-- The mount of a record that is counted. -/
def concerns : WorkspaceNamespacedExportRecord → PortableMountId → Prop
  | .directory _ mountId _ _ _, id => id = mountId
  | .file record, id => id = record.mountId
  | _, _ => False

instance (record : WorkspaceNamespacedExportRecord) (id : PortableMountId) :
    Decidable (concerns record id) :=
  match record with
  | .directory _ mountId _ _ _ => inferInstanceAs (Decidable (id = mountId))
  | .file record => inferInstanceAs (Decidable (id = record.mountId))
  | .targetDirectory _ _ _ => inferInstanceAs (Decidable False)
  | .control _ => inferInstanceAs (Decidable False)

/-- A record as it is counted for one target. -/
def countFor (record : WorkspaceNamespacedExportRecord) (counts : WorkspaceTargetDirectory) :
    Option WorkspaceTargetDirectory :=
  if concerns record counts.mountId then countRecord counts record else some counts

theorem countMember_eq (targets : List WorkspaceTargetDirectory)
    (record : WorkspaceNamespacedExportRecord) :
    countMember targets record = targets.mapM (countFor record) := by
  have hnone : ∀ targets : List WorkspaceTargetDirectory, some targets = targets.mapM some := by
    intro targets
    induction targets with
    | nil => rfl
    | cons counts targets ih => rw [List.mapM_cons, ← ih]; rfl
  cases record with
  | directory winningScopeOrdinal mountId target logicalPath memberPath => rfl
  | file record => rfl
  | targetDirectory mountId target memberPath => exact hnone targets
  | control memberPath => exact hnone targets

theorem countFor_comm (record record' : WorkspaceNamespacedExportRecord)
    (counts : WorkspaceTargetDirectory) :
    (countFor record counts >>= countFor record') = countFor record' counts >>= countFor record := by
  have hsame : ∀ {record record' : WorkspaceNamespacedExportRecord},
      (countRecord counts record >>= countFor record') =
        if concerns record' counts.mountId then
          countRecord counts record >>= fun counts => countRecord counts record'
        else countRecord counts record := by
    intro record record'
    cases h : countRecord counts record with
    | none =>
        split
        · rfl
        · rfl
    | some counts' =>
        obtain ⟨-, rfl⟩ := countRecord_eq_some.mp h
        rfl
  by_cases hmember : concerns record counts.mountId
  · by_cases hmember' : concerns record' counts.mountId
    · rw [countFor, countFor, if_pos hmember, if_pos hmember', hsame, hsame, if_pos hmember,
        if_pos hmember', countRecord_comm]
    · rw [countFor, countFor, if_pos hmember, if_neg hmember', hsame, if_neg hmember',
        Option.bind_eq_bind, Option.bind_some, countFor, if_pos hmember]
  · by_cases hmember' : concerns record' counts.mountId
    · rw [countFor, countFor, if_neg hmember, if_pos hmember', hsame, if_neg hmember,
        Option.bind_eq_bind, Option.bind_some, countFor, if_pos hmember']
    · rw [countFor, countFor, if_neg hmember, if_neg hmember', Option.bind_eq_bind,
        Option.bind_some, Option.bind_some, countFor, countFor, if_neg hmember, if_neg hmember']

/-- Counting is the same in all orders. -/
theorem countMembers_perm {records records' : List WorkspaceNamespacedExportRecord}
    (h : records.Perm records') (targets : List WorkspaceTargetDirectory) :
    records.foldlM countMember targets = records'.foldlM countMember targets := by
  refine foldlM_perm (fun targets record record' => ?_) h targets
  simp only [countMember_eq]
  rw [mapM_bind_mapM, mapM_bind_mapM]
  exact congrArg (fun f => targets.mapM f) (funext (countFor_comm record record'))

/-! ## Records of entries -/

section Unicode

variable (unicode : UnicodeTables)

/-- The record of an entry below the target of its scope. -/
def recordAt (scope : SessionLayoutEntry) (logicalPath : LogicalPath) :
    WorkspaceAuthorizedExportEntry → WorkspaceNamespacedExportRecord
  | .directory _ _ _ => .directory scope.scopeOrdinal scope.mountId scope.target logicalPath
      (memberPathOf scope.target logicalPath)
  | .file _ _ _ metadata => .file ⟨scope.scopeOrdinal, scope.mountId, scope.target, logicalPath,
      memberPathOf scope.target logicalPath, metadata⟩

/-- What is checked of a file, whatever the others are. -/
def FileAllowed (plan : PlanScope) (scope : SessionLayoutEntry) :
    WorkspaceAuthorizedExportEntry → Prop
  | .directory _ _ _ => True
  | .file _ _ _ metadata =>
      validateSource plan scope.scopeOrdinal metadata.sourceConnectionId = .ok () ∧
        validateFileMetadata metadata = .ok ()

/-- An entry passes the checks that it is put to alone, and becomes a record. -/
def Becomes (plan : PlanScope) (entry : WorkspaceAuthorizedExportEntry)
    (record : WorkspaceNamespacedExportRecord) : Prop :=
  ∃ scope logicalPath, entryOfScope plan.entries entry.scopeOrdinal = some scope ∧
    entry.mountId = scope.mountId ∧
    validateConnectorPath unicode entry.logicalPath = .ok logicalPath ∧
    validateRegularPath unicode (memberPathOf scope.target logicalPath) = .ok () ∧
    FileAllowed plan scope entry ∧ record = recordAt scope logicalPath entry

/-- The projection of a file. -/
def projection? : WorkspaceNamespacedExportRecord → Option ProjectionId
  | .file record => some record.metadata.projectionId
  | _ => none

def asDirectory : WorkspaceNamespacedExportRecord → List WorkspaceNamespacedExportRecord
  | .file _ => []
  | record => [record]

def asFile : WorkspaceNamespacedExportRecord → List WorkspaceFileRecord
  | .file record => [record]
  | _ => []

/-- The state once records were pushed to it. -/
def PlanState.push (self : PlanState) (records : List WorkspaceNamespacedExportRecord)
    (targetCounts : List WorkspaceTargetDirectory) : PlanState where
  targetCounts := targetCounts
  directories := self.directories ++ records.flatMap asDirectory
  files := self.files ++ records.flatMap asFile
  paths := (records.map WorkspaceNamespacedExportRecord.memberPath).reverse ++ self.paths
  collisionKeys := (records.map fun record => collisionKey unicode record.memberPath).reverse ++
    self.collisionKeys
  projectionIds := (records.filterMap projection?).reverse ++ self.projectionIds

/-- Values that are new, and that are distinct. -/
def Fresh {α : Type} (values known : List α) : Prop :=
  values.Nodup ∧ ∀ value ∈ values, value ∉ known

theorem fresh_cons {α : Type} {value : α} {values known : List α} :
    Fresh (value :: values) known ↔ value ∉ known ∧ Fresh values (value :: known) := by
  constructor
  · intro h
    obtain ⟨hnodup, hnew⟩ := h
    obtain ⟨hout, hrest⟩ := List.nodup_cons.mp hnodup
    refine ⟨hnew value List.mem_cons_self, hrest, fun other hother hmem => ?_⟩
    obtain rfl | hmem := List.mem_cons.mp hmem
    · exact hout hother
    · exact hnew other (List.mem_cons_of_mem _ hother) hmem
  · intro h
    obtain ⟨hout, hrest, hnew⟩ := h
    refine ⟨List.nodup_cons.mpr ⟨fun hmem => hnew value hmem List.mem_cons_self, hrest⟩, ?_⟩
    intro other hother
    obtain rfl | hother := List.mem_cons.mp hother
    · exact hout
    · exact fun hmem => hnew other hother (List.mem_cons_of_mem _ hmem)

theorem fresh_nil {α : Type} (known : List α) : Fresh ([] : List α) known :=
  ⟨List.nodup_nil, fun _ h => nomatch h⟩

theorem Fresh.perm {α : Type} {values values' known : List α} (h : Fresh values known)
    (hperm : values.Perm values') : Fresh values' known :=
  ⟨hperm.nodup_iff.mp h.1, fun value hmem => h.2 value (hperm.mem_iff.mpr hmem)⟩

/-- Records that are admitted together, behind those of a state. -/
structure Admitted (state : PlanState) (records : List WorkspaceNamespacedExportRecord) : Prop where
  paths : Fresh (records.map WorkspaceNamespacedExportRecord.memberPath) state.paths
  collisionKeys : Fresh (records.map fun record => collisionKey unicode record.memberPath)
    state.collisionKeys
  projectionIds : Fresh (records.filterMap projection?) state.projectionIds

variable {unicode}

theorem Admitted.perm {state : PlanState} {records records' : List WorkspaceNamespacedExportRecord}
    (h : Admitted unicode state records) (hperm : records.Perm records') :
    Admitted unicode state records' where
  paths := h.paths.perm (hperm.map _)
  collisionKeys := h.collisionKeys.perm (hperm.map _)
  projectionIds := h.projectionIds.perm (hperm.filterMap _)

theorem insertMaterializedPath_eq_ok {state state' : PlanState} {path : Text} :
    state.insertMaterializedPath unicode path = .ok state' ↔
      path ∉ state.paths ∧ collisionKey unicode path ∉ state.collisionKeys ∧
        state' = { state with
          paths := path :: state.paths
          collisionKeys := collisionKey unicode path :: state.collisionKeys } := by
  constructor
  · intro h
    obtain ⟨_, hpath, h⟩ := bind_eq_ok.mp h
    obtain ⟨_, hkey, h⟩ := bind_eq_ok.mp h
    cases h
    exact ⟨failIf_eq_ok.mp hpath, failIf_eq_ok.mp hkey, rfl⟩
  · intro h
    obtain ⟨hpath, hkey, rfl⟩ := h
    exact bind_eq_ok.mpr ⟨(), failIf_eq_ok.mpr hpath, bind_eq_ok.mpr ⟨(),
      failIf_eq_ok.mpr hkey, rfl⟩⟩

theorem orOverflow_eq_ok {α : Type} {found : Option α} {a : α} :
    orOverflow found = .ok a ↔ found = some a := by
  cases found with
  | none => exact ⟨fun h => (by cases h), fun h => (by cases h)⟩
  | some b => exact ⟨fun h => congrArg some (Except.ok.inj h),
      fun h => congrArg Except.ok (Option.some.inj h)⟩

theorem admitted_one {state : PlanState} {record : WorkspaceNamespacedExportRecord} :
    Admitted unicode state [record] ↔
      record.memberPath ∉ state.paths ∧
        collisionKey unicode record.memberPath ∉ state.collisionKeys ∧
        ∀ id ∈ projection? record, id ∉ state.projectionIds := by
  constructor
  · intro h
    refine ⟨(fresh_cons.mp h.paths).1, (fresh_cons.mp h.collisionKeys).1, fun id hid => ?_⟩
    have hmem : id ∈ [record].filterMap projection? :=
      List.mem_filterMap.mpr ⟨record, List.mem_singleton_self _, hid⟩
    exact h.projectionIds.2 id hmem
  · intro h
    obtain ⟨hpath, hkey, hid⟩ := h
    refine ⟨fresh_cons.mpr ⟨hpath, fresh_nil _⟩, fresh_cons.mpr ⟨hkey, fresh_nil _⟩, ?_⟩
    cases hprojection : projection? record with
    | none =>
        rw [List.filterMap_cons_none hprojection]
        exact fresh_nil _
    | some id =>
        rw [List.filterMap_cons_some hprojection]
        exact fresh_cons.mpr ⟨hid id hprojection, fresh_nil _⟩

theorem admitted_cons {state : PlanState} {record : WorkspaceNamespacedExportRecord}
    {records : List WorkspaceNamespacedExportRecord}
    {targetCounts : List WorkspaceTargetDirectory} :
    Admitted unicode state (record :: records) ↔
      Admitted unicode state [record] ∧
        Admitted unicode (state.push unicode [record] targetCounts) records := by
  have hids : Fresh ((record :: records).filterMap projection?) state.projectionIds ↔
      Fresh ([record].filterMap projection?) state.projectionIds ∧
        Fresh (records.filterMap projection?)
          (state.push unicode [record] targetCounts).projectionIds := by
    rw [PlanState.push]
    cases hprojection : projection? record with
    | none =>
        rw [List.filterMap_cons_none hprojection, List.filterMap_cons_none hprojection]
        exact (and_iff_right (fresh_nil _)).symm
    | some id =>
        rw [List.filterMap_cons_some hprojection, List.filterMap_cons_some hprojection, fresh_cons,
          fresh_cons]
        exact and_congr_left fun _ => (and_iff_left (fresh_nil _)).symm
  constructor
  · intro h
    obtain ⟨hpath, hpaths⟩ := fresh_cons.mp h.paths
    obtain ⟨hkey, hkeys⟩ := fresh_cons.mp h.collisionKeys
    obtain ⟨hone, hrest⟩ := hids.mp h.projectionIds
    exact ⟨⟨fresh_cons.mpr ⟨hpath, fresh_nil _⟩, fresh_cons.mpr ⟨hkey, fresh_nil _⟩, hone⟩,
      ⟨hpaths, hkeys, hrest⟩⟩
  · intro h
    obtain ⟨hone, hrest⟩ := h
    exact ⟨fresh_cons.mpr ⟨(fresh_cons.mp hone.paths).1, hrest.paths⟩,
      fresh_cons.mpr ⟨(fresh_cons.mp hone.collisionKeys).1, hrest.collisionKeys⟩,
      hids.mpr ⟨hone.projectionIds, hrest.projectionIds⟩⟩

theorem push_nil (state : PlanState) : state.push unicode [] state.targetCounts = state := by
  simp only [PlanState.push, List.flatMap_nil, List.append_nil, List.map_nil, List.reverse_nil,
    List.nil_append, List.filterMap_nil]

theorem push_push {state : PlanState} {record : WorkspaceNamespacedExportRecord}
    {records : List WorkspaceNamespacedExportRecord}
    {targetCounts targetCounts' : List WorkspaceTargetDirectory} :
    (state.push unicode [record] targetCounts).push unicode records targetCounts' =
      state.push unicode (record :: records) targetCounts' := by
  have hids : (records.filterMap projection?).reverse ++ ([record].filterMap projection?).reverse =
      ((record :: records).filterMap projection?).reverse := by
    rw [← List.reverse_append, ← List.filterMap_append, List.singleton_append]
  simp only [PlanState.push, List.flatMap_cons, List.flatMap_nil, List.append_nil, List.map_cons,
    List.map_nil, List.reverse_cons, List.reverse_nil, List.nil_append, List.append_assoc, ← hids]

theorem addDirectory_eq_ok {state state' : PlanState} {scope : SessionLayoutEntry}
    {logicalPath : LogicalPath} {memberPath : Text} :
    state.addDirectory scope logicalPath memberPath = .ok state' ↔
      ∃ targetCounts, countMember state.targetCounts (.directory scope.scopeOrdinal scope.mountId
          scope.target logicalPath memberPath) = some targetCounts ∧
        state' = { state with
          targetCounts := targetCounts
          directories := state.directories ++ [.directory scope.scopeOrdinal scope.mountId
            scope.target logicalPath memberPath] } := by
  rw [PlanState.addDirectory, bind_eq_ok]
  constructor
  · intro h
    obtain ⟨targetCounts, hcounts, h⟩ := h
    cases h
    exact ⟨targetCounts, orOverflow_eq_ok.mp hcounts, rfl⟩
  · intro h
    obtain ⟨targetCounts, hcounts, rfl⟩ := h
    exact ⟨targetCounts, orOverflow_eq_ok.mpr hcounts, rfl⟩

theorem addFile_eq_ok {plan : PlanScope} {state state' : PlanState} {scope : SessionLayoutEntry}
    {logicalPath : LogicalPath} {memberPath : Text} {metadata : WorkspaceFileMetadata} :
    state.addFile plan scope logicalPath memberPath metadata = .ok state' ↔
      (validateSource plan scope.scopeOrdinal metadata.sourceConnectionId = .ok () ∧
        validateFileMetadata metadata = .ok ()) ∧
      metadata.projectionId ∉ state.projectionIds ∧
      ∃ targetCounts, countMember state.targetCounts (.file ⟨scope.scopeOrdinal, scope.mountId,
          scope.target, logicalPath, memberPath, metadata⟩) = some targetCounts ∧
        state' = { state with
          targetCounts := targetCounts
          files := state.files ++ [⟨scope.scopeOrdinal, scope.mountId, scope.target, logicalPath,
            memberPath, metadata⟩]
          projectionIds := metadata.projectionId :: state.projectionIds } := by
  constructor
  · intro h
    obtain ⟨_, hsource, h⟩ := bind_eq_ok.mp h
    obtain ⟨_, hmetadata, h⟩ := bind_eq_ok.mp h
    obtain ⟨_, hprojection, h⟩ := bind_eq_ok.mp h
    obtain ⟨targetCounts, hcounts, h⟩ := bind_eq_ok.mp h
    cases h
    exact ⟨⟨hsource, hmetadata⟩, failIf_eq_ok.mp hprojection, targetCounts,
      orOverflow_eq_ok.mp hcounts, rfl⟩
  · intro h
    obtain ⟨⟨hsource, hmetadata⟩, hprojection, targetCounts, hcounts, rfl⟩ := h
    exact bind_eq_ok.mpr ⟨(), hsource, bind_eq_ok.mpr ⟨(), hmetadata, bind_eq_ok.mpr ⟨(),
      failIf_eq_ok.mpr hprojection, bind_eq_ok.mpr ⟨targetCounts, orOverflow_eq_ok.mpr hcounts,
        rfl⟩⟩⟩⟩

/-- A member of a path that is new: it is admitted and counted. -/
theorem addMember_eq_ok {plan : PlanScope} {state state' : PlanState}
    {scope : SessionLayoutEntry} {logicalPath : LogicalPath}
    {entry : WorkspaceAuthorizedExportEntry} :
    (∃ state₁, state.insertMaterializedPath unicode (memberPathOf scope.target logicalPath) =
        .ok state₁ ∧
      state₁.addMember plan scope logicalPath (memberPathOf scope.target logicalPath) entry =
        .ok state') ↔
      FileAllowed plan scope entry ∧ Admitted unicode state [recordAt scope logicalPath entry] ∧
        ∃ targetCounts,
          countMember state.targetCounts (recordAt scope logicalPath entry) = some targetCounts ∧
          state' = state.push unicode [recordAt scope logicalPath entry] targetCounts := by
  cases entry with
  | directory winningScopeOrdinal mountId path =>
      constructor
      · intro h
        obtain ⟨state₁, hinsert, hadd⟩ := h
        obtain ⟨hpath, hkey, rfl⟩ := insertMaterializedPath_eq_ok.mp hinsert
        obtain ⟨targetCounts, hcounts, rfl⟩ := addDirectory_eq_ok.mp hadd
        refine ⟨trivial, admitted_one.mpr ⟨hpath, hkey, fun _ h => nomatch h⟩, targetCounts,
          hcounts, ?_⟩
        rw [PlanState.push, List.flatMap_singleton, List.flatMap_singleton]
        exact congrArg (PlanState.mk _ _ · _ _ _) (List.append_nil _).symm
      · intro h
        obtain ⟨-, hadmitted, targetCounts, hcounts, rfl⟩ := h
        obtain ⟨hpath, hkey, -⟩ := admitted_one.mp hadmitted
        refine ⟨_, insertMaterializedPath_eq_ok.mpr ⟨hpath, hkey, rfl⟩,
          addDirectory_eq_ok.mpr ⟨targetCounts, hcounts, ?_⟩⟩
        rw [PlanState.push, List.flatMap_singleton, List.flatMap_singleton]
        exact congrArg (PlanState.mk _ _ · _ _ _) (List.append_nil _)
  | file winningScopeOrdinal mountId path metadata =>
      constructor
      · intro h
        obtain ⟨state₁, hinsert, hadd⟩ := h
        obtain ⟨hpath, hkey, rfl⟩ := insertMaterializedPath_eq_ok.mp hinsert
        obtain ⟨hallowed, hprojection, targetCounts, hcounts, rfl⟩ := addFile_eq_ok.mp hadd
        refine ⟨hallowed, admitted_one.mpr ⟨hpath, hkey, fun id hid => ?_⟩, targetCounts,
          hcounts, ?_⟩
        · exact Option.some.inj hid ▸ hprojection
        · rw [PlanState.push, List.flatMap_singleton, List.flatMap_singleton]
          exact congrArg (PlanState.mk _ · _ _ _ _) (List.append_nil _).symm
      · intro h
        obtain ⟨hallowed, hadmitted, targetCounts, hcounts, rfl⟩ := h
        obtain ⟨hpath, hkey, hprojection⟩ := admitted_one.mp hadmitted
        refine ⟨_, insertMaterializedPath_eq_ok.mpr ⟨hpath, hkey, rfl⟩,
          addFile_eq_ok.mpr ⟨hallowed, hprojection _ rfl, targetCounts, hcounts, ?_⟩⟩
        rw [PlanState.push, List.flatMap_singleton, List.flatMap_singleton]
        exact congrArg (PlanState.mk _ · _ _ _ _) (List.append_nil _)

/-- One entry: it becomes a record, which is admitted and counted. -/
theorem addEntry_eq_ok {plan : PlanScope} {state state' : PlanState}
    {entry : WorkspaceAuthorizedExportEntry} :
    PlanState.addEntry unicode plan state entry = .ok state' ↔
      ∃ record targetCounts, Becomes unicode plan entry record ∧
        Admitted unicode state [record] ∧
        countMember state.targetCounts record = some targetCounts ∧
        state' = state.push unicode [record] targetCounts := by
  unfold PlanState.addEntry
  constructor
  · intro h
    split at h
    · exact nomatch h
    · rename_i scope hscope
      obtain ⟨_, hmount, h⟩ := bind_eq_ok.mp h
      obtain ⟨logicalPath, hlogical, h⟩ := bind_eq_ok.mp h
      obtain ⟨_, hregular, h⟩ := bind_eq_ok.mp h
      obtain ⟨hallowed, hadmitted, targetCounts, hcounts, hpush⟩ :=
        addMember_eq_ok.mp (bind_eq_ok.mp h)
      exact ⟨_, targetCounts, ⟨scope, logicalPath, hscope, not_not.mp (failIf_eq_ok.mp hmount),
        hlogical, hregular, hallowed, rfl⟩, hadmitted, hcounts, hpush⟩
  · intro h
    obtain ⟨_, targetCounts, hbecomes, hadmitted, hcounts, hpush⟩ := h
    obtain ⟨scope, logicalPath, hscope, hmount, hlogical, hregular, hallowed, rfl⟩ := hbecomes
    rw [hscope]
    exact bind_eq_ok.mpr ⟨(), failIf_eq_ok.mpr (not_not.mpr hmount), bind_eq_ok.mpr ⟨logicalPath,
      hlogical, bind_eq_ok.mpr ⟨(), hregular, bind_eq_ok.mpr (addMember_eq_ok.mpr
        ⟨hallowed, hadmitted, targetCounts, hcounts, hpush⟩)⟩⟩⟩

/-- All entries: they become records, which are admitted together and counted. -/
theorem addEntries_eq_ok {plan : PlanScope} {state state' : PlanState}
    {entries : List WorkspaceAuthorizedExportEntry} :
    entries.foldlM (PlanState.addEntry unicode plan) state = .ok state' ↔
      ∃ records targetCounts, List.Forall₂ (Becomes unicode plan) entries records ∧
        Admitted unicode state records ∧
        records.foldlM countMember state.targetCounts = some targetCounts ∧
        state' = state.push unicode records targetCounts := by
  induction entries generalizing state with
  | nil =>
      constructor
      · intro h
        cases h
        exact ⟨[], state'.targetCounts, .nil, ⟨fresh_nil _, fresh_nil _, fresh_nil _⟩, rfl,
          (push_nil state').symm⟩
      · intro h
        obtain ⟨records, targetCounts, hbecome, -, hcounts, rfl⟩ := h
        cases hbecome
        cases hcounts
        exact congrArg Except.ok (push_nil state).symm
  | cons entry entries ih =>
      rw [List.foldlM_cons, bind_eq_ok]
      constructor
      · intro h
        obtain ⟨state₁, hfirst, hrest⟩ := h
        obtain ⟨record, targetCounts₁, hbecomes, hadmitted, hcounts, rfl⟩ :=
          addEntry_eq_ok.mp hfirst
        obtain ⟨records, targetCounts, hbecome, hadmitted', hcounts', rfl⟩ := ih.mp hrest
        refine ⟨record :: records, targetCounts, .cons hbecomes hbecome,
          admitted_cons.mpr ⟨hadmitted, hadmitted'⟩, ?_, push_push⟩
        rw [List.foldlM_cons, hcounts]
        exact hcounts'
      · intro h
        obtain ⟨records, targetCounts, hbecome, hadmitted, hcounts, rfl⟩ := h
        cases hbecome with
        | cons hbecomes hbecome =>
            rw [List.foldlM_cons] at hcounts
            obtain ⟨targetCounts₁, hcounts₁, hcounts⟩ := Option.bind_eq_some_iff.mp hcounts
            obtain ⟨hone, hrest⟩ := admitted_cons.mp hadmitted
            exact ⟨_, addEntry_eq_ok.mpr ⟨_, targetCounts₁, hbecomes, hone, hcounts₁, rfl⟩,
              ih.mpr ⟨_, targetCounts, hbecome, hrest, hcounts, push_push.symm⟩⟩

/-! ## The targets -/

theorem start_eq_ok {entries : List SessionLayoutEntry} {state : PlanState} :
    PlanState.start unicode entries = .ok state ↔
      ((uniqueTargets entries).map fun target => target.2.value).Nodup ∧
        ((uniqueTargets entries).map fun target => collisionKey unicode target.2.value).Nodup ∧
        state = {
          targetCounts := (uniqueTargets entries).map fun (mountId, target) =>
            ⟨mountId, target, 1, 0, 0⟩
          directories := (uniqueTargets entries).map fun (mountId, target) =>
            .targetDirectory mountId target target.value
          files := []
          paths := ((uniqueTargets entries).map fun target => target.2.value).reverse
          collisionKeys :=
            ((uniqueTargets entries).map fun target => collisionKey unicode target.2.value).reverse
          projectionIds := [] } := by
  have hrun : ∀ (targets : List (PortableMountId × MountTarget)) (state state' : PlanState),
      targets.foldlM (fun (state : PlanState) (_, target) =>
        state.insertMaterializedPath unicode target.value) state = .ok state' ↔
      Fresh (targets.map fun target => target.2.value) state.paths ∧
        Fresh (targets.map fun target => collisionKey unicode target.2.value)
          state.collisionKeys ∧
        state' = { state with
          paths := (targets.map fun target => target.2.value).reverse ++ state.paths
          collisionKeys := (targets.map fun target => collisionKey unicode target.2.value).reverse ++
            state.collisionKeys } := by
    intro targets
    induction targets with
    | nil =>
        intro state state'
        exact ⟨fun h => ⟨fresh_nil _, fresh_nil _, (Except.ok.inj h).symm⟩,
          fun h => congrArg Except.ok h.2.2.symm⟩
    | cons target targets ih =>
        intro state state'
        rw [List.foldlM_cons, bind_eq_ok, List.map_cons, List.map_cons, fresh_cons, fresh_cons]
        constructor
        · intro h
          obtain ⟨state₁, hfirst, hrest⟩ := h
          obtain ⟨hpath, hkey, rfl⟩ := insertMaterializedPath_eq_ok.mp hfirst
          obtain ⟨hpaths, hkeys, rfl⟩ := (ih _ _).mp hrest
          refine ⟨⟨hpath, hpaths⟩, ⟨hkey, hkeys⟩, ?_⟩
          simp only [List.reverse_cons, List.append_assoc, List.cons_append, List.nil_append]
        · intro h
          obtain ⟨⟨hpath, hpaths⟩, ⟨hkey, hkeys⟩, rfl⟩ := h
          refine ⟨_, insertMaterializedPath_eq_ok.mpr ⟨hpath, hkey, rfl⟩,
            (ih _ _).mpr ⟨hpaths, hkeys, ?_⟩⟩
          simp only [List.reverse_cons, List.append_assoc, List.cons_append, List.nil_append]
  have hfresh : ∀ values : List Text, Fresh values [] ↔ values.Nodup :=
    fun values => and_iff_left fun _ _ h => nomatch h
  rw [PlanState.start, hrun, hfresh, hfresh]
  simp only [List.append_nil]

/-! ## The plan as a whole -/

variable {sha256 : List UInt8 → List UInt8}

/-- What is left of the plan once its members are in order. -/
def finishPlan (sha256 : List UInt8 → List UInt8)
    (scopeSources : List WorkspaceScopeSourceAuthority)
    (targetCounts : List WorkspaceTargetDirectory)
    (directories : List WorkspaceNamespacedExportRecord) (files : List WorkspaceFileRecord) :
    ExportResult WorkspaceNamespacedInventory := do
  validateParentDirectories directories files
  let records := inventoryRecords directories files
  let (directoryCount, fileCount, selectedContentBytes) ← orOverflow (sumTargetCounts targetCounts)
  let archiveEntryCount ← orOverflow do
    let count ← checkedAdd directoryCount fileCount
    checkedAdd count 1
  let preimage ← canonicalInventoryPreimage scopeSources records
  return {
    scopeSources := scopeSources
    targetDirectories := targetCounts
    records := records
    controlEntryCount := 1
    fileCount := fileCount
    directoryCount := directoryCount
    archiveEntryCount := archiveEntryCount
    selectedContentBytes := selectedContentBytes
    inventorySha256 := sha256Label sha256 preimage }

/-- What the entries of a session are planned against. -/
def planScope (sessionLayout : SessionLayout) (offer : WorkspaceExportOffer)
    (scopeSources : List WorkspaceScopeSourceAuthority) : PlanScope :=
  ⟨sessionLayout.entries, offeredSources offer, scopeSources⟩

/-- The directories of a plan, in order: the targets, and those of records. -/
def planDirectories (start : PlanState) (records : List WorkspaceNamespacedExportRecord) :
    List WorkspaceNamespacedExportRecord :=
  sortedDirectories (start.directories ++ records.flatMap asDirectory)

def planFiles (records : List WorkspaceNamespacedExportRecord) : List WorkspaceFileRecord :=
  sortedFiles (records.flatMap asFile)

/-- The entries become records that are admitted together and counted. -/
structure Planned (unicode : UnicodeTables) (plan : PlanScope) (start : PlanState)
    (entries : List WorkspaceAuthorizedExportEntry)
    (records : List WorkspaceNamespacedExportRecord)
    (targetCounts : List WorkspaceTargetDirectory) : Prop where
  started : PlanState.start unicode plan.entries = .ok start
  become : List.Forall₂ (Becomes unicode plan) entries records
  admitted : Admitted unicode start records
  counted : records.foldlM countMember start.targetCounts = some targetCounts

variable {sessionLayout : SessionLayout} {offer : WorkspaceExportOffer}
    {scopeSources : List WorkspaceScopeSourceAuthority}
    {entries entries' : List WorkspaceAuthorizedExportEntry}
    {inventory : WorkspaceNamespacedInventory}

theorem planInventory_eq_ok :
    planInventory unicode sha256 sessionLayout offer scopeSources entries = .ok inventory ↔
      validateScopeSourceAuthorities sessionLayout offer scopeSources = .ok () ∧
        ∃ start records targetCounts,
          Planned unicode (planScope sessionLayout offer scopeSources) start entries records
            targetCounts ∧
          finishPlan sha256 scopeSources targetCounts (planDirectories start records)
            (planFiles records) = .ok inventory := by
  have hplan : planInventory unicode sha256 sessionLayout offer scopeSources entries = (do
      validateScopeSourceAuthorities sessionLayout offer scopeSources
      let start ← PlanState.start unicode sessionLayout.entries
      let state ← entries.foldlM (PlanState.addEntry unicode
        (planScope sessionLayout offer scopeSources)) start
      finishPlan sha256 scopeSources state.targetCounts (sortedDirectories state.directories)
        (sortedFiles state.files)) := rfl
  rw [hplan]
  constructor
  · intro h
    obtain ⟨_, hsources, h⟩ := bind_eq_ok.mp h
    obtain ⟨start, hstart, h⟩ := bind_eq_ok.mp h
    obtain ⟨state, hentries, h⟩ := bind_eq_ok.mp h
    obtain ⟨records, targetCounts, hbecome, hadmitted, hcounts, rfl⟩ := addEntries_eq_ok.mp hentries
    have hfiles : start.files = [] := by
      obtain ⟨-, -, rfl⟩ := start_eq_ok.mp hstart
      rfl
    rw [PlanState.push, hfiles] at h
    exact ⟨hsources, start, records, targetCounts, ⟨hstart, hbecome, hadmitted, hcounts⟩, h⟩
  · intro h
    obtain ⟨hsources, start, records, targetCounts, hplanned, h⟩ := h
    have hfiles : start.files = [] := by
      obtain ⟨-, -, rfl⟩ := start_eq_ok.mp hplanned.started
      rfl
    refine bind_eq_ok.mpr ⟨(), hsources, bind_eq_ok.mpr ⟨start, hplanned.started, bind_eq_ok.mpr
      ⟨_, addEntries_eq_ok.mpr ⟨records, targetCounts, hplanned.become, hplanned.admitted,
        hplanned.counted, rfl⟩, ?_⟩⟩⟩
    rw [PlanState.push, hfiles]
    exact h

/-! ## Any order of the entries -/

theorem memberPath_asDirectory_sublist (records : List WorkspaceNamespacedExportRecord) :
    ((records.flatMap asDirectory).map WorkspaceNamespacedExportRecord.memberPath).Sublist
      (records.map WorkspaceNamespacedExportRecord.memberPath) := by
  induction records with
  | nil => exact List.Sublist.refl _
  | cons record records ih =>
      rw [List.flatMap_cons, List.map_append, List.map_cons]
      cases record with
      | file record => exact ih.cons _
      | targetDirectory mountId target memberPath => exact ih.cons_cons _
      | directory winningScopeOrdinal mountId target logicalPath memberPath => exact ih.cons_cons _
      | control memberPath => exact ih.cons_cons _

theorem projectionId_asFile (records : List WorkspaceNamespacedExportRecord) :
    (records.flatMap asFile).map (fun record => record.metadata.projectionId) =
      records.filterMap projection? := by
  induction records with
  | nil => rfl
  | cons record records ih =>
      rw [List.flatMap_cons, List.map_append, ih]
      cases record with
      | file record => rfl
      | targetDirectory mountId target memberPath => rfl
      | directory winningScopeOrdinal mountId target logicalPath memberPath => rfl
      | control memberPath => rfl

variable {plan : PlanScope} {start : PlanState}
    {records records' : List WorkspaceNamespacedExportRecord}
    {targetCounts : List WorkspaceTargetDirectory}

/-- The directories of a plan have distinct paths. -/
theorem Planned.nodup_directories
    (h : Planned unicode plan start entries records targetCounts) :
    ((start.directories ++ records.flatMap asDirectory).map
      WorkspaceNamespacedExportRecord.memberPath).Nodup := by
  obtain ⟨hpaths, -, hstart⟩ := start_eq_ok.mp h.started
  have htargets : start.directories.map WorkspaceNamespacedExportRecord.memberPath =
      (uniqueTargets plan.entries).map fun target => target.2.value := by
    rw [hstart, List.map_map]
    rfl
  have hknown : ∀ path ∈ start.directories.map WorkspaceNamespacedExportRecord.memberPath,
      path ∈ start.paths := by
    intro path hmem
    rw [htargets] at hmem
    rw [hstart]
    exact List.mem_reverse.mpr hmem
  have hsub := memberPath_asDirectory_sublist records
  rw [List.map_append]
  refine List.Nodup.append (htargets ▸ hpaths) (h.admitted.paths.1.sublist hsub) ?_
  intro path hmem hmem'
  exact h.admitted.paths.2 path (hsub.subset hmem') (hknown path hmem)

theorem nodup_directoryRank {directories : List WorkspaceNamespacedExportRecord}
    (h : (directories.map WorkspaceNamespacedExportRecord.memberPath).Nodup) :
    (directories.map directoryRank).Nodup := by
  have hrank : directories.map directoryRank =
      (directories.map WorkspaceNamespacedExportRecord.memberPath).map fun path =>
        (toLex ((splitSlash path).length, byteOrder path) : Nat ×ₗ List Nat) := by
    rw [List.map_map]
    rfl
  rw [hrank]
  refine h.map fun path path' hsame => ?_
  exact byteOrder_injective (congrArg (fun rank : Nat ×ₗ List Nat => (ofLex rank).2) hsame)

theorem nodup_fileRank {files : List WorkspaceFileRecord}
    (h : (files.map fun record => record.metadata.projectionId).Nodup) :
    (files.map fileRank).Nodup := by
  have hvalues : (files.map fun record => byteOrder record.metadata.projectionId.value).Nodup := by
    have hmap : files.map (fun record => byteOrder record.metadata.projectionId.value) =
        (files.map fun record => record.metadata.projectionId).map fun id =>
          byteOrder id.value := by
      rw [List.map_map]
      rfl
    rw [hmap]
    refine h.map fun id id' hsame => ?_
    obtain ⟨value⟩ := id
    obtain ⟨value'⟩ := id'
    exact congrArg ProjectionId.mk (byteOrder_injective hsame)
  refine List.Nodup.of_map
    (fun rank : Nat ×ₗ WithBot (List Nat) ×ₗ List Nat ×ₗ List Nat =>
      (ofLex (ofLex (ofLex rank).2).2).2) ?_
  rw [List.map_map]
  exact hvalues

theorem Planned.directories_perm (h : Planned unicode plan start entries records targetCounts)
    (hperm : records.Perm records') :
    planDirectories start records = planDirectories start records' :=
  insertionSort_eq_of_perm ((hperm.flatMap_right _).append_left _)
    (nodup_directoryRank h.nodup_directories)

theorem Planned.files_perm (h : Planned unicode plan start entries records targetCounts)
    (hperm : records.Perm records') : planFiles records = planFiles records' := by
  refine insertionSort_eq_of_perm (hperm.flatMap_right _) (nodup_fileRank ?_)
  rw [projectionId_asFile]
  exact h.admitted.projectionIds.1

/-- The plan of the entries in one order is that of the entries in any other. -/
theorem planInventory_perm (hperm : entries.Perm entries')
    (h : planInventory unicode sha256 sessionLayout offer scopeSources entries = .ok inventory) :
    planInventory unicode sha256 sessionLayout offer scopeSources entries' = .ok inventory := by
  obtain ⟨hsources, start, records, targetCounts, hplanned, hfinish⟩ := planInventory_eq_ok.mp h
  obtain ⟨records', hbecome, hrecords⟩ := List.perm_comp_forall₂ hperm.symm hplanned.become
  refine planInventory_eq_ok.mpr ⟨hsources, start, records', targetCounts,
    ⟨hplanned.started, hbecome, hplanned.admitted.perm hrecords.symm, ?_⟩, ?_⟩
  · rw [← hplanned.counted]
    exact countMembers_perm hrecords _
  · rw [← hplanned.directories_perm hrecords.symm, ← hplanned.files_perm hrecords.symm]
    exact hfinish

end Unicode

end WorkspaceExport

end Locality.Protocol
