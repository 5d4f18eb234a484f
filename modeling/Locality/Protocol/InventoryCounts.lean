/-
  Protocol/InventoryCounts.lean --- the targets of a session, and the counts of a planned
  inventory: they are those of its records.

  Every record is counted for one target, and what the targets count is added up; nothing
  overflows on the way, or there is no plan.
-/
import Locality.Protocol.InventoryPlan
import Locality.Protocol.LayoutAgreement
import Mathlib.Algebra.BigOperators.Group.List.Basic

set_option autoImplicit false

namespace Locality.Protocol

open Locality.Core Locality.Foundation Scope

namespace WorkspaceExport

/-! ## The targets of a session -/

/-- A mount has the target of one of its entries, or the one that it had before. -/
theorem getElem?_foldl_insert (entries : List SessionLayoutEntry) (targets : TargetByMount)
    (id : PortableMountId) :
    (∃ entry ∈ entries, entry.mountId = id ∧
      (entries.foldl (fun (targets : TargetByMount) entry =>
        targets.insert entry.mountId entry.target) targets)[id]? = some entry.target) ∨
    ((∀ entry ∈ entries, entry.mountId ≠ id) ∧
      (entries.foldl (fun (targets : TargetByMount) entry =>
        targets.insert entry.mountId entry.target) targets)[id]? = targets[id]?) := by
  induction entries generalizing targets with
  | nil => exact Or.inr ⟨nofun, rfl⟩
  | cons first entries ih =>
      rw [List.foldl_cons]
      obtain ⟨entry, hmem, hid, hfound⟩ | ⟨hnone, hkept⟩ :=
        ih (targets.insert first.mountId first.target)
      · exact Or.inl ⟨entry, List.mem_cons_of_mem _ hmem, hid, hfound⟩
      · rw [Std.TreeMap.getElem?_insert] at hkept
        by_cases hid : first.mountId = id
        · subst hid
          rw [if_pos (mountOrder_self _)] at hkept
          exact Or.inl ⟨first, List.mem_cons_self, rfl, hkept⟩
        · rw [if_neg fun heq => hid (Std.LawfulEqCmp.eq_of_compare heq)] at hkept
          exact Or.inr ⟨List.forall_mem_cons.mpr ⟨hid, hnone⟩, hkept⟩

variable {entries : List SessionLayoutEntry}

theorem mem_uniqueTargets {id : PortableMountId} {target : MountTarget} :
    (id, target) ∈ uniqueTargets entries ↔
      (entries.foldl (fun (targets : TargetByMount) entry =>
        targets.insert entry.mountId entry.target) ∅)[id]? = some target :=
  Std.TreeMap.mem_toList_iff_getElem?_eq_some

theorem exists_of_mem_uniqueTargets {id : PortableMountId} {target : MountTarget}
    (h : (id, target) ∈ uniqueTargets entries) :
    ∃ entry ∈ entries, entry.mountId = id ∧ entry.target = target := by
  have hfound := mem_uniqueTargets.mp h
  obtain ⟨entry, hmem, hid, hentry⟩ | ⟨-, hnone⟩ := getElem?_foldl_insert entries ∅ id
  · exact ⟨entry, hmem, hid, Option.some.inj (hentry.symm.trans hfound)⟩
  · rw [hnone, Std.TreeMap.getElem?_emptyc] at hfound
    exact nomatch hfound

/-- The mount of an entry has a target, that of an entry of the same mount. -/
theorem exists_mem_uniqueTargets {entry : SessionLayoutEntry} (h : entry ∈ entries) :
    ∃ entry' ∈ entries, entry'.mountId = entry.mountId ∧
      (entry.mountId, entry'.target) ∈ uniqueTargets entries := by
  obtain ⟨entry', hmem, hid, hfound⟩ | ⟨hnone, -⟩ :=
    getElem?_foldl_insert entries ∅ entry.mountId
  · exact ⟨entry', hmem, hid, mem_uniqueTargets.mpr hfound⟩
  · exact absurd rfl (hnone entry h)

theorem nodup_uniqueTargets (entries : List SessionLayoutEntry) :
    ((uniqueTargets entries).map Prod.fst).Nodup := by
  refine List.pairwise_map.mpr (List.Pairwise.imp ?_ Std.TreeMap.ordered_keys_toList)
  intro target target' hlt hsame
  rw [hsame, mountOrder_self] at hlt
  exact nomatch hlt

/-- Entries that were collected name one target for each mount. -/
theorem consistent_of_collectTargets {index : Nat} {targets collected : TargetByMount}
    (h : collectTargets index targets entries = .ok collected) :
    (∀ (id : PortableMountId) (target : MountTarget), targets[id]? = some target →
      collected[id]? = some target) ∧
    ∀ entry ∈ entries, collected[entry.mountId]? = some entry.target := by
  induction entries generalizing index targets with
  | nil =>
      cases h
      exact ⟨fun _ _ htarget => htarget, nofun⟩
  | cons entry entries ih =>
      rw [collectTargets] at h
      obtain ⟨expected, -, h⟩ := bind_eq_ok.mp h
      obtain ⟨-, h⟩ := ite_throw_eq_ok.mp h
      cases hfound : targets[entry.mountId]? with
      | some existing =>
          rw [hfound] at h
          obtain ⟨hsame, hrest⟩ := ite_throw_eq_ok.mp h
          obtain rfl := not_not.mp hsame
          obtain ⟨hkept, hentries⟩ := ih hrest
          exact ⟨hkept, List.forall_mem_cons.mpr ⟨hkept _ _ hfound, hentries⟩⟩
      | none =>
          rw [hfound] at h
          obtain ⟨hkept, hentries⟩ := ih h
          have hinsert := getElem?_insert_new hfound
          refine ⟨fun id target htarget => hkept id target ((hinsert id target).mpr
            (Or.inl htarget)), List.forall_mem_cons.mpr ⟨hkept _ _ ?_, hentries⟩⟩
          exact (hinsert _ _).mpr (Or.inr ⟨rfl, rfl⟩)

/-- In a session that was validated, the target of each entry is that of its mount. -/
theorem target_mem_uniqueTargets {unicode : UnicodeTables} {sha256 : List UInt8 → List UInt8}
    {session : WorkspaceProfileSession} (h : session.validate unicode sha256 = .ok ())
    {entry : SessionLayoutEntry} (hmem : entry ∈ session.sessionLayout.entries) :
    (entry.mountId, entry.target) ∈ uniqueTargets session.sessionLayout.entries := by
  obtain ⟨_, -, h⟩ := bind_eq_ok.mp h
  obtain ⟨_, -, h⟩ := bind_eq_ok.mp h
  obtain ⟨_, -, h⟩ := bind_eq_ok.mp h
  obtain ⟨_, -, h⟩ := bind_eq_ok.mp h
  obtain ⟨_, -, h⟩ := bind_eq_ok.mp h
  have hcontext : session.sessionLayout.verifyProfileContext unicode sha256 session.profileId
      session.profileRevision = .ok () := by
    cases hresult : session.sessionLayout.verifyProfileContext unicode sha256 session.profileId
        session.profileRevision with
    | ok u => rfl
    | error error =>
        rw [hresult] at h
        exact nomatch h
  obtain ⟨mounts, -, hentries, -⟩ := SessionLayout.verifyProfileContext_ok hcontext
  obtain ⟨_, -, hentries⟩ := bind_eq_ok.mp hentries
  obtain ⟨collected, hcollected, -⟩ := bind_eq_ok.mp hentries
  have hconsistent := (consistent_of_collectTargets hcollected).2
  obtain ⟨entry', hmem', hid, htarget⟩ := exists_mem_uniqueTargets hmem
  have hsame := (hconsistent entry hmem).symm.trans (hid ▸ hconsistent entry' hmem')
  rw [Option.some.inj hsame]
  exact htarget

/-! ## Counting -/

section Measure

variable {measure : WorkspaceTargetDirectory → Nat}
  {amount : WorkspaceNamespacedExportRecord → Nat}

/-- A measure of counts grows by an amount with each record. -/
def GrowsBy (measure : WorkspaceTargetDirectory → Nat)
    (amount : WorkspaceNamespacedExportRecord → Nat) : Prop :=
  ∀ record counts counts', countRecord counts record = some counts' →
    measure counts' = measure counts + amount record

variable {record : WorkspaceNamespacedExportRecord}
  {targets targets' : List WorkspaceTargetDirectory}

/-- The mount of counts, and its target. -/
def placeOf (counts : WorkspaceTargetDirectory) : PortableMountId × MountTarget :=
  (counts.mountId, counts.target)

theorem places_of_countMember (h : countMember targets record = some targets') :
    targets'.map placeOf = targets.map placeOf := by
  rw [countMember_eq] at h
  induction targets generalizing targets' with
  | nil =>
      cases h
      rfl
  | cons counts targets ih =>
      rw [List.mapM_cons] at h
      obtain ⟨counts', hcounts, h⟩ := Option.bind_eq_some_iff.mp h
      obtain ⟨rest, hrest, h⟩ := Option.bind_eq_some_iff.mp h
      cases h
      rw [List.map_cons, List.map_cons, ih hrest]
      congr 1
      rw [countFor] at hcounts
      split at hcounts
      · obtain ⟨-, rfl⟩ := countRecord_eq_some.mp hcounts
        rfl
      · cases hcounts
        rfl

theorem mountIds_of_countMember (h : countMember targets record = some targets') :
    targets'.map WorkspaceTargetDirectory.mountId =
      targets.map WorkspaceTargetDirectory.mountId := by
  have hplaces := congrArg (List.map Prod.fst) (places_of_countMember h)
  rwa [List.map_map, List.map_map] at hplaces

/-- Counting leaves the targets where they are. -/
theorem places_of_countMembers {records : List WorkspaceNamespacedExportRecord}
    (h : records.foldlM countMember targets = some targets') :
    targets'.map placeOf = targets.map placeOf := by
  induction records generalizing targets with
  | nil =>
      cases h
      rfl
  | cons record records ih =>
      rw [List.foldlM_cons] at h
      obtain ⟨next, hnext, h⟩ := Option.bind_eq_some_iff.mp h
      rw [ih h, places_of_countMember hnext]

/-- Targets that a record does not concern stay as they are. -/
theorem countMember_of_not_concerns
    (hnot : ∀ counts ∈ targets, ¬ concerns record counts.mountId) :
    countMember targets record = some targets := by
  rw [countMember_eq]
  induction targets with
  | nil => rfl
  | cons counts targets ih =>
      obtain ⟨hfirst, hrest⟩ := List.forall_mem_cons.mp hnot
      rw [List.mapM_cons, ih hrest, countFor, if_neg hfirst]
      rfl

theorem concerns_unique {id id' : PortableMountId} (h : concerns record id)
    (h' : concerns record id') : id = id' := by
  cases record with
  | directory winningScopeOrdinal mountId target logicalPath memberPath =>
      exact (show id = mountId from h).trans (show id' = mountId from h').symm
  | file file => exact (show id = file.mountId from h).trans (show id' = file.mountId from h').symm
  | targetDirectory mountId target memberPath => exact h.elim
  | control memberPath => exact h.elim

/-- One record is counted for one target. -/
theorem sum_countMember (hgrows : GrowsBy measure amount)
    (hnodup : (targets.map WorkspaceTargetDirectory.mountId).Nodup)
    (hmem : ∃ counts ∈ targets, concerns record counts.mountId)
    (h : countMember targets record = some targets') :
    (targets'.map measure).sum = (targets.map measure).sum + amount record := by
  induction targets generalizing targets' with
  | nil =>
      obtain ⟨counts, hcounts, -⟩ := hmem
      exact nomatch hcounts
  | cons counts targets ih =>
      rw [countMember_eq, List.mapM_cons] at h
      obtain ⟨counts', hcounts, h⟩ := Option.bind_eq_some_iff.mp h
      obtain ⟨rest, hrest, h⟩ := Option.bind_eq_some_iff.mp h
      cases h
      rw [← countMember_eq] at hrest
      obtain ⟨hnot, hnodup⟩ := List.nodup_cons.mp hnodup
      rw [List.map_cons, List.map_cons, List.sum_cons, List.sum_cons]
      by_cases hfirst : concerns record counts.mountId
      · have hothers : ∀ other ∈ targets, ¬ concerns record other.mountId := by
          intro other hother hconcerns
          refine hnot ?_
          rw [concerns_unique hfirst hconcerns]
          exact List.mem_map_of_mem hother
        rw [countMember_of_not_concerns hothers] at hrest
        obtain rfl := Option.some.inj hrest
        rw [countFor, if_pos hfirst] at hcounts
        rw [hgrows record counts counts' hcounts]
        omega
      · rw [countFor, if_neg hfirst] at hcounts
        obtain rfl := Option.some.inj hcounts
        obtain ⟨other, hother, hconcerns⟩ := hmem
        obtain rfl | hother := List.mem_cons.mp hother
        · exact absurd hconcerns hfirst
        · rw [ih hnodup ⟨other, hother, hconcerns⟩ hrest]
          omega

/-- Records are counted for one target each. -/
theorem sum_countMembers {records : List WorkspaceNamespacedExportRecord}
    (hgrows : GrowsBy measure amount)
    (hnodup : (targets.map WorkspaceTargetDirectory.mountId).Nodup)
    (hmem : ∀ record ∈ records, ∃ id ∈ targets.map WorkspaceTargetDirectory.mountId,
      concerns record id)
    (h : records.foldlM countMember targets = some targets') :
    (targets'.map measure).sum = (targets.map measure).sum + (records.map amount).sum := by
  induction records generalizing targets with
  | nil =>
      cases h
      rfl
  | cons record records ih =>
      rw [List.foldlM_cons] at h
      obtain ⟨next, hnext, h⟩ := Option.bind_eq_some_iff.mp h
      obtain ⟨hrecord, hrecords⟩ := List.forall_mem_cons.mp hmem
      have hids := mountIds_of_countMember hnext
      rw [← hids] at hrecords
      rw [ih (hids ▸ hnodup) hrecords h]
      obtain ⟨id, hid, hconcerns⟩ := hrecord
      obtain ⟨counts, hcounts, rfl⟩ := List.mem_map.mp hid
      rw [sum_countMember hgrows hnodup ⟨counts, hcounts, hconcerns⟩ hnext, List.map_cons,
        List.sum_cons, Nat.add_assoc]

end Measure

theorem checkedAdd_toNat {n m total : UInt64} (h : checkedAdd n m = some total) :
    total.toNat = n.toNat + m.toNat := by
  obtain ⟨hfits, rfl⟩ := checkedAdd_eq_some.mp h
  rw [UInt64.toNat_add, Nat.mod_eq_of_lt hfits]

theorem sumTargetCounts_toNat {targets : List WorkspaceTargetDirectory}
    {directories files bytes : UInt64}
    (h : sumTargetCounts targets = some (directories, files, bytes)) :
    directories.toNat = (targets.map fun counts => counts.directoryCount.toNat).sum ∧
      files.toNat = (targets.map fun counts => counts.fileCount.toNat).sum ∧
      bytes.toNat = (targets.map fun counts => counts.contentBytes.toNat).sum := by
  have hrun : ∀ (targets : List WorkspaceTargetDirectory) (total total' : UInt64 × UInt64 × UInt64),
      targets.foldlM (fun total target => do
        let directories ← checkedAdd total.1 target.directoryCount
        let files ← checkedAdd total.2.1 target.fileCount
        let bytes ← checkedAdd total.2.2 target.contentBytes
        return (directories, files, bytes)) total = some total' →
      total'.1.toNat = total.1.toNat +
          (targets.map fun counts => counts.directoryCount.toNat).sum ∧
        total'.2.1.toNat = total.2.1.toNat +
          (targets.map fun counts => counts.fileCount.toNat).sum ∧
        total'.2.2.toNat = total.2.2.toNat +
          (targets.map fun counts => counts.contentBytes.toNat).sum := by
    intro targets
    induction targets with
    | nil =>
        intro total total' h
        cases h
        exact ⟨rfl, rfl, rfl⟩
    | cons counts targets ih =>
        intro total total' h
        obtain ⟨directories₀, files₀, bytes₀⟩ := total
        rw [List.foldlM_cons] at h
        obtain ⟨next, hnext, h⟩ := Option.bind_eq_some_iff.mp h
        obtain ⟨directories, hdirectories, hnext⟩ := Option.bind_eq_some_iff.mp hnext
        obtain ⟨files, hfiles, hnext⟩ := Option.bind_eq_some_iff.mp hnext
        obtain ⟨bytes, hbytes, hnext⟩ := Option.bind_eq_some_iff.mp hnext
        cases hnext
        obtain ⟨hd, hf, hb⟩ := ih _ _ h
        rw [checkedAdd_toNat hdirectories] at hd
        rw [checkedAdd_toNat hfiles] at hf
        rw [checkedAdd_toNat hbytes] at hb
        simp only [List.map_cons, List.sum_cons]
        dsimp only at hd hf hb
        exact ⟨by omega, by omega, by omega⟩
  obtain ⟨hd, hf, hb⟩ := hrun targets (0, 0, 0) (directories, files, bytes) h
  exact ⟨hd.trans (Nat.zero_add _), hf.trans (Nat.zero_add _), hb.trans (Nat.zero_add _)⟩

/-! ## The counts of records -/

/-- What a record stands for in an archive: directories, files and bytes. -/
def directoriesIn : WorkspaceNamespacedExportRecord → Nat
  | .targetDirectory _ _ _ | .directory _ _ _ _ _ => 1
  | .file _ | .control _ => 0

def filesIn : WorkspaceNamespacedExportRecord → Nat
  | .file _ => 1
  | _ => 0

def bytesIn : WorkspaceNamespacedExportRecord → Nat
  | .file record => record.metadata.byteLength.toNat
  | _ => 0

theorem growsBy_directories :
    GrowsBy (fun counts => counts.directoryCount.toNat) fun record => (added record).1.toNat := by
  intro record counts counts' h
  obtain ⟨⟨hroom, -, -⟩, rfl⟩ := countRecord_eq_some.mp h
  exact (UInt64.toNat_add _ _).trans (Nat.mod_eq_of_lt hroom)

theorem growsBy_files :
    GrowsBy (fun counts => counts.fileCount.toNat) fun record => (added record).2.1.toNat := by
  intro record counts counts' h
  obtain ⟨⟨-, hroom, -⟩, rfl⟩ := countRecord_eq_some.mp h
  exact (UInt64.toNat_add _ _).trans (Nat.mod_eq_of_lt hroom)

theorem growsBy_bytes :
    GrowsBy (fun counts => counts.contentBytes.toNat) fun record => (added record).2.2.toNat := by
  intro record counts counts' h
  obtain ⟨⟨-, -, hroom⟩, rfl⟩ := countRecord_eq_some.mp h
  exact (UInt64.toNat_add _ _).trans (Nat.mod_eq_of_lt hroom)

/-- Records of an archive are those of its directories, those of its files, and the
control: an amount is that of each part. -/
theorem sum_inventoryRecords (amount : WorkspaceNamespacedExportRecord → Nat)
    (start : PlanState) (records : List WorkspaceNamespacedExportRecord) :
    ((inventoryRecords (planDirectories start records) (planFiles records)).map amount).sum =
      (start.directories.map amount).sum +
        (records.map fun record => ((asDirectory record).map amount).sum +
          ((asFile record).map fun file => amount (.file file)).sum).sum +
        amount (.control reservedExportMetadataPath) := by
  have hparts : ((records.flatMap asDirectory).map amount).sum +
      ((records.flatMap asFile).map fun file => amount (.file file)).sum =
      (records.map fun record => ((asDirectory record).map amount).sum +
        ((asFile record).map fun file => amount (.file file)).sum).sum := by
    induction records with
    | nil => rfl
    | cons record records ih =>
        rw [List.flatMap_cons, List.flatMap_cons, List.map_append, List.map_append,
          List.sum_append, List.sum_append, List.map_cons, List.sum_cons, ← ih]
        omega
  have hdirectories : ((planDirectories start records).map amount).sum =
      (start.directories.map amount).sum + ((records.flatMap asDirectory).map amount).sum := by
    rw [planDirectories, sortedDirectories, ((List.perm_insertionSort _ _).map amount).sum_nat,
      List.map_append, List.sum_append]
  have hfiles : ((planFiles records).map fun file => amount (.file file)).sum =
      ((records.flatMap asFile).map fun file => amount (.file file)).sum := by
    rw [planFiles, sortedFiles, ((List.perm_insertionSort _ _).map _).sum_nat]
  rw [inventoryRecords, List.map_append, List.map_append, List.sum_append, List.sum_append,
    List.map_map, List.map_singleton, List.sum_singleton, hdirectories, ← hparts]
  have hcompose : ((planFiles records).map (amount ∘ WorkspaceNamespacedExportRecord.file)).sum =
      ((records.flatMap asFile).map fun file => amount (.file file)).sum := hfiles
  omega

section Plan

variable {unicode : UnicodeTables} {sha256 : List UInt8 → List UInt8}
  {sessionLayout : SessionLayout} {offer : WorkspaceExportOffer}
  {scopeSources : List WorkspaceScopeSourceAuthority}
  {authorized : List WorkspaceAuthorizedExportEntry} {inventory : WorkspaceNamespacedInventory}

/-- A record counts as the directory or the file that it stands for. -/
theorem amounts_of_becomes {plan : PlanScope} {entry : WorkspaceAuthorizedExportEntry}
    {record : WorkspaceNamespacedExportRecord} (h : Becomes unicode plan entry record) :
    ((asDirectory record).map directoriesIn).sum +
        ((asFile record).map fun file => directoriesIn (.file file)).sum =
      (added record).1.toNat ∧
    ((asDirectory record).map filesIn).sum +
        ((asFile record).map fun file => filesIn (.file file)).sum =
      (added record).2.1.toNat ∧
    ((asDirectory record).map bytesIn).sum +
        ((asFile record).map fun file => bytesIn (.file file)).sum =
      (added record).2.2.toNat ∧
    ((asDirectory record).map fun _ => 1).sum + ((asFile record).map fun _ => 1).sum =
      (added record).1.toNat + (added record).2.1.toNat := by
  obtain ⟨scope, logicalPath, -, -, -, -, -, rfl⟩ := h
  cases entry with
  | directory winningScopeOrdinal mountId path => exact ⟨rfl, rfl, rfl, rfl⟩
  | file winningScopeOrdinal mountId path metadata =>
      exact ⟨rfl, rfl, (Nat.zero_add _).trans (Nat.add_zero _), rfl⟩

/-- A record is counted for the mount of its scope. -/
theorem concerns_of_becomes {plan : PlanScope} {entry : WorkspaceAuthorizedExportEntry}
    {record : WorkspaceNamespacedExportRecord} (h : Becomes unicode plan entry record) :
    ∃ id ∈ (uniqueTargets plan.entries).map Prod.fst, concerns record id := by
  obtain ⟨scope, logicalPath, hscope, -, -, -, -, rfl⟩ := h
  have hscope : scope ∈ plan.entries := List.mem_reverse.mp (List.mem_of_find?_eq_some hscope)
  obtain ⟨scope', -, -, htarget⟩ := exists_mem_uniqueTargets hscope
  refine ⟨scope.mountId, List.mem_map.mpr ⟨_, htarget, rfl⟩, ?_⟩
  cases entry with
  | directory winningScopeOrdinal mountId path => exact rfl
  | file winningScopeOrdinal mountId path metadata => exact rfl

theorem sum_one (records : List WorkspaceNamespacedExportRecord) :
    (records.map fun _ => 1).sum = records.length := by
  induction records with
  | nil => rfl
  | cons record records ih =>
      rw [List.map_cons, List.sum_cons, ih, List.length_cons, Nat.add_comm]

theorem counts_of_plan
    (h : planInventory unicode sha256 sessionLayout offer scopeSources authorized =
      .ok inventory) :
    inventory.directoryCount.toNat = (inventory.records.map directoriesIn).sum ∧
      inventory.fileCount.toNat = (inventory.records.map filesIn).sum ∧
      inventory.selectedContentBytes.toNat = (inventory.records.map bytesIn).sum ∧
      inventory.archiveEntryCount.toNat = inventory.records.length := by
  obtain ⟨-, start, records, targetCounts, hplanned, hfinish⟩ := planInventory_eq_ok.mp h
  obtain ⟨_, -, hfinish⟩ := bind_eq_ok.mp hfinish
  obtain ⟨⟨directories, files, bytes⟩, hsum, hfinish⟩ := bind_eq_ok.mp hfinish
  obtain ⟨archiveEntries, harchive, hfinish⟩ := bind_eq_ok.mp hfinish
  obtain ⟨_, -, hfinish⟩ := bind_eq_ok.mp hfinish
  cases hfinish
  obtain ⟨hd, hf, hb⟩ := sumTargetCounts_toNat (orOverflow_eq_ok.mp hsum)
  obtain ⟨count, hcount, htotal⟩ := Option.bind_eq_some_iff.mp (orOverflow_eq_ok.mp harchive)
  have hcount := checkedAdd_toNat hcount
  have htotal := checkedAdd_toNat htotal
  -- the targets, as they are counted and as they are recorded at the start
  obtain ⟨-, -, hstart⟩ := start_eq_ok.mp hplanned.started
  have hmeasures : ∀ measure : WorkspaceTargetDirectory → Nat,
      start.targetCounts.map measure = (uniqueTargets sessionLayout.entries).map
        fun target => measure ⟨target.1, target.2, 1, 0, 0⟩ := by
    intro measure
    rw [hstart, List.map_map]
    rfl
  have hamounts : ∀ amount : WorkspaceNamespacedExportRecord → Nat,
      start.directories.map amount = (uniqueTargets sessionLayout.entries).map
        fun target => amount (.targetDirectory target.1 target.2 target.2.value) := by
    intro amount
    rw [hstart, List.map_map]
    rfl
  have hids : start.targetCounts.map WorkspaceTargetDirectory.mountId =
      (uniqueTargets sessionLayout.entries).map Prod.fst := by
    rw [hstart, List.map_map]
    rfl
  have hnodup := hids ▸ nodup_uniqueTargets sessionLayout.entries
  have hbecomes : ∀ record ∈ records, ∃ entry, Becomes unicode
      (planScope sessionLayout offer scopeSources) entry record := by
    intro record hmem
    obtain ⟨entry, -, hentry⟩ := exists_of_mem_right hplanned.become hmem
    exact ⟨entry, hentry⟩
  have hconcerns : ∀ record ∈ records,
      ∃ id ∈ start.targetCounts.map WorkspaceTargetDirectory.mountId, concerns record id := by
    intro record hmem
    obtain ⟨entry, hentry⟩ := hbecomes record hmem
    rw [hids]
    exact concerns_of_becomes hentry
  rw [sum_countMembers growsBy_directories hnodup hconcerns hplanned.counted, hmeasures] at hd
  rw [sum_countMembers growsBy_files hnodup hconcerns hplanned.counted, hmeasures] at hf
  rw [sum_countMembers growsBy_bytes hnodup hconcerns hplanned.counted, hmeasures] at hb
  have hmap : ∀ {f g : WorkspaceNamespacedExportRecord → Nat},
      (∀ entry record, Becomes unicode (planScope sessionLayout offer scopeSources) entry record →
        f record = g record) → (records.map f).sum = (records.map g).sum := by
    intro f g hsame
    refine congrArg List.sum (List.map_congr_left fun record hmem => ?_)
    obtain ⟨entry, hentry⟩ := hbecomes record hmem
    exact hsame entry record hentry
  have hdirectories := sum_inventoryRecords directoriesIn start records
  have hfiles := sum_inventoryRecords filesIn start records
  have hbytes := sum_inventoryRecords bytesIn start records
  have hlength := sum_inventoryRecords (fun _ => 1) start records
  rw [hamounts, hmap fun _ _ hentry => (amounts_of_becomes hentry).1] at hdirectories
  rw [hamounts, hmap fun _ _ hentry => (amounts_of_becomes hentry).2.1] at hfiles
  rw [hamounts, hmap fun _ _ hentry => (amounts_of_becomes hentry).2.2.1] at hbytes
  rw [hamounts, hmap fun _ _ hentry => (amounts_of_becomes hentry).2.2.2, List.sum_map_add,
    sum_one] at hlength
  refine ⟨hd.trans hdirectories.symm, hf.trans hfiles.symm, hb.trans hbytes.symm, ?_⟩
  have hnone : ((uniqueTargets sessionLayout.entries).map fun target =>
      (⟨target.1, target.2, 1, 0, 0⟩ : WorkspaceTargetDirectory).fileCount.toNat).sum = 0 :=
    List.sum_eq_zero fun count hmem => by
      obtain ⟨target, -, rfl⟩ := List.mem_map.mp hmem
      rfl
  have hones : ((uniqueTargets sessionLayout.entries).map fun target =>
      (⟨target.1, target.2, 1, 0, 0⟩ : WorkspaceTargetDirectory).directoryCount.toNat).sum =
      ((uniqueTargets sessionLayout.entries).map fun _ => 1).sum := rfl
  have hone : (1 : UInt64).toNat = 1 := rfl
  rw [hnone] at hf
  rw [hones] at hd
  have hgoal : archiveEntries.toNat = (inventoryRecords (planDirectories start records)
      (planFiles records)).length := by omega
  exact hgoal

end Plan

end WorkspaceExport

end Locality.Protocol
