/-
  Protocol/MaterializationPlan.lean --- the members of an archive and the records of an
  inventory are two views of one thing.

  A planned inventory has a record for each entry, one for each target, and the control.
  Members that were made of these records are planned to the inventory again; and members
  that are planned at all were made of the records of their inventory.
-/
import Locality.Protocol.ExportDigests
import Locality.Protocol.InventoryCounts
import Locality.Protocol.MemberPaths

set_option autoImplicit false

namespace Locality.Protocol

open Locality.Core Locality.Foundation Scope

namespace WorkspaceExport

/-! ## Records of a plan -/

section Plan

variable {unicode : UnicodeTables} {sha256 : List UInt8 → List UInt8} {plan : PlanScope}
  {session : WorkspaceProfileSession} {sessionLayout : SessionLayout}
  {offer : WorkspaceExportOffer} {scopeSources : List WorkspaceScopeSourceAuthority}
  {authorized : List WorkspaceAuthorizedExportEntry} {inventory : WorkspaceNamespacedInventory}
  {entry : WorkspaceAuthorizedExportEntry} {record : WorkspaceNamespacedExportRecord}

theorem entryOfScope_eq_some {entries : List SessionLayoutEntry} {ordinal : UInt32}
    {scope : SessionLayoutEntry} (h : entryOfScope entries ordinal = some scope) :
    scope ∈ entries ∧ scope.scopeOrdinal = ordinal := by
  have hfound : (decide (scope.scopeOrdinal = ordinal)) = true :=
    List.find?_some (p := fun entry : SessionLayoutEntry => decide (entry.scopeOrdinal = ordinal)) h
  exact ⟨List.mem_reverse.mp (List.mem_of_find?_eq_some h), of_decide_eq_true hfound⟩

theorem validateConnectorPath_eq_ok {value : Text} {logicalPath : LogicalPath}
    (h : validateConnectorPath unicode value = .ok logicalPath) :
    logicalPath.value = value ∧ LogicalPath.new unicode value = .ok logicalPath := by
  obtain ⟨_, -, h⟩ := bind_eq_ok.mp h
  cases hnew : LogicalPath.new unicode value with
  | error error =>
      rw [hnew] at h
      exact nomatch h
  | ok path =>
      rw [hnew] at h
      cases h
      exact ⟨congrArg LogicalPath.value (new_eq_ok.mp hnew).2, rfl⟩

/-- The record of an entry tells the entry, and where it is. -/
theorem entry_of_becomes (h : Becomes unicode plan entry record) :
    authorizedEntryFromRecord record = some entry ∧
      ∃ scope logicalPath, entryOfScope plan.entries entry.scopeOrdinal = some scope ∧
        record.memberPath = memberPathOf scope.target logicalPath ∧
        logicalPath.value = entry.logicalPath ∧
        LogicalPath.new unicode logicalPath.value = .ok logicalPath ∧
        validateRegularPath unicode (memberPathOf scope.target logicalPath) = .ok () ∧
        entry.mountId = scope.mountId := by
  obtain ⟨scope, logicalPath, hscope, hmount, hpath, hregular, -, rfl⟩ := h
  obtain ⟨-, hordinal⟩ := entryOfScope_eq_some hscope
  obtain ⟨hvalue, hnew⟩ := validateConnectorPath_eq_ok hpath
  refine ⟨?_, scope, logicalPath, hscope, ?_, hvalue, hvalue ▸ hnew, hregular, hmount⟩
  · cases entry with
    | directory winningScopeOrdinal mountId path =>
        rw [recordAt, authorizedEntryFromRecord, hordinal, ← hmount, hvalue]
        rfl
    | file winningScopeOrdinal mountId path metadata =>
        rw [recordAt, authorizedEntryFromRecord, hordinal, ← hmount, hvalue]
        rfl
  · cases entry with
    | directory winningScopeOrdinal mountId path => rfl
    | file winningScopeOrdinal mountId path metadata => rfl

/-- The record of a target. -/
def targetRecord (target : PortableMountId × MountTarget) : WorkspaceNamespacedExportRecord :=
  .targetDirectory target.1 target.2 target.2.value

/-- The records of a plan: those of its targets, those of its entries, and the control. -/
theorem perm_of_plan
    (h : planInventory unicode sha256 sessionLayout offer scopeSources authorized =
      .ok inventory) :
    ∃ front records,
      inventory.records = front ++ [endMember] ∧ (∀ record ∈ front, isControl record = false) ∧
      front.Perm ((uniqueTargets sessionLayout.entries).map targetRecord ++ records) ∧
      List.Forall₂ (Becomes unicode (planScope sessionLayout offer scopeSources)) authorized
        records ∧
      (front.map WorkspaceNamespacedExportRecord.memberPath).Nodup ∧
      (front.map fun record => collisionKey unicode record.memberPath).Nodup ∧
      inventory.scopeSources = scopeSources ∧
      inventory.targetDirectories.map placeOf = uniqueTargets sessionLayout.entries := by
  have hends := endsInControl_of_isPlan ⟨sessionLayout, offer, scopeSources, authorized, h⟩
  obtain ⟨-, start, records, targetCounts, hplanned, hfinish⟩ := planInventory_eq_ok.mp h
  obtain ⟨hrecords, hsources, htargets⟩ := records_of_finishPlan hfinish
  obtain ⟨hpaths, hkeys, hstart⟩ := start_eq_ok.mp hplanned.started
  have hdirectories : start.directories =
      (uniqueTargets sessionLayout.entries).map targetRecord := by
    rw [hstart]
    rfl
  have hsplit : ∀ records : List WorkspaceNamespacedExportRecord,
      (records.flatMap asDirectory ++
        (records.flatMap asFile).map WorkspaceNamespacedExportRecord.file).Perm records := by
    intro records
    induction records with
    | nil => exact .nil
    | cons record records ih =>
        rw [List.flatMap_cons, List.flatMap_cons, List.map_append]
        cases record with
        | file file =>
            exact List.perm_middle.trans (ih.cons _)
        | targetDirectory mountId target memberPath => exact ih.cons _
        | directory winningScopeOrdinal mountId target logicalPath memberPath => exact ih.cons _
        | control memberPath => exact ih.cons _
  have hperm : (planDirectories start records ++
      (planFiles records).map WorkspaceNamespacedExportRecord.file).Perm
      ((uniqueTargets sessionLayout.entries).map targetRecord ++ records) := by
    rw [← hdirectories]
    have hfiles : ((planFiles records).map WorkspaceNamespacedExportRecord.file).Perm
        ((records.flatMap asFile).map .file) := (List.perm_insertionSort _ _).map _
    have hboth := (List.perm_insertionSort (fun left right => directoryRank left ≤
      directoryRank right) (start.directories ++ records.flatMap asDirectory)).append hfiles
    refine hboth.trans ?_
    rw [List.append_assoc]
    exact (hsplit records).append_left _
  have hpathsStart : start.paths =
      ((uniqueTargets sessionLayout.entries).map fun target => target.2.value).reverse := by
    rw [hstart]
    rfl
  have hkeysStart : start.collisionKeys = ((uniqueTargets sessionLayout.entries).map
      fun target => collisionKey unicode target.2.value).reverse := by
    rw [hstart]
    rfl
  have hplaces : targetCounts.map placeOf = uniqueTargets sessionLayout.entries := by
    rw [places_of_countMembers hplanned.counted, hstart, List.map_map]
    exact List.map_id _
  obtain ⟨front, hfront, hcontrol⟩ := hends
  have hsame : front = planDirectories start records ++ (planFiles records).map .file :=
    List.append_cancel_right (hfront.symm.trans hrecords)
  refine ⟨front, records, hfront, hcontrol, hsame ▸ hperm, hplanned.become, ?_, ?_, hsources,
    htargets ▸ hplaces⟩
  · refine ((hsame ▸ hperm).map _).nodup_iff.mpr ?_
    rw [List.map_append, List.map_map]
    refine List.Nodup.append hpaths hplanned.admitted.paths.1 fun path hmem hmem' => ?_
    refine hplanned.admitted.paths.2 path hmem' ?_
    rw [hpathsStart]
    exact List.mem_reverse.mpr hmem
  · refine ((hsame ▸ hperm).map _).nodup_iff.mpr ?_
    rw [List.map_append, List.map_map]
    refine List.Nodup.append hkeys hplanned.admitted.collisionKeys.1 fun key hmem hmem' => ?_
    refine hplanned.admitted.collisionKeys.2 key hmem' ?_
    rw [hkeysStart]
    exact List.mem_reverse.mpr hmem

/-- The entries of a plan are those that its records tell. -/
theorem authorized_perm
    (h : planInventory unicode sha256 sessionLayout offer scopeSources authorized =
      .ok inventory) :
    (inventory.records.filterMap authorizedEntryFromRecord).Perm authorized := by
  obtain ⟨front, records, hrecords, -, hperm, hbecome, -⟩ := perm_of_plan h
  have htold : records.filterMap authorizedEntryFromRecord = authorized := by
    clear hperm hrecords h
    induction hbecome with
    | nil => rfl
    | cons hbecomes _ ih =>
        rw [List.filterMap_cons_some (entry_of_becomes hbecomes).1, ih]
  have htargets : ((uniqueTargets sessionLayout.entries).map targetRecord).filterMap
      authorizedEntryFromRecord = [] := by
    rw [List.filterMap_map]
    exact List.filterMap_eq_nil_iff.mpr fun _ _ => rfl
  have hend : [endMember].filterMap authorizedEntryFromRecord = [] := rfl
  have hall := hperm.filterMap authorizedEntryFromRecord
  rw [List.filterMap_append, htargets, List.nil_append, htold] at hall
  rw [hrecords, List.filterMap_append, hend, List.append_nil]
  exact hall

/-- What a record before the control is. -/
theorem front_cases {front records : List WorkspaceNamespacedExportRecord}
    (hperm : front.Perm ((uniqueTargets sessionLayout.entries).map targetRecord ++ records))
    (hbecome : List.Forall₂ (Becomes unicode (planScope sessionLayout offer scopeSources))
      authorized records) (hmem : record ∈ front) :
    (∃ target ∈ uniqueTargets sessionLayout.entries, record = targetRecord target) ∨
      ∃ entry ∈ authorized,
        Becomes unicode (planScope sessionLayout offer scopeSources) entry record := by
  obtain hmem | hmem := List.mem_append.mp (hperm.mem_iff.mp hmem)
  · obtain ⟨target, htarget, rfl⟩ := List.mem_map.mp hmem
    exact Or.inl ⟨target, htarget, rfl⟩
  · exact Or.inr (exists_of_mem_right hbecome hmem)

/-! ## Members -/

def kindOf : WorkspaceNamespacedExportRecord → WorkspaceArchiveEntryKind
  | .targetDirectory _ _ _ | .directory _ _ _ _ _ => .directory
  | .file _ => .file
  | .control _ => .control

/-- The member that a record is archived as. -/
def memberOf (record : WorkspaceNamespacedExportRecord) : WorkspaceArchiveMember :=
  ⟨kindOf record, record.memberPath, authorizedEntryFromRecord record⟩

/-- Members that match records are new, are where a target is, and have their paths. -/
theorem matchMembers_eq_ok {targets seenPaths collisionKeys : List Text}
    {pairs : List (WorkspaceArchiveMember × WorkspaceNamespacedExportRecord)} {u : Unit} :
    matchMembers unicode targets seenPaths collisionKeys pairs = .ok u ↔
      Fresh (pairs.map fun pair => pair.1.memberPath) seenPaths ∧
        Fresh (pairs.map fun pair => collisionKey unicode pair.1.memberPath) collisionKeys ∧
        ∀ pair ∈ pairs, validateStreamMemberPath unicode targets pair.1 = .ok () ∧
          pair.1.memberPath = pair.2.memberPath := by
  induction pairs generalizing seenPaths collisionKeys with
  | nil => exact iff_of_true rfl ⟨fresh_nil _, fresh_nil _, nofun⟩
  | cons pair pairs ih =>
      obtain ⟨member, expected⟩ := pair
      rw [List.map_cons, List.map_cons, fresh_cons, fresh_cons, List.forall_mem_cons, matchMembers]
      simp only [bind_eq_ok, failIf_eq_ok, exists_const, ih, not_not]
      constructor
      · intro h
        obtain ⟨_, hpath, hseen, hkey, hsame, hpaths, hkeys, hall⟩ := h
        exact ⟨⟨hseen, hpaths⟩, ⟨hkey, hkeys⟩, ⟨hpath, hsame⟩, hall⟩
      · intro h
        obtain ⟨⟨hseen, hpaths⟩, ⟨hkey, hkeys⟩, ⟨hpath, hsame⟩, hall⟩ := h
        exact ⟨(), hpath, hseen, hkey, hsame, hpaths, hkeys, hall⟩

theorem kindOf_ne_control {record : WorkspaceNamespacedExportRecord}
    (h : isControl record = false) : kindOf record ≠ .control := by
  cases record with
  | control memberPath => exact nomatch h
  | targetDirectory mountId target memberPath => exact nofun
  | directory winningScopeOrdinal mountId target logicalPath memberPath => exact nofun
  | file record => exact nofun

theorem validateControlSequence_memberOf {front : List WorkspaceNamespacedExportRecord}
    (hfront : ∀ record ∈ front, isControl record = false) :
    validateControlSequence ((front ++ [endMember]).map memberOf) = .ok () := by
  rw [List.map_append, List.map_singleton, validateControlSequence, List.getLast?_append_of_ne_nil
    _ (List.cons_ne_nil _ _), List.getLast?_singleton, List.dropLast_concat]
  refine bind_eq_ok.mpr ⟨(), failIf_eq_ok.mpr ?_, failIf_eq_ok.mpr fun hne => hne rfl⟩
  intro h
  obtain hkind | ⟨member, hmem, hkind⟩ := h
  · exact hkind rfl
  · obtain ⟨record, hrecord, rfl⟩ := List.mem_map.mp hmem
    exact kindOf_ne_control (hfront record hrecord) hkind

/-- The member of an entry has that entry, and the kind of it. -/
theorem checkMember_of_becomes {declaredTargets : List Text}
    (h : Becomes unicode plan entry record) :
    checkMember declaredTargets (memberOf record) = .ok () := by
  have hentry := (entry_of_becomes h).1
  obtain ⟨scope, logicalPath, -, -, -, -, -, rfl⟩ := h
  cases entry with
  | directory winningScopeOrdinal mountId path =>
      rw [checkMember]
      exact if_neg fun hand => nomatch hand.2.1
  | file winningScopeOrdinal mountId path metadata =>
      rw [checkMember]
      exact if_neg fun hand => nomatch hand.1

theorem checkMember_targetRecord {declaredTargets : List Text}
    {target : PortableMountId × MountTarget} (h : target.2.value ∈ declaredTargets) :
    checkMember declaredTargets (memberOf (targetRecord target)) = .ok () := by
  rw [checkMember]
  exact if_pos ⟨rfl, rfl, h⟩

theorem topLevel_target {target : MountTarget} (h : '/' ∉ target.value) :
    topLevel target.value = target.value := by
  rw [topLevel, splitSlash_of_notMem h]
  rfl

theorem topLevel_memberPathOf {target : MountTarget} (h : '/' ∉ target.value)
    (logicalPath : LogicalPath) : topLevel (memberPathOf target logicalPath) = target.value := by
  rw [topLevel, memberPathOf, splitSlash_append h]
  rfl

/-- Where the members of records are: below targets of the session. -/
theorem validateStreamMemberPath_of_front
    (hsession : session.validate unicode sha256 = .ok ())
    (hvalid : ∀ entry ∈ session.sessionLayout.entries, entry.target.Valid unicode)
    {targets : List Text}
    (htargets : ∀ target ∈ uniqueTargets session.sessionLayout.entries, target.2.value ∈ targets)
    (hcases : (∃ target ∈ uniqueTargets session.sessionLayout.entries,
        record = targetRecord target) ∨
      ∃ entry, Becomes unicode (planScope session.sessionLayout offer scopeSources) entry record)
    (hcontrol : isControl record = false) :
    validateStreamMemberPath unicode targets (memberOf record) = .ok () := by
  have hkind : (memberOf record).kind ≠ .control := kindOf_ne_control hcontrol
  rw [validateStreamMemberPath, if_neg hkind, bind_eq_ok]
  obtain ⟨⟨mountId, target⟩, hmem, rfl⟩ | ⟨entry, hbecomes⟩ := hcases
  · obtain ⟨scope, hscope, -, rfl⟩ := exists_of_mem_uniqueTargets hmem
    obtain ⟨hfree, hregular, -⟩ := (hvalid scope hscope).regular
    refine ⟨(), hregular, failIf_eq_ok.mpr (not_not.mpr ?_)⟩
    have htop := topLevel_target hfree
    exact htop.symm ▸ htargets _ hmem
  · obtain ⟨-, scope, logicalPath, hfound, hpath, -, -, hregular, -⟩ :=
      entry_of_becomes hbecomes
    obtain ⟨hscope, -⟩ := entryOfScope_eq_some hfound
    obtain ⟨hfree, -, -⟩ := (hvalid scope hscope).regular
    have hmember : (memberOf record).memberPath = memberPathOf scope.target logicalPath := hpath
    rw [hmember, topLevel_memberPathOf hfree]
    exact ⟨(), hregular, failIf_eq_ok.mpr (not_not.mpr
      (htargets _ (target_mem_uniqueTargets hsession hscope)))⟩

/-! ## Members of a plan are planned to it -/

theorem scopeSources_of_validateAgainst {control : WorkspaceExportTerminalControl}
    (h : control.validateAgainst unicode sha256 session offer inventory = .ok ()) :
    control.metadata.scopeSources = inventory.scopeSources ∧
      inventory.inventorySha256 = offer.offer.inventorySha256 ∧
      inventory.fileCount = offer.offer.fileCount := by
  obtain ⟨_, hmetadata, -⟩ := bind_eq_ok.mp h
  obtain ⟨_, -, hmetadata⟩ := bind_eq_ok.mp hmetadata
  obtain ⟨_, -, hmetadata⟩ := bind_eq_ok.mp hmetadata
  obtain ⟨_, hoffer, hmetadata⟩ := bind_eq_ok.mp hmetadata
  obtain ⟨_, -, hoffer⟩ := bind_eq_ok.mp hoffer
  have hbinds := failIf_eq_ok.mp hmetadata
  have hcounts := failIf_eq_ok.mp hoffer
  simp only [not_or, not_not] at hbinds hcounts
  exact ⟨hbinds.2.2.2.2.2.2.2.2.2.2.2.2.1, hcounts.2.2.2.2.2, hcounts.2.1⟩

/-- The path of a record is of no form that the control path has. -/
theorem key_ne_of_front (hslash : KeepsSlashes unicode)
    (hvalid : ∀ entry ∈ session.sessionLayout.entries, entry.target.Valid unicode)
    (hcases : (∃ target ∈ uniqueTargets session.sessionLayout.entries,
        record = targetRecord target) ∨
      ∃ entry, Becomes unicode (planScope session.sessionLayout offer scopeSources) entry
        record) :
    collisionKey unicode record.memberPath ≠
      collisionKey unicode reservedExportMetadataPath := by
  obtain ⟨target, hmem, rfl⟩ | ⟨entry, hbecomes⟩ := hcases
  · obtain ⟨scope, hscope, -, htarget⟩ := exists_of_mem_uniqueTargets hmem
    exact (htarget ▸ hvalid scope hscope).key_ne hslash (Or.inl rfl)
  · obtain ⟨-, scope, logicalPath, hfound, hpath, -⟩ := entry_of_becomes hbecomes
    rw [hpath]
    exact (hvalid scope (entryOfScope_eq_some hfound).1).key_ne hslash
      (Or.inr ⟨logicalPath.value, rfl⟩)

variable {control : WorkspaceExportTerminalControl}

/-- The members of the records of an inventory are planned to that inventory. -/
theorem planMembers_of_plan (hslash : KeepsSlashes unicode)
    (hsession : session.validate unicode sha256 = .ok ())
    (hvalid : ∀ entry ∈ session.sessionLayout.entries, entry.target.Valid unicode)
    (hplan : planInventory unicode sha256 session.sessionLayout offer scopeSources authorized =
      .ok inventory)
    (hcontrol : control.validateAgainst unicode sha256 session offer inventory = .ok ()) :
    WorkspaceMaterializationPlanWithInventory.planMembers unicode sha256 session offer control
        (inventory.records.map memberOf) =
      .ok ⟨⟨inventory.targetDirectories, inventory.records.filterMap materializationEntry⟩,
        inventory⟩ := by
  obtain ⟨front, records, hrecords, hfront, hperm, hbecome, hpaths, hkeys, hsources, hplaces⟩ :=
    perm_of_plan hplan
  have hcases : ∀ record ∈ front, (∃ target ∈ uniqueTargets session.sessionLayout.entries,
      record = targetRecord target) ∨ ∃ entry, Becomes unicode
        (planScope session.sessionLayout offer scopeSources) entry record := by
    intro record hmem
    obtain htarget | ⟨entry, -, hentry⟩ := front_cases hperm hbecome hmem
    · exact Or.inl htarget
    · exact Or.inr ⟨entry, hentry⟩
  have hentries : (inventory.records.map memberOf).filterMap
      WorkspaceArchiveMember.authorizedEntry =
        inventory.records.filterMap authorizedEntryFromRecord := List.filterMap_map ..
  have htargets : ∀ target ∈ uniqueTargets session.sessionLayout.entries,
      target.2.value ∈ inventory.targetDirectories.map fun target => target.target.value := by
    intro target hmem
    rw [← hplaces] at hmem
    obtain ⟨counts, hcounts, rfl⟩ := List.mem_map.mp hmem
    exact List.mem_map.mpr ⟨counts, hcounts, rfl⟩
  have hscopes : control.metadata.scopeSources = scopeSources :=
    (scopeSources_of_validateAgainst hcontrol).1.trans hsources
  have hreplanned := planInventory_perm (authorized_perm hplan).symm hplan
  rw [WorkspaceMaterializationPlanWithInventory.planMembers]
  refine bind_eq_ok.mpr ⟨(), ?_, bind_eq_ok.mpr ⟨(), ?_, bind_eq_ok.mpr ⟨inventory, ?_,
    bind_eq_ok.mpr ⟨(), hcontrol, bind_eq_ok.mpr ⟨(), failIf_eq_ok.mpr (not_not.mpr
      (List.length_map _)), bind_eq_ok.mpr ⟨(), ?_, rfl⟩⟩⟩⟩⟩⟩
  · rw [hrecords]
    exact validateControlSequence_memberOf hfront
  · refine forM_eq_ok.mpr fun member hmem => ?_
    obtain ⟨record, hrecord, rfl⟩ := List.mem_map.mp hmem
    rw [hrecords] at hrecord
    obtain hrecord | hrecord := List.mem_append.mp hrecord
    · obtain ⟨target, htarget, rfl⟩ | ⟨entry, hbecomes⟩ := hcases record hrecord
      · obtain ⟨scope, hscope, -, hsame⟩ := exists_of_mem_uniqueTargets htarget
        refine checkMember_targetRecord (List.mem_map.mpr ⟨scope, hscope, ?_⟩)
        rw [hsame]
      · exact checkMember_of_becomes hbecomes
    · rw [List.mem_singleton.mp hrecord]
      rfl
  · rw [hentries, hscopes]
    exact hreplanned
  · have hzip : (inventory.records.map memberOf).zip inventory.records =
        inventory.records.map fun record => (memberOf record, record) := by
      have hboth : (inventory.records.map memberOf).zip (inventory.records.map id) =
          inventory.records.map fun record => (memberOf record, record) := List.zip_map'
      rwa [List.map_id] at hboth
    have hall : ∀ {α : Type} (f : WorkspaceArchiveMember → α),
        (inventory.records.map fun record => (memberOf record, record)).map (fun pair => f pair.1) =
          front.map (fun record => f (memberOf record)) ++ [f (memberOf endMember)] := by
      intro α f
      rw [List.map_map, hrecords, List.map_append]
      rfl
    have hnew : ∀ {α : Type} {values : List α} {last : α}, values.Nodup → last ∉ values →
        Fresh (values ++ [last]) [] := by
      intro α values last hnodup hlast
      refine ⟨List.Nodup.append hnodup (List.nodup_singleton _) fun value hmem hmem' => ?_, nofun⟩
      exact hlast (List.mem_singleton.mp hmem' ▸ hmem)
    rw [hzip, matchMembers_eq_ok, hall WorkspaceArchiveMember.memberPath,
      hall fun member => collisionKey unicode member.memberPath]
    refine ⟨hnew hpaths fun hmem => ?_, hnew hkeys fun hmem => ?_, fun pair hmem => ?_⟩
    · obtain ⟨record, hrecord, hsame⟩ := List.mem_map.mp hmem
      exact key_ne_of_front hslash hvalid (hcases record hrecord) (congrArg _ hsame)
    · obtain ⟨record, hrecord, hsame⟩ := List.mem_map.mp hmem
      exact key_ne_of_front hslash hvalid (hcases record hrecord) hsame
    · obtain ⟨record, hrecord, rfl⟩ := List.mem_map.mp hmem
      refine ⟨?_, rfl⟩
      rw [hrecords] at hrecord
      obtain hrecord | hrecord := List.mem_append.mp hrecord
      · exact validateStreamMemberPath_of_front hsession hvalid htargets (hcases record hrecord)
          (hfront record hrecord)
      · rw [List.mem_singleton.mp hrecord]
        exact (if_pos rfl).trans (failIf_eq_ok.mpr fun hne => hne rfl)

/-! ## Members that are planned are those of their plan -/

/-- A member is below the target of its entry's scope; without an entry it is at the top. -/
def Placed (entries : List SessionLayoutEntry) (member : WorkspaceArchiveMember) : Prop :=
  match member.authorizedEntry with
  | none => member.kind = .directory → '/' ∉ member.memberPath
  | some entry => ∃ scope, entryOfScope entries entry.scopeOrdinal = some scope ∧
      member.memberPath = scope.target.value ++ '/' :: entry.logicalPath

variable {member : WorkspaceArchiveMember} {members : List WorkspaceArchiveMember}

theorem validateControlSequence_eq_ok {u : Unit} (h : validateControlSequence members = .ok u) :
    ∃ front last, members = front ++ [last] ∧ last.kind = .control ∧
      last.memberPath = reservedExportMetadataPath ∧ ∀ member ∈ front, member.kind ≠ .control := by
  rw [validateControlSequence] at h
  cases hlast : members.getLast? with
  | none =>
      rw [hlast] at h
      exact nomatch h
  | some last =>
      rw [hlast] at h
      obtain ⟨_, hkinds, hpath⟩ := bind_eq_ok.mp h
      obtain ⟨hkind, hothers⟩ := not_or.mp (failIf_eq_ok.mp hkinds)
      obtain ⟨front, rfl⟩ := List.getLast?_eq_some_iff.mp hlast
      rw [List.dropLast_concat] at hothers
      exact ⟨front, last, rfl, not_not.mp hkind, not_not.mp (failIf_eq_ok.mp hpath),
        fun member hmem hcontrol => hothers ⟨member, hmem, hcontrol⟩⟩

theorem checkMember_eq_ok {declaredTargets : List Text} {u : Unit}
    (hkind : member.kind ≠ .control) (h : checkMember declaredTargets member = .ok u) :
    (member.kind = .directory ∧ member.authorizedEntry = none) ∨
      ∃ entry, member.authorizedEntry = some entry ∧ kindMatches member.kind entry = true := by
  obtain ⟨kind, memberPath, authorizedEntry⟩ := member
  have hregular : (if kind = .directory ∧ authorizedEntry = none ∧ memberPath ∈ declaredTargets
        then pure ()
        else authorizedEntry.elim (throw WorkspaceExportError.missingAuthorizedEntry) fun entry =>
          failIf (kindMatches kind entry = false) .entryKindMismatch) = .ok u →
      (kind = .directory ∧ authorizedEntry = none) ∨
        ∃ entry, authorizedEntry = some entry ∧ kindMatches kind entry = true := by
    intro hchecked
    split at hchecked
    · rename_i hand
      exact Or.inl ⟨hand.1, hand.2.1⟩
    · cases authorizedEntry with
      | none => cases hchecked
      | some entry =>
          exact Or.inr ⟨entry, rfl, Bool.not_eq_false _ ▸ failIf_eq_ok.mp hchecked⟩
  cases kind with
  | directory => cases authorizedEntry <;> exact hregular h
  | file => cases authorizedEntry <;> exact hregular h
  | control => exact absurd rfl hkind
  | symlink => cases h
  | hardlink => cases h
  | blockDevice => cases h
  | characterDevice => cases h
  | fifo => cases h

/-- Members that are planned are those of the records of their inventory. -/
theorem records_of_planMembers {planned : WorkspaceMaterializationPlanWithInventory}
    (h : WorkspaceMaterializationPlanWithInventory.planMembers unicode sha256 session offer control
      members = .ok planned)
    (hplaced : ∀ member ∈ members, Placed session.sessionLayout.entries member) :
    members = planned.inventory.records.map memberOf ∧
      planInventory unicode sha256 session.sessionLayout offer control.metadata.scopeSources
        (planned.inventory.records.filterMap authorizedEntryFromRecord) =
          .ok planned.inventory ∧
      control.validateAgainst unicode sha256 session offer planned.inventory = .ok () ∧
      planned.plan = ⟨planned.inventory.targetDirectories,
        planned.inventory.records.filterMap materializationEntry⟩ := by
  obtain ⟨_, hsequence, h⟩ := bind_eq_ok.mp h
  obtain ⟨_, hchecks, h⟩ := bind_eq_ok.mp h
  obtain ⟨inventory, hplan, h⟩ := bind_eq_ok.mp h
  obtain ⟨_, hcontrol, h⟩ := bind_eq_ok.mp h
  obtain ⟨_, hlength, h⟩ := bind_eq_ok.mp h
  obtain ⟨_, hmatch, h⟩ := bind_eq_ok.mp h
  cases h
  have hlength := not_not.mp (failIf_eq_ok.mp hlength)
  obtain ⟨-, -, hpairs⟩ := matchMembers_eq_ok.mp hmatch
  have hpaths : List.Forall₂ (fun (member : WorkspaceArchiveMember) record =>
      member.memberPath = WorkspaceNamespacedExportRecord.memberPath record) members
      inventory.records :=
    List.forall₂_iff_zip.mpr ⟨hlength, fun hmem => (hpairs _ hmem).2⟩
  obtain ⟨front, records, hrecords, hfront, hperm, hbecome, hnodup, -⟩ := perm_of_plan hplan
  obtain ⟨before, last, rfl, hlastKind, hlastPath, hbefore⟩ :=
    validateControlSequence_eq_ok hsequence
  have hall : before ++ [last] = inventory.records.map memberOf := by
    obtain ⟨front', last', hsplit, hbeforePaths, -⟩ := forall₂_snoc_left hpaths
    obtain ⟨rfl, hend⟩ := List.append_inj' (hrecords.symm.trans hsplit) rfl
    obtain rfl : endMember = last' := List.head_eq_of_cons_eq hend
    have hlast : last = memberOf endMember := by
      obtain ⟨kind, memberPath, authorizedEntry⟩ := last
      have hchecked := forM_eq_ok.mp hchecks _ (List.mem_append_right _ List.mem_cons_self)
      cases hlastKind
      cases hlastPath
      have hnone := failIf_eq_ok.mp hchecked
      cases authorizedEntry with
      | none => rfl
      | some entry => exact absurd rfl hnone
    have hmembers : List.Forall₂ (fun member record => member = memberOf record) before front := by
      refine List.forall₂_iff_zip.mpr ⟨hbeforePaths.length_eq, fun {member record} hmem => ?_⟩
      have hsame : member.memberPath = record.memberPath :=
        (List.forall₂_iff_zip.mp hbeforePaths).2 hmem
      obtain ⟨hmember, hrecord⟩ := List.of_mem_zip hmem
      have hin := List.mem_append_left [last] hmember
      have hplace := hplaced member hin
      obtain ⟨kind, memberPath, authorizedEntry⟩ := member
      obtain ⟨hkind, hentry⟩ | ⟨entry, hentry, hkind⟩ :=
        checkMember_eq_ok (hbefore _ hmember) (forM_eq_ok.mp hchecks _ hin)
      · dsimp only at hkind hentry hsame
        subst hkind hentry hsame
        obtain ⟨target, -, rfl⟩ | ⟨entry, -, hbecomes⟩ := front_cases hperm hbecome hrecord
        · rfl
        · obtain ⟨-, scope, logicalPath, -, hpath, -⟩ := entry_of_becomes hbecomes
          refine absurd ?_ (hplace rfl)
          dsimp only
          rw [hpath]
          exact List.mem_append_right _ List.mem_cons_self
      · dsimp only at hkind hentry hsame
        subst hentry
        have hauthorized : entry ∈ (before ++ [last]).filterMap
            WorkspaceArchiveMember.authorizedEntry :=
          List.mem_filterMap.mpr ⟨_, hin, rfl⟩
        obtain ⟨record', hrecord', hbecomes⟩ := exists_of_mem_right hbecome.flip hauthorized
        obtain ⟨htold, scope, logicalPath, hscope, hpath, hlogical, -⟩ :=
          entry_of_becomes hbecomes
        obtain ⟨scope', hscope', hplace⟩ := hplace
        obtain rfl := Option.some.inj (hscope.symm.trans hscope')
        have hpaths : record'.memberPath = record.memberPath := by
          rw [hpath, memberPathOf, hlogical, ← hplace, hsame]
        obtain rfl := List.inj_on_of_nodup_map hnodup
          (hperm.mem_iff.mpr (List.mem_append_right _ hrecord')) hrecord hpaths
        have hkinds : kindOf record' = kind := by
          obtain ⟨_, _, -, -, -, -, -, rfl⟩ := hbecomes
          cases entry with
          | directory winningScopeOrdinal mountId path =>
              cases kind <;> first | rfl | cases hkind
          | file winningScopeOrdinal mountId path metadata =>
              cases kind <;> first | rfl | cases hkind
        rw [memberOf, hkinds, htold, ← hsame]
    rw [hrecords, List.map_append, List.map_singleton, ← hlast]
    congr 1
    exact List.forall₂_eq_eq_eq ▸ (List.forall₂_map_right_iff.mpr hmembers)
  have htold : (inventory.records.map memberOf).filterMap WorkspaceArchiveMember.authorizedEntry =
      inventory.records.filterMap authorizedEntryFromRecord := List.filterMap_map ..
  rw [hall, htold] at hplan
  exact ⟨hall, hplan, hcontrol, rfl⟩

end Plan

end WorkspaceExport

end Locality.Protocol
