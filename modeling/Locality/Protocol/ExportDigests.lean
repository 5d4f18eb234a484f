/-
  Protocol/ExportDigests.lean --- the digests of exports bind what they seal.

  The inventory of a workspace export is determined by its preimage like the others: a
  record is its class, and then frames in an order that the class gives.
-/
import Locality.Protocol.ExportSeals
import Locality.Protocol.InventoryPlan

set_option autoImplicit false

namespace Locality.Protocol

open Locality.Core Locality.Foundation Scope

namespace WorkspaceExport

/-! ## Frames of records -/

def isControl : WorkspaceNamespacedExportRecord → Bool
  | .control _ => true
  | _ => false

def RecordFits : WorkspaceNamespacedExportRecord → Prop
  | .targetDirectory mountId target memberPath =>
      Fits mountId.value ∧ Fits target.value ∧ Fits memberPath
  | .directory winningScopeOrdinal mountId target logicalPath memberPath =>
      winningScopeOrdinal.toNat < 256 ^ 8 ∧ Fits mountId.value ∧ Fits target.value ∧
        Fits logicalPath.value ∧ Fits memberPath
  | .file record =>
      record.winningScopeOrdinal.toNat < 256 ^ 8 ∧ Fits record.mountId.value ∧
        Fits record.target.value ∧ Fits record.metadata.sourceConnectionId.value ∧
        Fits record.metadata.projectionId.value ∧ Fits record.logicalPath.value ∧
        Fits record.memberPath ∧ Fits (projectionFileKindWireLabel record.metadata.fileKind) ∧
        ActionsFit record.metadata.effectiveActions ∧ Fits record.metadata.contentSha256 ∧
        record.metadata.byteLength.toNat < 256 ^ 8
  | .control _ => True

def frameRecord : WorkspaceNamespacedExportRecord → List UInt8
  | .targetDirectory mountId target memberPath =>
      frameText "target_directory".toList ++ (frameText mountId.value ++
        (frameText target.value ++ frameText memberPath))
  | .directory winningScopeOrdinal mountId target logicalPath memberPath =>
      frameText "directory".toList ++ (toBeBytes 8 winningScopeOrdinal.toNat ++
        (frameText mountId.value ++ (frameText target.value ++ (frameText logicalPath.value ++
          frameText memberPath))))
  | .file record =>
      frameText "file".toList ++ (toBeBytes 8 record.winningScopeOrdinal.toNat ++
        (frameText record.mountId.value ++ (frameText record.target.value ++
        (frameText record.metadata.sourceConnectionId.value ++
        (frameText record.metadata.projectionId.value ++ (frameText record.logicalPath.value ++
        (frameText record.memberPath ++ (frameKind record.metadata.fileKind ++
        (frameActions record.metadata.effectiveActions ++
        (frameText record.metadata.contentSha256 ++
          toBeBytes 8 record.metadata.byteLength.toNat))))))))))
  | .control _ => []

theorem appendRecord_ok {output output' : List UInt8} {record : WorkspaceNamespacedExportRecord}
    (h : appendRecord output record = .ok output') :
    RecordFits record ∧ output' = output ++ frameRecord record := by
  cases record with
  | targetDirectory mountId target memberPath =>
      obtain ⟨-, h⟩ := appendTextOr_then h
      obtain ⟨hmount, h⟩ := appendTextOr_then h
      obtain ⟨htarget, h⟩ := appendTextOr_then h
      obtain ⟨hmember, rfl⟩ := appendTextOr_eq_ok.mp h
      refine ⟨⟨hmount, htarget, hmember⟩, ?_⟩
      simp only [frameRecord, List.append_assoc]
  | directory winningScopeOrdinal mountId target logicalPath memberPath =>
      obtain ⟨-, h⟩ := appendTextOr_then h
      obtain ⟨hmount, h⟩ := appendTextOr_then h
      obtain ⟨htarget, h⟩ := appendTextOr_then h
      obtain ⟨hlogical, h⟩ := appendTextOr_then h
      obtain ⟨hmember, rfl⟩ := appendTextOr_eq_ok.mp h
      refine ⟨⟨fits_u32 _, hmount, htarget, hlogical, hmember⟩, ?_⟩
      simp only [frameRecord, List.append_assoc]
  | file record =>
      obtain ⟨-, h⟩ := appendTextOr_then h
      obtain ⟨hmount, h⟩ := appendTextOr_then h
      obtain ⟨htarget, h⟩ := appendTextOr_then h
      obtain ⟨hsource, h⟩ := appendTextOr_then h
      obtain ⟨hprojection, h⟩ := appendTextOr_then h
      obtain ⟨hlogical, h⟩ := appendTextOr_then h
      obtain ⟨hmember, h⟩ := appendTextOr_then h
      obtain ⟨hkind, h⟩ := appendTextOr_then h
      obtain ⟨_, h₁, h⟩ := bind_eq_ok.mp h
      obtain ⟨hactions, rfl⟩ := appendActionsOr_ok h₁
      obtain ⟨hdigest, h⟩ := appendTextOr_then h
      cases h
      refine ⟨⟨fits_u32 _, hmount, htarget, hsource, hprojection, hlogical, hmember, hkind,
        hactions, hdigest, fits_u64 _⟩, ?_⟩
      simp only [frameRecord, frameKind, List.append_assoc]
  | control memberPath =>
      cases h
      exact ⟨trivial, (List.append_nil _).symm⟩

/-- The class of a record, as it is written. -/
def classLabel : WorkspaceNamespacedExportRecord → Text
  | .targetDirectory _ _ _ => "target_directory".toList
  | .directory _ _ _ _ _ => "directory".toList
  | .file _ => "file".toList
  | .control _ => []

/-- What is written behind the class. -/
def frameFields : WorkspaceNamespacedExportRecord → List UInt8
  | .targetDirectory mountId target memberPath =>
      frameText mountId.value ++ (frameText target.value ++ frameText memberPath)
  | .directory winningScopeOrdinal mountId target logicalPath memberPath =>
      toBeBytes 8 winningScopeOrdinal.toNat ++ (frameText mountId.value ++
        (frameText target.value ++ (frameText logicalPath.value ++ frameText memberPath)))
  | .file record =>
      toBeBytes 8 record.winningScopeOrdinal.toNat ++
        (frameText record.mountId.value ++ (frameText record.target.value ++
        (frameText record.metadata.sourceConnectionId.value ++
        (frameText record.metadata.projectionId.value ++ (frameText record.logicalPath.value ++
        (frameText record.memberPath ++ (frameKind record.metadata.fileKind ++
        (frameActions record.metadata.effectiveActions ++
        (frameText record.metadata.contentSha256 ++
          toBeBytes 8 record.metadata.byteLength.toNat)))))))))
  | .control _ => []

/-- A record that is written. -/
def Written (record : WorkspaceNamespacedExportRecord) : Prop :=
  RecordFits record ∧ isControl record = false

theorem frameRecord_eq {record : WorkspaceNamespacedExportRecord} (h : isControl record = false) :
    frameRecord record = frameText (classLabel record) ++ frameFields record := by
  cases record with
  | control memberPath => exact nomatch h
  | targetDirectory mountId target memberPath => rfl
  | directory winningScopeOrdinal mountId target logicalPath memberPath => rfl
  | file record => rfl

theorem fits_classLabel (record : WorkspaceNamespacedExportRecord) : Fits (classLabel record) := by
  have hlabels : ∀ label ∈ ["target_directory".toList, "directory".toList, "file".toList, []],
      (asBytes label).length < 256 ^ 8 := by decide
  cases record with
  | targetDirectory mountId target memberPath => exact hlabels _ List.mem_cons_self
  | directory winningScopeOrdinal mountId target logicalPath memberPath =>
      exact hlabels _ (.tail _ List.mem_cons_self)
  | file record => exact hlabels _ (.tail _ (.tail _ List.mem_cons_self))
  | control memberPath => exact hlabels _ (.tail _ (.tail _ (.tail _ List.mem_cons_self)))

theorem directory_ne_target : "directory".toList ≠ "target_directory".toList := by decide

theorem file_ne_target : "file".toList ≠ "target_directory".toList := by decide

theorem file_ne_directory : "file".toList ≠ "directory".toList := by decide

theorem selfDelimiting_targetDirectory :
    SelfDelimiting (fun fields : PortableMountId × MountTarget × Text =>
        Fits fields.1.value ∧ Fits fields.2.1.value ∧ Fits fields.2.2)
      fun fields => frameText fields.1.value ++ (frameText fields.2.1.value ++
        frameText fields.2.2) := by
  have htext := selfDelimiting_text
  refine (htext.pair (htext.pair htext)).comap
    (f := fun fields : PortableMountId × MountTarget × Text =>
      (fields.1.value, fields.2.1.value, fields.2.2)) ?_
  intro fields fields' h
  obtain ⟨⟨_⟩, ⟨_⟩, _⟩ := fields
  obtain ⟨⟨_⟩, ⟨_⟩, _⟩ := fields'
  cases h
  rfl

theorem selfDelimiting_directory :
    SelfDelimiting (fun fields : UInt32 × PortableMountId × MountTarget × LogicalPath × Text =>
        fields.1.toNat < 256 ^ 8 ∧ Fits fields.2.1.value ∧ Fits fields.2.2.1.value ∧
          Fits fields.2.2.2.1.value ∧ Fits fields.2.2.2.2)
      fun fields => toBeBytes 8 fields.1.toNat ++ (frameText fields.2.1.value ++
        (frameText fields.2.2.1.value ++ (frameText fields.2.2.2.1.value ++
          frameText fields.2.2.2.2))) := by
  have htext := selfDelimiting_text
  refine (selfDelimiting_u32.pair (htext.pair (htext.pair (htext.pair htext)))).comap
    (f := fun fields : UInt32 × PortableMountId × MountTarget × LogicalPath × Text =>
      (fields.1, fields.2.1.value, fields.2.2.1.value, fields.2.2.2.1.value, fields.2.2.2.2)) ?_
  intro fields fields' h
  obtain ⟨_, ⟨_⟩, ⟨_⟩, ⟨_⟩, _⟩ := fields
  obtain ⟨_, ⟨_⟩, ⟨_⟩, ⟨_⟩, _⟩ := fields'
  cases h
  rfl

theorem selfDelimiting_file :
    SelfDelimiting (fun record : WorkspaceFileRecord => RecordFits (.file record))
      fun record => frameFields (.file record) := by
  have htext := selfDelimiting_text
  refine (selfDelimiting_u32.pair (htext.pair (htext.pair (htext.pair (htext.pair (htext.pair
    (htext.pair (selfDelimiting_kind.pair (selfDelimiting_actions.pair (htext.pair
      selfDelimiting_u64)))))))))).comap
    (f := fun record : WorkspaceFileRecord => (record.winningScopeOrdinal, record.mountId.value,
      record.target.value, record.metadata.sourceConnectionId.value,
      record.metadata.projectionId.value, record.logicalPath.value, record.memberPath,
      record.metadata.fileKind, record.metadata.effectiveActions, record.metadata.contentSha256,
      record.metadata.byteLength)) ?_
  intro record record' h
  obtain ⟨_, ⟨_⟩, ⟨_⟩, ⟨_⟩, _, ⟨_⟩, ⟨_⟩, _, _, _, _⟩ := record
  obtain ⟨_, ⟨_⟩, ⟨_⟩, ⟨_⟩, _, ⟨_⟩, ⟨_⟩, _, _, _, _⟩ := record'
  cases h
  rfl

/-- Records of one class are told apart by their fields. -/
theorem selfDelimiting_fields (label : Text) :
    SelfDelimiting (fun record => Written record ∧ classLabel record = label) frameFields := by
  intro record record' s t hwritten hwritten' hsame
  have hclass : classLabel record = classLabel record' := hwritten.2.trans hwritten'.2.symm
  cases record with
  | control memberPath => exact nomatch hwritten.1.2
  | targetDirectory mountId target memberPath =>
      cases record' with
      | control memberPath' => exact nomatch hwritten'.1.2
      | directory winningScopeOrdinal' mountId' target' logicalPath' memberPath' =>
          exact absurd hclass.symm directory_ne_target
      | file record' => exact absurd hclass.symm file_ne_target
      | targetDirectory mountId' target' memberPath' =>
          obtain ⟨hfields, htail⟩ := selfDelimiting_targetDirectory (mountId, target, memberPath)
            (mountId', target', memberPath') s t hwritten.1.1 hwritten'.1.1 hsame
          cases hfields
          exact ⟨rfl, htail⟩
  | directory winningScopeOrdinal mountId target logicalPath memberPath =>
      cases record' with
      | control memberPath' => exact nomatch hwritten'.1.2
      | targetDirectory mountId' target' memberPath' => exact absurd hclass directory_ne_target
      | file record' => exact absurd hclass.symm file_ne_directory
      | directory winningScopeOrdinal' mountId' target' logicalPath' memberPath' =>
          obtain ⟨hfields, htail⟩ := selfDelimiting_directory
            (winningScopeOrdinal, mountId, target, logicalPath, memberPath)
            (winningScopeOrdinal', mountId', target', logicalPath', memberPath') s t
            hwritten.1.1 hwritten'.1.1 hsame
          cases hfields
          exact ⟨rfl, htail⟩
  | file record =>
      cases record' with
      | control memberPath' => exact nomatch hwritten'.1.2
      | targetDirectory mountId' target' memberPath' => exact absurd hclass file_ne_target
      | directory winningScopeOrdinal' mountId' target' logicalPath' memberPath' =>
          exact absurd hclass file_ne_directory
      | file record' =>
          obtain ⟨rfl, htail⟩ := selfDelimiting_file record record' s t hwritten.1.1
            hwritten'.1.1 hsame
          exact ⟨rfl, htail⟩

theorem selfDelimiting_record : SelfDelimiting Written frameRecord := by
  have hframes := selfDelimiting_text.dependent selfDelimiting_fields
  intro record record' s t hwritten hwritten' hsame
  rw [frameRecord_eq hwritten.2, frameRecord_eq hwritten'.2] at hsame
  exact hframes record record' s t ⟨fits_classLabel record, hwritten⟩
    ⟨fits_classLabel record', hwritten'⟩ hsame

/-! ## The preimage of a workspace inventory -/

def AuthorityFits (authority : WorkspaceScopeSourceAuthority) : Prop :=
  authority.scopeOrdinal.toNat < 256 ^ 8 ∧ Fits authority.sourceConnectionId.value

def frameAuthority (authority : WorkspaceScopeSourceAuthority) : List UInt8 :=
  toBeBytes 8 authority.scopeOrdinal.toNat ++ frameText authority.sourceConnectionId.value

theorem selfDelimiting_authority : SelfDelimiting AuthorityFits frameAuthority := by
  refine (selfDelimiting_u32.pair selfDelimiting_text).comap
    (f := fun authority : WorkspaceScopeSourceAuthority =>
      (authority.scopeOrdinal, authority.sourceConnectionId.value)) ?_
  intro authority authority' h
  obtain ⟨_, ⟨_⟩⟩ := authority
  obtain ⟨_, ⟨_⟩⟩ := authority'
  cases h
  rfl

theorem appendAuthority_ok {output output' : List UInt8}
    {authority : WorkspaceScopeSourceAuthority}
    (h : appendAuthority output authority = .ok output') :
    AuthorityFits authority ∧ output' = output ++ frameAuthority authority := by
  obtain ⟨hfits, rfl⟩ := appendTextOr_eq_ok.mp h
  exact ⟨⟨fits_u32 _, hfits⟩, List.append_assoc _ _ _⟩

/-- The control member. -/
def endMember : WorkspaceNamespacedExportRecord := .control reservedExportMetadataPath

/-- Records with the control member at their end, and nowhere else. -/
def EndsInControl (records : List WorkspaceNamespacedExportRecord) : Prop :=
  ∃ front, records = front ++ [endMember] ∧
    ∀ record ∈ front, isControl record = false

theorem inventoryPreimage_ok {scopeSources : List WorkspaceScopeSourceAuthority}
    {front : List WorkspaceNamespacedExportRecord} {bytes : List UInt8}
    (hfront : ∀ record ∈ front, isControl record = false)
    (h : canonicalInventoryPreimage scopeSources
      (front ++ [endMember]) = .ok bytes) :
    ((scopeSources.length < 256 ^ 8 ∧ ∀ authority ∈ scopeSources, AuthorityFits authority) ∧
        front.length < 256 ^ 8 ∧ ∀ record ∈ front, Written record) ∧
      bytes = workspaceExportInventoryDomain ++
        ((toBeBytes 8 scopeSources.length ++ scopeSources.flatMap frameAuthority) ++
          (toBeBytes 8 front.length ++ front.flatMap frameRecord)) := by
  obtain ⟨_, h₁, h⟩ := bind_eq_ok.mp h
  obtain ⟨hsources, rfl⟩ := appendCountOr_eq_ok.mp h₁
  obtain ⟨_, h₁, h⟩ := bind_eq_ok.mp h
  obtain ⟨hauthorities, rfl⟩ := foldlM_append_ok appendAuthority (fun _ _ _ => appendAuthority_ok) h₁
  obtain ⟨_, _, h⟩ := bind_eq_ok.mp h
  obtain ⟨_, h₁, h⟩ := bind_eq_ok.mp h
  have hlength : (front ++ [endMember]).length - 1 = front.length := by
    rw [List.length_append, List.length_singleton, Nat.add_sub_cancel]
  rw [hlength] at h₁
  obtain ⟨hrecords, rfl⟩ := appendCountOr_eq_ok.mp h₁
  obtain ⟨hfits, rfl⟩ := foldlM_append_ok appendRecord (fun _ _ _ => appendRecord_ok) h
  refine ⟨⟨⟨hsources, hauthorities⟩, hrecords, fun record hmem =>
    ⟨hfits record (List.mem_append_left _ hmem), hfront record hmem⟩⟩, ?_⟩
  have hnothing : [endMember].flatMap frameRecord = [] := rfl
  rw [List.flatMap_append, hnothing, List.append_nil]
  simp only [List.append_assoc]

theorem inventoryPreimage_injective {scopeSources scopeSources' : List WorkspaceScopeSourceAuthority}
    {records records' : List WorkspaceNamespacedExportRecord} {bytes : List UInt8}
    (hends : EndsInControl records) (hends' : EndsInControl records')
    (h : canonicalInventoryPreimage scopeSources records = .ok bytes)
    (h' : canonicalInventoryPreimage scopeSources' records' = .ok bytes) :
    scopeSources = scopeSources' ∧ records = records' := by
  obtain ⟨front, rfl, hfront⟩ := hends
  obtain ⟨front', rfl, hfront'⟩ := hends'
  obtain ⟨hfits, rfl⟩ := inventoryPreimage_ok hfront h
  obtain ⟨hfits', hsame⟩ := inventoryPreimage_ok hfront' h'
  have hcount := selfDelimiting_toBeBytes 8
  have hboth := ((hcount.counted selfDelimiting_authority).pair
    (hcount.counted selfDelimiting_record)).injective
    (a := (scopeSources, front)) (b := (scopeSources', front')) hfits hfits'
    (List.append_cancel_left hsame)
  cases hboth
  exact ⟨rfl, rfl⟩

/-! ## Planned inventories -/

/-- The inventory is the plan of some entries. -/
def IsPlan (unicode : UnicodeTables) (sha256 : List UInt8 → List UInt8)
    (inventory : WorkspaceNamespacedInventory) : Prop :=
  ∃ sessionLayout offer scopeSources entries,
    planInventory unicode sha256 sessionLayout offer scopeSources entries = .ok inventory

variable {unicode : UnicodeTables} {sha256 : List UInt8 → List UInt8}

theorem isControl_of_becomes {plan : PlanScope} {entry : WorkspaceAuthorizedExportEntry}
    {record : WorkspaceNamespacedExportRecord} (h : Becomes unicode plan entry record) :
    isControl record = false := by
  obtain ⟨scope, logicalPath, -, -, -, -, -, rfl⟩ := h
  cases entry with
  | directory winningScopeOrdinal mountId path => rfl
  | file winningScopeOrdinal mountId path metadata => rfl

theorem records_of_finishPlan {scopeSources : List WorkspaceScopeSourceAuthority}
    {targetCounts : List WorkspaceTargetDirectory}
    {directories : List WorkspaceNamespacedExportRecord} {files : List WorkspaceFileRecord}
    {inventory : WorkspaceNamespacedInventory}
    (h : finishPlan sha256 scopeSources targetCounts directories files = .ok inventory) :
    inventory.records = inventoryRecords directories files ∧
      inventory.scopeSources = scopeSources ∧ inventory.targetDirectories = targetCounts := by
  obtain ⟨_, -, h⟩ := bind_eq_ok.mp h
  obtain ⟨⟨directoryCount, fileCount, contentBytes⟩, -, h⟩ := bind_eq_ok.mp h
  obtain ⟨archiveEntryCount, -, h⟩ := bind_eq_ok.mp h
  obtain ⟨preimage, -, h⟩ := bind_eq_ok.mp h
  cases h
  exact ⟨rfl, rfl, rfl⟩

theorem Planned.isControl_directories {plan : PlanScope} {start : PlanState}
    {entries : List WorkspaceAuthorizedExportEntry}
    {records : List WorkspaceNamespacedExportRecord}
    {targetCounts : List WorkspaceTargetDirectory}
    (h : Planned unicode plan start entries records targetCounts)
    {record : WorkspaceNamespacedExportRecord} (hmem : record ∈ planDirectories start records) :
    isControl record = false := by
  have hmem' := (List.mem_insertionSort _).mp hmem
  obtain hstart | hrecord := List.mem_append.mp hmem'
  · obtain ⟨-, -, hstarted⟩ := start_eq_ok.mp h.started
    rw [hstarted] at hstart
    obtain ⟨target, -, rfl⟩ := List.mem_map.mp hstart
    rfl
  · obtain ⟨original, horiginal, hin⟩ := List.mem_flatMap.mp hrecord
    obtain ⟨entry, -, hbecomes⟩ := exists_of_mem_right h.become horiginal
    have hnot := isControl_of_becomes hbecomes
    cases original with
    | file file => exact nomatch hin
    | targetDirectory mountId target memberPath => exact List.mem_singleton.mp hin ▸ rfl
    | directory winningScopeOrdinal mountId target logicalPath memberPath =>
        exact List.mem_singleton.mp hin ▸ rfl
    | control memberPath => exact nomatch hnot

theorem endsInControl_of_isPlan {inventory : WorkspaceNamespacedInventory}
    (h : IsPlan unicode sha256 inventory) : EndsInControl inventory.records := by
  obtain ⟨sessionLayout, offer, scopeSources, entries, hplan⟩ := h
  obtain ⟨-, start, records, targetCounts, hplanned, hfinish⟩ := planInventory_eq_ok.mp hplan
  obtain ⟨hrecords, -, -⟩ := records_of_finishPlan hfinish
  refine ⟨_, hrecords, fun record hmem => ?_⟩
  obtain hdirectory | hfile := List.mem_append.mp hmem
  · exact hplanned.isControl_directories hdirectory
  · obtain ⟨file, -, rfl⟩ := List.mem_map.mp hfile
    rfl

theorem isPlan_of_validateAgainstExport {inventory : WorkspaceNamespacedInventory}
    {sessionLayout : SessionLayout} {offer : WorkspaceExportOffer}
    (h : validateAgainstExport unicode sha256 inventory sessionLayout offer = .ok ()) :
    IsPlan unicode sha256 inventory := by
  obtain ⟨expected, hplan, h⟩ := bind_eq_ok.mp h
  obtain ⟨_, -, h⟩ := bind_eq_ok.mp h
  obtain rfl : inventory = expected := not_not.mp (failIf_eq_ok.mp h)
  exact ⟨sessionLayout, offer, _, _, hplan⟩

end WorkspaceExport

open WorkspaceExport

/-! ## What digests bind -/

/-- Equal preimages mean equal scope sources and records, equal inventories, equal writable
metadata, and equal lists of projections and bodies; chunks are hashed to what their
files are; and the plan of an inventory does not depend on the order of its entries. -/
theorem digests_bind (unicode : UnicodeTables) (sha256 : List UInt8 → List UInt8) :
    (∀ inventory inventory' : WorkspaceNamespacedInventory, ∀ bytes,
      IsPlan unicode sha256 inventory → IsPlan unicode sha256 inventory' →
      canonicalInventoryPreimage inventory.scopeSources inventory.records = .ok bytes →
      canonicalInventoryPreimage inventory'.scopeSources inventory'.records = .ok bytes →
        inventory.scopeSources = inventory'.scopeSources ∧
          inventory.records = inventory'.records) ∧
    (∀ (inventory : WorkspaceNamespacedInventory) sessionLayout offer,
      validateAgainstExport unicode sha256 inventory sessionLayout offer = .ok () →
        IsPlan unicode sha256 inventory) ∧
    (∀ records records' : List CanonicalExportRecord, ∀ bytes,
      canonicalExportInventoryPreimage unicode records = .ok bytes →
      canonicalExportInventoryPreimage unicode records' = .ok bytes → records = records') ∧
    (∀ metadata metadata' : WritableExportMetadata, ∀ bytes,
      canonicalWritableMetadataPreimage metadata = .ok bytes →
      canonicalWritableMetadataPreimage metadata' = .ok bytes → metadata = metadata') ∧
    (∀ (expected expected' : UInt64) (files files' : List (ProjectionId × List UInt8)), ∀ bytes,
      DeliveredBodyDigest.deliveredPreimage expected files = .ok bytes →
      DeliveredBodyDigest.deliveredPreimage expected' files' = .ok bytes → files = files') ∧
    (∀ (expected : UInt64) (files : List (ProjectionId × UInt64 × List (List UInt8))), ∀ bytes,
      DeliveredBodyDigest.chunkedPreimage expected files = .ok bytes ↔
        (∀ file ∈ files, DeliveredBodyDigest.AnnouncedRight file) ∧
          DeliveredBodyDigest.deliveredPreimage expected
            (files.map DeliveredBodyDigest.wholeFile) = .ok bytes) ∧
    ∀ (sessionLayout : SessionLayout) (offer : WorkspaceExportOffer)
      (scopeSources : List WorkspaceScopeSourceAuthority)
      (entries entries' : List WorkspaceAuthorizedExportEntry)
      (inventory : WorkspaceNamespacedInventory), entries.Perm entries' →
      (planInventory unicode sha256 sessionLayout offer scopeSources entries = .ok inventory ↔
        planInventory unicode sha256 sessionLayout offer scopeSources entries' =
          .ok inventory) := by
  refine ⟨?_, fun _ _ _ => isPlan_of_validateAgainstExport,
    fun _ _ _ => exportInventoryPreimage_injective,
    fun _ _ _ => writableMetadataPreimage_injective,
    fun _ _ _ _ _ => DeliveredBodyDigest.deliveredPreimage_injective,
    fun _ _ _ => DeliveredBodyDigest.chunkedPreimage_eq_ok, ?_⟩
  · intro inventory inventory' bytes hplan hplan'
    exact inventoryPreimage_injective (endsInControl_of_isPlan hplan)
      (endsInControl_of_isPlan hplan')
  · intro sessionLayout offer scopeSources entries entries' inventory hperm
    exact ⟨planInventory_perm hperm, planInventory_perm hperm.symm⟩

end Locality.Protocol
