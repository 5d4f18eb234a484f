/-
  Daemon/ContractAgreement.lean --- the contract of scope-authorized exports against the
  extraction of their archives.

  The contract keeps paths from being the same, and asks for their parents, but for that
  of the control directory.  The extraction keeps all prefixes apart in lower case, and
  asks that none is both a file and a directory.  Neither does what the other does, and
  neither compares by case folding.
-/
import Locality.Daemon.ExtractionRun
import Locality.Foundation.OrderFree

set_option autoImplicit false

namespace Locality.Daemon

open Locality.Core Locality.Foundation Locality.Protocol Locality.Protocol.Scope

section Unicode

variable (unicode : UnicodeTables) (lowercase : Text → Text) (sha256 : List UInt8 → List UInt8)
  (codec : ControlCodec ExportTerminalControl) (limits : ReplicaMaterializationLimits)
  (offer : SealedExportOffer)

/-! ## Exports and their archives -/

/-- The body of a file is as long as its record says, and has the digest it says. -/
def BodyMatches (content : ExportContent) : Prop :=
  match content.record with
  | .file _ _ _ _ contentSha256 byteLength =>
      content.body.length = byteLength.toNat ∧ sha256Label sha256 content.body = contentSha256
  | _ => True

/-- An export that keeps the contract: paths are logical paths, the control accepts the
offer and the inventory, the bodies are those of the records and of the receipt. -/
structure KeepsContract (control : ExportTerminalControl) (contents : List ExportContent) :
    Prop where
  paths : ∀ content ∈ contents, ∀ path, content.record.logicalPath? = some path →
    LogicalPath.new unicode path.value = .ok path
  inventory : control.validateAgainstInventory sha256 unicode offer
    (contents.map ExportContent.record) = .ok ()
  bodies : ∀ content ∈ contents, BodyMatches sha256 content
  receipt : ∃ preimage,
    DeliveredBodyDigest.deliveredPreimage offer.fileCount
      (contents.flatMap ExportContent.delivered) = .ok preimage ∧
    control.completionReceipt.deliveredBodySha256 = sha256Label sha256 preimage

/-- The entry that is written for a content. -/
def WrittenAs (control : ExportTerminalControl) (content : ExportContent) (entry : TarEntry) :
    Prop :=
  entry.hasLinkName = false ∧
  match content.record with
  | .control _ memberPath =>
      entry.entryType = .regular ∧ entry.path = .utf8 memberPath ∧
        replicaPaxFields entry = .ok [] ∧ entry.mode = some readOnlyFileMode ∧
        entry.size.toNat = entry.reads.flatten.length ∧
        codec.encode control = some entry.reads.flatten
  | .directory key =>
      entry.entryType = .directory ∧
        (∃ raw, entry.path = .utf8 raw ∧ memberPath true raw = key.logicalPath.value) ∧
        replicaPaxFields entry = .ok [] ∧ entry.mode = some readOnlyDirectoryMode ∧ entry.size = 0
  | .file key sourceConnectionId fileKind effectiveActions contentSha256 byteLength =>
      entry.entryType = .regular ∧ entry.path = .utf8 key.logicalPath.value ∧
        replicaPaxFields entry = .ok (metadataOf key sourceConnectionId fileKind effectiveActions
          contentSha256).fields ∧
        entry.mode = some readOnlyFileMode ∧ entry.size = byteLength ∧
        entry.reads.flatten = content.body

/-- The archive of contents: an entry for each of them in order, and a clean end. -/
structure IsArchiveOf (control : ExportTerminalControl) (contents : List ExportContent)
    (stream : TarStream) : Prop where
  entries : ∃ entries, stream.entries = entries.map some ∧
    List.Forall₂ (WrittenAs codec control) contents entries
  endsInMarker : stream.endsInMarker = true
  trailingData : stream.trailingData = false

/-- An archive that is small enough. -/
structure WithinLimits (control : ExportTerminalControl) (contents : List ExportContent) :
    Prop where
  entries : contents.length ≤ limits.maxEntries.toNat
  files : ∀ content ∈ contents, content.byteLength ≤ limits.maxFileBytes.toNat
  disk : (contents.map ExportContent.byteLength).sum ≤ limits.maxDiskBytes.toNat
  control : ∀ bytes, codec.encode control = some bytes →
    bytes.length ≤ maxExportTerminalControlBytes

/-- A control that is read as it was written. -/
def RoundTrips (control : ExportTerminalControl) : Prop :=
  ∃ bytes, codec.encode control = some bytes ∧ codec.decode bytes = some control

/-- The metadata of a file can be written as PAX records. -/
def PaxFits (content : ExportContent) : Prop :=
  match content.record with
  | .file key sourceConnectionId fileKind effectiveActions contentSha256 _ =>
      (metadataOf key sourceConnectionId fileKind effectiveActions contentSha256).toRecords.isSome
  | _ => True

instance (content : ExportContent) : Decidable (PaxFits content) :=
  match content with
  | ⟨.directory _, _⟩ => isTrue trivial
  | ⟨.control _ _, _⟩ => isTrue trivial
  | ⟨.file key sourceConnectionId fileKind effectiveActions contentSha256 _, _⟩ =>
      inferInstanceAs (Decidable ((metadataOf key sourceConnectionId fileKind effectiveActions
        contentSha256).toRecords.isSome = true))

/-! ## What extractions materialize -/

/-- The paths of what is staged, and their parents. -/
def stagedPlacements (staged : List StagedNode) : List (Text × FilesystemKind) :=
  staged.flatMap fun node =>
    match node with
    | .directory path => placements path true
    | .file path _ => placements path false

/-- The claims that placed paths make to their portable forms. -/
def portableClaims (placed : List (Text × FilesystemKind)) : List (Text × Text) :=
  placed.map fun (path, _) => (portablePathCollisionKey unicode path, path)

/-- What the extraction staged is what the contract is about: records that the offer
accepts, their bodies, and a tree in which no path is both a file and a directory and no
two are one path elsewhere. -/
def MaterializesContract (scan : ReplicaScan) : Prop :=
  offer.validateInventory unicode sha256 scan.records = .ok () ∧
  (∃ contents : List ExportContent, scan.records = contents.map ExportContent.record ∧
    scan.staged = contents.flatMap ExportContent.staged ∧
    ∀ content ∈ contents, BodyMatches sha256 content) ∧
  Agree (stagedPlacements scan.staged) ∧
  Agree (portableClaims unicode (stagedPlacements scan.staged))

/-- Paths that differ in lower case differ when their case is folded. -/
def FoldsApart (placed : List (Text × FilesystemKind)) : Prop :=
  ∀ placement ∈ placed, ∀ placement' ∈ placed,
    portablePathCollisionKey unicode placement.1 = portablePathCollisionKey unicode placement'.1 →
      lowercase (unicode.nfc placement.1) = lowercase (unicode.nfc placement'.1)

variable {unicode lowercase sha256 codec limits offer} {control : ExportTerminalControl}
  {contents : List ExportContent} {content content' : ExportContent} {entry : TarEntry}
  {scan : ReplicaScan}

/-! ## The contract, record by record -/

theorem actions_of_validate {key : CanonicalFileOrderKey} {sourceConnectionId : SourceConnectionId}
    {fileKind : ProjectionFileKind} {effectiveActions : ActionSet} {contentSha256 : Text}
    {byteLength : UInt64} (h : (CanonicalExportRecord.file key sourceConnectionId fileKind
      effectiveActions contentSha256 byteLength).validate unicode = .ok ()) :
    effectiveActions ≠ ∅ := by
  obtain ⟨_, -, h⟩ := bind_eq_ok.mp h
  obtain ⟨parent, -, h⟩ := bind_eq_ok.mp h
  obtain ⟨_, -, h⟩ := bind_eq_ok.mp h
  obtain ⟨_, -, h⟩ := bind_eq_ok.mp h
  obtain ⟨_, hactions, -⟩ := bind_eq_ok.mp h
  exact failIf_eq_ok.mp hactions

theorem notControl_of_validate {key : CanonicalDirectoryOrderKey}
    (h : (CanonicalExportRecord.directory key).validate unicode = .ok ()) :
    eqIgnoreAsciiCase key.logicalPath.value ".loc".toList = false := by
  obtain ⟨_, hloc, -⟩ := bind_eq_ok.mp h
  exact Bool.not_eq_true _ ▸ failIf_eq_ok.mp hloc

theorem ne_reserved {path : Text} (h : LogicalPath.new unicode path = .ok ⟨path⟩) :
    path ≠ reservedExportMetadataPath := by
  intro hreserved
  rw [hreserved, new_reserved] at h
  exact nomatch h

/-- What is written for a valid record is read as it, if its metadata fits. -/
theorem entryOf_of_writtenAs (hvalid : content.record.validate unicode = .ok ())
    (hpath : ∀ path, content.record.logicalPath? = some path →
      LogicalPath.new unicode path.value = .ok path)
    (hbody : BodyMatches sha256 content) (hfits : PaxFits content)
    (hcontrol : content.record.isControl = false)
    (h : WrittenAs codec control content entry) :
    EntryOf unicode sha256 codec ReadFrom content entry := by
  obtain ⟨record, body⟩ := content
  obtain ⟨hlink, h⟩ := h
  cases record with
  | control key memberPath => exact nomatch hcontrol
  | directory key =>
      obtain ⟨htype, hheader, hpax, hmode, hsize⟩ := h
      exact ⟨CanonicalExportRecord.depth_of_validate hvalid, htype, hlink, hheader, hpath _ rfl,
        notControl_of_validate hvalid, hpax, hmode, hsize⟩
  | file key sourceConnectionId fileKind effectiveActions contentSha256 byteLength =>
      obtain ⟨htype, hheader, hpax, hmode, rfl, rfl⟩ := h
      obtain ⟨hlength, hdigest⟩ := hbody
      obtain ⟨records, hrecords⟩ := Option.isSome_iff_exists.mp hfits
      have hwritable := (ExportFilePaxMetadata.toRecords_eq_some.mp hrecords).1
      exact ⟨⟨htype, hlink, hheader, hpath _ rfl, ⟨_, hpax,
        (ExportFilePaxMetadata.fromRecords_fields (actions_of_validate hvalid)).mpr
          ⟨hwritable, rfl⟩⟩, hmode, CanonicalExportRecord.parent_of_validate hvalid,
          hlength.symm, hdigest⟩, rfl, rfl⟩

/-- What is written for a valid record is read as nothing else, and its metadata fits. -/
theorem record_of_entryOf (hvalid : content.record.validate unicode = .ok ())
    (hpath : ∀ path, content.record.logicalPath? = some path →
      LogicalPath.new unicode path.value = .ok path)
    (h : WrittenAs codec control content entry)
    (hread : EntryOf unicode sha256 codec ReadFrom content' entry) :
    content'.record = content.record ∧ PaxFits content := by
  obtain ⟨record, body⟩ := content
  obtain ⟨record', body'⟩ := content'
  obtain ⟨-, h⟩ := h
  cases record with
  | control key memberPath =>
      refine ⟨?_, trivial⟩
      obtain ⟨htype, hheader, -⟩ := h
      obtain ⟨hordinal, hreserved⟩ := not_or.mp (failIf_eq_ok.mp hvalid)
      rw [not_not] at hordinal hreserved
      cases record' with
      | control key' memberPath' =>
          obtain ⟨rfl, rfl, -⟩ := hread
          exact (eq_endControl rfl hvalid).symm
      | directory key' => exact absurd (htype.symm.trans hread.2.entryType) nofun
      | file key' sourceConnectionId fileKind effectiveActions contentSha256 byteLength =>
          have hsame : memberPath = key'.logicalPath.value :=
            RawText.utf8.inj (hheader.symm.trans hread.1.header)
          exact absurd (hsame.symm.trans hreserved) (ne_reserved hread.1.logical)
  | directory key =>
      refine ⟨?_, trivial⟩
      obtain ⟨htype, ⟨raw, hraw, hmember⟩, -⟩ := h
      cases record' with
      | control key' memberPath' =>
          obtain ⟨-, -, control', hcontrol⟩ := hread
          exact absurd (htype.symm.trans hcontrol.entryType) nofun
      | directory key' =>
          obtain ⟨hdepth, hdirectory⟩ := hread
          obtain ⟨raw', hraw', hmember'⟩ := hdirectory.header
          obtain rfl := RawText.utf8.inj (hraw.symm.trans hraw')
          have hdepth' := CanonicalExportRecord.depth_of_validate hvalid
          obtain ⟨depth, ⟨path⟩⟩ := key
          obtain ⟨depth', ⟨path'⟩⟩ := key'
          obtain rfl : path' = path := hmember'.symm.trans hmember
          dsimp only at hdepth hdepth'
          rw [hdepth, hdepth']
      | file key' sourceConnectionId fileKind effectiveActions contentSha256 byteLength =>
          exact absurd (htype.symm.trans hread.1.entryType) nofun
  | file key sourceConnectionId fileKind effectiveActions contentSha256 byteLength =>
      obtain ⟨htype, hheader, hpax, -, hsize, -⟩ := h
      cases record' with
      | control key' memberPath' =>
          obtain ⟨-, -, control', hcontrol⟩ := hread
          have hsame : key.logicalPath.value = reservedExportMetadataPath :=
            RawText.utf8.inj (hheader.symm.trans hcontrol.header)
          exact absurd hsame (ne_reserved (hpath _ rfl))
      | directory key' => exact absurd (htype.symm.trans hread.2.entryType) nofun
      | file key' sourceConnectionId' fileKind' effectiveActions' contentSha256' byteLength' =>
          obtain ⟨hfile, hsize', -⟩ := hread
          obtain ⟨fields, hfields, hmetadata⟩ := hfile.pax
          obtain rfl := Except.ok.inj (hpax.symm.trans hfields)
          obtain ⟨hwritable, hsame⟩ := (ExportFilePaxMetadata.fromRecords_fields
            (actions_of_validate hvalid)).mp hmetadata
          have hpathSame := RawText.utf8.inj (hheader.symm.trans hfile.header)
          have hparent := CanonicalExportRecord.parent_of_validate hvalid
          have hparent' := hfile.parent
          refine ⟨?_, Option.isSome_iff_exists.mpr
            ⟨_, ExportFilePaxMetadata.toRecords_eq_some.mpr ⟨hwritable, rfl⟩⟩⟩
          obtain ⟨ordinal, parentPath, ⟨path⟩, projectionId⟩ := key
          obtain ⟨ordinal', parentPath', ⟨path'⟩, projectionId'⟩ := key'
          dsimp only at hpathSame hparent hparent'
          subst hpathSame
          obtain rfl := Except.ok.inj (hparent.symm.trans hparent')
          simp only [metadataOf, ExportFilePaxMetadata.mk.injEq] at hsame
          obtain ⟨rfl, rfl, rfl, rfl, rfl, rfl⟩ := hsame
          rw [← hsize', hsize]

/-! ## The contract as a whole -/

theorem inventory_of_validateAgainst {records : List CanonicalExportRecord}
    (h : control.validateAgainstInventory sha256 unicode offer records = .ok ()) :
    offer.validateInventory unicode sha256 records = .ok () := by
  obtain ⟨_, -, h⟩ := bind_eq_ok.mp h
  obtain ⟨_, hinventory, -⟩ := bind_eq_ok.mp h
  exact hinventory

theorem records_of_inventory {records : List CanonicalExportRecord}
    (h : offer.validateInventory unicode sha256 records = .ok ()) :
    validateCanonicalExportRecords unicode records = .ok () := by
  obtain ⟨_, -, h⟩ := bind_eq_ok.mp h
  obtain ⟨_, hrecords, -⟩ := bind_eq_ok.mp h
  exact hrecords

theorem RecordScan.step_paths {scan scan' : RecordScan} {record : CanonicalExportRecord}
    (h : scan.step unicode record = .ok scan') :
    scan'.logicalPaths = record.logicalPath?.toList ++ scan.logicalPaths ∧
      ∀ path ∈ record.logicalPath?, path ∉ scan.logicalPaths := by
  obtain ⟨_, -, h⟩ := bind_eq_ok.mp h
  obtain ⟨claimed, hclaimed, h⟩ := bind_eq_ok.mp h
  obtain ⟨parented, hparented, h⟩ := bind_eq_ok.mp h
  obtain ⟨_, -, h⟩ := bind_eq_ok.mp h
  cases h
  have hparent : parented.logicalPaths = claimed.logicalPaths := by
    cases record with
    | directory key =>
        obtain ⟨_, -, h⟩ := bind_eq_ok.mp hparented
        obtain ⟨_, -, h⟩ := bind_eq_ok.mp h
        cases h
        rfl
    | file key sourceConnectionId fileKind effectiveActions contentSha256 byteLength =>
        obtain ⟨_, -, h⟩ := bind_eq_ok.mp hparented
        obtain ⟨_, -, h⟩ := bind_eq_ok.mp h
        cases h
        rfl
    | control key memberPath =>
        cases hparented
        rfl
  unfold RecordScan.claimPath at hclaimed
  cases hpath : record.logicalPath? with
  | none =>
      rw [hpath] at hclaimed
      cases hclaimed
      exact ⟨hparent, fun _ h => (nomatch h)⟩
  | some path =>
      rw [hpath] at hclaimed
      obtain ⟨hnew, hclaimed⟩ := ite_throw_eq_ok.mp hclaimed
      cases hclaimed
      refine ⟨hparent, fun path' h => ?_⟩
      cases Option.mem_some.mp h
      exact hnew

theorem RecordScan.run_paths {records : List CanonicalExportRecord} {scan scan' : RecordScan}
    (h : records.foldlM (fun (scan : RecordScan) record => scan.step unicode record) scan =
      .ok scan') (hnodup : scan.logicalPaths.Nodup) :
    (records.filterMap CanonicalExportRecord.logicalPath?).Nodup ∧
      ∀ path ∈ records.filterMap CanonicalExportRecord.logicalPath?, path ∉ scan.logicalPaths := by
  induction records generalizing scan with
  | nil => exact ⟨List.nodup_nil, fun _ h => (nomatch h)⟩
  | cons record records ih =>
      obtain ⟨next, hnext, hrest⟩ := bind_eq_ok.mp h
      obtain ⟨hpaths, hnew⟩ := RecordScan.step_paths hnext
      cases hpath : record.logicalPath? with
      | none =>
          rw [hpath, Option.toList_none, List.nil_append] at hpaths
          rw [List.filterMap_cons, hpath, ← hpaths]
          exact ih hrest (hpaths ▸ hnodup)
      | some path =>
          rw [hpath, Option.toList_some, List.singleton_append] at hpaths
          have hfresh := hnew path (hpath ▸ rfl)
          obtain ⟨hrestNodup, hrestNew⟩ := ih hrest
            (hpaths ▸ List.nodup_cons.mpr ⟨hfresh, hnodup⟩)
          rw [List.filterMap_cons, hpath]
          refine ⟨List.nodup_cons.mpr ⟨fun hmem => hrestNew path hmem (hpaths ▸
            List.mem_cons_self), hrestNodup⟩, fun path' hmem => ?_⟩
          rcases List.mem_cons.mp hmem with rfl | hmem
          · exact hfresh
          · exact fun hold => hrestNew path' hmem (hpaths ▸ List.mem_cons_of_mem path hold)

theorem logicalPathValue_injective : Function.Injective LogicalPath.value := by
  intro path path' h
  obtain ⟨value⟩ := path
  obtain ⟨value'⟩ := path'
  exact congrArg LogicalPath.mk h

/-- The paths of a valid inventory come once. -/
theorem nodup_paths (h : validateCanonicalExportRecords unicode
    (contents.map ExportContent.record) = .ok ()) :
    (contents.filterMap ExportContent.path?).Nodup := by
  obtain ⟨scan, hscan, -⟩ := bind_eq_ok.mp h
  have hpaths := (RecordScan.run_paths hscan List.nodup_nil).1
  rw [List.filterMap_map] at hpaths
  have hvalues : contents.filterMap ExportContent.path? =
      (contents.filterMap (CanonicalExportRecord.logicalPath? ∘ ExportContent.record)).map
        LogicalPath.value := by
    rw [List.map_filterMap]
    rfl
  rw [hvalues]
  exact hpaths.map logicalPathValue_injective

/-- The contents of a valid inventory end in the control record, and have no other. -/
theorem exists_front (h : validateCanonicalExportRecords unicode
    (contents.map ExportContent.record) = .ok ()) :
    ∃ front last, contents = front ++ [last] ∧ last.record = endControl ∧
      ∀ content ∈ front, content.record.isControl = false ∧
        content.record.validate unicode = .ok () := by
  obtain ⟨records, hrecords, hfront⟩ := records_of_validate h
  obtain ⟨front, back, rfl, rfl, hback⟩ := List.map_eq_append_iff.mp hrecords
  obtain ⟨last, rfl, hlast⟩ := List.map_eq_singleton_iff.mp hback
  exact ⟨front, last, rfl, hlast, fun content hmem => hfront _ (List.mem_map_of_mem hmem)⟩

theorem validate_endControl : endControl.validate unicode = .ok () := rfl

/-- The placements of contents are those of their records. -/
theorem flatMap_placed : contents.flatMap ExportContent.placed =
    (contents.map ExportContent.record).flatMap recordPlacements := by
  rw [List.flatMap_map]
  rfl

/-- The placements of what is staged are those of the contents. -/
theorem stagedPlacements_staged : stagedPlacements (contents.flatMap ExportContent.staged) =
    contents.flatMap ExportContent.placed := by
  rw [stagedPlacements, List.flatMap_assoc]
  refine congrArg (contents.flatMap ·) (funext fun content => ?_)
  obtain ⟨record, body⟩ := content
  cases record with
  | directory key => exact List.append_nil _
  | file key sourceConnectionId fileKind effectiveActions contentSha256 byteLength =>
      exact List.append_nil _
  | control key memberPath => rfl

/-! ## From the contract to the extraction -/

theorem KeepsContract.validate (h : KeepsContract unicode sha256 offer control contents) :
    ∀ content ∈ contents, content.record.validate unicode = .ok () := by
  obtain ⟨front, last, rfl, hlast, hfront⟩ :=
    exists_front (records_of_inventory (inventory_of_validateAgainst h.inventory))
  intro content hmem
  rcases List.mem_append.mp hmem with hmem | hmem
  · exact (hfront content hmem).2
  · rw [List.mem_singleton.mp hmem, hlast]
    exact validate_endControl

theorem KeepsContract.admissible (h : KeepsContract unicode sha256 offer control contents)
    (hlimits : WithinLimits codec limits control contents)
    (hplaced : Collisionless unicode lowercase (contents.flatMap ExportContent.placed)) :
    Admissible unicode lowercase limits offer contents := by
  obtain ⟨preimage, hpreimage, -⟩ := h.receipt
  obtain ⟨digest, hdigest, -⟩ := bind_eq_ok.mp hpreimage
  exact ⟨hlimits.entries, hlimits.files, hlimits.disk,
    nodup_paths (records_of_inventory (inventory_of_validateAgainst h.inventory)), hplaced,
    digest, hdigest⟩

theorem controlEntry_of_writtenAs (hcontrol : content.record = endControl)
    (hlimits : WithinLimits codec limits control contents) (hcodec : RoundTrips codec control)
    (h : WrittenAs codec control content entry) : ControlEntry codec entry control := by
  obtain ⟨record, body⟩ := content
  cases hcontrol
  obtain ⟨hlink, htype, hheader, hpax, hmode, hsize, hencode⟩ := h
  obtain ⟨bytes, hbytes, hdecode⟩ := hcodec
  obtain rfl := Option.some.inj (hencode.symm.trans hbytes)
  exact ⟨htype, hlink, hheader, hpax, hmode, hsize ▸ hlimits.control _ hencode, hdecode, hencode⟩

/-- The archive of a contract is extracted, where its metadata fits and nothing collides. -/
theorem exists_extract {stream : TarStream}
    (h : KeepsContract unicode sha256 offer control contents)
    (harchive : IsArchiveOf codec control contents stream)
    (hlimits : WithinLimits codec limits control contents) (hcodec : RoundTrips codec control)
    (hfits : ∀ content ∈ contents, PaxFits content)
    (hplaced : Collisionless unicode lowercase (contents.flatMap ExportContent.placed)) :
    ∃ summary, extractScopeAuthorizedTar unicode lowercase sha256 codec limits offer stream =
      .ok summary := by
  have hadmissible := h.admissible hlimits hplaced
  have hvalidate := h.validate
  obtain ⟨preimage, hpreimage, hreceipt⟩ := h.receipt
  obtain ⟨digest, hdigest, hbytes⟩ := bind_eq_ok.mp hpreimage
  obtain ⟨entries, hentries, hwritten⟩ := harchive.entries
  obtain ⟨front, last, rfl, hlast, hfront⟩ :=
    exists_front (records_of_inventory (inventory_of_validateAgainst h.inventory))
  obtain ⟨before, entry, rfl, hbefore, hentry⟩ := forall₂_snoc_left hwritten
  have hread : List.Forall₂ (EntryOf unicode sha256 codec ReadFrom) front before :=
    forall₂_imp_mem hbefore fun content hmem entry hwritten =>
      have hmem' := List.mem_append_left [last] hmem
      entryOf_of_writtenAs (hvalidate content hmem') (h.paths content hmem')
        (h.bodies content hmem') (hfits content hmem') (hfront content hmem).1 hwritten
  have hstart : Ready unicode lowercase offer [] (ReplicaScan.start offer) := ready_start
  obtain ⟨scan, hscan, hready⟩ := hstart.run (fun content hmem => (hfront content hmem).1) hread
    hadmissible.of_append_left
  rw [List.nil_append] at hready
  have hroom := hadmissible.entries
  rw [List.length_append, List.length_singleton] at hroom
  have hfinish : scanReplicaEntries unicode lowercase sha256 codec limits offer stream =
      .ok (scan.count.withControl control) := by
    rw [scanReplicaEntries, hentries, List.map_append, List.foldlM_append]
    exact bind_eq_ok.mpr ⟨scan, hscan, bind_eq_ok.mpr ⟨_, hready.finish hroom
      (controlEntry_of_writtenAs hlast hlimits hcodec hentry), rfl⟩⟩
  have hrecords : (scan.count.withControl control).records =
      (front ++ [last]).map ExportContent.record := by
    rw [List.map_append, List.map_singleton, hlast]
    exact congrArg (· ++ [endControl]) hready.hasRead.records
  have hsame : scan.bodyDigest = digest := by
    rw [List.flatMap_append, List.flatMap_singleton, ExportContent.delivered, hlast, endControl,
      List.append_nil, hready.digest] at hdigest
    exact Except.ok.inj hdigest
  refine ⟨_, bind_eq_ok.mpr ⟨_, hfinish, rejectIf_bind_eq_ok.mpr
    ⟨Bool.not_eq_false _ ▸ harchive.endsInMarker, rejectIf_bind_eq_ok.mpr
      ⟨Bool.not_eq_true _ ▸ harchive.trailingData, okOr_bind_eq_ok.mpr ⟨control, rfl,
        mapError_bind_eq_ok.mpr ⟨(), hrecords.symm ▸ h.inventory, mapError_bind_eq_ok.mpr
          ⟨sha256Label sha256 preimage, bind_eq_ok.mpr ⟨preimage, hsame ▸ hbytes, rfl⟩,
            rejectIf_bind_eq_ok.mpr ⟨not_not.mpr hreceipt, rfl⟩⟩⟩⟩⟩⟩⟩⟩

/-- What was scanned fits, is staged where it belongs, and collides nowhere. -/
theorem fits_of_scan {stream : TarStream}
    (h : KeepsContract unicode sha256 offer control contents)
    (harchive : IsArchiveOf codec control contents stream)
    (hscan : scanReplicaEntries unicode lowercase sha256 codec limits offer stream = .ok scan) :
    (∀ content ∈ contents, PaxFits content) ∧
      stagedPlacements scan.staged = contents.flatMap ExportContent.placed ∧
      Collisionless unicode lowercase (contents.flatMap ExportContent.placed) := by
  obtain ⟨entries, hentries, hwritten⟩ := harchive.entries
  obtain ⟨read, entries', hsame, hread, hhasRead⟩ := (hasRead_start offer).of_run hscan
  have hsameEntries : entries' = entries :=
    List.map_injective_iff.mpr (Option.some_injective _) (hsame.symm.trans hentries)
  subst hsameEntries
  rw [List.nil_append] at hhasRead
  have hvalidate := h.validate
  have hpaths := h.paths
  have hrecords : read.map ExportContent.record = contents.map ExportContent.record ∧
      ∀ content ∈ contents, PaxFits content := by
    clear h harchive hhasRead hentries hsame hscan
    induction hwritten generalizing read with
    | nil =>
        cases List.forall₂_nil_right_iff.mp hread
        exact ⟨rfl, fun _ h => (nomatch h)⟩
    | @cons content entry contents entries hentry hentries ih =>
        obtain ⟨content', rest, hcontent, hrest, rfl⟩ := List.forall₂_cons_right_iff.mp hread
        obtain ⟨hrecord, hfits⟩ := record_of_entryOf (hvalidate content List.mem_cons_self)
          (hpaths content List.mem_cons_self) hentry hcontent
        obtain ⟨hrecords, hmore⟩ := ih rest hrest
          (fun content hmem => hvalidate content (List.mem_cons_of_mem _ hmem))
          (fun content hmem => hpaths content (List.mem_cons_of_mem _ hmem))
        refine ⟨?_, List.forall_mem_cons.mpr ⟨hfits, hmore⟩⟩
        rw [List.map_cons, List.map_cons, hrecord, hrecords]
  have hplaced : read.flatMap ExportContent.placed = contents.flatMap ExportContent.placed := by
    rw [flatMap_placed, hrecords.1, ← flatMap_placed]
  refine ⟨hrecords.2, ?_, hplaced ▸ hhasRead.registered.collisionless⟩
  rw [hhasRead.staged, stagedPlacements_staged, hplaced]

/-! ## From the extraction to the contract -/

/-- The body of what was read is that of its record. -/
theorem bodyMatches_of_entryOf (h : EntryOf unicode sha256 codec ReadFrom content entry) :
    BodyMatches sha256 content := by
  obtain ⟨record, body⟩ := content
  cases record with
  | directory key => trivial
  | control key memberPath => trivial
  | file key sourceConnectionId fileKind effectiveActions contentSha256 byteLength =>
      obtain ⟨hfile, rfl, rfl⟩ := h
      exact ⟨hfile.size.symm, hfile.digest⟩

theorem mem_portableClaims {placed : List (Text × FilesystemKind)} {key value : Text} :
    (key, value) ∈ portableClaims unicode placed ↔
      (∃ kind, (value, kind) ∈ placed) ∧ portablePathCollisionKey unicode value = key := by
  rw [portableClaims, List.mem_map]
  constructor
  · intro h
    obtain ⟨⟨path, kind⟩, hmem, hclaim⟩ := h
    cases hclaim
    exact ⟨⟨kind, hmem⟩, rfl⟩
  · intro h
    obtain ⟨⟨kind, hmem⟩, rfl⟩ := h
    exact ⟨(value, kind), hmem, rfl⟩

/-- Where paths differ in lower case, they are kept apart by their portable forms if these
differ wherever lower case does. -/
theorem agree_portableClaims_iff {placed : List (Text × FilesystemKind)}
    (h : Collisionless unicode lowercase placed) :
    Agree (portableClaims unicode placed) ↔ FoldsApart unicode lowercase placed := by
  constructor
  · intro hagree placement hmem placement' hmem' hkey
    rw [hagree (mem_portableClaims.mpr ⟨⟨placement.2, hmem⟩, hkey⟩)
      (mem_portableClaims.mpr ⟨⟨placement'.2, hmem'⟩, rfl⟩)]
  · intro hfolds key value value' hvalue hvalue'
    obtain ⟨⟨kind, hmem⟩, hkey⟩ := mem_portableClaims.mp hvalue
    obtain ⟨⟨kind', hmem'⟩, hkey'⟩ := mem_portableClaims.mp hvalue'
    have hlower := hfolds _ hmem _ hmem' (hkey.trans hkey'.symm)
    exact h.2 (mem_lowercaseClaims.mpr ⟨⟨kind, hmem⟩, hlower⟩)
      (mem_lowercaseClaims.mpr ⟨⟨kind', hmem'⟩, rfl⟩)

/-- What was extracted is what the contract is about, if its paths fold apart. -/
theorem materializes_iff {stream : TarStream} {summary : ReplicaMaterializationSummary}
    (h : extractScopeAuthorizedTar unicode lowercase sha256 codec limits offer stream =
      .ok summary) :
    ∃ scan, scanReplicaEntries unicode lowercase sha256 codec limits offer stream = .ok scan ∧
      (MaterializesContract unicode sha256 offer scan ↔
        FoldsApart unicode lowercase (stagedPlacements scan.staged)) := by
  obtain ⟨scan, hscan, hclose⟩ := bind_eq_ok.mp h
  obtain ⟨-, hclose⟩ := rejectIf_bind_eq_ok.mp hclose
  obtain ⟨-, hclose⟩ := rejectIf_bind_eq_ok.mp hclose
  obtain ⟨control, -, hclose⟩ := okOr_bind_eq_ok.mp hclose
  obtain ⟨_, hinventory, -⟩ := mapError_bind_eq_ok.mp hclose
  obtain ⟨contents, entries, -, hread, hhasRead⟩ := (hasRead_start offer).of_run hscan
  rw [List.nil_append] at hhasRead
  have hplaced := hhasRead.registered.collisionless
  rw [← stagedPlacements_staged, ← hhasRead.staged] at hplaced
  have hbodies : ∀ content ∈ contents, BodyMatches sha256 content := by
    intro content hmem
    have hflip : List.Forall₂ (fun entry content =>
        EntryOf unicode sha256 codec ReadFrom content entry) entries contents := hread.flip
    obtain ⟨entry, -, hentry⟩ := exists_of_mem_right hflip hmem
    exact bodyMatches_of_entryOf hentry
  refine ⟨scan, hscan, ?_⟩
  rw [MaterializesContract, ← agree_portableClaims_iff hplaced]
  exact ⟨fun h => h.2.2.2, fun h => ⟨inventory_of_validateAgainst hinventory,
    ⟨contents, hhasRead.records, hhasRead.staged, hbodies⟩, hplaced.1, h⟩⟩

end Unicode

end Locality.Daemon
