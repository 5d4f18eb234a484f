/-
  Daemon/ArchiveAgreement.lean --- where the export planner and the archive reader agree.

  The planner accepts targets that `MountTarget::new` makes, the reader only those that
  are logical paths as well.  What the reader accepts is what the planner plans.
-/
import Locality.Daemon.ArchiveRun
import Locality.Daemon.ExtractionAgreement

set_option autoImplicit false

namespace Locality.Daemon.WorkspaceArchive

open Locality.Core Locality.Foundation Locality.Protocol Locality.Protocol.Scope
  Locality.Protocol.WorkspaceExport

/-! ## Exports and their archives -/

/-- A record, and the bytes of its file. -/
structure ArchiveContent where
  record : WorkspaceNamespacedExportRecord
  body : List UInt8

/-- The member of a content, with its body. -/
def ArchiveContent.item (content : ArchiveContent) : ArchiveItem :=
  ⟨memberOf content.record, content.body⟩

section Unicode

variable (unicode : UnicodeTables) (sha256 : List UInt8 → List UInt8)
  (codec : ControlCodec WorkspaceExportTerminalControl) (limits : WorkspaceArchiveLimits)
  (session : WorkspaceProfileSession) (offer : WorkspaceExportOffer)

/-- The archive of contents: an entry for each of them in order, and a clean end. -/
structure IsArchiveOf (tells : List (Text × Text) → ExportFilePaxMetadata → Prop)
    (control : WorkspaceExportTerminalControl) (contents : List ArchiveContent)
    (stream : TarStream) : Prop where
  entries : ∃ written, stream.entries = written.map some ∧
    List.Forall₂ (WrittenAs sha256 codec tells control) (contents.map ArchiveContent.item) written
  endsInMarker : stream.endsInMarker = true
  trailingData : stream.trailingData = false

/-- The bodies are those that the receipt was made for. -/
def BodiesDelivered (control : WorkspaceExportTerminalControl) (contents : List ArchiveContent) :
    Prop :=
  ∃ preimage, DeliveredBodyDigest.deliveredPreimage offer.offer.fileCount
      ((contents.map ArchiveContent.item).flatMap ArchiveItem.delivered) = .ok preimage ∧
    control.completionReceipt.receipt.deliveredBodySha256 = sha256Label sha256 preimage

/-- The metadata of a file can be written as PAX records. -/
def PaxFits : WorkspaceNamespacedExportRecord → Prop
  | .file record => (paxMetadataOf record.winningScopeOrdinal record.metadata).toRecords.isSome
  | _ => True

/-- An archive that is small enough. -/
structure WithinLimits (contents : List ArchiveContent) : Prop where
  entries : contents.length ≤ limits.maxEntries.toNat
  files : ∀ content ∈ contents, content.item.bytes ≤ limits.maxFileBytes.toNat
  content : (contents.map fun content => content.item.bytes).sum ≤ limits.maxContentBytes.toNat

/-- An export: a valid session, the plan of authorized entries, a control and an offer that
match the plan, and an archive of the planned records within the limits of its reader. -/
structure Exported (scopeSources : List WorkspaceScopeSourceAuthority)
    (authorized : List WorkspaceAuthorizedExportEntry) (inventory : WorkspaceNamespacedInventory)
    (control : WorkspaceExportTerminalControl) (contents : List ArchiveContent)
    (stream : TarStream) : Prop where
  valid : session.validate unicode sha256 = .ok ()
  targets : ∀ entry ∈ session.sessionLayout.entries, entry.target.Valid unicode
  planned : planInventory unicode sha256 session.sessionLayout offer scopeSources authorized =
    .ok inventory
  metadata : ∀ record ∈ inventory.records, PaxFits record
  accepted : control.validateAgainst unicode sha256 session offer inventory = .ok ()
  records : contents.map ArchiveContent.record = inventory.records
  bodies : BodiesDelivered sha256 offer control contents
  small : WithinLimits limits contents
  archive : IsArchiveOf sha256 codec FieldsOf control contents stream

/-- An archive is that of the plan of its own entries: its members are those of the planned
records in order, with their metadata and bodies, and it counts what the plan counts. -/
structure AgreesWithPlan (stream : TarStream) (result : ValidatedWorkspaceArchiveWithInventory)
    (contents : List ArchiveContent) : Prop where
  archive : IsArchiveOf sha256 codec FieldsTell result.validated.terminalControl contents stream
  records : contents.map ArchiveContent.record = result.inventory.records
  planned : planInventory unicode sha256 session.sessionLayout offer
    result.validated.terminalControl.metadata.scopeSources
    (result.inventory.records.filterMap authorizedEntryFromRecord) = .ok result.inventory
  accepted : result.validated.terminalControl.validateAgainst unicode sha256 session offer
    result.inventory = .ok ()
  plan : result.validated.plan = ⟨result.inventory.targetDirectories,
    result.inventory.records.filterMap materializationEntry⟩
  paths : ∀ record ∈ result.inventory.records, isControl record = false →
    LogicalPath.new unicode record.memberPath = .ok ⟨record.memberPath⟩
  archiveEntries : result.validated.archiveEntries = result.inventory.archiveEntryCount
  files : result.validated.files = result.inventory.fileCount
  directories : result.validated.directories = result.inventory.directoryCount
  contentBytes : result.validated.contentBytes = result.inventory.selectedContentBytes
  bodies : BodiesDelivered sha256 offer result.validated.terminalControl contents
  inventorySha256 : result.inventory.inventorySha256 = offer.offer.inventorySha256
  staged : ∃ scan, scanWorkspaceEntries unicode sha256 codec limits session.sessionLayout.entries
      offer stream = .ok scan ∧
    scan.staged = (contents.map ArchiveContent.item).flatMap ArchiveItem.staged

variable {unicode sha256 codec limits session offer}
  {scopeSources : List WorkspaceScopeSourceAuthority}
  {authorized : List WorkspaceAuthorizedExportEntry} {inventory : WorkspaceNamespacedInventory}
  {control : WorkspaceExportTerminalControl} {contents : List ArchiveContent}
  {content : ArchiveContent} {stream : TarStream} {entry : TarEntry}
  {record : WorkspaceNamespacedExportRecord}
  {result : ValidatedWorkspaceArchiveWithInventory}

/-! ## Exports that are read -/

/-- Records that fit are read as the metadata that they were written for. -/
theorem tells_of_fields (hfits : PaxFits content.record)
    (h : WrittenAs sha256 codec FieldsOf control content.item entry) :
    WrittenAs sha256 codec FieldsTell control content.item entry := by
  obtain ⟨record, body⟩ := content
  obtain ⟨hlink, h⟩ := h
  cases record with
  | targetDirectory mountId target memberPath => exact ⟨hlink, h⟩
  | directory winningScopeOrdinal mountId target logicalPath memberPath => exact ⟨hlink, h⟩
  | control memberPath => exact ⟨hlink, h⟩
  | file record =>
      obtain ⟨hfile, ⟨fields, hfields, rfl⟩, hrest⟩ := h
      obtain ⟨records, hrecords⟩ := Option.isSome_iff_exists.mp hfits
      have hwritable := (ExportFilePaxMetadata.toRecords_eq_some.mp hrecords).1
      exact ⟨hlink, hfile, ⟨_, hfields, (ExportFilePaxMetadata.fromRecords_fields
        hwritable.actions).mpr ⟨hwritable, rfl⟩⟩, hrest⟩

/-- The record of a target or of an entry is a member that can be read, if no target has a
name that is reserved. -/
theorem readable_of_front (hslash : KeepsSlashes unicode)
    (hvalid : ∀ entry ∈ session.sessionLayout.entries, entry.target.Valid unicode)
    (hnames : ∀ entry ∈ session.sessionLayout.entries, isReservedName entry.target.value = false)
    (hcases : (∃ target ∈ uniqueTargets session.sessionLayout.entries,
        record = targetRecord target) ∨
      ∃ entry, Becomes unicode (planScope session.sessionLayout offer scopeSources) entry
        record) :
    Readable unicode session.sessionLayout.entries (memberOf record) := by
  obtain ⟨⟨mountId, target⟩, hmem, rfl⟩ | ⟨entry, hbecomes⟩ := hcases
  · obtain ⟨scope, hscope, -, rfl⟩ := exists_of_mem_uniqueTargets hmem
    obtain ⟨hfree, -, -⟩ := (hvalid scope hscope).regular
    exact ⟨((hvalid scope hscope).new_iff hslash).mpr (hnames scope hscope), hfree,
      List.mem_map.mpr ⟨scope, hscope, rfl⟩⟩
  · obtain ⟨htold, scope, logicalPath, hfound, hpath, hlogical, hnew, hregular, hmount⟩ :=
      entry_of_becomes hbecomes
    obtain ⟨hscope, -⟩ := entryOfScope_eq_some hfound
    obtain ⟨hfree, -, -⟩ := (hvalid scope hscope).regular
    have hmember : memberOf record = ⟨kindOf record, memberPathOf scope.target logicalPath,
        some entry⟩ := by rw [memberOf, hpath, htold]
    rw [hmember]
    exact ⟨(hvalid scope hscope).new_member hslash (hnames scope hscope) hnew hregular,
      scope, ⟨hfound, hfree, hlogical ▸ rfl⟩, hmount⟩

/-- What is delivered can be read if it is small enough. -/
theorem admissible_of_small (hsmall : WithinLimits limits contents)
    (hbodies : BodiesDelivered sha256 offer control contents) :
    Admissible limits offer (contents.map ArchiveContent.item) := by
  obtain ⟨preimage, hpreimage, -⟩ := hbodies
  obtain ⟨digest, hdigest, -⟩ := bind_eq_ok.mp hpreimage
  refine ⟨(List.length_map _).symm ▸ hsmall.entries, fun item hmem => ?_, ?_, digest, hdigest⟩
  · obtain ⟨content, hcontent, rfl⟩ := List.mem_map.mp hmem
    exact hsmall.files content hcontent
  · rw [List.map_map]
    exact hsmall.content

/-- The archive of an export is read as the members of its records. -/
theorem exists_scan (hslash : KeepsSlashes unicode)
    (h : Exported unicode sha256 codec limits session offer scopeSources authorized inventory
      control contents stream)
    (hnames : ∀ entry ∈ session.sessionLayout.entries, isReservedName entry.target.value = false) :
    ∃ scan, scanWorkspaceEntries unicode sha256 codec limits session.sessionLayout.entries offer
        stream = .ok scan ∧ scan.rawControl = some control ∧
      HasRead offer (contents.map ArchiveContent.item) scan := by
  obtain ⟨front, records, hrecords, hfront, hperm, hbecome, -⟩ := perm_of_plan h.planned
  have hadmissible := admissible_of_small h.small h.bodies
  obtain ⟨before, rest, rfl, hbefore, hlast⟩ :=
    List.map_eq_append_iff.mp (h.records.trans hrecords)
  obtain ⟨last, rfl, hend⟩ := List.map_eq_singleton_iff.mp hlast
  obtain ⟨written, hentries, hwritten⟩ := h.archive.entries
  rw [List.map_append, List.map_singleton] at hwritten hadmissible ⊢
  obtain ⟨first, final, rfl, hfirst, hfinal⟩ := forall₂_snoc_left hwritten
  have htold : List.Forall₂ (WrittenAs sha256 codec FieldsTell control)
      (before.map ArchiveContent.item) first := by
    refine forall₂_imp_mem hfirst fun item hmem entry hentry => ?_
    obtain ⟨content, hcontent, rfl⟩ := List.mem_map.mp hmem
    refine tells_of_fields (h.metadata _ ?_) hentry
    rw [hrecords]
    exact List.mem_append_left _ (hbefore ▸ List.mem_map_of_mem hcontent)
  have hreadable : ∀ item ∈ before.map ArchiveContent.item,
      Readable unicode session.sessionLayout.entries item.member ∧
        item.member.kind ≠ .control := by
    intro item hmem
    obtain ⟨content, hcontent, rfl⟩ := List.mem_map.mp hmem
    have hrecord : content.record ∈ front := hbefore ▸ List.mem_map_of_mem hcontent
    have hcases : (∃ target ∈ uniqueTargets session.sessionLayout.entries,
        content.record = targetRecord target) ∨ ∃ entry, Becomes unicode
          (planScope session.sessionLayout offer scopeSources) entry content.record := by
      obtain htarget | ⟨entry, -, hbecomes⟩ := front_cases hperm hbecome hrecord
      · exact Or.inl htarget
      · exact Or.inr ⟨entry, hbecomes⟩
    exact ⟨readable_of_front hslash h.targets hnames hcases, kindOf_ne_control (hfront _ hrecord)⟩
  obtain ⟨scan, hscan, hnone, hread⟩ := (hasRead_start offer).run rfl hreadable htold
    hadmissible.of_append_left
  rw [List.nil_append] at hread
  have hmember : last.item = ⟨memberOf endMember, last.body⟩ := by
    rw [ArchiveContent.item, hend]
  rw [hmember] at hfinal hadmissible ⊢
  obtain ⟨hlink, -, hfile, hpax, hsize, hdecode, hencode⟩ := hfinal
  have hstep : scan.step unicode sha256 codec limits session.sessionLayout.entries (some final) =
      .ok (scan.withControl control) :=
    step_eq_ok.mpr ⟨hread.room hadmissible, hnone, .control control ⟨hfile.entryType, hlink,
      hfile.header, hpax, hfile.mode, hsize, hdecode, hencode⟩⟩
  refine ⟨scan.withControl control, ?_, rfl, hread.withControl last.body⟩
  rw [scanWorkspaceEntries, hentries, List.map_append, List.foldlM_append]
  exact bind_eq_ok.mpr ⟨scan, hscan, bind_eq_ok.mpr ⟨_, hstep, rfl⟩⟩

/-- The archive of an export is accepted as its inventory. -/
theorem exists_validate (hslash : KeepsSlashes unicode)
    (h : Exported unicode sha256 codec limits session offer scopeSources authorized inventory
      control contents stream)
    (hnames : ∀ entry ∈ session.sessionLayout.entries, isReservedName entry.target.value = false) :
    ∃ result, validateWorkspaceTarWithInventory unicode sha256 codec limits session offer stream =
      .ok result ∧ result.inventory = inventory := by
  obtain ⟨scan, hscan, hcontrol, hread⟩ := exists_scan hslash h hnames
  have hoffer : offer.validate = .ok () := by
    obtain ⟨hsources, -⟩ := planInventory_eq_ok.mp h.planned
    obtain ⟨_, hoffer, -⟩ := mapError_bind_eq_ok.mp hsources
    exact hoffer
  have hmembers : scan.members = inventory.records.map memberOf := by
    rw [hread.members, List.map_map, ← h.records, List.map_map]
    rfl
  have hplan := planMembers_of_plan hslash h.valid h.targets h.planned h.accepted
  rw [← hmembers] at hplan
  obtain ⟨preimage, hpreimage, hlabel⟩ := h.bodies
  obtain ⟨digest, hdigest, hpreimage⟩ := bind_eq_ok.mp hpreimage
  obtain rfl := Except.ok.inj (hread.delivered.symm.trans hdigest)
  refine ⟨_, mapError_bind_eq_ok.mpr ⟨(), h.valid, mapError_bind_eq_ok.mpr ⟨(), hoffer,
    bind_eq_ok.mpr ⟨scan, hscan, rejectIf_bind_eq_ok.mpr ⟨?_, rejectIf_bind_eq_ok.mpr ⟨?_,
      okOr_bind_eq_ok.mpr ⟨control, hcontrol, mapError_bind_eq_ok.mpr ⟨_, hplan,
        mapError_bind_eq_ok.mpr ⟨sha256Label sha256 preimage, bind_eq_ok.mpr ⟨preimage, hpreimage,
          rfl⟩, rejectIf_bind_eq_ok.mpr ⟨not_not.mpr hlabel.symm, rfl⟩⟩⟩⟩⟩⟩⟩⟩⟩, rfl⟩
  · rw [h.archive.endsInMarker]
    exact nofun
  · rw [h.archive.trailingData]
    exact nofun

/-! ## What is accepted is planned -/

/-- Items of the members of records are contents of these records. -/
theorem exists_contents {items : List ArchiveItem}
    {records : List WorkspaceNamespacedExportRecord}
    (h : items.map ArchiveItem.member = records.map memberOf) :
    ∃ contents : List ArchiveContent, contents.map ArchiveContent.record = records ∧
      contents.map ArchiveContent.item = items := by
  induction records generalizing items with
  | nil =>
      obtain rfl := List.map_eq_nil_iff.mp h
      exact ⟨[], rfl, rfl⟩
  | cons record records ih =>
      cases items with
      | nil => exact nomatch h
      | cons item items =>
          obtain ⟨hmember, hrest⟩ := List.cons_eq_cons.mp h
          obtain ⟨contents, rfl, rfl⟩ := ih hrest
          refine ⟨⟨record, item.body⟩ :: contents, rfl, ?_⟩
          rw [List.map_cons, ArchiveContent.item, ← hmember]

theorem saturatedCount_eq {count : Nat} {value : UInt64} (h : value.toNat = count) :
    saturatedCount count = value := by
  have hlt := value.toNat_lt
  refine UInt64.toNat_inj.mp ?_
  rw [saturatedCount_toNat, h]
  omega

/-- What members are counted as is what their records stand for. -/
theorem amounts_of_item (content : ArchiveContent) :
    content.item.files = filesIn content.record ∧
      content.item.directories = directoriesIn content.record ∧
      content.item.bytes = bytesIn content.record := by
  obtain ⟨record, body⟩ := content
  cases record with
  | targetDirectory mountId target memberPath => exact ⟨rfl, rfl, rfl⟩
  | directory winningScopeOrdinal mountId target logicalPath memberPath => exact ⟨rfl, rfl, rfl⟩
  | file record => exact ⟨rfl, rfl, rfl⟩
  | control memberPath => exact ⟨rfl, rfl, rfl⟩

theorem placed_of_readable {entries : List SessionLayoutEntry} {member : WorkspaceArchiveMember}
    (h : Readable unicode entries member) : Placed entries member := by
  obtain ⟨kind, memberPath, authorizedEntry⟩ := member
  obtain ⟨-, hplace⟩ := h
  cases authorizedEntry with
  | none => exact fun _ => hplace.1
  | some authorized =>
      obtain ⟨scope, hbelow, -⟩ := hplace
      exact ⟨scope, hbelow.found, hbelow.path⟩

/-- An archive that is accepted is that of the plan of its own entries. -/
theorem agrees_of_validate
    (h : validateWorkspaceTarWithInventory unicode sha256 codec limits session offer stream =
      .ok result) :
    ∃ contents, AgreesWithPlan unicode sha256 codec limits session offer stream result
      contents := by
  obtain ⟨_, -, h⟩ := mapError_bind_eq_ok.mp h
  obtain ⟨_, -, h⟩ := mapError_bind_eq_ok.mp h
  obtain ⟨scan, hscan, h⟩ := bind_eq_ok.mp h
  obtain ⟨hmarker, h⟩ := rejectIf_bind_eq_ok.mp h
  obtain ⟨htrailing, h⟩ := rejectIf_bind_eq_ok.mp h
  obtain ⟨control, hcontrol, h⟩ := okOr_bind_eq_ok.mp h
  obtain ⟨planned, hplanned, h⟩ := mapError_bind_eq_ok.mp h
  obtain ⟨label, hlabel, h⟩ := mapError_bind_eq_ok.mp h
  obtain ⟨hsame, h⟩ := rejectIf_bind_eq_ok.mp h
  cases h
  obtain ⟨more, last, written, hentries, hwritten, hlast, hmore, hread⟩ :=
    (hasRead_start offer).of_run rfl hscan hcontrol
  rw [List.nil_append] at hread
  have hplaced : ∀ member ∈ scan.members, Placed session.sessionLayout.entries member := by
    intro member hmem
    rw [hread.members] at hmem
    obtain ⟨item, hitem, rfl⟩ := List.mem_map.mp hmem
    obtain hitem | hitem := List.mem_append.mp hitem
    · exact placed_of_readable (hmore item hitem)
    · rw [List.mem_singleton.mp hitem, hlast]
      exact fun hkind => nomatch hkind
  obtain ⟨hmembers, hplan, haccepted, hentriesPlan⟩ := records_of_planMembers hplanned hplaced
  obtain ⟨contents, hrecords, hitems⟩ := exists_contents (hread.members.symm.trans hmembers)
  obtain ⟨hdirectories, hfiles, hbytes, hcount⟩ := counts_of_plan hplan
  obtain ⟨preimage, hpreimage, hdigest⟩ := bind_eq_ok.mp hlabel
  have hamount : ∀ {amount : ArchiveItem → Nat} {stands : WorkspaceNamespacedExportRecord → Nat},
      (∀ content : ArchiveContent, amount content.item = stands content.record) →
        ((more ++ [last]).map amount).sum = (planned.inventory.records.map stands).sum := by
    intro amount stands hamount
    rw [← hitems, ← hrecords, List.map_map, List.map_map]
    exact congrArg List.sum (List.map_congr_left fun content _ => hamount content)
  refine ⟨contents, {
    archive := ⟨⟨written, hentries, hitems ▸ hwritten⟩, Bool.not_eq_false _ ▸ hmarker,
      Bool.not_eq_true _ ▸ htrailing⟩
    records := hrecords
    planned := hplan
    accepted := haccepted
    plan := hentriesPlan
    paths := ?_
    archiveEntries := ?_
    files := ?_
    directories := ?_
    contentBytes := ?_
    bodies := ⟨preimage, ?_, ?_⟩
    inventorySha256 := (scopeSources_of_validateAgainst haccepted).2.1
    staged := ⟨scan, hscan, hitems ▸ hread.staged⟩ }⟩
  · intro record hmem hnot
    have hin : memberOf record ∈ (more ++ [last]).map ArchiveItem.member := by
      rw [← hread.members, hmembers]
      exact List.mem_map_of_mem hmem
    obtain ⟨item, hitem, hmember⟩ := List.mem_map.mp hin
    obtain hitem | hitem := List.mem_append.mp hitem
    · have hlogical := (hmore item hitem).logical
      rw [hmember] at hlogical
      exact hlogical
    · rw [List.mem_singleton.mp hitem, hlast] at hmember
      have hkind : kindOf record = .control :=
        (congrArg WorkspaceArchiveMember.kind hmember).symm
      exact absurd hkind (kindOf_ne_control hnot)
  · refine saturatedCount_eq (hcount.trans ?_)
    rw [hmembers, List.length_map]
  · rw [hread.files, hamount fun content => (amounts_of_item content).1]
    exact saturatedCount_eq hfiles
  · rw [hread.directories, hamount fun content => (amounts_of_item content).2.1]
    exact saturatedCount_eq hdirectories
  · rw [hread.contentBytes, hamount fun content => (amounts_of_item content).2.2]
    exact saturatedCount_eq hbytes
  · rw [hitems]
    exact bind_eq_ok.mpr ⟨scan.delivered, hread.delivered, hpreimage⟩
  · rw [← not_not.mp hsame]
    exact (Except.ok.inj hdigest).symm

/-! ## What an offer seals -/

/-- Two texts with one digest. -/
def Collides (sha256 : List UInt8 → List UInt8) : Prop :=
  ∃ bytes bytes', bytes ≠ bytes' ∧ sha256 bytes = sha256 bytes'

theorem preimage_of_plan (h : planInventory unicode sha256 session.sessionLayout offer
      scopeSources authorized = .ok inventory) :
    inventory.scopeSources = scopeSources ∧ ∃ preimage,
      canonicalInventoryPreimage inventory.scopeSources inventory.records = .ok preimage ∧
        inventory.inventorySha256 = sha256Label sha256 preimage := by
  obtain ⟨-, start, records, targetCounts, -, hfinish⟩ := planInventory_eq_ok.mp h
  obtain ⟨_, -, hfinish⟩ := bind_eq_ok.mp hfinish
  obtain ⟨_, -, hfinish⟩ := bind_eq_ok.mp hfinish
  obtain ⟨_, -, hfinish⟩ := bind_eq_ok.mp hfinish
  obtain ⟨preimage, hpreimage, hfinish⟩ := bind_eq_ok.mp hfinish
  cases hfinish
  exact ⟨rfl, preimage, hpreimage, rfl⟩

/-- Archives of the same records stage the same nodes. -/
theorem staged_eq {control' : WorkspaceExportTerminalControl} {contents' : List ArchiveContent}
    {written written' : List TarEntry} (hsha256 : ¬ Collides sha256)
    (h : List.Forall₂ (WrittenAs sha256 codec FieldsTell control)
      (contents.map ArchiveContent.item) written)
    (h' : List.Forall₂ (WrittenAs sha256 codec FieldsTell control')
      (contents'.map ArchiveContent.item) written')
    (hrecords : contents.map ArchiveContent.record = contents'.map ArchiveContent.record) :
    (contents.map ArchiveContent.item).flatMap ArchiveItem.staged =
      (contents'.map ArchiveContent.item).flatMap ArchiveItem.staged := by
  induction contents generalizing contents' written written' with
  | nil => rw [List.map_eq_nil_iff.mp hrecords.symm]
  | cons content contents ih =>
      cases contents' with
      | nil => cases hrecords
      | cons content' contents' =>
          obtain ⟨hrecord, hrest⟩ := List.cons.inj hrecords
          obtain ⟨entry, _, hfirst, hwritten, -⟩ := List.forall₂_cons_left_iff.mp h
          obtain ⟨entry', _, hfirst', hwritten', -⟩ := List.forall₂_cons_left_iff.mp h'
          have hstaged : content.item.staged = content'.item.staged := by
            obtain ⟨record, body⟩ := content
            obtain ⟨record', body'⟩ := content'
            obtain rfl : record = record' := hrecord
            cases record with
            | file record =>
                have hlabel := hfirst.2.2.2.2.2.2.trans hfirst'.2.2.2.2.2.2.symm
                obtain rfl : body = body' := by
                  by_contra hbody
                  exact hsha256 ⟨body, body', hbody, sha256_of_label hlabel⟩
                rfl
            | targetDirectory => rfl
            | directory => rfl
            | control => rfl
          rw [List.map_cons, List.map_cons, List.flatMap_cons, List.flatMap_cons, hstaged,
            ih hwritten hwritten' hrest]

end Unicode

/-! ## Agreement -/

/-- The archive of an export is accepted, as the inventory that was planned, if no target
of the session has a name that logical paths reserve; and every archive that is accepted
is that of the plan of its own entries. -/
theorem archives_agree_iff (unicode : UnicodeTables) (hslash : KeepsSlashes unicode)
    (sha256 : List UInt8 → List UInt8) (codec : ControlCodec WorkspaceExportTerminalControl)
    (limits : WorkspaceArchiveLimits) (session : WorkspaceProfileSession)
    (offer : WorkspaceExportOffer) :
    (∀ scopeSources authorized inventory control contents stream,
      Exported unicode sha256 codec limits session offer scopeSources authorized inventory control
        contents stream →
      ((∃ result, validateWorkspaceTarWithInventory unicode sha256 codec limits session offer
          stream = .ok result ∧ result.inventory = inventory) ↔
        ∀ entry ∈ session.sessionLayout.entries, isReservedName entry.target.value = false)) ∧
    ∀ stream result,
      validateWorkspaceTarWithInventory unicode sha256 codec limits session offer stream =
        .ok result →
      ∃ contents, AgreesWithPlan unicode sha256 codec limits session offer stream result
        contents := by
  constructor
  · intro scopeSources authorized inventory control contents stream h
    constructor
    · intro hresult entry hmem
      obtain ⟨result, hresult, rfl⟩ := hresult
      obtain ⟨_, hagrees⟩ := agrees_of_validate hresult
      obtain ⟨front, records, hrecords, hfront, hperm, -⟩ := perm_of_plan h.planned
      have htarget := target_mem_uniqueTargets h.valid hmem
      have hin : targetRecord (entry.mountId, entry.target) ∈ front :=
        hperm.mem_iff.mpr (List.mem_append_left _ (List.mem_map_of_mem htarget))
      refine ((h.targets entry hmem).new_iff hslash).mp (hagrees.paths _ ?_ (hfront _ hin))
      rw [hrecords]
      exact List.mem_append_left _ hin
    · exact exists_validate hslash h
  · intro stream result h
    exact agrees_of_validate h

/-! ## A workspace of one file -/

namespace SampleWorkspace

open Locality.Daemon.Sample

/-- Tables that are right for ASCII. -/
def asciiTables : UnicodeTables where
  nfc := id
  defaultCaseFold := toAsciiLowercase

/-- A target, and the digests that come of it. -/
structure SampleTarget where
  target : MountTarget
  layoutDigest : List UInt8
  inventoryDigest : List UInt8

def docsTarget : SampleTarget where
  target := ⟨"docs".toList⟩
  layoutDigest :=
    [108, 117, 113, 127, 5, 146, 111, 223, 81, 233, 129, 131, 253, 33, 186, 229,
     241, 236, 0, 229, 170, 149, 42, 232, 83, 214, 136, 42, 52, 70, 251, 168]
  inventoryDigest :=
    [36, 144, 74, 30, 80, 107, 231, 104, 83, 33, 148, 22, 204, 93, 194, 156,
     94, 230, 92, 142, 77, 187, 22, 154, 231, 146, 128, 79, 4, 148, 52, 144]

/-- A device that targets may be named for, and logical paths may not. -/
def clockTarget : SampleTarget where
  target := ⟨"CLOCK$".toList⟩
  layoutDigest :=
    [239, 19, 38, 254, 252, 202, 233, 52, 136, 88, 89, 218, 176, 77, 174, 187,
     28, 139, 156, 42, 185, 6, 64, 92, 57, 171, 32, 47, 98, 60, 4, 179]
  inventoryDigest :=
    [231, 223, 2, 2, 121, 176, 57, 228, 175, 152, 83, 145, 6, 66, 10, 29,
     79, 93, 124, 197, 211, 90, 229, 159, 36, 33, 212, 235, 199, 65, 209, 111]

def deliveredDigest : List UInt8 :=
  [0, 205, 81, 214, 49, 174, 111, 179, 251, 194, 219, 106, 55, 206, 102, 212,
   165, 159, 221, 148, 137, 240, 171, 18, 139, 241, 91, 141, 43, 39, 197, 39]

/-- The digests of what the samples hash, by its length. -/
def digestOf (bytes : List UInt8) : List UInt8 :=
  match bytes.length with
  | 2 => bodyDigest
  | 63 => deliveredDigest
  | 153 => writableDigest
  | 185 => docsTarget.layoutDigest
  | 189 => clockTarget.layoutDigest
  | 340 => docsTarget.inventoryDigest
  | 348 => clockTarget.inventoryDigest
  | _ => []

variable (sample : SampleTarget)

def layoutEntries : List SessionLayoutEntry := [⟨0, ⟨"m".toList⟩, sample.target⟩]

def sampleSession : WorkspaceProfileSession where
  apiGeneration := workspaceHttpApiGeneration
  sessionId := ⟨"s".toList⟩
  opaqueCapability := "k".toList
  expiresAt := "2026-01-02T00:00:00Z".toList
  profileId := placeholderProfileId
  profileRevision := 1
  sessionLayout := ⟨workspaceLayoutVersion, ⟨digestLabel sample.layoutDigest⟩,
    layoutEntries sample⟩

def fileMetadata : WorkspaceFileMetadata where
  projectionId := ⟨"p".toList⟩
  sourceConnectionId := ⟨"c".toList⟩
  fileKind := .markdown
  effectiveActions := {.read}
  contentSha256 := digestLabel bodyDigest
  byteLength := 2

def scopeSources : List WorkspaceScopeSourceAuthority := [⟨0, ⟨"c".toList⟩⟩]

def authorizedEntries : List WorkspaceAuthorizedExportEntry :=
  [.file 0 ⟨"m".toList⟩ "a.md".toList fileMetadata]

def sampleOffer : WorkspaceExportOffer where
  apiGeneration := workspaceHttpApiGeneration
  profileId := placeholderProfileId
  profileRevision := 1
  layoutVersion := workspaceLayoutVersion
  layoutDigest := ⟨digestLabel sample.layoutDigest⟩
  offer :=
    { versions := latestComponentVersions
      sessionId := ⟨"s".toList⟩
      exportAttemptId := ⟨"e".toList⟩
      sourceGenerations := sourceGenerations
      mediaType := "application/x-tar".toList
      contentEncoding := .identity
      limits := ⟨100, 100, 100⟩
      controlEntryCount := 1
      fileCount := 1
      directoryCount := 1
      archiveEntryCount := 3
      selectedContentBytes := 2
      inventorySha256 := digestLabel sample.inventoryDigest
      writableMetadataSha256 := digestLabel writableDigest
      sealedAt := "2026-01-01T00:00:00Z".toList
      expiresAt := "2026-01-02T00:00:00Z".toList }

/-- A target, its file, and the control. -/
def sampleContents : List ArchiveContent :=
  [⟨.targetDirectory ⟨"m".toList⟩ sample.target sample.target.value, []⟩,
    ⟨.file ⟨0, ⟨"m".toList⟩, sample.target, ⟨"a.md".toList⟩,
      memberPathOf sample.target ⟨"a.md".toList⟩, fileMetadata⟩, body⟩,
    ⟨.control reservedExportMetadataPath, []⟩]

def sampleInventory : WorkspaceNamespacedInventory where
  scopeSources := scopeSources
  targetDirectories := [⟨⟨"m".toList⟩, sample.target, 1, 1, 2⟩]
  records := (sampleContents sample).map ArchiveContent.record
  controlEntryCount := 1
  fileCount := 1
  directoryCount := 1
  archiveEntryCount := 3
  selectedContentBytes := 2
  inventorySha256 := digestLabel sample.inventoryDigest

def controlMetadata : WorkspaceExportControlMetadata where
  apiGeneration := workspaceHttpApiGeneration
  profileId := placeholderProfileId
  profileRevision := 1
  layoutVersion := workspaceLayoutVersion
  layoutDigest := ⟨digestLabel sample.layoutDigest⟩
  sessionId := ⟨"s".toList⟩
  exportAttemptId := ⟨"e".toList⟩
  inventorySha256 := digestLabel sample.inventoryDigest
  scopeSources := scopeSources
  targetDirectories := [⟨⟨"m".toList⟩, sample.target, 1, 1, 2⟩]
  declaredControlEntryCount := 1
  declaredFileCount := 1
  declaredDirectoryCount := 1
  declaredArchiveEntryCount := 3
  declaredContentBytes := 2

def sampleControl : WorkspaceExportTerminalControl where
  metadata := controlMetadata sample
  writableMetadata := Locality.Daemon.Sample.metadata
  completionReceipt :=
    { metadata := controlMetadata sample
      receipt :=
        { versions := latestComponentVersions
          sessionId := ⟨"s".toList⟩
          exportAttemptId := ⟨"e".toList⟩
          sourceGenerations := sourceGenerations
          inventorySha256 := digestLabel sample.inventoryDigest
          writableMetadataSha256 := digestLabel writableDigest
          deliveredControlEntryCount := 1
          deliveredFileCount := 1
          deliveredDirectoryCount := 1
          deliveredArchiveEntryCount := 3
          deliveredContentBytes := 2
          deliveredBodySha256 := digestLabel deliveredDigest
          completedAt := "2026-01-01T00:00:01Z".toList } }

/-! ### Their control member -/

def controlMetadataJson (metadata : WorkspaceExportControlMetadata) : Text :=
  jsonObject [("api_generation", jsonNumber metadata.apiGeneration.toNat),
    ("profile_id", jsonString metadata.profileId.value),
    ("profile_revision", jsonNumber metadata.profileRevision.toNat),
    ("layout_version", jsonNumber metadata.layoutVersion.toNat),
    ("layout_digest", jsonString metadata.layoutDigest.value),
    ("session_id", jsonString metadata.sessionId.value),
    ("export_attempt_id", jsonString metadata.exportAttemptId.value),
    ("inventory_sha256", jsonString metadata.inventorySha256),
    ("scope_sources", jsonArray (metadata.scopeSources.map fun authority =>
      jsonObject [("scope_ordinal", jsonNumber authority.scopeOrdinal.toNat),
        ("source_connection_id", jsonString authority.sourceConnectionId.value)])),
    ("target_directories", jsonArray (metadata.targetDirectories.map fun directory =>
      jsonObject [("mount_id", jsonString directory.mountId.value),
        ("target", jsonString directory.target.value),
        ("directory_count", jsonNumber directory.directoryCount.toNat),
        ("file_count", jsonNumber directory.fileCount.toNat),
        ("content_bytes", jsonNumber directory.contentBytes.toNat)])),
    ("declared_control_entry_count", jsonNumber metadata.declaredControlEntryCount.toNat),
    ("declared_file_count", jsonNumber metadata.declaredFileCount.toNat),
    ("declared_directory_count", jsonNumber metadata.declaredDirectoryCount.toNat),
    ("declared_archive_entry_count", jsonNumber metadata.declaredArchiveEntryCount.toNat),
    ("declared_content_bytes", jsonNumber metadata.declaredContentBytes.toNat)]

/-- A control without writable entries, as it is serialized. -/
def terminalControlJson (control : WorkspaceExportTerminalControl) : List UInt8 :=
  asBytes (jsonObject [("metadata", controlMetadataJson control.metadata),
    ("writable_metadata", writableJson control.writableMetadata),
    ("completion_receipt",
      jsonObject [("metadata", controlMetadataJson control.completionReceipt.metadata),
        ("receipt", receiptJson control.completionReceipt.receipt)])])

def controlCodec : ControlCodec WorkspaceExportTerminalControl :=
  codecOf (sampleControl sample) (terminalControlJson (sampleControl sample))

/-! ### Their archives -/

def archiveEntry (content : ArchiveContent) : TarEntry :=
  match content.record with
  | .targetDirectory _ _ memberPath =>
      ⟨.directory, false, .utf8 memberPath, some [], some readOnlyDirectoryMode, 0, []⟩
  | .directory winningScopeOrdinal _ _ _ memberPath =>
      ⟨.directory, false, .utf8 memberPath,
        some (paxExtensionsOf [(paxWinningScopeOrdinal, u32Text winningScopeOrdinal)]),
        some readOnlyDirectoryMode, 0, []⟩
  | .file record =>
      ⟨.regular, false, .utf8 record.memberPath,
        some (paxExtensionsOf (paxMetadataOf record.winningScopeOrdinal record.metadata).fields),
        some readOnlyFileMode, record.metadata.byteLength, [content.body]⟩
  | .control memberPath =>
      ⟨.regular, false, .utf8 memberPath, some [], some readOnlyFileMode,
        UInt64.ofNat (terminalControlJson (sampleControl sample)).length,
        [terminalControlJson (sampleControl sample)]⟩

def sampleStream : TarStream where
  entries := (sampleContents sample).map fun content => some (archiveEntry sample content)
  endsInMarker := true
  trailingData := false

def archiveLimits : WorkspaceArchiveLimits := ⟨10, 100, 100⟩

/-! ### What holds of both of them -/

theorem keepsSlashes : KeepsSlashes asciiTables where
  append _ _ := List.map_append
  notMem value h := by
    intro hmem
    obtain ⟨c, hc, hlower⟩ := List.mem_map.mp hmem
    by_cases hupper : (decide ('A' ≤ c) && decide (c ≤ 'Z')) = true
    · rw [if_pos hupper] at hlower
      obtain ⟨hfrom, hto⟩ := Bool.and_eq_true_iff.mp hupper
      have hfrom : 65 ≤ c.toNat := UInt32.le_iff_toNat_le.mp (of_decide_eq_true hfrom)
      have hto : c.toNat ≤ 90 := UInt32.le_iff_toNat_le.mp (of_decide_eq_true hto)
      have hletters : ∀ n < 26, Char.ofNat (n + 97) ≠ '/' := by decide
      refine hletters (c.toNat - 65) (by omega) ?_
      rw [← hlower]
      exact congrArg Char.ofNat (by omega)
    · rw [if_neg hupper] at hlower
      exact h (hlower ▸ hc)
  control := by decide

/-- What the file of the samples is evaluated for. -/
theorem checks_file :
    (paxMetadataOf 0 fileMetadata).toRecords.isSome = true ∧
      localityPaxFieldsFrom [] (paxExtensionsOf (paxMetadataOf 0 fileMetadata).fields) =
        .ok (paxMetadataOf 0 fileMetadata).fields ∧
      sha256Label digestOf body = digestLabel bodyDigest ∧
      (DeliveredBodyDigest.deliveredPreimage 1 [(⟨"p".toList⟩, body)]).toOption.map
        (sha256Label digestOf) = some (digestLabel deliveredDigest) := by
  decide +kernel

theorem localityPaxFields_nil {entry : TarEntry} (h : entry.paxExtensions = some []) :
    localityPaxFields entry = .ok [] :=
  okOr_bind_eq_ok.mpr ⟨[], h, rfl⟩

theorem delivered_body : ∃ preimage,
    DeliveredBodyDigest.deliveredPreimage 1 [(⟨"p".toList⟩, body)] = .ok preimage ∧
      digestLabel deliveredDigest = sha256Label digestOf preimage := by
  obtain ⟨-, -, -, hlabel⟩ := checks_file
  obtain ⟨preimage, hpreimage, hlabel⟩ := Option.map_eq_some_iff.mp hlabel
  cases hresult : DeliveredBodyDigest.deliveredPreimage 1 [(⟨"p".toList⟩, body)] with
  | error error => rw [hresult] at hpreimage; exact nomatch hpreimage
  | ok found => rw [hresult] at hpreimage; exact ⟨found, rfl, by cases hpreimage; exact hlabel.symm⟩

variable {sample}

theorem isArchiveOf_sample (htarget : sample.target.Valid asciiTables)
    (hsmall : (terminalControlJson (sampleControl sample)).length ≤
      maxExportTerminalControlBytes) :
    IsArchiveOf digestOf (controlCodec sample) FieldsOf (sampleControl sample)
      (sampleContents sample) (sampleStream sample) where
  entries := by
    have hflat : [terminalControlJson (sampleControl sample)].flatten =
        terminalControlJson (sampleControl sample) := List.append_nil _
    have hsize : (UInt64.ofNat (terminalControlJson (sampleControl sample)).length).toNat ≤
        maxExportTerminalControlBytes :=
      (Nat.mod_le _ _).trans hsmall
    refine ⟨(sampleContents sample).map (archiveEntry sample), rfl, .cons ⟨rfl, ?_, ?_⟩
      (.cons ⟨rfl, ?_, ⟨_, okOr_bind_eq_ok.mpr ⟨_, rfl, checks_file.2.1⟩, rfl⟩, rfl,
          List.append_nil _, rfl, ?_⟩
        (.cons ⟨rfl, rfl, ?_, localityPaxFields_nil rfl, hsize, ?_, ?_⟩ .nil))⟩
    · obtain ⟨hfree, -, -⟩ := htarget.regular
      refine ⟨rfl, ⟨_, rfl, ?_⟩, rfl, rfl⟩
      rw [memberPath, if_pos rfl, stripSuffixChar_of_not_mem hfree]
      rfl
    · exact localityPaxFields_nil rfl
    · exact ⟨rfl, rfl, rfl⟩
    · exact checks_file.2.2.1
    · exact ⟨rfl, rfl, rfl⟩
    · exact (congrArg (controlCodec sample).decode hflat).trans (decode_codecOf _ _)
    · exact (encode_codecOf _ _).trans (congrArg some hflat.symm)
  endsInMarker := rfl
  trailingData := rfl

theorem exported
    (hvalid : (sampleSession sample).validate asciiTables digestOf = .ok ())
    (htarget : sample.target.Valid asciiTables)
    (hplanned : planInventory asciiTables digestOf (sampleSession sample).sessionLayout
      (sampleOffer sample) scopeSources authorizedEntries = .ok (sampleInventory sample))
    (haccepted : (sampleControl sample).validateAgainst asciiTables digestOf (sampleSession sample)
      (sampleOffer sample) (sampleInventory sample) = .ok ())
    (hsmall : (terminalControlJson (sampleControl sample)).length ≤
      maxExportTerminalControlBytes) :
    Exported asciiTables digestOf (controlCodec sample) archiveLimits (sampleSession sample)
      (sampleOffer sample) scopeSources authorizedEntries (sampleInventory sample)
      (sampleControl sample) (sampleContents sample) (sampleStream sample) where
  valid := hvalid
  targets entry hmem := by
    rw [List.mem_singleton.mp hmem]
    exact htarget
  planned := hplanned
  metadata record hmem := by
    obtain ⟨content, hcontent, rfl⟩ := List.mem_map.mp hmem
    obtain rfl | hcontent := List.mem_cons.mp hcontent
    · trivial
    · obtain rfl | rfl := List.mem_pair.mp hcontent
      · exact checks_file.1
      · trivial
  accepted := haccepted
  records := rfl
  bodies := delivered_body
  small := by
    refine ⟨show 3 ≤ 10 by decide, fun content hcontent => ?_, show 2 ≤ 100 by decide⟩
    obtain rfl | hcontent := List.mem_cons.mp hcontent
    · exact Nat.zero_le _
    · obtain rfl | rfl := List.mem_pair.mp hcontent
      · exact show 2 ≤ 100 by decide
      · exact Nat.zero_le _
  archive := isArchiveOf_sample htarget hsmall

theorem valid_of_new {target : MountTarget}
    (h : (MountTarget.new asciiTables target.value).toOption = some target) :
    target.Valid asciiTables := by
  rw [MountTarget.Valid]
  cases hnew : MountTarget.new asciiTables target.value with
  | error error => rw [hnew] at h; cases h
  | ok found => rw [hnew] at h; exact congrArg Except.ok (Option.some.inj h)

/-- What each of the samples is evaluated for. -/
theorem checks_targets : ∀ sample ∈ [docsTarget, clockTarget],
    (sampleSession sample).validate asciiTables digestOf = .ok () ∧
      (MountTarget.new asciiTables sample.target.value).toOption = some sample.target ∧
      planInventory asciiTables digestOf (sampleSession sample).sessionLayout (sampleOffer sample)
        scopeSources authorizedEntries = .ok (sampleInventory sample) ∧
      (sampleControl sample).validateAgainst asciiTables digestOf (sampleSession sample)
        (sampleOffer sample) (sampleInventory sample) = .ok () ∧
      (terminalControlJson (sampleControl sample)).length ≤ maxExportTerminalControlBytes := by
  decide +kernel

theorem exported_sample (h : sample ∈ [docsTarget, clockTarget]) :
    Exported asciiTables digestOf (controlCodec sample) archiveLimits (sampleSession sample)
      (sampleOffer sample) scopeSources authorizedEntries (sampleInventory sample)
      (sampleControl sample) (sampleContents sample) (sampleStream sample) := by
  obtain ⟨hvalid, htarget, hplanned, haccepted, hsmall⟩ := checks_targets sample h
  exact exported hvalid (valid_of_new htarget) hplanned haccepted hsmall

/-- The target itself is not read. -/
theorem refused_clock (scan : ArchiveScan) :
    (ArchiveScan.start (sampleOffer clockTarget)).step asciiTables digestOf
      (controlCodec clockTarget) archiveLimits (layoutEntries clockTarget)
      (some ⟨.directory, false, .utf8 clockTarget.target.value, some [],
        some readOnlyDirectoryMode, 0, []⟩) ≠ .ok scan := by
  have hrefused : ((ArchiveScan.start (sampleOffer clockTarget)).step asciiTables digestOf
      (controlCodec clockTarget) archiveLimits (layoutEntries clockTarget)
      (some ⟨.directory, false, .utf8 clockTarget.target.value, some [],
        some readOnlyDirectoryMode, 0, []⟩)).isOk = false := by
    decide +kernel
  intro h
  rw [h] at hrefused
  exact nomatch hrefused

end SampleWorkspace

open SampleWorkspace in
/-- A workspace below a target that is named for a device: it is planned, offered and
written, and its archive is not read. -/
theorem archive_refused :
    Exported asciiTables digestOf (controlCodec clockTarget) archiveLimits
        (sampleSession clockTarget) (sampleOffer clockTarget) scopeSources authorizedEntries
        (sampleInventory clockTarget) (sampleControl clockTarget) (sampleContents clockTarget)
        (sampleStream clockTarget) ∧
      ¬ ∃ result, validateWorkspaceTarWithInventory asciiTables digestOf
        (controlCodec clockTarget) archiveLimits (sampleSession clockTarget)
        (sampleOffer clockTarget) (sampleStream clockTarget) = .ok result := by
  refine ⟨exported_sample (List.mem_cons_of_mem _ List.mem_cons_self), fun h => ?_⟩
  obtain ⟨result, hresult⟩ := h
  obtain ⟨_, -, hresult⟩ := mapError_bind_eq_ok.mp hresult
  obtain ⟨_, -, hresult⟩ := mapError_bind_eq_ok.mp hresult
  obtain ⟨scan, hscan, -⟩ := bind_eq_ok.mp hresult
  obtain ⟨first, hfirst, -⟩ := bind_eq_ok.mp hscan
  exact refused_clock first hfirst

open SampleWorkspace in
theorem archives_agree_docs : ∃ result contents,
    validateWorkspaceTarWithInventory asciiTables digestOf (controlCodec docsTarget)
        archiveLimits (sampleSession docsTarget) (sampleOffer docsTarget)
        (sampleStream docsTarget) = .ok result ∧
      result.inventory = sampleInventory docsTarget ∧
      AgreesWithPlan asciiTables digestOf (controlCodec docsTarget) archiveLimits
        (sampleSession docsTarget) (sampleOffer docsTarget) (sampleStream docsTarget) result
        contents := by
  have hagree := archives_agree_iff asciiTables keepsSlashes digestOf (controlCodec docsTarget)
    archiveLimits (sampleSession docsTarget) (sampleOffer docsTarget)
  have hnames : ∀ entry ∈ (sampleSession docsTarget).sessionLayout.entries,
      isReservedName entry.target.value = false := by
    intro entry hmem
    rw [List.mem_singleton.mp hmem]
    decide +kernel
  obtain ⟨result, hresult, hinventory⟩ := (hagree.1 _ _ _ _ _ _ (exported_sample List.mem_cons_self)).mpr hnames
  obtain ⟨contents, hcontents⟩ := hagree.2 _ _ hresult
  exact ⟨result, contents, hresult, hinventory, hcontents⟩

end Locality.Daemon.WorkspaceArchive
