/-
  Daemon/ArchiveRun.lean --- what a workspace archive is read as: a member for each entry,
  with its body.

  A scan has read members if it lists, counts and hashes them.  Reading goes on where an
  entry was written for a member that can be read; and an entry that was read was written
  for one.
-/
import Locality.Daemon.ArchiveSteps
import Locality.Daemon.ExtractionRun

set_option autoImplicit false

namespace Locality.Daemon.WorkspaceArchive

open Locality.Core Locality.Foundation Locality.Protocol Locality.Protocol.Scope
  Locality.Protocol.WorkspaceExport

/-! ## Members with bodies -/

/-- A member, and the bytes of its file. -/
structure ArchiveItem where
  member : WorkspaceArchiveMember
  body : List UInt8

namespace ArchiveItem

def metadata? (item : ArchiveItem) : Option WorkspaceFileMetadata :=
  match item.member.authorizedEntry with
  | some (.file _ _ _ metadata) => some metadata
  | _ => none

/-- What is delivered: the body of a file. -/
def delivered (item : ArchiveItem) : List (ProjectionId × List UInt8) :=
  item.metadata?.toList.map fun metadata => (metadata.projectionId, item.body)

def files (item : ArchiveItem) : Nat := if item.member.kind = .file then 1 else 0

def directories (item : ArchiveItem) : Nat := if item.member.kind = .directory then 1 else 0

def bytes (item : ArchiveItem) : Nat := item.metadata?.elim 0 fun metadata =>
  metadata.byteLength.toNat

/-- What is staged. -/
def staged (item : ArchiveItem) : List StagedNode :=
  match item.member.kind with
  | .directory => [.directory item.member.memberPath]
  | .file => [.file item.member.memberPath item.body]
  | _ => []

end ArchiveItem

/-- What PAX records carry of the metadata of a file. -/
def paxMetadataOf (winningScopeOrdinal : UInt32) (metadata : WorkspaceFileMetadata) :
    ExportFilePaxMetadata where
  sourceConnectionId := metadata.sourceConnectionId
  projectionId := metadata.projectionId
  winningScopeOrdinal := winningScopeOrdinal
  fileKind := metadata.fileKind
  effectiveActions := metadata.effectiveActions
  contentSha256 := metadata.contentSha256

/-- The header of an empty directory. -/
structure IsDirectory (entry : TarEntry) (path : Text) : Prop where
  entryType : entry.entryType = .directory
  header : ∃ raw, entry.path = .utf8 raw ∧ memberPath true raw = path
  mode : entry.mode = some readOnlyDirectoryMode
  size : entry.size = 0

/-- The header of a regular file. -/
structure IsFile (entry : TarEntry) (path : Text) : Prop where
  entryType : entry.entryType = .regular
  header : entry.path = .utf8 path
  mode : entry.mode = some readOnlyFileMode

section Unicode

variable (unicode : UnicodeTables) (sha256 : List UInt8 → List UInt8)
  (codec : ControlCodec WorkspaceExportTerminalControl) (limits : WorkspaceArchiveLimits)
  (entries : List SessionLayoutEntry)

/-- The entry that is written for a member: a directory with the ordinal of its scope, a
target without, a file with metadata that its records tell, the control with neither. -/
def WrittenAs (tells : List (Text × Text) → ExportFilePaxMetadata → Prop)
    (control : WorkspaceExportTerminalControl) (item : ArchiveItem) (entry : TarEntry) : Prop :=
  entry.hasLinkName = false ∧
  match item.member.kind, item.member.authorizedEntry with
  | .directory, none =>
      IsDirectory entry item.member.memberPath ∧ localityPaxFields entry = .ok []
  | .directory, some (.directory winningScopeOrdinal _ _) =>
      IsDirectory entry item.member.memberPath ∧
        localityPaxFields entry = .ok [(paxWinningScopeOrdinal, u32Text winningScopeOrdinal)]
  | .file, some (.file winningScopeOrdinal _ _ metadata) =>
      IsFile entry item.member.memberPath ∧
        (∃ fields, localityPaxFields entry = .ok fields ∧
          tells fields (paxMetadataOf winningScopeOrdinal metadata)) ∧
        entry.size = metadata.byteLength ∧ entry.reads.flatten = item.body ∧
        entry.size.toNat = item.body.length ∧
        sha256Label sha256 item.body = metadata.contentSha256
  | .control, none =>
      item.member.memberPath = reservedExportMetadataPath ∧
        IsFile entry reservedExportMetadataPath ∧ localityPaxFields entry = .ok [] ∧
        entry.size.toNat ≤ maxExportTerminalControlBytes ∧
        codec.decode entry.reads.flatten = some control ∧
        codec.encode control = some entry.reads.flatten
  | _, _ => False

/-- The records of a file are those of its metadata. -/
def FieldsOf (fields : List (Text × Text)) (metadata : ExportFilePaxMetadata) : Prop :=
  fields = metadata.fields

/-- The records of a file are read as its metadata. -/
def FieldsTell (fields : List (Text × Text)) (metadata : ExportFilePaxMetadata) : Prop :=
  ExportFilePaxMetadata.fromRecords fields = some metadata

/-- Where a member can be read: at a logical path, which is a target of the session, or is
below the one of its scope. -/
structure Readable (member : WorkspaceArchiveMember) : Prop where
  logical : LogicalPath.new unicode member.memberPath = .ok ⟨member.memberPath⟩
  place : match member.authorizedEntry with
    | none => '/' ∉ member.memberPath ∧
        member.memberPath ∈ entries.map fun entry => entry.target.value
    | some authorized => ∃ scope,
        Below entries authorized.scopeOrdinal scope authorized.logicalPath member.memberPath ∧
          authorized.mountId = scope.mountId

/-! ## What a scan has read -/

variable {unicode sha256 codec limits entries} {offer : WorkspaceExportOffer}
  {items : List ArchiveItem} {item : ArchiveItem} {scan scan' : ArchiveScan} {entry : TarEntry}
  {control : WorkspaceExportTerminalControl}

theorem saturatedCount_toNat {count : Nat} : (saturatedCount count).toNat =
    min count (2 ^ 64 - 1) := by
  rw [saturatedCount, UInt64.toNat_ofNat']
  exact Nat.mod_eq_of_lt (by omega)

theorem saturatingAdd_saturatedCount (count : Nat) (more : UInt64) :
    saturatingAdd (saturatedCount count) more = saturatedCount (count + more.toNat) := by
  refine UInt64.toNat_inj.mp ?_
  rw [saturatingAdd_toNat, saturatedCount_toNat, saturatedCount_toNat]
  omega

/-- A scan that has read members, and nothing else. -/
structure HasRead (offer : WorkspaceExportOffer) (items : List ArchiveItem) (scan : ArchiveScan) :
    Prop where
  members : scan.members = items.map ArchiveItem.member
  staged : scan.staged = items.flatMap ArchiveItem.staged
  delivered : (DeliveredBodyDigest.new offer.offer.fileCount).updateFiles
    (items.flatMap ArchiveItem.delivered) = .ok scan.delivered
  files : scan.files = saturatedCount (items.map ArchiveItem.files).sum
  directories : scan.directories = saturatedCount (items.map ArchiveItem.directories).sum
  contentBytes : scan.contentBytes = saturatedCount (items.map ArchiveItem.bytes).sum

theorem hasRead_start (offer : WorkspaceExportOffer) : HasRead offer [] (.start offer) :=
  ⟨rfl, rfl, rfl, rfl, rfl, rfl⟩

/-- One more member is listed, staged, delivered and counted. -/
theorem HasRead.snoc (h : HasRead offer items scan)
    (hmembers : scan'.members = scan.members ++ [item.member])
    (hstaged : scan'.staged = scan.staged ++ item.staged)
    (hdelivered : scan.delivered.updateFiles item.delivered = .ok scan'.delivered)
    (hfiles : scan'.files = saturatedCount ((items.map ArchiveItem.files).sum + item.files))
    (hdirectories : scan'.directories =
      saturatedCount ((items.map ArchiveItem.directories).sum + item.directories))
    (hbytes : scan'.contentBytes =
      saturatedCount ((items.map ArchiveItem.bytes).sum + item.bytes)) :
    HasRead offer (items ++ [item]) scan' := by
  have hsum : ∀ amount : ArchiveItem → Nat, ((items ++ [item]).map amount).sum =
      (items.map amount).sum + amount item := by
    intro amount
    rw [List.map_append, List.sum_append, List.map_singleton, List.sum_singleton]
  refine ⟨?_, ?_, ?_, (hsum _).symm ▸ hfiles, (hsum _).symm ▸ hdirectories,
    (hsum _).symm ▸ hbytes⟩
  · rw [hmembers, h.members, List.map_append]
    rfl
  · rw [hstaged, h.staged, List.flatMap_append, List.flatMap_singleton]
  · rw [List.flatMap_append, List.flatMap_singleton, updateFiles_append]
    exact bind_eq_ok.mpr ⟨scan.delivered, h.delivered, hdelivered⟩

theorem HasRead.withControl (h : HasRead offer items scan) (body : List UInt8) :
    HasRead offer (items ++ [⟨memberOf endMember, body⟩]) (scan.withControl control) :=
  h.snoc rfl (List.append_nil _).symm rfl h.files h.directories h.contentBytes

theorem HasRead.withDirectory {path : Text} {pax : List (Text × Text)}
    {authorized : Option WorkspaceAuthorizedExportEntry} (h : HasRead offer items scan)
    (hauthority : DirectoryAuthority entries path pax authorized) (body : List UInt8) :
    HasRead offer (items ++ [⟨⟨.directory, path, authorized⟩, body⟩])
      (scan.withDirectory path authorized) := by
  have hdirectories : saturatingAdd scan.directories 1 =
      saturatedCount ((items.map ArchiveItem.directories).sum + 1) := by
    rw [h.directories]
    exact saturatingAdd_saturatedCount _ 1
  cases hauthority with
  | target hfree hmem => exact h.snoc rfl rfl rfl h.files hdirectories h.contentBytes
  | below ordinal scope logicalPath hbelow =>
      exact h.snoc rfl rfl rfl h.files hdirectories h.contentBytes

theorem HasRead.withFile {path logicalPath : Text} {metadata : ExportFilePaxMetadata}
    {mountId : PortableMountId} {size : UInt64} {body : List UInt8}
    (h : HasRead offer items scan)
    (htakes : scan.delivered.Takes (metadata.projectionId, body)) :
    HasRead offer
      (items ++ [⟨⟨.file, path,
        some (ArchiveScan.authorizedFile metadata mountId logicalPath size)⟩, body⟩])
      (scan.withFile path (ArchiveScan.authorizedFile metadata mountId logicalPath size)
        metadata.projectionId body size) := by
  refine h.snoc rfl rfl ?_ ?_ h.directories ?_
  · exact bind_eq_ok.mpr ⟨_, DeliveredBodyDigest.updateFile_eq_ok.mpr ⟨htakes, rfl⟩, rfl⟩
  · exact (congrArg (saturatingAdd · 1) h.files).trans (saturatingAdd_saturatedCount _ 1)
  · exact (congrArg (saturatingAdd · size) h.contentBytes).trans
      (saturatingAdd_saturatedCount _ size)

/-! ## What was read was written -/

/-- What a directory or a file was read as: a member that can be read, whatever the
control is. -/
theorem HasRead.of_reads (h : HasRead offer items scan)
    (hreads : Reads unicode sha256 codec limits entries scan entry scan') :
    ∃ item, HasRead offer (items ++ [item]) scan' ∧
      ((scan'.rawControl = scan.rawControl ∧ Readable unicode entries item.member ∧
          ∀ control, WrittenAs sha256 codec FieldsTell control item entry) ∨
        ∃ control, scan'.rawControl = some control ∧ item.member = memberOf endMember ∧
          WrittenAs sha256 codec FieldsTell control item entry) := by
  cases hreads with
  | control control hentry =>
      refine ⟨⟨memberOf endMember, []⟩, h.withControl [], Or.inr ⟨control, rfl, rfl, hentry.link,
        rfl, ⟨hentry.entryType, hentry.header, hentry.mode⟩, hentry.pax, hentry.size,
        hentry.decode, hentry.encode⟩⟩
  | directory path authorized hentry =>
      obtain ⟨pax, hpax, hauthority⟩ := hentry.authority
      have hdirectory : IsDirectory entry path :=
        ⟨hentry.entryType, hentry.header, hentry.mode, hentry.size⟩
      refine ⟨⟨⟨.directory, path, authorized⟩, []⟩, h.withDirectory hauthority [], Or.inl ?_⟩
      cases hauthority with
      | target hfree hmem =>
          exact ⟨rfl, ⟨hentry.logical, hfree, hmem⟩, fun _ => ⟨hentry.link, hdirectory, hpax⟩⟩
      | below ordinal scope logicalPath hbelow =>
          exact ⟨rfl, ⟨hentry.logical, scope, hbelow, rfl⟩,
            fun _ => ⟨hentry.link, hdirectory, hpax⟩⟩
  | file path scope logicalPath metadata hentry hsize hcontent htakes =>
      refine ⟨_, h.withFile htakes, Or.inl ⟨rfl, ⟨hentry.logical, scope, hentry.below, rfl⟩, ?_⟩⟩
      exact fun _ => ⟨hentry.link, ⟨hentry.entryType, hentry.header, hentry.mode⟩, hentry.pax, rfl,
        rfl, hentry.size, hentry.digest⟩

theorem HasRead.of_run {read : List (Option TarEntry)} (h : HasRead offer items scan)
    (hnone : scan.rawControl = none)
    (hrun : read.foldlM (fun (scan : ArchiveScan) entry =>
      scan.step unicode sha256 codec limits entries entry) scan = .ok scan')
    (hcontrol : scan'.rawControl = some control) :
    ∃ more last written, read = written.map some ∧
      List.Forall₂ (WrittenAs sha256 codec FieldsTell control) (more ++ [last]) written ∧
      last.member = memberOf endMember ∧ (∀ item ∈ more, Readable unicode entries item.member) ∧
      HasRead offer (items ++ (more ++ [last])) scan' := by
  induction read generalizing items scan with
  | nil =>
      cases hrun
      rw [hnone] at hcontrol
      exact nomatch hcontrol
  | cons entry read ih =>
      obtain ⟨next, hnext, hrest⟩ := bind_eq_ok.mp hrun
      cases entry with
      | none => exact nomatch hnext
      | some entry =>
          obtain ⟨-, -, hreads⟩ := step_eq_ok.mp hnext
          obtain ⟨item, hread, ⟨hkept, hreadable, hwritten⟩ | ⟨found, hfound, hmember, hwritten⟩⟩ :=
            h.of_reads hreads
          · obtain ⟨more, last, written, rfl, hall, hlast, hmore, hhas⟩ :=
              ih hread (hkept.trans hnone) hrest
            rw [List.append_assoc] at hhas
            exact ⟨item :: more, last, entry :: written, rfl, .cons (hwritten control) hall, hlast,
              List.forall_mem_cons.mpr ⟨hreadable, hmore⟩, hhas⟩
          · cases read with
            | nil =>
                cases hrest
                obtain rfl := Option.some.inj (hfound.symm.trans hcontrol)
                exact ⟨[], item, [entry], rfl, .cons hwritten .nil, hmember, nofun, hread⟩
            | cons entry' read =>
                obtain ⟨after, hafter, -⟩ := bind_eq_ok.mp hrest
                cases entry' with
                | none => exact nomatch hafter
                | some entry' =>
                    obtain ⟨-, hnot, -⟩ := step_eq_ok.mp hafter
                    rw [hfound] at hnot
                    exact nomatch hnot

/-! ## What was written can be read -/

/-- Members that there is room for, with bodies that are delivered. -/
structure Admissible (limits : WorkspaceArchiveLimits) (offer : WorkspaceExportOffer)
    (items : List ArchiveItem) : Prop where
  entries : items.length ≤ limits.maxEntries.toNat
  files : ∀ item ∈ items, item.bytes ≤ limits.maxFileBytes.toNat
  content : (items.map ArchiveItem.bytes).sum ≤ limits.maxContentBytes.toNat
  delivered : ∃ digest, (DeliveredBodyDigest.new offer.offer.fileCount).updateFiles
    (items.flatMap ArchiveItem.delivered) = .ok digest

theorem Admissible.of_append_left {more : List ArchiveItem}
    (h : Admissible limits offer (items ++ more)) : Admissible limits offer items := by
  obtain ⟨hentries, hfiles, hcontent, digest, hdigest⟩ := h
  rw [List.length_append] at hentries
  rw [List.map_append, List.sum_append] at hcontent
  rw [List.flatMap_append, updateFiles_append] at hdigest
  obtain ⟨digest', hdigest', -⟩ := bind_eq_ok.mp hdigest
  exact ⟨by omega, fun item hmem => hfiles item (List.mem_append_left _ hmem), by omega, digest',
    hdigest'⟩

/-- There is room for one more entry. -/
theorem HasRead.room (h : HasRead offer items scan)
    (hadmissible : Admissible limits offer (items ++ [item])) :
    saturatedCount (scan.members.length + 1) ≤ limits.maxEntries := by
  have hentries := hadmissible.entries
  rw [List.length_append, List.length_singleton] at hentries
  rw [UInt64.le_iff_toNat_le, saturatedCount_toNat, h.members, List.length_map]
  omega

/-- A member that can be read is read from the entry that was written for it. -/
theorem HasRead.step (h : HasRead offer items scan) (hnone : scan.rawControl = none)
    (hreadable : Readable unicode entries item.member)
    (hwritten : WrittenAs sha256 codec FieldsTell control item entry)
    (hkind : item.member.kind ≠ .control)
    (hadmissible : Admissible limits offer (items ++ [item])) :
    ∃ scan', scan.step unicode sha256 codec limits entries (some entry) = .ok scan' ∧
      scan'.rawControl = none ∧ HasRead offer (items ++ [item]) scan' := by
  have hroom := h.room hadmissible
  have hfits := hadmissible.files item (List.mem_append_right _ List.mem_cons_self)
  have hcontent := hadmissible.content
  rw [List.map_append, List.sum_append, List.map_singleton, List.sum_singleton] at hcontent
  obtain ⟨digest, hdelivered⟩ := hadmissible.delivered
  rw [List.flatMap_append, List.flatMap_singleton, updateFiles_append, h.delivered] at hdelivered
  have hdelivered : scan.delivered.updateFiles item.delivered = .ok digest := hdelivered
  obtain ⟨⟨kind, path, authorized⟩, body⟩ := item
  obtain ⟨hlink, hwritten⟩ := hwritten
  obtain ⟨hlogical, hplace⟩ := hreadable
  cases kind with
  | directory =>
      obtain ⟨pax, hpax, hdirectory, hauthority⟩ : ∃ pax, localityPaxFields entry = .ok pax ∧
          IsDirectory entry path ∧ DirectoryAuthority entries path pax authorized := by
        cases authorized with
        | none => exact ⟨[], hwritten.2, hwritten.1, .target hplace.1 hplace.2⟩
        | some authorized =>
            cases authorized with
            | directory winningScopeOrdinal mountId logicalPath =>
                obtain ⟨scope, hbelow, hmount⟩ := hplace
                obtain rfl : mountId = scope.mountId := hmount
                exact ⟨_, hwritten.2, hwritten.1, .below _ scope logicalPath hbelow⟩
            | file winningScopeOrdinal mountId logicalPath metadata => exact hwritten.elim
      exact ⟨_, step_eq_ok.mpr ⟨hroom, hnone, .directory path authorized
        ⟨hdirectory.entryType, hlink, hdirectory.header, hlogical, ⟨pax, hpax, hauthority⟩,
          hdirectory.mode, hdirectory.size⟩⟩, hnone, h.withDirectory hauthority body⟩
  | file =>
      cases authorized with
      | none => exact hwritten.elim
      | some authorized =>
          cases authorized with
          | directory winningScopeOrdinal mountId logicalPath => exact hwritten.elim
          | file winningScopeOrdinal mountId logicalPath metadata =>
              obtain ⟨hfile, hpax, hsize, rfl, hlength, hdigest⟩ := hwritten
              obtain ⟨scope, hbelow, hmount⟩ := hplace
              obtain rfl : mountId = scope.mountId := hmount
              obtain ⟨digest', hone, -⟩ := bind_eq_ok.mp hdelivered
              obtain ⟨htakes, -⟩ := DeliveredBodyDigest.updateFile_eq_ok.mp hone
              have hbytes : entry.size.toNat = metadata.byteLength.toNat :=
                congrArg UInt64.toNat hsize
              have hsum : saturatingAdd scan.contentBytes entry.size ≤ limits.maxContentBytes := by
                rw [h.contentBytes, saturatingAdd_saturatedCount, UInt64.le_iff_toNat_le,
                  saturatedCount_toNat, hbytes]
                exact (Nat.min_le_left _ _).trans hcontent
              have hmax : entry.size ≤ limits.maxFileBytes := by
                rw [UInt64.le_iff_toNat_le, hbytes]
                exact hfits
              have hauthorized : ArchiveScan.authorizedFile (paxMetadataOf winningScopeOrdinal
                  metadata) scope.mountId logicalPath entry.size =
                    .file winningScopeOrdinal scope.mountId logicalPath metadata := by
                rw [hsize]
                rfl
              rw [← hauthorized]
              exact ⟨_, step_eq_ok.mpr ⟨hroom, hnone, .file path scope logicalPath
                (paxMetadataOf winningScopeOrdinal metadata) ⟨hfile.entryType, hlink, hfile.header,
                  hlogical, hbelow, hpax, hfile.mode, hlength, hdigest⟩ hmax hsum htakes⟩, hnone,
                h.withFile htakes⟩
  | control => exact absurd rfl hkind
  | symlink => exact hwritten.elim
  | hardlink => exact hwritten.elim
  | blockDevice => exact hwritten.elim
  | characterDevice => exact hwritten.elim
  | fifo => exact hwritten.elim

/-- Members that can be read are read one after the other. -/
theorem HasRead.run {more : List ArchiveItem} {written : List TarEntry}
    (h : HasRead offer items scan) (hnone : scan.rawControl = none)
    (hreadable : ∀ item ∈ more, Readable unicode entries item.member ∧
      item.member.kind ≠ .control)
    (hwritten : List.Forall₂ (WrittenAs sha256 codec FieldsTell control) more written)
    (hadmissible : Admissible limits offer (items ++ more)) :
    ∃ scan', (written.map some).foldlM (fun (scan : ArchiveScan) entry =>
        scan.step unicode sha256 codec limits entries entry) scan = .ok scan' ∧
      scan'.rawControl = none ∧ HasRead offer (items ++ more) scan' := by
  induction hwritten generalizing items scan with
  | nil => exact ⟨scan, rfl, hnone, (List.append_nil items).symm ▸ h⟩
  | @cons item entry more written hone _ ih =>
      rw [List.append_cons] at hadmissible ⊢
      obtain ⟨hfirst, hrest⟩ := List.forall_mem_cons.mp hreadable
      obtain ⟨next, hnext, hnone', hread⟩ :=
        h.step hnone hfirst.1 hone hfirst.2 hadmissible.of_append_left
      obtain ⟨scan', hscan', hkept, hread'⟩ := ih hread hnone' hrest hadmissible
      exact ⟨scan', bind_eq_ok.mpr ⟨next, hnext, hscan'⟩, hkept, hread'⟩

end Unicode

end Locality.Daemon.WorkspaceArchive
