/-
  Daemon/ExtractionSteps.lean --- what one entry of an archive is read as, and what
  reading it does to a scan.
-/
import Locality.Daemon.ExtractionPaths

set_option autoImplicit false

namespace Locality.Daemon

open Locality.Core Locality.Foundation Locality.Protocol Locality.Protocol.Scope

section Unicode

variable {unicode : UnicodeTables} {lowercase : Text → Text} {sha256 : List UInt8 → List UInt8}
  {codec : ControlCodec ExportTerminalControl} {limits : ReplicaMaterializationLimits}
  {scan scan' : ReplicaScan} {entry : TarEntry} {pax : List (Text × Text)}

/-! ## The parts of a step -/

namespace ReplicaScan

/-- A scan behind the completion receipt. -/
def withControl (scan : ReplicaScan) (parsed : ExportTerminalControl) : ReplicaScan :=
  { scan with
    records := scan.records ++ [.control ⟨0⟩ reservedExportMetadataPath]
    terminalControl := some parsed }

theorem readControl_eq_ok :
    scan.readControl codec entry pax = .ok scan' ↔
      entry.entryType = .regular ∧ pax = [] ∧ entry.mode = some readOnlyFileMode ∧
        entry.size.toNat ≤ maxExportTerminalControlBytes ∧
        ∃ parsed, codec.decode entry.reads.flatten = some parsed ∧
          codec.encode parsed = some entry.reads.flatten ∧ scan' = scan.withControl parsed := by
  simp only [readControl, rejectIf_bind_eq_ok, okOr_bind_eq_ok, ne_eq, not_not, not_lt]
  constructor
  · intro h
    obtain ⟨htype, hpax, mode, hmode, rfl, hsize, parsed, hdecode, hencode, h⟩ := h
    exact ⟨htype, hpax, hmode, hsize, parsed, hdecode, hencode, (Except.ok.inj h).symm⟩
  · intro h
    obtain ⟨htype, hpax, hmode, hsize, parsed, hdecode, hencode, rfl⟩ := h
    exact ⟨htype, hpax, _, hmode, rfl, hsize, parsed, hdecode, hencode, rfl⟩

/-- A scan behind a directory. -/
def withDirectory (scan : ReplicaScan) (path : Text) : ReplicaScan :=
  { scan with
    records := scan.records ++ [.directory ⟨pathDepth ⟨path⟩, ⟨path⟩⟩]
    staged := scan.staged ++ [.directory path] }

theorem readDirectory_eq_ok {path : Text} {mode : UInt32}
    (hpath : LogicalPath.new unicode path = .ok ⟨path⟩) :
    scan.readDirectory unicode entry pax path mode = .ok scan' ↔
      eqIgnoreAsciiCase path ".loc".toList = false ∧ pax = [] ∧
        mode = readOnlyDirectoryMode ∧ entry.size = 0 ∧ scan' = scan.withDirectory path := by
  simp only [readDirectory, rejectIf_bind_eq_ok, mapError_bind_eq_ok, hpath, ne_eq, not_not,
    Bool.not_eq_true, Except.ok.injEq, exists_eq_left']
  constructor
  · intro h
    obtain ⟨hloc, hpax, hmode, hsize, h⟩ := h
    exact ⟨hloc, hpax, hmode, hsize, (Except.ok.inj h).symm⟩
  · intro h
    obtain ⟨hloc, hpax, hmode, hsize, rfl⟩ := h
    exact ⟨hloc, hpax, hmode, hsize, rfl⟩

/-- The record that metadata makes of a file. -/
def fileRecord (metadata : ExportFilePaxMetadata) (parentPath : Option LogicalPath)
    (path : Text) (size : UInt64) : CanonicalExportRecord :=
  .file ⟨metadata.winningScopeOrdinal, parentPath, ⟨path⟩, metadata.projectionId⟩
    metadata.sourceConnectionId metadata.fileKind metadata.effectiveActions
    metadata.contentSha256 size

/-- A scan behind a file. -/
def withFile (scan : ReplicaScan) (record : CanonicalExportRecord) (path : Text)
    (digest : DeliveredBodyDigest) (body : List UInt8) (diskSize : UInt64) : ReplicaScan :=
  { scan with
    state := { scan.state with
      summary := { scan.state.summary with
        files := scan.state.summary.files + 1
        materializedBytes := diskSize } }
    records := scan.records ++ [record]
    bodyDigest := digest
    staged := scan.staged ++ [.file path body] }

/-- A file is delivered as long as was announced. -/
theorem deliverFile_eq_ok {digest digest' : DeliveredBodyDigest} {projectionId : ProjectionId}
    {path : Text} {reads : List (List UInt8)} {size : UInt64} :
    deliverFile digest projectionId path reads size = .ok digest' ↔
      size.toNat = reads.flatten.length ∧ digest.Takes (projectionId, reads.flatten) ∧
        digest' = digest.afterFile (projectionId, reads.flatten) := by
  simp only [deliverFile, writeHashedFile, mapError_bind_eq_ok, bind_assoc, rejectIf_bind_eq_ok,
    ne_eq, not_not, pure_bind, mapError_eq_ok]
  constructor
  · intro h
    obtain ⟨begun, hbegun, fed, hfed, -, hended⟩ := h
    exact DeliveredBodyDigest.updateChunkedFile_eq_ok.mp
      (bind_eq_ok.mpr ⟨begun, hbegun, bind_eq_ok.mpr ⟨fed, hfed, hended⟩⟩)
  · intro h
    obtain ⟨begun, hbegun, hrest⟩ := bind_eq_ok.mp
      (DeliveredBodyDigest.updateChunkedFile_eq_ok.mpr h)
    obtain ⟨fed, hfed, hended⟩ := bind_eq_ok.mp hrest
    exact ⟨begun, hbegun, fed, hfed, h.1.symm, hended⟩

theorem readFile_eq_ok {path : Text} {mode : UInt32}
    (hpath : LogicalPath.new unicode path = .ok ⟨path⟩) :
    scan.readFile unicode sha256 limits entry pax path mode = .ok scan' ↔
      mode = readOnlyFileMode ∧ entry.size ≤ limits.maxFileBytes ∧
        saturatingAdd scan.state.summary.materializedBytes entry.size ≤ limits.maxDiskBytes ∧
        ∃ metadata, ExportFilePaxMetadata.fromRecords pax = some metadata ∧
          ∃ parentPath, logicalParent unicode ⟨path⟩ = .ok parentPath ∧
            entry.size.toNat = entry.reads.flatten.length ∧
            scan.bodyDigest.Takes (metadata.projectionId, entry.reads.flatten) ∧
            sha256Label sha256 entry.reads.flatten = metadata.contentSha256 ∧
            scan' = scan.withFile (fileRecord metadata parentPath path entry.size) path
              (scan.bodyDigest.afterFile (metadata.projectionId, entry.reads.flatten))
              entry.reads.flatten
              (saturatingAdd scan.state.summary.materializedBytes entry.size) := by
  simp only [readFile, rejectIf_bind_eq_ok, okOr_bind_eq_ok, mapError_bind_eq_ok, hpath,
    ne_eq, not_not, UInt64.not_lt, Except.ok.injEq, exists_eq_left']
  constructor
  · intro h
    obtain ⟨hmode, hsize, hdisk, metadata, hmetadata, parentPath, hparent, h⟩ := h
    obtain ⟨digest, hdigest, h⟩ := bind_eq_ok.mp h
    obtain ⟨hsha, h⟩ := rejectIf_bind_eq_ok.mp h
    obtain ⟨hlength, htakes, rfl⟩ := deliverFile_eq_ok.mp hdigest
    exact ⟨hmode, hsize, hdisk, metadata, hmetadata, parentPath, hparent, hlength, htakes,
      not_not.mp hsha, (Except.ok.inj h).symm⟩
  · intro h
    obtain ⟨hmode, hsize, hdisk, metadata, hmetadata, parentPath, hparent, hlength, htakes, hsha,
      rfl⟩ := h
    exact ⟨hmode, hsize, hdisk, metadata, hmetadata, parentPath, hparent, bind_eq_ok.mpr
      ⟨_, deliverFile_eq_ok.mpr ⟨hlength, htakes, rfl⟩, rejectIf_bind_eq_ok.mpr
        ⟨not_not.mpr hsha, rfl⟩⟩⟩

end ReplicaScan

/-! ## What an entry is read as -/

/-- The entry of a directory. -/
structure DirectoryEntry (unicode : UnicodeTables) (entry : TarEntry) (path : Text) : Prop where
  entryType : entry.entryType = .directory
  link : entry.hasLinkName = false
  header : ∃ raw, entry.path = .utf8 raw ∧ memberPath true raw = path
  logical : LogicalPath.new unicode path = .ok ⟨path⟩
  notControl : eqIgnoreAsciiCase path ".loc".toList = false
  pax : replicaPaxFields entry = .ok []
  mode : entry.mode = some readOnlyDirectoryMode
  size : entry.size = 0

/-- The entry of a file, of which its PAX records tell metadata. -/
structure FileEntry (unicode : UnicodeTables) (sha256 : List UInt8 → List UInt8)
    (tells : List (Text × Text) → ExportFilePaxMetadata → Prop) (entry : TarEntry)
    (path : Text) (parentPath : Option LogicalPath) (metadata : ExportFilePaxMetadata) : Prop where
  entryType : entry.entryType = .regular
  link : entry.hasLinkName = false
  header : entry.path = .utf8 path
  logical : LogicalPath.new unicode path = .ok ⟨path⟩
  pax : ∃ fields, replicaPaxFields entry = .ok fields ∧ tells fields metadata
  mode : entry.mode = some readOnlyFileMode
  parent : logicalParent unicode ⟨path⟩ = .ok parentPath
  size : entry.size.toNat = entry.reads.flatten.length
  digest : sha256Label sha256 entry.reads.flatten = metadata.contentSha256

/-- The entry of the completion receipt. -/
structure ControlEntry (codec : ControlCodec ExportTerminalControl) (entry : TarEntry)
    (control : ExportTerminalControl) : Prop where
  entryType : entry.entryType = .regular
  link : entry.hasLinkName = false
  header : entry.path = .utf8 reservedExportMetadataPath
  pax : replicaPaxFields entry = .ok []
  mode : entry.mode = some readOnlyFileMode
  size : entry.size.toNat ≤ maxExportTerminalControlBytes
  decode : codec.decode entry.reads.flatten = some control
  encode : codec.encode control = some entry.reads.flatten

/-- The reserved path is no path of a tree. -/
theorem new_reserved (unicode : UnicodeTables) :
    LogicalPath.new unicode reservedExportMetadataPath = .error .reservedMetadata := by
  rw [LogicalPath.new, validateLogicalPath, if_neg (by decide), if_neg (by decide),
    if_neg (by decide), if_pos rfl]
  rfl

theorem value_of_new {unicode : UnicodeTables} {path : Text} {logical : LogicalPath}
    (h : LogicalPath.new unicode path = .ok logical) : logical = ⟨path⟩ := by
  obtain ⟨_, -, h⟩ := bind_eq_ok.mp h
  exact (Except.ok.inj h).symm

/-- What one step makes of a scan. -/
inductive Reads (unicode : UnicodeTables) (lowercase : Text → Text)
    (sha256 : List UInt8 → List UInt8) (codec : ControlCodec ExportTerminalControl)
    (limits : ReplicaMaterializationLimits) (scan : ReplicaScan) (entry : TarEntry) :
    ReplicaScan → Prop
  | control (control : ExportTerminalControl) (h : ControlEntry codec entry control) :
      Reads unicode lowercase sha256 codec limits scan entry (scan.withControl control)
  | directory (path : Text) (h : DirectoryEntry unicode entry path) (state : ExtractionState)
      (hstate : scan.state.registerPath unicode lowercase path true = .ok state) :
      Reads unicode lowercase sha256 codec limits scan entry
        ({ scan with state := state }.withDirectory path)
  | file (path : Text) (parentPath : Option LogicalPath) (metadata : ExportFilePaxMetadata)
      (h : FileEntry unicode sha256
        (fun fields metadata => ExportFilePaxMetadata.fromRecords fields = some metadata)
        entry path parentPath metadata) (state : ExtractionState)
      (hstate : scan.state.registerPath unicode lowercase path false = .ok state)
      (hsize : entry.size ≤ limits.maxFileBytes)
      (hdisk : saturatingAdd state.summary.materializedBytes entry.size ≤ limits.maxDiskBytes)
      (htakes : scan.bodyDigest.Takes (metadata.projectionId, entry.reads.flatten)) :
      Reads unicode lowercase sha256 codec limits scan entry
        ({ scan with state := state }.withFile
          (ReplicaScan.fileRecord metadata parentPath path entry.size) path
          (scan.bodyDigest.afterFile (metadata.projectionId, entry.reads.flatten))
          entry.reads.flatten (saturatingAdd state.summary.materializedBytes entry.size))

/-- The entry as a directory or a file. -/
theorem readNode_eq_ok {raw : Text} (hother : entry.entryType ≠ .other)
    (hlink : entry.hasLinkName = false) (hraw : entry.path = .utf8 raw)
    (hpax : replicaPaxFields entry = .ok pax) :
    scan.readNode unicode lowercase sha256 limits entry pax raw = .ok scan' →
      Reads unicode lowercase sha256 codec limits scan entry scan' := by
  intro h
  obtain ⟨logical, hlogical, h⟩ := mapError_bind_eq_ok.mp h
  obtain rfl := value_of_new hlogical
  obtain ⟨state, hstate, h⟩ := bind_eq_ok.mp h
  obtain ⟨mode, hmode, h⟩ := okOr_bind_eq_ok.mp h
  by_cases hdirectory : entry.entryType = .directory
  · rw [decide_eq_true hdirectory] at hlogical hstate h
    obtain ⟨hloc, hnone, rfl, hsize, rfl⟩ := (ReplicaScan.readDirectory_eq_ok hlogical).mp h
    exact .directory _ ⟨hdirectory, hlink, ⟨raw, hraw, rfl⟩, hlogical, hloc, hnone ▸ hpax, hmode,
      hsize⟩ state hstate
  · rw [decide_eq_false hdirectory] at hlogical hstate h
    have hregular : entry.entryType = .regular := by
      cases htype : entry.entryType with
      | regular => rfl
      | directory => exact absurd htype hdirectory
      | other => exact absurd htype hother
    obtain ⟨rfl, hsize, hdisk, metadata, hmetadata, parentPath, hparent, hlength, htakes, hsha,
      rfl⟩ := (ReplicaScan.readFile_eq_ok hlogical).mp h
    exact .file _ parentPath metadata ⟨hregular, hlink, hraw, hlogical, ⟨pax, hpax, hmetadata⟩,
      hmode, hparent, hlength, hsha⟩ state hstate hsize hdisk htakes

theorem step_eq_ok :
    scan.step unicode lowercase sha256 codec limits (some entry) = .ok scan' ↔
      scan.count.state.summary.entries ≤ limits.maxEntries ∧ scan.terminalControl = none ∧
        Reads unicode lowercase sha256 codec limits scan.count entry scan' := by
  constructor
  · intro h
    obtain ⟨_, hentry, h⟩ := okOr_bind_eq_ok.mp h
    cases hentry
    obtain ⟨hcount, h⟩ := rejectIf_bind_eq_ok.mp h
    obtain ⟨hcontrol, h⟩ := rejectIf_bind_eq_ok.mp h
    obtain ⟨hother, h⟩ := rejectIf_bind_eq_ok.mp h
    obtain ⟨hlink, h⟩ := rejectIf_bind_eq_ok.mp h
    obtain ⟨raw, hraw, h⟩ := okOr_bind_eq_ok.mp h
    obtain ⟨pax, hpax, h⟩ := bind_eq_ok.mp h
    have hpath : entry.path = .utf8 raw := by
      cases hentry : entry.path with
      | utf8 text => rw [hentry] at hraw; cases hraw; rfl
      | invalid bytes => rw [hentry] at hraw; exact nomatch hraw
    have hnolink : entry.hasLinkName = false := Bool.not_eq_true _ ▸ hlink
    refine ⟨UInt64.not_lt.mp hcount, Option.not_isSome_iff_eq_none.mp hcontrol, ?_⟩
    split at h
    · rename_i hreserved
      obtain ⟨htype, hnone, hmode, hsize, parsed, hdecode, hencode, rfl⟩ :=
        ReplicaScan.readControl_eq_ok.mp h
      rw [htype] at hreserved
      have hname : raw = reservedExportMetadataPath := hreserved
      exact .control parsed ⟨htype, hnolink, hname ▸ hpath, hnone ▸ hpax, hmode, hsize, hdecode,
        hencode⟩
    · exact readNode_eq_ok hother hnolink hpath hpax h
  · intro h
    obtain ⟨hcount, hcontrol, h⟩ := h
    have hnone : scan.count.terminalControl.isSome = false := by
      rw [ReplicaScan.count, hcontrol]
      rfl
    have hreach : ∀ {raw : Text} {pax : List (Text × Text)}, entry.entryType ≠ .other →
        entry.hasLinkName = false → entry.path = .utf8 raw → replicaPaxFields entry = .ok pax →
        (if memberPath (decide (entry.entryType = .directory)) raw = reservedExportMetadataPath
          then scan.count.readControl codec entry pax
          else scan.count.readNode unicode lowercase sha256 limits entry pax raw) = .ok scan' →
        scan.step unicode lowercase sha256 codec limits (some entry) = .ok scan' := by
      intro raw pax hother hlink hpath hpax hrest
      refine okOr_bind_eq_ok.mpr ⟨entry, rfl, rejectIf_bind_eq_ok.mpr ⟨UInt64.not_lt.mpr hcount,
        rejectIf_bind_eq_ok.mpr ⟨Bool.not_eq_true _ ▸ hnone, rejectIf_bind_eq_ok.mpr ⟨hother,
        rejectIf_bind_eq_ok.mpr ⟨Bool.not_eq_true _ ▸ hlink, okOr_bind_eq_ok.mpr ⟨raw, ?_,
        bind_eq_ok.mpr ⟨pax, hpax, hrest⟩⟩⟩⟩⟩⟩⟩
      rw [hpath]
      rfl
    have hlogical : ∀ {path : Text}, LogicalPath.new unicode path = .ok ⟨path⟩ →
        path ≠ reservedExportMetadataPath := by
      intro path hok hreserved
      rw [hreserved, new_reserved] at hok
      exact nomatch hok
    cases h with
    | control control h =>
        refine hreach (h.entryType ▸ nofun) h.link h.header h.pax ?_
        have hmember : memberPath (decide (entry.entryType = .directory))
            reservedExportMetadataPath = reservedExportMetadataPath := by
          rw [h.entryType]
          rfl
        rw [if_pos hmember]
        exact ReplicaScan.readControl_eq_ok.mpr ⟨h.entryType, rfl, h.mode, h.size, control,
          h.decode, h.encode, rfl⟩
    | directory path h state hstate =>
        obtain ⟨raw, hraw, hmember⟩ := h.header
        refine hreach (h.entryType ▸ nofun) h.link hraw h.pax ?_
        have hdirectory : decide (entry.entryType = .directory) = true :=
          decide_eq_true h.entryType
        rw [hdirectory, hmember, if_neg (hlogical h.logical), ReplicaScan.readNode, hdirectory,
          hmember]
        exact mapError_bind_eq_ok.mpr ⟨_, h.logical, bind_eq_ok.mpr ⟨state, hstate,
          okOr_bind_eq_ok.mpr ⟨_, h.mode, (ReplicaScan.readDirectory_eq_ok h.logical).mpr
            ⟨h.notControl, rfl, rfl, h.size, rfl⟩⟩⟩⟩
    | file path parentPath metadata h state hstate hsize hdisk htakes =>
        obtain ⟨fields, hfields, hmetadata⟩ := h.pax
        refine hreach (h.entryType ▸ nofun) h.link h.header hfields ?_
        have hfile : decide (entry.entryType = .directory) = false :=
          decide_eq_false (h.entryType ▸ nofun)
        have hmember : memberPath false path = path := rfl
        rw [hfile, hmember, if_neg (hlogical h.logical), ReplicaScan.readNode, hfile, hmember]
        exact mapError_bind_eq_ok.mpr ⟨_, h.logical, bind_eq_ok.mpr ⟨state, hstate,
          okOr_bind_eq_ok.mpr ⟨_, h.mode, (ReplicaScan.readFile_eq_ok h.logical).mpr
            ⟨rfl, hsize, hdisk, metadata, hmetadata, parentPath, h.parent, h.size, htakes,
              h.digest, rfl⟩⟩⟩⟩

end Unicode

end Locality.Daemon
