/-
  Daemon/ArchiveSteps.lean --- what one entry of a workspace archive is read as, and what
  reading it does to a scan.
-/
import Locality.Daemon.WorkspaceArchive
import Locality.Daemon.ExtractionSteps
import Locality.Protocol.MaterializationPlan

set_option autoImplicit false

namespace Locality.Daemon.WorkspaceArchive

open Locality.Core Locality.Foundation Locality.Protocol Locality.Protocol.Scope
  Locality.Protocol.WorkspaceExport

/-! ## Targets of paths -/

variable {entries : List SessionLayoutEntry} {path : Text} {pax : List (Text × Text)}

theorem splitTarget_of_notMem (h : '/' ∉ path) : splitTarget path = (path, none) := by
  rw [splitTarget, splitOnce_of_notMem h]

theorem splitTarget_append {target : Text} (h : '/' ∉ target) (logicalPath : Text) :
    splitTarget (target ++ '/' :: logicalPath) = (target, some logicalPath) := by
  rw [splitTarget, splitOnce_append h]

/-- A path is a target, or is below what comes before its first slash. -/
theorem splitTarget_cases (path : Text) :
    ('/' ∉ path ∧ splitTarget path = (path, none)) ∨
      ∃ target logicalPath, '/' ∉ target ∧ path = target ++ '/' :: logicalPath ∧
        splitTarget path = (target, some logicalPath) := by
  by_cases hmem : '/' ∈ path
  · obtain ⟨target, logicalPath, rfl, hfree⟩ := List.eq_append_cons_of_mem hmem
    exact Or.inr ⟨target, logicalPath, hfree, rfl, splitTarget_append hfree logicalPath⟩
  · exact Or.inl ⟨hmem, splitTarget_of_notMem hmem⟩

theorem scopeAtTarget_eq_ok {ordinal : UInt32} {target : Text} {scope : SessionLayoutEntry} :
    scopeAtTarget entries ordinal target = .ok scope ↔
      entryOfScope entries ordinal = some scope ∧ scope.target.value = target := by
  simp only [scopeAtTarget, okOr_bind_eq_ok, rejectIf_bind_eq_ok, ne_eq, not_not]
  constructor
  · intro h
    obtain ⟨found, hfound, htarget, h⟩ := h
    cases h
    exact ⟨hfound, htarget⟩
  · intro h
    exact ⟨scope, h.1, h.2, rfl⟩

theorem directoryScopeOrdinal_eq_ok {ordinal : UInt32} :
    directoryScopeOrdinal pax = .ok ordinal ↔
      pax = [(paxWinningScopeOrdinal, u32Text ordinal)] := by
  constructor
  · intro h
    rw [directoryScopeOrdinal.eq_def] at h
    split at h
    · obtain ⟨hkey, h⟩ := ite_throw_eq_ok.mp h
      obtain ⟨found, -, h⟩ := okOr_bind_eq_ok.mp h
      obtain ⟨hvalue, h⟩ := rejectIf_bind_eq_ok.mp h
      cases h
      rw [not_not.mp hkey, not_not.mp hvalue]
    · exact nomatch h
  · intro h
    rw [h, directoryScopeOrdinal, if_neg (not_not.mpr rfl)]
    exact okOr_bind_eq_ok.mpr ⟨ordinal, parseU32_u32Text ordinal,
      rejectIf_bind_eq_ok.mpr ⟨not_not.mpr rfl, rfl⟩⟩

/-- A path below the target of a scope. -/
structure Below (entries : List SessionLayoutEntry) (ordinal : UInt32)
    (scope : SessionLayoutEntry) (logicalPath path : Text) : Prop where
  found : entryOfScope entries ordinal = some scope
  free : '/' ∉ scope.target.value
  path : path = scope.target.value ++ '/' :: logicalPath

theorem Below.mem {ordinal : UInt32} {scope : SessionLayoutEntry} {logicalPath : Text}
    (h : Below entries ordinal scope logicalPath path) :
    scope.target.value ∈ entries.map fun entry => entry.target.value :=
  List.mem_map.mpr ⟨scope, (entryOfScope_eq_some h.found).1, rfl⟩

theorem Below.splitTarget {ordinal : UInt32} {scope : SessionLayoutEntry} {logicalPath : Text}
    (h : Below entries ordinal scope logicalPath path) :
    splitTarget path = (scope.target.value, some logicalPath) := by
  rw [h.path]
  exact splitTarget_append h.free logicalPath

/-- What a directory is authorized by: a target by nothing, any other by its scope. -/
inductive DirectoryAuthority (entries : List SessionLayoutEntry) (path : Text) :
    List (Text × Text) → Option WorkspaceAuthorizedExportEntry → Prop
  | target (hfree : '/' ∉ path) (hmem : path ∈ entries.map fun entry => entry.target.value) :
      DirectoryAuthority entries path [] none
  | below (ordinal : UInt32) (scope : SessionLayoutEntry) (logicalPath : Text)
      (h : Below entries ordinal scope logicalPath path) :
      DirectoryAuthority entries path [(paxWinningScopeOrdinal, u32Text ordinal)]
        (some (.directory ordinal scope.mountId logicalPath))

theorem authorizedDirectory_eq_ok {authorized : Option WorkspaceAuthorizedExportEntry} :
    ((splitTarget path).1 ∈ entries.map (fun entry => entry.target.value) ∧
      ArchiveScan.authorizedDirectory entries pax (splitTarget path).1 (splitTarget path).2 =
        .ok authorized) ↔
      DirectoryAuthority entries path pax authorized := by
  constructor
  · intro h
    obtain ⟨hmem, h⟩ := h
    obtain ⟨hfree, hsplit⟩ | ⟨target, logicalPath, hfree, rfl, hsplit⟩ := splitTarget_cases path
    · rw [hsplit] at hmem h
      obtain ⟨hpax, h⟩ := rejectIf_bind_eq_ok.mp h
      cases h
      rw [not_not.mp hpax]
      exact .target hfree hmem
    · rw [hsplit] at hmem h
      obtain ⟨ordinal, hordinal, h⟩ := bind_eq_ok.mp h
      obtain ⟨scope, hscope, h⟩ := bind_eq_ok.mp h
      cases h
      obtain ⟨hfound, rfl⟩ := scopeAtTarget_eq_ok.mp hscope
      rw [directoryScopeOrdinal_eq_ok.mp hordinal]
      exact .below ordinal scope logicalPath ⟨hfound, hfree, rfl⟩
  · intro h
    cases h with
    | target hfree hmem =>
        rw [splitTarget_of_notMem hfree]
        exact ⟨hmem, rfl⟩
    | below ordinal scope logicalPath h =>
        rw [h.splitTarget]
        exact ⟨h.mem, bind_eq_ok.mpr ⟨ordinal, directoryScopeOrdinal_eq_ok.mpr rfl,
          bind_eq_ok.mpr ⟨scope, scopeAtTarget_eq_ok.mpr ⟨h.found, rfl⟩, rfl⟩⟩⟩

/-! ## What an entry is read as -/

section Unicode

variable {unicode : UnicodeTables} {sha256 : List UInt8 → List UInt8}
  {codec : ControlCodec WorkspaceExportTerminalControl} {limits : WorkspaceArchiveLimits}
  {scan scan' : ArchiveScan} {entry : TarEntry}

/-- The entry of a directory. -/
structure DirectoryEntry (unicode : UnicodeTables) (entries : List SessionLayoutEntry)
    (entry : TarEntry) (path : Text) (authorized : Option WorkspaceAuthorizedExportEntry) :
    Prop where
  entryType : entry.entryType = .directory
  link : entry.hasLinkName = false
  header : ∃ raw, entry.path = .utf8 raw ∧ memberPath true raw = path
  logical : LogicalPath.new unicode path = .ok ⟨path⟩
  authority : ∃ fields, localityPaxFields entry = .ok fields ∧
    DirectoryAuthority entries path fields authorized
  mode : entry.mode = some readOnlyDirectoryMode
  size : entry.size = 0

/-- The entry of a file below a scope's target, with its metadata. -/
structure FileEntry (unicode : UnicodeTables) (sha256 : List UInt8 → List UInt8)
    (entries : List SessionLayoutEntry) (entry : TarEntry) (path : Text)
    (scope : SessionLayoutEntry) (logicalPath : Text) (metadata : ExportFilePaxMetadata) :
    Prop where
  entryType : entry.entryType = .regular
  link : entry.hasLinkName = false
  header : entry.path = .utf8 path
  logical : LogicalPath.new unicode path = .ok ⟨path⟩
  below : Below entries metadata.winningScopeOrdinal scope logicalPath path
  pax : ∃ fields, localityPaxFields entry = .ok fields ∧
    ExportFilePaxMetadata.fromRecords fields = some metadata
  mode : entry.mode = some readOnlyFileMode
  size : entry.size.toNat = entry.reads.flatten.length
  digest : sha256Label sha256 entry.reads.flatten = metadata.contentSha256

/-- The entry of the control. -/
structure ControlEntry (codec : ControlCodec WorkspaceExportTerminalControl) (entry : TarEntry)
    (control : WorkspaceExportTerminalControl) : Prop where
  entryType : entry.entryType = .regular
  link : entry.hasLinkName = false
  header : entry.path = .utf8 reservedExportMetadataPath
  pax : localityPaxFields entry = .ok []
  mode : entry.mode = some readOnlyFileMode
  size : entry.size.toNat ≤ maxExportTerminalControlBytes
  decode : codec.decode entry.reads.flatten = some control
  encode : codec.encode control = some entry.reads.flatten

namespace ArchiveScan

/-- A scan behind the control. -/
def withControl (scan : ArchiveScan) (control : WorkspaceExportTerminalControl) : ArchiveScan :=
  { scan with
    members := scan.members ++ [⟨.control, reservedExportMetadataPath, none⟩]
    rawControl := some control }

/-- A scan behind a directory. -/
def withDirectory (scan : ArchiveScan) (path : Text)
    (authorized : Option WorkspaceAuthorizedExportEntry) : ArchiveScan :=
  { scan with
    members := scan.members ++ [⟨.directory, path, authorized⟩]
    directories := saturatingAdd scan.directories 1
    staged := scan.staged ++ [.directory path] }

/-- A scan behind a file. -/
def withFile (scan : ArchiveScan) (path : Text) (authorized : WorkspaceAuthorizedExportEntry)
    (projectionId : ProjectionId) (body : List UInt8) (size : UInt64) : ArchiveScan :=
  { scan with
    members := scan.members ++ [⟨.file, path, some authorized⟩]
    delivered := scan.delivered.afterFile (projectionId, body)
    files := saturatingAdd scan.files 1
    contentBytes := saturatingAdd scan.contentBytes size
    staged := scan.staged ++ [.file path body] }

end ArchiveScan

/-- What one step makes of a scan. -/
inductive Reads (unicode : UnicodeTables) (sha256 : List UInt8 → List UInt8)
    (codec : ControlCodec WorkspaceExportTerminalControl) (limits : WorkspaceArchiveLimits)
    (entries : List SessionLayoutEntry) (scan : ArchiveScan) (entry : TarEntry) :
    ArchiveScan → Prop
  | control (control : WorkspaceExportTerminalControl) (h : ControlEntry codec entry control) :
      Reads unicode sha256 codec limits entries scan entry (scan.withControl control)
  | directory (path : Text) (authorized : Option WorkspaceAuthorizedExportEntry)
      (h : DirectoryEntry unicode entries entry path authorized) :
      Reads unicode sha256 codec limits entries scan entry (scan.withDirectory path authorized)
  | file (path : Text) (scope : SessionLayoutEntry) (logicalPath : Text)
      (metadata : ExportFilePaxMetadata)
      (h : FileEntry unicode sha256 entries entry path scope logicalPath metadata)
      (hsize : entry.size ≤ limits.maxFileBytes)
      (hcontent : saturatingAdd scan.contentBytes entry.size ≤ limits.maxContentBytes)
      (htakes : scan.delivered.Takes (metadata.projectionId, entry.reads.flatten)) :
      Reads unicode sha256 codec limits entries scan entry
        (scan.withFile path
          (ArchiveScan.authorizedFile metadata scope.mountId logicalPath entry.size)
          metadata.projectionId entry.reads.flatten entry.size)

/-! ## The parts of a step -/

theorem deliverBody_eq_ok {digest digest' : DeliveredBodyDigest} {projectionId : ProjectionId}
    {reads : List (List UInt8)} {size : UInt64} :
    deliverBody digest projectionId path reads size = .ok digest' ↔
      size.toNat = reads.flatten.length ∧ digest.Takes (projectionId, reads.flatten) ∧
        digest' = digest.afterFile (projectionId, reads.flatten) := by
  simp only [deliverBody, mapError_bind_eq_ok, mapError_eq_ok]
  rw [← DeliveredBodyDigest.updateChunkedFile_eq_ok, DeliveredBodyDigest.updateChunkedFile]
  simp only [bind_eq_ok]

theorem archiveMemberPath_eq_ok {raw : RawText} {isDirectory : Bool} :
    archiveMemberPath unicode raw isDirectory = .ok path ↔
      ∃ value, raw = .utf8 value ∧ memberPath isDirectory value = path ∧
        (path = reservedExportMetadataPath ∨ LogicalPath.new unicode path = .ok ⟨path⟩) := by
  have hraw : ∀ {value : Text}, raw.toText = some value ↔ raw = .utf8 value := by
    intro value
    cases raw with
    | utf8 text =>
        exact ⟨fun h => congrArg RawText.utf8 (Option.some.inj h),
          fun h => congrArg some (RawText.utf8.inj h)⟩
    | invalid bytes => exact ⟨fun h => (nomatch h), fun h => (nomatch h)⟩
  simp only [archiveMemberPath, okOr_bind_eq_ok, hraw]
  refine exists_congr fun value => and_congr_right fun _ => ?_
  constructor
  · intro h
    split at h
    · rename_i hreserved
      cases h
      exact ⟨rfl, Or.inl hreserved⟩
    · obtain ⟨logical, hlogical, h⟩ := mapError_bind_eq_ok.mp h
      cases h
      obtain rfl := value_of_new hlogical
      exact ⟨rfl, Or.inr hlogical⟩
  · intro h
    obtain ⟨rfl, hreserved | hlogical⟩ := h
    · rw [if_pos hreserved]
      rfl
    · rw [if_neg]
      · exact mapError_bind_eq_ok.mpr ⟨_, hlogical, rfl⟩
      · intro hreserved
        rw [hreserved, new_reserved] at hlogical
        exact nomatch hlogical

namespace ArchiveScan

theorem readControl_eq_ok {mode : UInt32} :
    scan.readControl codec entry pax path mode = .ok scan' ↔
      entry.entryType ≠ .directory ∧ mode = readOnlyFileMode ∧ pax = [] ∧
        entry.size.toNat ≤ maxExportTerminalControlBytes ∧
        ∃ control, codec.decode entry.reads.flatten = some control ∧
          codec.encode control = some entry.reads.flatten ∧
          scan' = { scan with
            members := scan.members ++ [⟨.control, path, none⟩]
            rawControl := some control } := by
  simp only [readControl, rejectIf_bind_eq_ok, okOr_bind_eq_ok, ne_eq, not_or, not_not, not_lt,
    and_assoc]
  constructor
  · intro h
    obtain ⟨htype, hmode, hpax, hsize, control, hdecode, hencode, h⟩ := h
    exact ⟨htype, hmode, hpax, hsize, control, hdecode, hencode, (Except.ok.inj h).symm⟩
  · intro h
    obtain ⟨htype, hmode, hpax, hsize, control, hdecode, hencode, rfl⟩ := h
    exact ⟨htype, hmode, hpax, hsize, control, hdecode, hencode, rfl⟩

theorem readDirectory_eq_ok {place : Text × Option Text} {mode : UInt32} :
    scan.readDirectory entries entry pax path place mode = .ok scan' ↔
      mode = readOnlyDirectoryMode ∧ entry.size = 0 ∧
        ∃ authorized, authorizedDirectory entries pax place.1 place.2 = .ok authorized ∧
          scan' = scan.withDirectory path authorized := by
  simp only [readDirectory, rejectIf_bind_eq_ok, ne_eq, not_or, not_not, and_assoc]
  constructor
  · intro h
    obtain ⟨hmode, hsize, h⟩ := h
    obtain ⟨authorized, hauthorized, h⟩ := bind_eq_ok.mp h
    exact ⟨hmode, hsize, authorized, hauthorized, (Except.ok.inj h).symm⟩
  · intro h
    obtain ⟨hmode, hsize, authorized, hauthorized, rfl⟩ := h
    exact ⟨hmode, hsize, bind_eq_ok.mpr ⟨authorized, hauthorized, rfl⟩⟩

theorem readFile_eq_ok {place : Text × Option Text} {mode : UInt32} :
    scan.readFile sha256 limits entries entry pax path place mode = .ok scan' ↔
      ∃ logicalPath, place.2 = some logicalPath ∧ mode = readOnlyFileMode ∧
        entry.size ≤ limits.maxFileBytes ∧
        saturatingAdd scan.contentBytes entry.size ≤ limits.maxContentBytes ∧
        ∃ metadata, ExportFilePaxMetadata.fromRecords pax = some metadata ∧
          ∃ scope, entryOfScope entries metadata.winningScopeOrdinal = some scope ∧
            scope.target.value = place.1 ∧ entry.size.toNat = entry.reads.flatten.length ∧
            scan.delivered.Takes (metadata.projectionId, entry.reads.flatten) ∧
            sha256Label sha256 entry.reads.flatten = metadata.contentSha256 ∧
            scan' = scan.withFile path
              (authorizedFile metadata scope.mountId logicalPath entry.size)
              metadata.projectionId entry.reads.flatten entry.size := by
  simp only [readFile, okOr_bind_eq_ok, rejectIf_bind_eq_ok, ne_eq, not_not, UInt64.not_lt]
  constructor
  · intro h
    obtain ⟨logicalPath, hplace, hmode, hsize, hcontent, metadata, hmetadata, h⟩ := h
    obtain ⟨scope, hscope, h⟩ := bind_eq_ok.mp h
    obtain ⟨hfound, htarget⟩ := scopeAtTarget_eq_ok.mp hscope
    obtain ⟨delivered, hdelivered, h⟩ := bind_eq_ok.mp h
    obtain ⟨hlength, htakes, rfl⟩ := deliverBody_eq_ok.mp hdelivered
    obtain ⟨hdigest, h⟩ := rejectIf_bind_eq_ok.mp h
    exact ⟨logicalPath, hplace, hmode, hsize, hcontent, metadata, hmetadata, scope, hfound,
      htarget, hlength, htakes, not_not.mp hdigest, (Except.ok.inj h).symm⟩
  · intro h
    obtain ⟨logicalPath, hplace, hmode, hsize, hcontent, metadata, hmetadata, scope, hfound,
      htarget, hlength, htakes, hdigest, rfl⟩ := h
    exact ⟨logicalPath, hplace, hmode, hsize, hcontent, metadata, hmetadata, bind_eq_ok.mpr
      ⟨scope, scopeAtTarget_eq_ok.mpr ⟨hfound, htarget⟩, bind_eq_ok.mpr ⟨_,
        deliverBody_eq_ok.mpr ⟨hlength, htakes, rfl⟩, rejectIf_bind_eq_ok.mpr
          ⟨not_not.mpr hdigest, rfl⟩⟩⟩⟩

end ArchiveScan

/-! ## One step -/

/-- What one more entry is read as, while there is room for it and no control was read. -/
theorem step_eq_ok :
    scan.step unicode sha256 codec limits entries (some entry) = .ok scan' ↔
      saturatedCount (scan.members.length + 1) ≤ limits.maxEntries ∧ scan.rawControl = none ∧
        Reads unicode sha256 codec limits entries scan entry scan' := by
  constructor
  · intro h
    obtain ⟨_, hentry, h⟩ := okOr_bind_eq_ok.mp h
    cases hentry
    obtain ⟨hcount, h⟩ := rejectIf_bind_eq_ok.mp h
    obtain ⟨hcontrol, h⟩ := rejectIf_bind_eq_ok.mp h
    obtain ⟨hother, h⟩ := rejectIf_bind_eq_ok.mp h
    obtain ⟨hlink, h⟩ := rejectIf_bind_eq_ok.mp h
    obtain ⟨path, hpath, h⟩ := bind_eq_ok.mp h
    obtain ⟨pax, hpax, h⟩ := bind_eq_ok.mp h
    obtain ⟨mode, hmode, h⟩ := okOr_bind_eq_ok.mp h
    obtain ⟨value, hvalue, hmember, hlogical⟩ := archiveMemberPath_eq_ok.mp hpath
    have hnolink : entry.hasLinkName = false := Bool.not_eq_true _ ▸ hlink
    have hregular : entry.entryType ≠ .directory → entry.entryType = .regular := by
      intro hdirectory
      cases htype : entry.entryType with
      | regular => rfl
      | directory => exact absurd htype hdirectory
      | other => exact absurd htype hother
    refine ⟨UInt64.not_lt.mp hcount, Option.not_isSome_iff_eq_none.mp hcontrol, ?_⟩
    split at h
    · rename_i hreserved
      obtain ⟨htype, rfl, rfl, hsize, control, hdecode, hencode, rfl⟩ :=
        ArchiveScan.readControl_eq_ok.mp h
      rw [decide_eq_false htype] at hmember
      subst hreserved
      have hheader : value = reservedExportMetadataPath := hmember
      exact .control control ⟨hregular htype, hnolink, hheader ▸ hvalue, hpax, hmode, hsize,
        hdecode, hencode⟩
    · rename_i hreserved
      have hlogical := hlogical.resolve_left hreserved
      obtain ⟨place, hplace, h⟩ := bind_eq_ok.mp h
      obtain ⟨hmem, hplace⟩ := rejectIf_bind_eq_ok.mp hplace
      cases hplace
      split at h
      · rename_i htype
        rw [decide_eq_true htype] at hmember
        obtain ⟨rfl, hsize, authorized, hauthorized, rfl⟩ :=
          ArchiveScan.readDirectory_eq_ok.mp h
        exact .directory path authorized ⟨htype, hnolink, ⟨value, hvalue, hmember⟩, hlogical,
          ⟨pax, hpax, authorizedDirectory_eq_ok.mp ⟨not_not.mp hmem, hauthorized⟩⟩, hmode, hsize⟩
      · rename_i htype
        rw [decide_eq_false htype] at hmember
        have hheader : value = path := hmember
        obtain ⟨logicalPath, hlogicalPath, rfl, hsize, hcontent, metadata, hmetadata, scope,
          hfound, htarget, hlength, htakes, hdigest, rfl⟩ := ArchiveScan.readFile_eq_ok.mp h
        refine .file path scope logicalPath metadata ⟨hregular htype, hnolink, hheader ▸ hvalue,
          hlogical, ?_, ⟨pax, hpax, hmetadata⟩, hmode, hlength, hdigest⟩ hsize hcontent htakes
        obtain ⟨-, hsplit⟩ | ⟨target, below, hfree, hbelow, hsplit⟩ := splitTarget_cases path
        · rw [hsplit] at hlogicalPath
          exact nomatch hlogicalPath
        · rw [hsplit] at hlogicalPath htarget
          obtain rfl := Option.some.inj hlogicalPath
          exact ⟨hfound, htarget ▸ hfree, htarget ▸ hbelow⟩
  · intro h
    obtain ⟨hcount, hcontrol, h⟩ := h
    have hnone : scan.rawControl.isSome = false := by
      rw [hcontrol]
      rfl
    have hreach : ∀ {path : Text} {pax : List (Text × Text)} {mode : UInt32},
        entry.entryType ≠ .other → entry.hasLinkName = false →
        archiveMemberPath unicode entry.path (decide (entry.entryType = .directory)) = .ok path →
        localityPaxFields entry = .ok pax → entry.mode = some mode →
        (if path = reservedExportMetadataPath then scan.readControl codec entry pax path mode
          else do
            let place ← splitTargetPath entries path
            if entry.entryType = .directory then
              scan.readDirectory entries entry pax path place mode
            else scan.readFile sha256 limits entries entry pax path place mode) = .ok scan' →
        scan.step unicode sha256 codec limits entries (some entry) = .ok scan' := by
      intro path pax mode hother hlink hpath hpax hmode hrest
      exact okOr_bind_eq_ok.mpr ⟨entry, rfl, rejectIf_bind_eq_ok.mpr ⟨UInt64.not_lt.mpr hcount,
        rejectIf_bind_eq_ok.mpr ⟨Bool.not_eq_true _ ▸ hnone, rejectIf_bind_eq_ok.mpr ⟨hother,
        rejectIf_bind_eq_ok.mpr ⟨Bool.not_eq_true _ ▸ hlink, bind_eq_ok.mpr ⟨path, hpath,
        bind_eq_ok.mpr ⟨pax, hpax, okOr_bind_eq_ok.mpr ⟨mode, hmode, hrest⟩⟩⟩⟩⟩⟩⟩⟩
    have hne : ∀ {path : Text}, LogicalPath.new unicode path = .ok ⟨path⟩ →
        path ≠ reservedExportMetadataPath := by
      intro path hok hreserved
      rw [hreserved, new_reserved] at hok
      exact nomatch hok
    cases h with
    | control control h =>
        have hfile : ¬ entry.entryType = .directory := h.entryType ▸ nofun
        refine hreach (h.entryType ▸ nofun) h.link (archiveMemberPath_eq_ok.mpr
          ⟨_, h.header, ?_, Or.inl rfl⟩) h.pax h.mode ?_
        · rw [decide_eq_false hfile]
          rfl
        · rw [if_pos rfl]
          exact ArchiveScan.readControl_eq_ok.mpr ⟨hfile, rfl, rfl, h.size, control, h.decode,
            h.encode, rfl⟩
    | directory path authorized h =>
        obtain ⟨value, hvalue, hmember⟩ := h.header
        obtain ⟨pax, hpax, hauthority⟩ := h.authority
        obtain ⟨hmem, hauthorized⟩ := authorizedDirectory_eq_ok.mpr hauthority
        refine hreach (h.entryType ▸ nofun) h.link (archiveMemberPath_eq_ok.mpr
          ⟨value, hvalue, ?_, Or.inr h.logical⟩) hpax h.mode ?_
        · rw [decide_eq_true h.entryType]
          exact hmember
        · rw [if_neg (hne h.logical)]
          refine bind_eq_ok.mpr ⟨splitTarget path, rejectIf_bind_eq_ok.mpr
            ⟨not_not.mpr hmem, rfl⟩, ?_⟩
          rw [if_pos h.entryType]
          exact ArchiveScan.readDirectory_eq_ok.mpr ⟨rfl, h.size, authorized, hauthorized, rfl⟩
    | file path scope logicalPath metadata h hsize hcontent htakes =>
        have hfile : ¬ entry.entryType = .directory := h.entryType ▸ nofun
        obtain ⟨pax, hpax, hmetadata⟩ := h.pax
        refine hreach (h.entryType ▸ nofun) h.link (archiveMemberPath_eq_ok.mpr
          ⟨path, h.header, ?_, Or.inr h.logical⟩) hpax h.mode ?_
        · rw [decide_eq_false hfile]
          rfl
        · rw [if_neg (hne h.logical)]
          have hsplit := h.below.splitTarget
          refine bind_eq_ok.mpr ⟨splitTarget path, rejectIf_bind_eq_ok.mpr
            ⟨not_not.mpr ?_, rfl⟩, ?_⟩
          · rw [hsplit]
            exact h.below.mem
          · rw [if_neg hfile]
            exact ArchiveScan.readFile_eq_ok.mpr ⟨logicalPath, congrArg Prod.snd hsplit, rfl,
              hsize, hcontent, metadata, hmetadata, scope, h.below.found,
              (congrArg Prod.fst hsplit).symm, h.size, htakes, h.digest, rfl⟩

end Unicode

end Locality.Daemon.WorkspaceArchive
