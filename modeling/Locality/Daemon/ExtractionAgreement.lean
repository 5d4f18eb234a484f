/-
  Daemon/ExtractionAgreement.lean --- where the export contract and the extraction agree:
  on exports without paths that the extraction takes for one another, and on archives
  whose paths are as different folded as they are in lower case.
-/
import Locality.Daemon.ContractAgreement

set_option autoImplicit false

namespace Locality.Daemon

open Locality.Core Locality.Foundation Locality.Protocol Locality.Protocol.Scope

/-- The archive of an export that keeps its contract is extracted if its metadata fits PAX
records, no path or parent is both a file and a directory, and no two of them are equal in
lower case.  What is extracted is what the contract is about if no two of its paths that
differ in lower case fold to one. -/
theorem extracts_iff (unicode : UnicodeTables) (lowercase : Text → Text)
    (sha256 : List UInt8 → List UInt8) (codec : ControlCodec ExportTerminalControl)
    (limits : ReplicaMaterializationLimits) (offer : SealedExportOffer) :
    (∀ control contents stream, KeepsContract unicode sha256 offer control contents →
      IsArchiveOf codec control contents stream →
      WithinLimits codec limits control contents → RoundTrips codec control →
      ((∃ summary, extractScopeAuthorizedTar unicode lowercase sha256 codec limits offer stream =
          .ok summary) ↔
        (∀ content ∈ contents, PaxFits content) ∧
          Collisionless unicode lowercase (contents.flatMap ExportContent.placed))) ∧
    ∀ stream summary,
      extractScopeAuthorizedTar unicode lowercase sha256 codec limits offer stream =
        .ok summary →
      ∃ scan, scanReplicaEntries unicode lowercase sha256 codec limits offer stream = .ok scan ∧
        (MaterializesContract unicode sha256 offer scan ↔
          FoldsApart unicode lowercase (stagedPlacements scan.staged)) := by
  constructor
  · intro control contents stream hcontract harchive hlimits hcodec
    constructor
    · intro h
      obtain ⟨summary, hextract⟩ := h
      obtain ⟨scan, hscan, -⟩ := bind_eq_ok.mp hextract
      obtain ⟨hfits, -, hplaced⟩ := fits_of_scan hcontract harchive hscan
      exact ⟨hfits, hplaced⟩
    · intro h
      exact exists_extract hcontract harchive hlimits hcodec h.1 h.2
  · intro stream summary h
    exact materializes_iff h

/-! ## Exports of small files -/

namespace Sample

def sampleTables : UnicodeTables where
  nfc := id
  defaultCaseFold text := text.flatMap fun c => if c = 'ß' then ['s', 's'] else toAsciiLowercase [c]

def bodyDigest : List UInt8 :=
  [143, 67, 67, 70, 100, 143, 107, 150, 223, 137, 221, 169, 1, 197, 23, 107,
   16, 166, 216, 57, 97, 221, 60, 26, 200, 139, 89, 178, 220, 50, 122, 164]

def writableDigest : List UInt8 :=
  [244, 207, 203, 14, 202, 143, 5, 169, 173, 17, 212, 55, 5, 4, 78, 169,
   29, 135, 85, 15, 13, 130, 82, 37, 247, 247, 241, 31, 3, 135, 235, 189]

def sourceGenerations : List OrderedSourceGeneration := [⟨0, ⟨"c".toList⟩, ⟨"g".toList⟩⟩]

def body : List UInt8 := asBytes "hi".toList

/-- The paths of files with their parents, and the digests that come of them. -/
structure SampleExport where
  paths : List (Option Text × Text)
  inventoryDigest : List UInt8
  deliveredDigest : List UInt8

def plainFile : SampleExport where
  paths := [(none, "a.md".toList)]
  inventoryDigest :=
    [101, 108, 72, 203, 215, 207, 183, 167, 38, 144, 139, 113, 59, 193, 41, 138,
     197, 8, 153, 134, 203, 141, 74, 19, 239, 242, 62, 152, 55, 200, 251, 181]
  deliveredDigest :=
    [46, 64, 194, 66, 40, 97, 240, 21, 15, 233, 34, 184, 62, 165, 25, 18,
     110, 154, 65, 5, 70, 198, 14, 51, 81, 79, 96, 244, 175, 80, 214, 190]

/-- A file where the control directory would be, and a file in that directory. -/
def controlFiles : SampleExport where
  paths := [(none, ".loc".toList), (some ".loc".toList, ".loc/x".toList)]
  inventoryDigest :=
    [92, 148, 112, 78, 11, 235, 108, 68, 53, 245, 251, 186, 107, 194, 149, 121,
     149, 62, 16, 31, 13, 234, 181, 62, 38, 210, 240, 162, 97, 192, 3, 73]
  deliveredDigest :=
    [115, 126, 50, 171, 91, 73, 217, 93, 178, 79, 187, 71, 59, 150, 231, 244,
     15, 107, 149, 191, 79, 140, 203, 89, 75, 138, 225, 230, 107, 211, 211, 80]

/-- Paths that fold to one, and are their own lower case. -/
def foldingFiles : SampleExport where
  paths := [(none, "ss".toList), (none, "ß".toList)]
  inventoryDigest :=
    [60, 62, 72, 216, 3, 161, 199, 204, 105, 174, 87, 244, 198, 57, 198, 135,
     102, 213, 159, 158, 213, 138, 109, 225, 109, 230, 244, 29, 184, 204, 40, 186]
  deliveredDigest :=
    [115, 126, 50, 171, 91, 73, 217, 93, 178, 79, 187, 71, 59, 150, 231, 244,
     15, 107, 149, 191, 79, 140, 203, 89, 75, 138, 225, 230, 107, 211, 211, 80]

/-- The digests of what the samples hash, by its length. -/
def knownDigest (bytes : List UInt8) : List UInt8 :=
  match bytes.length with
  | 2 => bodyDigest
  | 153 => writableDigest
  | 210 => plainFile.inventoryDigest
  | 63 => plainFile.deliveredDigest
  | 385 => controlFiles.inventoryDigest
  | 82 => controlFiles.deliveredDigest
  | 379 => foldingFiles.inventoryDigest
  | _ => []

/-- The label of a digest. -/
def digestLabel (digest : List UInt8) : Text := sha256Label id digest

/-- Files that hold the same two bytes, each under a path and with its number. -/
def fileContents (paths : List (Option Text × Text)) : List ExportContent :=
  paths.zipIdx.map fun ((parent, path), index) =>
    ⟨.file ⟨0, parent.map LogicalPath.mk, ⟨path⟩, ⟨u32Text (UInt32.ofNat index)⟩⟩ ⟨"c".toList⟩
      .markdown {.read} (digestLabel bodyDigest) 2, body⟩

def contents (sample : SampleExport) : List ExportContent :=
  fileContents sample.paths ++ [⟨endControl, []⟩]

def metadata : WritableExportMetadata where
  versions := latestComponentVersions
  sessionId := ⟨"s".toList⟩
  exportAttemptId := ⟨"e".toList⟩
  sourceGenerations := sourceGenerations
  writableEntries := []

def offer (sample : SampleExport) : SealedExportOffer where
  versions := latestComponentVersions
  sessionId := ⟨"s".toList⟩
  exportAttemptId := ⟨"e".toList⟩
  sourceGenerations := sourceGenerations
  mediaType := "application/x-tar".toList
  contentEncoding := .identity
  limits := ⟨100, 100, 100⟩
  controlEntryCount := 1
  fileCount := UInt64.ofNat sample.paths.length
  directoryCount := 0
  archiveEntryCount := UInt64.ofNat (sample.paths.length + 1)
  selectedContentBytes := UInt64.ofNat (2 * sample.paths.length)
  inventorySha256 := digestLabel sample.inventoryDigest
  writableMetadataSha256 := digestLabel writableDigest
  sealedAt := "2026-01-01T00:00:00Z".toList
  expiresAt := "2026-01-02T00:00:00Z".toList

def control (sample : SampleExport) : ExportTerminalControl where
  writableMetadata := metadata
  completionReceipt :=
    { versions := latestComponentVersions
      sessionId := ⟨"s".toList⟩
      exportAttemptId := ⟨"e".toList⟩
      sourceGenerations := sourceGenerations
      inventorySha256 := digestLabel sample.inventoryDigest
      writableMetadataSha256 := digestLabel writableDigest
      deliveredControlEntryCount := 1
      deliveredFileCount := UInt64.ofNat sample.paths.length
      deliveredDirectoryCount := 0
      deliveredArchiveEntryCount := UInt64.ofNat (sample.paths.length + 1)
      deliveredContentBytes := UInt64.ofNat (2 * sample.paths.length)
      deliveredBodySha256 := digestLabel sample.deliveredDigest
      completedAt := "2026-01-01T00:00:01Z".toList }

/-! ### Their control member -/

/-- A text without characters that would be escaped. -/
def jsonString (text : Text) : Text := ['"'] ++ text ++ ['"']

def jsonArray (items : List Text) : Text := ['['] ++ join [','] items ++ [']']

def jsonObject (fields : List (String × Text)) : Text :=
  ['\x7b'] ++ join [','] (fields.map fun (name, value) =>
    jsonString name.toList ++ [':'] ++ value) ++ ['\x7d']

def jsonNumber (value : Nat) : Text := Nat.toDigits 10 value

def versionsJson (versions : ComponentVersions) : Text :=
  jsonObject [("session", jsonNumber versions.session.toNat),
    ("replica", jsonNumber versions.replica.toNat),
    ("export_metadata", jsonNumber versions.exportMetadata.toNat),
    ("writable_session_store", jsonNumber versions.writableSessionStore.toNat),
    ("canonical", jsonNumber versions.canonical.toNat),
    ("path", jsonNumber versions.path.toNat),
    ("changeset", jsonNumber versions.changeset.toNat)]

def generationJson (generation : OrderedSourceGeneration) : Text :=
  jsonObject [("ordinal", jsonNumber generation.ordinal.toNat),
    ("source_connection_id", jsonString generation.sourceConnectionId.value),
    ("source_generation_id", jsonString generation.sourceGenerationId.value)]

/-- Metadata without writable entries. -/
def writableJson (metadata : WritableExportMetadata) : Text :=
  jsonObject [("versions", versionsJson metadata.versions),
    ("session_id", jsonString metadata.sessionId.value),
    ("export_attempt_id", jsonString metadata.exportAttemptId.value),
    ("source_generations", jsonArray (metadata.sourceGenerations.map generationJson)),
    ("writable_entries", jsonArray [])]

def receiptJson (receipt : ExportCompletionReceipt) : Text :=
  jsonObject [("versions", versionsJson receipt.versions),
    ("session_id", jsonString receipt.sessionId.value),
    ("export_attempt_id", jsonString receipt.exportAttemptId.value),
    ("source_generations", jsonArray (receipt.sourceGenerations.map generationJson)),
    ("inventory_sha256", jsonString receipt.inventorySha256),
    ("writable_metadata_sha256", jsonString receipt.writableMetadataSha256),
    ("delivered_control_entry_count", jsonNumber receipt.deliveredControlEntryCount.toNat),
    ("delivered_file_count", jsonNumber receipt.deliveredFileCount.toNat),
    ("delivered_directory_count", jsonNumber receipt.deliveredDirectoryCount.toNat),
    ("delivered_archive_entry_count", jsonNumber receipt.deliveredArchiveEntryCount.toNat),
    ("delivered_content_bytes", jsonNumber receipt.deliveredContentBytes.toNat),
    ("delivered_body_sha256", jsonString receipt.deliveredBodySha256),
    ("completed_at", jsonString receipt.completedAt)]

/-- A control without writable entries, as it is serialized. -/
def controlJson (control : ExportTerminalControl) : List UInt8 :=
  asBytes (jsonObject [("writable_metadata", writableJson control.writableMetadata),
    ("completion_receipt", receiptJson control.completionReceipt)])

/-- A codec of one value. -/
def codecOf {C : Type} [DecidableEq C] (value : C) (bytes : List UInt8) : ControlCodec C where
  decode read := if read = bytes then some value else none
  encode written := if written = value then some bytes else none

theorem encode_codecOf {C : Type} [DecidableEq C] (value : C) (bytes : List UInt8) :
    (codecOf value bytes).encode value = some bytes := if_pos rfl

theorem decode_codecOf {C : Type} [DecidableEq C] (value : C) (bytes : List UInt8) :
    (codecOf value bytes).decode bytes = some value := if_pos rfl

/-- The codec, where the control of a sample goes through it. -/
def codec (sample : SampleExport) : ControlCodec ExportTerminalControl :=
  codecOf (control sample) (controlJson (control sample))

/-! ### Their archives -/

def paxExtensionsOf (fields : List (Text × Text)) : List (Option PaxExtension) :=
  fields.map fun (key, value) => some ⟨.utf8 key, .utf8 value⟩

def entryOf (controlBytes : List UInt8) (content : ExportContent) : TarEntry :=
  match content.record with
  | .directory key =>
      ⟨.directory, false, .utf8 key.logicalPath.value, some [], some readOnlyDirectoryMode, 0, []⟩
  | .file key sourceConnectionId fileKind effectiveActions contentSha256 byteLength =>
      ⟨.regular, false, .utf8 key.logicalPath.value,
        some (paxExtensionsOf (metadataOf key sourceConnectionId fileKind effectiveActions
          contentSha256).fields),
        some readOnlyFileMode, byteLength, [content.body]⟩
  | .control _ memberPath =>
      ⟨.regular, false, .utf8 memberPath, some [], some readOnlyFileMode,
        UInt64.ofNat controlBytes.length, [controlBytes]⟩

def stream (sample : SampleExport) : TarStream where
  entries := (contents sample).map fun content =>
    some (entryOf (controlJson (control sample)) content)
  endsInMarker := true
  trailingData := false

def limits : ReplicaMaterializationLimits := ⟨10, 100, 100⟩

/-! ### What holds of all of them -/

theorem exists_of_isOk {ε α : Type} {result : Except ε α} (h : result.isOk = true) :
    ∃ a, result = .ok a := by
  cases result with
  | error error => exact nomatch h
  | ok a => exact ⟨a, rfl⟩

variable {sample : SampleExport}

theorem content_cases {content : ExportContent} (h : content ∈ contents sample) :
    (∃ parent path index, (parent, path) ∈ sample.paths ∧ content = ⟨.file ⟨0, parent.map LogicalPath.mk,
      ⟨path⟩, ⟨u32Text (UInt32.ofNat index)⟩⟩ ⟨"c".toList⟩ .markdown {.read}
      (digestLabel bodyDigest) 2, body⟩) ∨ content = ⟨endControl, []⟩ := by
  rcases List.mem_append.mp h with h | h
  · obtain ⟨⟨⟨parent, path⟩, index⟩, hmem, rfl⟩ := List.mem_map.mp h
    exact Or.inl ⟨parent, path, index, List.fst_mem_of_mem_zipIdx hmem, rfl⟩
  · exact Or.inr (List.mem_singleton.mp h)

theorem label_body : sha256Label knownDigest body = digestLabel bodyDigest := by
  decide +kernel

theorem keepsContract
    (hpaths : ∀ path ∈ sample.paths.map Prod.snd, (LogicalPath.new sampleTables path).isOk = true)
    (hinventory : ((control sample).validateAgainstInventory knownDigest sampleTables
      (offer sample) ((contents sample).map ExportContent.record)).isOk = true)
    (hdelivered : ((DeliveredBodyDigest.deliveredPreimage (offer sample).fileCount
      ((contents sample).flatMap ExportContent.delivered)).toOption.map
        (sha256Label knownDigest)) = some (digestLabel sample.deliveredDigest)) :
    KeepsContract sampleTables knownDigest (offer sample) (control sample) (contents sample) where
  paths content hmem path hpath := by
    rcases content_cases hmem with ⟨parent, value, index, hvalue, rfl⟩ | rfl
    · cases hpath
      obtain ⟨logical, hlogical⟩ := exists_of_isOk (hpaths value (List.mem_map_of_mem hvalue))
      rw [hlogical, value_of_new hlogical]
    · exact nomatch hpath
  inventory := (exists_of_isOk hinventory).choose_spec
  bodies content hmem := by
    rcases content_cases hmem with ⟨parent, value, index, -, rfl⟩ | rfl
    · exact ⟨rfl, label_body⟩
    · trivial
  receipt := by
    obtain ⟨preimage, hpreimage, hlabel⟩ := Option.map_eq_some_iff.mp hdelivered
    refine ⟨preimage, ?_, hlabel.symm⟩
    cases hresult : DeliveredBodyDigest.deliveredPreimage (offer sample).fileCount
        ((contents sample).flatMap ExportContent.delivered) with
    | error error => rw [hresult] at hpreimage; exact nomatch hpreimage
    | ok found => rw [hresult] at hpreimage; cases hpreimage; rfl

/-- The fields of metadata are found in an entry that was made with them. -/
theorem replicaPaxFields_of (metadata : ExportFilePaxMetadata) {entry : TarEntry}
    (h : entry.paxExtensions = some (paxExtensionsOf metadata.fields)) :
    replicaPaxFields entry = .ok metadata.fields := by
  have hkeys : ∀ key ∈ exportFilePaxKeys, (RawText.utf8 key).startsWith paxNamespace = true := by
    decide
  have hall : ∀ fields : List (Text × Text), (∀ field ∈ fields, field.1 ∈ exportFilePaxKeys) →
      replicaPaxFieldsFrom (paxExtensionsOf fields) = .ok fields := by
    intro fields hfields
    induction fields with
    | nil => rfl
    | cons field fields ih =>
        obtain ⟨key, value⟩ := field
        have hkey := hkeys key (hfields (key, value) List.mem_cons_self)
        have hrest := ih fun field hmem => hfields field (List.mem_cons_of_mem _ hmem)
        refine okOr_bind_eq_ok.mpr ⟨_, rfl, ?_⟩
        rw [if_neg (by rw [hkey]; decide)]
        exact okOr_bind_eq_ok.mpr ⟨key, rfl, okOr_bind_eq_ok.mpr ⟨value, rfl,
          bind_eq_ok.mpr ⟨fields, hrest, rfl⟩⟩⟩
  refine okOr_bind_eq_ok.mpr ⟨_, h, hall _ fun field hmem => ?_⟩
  exact ExportFilePaxMetadata.key_mem_of_mem_fields hmem

theorem replicaPaxFields_nil {entry : TarEntry} (h : entry.paxExtensions = some []) :
    replicaPaxFields entry = .ok [] :=
  okOr_bind_eq_ok.mpr ⟨[], h, rfl⟩

theorem isArchiveOf
    (hsmall : (controlJson (control sample)).length ≤ maxExportTerminalControlBytes) :
    IsArchiveOf (codec sample) (control sample) (contents sample) (stream sample) where
  entries := by
    refine ⟨(contents sample).map (entryOf (controlJson (control sample))),
      (List.map_map ..).symm, ?_⟩
    refine List.forall₂_map_right_iff.mpr (List.forall₂_same.mpr fun content hmem => ?_)
    rcases content_cases hmem with ⟨parent, value, index, -, rfl⟩ | rfl
    · exact ⟨rfl, rfl, rfl, replicaPaxFields_of _ rfl, rfl, rfl, List.append_nil _⟩
    · have hflat : (entryOf (controlJson (control sample)) ⟨endControl, []⟩).reads.flatten =
          controlJson (control sample) := List.append_nil _
      refine ⟨rfl, rfl, rfl, replicaPaxFields_nil rfl, rfl, ?_, ?_⟩
      · rw [hflat]
        exact Nat.mod_eq_of_lt (hsmall.trans_lt (by decide))
      · rw [hflat]
        exact encode_codecOf _ _
  endsInMarker := rfl
  trailingData := rfl

theorem roundTrips : RoundTrips (codec sample) (control sample) :=
  ⟨controlJson (control sample), encode_codecOf _ _, decode_codecOf _ _⟩

theorem withinLimits (hentries : (contents sample).length ≤ 10)
    (hfiles : ∀ content ∈ contents sample, content.byteLength ≤ 100)
    (hdisk : ((contents sample).map ExportContent.byteLength).sum ≤ 100)
    (hsmall : (controlJson (control sample)).length ≤ maxExportTerminalControlBytes) :
    WithinLimits (codec sample) limits (control sample) (contents sample) where
  entries := hentries
  files := hfiles
  disk := hdisk
  control bytes hencode := by
    rw [← Option.some.inj ((encode_codecOf _ _).symm.trans hencode)]
    exact hsmall

/-- What each of the samples is evaluated for. -/
theorem checks_samples : ∀ sample ∈ [plainFile, controlFiles, foldingFiles],
    (∀ path ∈ sample.paths.map Prod.snd, (LogicalPath.new sampleTables path).isOk = true) ∧
      ((control sample).validateAgainstInventory knownDigest sampleTables
        (offer sample) ((contents sample).map ExportContent.record)).isOk = true ∧
      ((DeliveredBodyDigest.deliveredPreimage (offer sample).fileCount
        ((contents sample).flatMap ExportContent.delivered)).toOption.map
          (sha256Label knownDigest)) = some (digestLabel sample.deliveredDigest) ∧
      (controlJson (control sample)).length ≤ maxExportTerminalControlBytes ∧
      ∀ content ∈ contents sample, PaxFits content := by
  decide +kernel

theorem keepsContract_sample (h : sample ∈ [plainFile, controlFiles, foldingFiles]) :
    KeepsContract sampleTables knownDigest (offer sample) (control sample) (contents sample) := by
  obtain ⟨hpaths, hinventory, hdelivered, -⟩ := checks_samples sample h
  exact keepsContract hpaths hinventory hdelivered

theorem small_sample (h : sample ∈ [plainFile, controlFiles, foldingFiles]) :
    (controlJson (control sample)).length ≤ maxExportTerminalControlBytes := by
  obtain ⟨-, -, -, hsmall, -⟩ := checks_samples sample h
  exact hsmall

theorem paxFits_sample (h : sample ∈ [plainFile, controlFiles, foldingFiles]) :
    ∀ content ∈ contents sample, PaxFits content := by
  obtain ⟨-, -, -, -, hfits⟩ := checks_samples sample h
  exact hfits

theorem mem_plain : plainFile ∈ [plainFile, controlFiles, foldingFiles] := List.mem_cons_self

theorem mem_control : controlFiles ∈ [plainFile, controlFiles, foldingFiles] :=
  List.mem_cons_of_mem _ List.mem_cons_self

theorem mem_folding : foldingFiles ∈ [plainFile, controlFiles, foldingFiles] :=
  List.mem_cons_of_mem _ (List.mem_cons_of_mem _ List.mem_cons_self)

/-- What is placed of each sample, and how the two folding paths compare. -/
theorem placed_samples :
    (contents controlFiles).flatMap ExportContent.placed =
      [(".loc".toList, .file), (".loc".toList, .directory), (".loc/x".toList, .file)] ∧
    (contents foldingFiles).flatMap ExportContent.placed =
      [("ss".toList, .file), ("ß".toList, .file)] ∧
    (contents plainFile).flatMap ExportContent.placed = [("a.md".toList, .file)] ∧
    toAsciiLowercase "ss".toList ≠ toAsciiLowercase "ß".toList ∧
    portablePathCollisionKey sampleTables "ss".toList =
      portablePathCollisionKey sampleTables "ß".toList := by
  decide +kernel

/-- Two paths that are not the same in lower case. -/
theorem collisionless_folding : Collisionless sampleTables toAsciiLowercase
    ((contents foldingFiles).flatMap ExportContent.placed) := by
  obtain ⟨-, hplaced, -, hlower, -⟩ := placed_samples
  rw [hplaced]
  constructor
  · intro path kind kind' h h'
    rcases List.mem_pair.mp h with h | h <;> rcases List.mem_pair.mp h' with h' | h' <;>
      · rw [Prod.mk.injEq] at h h'
        exact h.2.trans h'.2.symm
  · intro key path path' h h'
    rcases List.mem_pair.mp h with h | h <;> rcases List.mem_pair.mp h' with h' | h' <;>
      rw [Prod.mk.injEq] at h h'
    · exact h.2.trans h'.2.symm
    · exact absurd (h.1.symm.trans h'.1) hlower
    · exact absurd (h'.1.symm.trans h.1) hlower
    · exact h.2.trans h'.2.symm

end Sample

open Sample in
/-- An export whose control keeps everything it promises, and whose archive is refused; and
an archive that is extracted, with two paths that are one where case is folded. -/
theorem contract_disagrees :
    (KeepsContract sampleTables knownDigest (offer controlFiles) (control controlFiles)
        (contents controlFiles) ∧
      IsArchiveOf (codec controlFiles) (control controlFiles) (contents controlFiles)
        (stream controlFiles) ∧
      WithinLimits (codec controlFiles) limits (control controlFiles) (contents controlFiles) ∧
      RoundTrips (codec controlFiles) (control controlFiles) ∧
      ¬ ∃ summary, extractScopeAuthorizedTar sampleTables toAsciiLowercase knownDigest
        (codec controlFiles) limits (offer controlFiles) (stream controlFiles) = .ok summary) ∧
    (∃ scan summary, scanReplicaEntries sampleTables toAsciiLowercase knownDigest
        (codec foldingFiles) limits (offer foldingFiles) (stream foldingFiles) = .ok scan ∧
      extractScopeAuthorizedTar sampleTables toAsciiLowercase knownDigest (codec foldingFiles)
        limits (offer foldingFiles) (stream foldingFiles) = .ok summary ∧
      ¬ MaterializesContract sampleTables knownDigest (offer foldingFiles) scan) := by
  obtain ⟨hcontrol, hfolding, -, hlower, hkey⟩ := placed_samples
  constructor
  · have hcontract := keepsContract_sample mem_control
    have harchive : IsArchiveOf (codec controlFiles) (control controlFiles)
        (contents controlFiles) (stream controlFiles) := isArchiveOf (small_sample mem_control)
    refine ⟨hcontract, harchive, withinLimits (by decide) (by decide) (by decide)
      (small_sample mem_control), roundTrips, fun h => ?_⟩
    obtain ⟨summary, hextract⟩ := h
    obtain ⟨scan, hscan, -⟩ := bind_eq_ok.mp hextract
    obtain ⟨-, -, hagree, -⟩ := fits_of_scan hcontract harchive hscan
    rw [hcontrol] at hagree
    exact FilesystemKind.noConfusion
      (hagree List.mem_cons_self (List.mem_cons_of_mem _ List.mem_cons_self))
  · have hcontract := keepsContract_sample mem_folding
    have harchive : IsArchiveOf (codec foldingFiles) (control foldingFiles)
        (contents foldingFiles) (stream foldingFiles) := isArchiveOf (small_sample mem_folding)
    obtain ⟨summary, hextract⟩ := exists_extract hcontract harchive
      (withinLimits (by decide) (by decide) (by decide) (small_sample mem_folding)) roundTrips
      (paxFits_sample mem_folding) collisionless_folding
    obtain ⟨scan, hscan, hiff⟩ := materializes_iff hextract
    refine ⟨scan, summary, hscan, hextract, fun h => ?_⟩
    have hfolds := hiff.mp h
    rw [(fits_of_scan hcontract harchive hscan).2.1, hfolding] at hfolds
    exact absurd (hfolds _ List.mem_cons_self _ (List.mem_cons_of_mem _ List.mem_cons_self) hkey)
      hlower

open Sample in
/-- One file in an archive: it is extracted, as what its contract is about. -/
theorem extracts_iff_plain :
    ((∃ summary, extractScopeAuthorizedTar sampleTables toAsciiLowercase knownDigest
        (codec plainFile) limits (offer plainFile) (stream plainFile) = .ok summary) ↔
      (∀ content ∈ contents plainFile, PaxFits content) ∧
        Collisionless sampleTables toAsciiLowercase
          ((contents plainFile).flatMap ExportContent.placed)) ∧
    ∃ scan, scanReplicaEntries sampleTables toAsciiLowercase knownDigest (codec plainFile)
        limits (offer plainFile) (stream plainFile) = .ok scan ∧
      (MaterializesContract sampleTables knownDigest (offer plainFile) scan ↔
        FoldsApart sampleTables toAsciiLowercase (stagedPlacements scan.staged)) := by
  have hiff := extracts_iff sampleTables toAsciiLowercase knownDigest (codec plainFile) limits
    (offer plainFile)
  have hfirst := hiff.1 (control plainFile) (contents plainFile) (stream plainFile)
    (keepsContract_sample mem_plain) (isArchiveOf (small_sample mem_plain))
    (withinLimits (by decide) (by decide) (by decide) (small_sample mem_plain)) roundTrips
  refine ⟨hfirst, ?_⟩
  have hplaced : Collisionless sampleTables toAsciiLowercase
      ((contents plainFile).flatMap ExportContent.placed) := by
    rw [placed_samples.2.2.1]
    constructor
    · intro path kind kind' h h'
      cases List.mem_singleton.mp h
      cases List.mem_singleton.mp h'
      rfl
    · intro key path path' h h'
      cases List.mem_singleton.mp h
      cases List.mem_singleton.mp h'
      rfl
  obtain ⟨summary, hextract⟩ := hfirst.mpr ⟨paxFits_sample mem_plain, hplaced⟩
  exact hiff.2 (stream plainFile) summary hextract

end Locality.Daemon
