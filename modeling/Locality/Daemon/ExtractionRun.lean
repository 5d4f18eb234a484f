/-
  Daemon/ExtractionRun.lean --- whole archives: what an extraction that succeeded staged,
  and which archives it succeeds on.

  Contents are records, each with the body that a file has.  A scan that has read some
  contents has their records, has staged them, and has registered what they place.
-/
import Locality.Daemon.ExtractionSteps

set_option autoImplicit false

namespace Locality.Daemon

open Locality.Core Locality.Foundation Locality.Protocol Locality.Protocol.Scope

/-! ## Contents -/

/-- A record, and the body of a file. -/
structure ExportContent where
  record : CanonicalExportRecord
  body : List UInt8
  deriving DecidableEq

/-- What a record places. -/
def recordPlacements : CanonicalExportRecord → List (Text × FilesystemKind)
  | .directory key => placements key.logicalPath.value true
  | .file key _ _ _ _ _ => placements key.logicalPath.value false
  | .control _ _ => []

namespace ExportContent

variable (self : ExportContent)

def path? : Option Text := self.record.logicalPath?.map LogicalPath.value

def placed : List (Text × FilesystemKind) := recordPlacements self.record

def staged : List StagedNode :=
  match self.record with
  | .directory key => [.directory key.logicalPath.value]
  | .file key _ _ _ _ _ => [.file key.logicalPath.value self.body]
  | .control _ _ => []

def delivered : List (ProjectionId × List UInt8) :=
  match self.record with
  | .file key _ _ _ _ _ => [(key.projectionId, self.body)]
  | _ => []

/-- The bytes that a record names. -/
def byteLength : Nat :=
  match self.record with
  | .file _ _ _ _ _ byteLength => byteLength.toNat
  | _ => 0

end ExportContent

/-- The metadata of a file's record. -/
def metadataOf (key : CanonicalFileOrderKey) (sourceConnectionId : SourceConnectionId)
    (fileKind : ProjectionFileKind) (effectiveActions : ActionSet) (contentSha256 : Text) :
    ExportFilePaxMetadata :=
  ⟨sourceConnectionId, key.projectionId, key.winningScopeOrdinal, fileKind, effectiveActions,
    contentSha256⟩

section Unicode

variable (unicode : UnicodeTables) (lowercase : Text → Text) (sha256 : List UInt8 → List UInt8)
  (codec : ControlCodec ExportTerminalControl) (limits : ReplicaMaterializationLimits)

/-- An entry is that of a content. -/
def EntryOf (tells : List (Text × Text) → ExportFilePaxMetadata → Prop) (content : ExportContent)
    (entry : TarEntry) : Prop :=
  match content.record with
  | .control key memberPath =>
      key = ⟨0⟩ ∧ memberPath = reservedExportMetadataPath ∧
        ∃ control, ControlEntry codec entry control
  | .directory key =>
      key.depth = pathDepth key.logicalPath ∧
        DirectoryEntry unicode entry key.logicalPath.value
  | .file key sourceConnectionId fileKind effectiveActions contentSha256 byteLength =>
      FileEntry unicode sha256 tells entry key.logicalPath.value key.parentPath
        (metadataOf key sourceConnectionId fileKind effectiveActions contentSha256) ∧
        entry.size = byteLength ∧ entry.reads.flatten = content.body

/-- The metadata that the reader makes of records. -/
def ReadFrom (fields : List (Text × Text)) (metadata : ExportFilePaxMetadata) : Prop :=
  ExportFilePaxMetadata.fromRecords fields = some metadata

/-- A scan has read contents. -/
structure HasRead (contents : List ExportContent) (scan : ReplicaScan) : Prop where
  records : scan.records = contents.map ExportContent.record
  staged : scan.staged = contents.flatMap ExportContent.staged
  archivePaths : scan.state.archivePaths = (contents.filterMap ExportContent.path?).reverse
  registered : Registered unicode lowercase scan.state (contents.flatMap ExportContent.placed)

variable {unicode lowercase sha256 codec limits}
  {contents : List ExportContent} {scan scan' : ReplicaScan} {entry : TarEntry}

theorem hasRead_start (offer : SealedExportOffer) :
    HasRead unicode lowercase [] (ReplicaScan.start offer) :=
  ⟨rfl, rfl, rfl, registered_empty⟩

theorem HasRead.count (h : HasRead unicode lowercase contents scan) :
    HasRead unicode lowercase contents scan.count :=
  ⟨h.records, h.staged, h.archivePaths,
    ⟨h.registered.kinds, h.registered.composed, h.registered.lowered⟩⟩

theorem HasRead.withControl (h : HasRead unicode lowercase contents scan)
    (control : ExportTerminalControl) (body : List UInt8) :
    HasRead unicode lowercase (contents ++ [⟨endControl, body⟩]) (scan.withControl control) := by
  refine ⟨?_, ?_, ?_, ?_⟩
  · rw [ReplicaScan.withControl, h.records, List.map_append]
    rfl
  · rw [ReplicaScan.withControl, h.staged, List.flatMap_append]
    exact (List.append_nil _).symm
  · rw [ReplicaScan.withControl, h.archivePaths, List.filterMap_append]
    exact congrArg List.reverse (List.append_nil _).symm
  · rw [List.flatMap_append]
    have hnone : [(⟨endControl, body⟩ : ExportContent)].flatMap ExportContent.placed = [] := rfl
    rw [hnone, List.append_nil]
    exact h.registered

theorem HasRead.withDirectory {path : Text} {state : ExtractionState}
    (h : HasRead unicode lowercase contents scan)
    (hstate : scan.state.registerPath unicode lowercase path true = .ok state)
    (body : List UInt8) :
    HasRead unicode lowercase (contents ++ [⟨.directory ⟨pathDepth ⟨path⟩, ⟨path⟩⟩, body⟩])
      ({ scan with state := state }.withDirectory path) := by
  obtain ⟨-, hregistered, -, hpaths⟩ := registerPath_ok h.registered hstate
  refine ⟨?_, ?_, ?_, ?_⟩
  · rw [List.map_append, ← h.records]
    rfl
  · rw [List.flatMap_append, ← h.staged]
    rfl
  · rw [List.filterMap_append, List.reverse_append, ← h.archivePaths]
    exact hpaths
  · rw [List.flatMap_append, List.flatMap_singleton]
    exact hregistered

theorem HasRead.withFile {path : Text} {size diskSize : UInt64} {body : List UInt8}
    {digest : DeliveredBodyDigest} {state : ExtractionState}
    (h : HasRead unicode lowercase contents scan)
    (hstate : scan.state.registerPath unicode lowercase path false = .ok state)
    (metadata : ExportFilePaxMetadata) (parentPath : Option LogicalPath) :
    HasRead unicode lowercase
      (contents ++ [⟨ReplicaScan.fileRecord metadata parentPath path size, body⟩])
      ({ scan with state := state }.withFile
        (ReplicaScan.fileRecord metadata parentPath path size) path digest body diskSize) := by
  obtain ⟨-, hregistered, -, hpaths⟩ := registerPath_ok h.registered hstate
  refine ⟨?_, ?_, ?_, ?_⟩
  · rw [List.map_append, ← h.records]
    rfl
  · rw [List.flatMap_append, ← h.staged]
    rfl
  · rw [List.filterMap_append, List.reverse_append, ← h.archivePaths]
    exact hpaths
  · rw [List.flatMap_append, List.flatMap_singleton]
    exact ⟨hregistered.kinds, hregistered.composed, hregistered.lowered⟩

/-! ## What was read -/

/-- An entry that was read is that of a content. -/
theorem HasRead.of_reads (h : HasRead unicode lowercase contents scan)
    (hreads : Reads unicode lowercase sha256 codec limits scan entry scan') :
    ∃ content, EntryOf unicode sha256 codec ReadFrom content entry ∧
      HasRead unicode lowercase (contents ++ [content]) scan' := by
  cases hreads with
  | control control hentry =>
      exact ⟨⟨endControl, []⟩, ⟨rfl, rfl, control, hentry⟩, h.withControl control []⟩
  | directory path hentry state hstate =>
      refine ⟨⟨.directory ⟨pathDepth ⟨path⟩, ⟨path⟩⟩, []⟩, ?_, h.withDirectory hstate []⟩
      exact ⟨rfl, hentry⟩
  | file path parentPath metadata hentry state hstate =>
      refine ⟨⟨ReplicaScan.fileRecord metadata parentPath path entry.size, entry.reads.flatten⟩,
        ?_, h.withFile hstate metadata parentPath⟩
      exact ⟨hentry, rfl, rfl⟩

theorem HasRead.of_run {entries : List (Option TarEntry)}
    (h : HasRead unicode lowercase contents scan)
    (hrun : entries.foldlM (fun (scan : ReplicaScan) entry =>
      scan.step unicode lowercase sha256 codec limits entry) scan = .ok scan') :
    ∃ more read, entries = read.map some ∧
      List.Forall₂ (EntryOf unicode sha256 codec ReadFrom) more read ∧
      HasRead unicode lowercase (contents ++ more) scan' := by
  induction entries generalizing contents scan with
  | nil =>
      cases hrun
      exact ⟨[], [], rfl, .nil, (List.append_nil contents).symm ▸ h⟩
  | cons entry entries ih =>
      obtain ⟨next, hnext, hrest⟩ := bind_eq_ok.mp hrun
      cases entry with
      | none => exact nomatch hnext
      | some entry =>
          obtain ⟨-, -, hreads⟩ := step_eq_ok.mp hnext
          obtain ⟨content, hcontent, hread⟩ := h.count.of_reads hreads
          obtain ⟨more, read, rfl, hmore, hread⟩ := ih hread hrest
          rw [List.append_assoc] at hread
          exact ⟨content :: more, entry :: read, rfl, .cons hcontent hmore, hread⟩

/-! ## What can be read -/

/-- Contents that an extraction has room for, and that get in each other's way nowhere. -/
structure Admissible (unicode : UnicodeTables) (lowercase : Text → Text)
    (limits : ReplicaMaterializationLimits) (offer : SealedExportOffer)
    (contents : List ExportContent) : Prop where
  entries : contents.length ≤ limits.maxEntries.toNat
  files : ∀ content ∈ contents, content.byteLength ≤ limits.maxFileBytes.toNat
  disk : (contents.map ExportContent.byteLength).sum ≤ limits.maxDiskBytes.toNat
  paths : (contents.filterMap ExportContent.path?).Nodup
  placed : Collisionless unicode lowercase (contents.flatMap ExportContent.placed)
  delivered : ∃ digest, (DeliveredBodyDigest.new offer.fileCount).updateFiles
    (contents.flatMap ExportContent.delivered) = .ok digest

/-- A scan that has read contents, and is to read more. -/
structure Ready (unicode : UnicodeTables) (lowercase : Text → Text) (offer : SealedExportOffer)
    (contents : List ExportContent) (scan : ReplicaScan) : Prop where
  hasRead : HasRead unicode lowercase contents scan
  terminalControl : scan.terminalControl = none
  entries : scan.state.summary.entries.toNat = contents.length
  materialized : scan.state.summary.materializedBytes.toNat =
    (contents.map ExportContent.byteLength).sum
  digest : (DeliveredBodyDigest.new offer.fileCount).updateFiles
    (contents.flatMap ExportContent.delivered) = .ok scan.bodyDigest

theorem updateFiles_append (digest : DeliveredBodyDigest)
    (files files' : List (ProjectionId × List UInt8)) :
    digest.updateFiles (files ++ files') =
      digest.updateFiles files >>= (·.updateFiles files') := by
  induction files generalizing digest with
  | nil => rfl
  | cons file files ih =>
      obtain ⟨projectionId, body⟩ := file
      rw [List.cons_append, DeliveredBodyDigest.updateFiles, DeliveredBodyDigest.updateFiles,
        bind_assoc]
      exact congrArg (_ >>= ·) (funext ih)

variable {offer : SealedExportOffer} {content : ExportContent}

theorem Admissible.of_append_left {more : List ExportContent}
    (h : Admissible unicode lowercase limits offer (contents ++ more)) :
    Admissible unicode lowercase limits offer contents := by
  obtain ⟨hentries, hfiles, hdisk, hpaths, hplaced, digest, hdigest⟩ := h
  rw [List.length_append] at hentries
  rw [List.map_append, List.sum_append] at hdisk
  rw [List.filterMap_append] at hpaths
  rw [List.flatMap_append] at hplaced hdigest
  rw [updateFiles_append] at hdigest
  obtain ⟨digest', hdigest', -⟩ := bind_eq_ok.mp hdigest
  exact ⟨by omega, fun content hmem => hfiles content (List.mem_append_left _ hmem), by omega,
    hpaths.of_append_left, hplaced.of_append_left, digest', hdigest'⟩

theorem ready_start : Ready unicode lowercase offer [] (ReplicaScan.start offer) :=
  ⟨hasRead_start offer, rfl, rfl, rfl, rfl⟩

/-- One more entry is counted as long as there is room for it. -/
theorem Ready.count_entries (h : Ready unicode lowercase offer contents scan)
    (hroom : contents.length + 1 ≤ limits.maxEntries.toNat) :
    scan.count.state.summary.entries.toNat = contents.length + 1 ∧
      scan.count.state.summary.entries ≤ limits.maxEntries := by
  have hlt := limits.maxEntries.toNat_lt
  have hone : (1 : UInt64).toNat = 1 := rfl
  have hcount : scan.count.state.summary.entries.toNat = contents.length + 1 := by
    rw [ReplicaScan.count, saturatingAdd_toNat, h.entries, hone]
    omega
  exact ⟨hcount, UInt64.le_iff_toNat_le.mpr (hcount ▸ hroom)⟩

/-- A path that contents do not have yet is none of those that were registered. -/
theorem HasRead.path_new {path : Text} (h : HasRead unicode lowercase contents scan)
    (hpath : content.path? = some path)
    (hnodup : ((contents ++ [content]).filterMap ExportContent.path?).Nodup) :
    path ∉ scan.state.archivePaths := by
  rw [List.filterMap_append, List.filterMap_cons, hpath] at hnodup
  rw [h.archivePaths, List.mem_reverse]
  exact fun hmem => List.disjoint_of_nodup_append hnodup hmem List.mem_cons_self

theorem Ready.step (h : Ready unicode lowercase offer contents scan)
    (hcontrol : content.record.isControl = false)
    (hentry : EntryOf unicode sha256 codec ReadFrom content entry)
    (hadmissible : Admissible unicode lowercase limits offer (contents ++ [content])) :
    ∃ scan', scan.step unicode lowercase sha256 codec limits (some entry) = .ok scan' ∧
      Ready unicode lowercase offer (contents ++ [content]) scan' := by
  have hroom := hadmissible.entries
  rw [List.length_append, List.length_singleton] at hroom
  obtain ⟨hcount, hle⟩ := h.count_entries hroom
  have hplaced := hadmissible.placed
  rw [List.flatMap_append, List.flatMap_singleton] at hplaced
  have hlength : (contents ++ [content]).length = contents.length + 1 := List.length_append
  have hdelivered : ((contents ++ [content]).flatMap ExportContent.delivered) =
      contents.flatMap ExportContent.delivered ++ content.delivered := by
    rw [List.flatMap_append, List.flatMap_singleton]
  have hbytes : ((contents ++ [content]).map ExportContent.byteLength).sum =
      (contents.map ExportContent.byteLength).sum + content.byteLength := by
    rw [List.map_append, List.sum_append, List.map_singleton, List.sum_singleton]
  obtain ⟨record, body⟩ := content
  cases record with
  | control key memberPath => exact nomatch hcontrol
  | directory key =>
      obtain ⟨depth, logicalPath⟩ := key
      obtain ⟨hdepth, hdirectory⟩ := hentry
      dsimp only at hdepth
      subst hdepth
      obtain ⟨state, hstate⟩ := exists_registerPath h.hasRead.count.registered
        (h.hasRead.path_new rfl hadmissible.paths) hplaced
      have hsummary := (registerPath_ok h.hasRead.count.registered hstate).2.2.1
      refine ⟨_, step_eq_ok.mpr ⟨hle, h.terminalControl, .directory _ hdirectory state hstate⟩,
        h.hasRead.count.withDirectory hstate body, h.terminalControl, ?_, ?_, ?_⟩
      · rw [hlength, ← hcount]
        exact congrArg (fun summary => summary.entries.toNat) hsummary
      · rw [hbytes, ← h.materialized]
        exact congrArg (fun summary => summary.materializedBytes.toNat) hsummary
      · rw [hdelivered]
        exact (List.append_nil _).symm ▸ h.digest
  | file key sourceConnectionId fileKind effectiveActions contentSha256 byteLength =>
      obtain ⟨hfile, rfl, rfl⟩ := hentry
      obtain ⟨state, hstate⟩ := exists_registerPath h.hasRead.count.registered
        (h.hasRead.path_new rfl hadmissible.paths) hplaced
      have hsummary := (registerPath_ok h.hasRead.count.registered hstate).2.2.1
      have hmaterialized : state.summary.materializedBytes.toNat =
          (contents.map ExportContent.byteLength).sum :=
        (congrArg (fun summary => summary.materializedBytes.toNat) hsummary).trans h.materialized
      have hdisk := hadmissible.disk
      rw [hbytes] at hdisk
      have hmax := limits.maxDiskBytes.toNat_lt
      have hsum : (saturatingAdd state.summary.materializedBytes entry.size).toNat =
          (contents.map ExportContent.byteLength).sum + entry.size.toNat := by
        rw [saturatingAdd_toNat, hmaterialized]
        exact Nat.min_eq_left (by
          have hsame : ExportContent.byteLength ⟨.file key sourceConnectionId fileKind
            effectiveActions contentSha256 entry.size, entry.reads.flatten⟩ = entry.size.toNat :=
            rfl
          omega)
      obtain ⟨digest, hdigest⟩ := hadmissible.delivered
      rw [hdelivered, updateFiles_append, h.digest] at hdigest
      have hfiles : scan.bodyDigest.updateFiles [(key.projectionId, entry.reads.flatten)] =
          .ok digest := hdigest
      obtain ⟨digest₁, hone, -⟩ := bind_eq_ok.mp hfiles
      obtain ⟨htakes, rfl⟩ := DeliveredBodyDigest.updateFile_eq_ok.mp hone
      refine ⟨_, step_eq_ok.mpr ⟨hle, h.terminalControl, .file _ _ _ hfile state hstate
        (UInt64.le_iff_toNat_le.mpr
          (hadmissible.files _ (List.mem_append_right _ List.mem_cons_self)))
        (UInt64.le_iff_toNat_le.mpr (hsum ▸ hdisk)) htakes⟩,
        h.hasRead.count.withFile hstate (metadataOf key sourceConnectionId fileKind
          effectiveActions contentSha256) key.parentPath, h.terminalControl, ?_, ?_, ?_⟩
      · rw [hlength, ← hcount]
        exact congrArg (fun summary => summary.entries.toNat) hsummary
      · rw [hbytes]
        exact hsum
      · rw [hdelivered, updateFiles_append]
        exact bind_eq_ok.mpr ⟨_, h.digest, bind_eq_ok.mpr ⟨_, hone, rfl⟩⟩

/-- Contents without a control record are read one after the other. -/
theorem Ready.run {more : List ExportContent} {entries : List TarEntry}
    (h : Ready unicode lowercase offer contents scan)
    (hcontrol : ∀ content ∈ more, content.record.isControl = false)
    (hentries : List.Forall₂ (EntryOf unicode sha256 codec ReadFrom) more entries)
    (hadmissible : Admissible unicode lowercase limits offer (contents ++ more)) :
    ∃ scan', (entries.map some).foldlM (fun (scan : ReplicaScan) entry =>
        scan.step unicode lowercase sha256 codec limits entry) scan = .ok scan' ∧
      Ready unicode lowercase offer (contents ++ more) scan' := by
  induction hentries generalizing contents scan with
  | nil => exact ⟨scan, rfl, (List.append_nil contents).symm ▸ h⟩
  | @cons content entry more entries hentry hentries ih =>
      rw [List.append_cons] at hadmissible ⊢
      obtain ⟨next, hnext, hready⟩ := h.step (hcontrol content List.mem_cons_self) hentry
        hadmissible.of_append_left
      obtain ⟨scan', hscan', hready'⟩ := ih hready
        (fun content hmem => hcontrol content (List.mem_cons_of_mem _ hmem)) hadmissible
      exact ⟨scan', bind_eq_ok.mpr ⟨next, hnext, hscan'⟩, hready'⟩

/-- The control record is read behind everything else. -/
theorem Ready.finish {control : ExportTerminalControl}
    (h : Ready unicode lowercase offer contents scan)
    (hroom : contents.length + 1 ≤ limits.maxEntries.toNat)
    (hentry : ControlEntry codec entry control) :
    scan.step unicode lowercase sha256 codec limits (some entry) =
      .ok (scan.count.withControl control) :=
  step_eq_ok.mpr ⟨(h.count_entries hroom).2, h.terminalControl, .control control hentry⟩

end Unicode

end Locality.Daemon
