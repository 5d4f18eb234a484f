/-
  Daemon/ReplicaExtraction.lean --- `extract_scope_authorized_tar` of
  `localityd/src/replica_materializer.rs`: the archive of a scope-authorized export,
  staged entry by entry and held against its offer at the end.

  The staging directory itself is taken to work: a directory is there once it was
  created, and a file once all of its bytes were written.  Lower-casing is Unicode's, and
  a parameter beside the tables.
-/
import Locality.Daemon.TarStream
import Locality.Foundation.Registry
import Locality.Protocol.ExportSeals
import Locality.Protocol.PaxMetadata

set_option autoImplicit false

namespace Locality.Daemon

open Locality.Core Locality.Foundation Locality.Protocol Locality.Protocol.Scope

structure ReplicaMaterializationLimits where
  maxEntries : UInt64
  maxFileBytes : UInt64
  maxDiskBytes : UInt64
  deriving DecidableEq, Repr

structure ReplicaMaterializationSummary where
  entries : UInt64
  files : UInt64
  directories : UInt64
  materializedBytes : UInt64
  deriving DecidableEq, Repr

/-- What the source says; where it prints an error of the contract or of a path, the error
stands for its text. -/
inductive ReplicaMaterializationError where
  | malformedTar
  | missingTarEndMarker
  | trailingTarData
  | entryLimit (limit : UInt64)
  | fileLimit (path : Text) (size limit : UInt64)
  | diskLimit (size limit : UInt64)
  | scopeExport (reason : Text)
  | scopeContract (error : ScopeContractError)
  | scopePath (reason : Text) (error : LogicalPathError)
  | nonUtf8Path
  | invalidPath (path : Text) (error : LogicalPathError)
  | invalidFileMode (path : Text) (mode : UInt32)
  | invalidDirectoryMode (path : Text) (mode : UInt32)
  | nonEmptyDirectory (path : Text)
  | duplicatePath (path : Text)
  | unicodeCollision (first second : Text)
  | caseCollision (first second : Text)
  | pathTypeCollision (path : Text)
  | write (path : Text)
  deriving DecidableEq, Repr

abbrev ReplicaResult : Type → Type := Except ReplicaMaterializationError

def scopeExport (reason : String) : ReplicaMaterializationError := .scopeExport reason.toList

inductive FilesystemKind where
  | file
  | directory
  deriving DecidableEq, Repr

/-! ## Paths -/

/-- `locality_pax_fields`. -/
def replicaPaxFieldsFrom : List (Option PaxExtension) → ReplicaResult (List (Text × Text))
  | [] => return []
  | extension :: extensions => do
      let extension ← okOr extension (scopeExport "PAX metadata is malformed")
      if extension.key.startsWith paxNamespace = false then replicaPaxFieldsFrom extensions
      else
        let key ← okOr extension.key.toText (scopeExport "a locality PAX key is not UTF-8")
        let value ← okOr extension.value.toText (scopeExport "a locality PAX value is not UTF-8")
        let fields ← replicaPaxFieldsFrom extensions
        return (key, value) :: fields

def replicaPaxFields (entry : TarEntry) : ReplicaResult (List (Text × Text)) := do
  let extensions ← okOr entry.paxExtensions (scopeExport "PAX metadata is malformed")
  replicaPaxFieldsFrom extensions

/-- The paths that were registered: each under itself, its composed form and that in lower
case. -/
structure ExtractionState where
  summary : ReplicaMaterializationSummary
  archivePaths : List Text
  filesystemPaths : Registry Text FilesystemKind
  filesystemDirectories : List Text
  unicodePaths : Registry Text Text
  casePaths : Registry Text Text

def ExtractionState.empty : ExtractionState := ⟨⟨0, 0, 0, 0⟩, [], [], [], [], []⟩

/-- The path that a component adds to a prefix. -/
def extendPrefix (front component : Text) : Text :=
  (if front = [] then [] else front ++ ['/']) ++ component

section Unicode

variable (unicode : UnicodeTables) (lowercase : Text → Text)

namespace ExtractionState

def registerCollisionKey (self : ExtractionState) (path : Text) :
    ReplicaResult ExtractionState := do
  let unicodeKey := unicode.nfc path
  let unicodePaths ← (self.unicodePaths.claim unicodeKey path).mapError (.unicodeCollision · path)
  let casePaths ← (self.casePaths.claim (lowercase unicodeKey) path).mapError
    (.caseCollision · path)
  return { self with unicodePaths := unicodePaths, casePaths := casePaths }

/-- What a path is; a directory that is new is counted. -/
def registerKind (self : ExtractionState) (path : Text) (kind : FilesystemKind) :
    ReplicaResult ExtractionState := do
  let filesystemPaths ←
    (self.filesystemPaths.claim path kind).mapError fun _ => .pathTypeCollision path
  let isNew := (self.filesystemPaths.lookup path).isNone && decide (kind = .directory)
  return { self with
    filesystemPaths := filesystemPaths
    filesystemDirectories :=
      if isNew then path :: self.filesystemDirectories else self.filesystemDirectories }

/-- The prefixes that the rest of the components give. -/
def registerPrefixes (isDirectory : Bool) : ExtractionState → Text → List Text →
    ReplicaResult ExtractionState
  | self, _, [] => return self
  | self, front, component :: components => do
      let path := extendPrefix front component
      let kind := if components = [] ∧ isDirectory = false then .file else .directory
      let state ← self.registerCollisionKey unicode lowercase path
      let state ← state.registerKind path kind
      registerPrefixes isDirectory state path components

def registerPath (self : ExtractionState) (path : Text) (isDirectory : Bool) :
    ReplicaResult ExtractionState := do
  rejectIf (path ∈ self.archivePaths) (.duplicatePath path)
  let state := { self with archivePaths := path :: self.archivePaths }
  state.registerPrefixes unicode lowercase isDirectory [] (splitSlash path)

end ExtractionState

/-! ## Entries -/

/-- What the staging directory holds. -/
inductive StagedNode where
  | directory (path : Text)
  | file (path : Text) (body : List UInt8)
  deriving DecidableEq, Repr

structure ReplicaScan where
  state : ExtractionState
  records : List CanonicalExportRecord
  terminalControl : Option ExportTerminalControl
  bodyDigest : DeliveredBodyDigest
  staged : List StagedNode

def ReplicaScan.start (offer : SealedExportOffer) : ReplicaScan where
  state := .empty
  records := []
  terminalControl := none
  bodyDigest := .new offer.fileCount
  staged := []

variable (sha256 : List UInt8 → List UInt8) (codec : ControlCodec ExportTerminalControl)
  (limits : ReplicaMaterializationLimits)

/-- `StagingDirectory::write_file` of a body that is hashed as it is read. -/
def writeHashedFile (digest : DeliveredBodyDigest) (path : Text) (reads : List (List UInt8))
    (size : UInt64) : ReplicaResult DeliveredBodyDigest := do
  let digest ← (digest.updateChunks reads).mapError fun _ => .write path
  rejectIf (reads.flatten.length ≠ size.toNat) .malformedTar
  return digest

/-- A body from its announcement to its end. -/
def deliverFile (digest : DeliveredBodyDigest) (projectionId : ProjectionId) (path : Text)
    (reads : List (List UInt8)) (size : UInt64) : ReplicaResult DeliveredBodyDigest := do
  let digest ← (digest.beginFile projectionId size).mapError .scopeContract
  let digest ← writeHashedFile digest path reads size
  digest.endFile.mapError .scopeContract

namespace ReplicaScan

/-- The completion receipt. -/
def readControl (self : ReplicaScan) (entry : TarEntry) (pax : List (Text × Text)) :
    ReplicaResult ReplicaScan := do
  rejectIf (entry.entryType ≠ .regular)
    (scopeExport "the completion receipt is not a regular file")
  rejectIf (pax ≠ []) (scopeExport "the completion receipt has locality PAX metadata")
  let mode ← okOr entry.mode .malformedTar
  rejectIf (mode ≠ readOnlyFileMode) (scopeExport "the completion receipt mode is not 0444")
  rejectIf (maxExportTerminalControlBytes < entry.size.toNat)
    (scopeExport "the completion receipt is too large")
  let parsed ← okOr (codec.decode entry.reads.flatten)
    (scopeExport "the completion receipt is malformed")
  rejectIf (codec.encode parsed ≠ some entry.reads.flatten)
    (scopeExport "the completion receipt is not canonical JSON")
  return { self with
    records := self.records ++ [.control ⟨0⟩ reservedExportMetadataPath]
    terminalControl := some parsed }

def readDirectory (self : ReplicaScan) (entry : TarEntry) (pax : List (Text × Text))
    (path : Text) (mode : UInt32) : ReplicaResult ReplicaScan := do
  rejectIf (eqIgnoreAsciiCase path ".loc".toList)
    (scopeExport "the reserved .loc directory header is forbidden")
  rejectIf (pax ≠ []) (scopeExport "a directory member has locality PAX metadata")
  rejectIf (mode ≠ readOnlyDirectoryMode) (.invalidDirectoryMode path mode)
  rejectIf (entry.size ≠ 0) (.nonEmptyDirectory path)
  let logicalPath ← (LogicalPath.new unicode path).mapError
    (.scopePath "a directory path is invalid: ".toList ·)
  return { self with
    records := self.records ++ [.directory ⟨pathDepth ⟨path⟩, logicalPath⟩]
    staged := self.staged ++ [.directory path] }

def readFile (self : ReplicaScan) (entry : TarEntry) (pax : List (Text × Text))
    (path : Text) (mode : UInt32) : ReplicaResult ReplicaScan := do
  rejectIf (mode ≠ readOnlyFileMode) (.invalidFileMode path mode)
  rejectIf (limits.maxFileBytes < entry.size) (.fileLimit path entry.size limits.maxFileBytes)
  let diskSize := saturatingAdd self.state.summary.materializedBytes entry.size
  rejectIf (limits.maxDiskBytes < diskSize) (.diskLimit diskSize limits.maxDiskBytes)
  let metadata ← okOr (ExportFilePaxMetadata.fromRecords pax)
    (scopeExport "a file has invalid locality PAX metadata")
  let logicalPath ← (LogicalPath.new unicode path).mapError
    (.scopePath "a file path is invalid: ".toList ·)
  let parentPath ← (logicalParent unicode logicalPath).mapError fun _ =>
    scopeExport "a file parent path is invalid"
  let digest ← deliverFile self.bodyDigest metadata.projectionId path entry.reads entry.size
  rejectIf (sha256Label sha256 entry.reads.flatten ≠ metadata.contentSha256)
    (scopeExport "a file body does not match its content digest")
  return { self with
    state := { self.state with
      summary := { self.state.summary with
        files := self.state.summary.files + 1
        materializedBytes := diskSize } }
    records := self.records ++ [.file
      ⟨metadata.winningScopeOrdinal, parentPath, logicalPath, metadata.projectionId⟩
      metadata.sourceConnectionId metadata.fileKind metadata.effectiveActions
      metadata.contentSha256 entry.size]
    bodyDigest := digest
    staged := self.staged ++ [.file path entry.reads.flatten] }

/-- A directory or a file, under its path. -/
def readNode (self : ReplicaScan) (entry : TarEntry) (pax : List (Text × Text))
    (rawPath : Text) : ReplicaResult ReplicaScan := do
  let isDirectory := decide (entry.entryType = .directory)
  let path := memberPath isDirectory rawPath
  let logical ← (LogicalPath.new unicode path).mapError (.invalidPath path ·)
  let state ← self.state.registerPath unicode lowercase logical.value isDirectory
  let mode ← okOr entry.mode .malformedTar
  let scan := { self with state := state }
  if isDirectory then scan.readDirectory unicode entry pax logical.value mode
  else scan.readFile unicode sha256 limits entry pax logical.value mode

/-- One more entry was found. -/
def count (self : ReplicaScan) : ReplicaScan :=
  { self with state := { self.state with
      summary := { self.state.summary with
        entries := saturatingAdd self.state.summary.entries 1 } } }

def step (self : ReplicaScan) (entry : Option TarEntry) : ReplicaResult ReplicaScan := do
  let entry ← okOr entry .malformedTar
  let scan := self.count
  rejectIf (limits.maxEntries < scan.state.summary.entries) (.entryLimit limits.maxEntries)
  rejectIf scan.terminalControl.isSome
    (scopeExport "the completion receipt is not the final member")
  rejectIf (entry.entryType = .other)
    (scopeExport "an archive member has an unsupported type")
  rejectIf entry.hasLinkName (scopeExport "an archive member contains link metadata")
  let rawPath ← okOr entry.path.toText .nonUtf8Path
  let pax ← replicaPaxFields entry
  if memberPath (decide (entry.entryType = .directory)) rawPath = reservedExportMetadataPath then
    scan.readControl codec entry pax
  else scan.readNode unicode lowercase sha256 limits entry pax rawPath

end ReplicaScan

/-! ## The archive -/

def scanReplicaEntries (offer : SealedExportOffer) (stream : TarStream) :
    ReplicaResult ReplicaScan :=
  stream.entries.foldlM
    (fun (scan : ReplicaScan) entry => scan.step unicode lowercase sha256 codec limits entry)
    (.start offer)

/-- What is checked once every entry was read. -/
def ReplicaScan.close (self : ReplicaScan) (offer : SealedExportOffer) (stream : TarStream) :
    ReplicaResult ReplicaMaterializationSummary := do
  rejectIf (stream.endsInMarker = false) .missingTarEndMarker
  rejectIf stream.trailingData .trailingTarData
  let terminalControl ← okOr self.terminalControl
    (scopeExport "the completion receipt is missing")
  (terminalControl.validateAgainstInventory sha256 unicode offer self.records).mapError
    .scopeContract
  let deliveredBodySha256 ← (self.bodyDigest.finish sha256).mapError .scopeContract
  rejectIf (terminalControl.completionReceipt.deliveredBodySha256 ≠ deliveredBodySha256)
    (scopeExport "the delivered-body digest does not match the completion receipt")
  return { self.state.summary with
    directories := UInt64.ofNat self.state.filesystemDirectories.length }

def extractScopeAuthorizedTar (offer : SealedExportOffer) (stream : TarStream) :
    ReplicaResult ReplicaMaterializationSummary := do
  let scan ← scanReplicaEntries unicode lowercase sha256 codec limits offer stream
  scan.close unicode sha256 offer stream

end Unicode

end Locality.Daemon
