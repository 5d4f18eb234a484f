/-
  Daemon/WorkspaceArchive.lean --- `validate_workspace_tar_with_inventory_v2` of
  `localityd/src/workspace_archive.rs`: a workspace archive, read entry by entry, staged,
  and planned at its end.

  The sink is taken to work: it reads each body to its end, and keeps what it was given.
-/
import Locality.Daemon.ReplicaExtraction
import Locality.Protocol.WorkspaceControl

set_option autoImplicit false

namespace Locality.Daemon

open Locality.Core Locality.Foundation Locality.Protocol Locality.Protocol.Scope
  Locality.Protocol.WorkspaceExport

structure WorkspaceArchiveLimits where
  maxEntries : UInt64
  maxFileBytes : UInt64
  maxContentBytes : UInt64
  deriving DecidableEq, Repr

structure ValidatedWorkspaceArchive where
  plan : WorkspaceMaterializationPlan
  terminalControl : WorkspaceExportTerminalControl
  archiveEntries : UInt64
  files : UInt64
  directories : UInt64
  contentBytes : UInt64
  deriving DecidableEq

structure ValidatedWorkspaceArchiveWithInventory where
  validated : ValidatedWorkspaceArchive
  inventory : WorkspaceNamespacedInventory
  deriving DecidableEq

/-- What the source says; where it prints an error of another module, that error stands
for its text. -/
inductive WorkspaceArchiveError where
  | malformedTar
  | missingTarEndMarker
  | trailingTarData
  | entryLimit (limit : UInt64)
  | fileLimit (path : Text) (size limit : UInt64)
  | contentLimit (size limit : UInt64)
  | invalidMember (reason : Text)
  | invalidMemberPath (error : LogicalPathError)
  | invalidPax (reason : Text)
  | invalidPaxBody (error : ScopeContractError)
  | invalidControl (reason : Text)
  | malformedControl
  | contentDigestMismatch (path : Text)
  | deliveredBodyDigestMismatch
  | planner (error : WorkspaceExportError)
  | sink (path : Text)
  deriving DecidableEq, Repr

abbrev ArchiveResult : Type → Type := Except WorkspaceArchiveError

namespace WorkspaceArchive

def invalidMember (reason : String) : WorkspaceArchiveError := .invalidMember reason.toList

def invalidPax (reason : String) : WorkspaceArchiveError := .invalidPax reason.toList

def invalidControl (reason : String) : WorkspaceArchiveError := .invalidControl reason.toList

/-- A text between backticks, with what stands around it. -/
def quoting (front : String) (quoted : Text) (rest : String) : Text :=
  front.toList ++ ['\x60'] ++ quoted ++ ['\x60'] ++ rest.toList

/-! ## Paths and PAX records -/

def archiveMemberPath (unicode : UnicodeTables) (raw : RawText) (isDirectory : Bool) :
    ArchiveResult Text := do
  let raw ← okOr raw.toText (invalidMember "path is not UTF-8")
  let path := memberPath isDirectory raw
  if path = reservedExportMetadataPath then return path
  else
    let logicalPath ← (LogicalPath.new unicode path).mapError .invalidMemberPath
    return logicalPath.value

/-- `split_once` at a slash: a target, and what is below it. -/
def splitTarget (path : Text) : Text × Option Text :=
  match splitOnce ['/'] path with
  | none => (path, none)
  | some (target, logicalPath) => (target, some logicalPath)

def splitTargetPath (entries : List SessionLayoutEntry) (path : Text) :
    ArchiveResult (Text × Option Text) := do
  rejectIf ((splitTarget path).1 ∉ entries.map fun entry => entry.target.value)
    (.invalidMember (quoting "path " path " has unknown target " ++
      quoting "" (splitTarget path).1 ""))
  return splitTarget path

/-- `locality_pax_fields`, behind keys that were seen. -/
def localityPaxFieldsFrom : List Text → List (Option PaxExtension) →
    ArchiveResult (List (Text × Text))
  | _, [] => return []
  | seen, extension :: extensions => do
      let extension ← okOr extension (invalidPax "malformed record")
      if extension.key.startsWith paxNamespace = false then localityPaxFieldsFrom seen extensions
      else
        let key ← okOr extension.key.toText (invalidPax "key is not UTF-8")
        let value ← okOr extension.value.toText (invalidPax "value is not UTF-8")
        rejectIf (key ∈ seen) (.invalidPax (quoting "duplicate key " key ""))
        let fields ← localityPaxFieldsFrom (key :: seen) extensions
        return (key, value) :: fields

def localityPaxFields (entry : TarEntry) : ArchiveResult (List (Text × Text)) := do
  let extensions ← okOr entry.paxExtensions (invalidPax "malformed record")
  localityPaxFieldsFrom [] extensions

def directoryScopeOrdinal (fields : List (Text × Text)) : ArchiveResult UInt32 :=
  match fields with
  | [(key, value)] =>
      if key ≠ paxWinningScopeOrdinal then
        throw (invalidPax "directory must carry only locality.winning_scope_ordinal")
      else do
        let ordinal ← okOr (parseU32 value) (invalidPax "invalid scope ordinal")
        rejectIf (u32Text ordinal ≠ value) (invalidPax "scope ordinal is not canonical decimal")
        return ordinal
  | _ => throw (invalidPax "directory must carry only locality.winning_scope_ordinal")

/-- The entry of a scope, which has to be that of a target. -/
def scopeAtTarget (entries : List SessionLayoutEntry) (ordinal : UInt32) (target : Text) :
    ArchiveResult SessionLayoutEntry := do
  let scope ← okOr (entryOfScope entries ordinal)
    (.invalidPax ("unknown scope ordinal ".toList ++ u32Text ordinal))
  rejectIf (scope.target.value ≠ target)
    (.invalidPax ("scope ordinal ".toList ++ u32Text ordinal ++
      quoting " does not map to target " target ""))
  return scope

/-! ## Entries -/

/-- `u64::try_from` of a length, saturating. -/
def saturatedCount (count : Nat) : UInt64 := UInt64.ofNat (min count (2 ^ 64 - 1))

/-- The members that were read, and what was counted and hashed along the way. -/
structure ArchiveScan where
  members : List WorkspaceArchiveMember
  rawControl : Option WorkspaceExportTerminalControl
  delivered : DeliveredBodyDigest
  files : UInt64
  directories : UInt64
  contentBytes : UInt64
  staged : List StagedNode

def ArchiveScan.start (offer : WorkspaceExportOffer) : ArchiveScan where
  members := []
  rawControl := none
  delivered := .new offer.offer.fileCount
  files := 0
  directories := 0
  contentBytes := 0
  staged := []

/-- A body from its announcement to its end, hashed as the sink reads it. -/
def deliverBody (delivered : DeliveredBodyDigest) (projectionId : ProjectionId) (path : Text)
    (reads : List (List UInt8)) (size : UInt64) : ArchiveResult DeliveredBodyDigest := do
  let delivered ← (delivered.beginFile projectionId size).mapError .invalidPaxBody
  let delivered ← (delivered.updateChunks reads).mapError fun _ => .sink path
  delivered.endFile.mapError .invalidPaxBody

section Unicode

variable (unicode : UnicodeTables) (sha256 : List UInt8 → List UInt8)
  (codec : ControlCodec WorkspaceExportTerminalControl) (limits : WorkspaceArchiveLimits)
  (entries : List SessionLayoutEntry)

namespace ArchiveScan

/-- The control member. -/
def readControl (self : ArchiveScan) (entry : TarEntry) (pax : List (Text × Text))
    (path : Text) (mode : UInt32) : ArchiveResult ArchiveScan := do
  rejectIf (entry.entryType = .directory ∨ mode ≠ readOnlyFileMode ∨ pax ≠ [])
    (invalidControl "the control member must be a metadata-free 0444 regular file")
  rejectIf (maxExportTerminalControlBytes < entry.size.toNat)
    (invalidControl "the control member exceeds its byte limit")
  let parsed ← okOr (codec.decode entry.reads.flatten) .malformedControl
  rejectIf (codec.encode parsed ≠ some entry.reads.flatten)
    (invalidControl "the control member is not canonical compact JSON")
  return { self with
    members := self.members ++ [⟨.control, path, none⟩]
    rawControl := some parsed }

/-- What a directory is authorized by; a target by nothing. -/
def authorizedDirectory (pax : List (Text × Text)) (target : Text) :
    Option Text → ArchiveResult (Option WorkspaceAuthorizedExportEntry)
  | some logicalPath => do
      let ordinal ← directoryScopeOrdinal pax
      let scope ← scopeAtTarget entries ordinal target
      return some (.directory ordinal scope.mountId logicalPath)
  | none => do
      rejectIf (pax ≠ []) (invalidPax "target root directory has locality metadata")
      return none

def readDirectory (self : ArchiveScan) (entry : TarEntry) (pax : List (Text × Text))
    (path : Text) (place : Text × Option Text) (mode : UInt32) : ArchiveResult ArchiveScan := do
  rejectIf (mode ≠ readOnlyDirectoryMode ∨ entry.size ≠ 0)
    (.invalidMember (quoting "directory " path " must be empty with mode 0555"))
  let authorizedEntry ← authorizedDirectory entries pax place.1 place.2
  return { self with
    members := self.members ++ [⟨.directory, path, authorizedEntry⟩]
    directories := saturatingAdd self.directories 1
    staged := self.staged ++ [.directory path] }

/-- The entry that the metadata of a file authorizes. -/
def authorizedFile (metadata : ExportFilePaxMetadata) (mountId : PortableMountId)
    (logicalPath : Text) (size : UInt64) : WorkspaceAuthorizedExportEntry :=
  .file metadata.winningScopeOrdinal mountId logicalPath
    { projectionId := metadata.projectionId
      sourceConnectionId := metadata.sourceConnectionId
      fileKind := metadata.fileKind
      effectiveActions := metadata.effectiveActions
      contentSha256 := metadata.contentSha256
      byteLength := size }

def readFile (self : ArchiveScan) (entry : TarEntry) (pax : List (Text × Text))
    (path : Text) (place : Text × Option Text) (mode : UInt32) : ArchiveResult ArchiveScan := do
  let logicalPath ← okOr place.2 (invalidMember "target root must be a directory")
  rejectIf (mode ≠ readOnlyFileMode) (.invalidMember (quoting "file " path " must have mode 0444"))
  rejectIf (limits.maxFileBytes < entry.size) (.fileLimit path entry.size limits.maxFileBytes)
  let contentBytes := saturatingAdd self.contentBytes entry.size
  rejectIf (limits.maxContentBytes < contentBytes)
    (.contentLimit contentBytes limits.maxContentBytes)
  let metadata ← okOr (ExportFilePaxMetadata.fromRecords pax)
    (.invalidPax (quoting "file " path " has invalid metadata"))
  let scope ← scopeAtTarget entries metadata.winningScopeOrdinal place.1
  let delivered ← deliverBody self.delivered metadata.projectionId path entry.reads entry.size
  rejectIf (sha256Label sha256 entry.reads.flatten ≠ metadata.contentSha256)
    (.contentDigestMismatch path)
  return { self with
    members := self.members ++
      [⟨.file, path, some (authorizedFile metadata scope.mountId logicalPath entry.size)⟩]
    delivered := delivered
    files := saturatingAdd self.files 1
    contentBytes := contentBytes
    staged := self.staged ++ [.file path entry.reads.flatten] }

/-- One entry of the archive. -/
def step (self : ArchiveScan) (entry : Option TarEntry) : ArchiveResult ArchiveScan := do
  let entry ← okOr entry .malformedTar
  rejectIf (limits.maxEntries < saturatedCount (self.members.length + 1))
    (.entryLimit limits.maxEntries)
  rejectIf self.rawControl.isSome (invalidControl "the control member is not final")
  rejectIf (entry.entryType = .other)
    (invalidMember "links, devices, fifos, and special entries are forbidden")
  rejectIf entry.hasLinkName (invalidMember "link metadata is forbidden")
  let path ← archiveMemberPath unicode entry.path (decide (entry.entryType = .directory))
  let pax ← localityPaxFields entry
  let mode ← okOr entry.mode .malformedTar
  if path = reservedExportMetadataPath then self.readControl codec entry pax path mode
  else
    let place ← splitTargetPath entries path
    if entry.entryType = .directory then self.readDirectory entries entry pax path place mode
    else self.readFile sha256 limits entries entry pax path place mode

end ArchiveScan

/-! ## Archives -/

def scanWorkspaceEntries (offer : WorkspaceExportOffer) (stream : TarStream) :
    ArchiveResult ArchiveScan :=
  stream.entries.foldlM (fun (scan : ArchiveScan) entry =>
    scan.step unicode sha256 codec limits entries entry) (.start offer)

/-- What is checked once the archive ended. -/
def finishArchive (session : WorkspaceProfileSession) (offer : WorkspaceExportOffer)
    (stream : TarStream) (scan : ArchiveScan) :
    ArchiveResult ValidatedWorkspaceArchiveWithInventory := do
  rejectIf (stream.endsInMarker = false) .missingTarEndMarker
  rejectIf stream.trailingData .trailingTarData
  let terminalControl ← okOr scan.rawControl (invalidControl "the control member is missing")
  let planned ← (WorkspaceMaterializationPlanWithInventory.planMembers unicode sha256 session offer
    terminalControl scan.members).mapError .planner
  let delivered ← (scan.delivered.finish sha256).mapError fun error => .planner (.scope error)
  rejectIf (delivered ≠ terminalControl.completionReceipt.receipt.deliveredBodySha256)
    .deliveredBodyDigestMismatch
  return {
    validated := {
      plan := planned.plan
      terminalControl := terminalControl
      archiveEntries := saturatedCount scan.members.length
      files := scan.files
      directories := scan.directories
      contentBytes := scan.contentBytes }
    inventory := planned.inventory }

end Unicode

end WorkspaceArchive

open WorkspaceArchive in
def validateWorkspaceTarWithInventory (unicode : UnicodeTables) (sha256 : List UInt8 → List UInt8)
    (codec : ControlCodec WorkspaceExportTerminalControl) (limits : WorkspaceArchiveLimits)
    (session : WorkspaceProfileSession) (offer : WorkspaceExportOffer) (stream : TarStream) :
    ArchiveResult ValidatedWorkspaceArchiveWithInventory := do
  (session.validate unicode sha256).mapError fun error => .planner (.api error)
  offer.validate.mapError fun error => .planner (.api error)
  let scan ← scanWorkspaceEntries unicode sha256 codec limits session.sessionLayout.entries offer
    stream
  finishArchive unicode sha256 session offer stream scan

end Locality.Daemon
