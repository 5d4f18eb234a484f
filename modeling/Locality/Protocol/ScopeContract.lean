/-
  Protocol/ScopeContract.lean --- the scope-authorized export contract of
  `locality-protocol/src/lib.rs`: versions, source generations, canonical records, the
  sealed offer and the writable metadata, with what validates them and the bytes that
  their digests are taken of.
-/
import Locality.Foundation.Fallible
import Locality.Protocol.PortablePath
import Mathlib.Data.Finset.Card
import Mathlib.Data.List.Sort
import Mathlib.Data.Prod.Lex
import Mathlib.Data.Sum.Order
import Mathlib.Order.WithBot

set_option autoImplicit false

namespace Locality.Protocol

open Locality.Core Locality.Foundation

/-! ## Appending to a preimage -/

/-- A count of this machine as a `u64`, big-endian; the error is that of the caller. -/
def appendCountOr {ε : Type} (tooLarge : ε) (output : List UInt8) (count : Nat) :
    Except ε (List UInt8) :=
  if 2 ^ 64 ≤ count then throw tooLarge else return output ++ toBeBytes 8 count

def appendTextOr {ε : Type} (tooLarge : ε) (output : List UInt8) (value : Text) :
    Except ε (List UInt8) := do
  let output ← appendCountOr tooLarge output (utf8Bytes value)
  return output ++ asBytes value

def appendTextsOr {ε : Type} (tooLarge : ε) :
    List UInt8 → List Text → Except ε (List UInt8)
  | output, [] => return output
  | output, value :: values => do
      let output ← appendTextOr tooLarge output value
      appendTextsOr tooLarge output values

/-! ## Kinds and actions -/

def projectionFileKindWireLabel : ProjectionFileKind → Text
  | .markdown => "markdown".toList
  | .text => "text".toList
  | .json => "json".toList
  | .yaml => "yaml".toList
  | .binary => "binary".toList
  | .directory => "directory".toList

def projectionFileKindFromWireLabel (value : Text) : Option ProjectionFileKind :=
  [ProjectionFileKind.markdown, .text, .json, .yaml, .binary, .directory].find? fun kind =>
    decide (projectionFileKindWireLabel kind = value)

def sourceActionWireLabel : SourceAction → Text
  | .read => "read".toList
  | .search => "search".toList
  | .downloadAttachment => "download_attachment".toList
  | .create => "create".toList
  | .update => "update".toList
  | .move => "move".toList
  | .delete => "delete".toList
  | .comment => "comment".toList
  | .updateProperties => "update_properties".toList
  | .manageSchema => "manage_schema".toList

/-- `SourceAction::all`, in the order of a set of actions. -/
def SourceAction.all : List SourceAction :=
  [.read, .search, .downloadAttachment, .create, .update, .move, .delete, .comment,
    .updateProperties, .manageSchema]

def sourceActionFromWireLabel (value : Text) : Option SourceAction :=
  SourceAction.all.find? fun action => decide (sourceActionWireLabel action = value)

def sourceActionAllowsMutation : SourceAction → Bool
  | .read | .search | .downloadAttachment => false
  | _ => true

/-- A `BTreeSet` of actions. -/
abbrev ActionSet : Type := Finset SourceAction

/-- `iter().map(source_action_wire_label)`, sorted. -/
def sortedActionLabels (actions : ActionSet) : List Text :=
  ((SourceAction.all.filter (· ∈ actions)).map sourceActionWireLabel).insertionSort
    fun label label' => byteOrder label ≤ byteOrder label'

/-- The actions of a record: how many they are, and their labels in order. -/
def appendActionsOr {ε : Type} (tooLarge : ε) (output : List UInt8) (actions : ActionSet) :
    Except ε (List UInt8) := do
  let output ← appendCountOr tooLarge output actions.card
  appendTextsOr tooLarge output (sortedActionLabels actions)

/-! ## Identifiers -/

structure SessionId where
  value : Text
  deriving DecidableEq, Repr

structure ExportAttemptId where
  value : Text
  deriving DecidableEq, Repr

/-! ## Versions -/

inductive ProtocolComponent where
  | session
  | replica
  | exportMetadata
  | writableSessionStore
  | canonical
  | path
  | changeset
  deriving DecidableEq, Repr

inductive VersionCompatibilityError where
  | needsUpdate (component : ProtocolComponent) (required supported : UInt16)
  | unsupportedLegacy (component : ProtocolComponent) (required minimum : UInt16)
  deriving DecidableEq, Repr

structure ComponentVersions where
  session : UInt16
  replica : UInt16
  exportMetadata : UInt16
  writableSessionStore : UInt16
  canonical : UInt16
  path : UInt16
  changeset : UInt16
  deriving DecidableEq, Repr

def componentVersions : ComponentVersions := ⟨1, 1, 1, 1, 1, 1, 1⟩

def latestComponentVersions : ComponentVersions :=
  { componentVersions with session := 2, replica := 2, exportMetadata := 2 }

def minimumComponentVersions : ComponentVersions := componentVersions

def requireVersion (component : ProtocolComponent) (required minimum supported : UInt16) :
    Except VersionCompatibilityError Unit :=
  if supported < required then throw (.needsUpdate component required supported)
  else if required < minimum then throw (.unsupportedLegacy component required minimum)
  else pure ()

def ComponentVersions.validateRequired (self : ComponentVersions) :
    Except VersionCompatibilityError Unit :=
  [(ProtocolComponent.session, self.session, minimumComponentVersions.session,
      latestComponentVersions.session),
    (.replica, self.replica, minimumComponentVersions.replica, latestComponentVersions.replica),
    (.exportMetadata, self.exportMetadata, minimumComponentVersions.exportMetadata,
      latestComponentVersions.exportMetadata),
    (.writableSessionStore, self.writableSessionStore,
      minimumComponentVersions.writableSessionStore,
      latestComponentVersions.writableSessionStore),
    (.canonical, self.canonical, minimumComponentVersions.canonical,
      latestComponentVersions.canonical),
    (.path, self.path, minimumComponentVersions.path, latestComponentVersions.path),
    (.changeset, self.changeset, minimumComponentVersions.changeset,
      latestComponentVersions.changeset)].forM
    fun (component, required, minimum, supported) =>
      requireVersion component required minimum supported

/-! ## Errors -/

inductive ScopeContractError where
  | versionCompatibility (error : VersionCompatibilityError)
  | componentVersionTooOld (component : ProtocolComponent) (required actual : UInt16)
  | emptyField (field : Text)
  | emptyCollection (field : Text)
  | duplicateValue (field : Text)
  | nonCanonicalOrdinal (collection : Text) (expected actual : UInt32)
  | invalidLimit
  | invalidCanonicalUtcTimestamp (field : Text)
  | invalidSha256 (field : Text)
  | inconsistentArchiveEntryCount
  | selectionExceedsLimits
  | invalidControlRecord
  | invalidControlDirectory
  | invalidControlRecordCount (actual : Nat)
  | nonCanonicalRecordOrder
  | invalidDirectoryDepth (expected actual : UInt32)
  | invalidParentPath
  | missingParentDirectory
  | receiptDoesNotMatchOffer
  | inventoryTooLarge
  | inventoryDoesNotMatchOffer
  | deliveredBodyCountMismatch (expected actual : UInt64)
  deriving DecidableEq, Repr

abbrev ScopeResult : Type → Type := Except ScopeContractError

namespace Scope

/-- An error where a condition holds. -/
def failIf (p : Prop) [Decidable p] (error : ScopeContractError) : ScopeResult Unit :=
  if p then throw error else pure ()

theorem failIf_eq_ok {p : Prop} [Decidable p] {error : ScopeContractError} {u : Unit} :
    failIf p error = .ok u ↔ ¬ p :=
  ite_throw_pure_eq_ok

def validateNonempty (field value : Text) : ScopeResult Unit :=
  failIf (value = []) (.emptyField field)

/-- `strip_prefix("sha256:")` and sixty-four lowercase digits. -/
def validateSha256 (field value : Text) : ScopeResult Unit :=
  failIf (isSha256Label value = false) (.invalidSha256 field)

def validateExportVersions (versions : ComponentVersions) : ScopeResult Unit := do
  versions.validateRequired.mapError .versionCompatibility
  [(ProtocolComponent.session, versions.session), (.replica, versions.replica),
    (.exportMetadata, versions.exportMetadata)].forM fun (component, actual) =>
    failIf (actual < 2) (.componentVersionTooOld component 2 actual)

def appendCount (output : List UInt8) (count : Nat) : ScopeResult (List UInt8) :=
  appendCountOr .inventoryTooLarge output count

def appendText (output : List UInt8) (value : Text) : ScopeResult (List UInt8) :=
  appendTextOr .inventoryTooLarge output value

/-! ## Timestamps -/

def parseAsciiDecimal (digits : Text) : Option Nat :=
  if digits.all isAsciiDigit then
    some (digits.foldl (fun value digit => value * 10 + (digit.toNat - '0'.toNat)) 0)
  else none

def daysInMonth (year month : Nat) : Nat :=
  if month ∈ [1, 3, 5, 7, 8, 10, 12] then 31
  else if month ∈ [4, 6, 9, 11] then 30
  else if month = 2 then
    if year % 400 = 0 ∨ (year % 4 = 0 ∧ year % 100 ≠ 0) then 29 else 28
  else 0

/-- The numbers of a timestamp name a second. -/
def isCanonicalUtc (year month day hour minute second : Nat) : Bool :=
  decide (year ≠ 0 ∧ 1 ≤ month ∧ month ≤ 12 ∧ day ≠ 0 ∧ day ≤ daysInMonth year month ∧
    hour ≤ 23 ∧ minute ≤ 59 ∧ second ≤ 59)

/-- `YYYY-MM-DDTHH:MM:SSZ`. -/
def readsCanonicalUtc (value : Text) : Option Bool := do
  if utf8Bytes value ≠ 20 ∨ value[4]? ≠ some '-' ∨ value[7]? ≠ some '-' ∨
      value[10]? ≠ some 'T' ∨ value[13]? ≠ some ':' ∨ value[16]? ≠ some ':' ∨
      value[19]? ≠ some 'Z' then none
  else
    let year ← parseAsciiDecimal (value.take 4)
    let month ← parseAsciiDecimal ((value.drop 5).take 2)
    let day ← parseAsciiDecimal ((value.drop 8).take 2)
    let hour ← parseAsciiDecimal ((value.drop 11).take 2)
    let minute ← parseAsciiDecimal ((value.drop 14).take 2)
    let second ← parseAsciiDecimal ((value.drop 17).take 2)
    return isCanonicalUtc year month day hour minute second

def validateCanonicalUtcTimestamp (field value : Text) : ScopeResult Unit :=
  failIf (readsCanonicalUtc value ≠ some true) (.invalidCanonicalUtcTimestamp field)

/-! ## Source generations -/

structure OrderedSourceGeneration where
  ordinal : UInt32
  sourceConnectionId : SourceConnectionId
  sourceGenerationId : SourceGenerationId
  deriving DecidableEq, Repr

/-- The generations from an index on, behind sources that were seen. -/
def validateGenerationsFrom :
    Nat → List SourceConnectionId → List OrderedSourceGeneration → ScopeResult Unit
  | _, _, [] => pure ()
  | index, sourceIds, generation :: generations => do
      failIf (generation.ordinal.toNat ≠ index)
        (.nonCanonicalOrdinal "source_generations".toList (UInt32.ofNat index) generation.ordinal)
      validateNonempty "source_connection_id".toList generation.sourceConnectionId.value
      failIf (generation.sourceConnectionId ∈ sourceIds)
        (.duplicateValue "source_connection_id".toList)
      validateGenerationsFrom (index + 1) (generation.sourceConnectionId :: sourceIds) generations

def validateSourceGenerations (generations : List OrderedSourceGeneration) : ScopeResult Unit := do
  failIf (generations = []) (.emptyCollection "source_generations".toList)
  validateGenerationsFrom 0 [] generations

/-! ## Canonical records -/

structure CanonicalControlOrderKey where
  ordinal : UInt8
  deriving DecidableEq, Repr

structure CanonicalDirectoryOrderKey where
  depth : UInt32
  logicalPath : LogicalPath
  deriving DecidableEq, Repr

structure CanonicalFileOrderKey where
  winningScopeOrdinal : UInt32
  parentPath : Option LogicalPath
  logicalPath : LogicalPath
  projectionId : ProjectionId
  deriving DecidableEq, Repr

inductive CanonicalExportOrderKey where
  | directory (key : CanonicalDirectoryOrderKey)
  | file (key : CanonicalFileOrderKey)
  | control (key : CanonicalControlOrderKey)
  deriving DecidableEq, Repr

/-- A path that may be missing: none comes first. -/
def parentRank (parent : Option Text) : WithBot (List Nat) :=
  parent.elim ⊥ fun path => (byteOrder path : WithBot (List Nat))

namespace CanonicalExportOrderKey

/-- What keys of one class are compared by, with the class in front. -/
abbrev Rank : Type :=
  (Nat ×ₗ List Nat) ⊕ₗ ((Nat ×ₗ WithBot (List Nat) ×ₗ List Nat ×ₗ List Nat) ⊕ₗ Nat)

/-- The derived order of keys: directories come before files, and control last. -/
def rank : CanonicalExportOrderKey → Rank
  | directory key => toLex (.inl (toLex (key.depth.toNat, byteOrder key.logicalPath.value)))
  | file key => toLex (.inr (toLex (.inl (toLex (key.winningScopeOrdinal.toNat,
      toLex (parentRank (key.parentPath.map LogicalPath.value),
        toLex (byteOrder key.logicalPath.value, byteOrder key.projectionId.value)))))))
  | control key => toLex (.inr (toLex (.inr key.ordinal.toNat)))

end CanonicalExportOrderKey

inductive CanonicalExportRecord where
  | directory (orderKey : CanonicalDirectoryOrderKey)
  | file (orderKey : CanonicalFileOrderKey) (sourceConnectionId : SourceConnectionId)
      (fileKind : ProjectionFileKind) (effectiveActions : ActionSet) (contentSha256 : Text)
      (byteLength : UInt64)
  | control (orderKey : CanonicalControlOrderKey) (memberPath : Text)
  deriving DecidableEq

def pathDepth (path : LogicalPath) : UInt32 := UInt32.ofNat (splitSlash path.value).length

section Unicode

variable (unicode : UnicodeTables)

/-- The parent of a path; one that is no path of its own is refused. -/
def logicalParent (path : LogicalPath) : ScopeResult (Option LogicalPath) :=
  match rsplitSlash path.value with
  | none => return none
  | some (parent, _) =>
      match LogicalPath.new unicode parent with
      | .ok parent => return some parent
      | .error _ => throw .invalidParentPath

namespace CanonicalExportRecord

def orderKey : CanonicalExportRecord → CanonicalExportOrderKey
  | directory key => .directory key
  | file key _ _ _ _ _ => .file key
  | control key _ => .control key

def isControl : CanonicalExportRecord → Bool
  | control _ _ => true
  | _ => false

def logicalPath? : CanonicalExportRecord → Option LogicalPath
  | directory key => some key.logicalPath
  | file key _ _ _ _ _ => some key.logicalPath
  | control _ _ => none

def validate : CanonicalExportRecord → ScopeResult Unit
  | control key memberPath =>
      failIf (key.ordinal ≠ 0 ∨ memberPath ≠ reservedExportMetadataPath) .invalidControlRecord
  | directory key => do
      failIf (eqIgnoreAsciiCase key.logicalPath.value ".loc".toList) .invalidControlDirectory
      failIf (key.depth ≠ pathDepth key.logicalPath)
        (.invalidDirectoryDepth (pathDepth key.logicalPath) key.depth)
  | file key sourceConnectionId _ effectiveActions contentSha256 _ => do
      validateNonempty "projection_id".toList key.projectionId.value
      let expectedParent ← logicalParent unicode key.logicalPath
      failIf (key.parentPath ≠ expectedParent) .invalidParentPath
      validateNonempty "source_connection_id".toList sourceConnectionId.value
      failIf (effectiveActions = ∅) (.emptyCollection "effective_actions".toList)
      validateSha256 "content_sha256".toList contentSha256

end CanonicalExportRecord

/-- What is known of the records that were passed. -/
structure RecordScan where
  controlCount : Nat
  logicalPaths : List LogicalPath
  projectionIds : List ProjectionId
  directoryPaths : List LogicalPath
  previousKey : Option CanonicalExportOrderKey

def RecordScan.empty : RecordScan := ⟨0, [], [], [], none⟩

/-- A parent that no directory stands for; the control directory needs none. -/
def lacksParent (directoryPaths : List LogicalPath) (parent : Option LogicalPath) : Prop :=
  ∃ path, parent = some path ∧
    ¬ eqIgnoreAsciiCase path.value ".loc".toList ∧ path ∉ directoryPaths

instance (directoryPaths : List LogicalPath) (parent : Option LogicalPath) :
    Decidable (lacksParent directoryPaths parent) :=
  match parent with
  | none => isFalse fun ⟨_, h, _⟩ => nomatch h
  | some path =>
      decidable_of_iff (¬ eqIgnoreAsciiCase path.value ".loc".toList ∧ path ∉ directoryPaths)
        ⟨fun h => ⟨path, rfl, h⟩, fun ⟨_, h, hrest⟩ => Option.some.inj h ▸ hrest⟩

namespace RecordScan

/-- `logical_paths.insert`. -/
def claimPath (self : RecordScan) (record : CanonicalExportRecord) : ScopeResult RecordScan :=
  match record.logicalPath? with
  | none => return self
  | some path =>
      if path ∈ self.logicalPaths then throw (.duplicateValue "logical_path".toList)
      else return { self with logicalPaths := path :: self.logicalPaths }

/-- The parent of a record, and what the record adds. -/
def claimParent (self : RecordScan) : CanonicalExportRecord → ScopeResult RecordScan
  | .directory key => do
      let parent ← logicalParent unicode key.logicalPath
      failIf (lacksParent self.directoryPaths parent) .missingParentDirectory
      return { self with directoryPaths := key.logicalPath :: self.directoryPaths }
  | .file key _ _ _ _ _ => do
      failIf (key.projectionId ∈ self.projectionIds) (.duplicateValue "projection_id".toList)
      failIf (lacksParent self.directoryPaths key.parentPath) .missingParentDirectory
      return { self with projectionIds := key.projectionId :: self.projectionIds }
  | .control _ _ => return { self with controlCount := self.controlCount + 1 }

/-- The order behind the record before. -/
def follow (self : RecordScan) (key : CanonicalExportOrderKey) : ScopeResult RecordScan := do
  failIf (∃ previous ∈ self.previousKey, key.rank ≤ previous.rank) .nonCanonicalRecordOrder
  return { self with previousKey := some key }

def step (self : RecordScan) (record : CanonicalExportRecord) : ScopeResult RecordScan := do
  record.validate unicode
  let scan ← self.claimPath record
  let scan ← scan.claimParent unicode record
  scan.follow record.orderKey

end RecordScan

def validateCanonicalExportRecords (records : List CanonicalExportRecord) : ScopeResult Unit := do
  let scan ← records.foldlM (fun (scan : RecordScan) record => scan.step unicode record) .empty
  failIf (scan.controlCount ≠ 1) (.invalidControlRecordCount scan.controlCount)

/-! ## The inventory of an export -/

def exportInventoryDomain : List UInt8 := asBytes "locality.export.inventory.v2".toList ++ [0]

def appendRecord (output : List UInt8) : CanonicalExportRecord → ScopeResult (List UInt8)
  | .control _ _ => return output
  | .directory key => do
      let output ← appendText output "directory".toList
      appendText output key.logicalPath.value
  | .file key sourceConnectionId fileKind effectiveActions contentSha256 byteLength => do
      let output ← appendText output "file".toList
      let output := output ++ toBeBytes 8 key.winningScopeOrdinal.toNat
      let output ← appendText output sourceConnectionId.value
      let output ← appendText output key.projectionId.value
      let output ← appendText output key.logicalPath.value
      let output ← appendText output (projectionFileKindWireLabel fileKind)
      let output ← appendActionsOr .inventoryTooLarge output effectiveActions
      let output ← appendText output contentSha256
      return output ++ toBeBytes 8 byteLength.toNat

def canonicalExportInventoryPreimage (records : List CanonicalExportRecord) :
    ScopeResult (List UInt8) := do
  validateCanonicalExportRecords unicode records
  let output ← appendCount exportInventoryDomain (records.filter (!·.isControl)).length
  records.foldlM appendRecord output

section Sha256

variable (sha256 : List UInt8 → List UInt8)

def canonicalExportInventorySha256 (records : List CanonicalExportRecord) : ScopeResult Text := do
  let preimage ← canonicalExportInventoryPreimage unicode records
  return sha256Label sha256 preimage

end Sha256

end Unicode

/-! ## Delivered bodies -/

/-- A digest of bodies as they are delivered.  The hasher is what it was fed. -/
structure DeliveredBodyDigest where
  hasher : List UInt8
  expectedFileCount : UInt64
  deliveredFileCount : UInt64
  remainingFileBytes : Option UInt64
  deriving DecidableEq, Repr

def deliveredBodiesDomain : List UInt8 :=
  asBytes "locality.export.delivered-bodies.v2".toList ++ [0]

namespace DeliveredBodyDigest

def new (expectedFileCount : UInt64) : DeliveredBodyDigest where
  hasher := deliveredBodiesDomain ++ toBeBytes 8 expectedFileCount.toNat
  expectedFileCount := expectedFileCount
  deliveredFileCount := 0
  remainingFileBytes := none

variable (self : DeliveredBodyDigest)

def beginFile (projectionId : ProjectionId) (byteLength : UInt64) :
    ScopeResult DeliveredBodyDigest := do
  failIf self.remainingFileBytes.isSome .inventoryDoesNotMatchOffer
  validateNonempty "projection_id".toList projectionId.value
  let hasher ← appendText self.hasher projectionId.value
  return { self with
    hasher := hasher ++ toBeBytes 8 byteLength.toNat
    remainingFileBytes := some byteLength }

def updateFileChunk (chunk : List UInt8) : ScopeResult DeliveredBodyDigest :=
  match self.remainingFileBytes with
  | none => throw .inventoryDoesNotMatchOffer
  | some remaining => do
      failIf (2 ^ 64 ≤ chunk.length) .inventoryTooLarge
      failIf (remaining.toNat < chunk.length) .inventoryDoesNotMatchOffer
      return { self with
        hasher := self.hasher ++ chunk
        remainingFileBytes := some (remaining - UInt64.ofNat chunk.length) }

def endFile : ScopeResult DeliveredBodyDigest := do
  failIf (self.remainingFileBytes ≠ some 0) .inventoryDoesNotMatchOffer
  failIf (self.deliveredFileCount.toNat + 1 = 2 ^ 64) .inventoryTooLarge
  return { self with
    remainingFileBytes := none
    deliveredFileCount := self.deliveredFileCount + 1 }

def updateFile (projectionId : ProjectionId) (body : List UInt8) :
    ScopeResult DeliveredBodyDigest := do
  failIf (2 ^ 64 ≤ body.length) .inventoryTooLarge
  let digest ← self.beginFile projectionId (UInt64.ofNat body.length)
  let digest ← digest.updateFileChunk body
  digest.endFile

/-- What is hashed, once every file was delivered. -/
def preimage : ScopeResult (List UInt8) := do
  failIf (self.remainingFileBytes.isSome ∨ self.deliveredFileCount ≠ self.expectedFileCount)
    (.deliveredBodyCountMismatch self.expectedFileCount self.deliveredFileCount)
  return self.hasher

def finish (sha256 : List UInt8 → List UInt8) : ScopeResult Text := do
  let preimage ← self.preimage
  return sha256Label sha256 preimage

end DeliveredBodyDigest

end Scope

end Locality.Protocol
