/-
  Delivery/GenerationStore.lean --- the tables of generation delivery and the operations on
  them, of `locality-store/src/sqlite.rs`.

  An operation is one transaction: where it fails, nothing of it is stored.  A path is a
  well-formed one here, as the identities are that it is compared with.
-/
import Locality.Delivery.Records
import Locality.Foundation.KeyedTable

set_option autoImplicit false

namespace Locality.Delivery

open Locality.Core Locality.Foundation Locality.Protocol

/-! ## Tables -/

/-- The paths of all mounts.  In one mount no two rows share their remote path or their
local one. -/
structure PathTable where
  table : KeyedTable GenerationPathRow.key
  logicalDistinct : ∀ row ∈ table.rows, ∀ row' ∈ table.rows,
    row.path.mountId = row'.path.mountId → row.path.logicalPath = row'.path.logicalPath →
      row = row'
  localDistinct : ∀ row ∈ table.rows, ∀ row' ∈ table.rows,
    row.path.mountId = row'.path.mountId →
      row.path.localLogicalPath = row'.path.localLogicalPath → row = row'

namespace PathTable

def empty : PathTable where
  table := .empty
  logicalDistinct := fun _ h => nomatch h
  localDistinct := fun _ h => nomatch h

/-- No other row of the mount has a path of the row. -/
def Free (self : PathTable) (row : GenerationPathRow) : Prop :=
  ∀ other ∈ self.table.rows, other.key ≠ row.key → other.path.mountId = row.path.mountId →
    other.path.logicalPath ≠ row.path.logicalPath ∧
      other.path.localLogicalPath ≠ row.path.localLogicalPath

instance (self : PathTable) (row : GenerationPathRow) : Decidable (self.Free row) :=
  inferInstanceAs (Decidable (∀ other ∈ _, _ → _ → _ ∧ _))

/-- The row, in the place of one with its key. -/
def place (self : PathTable) (row : GenerationPathRow) (free : self.Free row) : PathTable where
  table := self.table.put row
  logicalDistinct := by
    intro r hr r' hr' hmount hpath
    rcases KeyedTable.mem_put.mp hr with rfl | ⟨hmem, hne⟩
    · rcases KeyedTable.mem_put.mp hr' with rfl | ⟨hmem', hne'⟩
      · rfl
      · exact absurd hpath.symm (free r' hmem' hne' hmount.symm).1
    · rcases KeyedTable.mem_put.mp hr' with rfl | ⟨hmem', hne'⟩
      · exact absurd hpath (free r hmem hne hmount).1
      · exact self.logicalDistinct r hmem r' hmem' hmount hpath
  localDistinct := by
    intro r hr r' hr' hmount hpath
    rcases KeyedTable.mem_put.mp hr with rfl | ⟨hmem, hne⟩
    · rcases KeyedTable.mem_put.mp hr' with rfl | ⟨hmem', hne'⟩
      · rfl
      · exact absurd hpath.symm (free r' hmem' hne' hmount.symm).2
    · rcases KeyedTable.mem_put.mp hr' with rfl | ⟨hmem', hne'⟩
      · exact absurd hpath (free r hmem hne hmount).2
      · exact self.localDistinct r hmem r' hmem' hmount hpath

def eraseWhere (self : PathTable) (p : GenerationPathRow → Bool) : PathTable where
  table := self.table.eraseWhere p
  logicalDistinct := fun r hr r' hr' =>
    self.logicalDistinct r (KeyedTable.mem_eraseWhere.mp hr).1 r'
      (KeyedTable.mem_eraseWhere.mp hr').1
  localDistinct := fun r hr r' hr' =>
    self.localDistinct r (KeyedTable.mem_eraseWhere.mp hr).1 r'
      (KeyedTable.mem_eraseWhere.mp hr').1

end PathTable

structure GenerationStore where
  mounts : List MountId
  observed : KeyedTable ObservedGenerationRecordV2.key
  paths : PathTable
  journals : KeyedTable StoredGenerationApply.key
  evidence : KeyedTable GenerationInodeEvidenceRecord.key

namespace GenerationStore

/-- A store before the first baseline. -/
def fresh (mounts : List MountId) : GenerationStore := ⟨mounts, .empty, .empty, .empty, .empty⟩

/-! ## Reading -/

def byProjection (paths : List GenerationPathRecord) : List GenerationPathRecord :=
  paths.insertionSort fun path path' =>
    byteOrder path.projectionId.value ≤ byteOrder path'.projectionId.value

def bySource (records : List ObservedGenerationRecord) : List ObservedGenerationRecord :=
  records.insertionSort fun record record' =>
    byteOrder record.sourceConnectionId.value ≤ byteOrder record'.sourceConnectionId.value

def pathRowsOfSource (self : GenerationStore) (source : SourceKey) : List GenerationPathRow :=
  self.paths.table.rows.filter fun row => row.source = source

def listGenerationPathsForSource (self : GenerationStore) (source : SourceKey) :
    List GenerationPathRecord :=
  byProjection ((self.pathRowsOfSource source).map GenerationPathRow.path)

def listObservedGenerations (self : GenerationStore) (mountId : MountId) :
    List ObservedGenerationRecord :=
  bySource ((self.observed.rows.map ObservedGenerationRecordV2.observed).filter fun record =>
    record.mountId = mountId)

/-- `select_generation_path`: the row of a projection, where the source owns it. -/
def selectGenerationPath (self : GenerationStore) (source : SourceKey)
    (projectionId : ProjectionId) : Option GenerationPathRecord :=
  match self.paths.table.lookup (source.1, projectionId) with
  | none => none
  | some row => if row.source = source then some row.path else none

def activeJournal (self : GenerationStore) (mountId : MountId) : Option StoredGenerationApply :=
  self.journals.rows.find? fun journal => journal.mountId = mountId && journal.active

def listPendingGenerationAcknowledgments (self : GenerationStore) (mountId : MountId) :
    List StoredGenerationApply :=
  self.journals.rows.filter fun journal =>
    journal.mountId = mountId && journal.pendingAcknowledgment

/-! ## Writing paths -/

/-- An insertion or an update, under the constraints of the table. -/
def placePath (self : GenerationStore) (row : GenerationPathRow) : StoreResult GenerationStore :=
  if self.observed.lookup row.source = none then throw .database
  else if free : self.paths.Free row then
    return { self with paths := self.paths.place row free }
  else throw .database

/-- `INSERT` of a path that is to be a new one. -/
def insertPath (self : GenerationStore) (row : GenerationPathRow) :
    StoreResult GenerationStore :=
  if self.paths.table.lookup row.key = none then self.placePath row else throw .database

/-- `INSERT ... ON CONFLICT DO UPDATE`, where the row that is there must be of the same
source. -/
def upsertPath (self : GenerationStore) (row : GenerationPathRow) (crossed : String) :
    StoreResult GenerationStore :=
  match self.paths.table.lookup row.key with
  | none => self.placePath row
  | some existing =>
      if existing.sourceConnectionId = row.sourceConnectionId then self.placePath row
      else throw (.invalidState crossed.toList)

/-! ## Seeding -/

section Seeding

variable (codec : Codec)

/-- The paths of a seed, among the projections and the paths that are claimed: their base
identities. -/
def validateSeedPaths (observed : ObservedGenerationRecord) :
    List ProjectionId → List Text → List Text → List GenerationPathRecord →
      StoreResult (List GenerationFileIdentity)
  | _, _, _, [] => return []
  | projections, logicalPaths, localPaths, path :: paths =>
      let logicalKey := path.logicalPath.portableCollisionKey codec.unicode
      let localKey := path.localLogicalPath.portableCollisionKey codec.unicode
      if path.mountId ≠ observed.mountId ∨ path.baseGenerationId ≠ observed.generationId ∨
          path.updatedAt = [] ∨ path.projectionId ∈ projections ∨ logicalKey ∈ logicalPaths ∨
          localKey ∈ localPaths then
        throw (.invalidState "generation path seed does not match its observed generation".toList)
      else
        match path.baseIdentity with
        | none =>
            throw (.invalidState "generation baseline path has no clean base identity".toList)
        | some identity =>
            if identity.projectionId ≠ path.projectionId ∨
                identity.logicalPath ≠ path.logicalPath then
              throw (.invalidState
                "generation path base identity does not match its row".toList)
            else if path.state ≠ .clean ∨ path.localLogicalPath ≠ path.logicalPath ∨
                path.incomingIdentity.isSome ∨ path.basePayload.isSome ∨
                path.conflictPayload.isSome then
              throw (.invalidState
                "generation baseline path is not a complete clean base".toList)
            else do
              let identities ← validateSeedPaths observed (path.projectionId :: projections)
                (logicalKey :: logicalPaths) (localKey :: localPaths) paths
              return identity :: identities

def identitiesByProjection (identities : List GenerationFileIdentity) :
    List GenerationFileIdentity :=
  identities.insertionSort fun identity identity' =>
    byteOrder identity.projectionId.value ≤ byteOrder identity'.projectionId.value

def validateSeedGeneration (observed : ObservedGenerationRecord)
    (paths : List GenerationPathRecord) : StoreResult Unit := do
  if observed.workspaceLayoutVersion = 0 ∨ observed.workspaceLayoutDigest = [] ∨
      observed.inventorySha256 = [] ∨ observed.updatedAt = [] then
    throw (.invalidState "observed generation has incomplete metadata".toList)
  else
    let inventory ← validateSeedPaths codec observed [] [] [] paths
    let inventorySha256 ← ofBaseline (baselineTargetInventorySha256 codec.unicode codec.sha256
      (identitiesByProjection inventory))
    if inventorySha256 ≠ observed.inventorySha256 then
      throw (.invalidState
        "observed generation inventory does not match its complete path identities".toList)
    else pure ()

def fitsDeliveryId (value : Text) : Bool := decide ((asBytes value).length ≤ maxDeliveryIdBytes)

def generationSeedRefreshMode (observed : ObservedGenerationRecord)
    (paths : List GenerationPathRecord) : GenerationBaselineRefreshModeV1 :=
  let identifiersFit :=
    !observed.mountId.value.isEmpty && fitsDeliveryId observed.mountId.value &&
    !observed.sourceConnectionId.value.isEmpty &&
    fitsDeliveryId observed.sourceConnectionId.value &&
    fitsDeliveryId observed.generationId.value &&
    paths.all fun path =>
      !path.projectionId.value.isEmpty && fitsDeliveryId path.projectionId.value &&
        (path.baseIdentity.toList ++ path.incomingIdentity.toList).all fun identity =>
          identity.validate.isOk
  if identifiersFit then .generationDeltaV1 else .fullExportOnly

/-- The seeds of a baseline, each checked on its own, under the layout of the first. -/
def validateSeeds : Option (UInt16 × Text) → List GenerationBaselineSeedRecordV2 →
    StoreResult Unit
  | _, [] => pure ()
  | baselineLayout, seed :: seeds => do
      let observed := seed.seed.observed
      validateSeedGeneration codec observed seed.seed.paths
      let layout := (observed.workspaceLayoutVersion, observed.workspaceLayoutDigest)
      if baselineLayout.any fun existing => existing ≠ layout then
        throw (.invalidState
          "generation baseline mounts do not share one workspace layout".toList)
      else if seed.refreshMode ≠ generationSeedRefreshMode observed seed.seed.paths then
        throw (.invalidState ("mount ".toList ++ quoted observed.mountId.value ++
          " source ".toList ++ quoted observed.sourceConnectionId.value ++
          " baseline refresh mode does not match its generation state".toList))
      else validateSeeds (some layout) seeds

def sortSeedPaths (seed : GenerationBaselineSeedRecordV2) : GenerationBaselineSeedRecordV2 :=
  { seed with seed := { seed.seed with paths := byProjection seed.seed.paths } }

def sortSeeds (seeds : List GenerationBaselineSeedRecordV2) :
    List GenerationBaselineSeedRecordV2 :=
  seeds.insertionSort fun seed seed' =>
    byteOrder seed.seed.observed.mountId.value < byteOrder seed'.seed.observed.mountId.value ∨
      seed.seed.observed.mountId = seed'.seed.observed.mountId ∧
        byteOrder seed.seed.observed.sourceConnectionId.value ≤
          byteOrder seed'.seed.observed.sourceConnectionId.value

def seedKeys (seeds : List GenerationBaselineSeedRecordV2) : List SourceKey :=
  seeds.map fun seed => seed.seed.observed.key

/-- A mount that may take a baseline: no apply is active, and the seeds are for exactly the
sources that it has, if it has any. -/
def validateSeedMount (self : GenerationStore) (seeds : List GenerationBaselineSeedRecordV2)
    (mountId : MountId) : StoreResult Unit :=
  match self.activeJournal mountId with
  | some journal =>
      throw (.invalidState ("mount ".toList ++ quoted mountId.value ++
        " cannot seed a generation baseline while apply ".toList ++ quoted journal.key ++
        " is active".toList))
  | none =>
      let existingSources := (self.listObservedGenerations mountId).map
        ObservedGenerationRecord.sourceConnectionId
      let incomingSources := ((seedKeys seeds).filter fun key => key.1 = mountId).map Prod.snd
      if existingSources ≠ [] ∧ (¬ existingSources ⊆ incomingSources ∨
          ¬ incomingSources ⊆ existingSources) then
        throw (.invalidState ("mount ".toList ++ quoted mountId.value ++
          " already has a generation baseline; replay must include every exact source".toList))
      else pure ()

/-- The seeds that are not replays; a replay must be an exact one. -/
def newSeeds (self : GenerationStore) : List GenerationBaselineSeedRecordV2 →
    StoreResult (List GenerationBaselineSeedRecordV2)
  | [] => return []
  | seed :: seeds =>
      match self.observed.lookup seed.seed.observed.key with
      | none => do
          let rest ← self.newSeeds seeds
          return seed :: rest
      | some existing =>
          if existing.observed ≠ seed.seed.observed ∨ existing.refreshMode ≠ seed.refreshMode ∨
              self.listGenerationPathsForSource seed.seed.observed.key ≠ seed.seed.paths then
            throw (.invalidState ("mount ".toList ++ quoted seed.seed.observed.mountId.value ++
              " source ".toList ++ quoted seed.seed.observed.sourceConnectionId.value ++
              " already has a different observed generation".toList))
          else self.newSeeds seeds

/-- The projections and the paths that are taken, with their mounts. -/
structure Claims where
  projections : List (MountId × ProjectionId)
  logicalPaths : List (MountId × Text)
  localPaths : List (MountId × Text)

def Claims.claim (self : Claims) (mountId : MountId) (path : GenerationPathRecord) :
    StoreResult Claims :=
  let logicalKey := (mountId, path.logicalPath.portableCollisionKey codec.unicode)
  let localKey := (mountId, path.localLogicalPath.portableCollisionKey codec.unicode)
  if (mountId, path.projectionId) ∈ self.projections ∨ logicalKey ∈ self.logicalPaths ∨
      localKey ∈ self.localPaths then
    throw (.invalidState ("mount ".toList ++ quoted mountId.value ++
      " generation baseline has a projection or path collision".toList))
  else
    return ⟨(mountId, path.projectionId) :: self.projections, logicalKey :: self.logicalPaths,
      localKey :: self.localPaths⟩

def claimsOf (self : GenerationStore) (mounts : List MountId) : Claims :=
  let paths := (self.paths.table.rows.map GenerationPathRow.path).filter fun path =>
    path.mountId ∈ mounts
  { projections := paths.map fun path => (path.mountId, path.projectionId)
    logicalPaths := paths.map fun path =>
      (path.mountId, path.logicalPath.portableCollisionKey codec.unicode)
    localPaths := paths.map fun path =>
      (path.mountId, path.localLogicalPath.portableCollisionKey codec.unicode) }

def claimSeeds : Claims → List GenerationBaselineSeedRecordV2 → StoreResult Claims
  | claims, [] => return claims
  | claims, seed :: seeds => do
      let claims ← seed.seed.paths.foldlM
        (fun claims path => claims.claim codec seed.seed.observed.mountId path) claims
      claimSeeds claims seeds

def insertSeed (self : GenerationStore) (seed : GenerationBaselineSeedRecordV2) :
    StoreResult GenerationStore :=
  let store := { self with
    observed := self.observed.put ⟨seed.seed.observed, seed.refreshMode⟩ }
  seed.seed.paths.foldlM
    (fun store path => store.insertPath ⟨seed.seed.observed.sourceConnectionId, path⟩) store

def seedObservedGenerationsV2 (self : GenerationStore)
    (seeds : List GenerationBaselineSeedRecordV2) : StoreResult GenerationStore := do
  validateSeeds codec none seeds
  let seeds := sortSeeds (seeds.map sortSeedPaths)
  if ¬ (seedKeys seeds).Nodup then
    throw (.invalidState "generation baseline repeats a mount/source record".toList)
  else
    (seedKeys seeds).forM fun key =>
      if key.1 ∈ self.mounts then pure () else throw (.mountMissing key.1)
    let mounts := ((seedKeys seeds).map Prod.fst).dedup
    mounts.forM (self.validateSeedMount seeds)
    let inserted ← self.newSeeds seeds
    let _ ← claimSeeds codec (self.claimsOf codec mounts) inserted
    inserted.foldlM insertSeed self

end Seeding

/-! ## Resetting -/

def resetObservedGenerationSource (self : GenerationStore) (source : SourceKey) :
    StoreResult GenerationStore :=
  let about := "mount ".toList ++ quoted source.1.value ++ " source ".toList ++
    quoted source.2.value
  match self.journals.rows.find? fun journal => journal.mountId = source.1 &&
      (journal.active || decide (journal.source = source) && journal.acknowledgmentRequired &&
        journal.acknowledgedAt.isNone) with
  | some journal =>
      throw (.invalidState (about ++ " cannot reset generation delivery while apply ".toList ++
        quoted journal.key ++ " is active or unacknowledged".toList))
  | none =>
      match (self.pathRowsOfSource source).find? fun row => row.path.state ≠ .clean with
      | some row =>
          let state := if row.path.state = .dirty then "dirty" else "conflicted"
          throw (.invalidState (about ++ " cannot reset generation path ".toList ++
            quoted row.path.projectionId.value ++ " while it is ".toList ++ state.toList))
      | none =>
          match self.evidence.rows.find? fun evidence =>
              (self.journals.lookup evidence.deltaId).any fun journal =>
                journal.source = source with
          | some evidence =>
              throw (.invalidState (about ++
                " cannot reset while displaced inode evidence for ".toList ++
                quoted evidence.logicalPath.value ++ " is retained".toList))
          | none =>
              return { self with
                journals := self.journals.eraseWhere fun journal =>
                  journal.source = source && !journal.active
                observed := self.observed.eraseWhere fun record => record.key = source
                paths := self.paths.eraseWhere fun row => row.source = source }

/-! ## Reserving -/

/-- A replay of the reservation that the journal is of. -/
def isReplay (existing : StoredGenerationApply) (prepared : PreparedGenerationApplyV3) : Bool :=
  decide (existing.delta = prepared.apply.delta ∧ existing.receipt = prepared.apply.receipt ∧
    existing.receiptSha256 = prepared.apply.receiptSha256 ∧
    existing.stageRoot = prepared.apply.stageRoot ∧
    existing.createdAt = prepared.apply.createdAt) &&
  match existing.selectionBinding with
  | .bound capabilities =>
      decide (capabilities = prepared.selectedCapabilities ∧
        existing.acknowledgmentRequired =
          prepared.selectedCapabilities.terminalReceiptAcknowledgments)
  | .preBindingCompleted _ => decide (existing.status = .completed)

/-- Every old identity is the one that its path was delivered with. -/
def validateOldIdentities (self : GenerationStore) (source : SourceKey) :
    List GenerationDeltaEntry → StoreResult Unit
  | [] => pure ()
  | entry :: entries =>
      match entry.old with
      | none => self.validateOldIdentities source entries
      | some old =>
          let about := "delta old projection ".toList ++ quoted old.projectionId.value
          match self.selectGenerationPath source old.projectionId with
          | none => throw (.invalidState (about ++ " has no local merge base".toList))
          | some path =>
              if path.remoteIdentity ≠ some old then
                throw (.invalidState (about ++ " does not match local merge state".toList))
              else self.validateOldIdentities source entries

def newJournal (prepared : PreparedGenerationApplyV3) : StoredGenerationApply where
  delta := prepared.apply.delta
  receipt := prepared.apply.receipt
  receiptSha256 := prepared.apply.receiptSha256
  selectionBinding := .bound prepared.selectedCapabilities
  acknowledgmentRequired := prepared.selectedCapabilities.terminalReceiptAcknowledgments
  acknowledgedAt := none
  stageRoot := prepared.apply.stageRoot
  status := .staged
  outcomes := []
  createdAt := prepared.apply.createdAt
  updatedAt := prepared.apply.createdAt
  completedAt := none

def reserveGenerationApplyV3 (codec : Codec) (self : GenerationStore)
    (prepared : PreparedGenerationApplyV3) :
    StoreResult (StoredGenerationApply × GenerationStore) := do
  ofTransport prepared.selectedCapabilities.validate
  prepared.apply.validate codec
  let delta := prepared.apply.delta
  match self.journals.lookup delta.deltaId with
  | some existing =>
      if isReplay existing prepared then return (existing, self)
      else
        throw (.invalidState ("generation apply ".toList ++ quoted delta.deltaId ++
          " replay changed its immutable payload".toList))
  | none =>
      let source : SourceKey := (⟨delta.mountId.value⟩, delta.sourceConnectionId)
      let about := "mount ".toList ++ quoted delta.mountId.value
      match self.observed.lookup source with
      | none =>
          throw (.invalidState (about ++ " source ".toList ++
            quoted delta.sourceConnectionId.value ++ " has no observed generation".toList))
      | some record =>
          if record.refreshMode ≠ .generationDeltaV1 then
            throw (.invalidState (about ++ " source ".toList ++
              quoted delta.sourceConnectionId.value ++ " requires a full export".toList))
          else if record.observed.generationId ≠ delta.baseGenerationId ∨
              record.observed.workspaceLayoutVersion ≠ delta.workspaceLayoutVersion ∨
              record.observed.workspaceLayoutDigest ≠ delta.workspaceLayoutDigest.value then
            throw (.invalidState (about ++
              " generation or layout does not match delta base".toList))
          else
            self.validateOldIdentities source delta.entries
            match self.activeJournal source.1 with
            | some journal =>
                throw (.invalidState ("mount already has active generation apply ".toList ++
                  quoted journal.key))
            | none =>
                return (newJournal prepared,
                  { self with journals := self.journals.put (newJournal prepared) })

/-! ## Applying -/

def requireJournal (self : GenerationStore) (deltaId : Text) :
    StoreResult StoredGenerationApply :=
  match self.journals.lookup deltaId with
  | some journal => return journal
  | none =>
      throw (.invalidState ("generation apply ".toList ++ quoted deltaId ++
        " is missing".toList))

def putJournal (self : GenerationStore) (journal : StoredGenerationApply) : GenerationStore :=
  { self with journals := self.journals.put journal }

def markGenerationApplyStarted (self : GenerationStore) (deltaId updatedAt : Text) :
    StoreResult GenerationStore := do
  let journal ← self.requireJournal deltaId
  if journal.status = .completed then return self
  else return self.putJournal { journal with status := .applying, updatedAt := updatedAt }

/-- The outcome among the others, in the order of their indices. -/
def insertOutcome (entryIndex : Nat) (outcome : GenerationApplyOutcome)
    (outcomes : List (Nat × GenerationApplyOutcome)) : List (Nat × GenerationApplyOutcome) :=
  outcomes.orderedInsert (fun a b => a.1 ≤ b.1) (entryIndex, outcome)

def recordGenerationApplyOutcome (self : GenerationStore) (deltaId : Text) (entryIndex : Nat)
    (outcome : GenerationApplyOutcome) (updatedAt : Text) : StoreResult GenerationStore := do
  let journal ← self.requireJournal deltaId
  let about := "generation apply ".toList ++ quoted deltaId
  if journal.status = .completed then
    if journal.outcomeAt entryIndex = some outcome then return self
    else
      throw (.invalidState ("completed ".toList ++ about ++ " outcome changed".toList))
  else if journal.delta.entries.length ≤ entryIndex then
    throw (.invalidState (about ++ " outcome index is out of bounds".toList))
  else
    match journal.outcomeAt entryIndex with
    | some existing =>
        if existing = outcome then return self
        else throw (.invalidState (about ++ " outcome replay changed".toList))
    | none =>
        return self.putJournal { journal with
          status := .applying
          updatedAt := updatedAt
          outcomes := insertOutcome entryIndex outcome journal.outcomes }

def markGenerationAcknowledged (self : GenerationStore)
    (deltaId receiptSha256 acknowledgedAt : Text) : StoreResult GenerationStore := do
  if acknowledgedAt = [] then
    throw (.invalidState "generation acknowledgment timestamp must not be empty".toList)
  else
    let journal ← self.requireJournal deltaId
    if journal.status ≠ .completed ∨ journal.acknowledgmentRequired = false ∨
        journal.receiptSha256 ≠ receiptSha256 then
      throw (.invalidState ("generation acknowledgment ".toList ++ quoted deltaId ++
        " does not match a completed required receipt".toList))
    else if journal.acknowledgedAt.isSome then return self
    else
      return self.putJournal { journal with
        acknowledgedAt := some acknowledgedAt
        updatedAt := acknowledgedAt }

/-! ## Completing -/

/-- The row of a path that now holds the new identity of an entry. -/
def deliveredRow (journal : StoredGenerationApply) (entryIndex : Nat)
    (new : GenerationFileIdentity) (state : GenerationPathState) (completedAt : Text) :
    GenerationPathRow where
  sourceConnectionId := journal.delta.sourceConnectionId
  path := {
    mountId := journal.mountId
    projectionId := new.projectionId
    logicalPath := new.logicalPath
    localLogicalPath := new.logicalPath
    baseGenerationId := journal.delta.targetGenerationId
    baseIdentity := some new
    basePayload := some (journal.key, entryIndex)
    conflictPayload := none
    state := state
    incomingIdentity := none
    updatedAt := completedAt }

/-- The row of a path that keeps its base and its local path in a conflict. -/
def conflictedRow (journal : StoredGenerationApply) (entryIndex : Nat)
    (entry : GenerationDeltaEntry) (identity : GenerationFileIdentity)
    (existing : Option GenerationPathRecord) (retained : Bool)
    (incomingIdentity : Option GenerationFileIdentity) (completedAt : Text) :
    GenerationPathRow where
  sourceConnectionId := journal.delta.sourceConnectionId
  path := {
    mountId := journal.mountId
    projectionId := identity.projectionId
    logicalPath := identity.logicalPath
    localLogicalPath := (existing.map GenerationPathRecord.localLogicalPath).getD
      identity.logicalPath
    baseGenerationId := (existing.map GenerationPathRecord.baseGenerationId).getD
      journal.delta.baseGenerationId
    baseIdentity := existing.elim entry.old GenerationPathRecord.baseIdentity
    basePayload := existing.bind GenerationPathRecord.basePayload
    conflictPayload := if retained && entry.new.isSome then some (journal.key, entryIndex)
      else none
    state := .conflicted
    incomingIdentity := incomingIdentity
    updatedAt := completedAt }

/-- What the outcome of one entry does to its path.  A validated entry has an identity. -/
def completeEntry (self : GenerationStore) (journal : StoredGenerationApply) (entryIndex : Nat)
    (entry : GenerationDeltaEntry) (outcome : GenerationApplyOutcome) (completedAt : Text) :
    StoreResult GenerationStore :=
  let delivered (state : GenerationPathState) (missing : String) : StoreResult GenerationStore :=
    match entry.new with
    | none => throw (.invalidState missing.toList)
    | some new =>
        self.upsertPath (deliveredRow journal entryIndex new state completedAt)
          "generation apply crossed a source-owned projection"
  let conflicted (retained : Bool) (incomingIdentity : Option GenerationFileIdentity) :
      StoreResult GenerationStore :=
    match entry.new.orElse fun _ => entry.old with
    | none => throw .database
    | some identity =>
        self.upsertPath (conflictedRow journal entryIndex entry identity
          (self.selectGenerationPath journal.source identity.projectionId) retained
          incomingIdentity completedAt)
          "generation conflict crossed a source-owned projection"
  match outcome with
  | .applied => delivered .clean "applied outcome has no new identity"
  | .merged => delivered .dirty "merged outcome has no new identity"
  | .deleted =>
      match entry.old with
      | none => throw (.invalidState "deleted outcome has no old identity".toList)
      | some old =>
          if entry.new.isSome then
            throw (.invalidState "deleted outcome names a non-deletion entry".toList)
          else if (self.selectGenerationPath journal.source old.projectionId).isNone then
            throw (.invalidState "generation deletion crossed a source-owned projection".toList)
          else
            return { self with
              paths := self.paths.eraseWhere fun row =>
                row.source = journal.source && decide (row.path.projectionId = old.projectionId) }
  | .conflict _ incomingIdentity => conflicted true incomingIdentity
  | .conflictOverQuota _ incomingIdentity => conflicted false incomingIdentity

/-- The entries from an index on, each with its outcome. -/
def completeEntries (journal : StoredGenerationApply) (completedAt : Text) :
    Nat → List (GenerationDeltaEntry × GenerationApplyOutcome) → GenerationStore →
      StoreResult GenerationStore
  | _, [], store => return store
  | entryIndex, (entry, outcome) :: rest, store => do
      let store ← store.completeEntry journal entryIndex entry outcome completedAt
      completeEntries journal completedAt (entryIndex + 1) rest store

/-- The head that a completed journal leaves. -/
def advance (journal : StoredGenerationApply) (completedAt : Text)
    (record : ObservedGenerationRecordV2) : ObservedGenerationRecordV2 :=
  { record with observed := { record.observed with
    generationId := journal.delta.targetGenerationId
    inventorySha256 := journal.delta.targetInventorySha256
    workspaceLayoutVersion := journal.delta.workspaceLayoutVersion
    workspaceLayoutDigest := journal.delta.workspaceLayoutDigest.value
    lastReceiptSha256 := some journal.receiptSha256
    updatedAt := completedAt } }

def completeGenerationApply (self : GenerationStore) (deltaId completedAt : Text) :
    StoreResult GenerationStore := do
  let journal ← self.requireJournal deltaId
  if journal.status = .completed then return self
  else if journal.outcomes.map Prod.fst ≠ List.range journal.delta.entries.length then
    throw (.invalidState ("generation apply ".toList ++ quoted deltaId ++
      " does not have one outcome per entry".toList))
  else
    let store ← completeEntries journal completedAt 0
      (journal.delta.entries.zip (journal.outcomes.map Prod.snd)) self
    match store.observed.lookup journal.source with
    | some record =>
        if record.observed.generationId ≠ journal.delta.baseGenerationId then
          throw (.invalidState ("mount ".toList ++ quoted journal.mountId.value ++
            " observed generation changed during apply".toList))
        else
          return { store with
            observed := store.observed.put (advance journal completedAt record)
            journals := store.journals.put { journal with
              status := .completed
              updatedAt := completedAt
              completedAt := some completedAt } }
    | none =>
        throw (.invalidState ("mount ".toList ++ quoted journal.mountId.value ++
          " observed generation changed during apply".toList))

/-! ## Evidence of displaced files -/

def recordGenerationInodeEvidence (self : GenerationStore)
    (evidence : GenerationInodeEvidenceRecord) : StoreResult GenerationStore := do
  if evidence.resolvedAt.isSome then
    throw (.invalidState "new generation inode evidence cannot start resolved".toList)
  else
    let _ ← asI64 evidence.entryIndex "generation evidence index is too large"
    let _ ← asI64 evidence.capturedByteLength.toNat "generation evidence length is too large"
    match self.evidence.lookup evidence.key with
    | some existing =>
        if existing = { evidence with visibleEvidence := none } then return self
        else throw (.invalidState "generation inode evidence replay changed".toList)
    | none =>
        if (self.journals.lookup evidence.deltaId).isNone ∨ evidence.mountId ∉ self.mounts then
          throw .database
        else
          return { self with
            evidence := self.evidence.put { evidence with visibleEvidence := none } }

/-- `outcomes` with another outcome in the place of an index. -/
def convertOutcome (entryIndex : Nat) (outcome : GenerationApplyOutcome)
    (outcomes : List (Nat × GenerationApplyOutcome)) : List (Nat × GenerationApplyOutcome) :=
  outcomes.map fun (index, existing) => (index, if index = entryIndex then outcome else existing)

/-- The row of a path whose completed delivery turned out to be in conflict. -/
def lateConflictRow (journal : StoredGenerationApply) (entryIndex : Nat)
    (entry : GenerationDeltaEntry) (old : GenerationFileIdentity)
    (existing : Option GenerationPathRecord) (basePayload : Option PayloadKey)
    (wasOverQuota : Bool) (updatedAt : Text) : GenerationPathRow where
  sourceConnectionId := journal.delta.sourceConnectionId
  path := {
    mountId := journal.mountId
    projectionId := old.projectionId
    logicalPath := (entry.new.map GenerationFileIdentity.logicalPath).getD old.logicalPath
    localLogicalPath := (existing.map GenerationPathRecord.localLogicalPath).getD
      old.logicalPath
    baseGenerationId := journal.delta.baseGenerationId
    baseIdentity := some old
    basePayload := basePayload
    conflictPayload := if entry.new.isSome && !wasOverQuota then some (journal.key, entryIndex)
      else none
    state := .conflicted
    incomingIdentity := entry.new
    updatedAt := updatedAt }

def isOverQuota : GenerationApplyOutcome → Bool
  | .conflictOverQuota _ _ => true
  | _ => false

def markGenerationInodeEvidenceConflict (self : GenerationStore) (deltaId : Text)
    (entryIndex : Nat) (update : GenerationInodeEvidenceConflictUpdate) :
    StoreResult GenerationStore := do
  let journal ← self.requireJournal deltaId
  if journal.status ≠ .completed then
    throw (.invalidState "late inode conflict requires a completed generation apply".toList)
  else
    match journal.delta.entries[entryIndex]? with
    | none => throw (.invalidState "generation evidence index is out of bounds".toList)
    | some entry =>
        match entry.old with
        | none => throw (.invalidState "generation evidence entry has no old identity".toList)
        | some old =>
            match self.evidence.lookup (deltaId, entryIndex) with
            | none =>
                throw (.invalidState
                  "generation inode evidence disappeared during conflict conversion".toList)
            | some evidence =>
                let wasOverQuota := (journal.outcomeAt entryIndex).any isOverQuota
                let existing := self.selectGenerationPath journal.source old.projectionId
                let store ← self.upsertPath (lateConflictRow journal entryIndex entry old
                  existing evidence.basePayload wasOverQuota update.updatedAt)
                  "generation inode conflict crossed a source-owned projection"
                let outcome : GenerationApplyOutcome :=
                  if wasOverQuota then .conflictOverQuota (some update.localSha256) entry.new
                  else .conflict (some update.localSha256) entry.new
                let _ ← asI64 update.capturedByteLength.toNat
                  "generation evidence length is too large"
                update.visibleEvidence.forM fun visible => do
                  let _ ← asI64 visible.capturedByteLength.toNat
                    "visible generation evidence length is too large"
                return { store with
                  journals := store.journals.put { journal with
                    outcomes := convertOutcome entryIndex outcome journal.outcomes }
                  evidence := store.evidence.put { evidence with
                    capturedSha256 := update.capturedSha256
                    capturedByteLength := update.capturedByteLength
                    visibleEvidence := update.visibleEvidence
                    resolvedAt := none } }

/-- The row of a path whose late conflict was resolved by one of the retained versions. -/
def resolvedRow (journal : StoredGenerationApply) (entryIndex : Nat)
    (new : GenerationFileIdentity) (existing : Option GenerationPathRecord) (updatedAt : Text) :
    GenerationPathRow where
  sourceConnectionId := journal.delta.sourceConnectionId
  path := {
    mountId := journal.mountId
    projectionId := new.projectionId
    logicalPath := new.logicalPath
    localLogicalPath := (existing.map GenerationPathRecord.localLogicalPath).getD
      new.logicalPath
    baseGenerationId := journal.delta.targetGenerationId
    baseIdentity := some new
    basePayload := some (journal.key, entryIndex)
    conflictPayload := none
    state := .dirty
    incomingIdentity := none
    updatedAt := updatedAt }

def markGenerationInodeEvidenceResolved (self : GenerationStore) (deltaId : Text)
    (entryIndex : Nat) (resolution : GenerationInodeEvidenceResolution) :
    StoreResult GenerationStore := do
  let journal ← self.requireJournal deltaId
  if journal.status ≠ .completed then
    throw (.invalidState
      "inode evidence resolution requires a completed generation apply".toList)
  else
    match journal.delta.entries[entryIndex]? with
    | none => throw (.invalidState "generation evidence index is out of bounds".toList)
    | some entry =>
        match entry.new with
        | none =>
            throw (.invalidState
              "retained inode resolution requires an incoming identity".toList)
        | some new => do
            let _ ← asI64 resolution.capturedByteLength.toNat
              "generation evidence length is too large"
            let _ ← asI64 resolution.visibleCapturedByteLength.toNat
              "visible generation evidence length is too large"
            match (self.evidence.lookup (deltaId, entryIndex)).filter fun evidence =>
                evidence.visibleEvidence.isSome && evidence.resolvedAt.isNone with
            | none =>
                throw (.invalidState
                  "generation inode evidence disappeared during resolution".toList)
            | some evidence =>
                if evidence.capturedSha256 ≠ resolution.capturedSha256 ∨
                    evidence.capturedByteLength ≠ resolution.capturedByteLength ∨
                    evidence.visibleEvidence.map
                        GenerationRetainedInodeRecord.capturedSha256 ≠
                      some resolution.visibleCapturedSha256 ∨
                    evidence.visibleEvidence.map
                        GenerationRetainedInodeRecord.capturedByteLength ≠
                      some resolution.visibleCapturedByteLength then
                  throw (.invalidState
                    "generation inode evidence changed during resolution".toList)
                else
                  let existing := self.selectGenerationPath journal.source new.projectionId
                  let store ← self.upsertPath (resolvedRow journal entryIndex new existing
                    resolution.updatedAt)
                    "generation inode resolution crossed a source-owned projection"
                  return { store with
                    journals := store.journals.put { journal with
                      outcomes := convertOutcome entryIndex .merged journal.outcomes }
                    evidence := store.evidence.put { evidence with
                      resolvedAt := some resolution.updatedAt } }

def removeGenerationInodeEvidence (self : GenerationStore) (deltaId : Text) (entryIndex : Nat) :
    StoreResult GenerationStore := do
  let _ ← asI64 entryIndex "generation evidence index is too large"
  return { self with
    evidence := self.evidence.eraseWhere fun evidence =>
      evidence.key = (deltaId, entryIndex) }

end GenerationStore

end Locality.Delivery
