/-
  Discovery/Preflight.lean --- the checks that a discovery commit passes before it is
  applied, and what they compute: `DiscoveryCommit::preflight_details` of
  `locality-store/src/discovery.rs`.

  Whether a text is JSON is the JSON parser's to say: `jsonError` is its complaint.
-/
import Locality.Discovery.Records

set_option autoImplicit false

namespace Locality.Discovery

open Locality.Core Locality.Foundation
open Locality.Daemon (EntityKey EntityRecord StoreError)

/-! ## Checks of lists -/

/-- A check that is refused. -/
def refuse (p : Prop) [Decidable p] (message : Text) : StoreResult Unit :=
  if p then invalid message else pure ()

/-- Each row is checked against the rows before it. -/
def checkRows {ρ : Type} (check : List ρ → ρ → StoreResult Unit) :
    List ρ → List ρ → StoreResult Unit
  | _, [] => pure ()
  | before, row :: rows => do
      check before row
      checkRows check (row :: before) rows

def validateMount (recordKind : Text) (remoteId : RemoteId) (actual expected : MountId) :
    StoreResult Unit :=
  refuse (actual ≠ expected)
    ("discovery ".toList ++ recordKind ++ " ".toList ++ quoted remoteId.value ++
      " belongs to mount ".toList ++ quoted actual.value ++ ", expected ".toList ++
      quoted expected.value)

/-- A row of an entity, in its mount, and no second one of the entity. -/
def checkEntityRow {ρ : Type} (recordKind upsertKind : Text) (mountId : MountId)
    (key : ρ → EntityKey) (before : List ρ) (row : ρ) : StoreResult Unit := do
  validateMount recordKind (key row).2 (key row).1 mountId
  refuse (∃ row' ∈ before, (key row').2 = (key row).2)
    ("discovery commit contains duplicate ".toList ++ upsertKind ++ " upsert ".toList ++
      quoted (key row).2.value)

/-- An identifier that is not empty, and no second one like it. -/
def checkIdentifier (empty duplicate : Text) (before : List Text) (identifier : Text) :
    StoreResult Unit := do
  refuse (identifier = []) empty
  refuse (identifier ∈ before) (duplicate ++ quoted identifier)

/-! ## Tables of the preflight -/

/-- The values of a `BTreeSet`. -/
def sortedSet {κ : Type} [Ranked κ] [DecidableEq κ] (keys : List κ) : List κ :=
  ((.empty : RankedTable (id : κ → κ)).putAll keys).all

/-- A `BTreeMap` of entities by their remote ids. -/
abbrev EntityMap : Type := RankedTable EntityRecord.remoteId

/-- A `BTreeMap` of enrollments by their paths. -/
abbrev EnrollmentMap : Type := RankedTable AutoSaveEnrollmentRecord.path

structure PathMove where
  remoteId : RemoteId
  oldPath : PathBuf
  newPath : PathBuf
  deriving DecidableEq, Repr

structure AutoSaveRehome where
  oldPath : PathBuf
  enrollment : AutoSaveEnrollmentRecord
  deriving DecidableEq, Repr

/-- `DiscoveryPreflight`; the paths of the deleted entities stand in the order of the
deletes. -/
structure DiscoveryPreflight where
  finalEntities : EntityMap
  entityDeletes : List RemoteId
  deletedPaths : List (RemoteId × PathBuf)
  pathMoves : List PathMove
  autoSaveRehomes : List AutoSaveRehome

def autoSaveOwner (enrollment : AutoSaveEnrollmentRecord) : Text :=
  match enrollment.remoteId with
  | none => "path".toList
  | some remoteId => remoteId.value

def pathIsAffected (path : PathBuf) (affectedPaths : List PathBuf) : Bool :=
  affectedPaths.any fun affected =>
    path == affected || path.startsWith affected || affected.startsWith path

/-- The enrollment is of the entity, or lies at its path. -/
def isCandidate (remoteId : RemoteId) (ownedPath : Option PathBuf)
    (enrollment : AutoSaveEnrollmentRecord) : Bool :=
  enrollment.remoteId == some remoteId || some enrollment.path == ownedPath

def multipleEnrollments (remoteId : RemoteId) : Text :=
  "multiple auto-save enrollments belong to entity ".toList ++ quoted remoteId.value

def discoveryAutoSaveCandidate (enrollments : List AutoSaveEnrollmentRecord)
    (remoteId : RemoteId) (ownedPath : Option PathBuf) :
    StoreResult (Option AutoSaveEnrollmentRecord) := do
  let placed := enrollments.find? fun enrollment => some enrollment.path == ownedPath
  match placed, placed.bind (·.remoteId) with
  | some enrollment, some owner =>
      refuse (owner ≠ remoteId)
        ("auto-save enrollment at ".toList ++ quoted (displayPath enrollment.path) ++
          " belongs to ".toList ++ quoted owner.value ++ " instead of ".toList ++
          quoted remoteId.value)
  | _, _ => pure ()
  let candidates := enrollments.filter (isCandidate remoteId ownedPath)
  refuse (1 < candidates.length) (multipleEnrollments remoteId)
  pure candidates.head?

namespace DiscoveryCommit

/-! ## Validation -/

def validateEntities (commit : DiscoveryCommit) : StoreResult Unit :=
  checkRows (fun before (entity : EntityRecord) => do
    checkEntityRow "entity".toList "entity".toList commit.mountId EntityRecord.key before entity
    refuse (∃ entity' ∈ before, entity'.path = entity.path)
      ("discovery commit contains duplicate entity path ".toList ++
        quoted (displayPath entity.path))) [] commit.entityUpserts

def validateDeletes (commit : DiscoveryCommit) : StoreResult Unit :=
  checkRows (fun before remoteId =>
    refuse (remoteId ∈ before)
      ("discovery commit contains duplicate entity delete ".toList ++ quoted remoteId.value))
    [] commit.entityDeletes

def validateObservations (commit : DiscoveryCommit) : StoreResult Unit :=
  checkRows (checkEntityRow "observation".toList "observation".toList commit.mountId
    RemoteObservationRecord.key) [] commit.observationUpserts

def validateFreshness (commit : DiscoveryCommit) : StoreResult Unit :=
  checkRows (checkEntityRow "freshness state".toList "freshness".toList commit.mountId
    FreshnessStateRecord.key) [] commit.freshnessUpserts

def validateAutoSaves (commit : DiscoveryCommit) : StoreResult Unit :=
  checkRows (fun before (enrollment : AutoSaveEnrollmentRecord) => do
    refuse (enrollment.mountId ≠ commit.mountId)
      ("discovery auto-save enrollment ".toList ++ quoted (displayPath enrollment.path) ++
        " belongs to mount ".toList ++ quoted enrollment.mountId.value ++
        ", expected ".toList ++ quoted commit.mountId.value)
    refuse (∃ enrollment' ∈ before, enrollment'.path = enrollment.path)
      ("discovery commit contains duplicate auto-save path ".toList ++
        quoted (displayPath enrollment.path))
    refuse (enrollment.remoteId ≠ none ∧
        ∃ enrollment' ∈ before, enrollment'.remoteId = enrollment.remoteId)
      ("discovery commit contains duplicate auto-save owner ".toList ++
        quoted (autoSaveOwner enrollment))) [] commit.autoSaveUpserts

def validateContradictions (commit : DiscoveryCommit) : StoreResult Unit :=
  (sortedSet commit.entityDeletes).forM fun remoteId =>
    refuse (remoteId ∈ commit.entityUpserts.map (·.remoteId) ∨
        remoteId ∈ commit.observationUpserts.map (·.remoteId) ∨
        remoteId ∈ commit.freshnessUpserts.map (·.remoteId))
      ("discovery commit both deletes and upserts ".toList ++ quoted remoteId.value)

def validateMetadataDeletes (commit : DiscoveryCommit) : StoreResult Unit :=
  checkRows (checkIdentifier "discovery metadata job identifier cannot be empty".toList
    "discovery commit contains duplicate metadata job delete ".toList) []
    commit.metadataDiscoveryDeletes

def validateMutationDeletes (commit : DiscoveryCommit) : StoreResult Unit :=
  checkRows (checkIdentifier "discovery virtual mutation identifier cannot be empty".toList
    "discovery commit contains duplicate virtual mutation delete ".toList) []
    commit.virtualMutationDeletes

def validateCheckpoint (jsonError : Text → Option Text) (commit : DiscoveryCommit) :
    StoreResult Unit := do
  let checkpoint := commit.checkpoint
  refuse (checkpoint.connector = []) "discovery checkpoint connector cannot be empty".toList
  refuse (checkpoint.scopeKind ≠ "mount".toList ∨ checkpoint.scopeId ≠ commit.mountId.value)
    ("discovery checkpoint must use mount scope ".toList ++ quoted commit.mountId.value)
  refuse (checkpoint.stateVersion ≤ 0 ∨ checkpoint.minReaderVersion ≤ 0)
    "discovery checkpoint versions must be positive".toList
  refuse (checkpoint.stateVersion < checkpoint.minReaderVersion)
    ("discovery checkpoint minimum reader version ".toList ++
      (toString checkpoint.minReaderVersion).toList ++ " exceeds state version ".toList ++
      (toString checkpoint.stateVersion).toList)
  match jsonError checkpoint.stateJson with
  | some error => invalid ("discovery checkpoint JSON is invalid: ".toList ++ error)
  | none => pure ()

def validate (jsonError : Text → Option Text) (commit : DiscoveryCommit) : StoreResult Unit := do
  commit.validateEntities
  commit.validateDeletes
  commit.validateObservations
  commit.validateFreshness
  commit.validateAutoSaves
  commit.validateContradictions
  commit.validateMetadataDeletes
  commit.validateMutationDeletes
  commit.validateCheckpoint jsonError

def validateConnector (commit : DiscoveryCommit) (connector : Text) : StoreResult Unit :=
  refuse (commit.checkpoint.connector ≠ connector)
    ("discovery checkpoint connector ".toList ++ quoted commit.checkpoint.connector ++
      " does not match mount connector ".toList ++ quoted connector)

/-! ## The final entities -/

/-- The entities by their ids, without the deleted ones, and with the upserts. -/
def entitiesAfter (commit : DiscoveryCommit) (existing : List EntityRecord) : EntityMap :=
  (((.empty : EntityMap).putAll existing).eraseAll commit.entityDeletes).putAll
    commit.entityUpserts

def finalEntityMap (commit : DiscoveryCommit) (existing : List EntityRecord) :
    StoreResult EntityMap := do
  let byId := commit.entitiesAfter existing
  checkRows (fun before (entity : EntityRecord) =>
    if ∃ entity' ∈ before, entity'.path = entity.path ∧ entity'.remoteId ≠ entity.remoteId then
      .error (.store (.duplicateEntityPath commit.mountId entity.path))
    else pure ()) [] byId.all
  pure byId

/-! ## Virtual mutations -/

/-- The mutation is of an entity that is moved or deleted, or lies where one does. -/
def mutationAffected (affectedRemoteIds : List RemoteId) (affectedPaths : List PathBuf)
    (mutation : VirtualMutationRecord) : Bool :=
  mutation.targetRemoteId.any (fun remoteId => decide (remoteId ∈ affectedRemoteIds)) ||
    mutation.parentRemoteId.any (fun remoteId => decide (remoteId ∈ affectedRemoteIds)) ||
    mutation.originalPath.any (fun path => pathIsAffected path affectedPaths) ||
    pathIsAffected mutation.projectedPath affectedPaths

def validateVirtualMutationChanges (commit : DiscoveryCommit)
    (mutations : List VirtualMutationRecord) (affectedRemoteIds : List RemoteId)
    (affectedPaths : List PathBuf) : StoreResult Unit :=
  mutations.forM fun mutation => do
    let affected := mutationAffected affectedRemoteIds affectedPaths mutation
    let explicitlyDeleted := decide (mutation.localId ∈ commit.virtualMutationDeletes)
    refuse (affected = true ∧ explicitlyDeleted = false)
      ("discovery cannot change discovered entity state with pending virtual mutation ".toList ++
        quoted mutation.localId)
    refuse (explicitlyDeleted = true ∧ affected = false)
      ("discovery virtual mutation ".toList ++ quoted mutation.localId ++
        " is not related to an affected entity".toList)

/-! ## Auto-save enrollments -/

def validateAutoSaveOwnership (enrollments : List AutoSaveEnrollmentRecord)
    (affectedEntities : List (RemoteId × Option PathBuf)) : StoreResult Unit :=
  affectedEntities.forM fun affected => do
    let _ ← discoveryAutoSaveCandidate enrollments affected.1 affected.2
    pure ()

/-- The enrollment is neither of a deleted entity nor at the path of one. -/
def survives (deletedRemoteIds : List RemoteId) (deletedPaths : List PathBuf)
    (enrollment : AutoSaveEnrollmentRecord) : Bool :=
  !enrollment.remoteId.any (fun remoteId => decide (remoteId ∈ deletedRemoteIds)) &&
    !decide (enrollment.path ∈ deletedPaths)

/-- The enrollments that may move with an entity. -/
def moveCandidates (deletedRemoteIds : List RemoteId) (deletedPaths : List PathBuf)
    (existing : List AutoSaveEnrollmentRecord) (move : PathMove) : List AutoSaveEnrollmentRecord :=
  existing.filter fun enrollment =>
    survives deletedRemoteIds deletedPaths enrollment &&
      isCandidate move.remoteId (some move.oldPath) enrollment

/-- The enrollments that move, each to the new path of its entity. -/
def planRehomes (deletedRemoteIds : List RemoteId) (deletedPaths : List PathBuf)
    (existing : List AutoSaveEnrollmentRecord) :
    List PathBuf → List PathMove → StoreResult (List AutoSaveRehome)
  | _, [] => pure []
  | selectedPaths, move :: moves => do
      let candidates := moveCandidates deletedRemoteIds deletedPaths existing move
      refuse (1 < candidates.length) (multipleEnrollments move.remoteId)
      match candidates.head? with
      | none => planRehomes deletedRemoteIds deletedPaths existing selectedPaths moves
      | some enrollment => do
          refuse (enrollment.path ∈ selectedPaths)
            ("auto-save enrollment ".toList ++ quoted (displayPath enrollment.path) ++
              " belongs to multiple entity moves".toList)
          let rest ← planRehomes deletedRemoteIds deletedPaths existing
            (enrollment.path :: selectedPaths) moves
          pure (⟨enrollment.path, { enrollment with path := move.newPath }⟩ :: rest)

/-- The moved enrollments at their new paths, which are free. -/
def placeRehomes (enrollments : EnrollmentMap) :
    List AutoSaveRehome → StoreResult EnrollmentMap
  | [] => pure enrollments
  | rehome :: rehomes => do
      match enrollments.lookup rehome.enrollment.path with
      | some occupied =>
          invalid ("cannot rehome auto-save enrollment to ".toList ++
            quoted (displayPath rehome.enrollment.path) ++ " owned by ".toList ++
            quoted (autoSaveOwner occupied))
      | none => placeRehomes (enrollments.put rehome.enrollment) rehomes

/-- An enrollment of an entity lies at the final path of the entity. -/
def checkFinalPath (finalEntities : EntityMap) (enrollment : AutoSaveEnrollmentRecord)
    (remoteId : RemoteId) : StoreResult Unit :=
  match finalEntities.lookup remoteId with
  | none =>
      invalid ("auto-save enrollment ".toList ++ quoted (displayPath enrollment.path) ++
        " references entity ".toList ++ quoted remoteId.value ++
        " outside the final mount tree".toList)
  | some entity =>
      if enrollment.path ≠ entity.path then
        match finalEntities.all.find? fun candidate => candidate.path == enrollment.path with
        | some occupant =>
            invalid ("auto-save enrollment at ".toList ++
              quoted (displayPath enrollment.path) ++ " belongs to ".toList ++
              quoted remoteId.value ++ " but that path is occupied by ".toList ++
              quoted occupant.remoteId.value)
        | none =>
            invalid ("auto-save enrollment for ".toList ++ quoted remoteId.value ++
              " must use final path ".toList ++ quoted (displayPath entity.path))
      else pure ()

/-- The checks of an enrollment that has an owner. -/
def checkOwner (commit : DiscoveryCommit) (pathMoves : List PathMove)
    (enrollment : AutoSaveEnrollmentRecord) (remoteId : RemoteId) : StoreResult Unit := do
  match commit.entityUpserts.find? fun entity =>
      entity.path == enrollment.path && !decide (entity.remoteId ∈ commit.entityDeletes) with
  | some reassigned =>
      refuse (remoteId ≠ reassigned.remoteId)
        ("auto-save enrollment at ".toList ++ quoted (displayPath enrollment.path) ++
          " belongs to ".toList ++ quoted remoteId.value ++
          " instead of reassigned entity ".toList ++ quoted reassigned.remoteId.value)
  | none => pure ()
  match pathMoves.find? fun move => move.remoteId == remoteId with
  | some move =>
      refuse (enrollment.path ≠ move.newPath)
        ("auto-save enrollment for moved entity ".toList ++ quoted remoteId.value ++
          " must use ".toList ++ quoted (displayPath move.newPath))
  | none => pure ()

/-- An enrollment that the commit saves, against the enrollments so far. -/
def checkAutoSaveUpsert (commit : DiscoveryCommit) (deletedPaths : List PathBuf)
    (pathMoves : List PathMove) (finalEntities : EntityMap) (enrollments : EnrollmentMap)
    (enrollment : AutoSaveEnrollmentRecord) : StoreResult Unit := do
  match enrollment.remoteId with
  | some remoteId => do
      checkFinalPath finalEntities enrollment remoteId
      refuse (remoteId ∈ commit.entityDeletes)
        ("auto-save enrollment ".toList ++ quoted (displayPath enrollment.path) ++
          " references deleted entity ".toList ++ quoted remoteId.value)
  | none => pure ()
  refuse (enrollment.path ∈ deletedPaths ∧
      ¬ ∃ entity ∈ commit.entityUpserts,
        entity.remoteId ∉ commit.entityDeletes ∧ entity.path = enrollment.path)
    ("auto-save enrollment path ".toList ++ quoted (displayPath enrollment.path) ++
      " belongs to a deleted entity".toList)
  match enrollment.remoteId with
  | some remoteId => commit.checkOwner pathMoves enrollment remoteId
  | none => pure ()
  match enrollments.lookup enrollment.path with
  | some occupied =>
      refuse (occupied.remoteId ≠ enrollment.remoteId)
        ("auto-save enrollment path ".toList ++ quoted (displayPath enrollment.path) ++
          " is owned by ".toList ++ quoted (autoSaveOwner occupied))
  | none => pure ()
  match enrollment.remoteId with
  | some remoteId =>
      match enrollments.all.find? fun existing =>
          existing.path != enrollment.path && existing.remoteId == some remoteId with
      | some existing =>
          invalid ("auto-save enrollment for ".toList ++ quoted remoteId.value ++
            " already exists at ".toList ++ quoted (displayPath existing.path))
      | none => pure ()
  | none => pure ()

def placeAutoSaveUpserts (commit : DiscoveryCommit) (deletedPaths : List PathBuf)
    (pathMoves : List PathMove) (finalEntities : EntityMap) :
    EnrollmentMap → List AutoSaveEnrollmentRecord → StoreResult Unit
  | _, [] => pure ()
  | enrollments, enrollment :: rest => do
      commit.checkAutoSaveUpsert deletedPaths pathMoves finalEntities enrollments enrollment
      placeAutoSaveUpserts commit deletedPaths pathMoves finalEntities
        (enrollments.put enrollment) rest

/-- The enrollments that stay: those of the survivors that do not move. -/
def enrollmentsKept (deletedRemoteIds : List RemoteId) (deletedPaths : List PathBuf)
    (existing : List AutoSaveEnrollmentRecord) (rehomes : List AutoSaveRehome) : EnrollmentMap :=
  ((.empty : EnrollmentMap).putAll
    (existing.filter (survives deletedRemoteIds deletedPaths))).eraseAll
      (rehomes.map (·.oldPath))

def planAutoSaveChanges (commit : DiscoveryCommit) (existing : List AutoSaveEnrollmentRecord)
    (affectedEntities : List (RemoteId × Option PathBuf)) (pathMoves : List PathMove)
    (finalEntities : EntityMap) : StoreResult (List AutoSaveRehome) := do
  validateAutoSaveOwnership existing affectedEntities
  let deletedPaths := (affectedEntities.filter fun affected =>
    decide (affected.1 ∈ commit.entityDeletes)).filterMap Prod.snd
  let rehomes ← planRehomes commit.entityDeletes deletedPaths existing [] pathMoves
  let enrollments ← placeRehomes
    (enrollmentsKept commit.entityDeletes deletedPaths existing rehomes) rehomes
  commit.placeAutoSaveUpserts deletedPaths pathMoves finalEntities enrollments
    commit.autoSaveUpserts
  pure rehomes

/-! ## The preflight -/

/-- The paths of the deleted entities that exist. -/
def deletedPathsOf (commit : DiscoveryCommit) (existing : EntityMap) :
    List (RemoteId × PathBuf) :=
  commit.entityDeletes.filterMap fun remoteId =>
    (existing.lookup remoteId).map fun entity => (remoteId, entity.path)

/-- The upserts that give an entity another path, in their order. -/
def pathMovesOf (commit : DiscoveryCommit) (existing : EntityMap) : List PathMove :=
  commit.entityUpserts.filterMap fun entity =>
    (existing.lookup entity.remoteId).bind fun current =>
      if current.path ≠ entity.path then some ⟨entity.remoteId, current.path, entity.path⟩
      else none

def affectedEntitiesOf (commit : DiscoveryCommit) (existing : EntityMap) :
    List (RemoteId × Option PathBuf) :=
  (commit.entityDeletes.map fun remoteId =>
      (remoteId, (existing.lookup remoteId).map (·.path))) ++
    (commit.pathMovesOf existing).map fun move => (move.remoteId, some move.oldPath)

def affectedPathsOf (commit : DiscoveryCommit) (existing : EntityMap) : List PathBuf :=
  (commit.deletedPathsOf existing).map Prod.snd ++
    (commit.pathMovesOf existing).flatMap fun move => [move.oldPath, move.newPath]

def preflightDetails (jsonError : Text → Option Text) (commit : DiscoveryCommit)
    (connector : Text) (existingEntities : List EntityRecord)
    (autoSaveEnrollments : List AutoSaveEnrollmentRecord)
    (virtualMutations : List VirtualMutationRecord) : StoreResult DiscoveryPreflight := do
  commit.validate jsonError
  commit.validateConnector connector
  existingEntities.forM fun entity =>
    validateMount "preflight entity".toList entity.remoteId entity.mountId commit.mountId
  autoSaveEnrollments.forM fun enrollment =>
    refuse (enrollment.mountId ≠ commit.mountId)
      ("discovery preflight auto-save enrollment ".toList ++
        quoted (displayPath enrollment.path) ++ " belongs to mount ".toList ++
        quoted enrollment.mountId.value ++ ", expected ".toList ++ quoted commit.mountId.value)
  virtualMutations.forM fun mutation =>
    refuse (mutation.mountId ≠ commit.mountId)
      ("discovery preflight virtual mutation ".toList ++ quoted mutation.localId ++
        " belongs to mount ".toList ++ quoted mutation.mountId.value ++ ", expected ".toList ++
        quoted commit.mountId.value)
  let finalEntities ← commit.finalEntityMap existingEntities
  let existing := (.empty : EntityMap).putAll existingEntities
  let pathMoves := commit.pathMovesOf existing
  commit.validateVirtualMutationChanges virtualMutations
    (commit.entityDeletes ++ pathMoves.map (·.remoteId)) (commit.affectedPathsOf existing)
  let autoSaveRehomes ← commit.planAutoSaveChanges autoSaveEnrollments
    (commit.affectedEntitiesOf existing) pathMoves finalEntities
  pure {
    finalEntities := finalEntities
    entityDeletes := sortedSet commit.entityDeletes
    deletedPaths := commit.deletedPathsOf existing
    pathMoves := pathMoves
    autoSaveRehomes := autoSaveRehomes }

end DiscoveryCommit

end Locality.Discovery
