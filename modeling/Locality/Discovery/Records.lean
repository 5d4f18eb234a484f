/-
  Discovery/Records.lean --- the rows that a discovery commit reads and writes, the commit,
  the reservation it is made against and the record of its transaction:
  `locality-store/src/records.rs` and `discovery.rs`.

  A JSON value is opaque here and stands in its canonical form, so that
  `canonicalize_json_value` changes nothing.
-/
import Locality.Core.Journal
import Locality.Daemon.Host
import Locality.Protocol.Portable
import Locality.Foundation.RankedTable

set_option autoImplicit false

namespace Locality.Discovery

open Locality.Core Locality.Foundation
open Locality.Daemon (EntityKey EntityRecord FreshnessTier HydrationReason ProjectionMode StoreError)
open Locality.Protocol (byteOrder byteOrder_injective)

/-! ## Keys -/

instance : Ranked Text where
  rank text := [byteOrder text]
  rank_injective _ _ h := byteOrder_injective (List.cons.inj h).1

instance : Ranked MountId where
  rank id := [byteOrder id.value]
  rank_injective id id' h := by
    cases id
    cases id'
    exact congrArg MountId.mk (byteOrder_injective (List.cons.inj h).1)

instance : Ranked RemoteId where
  rank id := [byteOrder id.value]
  rank_injective id id' h := by
    cases id
    cases id'
    exact congrArg RemoteId.mk (byteOrder_injective (List.cons.inj h).1)

instance : Ranked PushId where
  rank id := [byteOrder id.value]
  rank_injective id id' h := by
    cases id
    cases id'
    exact congrArg PushId.mk (byteOrder_injective (List.cons.inj h).1)

/-- Paths are ordered by their components, and what starts at the root comes first. -/
instance : Ranked PathBuf where
  rank path := [if path.absolute then 0 else 1] :: path.components.map byteOrder
  rank_injective path path' h := by
    obtain ⟨habsolute, hcomponents⟩ := List.cons.inj h
    have hsame : path.components = path'.components :=
      List.map_injective_iff.mpr (fun _ _ => byteOrder_injective) hcomponents
    obtain ⟨absolute, components⟩ := path
    obtain ⟨absolute', components'⟩ := path'
    cases hsame
    cases absolute <;> cases absolute' <;> simp_all

instance {κ : Type} [Ranked κ] : Ranked (MountId × κ) where
  rank key := byteOrder key.1.value :: Ranked.rank key.2
  rank_injective key key' h := by
    obtain ⟨hmount, hrest⟩ := List.cons.inj h
    obtain ⟨⟨mount⟩, rest⟩ := key
    obtain ⟨⟨mount'⟩, rest'⟩ := key'
    exact Prod.ext (congrArg MountId.mk (byteOrder_injective hmount))
      (Ranked.rank_injective hrest)

instance : Std.TransCmp (@rankOrder (MountId × PathBuf) _) := inferInstance

instance {κ : Type} [Ranked κ] : Ranked (Text × κ) where
  rank key := byteOrder key.1 :: Ranked.rank key.2
  rank_injective key key' h := by
    obtain ⟨htext, hrest⟩ := List.cons.inj h
    exact Prod.ext (byteOrder_injective htext) (Ranked.rank_injective hrest)

/-! ## Rows -/

structure MountConfig where
  mountId : MountId
  connector : Text
  root : PathBuf
  remoteRootId : Option RemoteId
  connectionId : Option Text
  readOnly : Bool
  projection : ProjectionMode
  settingsJson : Text
  deriving DecidableEq, Repr

inductive MountLiveModeState where
  | off
  | active
  | syncing
  | error
  deriving DecidableEq, Repr

structure MountLiveModeRecord where
  mountId : MountId
  enabled : Bool
  state : MountLiveModeState
  lastReason : Option Text
  lastRunAt : Option Text
  createdAt : Text
  updatedAt : Text
  deriving DecidableEq, Repr

structure ConnectorStateRecord where
  connector : Text
  scopeKind : Text
  scopeId : Text
  stateVersion : Int
  minReaderVersion : Int
  stateJson : Text
  updatedAt : Text
  deriving DecidableEq, Repr

abbrev ConnectorStateKey : Type := Text × Text × Text

def ConnectorStateRecord.key (state : ConnectorStateRecord) : ConnectorStateKey :=
  (state.connector, state.scopeKind, state.scopeId)

inductive VirtualMutationKind where
  | create
  | move
  | rename
  | delete
  deriving DecidableEq, Repr

structure VirtualMutationRecord where
  mountId : MountId
  localId : Text
  mutationKind : VirtualMutationKind
  targetRemoteId : Option RemoteId
  parentRemoteId : Option RemoteId
  originalPath : Option PathBuf
  projectedPath : PathBuf
  title : Text
  contentPath : Option PathBuf
  createdAt : Text
  updatedAt : Text
  deriving DecidableEq, Repr

def VirtualMutationRecord.key (mutation : VirtualMutationRecord) : MountId × Text :=
  (mutation.mountId, mutation.localId)

inductive AutoSaveOrigin where
  | localityCreated
  | userEnabled
  deriving DecidableEq, Repr

inductive AutoSaveState where
  | active
  | blocked
  | pausedRemoteChanged
  | pausedFailure
  deriving DecidableEq, Repr

structure AutoSaveEnrollmentRecord where
  mountId : MountId
  path : PathBuf
  remoteId : Option RemoteId
  enabled : Bool
  origin : AutoSaveOrigin
  state : AutoSaveState
  lastReason : Option Text
  lastPushId : Option Text
  createdAt : Text
  updatedAt : Text
  deriving DecidableEq, Repr

def AutoSaveEnrollmentRecord.key (enrollment : AutoSaveEnrollmentRecord) : MountId × PathBuf :=
  (enrollment.mountId, enrollment.path)

structure RemoteObservationRecord where
  mountId : MountId
  remoteId : RemoteId
  kind : EntityKind
  title : Text
  parentRemoteId : Option RemoteId
  projectedPath : PathBuf
  remoteVersion : Option Text
  observedAt : Text
  deleted : Bool
  rawMetadataJson : Text
  deriving DecidableEq, Repr

def RemoteObservationRecord.key (observation : RemoteObservationRecord) : EntityKey :=
  (observation.mountId, observation.remoteId)

structure FreshnessStateRecord where
  mountId : MountId
  remoteId : RemoteId
  tier : FreshnessTier
  lastCheckedAt : Option Text
  nextCheckAt : Option Text
  lastOpenedAt : Option Text
  lastLocalChangeAt : Option Text
  remoteHintPending : Bool
  deriving DecidableEq, Repr

def FreshnessStateRecord.key (freshness : FreshnessStateRecord) : EntityKey :=
  (freshness.mountId, freshness.remoteId)

structure HydrationJobRecord where
  mountId : MountId
  remoteId : RemoteId
  path : PathBuf
  targetState : HydrationState
  reason : HydrationReason
  attempts : Nat
  lastError : Option Text
  deriving DecidableEq, Repr

def HydrationJobRecord.key (job : HydrationJobRecord) : EntityKey := (job.mountId, job.remoteId)

inductive MetadataDiscoveryPriority where
  | background
  | interactive
  deriving DecidableEq, Repr

structure MetadataDiscoveryJobRecord where
  mountId : MountId
  containerIdentifier : Text
  priority : MetadataDiscoveryPriority
  depth : Nat
  attempts : Nat
  lastError : Option Text
  createdAt : Text
  updatedAt : Text
  deriving DecidableEq, Repr

def MetadataDiscoveryJobRecord.key (job : MetadataDiscoveryJobRecord) : MountId × Text :=
  (job.mountId, job.containerIdentifier)

structure ShadowSnapshotRecord where
  mountId : MountId
  entityId : RemoteId
  frontmatter : Text
  bodyHash : Text
  renderedBody : Text
  blocks : List ShadowBlock
  deriving DecidableEq, Repr

def ShadowSnapshotRecord.key (shadow : ShadowSnapshotRecord) : EntityKey :=
  (shadow.mountId, shadow.entityId)

/-! ## Equality of journals -/

mutual

/-- `==` of property values. -/
def sameValue : PropertyValue → PropertyValue → Bool
  | .null, .null => true
  | .bool value, .bool value' => value == value'
  | .number value, .number value' => value == value'
  | .string value, .string value' => value == value'
  | .list values, .list values' => values == values'
  | .array values, .array values' => sameValues values values'
  | .object entries, .object entries' => sameEntries entries entries'
  | _, _ => false

def sameValues : List PropertyValue → List PropertyValue → Bool
  | [], [] => true
  | value :: values, value' :: values' => sameValue value value' && sameValues values values'
  | _, _ => false

def sameEntries : List (Text × PropertyValue) → List (Text × PropertyValue) → Bool
  | [], [] => true
  | (name, value) :: entries, (name', value') :: entries' =>
      name == name' && sameValue value value' && sameEntries entries entries'
  | _, _ => false

end

mutual

theorem sameValue_iff : ∀ {value value' : PropertyValue},
    sameValue value value' = true ↔ value = value'
  | .array values, value' => by
      cases value' <;> simp [sameValue, @sameValues_iff values]
  | .object entries, value' => by
      cases value' <;> simp [sameValue, @sameEntries_iff entries]
  | .null, value' => by cases value' <;> simp [sameValue]
  | .bool _, value' => by cases value' <;> simp [sameValue]
  | .number _, value' => by cases value' <;> simp [sameValue]
  | .string _, value' => by cases value' <;> simp [sameValue]
  | .list _, value' => by cases value' <;> simp [sameValue]

theorem sameValues_iff : ∀ {values values' : List PropertyValue},
    sameValues values values' = true ↔ values = values'
  | [], values' => by cases values' <;> simp [sameValues]
  | value :: values, values' => by
      cases values' <;>
        simp [sameValues, @sameValue_iff value, @sameValues_iff values]

theorem sameEntries_iff : ∀ {entries entries' : List (Text × PropertyValue)},
    sameEntries entries entries' = true ↔ entries = entries'
  | [], entries' => by cases entries' <;> simp [sameEntries]
  | (name, value) :: entries, [] => by simp [sameEntries]
  | (name, value) :: entries, (name', value') :: entries' => by
      simp [sameEntries, @sameValue_iff value, @sameEntries_iff entries]

end

instance : DecidableEq PropertyValue := fun value value' =>
  decidable_of_iff (sameValue value value' = true) sameValue_iff

deriving instance DecidableEq for PushOperation
deriving instance DecidableEq for PushPlan
deriving instance DecidableEq for JournalEntry

/-! ## Errors -/

/-- The errors of the discovery repository: those of `StoreError` that are modelled with the
other repositories, `InvalidState` and `Database`. -/
inductive DiscoveryError where
  | store (error : StoreError)
  | invalidState (message : Text)
  | database (message : Text)
  deriving DecidableEq, Repr

abbrev StoreResult : Type → Type := Except DiscoveryError

/-- A text between backticks. -/
def quoted (text : Text) : Text := "\x60".toList ++ text ++ "\x60".toList

def invalid {α : Type} (message : Text) : StoreResult α := .error (.invalidState message)

/-! ## Commits and reservations -/

structure DiscoveryTransactionId where
  value : Text
  deriving DecidableEq, Repr

instance : Ranked DiscoveryTransactionId where
  rank id := [byteOrder id.value]
  rank_injective id id' h := by
    cases id
    cases id'
    exact congrArg DiscoveryTransactionId.mk (byteOrder_injective (List.cons.inj h).1)

/-- A `serde_json::Value`, as its canonical text. -/
abbrev Value : Type := Text

structure DiscoveryCommit where
  mountId : MountId
  entityUpserts : List EntityRecord
  entityDeletes : List RemoteId
  observationUpserts : List RemoteObservationRecord
  freshnessUpserts : List FreshnessStateRecord
  autoSaveUpserts : List AutoSaveEnrollmentRecord
  metadataDiscoveryDeletes : List Text
  virtualMutationDeletes : List Text
  checkpoint : ConnectorStateRecord
  deriving DecidableEq, Repr

structure TransactionalDiscoveryCommit where
  transactionId : DiscoveryTransactionId
  commit : DiscoveryCommit
  deriving DecidableEq, Repr

structure DiscoveryReservation where
  mount : MountConfig
  mountLiveMode : Option MountLiveModeRecord
  checkpoint : Option ConnectorStateRecord
  entities : List EntityRecord
  shadows : List ShadowSnapshotRecord
  hydrationJobs : List HydrationJobRecord
  virtualMutations : List VirtualMutationRecord
  autoSaveEnrollments : List AutoSaveEnrollmentRecord
  remoteObservations : List RemoteObservationRecord
  freshnessStates : List FreshnessStateRecord
  metadataDiscoveryJobs : List MetadataDiscoveryJobRecord
  unsettledJournals : List JournalEntry
  deriving DecidableEq

namespace DiscoveryReservation

def changedCategory (reserved current : DiscoveryReservation) : Option Text :=
  if reserved.mount ≠ current.mount then some "mount".toList
  else if reserved.mountLiveMode ≠ current.mountLiveMode then some "mount_live_mode".toList
  else if reserved.checkpoint ≠ current.checkpoint then some "checkpoint".toList
  else if reserved.entities ≠ current.entities then some "entities".toList
  else if reserved.shadows ≠ current.shadows then some "shadows".toList
  else if reserved.hydrationJobs ≠ current.hydrationJobs then some "hydration_jobs".toList
  else if reserved.virtualMutations ≠ current.virtualMutations then
    some "virtual_mutations".toList
  else if reserved.autoSaveEnrollments ≠ current.autoSaveEnrollments then
    some "auto_save_enrollments".toList
  else if reserved.remoteObservations ≠ current.remoteObservations then
    some "remote_observations".toList
  else if reserved.freshnessStates ≠ current.freshnessStates then some "freshness_states".toList
  else if reserved.metadataDiscoveryJobs ≠ current.metadataDiscoveryJobs then
    some "metadata_discovery_jobs".toList
  else if reserved.unsettledJournals ≠ current.unsettledJournals then
    some "unsettled_journals".toList
  else none

/-- Nothing changed exactly if the reservations are the same. -/
theorem changedCategory_eq_none {reserved current : DiscoveryReservation} :
    reserved.changedCategory current = none ↔ reserved = current := by
  have hstep : ∀ {α : Type} [DecidableEq α] {a b : α} {name : Text} {rest : Option Text},
      (if a ≠ b then some name else rest) = none ↔ a = b ∧ rest = none := by
    intro α _ a b name rest
    split
    · rename_i hne
      exact iff_of_false nofun fun h => hne h.1
    · rename_i heq
      exact (and_iff_right (not_not.mp heq)).symm
  cases reserved
  cases current
  simp only [changedCategory, hstep, and_true, mk.injEq]

end DiscoveryReservation

inductive DiscoveryTransactionStatus where
  | reserved
  | applying
  | projected
  | committed
  | repairPending
  | aborted
  | finalized
  deriving DecidableEq, Repr

namespace DiscoveryTransactionStatus

def asStr : DiscoveryTransactionStatus → Text
  | reserved => "reserved".toList
  | applying => "applying".toList
  | projected => "projected".toList
  | committed => "committed".toList
  | repairPending => "repair_pending".toList
  | aborted => "aborted".toList
  | finalized => "finalized".toList

def isActive : DiscoveryTransactionStatus → Bool
  | aborted | finalized => false
  | reserved | applying | projected | committed | repairPending => true

end DiscoveryTransactionStatus

structure PreparedDiscoveryTransaction where
  commit : TransactionalDiscoveryCommit
  projection : ProjectionMode
  plan : Value
  reservation : DiscoveryReservation
  effects : Value
  createdAt : Text
  deriving DecidableEq

structure DiscoveryTransactionRecord where
  transactionId : DiscoveryTransactionId
  mountId : MountId
  projection : ProjectionMode
  status : DiscoveryTransactionStatus
  active : Bool
  plan : Value
  commit : TransactionalDiscoveryCommit
  reservation : DiscoveryReservation
  effects : Value
  error : Option Value
  createdAt : Text
  updatedAt : Text
  committedAt : Option Text
  finalizedAt : Option Text
  deriving DecidableEq

end Locality.Discovery
