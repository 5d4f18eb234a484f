/-
  Discovery/Transactions.lean --- the operations on discovery transactions, in the in-memory
  and in the SQLite store: `locality-store/src/memory.rs` and `sqlite.rs`.

  The in-memory store checks before it writes, and commits on a copy of itself; the database
  does each operation in a transaction of its own.  So an operation that fails leaves its
  store, and is an error without one here.
-/
import Locality.Discovery.Stores

set_option autoImplicit false

namespace Locality.Discovery

open Locality.Core Locality.Foundation
open Locality.Daemon (EntityKey EntityRecord ProjectionMode StoreError)

/-! ## Checks -/

def named (transactionId : DiscoveryTransactionId) (message : String) : Text :=
  "discovery transaction ".toList ++ quoted transactionId.value ++ message.toList

def reservationChanged (transactionId : DiscoveryTransactionId) (category : Text) :
    DiscoveryError :=
  .invalidState (named transactionId " reservation changed: " ++ category)

def transactionMissing (transactionId : DiscoveryTransactionId) : DiscoveryError :=
  .invalidState (named transactionId " was not found")

def illegalTransition (transactionId : DiscoveryTransactionId)
    (source target : DiscoveryTransactionStatus) : DiscoveryError :=
  .invalidState (named transactionId " cannot transition from " ++ quoted source.asStr ++
    " to ".toList ++ quoted target.asStr)

def requireTransactionStatus (record : DiscoveryTransactionRecord)
    (expected : DiscoveryTransactionStatus) : StoreResult Unit :=
  refuse (record.status ≠ expected ∨ record.active = false)
    (named record.transactionId " expected active status " ++ quoted expected.asStr ++
      ", found ".toList ++ quoted record.status.asStr)

def requireReservation (transactionId : DiscoveryTransactionId)
    (reserved current : DiscoveryReservation) : StoreResult Unit :=
  match reserved.changedCategory current with
  | some category => .error (reservationChanged transactionId category)
  | none => pure ()

/-- The record of a transaction whose reservation is what is there now. -/
def recordFromPrepared (jsonError : Text → Option Text) (prepared : PreparedDiscoveryTransaction)
    (current : DiscoveryReservation) : StoreResult DiscoveryTransactionRecord := do
  let transactionId := prepared.commit.transactionId
  let commit := prepared.commit.commit
  refuse (transactionId.value = []) "discovery transaction identifier cannot be empty".toList
  refuse (prepared.createdAt = []) (named transactionId " created_at cannot be empty")
  refuse (commit.mountId ≠ prepared.reservation.mount.mountId)
    (named transactionId " commit mount does not match its reservation")
  refuse (prepared.projection ≠ prepared.reservation.mount.projection)
    (named transactionId " projection does not match its reservation")
  refuse (prepared.projection ≠ current.mount.projection)
    (named transactionId " projection does not match current mount projection")
  requireReservation transactionId prepared.reservation current
  let _ ← commit.preflightDetails jsonError current.mount.connector current.entities
    current.autoSaveEnrollments current.virtualMutations
  pure {
    transactionId := transactionId
    mountId := commit.mountId
    projection := prepared.projection
    status := .reserved
    active := true
    plan := prepared.plan
    commit := prepared.commit
    reservation := prepared.reservation
    effects := prepared.effects
    error := none
    createdAt := prepared.createdAt
    updatedAt := prepared.createdAt
    committedAt := none
    finalizedAt := none }

def preparedMatchesRecord (prepared : PreparedDiscoveryTransaction)
    (record : DiscoveryTransactionRecord) : Bool :=
  prepared.commit == record.commit && prepared.projection == record.projection &&
    prepared.plan == record.plan && prepared.reservation == record.reservation &&
    prepared.createdAt == record.createdAt

def retryMismatch (transactionId : DiscoveryTransactionId) : DiscoveryError :=
  .invalidState (named transactionId
    " reservation retry does not match its immutable payload")

def alreadyActive (mountId : MountId) (active : DiscoveryTransactionId) : DiscoveryError :=
  .invalidState ("mount ".toList ++ quoted mountId.value ++
    " already has active discovery transaction ".toList ++ quoted active.value)

/-- The statuses from which a transaction is marked projected. -/
def mayProject (expected : DiscoveryTransactionStatus) : Bool :=
  expected == .applying || expected == .repairPending

/-- The statuses from which a transaction is marked for repair. -/
def mayNeedRepair (expected : DiscoveryTransactionStatus) : Bool :=
  expected == .applying || expected == .projected

/-- The statuses from which a transaction is aborted. -/
def mayAbort (expected : DiscoveryTransactionStatus) : Bool :=
  expected == .reserved || expected == .applying || expected == .projected ||
    expected == .repairPending

/-! ## The in-memory store -/

structure InMemoryStateStore where
  rows : MemoryRows
  discoveryTransactions : RankedTable DiscoveryTransactionRecord.transactionId

namespace InMemoryStateStore

def save (store : InMemoryStateStore) (record : DiscoveryTransactionRecord) :
    StoreResult (DiscoveryTransactionRecord × InMemoryStateStore) :=
  pure (record, { store with discoveryTransactions := store.discoveryTransactions.put record })

def reserveDiscoveryTransaction (jsonError : Text → Option Text) (store : InMemoryStateStore)
    (prepared : PreparedDiscoveryTransaction) :
    StoreResult (DiscoveryTransactionRecord × InMemoryStateStore) :=
  let transactionId := prepared.commit.transactionId
  let mountId := prepared.commit.commit.mountId
  match store.discoveryTransactions.lookup transactionId with
  | some existing =>
      if preparedMatchesRecord prepared existing then pure (existing, store)
      else .error (retryMismatch transactionId)
  | none =>
      match store.discoveryTransactions.all.find? fun record =>
          record.mountId == mountId && record.active with
      | some active => .error (alreadyActive mountId active.transactionId)
      | none => do
          let current ← store.rows.captureDiscoveryReservation mountId
          let record ← recordFromPrepared jsonError prepared current
          store.save record

/-- The record of a transaction that is active with the status expected of it. -/
def expectTransaction (store : InMemoryStateStore) (transactionId : DiscoveryTransactionId)
    (expected : DiscoveryTransactionStatus) : StoreResult DiscoveryTransactionRecord :=
  match store.discoveryTransactions.lookup transactionId with
  | none => .error (transactionMissing transactionId)
  | some record => do
      requireTransactionStatus record expected
      pure record

def transitionDiscoveryTransaction (store : InMemoryStateStore)
    (transactionId : DiscoveryTransactionId) (expected next : DiscoveryTransactionStatus)
    (updatedAt : Text) : StoreResult (DiscoveryTransactionRecord × InMemoryStateStore) := do
  let record ← store.expectTransaction transactionId expected
  store.save { record with status := next, active := next.isActive, updatedAt := updatedAt }

def markDiscoveryTransactionApplying (store : InMemoryStateStore)
    (transactionId : DiscoveryTransactionId) (updatedAt : Text) :
    StoreResult (DiscoveryTransactionRecord × InMemoryStateStore) :=
  store.transitionDiscoveryTransaction transactionId .reserved .applying updatedAt

def recordDiscoveryTransactionEffects (store : InMemoryStateStore)
    (transactionId : DiscoveryTransactionId) (expected : DiscoveryTransactionStatus)
    (effects : Value) (updatedAt : Text) :
    StoreResult (DiscoveryTransactionRecord × InMemoryStateStore) := do
  let record ← store.expectTransaction transactionId expected
  store.save { record with effects := effects, updatedAt := updatedAt }

def markDiscoveryTransactionProjected (store : InMemoryStateStore)
    (transactionId : DiscoveryTransactionId) (expected : DiscoveryTransactionStatus)
    (updatedAt : Text) : StoreResult (DiscoveryTransactionRecord × InMemoryStateStore) :=
  if mayProject expected then
    store.transitionDiscoveryTransaction transactionId expected .projected updatedAt
  else .error (illegalTransition transactionId expected .projected)

def commitDiscoveryTransaction (jsonError : Text → Option Text) (store : InMemoryStateStore)
    (transactionId : DiscoveryTransactionId) (committedAt : Text) :
    StoreResult (DiscoveryTransactionRecord × InMemoryStateStore) := do
  let record ← store.expectTransaction transactionId .projected
  refuse (record.commit.transactionId ≠ transactionId)
    (named transactionId " stored commit identifier does not match its row")
  let current ← store.rows.captureDiscoveryReservation record.mountId
  requireReservation transactionId record.reservation current
  let rows ← store.rows.applyDiscovery jsonError record.commit.commit
  save { store with rows := rows } {
    record with
    status := .committed
    active := true
    updatedAt := committedAt
    committedAt := some committedAt
    error := none }

def markDiscoveryTransactionRepairPending (store : InMemoryStateStore)
    (transactionId : DiscoveryTransactionId) (expected : DiscoveryTransactionStatus)
    (error : Value) (updatedAt : Text) :
    StoreResult (DiscoveryTransactionRecord × InMemoryStateStore) :=
  if mayNeedRepair expected then do
    let record ← store.expectTransaction transactionId expected
    store.save { record with
      status := .repairPending
      error := some error
      updatedAt := updatedAt }
  else .error (illegalTransition transactionId expected .repairPending)

def markDiscoveryTransactionAborted (store : InMemoryStateStore)
    (transactionId : DiscoveryTransactionId) (expected : DiscoveryTransactionStatus)
    (updatedAt : Text) : StoreResult (DiscoveryTransactionRecord × InMemoryStateStore) :=
  if mayAbort expected then
    store.transitionDiscoveryTransaction transactionId expected .aborted updatedAt
  else .error (illegalTransition transactionId expected .aborted)

def markDiscoveryTransactionFinalized (store : InMemoryStateStore)
    (transactionId : DiscoveryTransactionId) (finalizedAt : Text) :
    StoreResult (DiscoveryTransactionRecord × InMemoryStateStore) := do
  let (record, store') ←
    store.transitionDiscoveryTransaction transactionId .committed .finalized finalizedAt
  store'.save { record with finalizedAt := some finalizedAt }

end InMemoryStateStore

/-! ## The database -/

/-- The column of the unique index `discovery_projection_one_active_per_mount`: the mount of
an active row, and nothing that two rows share of another one. -/
def activeMark (row : DiscoveryTransactionRecord) : MountId ⊕ DiscoveryTransactionId :=
  if row.active then .inl row.mountId else .inr row.transactionId

/-- The database; the JSON columns of its transactions are read back as they were written. -/
structure SqliteStateStore where
  rows : DatabaseRows
  transactions : UniqueTable DiscoveryTransactionRecord.transactionId activeMark

namespace SqliteStateStore

/-- `discovery_transaction_from_row`. -/
def transactionFromRow (row : DiscoveryTransactionRecord) :
    StoreResult DiscoveryTransactionRecord := do
  refuse (row.active ≠ row.status.isActive)
    (named row.transactionId " status and active marker disagree")
  refuse (row.commit.transactionId ≠ row.transactionId)
    (named row.transactionId " stored commit identifier does not match its row")
  refuse (row.commit.commit.mountId ≠ row.mountId ∨
      row.reservation.mount.mountId ≠ row.mountId)
    (named row.transactionId " stored mount identifiers disagree")
  refuse (row.reservation.mount.projection ≠ row.projection)
    (named row.transactionId " stored projection identifiers disagree")
  pure row

def selectDiscoveryTransaction (store : SqliteStateStore)
    (transactionId : DiscoveryTransactionId) :
    StoreResult (Option DiscoveryTransactionRecord) :=
  match store.transactions.lookup transactionId with
  | none => pure none
  | some row => do
      let record ← transactionFromRow row
      pure (some record)

/-- A transaction that must be there. -/
def requireDiscoveryTransaction (store : SqliteStateStore)
    (transactionId : DiscoveryTransactionId) : StoreResult DiscoveryTransactionRecord := do
  match ← store.selectDiscoveryTransaction transactionId with
  | some record => pure record
  | none => .error (transactionMissing transactionId)

def uniqueIndexViolation : DiscoveryError :=
  .database "UNIQUE constraint failed: discovery_projection_transactions.mount_id".toList

/-- A row that is written. -/
def writeRow (store : SqliteStateStore) (row : DiscoveryTransactionRecord) :
    StoreResult SqliteStateStore :=
  match store.transactions.put row with
  | some transactions => pure { store with transactions := transactions }
  | none => .error uniqueIndexViolation

/-- An update of the active row of a transaction with a status, and how many rows it
changed. -/
def updateActive (store : SqliteStateStore) (transactionId : DiscoveryTransactionId)
    (expected : DiscoveryTransactionStatus)
    (change : DiscoveryTransactionRecord → DiscoveryTransactionRecord) :
    StoreResult (Nat × SqliteStateStore) :=
  match store.transactions.lookup transactionId with
  | none => pure (0, store)
  | some row =>
      if row.status = expected ∧ row.active = true then do
        let store' ← store.writeRow (change row)
        pure (1, store')
      else pure (0, store)

/-- The update changed its row, which is read back. -/
def readBack (changed : Nat × SqliteStateStore) (transactionId : DiscoveryTransactionId)
    (during : String) : StoreResult (DiscoveryTransactionRecord × SqliteStateStore) := do
  refuse (changed.1 ≠ 1) (named transactionId during)
  let record ← changed.2.requireDiscoveryTransaction transactionId
  pure (record, changed.2)

def reserveDiscoveryTransaction (jsonError : Text → Option Text) (store : SqliteStateStore)
    (prepared : PreparedDiscoveryTransaction) :
    StoreResult (DiscoveryTransactionRecord × SqliteStateStore) := do
  let transactionId := prepared.commit.transactionId
  let mountId := prepared.commit.commit.mountId
  match ← store.selectDiscoveryTransaction transactionId with
  | some existing =>
      if preparedMatchesRecord prepared existing then pure (existing, store)
      else .error (retryMismatch transactionId)
  | none =>
      match store.transactions.all.find? fun row => row.mountId == mountId && row.active with
      | some active => .error (alreadyActive mountId active.transactionId)
      | none => do
          let current ← store.rows.captureDiscoveryReservation mountId
          let record ← recordFromPrepared jsonError prepared current
          let store' ← store.writeRow record
          let stored ← store'.requireDiscoveryTransaction transactionId
          pure (stored, store')

def transitionDiscoveryTransaction (store : SqliteStateStore)
    (transactionId : DiscoveryTransactionId) (expected next : DiscoveryTransactionStatus)
    (updatedAt : Text) (error : Option Value) :
    StoreResult (DiscoveryTransactionRecord × SqliteStateStore) := do
  let record ← store.requireDiscoveryTransaction transactionId
  requireTransactionStatus record expected
  let finalizedAt := if next = .finalized then some updatedAt else none
  let changed ← store.updateActive transactionId expected fun row => {
    row with
    status := next
    active := next.isActive
    updatedAt := updatedAt
    error := error.or row.error
    finalizedAt := finalizedAt.or row.finalizedAt }
  readBack changed transactionId " changed during transition"

def markDiscoveryTransactionApplying (store : SqliteStateStore)
    (transactionId : DiscoveryTransactionId) (updatedAt : Text) :
    StoreResult (DiscoveryTransactionRecord × SqliteStateStore) :=
  store.transitionDiscoveryTransaction transactionId .reserved .applying updatedAt none

def recordDiscoveryTransactionEffects (store : SqliteStateStore)
    (transactionId : DiscoveryTransactionId) (expected : DiscoveryTransactionStatus)
    (effects : Value) (updatedAt : Text) :
    StoreResult (DiscoveryTransactionRecord × SqliteStateStore) := do
  let record ← store.requireDiscoveryTransaction transactionId
  requireTransactionStatus record expected
  let changed ← store.updateActive transactionId expected fun row =>
    { row with effects := effects, updatedAt := updatedAt }
  readBack changed transactionId " changed during effects update"

def markDiscoveryTransactionProjected (store : SqliteStateStore)
    (transactionId : DiscoveryTransactionId) (expected : DiscoveryTransactionStatus)
    (updatedAt : Text) : StoreResult (DiscoveryTransactionRecord × SqliteStateStore) :=
  if mayProject expected then
    store.transitionDiscoveryTransaction transactionId expected .projected updatedAt none
  else .error (illegalTransition transactionId expected .projected)

def commitDiscoveryTransaction (jsonError : Text → Option Text) (store : SqliteStateStore)
    (transactionId : DiscoveryTransactionId) (committedAt : Text) :
    StoreResult (DiscoveryTransactionRecord × SqliteStateStore) := do
  let record ← store.requireDiscoveryTransaction transactionId
  requireTransactionStatus record .projected
  let current ← store.rows.captureDiscoveryReservation record.mountId
  requireReservation transactionId record.reservation current
  let rows ← store.rows.applyDiscoveryCommit jsonError record.commit.commit
  let changed ← updateActive { store with rows := rows } transactionId .projected fun row => {
    row with
    status := .committed
    updatedAt := committedAt
    committedAt := some committedAt
    error := none }
  readBack changed transactionId " changed during commit"

def markDiscoveryTransactionRepairPending (store : SqliteStateStore)
    (transactionId : DiscoveryTransactionId) (expected : DiscoveryTransactionStatus)
    (error : Value) (updatedAt : Text) :
    StoreResult (DiscoveryTransactionRecord × SqliteStateStore) :=
  if mayNeedRepair expected then
    store.transitionDiscoveryTransaction transactionId expected .repairPending updatedAt
      (some error)
  else .error (illegalTransition transactionId expected .repairPending)

def markDiscoveryTransactionAborted (store : SqliteStateStore)
    (transactionId : DiscoveryTransactionId) (expected : DiscoveryTransactionStatus)
    (updatedAt : Text) : StoreResult (DiscoveryTransactionRecord × SqliteStateStore) :=
  if mayAbort expected then
    store.transitionDiscoveryTransaction transactionId expected .aborted updatedAt none
  else .error (illegalTransition transactionId expected .aborted)

def markDiscoveryTransactionFinalized (store : SqliteStateStore)
    (transactionId : DiscoveryTransactionId) (finalizedAt : Text) :
    StoreResult (DiscoveryTransactionRecord × SqliteStateStore) :=
  store.transitionDiscoveryTransaction transactionId .committed .finalized finalizedAt none

end SqliteStateStore

end Locality.Discovery
