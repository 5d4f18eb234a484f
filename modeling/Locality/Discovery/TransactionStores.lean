/-
  Discovery/TransactionStores.lean --- the calls of the in-memory store and of the database
  have the effects of a life cycle, so discovery transactions are safe in both.

  A call that repair leads back to does not find its transaction where it left it, and takes
  it along once more.
-/
import Locality.Discovery.TransactionRuns
import Locality.Discovery.CommitAgreement

set_option autoImplicit false

namespace Locality.Discovery

open Locality.Core Locality.Foundation
open Locality.Daemon (EntityKey EntityRecord StoreError)

/-! ## Checks -/

theorem requireTransactionStatus_eq_ok {record : DiscoveryTransactionRecord}
    {expected : DiscoveryTransactionStatus} {u : Unit} :
    requireTransactionStatus record expected = .ok u ↔
      record.status = expected ∧ record.active = true := by
  rw [requireTransactionStatus, refuse_eq_ok, not_or, not_not, Bool.not_eq_false]

theorem requireReservation_eq_ok {transactionId : DiscoveryTransactionId}
    {reserved current : DiscoveryReservation} {u : Unit}
    (h : requireReservation transactionId reserved current = .ok u) : reserved = current := by
  rw [requireReservation] at h
  split at h
  · exact nomatch h
  · rename_i hnone
    exact DiscoveryReservation.changedCategory_eq_none.mp hnone

/-- What the record of a transaction that is reserved says. -/
structure Reserves (prepared : PreparedDiscoveryTransaction) (current : DiscoveryReservation)
    (record : DiscoveryTransactionRecord) : Prop where
  transactionId : record.transactionId = prepared.commit.transactionId
  mountId : record.mountId = prepared.commit.commit.mountId
  status : record.status = .reserved
  active : record.active = true
  reservation : record.reservation = current

theorem reserves_of_recordFromPrepared {jsonError : Text → Option Text}
    {prepared : PreparedDiscoveryTransaction} {current : DiscoveryReservation}
    {record : DiscoveryTransactionRecord}
    (h : recordFromPrepared jsonError prepared current = .ok record) :
    Reserves prepared current record := by
  obtain ⟨-, -, h⟩ := bind_eq_ok.mp h
  obtain ⟨-, -, h⟩ := bind_eq_ok.mp h
  obtain ⟨-, -, h⟩ := bind_eq_ok.mp h
  obtain ⟨-, -, h⟩ := bind_eq_ok.mp h
  obtain ⟨-, -, h⟩ := bind_eq_ok.mp h
  obtain ⟨_, hreservation, h⟩ := bind_eq_ok.mp h
  obtain ⟨-, -, h⟩ := bind_eq_ok.mp h
  cases h
  exact ⟨rfl, rfl, rfl, rfl, requireReservation_eq_ok hreservation⟩

theorem moves_of_mayProject {expected : DiscoveryTransactionStatus}
    (h : mayProject expected = true) : Moves expected .projected := by
  cases expected with
  | applying => exact .project
  | repairPending => exact .projectRepaired
  | _ => exact nomatch h

theorem moves_of_mayNeedRepair {expected : DiscoveryTransactionStatus}
    (h : mayNeedRepair expected = true) : Moves expected .repairPending := by
  cases expected with
  | applying => exact .repairApplying
  | projected => exact .repairProjected
  | _ => exact nomatch h

theorem captureReservation_entities {shared : SharedRows} {entities : RankedTable EntityRecord.key}
    {mountId : MountId} {reservation : DiscoveryReservation}
    (h : captureReservation shared entities mountId = .ok reservation) :
    reservation.entities = rowsOf (·.mountId) mountId entities := by
  rw [captureReservation] at h
  split at h
  · exact nomatch h
  · cases h
    rfl

/-- No active row is of the mount that none was found of. -/
theorem ne_of_find?_eq_none {table : RankedTable DiscoveryTransactionRecord.transactionId}
    {mountId : MountId}
    (h : table.all.find? (fun record => record.mountId == mountId && record.active) = none)
    {transactionId : DiscoveryTransactionId} {other : DiscoveryTransactionRecord}
    (hother : table.lookup transactionId = some other) (hactive : other.active = true) :
    other.mountId ≠ mountId := by
  rintro rfl
  have hkey : other.transactionId = transactionId := RankedTable.key_of_lookup hother
  have hmem : other ∈ table.all := RankedTable.mem_all.mpr (hkey ▸ hother)
  refine List.find?_eq_none.mp h other hmem ?_
  rw [hactive, beq_self_eq_true]
  rfl

/-! ## The in-memory store -/

namespace InMemoryStateStore

variable (jsonError : Text → Option Text)

def call (store : InMemoryStateStore) :
    Call → StoreResult (DiscoveryTransactionRecord × InMemoryStateStore)
  | .reserve prepared => store.reserveDiscoveryTransaction jsonError prepared
  | .applying transactionId updatedAt =>
      store.markDiscoveryTransactionApplying transactionId updatedAt
  | .effects transactionId expected effects updatedAt =>
      store.recordDiscoveryTransactionEffects transactionId expected effects updatedAt
  | .projected transactionId expected updatedAt =>
      store.markDiscoveryTransactionProjected transactionId expected updatedAt
  | .commit transactionId committedAt =>
      store.commitDiscoveryTransaction jsonError transactionId committedAt
  | .repairPending transactionId expected error updatedAt =>
      store.markDiscoveryTransactionRepairPending transactionId expected error updatedAt
  | .aborted transactionId expected updatedAt =>
      store.markDiscoveryTransactionAborted transactionId expected updatedAt
  | .finalized transactionId finalizedAt =>
      store.markDiscoveryTransactionFinalized transactionId finalizedAt

def backend : DiscoveryBackend InMemoryStateStore where
  Rows := MemoryRows
  rows := InMemoryStateStore.rows
  withRows store rows := { store with rows := rows }
  ledger store transactionId := store.discoveryTransactions.lookup transactionId
  entities rows mountId := rowsOf (·.mountId) mountId rows.entities
  capture := MemoryRows.captureDiscoveryReservation
  apply rows commit := rows.applyDiscovery jsonError commit
  call store call := store.call jsonError call

variable {jsonError} {store store' : InMemoryStateStore} {record : DiscoveryTransactionRecord}
  {transactionId : DiscoveryTransactionId} {expected next : DiscoveryTransactionStatus}

theorem writes_of_save (jsonError : Text → Option Text)
    {result : DiscoveryTransactionRecord}
    (h : store.save record = .ok (result, store')) :
    result = record ∧ (backend jsonError).Writes store record store.rows store' := by
  cases h
  refine ⟨rfl, rfl, ?_, fun transactionId hne => ?_⟩
  · exact (RankedTable.lookup_put _ _ _).trans (if_pos rfl)
  · exact (RankedTable.lookup_put _ _ _).trans (if_neg fun h => hne h.symm)

theorem expectTransaction_eq_ok (h : store.expectTransaction transactionId expected = .ok record) :
    store.discoveryTransactions.lookup transactionId = some record ∧ record.status = expected ∧
      record.active = true := by
  rw [expectTransaction] at h
  split at h
  · exact nomatch h
  · rename_i found hfound
    obtain ⟨_, hstatus, h⟩ := bind_eq_ok.mp h
    cases h
    exact ⟨hfound, requireTransactionStatus_eq_ok.mp hstatus⟩

theorem effect_of_transition {call : Call} {updatedAt : Text}
    (htransition : call.transition = some (transactionId, expected, next))
    (hmoves : Moves expected next) (huncommitted : next ≠ .committed)
    (h : store.transitionDiscoveryTransaction transactionId expected next updatedAt =
      .ok (record, store')) :
    (backend jsonError).Effect store call record store' := by
  obtain ⟨before, hbefore, h⟩ := bind_eq_ok.mp h
  obtain ⟨hfound, hwas, hrunning⟩ := expectTransaction_eq_ok hbefore
  obtain ⟨rfl, hwrites⟩ := writes_of_save jsonError h
  exact .moved htransition hmoves huncommitted hfound hwas hrunning rfl rfl
    ⟨rfl, rfl, rfl, rfl⟩ hwrites

theorem effect_of_reserve {prepared : PreparedDiscoveryTransaction}
    (h : store.reserveDiscoveryTransaction jsonError prepared = .ok (record, store')) :
    (backend jsonError).Effect store (.reserve prepared) record store' := by
  rw [reserveDiscoveryTransaction] at h
  split at h
  · rename_i existing hexisting
    split at h
    · cases h
      exact .retried hexisting
    · exact nomatch h
  · rename_i hfresh
    split at h
    · exact nomatch h
    · rename_i halone
      obtain ⟨current, hcurrent, h⟩ := bind_eq_ok.mp h
      obtain ⟨reserved, hreserved, h⟩ := bind_eq_ok.mp h
      have hreserves := reserves_of_recordFromPrepared hreserved
      obtain ⟨rfl, hwrites⟩ := writes_of_save jsonError h
      refine .reserved hfresh ?_ ?_ hreserves.transactionId hreserves.status hreserves.active hwrites
      · intro transactionId other hother hactive
        rw [hreserves.mountId]
        exact ne_of_find?_eq_none halone hother hactive
      · rw [hreserves.mountId, hreserves.reservation]
        exact hcurrent

theorem effect_of_effects {effects : Value} {updatedAt : Text}
    (h : store.recordDiscoveryTransactionEffects transactionId expected effects updatedAt =
      .ok (record, store')) :
    (backend jsonError).Effect store (.effects transactionId expected effects updatedAt) record
      store' := by
  obtain ⟨before, hbefore, h⟩ := bind_eq_ok.mp h
  obtain ⟨hfound, -, -⟩ := expectTransaction_eq_ok hbefore
  obtain ⟨rfl, hwrites⟩ := writes_of_save jsonError h
  exact .noted hfound rfl rfl ⟨rfl, rfl, rfl, rfl⟩ hwrites

theorem effect_of_commit {committedAt : Text}
    (h : store.commitDiscoveryTransaction jsonError transactionId committedAt =
      .ok (record, store')) :
    (backend jsonError).Effect store (.commit transactionId committedAt) record store' := by
  obtain ⟨before, hbefore, h⟩ := bind_eq_ok.mp h
  obtain ⟨hfound, hwas, hrunning⟩ := expectTransaction_eq_ok hbefore
  obtain ⟨-, -, h⟩ := bind_eq_ok.mp h
  obtain ⟨current, hcurrent, h⟩ := bind_eq_ok.mp h
  obtain ⟨_, hreservation, h⟩ := bind_eq_ok.mp h
  obtain ⟨rows, hrows, h⟩ := bind_eq_ok.mp h
  obtain ⟨rfl, hwrites⟩ := writes_of_save jsonError h
  refine .committed hfound hwas hrunning ?_ hrows rfl rfl ⟨rfl, rfl, rfl, rfl⟩
    ⟨hwrites.rows, hwrites.self, hwrites.others⟩
  rw [requireReservation_eq_ok hreservation]
  exact hcurrent

theorem effect_of_repairPending {error : Value} {updatedAt : Text}
    (h : store.markDiscoveryTransactionRepairPending transactionId expected error updatedAt =
      .ok (record, store')) :
    (backend jsonError).Effect store (.repairPending transactionId expected error updatedAt)
      record store' := by
  rw [markDiscoveryTransactionRepairPending] at h
  split at h
  · rename_i hexpected
    obtain ⟨before, hbefore, h⟩ := bind_eq_ok.mp h
    obtain ⟨hfound, hwas, hrunning⟩ := expectTransaction_eq_ok hbefore
    obtain ⟨rfl, hwrites⟩ := writes_of_save jsonError h
    exact .moved rfl (moves_of_mayNeedRepair hexpected) nofun hfound hwas hrunning rfl hrunning
      ⟨rfl, rfl, rfl, rfl⟩ hwrites
  · exact nomatch h

theorem effect_of_finalized {finalizedAt : Text}
    (h : store.markDiscoveryTransactionFinalized transactionId finalizedAt =
      .ok (record, store')) :
    (backend jsonError).Effect store (.finalized transactionId finalizedAt) record store' := by
  obtain ⟨⟨moved, middle⟩, hmoved, h⟩ := bind_eq_ok.mp h
  obtain ⟨before, hbefore, hmoved⟩ := bind_eq_ok.mp hmoved
  obtain ⟨hfound, hwas, hrunning⟩ := expectTransaction_eq_ok hbefore
  obtain ⟨rfl, hfirst⟩ := writes_of_save jsonError hmoved
  obtain ⟨rfl, hsecond⟩ := writes_of_save jsonError h
  refine .moved rfl .finalize nofun hfound hwas hrunning rfl rfl ⟨rfl, rfl, rfl, rfl⟩
    ⟨hsecond.rows.trans hfirst.rows, hsecond.self, fun other hne => ?_⟩
  rw [hsecond.others other hne, hfirst.others other hne]

theorem effect_of_call {call : Call} (h : store.call jsonError call = .ok (record, store')) :
    (backend jsonError).Effect store call record store' := by
  cases call with
  | reserve prepared => exact effect_of_reserve h
  | applying transactionId updatedAt => exact effect_of_transition rfl .beginApply nofun h
  | effects transactionId expected effects updatedAt => exact effect_of_effects h
  | projected transactionId expected updatedAt =>
      rw [call, markDiscoveryTransactionProjected] at h
      split at h
      · rename_i hexpected
        exact effect_of_transition rfl (moves_of_mayProject hexpected) nofun h
      · exact nomatch h
  | commit transactionId committedAt => exact effect_of_commit h
  | repairPending transactionId expected error updatedAt => exact effect_of_repairPending h
  | aborted transactionId expected updatedAt =>
      rw [call, markDiscoveryTransactionAborted] at h
      split at h
      · rename_i hexpected
        exact effect_of_transition rfl (.abort hexpected) nofun h
      · exact nomatch h
  | finalized transactionId finalizedAt => exact effect_of_finalized h

theorem lawful (jsonError : Text → Option Text) : (backend jsonError).Lawful where
  keyed _ _ _ h := RankedTable.key_of_lookup h
  effect _ _ _ _ h := effect_of_call h
  ledger_withRows _ _ := rfl
  captured _ _ _ h := captureReservation_entities h

end InMemoryStateStore

/-! ## The database -/

namespace SqliteStateStore

variable (jsonError : Text → Option Text)

def call (store : SqliteStateStore) :
    Call → StoreResult (DiscoveryTransactionRecord × SqliteStateStore)
  | .reserve prepared => store.reserveDiscoveryTransaction jsonError prepared
  | .applying transactionId updatedAt =>
      store.markDiscoveryTransactionApplying transactionId updatedAt
  | .effects transactionId expected effects updatedAt =>
      store.recordDiscoveryTransactionEffects transactionId expected effects updatedAt
  | .projected transactionId expected updatedAt =>
      store.markDiscoveryTransactionProjected transactionId expected updatedAt
  | .commit transactionId committedAt =>
      store.commitDiscoveryTransaction jsonError transactionId committedAt
  | .repairPending transactionId expected error updatedAt =>
      store.markDiscoveryTransactionRepairPending transactionId expected error updatedAt
  | .aborted transactionId expected updatedAt =>
      store.markDiscoveryTransactionAborted transactionId expected updatedAt
  | .finalized transactionId finalizedAt =>
      store.markDiscoveryTransactionFinalized transactionId finalizedAt

def backend : DiscoveryBackend SqliteStateStore where
  Rows := DatabaseRows
  rows := SqliteStateStore.rows
  withRows store rows := { store with rows := rows }
  ledger store transactionId := store.transactions.lookup transactionId
  entities rows mountId := rowsOf (·.mountId) mountId rows.entities.toRankedTable
  capture := DatabaseRows.captureDiscoveryReservation
  apply rows commit := rows.applyDiscoveryCommit jsonError commit
  call store call := store.call jsonError call

variable {jsonError} {store store' : SqliteStateStore}
  {row record : DiscoveryTransactionRecord} {transactionId : DiscoveryTransactionId}
  {expected next : DiscoveryTransactionStatus}

theorem writes_of_writeRow (jsonError : Text → Option Text)
    (h : store.writeRow row = .ok store') :
    (backend jsonError).Writes store row store.rows store' := by
  rw [writeRow] at h
  split at h
  · rename_i transactions hput
    cases h
    have htable := UniqueTable.toRankedTable_of_put hput
    have hlookup : ∀ k, transactions.lookup k =
        if row.transactionId = k then some row else store.transactions.lookup k := by
      intro k
      rw [htable]
      exact RankedTable.lookup_put _ _ _
    refine ⟨rfl, ?_, fun other hne => ?_⟩
    · exact (hlookup row.transactionId).trans (if_pos rfl)
    · exact (hlookup other).trans (if_neg fun h => hne h.symm)
  · exact nomatch h

theorem transactionFromRow_eq_ok (h : transactionFromRow row = .ok record) : record = row := by
  obtain ⟨-, -, h⟩ := bind_eq_ok.mp h
  obtain ⟨-, -, h⟩ := bind_eq_ok.mp h
  obtain ⟨-, -, h⟩ := bind_eq_ok.mp h
  obtain ⟨-, -, h⟩ := bind_eq_ok.mp h
  cases h
  rfl

/-- A transaction that is read is the row of the table. -/
theorem selectDiscoveryTransaction_eq_ok {found : Option DiscoveryTransactionRecord}
    (h : store.selectDiscoveryTransaction transactionId = .ok found) :
    store.transactions.lookup transactionId = found := by
  rw [selectDiscoveryTransaction] at h
  split at h
  · rename_i hnone
    cases h
    exact hnone
  · rename_i row hrow
    obtain ⟨record, hrecord, h⟩ := bind_eq_ok.mp h
    cases h
    rw [hrow, transactionFromRow_eq_ok hrecord]

theorem requireDiscoveryTransaction_eq_ok
    (h : store.requireDiscoveryTransaction transactionId = .ok record) :
    store.transactions.lookup transactionId = some record := by
  obtain ⟨found, hfound, h⟩ := bind_eq_ok.mp h
  have hlookup := selectDiscoveryTransaction_eq_ok hfound
  cases found with
  | none => exact nomatch h
  | some found =>
      cases h
      exact hlookup

/-- An update that is read back wrote the changed row. -/
theorem readBack_eq_ok (jsonError : Text → Option Text) {changed : Nat × SqliteStateStore}
    {during : String} {change : DiscoveryTransactionRecord → DiscoveryTransactionRecord}
    (hrow : store.transactions.lookup transactionId = some row)
    (hupdate : store.updateActive transactionId expected change = .ok changed)
    (h : readBack changed transactionId during = .ok (record, store'))
    (hchange : ∀ row, (change row).transactionId = row.transactionId) :
    record = change row ∧ row.status = expected ∧ row.active = true ∧
      (backend jsonError).Writes store record store.rows store' := by
  obtain ⟨_, hone, h⟩ := bind_eq_ok.mp h
  obtain ⟨stored, hstored, h⟩ := bind_eq_ok.mp h
  cases h
  rw [updateActive, hrow] at hupdate
  dsimp only at hupdate
  split at hupdate
  · rename_i hactive
    obtain ⟨written, hwritten, hupdate⟩ := bind_eq_ok.mp hupdate
    cases hupdate
    have hwrites := writes_of_writeRow jsonError hwritten
    have hid : (change row).transactionId = transactionId :=
      (hchange row).trans (RankedTable.key_of_lookup hrow)
    have hself : written.transactions.lookup transactionId = some (change row) :=
      hid ▸ hwrites.self
    have hsame : record = change row :=
      Option.some.inj ((requireDiscoveryTransaction_eq_ok hstored).symm.trans hself)
    rw [hsame]
    exact ⟨rfl, hactive.1, hactive.2, hwrites⟩
  · -- the update changed no row
    cases hupdate
    exact absurd Nat.zero_ne_one (refuse_eq_ok.mp hone)

theorem effect_of_transition {call : Call} {updatedAt : Text} {error : Option Value}
    (htransition : call.transition = some (transactionId, expected, next))
    (hmoves : Moves expected next) (huncommitted : next ≠ .committed)
    (h : store.transitionDiscoveryTransaction transactionId expected next updatedAt error =
      .ok (record, store')) :
    (backend jsonError).Effect store call record store' := by
  obtain ⟨before, hbefore, h⟩ := bind_eq_ok.mp h
  obtain ⟨-, -, h⟩ := bind_eq_ok.mp h
  obtain ⟨changed, hchanged, h⟩ := bind_eq_ok.mp h
  have hfound := requireDiscoveryTransaction_eq_ok hbefore
  obtain ⟨rfl, hwas, hrunning, hwrites⟩ :=
    readBack_eq_ok jsonError hfound hchanged h fun _ => rfl
  exact .moved htransition hmoves huncommitted hfound hwas hrunning rfl rfl
    ⟨rfl, rfl, rfl, rfl⟩ hwrites

theorem effect_of_reserve {prepared : PreparedDiscoveryTransaction}
    (h : store.reserveDiscoveryTransaction jsonError prepared = .ok (record, store')) :
    (backend jsonError).Effect store (.reserve prepared) record store' := by
  obtain ⟨found, hfound, h⟩ := bind_eq_ok.mp h
  have hlookup := selectDiscoveryTransaction_eq_ok hfound
  cases found with
  | some existing =>
      dsimp only at h
      split at h
      · cases h
        exact .retried hlookup
      · exact nomatch h
  | none =>
      dsimp only at h
      split at h
      · exact nomatch h
      · rename_i halone
        obtain ⟨current, hcurrent, h⟩ := bind_eq_ok.mp h
        obtain ⟨reserved, hreserved, h⟩ := bind_eq_ok.mp h
        obtain ⟨written, hwritten, h⟩ := bind_eq_ok.mp h
        obtain ⟨stored, hstored, h⟩ := bind_eq_ok.mp h
        cases h
        have hreserves := reserves_of_recordFromPrepared hreserved
        have hwrites := writes_of_writeRow jsonError hwritten
        have hself : store'.transactions.lookup prepared.commit.transactionId =
            some reserved := hreserves.transactionId ▸ hwrites.self
        have hsame : record = reserved :=
          Option.some.inj ((requireDiscoveryTransaction_eq_ok hstored).symm.trans hself)
        rw [hsame]
        refine .reserved hlookup ?_ ?_ hreserves.transactionId hreserves.status hreserves.active hwrites
        · intro transactionId other hother hactive
          rw [hreserves.mountId]
          exact ne_of_find?_eq_none halone hother hactive
        · rw [hreserves.mountId, hreserves.reservation]
          exact hcurrent

theorem effect_of_effects {effects : Value} {updatedAt : Text}
    (h : store.recordDiscoveryTransactionEffects transactionId expected effects updatedAt =
      .ok (record, store')) :
    (backend jsonError).Effect store (.effects transactionId expected effects updatedAt) record
      store' := by
  obtain ⟨before, hbefore, h⟩ := bind_eq_ok.mp h
  obtain ⟨-, -, h⟩ := bind_eq_ok.mp h
  obtain ⟨changed, hchanged, h⟩ := bind_eq_ok.mp h
  have hfound := requireDiscoveryTransaction_eq_ok hbefore
  obtain ⟨rfl, -, -, hwrites⟩ :=
    readBack_eq_ok jsonError hfound hchanged h fun _ => rfl
  exact .noted hfound rfl rfl ⟨rfl, rfl, rfl, rfl⟩ hwrites

theorem effect_of_commit {committedAt : Text}
    (h : store.commitDiscoveryTransaction jsonError transactionId committedAt =
      .ok (record, store')) :
    (backend jsonError).Effect store (.commit transactionId committedAt) record store' := by
  obtain ⟨before, hbefore, h⟩ := bind_eq_ok.mp h
  obtain ⟨-, -, h⟩ := bind_eq_ok.mp h
  obtain ⟨current, hcurrent, h⟩ := bind_eq_ok.mp h
  obtain ⟨_, hreservation, h⟩ := bind_eq_ok.mp h
  obtain ⟨rows, hrows, h⟩ := bind_eq_ok.mp h
  obtain ⟨changed, hchanged, h⟩ := bind_eq_ok.mp h
  have hfound := requireDiscoveryTransaction_eq_ok hbefore
  have hfound' : ({ store with rows := rows } : SqliteStateStore).transactions.lookup
      transactionId = some before := hfound
  obtain ⟨rfl, hwas, hrunning, hwrites⟩ :=
    readBack_eq_ok jsonError hfound' hchanged h fun _ => rfl
  refine .committed hfound hwas hrunning ?_ hrows rfl hrunning ⟨rfl, rfl, rfl, rfl⟩
    ⟨hwrites.rows, hwrites.self, hwrites.others⟩
  rw [requireReservation_eq_ok hreservation]
  exact hcurrent

theorem effect_of_call {call : Call} (h : store.call jsonError call = .ok (record, store')) :
    (backend jsonError).Effect store call record store' := by
  cases call with
  | reserve prepared => exact effect_of_reserve h
  | applying transactionId updatedAt => exact effect_of_transition rfl .beginApply nofun h
  | effects transactionId expected effects updatedAt => exact effect_of_effects h
  | projected transactionId expected updatedAt =>
      rw [call, markDiscoveryTransactionProjected] at h
      split at h
      · rename_i hexpected
        exact effect_of_transition rfl (moves_of_mayProject hexpected) nofun h
      · exact nomatch h
  | commit transactionId committedAt => exact effect_of_commit h
  | repairPending transactionId expected error updatedAt =>
      rw [call, markDiscoveryTransactionRepairPending] at h
      split at h
      · rename_i hexpected
        exact effect_of_transition rfl (moves_of_mayNeedRepair hexpected) nofun h
      · exact nomatch h
  | aborted transactionId expected updatedAt =>
      rw [call, markDiscoveryTransactionAborted] at h
      split at h
      · rename_i hexpected
        exact effect_of_transition rfl (.abort hexpected) nofun h
      · exact nomatch h
  | finalized transactionId finalizedAt => exact effect_of_transition rfl .finalize nofun h

theorem lawful (jsonError : Text → Option Text) : (backend jsonError).Lawful where
  keyed _ _ _ h := RankedTable.key_of_lookup h
  effect _ _ _ _ h := effect_of_call h
  ledger_withRows _ _ := rfl
  captured _ _ _ h := captureReservation_entities h

end SqliteStateStore

/-! ## Both stores -/

/-- Discovery transactions are safe in both stores. -/
theorem safe_life_cycle (jsonError : Text → Option Text) :
    (InMemoryStateStore.backend jsonError).SafeLifeCycle ∧
      (SqliteStateStore.backend jsonError).SafeLifeCycle :=
  ⟨(InMemoryStateStore.lawful jsonError).safeLifeCycle,
    (SqliteStateStore.lawful jsonError).safeLifeCycle⟩

/-- A call that succeeded changes nothing, however much later it comes again. -/
def RepeatsChangeNothing {σ : Type} (backend : DiscoveryBackend σ) : Prop :=
  ∀ store earlier call between, backend.Fresh store → ¬ DiscoveryBackend.IsEffects call →
    backend.Succeeds (backend.run store earlier) call →
      backend.run store (earlier ++ .call call :: between ++ [.call call]) =
        backend.run store (earlier ++ .call call :: between)

def sampleReservation : DiscoveryReservation where
  mount := sampleMount
  mountLiveMode := none
  checkpoint := none
  entities := [sampleEntity "a" "a.md", sampleEntity "b" "b.md"]
  shadows := []
  hydrationJobs := []
  virtualMutations := []
  autoSaveEnrollments := [sampleEnrollment "a.md" "t0"]
  remoteObservations := []
  freshnessStates := []
  metadataDiscoveryJobs := []
  unsettledJournals := []

def samplePrepared : PreparedDiscoveryTransaction where
  commit := ⟨⟨"d".toList⟩, sampleCommit [] []⟩
  projection := .plainFiles
  plan := "null".toList
  reservation := sampleReservation
  effects := "null".toList
  createdAt := "t0".toList

/-- The transaction is reserved and applied, and its repair begins. -/
def repairBegins : List Call :=
  [.reserve samplePrepared, .applying ⟨"d".toList⟩ "t1".toList,
    .repairPending ⟨"d".toList⟩ .applying "null".toList "t2".toList]

/-- The projection is marked as repaired. -/
def projectRepaired : Call := .projected ⟨"d".toList⟩ .repairPending "t3".toList

/-- The projection needs another repair. -/
def repairAgain : Call := .repairPending ⟨"d".toList⟩ .projected "null".toList "t4".toList

/-- A repeated call that moves a transaction shows that repeats change something. -/
theorem not_repeatsChangeNothing {σ : Type} {backend : DiscoveryBackend σ} (store : σ)
    (hfresh : backend.Fresh store)
    (hsucceeds : (backend.call (backend.run store (repairBegins.map .call))
      projectRepaired).toBool = true)
    (hbefore : (backend.ledger (backend.run store (repairBegins.map .call ++
      [.call projectRepaired, .call repairAgain])) ⟨"d".toList⟩).map (·.status) =
        some .repairPending)
    (hafter : (backend.ledger (backend.run store (repairBegins.map .call ++
      [.call projectRepaired, .call repairAgain, .call projectRepaired])) ⟨"d".toList⟩).map
        (·.status) = some .projected) :
    ¬ RepeatsChangeNothing backend := by
  intro h
  have hagain := h store (repairBegins.map .call) projectRepaired [.call repairAgain] hfresh id
    (by
      cases hcall : backend.call (backend.run store (repairBegins.map .call)) projectRepaired with
      | error error =>
          rw [hcall] at hsucceeds
          exact nomatch hsucceeds
      | ok result => exact ⟨result.1, result.2, hcall⟩)
  rw [List.append_assoc] at hagain
  have hsame := hafter.symm.trans
    ((congrArg (fun store => (backend.ledger store ⟨"d".toList⟩).map (·.status)) hagain).trans
      hbefore)
  exact nomatch hsame

/-- In both stores a projection that was marked as repaired is marked so again, after another
repair began. -/
theorem repeats_change_something :
    ¬ RepeatsChangeNothing (InMemoryStateStore.backend fun _ => none) ∧
      ¬ RepeatsChangeNothing (SqliteStateStore.backend fun _ => none) := by
  constructor
  · exact not_repeatsChangeNothing ⟨sampleMemory, .empty⟩
      (fun _ => RankedTable.lookup_empty _) (by decide +kernel) (by decide +kernel)
      (by decide +kernel)
  · exact not_repeatsChangeNothing ⟨sampleDatabase, .empty⟩
      (fun _ => RankedTable.lookup_empty _) (by decide +kernel) (by decide +kernel)
      (by decide +kernel)

end Locality.Discovery
