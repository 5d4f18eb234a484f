/-
  Discovery/LifeCycle.lean --- the life cycle of discovery transactions over any store whose
  calls have the effects of one.

  A call that succeeds repeats a reservation, makes one, moves a transaction to another
  status, notes its effects, or commits it; only a commit changes rows.  Between the calls
  the rows are written by others, in any way.  A transaction that is past a status does not
  come back to it, but for the two that repair leads between.
-/
import Locality.Discovery.Transactions

set_option autoImplicit false

namespace Locality.Discovery

open Locality.Core Locality.Foundation
open Locality.Daemon (EntityKey EntityRecord StoreError)

/-! ## Calls and their effects -/

inductive Call where
  | reserve (prepared : PreparedDiscoveryTransaction)
  | applying (transactionId : DiscoveryTransactionId) (updatedAt : Text)
  | effects (transactionId : DiscoveryTransactionId) (expected : DiscoveryTransactionStatus)
      (effects : Value) (updatedAt : Text)
  | projected (transactionId : DiscoveryTransactionId) (expected : DiscoveryTransactionStatus)
      (updatedAt : Text)
  | commit (transactionId : DiscoveryTransactionId) (committedAt : Text)
  | repairPending (transactionId : DiscoveryTransactionId)
      (expected : DiscoveryTransactionStatus) (error : Value) (updatedAt : Text)
  | aborted (transactionId : DiscoveryTransactionId) (expected : DiscoveryTransactionStatus)
      (updatedAt : Text)
  | finalized (transactionId : DiscoveryTransactionId) (finalizedAt : Text)

/-- The transaction that a call moves, from which status and to which one. -/
def Call.transition :
    Call → Option (DiscoveryTransactionId × DiscoveryTransactionStatus ×
      DiscoveryTransactionStatus)
  | .reserve _ | .effects _ _ _ _ => none
  | .applying transactionId _ => some (transactionId, .reserved, .applying)
  | .projected transactionId expected _ => some (transactionId, expected, .projected)
  | .commit transactionId _ => some (transactionId, .projected, .committed)
  | .repairPending transactionId expected _ _ => some (transactionId, expected, .repairPending)
  | .aborted transactionId expected _ => some (transactionId, expected, .aborted)
  | .finalized transactionId _ => some (transactionId, .committed, .finalized)

/-- The status of a transaction moves along its life cycle. -/
inductive Moves : DiscoveryTransactionStatus → DiscoveryTransactionStatus → Prop where
  | beginApply : Moves .reserved .applying
  | project : Moves .applying .projected
  | projectRepaired : Moves .repairPending .projected
  | repairApplying : Moves .applying .repairPending
  | repairProjected : Moves .projected .repairPending
  | commit : Moves .projected .committed
  | finalize : Moves .committed .finalized
  | abort {status : DiscoveryTransactionStatus} (h : mayAbort status = true) :
      Moves status .aborted

/-- A store with discovery transactions: its rows, which others write too, and its ledger. -/
structure DiscoveryBackend (σ : Type) where
  Rows : Type
  rows : σ → Rows
  withRows : σ → Rows → σ
  ledger : σ → DiscoveryTransactionId → Option DiscoveryTransactionRecord
  entities : Rows → MountId → List EntityRecord
  capture : Rows → MountId → StoreResult DiscoveryReservation
  apply : Rows → DiscoveryCommit → StoreResult Rows
  call : σ → Call → StoreResult (DiscoveryTransactionRecord × σ)

namespace DiscoveryBackend

variable {σ : Type}

/-- The store has the rows, and the record in its ledger. -/
structure Writes (backend : DiscoveryBackend σ) (store : σ)
    (record : DiscoveryTransactionRecord) (rows : backend.Rows) (store' : σ) : Prop where
  rows : backend.rows store' = rows
  self : backend.ledger store' record.transactionId = some record
  others : ∀ transactionId, transactionId ≠ record.transactionId →
    backend.ledger store' transactionId = backend.ledger store transactionId

/-- The record is of the same transaction, over the same reservation. -/
structure SameTransaction (before record : DiscoveryTransactionRecord) : Prop where
  transactionId : record.transactionId = before.transactionId
  mountId : record.mountId = before.mountId
  commit : record.commit = before.commit
  reservation : record.reservation = before.reservation

/-- What a call that succeeds does to its store. -/
inductive Effect (backend : DiscoveryBackend σ) (store : σ) :
    Call → DiscoveryTransactionRecord → σ → Prop where
  | retried {prepared : PreparedDiscoveryTransaction} {record : DiscoveryTransactionRecord}
      (found : backend.ledger store prepared.commit.transactionId = some record) :
      Effect backend store (.reserve prepared) record store
  | reserved {prepared : PreparedDiscoveryTransaction} {record : DiscoveryTransactionRecord}
      {store' : σ} (fresh : backend.ledger store prepared.commit.transactionId = none)
      (alone : ∀ transactionId other, backend.ledger store transactionId = some other →
        other.active = true → other.mountId ≠ record.mountId)
      (captured : backend.capture (backend.rows store) record.mountId = .ok record.reservation)
      (id : record.transactionId = prepared.commit.transactionId)
      (status : record.status = .reserved) (active : record.active = true)
      (writes : backend.Writes store record (backend.rows store) store') :
      Effect backend store (.reserve prepared) record store'
  | moved {call : Call} {transactionId : DiscoveryTransactionId}
      {expected next : DiscoveryTransactionStatus} {before record : DiscoveryTransactionRecord}
      {store' : σ} (transition : call.transition = some (transactionId, expected, next))
      (moves : Moves expected next) (uncommitted : next ≠ .committed)
      (found : backend.ledger store transactionId = some before)
      (was : before.status = expected) (running : before.active = true)
      (status : record.status = next) (active : record.active = next.isActive)
      (same : SameTransaction before record)
      (writes : backend.Writes store record (backend.rows store) store') :
      Effect backend store call record store'
  | noted {transactionId : DiscoveryTransactionId} {expected : DiscoveryTransactionStatus}
      {effects : Value} {updatedAt : Text} {before record : DiscoveryTransactionRecord}
      {store' : σ} (found : backend.ledger store transactionId = some before)
      (status : record.status = before.status) (active : record.active = before.active)
      (same : SameTransaction before record)
      (writes : backend.Writes store record (backend.rows store) store') :
      Effect backend store (.effects transactionId expected effects updatedAt) record store'
  | committed {transactionId : DiscoveryTransactionId} {committedAt : Text}
      {before record : DiscoveryTransactionRecord} {rows : backend.Rows} {store' : σ}
      (found : backend.ledger store transactionId = some before)
      (was : before.status = .projected) (running : before.active = true)
      (unchanged : backend.capture (backend.rows store) before.mountId =
        .ok before.reservation)
      (applied : backend.apply (backend.rows store) before.commit.commit = .ok rows)
      (status : record.status = .committed) (active : record.active = true)
      (same : SameTransaction before record)
      (writes : backend.Writes store record rows store') :
      Effect backend store (.commit transactionId committedAt) record store'

/-- The calls of the store have these effects, and other writes leave its ledger. -/
structure Lawful (backend : DiscoveryBackend σ) : Prop where
  keyed : ∀ store transactionId record,
    backend.ledger store transactionId = some record → record.transactionId = transactionId
  effect : ∀ store call record store',
    backend.call store call = .ok (record, store') → backend.Effect store call record store'
  ledger_withRows : ∀ store rows, backend.ledger (backend.withRows store rows) =
    backend.ledger store
  captured : ∀ rows mountId reservation, backend.capture rows mountId = .ok reservation →
    reservation.entities = backend.entities rows mountId

/-! ## Runs -/

/-- A call, or another write of rows. -/
inductive Event (backend : DiscoveryBackend σ) where
  | call (call : Call)
  | write (rows : backend.Rows)

def after (backend : DiscoveryBackend σ) (store : σ) : Event backend → σ
  | .call call =>
      match backend.call store call with
      | .ok (_, store') => store'
      | .error _ => store
  | .write rows => backend.withRows store rows

def run (backend : DiscoveryBackend σ) (store : σ) (events : List (Event backend)) : σ :=
  events.foldl backend.after store

/-- No transaction was ever reserved. -/
def Fresh (backend : DiscoveryBackend σ) (store : σ) : Prop :=
  ∀ transactionId, backend.ledger store transactionId = none

def Succeeds (backend : DiscoveryBackend σ) (store : σ) (call : Call) : Prop :=
  ∃ record store', backend.call store call = .ok (record, store')

/-- The event is a commit of the transaction that succeeds. -/
def commitsNow (backend : DiscoveryBackend σ) (store : σ)
    (transactionId : DiscoveryTransactionId) : Event backend → Bool
  | .call (.commit committing committedAt) =>
      decide (committing = transactionId) &&
        (backend.call store (.commit committing committedAt)).toBool
  | _ => false

/-- How often the run commits the transaction. -/
def commitCount (backend : DiscoveryBackend σ) (transactionId : DiscoveryTransactionId) :
    σ → List (Event backend) → Nat
  | _, [] => 0
  | store, event :: events =>
      (backend.commitsNow store transactionId event).toNat +
        commitCount backend transactionId (backend.after store event) events

/-- The transaction was committed, and is that or finalized. -/
def isCommitted (record : Option DiscoveryTransactionRecord) : Bool :=
  record.any fun record => record.status == .committed || record.status == .finalized

/-- The call takes a transaction once more from the status that repair led it back to. -/
def RepairsAgain (backend : DiscoveryBackend σ) (store : σ) (call : Call) : Prop :=
  ∃ transactionId expected next record,
    call.transition = some (transactionId, expected, next) ∧
      backend.ledger store transactionId = some record ∧ record.status = expected ∧
        (expected = .repairPending ∧ next = .projected ∨
          expected = .projected ∧ next = .repairPending)

def IsEffects : Call → Prop
  | .effects _ _ _ _ => True
  | _ => False

section Steps

variable {backend : DiscoveryBackend σ} (hlawful : backend.Lawful) {store : σ}

theorem after_call_of_ok {call : Call} {record : DiscoveryTransactionRecord} {store' : σ}
    (h : backend.call store call = .ok (record, store')) :
    backend.after store (.call call) = store' := by
  rw [after, h]

theorem after_call_of_not_succeeds {call : Call} (h : ¬ backend.Succeeds store call) :
    backend.after store (.call call) = store := by
  rw [after]
  split
  · rename_i record store' hcall
    exact absurd ⟨record, store', hcall⟩ h
  · rfl

/-! ## One step -/

/-- The later record is of the same transaction, at the same status or one move further. -/
def Advances (before record : DiscoveryTransactionRecord) : Prop :=
  SameTransaction before record ∧
    (record.status = before.status ∧ record.active = before.active ∨
      Moves before.status record.status ∧ record.active = record.status.isActive)

theorem Advances.refl (record : DiscoveryTransactionRecord) : Advances record record :=
  ⟨⟨rfl, rfl, rfl, rfl⟩, Or.inl ⟨rfl, rfl⟩⟩

include hlawful

/-- A write in the ledger, seen at one transaction. -/
theorem ledger_of_writes {transactionId : DiscoveryTransactionId}
    {before record : DiscoveryTransactionRecord} {rows : backend.Rows} {store' : σ}
    (hfound : backend.ledger store transactionId = some before)
    (hsame : SameTransaction before record)
    (hwrites : backend.Writes store record rows store') :
    record.transactionId = transactionId ∧
      backend.ledger store' transactionId = some record := by
  have hid : record.transactionId = transactionId :=
    hsame.transactionId.trans (hlawful.keyed store transactionId before hfound)
  exact ⟨hid, hid ▸ hwrites.self⟩

/-- An event advances a transaction, or leaves it. -/
theorem advances_of_after {event : Event backend} {transactionId : DiscoveryTransactionId}
    {before : DiscoveryTransactionRecord}
    (hbefore : backend.ledger store transactionId = some before) :
    ∃ record, backend.ledger (backend.after store event) transactionId = some record ∧
      Advances before record := by
  -- a write at another transaction leaves this one
  have helsewhere : ∀ {moving : DiscoveryTransactionId} {was record : DiscoveryTransactionRecord}
      {rows : backend.Rows} {store' : σ}, backend.ledger store moving = some was →
        SameTransaction was record → backend.Writes store record rows store' →
          (was.status = record.status ∧ was.active = record.active ∨
            Moves was.status record.status ∧ record.active = record.status.isActive) →
          ∃ record, backend.ledger store' transactionId = some record ∧
            Advances before record := by
    intro moving was record rows store' hfound hsame hwrites hstatus
    obtain ⟨hid, hself⟩ := ledger_of_writes hlawful hfound hsame hwrites
    by_cases hmoving : transactionId = moving
    · subst hmoving
      cases hbefore.symm.trans hfound
      refine ⟨record, hself, hsame, hstatus.imp_left ?_⟩
      exact fun h => ⟨h.1.symm, h.2.symm⟩
    · refine ⟨before, ?_, Advances.refl before⟩
      rw [hwrites.others transactionId (fun h => hmoving (h.trans hid))]
      exact hbefore
  cases event with
  | write rows =>
      refine ⟨before, ?_, Advances.refl before⟩
      rw [after, hlawful.ledger_withRows]
      exact hbefore
  | call call =>
      by_cases hsucceeds : backend.Succeeds store call
      · obtain ⟨record, store', hcall⟩ := hsucceeds
        rw [after_call_of_ok hcall]
        cases hlawful.effect store call record store' hcall with
        | retried found => exact ⟨before, hbefore, Advances.refl before⟩
        | reserved fresh alone captured id status active writes =>
            refine ⟨before, ?_, Advances.refl before⟩
            rw [writes.others transactionId]
            · exact hbefore
            · rintro rfl
              rw [id, fresh] at hbefore
              exact nomatch hbefore
        | moved transition moves uncommitted found was running status active same writes =>
            refine helsewhere found same writes (Or.inr ⟨?_, ?_⟩)
            · rw [was, status]
              exact moves
            · rw [status]
              exact active
        | noted found status active same writes =>
            exact helsewhere found same writes (Or.inl ⟨status.symm, active.symm⟩)
        | committed found was running unchanged applied status active same writes =>
            refine helsewhere found same writes (Or.inr ⟨?_, ?_⟩)
            · rw [was, status]
              exact Moves.commit
            · rw [status]
              exact active
      · rw [after_call_of_not_succeeds hsucceeds]
        exact ⟨before, hbefore, Advances.refl before⟩

/-- A transaction that an event brings into the ledger is reserved by it. -/
theorem reserved_of_after {event : Event backend} {transactionId : DiscoveryTransactionId}
    {record : DiscoveryTransactionRecord}
    (hnone : backend.ledger store transactionId = none)
    (hsome : backend.ledger (backend.after store event) transactionId = some record) :
    ∃ prepared, event = .call (.reserve prepared) ∧
      prepared.commit.transactionId = transactionId ∧ record.status = .reserved ∧
        record.active = true ∧
          backend.capture (backend.rows store) record.mountId = .ok record.reservation ∧
            ∀ other found, backend.ledger store other = some found → found.active = true →
              found.mountId ≠ record.mountId := by
  -- nothing else writes a transaction that is not there
  have hnowhere : ∀ {moving : DiscoveryTransactionId} {was written : DiscoveryTransactionRecord}
      {rows : backend.Rows} {store' : σ}, backend.ledger store moving = some was →
        SameTransaction was written → backend.Writes store written rows store' →
          backend.ledger store' transactionId = none := by
    intro moving was written rows store' hfound hsame hwrites
    obtain ⟨hid, -⟩ := ledger_of_writes hlawful hfound hsame hwrites
    rw [hwrites.others transactionId, hnone]
    rintro rfl
    rw [hid, hfound] at hnone
    exact nomatch hnone
  cases event with
  | write rows =>
      rw [after, hlawful.ledger_withRows, hnone] at hsome
      exact nomatch hsome
  | call call =>
      by_cases hsucceeds : backend.Succeeds store call
      · obtain ⟨result, store', hcall⟩ := hsucceeds
        rw [after_call_of_ok hcall] at hsome
        cases hlawful.effect store call result store' hcall with
        | retried found =>
            rw [hnone] at hsome
            exact nomatch hsome
        | @reserved prepared _ _ fresh alone captured id status active writes =>
            by_cases hid : transactionId = result.transactionId
            · rw [hid, writes.self] at hsome
              cases hsome
              exact ⟨prepared, rfl, id.symm.trans hid.symm, status, active, captured, alone⟩
            · rw [writes.others transactionId hid, hnone] at hsome
              exact nomatch hsome
        | moved transition moves uncommitted found was running status active same writes =>
            rw [hnowhere found same writes] at hsome
            exact nomatch hsome
        | noted found status active same writes =>
            rw [hnowhere found same writes] at hsome
            exact nomatch hsome
        | committed found was running unchanged applied status active same writes =>
            rw [hnowhere found same writes] at hsome
            exact nomatch hsome
      · rw [after_call_of_not_succeeds hsucceeds, hnone] at hsome
        exact nomatch hsome

/-! ## What every run keeps -/

/-- The status of each transaction says whether it is active, and no two active ones are of
one mount. -/
structure Consistent (backend : DiscoveryBackend σ) (store : σ) : Prop where
  marked : ∀ transactionId record, backend.ledger store transactionId = some record →
    record.active = record.status.isActive
  oneActive : ∀ transactionId record transactionId' record',
    backend.ledger store transactionId = some record →
      backend.ledger store transactionId' = some record' → record.active = true →
        record'.active = true → record.mountId = record'.mountId →
          transactionId = transactionId'

omit hlawful in
theorem consistent_of_fresh (h : backend.Fresh store) : Consistent backend store where
  marked transactionId record hfound := by
    rw [h transactionId] at hfound
    exact nomatch hfound
  oneActive transactionId record _ _ hfound := by
    rw [h transactionId] at hfound
    exact nomatch hfound

omit hlawful in
/-- No move ends where a transaction is active and starts where it is not. -/
theorem Moves.active {status status' : DiscoveryTransactionStatus} (h : Moves status status') :
    status.isActive = true := by
  cases h with
  | abort h => revert h; cases status <;> decide
  | _ => rfl

/-- What stood in the ledger before an event, of what stands in it after. -/
theorem before_of_after {event : Event backend} {transactionId : DiscoveryTransactionId}
    {record : DiscoveryTransactionRecord}
    (h : backend.ledger (backend.after store event) transactionId = some record) :
    backend.ledger store transactionId = none ∨
      ∃ before, backend.ledger store transactionId = some before ∧ Advances before record := by
  cases hbefore : backend.ledger store transactionId with
  | none => exact Or.inl rfl
  | some before =>
      obtain ⟨record', hrecord, hadvances⟩ := advances_of_after hlawful hbefore
      cases hrecord.symm.trans h
      exact Or.inr ⟨before, rfl, hadvances⟩

/-- An event keeps the ledger consistent. -/
theorem Consistent.after {event : Event backend} (h : Consistent backend store) :
    Consistent backend (backend.after store event) := by
  -- an advanced transaction that is active was active
  have hwas : ∀ {transactionId : DiscoveryTransactionId}
      {before record : DiscoveryTransactionRecord},
      backend.ledger store transactionId = some before → Advances before record →
        record.active = true → before.active = true := by
    intro transactionId before record hbefore hadvances hactive
    rcases hadvances.2 with ⟨-, hsame⟩ | ⟨hmoves, -⟩
    · exact hsame.symm.trans hactive
    · rw [h.marked transactionId before hbefore]
      exact Moves.active hmoves
  exact {
    marked := by
      intro transactionId record hrecord
      rcases before_of_after hlawful hrecord with hnone | ⟨before, hbefore, hadvances⟩
      · obtain ⟨_, -, -, hstatus, hactive, -⟩ := reserved_of_after hlawful hnone hrecord
        rw [hstatus, hactive]
        rfl
      · rcases hadvances.2 with ⟨hstatus, hactive⟩ | ⟨-, hactive⟩
        · rw [hstatus, hactive]
          exact h.marked transactionId before hbefore
        · exact hactive
    oneActive := by
      intro transactionId record transactionId' record' hrecord hrecord' hactive hactive' hmount
      rcases before_of_after hlawful hrecord with hnone | ⟨before, hbefore, hadvances⟩
      · obtain ⟨prepared, rfl, hid, -, -, -, halone⟩ := reserved_of_after hlawful hnone hrecord
        rcases before_of_after hlawful hrecord' with hnone' | ⟨before', hbefore', hadvances'⟩
        · obtain ⟨prepared', heq, hid', -⟩ := reserved_of_after hlawful hnone' hrecord'
          cases heq
          exact hid.symm.trans hid'
        · refine absurd ?_ (halone transactionId' before' hbefore'
            (hwas hbefore' hadvances' hactive'))
          rw [hmount, hadvances'.1.mountId]
      · rcases before_of_after hlawful hrecord' with hnone' | ⟨before', hbefore', hadvances'⟩
        · obtain ⟨prepared', -, -, -, -, -, halone⟩ := reserved_of_after hlawful hnone' hrecord'
          refine absurd ?_ (halone transactionId before hbefore (hwas hbefore hadvances hactive))
          rw [← hmount, hadvances.1.mountId]
        · refine h.oneActive transactionId before transactionId' before' hbefore hbefore'
            (hwas hbefore hadvances hactive) (hwas hbefore' hadvances' hactive') ?_
          rw [← hadvances.1.mountId, hmount, hadvances'.1.mountId] }

theorem Consistent.run {events : List (Event backend)} :
    ∀ {store : σ}, Consistent backend store → Consistent backend (backend.run store events) := by
  induction events with
  | nil => exact fun h => h
  | cons event events ih => exact fun h => ih (h.after hlawful)

end Steps

end DiscoveryBackend

end Locality.Discovery
