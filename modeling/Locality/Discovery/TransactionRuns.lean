/-
  Discovery/TransactionRuns.lean --- what holds of discovery transactions over whole runs.

  A run starts from a store without transactions and takes the calls and the other writes in
  any order.  The results are collected in `SafeLifeCycle`, and hold of every store whose
  calls have the effects of a life cycle.
-/
import Locality.Discovery.LifeCycle

set_option autoImplicit false

namespace Locality.Discovery

open Locality.Core Locality.Foundation
open Locality.Daemon (EntityKey EntityRecord StoreError)

/-! ## The order of statuses -/

/-- How far a transaction is; repair stands where the projection does. -/
def DiscoveryTransactionStatus.progress : DiscoveryTransactionStatus → Nat
  | .reserved => 0
  | .applying => 1
  | .projected | .repairPending => 2
  | .committed => 3
  | .finalized => 4
  | .aborted => 5

theorem Moves.progress_le {status status' : DiscoveryTransactionStatus}
    (h : Moves status status') : status.progress ≤ status'.progress := by
  cases h with
  | abort h => cases status <;> decide
  | _ => decide

/-- A move goes on, or is one of the two that repair leads between. -/
theorem Moves.progress_lt_or {status status' : DiscoveryTransactionStatus}
    (h : Moves status status') : status.progress < status'.progress ∨
      status = .repairPending ∧ status' = .projected ∨
        status = .projected ∧ status' = .repairPending := by
  cases h with
  | abort h => revert h; cases status <;> decide
  | _ => decide

theorem Moves.ne {status status' : DiscoveryTransactionStatus} (h : Moves status status') :
    status ≠ status' := by
  cases h with
  | abort h => revert h; cases status <;> decide
  | _ => decide

/-- Only a commit, and what follows it, is past the commit. -/
theorem Moves.committed_iff {status status' : DiscoveryTransactionStatus}
    (h : Moves status status') (huncommitted : status' ≠ .committed) :
    (status = .committed ∨ status = .finalized) ↔
      (status' = .committed ∨ status' = .finalized) := by
  cases h with
  | abort h => revert h; cases status <;> decide
  | commit => exact absurd rfl huncommitted
  | _ => decide

namespace DiscoveryBackend

variable {σ : Type}

/-! ## The life cycle -/

/-- What holds of the transactions of a store after any run from one without any. -/
structure SafeLifeCycle (backend : DiscoveryBackend σ) : Prop where
  /-- A mount has at most one active transaction. -/
  oneActive : ∀ store events, backend.Fresh store → ∀ transactionId record transactionId' record',
    backend.ledger (backend.run store events) transactionId = some record →
      backend.ledger (backend.run store events) transactionId' = some record' →
        record.active = true → record'.active = true → record.mountId = record'.mountId →
          transactionId = transactionId'
  /-- A transaction is active until it is finalized or aborted. -/
  active : ∀ store events, backend.Fresh store → ∀ transactionId record,
    backend.ledger (backend.run store events) transactionId = some record →
      record.active = record.status.isActive
  /-- A transaction starts reserved. -/
  starts : ∀ store events event, backend.Fresh store → ∀ transactionId record,
    backend.ledger (backend.run store events) transactionId = none →
      backend.ledger (backend.run store (events ++ [event])) transactionId = some record →
        record.status = .reserved
  /-- The status of a transaction stays or moves along. -/
  moves : ∀ store events event, backend.Fresh store → ∀ transactionId before,
    backend.ledger (backend.run store events) transactionId = some before →
      ∃ record, backend.ledger (backend.run store (events ++ [event])) transactionId =
          some record ∧
        (record.status = before.status ∨ Moves before.status record.status)
  /-- A transaction was committed once when it is committed or finalized, and else never. -/
  once : ∀ store events, backend.Fresh store → ∀ transactionId,
    backend.commitCount transactionId store events =
      (isCommitted (backend.ledger (backend.run store events) transactionId)).toNat
  /-- A commit that succeeds applies the transaction. -/
  applies : ∀ store events, backend.Fresh store → ∀ transactionId committedAt record store',
    backend.call (backend.run store events) (.commit transactionId committedAt) =
        .ok (record, store') →
      backend.apply (backend.rows (backend.run store events)) record.commit.commit =
        .ok (backend.rows store')
  /-- No other call changes rows. -/
  untouched : ∀ store events call, backend.Fresh store →
    (∀ transactionId, backend.commitsNow (backend.run store events) transactionId (.call call) =
        false) →
      backend.rows (backend.run store (events ++ [.call call])) =
        backend.rows (backend.run store events)
  /-- What a commit that succeeds finds is what its reservation was made of. -/
  current : ∀ store events, backend.Fresh store → ∀ transactionId committedAt record store',
    backend.call (backend.run store events) (.commit transactionId committedAt) =
        .ok (record, store') →
      ∃ earlier prepared rest, events = earlier ++ .call (.reserve prepared) :: rest ∧
        prepared.commit.transactionId = transactionId ∧
          backend.ledger (backend.run store earlier) transactionId = none ∧
            backend.capture (backend.rows (backend.run store events)) record.mountId =
              backend.capture (backend.rows (backend.run store earlier)) record.mountId ∧
            backend.entities (backend.rows (backend.run store events)) record.mountId =
              backend.entities (backend.rows (backend.run store earlier)) record.mountId
  /-- A call that succeeded changes nothing when it comes again, unless repair has led its
  transaction back to where it starts from. -/
  repeats : ∀ store earlier call between, backend.Fresh store → ¬ IsEffects call →
    backend.Succeeds (backend.run store earlier) call →
      ¬ backend.RepairsAgain (backend.run store (earlier ++ .call call :: between)) call →
        backend.run store (earlier ++ .call call :: between ++ [.call call]) =
          backend.run store (earlier ++ .call call :: between)
  /-- A call that comes twice in a row changes nothing the second time. -/
  repeatsAtOnce : ∀ store earlier call, backend.Fresh store → ¬ IsEffects call →
    backend.run store (earlier ++ [.call call, .call call]) =
      backend.run store (earlier ++ [.call call])

/-! ## Runs -/

variable {backend : DiscoveryBackend σ}

theorem run_append (store : σ) (events more : List (Event backend)) :
    backend.run store (events ++ more) = backend.run (backend.run store events) more :=
  List.foldl_append

theorem run_concat (store : σ) (events : List (Event backend)) (event : Event backend) :
    backend.run store (events ++ [event]) = backend.after (backend.run store events) event :=
  run_append store events [event]

section Runs

variable (hlawful : backend.Lawful) {store : σ}

include hlawful

/-! ## One call -/

/-- A call with a transition takes its transaction along it. -/
theorem transition_of_effect {call : Call} {record : DiscoveryTransactionRecord} {store' : σ}
    {transactionId : DiscoveryTransactionId} {expected next : DiscoveryTransactionStatus}
    (heffect : backend.Effect store call record store')
    (htransition : call.transition = some (transactionId, expected, next)) :
    Moves expected next ∧
      (∃ before, backend.ledger store transactionId = some before ∧ before.status = expected) ∧
        backend.ledger store' transactionId = some record ∧ record.status = next := by
  cases heffect with
  | retried found => exact nomatch htransition
  | reserved fresh alone captured id status active writes => exact nomatch htransition
  | noted found status active same writes => exact nomatch htransition
  | moved transition moves uncommitted found was running status active same writes =>
      cases transition.symm.trans htransition
      exact ⟨moves, ⟨_, found, was⟩, (ledger_of_writes hlawful found same writes).2, status⟩
  | committed found was running unchanged applied status active same writes =>
      cases htransition
      exact ⟨Moves.commit, ⟨_, found, was⟩, (ledger_of_writes hlawful found same writes).2,
        status⟩

omit hlawful in
/-- A call that is no commit leaves the rows. -/
theorem rows_of_effect {call : Call} {record : DiscoveryTransactionRecord} {store' : σ}
    (heffect : backend.Effect store call record store')
    (hcall : ∀ transactionId committedAt, call ≠ .commit transactionId committedAt) :
    backend.rows store' = backend.rows store := by
  cases heffect with
  | retried found => rfl
  | reserved fresh alone captured id status active writes => exact writes.rows
  | noted found status active same writes => exact writes.rows
  | moved transition moves uncommitted found was running status active same writes =>
      exact writes.rows
  | committed found was running unchanged applied status active same writes =>
      exact absurd rfl (hcall _ _)

/-- A commit that succeeds: what it found, and what it did. -/
theorem commit_of_ok {transactionId : DiscoveryTransactionId} {committedAt : Text}
    {record : DiscoveryTransactionRecord} {store' : σ}
    (h : backend.call store (.commit transactionId committedAt) = .ok (record, store')) :
    ∃ before, backend.ledger store transactionId = some before ∧ before.status = .projected ∧
      SameTransaction before record ∧ record.status = .committed ∧
        backend.capture (backend.rows store) record.mountId = .ok record.reservation ∧
          backend.apply (backend.rows store) record.commit.commit = .ok (backend.rows store') ∧
            backend.Writes store record (backend.rows store') store' := by
  cases hlawful.effect _ _ _ _ h with
  | moved transition moves uncommitted found was running status active same writes =>
      cases transition
      exact absurd rfl uncommitted
  | @committed _ _ before _ _ _ found was running unchanged applied status active same writes =>
      have hwrites : backend.Writes store record (backend.rows store') store' := by
        rw [writes.rows]
        exact writes
      refine ⟨before, found, was, same, status, ?_, ?_, hwrites⟩
      · rw [same.mountId, same.reservation]
        exact unchanged
      · rw [same.commit, writes.rows]
        exact applied

/-! ## Commits -/

omit hlawful in
theorem isCommitted_some (record : DiscoveryTransactionRecord) :
    isCommitted (some record) = true ↔
      record.status = .committed ∨ record.status = .finalized := by
  simp [isCommitted]

omit hlawful in
theorem commitsNow_eq_false {call : Call} (transactionId : DiscoveryTransactionId)
    (hcall : ∀ transactionId committedAt, call ≠ .commit transactionId committedAt) :
    backend.commitsNow store transactionId (.call call) = false := by
  cases call with
  | commit committing committedAt => exact absurd rfl (hcall committing committedAt)
  | _ => rfl

omit hlawful in
theorem commitsNow_eq_false_of_not_succeeds {call : Call}
    (transactionId : DiscoveryTransactionId) (h : ¬ backend.Succeeds store call) :
    backend.commitsNow store transactionId (.call call) = false := by
  by_cases hcall : ∃ committing committedAt, call = .commit committing committedAt
  · obtain ⟨committing, committedAt, rfl⟩ := hcall
    rw [commitsNow, Bool.and_eq_false_iff]
    right
    cases hresult : backend.call store (.commit committing committedAt) with
    | error error => rfl
    | ok result => exact absurd ⟨result.1, result.2, hresult⟩ h
  · refine commitsNow_eq_false transactionId fun committing committedAt heq => hcall ?_
    exact ⟨committing, committedAt, heq⟩

/-- A write that does not take its transaction past the commit takes none past it. -/
theorem isCommitted_of_writes {moving : DiscoveryTransactionId}
    {before record : DiscoveryTransactionRecord} {rows : backend.Rows} {store' : σ}
    (hfound : backend.ledger store moving = some before)
    (hsame : SameTransaction before record) (hwrites : backend.Writes store record rows store')
    (hstatus : (before.status = .committed ∨ before.status = .finalized) ↔
      (record.status = .committed ∨ record.status = .finalized))
    (transactionId : DiscoveryTransactionId) :
    isCommitted (backend.ledger store' transactionId) =
      isCommitted (backend.ledger store transactionId) := by
  obtain ⟨hid, hself⟩ := ledger_of_writes hlawful hfound hsame hwrites
  by_cases hmoving : transactionId = moving
  · rw [hmoving, hself, hfound, Bool.eq_iff_iff, isCommitted_some, isCommitted_some]
    exact hstatus.symm
  · rw [hwrites.others transactionId fun h => hmoving (h.trans hid)]

/-- A call that is no commit takes no transaction past it. -/
theorem isCommitted_of_effect {call : Call} {record : DiscoveryTransactionRecord} {store' : σ}
    (heffect : backend.Effect store call record store')
    (hcall : ∀ transactionId committedAt, call ≠ .commit transactionId committedAt)
    (transactionId : DiscoveryTransactionId) :
    isCommitted (backend.ledger store' transactionId) =
      isCommitted (backend.ledger store transactionId) := by
  cases heffect with
  | retried found => rfl
  | reserved fresh alone captured id status active writes =>
      by_cases hid : transactionId = record.transactionId
      · rw [hid, writes.self, id, fresh, Bool.eq_iff_iff, isCommitted_some, status]
        decide
      · rw [writes.others transactionId hid]
  | noted found status active same writes =>
      refine isCommitted_of_writes hlawful found same writes ?_ transactionId
      rw [status]
  | moved transition moves uncommitted found was running status active same writes =>
      refine isCommitted_of_writes hlawful found same writes ?_ transactionId
      rw [was, status]
      exact moves.committed_iff uncommitted
  | committed found was running unchanged applied status active same writes =>
      exact absurd rfl (hcall _ _)

/-- An event brings a transaction past its commit exactly when it commits it. -/
theorem isCommitted_after (event : Event backend) (transactionId : DiscoveryTransactionId) :
    (isCommitted (backend.ledger (backend.after store event) transactionId)).toNat =
      (backend.commitsNow store transactionId event).toNat +
        (isCommitted (backend.ledger store transactionId)).toNat := by
  cases event with
  | write rows =>
      rw [after, hlawful.ledger_withRows]
      exact (Nat.zero_add _).symm
  | call call =>
      by_cases hsucceeds : backend.Succeeds store call
      · obtain ⟨record, store', hok⟩ := hsucceeds
        rw [after_call_of_ok hok]
        by_cases hcall : ∃ committing committedAt, call = .commit committing committedAt
        · obtain ⟨committing, committedAt, rfl⟩ := hcall
          obtain ⟨before, hfound, hwas, hsame, hstatus, -, -, hwrites⟩ :=
            commit_of_ok hlawful hok
          obtain ⟨hid, hself⟩ := ledger_of_writes hlawful hfound hsame hwrites
          rw [commitsNow, hok]
          by_cases hmine : committing = transactionId
          · -- it was projected and is committed
            have hbefore : isCommitted (some before) = false := by
              rw [Bool.eq_false_iff, ne_eq, isCommitted_some, hwas]
              decide
            have hafter : isCommitted (some record) = true :=
              (isCommitted_some record).mpr (Or.inl hstatus)
            rw [← hmine, hself, hfound, hbefore, hafter, decide_eq_true rfl]
            rfl
          · rw [hwrites.others transactionId fun h => hmine (hid.symm.trans h.symm),
              decide_eq_false hmine]
            exact (Nat.zero_add _).symm
        · have hno : ∀ committing committedAt, call ≠ .commit committing committedAt :=
            fun committing committedAt heq => hcall ⟨committing, committedAt, heq⟩
          rw [isCommitted_of_effect hlawful (hlawful.effect _ _ _ _ hok) hno transactionId,
            commitsNow_eq_false transactionId hno]
          exact (Nat.zero_add _).symm
      · rw [after_call_of_not_succeeds hsucceeds,
          commitsNow_eq_false_of_not_succeeds transactionId hsucceeds]
        exact (Nat.zero_add _).symm

/-- How often a run commits a transaction is what its status gained. -/
theorem commitCount_add (events : List (Event backend)) (transactionId : DiscoveryTransactionId) :
    ∀ store : σ, backend.commitCount transactionId store events +
        (isCommitted (backend.ledger store transactionId)).toNat =
      (isCommitted (backend.ledger (backend.run store events) transactionId)).toNat := by
  induction events with
  | nil => exact fun store => Nat.zero_add _
  | cons event events ih =>
      intro store
      have hrest := ih (backend.after store event)
      have hrun : backend.run store (event :: events) =
          backend.run (backend.after store event) events := rfl
      rw [hrun, ← hrest, isCommitted_after hlawful event transactionId, commitCount]
      omega

/-! ## Reservations -/

/-- A transaction of a run was reserved in it, over what was there then. -/
theorem reserved_in_run (hfresh : backend.Fresh store) {transactionId : DiscoveryTransactionId}
    (events : List (Event backend)) :
    ∀ {record : DiscoveryTransactionRecord},
      backend.ledger (backend.run store events) transactionId = some record →
        ∃ earlier prepared rest, events = earlier ++ .call (.reserve prepared) :: rest ∧
          prepared.commit.transactionId = transactionId ∧
            backend.ledger (backend.run store earlier) transactionId = none ∧
              backend.capture (backend.rows (backend.run store earlier)) record.mountId =
                .ok record.reservation := by
  induction events using List.reverseRecOn with
  | nil =>
      intro record hrecord
      rw [run, List.foldl_nil, hfresh transactionId] at hrecord
      exact nomatch hrecord
  | append_singleton events event ih =>
      intro record hrecord
      rw [run_concat] at hrecord
      rcases before_of_after hlawful hrecord with hnone | ⟨before, hbefore, hadvances⟩
      · obtain ⟨prepared, rfl, hid, -, -, hcaptured, -⟩ :=
          reserved_of_after hlawful hnone hrecord
        exact ⟨events, prepared, [], rfl, hid, hnone, hcaptured⟩
      · obtain ⟨earlier, prepared, rest, rfl, hid, hnone, hcaptured⟩ := ih hbefore
        refine ⟨earlier, prepared, rest ++ [event], List.append_assoc _ _ _, hid, hnone, ?_⟩
        rw [hadvances.1.mountId, hadvances.1.reservation]
        exact hcaptured

/-! ## Calls that come again -/

/-- A transaction stays in the ledger, and does not fall back. -/
theorem progress_of_run {transactionId : DiscoveryTransactionId}
    (events : List (Event backend)) :
    ∀ {store : σ} {before : DiscoveryTransactionRecord},
      backend.ledger store transactionId = some before →
        ∃ record, backend.ledger (backend.run store events) transactionId = some record ∧
          before.status.progress ≤ record.status.progress := by
  induction events with
  | nil => exact fun {_ before} hbefore => ⟨before, hbefore, Nat.le_refl _⟩
  | cons event events ih =>
      intro store before hbefore
      obtain ⟨record, hrecord, hadvances⟩ :
          ∃ record, backend.ledger (backend.after store event) transactionId = some record ∧
            Advances before record := advances_of_after hlawful hbefore
      obtain ⟨last, hlast, hprogress⟩ := ih hrecord
      refine ⟨last, hlast, Nat.le_trans ?_ hprogress⟩
      rcases hadvances.2 with ⟨hstatus, -⟩ | ⟨hmoves, -⟩
      · exact Nat.le_of_eq (congrArg _ hstatus.symm)
      · exact hmoves.progress_le

/-- A reservation that succeeded is in the ledger. -/
theorem ledger_of_reserve {prepared : PreparedDiscoveryTransaction}
    {record : DiscoveryTransactionRecord} {store' : σ}
    (h : backend.call store (.reserve prepared) = .ok (record, store')) :
    backend.ledger store' prepared.commit.transactionId = some record := by
  cases hlawful.effect _ _ _ _ h with
  | retried found => exact found
  | reserved fresh alone captured id status active writes => exact id ▸ writes.self
  | moved transition => exact nomatch transition

/-- A reservation of a transaction that is in the ledger changes nothing. -/
theorem reserve_again {prepared : PreparedDiscoveryTransaction}
    {record result : DiscoveryTransactionRecord} {store' : σ}
    (hrecord : backend.ledger store prepared.commit.transactionId = some record)
    (h : backend.call store (.reserve prepared) = .ok (result, store')) : store' = store := by
  cases hlawful.effect _ _ _ _ h with
  | retried found => rfl
  | reserved fresh alone captured id status active writes =>
      rw [fresh] at hrecord
      exact nomatch hrecord
  | moved transition => exact nomatch transition

omit hlawful in
theorem transition_or_reserve (call : Call) (h : ¬ IsEffects call) :
    (∃ prepared, call = .reserve prepared) ∨
      ∃ transactionId expected next, call.transition = some (transactionId, expected, next) := by
  cases call with
  | reserve prepared => exact Or.inl ⟨prepared, rfl⟩
  | effects transactionId expected effects updatedAt => exact absurd trivial h
  | _ => exact Or.inr ⟨_, _, _, rfl⟩

/-- A call that succeeded changes nothing later, unless repair has led back. -/
theorem call_again {call : Call} (heffects : ¬ IsEffects call)
    (hsucceeds : backend.Succeeds store call) (between : List (Event backend))
    (hrepair : ¬ backend.RepairsAgain
      (backend.run (backend.after store (.call call)) between) call) :
    backend.after (backend.run (backend.after store (.call call)) between) (.call call) =
      backend.run (backend.after store (.call call)) between := by
  obtain ⟨first, store', hfirst⟩ := hsucceeds
  rw [after_call_of_ok hfirst] at hrepair ⊢
  by_cases hagain : backend.Succeeds (backend.run store' between) call
  · obtain ⟨second, last, hsecond⟩ := hagain
    rw [after_call_of_ok hsecond]
    rcases transition_or_reserve call heffects with
      ⟨prepared, rfl⟩ | ⟨transactionId, expected, next, htransition⟩
    · obtain ⟨record, hrecord, -⟩ :=
        progress_of_run hlawful between (ledger_of_reserve hlawful hfirst)
      exact reserve_again hlawful hrecord hsecond
    · -- the transaction would have fallen back to the status it left
      obtain ⟨hmoves, -, hledger, hnext⟩ :=
        transition_of_effect hlawful (hlawful.effect _ _ _ _ hfirst) htransition
      obtain ⟨-, ⟨before, hbefore, hexpected⟩, -, -⟩ :=
        transition_of_effect hlawful (hlawful.effect _ _ _ _ hsecond) htransition
      obtain ⟨record, hrecord, hprogress⟩ := progress_of_run hlawful between hledger
      cases hrecord.symm.trans hbefore
      rw [hnext, hexpected] at hprogress
      rcases hmoves.progress_lt_or with hlt | hcycle
      · exact absurd hprogress (Nat.not_le_of_lt hlt)
      · exact absurd ⟨transactionId, expected, next, before, htransition, hbefore, hexpected,
          hcycle⟩ hrepair
  · exact after_call_of_not_succeeds hagain

/-- A call that has just succeeded is not one that repair led back to. -/
theorem not_repairsAgain_after {call : Call} (hsucceeds : backend.Succeeds store call) :
    ¬ backend.RepairsAgain (backend.after store (.call call)) call := by
  rintro ⟨transactionId, expected, next, record, htransition, hrecord, hexpected, -⟩
  obtain ⟨first, store', hfirst⟩ := hsucceeds
  rw [after_call_of_ok hfirst] at hrecord
  obtain ⟨hmoves, -, hledger, hnext⟩ :=
    transition_of_effect hlawful (hlawful.effect _ _ _ _ hfirst) htransition
  cases hrecord.symm.trans hledger
  exact hmoves.ne (hexpected.symm.trans hnext)

/-! ## The life cycle holds -/

/-- A call that commits no transaction leaves the rows. -/
theorem rows_of_uncommitted {call : Call}
    (h : ∀ transactionId, backend.commitsNow store transactionId (.call call) = false) :
    backend.rows (backend.after store (.call call)) = backend.rows store := by
  by_cases hsucceeds : backend.Succeeds store call
  · obtain ⟨record, store', hok⟩ := hsucceeds
    rw [after_call_of_ok hok]
    refine rows_of_effect (hlawful.effect _ _ _ _ hok) ?_
    rintro transactionId committedAt rfl
    have hnow := h transactionId
    rw [commitsNow, hok, decide_eq_true rfl] at hnow
    exact nomatch hnow
  · rw [after_call_of_not_succeeds hsucceeds]

/-- A commit that succeeds in a run finds what its transaction was reserved over. -/
theorem current_of_commit (hfresh : backend.Fresh store) {events : List (Event backend)}
    {transactionId : DiscoveryTransactionId} {committedAt : Text}
    {record : DiscoveryTransactionRecord} {store' : σ}
    (h : backend.call (backend.run store events) (.commit transactionId committedAt) =
      .ok (record, store')) :
    ∃ earlier prepared rest, events = earlier ++ .call (.reserve prepared) :: rest ∧
      prepared.commit.transactionId = transactionId ∧
        backend.ledger (backend.run store earlier) transactionId = none ∧
          backend.capture (backend.rows (backend.run store events)) record.mountId =
            backend.capture (backend.rows (backend.run store earlier)) record.mountId ∧
          backend.entities (backend.rows (backend.run store events)) record.mountId =
            backend.entities (backend.rows (backend.run store earlier)) record.mountId := by
  obtain ⟨before, hfound, -, hsame, -, hcaptured, -⟩ := commit_of_ok hlawful h
  obtain ⟨earlier, prepared, rest, hevents, hid, hnone, hthen⟩ :=
    reserved_in_run hlawful hfresh events hfound
  rw [← hsame.mountId, ← hsame.reservation] at hthen
  refine ⟨earlier, prepared, rest, hevents, hid, hnone, hcaptured.trans hthen.symm, ?_⟩
  rw [← hlawful.captured _ _ _ hcaptured, ← hlawful.captured _ _ _ hthen]

theorem Lawful.safeLifeCycle : backend.SafeLifeCycle where
  oneActive store events hfresh :=
    ((consistent_of_fresh hfresh).run hlawful).oneActive
  active store events hfresh :=
    ((consistent_of_fresh hfresh).run hlawful).marked
  starts store events event hfresh transactionId record hnone hsome := by
    rw [run_concat] at hsome
    obtain ⟨_, -, -, hstatus, -⟩ := reserved_of_after hlawful hnone hsome
    exact hstatus
  moves store events event hfresh transactionId before hbefore := by
    obtain ⟨record, hrecord, hadvances⟩ :
        ∃ record, backend.ledger (backend.after (backend.run store events) event)
            transactionId = some record ∧
          Advances before record := advances_of_after hlawful hbefore
    rw [run_concat]
    refine ⟨record, hrecord, ?_⟩
    rcases hadvances.2 with ⟨hstatus, -⟩ | ⟨hmoves, -⟩
    · exact Or.inl hstatus
    · exact Or.inr hmoves
  once store events hfresh transactionId := by
    have hcount := commitCount_add hlawful events transactionId store
    rw [hfresh transactionId] at hcount
    exact hcount
  applies store events hfresh transactionId committedAt record store' h := by
    obtain ⟨_, -, -, -, -, -, happlied, -⟩ := commit_of_ok hlawful h
    exact happlied
  untouched store events call hfresh h := by
    rw [run_concat]
    exact rows_of_uncommitted hlawful h
  current store events hfresh transactionId committedAt record store' h :=
    current_of_commit hlawful hfresh h
  repeats store earlier call between hfresh heffects hsucceeds hrepair := by
    have hrun : backend.run store (earlier ++ .call call :: between) =
        backend.run (backend.after (backend.run store earlier) (.call call)) between :=
      run_append store earlier _
    rw [run_concat, hrun]
    rw [hrun] at hrepair
    exact call_again hlawful heffects hsucceeds between hrepair
  repeatsAtOnce store earlier call hfresh heffects := by
    rw [run_append, run_concat]
    by_cases hsucceeds : backend.Succeeds (backend.run store earlier) call
    · exact call_again hlawful heffects hsucceeds []
        (not_repairsAgain_after hlawful hsucceeds)
    · have hafter := after_call_of_not_succeeds hsucceeds
      change backend.after (backend.after (backend.run store earlier) (.call call)) (.call call) =
        backend.after (backend.run store earlier) (.call call)
      rw [hafter, hafter]

end Runs

end DiscoveryBackend

end Locality.Discovery
