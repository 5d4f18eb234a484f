/-
  Daemon/FreshnessWork.lean --- the freshness queue loses and delays no work, where its
  texts mean what they are compared for.

  A ledger lists what came in for a mount, a remote id and a kind since a job of these was
  last returned.  The queue has one job for each list that is not empty, as urgent as the
  most urgent of the list and eligible with the earliest.
-/
import Locality.Daemon.FreshnessQueue

set_option autoImplicit false

namespace Locality.Daemon

open Locality.Core Locality.Foundation Locality.Protocol

/-! ## Identities, times and ledgers -/

structure JobIdentity where
  mountId : MountId
  remoteId : Option RemoteId
  kind : SyncJobKind
  deriving DecidableEq, Repr

def SyncJob.identity (self : SyncJob) : JobIdentity := ⟨self.mountId, self.remoteId, self.kind⟩

/-- The time of a `unix_ms` timestamp. -/
def millis (timestamp : Text) : Nat := (parseFreshnessTimestamp timestamp).getD 0

/-- Whether the eligibility time of a job has passed. -/
def Due (job : SyncJob) (now : Option Text) : Prop :=
  ∀ eligible ∈ job.nextEligibleAt, ∃ time ∈ now, millis eligible ≤ millis time

/-- Whether a job is eligible no later than another. -/
def EligibleBy (job other : SyncJob) : Prop :=
  ∀ eligible ∈ job.nextEligibleAt, ∃ time ∈ other.nextEligibleAt, millis eligible ≤ millis time

abbrev JobLedger : Type := JobIdentity → List SyncJob

/-- The ledger behind a call. -/
def JobLedger.call (self : JobLedger) (returned : List SyncJob) : QueueCall → JobLedger
  | .upsert job => Function.update self job.identity (job :: self job.identity)
  | _ => fun identity => if identity ∈ returned.map SyncJob.identity then [] else self identity

/-! ## What is kept -/

/-- A job for each list of the ledger that is not empty: as urgent as the most urgent of the
list, and eligible with the earliest. -/
structure KeepsWork (queue : FreshnessQueue) (ledger : JobLedger) : Prop where
  held : ∀ identity, ledger identity ≠ [] ↔ ∃ job ∈ queue.jobs.rows, job.identity = identity
  single : ∀ job ∈ queue.jobs.rows, ∀ job' ∈ queue.jobs.rows,
    job.identity = job'.identity → job = job'
  urgent : ∀ job ∈ queue.jobs.rows, ∀ upserted ∈ ledger job.identity,
    job.tier.priority ≤ upserted.tier.priority
  earliest : ∀ job ∈ queue.jobs.rows, ∀ upserted ∈ ledger job.identity, EligibleBy job upserted
  asked : ∀ job ∈ queue.jobs.rows, ∃ upserted ∈ ledger job.identity,
    upserted.nextEligibleAt = job.nextEligibleAt

/-- The tier and the cost of a job: the smaller, the earlier it is returned. -/
def urgency (job : SyncJob) : Nat ×ₗ Nat :=
  toLex (job.tier.priority, job.estimatedCost.budgetUnits)

def unitsOf (jobs : List SyncJob) : Nat :=
  (jobs.map fun job => job.estimatedCost.budgetUnits).sum

/-- Why a job that is due is not returned: it does not fit what the returned jobs of at least
its urgency left, or the limit is reached with jobs of at least its urgency. -/
def Skipped (budgetUnits : Nat) (maxJobs : Option Nat) (returned : List SyncJob)
    (job : SyncJob) : Prop :=
  budgetUnits < unitsOf (returned.filter fun other => urgency other ≤ urgency job) +
      job.estimatedCost.budgetUnits ∨
    maxJobs = some returned.length ∧ ∀ other ∈ returned, urgency other ≤ urgency job

/-- What is asked for by a call that takes jobs. -/
def QueueCall.asked : QueueCall → Option (Option Text × Nat × Option Nat)
  | .upsert _ => none
  | .popReadyAt now budgetUnits => some (now, budgetUnits, some 1)
  | .drainReadyBatch now budgetUnits maxJobs => some (now, budgetUnits, some maxJobs)
  | .drainReadyBudget now budgetUnits => some (now, budgetUnits, none)

/-- What a call does to the work of a queue. -/
structure CallKept (queue : FreshnessQueue) (ledger : JobLedger) (call : QueueCall) : Prop where
  /-- A job that was returned was held, was asked for, and is held no more. -/
  once : ∀ job ∈ (queue.call call).1, job ∈ queue.jobs.rows ∧ ledger job.identity ≠ [] ∧
    ∀ other ∈ (queue.call call).2.jobs.rows, other.identity ≠ job.identity
  distinct : ((queue.call call).1.map SyncJob.identity).Nodup
  /-- A job stays unless it is returned, or one of its identity comes in. -/
  stays : ∀ job ∈ queue.jobs.rows, job ∉ (queue.call call).1 →
    (∀ upserted, call = .upsert upserted → upserted.identity ≠ job.identity) →
      job ∈ (queue.call call).2.jobs.rows
  due : ∀ now budgetUnits maxJobs, call.asked = some (now, budgetUnits, maxJobs) →
    ∀ job ∈ (queue.call call).1, Due job now
  bounded : ∀ now budgetUnits maxJobs, call.asked = some (now, budgetUnits, maxJobs) →
    unitsOf (queue.call call).1 ≤ budgetUnits ∧
      ∀ limit ∈ maxJobs, (queue.call call).1.length ≤ limit
  /-- A job that has been asked for by now is returned, or skipped. -/
  ready : ∀ now budgetUnits maxJobs, call.asked = some (now, budgetUnits, maxJobs) →
    ∀ job ∈ queue.jobs.rows, (∃ upserted ∈ ledger job.identity, Due upserted now) →
      job ∈ (queue.call call).1 ∨ Skipped budgetUnits maxJobs (queue.call call).1 job

/-- The work is kept by each of the calls. -/
def KeptThroughout : FreshnessQueue → JobLedger → List QueueCall → Prop
  | queue, ledger, [] => KeepsWork queue ledger
  | queue, ledger, call :: calls =>
      KeepsWork queue ledger ∧ CallKept queue ledger call ∧
        KeptThroughout (queue.call call).2 (ledger.call (queue.call call).1 call) calls

/-! ## Texts that mean what they are compared for -/

/-- Where a call compares texts rightly: a job that comes in is of the identity of the one
under its key, if there is one; texts of times that it compares are in the order of these
times. -/
def ComparesRightly (queue : FreshnessQueue) : QueueCall → Prop
  | .upsert job => ∀ held ∈ queue.jobs.lookup job.dedupeKey, held.identity = job.identity ∧
      ∀ candidate ∈ job.nextEligibleAt, ∀ current ∈ held.nextEligibleAt,
        if bytewiseLt candidate current then millis candidate ≤ millis current
        else millis current ≤ millis candidate
  | call => ∀ now budgetUnits maxJobs, call.asked = some (now, budgetUnits, maxJobs) →
      ∀ job ∈ queue.jobs.rows, ∀ eligible ∈ job.nextEligibleAt, ∀ time ∈ now,
        (bytewiseLe eligible time = true ↔ millis eligible ≤ millis time)

def RightThroughout : FreshnessQueue → List QueueCall → Prop
  | _, [] => True
  | queue, call :: calls =>
      ComparesRightly queue call ∧ RightThroughout (queue.call call).2 calls

/-! ## Batches -/

variable {queue : FreshnessQueue} {ledger : JobLedger} {job : SyncJob} {jobs : List SyncJob}
  {now : Option Text} {budgetUnits maxJobs : Nat}

theorem urgency_le_of_jobRank {job job' : SyncJob} (h : jobRank job ≤ jobRank job') :
    urgency job ≤ urgency job' := by
  obtain hlt | ⟨hsame, hrest⟩ := Prod.Lex.toLex_le_toLex.mp h
  · exact Prod.Lex.toLex_le_toLex.mpr (Or.inl hlt)
  · refine Prod.Lex.toLex_le_toLex.mpr (Or.inr ⟨hsame, ?_⟩)
    obtain hlt | ⟨hcost, -⟩ := Prod.Lex.toLex_le_toLex.mp hrest
    · exact le_of_lt hlt
    · exact le_of_eq hcost

theorem batchLoop_sublist (maxJobs remaining count : Nat) (jobs : List SyncJob) :
    (batchLoop maxJobs remaining count jobs).Sublist jobs := by
  induction jobs generalizing remaining count with
  | nil => exact .slnil
  | cons job jobs ih =>
      rw [batchLoop]
      split
      · exact List.nil_sublist _
      split
      · exact (ih remaining count).cons job
      · exact (ih _ _).cons_cons job

theorem batchLoop_bounded (maxJobs remaining count : Nat) (jobs : List SyncJob) :
    unitsOf (batchLoop maxJobs remaining count jobs) ≤ remaining ∧
      (count ≤ maxJobs → count + (batchLoop maxJobs remaining count jobs).length ≤ maxJobs) := by
  induction jobs generalizing remaining count with
  | nil => exact ⟨Nat.zero_le _, fun h => h⟩
  | cons job jobs ih =>
      rw [batchLoop]
      split
      · exact ⟨Nat.zero_le _, fun h => h⟩
      split
      · exact ih remaining count
      · obtain ⟨hunits, hlength⟩ := ih (remaining - job.estimatedCost.budgetUnits) (count + 1)
        rw [unitsOf, List.map_cons, List.sum_cons, List.length_cons, ← unitsOf]
        refine ⟨by omega, fun h => ?_⟩
        have hmore := hlength (by omega)
        omega

theorem skipped_of_not_mem_batchLoop {remaining count : Nat}
    (hsorted : jobs.Pairwise fun left right => urgency left ≤ urgency right)
    (hcount : count ≤ maxJobs) (hmem : job ∈ jobs)
    (hnot : job ∉ batchLoop maxJobs remaining count jobs) :
    remaining < unitsOf ((batchLoop maxJobs remaining count jobs).filter
        fun other => urgency other ≤ urgency job) + job.estimatedCost.budgetUnits ∨
      count + (batchLoop maxJobs remaining count jobs).length = maxJobs ∧
        ∀ other ∈ batchLoop maxJobs remaining count jobs, urgency other ≤ urgency job := by
  induction jobs generalizing remaining count with
  | nil => exact nomatch hmem
  | cons first jobs ih =>
      obtain ⟨hfirst, hsorted⟩ := List.pairwise_cons.mp hsorted
      rw [batchLoop] at hnot ⊢
      by_cases hfull : maxJobs ≤ count
      · rw [if_pos hfull]
        exact Or.inr ⟨Nat.le_antisymm hcount hfull, fun other hother => nomatch hother⟩
      rw [if_neg hfull] at hnot ⊢
      by_cases hdear : remaining < first.estimatedCost.budgetUnits
      · rw [if_pos hdear] at hnot ⊢
        obtain rfl | hmem := List.mem_cons.mp hmem
        · exact Or.inl (by omega)
        · exact ih hsorted hcount hmem hnot
      · rw [if_neg hdear] at hnot ⊢
        obtain ⟨hne, hnot⟩ := not_or.mp (mt List.mem_cons.mpr hnot)
        have hmem := (List.mem_cons.mp hmem).resolve_left hne
        have hle := hfirst job hmem
        rw [List.filter_cons_of_pos (p := fun other => decide (urgency other ≤ urgency job))
          (decide_eq_true hle), unitsOf, List.map_cons, List.sum_cons, ← unitsOf,
          List.length_cons]
        obtain hunits | ⟨hlength, hall⟩ := ih hsorted (by omega) hmem hnot
        · exact Or.inl (by omega)
        · exact Or.inr ⟨by omega, List.forall_mem_cons.mpr ⟨hle, hall⟩⟩

/-- Without a limit, jobs are taken as with one that they do not reach. -/
theorem budgetLoop_eq {remaining count : Nat} (h : count + jobs.length ≤ maxJobs) :
    budgetLoop remaining jobs = batchLoop maxJobs remaining count jobs := by
  induction jobs generalizing remaining count with
  | nil => rfl
  | cons job jobs ih =>
      rw [List.length_cons] at h
      have hroom : ¬ maxJobs ≤ count := by omega
      rw [budgetLoop, batchLoop, if_neg hroom]
      split
      · exact ih (by omega)
      · rw [@ih _ (count + 1) (by omega)]

/-- A pop is a batch of one. -/
theorem find?_toList_eq :
    (jobs.find? fun job => decide (job.estimatedCost.budgetUnits ≤ budgetUnits)).toList =
      batchLoop 1 budgetUnits 0 jobs := by
  induction jobs with
  | nil => rfl
  | cons job jobs ih =>
      have hfull : ∀ remaining, batchLoop 1 remaining 1 jobs = [] := by
        intro remaining
        cases jobs with
        | nil => rfl
        | cons job jobs => rw [batchLoop, if_pos le_rfl]
      rw [List.find?_cons, batchLoop, if_neg (by omega)]
      by_cases hfits : job.estimatedCost.budgetUnits ≤ budgetUnits
      · rw [decide_eq_true hfits, if_neg (Nat.not_lt.mpr hfits), hfull]
        rfl
      · rw [decide_eq_false hfits, if_pos (Nat.not_le.mp hfits), ← ih]

/-! ## What comes in -/

variable {held upserted : SyncJob}

theorem dedupeKey_eq_of_identity (h : job.identity = held.identity) :
    job.dedupeKey = held.dedupeKey := by
  obtain ⟨hmount, hremote, hkind⟩ := JobIdentity.mk.inj h
  rw [SyncJob.dedupeKey, SyncJob.dedupeKey, hmount, hremote, hkind]

theorem mergeJob_identity : (mergeJob held job).identity = held.identity := by
  rw [mergeJob]
  split <;> split <;> rfl

theorem mergeJob_nextEligibleAt : (mergeJob held job).nextEligibleAt =
    if earlierNextEligible job.nextEligibleAt held.nextEligibleAt then job.nextEligibleAt
    else held.nextEligibleAt := by
  rw [mergeJob]
  split <;> split <;> rfl

theorem mergeJob_tier : (mergeJob held job).tier =
    if job.tier.isMoreUrgentThan held.tier then job.tier else held.tier := by
  rw [mergeJob]
  split <;> split <;> rfl

theorem mergeJob_urgent : (mergeJob held job).tier.priority ≤ job.tier.priority ∧
    (mergeJob held job).tier.priority ≤ held.tier.priority := by
  rw [mergeJob_tier, FreshnessTier.isMoreUrgentThan]
  by_cases h : job.tier.priority < held.tier.priority
  · rw [decide_eq_true h, if_pos rfl]
    exact ⟨le_rfl, le_of_lt h⟩
  · rw [decide_eq_false h, if_neg Bool.false_ne_true]
    exact ⟨Nat.not_lt.mp h, le_rfl⟩

/-- Eligible with the earlier of two, where their texts are in the order of their times. -/
theorem mergeJob_earliest
    (hordered : ∀ candidate ∈ job.nextEligibleAt, ∀ current ∈ held.nextEligibleAt,
      if bytewiseLt candidate current then millis candidate ≤ millis current
      else millis current ≤ millis candidate) :
    EligibleBy (mergeJob held job) job ∧ EligibleBy (mergeJob held job) held := by
  rw [EligibleBy, EligibleBy, mergeJob_nextEligibleAt]
  cases hcandidate : job.nextEligibleAt with
  | none =>
      cases hcurrent : held.nextEligibleAt with
      | none => exact ⟨fun _ h => (nomatch h), fun _ h => (nomatch h)⟩
      | some current => exact ⟨fun _ h => (nomatch h), fun _ h => (nomatch h)⟩
  | some candidate =>
      cases hcurrent : held.nextEligibleAt with
      | none => exact ⟨fun _ h => (nomatch h), fun _ h => (nomatch h)⟩
      | some current =>
          have hle := hordered candidate hcandidate current hcurrent
          rw [earlierNextEligible]
          by_cases hlt : bytewiseLt candidate current = true
          · rw [if_pos hlt] at hle ⊢
            exact ⟨fun _ h => ⟨_, h, le_rfl⟩,
              fun _ h => ⟨current, rfl, Option.some_inj.mp h ▸ hle⟩⟩
          · rw [if_neg hlt] at hle ⊢
            exact ⟨fun _ h => ⟨candidate, rfl, Option.some_inj.mp h ▸ hle⟩,
              fun _ h => ⟨_, h, le_rfl⟩⟩

theorem EligibleBy.trans {first second third : SyncJob} (h : EligibleBy first second)
    (h' : EligibleBy second third) : EligibleBy first third := by
  intro eligible heligible
  obtain ⟨time, htime, hle⟩ := h eligible heligible
  obtain ⟨late, hlate, hle'⟩ := h' time htime
  exact ⟨late, hlate, hle.trans hle'⟩

/-- A job that is eligible no later is due no later. -/
theorem EligibleBy.due {job other : SyncJob} (h : EligibleBy job other) (hdue : Due other now) :
    Due job now := by
  intro eligible heligible
  obtain ⟨time, htime, hle⟩ := h eligible heligible
  obtain ⟨present, hpresent, hle'⟩ := hdue time htime
  exact ⟨present, hpresent, hle.trans hle'⟩

/-- What stands under the key of a job behind its upsert: of its identity, as urgent and as
early as it and as what stood there, and eligible with one of them. -/
theorem upsert_rows (hright : ComparesRightly queue (.upsert job)) :
    ∃ placed : SyncJob, placed.identity = job.identity ∧
      (∀ row, row ∈ (queue.upsert job).jobs.rows ↔
        row = placed ∨ row ∈ queue.jobs.rows ∧ row.identity ≠ job.identity) ∧
      (placed.tier.priority ≤ job.tier.priority ∧ EligibleBy placed job) ∧
      (∀ held ∈ queue.jobs.rows, held.identity = job.identity →
        placed.tier.priority ≤ held.tier.priority ∧ EligibleBy placed held) ∧
      (placed.nextEligibleAt = job.nextEligibleAt ∨ ∃ held ∈ queue.jobs.rows,
        held.identity = job.identity ∧ placed.nextEligibleAt = held.nextEligibleAt) := by
  have hkeys : ∀ row ∈ queue.jobs.rows,
      row.dedupeKey ≠ job.dedupeKey ↔ row.identity ≠ job.identity := by
    intro row hrow
    refine not_congr ⟨fun h => ?_, dedupeKey_eq_of_identity⟩
    exact (hright row (KeyedTable.lookup_eq_some.mpr ⟨hrow, h⟩)).1
  rw [FreshnessQueue.upsert]
  cases hlookup : queue.jobs.lookup job.dedupeKey with
  | none =>
      refine ⟨job, rfl, fun row => ?_, ⟨le_rfl, fun _ h => ⟨_, h, le_rfl⟩⟩, ?_, Or.inl rfl⟩
      · rw [KeyedTable.mem_put]
        exact or_congr_right (and_congr_right (hkeys row))
      · intro held hheld hsame
        exact absurd (dedupeKey_eq_of_identity hsame)
          (KeyedTable.lookup_eq_none.mp hlookup held hheld)
  | some held =>
      obtain ⟨hsame, hordered⟩ := hright held hlookup
      obtain ⟨hheld, hkey⟩ := KeyedTable.lookup_eq_some.mp hlookup
      have hidentity : (mergeJob held job).identity = job.identity := mergeJob_identity.trans hsame
      refine ⟨mergeJob held job, hidentity, fun row => ?_,
        ⟨mergeJob_urgent.1, (mergeJob_earliest hordered).1⟩, ?_, ?_⟩
      · rw [KeyedTable.mem_put, dedupeKey_eq_of_identity hidentity]
        exact or_congr_right (and_congr_right (hkeys row))
      · intro other hother hsame'
        obtain rfl : other = held :=
          KeyedTable.eq_of_key hother hheld ((dedupeKey_eq_of_identity hsame').trans hkey.symm)
        exact ⟨mergeJob_urgent.2, (mergeJob_earliest hordered).2⟩
      · rw [mergeJob_nextEligibleAt]
        split
        · exact Or.inl rfl
        · exact Or.inr ⟨held, hheld, hsame, rfl⟩

theorem KeepsWork.upsert (hkeeps : KeepsWork queue ledger)
    (hright : ComparesRightly queue (.upsert job)) :
    KeepsWork (queue.upsert job)
      (Function.update ledger job.identity (job :: ledger job.identity)) := by
  obtain ⟨placed, hplaced, hrows, ⟨hurgent, hearly⟩, hmerged, hasked⟩ := upsert_rows hright
  have hsame : ∀ upserted ∈ ledger job.identity,
      ∃ held ∈ queue.jobs.rows, held.identity = job.identity :=
    fun upserted h => (hkeeps.held _).mp (List.ne_nil_of_mem h)
  refine ⟨fun identity => ?_, ?_, ?_, ?_, ?_⟩
  · by_cases hidentity : identity = job.identity
    · subst hidentity
      rw [Function.update_self]
      exact ⟨fun _ => ⟨placed, (hrows placed).mpr (Or.inl rfl), hplaced⟩,
        fun _ => List.cons_ne_nil _ _⟩
    · rw [Function.update_of_ne hidentity, hkeeps.held]
      constructor
      · rintro ⟨row, hrow, rfl⟩
        exact ⟨row, (hrows row).mpr (Or.inr ⟨hrow, hidentity⟩), rfl⟩
      · rintro ⟨row, hrow, rfl⟩
        obtain rfl | ⟨hrow, -⟩ := (hrows row).mp hrow
        · exact absurd hplaced hidentity
        · exact ⟨row, hrow, rfl⟩
  · intro row hrow row' hrow' hidentity
    obtain rfl | ⟨hrow, hne⟩ := (hrows row).mp hrow
    · obtain rfl | ⟨-, hne'⟩ := (hrows row').mp hrow'
      · rfl
      · exact absurd (hidentity ▸ hplaced) hne'
    · obtain rfl | ⟨hrow', -⟩ := (hrows row').mp hrow'
      · exact absurd (hidentity.trans hplaced) hne
      · exact hkeeps.single row hrow row' hrow' hidentity
  · intro row hrow upserted hupserted
    obtain rfl | ⟨hrow, hne⟩ := (hrows row).mp hrow
    · rw [hplaced, Function.update_self] at hupserted
      obtain rfl | hupserted := List.mem_cons.mp hupserted
      · exact hurgent
      · obtain ⟨held, hheld, hidentity⟩ := hsame upserted hupserted
        exact (hmerged held hheld hidentity).1.trans
          (hkeeps.urgent held hheld upserted (hidentity ▸ hupserted))
    · rw [Function.update_of_ne hne] at hupserted
      exact hkeeps.urgent row hrow upserted hupserted
  · intro row hrow upserted hupserted
    obtain rfl | ⟨hrow, hne⟩ := (hrows row).mp hrow
    · rw [hplaced, Function.update_self] at hupserted
      obtain rfl | hupserted := List.mem_cons.mp hupserted
      · exact hearly
      · obtain ⟨held, hheld, hidentity⟩ := hsame upserted hupserted
        exact (hmerged held hheld hidentity).2.trans
          (hkeeps.earliest held hheld upserted (hidentity ▸ hupserted))
    · rw [Function.update_of_ne hne] at hupserted
      exact hkeeps.earliest row hrow upserted hupserted
  · intro row hrow
    obtain rfl | ⟨hrow, hne⟩ := (hrows row).mp hrow
    · rw [hplaced, Function.update_self]
      obtain hown | ⟨held, hheld, hidentity, hown⟩ := hasked
      · exact ⟨job, List.mem_cons_self, hown.symm⟩
      · obtain ⟨upserted, hupserted, hsame'⟩ := hkeeps.asked held hheld
        exact ⟨upserted, List.mem_cons_of_mem _ (hidentity ▸ hupserted), hsame'.trans hown.symm⟩
    · rw [Function.update_of_ne hne]
      exact hkeeps.asked row hrow

/-! ## What is taken -/

/-- The jobs that a call takes are a batch, and the others stay. -/
structure Takes (queue : FreshnessQueue) (call : QueueCall) (now : Option Text)
    (budgetUnits : Nat) (limit : Option Nat) (maxJobs : Nat) : Prop where
  batch : (queue.call call).1 = batchLoop maxJobs budgetUnits 0 (queue.readyJobs now)
  rest : (queue.call call).2.jobs.rows =
    queue.jobs.rows.filter fun job =>
      !decide (job.dedupeKey ∈ (queue.call call).1.map SyncJob.dedupeKey)
  unlimited : limit = none ∧ queue.jobs.rows.length < maxJobs ∨ limit = some maxJobs

theorem mem_readyJobs : job ∈ queue.readyJobs now ↔ job ∈ queue.jobs.rows ∧ isReady job now := by
  rw [FreshnessQueue.readyJobs, List.mem_insertionSort, List.mem_filter]

theorem length_readyJobs_le : (queue.readyJobs now).length ≤ queue.jobs.rows.length := by
  rw [FreshnessQueue.readyJobs, List.length_insertionSort]
  exact List.length_filter_le _ _

theorem takes_of_asked {call : QueueCall} {limit : Option Nat}
    (h : call.asked = some (now, budgetUnits, limit)) :
    ∃ maxJobs, Takes queue call now budgetUnits limit maxJobs := by
  cases call with
  | upsert job => exact nomatch h
  | popReadyAt now' budgetUnits' =>
      cases h
      have hbatch := @find?_toList_eq (queue.readyJobs now) budgetUnits
      cases hfound : (queue.readyJobs now).find? fun job =>
          decide (job.estimatedCost.budgetUnits ≤ budgetUnits) with
      | none =>
          have hcall : queue.call (.popReadyAt now budgetUnits) = ([], queue) := by
            rw [FreshnessQueue.call, FreshnessQueue.popReadyAt, hfound]
            rfl
          rw [hfound] at hbatch
          refine ⟨1, ?_, ?_, Or.inr rfl⟩
          · rw [hcall, ← hbatch]
            rfl
          · rw [hcall]
            exact (List.filter_eq_self.mpr fun _ _ => rfl).symm
      | some job =>
          have hcall : queue.call (.popReadyAt now budgetUnits) =
              ([job], queue.removeAll [job]) := by
            rw [FreshnessQueue.call, FreshnessQueue.popReadyAt, hfound]
            rfl
          rw [hfound] at hbatch
          refine ⟨1, ?_, ?_, Or.inr rfl⟩
          · rw [hcall, ← hbatch]
            rfl
          · rw [hcall]
            rfl
  | drainReadyBatch now' budgetUnits' maxJobs =>
      cases h
      exact ⟨maxJobs, rfl, rfl, Or.inr rfl⟩
  | drainReadyBudget now' budgetUnits' =>
      cases h
      refine ⟨queue.jobs.rows.length + 1, budgetLoop_eq ?_, rfl, Or.inl ⟨rfl, Nat.lt_succ_self _⟩⟩
      have hlength := @length_readyJobs_le queue now
      omega

end Locality.Daemon
