/-
  Daemon/FreshnessQueue.lean --- `FreshnessQueue` of `localityd/src/freshness.rs`, with the
  jobs of `locality-core/src/freshness.rs`.

  A job stands under a text that is made of its mount, its remote id and its kind.
  Eligibility times are texts as well.
-/
import Locality.Daemon.Host
import Locality.Foundation.KeyedTable
import Locality.Protocol.Portable
import Mathlib.Data.Prod.Lex
import Mathlib.Data.List.Lex

set_option autoImplicit false

namespace Locality.Daemon

open Locality.Core Locality.Foundation Locality.Protocol

/-! ## Jobs -/

def FreshnessTier.priority : FreshnessTier → Nat
  | immediate => 0
  | hot => 1
  | warm => 2
  | cold => 3
  | dormant => 4

def FreshnessTier.isMoreUrgentThan (self other : FreshnessTier) : Bool :=
  decide (self.priority < other.priority)

inductive ChangeHintKind where
  | backgroundPoll
  | directoryListed
  | explicitRefresh
  | fileOpened
  | localEdited
  | pushRequested
  | remoteMaybeChanged
  | urlLocated
  | webhook
  deriving DecidableEq, Repr

def ChangeHintKind.recommendedTier : ChangeHintKind → FreshnessTier
  | pushRequested => .immediate
  | fileOpened | localEdited | remoteMaybeChanged | urlLocated | webhook => .hot
  | directoryListed | explicitRefresh => .warm
  | backgroundPoll => .cold

inductive SyncJobCost where
  | cheap
  | medium
  | expensive
  deriving DecidableEq, Repr

def SyncJobCost.budgetUnits : SyncJobCost → Nat
  | cheap => 1
  | medium => 5
  | expensive => 20

inductive SyncJobKind where
  | observeEntity
  | enumerateChildren
  | hydrateEntity
  | fetchAsset
  | pushPreflight
  | explainRemoteChange
  deriving DecidableEq, Repr

namespace SyncJobKind

def estimatedCost : SyncJobKind → SyncJobCost
  | observeEntity | pushPreflight => .cheap
  | enumerateChildren | explainRemoteChange => .medium
  | hydrateEntity | fetchAsset => .expensive

/-- `Debug`. -/
def debugText : SyncJobKind → Text
  | observeEntity => "ObserveEntity".toList
  | enumerateChildren => "EnumerateChildren".toList
  | hydrateEntity => "HydrateEntity".toList
  | fetchAsset => "FetchAsset".toList
  | pushPreflight => "PushPreflight".toList
  | explainRemoteChange => "ExplainRemoteChange".toList

end SyncJobKind

structure SyncJob where
  mountId : MountId
  remoteId : Option RemoteId
  kind : SyncJobKind
  tier : FreshnessTier
  reason : ChangeHintKind
  estimatedCost : SyncJobCost
  nextEligibleAt : Option Text
  deriving DecidableEq, Repr

namespace SyncJob

def new (mountId : MountId) (remoteId : Option RemoteId) (kind : SyncJobKind)
    (reason : ChangeHintKind) : SyncJob where
  mountId := mountId
  remoteId := remoteId
  kind := kind
  tier := reason.recommendedTier
  reason := reason
  estimatedCost := kind.estimatedCost
  nextEligibleAt := none

def dedupeKey (self : SyncJob) : Text :=
  self.mountId.value ++ [':'] ++ (self.remoteId.map RemoteId.value).getD ['-'] ++ [':'] ++
    self.kind.debugText

end SyncJob

/-! ## Comparisons -/

/-- `<=` of `str`. -/
def bytewiseLe (t t' : Text) : Bool := decide (byteOrder t ≤ byteOrder t')

/-- `compare_jobs`: by tier, by cost, and by key. -/
def jobRank (job : SyncJob) : Nat ×ₗ Nat ×ₗ List Nat :=
  toLex (job.tier.priority, toLex (job.estimatedCost.budgetUnits, byteOrder job.dedupeKey))

def isReady (job : SyncJob) (now : Option Text) : Bool :=
  match job.nextEligibleAt, now with
  | none, _ => true
  | some _, none => false
  | some eligible, some now => bytewiseLe eligible now

def earlierNextEligible (candidate current : Option Text) : Bool :=
  match candidate, current with
  | none, some _ => true
  | some candidate, some current => bytewiseLt candidate current
  | _, _ => false

/-! ## The queue -/

structure FreshnessQueue where
  jobs : KeyedTable SyncJob.dedupeKey

structure FreshnessQueueMetrics where
  totalJobs : Nat
  readyJobs : Nat
  deferredJobs : Nat
  totalBudgetUnits : Nat
  readyBudgetUnits : Nat
  deriving DecidableEq, Repr

structure FreshnessBatch where
  jobs : List SyncJob
  metricsBefore : FreshnessQueueMetrics
  deriving DecidableEq, Repr

/-- What the queue keeps of a job and of one that comes in under its key. -/
def mergeJob (existing job : SyncJob) : SyncJob :=
  let merged :=
    if job.tier.isMoreUrgentThan existing.tier then
      { existing with tier := job.tier, reason := job.reason }
    else existing
  if earlierNextEligible job.nextEligibleAt existing.nextEligibleAt then
    { merged with nextEligibleAt := job.nextEligibleAt }
  else merged

/-- Jobs of a batch, with what is left of its budget and how many it has. -/
def batchLoop (maxJobs : Nat) : Nat → Nat → List SyncJob → List SyncJob
  | _, _, [] => []
  | remaining, count, job :: jobs =>
      if maxJobs ≤ count then []
      else if remaining < job.estimatedCost.budgetUnits then batchLoop maxJobs remaining count jobs
      else job :: batchLoop maxJobs (remaining - job.estimatedCost.budgetUnits) (count + 1) jobs

def budgetLoop : Nat → List SyncJob → List SyncJob
  | _, [] => []
  | remaining, job :: jobs =>
      if remaining < job.estimatedCost.budgetUnits then budgetLoop remaining jobs
      else job :: budgetLoop (remaining - job.estimatedCost.budgetUnits) jobs

/-- The units of jobs, as `u16` that saturates. -/
def budgetUnitsOf (jobs : List SyncJob) : Nat :=
  jobs.foldl (fun units job => min (units + job.estimatedCost.budgetUnits) (2 ^ 16 - 1)) 0

namespace FreshnessQueue

def new : FreshnessQueue := ⟨.empty⟩

def upsert (self : FreshnessQueue) (job : SyncJob) : FreshnessQueue :=
  match self.jobs.lookup job.dedupeKey with
  | none => ⟨self.jobs.put job⟩
  | some existing => ⟨self.jobs.put (mergeJob existing job)⟩

/-- `jobs.remove` of the keys of jobs. -/
def removeAll (self : FreshnessQueue) (jobs : List SyncJob) : FreshnessQueue :=
  ⟨self.jobs.eraseWhere fun job => decide (job.dedupeKey ∈ jobs.map SyncJob.dedupeKey)⟩

/-- The jobs that are ready, in the order they are considered in.  The keys tell jobs apart,
so it does not matter which order the table had. -/
def readyJobs (self : FreshnessQueue) (now : Option Text) : List SyncJob :=
  (self.jobs.rows.filter fun job => isReady job now).insertionSort fun left right =>
    jobRank left ≤ jobRank right

def popReadyAt (self : FreshnessQueue) (now : Option Text) (budgetUnits : Nat) :
    Option SyncJob × FreshnessQueue :=
  match (self.readyJobs now).find? fun job =>
      decide (job.estimatedCost.budgetUnits ≤ budgetUnits) with
  | none => (none, self)
  | some job => (some job, self.removeAll [job])

def metrics (self : FreshnessQueue) (now : Option Text) : FreshnessQueueMetrics where
  totalJobs := self.jobs.rows.length
  readyJobs := self.jobs.rows.countP fun job => isReady job now
  deferredJobs := self.jobs.rows.countP fun job => !isReady job now
  totalBudgetUnits := budgetUnitsOf self.jobs.rows
  readyBudgetUnits := budgetUnitsOf (self.jobs.rows.filter fun job => isReady job now)

def drainReadyBatch (self : FreshnessQueue) (now : Option Text) (budgetUnits maxJobs : Nat) :
    FreshnessBatch × FreshnessQueue :=
  let jobs := batchLoop maxJobs budgetUnits 0 (self.readyJobs now)
  (⟨jobs, self.metrics now⟩, self.removeAll jobs)

def drainReadyBudget (self : FreshnessQueue) (now : Option Text) (budgetUnits : Nat) :
    List SyncJob × FreshnessQueue :=
  let drained := budgetLoop budgetUnits (self.readyJobs now)
  (drained, self.removeAll drained)

end FreshnessQueue

/-! ## Calls -/

inductive QueueCall where
  | upsert (job : SyncJob)
  | popReadyAt (now : Option Text) (budgetUnits : Nat)
  | drainReadyBatch (now : Option Text) (budgetUnits maxJobs : Nat)
  | drainReadyBudget (now : Option Text) (budgetUnits : Nat)
  deriving DecidableEq, Repr

/-- The jobs that a call returns, and the queue behind it. -/
def FreshnessQueue.call (self : FreshnessQueue) : QueueCall → List SyncJob × FreshnessQueue
  | .upsert job => ([], self.upsert job)
  | .popReadyAt now budgetUnits =>
      let (job, queue) := self.popReadyAt now budgetUnits
      (job.toList, queue)
  | .drainReadyBatch now budgetUnits maxJobs =>
      let (batch, queue) := self.drainReadyBatch now budgetUnits maxJobs
      (batch.jobs, queue)
  | .drainReadyBudget now budgetUnits => self.drainReadyBudget now budgetUnits

end Locality.Daemon
