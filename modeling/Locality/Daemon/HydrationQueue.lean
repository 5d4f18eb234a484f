/-
  Daemon/HydrationQueue.lean --- the queue of hydrations of `localityd/src/hydration.rs`,
  and the loop that drains it.

  The queue is a `KeyedQueue` under the key of the entity.  A request that comes in for
  an entity whose request waits is merged into it: the path and the reason are those of
  the higher priority, and the older ones where the priorities are equal; the target is
  the stronger one.
-/
import Locality.Foundation.KeyedQueue
import Locality.Daemon.Hydration
import Locality.Daemon.Reconcile

set_option autoImplicit false

namespace Locality.Daemon

open Locality.Core Locality.Foundation

/-! ## Priorities and targets -/

inductive HydrationPriority where
  | low
  | normal
  | high
  deriving DecidableEq, Repr

def HydrationPriority.rank : HydrationPriority → Nat
  | low => 0
  | normal => 1
  | high => 2

theorem HydrationPriority.rank_injective : Function.Injective HydrationPriority.rank := by
  intro a b h
  cases a <;> cases b <;> first | rfl | exact nomatch h

/-- The order of the variants. -/
instance : LinearOrder HydrationPriority :=
  LinearOrder.lift' HydrationPriority.rank HydrationPriority.rank_injective

def hydrationPriority : HydrationReason → HydrationPriority
  | .explicitPull | .fileOpen | .liveModeRemoteFastForward | .stubRead => .high
  | .policy | .remoteFastForward => .normal
  | .prefetch => .low

def hydrationTargetRank : HydrationState → Nat
  | .virtual => 0
  | .stub => 1
  | .hydrated => 2
  | .dirty => 3
  | .conflicted => 4

theorem hydrationTargetRank_injective : Function.Injective hydrationTargetRank := by
  intro a b h
  cases a <;> cases b <;> first | rfl | exact nomatch h

def strongestTargetState (current incoming : HydrationState) : HydrationState :=
  if hydrationTargetRank current < hydrationTargetRank incoming then incoming else current

def mergeHydrationRequest (existing incoming : HydrationRequest) : HydrationRequest :=
  let targetState := strongestTargetState existing.targetState incoming.targetState
  if hydrationPriority existing.reason < hydrationPriority incoming.reason then
    { existing with path := incoming.path, reason := incoming.reason, targetState := targetState }
  else { existing with targetState := targetState }

def HydrationRequest.priority (self : HydrationRequest) : HydrationPriority :=
  hydrationPriority self.reason

def HydrationRequest.targetRank (self : HydrationRequest) : Nat :=
  hydrationTargetRank self.targetState

section Merge

variable (existing incoming : HydrationRequest)

theorem key_merge : (mergeHydrationRequest existing incoming).key = existing.key := by
  unfold mergeHydrationRequest
  dsimp only
  split <;> rfl

theorem priority_merge : (mergeHydrationRequest existing incoming).priority =
    max existing.priority incoming.priority := by
  unfold mergeHydrationRequest
  dsimp only
  split
  · rename_i hlt
    exact (max_eq_right hlt.le).symm
  · rename_i hge
    exact (max_eq_left (not_lt.mp hge)).symm

theorem targetState_merge : (mergeHydrationRequest existing incoming).targetState =
    strongestTargetState existing.targetState incoming.targetState := by
  unfold mergeHydrationRequest
  dsimp only
  split <;> rfl

theorem targetRank_merge : (mergeHydrationRequest existing incoming).targetRank =
    max existing.targetRank incoming.targetRank := by
  unfold HydrationRequest.targetRank
  rw [targetState_merge]
  unfold strongestTargetState
  split
  · rename_i hlt
    exact (max_eq_right hlt.le).symm
  · rename_i hge
    exact (max_eq_left (not_lt.mp hge)).symm

/-- A merged request leads where one of the two leads. -/
theorem path_merge : (mergeHydrationRequest existing incoming).path = existing.path ∨
    (mergeHydrationRequest existing incoming).path = incoming.path := by
  unfold mergeHydrationRequest
  dsimp only
  split
  · exact .inr rfl
  · exact .inl rfl

end Merge

/-! ## The queue -/

abbrev HydrationQueue : Type := KeyedQueue EntityKey HydrationRequest

namespace HydrationQueue

def new : HydrationQueue := .empty

def containsTarget (self : HydrationQueue) (mountId : MountId) (remoteId : RemoteId) : Bool :=
  (self.pending.lookup (mountId, remoteId)).isSome

def requestForTarget (self : HydrationQueue) (mountId : MountId) (remoteId : RemoteId) :
    Option HydrationRequest :=
  self.pending.lookup (mountId, remoteId)

/-- Whether the entity had no request, and the queue. -/
def queueRequest (self : HydrationQueue) (request : HydrationRequest) : Bool × HydrationQueue :=
  self.push HydrationRequest.key mergeHydrationRequest request

def takeTarget (self : HydrationQueue) (mountId : MountId) (remoteId : RemoteId) :
    Option HydrationRequest × HydrationQueue :=
  self.remove (mountId, remoteId)

def removeTarget (self : HydrationQueue) (mountId : MountId) (remoteId : RemoteId) :
    Bool × HydrationQueue :=
  ((self.takeTarget mountId remoteId).1.isSome, (self.takeTarget mountId remoteId).2)

def removeTargetWithReason (self : HydrationQueue) (mountId : MountId) (remoteId : RemoteId)
    (reason : HydrationReason) : Bool × HydrationQueue :=
  if (self.requestForTarget mountId remoteId).all fun request =>
      decide (request.reason ≠ reason) then
    (false, self)
  else (true, (self.takeTarget mountId remoteId).2)

def popReady (self : HydrationQueue) : Option HydrationRequest × HydrationQueue :=
  self.pop HydrationRequest.priority

/-- How many requests are dropped, and the queue. -/
def drainReady (self : HydrationQueue) : Nat × HydrationQueue := (self.pending.keys.length, .empty)

/-- The sort by priority and place is one by priority that keeps the order of equals. -/
def debugRequests (self : HydrationQueue) (limit : Nat) : List HydrationRequest :=
  (self.inTurn HydrationRequest.priority).take limit

/-- `HydrationEngine::queue` of a queue, which never fails. -/
def engine : HydrationEngine HydrationQueue where
  queue := fun request queue => (.ok (), (queue.queueRequest request).2)

/-- Every entity has at most one request, which is listed once. -/
abbrev WellFormed (self : HydrationQueue) : Prop :=
  KeyedQueue.WellFormed HydrationRequest.key self

theorem wellFormed_queueRequest {self : HydrationQueue} (hwell : self.WellFormed)
    (request : HydrationRequest) : (self.queueRequest request).2.WellFormed :=
  KeyedQueue.WellFormed.push hwell
    (fun held item hkey => (key_merge held item).trans hkey) request

end HydrationQueue

/-! ## The loop -/

structure HydrationDrainReport where
  hydrated : Nat
  skippedDirty : Nat
  remoteDeleted : Nat
  deriving DecidableEq, Repr

/-- `HydrationDrainReport::default()`. -/
def HydrationDrainReport.empty : HydrationDrainReport := ⟨0, 0, 0⟩

def HydrationDrainReport.count (self : HydrationDrainReport) :
    HydrationOutcome → HydrationDrainReport
  | .hydrated => { self with hydrated := self.hydrated + 1 }
  | .skippedDirty => { self with skippedDirty := self.skippedDirty + 1 }
  | .remoteDeleted => { self with remoteDeleted := self.remoteDeleted + 1 }

structure Draining where
  host : Host
  queue : HydrationQueue

section Drain

variable (yaml : YamlSerde) (source : HydrationSource) (outputRoot : Option PathBuf)

/-- A request that was popped is hydrated, and is queued again where that fails. -/
def drainRequest (request : HydrationRequest) (host : Host) (queue : HydrationQueue) :
    LocalityResult HydrationOutcome × Draining :=
  match hydrateRequest yaml source outputRoot request host with
  | (.ok outcome, host) => (.ok outcome, ⟨host, queue⟩)
  | (.error error, host) => (.error error, ⟨host, (queue.queueRequest request).2⟩)

/-- The loop of `drain_queue`, for as many rounds as there is fuel. -/
def drainRounds : Nat → HydrationDrainReport → Draining →
    LocalityResult HydrationDrainReport × Draining
  | 0, report, st => (.ok report, st)
  | fuel + 1, report, st =>
      match st.queue.popReady with
      | (none, _) => (.ok report, st)
      | (some request, queue) =>
          match drainRequest yaml source outputRoot request st.host queue with
          | (.error error, st) => (.error error, st)
          | (.ok outcome, st) => drainRounds fuel (report.count outcome) st

/-- `drain_queue`: every round takes a request from the queue, and none comes in before
the loop ends. -/
def drainQueue (st : Draining) : LocalityResult HydrationDrainReport × Draining :=
  drainRounds yaml source outputRoot st.queue.order.length .empty st

end Drain

end Locality.Daemon
