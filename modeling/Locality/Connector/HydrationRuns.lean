/-
  Connector/HydrationRuns.lean --- the calls on the clones of one budget, in any interleaving.

  What happens under the lock is one step, so a commit that fails and the drop of its
  reservation are two, and other calls come between them.  The counters are compared with
  the totals over the calls that succeeded.
-/
import Locality.Connector.HydrationBudget
import Locality.Foundation.Fallible
import Mathlib.Algebra.BigOperators.Group.Finset.Piecewise
import Mathlib.Algebra.Order.BigOperators.Group.Finset

set_option autoImplicit false

namespace Locality.Connector

open Locality.Foundation

/-! ## Operations -/

theorem checkedAdd_eq_ok {a b c : Nat} {error : InitialHydrationError} :
    checkedAdd a b error = .ok c ↔ a + b < 2 ^ 64 ∧ c = a + b := by
  rw [checkedAdd]
  split
  · rename_i h
    exact ⟨fun heq => ⟨h, (Except.ok.inj heq).symm⟩, fun heq => heq.2 ▸ rfl⟩
  · rename_i h
    exact ⟨fun heq => (nomatch heq), fun heq => absurd heq.1 h⟩

theorem checkedSub_eq_ok {a b c : Nat} {error : InitialHydrationError} :
    checkedSub a b error = .ok c ↔ b ≤ a ∧ c = a - b := by
  rw [checkedSub]
  split
  · rename_i h
    exact ⟨fun heq => ⟨h, (Except.ok.inj heq).symm⟩, fun heq => heq.2 ▸ rfl⟩
  · rename_i h
    exact ⟨fun heq => (nomatch heq), fun heq => absurd heq.1 h⟩

theorem usizeToU64_eq_ok {value result : Nat} {resource : HydrationResource}
    (h : usizeToU64 value resource = .ok result) : result = value := by
  rw [usizeToU64] at h
  split at h
  · exact (Except.ok.inj h).symm
  · exact nomatch h

theorem withinLimit_eq_ok {next limit : Nat} {resource : HydrationResource} {u : Unit} :
    withinLimit next limit resource = .ok u ↔ next ≤ limit := by
  rw [withinLimit, ite_throw_pure_eq_ok, Nat.not_lt]

/-- The sum of the amounts of a resource. -/
def amountOf (resource : HydrationResource) (reservations : List (HydrationResource × Nat)) :
    Nat :=
  ((reservations.filter (·.1 = resource)).map (·.2)).sum

theorem amountOf_cons (resource : HydrationResource) (reservation : HydrationResource × Nat)
    (reservations : List (HydrationResource × Nat)) :
    amountOf resource (reservation :: reservations) =
      (if reservation.1 = resource then reservation.2 else 0) +
        amountOf resource reservations := by
  rw [amountOf, List.filter_cons]
  split
  · simp_all [amountOf]
  · simp_all [amountOf]

theorem validateReservations_eq_ok {limits : InitialHydrationLimits}
    {reservations : List (HydrationResource × Nat)} :
    ∀ {usage usage' : HydrationUsage},
      validateReservations limits usage reservations = .ok usage' → ∀ resource,
        usage'.get resource = usage.get resource + amountOf resource reservations ∧
          (usage.get resource ≤ limits.limit resource →
            usage'.get resource ≤ limits.limit resource) := by
  induction reservations with
  | nil =>
      intro usage usage' h resource
      cases h
      exact ⟨rfl, id⟩
  | cons reservation reservations ih =>
      obtain ⟨charged, amount⟩ := reservation
      intro usage usage' h resource
      rw [validateReservations] at h
      split at h
      · exact nomatch h
      · rename_i hcounted
        rw [Bool.not_eq_true] at hcounted
        obtain ⟨next, hnext, h⟩ := bind_eq_ok.mp h
        obtain ⟨_, hwithin, h⟩ := bind_eq_ok.mp h
        obtain ⟨-, rfl⟩ := checkedAdd_eq_ok.mp hnext
        rw [withinLimit_eq_ok] at hwithin
        obtain ⟨husage, hlimit⟩ := ih h resource
        rw [HydrationUsage.get_set hcounted] at husage hlimit
        rw [husage, amountOf_cons]
        rw [husage] at hlimit
        by_cases hresource : charged = resource
        · subst hresource
          simp only [if_true] at hlimit ⊢
          exact ⟨by omega, fun _ => hlimit hwithin⟩
        · simp only [if_neg hresource] at hlimit ⊢
          exact ⟨by omega, hlimit⟩

namespace InitialHydrationBudget

variable {budget budget' : InitialHydrationBudget}

theorem account_eq_ok {reservations : List (HydrationResource × Nat)}
    (h : budget.account reservations = .ok budget') :
    budget'.limits = budget.limits ∧ ∀ resource,
      budget'.usage.get resource =
          budget.usage.get resource + amountOf resource reservations ∧
        (budget.usage.get resource ≤ budget.limits.limit resource →
          budget'.usage.get resource ≤ budget.limits.limit resource) := by
  obtain ⟨usage, husage, h⟩ := bind_eq_ok.mp h
  cases h
  exact ⟨rfl, validateReservations_eq_ok husage⟩

theorem releaseRetainedBytes_eq_ok {bytes : Nat}
    (h : budget.releaseRetainedBytes bytes = .ok budget') :
    bytes ≤ budget.usage.retainedBytes ∧ budget' = { budget with usage :=
      { budget.usage with retainedBytes := budget.usage.retainedBytes - bytes } } := by
  obtain ⟨_, hbytes, h⟩ := bind_eq_ok.mp h
  cases usizeToU64_eq_ok hbytes
  obtain ⟨_, hretained, h⟩ := bind_eq_ok.mp h
  obtain ⟨hle, rfl⟩ := checkedSub_eq_ok.mp hretained
  exact ⟨hle, (Except.ok.inj h).symm⟩

theorem replaceRetainedBytes_eq_ok {released added : Nat}
    (h : budget.replaceRetainedBytes released added = .ok budget') :
    released ≤ budget.usage.retainedBytes ∧
      budget.usage.retainedBytes - released + added ≤ budget.limits.maxRetainedBytes ∧
        budget' = { budget with usage := { budget.usage with
          retainedBytes := budget.usage.retainedBytes - released + added } } := by
  obtain ⟨_, hreleased, h⟩ := bind_eq_ok.mp h
  obtain ⟨_, hadded, h⟩ := bind_eq_ok.mp h
  cases usizeToU64_eq_ok hreleased
  cases usizeToU64_eq_ok hadded
  obtain ⟨_, hwithout, h⟩ := bind_eq_ok.mp h
  obtain ⟨_, hnext, h⟩ := bind_eq_ok.mp h
  obtain ⟨_, hwithin, h⟩ := bind_eq_ok.mp h
  obtain ⟨hle, rfl⟩ := checkedSub_eq_ok.mp hwithout
  obtain ⟨-, rfl⟩ := checkedAdd_eq_ok.mp hnext
  exact ⟨hle, withinLimit_eq_ok.mp hwithin, (Except.ok.inj h).symm⟩

theorem reserveMediaBytes_eq_ok {requested reserved : Nat}
    (h : budget.reserveMediaBytes requested = .ok (reserved, budget')) :
    0 < reserved ∧ reserved ≤ requested ∧
      reserved ≤ budget.limits.maxMediaDecodedBytes - budget.usage.mediaDecodedBytes ∧
      reserved ≤ budget.limits.maxRetainedBytes - budget.usage.retainedBytes ∧
        budget' = { budget with usage := { budget.usage with
          mediaDecodedBytes := budget.usage.mediaDecodedBytes + reserved
          retainedBytes := budget.usage.retainedBytes + reserved } } := by
  rw [reserveMediaBytes] at h
  split at h
  · exact nomatch h
  · obtain ⟨_, hrequested, h⟩ := bind_eq_ok.mp h
    cases usizeToU64_eq_ok hrequested
    dsimp only at h
    split at h
    · exact nomatch h
    · rename_i hpositive
      obtain ⟨_, hmedia, h⟩ := bind_eq_ok.mp h
      obtain ⟨_, hretained, h⟩ := bind_eq_ok.mp h
      obtain ⟨-, rfl⟩ := checkedAdd_eq_ok.mp hmedia
      obtain ⟨-, rfl⟩ := checkedAdd_eq_ok.mp hretained
      cases h
      refine ⟨Nat.pos_of_ne_zero hpositive, ?_, ?_, Nat.min_le_right _ _, rfl⟩
      · exact (Nat.min_le_left _ _).trans (Nat.min_le_left _ _)
      · exact (Nat.min_le_left _ _).trans (Nat.min_le_right _ _)

end InitialHydrationBudget

/-- A commit that succeeds puts what was returned in the place of the reservation. -/
theorem InitialHydrationMediaReservation.tryCommit_eq_ok
    {reservation : InitialHydrationMediaReservation} {budget budget' : InitialHydrationBudget}
    {actual extra : Nat} (h : reservation.tryCommit budget actual extra = .ok budget') :
    actual ≤ reservation.reservedBytes ∧
      reservation.reservedBytes ≤ budget.usage.mediaDecodedBytes ∧
      reservation.reservedBytes ≤ budget.usage.retainedBytes ∧
      budget'.limits = budget.limits ∧
      budget'.usage = { budget.usage with
        mediaDecodedBytes :=
          budget.usage.mediaDecodedBytes - reservation.reservedBytes + actual
        retainedBytes :=
          budget.usage.retainedBytes - reservation.reservedBytes + actual + extra } ∧
      budget'.usage.mediaDecodedBytes ≤ budget.limits.maxMediaDecodedBytes ∧
      budget'.usage.retainedBytes ≤ budget.limits.maxRetainedBytes := by
  obtain ⟨_, hactual, h⟩ := bind_eq_ok.mp h
  obtain ⟨_, hextra, h⟩ := bind_eq_ok.mp h
  cases usizeToU64_eq_ok hactual
  cases usizeToU64_eq_ok hextra
  dsimp only at h
  split at h
  · exact nomatch h
  · rename_i hle
    obtain ⟨_, hmedia, h⟩ := bind_eq_ok.mp h
    obtain ⟨_, hretained, h⟩ := bind_eq_ok.mp h
    obtain ⟨_, hnextMedia, h⟩ := bind_eq_ok.mp h
    obtain ⟨_, hwithActual, h⟩ := bind_eq_ok.mp h
    obtain ⟨_, hnextRetained, h⟩ := bind_eq_ok.mp h
    obtain ⟨_, hwithinMedia, h⟩ := bind_eq_ok.mp h
    obtain ⟨_, hwithinRetained, h⟩ := bind_eq_ok.mp h
    obtain ⟨hmediaLe, rfl⟩ := checkedSub_eq_ok.mp hmedia
    obtain ⟨hretainedLe, rfl⟩ := checkedSub_eq_ok.mp hretained
    obtain ⟨-, rfl⟩ := checkedAdd_eq_ok.mp hnextMedia
    obtain ⟨-, rfl⟩ := checkedAdd_eq_ok.mp hwithActual
    obtain ⟨-, rfl⟩ := checkedAdd_eq_ok.mp hnextRetained
    cases h
    exact ⟨Nat.not_lt.mp hle, hmediaLe, hretainedLe, rfl, rfl, withinLimit_eq_ok.mp hwithinMedia,
      withinLimit_eq_ok.mp hwithinRetained⟩

/-! ## Steps -/

/-- Who holds a clone of the budget. -/
abbrev Caller : Type := Nat

inductive Call where
  | account (caller : Caller) (reservations : List (HydrationResource × Nat))
  | replaceRetainedBytes (caller : Caller) (releasedBytes addedBytes : Nat)
  | releaseRetainedBytes (caller : Caller) (bytes : Nat)
  | reserveMediaBytes (caller : Caller) (requestedBytes : Nat)
  | commit (caller : Caller) (reservation : InitialHydrationMediaReservation)
      (actualBodyBytes extraRetainedBytes : Nat)
  | drop (reservation : InitialHydrationMediaReservation)
  | dropFailed (reservation : InitialHydrationMediaReservation)

/-- A job: its budget, the reservations that its callers hold, and those whose commit failed
and that are not dropped yet. -/
structure Job where
  budget : InitialHydrationBudget
  held : List InitialHydrationMediaReservation
  failed : List InitialHydrationMediaReservation

namespace Job

def start (budget : InitialHydrationBudget) : Job := ⟨budget, [], []⟩

/-- The result of a call that gives no value. -/
def settle (job : Job) : InitialHydrationResult InitialHydrationBudget →
    InitialHydrationResult Unit × Job
  | .ok budget => (.ok (), { job with budget := budget })
  | .error error => (.error error, job)

/-- A call under the lock; none where its reservation is not there to be consumed. -/
def step (job : Job) : Call → Option (InitialHydrationResult Unit × Job)
  | .account _ reservations => some (job.settle (job.budget.account reservations))
  | .replaceRetainedBytes _ releasedBytes addedBytes =>
      some (job.settle (job.budget.replaceRetainedBytes releasedBytes addedBytes))
  | .releaseRetainedBytes _ bytes =>
      some (job.settle (job.budget.releaseRetainedBytes bytes))
  | .reserveMediaBytes _ requestedBytes =>
      match job.budget.reserveMediaBytes requestedBytes with
      | .ok (reserved, budget) =>
          some (.ok (), { job with budget := budget, held := ⟨reserved⟩ :: job.held })
      | .error error => some (.error error, job)
  | .commit _ reservation actualBodyBytes extraRetainedBytes =>
      if reservation ∈ job.held then
        match reservation.tryCommit job.budget actualBodyBytes extraRetainedBytes with
        | .ok budget =>
            some (.ok (), { job with budget := budget, held := job.held.erase reservation })
        | .error error =>
            some (.error error, { job with
              held := job.held.erase reservation
              failed := reservation :: job.failed })
      else none
  | .drop reservation =>
      if reservation ∈ job.held then
        some (.ok (), { job with
          budget := reservation.drop job.budget
          held := job.held.erase reservation })
      else none
  | .dropFailed reservation =>
      if reservation ∈ job.failed then
        some (.ok (), { job with
          budget := reservation.drop job.budget
          failed := job.failed.erase reservation })
      else none

/-- The bytes of the reservations that are not dropped. -/
def outstanding (job : Job) : Nat :=
  (job.held.map (·.reservedBytes)).sum + (job.failed.map (·.reservedBytes)).sum

end Job

/-! ## Totals -/

/-- Calls and their results, the last one first. -/
abbrev Trace : Type := List (Call × InitialHydrationResult Unit)

/-- The total of a measure over the calls that succeeded. -/
def total (measure : Call → Nat) : Trace → Nat
  | [] => 0
  | (call, .ok ()) :: trace => measure call + total measure trace
  | (_, .error _) :: trace => total measure trace

/-- What a call accounts of a resource. -/
def accounted (resource : HydrationResource) : Call → Nat
  | .account _ reservations => amountOf resource reservations
  | .replaceRetainedBytes _ _ addedBytes => if resource = .retainedBytes then addedBytes else 0
  | _ => 0

/-- What a call commits of a resource. -/
def committed (resource : HydrationResource) : Call → Nat
  | .commit _ _ actualBodyBytes extraRetainedBytes =>
      match resource with
      | .mediaDecodedBytes => actualBodyBytes
      | .retainedBytes => actualBodyBytes + extraRetainedBytes
      | _ => 0
  | _ => 0

/-- The retained bytes that a call releases. -/
def released : Call → Nat
  | .replaceRetainedBytes _ releasedBytes _ => releasedBytes
  | .releaseRetainedBytes _ bytes => bytes
  | _ => 0

def Call.caller : Call → Option Caller
  | .account caller _ | .replaceRetainedBytes caller _ _ | .releaseRetainedBytes caller _
  | .reserveMediaBytes caller _ | .commit caller _ _ _ => some caller
  | .drop _ | .dropFailed _ => none

/-- A measure of the calls of one caller. -/
def ofCaller (caller : Caller) (measure : Call → Nat) (call : Call) : Nat :=
  if call.caller = some caller then measure call else 0

/-- The retained bytes that a caller accounted or committed. -/
def ownedBy (caller : Caller) : Trace → Nat :=
  total (ofCaller caller fun call =>
    accounted .retainedBytes call + committed .retainedBytes call)

def releasedBy (caller : Caller) : Trace → Nat := total (ofCaller caller released)

/-- The call releases only what its caller accounted and has not released. -/
def ReleasesOwned (trace : Trace) (call : Call) : Prop :=
  ∀ caller, call.caller = some caller →
    releasedBy caller trace + released call ≤ ownedBy caller trace

/-- The traces of a budget, in any interleaving of its callers. -/
inductive Run (budget : InitialHydrationBudget) : Trace → Job → Prop where
  | start : Run budget [] (Job.start budget)
  | step {trace : Trace} {job job' : Job} {call : Call} {result : InitialHydrationResult Unit}
      (run : Run budget trace job) (owned : ReleasesOwned trace call)
      (taken : job.step call = some (result, job')) :
      Run budget ((call, result) :: trace) job'

/-! ## Totals by callers -/

theorem total_add (measure measure' : Call → Nat) (trace : Trace) :
    total (fun call => measure call + measure' call) trace =
      total measure trace + total measure' trace := by
  induction trace with
  | nil => rfl
  | cons entry trace ih =>
      obtain ⟨call, result⟩ := entry
      cases result with
      | error error => exact ih
      | ok u =>
          simp only [total, ih]
          omega

/-- The callers of a trace. -/
def callers (trace : Trace) : Finset Caller := (trace.filterMap (·.1.caller)).toFinset

/-- A measure that has a caller is the sum over the callers. -/
theorem sum_ofCaller {measure : Call → Nat} (call : Call)
    (hmeasure : call.caller = none → measure call = 0) {callers : Finset Caller}
    (hmem : ∀ caller, call.caller = some caller → caller ∈ callers) :
    ∑ caller ∈ callers, ofCaller caller measure call = measure call := by
  cases hcaller : call.caller with
  | none => simp [ofCaller, hcaller, hmeasure hcaller]
  | some caller =>
      have hin := hmem caller hcaller
      simp [ofCaller, hcaller, hin]

theorem total_eq_sum {measure : Call → Nat}
    (hmeasure : ∀ call, Call.caller call = none → measure call = 0) (trace : Trace) :
    ∀ callers : Finset Caller,
      (∀ entry ∈ trace, ∀ caller, entry.1.caller = some caller → caller ∈ callers) →
        ∑ caller ∈ callers, total (ofCaller caller measure) trace = total measure trace := by
  induction trace with
  | nil =>
      intro callers _
      simp [total]
  | cons entry trace ih =>
      intro callers hmem
      rw [List.forall_mem_cons] at hmem
      obtain ⟨call, result⟩ := entry
      cases result with
      | error error => exact ih callers hmem.2
      | ok u =>
          simp only [total, Finset.sum_add_distrib]
          rw [sum_ofCaller call (hmeasure call) hmem.1, ih callers hmem.2]

/-- No more is released in all than was accounted and committed, if that holds of each
caller. -/
theorem released_le (trace : Trace)
    (h : ∀ caller, releasedBy caller trace ≤ ownedBy caller trace) :
    total released trace ≤
      total (accounted .retainedBytes) trace + total (committed .retainedBytes) trace := by
  have hmem : ∀ entry ∈ trace, ∀ caller, Call.caller entry.1 = some caller →
      caller ∈ callers trace := by
    intro entry hentry caller hcaller
    exact List.mem_toFinset.mpr (List.mem_filterMap.mpr ⟨entry, hentry, hcaller⟩)
  have hreleased : ∀ call, Call.caller call = none → released call = 0 := by
    intro call hcaller
    cases call <;> first | rfl | cases hcaller
  have howned : ∀ call, Call.caller call = none →
      accounted .retainedBytes call + committed .retainedBytes call = 0 := by
    intro call hcaller
    cases call <;> first | rfl | cases hcaller
  rw [← total_add, ← total_eq_sum hreleased trace _ hmem, ← total_eq_sum howned trace _ hmem]
  exact Finset.sum_le_sum fun caller _ => h caller

/-! ## What every run keeps -/

/-- What holds of a job and its trace. -/
structure Balanced (budget : InitialHydrationBudget) (trace : Trace) (job : Job) : Prop where
  limits : job.budget.limits = budget.limits
  within : ∀ resource, job.budget.usage.get resource ≤ budget.limits.limit resource
  media : job.budget.usage.mediaDecodedBytes =
    total (accounted .mediaDecodedBytes) trace + total (committed .mediaDecodedBytes) trace +
      job.outstanding
  retained : job.budget.usage.retainedBytes + total released trace =
    total (accounted .retainedBytes) trace + total (committed .retainedBytes) trace +
      job.outstanding
  others : ∀ resource, resource ≠ .mediaDecodedBytes → resource ≠ .retainedBytes →
    job.budget.usage.get resource = total (accounted resource) trace
  owned : ∀ caller, releasedBy caller trace ≤ ownedBy caller trace

theorem balanced_start {limits : InitialHydrationLimits} {budget : InitialHydrationBudget}
    (hnew : InitialHydrationBudget.new limits = .ok budget) :
    Balanced budget [] (Job.start budget) := by
  obtain ⟨validated, -, hnew⟩ := bind_eq_ok.mp hnew
  cases hnew
  have hzero : ∀ resource, ({} : HydrationUsage).get resource = 0 := by
    intro resource
    cases resource <;> rfl
  exact {
    limits := rfl
    within := fun resource => by
      rw [Job.start, hzero]
      exact Nat.zero_le _
    media := rfl
    retained := rfl
    others := fun resource _ _ => hzero resource
    owned := fun _ => Nat.le_refl _ }

/-- A trace in which every call releases only what its caller owns stays so. -/
theorem owned_cons {trace : Trace} {call : Call} {result : InitialHydrationResult Unit}
    (howned : ∀ caller, releasedBy caller trace ≤ ownedBy caller trace)
    (hcall : ReleasesOwned trace call) (caller : Caller) :
    releasedBy caller ((call, result) :: trace) ≤ ownedBy caller ((call, result) :: trace) := by
  cases result with
  | error error => exact howned caller
  | ok u =>
      have hbefore := howned caller
      by_cases hcaller : call.caller = some caller
      · have hreleases := hcall caller hcaller
        simp only [releasedBy, ownedBy, total, ofCaller, if_pos hcaller] at hreleases ⊢
        omega
      · simp only [releasedBy, ownedBy, total, ofCaller, if_neg hcaller] at hbefore ⊢
        omega

namespace Balanced

variable {budget : InitialHydrationBudget} {trace : Trace} {job : Job}

/-- The outstanding reservations are part of both counters. -/
theorem outstanding_le (h : Balanced budget trace job) :
    job.outstanding ≤ job.budget.usage.mediaDecodedBytes ∧
      job.outstanding ≤ job.budget.usage.retainedBytes := by
  have hreleased := released_le trace h.owned
  have hmedia := h.media
  have hretained := h.retained
  omega

end Balanced

theorem sum_erase {reservation : InitialHydrationMediaReservation}
    {reservations : List InitialHydrationMediaReservation} (hmem : reservation ∈ reservations) :
    ((reservations.erase reservation).map (·.reservedBytes)).sum + reservation.reservedBytes =
      (reservations.map (·.reservedBytes)).sum := by
  rw [Nat.add_comm]
  exact List.sum_map_erase (·.reservedBytes) hmem

/-- The counters lose the bytes of the reservation, and nothing else changes. -/
structure Releases (reservation : InitialHydrationMediaReservation)
    (budget budget' : InitialHydrationBudget) : Prop where
  limits : budget'.limits = budget.limits
  media : budget'.usage.mediaDecodedBytes + reservation.reservedBytes =
    budget.usage.mediaDecodedBytes
  retained : budget'.usage.retainedBytes + reservation.reservedBytes =
    budget.usage.retainedBytes
  others : ∀ resource, resource ≠ .mediaDecodedBytes → resource ≠ .retainedBytes →
    budget'.usage.get resource = budget.usage.get resource

/-- A drop does not saturate while both counters hold the reservation. -/
theorem releases_drop {reservation : InitialHydrationMediaReservation}
    {budget : InitialHydrationBudget}
    (hmedia : reservation.reservedBytes ≤ budget.usage.mediaDecodedBytes)
    (hretained : reservation.reservedBytes ≤ budget.usage.retainedBytes) :
    Releases reservation budget (reservation.drop budget) := by
  rw [InitialHydrationMediaReservation.drop]
  split
  · rename_i hzero
    exact ⟨rfl, by omega, by omega, fun _ _ _ => rfl⟩
  · refine ⟨rfl, Nat.sub_add_cancel hmedia, Nat.sub_add_cancel hretained, ?_⟩
    intro resource hne hne'
    cases resource <;> first | rfl | contradiction

namespace Balanced

variable {budget : InitialHydrationBudget} {trace : Trace} {job : Job}

/-- A call that leaves the budget and what is outstanding adds nothing. -/
theorem of_error {job' : Job} {call : Call} {error : InitialHydrationError}
    (h : Balanced budget trace job) (hbudget : job'.budget = job.budget)
    (houtstanding : job'.outstanding = job.outstanding) :
    Balanced budget ((call, .error error) :: trace) job' where
  limits := hbudget ▸ h.limits
  within := hbudget ▸ h.within
  media := by
    rw [hbudget, houtstanding]
    exact h.media
  retained := by
    rw [hbudget, houtstanding]
    exact h.retained
  others := hbudget ▸ h.others
  owned := h.owned

/-- A reservation of the job is part of both counters. -/
theorem reserved_le (h : Balanced budget trace job)
    {reservation : InitialHydrationMediaReservation}
    (hmem : reservation ∈ job.held ∨ reservation ∈ job.failed) :
    reservation.reservedBytes ≤ job.budget.usage.mediaDecodedBytes ∧
      reservation.reservedBytes ≤ job.budget.usage.retainedBytes := by
  have houtstanding := h.outstanding_le
  have hle : reservation.reservedBytes ≤ job.outstanding := by
    rw [Job.outstanding]
    rcases hmem with hheld | hfailed
    · have hsum := sum_erase hheld
      omega
    · have hsum := sum_erase hfailed
      omega
  omega

/-- A dropped reservation is taken off both counters. -/
theorem drop {job' : Job} {call : Call} {reservation : InitialHydrationMediaReservation}
    (h : Balanced budget trace job) (hcall : call = .drop reservation ∨
      call = .dropFailed reservation)
    (hmem : reservation ∈ job.held ∨ reservation ∈ job.failed)
    (hbudget : job'.budget = reservation.drop job.budget)
    (houtstanding : job'.outstanding + reservation.reservedBytes = job.outstanding) :
    Balanced budget ((call, .ok ()) :: trace) job' := by
  have hle := h.reserved_le hmem
  have hreleases := releases_drop hle.1 hle.2
  have haccounted : ∀ resource, accounted resource call = 0 := by
    rcases hcall with rfl | rfl <;> exact fun _ => rfl
  have hcommitted : ∀ resource, committed resource call = 0 := by
    rcases hcall with rfl | rfl <;> exact fun _ => rfl
  have hreleased : released call = 0 := by
    rcases hcall with rfl | rfl <;> rfl
  have hmedia := h.media
  have hretained := h.retained
  have hmedia' := hreleases.media
  have hretained' := hreleases.retained
  have howned : ReleasesOwned trace call := by
    intro caller hcaller
    rcases hcall with rfl | rfl <;> exact nomatch hcaller
  refine ⟨by rw [hbudget, hreleases.limits, h.limits], ?_, ?_, ?_, ?_, owned_cons h.owned howned⟩
  · intro resource
    have hwithin := h.within resource
    rw [hbudget]
    by_cases hresource : resource = .mediaDecodedBytes
    · subst hresource
      simp only [HydrationUsage.get] at hwithin ⊢
      omega
    · by_cases hresource' : resource = .retainedBytes
      · subst hresource'
        simp only [HydrationUsage.get] at hwithin ⊢
        omega
      · rw [hreleases.others resource hresource hresource']
        exact hwithin
  · simp only [total, haccounted, hcommitted, hbudget]
    omega
  · simp only [total, haccounted, hcommitted, hreleased, hbudget]
    omega
  · intro resource hne hne'
    simp only [total, haccounted, hbudget]
    rw [hreleases.others resource hne hne', h.others resource hne hne', Nat.zero_add]

/-- A call that succeeds and is no drop changes the counters by what it accounts, commits and
releases. -/
theorem of_ok {job' : Job} {call : Call} (h : Balanced budget trace job)
    (howned : ReleasesOwned trace call) (hlimits : job'.budget.limits = job.budget.limits)
    (hwithin : ∀ resource, job.budget.usage.get resource ≤ job.budget.limits.limit resource →
      job'.budget.usage.get resource ≤ job.budget.limits.limit resource)
    (hmedia : job'.budget.usage.mediaDecodedBytes + job.outstanding =
      job.budget.usage.mediaDecodedBytes + accounted .mediaDecodedBytes call +
        committed .mediaDecodedBytes call + job'.outstanding)
    (hretained : job'.budget.usage.retainedBytes + released call + job.outstanding =
      job.budget.usage.retainedBytes + accounted .retainedBytes call +
        committed .retainedBytes call + job'.outstanding)
    (hothers : ∀ resource, resource ≠ .mediaDecodedBytes → resource ≠ .retainedBytes →
      job'.budget.usage.get resource =
        job.budget.usage.get resource + accounted resource call) :
    Balanced budget ((call, .ok ()) :: trace) job' := by
  have hmediaBefore := h.media
  have hretainedBefore := h.retained
  refine ⟨hlimits.trans h.limits, ?_, ?_, ?_, ?_, owned_cons h.owned howned⟩
  · intro resource
    rw [← h.limits]
    refine hwithin resource ?_
    rw [h.limits]
    exact h.within resource
  · simp only [total]
    omega
  · simp only [total]
    omega
  · intro resource hne hne'
    have hother := hothers resource hne hne'
    have hbefore := h.others resource hne hne'
    simp only [total]
    omega

/-- A change of the retained bytes alone. -/
theorem of_retained {job' : Job} {call : Call} (h : Balanced budget trace job)
    (howned : ReleasesOwned trace call) {next : Nat}
    (hjob : job' = { job with budget := { job.budget with
      usage := { job.budget.usage with retainedBytes := next } } })
    (hwithin : job.budget.usage.retainedBytes ≤ job.budget.limits.maxRetainedBytes →
      next ≤ job.budget.limits.maxRetainedBytes)
    (hnext : next + released call =
      job.budget.usage.retainedBytes + accounted .retainedBytes call)
    (haccounted : ∀ resource, resource ≠ .retainedBytes → accounted resource call = 0)
    (hcommitted : ∀ resource, committed resource call = 0) :
    Balanced budget ((call, .ok ()) :: trace) job' := by
  subst hjob
  refine h.of_ok howned rfl ?_ ?_ ?_ ?_
  · intro resource
    cases resource with
    | retainedBytes => exact hwithin
    | _ => exact id
  · rw [haccounted _ (by decide), hcommitted]
    rfl
  · rw [hcommitted]
    simp only [Job.outstanding]
    omega
  · intro resource hmedia hretained
    rw [haccounted resource hretained]
    cases resource <;> first | rfl | contradiction

theorem account {caller : Caller} {reservations : List (HydrationResource × Nat)}
    {result : InitialHydrationResult Unit} {job' : Job} (h : Balanced budget trace job)
    (howned : ReleasesOwned trace (.account caller reservations))
    (hstep : job.step (.account caller reservations) = some (result, job')) :
    Balanced budget ((.account caller reservations, result) :: trace) job' := by
  cases hresult : job.budget.account reservations with
  | error error =>
      simp only [Job.step, hresult, Job.settle] at hstep
      cases hstep
      exact h.of_error rfl rfl
  | ok next =>
      simp only [Job.step, hresult, Job.settle] at hstep
      cases hstep
      obtain ⟨hlimits, hcounts⟩ := InitialHydrationBudget.account_eq_ok hresult
      have hmedia := (hcounts .mediaDecodedBytes).1
      have hretained := (hcounts .retainedBytes).1
      simp only [HydrationUsage.get] at hmedia hretained
      refine h.of_ok howned hlimits (fun resource => (hcounts resource).2) ?_ ?_ ?_
      · simp only [accounted, committed, Job.outstanding]
        omega
      · simp only [accounted, committed, released, Job.outstanding]
        omega
      · exact fun resource _ _ => (hcounts resource).1

theorem replaceRetainedBytes {caller : Caller} {releasedBytes addedBytes : Nat}
    {result : InitialHydrationResult Unit} {job' : Job} (h : Balanced budget trace job)
    (howned : ReleasesOwned trace (.replaceRetainedBytes caller releasedBytes addedBytes))
    (hstep : job.step (.replaceRetainedBytes caller releasedBytes addedBytes) =
      some (result, job')) :
    Balanced budget ((.replaceRetainedBytes caller releasedBytes addedBytes, result) :: trace)
      job' := by
  cases hresult : job.budget.replaceRetainedBytes releasedBytes addedBytes with
  | error error =>
      simp only [Job.step, hresult, Job.settle] at hstep
      cases hstep
      exact h.of_error rfl rfl
  | ok next =>
      simp only [Job.step, hresult, Job.settle] at hstep
      cases hstep
      obtain ⟨hle, hwithin, rfl⟩ := InitialHydrationBudget.replaceRetainedBytes_eq_ok hresult
      refine h.of_retained howned rfl (fun _ => hwithin) ?_ ?_ (fun _ => rfl)
      · simp only [accounted, released, if_true]
        omega
      · exact fun resource hne => if_neg hne

theorem releaseRetainedBytes {caller : Caller} {bytes : Nat}
    {result : InitialHydrationResult Unit} {job' : Job} (h : Balanced budget trace job)
    (howned : ReleasesOwned trace (.releaseRetainedBytes caller bytes))
    (hstep : job.step (.releaseRetainedBytes caller bytes) = some (result, job')) :
    Balanced budget ((.releaseRetainedBytes caller bytes, result) :: trace) job' := by
  cases hresult : job.budget.releaseRetainedBytes bytes with
  | error error =>
      simp only [Job.step, hresult, Job.settle] at hstep
      cases hstep
      exact h.of_error rfl rfl
  | ok next =>
      simp only [Job.step, hresult, Job.settle] at hstep
      cases hstep
      obtain ⟨hle, rfl⟩ := InitialHydrationBudget.releaseRetainedBytes_eq_ok hresult
      refine h.of_retained howned rfl (fun hbefore => ?_) ?_ (fun _ _ => rfl) (fun _ => rfl)
      · omega
      · simp only [accounted, released]
        omega

theorem reserveMediaBytes {caller : Caller} {requestedBytes : Nat}
    {result : InitialHydrationResult Unit} {job' : Job} (h : Balanced budget trace job)
    (howned : ReleasesOwned trace (.reserveMediaBytes caller requestedBytes))
    (hstep : job.step (.reserveMediaBytes caller requestedBytes) = some (result, job')) :
    Balanced budget ((.reserveMediaBytes caller requestedBytes, result) :: trace) job' := by
  cases hresult : job.budget.reserveMediaBytes requestedBytes with
  | error error =>
      simp only [Job.step, hresult] at hstep
      cases hstep
      exact h.of_error rfl rfl
  | ok next =>
      obtain ⟨reserved, next⟩ := next
      simp only [Job.step, hresult] at hstep
      cases hstep
      obtain ⟨-, -, hmedia, hretained, rfl⟩ :=
        InitialHydrationBudget.reserveMediaBytes_eq_ok hresult
      have houtstanding : Job.outstanding { job with held := ⟨reserved⟩ :: job.held } =
          job.outstanding + reserved := by
        simp only [Job.outstanding, List.map_cons, List.sum_cons]
        omega
      refine h.of_ok howned rfl ?_ ?_ ?_ ?_
      · intro resource
        cases resource with
        | mediaDecodedBytes | retainedBytes =>
            simp only [HydrationUsage.get, InitialHydrationLimits.limit]
            omega
        | _ => exact id
      · simp only [accounted, committed, Job.outstanding] at houtstanding ⊢
        omega
      · simp only [accounted, committed, released, Job.outstanding] at houtstanding ⊢
        omega
      · intro resource hne hne'
        cases resource <;> first | rfl | contradiction

theorem commit {caller : Caller} {reservation : InitialHydrationMediaReservation}
    {actual extra : Nat} {result : InitialHydrationResult Unit} {job' : Job}
    (h : Balanced budget trace job)
    (howned : ReleasesOwned trace (.commit caller reservation actual extra))
    (hstep : job.step (.commit caller reservation actual extra) = some (result, job')) :
    Balanced budget ((.commit caller reservation actual extra, result) :: trace) job' := by
  rw [Job.step] at hstep
  split at hstep
  · rename_i hheld
    have hsum := sum_erase hheld
    cases hresult : reservation.tryCommit job.budget actual extra with
    | error error =>
        rw [hresult] at hstep
        cases hstep
        refine h.of_error rfl ?_
        simp only [Job.outstanding, List.map_cons, List.sum_cons]
        omega
    | ok next =>
        rw [hresult] at hstep
        cases hstep
        obtain ⟨-, hmediaLe, hretainedLe, hlimits, husage, hmedia, hretained⟩ :=
          InitialHydrationMediaReservation.tryCommit_eq_ok hresult
        refine h.of_ok howned hlimits ?_ ?_ ?_ ?_
        · intro resource hwithin
          cases resource with
          | mediaDecodedBytes => exact hmedia
          | retainedBytes => exact hretained
          | _ =>
              rw [husage]
              exact hwithin
        · simp only [husage, accounted, committed, Job.outstanding]
          omega
        · simp only [husage, accounted, committed, released, Job.outstanding]
          omega
        · intro resource hne hne'
          rw [husage]
          cases resource <;> first | rfl | contradiction
  · exact nomatch hstep

/-- What one call keeps. -/
theorem step {call : Call} {result : InitialHydrationResult Unit} {job' : Job}
    (h : Balanced budget trace job) (howned : ReleasesOwned trace call)
    (hstep : job.step call = some (result, job')) :
    Balanced budget ((call, result) :: trace) job' := by
  cases call with
  | account caller reservations => exact h.account howned hstep
  | replaceRetainedBytes caller releasedBytes addedBytes =>
      exact h.replaceRetainedBytes howned hstep
  | releaseRetainedBytes caller bytes => exact h.releaseRetainedBytes howned hstep
  | reserveMediaBytes caller requestedBytes => exact h.reserveMediaBytes howned hstep
  | commit caller reservation actual extra => exact h.commit howned hstep
  | drop reservation =>
      rw [Job.step] at hstep
      split at hstep
      · rename_i hheld
        cases hstep
        have hsum := sum_erase hheld
        refine h.drop (Or.inl rfl) (Or.inl hheld) rfl ?_
        simp only [Job.outstanding]
        omega
      · exact nomatch hstep
  | dropFailed reservation =>
      rw [Job.step] at hstep
      split at hstep
      · rename_i hfailed
        cases hstep
        have hsum := sum_erase hfailed
        refine h.drop (Or.inr rfl) (Or.inr hfailed) rfl ?_
        simp only [Job.outstanding]
        omega
      · exact nomatch hstep

end Balanced

/-- What every run keeps. -/
theorem Run.balanced {limits : InitialHydrationLimits} {budget : InitialHydrationBudget}
    (hnew : InitialHydrationBudget.new limits = .ok budget) {trace : Trace} {job : Job}
    (h : Run budget trace job) : Balanced budget trace job := by
  induction h with
  | start => exact balanced_start hnew
  | step run owned taken ih => exact ih.step owned taken

/-! ## The budget is exact and atomic -/

/-- A call that fails leaves the counters and what is outstanding. -/
theorem Job.step_error {job job' : Job} {call : Call} {error : InitialHydrationError}
    (h : job.step call = some (.error error, job')) :
    job'.budget = job.budget ∧ job'.outstanding = job.outstanding := by
  -- an operation without a reservation that fails is the job itself
  have hsettle : ∀ result : InitialHydrationResult InitialHydrationBudget,
      some (job.settle result) = some (.error error, job') → job' = job := by
    intro result hresult
    cases result with
    | error _ =>
        cases hresult
        rfl
    | ok _ => cases hresult
  cases call with
  | account caller reservations =>
      cases hsettle _ h
      exact ⟨rfl, rfl⟩
  | replaceRetainedBytes caller releasedBytes addedBytes =>
      cases hsettle _ h
      exact ⟨rfl, rfl⟩
  | releaseRetainedBytes caller bytes =>
      cases hsettle _ h
      exact ⟨rfl, rfl⟩
  | reserveMediaBytes caller requestedBytes =>
      rw [step] at h
      split at h
      · cases h
      · cases h
        exact ⟨rfl, rfl⟩
  | commit caller reservation actual extra =>
      rw [step] at h
      split at h
      · rename_i hheld
        have hsum := sum_erase hheld
        split at h
        · cases h
        · cases h
          refine ⟨rfl, ?_⟩
          simp only [outstanding, List.map_cons, List.sum_cons]
          omega
      · exact nomatch h
  | drop reservation | dropFailed reservation =>
      rw [step] at h
      split at h
      · cases h
      · exact nomatch h

/-- What holds of a budget with its limits, after a trace of calls. -/
structure Exact (limits : InitialHydrationLimits) (trace : Trace) (job : Job) : Prop where
  /-- Every counter is within its limit. -/
  within : ∀ resource, job.budget.usage.get resource ≤ limits.limit resource
  /-- A call that fails changes no counter. -/
  failing : ∀ call error job', job.step call = some (.error error, job') →
    job'.budget = job.budget ∧ job'.outstanding = job.outstanding
  /-- A commit that fails releases its own reservation. -/
  committing : ∀ reservation ∈ job.held, ∀ actual extra error budget',
    reservation.commit job.budget actual extra = (.error error, budget') →
      Releases reservation job.budget budget'
  /-- So does a drop, of a reservation that is held or of one whose commit failed. -/
  dropping : ∀ reservation, reservation ∈ job.held ∨ reservation ∈ job.failed →
    Releases reservation job.budget (reservation.drop job.budget)
  /-- The media bytes are those accounted, committed and outstanding. -/
  media : job.budget.usage.mediaDecodedBytes =
    total (accounted .mediaDecodedBytes) trace + total (committed .mediaDecodedBytes) trace +
      job.outstanding
  /-- The retained bytes are those accounted, committed and outstanding, less the released. -/
  retained : job.budget.usage.retainedBytes + total released trace =
    total (accounted .retainedBytes) trace + total (committed .retainedBytes) trace +
      job.outstanding
  /-- Any other counter is what was accounted. -/
  others : ∀ resource, resource ≠ .mediaDecodedBytes → resource ≠ .retainedBytes →
    job.budget.usage.get resource = total (accounted resource) trace
  /-- Nothing is left of the reservations once all are dropped or committed. -/
  unleaked : job.held = [] → job.failed = [] →
    job.budget.usage.mediaDecodedBytes =
        total (accounted .mediaDecodedBytes) trace +
          total (committed .mediaDecodedBytes) trace ∧
      job.budget.usage.retainedBytes + total released trace =
        total (accounted .retainedBytes) trace + total (committed .retainedBytes) trace

/-- The budget is exact and atomic, over every run of calls on its clones. -/
theorem budget_exact {limits : InitialHydrationLimits} {budget : InitialHydrationBudget}
    (hnew : InitialHydrationBudget.new limits = .ok budget) {trace : Trace} {job : Job}
    (hrun : Run budget trace job) : Exact limits trace job := by
  have h := hrun.balanced hnew
  have hlimits : budget.limits = limits := by
    obtain ⟨validated, hvalidated, hnew⟩ := bind_eq_ok.mp hnew
    cases hnew
    rw [InitialHydrationLimits.validate] at hvalidated
    split at hvalidated
    · exact nomatch hvalidated
    · exact (Except.ok.inj hvalidated).symm
  have hdropping : ∀ reservation, reservation ∈ job.held ∨ reservation ∈ job.failed →
      Releases reservation job.budget (reservation.drop job.budget) := by
    intro reservation hmem
    have hle := h.reserved_le hmem
    exact releases_drop hle.1 hle.2
  exact {
    within := hlimits ▸ h.within
    failing := fun _ _ _ => Job.step_error
    committing := by
      intro reservation hheld actual extra error budget' hcommit
      rw [InitialHydrationMediaReservation.commit] at hcommit
      split at hcommit
      · cases hcommit
      · cases hcommit
        exact hdropping reservation (Or.inl hheld)
    dropping := hdropping
    media := h.media
    retained := h.retained
    others := h.others
    unleaked := by
      intro hheld hfailed
      have hmedia := h.media
      have hretained := h.retained
      simp only [Job.outstanding, hheld, hfailed, List.map_nil, List.sum_nil] at hmedia hretained
      exact ⟨by omega, by omega⟩ }

def sampleLimits : InitialHydrationLimits :=
  ⟨10, 10, 10, 10, 10, 10, 10, 10, 10, 10, 10, 10, 10, 10⟩

/-- One caller reserves media bytes, another accounts a buffer and releases it, and the
commit of the first fails and is dropped. -/
def sampleTrace : Trace :=
  [(.releaseRetainedBytes 1 3, .ok ()), (.dropFailed ⟨7⟩, .ok ()),
    (.commit 0 ⟨7⟩ 7 4, .error (.limitExceeded .retainedBytes)),
    (.account 1 [(.retainedBytes, 3)], .ok ()), (.reserveMediaBytes 0 7, .ok ())]

theorem sample_run : Run ⟨sampleLimits, {}⟩ sampleTrace (Job.start ⟨sampleLimits, {}⟩) := by
  have howned : ∀ {trace : Trace} {call : Call}, (∀ caller ∈ call.caller,
      releasedBy caller trace + released call ≤ ownedBy caller trace) →
        ReleasesOwned trace call := fun h => h
  refine .step (.step (.step (.step (.step .start (howned ?_) rfl) (howned ?_) rfl)
    (howned ?_) rfl) (howned ?_) rfl) (howned ?_) rfl
  all_goals decide

theorem budget_exact_sample :
    Exact sampleLimits sampleTrace (Job.start ⟨sampleLimits, {}⟩) :=
  budget_exact rfl sample_run

end Locality.Connector
