/-
  Daemon/FreshnessKept.lean --- every run of the freshness queue keeps its work where the
  texts it compares mean what they are compared for, and runs that lose or delay work.
-/
import Locality.Daemon.FreshnessWork

set_option autoImplicit false

namespace Locality.Daemon

open Locality.Core Locality.Foundation Locality.Protocol

variable {queue : FreshnessQueue} {ledger : JobLedger} {job : SyncJob} {call : QueueCall}
  {budgetUnits maxJobs : Nat}

/-! ## A call that takes jobs -/

namespace Takes

variable {now : Option Text} {limit : Option Nat}
  (htakes : Takes queue call now budgetUnits limit maxJobs)

include htakes

theorem mem_ready (h : job ∈ (queue.call call).1) : job ∈ queue.jobs.rows ∧ isReady job now :=
  mem_readyJobs.mp ((batchLoop_sublist _ _ _ _).subset (htakes.batch ▸ h))

theorem mem_rest : job ∈ (queue.call call).2.jobs.rows ↔
    job ∈ queue.jobs.rows ∧ job ∉ (queue.call call).1 := by
  rw [htakes.rest, List.mem_filter]
  refine and_congr_right fun hjob => ?_
  rw [Bool.not_eq_true', decide_eq_false_iff_not, List.mem_map]
  refine not_congr ⟨fun ⟨taken, htaken, hkey⟩ => ?_, fun h => ⟨job, h, rfl⟩⟩
  exact KeyedTable.eq_of_key (htakes.mem_ready htaken).1 hjob hkey ▸ htaken

theorem nodup : (queue.call call).1.Nodup := by
  rw [htakes.batch]
  refine (batchLoop_sublist _ _ _ _).nodup ?_
  rw [FreshnessQueue.readyJobs, (List.perm_insertionSort _ _).nodup_iff]
  exact List.Nodup.filter _ (List.Nodup.of_map _ queue.jobs.distinct)

theorem bounded : unitsOf (queue.call call).1 ≤ budgetUnits ∧
    ∀ most ∈ limit, (queue.call call).1.length ≤ most := by
  obtain ⟨hunits, hlength⟩ := batchLoop_bounded maxJobs budgetUnits 0 (queue.readyJobs now)
  rw [htakes.batch]
  refine ⟨hunits, fun most hmost => ?_⟩
  obtain ⟨rfl, -⟩ | rfl := htakes.unlimited
  · exact nomatch hmost
  · cases hmost
    have hle := hlength (Nat.zero_le _)
    rwa [Nat.zero_add] at hle

theorem skipped (hjob : job ∈ queue.jobs.rows) (hready : isReady job now = true)
    (hnot : job ∉ (queue.call call).1) :
    Skipped budgetUnits limit (queue.call call).1 job := by
  have hsorted : (queue.readyJobs now).Pairwise fun left right => urgency left ≤ urgency right :=
    (List.pairwise_insertionSort _ _).imp urgency_le_of_jobRank
  rw [htakes.batch] at hnot ⊢
  obtain hunits | ⟨hlength, hall⟩ :=
    skipped_of_not_mem_batchLoop hsorted (Nat.zero_le _) (mem_readyJobs.mpr ⟨hjob, hready⟩) hnot
  · exact Or.inl hunits
  · rw [Nat.zero_add] at hlength
    refine Or.inr ⟨?_, hall⟩
    obtain ⟨-, hroom⟩ | hlimit := htakes.unlimited
    · -- Without a limit, no batch is as long as the queue and one job more.
      have hle := (batchLoop_sublist maxJobs budgetUnits 0 (queue.readyJobs now)).length_le
      have hle' := @length_readyJobs_le queue now
      omega
    · rw [hlimit, hlength]

end Takes

theorem due_iff_isReady {now : Option Text}
    (hright : ∀ eligible ∈ job.nextEligibleAt, ∀ time ∈ now,
      (bytewiseLe eligible time = true ↔ millis eligible ≤ millis time)) :
    Due job now ↔ isReady job now = true := by
  cases heligible : job.nextEligibleAt with
  | none =>
      unfold Due isReady
      rw [heligible]
      exact ⟨fun _ => rfl, fun _ _ h => nomatch h⟩
  | some eligible =>
      cases hnow : now with
      | none =>
          unfold Due isReady
          rw [heligible]
          refine ⟨fun h => ?_, fun h => nomatch h⟩
          obtain ⟨time, htime, -⟩ := h eligible rfl
          exact nomatch htime
      | some time =>
          unfold Due isReady
          rw [heligible]
          refine Iff.trans ⟨fun h => ?_, fun hle eligible' h => ?_⟩
            (hright eligible heligible time hnow).symm
          · obtain ⟨time', htime, hle⟩ := h eligible rfl
            exact Option.some_inj.mp htime ▸ hle
          · exact ⟨time, rfl, Option.some_inj.mp h ▸ hle⟩

theorem KeepsWork.callKept_of_takes {now : Option Text} {limit : Option Nat}
    (hkeeps : KeepsWork queue ledger) (hright : ComparesRightly queue call)
    (hasked : call.asked = some (now, budgetUnits, limit)) : CallKept queue ledger call := by
  obtain ⟨maxJobs, htakes⟩ := @takes_of_asked queue _ _ _ _ hasked
  have hdue : ∀ job ∈ queue.jobs.rows, (Due job now ↔ isReady job now = true) := by
    intro job hjob
    refine due_iff_isReady fun eligible heligible time htime => ?_
    cases call with
    | upsert job => exact nomatch hasked
    | popReadyAt now budgetUnits => exact hright _ _ _ hasked job hjob _ heligible _ htime
    | drainReadyBatch now budgetUnits maxJobs =>
        exact hright _ _ _ hasked job hjob _ heligible _ htime
    | drainReadyBudget now budgetUnits => exact hright _ _ _ hasked job hjob _ heligible _ htime
  refine ⟨?_, ?_, ?_, ?_, ?_, ?_⟩
  · intro job hjob
    have hheld := (htakes.mem_ready hjob).1
    refine ⟨hheld, (hkeeps.held _).mpr ⟨job, hheld, rfl⟩, fun other hother hsame => ?_⟩
    obtain ⟨hother, hnot⟩ := htakes.mem_rest.mp hother
    exact hnot (hkeeps.single other hother job hheld hsame ▸ hjob)
  · refine List.Nodup.map_on (fun job hjob job' hjob' => ?_) htakes.nodup
    exact hkeeps.single job (htakes.mem_ready hjob).1 job' (htakes.mem_ready hjob').1
  · exact fun job hjob hnot _ => htakes.mem_rest.mpr ⟨hjob, hnot⟩
  · intro now' budgetUnits' limit' hasked' job hjob
    obtain ⟨rfl, rfl, rfl⟩ : now' = now ∧ budgetUnits' = budgetUnits ∧ limit' = limit := by
      cases hasked.symm.trans hasked'
      exact ⟨rfl, rfl, rfl⟩
    obtain ⟨hheld, hready⟩ := htakes.mem_ready hjob
    exact (hdue job hheld).mpr hready
  · intro now' budgetUnits' limit' hasked'
    cases hasked.symm.trans hasked'
    exact htakes.bounded
  · intro now' budgetUnits' limit' hasked' job hjob hupserted
    cases hasked.symm.trans hasked'
    obtain ⟨upserted, hupserted, hpassed⟩ := hupserted
    have hready := (hdue job hjob).mp ((hkeeps.earliest job hjob upserted hupserted).due hpassed)
    by_cases hreturned : job ∈ (queue.call call).1
    · exact Or.inl hreturned
    · exact Or.inr (htakes.skipped hjob hready hreturned)

theorem KeepsWork.take {now : Option Text} {limit : Option Nat} (hkeeps : KeepsWork queue ledger)
    (hasked : call.asked = some (now, budgetUnits, limit)) :
    KeepsWork (queue.call call).2 fun identity =>
      if identity ∈ (queue.call call).1.map SyncJob.identity then [] else ledger identity := by
  obtain ⟨maxJobs, htakes⟩ := @takes_of_asked queue _ _ _ _ hasked
  have hkept : ∀ job ∈ (queue.call call).2.jobs.rows, job ∈ queue.jobs.rows ∧
      job.identity ∉ (queue.call call).1.map SyncJob.identity := by
    intro job hjob
    obtain ⟨hjob, hnot⟩ := htakes.mem_rest.mp hjob
    refine ⟨hjob, fun htaken => ?_⟩
    obtain ⟨taken, htaken, hsame⟩ := List.mem_map.mp htaken
    exact hnot (hkeeps.single taken (htakes.mem_ready htaken).1 job hjob hsame ▸ htaken)
  refine ⟨fun identity => ?_, ?_, ?_, ?_, ?_⟩
  · by_cases htaken : identity ∈ (queue.call call).1.map SyncJob.identity
    · rw [if_pos htaken]
      refine ⟨fun h => absurd rfl h, ?_⟩
      rintro ⟨job, hjob, rfl⟩
      exact absurd htaken (hkept job hjob).2
    · rw [if_neg htaken, hkeeps.held]
      constructor
      · rintro ⟨job, hjob, rfl⟩
        refine ⟨job, htakes.mem_rest.mpr ⟨hjob, fun h => ?_⟩, rfl⟩
        exact htaken (List.mem_map_of_mem h)
      · rintro ⟨job, hjob, rfl⟩
        exact ⟨job, (hkept job hjob).1, rfl⟩
  · intro job hjob job' hjob'
    exact hkeeps.single job (hkept job hjob).1 job' (hkept job' hjob').1
  · intro job hjob upserted hupserted
    rw [if_neg (hkept job hjob).2] at hupserted
    exact hkeeps.urgent job (hkept job hjob).1 upserted hupserted
  · intro job hjob upserted hupserted
    rw [if_neg (hkept job hjob).2] at hupserted
    exact hkeeps.earliest job (hkept job hjob).1 upserted hupserted
  · intro job hjob
    rw [if_neg (hkept job hjob).2]
    exact hkeeps.asked job (hkept job hjob).1

/-! ## Runs -/

theorem keepsWork_new : KeepsWork .new fun _ => [] where
  held _ := ⟨fun h => absurd rfl h, fun ⟨_, h, _⟩ => nomatch h⟩
  single _ h := nomatch h
  urgent _ h := nomatch h
  earliest _ h := nomatch h
  asked _ h := nomatch h

theorem callKept_of_upsert (hright : ComparesRightly queue (.upsert job)) :
    CallKept queue ledger (.upsert job) where
  once _ h := nomatch h
  distinct := List.nodup_nil
  stays row hrow _ hother := by
    obtain ⟨placed, -, hrows, -⟩ := upsert_rows hright
    exact (hrows row).mpr (Or.inr ⟨hrow, fun hsame => hother job rfl hsame.symm⟩)
  due _ _ _ h := nomatch h
  bounded _ _ _ h := nomatch h
  ready _ _ _ h := nomatch h

/-- A call that compares rightly keeps the work. -/
theorem KeepsWork.kept_call (hkeeps : KeepsWork queue ledger) (hright : ComparesRightly queue call) :
    CallKept queue ledger call ∧
      KeepsWork (queue.call call).2 (ledger.call (queue.call call).1 call) := by
  cases call with
  | upsert job => exact ⟨callKept_of_upsert hright, hkeeps.upsert hright⟩
  | popReadyAt now budgetUnits =>
      exact ⟨hkeeps.callKept_of_takes hright rfl, hkeeps.take rfl⟩
  | drainReadyBatch now budgetUnits maxJobs =>
      exact ⟨hkeeps.callKept_of_takes hright rfl, hkeeps.take rfl⟩
  | drainReadyBudget now budgetUnits =>
      exact ⟨hkeeps.callKept_of_takes hright rfl, hkeeps.take rfl⟩

theorem KeepsWork.throughout {calls : List QueueCall} (hkeeps : KeepsWork queue ledger)
    (hright : RightThroughout queue calls) : KeptThroughout queue ledger calls := by
  induction calls generalizing queue ledger with
  | nil => exact hkeeps
  | cons call calls ih =>
      obtain ⟨hstep, hrest⟩ := hright
      obtain ⟨hkept, hkeeps'⟩ := hkeeps.kept_call hstep
      exact ⟨hkeeps, hkept, ih hkeeps' hrest⟩

/-- In a run that starts with no jobs and compares its texts rightly, no work is lost or
delayed. -/
theorem keptThroughout_of_rightThroughout {calls : List QueueCall}
    (hright : RightThroughout .new calls) : KeptThroughout .new (fun _ => []) calls :=
  keepsWork_new.throughout hright

/-! ## Sample -/

namespace SampleFreshness

def syncJob (mount : String) (remote : Option String) (reason : ChangeHintKind)
    (eligible : Option String) : SyncJob :=
  { SyncJob.new ⟨mount.toList⟩ (remote.map fun id => ⟨id.toList⟩) .observeEntity reason with
    nextEligibleAt := eligible.map String.toList }

def calls : List QueueCall := [
  .upsert (syncJob "docs" (some "page-1") .backgroundPoll (some "unix_ms:2000")),
  .upsert (syncJob "docs" (some "page-1") .fileOpened (some "unix_ms:1000")),
  .upsert (syncJob "docs" none .webhook none),
  .drainReadyBatch (some "unix_ms:1500".toList) 1 4,
  .popReadyAt (some "unix_ms:1500".toList) 5]

/-- An absent remote id, and the remote id that is written like it. -/
def sameKey : List QueueCall := [
  .upsert (syncJob "docs" none .webhook none), .upsert (syncJob "docs" (some "-") .webhook none)]

/-- Nine milliseconds are over after ten. -/
def laterText : List QueueCall := [
  .upsert (syncJob "docs" none .webhook (some "unix_ms:9")),
  .drainReadyBatch (some "unix_ms:10".toList) 20 4]

end SampleFreshness

open SampleFreshness in
theorem keptThroughout_calls : KeptThroughout .new (fun _ => []) calls := by
  refine keptThroughout_of_rightThroughout ⟨?_, ?_, ?_, ?_, ?_, trivial⟩
  · exact fun held h => nomatch h
  · unfold ComparesRightly
    decide +kernel
  · unfold ComparesRightly
    decide +kernel
  · intro now budgetUnits maxJobs h
    cases h
    decide +kernel
  · intro now budgetUnits maxJobs h
    cases h
    decide +kernel

open SampleFreshness in
theorem not_keptThroughout : ¬ KeptThroughout .new (fun _ => []) sameKey ∧
    ¬ KeptThroughout .new (fun _ => []) laterText := by
  constructor
  · rintro ⟨-, -, -, -, hkeeps⟩
    obtain ⟨held, hheld, hidentity⟩ :=
      (hkeeps.held (syncJob "docs" (some "-") .webhook none).identity).mp (by decide +kernel)
    revert held
    decide +kernel
  · rintro ⟨-, -, -, hkept, -⟩
    have hpassed : Due (syncJob "docs" none .webhook (some "unix_ms:9"))
        (some "unix_ms:10".toList) := by
      unfold Due
      decide +kernel
    obtain hreturned | hskipped | ⟨hlimit, -⟩ := hkept.ready _ _ _ rfl
      (syncJob "docs" none .webhook (some "unix_ms:9")) (by decide +kernel)
      ⟨_, List.mem_singleton_self _, hpassed⟩
    · revert hreturned
      decide +kernel
    · revert hskipped
      decide +kernel
    · revert hlimit
      decide +kernel

end Locality.Daemon
