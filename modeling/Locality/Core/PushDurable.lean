/-
  Core/PushDurable.lean --- what the journal holds after a push, however it ends.

  `PushRun` lists the ways an execution can end, one constructor for each exit of the
  source; `pushRun_cases` says that there are no others.  The journal knows of the
  calls that succeeded, so after any part of a run its status of the push is that of
  the last of them (`durableStatuses`).
-/
import Locality.Core.Push

set_option autoImplicit false

namespace Locality.Core

open Locality.Foundation

/-! ## The ways an execution ends -/

section Calls

variable (request : PushExecutionRequest) (plan : PushPlan)

def startedCalls : List HookCall :=
  [.append (preparedEntry request plan) (.ok ()),
    .updateStatus request.pushId .applying (.ok ())]

def checkedCalls : List HookCall :=
  startedCalls request plan ++ [.check (remoteRequest request plan) (.ok ())]

def appliedCalls (applyResult : PushApplyResult) : List HookCall :=
  checkedCalls request plan ++ [.apply (remoteRequest request plan) (.ok applyResult)]

def recordedCalls (applyResult : PushApplyResult) : List HookCall :=
  appliedCalls request plan applyResult ++
    [.recordApplyEffects request.pushId applyResult.effects (.ok ())]

def settlingCalls (applyResult : PushApplyResult) : List HookCall :=
  recordedCalls request plan applyResult ++ [.updateStatus request.pushId .applied (.ok ())]

end Calls

inductive PushRun (request : PushExecutionRequest) :
    LocalityResult PushExecutionResult → List HookCall → Prop where
  | notReady (h : request.pipeline.action ≠ .proceedToApply) :
      PushRun request (.ok (notReadyResult request)) []
  | noPlan : PushRun request (.error missingPlanError) []
  | appendFailed (plan : PushPlan) (error : LocalityError) :
      PushRun request (.error error) [.append (preparedEntry request plan) (.error error)]
  | applyingFailed (plan : PushPlan) (error : LocalityError) :
      PushRun request (.error error)
        [.append (preparedEntry request plan) (.ok ()),
          .updateStatus request.pushId .applying (.error error)]
  | checkFailed (plan : PushPlan) (error failure : LocalityError)
      (outcome : LocalityResult Unit) :
      PushRun request (.error failure)
        (startedCalls request plan ++ [.check (remoteRequest request plan) (.error error),
          .updateStatus request.pushId .reverted outcome])
  | applyFailed (plan : PushPlan) (error failure : LocalityError)
      (outcome : LocalityResult Unit) :
      PushRun request (.error failure)
        (checkedCalls request plan ++ [.apply (remoteRequest request plan) (.error error),
          .updateStatus request.pushId (.failed error.display) outcome])
  | recordFailed (plan : PushPlan) (applyResult : PushApplyResult)
      (error failure : LocalityError) (outcome : LocalityResult Unit) :
      PushRun request (.error failure)
        (appliedCalls request plan applyResult ++
          [.recordApplyEffects request.pushId applyResult.effects (.error error),
            .updateStatus request.pushId (.failed error.display) outcome])
  | appliedFailed (plan : PushPlan) (applyResult : PushApplyResult) (error : LocalityError) :
      PushRun request (.error error)
        (recordedCalls request plan applyResult ++
          [.updateStatus request.pushId .applied (.error error)])
  | reconcileFailed (plan : PushPlan) (applyResult : PushApplyResult)
      (error failure : LocalityError) (outcome : LocalityResult Unit) :
      PushRun request (.error failure)
        (settlingCalls request plan applyResult ++
          [.reconcile (reconcileRequest request plan applyResult) (.error error),
            .updateStatus request.pushId (.failed error.display) outcome])
  | reconciledFailed (plan : PushPlan) (applyResult : PushApplyResult)
      (reconcileResult : PushReconcileResult) (error : LocalityError) :
      PushRun request (.error error)
        (settlingCalls request plan applyResult ++
          [.reconcile (reconcileRequest request plan applyResult) (.ok reconcileResult),
            .updateStatus request.pushId .reconciled (.error error)])
  | reconciled (plan : PushPlan) (applyResult : PushApplyResult)
      (reconcileResult : PushReconcileResult) :
      PushRun request (.ok (reconciledResult request applyResult reconcileResult))
        (settlingCalls request plan applyResult ++
          [.reconcile (reconcileRequest request plan applyResult) (.ok reconcileResult),
            .updateStatus request.pushId .reconciled (.ok ())])

/-! ## There are no others -/

section Execute

variable {σ α β : Type}

namespace HostM

variable {hook : σ → LocalityResult α × σ} {note : LocalityResult α → HookCall} {s : σ}
  {calls : List HookCall}

/-- A call followed by the rest of a run. -/
theorem call_post {next : α → HostM σ β} (P : LocalityResult β × (σ × List HookCall) → Prop)
    (hok : ∀ a s', P (next a (s', calls ++ [note (.ok a)])))
    (herror : ∀ error s', P (.error error, (s', calls ++ [note (.error error)]))) :
    P ((call hook note >>= next) (s, calls)) := by
  apply Fallible.bind_post
  · intro a st' h
    cases hhook : hook s with
    | mk outcome s' =>
        simp only [call, hhook] at h
        cases h
        exact hok a s'
  · intro error st' h
    cases hhook : hook s with
    | mk outcome s' =>
        simp only [call, hhook] at h
        cases h
        exact herror error s'

/-- A call whose failure is written to the journal, followed by the rest of a run. -/
theorem guarded_post (host : PushExecutionHost σ) (pushId : PushId)
    (status : LocalityError → JournalStatus) {next : α → HostM σ β}
    (P : LocalityResult β × (σ × List HookCall) → Prop)
    (hok : ∀ a s', P (next a (s', calls ++ [note (.ok a)])))
    (herror : ∀ error failure outcome s', P (.error failure,
      (s', calls ++ [note (.error error), .updateStatus pushId (status error) outcome]))) :
    P ((tryCatch (call hook note) (fun error => do
      updateStatus host pushId (status error)
      throw error) >>= next : HostM σ β) (s, calls)) := by
  -- the handler fails with its own error, or with the one it handles
  have hguarded : (∃ a s', (tryCatch (call hook note) (fun error => do
        updateStatus host pushId (status error)
        throw error) : HostM σ α) (s, calls) = (.ok a, (s', calls ++ [note (.ok a)]))) ∨
      ∃ error failure outcome s', (tryCatch (call hook note) (fun error => do
        updateStatus host pushId (status error)
        throw error) : HostM σ α) (s, calls) =
          (.error failure,
            (s', calls ++ [note (.error error), .updateStatus pushId (status error) outcome])) := by
    apply Fallible.tryCatch_post (P := fun r =>
      (∃ a s', r = (.ok a, (s', calls ++ [note (.ok a)]))) ∨
        ∃ error failure outcome s', r = (.error failure,
          (s', calls ++ [note (.error error), .updateStatus pushId (status error) outcome])))
    · intro a st' h
      cases hhook : hook s with
      | mk outcome s' =>
          simp only [call, hhook] at h
          cases h
          exact Or.inl ⟨a, s', rfl⟩
    · intro error st' h
      cases hhook : hook s with
      | mk outcome s' =>
          simp only [call, hhook] at h
          cases h
          right
          refine ⟨error, ?_⟩
          apply call_post (P := fun r => ∃ failure outcome s', r = (Except.error failure,
            (s', calls ++ [note (.error error), .updateStatus pushId (status error) outcome])))
          · intro _ s''
            exact ⟨error, .ok (), s'', by simp; rfl⟩
          · intro failure s''
            exact ⟨failure, .error failure, s'', by simp⟩
  apply Fallible.bind_post
  · intro a st' h
    rcases hguarded with ⟨a', s', hrun⟩ | ⟨error, failure, outcome, s', hrun⟩
    · cases hrun.symm.trans h
      exact hok a s'
    · cases hrun.symm.trans h
  · intro error st' h
    rcases hguarded with ⟨a', s', hrun⟩ | ⟨error', failure, outcome, s', hrun⟩
    · cases hrun.symm.trans h
    · cases hrun.symm.trans h
      exact herror error' error outcome s'

end HostM

variable (host : PushExecutionHost σ) (request : PushExecutionRequest)

/-- An execution has come to one of its ends. -/
def Ended (run : LocalityResult PushExecutionResult × (σ × List HookCall)) : Prop :=
  PushRun request run.1 run.2.2

theorem executePlan_ended (plan : PushPlan) (s : σ) :
    Ended request (executePlan host request plan (s, [])) := by
  apply HostM.call_post (Ended request)
  case herror =>
    intro error s₁
    exact .appendFailed plan error
  intro _ s₁
  apply HostM.call_post (Ended request)
  case herror =>
    intro error s₂
    exact .applyingFailed plan error
  intro _ s₂
  apply HostM.guarded_post host request.pushId (fun _ => .reverted) (Ended request)
  case herror =>
    intro error failure outcome s₃
    exact .checkFailed plan error failure outcome
  intro _ s₃
  apply HostM.guarded_post host request.pushId (fun error => .failed error.display)
    (Ended request)
  case herror =>
    intro error failure outcome s₄
    exact .applyFailed plan error failure outcome
  intro applyResult s₄
  apply HostM.guarded_post host request.pushId (fun error => .failed error.display)
    (Ended request)
  case herror =>
    intro error failure outcome s₅
    exact .recordFailed plan applyResult error failure outcome
  intro _ s₅
  apply HostM.call_post (Ended request)
  case herror =>
    intro error s₆
    exact .appliedFailed plan applyResult error
  intro _ s₆
  apply HostM.guarded_post host request.pushId (fun error => .failed error.display)
    (Ended request)
  case herror =>
    intro error failure outcome s₇
    exact .reconcileFailed plan applyResult error failure outcome
  intro reconcileResult s₇
  apply HostM.call_post (Ended request)
  case herror =>
    intro error s₈
    exact .reconciledFailed plan applyResult reconcileResult error
  intro _ s₈
  exact .reconciled plan applyResult reconcileResult

/-- An execution ends in one of the ways of `PushRun`. -/
theorem pushRun_cases (s : σ) :
    PushRun request (pushRun host request s).1 (pushRun host request s).2 := by
  unfold pushRun executeJournaledPushWithHost
  by_cases hready : request.pipeline.action = .proceedToApply
  · rw [if_neg (not_not_intro hready)]
    cases request.pipeline.plan with
    | none => exact .noPlan
    | some plan => exact executePlan_ended host request plan s
  · rw [if_pos hready]
    exact .notReady hready

end Execute

/-! ## What the journal holds -/

section Durable

variable (pushId : PushId)

/-- The status that a call makes durable for the push; a call that failed makes none. -/
def HookCall.status : HookCall → Option JournalStatus
  | .append entry (.ok _) => if entry.pushId = pushId then some entry.status else none
  | .updateStatus id status (.ok _) => if id = pushId then some status else none
  | _ => none

def durableStatuses (calls : List HookCall) : List JournalStatus :=
  calls.filterMap (HookCall.status pushId)

def lastStatus (calls : List HookCall) : Option JournalStatus :=
  (durableStatuses pushId calls).getLast?

/-- The remote may have been touched. -/
def AppliedIn (calls : List HookCall) : Prop :=
  ∃ remote outcome, HookCall.apply remote outcome ∈ calls

def ReconciledIn (calls : List HookCall) : Prop :=
  ∃ reconcile result, HookCall.reconcile reconcile (.ok result) ∈ calls

/-- Once the remote may have been touched, the journal says so until the push is
reconciled. -/
def Accounted (calls : List HookCall) : Prop :=
  AppliedIn calls → ∃ status, lastStatus pushId calls = some status ∧ status ≠ .reverted ∧
    (status.isUnsettled = false → ReconciledIn calls)

/-- The journal says so after every part of the run, should it be cut short there. -/
def AccountedThroughout (calls : List HookCall) : Prop :=
  ∀ done, done <+: calls → Accounted pushId done

variable {pushId} {calls : List HookCall} {call : HookCall}

theorem lastStatus_concat (calls : List HookCall) (call : HookCall) :
    lastStatus pushId (calls ++ [call]) = (call.status pushId).or (lastStatus pushId calls) := by
  rw [lastStatus, durableStatuses, List.filterMap_append]
  cases h : call.status pushId with
  | none => simp [h, lastStatus, durableStatuses]
  | some status => simp [h]

theorem accounted_of_unsettled {status : JournalStatus} (h : lastStatus pushId calls = some status)
    (hstatus : status.isUnsettled = true) : Accounted pushId calls := by
  intro _
  refine ⟨status, h, ?_, ?_⟩
  · rintro rfl
    cases hstatus
  · intro hsettled
    rw [hstatus] at hsettled
    cases hsettled

namespace AccountedThroughout

theorem of_not_applied (h : ¬ AppliedIn calls) : AccountedThroughout pushId calls := by
  intro done hdone happlied
  obtain ⟨remote, outcome, hmem⟩ := happlied
  exact absurd ⟨remote, outcome, hdone.subset hmem⟩ h

theorem concat (h : AccountedThroughout pushId calls)
    (hcall : Accounted pushId (calls ++ [call])) :
    AccountedThroughout pushId (calls ++ [call]) := by
  intro done hdone
  rcases List.prefix_concat_iff.mp hdone with rfl | hbefore
  · exact hcall
  · exact h done hbefore

/-- A call that writes no settled status. -/
theorem concat_unsettled (h : AccountedThroughout pushId calls) {status : JournalStatus}
    (hlast : lastStatus pushId calls = some status) (hstatus : status.isUnsettled = true)
    (hcall : ∀ written, call.status pushId = some written → written.isUnsettled = true) :
    AccountedThroughout pushId (calls ++ [call]) := by
  apply h.concat
  cases hwritten : call.status pushId with
  | none =>
      apply @accounted_of_unsettled _ _ status _ hstatus
      rw [lastStatus_concat, hwritten, Option.none_or, hlast]
  | some written =>
      apply accounted_of_unsettled _ (hcall written hwritten)
      rw [lastStatus_concat, hwritten, Option.some_or]

/-- A call that failed and its handler, which writes that the push failed. -/
theorem failed (h : AccountedThroughout pushId calls) {status : JournalStatus}
    (hlast : lastStatus pushId calls = some status) (hstatus : status.isUnsettled = true)
    (hcall : call.status pushId = none) (message : Text) (outcome : LocalityResult Unit) :
    AccountedThroughout pushId
      (calls ++ [call, .updateStatus pushId (.failed message) outcome]) := by
  rw [List.append_cons]
  apply @concat_unsettled _ _ _ _ status _ hstatus
  · intro written hwritten
    cases outcome with
    | error error => cases hwritten
    | ok _ =>
        simp only [HookCall.status, if_pos, Option.some.injEq] at hwritten
        rw [← hwritten]
        rfl
  · apply h.concat_unsettled hlast hstatus
    intro written hwritten
    rw [hcall] at hwritten
    cases hwritten
  · rw [lastStatus_concat, hcall, Option.none_or, hlast]

end AccountedThroughout

end Durable

section Throughout

variable (request : PushExecutionRequest) (plan : PushPlan) (applyResult : PushApplyResult)

theorem lastStatus_startedCalls :
    lastStatus request.pushId (startedCalls request plan) = some .applying := by
  simp [lastStatus, durableStatuses, startedCalls, HookCall.status]

theorem lastStatus_checkedCalls :
    lastStatus request.pushId (checkedCalls request plan) = some .applying := by
  rw [checkedCalls, lastStatus_concat, lastStatus_startedCalls]
  rfl

theorem lastStatus_appliedCalls :
    lastStatus request.pushId (appliedCalls request plan applyResult) = some .applying := by
  rw [appliedCalls, lastStatus_concat, lastStatus_checkedCalls]
  rfl

theorem lastStatus_recordedCalls :
    lastStatus request.pushId (recordedCalls request plan applyResult) = some .applying := by
  rw [recordedCalls, lastStatus_concat, lastStatus_appliedCalls]
  rfl

theorem lastStatus_settlingCalls :
    lastStatus request.pushId (settlingCalls request plan applyResult) = some .applied := by
  rw [settlingCalls, lastStatus_concat]
  simp [HookCall.status]

theorem not_appliedIn_checkedCalls : ¬ AppliedIn (checkedCalls request plan) := by
  rintro ⟨remote, outcome, hmem⟩
  simp [checkedCalls, startedCalls] at hmem

theorem checkedCalls_accounted :
    AccountedThroughout request.pushId (checkedCalls request plan) :=
  .of_not_applied (not_appliedIn_checkedCalls request plan)

theorem appliedCalls_accounted :
    AccountedThroughout request.pushId (appliedCalls request plan applyResult) := by
  apply (checkedCalls_accounted request plan).concat_unsettled
    (lastStatus_checkedCalls request plan) rfl
  intro written hwritten
  cases hwritten

theorem recordedCalls_accounted :
    AccountedThroughout request.pushId (recordedCalls request plan applyResult) := by
  apply (appliedCalls_accounted request plan applyResult).concat_unsettled
    (lastStatus_appliedCalls request plan applyResult) rfl
  intro written hwritten
  cases hwritten

theorem settlingCalls_accounted :
    AccountedThroughout request.pushId (settlingCalls request plan applyResult) := by
  apply (recordedCalls_accounted request plan applyResult).concat_unsettled
    (lastStatus_recordedCalls request plan applyResult) rfl
  intro written hwritten
  simp only [HookCall.status, if_pos, Option.some.injEq] at hwritten
  rw [← hwritten]
  rfl

/-- The last two calls of a push that was reconciled. -/
theorem reconciledCalls_accounted (reconcileResult : PushReconcileResult)
    (outcome : LocalityResult Unit) :
    AccountedThroughout request.pushId (settlingCalls request plan applyResult ++
      [.reconcile (reconcileRequest request plan applyResult) (.ok reconcileResult),
        .updateStatus request.pushId .reconciled outcome]) := by
  rw [List.append_cons]
  have hreconcile : AccountedThroughout request.pushId (settlingCalls request plan applyResult ++
      [.reconcile (reconcileRequest request plan applyResult) (.ok reconcileResult)]) := by
    apply (settlingCalls_accounted request plan applyResult).concat_unsettled
      (lastStatus_settlingCalls request plan applyResult) rfl
    intro written hwritten
    cases hwritten
  apply hreconcile.concat
  intro _
  cases outcome with
  | error error =>
      refine ⟨.applied, ?_, by simp, fun h => by cases h⟩
      rw [lastStatus_concat, lastStatus_concat, lastStatus_settlingCalls]
      rfl
  | ok _ =>
      refine ⟨.reconciled, ?_, by simp, ?_⟩
      · rw [lastStatus_concat]
        simp [HookCall.status]
      · intro _
        exact ⟨reconcileRequest request plan applyResult, reconcileResult, by simp⟩

variable {request}

theorem PushRun.accounted {result : LocalityResult PushExecutionResult} {calls : List HookCall}
    (h : PushRun request result calls) : AccountedThroughout request.pushId calls := by
  cases h with
  | notReady h =>
      apply AccountedThroughout.of_not_applied
      rintro ⟨remote, outcome, hmem⟩
      cases hmem
  | noPlan =>
      apply AccountedThroughout.of_not_applied
      rintro ⟨remote, outcome, hmem⟩
      cases hmem
  | appendFailed plan error =>
      apply AccountedThroughout.of_not_applied
      rintro ⟨remote, outcome, hmem⟩
      simp at hmem
  | applyingFailed plan error =>
      apply AccountedThroughout.of_not_applied
      rintro ⟨remote, outcome, hmem⟩
      simp at hmem
  | checkFailed plan error failure outcome =>
      apply AccountedThroughout.of_not_applied
      rintro ⟨remote, outcome, hmem⟩
      simp [startedCalls] at hmem
  | applyFailed plan error failure outcome =>
      exact (checkedCalls_accounted request plan).failed (lastStatus_checkedCalls request plan)
        rfl rfl error.display outcome
  | recordFailed plan applyResult error failure outcome =>
      exact (appliedCalls_accounted request plan applyResult).failed
        (lastStatus_appliedCalls request plan applyResult) rfl rfl error.display outcome
  | appliedFailed plan applyResult error =>
      apply (recordedCalls_accounted request plan applyResult).concat_unsettled
        (lastStatus_recordedCalls request plan applyResult) rfl
      intro written hwritten
      cases hwritten
  | reconcileFailed plan applyResult error failure outcome =>
      exact (settlingCalls_accounted request plan applyResult).failed
        (lastStatus_settlingCalls request plan applyResult) rfl rfl error.display outcome
  | reconciledFailed plan applyResult reconcileResult error =>
      exact reconciledCalls_accounted request plan applyResult reconcileResult (.error error)
  | reconciled plan applyResult reconcileResult =>
      exact reconciledCalls_accounted request plan applyResult reconcileResult (.ok ())

end Throughout

/-! ## The whole contract -/

def HookCall.isApply : HookCall → Bool
  | .apply _ _ => true
  | _ => false

theorem settlingCalls_append (request : PushExecutionRequest) (plan : PushPlan)
    (applyResult : PushApplyResult) (rest : List HookCall) :
    settlingCalls request plan applyResult ++ rest =
      checkedCalls request plan ++ .apply (remoteRequest request plan) (.ok applyResult) ::
        .recordApplyEffects request.pushId applyResult.effects (.ok ()) ::
          .updateStatus request.pushId .applied (.ok ()) :: rest := by
  simp only [settlingCalls, recordedCalls, appliedCalls, List.append_assoc, List.cons_append,
    List.nil_append]

/-- In a list with one item of a kind, what stands before it is determined. -/
theorem before_unique {α : Type} {p : α → Bool} {xs ys zs ws : List α} {x z : α}
    (h : xs ++ x :: ys = zs ++ z :: ws) (hx : p x = true) (hz : p z = true)
    (hone : (xs ++ x :: ys).countP p = 1) : xs = zs := by
  have hcut : ∀ {before after : List α} {y : α}, p y = true →
      (before ++ y :: after).countP p = 1 →
        (before ++ y :: after).takeWhile (fun a => !p a) = before := by
    intro before after y hy hcount
    rw [List.countP_append, List.countP_cons_of_pos hy] at hcount
    have hnone : before.countP p = 0 := by omega
    rw [List.countP_eq_zero] at hnone
    rw [List.takeWhile_append_of_pos (by simpa using hnone)]
    simp [hy]
  rw [← hcut hx hone, h]
  rw [h] at hone
  exact hcut hz hone

/-- What a run of `execute_journaled_push_with_host` keeps to, whatever the host does. -/
structure DurablyJournaled (request : PushExecutionRequest)
    (run : LocalityResult PushExecutionResult × List HookCall) : Prop where
  /-- The plan is applied only after the prepared entry and the status are durable and
  the check has succeeded. -/
  applyGuarded : ∀ before remote outcome after, run.2 = before ++ .apply remote outcome :: after →
    ∃ entry checked, entry.pushId = request.pushId ∧ entry.status = .prepared ∧
      before = [.append entry (.ok ()), .updateStatus request.pushId .applying (.ok ()),
        .check checked (.ok ())]
  /-- From then on, wherever the run is cut short, the last durable status is settled
  only if the push was reconciled, and never says that it was reverted. -/
  accounted : ∀ done, done <+: run.2 → AppliedIn done →
    ∃ status, lastStatus request.pushId done = some status ∧ status ≠ .reverted ∧
      (status.isUnsettled = false → ReconciledIn done)
  /-- Success means that every status was written, and the effects with them. -/
  reconciled : ∀ result, run.1 = .ok result → result.action = .reconciled →
    durableStatuses request.pushId run.2 = [.prepared, .applying, .applied, .reconciled] ∧
      ∃ remote applyResult, HookCall.apply remote (.ok applyResult) ∈ run.2 ∧
        HookCall.recordApplyEffects request.pushId applyResult.effects (.ok ()) ∈ run.2 ∧
        result.applyEffects = applyResult.effects
  untouched : request.pipeline.action ≠ .proceedToApply → run.2 = []

section Contract

variable {request : PushExecutionRequest}

theorem PushRun.applyGuarded {result : LocalityResult PushExecutionResult} {calls : List HookCall}
    (h : PushRun request result calls) {before after : List HookCall} {remote : PushRemoteRequest}
    {outcome : LocalityResult PushApplyResult}
    (hcalls : calls = before ++ .apply remote outcome :: after) :
    ∃ plan, before = checkedCalls request plan := by
  have hnot : ¬ AppliedIn calls → ∃ plan, before = checkedCalls request plan := by
    intro hnone
    exact absurd ⟨remote, outcome, by simp [hcalls]⟩ hnone
  have hcut : ∀ {plan : PushPlan} {applied : LocalityResult PushApplyResult}
      {rest : List HookCall},
      calls = checkedCalls request plan ++ .apply (remoteRequest request plan) applied :: rest →
      rest.countP HookCall.isApply = 0 → ∃ plan, before = checkedCalls request plan := by
    intro plan applied rest hplan hrest
    refine ⟨plan, ?_⟩
    rw [hcalls] at hplan
    apply before_unique (p := HookCall.isApply) hplan rfl rfl
    rw [hplan, List.countP_append, List.countP_cons_of_pos rfl, hrest]
    rfl
  cases h with
  | notReady h =>
      apply hnot
      rintro ⟨_, _, hmem⟩
      cases hmem
  | noPlan =>
      apply hnot
      rintro ⟨_, _, hmem⟩
      cases hmem
  | appendFailed plan error =>
      apply hnot
      rintro ⟨_, _, hmem⟩
      simp at hmem
  | applyingFailed plan error =>
      apply hnot
      rintro ⟨_, _, hmem⟩
      simp at hmem
  | checkFailed plan error failure outcome =>
      apply hnot
      rintro ⟨_, _, hmem⟩
      simp [startedCalls] at hmem
  | applyFailed plan error failure outcome => exact hcut rfl rfl
  | recordFailed plan applyResult error failure outcome =>
      exact hcut (by rw [appliedCalls, ← List.append_cons]) rfl
  | appliedFailed plan applyResult error =>
      exact hcut (by rw [recordedCalls, appliedCalls, ← List.append_cons, ← List.append_cons]) rfl
  | reconcileFailed plan applyResult error failure outcome =>
      exact hcut (settlingCalls_append request plan applyResult _) rfl
  | reconciledFailed plan applyResult reconcileResult error =>
      exact hcut (settlingCalls_append request plan applyResult _) rfl
  | reconciled plan applyResult reconcileResult =>
      exact hcut (settlingCalls_append request plan applyResult _) rfl

theorem PushRun.reconciled_of_ok {result : PushExecutionResult} {calls : List HookCall}
    (h : PushRun request (.ok result) calls) (haction : result.action = .reconciled) :
    ∃ plan applyResult reconcileResult, result = reconciledResult request applyResult
        reconcileResult ∧
      calls = settlingCalls request plan applyResult ++
        [.reconcile (reconcileRequest request plan applyResult) (.ok reconcileResult),
          .updateStatus request.pushId .reconciled (.ok ())] := by
  cases h with
  | notReady h => cases haction
  | reconciled plan applyResult reconcileResult =>
      exact ⟨plan, applyResult, reconcileResult, rfl, rfl⟩

/-- Every run of every host keeps to the contract. -/
theorem executeJournaledPush_durable {σ : Type} (host : PushExecutionHost σ)
    (request : PushExecutionRequest) (s : σ) :
    DurablyJournaled request (pushRun host request s) where
  applyGuarded := by
    intro before remote outcome after hcalls
    obtain ⟨plan, rfl⟩ := (pushRun_cases host request s).applyGuarded hcalls
    exact ⟨preparedEntry request plan, remoteRequest request plan, rfl, rfl, rfl⟩
  accounted := (pushRun_cases host request s).accounted
  reconciled := by
    intro result hresult haction
    have hrun := pushRun_cases host request s
    rw [hresult] at hrun
    obtain ⟨plan, applyResult, reconcileResult, rfl, hcalls⟩ := hrun.reconciled_of_ok haction
    rw [hcalls]
    constructor
    · have hentry : (preparedEntry request plan).pushId = request.pushId := rfl
      have hprepared : (preparedEntry request plan).status = .prepared := rfl
      rw [settlingCalls_append, checkedCalls, startedCalls]
      simp [durableStatuses, HookCall.status, hentry, hprepared, List.filterMap_cons]
    · refine ⟨remoteRequest request plan, applyResult, ?_, ?_, rfl⟩
      · simp [settlingCalls, recordedCalls, appliedCalls]
      · simp [settlingCalls, recordedCalls]
  untouched := by
    intro hready
    unfold pushRun executeJournaledPushWithHost
    rw [if_pos hready]
    rfl

end Contract

end Locality.Core
