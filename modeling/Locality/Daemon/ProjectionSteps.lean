/-
  Daemon/ProjectionSteps.lean --- the plan of a projection state is a pass over guarded
  steps: each conflict is an obstacle under the local ids that it names, and each repair an
  item under the local id of its mutation.

  The passes of the source skip what a conflict names already.  To raise the conflict of
  such a mutation all the same would name nothing new: a name between commas has no comma.
-/
import Locality.Daemon.ProjectionState
import Locality.Foundation.GuardedSteps

set_option autoImplicit false

namespace Locality.Daemon

open Locality.Core Locality.Foundation
open Locality.Discovery (VirtualMutationRecord VirtualMutationKind)

abbrev PlanStep : Type := GuardedStep Text VirtualMutationRecord LocalityError

abbrev PlanState : Type := Guarded Text VirtualMutationRecord

/-! ## Steps -/

def conflictStep (ids : Text) : PlanStep := .block (ids.splitOn ',')

def repairStep (mutation : VirtualMutationRecord) : PlanStep := .item mutation.localId mutation

section Steps

variable (yaml : YamlSerde) (host : ProjectionHost) (stateRoot : Option PathBuf)
  (mount : MountConfig) (facts : ProjectionStateFacts)

def groupSteps : List PlanStep :=
  (sharedGroups facts fun mutation => some mutation.projectedPath).map
      (fun group => conflictStep (joinedLocalIds group.2)) ++
    (sharedGroups facts VirtualMutationRecord.targetRemoteId).map
      fun group => conflictStep (joinedLocalIds group.2)

def missingSteps (mutation : VirtualMutationRecord) : List PlanStep :=
  match mutation.mutationKind with
  | .create =>
      if (facts.entityByPath mutation.projectedPath).isSome then []
      else
        match mutation.parentRemoteId with
        | none => [conflictStep mutation.localId]
        | some parentId =>
            if decide (mount.remoteRootId = some parentId) || (facts.entityById parentId).isSome then
              []
            else [conflictStep mutation.localId]
  | .move | .rename =>
      match mutation.targetRemoteId with
      | none => [conflictStep mutation.localId]
      | some remoteId =>
          if (facts.entityById remoteId).isSome then [] else [conflictStep mutation.localId]
  | .delete => []

def losslessSteps (mutation : VirtualMutationRecord) : List PlanStep :=
  match mutation.mutationKind, mutation.targetRemoteId with
  | .delete, some remoteId =>
      if (facts.entityById remoteId).isNone ||
          stalePendingDeleteTargetPresent yaml host mount mutation then [repairStep mutation]
      else []
  | .move, some remoteId | .rename, some remoteId =>
      if (facts.entityById remoteId).isNone then []
      else
        match facts.entityByPath mutation.projectedPath with
        | none => []
        | some colliding =>
            if colliding.remoteId = remoteId then [] else [conflictStep mutation.localId]
  | _, _ => []

def collisionStep (entity : EntityRecord) (mutation : VirtualMutationRecord) :
    LocalityResult PendingCreateIdentity → PlanStep
  | .error error => .fault mutation.localId error
  | .ok (.remote remoteId) =>
      if remoteId = entity.remoteId then repairStep mutation else conflictStep mutation.localId
  | .ok _ => conflictStep mutation.localId

def collisionSteps (mutation : VirtualMutationRecord) : List PlanStep :=
  if mutation.mutationKind ≠ .create then []
  else
    match facts.entityByPath mutation.projectedPath with
    | none => []
    | some entity =>
        [collisionStep entity mutation (pendingCreateIdentity yaml host stateRoot mount mutation)]

end Steps

section Scopes

variable (yaml : YamlSerde) (host : ProjectionHost) (store : ProjectionStore)
  (stateRoot : Option PathBuf)

def scopeSteps (scope : ProjectionStateScope) : List PlanStep :=
  let facts := ProjectionStateFacts.load store scope
  groupSteps facts ++ (facts.mutations.flatMap (missingSteps scope.mount facts) ++
    (facts.mutations.flatMap (losslessSteps yaml host scope.mount facts) ++
      facts.mutations.flatMap (collisionSteps yaml host stateRoot scope.mount facts)))

def viewSteps (scopes : List ProjectionStateScope) : List PlanStep :=
  scopes.flatMap (scopeSteps yaml host store stateRoot)

end Scopes

/-! ## Names between commas -/

theorem notMem_of_mem_splitOn {ids name : Text} (h : name ∈ ids.splitOn ',') : ',' ∉ name := by
  obtain ⟨length, hlength⟩ : ∃ length, ids.length = length := ⟨_, rfl⟩
  induction length using Nat.strongRecOn generalizing ids with
  | ind length ih =>
      by_cases hcomma : ',' ∈ ids
      · obtain ⟨front, back, rfl, hfront⟩ := List.eq_append_cons_of_mem hcomma
        rw [List.splitOn_append_cons_self, List.splitOn_eq_singleton hfront,
          List.singleton_append] at h
        obtain rfl | h := List.mem_cons.mp h
        · exact hfront
        · refine ih back.length ?_ h rfl
          rw [← hlength, List.length_append, List.length_cons]
          omega
      · rw [List.splitOn_eq_singleton hcomma] at h
        rw [List.mem_singleton.mp h]
        exact hcomma

/-- A text without a comma is one of the names that it is joined with. -/
theorem mem_splitOn_join {names : List Text} {name : Text} (hname : name ∈ names)
    (hcomma : ',' ∉ name) : name ∈ (join [','] names).splitOn ',' := by
  induction names with
  | nil => exact nomatch hname
  | cons first names ih =>
      cases names with
      | nil =>
          obtain rfl := List.mem_singleton.mp hname
          rw [join, List.splitOn_eq_singleton hcomma]
          exact List.mem_singleton_self _
      | cons second names =>
          have hjoin : join [','] (first :: second :: names) =
              first ++ ',' :: join [','] (second :: names) := List.append_assoc _ _ _
          rw [hjoin, List.splitOn_append_cons_self, List.mem_append]
          obtain rfl | hname := List.mem_cons.mp hname
          · rw [List.splitOn_eq_singleton hcomma]
            exact Or.inl (List.mem_singleton_self _)
          · exact Or.inr (ih hname)

/-! ## The plan and its steps -/

/-- The plan has the conflicts and the repairs of the pass so far. -/
structure Refines (plan : ProjectionStatePlan) (state : PlanState) : Prop where
  names : ∀ id, plan.hasConflictForLocalId id = true ↔ id ∈ state.blocked
  repairs : plan.repairs = state.taken.map fun mutation => ⟨mutation.mountId, mutation.localId⟩

/-- Both go on, or both end with an error. -/
def RefinesResult : LocalityResult ProjectionStatePlan → LocalityResult PlanState → Prop
  | .ok plan, .ok state => Refines plan state
  | .error _, .error _ => True
  | _, _ => False

variable {plan : ProjectionStatePlan} {state : PlanState} {mutation : VirtualMutationRecord}

theorem hasConflictForLocalId_append {plan' : ProjectionStatePlan}
    {diagnostic : ProjectionStateDiagnostic}
    (h : plan'.diagnostics = plan.diagnostics ++ [diagnostic]) (id : Text) :
    plan'.hasConflictForLocalId id = true ↔ plan.hasConflictForLocalId id = true ∨
      diagnostic.repair = none ∧ ∃ ids ∈ diagnostic.localId, id ∈ ids.splitOn ',' := by
  rw [ProjectionStatePlan.hasConflictForLocalId, ProjectionStatePlan.hasConflictForLocalId, h,
    List.any_append, Bool.or_eq_true, List.any_cons, List.any_nil, Bool.or_false,
    Bool.and_eq_true, Option.isNone_iff_eq_none, Option.any_eq_true]
  simp only [decide_eq_true_eq]
  exact Iff.rfl

/-- A conflict names the parts of its ids between commas, whether it is there already or not. -/
theorem Refines.pushConflict (h : Refines plan state) {diagnostic : ProjectionStateDiagnostic}
    {ids : Text} (hrepair : diagnostic.repair = none) (hids : diagnostic.localId = some ids) :
    Refines (plan.pushConflict diagnostic) { state with blocked := state.blocked ++ ids.splitOn ',' }
    := by
  rw [ProjectionStatePlan.pushConflict]
  split
  · rename_i hsame
    refine ⟨fun id => ?_, h.repairs⟩
    rw [h.names, List.mem_append]
    refine ⟨Or.inl, fun hid => hid.elim (fun hblocked => hblocked) fun hid => ?_⟩
    obtain ⟨existing, hexisting, hsame⟩ := List.any_eq_true.mp hsame
    rw [Bool.and_eq_true, decide_eq_true_eq] at hsame
    refine (h.names id).mp (List.any_eq_true.mpr ⟨existing, hexisting, ?_⟩)
    rw [hsame.1, hsame.2.2.2.1, hids, Option.any_some, decide_eq_true hid]
    rfl
  · refine ⟨fun id => ?_, h.repairs⟩
    rw [hasConflictForLocalId_append rfl id, List.mem_append]
    refine or_congr (h.names id) ?_
    rw [hrepair, hids]
    exact ⟨fun ⟨_, ids', hids', hid⟩ => Option.some_inj.mp hids' ▸ hid, fun hid => ⟨rfl, ids, rfl, hid⟩⟩

theorem notMem_of_hasConflictForLocalId {id : Text}
    (h : plan.hasConflictForLocalId id = true) : ',' ∉ id := by
  obtain ⟨diagnostic, -, hnames⟩ := List.any_eq_true.mp h
  obtain ⟨ids, -, hid⟩ := (Option.any_eq_true _ _).mp (Bool.and_eq_true_iff.mp hnames).2
  exact notMem_of_mem_splitOn (of_decide_eq_true hid)

variable {mount : MountConfig} {facts : ProjectionStateFacts}

theorem Refines.nothing (h : Refines plan state) : RefinesResult (.ok plan) (state.steps []) := h

/-- The conflict of a mutation. -/
theorem Refines.conflict (h : Refines plan state) {code : String} {remoteId : Option RemoteId}
    {message : Text} :
    RefinesResult (.ok (plan.pushConflict (mutationConflict mutation code remoteId message)))
      (state.steps [conflictStep mutation.localId]) :=
  h.pushConflict rfl rfl

/-- What a conflict names already may be named once more. -/
theorem Refines.conflicted (h : Refines plan state)
    (hconflict : plan.hasConflictForLocalId mutation.localId = true) :
    RefinesResult (.ok plan) (state.steps [conflictStep mutation.localId]) := by
  rw [conflictStep, Guarded.steps_singleton]
  refine Refines.mk (fun id => ?_) h.repairs
  rw [h.names, List.splitOn_eq_singleton (notMem_of_hasConflictForLocalId hconflict),
    List.mem_append, List.mem_singleton]
  refine ⟨Or.inl, fun hid => hid.elim (fun hblocked => hblocked) ?_⟩
  rintro rfl
  exact (h.names _).mp hconflict

theorem steps_repairStep (hblocked : mutation.localId ∈ state.blocked) :
    state.steps [repairStep mutation] = .ok state := by
  rw [Guarded.steps_singleton, repairStep, Guarded.step, if_pos hblocked]

theorem steps_repairStep_open (hopen : mutation.localId ∉ state.blocked) :
    state.steps [repairStep mutation] =
      .ok { state with taken := state.taken ++ [mutation] } := by
  rw [Guarded.steps_singleton, repairStep, Guarded.step, if_neg hopen]

theorem steps_fault {error : LocalityError} (hblocked : mutation.localId ∈ state.blocked) :
    state.steps [(.fault mutation.localId error : PlanStep)] = .ok state := by
  rw [Guarded.steps_singleton, Guarded.step, if_pos hblocked]

theorem steps_fault_open {error : LocalityError} (hopen : mutation.localId ∉ state.blocked) :
    state.steps [(.fault mutation.localId error : PlanStep)] = .error error := by
  rw [Guarded.steps_singleton, Guarded.step, if_neg hopen]

/-- The repair of a mutation, where no conflict names it. -/
theorem Refines.repair (h : Refines plan state) (hmount : mutation.mountId = mount.mountId)
    {diagnostic : ProjectionStateDiagnostic} (hrepair : diagnostic.repair ≠ none) :
    RefinesResult (.ok (plan.pushRepair (repairOf mount mutation) diagnostic))
      (state.steps [repairStep mutation]) := by
  rw [ProjectionStatePlan.pushRepair, repairOf]
  by_cases hconflict : plan.hasConflictForLocalId mutation.localId = true
  · rw [steps_repairStep ((h.names _).mp hconflict), if_pos hconflict]
    exact h
  · rw [steps_repairStep_open (mt (h.names _).mpr hconflict), if_neg hconflict]
    refine ⟨fun id => ?_, ?_⟩
    · rw [hasConflictForLocalId_append rfl id, ← h.names id]
      exact or_iff_left fun hnone => hrepair hnone.1
    · rw [List.map_append, ← h.repairs, List.map_singleton, hmount]

/-- A repair that is skipped. -/
theorem Refines.skipped (h : Refines plan state)
    (hconflict : plan.hasConflictForLocalId mutation.localId = true) :
    RefinesResult (.ok plan) (state.steps [repairStep mutation]) := by
  rw [steps_repairStep ((h.names _).mp hconflict)]
  exact h

/-! ## Passes -/

theorem refines_missingTarget (h : Refines plan state) :
    RefinesResult (.ok (planMissingTarget mount facts plan mutation))
      (state.steps (missingSteps mount facts mutation)) := by
  unfold planMissingTarget missingSteps
  cases mutation.mutationKind with
  | create =>
      dsimp only
      by_cases hentity : (facts.entityByPath mutation.projectedPath).isSome = true
      · rw [hentity, Bool.or_true, if_pos rfl, if_pos rfl]
        exact h.nothing
      · rw [Bool.not_eq_true] at hentity
        rw [hentity, Bool.or_false, if_neg Bool.false_ne_true]
        by_cases hconflict : plan.hasConflictForLocalId mutation.localId = true
        · rw [if_pos hconflict]
          cases mutation.parentRemoteId with
          | none => exact h.conflicted hconflict
          | some parentId =>
              dsimp only
              split
              · exact h.nothing
              · exact h.conflicted hconflict
        · rw [if_neg hconflict]
          cases mutation.parentRemoteId with
          | none => exact h.conflict
          | some parentId =>
              dsimp only
              split
              · exact h.nothing
              · exact h.conflict
  | move | rename =>
      cases mutation.targetRemoteId with
      | none => exact h.conflict
      | some remoteId =>
          dsimp only
          split
          · exact h.nothing
          · exact h.conflict
  | delete => exact h.nothing

section Host

variable {yaml : YamlSerde} {host : ProjectionHost} {stateRoot : Option PathBuf}

theorem refines_losslessRepair (h : Refines plan state)
    (hmount : mutation.mountId = mount.mountId) :
    RefinesResult (.ok (planLosslessRepair yaml host mount facts plan mutation))
      (state.steps (losslessSteps yaml host mount facts mutation)) := by
  unfold planLosslessRepair losslessSteps
  cases mutation.mutationKind with
  | delete =>
      cases mutation.targetRemoteId with
      | none => exact h.nothing
      | some remoteId =>
          dsimp only
          by_cases hconflict : plan.hasConflictForLocalId mutation.localId = true
          · rw [if_pos hconflict]
            split
            · exact h.skipped hconflict
            · exact h.nothing
          · rw [if_neg hconflict]
            by_cases horphan : (facts.entityById remoteId).isNone = true
            · rw [if_pos horphan, horphan, Bool.true_or, if_pos rfl]
              exact h.repair hmount nofun
            · rw [Bool.not_eq_true] at horphan
              rw [horphan, if_neg Bool.false_ne_true, Bool.false_or]
              split
              · exact h.repair hmount nofun
              · exact h.nothing
  | move | rename =>
      cases mutation.targetRemoteId with
      | none => exact h.nothing
      | some remoteId =>
          dsimp only
          split
          · exact h.nothing
          cases facts.entityByPath mutation.projectedPath with
          | none => exact h.nothing
          | some colliding =>
              dsimp only
              split
              · exact h.nothing
              · exact h.conflict
  | create =>
      cases mutation.targetRemoteId with
      | none => exact h.nothing
      | some remoteId => exact h.nothing

theorem refines_createCollision (h : Refines plan state)
    (hmount : mutation.mountId = mount.mountId) :
    RefinesResult (planCreateCollision yaml host stateRoot mount facts plan mutation)
      (state.steps (collisionSteps yaml host stateRoot mount facts mutation)) := by
  unfold planCreateCollision collisionSteps
  by_cases hcreate : mutation.mutationKind ≠ .create
  · rw [decide_eq_true hcreate, Bool.true_or, if_pos rfl, if_pos hcreate]
    exact h.nothing
  rw [decide_eq_false hcreate, Bool.false_or, if_neg hcreate]
  by_cases hconflict : plan.hasConflictForLocalId mutation.localId = true
  · rw [if_pos hconflict]
    cases facts.entityByPath mutation.projectedPath with
    | none => exact h.nothing
    | some entity =>
        dsimp only
        cases pendingCreateIdentity yaml host stateRoot mount mutation with
        | error error =>
            rw [collisionStep, steps_fault ((h.names _).mp hconflict)]
            exact h
        | ok identity =>
            cases identity with
            | remote remoteId =>
                rw [collisionStep]
                split
                · exact h.skipped hconflict
                · exact h.conflicted hconflict
            | missingIdentity => exact h.conflicted hconflict
            | unreadable => exact h.conflicted hconflict
            | invalidCanonical => exact h.conflicted hconflict
            | conflictingSources remoteIds => exact h.conflicted hconflict
  · rw [if_neg hconflict]
    cases facts.entityByPath mutation.projectedPath with
    | none => exact h.nothing
    | some entity =>
        dsimp only
        cases pendingCreateIdentity yaml host stateRoot mount mutation with
        | error error =>
            rw [collisionStep, steps_fault_open (mt (h.names _).mpr hconflict)]
            exact trivial
        | ok identity =>
            cases identity with
            | remote remoteId =>
                rw [collisionStep, Except.map, planCollision]
                split
                · exact h.repair hmount nofun
                · exact h.conflict
            | missingIdentity => exact h.conflict
            | unreadable => exact h.conflict
            | invalidCanonical => exact h.conflict
            | conflictingSources remoteIds => exact h.pushConflict rfl rfl

end Host

/-! ## Runs -/

/-- A pass over a list refines the steps of its members, one after the other. -/
theorem refines_foldlM {α : Type} {pass : ProjectionStatePlan → α → LocalityResult ProjectionStatePlan}
    {stepsOf : α → List PlanStep} {members : List α}
    (hpass : ∀ member ∈ members, ∀ plan state, Refines plan state →
      RefinesResult (pass plan member) (state.steps (stepsOf member))) :
    ∀ {plan : ProjectionStatePlan} {state : PlanState}, Refines plan state →
      RefinesResult (members.foldlM pass plan) (state.steps (members.flatMap stepsOf)) := by
  induction members with
  | nil => exact fun h => h
  | cons member members ih =>
      intro plan state h
      obtain ⟨hmember, hmembers⟩ := List.forall_mem_cons.mp hpass
      have hfirst := hmember plan state h
      rw [List.foldlM_cons, List.flatMap_cons, Guarded.steps_append]
      cases hplan : pass plan member with
      | error error =>
          rw [hplan] at hfirst
          cases hstate : state.steps (stepsOf member) with
          | error error => exact trivial
          | ok middle =>
              rw [hstate] at hfirst
              exact hfirst.elim
      | ok middle =>
          rw [hplan] at hfirst
          cases hstate : state.steps (stepsOf member) with
          | error error =>
              rw [hstate] at hfirst
              exact hfirst.elim
          | ok middle' =>
              rw [hstate] at hfirst
              exact ih hmembers hfirst

theorem RefinesResult.andThen {plan : ProjectionStatePlan} {state : LocalityResult PlanState}
    {result : LocalityResult ProjectionStatePlan} {next : PlanState → LocalityResult PlanState}
    (h : RefinesResult (.ok plan) state)
    (hnext : ∀ state, Refines plan state → RefinesResult result (next state)) :
    RefinesResult result (state >>= next) := by
  cases state with
  | error error => exact h.elim
  | ok state => exact hnext state h

/-- A pass that cannot fail. -/
theorem refines_foldl {α : Type} {pass : ProjectionStatePlan → α → ProjectionStatePlan}
    {stepsOf : α → List PlanStep} {members : List α}
    (hpass : ∀ member ∈ members, ∀ plan state, Refines plan state →
      RefinesResult (.ok (pass plan member)) (state.steps (stepsOf member)))
    {plan : ProjectionStatePlan} {state : PlanState} (h : Refines plan state) :
    RefinesResult (.ok (members.foldl pass plan)) (state.steps (members.flatMap stepsOf)) := by
  have hfold : members.foldlM (fun plan member => (.ok (pass plan member) :
      LocalityResult ProjectionStatePlan)) plan = .ok (members.foldl pass plan) :=
    List.foldlM_pure
  rw [← hfold]
  exact refines_foldlM hpass h

theorem refines_groups {plan : ProjectionStatePlan} {state : PlanState} (h : Refines plan state) :
    RefinesResult (.ok (planMultiMutationConflicts facts plan)) (state.steps (groupSteps facts)) := by
  rw [groupSteps, List.map_eq_flatMap, List.map_eq_flatMap, Guarded.steps_append]
  have hpath : ∀ group ∈ sharedGroups facts fun mutation => some mutation.projectedPath,
      ∀ plan state, Refines plan state → RefinesResult (.ok (plan.pushConflict (pathConflict group)))
        (state.steps [conflictStep (joinedLocalIds group.2)]) :=
    fun group _ plan state h => h.pushConflict rfl rfl
  have hentity : ∀ group ∈ sharedGroups facts VirtualMutationRecord.targetRemoteId,
      ∀ plan state, Refines plan state →
        RefinesResult (.ok (plan.pushConflict (entityConflict group)))
          (state.steps [conflictStep (joinedLocalIds group.2)]) :=
    fun group _ plan state h => h.pushConflict rfl rfl
  exact (refines_foldl hpath h).andThen fun state h => refines_foldl hentity h

section Scopes

variable {yaml : YamlSerde} {host : ProjectionHost} {store : ProjectionStore}
  {stateRoot : Option PathBuf}

theorem mountId_of_mem_load {scope : ProjectionStateScope} {mutation : VirtualMutationRecord}
    (h : mutation ∈ (ProjectionStateFacts.load store scope).mutations) :
    mutation ∈ store.virtualMutations.all ∧ mutation.mountId = scope.mount.mountId ∧
      scope.filter.contains mutation.projectedPath = true := by
  obtain ⟨hlisted, hfilter⟩ := List.mem_filter.mp h
  obtain ⟨hall, hmount⟩ := List.mem_filter.mp ((List.mem_insertionSort _).mp hlisted)
  exact ⟨hall, of_decide_eq_true hmount, hfilter⟩

theorem refines_scope {scope : ProjectionStateScope} {plan : ProjectionStatePlan}
    {state : PlanState} (h : Refines plan state) :
    RefinesResult (planProjectionScope yaml host store stateRoot plan scope)
      (state.steps (scopeSteps yaml host store stateRoot scope)) := by
  have hmount : ∀ mutation ∈ (ProjectionStateFacts.load store scope).mutations,
      mutation.mountId = scope.mount.mountId := fun _ hmem => (mountId_of_mem_load hmem).2.1
  have hchecked : Refines { plan with
      checked := plan.checked + (ProjectionStateFacts.load store scope).mutations.length } state :=
    ⟨h.names, h.repairs⟩
  have hmissing : ∀ mutation ∈ (ProjectionStateFacts.load store scope).mutations,
      ∀ plan state, Refines plan state →
        RefinesResult (.ok (planMissingTarget scope.mount (.load store scope) plan mutation))
          (state.steps (missingSteps scope.mount (.load store scope) mutation)) :=
    fun mutation _ plan state h => refines_missingTarget h
  have hlossless : ∀ mutation ∈ (ProjectionStateFacts.load store scope).mutations,
      ∀ plan state, Refines plan state →
        RefinesResult
          (.ok (planLosslessRepair yaml host scope.mount (.load store scope) plan mutation))
          (state.steps (losslessSteps yaml host scope.mount (.load store scope) mutation)) :=
    fun mutation hmem plan state h => refines_losslessRepair h (hmount mutation hmem)
  have hcollision : ∀ mutation ∈ (ProjectionStateFacts.load store scope).mutations,
      ∀ plan state, Refines plan state →
        RefinesResult
          (planCreateCollision yaml host stateRoot scope.mount (.load store scope) plan mutation)
          (state.steps
            (collisionSteps yaml host stateRoot scope.mount (.load store scope) mutation)) :=
    fun mutation hmem plan state h => refines_createCollision h (hmount mutation hmem)
  rw [scopeSteps, Guarded.steps_append]
  refine (refines_groups hchecked).andThen fun state h => ?_
  rw [Guarded.steps_append]
  refine (refines_foldl hmissing h).andThen fun state h => ?_
  rw [Guarded.steps_append]
  refine (refines_foldl hlossless h).andThen fun state h => ?_
  exact refines_foldlM hcollision h

/-- The plan of a list of scopes is the pass over their steps. -/
theorem refines_view (scopes : List ProjectionStateScope) :
    RefinesResult (scopes.foldlM (planProjectionScope yaml host store stateRoot) ⟨0, [], []⟩)
      (Guarded.steps ⟨[], []⟩ (viewSteps yaml host store stateRoot scopes)) := by
  have hstart : Refines ⟨0, [], []⟩ ⟨[], []⟩ :=
    ⟨fun id => ⟨fun h => (nomatch h), fun h => (nomatch h)⟩, rfl⟩
  have hscope : ∀ scope ∈ scopes, ∀ plan state, Refines plan state →
      RefinesResult (planProjectionScope yaml host store stateRoot plan scope)
        (state.steps (scopeSteps yaml host store stateRoot scope)) :=
    fun scope _ plan state h => refines_scope h
  rw [viewSteps]
  exact refines_foldlM hscope hstart

end Scopes

end Locality.Daemon
