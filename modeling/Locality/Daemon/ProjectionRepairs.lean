/-
  Daemon/ProjectionRepairs.lean --- which mutations a reconciliation takes back, and when
  that is right whatever its target is.

  A view is a list of scopes.  A mutation is open in a view if it is taken back by itself
  and no conflict that comes before it there has its local id.  A view that does not fail
  deletes what is open in it.
-/
import Locality.Daemon.ProjectionSteps
import Locality.Foundation.OrderFree

set_option autoImplicit false

namespace Locality.Daemon

open Locality.Core Locality.Foundation
open Locality.Discovery (VirtualMutationRecord VirtualMutationKind)

/-! ## What a reconciliation should do -/

section Statement

variable (yaml : YamlSerde) (host : ProjectionHost) (store : ProjectionStore)
  (stateRoot : Option PathBuf)

/-- The mutations that a reconciliation takes out of the store. -/
def Deletes (target : Option PathBuf) (mutation : VirtualMutationRecord) : Prop :=
  mutation ∈ store.virtualMutations.all ∧ mutation ∉
    (reconcileProjectionStateForTarget yaml host store stateRoot target).2.virtualMutations.all

instance (target : Option PathBuf) (mutation : VirtualMutationRecord) :
    Decidable (Deletes yaml host store stateRoot target mutation) :=
  inferInstanceAs (Decidable (_ ∧ _))

/-- Another mutation of the mount has the path or the entity. -/
def SharesClaim (mutation other : VirtualMutationRecord) : Prop :=
  other.mountId = mutation.mountId ∧ other ≠ mutation ∧
    (other.projectedPath = mutation.projectedPath ∨ ∃ remoteId,
      mutation.targetRemoteId = some remoteId ∧ other.targetRemoteId = some remoteId)

structure RepairsRightly (target : Option PathBuf) : Prop where
  /-- What is deleted for the target is deleted without one. -/
  untargeted : ∀ mutation, Deletes yaml host store stateRoot target mutation →
    Deletes yaml host store stateRoot none mutation
  unclaimed : ∀ mutation, Deletes yaml host store stateRoot target mutation →
    ∀ other ∈ store.virtualMutations.all, ¬ SharesClaim mutation other
  once : ∀ plan, planProjectionStateReconciliation yaml host store stateRoot target = .ok plan →
    plan.repairs.Nodup
  /-- A second run has nothing to repair. -/
  settled : ∀ report, (reconcileProjectionStateForTarget yaml host
      (reconcileProjectionStateForTarget yaml host store stateRoot target).2 stateRoot target).1 =
        .ok report → report.repaired = 0

/-! ## Views -/

/-- The view without a target. -/
def allScopes : List ProjectionStateScope := store.mounts.all.map fun mount => ⟨mount, .all⟩

def OpenIn (scopes : List ProjectionStateScope) (mutation : VirtualMutationRecord) : Prop :=
  Reaches (viewSteps yaml host store stateRoot scopes) (repairStep mutation) mutation.localId

/-- A create that no conflict before it names, and whose content has no valid path. -/
def FailsIn (scopes : List ProjectionStateScope) : Prop :=
  ∃ name error, Reaches (viewSteps yaml host store stateRoot scopes) (.fault name error) name

def Within (scopes : List ProjectionStateScope) (mutation : VirtualMutationRecord) : Prop :=
  ∃ scope ∈ scopes, scope.mount.mountId = mutation.mountId ∧
    scope.filter.contains mutation.projectedPath = true

/-- A conflict that comes before the repair of a mutation has its local id. -/
def NamedIn (scopes : List ProjectionStateScope) (mutation : VirtualMutationRecord) : Prop :=
  ∃ front back names, viewSteps yaml host store stateRoot scopes =
      front ++ repairStep mutation :: back ∧
    .block names ∈ front ∧ mutation.localId ∈ names

/-- Unless the view of the target fails: a mutation that is open in it shares its path and
its entity only with mutations in it, and then its local id has no comma; no conflict of the
view without a target names it, and that view does not fail. -/
def HidesNothing (target : Option PathBuf) : Prop :=
  ∀ scopes, projectionStateScopes host store target = .ok scopes →
    ¬ FailsIn yaml host store stateRoot scopes →
    ∀ mutation, OpenIn yaml host store stateRoot scopes mutation →
      (∀ other ∈ store.virtualMutations.all, SharesClaim mutation other →
        Within scopes other ∧ ',' ∉ mutation.localId) ∧
      ¬ NamedIn yaml host store stateRoot (allScopes store) mutation ∧
      ¬ FailsIn yaml host store stateRoot (allScopes store)

end Statement

variable {yaml : YamlSerde} {host : ProjectionHost} {store : ProjectionStore}
  {stateRoot target : Option PathBuf} {scopes : List ProjectionStateScope}
  {scope : ProjectionStateScope} {mount : MountConfig} {facts : ProjectionStateFacts}
  {mutation : VirtualMutationRecord}

/-! ## Items -/

/-- The conflict of a mutation whose parent or target is missing: of no delete, and of no
create at the path of an entity. -/
theorem missingSteps_cases (mount : MountConfig) (facts : ProjectionStateFacts)
    (mutation : VirtualMutationRecord) : missingSteps mount facts mutation = [] ∨
    mutation.mutationKind ≠ .delete ∧
      (mutation.mutationKind = .create →
        (facts.entityByPath mutation.projectedPath).isSome = false) ∧
      missingSteps mount facts mutation = [conflictStep mutation.localId] := by
  unfold missingSteps
  cases mutation.mutationKind with
  | create =>
      dsimp only
      cases hentity : (facts.entityByPath mutation.projectedPath).isSome with
      | true => exact Or.inl rfl
      | false =>
          refine Or.imp_right (fun h => ⟨nofun, fun _ => rfl, h⟩) ?_
          cases mutation.parentRemoteId with
          | none => exact Or.inr rfl
          | some parentId =>
              dsimp only
              split
              · exact nomatch ‹false = true›
              split
              · exact Or.inl rfl
              · exact Or.inr rfl
  | move | rename =>
      refine Or.imp_right (fun h => ⟨nofun, nofun, h⟩) ?_
      cases mutation.targetRemoteId with
      | none => exact Or.inr rfl
      | some remoteId =>
          dsimp only
          split
          · exact Or.inl rfl
          · exact Or.inr rfl
  | delete => exact Or.inl rfl

theorem groupSteps_isBlock {step : PlanStep} (h : step ∈ groupSteps facts) :
    step.isBlock = true := by
  obtain h | h := List.mem_append.mp h
  · obtain ⟨group, -, rfl⟩ := List.mem_map.mp h
    rfl
  · obtain ⟨group, -, rfl⟩ := List.mem_map.mp h
    rfl

/-- The steps of a delete: its repair, or nothing.  A create has none here. -/
theorem losslessSteps_cases (yaml : YamlSerde) (host : ProjectionHost) (mount : MountConfig)
    (facts : ProjectionStateFacts) (mutation : VirtualMutationRecord) :
    losslessSteps yaml host mount facts mutation = [] ∨
    mutation.mutationKind = .delete ∧
      losslessSteps yaml host mount facts mutation = [repairStep mutation] ∨
    mutation.mutationKind ≠ .delete ∧ mutation.mutationKind ≠ .create ∧
      losslessSteps yaml host mount facts mutation = [conflictStep mutation.localId] := by
  unfold losslessSteps
  split
  · rename_i hkind _
    split
    · exact Or.inr (Or.inl ⟨hkind, rfl⟩)
    · exact Or.inl rfl
  · rename_i hkind _
    split
    · exact Or.inl rfl
    split
    · exact Or.inl rfl
    split
    · exact Or.inl rfl
    · exact Or.inr (Or.inr ⟨hkind ▸ nofun, hkind ▸ nofun, rfl⟩)
  · rename_i hkind _
    split
    · exact Or.inl rfl
    split
    · exact Or.inl rfl
    split
    · exact Or.inl rfl
    · exact Or.inr (Or.inr ⟨hkind ▸ nofun, hkind ▸ nofun, rfl⟩)
  · exact Or.inl rfl

/-- The steps of a create: nothing without an entity at its path. -/
theorem collisionSteps_cases (yaml : YamlSerde) (host : ProjectionHost)
    (stateRoot : Option PathBuf) (mount : MountConfig) (facts : ProjectionStateFacts)
    (mutation : VirtualMutationRecord) :
    collisionSteps yaml host stateRoot mount facts mutation = [] ∨
    mutation.mutationKind = .create ∧ (facts.entityByPath mutation.projectedPath).isSome = true ∧
      (collisionSteps yaml host stateRoot mount facts mutation = [repairStep mutation] ∨
        collisionSteps yaml host stateRoot mount facts mutation =
          [conflictStep mutation.localId] ∨
        ∃ error, collisionSteps yaml host stateRoot mount facts mutation =
          [.fault mutation.localId error]) := by
  unfold collisionSteps
  by_cases hcreate : mutation.mutationKind ≠ .create
  · exact Or.inl (if_pos hcreate)
  rw [if_neg hcreate]
  cases hentity : facts.entityByPath mutation.projectedPath with
  | none => exact Or.inl rfl
  | some entity =>
      refine Or.inr ⟨not_not.mp hcreate, rfl, ?_⟩
      dsimp only
      cases pendingCreateIdentity yaml host stateRoot mount mutation with
      | error error => exact Or.inr (Or.inr ⟨error, rfl⟩)
      | ok identity =>
          cases identity with
          | remote remoteId =>
              rw [collisionStep]
              split
              · exact Or.inl rfl
              · exact Or.inr (Or.inl rfl)
          | missingIdentity => exact Or.inr (Or.inl rfl)
          | unreadable => exact Or.inr (Or.inl rfl)
          | invalidCanonical => exact Or.inr (Or.inl rfl)
          | conflictingSources remoteIds => exact Or.inr (Or.inl rfl)

/-- An item of a scope is the repair of one of its mutations: of a delete, or of a create at
the path of an entity. -/
theorem item_mem_scopeSteps {name : Text} {row : VirtualMutationRecord}
    (h : .item name row ∈ scopeSteps yaml host store stateRoot scope) :
    name = row.localId ∧ row ∈ (ProjectionStateFacts.load store scope).mutations ∧
      (row.mutationKind = .delete ∧
        losslessSteps yaml host scope.mount (.load store scope) row = [repairStep row] ∨
      row.mutationKind = .create ∧
        ((ProjectionStateFacts.load store scope).entityByPath row.projectedPath).isSome = true ∧
        collisionSteps yaml host stateRoot scope.mount (.load store scope) row =
          [repairStep row]) := by
  obtain h | h := List.mem_append.mp h
  · exact nomatch groupSteps_isBlock h
  obtain h | h := List.mem_append.mp h
  · obtain ⟨mutation, -, h⟩ := List.mem_flatMap.mp h
    obtain hnone | ⟨-, -, hconflict⟩ :=
      missingSteps_cases scope.mount (.load store scope) mutation
    · rw [hnone] at h
      exact nomatch h
    · rw [hconflict] at h
      exact nomatch List.mem_singleton.mp h
  obtain h | h := List.mem_append.mp h
  · obtain ⟨mutation, hmem, h⟩ := List.mem_flatMap.mp h
    obtain hnone | ⟨hkind, hrepair⟩ | ⟨-, -, hconflict⟩ := losslessSteps_cases yaml host
      scope.mount (.load store scope) mutation
    · rw [hnone] at h
      exact nomatch h
    · rw [hrepair] at h
      cases List.mem_singleton.mp h
      exact ⟨rfl, hmem, Or.inl ⟨hkind, hrepair⟩⟩
    · rw [hconflict] at h
      exact nomatch List.mem_singleton.mp h
  · obtain ⟨mutation, hmem, h⟩ := List.mem_flatMap.mp h
    obtain hnone | ⟨hkind, hentity, hrepair | hconflict | ⟨error, hfault⟩⟩ :=
      collisionSteps_cases yaml host stateRoot scope.mount (.load store scope) mutation
    · rw [hnone] at h
      exact nomatch h
    · rw [hrepair] at h
      cases List.mem_singleton.mp h
      exact ⟨rfl, hmem, Or.inr ⟨hkind, hentity, hrepair⟩⟩
    · rw [hconflict] at h
      exact nomatch List.mem_singleton.mp h
    · rw [hfault] at h
      exact nomatch List.mem_singleton.mp h

theorem reaches_item {name : Text} {row : VirtualMutationRecord}
    (h : Reaches (viewSteps yaml host store stateRoot scopes) (.item name row) name) :
    ∃ scope ∈ scopes, name = row.localId ∧
      Reaches (scopeSteps yaml host store stateRoot scope) (repairStep row) row.localId := by
  obtain ⟨scope, hscope, h⟩ := h.exists_of_flatMap
  obtain ⟨rfl, -⟩ := item_mem_scopeSteps h.mem
  exact ⟨scope, hscope, rfl, h⟩

/-- What is open in a view is a mutation of the store. -/
theorem OpenIn.mem (h : OpenIn yaml host store stateRoot scopes mutation) :
    mutation ∈ store.virtualMutations.all := by
  obtain ⟨scope, -, -, h⟩ := reaches_item h
  exact (mountId_of_mem_load (item_mem_scopeSteps h.mem).2.1).1

/-! ## What is deleted -/

def repairFor (mutation : VirtualMutationRecord) : ProjectionStateRepair :=
  ⟨mutation.mountId, mutation.localId⟩

/-- A plan fails with its view, or repairs what is open in it. -/
theorem plan_cases (hscopes : projectionStateScopes host store target = .ok scopes) :
    (FailsIn yaml host store stateRoot scopes ∧
      ∃ error, planProjectionStateReconciliation yaml host store stateRoot target =
        .error error) ∨
    ¬ FailsIn yaml host store stateRoot scopes ∧ ∃ (plan : ProjectionStatePlan)
      (taken : List VirtualMutationRecord),
      planProjectionStateReconciliation yaml host store stateRoot target = .ok plan ∧
      plan.repairs = taken.map repairFor ∧
      (∀ mutation, mutation ∈ taken ↔ OpenIn yaml host store stateRoot scopes mutation) ∧
      taken.Sublist ((viewSteps yaml host store stateRoot scopes).filterMap GuardedStep.row?) := by
  have hplan : planProjectionStateReconciliation yaml host store stateRoot target =
      scopes.foldlM (planProjectionScope yaml host store stateRoot) ⟨0, [], []⟩ := by
    rw [planProjectionStateReconciliation, hscopes]
    rfl
  have hrefines := @refines_view yaml host store stateRoot scopes
  have hfails : (∃ error, Guarded.steps (⟨[], []⟩ : PlanState)
      (viewSteps yaml host store stateRoot scopes) = .error error) ↔
        FailsIn yaml host store stateRoot scopes := by
    rw [Guarded.steps_eq_error]
    exact exists_congr fun name => exists_congr fun error => and_iff_right List.not_mem_nil
  rw [hplan]
  cases hstate : Guarded.steps (⟨[], []⟩ : PlanState)
      (viewSteps yaml host store stateRoot scopes) with
  | error error =>
      rw [hstate] at hrefines
      refine Or.inl ⟨hfails.mp ⟨error, hstate⟩, ?_⟩
      cases hresult : scopes.foldlM (planProjectionScope yaml host store stateRoot) ⟨0, [], []⟩ with
      | error error => exact ⟨error, rfl⟩
      | ok plan =>
          rw [hresult] at hrefines
          exact hrefines.elim
  | ok state =>
      rw [hstate] at hrefines
      refine Or.inr ⟨fun h => ?_, ?_⟩
      · obtain ⟨error, herror⟩ := hfails.mpr h
        exact nomatch hstate.symm.trans herror
      cases hresult : scopes.foldlM (planProjectionScope yaml host store stateRoot) ⟨0, [], []⟩ with
      | error error =>
          rw [hresult] at hrefines
          exact hrefines.elim
      | ok plan =>
          rw [hresult] at hrefines
          obtain ⟨taken, htaken, hsublist⟩ := Guarded.taken_sublist hstate
          rw [List.nil_append] at htaken
          refine ⟨plan, state.taken, rfl, hrefines.repairs, fun mutation => ?_, htaken ▸ hsublist⟩
          rw [Guarded.steps_eq_ok hstate mutation]
          constructor
          · rintro (h | ⟨name, -, h⟩)
            · exact nomatch h
            · obtain ⟨-, -, rfl, -⟩ := reaches_item h
              exact h
          · exact fun h => Or.inr ⟨mutation.localId, List.not_mem_nil, h⟩

theorem mem_deleteAll {repairs : List ProjectionStateRepair} {mutation : VirtualMutationRecord} :
    mutation ∈ (repairs.foldl (fun store repair =>
        store.deleteVirtualMutation repair.mountId repair.localId) store).virtualMutations.all ↔
      mutation ∈ store.virtualMutations.all ∧ repairFor mutation ∉ repairs := by
  induction repairs generalizing store with
  | nil => exact (and_iff_left List.not_mem_nil).symm
  | cons repair repairs ih =>
      rw [List.foldl_cons, ih, RankedTable.mem_all, RankedTable.mem_all,
        ProjectionStore.deleteVirtualMutation, RankedTable.lookup_erase, List.mem_cons, not_or,
        ← and_assoc]
      refine and_congr_left fun _ => ?_
      have hkey : (repair.mountId, repair.localId) = mutation.key ↔
          repairFor mutation = repair := by
        rw [repairFor, VirtualMutationRecord.key, Prod.mk.injEq]
        exact ⟨fun ⟨hmount, hlocal⟩ => hmount ▸ hlocal ▸ rfl, fun h => h ▸ ⟨rfl, rfl⟩⟩
      by_cases hrepair : repairFor mutation = repair
      · rw [if_pos (hkey.mpr hrepair)]
        exact iff_of_false (fun h => nomatch h) fun h => h.2 hrepair
      · rw [if_neg (mt hkey.mp hrepair)]
        exact (and_iff_left hrepair).symm

/-- The rows of the table are told apart by what a repair has of them. -/
theorem eq_of_repairFor {other : VirtualMutationRecord}
    (hmutation : mutation ∈ store.virtualMutations.all) (hother : other ∈ store.virtualMutations.all)
    (h : repairFor other = repairFor mutation) : other = mutation := by
  obtain ⟨hmount, hlocal⟩ := ProjectionStateRepair.mk.inj h
  have hkey : other.key = mutation.key := Prod.ext hmount hlocal
  have hfound := RankedTable.mem_all.mp hother
  rw [hkey, RankedTable.mem_all.mp hmutation] at hfound
  exact (Option.some_inj.mp hfound).symm

/-- What is deleted is what is open in a view that does not fail. -/
theorem deletes_iff (hscopes : projectionStateScopes host store target = .ok scopes) :
    Deletes yaml host store stateRoot target mutation ↔
      ¬ FailsIn yaml host store stateRoot scopes ∧
        OpenIn yaml host store stateRoot scopes mutation := by
  rw [Deletes, reconcileProjectionStateForTarget]
  obtain ⟨hfails, error, hplan⟩ | ⟨hfails, plan, taken, hplan, hrepairs, hopen, -⟩ :=
    @plan_cases yaml host store stateRoot target scopes hscopes
  · rw [hplan]
    exact iff_of_false (fun h => h.2 h.1) fun h => h.1 hfails
  · rw [hplan]
    dsimp only
    rw [mem_deleteAll, not_and, not_not, and_iff_right hfails, hrepairs, List.mem_map]
    constructor
    · rintro ⟨hmem, htaken⟩
      obtain ⟨other, hother, hsame⟩ := htaken hmem
      have hstored := ((hopen other).mp hother).mem
      exact (hopen mutation).mp (eq_of_repairFor hmem hstored hsame ▸ hother)
    · intro h
      exact ⟨h.mem, fun _ => ⟨mutation, (hopen mutation).mpr h, rfl⟩⟩

end Locality.Daemon
