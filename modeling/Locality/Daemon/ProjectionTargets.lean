/-
  Daemon/ProjectionTargets.lean --- a reconciliation is right for a target exactly where the
  target hides nothing of what it takes back.

  What is taken back shares no claim, so it is in no group, and no conflict is about it: the
  conflicts of a view are behind a reconciliation what they were before it.
-/
import Locality.Core.DiffWellFormed
import Locality.Daemon.ProjectionRepairs
import Mathlib.Data.List.Dedup

set_option autoImplicit false

namespace Locality.Daemon

open Locality.Core Locality.Foundation
open Locality.Discovery (VirtualMutationRecord VirtualMutationKind)

variable {yaml : YamlSerde} {host : ProjectionHost} {store : ProjectionStore}
  {stateRoot target : Option PathBuf} {scopes : List ProjectionStateScope}
  {scope : ProjectionStateScope} {mutation : VirtualMutationRecord}

/-! ## Scopes -/

theorem map_mount_filterMap_sublist {mounts : List MountConfig}
    {scopeOf : MountConfig → Option ProjectionStateScope}
    (hscope : ∀ mount scope, scopeOf mount = some scope → scope.mount = mount) :
    ((mounts.filterMap scopeOf).map ProjectionStateScope.mount).Sublist mounts := by
  induction mounts with
  | nil => exact List.Sublist.slnil
  | cons mount mounts ih =>
      rw [List.filterMap_cons]
      cases hfound : scopeOf mount with
      | none => exact ih.cons mount
      | some scope =>
          dsimp only
          rw [List.map_cons, hscope mount scope hfound]
          exact ih.cons_cons mount

theorem mounts_sublist (hscopes : projectionStateScopes host store target = .ok scopes) :
    (scopes.map ProjectionStateScope.mount).Sublist store.mounts.all := by
  cases target with
  | none =>
      cases hscopes
      rw [List.map_map, Function.comp_def, List.map_id']
  | some target =>
      obtain ⟨target, -, h⟩ := bind_eq_ok.mp hscopes
      cases h
      refine map_mount_filterMap_sublist fun mount scope h => ?_
      obtain ⟨relativePath, -, rfl⟩ := Option.map_eq_some_iff.mp h
      rfl

/-- The scopes of a target are of different mounts. -/
theorem nodup_scopes (hscopes : projectionStateScopes host store target = .ok scopes) :
    (scopes.map fun scope => scope.mount.mountId).Nodup := by
  have hmap : scopes.map (fun scope => scope.mount.mountId) =
      (scopes.map ProjectionStateScope.mount).map MountConfig.mountId := List.map_map.symm
  rw [hmap]
  exact ((mounts_sublist hscopes).map MountConfig.mountId).nodup store.mounts.nodup_all

theorem scope_eq_of_mountId (hscopes : projectionStateScopes host store target = .ok scopes)
    {other : ProjectionStateScope} (hscope : scope ∈ scopes) (hother : other ∈ scopes)
    (h : scope.mount.mountId = other.mount.mountId) : scope = other :=
  List.inj_on_of_nodup_map (nodup_scopes hscopes) hscope hother h

theorem OpenIn.exists_scope (h : OpenIn yaml host store stateRoot scopes mutation) :
    ∃ scope ∈ scopes, mutation ∈ (ProjectionStateFacts.load store scope).mutations ∧
      Reaches (scopeSteps yaml host store stateRoot scope) (repairStep mutation)
        mutation.localId := by
  obtain ⟨scope, hscope, -, h⟩ := reaches_item h
  exact ⟨scope, hscope, (item_mem_scopeSteps h.mem).2.1, h⟩

/-! ## Listed mutations -/

theorem nodup_all_virtualMutations : store.virtualMutations.all.Nodup :=
  List.Nodup.of_map _ store.virtualMutations.nodup_all

theorem nodup_mutations : (ProjectionStateFacts.load store scope).mutations.Nodup := by
  refine List.Nodup.filter _ ?_
  rw [ProjectionStore.listVirtualMutations, (List.perm_insertionSort _ _).nodup_iff]
  exact nodup_all_virtualMutations.filter _

theorem mem_load_mutations (hmem : mutation ∈ store.virtualMutations.all)
    (hmount : scope.mount.mountId = mutation.mountId)
    (hfilter : scope.filter.contains mutation.projectedPath = true) :
    mutation ∈ (ProjectionStateFacts.load store scope).mutations := by
  refine List.mem_filter.mpr ⟨(List.mem_insertionSort _).mpr (List.mem_filter.mpr ⟨hmem, ?_⟩), hfilter⟩
  exact decide_eq_true hmount.symm

/-- Mutations of one mount are told apart by their ranks. -/
theorem nodup_mutationRank (mountId : MountId) :
    ((store.virtualMutations.all.filter fun mutation =>
      decide (mutation.mountId = mountId)).map ProjectionStore.mutationRank).Nodup := by
  refine List.Nodup.map_on (fun mutation hmem other hother hrank => ?_)
    (nodup_all_virtualMutations.filter _)
  obtain ⟨hmem, hmount⟩ := List.mem_filter.mp hmem
  obtain ⟨hother, hmount'⟩ := List.mem_filter.mp hother
  have hlast := congrArg List.getLast? hrank
  rw [ProjectionStore.mutationRank, ProjectionStore.mutationRank, List.getLast?_append,
    List.getLast?_append] at hlast
  have hlocal : mutation.localId = other.localId :=
    Protocol.byteOrder_injective (Option.some_inj.mp hlast)
  refine eq_of_repairFor hother hmem (congrArg₂ ProjectionStateRepair.mk ?_ hlocal)
  exact (of_decide_eq_true hmount).trans (of_decide_eq_true hmount').symm

/-! ## Groups -/

section Groups

variable {κ : Type} [DecidableEq κ] [Ranked κ] {key : VirtualMutationRecord → Option κ}
  {facts : ProjectionStateFacts}

theorem mem_sharedGroups {group : κ × List VirtualMutationRecord} :
    group ∈ sharedGroups facts key ↔
      (∃ member ∈ facts.mutations, key member = some group.1) ∧
      group.2 = facts.mutations.filter (fun member => decide (key member = some group.1)) ∧
      1 < group.2.length := by
  rw [sharedGroups, mutationsBy, List.mem_filter, List.mem_map, decide_eq_true_eq]
  constructor
  · rintro ⟨⟨found, hfound, rfl⟩, hlength⟩
    rw [List.mem_insertionSort, List.mem_dedup, List.mem_filterMap] at hfound
    exact ⟨hfound, rfl, hlength⟩
  · rintro ⟨hmember, hgroup, hlength⟩
    refine ⟨⟨group.1, ?_, Prod.ext rfl hgroup.symm⟩, hlength⟩
    rw [List.mem_insertionSort, List.mem_dedup, List.mem_filterMap]
    exact hmember

variable (key) in
/-- Two mutations under one key are in a group. -/
theorem exists_sharedGroup {other : VirtualMutationRecord} {found : κ}
    (hmem : mutation ∈ facts.mutations) (hother : other ∈ facts.mutations) (hne : other ≠ mutation)
    (hkey : key mutation = some found) (hkey' : key other = some found) :
    ∃ group ∈ sharedGroups facts key, mutation ∈ group.2 := by
  have hin : mutation ∈ facts.mutations.filter fun member => decide (key member = some found) :=
    List.mem_filter.mpr ⟨hmem, decide_eq_true hkey⟩
  have hin' : other ∈ facts.mutations.filter fun member => decide (key member = some found) :=
    List.mem_filter.mpr ⟨hother, decide_eq_true hkey'⟩
  refine ⟨(found, _), mem_sharedGroups.mpr ⟨⟨mutation, hmem, hkey⟩, rfl, ?_⟩, hin⟩
  by_contra hshort
  obtain ⟨only, honly⟩ | hnil : (∃ only, facts.mutations.filter (fun member =>
      decide (key member = some found)) = [only]) ∨ facts.mutations.filter (fun member =>
      decide (key member = some found)) = [] := by
    match hgroup : facts.mutations.filter (fun member => decide (key member = some found)) with
    | [] => exact Or.inr rfl
    | [only] => exact Or.inl ⟨only, rfl⟩
    | _ :: _ :: _ =>
        rw [hgroup] at hshort
        exact absurd (Nat.succ_lt_succ (Nat.succ_pos _)) hshort
  · rw [honly] at hin hin'
    exact hne ((List.mem_singleton.mp hin').trans (List.mem_singleton.mp hin).symm)
  · rw [hnil] at hin
    exact nomatch hin

end Groups

/-- No conflict of a group names what is open. -/
theorem notMem_sharedGroups (h : Reaches (scopeSteps yaml host store stateRoot scope)
    (repairStep mutation) mutation.localId) (hcomma : ',' ∉ mutation.localId)
    {group : List VirtualMutationRecord} (hgroup : conflictStep (joinedLocalIds group) ∈
      groupSteps (ProjectionStateFacts.load store scope)) : mutation ∉ group := by
  intro hmem
  obtain hgroups | ⟨hopen, -⟩ := reaches_append.mp h
  · exact nomatch groupSteps_isBlock hgroups.mem
  · exact hopen _ hgroup (mem_splitOn_join (List.mem_map_of_mem hmem) hcomma)

/-- What is open, has no comma in its local id and shares a claim only within the view,
shares none. -/
theorem OpenIn.unclaimed (h : OpenIn yaml host store stateRoot scopes mutation)
    (hscopes : projectionStateScopes host store target = .ok scopes)
    {other : VirtualMutationRecord} (hother : other ∈ store.virtualMutations.all)
    (hwithin : Within scopes other) (hcomma : ',' ∉ mutation.localId) :
    ¬ SharesClaim mutation other := by
  rintro ⟨hmount, hne, hclaim⟩
  obtain ⟨scope, hscope, hmem, hreaches⟩ := h.exists_scope
  obtain ⟨scope', hscope', hmount', hfilter⟩ := hwithin
  obtain rfl := scope_eq_of_mountId hscopes hscope hscope'
    ((mountId_of_mem_load hmem).2.1.symm.trans (hmount.symm.trans hmount'.symm))
  have hmem' := mem_load_mutations hother hmount' hfilter
  obtain hpath | ⟨remoteId, htarget, htarget'⟩ := hclaim
  · obtain ⟨group, hgroup, hin⟩ := exists_sharedGroup
      (fun mutation => some mutation.projectedPath) hmem hmem' hne rfl
      (congrArg some hpath)
    exact notMem_sharedGroups hreaches hcomma
      (List.mem_append_left _ (List.mem_map_of_mem hgroup)) hin
  · obtain ⟨group, hgroup, hin⟩ := exists_sharedGroup
      VirtualMutationRecord.targetRemoteId hmem hmem' hne htarget htarget'
    exact notMem_sharedGroups hreaches hcomma
      (List.mem_append_right _ (List.mem_map_of_mem hgroup)) hin

/-! ## Behind a reconciliation -/

/-- The store without some of its mutations. -/
structure Without (store store' : ProjectionStore) (removed : VirtualMutationRecord → Bool) :
    Prop where
  mounts : store'.mounts = store.mounts
  entities : store'.entities = store.entities
  rows : ∀ mutation, mutation ∈ store'.virtualMutations.all ↔
    mutation ∈ store.virtualMutations.all ∧ removed mutation = false

variable {store' : ProjectionStore} {removed : VirtualMutationRecord → Bool}

theorem Without.mutations (h : Without store store' removed) (scope : ProjectionStateScope) :
    (ProjectionStateFacts.load store' scope).mutations =
      (ProjectionStateFacts.load store scope).mutations.filter fun mutation =>
        !removed mutation := by
  have hlisted : store'.listVirtualMutations scope.mount.mountId =
      (store.listVirtualMutations scope.mount.mountId).filter fun mutation =>
        !removed mutation := by
    refine Eq.trans ?_ (filter_insertionSort _ (nodup_mutationRank scope.mount.mountId)).symm
    refine insertionSort_eq_of_perm ?_ (nodup_mutationRank scope.mount.mountId)
    refine (List.perm_ext_iff_of_nodup (nodup_all_virtualMutations.filter _)
      ((nodup_all_virtualMutations.filter _).filter _)).mpr fun mutation => ?_
    rw [List.mem_filter, List.mem_filter, List.mem_filter, h.rows, Bool.not_eq_true',
      and_right_comm]
  rw [ProjectionStateFacts.load, hlisted, List.filter_comm]
  rfl

section Groups

variable {κ : Type} [DecidableEq κ] [Ranked κ] {key : VirtualMutationRecord → Option κ}
  {facts facts' : ProjectionStateFacts}

def membersOf (key : VirtualMutationRecord → Option κ) (facts : ProjectionStateFacts) (found : κ) :
    List VirtualMutationRecord :=
  facts.mutations.filter fun mutation => decide (key mutation = some found)

theorem sharedGroups_eq : sharedGroups facts key =
    (((facts.mutations.filterMap key).dedup.insertionSort fun left right =>
        Ranked.rank left ≤ Ranked.rank right).filter
      fun found => decide (1 < (membersOf key facts found).length)).map
        fun found => (found, membersOf key facts found) := by
  rw [sharedGroups, mutationsBy, List.filter_map]
  rfl

/-- Members that are removed have no other member in their group. -/
def Alone (key : VirtualMutationRecord → Option κ) (facts : ProjectionStateFacts)
    (removed : VirtualMutationRecord → Bool) : Prop :=
  ∀ mutation ∈ facts.mutations, removed mutation = true →
    ∀ other ∈ facts.mutations, ∀ found, key mutation = some found → key other = some found →
      other = mutation

omit [Ranked κ] in
theorem membersOf_filter (hdistinct : facts.mutations.Nodup)
    (hmutations : facts'.mutations = facts.mutations.filter fun mutation => !removed mutation)
    (halone : Alone key facts removed) {found : κ}
    (hlength : 1 < (membersOf key facts found).length) :
    membersOf key facts' found = membersOf key facts found := by
  have hfilter : membersOf key facts' found =
      (membersOf key facts found).filter fun mutation => !removed mutation := by
    rw [membersOf, hmutations]
    exact List.filter_comm _ _ _
  rw [hfilter, List.filter_eq_self]
  intro mutation hmem
  rw [Bool.not_eq_true']
  by_contra hremoved
  rw [Bool.not_eq_false] at hremoved
  obtain ⟨hmutation, hkey⟩ := List.mem_filter.mp hmem
  have hsame : ∀ other ∈ membersOf key facts found, other = mutation := by
    intro other hother
    obtain ⟨hother, hkey'⟩ := List.mem_filter.mp hother
    exact halone mutation hmutation hremoved other hother found (of_decide_eq_true hkey)
      (of_decide_eq_true hkey')
  have hnodup : (membersOf key facts found).Nodup := hdistinct.filter _
  rw [List.eq_replicate_of_mem hsame, List.nodup_replicate] at hnodup
  omega

/-- Groups stay where only members without others are removed. -/
theorem sharedGroups_filter (hdistinct : facts.mutations.Nodup)
    (hmutations : facts'.mutations = facts.mutations.filter fun mutation => !removed mutation)
    (halone : Alone key facts removed) : sharedGroups facts' key = sharedGroups facts key := by
  have hsublist : facts'.mutations.Sublist facts.mutations := hmutations ▸ List.filter_sublist
  have hlonger : ∀ found, 1 < (membersOf key facts' found).length →
      1 < (membersOf key facts found).length := by
    intro found hlength
    exact Nat.lt_of_lt_of_le hlength (hsublist.filter _).length_le
  have hnodup : ∀ facts : ProjectionStateFacts,
      ((facts.mutations.filterMap key).dedup.map Ranked.rank).Nodup := by
    intro facts
    exact (List.nodup_map_iff Ranked.rank_injective).mpr (List.nodup_dedup _)
  have hkeys : ((facts'.mutations.filterMap key).dedup.insertionSort fun left right =>
        Ranked.rank left ≤ Ranked.rank right).filter
          (fun found => decide (1 < (membersOf key facts' found).length)) =
      ((facts.mutations.filterMap key).dedup.insertionSort fun left right =>
        Ranked.rank left ≤ Ranked.rank right).filter
          fun found => decide (1 < (membersOf key facts found).length) := by
    rw [filter_insertionSort _ (hnodup facts'), filter_insertionSort _ (hnodup facts)]
    refine insertionSort_eq_of_perm ?_ ((List.filter_sublist.map _).nodup (hnodup facts'))
    refine (List.perm_ext_iff_of_nodup ((List.nodup_dedup _).filter _)
      ((List.nodup_dedup _).filter _)).mpr fun found => ?_
    rw [List.mem_filter, List.mem_filter, List.mem_dedup, List.mem_dedup, List.mem_filterMap,
      List.mem_filterMap, decide_eq_true_eq, decide_eq_true_eq]
    constructor
    · rintro ⟨⟨member, hmem, hkey⟩, hlength⟩
      exact ⟨⟨member, hsublist.subset hmem, hkey⟩, hlonger found hlength⟩
    · rintro ⟨-, hlength⟩
      rw [membersOf_filter hdistinct hmutations halone hlength]
      refine ⟨?_, hlength⟩
      obtain ⟨member, hmem⟩ := List.exists_mem_of_length_pos (Nat.lt_trans Nat.zero_lt_one hlength)
      rw [← membersOf_filter hdistinct hmutations halone hlength] at hmem
      obtain ⟨hmem, hkey⟩ := List.mem_filter.mp hmem
      exact ⟨member, hmem, of_decide_eq_true hkey⟩
  rw [sharedGroups_eq, sharedGroups_eq, hkeys]
  refine List.map_congr_left fun found hfound => ?_
  rw [membersOf_filter hdistinct hmutations halone
    (of_decide_eq_true (List.mem_filter.mp hfound).2)]

end Groups

/-- Whether a step is left behind a removal. -/
def keptStep (removed : VirtualMutationRecord → Bool) : PlanStep → Bool
  | .item _ row => !removed row
  | _ => true

theorem keptStep_of_isBlock {step : PlanStep} (h : step.isBlock = true) :
    keptStep removed step = true := by
  cases step with
  | block names => rfl
  | item name row => exact nomatch h
  | fault name error => rfl

/-- Steps of members that are removed where these have only steps that are. -/
theorem flatMap_filter_removed {stepsOf : VirtualMutationRecord → List PlanStep}
    {members : List VirtualMutationRecord}
    (hkept : ∀ member ∈ members, removed member = false →
      ∀ step ∈ stepsOf member, keptStep removed step = true)
    (hremoved : ∀ member ∈ members, removed member = true →
      ∀ step ∈ stepsOf member, keptStep removed step = false) :
    (members.filter fun member => !removed member).flatMap stepsOf =
      (members.flatMap stepsOf).filter (keptStep removed) := by
  induction members with
  | nil => rfl
  | cons member members ih =>
      obtain ⟨hfirst, hkept⟩ := List.forall_mem_cons.mp hkept
      obtain ⟨hfirst', hremoved⟩ := List.forall_mem_cons.mp hremoved
      rw [List.flatMap_cons, List.filter_append, ← ih hkept hremoved]
      cases hcase : removed member with
      | true =>
          have hnone : (stepsOf member).filter (keptStep removed) = [] := by
            refine List.filter_eq_nil_iff.mpr fun step hstep => ?_
            rw [hfirst' hcase step hstep]
            exact Bool.false_ne_true
          have hskip : (member :: members).filter (fun member => !removed member) =
              members.filter fun member => !removed member :=
            List.filter_cons_of_neg (by rw [hcase]; exact Bool.false_ne_true)
          rw [hskip, hnone, List.nil_append]
      | false =>
          have htake : (member :: members).filter (fun member => !removed member) =
              member :: members.filter fun member => !removed member :=
            List.filter_cons_of_pos (by rw [hcase]; rfl)
          rw [htake, List.flatMap_cons, List.filter_eq_self.mpr (hfirst hcase)]

/-- What may be removed from a scope: repairs that share no claim. -/
structure Removable (yaml : YamlSerde) (host : ProjectionHost) (store : ProjectionStore)
    (stateRoot : Option PathBuf) (scope : ProjectionStateScope)
    (removed : VirtualMutationRecord → Bool) : Prop where
  repairs : ∀ mutation ∈ (ProjectionStateFacts.load store scope).mutations,
    removed mutation = true →
      repairStep mutation ∈ scopeSteps yaml host store stateRoot scope
  unclaimed : ∀ mutation, removed mutation = true →
    ∀ other ∈ store.virtualMutations.all, ¬ SharesClaim mutation other

theorem Removable.alone {κ : Type} [DecidableEq κ] {key : VirtualMutationRecord → Option κ}
    (h : Removable yaml host store stateRoot scope removed)
    (hkey : ∀ mutation other found, key mutation = some found → key other = some found →
      other.projectedPath = mutation.projectedPath ∨ ∃ remoteId,
        mutation.targetRemoteId = some remoteId ∧ other.targetRemoteId = some remoteId) :
    Alone key (ProjectionStateFacts.load store scope) removed := by
  intro mutation hmem hremoved other hother found hfound hfound'
  by_contra hne
  obtain ⟨-, hmount, -⟩ := mountId_of_mem_load hmem
  obtain ⟨hstored, hmount', -⟩ := mountId_of_mem_load hother
  exact h.unclaimed mutation hremoved other hstored
    ⟨hmount'.trans hmount.symm, hne, hkey mutation other found hfound hfound'⟩

section Entities

variable {mount : MountConfig} {facts facts' : ProjectionStateFacts}

theorem missingSteps_congr (h : facts'.entities = facts.entities) :
    missingSteps mount facts' = missingSteps mount facts := by
  funext mutation
  unfold missingSteps ProjectionStateFacts.entityByPath ProjectionStateFacts.entityById
  rw [h]

theorem losslessSteps_congr (h : facts'.entities = facts.entities) :
    losslessSteps yaml host mount facts' = losslessSteps yaml host mount facts := by
  funext mutation
  unfold losslessSteps ProjectionStateFacts.entityByPath ProjectionStateFacts.entityById
  rw [h]

theorem collisionSteps_congr (h : facts'.entities = facts.entities) :
    collisionSteps yaml host stateRoot mount facts' =
      collisionSteps yaml host stateRoot mount facts := by
  funext mutation
  unfold collisionSteps ProjectionStateFacts.entityByPath
  rw [h]

end Entities

/-- The steps of a member whose repair is among them. -/
theorem repairStep_only {facts : ProjectionStateFacts} {mount : MountConfig}
    (h : mutation.mutationKind = .delete ∧
        losslessSteps yaml host mount facts mutation = [repairStep mutation] ∨
      mutation.mutationKind = .create ∧
        (facts.entityByPath mutation.projectedPath).isSome = true ∧
        collisionSteps yaml host stateRoot mount facts mutation = [repairStep mutation]) :
    missingSteps mount facts mutation = [] ∧
      (∀ step ∈ losslessSteps yaml host mount facts mutation, step = repairStep mutation) ∧
      ∀ step ∈ collisionSteps yaml host stateRoot mount facts mutation,
        step = repairStep mutation := by
  obtain ⟨hkind, hrepair⟩ | ⟨hkind, hentity, hrepair⟩ := h
  · refine ⟨(missingSteps_cases mount facts mutation).resolve_right fun h => h.1 hkind, ?_, ?_⟩
    · rw [hrepair]
      exact fun step h => List.mem_singleton.mp h
    · obtain hnone | ⟨hcreate, -⟩ := collisionSteps_cases yaml host stateRoot mount facts mutation
      · rw [hnone]
        exact fun step h => (nomatch h)
      · exact nomatch hkind.symm.trans hcreate
  · refine ⟨(missingSteps_cases mount facts mutation).resolve_right fun h => ?_, ?_, ?_⟩
    · exact nomatch hentity.symm.trans (h.2.1 hkind)
    · obtain hnone | ⟨hdelete, -⟩ | ⟨-, hcreate, -⟩ :=
        losslessSteps_cases yaml host mount facts mutation
      · rw [hnone]
        exact fun step h => (nomatch h)
      · exact nomatch hkind.symm.trans hdelete
      · exact absurd hkind hcreate
    · rw [hrepair]
      exact fun step h => List.mem_singleton.mp h

/-- The steps of a scope behind a removal are those before it without the removed repairs. -/
theorem scopeSteps_without (h : Without store store' removed)
    (hremovable : Removable yaml host store stateRoot scope removed) :
    scopeSteps yaml host store' stateRoot scope =
      (scopeSteps yaml host store stateRoot scope).filter (keptStep removed) := by
  have hentities : (ProjectionStateFacts.load store' scope).entities =
      (ProjectionStateFacts.load store scope).entities := by
    rw [ProjectionStateFacts.load, ProjectionStore.listEntities, h.entities]
    rfl
  have hmutations := h.mutations scope
  have hgroups : groupSteps (ProjectionStateFacts.load store' scope) =
      groupSteps (ProjectionStateFacts.load store scope) := by
    rw [groupSteps, sharedGroups_filter nodup_mutations hmutations (hremovable.alone ?_),
      sharedGroups_filter nodup_mutations hmutations (hremovable.alone ?_)]
    · rfl
    · exact fun mutation other found hkey hkey' => Or.inr ⟨found, hkey, hkey'⟩
    · rintro mutation other found hkey hkey'
      exact Or.inl (Option.some_inj.mp (hkey'.trans hkey.symm))
  -- A removed mutation has its repair among the steps of its kind, and no other step.
  have hsteps : ∀ mutation ∈ (ProjectionStateFacts.load store scope).mutations,
      removed mutation = true →
        missingSteps scope.mount (.load store scope) mutation = [] ∧
        (∀ step ∈ losslessSteps yaml host scope.mount (.load store scope) mutation,
          step = repairStep mutation) ∧
        ∀ step ∈ collisionSteps yaml host stateRoot scope.mount (.load store scope) mutation,
          step = repairStep mutation := by
    intro mutation hmem hremoved
    exact repairStep_only (item_mem_scopeSteps (hremovable.repairs mutation hmem hremoved)).2.2
  have hkept : ∀ mutation, removed mutation = false → keptStep removed (repairStep mutation) = true :=
    fun mutation h => by rw [repairStep, keptStep, h]; rfl
  have hdropped : ∀ mutation, removed mutation = true →
      keptStep removed (repairStep mutation) = false :=
    fun mutation h => by rw [repairStep, keptStep, h]; rfl
  have hblocks : (groupSteps (ProjectionStateFacts.load store scope)).filter (keptStep removed) =
      groupSteps (ProjectionStateFacts.load store scope) :=
    List.filter_eq_self.mpr fun step h => keptStep_of_isBlock (groupSteps_isBlock h)
  have hmissing : ∀ member ∈ (ProjectionStateFacts.load store scope).mutations,
      ∀ step ∈ missingSteps scope.mount (.load store scope) member,
        keptStep removed step = true := by
    intro member hmem step hstep
    obtain hnone | ⟨-, -, hconflict⟩ := missingSteps_cases scope.mount (.load store scope) member
    · rw [hnone] at hstep
      cases hstep
    · rw [hconflict] at hstep
      rw [List.mem_singleton.mp hstep]
      rfl
  have hlossless : ∀ member ∈ (ProjectionStateFacts.load store scope).mutations,
      removed member = false →
        ∀ step ∈ losslessSteps yaml host scope.mount (.load store scope) member,
          keptStep removed step = true := by
    intro member hmem hremoved step hstep
    obtain hnone | ⟨-, hrepair⟩ | ⟨-, -, hconflict⟩ :=
      losslessSteps_cases yaml host scope.mount (.load store scope) member
    · rw [hnone] at hstep
      cases hstep
    · rw [hrepair] at hstep
      rw [List.mem_singleton.mp hstep]
      exact hkept member hremoved
    · rw [hconflict] at hstep
      rw [List.mem_singleton.mp hstep]
      rfl
  have hcollision : ∀ member ∈ (ProjectionStateFacts.load store scope).mutations,
      removed member = false →
        ∀ step ∈ collisionSteps yaml host stateRoot scope.mount (.load store scope) member,
          keptStep removed step = true := by
    intro member hmem hremoved step hstep
    obtain hnone | ⟨-, -, hrepair | hconflict | ⟨error, hfault⟩⟩ :=
      collisionSteps_cases yaml host stateRoot scope.mount (.load store scope) member
    · rw [hnone] at hstep
      cases hstep
    · rw [hrepair] at hstep
      rw [List.mem_singleton.mp hstep]
      exact hkept member hremoved
    · rw [hconflict] at hstep
      rw [List.mem_singleton.mp hstep]
      rfl
    · rw [hfault] at hstep
      rw [List.mem_singleton.mp hstep]
      rfl
  rw [scopeSteps, scopeSteps, List.filter_append, List.filter_append, List.filter_append, hgroups,
    hmutations, missingSteps_congr hentities, losslessSteps_congr hentities,
    collisionSteps_congr hentities, hblocks,
    flatMap_filter_removed (fun member hmem _ => hmissing member hmem) ?_,
    flatMap_filter_removed hlossless ?_, flatMap_filter_removed hcollision ?_]
  · intro member hmem hremoved step hstep
    rw [(hsteps member hmem hremoved).2.2 step hstep]
    exact hdropped member hremoved
  · intro member hmem hremoved step hstep
    rw [(hsteps member hmem hremoved).2.1 step hstep]
    exact hdropped member hremoved
  · intro member hmem hremoved step hstep
    rw [(hsteps member hmem hremoved).1] at hstep
    cases hstep

/-- A view behind a removal. -/
theorem viewSteps_without (h : Without store store' removed)
    (hremovable : ∀ scope ∈ scopes, Removable yaml host store stateRoot scope removed) :
    viewSteps yaml host store' stateRoot scopes =
      (viewSteps yaml host store stateRoot scopes).filter (keptStep removed) := by
  rw [viewSteps, viewSteps, List.filter_flatMap]
  exact List.flatMap_congr fun scope hscope => scopeSteps_without h (hremovable scope hscope)

/-! ## Repairs of a plan -/

/-- The items of members that have at most their own. -/
theorem rows_sublist {stepsOf : VirtualMutationRecord → List PlanStep}
    {wanted : VirtualMutationRecord → Bool} {members : List VirtualMutationRecord}
    (h : ∀ member, (stepsOf member).filterMap GuardedStep.row? = [] ∨
      wanted member = true ∧ (stepsOf member).filterMap GuardedStep.row? = [member]) :
    ((members.flatMap stepsOf).filterMap GuardedStep.row?).Sublist (members.filter wanted) := by
  induction members with
  | nil => exact List.Sublist.slnil
  | cons member members ih =>
      rw [List.flatMap_cons, List.filterMap_append]
      obtain hnone | ⟨hwanted, hrow⟩ := h member
      · rw [hnone, List.nil_append]
        exact ih.trans ((List.sublist_cons_self member members).filter wanted)
      · rw [hrow, List.singleton_append, List.filter_cons_of_pos hwanted]
        exact ih.cons_cons member

def isKind (kind : VirtualMutationKind) (mutation : VirtualMutationRecord) : Bool :=
  decide (mutation.mutationKind = kind)

/-- The items of a scope are of deletes, and then of creates. -/
theorem scopeRows_sublist :
    ((scopeSteps yaml host store stateRoot scope).filterMap GuardedStep.row?).Sublist
      ((ProjectionStateFacts.load store scope).mutations.filter (isKind .delete) ++
        (ProjectionStateFacts.load store scope).mutations.filter (isKind .create)) := by
  have hgroups : (groupSteps (ProjectionStateFacts.load store scope)).filterMap
      GuardedStep.row? = [] := by
    refine List.filterMap_eq_nil_iff.mpr fun step hstep => ?_
    have hblock := groupSteps_isBlock hstep
    cases step with
    | block names => rfl
    | item name row => exact nomatch hblock
    | fault name error => rfl
  have hmissing : ((ProjectionStateFacts.load store scope).mutations.flatMap
      (missingSteps scope.mount (.load store scope))).filterMap GuardedStep.row? = [] := by
    refine List.filterMap_eq_nil_iff.mpr fun step hstep => ?_
    obtain ⟨member, -, hstep⟩ := List.mem_flatMap.mp hstep
    obtain hnone | ⟨-, -, hconflict⟩ := missingSteps_cases scope.mount (.load store scope) member
    · rw [hnone] at hstep
      exact nomatch hstep
    · rw [hconflict] at hstep
      rw [List.mem_singleton.mp hstep]
      rfl
  rw [scopeSteps, List.filterMap_append, List.filterMap_append, List.filterMap_append, hgroups,
    hmissing, List.nil_append, List.nil_append]
  refine List.Sublist.append (rows_sublist fun member => ?_) (rows_sublist fun member => ?_)
  · obtain hnone | ⟨hkind, hrepair⟩ | ⟨-, -, hconflict⟩ :=
      losslessSteps_cases yaml host scope.mount (.load store scope) member
    · exact Or.inl (by rw [hnone]; rfl)
    · exact Or.inr ⟨decide_eq_true hkind, by rw [hrepair]; rfl⟩
    · exact Or.inl (by rw [hconflict]; rfl)
  · obtain hnone | ⟨hkind, -, hrepair | hconflict | ⟨error, hfault⟩⟩ :=
      collisionSteps_cases yaml host stateRoot scope.mount (.load store scope) member
    · exact Or.inl (by rw [hnone]; rfl)
    · exact Or.inr ⟨decide_eq_true hkind, by rw [hrepair]; rfl⟩
    · exact Or.inl (by rw [hconflict]; rfl)
    · exact Or.inl (by rw [hfault]; rfl)

theorem nodup_scopeRows :
    ((scopeSteps yaml host store stateRoot scope).filterMap GuardedStep.row?).Nodup := by
  refine scopeRows_sublist.nodup (List.Nodup.append (nodup_mutations.filter _)
    (nodup_mutations.filter _) fun mutation hdelete hcreate => ?_)
  have hkind := of_decide_eq_true (List.mem_filter.mp hdelete).2
  exact nomatch hkind.symm.trans (of_decide_eq_true (List.mem_filter.mp hcreate).2)

theorem mountId_of_mem_scopeRows
    (h : mutation ∈ (scopeSteps yaml host store stateRoot scope).filterMap GuardedStep.row?) :
    mutation.mountId = scope.mount.mountId := by
  obtain h | h := List.mem_append.mp (scopeRows_sublist.subset h)
  · exact (mountId_of_mem_load (List.mem_filter.mp h).1).2.1
  · exact (mountId_of_mem_load (List.mem_filter.mp h).1).2.1

/-- The items of a view are told apart. -/
theorem nodup_viewRows (hscopes : projectionStateScopes host store target = .ok scopes) :
    ((viewSteps yaml host store stateRoot scopes).filterMap GuardedStep.row?).Nodup := by
  rw [viewSteps, List.filterMap_flatMap, List.nodup_flatMap]
  refine ⟨fun scope _ => nodup_scopeRows, ?_⟩
  have hmounts := List.pairwise_map.mp (nodup_scopes hscopes)
  refine hmounts.imp fun hne mutation hmem hmem' => ?_
  exact hne ((mountId_of_mem_scopeRows hmem).symm.trans (mountId_of_mem_scopeRows hmem'))

/-- No mutation is repaired twice. -/
theorem nodup_repairs {plan : ProjectionStatePlan}
    (hplan : planProjectionStateReconciliation yaml host store stateRoot target = .ok plan) :
    plan.repairs.Nodup := by
  cases hscopes : projectionStateScopes host store target with
  | error error =>
      rw [planProjectionStateReconciliation, hscopes] at hplan
      cases hplan
  | ok scopes =>
      obtain ⟨-, error, herror⟩ | ⟨-, found, taken, hfound, hrepairs, hopen, hsublist⟩ :=
        @plan_cases yaml host store stateRoot target scopes hscopes
      · cases hplan.symm.trans herror
      · cases hplan.symm.trans hfound
        rw [hrepairs]
        refine List.Nodup.map_on (fun mutation hmem other hother h => ?_)
          (hsublist.nodup (nodup_viewRows hscopes))
        exact (eq_of_repairFor ((hopen mutation).mp hmem).mem ((hopen other).mp hother).mem
          h.symm).symm

theorem Deletes.exists_scopes (h : Deletes yaml host store stateRoot target mutation) :
    ∃ scopes, projectionStateScopes host store target = .ok scopes ∧
      ¬ FailsIn yaml host store stateRoot scopes ∧
      OpenIn yaml host store stateRoot scopes mutation := by
  cases hscopes : projectionStateScopes host store target with
  | error error =>
      obtain ⟨hmem, hdeleted⟩ := h
      rw [reconcileProjectionStateForTarget, planProjectionStateReconciliation, hscopes]
        at hdeleted
      exact absurd hmem hdeleted
  | ok scopes => exact ⟨scopes, rfl, (deletes_iff hscopes).mp h⟩

/-! ## A second run -/

theorem deleteAll_mounts {repairs : List ProjectionStateRepair} :
    (repairs.foldl (fun store repair =>
      store.deleteVirtualMutation repair.mountId repair.localId) store).mounts = store.mounts := by
  induction repairs generalizing store with
  | nil => rfl
  | cons repair repairs ih => exact ih

theorem deleteAll_entities {repairs : List ProjectionStateRepair} :
    (repairs.foldl (fun store repair =>
      store.deleteVirtualMutation repair.mountId repair.localId) store).entities =
        store.entities := by
  induction repairs generalizing store with
  | nil => rfl
  | cons repair repairs ih => exact ih

/-- What a reconciliation leaves of a store. -/
theorem without_reconcile :
    Without store (reconcileProjectionStateForTarget yaml host store stateRoot target).2
      fun mutation => decide (Deletes yaml host store stateRoot target mutation) := by
  have htables : (reconcileProjectionStateForTarget yaml host store stateRoot target).2.mounts =
      store.mounts ∧
      (reconcileProjectionStateForTarget yaml host store stateRoot target).2.entities =
        store.entities ∧
      ∀ mutation, mutation ∈ (reconcileProjectionStateForTarget yaml host store stateRoot
        target).2.virtualMutations.all → mutation ∈ store.virtualMutations.all := by
    rw [reconcileProjectionStateForTarget]
    cases planProjectionStateReconciliation yaml host store stateRoot target with
    | error error => exact ⟨rfl, rfl, fun mutation h => h⟩
    | ok plan =>
        exact ⟨deleteAll_mounts, deleteAll_entities, fun mutation h => (mem_deleteAll.mp h).1⟩
  obtain ⟨hmounts, hentities, hrows⟩ := htables
  refine ⟨hmounts, hentities, fun mutation => ?_⟩
  rw [decide_eq_false_iff_not, Deletes, not_and, not_not]
  exact ⟨fun h => ⟨hrows mutation h, fun _ => h⟩, fun h => h.2 h.1⟩

/-- The scopes of a target are a matter of the mounts. -/
theorem scopes_without (h : Without store store' removed) :
    projectionStateScopes host store' target = projectionStateScopes host store target := by
  unfold projectionStateScopes
  rw [h.mounts]

theorem removable_deletes (hscopes : projectionStateScopes host store target = .ok scopes)
    (hunclaimed : ∀ mutation, Deletes yaml host store stateRoot target mutation →
      ∀ other ∈ store.virtualMutations.all, ¬ SharesClaim mutation other)
    (hscope : scope ∈ scopes) : Removable yaml host store stateRoot scope
      fun mutation => decide (Deletes yaml host store stateRoot target mutation) := by
  constructor
  · intro mutation hmem hdeletes
    obtain ⟨-, hopen⟩ := (deletes_iff hscopes).mp (of_decide_eq_true hdeletes)
    obtain ⟨scope', hscope', hmem', h⟩ := hopen.exists_scope
    obtain rfl := scope_eq_of_mountId hscopes hscope hscope'
      ((mountId_of_mem_load hmem).2.1.symm.trans (mountId_of_mem_load hmem').2.1)
    exact h.mem
  · exact fun mutation h => hunclaimed mutation (of_decide_eq_true h)

/-- Where what is deleted shares no claim, nothing is open in the view afterwards, unless the
view fails. -/
theorem settled_of_unclaimed (hunclaimed : ∀ mutation,
      Deletes yaml host store stateRoot target mutation →
        ∀ other ∈ store.virtualMutations.all, ¬ SharesClaim mutation other)
    {report : ProjectionStateReconcileReport}
    (hreport : (reconcileProjectionStateForTarget yaml host
      (reconcileProjectionStateForTarget yaml host store stateRoot target).2 stateRoot target).1 =
        .ok report) : report.repaired = 0 := by
  have hwithout := @without_reconcile yaml host store stateRoot target
  generalize hstore' :
    (reconcileProjectionStateForTarget yaml host store stateRoot target).2 = store'
    at hwithout hreport
  cases hplan : planProjectionStateReconciliation yaml host store' stateRoot target with
  | error error =>
      rw [reconcileProjectionStateForTarget, hplan] at hreport
      cases hreport
  | ok plan =>
      rw [reconcileProjectionStateForTarget, hplan] at hreport
      cases hreport
      cases hscopes : projectionStateScopes host store target with
      | error error =>
          rw [planProjectionStateReconciliation, scopes_without hwithout, hscopes] at hplan
          cases hplan
      | ok scopes =>
          have hscopes' := (scopes_without hwithout).trans hscopes
          obtain ⟨-, error, herror⟩ | ⟨-, found, taken, hfound, hrepairs, hopen, -⟩ :=
            @plan_cases yaml host store' stateRoot target scopes hscopes'
          · cases hplan.symm.trans herror
          cases hplan.symm.trans hfound
          cases taken with
          | nil => exact congrArg List.length hrepairs
          | cons mutation taken =>
              have hfirst := (hopen mutation).mp List.mem_cons_self
              have hkept := of_decide_eq_false ((hwithout.rows mutation).mp hfirst.mem).2
              rw [OpenIn, viewSteps_without hwithout fun scope hscope =>
                removable_deletes hscopes hunclaimed hscope] at hfirst
              have hbefore : OpenIn yaml host store stateRoot scopes mutation :=
                hfirst.of_filter fun step => keptStep_of_isBlock
              refine absurd ((deletes_iff hscopes).mpr ⟨fun hfails => ?_, hbefore⟩) hkept
              -- A view that fails changes nothing, and fails again.
              obtain ⟨-, error, herror⟩ | ⟨hgood, -⟩ :=
                @plan_cases yaml host store stateRoot target scopes hscopes
              · rw [reconcileProjectionStateForTarget, herror] at hstore'
                subst hstore'
                cases hplan.symm.trans herror
              · exact hgood hfails

/-! ## Targets -/

/-- What is repaired in a view is repaired in that of all mounts, where no conflict names
it. -/
theorem OpenIn.repair_mem (h : OpenIn yaml host store stateRoot scopes mutation)
    (hscopes : projectionStateScopes host store target = .ok scopes) :
    repairStep mutation ∈ viewSteps yaml host store stateRoot (allScopes store) := by
  obtain ⟨scope, hscope, hmem, hreaches⟩ := h.exists_scope
  obtain ⟨hstored, hmount, -⟩ := mountId_of_mem_load hmem
  have hlisted : scope.mount ∈ store.mounts.all :=
    (mounts_sublist hscopes).subset (List.mem_map_of_mem hscope)
  have hentities : (ProjectionStateFacts.load store ⟨scope.mount, .all⟩).entities =
      (ProjectionStateFacts.load store scope).entities := rfl
  have hall : mutation ∈ (ProjectionStateFacts.load store ⟨scope.mount, .all⟩).mutations :=
    mem_load_mutations hstored hmount.symm rfl
  refine List.mem_flatMap.mpr ⟨⟨scope.mount, .all⟩, List.mem_map_of_mem hlisted, ?_⟩
  refine List.mem_append_right _ (List.mem_append_right _ (List.mem_append.mpr ?_))
  obtain ⟨-, -, ⟨-, hrepair⟩ | ⟨-, -, hrepair⟩⟩ := item_mem_scopeSteps hreaches.mem
  · refine Or.inl (List.mem_flatMap.mpr ⟨mutation, hall, ?_⟩)
    rw [losslessSteps_congr hentities, hrepair]
    exact List.mem_singleton.mpr rfl
  · refine Or.inr (List.mem_flatMap.mpr ⟨mutation, hall, ?_⟩)
    rw [collisionSteps_congr hentities, hrepair]
    exact List.mem_singleton.mpr rfl

/-- A step with an item comes once where items are told apart. -/
theorem notMem_of_nodup_rows {front back : List PlanStep}
    (hrows : ((front ++ repairStep mutation :: back).filterMap GuardedStep.row?).Nodup) :
    repairStep mutation ∉ front ∧ repairStep mutation ∉ back := by
  have hrow : (repairStep mutation :: back).filterMap GuardedStep.row? =
      mutation :: back.filterMap GuardedStep.row? := rfl
  rw [List.filterMap_append, hrow] at hrows
  have hrest := List.nodup_cons.mp hrows.of_append_right
  constructor
  · intro hmem
    exact (List.disjoint_of_nodup_append hrows) (List.mem_filterMap.mpr ⟨_, hmem, rfl⟩)
      List.mem_cons_self
  · exact fun hmem => hrest.1 (List.mem_filterMap.mpr ⟨_, hmem, rfl⟩)

theorem OpenIn.not_namedIn (h : OpenIn yaml host store stateRoot scopes mutation)
    (hscopes : projectionStateScopes host store target = .ok scopes) :
    ¬ NamedIn yaml host store stateRoot scopes mutation := by
  rintro ⟨front, back, names, hsteps, hblock, hname⟩
  obtain ⟨front', back', hsteps', hopen⟩ := h
  have hrows := @nodup_viewRows yaml host store stateRoot target scopes hscopes
  rw [hsteps] at hrows
  obtain ⟨hfront, hback⟩ := notMem_of_nodup_rows hrows
  obtain ⟨rfl, -⟩ := (List.append_cons_inj_of_notMem hfront hback).mp (hsteps.symm.trans hsteps')
  exact hopen names hblock hname

theorem not_namedIn_allScopes (h : OpenIn yaml host store stateRoot (allScopes store) mutation) :
    ¬ NamedIn yaml host store stateRoot (allScopes store) mutation :=
  @OpenIn.not_namedIn yaml host store stateRoot none _ _ h rfl

theorem openIn_of_not_namedIn
    (hmem : repairStep mutation ∈ viewSteps yaml host store stateRoot scopes)
    (h : ¬ NamedIn yaml host store stateRoot scopes mutation) :
    OpenIn yaml host store stateRoot scopes mutation := by
  obtain ⟨front, back, hsteps⟩ := List.append_of_mem hmem
  exact ⟨front, back, hsteps, fun names hblock hname => h ⟨front, back, names, hsteps, hblock, hname⟩⟩

section Sample

def pendingMount : MountConfig where
  mountId := ⟨"notes".toList⟩
  connector := "notion".toList
  root := ⟨true, ["notes".toList]⟩
  remoteRootId := none
  projection := .linuxFuse

def pendingOf (localId : String) (kind : VirtualMutationKind) (directory : String) :
    VirtualMutationRecord where
  mountId := pendingMount.mountId
  localId := localId.toList
  mutationKind := kind
  targetRemoteId := some ⟨"page-1".toList⟩
  parentRemoteId := none
  originalPath := some (.relative ["Roadmap".toList, "page.md".toList])
  projectedPath := .relative [directory.toList, "page.md".toList]
  title := "Roadmap".toList
  contentPath := none
  createdAt := []
  updatedAt := []

def pendingDelete : VirtualMutationRecord := pendingOf "delete:page-1" .delete "Roadmap"

def pendingRename : VirtualMutationRecord := pendingOf "rename:page-1" .rename "Renamed"

/-- The page is gone from the entities, and both mutations of it are pending. -/
def pendingStore : ProjectionStore where
  mounts := RankedTable.empty.put pendingMount
  entities := .empty
  virtualMutations := (RankedTable.empty.put pendingDelete).put pendingRename

/-- A host without files. -/
def emptyHost : ProjectionHost where
  contents := fun _ => none
  isDir := fun _ => false
  canonicalize := some
  currentDir := .ok ⟨true, []⟩
  contentRootOverride := none

def pendingTarget : PathBuf := pendingMount.root.join pendingDelete.projectedPath

end Sample

end Locality.Daemon
