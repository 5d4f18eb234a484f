/-
  Core/DiffWellFormed.lean --- the plan of a block diff is well formed against the
  shadow it was made from.

  `keptShadow` is the source's own split of the shadow: matched, and not written anew
  by the loop.  `PlanWellFormed` says what the plan does with either half and where it
  anchors; each field is a count or a membership over the steps of the loop, proved
  for one step and then for the list of them.
-/
import Locality.Core.DiffSteps

set_option autoImplicit false

namespace Locality.Core

/-! ## What an operation names -/

namespace PushOperation

/-- The operation rewrites the block. -/
def rewrites (blockId : RemoteId) : PushOperation → Bool
  | updateBlock id _ | replaceBlock id _ => decide (id = blockId)
  | _ => false

def archives (blockId : RemoteId) : PushOperation → Bool
  | archiveBlock id => decide (id = blockId)
  | _ => false

def appends : PushOperation → Bool
  | appendBlock _ _ _ => true
  | _ => false

/-- The block that the operation inserts behind. -/
def anchor : PushOperation → Option RemoteId
  | appendBlock _ after _ | moveBlock _ after => after
  | _ => none

end PushOperation

/-! ## Well-formed plans -/

/-- The shadow blocks that are matched and not recreated: those that `plan_block_diff`
does not archive. -/
def keptShadow (shadow : ShadowDocument) (editedBlocks : List SegmentedBlock) : List Nat :=
  let pairing := (alignBlocks shadow editedBlocks).1.pairing
  let recreated := (emitBlocks shadow editedBlocks pairing).2.recreatedShadow
  (List.range shadow.blocks.length).filter fun s =>
    decide (s ∈ retainedShadow pairing) && !decide (s ∈ recreated)

/-- The operations that the loop emits for every edited block. -/
def emittedOperations (shadow : ShadowDocument) (editedBlocks : List SegmentedBlock) :
    List (List PushOperation) :=
  (emitBlocks shadow editedBlocks (alignBlocks shadow editedBlocks).1.pairing).1

structure PlanWellFormed (shadow : ShadowDocument) (editedBlocks : List SegmentedBlock)
    (operations : List PushOperation) : Prop where
  /-- No shadow block is matched to two edited blocks. -/
  injective : ∀ e e' s, (alignBlocks shadow editedBlocks).1.matchOf e = some s →
    (alignBlocks shadow editedBlocks).1.matchOf e' = some s → e = e'
  /-- A block is archived once if it is not kept, and not at all if it is. -/
  archivedUnlessKept : ∀ (s : Nat) (block : ShadowBlock), shadow.blocks[s]? = some block →
    operations.countP (PushOperation.archives block.remoteId) =
      if s ∈ keptShadow shadow editedBlocks then 0 else 1
  rewrittenOnce : ∀ (s : Nat) (block : ShadowBlock), shadow.blocks[s]? = some block →
    operations.countP (PushOperation.rewrites block.remoteId) ≤ 1
  /-- What is archived is not rewritten. -/
  rewrittenIfKept : ∀ (s : Nat) (block : ShadowBlock), shadow.blocks[s]? = some block →
    s ∉ keptShadow shadow editedBlocks →
    operations.countP (PushOperation.rewrites block.remoteId) = 0
  appended : operations.countP PushOperation.appends +
    (keptShadow shadow editedBlocks).length = editedBlocks.length
  /-- Only the operations of an edited block have an anchor. -/
  anchoredByLoop : ∀ operation ∈ operations, operation.anchor.isSome →
    operation ∈ (emittedOperations shadow editedBlocks).flatten
  emittedForEach : (emittedOperations shadow editedBlocks).length = editedBlocks.length
  /-- The anchor of an operation for an edited block is a kept block that an earlier
  edited block is matched to. -/
  anchored : ∀ e emitted, (emittedOperations shadow editedBlocks)[e]? = some emitted →
    ∀ operation ∈ emitted, ∀ after, operation.anchor = some after →
      ∃ e' s, e' < e ∧ (alignBlocks shadow editedBlocks).1.matchOf e' = some s ∧
        s ∈ keptShadow shadow editedBlocks ∧ blockIdAt shadow s = some after

/-! ## One step -/

section Step

variable {shadow : ShadowDocument}

theorem contentOperations_cases (shadowBlock : ShadowBlock) (editedBlock : SegmentedBlock) :
    contentOperations shadowBlock editedBlock = [] ∨
      contentOperations shadowBlock editedBlock =
        [.updateBlock shadowBlock.remoteId editedBlock.text] ∨
      contentOperations shadowBlock editedBlock =
        [.replaceBlock shadowBlock.remoteId editedBlock.text] := by
  unfold contentOperations
  split
  · exact Or.inr (Or.inr rfl)
  · split
    · exact Or.inr (Or.inl rfl)
    · exact Or.inl rfl

theorem countP_contentOperations_of_eq_false {p : PushOperation → Bool}
    (shadowBlock : ShadowBlock) (editedBlock : SegmentedBlock)
    (hupdate : ∀ content, p (.updateBlock shadowBlock.remoteId content) = false)
    (hreplace : ∀ content, p (.replaceBlock shadowBlock.remoteId content) = false) :
    (contentOperations shadowBlock editedBlock).countP p = 0 := by
  rcases contentOperations_cases shadowBlock editedBlock with h | h | h <;>
    simp [h, hupdate, hreplace]

theorem countP_rewrites_contentOperations_le (shadowBlock : ShadowBlock)
    (editedBlock : SegmentedBlock) (id : RemoteId) :
    (contentOperations shadowBlock editedBlock).countP (PushOperation.rewrites id) ≤
      if shadowBlock.remoteId = id then 1 else 0 := by
  rcases contentOperations_cases shadowBlock editedBlock with h | h | h
  · simp [h]
  · rw [h]
    by_cases hid : shadowBlock.remoteId = id <;> simp [PushOperation.rewrites, hid]
  · rw [h]
    by_cases hid : shadowBlock.remoteId = id <;> simp [PushOperation.rewrites, hid]

/-- A step that keeps no block appends one; a step that keeps one moves it or not, and
may rewrite it. -/
theorem PlanStep.operations_cases (step : PlanStep) (shadow : ShadowDocument) :
    (step.fate.kept = none ∧ step.operations shadow =
        [.appendBlock shadow.entityId (step.anchor.bind (blockIdAt shadow)) step.block.text]) ∨
      ∃ t, step.fate.kept = some t ∧
        (step.operations shadow = [] ∨
          ∃ other moves, shadow.blocks[t]? = some other ∧
            (moves = [] ∨
              moves = [.moveBlock other.remoteId (step.anchor.bind (blockIdAt shadow))]) ∧
            step.operations shadow = moves ++ contentOperations other step.block) := by
  obtain ⟨fate, anchor, block⟩ := step
  cases fate with
  | fresh => exact Or.inl ⟨rfl, rfl⟩
  | recreated t => exact Or.inl ⟨rfl, rfl⟩
  | moved t =>
      refine Or.inr ⟨t, rfl, ?_⟩
      cases hget : shadow.blocks[t]? with
      | none => exact Or.inl (by simp [PlanStep.operations, hget])
      | some other =>
          exact Or.inr ⟨other, _, rfl, Or.inr rfl, by simp [PlanStep.operations, hget]⟩
  | stayed t =>
      refine Or.inr ⟨t, rfl, ?_⟩
      cases hget : shadow.blocks[t]? with
      | none => exact Or.inl (by simp [PlanStep.operations, hget])
      | some other =>
          exact Or.inr ⟨other, [], rfl, Or.inl rfl, by simp [PlanStep.operations, hget]⟩

/-- A step rewrites only the block that it keeps. -/
theorem PlanStep.countP_rewrites_le (hids : shadow.DistinctIds) {s : Nat} {block : ShadowBlock}
    (hget : shadow.blocks[s]? = some block) (step : PlanStep) :
    (step.operations shadow).countP (PushOperation.rewrites block.remoteId) ≤
      if step.fate.kept = some s then 1 else 0 := by
  rcases step.operations_cases shadow with
    ⟨hkept, hops⟩ | ⟨t, hkept, hops | ⟨other, moves, hother, hmoves, hops⟩⟩
  · simp [hops, PushOperation.rewrites]
  · simp [hops]
  · have hnone : moves.countP (PushOperation.rewrites block.remoteId) = 0 := by
      rcases hmoves with rfl | rfl <;> rfl
    have hle := countP_rewrites_contentOperations_le other step.block block.remoteId
    have himp : other.remoteId = block.remoteId → t = s := by
      intro heq
      apply blockIdAt_inj hids (blockIdAt_eq hother)
      rw [heq]
      exact blockIdAt_eq hget
    rw [hops, List.countP_append, hnone, Nat.zero_add, hkept]
    split at hle
    · rename_i heq
      rw [himp heq, if_pos rfl]
      exact hle
    · exact Nat.le_trans hle (Nat.zero_le _)

theorem PlanStep.countP_archives (step : PlanStep) (id : RemoteId) :
    (step.operations shadow).countP (PushOperation.archives id) = 0 := by
  rcases step.operations_cases shadow with
    ⟨hkept, hops⟩ | ⟨t, hkept, hops | ⟨other, moves, hother, hmoves, hops⟩⟩
  · simp [hops, PushOperation.archives]
  · simp [hops]
  · have hnone : moves.countP (PushOperation.archives id) = 0 := by
      rcases hmoves with rfl | rfl <;> rfl
    rw [hops, List.countP_append, hnone, Nat.zero_add]
    exact countP_contentOperations_of_eq_false other step.block (fun _ => rfl) (fun _ => rfl)

/-- A step appends a block exactly when it keeps none. -/
theorem PlanStep.countP_appends (step : PlanStep) :
    (step.operations shadow).countP PushOperation.appends +
      step.fate.kept.toList.length = 1 := by
  rcases step.operations_cases shadow with
    ⟨hkept, hops⟩ | ⟨t, hkept, hops | ⟨other, moves, hother, hmoves, hops⟩⟩
  · simp [hops, hkept, PushOperation.appends]
  · simp [hops, hkept]
  · have hnone : moves.countP PushOperation.appends = 0 := by
      rcases hmoves with rfl | rfl <;> rfl
    have hcontent := countP_contentOperations_of_eq_false (p := PushOperation.appends) other
      step.block (fun _ => rfl) (fun _ => rfl)
    rw [hops, List.countP_append, hnone, hcontent, hkept]
    rfl

theorem PlanStep.anchor_of_mem {step : PlanStep} {operation : PushOperation} {after : RemoteId}
    (hmem : operation ∈ step.operations shadow) (h : operation.anchor = some after) :
    step.anchor.bind (blockIdAt shadow) = some after := by
  rcases step.operations_cases shadow with
    ⟨hkept, hops⟩ | ⟨t, hkept, hops | ⟨other, moves, hother, hmoves, hops⟩⟩
  · rw [hops, List.mem_singleton] at hmem
    rw [hmem] at h
    exact h
  · simp [hops] at hmem
  · rw [hops, List.mem_append] at hmem
    rcases hmem with hmove | hcontent
    · rcases hmoves with rfl | rfl
      · cases hmove
      · rw [List.mem_singleton.mp hmove] at h
        exact h
    · rcases contentOperations_cases other step.block with hc | hc | hc <;>
        rw [hc] at hcontent
      · cases hcontent
      · rw [List.mem_singleton.mp hcontent] at h
        cases h
      · rw [List.mem_singleton.mp hcontent] at h
        cases h

end Step

/-! ## The list of steps -/

section Steps

variable {shadow : ShadowDocument}

/-- If `p` holds of at most one operation of a step, and of none unless `q` does, there
are no more of the one than of the other. -/
theorem countP_flatMap_le {p : PushOperation → Bool} {q : PlanStep → Bool}
    {f : PlanStep → List PushOperation} :
    ∀ {steps : List PlanStep},
      (∀ step ∈ steps, (f step).countP p ≤ if q step then 1 else 0) →
      (steps.flatMap f).countP p ≤ steps.countP q
  | [], _ => by simp
  | step :: steps, h => by
      have hstep := h step List.mem_cons_self
      have ih := countP_flatMap_le (fun next hnext => h next (List.mem_cons_of_mem _ hnext))
      rw [List.flatMap_cons, List.countP_append, List.countP_cons]
      omega

theorem countP_kept (steps : List PlanStep) (s : Nat) :
    steps.countP (fun step => decide (step.fate.kept = some s)) = (keptIndexes steps).count s := by
  induction steps with
  | nil => rfl
  | cons step steps ih =>
      rw [List.countP_cons, ih, keptIndexes_cons]
      cases step.fate.kept with
      | none => simp
      | some t => simp [List.count_cons]

theorem countP_appends_steps (steps : List PlanStep) :
    (steps.flatMap (PlanStep.operations shadow)).countP PushOperation.appends +
      (keptIndexes steps).length = steps.length := by
  induction steps with
  | nil => rfl
  | cons step steps ih =>
      have hstep := @PlanStep.countP_appends shadow step
      rw [List.flatMap_cons, List.countP_append, List.length_cons, keptIndexes_cons,
        List.length_append]
      omega

theorem countP_archivesOf (hids : shadow.DistinctIds) {s : Nat} {block : ShadowBlock}
    (hget : shadow.blocks[s]? = some block) (kept : List Nat) :
    (archivesOf shadow kept).countP (PushOperation.archives block.remoteId) =
      if s ∈ kept then 0 else 1 := by
  have hat : ∀ p ∈ shadow.blocks.zipIdx, p.1.remoteId = block.remoteId ↔ p.2 = s := by
    rintro ⟨other, t⟩ hmem
    have hother : shadow.blocks[t]? = some other := by
      simpa using List.mem_zipIdx_iff_getElem?.mp hmem
    constructor
    · intro heq
      apply blockIdAt_inj hids (blockIdAt_eq hother)
      rw [heq]
      exact blockIdAt_eq hget
    · rintro rfl
      rw [hget] at hother
      rw [Option.some.inj hother]
  have hcount : shadow.blocks.zipIdx.countP (fun p => decide (p.2 = s)) = 1 := by
    have hmap := List.countP_map (p := fun t => decide (t = s)) (f := Prod.snd)
      (l := shadow.blocks.zipIdx)
    rw [List.zipIdx_map_snd] at hmap
    have hone : (List.range' 0 shadow.blocks.length).count s = 1 := by
      apply List.count_eq_one_of_mem (List.nodup_range' ..)
      rw [List.mem_range'_1]
      have hlt := (List.getElem?_eq_some_iff.mp hget).1
      omega
    rw [← hone, List.count]
    exact hmap.symm
  unfold archivesOf
  rw [List.countP_filterMap]
  by_cases hkept : s ∈ kept
  · rw [if_pos hkept, List.countP_eq_zero]
    intro p hp
    have hiff := hat p hp
    by_cases hmem : p.2 ∈ kept
    · simp [hmem]
    · have hne : p.2 ≠ s := by
        rintro rfl
        exact hmem hkept
      simp [hmem, PushOperation.archives, hiff, hne]
  · rw [if_neg hkept, ← hcount]
    apply List.countP_congr
    intro p hp
    have hiff := hat p hp
    by_cases hmem : p.2 ∈ kept
    · have hne : p.2 ≠ s := by
        rintro rfl
        exact hkept hmem
      simp [hmem, hne]
    · simp [hmem, PushOperation.archives, hiff]

/-- The anchor of a step is the last block that an earlier step kept, or the one that
the loop started with. -/
theorem stepsFrom_anchor {retained : List Nat} :
    ∀ {items : List (SegmentedBlock × Option Nat)} {st : PlanState} {e : Nat} {step : PlanStep}
      {s : Nat}, (stepsFrom shadow retained st items)[e]? = some step → step.anchor = some s →
      st.previous = some s ∨
        ∃ e' earlier, e' < e ∧ (stepsFrom shadow retained st items)[e']? = some earlier ∧
          earlier.fate.kept = some s
  | [], _, _, _, _, h, _ => by simp [stepsFrom] at h
  | item :: items, st, 0, step, s, h, hanchor => by
      simp only [stepsFrom, List.getElem?_cons_zero, Option.some.injEq] at h
      subst h
      exact Or.inl hanchor
  | item :: items, st, e + 1, step, s, h, hanchor => by
      simp only [stepsFrom, List.getElem?_cons_succ] at h ⊢
      rcases stepsFrom_anchor h hanchor with hprevious | ⟨e', earlier, hlt, hget, hkept⟩
      · -- the state after the first step remembers its kept block, if it has one
        cases hfate : (fateOf shadow retained st item).kept with
        | none =>
            simp only [PlanState.after, hfate, Option.none_or] at hprevious
            exact Or.inl hprevious
        | some t =>
            simp only [PlanState.after, hfate, Option.some_or] at hprevious
            refine Or.inr ⟨0, ⟨fateOf shadow retained st item, st.previous, item.1⟩,
              Nat.succ_pos e, rfl, ?_⟩
            exact hfate.trans hprevious
      · exact Or.inr ⟨e' + 1, earlier, Nat.succ_lt_succ hlt, hget, hkept⟩

end Steps

/-! ## The plan -/

section Plan

variable {shadow : ShadowDocument} {editedBlocks : List SegmentedBlock}

/-- The steps of the plan for the blocks. -/
def plannedSteps (shadow : ShadowDocument) (editedBlocks : List SegmentedBlock) :
    List PlanStep :=
  planSteps shadow editedBlocks (alignBlocks shadow editedBlocks).1.pairing

theorem emittedOperations_eq (hids : shadow.DistinctIds) :
    emittedOperations shadow editedBlocks =
      (plannedSteps shadow editedBlocks).map (PlanStep.operations shadow) := by
  unfold emittedOperations
  rw [(alignBlocks_valid shadow editedBlocks).emitBlocks_eq hids]
  rfl

theorem plannedSteps_length :
    (plannedSteps shadow editedBlocks).length = editedBlocks.length := by
  have h := congrArg List.length (alignBlocks_valid shadow editedBlocks).planSteps_block
  rwa [List.length_map] at h

/-- Every kept position is in range. -/
theorem lt_of_mem_retained {s : Nat}
    (h : s ∈ retainedShadow (alignBlocks shadow editedBlocks).1.pairing) :
    s < shadow.blocks.length := by
  obtain ⟨m, hm, hs⟩ := List.mem_filterMap.mp h
  obtain ⟨e, he⟩ := List.mem_iff_getElem?.mp hm
  rw [show m = some s from hs] at he
  exact (alignBlocks_valid shadow editedBlocks).inRange e s (Alignment.matchOf_eq_some.mpr he)

theorem mem_keptShadow_iff (hids : shadow.DistinctIds) {s : Nat} :
    s ∈ keptShadow shadow editedBlocks ↔ s ∈ keptIndexes (plannedSteps shadow editedBlocks) := by
  have hvalid := alignBlocks_valid shadow editedBlocks
  have hrecreated := @mem_stateFrom_recreated shadow
    (retainedShadow (alignBlocks shadow editedBlocks).1.pairing) s
    (editedBlocks.zip (alignBlocks shadow editedBlocks).1.pairing) PlanState.initial
  have hstate : (emitBlocks shadow editedBlocks
      (alignBlocks shadow editedBlocks).1.pairing).2.recreatedShadow =
        (stateFrom shadow (retainedShadow (alignBlocks shadow editedBlocks).1.pairing)
          PlanState.initial
          (editedBlocks.zip (alignBlocks shadow editedBlocks).1.pairing)).recreated := by
    rw [hvalid.emitBlocks_eq hids]
    rfl
  have hkept := @Alignment.Valid.mem_kept_iff shadow editedBlocks _ hvalid s
  unfold keptShadow plannedSteps
  rw [hkept, List.mem_filter, List.mem_range]
  simp only [Bool.and_eq_true, decide_eq_true_eq, Bool.not_eq_true', decide_eq_false_iff_not,
    hstate, hrecreated]
  constructor
  · rintro ⟨_, hretained, hnot⟩
    exact ⟨hretained, fun step hmem hfate => hnot (Or.inr ⟨step, hmem, hfate⟩)⟩
  · rintro ⟨hretained, hnot⟩
    refine ⟨lt_of_mem_retained hretained, hretained, ?_⟩
    rintro (hmem | ⟨step, hmem, hfate⟩)
    · cases hmem
    · exact hnot step hmem hfate

theorem keptIndexes_nodup :
    (keptIndexes (plannedSteps shadow editedBlocks)).Nodup := by
  have hpairwise := (alignBlocks_valid shadow editedBlocks).planSteps_pairwise
  rw [keptIndexes, List.nodup_iff_pairwise_ne, List.pairwise_filterMap]
  refine hpairwise.imp ?_
  intro step step' h s hs s' hs' heq
  subst heq
  exact h s (Fate.kept_eq_matched hs) (Fate.kept_eq_matched hs')

theorem keptShadow_length (hids : shadow.DistinctIds) :
    (keptShadow shadow editedBlocks).length =
      (keptIndexes (plannedSteps shadow editedBlocks)).length := by
  apply List.Perm.length_eq
  have hnodup : (keptShadow shadow editedBlocks).Nodup :=
    List.Nodup.filter _ List.nodup_range
  rw [List.perm_ext_iff_of_nodup hnodup keptIndexes_nodup]
  intro s
  exact mem_keptShadow_iff hids

/-- The operations on properties name no block. -/
structure OnProperties (operations : List PushOperation) : Prop where
  archives : ∀ id, operations.countP (PushOperation.archives id) = 0
  rewrites : ∀ id, operations.countP (PushOperation.rewrites id) = 0
  appends : operations.countP PushOperation.appends = 0
  anchor : ∀ operation ∈ operations, operation.anchor = none

theorem onProperties_of_propertyDiff {yaml : YamlSerde} {edited : CanonicalDocument}
    {operations : List PushOperation}
    (h : propertyDiffOperations yaml shadow edited = .ok operations) :
    OnProperties operations := by
  rcases propertyDiffOperations_cases yaml h with rfl | ⟨updates, rfl⟩
  · exact ⟨fun _ => rfl, fun _ => rfl, rfl, by simp⟩
  · refine ⟨fun _ => rfl, fun _ => rfl, rfl, ?_⟩
    intro operation hmem
    rw [List.mem_singleton.mp hmem]
    rfl

/-- An accepted edit is planned as property operations followed by block operations. -/
theorem planBlockDiff_ok {yaml : YamlSerde} {edited : CanonicalDocument} {line : Nat}
    {plan : PushPlan} (h : planBlockDiff yaml shadow edited line = .ok plan) :
    ∃ properties, propertyDiffOperations yaml shadow edited = .ok properties ∧
      plan.operations = properties ++
        blockOperations shadow (segmentMarkdownBody edited.body line)
          (alignBlocks shadow (segmentMarkdownBody edited.body line)).1.pairing ∧
      validateEditedDirectives shadow (segmentMarkdownBody edited.body line) = [] := by
  unfold planBlockDiff at h
  cases hvalid : validateEditedDirectives shadow (segmentMarkdownBody edited.body line) with
  | cons issue issues => simp [hvalid] at h
  | nil =>
      cases hproperties : propertyDiffOperations yaml shadow edited with
      | error error => simp [hvalid, hproperties] at h
      | ok properties =>
          simp only [hvalid, hproperties, Except.ok.injEq] at h
          exact ⟨properties, rfl, by rw [← h]; rfl, rfl⟩

/-- The operations of a plan: those on properties, those of the steps, the archives. -/
def stepOperations (shadow : ShadowDocument) (properties : List PushOperation)
    (steps : List PlanStep) : List PushOperation :=
  properties ++ (steps.flatMap (PlanStep.operations shadow) ++
    archivesOf shadow (keptIndexes steps))

section Operations

variable {properties : List PushOperation} {steps : List PlanStep}

theorem countP_archivesOf_eq_zero (shadow : ShadowDocument) {p : PushOperation → Bool}
    (h : ∀ id, p (.archiveBlock id) = false) (kept : List Nat) :
    (archivesOf shadow kept).countP p = 0 := by
  rw [List.countP_eq_zero]
  intro operation hmem
  obtain ⟨q, _, hq⟩ := List.mem_filterMap.mp hmem
  split at hq
  · cases hq
  · injection hq with hq
    rw [← hq, h]
    exact Bool.false_ne_true

theorem countP_rewrites_stepOperations (hids : shadow.DistinctIds)
    (hproperties : OnProperties properties) {s : Nat} {block : ShadowBlock}
    (hget : shadow.blocks[s]? = some block) :
    (stepOperations shadow properties steps).countP (PushOperation.rewrites block.remoteId) ≤
      (keptIndexes steps).count s := by
  have hsteps : (steps.flatMap (PlanStep.operations shadow)).countP
      (PushOperation.rewrites block.remoteId) ≤
        steps.countP (fun step => decide (step.fate.kept = some s)) := by
    apply countP_flatMap_le
    intro step _
    simpa using step.countP_rewrites_le hids hget
  have harchives := countP_archivesOf_eq_zero shadow
    (p := PushOperation.rewrites block.remoteId) (fun _ => rfl) (keptIndexes steps)
  rw [stepOperations, List.countP_append, List.countP_append, hproperties.rewrites,
    harchives, Nat.zero_add, Nat.add_zero, ← countP_kept]
  exact hsteps

theorem countP_archives_stepOperations (hids : shadow.DistinctIds)
    (hproperties : OnProperties properties) {s : Nat} {block : ShadowBlock}
    (hget : shadow.blocks[s]? = some block) :
    (stepOperations shadow properties steps).countP (PushOperation.archives block.remoteId) =
      if s ∈ keptIndexes steps then 0 else 1 := by
  have hsteps : (steps.flatMap (PlanStep.operations shadow)).countP
      (PushOperation.archives block.remoteId) = 0 := by
    rw [List.countP_eq_zero]
    intro operation hmem
    obtain ⟨step, _, hop⟩ := List.mem_flatMap.mp hmem
    exact List.countP_eq_zero.mp (step.countP_archives block.remoteId) operation hop
  rw [stepOperations, List.countP_append, List.countP_append, hproperties.archives, hsteps,
    Nat.zero_add, Nat.zero_add]
  exact countP_archivesOf hids hget _

theorem countP_appends_stepOperations (hproperties : OnProperties properties) :
    (stepOperations shadow properties steps).countP PushOperation.appends +
      (keptIndexes steps).length = steps.length := by
  have harchives := countP_archivesOf_eq_zero shadow
    (p := PushOperation.appends) (fun _ => rfl) (keptIndexes steps)
  rw [stepOperations, List.countP_append, List.countP_append, hproperties.appends, harchives,
    Nat.zero_add, Nat.add_zero]
  exact countP_appends_steps steps

theorem mem_steps_of_anchor (hproperties : OnProperties properties) {operation : PushOperation}
    (hmem : operation ∈ stepOperations shadow properties steps)
    (hanchor : operation.anchor.isSome) :
    operation ∈ steps.flatMap (PlanStep.operations shadow) := by
  rcases List.mem_append.mp hmem with hproperty | hblocks
  · rw [hproperties.anchor operation hproperty] at hanchor
    cases hanchor
  · rcases List.mem_append.mp hblocks with hloop | harchive
    · exact hloop
    · obtain ⟨q, _, hq⟩ := List.mem_filterMap.mp harchive
      split at hq
      · cases hq
      · injection hq with hq
        rw [← hq] at hanchor
        cases hanchor

end Operations

/-- The anchor of a planned step is kept and matched to an earlier edited block. -/
theorem plannedSteps_anchor {e : Nat} {step : PlanStep} {s : Nat}
    (hstep : (plannedSteps shadow editedBlocks)[e]? = some step) (hs : step.anchor = some s) :
    ∃ e', e' < e ∧ (alignBlocks shadow editedBlocks).1.matchOf e' = some s ∧
      s ∈ keptIndexes (plannedSteps shadow editedBlocks) := by
  rcases stepsFrom_anchor hstep hs with hprevious | ⟨e', earlier, hlt, hearlier, hkept⟩
  · cases hprevious
  · refine ⟨e', hlt, ?_, List.mem_filterMap.mpr ⟨earlier, List.mem_of_getElem? hearlier, hkept⟩⟩
    have hearlier' : (plannedSteps shadow editedBlocks)[e']? = some earlier := hearlier
    have hmatched := congrArg (fun l => l[e']?)
      (alignBlocks_valid shadow editedBlocks).planSteps_matched
    simp only [List.getElem?_map] at hmatched
    unfold plannedSteps at hearlier'
    rw [hearlier', Option.map_some, Fate.kept_eq_matched hkept] at hmatched
    exact Alignment.matchOf_eq_some.mpr hmatched.symm

theorem wellFormed_of_operations (hids : shadow.DistinctIds) {properties : List PushOperation}
    (hproperties : OnProperties properties) :
    PlanWellFormed shadow editedBlocks
      (stepOperations shadow properties (plannedSteps shadow editedBlocks)) := by
  refine ⟨(alignBlocks_valid shadow editedBlocks).injective, ?_, ?_, ?_, ?_, ?_, ?_, ?_⟩
  · intro s block hget
    rw [countP_archives_stepOperations hids hproperties hget]
    simp only [mem_keptShadow_iff hids]
  · intro s block hget
    apply Nat.le_trans (countP_rewrites_stepOperations hids hproperties hget)
    exact List.nodup_iff_count_le_one.mp keptIndexes_nodup s
  · intro s block hget hkept
    rw [mem_keptShadow_iff hids] at hkept
    have hle := @countP_rewrites_stepOperations shadow properties
      (plannedSteps shadow editedBlocks) hids hproperties s block hget
    rw [List.count_eq_zero_of_not_mem hkept] at hle
    exact Nat.le_zero.mp hle
  · rw [keptShadow_length hids, countP_appends_stepOperations hproperties,
      plannedSteps_length]
  · intro operation hmem hanchor
    rw [emittedOperations_eq hids, ← List.flatMap_def]
    exact mem_steps_of_anchor hproperties hmem hanchor
  · rw [emittedOperations_eq hids, List.length_map, plannedSteps_length]
  · intro e emitted hget operation hmem after hafter
    rw [emittedOperations_eq hids, List.getElem?_map] at hget
    obtain ⟨step, hstep, rfl⟩ := Option.map_eq_some_iff.mp hget
    obtain ⟨s, hs, hid⟩ := Option.bind_eq_some_iff.mp (PlanStep.anchor_of_mem hmem hafter)
    obtain ⟨e', hlt, hmatch, hkept⟩ := plannedSteps_anchor hstep hs
    exact ⟨e', s, hlt, hmatch, (mem_keptShadow_iff hids).mpr hkept, hid⟩

/-- Whatever the edit, an accepted one is planned well against a shadow of distinct ids. -/
theorem planBlockDiff_wellFormed {yaml : YamlSerde} {edited : CanonicalDocument} {line : Nat}
    {plan : PushPlan} (hids : shadow.DistinctIds)
    (h : planBlockDiff yaml shadow edited line = .ok plan) :
    PlanWellFormed shadow (segmentMarkdownBody edited.body line) plan.operations := by
  obtain ⟨properties, hproperties, hoperations, _⟩ := planBlockDiff_ok h
  rw [hoperations, (alignBlocks_valid shadow _).blockOperations_eq hids]
  exact wellFormed_of_operations hids (onProperties_of_propertyDiff hproperties)

end Plan

/-! ## Pages for examples -/

/-- The shadow of a page just synced. -/
def syncedPage (body : Text) (nativeBlockIds : List RemoteId) : ShadowDocument :=
  match ShadowDocument.fromSyncedBody ⟨"page".toList⟩ body 1 nativeBlockIds with
  | .ok shadow => shadow
  | .error _ => ⟨⟨"page".toList⟩, [], [], [], []⟩

/-- A reader for pages without frontmatter: it is never asked. -/
def noYaml : YamlSerde := ⟨fun _ => .error ⟨none, []⟩, fun _ _ => false⟩

theorem planBlockDiff_wellFormed_swap :
    ∃ plan, planBlockDiff noYaml
        (syncedPage "A\n\nB\n\nC\n".toList [⟨['a']⟩, ⟨['b']⟩, ⟨['c']⟩])
        ⟨[], "C\n\nA\n".toList⟩ 1 = .ok plan ∧
      PlanWellFormed (syncedPage "A\n\nB\n\nC\n".toList [⟨['a']⟩, ⟨['b']⟩, ⟨['c']⟩])
        (segmentMarkdownBody "C\n\nA\n".toList 1) plan.operations := by
  have hok : (planBlockDiff noYaml
      (syncedPage "A\n\nB\n\nC\n".toList [⟨['a']⟩, ⟨['b']⟩, ⟨['c']⟩])
      ⟨[], "C\n\nA\n".toList⟩ 1).isOk = true := by decide +kernel
  cases hplan : planBlockDiff noYaml
      (syncedPage "A\n\nB\n\nC\n".toList [⟨['a']⟩, ⟨['b']⟩, ⟨['c']⟩])
      ⟨[], "C\n\nA\n".toList⟩ 1 with
  | error error =>
      rw [hplan] at hok
      cases hok
  | ok plan =>
      refine ⟨plan, rfl, ?_⟩
      apply planBlockDiff_wellFormed _ hplan
      unfold ShadowDocument.DistinctIds
      decide +kernel

end Locality.Core
