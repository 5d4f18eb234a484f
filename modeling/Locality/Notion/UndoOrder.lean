/-
  Notion/UndoOrder.lean --- when undoing a push gives the page back.

  The undo restores a block behind the block it followed in the preimage.  That one is
  there if the push left it alone, and only then: a block that was taken off comes back
  under a new id.  So a complete undo plan can be run exactly if no two neighbours of
  the shadow were both taken off, and then it ends with the texts of the shadow.
-/
import Locality.Notion.ApplyOrder
import Locality.Notion.UndoSteps

set_option autoImplicit false

namespace Locality.Notion

open Locality.Core
open Locality.Foundation

/-! ## The planned operations -/

section Planned

variable {shadow : ShadowDocument} {editedBlocks : List SegmentedBlock}

/-- Only directives are moved. -/
theorem fateOf_moved {retained : List Nat} {st : PlanState} {item : SegmentedBlock × Option Nat}
    {s : Nat} (h : fateOf shadow retained st item = .moved s) {block : ShadowBlock}
    (hget : shadow.blocks[s]? = some block) :
    block.kind.isDirective = true ∧ item.1.isDirective = true := by
  unfold fateOf at h
  split at h
  · cases h
  · split at h
    · cases h
    · rename_i shadowBlock hshadow
      split at h
      · split at h
        · rename_i hdirective
          injection h with h
          subst h
          rw [hshadow] at hget
          injection hget with hget
          subst hget
          simpa using hdirective
        · split at h <;> cases h
      · cases h

theorem stepsFrom_moved {retained : List Nat} :
    ∀ {items : List (SegmentedBlock × Option Nat)} {st : PlanState} {step : PlanStep} {s : Nat}
      {block : ShadowBlock}, step ∈ stepsFrom shadow retained st items → step.fate = .moved s →
      shadow.blocks[s]? = some block →
        block.kind.isDirective = true ∧ step.block.isDirective = true
  | [], _, _, _, _, h, _, _ => by cases h
  | item :: items, st, step, s, block, h, hfate, hget => by
      rcases List.mem_cons.mp h with rfl | hmem
      · exact fateOf_moved hfate hget
      · exact stepsFrom_moved hmem hfate hget

/-- A directive is written one way. -/
theorem shouldReplaceBlock_directive {block : ShadowBlock} {editedBlock : SegmentedBlock}
    (hblock : block.kind.isDirective = true) (hedited : editedBlock.isDirective = true) :
    shouldReplaceBlock block editedBlock = false := by
  have hkind : ∀ {kind : MarkdownBlockKind} (text : Text), kind.isDirective = true →
      markdownWriteKind kind text = .directive := by
    intro kind text h
    cases kind with
    | directive directiveType raw malformed => rfl
    | _ => cases h
  rw [shouldReplaceBlock, hkind _ hblock, hkind _ hedited]
  simp

theorem countP_takesOff_contentOperations (block : ShadowBlock) (editedBlock : SegmentedBlock)
    (id : RemoteId) :
    (contentOperations block editedBlock).countP (takesOff id) ≤
      if block.remoteId = id then 1 else 0 := by
  rcases contentOperations_cases block editedBlock with h | h | h
  · simp [h]
  · simp [h, takesOff]
  · rw [h]
    by_cases hid : block.remoteId = id <;> simp [takesOff, hid]

/-- A step takes off at most the block that it keeps, and that once. -/
theorem countP_takesOff_operations_le (hids : shadow.DistinctIds) {s : Nat} {block : ShadowBlock}
    (hget : shadow.blocks[s]? = some block) {step : PlanStep}
    (hstep : step ∈ plannedSteps shadow editedBlocks) :
    (step.operations shadow).countP (takesOff block.remoteId) ≤
      if step.fate.kept = some s then 1 else 0 := by
  have hother : ∀ {t : Nat} {other : ShadowBlock}, shadow.blocks[t]? = some other →
      (if other.remoteId = block.remoteId then 1 else 0) ≤ if some t = some s then 1 else 0 := by
    intro t other hother
    by_cases hid : other.remoteId = block.remoteId
    · rw [shadowBlock_ext hids hother hget hid, if_pos rfl]
      split <;> simp
    · rw [if_neg hid]
      exact Nat.zero_le _
  obtain ⟨fate, anchor, editedBlock⟩ := step
  cases fate with
  | fresh => simp [PlanStep.operations, takesOff]
  | recreated t => simp [PlanStep.operations, takesOff]
  | stayed t =>
      cases ht : shadow.blocks[t]? with
      | none => simp [PlanStep.operations, ht]
      | some other =>
          simp only [PlanStep.operations, ht]
          exact Nat.le_trans (countP_takesOff_contentOperations other editedBlock _) (hother ht)
  | moved t =>
      cases ht : shadow.blocks[t]? with
      | none => simp [PlanStep.operations, ht]
      | some other =>
          obtain ⟨hdirective, hedited⟩ := stepsFrom_moved hstep rfl ht
          have hcontent : (contentOperations other editedBlock).countP
              (takesOff block.remoteId) = 0 := by
            unfold contentOperations
            rw [shouldReplaceBlock_directive hdirective hedited, if_neg Bool.false_ne_true]
            split <;> simp [takesOff]
          simp only [PlanStep.operations, ht]
          rw [List.countP_cons, hcontent, Nat.zero_add]
          simp only [takesOff, decide_eq_true_eq]
          exact hother ht

theorem archivesOf_takesOff (kept : List Nat) (id : RemoteId) :
    (archivesOf shadow kept).countP (takesOff id) =
      (archivesOf shadow kept).countP (PushOperation.archives id) := by
  apply List.countP_congr
  intro operation hmem
  obtain ⟨p, _, hp⟩ := List.mem_filterMap.mp hmem
  split at hp
  · cases hp
  · injection hp with hp
    rw [← hp]
    rfl

theorem stepOperations_offOnce (hids : shadow.DistinctIds) {yaml : YamlSerde}
    {edited : CanonicalDocument} {properties : List PushOperation}
    (hproperties : propertyDiffOperations yaml shadow edited = .ok properties) :
    OffOnce shadow (stepOperations shadow properties (plannedSteps shadow editedBlocks)) := by
  intro s block hget
  have hzero : properties.countP (takesOff block.remoteId) = 0 := by
    rcases propertyDiffOperations_cases yaml hproperties with rfl | ⟨updates, rfl⟩ <;> rfl
  have hsteps : ((plannedSteps shadow editedBlocks).flatMap (PlanStep.operations shadow)).countP
      (takesOff block.remoteId) ≤ (keptIndexes (plannedSteps shadow editedBlocks)).count s := by
    rw [← countP_kept]
    apply countP_flatMap_le
    intro step hstep
    simpa using countP_takesOff_operations_le hids hget hstep
  have harchives := countP_archivesOf hids hget (keptIndexes (plannedSteps shadow editedBlocks))
  have hone := List.nodup_iff_count_le_one.mp
    (@keptIndexes_nodup shadow editedBlocks) s
  rw [stepOperations, List.countP_append, List.countP_append, hzero, archivesOf_takesOff,
    harchives]
  by_cases hkept : s ∈ keptIndexes (plannedSteps shadow editedBlocks)
  · rw [if_pos hkept]
    omega
  · rw [List.count_eq_zero_of_not_mem hkept] at hsteps
    rw [if_neg hkept]
    omega

theorem contentOperations_planned {s : Nat} {block : ShadowBlock}
    (hget : shadow.blocks[s]? = some block) (editedBlock : SegmentedBlock) :
    ∀ operation ∈ contentOperations block editedBlock, PlannedOn shadow operation := by
  intro operation hmem
  rcases contentOperations_cases block editedBlock with h | h | h <;> rw [h] at hmem
  · cases hmem
  · rw [List.mem_singleton.mp hmem]
    exact .update hget _
  · rw [List.mem_singleton.mp hmem]
    exact .replace hget _

theorem stepOperations_planned {yaml : YamlSerde} {edited : CanonicalDocument}
    {properties : List PushOperation} {steps : List PlanStep}
    (hproperties : propertyDiffOperations yaml shadow edited = .ok properties) :
    ∀ operation ∈ stepOperations shadow properties steps, PlannedOn shadow operation := by
  intro operation hmem
  rcases List.mem_append.mp hmem with hproperty | hblocks
  · rcases propertyDiffOperations_cases yaml hproperties with rfl | ⟨updates, rfl⟩
    · cases hproperty
    · rw [List.mem_singleton.mp hproperty]
      exact .properties _ _
  · rcases List.mem_append.mp hblocks with hloop | harchive
    · obtain ⟨step, _, hop⟩ := List.mem_flatMap.mp hloop
      rcases step.operations_cases shadow with
        ⟨_, hops⟩ | ⟨t, _, hops | ⟨other, moves, hother, hmoves, hops⟩⟩
      · rw [hops, List.mem_singleton] at hop
        rw [hop]
        exact .append _ _ _
      · simp [hops] at hop
      · rw [hops, List.mem_append] at hop
        rcases hop with hmove | hcontent
        · rcases hmoves with rfl | rfl
          · cases hmove
          · rw [List.mem_singleton.mp hmove]
            exact .move hother _
        · exact contentOperations_planned hother _ operation hcontent
    · obtain ⟨⟨block, s⟩, hp, hop⟩ := List.mem_filterMap.mp harchive
      split at hop
      · cases hop
      · injection hop with hop
        rw [← hop]
        exact .archive (by simpa using List.mem_zipIdx_iff_getElem?.mp hp)

end Planned

/-! ## The journal of a push -/

/-- The entry journals the push of the plan: the preimage is the shadow, and the effects
are the ids that the service gave, and for a move the block that was archived. -/
structure JournalsPush (createdId : Nat → RemoteId) (shadow : ShadowDocument) (plan : PushPlan)
    (entry : JournalEntry) : Prop where
  journaled : entry.plan = plan
  preimages : entry.preimages = [JournalPreimage.fromShadow shadow]
  created : ∀ k operation, plan.operations[k]? = some operation → creates operation = true →
    ∃ operationId parentId,
      JournalApplyEffect.createdBlock operationId k parentId (createdId k) ∈ entry.applyEffects
  createdOnly : ∀ operationId k parentId blockId,
    JournalApplyEffect.createdBlock operationId k parentId blockId ∈ entry.applyEffects →
      blockId = createdId k
  archived : ∀ k blockId after, plan.operations[k]? = some (.moveBlock blockId after) →
    ∃ operationId,
      JournalApplyEffect.archivedBlock operationId k blockId ∈ entry.applyEffects
  archivedOnly : ∀ k blockId after, plan.operations[k]? = some (.moveBlock blockId after) →
    ∀ operationId other,
      JournalApplyEffect.archivedBlock operationId k other ∈ entry.applyEffects →
        other = blockId

/-- What `apply_plan` records for an operation that a block diff plans. -/
def recordedEffects (createdId : Nat → RemoteId) (pageId : RemoteId) (pushId : PushId)
    (operationIndex : Nat) (operation : PushOperation) : List JournalApplyEffect :=
  let operationId := PushOperationId.forOperation pushId operationIndex operation
  match operation with
  | .updateBlock blockId _ => [.updatedBlock operationId operationIndex blockId]
  | .replaceBlock blockId _ | .moveBlock blockId _ =>
      [.createdBlock operationId operationIndex pageId (createdId operationIndex),
        .archivedBlock operationId operationIndex blockId]
  | .appendBlock parentId _ _ =>
      [.createdBlock operationId operationIndex parentId (createdId operationIndex)]
  | .archiveBlock blockId => [.archivedBlock operationId operationIndex blockId]
  | .updateProperties entityId properties =>
      [.updatedProperties operationId operationIndex entityId (properties.map Prod.fst)]
  | _ => []

/-- The entry that a finished push of the plan leaves. -/
def journalOf (createdId : Nat → RemoteId) (shadow : ShadowDocument) (plan : PushPlan)
    (pushId : PushId) (mountId : MountId) : JournalEntry :=
  ((JournalEntry.ofPlan pushId mountId plan.affectedEntities plan .reconciled).withPreimages
    [JournalPreimage.fromShadow shadow]).withApplyEffects
      (plan.operations.zipIdx.flatMap fun p =>
        recordedEffects createdId shadow.entityId pushId p.2 p.1)

theorem journalOf_journalsPush (createdId : Nat → RemoteId) (shadow : ShadowDocument)
    (plan : PushPlan) (pushId : PushId) (mountId : MountId) :
    JournalsPush createdId shadow plan (journalOf createdId shadow plan pushId mountId) := by
  have hrecorded : ∀ effect,
      effect ∈ (journalOf createdId shadow plan pushId mountId).applyEffects ↔
        ∃ k operation, plan.operations[k]? = some operation ∧
          effect ∈ recordedEffects createdId shadow.entityId pushId k operation := by
    intro effect
    change effect ∈ plan.operations.zipIdx.flatMap _ ↔ _
    rw [List.mem_flatMap]
    constructor
    · rintro ⟨⟨operation, k⟩, hmem, heffect⟩
      exact ⟨k, operation, List.mem_zipIdx_iff_getElem?.mp hmem, heffect⟩
    · rintro ⟨k, operation, hget, heffect⟩
      exact ⟨⟨operation, k⟩, List.mem_zipIdx_iff_getElem?.mpr hget, heffect⟩
  refine ⟨rfl, rfl, ?_, ?_, ?_, ?_⟩
  · intro k operation hget hcreates
    have hcreated : ∃ operationId parentId,
        JournalApplyEffect.createdBlock operationId k parentId (createdId k) ∈
          recordedEffects createdId shadow.entityId pushId k operation := by
      cases operation with
      | appendBlock parentId after content => exact ⟨_, _, List.mem_cons_self⟩
      | replaceBlock blockId content => exact ⟨_, _, List.mem_cons_self⟩
      | moveBlock blockId after => exact ⟨_, _, List.mem_cons_self⟩
      | _ => cases hcreates
    obtain ⟨operationId, parentId, hmem⟩ := hcreated
    exact ⟨operationId, parentId, (hrecorded _).mpr ⟨k, operation, hget, hmem⟩⟩
  · intro operationId k parentId blockId hmem
    obtain ⟨j, operation, _, heffect⟩ := (hrecorded _).mp hmem
    cases operation <;> simp [recordedEffects] at heffect <;> simp [heffect]
  · intro k blockId after hget
    exact ⟨_, (hrecorded _).mpr ⟨k, _, hget, List.mem_cons_of_mem _ List.mem_cons_self⟩⟩
  · intro k blockId after hget operationId other hmem
    obtain ⟨j, operation, hget', heffect⟩ := (hrecorded _).mp hmem
    have hindex : j = k := by
      cases operation <;> simp [recordedEffects] at heffect <;> simp [heffect]
    rw [hindex, hget] at hget'
    injection hget' with hget'
    subst hget'
    simp [recordedEffects] at heffect
    exact heffect.2.2

/-- The block before a position of the shadow. -/
def previousBlockId (shadow : ShadowDocument) (s : Nat) : Option RemoteId :=
  if s = 0 then none else (shadow.blocks[s - 1]?).map ShadowBlock.remoteId

section Entry

variable {createdId : Nat → RemoteId} {shadow : ShadowDocument} {plan : PushPlan}
  {entry : JournalEntry} {s : Nat} {block : ShadowBlock}

theorem findPreimageBlock_eq (hids : shadow.DistinctIds)
    (hpreimages : entry.preimages = [JournalPreimage.fromShadow shadow])
    (hget : shadow.blocks[s]? = some block) :
    findPreimageBlock entry block.remoteId = some (shadow, block) := by
  have hfind : shadow.blocks.find? (fun other => decide (other.remoteId = block.remoteId)) =
      some block := by
    cases hfound : shadow.blocks.find? (fun other => decide (other.remoteId = block.remoteId)) with
    | none =>
        have hnone := List.find?_eq_none.mp hfound block (List.mem_of_getElem? hget)
        simp at hnone
    | some other =>
        obtain ⟨t, hother⟩ := List.mem_iff_getElem?.mp (List.mem_of_find?_eq_some hfound)
        have hsame : other.remoteId = block.remoteId := by simpa using List.find?_some hfound
        rw [shadowBlock_ext hids hother hget hsame, hget] at hother
        exact hother.symm
  simp [findPreimageBlock, hpreimages, JournalPreimage.fromShadow, hfind]

theorem findPreimageBlockPosition_eq (hids : shadow.DistinctIds)
    (hpreimages : entry.preimages = [JournalPreimage.fromShadow shadow])
    (hget : shadow.blocks[s]? = some block) :
    findPreimageBlockPosition entry block.remoteId =
      some (shadow, previousBlockId shadow s) := by
  have hlt := (List.getElem?_eq_some_iff.mp hget).1
  have hfind : shadow.blocks.findIdx? (fun other => decide (other.remoteId = block.remoteId)) =
      some s := by
    rw [List.findIdx?_eq_some_iff_getElem]
    refine ⟨hlt, ?_, ?_⟩
    · rw [(List.getElem?_eq_some_iff.mp hget).2]
      exact decide_eq_true rfl
    · intro t hts
      have hother := List.getElem?_eq_getElem (Nat.lt_trans hts hlt)
      simp only [decide_eq_true_eq]
      intro hid
      have heq := shadowBlock_ext hids hother hget hid
      omega
  simp [findPreimageBlockPosition, hpreimages, JournalPreimage.fromShadow, hfind,
    previousBlockId]

namespace JournalsPush

variable {k : Nat} {operation : PushOperation}

theorem findCreated (h : JournalsPush createdId shadow plan entry)
    (hget : plan.operations[k]? = some operation) (hcreates : creates operation = true) :
    findCreatedBlockEffect entry k = some (createdId k) := by
  cases hfound : findCreatedBlockEffect entry k with
  | none =>
      obtain ⟨operationId, parentId, hmem⟩ := h.created k operation hget hcreates
      have hnone := List.findSome?_eq_none_iff.mp hfound _ hmem
      simp at hnone
  | some blockId =>
      obtain ⟨effect, hmem, heffect⟩ := List.exists_of_findSome?_eq_some hfound
      cases effect with
      | createdBlock operationId j parentId other =>
          simp only [Option.ite_none_right_eq_some, Option.some.injEq] at heffect
          rw [← heffect.2, h.createdOnly operationId j parentId other hmem, heffect.1]
      | _ => cases heffect

theorem findArchived (h : JournalsPush createdId shadow plan entry) {blockId : RemoteId}
    {after : Option RemoteId} (hget : plan.operations[k]? = some (.moveBlock blockId after)) :
    findArchivedBlockEffect entry k = some blockId := by
  cases hfound : findArchivedBlockEffect entry k with
  | none =>
      obtain ⟨operationId, hmem⟩ := h.archived k blockId after hget
      have hnone := List.findSome?_eq_none_iff.mp hfound _ hmem
      simp at hnone
  | some found =>
      obtain ⟨effect, hmem, heffect⟩ := List.exists_of_findSome?_eq_some hfound
      cases effect with
      | archivedBlock operationId j other =>
          simp only [Option.ite_none_right_eq_some, Option.some.injEq] at heffect
          obtain ⟨rfl, rfl⟩ := heffect
          rw [h.archivedOnly j blockId after hget operationId other hmem]
      | _ => cases heffect

variable {yaml : YamlSerde}

theorem undo_replace (hids : shadow.DistinctIds) (h : JournalsPush createdId shadow plan entry)
    (hblock : shadow.blocks[s]? = some block) {content : Text}
    (hget : plan.operations[k]? = some (.replaceBlock block.remoteId content)) :
    undoOperation yaml entry k (.replaceBlock block.remoteId content) =
      .ok [.archiveCreatedBlock (createdId k),
        restoreArchived block.remoteId shadow (previousBlockId shadow s) block] := by
  simp only [undoOperation, undoReplace, h.findCreated hget rfl,
    findPreimageBlockPosition_eq hids h.preimages hblock,
    findPreimageBlock_eq hids h.preimages hblock]

theorem undo_move (hids : shadow.DistinctIds) (h : JournalsPush createdId shadow plan entry)
    (hblock : shadow.blocks[s]? = some block) {after : Option RemoteId}
    (hget : plan.operations[k]? = some (.moveBlock block.remoteId after)) :
    undoOperation yaml entry k (.moveBlock block.remoteId after) =
      .ok [.archiveCreatedBlock (createdId k),
        restoreArchived block.remoteId shadow (previousBlockId shadow s) block] := by
  simp only [undoOperation, undoMove, h.findCreated hget rfl, h.findArchived hget,
    findPreimageBlockPosition_eq hids h.preimages hblock,
    findPreimageBlock_eq hids h.preimages hblock, if_pos]

theorem undo_archive (hids : shadow.DistinctIds) (h : JournalsPush createdId shadow plan entry)
    (hblock : shadow.blocks[s]? = some block) :
    undoOperation yaml entry k (.archiveBlock block.remoteId) =
      .ok [restoreArchived block.remoteId shadow (previousBlockId shadow s) block] := by
  simp only [undoOperation, undoArchive, findPreimageBlockPosition_eq hids h.preimages hblock,
    findPreimageBlock_eq hids h.preimages hblock]

theorem undo_update (hids : shadow.DistinctIds) (h : JournalsPush createdId shadow plan entry)
    (hblock : shadow.blocks[s]? = some block) {content : Text} :
    undoOperation yaml entry k (.updateBlock block.remoteId content) =
      .ok [.restoreBlockContent block.remoteId block.text] := by
  simp only [undoOperation, undoContent, findPreimageBlock_eq hids h.preimages hblock]

end JournalsPush

/-- Properties are restored without a block. -/
theorem undo_properties {yaml : YamlSerde} {k : Nat} {entityId : RemoteId} {properties : List (Text × PropertyValue)}
    {undo : List UndoOperation}
    (h : undoOperation yaml entry k (.updateProperties entityId properties) = .ok undo) :
    ∃ previous, undo = [.restoreProperties entityId properties previous] := by
  simp only [undoOperation] at h
  split at h
  · cases h
  · split at h
    · injection h with h
      exact ⟨_, h.symm⟩
    · cases h

end Entry

/-! ## Undoing one operation -/

section UndoStep

variable {shadow : ShadowDocument} {createdId restoredId : Nat → RemoteId} {bound : Nat}
  {ever off rewritten : RemoteId → Bool} {home : Nat → Option PageBlock}
  {blocks : List PageBlock} {s : Nat} {block : ShadowBlock}

/-- A created block is on the page, and archiving it leaves the kept ones alone. -/
theorem archiveCreated_eq {k : Nat} (hk : k < bound) {rest : List RemoteId}
    (hcreated : ((blocks.map PageBlock.id).filter (isCreated createdId bound)).Perm
      (createdId k :: rest)) :
    ∃ blocks', removeFirst (PageBlock.hasId (createdId k)) blocks = some blocks' ∧
      blocks'.filter (isKept createdId bound) = blocks.filter (isKept createdId bound) ∧
      ((blocks'.map PageBlock.id).filter (isCreated createdId bound)).Perm rest := by
  cases hremove : removeFirst (PageBlock.hasId (createdId k)) blocks with
  | none =>
      have hmem := (List.mem_filter.mp (hcreated.mem_iff.mpr List.mem_cons_self)).1
      obtain ⟨z, hz, hid⟩ := List.mem_map.mp hmem
      have hnot := removeFirst_eq_none.mp hremove z hz
      simp [PageBlock.hasId, hid] at hnot
  | some blocks' =>
      have hnew : ∀ z, PageBlock.hasId (createdId k) z = true →
          isCreated createdId bound z.id = true := by
        intro z hz
        rw [of_decide_eq_true hz]
        exact isCreated_createdId hk
      obtain ⟨w, hw, hperm⟩ := perm_of_removeFirst hremove
      have hfilter := filter_created_perm createdId bound hperm
      rw [List.map_cons, List.filter_cons_of_pos (hnew w hw), of_decide_eq_true hw] at hfilter
      refine ⟨blocks', rfl, ?_, (hfilter.symm.trans hcreated).cons_inv⟩
      apply filter_removeFirst_of_not hremove
      intro z _ hz
      simp [isKept, hnew z hz]

theorem filter_insertBehind_created {after : Option RemoteId} {x : PageBlock}
    {blocks' : List PageBlock} (h : insertBehind after x blocks = some blocks')
    (hx : isCreated createdId bound x.id = false) :
    ((blocks'.map PageBlock.id).filter (isCreated createdId bound)).Perm
      ((blocks.map PageBlock.id).filter (isCreated createdId bound)) := by
  have hperm := filter_created_perm createdId bound (insertBehind_perm h)
  rwa [List.map_cons, List.filter_cons_of_neg (by simp [hx])] at hperm

/-- Behind the block before it, if that was left alone, a block comes back to its home. -/
theorem restoreArchived_eq (hids : shadow.DistinctIds) (hfresh : FreshIds shadow createdId)
    (hrestored : FreshIds shadow restoredId)
    (hkept : blocks.filter (isKept createdId bound) =
      (Layout.ofHomes home).items shadow.blocks.length)
    (hhomes : HomesOf shadow restoredId ever off rewritten home)
    (hget : shadow.blocks[s]? = some block) (hhome : home s = none)
    (hbeside : ∀ (t : Nat) (previous : ShadowBlock), s = t + 1 →
      shadow.blocks[t]? = some previous → off previous.remoteId = false ∧
        ever previous.remoteId = false)
    {x : PageBlock} (hx : isCreated createdId bound x.id = false) :
    ∃ blocks', insertBehind (previousBlockId shadow s) x blocks = some blocks' ∧
      blocks'.filter (isKept createdId bound) =
        (Layout.ofHomes (Function.update home s (some x))).items shadow.blocks.length := by
  have hlt := (List.getElem?_eq_some_iff.mp hget).1
  have hxkept : isKept createdId bound x = true := by simp [isKept, hx]
  cases s with
  | zero =>
      refine ⟨x :: blocks, rfl, ?_⟩
      rw [List.filter_cons_of_pos hxkept, hkept, Layout.cons_ofHomes hlt hhome]
  | succ t =>
      have hlt' := Nat.lt_of_succ_lt hlt
      have hprevious := List.getElem?_eq_getElem hlt'
      obtain ⟨hoff, hever⟩ := hbeside t _ rfl hprevious
      cases hy : home t with
      | none =>
          rw [(hhomes.off t _ hprevious).mp hy] at hoff
          cases hoff
      | some y =>
          have hyid := (hhomes.fits t _ y hprevious hy).id hever
          have hinsert := @filter_insertAfter PageBlock
            (PageBlock.hasId shadow.blocks[t].remoteId) (isKept createdId bound) blocks x
            (fun z _ hz => isKept_of_hasId bound hfresh hprevious hz) hxkept
          rw [hkept, Layout.insertAfter_ofHomes hlt hy hhome (by simp [PageBlock.hasId, hyid])
            (hhomes.atMostOne_hasId hids hrestored hprevious)] at hinsert
          obtain ⟨blocks', hblocks, hitems⟩ := Option.map_eq_some_iff.mp hinsert
          refine ⟨blocks', ?_, hitems⟩
          simp only [previousBlockId, Nat.succ_ne_zero, if_false, Nat.add_sub_cancel, hprevious,
            Option.map_some, insertBehind]
          exact hblocks

/-- A block that was left alone is written back at its home. -/
theorem restoreContent_eq (hids : shadow.DistinctIds) (hfresh : FreshIds shadow createdId)
    (hrestored : FreshIds shadow restoredId)
    (hkept : blocks.filter (isKept createdId bound) =
      (Layout.ofHomes home).items shadow.blocks.length)
    (hhomes : HomesOf shadow restoredId ever off rewritten home)
    (hget : shadow.blocks[s]? = some block) (hever : ever block.remoteId = false)
    {x : PageBlock} (hhome : home s = some x) :
    ∃ blocks', rewriteFirst (PageBlock.hasId block.remoteId) (fun z => z.withText block.text)
        blocks = some blocks' ∧
      blocks'.filter (isKept createdId bound) =
        (Layout.ofHomes (Function.update home s (some (x.withText block.text)))).items
          shadow.blocks.length := by
  have hlt := (List.getElem?_eq_some_iff.mp hget).1
  have hid := (hhomes.fits s block x hget hhome).id hever
  have hrewrite := @filter_rewriteFirst PageBlock (PageBlock.hasId block.remoteId)
    (isKept createdId bound) blocks (fun z => z.withText block.text)
    (fun z _ hz => isKept_of_hasId bound hfresh hget hz) (fun z _ hz => hz)
  rw [hkept, Layout.rewriteFirst_items hlt hhome (by simp [PageBlock.hasId, hid])
    (hhomes.atMostOne_hasId hids hrestored hget)] at hrewrite
  exact Option.map_eq_some_iff.mp hrewrite

end UndoStep

/-! ## The condition -/

/-- Of two neighbours of the shadow the plan takes off at most one, and it writes no
block in place that it takes off. -/
structure LeavesAnchors (shadow : ShadowDocument) (operations : List PushOperation) : Prop where
  beside : ∀ (t : Nat) (previous block : ShadowBlock), shadow.blocks[t]? = some previous →
    shadow.blocks[t + 1]? = some block → takenOff operations block.remoteId = true →
      takenOff operations previous.remoteId = false
  inPlace : ∀ (s : Nat) (block : ShadowBlock), shadow.blocks[s]? = some block →
    updated operations block.remoteId = true → takenOff operations block.remoteId = false

instance (shadow : ShadowDocument) (operations : List PushOperation) :
    Decidable (LeavesAnchors shadow operations) :=
  decidable_of_iff
    ((∀ p ∈ shadow.blocks.zip shadow.blocks.tail, takenOff operations p.2.remoteId = true →
        takenOff operations p.1.remoteId = false) ∧
      ∀ block ∈ shadow.blocks, updated operations block.remoteId = true →
        takenOff operations block.remoteId = false) (by
    constructor
    · rintro ⟨hbeside, hinPlace⟩
      refine ⟨?_, fun s block hget => hinPlace block (List.mem_of_getElem? hget)⟩
      intro t previous block hprevious hget
      apply hbeside (previous, block)
      rw [List.mem_iff_getElem?]
      exact ⟨t, List.getElem?_zip_eq_some.mpr ⟨hprevious, by rwa [List.getElem?_tail]⟩⟩
    · intro h
      constructor
      · intro p hp
        obtain ⟨t, ht⟩ := List.mem_iff_getElem?.mp hp
        obtain ⟨hprevious, hget⟩ := List.getElem?_zip_eq_some.mp ht
        rw [List.getElem?_tail] at hget
        exact h.beside t p.1 p.2 hprevious hget
      · intro block hmem
        obtain ⟨s, hget⟩ := List.mem_iff_getElem?.mp hmem
        exact h.inPlace s block hget)

section Undo

variable {yaml : YamlSerde} {shadow : ShadowDocument} {createdId restoredId : Nat → RemoteId}
  {plan : PushPlan} {entry : JournalEntry}

theorem takenOff_of_mem {operations : List PushOperation} {operation : PushOperation}
    {id : RemoteId} (hmem : operation ∈ operations) (hoff : takesOff id operation = true) :
    takenOff operations id = true :=
  List.any_eq_true.mpr ⟨operation, hmem, hoff⟩

/-- The undo of an operation moves the position back by one. -/
theorem applyUndo_tracks (hids : shadow.DistinctIds) (hfresh : FreshIds shadow createdId)
    (hrestored : FreshIds shadow restoredId) (hapart : ∀ j k, restoredId j ≠ createdId k)
    (hentry : JournalsPush createdId shadow plan entry)
    (hleaves : LeavesAnchors shadow plan.operations) (honce : OffOnce shadow plan.operations)
    {operations rest : List PushOperation} {operation : PushOperation}
    (hsplit : plan.operations = operations ++ operation :: rest)
    (hplanned : PlannedOn shadow operation) {home : Nat → Option PageBlock}
    {blocks : List PageBlock}
    (h : Tracks shadow createdId restoredId plan.operations.length (takenOff plan.operations)
      (operations ++ [operation]) home blocks)
    {undo : List UndoOperation}
    (hundo : undoOperation yaml entry operations.length operation = .ok undo) (j : Nat) :
    ∃ blocks' home', applyUndoFrom restoredId j blocks undo = some blocks' ∧
      Tracks shadow createdId restoredId plan.operations.length (takenOff plan.operations)
        operations home' blocks' := by
  have hk : operations.length < plan.operations.length := by
    rw [hsplit, List.length_append, List.length_cons]
    omega
  have hat : plan.operations[operations.length]? = some operation := by simp [hsplit]
  have hmem : operation ∈ plan.operations := List.mem_of_getElem? hat
  have hnew : ∀ j, isCreated createdId plan.operations.length (restoredId j) = false :=
    fun j => isCreated_eq_false fun k heq => hapart j k heq.symm
  -- the neighbour before a block that is taken off is left alone by the whole plan
  have hbeside : ∀ {s : Nat} {block : ShadowBlock}, shadow.blocks[s]? = some block →
      takesOff block.remoteId operation = true → ∀ (t : Nat) (previous : ShadowBlock),
        s = t + 1 → shadow.blocks[t]? = some previous →
          takenOff (operations ++ [operation]) previous.remoteId = false ∧
            takenOff plan.operations previous.remoteId = false := by
    rintro s block hget hoff t previous rfl hprevious
    have hnot := hleaves.beside t previous block hprevious hget (takenOff_of_mem hmem hoff)
    refine ⟨?_, hnot⟩
    have hwhole : plan.operations = (operations ++ [operation]) ++ rest := by simp [hsplit]
    rw [hwhole, takenOff, List.any_append, Bool.or_eq_false_iff] at hnot
    exact hnot.1
  -- a block that was taken off comes back with its text
  have hback : ∀ {s : Nat} {block : ShadowBlock} (i : Nat), shadow.blocks[s]? = some block →
      (∀ id, takesOff id operation = decide (block.remoteId = id)) →
      (∀ id, updates id operation = false) →
      HomesOf shadow restoredId (takenOff plan.operations) (takenOff operations)
        (updated operations)
        (Function.update home s (some ⟨restoredId i, some block.remoteId, block.text⟩)) := by
    intro s block i hget hoff hup
    have hself : takesOff block.remoteId operation = true := by simp [hoff]
    rw [hsplit] at honce
    apply h.homes.set hids hget (fun _ hid => hid)
    · intro id hne
      simp [hoff, hne]
    · intro id _ hid
      simp [hup, hid]
    · simp [honce.before hget hself]
    · intro y hy
      injection hy with hy
      subst hy
      refine ⟨fun _ => rfl, ?_, Or.inr ⟨i, rfl⟩, rfl⟩
      intro hnot
      rw [takenOff_of_mem hmem hself] at hnot
      cases hnot
  have hhome : ∀ {s : Nat} {block : ShadowBlock}, shadow.blocks[s]? = some block →
      takesOff block.remoteId operation = true → home s = none := by
    intro s block hget hoff
    rw [h.homes.off s block hget, takenOff_concat, hoff, Bool.or_true]
  -- the copy of a block goes and the block comes back
  have hrecreated : ∀ {s : Nat} {block : ShadowBlock}, shadow.blocks[s]? = some block →
      (∀ id, takesOff id operation = decide (block.remoteId = id)) →
      (∀ id, updates id operation = false) → creates operation = true →
      undo = [.archiveCreatedBlock (createdId operations.length),
        restoreArchived block.remoteId shadow (previousBlockId shadow s) block] →
      ∃ blocks' home', applyUndoFrom restoredId j blocks undo = some blocks' ∧
        Tracks shadow createdId restoredId plan.operations.length (takenOff plan.operations)
          operations home' blocks' := by
    intro s block hget hoff hup hcreates hundo
    have hself : takesOff block.remoteId operation = true := by simp [hoff]
    obtain ⟨without, hremove, hkept, hcreated⟩ := archiveCreated_eq hk
      (h.created.trans (createdBy_concat_perm createdId hcreates))
    obtain ⟨blocks', hinsert, hitems⟩ := restoreArchived_eq hids hfresh hrestored
      (hkept.trans h.kept) h.homes hget (hhome hget hself) (hbeside hget hself)
      (x := ⟨restoredId (j + 1), some block.remoteId, block.text⟩) (hnew (j + 1))
    refine ⟨blocks', _, ?_, hitems, ?_, hback (j + 1) hget hoff hup⟩
    · rw [hundo]
      simp only [applyUndoFrom, applyUndoOperation, restoreArchived, hremove, hinsert,
        Option.bind_some]
    · exact (filter_insertBehind_created hinsert (hnew (j + 1))).trans hcreated
  cases hplanned with
  | properties entityId properties =>
      refine ⟨blocks, home, ?_, h.kept, ?_, ?_⟩
      · obtain ⟨previous, rfl⟩ := undo_properties hundo
        rfl
      · have hcreated := h.created
        rwa [createdBy_concat_of_not createdId rfl] at hcreated
      · apply h.homes.mono (fun _ hid => hid)
        · simp [takesOff]
        · simp [updates]
  | append parentId after content =>
      simp only [undoOperation, undoAppend, hentry.findCreated hat rfl] at hundo
      injection hundo with hundo
      obtain ⟨blocks', hremove, hkept, hcreated⟩ := archiveCreated_eq hk
        (h.created.trans (createdBy_concat_perm createdId rfl))
      refine ⟨blocks', home, ?_, hkept.trans h.kept, hcreated, ?_⟩
      · rw [← hundo]
        simp only [applyUndoFrom, applyUndoOperation, hremove, Option.bind_some]
      · apply h.homes.mono (fun _ hid => hid)
        · simp [takesOff]
        · simp [updates]
  | @update s block hget content =>
      rw [hentry.undo_update hids hget] at hundo
      injection hundo with hundo
      have hup : updated plan.operations block.remoteId = true :=
        List.any_eq_true.mpr ⟨_, hmem, decide_eq_true rfl⟩
      have hever := hleaves.inPlace s block hget hup
      have hoff : takenOff operations block.remoteId = false := by
        rw [hsplit, takenOff, List.any_append, Bool.or_eq_false_iff] at hever
        exact hever.1
      cases hx : home s with
      | none =>
          rw [h.homes.off s block hget, takenOff_concat, hoff] at hx
          cases hx
      | some x =>
          obtain ⟨blocks', hrewrite, hitems⟩ := restoreContent_eq hids hfresh hrestored h.kept
            h.homes hget hever hx
          have hfits := h.homes.fits s block x hget hx
          refine ⟨blocks', _, ?_, hitems, ?_, ?_⟩
          · rw [← hundo]
            simp only [applyUndoFrom, applyUndoOperation, hrewrite, Option.bind_some]
          · obtain ⟨y, others, _, hperm, hperm'⟩ := perm_of_rewriteFirst hrewrite
            have hcreated := h.created
            rw [createdBy_concat_of_not createdId rfl] at hcreated
            refine List.Perm.trans ?_ hcreated
            exact ((hperm'.map PageBlock.id).filter _).trans
              ((hperm.map PageBlock.id).filter _).symm
          · apply h.homes.set hids hget (fun _ hid => hid)
            · intro id _
              simp [takesOff]
            · intro id hne hid
              simp [updates, hid, hne]
            · simp [hoff]
            · intro y hy
              injection hy with hy
              subst hy
              exact ⟨fun _ => rfl, fun _ => hfits.id hever, hfits.given, hfits.name⟩
  | replace hget content =>
      rw [hentry.undo_replace hids hget hat] at hundo
      injection hundo with hundo
      exact hrecreated hget (fun _ => rfl) (fun _ => rfl) rfl hundo.symm
  | move hget after =>
      rw [hentry.undo_move hids hget hat] at hundo
      injection hundo with hundo
      exact hrecreated hget (fun _ => rfl) (fun _ => rfl) rfl hundo.symm
  | @archive s block hget =>
      rw [hentry.undo_archive hids hget] at hundo
      injection hundo with hundo
      have hself : takesOff block.remoteId (.archiveBlock block.remoteId) = true :=
        decide_eq_true rfl
      obtain ⟨blocks', hinsert, hitems⟩ := restoreArchived_eq hids hfresh hrestored h.kept
        h.homes hget (hhome hget hself) (hbeside hget hself)
        (x := ⟨restoredId j, some block.remoteId, block.text⟩) (hnew j)
      refine ⟨blocks', _, ?_, hitems, ?_, hback j hget (fun _ => rfl) (fun _ => rfl)⟩
      · rw [← hundo]
        simp only [applyUndoFrom, applyUndoOperation, restoreArchived, hinsert,
          Option.bind_some]
      · have hcreated := h.created
        rw [createdBy_concat_of_not createdId rfl] at hcreated
        exact (filter_insertBehind_created hinsert (hnew j)).trans hcreated

theorem undoResults_concat (yaml : YamlSerde) (entry : JournalEntry)
    (operations : List PushOperation) (operation : PushOperation) :
    undoResults yaml entry (operations ++ [operation]) =
      undoOperation yaml entry operations.length operation ::
        undoResults yaml entry operations := by
  simp [undoResults, List.zipIdx_append]

/-- The undo of the operations up to a position moves it back to the start. -/
theorem applyUndoFrom_tracks (hids : shadow.DistinctIds) (hfresh : FreshIds shadow createdId)
    (hrestored : FreshIds shadow restoredId) (hapart : ∀ j k, restoredId j ≠ createdId k)
    (hentry : JournalsPush createdId shadow plan entry)
    (hleaves : LeavesAnchors shadow plan.operations) (honce : OffOnce shadow plan.operations)
    (hplanned : ∀ operation ∈ plan.operations, PlannedOn shadow operation)
    (operations : List PushOperation) :
    ∀ {rest : List PushOperation} {home : Nat → Option PageBlock} {blocks : List PageBlock}
      (j : Nat), plan.operations = operations ++ rest →
      Tracks shadow createdId restoredId plan.operations.length (takenOff plan.operations)
        operations home blocks →
      (∀ result ∈ undoResults yaml entry operations, ∃ undo, result = .ok undo) →
      ∃ blocks' home', applyUndoFrom restoredId j blocks
          ((undoResults yaml entry operations).flatMap fun result => result.toOption.getD []) =
            some blocks' ∧
        Tracks shadow createdId restoredId plan.operations.length (takenOff plan.operations) []
          home' blocks' := by
  induction operations using List.reverseRecOn with
  | nil =>
      intro rest home blocks j _ h _
      exact ⟨blocks, home, rfl, h⟩
  | append_singleton operations operation ih =>
      intro rest home blocks j hsplit h hok
      rw [undoResults_concat, List.forall_mem_cons] at hok
      obtain ⟨⟨undo, hundo⟩, hok⟩ := hok
      have hsplit' : plan.operations = operations ++ operation :: rest := by simp [hsplit]
      obtain ⟨blocks₁, home₁, hrun₁, h₁⟩ := applyUndo_tracks hids hfresh hrestored hapart hentry
        hleaves honce hsplit' (hplanned operation (by simp [hsplit'])) h hundo j
      obtain ⟨blocks', home', hrun', h'⟩ := ih (j + undo.length) hsplit' h₁ hok
      refine ⟨blocks', home', ?_, h'⟩
      rw [undoResults_concat, List.flatMap_cons, hundo]
      change applyUndoFrom restoredId j blocks (undo ++ _) = _
      rw [applyUndoFrom_append, hrun₁, Option.bind_some, hrun']

/-- With nothing left to undo, the page has the texts of the shadow. -/
theorem Tracks.texts_eq {bound : Nat} {ever : RemoteId → Bool} {home : Nat → Option PageBlock}
    {blocks : List PageBlock}
    (h : Tracks shadow createdId restoredId bound ever [] home blocks) :
    blocks.map PageBlock.text = shadow.blocks.map ShadowBlock.text := by
  have hkept : blocks.filter (isKept createdId bound) = blocks := by
    rw [List.filter_eq_self]
    intro z hz
    have hnil := h.created.eq_nil
    rw [List.filter_eq_nil_iff] at hnil
    simpa [isKept] using hnil z.id (List.mem_map_of_mem hz)
  have hhome : ∀ s ∈ List.range shadow.blocks.length, (home s).map PageBlock.text =
      (shadow.blocks.map ShadowBlock.text)[s]? := by
    intro s hs
    have hget := List.getElem?_eq_getElem (List.mem_range.mp hs)
    cases hx : home s with
    | none =>
        rw [h.homes.off s _ hget] at hx
        cases hx
    | some x =>
        rw [List.getElem?_map, hget, Option.map_some, Option.map_some,
          (h.homes.fits s _ x hget hx).text rfl]
  have hitems := Layout.items_atHome (shadow.blocks.map ShadowBlock.text)
  rw [← hkept, h.kept, Layout.items_ofHomes, List.map_filterMap, List.filterMap_congr hhome]
  rw [List.length_map] at hitems
  conv_rhs => rw [← hitems]
  exact (Layout.items_ofHomes _ _).symm

/-- A block that the push took off is on the page under no id. -/
theorem Pushed.absent (hfresh : FreshIds shadow createdId)
    {bound : Nat} {operations : List PushOperation} {home : Nat → Option PageBlock}
    {blocks : List PageBlock}
    (h : Pushed shadow createdId restoredId bound operations home blocks) {s : Nat}
    {block : ShadowBlock} (hget : shadow.blocks[s]? = some block)
    (hoff : takenOff operations block.remoteId = true) :
    block.remoteId ∉ blocks.map PageBlock.id := by
  intro hmem
  obtain ⟨z, hz, hid⟩ := List.mem_map.mp hmem
  have hkept := isKept_of_hasId bound hfresh hget (decide_eq_true hid)
  have hitem : z ∈ blocks.filter (isKept createdId bound) := List.mem_filter.mpr ⟨hz, hkept⟩
  rw [h.tracks.kept, Layout.mem_items_ofHomes] at hitem
  obtain ⟨i, hi, hhome⟩ := hitem
  have hother := List.getElem?_eq_getElem hi
  have hleft : takenOff operations shadow.blocks[i].remoteId = false := by
    cases htaken : takenOff operations shadow.blocks[i].remoteId with
    | false => rfl
    | true =>
        rw [(h.tracks.homes.off i _ hother).mpr htaken] at hhome
        cases hhome
  have hown := (h.tracks.homes.fits i _ z hother hhome).id hleft
  rw [← hown, hid, hoff] at hleft
  cases hleft

/-- A complete plan undoes every operation. -/
theorem undoResults_ok (h : (planJournalUndo yaml entry).status = .complete) :
    ∀ result ∈ undoResults yaml entry entry.plan.operations, ∃ undo, result = .ok undo := by
  intro result hmem
  cases result with
  | ok undo => exact ⟨undo, rfl⟩
  | error reason =>
      unfold planJournalUndo at h
      simp only at h
      split at h
      · rename_i hempty
        rw [List.isEmpty_iff, List.filterMap_eq_nil_iff] at hempty
        have hnone := hempty _ hmem
        cases hnone
      · cases h
      · cases h

/-- The undo of an operation is part of the plan. -/
theorem mem_undo_operations {k : Nat} {operation : PushOperation} {undo : List UndoOperation}
    (hget : entry.plan.operations[k]? = some operation)
    (hundo : undoOperation yaml entry k operation = .ok undo) {step : UndoOperation}
    (hstep : step ∈ undo) : step ∈ (planJournalUndo yaml entry).operations := by
  have hresult : Except.ok undo ∈ undoResults yaml entry entry.plan.operations := by
    rw [undoResults, List.mem_map]
    refine ⟨(operation, k), ?_, hundo⟩
    rw [List.mem_reverse, List.mem_zipIdx_iff_getElem?]
    exact hget
  exact List.mem_flatMap.mpr ⟨_, hresult, hstep⟩

/-- A block that is taken off is restored behind the block before it. -/
theorem restore_mem (hids : shadow.DistinctIds) (hentry : JournalsPush createdId shadow plan entry)
    (hplanned : ∀ operation ∈ plan.operations, PlannedOn shadow operation) {s : Nat}
    {block : ShadowBlock} (hget : shadow.blocks[s]? = some block)
    (hoff : takenOff plan.operations block.remoteId = true) :
    restoreArchived block.remoteId shadow (previousBlockId shadow s) block ∈
      (planJournalUndo yaml entry).operations := by
  obtain ⟨operation, hmem, htakes⟩ := List.any_eq_true.mp hoff
  obtain ⟨k, hk⟩ := List.mem_iff_getElem?.mp hmem
  have hk' : entry.plan.operations[k]? = some operation := by rw [hentry.journaled, hk]
  cases hplanned operation hmem with
  | properties entityId properties => cases htakes
  | append parentId after content => cases htakes
  | update hother content => cases htakes
  | replace hother content =>
      have hsame := shadowBlock_ext hids hother hget (of_decide_eq_true htakes)
      subst hsame
      rw [hget] at hother
      injection hother with hother
      subst hother
      exact mem_undo_operations hk' (hentry.undo_replace hids hget hk) (by simp)
  | move hother after =>
      have hsame := shadowBlock_ext hids hother hget (of_decide_eq_true htakes)
      subst hsame
      rw [hget] at hother
      injection hother with hother
      subst hother
      exact mem_undo_operations hk' (hentry.undo_move hids hget hk) (by simp)
  | archive hother =>
      have hsame := shadowBlock_ext hids hother hget (of_decide_eq_true htakes)
      subst hsame
      rw [hget] at hother
      injection hother with hother
      subst hother
      exact mem_undo_operations hk' (hentry.undo_archive hids hget) (by simp)

/-- A block that is written in place is written back. -/
theorem restoreContent_mem (hids : shadow.DistinctIds)
    (hentry : JournalsPush createdId shadow plan entry)
    (hplanned : ∀ operation ∈ plan.operations, PlannedOn shadow operation) {s : Nat}
    {block : ShadowBlock} (hget : shadow.blocks[s]? = some block)
    (hup : updated plan.operations block.remoteId = true) :
    .restoreBlockContent block.remoteId block.text ∈ (planJournalUndo yaml entry).operations := by
  obtain ⟨operation, hmem, hupdates⟩ := List.any_eq_true.mp hup
  obtain ⟨k, hk⟩ := List.mem_iff_getElem?.mp hmem
  have hk' : entry.plan.operations[k]? = some operation := by rw [hentry.journaled, hk]
  cases hplanned operation hmem with
  | update hother content =>
      have hsame := shadowBlock_ext hids hother hget (of_decide_eq_true hupdates)
      subst hsame
      rw [hget] at hother
      injection hother with hother
      subst hother
      exact mem_undo_operations hk' (hentry.undo_update hids hget) (by simp)
  | _ => cases hupdates

/-- A complete undo plan runs to its end, each anchor on the page when it is used, and
gives the texts of the shadow in its order, exactly if the push left the anchors. -/
theorem planJournalUndo_restores_iff {edited : CanonicalDocument} {line : Nat}
    {page : List PageBlock} (hids : shadow.DistinctIds) (hfresh : FreshIds shadow createdId)
    (hrestored : FreshIds shadow restoredId) (hapart : ∀ j k, restoredId j ≠ createdId k)
    (hplan : planBlockDiff yaml shadow edited line = .ok plan)
    (hentry : JournalsPush createdId shadow plan entry)
    (hpage : pageAfter createdId shadow plan.operations = some page)
    (hcomplete : (planJournalUndo yaml entry).status = .complete) :
    (∃ blocks, pageAfterUndo restoredId page (planJournalUndo yaml entry).operations =
        some blocks ∧ blocks.map PageBlock.text = shadow.blocks.map ShadowBlock.text) ↔
      LeavesAnchors shadow plan.operations := by
  obtain ⟨properties, hproperties, hoperations, _⟩ := planBlockDiff_ok hplan
  rw [(alignBlocks_valid shadow _).blockOperations_eq hids] at hoperations
  change plan.operations = stepOperations shadow properties (plannedSteps shadow _) at hoperations
  have hplanned : ∀ operation ∈ plan.operations, PlannedOn shadow operation := by
    rw [hoperations]
    exact stepOperations_planned hproperties
  have honce : OffOnce shadow plan.operations := by
    rw [hoperations]
    exact stepOperations_offOnce hids hproperties
  obtain ⟨last, hrun, rfl⟩ := Option.map_eq_some_iff.mp hpage
  obtain ⟨home, hpushed⟩ := @applyFrom_tracks shadow createdId restoredId
    plan.operations.length hids hfresh hrestored plan.operations [] _ _ last
    (synced_pushed hfresh) (Nat.le_refl _) hplanned honce hrun
  rw [List.nil_append] at hpushed
  constructor
  · -- a block that is gone and still needed stops the undo
    rintro ⟨blocks, hundone, _⟩
    have hneeded : ∀ {s : Nat} {block : ShadowBlock}, shadow.blocks[s]? = some block →
        takenOff plan.operations block.remoteId = true →
        (∃ operation ∈ (planJournalUndo yaml entry).operations,
          needsBlock block.remoteId operation = true) → False := by
      intro s block hget hoff hneeds
      have hnone := @applyUndoFrom_eq_none restoredId block.remoteId
        (fun j => hrestored.notSynced j block (List.mem_of_getElem? hget)) _ 0 _
        (hpushed.absent hfresh hget hoff) hneeds
      rw [pageAfterUndo, hnone] at hundone
      cases hundone
    constructor
    · intro t previous block hprevious hget hoff
      cases hbefore : takenOff plan.operations previous.remoteId with
      | false => rfl
      | true =>
          refine absurd ?_ (hneeded hprevious hbefore)
          refine ⟨_, restore_mem hids hentry hplanned hget hoff, ?_⟩
          simp [restoreArchived, needsBlock, previousBlockId, hprevious]
    · intro s block hget hup
      cases hoff : takenOff plan.operations block.remoteId with
      | false => rfl
      | true =>
          refine absurd ?_ (hneeded hget hoff)
          exact ⟨_, restoreContent_mem hids hentry hplanned hget hup, decide_eq_true rfl⟩
  · intro hleaves
    have hok := undoResults_ok hcomplete
    rw [hentry.journaled] at hok
    obtain ⟨blocks, home', hundone, h'⟩ := applyUndoFrom_tracks hids hfresh hrestored hapart
      hentry hleaves honce hplanned plan.operations 0 (List.append_nil _).symm hpushed.tracks hok
    refine ⟨blocks, ?_, h'.texts_eq⟩
    rw [← hundone]
    simp only [pageAfterUndo, planJournalUndo, hentry.journaled]

end Undo

/-! ## Pages for examples -/

def threeParagraphs : ShadowDocument :=
  syncedPage "A\n\nB\n\nC\n".toList [⟨['a']⟩, ⟨['b']⟩, ⟨['c']⟩]

/-- Ids for restored blocks, of growing length. -/
def exampleRestoredIds (operationIndex : Nat) : RemoteId :=
  ⟨List.replicate (operationIndex + 1) '*'⟩

theorem exampleRestoredIds_fresh {shadow : ShadowDocument}
    (h : ∀ block ∈ shadow.blocks, '*' ∉ block.remoteId.value) :
    FreshIds shadow exampleRestoredIds where
  injective := by
    intro i j heq
    have hlength := congrArg (fun id : RemoteId => id.value.length) heq
    simpa [exampleRestoredIds] using hlength
  notSynced := by
    intro i block hblock heq
    apply h block hblock
    rw [← heq]
    simp [exampleRestoredIds]

theorem exampleRestoredIds_ne (j k : Nat) : exampleRestoredIds j ≠ exampleIds k := by
  intro heq
  have hhead := congrArg (fun id : RemoteId => id.value.head?) heq
  simp [exampleRestoredIds, exampleIds, List.replicate_succ] at hhead

/-- The journal of an edit that is planned and pushed. -/
def exampleJournal (plan : PushPlan) : JournalEntry :=
  journalOf exampleIds threeParagraphs plan ⟨"push".toList⟩ ⟨"mount".toList⟩

/-- The status of the undo plan of an edit, and the texts after it is applied. -/
def textsAfterUndo (body : Text) : Option (UndoPlanStatus × Option (List Text)) :=
  (planBlockDiff noYaml threeParagraphs ⟨[], body⟩ 1).toOption.bind fun plan =>
    (pageAfter exampleIds threeParagraphs plan.operations).map fun page =>
      let undo := planJournalUndo noYaml (exampleJournal plan)
      (undo.status, (pageAfterUndo exampleRestoredIds page undo.operations).map fun blocks =>
        blocks.map PageBlock.text)

theorem textsAfterUndo_spec {body : Text} {status : UndoPlanStatus}
    {texts : Option (List Text)} (h : textsAfterUndo body = some (status, texts)) :
    ∃ plan page, planBlockDiff noYaml threeParagraphs ⟨[], body⟩ 1 = .ok plan ∧
      pageAfter exampleIds threeParagraphs plan.operations = some page ∧
      (planJournalUndo noYaml (exampleJournal plan)).status = status ∧
      (pageAfterUndo exampleRestoredIds page
        (planJournalUndo noYaml (exampleJournal plan)).operations).map
          (fun blocks => blocks.map PageBlock.text) = texts := by
  unfold textsAfterUndo at h
  cases hplan : planBlockDiff noYaml threeParagraphs ⟨[], body⟩ 1 with
  | error error => simp [hplan, Except.toOption] at h
  | ok plan =>
      rw [hplan] at h
      obtain ⟨page, hpage, hundo⟩ := Option.map_eq_some_iff.mp h
      injection hundo with hstatus htexts
      exact ⟨plan, page, rfl, hpage, hstatus, htexts⟩

theorem threeParagraphs_distinct : threeParagraphs.DistinctIds := by
  unfold ShadowDocument.DistinctIds
  decide +kernel

/-- One paragraph becomes a heading and one is added: the undo gives the page back. -/
theorem planJournalUndo_restores_heading :
    ∃ plan page blocks,
      planBlockDiff noYaml threeParagraphs ⟨[], "A\n\n# B\n\nC\n\nNew\n".toList⟩ 1 = .ok plan ∧
      pageAfter exampleIds threeParagraphs plan.operations = some page ∧
      pageAfterUndo exampleRestoredIds page
        (planJournalUndo noYaml (exampleJournal plan)).operations = some blocks ∧
      blocks.map PageBlock.text = threeParagraphs.blocks.map ShadowBlock.text := by
  have htexts : textsAfterUndo "A\n\n# B\n\nC\n\nNew\n".toList =
      some (.complete, some [['A'], ['B'], ['C']]) := by decide +kernel
  obtain ⟨plan, page, hplan, hpage, hstatus, _⟩ := textsAfterUndo_spec htexts
  have hleaves : LeavesAnchors threeParagraphs plan.operations := by
    have hdecided : ((planBlockDiff noYaml threeParagraphs
        ⟨[], "A\n\n# B\n\nC\n\nNew\n".toList⟩ 1).toOption.all fun other =>
          decide (LeavesAnchors threeParagraphs other.operations)) = true := by decide +kernel
    rw [hplan] at hdecided
    exact of_decide_eq_true hdecided
  obtain ⟨blocks, hblocks, hsame⟩ := (planJournalUndo_restores_iff threeParagraphs_distinct
    (exampleIds_fresh (by decide +kernel)) (exampleRestoredIds_fresh (by decide +kernel))
    exampleRestoredIds_ne hplan (journalOf_journalsPush _ _ _ _ _) hpage hstatus).mpr hleaves
  exact ⟨plan, page, blocks, hplan, hpage, hblocks, hsame⟩

/-- Two neighbours are archived: the undo plan is complete, and its first operation
restores the second behind the first, which is not there. -/
theorem planJournalUndo_anchor_missing :
    threeParagraphs.DistinctIds ∧ FreshIds threeParagraphs exampleIds ∧
      FreshIds threeParagraphs exampleRestoredIds ∧
      ∃ plan page, planBlockDiff noYaml threeParagraphs ⟨[], "A\n".toList⟩ 1 = .ok plan ∧
        pageAfter exampleIds threeParagraphs plan.operations = some page ∧
        JournalsPush exampleIds threeParagraphs plan (exampleJournal plan) ∧
        (planJournalUndo noYaml (exampleJournal plan)).status = .complete ∧
        pageAfterUndo exampleRestoredIds page
          (planJournalUndo noYaml (exampleJournal plan)).operations = none := by
  have htexts : textsAfterUndo "A\n".toList = some (.complete, none) := by decide +kernel
  obtain ⟨plan, page, hplan, hpage, hstatus, hundone⟩ := textsAfterUndo_spec htexts
  exact ⟨threeParagraphs_distinct, exampleIds_fresh (by decide +kernel),
    exampleRestoredIds_fresh (by decide +kernel), plan, page, hplan, hpage,
    journalOf_journalsPush _ _ _ _ _, hstatus, Option.map_eq_none_iff.mp hundone⟩

end Locality.Notion
