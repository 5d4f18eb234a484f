/-
  Notion/ApplyUndo.lean --- the operations of an undo plan on the blocks of a page:
  `apply_undo` of `locality-notion/src/apply.rs`.

  A restored block is appended anew, so the service gives it an id of its own;
  `restoredId` is that choice, by the index of the undo operation.  Whoever follows
  finds it on the page under that id and not under the one it had.
-/
import Locality.Core.Undo
import Locality.Notion.Apply

set_option autoImplicit false

namespace Locality.Notion

open Locality.Core
open Locality.Foundation

section Undo

variable (restoredId : Nat → RemoteId)

/-- One operation of an undo plan.  It fails when it names a block, or an anchor, that is
not on the page.  The connector refuses to move a block and to write a whole body. -/
def applyUndoOperation (operationIndex : Nat) (blocks : List PageBlock) :
    UndoOperation → Option (List PageBlock)
  | .restoreBlockContent blockId content =>
      rewriteFirst (PageBlock.hasId blockId) (fun block => block.withText content) blocks
  | .archiveCreatedBlock blockId => removeFirst (PageBlock.hasId blockId) blocks
  | .restoreArchivedBlock blockId _ after content _ =>
      insertBehind after ⟨restoredId operationIndex, some blockId, content⟩ blocks
  | .moveBlock _ _ | .restoreEntityBody _ _ _ => none
  | _ => some blocks

/-- The operations from an index on, in order. -/
def applyUndoFrom : Nat → List PageBlock → List UndoOperation → Option (List PageBlock)
  | _, blocks, [] => some blocks
  | operationIndex, blocks, operation :: operations =>
      (applyUndoOperation restoredId operationIndex blocks operation).bind fun blocks =>
        applyUndoFrom (operationIndex + 1) blocks operations

/-- The page after an undo plan. -/
def pageAfterUndo (blocks : List PageBlock) (operations : List UndoOperation) :
    Option (List PageBlock) :=
  applyUndoFrom restoredId 0 blocks operations

theorem applyUndoFrom_append (operationIndex : Nat) (blocks : List PageBlock)
    (first second : List UndoOperation) :
    applyUndoFrom restoredId operationIndex blocks (first ++ second) =
      (applyUndoFrom restoredId operationIndex blocks first).bind fun blocks =>
        applyUndoFrom restoredId (operationIndex + first.length) blocks second := by
  induction first generalizing operationIndex blocks with
  | nil => rfl
  | cons operation first ih =>
      rw [List.cons_append, applyUndoFrom, applyUndoFrom]
      cases applyUndoOperation restoredId operationIndex blocks operation with
      | none => rfl
      | some blocks =>
          simp only [Option.bind_some, ih, List.length_cons]
          rw [show operationIndex + 1 + first.length = operationIndex + (first.length + 1) by
            omega]

end Undo

/-! ## Blocks that are gone -/

/-- The operation finds its place by the block with this id. -/
def needsBlock (id : RemoteId) : UndoOperation → Bool
  | .restoreBlockContent blockId _ => decide (blockId = id)
  | .restoreArchivedBlock _ _ after _ _ => decide (after = some id)
  | _ => false

section Absent

variable {restoredId : Nat → RemoteId} {id : RemoteId}

theorem insertBehind_perm {after : Option RemoteId} {block : PageBlock}
    {blocks blocks' : List PageBlock} (h : insertBehind after block blocks = some blocks') :
    blocks'.Perm (block :: blocks) := by
  cases after with
  | none =>
      injection h with h
      exact h ▸ List.Perm.refl _
  | some blockId => exact perm_of_insertAfter h

/-- No undo operation brings an id back that the service does not give anew. -/
theorem applyUndoOperation_absent (hid : ∀ j, restoredId j ≠ id) {j : Nat}
    {blocks blocks' : List PageBlock} {operation : UndoOperation}
    (habsent : id ∉ blocks.map PageBlock.id)
    (h : applyUndoOperation restoredId j blocks operation = some blocks') :
    id ∉ blocks'.map PageBlock.id := by
  cases operation with
  | restoreBlockContent blockId content =>
      obtain ⟨y, rest, _, hperm, hperm'⟩ := perm_of_rewriteFirst h
      rw [(hperm'.map PageBlock.id).mem_iff]
      rwa [(hperm.map PageBlock.id).mem_iff] at habsent
  | archiveCreatedBlock blockId =>
      obtain ⟨y, _, hperm⟩ := perm_of_removeFirst h
      rw [(hperm.map PageBlock.id).mem_iff] at habsent
      exact fun hmem => habsent (List.mem_cons_of_mem _ hmem)
  | restoreArchivedBlock blockId parentId after content nativeKind =>
      rw [((insertBehind_perm h).map PageBlock.id).mem_iff, List.map_cons, List.mem_cons]
      rintro (heq | hmem)
      · exact hid j heq.symm
      · exact habsent hmem
  | moveBlock blockId after => cases h
  | restoreEntityBody entityId expectedCurrent previous => cases h
  | archiveCreatedEntity entityId expected =>
      injection h with h
      exact h ▸ habsent
  | restoreProperties entityId expectedCurrent previous =>
      injection h with h
      exact h ▸ habsent
  | restoreEntityLocation entityId parentId title previousParentId previousTitle =>
      injection h with h
      exact h ▸ habsent
  | restoreArchivedEntity entityId expected =>
      injection h with h
      exact h ▸ habsent

theorem applyUndoOperation_needs {j : Nat} {blocks : List PageBlock}
    {operation : UndoOperation} (habsent : id ∉ blocks.map PageBlock.id)
    (hneeds : needsBlock id operation = true) :
    applyUndoOperation restoredId j blocks operation = none := by
  have hnone : ∀ block ∈ blocks, PageBlock.hasId id block = false := by
    intro block hblock
    rw [PageBlock.hasId, decide_eq_false_iff_not]
    rintro rfl
    exact habsent (List.mem_map_of_mem hblock)
  cases operation with
  | restoreBlockContent blockId content =>
      rw [needsBlock, decide_eq_true_eq] at hneeds
      rw [applyUndoOperation, hneeds, rewriteFirst_eq_none]
      exact hnone
  | restoreArchivedBlock blockId parentId after content nativeKind =>
      rw [needsBlock, decide_eq_true_eq] at hneeds
      rw [applyUndoOperation, hneeds, insertBehind, insertAfter_eq_none]
      exact hnone
  | _ => cases hneeds

/-- A run that needs a block that is gone fails. -/
theorem applyUndoFrom_eq_none (hid : ∀ j, restoredId j ≠ id) :
    ∀ {operations : List UndoOperation} {j : Nat} {blocks : List PageBlock},
      id ∉ blocks.map PageBlock.id → (∃ operation ∈ operations, needsBlock id operation = true) →
        applyUndoFrom restoredId j blocks operations = none
  | [], _, _, _, h => by
      obtain ⟨operation, hmem, _⟩ := h
      cases hmem
  | operation :: operations, j, blocks, habsent, h => by
      rw [applyUndoFrom]
      cases hstep : applyUndoOperation restoredId j blocks operation with
      | none => rfl
      | some blocks' =>
          apply applyUndoFrom_eq_none hid (applyUndoOperation_absent hid habsent hstep)
          obtain ⟨needy, hmem, hneeds⟩ := h
          rcases List.mem_cons.mp hmem with rfl | hmem
          · rw [applyUndoOperation_needs habsent hneeds] at hstep
            cases hstep
          · exact ⟨needy, hmem, hneeds⟩

end Absent

end Locality.Notion
