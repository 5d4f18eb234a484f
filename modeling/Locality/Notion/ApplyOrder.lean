/-
  Notion/ApplyOrder.lean --- when the page after a plan reads as the edited body.

  A block that the plan leaves in place keeps its position among the others that it
  leaves, whatever the body says: neither test of the loop looks at a block that
  crosses the one before it with another hash, or behind a moved one.  So the page is
  the body cut in front of every block left in place, with the pieces in the order of
  the shadow, and it reads as the body exactly if that changes nothing.
-/
import Locality.Notion.ApplySteps

set_option autoImplicit false

namespace Locality.Notion

open Locality.Core
open Locality.Foundation

/-! ## The page and the body -/

/-- The page has the blocks of the body, in order, each with an equivalent text. -/
def Reproduces (page : List PageBlock) (editedBlocks : List SegmentedBlock) : Prop :=
  List.Forall₂ (fun block editedBlock =>
    renderedBodiesEquivalent block.text editedBlock.text = true) page editedBlocks

/-- The blocks that are neither moved nor written anew are matched in increasing order:
no block that crosses an earlier one is left where it stands. -/
def LeftInShadowOrder (shadow : ShadowDocument) (editedBlocks : List SegmentedBlock) : Prop :=
  ((plannedSteps shadow editedBlocks).filterMap fun step =>
    step.fate.stayedIndex).Pairwise (· < ·)

/-- The body cut in front of every block left in place, with the pieces in the order of
the shadow. -/
def piecesInShadowOrder (shadow : ShadowDocument) (editedBlocks : List SegmentedBlock) :
    List SegmentedBlock :=
  (arrange (fun step : PlanStep => step.fate.stayedIndex) shadow.blocks.length
    (plannedSteps shadow editedBlocks)).map PlanStep.block

/-- The pieces read the same in either order. -/
def PiecesReadAlike (shadow : ShadowDocument) (editedBlocks : List SegmentedBlock) : Prop :=
  List.Forall₂ (fun piece editedBlock : SegmentedBlock =>
    renderedBodiesEquivalent piece.text editedBlock.text = true)
      (piecesInShadowOrder shadow editedBlocks) editedBlocks

/-- Two lists read alike if their texts agree up to the spelling of media links. -/
theorem forall₂_equivalent_iff {α β : Type} {f : α → Text} {g : β → Text} {xs : List α}
    {ys : List β} :
    List.Forall₂ (fun x y => renderedBodiesEquivalent (f x) (g y) = true) xs ys ↔
      xs.map (fun x => normalizeLocMediaHrefs (f x)) =
        ys.map fun y => normalizeLocMediaHrefs (g y) := by
  rw [← List.forall₂_eq_eq_eq, List.forall₂_map_left_iff, List.forall₂_map_right_iff]
  simp only [renderedBodiesEquivalent_iff]

section Texts

variable {shadow : ShadowDocument} {createdId : Nat → RemoteId}

theorem rewritten_equivalent (k : Nat) {shadowBlock : ShadowBlock} (editedBlock : SegmentedBlock)
    {block : PageBlock} (htext : block.text = shadowBlock.text) :
    renderedBodiesEquivalent (rewritten createdId k shadowBlock editedBlock block).text
      editedBlock.text = true := by
  unfold rewritten
  split
  · exact renderedBodiesEquivalent_refl _
  · split
    · exact renderedBodiesEquivalent_refl _
    · rename_i hequivalent
      rw [htext]
      simpa using hequivalent

/-- A step leaves a block with the text of its edited block. -/
theorem placedBlock_equivalent (k : Nat) (step : PlanStep) :
    renderedBodiesEquivalent (placedBlock createdId shadow k step).text step.block.text =
      true := by
  unfold placedBlock
  cases step.fate with
  | fresh => exact renderedBodiesEquivalent_refl _
  | recreated s => exact renderedBodiesEquivalent_refl _
  | moved s =>
      cases hget : shadow.blocks[s]? with
      | none =>
          simp only [hget]
          exact renderedBodiesEquivalent_refl _
      | some shadowBlock =>
          simp only [hget]
          exact rewritten_equivalent _ step.block rfl
  | stayed s =>
      cases hget : shadow.blocks[s]? with
      | none =>
          simp only [hget]
          exact renderedBodiesEquivalent_refl _
      | some shadowBlock =>
          simp only [hget]
          exact rewritten_equivalent _ step.block rfl

theorem placedFrom_equivalent :
    ∀ (steps : List PlanStep) (k : Nat), ∀ p ∈ placedFrom createdId shadow k steps,
      renderedBodiesEquivalent p.2.text p.1.block.text = true
  | [], _, _, hp => by cases hp
  | step :: steps, k, p, hp => by
      rcases List.mem_cons.mp hp with rfl | hmem
      · exact placedBlock_equivalent k step
      · exact placedFrom_equivalent steps _ p hmem

/-- What the steps leave, arranged, reads as the pieces do. -/
theorem reproduces_iff_piecesReadAlike {editedBlocks : List SegmentedBlock} (k : Nat) :
    Reproduces ((arrange stepStays shadow.blocks.length
        (placedFrom createdId shadow k (plannedSteps shadow editedBlocks))).map Prod.snd)
          editedBlocks ↔
      PiecesReadAlike shadow editedBlocks := by
  have hpieces : piecesInShadowOrder shadow editedBlocks =
      (arrange stepStays shadow.blocks.length
        (placedFrom createdId shadow k (plannedSteps shadow editedBlocks))).map
          fun p => p.1.block := by
    unfold piecesInShadowOrder
    conv_lhs => rw [← placedFrom_map_fst createdId shadow (plannedSteps shadow editedBlocks) k]
    rw [arrange_map, List.map_map]
    rfl
  rw [Reproduces, PiecesReadAlike, forall₂_equivalent_iff, forall₂_equivalent_iff, hpieces,
    List.map_map, List.map_map]
  have hsame : (arrange stepStays shadow.blocks.length
      (placedFrom createdId shadow k (plannedSteps shadow editedBlocks))).map
        ((fun block : PageBlock => normalizeLocMediaHrefs block.text) ∘ Prod.snd) =
      (arrange stepStays shadow.blocks.length
        (placedFrom createdId shadow k (plannedSteps shadow editedBlocks))).map
          ((fun piece : SegmentedBlock => normalizeLocMediaHrefs piece.text) ∘
            fun p => p.1.block) := by
    apply List.map_congr_left
    intro p hp
    exact (renderedBodiesEquivalent_iff _ _).mp
      (placedFrom_equivalent _ k p (mem_of_mem_arrange hp))
  rw [hsame]

end Texts

/-! ## The exact condition -/

section Order

variable {shadow : ShadowDocument} {editedBlocks : List SegmentedBlock}

theorem LeftInShadowOrder.piecesReadAlike (h : LeftInShadowOrder shadow editedBlocks) :
    PiecesReadAlike shadow editedBlocks := by
  have hlt : ∀ i ∈ (plannedSteps shadow editedBlocks).filterMap
      (fun step => step.fate.stayedIndex), i < shadow.blocks.length := by
    intro i hi
    obtain ⟨step, hmem, hstep⟩ := List.mem_filterMap.mp hi
    have hmatched : step.fate.matched = some i := by
      cases hfate : step.fate <;> simp_all [Fate.stayedIndex, Fate.matched]
    apply @lt_of_mem_retained shadow editedBlocks
    rw [(alignBlocks_valid shadow editedBlocks).retainedShadow_eq]
    exact List.mem_filterMap.mpr ⟨step, hmem, hmatched⟩
  have hblocks : (plannedSteps shadow editedBlocks).map PlanStep.block = editedBlocks :=
    (alignBlocks_valid shadow editedBlocks).planSteps_block
  unfold PiecesReadAlike piecesInShadowOrder
  rw [arrange_of_increasing h hlt, hblocks, List.forall₂_same]
  intro block _
  exact renderedBodiesEquivalent_refl block.text

end Order

/-! ## Pages for examples -/

/-- New ids of growing length. -/
def exampleIds (operationIndex : Nat) : RemoteId := ⟨List.replicate (operationIndex + 1) '+'⟩

theorem exampleIds_fresh {shadow : ShadowDocument}
    (h : ∀ block ∈ shadow.blocks, '+' ∉ block.remoteId.value) : FreshIds shadow exampleIds where
  injective := by
    intro i j heq
    have hlength := congrArg (fun id : RemoteId => id.value.length) heq
    simpa [exampleIds] using hlength
  notSynced := by
    intro i block hblock heq
    apply h block hblock
    rw [← heq]
    simp [exampleIds]

/-- The texts of the page after an edit is planned and applied. -/
def textsAfter (shadow : ShadowDocument) (body : Text) : Option (List Text) :=
  (planBlockDiff noYaml shadow ⟨[], body⟩ 1).toOption.bind fun plan =>
    (pageAfter exampleIds shadow plan.operations).map fun page => page.map PageBlock.text

theorem textsAfter_spec {shadow : ShadowDocument} {body : Text} {texts : List Text}
    (h : textsAfter shadow body = some texts) :
    ∃ plan page, planBlockDiff noYaml shadow ⟨[], body⟩ 1 = .ok plan ∧
      pageAfter exampleIds shadow plan.operations = some page ∧
      page.map PageBlock.text = texts := by
  unfold textsAfter at h
  cases hplan : planBlockDiff noYaml shadow ⟨[], body⟩ 1 with
  | error error => simp [hplan, Except.toOption] at h
  | ok plan =>
      rw [hplan] at h
      obtain ⟨page, hpage, htexts⟩ := Option.map_eq_some_iff.mp h
      exact ⟨plan, page, rfl, hpage, htexts⟩

/-- Two paragraphs and two child pages. -/
def crossedPage : ShadowDocument :=
  syncedPage ("X\n\nY\n\n::loc\x7bid=d type=child_page\x7d\n\n" ++
    "::loc\x7bid=e type=child_page\x7d\n").toList [⟨['x']⟩, ⟨['y']⟩]

/-- The page with the paragraphs in the other order, each behind a child page. -/
def crossedBody : Text :=
  ("::loc\x7bid=d type=child_page\x7d\n\nY\n\n::loc\x7bid=e type=child_page\x7d\n\nX\n").toList

end Locality.Notion
