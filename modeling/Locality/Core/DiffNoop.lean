/-
  Core/DiffNoop.lean --- planning a document that nobody edited.

  The shadow of a synced body and the segments of the same body mirror each other
  block by block.  Every alignment pass keeps such a pair of lists on the diagonal, an
  edited block being matched to its own position only, and the walk over the residual
  blocks leaves none unmatched.  On a full diagonal nothing crosses and nothing is
  rewritten, so no operation is emitted.
-/
import Locality.Core.DiffWellFormed

set_option autoImplicit false

namespace Locality.Core

open Locality.Foundation

/-! ## Mirrored block lists -/

/-- A block and its own segment; the kind of a table may have been refined. -/
structure Mirrors (shadowBlock : ShadowBlock) (editedBlock : SegmentedBlock) : Prop where
  contentHash : shadowBlock.contentHash = editedBlock.contentHash
  text : shadowBlock.text = editedBlock.text
  kind : shadowBlock.kind = editedBlock.kind ∨
    editedBlock.kind = .table ∧
      ∃ rowIds column row, shadowBlock.kind = .tableWithRows rowIds column row
  directive : editedBlock.isDirective = true →
    ∃ directiveType raw, editedBlock.remoteId = some shadowBlock.remoteId ∧
      editedBlock.kind = .directive (some directiveType) raw false

/-- The two lists mirror each other position by position. -/
structure Mirrored (shadow : ShadowDocument) (editedBlocks : List SegmentedBlock) : Prop where
  length : shadow.blocks.length = editedBlocks.length
  mirrors : ∀ (i : Nat) (shadowBlock : ShadowBlock) (editedBlock : SegmentedBlock),
    shadow.blocks[i]? = some shadowBlock → editedBlocks[i]? = some editedBlock →
    Mirrors shadowBlock editedBlock

/-- Every edited block is matched to its own position or not at all. -/
def Alignment.Diagonal (a : Alignment) : Prop := ∀ e s, a.matchOf e = some s → s = e

namespace Mirrors

variable {shadowBlock : ShadowBlock} {editedBlock : SegmentedBlock}

theorem isDirective_eq (h : Mirrors shadowBlock editedBlock) :
    shadowBlock.kind.isDirective = editedBlock.isDirective := by
  unfold SegmentedBlock.isDirective
  rcases h.kind with heq | ⟨htable, rowIds, column, row, hrows⟩
  · rw [heq]
  · rw [htable, hrows]
    rfl

theorem sameAlignmentKind (h : Mirrors shadowBlock editedBlock) :
    sameAlignmentKind shadowBlock.kind editedBlock.kind = true := by
  rcases h.kind with heq | ⟨htable, rowIds, column, row, hrows⟩
  · rw [heq]
    cases editedBlock.kind <;> simp [Locality.Core.sameAlignmentKind]
  · rw [htable, hrows]
    rfl

/-- Nothing is written for a block that its own segment stands for. -/
theorem contentOperations_eq_nil (h : Mirrors shadowBlock editedBlock) :
    contentOperations shadowBlock editedBlock = [] := by
  have hkind : markdownWriteKind shadowBlock.kind shadowBlock.text =
      markdownWriteKind editedBlock.kind editedBlock.text := by
    rw [h.text]
    rcases h.kind with heq | ⟨htable, rowIds, column, row, hrows⟩
    · rw [heq]
    · rw [htable, hrows]
      rfl
  have hsame : shouldReplaceBlock shadowBlock editedBlock = false := by
    simp [shouldReplaceBlock, hkind]
  simp [contentOperations, hsame, h.text, renderedBodiesEquivalent_refl]

end Mirrors

section Mirrored

variable {shadow : ShadowDocument} {editedBlocks : List SegmentedBlock} {a b : Alignment}

theorem Mirrored.cases (h : Mirrored shadow editedBlocks) (i : Nat) :
    (shadow.blocks[i]? = none ∧ editedBlocks[i]? = none) ∨
      ∃ shadowBlock editedBlock, shadow.blocks[i]? = some shadowBlock ∧
        editedBlocks[i]? = some editedBlock ∧ Mirrors shadowBlock editedBlock := by
  by_cases hlt : i < editedBlocks.length
  · have hget := List.getElem?_eq_getElem (l := shadow.blocks) (i := i) (by rw [h.length]; exact hlt)
    have hget' := List.getElem?_eq_getElem hlt
    exact Or.inr ⟨_, _, hget, hget', h.mirrors i _ _ hget hget'⟩
  · have hge := Nat.le_of_not_lt hlt
    refine Or.inl ⟨List.getElem?_eq_none ?_, List.getElem?_eq_none hge⟩
    rw [h.length]
    exact hge

theorem Mirrored.isNative_eq (h : Mirrored shadow editedBlocks) (i : Nat) :
    shadowIsNative shadow i = editedIsNative editedBlocks i := by
  rcases h.cases i with ⟨hs, he⟩ | ⟨shadowBlock, editedBlock, hs, he, hmirrors⟩
  · simp [shadowIsNative, editedIsNative, hs, he]
  · simp [shadowIsNative, editedIsNative, hs, he, hmirrors.isDirective_eq]

theorem Mirrored.hasHash_eq (h : Mirrored shadow editedBlocks) (hash : Text) (i : Nat) :
    shadowHasHash shadow hash i = editedHasHash editedBlocks hash i := by
  rcases h.cases i with ⟨hs, he⟩ | ⟨shadowBlock, editedBlock, hs, he, hmirrors⟩
  · simp [shadowHasHash, editedHasHash, hs, he]
  · simp [shadowHasHash, editedHasHash, hs, he, hmirrors.contentHash]

theorem Mirrored.equivalentTexts (h : Mirrored shadow editedBlocks) {i : Nat}
    (hlt : i < editedBlocks.length) : equivalentTexts shadow editedBlocks i i = true := by
  rcases h.cases i with ⟨_, he⟩ | ⟨shadowBlock, editedBlock, hs, he, hmirrors⟩
  · rw [List.getElem?_eq_getElem hlt] at he
    cases he
  · simp [Locality.Core.equivalentTexts, hs, he, hmirrors.text, renderedBodiesEquivalent_refl]

theorem Mirrored.sameKindAt (h : Mirrored shadow editedBlocks) {i : Nat}
    (hlt : i < editedBlocks.length) : sameKindAt shadow editedBlocks i i = true := by
  rcases h.cases i with ⟨_, he⟩ | ⟨shadowBlock, editedBlock, hs, he, hmirrors⟩
  · rw [List.getElem?_eq_getElem hlt] at he
    cases he
  · simp [Locality.Core.sameKindAt, hs, he, hmirrors.sameAlignmentKind]

/-! ## The diagonal -/

theorem Alignment.initial_diagonal (n : Nat) : (Alignment.initial n).Diagonal := by
  intro e s h
  have hmem := List.mem_of_getElem? (Alignment.matchOf_eq_some.mp h)
  cases List.eq_of_mem_replicate hmem

theorem Alignment.Diagonal.assign (ha : a.Diagonal) (e : Nat) : (a.assign e e).Diagonal := by
  intro e' s h
  by_cases heq : e = e'
  · subst heq
    have hlt := Alignment.lt_of_matchOf h
    rw [Alignment.assign, List.length_set] at hlt
    rw [Alignment.matchOf_assign_self e hlt] at h
    exact (Option.some.inj h).symm
  · rw [Alignment.matchOf_assign_of_ne e heq] at h
    exact ha e' s h

theorem Alignment.Diagonal.mem_used (ha : a.Diagonal) (hvalid : a.Valid shadow editedBlocks)
    {s : Nat} : s ∈ a.usedShadow ↔ a.matchOf s = some s := by
  rw [hvalid.used]
  constructor
  · rintro ⟨e, he⟩
    have heq := ha e s he
    rwa [← heq] at he
  · intro h
    exact ⟨s, h⟩

/-- On the diagonal the residual positions of the two sides are the same. -/
theorem Alignment.Diagonal.residual_eq (ha : a.Diagonal) (h : Mirrored shadow editedBlocks)
    (hvalid : a.Valid shadow editedBlocks) (start stop : Nat) :
    residualShadow shadow a start stop = residualEdited editedBlocks a start stop := by
  apply List.filter_congr
  intro i _
  rw [h.isNative_eq i]
  have hused : (!a.isUsed i) = (a.matchOf i).isNone := by
    cases hmatch : a.matchOf i with
    | none =>
        have hnot : i ∉ a.usedShadow := by
          rw [ha.mem_used hvalid, hmatch]
          simp
        simp [Alignment.isUsed, hnot]
    | some s =>
        have hmem : i ∈ a.usedShadow := by
          rw [ha.mem_used hvalid, hmatch, ha i s hmatch]
        simp [Alignment.isUsed, hmem]
  rw [hused]

/-! ## Directives -/

theorem shadowDirectiveIndex_eq (hids : shadow.DistinctIds) {e : Nat} {block : ShadowBlock}
    (hget : shadow.blocks[e]? = some block) (hdirective : block.kind.isDirective = true) :
    shadowDirectiveIndex shadow block.remoteId = some e := by
  cases hindex : shadowDirectiveIndex shadow block.remoteId with
  | none =>
      have hnone := List.find?_eq_none.mp hindex e (by
        rw [List.mem_reverse, List.mem_range]
        exact (List.getElem?_eq_some_iff.mp hget).1)
      simp [hget, hdirective] at hnone
  | some s =>
      obtain ⟨other, hother, _, hid⟩ := shadowDirectiveIndex_some hindex
      have heq : s = e := by
        apply blockIdAt_inj hids (blockIdAt_eq hother)
        rw [hid]
        exact blockIdAt_eq hget
      rw [heq]

theorem Alignment.Diagonal.assignable (ha : a.Diagonal) (h : Mirrored shadow editedBlocks)
    (hvalid : a.Valid shadow editedBlocks) {e : Nat} (hlt : e < editedBlocks.length)
    (hunused : e ∉ a.usedShadow) : Assignable shadow editedBlocks a e e where
  editedInRange := hlt
  free := by
    cases hmatch : a.matchOf e with
    | none => rfl
    | some s =>
        have heq := ha e s hmatch
        rw [heq] at hmatch
        exact absurd ((ha.mem_used hvalid).mpr hmatch) hunused
  shadowInRange := by rw [h.length]; exact hlt
  unused := hunused
  nature := (h.isNative_eq e).symm

/-- A round of the directive pass stays on the diagonal, and matches the directive it
is about. -/
theorem alignDirective_diagonal (h : Mirrored shadow editedBlocks) (hids : shadow.DistinctIds)
    (ha : a.Diagonal) (hvalid : a.Valid shadow editedBlocks) (e : Nat) :
    Extends shadow editedBlocks a (alignDirective shadow editedBlocks a e) ∧
      (alignDirective shadow editedBlocks a e).Diagonal ∧
      ∀ block, editedBlocks[e]? = some block → block.isDirective = true →
        (alignDirective shadow editedBlocks a e).matchOf e = some e := by
  unfold alignDirective
  rcases h.cases e with ⟨_, he⟩ | ⟨shadowBlock, editedBlock, hs, he, hmirrors⟩
  · simp only [he]
    exact ⟨Extends.refl a, ha, by simp⟩
  · simp only [he]
    have hlt := (List.getElem?_eq_some_iff.mp he).1
    by_cases hdirective : editedBlock.isDirective = true
    · obtain ⟨_, _, hid, _⟩ := hmirrors.directive hdirective
      have hindex : editedBlock.remoteId.bind (shadowDirectiveIndex shadow) = some e := by
        rw [hid, Option.bind_some]
        exact shadowDirectiveIndex_eq hids hs (hmirrors.isDirective_eq.trans hdirective)
      simp only [hdirective, hindex, Bool.not_true, Bool.false_eq_true, if_false]
      by_cases hused : a.isUsed e = true
      · rw [if_pos hused]
        have hmatch := (ha.mem_used hvalid).mp (Alignment.isUsed_iff.mp hused)
        exact ⟨Extends.refl a, ha, fun _ _ _ => hmatch⟩
      · rw [if_neg hused]
        have hassignable := ha.assignable h hvalid hlt
          (fun hmem => hused (Alignment.isUsed_iff.mpr hmem))
        have hlt' : e < a.pairing.length := by
          rw [hvalid.length]
          exact hlt
        exact ⟨Extends.assign hassignable, ha.assign e,
          fun _ _ _ => Alignment.matchOf_assign_self e hlt'⟩
    · simp only [hdirective, Bool.not_false, if_true]
      refine ⟨Extends.refl a, ha, ?_⟩
      intro block hblock hblockDirective
      rw [Option.some.inj hblock] at hdirective
      exact absurd hblockDirective hdirective

theorem alignDirective_foldl_diagonal (h : Mirrored shadow editedBlocks)
    (hids : shadow.DistinctIds) (indexes : List Nat) (ha : a.Diagonal)
    (hvalid : a.Valid shadow editedBlocks) :
    Extends shadow editedBlocks a (indexes.foldl (alignDirective shadow editedBlocks) a) ∧
      (indexes.foldl (alignDirective shadow editedBlocks) a).Diagonal ∧
      ∀ e ∈ indexes, ∀ block, editedBlocks[e]? = some block → block.isDirective = true →
        (indexes.foldl (alignDirective shadow editedBlocks) a).matchOf e = some e := by
  induction indexes generalizing a with
  | nil => exact ⟨Extends.refl a, ha, by simp⟩
  | cons e indexes ih =>
      obtain ⟨hext, hdiagonal, hmatch⟩ := alignDirective_diagonal h hids ha hvalid e
      obtain ⟨hextRest, hdiagonalRest, hmatchRest⟩ := ih hdiagonal (hext.valid hvalid)
      refine ⟨hext.trans hextRest, hdiagonalRest, ?_⟩
      intro e' he' block hblock hdirective
      rcases List.mem_cons.mp he' with rfl | hmem
      · exact hextRest.matchOf (hmatch block hblock hdirective)
      · exact hmatchRest e' hmem block hblock hdirective

/-! ## Hashes and equivalent bodies -/

/-- The position is still residual if the later alignment leaves it free. -/
theorem mem_residualEdited_of_extends (hext : Extends shadow editedBlocks a b) {e : Nat}
    (hfree : b.matchOf e = none) (hnative : editedIsNative editedBlocks e = true) :
    e ∈ residualEdited editedBlocks a 0 editedBlocks.length := by
  rw [mem_residualEdited]
  refine ⟨⟨Nat.zero_le e, editedIsNative_lt hnative⟩, ?_, hnative⟩
  cases hmatch : a.matchOf e with
  | none => rfl
  | some s =>
      rw [hext.matchOf hmatch] at hfree
      cases hfree

/-- A hash that one free block carries on either side is carried by the same block. -/
theorem alignExactHash_diagonal (h : Mirrored shadow editedBlocks) {start : Alignment}
    (hstart : start.Diagonal) (hvalid : start.Valid shadow editedBlocks)
    (hext : Extends shadow editedBlocks start b) (hb : b.Diagonal) (e : Nat) :
    (alignExactHash shadow editedBlocks start b e).Diagonal := by
  unfold alignExactHash
  cases he : editedBlocks[e]? with
  | none => exact hb
  | some block =>
      simp only []
      split
      · exact hb
      · rename_i hskip
        simp only [Bool.or_eq_true, not_or, Bool.not_eq_true, Option.isSome_eq_false_iff,
          Option.isNone_iff_eq_none] at hskip
        split
        · exact hb
        · cases hunique : uniqueNativeShadowHash shadow start block.contentHash with
          | none => exact hb
          | some s =>
              have hnative : editedIsNative editedBlocks e = true := by
                simp [editedIsNative, he, hskip.2]
              have hmem : e ∈ (residualShadow shadow start 0 shadow.blocks.length).filter
                  (shadowHasHash shadow block.contentHash) := by
                rw [hstart.residual_eq h hvalid, h.length, List.mem_filter, h.hasHash_eq]
                exact ⟨mem_residualEdited_of_extends hext hskip.1 hnative,
                  by simp [editedHasHash, he]⟩
              have heq : e = s := by
                unfold uniqueNativeShadowHash at hunique
                split at hunique
                · rename_i s' hfilter
                  rw [hfilter, List.mem_singleton] at hmem
                  rw [hmem]
                  exact Option.some.inj hunique
                · cases hunique
              subst heq
              simp only []
              split
              · exact hb
              · exact hb.assign e

theorem alignExactHashes_diagonal (h : Mirrored shadow editedBlocks) (ha : a.Diagonal)
    (hvalid : a.Valid shadow editedBlocks) :
    (alignExactHashes shadow editedBlocks a).Diagonal := by
  have hrun : Extends shadow editedBlocks a (alignExactHashes shadow editedBlocks a) ∧
      (alignExactHashes shadow editedBlocks a).Diagonal := by
    apply List.foldlRecOn (motive := fun b => Extends shadow editedBlocks a b ∧ b.Diagonal) _ _
      ⟨Extends.refl a, ha⟩
    rintro b ⟨hext, hb⟩ e _
    exact ⟨hext.trans (extends_alignExactHash a b e),
      alignExactHash_diagonal h ha hvalid hext hb e⟩
  exact hrun.2

theorem mem_equivalentCandidates {start : Alignment} {s e : Nat} :
    s ∈ equivalentCandidates shadow editedBlocks start e ↔
      s ∈ residualShadow shadow start 0 shadow.blocks.length ∧
        equivalentTexts shadow editedBlocks s e = true :=
  List.mem_filter

/-- A shadow block that is a candidate for one edited block only is so for its own. -/
theorem alignEquivalentBody_diagonal (h : Mirrored shadow editedBlocks) {start : Alignment}
    (hstart : start.Diagonal) (hvalid : start.Valid shadow editedBlocks) (hb : b.Diagonal)
    {e : Nat} (he : e ∈ residualEdited editedBlocks start 0 editedBlocks.length) :
    (alignEquivalentBody shadow editedBlocks start b e).Diagonal := by
  unfold alignEquivalentBody
  split
  · exact hb
  · split
    · rename_i s hunique
      obtain ⟨hcandidate, hcount⟩ := List.mem_filter.mp (hunique ▸ List.mem_singleton_self s)
      simp only [Bool.and_eq_true, decide_eq_true_eq] at hcount
      have hresidual := (mem_equivalentCandidates.mp hcandidate).1
      rw [hstart.residual_eq h hvalid, h.length] at hresidual
      -- both the edited block and the segment at the shadow position count
      have hmem : e ∈ (residualEdited editedBlocks start 0 editedBlocks.length).filter
          (fun e' => decide (s ∈ equivalentCandidates shadow editedBlocks start e')) := by
        simpa [he] using hcandidate
      have hmem' : s ∈ (residualEdited editedBlocks start 0 editedBlocks.length).filter
          (fun e' => decide (s ∈ equivalentCandidates shadow editedBlocks start e')) := by
        rw [List.mem_filter, decide_eq_true_eq, mem_equivalentCandidates]
        refine ⟨hresidual, (mem_equivalentCandidates.mp hcandidate).1, ?_⟩
        exact h.equivalentTexts (mem_residualEdited.mp hresidual).1.2
      obtain ⟨only, honly⟩ := List.length_eq_one_iff.mp hcount.2
      rw [honly, List.mem_singleton] at hmem hmem'
      rw [hmem', ← hmem]
      exact hb.assign e
    · exact hb

theorem alignEquivalentBodies_diagonal (h : Mirrored shadow editedBlocks) (ha : a.Diagonal)
    (hvalid : a.Valid shadow editedBlocks) :
    (alignEquivalentBodies shadow editedBlocks a).Diagonal := by
  apply List.foldlRecOn (motive := Alignment.Diagonal) _ _ ha
  intro b hb e he
  exact alignEquivalentBody_diagonal h ha hvalid hb he

/-! ## Gaps -/

/-- Both ends of the gap, where it has them, are on the diagonal. -/
def DiagonalGap (gap : Anchor × Anchor) : Prop :=
  (∀ p, gap.1 = some p → p.1 = p.2) ∧ ∀ p, gap.2 = some p → p.1 = p.2

theorem orderedAnchorsFrom_mem {pairing : List (Option Nat)} {k : Nat} {previous : Option Nat}
    {p : Nat × Nat} (hp : p ∈ orderedAnchorsFrom k previous pairing) :
    k ≤ p.1 ∧ pairing[p.1 - k]? = some (some p.2) := by
  induction pairing generalizing k previous with
  | nil => cases hp
  | cons m pairing ih =>
      have hrest : ∀ {previous' : Option Nat}, p ∈ orderedAnchorsFrom (k + 1) previous' pairing →
          k ≤ p.1 ∧ (m :: pairing)[p.1 - k]? = some (some p.2) := by
        intro previous' hmem
        obtain ⟨hle, hget⟩ := ih hmem
        have hsub : p.1 - k = p.1 - (k + 1) + 1 := by omega
        rw [hsub, List.getElem?_cons_succ]
        exact ⟨by omega, hget⟩
      cases m with
      | none => exact hrest hp
      | some s =>
          rw [orderedAnchorsFrom] at hp
          split at hp
          · rcases List.mem_cons.mp hp with rfl | hmem
            · simp
            · exact hrest hmem
          · exact hrest hp

theorem gapsFrom_mem {previous : Anchor} {anchors : List (Nat × Nat)} {gap : Anchor × Anchor}
    (hgap : gap ∈ gapsFrom previous anchors) :
    (gap.1 = previous ∨ ∃ p ∈ anchors, gap.1 = some p) ∧
      (gap.2 = none ∨ ∃ p ∈ anchors, gap.2 = some p) := by
  induction anchors generalizing previous with
  | nil =>
      rw [gapsFrom, List.mem_singleton] at hgap
      rw [hgap]
      exact ⟨Or.inl rfl, Or.inl rfl⟩
  | cons next anchors ih =>
      rw [gapsFrom, List.mem_cons] at hgap
      rcases hgap with rfl | hmem
      · exact ⟨Or.inl rfl, Or.inr ⟨next, List.mem_cons_self, rfl⟩⟩
      · obtain ⟨hfst, hsnd⟩ := ih hmem
        constructor
        · rcases hfst with heq | ⟨p, hp, heq⟩
          · exact Or.inr ⟨next, List.mem_cons_self, heq⟩
          · exact Or.inr ⟨p, List.mem_cons_of_mem _ hp, heq⟩
        · rcases hsnd with heq | ⟨p, hp, heq⟩
          · exact Or.inl heq
          · exact Or.inr ⟨p, List.mem_cons_of_mem _ hp, heq⟩

/-- The gaps of an alignment on the diagonal are bounded there. -/
theorem Alignment.Diagonal.gaps (ha : a.Diagonal) {gap : Anchor × Anchor}
    (hgap : gap ∈ gapsFrom none (orderedAlignmentAnchors a)) : DiagonalGap gap := by
  have hanchor : ∀ p ∈ orderedAlignmentAnchors a, p.1 = p.2 := by
    intro p hp
    obtain ⟨_, hget⟩ := orderedAnchorsFrom_mem hp
    exact (ha p.1 p.2 (Alignment.matchOf_eq_some.mpr hget)).symm
  obtain ⟨hfst, hsnd⟩ := gapsFrom_mem hgap
  constructor
  · intro p hp
    rcases hfst with hnone | ⟨q, hq, hsome⟩
    · rw [hnone] at hp
      cases hp
    · rw [hsome] at hp
      exact Option.some.inj hp ▸ hanchor q hq
  · intro p hp
    rcases hsnd with hnone | ⟨q, hq, hsome⟩
    · rw [hnone] at hp
      cases hp
    · rw [hsome] at hp
      exact Option.some.inj hp ▸ hanchor q hq

/-- A fold over the gaps of an alignment on the diagonal, by its gap step. -/
theorem alignGaps_induction {gapPass : Alignment → Anchor × Anchor → Alignment}
    {motive : Alignment → Prop} (ha : a.Diagonal) (hstart : motive a)
    (hstep : ∀ b gap, motive b → DiagonalGap gap → motive (gapPass b gap)) :
    motive (alignGaps gapPass a) := by
  unfold alignGaps
  split
  · exact hstart
  · apply List.foldlRecOn _ _ hstart
    intro b hb gap hgap
    exact hstep b gap hb (ha.gaps hgap)

theorem gapShadow_eq (h : Mirrored shadow editedBlocks) (ha : a.Diagonal)
    (hvalid : a.Valid shadow editedBlocks) {gap : Anchor × Anchor} (hgap : DiagonalGap gap) :
    gapShadow shadow a gap = gapEdited editedBlocks a gap := by
  obtain ⟨left, right⟩ := gap
  unfold gapShadow gapEdited
  rw [ha.residual_eq h hvalid]
  have hleft : (left.elim 0 fun p => p.2 + 1) = left.elim 0 fun p => p.1 + 1 := by
    cases left with
    | none => rfl
    | some p => simp [hgap.1 p rfl]
  have hright : right.elim shadow.blocks.length Prod.snd =
      right.elim editedBlocks.length Prod.fst := by
    cases right with
    | none => exact h.length
    | some p => simp [hgap.2 p rfl]
  rw [hleft, hright]

theorem residualKindsMatch_self (h : Mirrored shadow editedBlocks) (start stop : Nat) :
    residualKindsMatchCommonPrefix shadow editedBlocks
      (residualEdited editedBlocks a start stop) (residualEdited editedBlocks a start stop) =
        true := by
  rw [residualKindsMatchCommonPrefix, List.all_eq_true]
  intro p hp
  have heq : p.1 = p.2 := by
    obtain ⟨i, hi⟩ := List.mem_iff_getElem?.mp hp
    obtain ⟨hfst, hsnd⟩ := List.getElem?_zip_eq_some.mp hi
    exact Option.some.inj (hfst.symm.trans hsnd)
  have hmem := (List.of_mem_zip (a := p.1) (b := p.2) hp).2
  rw [heq]
  exact h.sameKindAt (editedIsNative_lt (mem_residualEdited.mp hmem).2.2)

/-- A heading bounds no rewrite where the kinds agree. -/
theorem alignHeadingBoundedRewrites_eq (h : Mirrored shadow editedBlocks) (ha : a.Diagonal)
    (hvalid : a.Valid shadow editedBlocks) :
    alignHeadingBoundedRewrites shadow editedBlocks a = a := by
  apply alignGaps_induction (motive := fun b => b = a) ha rfl
  rintro b gap rfl hgap
  unfold alignHeadingBoundedGap
  split
  · rfl
  · simp only [gapShadow_eq h ha hvalid hgap]
    rw [gapEdited, residualKindsMatch_self h]
    simp

/-! ## The walk over the residual blocks -/

theorem filterMap_getElem?_range {α : Type} (xs : List α) :
    (List.range xs.length).filterMap (fun k => xs[k]?) = xs := by
  induction xs with
  | nil => rfl
  | cons x xs ih =>
      rw [List.length_cons, List.range_succ_eq_map, List.filterMap_cons_some
        List.getElem?_cons_zero, List.filterMap_map]
      exact congrArg (x :: ·) ih

/-- The walk over one list of positions with itself pairs each with itself. -/
theorem subsequencePairs_eq (h : Mirrored shadow editedBlocks) (indexes : List Nat)
    (hlt : ∀ i ∈ indexes, i < editedBlocks.length) :
    (lcsWalk (fun editedIndex shadowIndex =>
        equivalentAlignmentBlocks shadow editedBlocks shadowIndex editedIndex)
      indexes 0 indexes 0).filterMap (positionsAt indexes indexes) =
        indexes.map fun i => (i, i) := by
  have hrelated : List.Forall₂ (fun editedIndex shadowIndex =>
      equivalentAlignmentBlocks shadow editedBlocks shadowIndex editedIndex = true)
        indexes indexes := by
    rw [List.forall₂_same]
    intro i hi
    rw [equivalentAlignmentBlocks, h.sameKindAt (hlt i hi), h.equivalentTexts (hlt i hi)]
    rfl
  rw [lcsWalk_of_forall₂ _ hrelated, List.filterMap_map]
  have hpositions : (positionsAt indexes indexes ∘ fun k => (0 + k, 0 + k)) =
      fun k => (indexes[k]?).map fun i => (i, i) := by
    funext k
    simp only [Function.comp_apply, Nat.zero_add, positionsAt]
    cases indexes[k]? <;> rfl
  rw [hpositions]
  conv_rhs => rw [← filterMap_getElem?_range indexes]
  rw [List.map_filterMap]

/-- Assigning positions to themselves stays on the diagonal. -/
theorem assignAll_self_diagonal (indexes : List Nat) :
    ∀ {a : Alignment}, a.Diagonal → (assignAll a (indexes.map fun i => (i, i))).Diagonal := by
  induction indexes with
  | nil => exact fun ha => ha
  | cons i indexes ih => exact fun ha => ih (ha.assign i)

theorem assignAll_self_matchOf (indexes : List Nat) :
    ∀ {a : Alignment}, (∀ i ∈ indexes, i < a.pairing.length) →
      ∀ e, (e ∈ indexes ∨ a.matchOf e = some e) →
        (assignAll a (indexes.map fun i => (i, i))).matchOf e = some e := by
  induction indexes with
  | nil =>
      intro a _ e he
      rcases he with hmem | hmatch
      · cases hmem
      · exact hmatch
  | cons i indexes ih =>
      intro a hlt e he
      have hlti := hlt i List.mem_cons_self
      refine ih (fun j hj => ?_) e ?_
      · have hltj := hlt j (List.mem_cons_of_mem _ hj)
        simpa [Alignment.assign] using hltj
      · by_cases heq : i = e
        · subst heq
          exact Or.inr (Alignment.matchOf_assign_self i hlti)
        · rcases he with hmem | hmatch
          · rcases List.mem_cons.mp hmem with rfl | hmem
            · exact absurd rfl heq
            · exact Or.inl hmem
          · right
            rw [Alignment.matchOf_assign_of_ne i heq]
            exact hmatch

theorem alignEquivalentSubsequence_eq (h : Mirrored shadow editedBlocks) (start stop : Nat) :
    alignEquivalentSubsequenceIndexes shadow editedBlocks a
        (residualEdited editedBlocks a start stop) (residualEdited editedBlocks a start stop) =
      assignAll a ((residualEdited editedBlocks a start stop).map fun i => (i, i)) := by
  unfold alignEquivalentSubsequenceIndexes
  rw [subsequencePairs_eq h]
  intro i hi
  exact editedIsNative_lt (mem_residualEdited.mp hi).2.2

theorem alignResidualEquivalentGaps_diagonal (h : Mirrored shadow editedBlocks) (ha : a.Diagonal)
    (hvalid : a.Valid shadow editedBlocks) :
    (alignResidualEquivalentGaps shadow editedBlocks a).Diagonal := by
  have hrun : Extends shadow editedBlocks a (alignResidualEquivalentGaps shadow editedBlocks a) ∧
      (alignResidualEquivalentGaps shadow editedBlocks a).Diagonal := by
    apply alignGaps_induction
      (motive := fun b => Extends shadow editedBlocks a b ∧ b.Diagonal) ha ⟨Extends.refl a, ha⟩
    rintro b gap ⟨hext, hb⟩ hgap
    refine ⟨hext.trans extends_alignEquivalentSubsequence, ?_⟩
    unfold alignResidualEquivalentGap
    rw [gapShadow_eq h hb (hext.valid hvalid) hgap, gapEdited,
      alignEquivalentSubsequence_eq h]
    exact assignAll_self_diagonal _ hb
  exact hrun.2

/-- The residual pass leaves no native block unmatched and reports nothing. -/
theorem alignResidualByOrder_eq (h : Mirrored shadow editedBlocks) (ha : a.Diagonal)
    (hvalid : a.Valid shadow editedBlocks)
    (hdirectives : ∀ e, e < editedBlocks.length → editedIsNative editedBlocks e = false →
      a.matchOf e = some e) :
    (alignResidualByOrder shadow editedBlocks a).2 = none ∧
      ∀ e, e < editedBlocks.length →
        (alignResidualByOrder shadow editedBlocks a).1.matchOf e = some e := by
  have hgaps : Extends shadow editedBlocks a
      (alignResidualEquivalentGaps shadow editedBlocks a) :=
    extends_alignGaps (fun b gap _ => extends_alignEquivalentSubsequence) hvalid
  have hgapsDiagonal := alignResidualEquivalentGaps_diagonal h ha hvalid
  have hgapsValid := hgaps.valid hvalid
  have hwhole : alignResidualEquivalentSubsequence shadow editedBlocks
      (alignResidualEquivalentGaps shadow editedBlocks a) =
        assignAll (alignResidualEquivalentGaps shadow editedBlocks a)
          ((residualEdited editedBlocks (alignResidualEquivalentGaps shadow editedBlocks a) 0
            editedBlocks.length).map fun i => (i, i)) := by
    unfold alignResidualEquivalentSubsequence
    rw [hgapsDiagonal.residual_eq h hgapsValid, h.length, alignEquivalentSubsequence_eq h]
  have hmatched : ∀ e, e < editedBlocks.length →
      (alignResidualEquivalentSubsequence shadow editedBlocks
        (alignResidualEquivalentGaps shadow editedBlocks a)).matchOf e = some e := by
    intro e hlt
    rw [hwhole]
    apply assignAll_self_matchOf
    · intro i hi
      rw [hgapsValid.length]
      exact editedIsNative_lt (mem_residualEdited.mp hi).2.2
    · cases hmatch : (alignResidualEquivalentGaps shadow editedBlocks a).matchOf e with
      | some s => exact Or.inr (congrArg some (hgapsDiagonal e s hmatch))
      | none =>
          cases hnative : editedIsNative editedBlocks e with
          | true =>
              exact Or.inl (mem_residualEdited.mpr ⟨⟨Nat.zero_le e, hlt⟩, hmatch, hnative⟩)
          | false =>
              rw [hgaps.matchOf (hdirectives e hlt hnative)] at hmatch
              cases hmatch
  have hnone : residualEdited editedBlocks (alignResidualEquivalentSubsequence shadow editedBlocks
      (alignResidualEquivalentGaps shadow editedBlocks a)) 0 editedBlocks.length = [] := by
    rw [List.eq_nil_iff_forall_not_mem]
    intro e he
    obtain ⟨⟨_, hlt⟩, hfree, _⟩ := mem_residualEdited.mp he
    rw [hmatched e hlt] at hfree
    cases hfree
  simp only [alignResidualByOrder, hnone, List.length_nil, List.zip_nil_left]
  exact ⟨rfl, hmatched⟩

/-- Two lists that mirror each other are aligned position by position. -/
theorem alignBlocks_mirrored (h : Mirrored shadow editedBlocks) (hids : shadow.DistinctIds) :
    (alignBlocks shadow editedBlocks).2 = [] ∧
      (alignBlocks shadow editedBlocks).1.pairing =
        (List.range editedBlocks.length).map some := by
  have hlength := (alignBlocks_valid shadow editedBlocks).length
  obtain ⟨hext1, hdiagonal1, hmatch1⟩ := alignDirective_foldl_diagonal h hids
    (List.range editedBlocks.length) (Alignment.initial_diagonal _) Alignment.initial_valid
  have h1 := hext1.valid Alignment.initial_valid
  change (alignDirectives shadow editedBlocks _).Valid _ _ at h1
  change (alignDirectives shadow editedBlocks _).Diagonal at hdiagonal1
  change ∀ e ∈ _, ∀ block, _ → _ →
    (alignDirectives shadow editedBlocks _).matchOf e = some e at hmatch1
  simp only [alignBlocks] at hlength ⊢
  generalize alignDirectives shadow editedBlocks
    (Alignment.initial editedBlocks.length) = a₁ at h1 hdiagonal1 hmatch1 hlength ⊢
  have hext2 := extends_alignExactHashes h1
  have hdiagonal2 := alignExactHashes_diagonal h hdiagonal1 h1
  have h2 := hext2.valid h1
  have hext3 : Extends shadow editedBlocks _ (alignEquivalentBodies shadow editedBlocks
      (alignExactHashes shadow editedBlocks a₁)) := extends_alignEquivalentBodies
  have hdiagonal3 := alignEquivalentBodies_diagonal h hdiagonal2 h2
  rw [alignHeadingBoundedRewrites_eq h hdiagonal3 (hext3.valid h2)] at hlength ⊢
  obtain ⟨hdegradation, hmatched⟩ := alignResidualByOrder_eq h hdiagonal3 (hext3.valid h2) (by
    intro e hlt hnative
    apply (hext2.trans hext3).matchOf
    have hget := List.getElem?_eq_getElem hlt
    apply hmatch1 e (List.mem_range.mpr hlt) _ hget
    simpa [editedIsNative, hget] using hnative)
  refine ⟨congrArg Option.toList hdegradation, ?_⟩
  apply List.ext_getElem?
  intro e
  by_cases hlt : e < editedBlocks.length
  · rw [Alignment.matchOf_eq_some.mp (hmatched e hlt)]
    simp [hlt]
  · rw [List.getElem?_eq_none (by omega),
      List.getElem?_eq_none (by simpa using Nat.le_of_not_lt hlt)]

/-! ## The loop over a full diagonal -/

/-- The last kept block before a position, when all of them are. -/
def precedingIndex : Nat → Option Nat
  | 0 => none
  | k + 1 => some k

theorem previousRetained_range {k n : Nat} (hle : k ≤ n) :
    previousRetainedShadowIndex k (List.range n) [] = precedingIndex k := by
  cases k with
  | zero => rfl
  | succ k =>
      unfold previousRetainedShadowIndex
      rw [List.range_succ, List.reverse_append, List.reverse_singleton, List.singleton_append,
        List.find?_cons_of_pos (by simp; omega)]
      rfl

/-- Block after block stays in place and is left as it is. -/
theorem stepsFrom_diagonal (n : Nat) :
    ∀ (blocks : List SegmentedBlock) (k : Nat), k + blocks.length ≤ n →
      (∀ (i : Nat) (block : SegmentedBlock), blocks[i]? = some block →
        ∃ shadowBlock, shadow.blocks[k + i]? = some shadowBlock ∧ Mirrors shadowBlock block) →
      (stepsFrom shadow (List.range n) ⟨[], [], precedingIndex k⟩
          (blocks.zip ((List.range' k blocks.length).map some))).flatMap
            (PlanStep.operations shadow) = [] ∧
        keptIndexes (stepsFrom shadow (List.range n) ⟨[], [], precedingIndex k⟩
          (blocks.zip ((List.range' k blocks.length).map some))) =
            List.range' k blocks.length
  | [], _, _, _ => ⟨rfl, rfl⟩
  | block :: blocks, k, hle, hmirrors => by
      rw [List.length_cons] at hle
      obtain ⟨shadowBlock, hget, hblock⟩ := hmirrors 0 block rfl
      rw [Nat.add_zero] at hget
      have hcross : crosses (List.range n) ⟨[], [], precedingIndex k⟩ k = false := by
        simp [crosses, previousRetained_range (Nat.le_of_add_right_le hle)]
      have hfate : fateOf shadow (List.range n) ⟨[], [], precedingIndex k⟩ (block, some k) =
          .stayed k := by
        simp [fateOf, hget, hcross]
      obtain ⟨hops, hkept⟩ := stepsFrom_diagonal n blocks (k + 1) (by omega) (by
        intro i next hnext
        have hshift := hmirrors (i + 1) next hnext
        rwa [show k + (i + 1) = k + 1 + i by omega] at hshift)
      have hafter : PlanState.after ⟨[], [], precedingIndex k⟩ (.stayed k) =
          ⟨[], [], precedingIndex (k + 1)⟩ := rfl
      rw [List.length_cons, List.range'_succ, List.map_cons, List.zip_cons_cons, stepsFrom,
        hfate, hafter]
      constructor
      · rw [List.flatMap_cons, hops, List.append_nil]
        simp [PlanStep.operations, hget, hblock.contentOperations_eq_nil]
      · rw [keptIndexes_cons, hkept]
        rfl

theorem blockOperations_mirrored (h : Mirrored shadow editedBlocks) (hids : shadow.DistinctIds) :
    blockOperations shadow editedBlocks (alignBlocks shadow editedBlocks).1.pairing = [] := by
  have hpairing := (alignBlocks_mirrored h hids).2
  have hretained : retainedShadow (alignBlocks shadow editedBlocks).1.pairing =
      List.range editedBlocks.length := by
    rw [hpairing, retainedShadow, List.filterMap_map]
    exact List.filterMap_some
  obtain ⟨hops, hkept⟩ := @stepsFrom_diagonal shadow editedBlocks.length editedBlocks 0
    (by omega) (by
      intro i block hget
      rw [Nat.zero_add]
      rcases h.cases i with ⟨_, hnone⟩ | ⟨shadowBlock, editedBlock, hs, he, hmirrors⟩
      · rw [hget] at hnone
        cases hnone
      · rw [hget] at he
        exact ⟨shadowBlock, hs, Option.some.inj he ▸ hmirrors⟩)
  have hsteps : planSteps shadow editedBlocks (alignBlocks shadow editedBlocks).1.pairing =
      stepsFrom shadow (List.range editedBlocks.length) ⟨[], [], precedingIndex 0⟩
        (editedBlocks.zip ((List.range' 0 editedBlocks.length).map some)) := by
    rw [planSteps, hretained, hpairing, List.range_eq_range']
    rfl
  rw [(alignBlocks_valid shadow editedBlocks).blockOperations_eq hids, hsteps, hops, hkept,
    List.nil_append, archivesOf, List.filterMap_eq_nil_iff]
  rintro ⟨block, s⟩ hmem
  have hlt : s < editedBlocks.length := by
    have hget : shadow.blocks[s]? = some block := by
      simpa using List.mem_zipIdx_iff_getElem?.mp hmem
    rw [← h.length]
    exact (List.getElem?_eq_some_iff.mp hget).1
  rw [if_pos]
  rw [List.mem_range'_1]
  omega

/-- A directive that nobody touched raises no issue. -/
theorem validateEditedDirectives_mirrored (h : Mirrored shadow editedBlocks)
    (hids : shadow.DistinctIds) : validateEditedDirectives shadow editedBlocks = [] := by
  rw [validateEditedDirectives, List.filterMap_eq_nil_iff]
  intro block hmem
  obtain ⟨i, hi⟩ := List.mem_iff_getElem?.mp hmem
  rcases h.cases i with ⟨_, hnone⟩ | ⟨shadowBlock, editedBlock, hs, he, hmirrors⟩
  · rw [hi] at hnone
    cases hnone
  · rw [hi] at he
    obtain rfl := Option.some.inj he
    by_cases hdirective : block.isDirective = true
    · obtain ⟨directiveType, raw, hid, hkind⟩ := hmirrors.directive hdirective
      have hshadowKind : shadowBlock.kind = .directive (some directiveType) raw false := by
        rcases hmirrors.kind with heq | ⟨htable, _⟩
        · rw [heq, hkind]
        · rw [hkind] at htable
          cases htable
      have hindex : shadowDirectiveById shadow shadowBlock.remoteId = some shadowBlock := by
        rw [shadowDirectiveById, shadowDirectiveIndex_eq hids hs
          (hmirrors.isDirective_eq.trans hdirective), Option.bind_some, hs]
      simp [editedDirectiveIssue, hkind, hid, hindex, hshadowKind]
    · unfold SegmentedBlock.isDirective at hdirective
      unfold editedDirectiveIssue
      cases hkind : block.kind with
      | directive directiveType raw malformed =>
          rw [hkind] at hdirective
          exact absurd rfl hdirective
      | _ => rfl

end Mirrored

end Locality.Core
