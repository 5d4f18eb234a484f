/-
  Core/DiffAlign.lean --- what every alignment pass of the block diff keeps.

  A pass changes the alignment by assignments of a free edited block to an unused
  shadow block of its own nature, directive or native (`Assignable`).  An alignment
  that such assignments lead to is valid: no shadow block is matched twice and the
  set of used blocks is the set of matched ones.  Each pass is shown once to be a
  run of assignments; `alignBlocks_valid` puts the runs together.
-/
import Locality.Core.Diff
import Mathlib.Data.List.Nodup
import Mathlib.Logic.Relation

set_option autoImplicit false

namespace Locality.Core

open Locality.Foundation

/-! ## Valid alignments -/

/-- The matching is injective, in range, keeps directives apart from native blocks,
and the used shadow blocks are the matched ones. -/
structure Alignment.Valid (shadow : ShadowDocument) (editedBlocks : List SegmentedBlock)
    (a : Alignment) : Prop where
  length : a.pairing.length = editedBlocks.length
  inRange : ∀ e s, a.matchOf e = some s → s < shadow.blocks.length
  injective : ∀ e e' s, a.matchOf e = some s → a.matchOf e' = some s → e = e'
  used : ∀ s, s ∈ a.usedShadow ↔ ∃ e, a.matchOf e = some s
  nature : ∀ e s, a.matchOf e = some s →
    editedIsNative editedBlocks e = shadowIsNative shadow s

/-- The edited block is free, the shadow block unused, and both are directives or
both are not. -/
structure Assignable (shadow : ShadowDocument) (editedBlocks : List SegmentedBlock)
    (a : Alignment) (e s : Nat) : Prop where
  editedInRange : e < editedBlocks.length
  free : a.matchOf e = none
  shadowInRange : s < shadow.blocks.length
  unused : s ∉ a.usedShadow
  nature : editedIsNative editedBlocks e = shadowIsNative shadow s

theorem Alignment.matchOf_eq_some {a : Alignment} {e s : Nat} :
    a.matchOf e = some s ↔ a.pairing[e]? = some (some s) := by
  unfold Alignment.matchOf
  cases a.pairing[e]? <;> simp

theorem Alignment.lt_of_matchOf {a : Alignment} {e s : Nat} (h : a.matchOf e = some s) :
    e < a.pairing.length :=
  (List.getElem?_eq_some_iff.mp (Alignment.matchOf_eq_some.mp h)).1

theorem Alignment.matchOf_assign_self {a : Alignment} {e : Nat} (s : Nat)
    (h : e < a.pairing.length) : (a.assign e s).matchOf e = some s := by
  simp [Alignment.matchOf, Alignment.assign, h]

theorem Alignment.matchOf_assign_of_ne {a : Alignment} {e e' : Nat} (s : Nat) (h : e ≠ e') :
    (a.assign e s).matchOf e' = a.matchOf e' := by
  simp [Alignment.matchOf, Alignment.assign, List.getElem?_set_ne h]

theorem Alignment.isUsed_iff {a : Alignment} {s : Nat} :
    a.isUsed s = true ↔ s ∈ a.usedShadow := by
  simp [Alignment.isUsed]

section Valid

variable {shadow : ShadowDocument} {editedBlocks : List SegmentedBlock} {a b : Alignment}

theorem Alignment.initial_valid :
    (Alignment.initial editedBlocks.length).Valid shadow editedBlocks := by
  have hnone : ∀ e, (Alignment.initial editedBlocks.length).matchOf e = none := by
    intro e
    unfold Alignment.matchOf Alignment.initial
    by_cases h : e < editedBlocks.length <;> simp [h]
  refine ⟨by simp [Alignment.initial], ?_, ?_, ?_, ?_⟩
  · intro e s h
    simp [hnone] at h
  · intro e e' s h
    simp [hnone] at h
  · intro s
    constructor
    · intro h
      cases h
    · rintro ⟨e, h⟩
      simp [hnone] at h
  · intro e s h
    simp [hnone] at h

theorem Alignment.Valid.assign (h : a.Valid shadow editedBlocks) {e s : Nat}
    (hes : Assignable shadow editedBlocks a e s) :
    (a.assign e s).Valid shadow editedBlocks := by
  have hlt : e < a.pairing.length := by
    rw [h.length]
    exact hes.editedInRange
  have hself := Alignment.matchOf_assign_self s hlt
  -- a match of the new alignment is the new pair or an old one
  have hcases : ∀ e' s', (a.assign e s).matchOf e' = some s' →
      (e' = e ∧ s' = s) ∨ (e' ≠ e ∧ a.matchOf e' = some s') := by
    intro e' s' hmatch
    by_cases heq : e = e'
    · subst heq
      rw [hself] at hmatch
      exact Or.inl ⟨rfl, (Option.some.inj hmatch).symm⟩
    · rw [Alignment.matchOf_assign_of_ne s heq] at hmatch
      exact Or.inr ⟨Ne.symm heq, hmatch⟩
  have hunused : ∀ e', a.matchOf e' ≠ some s := fun e' hmatch =>
    hes.unused ((h.used s).mpr ⟨e', hmatch⟩)
  refine ⟨by simpa [Alignment.assign] using h.length, ?_, ?_, ?_, ?_⟩
  · intro e' s' hmatch
    rcases hcases e' s' hmatch with ⟨rfl, rfl⟩ | ⟨_, hold⟩
    · exact hes.shadowInRange
    · exact h.inRange e' s' hold
  · intro e₁ e₂ s' h₁ h₂
    rcases hcases e₁ s' h₁ with ⟨rfl, rfl⟩ | ⟨_, hold₁⟩
    · rcases hcases e₂ s' h₂ with ⟨rfl, _⟩ | ⟨_, hold₂⟩
      · rfl
      · exact absurd hold₂ (hunused e₂)
    · rcases hcases e₂ s' h₂ with ⟨rfl, rfl⟩ | ⟨_, hold₂⟩
      · exact absurd hold₁ (hunused e₁)
      · exact h.injective e₁ e₂ s' hold₁ hold₂
  · intro s'
    simp only [Alignment.assign, List.mem_cons]
    constructor
    · rintro (rfl | hold)
      · exact ⟨e, hself⟩
      · obtain ⟨e', hmatch⟩ := (h.used s').mp hold
        have hne : e ≠ e' := by
          rintro rfl
          rw [hes.free] at hmatch
          cases hmatch
        exact ⟨e', (Alignment.matchOf_assign_of_ne s hne).trans hmatch⟩
    · rintro ⟨e', hmatch⟩
      rcases hcases e' s' hmatch with ⟨_, rfl⟩ | ⟨_, hold⟩
      · exact Or.inl rfl
      · exact Or.inr ((h.used s').mpr ⟨e', hold⟩)
  · intro e' s' hmatch
    rcases hcases e' s' hmatch with ⟨rfl, rfl⟩ | ⟨_, hold⟩
    · exact hes.nature
    · exact h.nature e' s' hold

/-! ## Runs of assignments -/

/-- One assignment. -/
def Assigns (shadow : ShadowDocument) (editedBlocks : List SegmentedBlock)
    (a b : Alignment) : Prop :=
  ∃ e s, Assignable shadow editedBlocks a e s ∧ b = a.assign e s

/-- Any number of assignments, one after the other. -/
def Extends (shadow : ShadowDocument) (editedBlocks : List SegmentedBlock) :
    Alignment → Alignment → Prop :=
  Relation.ReflTransGen (Assigns shadow editedBlocks)

theorem Extends.refl (a : Alignment) : Extends shadow editedBlocks a a :=
  Relation.ReflTransGen.refl

theorem Extends.trans {c : Alignment} (hab : Extends shadow editedBlocks a b)
    (hbc : Extends shadow editedBlocks b c) : Extends shadow editedBlocks a c :=
  Relation.ReflTransGen.trans hab hbc

theorem Extends.assign {e s : Nat} (h : Assignable shadow editedBlocks a e s) :
    Extends shadow editedBlocks a (a.assign e s) :=
  Relation.ReflTransGen.single ⟨e, s, h, rfl⟩

theorem Extends.valid (hab : Extends shadow editedBlocks a b)
    (ha : a.Valid shadow editedBlocks) : b.Valid shadow editedBlocks := by
  induction hab with
  | refl => exact ha
  | tail _ hstep ih =>
      obtain ⟨e, s, hes, rfl⟩ := hstep
      exact ih.assign hes

/-- A match once made stays. -/
theorem Extends.matchOf (hab : Extends shadow editedBlocks a b) {e s : Nat}
    (h : a.matchOf e = some s) : b.matchOf e = some s := by
  induction hab with
  | refl => exact h
  | tail _ hstep ih =>
      obtain ⟨e', s', hes, rfl⟩ := hstep
      have hne : e' ≠ e := by
        rintro rfl
        rw [hes.free] at ih
        cases ih
      rw [Alignment.matchOf_assign_of_ne s' hne]
      exact ih

/-- A fold of steps that are runs of assignments is one. -/
theorem extends_foldl {ι : Type} {step : Alignment → ι → Alignment}
    (hstep : ∀ a i, a.Valid shadow editedBlocks → Extends shadow editedBlocks a (step a i))
    (items : List ι) (ha : a.Valid shadow editedBlocks) :
    Extends shadow editedBlocks a (items.foldl step a) := by
  induction items generalizing a with
  | nil => exact Extends.refl a
  | cons i items ih =>
      have hfirst := hstep a i ha
      exact hfirst.trans (ih (hfirst.valid ha))

/-- Pairs that are assignable one by one, and of which no two share a position, are
assignable one after the other. -/
theorem extends_assignAll {pairs : List (Nat × Nat)}
    (hfst : (pairs.map Prod.fst).Nodup) (hsnd : (pairs.map Prod.snd).Nodup)
    (h : ∀ p ∈ pairs, Assignable shadow editedBlocks a p.1 p.2) :
    Extends shadow editedBlocks a (assignAll a pairs) := by
  induction pairs generalizing a with
  | nil => exact Extends.refl a
  | cons p pairs ih =>
      rw [List.map_cons, List.nodup_cons] at hfst hsnd
      refine (Extends.assign (h p (by simp))).trans (ih hfst.2 hsnd.2 fun q hq => ?_)
      have hold := h q (by simp [hq])
      have hne : p.1 ≠ q.1 := fun heq =>
        hfst.1 (by rw [heq]; exact List.mem_map_of_mem hq)
      have hne' : q.2 ≠ p.2 := fun heq =>
        hsnd.1 (by rw [← heq]; exact List.mem_map_of_mem hq)
      refine ⟨hold.editedInRange, ?_, hold.shadowInRange, ?_, hold.nature⟩
      · rw [Alignment.matchOf_assign_of_ne p.2 hne]
        exact hold.free
      · simp only [Alignment.assign, List.mem_cons, not_or]
        exact ⟨hne', hold.unused⟩

/-! ## Residual positions -/

theorem editedIsNative_lt {e : Nat} (h : editedIsNative editedBlocks e = true) :
    e < editedBlocks.length := by
  unfold editedIsNative at h
  by_contra hge
  rw [List.getElem?_eq_none (by omega)] at h
  cases h

theorem shadowIsNative_lt {s : Nat} (h : shadowIsNative shadow s = true) :
    s < shadow.blocks.length := by
  unfold shadowIsNative at h
  by_contra hge
  rw [List.getElem?_eq_none (by omega)] at h
  cases h

theorem mem_residualEdited {start stop e : Nat} :
    e ∈ residualEdited editedBlocks a start stop ↔
      (start ≤ e ∧ e < stop) ∧ a.matchOf e = none ∧ editedIsNative editedBlocks e = true := by
  simp only [residualEdited, List.mem_filter, List.mem_range'_1, Bool.and_eq_true,
    Option.isNone_iff_eq_none]
  constructor
  · rintro ⟨⟨h1, h2⟩, h3⟩
    exact ⟨⟨h1, by omega⟩, h3⟩
  · rintro ⟨⟨h1, h2⟩, h3⟩
    exact ⟨⟨h1, by omega⟩, h3⟩

theorem mem_residualShadow {start stop s : Nat} :
    s ∈ residualShadow shadow a start stop ↔
      (start ≤ s ∧ s < stop) ∧ s ∉ a.usedShadow ∧ shadowIsNative shadow s = true := by
  simp only [residualShadow, List.mem_filter, List.mem_range'_1, Bool.and_eq_true,
    Bool.not_eq_true', Alignment.isUsed, decide_eq_false_iff_not]
  constructor
  · rintro ⟨⟨h1, h2⟩, h3⟩
    exact ⟨⟨h1, by omega⟩, h3⟩
  · rintro ⟨⟨h1, h2⟩, h3⟩
    exact ⟨⟨h1, by omega⟩, h3⟩

theorem residualEdited_nodup (editedBlocks : List SegmentedBlock) (a : Alignment)
    (start stop : Nat) : (residualEdited editedBlocks a start stop).Nodup :=
  List.Nodup.filter _ (List.nodup_range' ..)

theorem residualShadow_nodup (shadow : ShadowDocument) (a : Alignment) (start stop : Nat) :
    (residualShadow shadow a start stop).Nodup :=
  List.Nodup.filter _ (List.nodup_range' ..)

/-- Residual positions of either side are assignable to each other. -/
theorem assignable_of_residual {start stop start' stop' e s : Nat}
    (he : e ∈ residualEdited editedBlocks a start stop)
    (hs : s ∈ residualShadow shadow a start' stop') :
    Assignable shadow editedBlocks a e s := by
  obtain ⟨_, hfree, hnative⟩ := mem_residualEdited.mp he
  obtain ⟨_, hunused, hnative'⟩ := mem_residualShadow.mp hs
  exact ⟨editedIsNative_lt hnative, hfree, shadowIsNative_lt hnative', hunused,
    hnative.trans hnative'.symm⟩

theorem zip_map_fst_sublist (xs ys : List Nat) : ((xs.zip ys).map Prod.fst).Sublist xs := by
  induction xs generalizing ys with
  | nil => simp
  | cons x xs ih =>
      cases ys with
      | nil => simp
      | cons y ys => simpa using ih ys

theorem zip_map_snd_sublist (xs ys : List Nat) : ((xs.zip ys).map Prod.snd).Sublist ys := by
  induction xs generalizing ys with
  | nil => simp
  | cons x xs ih =>
      cases ys with
      | nil => simp
      | cons y ys => simpa using ih ys

/-- Pairs drawn in order from residual positions of either side are a run. -/
theorem extends_assignAll_residual {start stop start' stop' : Nat}
    {pairs : List (Nat × Nat)}
    (hfst : (pairs.map Prod.fst).Sublist (residualEdited editedBlocks a start stop))
    (hsnd : (pairs.map Prod.snd).Sublist (residualShadow shadow a start' stop')) :
    Extends shadow editedBlocks a (assignAll a pairs) :=
  extends_assignAll ((residualEdited_nodup editedBlocks a start stop).sublist hfst)
    ((residualShadow_nodup shadow a start' stop').sublist hsnd)
    fun _ hp => assignable_of_residual (hfst.subset (List.mem_map_of_mem hp))
      (hsnd.subset (List.mem_map_of_mem hp))

/-! ## The passes -/

theorem shadowDirectiveIndex_some {remoteId : RemoteId} {s : Nat}
    (h : shadowDirectiveIndex shadow remoteId = some s) :
    ∃ block, shadow.blocks[s]? = some block ∧ block.kind.isDirective = true ∧
      block.remoteId = remoteId := by
  have hfound := List.find?_some h
  cases hblock : shadow.blocks[s]? with
  | none => simp [hblock] at hfound
  | some block =>
      simp only [hblock, Option.any_some, Bool.and_eq_true, decide_eq_true_eq] at hfound
      exact ⟨block, rfl, hfound⟩

/-- A directive round leaves the alignment or matches its own edited block. -/
theorem alignDirective_cases (a : Alignment) (e : Nat) :
    alignDirective shadow editedBlocks a e = a ∨
      ∃ s, alignDirective shadow editedBlocks a e = a.assign e s ∧
        (a.matchOf e = none → Assignable shadow editedBlocks a e s) := by
  unfold alignDirective
  split
  · exact Or.inl rfl
  · rename_i block hblock
    split
    · exact Or.inl rfl
    · rename_i hdirective
      split
      · exact Or.inl rfl
      · rename_i s hs
        split
        · exact Or.inl rfl
        · rename_i hused
          obtain ⟨id, _, hindex⟩ := Option.bind_eq_some_iff.mp hs
          obtain ⟨shadowBlock, hshadow, hnative, _⟩ := shadowDirectiveIndex_some hindex
          refine Or.inr ⟨s, rfl, fun hfree => ⟨(List.getElem?_eq_some_iff.mp hblock).1, hfree,
            (List.getElem?_eq_some_iff.mp hshadow).1,
            fun hmem => hused (Alignment.isUsed_iff.mpr hmem), ?_⟩⟩
          have hedited : block.isDirective = true := by simpa using hdirective
          simp [editedIsNative, shadowIsNative, hblock, hshadow, hnative, hedited]

/-- The rounds name each edited block once, so each finds its own still free. -/
theorem extends_alignDirective_foldl {indexes : List Nat} (hnodup : indexes.Nodup)
    (hfree : ∀ e ∈ indexes, a.matchOf e = none) :
    Extends shadow editedBlocks a
      (indexes.foldl (alignDirective shadow editedBlocks) a) := by
  induction indexes generalizing a with
  | nil => exact Extends.refl a
  | cons e indexes ih =>
      rw [List.nodup_cons] at hnodup
      rw [List.foldl_cons]
      rcases @alignDirective_cases shadow editedBlocks a e with
        hsame | ⟨s, hassign, hassignable⟩
      · rw [hsame]
        exact ih hnodup.2 fun e' he' => hfree e' (by simp [he'])
      · rw [hassign]
        refine (Extends.assign (hassignable (hfree e (by simp)))).trans
          (ih hnodup.2 fun e' he' => ?_)
        have hne : e ≠ e' := fun heq => hnodup.1 (heq ▸ he')
        rw [Alignment.matchOf_assign_of_ne s hne]
        exact hfree e' (by simp [he'])

theorem extends_alignDirectives :
    Extends shadow editedBlocks (Alignment.initial editedBlocks.length)
      (alignDirectives shadow editedBlocks (Alignment.initial editedBlocks.length)) := by
  refine extends_alignDirective_foldl List.nodup_range fun e _ => ?_
  unfold Alignment.matchOf Alignment.initial
  by_cases h : e < editedBlocks.length <;> simp [h]

theorem uniqueNativeShadowHash_some {start : Alignment} {hash : Text} {s : Nat}
    (h : uniqueNativeShadowHash shadow start hash = some s) :
    s < shadow.blocks.length ∧ shadowIsNative shadow s = true := by
  unfold uniqueNativeShadowHash at h
  split at h
  · rename_i s' hfilter
    have hmem : s' ∈ (residualShadow shadow start 0 shadow.blocks.length).filter
        (shadowHasHash shadow hash) := by rw [hfilter]; simp
    obtain ⟨_, _, hnative⟩ := mem_residualShadow.mp (List.mem_filter.mp hmem).1
    injection h with h
    subst h
    exact ⟨shadowIsNative_lt hnative, hnative⟩
  · cases h

theorem extends_alignExactHash (start b : Alignment) (e : Nat) :
    Extends shadow editedBlocks b (alignExactHash shadow editedBlocks start b e) := by
  unfold alignExactHash
  split
  · exact Extends.refl b
  · rename_i block hblock
    split
    · exact Extends.refl b
    · rename_i hskip
      split
      · exact Extends.refl b
      · split
        · exact Extends.refl b
        · rename_i s hs
          split
          · exact Extends.refl b
          · rename_i hused
            obtain ⟨hlt, hnative⟩ := uniqueNativeShadowHash_some hs
            simp only [Bool.or_eq_true, not_or, Bool.not_eq_true, Option.isSome_eq_false_iff,
              Option.isNone_iff_eq_none] at hskip
            refine Extends.assign ⟨(List.getElem?_eq_some_iff.mp hblock).1, hskip.1, hlt,
              fun hmem => hused (Alignment.isUsed_iff.mpr hmem), ?_⟩
            simp [editedIsNative, hblock, hskip.2, hnative]

theorem extends_alignExactHashes (ha : a.Valid shadow editedBlocks) :
    Extends shadow editedBlocks a (alignExactHashes shadow editedBlocks a) :=
  extends_foldl (fun b e _ => extends_alignExactHash a b e) _ ha

theorem extends_alignEquivalentBody (start b : Alignment) {e : Nat}
    (hnativeEdited : editedIsNative editedBlocks e = true) :
    Extends shadow editedBlocks b (alignEquivalentBody shadow editedBlocks start b e) := by
  unfold alignEquivalentBody
  split
  · exact Extends.refl b
  · rename_i hfree
    split
    · rename_i s hunique
      have hmem := List.mem_filter.mp (hunique ▸ List.mem_singleton_self s)
      obtain ⟨_, _, hnative⟩ := mem_residualShadow.mp (List.mem_filter.mp hmem.1).1
      simp only [Option.isSome_iff_ne_none, ne_eq, not_not] at hfree
      refine Extends.assign ⟨editedIsNative_lt hnativeEdited, hfree,
        shadowIsNative_lt hnative, fun hused => ?_, hnativeEdited.trans hnative.symm⟩
      have := hmem.2
      simp [Alignment.isUsed, hused] at this
    · exact Extends.refl b

theorem extends_alignEquivalentBodies :
    Extends shadow editedBlocks a (alignEquivalentBodies shadow editedBlocks a) := by
  apply List.foldlRecOn _ _ (Extends.refl a)
  intro b hb e he
  exact hb.trans (extends_alignEquivalentBody a b (mem_residualEdited.mp he).2.2)

theorem extends_alignGaps {gapPass : Alignment → Anchor × Anchor → Alignment}
    (hgap : ∀ a gap, a.Valid shadow editedBlocks → Extends shadow editedBlocks a (gapPass a gap))
    (ha : a.Valid shadow editedBlocks) :
    Extends shadow editedBlocks a (alignGaps gapPass a) := by
  unfold alignGaps
  split
  · exact Extends.refl a
  · exact extends_foldl hgap _ ha

theorem extends_alignHeadingBoundedRewrites (ha : a.Valid shadow editedBlocks) :
    Extends shadow editedBlocks a (alignHeadingBoundedRewrites shadow editedBlocks a) := by
  refine extends_alignGaps (fun b gap _ => ?_) ha
  unfold alignHeadingBoundedGap
  split
  · exact Extends.refl b
  · simp only []
    split
    · exact Extends.refl b
    · exact extends_assignAll_residual (zip_map_fst_sublist _ _) (zip_map_snd_sublist _ _)

/-- The walk draws its pairs from the two lists in order. -/
theorem positionsAt_sublist {related : Nat → Nat → Bool} {edited free : List Nat}
    {offsets : List (Nat × Nat)} {i j : Nat} (h : Aligned related edited free i j offsets) :
    ((offsets.filterMap (positionsAt edited free)).map Prod.fst).Sublist (edited.drop i) ∧
      ((offsets.filterMap (positionsAt edited free)).map Prod.snd).Sublist (free.drop j) := by
  induction offsets generalizing i j with
  | nil => simp
  | cons p offsets ih =>
      obtain ⟨k, l⟩ := p
      obtain ⟨hi, hj, ⟨x, y, hx, hy, _⟩, hrest⟩ := h
      obtain ⟨hfst, hsnd⟩ := ih hrest
      have hposition : positionsAt edited free (k, l) = some (x, y) := by
        simp [positionsAt, hx, hy]
      have hdrop : ∀ {xs : List Nat} {k x : Nat} {i : Nat}, xs[k]? = some x → i ≤ k →
          (x :: xs.drop (k + 1)).Sublist (xs.drop i) := by
        intro xs k x i hget hik
        obtain ⟨hlt, rfl⟩ := List.getElem?_eq_some_iff.mp hget
        rw [← List.drop_eq_getElem_cons hlt]
        exact List.drop_sublist_drop_left xs hik
      rw [List.filterMap_cons_some hposition, List.map_cons, List.map_cons]
      exact ⟨(hfst.cons_cons x).trans (hdrop hx hi), (hsnd.cons_cons y).trans (hdrop hy hj)⟩

theorem extends_alignEquivalentSubsequence {start stop start' stop' : Nat} :
    Extends shadow editedBlocks a (alignEquivalentSubsequenceIndexes shadow editedBlocks a
      (residualEdited editedBlocks a start stop) (residualShadow shadow a start' stop')) := by
  obtain ⟨hfst, hsnd⟩ := positionsAt_sublist (lcsWalk_aligned
    (fun e s => equivalentAlignmentBlocks shadow editedBlocks s e)
    (residualEdited editedBlocks a start stop) (residualShadow shadow a start' stop')
    _ 0 _ 0 rfl rfl)
  exact extends_assignAll_residual hfst hsnd

theorem extends_alignResidualByOrder (ha : a.Valid shadow editedBlocks) :
    Extends shadow editedBlocks a (alignResidualByOrder shadow editedBlocks a).1 := by
  have hgaps : Extends shadow editedBlocks a
      (alignResidualEquivalentGaps shadow editedBlocks a) :=
    extends_alignGaps (fun b gap _ => extends_alignEquivalentSubsequence) ha
  have hwhole : Extends shadow editedBlocks a (alignResidualEquivalentSubsequence shadow
      editedBlocks (alignResidualEquivalentGaps shadow editedBlocks a)) :=
    hgaps.trans extends_alignEquivalentSubsequence
  simp only [alignResidualByOrder]
  split
  · exact hwhole
  · exact hwhole.trans
      (extends_assignAll_residual (zip_map_fst_sublist _ _) (zip_map_snd_sublist _ _))

end Valid

theorem alignBlocks_valid (shadow : ShadowDocument) (editedBlocks : List SegmentedBlock) :
    (alignBlocks shadow editedBlocks).1.Valid shadow editedBlocks := by
  have h0 : (Alignment.initial editedBlocks.length).Valid shadow editedBlocks :=
    Alignment.initial_valid
  have h1 := extends_alignDirectives.valid h0
  have h2 := (extends_alignExactHashes h1).valid h1
  have h3 := extends_alignEquivalentBodies.valid h2
  have h4 := (extends_alignHeadingBoundedRewrites h3).valid h3
  exact (extends_alignResidualByOrder h4).valid h4

end Locality.Core
