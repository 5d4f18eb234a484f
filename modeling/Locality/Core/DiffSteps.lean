/-
  Core/DiffSteps.lean --- what the emission loop decides for every edited block, on
  positions instead of ids.

  The loop compares ids; with distinct ids the positions of the shadow blocks do as
  well.  A `PlanStep` is one edited block with its `Fate`, new, recreated, moved or
  left in place, and the kept block it follows; `planSteps` are the decisions of a
  whole run.  `blockOperations_eq` says that the plan is written from them, so what
  a plan does can be argued on steps.
-/
import Locality.Core.DiffAlign
import Mathlib.Data.List.Pairwise

set_option autoImplicit false

namespace Locality.Core

/-! ## Fates -/

/-- What becomes of an edited block; the index is that of its shadow block. -/
inductive Fate where
  | fresh
  | recreated (shadowIndex : Nat)
  | moved (shadowIndex : Nat)
  | stayed (shadowIndex : Nat)
  deriving DecidableEq, Repr

namespace Fate

/-- The shadow block that the edited block is matched to. -/
def matched : Fate → Option Nat
  | fresh => none
  | recreated s | moved s | stayed s => some s

/-- The shadow block that lives on under its id. -/
def kept : Fate → Option Nat
  | fresh | recreated _ => none
  | moved s | stayed s => some s

def recreatedIndex : Fate → Option Nat
  | recreated s => some s
  | _ => none

def movedIndex : Fate → Option Nat
  | moved s => some s
  | _ => none

/-- The shadow block that is neither moved nor written anew. -/
def stayedIndex : Fate → Option Nat
  | stayed s => some s
  | _ => none

end Fate

/-- One edited block, what becomes of it, and the last kept block before it. -/
structure PlanStep where
  fate : Fate
  anchor : Option Nat
  block : SegmentedBlock
  deriving DecidableEq, Repr

/-- The emission state on positions. -/
structure PlanState where
  recreated : List Nat
  moved : List Nat
  previous : Option Nat
  deriving DecidableEq, Repr

namespace PlanState

def initial : PlanState := ⟨[], [], none⟩

def after (self : PlanState) (fate : Fate) : PlanState where
  recreated := fate.recreatedIndex.toList ++ self.recreated
  moved := fate.movedIndex.toList ++ self.moved
  previous := fate.kept.or self.previous

end PlanState

section Steps

variable (shadow : ShadowDocument)

/-- The id of the block at a position. -/
def blockIdAt (shadowIndex : Nat) : Option RemoteId :=
  (shadow.blocks[shadowIndex]?).map ShadowBlock.remoteId

/-- The block does not follow its retained predecessor. -/
def crosses (retained : List Nat) (st : PlanState) (shadowIndex : Nat) : Bool :=
  decide (previousRetainedShadowIndex shadowIndex retained st.recreated ≠ st.previous)

def fateOf (retained : List Nat) (st : PlanState) (item : SegmentedBlock × Option Nat) : Fate :=
  match item.2 with
  | none => .fresh
  | some s =>
      match shadow.blocks[s]? with
      | none => .fresh
      | some shadowBlock =>
          if crosses retained st s && decide (shadowBlock.contentHash = item.1.contentHash) then
            if shadowBlock.kind.isDirective && item.1.isDirective then .moved s
            else if !st.previous.any (fun p => decide (p ∈ st.moved)) &&
                !shadowBlock.kind.isDirective && !item.1.isDirective then .recreated s
            else .stayed s
          else .stayed s

def stepsFrom (retained : List Nat) (st : PlanState) :
    List (SegmentedBlock × Option Nat) → List PlanStep
  | [] => []
  | item :: items =>
      let fate := fateOf shadow retained st item
      ⟨fate, st.previous, item.1⟩ :: stepsFrom retained (st.after fate) items

def planSteps (editedBlocks : List SegmentedBlock) (pairing : List (Option Nat)) :
    List PlanStep :=
  stepsFrom shadow (retainedShadow pairing) PlanState.initial (editedBlocks.zip pairing)

/-- The operations of a step. -/
def PlanStep.operations (step : PlanStep) : List PushOperation :=
  let after := step.anchor.bind (blockIdAt shadow)
  match step.fate with
  | .fresh | .recreated _ => [.appendBlock shadow.entityId after step.block.text]
  | .moved s =>
      match shadow.blocks[s]? with
      | some shadowBlock =>
          .moveBlock shadowBlock.remoteId after :: contentOperations shadowBlock step.block
      | none => []
  | .stayed s =>
      match shadow.blocks[s]? with
      | some shadowBlock => contentOperations shadowBlock step.block
      | none => []

/-- The emission state that a state on positions stands for. -/
def PlanState.ids (st : PlanState) : EmissionState where
  recreatedShadow := st.recreated
  movedExistingIds := st.moved.filterMap (blockIdAt shadow)
  previousExistingId := st.previous.bind (blockIdAt shadow)

end Steps

/-! ## Ids and positions -/

section Distinct

variable {shadow : ShadowDocument}

theorem blockIdAt_eq {s : Nat} {block : ShadowBlock} (h : shadow.blocks[s]? = some block) :
    blockIdAt shadow s = some block.remoteId := by
  simp [blockIdAt, h]

theorem blockIdAt_inj (hids : shadow.DistinctIds) {i j : Nat} {id : RemoteId}
    (hi : blockIdAt shadow i = some id) (hj : blockIdAt shadow j = some id) : i = j := by
  have hget : ∀ {k : Nat}, blockIdAt shadow k = some id →
      ∃ h : k < (shadow.blocks.map ShadowBlock.remoteId).length,
        (shadow.blocks.map ShadowBlock.remoteId)[k] = id := by
    intro k hk
    have hmap : (shadow.blocks.map ShadowBlock.remoteId)[k]? = some id := by
      rw [List.getElem?_map]
      exact hk
    exact List.getElem?_eq_some_iff.mp hmap
  obtain ⟨hlti, hidi⟩ := hget hi
  obtain ⟨hltj, hidj⟩ := hget hj
  exact (List.Nodup.getElem_inj_iff hids).mp (hidi.trans hidj.symm)

/-- Positions in range and their ids can be compared either way. -/
theorem bind_blockIdAt_inj (hids : shadow.DistinctIds) {p q : Option Nat}
    (hp : ∀ i, p = some i → i < shadow.blocks.length)
    (hq : ∀ i, q = some i → i < shadow.blocks.length) :
    p.bind (blockIdAt shadow) = q.bind (blockIdAt shadow) ↔ p = q := by
  have hsome : ∀ {i : Nat}, i < shadow.blocks.length →
      ∃ id, blockIdAt shadow i = some id := by
    intro i hi
    exact ⟨_, blockIdAt_eq (List.getElem?_eq_getElem hi)⟩
  constructor
  · intro h
    cases p with
    | none =>
        cases q with
        | none => rfl
        | some j =>
            obtain ⟨id, hid⟩ := hsome (hq j rfl)
            simp [hid] at h
    | some i =>
        obtain ⟨id, hid⟩ := hsome (hp i rfl)
        cases q with
        | none => simp [hid] at h
        | some j =>
            simp only [Option.bind_some, hid] at h
            exact congrArg some (blockIdAt_inj hids hid h.symm)
  · rintro rfl
    rfl

theorem mem_filterMap_blockIdAt (hids : shadow.DistinctIds) {indexes : List Nat} {i : Nat}
    {id : RemoteId} (hi : blockIdAt shadow i = some id) :
    id ∈ indexes.filterMap (blockIdAt shadow) ↔ i ∈ indexes := by
  rw [List.mem_filterMap]
  constructor
  · rintro ⟨j, hj, hjid⟩
    exact blockIdAt_inj hids hjid hi ▸ hj
  · intro h
    exact ⟨i, h, hi⟩

theorem previousRetained_lt {s p : Nat} {retained recreated : List Nat}
    (h : previousRetainedShadowIndex s retained recreated = some p) :
    p < s ∧ p ∈ retained ∧ p ∉ recreated := by
  have hmem := List.mem_of_find?_eq_some h
  have hfound := List.find?_some h
  simp only [List.mem_reverse, List.mem_range] at hmem
  simp only [Bool.and_eq_true, decide_eq_true_eq, Bool.not_eq_true', decide_eq_false_iff_not]
    at hfound
  exact ⟨hmem, hfound⟩

end Distinct

/-! ## The loop decides as the steps do -/

section Refines

variable {shadow : ShadowDocument}

/-- The positions that a state remembers exist. -/
def PlanState.InRange (shadow : ShadowDocument) (st : PlanState) : Prop :=
  ∀ p, st.previous = some p → p < shadow.blocks.length

theorem fateOf_matched {retained : List Nat} {st : PlanState}
    {item : SegmentedBlock × Option Nat}
    (hrange : ∀ s, item.2 = some s → s < shadow.blocks.length) :
    (fateOf shadow retained st item).matched = item.2 := by
  unfold fateOf
  split
  · rename_i hnone
    rw [hnone]
    rfl
  · rename_i s hs
    have hlt := hrange s hs
    rw [List.getElem?_eq_getElem hlt]
    simp only []
    split
    · split
      · exact hs.symm
      · split <;> exact hs.symm
    · exact hs.symm

theorem Fate.kept_eq_matched {fate : Fate} {s : Nat} (h : fate.kept = some s) :
    fate.matched = some s := by
  cases fate <;> simp_all [Fate.kept, Fate.matched]

theorem PlanState.InRange.after {st : PlanState} (h : st.InRange shadow) {fate : Fate}
    (hfate : ∀ s, fate.matched = some s → s < shadow.blocks.length) :
    (st.after fate).InRange shadow := by
  intro p hp
  simp only [PlanState.after] at hp
  cases hkept : fate.kept with
  | none =>
      rw [hkept] at hp
      exact h p hp
  | some s =>
      rw [hkept] at hp
      injection hp with hp
      exact hp ▸ hfate s (Fate.kept_eq_matched hkept)

theorem previousRetained_eq_iff (hids : shadow.DistinctIds) {retained : List Nat}
    {st : PlanState} (hst : st.InRange shadow) {s : Nat} (hlt : s < shadow.blocks.length) :
    previousRetainedShadowId shadow s retained st.recreated =
        st.previous.bind (blockIdAt shadow) ↔
      previousRetainedShadowIndex s retained st.recreated = st.previous :=
  bind_blockIdAt_inj hids (fun _ hi => Nat.lt_trans (previousRetained_lt hi).1 hlt) hst

theorem shouldMoveBlock_eq (hids : shadow.DistinctIds) {retained : List Nat} {st : PlanState}
    (hst : st.InRange shadow) {s : Nat} (hlt : s < shadow.blocks.length)
    (shadowBlock : ShadowBlock) (editedBlock : SegmentedBlock) :
    shouldMoveBlock shadowBlock editedBlock
        (previousRetainedShadowId shadow s retained st.recreated)
        (st.previous.bind (blockIdAt shadow)) =
      (crosses retained st s && shadowBlock.kind.isDirective && editedBlock.isDirective &&
        decide (shadowBlock.contentHash = editedBlock.contentHash)) := by
  have hiff := @previousRetained_eq_iff shadow hids retained st hst s hlt
  by_cases h : previousRetainedShadowIndex s retained st.recreated = st.previous
  · simp [shouldMoveBlock, crosses, h, hiff.mpr h]
  · have hne : ¬ previousRetainedShadowId shadow s retained st.recreated =
        st.previous.bind (blockIdAt shadow) := fun heq => h (hiff.mp heq)
    simp [shouldMoveBlock, crosses, h, hne]

theorem shouldRecreate_eq (hids : shadow.DistinctIds) {retained : List Nat} {st : PlanState}
    (hst : st.InRange shadow) {s : Nat} (hlt : s < shadow.blocks.length)
    (shadowBlock : ShadowBlock) (editedBlock : SegmentedBlock) :
    shouldRecreateMovedNativeBlock shadowBlock editedBlock
        (previousRetainedShadowId shadow s retained st.recreated)
        (st.previous.bind (blockIdAt shadow)) (st.moved.filterMap (blockIdAt shadow)) =
      (crosses retained st s && !st.previous.any (fun p => decide (p ∈ st.moved)) &&
        !shadowBlock.kind.isDirective && !editedBlock.isDirective &&
        decide (shadowBlock.contentHash = editedBlock.contentHash)) := by
  have hiff := @previousRetained_eq_iff shadow hids retained st hst s hlt
  have hmoved : (st.previous.bind (blockIdAt shadow)).any (fun id =>
      decide (id ∈ st.moved.filterMap (blockIdAt shadow))) =
        st.previous.any (fun p => decide (p ∈ st.moved)) := by
    cases hp : st.previous with
    | none => rfl
    | some p =>
        have hpid := blockIdAt_eq (List.getElem?_eq_getElem (hst p hp))
        simp only [Option.bind_some, hpid, Option.any_some]
        rw [decide_eq_decide]
        exact mem_filterMap_blockIdAt hids hpid
  unfold shouldRecreateMovedNativeBlock
  rw [hmoved]
  by_cases h : previousRetainedShadowIndex s retained st.recreated = st.previous
  · simp [crosses, h, hiff.mpr h]
  · have hne : ¬ previousRetainedShadowId shadow s retained st.recreated =
        st.previous.bind (blockIdAt shadow) := fun heq => h (hiff.mp heq)
    simp [crosses, h, hne]

/-- The move of a directive and the recreation of a native block exclude each other,
so the ids that the second test reads are those from before the first. -/
theorem emitMatched_eq (hids : shadow.DistinctIds) {retained : List Nat} {st : PlanState}
    (hst : st.InRange shadow) {s : Nat} {shadowBlock : ShadowBlock}
    (hget : shadow.blocks[s]? = some shadowBlock) (block : SegmentedBlock) :
    emitMatched shadow retained (st.ids shadow) s shadowBlock block =
      (PlanStep.operations shadow ⟨fateOf shadow retained st (block, some s), st.previous, block⟩,
        (st.after (fateOf shadow retained st (block, some s))).ids shadow) := by
  have hlt := (List.getElem?_eq_some_iff.mp hget).1
  have hid : blockIdAt shadow s = some shadowBlock.remoteId := blockIdAt_eq hget
  have hmove := @shouldMoveBlock_eq shadow hids retained st hst s hlt shadowBlock block
  have hrecreate := @shouldRecreate_eq shadow hids retained st hst s hlt shadowBlock block
  have hnative : shadowBlock.kind.isDirective = true → ∀ movedIds,
      shouldRecreateMovedNativeBlock shadowBlock block
        (previousRetainedShadowId shadow s retained st.recreated)
        (st.previous.bind (blockIdAt shadow)) movedIds = false := by
    intro hdirective movedIds
    simp [shouldRecreateMovedNativeBlock, hdirective]
  have hsame : ∀ fate, fate = Fate.stayed s →
      (contentOperations shadowBlock block,
        (⟨st.recreated, st.moved.filterMap (blockIdAt shadow), some shadowBlock.remoteId⟩ :
          EmissionState)) =
        (PlanStep.operations shadow ⟨fate, st.previous, block⟩,
          (st.after fate).ids shadow) := by
    rintro _ rfl
    simp [PlanStep.operations, hget, PlanState.ids, PlanState.after, Fate.recreatedIndex,
      Fate.movedIndex, Fate.kept, hid]
  unfold PlanState.ids at hsame ⊢
  simp only [emitMatched, fateOf, hget, hmove]
  cases hcross : crosses retained st s with
  | false => simpa [hcross, hrecreate] using hsame _ rfl
  | true =>
      by_cases hhash : shadowBlock.contentHash = block.contentHash
      · cases hd : shadowBlock.kind.isDirective with
        | true =>
            cases he : block.isDirective with
            | true =>
                simp [hhash, hnative hd, PlanStep.operations, hget, PlanState.after,
                  Fate.recreatedIndex, Fate.movedIndex, Fate.kept, hid]
            | false => simpa [hhash, hnative hd] using hsame _ rfl
        | false =>
            cases hm : st.previous.any (fun p => decide (p ∈ st.moved)) with
            | true => simpa [hhash, hcross, hd, hrecreate, hm] using hsame _ rfl
            | false =>
                cases he : block.isDirective with
                | true => simpa [hhash, hcross, hd, hrecreate, hm, he] using hsame _ rfl
                | false =>
                    simp [hhash, hcross, hd, hrecreate, hm, he, PlanStep.operations,
                      PlanState.after, Fate.recreatedIndex, Fate.movedIndex, Fate.kept]
      · simpa [hhash, hrecreate] using hsame _ rfl

/-- One round of the loop is one step. -/
theorem emitBlock_eq (hids : shadow.DistinctIds) {retained : List Nat} {st : PlanState}
    (hst : st.InRange shadow) {item : SegmentedBlock × Option Nat}
    (hrange : ∀ s, item.2 = some s → s < shadow.blocks.length) :
    emitBlock shadow retained (st.ids shadow) item =
      (PlanStep.operations shadow ⟨fateOf shadow retained st item, st.previous, item.1⟩,
        (st.after (fateOf shadow retained st item)).ids shadow) := by
  obtain ⟨block, m⟩ := item
  cases m with
  | none => rfl
  | some s =>
      have hget := List.getElem?_eq_getElem (hrange s rfl)
      simp only [emitBlock, hget]
      exact emitMatched_eq hids hst hget block

end Refines

/-! ## The whole loop -/

/-- The state after a list of edited blocks. -/
def stateFrom (shadow : ShadowDocument) (retained : List Nat) (st : PlanState) :
    List (SegmentedBlock × Option Nat) → PlanState
  | [] => st
  | item :: items =>
      stateFrom shadow retained (st.after (fateOf shadow retained st item)) items

/-- The shadow blocks that live on. -/
def keptIndexes (steps : List PlanStep) : List Nat :=
  steps.filterMap fun step => step.fate.kept

theorem keptIndexes_cons (step : PlanStep) (steps : List PlanStep) :
    keptIndexes (step :: steps) = step.fate.kept.toList ++ keptIndexes steps := by
  unfold keptIndexes
  rw [List.filterMap_cons]
  cases step.fate.kept <;> rfl

/-- The archive of every block that does not live on. -/
def archivesOf (shadow : ShadowDocument) (kept : List Nat) : List PushOperation :=
  shadow.blocks.zipIdx.filterMap fun p =>
    if p.2 ∈ kept then none else some (.archiveBlock p.1.remoteId)

section Loop

variable {shadow : ShadowDocument}

theorem emitBlocksFrom_eq (hids : shadow.DistinctIds) (retained : List Nat) :
    ∀ {items : List (SegmentedBlock × Option Nat)} {st : PlanState}, st.InRange shadow →
      (∀ item ∈ items, ∀ s, item.2 = some s → s < shadow.blocks.length) →
      emitBlocksFrom shadow retained (st.ids shadow) items =
        ((stepsFrom shadow retained st items).map (PlanStep.operations shadow),
          (stateFrom shadow retained st items).ids shadow)
  | [], st, _, _ => rfl
  | item :: items, st, hst, hrange => by
      have hitem := hrange item List.mem_cons_self
      have hafter : (st.after (fateOf shadow retained st item)).InRange shadow := by
        apply hst.after
        intro s hs
        rw [fateOf_matched hitem] at hs
        exact hitem s hs
      have ih := emitBlocksFrom_eq hids retained hafter
        (fun next hnext => hrange next (List.mem_cons_of_mem _ hnext))
      simp only [emitBlocksFrom, emitBlock_eq hids hst hitem, ih, stepsFrom, stateFrom,
        List.map_cons]

/-- The steps match the edited blocks as the alignment does. -/
theorem stepsFrom_matched {retained : List Nat} :
    ∀ {items : List (SegmentedBlock × Option Nat)} {st : PlanState},
      (∀ item ∈ items, ∀ s, item.2 = some s → s < shadow.blocks.length) →
      (stepsFrom shadow retained st items).map (fun step => step.fate.matched) =
        items.map Prod.snd
  | [], _, _ => rfl
  | item :: items, st, hrange => by
      have ih := @stepsFrom_matched retained items
        (st.after (fateOf shadow retained st item))
        (fun next hnext => hrange next (List.mem_cons_of_mem _ hnext))
      simp only [stepsFrom, List.map_cons, ih,
        fateOf_matched (hrange item List.mem_cons_self)]

theorem stepsFrom_block {retained : List Nat} :
    ∀ {items : List (SegmentedBlock × Option Nat)} {st : PlanState},
      (stepsFrom shadow retained st items).map PlanStep.block = items.map Prod.fst
  | [], _ => rfl
  | item :: items, st => by
      simp only [stepsFrom, List.map_cons, stepsFrom_block]

theorem mem_stateFrom_recreated {retained : List Nat} {s : Nat} :
    ∀ {items : List (SegmentedBlock × Option Nat)} {st : PlanState},
      s ∈ (stateFrom shadow retained st items).recreated ↔
        s ∈ st.recreated ∨
          ∃ step ∈ stepsFrom shadow retained st items, step.fate = .recreated s
  | [], st => by simp [stateFrom, stepsFrom]
  | item :: items, st => by
      rw [stateFrom, mem_stateFrom_recreated, stepsFrom]
      have hhead : s ∈ (st.after (fateOf shadow retained st item)).recreated ↔
          fateOf shadow retained st item = .recreated s ∨ s ∈ st.recreated := by
        cases fateOf shadow retained st item <;>
          simp [PlanState.after, Fate.recreatedIndex, eq_comm]
      rw [hhead]
      simp only [List.mem_cons, exists_eq_or_imp]
      tauto

theorem PlanState.initial_inRange : PlanState.initial.InRange shadow := by
  intro p hp
  cases hp

end Loop

section Plan

variable {shadow : ShadowDocument} {editedBlocks : List SegmentedBlock} {a : Alignment}

theorem Alignment.Valid.items_inRange (ha : a.Valid shadow editedBlocks) :
    ∀ item ∈ editedBlocks.zip a.pairing, ∀ s, item.2 = some s → s < shadow.blocks.length := by
  rintro ⟨block, m⟩ hmem s rfl
  obtain ⟨e, he⟩ := List.mem_iff_getElem?.mp (List.of_mem_zip hmem).2
  exact ha.inRange e s (Alignment.matchOf_eq_some.mpr he)

theorem Alignment.Valid.planSteps_matched (ha : a.Valid shadow editedBlocks) :
    (planSteps shadow editedBlocks a.pairing).map (fun step => step.fate.matched) =
      a.pairing := by
  rw [planSteps, stepsFrom_matched ha.items_inRange]
  exact List.map_snd_zip (Nat.le_of_eq ha.length)

theorem Alignment.Valid.planSteps_block (ha : a.Valid shadow editedBlocks) :
    (planSteps shadow editedBlocks a.pairing).map PlanStep.block = editedBlocks := by
  rw [planSteps, stepsFrom_block]
  exact List.map_fst_zip (Nat.le_of_eq ha.length.symm)

theorem Alignment.Valid.retainedShadow_eq (ha : a.Valid shadow editedBlocks) :
    retainedShadow a.pairing =
      (planSteps shadow editedBlocks a.pairing).filterMap (fun step => step.fate.matched) := by
  unfold retainedShadow
  conv_lhs => rw [← ha.planSteps_matched]
  rw [List.filterMap_map]
  rfl

theorem Alignment.Valid.retained_nodup (ha : a.Valid shadow editedBlocks) :
    (retainedShadow a.pairing).Nodup := by
  rw [retainedShadow, List.nodup_iff_pairwise_ne, List.pairwise_filterMap]
  rw [List.pairwise_iff_getElem]
  intro e e' he he' hlt s hs t ht hst
  subst hst
  have hmatch := Alignment.matchOf_eq_some.mpr
    ((List.getElem?_eq_getElem he).trans (congrArg some hs))
  have hmatch' := Alignment.matchOf_eq_some.mpr
    ((List.getElem?_eq_getElem he').trans (congrArg some ht))
  exact absurd (ha.injective e e' s hmatch hmatch') (Nat.ne_of_lt hlt)

/-- No shadow block is matched by two steps. -/
theorem Alignment.Valid.planSteps_pairwise (ha : a.Valid shadow editedBlocks) :
    (planSteps shadow editedBlocks a.pairing).Pairwise fun step step' =>
      ∀ s, step.fate.matched = some s → step'.fate.matched ≠ some s := by
  have hnodup := ha.retained_nodup
  rw [ha.retainedShadow_eq, List.nodup_iff_pairwise_ne, List.pairwise_filterMap] at hnodup
  refine hnodup.imp ?_
  intro step step' hne s hs hs'
  exact hne s hs s hs' rfl

theorem Alignment.Valid.step_eq (ha : a.Valid shadow editedBlocks) {step step' : PlanStep}
    (hmem : step ∈ planSteps shadow editedBlocks a.pairing)
    (hmem' : step' ∈ planSteps shadow editedBlocks a.pairing) {s : Nat}
    (hs : step.fate.matched = some s) (hs' : step'.fate.matched = some s) : step = step' := by
  by_contra hne
  have hsymm : Std.Symm (fun step step' : PlanStep =>
      ∀ s, step.fate.matched = some s → step'.fate.matched ≠ some s) :=
    ⟨fun _ _ h s hs hs' => h s hs' hs⟩
  exact ha.planSteps_pairwise.forall hmem hmem' hne s hs hs'

/-- What lives on is what is matched and not written anew. -/
theorem Alignment.Valid.mem_kept_iff (ha : a.Valid shadow editedBlocks) {s : Nat} :
    s ∈ keptIndexes (planSteps shadow editedBlocks a.pairing) ↔
      s ∈ retainedShadow a.pairing ∧
        ∀ step ∈ planSteps shadow editedBlocks a.pairing, step.fate ≠ .recreated s := by
  rw [ha.retainedShadow_eq, keptIndexes, List.mem_filterMap, List.mem_filterMap]
  constructor
  · rintro ⟨step, hmem, hkept⟩
    have hmatched := Fate.kept_eq_matched hkept
    refine ⟨⟨step, hmem, hmatched⟩, ?_⟩
    intro step' hmem' hrecreated
    have hmatched' : step'.fate.matched = some s := by rw [hrecreated]; rfl
    rw [ha.step_eq hmem hmem' hmatched hmatched', hrecreated] at hkept
    cases hkept
  · rintro ⟨⟨step, hmem, hmatched⟩, hnone⟩
    refine ⟨step, hmem, ?_⟩
    have hne := hnone step hmem
    cases hfate : step.fate with
    | fresh => rw [hfate] at hmatched; cases hmatched
    | recreated t =>
        rw [hfate] at hmatched hne
        injection hmatched with hmatched
        exact absurd (congrArg Fate.recreated hmatched) hne
    | moved t => rw [hfate] at hmatched; exact hmatched
    | stayed t => rw [hfate] at hmatched; exact hmatched

theorem Alignment.Valid.archiveOperations_eq (ha : a.Valid shadow editedBlocks) :
    archiveOperations shadow a.pairing
        (stateFrom shadow (retainedShadow a.pairing) PlanState.initial
          (editedBlocks.zip a.pairing)).recreated =
      archivesOf shadow (keptIndexes (planSteps shadow editedBlocks a.pairing)) := by
  apply List.filterMap_congr
  rintro ⟨block, s⟩ _
  have hrecreated := @mem_stateFrom_recreated shadow (retainedShadow a.pairing) s
    (editedBlocks.zip a.pairing) PlanState.initial
  have hkept := @Alignment.Valid.mem_kept_iff shadow editedBlocks a ha s
  change _ ↔ s ∈ [] ∨ ∃ step ∈ planSteps shadow editedBlocks a.pairing, _ at hrecreated
  have hiff : s ∈ keptIndexes (planSteps shadow editedBlocks a.pairing) ↔
      s ∈ retainedShadow a.pairing ∧
        s ∉ (stateFrom shadow (retainedShadow a.pairing) PlanState.initial
          (editedBlocks.zip a.pairing)).recreated := by
    rw [hkept, hrecreated]
    simp
  by_cases hretained : s ∈ retainedShadow a.pairing <;>
    by_cases hrec : s ∈ (stateFrom shadow (retainedShadow a.pairing) PlanState.initial
      (editedBlocks.zip a.pairing)).recreated <;>
    simp [hiff, hretained, hrec]

/-- The operations for the edited blocks, one list for each. -/
theorem Alignment.Valid.emitBlocks_eq (ha : a.Valid shadow editedBlocks)
    (hids : shadow.DistinctIds) :
    emitBlocks shadow editedBlocks a.pairing =
      ((planSteps shadow editedBlocks a.pairing).map (PlanStep.operations shadow),
        (stateFrom shadow (retainedShadow a.pairing) PlanState.initial
          (editedBlocks.zip a.pairing)).ids shadow) :=
  emitBlocksFrom_eq hids _ PlanState.initial_inRange ha.items_inRange

/-- The plan for the blocks is written from the steps. -/
theorem Alignment.Valid.blockOperations_eq (ha : a.Valid shadow editedBlocks)
    (hids : shadow.DistinctIds) :
    blockOperations shadow editedBlocks a.pairing =
      (planSteps shadow editedBlocks a.pairing).flatMap (PlanStep.operations shadow) ++
        archivesOf shadow (keptIndexes (planSteps shadow editedBlocks a.pairing)) := by
  simp only [blockOperations, ha.emitBlocks_eq hids, PlanState.ids, List.flatMap]
  rw [ha.archiveOperations_eq]

end Plan

end Locality.Core
