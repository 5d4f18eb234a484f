/-
  Notion/UndoSteps.lean --- what a push and its undo do to the blocks that were not
  created by the push.

  `Tracks` is one invariant for both directions.  Up to a position in the plan, the
  blocks that were not created stand in shadow order, each at its own home, and a home
  is empty exactly if an operation before that position takes its block off the page.
  An operation of the plan moves the position forwards (`applyFrom_tracks`), the undo
  of that operation moves it back (`applyUndoFrom_tracks`).
-/
import Locality.Core.DiffSteps
import Locality.Notion.ApplyUndo

set_option autoImplicit false

namespace Locality.Notion

open Locality.Core
open Locality.Foundation

/-! ## What an operation does to a block -/

/-- The block leaves the page, for good or for one that is created for it. -/
def takesOff (blockId : RemoteId) : PushOperation → Bool
  | .replaceBlock id _ | .moveBlock id _ | .archiveBlock id => decide (id = blockId)
  | _ => false

/-- The block is written in place. -/
def updates (blockId : RemoteId) : PushOperation → Bool
  | .updateBlock id _ => decide (id = blockId)
  | _ => false

def creates : PushOperation → Bool
  | .appendBlock _ _ _ | .replaceBlock _ _ | .moveBlock _ _ => true
  | _ => false

def takenOff (operations : List PushOperation) (blockId : RemoteId) : Bool :=
  operations.any (takesOff blockId)

def updated (operations : List PushOperation) (blockId : RemoteId) : Bool :=
  operations.any (updates blockId)

/-- The ids of the blocks that the operations create. -/
def createdBy (createdId : Nat → RemoteId) (operations : List PushOperation) : List RemoteId :=
  (operations.zipIdx.filter fun p => creates p.1).map fun p => createdId p.2

/-- The operations that a block diff plans, on the blocks of its shadow. -/
inductive PlannedOn (shadow : ShadowDocument) : PushOperation → Prop where
  | properties (entityId : RemoteId) (properties : List (Text × PropertyValue)) :
      PlannedOn shadow (.updateProperties entityId properties)
  | append (parentId : RemoteId) (after : Option RemoteId) (content : Text) :
      PlannedOn shadow (.appendBlock parentId after content)
  | update {s : Nat} {block : ShadowBlock} (hget : shadow.blocks[s]? = some block)
      (content : Text) : PlannedOn shadow (.updateBlock block.remoteId content)
  | replace {s : Nat} {block : ShadowBlock} (hget : shadow.blocks[s]? = some block)
      (content : Text) : PlannedOn shadow (.replaceBlock block.remoteId content)
  | move {s : Nat} {block : ShadowBlock} (hget : shadow.blocks[s]? = some block)
      (after : Option RemoteId) : PlannedOn shadow (.moveBlock block.remoteId after)
  | archive {s : Nat} {block : ShadowBlock} (hget : shadow.blocks[s]? = some block) :
      PlannedOn shadow (.archiveBlock block.remoteId)

section Concat

variable (operations : List PushOperation) (operation : PushOperation)

@[simp] theorem takenOff_concat (id : RemoteId) :
    takenOff (operations ++ [operation]) id = (takenOff operations id || takesOff id operation) := by
  simp [takenOff]

@[simp] theorem updated_concat (id : RemoteId) :
    updated (operations ++ [operation]) id = (updated operations id || updates id operation) := by
  simp [updated]

theorem takenOff_of_concat {id : RemoteId}
    (h : takenOff (operations ++ [operation]) id = false) : takenOff operations id = false := by
  rw [takenOff_concat, Bool.or_eq_false_iff] at h
  exact h.1

theorem updated_of_concat {id : RemoteId}
    (h : updated (operations ++ [operation]) id = false) : updated operations id = false := by
  rw [updated_concat, Bool.or_eq_false_iff] at h
  exact h.1

theorem createdBy_concat (createdId : Nat → RemoteId) :
    createdBy createdId (operations ++ [operation]) =
      createdBy createdId operations ++
        if creates operation then [createdId operations.length] else [] := by
  rw [createdBy, List.zipIdx_append, List.filter_append, List.map_append]
  cases h : creates operation <;> simp [createdBy, h]

end Concat

section ConcatCases

variable {operations : List PushOperation} {operation : PushOperation}

theorem createdBy_concat_perm (createdId : Nat → RemoteId) (h : creates operation = true) :
    (createdBy createdId (operations ++ [operation])).Perm
      (createdId operations.length :: createdBy createdId operations) := by
  rw [createdBy_concat, if_pos h]
  exact List.perm_append_singleton _ _

theorem createdBy_concat_of_not (createdId : Nat → RemoteId) (h : creates operation = false) :
    createdBy createdId (operations ++ [operation]) = createdBy createdId operations := by
  rw [createdBy_concat, h, if_neg Bool.false_ne_true, List.append_nil]

end ConcatCases

/-! ## Created blocks -/

/-- The id was given to a block that one of the first operations created. -/
def isCreated (createdId : Nat → RemoteId) (bound : Nat) (id : RemoteId) : Bool :=
  (List.range bound).any fun k => decide (createdId k = id)

def isKept (createdId : Nat → RemoteId) (bound : Nat) (block : PageBlock) : Bool :=
  !isCreated createdId bound block.id

section Created

variable {shadow : ShadowDocument} {createdId restoredId : Nat → RemoteId} {bound k : Nat}

theorem isCreated_createdId (hk : k < bound) : isCreated createdId bound (createdId k) = true := by
  rw [isCreated, List.any_eq_true]
  exact ⟨k, List.mem_range.mpr hk, decide_eq_true rfl⟩

theorem isCreated_eq_false {id : RemoteId} (h : ∀ k, createdId k ≠ id) :
    isCreated createdId bound id = false := by
  rw [isCreated, List.any_eq_false]
  intro k _
  simpa using h k

theorem isCreated_synced (hfresh : FreshIds shadow createdId) {s : Nat} {block : ShadowBlock}
    (hget : shadow.blocks[s]? = some block) :
    isCreated createdId bound block.remoteId = false :=
  isCreated_eq_false fun k => hfresh.notSynced k block (List.mem_of_getElem? hget)

theorem isKept_of_hasId (bound : Nat) (hfresh : FreshIds shadow createdId) {s : Nat}
    {block : ShadowBlock} (hget : shadow.blocks[s]? = some block) {z : PageBlock}
    (hz : PageBlock.hasId block.remoteId z = true) : isKept createdId bound z = true := by
  rw [PageBlock.hasId, decide_eq_true_eq] at hz
  rw [isKept, hz, isCreated_synced hfresh hget]
  rfl

end Created

/-! ## Homes -/

section Homes

variable (shadow : ShadowDocument) (restoredId : Nat → RemoteId)

/-- The page block stands for the shadow block; it has its text and its id unless they
were changed. -/
structure FitsHome (ever rewritten : RemoteId → Bool) (block : ShadowBlock) (x : PageBlock) :
    Prop where
  text : rewritten block.remoteId = false → x.text = block.text
  id : ever block.remoteId = false → x.id = block.remoteId
  given : x.id = block.remoteId ∨ ∃ j, x.id = restoredId j
  name : x.name = some block.remoteId

structure HomesOf (ever off rewritten : RemoteId → Bool) (home : Nat → Option PageBlock) :
    Prop where
  off : ∀ (s : Nat) (block : ShadowBlock), shadow.blocks[s]? = some block →
    (home s = none ↔ off block.remoteId = true)
  fits : ∀ (s : Nat) (block : ShadowBlock) (x : PageBlock), shadow.blocks[s]? = some block →
    home s = some x → FitsHome restoredId ever rewritten block x

variable {shadow} {restoredId} {ever ever' off off' rewritten rewritten' : RemoteId → Bool}
  {home : Nat → Option PageBlock}

theorem shadowBlock_ext (hids : shadow.DistinctIds) {s t : Nat} {block other : ShadowBlock}
    (hs : shadow.blocks[s]? = some block) (ht : shadow.blocks[t]? = some other)
    (hid : block.remoteId = other.remoteId) : s = t := by
  apply blockIdAt_inj hids (blockIdAt_eq hs)
  rw [hid]
  exact blockIdAt_eq ht

theorem FitsHome.mono {block : ShadowBlock} {x : PageBlock}
    (h : FitsHome restoredId ever rewritten block x)
    (hever : ever' block.remoteId = false → ever block.remoteId = false)
    (hrewritten : rewritten' block.remoteId = false → rewritten block.remoteId = false) :
    FitsHome restoredId ever' rewritten' block x where
  text := fun hnot => h.text (hrewritten hnot)
  id := fun hnot => h.id (hever hnot)
  given := h.given
  name := h.name

namespace HomesOf

theorem mono (h : HomesOf shadow restoredId ever off rewritten home)
    (hever : ∀ id, ever' id = false → ever id = false) (hoff : ∀ id, off' id = off id)
    (hrewritten : ∀ id, rewritten' id = false → rewritten id = false) :
    HomesOf shadow restoredId ever' off' rewritten' home where
  off := by
    intro s block hget
    rw [hoff]
    exact h.off s block hget
  fits := fun s block x hget hx => (h.fits s block x hget hx).mono (hever _) (hrewritten _)

/-- One home changes, and nothing is said of another block. -/
theorem set (hids : shadow.DistinctIds) (h : HomesOf shadow restoredId ever off rewritten home)
    {s : Nat} {block : ShadowBlock} (hget : shadow.blocks[s]? = some block)
    {x : Option PageBlock} (hever : ∀ id, ever' id = false → ever id = false)
    (hoff : ∀ id, block.remoteId ≠ id → off' id = off id)
    (hrewritten : ∀ id, block.remoteId ≠ id → rewritten' id = false → rewritten id = false)
    (hnone : x = none ↔ off' block.remoteId = true)
    (hfits : ∀ y, x = some y → FitsHome restoredId ever' rewritten' block y) :
    HomesOf shadow restoredId ever' off' rewritten' (Function.update home s x) where
  off := by
    intro t other hother
    by_cases hts : t = s
    · subst hts
      rw [Function.update_self]
      rw [hget] at hother
      injection hother with hother
      exact hother ▸ hnone
    · rw [Function.update_of_ne hts, hoff]
      · exact h.off t other hother
      · exact fun heq => hts (shadowBlock_ext hids hget hother heq).symm
  fits := by
    intro t other y hother hy
    by_cases hts : t = s
    · subst hts
      rw [Function.update_self] at hy
      rw [hget] at hother
      injection hother with hother
      exact hother ▸ hfits y hy
    · rw [Function.update_of_ne hts] at hy
      apply (h.fits t other y hother hy).mono (hever _)
      exact hrewritten _ (fun heq => hts (shadowBlock_ext hids hget hother heq).symm)

theorem atMostOne_named (hids : shadow.DistinctIds)
    (h : HomesOf shadow restoredId ever off rewritten home) (id : RemoteId) :
    AtMostOne (PageBlock.isNamed id) ((Layout.ofHomes home).items shadow.blocks.length) := by
  apply Layout.atMostOne_ofHomes
  intro i j x y hi hj hx hy hpx hpy
  have hix := (h.fits i _ x (List.getElem?_eq_getElem hi) hx).name
  have hjy := (h.fits j _ y (List.getElem?_eq_getElem hj) hy).name
  have hname := (of_decide_eq_true hpx).trans (of_decide_eq_true hpy).symm
  rw [hix, hjy] at hname
  exact shadowBlock_ext hids (List.getElem?_eq_getElem hi) (List.getElem?_eq_getElem hj)
    (Option.some.inj hname)

/-- A synced id is at most at its own home. -/
theorem eq_of_id (hids : shadow.DistinctIds) (hrestored : FreshIds shadow restoredId)
    (h : HomesOf shadow restoredId ever off rewritten home) {s i : Nat} {block : ShadowBlock}
    (hget : shadow.blocks[s]? = some block) {x : PageBlock} (hi : i < shadow.blocks.length)
    (hx : home i = some x) (hid : x.id = block.remoteId) : i = s := by
  rcases (h.fits i _ x (List.getElem?_eq_getElem hi) hx).given with hsynced | ⟨j, hj⟩
  · exact shadowBlock_ext hids (List.getElem?_eq_getElem hi) hget (hsynced.symm.trans hid)
  · exact absurd (hj.symm.trans hid) (hrestored.notSynced j block (List.mem_of_getElem? hget))

theorem atMostOne_hasId (hids : shadow.DistinctIds) (hrestored : FreshIds shadow restoredId)
    (h : HomesOf shadow restoredId ever off rewritten home) {s : Nat} {block : ShadowBlock}
    (hget : shadow.blocks[s]? = some block) :
    AtMostOne (PageBlock.hasId block.remoteId)
      ((Layout.ofHomes home).items shadow.blocks.length) := by
  apply Layout.atMostOne_ofHomes
  intro i j x y hi hj hx hy hpx hpy
  rw [h.eq_of_id hids hrestored hget hi hx (of_decide_eq_true hpx),
    h.eq_of_id hids hrestored hget hj hy (of_decide_eq_true hpy)]

end HomesOf

end Homes

/-! ## The invariant -/

section Tracks

variable (shadow : ShadowDocument) (createdId restoredId : Nat → RemoteId) (bound : Nat)

/-- The page, seen as the shadow's homes and the created blocks. -/
structure Tracks (ever : RemoteId → Bool) (operations : List PushOperation)
    (home : Nat → Option PageBlock) (blocks : List PageBlock) : Prop where
  kept : blocks.filter (isKept createdId bound) =
    (Layout.ofHomes home).items shadow.blocks.length
  created : ((blocks.map PageBlock.id).filter (isCreated createdId bound)).Perm
    (createdBy createdId operations)
  homes : HomesOf shadow restoredId ever (takenOff operations) (updated operations) home

/-- During the push, a created block has the name of a block only if that was taken
off. -/
structure Pushed (operations : List PushOperation) (home : Nat → Option PageBlock)
    (blocks : List PageBlock) : Prop where
  tracks : Tracks shadow createdId restoredId bound (takenOff operations) operations home blocks
  named : ∀ z ∈ blocks, isCreated createdId bound z.id = true → ∀ (s : Nat)
    (block : ShadowBlock), shadow.blocks[s]? = some block → z.name = some block.remoteId →
      takenOff operations block.remoteId = true

variable {shadow} {createdId restoredId} {bound} {ever : RemoteId → Bool}
  {operations : List PushOperation} {home : Nat → Option PageBlock} {blocks : List PageBlock}
  {s : Nat} {block : ShadowBlock}

/-- A kept block with the name of a shadow block stands at its home. -/
theorem Tracks.home_of_named (hids : shadow.DistinctIds)
    (h : Tracks shadow createdId restoredId bound ever operations home blocks)
    (hget : shadow.blocks[s]? = some block) {z : PageBlock} (hz : z ∈ blocks)
    (hkept : isKept createdId bound z = true)
    (hname : PageBlock.isNamed block.remoteId z = true) : home s = some z := by
  have hmem : z ∈ blocks.filter (isKept createdId bound) := List.mem_filter.mpr ⟨hz, hkept⟩
  rw [h.kept, Layout.mem_items_ofHomes] at hmem
  obtain ⟨i, hi, hhome⟩ := hmem
  have hfits := (h.homes.fits i _ z (List.getElem?_eq_getElem hi) hhome).name
  rw [of_decide_eq_true hname] at hfits
  have heq := shadowBlock_ext hids hget (List.getElem?_eq_getElem hi) (Option.some.inj hfits)
  exact heq ▸ hhome

theorem Pushed.named_kept
    (h : Pushed shadow createdId restoredId bound operations home blocks)
    (hget : shadow.blocks[s]? = some block)
    (hoff : takenOff operations block.remoteId = false) :
    ∀ z ∈ blocks, PageBlock.isNamed block.remoteId z = true →
      isKept createdId bound z = true := by
  intro z hz hname
  cases hcreated : isCreated createdId bound z.id with
  | false => simp [isKept, hcreated]
  | true =>
      have htaken := h.named z hz hcreated s block hget (of_decide_eq_true hname)
      rw [hoff] at htaken
      cases htaken

theorem filter_created_perm (createdId : Nat → RemoteId) (bound : Nat) {xs ys : List PageBlock} (h : xs.Perm ys) :
    ((xs.map PageBlock.id).filter (isCreated createdId bound)).Perm
      ((ys.map PageBlock.id).filter (isCreated createdId bound)) :=
  (h.map PageBlock.id).filter _

theorem insertBehind_filter_of_created {after : Option RemoteId} {x : PageBlock}
    {blocks' : List PageBlock} (h : insertBehind after x blocks = some blocks')
    (hx : isKept createdId bound x = false) :
    blocks'.filter (isKept createdId bound) = blocks.filter (isKept createdId bound) := by
  cases after with
  | none =>
      injection h with h
      rw [← h, List.filter_cons_of_neg (by simp [hx])]
  | some blockId => exact filter_insertAfter_of_not h hx

/-! ## One operation of the push -/

namespace Pushed

variable {page page' : PageState} {operation : PushOperation}

/-- The blocks keep their ids and names, or are created for a block that is gone. -/
theorem named_of (h : Pushed shadow createdId restoredId bound operations home blocks)
    {operations' : List PushOperation} {blocks' : List PageBlock}
    (hoff : ∀ id, takenOff operations id = true → takenOff operations' id = true)
    (hold : ∀ z ∈ blocks', (∃ w ∈ blocks, w.id = z.id ∧ w.name = z.name) ∨ z.name = none ∨
      ∃ id, z.name = some id ∧ takenOff operations' id = true) :
    ∀ z ∈ blocks', isCreated createdId bound z.id = true → ∀ (s : Nat) (block : ShadowBlock),
      shadow.blocks[s]? = some block → z.name = some block.remoteId →
        takenOff operations' block.remoteId = true := by
  intro z hz hcreated s block hget hname
  rcases hold z hz with ⟨w, hw, hid, hwname⟩ | hnone | ⟨id, hid, htaken⟩
  · exact hoff _ (h.named w hw (hid ▸ hcreated) s block hget (hwname.trans hname))
  · rw [hnone] at hname
    cases hname
  · rw [hid] at hname
    injection hname with hname
    exact hname ▸ htaken

/-- An operation that leaves the kept blocks alone and creates at most one. -/
theorem unchanged (h : Pushed shadow createdId restoredId bound operations home blocks)
    (hoff : ∀ id, takesOff id operation = false) (hup : ∀ id, updates id operation = false)
    {blocks' : List PageBlock}
    (hkept : blocks'.filter (isKept createdId bound) = blocks.filter (isKept createdId bound))
    (hcreated : ((blocks'.map PageBlock.id).filter (isCreated createdId bound)).Perm
      (createdBy createdId (operations ++ [operation])))
    (hnamed : ∀ z ∈ blocks', z ∈ blocks ∨ z.name = none) :
    Pushed shadow createdId restoredId bound (operations ++ [operation]) home blocks' where
  tracks := by
    refine ⟨hkept.trans h.tracks.kept, hcreated, ?_⟩
    apply h.tracks.homes.mono <;> intro id <;> simp [hoff, hup]
  named := by
    apply h.named_of
    · intro id htaken
      simp [htaken]
    · intro z hz
      rcases hnamed z hz with hmem | hnone
      · exact Or.inl ⟨z, hmem, rfl, rfl⟩
      · exact Or.inr (Or.inl hnone)

/-- The home of a block that the operation takes off is empty. -/
theorem homes_off (hids : shadow.DistinctIds)
    (h : Pushed shadow createdId restoredId bound operations home blocks)
    (hget : shadow.blocks[s]? = some block)
    (hoff : ∀ id, takesOff id operation = decide (block.remoteId = id))
    (hup : ∀ id, updates id operation = false) :
    HomesOf shadow restoredId (takenOff (operations ++ [operation]))
      (takenOff (operations ++ [operation])) (updated (operations ++ [operation]))
      (Function.update home s none) := by
  apply h.tracks.homes.set hids hget
  · exact fun id => takenOff_of_concat operations operation
  · intro id hne
    simp [hoff, hne]
  · intro id _
    simp [hup]
  · simp [hoff]
  · intro y hy
    cases hy

theorem update (hids : shadow.DistinctIds)
    (h : Pushed shadow createdId restoredId bound operations home page.blocks)
    (hget : shadow.blocks[s]? = some block) {content : Text} {k : Nat}
    (happly : applyOperation createdId k page (.updateBlock block.remoteId content) =
      some page') :
    ∃ home', Pushed shadow createdId restoredId bound
      (operations ++ [.updateBlock block.remoteId content]) home' page'.blocks := by
  obtain ⟨blocks', hrewrite, rfl⟩ := Option.map_eq_some_iff.mp happly
  obtain ⟨y, rest, _, hperm, hperm'⟩ := perm_of_rewriteFirst hrewrite
  have hcreated : ((blocks'.map PageBlock.id).filter (isCreated createdId bound)).Perm
      (createdBy createdId (operations ++ [.updateBlock block.remoteId content])) := by
    rw [createdBy_concat_of_not createdId rfl]
    refine List.Perm.trans ?_ h.tracks.created
    exact ((hperm'.map PageBlock.id).filter _).trans ((hperm.map PageBlock.id).filter _).symm
  have hnamed := @named_of shadow createdId restoredId bound operations home page.blocks h
    (operations ++ [.updateBlock block.remoteId content]) blocks'
    (by intro id htaken; simp [htaken]) (by
      intro z hz
      rcases List.mem_cons.mp (hperm'.mem_iff.mp hz) with rfl | hmem
      · exact Or.inl ⟨y, hperm.mem_iff.mpr List.mem_cons_self, rfl, rfl⟩
      · exact Or.inl ⟨z, hperm.mem_iff.mpr (List.mem_cons_of_mem _ hmem), rfl, rfl⟩)
  cases hhome : home s with
  | none =>
      -- the block was moved: its copy is written, a created block
      have hoff := (h.tracks.homes.off s block hget).mp hhome
      have hnot : ∀ z ∈ page.blocks, PageBlock.isNamed block.remoteId z = true →
          isKept createdId bound z = false := by
        intro z hz hname
        cases hkept : isKept createdId bound z with
        | false => rfl
        | true =>
            have hz' := h.tracks.home_of_named hids hget hz hkept hname
            rw [hhome] at hz'
            cases hz'
      refine ⟨home, ⟨?_, hcreated, ?_⟩, hnamed⟩
      · rw [← h.tracks.kept]
        exact filter_rewriteFirst_of_not hrewrite fun z hz hname =>
          ⟨hnot z hz hname, hnot z hz hname⟩
      · apply h.tracks.homes.mono
        · exact fun id => takenOff_of_concat _ _
        · simp [takesOff]
        · exact fun id => updated_of_concat _ _
  | some x =>
      have hlt := (List.getElem?_eq_some_iff.mp hget).1
      have hoff : takenOff operations block.remoteId = false := by
        cases htaken : takenOff operations block.remoteId with
        | false => rfl
        | true =>
            rw [(h.tracks.homes.off s block hget).mpr htaken] at hhome
            cases hhome
      have hfits := h.tracks.homes.fits s block x hget hhome
      have hkept := filter_rewriteFirst (f := fun z => z.withText content)
        (h.named_kept hget hoff) (fun z _ hz => hz)
      rw [hrewrite, h.tracks.kept, Layout.rewriteFirst_items hlt hhome
        (by simp [PageBlock.isNamed, hfits.name]) (h.tracks.homes.atMostOne_named hids _)] at hkept
      refine ⟨Function.update home s (some (x.withText content)), ⟨?_, hcreated, ?_⟩, hnamed⟩
      · exact Option.some.inj hkept
      · apply h.tracks.homes.set hids hget
        · exact fun id => takenOff_of_concat _ _
        · intro id _
          simp [takesOff]
        · exact fun id _ => updated_of_concat _ _
        · simp [hoff, takesOff]
        · intro y hy
          injection hy with hy
          subst hy
          refine ⟨?_, ?_, hfits.given, hfits.name⟩
          · simp [updates]
          · exact fun _ => hfits.id hoff

theorem replace (hids : shadow.DistinctIds)
    (h : Pushed shadow createdId restoredId bound operations home page.blocks)
    (hk : operations.length < bound) (hget : shadow.blocks[s]? = some block)
    (hoff : takenOff operations block.remoteId = false) {content : Text}
    (happly : applyOperation createdId operations.length page
      (.replaceBlock block.remoteId content) = some page') :
    ∃ home', Pushed shadow createdId restoredId bound
      (operations ++ [.replaceBlock block.remoteId content]) home' page'.blocks := by
  obtain ⟨blocks', hrewrite, rfl⟩ := Option.map_eq_some_iff.mp happly
  have hlt := (List.getElem?_eq_some_iff.mp hget).1
  have hnew : isCreated createdId bound (createdId operations.length) = true :=
    isCreated_createdId hk
  obtain ⟨y, rest, hy, hperm, hperm'⟩ := perm_of_rewriteFirst hrewrite
  have hykept := h.named_kept hget hoff y (hperm.mem_iff.mpr List.mem_cons_self) hy
  have hhome := h.tracks.home_of_named hids hget (hperm.mem_iff.mpr List.mem_cons_self) hykept hy
  refine ⟨Function.update home s none, ⟨?_, ?_, ?_⟩, ?_⟩
  · have hkept := filter_rewriteFirst_out hrewrite (h.named_kept hget hoff)
      (fun z _ => by simp [isKept, PageBlock.replacedBy, hnew])
    rw [h.tracks.kept, Layout.removeFirst_items hlt hhome hy
      (h.tracks.homes.atMostOne_named hids _)] at hkept
    exact (Option.some.inj hkept).symm
  · have hold : isCreated createdId bound y.id = false := by simpa [isKept] using hykept
    have hbefore := filter_created_perm createdId bound hperm
    have hafter := filter_created_perm createdId bound hperm'
    rw [List.map_cons, List.filter_cons_of_neg (by simp [hold])] at hbefore
    rw [List.map_cons, List.filter_cons_of_pos (by simpa [PageBlock.replacedBy] using hnew)]
      at hafter
    refine hafter.trans (List.Perm.trans ?_ (createdBy_concat_perm createdId rfl).symm)
    exact (hbefore.symm.trans h.tracks.created).cons _
  · exact h.homes_off hids hget (fun _ => rfl) (fun _ => rfl)
  · apply h.named_of
    · intro id htaken
      simp [htaken]
    · intro z hz
      rcases List.mem_cons.mp (hperm'.mem_iff.mp hz) with rfl | hmem
      · exact Or.inr (Or.inr ⟨block.remoteId, of_decide_eq_true hy, by simp [takesOff]⟩)
      · exact Or.inl ⟨z, hperm.mem_iff.mpr (List.mem_cons_of_mem _ hmem), rfl, rfl⟩

theorem append (h : Pushed shadow createdId restoredId bound operations home page.blocks)
    (hk : operations.length < bound) {parentId : RemoteId} {after : Option RemoteId}
    {content : Text}
    (happly : applyOperation createdId operations.length page
      (.appendBlock parentId after content) = some page') :
    Pushed shadow createdId restoredId bound
      (operations ++ [.appendBlock parentId after content]) home page'.blocks := by
  obtain ⟨blocks', hinsert, rfl⟩ := Option.map_eq_some_iff.mp happly
  have hnew : isCreated createdId bound (createdId operations.length) = true :=
    isCreated_createdId hk
  have hperm := insertBehind_perm hinsert
  refine h.unchanged (fun _ => rfl) (fun _ => rfl) ?_ ?_ ?_
  · exact insertBehind_filter_of_created hinsert (by simp [isKept, hnew])
  · have hafter := filter_created_perm createdId bound hperm
    rw [List.map_cons, List.filter_cons_of_pos hnew] at hafter
    refine hafter.trans (List.Perm.trans ?_ (createdBy_concat_perm createdId rfl).symm)
    exact h.tracks.created.cons _
  · intro z hz
    rcases List.mem_cons.mp (hperm.mem_iff.mp hz) with rfl | hmem
    · exact Or.inr rfl
    · exact Or.inl hmem

theorem archive (hids : shadow.DistinctIds)
    (h : Pushed shadow createdId restoredId bound operations home page.blocks)
    (hget : shadow.blocks[s]? = some block)
    (hoff : takenOff operations block.remoteId = false) {k : Nat}
    (happly : applyOperation createdId k page (.archiveBlock block.remoteId) = some page') :
    ∃ home', Pushed shadow createdId restoredId bound
      (operations ++ [.archiveBlock block.remoteId]) home' page'.blocks := by
  obtain ⟨blocks', hremove, rfl⟩ := Option.map_eq_some_iff.mp happly
  have hlt := (List.getElem?_eq_some_iff.mp hget).1
  obtain ⟨y, hy, hperm⟩ := perm_of_removeFirst hremove
  have hykept := h.named_kept hget hoff y (hperm.mem_iff.mpr List.mem_cons_self) hy
  have hhome := h.tracks.home_of_named hids hget (hperm.mem_iff.mpr List.mem_cons_self) hykept hy
  refine ⟨Function.update home s none, ⟨?_, ?_, ?_⟩, ?_⟩
  · have hkept := filter_removeFirst (h.named_kept hget hoff)
    rw [hremove, h.tracks.kept, Layout.removeFirst_items hlt hhome hy
      (h.tracks.homes.atMostOne_named hids _)] at hkept
    exact Option.some.inj hkept
  · have hold : isCreated createdId bound y.id = false := by simpa [isKept] using hykept
    have hbefore := filter_created_perm createdId bound hperm
    rw [List.map_cons, List.filter_cons_of_neg (by simp [hold])] at hbefore
    rw [createdBy_concat_of_not createdId rfl]
    exact hbefore.symm.trans h.tracks.created
  · exact h.homes_off hids hget (fun _ => rfl) (fun _ => rfl)
  · apply h.named_of
    · intro id htaken
      simp [htaken]
    · intro z hz
      exact Or.inl ⟨z, hperm.mem_iff.mpr (List.mem_cons_of_mem _ hz), rfl, rfl⟩

/-- The copy is created, and the block itself is archived by its id. -/
theorem move (hids : shadow.DistinctIds) (hfresh : FreshIds shadow createdId)
    (hrestored : FreshIds shadow restoredId)
    (h : Pushed shadow createdId restoredId bound operations home page.blocks)
    (hk : operations.length < bound) (hget : shadow.blocks[s]? = some block)
    (hoff : takenOff operations block.remoteId = false) {after : Option RemoteId}
    (happly : applyOperation createdId operations.length page
      (.moveBlock block.remoteId after) = some page') :
    ∃ home', Pushed shadow createdId restoredId bound
      (operations ++ [.moveBlock block.remoteId after]) home' page'.blocks := by
  obtain ⟨y, hfind, happly⟩ := Option.bind_eq_some_iff.mp happly
  obtain ⟨inserted, hinsert, happly⟩ := Option.bind_eq_some_iff.mp happly
  obtain ⟨blocks', hremove, rfl⟩ := Option.map_eq_some_iff.mp happly
  have hlt := (List.getElem?_eq_some_iff.mp hget).1
  have hnew : isCreated createdId bound (createdId operations.length) = true :=
    isCreated_createdId hk
  have hy := List.find?_some hfind
  have hymem := List.mem_of_find?_eq_some hfind
  have hykept := h.named_kept hget hoff y hymem hy
  have hhome := h.tracks.home_of_named hids hget hymem hykept hy
  have hyid := (h.tracks.homes.fits s block y hget hhome).id hoff
  rw [hyid] at hremove
  have hinserted := insertBehind_perm hinsert
  obtain ⟨w, hw, hremoved⟩ := perm_of_removeFirst hremove
  refine ⟨Function.update home s none, ⟨?_, ?_, ?_⟩, ?_⟩
  · have hkept := @filter_removeFirst PageBlock (PageBlock.hasId block.remoteId)
      (isKept createdId bound) inserted (fun z _ hz => isKept_of_hasId bound hfresh hget hz)
    rw [hremove, insertBehind_filter_of_created hinsert (by simp [isKept, hnew]),
      h.tracks.kept, Layout.removeFirst_items hlt hhome (by simp [PageBlock.hasId, hyid])
        (h.tracks.homes.atMostOne_hasId hids hrestored hget)] at hkept
    exact Option.some.inj hkept
  · have hold : isCreated createdId bound w.id = false := by
      simpa [isKept] using isKept_of_hasId bound hfresh hget hw
    have hafter := filter_created_perm createdId bound hremoved
    have hbefore := filter_created_perm createdId bound hinserted
    rw [List.map_cons, List.filter_cons_of_neg (by simp [hold])] at hafter
    rw [List.map_cons, List.filter_cons_of_pos hnew] at hbefore
    refine hafter.symm.trans (hbefore.trans
      (List.Perm.trans ?_ (createdBy_concat_perm createdId rfl).symm))
    exact h.tracks.created.cons _
  · exact h.homes_off hids hget (fun _ => rfl) (fun _ => rfl)
  · apply h.named_of
    · intro id htaken
      simp [htaken]
    · intro z hz
      have hz' := hremoved.mem_iff.mpr (List.mem_cons_of_mem _ hz)
      rcases List.mem_cons.mp (hinserted.mem_iff.mp hz') with rfl | hmem
      · exact Or.inr (Or.inr ⟨block.remoteId, of_decide_eq_true hy, by simp [takesOff]⟩)
      · exact Or.inl ⟨z, hmem, rfl, rfl⟩

end Pushed

/-- A planned operation that takes off no block a second time moves the position by
one. -/
theorem applyOperation_tracks (hids : shadow.DistinctIds) (hfresh : FreshIds shadow createdId)
    (hrestored : FreshIds shadow restoredId) {page page' : PageState}
    (h : Pushed shadow createdId restoredId bound operations home page.blocks)
    (hk : operations.length < bound) {operation : PushOperation}
    (hplanned : PlannedOn shadow operation)
    (honce : ∀ (s : Nat) (block : ShadowBlock), shadow.blocks[s]? = some block →
      takesOff block.remoteId operation = true → takenOff operations block.remoteId = false)
    (happly : applyOperation createdId operations.length page operation = some page') :
    ∃ home', Pushed shadow createdId restoredId bound (operations ++ [operation]) home'
      page'.blocks := by
  cases hplanned with
  | properties entityId properties =>
      injection happly with happly
      subst happly
      refine ⟨home, h.unchanged (fun _ => rfl) (fun _ => rfl) rfl ?_ fun z hz => Or.inl hz⟩
      rw [createdBy_concat_of_not createdId rfl]
      exact h.tracks.created
  | append parentId after content => exact ⟨home, h.append hk happly⟩
  | update hget content => exact h.update hids hget happly
  | replace hget content =>
      exact h.replace hids hk hget (honce _ _ hget (decide_eq_true rfl)) happly
  | move hget after =>
      exact h.move hids hfresh hrestored hk hget (honce _ _ hget (decide_eq_true rfl)) happly
  | archive hget => exact h.archive hids hget (honce _ _ hget (decide_eq_true rfl)) happly

/-- No block is taken off twice. -/
def OffOnce (shadow : ShadowDocument) (operations : List PushOperation) : Prop :=
  ∀ (s : Nat) (block : ShadowBlock), shadow.blocks[s]? = some block →
    operations.countP (takesOff block.remoteId) ≤ 1

theorem OffOnce.before {first second : List PushOperation} {operation : PushOperation}
    (h : OffOnce shadow (first ++ operation :: second)) (hget : shadow.blocks[s]? = some block)
    (hoff : takesOff block.remoteId operation = true) :
    takenOff first block.remoteId = false := by
  have hcount := h s block hget
  rw [List.countP_append, List.countP_cons_of_pos hoff] at hcount
  have hzero : first.countP (takesOff block.remoteId) = 0 := by omega
  rw [takenOff, List.any_eq_false]
  exact List.countP_eq_zero.mp hzero

/-- The planned operations, from a position on. -/
theorem applyFrom_tracks (hids : shadow.DistinctIds) (hfresh : FreshIds shadow createdId)
    (hrestored : FreshIds shadow restoredId) :
    ∀ (rest : List PushOperation) {operations : List PushOperation}
      {home : Nat → Option PageBlock} {page page' : PageState},
      Pushed shadow createdId restoredId bound operations home page.blocks →
      (operations ++ rest).length ≤ bound → (∀ operation ∈ rest, PlannedOn shadow operation) →
      OffOnce shadow (operations ++ rest) →
      applyFrom createdId operations.length page rest = some page' →
      ∃ home', Pushed shadow createdId restoredId bound (operations ++ rest) home' page'.blocks
  | [], operations, home, page, page', h, _, _, _, happly => by
      injection happly with happly
      rw [List.append_nil]
      exact ⟨home, happly ▸ h⟩
  | operation :: rest, operations, home, page, page', h, hbound, hplanned, honce, happly => by
      obtain ⟨next, hnext, happly⟩ := Option.bind_eq_some_iff.mp happly
      have hk : operations.length < bound := by
        rw [List.length_append, List.length_cons] at hbound
        omega
      obtain ⟨home', h'⟩ := applyOperation_tracks hids hfresh hrestored h hk
        (hplanned operation List.mem_cons_self) (fun s block hget hoff => honce.before hget hoff)
        hnext
      have hsplit : operations ++ operation :: rest = operations ++ [operation] ++ rest := by simp
      rw [hsplit] at hbound honce ⊢
      apply applyFrom_tracks hids hfresh hrestored rest h' hbound
        (fun other hmem => hplanned other (List.mem_cons_of_mem _ hmem)) honce
      rw [List.length_append]
      exact happly

/-- Before the push every block is at home. -/
theorem synced_pushed (hfresh : FreshIds shadow createdId) :
    Pushed shadow createdId restoredId bound []
      (fun s => (shadow.blocks.map PageState.syncedBlock)[s]?) (PageState.synced shadow).blocks := by
  have hnot : ∀ z ∈ (PageState.synced shadow).blocks, isCreated createdId bound z.id = false := by
    intro z hz
    obtain ⟨block, hmem, rfl⟩ := List.mem_map.mp hz
    obtain ⟨s, hget⟩ := List.mem_iff_getElem?.mp hmem
    exact isCreated_synced hfresh hget
  refine ⟨⟨?_, ?_, ?_, ?_⟩, ?_⟩
  · have hitems := Layout.items_atHome (shadow.blocks.map PageState.syncedBlock)
    rw [List.length_map] at hitems
    rw [List.filter_eq_self.mpr (fun z hz => by simp [isKept, hnot z hz])]
    exact hitems.symm
  · have hnone : ((PageState.synced shadow).blocks.map PageBlock.id).filter
        (isCreated createdId bound) = [] := by
      rw [List.filter_eq_nil_iff]
      intro id hid
      obtain ⟨z, hz, rfl⟩ := List.mem_map.mp hid
      simp [hnot z hz]
    rw [hnone]
    exact List.Perm.refl _
  · intro s block hget
    simp [hget, takenOff]
  · intro s block x hget hx
    simp only [List.getElem?_map, hget, Option.map_some, Option.some.injEq] at hx
    subst hx
    exact ⟨fun _ => rfl, fun _ => rfl, Or.inl rfl, rfl⟩
  · intro z hz hcreated
    rw [hnot z hz] at hcreated
    cases hcreated

end Tracks

end Locality.Notion
