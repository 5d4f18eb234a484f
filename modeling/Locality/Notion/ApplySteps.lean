/-
  Notion/ApplySteps.lean --- the operations of the planned steps, run on the page.

  The chains make every step put its block directly behind what the step before it
  left: at the end of the group of the last block that stayed in place.  `Simulates`
  is that invariant, between a page and a layout whose homes are the positions of the
  shadow; one step keeps it (`applyFrom_step`), so a whole run does
  (`applyFrom_stepsFrom`).
-/
import Locality.Core.DiffWellFormed
import Locality.Notion.Apply

set_option autoImplicit false

namespace Locality.Notion

open Locality.Core
open Locality.Foundation

/-! ## What a step leaves on the page -/

section Placed

variable (createdId : Nat → RemoteId) (shadow : ShadowDocument)

/-- A block behind the operations that write it, the first of them at the index. -/
def rewritten (operationIndex : Nat) (shadowBlock : ShadowBlock) (editedBlock : SegmentedBlock)
    (block : PageBlock) : PageBlock :=
  if shouldReplaceBlock shadowBlock editedBlock then
    block.replacedBy (createdId operationIndex) editedBlock.text
  else if !renderedBodiesEquivalent shadowBlock.text editedBlock.text then
    block.withText editedBlock.text
  else block

def createdBlock (operationIndex : Nat) (step : PlanStep) : PageBlock :=
  ⟨createdId operationIndex, none, step.block.text⟩

/-- The block that a step leaves, its first operation being at the index. -/
def placedBlock (operationIndex : Nat) (step : PlanStep) : PageBlock :=
  match step.fate with
  | .fresh | .recreated _ => createdBlock createdId operationIndex step
  | .moved s =>
      match shadow.blocks[s]? with
      | some shadowBlock =>
          rewritten createdId (operationIndex + 1) shadowBlock step.block
            { PageState.syncedBlock shadowBlock with id := createdId operationIndex }
      | none => createdBlock createdId operationIndex step
  | .stayed s =>
      match shadow.blocks[s]? with
      | some shadowBlock =>
          rewritten createdId operationIndex shadowBlock step.block
            (PageState.syncedBlock shadowBlock)
      | none => createdBlock createdId operationIndex step

/-- The steps with what they leave, the first operation being at the index. -/
def placedFrom : Nat → List PlanStep → List (PlanStep × PageBlock)
  | _, [] => []
  | operationIndex, step :: steps =>
      (step, placedBlock createdId shadow operationIndex step) ::
        placedFrom (operationIndex + (step.operations shadow).length) steps

end Placed

/-- The home that a step stays at. -/
def stepStays (p : PlanStep × PageBlock) : Option Nat := p.1.fate.stayedIndex

/-- The home that a step takes its block from. -/
def stepLeaves (p : PlanStep × PageBlock) : Option Nat := p.1.fate.movedIndex

/-! ## Blocks with ids of their own -/

/-- No id and no name is on the page twice, and every id is a synced one or was given
before the index. -/
structure Catalogued (shadow : ShadowDocument) (createdId : Nat → RemoteId)
    (operationIndex : Nat) (blocks : List PageBlock) : Prop where
  ids : (blocks.map PageBlock.id).Nodup
  names : (blocks.filterMap PageBlock.name).Nodup
  known : ∀ block ∈ blocks, (∃ shadowBlock ∈ shadow.blocks, block.id = shadowBlock.remoteId) ∨
    ∃ j, j < operationIndex ∧ block.id = createdId j

namespace Catalogued

variable {shadow : ShadowDocument} {createdId : Nat → RemoteId} {k : Nat}
  {blocks rest : List PageBlock} {block other : PageBlock}

theorem perm (h : Catalogued shadow createdId k blocks) (hperm : blocks.Perm rest) :
    Catalogued shadow createdId k rest where
  ids := (hperm.map _).nodup_iff.mp h.ids
  names := (hperm.filterMap _).nodup_iff.mp h.names
  known := fun b hb => h.known b (hperm.mem_iff.mpr hb)

theorem mono (h : Catalogued shadow createdId k blocks) {k' : Nat} (hle : k ≤ k') :
    Catalogued shadow createdId k' blocks where
  ids := h.ids
  names := h.names
  known := by
    intro b hb
    rcases h.known b hb with hsynced | ⟨j, hj, hid⟩
    · exact Or.inl hsynced
    · exact Or.inr ⟨j, Nat.lt_of_lt_of_le hj hle, hid⟩

theorem tail (h : Catalogued shadow createdId k (block :: rest)) :
    Catalogued shadow createdId k rest where
  ids := (List.nodup_cons.mp h.ids).2
  names := h.names.sublist ((List.sublist_cons_self block rest).filterMap _)
  known := fun b hb => h.known b (List.mem_cons_of_mem _ hb)

/-- The next id is not on the page. -/
theorem created_not_mem (hfresh : FreshIds shadow createdId)
    (h : Catalogued shadow createdId k blocks) : createdId k ∉ blocks.map PageBlock.id := by
  intro hmem
  obtain ⟨b, hb, hid⟩ := List.mem_map.mp hmem
  rcases h.known b hb with ⟨shadowBlock, hshadow, hsynced⟩ | ⟨j, hj, hcreated⟩
  · exact hfresh.notSynced k shadowBlock hshadow (hid.symm.trans hsynced)
  · have heq := hfresh.injective k j (hid.symm.trans hcreated)
    omega

theorem cons_created (hfresh : FreshIds shadow createdId)
    (h : Catalogued shadow createdId k blocks) (text : Text) :
    Catalogued shadow createdId (k + 1) (⟨createdId k, none, text⟩ :: blocks) where
  ids := List.nodup_cons.mpr ⟨h.created_not_mem hfresh, h.ids⟩
  names := h.names
  known := by
    intro b hb
    rcases List.mem_cons.mp hb with rfl | hmem
    · exact Or.inr ⟨k, Nat.lt_succ_self k, rfl⟩
    · exact (h.mono (Nat.le_succ k)).known b hmem

/-- A block gives way to one with its name and the next id. -/
theorem replaced (hfresh : FreshIds shadow createdId)
    (h : Catalogued shadow createdId k (block :: rest)) (hname : other.name = block.name)
    (hid : other.id = createdId k) : Catalogued shadow createdId (k + 1) (other :: rest) where
  ids := by
    rw [List.map_cons, hid]
    exact List.nodup_cons.mpr ⟨h.tail.created_not_mem hfresh, h.tail.ids⟩
  names := by
    have hnames := h.names
    rw [List.filterMap_cons] at hnames ⊢
    rwa [hname]
  known := by
    intro b hb
    rcases List.mem_cons.mp hb with rfl | hmem
    · exact Or.inr ⟨k, Nat.lt_succ_self k, hid⟩
    · exact (h.tail.mono (Nat.le_succ k)).known b hmem

/-- A block gives way to one with its name and id. -/
theorem rewritten (h : Catalogued shadow createdId k (block :: rest))
    (hname : other.name = block.name) (hid : other.id = block.id) :
    Catalogued shadow createdId k (other :: rest) where
  ids := by
    have hids := h.ids
    rw [List.map_cons] at hids ⊢
    rwa [hid]
  names := by
    have hnames := h.names
    rw [List.filterMap_cons] at hnames ⊢
    rwa [hname]
  known := by
    intro b hb
    rcases List.mem_cons.mp hb with rfl | hmem
    · rw [hid]
      exact h.known block List.mem_cons_self
    · exact h.tail.known b hmem

theorem atMostOne_named (h : Catalogued shadow createdId k blocks) (name : RemoteId) :
    AtMostOne (PageBlock.isNamed name) blocks := by
  have hnames := h.names
  rw [List.nodup_iff_pairwise_ne, List.pairwise_filterMap] at hnames
  refine hnames.imp ?_
  rintro a b hne ⟨ha, hb⟩
  exact hne name (of_decide_eq_true ha) name (of_decide_eq_true hb) rfl

end Catalogued

theorem atMostOne_hasId {blocks : List PageBlock} (h : (blocks.map PageBlock.id).Nodup)
    (id : RemoteId) : AtMostOne (PageBlock.hasId id) blocks := by
  rw [List.nodup_iff_pairwise_ne, List.pairwise_map] at h
  refine h.imp ?_
  rintro a b hne ⟨ha, hb⟩
  exact hne ((of_decide_eq_true ha).trans (of_decide_eq_true hb).symm)

/-! ## The invariant -/

/-- The page is the layout; the blocks that no step kept so far stand at home and anchor
nothing; and what an anchor stands for is the last block at the cursor. -/
structure Simulates (shadow : ShadowDocument) (createdId : Nat → RemoteId)
    (operationIndex : Nat) (previous : Option Nat) (done : List Nat) (L : Layout PageBlock)
    (c : Option Nat) (page : PageState) : Prop where
  blocks : page.blocks = L.items shadow.blocks.length
  catalogued : Catalogued shadow createdId operationIndex page.blocks
  home : ∀ s (shadowBlock : ShadowBlock), shadow.blocks[s]? = some shadowBlock → s ∉ done →
    L.home s = some (PageState.syncedBlock shadowBlock) ∧ L.run s = []
  unchained : ∀ s (shadowBlock : ShadowBlock), shadow.blocks[s]? = some shadowBlock →
    s ∉ done → ∀ p ∈ page.appendChains, p.1 ≠ some shadowBlock.remoteId
  cursor : ∀ i, c = some i → i < shadow.blocks.length ∧ i ∈ done ∧ L.group i ≠ []
  previousDone : ∀ p, previous = some p → p ∈ done
  effective : page.effectiveAfter (previous.bind (blockIdAt shadow)) =
    (L.groupAt c).getLast?.map PageBlock.id

namespace PageState

theorem effectiveAfter_chain_self (page : PageState) (after : Option RemoteId) (id : RemoteId) :
    (page.chain after id).effectiveAfter after = some id := by
  simp [effectiveAfter, chain]

theorem effectiveAfter_of_unchained {page : PageState} {after : Option RemoteId}
    (h : ∀ p ∈ page.appendChains, p.1 ≠ after) : page.effectiveAfter after = after := by
  have hnone : page.appendChains.find? (fun p => decide (p.1 = after)) = none := by
    rw [List.find?_eq_none]
    intro p hp
    simpa using h p hp
  simp [effectiveAfter, hnone]

end PageState

section Simulation

variable {shadow : ShadowDocument} {createdId : Nat → RemoteId} {k : Nat}
  {previous : Option Nat} {done : List Nat} {L : Layout PageBlock} {c : Option Nat}
  {page : PageState}

namespace Simulates

theorem cursor_lt (h : Simulates shadow createdId k previous done L c page) :
    ∀ i, c = some i → i < shadow.blocks.length := fun i hi => (h.cursor i hi).1

/-- Behind the effective anchor is behind the last block at the cursor. -/
theorem insertBehind_eq (h : Simulates shadow createdId k previous done L c page)
    (block : PageBlock) :
    insertBehind (page.effectiveAfter (previous.bind (blockIdAt shadow))) block page.blocks =
      some ((L.push c block).items shadow.blocks.length) := by
  rw [h.effective, h.blocks]
  cases hlast : (L.groupAt c).getLast? with
  | none =>
      rw [List.getLast?_eq_none_iff] at hlast
      cases hc : c with
      | none =>
          rw [hc] at hlast
          exact congrArg some (Layout.cons_items hlast block)
      | some i =>
          rw [hc] at hlast
          exact absurd hlast (h.cursor i hc).2.2
  | some last =>
      have hone := atMostOne_hasId h.catalogued.ids last.id
      rw [h.blocks] at hone
      exact Layout.insertAfter_items h.cursor_lt hlast (by simp [PageBlock.hasId]) hone block

/-- An anchor that a step uses is none of the blocks still to come. -/
theorem anchor_ne (hids : shadow.DistinctIds)
    (h : Simulates shadow createdId k previous done L c page) {s : Nat}
    {shadowBlock : ShadowBlock} (hget : shadow.blocks[s]? = some shadowBlock) (hs : s ∉ done) :
    previous.bind (blockIdAt shadow) ≠ some shadowBlock.remoteId := by
  intro heq
  obtain ⟨p, hp, hid⟩ := Option.bind_eq_some_iff.mp heq
  have hsame := blockIdAt_inj hids hid (blockIdAt_eq hget)
  exact hs (hsame ▸ h.previousDone p hp)

/-- Nothing else than the pushed block changes for the blocks still to come. -/
theorem push (hids : shadow.DistinctIds)
    (h : Simulates shadow createdId k previous done L c page) {block : PageBlock} {k' : Nat}
    (hcatalogued : Catalogued shadow createdId k' (block :: page.blocks))
    (id : RemoteId) (hid : block.id = id) :
    Simulates shadow createdId k' previous done (L.push c block) c
      ((page.withBlocks ((L.push c block).items shadow.blocks.length)).chain
        (previous.bind (blockIdAt shadow)) id) where
  blocks := rfl
  catalogued := by
    apply hcatalogued.perm
    rw [h.blocks]
    exact (Layout.perm_push h.cursor_lt block).symm
  home := by
    intro s shadowBlock hget hs
    obtain ⟨hhome, hrun⟩ := h.home s shadowBlock hget hs
    cases hc : c with
    | none => exact ⟨hhome, hrun⟩
    | some i =>
        have hne : s ≠ i := by
          rintro rfl
          exact hs (h.cursor s hc).2.1
        exact ⟨hhome, by simp [Layout.push, Function.update_of_ne hne, hrun]⟩
  unchained := by
    intro s shadowBlock hget hs p hp
    rcases List.mem_cons.mp hp with rfl | hmem
    · exact h.anchor_ne hids hget hs
    · exact h.unchained s shadowBlock hget hs p hmem
  cursor := by
    intro i hi
    subst hi
    refine ⟨(h.cursor i rfl).1, (h.cursor i rfl).2.1, ?_⟩
    rw [Layout.group_push_self]
    simp
  previousDone := h.previousDone
  effective := by
    rw [PageState.effectiveAfter_chain_self, Layout.groupAt_push]
    simp [hid]

end Simulates

/-! ## Rewriting a kept block -/

theorem applyFrom_content (shadowBlock : ShadowBlock) (editedBlock : SegmentedBlock)
    {block : PageBlock} {put : PageBlock → List PageBlock} (hblocks : page.blocks = put block)
    (hrewrite : ∀ f : PageBlock → PageBlock,
      rewriteFirst (PageBlock.isNamed shadowBlock.remoteId) f (put block) =
        some (put (f block))) :
    applyFrom createdId k page (contentOperations shadowBlock editedBlock) =
      some (if shouldReplaceBlock shadowBlock editedBlock then
        (page.withBlocks (put (rewritten createdId k shadowBlock editedBlock block))).chain
          (some shadowBlock.remoteId) (createdId k)
      else page.withBlocks (put (rewritten createdId k shadowBlock editedBlock block))) := by
  cases hreplace : shouldReplaceBlock shadowBlock editedBlock with
  | true =>
      simp [contentOperations, rewritten, hreplace, applyFrom, applyOperation, hblocks, hrewrite]
  | false =>
      cases hequivalent : renderedBodiesEquivalent shadowBlock.text editedBlock.text with
      | true =>
          simp [contentOperations, rewritten, hreplace, hequivalent, applyFrom,
            PageState.withBlocks, ← hblocks]
      | false =>
          simp [contentOperations, rewritten, hreplace, hequivalent, applyFrom, applyOperation,
            hblocks, hrewrite]

theorem rewritten_name (shadowBlock : ShadowBlock) (editedBlock : SegmentedBlock)
    (block : PageBlock) :
    (rewritten createdId k shadowBlock editedBlock block).name = block.name := by
  unfold rewritten
  split
  · rfl
  · split <;> rfl

/-- The place of a kept block in a layout, as a function of the block that stands there. -/
structure Slot (n : Nat) (done : List Nat) (c : Option Nat) (lay : PageBlock → Layout PageBlock) :
    Prop where
  perm : ∃ rest, ∀ z, ((lay z).items n).Perm (z :: rest)
  last : ∃ before, ∀ z, (lay z).groupAt c = before ++ [z]
  elsewhere : ∀ z z' t, t ∉ done → (lay z).home t = (lay z').home t ∧ (lay z).run t = (lay z').run t
  rewrites : ∀ (p : PageBlock → Bool) (f : PageBlock → PageBlock) z, p z = true →
    AtMostOne p ((lay z).items n) →
    rewriteFirst p f ((lay z).items n) = some ((lay (f z)).items n)

theorem Layout.slot_push {n : Nat} {L : Layout PageBlock} (hc : ∀ i, c = some i → i < n)
    (hdone : ∀ i, c = some i → i ∈ done) : Slot n done c (fun z => L.push c z) where
  perm := ⟨L.items n, fun z => Layout.perm_push hc z⟩
  last := ⟨L.groupAt c, fun z => Layout.groupAt_push c z⟩
  elsewhere := by
    intro z z' t ht
    cases hcursor : c with
    | none => exact ⟨rfl, rfl⟩
    | some i =>
        have hne : t ≠ i := by
          rintro rfl
          exact ht (hdone t hcursor)
        exact ⟨rfl, by simp [Layout.push, Function.update_of_ne hne]⟩
  rewrites := fun p f z hp hone => Layout.rewriteFirst_push hc f hp hone

theorem Layout.slot_home {n s : Nat} {L : Layout PageBlock} {block : PageBlock} (hs : s < n)
    (hhome : L.home s = some block) (hrun : L.run s = []) (hdone : s ∈ done) :
    Slot n done (some s) (fun z => L.setHome s (some z)) where
  perm := ⟨(L.setHome s none).items n, fun z => Layout.perm_setHome_some hs hhome z⟩
  last := ⟨[], fun z => by
    rw [Layout.groupAt, Layout.group_setHome_self, hrun]
    rfl⟩
  elsewhere := by
    intro z z' t ht
    have hne : t ≠ s := by
      rintro rfl
      exact ht hdone
    simp [Layout.setHome, Function.update_of_ne hne]
  rewrites := by
    intro p f z hp hone
    have hset : (L.setHome s (some z)).home s = some z := by simp [Layout.setHome]
    rw [Layout.rewriteFirst_items hs hset hp hone f]
    simp [Layout.setHome]

/-- The operations that write the kept block at a slot keep the invariant. -/
theorem Simulates.rewritten (hids : shadow.DistinctIds) (hfresh : FreshIds shadow createdId)
    {lay : PageBlock → Layout PageBlock} {s : Nat} {shadowBlock : ShadowBlock}
    {block : PageBlock} (hget : shadow.blocks[s]? = some shadowBlock) (hs : s ∈ done)
    (hname : block.name = some shadowBlock.remoteId)
    (hslot : Slot shadow.blocks.length done c lay)
    (h : Simulates shadow createdId k (some s) done (lay block) c page)
    (editedBlock : SegmentedBlock) :
    ∃ page', applyFrom createdId k page (contentOperations shadowBlock editedBlock) =
        some page' ∧
      Simulates shadow createdId (k + (contentOperations shadowBlock editedBlock).length)
        (some s) done (lay (rewritten createdId k shadowBlock editedBlock block)) c page' := by
  have hnamed : PageBlock.isNamed shadowBlock.remoteId block = true := by
    simp [PageBlock.isNamed, hname]
  have hone := h.catalogued.atMostOne_named shadowBlock.remoteId
  rw [h.blocks] at hone
  obtain ⟨rest, hperm⟩ := hslot.perm
  obtain ⟨before, hlast⟩ := hslot.last
  have hcatalogued : Catalogued shadow createdId k (block :: rest) := by
    apply h.catalogued.perm
    rw [h.blocks]
    exact hperm block
  have hid : blockIdAt shadow s = some shadowBlock.remoteId := blockIdAt_eq hget
  have hhome : ∀ z t (other : ShadowBlock), shadow.blocks[t]? = some other → t ∉ done →
      (lay z).home t = some (PageState.syncedBlock other) ∧ (lay z).run t = [] := by
    intro z t other hother ht
    obtain ⟨hhomeEq, hrunEq⟩ := hslot.elsewhere z block t ht
    rw [hhomeEq, hrunEq]
    exact h.home t other hother ht
  have hcursor : ∀ z i, c = some i →
      i < shadow.blocks.length ∧ i ∈ done ∧ (lay z).group i ≠ [] := by
    intro z i hi
    refine ⟨(h.cursor i hi).1, (h.cursor i hi).2.1, ?_⟩
    have hgroup := hlast z
    rw [hi] at hgroup
    rw [show (lay z).group i = before ++ [z] from hgroup]
    simp
  have hlastId : ∀ z, ((lay z).groupAt c).getLast?.map PageBlock.id = some z.id := by
    intro z
    rw [hlast z]
    simp
  have heffective := h.effective
  rw [hlastId] at heffective
  have hcontent := @applyFrom_content createdId k page shadowBlock editedBlock block
    (fun z => (lay z).items shadow.blocks.length) h.blocks
    (fun f => hslot.rewrites _ f block hnamed hone)
  refine ⟨_, hcontent, ?_⟩
  cases hreplace : shouldReplaceBlock shadowBlock editedBlock with
  | true =>
      have hlength : (contentOperations shadowBlock editedBlock).length = 1 := by
        simp [contentOperations, hreplace]
      have hidNew : (Locality.Notion.rewritten createdId k shadowBlock editedBlock block).id =
          createdId k := by
        simp [Locality.Notion.rewritten, hreplace, PageBlock.replacedBy]
      rw [hlength, if_pos rfl]
      refine ⟨rfl, ?_, hhome _, ?_, hcursor _, h.previousDone, ?_⟩
      · exact (hcatalogued.replaced hfresh (rewritten_name _ _ _) hidNew).perm (hperm _).symm
      · intro t other hother ht p hp
        rcases List.mem_cons.mp hp with rfl | hmem
        · intro heq
          have hsame := blockIdAt_inj hids (hid.trans heq) (blockIdAt_eq hother)
          exact ht (hsame ▸ hs)
        · exact h.unchained t other hother ht p hmem
      · rw [hlastId, hidNew, Option.bind_some, hid, PageState.effectiveAfter_chain_self]
  | false =>
      have hidSame : (Locality.Notion.rewritten createdId k shadowBlock editedBlock block).id =
          block.id := by
        unfold Locality.Notion.rewritten
        rw [hreplace, if_neg Bool.false_ne_true]
        split <;> rfl
      rw [if_neg Bool.false_ne_true]
      refine ⟨rfl, ?_, hhome _, h.unchained, hcursor _, h.previousDone, ?_⟩
      · exact ((hcatalogued.rewritten (rewritten_name _ _ _) hidSame).perm (hperm _).symm).mono
          (Nat.le_add_right _ _)
      · rw [hlastId, hidSame]
        exact heffective

/-! ## One step -/

/-- A directive is moved: a copy goes behind the cursor and the block itself away. -/
theorem Simulates.moved (hids : shadow.DistinctIds) (hfresh : FreshIds shadow createdId)
    (h : Simulates shadow createdId k previous done L c page) {s : Nat}
    {shadowBlock : ShadowBlock} (hget : shadow.blocks[s]? = some shadowBlock) (hs : s ∉ done) :
    ∃ page', applyOperation createdId k page
        (.moveBlock shadowBlock.remoteId (previous.bind (blockIdAt shadow))) = some page' ∧
      Simulates shadow createdId (k + 1) (some s) (s :: done)
        ((L.setHome s none).push c
          { PageState.syncedBlock shadowBlock with id := createdId k }) c page' := by
  have hlt := (List.getElem?_eq_some_iff.mp hget).1
  obtain ⟨hhome, hrun⟩ := h.home s shadowBlock hget hs
  have hcursor : ∀ i, c = some i → i ≠ s := by
    rintro i hi rfl
    exact hs (h.cursor i hi).2.1
  have hnamed := h.catalogued.atMostOne_named shadowBlock.remoteId
  rw [h.blocks] at hnamed
  have hfind : page.blocks.find? (PageBlock.isNamed shadowBlock.remoteId) =
      some (PageState.syncedBlock shadowBlock) := by
    rw [h.blocks]
    exact Layout.find?_items hlt hhome (by simp [PageBlock.isNamed, PageState.syncedBlock]) hnamed
  have hinsert := h.insertBehind_eq
    { PageState.syncedBlock shadowBlock with id := createdId k }
  generalize hcopy : ({ PageState.syncedBlock shadowBlock with id := createdId k } : PageBlock) =
    copy at hinsert ⊢
  -- the copy has a new id, so the old one names the block itself
  have hpushIds : (((L.push c copy).items shadow.blocks.length).map PageBlock.id).Nodup := by
    rw [((Layout.perm_push h.cursor_lt copy).map _).nodup_iff, List.map_cons, ← h.blocks]
    refine List.nodup_cons.mpr ⟨?_, h.catalogued.ids⟩
    rw [← hcopy]
    exact h.catalogued.created_not_mem hfresh
  have hpushHome : (L.push c copy).home s = some (PageState.syncedBlock shadowBlock) := by
    rw [← hhome]
    cases c <;> rfl
  have hremove := Layout.removeFirst_items (p := PageBlock.hasId shadowBlock.remoteId) hlt
    hpushHome (by simp [PageBlock.hasId, PageState.syncedBlock]) (atMostOne_hasId hpushIds _)
  have hswap : (L.push c copy).setHome s none = (L.setHome s none).push c copy := by
    cases c <;> rfl
  rw [hswap] at hremove
  refine ⟨((page.withBlocks (((L.setHome s none).push c copy).items shadow.blocks.length)).chain
    (previous.bind (blockIdAt shadow)) (createdId k)).chain (some shadowBlock.remoteId)
      (createdId k), ?_, ?_⟩
  · simp only [applyOperation, hfind, Option.bind_some, hcopy, hinsert]
    rw [show (PageState.syncedBlock shadowBlock).id = shadowBlock.remoteId from rfl, hremove]
    rfl
  · have hcatalogued : Catalogued shadow createdId k
        (PageState.syncedBlock shadowBlock :: (L.setHome s none).items shadow.blocks.length) := by
      apply h.catalogued.perm
      rw [h.blocks]
      exact Layout.perm_setHome_none hlt hhome
    refine ⟨rfl, ?_, ?_, ?_, ?_, ?_, ?_⟩
    · have hcopied : Catalogued shadow createdId (k + 1)
          (copy :: (L.setHome s none).items shadow.blocks.length) :=
        hcatalogued.replaced hfresh (by rw [← hcopy]) (by rw [← hcopy])
      exact hcopied.perm (Layout.perm_push h.cursor_lt copy).symm
    · intro t other hother ht
      rw [List.mem_cons, not_or] at ht
      obtain ⟨hhomeT, hrunT⟩ := h.home t other hother ht.2
      have hhome' : (L.setHome s none).home t = L.home t := by
        simp [Layout.setHome, Function.update_of_ne ht.1]
      cases hc : c with
      | none => exact ⟨hhome'.trans hhomeT, hrunT⟩
      | some i =>
          have hne : t ≠ i := by
            rintro rfl
            exact ht.2 (h.cursor t hc).2.1
          refine ⟨hhome'.trans hhomeT, ?_⟩
          simp [Layout.push, Layout.setHome, Function.update_of_ne hne, hrunT]
    · intro t other hother ht p hp
      rw [List.mem_cons, not_or] at ht
      rcases List.mem_cons.mp hp with rfl | hmem
      · intro heq
        have hsame := blockIdAt_inj hids ((blockIdAt_eq hget).trans heq) (blockIdAt_eq hother)
        exact ht.1 hsame.symm
      · rcases List.mem_cons.mp hmem with rfl | hold
        · exact h.anchor_ne hids hother ht.2
        · exact h.unchained t other hother ht.2 p hold
    · intro i hi
      subst hi
      refine ⟨(h.cursor i rfl).1, List.mem_cons_of_mem _ (h.cursor i rfl).2.1, ?_⟩
      rw [Layout.group_push_self]
      simp
    · intro p hp
      injection hp with hp
      rw [← hp]
      exact List.mem_cons_self
    · rw [Option.bind_some, blockIdAt_eq hget, PageState.effectiveAfter_chain_self,
        Layout.groupAt_push, ← hcopy]
      simp

/-- A block is left in place: the cursor goes there. -/
theorem Simulates.stayed (h : Simulates shadow createdId k previous done L c page) {s : Nat}
    {shadowBlock : ShadowBlock} (hget : shadow.blocks[s]? = some shadowBlock) (hs : s ∉ done) :
    Simulates shadow createdId k (some s) (s :: done)
      (L.setHome s (some (PageState.syncedBlock shadowBlock))) (some s) page := by
  have hlt := (List.getElem?_eq_some_iff.mp hget).1
  obtain ⟨hhome, hrun⟩ := h.home s shadowBlock hget hs
  have hsame : L.setHome s (some (PageState.syncedBlock shadowBlock)) = L := by
    rw [← hhome]
    simp [Layout.setHome]
  rw [hsame]
  have hgroup : L.group s = [PageState.syncedBlock shadowBlock] := by
    rw [Layout.group, hhome, hrun]
    rfl
  refine ⟨h.blocks, h.catalogued, ?_, ?_, ?_, ?_, ?_⟩
  · intro t other hother ht
    exact h.home t other hother (fun hmem => ht (List.mem_cons_of_mem _ hmem))
  · intro t other hother ht
    exact h.unchained t other hother (fun hmem => ht (List.mem_cons_of_mem _ hmem))
  · intro i hi
    injection hi with hi
    subst hi
    refine ⟨hlt, List.mem_cons_self, ?_⟩
    rw [hgroup]
    simp
  · intro p hp
    injection hp with hp
    rw [← hp]
    exact List.mem_cons_self
  · rw [Option.bind_some, blockIdAt_eq hget,
      PageState.effectiveAfter_of_unchained (h.unchained s shadowBlock hget hs), Layout.groupAt,
      hgroup]
    rfl

/-- One step of the plan keeps the invariant. -/
theorem applyFrom_step (hids : shadow.DistinctIds) (hfresh : FreshIds shadow createdId)
    (h : Simulates shadow createdId k previous done L c page) (step : PlanStep)
    (hanchor : step.anchor = previous)
    (hmatched : ∀ s, step.fate.matched = some s → s < shadow.blocks.length ∧ s ∉ done) :
    ∃ page', applyFrom createdId k page (step.operations shadow) = some page' ∧
      Simulates shadow createdId (k + (step.operations shadow).length)
        (step.fate.kept.or previous) (step.fate.kept.toList ++ done)
        (place stepStays stepLeaves Prod.snd (L, c)
          (step, placedBlock createdId shadow k step)).1
        (place stepStays stepLeaves Prod.snd (L, c)
          (step, placedBlock createdId shadow k step)).2 page' := by
  obtain ⟨fate, anchor, block⟩ := step
  change anchor = previous at hanchor
  subst hanchor
  have happend := h.push hids
    (h.catalogued.cons_created hfresh block.text) (createdId k) rfl
  have hinsert := h.insertBehind_eq ⟨createdId k, none, block.text⟩
  cases fate with
  | fresh =>
      refine ⟨_, ?_, happend⟩
      simp only [PlanStep.operations, applyFrom, applyOperation, hinsert]
      rfl
  | recreated s =>
      refine ⟨_, ?_, happend⟩
      simp only [PlanStep.operations, applyFrom, applyOperation, hinsert]
      rfl
  | moved s =>
      obtain ⟨hlt, hs⟩ := hmatched s rfl
      have hget := List.getElem?_eq_getElem hlt
      obtain ⟨page₁, hmove, h₁⟩ := h.moved hids hfresh hget hs
      have hdone : ∀ i, c = some i → i ∈ s :: done := fun i hi => (h₁.cursor i hi).2.1
      obtain ⟨page₂, hcontent, h₂⟩ := Simulates.rewritten hids hfresh hget List.mem_cons_self rfl
        (Layout.slot_push h.cursor_lt hdone) h₁ block
      refine ⟨page₂, ?_, ?_⟩
      · simp only [PlanStep.operations, hget, applyFrom, hmove, Option.bind_some]
        exact hcontent
      · have hlength : (PlanStep.operations shadow ⟨.moved s, anchor, block⟩).length =
            1 + (contentOperations shadow.blocks[s] block).length := by
          simp [PlanStep.operations, hget, Nat.add_comm]
        rw [hlength, ← Nat.add_assoc]
        simpa [place, stepStays, stepLeaves, Fate.stayedIndex, Fate.movedIndex, placedBlock, hget,
          Fate.kept] using h₂
  | stayed s =>
      obtain ⟨hlt, hs⟩ := hmatched s rfl
      have hget := List.getElem?_eq_getElem hlt
      obtain ⟨hhome, hrun⟩ := h.home s _ hget hs
      obtain ⟨page₁, hcontent, h₁⟩ := Simulates.rewritten hids hfresh hget List.mem_cons_self rfl
        (Layout.slot_home hlt hhome hrun List.mem_cons_self) (h.stayed hget hs) block
      refine ⟨page₁, ?_, ?_⟩
      · simpa [PlanStep.operations, hget] using hcontent
      · simpa [place, stepStays, Fate.stayedIndex, placedBlock, hget, Fate.kept,
          PlanStep.operations] using h₁

/-! ## The run of the steps -/

theorem placedFrom_map_fst (createdId : Nat → RemoteId) (shadow : ShadowDocument) :
    ∀ (steps : List PlanStep) (k : Nat),
      (placedFrom createdId shadow k steps).map Prod.fst = steps
  | [], _ => rfl
  | step :: steps, k => by
      rw [placedFrom, List.map_cons, placedFrom_map_fst]

/-- A run of planned steps keeps the invariant. -/
theorem applyFrom_stepsFrom (hids : shadow.DistinctIds) (hfresh : FreshIds shadow createdId)
    (retained : List Nat) :
    ∀ (items : List (SegmentedBlock × Option Nat)) (st : PlanState) {k : Nat} {done : List Nat}
      {L : Layout PageBlock} {c : Option Nat} {page : PageState},
      Simulates shadow createdId k st.previous done L c page →
      (∀ item ∈ items, ∀ s, item.2 = some s → s < shadow.blocks.length) →
      (items.filterMap Prod.snd).Nodup → (∀ s ∈ items.filterMap Prod.snd, s ∉ done) →
      ∃ k' previous' done' page',
        applyFrom createdId k page
            ((stepsFrom shadow retained st items).flatMap (PlanStep.operations shadow)) =
          some page' ∧
        (∀ s, s ∈ done' ↔ s ∈ keptIndexes (stepsFrom shadow retained st items) ∨ s ∈ done) ∧
        Simulates shadow createdId k' previous' done'
          ((placedFrom createdId shadow k (stepsFrom shadow retained st items)).foldl
            (place stepStays stepLeaves Prod.snd) (L, c)).1
          ((placedFrom createdId shadow k (stepsFrom shadow retained st items)).foldl
            (place stepStays stepLeaves Prod.snd) (L, c)).2 page'
  | [], st, k, done, L, c, page, h, _, _, _ =>
      ⟨k, st.previous, done, page, rfl, by simp [stepsFrom, keptIndexes], h⟩
  | item :: items, st, k, done, L, c, page, h, hrange, hnodup, hdone => by
      have hitem := hrange item List.mem_cons_self
      have hmatchedEq := @fateOf_matched shadow retained st item hitem
      obtain ⟨page₁, hrun₁, h₁⟩ := applyFrom_step hids hfresh h
        ⟨fateOf shadow retained st item, st.previous, item.1⟩ rfl (by
          intro s hs
          have hsnd := hmatchedEq.symm.trans hs
          refine ⟨hitem s hsnd, hdone s ?_⟩
          rw [List.filterMap_cons_some hsnd]
          exact List.mem_cons_self)
      have hrest : ∀ s ∈ items.filterMap Prod.snd,
          s ∉ (fateOf shadow retained st item).kept.toList ++ done := by
        intro s hs hmem
        rcases List.mem_append.mp hmem with hkept | hold
        · have hsnd : item.2 = some s :=
            hmatchedEq.symm.trans (Fate.kept_eq_matched (Option.mem_toList.mp hkept))
          rw [List.filterMap_cons_some hsnd] at hnodup
          exact (List.nodup_cons.mp hnodup).1 hs
        · refine hdone s ?_ hold
          rw [List.filterMap_cons]
          split
          · exact hs
          · exact List.mem_cons_of_mem _ hs
      have htail : (items.filterMap Prod.snd).Nodup := by
        rw [List.filterMap_cons] at hnodup
        split at hnodup
        · exact hnodup
        · exact (List.nodup_cons.mp hnodup).2
      obtain ⟨k', previous', done', page', hrun', hdone', h'⟩ :=
        applyFrom_stepsFrom hids hfresh retained items (st.after (fateOf shadow retained st item)) h₁
          (fun next hnext => hrange next (List.mem_cons_of_mem _ hnext)) htail hrest
      refine ⟨k', previous', done', page', ?_, ?_, h'⟩
      · rw [stepsFrom, List.flatMap_cons, applyFrom_append, hrun₁]
        exact hrun'
      · intro s
        rw [hdone' s, stepsFrom, keptIndexes_cons, List.mem_append, List.mem_append]
        tauto

/-! ## The archives -/

/-- The archives empty the homes of the blocks that are not kept. -/
theorem applyFrom_archives {kept : List Nat} :
    ∀ (ps : List (ShadowBlock × Nat)) (k : Nat) (L : Layout PageBlock) (page : PageState),
      page.blocks = L.items shadow.blocks.length →
      (page.blocks.filterMap PageBlock.name).Nodup →
      (∀ p ∈ ps, shadow.blocks[p.2]? = some p.1) → (ps.map Prod.snd).Nodup →
      (∀ p ∈ ps, p.2 ∉ kept → L.home p.2 = some (PageState.syncedBlock p.1)) →
      ∃ (page' : PageState) (L' : Layout PageBlock), applyFrom createdId k page (ps.filterMap fun p =>
            if p.2 ∈ kept then none else some (.archiveBlock p.1.remoteId)) = some page' ∧
        page'.blocks = L'.items shadow.blocks.length ∧ L'.front = L.front ∧ L'.run = L.run ∧
        ∀ i, L'.home i = if i ∈ ps.map Prod.snd ∧ i ∉ kept then none else L.home i
  | [], k, L, page, hblocks, _, _, _, _ => ⟨page, L, rfl, hblocks, rfl, rfl, by simp⟩
  | (block, s) :: ps, k, L, page, hblocks, hnames, hget, hnodup, hhome => by
      rw [List.map_cons, List.nodup_cons] at hnodup
      have hgets : shadow.blocks[s]? = some block := hget _ List.mem_cons_self
      have hlt := (List.getElem?_eq_some_iff.mp hgets).1
      have hcons : ∀ {i : Nat}, i ≠ s → ((i ∈ ps.map Prod.snd ∧ i ∉ kept) ↔
          (i ∈ ((block, s) :: ps).map Prod.snd ∧ i ∉ kept)) := by
        intro i hne
        rw [List.map_cons, List.mem_cons]
        tauto
      by_cases hkept : s ∈ kept
      · obtain ⟨page', L', hrun, hitems, hfront, hruns, hhomes⟩ := applyFrom_archives ps k L
          page hblocks hnames (fun p hp => hget p (List.mem_cons_of_mem _ hp)) hnodup.2
          (fun p hp => hhome p (List.mem_cons_of_mem _ hp))
        refine ⟨page', L', ?_, hitems, hfront, hruns, ?_⟩
        · simpa [hkept] using hrun
        · intro i
          rw [hhomes i]
          by_cases his : i = s
          · subst his
            rw [if_neg (fun h => h.2 hkept), if_neg (fun h => h.2 hkept)]
          · exact if_congr (hcons his) rfl rfl
      · have hhomes := hhome _ List.mem_cons_self hkept
        have hone : AtMostOne (PageBlock.isNamed block.remoteId)
            (L.items shadow.blocks.length) := by
          rw [hblocks, List.nodup_iff_pairwise_ne, List.pairwise_filterMap] at hnames
          refine hnames.imp ?_
          rintro a b hne ⟨ha, hb⟩
          exact hne _ (of_decide_eq_true ha) _ (of_decide_eq_true hb) rfl
        have hremove := Layout.removeFirst_items hlt hhomes
          (by simp [PageBlock.isNamed, PageState.syncedBlock]) hone
        have hnames' : (((L.setHome s none).items shadow.blocks.length).filterMap
            PageBlock.name).Nodup := by
          have hperm := Layout.perm_setHome_none hlt hhomes
          rw [hblocks, (hperm.filterMap _).nodup_iff, List.filterMap_cons] at hnames
          exact (List.nodup_cons.mp hnames).2
        have hother : ∀ p ∈ ps, p.2 ≠ s := by
          intro p hp heq
          exact hnodup.1 (List.mem_map.mpr ⟨p, hp, heq⟩)
        obtain ⟨page', L', hrun, hitems, hfront, hruns, hhomes'⟩ := applyFrom_archives ps
          (k + 1) (L.setHome s none)
          (page.withBlocks ((L.setHome s none).items shadow.blocks.length)) rfl hnames' (fun p hp => hget p (List.mem_cons_of_mem _ hp)) hnodup.2 (by
            intro p hp hnot
            rw [← hhome p (List.mem_cons_of_mem _ hp) hnot]
            simp [Layout.setHome, Function.update_of_ne (hother p hp)])
        refine ⟨page', L', ?_, hitems, hfront, hruns, ?_⟩
        · have hfirst : applyOperation createdId k page (.archiveBlock block.remoteId) =
              some (page.withBlocks ((L.setHome s none).items shadow.blocks.length)) := by
            simp only [applyOperation, hblocks, hremove, Option.map_some]
          rw [List.filterMap_cons]
          simp only [hkept, if_false, applyFrom, hfirst, Option.bind_some]
          exact hrun
        · intro i
          rw [hhomes' i]
          by_cases his : i = s
          · subst his
            rw [if_neg (fun h => hnodup.1 h.1), if_pos ⟨List.mem_cons_self, hkept⟩]
            simp [Layout.setHome]
          · rw [if_congr (hcons his) rfl rfl]
            simp [Layout.setHome, Function.update_of_ne his]

/-! ## The whole plan -/

theorem initial_simulates (hids : shadow.DistinctIds) (k : Nat) :
    Simulates shadow createdId k none [] (Layout.atHome (shadow.blocks.map PageState.syncedBlock))
      none (PageState.synced shadow) where
  blocks := by
    have hitems := Layout.items_atHome (shadow.blocks.map PageState.syncedBlock)
    rw [List.length_map] at hitems
    exact hitems.symm
  catalogued := by
    refine ⟨?_, ?_, ?_⟩
    · rw [PageState.synced, List.map_map]
      exact hids
    · have hnames : (shadow.blocks.map PageState.syncedBlock).filterMap PageBlock.name =
          shadow.blocks.map ShadowBlock.remoteId := by
        rw [List.filterMap_map, ← List.filterMap_eq_map]
        rfl
      rw [PageState.synced, hnames]
      exact hids
    · intro block hblock
      obtain ⟨shadowBlock, hmem, rfl⟩ := List.mem_map.mp hblock
      exact Or.inl ⟨shadowBlock, hmem, rfl⟩
  home := by
    intro s shadowBlock hget _
    simp [Layout.atHome, hget]
  unchained := by
    intro s shadowBlock _ _ p hp
    cases hp
  cursor := by
    intro i hi
    cases hi
  previousDone := by
    intro p hp
    cases hp
  effective := rfl

/-- Operations on properties leave the page as it is. -/
theorem applyFrom_properties {yaml : YamlSerde} {edited : CanonicalDocument}
    {properties : List PushOperation}
    (h : propertyDiffOperations yaml shadow edited = .ok properties) :
    applyFrom createdId 0 page properties = some page := by
  rcases propertyDiffOperations_cases yaml h with rfl | ⟨updates, rfl⟩ <;> rfl

section Plan

variable {editedBlocks : List SegmentedBlock}

theorem filterMap_stepStays (createdId : Nat → RemoteId) (shadow : ShadowDocument) (k : Nat)
    (steps : List PlanStep) :
    (placedFrom createdId shadow k steps).filterMap stepStays =
      steps.filterMap fun step => step.fate.stayedIndex := by
  conv_rhs => rw [← placedFrom_map_fst createdId shadow steps k]
  rw [List.filterMap_map]
  rfl

theorem stayed_nodup :
    ((plannedSteps shadow editedBlocks).filterMap fun step => step.fate.stayedIndex).Nodup := by
  have hpairwise := (alignBlocks_valid shadow editedBlocks).planSteps_pairwise
  rw [List.nodup_iff_pairwise_ne, List.pairwise_filterMap]
  refine hpairwise.imp ?_
  rintro step step' h s hs s' hs' rfl
  have hmatched : ∀ {fate : Fate}, fate.stayedIndex = some s → fate.matched = some s := by
    intro fate hfate
    cases fate <;> simp_all [Fate.stayedIndex, Fate.matched]
  exact h s (hmatched hs) (hmatched hs')

theorem Fate.kept_cases {fate : Fate} {s : Nat} (h : fate.kept = some s) :
    fate = .moved s ∨ fate = .stayed s := by
  cases fate <;> simp_all [Fate.kept]

/-- The page after the planned operations: the steps cut in front of every block that
stayed in place, and the pieces in the order of the shadow. -/
theorem applyFrom_stepOperations (hids : shadow.DistinctIds) (hfresh : FreshIds shadow createdId)
    {properties : List PushOperation}
    (hproperties : applyFrom createdId 0 (PageState.synced shadow) properties =
      some (PageState.synced shadow)) :
    pageAfter createdId shadow
        (stepOperations shadow properties (plannedSteps shadow editedBlocks)) =
      some ((arrange stepStays shadow.blocks.length
        (placedFrom createdId shadow properties.length
          (plannedSteps shadow editedBlocks))).map Prod.snd) := by
  have hvalid := alignBlocks_valid shadow editedBlocks
  have hitems : (editedBlocks.zip (alignBlocks shadow editedBlocks).1.pairing).filterMap
      Prod.snd = retainedShadow (alignBlocks shadow editedBlocks).1.pairing := by
    have hsnd : (editedBlocks.zip (alignBlocks shadow editedBlocks).1.pairing).map Prod.snd =
        (alignBlocks shadow editedBlocks).1.pairing :=
      List.map_snd_zip (Nat.le_of_eq hvalid.length)
    conv_rhs => rw [← hsnd]
    rw [retainedShadow, List.filterMap_map]
    rfl
  obtain ⟨k', previous', done', page', hrun, hdone, hsim⟩ :=
    applyFrom_stepsFrom hids hfresh
      (retainedShadow (alignBlocks shadow editedBlocks).1.pairing) (editedBlocks.zip (alignBlocks shadow editedBlocks).1.pairing)
      PlanState.initial (initial_simulates hids properties.length) hvalid.items_inRange
      (by rw [hitems]; exact hvalid.retained_nodup) (by simp)
  change applyFrom createdId _ _ ((plannedSteps shadow editedBlocks).flatMap _) = _ at hrun
  change ∀ s, s ∈ done' ↔ s ∈ keptIndexes (plannedSteps shadow editedBlocks) ∨ s ∈ [] at hdone
  change Simulates shadow createdId k' previous' done'
    (List.foldl (place stepStays stepLeaves Prod.snd) (_, none) (placedFrom createdId shadow
      properties.length (plannedSteps shadow editedBlocks))).1 _ page' at hsim
  have hfst := placedFrom_map_fst createdId shadow (plannedSteps shadow editedBlocks)
    properties.length
  have hstays := filterMap_stepStays createdId shadow properties.length
    (plannedSteps shadow editedBlocks)
  generalize hps : placedFrom createdId shadow properties.length
    (plannedSteps shadow editedBlocks) = ps at hsim hfst hstays ⊢
  have hstep : ∀ p ∈ ps, p.1 ∈ plannedSteps shadow editedBlocks := by
    intro p hp
    rw [← hfst]
    exact List.mem_map_of_mem hp
  have hnodup : (ps.filterMap stepStays).Nodup := by
    rw [hstays]
    exact stayed_nodup
  obtain ⟨page'', L, harchive, hblocks, hfront, hruns, hhome⟩ :=
    @applyFrom_archives shadow createdId
      (keptIndexes (plannedSteps shadow editedBlocks)) shadow.blocks.zipIdx
      (properties.length + ((plannedSteps shadow editedBlocks).flatMap
        (PlanStep.operations shadow)).length) _ page' hsim.blocks hsim.catalogued.names
      (by
        rintro ⟨block, s⟩ hmem
        simpa using List.mem_zipIdx_iff_getElem?.mp hmem)
      (by rw [List.zipIdx_map_snd]; exact List.nodup_range' ..)
      (by
        rintro ⟨block, s⟩ hmem hnot
        have hget : shadow.blocks[s]? = some block := by
          simpa using List.mem_zipIdx_iff_getElem?.mp hmem
        exact (hsim.home s block hget (by simpa [hdone] using hnot)).1)
  have hpage : pageAfter createdId shadow
      (stepOperations shadow properties (plannedSteps shadow editedBlocks)) =
        some page''.blocks := by
    rw [pageAfter, stepOperations, applyFrom_append, hproperties, Option.bind_some,
      applyFrom_append, Nat.zero_add, hrun, Option.bind_some, archivesOf, harchive]
    rfl
  rw [hpage, hblocks]
  apply congrArg some
  apply Layout.items_eq_arrange
  · rw [hfront, foldl_place_front]
    rfl
  · intro i hi
    have hrunI : L.run i = ((ledBy stepStays i ps).tail).map Prod.snd := by
      rw [hruns, foldl_place_run i ps _ hnodup]
      rfl
    by_cases hstayed : i ∈ ps.filterMap stepStays
    · obtain ⟨p, hp, hpi⟩ := List.mem_filterMap.mp hstayed
      have hfate : p.1.fate = .stayed i := by
        cases hf : p.1.fate <;> simp_all [stepStays, Fate.stayedIndex]
      have hkept : i ∈ keptIndexes (plannedSteps shadow editedBlocks) :=
        List.mem_filterMap.mpr ⟨p.1, hstep p hp, by rw [hfate]; rfl⟩
      have hleaves : ∀ q ∈ ps, stepLeaves q ≠ some i := by
        intro q hq hqi
        have hqfate : q.1.fate = .moved i := by
          cases hf : q.1.fate <;> simp_all [stepLeaves, Fate.movedIndex]
        have heq := (alignBlocks_valid shadow editedBlocks).step_eq (hstep p hp) (hstep q hq)
          (s := i) (by rw [hfate]; rfl) (by rw [hqfate]; rfl)
        rw [heq, hqfate] at hfate
        cases hfate
      rw [Layout.group, hhome, if_neg (fun h => h.2 hkept), hrunI,
        foldl_place_home _ hnodup hstayed hleaves]
      cases ledBy stepStays i ps <;> simp
    · have hnot : ∀ p ∈ ps, stepStays p ≠ some i := by
        intro p hp hpi
        exact hstayed (List.mem_filterMap.mpr ⟨p, hp, hpi⟩)
      have hempty : L.home i = none := by
        rw [hhome]
        by_cases hkept : i ∈ keptIndexes (plannedSteps shadow editedBlocks)
        · rw [if_neg (fun h => h.2 hkept)]
          apply foldl_place_home_of_leaves _ hnot
          right
          obtain ⟨step, hmem, hstepKept⟩ := List.mem_filterMap.mp hkept
          rw [← hfst] at hmem
          obtain ⟨p, hp, rfl⟩ := List.mem_map.mp hmem
          rcases Fate.kept_cases hstepKept with hf | hf
          · exact List.mem_filterMap.mpr ⟨p, List.mem_filter.mpr ⟨hp, by
              simp [stepStays, hf, Fate.stayedIndex]⟩, by simp [stepLeaves, hf, Fate.movedIndex]⟩
          · exact absurd (by simp [stepStays, hf, Fate.stayedIndex]) (hnot p hp)
        · have hmem : i ∈ shadow.blocks.zipIdx.map Prod.snd := by
            rw [List.zipIdx_map_snd, List.mem_range'_1]
            omega
          exact if_pos ⟨hmem, hkept⟩
      rw [Layout.group, hempty, hrunI, ledBy_eq_nil hnot]
      rfl

end Plan

end Simulation

end Locality.Notion
