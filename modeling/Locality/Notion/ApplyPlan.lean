/-
  Notion/ApplyPlan.lean --- `apply_plan` of `locality-notion/src/apply.rs` on the blocks of
  its pages, with the batches that its appends are sent in.

  The blocks of all pages are one list: the children of a block, or of a page, are those
  of the list that name it as their parent, in their order.  The rows of a table are part
  of the table.  What is read off a block and off the content of an operation is a
  parameter, and so are the calls that are not about blocks.
-/
import Locality.Core.Journal
import Locality.Foundation.Placement
import Locality.Protocol.Portable
import Mathlib.Data.List.Dedup
import Mathlib.Data.List.Sort

set_option autoImplicit false

namespace Locality.Notion

open Locality.Core Locality.Foundation

/-! ## Bundles -/

/-- A block as it was fetched, with its children. -/
inductive BlockTree (β : Type) where
  | node (id : RemoteId) (block : β) (children : List (BlockTree β))

structure PageBundle (β : Type) where
  pageId : RemoteId
  blocks : List (BlockTree β)

/-- A block that was fetched, with its parent and its page. -/
structure BlockEntry (β : Type) where
  id : RemoteId
  block : β
  directParent : RemoteId
  containingPage : RemoteId

variable {β : Type}

mutual

/-- The blocks of a tree, each before its children. -/
def BlockTree.entries (pageId directParentId : RemoteId) : BlockTree β → List (BlockEntry β)
  | .node id block children =>
      ⟨id, block, directParentId, pageId⟩ :: blockEntries pageId id children

def blockEntries (pageId directParentId : RemoteId) : List (BlockTree β) → List (BlockEntry β)
  | [] => []
  | tree :: trees =>
      tree.entries pageId directParentId ++ blockEntries pageId directParentId trees

end

def bundleEntries (bundles : List (PageBundle β)) : List (BlockEntry β) :=
  bundles.flatMap fun bundle => blockEntries bundle.pageId bundle.pageId bundle.blocks

/-- What a map holds that the entries were inserted into, one after the other. -/
def lastEntry (entries : List (BlockEntry β)) (id : RemoteId) : Option (BlockEntry β) :=
  entries.reverse.find? fun entry => entry.id = id

/-- `block_map`. -/
def blockMap (entries : List (BlockEntry β)) (id : RemoteId) : Option β :=
  (lastEntry entries id).map BlockEntry.block

/-! ## Parents -/

def directParent (entries : List (BlockEntry β)) (id : RemoteId) : Option RemoteId :=
  (lastEntry entries id).map BlockEntry.directParent

def containingPage (entries : List (BlockEntry β)) (id : RemoteId) : Option RemoteId :=
  (lastEntry entries id).map BlockEntry.containingPage

theorem mem_of_directParent {entries : List (BlockEntry β)} {id parentId : RemoteId}
    (h : directParent entries id = some parentId) : id ∈ entries.map BlockEntry.id := by
  obtain ⟨entry, hentry, -⟩ := Option.map_eq_some_iff.mp h
  have hmem := List.mem_of_find?_eq_some hentry
  have hid := List.find?_some hentry
  exact List.mem_map.mpr ⟨entry, List.mem_reverse.mp hmem, of_decide_eq_true hid⟩

/-- The climb of `normalize_after` from an anchor, past those that were seen. -/
def climb (entries : List (BlockEntry β)) (parentId original : RemoteId)
    (seen : List RemoteId) (anchor : RemoteId) : RemoteId :=
  if _ : anchor ∈ seen then original
  else
    match _ : directParent entries anchor with
    | none => original
    | some directParentId =>
        if directParentId = parentId then anchor
        else climb entries parentId original (anchor :: seen) directParentId
termination_by ((entries.map BlockEntry.id).filter fun id => decide (id ∉ seen)).length
decreasing_by
  rename_i hseen hparent _
  -- the anchor is an entry that was not seen before
  have hfilter : ((entries.map BlockEntry.id).filter fun id => decide (id ∉ anchor :: seen)) =
      ((entries.map BlockEntry.id).filter fun id => decide (id ∉ seen)).filter fun id =>
        decide (id ≠ anchor) := by
    rw [List.filter_filter]
    refine List.filter_congr fun id _ => ?_
    simp only [List.mem_cons, not_or, ne_eq, Bool.decide_and]
  rw [hfilter, List.length_filter_lt_length_iff_exists]
  refine ⟨anchor, List.mem_filter.mpr ⟨mem_of_directParent hparent, decide_eq_true hseen⟩, ?_⟩
  simp only [ne_eq, not_true_eq_false, decide_false, Bool.false_eq_true, not_false_eq_true]

/-- `normalize_after`: the anchor, or what contains it among the children of the parent. -/
def normalizeAfter (entries : List (BlockEntry β)) (parentId : RemoteId)
    (after : Option RemoteId) : Option RemoteId :=
  after.map fun original => climb entries parentId original [] original

def sameContainingPage (entries : List (BlockEntry β)) (parentId blockId : RemoteId) : Bool :=
  match containingPage entries blockId with
  | none => false
  | some blockPageId =>
      decide (blockPageId = (containingPage entries parentId).getD parentId)

/-- The parent that a block is put back under. -/
def containingParent (entries : List (BlockEntry β)) (blockId : RemoteId) : Option RemoteId :=
  (directParent entries blockId).or (containingPage entries blockId)

/-! ## The service -/

/-- A block of the service, under its parent. -/
structure PlacedBlock (β : Type) where
  id : RemoteId
  parentId : RemoteId
  block : β

namespace PlacedBlock

def hasId (blockId : RemoteId) (placed : PlacedBlock β) : Bool := decide (placed.id = blockId)

def isChild (parentId blockId : RemoteId) (placed : PlacedBlock β) : Bool :=
  decide (placed.id = blockId) && decide (placed.parentId = parentId)

end PlacedBlock

def placedBlocks (entries : List (BlockEntry β)) : List (PlacedBlock β) :=
  entries.map fun entry => ⟨entry.id, entry.directParent, entry.block⟩

/-- `append_block_children`: new children behind a child of their parent, or at its start. -/
def appendBlockChildren (parentId : RemoteId) (after : Option RemoteId)
    (children blocks : List (PlacedBlock β)) : Option (List (PlacedBlock β)) :=
  match after with
  | none => some (children ++ blocks)
  | some blockId => insertAllAfter (PlacedBlock.isChild parentId blockId) children blocks

def deleteBlock (blockId : RemoteId) (blocks : List (PlacedBlock β)) :
    Option (List (PlacedBlock β)) :=
  removeFirst (PlacedBlock.hasId blockId) blocks

def updateBlock (blockId : RemoteId) (block : β) (blocks : List (PlacedBlock β)) :
    Option (List (PlacedBlock β)) :=
  rewriteFirst (PlacedBlock.hasId blockId) (fun placed => { placed with block := block }) blocks

/-! ## What a plan is applied with -/

/-- What is read off blocks and contents; nothing where that fails. -/
structure BlockFormats (β : Type) where
  /-- `parse_local_media_markdown` finds media in a content. -/
  isLocalMedia : Text → Bool
  /-- `parse_append_block`, which uploads media, by the index of the operation. -/
  parseAppendBlock : Nat → Text → Option β
  /-- `parse_supported_block` of a content that takes the place of a block. -/
  parseReplacement : Text → Option β
  /-- The block after an update of the fetched one. -/
  updated : β → Text → Option β
  /-- The block after an upload of its media. -/
  uploaded : β → FilePath → Text → Option β
  existingBlockAppendChild : β → Option β
  renderedReadOnlyBlockMarkdown : β → Option (Option Text)
  renderedBodiesEquivalent : Text → Text → Bool

/-- The page and its blocks when the plan is applied, and the service. -/
structure ApplyContext (β : Type) where
  formats : BlockFormats β
  entries : List (BlockEntry β)
  operationIds : Nat → PushOperationId
  /-- `archived_block_ids` of the plan, in order. -/
  archivedBlockIds : List RemoteId
  /-- The id that the service gives to the block of an operation. -/
  createdId : Nat → RemoteId
  /-- The entity that the calls of another operation are about, where they succeed. -/
  entityCall : Nat → PushOperation → Option RemoteId

/-- `append_chains` with the latest insertion first. -/
abbrev AppendChains : Type := List ((RemoteId × Option RemoteId) × RemoteId)

def AppendChains.get (self : AppendChains) (key : RemoteId × Option RemoteId) :
    Option RemoteId :=
  (self.find? fun entry => entry.1 = key).map Prod.snd

structure ApplyState (β : Type) where
  blocks : List (PlacedBlock β)
  appendChains : AppendChains
  preservedAppendArchiveMoves : List RemoteId
  effects : List JournalApplyEffect

/-- A plan that fails leaves a state, too. -/
abbrev ApplyResult (β : Type) : Type := Except (ApplyState β) (ApplyState β)

def archivedBlockIds (operations : List PushOperation) : List RemoteId :=
  ((operations.filterMap fun operation =>
    match operation with
    | .archiveBlock blockId => some blockId
    | _ => none).dedup).insertionSort fun id id' =>
      Protocol.byteOrder id.value ≤ Protocol.byteOrder id'.value

namespace ApplyContext

variable (self : ApplyContext β)

/-! ## Appends -/

/-- `preserved_archived_block_append_child`: an archived block that the content renders,
and that no append stands for yet. -/
def preservedArchivedBlockAppendChild (parentId : RemoteId) (content : Text)
    (used : List RemoteId) : List RemoteId → Option (Option (RemoteId × β))
  | [] => some none
  | blockId :: blockIds =>
      if blockId ∈ used then
        preservedArchivedBlockAppendChild parentId content used blockIds
      else
        match blockMap self.entries blockId with
        | none => preservedArchivedBlockAppendChild parentId content used blockIds
        | some block =>
            if !sameContainingPage self.entries parentId blockId then
              preservedArchivedBlockAppendChild parentId content used blockIds
            else
              match self.formats.renderedReadOnlyBlockMarkdown block with
              | none => none
              | some none =>
                  preservedArchivedBlockAppendChild parentId content used blockIds
              | some (some rendered) =>
                  if self.formats.renderedBodiesEquivalent rendered content then
                    (self.formats.existingBlockAppendChild block).map fun child =>
                      some (blockId, child)
                  else preservedArchivedBlockAppendChild parentId content used blockIds

def preserved (parentId : RemoteId) (content : Text) (used : List RemoteId) :
    Option (Option (RemoteId × β)) :=
  self.preservedArchivedBlockAppendChild parentId content used self.archivedBlockIds

/-- A child of a request, with the block that it preserves. -/
structure PreparedChild (β : Type) where
  operationIndex : Nat
  preservedSourceId : Option RemoteId
  child : β

/-- The children of a request, and the blocks that appends stand for after it. -/
def prepareChildren (parentId : RemoteId) :
    List RemoteId → List (Nat × Text) → Option (List (PreparedChild β) × List RemoteId)
  | used, [] => some ([], used)
  | used, (operationIndex, content) :: children => do
      match ← self.preserved parentId content used with
      | some (sourceId, child) =>
          let (rest, used) ← prepareChildren parentId (sourceId :: used) children
          return (⟨operationIndex, some sourceId, child⟩ :: rest, used)
      | none =>
          let child ← self.formats.parseAppendBlock operationIndex content
          let (rest, used) ← prepareChildren parentId used children
          return (⟨operationIndex, none, child⟩ :: rest, used)

def placedChild (parentId : RemoteId) (child : PreparedChild β) : PlacedBlock β :=
  ⟨self.createdId child.operationIndex, parentId, child.child⟩

def createdEffect (parentId : RemoteId) (operationIndex : Nat) : JournalApplyEffect :=
  .createdBlock (self.operationIds operationIndex) operationIndex parentId
    (self.createdId operationIndex)

/-- The chains after a request: each preserved block leads to its copy, and the anchor to
the last child. -/
def chainChildren (parentId : RemoteId) (after : Option RemoteId)
    (children : List (PreparedChild β)) (chains : AppendChains) : AppendChains :=
  let chains := children.foldl (fun chains child =>
    match child.preservedSourceId with
    | some sourceId => ((parentId, some sourceId), self.createdId child.operationIndex) :: chains
    | none => chains) chains
  match children.getLast? with
  | some last => ((parentId, after), self.createdId last.operationIndex) :: chains
  | none => chains

/-- The step `AppendChildren`: one request for all children. -/
def appendChildren (parentId : RemoteId) (after : Option RemoteId)
    (children : List (Nat × Text)) (st : ApplyState β) : ApplyResult β :=
  let effectiveAfter := (st.appendChains.get (parentId, after)).or after
  match self.prepareChildren parentId st.preservedAppendArchiveMoves children with
  | none => .error st
  | some (prepared, used) =>
      match appendBlockChildren parentId effectiveAfter
          (prepared.map (self.placedChild parentId)) st.blocks with
      | none => .error st
      | some blocks => .ok {
          blocks := blocks
          appendChains := self.chainChildren parentId after prepared st.appendChains
          preservedAppendArchiveMoves := used
          effects := st.effects ++ prepared.map fun child =>
            self.createdEffect parentId child.operationIndex }

/-! ## Other operations -/

/-- A new block takes the place of another: it is put on the page and remembered under
some anchors, and the other one is deleted. -/
def putAndDelete (operationIndex : Nat) (parentId blockId : RemoteId) (after : Option RemoteId)
    (chainKeys : List (RemoteId × Option RemoteId)) (child : β) (st : ApplyState β) :
    ApplyResult β :=
  match appendBlockChildren parentId after [⟨self.createdId operationIndex, parentId, child⟩]
      st.blocks with
  | none => .error st
  | some blocks =>
      let st := { st with
        blocks := blocks
        appendChains := chainKeys.map (fun key => (key, self.createdId operationIndex)) ++
          st.appendChains
        effects := st.effects ++ [self.createdEffect parentId operationIndex] }
      match deleteBlock blockId st.blocks with
      | none => .error st
      | some blocks => .ok { st with
          blocks := blocks
          effects := st.effects ++
            [.archivedBlock (self.operationIds operationIndex) operationIndex blockId] }

/-- An effect of calls that leave the blocks, where the calls succeed. -/
def recordEntity (operationIndex : Nat) (operation : PushOperation)
    (effect : RemoteId → JournalApplyEffect) (st : ApplyState β) : ApplyResult β :=
  match self.entityCall operationIndex operation with
  | none => .error st
  | some entityId => .ok { st with effects := st.effects ++ [effect entityId] }

/-- The step `Operation`. -/
def applyBlockOperation (operationIndex : Nat) (operation : PushOperation)
    (st : ApplyState β) : ApplyResult β :=
  let operationId := self.operationIds operationIndex
  match operation with
  | .updateBlock blockId content =>
      match (blockMap self.entries blockId).bind fun current =>
          (self.formats.updated current content).bind fun block =>
            updateBlock blockId block st.blocks with
      | none => .error st
      | some blocks => .ok { st with
          blocks := blocks
          effects := st.effects ++ [.updatedBlock operationId operationIndex blockId] }
  | .replaceBlock blockId content =>
      match (blockMap self.entries blockId).bind fun _ =>
          (containingParent self.entries blockId).bind fun parentId =>
            (self.formats.parseReplacement content).map fun child => (parentId, child) with
      | none => .error st
      | some (parentId, child) =>
          self.putAndDelete operationIndex parentId blockId (some blockId)
            [(parentId, some blockId)] child st
  | .updateMedia blockId localPath caption =>
      match (blockMap self.entries blockId).bind fun current =>
          (self.formats.uploaded current localPath caption).bind fun block =>
            updateBlock blockId block st.blocks with
      | none => .error st
      | some blocks => .ok { st with
          blocks := blocks
          effects := st.effects ++ [.updatedBlock operationId operationIndex blockId] }
  | .appendBlock _ _ _ => .error st
  | .moveBlock blockId after =>
      match (blockMap self.entries blockId).bind fun current =>
          (containingParent self.entries blockId).bind fun parentId =>
            (self.formats.existingBlockAppendChild current).map fun child => (parentId, child) with
      | none => .error st
      | some (parentId, child) =>
          let after := normalizeAfter self.entries parentId after
          let effectiveAfter := (st.appendChains.get (parentId, after)).or after
          self.putAndDelete operationIndex parentId blockId effectiveAfter
            [(parentId, some blockId), (parentId, after)] child st
  | .archiveBlock blockId =>
      match deleteBlock blockId st.blocks with
      | none => .error st
      | some blocks => .ok { st with
          blocks := blocks
          effects := st.effects ++ [.archivedBlock operationId operationIndex blockId] }
  | .updateProperties entityId properties =>
      self.recordEntity operationIndex operation (fun _ =>
        .updatedProperties operationId operationIndex entityId (properties.map Prod.fst)) st
  | .moveEntity entityId newParentId _ _ _ =>
      self.recordEntity operationIndex operation (fun _ =>
        .movedEntity operationId operationIndex entityId newParentId) st
  | .createEntity parentId _ _ _ _ _ _ =>
      self.recordEntity operationIndex operation (fun createdEntityId =>
        .createdEntity operationId operationIndex parentId createdEntityId) st
  | .createDatabase parentId _ _ _ =>
      self.recordEntity operationIndex operation (fun createdEntityId =>
        .createdEntity operationId operationIndex parentId createdEntityId) st
  | .archiveEntity entityId =>
      self.recordEntity operationIndex operation (fun _ =>
        .archivedEntity operationId operationIndex entityId) st
  | .updateEntityBody _ _ => .error st

/-! ## Batches -/

def notionAppendChildrenBatchLimit : Nat := 100

/-- A content that is sent alone: media, or one that an archived block renders. -/
def batchIncompatible (parentId : RemoteId) (content : Text) (used : List RemoteId) :
    Option Bool :=
  if self.formats.isLocalMedia content then some true
  else (self.preserved parentId content used).map Option.isSome

/-- `collect_append_children_step`: the appends from an index on that go into one request,
behind those that are collected already. -/
def collectAppendChildrenStep (parentId : RemoteId) (normalizedAfter : Option RemoteId)
    (used : List RemoteId) : Nat → Nat → List PushOperation → Option (List (Nat × Text))
  | _, _, [] => some []
  | collected, operationIndex, operation :: operations =>
      if notionAppendChildrenBatchLimit ≤ collected then some []
      else
        match operation with
        | .appendBlock candidateParentId candidateAfter content =>
            if candidateParentId ≠ parentId then some []
            else if normalizeAfter self.entries parentId candidateAfter ≠ normalizedAfter then
              some []
            else do
              let incompatible ← self.batchIncompatible parentId content used
              if incompatible && decide (collected ≠ 0) then return []
              else if incompatible then return [(operationIndex, content)]
              else
                let rest ← collectAppendChildrenStep parentId normalizedAfter used
                  (collected + 1) (operationIndex + 1) operations
                return (operationIndex, content) :: rest
        | _ => some []

/-- The loop of `apply_plan` from an index on. -/
def applySteps (operationIndex : Nat) (operations : List PushOperation) (st : ApplyState β) :
    ApplyResult β :=
  match operations with
  | [] => .ok st
  | .appendBlock parentId after content :: rest =>
      let after' := normalizeAfter self.entries parentId after
      match self.collectAppendChildrenStep parentId after' st.preservedAppendArchiveMoves 0
          operationIndex (.appendBlock parentId after content :: rest) with
      | none | some [] => .error st
      | some (child :: children) =>
          (self.appendChildren parentId after' (child :: children) st).bind fun st =>
            applySteps (operationIndex + (children.length + 1)) (rest.drop children.length) st
  | operation :: rest =>
      (self.applyBlockOperation operationIndex operation st).bind fun st =>
        applySteps (operationIndex + 1) rest st
termination_by operations.length
decreasing_by
  · rw [List.length_drop, List.length_cons]
    omega
  · exact Nat.lt_succ_self _

/-! ## One request for each append -/

/-- The block is put alone, behind the last one that was put at its anchor. -/
def appendAlone (operationIndex : Nat) (parentId : RemoteId) (after : Option RemoteId)
    (content : Text) (st : ApplyState β) : ApplyResult β :=
  let anchor := normalizeAfter self.entries parentId after
  let place (child : β) (sources : List RemoteId) : ApplyResult β :=
    let placed : PlacedBlock β := ⟨self.createdId operationIndex, parentId, child⟩
    match match (st.appendChains.get (parentId, anchor)).or anchor with
      | none => some (placed :: st.blocks)
      | some blockId => insertAfter (PlacedBlock.isChild parentId blockId) placed st.blocks with
    | none => .error st
    | some blocks => .ok {
        blocks := blocks
        appendChains := ((parentId, anchor), self.createdId operationIndex) ::
          (sources.map fun sourceId =>
            ((parentId, some sourceId), self.createdId operationIndex)) ++ st.appendChains
        preservedAppendArchiveMoves := sources ++ st.preservedAppendArchiveMoves
        effects := st.effects ++ [self.createdEffect parentId operationIndex] }
  match self.preserved parentId content st.preservedAppendArchiveMoves with
  | none => .error st
  | some (some (sourceId, child)) => place child [sourceId]
  | some none =>
      match self.formats.parseAppendBlock operationIndex content with
      | none => .error st
      | some child => place child []

/-- The operations from an index on, with a request for each of them. -/
def applyOneByOne : Nat → List PushOperation → ApplyState β → ApplyResult β
  | _, [], st => .ok st
  | operationIndex, .appendBlock parentId after content :: operations, st =>
      (self.appendAlone operationIndex parentId after content st).bind fun st =>
        applyOneByOne (operationIndex + 1) operations st
  | operationIndex, operation :: operations, st =>
      (self.applyBlockOperation operationIndex operation st).bind fun st =>
        applyOneByOne (operationIndex + 1) operations st

end ApplyContext

/-! ## Plans -/

section Plan

variable (formats : BlockFormats β) (createdId : Nat → RemoteId)
  (entityCall : Nat → PushOperation → Option RemoteId)

/-- What a plan is applied with on the pages that were fetched. -/
def contextOf (operationIds : Nat → PushOperationId) (bundles : List (PageBundle β))
    (operations : List PushOperation) : ApplyContext β where
  formats := formats
  entries := bundleEntries bundles
  operationIds := operationIds
  archivedBlockIds := archivedBlockIds operations
  createdId := createdId
  entityCall := entityCall

def fetchedState (bundles : List (PageBundle β)) : ApplyState β where
  blocks := placedBlocks (bundleEntries bundles)
  appendChains := []
  preservedAppendArchiveMoves := []
  effects := []

/-- `apply_plan`, on the pages that it fetches. -/
def applyPlan (operationIds : Nat → PushOperationId) (bundles : List (PageBundle β))
    (operations : List PushOperation) : ApplyResult β :=
  (contextOf formats createdId entityCall operationIds bundles operations).applySteps 0
    operations (fetchedState bundles)

/-- The plan with every append as its own request. -/
def applyPlanOneByOne (operationIds : Nat → PushOperationId) (bundles : List (PageBundle β))
    (operations : List PushOperation) : ApplyResult β :=
  (contextOf formats createdId entityCall operationIds bundles operations).applyOneByOne 0
    operations (fetchedState bundles)

end Plan

end Locality.Notion
