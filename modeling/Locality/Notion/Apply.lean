/-
  Notion/Apply.lean --- the block operations of a plan on the blocks of a page:
  `apply_plan` of `locality-notion/src/apply.rs`.

  The page is the list of its blocks.  The service gives every block that it creates a
  new id; `createdId` is that choice, by the index of the operation.  A block that is
  replaced or moved is created anew, so beside its id every block keeps the id that the
  plan knows it by.  `append_chains` remembers for an anchor the last block put behind
  it; a replaced or moved block is such an entry for its own id.
-/
import Locality.Core.Planner
import Locality.Core.Shadow
import Locality.Foundation.Placement

set_option autoImplicit false

namespace Locality.Notion

open Locality.Core
open Locality.Foundation

/-! ## Pages -/

structure PageBlock where
  id : RemoteId
  /-- The synced block that this block stands for. -/
  name : Option RemoteId
  text : Text
  deriving DecidableEq, Repr

namespace PageBlock

def hasId (blockId : RemoteId) (block : PageBlock) : Bool := decide (block.id = blockId)

def isNamed (blockId : RemoteId) (block : PageBlock) : Bool :=
  decide (block.name = some blockId)

def withText (self : PageBlock) (text : Text) : PageBlock := { self with text := text }

/-- The block that takes another's place. -/
def replacedBy (self : PageBlock) (id : RemoteId) (text : Text) : PageBlock :=
  { self with id := id, text := text }

end PageBlock

/-- The blocks of a page, and the anchors with the last block put behind them, the
latest first. -/
structure PageState where
  blocks : List PageBlock
  appendChains : List (Option RemoteId × RemoteId)
  deriving DecidableEq, Repr

namespace PageState

/-- A synced block as it stands on the page. -/
def syncedBlock (block : ShadowBlock) : PageBlock := ⟨block.remoteId, some block.remoteId, block.text⟩

def synced (shadow : ShadowDocument) : PageState := ⟨shadow.blocks.map syncedBlock, []⟩

/-- `append_chains.get(anchor).or(anchor)`. -/
def effectiveAfter (self : PageState) (after : Option RemoteId) : Option RemoteId :=
  ((self.appendChains.find? fun p => decide (p.1 = after)).map Prod.snd).or after

def chain (self : PageState) (after : Option RemoteId) (blockId : RemoteId) : PageState :=
  { self with appendChains := (after, blockId) :: self.appendChains }

def withBlocks (self : PageState) (blocks : List PageBlock) : PageState :=
  { self with blocks := blocks }

end PageState

/-- Put a block directly behind another, or at the start; nothing stands behind a block
that is not on the page. -/
def insertBehind (after : Option RemoteId) (block : PageBlock) (blocks : List PageBlock) :
    Option (List PageBlock) :=
  match after with
  | none => some (block :: blocks)
  | some blockId => insertAfter (PageBlock.hasId blockId) block blocks

/-! ## Operations -/

section Apply

variable (createdId : Nat → RemoteId)

/-- One operation of a plan, by its index.  It fails when it names a block that is not on
the page.  Operations on properties and entities leave the blocks alone. -/
def applyOperation (operationIndex : Nat) (st : PageState) :
    PushOperation → Option PageState
  | .updateBlock blockId content =>
      (rewriteFirst (PageBlock.isNamed blockId) (fun block => block.withText content)
        st.blocks).map st.withBlocks
  | .replaceBlock blockId content =>
      (rewriteFirst (PageBlock.isNamed blockId)
        (fun block => block.replacedBy (createdId operationIndex) content) st.blocks).map
          fun blocks => (st.withBlocks blocks).chain (some blockId) (createdId operationIndex)
  | .appendBlock _ after content =>
      (insertBehind (st.effectiveAfter after) ⟨createdId operationIndex, none, content⟩
        st.blocks).map
          fun blocks => (st.withBlocks blocks).chain after (createdId operationIndex)
  | .moveBlock blockId after =>
      (st.blocks.find? (PageBlock.isNamed blockId)).bind fun block =>
        (insertBehind (st.effectiveAfter after)
          { block with id := createdId operationIndex } st.blocks).bind fun blocks =>
            -- the copy stands; the block itself is archived
            (removeFirst (PageBlock.hasId block.id) blocks).map fun blocks =>
              ((st.withBlocks blocks).chain after (createdId operationIndex)).chain
                (some blockId) (createdId operationIndex)
  | .archiveBlock blockId =>
      (removeFirst (PageBlock.isNamed blockId) st.blocks).map st.withBlocks
  | _ => some st

/-- The operations from an index on, in order. -/
def applyFrom : Nat → PageState → List PushOperation → Option PageState
  | _, st, [] => some st
  | operationIndex, st, operation :: operations =>
      (applyOperation createdId operationIndex st operation).bind fun st =>
        applyFrom (operationIndex + 1) st operations

/-- The page after a plan, from the page that the shadow was synced from. -/
def pageAfter (shadow : ShadowDocument) (operations : List PushOperation) :
    Option (List PageBlock) :=
  (applyFrom createdId 0 (PageState.synced shadow) operations).map PageState.blocks

theorem applyFrom_append (operationIndex : Nat) (st : PageState)
    (first second : List PushOperation) :
    applyFrom createdId operationIndex st (first ++ second) =
      (applyFrom createdId operationIndex st first).bind fun st =>
        applyFrom createdId (operationIndex + first.length) st second := by
  induction first generalizing operationIndex st with
  | nil => rfl
  | cons operation first ih =>
      rw [List.cons_append, applyFrom, applyFrom]
      cases applyOperation createdId operationIndex st operation with
      | none => rfl
      | some st =>
          simp only [Option.bind_some, ih, List.length_cons]
          rw [show operationIndex + 1 + first.length = operationIndex + (first.length + 1) by
            omega]

end Apply

/-- The service never gives an id twice, nor one that a synced block has. -/
structure FreshIds (shadow : ShadowDocument) (createdId : Nat → RemoteId) : Prop where
  injective : ∀ i j, createdId i = createdId j → i = j
  notSynced : ∀ i, ∀ block ∈ shadow.blocks, createdId i ≠ block.remoteId

end Locality.Notion
