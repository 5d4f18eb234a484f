/-
  Core/Journal.lean --- journal entries, apply effects and statuses:
  `locality-core/src/journal.rs`.

  The store that makes an entry durable is a host of the push, so it is no part of
  this file.
-/
import Locality.Core.Planner
import Locality.Core.Shadow

set_option autoImplicit false

namespace Locality.Core

/-! ## Entries -/

structure PushId where
  value : Text
  deriving DecidableEq, Repr

inductive JournalAuthorKind where
  | anonymous
  deriving DecidableEq, Repr

structure JournalAuthor where
  kind : JournalAuthorKind
  displayName : Text
  deriving DecidableEq, Repr

structure JournalLocalProjectionItem where
  operationIndex : Nat
  localId : Text
  deriving DecidableEq, Repr

structure JournalMetadata where
  author : JournalAuthor
  previousPushId : Option PushId
  createdAtUnixMs : Option Nat
  localProjectionItems : List JournalLocalProjectionItem
  deriving DecidableEq, Repr

namespace JournalMetadata

/-- `JournalMetadata::default`. -/
def initial : JournalMetadata where
  author := ⟨.anonymous, "anonymous".toList⟩
  previousPushId := none
  createdAtUnixMs := none
  localProjectionItems := []

end JournalMetadata

inductive ReadableDiffFileStatus where
  | modified
  | added
  | deleted
  deriving DecidableEq, Repr

structure ReadableDiffFileOutput where
  path : Text
  oldLabel : Text
  newLabel : Text
  status : ReadableDiffFileStatus
  patch : Text
  deriving DecidableEq, Repr

structure ReadableDiffOutput where
  files : List ReadableDiffFileOutput
  text : Text
  deriving DecidableEq, Repr

structure JournalPreimage where
  entityId : RemoteId
  shadow : ShadowDocument
  deriving DecidableEq, Repr

namespace JournalPreimage

def fromShadow (shadow : ShadowDocument) : JournalPreimage := ⟨shadow.entityId, shadow⟩

end JournalPreimage

/-! ## Operation ids -/

structure PushOperationId where
  value : Text
  deriving DecidableEq, Repr

/-- The block, entity or parent that an operation is about. -/
def PushOperation.target : PushOperation → RemoteId
  | .updateBlock blockId _ | .replaceBlock blockId _ | .moveBlock blockId _
  | .updateMedia blockId _ _ | .archiveBlock blockId => blockId
  | .appendBlock parentId _ _ | .createEntity parentId _ _ _ _ _ _
  | .createDatabase parentId _ _ _ => parentId
  | .archiveEntity entityId | .updateEntityBody entityId _ | .updateProperties entityId _
  | .moveEntity entityId _ _ _ _ => entityId

namespace PushOperationId

def forOperation (pushId : PushId) (operationIndex : Nat) (operation : PushOperation) :
    PushOperationId :=
  ⟨pushId.value ++ [':'] ++ (toString operationIndex).toList ++ [':'] ++
    operation.kind.asStr ++ [':'] ++ operation.target.value⟩

end PushOperationId

/-! ## Effects and statuses -/

inductive JournalApplyEffect where
  | updatedBlock (operationId : PushOperationId) (operationIndex : Nat) (blockId : RemoteId)
  | createdBlock (operationId : PushOperationId) (operationIndex : Nat)
      (parentId blockId : RemoteId)
  | movedBlock (operationId : PushOperationId) (operationIndex : Nat) (blockId : RemoteId)
  | archivedBlock (operationId : PushOperationId) (operationIndex : Nat) (blockId : RemoteId)
  | archivedEntity (operationId : PushOperationId) (operationIndex : Nat) (entityId : RemoteId)
  | updatedEntityBody (operationId : PushOperationId) (operationIndex : Nat)
      (entityId : RemoteId)
  | updatedProperties (operationId : PushOperationId) (operationIndex : Nat)
      (entityId : RemoteId) (keys : List Text)
  | movedEntity (operationId : PushOperationId) (operationIndex : Nat)
      (entityId parentId : RemoteId)
  | createdEntity (operationId : PushOperationId) (operationIndex : Nat)
      (parentId entityId : RemoteId)
  deriving DecidableEq, Repr

inductive JournalStatus where
  | prepared
  | applying
  | applied
  | reconciled
  | reverted
  | failed (message : Text)
  deriving DecidableEq, Repr

def JournalStatus.isUnsettled : JournalStatus → Bool
  | .prepared | .applying | .applied | .failed _ => true
  | .reconciled | .reverted => false

structure JournalEntry where
  pushId : PushId
  mountId : MountId
  remoteIds : List RemoteId
  plan : PushPlan
  preimages : List JournalPreimage
  applyEffects : List JournalApplyEffect
  status : JournalStatus
  metadata : JournalMetadata
  readableDiff : Option ReadableDiffOutput

namespace JournalEntry

/-- `JournalEntry::new`. -/
def ofPlan (pushId : PushId) (mountId : MountId) (remoteIds : List RemoteId) (plan : PushPlan)
    (status : JournalStatus) : JournalEntry where
  pushId := pushId
  mountId := mountId
  remoteIds := remoteIds
  plan := plan
  preimages := []
  applyEffects := []
  status := status
  metadata := JournalMetadata.initial
  readableDiff := none

def withPreimages (self : JournalEntry) (preimages : List JournalPreimage) : JournalEntry :=
  { self with preimages := preimages }

def withApplyEffects (self : JournalEntry) (applyEffects : List JournalApplyEffect) :
    JournalEntry :=
  { self with applyEffects := applyEffects }

def withMetadata (self : JournalEntry) (metadata : JournalMetadata) : JournalEntry :=
  { self with metadata := metadata }

def withReadableDiff (self : JournalEntry) (readableDiff : Option ReadableDiffOutput) :
    JournalEntry :=
  { self with readableDiff := readableDiff }

end JournalEntry

end Locality.Core
