/-
  Core/Planner.lean --- push operations, plans and their summaries:
  `locality-core/src/planner.rs`.
-/
import Locality.Core.Model

set_option autoImplicit false

namespace Locality.Core

/-! ## Operations -/

inductive PropertyValue where
  | null
  | bool (value : Bool)
  | number (value : Text)
  | string (value : Text)
  | list (values : List Text)
  | array (values : List PropertyValue)
  | object (entries : List (Text × PropertyValue))

inductive PushOperation where
  | updateBlock (blockId : RemoteId) (content : Text)
  | replaceBlock (blockId : RemoteId) (content : Text)
  | appendBlock (parentId : RemoteId) (after : Option RemoteId) (content : Text)
  | moveBlock (blockId : RemoteId) (after : Option RemoteId)
  | updateMedia (blockId : RemoteId) (localPath : FilePath) (caption : Text)
  | archiveBlock (blockId : RemoteId)
  | archiveEntity (entityId : RemoteId)
  | updateEntityBody (entityId : RemoteId) (body : Text)
  | updateProperties (entityId : RemoteId) (properties : List (Text × PropertyValue))
  | moveEntity (entityId newParentId : RemoteId) (newParentKind : EntityKind) (newTitle : Text)
      (projectedPath : FilePath)
  | createEntity (parentId : RemoteId) (parentKind : Option EntityKind) (parentWorkspace : Bool)
      (title : Text) (properties : List (Text × PropertyValue)) (body : Text)
      (sourcePath : FilePath)
  | createDatabase (parentId : RemoteId) (title schema : Text) (sourcePath : FilePath)

inductive PushOperationKind where
  | updateBlock
  | replaceBlock
  | appendBlock
  | moveBlock
  | updateMedia
  | archiveBlock
  | archiveEntity
  | updateEntityBody
  | updateProperties
  | moveEntity
  | createEntity
  | createDatabase
  deriving DecidableEq, Repr

namespace PushOperationKind

def asStr : PushOperationKind → Text
  | updateBlock => "update_block".toList
  | replaceBlock => "replace_block".toList
  | appendBlock => "append_block".toList
  | moveBlock => "move_block".toList
  | updateMedia => "update_media".toList
  | archiveBlock => "archive_block".toList
  | archiveEntity => "archive_entity".toList
  | updateEntityBody => "update_entity_body".toList
  | updateProperties => "update_properties".toList
  | moveEntity => "move_entity".toList
  | createEntity => "create_entity".toList
  | createDatabase => "create_database".toList

end PushOperationKind

def PushOperation.kind : PushOperation → PushOperationKind
  | updateBlock _ _ => .updateBlock
  | replaceBlock _ _ => .replaceBlock
  | appendBlock _ _ _ => .appendBlock
  | moveBlock _ _ => .moveBlock
  | updateMedia _ _ _ => .updateMedia
  | archiveBlock _ => .archiveBlock
  | archiveEntity _ => .archiveEntity
  | updateEntityBody _ _ => .updateEntityBody
  | updateProperties _ _ => .updateProperties
  | moveEntity _ _ _ _ _ => .moveEntity
  | createEntity _ _ _ _ _ _ _ => .createEntity
  | createDatabase _ _ _ _ => .createDatabase

/-! ## Summaries -/

structure PlanSummary where
  blocksCreated : Nat
  blocksUpdated : Nat
  blocksReplaced : Nat
  blocksMoved : Nat
  mediaUpdated : Nat
  blocksArchived : Nat
  entitiesCreated : Nat
  entitiesArchived : Nat
  entityBodiesUpdated : Nat
  entitiesMoved : Nat
  propertiesUpdated : Nat
  deriving DecidableEq, Repr

namespace PlanSummary

def empty : PlanSummary := ⟨0, 0, 0, 0, 0, 0, 0, 0, 0, 0, 0⟩

/-- What one operation adds to a summary. -/
def count (summary : PlanSummary) : PushOperation → PlanSummary
  | .updateBlock _ _ => { summary with blocksUpdated := summary.blocksUpdated + 1 }
  | .replaceBlock _ _ => { summary with blocksReplaced := summary.blocksReplaced + 1 }
  | .appendBlock _ _ _ => { summary with blocksCreated := summary.blocksCreated + 1 }
  | .moveBlock _ _ => { summary with blocksMoved := summary.blocksMoved + 1 }
  | .updateMedia _ _ _ => { summary with mediaUpdated := summary.mediaUpdated + 1 }
  | .archiveBlock _ => { summary with blocksArchived := summary.blocksArchived + 1 }
  | .archiveEntity _ => { summary with entitiesArchived := summary.entitiesArchived + 1 }
  | .updateEntityBody _ _ =>
      { summary with entityBodiesUpdated := summary.entityBodiesUpdated + 1 }
  | .updateProperties _ properties =>
      { summary with propertiesUpdated := summary.propertiesUpdated + properties.length }
  | .moveEntity _ _ _ _ _ => { summary with entitiesMoved := summary.entitiesMoved + 1 }
  | .createEntity _ _ _ _ _ _ _ | .createDatabase _ _ _ _ =>
      { summary with entitiesCreated := summary.entitiesCreated + 1 }

def fromOperations (operations : List PushOperation) : PlanSummary :=
  operations.foldl count empty

end PlanSummary

/-! ## Plans -/

inductive PlanDegradationKind where
  | ambiguousBlockAlignment
  deriving DecidableEq, Repr

structure PlanDegradation where
  kind : PlanDegradationKind
  message : Text
  deriving DecidableEq, Repr

structure PushPlan where
  affectedEntities : List RemoteId
  operations : List PushOperation
  summary : PlanSummary
  degradations : List PlanDegradation

namespace PushPlan

/-- `PushPlan::new`. -/
def ofOperations (affectedEntities : List RemoteId) (operations : List PushOperation) :
    PushPlan where
  affectedEntities := affectedEntities
  operations := operations
  summary := PlanSummary.fromOperations operations
  degradations := []

def withDegradations (self : PushPlan) (degradations : List PlanDegradation) : PushPlan :=
  { self with degradations := degradations }

def isEmpty (self : PushPlan) : Bool := self.operations.isEmpty

end PushPlan

end Locality.Core
