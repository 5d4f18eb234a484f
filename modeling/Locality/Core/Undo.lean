/-
  Core/Undo.lean --- the undo plan of a journal entry: `locality-core/src/undo.rs`.

  The loop walks the push operations backwards.  For each it appends the operations
  that reverse it, or one reason why nothing does; `undoOperation` is that choice and
  `planJournalUndo` collects them.
-/
import Locality.Core.Journal
import Locality.Core.PropertyDiff

set_option autoImplicit false

namespace Locality.Core

/-! ## Undo plans -/

structure EntityUndoState where
  parentId : RemoteId
  title : Text
  properties : List (Text × PropertyValue)
  body : Text
  archived : Bool

inductive UndoOperation where
  | restoreBlockContent (blockId : RemoteId) (content : Text)
  | moveBlock (blockId : RemoteId) (after : Option RemoteId)
  | restoreArchivedBlock (blockId parentId : RemoteId) (after : Option RemoteId)
      (content : Text) (nativeKind : Option Text)
  | archiveCreatedBlock (blockId : RemoteId)
  | archiveCreatedEntity (entityId : RemoteId) (expected : Option EntityUndoState)
  | restoreEntityBody (entityId : RemoteId) (expectedCurrent previous : Text)
  | restoreProperties (entityId : RemoteId)
      (expectedCurrent previous : List (Text × PropertyValue))
  | restoreEntityLocation (entityId expectedParentId : RemoteId) (expectedTitle : Text)
      (previousParentId : RemoteId) (previousTitle : Text)
  | restoreArchivedEntity (entityId : RemoteId) (expected : EntityUndoState)

structure UnsupportedUndoOperation where
  operationIndex : Nat
  code : Text
  message : Text
  deriving DecidableEq, Repr

inductive UndoPlanStatus where
  | complete
  | partlyPlanned
  | blocked
  deriving DecidableEq, Repr

structure UndoPlan where
  targetPushId : PushId
  mountId : MountId
  affectedEntities : List RemoteId
  operations : List UndoOperation
  unsupported : List UnsupportedUndoOperation
  status : UndoPlanStatus

/-! ## Reasons -/

def missingBlockPreimage (operationIndex : Nat) (blockId : RemoteId) :
    UnsupportedUndoOperation where
  operationIndex := operationIndex
  code := "missing_block_preimage".toList
  message := "cannot restore block \x60".toList ++ blockId.value ++
    "\x60 because it is absent from journaled preimages".toList

def missingEntityPreimage (operationIndex : Nat) (entityId : RemoteId) (preimageKind : Text) :
    UnsupportedUndoOperation where
  operationIndex := operationIndex
  code := "missing_entity_preimage".toList
  message := "cannot restore ".toList ++ preimageKind ++ " for entity \x60".toList ++
    entityId.value ++
    "\x60 because the required journaled preimage is missing or incomplete".toList

/-! ## Looking into the entry -/

section Entry

variable (yaml : YamlSerde) (entry : JournalEntry)

def findPreimageBlock (blockId : RemoteId) : Option (ShadowDocument × ShadowBlock) :=
  entry.preimages.findSome? fun preimage =>
    (preimage.shadow.blocks.find? fun block => decide (block.remoteId = blockId)).map
      fun block => (preimage.shadow, block)

def findEntityPreimage (entityId : RemoteId) : Option ShadowDocument :=
  (entry.preimages.find? fun preimage => decide (preimage.entityId = entityId)).map
    JournalPreimage.shadow

/-- The page that a block stood on, and the block before it there. -/
def findPreimageBlockPosition (blockId : RemoteId) :
    Option (ShadowDocument × Option RemoteId) :=
  entry.preimages.findSome? fun preimage =>
    (preimage.shadow.blocks.findIdx? fun block => decide (block.remoteId = blockId)).map
      fun index =>
        (preimage.shadow,
          if index = 0 then none
          else (preimage.shadow.blocks[index - 1]?).map ShadowBlock.remoteId)

def findCreatedBlockEffect (operationIndex : Nat) : Option RemoteId :=
  entry.applyEffects.findSome? fun effect =>
    match effect with
    | .createdBlock _ effectOperationIndex _ blockId =>
        if effectOperationIndex = operationIndex then some blockId else none
    | _ => none

def findArchivedBlockEffect (operationIndex : Nat) : Option RemoteId :=
  entry.applyEffects.findSome? fun effect =>
    match effect with
    | .archivedBlock _ effectOperationIndex blockId =>
        if effectOperationIndex = operationIndex then some blockId else none
    | _ => none

def findCreatedEntityEffect (operationIndex : Nat) : Option RemoteId :=
  entry.applyEffects.findSome? fun effect =>
    match effect with
    | .createdEntity _ effectOperationIndex _ entityId =>
        if effectOperationIndex = operationIndex then some entityId else none
    | _ => none

def parsedEntityPreimage (entityId : RemoteId) : Option ParsedCanonicalDocument :=
  (findEntityPreimage entry entityId).bind fun shadow =>
    if (trim shadow.frontmatter).isEmpty then none
    else
      (parseCanonicalMarkdown yaml
        (renderCanonicalMarkdown ⟨shadow.frontmatter, shadow.renderedBody⟩)).toOption

/-- The kind is missing or not one that Locality knows. -/
def isUnknownKind : Option EntityKind → Bool
  | none | some (.unknown _) => true
  | _ => false

def entityArchiveExpectedState (entityId : RemoteId) : Option EntityUndoState := do
  let shadow ← findEntityPreimage entry entityId
  let parsed ← parsedEntityPreimage yaml entry entityId
  let loc ← parsed.frontmatter.loc
  if loc.id ≠ some entityId ∨ isUnknownKind loc.entityType = true then none
  else
    let parentId ← loc.parent
    let title ← parsed.frontmatter.title
    if (trim title).isEmpty then none
    else
      some {
        parentId := parentId
        title := title
        properties := parsed.frontmatter.properties.map fun p =>
          (p.1, propertyValueFromFrontmatter p.2)
        body := shadow.renderedBody
        archived := true }

def previousPropertyValues (entityId : RemoteId)
    (expectedCurrent : List (Text × PropertyValue)) : Option (List (Text × PropertyValue)) :=
  (parsedEntityPreimage yaml entry entityId).map fun parsed =>
    mapCollect (expectedCurrent.map fun p =>
      (p.1,
        ((if p.1 = "title".toList then parsed.frontmatter.title.map PropertyValue.string
          else (mapGet p.1 parsed.frontmatter.properties).map
            propertyValueFromFrontmatter).getD .null)))

def previousEntityLocation (entityId : RemoteId) : Option (RemoteId × Text) := do
  let parsed ← parsedEntityPreimage yaml entry entityId
  let loc ← parsed.frontmatter.loc
  let parentId ← loc.parent
  let title ← parsed.frontmatter.title
  return (parentId, title)

/-! ## One operation -/

/-- The block is written back as it was. -/
def undoContent (operationIndex : Nat) (blockId : RemoteId) :
    Except UnsupportedUndoOperation (List UndoOperation) :=
  match findPreimageBlock entry blockId with
  | some (_, block) => .ok [.restoreBlockContent blockId block.text]
  | none => .error (missingBlockPreimage operationIndex blockId)

/-- The block is created again behind the one it followed. -/
def restoreArchived (blockId : RemoteId) (shadow : ShadowDocument) (after : Option RemoteId)
    (block : ShadowBlock) : UndoOperation :=
  .restoreArchivedBlock blockId shadow.entityId after block.text block.nativeKind

def undoReplace (operationIndex : Nat) (blockId : RemoteId) :
    Except UnsupportedUndoOperation (List UndoOperation) :=
  match findCreatedBlockEffect entry operationIndex, findPreimageBlockPosition entry blockId,
      findPreimageBlock entry blockId with
  | some createdBlockId, some (shadow, after), some (_, block) =>
      .ok [.archiveCreatedBlock createdBlockId, restoreArchived blockId shadow after block]
  | none, _, _ =>
      .error ⟨operationIndex, "replace_block_missing_created_id".toList,
        ("cannot undo a replaced block until apply journals the replacement remote " ++
          "block id").toList⟩
  | _, none, _ | _, _, none => .error (missingBlockPreimage operationIndex blockId)

def moveIncomplete (operationIndex : Nat) (blockId : RemoteId) : UnsupportedUndoOperation where
  operationIndex := operationIndex
  code := "move_block_incomplete_apply_effects".toList
  message := "cannot undo moved block \x60".toList ++ blockId.value ++
    "\x60 because its journaled apply effects are incomplete".toList

def undoMove (operationIndex : Nat) (blockId : RemoteId) :
    Except UnsupportedUndoOperation (List UndoOperation) :=
  match findCreatedBlockEffect entry operationIndex,
      findArchivedBlockEffect entry operationIndex,
      findPreimageBlockPosition entry blockId, findPreimageBlock entry blockId with
  | some createdBlockId, some archivedBlockId, some (shadow, after), some (_, block) =>
      if archivedBlockId = blockId then
        .ok [.archiveCreatedBlock createdBlockId, restoreArchived blockId shadow after block]
      else .error (moveIncomplete operationIndex blockId)
  | none, none, some (_, after), _ => .ok [.moveBlock blockId after]
  | _, _, none, _ | _, _, _, none => .error (missingBlockPreimage operationIndex blockId)
  | _, _, _, _ => .error (moveIncomplete operationIndex blockId)

def undoArchive (operationIndex : Nat) (blockId : RemoteId) :
    Except UnsupportedUndoOperation (List UndoOperation) :=
  match findPreimageBlockPosition entry blockId with
  | some (shadow, after) =>
      match findPreimageBlock entry blockId with
      | some (_, block) => .ok [restoreArchived blockId shadow after block]
      | none => .error (missingBlockPreimage operationIndex blockId)
  | none => .error (missingBlockPreimage operationIndex blockId)

def undoAppend (operationIndex : Nat) : Except UnsupportedUndoOperation (List UndoOperation) :=
  match findCreatedBlockEffect entry operationIndex with
  | some blockId => .ok [.archiveCreatedBlock blockId]
  | none =>
      .error ⟨operationIndex, "append_block_missing_created_id".toList,
        ("cannot archive an appended block until apply journals the created remote " ++
          "block id").toList⟩

/-- The entity is archived, if it still is what was created. -/
def undoCreate (operationIndex : Nat) (expected : EntityUndoState) :
    Except UnsupportedUndoOperation (List UndoOperation) :=
  match findCreatedEntityEffect entry operationIndex with
  | some entityId => .ok [.archiveCreatedEntity entityId (some expected)]
  | none =>
      .error ⟨operationIndex, "create_entity_missing_created_id".toList,
        ("cannot remove a created entity until apply journals the created remote " ++
          "entity id").toList⟩

/-- What reverses an operation, or why nothing does. -/
def undoOperation (operationIndex : Nat) :
    PushOperation → Except UnsupportedUndoOperation (List UndoOperation)
  | .updateBlock blockId _ | .updateMedia blockId _ _ => undoContent entry operationIndex blockId
  | .replaceBlock blockId _ => undoReplace entry operationIndex blockId
  | .moveBlock blockId _ => undoMove entry operationIndex blockId
  | .archiveBlock blockId => undoArchive entry operationIndex blockId
  | .appendBlock _ _ _ => undoAppend entry operationIndex
  | .archiveEntity entityId =>
      match entityArchiveExpectedState yaml entry entityId with
      | some expected => .ok [.restoreArchivedEntity entityId expected]
      | none => .error (missingEntityPreimage operationIndex entityId "archived entity".toList)
  | .updateEntityBody entityId body =>
      match findEntityPreimage entry entityId with
      | some shadow => .ok [.restoreEntityBody entityId body shadow.renderedBody]
      | none => .error (missingEntityPreimage operationIndex entityId "body".toList)
  | .updateProperties entityId properties =>
      if properties.isEmpty then
        .error ⟨operationIndex, "update_properties_missing_current_values".toList,
          "cannot restore properties for entity \x60".toList ++ entityId.value ++
            "\x60 because the journal does not record the applied values".toList⟩
      else
        match previousPropertyValues yaml entry entityId properties with
        | some previous => .ok [.restoreProperties entityId properties previous]
        | none => .error (missingEntityPreimage operationIndex entityId "property".toList)
  | .moveEntity entityId newParentId _ newTitle _ =>
      match previousEntityLocation yaml entry entityId with
      | some (previousParentId, previousTitle) =>
          .ok [.restoreEntityLocation entityId newParentId newTitle previousParentId
            previousTitle]
      | none => .error (missingEntityPreimage operationIndex entityId "location".toList)
  | .createEntity parentId _ _ title properties body _ =>
      undoCreate entry operationIndex ⟨parentId, title, properties, body, false⟩
  | .createDatabase parentId title schema _ =>
      undoCreate entry operationIndex ⟨parentId, title, [], schema, false⟩

/-! ## The plan -/

/-- What reverses each operation, the last one first. -/
def undoResults (operations : List PushOperation) :
    List (Except UnsupportedUndoOperation (List UndoOperation)) :=
  operations.zipIdx.reverse.map fun p => undoOperation yaml entry p.2 p.1

def planJournalUndo : UndoPlan :=
  let results := undoResults yaml entry entry.plan.operations
  let operations := results.flatMap fun result => result.toOption.getD []
  let unsupported := results.filterMap fun result =>
    match result with
    | .ok _ => none
    | .error reason => some reason
  { targetPushId := entry.pushId
    mountId := entry.mountId
    affectedEntities := entry.remoteIds
    operations := operations
    unsupported := unsupported
    status :=
      match operations.isEmpty, unsupported.isEmpty with
      | false, true => .complete
      | false, false => .partlyPlanned
      | true, _ => .blocked }

end Entry

end Locality.Core
