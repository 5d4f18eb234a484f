/-
  Daemon/ShadowMatch.lean --- when a local file still says what the stored shadow
  says: `localityd/src/shadow_match.rs`.

  A file matches its shadow where the bodies are equivalent, or where a push would
  have nothing to do, and where the frontmatter is the same up to the fields that
  record a synchronization.
-/
import Locality.Core.Diff
import Locality.Core.ConflictDocument

set_option autoImplicit false

namespace Locality.Daemon

open Locality.Core

section

variable (yaml : YamlSerde)

/-! ## Frontmatter -/

def locMetadataMatchesIgnoringSyncMetadata :
    Option LocalityMetadata → Option LocalityMetadata → Bool
  | none, none => true
  | some left, some right =>
      decide (left.id = right.id) && decide (left.entityType = right.entityType) &&
        decide (left.rawEntityType = right.rawEntityType) && decide (left.parent = right.parent)
  | _, _ => false

/-- The equality of two property maps, which is the equality of their entries. -/
def propertiesEq (left right : FrontmatterProperties) : Bool :=
  decide (left.length = right.length) &&
    (left.zip right).all fun p => decide (p.1.1 = p.2.1) && yaml.valueEq p.1.2 p.2.2

def frontmatterMatchesIgnoringSyncMetadata (left right : Frontmatter) : Bool :=
  locMetadataMatchesIgnoringSyncMetadata left.loc right.loc &&
    decide (left.title = right.title) && propertiesEq yaml left.properties right.properties

/-! ## Files and shadows -/

def parseShadow (shadow : ShadowDocument) : Option ParsedCanonicalDocument :=
  (parseCanonicalMarkdown yaml
    (renderCanonicalMarkdown ⟨shadow.frontmatter, shadow.renderedBody⟩)).toOption

/-- `BlockDiffEngine::plan_push` of a parsed file. -/
def planParsed (parsed : ParsedCanonicalDocument) (shadow : ShadowDocument) :
    LocalityResult PushPlan :=
  planBlockDiff yaml shadow parsed.document parsed.bodyStartLine

def parsedBodyMatchesShadow (parsed : ParsedCanonicalDocument) (shadow : ShadowDocument) :
    Bool :=
  renderedBodiesEquivalent parsed.document.body shadow.renderedBody ||
    match planParsed yaml parsed shadow with
    | .ok plan => plan.operations.isEmpty && plan.degradations.isEmpty
    | .error _ => false

def parsedMatchesShadow (parsed : ParsedCanonicalDocument) (shadow : ShadowDocument) : Bool :=
  parsedBodyMatchesShadow yaml parsed shadow &&
    (parseShadow yaml shadow).any fun shadowParsed =>
      frontmatterMatchesIgnoringSyncMetadata yaml parsed.frontmatter shadowParsed.frontmatter

def shadowsMatch (left right : ShadowDocument) : Bool :=
  renderedBodiesEquivalent left.renderedBody right.renderedBody &&
    match parseShadow yaml left, parseShadow yaml right with
    | some left, some right =>
        frontmatterMatchesIgnoringSyncMetadata yaml left.frontmatter right.frontmatter
    | _, _ => false

/-! ## Blocks that a file still holds -/

/-- One line of `normalize_plain_divider_projection`, its line feed kept. -/
def normalizeDividerLine (segment : Text) : Text :=
  let (line, lineEnding) :=
    match stripSuffixChar '\n' segment with
    | some line => (line, ['\n'])
    | none => (segment, [])
  (if line = "---<br>---".toList ∨ line = "---<br/>---".toList ∨ line = "---<br />---".toList
    then "---\n\n---".toList else line) ++ lineEnding

def normalizePlainDividerProjection (markdown : Text) : Text :=
  (splitLines markdown).flatMap normalizeDividerLine

def currentShadowBlocksAppearInEditedBody (parsed : ParsedCanonicalDocument)
    (shadow : ShadowDocument) : Bool :=
  let editedBody := normalizePlainDividerProjection parsed.document.body
  shadow.blocks.all fun block =>
    containsText editedBody (normalizePlainDividerProjection block.text)

def PushOperation.isArchive : PushOperation → Bool
  | .archiveBlock _ | .archiveEntity _ => true
  | _ => false

def parsedChangesRetainCurrentShadowBlocks (parsed : ParsedCanonicalDocument)
    (shadow : ShadowDocument) : Bool :=
  match planParsed yaml parsed shadow with
  | .error _ => false
  | .ok plan =>
      plan.degradations.isEmpty && !plan.operations.any PushOperation.isArchive &&
        currentShadowBlocksAppearInEditedBody parsed shadow

def contentsChangesRetainCurrentShadowBlocks (contents : Text) (shadow : ShadowDocument) :
    Bool :=
  match parseCanonicalMarkdown yaml contents with
  | .error _ => false
  | .ok parsed => parsedChangesRetainCurrentShadowBlocks yaml parsed shadow

end

end Locality.Daemon
