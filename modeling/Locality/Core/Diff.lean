/-
  Core/Diff.lean --- the block diff of `locality-core/src/diff.rs`: directive
  validation, the alignment passes, and the loop that emits the operations.

  The alignment is one state, the match of every edited block and the set of shadow
  blocks in use, and every pass changes it through `assign` only.  Positions are
  indices into the two block lists, as in the source.
-/
import Locality.Core.PropertyDiff
import Locality.Foundation.Lcs

set_option autoImplicit false

namespace Locality.Core

open Locality.Foundation

/-! ## Validation of directives -/

def directiveIssue (code : Text) (line : Nat) (message : Text) : ValidationIssue where
  code := code
  file := []
  line := some line
  message := message
  suggestedFix :=
    some "restore the directive line exactly or delete it to delete the block".toList

/-- The index that `shadow_directive_indexes_by_id` holds for an id.  Of two blocks
with one id the later is kept. -/
def shadowDirectiveIndex (shadow : ShadowDocument) (remoteId : RemoteId) : Option Nat :=
  (List.range shadow.blocks.length).reverse.find? fun index =>
    (shadow.blocks[index]?).any fun block =>
      block.kind.isDirective && decide (block.remoteId = remoteId)

def shadowDirectiveById (shadow : ShadowDocument) (remoteId : RemoteId) :
    Option ShadowBlock :=
  (shadowDirectiveIndex shadow remoteId).bind fun index => shadow.blocks[index]?

/-- The issue that one edited block raises; only directives raise one. -/
def editedDirectiveIssue (shadow : ShadowDocument) (block : SegmentedBlock) :
    Option ValidationIssue :=
  match block.kind with
  | .directive directiveType raw malformed =>
      if malformed then
        some (directiveIssue "directive_malformed".toList block.sourceSpan.startLine
          "Locality directive syntax is malformed".toList)
      else
        match block.remoteId with
        | none =>
            some (directiveIssue "directive_missing_id".toList block.sourceSpan.startLine
              "Locality directive is missing an \x60id\x60 attribute".toList)
        | some remoteId =>
            if directiveType.isNone then
              some (directiveIssue "directive_missing_type".toList block.sourceSpan.startLine
                "Locality directive is missing a \x60type\x60 attribute".toList)
            else
              match shadowDirectiveById shadow remoteId with
              | none =>
                  some (directiveIssue "directive_unknown".toList block.sourceSpan.startLine
                    ("directive anchor \x60".toList ++ remoteId.value ++
                      "\x60 was not present in the synced shadow".toList))
              | some shadowBlock =>
                  match shadowBlock.kind with
                  | .directive shadowType shadowRaw _ =>
                      if directiveType ≠ shadowType ∨ raw ≠ shadowRaw then
                        some (directiveIssue "directive_mangled".toList
                          block.sourceSpan.startLine
                          ("directive anchor \x60".toList ++ remoteId.value ++
                            "\x60 was edited".toList))
                      else none
                  | _ => none
  | _ => none

def validateEditedDirectives (shadow : ShadowDocument) (editedBlocks : List SegmentedBlock) :
    List ValidationIssue :=
  editedBlocks.filterMap (editedDirectiveIssue shadow)

/-! ## Alignment state -/

/-- `matches` and `used_shadow`. -/
structure Alignment where
  pairing : List (Option Nat)
  usedShadow : List Nat
  deriving DecidableEq, Repr

namespace Alignment

def initial (editedCount : Nat) : Alignment := ⟨List.replicate editedCount none, []⟩

/-- `matches[edited_index]`. -/
def matchOf (self : Alignment) (editedIndex : Nat) : Option Nat :=
  (self.pairing[editedIndex]?).join

def isUsed (self : Alignment) (shadowIndex : Nat) : Bool := decide (shadowIndex ∈ self.usedShadow)

def assign (self : Alignment) (editedIndex shadowIndex : Nat) : Alignment :=
  ⟨self.pairing.set editedIndex (some shadowIndex), shadowIndex :: self.usedShadow⟩

end Alignment

section Passes

variable (shadow : ShadowDocument) (editedBlocks : List SegmentedBlock)

/-- The edited block exists and is no directive. -/
def editedIsNative (editedIndex : Nat) : Bool :=
  (editedBlocks[editedIndex]?).any fun block => !block.isDirective

def shadowIsNative (shadowIndex : Nat) : Bool :=
  (shadow.blocks[shadowIndex]?).any fun block => !block.kind.isDirective

/-- The unmatched native edited blocks of a range. -/
def residualEdited (a : Alignment) (start stop : Nat) : List Nat :=
  (List.range' start (stop - start)).filter fun editedIndex =>
    (a.matchOf editedIndex).isNone && editedIsNative editedBlocks editedIndex

/-- The unused native shadow blocks of a range. -/
def residualShadow (a : Alignment) (start stop : Nat) : List Nat :=
  (List.range' start (stop - start)).filter fun shadowIndex =>
    !a.isUsed shadowIndex && shadowIsNative shadow shadowIndex

/-! ## Directives and exact hashes -/

def alignDirective (a : Alignment) (editedIndex : Nat) : Alignment :=
  match editedBlocks[editedIndex]? with
  | none => a
  | some block =>
      if !block.isDirective then a
      else
        match block.remoteId.bind (shadowDirectiveIndex shadow) with
        | none => a
        | some shadowIndex =>
            if a.isUsed shadowIndex then a else a.assign editedIndex shadowIndex

def alignDirectives (a : Alignment) : Alignment :=
  (List.range editedBlocks.length).foldl (alignDirective shadow editedBlocks) a

def shadowHasHash (hash : Text) (shadowIndex : Nat) : Bool :=
  (shadow.blocks[shadowIndex]?).any fun block => decide (block.contentHash = hash)

def editedHasHash (hash : Text) (editedIndex : Nat) : Bool :=
  (editedBlocks[editedIndex]?).any fun block => decide (block.contentHash = hash)

/-- `unique_native_shadow_hashes`: the only free native block with the hash. -/
def uniqueNativeShadowHash (a : Alignment) (hash : Text) : Option Nat :=
  match (residualShadow shadow a 0 shadow.blocks.length).filter (shadowHasHash shadow hash) with
  | [shadowIndex] => some shadowIndex
  | _ => none

/-- `edited_hash_counts`. -/
def editedHashCount (a : Alignment) (hash : Text) : Nat :=
  ((residualEdited editedBlocks a 0 editedBlocks.length).filter
    (editedHasHash editedBlocks hash)).length

/-- One round of `align_exact_hashes`; the counts are those of its start. -/
def alignExactHash (start a : Alignment) (editedIndex : Nat) : Alignment :=
  match editedBlocks[editedIndex]? with
  | none => a
  | some block =>
      if (a.matchOf editedIndex).isSome || block.isDirective then a
      else if editedHashCount editedBlocks start block.contentHash ≠ 1 then a
      else
        match uniqueNativeShadowHash shadow start block.contentHash with
        | none => a
        | some shadowIndex =>
            if a.isUsed shadowIndex then a else a.assign editedIndex shadowIndex

def alignExactHashes (a : Alignment) : Alignment :=
  (List.range editedBlocks.length).foldl (alignExactHash shadow editedBlocks a) a

/-! ## Equivalent bodies -/

/-- The two blocks render equivalent bodies. -/
def equivalentTexts (shadowIndex editedIndex : Nat) : Bool :=
  match shadow.blocks[shadowIndex]?, editedBlocks[editedIndex]? with
  | some shadowBlock, some editedBlock =>
      renderedBodiesEquivalent shadowBlock.text editedBlock.text
  | _, _ => false

def equivalentCandidates (start : Alignment) (editedIndex : Nat) : List Nat :=
  (residualShadow shadow start 0 shadow.blocks.length).filter fun shadowIndex =>
    equivalentTexts shadow editedBlocks shadowIndex editedIndex

/-- `shadow_candidate_counts`. -/
def shadowCandidateCount (start : Alignment) (shadowIndex : Nat) : Nat :=
  ((residualEdited editedBlocks start 0 editedBlocks.length).filter fun editedIndex =>
    decide (shadowIndex ∈ equivalentCandidates shadow editedBlocks start editedIndex)).length

def alignEquivalentBody (start a : Alignment) (editedIndex : Nat) : Alignment :=
  if (a.matchOf editedIndex).isSome then a
  else
    match (equivalentCandidates shadow editedBlocks start editedIndex).filter fun shadowIndex =>
        !a.isUsed shadowIndex &&
          decide (shadowCandidateCount shadow editedBlocks start shadowIndex = 1) with
    | [shadowIndex] => a.assign editedIndex shadowIndex
    | _ => a

def alignEquivalentBodies (a : Alignment) : Alignment :=
  (residualEdited editedBlocks a 0 editedBlocks.length).foldl
    (alignEquivalentBody shadow editedBlocks a) a

/-! ## Gaps between anchors -/

/-- The matches that increase, each from the last one taken. -/
def orderedAnchorsFrom : Nat → Option Nat → List (Option Nat) → List (Nat × Nat)
  | _, _, [] => []
  | editedIndex, previous, none :: rest => orderedAnchorsFrom (editedIndex + 1) previous rest
  | editedIndex, previous, some shadowIndex :: rest =>
      if previous.all fun p => decide (p < shadowIndex) then
        (editedIndex, shadowIndex) ::
          orderedAnchorsFrom (editedIndex + 1) (some shadowIndex) rest
      else orderedAnchorsFrom (editedIndex + 1) previous rest

def orderedAlignmentAnchors (a : Alignment) : List (Nat × Nat) :=
  orderedAnchorsFrom 0 none a.pairing

abbrev Anchor : Type := Option (Nat × Nat)

/-- The gaps from an anchor on: between consecutive anchors, and behind the last. -/
def gapsFrom (previous : Anchor) : List (Nat × Nat) → List (Anchor × Anchor)
  | [] => [(previous, none)]
  | next :: rest => (previous, some next) :: gapsFrom (some next) rest

/-- Run a pass over every gap between the anchors found at its start; without an
anchor there is nothing to bound a gap. -/
def alignGaps (gapPass : Alignment → Anchor × Anchor → Alignment) (a : Alignment) :
    Alignment :=
  match orderedAlignmentAnchors a with
  | [] => a
  | anchors => (gapsFrom none anchors).foldl gapPass a

def gapEdited (a : Alignment) (gap : Anchor × Anchor) : List Nat :=
  residualEdited editedBlocks a (gap.1.elim 0 fun p => p.1 + 1)
    (gap.2.elim editedBlocks.length Prod.fst)

def gapShadow (a : Alignment) (gap : Anchor × Anchor) : List Nat :=
  residualShadow shadow a (gap.1.elim 0 fun p => p.2 + 1)
    (gap.2.elim shadow.blocks.length Prod.snd)

/-! ## Heading-bounded rewrites -/

def isHeadingAnchor (anchor : Anchor) : Bool :=
  anchor.any fun p => (shadow.blocks[p.2]?).any fun block => decide (block.kind = .heading)

def hasHeadingAnchor (gap : Anchor × Anchor) : Bool :=
  isHeadingAnchor shadow gap.1 || isHeadingAnchor shadow gap.2

def sameAlignmentKind : MarkdownBlockKind → MarkdownBlockKind → Bool
  | .tableWithRows _ leftColumn leftRow, .tableWithRows _ rightColumn rightRow =>
      decide (leftColumn = rightColumn) && decide (leftRow = rightRow)
  | .tableWithRows _ _ _, .table => true
  | .table, .tableWithRows _ _ _ => true
  | left, right => decide (left = right)

/-- The blocks at the two positions are of the same kind. -/
def sameKindAt (shadowIndex editedIndex : Nat) : Bool :=
  match shadow.blocks[shadowIndex]?, editedBlocks[editedIndex]? with
  | some shadowBlock, some editedBlock => sameAlignmentKind shadowBlock.kind editedBlock.kind
  | _, _ => false

def residualKindsMatchCommonPrefix (residualShadow residualEdited : List Nat) : Bool :=
  (residualShadow.zip residualEdited).all fun p => sameKindAt shadow editedBlocks p.1 p.2

/-- Match the positions of a list of pairs, one pair after the other. -/
def assignAll (a : Alignment) (pairs : List (Nat × Nat)) : Alignment :=
  pairs.foldl (fun a p => a.assign p.1 p.2) a

def alignHeadingBoundedGap (a : Alignment) (gap : Anchor × Anchor) : Alignment :=
  if !hasHeadingAnchor shadow gap then a
  else
    let edited := gapEdited editedBlocks a gap
    let free := gapShadow shadow a gap
    if decide (edited.length ≤ 1) || decide (edited.length ≠ free.length) ||
        residualKindsMatchCommonPrefix shadow editedBlocks free edited then a
    else assignAll a (edited.zip free)

def alignHeadingBoundedRewrites (a : Alignment) : Alignment :=
  alignGaps (alignHeadingBoundedGap shadow editedBlocks) a

/-! ## Equivalent subsequences -/

def equivalentAlignmentBlocks (shadowIndex editedIndex : Nat) : Bool :=
  sameKindAt shadow editedBlocks shadowIndex editedIndex &&
    equivalentTexts shadow editedBlocks shadowIndex editedIndex

/-- The positions that stand at two offsets. -/
def positionsAt (edited free : List Nat) (offsets : Nat × Nat) : Option (Nat × Nat) :=
  match edited[offsets.1]?, free[offsets.2]? with
  | some editedIndex, some shadowIndex => some (editedIndex, shadowIndex)
  | _, _ => none

/-- The walk over the table of the two lists of positions; a tie drops the edited
one. -/
def alignEquivalentSubsequenceIndexes (a : Alignment) (edited free : List Nat) : Alignment :=
  assignAll a ((lcsWalk (fun editedIndex shadowIndex =>
      equivalentAlignmentBlocks shadow editedBlocks shadowIndex editedIndex)
    edited 0 free 0).filterMap (positionsAt edited free))

def alignResidualEquivalentGap (a : Alignment) (gap : Anchor × Anchor) : Alignment :=
  alignEquivalentSubsequenceIndexes shadow editedBlocks a (gapEdited editedBlocks a gap)
    (gapShadow shadow a gap)

def alignResidualEquivalentGaps (a : Alignment) : Alignment :=
  alignGaps (alignResidualEquivalentGap shadow editedBlocks) a

def alignResidualEquivalentSubsequence (a : Alignment) : Alignment :=
  alignEquivalentSubsequenceIndexes shadow editedBlocks a
    (residualEdited editedBlocks a 0 editedBlocks.length)
    (residualShadow shadow a 0 shadow.blocks.length)

/-! ## The residual pass -/

def ambiguousAlignment : PlanDegradation where
  kind := .ambiguousBlockAlignment
  message := ("multiple edited and synced blocks could not be aligned safely; unmatched edited " ++
    "blocks will be appended and unmatched synced blocks archived").toList

def alignResidualByOrder (a : Alignment) : Alignment × Option PlanDegradation :=
  let a := alignResidualEquivalentGaps shadow editedBlocks a
  let a := alignResidualEquivalentSubsequence shadow editedBlocks a
  let edited := residualEdited editedBlocks a 0 editedBlocks.length
  let free := residualShadow shadow a 0 shadow.blocks.length
  if decide (1 < edited.length) && decide (1 < free.length) &&
      !residualKindsMatchCommonPrefix shadow editedBlocks free edited then
    (a, some ambiguousAlignment)
  else (assignAll a (edited.zip free), none)

def alignBlocks : Alignment × List PlanDegradation :=
  let a := Alignment.initial editedBlocks.length
  let a := alignDirectives shadow editedBlocks a
  let a := alignExactHashes shadow editedBlocks a
  let a := alignEquivalentBodies shadow editedBlocks a
  let a := alignHeadingBoundedRewrites shadow editedBlocks a
  let (a, degradation) := alignResidualByOrder shadow editedBlocks a
  (a, degradation.toList)

end Passes

/-! ## How a block is written -/

inductive MarkdownWriteKind where
  | heading (level : Nat)
  | paragraph
  | quote
  | callout
  | bulletedList
  | numberedList
  | toDo
  | code
  | table
  | divider
  | equation
  | directive
  deriving DecidableEq, Repr

def parseHeadingLevel (markdown : Text) : Option Nat :=
  let trimmed := trimStart markdown
  let level := (trimmed.takeWhile (· == '#')).length
  if 1 ≤ level ∧ level ≤ 6 ∧ startsWith (trimmed.drop level) [' '] then some level else none

def isToDoItem (trimmed : Text) : Bool :=
  startsWith trimmed "- [ ] ".toList || startsWith trimmed "- [] ".toList ||
    startsWith trimmed "- [x] ".toList || startsWith trimmed "- [X] ".toList

def isNumberedItem (trimmed : Text) : Bool := orderedListMarker trimmed

/-- The length test is on bytes; a shorter text that starts and ends with two dollar
signs holds nothing else, so characters can be counted. -/
def isDisplayEquation (trimmed : Text) : Bool :=
  startsWith trimmed "$$".toList && endsWith trimmed "$$".toList && decide (4 ≤ trimmed.length)

def isCallout (markdown : Text) : Bool :=
  match lines markdown with
  | [] => false
  | first :: _ =>
      (stripPrefix (trimStart first) "> ".toList).any fun marker =>
        startsWith marker "[!".toList && endsWith marker [']']

def isQuote (markdown : Text) : Bool :=
  !(lines markdown).isEmpty && (lines markdown).all fun line =>
    (stripPrefix (trimStart line) "> ".toList).any fun text => !startsWith text "[!".toList

def paragraphWriteKind (markdown : Text) : MarkdownWriteKind :=
  let trimmed := trim markdown
  if trimmed = "---".toList then .divider
  else if isDisplayEquation trimmed then .equation
  else if isCallout markdown then .callout
  else if isQuote markdown then .quote
  else .paragraph

def listWriteKind (markdown : Text) : MarkdownWriteKind :=
  let trimmed := trimStart markdown
  if isToDoItem trimmed then .toDo
  else if isNumberedItem trimmed then .numberedList
  else .bulletedList

def markdownWriteKind (kind : MarkdownBlockKind) (text : Text) : MarkdownWriteKind :=
  let trimmed := trimEndMatches '\n' text
  match kind with
  | .heading => .heading ((parseHeadingLevel trimmed).getD 0)
  | .paragraph => paragraphWriteKind trimmed
  | .list => listWriteKind trimmed
  | .codeFence => .code
  | .table | .tableWithRows _ _ _ => .table
  | .directive _ _ _ => .directive

def shouldReplaceBlock (shadowBlock : ShadowBlock) (editedBlock : SegmentedBlock) : Bool :=
  decide (markdownWriteKind shadowBlock.kind shadowBlock.text ≠
    markdownWriteKind editedBlock.kind editedBlock.text)

/-! ## Emission -/

/-- What the emission loop carries from block to block. -/
structure EmissionState where
  recreatedShadow : List Nat
  movedExistingIds : List RemoteId
  previousExistingId : Option RemoteId
  deriving DecidableEq, Repr

def EmissionState.initial : EmissionState := ⟨[], [], none⟩

section Emit

variable (shadow : ShadowDocument)

/-- The nearest shadow block before the position that is matched and not recreated. -/
def previousRetainedShadowIndex (shadowIndex : Nat) (retainedShadow recreatedShadow : List Nat) :
    Option Nat :=
  (List.range shadowIndex).reverse.find? fun index =>
    decide (index ∈ retainedShadow) && !decide (index ∈ recreatedShadow)

def previousRetainedShadowId (shadowIndex : Nat) (retainedShadow recreatedShadow : List Nat) :
    Option RemoteId :=
  (previousRetainedShadowIndex shadowIndex retainedShadow recreatedShadow).bind fun index =>
    (shadow.blocks[index]?).map ShadowBlock.remoteId

def shouldMoveBlock (shadowBlock : ShadowBlock) (editedBlock : SegmentedBlock)
    (previousRetainedId previousExistingId : Option RemoteId) : Bool :=
  decide (previousRetainedId ≠ previousExistingId) && shadowBlock.kind.isDirective &&
    editedBlock.isDirective && decide (shadowBlock.contentHash = editedBlock.contentHash)

def shouldRecreateMovedNativeBlock (shadowBlock : ShadowBlock) (editedBlock : SegmentedBlock)
    (previousRetainedId previousExistingId : Option RemoteId)
    (movedExistingIds : List RemoteId) : Bool :=
  decide (previousRetainedId ≠ previousExistingId) &&
    !previousExistingId.any (fun remoteId => decide (remoteId ∈ movedExistingIds)) &&
    !shadowBlock.kind.isDirective && !editedBlock.isDirective &&
    decide (shadowBlock.contentHash = editedBlock.contentHash)

/-- The rewrite of a block that stays, if its text or its way of writing changed. -/
def contentOperations (shadowBlock : ShadowBlock) (editedBlock : SegmentedBlock) :
    List PushOperation :=
  if shouldReplaceBlock shadowBlock editedBlock then
    [.replaceBlock shadowBlock.remoteId editedBlock.text]
  else if !renderedBodiesEquivalent shadowBlock.text editedBlock.text then
    [.updateBlock shadowBlock.remoteId editedBlock.text]
  else []

/-- The operations that one matched edited block emits, and the state after it. -/
def emitMatched (retainedShadow : List Nat) (st : EmissionState) (shadowIndex : Nat)
    (shadowBlock : ShadowBlock) (editedBlock : SegmentedBlock) :
    List PushOperation × EmissionState :=
  let previousRetainedId :=
    previousRetainedShadowId shadow shadowIndex retainedShadow st.recreatedShadow
  let moves := shouldMoveBlock shadowBlock editedBlock previousRetainedId st.previousExistingId
  let moveOperations :=
    if moves then [.moveBlock shadowBlock.remoteId st.previousExistingId] else []
  let movedExistingIds :=
    if moves then shadowBlock.remoteId :: st.movedExistingIds else st.movedExistingIds
  if shouldRecreateMovedNativeBlock shadowBlock editedBlock previousRetainedId
      st.previousExistingId movedExistingIds then
    (moveOperations ++ [.appendBlock shadow.entityId st.previousExistingId editedBlock.text],
      ⟨shadowIndex :: st.recreatedShadow, movedExistingIds, st.previousExistingId⟩)
  else
    (moveOperations ++ contentOperations shadowBlock editedBlock,
      ⟨st.recreatedShadow, movedExistingIds, some shadowBlock.remoteId⟩)

/-- One edited block with its match. -/
def emitBlock (retainedShadow : List Nat) (st : EmissionState)
    (item : SegmentedBlock × Option Nat) : List PushOperation × EmissionState :=
  match item.2 with
  | some shadowIndex =>
      match shadow.blocks[shadowIndex]? with
      | some shadowBlock => emitMatched shadow retainedShadow st shadowIndex shadowBlock item.1
      | none => ([], st)
  | none => ([.appendBlock shadow.entityId st.previousExistingId item.1.text], st)

/-- The loop over the edited blocks: the operations of each, and the last state. -/
def emitBlocksFrom (retainedShadow : List Nat) (st : EmissionState) :
    List (SegmentedBlock × Option Nat) → List (List PushOperation) × EmissionState
  | [] => ([], st)
  | item :: items =>
      let (operations, st) := emitBlock shadow retainedShadow st item
      let (rest, st) := emitBlocksFrom retainedShadow st items
      (operations :: rest, st)

/-- `retained_shadow`. -/
def retainedShadow (pairing : List (Option Nat)) : List Nat := pairing.filterMap id

def emitBlocks (editedBlocks : List SegmentedBlock) (pairing : List (Option Nat)) :
    List (List PushOperation) × EmissionState :=
  emitBlocksFrom shadow (retainedShadow pairing) EmissionState.initial
    (editedBlocks.zip pairing)

/-- The archive of every shadow block that is not kept. -/
def archiveOperations (pairing : List (Option Nat)) (recreatedShadow : List Nat) :
    List PushOperation :=
  shadow.blocks.zipIdx.filterMap fun p =>
    if !decide (p.2 ∈ retainedShadow pairing) || decide (p.2 ∈ recreatedShadow) then
      some (.archiveBlock p.1.remoteId)
    else none

end Emit

/-! ## The plan -/

/-- The operations on blocks. -/
def blockOperations (shadow : ShadowDocument) (editedBlocks : List SegmentedBlock)
    (pairing : List (Option Nat)) : List PushOperation :=
  let (emitted, st) := emitBlocks shadow editedBlocks pairing
  emitted.flatten ++ archiveOperations shadow pairing st.recreatedShadow

def planBlockDiff (yaml : YamlSerde) (shadow : ShadowDocument) (edited : CanonicalDocument)
    (editedBodyStartLine : Nat) : LocalityResult PushPlan :=
  let editedBlocks := segmentMarkdownBody edited.body editedBodyStartLine
  match validateEditedDirectives shadow editedBlocks with
  | issue :: issues => .error (.validation (issue :: issues))
  | [] =>
      let (a, degradations) := alignBlocks shadow editedBlocks
      match propertyDiffOperations yaml shadow edited with
      | .error error => .error error
      | .ok operations =>
          .ok ((PushPlan.ofOperations [shadow.entityId]
            (operations ++ blockOperations shadow editedBlocks a.pairing)).withDegradations
            degradations)

end Locality.Core
