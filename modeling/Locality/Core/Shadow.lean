/-
  Core/Shadow.lean --- Markdown block segmentation, block hashes, and the shadow
  document: `locality-core/src/shadow.rs`.

  `segment_markdown_body` cuts the lines of a body into blocks; the loop carries the
  index of the next line, which every block advances, so the number of lines bounds
  the rounds.  A block keeps its kind, its text, and a hash of both.
-/
import Locality.Core.Canonical
import Locality.Foundation.EditScript

set_option autoImplicit false

namespace Locality.Core

open Locality.Foundation

/-! ## Blocks -/

inductive MarkdownBlockKind where
  | heading
  | paragraph
  | list
  | codeFence
  | table
  | tableWithRows (rowIds : List RemoteId) (hasColumnHeader hasRowHeader : Bool)
  | directive (directiveType : Option Text) (raw : Text) (malformed : Bool)
  deriving DecidableEq, Repr

def MarkdownBlockKind.isDirective : MarkdownBlockKind → Bool
  | .directive _ _ _ => true
  | _ => false

structure ShadowBlock where
  remoteId : RemoteId
  kind : MarkdownBlockKind
  sourceSpan : SourceSpan
  contentHash : Text
  text : Text
  nativeKind : Option Text
  deriving DecidableEq, Repr

structure SegmentedBlock where
  remoteId : Option RemoteId
  kind : MarkdownBlockKind
  sourceSpan : SourceSpan
  contentHash : Text
  text : Text
  deriving DecidableEq, Repr

def SegmentedBlock.isDirective (self : SegmentedBlock) : Bool := self.kind.isDirective

structure ShadowDocument where
  entityId : RemoteId
  frontmatter : Text
  bodyHash : Text
  renderedBody : Text
  blocks : List ShadowBlock
  deriving DecidableEq, Repr

/-! ## Hashes -/

/-- The UTF-8 bytes of a text. -/
def utf8Bytes (t : Text) : List Nat :=
  t.flatMap fun c => (String.utf8EncodeChar c).map UInt8.toNat

def hexDigit (n : Nat) : Char :=
  if n < 10 then Char.ofNat ('0'.toNat + n) else Char.ofNat ('a'.toNat + (n - 10))

/-- `{:016x}` of a number below `2 ^ 64`. -/
def hex16 (n : Nat) : Text :=
  (List.range 16).reverse.map fun k => hexDigit (n / 16 ^ k % 16)

/-- FNV-1a over 64 bits. -/
def stableHash (input : Text) : Text :=
  hex16 ((utf8Bytes input).foldl
    (fun hash byte => (hash ^^^ byte) * 0x100000001b3 % 2 ^ 64) 0xcbf29ce484222325)

def kindTag : MarkdownBlockKind → Text
  | .heading => "heading".toList
  | .paragraph => "paragraph".toList
  | .list => "list".toList
  | .codeFence => "code".toList
  | .table | .tableWithRows _ _ _ => "table".toList
  | .directive _ _ _ => "directive".toList

def blockHash (kind : MarkdownBlockKind) (text : Text) : Text :=
  stableHash (kindTag kind ++ [':'] ++ text)

/-! ## Line shapes -/

def isHeading (line : Text) : Bool :=
  let trimmed := trimStart line
  let level := (trimmed.takeWhile (· == '#')).length
  decide (1 ≤ level) && decide (level ≤ 6) && (trimmed[level]?).any isWhitespace

def orderedListMarker (line : Text) : Bool :=
  let digitCount := (line.takeWhile isAsciiDigit).length
  decide (0 < digitCount) && startsWith (line.drop digitCount) ". ".toList

def isListItem (line : Text) : Bool :=
  let trimmed := trimStart line
  decide (trimmed = "-".toList) || decide (trimmed = "*".toList) ||
    decide (trimmed = "+".toList) || startsWith trimmed "- ".toList ||
    startsWith trimmed "* ".toList || startsWith trimmed "+ ".toList ||
    startsWith trimmed "- [ ] ".toList || startsWith trimmed "- [x] ".toList ||
    orderedListMarker trimmed

def indentWidth (line : Text) : Nat :=
  ((line.takeWhile fun c => c == ' ' || c == '\t').map fun c => if c = '\t' then 4 else 1).sum

def isTableSeparator (line : Text) : Bool :=
  let trimmed := trim line
  containsText trimmed ['|'] &&
    trimmed.all (fun c => c == '|' || c == '-' || c == ':' || c == ' ') &&
    containsText trimmed ['-']

def isTableStart (ls : List Text) (start : Nat) : Bool :=
  match ls[start]?, ls[start + 1]? with
  | some line, some next => containsText line ['|'] && isTableSeparator next
  | _, _ => false

structure FenceMarker where
  markerChar : Char
  markerLen : Nat
  deriving DecidableEq, Repr

def fenceMarker (line : Text) : Option FenceMarker :=
  match trimStart line with
  | [] => none
  | markerChar :: chars =>
      if markerChar ≠ '`' ∧ markerChar ≠ '~' then none
      else
        let markerLen := 1 + (chars.takeWhile (· == markerChar)).length
        if markerLen < 3 then none else some ⟨markerChar, markerLen⟩

def isCodeFenceCloser (fence : FenceMarker) (line : Text) : Bool :=
  let trimmed := trimStart line
  let closingLen := (trimmed.takeWhile (· == fence.markerChar)).length
  decide (fence.markerLen ≤ closingLen) && (trim (trimmed.drop closingLen)).isEmpty

/-! ## Segmentation -/

def consumeWhile (ls : List Text) (start : Nat) (predicate : Text → Bool) : Nat :=
  start + ((ls.drop start).takeWhile predicate).length

def consumeCodeFence (ls : List Text) (start : Nat) (fence : FenceMarker) : Nat :=
  match (ls.drop (start + 1)).findIdx? (isCodeFenceCloser fence) with
  | some offset => start + offset + 2
  | none => ls.length

/-- A line that a list item goes on with: indented, and no item of its own. -/
def continuesListItem (startIndent : Nat) (line : Text) : Bool :=
  !(trim line).isEmpty &&
    !(isListItem line && decide (indentWidth line ≤ startIndent)) &&
    (startsWith line [' '] || startsWith line ['\t'])

/-- A line that a paragraph goes on with. -/
def continuesParagraph (tableStart : Bool) (line : Text) : Bool :=
  !(trim line).isEmpty && (parseDirectiveLine line 1).isNone && !isHeading line &&
    (fenceMarker line).isNone && !tableStart && !isListItem line

/-- Where the block that starts at a line ends; the line itself is at hand. -/
def blockEnd (ls : List Text) (start : Nat) (first : Text) : Nat :=
  if (parseDirectiveLine first (start + 1)).isSome || isHeading first then start + 1
  else
    match fenceMarker first with
    | some fence => consumeCodeFence ls start fence
    | none =>
        if isTableStart ls start then
          consumeWhile ls start fun line =>
            containsText line ['|'] && !(trim line).isEmpty
        else if isListItem first then
          consumeWhile ls (start + 1) (continuesListItem (indentWidth first))
        else consumeWhile ls start (continuesParagraph (isTableStart ls start))

def classifyBlock (ls : List Text) (start stop : Nat) (first : Text) : MarkdownBlockKind :=
  match parseDirectiveLine first (start + 1) with
  | some directive =>
      .directive directive.directiveType directive.raw directive.malformed
  | none =>
      if isHeading first then .heading
      else if (fenceMarker first).isSome then .codeFence
      else if isTableStart ls start then .table
      else if decide (start < stop) && isListItem first then .list
      else .paragraph

/-- The loop of `segment_markdown_body` from the given line index on. -/
def segmentFrom (ls : List Text) (bodyStartLine : Nat) : Nat → Nat → List SegmentedBlock
  | 0, _ => []
  | fuel + 1, index =>
      match ls[index]? with
      | none => []
      | some first =>
          if (trim first).isEmpty then segmentFrom ls bodyStartLine fuel (index + 1)
          else
            let stop := blockEnd ls index first
            let text := join ['\n'] (slice ls index stop)
            let kind := classifyBlock ls index stop first
            let remoteId :=
              if kind.isDirective then
                (parseDirectiveLine first (bodyStartLine + index)).bind Directive.remoteId
              else none
            { remoteId := remoteId
              kind := kind
              sourceSpan := ⟨bodyStartLine + index, bodyStartLine + stop - 1⟩
              contentHash := blockHash kind text
              text := text } :: segmentFrom ls bodyStartLine fuel stop

def segmentMarkdownBody (body : Text) (bodyStartLine : Nat) : List SegmentedBlock :=
  segmentFrom (lines body) bodyStartLine (lines body).length 0

/-! ## Equivalent renderings -/

/-- `str::find`. -/
def findText (t pattern : Text) : Option Nat :=
  (splitOnce pattern t).map fun p => p.1.length

def normalizeLocMediaTarget (target : Text) : Text :=
  if containsText target "://".toList then target
  else
    match findText target "/files/.loc/media/".toList with
    | some mediaStart => target.drop (mediaStart + "/files/".toList.length)
    | none =>
        match findText target ".loc/media/".toList with
        | none => target
        | some mediaStart => target.drop mediaStart

/-- The loop of `normalize_loc_media_hrefs`; every round takes a link opener. -/
def normalizeFrom : Nat → Text → Text
  | 0, rest => rest
  | fuel + 1, rest =>
      match splitOnce "](".toList rest with
      | none => rest
      | some (before, targetAndTail) =>
          match splitOnce [')'] targetAndTail with
          | none => before ++ "](".toList ++ targetAndTail
          | some (target, tail) =>
              before ++ "](".toList ++ normalizeLocMediaTarget target ++ [')'] ++
                normalizeFrom fuel tail

def normalizeLocMediaHrefs (body : Text) : Text := normalizeFrom body.length body

def renderedBodiesEquivalent (left right : Text) : Bool :=
  decide (left = right) ||
    decide (normalizeLocMediaHrefs left = normalizeLocMediaHrefs right)

theorem renderedBodiesEquivalent_iff (left right : Text) :
    renderedBodiesEquivalent left right = true ↔
      normalizeLocMediaHrefs left = normalizeLocMediaHrefs right := by
  simp only [renderedBodiesEquivalent, Bool.or_eq_true, decide_eq_true_eq]
  constructor
  · rintro (rfl | h)
    · rfl
    · exact h
  · exact Or.inr

theorem renderedBodiesEquivalent_refl (body : Text) :
    renderedBodiesEquivalent body body = true :=
  (renderedBodiesEquivalent_iff body body).mpr rfl

/-! ## Shadow documents -/

inductive ShadowBuildError where
  | missingNativeBlockId (line : Nat)
  | malformedDirective (line : Nat)
  | unusedNativeBlockId (remoteId : RemoteId)
  deriving DecidableEq, Repr

/-- The `Display` text of a build error. -/
def ShadowBuildError.display : ShadowBuildError → Text
  | missingNativeBlockId line =>
      "missing native block id for block starting on line ".toList ++ (toString line).toList
  | malformedDirective line =>
      "malformed directive in shadow on line ".toList ++ (toString line).toList
  | unusedNativeBlockId remoteId =>
      "unused native block id \x60".toList ++ remoteId.value ++ "\x60".toList

/-- The block of a shadow that a segmented block becomes under an id. -/
def SegmentedBlock.toShadow (self : SegmentedBlock) (remoteId : RemoteId) : ShadowBlock where
  remoteId := remoteId
  kind := self.kind
  sourceSpan := self.sourceSpan
  contentHash := self.contentHash
  text := self.text
  nativeKind := none

/-- The loop of `from_synced_body`: a block takes its own id, or the next native
one.  Returned with the native ids that are left. -/
def assignBlockIds : List SegmentedBlock → List RemoteId →
    Except ShadowBuildError (List ShadowBlock × List RemoteId)
  | [], nativeBlockIds => .ok ([], nativeBlockIds)
  | block :: blocks, nativeBlockIds =>
      match block.remoteId with
      | some remoteId =>
          (assignBlockIds blocks nativeBlockIds).map fun p =>
            (block.toShadow remoteId :: p.1, p.2)
      | none =>
          if block.kind.isDirective then
            .error (.malformedDirective block.sourceSpan.startLine)
          else
            match nativeBlockIds with
            | [] => .error (.missingNativeBlockId block.sourceSpan.startLine)
            | remoteId :: nativeBlockIds =>
                (assignBlockIds blocks nativeBlockIds).map fun p =>
                  (block.toShadow remoteId :: p.1, p.2)

namespace ShadowDocument

def fromSyncedBody (entityId : RemoteId) (body : Text) (bodyStartLine : Nat)
    (nativeBlockIds : List RemoteId) : Except ShadowBuildError ShadowDocument :=
  match assignBlockIds (segmentMarkdownBody body bodyStartLine) nativeBlockIds with
  | .error error => .error error
  | .ok (_, extraId :: _) => .error (.unusedNativeBlockId extraId)
  | .ok (blocks, []) => .ok {
      entityId := entityId
      frontmatter := []
      bodyHash := stableHash body
      renderedBody := body
      blocks := blocks }

def withFrontmatter (self : ShadowDocument) (frontmatter : Text) : ShadowDocument :=
  { self with frontmatter := frontmatter }

/-- No two blocks carry one id. -/
def DistinctIds (self : ShadowDocument) : Prop :=
  (self.blocks.map ShadowBlock.remoteId).Nodup

end ShadowDocument

/-! ## Segmentation does not depend on where the body starts -/

/-- A block without its place in the file. -/
def SegmentedBlock.content (self : SegmentedBlock) :
    Option RemoteId × MarkdownBlockKind × Text × Text :=
  (self.remoteId, self.kind, self.contentHash, self.text)

theorem parseDirectiveLine_remoteId (line : Text) (m n : Nat) :
    (parseDirectiveLine line m).bind Directive.remoteId =
      (parseDirectiveLine line n).bind Directive.remoteId := by
  simp only [parseDirectiveLine]
  cases directivePrefix (trim line) <;> rfl

theorem segmentFrom_content (ls : List Text) (m n fuel index : Nat) :
    (segmentFrom ls m fuel index).map SegmentedBlock.content =
      (segmentFrom ls n fuel index).map SegmentedBlock.content := by
  induction fuel generalizing index with
  | zero => rfl
  | succ fuel ih =>
      unfold segmentFrom
      cases ls[index]? with
      | none => rfl
      | some first =>
          simp only []
          split
          · exact ih (index + 1)
          · simp only [List.map_cons, ih, SegmentedBlock.content,
              parseDirectiveLine_remoteId first (m + index) (n + index)]

theorem segmentMarkdownBody_content (body : Text) (m n : Nat) :
    (segmentMarkdownBody body m).map SegmentedBlock.content =
      (segmentMarkdownBody body n).map SegmentedBlock.content :=
  segmentFrom_content (lines body) m n (lines body).length 0

end Locality.Core
