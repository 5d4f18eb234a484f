/-
  Core/Conflict.lean --- the line-oriented three-way merge and the conflict-marker
  scanners of `locality-core/src/conflict.rs`.

  A merge compares the base with either side line by line (`lineChanges`), groups
  the changes of both sides that overlap or touch, and writes the base out with
  every group replaced by the side that changed it, or by a conflict hunk.  Above
  the cell limit of the difference table there is no comparison with the base and
  the two sides become one hunk.

  Three scanners read markers back: `unresolvedConflictMarkerLine`,
  `hasNestedConflictMarkers` and the stack parser `localBodyFromConflictMarkers`.
-/
import Locality.Foundation.ThreeWay
import Locality.Core.Text

set_option autoImplicit false

namespace Locality.Core

open Locality.Foundation

/-! ## Markers -/

def conflictLocalMarker : Text := "<<<<<<< LOCAL".toList
def conflictSeparatorMarker : Text := "=======".toList
def conflictRemoteMarker : Text := ">>>>>>> REMOTE".toList

/-- What a marker line opens, divides or closes. -/
inductive ConflictMarkerKind where
  | localStart
  | separator
  | remoteEnd
  deriving DecidableEq, Repr

/-- A line as the marker scanners compare it. -/
def markerText (line : Text) : Text :=
  trimStart (trimEndMatches '\r' (trimEndMatches '\n' line))

def conflictMarkerKind (line : Text) : Option ConflictMarkerKind :=
  let line := markerText line
  if startsWith line "<<<<<<<".toList then some .localStart
  else if trimEnd line = conflictSeparatorMarker then some .separator
  else if startsWith line ">>>>>>>".toList then some .remoteEnd
  else none

/-! ## Line changes -/

/-- A `LineChange`: base lines `[base_start, base_end)` replaced by lines. -/
abbrev LineChange : Type := Change Text

/-- `MAX_DIFF_CELLS`. -/
def maxDiffCells : Nat := 16000000

/-- The table of the two bodies is small enough to be built. -/
def WithinDiffCells (baseBody editedBody : Text) : Prop :=
  ((splitLines baseBody).length + 1) * ((splitLines editedBody).length + 1) ≤ maxDiffCells

instance (baseBody editedBody : Text) : Decidable (WithinDiffCells baseBody editedBody) :=
  inferInstanceAs (Decidable (_ ≤ _))

/-- The pairs of equal lines that the difference keeps.  A product that would
overflow is above the limit as well, so the checked multiplication is the plain
one. -/
def lcsPairs (baseLines editedLines : List Text) : Option (List (Nat × Nat)) :=
  if maxDiffCells < (baseLines.length + 1) * (editedLines.length + 1) then none
  else some (lcsWalk (fun x y => decide (x = y)) baseLines 0 editedLines 0)

/-- The changes from the base to the edited body.  `push_line_change` is
`changeBetween`, the loop over the pairs `scriptOfPairs`. -/
def lineChanges (baseBody editedBody : Text) : Option (List LineChange) :=
  let baseLines := splitLines baseBody
  let editedLines := splitLines editedBody
  match lcsPairs baseLines editedLines with
  | none => none
  | some pairs => some (scriptOfPairs baseLines editedLines 0 0 pairs)

/-! ## Rendering -/

def pushMarkerSection (section_ : Text) : Text :=
  if !section_.isEmpty && !endsWith section_ ['\n'] then section_ ++ ['\n'] else section_

def pushMarkerLines (ls : List Text) : Text := pushMarkerSection ls.flatten

/-- How many elements two lists share at the front. -/
def commonPrefixLength : List Text → List Text → Nat
  | l :: ls, r :: rs => if l = r then commonPrefixLength ls rs + 1 else 0
  | _, _ => 0

/-- One hunk of two bodies, without the lines they share at either end. -/
def renderConflictHunk (localBody remoteBody : Text) : Text :=
  if localBody = remoteBody then localBody
  else
    let localLines := splitLines localBody
    let remoteLines := splitLines remoteBody
    let prefixLen := commonPrefixLength localLines remoteLines
    -- the suffix is looked for behind the prefix only
    let suffixLen := commonPrefixLength (localLines.drop prefixLen).reverse
      (remoteLines.drop prefixLen).reverse
    let localSuffixStart := localLines.length - suffixLen
    let remoteSuffixStart := remoteLines.length - suffixLen
    (localLines.take prefixLen).flatten ++
      conflictLocalMarker ++ ['\n'] ++
      pushMarkerLines (slice localLines prefixLen localSuffixStart) ++
      conflictSeparatorMarker ++ ['\n'] ++
      pushMarkerLines (slice remoteLines prefixLen remoteSuffixStart) ++
      conflictRemoteMarker ++ ['\n'] ++
      (localLines.drop localSuffixStart).flatten

def renderConflictMarkerBody (localBody remoteBody : Text) : Text :=
  renderConflictHunk localBody remoteBody

def renderChangedRegion (baseLines : List Text) (start stop : Nat)
    (changes : List LineChange) : Text :=
  (applyFrom baseLines start stop changes).flatten

/-- What is written in the place of one group; the left side is the local one. -/
def renderGroup (baseLines : List Text) (group : ChangeGroup Text) : Text :=
  let localRegion := renderChangedRegion baseLines group.start group.stop group.left
  let remoteRegion := renderChangedRegion baseLines group.start group.stop group.right
  match group.left.isEmpty, group.right.isEmpty with
  | false, true => localRegion
  | true, false => remoteRegion
  | false, false =>
      if localRegion = remoteRegion then localRegion
      else renderConflictHunk localRegion remoteRegion
  | true, true => []

/-- The base from the cursor on, with every group in its place. -/
def renderGroups (baseLines : List Text) : Nat → List (ChangeGroup Text) → Text
  | baseCursor, [] => (baseLines.drop baseCursor).flatten
  | baseCursor, group :: groups =>
      (slice baseLines baseCursor group.start).flatten ++ renderGroup baseLines group ++
        renderGroups baseLines group.stop groups

/-- `merge_line_changes`: the outer loop finds a group and writes it.  The groups
do not depend on what is written, so they are found first. -/
def mergeLineChanges (baseBody : Text) (localChanges remoteChanges : List LineChange) :
    Text :=
  renderGroups (splitLines baseBody) 0 (changeGroups localChanges remoteChanges)

def renderConflictMarkerBodyWithBase (baseBody localBody remoteBody : Text) : Text :=
  match lineChanges baseBody localBody with
  | none => renderConflictMarkerBody localBody remoteBody
  | some localChanges =>
      match lineChanges baseBody remoteBody with
      | none => renderConflictMarkerBody localBody remoteBody
      | some remoteChanges => mergeLineChanges baseBody localChanges remoteChanges

inductive ThreeWayTextMerge where
  | clean (text : Text)
  | conflict (text : Text)
  deriving DecidableEq, Repr

namespace ThreeWayTextMerge

def isConflict : ThreeWayTextMerge → Bool
  | .clean _ => false
  | .conflict _ => true

end ThreeWayTextMerge

/-- The text holds all three marker strings, wherever they stand. -/
def containsAllMarkers (text : Text) : Bool :=
  containsText text conflictLocalMarker && containsText text conflictSeparatorMarker &&
    containsText text conflictRemoteMarker

def mergeTextWithBase (base local_ remote : Text) : ThreeWayTextMerge :=
  let merged := renderConflictMarkerBodyWithBase base local_ remote
  if containsAllMarkers merged then .conflict merged else .clean merged

/-! ## Scanning -/

/-- The loop of `unresolved_conflict_marker_line` from the given line index on. -/
def unresolvedFrom : Nat → Option Nat → Bool → List Text → Option Nat
  | _, _, _, [] => none
  | index, startLine, sawSeparator, line :: rest =>
      let line := trimStart (trimEndMatches '\r' line)
      if startsWith line "<<<<<<<".toList then
        unresolvedFrom (index + 1) (some (index + 1)) false rest
      else if startLine.isSome && decide (trimEnd line = conflictSeparatorMarker) then
        unresolvedFrom (index + 1) startLine true rest
      else if startLine.isSome && sawSeparator && startsWith line ">>>>>>>".toList then
        startLine
      else unresolvedFrom (index + 1) startLine sawSeparator rest

def unresolvedConflictMarkerLine (contents : Text) : Option Nat :=
  unresolvedFrom 0 none false (lines contents)

def hasUnresolvedConflictMarkers (contents : Text) : Bool :=
  (unresolvedConflictMarkerLine contents).isSome

/-- The loop of `has_nested_conflict_markers` at the given depth. -/
def nestedFrom : Nat → List Text → Bool
  | _, [] => false
  | depth, line :: rest =>
      match conflictMarkerKind line with
      | some .localStart => if 0 < depth then true else nestedFrom (depth + 1) rest
      | some .separator => nestedFrom depth rest
      | some .remoteEnd => nestedFrom (depth - 1) rest
      | none => nestedFrom depth rest

def hasNestedConflictMarkers (contents : Text) : Bool :=
  nestedFrom 0 (lines contents)

inductive ConflictMarkerParseState where
  | local_
  | remote
  deriving DecidableEq, Repr

/-- The loop of `local_body_from_conflict_markers`; the head of the stack is its
last element. -/
def localBodyFrom (output : Text) (sawConflict : Bool) :
    List ConflictMarkerParseState → List Text → Option Text
  | stack, [] => if !stack.isEmpty || !sawConflict then none else some output
  | stack, line :: rest =>
      match conflictMarkerKind line with
      | some .localStart => localBodyFrom output true (.local_ :: stack) rest
      | some .separator =>
          match stack with
          | .local_ :: below => localBodyFrom output sawConflict (.remote :: below) rest
          | _ => none
      | some .remoteEnd =>
          match stack with
          | .remote :: below => localBodyFrom output sawConflict below rest
          | _ => none
      | none =>
          if stack.all (· == .local_) then
            localBodyFrom (output ++ line) sawConflict stack rest
          else localBodyFrom output sawConflict stack rest

def localBodyFromConflictMarkers (body : Text) : Option Text :=
  localBodyFrom [] false [] (splitLines body)

end Locality.Core
