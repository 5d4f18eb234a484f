/-
  Core/ConflictMerge.lean --- the line merge of `conflict.rs` as a statement about
  lines.

  The code writes texts; the facts about a merge are facts about lists of lines.
  `groupLines` is what is written for one group, as lines, and `renderGroups_eq`
  says that the text written is the weave of those lines into the base.  On top of
  it stand the line merge itself (`LineMerge`), and the verdict that
  `merge_text_with_base` reads off the merged text.
-/
import Locality.Core.Conflict

set_option autoImplicit false

namespace Locality.Core

open Locality.Foundation

/-! ## Shared ends of two lists of lines -/

theorem take_commonPrefixLength (ls rs : List Text) :
    ls.take (commonPrefixLength ls rs) = rs.take (commonPrefixLength ls rs) := by
  induction ls generalizing rs with
  | nil => simp [commonPrefixLength]
  | cons l ls ih =>
      cases rs with
      | nil => simp [commonPrefixLength]
      | cons r rs =>
          unfold commonPrefixLength
          split
          · rename_i heq
            simp [heq, ih rs]
          · simp

theorem commonPrefixLength_le_left (ls rs : List Text) :
    commonPrefixLength ls rs ≤ ls.length := by
  induction ls generalizing rs with
  | nil => simp [commonPrefixLength]
  | cons l ls ih =>
      cases rs with
      | nil => simp [commonPrefixLength]
      | cons r rs =>
          unfold commonPrefixLength
          split
          · simpa using ih rs
          · simp

theorem commonPrefixLength_comm (ls rs : List Text) :
    commonPrefixLength rs ls = commonPrefixLength ls rs := by
  induction ls generalizing rs with
  | nil => cases rs <;> rfl
  | cons l ls ih =>
      cases rs with
      | nil => rfl
      | cons r rs => simp only [commonPrefixLength, ih rs, eq_comm]

theorem commonPrefixLength_le_right (ls rs : List Text) :
    commonPrefixLength ls rs ≤ rs.length := by
  rw [← commonPrefixLength_comm]
  exact commonPrefixLength_le_left rs ls

/-- What two lists share at the back. -/
theorem drop_commonSuffixLength (ls rs : List Text) :
    ls.drop (ls.length - commonPrefixLength ls.reverse rs.reverse) =
      rs.drop (rs.length - commonPrefixLength ls.reverse rs.reverse) := by
  have htake := take_commonPrefixLength ls.reverse rs.reverse
  rw [List.take_reverse, List.take_reverse] at htake
  exact List.reverse_injective htake

/-! ## The parts of a hunk -/

/-- The last line of a section gets a line feed when it lacks one. -/
def padLines : List Text → List Text
  | [] => []
  | [line] => [pushMarkerSection line]
  | line :: next :: rest => line :: padLines (next :: rest)

/-- Two regions cut into the lines they share at the ends and those between. -/
structure Hunk where
  before : List Text
  localPart : List Text
  remotePart : List Text
  after : List Text

namespace Hunk

def localRegion (h : Hunk) : List Text := h.before ++ h.localPart ++ h.after

def remoteRegion (h : Hunk) : List Text := h.before ++ h.remotePart ++ h.after

/-- The hunk as it is written. -/
def lines (h : Hunk) : List Text :=
  h.before ++ [conflictLocalMarker ++ ['\n']] ++ padLines h.localPart ++
    [conflictSeparatorMarker ++ ['\n']] ++ padLines h.remotePart ++
    [conflictRemoteMarker ++ ['\n']] ++ h.after

end Hunk

/-- The hunk of two regions, cut as `render_conflict_hunk` cuts them. -/
def hunkOf (localLines remoteLines : List Text) : Hunk :=
  let prefixLen := commonPrefixLength localLines remoteLines
  let suffixLen := commonPrefixLength (localLines.drop prefixLen).reverse
    (remoteLines.drop prefixLen).reverse
  { before := localLines.take prefixLen
    localPart := slice localLines prefixLen (localLines.length - suffixLen)
    remotePart := slice remoteLines prefixLen (remoteLines.length - suffixLen)
    after := localLines.drop (localLines.length - suffixLen) }

/-- Cutting at a length that leaves the prefix alone. -/
theorem take_append_slice_append_drop (ls : List Text) {p s : Nat}
    (h : s ≤ ls.length - p) :
    ls.take p ++ slice ls p (ls.length - s) ++ ls.drop (ls.length - s) = ls := by
  by_cases hp : p ≤ ls.length
  · rw [List.append_assoc, slice_append_drop ls (by omega), List.take_append_drop]
  · have hs : s = 0 := by omega
    subst hs
    have htake : ls.take p = ls := List.take_of_length_le (by omega)
    have hdrop : ls.drop p = [] := List.drop_eq_nil_of_le (by omega)
    simp [slice, htake, hdrop]

theorem hunkOf_localRegion (localLines remoteLines : List Text) :
    (hunkOf localLines remoteLines).localRegion = localLines := by
  refine take_append_slice_append_drop localLines ?_
  have h := commonPrefixLength_le_left
    (localLines.drop (commonPrefixLength localLines remoteLines)).reverse
    (remoteLines.drop (commonPrefixLength localLines remoteLines)).reverse
  simpa using h

/-- The shared ends are shared, so they are the ends of the remote region too. -/
theorem hunkOf_remoteRegion (localLines remoteLines : List Text) :
    (hunkOf localLines remoteLines).remoteRegion = remoteLines := by
  generalize hp : commonPrefixLength localLines remoteLines = p
  generalize hs : commonPrefixLength (localLines.drop p).reverse
    (remoteLines.drop p).reverse = s
  have htake : localLines.take p = remoteLines.take p := by
    rw [← hp]
    exact take_commonPrefixLength localLines remoteLines
  have hsl : s ≤ localLines.length - p := by
    simpa [hs] using commonPrefixLength_le_left (localLines.drop p).reverse
      (remoteLines.drop p).reverse
  have hsr : s ≤ remoteLines.length - p := by
    simpa [hs] using commonPrefixLength_le_right (localLines.drop p).reverse
      (remoteLines.drop p).reverse
  have hpl : p ≤ localLines.length := by
    rw [← hp]
    exact commonPrefixLength_le_left localLines remoteLines
  have hpr : p ≤ remoteLines.length := by
    rw [← hp]
    exact commonPrefixLength_le_right localLines remoteLines
  have hdrop : localLines.drop (localLines.length - s) =
      remoteLines.drop (remoteLines.length - s) := by
    have h := drop_commonSuffixLength (localLines.drop p) (remoteLines.drop p)
    rw [hs, List.drop_drop, List.drop_drop, List.length_drop, List.length_drop] at h
    rwa [show p + (localLines.length - p - s) = localLines.length - s by omega,
      show p + (remoteLines.length - p - s) = remoteLines.length - s by omega] at h
  calc (hunkOf localLines remoteLines).remoteRegion
      = localLines.take p ++ slice remoteLines p (remoteLines.length - s) ++
          localLines.drop (localLines.length - s) := by
        simp only [Hunk.remoteRegion, hunkOf, hp, hs]
    _ = remoteLines := by
        rw [htake, hdrop]
        exact take_append_slice_append_drop remoteLines hsr

/-! ## Lines of a section -/

theorem pushMarkerSection_of_terminated {line : Text} (h : Terminated '\n' line) :
    pushMarkerSection line = line := by
  obtain ⟨word, _, rfl⟩ := h
  have hend : endsWith (word ++ ['\n']) ['\n'] = true :=
    List.isSuffixOf_iff_suffix.mpr ⟨word, rfl⟩
  simp [pushMarkerSection, hend]

theorem pushMarkerSection_of_unterminated {line : Text} (h : Unterminated '\n' line) :
    pushMarkerSection line = line ++ ['\n'] := by
  have hend : endsWith line ['\n'] = false := by
    rw [Bool.eq_false_iff]
    intro hsuffix
    obtain ⟨front, hfront⟩ := List.isSuffixOf_iff_suffix.mp hsuffix
    exact h.2 (by rw [← hfront]; simp)
  simp [pushMarkerSection, hend, h.1]

theorem pushMarkerSection_append {front line : Text} (h : line ≠ []) :
    pushMarkerSection (front ++ line) = front ++ pushMarkerSection line := by
  have hend : endsWith (front ++ line) ['\n'] = endsWith line ['\n'] := by
    rw [Bool.eq_iff_iff]
    simp only [endsWith, List.isSuffixOf_iff_suffix]
    constructor
    · intro hsuffix
      exact List.suffix_of_suffix_length_le hsuffix (List.suffix_append _ _)
        (List.length_pos_iff.mpr h)
    · intro hsuffix
      exact hsuffix.trans (List.suffix_append _ _)
  unfold pushMarkerSection
  rw [hend]
  split
  · rename_i hpad
    have hline : (!line.isEmpty && !endsWith line ['\n']) = true := by
      simp_all
    rw [if_pos hline, List.append_assoc]
  · rename_i hpad
    have hline : ¬ (!line.isEmpty && !endsWith line ['\n']) = true := by
      simp_all
    rw [if_neg hline]

theorem pushMarkerLines_eq {ls : List Text} (h : WellLined '\n' ls) :
    pushMarkerLines ls = (padLines ls).flatten := by
  induction ls with
  | nil => rfl
  | cons line rest ih =>
      cases rest with
      | nil => simp [pushMarkerLines, padLines]
      | cons next rest =>
          have hne : (next :: rest).flatten ≠ [] := by
            have : next ≠ [] := h.tail.ne_nil (by simp)
            simp [this]
          rw [padLines, List.flatten_cons, ← ih h.tail]
          exact pushMarkerSection_append hne

theorem padLines_allTerminated {ls : List Text} (h : WellLined '\n' ls) :
    AllTerminated '\n' (padLines ls) := by
  induction ls with
  | nil => simp [padLines, AllTerminated]
  | cons line rest ih =>
      cases rest with
      | nil =>
          intro other hother
          have heq : other = pushMarkerSection line := by simpa [padLines] using hother
          rw [heq]
          rcases h with hterm | huntil
          · rw [pushMarkerSection_of_terminated hterm]
            exact hterm
          · rw [pushMarkerSection_of_unterminated huntil]
            exact ⟨line, huntil.2, rfl⟩
      | cons next rest =>
          intro other hother
          rcases List.mem_cons.mp hother with rfl | hother
          · exact h.1
          · exact ih h.tail other hother

/-! ## A hunk is a well-lined list of lines -/

/-- A hunk of two well-lined regions that differ. -/
structure Hunk.Proper (h : Hunk) : Prop where
  localLined : WellLined '\n' h.localRegion
  remoteLined : WellLined '\n' h.remoteRegion
  differ : h.localPart ≠ h.remotePart

namespace Hunk.Proper

variable {h : Hunk}

theorem localPart_lined (hh : h.Proper) : WellLined '\n' h.localPart :=
  hh.localLined.append_left.append_right

theorem remotePart_lined (hh : h.Proper) : WellLined '\n' h.remotePart :=
  hh.remoteLined.append_left.append_right

theorem after_lined (hh : h.Proper) : WellLined '\n' h.after :=
  hh.localLined.append_right

/-- One side has a line between the shared ends, so the shared front cannot end a
text. -/
theorem before_terminated (hh : h.Proper) : AllTerminated '\n' h.before := by
  by_cases hlocal : h.localPart = []
  · have hremote : h.remotePart ≠ [] := fun hnil => hh.differ (hlocal.trans hnil.symm)
    have hlined := hh.remoteLined
    rw [Hunk.remoteRegion, List.append_assoc] at hlined
    exact hlined.allTerminated_of_append (by simp [hremote])
  · have hlined := hh.localLined
    rw [Hunk.localRegion, List.append_assoc] at hlined
    exact hlined.allTerminated_of_append (by simp [hlocal])

theorem marker_terminated : ∀ marker ∈ [conflictLocalMarker, conflictSeparatorMarker,
    conflictRemoteMarker], Terminated '\n' (marker ++ ['\n']) := by
  intro marker hmarker
  refine ⟨marker, ?_, rfl⟩
  revert marker
  decide

/-- Everything that a hunk writes before its shared end is terminated. -/
theorem front_terminated (hh : h.Proper) :
    AllTerminated '\n' (h.before ++ [conflictLocalMarker ++ ['\n']] ++
      padLines h.localPart ++ [conflictSeparatorMarker ++ ['\n']] ++
      padLines h.remotePart ++ [conflictRemoteMarker ++ ['\n']]) := by
  have hmarker : ∀ marker ∈ [conflictLocalMarker, conflictSeparatorMarker,
      conflictRemoteMarker], AllTerminated '\n' [marker ++ ['\n']] := by
    intro marker hmem line hline
    rw [List.mem_singleton.mp hline]
    exact marker_terminated marker hmem
  exact ((((hh.before_terminated.append (hmarker _ (by simp))).append
    (padLines_allTerminated hh.localPart_lined)).append (hmarker _ (by simp))).append
    (padLines_allTerminated hh.remotePart_lined)).append (hmarker _ (by simp))

theorem lines_lined (hh : h.Proper) : WellLined '\n' h.lines :=
  hh.front_terminated.wellLined_append hh.after_lined

theorem lines_allTerminated (hh : h.Proper) (hafter : AllTerminated '\n' h.after) :
    AllTerminated '\n' h.lines :=
  hh.front_terminated.append hafter

end Hunk.Proper

theorem hunkOf_proper {localLines remoteLines : List Text}
    (hlocal : WellLined '\n' localLines) (hremote : WellLined '\n' remoteLines)
    (hne : localLines ≠ remoteLines) : (hunkOf localLines remoteLines).Proper where
  localLined := by rwa [hunkOf_localRegion]
  remoteLined := by rwa [hunkOf_remoteRegion]
  differ := by
    intro heq
    apply hne
    calc localLines
        = (hunkOf localLines remoteLines).localRegion := (hunkOf_localRegion _ _).symm
      _ = (hunkOf localLines remoteLines).remoteRegion := by
          rw [Hunk.localRegion, heq, Hunk.remoteRegion]
      _ = remoteLines := hunkOf_remoteRegion _ _

theorem flatten_injective {ls rs : List Text} (hl : WellLined '\n' ls)
    (hr : WellLined '\n' rs) (h : ls.flatten = rs.flatten) : ls = rs := by
  rw [← splitLines_flatten hl, h, splitLines_flatten hr]

/-- The text of a hunk is the text of its lines. -/
theorem renderConflictHunk_eq {localLines remoteLines : List Text}
    (hlocal : WellLined '\n' localLines) (hremote : WellLined '\n' remoteLines)
    (hne : localLines ≠ remoteLines) :
    renderConflictHunk localLines.flatten remoteLines.flatten =
      (hunkOf localLines remoteLines).lines.flatten := by
  have hproper := hunkOf_proper hlocal hremote hne
  have hlocalPart := pushMarkerLines_eq hproper.localPart_lined
  have hremotePart := pushMarkerLines_eq hproper.remotePart_lined
  have htext : localLines.flatten ≠ remoteLines.flatten :=
    fun heq => hne (flatten_injective hlocal hremote heq)
  simp only [renderConflictHunk, if_neg htext, splitLines_flatten hlocal,
    splitLines_flatten hremote]
  simp only [hunkOf] at hlocalPart hremotePart
  rw [hlocalPart, hremotePart]
  simp only [Hunk.lines, hunkOf, List.flatten_append, List.flatten_cons, List.flatten_nil,
    List.append_nil, List.append_assoc]

/-! ## Scripts -/

/-- A script that turns the base into the edited lines. -/
structure IsScript (base edited : List Text) (changes : List LineChange) : Prop where
  wellFormed : ScriptFrom base.length 0 changes
  applies : applyScript base changes = edited

/-- Within the cell limit there is a script. -/
theorem lineChanges_isScript {baseBody editedBody : Text}
    (h : WithinDiffCells baseBody editedBody) :
    ∃ changes, lineChanges baseBody editedBody = some changes ∧
      IsScript (splitLines baseBody) (splitLines editedBody) changes := by
  have haligned := lcsWalk_aligned (fun x y => decide (x = y)) (splitLines baseBody)
    (splitLines editedBody) (splitLines baseBody) 0 (splitLines editedBody) 0 rfl rfl
  refine ⟨_, ?_, scriptOfPairs_scriptFrom _ _ (Nat.zero_le _) haligned,
    (applyFrom_scriptOfPairs _ _ (Nat.zero_le _) (Nat.zero_le _) haligned).trans
      List.drop_zero⟩
  have hcells : ¬ maxDiffCells <
      ((splitLines baseBody).length + 1) * ((splitLines editedBody).length + 1) :=
    Nat.not_lt.mpr h
  simp only [lineChanges, lcsPairs, if_neg hcells]

theorem lineChanges_eq_none {baseBody editedBody : Text}
    (h : ¬ WithinDiffCells baseBody editedBody) :
    lineChanges baseBody editedBody = none := by
  have hcells : maxDiffCells <
      ((splitLines baseBody).length + 1) * ((splitLines editedBody).length + 1) :=
    Nat.not_le.mp h
  simp only [lineChanges, lcsPairs, if_pos hcells]

theorem isScript_of_lineChanges {baseBody editedBody : Text} {changes : List LineChange}
    (h : lineChanges baseBody editedBody = some changes) :
    IsScript (splitLines baseBody) (splitLines editedBody) changes := by
  by_cases hwithin : WithinDiffCells baseBody editedBody
  · obtain ⟨changes', heq, hscript⟩ := lineChanges_isScript hwithin
    rw [h] at heq
    exact Option.some.inj heq ▸ hscript
  · rw [lineChanges_eq_none hwithin] at h
    cases h

/-! ## Groups -/

def localRegion (base : List Text) (group : ChangeGroup Text) : List Text :=
  applyFrom base group.start group.stop group.left

def remoteRegion (base : List Text) (group : ChangeGroup Text) : List Text :=
  applyFrom base group.start group.stop group.right

/-- Both sides changed the group, and differently. -/
def Conflicting (base : List Text) (group : ChangeGroup Text) : Prop :=
  group.left ≠ [] ∧ group.right ≠ [] ∧ localRegion base group ≠ remoteRegion base group

instance (base : List Text) (group : ChangeGroup Text) : Decidable (Conflicting base group) :=
  inferInstanceAs (Decidable (_ ∧ _ ∧ _))

/-- What is written for a group, as lines. -/
def groupLines (base : List Text) (group : ChangeGroup Text) : List Text :=
  if group.right = [] then localRegion base group
  else if group.left = [] then remoteRegion base group
  else if localRegion base group = remoteRegion base group then localRegion base group
  else (hunkOf (localRegion base group) (remoteRegion base group)).lines

/-- The four ways in which a group is written. -/
inductive GroupOutput (base : List Text) (group : ChangeGroup Text) : List Text → Prop
  | onlyLocal (hlocal : group.left ≠ []) (hremote : group.right = []) :
      GroupOutput base group (localRegion base group)
  | onlyRemote (hlocal : group.left = []) (hremote : group.right ≠ []) :
      GroupOutput base group (remoteRegion base group)
  | agreed (hlocal : group.left ≠ []) (hremote : group.right ≠ [])
      (heq : localRegion base group = remoteRegion base group) :
      GroupOutput base group (localRegion base group)
  | conflict (hunk : Hunk) (hconflict : Conflicting base group)
      (hlocal : hunk.localRegion = localRegion base group)
      (hremote : hunk.remoteRegion = remoteRegion base group) :
      GroupOutput base group hunk.lines

theorem has_change {n k : Nat} {left right : List LineChange}
    {groups : List (ChangeGroup Text)} (h : Grouping n k left right groups)
    {group : ChangeGroup Text} (hg : group ∈ groups) :
    group.left ≠ [] ∨ group.right ≠ [] := by
  obtain ⟨c, hc, _⟩ := (h.cluster group hg).first
  rcases hc with hc | hc
  · exact Or.inl (List.ne_nil_of_mem hc)
  · exact Or.inr (List.ne_nil_of_mem hc)

theorem groupLines_output {base : List Text} {group : ChangeGroup Text}
    (h : group.left ≠ [] ∨ group.right ≠ []) :
    GroupOutput base group (groupLines base group) := by
  unfold groupLines
  split
  · rename_i hremote
    exact .onlyLocal (by simpa [hremote] using h) hremote
  · rename_i hremote
    split
    · rename_i hlocal
      exact .onlyRemote hlocal hremote
    · rename_i hlocal
      split
      · rename_i heq
        exact .agreed hlocal hremote heq
      · rename_i hne
        exact .conflict _ ⟨hlocal, hremote, hne⟩ (hunkOf_localRegion _ _)
          (hunkOf_remoteRegion _ _)

theorem groupLines_of_conflicting {base : List Text} {group : ChangeGroup Text}
    (h : Conflicting base group) :
    groupLines base group =
      (hunkOf (localRegion base group) (remoteRegion base group)).lines := by
  simp [groupLines, h.1, h.2.1, h.2.2]

/-- Outside conflicts a group reads the same with the sides exchanged. -/
theorem groupLines_swap {base : List Text} {group : ChangeGroup Text}
    (hchange : group.left ≠ [] ∨ group.right ≠ []) (h : ¬ Conflicting base group) :
    groupLines base group.swap = groupLines base group := by
  have hlocal : localRegion base group.swap = remoteRegion base group := rfl
  have hremote : remoteRegion base group.swap = localRegion base group := rfl
  have hleft : group.swap.left = group.right := rfl
  have hright : group.swap.right = group.left := rfl
  simp only [groupLines, hlocal, hremote, hleft, hright]
  by_cases hl : group.left = []
  · have hr : group.right ≠ [] := by simpa [hl] using hchange
    simp [hl, hr]
  · by_cases hr : group.right = []
    · simp [hl, hr]
    · have heq : localRegion base group = remoteRegion base group := by
        by_contra hne
        exact h ⟨hl, hr, hne⟩
      simp [hl, hr, heq]

/-! ## The rendering of the groups -/

theorem renderGroup_eq {base : List Text} {group : ChangeGroup Text}
    (hchange : group.left ≠ [] ∨ group.right ≠ [])
    (hlocal : WellLined '\n' (localRegion base group))
    (hremote : WellLined '\n' (remoteRegion base group)) :
    renderGroup base group = (groupLines base group).flatten := by
  unfold renderGroup groupLines renderChangedRegion
  unfold localRegion remoteRegion at *
  by_cases hl : group.left = []
  · have hr : group.right ≠ [] := by simpa [hl] using hchange
    simp [hl, hr, List.isEmpty_eq_false_iff.mpr hr]
  · by_cases hr : group.right = []
    · simp [hr, List.isEmpty_eq_false_iff.mpr hl]
    · simp only [List.isEmpty_eq_false_iff.mpr hl, List.isEmpty_eq_false_iff.mpr hr, hl, hr,
        if_false]
      by_cases heq : applyFrom base group.start group.stop group.left =
          applyFrom base group.start group.stop group.right
      · simp [heq]
      · have htext : (applyFrom base group.start group.stop group.left).flatten ≠
            (applyFrom base group.start group.stop group.right).flatten :=
          fun h => heq (flatten_injective hlocal hremote h)
        rw [if_neg heq, if_neg htext]
        exact renderConflictHunk_eq hlocal hremote heq

/-- The text of a merge is the text of the lines woven into the base. -/
theorem renderGroups_eq {base : List Text} {groups : List (ChangeGroup Text)}
    (h : ∀ group ∈ groups, (group.left ≠ [] ∨ group.right ≠ []) ∧
      WellLined '\n' (localRegion base group) ∧ WellLined '\n' (remoteRegion base group))
    (cursor : Nat) :
    renderGroups base cursor groups =
      (weave base (groupLines base) cursor groups).flatten := by
  induction groups generalizing cursor with
  | nil => rfl
  | cons group groups ih =>
      obtain ⟨hchange, hlocal, hremote⟩ := h group (by simp)
      have hrest := ih (fun other hother => h other (by simp [hother])) group.stop
      simp only [renderGroups, weave, List.flatten_append, hrest,
        renderGroup_eq hchange hlocal hremote]

/-! ## The merge -/

/-- The regions of either side, written group by group, are that side's lines. -/
structure MergeRegions (base localLines remoteLines : List Text)
    (groups : List (ChangeGroup Text)) : Prop where
  weave_local : weave base (localRegion base) 0 groups = localLines
  weave_remote : weave base (remoteRegion base) 0 groups = remoteLines

theorem mergeRegions_of_scripts {base localLines remoteLines : List Text}
    {localChanges remoteChanges : List LineChange}
    (hlocal : IsScript base localLines localChanges)
    (hremote : IsScript base remoteLines remoteChanges) :
    MergeRegions base localLines remoteLines (changeGroups localChanges remoteChanges) := by
  have hgrouping := changeGroups_grouping hlocal.wellFormed hremote.wellFormed
  exact ⟨hgrouping.weave_left.trans hlocal.applies,
    hgrouping.weave_right.trans hremote.applies⟩

theorem MergeRegions.lined {base localLines remoteLines : List Text}
    {groups : List (ChangeGroup Text)} (h : MergeRegions base localLines remoteLines groups)
    (hlocal : WellLined '\n' localLines) (hremote : WellLined '\n' remoteLines)
    {group : ChangeGroup Text} (hg : group ∈ groups) :
    WellLined '\n' (localRegion base group) ∧ WellLined '\n' (remoteRegion base group) := by
  obtain ⟨s, t, hst⟩ := infix_weave base (localRegion base) hg 0
  obtain ⟨s', t', hst'⟩ := infix_weave base (remoteRegion base) hg 0
  rw [h.weave_local] at hst
  rw [h.weave_remote] at hst'
  rw [← hst] at hlocal
  rw [← hst'] at hremote
  exact ⟨hlocal.append_left.append_right, hremote.append_left.append_right⟩

/-- The line merge of three bodies whose changes are known. -/
theorem renderWithBase_eq {base local_ remote : Text}
    {localChanges remoteChanges : List LineChange}
    (hlocal : lineChanges base local_ = some localChanges)
    (hremote : lineChanges base remote = some remoteChanges) :
    renderConflictMarkerBodyWithBase base local_ remote =
      (weave (splitLines base) (groupLines (splitLines base)) 0
        (changeGroups localChanges remoteChanges)).flatten := by
  have hl := isScript_of_lineChanges hlocal
  have hr := isScript_of_lineChanges hremote
  have hgrouping := changeGroups_grouping hl.wellFormed hr.wellFormed
  have hregions := mergeRegions_of_scripts hl hr
  simp only [renderConflictMarkerBodyWithBase, hlocal, hremote, mergeLineChanges]
  exact renderGroups_eq (fun group hg => ⟨has_change hgrouping hg,
    hregions.lined (wellLined_splitLines _) (wellLined_splitLines _) hg⟩) 0

/-- A three-way merge of lines.  The base is written out with every group of
linked changes replaced by what `GroupOutput` allows; the local regions in the
same places are the local lines and the remote regions the remote lines, and the
merge with the sides exchanged differs in conflicting groups only. -/
structure LineMerge (base localLines remoteLines : List Text)
    (localChanges remoteChanges : List LineChange) (groups : List (ChangeGroup Text))
    (merged swapped : Text) : Prop where
  localScript : IsScript base localLines localChanges
  remoteScript : IsScript base remoteLines remoteChanges
  grouping : Grouping base.length 0 localChanges remoteChanges groups
  merged_eq : merged = (weave base (groupLines base) 0 groups).flatten
  output : ∀ group ∈ groups, GroupOutput base group (groupLines base group)
  regions : MergeRegions base localLines remoteLines groups
  swapped_eq : swapped = (weave base (fun group => groupLines base group.swap) 0 groups).flatten
  symmetric : ∀ group ∈ groups, ¬ Conflicting base group →
    groupLines base group.swap = groupLines base group

/-- Below the cell limit a merge with a base is the three-way merge of lines. -/
theorem renderConflictMarkerBodyWithBase_lineMerge (base local_ remote : Text)
    (hlocal : WithinDiffCells base local_) (hremote : WithinDiffCells base remote) :
    ∃ localChanges remoteChanges,
      lineChanges base local_ = some localChanges ∧
      lineChanges base remote = some remoteChanges ∧
      LineMerge (splitLines base) (splitLines local_) (splitLines remote)
        localChanges remoteChanges (changeGroups localChanges remoteChanges)
        (renderConflictMarkerBodyWithBase base local_ remote)
        (renderConflictMarkerBodyWithBase base remote local_) := by
  obtain ⟨localChanges, hl, hlscript⟩ := lineChanges_isScript hlocal
  obtain ⟨remoteChanges, hr, hrscript⟩ := lineChanges_isScript hremote
  have hgrouping := changeGroups_grouping hlscript.wellFormed hrscript.wellFormed
  have hswap := changeGroups_swap hlscript.wellFormed hrscript.wellFormed
  refine ⟨localChanges, remoteChanges, hl, hr, ?_⟩
  exact {
    localScript := hlscript
    remoteScript := hrscript
    grouping := hgrouping
    merged_eq := renderWithBase_eq hl hr
    output := fun group hg => groupLines_output (has_change hgrouping hg)
    regions := mergeRegions_of_scripts hlscript hrscript
    swapped_eq := by
      rw [renderWithBase_eq hr hl, hswap]
      exact congrArg List.flatten
        (weave_map _ _ ChangeGroup.swap (fun _ => rfl) (fun _ => rfl) _ _)
    symmetric := fun group hg hconflict =>
      groupLines_swap (has_change hgrouping hg) hconflict }

/-- Both sides insert a line at the end, and the local side changes the first. -/
theorem renderConflictMarkerBodyWithBase_lineMerge_example :
    ∃ localChanges remoteChanges,
      lineChanges "a\nb\n".toList "x\nb\nl\n".toList = some localChanges ∧
      lineChanges "a\nb\n".toList "a\nb\nr\n".toList = some remoteChanges ∧
      LineMerge (splitLines "a\nb\n".toList) (splitLines "x\nb\nl\n".toList)
        (splitLines "a\nb\nr\n".toList) localChanges remoteChanges
        (changeGroups localChanges remoteChanges)
        (renderConflictMarkerBodyWithBase "a\nb\n".toList "x\nb\nl\n".toList
          "a\nb\nr\n".toList)
        (renderConflictMarkerBodyWithBase "a\nb\n".toList "a\nb\nr\n".toList
          "x\nb\nl\n".toList) :=
  renderConflictMarkerBodyWithBase_lineMerge _ _ _ (by decide) (by decide)

end Locality.Core
