/-
  Core/MergeParts.lean --- a merge with a base cut into parts.

  Between the groups of changes all four texts read the same.  In a group each text has
  its own region, and where the bodies do not conflict the merged region is the local
  one, unless the local text left the region as it is in the base: then it is the
  remote one (`sound_mergeParts_iff`).  A conflict that is written is found again, as
  long as the remote body opens no conflict of its own.
-/
import Locality.Core.ConflictVerdict
import Locality.Core.ConflictRecover

set_option autoImplicit false

namespace Locality.Core

open Locality.Foundation

/-! ## Parts -/

/-- The lines of the four texts in one place. -/
structure MergePart where
  base : List Text
  local_ : List Text
  remote : List Text
  merged : List Text
  deriving DecidableEq, Repr

namespace MergePart

/-- Lines that the local text left alone are merged as they are remotely; lines that
it changed stay as it has them. -/
structure Sound (part : MergePart) : Prop where
  untouched : part.local_ = part.base → part.merged = part.remote
  touched : part.local_ ≠ part.base → part.merged = part.local_

def unchanged (lines : List Text) : MergePart := ⟨lines, lines, lines, lines⟩

theorem sound_unchanged (lines : List Text) : (unchanged lines).Sound :=
  ⟨fun _ => rfl, fun _ => rfl⟩

/-- The part of a group of changes. -/
def ofGroup (base : List Text) (group : ChangeGroup Text) : MergePart where
  base := slice base group.start group.stop
  local_ := localRegion base group
  remote := remoteRegion base group
  merged := groupLines base group

theorem sound_ofGroup {base : List Text} {group : ChangeGroup Text}
    (hchange : group.left ≠ [] ∨ group.right ≠ []) (h : ¬ Conflicting base group) :
    (ofGroup base group).Sound := by
  by_cases hleft : group.left = []
  · have hright : group.right ≠ [] := by simpa [hleft] using hchange
    have hlocal : localRegion base group = slice base group.start group.stop := by
      rw [localRegion, hleft]
      rfl
    have hlines : groupLines base group = remoteRegion base group := by
      simp [groupLines, hleft, hright]
    exact ⟨fun _ => hlines, fun hne => absurd hlocal hne⟩
  · have hlines := groupLines_of_not_conflicting hleft h
    refine ⟨fun hsame => ?_, fun _ => hlines⟩
    change localRegion base group = slice base group.start group.stop at hsame
    change groupLines base group = remoteRegion base group
    rw [hlines]
    by_cases hright : group.right = []
    · rw [hsame, remoteRegion, hright]
      rfl
    · by_contra hne
      exact h ⟨hleft, hright, hne⟩

theorem length_padLines (ls : List Text) : (padLines ls).length = ls.length := by
  induction ls with
  | nil => rfl
  | cons line rest ih =>
      cases rest with
      | nil => rfl
      | cons next rest => simpa [padLines] using ih

/-- A written hunk has three lines more than either of its sides and what they share. -/
theorem length_hunk (h : Hunk) :
    h.lines.length =
      h.before.length + h.localPart.length + h.remotePart.length + h.after.length + 3 := by
  simp only [Hunk.lines, List.length_append, length_padLines, List.length_singleton]
  omega

/-- No side of a conflict is what is written for it. -/
theorem not_sound_of_hunk {part : MergePart} (h : Hunk) (hlocal : h.localRegion = part.local_)
    (hremote : h.remoteRegion = part.remote) (hmerged : part.merged = h.lines) :
    ¬ part.Sound := by
  intro hsound
  have hlength := length_hunk h
  have hlocalLength := congrArg List.length hlocal
  have hremoteLength := congrArg List.length hremote
  rw [Hunk.localRegion, List.length_append, List.length_append] at hlocalLength
  rw [Hunk.remoteRegion, List.length_append, List.length_append] at hremoteLength
  rw [← hmerged] at hlength
  by_cases hsame : part.local_ = part.base
  · rw [hsound.untouched hsame] at hlength
    omega
  · rw [hsound.touched hsame] at hlength
    omega

end MergePart

open MergePart

def mergePartsFrom (base : List Text) : Nat → List (ChangeGroup Text) → List MergePart
  | cursor, [] => [unchanged (base.drop cursor)]
  | cursor, group :: groups =>
      unchanged (slice base cursor group.start) :: ofGroup base group ::
        mergePartsFrom base group.stop groups

/-- The parts of a merge; bodies that are not compared with the base are one part. -/
def mergeParts (base local_ remote : Text) : List MergePart :=
  match lineChanges base local_, lineChanges base remote with
  | some localChanges, some remoteChanges =>
      mergePartsFrom (splitLines base) 0 (changeGroups localChanges remoteChanges)
  | _, _ =>
      [⟨splitLines base, splitLines local_, splitLines remote,
        if local_ = remote then splitLines local_
        else (hunkOf (splitLines local_) (splitLines remote)).lines⟩]

theorem flatMap_mergePartsFrom (base : List Text) {side : MergePart → List Text}
    {region : ChangeGroup Text → List Text} (hunchanged : ∀ lines, side (unchanged lines) = lines)
    (hgroup : ∀ group, side (ofGroup base group) = region group)
    (groups : List (ChangeGroup Text)) (cursor : Nat) :
    (mergePartsFrom base cursor groups).flatMap side = weave base region cursor groups := by
  induction groups generalizing cursor with
  | nil => simp [mergePartsFrom, weave, hunchanged]
  | cons group groups ih => simp [mergePartsFrom, weave, hunchanged, hgroup, ih]

/-- The base is the weave of what it has in the groups itself. -/
theorem weave_base {base : List Text} {groups : List (ChangeGroup Text)} {cursor : Nat}
    (h : Weavable base cursor groups) :
    weave base (fun group => slice base group.start group.stop) cursor groups =
      base.drop cursor := by
  induction groups generalizing cursor with
  | nil => rfl
  | cons group groups ih =>
      obtain ⟨hstart, hwidth, -⟩ := h.bounds group (by simp)
      rw [weave, ih h.tail, List.append_assoc, slice_append_drop base hwidth,
        slice_append_drop base hstart]

/-- The parts in a row are the four texts. -/
structure MergeDecomposition (parts : List MergePart) (base local_ remote merged : Text) :
    Prop where
  base_eq : parts.flatMap MergePart.base = splitLines base
  local_eq : parts.flatMap MergePart.local_ = splitLines local_
  remote_eq : parts.flatMap MergePart.remote = splitLines remote
  merged_eq : (parts.flatMap MergePart.merged).flatten = merged

theorem mergeParts_above_limit {base local_ remote : Text}
    (hlimit : ¬ (WithinDiffCells base local_ ∧ WithinDiffCells base remote)) :
    mergeParts base local_ remote =
      [⟨splitLines base, splitLines local_, splitLines remote,
        if local_ = remote then splitLines local_
        else (hunkOf (splitLines local_) (splitLines remote)).lines⟩] := by
  unfold mergeParts
  split
  · rename_i hlocal hremote
    exact absurd ⟨within_of_lineChanges hlocal, within_of_lineChanges hremote⟩ hlimit
  · rfl

theorem decomposition_mergeParts (base local_ remote : Text) :
    MergeDecomposition (mergeParts base local_ remote) base local_ remote
      (renderConflictMarkerBodyWithBase base local_ remote) := by
  by_cases hlimit : WithinDiffCells base local_ ∧ WithinDiffCells base remote
  · obtain ⟨localChanges, hlocal, hlscript⟩ := lineChanges_isScript hlimit.1
    obtain ⟨remoteChanges, hremote, hrscript⟩ := lineChanges_isScript hlimit.2
    have hregions := mergeRegions_of_scripts hlscript hrscript
    simp only [mergeParts, hlocal, hremote]
    refine ⟨?_, ?_, ?_, ?_⟩
    · exact (flatMap_mergePartsFrom _ (fun _ => rfl) (fun _ => rfl) _ _).trans
        (weave_base (Grouping.weavable hlscript hrscript))
    · exact (flatMap_mergePartsFrom _ (fun _ => rfl) (fun _ => rfl) _ _).trans
        hregions.weave_local
    · exact (flatMap_mergePartsFrom _ (fun _ => rfl) (fun _ => rfl) _ _).trans
        hregions.weave_remote
    · rw [flatMap_mergePartsFrom _ (fun _ => rfl) (fun _ => rfl), renderWithBase_eq hlocal hremote]
      rfl
  · rw [mergeParts_above_limit hlimit, render_above_limit hlimit, renderConflictMarkerBody]
    refine ⟨List.append_nil _, List.append_nil _, List.append_nil _, ?_⟩
    rw [List.flatMap_singleton]
    by_cases hsame : local_ = remote
    · rw [if_pos hsame, hsame, renderConflictHunk_self, flatten_splitLines]
    · rw [if_neg hsame, renderConflictHunk_of_ne hsame]

theorem mem_mergePartsFrom {base : List Text} {groups : List (ChangeGroup Text)} {cursor : Nat}
    {part : MergePart} (h : part ∈ mergePartsFrom base cursor groups) :
    (∃ lines, part = unchanged lines) ∨ ∃ group ∈ groups, part = ofGroup base group := by
  induction groups generalizing cursor with
  | nil => exact .inl ⟨_, List.mem_singleton.mp h⟩
  | cons group groups ih =>
      obtain h | h := List.mem_cons.mp h
      · exact .inl ⟨_, h⟩
      · obtain h | h := List.mem_cons.mp h
        · exact .inr ⟨group, by simp, h⟩
        · obtain hgap | ⟨other, hother, heq⟩ := ih h
          · exact .inl hgap
          · exact .inr ⟨other, by simp [hother], heq⟩

theorem ofGroup_mem_mergePartsFrom {base : List Text} {groups : List (ChangeGroup Text)}
    {group : ChangeGroup Text} (h : group ∈ groups) (cursor : Nat) :
    ofGroup base group ∈ mergePartsFrom base cursor groups := by
  induction groups generalizing cursor with
  | nil => simp at h
  | cons other groups ih =>
      obtain rfl | h := List.mem_cons.mp h
      · simp [mergePartsFrom]
      · simp [mergePartsFrom, ih h]

/-- The merge keeps either side's changes throughout exactly where the bodies do not
conflict. -/
theorem sound_mergeParts_iff (base local_ remote : Text) :
    (∀ part ∈ mergeParts base local_ remote, part.Sound) ↔
      ¬ BodiesConflict base local_ remote := by
  by_cases hlimit : WithinDiffCells base local_ ∧ WithinDiffCells base remote
  · obtain ⟨localChanges, hlocal, hlscript⟩ := lineChanges_isScript hlimit.1
    obtain ⟨remoteChanges, hremote, hrscript⟩ := lineChanges_isScript hlimit.2
    have hgrouping := changeGroups_grouping hlscript.wellFormed hrscript.wellFormed
    simp only [mergeParts, BodiesConflict, hlocal, hremote]
    constructor
    · rintro h ⟨group, hg, hconflict⟩
      refine @not_sound_of_hunk (ofGroup (splitLines base) group) _
        (hunkOf_localRegion _ _) (hunkOf_remoteRegion _ _)
        (groupLines_of_conflicting hconflict) ?_
      exact h _ (ofGroup_mem_mergePartsFrom hg 0)
    · intro h part hpart
      obtain ⟨lines, rfl⟩ | ⟨group, hg, rfl⟩ := mem_mergePartsFrom hpart
      · exact sound_unchanged lines
      · exact sound_ofGroup (has_change hgrouping hg) fun hconflict => h ⟨group, hg, hconflict⟩
  · rw [mergeParts_above_limit hlimit, bodiesConflict_above_limit hlimit, not_not]
    constructor
    · intro h
      by_contra hne
      have hpart := h _ (List.mem_singleton_self _)
      rw [if_neg hne] at hpart
      exact not_sound_of_hunk _ (hunkOf_localRegion _ _) (hunkOf_remoteRegion _ _) rfl hpart
    · rintro rfl part hpart
      rw [List.mem_singleton] at hpart
      subst hpart
      exact ⟨fun _ => if_pos rfl, fun _ => if_pos rfl⟩

/-! ## Stretches that the local text left alone -/

/-- The text stands in the remote body over a stretch of parts none of which the local
body changed. -/
def LeftAlone (base local_ remote text : Text) : Prop :=
  ∃ stretch, stretch <:+: mergeParts base local_ remote ∧
    (∀ part ∈ stretch, part.local_ = part.base) ∧
    text <:+: (stretch.flatMap MergePart.remote).flatten

/-- What the local body left alone is in the merge as it is in the remote body. -/
theorem LeftAlone.infix_merge {base local_ remote text : Text}
    (h : LeftAlone base local_ remote text) (hclean : ¬ BodiesConflict base local_ remote) :
    text <:+: renderConflictMarkerBodyWithBase base local_ remote := by
  obtain ⟨stretch, hstretch, halone, htext⟩ := h
  have hsound := (sound_mergeParts_iff base local_ remote).mpr hclean
  have hmerged : stretch.flatMap MergePart.merged = stretch.flatMap MergePart.remote := by
    rw [List.flatMap_def, List.flatMap_def]
    refine congrArg List.flatten (List.map_congr_left fun part hpart => ?_)
    exact (hsound part (hstretch.subset hpart)).untouched (halone part hpart)
  rw [← hmerged] at htext
  rw [← (decomposition_mergeParts base local_ remote).merged_eq]
  refine htext.trans (flatten_isInfix ?_)
  obtain ⟨before, after, heq⟩ := hstretch
  rw [← heq, List.flatMap_append, List.flatMap_append]
  exact ⟨_, _, rfl⟩

/-! ## Written conflicts are found -/

def opensConflict (line : Text) : Bool := startsWith (markerText line) "<<<<<<<".toList

/-- No line of the body opens a conflict. -/
def OpensNoConflict (body : Text) : Prop := ∀ line ∈ splitLines body, opensConflict line = false

theorem opensConflict_pushMarkerSection {line : Text}
    (h : Terminated '\n' line ∨ Unterminated '\n' line) :
    opensConflict (pushMarkerSection line) = opensConflict line := by
  obtain hterm | huntil := h
  · rw [pushMarkerSection_of_terminated hterm]
  · rw [pushMarkerSection_of_unterminated huntil, opensConflict, markerText_append_newline]
    rfl

theorem opensConflict_padLines {ls : List Text} (hlined : WellLined '\n' ls)
    (h : ∀ line ∈ ls, opensConflict line = false) :
    ∀ line ∈ padLines ls, opensConflict line = false := by
  induction ls with
  | nil => simp [padLines]
  | cons line rest ih =>
      intro other hother
      cases rest with
      | nil =>
          have heq : other = pushMarkerSection line := by simpa [padLines] using hother
          rw [heq, opensConflict_pushMarkerSection hlined]
          exact h line (by simp)
      | cons next rest =>
          obtain rfl | hother := List.mem_cons.mp hother
          · exact h other (by simp)
          · exact ih hlined.tail (fun l hl => h l (by simp [hl])) other hother

/-- Behind a separator the remote marker ends the conflict. -/
theorem unresolvedKinds_remote {remote : List Text}
    (hremote : ∀ line ∈ remote, opensConflict line = false) (rest : List Text)
    (index : Nat) (start : Nat) :
    (unresolvedKinds index (some start) true
      (remote ++ (conflictRemoteMarker ++ ['\n']) :: rest)).isSome = true := by
  obtain ⟨-, -, -, hr, hr', hr''⟩ := markerText_markers
  induction remote generalizing index with
  | nil =>
      rw [List.nil_append, unresolvedKinds]
      simp only [hr, hr', hr'', Option.isSome_some, decide_false, Bool.and_true, Bool.and_false,
        Bool.false_eq_true, if_false, if_true]
  | cons line remote ih =>
      have hline : startsWith (markerText line) "<<<<<<<".toList = false :=
        hremote line (by simp)
      have hrest := fun i => ih (fun l hl => hremote l (by simp [hl])) i
      rw [List.cons_append, unresolvedKinds]
      simp only [hline, Bool.false_eq_true, if_false]
      split
      · exact hrest _
      · split
        · rfl
        · exact hrest _

/-- In an open conflict the separator is found. -/
theorem unresolvedKinds_local {remote : List Text}
    (hremote : ∀ line ∈ remote, opensConflict line = false) (local_ rest : List Text)
    (index start : Nat) (sawSeparator : Bool) :
    (unresolvedKinds index (some start) sawSeparator (local_ ++
      (conflictSeparatorMarker ++ ['\n']) :: (remote ++
        (conflictRemoteMarker ++ ['\n']) :: rest))).isSome = true := by
  obtain ⟨-, hs, hs', -⟩ := markerText_markers
  induction local_ generalizing index start sawSeparator with
  | nil =>
      rw [List.nil_append, unresolvedKinds]
      simp only [hs, hs', Option.isSome_some, decide_true, Bool.and_true, Bool.false_eq_true,
        if_false, if_true]
      exact unresolvedKinds_remote hremote rest _ _
  | cons line local_ ih =>
      rw [List.cons_append, unresolvedKinds]
      split
      · exact ih _ _ _
      · split
        · exact ih _ _ _
        · split
          · rfl
          · exact ih _ _ _

/-- Before a conflict nothing hides it. -/
theorem unresolvedKinds_hunk {remote : List Text}
    (hremote : ∀ line ∈ remote, opensConflict line = false) (before local_ rest : List Text)
    (index : Nat) (startLine : Option Nat) (sawSeparator : Bool) :
    (unresolvedKinds index startLine sawSeparator (before ++
      (conflictLocalMarker ++ ['\n']) :: (local_ ++
        (conflictSeparatorMarker ++ ['\n']) :: (remote ++
          (conflictRemoteMarker ++ ['\n']) :: rest)))).isSome = true := by
  obtain ⟨hl, -⟩ := markerText_markers
  induction before generalizing index startLine sawSeparator with
  | nil =>
      rw [List.nil_append, unresolvedKinds]
      simp only [hl, if_true]
      exact unresolvedKinds_local hremote local_ rest _ _ _
  | cons line before ih =>
      rw [List.cons_append, unresolvedKinds]
      split
      · exact ih _ _ _
      · split
        · exact ih _ _ _
        · split
          · rename_i hend
            simp only [Bool.and_eq_true] at hend
            exact hend.1.1
          · exact ih _ _ _

/-- A hunk that is written into lines behind a front of whole lines is found. -/
theorem hasUnresolvedConflictMarkers_of_hunk {front ls : List Text} {h : Hunk}
    (hfront : AllTerminated '\n' front) (hlined : WellLined '\n' ls) (hwritten : h.lines <:+: ls)
    (hpart : WellLined '\n' h.remotePart)
    (hremote : ∀ line ∈ h.remotePart, opensConflict line = false) :
    hasUnresolvedConflictMarkers (front.flatten ++ ls.flatten) = true := by
  have hwhole : WellLined '\n' (front ++ ls) := hfront.wellLined_append hlined
  rw [hasUnresolvedConflictMarkers, unresolvedConflictMarkerLine, lines, ← List.flatten_append,
    splitLines_flatten hwhole, unresolvedFrom_stripped fun line hline => hwhole.line_cases hline]
  obtain ⟨before, after, heq⟩ := hwritten
  have hcut : front ++ ls = (front ++ before ++ h.before) ++
      (conflictLocalMarker ++ ['\n']) :: (padLines h.localPart ++
        (conflictSeparatorMarker ++ ['\n']) :: (padLines h.remotePart ++
          (conflictRemoteMarker ++ ['\n']) :: (h.after ++ after))) := by
    rw [← heq]
    simp [Hunk.lines]
  rw [hcut]
  exact unresolvedKinds_hunk (opensConflict_padLines hpart hremote) _ _ _ _ _ _

theorem opensConflict_hunk {remote : Text} {remoteLines localLines : List Text}
    (hremote : OpensNoConflict remote) (hwithin : remoteLines <:+: splitLines remote) :
    ∀ line ∈ (hunkOf localLines remoteLines).remotePart, opensConflict line = false := by
  intro line hline
  refine hremote line (hwithin.subset ?_)
  rw [← hunkOf_remoteRegion localLines remoteLines]
  simp [Hunk.remoteRegion, hline]

/-- Two bodies that differ are written as a conflict that is found. -/
theorem hasUnresolvedConflictMarkers_of_ne {front : List Text} {local_ remote : Text}
    (hfront : AllTerminated '\n' front) (hremote : OpensNoConflict remote)
    (hne : local_ ≠ remote) :
    hasUnresolvedConflictMarkers (front.flatten ++ renderConflictMarkerBody local_ remote) =
      true := by
  have hlines : splitLines local_ ≠ splitLines remote :=
    fun heq => hne (splitInclusive_injective '\n' heq)
  have hproper := hunkOf_proper (wellLined_splitLines local_) (wellLined_splitLines remote) hlines
  rw [renderConflictMarkerBody, renderConflictHunk_of_ne hne]
  exact hasUnresolvedConflictMarkers_of_hunk hfront hproper.lines_lined (List.infix_refl _)
    hproper.remotePart_lined (opensConflict_hunk hremote (List.infix_refl _))

/-- Bodies that conflict are written as a conflict that is found. -/
theorem hasUnresolvedConflictMarkers_of_bodiesConflict {front : List Text}
    {base local_ remote : Text} (hfront : AllTerminated '\n' front)
    (hremote : OpensNoConflict remote) (h : BodiesConflict base local_ remote) :
    hasUnresolvedConflictMarkers
      (front.flatten ++ renderConflictMarkerBodyWithBase base local_ remote) = true := by
  by_cases hlimit : WithinDiffCells base local_ ∧ WithinDiffCells base remote
  · obtain ⟨localChanges, hl, hlscript⟩ := lineChanges_isScript hlimit.1
    obtain ⟨remoteChanges, hr, hrscript⟩ := lineChanges_isScript hlimit.2
    have hregions := mergeRegions_of_scripts hlscript hrscript
    simp only [BodiesConflict, hl, hr] at h
    obtain ⟨group, hg, hconflict⟩ := h
    have hlined := hregions.lined (wellLined_splitLines local_) (wellLined_splitLines remote) hg
    have hproper := hunkOf_proper hlined.1 hlined.2 hconflict.2.2
    have hwritten := infix_weave (splitLines base) (groupLines (splitLines base)) hg 0
    have hpart := infix_weave (splitLines base) (remoteRegion (splitLines base)) hg 0
    rw [groupLines_of_conflicting hconflict] at hwritten
    rw [hregions.weave_remote] at hpart
    rw [renderWithBase_eq hl hr]
    refine hasUnresolvedConflictMarkers_of_hunk hfront ?_ hwritten hproper.remotePart_lined
      (opensConflict_hunk hremote hpart)
    refine wellLined_weave (Grouping.weavable hlscript hrscript) (wellLined_splitLines base)
      ?_ ?_
    · rw [hregions.weave_local]
      exact wellLined_splitLines local_
    · rw [hregions.weave_remote]
      exact wellLined_splitLines remote
  · rw [render_above_limit hlimit]
    exact hasUnresolvedConflictMarkers_of_ne hfront hremote
      ((bodiesConflict_above_limit hlimit).mp h)

end Locality.Core
