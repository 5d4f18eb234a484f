/-
  Core/ConflictVerdict.lean --- when `merge_text_with_base` says that a merge is
  clean, and when it says that it is a conflict.

  The verdict is read off the merged text: a text that holds the three marker
  strings is a conflict.  A written hunk always holds them, so every conflicting
  group is reported.  The converse needs that the merged lines do not hold them
  by themselves.  Above the cell limit the base is not looked at and the two
  bodies are one group.
-/
import Locality.Core.ConflictMerge

set_option autoImplicit false

namespace Locality.Core

open Locality.Foundation

/-! ## Texts that hold the markers -/

theorem flatten_isInfix {ls ms : List Text} (h : ls <:+: ms) : ls.flatten <:+: ms.flatten := by
  obtain ⟨before, after, rfl⟩ := h
  exact ⟨before.flatten, after.flatten, by simp⟩

theorem containsAllMarkers_iff (t : Text) :
    containsAllMarkers t = true ↔ conflictLocalMarker <:+: t ∧
      conflictSeparatorMarker <:+: t ∧ conflictRemoteMarker <:+: t := by
  simp only [containsAllMarkers, Bool.and_eq_true, containsText_iff_isInfix, and_assoc]

theorem containsAllMarkers_of_isInfix {s t : Text} (h : s <:+: t)
    (hs : containsAllMarkers s = true) : containsAllMarkers t = true := by
  rw [containsAllMarkers_iff] at hs ⊢
  exact ⟨hs.1.trans h, hs.2.1.trans h, hs.2.2.trans h⟩

/-- A written hunk holds the three markers. -/
theorem Hunk.containsAllMarkers_lines (h : Hunk) :
    containsAllMarkers h.lines.flatten = true := by
  have hline : ∀ marker, marker ++ ['\n'] ∈ h.lines → marker <:+: h.lines.flatten := by
    intro marker hmem
    obtain ⟨before, after, heq⟩ := List.append_of_mem hmem
    refine ⟨before.flatten, '\n' :: after.flatten, ?_⟩
    rw [heq]
    simp
  rw [containsAllMarkers_iff]
  refine ⟨hline _ ?_, hline _ ?_, hline _ ?_⟩ <;> simp [Hunk.lines]

theorem renderConflictHunk_of_ne {localBody remoteBody : Text} (h : localBody ≠ remoteBody) :
    renderConflictHunk localBody remoteBody =
      (hunkOf (splitLines localBody) (splitLines remoteBody)).lines.flatten := by
  have hne : splitLines localBody ≠ splitLines remoteBody :=
    fun heq => h (splitInclusive_injective '\n' heq)
  have hhunk := renderConflictHunk_eq (wellLined_splitLines localBody)
    (wellLined_splitLines remoteBody) hne
  rwa [flatten_splitLines, flatten_splitLines] at hhunk

/-! ## A base that is also one side -/

theorem scriptOfPairs_diagonal (ls : List Text) (start count : Nat)
    (h : start + count = ls.length) :
    scriptOfPairs ls ls start start ((List.range count).map fun k => (start + k, start + k)) =
      [] := by
  induction count generalizing start with
  | zero => simp [scriptOfPairs, changeBetween]
  | succ count ih =>
      have hrest := ih (start + 1) (by omega)
      have hmap : ((fun k => (start + k, start + k)) ∘ Nat.succ) =
          fun k => (start + 1 + k, start + 1 + k) := by
        funext k
        simp only [Function.comp_apply, Prod.mk.injEq]
        omega
      rw [List.range_succ_eq_map, List.map_cons, List.map_map, hmap]
      simp only [Nat.add_zero, scriptOfPairs, hrest, List.append_nil]
      simp [changeBetween]

/-- A body has no changes against itself. -/
theorem lineChanges_self {body : Text} (h : WithinDiffCells body body) :
    lineChanges body body = some [] := by
  have hcells : ¬ maxDiffCells <
      ((splitLines body).length + 1) * ((splitLines body).length + 1) := Nat.not_lt.mpr h
  have hsame : List.Forall₂ (fun x y : Text => decide (x = y) = true)
      (splitLines body) (splitLines body) :=
    List.forall₂_same.mpr fun _ _ => decide_eq_true rfl
  simp only [lineChanges, lcsPairs, if_neg hcells, lcsWalk_of_forall₂ _ hsame]
  exact congrArg some (scriptOfPairs_diagonal _ 0 _ (Nat.zero_add _))

/-- Without changes on one side every group has changes of the other only. -/
theorem left_nil_of_grouping {n : Nat} {right : List LineChange}
    {groups : List (ChangeGroup Text)} (h : Grouping n 0 [] right groups) :
    ∀ group ∈ groups, group.left = [] := by
  intro group hg
  have hnil := h.left_eq
  rw [List.flatMap_eq_nil_iff] at hnil
  exact hnil group hg

theorem render_of_base_left {base x : Text} (hbase : WithinDiffCells base base)
    (hx : WithinDiffCells base x) : renderConflictMarkerBodyWithBase base base x = x := by
  obtain ⟨changes, hchanges, hscript⟩ := lineChanges_isScript hx
  have hself := lineChanges_self hbase
  have hselfScript := isScript_of_lineChanges hself
  have hgrouping := changeGroups_grouping hselfScript.wellFormed hscript.wellFormed
  have hlines : ∀ group ∈ changeGroups [] changes,
      groupLines (splitLines base) group = remoteRegion (splitLines base) group := by
    intro group hg
    have hleft := left_nil_of_grouping hgrouping group hg
    have hright : group.right ≠ [] := by
      simpa [hleft] using has_change hgrouping hg
    simp [groupLines, hleft, hright]
  rw [renderWithBase_eq hself hchanges, weave_congr _ hlines,
    (mergeRegions_of_scripts hselfScript hscript).weave_remote, flatten_splitLines]

theorem groupLines_of_not_conflicting {base : List Text} {group : ChangeGroup Text}
    (hleft : group.left ≠ []) (h : ¬ Conflicting base group) :
    groupLines base group = localRegion base group := by
  by_cases hright : group.right = []
  · simp [groupLines, hright]
  · have heq : localRegion base group = remoteRegion base group := by
      by_contra hne
      exact h ⟨hleft, hright, hne⟩
    simp [groupLines, hleft, hright, heq]

/-- The groups of a script with itself hold the same changes on either side. -/
theorem left_eq_right_of_same {n : Nat} {changes : List LineChange}
    (h : ScriptFrom n 0 changes) :
    ∀ group ∈ changeGroups changes changes, group.left = group.right := by
  intro group hg
  have hswap : (changeGroups changes changes).map ChangeGroup.swap =
      (changeGroups changes changes).map id := by
    rw [List.map_id]
    exact (changeGroups_swap h h).symm
  have hsame := List.map_inj_left.mp hswap group hg
  exact (congrArg ChangeGroup.right hsame)

theorem renderConflictHunk_self (body : Text) : renderConflictHunk body body = body := by
  simp [renderConflictHunk]

theorem render_of_agreed (base x : Text) : renderConflictMarkerBodyWithBase base x x = x := by
  by_cases hx : WithinDiffCells base x
  · obtain ⟨changes, hchanges, hscript⟩ := lineChanges_isScript hx
    have hgrouping := changeGroups_grouping hscript.wellFormed hscript.wellFormed
    have hlines : ∀ group ∈ changeGroups changes changes,
        groupLines (splitLines base) group = localRegion (splitLines base) group := by
      intro group hg
      have hsame := left_eq_right_of_same hscript.wellFormed group hg
      have hleft : group.left ≠ [] := by
        simpa [hsame] using has_change hgrouping hg
      refine groupLines_of_not_conflicting hleft fun hconflict => hconflict.2.2 ?_
      simp [localRegion, remoteRegion, hsame]
    rw [renderWithBase_eq hchanges hchanges, weave_congr _ hlines,
      (mergeRegions_of_scripts hscript hscript).weave_local, flatten_splitLines]
  · simp only [renderConflictMarkerBodyWithBase, lineChanges_eq_none hx]
    exact renderConflictHunk_self x

/-- A merge without a conflicting group reads the same in either order. -/
theorem render_of_base_right {base x : Text} (hbase : WithinDiffCells base base)
    (hx : WithinDiffCells base x) : renderConflictMarkerBodyWithBase base x base = x := by
  obtain ⟨changes, hchanges, hscript⟩ := lineChanges_isScript hx
  have hself := lineChanges_self hbase
  have hselfScript := isScript_of_lineChanges hself
  have hgrouping := changeGroups_grouping hscript.wellFormed hselfScript.wellFormed
  have hlines : ∀ group ∈ changeGroups changes [],
      groupLines (splitLines base) group = localRegion (splitLines base) group := by
    intro group hg
    have hright : group.right = [] := by
      have hnil := hgrouping.right_eq
      rw [List.flatMap_eq_nil_iff] at hnil
      exact hnil group hg
    simp [groupLines, hright]
  rw [renderWithBase_eq hchanges hself, weave_congr _ hlines,
    (mergeRegions_of_scripts hscript hselfScript).weave_local, flatten_splitLines]

/-! ## Above the cell limit -/

theorem render_above_limit {base local_ remote : Text}
    (h : ¬ (WithinDiffCells base local_ ∧ WithinDiffCells base remote)) :
    renderConflictMarkerBodyWithBase base local_ remote =
      renderConflictMarkerBody local_ remote := by
  by_cases hlocal : WithinDiffCells base local_
  · have hremote : ¬ WithinDiffCells base remote := fun hr => h ⟨hlocal, hr⟩
    obtain ⟨changes, hchanges, _⟩ := lineChanges_isScript hlocal
    simp only [renderConflictMarkerBodyWithBase, hchanges, lineChanges_eq_none hremote]
  · simp only [renderConflictMarkerBodyWithBase, lineChanges_eq_none hlocal]

/-! ## The verdict -/

/-- The bodies conflict: in some group of changes, or as a whole where they are
not compared with the base. -/
def BodiesConflict (base local_ remote : Text) : Prop :=
  match lineChanges base local_, lineChanges base remote with
  | some localChanges, some remoteChanges =>
      ∃ group ∈ changeGroups localChanges remoteChanges,
        Conflicting (splitLines base) group
  | _, _ => local_ ≠ remote

theorem mergeTextWithBase_of_containsAllMarkers {base local_ remote : Text}
    (h : containsAllMarkers (renderConflictMarkerBodyWithBase base local_ remote) = true) :
    mergeTextWithBase base local_ remote =
      .conflict (renderConflictMarkerBodyWithBase base local_ remote) := by
  simp [mergeTextWithBase, h]

theorem mergeTextWithBase_of_not_containsAllMarkers {base local_ remote : Text}
    (h : containsAllMarkers (renderConflictMarkerBodyWithBase base local_ remote) = false) :
    mergeTextWithBase base local_ remote =
      .clean (renderConflictMarkerBodyWithBase base local_ remote) := by
  simp [mergeTextWithBase, h]

theorem containsAllMarkers_of_bodiesConflict {base local_ remote : Text}
    (h : BodiesConflict base local_ remote) :
    containsAllMarkers (renderConflictMarkerBodyWithBase base local_ remote) = true := by
  have hwhole : local_ ≠ remote →
      containsAllMarkers (renderConflictMarkerBody local_ remote) = true := by
    intro hne
    rw [renderConflictMarkerBody, renderConflictHunk_of_ne hne]
    exact Hunk.containsAllMarkers_lines _
  unfold BodiesConflict at h
  split at h
  · rename_i localChanges remoteChanges hlocal hremote
    obtain ⟨group, hg, hconflict⟩ := h
    have hpart := flatten_isInfix (infix_weave (splitLines base)
      (groupLines (splitLines base)) hg 0)
    rw [← renderWithBase_eq hlocal hremote, groupLines_of_conflicting hconflict] at hpart
    exact containsAllMarkers_of_isInfix hpart (Hunk.containsAllMarkers_lines _)
  · rename_i hnone
    have hrender : renderConflictMarkerBodyWithBase base local_ remote =
        renderConflictMarkerBody local_ remote := by
      apply render_above_limit
      rintro ⟨hlocal, hremote⟩
      obtain ⟨lc, hlc, _⟩ := lineChanges_isScript hlocal
      obtain ⟨rc, hrc, _⟩ := lineChanges_isScript hremote
      exact hnone lc rc hlc hrc
    rw [hrender]
    exact hwhole h

/-- The merge without conflicts: every group as the side that changed it has it. -/
def cleanMerge (base : Text) (groups : List (ChangeGroup Text)) : Text :=
  (weave (splitLines base) (fun group =>
    if group.left = [] then remoteRegion (splitLines base) group
    else localRegion (splitLines base) group) 0 groups).flatten

theorem render_of_no_conflict {base local_ remote : Text}
    {localChanges remoteChanges : List LineChange}
    (hlocal : lineChanges base local_ = some localChanges)
    (hremote : lineChanges base remote = some remoteChanges)
    (h : ∀ group ∈ changeGroups localChanges remoteChanges,
      ¬ Conflicting (splitLines base) group) :
    renderConflictMarkerBodyWithBase base local_ remote =
      cleanMerge base (changeGroups localChanges remoteChanges) := by
  have hgrouping := changeGroups_grouping (isScript_of_lineChanges hlocal).wellFormed
    (isScript_of_lineChanges hremote).wellFormed
  rw [renderWithBase_eq hlocal hremote, cleanMerge]
  refine congrArg List.flatten (weave_congr _ (fun group hg => ?_) 0)
  by_cases hleft : group.left = []
  · have hright : group.right ≠ [] := by
      simpa [hleft] using has_change hgrouping hg
    simp [groupLines, hleft, hright]
  · rw [if_neg hleft]
    exact groupLines_of_not_conflicting hleft (h group hg)

/-- What `merge_text_with_base` promises. -/
structure MergeVerdict (base local_ remote x : Text) : Prop where
  /-- An edit of one side is taken over. -/
  oneSided : containsAllMarkers x = false →
    (x = base ∨ (WithinDiffCells base base ∧ WithinDiffCells base x)) →
    mergeTextWithBase base base x = .clean x ∧ mergeTextWithBase base x base = .clean x
  /-- An edit that both sides made is taken once, whatever its size. -/
  agreed : containsAllMarkers x = false → mergeTextWithBase base x x = .clean x
  /-- Conflicting bodies are reported. -/
  conflict : BodiesConflict base local_ remote →
    (mergeTextWithBase base local_ remote).isConflict = true
  /-- Bodies without a conflicting group merge cleanly. -/
  clean : ∀ localChanges remoteChanges, lineChanges base local_ = some localChanges →
    lineChanges base remote = some remoteChanges → ¬ BodiesConflict base local_ remote →
    containsAllMarkers (cleanMerge base (changeGroups localChanges remoteChanges)) = false →
    mergeTextWithBase base local_ remote =
      .clean (cleanMerge base (changeGroups localChanges remoteChanges))
  /-- Above the cell limit the bodies are one group. -/
  aboveLimit : ¬ (WithinDiffCells base local_ ∧ WithinDiffCells base remote) →
    local_ ≠ remote →
    mergeTextWithBase base local_ remote =
      .conflict (renderConflictMarkerBody local_ remote)
  /-- A clean merge holds no hunk. -/
  noHunk : ∀ t, mergeTextWithBase base local_ remote = .clean t →
    ∀ hunk : Hunk, ¬ hunk.lines.flatten <:+: t

theorem within_of_lineChanges {baseBody editedBody : Text} {changes : List LineChange}
    (h : lineChanges baseBody editedBody = some changes) :
    WithinDiffCells baseBody editedBody := by
  by_contra hwithin
  rw [lineChanges_eq_none hwithin] at h
  cases h

/-- Bodies that are not compared with the base conflict when they differ. -/
theorem bodiesConflict_above_limit {base local_ remote : Text}
    (h : ¬ (WithinDiffCells base local_ ∧ WithinDiffCells base remote)) :
    BodiesConflict base local_ remote ↔ local_ ≠ remote := by
  unfold BodiesConflict
  split
  · rename_i hlocal hremote
    exact absurd ⟨within_of_lineChanges hlocal, within_of_lineChanges hremote⟩ h
  · exact Iff.rfl

theorem mergeTextWithBase_verdict (base local_ remote x : Text) :
    MergeVerdict base local_ remote x where
  oneSided := by
    intro hmarkers hsize
    have hleft : renderConflictMarkerBodyWithBase base base x = x := by
      rcases hsize with rfl | ⟨hbase, hx⟩
      · exact render_of_agreed x x
      · exact render_of_base_left hbase hx
    have hright : renderConflictMarkerBodyWithBase base x base = x := by
      rcases hsize with rfl | ⟨hbase, hx⟩
      · exact render_of_agreed x x
      · exact render_of_base_right hbase hx
    constructor
    · rw [mergeTextWithBase_of_not_containsAllMarkers (by rw [hleft]; exact hmarkers), hleft]
    · rw [mergeTextWithBase_of_not_containsAllMarkers (by rw [hright]; exact hmarkers), hright]
  agreed := by
    intro hmarkers
    have hrender := render_of_agreed base x
    rw [mergeTextWithBase_of_not_containsAllMarkers (by rw [hrender]; exact hmarkers), hrender]
  conflict := by
    intro h
    rw [mergeTextWithBase_of_containsAllMarkers (containsAllMarkers_of_bodiesConflict h)]
    rfl
  clean := by
    intro localChanges remoteChanges hlocal hremote hconflict hmarkers
    have hnone : ∀ group ∈ changeGroups localChanges remoteChanges,
        ¬ Conflicting (splitLines base) group := by
      intro group hg hgroup
      apply hconflict
      simp only [BodiesConflict, hlocal, hremote]
      exact ⟨group, hg, hgroup⟩
    have hrender := render_of_no_conflict hlocal hremote hnone
    rw [mergeTextWithBase_of_not_containsAllMarkers (by rw [hrender]; exact hmarkers), hrender]
  aboveLimit := by
    intro hlimit hne
    have hmarkers := containsAllMarkers_of_bodiesConflict
      ((bodiesConflict_above_limit hlimit).mpr hne)
    rw [mergeTextWithBase_of_containsAllMarkers hmarkers, render_above_limit hlimit]
  noHunk := by
    intro t hclean hunk hpart
    have hmarkers := containsAllMarkers_of_isInfix hpart hunk.containsAllMarkers_lines
    simp only [mergeTextWithBase] at hclean
    split at hclean
    · cases hclean
    · rename_i hnot
      injection hclean with ht
      rw [ht] at hnot
      exact hnot hmarkers

/-! ## Where the verdict goes another way -/

theorem splitLines_replicate (n : Nat) :
    splitLines (List.replicate n '\n') = List.replicate n ['\n'] := by
  induction n with
  | zero => rfl
  | succ n ih =>
      rw [List.replicate_succ, splitLines, splitInclusive_cons_terminator]
      exact congrArg (List.cons ['\n']) ih

theorem isConflict_of_large_base {base x : Text} (hlimit : ¬ WithinDiffCells base base)
    (hne : base ≠ x) : (mergeTextWithBase base base x).isConflict = true := by
  rw [mergeTextWithBase_of_containsAllMarkers (containsAllMarkers_of_bodiesConflict
    ((bodiesConflict_above_limit fun h => hlimit h.1).mpr hne))]
  rfl

/-- A one-sided edit is reported as a conflict when the text holds the markers
itself, and when the base is above the cell limit: here of four thousand empty
lines, to which one was added. -/
theorem mergeTextWithBase_oneSided_conflict :
    mergeTextWithBase [] [] "<<<<<<< LOCAL\n=======\n>>>>>>> REMOTE\n".toList ≠
        .clean "<<<<<<< LOCAL\n=======\n>>>>>>> REMOTE\n".toList ∧
      mergeTextWithBase (List.replicate 4000 '\n') (List.replicate 4000 '\n')
          (List.replicate 4001 '\n') ≠ .clean (List.replicate 4001 '\n') := by
  constructor
  · decide +kernel
  · have hlimit : ¬ WithinDiffCells (List.replicate 4000 '\n') (List.replicate 4000 '\n') := by
      rw [WithinDiffCells, splitLines_replicate, List.length_replicate]
      decide
    have hne : List.replicate 4000 '\n' ≠ List.replicate 4001 '\n' := by
      intro h
      have hlen := congrArg List.length h
      rw [List.length_replicate, List.length_replicate] at hlen
      omega
    have hverdict := isConflict_of_large_base hlimit hne
    intro hclean
    rw [hclean] at hverdict
    exact absurd hverdict Bool.false_ne_true

end Locality.Core
