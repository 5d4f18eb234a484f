/-
  Core/ConflictRecover.lean --- reading a merge back: what the three marker scanners
  of `conflict.rs` say about a text that the merge has written.

  `Marked` is the shape that the scanners have to deal with: unmarked lines, and
  hunks of unmarked sections between three marker lines.  Each scanner is run over
  that shape once, by induction on it.  A merge of unmarked bodies has the shape
  (`marked_weave`), so the local version of every conflict can be read back.
-/
import Locality.Core.ConflictVerdict

set_option autoImplicit false

namespace Locality.Core

open Locality.Foundation

/-! ## Lines as the scanners see them -/

/-- No line of the text is taken for a conflict marker. -/
def Unmarked (t : Text) : Prop :=
  ∀ line ∈ splitLines t, conflictMarkerKind line = none

theorem rdropWhile_of_not_mem {c : Char} {t : Text} (h : c ∉ t) :
    t.rdropWhile (· == c) = t := by
  rw [List.rdropWhile_eq_self_iff]
  intro hne hlast
  exact h (beq_iff_eq.mp hlast ▸ List.getLast_mem hne)

theorem markerText_append_newline (word : Text) :
    markerText (word ++ ['\n']) = markerText word := by
  unfold markerText trimEndMatches
  rw [List.rdropWhile_concat_pos _ _ _ (by simp)]

/-- The scanners over `str::lines` and those over `split_inclusive` compare the
same text. -/
theorem markerText_stripLineEnding {line : Text}
    (h : Terminated '\n' line ∨ Unterminated '\n' line) :
    trimStart (trimEndMatches '\r' (stripLineEnding line)) = markerText line ∧
      markerText (stripLineEnding line) = markerText line := by
  have hplain : ∀ {t : Text}, '\n' ∉ t → markerText t = trimStart (trimEndMatches '\r' t) := by
    intro t ht
    rw [markerText]
    congr 2
    exact rdropWhile_of_not_mem ht
  rcases h with ⟨word, hword, rfl⟩ | ⟨_, huntil⟩
  · rw [markerText_append_newline, hplain hword, stripLineEnding_append_newline]
    cases hcr : stripSuffixChar '\r' word with
    | none => exact ⟨rfl, hplain hword⟩
    | some shorter =>
        have heq := stripSuffixChar_eq_some hcr
        have hshorter : '\n' ∉ shorter := fun hmem => hword (by rw [heq]; simp [hmem])
        have htrim : trimEndMatches '\r' word = trimEndMatches '\r' shorter := by
          rw [heq]
          exact List.rdropWhile_concat_pos _ _ _ (by simp)
        rw [htrim]
        exact ⟨rfl, hplain hshorter⟩
  · have hstrip : stripLineEnding line = line := by
      simp [stripLineEnding, stripSuffixChar_of_not_mem huntil]
    rw [hstrip]
    exact ⟨(hplain huntil).symm, rfl⟩

theorem conflictMarkerKind_congr {s t : Text} (h : markerText s = markerText t) :
    conflictMarkerKind s = conflictMarkerKind t := by
  simp only [conflictMarkerKind, h]

theorem conflictMarkerKind_pushMarkerSection {line : Text}
    (h : Terminated '\n' line ∨ Unterminated '\n' line) :
    conflictMarkerKind (pushMarkerSection line) = conflictMarkerKind line := by
  rcases h with hterm | huntil
  · rw [pushMarkerSection_of_terminated hterm]
  · rw [pushMarkerSection_of_unterminated huntil]
    exact conflictMarkerKind_congr (markerText_append_newline line)

theorem unmarked_padLines {ls : List Text} (hlined : WellLined '\n' ls)
    (h : ∀ line ∈ ls, conflictMarkerKind line = none) :
    ∀ line ∈ padLines ls, conflictMarkerKind line = none := by
  induction ls with
  | nil => simp [padLines]
  | cons line rest ih =>
      cases rest with
      | nil =>
          intro other hother
          have heq : other = pushMarkerSection line := by simpa [padLines] using hother
          rw [heq, conflictMarkerKind_pushMarkerSection hlined]
          exact h line (by simp)
      | cons next rest =>
          intro other hother
          rcases List.mem_cons.mp hother with rfl | hother
          · exact h other (by simp)
          · exact ih hlined.tail (fun l hl => h l (by simp [hl])) other hother

/-! ## Marked lines -/

/-- Lines whose markers are those of whole hunks, with the local version of the
lines and the number of hunks. -/
inductive Marked : List Text → List Text → Nat → Prop
  | nil : Marked [] [] 0
  | line {line : Text} {rest version : List Text} {hunks : Nat}
      (hline : conflictMarkerKind line = none) (hrest : Marked rest version hunks) :
      Marked (line :: rest) (line :: version) hunks
  | hunk {localPart remotePart rest version : List Text} {hunks : Nat}
      (hlocal : ∀ line ∈ localPart, conflictMarkerKind line = none)
      (hremote : ∀ line ∈ remotePart, conflictMarkerKind line = none)
      (hrest : Marked rest version hunks) :
      Marked ((conflictLocalMarker ++ ['\n']) :: (localPart ++
          (conflictSeparatorMarker ++ ['\n']) :: (remotePart ++
          (conflictRemoteMarker ++ ['\n']) :: rest)))
        (localPart ++ version) (hunks + 1)

theorem Marked.append {ls ms version version' : List Text} {hunks hunks' : Nat}
    (h : Marked ls version hunks) (h' : Marked ms version' hunks') :
    Marked (ls ++ ms) (version ++ version') (hunks + hunks') := by
  induction h with
  | nil => simpa using h'
  | line hline _ ih => exact .line hline ih
  | hunk hlocal hremote _ ih =>
      have hhunk := Marked.hunk hlocal hremote ih
      rw [Nat.add_right_comm]
      simpa using hhunk

theorem marked_of_unmarked {ls : List Text}
    (h : ∀ line ∈ ls, conflictMarkerKind line = none) : Marked ls ls 0 := by
  induction ls with
  | nil => exact .nil
  | cons line rest ih =>
      exact .line (h line (by simp)) (ih fun l hl => h l (by simp [hl]))

/-- What the local side of a hunk is read back as. -/
def Hunk.localVersion (h : Hunk) : List Text :=
  h.before ++ padLines h.localPart ++ h.after

theorem Hunk.marked_lines {h : Hunk} (hproper : h.Proper)
    (hlocal : ∀ line ∈ h.localRegion, conflictMarkerKind line = none)
    (hremote : ∀ line ∈ h.remoteRegion, conflictMarkerKind line = none) :
    Marked h.lines h.localVersion 1 := by
  simp only [Hunk.localRegion, Hunk.remoteRegion, List.mem_append] at hlocal hremote
  have hbefore := marked_of_unmarked fun line hline => hlocal line (Or.inl (Or.inl hline))
  have hafter := marked_of_unmarked fun line hline => hlocal line (Or.inr hline)
  have hhunk := Marked.hunk
    (unmarked_padLines hproper.localPart_lined
      fun line hline => hlocal line (Or.inl (Or.inr hline)))
    (unmarked_padLines hproper.remotePart_lined
      fun line hline => hremote line (Or.inl (Or.inr hline))) hafter
  have hwhole := hbefore.append hhunk
  simpa [Hunk.lines, Hunk.localVersion] using hwhole

/-! ## The scanners over marked lines -/

theorem kind_markers :
    conflictMarkerKind (conflictLocalMarker ++ ['\n']) = some .localStart ∧
      conflictMarkerKind (conflictSeparatorMarker ++ ['\n']) = some .separator ∧
      conflictMarkerKind (conflictRemoteMarker ++ ['\n']) = some .remoteEnd := by
  decide

theorem localBodyFrom_cons_unmarked (output : Text) (sawConflict : Bool)
    (stack : List ConflictMarkerParseState) {line : Text}
    (h : conflictMarkerKind line = none) (rest : List Text) :
    localBodyFrom output sawConflict stack (line :: rest) =
      if stack.all (· == .local_) then localBodyFrom (output ++ line) sawConflict stack rest
      else localBodyFrom output sawConflict stack rest := by
  conv_lhs => unfold localBodyFrom
  simp only [h]

/-- A hunk's markers take the stack through its three states. -/
theorem localBodyFrom_markers (output : Text) (sawConflict : Bool)
    (stack : List ConflictMarkerParseState) (rest : List Text) :
    localBodyFrom output sawConflict stack ((conflictLocalMarker ++ ['\n']) :: rest) =
        localBodyFrom output true (.local_ :: stack) rest ∧
      localBodyFrom output sawConflict (.local_ :: stack)
          ((conflictSeparatorMarker ++ ['\n']) :: rest) =
        localBodyFrom output sawConflict (.remote :: stack) rest ∧
      localBodyFrom output sawConflict (.remote :: stack)
          ((conflictRemoteMarker ++ ['\n']) :: rest) =
        localBodyFrom output sawConflict stack rest := by
  obtain ⟨hstart, hseparator, hend⟩ := kind_markers
  refine ⟨?_, ?_, ?_⟩
  · conv_lhs => unfold localBodyFrom
    simp only [hstart]
  · conv_lhs => unfold localBodyFrom
    simp only [hseparator]
  · conv_lhs => unfold localBodyFrom
    simp only [hend]

theorem localBodyFrom_local (output : Text) (sawConflict : Bool)
    {stack : List ConflictMarkerParseState} (hstack : stack.all (· == .local_) = true)
    {ls : List Text} (h : ∀ line ∈ ls, conflictMarkerKind line = none) (rest : List Text) :
    localBodyFrom output sawConflict stack (ls ++ rest) =
      localBodyFrom (output ++ ls.flatten) sawConflict stack rest := by
  induction ls generalizing output with
  | nil => simp
  | cons line ls ih =>
      have hrest := ih (output ++ line) fun l hl => h l (by simp [hl])
      rw [List.cons_append, localBodyFrom_cons_unmarked _ _ _ (h line (by simp)), hstack,
        if_pos rfl, hrest, List.flatten_cons, List.append_assoc]

theorem localBodyFrom_remote (output : Text) (sawConflict : Bool)
    (stack : List ConflictMarkerParseState) {ls : List Text}
    (h : ∀ line ∈ ls, conflictMarkerKind line = none) (rest : List Text) :
    localBodyFrom output sawConflict (.remote :: stack) (ls ++ rest) =
      localBodyFrom output sawConflict (.remote :: stack) rest := by
  induction ls with
  | nil => rfl
  | cons line ls ih =>
      have hstack : (ConflictMarkerParseState.remote :: stack).all (· == .local_) = false := rfl
      rw [List.cons_append, localBodyFrom_cons_unmarked _ _ _ (h line (by simp)), hstack,
        if_neg Bool.false_ne_true]
      exact ih fun l hl => h l (by simp [hl])

/-- The stack parser returns the local version of marked lines. -/
theorem localBodyFrom_marked {ls version : List Text} {hunks : Nat}
    (h : Marked ls version hunks) (output : Text) (sawConflict : Bool) :
    localBodyFrom output sawConflict [] ls =
      if sawConflict || decide (0 < hunks) then some (output ++ version.flatten) else none := by
  induction h generalizing output sawConflict with
  | nil => cases sawConflict <;> simp [localBodyFrom]
  | @line line rest version hunks hline _ ih =>
      rw [localBodyFrom_cons_unmarked _ _ _ hline, List.all_nil, if_pos rfl, ih,
        List.flatten_cons, List.append_assoc]
  | @hunk localPart remotePart rest version hunks hlocal hremote _ ih =>
      rw [(localBodyFrom_markers _ _ _ _).1, localBodyFrom_local output true rfl hlocal,
        (localBodyFrom_markers _ _ _ _).2.1, localBodyFrom_remote _ true [] hremote,
        (localBodyFrom_markers _ _ _ _).2.2, ih]
      simp

theorem conflictMarkerKind_stripLineEnding {line : Text}
    (h : Terminated '\n' line ∨ Unterminated '\n' line) :
    conflictMarkerKind (stripLineEnding line) = conflictMarkerKind line :=
  conflictMarkerKind_congr (markerText_stripLineEnding h).2

theorem nestedFrom_unmarked (depth : Nat) {ls : List Text}
    (h : ∀ line ∈ ls, conflictMarkerKind line = none) (rest : List Text) :
    nestedFrom depth (ls ++ rest) = nestedFrom depth rest := by
  induction ls with
  | nil => rfl
  | cons line ls ih =>
      rw [List.cons_append, nestedFrom, h line (by simp)]
      exact ih fun l hl => h l (by simp [hl])

theorem nestedFrom_marked {ls version : List Text} {hunks : Nat}
    (h : Marked ls version hunks) : nestedFrom 0 ls = false := by
  induction h with
  | nil => rfl
  | line hline _ ih =>
      rw [nestedFrom, hline]
      exact ih
  | hunk hlocal hremote _ ih =>
      obtain ⟨hstart, hseparator, hend⟩ := kind_markers
      rw [nestedFrom, hstart]
      simp only [Nat.lt_irrefl, if_false]
      rw [nestedFrom_unmarked _ hlocal, nestedFrom, hseparator]
      simp only []
      rw [nestedFrom_unmarked _ hremote, nestedFrom, hend]
      exact ih

/-- The scan of the stripped lines decides as the kinds of the lines do. -/
theorem nestedFrom_stripped {ls : List Text}
    (h : ∀ line ∈ ls, Terminated '\n' line ∨ Unterminated '\n' line) (depth : Nat) :
    nestedFrom depth (ls.map stripLineEnding) = nestedFrom depth ls := by
  induction ls generalizing depth with
  | nil => rfl
  | cons line ls ih =>
      have hrest := fun d => ih (fun l hl => h l (by simp [hl])) d
      simp only [List.map_cons, nestedFrom, hrest,
        conflictMarkerKind_stripLineEnding (h line (by simp))]

/-- `unresolvedFrom` over lines whose endings `markerText` removes. -/
def unresolvedKinds : Nat → Option Nat → Bool → List Text → Option Nat
  | _, _, _, [] => none
  | index, startLine, sawSeparator, line :: rest =>
      if startsWith (markerText line) "<<<<<<<".toList then
        unresolvedKinds (index + 1) (some (index + 1)) false rest
      else if startLine.isSome &&
          decide (trimEnd (markerText line) = conflictSeparatorMarker) then
        unresolvedKinds (index + 1) startLine true rest
      else if startLine.isSome && sawSeparator &&
          startsWith (markerText line) ">>>>>>>".toList then startLine
      else unresolvedKinds (index + 1) startLine sawSeparator rest

theorem unresolvedFrom_stripped {ls : List Text}
    (h : ∀ line ∈ ls, Terminated '\n' line ∨ Unterminated '\n' line)
    (index : Nat) (startLine : Option Nat) (sawSeparator : Bool) :
    unresolvedFrom index startLine sawSeparator (ls.map stripLineEnding) =
      unresolvedKinds index startLine sawSeparator ls := by
  induction ls generalizing index startLine sawSeparator with
  | nil => rfl
  | cons line ls ih =>
      have hrest := fun i s b => ih (fun l hl => h l (by simp [hl])) i s b
      simp only [List.map_cons, unresolvedFrom, unresolvedKinds, hrest,
        (markerText_stripLineEnding (h line (by simp))).1]

theorem markerText_of_unmarked {line : Text} (h : conflictMarkerKind line = none) :
    startsWith (markerText line) "<<<<<<<".toList = false ∧
      trimEnd (markerText line) ≠ conflictSeparatorMarker ∧
      startsWith (markerText line) ">>>>>>>".toList = false := by
  simp only [conflictMarkerKind] at h
  split at h
  · cases h
  · rename_i hstart
    split at h
    · cases h
    · rename_i hseparator
      split at h
      · cases h
      · rename_i hend
        exact ⟨Bool.eq_false_iff.mpr hstart, hseparator, Bool.eq_false_iff.mpr hend⟩

theorem unresolvedKinds_unmarked (index : Nat) (startLine : Option Nat) (sawSeparator : Bool)
    {ls : List Text} (h : ∀ line ∈ ls, conflictMarkerKind line = none) (rest : List Text) :
    unresolvedKinds index startLine sawSeparator (ls ++ rest) =
      unresolvedKinds (index + ls.length) startLine sawSeparator rest := by
  induction ls generalizing index with
  | nil => rfl
  | cons line ls ih =>
      obtain ⟨hstart, hseparator, hend⟩ := markerText_of_unmarked (h line (by simp))
      have hrest := ih (index + 1) fun l hl => h l (by simp [hl])
      rw [List.cons_append, unresolvedKinds]
      simp only [hstart, hseparator, hend, decide_false, Bool.and_false, Bool.false_eq_true,
        if_false, hrest, List.length_cons]
      rw [Nat.add_right_comm, Nat.add_assoc]

theorem markerText_markers :
    startsWith (markerText (conflictLocalMarker ++ ['\n'])) "<<<<<<<".toList = true ∧
      startsWith (markerText (conflictSeparatorMarker ++ ['\n'])) "<<<<<<<".toList = false ∧
      trimEnd (markerText (conflictSeparatorMarker ++ ['\n'])) = conflictSeparatorMarker ∧
      startsWith (markerText (conflictRemoteMarker ++ ['\n'])) "<<<<<<<".toList = false ∧
      trimEnd (markerText (conflictRemoteMarker ++ ['\n'])) ≠ conflictSeparatorMarker ∧
      startsWith (markerText (conflictRemoteMarker ++ ['\n'])) ">>>>>>>".toList = true := by
  decide

/-- A conflict is found in marked lines exactly when they have a hunk. -/
theorem unresolvedKinds_marked {ls version : List Text} {hunks : Nat}
    (h : Marked ls version hunks) (index : Nat) :
    (unresolvedKinds index none false ls).isSome = decide (0 < hunks) := by
  induction h generalizing index with
  | nil => rfl
  | line hline _ ih =>
      obtain ⟨hstart, _, _⟩ := markerText_of_unmarked hline
      rw [unresolvedKinds]
      simp only [hstart, Option.isSome_none, Bool.false_and, Bool.false_eq_true, if_false]
      exact ih _
  | hunk hlocal hremote _ ih =>
      obtain ⟨hl, hs, hs', hr, hr', hr''⟩ := markerText_markers
      rw [unresolvedKinds]
      simp only [hl, if_true]
      rw [unresolvedKinds_unmarked _ _ _ hlocal, unresolvedKinds]
      simp only [hs, hs', Option.isSome_some, decide_true, Bool.and_true, Bool.false_eq_true,
        if_false, if_true]
      rw [unresolvedKinds_unmarked _ _ _ hremote, unresolvedKinds]
      simp only [hr, hr', hr'', Option.isSome_some, decide_false, Bool.and_true, Bool.and_false,
        Bool.false_eq_true, if_false, if_true, Nat.succ_pos, decide_true]

/-! ## A merge is well lined -/

/-- Groups that can be woven into the base from the cursor on: in order, with a
base line between any two, and each with something changed. -/
structure Weavable (base : List Text) (cursor : Nat) (groups : List (ChangeGroup Text)) :
    Prop where
  bounds : ∀ g ∈ groups, cursor ≤ g.start ∧ g.start ≤ g.stop ∧ g.stop ≤ base.length
  apart : groups.Pairwise fun g h => g.stop < h.start
  effective : ∀ g ∈ groups, g.start < g.stop ∨ localRegion base g ≠ [] ∨
    remoteRegion base g ≠ []

theorem Weavable.tail {base : List Text} {cursor : Nat} {g : ChangeGroup Text}
    {groups : List (ChangeGroup Text)} (h : Weavable base cursor (g :: groups)) :
    Weavable base g.stop groups where
  bounds := fun g' hg' =>
    ⟨Nat.le_of_lt ((List.pairwise_cons.mp h.apart).1 g' hg'),
      (h.bounds g' (by simp [hg'])).2⟩
  apart := (List.pairwise_cons.mp h.apart).2
  effective := fun g' hg' => h.effective g' (by simp [hg'])

/-- Behind a group nothing is left only at the end of the base. -/
theorem Weavable.rest_nil {base : List Text} {cursor : Nat} {g : ChangeGroup Text}
    {groups : List (ChangeGroup Text)} (h : Weavable base cursor (g :: groups))
    {region : ChangeGroup Text → List Text} (hnil : weave base region g.stop groups = [])
    (other : ChangeGroup Text → List Text) : weave base other g.stop groups = [] := by
  cases groups with
  | nil => exact hnil
  | cons g' groups =>
      exfalso
      have hstart := (List.pairwise_cons.mp h.apart).1 g' (by simp)
      obtain ⟨_, hwidth, hstop⟩ := h.bounds g' (by simp)
      simp only [weave, List.append_eq_nil_iff] at hnil
      exact slice_ne_nil_of_lt hstart (by omega) hnil.1.1

theorem Grouping.weavable {base localLines remoteLines : List Text}
    {localChanges remoteChanges : List LineChange}
    (hlocal : IsScript base localLines localChanges)
    (hremote : IsScript base remoteLines remoteChanges) :
    Weavable base 0 (changeGroups localChanges remoteChanges) := by
  have hgrouping := changeGroups_grouping hlocal.wellFormed hremote.wellFormed
  refine ⟨fun g hg => ⟨Nat.zero_le _, (hgrouping.cluster g hg).ordered,
    (hgrouping.bounded g hg).2⟩, hgrouping.apart, fun g hg => ?_⟩
  obtain ⟨c, hc, _⟩ := (hgrouping.cluster g hg).first
  have hwithin := (hgrouping.cluster g hg).within c hc
  rcases hc with hc | hc
  · have hmem : c ∈ localChanges := by
      rw [← hgrouping.left_eq]
      exact List.mem_flatMap.mpr ⟨g, hg, hc⟩
    rcases (hlocal.wellFormed.mem hmem).2.2.2 with hlt | hne
    · exact Or.inl (by omega)
    · exact Or.inr (Or.inl (applyFrom_ne_nil hc hne))
  · have hmem : c ∈ remoteChanges := by
      rw [← hgrouping.right_eq]
      exact List.mem_flatMap.mpr ⟨g, hg, hc⟩
    rcases (hremote.wellFormed.mem hmem).2.2.2 with hlt | hne
    · exact Or.inl (by omega)
    · exact Or.inr (Or.inr (applyFrom_ne_nil hc hne))

theorem groupLines_lined {base : List Text} {g : ChangeGroup Text}
    (hlocal : WellLined '\n' (localRegion base g))
    (hremote : WellLined '\n' (remoteRegion base g)) :
    WellLined '\n' (groupLines base g) := by
  unfold groupLines
  split
  · exact hlocal
  · split
    · exact hremote
    · split
      · exact hlocal
      · rename_i hne
        exact (hunkOf_proper hlocal hremote hne).lines_lined

theorem groupLines_allTerminated {base : List Text} {g : ChangeGroup Text}
    (hlocal : AllTerminated '\n' (localRegion base g))
    (hremote : AllTerminated '\n' (remoteRegion base g)) :
    AllTerminated '\n' (groupLines base g) := by
  have hlined : ∀ {ls : List Text}, AllTerminated '\n' ls → WellLined '\n' ls := by
    intro ls hls
    have hnil : WellLined '\n' ([] : List Text) := trivial
    simpa using hls.wellLined_append hnil
  unfold groupLines
  split
  · exact hlocal
  · split
    · exact hremote
    · split
      · exact hlocal
      · rename_i hne
        have hproper := hunkOf_proper (hlined hlocal) (hlined hremote) hne
        have hregion := hunkOf_localRegion (localRegion base g) (remoteRegion base g)
        refine hproper.lines_allTerminated fun line hline => hlocal line ?_
        rw [← hregion]
        simp [Hunk.localRegion, hline]

/-- The lines that a merge writes are well lined, so its text splits into them. -/
theorem wellLined_weave {base : List Text} {groups : List (ChangeGroup Text)} {cursor : Nat}
    (h : Weavable base cursor groups) (hbase : WellLined '\n' (base.drop cursor))
    (hlocal : WellLined '\n' (weave base (localRegion base) cursor groups))
    (hremote : WellLined '\n' (weave base (remoteRegion base) cursor groups)) :
    WellLined '\n' (weave base (groupLines base) cursor groups) := by
  induction groups generalizing cursor with
  | nil => exact hbase
  | cons g groups ih =>
      obtain ⟨hstart, hwidth, hstop⟩ := h.bounds g (by simp)
      have hsplit : base.drop cursor =
          slice base cursor g.start ++ (slice base g.start g.stop ++ base.drop g.stop) := by
        rw [slice_append_drop base hwidth, slice_append_drop base hstart]
      rw [hsplit] at hbase
      simp only [weave, List.append_assoc] at hlocal hremote ⊢
      have hrest := ih h.tail hbase.append_right.append_right hlocal.append_right.append_right
        hremote.append_right.append_right
      have hrun : AllTerminated '\n' (slice base cursor g.start) := by
        rcases h.effective g (by simp) with hlt | hne | hne
        · exact hbase.allTerminated_of_append (by simp [slice_ne_nil_of_lt hlt hstop])
        · exact hlocal.allTerminated_of_append (by simp [hne])
        · exact hremote.allTerminated_of_append (by simp [hne])
      refine hrun.wellLined_append ?_
      by_cases hnil : weave base (groupLines base) g.stop groups = []
      · rw [hnil, List.append_nil]
        exact groupLines_lined hlocal.append_right.append_left
          hremote.append_right.append_left
      · have hlne : weave base (localRegion base) g.stop groups ≠ [] :=
          fun heq => hnil (h.rest_nil heq _)
        have hrne : weave base (remoteRegion base) g.stop groups ≠ [] :=
          fun heq => hnil (h.rest_nil heq _)
        exact (groupLines_allTerminated (hlocal.append_right.allTerminated_of_append hlne)
          (hremote.append_right.allTerminated_of_append hrne)).wellLined_append hrest

/-! ## The local version of a merge -/

/-- What a group is read back as. -/
def versionLines (base : List Text) (group : ChangeGroup Text) : List Text :=
  if Conflicting base group then
    (hunkOf (localRegion base group) (remoteRegion base group)).localVersion
  else groupLines base group

/-- The local region of a conflicting group, and the merge elsewhere. -/
def localOrMerged (base : List Text) (group : ChangeGroup Text) : List Text :=
  if Conflicting base group then localRegion base group else groupLines base group

theorem marked_groupLines {base : List Text} {group : ChangeGroup Text}
    (hlined : WellLined '\n' (localRegion base group))
    (hlined' : WellLined '\n' (remoteRegion base group))
    (hlocal : ∀ line ∈ localRegion base group, conflictMarkerKind line = none)
    (hremote : ∀ line ∈ remoteRegion base group, conflictMarkerKind line = none) :
    Marked (groupLines base group) (versionLines base group)
      (if Conflicting base group then 1 else 0) := by
  by_cases hconflict : Conflicting base group
  · rw [groupLines_of_conflicting hconflict, versionLines, if_pos hconflict, if_pos hconflict]
    refine Hunk.marked_lines (hunkOf_proper hlined hlined' hconflict.2.2) ?_ ?_
    · rwa [hunkOf_localRegion]
    · rwa [hunkOf_remoteRegion]
  · rw [versionLines, if_neg hconflict, if_neg hconflict]
    refine marked_of_unmarked fun line hline => ?_
    by_cases hleft : group.left = []
    · by_cases hright : group.right = []
      · exact hlocal line (by simpa [groupLines, hright] using hline)
      · exact hremote line (by simpa [groupLines, hleft, hright] using hline)
    · rw [groupLines_of_not_conflicting hleft hconflict] at hline
      exact hlocal line hline

theorem marked_weave {base : List Text} {groups : List (ChangeGroup Text)}
    (hbase : ∀ line ∈ base, conflictMarkerKind line = none)
    (h : ∀ group ∈ groups, Marked (groupLines base group) (versionLines base group)
      (if Conflicting base group then 1 else 0)) (cursor : Nat) :
    Marked (weave base (groupLines base) cursor groups)
      (weave base (versionLines base) cursor groups)
      (groups.countP fun group => decide (Conflicting base group)) := by
  induction groups generalizing cursor with
  | nil =>
      exact marked_of_unmarked fun line hline => hbase line (List.mem_of_mem_drop hline)
  | cons group groups ih =>
      have hrun : Marked (slice base cursor group.start) (slice base cursor group.start) 0 :=
        marked_of_unmarked fun line hline => hbase line (mem_of_mem_slice hline)
      have hwhole := (hrun.append (h group (by simp))).append
        (ih (fun g hg => h g (by simp [hg])) group.stop)
      have hcount : (group :: groups).countP (fun g => decide (Conflicting base g)) =
          0 + (if Conflicting base group then 1 else 0) +
            groups.countP (fun g => decide (Conflicting base g)) := by
        rw [List.countP_cons]
        simp only [decide_eq_true_eq]
        omega
      rw [hcount]
      exact hwhole

theorem padLines_flatten {ls : List Text} (h : WellLined '\n' ls) :
    (padLines ls).flatten = ls.flatten ∨
      (¬ AllTerminated '\n' ls ∧ (padLines ls).flatten = ls.flatten ++ ['\n']) := by
  induction ls with
  | nil => exact Or.inl rfl
  | cons line rest ih =>
      cases rest with
      | nil =>
          rcases h with hterm | huntil
          · exact Or.inl (by simp [padLines, pushMarkerSection_of_terminated hterm])
          · refine Or.inr ⟨fun hall => ?_, by
              simp [padLines, pushMarkerSection_of_unterminated huntil]⟩
            obtain ⟨word, _, heq⟩ := hall line (by simp)
            exact huntil.2 (by rw [heq]; simp)
      | cons next rest =>
          rcases ih h.tail with heq | ⟨hnot, heq⟩
          · exact Or.inl (by simp only [padLines, List.flatten_cons, heq])
          · refine Or.inr ⟨fun hall => hnot fun l hl => hall l (by simp [hl]), ?_⟩
            simp only [padLines, List.flatten_cons, heq, List.append_assoc]

/-- Only the line at the very end of a text can have been padded. -/
theorem Hunk.localVersion_flatten {h : Hunk} (hproper : h.Proper) :
    h.localVersion.flatten = h.localRegion.flatten ∨
      (¬ AllTerminated '\n' h.localRegion ∧
        h.localVersion.flatten = h.localRegion.flatten ++ ['\n']) := by
  rcases padLines_flatten hproper.localPart_lined with heq | ⟨hnot, heq⟩
  · refine Or.inl ?_
    simp only [Hunk.localVersion, Hunk.localRegion, List.flatten_append, heq]
  · have hafter : h.after = [] := by
      by_contra hne
      have hall := hproper.localLined.allTerminated_of_append hne
      exact hnot fun line hline => hall line (by simp [hline])
    refine Or.inr ⟨fun hall => hnot fun line hline => hall line ?_, ?_⟩
    · simp [Hunk.localRegion, hline]
    · simp only [Hunk.localVersion, Hunk.localRegion, List.flatten_append, heq, hafter,
        List.append_nil, List.append_assoc]

theorem weave_version {base : List Text} {groups : List (ChangeGroup Text)} {cursor : Nat}
    (h : Weavable base cursor groups)
    (hlocal : WellLined '\n' (weave base (localRegion base) cursor groups))
    (hremote : ∀ group ∈ groups, WellLined '\n' (remoteRegion base group)) :
    (weave base (versionLines base) cursor groups).flatten =
        (weave base (localOrMerged base) cursor groups).flatten ∨
      (weave base (versionLines base) cursor groups).flatten =
        (weave base (localOrMerged base) cursor groups).flatten ++ ['\n'] := by
  induction groups generalizing cursor with
  | nil => exact Or.inl rfl
  | cons g groups ih =>
      simp only [weave, List.append_assoc] at hlocal
      have hrest := ih h.tail hlocal.append_right.append_right
        fun g' hg' => hremote g' (by simp [hg'])
      have hlined := hlocal.append_right.append_left
      simp only [weave, List.flatten_append]
      by_cases hconflict : Conflicting base g
      · simp only [versionLines, localOrMerged, if_pos hconflict] at hrest ⊢
        have hproper := hunkOf_proper hlined (hremote g (by simp)) hconflict.2.2
        have hregion := hunkOf_localRegion (localRegion base g) (remoteRegion base g)
        rcases Hunk.localVersion_flatten hproper with heq | ⟨hnot, heq⟩
        · rw [heq, hregion]
          rcases hrest with hrest | hrest
          · exact Or.inl (by rw [hrest])
          · exact Or.inr (by rw [hrest]; simp)
        · -- the region ends the text, so nothing is written behind it
          have hnil : weave base (localRegion base) g.stop groups = [] := by
            by_contra hne
            rw [hregion] at hnot
            exact hnot (hlocal.append_right.allTerminated_of_append hne)
          rw [heq, hregion, h.rest_nil hnil, h.rest_nil hnil]
          exact Or.inr (by simp)
      · simp only [versionLines, localOrMerged, if_neg hconflict] at hrest ⊢
        rcases hrest with hrest | hrest
        · exact Or.inl (by rw [hrest])
        · exact Or.inr (by rw [hrest]; simp)

/-! ## Recovery -/

/-- The text with the local region in every conflicting group and the merge
elsewhere; without a comparison with the base, the local body. -/
def localSide (base local_ remote : Text) : Text :=
  match lineChanges base local_, lineChanges base remote with
  | some localChanges, some remoteChanges =>
      (weave (splitLines base) (localOrMerged (splitLines base)) 0
        (changeGroups localChanges remoteChanges)).flatten
  | _, _ => local_

/-- A merge of unmarked bodies as marked lines: they are the lines of the merged
text, they have a hunk exactly when the bodies conflict, and their version is the
local side, up to a line feed at its end. -/
theorem marked_render {base local_ remote : Text} (hbase : Unmarked base)
    (hlocal : Unmarked local_) (hremote : Unmarked remote) :
    ∃ ls version hunks, Marked ls version hunks ∧ WellLined '\n' ls ∧
      renderConflictMarkerBodyWithBase base local_ remote = ls.flatten ∧
      (0 < hunks ↔ BodiesConflict base local_ remote) ∧
      (version.flatten = localSide base local_ remote ∨
        version.flatten = localSide base local_ remote ++ ['\n']) := by
  have hlocalLined := wellLined_splitLines local_
  have hremoteLined := wellLined_splitLines remote
  by_cases hlimit : WithinDiffCells base local_ ∧ WithinDiffCells base remote
  · obtain ⟨localChanges, hl, hlscript⟩ := lineChanges_isScript hlimit.1
    obtain ⟨remoteChanges, hr, hrscript⟩ := lineChanges_isScript hlimit.2
    have hregions := mergeRegions_of_scripts hlscript hrscript
    have hweavable := Grouping.weavable hlscript hrscript
    have hlined : WellLined '\n' (weave (splitLines base) (localRegion (splitLines base)) 0
        (changeGroups localChanges remoteChanges)) := by
      rw [hregions.weave_local]
      exact hlocalLined
    have hlined' : WellLined '\n' (weave (splitLines base) (remoteRegion (splitLines base)) 0
        (changeGroups localChanges remoteChanges)) := by
      rw [hregions.weave_remote]
      exact hremoteLined
    have hmarked : ∀ group ∈ changeGroups localChanges remoteChanges,
        Marked (groupLines (splitLines base) group) (versionLines (splitLines base) group)
          (if Conflicting (splitLines base) group then 1 else 0) := by
      intro group hg
      have hgroup := hregions.lined hlocalLined hremoteLined hg
      have hpart := infix_weave (splitLines base) (localRegion (splitLines base)) hg 0
      have hpart' := infix_weave (splitLines base) (remoteRegion (splitLines base)) hg 0
      rw [hregions.weave_local] at hpart
      rw [hregions.weave_remote] at hpart'
      exact marked_groupLines hgroup.1 hgroup.2
        (fun line hline => hlocal line (hpart.subset hline))
        (fun line hline => hremote line (hpart'.subset hline))
    refine ⟨_, _, _, marked_weave hbase hmarked 0,
      wellLined_weave hweavable (wellLined_splitLines base) hlined hlined',
      renderWithBase_eq hl hr, ?_, ?_⟩
    · simp only [List.countP_pos_iff, decide_eq_true_eq, BodiesConflict, hl, hr]
    · simp only [localSide, hl, hr]
      exact weave_version hweavable hlined
        fun group hg => (hregions.lined hlocalLined hremoteLined hg).2
  · have hside : localSide base local_ remote = local_ := by
      unfold localSide
      split
      · rename_i hl hr
        exact absurd ⟨within_of_lineChanges hl, within_of_lineChanges hr⟩ hlimit
      · rfl
    rw [render_above_limit hlimit, hside, renderConflictMarkerBody]
    by_cases hsame : local_ = remote
    · subst hsame
      refine ⟨splitLines local_, splitLines local_, 0, marked_of_unmarked hlocal, hlocalLined,
        ?_, ?_, Or.inl (flatten_splitLines local_)⟩
      · rw [renderConflictHunk_self, flatten_splitLines]
      · simp [bodiesConflict_above_limit hlimit]
    · have hne : splitLines local_ ≠ splitLines remote :=
        fun heq => hsame (splitInclusive_injective '\n' heq)
      have hproper := hunkOf_proper hlocalLined hremoteLined hne
      have hregion := hunkOf_localRegion (splitLines local_) (splitLines remote)
      have hregion' := hunkOf_remoteRegion (splitLines local_) (splitLines remote)
      refine ⟨_, _, 1, Hunk.marked_lines hproper (by rwa [hregion]) (by rwa [hregion']),
        hproper.lines_lined, renderConflictHunk_of_ne hsame, ?_, ?_⟩
      · simp [bodiesConflict_above_limit hlimit, hsame]
      · rcases Hunk.localVersion_flatten hproper with heq | ⟨_, heq⟩
        · exact Or.inl (by rw [heq, hregion, flatten_splitLines])
        · exact Or.inr (by rw [heq, hregion, flatten_splitLines])

/-- The local text can be read back from every merge of unmarked bodies that
conflict, and the merge is seen as one unresolved, unnested conflict at least. -/
theorem local_recoverable_from_conflict (base local_ remote : Text) (hbase : Unmarked base)
    (hlocal : Unmarked local_) (hremote : Unmarked remote) :
    (hasUnresolvedConflictMarkers (renderConflictMarkerBodyWithBase base local_ remote) = true ↔
      BodiesConflict base local_ remote) ∧
    (BodiesConflict base local_ remote →
      hasNestedConflictMarkers (renderConflictMarkerBodyWithBase base local_ remote) = false ∧
      ∃ t, localBodyFromConflictMarkers
          (renderConflictMarkerBodyWithBase base local_ remote) = some t ∧
        (t = localSide base local_ remote ∨ t = localSide base local_ remote ++ ['\n'])) := by
  obtain ⟨ls, version, hunks, hmarked, hlined, hrender, hhunks, hversion⟩ :=
    marked_render hbase hlocal hremote
  have hlines : ∀ line ∈ ls, Terminated '\n' line ∨ Unterminated '\n' line :=
    fun line hline => hlined.line_cases hline
  have hscan : lines (renderConflictMarkerBodyWithBase base local_ remote) =
      ls.map stripLineEnding := by
    rw [lines, hrender, splitLines_flatten hlined]
  refine ⟨?_, fun hconflict => ⟨?_, version.flatten, ?_, hversion⟩⟩
  · rw [hasUnresolvedConflictMarkers, unresolvedConflictMarkerLine, hscan,
      unresolvedFrom_stripped hlines, unresolvedKinds_marked hmarked, decide_eq_true_eq, hhunks]
  · rw [hasNestedConflictMarkers, hscan, nestedFrom_stripped hlines, nestedFrom_marked hmarked]
  · rw [localBodyFromConflictMarkers, hrender, splitLines_flatten hlined,
      localBodyFrom_marked hmarked]
    simp [hhunks.mpr hconflict]

theorem local_recoverable_from_conflict_example :
    (hasUnresolvedConflictMarkers (renderConflictMarkerBodyWithBase "a\nb".toList "a\nl".toList
        "a\nr".toList) = true ↔
      BodiesConflict "a\nb".toList "a\nl".toList "a\nr".toList) ∧
    (BodiesConflict "a\nb".toList "a\nl".toList "a\nr".toList →
      hasNestedConflictMarkers (renderConflictMarkerBodyWithBase "a\nb".toList "a\nl".toList
        "a\nr".toList) = false ∧
      ∃ t, localBodyFromConflictMarkers (renderConflictMarkerBodyWithBase "a\nb".toList
          "a\nl".toList "a\nr".toList) = some t ∧
        (t = localSide "a\nb".toList "a\nl".toList "a\nr".toList ∨
          t = localSide "a\nb".toList "a\nl".toList "a\nr".toList ++ ['\n'])) :=
  local_recoverable_from_conflict _ _ _ (by unfold Unmarked; decide) (by unfold Unmarked; decide)
    (by unfold Unmarked; decide)

end Locality.Core
