/-
  Workspace/TargetNames.lean --- a mount target is the last component of its root.

  A target is read off the spelling of a root, and the root is parsed by itself.  A name
  that is a valid target is no part that parsing drops or trims, so that the last component
  behind the parse is the target: only separators stand behind it.
-/
import Locality.Workspace.HostBinding

set_option autoImplicit false

namespace Locality.Workspace

open Locality.Core Locality.Foundation Locality.Protocol

variable {unicode : UnicodeTables} {platform : WorkspaceHostPlatform}
  {leaf value remainder pathPrefix : Text} {parts front blanks components : List Text}

/-! ## Names that parsing keeps -/

/-- A name that is a component of its own, and is not trimmed. -/
structure Kept (leaf : Text) : Prop where
  named : leaf ≠ []
  notDot : leaf ≠ ['.']
  notParent : leaf ≠ ['.', '.']
  trimmed : trimDotsAndSpaces leaf = leaf

/-- What `MountTarget::new` accepts is in NFC, and is kept. -/
theorem new_eq_ok {target : MountTarget} (h : MountTarget.new unicode value = .ok target) :
    target.value = value ∧ unicode.nfc value = value ∧ Kept value := by
  rw [MountTarget.new] at h
  simp only [ite_throw_eq_ok, bind_eq_ok, not_not, not_or] at h
  obtain ⟨hempty, hnfc, -, -, ⟨hdot, hdots⟩, _, -, _, hname, hvalue⟩ := h
  simp only [validateTargetName, ite_throw_eq_ok, Bool.not_eq_true] at hname
  obtain ⟨hending, -⟩ := hname
  refine ⟨(congrArg MountTarget.value (Except.ok.inj hvalue)).symm, hnfc, hempty, hdot, hdots, ?_⟩
  refine List.rdropWhile_eq_self_iff.mpr fun hne hlast => ?_
  refine of_decide_eq_false hending ?_
  rw [List.getLast?_eq_some_getLast hne]
  rw [Bool.or_eq_true, decide_eq_true_eq, decide_eq_true_eq] at hlast
  exact hlast.imp (congrArg some) (congrArg some)

def Blank (part : Text) : Prop := part = [] ∨ part = ['.']

theorem parseComponents_blank {part : Text} (hpart : Blank part) :
    parseComponents platform (part :: parts) = parseComponents platform parts := by
  rw [parseComponents]
  exact if_pos hpart

theorem parseComponents_blanks (hblanks : ∀ part ∈ blanks, Blank part) :
    parseComponents platform blanks = some [] := by
  induction blanks with
  | nil => rfl
  | cons part blanks ih =>
      obtain ⟨hpart, hblanks⟩ := List.forall_mem_cons.mp hblanks
      rw [parseComponents_blank hpart, ih hblanks]

theorem parseComponents_kept (hleaf : Kept leaf) :
    parseComponents platform (leaf :: parts) =
      (parseComponents platform parts).map (leaf :: ·) := by
  rw [parseComponents, if_neg (not_or.mpr ⟨hleaf.named, hleaf.notDot⟩), if_neg hleaf.notParent,
    hleaf.trimmed, ite_self]
  exact if_neg hleaf.named

/-- Behind a name that is kept come only parts that are dropped. -/
theorem parseComponents_getLast (hleaf : Kept leaf) (hblanks : ∀ part ∈ blanks, Blank part)
    (h : parseComponents platform (front ++ leaf :: blanks) = some components) :
    components.getLast? = some leaf := by
  induction front generalizing components with
  | nil =>
      rw [List.nil_append, parseComponents_kept hleaf, parseComponents_blanks hblanks] at h
      cases h
      rfl
  | cons part front ih =>
      rw [List.cons_append, parseComponents] at h
      split at h
      · exact ih h
      split at h
      · exact nomatch h
      dsimp only at h
      generalize (if platform = .windows then trimDotsAndSpaces part else part) = name at h
      split at h
      · exact nomatch h
      obtain ⟨rest, hrest, rfl⟩ := Option.map_eq_some_iff.mp h
      rw [List.getLast?_cons, ih hrest]
      rfl

/-! ## Unix paths -/

/-- The last member that is wanted, and what is behind it. -/
theorem exists_of_getLast?_filter {α : Type} {wanted : α → Bool} {list : List α} {a : α}
    (h : (list.filter wanted).getLast? = some a) :
    ∃ front back, list = front ++ a :: back ∧ ∀ b ∈ back, ¬ wanted b = true := by
  obtain ⟨before, hfilter⟩ := List.getLast?_eq_some_iff.mp h
  obtain ⟨first, rest, rfl, -, hrest⟩ := List.filter_eq_append_iff.mp hfilter
  obtain ⟨skipped, back, rfl, -, -, hback⟩ := List.filter_eq_cons_iff.mp hrest
  exact ⟨first ++ skipped, back, (List.append_assoc _ _ _).symm, List.filter_eq_nil_iff.mp hback⟩

theorem hostFileName_eq_some {rest : Text} (h : hostFileName ('/' :: rest) = some leaf) :
    ∃ front blanks, splitSlash rest = front ++ leaf :: blanks ∧ ∀ part ∈ blanks, Blank part := by
  obtain ⟨hlast, -⟩ := Option.filter_eq_some_iff.mp h
  have hsplit : splitSlash ('/' :: rest) = [] :: splitSlash rest :=
    List.splitOn_append_cons_self [] rest
  have hskip : (splitSlash ('/' :: rest)).filter
      (fun component => decide (component ≠ [] ∧ component ≠ ['.'])) =
        (splitSlash rest).filter fun component => decide (component ≠ [] ∧ component ≠ ['.']) := by
    rw [hsplit]
    exact List.filter_cons_of_neg (fun h => (of_decide_eq_true h).1 rfl)
  rw [hskip] at hlast
  obtain ⟨front, blanks, hparts, hblanks⟩ := exists_of_getLast?_filter hlast
  refine ⟨front, blanks, hparts, fun part hmem => ?_⟩
  have hpart := hblanks part hmem
  rw [decide_eq_true_eq, not_and_or, not_not, not_not] at hpart
  exact hpart

/-! ## Windows paths -/

/-- Where the last part of a path is. -/
theorem windowsLeaf_eq_some (h : windowsLeaf value = some leaf) :
    ∃ front separators, value = front ++ leaf ++ separators ∧
      (∀ c ∈ separators, isSeparator c = true) ∧ (∀ c ∈ leaf, isSeparator c = false) ∧
      (front = [] ∨ ∃ before c, front = before ++ [c] ∧ isSeparator c = true) := by
  rw [windowsLeaf] at h
  split at h
  · exact nomatch h
  cases h
  refine ⟨(value.rdropWhile isSeparator).rdropWhile (!isSeparator ·),
    value.rtakeWhile isSeparator, ?_, fun c hmem => List.mem_rtakeWhile_imp hmem,
    fun c hmem => ?_, ?_⟩
  · rw [List.rdropWhile_append_rtakeWhile, List.rdropWhile_append_rtakeWhile]
  · have hc := @List.mem_rtakeWhile_imp _ (!isSeparator ·) _ _ hmem
    exact (Bool.not_eq_true' _).mp hc
  · by_cases hfront : (value.rdropWhile isSeparator).rdropWhile (!isSeparator ·) = []
    · exact Or.inl hfront
    · have hlast := List.rdropWhile_last_not _ _ hfront
      rw [Bool.not_eq_true', Bool.not_eq_false] at hlast
      exact Or.inr ⟨_, _, (List.dropLast_append_getLast hfront).symm, hlast⟩

theorem splitSlash_slashes {slashes : Text} (h : ∀ c ∈ slashes, c = '/') :
    ∀ part ∈ splitSlash slashes, part = [] := by
  induction slashes with
  | nil => exact fun part hmem => List.mem_singleton.mp hmem
  | cons c slashes ih =>
      obtain ⟨rfl, hrest⟩ := List.forall_mem_cons.mp h
      have hsplit : splitSlash ('/' :: slashes) = [] :: splitSlash slashes :=
        List.splitOn_append_cons_self [] slashes
      rw [hsplit]
      exact List.forall_mem_cons.mpr ⟨rfl, ih hrest⟩

/-- A part, and what only separators stand behind. -/
theorem splitSlash_append_slashes {slashes : Text} (hleaf : '/' ∉ leaf)
    (h : ∀ c ∈ slashes, c = '/') :
    ∃ blanks, splitSlash (leaf ++ slashes) = leaf :: blanks ∧ ∀ part ∈ blanks, part = [] := by
  cases slashes with
  | nil =>
      refine ⟨[], ?_, fun part hmem => nomatch hmem⟩
      rw [List.append_nil]
      exact List.splitOn_eq_singleton hleaf
  | cons c slashes =>
      obtain ⟨rfl, hrest⟩ := List.forall_mem_cons.mp h
      refine ⟨splitSlash slashes, ?_, splitSlash_slashes hrest⟩
      have hsplit : splitSlash (leaf ++ '/' :: slashes) = splitSlash leaf ++ splitSlash slashes :=
        List.splitOn_append_cons_self leaf slashes
      have hone : splitSlash leaf = [leaf] := List.splitOn_eq_singleton hleaf
      rw [hsplit, hone, List.singleton_append]

theorem slash_of_isSeparator {c : Char} (h : isSeparator c = true) :
    (if c = '\\' then '/' else c) = '/' := by
  rw [isSeparator, Bool.or_eq_true, decide_eq_true_eq, decide_eq_true_eq] at h
  obtain rfl | rfl := h
  · rfl
  · rfl

theorem slashed_eq_self (h : ∀ c ∈ leaf, isSeparator c = false) :
    slashed leaf = leaf ∧ '/' ∉ leaf := by
  have hparts : ∀ c ∈ leaf, c ≠ '/' ∧ c ≠ '\\' := by
    intro c hmem
    have hc := h c hmem
    rw [isSeparator, Bool.or_eq_false_iff, decide_eq_false_iff_not, decide_eq_false_iff_not] at hc
    exact hc
  refine ⟨?_, fun hmem => (hparts _ hmem).1 rfl⟩
  exact (List.map_congr_left fun c hmem => if_neg (hparts c hmem).2).trans (List.map_id' _)

/-- The parts of a normalized path: its last one, and empty ones behind it. -/
theorem splitSlash_slashed (h : windowsLeaf value = some leaf) :
    ∃ front blanks, splitSlash (slashed value) = front ++ leaf :: blanks ∧
      ∀ part ∈ blanks, part = [] := by
  obtain ⟨front, separators, rfl, hseparators, hleaf, hfront⟩ := windowsLeaf_eq_some h
  obtain ⟨hsame, hslash⟩ := slashed_eq_self hleaf
  have hslashes : ∀ c ∈ slashed separators, c = '/' := by
    intro c hmem
    obtain ⟨separator, hseparator, rfl⟩ := List.mem_map.mp hmem
    exact slash_of_isSeparator (hseparators separator hseparator)
  obtain ⟨blanks, hblanks, hempty⟩ := splitSlash_append_slashes hslash hslashes
  obtain rfl | ⟨before, c, rfl, hc⟩ := hfront
  · refine ⟨[], blanks, ?_, hempty⟩
    have hvalue : slashed (leaf ++ separators) = leaf ++ slashed separators :=
      List.map_append.trans (congrArg (· ++ slashed separators) hsame)
    rw [List.nil_append, List.nil_append, hvalue, hblanks]
  · refine ⟨splitSlash (slashed before), blanks, ?_, hempty⟩
    have hvalue : slashed (before ++ [c] ++ leaf ++ separators) =
        slashed before ++ '/' :: (leaf ++ slashed separators) := by
      rw [slashed, List.map_append, List.map_append, List.map_append, List.map_singleton,
        slash_of_isSeparator hc, List.append_assoc, List.append_assoc, List.singleton_append]
      exact congrArg (fun leaf => slashed before ++ '/' :: (leaf ++ slashed separators)) hsame
    rw [hvalue, ← hblanks]
    exact List.splitOn_append_cons_self _ _

theorem join_cons_cons {separator line next : Text} {rest : List Text} :
    join separator (line :: next :: rest) = line ++ separator ++ join separator (next :: rest) :=
  rfl

theorem join_eq_intercalate (separator : Text) (lines : List Text) :
    join separator lines = separator.intercalate lines := by
  induction lines with
  | nil => rfl
  | cons line lines ih =>
      cases lines with
      | nil => exact List.intercalate_singleton.symm
      | cons next rest => rw [join_cons_cons, ih, List.intercalate_cons_cons]

theorem join_splitSlash (value : Text) : join ['/'] (splitSlash value) = value :=
  (join_eq_intercalate _ _).trans (List.intercalate_splitOn '/')

/-- What is behind the volume of a path is nothing, or behind one of its slashes. -/
theorem networkVolume_suffix (h : networkVolume value = some (pathPrefix, remainder)) :
    remainder = [] ∨ ('/' :: remainder) <:+ value := by
  rw [networkVolume] at h
  split at h
  · rename_i server share parts hparts
    split at h
    · exact nomatch h
    cases h
    cases parts with
    | nil => exact Or.inl rfl
    | cons part parts =>
        refine Or.inr ⟨server ++ ['/'] ++ share, ?_⟩
        rw [← join_splitSlash value, hparts, join_cons_cons, join_cons_cons, List.append_assoc,
          List.append_assoc, List.append_assoc, List.append_assoc, List.singleton_append]
        rfl
  · exact nomatch h

theorem stripPrefix_suffix {t pattern rest : Text} (h : stripPrefix t pattern = some rest) :
    rest <:+ t := by
  rw [stripPrefix] at h
  split at h
  · cases h
    exact List.drop_suffix _ _
  · exact nomatch h

theorem windowsVolume_suffix (h : windowsVolume value = some (pathPrefix, remainder)) :
    remainder = [] ∨ ('/' :: remainder) <:+ value := by
  unfold windowsVolume at h
  split at h
  · rename_i rest hrest
    exact (networkVolume_suffix h).imp_right fun hsuffix =>
      hsuffix.trans (stripPrefix_suffix hrest)
  · split at h
    · rename_i drive rest _
      split at h
      · cases h
        exact Or.inr ⟨[drive, ':'], rfl⟩
      · exact nomatch h
    · exact nomatch h

theorem stripVerbatim_suffix
    (h : windowsVolume (stripVerbatim value) = some (pathPrefix, remainder)) :
    remainder = [] ∨ ('/' :: remainder) <:+ value := by
  rw [stripVerbatim] at h
  split at h
  · have hnetwork : windowsVolume ("//".toList ++ value.drop 8) = networkVolume (value.drop 8) :=
      rfl
    rw [hnetwork] at h
    exact (networkVolume_suffix h).imp_right fun hsuffix =>
      hsuffix.trans (List.drop_suffix 8 value)
  · cases hrest : stripPrefix value "//?/".toList with
    | none =>
        rw [hrest] at h
        exact windowsVolume_suffix h
    | some rest =>
        rw [hrest] at h
        exact (windowsVolume_suffix h).imp_right fun hsuffix =>
          hsuffix.trans (stripPrefix_suffix hrest)

/-! ## Targets -/

/-- The component that a root has below a trusted root. -/
def directChild (unicode : UnicodeTables) (platform : WorkspaceHostPlatform)
    (trustedWorkspaceRoot root : HostPath) : Option Text := do
  let trusted ← ParsedHostPath.parse platform trustedWorkspaceRoot
  let root ← ParsedHostPath.parse platform root
  root.directChildOf unicode platform trusted

theorem directChildOf_eq_some {root trusted : ParsedHostPath} {component : Text}
    (h : root.directChildOf unicode platform trusted = some component) :
    root.components.getLast? = some component := by
  rw [ParsedHostPath.directChildOf] at h
  split at h
  · exact nomatch h
  · exact h

theorem parseUnix_getLast {parsed : ParsedHostPath} (hleaf : Kept leaf)
    (hname : hostFileName value = some leaf)
    (hparsed : ParsedHostPath.parseUnix platform value = some parsed) :
    parsed.components.getLast? = some leaf := by
  unfold ParsedHostPath.parseUnix at hparsed
  split at hparsed
  · obtain ⟨components, hcomponents, rfl⟩ := Option.map_eq_some_iff.mp hparsed
    obtain ⟨front, blanks, hparts, hblanks⟩ := hostFileName_eq_some hname
    rw [hparts] at hcomponents
    exact parseComponents_getLast hleaf hblanks hcomponents
  · exact nomatch hparsed

/-- On Windows a root without components ends in its volume. -/
theorem parseWindows_getLast {parsed : ParsedHostPath} (hleaf : Kept leaf)
    (hname : windowsLeaf value = some leaf)
    (hparsed : ParsedHostPath.parseWindows value = some parsed) :
    parsed.components = [] ∨ parsed.components.getLast? = some leaf := by
  obtain ⟨⟨pathPrefix, remainder⟩, hvolume, hparsed⟩ := Option.bind_eq_some_iff.mp hparsed
  obtain ⟨components, hcomponents, hparsed⟩ := Option.bind_eq_some_iff.mp hparsed
  cases hparsed
  dsimp only at hcomponents ⊢
  obtain ⟨front, blanks, hparts, hblanks⟩ := splitSlash_slashed hname
  have hdropped : ∀ part ∈ blanks, Blank part := fun part hmem => Or.inl (hblanks part hmem)
  obtain rfl | ⟨before, hbefore⟩ := stripVerbatim_suffix hvolume
  · cases hcomponents
    exact Or.inl rfl
  have hsplit : splitSlash (slashed value) = splitSlash before ++ splitSlash remainder := by
    rw [← hbefore]
    exact List.splitOn_append_cons_self _ _
  obtain ⟨middle, -, hrest⟩ | ⟨middle, -, hrest⟩ :=
    List.append_eq_append_iff.mp (hsplit.symm.trans hparts)
  · right
    rw [hrest] at hcomponents
    exact parseComponents_getLast hleaf hdropped hcomponents
  · cases middle with
    | nil =>
        right
        rw [List.nil_append] at hrest
        rw [← hrest] at hcomponents
        exact @parseComponents_getLast _ _ [] _ _ hleaf hdropped hcomponents
    | cons found middle =>
        obtain ⟨rfl, hempty⟩ := List.cons.inj hrest
        left
        rw [parseComponents_blanks fun part hmem =>
          hdropped part (hempty ▸ List.mem_append_right middle hmem)] at hcomponents
        exact (Option.some_inj.mp hcomponents).symm

/-- The last component of a root with a valid target is the target. -/
theorem getLast_of_rawMountTarget {root : HostPath} {target : MountTarget}
    {parsed : ParsedHostPath} {component : Text}
    (htarget : rawMountTarget unicode platform root = .ok target)
    (hparsed : ParsedHostPath.parse platform root = some parsed)
    (hlast : parsed.components.getLast? = some component) : component = target.value := by
  obtain ⟨value, hvalue, htarget⟩ := okOr_bind_eq_ok.mp htarget
  obtain ⟨value', hvalue', hparsed⟩ := Option.bind_eq_some_iff.mp hparsed
  cases hvalue.symm.trans hvalue'
  obtain ⟨leaf, hleaf, hnew⟩ := okOr_bind_eq_ok.mp htarget
  obtain ⟨hsame, -, hkept⟩ := new_eq_ok (mapError_eq_ok.mp hnew)
  rw [hsame]
  refine Option.some_inj.mp (hlast.symm.trans ?_)
  cases platform with
  | macos | linux => exact parseUnix_getLast hkept hleaf hparsed
  | windows =>
      refine (parseWindows_getLast hkept hleaf hparsed).resolve_left fun hnil => ?_
      rw [hnil] at hlast
      exact nomatch hlast

/-- What is a direct child and has a valid target is named by it. -/
theorem directChild_eq_value {trustedWorkspaceRoot root : HostPath} {target : MountTarget}
    {component : Text} (htarget : rawMountTarget unicode platform root = .ok target)
    (hchild : directChild unicode platform trustedWorkspaceRoot root = some component) :
    component = target.value := by
  obtain ⟨trusted, -, hchild⟩ := Option.bind_eq_some_iff.mp hchild
  obtain ⟨parsed, hparsed, hchild⟩ := Option.bind_eq_some_iff.mp hchild
  exact getLast_of_rawMountTarget htarget hparsed (directChildOf_eq_some hchild)

/-- A valid target is its own form in NFC. -/
theorem nfc_of_rawMountTarget {root : HostPath} {target : MountTarget}
    (htarget : rawMountTarget unicode platform root = .ok target) :
    unicode.nfc target.value = target.value := by
  obtain ⟨value, -, htarget⟩ := okOr_bind_eq_ok.mp htarget
  obtain ⟨leaf, -, hnew⟩ := okOr_bind_eq_ok.mp htarget
  obtain ⟨hsame, hnfc, -⟩ := new_eq_ok (mapError_eq_ok.mp hnew)
  rw [hsame]
  exact hnfc

theorem pathTokenEq_self {token : Text} : pathTokenEq unicode platform token token = true := by
  cases platform with
  | macos | linux | windows => exact decide_eq_true rfl

theorem validateMountRootLexically_of_directChild {trustedWorkspaceRoot root : HostPath}
    {target : MountTarget} {component : Text}
    (htarget : rawMountTarget unicode platform root = .ok target)
    (hchild : directChild unicode platform trustedWorkspaceRoot root = some component) :
    validateMountRootLexically unicode platform trustedWorkspaceRoot root target = .ok () := by
  have hname := directChild_eq_value htarget hchild
  obtain ⟨trusted, htrusted, hchild⟩ := Option.bind_eq_some_iff.mp hchild
  obtain ⟨parsed, hparsed, hchild⟩ := Option.bind_eq_some_iff.mp hchild
  refine okOr_bind_eq_ok.mpr ⟨trusted, htrusted, ?_⟩
  refine okOr_bind_eq_ok.mpr ⟨parsed, hparsed, ?_⟩
  refine okOr_bind_eq_ok.mpr ⟨component, hchild, ?_⟩
  rw [hname, pathTokenEq_self]
  rfl

end Locality.Workspace
