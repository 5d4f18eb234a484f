/-
  Delivery/EntryResume.lean --- an apply that stops at some point, and the apply of the
  same entry after that.

  A stopped apply leaves one of the trees that it passes; the user may then write and
  delete the files that the entry is about.  The apply is resumable if it ends in an
  outcome from there, and in the one it would have had if nothing was written.
-/
import Locality.Delivery.EntrySpecs

set_option autoImplicit false

namespace Locality.Delivery

open Locality.Core Locality.Foundation Locality.Protocol

/-! ## Writes of the user -/

/-- The user wrote or deleted files at the targets, and made directories for them. -/
def LocalChange (targets : List SecureTarget) (st st' : MountTree) : Prop :=
  ∀ path, st'.node path = st.node path ∨
    (st'.node path = some .directory ∧ st.node path = none ∧
      ∃ target ∈ targets, path <+: target.parent) ∨
    (st'.node path ≠ some .directory ∧ ∃ target ∈ targets, path = target.path)

theorem LocalChange.of_makesDirectories {targets : List SecureTarget} {target : SecureTarget}
    {st st' : MountTree} (h : MountTree.MakesDirectories st st' target.parent)
    (htarget : target ∈ targets) : LocalChange targets st st' := by
  intro path
  rcases h path with hsame | ⟨hnone, hmade, hleads⟩
  · exact Or.inl hsame
  · exact Or.inr (Or.inl ⟨hmade, hnone, target, htarget, hleads⟩)

/-! ## Targets that can be worked at -/

/-- The names that an entry puts its own files under. -/
def EntryCall.names (self : EntryCall) : List Text :=
  [self.preimageName, self.temporaryName, self.mergeName]

/-- No component of the path is kept for the files of an apply. -/
def Unreserved (path : MountPath) : Prop :=
  ∀ name ∈ path, ".locality-generation-".toList.isPrefixOf name = false

theorem isPrefixOf_names {call : EntryCall} {name : Text} (h : name ∈ call.names) :
    ".locality-generation-".toList.isPrefixOf name = true := by
  have hlocal : ∀ suffix : String,
      ".locality-generation-".toList.isPrefixOf (call.localName suffix) = true := by
    intro suffix
    rw [List.isPrefixOf_iff_prefix]
    unfold EntryCall.localName
    rw [List.append_assoc, List.append_assoc, List.append_assoc]
    exact List.prefix_append _ _
  simp only [EntryCall.names, List.mem_cons, List.not_mem_nil, or_false] at h
  rcases h with rfl | rfl | rfl
  · exact hlocal _
  · exact hlocal _
  · exact hlocal _

/-- A path with a name of the apply in it is not one of an unreserved path's parents. -/
theorem not_prefix_of_unreserved {call : EntryCall} {parent path : MountPath} {name : Text}
    (hpath : Unreserved path) (hname : name ∈ call.names) : ¬ parent ++ [name] <+: path := by
  intro hleads
  have hmem : name ∈ path :=
    hleads.subset (List.mem_append_right parent List.mem_cons_self)
  have hkept := hpath name hmem
  rw [isPrefixOf_names hname] at hkept
  cases hkept

/-- Every target is in directories, is no directory, and is not above another one. -/
structure Workable (targets : List SecureTarget) (st : MountTree) : Prop where
  clears : ∀ target ∈ targets, st.Clears target.parent
  path : ∀ target ∈ targets, st.node target.path ≠ some .directory
  apart : ∀ target ∈ targets, ∀ other ∈ targets, ¬ target.path <+: other.parent

section Change

variable {call : EntryCall} {targets : List SecureTarget} {target : SecureTarget} {name : Text}
  {st st' : MountTree}

theorem SecureTarget.path_not_prefix_parent : ¬ target.path <+: target.parent := by
  intro hleads
  have hlength := hleads.length_le
  rw [SecureTarget.path, List.length_append, List.length_singleton] at hlength
  exact Nat.not_succ_le_self _ hlength

theorem Workable.of_change (h : Workable targets st) (hchange : LocalChange targets st st') :
    Workable targets st' := by
  refine ⟨fun target htarget dir hleads bytes hdir => ?_, fun target htarget hdir => ?_, h.apart⟩
  · rcases hchange dir with hsame | ⟨hmade, -, -⟩ | ⟨-, other, hother, rfl⟩
    · exact h.clears target htarget dir hleads bytes (hsame ▸ hdir)
    · rw [hdir] at hmade
      cases hmade
    · exact h.apart other hother target htarget hleads
  · rcases hchange target.path with hsame | ⟨-, -, other, hother, hleads⟩ | ⟨hnot, -⟩
    · exact h.path target htarget (hsame ▸ hdir)
    · exact h.apart target htarget other hother hleads
    · exact hnot hdir

/-- A change at the targets leaves the files of the apply. -/
theorem node_of_change (hunreserved : ∀ target ∈ targets, Unreserved target.path)
    (hchange : LocalChange targets st st') (hname : name ∈ call.names) (parent : MountPath) :
    st'.node (parent ++ [name]) = st.node (parent ++ [name]) := by
  rcases hchange (parent ++ [name]) with hsame | ⟨-, -, other, hother, hleads⟩ |
    ⟨-, other, hother, hpath⟩
  · exact hsame
  · exact absurd (hleads.trans (List.prefix_append other.parent [other.name]))
      (not_prefix_of_unreserved (hunreserved other hother) hname)
  · have hleads : parent ++ [name] <+: other.path := by rw [hpath]
    exact absurd hleads (not_prefix_of_unreserved (hunreserved other hother) hname)

end Change

theorem target_path (path : LogicalPath) :
    (LogicalPath.target path).path = splitSlash path.value := by
  have hne : splitSlash path.value ≠ [] := List.splitOn_ne_nil _ _
  calc (LogicalPath.target path).path
      = (splitSlash path.value).dropLast ++ [(splitSlash path.value).getLastD []] := rfl
    _ = (splitSlash path.value).dropLast ++ [(splitSlash path.value).getLast hne] := by
        rw [List.getLastD_eq_getLast?, List.getLast?_eq_some_getLast hne, Option.getD_some]
    _ = splitSlash path.value := List.dropLast_append_getLast hne

theorem target_path_ne {path path' : LogicalPath} (h : path ≠ path') :
    (LogicalPath.target path).path ≠ (LogicalPath.target path').path := by
  intro heq
  rw [target_path, target_path] at heq
  have hjoin : ∀ value : Text, ['/'].intercalate (splitSlash value) = value :=
    fun value => List.intercalate_splitOn '/'
  have hvalue : path.value = path'.value := by
    rw [← hjoin path.value, heq, hjoin]
  cases path
  exact h (congrArg LogicalPath.mk hvalue)

/-! ## Opening targets -/

/-- The directories down to a path are made in one way. -/
theorem eq_of_makesDirectories {st left right : MountTree} {path : MountPath}
    (hleft : MountTree.MakesDirectories st left path) (hleftPath : left.node path = some .directory)
    (hright : MountTree.MakesDirectories st right path)
    (hrightPath : right.node path = some .directory) : left = right := by
  have hall : ∀ {st' : MountTree}, MountTree.MakesDirectories st st' path →
      st'.node path = some .directory → ∀ other,
        st'.node other = if other <+: path then some .directory else st.node other := by
    intro st' hmade hpath other
    split
    · rename_i hleads
      by_cases hne : other = path
      · rw [hne, hpath]
      · exact MountTree.node_below hleads hne (by rw [hpath]; rfl)
    · rename_i hnot
      rcases hmade other with hsame | ⟨-, -, hleads⟩
      · exact hsame
      · exact absurd hleads hnot
  exact MountTree.ext_node fun other =>
    (hall hleft hleftPath other).trans (hall hright hrightPath other).symm

/-- What opening a target leaves, also from the trees that it passes. -/
theorem does_openTarget_resumed {path : LogicalPath} {st : MountTree}
    (h : st.Clears (LogicalPath.target path).parent) :
    ∃ st' stops, Undisturbed (openTarget path) st (.ok (LogicalPath.target path)) st' stops ∧
      MountTree.MakesDirectories st st' (LogicalPath.target path).parent ∧
      st'.node (LogicalPath.target path).parent = some .directory ∧
      ∀ stop, stops stop →
        MountTree.MakesDirectories st stop (LogicalPath.target path).parent ∧
        (openTarget path).run MountTree.perform stop = (.ok (LogicalPath.target path), st') := by
  obtain ⟨st', stops, hopen, hstops, hmade, hparent⟩ := does_openTarget h
  refine ⟨st', stops, hopen, hmade, hparent, fun stop hstop => ⟨hstops stop hstop, ?_⟩⟩
  have hstopMade := hstops stop hstop
  obtain ⟨again, stops', hagain, -, hmadeAgain, hparentAgain⟩ :=
    does_openTarget (h.mono hstopMade)
  rw [hagain.run, eq_of_makesDirectories (hstopMade.trans hmadeAgain) hparentAgain hmade hparent]

theorem run_openTarget_of_directory {path : LogicalPath} {st : MountTree}
    (h : st.node (LogicalPath.target path).parent = some .directory) :
    (openTarget path).run MountTree.perform st = (.ok (LogicalPath.target path), st) := by
  obtain ⟨st', stops, hopen, -, hmade, -⟩ := does_openTarget (MountTree.clears_of_directory h)
  rw [hopen.run, hmade.eq_of_directory h]

/-! ## Resumable applies -/

namespace EntryCall

/-- The paths that an apply opens, in order. -/
def openedPaths (entry : GenerationDeltaEntry) (existingPath : Option GenerationPathRecord) :
    List LogicalPath :=
  match entry.old, entry.new with
  | some old, some new =>
      if old.logicalPath ≠ new.logicalPath then [localPath existingPath old, new.logicalPath]
      else [localPath existingPath old]
  | none, some new => [new.logicalPath]
  | some old, none => [localPath existingPath old]
  | none, none => []

def targets (entry : GenerationDeltaEntry) (existingPath : Option GenerationPathRecord) :
    List SecureTarget :=
  (openedPaths entry existingPath).map LogicalPath.target

variable (self : EntryCall) (entry : GenerationDeltaEntry)
  (existingPath : Option GenerationPathRecord)

/-- The apply of an entry while no other program runs. -/
def apply (st : MountTree) : Except ApplyError EntryResult × MountTree :=
  (self.applyEntry entry existingPath).run MountTree.perform st

/-- Wherever the apply stops and whatever the user then writes at its targets, it returns
an outcome when it is made again; if nothing is written, it is the outcome of the apply
that did not stop, and so is the tree. -/
def Resumable (st : MountTree) : Prop :=
  ∀ stopped, (self.applyEntry entry existingPath).Passes MountTree.perform st stopped →
    (∀ edited, LocalChange (targets entry existingPath) stopped edited →
      ∃ result st', self.apply entry existingPath edited = (.ok result, st')) ∧
    ∃ result again st', self.apply entry existingPath st = (.ok result, st') ∧
      self.apply entry existingPath stopped = (.ok again, st') ∧
      again.outcome = result.outcome

end EntryCall

/-! ## Opening, then working -/

section Opens

variable {α : Type} {targets : List SecureTarget} {st : MountTree}

/-- A program that opens the targets, and does so again wherever it stopped. -/
structure Opens (program : EntryProgram α) (value : α) (targets : List SecureTarget) : Prop where
  opens : ∀ st, Workable targets st → ∃ st' stops,
    Undisturbed program st (.ok value) st' stops ∧
    (∀ target ∈ targets, st'.node target.parent = some .directory) ∧
    LocalChange targets st st' ∧
    (∀ target ∈ targets, st'.file target.path = st.file target.path) ∧
    ∀ stop, stops stop → LocalChange targets st stop ∧
      program.run MountTree.perform stop = (.ok value, st')
  again : ∀ st, (∀ target ∈ targets, st.node target.parent = some .directory) →
    program.run MountTree.perform st = (.ok value, st)

theorem file_of_makesDirectories {target other : SecureTarget} {st' : MountTree}
    (h : MountTree.MakesDirectories st st' target.parent)
    (hapart : ¬ other.path <+: target.parent) : st'.file other.path = st.file other.path := by
  rcases h other.path with hsame | ⟨-, -, hleads⟩
  · rw [MountTree.file, MountTree.file, hsame]
  · exact absurd hleads hapart

theorem opens_openTarget (path : LogicalPath) :
    Opens (openTarget path) (LogicalPath.target path) [LogicalPath.target path] := by
  have hmem : LogicalPath.target path ∈ [LogicalPath.target path] := List.mem_cons_self
  refine ⟨fun st hworkable => ?_, fun st hparents => ?_⟩
  · obtain ⟨st', stops, hopen, hmade, hparent, hstops⟩ :=
      does_openTarget_resumed (hworkable.clears _ hmem)
    refine ⟨st', stops, hopen, List.forall_mem_singleton.mpr hparent,
      .of_makesDirectories hmade hmem, List.forall_mem_singleton.mpr ?_, fun stop hstop => ?_⟩
    · exact file_of_makesDirectories hmade SecureTarget.path_not_prefix_parent
    · exact ⟨.of_makesDirectories (hstops stop hstop).1 hmem, (hstops stop hstop).2⟩
  · exact run_openTarget_of_directory (hparents _ hmem)

theorem LocalChange.trans_makesDirectories {target : SecureTarget} {st' st'' : MountTree}
    (h : LocalChange targets st st') (hmade : MountTree.MakesDirectories st' st'' target.parent)
    (htarget : target ∈ targets) (hapart : ∀ other ∈ targets, ¬ other.path <+: target.parent) :
    LocalChange targets st st'' := by
  intro path
  rcases hmade path with hsame | ⟨hnone, hdirectory, hleads⟩
  · rw [hsame]
    exact h path
  · rcases h path with hsame | ⟨hmadeBefore, -, -⟩ | ⟨-, other, hother, rfl⟩
    · exact Or.inr (Or.inl ⟨hdirectory, hsame ▸ hnone, target, htarget, hleads⟩)
    · rw [hmadeBefore] at hnone
      cases hnone
    · exact absurd hleads (hapart other hother)

theorem directory_of_makesDirectories {path dir : MountPath} {st' : MountTree}
    (h : MountTree.MakesDirectories st st' path) (hdir : st.node dir = some .directory) :
    st'.node dir = some .directory := by
  rcases h dir with hsame | ⟨-, hmade, -⟩
  · rw [hsame, hdir]
  · exact hmade

/-- Both targets of a rename are opened. -/
def openBoth (sourcePath destinationPath : LogicalPath) :
    EntryProgram (SecureTarget × SecureTarget) := do
  let source ← openTarget sourcePath
  let destination ← openTarget destinationPath
  return (source, destination)

theorem opens_openBoth (sourcePath destinationPath : LogicalPath) :
    Opens (openBoth sourcePath destinationPath)
      (LogicalPath.target sourcePath, LogicalPath.target destinationPath)
      [LogicalPath.target sourcePath, LogicalPath.target destinationPath] := by
  generalize htargets : [LogicalPath.target sourcePath, LogicalPath.target destinationPath] =
    targets
  have hsource : LogicalPath.target sourcePath ∈ targets := htargets ▸ List.mem_cons_self
  have hdestination : LogicalPath.target destinationPath ∈ targets :=
    htargets ▸ List.mem_cons_of_mem _ List.mem_cons_self
  have hall : ∀ {p : SecureTarget → Prop}, p (LogicalPath.target sourcePath) →
      p (LogicalPath.target destinationPath) → ∀ target ∈ targets, p target := by
    intro p hp hp'
    rw [← htargets]
    exact List.forall_mem_cons.mpr ⟨hp, List.forall_mem_singleton.mpr hp'⟩
  -- one program for the second target behind the first one
  have hrun : ∀ {st st' st'' : MountTree},
      (openTarget sourcePath).run MountTree.perform st = (.ok (LogicalPath.target sourcePath), st') →
      (openTarget destinationPath).run MountTree.perform st' =
        (.ok (LogicalPath.target destinationPath), st'') →
      (openBoth sourcePath destinationPath).run MountTree.perform st =
        (.ok (LogicalPath.target sourcePath, LogicalPath.target destinationPath), st'') := by
    intro st st' st'' hfirst hsecond
    rw [openBoth, Program.run_bind_of_ok _ hfirst, Program.run_bind_of_ok _ hsecond]
    rfl
  refine ⟨fun st hworkable => ?_, fun st hparents => ?_⟩
  · obtain ⟨middle, stops, hopen, hmade, hparent, hstops⟩ :=
      does_openTarget_resumed (hworkable.clears _ hsource)
    have hchange : LocalChange targets st middle := .of_makesDirectories hmade hsource
    have hworkable' := hworkable.of_change hchange
    obtain ⟨st', stops', hopen', hmade', hparent', hstops'⟩ :=
      does_openTarget_resumed (hworkable'.clears _ hdestination)
    have hboth : Undisturbed (openBoth sourcePath destinationPath) st _ st' _ :=
      hopen.bind (hopen'.bind (.pure _ st'))
    refine ⟨st', _, hboth, ?_, ?_, ?_, ?_⟩
    · exact hall (directory_of_makesDirectories hmade' hparent) hparent'
    · exact hchange.trans_makesDirectories hmade' hdestination fun other hother =>
        hworkable.apart other hother _ hdestination
    · intro target htarget
      rw [file_of_makesDirectories hmade' (hworkable.apart _ htarget _ hdestination),
        file_of_makesDirectories hmade (hworkable.apart _ htarget _ hsource)]
    · rintro stop (hstop | hstop)
      · exact ⟨.of_makesDirectories (hstops stop hstop).1 hsource,
          hrun (hstops stop hstop).2 hopen'.run⟩
      · have hstop : MountTree.MakesDirectories middle stop
            (LogicalPath.target destinationPath).parent ∧
            (openTarget destinationPath).run MountTree.perform stop =
              (.ok (LogicalPath.target destinationPath), st') := by
          rcases hstop with hstop | rfl
          · exact hstops' stop hstop
          · exact ⟨hmade', run_openTarget_of_directory hparent'⟩
        refine ⟨hchange.trans_makesDirectories hstop.1 hdestination fun other hother =>
          hworkable.apart other hother _ hdestination, ?_⟩
        exact hrun (run_openTarget_of_directory (directory_of_makesDirectories hstop.1 hparent))
          hstop.2
  · exact hrun (run_openTarget_of_directory (hparents _ hsource))
      (run_openTarget_of_directory (hparents _ hdestination))

end Opens

section Resumable

open EntryCall

variable {call : EntryCall} {entry : GenerationDeltaEntry}
  {existingPath : Option GenerationPathRecord} {α : Type} {value : α} {st : MountTree}

theorem workable_of_opened {targets : List SecureTarget}
    (hopened : ∀ target ∈ targets, Opened target st)
    (hapart : ∀ target ∈ targets, ∀ other ∈ targets, ¬ target.path <+: other.parent) :
    Workable targets st :=
  ⟨fun target htarget => MountTree.clears_of_directory (hopened target htarget).parent,
    fun target htarget => (hopened target htarget).path, hapart⟩

/-- An apply is resumable if it works from every tree that keeps what the apply needs, and
if every tree that it passes keeps that and leads to the same end. -/
theorem resumable_of (program : EntryProgram α) (body : α → EntryProgram EntryResult)
    (kept : MountTree → Prop) (hprogram : call.applyEntry entry existingPath = program >>= body)
    (hopens : Opens program value (targets entry existingPath))
    (hworkable : Workable (targets entry existingPath) st) (hkept : kept st)
    (hchange : ∀ s s', kept s → LocalChange (targets entry existingPath) s s' → kept s')
    (hok : ∀ s, (∀ target ∈ targets entry existingPath, Opened target s) → kept s →
      ∃ result s', (body value).run MountTree.perform s = (.ok result, s'))
    (hsteady : ∀ s, (∀ target ∈ targets entry existingPath, Opened target s) → kept s →
      LocalChange (targets entry existingPath) st s →
      (∀ target ∈ targets entry existingPath, s.file target.path = st.file target.path) →
      ∃ result s' stops, Undisturbed (body value) s (.ok result) s' stops ∧
        ∀ stop, stops stop → kept stop ∧
          (∀ target ∈ targets entry existingPath, Opened target stop) ∧
          ∃ again, (body value).run MountTree.perform stop = (.ok again, s') ∧
            again.outcome = result.outcome) :
    call.Resumable entry existingPath st := by
  have hrun : ∀ {s s' : MountTree} {result : Except ApplyError EntryResult × MountTree},
      program.run MountTree.perform s = (.ok value, s') →
      (body value).run MountTree.perform s' = result →
        call.apply entry existingPath s = result := by
    intro s s' result hfirst hsecond
    rw [EntryCall.apply, hprogram, Program.run_bind_of_ok _ hfirst, hsecond]
  have hopened : ∀ {s s' : MountTree}, Workable (targets entry existingPath) s →
      (∀ target ∈ targets entry existingPath, s'.node target.parent = some .directory) →
      LocalChange (targets entry existingPath) s s' →
        ∀ target ∈ targets entry existingPath, Opened target s' :=
    fun hs hparents hs' target htarget =>
      ⟨hparents target htarget, (hs.of_change hs').path target htarget⟩
  -- whatever is written at the targets, the apply ends in an outcome
  have hedited : ∀ s s', Workable (targets entry existingPath) s → kept s →
      LocalChange (targets entry existingPath) s s' →
        ∃ result s'', call.apply entry existingPath s' = (.ok result, s'') := by
    intro s s' hs hkeeps hs'
    have hworkable' := hs.of_change hs'
    obtain ⟨middle, stops, hopen, hparents, hmiddle, -, -⟩ := hopens.opens s' hworkable'
    obtain ⟨result, s'', hresult⟩ := hok middle (hopened hworkable' hparents hmiddle)
      (hchange s' middle (hchange s s' hkeeps hs') hmiddle)
    exact ⟨result, s'', hrun hopen.run hresult⟩
  obtain ⟨middle, stops, hopen, hparents, hmiddle, hfiles, hstops⟩ := hopens.opens st hworkable
  obtain ⟨result, st', stops', hbody, hstops'⟩ := hsteady middle
    (hopened hworkable hparents hmiddle) (hchange st middle hkept hmiddle) hmiddle hfiles
  have hfirst := hrun hopen.run hbody.run
  intro stopped hstopped
  rw [hprogram, Program.passes_bind] at hstopped
  rcases hstopped with hstopped | ⟨value', middle', heq, hstopped⟩
  · obtain ⟨hstoppedChange, hagain⟩ := hstops stopped ((hopen.passes stopped).mp hstopped)
    refine ⟨fun edited hlocal => ?_, result, result, st', hfirst, hrun hagain hbody.run, rfl⟩
    exact hedited stopped edited (hworkable.of_change hstoppedChange)
      (hchange st stopped hkept hstoppedChange) hlocal
  · rw [hopen.run] at heq
    cases heq
    obtain ⟨hkeeps, hopenedStop, again, hagain, houtcome⟩ :=
      hstops' stopped ((hbody.passes stopped).mp hstopped)
    refine ⟨fun edited hlocal => ?_, result, again, st', hfirst, ?_, houtcome⟩
    · exact hedited stopped edited (workable_of_opened hopenedStop hworkable.apart) hkeeps hlocal
    · exact hrun (hopens.again stopped fun target htarget => (hopenedStop target htarget).parent)
        hagain

/-! ## Quiet applies -/

/-- What is known of an apply that was not begun: the payload was staged, the paths of a
mount are not reserved, and the names of the entry are free. -/
structure Unbegun (call : EntryCall) (entry : GenerationDeltaEntry)
    (existingPath : Option GenerationPathRecord) (st : MountTree) : Prop where
  payload : ∀ new, entry.new = some new → ∃ bytes, call.verifyFile call.payload new = .ok bytes
  unreserved : ∀ target ∈ targets entry existingPath, Unreserved target.path
  unused : ∀ target ∈ targets entry existingPath, ∀ name ∈ call.names,
    st.node (target.parent ++ [name]) = none

/-- The apply of the entry publishes nothing, and it does not read the file of the user for
a merge. -/
def Quiet (call : EntryCall) (entry : GenerationDeltaEntry)
    (existingPath : Option GenerationPathRecord) (st : MountTree) : Prop :=
  match entry.old, entry.new with
  | none, some new => (st.file (LogicalPath.target new.logicalPath).path).isSome = true
  | some _, none => True
  | some old, some new =>
      let sourcePath := localPath existingPath old
      let source := LogicalPath.target sourcePath
      if old.logicalPath ≠ new.logicalPath ∧ sourcePath ≠ new.logicalPath then
        st.file (LogicalPath.target new.logicalPath).path = none →
          ∀ bytes, st.file source.path = some bytes → call.digest bytes ≠ old.contentSha256
      else
        call.mergeBase = none ∧ ∀ bytes, st.file source.path = some bytes →
          call.digest bytes = old.contentSha256 → call.digest bytes = new.contentSha256
  | none, none => False

theorem temporaryName_ne_preimageName : call.temporaryName ≠ call.preimageName := by
  intro heq
  exact absurd (List.append_cancel_left heq) (by decide)

theorem temporaryName_mem : call.temporaryName ∈ call.names :=
  List.mem_cons_of_mem _ List.mem_cons_self

theorem preimageName_mem : call.preimageName ∈ call.names := List.mem_cons_self

theorem name_ne_of_unreserved {target : SecureTarget} {name : Text}
    (h : Unreserved target.path) (hname : name ∈ call.names) : target.name ≠ name := by
  intro heq
  have hleads : target.parent ++ [name] <+: target.path := by
    rw [← heq]
    exact List.prefix_refl _
  exact not_prefix_of_unreserved h hname hleads

/-- The files of the apply that are kept while it is stopped: no temporary, and the old
content for a preimage. -/
structure Kept (call : EntryCall) (source destination : SecureTarget)
    (old : GenerationFileIdentity) (st : MountTree) : Prop where
  temporary : st.node (destination.parent ++ [call.temporaryName]) = none
  preimage : st.node (source.parent ++ [call.preimageName]) = none ∨
    HoldsPreimage call source old st

theorem Kept.of_change {source destination : SecureTarget} {old : GenerationFileIdentity}
    {targets : List SecureTarget} {st' : MountTree} (h : Kept call source destination old st)
    (hunreserved : ∀ target ∈ targets, Unreserved target.path)
    (hchange : LocalChange targets st st') : Kept call source destination old st' := by
  have hmem : call.preimageName ∈ call.names := preimageName_mem
  have hpreimage := node_of_change hunreserved hchange hmem source.parent
  refine ⟨?_, ?_⟩
  · rw [node_of_change hunreserved hchange temporaryName_mem, h.temporary]
  · refine h.preimage.imp (fun hnone => hpreimage.trans hnone) ?_
    rintro ⟨bytes, hfile, hdigest⟩
    refine ⟨bytes, ?_, hdigest⟩
    rw [MountTree.file, hpreimage]
    exact hfile

/-! ### The algorithms from the trees that are kept -/

section Algorithms

variable {source destination target : SecureTarget} {old new : GenerationFileIdentity}
  {bytes : List UInt8}

theorem run_applyCreate_ok (hopened : Opened target st)
    (hpublishes : Publishes call target new bytes st) :
    ∃ result st', (call.applyCreate target new).run MountTree.perform st = (.ok result, st') := by
  cases hfile : st.file target.path with
  | none =>
      obtain ⟨linked, st', stops, hrun, -⟩ := does_applyCreate hopened hpublishes hfile
      exact ⟨_, st', hrun.run⟩
  | some found => exact ⟨_, st, (reads_applyCreate hfile).run⟩

theorem run_applyFencedDelete_ok (hopened : Opened target st)
    (hpreimage : st.node (target.parent ++ [call.preimageName]) = none ∨
      HoldsPreimage call target old st) :
    ∃ result st', (call.applyFencedDelete target old maxAttempts).run MountTree.perform st =
      (.ok result, st') := by
  rcases hpreimage with hnone | hholds
  · obtain ⟨result, st', hrun, -⟩ := does_applyFencedDelete hopened hnone 6
    exact ⟨result, st', hrun.run⟩
  · exact ⟨_, st, (reads_applyFencedDelete_of_preimage hopened hholds 7).run⟩

theorem run_applyFencedUpdate_ok (hopened : Opened target st)
    (hkept : Kept call target target old st) (hpublishes : Publishes call target new bytes st) :
    ∃ result st', (call.applyFencedUpdate target old new maxAttempts).run MountTree.perform st =
      (.ok result, st') := by
  rcases hkept.preimage with hnone | hholds
  · by_cases hbegin : ∃ local_, st.file target.path = some local_ ∧
        call.digest local_ = old.contentSha256 ∧ call.digest local_ ≠ new.contentSha256
    · obtain ⟨local_, hfile, hold, hnew⟩ := hbegin
      obtain ⟨moved, linked, st', stops, hrun, -⟩ := does_applyFencedUpdate hopened hnone
        hpublishes temporaryName_ne_preimageName hfile hold hnew 6
      exact ⟨_, st', hrun.run⟩
    · obtain ⟨result, hrun⟩ : ∃ result,
          Reads (call.applyFencedUpdate target old new maxAttempts) st (.ok result) :=
        reads_applyFencedUpdate hopened hnone
          (fun local_ hfile hnew hold => hbegin ⟨local_, hfile, hold, hnew⟩) 7
      exact ⟨result, st, hrun.run⟩
  · cases hfile : st.file target.path with
    | none =>
        obtain ⟨linked, st', stops, hrun, -⟩ :=
          does_applyFencedUpdate_publish hopened hholds hpublishes hfile 7
        exact ⟨_, st', hrun.run⟩
    | some found => exact ⟨_, st, (reads_applyFencedUpdate_of_preimage hholds hfile 7).run⟩

/-- The move of the old file to the preimage, for a rename. -/
theorem does_moveSource {local_ : List UInt8} (hsource : Opened source st)
    (hdestination : Opened destination st)
    (hpreimage : st.node (source.parent ++ [call.preimageName]) = none)
    (hfile : st.file source.path = some local_) (hold : call.digest local_ = old.contentSha256)
    (hne : source.path ≠ destination.path)
    (hname : destination.name ≠ call.preimageName) :
    ∃ moved, Undisturbed (source.tryRename source.name call.preimageName) st (.ok (.ok ())) moved
        (fun stop => stop = st ∨ stop = moved) ∧
      Opened source moved ∧ HoldsPreimage call source old moved ∧
      moved.node destination.parent = some .directory ∧
      moved.node destination.path = st.node destination.path ∧
      ∀ path, path ≠ source.path → path ≠ source.parent ++ [call.preimageName] →
        moved.node path = st.node path := by
  obtain ⟨moved, hmove, hmoved⟩ :=
    does_tryRename hsource.parent (MountTree.node_of_file hfile) hpreimage
  obtain ⟨hopened, hholds, -⟩ := moved_to_preimage hsource hfile hpreimage hmoved
  have hother : ∀ path, path ≠ source.path → path ≠ source.parent ++ [call.preimageName] →
      moved.node path = st.node path := by
    intro path hpath hpath'
    have hpath : path ≠ source.parent ++ [source.name] := hpath
    rw [hmoved, Function.update_of_ne hpath', Function.update_of_ne hpath]
  refine ⟨moved, hmove, hopened, ⟨local_, hholds, hold⟩, ?_, ?_, hother⟩
  · rw [hother, hdestination.parent]
    · intro heq
      have hnode := MountTree.node_of_file hfile
      rw [← heq, hdestination.parent] at hnode
      cases hnode
    · intro heq
      rw [← heq, hdestination.parent] at hpreimage
      cases hpreimage
  · refine hother _ hne.symm fun heq => hname ?_
    exact (List.cons.inj (List.append_inj' heq rfl).2).1

/-- A rename ends in an outcome from every tree that is kept. -/
theorem run_applyFencedRename_ok (hsource : Opened source st) (hdestination : Opened destination st)
    (hkept : Kept call source destination old st)
    (hpublishes : Publishes call destination new bytes st) (hne : source.path ≠ destination.path)
    (hname : destination.name ≠ call.preimageName) (hsourceName : source.name ≠ call.temporaryName) :
    ∃ result st', (call.applyFencedRename source destination old new maxAttempts).run
      MountTree.perform st = (.ok result, st') := by
  by_cases hadmits : Admits call destination new st
  · -- behind the preimage: the payload is there, or is published
    have hbehind : ∀ {s : MountTree} (attempts : Nat), Opened destination s →
        HoldsPreimage call source old s → Publishes call destination new bytes s →
        Admits call destination new s →
          ∃ result st' stops, Undisturbed
            (call.applyFencedRename source destination old new (attempts + 1)) s (.ok result) st'
              stops := by
      intro s attempts hopened hholds hcan hadmitted
      cases hfile : s.file destination.path with
      | none =>
          obtain ⟨linked, st', stops, hrun, -⟩ :=
            does_applyFencedRename_publish hopened hholds hcan hfile attempts
          exact ⟨_, st', stops, hrun⟩
      | some found =>
          exact ⟨_, s, _, reads_applyFencedRename_of_preimage hfile (hadmitted found hfile) hholds
            attempts⟩
    rcases hkept.preimage with hnone | hholds
    · by_cases hbegin : ∃ local_, st.file source.path = some local_ ∧
          call.digest local_ = old.contentSha256
      · obtain ⟨local_, hfile, hold⟩ := hbegin
        obtain ⟨moved, hmove, hopened, hholds, hparent, hpath, hother⟩ :=
          does_moveSource hsource hdestination hnone hfile hold hne hname
        have hdestination' : Opened destination moved := ⟨hparent, hpath ▸ hdestination.path⟩
        have htemporary : moved.node (destination.parent ++ [call.temporaryName]) =
            st.node (destination.parent ++ [call.temporaryName]) := by
          refine hother _ (fun heq => hsourceName ?_) fun heq => ?_
          · exact (List.cons.inj (List.append_inj' heq rfl).2).1.symm
          · exact temporaryName_ne_preimageName (List.cons.inj (List.append_inj' heq rfl).2).1
        have hadmits' : Admits call destination new moved := by
          intro found hfound
          refine hadmits found ?_
          rw [MountTree.file, ← hpath]
          exact hfound
        obtain ⟨result, st', stops, hrest⟩ :=
          hbehind 6 hdestination' hholds
            ⟨hpublishes.payload, htemporary.trans hpublishes.temporary, hpublishes.name⟩ hadmits'
        exact ⟨result, st', (undisturbed_applyFencedRename_move hsource hdestination.path hnone
          hadmits hfile hold 7 hmove hrest).run⟩
      · obtain ⟨result, hrun⟩ : ∃ result, Reads
            (call.applyFencedRename source destination old new maxAttempts) st (.ok result) :=
          reads_applyFencedRename hsource.path hdestination.path hnone
            (fun local_ hfile hold => hbegin ⟨local_, hfile, hold⟩) 7
        exact ⟨result, st, hrun.run⟩
    · obtain ⟨result, st', stops, hrun⟩ := hbehind 7 hdestination hholds hpublishes hadmits
      exact ⟨result, st', hrun.run⟩
  · obtain ⟨found, hfile, hdiffers⟩ := exists_of_not_admits hadmits
    exact ⟨_, st, (reads_applyFencedRename_of_occupied hsource.path hfile hdiffers 7).run⟩

/-! ### Applies that publish nothing -/

/-- The stops of an algorithm that leaves the tree are harmless. -/
theorem steady_of_reads {targets : List SecureTarget} {program : EntryProgram EntryResult}
    {result : EntryResult} {s : MountTree} {kept : MountTree → Prop} (hkept : kept s)
    (hopened : ∀ target ∈ targets, Opened target s) (hrun : Reads program s (.ok result)) :
    ∃ result s' stops, Undisturbed program s (.ok result) s' stops ∧
      ∀ stop, stops stop → kept stop ∧ (∀ target ∈ targets, Opened target stop) ∧
        ∃ again, program.run MountTree.perform stop = (.ok again, s') ∧
          again.outcome = result.outcome := by
  refine ⟨result, s, _, hrun, ?_⟩
  rintro stop rfl
  exact ⟨hkept, hopened, result, hrun.run, rfl⟩

theorem steady_applyFencedDelete {s : MountTree} (hopened : Opened target s)
    (hpreimage : s.node (target.parent ++ [call.preimageName]) = none ∨
      HoldsPreimage call target old s) :
    ∃ result s' stops,
      Undisturbed (call.applyFencedDelete target old maxAttempts) s (.ok result) s' stops ∧
        ∀ stop, stops stop →
          (stop.node (target.parent ++ [call.preimageName]) = none ∨
            HoldsPreimage call target old stop) ∧ Opened target stop ∧
          ∃ again, (call.applyFencedDelete target old maxAttempts).run MountTree.perform stop =
            (.ok again, s') ∧ again.outcome = result.outcome := by
  rcases hpreimage with hnone | hholds
  · obtain ⟨result, s', hrun, hend⟩ := does_applyFencedDelete hopened hnone 6
    refine ⟨result, s', _, hrun, ?_⟩
    rintro stop (rfl | rfl)
    · exact ⟨Or.inl hnone, hopened, result, hrun.run, rfl⟩
    · rcases hend with rfl | ⟨local_, hfile, hold, rfl, hnode⟩
      · exact ⟨Or.inl hnone, hopened, result, hrun.run, rfl⟩
      · obtain ⟨hopened', hfile', hgone⟩ := moved_to_preimage hopened hfile hnone hnode
        have hholds : HoldsPreimage call target old stop := ⟨local_, hfile', hold⟩
        have hagain : Reads (call.applyFencedDelete target old maxAttempts) stop _ :=
          reads_applyFencedDelete_of_preimage hopened' hholds 7
        rw [hgone] at hagain
        exact ⟨Or.inr hholds, hopened', _, hagain.run, rfl⟩
  · have hrun : Reads (call.applyFencedDelete target old maxAttempts) s _ :=
      reads_applyFencedDelete_of_preimage hopened hholds 7
    refine ⟨_, s, _, hrun, ?_⟩
    rintro stop rfl
    exact ⟨Or.inr hholds, hopened, _, hrun.run, rfl⟩

/-- A rename to a destination that holds the new content already takes the source away. -/
theorem steady_applyFencedRename {targets : List SecureTarget} {s : MountTree}
    (htargets : targets = [source, destination]) (hsource : Opened source s)
    (hdestination : Opened destination s) (hkept : Kept call source destination old s)
    (hne : source.path ≠ destination.path) (hname : destination.name ≠ call.preimageName)
    (hsourceName : source.name ≠ call.temporaryName)
    (hnone : s.node (source.parent ++ [call.preimageName]) = none)
    (hquiet : s.file destination.path = none → ∀ local_, s.file source.path = some local_ →
      call.digest local_ ≠ old.contentSha256) :
    ∃ result s' stops, Undisturbed
        (call.applyFencedRename source destination old new maxAttempts) s (.ok result) s' stops ∧
      ∀ stop, stops stop → Kept call source destination old stop ∧
        (∀ target ∈ targets, Opened target stop) ∧
        ∃ again, (call.applyFencedRename source destination old new maxAttempts).run
          MountTree.perform stop = (.ok again, s') ∧ again.outcome = result.outcome := by
  have hopened : ∀ {s : MountTree}, Opened source s → Opened destination s →
      ∀ target ∈ targets, Opened target s := by
    intro s h h'
    rw [htargets]
    exact List.forall_mem_cons.mpr ⟨h, List.forall_mem_singleton.mpr h'⟩
  by_cases hbegin : Admits call destination new s ∧ ∃ local_, s.file source.path = some local_ ∧
      call.digest local_ = old.contentSha256
  · obtain ⟨hadmits, local_, hfile, hold⟩ := hbegin
    obtain ⟨moved, hmove, hopened', hholds, hparent, hpath, hother⟩ :=
      does_moveSource hsource hdestination hnone hfile hold hne hname
    cases hfound : s.file destination.path with
    | none => exact absurd hold (hquiet hfound local_ hfile)
    | some found =>
        have hfound' : moved.file destination.path = some found := by
          rw [MountTree.file, hpath]
          exact hfound
        have hrest : ∀ attempts, Reads
            (call.applyFencedRename source destination old new (attempts + 1)) moved
              (.ok (.of .applied true)) :=
          reads_applyFencedRename_of_preimage hfound' (hadmits found hfound) hholds
        have hrun := undisturbed_applyFencedRename_move hsource hdestination.path hnone hadmits
          hfile hold 7 hmove (hrest 6)
        have htemporary : moved.node (destination.parent ++ [call.temporaryName]) = none := by
          rw [hother, hkept.temporary]
          · exact fun heq => hsourceName (List.cons.inj (List.append_inj' heq rfl).2).1.symm
          · exact fun heq =>
              temporaryName_ne_preimageName (List.cons.inj (List.append_inj' heq rfl).2).1
        have hmoved : Kept call source destination old moved ∧
            (∀ target ∈ targets, Opened target moved) ∧
            ∃ again, (call.applyFencedRename source destination old new maxAttempts).run
              MountTree.perform moved = (.ok again, moved) ∧
                again.outcome = (EntryResult.of .applied true).outcome :=
          ⟨⟨htemporary, Or.inr hholds⟩,
            hopened hopened' ⟨hparent, hpath ▸ hdestination.path⟩, _, (hrest 7).run, rfl⟩
        refine ⟨_, moved, _, hrun, ?_⟩
        rintro stop ((rfl | rfl) | rfl)
        · exact ⟨hkept, hopened hsource hdestination, _, hrun.run, rfl⟩
        · exact hmoved
        · exact hmoved
  · by_cases hadmits : Admits call destination new s
    · obtain ⟨result, hrun⟩ : ∃ result, Reads
          (call.applyFencedRename source destination old new maxAttempts) s (.ok result) :=
        reads_applyFencedRename hsource.path hdestination.path hnone
          (fun local_ hfile hold => hbegin ⟨hadmits, local_, hfile, hold⟩) 7
      exact steady_of_reads hkept (hopened hsource hdestination) hrun
    · obtain ⟨found, hfound, hdiffers⟩ := exists_of_not_admits hadmits
      exact steady_of_reads hkept (hopened hsource hdestination)
        (reads_applyFencedRename_of_occupied hsource.path hfound hdiffers 7)

end Algorithms

/-! ### The programs of the kinds of entries -/

section Kinds

variable {old new : GenerationFileIdentity}

theorem applyEntry_create (hold : entry.old = none) (hnew : entry.new = some new) :
    call.applyEntry entry existingPath = openTarget new.logicalPath >>= fun target =>
      callHook .afterTargetOpen >>= fun _ => call.applyCreate target new := by
  unfold EntryCall.applyEntry
  rw [hold, hnew]

theorem targets_create (hold : entry.old = none) (hnew : entry.new = some new) :
    targets entry existingPath = [LogicalPath.target new.logicalPath] := by
  rw [targets, openedPaths, hold, hnew]
  rfl

theorem applyEntry_delete (hold : entry.old = some old) (hnew : entry.new = none) :
    call.applyEntry entry existingPath = openTarget (localPath existingPath old) >>= fun target =>
      callHook .afterTargetOpen >>= fun _ => call.applyFencedDelete target old maxAttempts := by
  unfold EntryCall.applyEntry
  rw [hold, hnew]

theorem targets_delete (hold : entry.old = some old) (hnew : entry.new = none) :
    targets entry existingPath = [LogicalPath.target (localPath existingPath old)] := by
  rw [targets, openedPaths, hold, hnew]
  rfl

theorem applyEntry_update (hold : entry.old = some old) (hnew : entry.new = some new)
    (hsame : old.logicalPath = new.logicalPath) :
    call.applyEntry entry existingPath = openTarget (localPath existingPath old) >>= fun target =>
      callHook .afterTargetOpen >>= fun _ => call.applyUpdate target old new := by
  unfold EntryCall.applyEntry
  rw [hold, hnew]
  dsimp only
  rw [if_neg (fun hne => hne hsame)]

theorem targets_update (hold : entry.old = some old) (hnew : entry.new = some new)
    (hsame : old.logicalPath = new.logicalPath) :
    targets entry existingPath = [LogicalPath.target (localPath existingPath old)] := by
  rw [targets, openedPaths, hold, hnew]
  dsimp only
  rw [if_neg (fun hne => hne hsame)]
  rfl

theorem applyEntry_both (hold : entry.old = some old) (hnew : entry.new = some new)
    (hmoves : old.logicalPath ≠ new.logicalPath) :
    call.applyEntry entry existingPath =
      openBoth (localPath existingPath old) new.logicalPath >>= fun both =>
        callHook .afterTargetOpen >>= fun _ =>
          if localPath existingPath old = new.logicalPath then call.applyUpdate both.1 old new
          else call.applyFencedRename both.1 both.2 old new maxAttempts := by
  unfold EntryCall.applyEntry openBoth
  rw [hold, hnew]
  dsimp only
  rw [if_pos hmoves, Program.bind_assoc]
  refine congrArg _ (funext fun source => ?_)
  rw [Program.bind_assoc]
  rfl

theorem targets_both (hold : entry.old = some old) (hnew : entry.new = some new)
    (hmoves : old.logicalPath ≠ new.logicalPath) :
    targets entry existingPath = [LogicalPath.target (localPath existingPath old),
      LogicalPath.target new.logicalPath] := by
  rw [targets, openedPaths, hold, hnew]
  dsimp only
  rw [if_pos hmoves]
  rfl

end Kinds

/-! ### Quiet applies are resumable -/

section Quiet

variable {old new : GenerationFileIdentity}

theorem run_hook {program : EntryProgram EntryResult} (point : ApplyHook) (s : MountTree) :
    (callHook point >>= fun _ => program).run MountTree.perform s =
      program.run MountTree.perform s := rfl

theorem applyUpdate_of_none (h : call.mergeBase = none) (target : SecureTarget) :
    call.applyUpdate target old new = call.applyFencedUpdate target old new maxAttempts := by
  unfold EntryCall.applyUpdate
  rw [h]
  rfl

/-- The end of an algorithm behind the hook of the targets. -/
theorem steady_hook {targets : List SecureTarget} {program : EntryProgram EntryResult}
    {s : MountTree} {kept : MountTree → Prop} (point : ApplyHook)
    (h : ∃ result s' stops, Undisturbed program s (.ok result) s' stops ∧
      ∀ stop, stops stop → kept stop ∧ (∀ target ∈ targets, Opened target stop) ∧
        ∃ again, program.run MountTree.perform stop = (.ok again, s') ∧
          again.outcome = result.outcome) :
    ∃ result s' stops,
      Undisturbed (callHook point >>= fun _ => program) s (.ok result) s' stops ∧
      ∀ stop, stops stop → kept stop ∧ (∀ target ∈ targets, Opened target stop) ∧
        ∃ again, (callHook point >>= fun _ => program).run MountTree.perform stop =
          (.ok again, s') ∧ again.outcome = result.outcome := by
  obtain ⟨result, s', stops, hrun, hstops⟩ := h
  exact ⟨result, s', stops, Program.Does.read (reads_callHook point) hrun, hstops⟩

theorem resumable_create (hold : entry.old = none) (hnew : entry.new = some new)
    (hunbegun : Unbegun call entry existingPath st)
    (hworkable : Workable (targets entry existingPath) st)
    (hquiet : (st.file (LogicalPath.target new.logicalPath).path).isSome = true) :
    call.Resumable entry existingPath st := by
  obtain ⟨bytes, hpayload⟩ := hunbegun.payload new hnew
  have htargets : targets entry existingPath = [LogicalPath.target new.logicalPath] :=
    targets_create hold hnew
  have hmem : LogicalPath.target new.logicalPath ∈ targets entry existingPath :=
    htargets ▸ List.mem_cons_self
  have hname := name_ne_of_unreserved (hunbegun.unreserved _ hmem)
    (temporaryName_mem : call.temporaryName ∈ call.names)
  have hunused := hunbegun.unused _ hmem _ temporaryName_mem
  refine resumable_of (openTarget new.logicalPath)
    (fun target => callHook .afterTargetOpen >>= fun _ => call.applyCreate target new)
    (fun s => s.node ((LogicalPath.target new.logicalPath).parent ++ [call.temporaryName]) = none)
    (applyEntry_create hold hnew) (htargets ▸ opens_openTarget _) hworkable hunused ?_ ?_ ?_
  · intro s s' hs hchange
    rw [node_of_change hunbegun.unreserved hchange temporaryName_mem, hs]
  · intro s hopened hs
    exact run_applyCreate_ok (hopened _ hmem) ⟨hpayload, hs, hname⟩
  · intro s hopened hs _ hfiles
    refine steady_hook _ ?_
    obtain ⟨found, hfound⟩ := Option.isSome_iff_exists.mp hquiet
    exact steady_of_reads hs hopened (reads_applyCreate ((hfiles _ hmem).trans hfound))

theorem resumable_delete (hold : entry.old = some old) (hnew : entry.new = none)
    (hunbegun : Unbegun call entry existingPath st)
    (hworkable : Workable (targets entry existingPath) st) :
    call.Resumable entry existingPath st := by
  have htargets : targets entry existingPath =
      [LogicalPath.target (localPath existingPath old)] := targets_delete hold hnew
  have hmem : LogicalPath.target (localPath existingPath old) ∈ targets entry existingPath :=
    htargets ▸ List.mem_cons_self
  have hunused := hunbegun.unused _ hmem _ preimageName_mem
  refine resumable_of (openTarget (localPath existingPath old))
    (fun target =>
      callHook .afterTargetOpen >>= fun _ => call.applyFencedDelete target old maxAttempts)
    (fun s => s.node ((LogicalPath.target (localPath existingPath old)).parent ++
      [call.preimageName]) = none ∨
        HoldsPreimage call (LogicalPath.target (localPath existingPath old)) old s)
    (applyEntry_delete hold hnew) (htargets ▸ opens_openTarget _) hworkable (Or.inl hunused)
    ?_ ?_ ?_
  · intro s s' hs hchange
    have hnode := node_of_change hunbegun.unreserved hchange
      (preimageName_mem : call.preimageName ∈ call.names)
      (LogicalPath.target (localPath existingPath old)).parent
    refine hs.imp (fun hnone => hnode.trans hnone) ?_
    rintro ⟨bytes, hfile, hdigest⟩
    refine ⟨bytes, ?_, hdigest⟩
    rw [MountTree.file, hnode]
    exact hfile
  · exact fun s hopened hs => run_applyFencedDelete_ok (hopened _ hmem) hs
  · intro s hopened hs _ _
    refine steady_hook _ ?_
    obtain ⟨result, s', stops, hrun, hstops⟩ := steady_applyFencedDelete (hopened _ hmem) hs
    refine ⟨result, s', stops, hrun, fun stop hstop => ?_⟩
    obtain ⟨hkept, hopenedStop, hagain⟩ := hstops stop hstop
    exact ⟨hkept, htargets ▸ List.forall_mem_singleton.mpr hopenedStop, hagain⟩

/-- An update without a merge base, of a file that is not the old one or is the new one
already; also one that a rename to the path of the file asks for. -/
theorem resumable_update {α : Type} {value : α} {target : SecureTarget}
    (program : EntryProgram α) (body : α → EntryProgram EntryResult)
    (hprogram : call.applyEntry entry existingPath = program >>= body)
    (hopens : Opens program value (targets entry existingPath))
    (hbody : body value = callHook .afterTargetOpen >>= fun _ =>
      call.applyFencedUpdate target old new maxAttempts)
    (hmem : target ∈ targets entry existingPath) (hnew : entry.new = some new)
    (hunbegun : Unbegun call entry existingPath st)
    (hworkable : Workable (targets entry existingPath) st)
    (hquiet : ∀ bytes, st.file target.path = some bytes →
      call.digest bytes = old.contentSha256 → call.digest bytes = new.contentSha256) :
    call.Resumable entry existingPath st := by
  obtain ⟨bytes, hpayload⟩ := hunbegun.payload new hnew
  have hname := name_ne_of_unreserved (hunbegun.unreserved _ hmem)
    (temporaryName_mem : call.temporaryName ∈ call.names)
  have hkept : Kept call target target old st :=
    ⟨hunbegun.unused _ hmem _ temporaryName_mem, Or.inl (hunbegun.unused _ hmem _ preimageName_mem)⟩
  refine resumable_of program body (Kept call target target old) hprogram hopens hworkable hkept
    ?_ ?_ ?_
  · exact fun s s' hs hchange => hs.of_change hunbegun.unreserved hchange
  · intro s hopened hs
    rw [hbody, run_hook]
    exact run_applyFencedUpdate_ok (hopened _ hmem) hs ⟨hpayload, hs.temporary, hname⟩
  · intro s hopened hs hchange hfiles
    have hpreimage : s.node (target.parent ++ [call.preimageName]) = none := by
      rw [node_of_change hunbegun.unreserved hchange preimageName_mem]
      exact hunbegun.unused _ hmem _ preimageName_mem
    obtain ⟨result, hrun⟩ : ∃ result,
        Reads (call.applyFencedUpdate target old new maxAttempts) s (.ok result) := by
      refine reads_applyFencedUpdate (hopened _ hmem) hpreimage (fun found hfile hne hold => ?_) 7
      exact hne (hquiet found ((hfiles _ hmem).symm.trans hfile) hold)
    rw [hbody]
    exact steady_hook _ (steady_of_reads hs hopened hrun)

theorem resumable_rename (hold : entry.old = some old) (hnew : entry.new = some new)
    (hmoves : old.logicalPath ≠ new.logicalPath)
    (helsewhere : localPath existingPath old ≠ new.logicalPath)
    (hunbegun : Unbegun call entry existingPath st)
    (hworkable : Workable (targets entry existingPath) st)
    (hquiet : st.file (LogicalPath.target new.logicalPath).path = none → ∀ bytes,
      st.file (LogicalPath.target (localPath existingPath old)).path = some bytes →
        call.digest bytes ≠ old.contentSha256) : call.Resumable entry existingPath st := by
  obtain ⟨bytes, hpayload⟩ := hunbegun.payload new hnew
  have htargets : targets entry existingPath = [LogicalPath.target (localPath existingPath old),
      LogicalPath.target new.logicalPath] := targets_both hold hnew hmoves
  have hopens := opens_openBoth (localPath existingPath old) new.logicalPath
  have hne := target_path_ne helsewhere
  have hprogram : call.applyEntry entry existingPath = _ := applyEntry_both hold hnew hmoves
  rw [← htargets] at hopens
  generalize LogicalPath.target (localPath existingPath old) = source at *
  generalize LogicalPath.target new.logicalPath = destination at *
  have hsource : source ∈ targets entry existingPath := htargets ▸ List.mem_cons_self
  have hdestination : destination ∈ targets entry existingPath :=
    htargets ▸ List.mem_cons_of_mem _ List.mem_cons_self
  have hsourceName := name_ne_of_unreserved (hunbegun.unreserved _ hsource)
    (temporaryName_mem : call.temporaryName ∈ call.names)
  have hname := name_ne_of_unreserved (hunbegun.unreserved _ hdestination)
    (preimageName_mem : call.preimageName ∈ call.names)
  have hname' := name_ne_of_unreserved (hunbegun.unreserved _ hdestination)
    (temporaryName_mem : call.temporaryName ∈ call.names)
  have hkept : Kept call source destination old st :=
    ⟨hunbegun.unused _ hdestination _ temporaryName_mem,
      Or.inl (hunbegun.unused _ hsource _ preimageName_mem)⟩
  refine resumable_of _ _ (Kept call source destination old) hprogram hopens hworkable hkept
    ?_ ?_ ?_
  · exact fun s s' hs hchange => hs.of_change hunbegun.unreserved hchange
  · intro s hopened hs
    rw [run_hook, if_neg helsewhere]
    exact run_applyFencedRename_ok (hopened _ hsource) (hopened _ hdestination) hs
      ⟨hpayload, hs.temporary, hname'⟩ hne hname hsourceName
  · intro s hopened hs hchange hfiles
    have hpreimage : s.node (source.parent ++ [call.preimageName]) = none := by
      rw [node_of_change hunbegun.unreserved hchange preimageName_mem]
      exact hunbegun.unused _ hsource _ preimageName_mem
    rw [if_neg helsewhere]
    refine steady_hook _ (steady_applyFencedRename htargets (hopened _ hsource)
      (hopened _ hdestination) hs hne hname hsourceName hpreimage ?_)
    intro hnone found hfound
    exact hquiet ((hfiles _ hdestination).symm.trans hnone) found
      ((hfiles _ hsource).symm.trans hfound)

end Quiet

end Resumable

end Locality.Delivery
