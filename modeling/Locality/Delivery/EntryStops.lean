/-
  Delivery/EntryStops.lean --- the applies that cannot be resumed, and when an apply can.

  An apply that publishes a payload can stop between the link and the removal of the
  temporary, and the next one leaves the temporary where it is.  An apply with a merge
  base reads the file of the user, and fails where that is larger than a delta allows.
-/
import Locality.Delivery.EntryResume

set_option autoImplicit false

namespace Locality.Delivery

open Locality.Core Locality.Foundation Locality.Protocol

/-! ## Programs that fail -/

/-- The program fails while no other program runs. -/
def Fails {α : Type} (program : EntryProgram α) (st : MountTree) : Prop :=
  ∃ error st', program.run MountTree.perform st = (.error error, st')

section Fails

variable {α β : Type} {program : EntryProgram α} {next : α → EntryProgram β} {value : α}
  {st st' : MountTree}

theorem Fails.bind (h : Fails program st) : Fails (program >>= next) st := by
  obtain ⟨error, st', hrun⟩ := h
  exact ⟨error, st', Program.run_bind_of_error _ hrun next⟩

theorem Fails.behind (h : program.run MountTree.perform st = (.ok value, st'))
    (hnext : Fails (next value) st') : Fails (program >>= next) st := by
  obtain ⟨error, st'', hrun⟩ := hnext
  exact ⟨error, st'', by rw [Program.run_bind_of_ok _ h, hrun]⟩

theorem Fails.read (h : Reads program st (.ok value)) (hnext : Fails (next value) st) :
    Fails (program >>= next) st :=
  Fails.behind h.run hnext

end Fails

/-! ## Targets that cannot be worked at -/

section Blocked

variable {st : MountTree}

/-- Directories were made above targets, and nothing else was changed. -/
def Grows (targets : List SecureTarget) (st st' : MountTree) : Prop :=
  ∀ path, st'.node path = st.node path ∨ ∃ target ∈ targets, path <+: target.parent

theorem Grows.node_eq {call : EntryCall} {targets : List SecureTarget} {st' : MountTree}
    (h : Grows targets st st') (hunreserved : ∀ target ∈ targets, Unreserved target.path)
    {name : Text} (hname : name ∈ call.names) (parent : MountPath) :
    st'.node (parent ++ [name]) = st.node (parent ++ [name]) := by
  rcases h (parent ++ [name]) with hsame | ⟨target, htarget, hleads⟩
  · exact hsame
  · exact absurd (hleads.trans (List.prefix_append target.parent [target.name]))
      (not_prefix_of_unreserved (hunreserved target htarget) hname)

/-- Targets that cannot be worked at are not opened, or one of them is a directory then. -/
def Blocked {α : Type} (program : EntryProgram α) (value : α) (targets : List SecureTarget)
    (st : MountTree) : Prop :=
  Fails program st ∨ ∃ st', program.run MountTree.perform st = (.ok value, st') ∧
    Grows targets st st' ∧ ∃ target ∈ targets, st'.node target.path = some .directory

theorem blocked_openTarget {path : LogicalPath}
    (h : ¬ Workable [LogicalPath.target path] st) :
    Blocked (openTarget path) (LogicalPath.target path) [LogicalPath.target path] st := by
  by_cases hclears : st.Clears (LogicalPath.target path).parent
  · obtain ⟨st', stops, hopen, -, hmade, -⟩ := does_openTarget hclears
    refine Or.inr ⟨st', hopen.run, fun other => ?_, LogicalPath.target path, List.mem_cons_self, ?_⟩
    · exact (hmade other).imp_right fun hnew =>
        ⟨LogicalPath.target path, List.mem_cons_self, hnew.2.2⟩
    · by_contra hpath
      refine h ⟨List.forall_mem_singleton.mpr hclears, List.forall_mem_singleton.mpr fun hdir => ?_,
        List.forall_mem_singleton.mpr (List.forall_mem_singleton.mpr
          SecureTarget.path_not_prefix_parent)⟩
      exact hpath (directory_of_makesDirectories hmade hdir)
  · exact Or.inl (run_openTarget_blocked hclears)

theorem blocked_openBoth {sourcePath destinationPath : LogicalPath}
    (h : ¬ Workable [LogicalPath.target sourcePath, LogicalPath.target destinationPath] st) :
    Blocked (openBoth sourcePath destinationPath)
      (LogicalPath.target sourcePath, LogicalPath.target destinationPath)
      [LogicalPath.target sourcePath, LogicalPath.target destinationPath] st := by
  by_cases hclears : st.Clears (LogicalPath.target sourcePath).parent
  · obtain ⟨middle, stops, hopen, -, hmade, hparent⟩ := does_openTarget hclears
    by_cases hclears' : middle.Clears (LogicalPath.target destinationPath).parent
    · obtain ⟨st', stops', hopen', -, hmade', hparent'⟩ := does_openTarget hclears'
      have hrun : (openBoth sourcePath destinationPath).run MountTree.perform st =
          (.ok (LogicalPath.target sourcePath, LogicalPath.target destinationPath), st') := by
        rw [openBoth, Program.run_bind_of_ok _ hopen.run, Program.run_bind_of_ok _ hopen'.run]
        rfl
      have hparents : ∀ target ∈ [LogicalPath.target sourcePath,
          LogicalPath.target destinationPath], st'.node target.parent = some .directory :=
        List.forall_mem_cons.mpr ⟨directory_of_makesDirectories hmade' hparent,
          List.forall_mem_singleton.mpr hparent'⟩
      refine Or.inr ⟨st', hrun, fun path => ?_, ?_⟩
      · rcases hmade' path with hsame' | ⟨-, -, hleads⟩
        · rcases hmade path with hsame | ⟨-, -, hleads⟩
          · exact Or.inl (hsame'.trans hsame)
          · exact Or.inr ⟨_, List.mem_cons_self, hleads⟩
        · exact Or.inr ⟨_, List.mem_cons_of_mem _ List.mem_cons_self, hleads⟩
      · by_contra hnone
        have hnot : ∀ target ∈ [LogicalPath.target sourcePath,
            LogicalPath.target destinationPath], st'.node target.path ≠ some .directory :=
          fun target htarget hdir => hnone ⟨target, htarget, hdir⟩
        refine h ⟨?_, fun target htarget hdir => ?_, fun target htarget other hother hleads => ?_⟩
        · refine List.forall_mem_cons.mpr ⟨hclears, List.forall_mem_singleton.mpr ?_⟩
          intro dir hleads bytes hfile
          rcases hmade dir with hsame | ⟨hnew, -, -⟩
          · exact hclears' dir hleads bytes (hsame.trans hfile)
          · rw [hfile] at hnew
            cases hnew
        · exact hnot target htarget (directory_of_makesDirectories hmade'
            (directory_of_makesDirectories hmade hdir))
        · -- the parent of a target is a directory now, and so is what lies above it
          refine hnot target htarget ?_
          by_cases heq : target.path = other.parent
          · rw [heq, hparents other hother]
          · exact MountTree.node_below hleads heq (by rw [hparents other hother]; rfl)
    · exact Or.inl (Fails.behind hopen.run (Fails.bind (run_openTarget_blocked hclears')))
  · exact Or.inl (Fails.bind (run_openTarget_blocked hclears))

end Blocked

/-! ## Algorithms at a directory -/

section Algorithms

variable {call : EntryCall} {target source destination : SecureTarget}
  {old new : GenerationFileIdentity} {base : GenerationMergeBase} {st : MountTree}

theorem fails_openCurrent (h : st.node target.path = some .directory) :
    Fails target.openCurrent st := by
  have hopen : st.openNamed target.parent target.name = .error .notRegularFile :=
    MountTree.openNamed_of_directory h
  refine Fails.read reads_tryOpen ⟨.mount .notRegularFile, st, ?_⟩
  rw [hopen]
  rfl

theorem fails_digestTarget (h : st.node target.path = some .directory) :
    Fails (call.digestTarget target) st :=
  Fails.bind (fails_openCurrent h)

theorem fails_applyCreate (h : st.node target.path = some .directory) :
    Fails (call.applyCreate target new) st :=
  Fails.bind (fails_digestTarget h)

theorem fails_applyFencedDelete (h : st.node target.path = some .directory)
    (hpreimage : st.node (target.parent ++ [call.preimageName]) = none) (attempts : Nat) :
    Fails (call.applyFencedDelete target old (attempts + 1)) st :=
  Fails.read (reads_openNamed_of_none hpreimage) (Fails.bind (fails_digestTarget h))

theorem fails_applyFencedUpdate (h : st.node target.path = some .directory)
    (hpreimage : st.node (target.parent ++ [call.preimageName]) = none) (attempts : Nat) :
    Fails (call.applyFencedUpdate target old new (attempts + 1)) st :=
  Fails.read (reads_openNamed_of_none hpreimage) (Fails.bind (fails_digestTarget h))

theorem fails_applyUpdate_of_mergeBase (hmergeBase : call.mergeBase = some base)
    (hpreimage : st.node (target.parent ++ [call.preimageName]) = none)
    (hcurrent : ∀ {next : Option (List UInt8) → EntryProgram (Option (List UInt8 × Bool))},
      (∀ bytes, maxGenerationFileBytes < bytes.length → Fails (next (some bytes)) st) →
        Fails (target.openCurrent >>= next) st) :
    Fails (call.applyUpdate target old new) st := by
  have hcandidate : Fails (call.localCandidate target old new) st := by
    refine Fails.read (reads_openNamed_of_none hpreimage) (Fails.read (.ofExcept _ st) ?_)
    dsimp only [Option.mapM_none, Option.filter_none]
    refine hcurrent fun bytes hlong => ?_
    dsimp only
    have hread : EntryCall.readBoundedFile bytes = .error
        (.contract "local merge candidate exceeds generation file byte limit".toList) := by
      rw [EntryCall.readBoundedFile, if_pos hlong]
      rfl
    rw [hread]
    exact Fails.bind ⟨_, st, rfl⟩
  unfold EntryCall.applyUpdate
  rw [hmergeBase]
  refine Fails.bind ?_
  unfold EntryCall.applyThreeWayUpdate
  cases hbase : call.verifyFile base.payload base.identity with
  | error error => exact Fails.bind ⟨error, st, rfl⟩
  | ok baseBytes =>
      refine Fails.read (.pure baseBytes st) ?_
      cases hincoming : call.verifyFile call.payload new with
      | error error => exact Fails.bind ⟨error, st, rfl⟩
      | ok incoming => exact Fails.read (.pure incoming st) (Fails.bind hcandidate)

theorem fails_applyUpdate (h : st.node target.path = some .directory)
    (hpreimage : st.node (target.parent ++ [call.preimageName]) = none) :
    Fails (call.applyUpdate target old new) st := by
  cases hmergeBase : call.mergeBase with
  | none =>
      rw [applyUpdate_of_none hmergeBase]
      exact fails_applyFencedUpdate h hpreimage 7
  | some base =>
      exact fails_applyUpdate_of_mergeBase hmergeBase hpreimage fun _ =>
        Fails.bind (fails_openCurrent h)

theorem fails_applyUpdate_of_long {bytes : List UInt8} (hmergeBase : call.mergeBase = some base)
    (hpreimage : st.node (target.parent ++ [call.preimageName]) = none)
    (hfile : st.file target.path = some bytes) (hlong : maxGenerationFileBytes < bytes.length) :
    Fails (call.applyUpdate target old new) st :=
  fails_applyUpdate_of_mergeBase hmergeBase hpreimage fun hnext =>
    Fails.read (reads_openNamed_of_file hfile) (hnext bytes hlong)

theorem fails_applyFencedRename
    (h : st.node source.path = some .directory ∨ st.node destination.path = some .directory)
    (hpreimage : st.node (source.parent ++ [call.preimageName]) = none) (attempts : Nat) :
    Fails (call.applyFencedRename source destination old new (attempts + 1)) st := by
  by_cases hdestination : st.node destination.path = some .directory
  · exact Fails.bind (fails_digestTarget hdestination)
  · have hsource : st.node source.path = some .directory := h.resolve_right hdestination
    refine Fails.read (reads_digestTarget hdestination) ?_
    split
    · exact Fails.bind (fails_digestTarget hsource)
    · exact Fails.read (reads_openNamed_of_none hpreimage) (Fails.bind (fails_digestTarget hsource))

end Algorithms

/-! ## Applies that are not resumable -/

section NotResumable

open EntryCall

variable {call : EntryCall} {entry : GenerationDeltaEntry}
  {existingPath : Option GenerationPathRecord} {old new : GenerationFileIdentity}
  {st : MountTree}

theorem not_resumable_of_fails (h : Fails (call.applyEntry entry existingPath) st) :
    ¬ call.Resumable entry existingPath st := by
  intro hresumable
  obtain ⟨error, st', hrun⟩ := h
  obtain ⟨-, result, again, st'', hok, -⟩ := hresumable st (Program.Passes.refl _ _ _)
  rw [EntryCall.apply, hrun] at hok
  cases hok

/-- The user writes at the targets, and the apply fails. -/
theorem not_resumable_of_edited {edited : MountTree}
    (hchange : LocalChange (targets entry existingPath) st edited)
    (h : Fails (call.applyEntry entry existingPath) edited) :
    ¬ call.Resumable entry existingPath st := by
  intro hresumable
  obtain ⟨error, st', hrun⟩ := h
  obtain ⟨result, st'', hok⟩ := (hresumable st (Program.Passes.refl _ _ _)).1 edited hchange
  rw [EntryCall.apply, hrun] at hok
  cases hok

/-- An apply leaves a tree that it passes, and ends in another one if it is not stopped. -/
theorem not_resumable_of_stop {stopped st' : MountTree} {result again : EntryResult}
    (hstopped : (call.applyEntry entry existingPath).Passes MountTree.perform st stopped)
    (hrun : call.apply entry existingPath st = (.ok result, st'))
    (hagain : call.apply entry existingPath stopped = (.ok again, stopped))
    (hne : stopped ≠ st') : ¬ call.Resumable entry existingPath st := by
  intro hresumable
  obtain ⟨-, result', again', st'', hfirst, hsecond, -⟩ := hresumable stopped hstopped
  rw [hrun] at hfirst
  rw [hagain] at hsecond
  cases hfirst
  cases hsecond
  exact hne rfl

section Opened

variable {α : Type} {value : α} {program : EntryProgram α} {body : α → EntryProgram EntryResult}

theorem not_resumable_of_blocked (hprogram : call.applyEntry entry existingPath = program >>= body)
    (hunbegun : Unbegun call entry existingPath st)
    (hblocked : Blocked program value (targets entry existingPath) st)
    (hbody : ∀ st', (∀ target ∈ targets entry existingPath,
        st'.node (target.parent ++ [call.preimageName]) = none) →
      (∃ target ∈ targets entry existingPath, st'.node target.path = some .directory) →
        Fails (body value) st') : ¬ call.Resumable entry existingPath st := by
  refine not_resumable_of_fails ?_
  rw [hprogram]
  rcases hblocked with hfails | ⟨st', hrun, hgrows, hdirectory⟩
  · exact Fails.bind hfails
  · refine Fails.behind hrun (hbody st' (fun target htarget => ?_) hdirectory)
    rw [hgrows.node_eq hunbegun.unreserved preimageName_mem]
    exact hunbegun.unused target htarget _ preimageName_mem

/-- An algorithm that publishes stops where the temporary is linked to the target, and
reads no more than that when it is made again. -/
theorem not_resumable_of_published {target : SecureTarget} (bytes : List UInt8)
    (hprogram : call.applyEntry entry existingPath = program >>= body)
    (hopens : Opens program value (targets entry existingPath))
    (hunbegun : Unbegun call entry existingPath st)
    (hworkable : Workable (targets entry existingPath) st)
    (hmem : target ∈ targets entry existingPath)
    (hbody : ∀ s, (∀ target ∈ targets entry existingPath, Opened target s) →
      (∀ target ∈ targets entry existingPath, ∀ name ∈ call.names,
        s.node (target.parent ++ [name]) = none) →
      (∀ target ∈ targets entry existingPath, s.file target.path = st.file target.path) →
      ∃ moved linked s' result again stops,
        Undisturbed (body value) s (.ok result) s' stops ∧ stops linked ∧
        (∀ target ∈ targets entry existingPath, linked.node target.parent = some .directory) ∧
        moved.node (target.parent ++ [call.temporaryName]) = none ∧
        PublishedTo call target bytes moved linked s' ∧ Reads (body value) linked (.ok again)) :
    ¬ call.Resumable entry existingPath st := by
  obtain ⟨opened, stops, hopen, hparents, hchange, hfiles, -⟩ := hopens.opens st hworkable
  have hopened : ∀ target ∈ targets entry existingPath, Opened target opened :=
    fun target htarget => ⟨hparents target htarget, (hworkable.of_change hchange).path _ htarget⟩
  have hunused : ∀ target ∈ targets entry existingPath, ∀ name ∈ call.names,
      opened.node (target.parent ++ [name]) = none := by
    intro target htarget name hname
    rw [node_of_change hunbegun.unreserved hchange hname]
    exact hunbegun.unused target htarget name hname
  obtain ⟨moved, linked, st', result, again, stops', hrun, hstop, hlinked, htemporary, hpublished,
    hagain⟩ := hbody opened hopened hunused hfiles
  have hall : Undisturbed (call.applyEntry entry existingPath) st (.ok result) st'
      (fun stop => stops stop ∨ stops' stop) := by
    rw [hprogram]
    exact hopen.bind hrun
  have hname : target.path ≠ target.parent ++ [call.temporaryName] := fun heq =>
    name_ne_of_unreserved (hunbegun.unreserved target hmem)
      (temporaryName_mem : call.temporaryName ∈ call.names)
      (List.cons.inj (List.append_cancel_left heq)).1
  have hrerun : call.apply entry existingPath linked = (.ok again, linked) := by
    rw [EntryCall.apply, hprogram, Program.run_bind_of_ok _ (hopens.again linked hlinked)]
    exact hagain.run
  refine not_resumable_of_stop ((hall.passes linked).mpr (Or.inr hstop)) hall.run hrerun ?_
  · intro heq
    have hleft : linked.node (target.parent ++ [call.temporaryName]) = some (.file bytes) := by
      rw [hpublished.linked, Function.update_of_ne hname.symm, Function.update_self]
    rw [heq, hpublished.published, Function.update_of_ne hname.symm, htemporary] at hleft
    cases hleft

end Opened

/-! ### The kinds of entries -/

theorem PublishedTo.linked_of_ne {target : SecureTarget} {bytes : List UInt8}
    {moved linked st' : MountTree} (h : PublishedTo call target bytes moved linked st')
    {path : MountPath} (htemporary : path ≠ target.parent ++ [call.temporaryName])
    (hpath : path ≠ target.path) : linked.node path = moved.node path := by
  rw [h.linked, Function.update_of_ne hpath, Function.update_of_ne htemporary]

theorem PublishedTo.linked_file {target : SecureTarget} {bytes : List UInt8}
    {moved linked st' : MountTree} (h : PublishedTo call target bytes moved linked st') :
    linked.file target.path = some bytes := by
  rw [MountTree.file_eq_some, h.linked, Function.update_self]

theorem PublishedTo.linked_directory {target : SecureTarget} {bytes : List UInt8}
    {moved linked st' : MountTree} (h : PublishedTo call target bytes moved linked st')
    (htemporary : moved.node (target.parent ++ [call.temporaryName]) = none)
    (hpath : moved.node target.path ≠ some .directory) {dir : MountPath}
    (hdir : moved.node dir = some .directory) : linked.node dir = some .directory := by
  rw [h.linked_of_ne, hdir]
  · intro heq
    rw [heq, htemporary] at hdir
    cases hdir
  · intro heq
    rw [heq] at hdir
    exact hpath hdir

theorem not_resumable_create (hold : entry.old = none) (hnew : entry.new = some new)
    (hunbegun : Unbegun call entry existingPath st)
    (hworkable : Workable (targets entry existingPath) st)
    (hfree : st.file (LogicalPath.target new.logicalPath).path = none) :
    ¬ call.Resumable entry existingPath st := by
  obtain ⟨bytes, hpayload⟩ := hunbegun.payload new hnew
  have htargets : targets entry existingPath = _ := targets_create hold hnew
  have hopens := opens_openTarget new.logicalPath
  have hprogram : call.applyEntry entry existingPath = _ := applyEntry_create hold hnew
  rw [← htargets] at hopens
  generalize LogicalPath.target new.logicalPath = target at *
  have hmem : target ∈ targets entry existingPath := htargets ▸ List.mem_cons_self
  refine not_resumable_of_published bytes hprogram hopens hunbegun hworkable hmem ?_
  intro s hopened hunused hfiles
  have htemporary := hunused _ hmem _ temporaryName_mem
  obtain ⟨linked, s', stops, hrun, hstop, hpublished⟩ := does_applyCreate (hopened _ hmem)
    ⟨hpayload, htemporary, name_ne_of_unreserved (hunbegun.unreserved _ hmem) temporaryName_mem⟩
    ((hfiles _ hmem).trans hfree)
  refine ⟨s, linked, s', _, _, stops, Program.Does.read (reads_callHook _) hrun, hstop,
    fun other hother => ?_, htemporary, hpublished,
    Program.Does.read (reads_callHook _) (reads_applyCreate hpublished.linked_file)⟩
  exact hpublished.linked_directory htemporary (hopened _ hmem).path (hopened other hother).parent

/-- An update of the old file to another content, also one that a rename asks for. -/
theorem not_resumable_update {α : Type} {value : α} {target : SecureTarget} {local_ : List UInt8}
    {program : EntryProgram α} {body : α → EntryProgram EntryResult}
    (hprogram : call.applyEntry entry existingPath = program >>= body)
    (hopens : Opens program value (targets entry existingPath))
    (hbody : body value = callHook .afterTargetOpen >>= fun _ =>
      call.applyFencedUpdate target old new maxAttempts)
    (hmem : target ∈ targets entry existingPath)
    (hparents : ∀ other ∈ targets entry existingPath, other.parent = target.parent)
    (hnew : entry.new = some new) (hunbegun : Unbegun call entry existingPath st)
    (hworkable : Workable (targets entry existingPath) st)
    (hfile : st.file target.path = some local_) (hold : call.digest local_ = old.contentSha256)
    (hdiffers : call.digest local_ ≠ new.contentSha256) :
    ¬ call.Resumable entry existingPath st := by
  obtain ⟨bytes, hpayload⟩ := hunbegun.payload new hnew
  have hname := name_ne_of_unreserved (hunbegun.unreserved _ hmem)
    (temporaryName_mem : call.temporaryName ∈ call.names)
  have hpreimageName := name_ne_of_unreserved (hunbegun.unreserved _ hmem)
    (preimageName_mem : call.preimageName ∈ call.names)
  refine not_resumable_of_published bytes hprogram hopens hunbegun hworkable hmem ?_
  intro s hopened hunused hfiles
  have hpreimage := hunused _ hmem _ preimageName_mem
  have hcurrent := (hfiles _ hmem).trans hfile
  obtain ⟨moved, linked, s', stops, hrun, hstop, hmoved, hpublished⟩ :=
    does_applyFencedUpdate (hopened _ hmem) hpreimage
      ⟨hpayload, hunused _ hmem _ temporaryName_mem, hname⟩ temporaryName_ne_preimageName
      hcurrent hold hdiffers 6
  obtain ⟨hopened', hpreimage', hgone⟩ :=
    moved_to_preimage (hopened _ hmem) hcurrent hpreimage hmoved
  have htemporary : moved.node (target.parent ++ [call.temporaryName]) = none := by
    rw [hmoved, Function.update_of_ne, Function.update_of_ne]
    · exact hunused _ hmem _ temporaryName_mem
    · exact fun heq => hname (List.cons.inj (List.append_cancel_left heq)).1.symm
    · exact fun heq =>
        temporaryName_ne_preimageName (List.cons.inj (List.append_cancel_left heq)).1
  have hholds : HoldsPreimage call target old linked := by
    refine ⟨local_, ?_, hold⟩
    rw [MountTree.file, hpublished.linked_of_ne]
    · exact hpreimage'
    · exact fun heq =>
        temporaryName_ne_preimageName (List.cons.inj (List.append_cancel_left heq)).1.symm
    · exact fun heq => hpreimageName (List.cons.inj (List.append_cancel_left heq)).1.symm
  rw [hbody]
  refine ⟨moved, linked, s', .of .applied true, _, stops,
    Program.Does.read (reads_callHook _) hrun, hstop, fun other hother => ?_, htemporary,
    hpublished, Program.Does.read (reads_callHook _)
      (reads_applyFencedUpdate_of_preimage hholds hpublished.linked_file 7)⟩
  rw [hparents other hother]
  exact hpublished.linked_directory htemporary hopened'.path hopened'.parent

/-- A rename of the old file to a free path. -/
theorem not_resumable_rename {local_ : List UInt8} (hold : entry.old = some old)
    (hnew : entry.new = some new) (hmoves : old.logicalPath ≠ new.logicalPath)
    (helsewhere : localPath existingPath old ≠ new.logicalPath)
    (hunbegun : Unbegun call entry existingPath st)
    (hworkable : Workable (targets entry existingPath) st)
    (hfree : st.file (LogicalPath.target new.logicalPath).path = none)
    (hfile : st.file (LogicalPath.target (localPath existingPath old)).path = some local_)
    (hdigest : call.digest local_ = old.contentSha256) :
    ¬ call.Resumable entry existingPath st := by
  obtain ⟨bytes, hpayload⟩ := hunbegun.payload new hnew
  have htargets : targets entry existingPath = _ := targets_both hold hnew hmoves
  have hopens := opens_openBoth (localPath existingPath old) new.logicalPath
  have hne := target_path_ne helsewhere
  have hprogram : call.applyEntry entry existingPath = _ := applyEntry_both hold hnew hmoves
  rw [← htargets] at hopens
  generalize LogicalPath.target (localPath existingPath old) = source at *
  generalize LogicalPath.target new.logicalPath = destination at *
  have hsource : source ∈ targets entry existingPath := htargets ▸ List.mem_cons_self
  have hdestination : destination ∈ targets entry existingPath :=
    htargets ▸ List.mem_cons_of_mem _ List.mem_cons_self
  have hsourceName := name_ne_of_unreserved (hunbegun.unreserved _ hsource)
    (temporaryName_mem : call.temporaryName ∈ call.names)
  have hname := name_ne_of_unreserved (hunbegun.unreserved _ hdestination)
    (preimageName_mem : call.preimageName ∈ call.names)
  have hname' := name_ne_of_unreserved (hunbegun.unreserved _ hdestination)
    (temporaryName_mem : call.temporaryName ∈ call.names)
  refine not_resumable_of_published bytes hprogram hopens hunbegun hworkable hdestination ?_
  intro s hopened hunused hfiles
  rw [if_neg helsewhere]
  have hsourceOpened := hopened _ hsource
  have hdestinationOpened := hopened _ hdestination
  have hpreimage := hunused _ hsource _ preimageName_mem
  have hcurrent := (hfiles _ hsource).trans hfile
  have hnone := (hfiles _ hdestination).trans hfree
  have hadmits : Admits call destination new s := by
    intro found hfound
    rw [hnone] at hfound
    cases hfound
  obtain ⟨moved, hmove, hopened', hholds, hparent, hpath, hother⟩ :=
    does_moveSource hsourceOpened hdestinationOpened hpreimage hcurrent hdigest hne hname
  have htemporary : moved.node (destination.parent ++ [call.temporaryName]) = none := by
    rw [hother, hunused _ hdestination _ temporaryName_mem]
    · exact fun heq => hsourceName (List.cons.inj (List.append_inj' heq rfl).2).1.symm
    · exact fun heq =>
        temporaryName_ne_preimageName (List.cons.inj (List.append_inj' heq rfl).2).1
  have hdestination' : Opened destination moved := ⟨hparent, hpath ▸ hdestinationOpened.path⟩
  have hgone : moved.file destination.path = none := by
    rw [MountTree.file, hpath]
    exact hnone
  obtain ⟨linked, s', stops, hrest, hstop, hpublished⟩ :=
    does_applyFencedRename_publish hdestination' hholds ⟨hpayload, htemporary, hname'⟩ hgone 6
  have hholds' : HoldsPreimage call source old linked := by
    obtain ⟨found, hfound, hfoundDigest⟩ := hholds
    refine ⟨found, ?_, hfoundDigest⟩
    rw [MountTree.file, hpublished.linked_of_ne]
    · exact hfound
    · exact fun heq =>
        temporaryName_ne_preimageName (List.cons.inj (List.append_inj' heq rfl).2).1.symm
    · exact fun heq => hname (List.cons.inj (List.append_inj' heq rfl).2).1.symm
  refine ⟨moved, linked, s', .of .applied true, .of .applied true, _,
    Program.Does.read (reads_callHook _) (undisturbed_applyFencedRename_move hsourceOpened
      hdestinationOpened.path hpreimage hadmits hcurrent hdigest 7 hmove hrest),
    Or.inr hstop, ?_, htemporary, hpublished, Program.Does.read (reads_callHook _)
      (reads_applyFencedRename_of_preimage hpublished.linked_file (digest_of_verifyFile hpayload)
        hholds' 7)⟩
  rw [htargets]
  refine List.forall_mem_cons.mpr ⟨?_, List.forall_mem_singleton.mpr ?_⟩
  · exact hpublished.linked_directory htemporary hdestination'.path hopened'.parent
  · exact hpublished.linked_directory htemporary hdestination'.path hparent

/-- An update with a merge base, for which the user leaves a file that is too large. -/
theorem not_resumable_mergeBase {α : Type} {value : α} {target : SecureTarget}
    {base : GenerationMergeBase} {program : EntryProgram α} {body : α → EntryProgram EntryResult}
    (hprogram : call.applyEntry entry existingPath = program >>= body)
    (hopens : Opens program value (targets entry existingPath))
    (hbody : body value = callHook .afterTargetOpen >>= fun _ => call.applyUpdate target old new)
    (hmem : target ∈ targets entry existingPath) (hmergeBase : call.mergeBase = some base)
    (hunbegun : Unbegun call entry existingPath st)
    (hworkable : Workable (targets entry existingPath) st) :
    ¬ call.Resumable entry existingPath st := by
  obtain ⟨opened, stops, hopen, hparents, hchange, -, -⟩ := hopens.opens st hworkable
  have hworkable' := hworkable.of_change hchange
  let long : List UInt8 := List.replicate (maxGenerationFileBytes + 1) 0
  let edited := opened.put target.parent target.name (some (.file long))
  have hedited : edited.node = Function.update opened.node target.path (some (.file long)) :=
    MountTree.node_put (hparents _ hmem) (hworkable'.path _ hmem) _
  have hlocal : LocalChange (targets entry existingPath) st edited := by
    intro path
    by_cases hpath : path = target.path
    · refine Or.inr (Or.inr ⟨?_, target, hmem, hpath⟩)
      rw [hedited, hpath, Function.update_self]
      exact nofun
    · have hsame : edited.node path = opened.node path := by
        rw [hedited, Function.update_of_ne hpath]
      rw [hsame]
      exact hchange path
  have hparents' : ∀ other ∈ targets entry existingPath,
      edited.node other.parent = some .directory := by
    intro other hother
    rw [hedited, Function.update_of_ne, hparents other hother]
    intro heq
    exact hworkable'.path _ hmem (heq ▸ hparents other hother)
  refine not_resumable_of_edited hlocal ?_
  rw [hprogram]
  refine Fails.behind (hopens.again edited hparents') ?_
  rw [hbody]
  have hpreimage : edited.node (target.parent ++ [call.preimageName]) = none := by
    rw [node_of_change hunbegun.unreserved hlocal preimageName_mem]
    exact hunbegun.unused _ hmem _ preimageName_mem
  have hfile : edited.file target.path = some long := by
    rw [MountTree.file_eq_some, hedited, Function.update_self]
  have hlong : maxGenerationFileBytes < long.length := by
    rw [List.length_replicate]
    exact Nat.lt_succ_self _
  exact Fails.read (reads_callHook _) (fails_applyUpdate_of_long hmergeBase hpreimage hfile hlong)

end NotResumable

/-! ## Resumable applies -/

section Kinds

open EntryCall

variable {call : EntryCall} {entry : GenerationDeltaEntry}
  {existingPath : Option GenerationPathRecord} {old new : GenerationFileIdentity}
  {st : MountTree}

theorem resumable_iff_of_create (hold : entry.old = none) (hnew : entry.new = some new)
    (hunbegun : Unbegun call entry existingPath st) :
    call.Resumable entry existingPath st ↔ Workable (targets entry existingPath) st ∧
      (st.file (LogicalPath.target new.logicalPath).path).isSome = true := by
  have htargets : targets entry existingPath = _ := targets_create hold hnew
  refine ⟨fun hresumable => ?_, fun h => resumable_create hold hnew hunbegun h.1 h.2⟩
  have hworkable : Workable (targets entry existingPath) st := by
    by_contra hnot
    refine not_resumable_of_blocked (applyEntry_create hold hnew) hunbegun
      (htargets ▸ blocked_openTarget (htargets ▸ hnot)) (fun st' _ hdirectory => ?_) hresumable
    rw [htargets] at hdirectory
    obtain ⟨target, htarget, hdirectory⟩ := hdirectory
    rw [List.mem_singleton.mp htarget] at hdirectory
    exact Fails.read (reads_callHook _) (fails_applyCreate hdirectory)
  refine ⟨hworkable, ?_⟩
  by_contra hnone
  exact not_resumable_create hold hnew hunbegun hworkable
    (Option.not_isSome_iff_eq_none.mp hnone) hresumable

theorem resumable_iff_of_delete (hold : entry.old = some old) (hnew : entry.new = none)
    (hunbegun : Unbegun call entry existingPath st) :
    call.Resumable entry existingPath st ↔ Workable (targets entry existingPath) st := by
  have htargets : targets entry existingPath = _ := targets_delete hold hnew
  refine ⟨fun hresumable => ?_, resumable_delete hold hnew hunbegun⟩
  by_contra hnot
  refine not_resumable_of_blocked (applyEntry_delete hold hnew) hunbegun
    (htargets ▸ blocked_openTarget (htargets ▸ hnot)) (fun st' hpreimage hdirectory => ?_)
    hresumable
  rw [htargets] at hdirectory hpreimage
  obtain ⟨target, htarget, hdirectory⟩ := hdirectory
  rw [List.mem_singleton.mp htarget] at hdirectory
  exact Fails.read (reads_callHook _)
    (fails_applyFencedDelete hdirectory (hpreimage _ List.mem_cons_self) 7)

/-- An update of a target that was opened, also one that a rename asks for. -/
theorem resumable_iff_of_update {α : Type} {value : α} {target : SecureTarget}
    {program : EntryProgram α} {body : α → EntryProgram EntryResult}
    (hprogram : call.applyEntry entry existingPath = program >>= body)
    (hopens : Opens program value (targets entry existingPath))
    (hblocked : ¬ Workable (targets entry existingPath) st →
      Blocked program value (targets entry existingPath) st)
    (hbody : body value = callHook .afterTargetOpen >>= fun _ => call.applyUpdate target old new)
    (hmem : target ∈ targets entry existingPath)
    (hall : ∀ other ∈ targets entry existingPath, other = target)
    (hnew : entry.new = some new) (hunbegun : Unbegun call entry existingPath st) :
    call.Resumable entry existingPath st ↔ Workable (targets entry existingPath) st ∧
      call.mergeBase = none ∧ ∀ bytes, st.file target.path = some bytes →
        call.digest bytes = old.contentSha256 → call.digest bytes = new.contentSha256 := by
  constructor
  · intro hresumable
    have hworkable : Workable (targets entry existingPath) st := by
      by_contra hnot
      refine not_resumable_of_blocked hprogram hunbegun (hblocked hnot)
        (fun st' hpreimage hdirectory => ?_) hresumable
      obtain ⟨other, hother, hdirectory⟩ := hdirectory
      rw [hall other hother] at hdirectory
      rw [hbody]
      exact Fails.read (reads_callHook _) (fails_applyUpdate hdirectory (hpreimage _ hmem))
    have hmergeBase : call.mergeBase = none := by
      by_contra hsome
      obtain ⟨base, hbase⟩ := Option.ne_none_iff_exists'.mp hsome
      exact not_resumable_mergeBase hprogram hopens hbody hmem hbase hunbegun hworkable hresumable
    refine ⟨hworkable, hmergeBase, fun bytes hfile hold => ?_⟩
    by_contra hdiffers
    rw [applyUpdate_of_none hmergeBase] at hbody
    exact not_resumable_update hprogram hopens hbody hmem
      (fun other hother => congrArg SecureTarget.parent (hall other hother)) hnew hunbegun
      hworkable hfile hold hdiffers hresumable
  · rintro ⟨hworkable, hmergeBase, hquiet⟩
    rw [applyUpdate_of_none hmergeBase] at hbody
    exact resumable_update program body hprogram hopens hbody hmem hnew hunbegun hworkable hquiet

theorem resumable_iff_of_rename (hold : entry.old = some old) (hnew : entry.new = some new)
    (hmoves : old.logicalPath ≠ new.logicalPath)
    (helsewhere : localPath existingPath old ≠ new.logicalPath)
    (hunbegun : Unbegun call entry existingPath st) :
    call.Resumable entry existingPath st ↔ Workable (targets entry existingPath) st ∧
      (st.file (LogicalPath.target new.logicalPath).path = none → ∀ bytes,
        st.file (LogicalPath.target (localPath existingPath old)).path = some bytes →
          call.digest bytes ≠ old.contentSha256) := by
  have htargets : targets entry existingPath = _ := targets_both hold hnew hmoves
  refine ⟨fun hresumable => ?_, fun h =>
    resumable_rename hold hnew hmoves helsewhere hunbegun h.1 h.2⟩
  have hworkable : Workable (targets entry existingPath) st := by
    by_contra hnot
    refine not_resumable_of_blocked (applyEntry_both hold hnew hmoves) hunbegun
      (htargets ▸ blocked_openBoth (htargets ▸ hnot)) (fun st' hpreimage hdirectory => ?_)
      hresumable
    rw [htargets] at hdirectory hpreimage
    obtain ⟨target, htarget, hdirectory⟩ := hdirectory
    dsimp only
    rw [if_neg helsewhere]
    refine Fails.read (reads_callHook _)
      (fails_applyFencedRename ?_ (hpreimage _ List.mem_cons_self) 7)
    rcases List.mem_cons.mp htarget with rfl | htarget
    · exact Or.inl hdirectory
    · rw [List.mem_singleton.mp htarget] at hdirectory
      exact Or.inr hdirectory
  refine ⟨hworkable, fun hfree bytes hfile hdigest => ?_⟩
  exact not_resumable_rename hold hnew hmoves helsewhere hunbegun hworkable hfree hfile hdigest
    hresumable

end Kinds

/-! ### A delete, and an update that is blocked -/

section Samples

def noteBytes (text : String) : List UInt8 := asBytes text.toList

/-- A version of the note at `n`, where the digest of a text is the text. -/
def noteIdentity (text : String) : GenerationFileIdentity where
  projectionId := ⟨"p".toList⟩
  logicalPath := ⟨"n".toList⟩
  contentVersionId := ⟨"v".toList⟩
  contentSha256 := sha256Label id (noteBytes text)
  byteLength := (noteBytes text).length.toUInt64

def noteCall (payload mergeBase : Option String) : EntryCall where
  codec := { unicode := plainTables, jsonLength := fun _ => some 0, sha256 := id }
  deltaId := "d".toList
  index := 0
  payload := payload.map noteBytes
  mergeBase := mergeBase.map fun text => ⟨some (noteBytes text), noteIdentity text⟩

def noteTree (text : String) : MountTree :=
  MountTree.empty.put [] "n".toList (some (.file (noteBytes text)))

end Samples

end Locality.Delivery
