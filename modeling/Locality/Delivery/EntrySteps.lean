/-
  Delivery/EntrySteps.lean --- what the steps of an apply do while no other program runs:
  the result of each step, the tree that it leaves, and the trees that it passes.
-/
import Locality.Delivery.ApplyEntry
import Mathlib.Logic.Function.Basic

set_option autoImplicit false

namespace Locality.Delivery

open Locality.Core Locality.Foundation Locality.Protocol

/-! ## Operations on trees -/

namespace MountTree

variable {self : MountTree} {parent : MountPath} {name : Text}

theorem node_put (hparent : self.node parent = some .directory)
    (hleaf : self.node (parent ++ [name]) ≠ some .directory) (value : Option MountNode) :
    (self.put parent name value).node = Function.update self.node (parent ++ [name]) value := by
  funext path
  rw [put, dif_pos ⟨hparent, hleaf⟩, Function.update_apply]

/-- What has a child is a directory, so a child keeps its parents. -/
theorem node_below {path dir : MountPath} (hleads : dir <+: path) (hne : dir ≠ path)
    (hpath : (self.node path).isSome = true) : self.node dir = some .directory := by
  obtain ⟨rest, rfl⟩ := hleads
  induction rest using List.reverseRecOn with
  | nil => exact absurd (List.append_nil dir).symm hne
  | append_singleton rest last ih =>
      rw [← List.append_assoc] at hpath
      have hparent := self.rooted _ _ hpath
      cases rest with
      | nil => rw [List.append_nil] at hparent; exact hparent
      | cons first rest =>
          refine ih ?_ (by rw [hparent]; rfl)
          exact fun heq => List.cons_ne_nil first rest (List.append_right_eq_self.mp heq.symm)

theorem openNamed_of_none (h : self.node (parent ++ [name]) = none) :
    self.openNamed parent name = .ok none := by
  rw [openNamed, h]

theorem openNamed_of_file {bytes : List UInt8}
    (h : self.node (parent ++ [name]) = some (.file bytes)) :
    self.openNamed parent name = .ok (some bytes) := by
  rw [openNamed, h]

theorem openNamed_of_directory (h : self.node (parent ++ [name]) = some .directory) :
    self.openNamed parent name = .error .notRegularFile := by
  rw [openNamed, h]

/-- What an open file of the path holds. -/
def file (self : MountTree) (path : MountPath) : Option (List UInt8) :=
  match self.node path with
  | some (.file bytes) => some bytes
  | _ => none

theorem file_eq_some {path : MountPath} {bytes : List UInt8} :
    self.file path = some bytes ↔ self.node path = some (.file bytes) := by
  unfold file
  split
  · rename_i found hnode
    rw [hnode, Option.some.injEq, Option.some.injEq, MountNode.file.injEq]
  · rename_i hnode
    exact iff_of_false nofun (hnode bytes)

theorem node_of_file {path : MountPath} {bytes : List UInt8} (h : self.file path = some bytes) :
    self.node path = some (.file bytes) := file_eq_some.mp h

theorem node_eq_none {path : MountPath} (h : self.file path = none)
    (hne : self.node path ≠ some .directory) : self.node path = none := by
  cases hnode : self.node path with
  | none => rfl
  | some node =>
      cases node with
      | directory => exact absurd hnode hne
      | file bytes =>
          rw [file_eq_some.mpr hnode] at h
          cases h

theorem ne_directory_of_file {path : MountPath} {bytes : List UInt8}
    (h : self.file path = some bytes) : self.node path ≠ some .directory := by
  rw [node_of_file h]
  exact nofun

theorem openNamed_of_ne (h : self.node (parent ++ [name]) ≠ some .directory) :
    self.openNamed parent name = .ok (self.file (parent ++ [name])) := by
  cases hfile : self.file (parent ++ [name]) with
  | none => exact openNamed_of_none (node_eq_none hfile h)
  | some bytes => exact openNamed_of_file (node_of_file hfile)

theorem rename_ok {source target : Text} {bytes : List UInt8}
    (hparent : self.node parent = some .directory)
    (hsource : self.node (parent ++ [source]) = some (.file bytes))
    (htarget : self.node (parent ++ [target]) = none) :
    ∃ st', self.rename parent source target = (.ok (), st') ∧
      st'.node = Function.update (Function.update self.node (parent ++ [source]) none)
        (parent ++ [target]) (some (.file bytes)) := by
  refine ⟨_, by rw [rename, hsource]; dsimp only; rw [htarget], ?_⟩
  have hleaf : self.node (parent ++ [source]) ≠ some .directory := by
    rw [hsource]
    exact nofun
  have hput := node_put hparent hleaf none
  have hne : parent ≠ parent ++ [source] := fun heq =>
    List.cons_ne_nil source [] (List.append_right_eq_self.mp heq.symm)
  have hparent' : (self.put parent source none).node parent = some .directory := by
    rw [hput, Function.update_of_ne hne, hparent]
  rw [node_put hparent', hput]
  rw [hput, Function.update_apply]
  split
  · exact nofun
  · rw [htarget]
    exact nofun

theorem createNamed_ok (hparent : self.node parent = some .directory)
    (hname : self.node (parent ++ [name]) = none) :
    ∃ st', self.createNamed parent name = (.ok (), st') ∧
      st'.node = Function.update self.node (parent ++ [name]) (some (.file [])) := by
  refine ⟨_, by rw [createNamed, hname], ?_⟩
  refine node_put hparent ?_ _
  rw [hname]
  exact nofun

theorem write_ok {bytes : List UInt8} (byte : UInt8)
    (hparent : self.node parent = some .directory)
    (hname : self.node (parent ++ [name]) = some (.file bytes)) :
    ∃ st', self.write parent name byte = (.ok (), st') ∧
      st'.node = Function.update self.node (parent ++ [name])
        (some (.file (bytes ++ [byte]))) := by
  refine ⟨_, by rw [write, hname], ?_⟩
  refine node_put hparent ?_ _
  rw [hname]
  exact nofun

theorem link_ok {source target : Text} {bytes : List UInt8}
    (hparent : self.node parent = some .directory)
    (hsource : self.node (parent ++ [source]) = some (.file bytes))
    (htarget : self.node (parent ++ [target]) = none) :
    ∃ st', self.link parent source target = (.ok (), st') ∧
      st'.node = Function.update self.node (parent ++ [target]) (some (.file bytes)) := by
  refine ⟨_, by rw [link, hsource]; dsimp only; rw [htarget], ?_⟩
  refine node_put hparent ?_ _
  rw [htarget]
  exact nofun

theorem unlink_ok {bytes : List UInt8} (hparent : self.node parent = some .directory)
    (hname : self.node (parent ++ [name]) = some (.file bytes)) :
    ∃ st', self.unlink parent name = (.ok (), st') ∧
      st'.node = Function.update self.node (parent ++ [name]) none := by
  refine ⟨_, by rw [unlink, hname], ?_⟩
  refine node_put hparent ?_ _
  rw [hname]
  exact nofun

/-! ## Directories above a path -/

/-- The trees differ in directories that were made down to a path. -/
def MakesDirectories (st st' : MountTree) (path : MountPath) : Prop :=
  ∀ other, st'.node other = st.node other ∨
    (st.node other = none ∧ st'.node other = some .directory ∧ other <+: path)

theorem MakesDirectories.refl (st : MountTree) (path : MountPath) : MakesDirectories st st path :=
  fun _ => Or.inl rfl

theorem MakesDirectories.trans {st st' st'' : MountTree} {path : MountPath}
    (h : MakesDirectories st st' path) (h' : MakesDirectories st' st'' path) :
    MakesDirectories st st'' path := by
  intro other
  rcases h' other with hsame' | ⟨hnone', hmade', hleads'⟩
  · rw [hsame']
    exact h other
  · rcases h other with hsame | ⟨hnone, hmade, hleads⟩
    · exact Or.inr ⟨hsame.symm.trans hnone', hmade', hleads'⟩
    · rw [hmade] at hnone'
      cases hnone'

/-- The path is a directory already. -/
theorem MakesDirectories.eq_of_directory {st st' : MountTree} {path : MountPath}
    (h : MakesDirectories st st' path) (hpath : st.node path = some .directory) : st' = st := by
  refine ext_node fun other => ?_
  rcases h other with hsame | ⟨hnone, -, hleads⟩
  · exact hsame
  · by_cases hne : other = path
    · rw [hne, hpath] at hnone
      cases hnone
    · rw [node_below hleads hne (by rw [hpath]; rfl)] at hnone
      cases hnone

/-- No directory of the path is a file. -/
def Clears (st : MountTree) (path : MountPath) : Prop :=
  ∀ dir, dir <+: path → ∀ bytes, st.node dir ≠ some (.file bytes)

theorem Clears.mono {st st' : MountTree} {path : MountPath} (h : st.Clears path)
    (hmade : MakesDirectories st st' path) : st'.Clears path := by
  intro dir hleads bytes
  rcases hmade dir with hsame | ⟨-, hdirectory, -⟩
  · rw [hsame]
    exact h dir hleads bytes
  · rw [hdirectory]
    exact nofun

theorem clears_of_directory {st : MountTree} {path : MountPath}
    (h : st.node path = some .directory) : st.Clears path := by
  intro dir hleads bytes
  by_cases hne : dir = path
  · rw [hne, h]
    exact nofun
  · rw [node_below hleads hne (by rw [h]; rfl)]
    exact nofun

end MountTree

/-! ## Steps of a target -/

section Target

variable {target : SecureTarget} {name : Text} {st st' : MountTree}

/-- What a program does while no other program runs. -/
abbrev Undisturbed {α : Type} (program : EntryProgram α) (st : MountTree)
    (result : Except ApplyError α) (st' : MountTree) (stops : MountTree → Prop) : Prop :=
  Program.Does MountTree.perform program st result st' stops

/-- The program leaves the tree as it is. -/
abbrev Reads {α : Type} (program : EntryProgram α) (st : MountTree)
    (result : Except ApplyError α) : Prop :=
  Undisturbed program st result st (· = st)

theorem reads_tryOpen :
    Reads (target.tryOpen name) st (.ok (st.openNamed target.parent name)) :=
  ⟨rfl, fun _ => or_self_iff⟩

theorem reads_ofMount {α : Type} (result : Except MountError α) (st : MountTree) :
    Reads (EntryProgram.ofMount result) st (result.mapError .mount) :=
  .ofExcept _ st

theorem reads_openNamed (h : st.node (target.parent ++ [name]) ≠ some .directory) :
    Reads (target.openNamed name) st (.ok (st.file (target.parent ++ [name]))) := by
  have hopen : st.openNamed target.parent name = .ok (st.file (target.parent ++ [name])) :=
    MountTree.openNamed_of_ne h
  refine Program.Does.read reads_tryOpen ?_
  rw [hopen]
  exact reads_ofMount _ st

theorem reads_openCurrent (h : st.node target.path ≠ some .directory) :
    Reads target.openCurrent st (.ok (st.file target.path)) :=
  reads_openNamed h

theorem does_openChildDirectory {opened : MountPath} (hopened : st.node opened = some .directory)
    (hfile : ∀ bytes, st.node (opened ++ [name]) ≠ some (.file bytes)) :
    ∃ st', Undisturbed (openChildDirectory opened name) st (.ok (.ok ())) st'
        (fun stop => stop = st ∨ stop = st') ∧
      MountTree.MakesDirectories st st' (opened ++ [name]) ∧
      st'.node (opened ++ [name]) = some .directory := by
  have hperform : Undisturbed (openChildDirectory opened name) st _ _ _ :=
    .perform (MountOp.openChildDirectory opened name) st
  cases hnode : st.node (opened ++ [name]) with
  | none =>
      have hstep : st.openChildDirectory opened name =
          (.ok (), st.put opened name (some .directory)) := by
        rw [MountTree.openChildDirectory, hnode]
      have hleaf : st.node (opened ++ [name]) ≠ some .directory := by
        rw [hnode]
        exact nofun
      have hput := MountTree.node_put hopened hleaf (some .directory)
      refine ⟨_, ⟨congrArg (fun found => (Except.ok found.1, found.2)) hstep, fun stop => ?_⟩,
        fun other => ?_, ?_⟩
      · rw [← congrArg Prod.snd hstep]
        exact hperform.passes stop
      · rw [hput, Function.update_apply]
        split
        · rename_i heq
          rw [heq]
          exact Or.inr ⟨hnode, rfl, List.prefix_refl _⟩
        · exact Or.inl rfl
      · rw [hput, Function.update_self]
  | some node =>
      cases node with
      | file bytes => exact absurd hnode (hfile bytes)
      | directory =>
          have hstep : st.openChildDirectory opened name = (.ok (), st) := by
            rw [MountTree.openChildDirectory, hnode]
          refine ⟨st, ⟨congrArg (fun found => (Except.ok found.1, found.2)) hstep, fun stop => ?_⟩,
            MountTree.MakesDirectories.refl st _, hnode⟩
          have hstops := hperform.passes stop
          rw [show (MountTree.perform (.openChildDirectory opened name) st).2 = st from
            congrArg Prod.snd hstep] at hstops
          exact hstops

theorem does_openParents (names : MountPath) : ∀ {opened : MountPath} {st : MountTree},
    st.node opened = some .directory → st.Clears (opened ++ names) →
      ∃ st' stops, Undisturbed (openParents opened names) st (.ok ()) st' stops ∧
        (∀ stop, stops stop → MountTree.MakesDirectories st stop (opened ++ names)) ∧
        MountTree.MakesDirectories st st' (opened ++ names) ∧
        st'.node (opened ++ names) = some .directory := by
  induction names with
  | nil =>
      intro opened st hopened _
      rw [List.append_nil]
      exact ⟨st, _, .pure () st, fun stop hstop => hstop ▸ MountTree.MakesDirectories.refl st _,
        MountTree.MakesDirectories.refl st _, hopened⟩
  | cons name names ih =>
      intro opened st hopened hclears
      have hsplit : opened ++ name :: names = opened ++ [name] ++ names := by
        rw [List.append_assoc, List.singleton_append]
      have hleads : opened ++ [name] <+: opened ++ name :: names := hsplit ▸ List.prefix_append _ _
      obtain ⟨middle, hchild, hmade, hmiddle⟩ :=
        does_openChildDirectory hopened (hclears _ hleads)
      have hmade : MountTree.MakesDirectories st middle (opened ++ name :: names) := fun other =>
        (hmade other).imp_right fun h => ⟨h.1, h.2.1, h.2.2.trans hleads⟩
      obtain ⟨st', stops, hrest, hstops, hst', hdirectory⟩ := ih hmiddle
        (hsplit ▸ hclears.mono hmade)
      rw [← hsplit] at hstops hst' hdirectory
      refine ⟨st', _, hchild.bind (Program.Does.read (reads_ofMount _ middle) hrest), ?_,
        hmade.trans hst', hdirectory⟩
      rintro stop ((rfl | rfl) | hstop)
      · exact MountTree.MakesDirectories.refl _ _
      · exact hmade
      · exact hmade.trans (hstops stop hstop)

theorem run_openParents_blocked (names : MountPath) : ∀ {opened : MountPath} {st : MountTree},
    st.node opened = some .directory → ¬ st.Clears (opened ++ names) →
      ∃ error st', (openParents opened names).run MountTree.perform st = (.error error, st') := by
  induction names with
  | nil =>
      intro opened st hopened hclears
      rw [List.append_nil] at hclears
      exact absurd (MountTree.clears_of_directory hopened) hclears
  | cons name names ih =>
      intro opened st hopened hclears
      have hsplit : opened ++ name :: names = opened ++ [name] ++ names := by
        rw [List.append_assoc, List.singleton_append]
      by_cases hfile : ∃ bytes, st.node (opened ++ [name]) = some (.file bytes)
      · obtain ⟨bytes, hfile⟩ := hfile
        have hstep : st.openChildDirectory opened name = (.error .notADirectory, st) := by
          rw [MountTree.openChildDirectory, hfile]
        have hrun : (openChildDirectory opened name).run MountTree.perform st =
            (.ok (.error .notADirectory), st) :=
          congrArg (fun found => (Except.ok found.1, found.2)) hstep
        refine ⟨.mount .notADirectory, st, ?_⟩
        rw [openParents, Program.run_bind_of_ok _ hrun]
        rfl
      · rw [not_exists] at hfile
        obtain ⟨middle, hchild, hmade, hmiddle⟩ := does_openChildDirectory hopened hfile
        have hclears' : ¬ middle.Clears (opened ++ [name] ++ names) := by
          intro hmiddleClears
          refine hclears fun dir hleads bytes hdir => ?_
          rcases hmade dir with hsame | ⟨hnone, -, -⟩
          · exact hmiddleClears dir (hsplit ▸ hleads) bytes (hsame.trans hdir)
          · rw [hdir] at hnone
            cases hnone
        obtain ⟨error, st', hrest⟩ := ih hmiddle hclears'
        refine ⟨error, st', ?_⟩
        rw [openParents, Program.run_bind_of_ok _ hchild.run]
        exact hrest

theorem does_openTarget {path : LogicalPath} (h : st.Clears (LogicalPath.target path).parent) :
    ∃ st' stops, Undisturbed (openTarget path) st (.ok (LogicalPath.target path)) st' stops ∧
      (∀ stop, stops stop →
        MountTree.MakesDirectories st stop (LogicalPath.target path).parent) ∧
      MountTree.MakesDirectories st st' (LogicalPath.target path).parent ∧
      st'.node (LogicalPath.target path).parent = some .directory := by
  obtain ⟨st', stops, hparents, hstops, hst', hdirectory⟩ :=
    does_openParents (LogicalPath.target path).parent st.root h
  refine ⟨st', _, hparents.bind (.pure _ st'), ?_, hst', hdirectory⟩
  rintro stop (hstop | rfl)
  · exact hstops stop hstop
  · exact hst'

theorem run_openTarget_blocked {path : LogicalPath}
    (h : ¬ st.Clears (LogicalPath.target path).parent) :
    ∃ error st', (openTarget path).run MountTree.perform st = (.error error, st') := by
  obtain ⟨error, st', hrun⟩ := run_openParents_blocked _ st.root h
  exact ⟨error, st', Program.run_bind_of_error _ hrun _⟩

theorem reads_callHook (point : ApplyHook) : Reads (callHook point) st (.ok ()) :=
  ⟨rfl, fun _ => or_self_iff⟩

end Target

/-! ## Steps of an entry -/

section Entry

variable {call : EntryCall} {target : SecureTarget} {name : Text} {st : MountTree}

theorem reads_digestTarget (h : st.node target.path ≠ some .directory) :
    Reads (call.digestTarget target) st (.ok ((st.file target.path).map call.digest)) :=
  Program.Does.read (reads_openCurrent h) (.pure _ st)

theorem reads_digestOpenFileHandle {bytes : List UInt8}
    (h : st.file (target.parent ++ [name]) = some bytes) :
    Reads (call.digestOpenFileHandle target name) st (.ok (call.digest bytes)) := by
  refine Program.Does.read (reads_openNamed (MountTree.ne_directory_of_file h)) ?_
  rw [h]
  exact .pure _ st

theorem reads_conflictOutcome (h : st.node target.path ≠ some .directory)
    (incoming : Option GenerationFileIdentity) :
    Reads (call.conflictOutcome target incoming) st
      (.ok (.of (.conflict ((st.file target.path).map call.digest) incoming) false)) :=
  Program.Does.read (reads_digestTarget h) (.pure _ st)

end Entry

end Locality.Delivery
