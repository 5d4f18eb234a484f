/-
  Daemon/Disk.lean --- the directory tree below which a mount is projected: what exists,
  and what creating directories, renaming and writing do to it.

  A tree keeps what every file system keeps: whatever exists lies in directories
  (`Disk.rooted`), so nothing lies below a path that does not exist.  The operations
  fail as the system calls do, with their error texts; links, permissions and names
  that differ only in case are left out, and a path names its components literally.
-/
import Locality.Daemon.Host

set_option autoImplicit false

namespace Locality.Core.PathBuf

/-- The path and every path above it. -/
def ancestors (self : PathBuf) : List PathBuf :=
  self.components.inits.map fun components => ⟨self.absolute, components⟩

theorem mem_ancestors {self dir : PathBuf} :
    dir ∈ self.ancestors ↔ self.startsWith dir = true := by
  obtain ⟨absolute, components⟩ := self
  obtain ⟨absolute', components'⟩ := dir
  simp only [ancestors, List.mem_map, List.mem_inits, startsWith_iff, mk.injEq]
  constructor
  · rintro ⟨found, hprefix, rfl, rfl⟩
    exact ⟨rfl, hprefix⟩
  · rintro ⟨rfl, hprefix⟩
    exact ⟨components', hprefix, rfl, rfl⟩

/-- Two paths above one path lie one above the other. -/
theorem startsWith_total {path left right : PathBuf} (hleft : path.startsWith left = true)
    (hright : path.startsWith right = true) :
    left.startsWith right = true ∨ right.startsWith left = true := by
  obtain ⟨habs, hprefix⟩ := startsWith_iff.mp hleft
  obtain ⟨habs', hprefix'⟩ := startsWith_iff.mp hright
  obtain h | h := List.prefix_or_prefix_of_prefix hprefix hprefix'
  · exact .inr (startsWith_iff.mpr ⟨habs'.symm.trans habs, h⟩)
  · exact .inl (startsWith_iff.mpr ⟨habs.symm.trans habs', h⟩)

/-- The path below one directory as a path below another. -/
def rebase (self source target : PathBuf) : PathBuf :=
  ⟨target.absolute, target.components ++ self.components.drop source.components.length⟩

theorem rebase_rebase {self source target : PathBuf} (h : self.startsWith source = true) :
    (self.rebase source target).rebase target source = self := by
  obtain ⟨absolute, components⟩ := self
  obtain ⟨habs, ⟨rest, hrest⟩⟩ := startsWith_iff.mp h
  simp only at habs hrest
  simp [rebase, ← hrest, habs]

theorem rebase_mono {self dir source target : PathBuf} (h : self.startsWith dir = true)
    (hdir : dir.startsWith source = true) :
    (self.rebase source target).startsWith (dir.rebase source target) = true := by
  obtain ⟨-, ⟨rest, hrest⟩⟩ := startsWith_iff.mp h
  obtain ⟨-, ⟨rest', hrest'⟩⟩ := startsWith_iff.mp hdir
  refine startsWith_iff.mpr ⟨rfl, ?_⟩
  simp [rebase, ← hrest, ← hrest']

end Locality.Core.PathBuf

namespace Locality.Daemon

open Locality.Core Locality.Foundation

/-! ## Trees -/

inductive Node where
  | directory
  | file (content : FileContent)
  deriving DecidableEq, Repr

def Node.isFile : Node → Bool
  | directory => false
  | file _ => true

structure Disk where
  node : PathBuf → Option Node
  rooted : ∀ path dir, path.startsWith dir = true → path ≠ dir → (node path).isSome = true →
    node dir = some .directory

namespace Disk

def empty : Disk where
  node := fun _ => none
  rooted := fun _ _ _ _ h => (nomatch h)

/-- `Path::exists`. -/
def pathExists (self : Disk) (path : PathBuf) : Bool := (self.node path).isSome

/-- Nothing lies below a path that does not exist, or below a file. -/
theorem nothing_below {self : Disk} {path dir : PathBuf} (hbelow : path.startsWith dir = true)
    (hne : path ≠ dir) (hdir : self.node dir ≠ some .directory) : self.node path = none := by
  cases hnode : self.node path with
  | none => rfl
  | some node => exact absurd (self.rooted path dir hbelow hne (by rw [hnode]; rfl)) hdir

/-! ## Directories -/

/-- Some directory above the path, or the path itself, is a file. -/
def blocked (self : Disk) (path : PathBuf) : Bool :=
  path.ancestors.any fun dir => (self.node dir).any Node.isFile

theorem not_file_of_not_blocked {self : Disk} {path dir : PathBuf}
    (h : self.blocked path = false) (hdir : path.startsWith dir = true) :
    self.node dir = none ∨ self.node dir = some .directory := by
  have hany := List.any_eq_false.mp h dir (PathBuf.mem_ancestors.mpr hdir)
  cases hnode : self.node dir with
  | none => exact .inl rfl
  | some node =>
      cases node with
      | directory => exact .inr rfl
      | file content =>
          rw [hnode] at hany
          exact absurd rfl hany

/-- The tree with every directory of the path in it. -/
def withDirectories (self : Disk) (path : PathBuf) (h : self.blocked path = false) : Disk where
  node := fun found =>
    if path.startsWith found ∧ self.node found = none then some .directory else self.node found
  rooted := by
    intro found dir hbelow hne hsome
    have habove : path.startsWith dir = true ∨ (self.node found).isSome = true := by
      by_cases hnew : path.startsWith found ∧ self.node found = none
      · exact .inl (PathBuf.startsWith_trans hnew.1 hbelow)
      · rw [if_neg hnew] at hsome
        exact .inr hsome
    obtain habove | hold := habove
    · obtain hnone | hdirectory := not_file_of_not_blocked h habove
      · exact if_pos ⟨habove, hnone⟩
      · rw [if_neg (fun hnew => by rw [hdirectory] at hnew; exact nomatch hnew.2)]
        exact hdirectory
    · have hdirectory := self.rooted found dir hbelow hne hold
      rw [if_neg (fun hnew => by rw [hdirectory] at hnew; exact nomatch hnew.2)]
      exact hdirectory

/-- `std::fs::create_dir_all`. -/
def createDirAll (self : Disk) (path : PathBuf) : Except Text Disk :=
  if h : self.blocked path = false then .ok (self.withDirectories path h)
  else if (self.node path).isSome then .error "File exists (os error 17)".toList
  else .error "Not a directory (os error 20)".toList

/-! ## Renaming -/

/-- The tree with what lies at and below one path at and below another. -/
def moved (self : Disk) (source target : PathBuf)
    (houtside : target.startsWith source = false)
    (hparents : ∀ dir, target.startsWith dir = true → target ≠ dir →
      self.node dir = some .directory) : Disk where
  node := fun path =>
    if path.startsWith target then self.node (path.rebase target source)
    else if path.startsWith source then none
    else self.node path
  rooted := by
    intro path dir hbelow hne hsome
    by_cases htarget : path.startsWith target
    · rw [if_pos htarget] at hsome
      by_cases hdir : dir.startsWith target
      · rw [if_pos hdir]
        refine self.rooted _ _ (PathBuf.rebase_mono hbelow hdir) ?_ hsome
        intro hsame
        have hback := congrArg (fun found => found.rebase source target) hsame
        simp only [PathBuf.rebase_rebase htarget, PathBuf.rebase_rebase hdir] at hback
        exact hne hback
      · -- the directory lies above the target, so it is one that the target needs
        have habove : target.startsWith dir = true := by
          obtain h | h := PathBuf.startsWith_total hbelow htarget
          · exact absurd h hdir
          · exact h
        have hdirne : target ≠ dir := by
          rintro rfl
          exact hdir (PathBuf.startsWith_refl _)
        have hdirectory := hparents dir habove hdirne
        rw [if_neg hdir, if_neg ?_, hdirectory]
        intro hsource
        exact Bool.false_ne_true
          (houtside.symm.trans (PathBuf.startsWith_trans habove hsource))
    · rw [if_neg htarget] at hsome
      by_cases hsource : path.startsWith source
      · rw [if_pos hsource] at hsome
        exact nomatch hsome
      · rw [if_neg hsource] at hsome
        have hdirectory := self.rooted path dir hbelow hne hsome
        have hdirTarget : ¬ dir.startsWith target = true :=
          fun h => htarget (PathBuf.startsWith_trans hbelow h)
        have hdirSource : ¬ dir.startsWith source = true :=
          fun h => hsource (PathBuf.startsWith_trans hbelow h)
        rw [if_neg hdirTarget, if_neg hdirSource, hdirectory]

/-- `std::fs::rename` to a path that does not exist, in a directory that does. -/
def rename (self : Disk) (source target : PathBuf) : Except Text Disk :=
  if (self.node source).isNone then .error "No such file or directory (os error 2)".toList
  else if houtside : target.startsWith source = false then
    if self.node target = none then
      if hparents : ∀ dir ∈ target.ancestors, target ≠ dir → self.node dir = some .directory then
        .ok (self.moved source target houtside fun dir habove =>
          hparents dir (PathBuf.mem_ancestors.mpr habove))
      else .error "No such file or directory (os error 2)".toList
    else .error "Directory not empty (os error 39)".toList
  else .error "Invalid argument (os error 22)".toList

/-! ## Files -/

/-- The tree with a file at a path, in a directory that exists. -/
def withFile (self : Disk) (path : PathBuf) (content : FileContent)
    (hfile : self.node path ≠ some .directory)
    (hparents : ∀ dir, path.startsWith dir = true → path ≠ dir →
      self.node dir = some .directory) : Disk where
  node := Function.update self.node path (some (.file content))
  rooted := by
    intro found dir hbelow hne hsome
    by_cases hfound : found = path
    · subst hfound
      rw [Function.update_of_ne (Ne.symm hne)]
      exact hparents dir hbelow hne
    · rw [Function.update_of_ne hfound] at hsome
      have hdirectory := self.rooted found dir hbelow hne hsome
      have hdirne : dir ≠ path := by
        rintro rfl
        exact hfile hdirectory
      rw [Function.update_of_ne hdirne]
      exact hdirectory

/-- The tree without what lies at a path, where nothing lies below it. -/
def without (self : Disk) (path : PathBuf) (hempty : ∀ found, found.startsWith path = true →
    found ≠ path → self.node found = none) : Disk where
  node := Function.update self.node path none
  rooted := by
    intro found dir hbelow hne hsome
    by_cases hfound : found = path
    · subst hfound
      rw [Function.update_self] at hsome
      exact nomatch hsome
    · rw [Function.update_of_ne hfound] at hsome
      have hdirne : dir ≠ path := by
        rintro rfl
        rw [hempty found hbelow hfound] at hsome
        exact nomatch hsome
      rw [Function.update_of_ne hdirne]
      exact self.rooted found dir hbelow hne hsome

end Disk

end Locality.Daemon
