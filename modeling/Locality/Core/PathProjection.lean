/-
  Core/PathProjection.lean --- paths as lists of components, and the helpers for
  projected page documents of `locality-core/src/path_projection.rs`.

  A page lies either at `<directory>/page.md` or at a named Markdown file; its
  children lie in its container.  The functions below compute containers and
  listing parents from a path alone; they never look at a disk.
-/
import Locality.Core.Model

set_option autoImplicit false

namespace Locality.Core

/-! ## Paths -/

/-- A `PathBuf`: its components, and whether it starts at the root. -/
structure PathBuf where
  absolute : Bool
  components : List Text
  deriving DecidableEq, Repr

namespace PathBuf

/-- `PathBuf::new()`. -/
def empty : PathBuf := ⟨false, []⟩

/-- A relative path of the given components. -/
def relative (components : List Text) : PathBuf := ⟨false, components⟩

/-- `Path::join`: an absolute path replaces what it is joined to. -/
def join (self path : PathBuf) : PathBuf :=
  if path.absolute then path else ⟨self.absolute, self.components ++ path.components⟩

/-- `Path::parent`. -/
def parent (self : PathBuf) : Option PathBuf :=
  if self.components.isEmpty then none else some ⟨self.absolute, self.components.dropLast⟩

/-- `Path::file_name`; `..` is no name. -/
def fileName (self : PathBuf) : Option Text :=
  self.components.getLast?.filter fun name => decide (name ≠ "..".toList)

/-- `Path::starts_with`, component by component. -/
def startsWith (self pattern : PathBuf) : Bool :=
  decide (self.absolute = pattern.absolute) && pattern.components.isPrefixOf self.components

/-- `as_os_str().is_empty()`. -/
def isEmpty (self : PathBuf) : Bool := !self.absolute && self.components.isEmpty

theorem startsWith_iff {self pattern : PathBuf} :
    self.startsWith pattern = true ↔
      self.absolute = pattern.absolute ∧ pattern.components <+: self.components := by
  simp only [startsWith, Bool.and_eq_true, decide_eq_true_eq, List.isPrefixOf_iff_prefix]

theorem startsWith_refl (self : PathBuf) : self.startsWith self = true :=
  startsWith_iff.mpr ⟨rfl, List.prefix_refl _⟩

theorem startsWith_trans {a b c : PathBuf} (hab : a.startsWith b = true)
    (hbc : b.startsWith c = true) : a.startsWith c = true := by
  obtain ⟨habs, hcomp⟩ := startsWith_iff.mp hab
  obtain ⟨habs', hcomp'⟩ := startsWith_iff.mp hbc
  exact startsWith_iff.mpr ⟨habs.trans habs', hcomp'.trans hcomp⟩

end PathBuf

/-- `Path::display`. -/
def displayPath (path : PathBuf) : Text :=
  (if path.absolute then ['/'] else []) ++ (path.components.intersperse ['/']).flatten

/-! ## Names -/

/-- `str::eq_ignore_ascii_case`. -/
def eqIgnoreAsciiCase (left right : Text) : Bool :=
  decide (toAsciiLowercase left = toAsciiLowercase right)

/-- `Path::file_stem` of a name: what stands before its last dot, if that is
anything. -/
def fileStem (name : Text) : Text :=
  if '.' ∈ name then
    let stem := (name.rdropWhile fun c => c != '.').dropLast
    if stem.isEmpty then name else stem
  else name

/-- `Path::with_extension("")`. -/
def withoutExtension (path : PathBuf) : PathBuf :=
  match path.fileName with
  | none => path
  | some name => ⟨path.absolute, path.components.dropLast ++ [fileStem name]⟩

/-! ## Page documents -/

/-- `PAGE_DOCUMENT_FILENAME`. -/
def pageDocumentFilename : Text := "page.md".toList

def isPageDocumentPath (path : PathBuf) : Bool :=
  path.fileName.any fun name => eqIgnoreAsciiCase name pageDocumentFilename

def pageContainerPath (pagePath : PathBuf) : PathBuf :=
  if isPageDocumentPath pagePath then pagePath.parent.getD .empty
  else withoutExtension pagePath

def projectionNamespaceRoot (kind : EntityKind) (path : PathBuf) : PathBuf :=
  match kind with
  | .page => pageContainerPath path
  | .database | .directory | .asset | .unknown _ => path

/-- `parent_path`: the empty path where there is no parent. -/
def parentPath (path : PathBuf) : PathBuf := path.parent.getD .empty

def pageListingParentPath (pagePath : PathBuf) : PathBuf :=
  parentPath (pageContainerPath pagePath)

example : projectionNamespaceRoot .page (.relative ["Roadmap".toList, "page.md".toList]) =
    .relative ["Roadmap".toList] := by decide

example : pageContainerPath (.relative ["Roadmap.md".toList]) =
    .relative ["Roadmap".toList] := by decide

end Locality.Core
