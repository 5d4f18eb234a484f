/-
  Delivery/MountTree.lean --- the files below a mount, and the operations of
  `localityd/src/generation_mount.rs` on them.

  A path is the list of its components below the root of the mount.  Every directory
  component is opened without following links, and renames and links never replace, so a
  name holds nothing, a directory or the bytes of one file.  Links, permissions and
  syncing are left out.
-/
import Locality.Core.Text
import Locality.Foundation.Program

set_option autoImplicit false

namespace Locality.Delivery

open Locality.Core Locality.Foundation

/-! ## Trees -/

/-- The components of a path. -/
abbrev MountPath : Type := List Text

inductive MountNode where
  | directory
  | file (bytes : List UInt8)
  deriving DecidableEq, Repr

/-- What exists lies in directories, up to the root. -/
structure MountTree where
  node : MountPath → Option MountNode
  root : node [] = some .directory
  rooted : ∀ parent name, (node (parent ++ [name])).isSome = true →
    node parent = some .directory

namespace MountTree

theorem ext_node {self self' : MountTree} (h : ∀ path, self.node path = self'.node path) :
    self = self' := by
  cases self
  cases self'
  have hnode := funext h
  dsimp only at hnode
  subst hnode
  rfl

def empty : MountTree where
  node := fun path => if path = [] then some .directory else none
  root := if_pos rfl
  rooted := by
    intro parent name h
    rw [if_neg (List.append_ne_nil_of_right_ne_nil parent (List.cons_ne_nil name []))] at h
    cases h

/-- Another node at a name, where the name is in a directory and holds none itself. -/
def put (self : MountTree) (parent : MountPath) (name : Text)
    (value : Option MountNode) : MountTree :=
  if h : self.node parent = some .directory ∧ self.node (parent ++ [name]) ≠ some .directory then
    { node := fun path => if path = parent ++ [name] then value else self.node path
      root := by
        rw [if_neg (List.append_ne_nil_of_right_ne_nil parent (List.cons_ne_nil name [])).symm]
        exact self.root
      rooted := by
        intro parent' name' hchild
        by_cases hparent : parent' = parent ++ [name]
        · -- nothing lies below the name
          subst hparent
          rw [if_neg fun heq => List.cons_ne_nil name' [] (List.append_right_eq_self.mp heq)]
            at hchild
          exact absurd (self.rooted _ name' hchild) h.2
        · rw [if_neg hparent]
          by_cases hleaf : parent' ++ [name'] = parent ++ [name]
          · obtain ⟨rfl, -⟩ := List.append_inj' hleaf rfl
            exact h.1
          · rw [if_neg hleaf] at hchild
            exact self.rooted parent' name' hchild }
  else self

end MountTree

/-! ## Operations -/

inductive MountError where
  | notFound
  | alreadyExists
  | notADirectory
  | notRegularFile
  deriving DecidableEq, Repr

/-- The points at which an apply calls a hook, where other programs may run. -/
inductive ApplyHook where
  | afterTargetOpen
  | afterPreimageMove
  | afterPreimageVerified
  | afterPreimageReverified
  deriving DecidableEq, Repr

/-- What is asked of the file system; a name is in the directory of a target. -/
inductive MountOp where
  /-- `open_child_directory`, which makes the directory where there is nothing. -/
  | openChildDirectory (parent : MountPath) (name : Text)
  /-- `open_named`, with all that is read from the file. -/
  | openNamed (parent : MountPath) (name : Text)
  /-- A rename that does not replace. -/
  | rename (parent : MountPath) (source target : Text)
  /-- `create_named`. -/
  | createNamed (parent : MountPath) (name : Text)
  /-- One more byte in a file that was created. -/
  | write (parent : MountPath) (name : Text) (byte : UInt8)
  | link (parent : MountPath) (source target : Text)
  | unlink (parent : MountPath) (name : Text)
  | hook (point : ApplyHook)

def MountOp.Answer : MountOp → Type
  | openNamed _ _ => Except MountError (Option (List UInt8))
  | hook _ => Unit
  | _ => Except MountError Unit

namespace MountTree

def openChildDirectory (self : MountTree) (parent : MountPath) (name : Text) :
    Except MountError Unit × MountTree :=
  match self.node (parent ++ [name]) with
  | some .directory => (.ok (), self)
  | some (.file _) => (.error .notADirectory, self)
  | none => (.ok (), self.put parent name (some .directory))

def openNamed (self : MountTree) (parent : MountPath) (name : Text) :
    Except MountError (Option (List UInt8)) :=
  match self.node (parent ++ [name]) with
  | none => .ok none
  | some (.file bytes) => .ok (some bytes)
  | some .directory => .error .notRegularFile

/-- What is renamed was opened as a file before. -/
def rename (self : MountTree) (parent : MountPath) (source target : Text) :
    Except MountError Unit × MountTree :=
  match self.node (parent ++ [source]) with
  | none => (.error .notFound, self)
  | some .directory => (.error .notRegularFile, self)
  | some (.file bytes) =>
      match self.node (parent ++ [target]) with
      | some _ => (.error .alreadyExists, self)
      | none => (.ok (), (self.put parent source none).put parent target (some (.file bytes)))

def createNamed (self : MountTree) (parent : MountPath) (name : Text) :
    Except MountError Unit × MountTree :=
  match self.node (parent ++ [name]) with
  | some _ => (.error .alreadyExists, self)
  | none => (.ok (), self.put parent name (some (.file [])))

def write (self : MountTree) (parent : MountPath) (name : Text) (byte : UInt8) :
    Except MountError Unit × MountTree :=
  match self.node (parent ++ [name]) with
  | some (.file bytes) => (.ok (), self.put parent name (some (.file (bytes ++ [byte]))))
  | _ => (.error .notFound, self)

def link (self : MountTree) (parent : MountPath) (source target : Text) :
    Except MountError Unit × MountTree :=
  match self.node (parent ++ [source]) with
  | some (.file bytes) =>
      match self.node (parent ++ [target]) with
      | some _ => (.error .alreadyExists, self)
      | none => (.ok (), self.put parent target (some (.file bytes)))
  | _ => (.error .notFound, self)

def unlink (self : MountTree) (parent : MountPath) (name : Text) :
    Except MountError Unit × MountTree :=
  match self.node (parent ++ [name]) with
  | some (.file _) => (.ok (), self.put parent name none)
  | some .directory => (.error .notRegularFile, self)
  | none => (.error .notFound, self)

/-- An operation while no other program runs. -/
def perform : (op : MountOp) → MountTree → op.Answer × MountTree
  | .openChildDirectory parent name, st => st.openChildDirectory parent name
  | .openNamed parent name, st => (st.openNamed parent name, st)
  | .rename parent source target, st => st.rename parent source target
  | .createNamed parent name, st => st.createNamed parent name
  | .write parent name byte, st => st.write parent name byte
  | .link parent source target, st => st.link parent source target
  | .unlink parent name, st => st.unlink parent name
  | .hook _, st => ((), st)

end MountTree

end Locality.Delivery
