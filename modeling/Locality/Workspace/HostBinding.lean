/-
  Workspace/HostBinding.lean --- `locality-store/src/workspace_binding.rs`: which mounts of
  a host get a target below a trusted root, and which keep their legacy roots.

  The paths of the running host are those of a Unix host: `Path::file_name` is its own
  `file_name` whatever platform a plan is for.  What the running host knows of its files is
  left out, as is the layout of bindings in JSON.
-/
import Locality.Discovery.Records
import Locality.Protocol.PortablePath

set_option autoImplicit false

namespace Locality.Workspace

open Locality.Core Locality.Foundation Locality.Protocol

/-! ## Bindings -/

def legacyWorkspaceBindingVersion : Nat := 1

def workspaceBindingVersion : Nat := 2

def workspaceBindingLayoutVersion : Nat := 1

structure WorkspaceId where
  value : Text
  deriving DecidableEq, Repr

inductive WorkspaceHostPlatform where
  | macos
  | linux
  | windows
  deriving DecidableEq, Repr

/-- A path of the host, which has a text where its bytes are UTF-8. -/
inductive HostPath where
  | utf8 (text : Text)
  | other (bytes : List Nat)
  deriving DecidableEq, Repr

def HostPath.toStr : HostPath → Option Text
  | utf8 text => some text
  | other _ => none

structure WorkspaceHostBinding where
  workspaceId : WorkspaceId
  trustedWorkspaceRoot : HostPath
  deriving DecidableEq, Repr

structure WorkspaceBinding where
  bindingVersion : Nat
  layoutVersion : Nat
  workspaceId : Option WorkspaceId
  mountTarget : MountTarget
  deriving DecidableEq, Repr

namespace WorkspaceBinding

def new (mountTarget : MountTarget) : WorkspaceBinding where
  bindingVersion := legacyWorkspaceBindingVersion
  layoutVersion := workspaceBindingLayoutVersion
  workspaceId := none
  mountTarget := mountTarget

def forWorkspace (workspaceId : WorkspaceId) (mountTarget : MountTarget) : WorkspaceBinding where
  bindingVersion := workspaceBindingVersion
  layoutVersion := workspaceBindingLayoutVersion
  workspaceId := some workspaceId
  mountTarget := mountTarget

end WorkspaceBinding

structure WorkspaceBindingRecord where
  mountId : MountId
  binding : WorkspaceBinding
  deriving DecidableEq, Repr

structure LegacyWorkspaceMount where
  mountId : MountId
  root : HostPath
  deriving DecidableEq, Repr

inductive LegacyLayout0Reason where
  | invalidHostPath
  | outsideTrustedWorkspaceRoot
  | invalidMountTarget
  | mountTargetCollision
  deriving DecidableEq, Repr

structure LegacyLayout0Mount where
  mountId : MountId
  root : HostPath
  reason : LegacyLayout0Reason
  deriving DecidableEq, Repr

structure WorkspaceBindingMigrationPlan where
  workspaceRoot : HostPath
  hostBinding : Option WorkspaceHostBinding
  layout1Bindings : List WorkspaceBindingRecord
  layout0Mounts : List LegacyLayout0Mount
  deriving DecidableEq, Repr

/-- The errors of a plan and of the lexical part of a revalidation. -/
inductive WorkspaceHostBindingError where
  | invalidTrustedWorkspaceRoot
  | invalidBoundMountRoot
  deriving DecidableEq, Repr

/-! ## Host paths -/

/-- `trim_end_matches(['.', ' '])`. -/
def trimDotsAndSpaces (component : Text) : Text :=
  component.rdropWhile fun c => c = '.' || c = ' '

def parseComponents (platform : WorkspaceHostPlatform) : List Text → Option (List Text)
  | [] => some []
  | component :: rest =>
      if component = [] ∨ component = ['.'] then parseComponents platform rest
      else if component = ['.', '.'] then none
      else
        let component := if platform = .windows then trimDotsAndSpaces component else component
        if component = [] then none
        else (parseComponents platform rest).map (component :: ·)

structure ParsedHostPath where
  pathPrefix : Text
  components : List Text
  deriving DecidableEq, Repr

/-- The normalized text without a verbatim prefix. -/
def stripVerbatim (normalized : Text) : Text :=
  if toAsciiUppercase (normalized.take 8) = "//?/UNC/".toList then
    "//".toList ++ normalized.drop 8
  else (stripPrefix normalized "//?/".toList).getD normalized

/-- The server and the share, and what stands behind them. -/
def networkVolume (rest : Text) : Option (Text × Text) :=
  match splitSlash rest with
  | server :: share :: parts =>
      if server = [] ∨ share = [] then none
      else some ("//".toList ++ server ++ ['/'] ++ share, join ['/'] parts)
  | _ => none

/-- The prefix of a normalized path, and what stands behind it. -/
def windowsVolume (normalized : Text) : Option (Text × Text) :=
  match stripPrefix normalized "//".toList with
  | some rest => networkVolume rest
  | none =>
      match normalized with
      | drive :: ':' :: '/' :: rest =>
          if isAsciiAlphabetic drive then some ([drive, ':'], rest) else none
      | _ => none

def slashed (value : Text) : Text := value.map fun c => if c = '\\' then '/' else c

def ParsedHostPath.parseWindows (value : Text) : Option ParsedHostPath := do
  let (pathPrefix, remainder) ← windowsVolume (stripVerbatim (slashed value))
  let components ← parseComponents .windows (splitSlash remainder)
  return ⟨pathPrefix, components⟩

def ParsedHostPath.parseUnix (platform : WorkspaceHostPlatform) :
    Text → Option ParsedHostPath
  | '/' :: rest => (parseComponents platform (splitSlash rest)).map (⟨['/'], ·⟩)
  | _ => none

def ParsedHostPath.parse (platform : WorkspaceHostPlatform) (path : HostPath) :
    Option ParsedHostPath := do
  let value ← path.toStr
  match platform with
  | .macos | .linux => parseUnix platform value
  | .windows => parseWindows value

/-- `Path::file_name` of a Unix host. -/
def hostFileName (value : Text) : Option Text :=
  (((splitSlash value).filter fun component =>
    decide (component ≠ [] ∧ component ≠ ['.'])).getLast?).filter fun component =>
      decide (component ≠ ['.', '.'])

def isSeparator (c : Char) : Bool := c = '/' || c = '\\'

/-- The last part of a Windows path, as it is spelled. -/
def windowsLeaf (value : Text) : Option Text :=
  let leaf := (value.rdropWhile isSeparator).rtakeWhile (!isSeparator ·)
  if leaf = [] then none else some leaf

/-! ## Plans -/

section Unicode

variable (unicode : UnicodeTables) (platform : WorkspaceHostPlatform)

/-- `path_token_eq`; the key of a host is the collision key. -/
def pathTokenEq (left right : Text) : Bool :=
  match platform with
  | .macos | .windows => decide (collisionKey unicode left = collisionKey unicode right)
  | .linux => decide (left = right)

def ParsedHostPath.directChildOf (self parent : ParsedHostPath) : Option Text :=
  if self.components.length ≠ parent.components.length + 1 ∨
      ¬ pathTokenEq unicode platform self.pathPrefix parent.pathPrefix ∨
      ¬ (self.components.zip parent.components).all fun pair =>
        pathTokenEq unicode platform pair.1 pair.2 then none
  else self.components.getLast?

/-- The name that a root is spelled with. -/
def rawLeaf (value : Text) : Option Text :=
  match platform with
  | .macos | .linux => hostFileName value
  | .windows => windowsLeaf value

def rawMountTarget (root : HostPath) : Except LegacyLayout0Reason MountTarget := do
  let value ← okOr root.toStr .invalidHostPath
  let leaf ← okOr (rawLeaf platform value) .invalidHostPath
  (MountTarget.new unicode leaf).mapError fun _ => .invalidMountTarget

/-- The lexical part of `validate_persistent_mount_root`, which looks at no file. -/
def validateMountRootLexically (trustedWorkspaceRoot mountRoot : HostPath)
    (mountTarget : MountTarget) : Except WorkspaceHostBindingError Unit := do
  let trusted ← okOr (ParsedHostPath.parse platform trustedWorkspaceRoot)
    .invalidTrustedWorkspaceRoot
  let mount ← okOr (ParsedHostPath.parse platform mountRoot) .invalidBoundMountRoot
  let component ← okOr (mount.directChildOf unicode platform trusted) .invalidBoundMountRoot
  if pathTokenEq unicode platform component mountTarget.value then pure ()
  else throw .invalidBoundMountRoot

/-- What a mount is before targets are compared. -/
def candidateOutcome (trusted : ParsedHostPath) (mount : LegacyWorkspaceMount) :
    Except LegacyLayout0Reason MountTarget := do
  let target ← rawMountTarget unicode platform mount.root
  let root ← okOr (ParsedHostPath.parse platform mount.root) .invalidHostPath
  let _ ← okOr (root.directChildOf unicode platform trusted) .outsideTrustedWorkspaceRoot
  return target

abbrev Candidate : Type := LegacyWorkspaceMount × Except LegacyLayout0Reason MountTarget

/-- The candidates that are in the group of a key. -/
def collisionGroup (candidates : List Candidate) (key : Text) : List Candidate :=
  candidates.filter fun candidate =>
    candidate.2.toOption.any fun target => decide (target.collisionKey unicode = key)

/-- A candidate, once the members of every group of more than one are refused. -/
def refuseCollision (candidates : List Candidate) (candidate : Candidate) : Candidate :=
  match candidate.2 with
  | .error _ => candidate
  | .ok target =>
      if 1 < (collisionGroup unicode candidates (target.collisionKey unicode)).length then
        (candidate.1, .error .mountTargetCollision)
      else candidate

def bindingRecord (hostBinding : Option WorkspaceHostBinding) (candidate : Candidate) :
    Option WorkspaceBindingRecord :=
  candidate.2.toOption.map fun target => ⟨candidate.1.mountId, match hostBinding with
    | some hostBinding => .forWorkspace hostBinding.workspaceId target
    | none => .new target⟩

def layout0Mount (candidate : Candidate) : Option LegacyLayout0Mount :=
  match candidate.2 with
  | .ok _ => none
  | .error reason => some ⟨candidate.1.mountId, candidate.1.root, reason⟩

def planMigration (trustedWorkspaceRoot : HostPath) (hostBinding : Option WorkspaceHostBinding)
    (mounts : List LegacyWorkspaceMount) :
    Except WorkspaceHostBindingError WorkspaceBindingMigrationPlan := do
  let trusted ← okOr (ParsedHostPath.parse platform trustedWorkspaceRoot)
    .invalidTrustedWorkspaceRoot
  let mounts := mounts.insertionSort fun left right =>
    Ranked.rank left.mountId ≤ Ranked.rank right.mountId
  let candidates := mounts.map fun mount =>
    (mount, candidateOutcome unicode platform trusted mount)
  let candidates := candidates.map (refuseCollision unicode candidates)
  return {
    workspaceRoot := trustedWorkspaceRoot
    hostBinding := hostBinding
    layout1Bindings := candidates.filterMap (bindingRecord hostBinding)
    layout0Mounts := candidates.filterMap layout0Mount }

def planLegacyMigration (trustedWorkspaceRoot : HostPath) (mounts : List LegacyWorkspaceMount) :
    Except WorkspaceHostBindingError WorkspaceBindingMigrationPlan :=
  planMigration unicode platform trustedWorkspaceRoot none mounts

def planWorkspaceMigration (hostBinding : WorkspaceHostBinding)
    (mounts : List LegacyWorkspaceMount) :
    Except WorkspaceHostBindingError WorkspaceBindingMigrationPlan :=
  planMigration unicode platform hostBinding.trustedWorkspaceRoot (some hostBinding) mounts

end Unicode

end Locality.Workspace
