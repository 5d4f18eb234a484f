/-
  Protocol/WorkspaceLayout.lean --- workspace layouts and session layouts of
  `locality-protocol/src/workspace_layout.rs`.

  A workspace layout lists its mounts and binds scopes to them; a session layout
  carries the bindings with their targets, and its mounts are read off them.  Both are
  encoded by `encodePreimage`, a sequence of frames behind a domain.
-/
import Locality.Protocol.Portable
import Locality.Foundation.Fallible
import Std.Data.TreeMap.Lemmas
import Mathlib.Order.Compare

set_option autoImplicit false

namespace Locality.Protocol

open Locality.Core Locality.Foundation

/-! ## Profiles -/

def workspaceLayoutVersion : UInt16 := 1

def minProfileMounts : Nat := 1

def maxProfileMounts : Nat := 256

def minProfileScopeBindings : Nat := 1

def maxProfileScopeBindings : Nat := 4096

def maxWorkspaceLayoutPreimageBytes : Nat := 1024 * 1024

def isCanonicalLowercaseHyphenatedUuid (value : Text) : Bool :=
  decide ((asBytes value).length = 36) &&
    ((asBytes value).zipIdx.all fun (byte, index) =>
      if index = 8 ∨ index = 13 ∨ index = 18 ∨ index = 23 then decide (byte.toNat = 45)
      else
        decide (48 ≤ byte.toNat ∧ byte.toNat ≤ 57) ||
          decide (97 ≤ byte.toNat ∧ byte.toNat ≤ 102))

/-- A lowercase hyphenated UUID that is not the nil one. -/
structure WorkspaceProfileId where
  value : Text
  canonical : isCanonicalLowercaseHyphenatedUuid value = true
  notNil : ((asBytes value).all fun byte =>
    decide (byte.toNat = 48) || decide (byte.toNat = 45)) = false
  deriving DecidableEq

structure ProfileMount where
  mountId : PortableMountId
  target : MountTarget
  deriving DecidableEq, Repr

structure ProfileScopeBinding where
  scopeOrdinal : UInt32
  sourceScopeId : SourceScopeId
  mountId : PortableMountId
  deriving DecidableEq, Repr

structure SessionLayoutEntry where
  scopeOrdinal : UInt32
  mountId : PortableMountId
  target : MountTarget
  deriving DecidableEq, Repr

structure BindingView where
  scopeOrdinal : UInt32
  mountId : PortableMountId
  target : MountTarget
  deriving DecidableEq, Repr

inductive WorkspaceLayoutError where
  | unsupportedLayoutVersion (actual : UInt16)
  | zeroProfileRevision
  | mountCount (actual : Nat)
  | scopeBindingCount (actual : Nat)
  | nonCanonicalMountOrder (index : Nat)
  | duplicateMountId (index : Nat)
  | targetCollision (index : Nat)
  | nonCanonicalScopeOrdinal (index : Nat) (actual : UInt32)
  | duplicateSourceScopeId (index : Nat)
  | unknownMountReference (scopeOrdinal : UInt32)
  | unusedMount (index : Nat)
  | inconsistentSessionMountTarget (scopeOrdinal : UInt32)
  | layoutDigestMismatch
  | workspaceEntriesMismatch
  | preimageLengthOverflow
  | preimageTooLarge (actual : Nat)
  deriving DecidableEq, Repr

abbrev LayoutResult : Type → Type := Except WorkspaceLayoutError

/-! ## Tables of mounts -/

/-- `Ord` of mount ids: that of their bytes. -/
def mountOrder (id id' : PortableMountId) : Ordering :=
  compareOfLessAndEq (byteOrder id.value) (byteOrder id'.value)

/-- A `BTreeMap` from mounts to their targets. -/
abbrev TargetByMount : Type := Std.TreeMap PortableMountId MountTarget mountOrder

def targetByMount (mounts : List ProfileMount) : TargetByMount :=
  mounts.foldl (fun targets mount => targets.insert mount.mountId mount.target) ∅

/-! ## Checks -/

def validateProfileRevision (profileRevision : UInt64) : LayoutResult Unit :=
  if profileRevision = 0 then throw .zeroProfileRevision else pure ()

def validateMountCount (actual : Nat) : LayoutResult Unit :=
  if minProfileMounts ≤ actual ∧ actual ≤ maxProfileMounts then pure ()
  else throw (.mountCount actual)

def validateScopeBindingCount (actual : Nat) : LayoutResult Unit :=
  if minProfileScopeBindings ≤ actual ∧ actual ≤ maxProfileScopeBindings then pure ()
  else throw (.scopeBindingCount actual)

/-- `u32::try_from` of an index. -/
def indexU32 (index : Nat) : LayoutResult UInt32 :=
  if index < 2 ^ 32 then pure (UInt32.ofNat index) else throw .preimageLengthOverflow

/-- The mounts behind one at an index, in byte order. -/
def validateMountOrder : Nat → List ProfileMount → LayoutResult Unit
  | index, first :: second :: mounts =>
      match mountOrder first.mountId second.mountId with
      | .lt => validateMountOrder (index + 1) (second :: mounts)
      | .eq => throw (.duplicateMountId (index + 1))
      | .gt => throw (.nonCanonicalMountOrder (index + 1))
  | _, _ => pure ()

section Unicode

variable (unicode : UnicodeTables)

def validateTargets : Nat → List Text → List ProfileMount → LayoutResult Unit
  | _, _, [] => pure ()
  | index, collisionKeys, mount :: mounts =>
      if mount.target.collisionKey unicode ∈ collisionKeys then throw (.targetCollision index)
      else validateTargets (index + 1) (mount.target.collisionKey unicode :: collisionKeys) mounts

def validateMountOrderAndTargets (mounts : List ProfileMount) : LayoutResult Unit := do
  validateMountOrder 0 mounts
  validateTargets unicode 0 [] mounts

/-- The bindings from an index on: what they resolve to. -/
def resolveBindings (targets : TargetByMount) :
    Nat → List SourceScopeId → List ProfileScopeBinding → LayoutResult (List BindingView)
  | _, _, [] => pure []
  | index, sourceScopeIds, binding :: bindings => do
      let expected ← indexU32 index
      if binding.scopeOrdinal ≠ expected then
        throw (.nonCanonicalScopeOrdinal index binding.scopeOrdinal)
      else if binding.sourceScopeId ∈ sourceScopeIds then throw (.duplicateSourceScopeId index)
      else
        match targets[binding.mountId]? with
        | none => throw (.unknownMountReference binding.scopeOrdinal)
        | some target =>
            let resolved ← resolveBindings targets (index + 1)
              (binding.sourceScopeId :: sourceScopeIds) bindings
            return ⟨binding.scopeOrdinal, binding.mountId, target⟩ :: resolved

def validateUsed (used : List PortableMountId) : Nat → List ProfileMount → LayoutResult Unit
  | _, [] => pure ()
  | index, mount :: mounts =>
      if mount.mountId ∈ used then validateUsed used (index + 1) mounts
      else throw (.unusedMount index)

def validateProfileCollections (mounts : List ProfileMount)
    (scopeBindings : List ProfileScopeBinding) : LayoutResult (List BindingView) := do
  validateMountCount mounts.length
  validateScopeBindingCount scopeBindings.length
  validateMountOrderAndTargets unicode mounts
  let resolved ← resolveBindings (targetByMount mounts) 0 [] scopeBindings
  validateUsed (scopeBindings.map ProfileScopeBinding.mountId) 0 mounts
  return resolved

/-- The entries from an index on, over the targets that are known. -/
def collectTargets : Nat → TargetByMount → List SessionLayoutEntry → LayoutResult TargetByMount
  | _, targets, [] => pure targets
  | index, targets, entry :: entries => do
      let expected ← indexU32 index
      if entry.scopeOrdinal ≠ expected then
        throw (.nonCanonicalScopeOrdinal index entry.scopeOrdinal)
      else
        match targets[entry.mountId]? with
        | some existingTarget =>
            if existingTarget ≠ entry.target then
              throw (.inconsistentSessionMountTarget entry.scopeOrdinal)
            else collectTargets (index + 1) targets entries
        | none => collectTargets (index + 1) (targets.insert entry.mountId entry.target) entries

def validateSessionEntries (entries : List SessionLayoutEntry) :
    LayoutResult (List ProfileMount) := do
  validateScopeBindingCount entries.length
  let targets ← collectTargets 0 ∅ entries
  validateMountCount targets.size
  let mounts := targets.toList.map fun (mountId, target) => (⟨mountId, target⟩ : ProfileMount)
  validateMountOrderAndTargets unicode mounts
  return mounts

def sessionBindingViews (entries : List SessionLayoutEntry) : List BindingView :=
  entries.map fun entry => ⟨entry.scopeOrdinal, entry.mountId, entry.target⟩

/-! ## Preimages -/

def workspaceLayoutDomain : List UInt8 :=
  asBytes "locality.workspace-layout.v1".toList ++ [0]

def pushFrame (preimage value : List UInt8) : LayoutResult (List UInt8) :=
  let newLength := preimage.length + (8 + value.length)
  if 2 ^ 64 ≤ newLength then throw .preimageLengthOverflow
  else if maxWorkspaceLayoutPreimageBytes < newLength then throw (.preimageTooLarge newLength)
  else return preimage ++ toBeBytes 8 value.length ++ value

def pushMounts : List UInt8 → List ProfileMount → LayoutResult (List UInt8)
  | preimage, [] => return preimage
  | preimage, mount :: mounts => do
      let preimage ← pushFrame preimage (asBytes mount.mountId.value)
      let preimage ← pushFrame preimage (asBytes mount.target.value)
      pushMounts preimage mounts

def pushBindings : List UInt8 → List BindingView → LayoutResult (List UInt8)
  | preimage, [] => return preimage
  | preimage, binding :: bindings => do
      let preimage ← pushFrame preimage (toBeBytes 4 binding.scopeOrdinal.toNat)
      let preimage ← pushFrame preimage (asBytes binding.mountId.value)
      let preimage ← pushFrame preimage (asBytes binding.target.value)
      pushBindings preimage bindings

/-- `u64::try_from` of a count. -/
def pushCount (preimage : List UInt8) (count : Nat) : LayoutResult (List UInt8) :=
  if count < 2 ^ 64 then pushFrame preimage (toBeBytes 8 count) else throw .preimageLengthOverflow

def encodePreimage (layoutVersion : UInt16) (profileId : WorkspaceProfileId)
    (profileRevision : UInt64) (mounts : List ProfileMount) (bindings : List BindingView) :
    LayoutResult (List UInt8) := do
  if layoutVersion ≠ workspaceLayoutVersion then
    throw (.unsupportedLayoutVersion layoutVersion)
  else
    let preimage ← pushFrame workspaceLayoutDomain (toBeBytes 2 layoutVersion.toNat)
    let preimage ← pushFrame preimage (asBytes profileId.value)
    let preimage ← pushFrame preimage (toBeBytes 8 profileRevision.toNat)
    let preimage ← pushCount preimage mounts.length
    let preimage ← pushMounts preimage mounts
    let preimage ← pushCount preimage bindings.length
    pushBindings preimage bindings

/-! ## Workspace layouts -/

structure WorkspaceLayout where
  layoutVersion : UInt16
  profileId : WorkspaceProfileId
  profileRevision : UInt64
  mounts : List ProfileMount
  scopeBindings : List ProfileScopeBinding
  layoutDigest : LayoutDigest
  deriving DecidableEq

section Sha256

variable (sha256 : List UInt8 → List UInt8)

def LayoutDigest.ofPreimage (preimage : List UInt8) : LayoutDigest := ⟨sha256Label sha256 preimage⟩

namespace WorkspaceLayout

def new (profileId : WorkspaceProfileId) (profileRevision : UInt64)
    (mounts : List ProfileMount) (scopeBindings : List ProfileScopeBinding) :
    LayoutResult WorkspaceLayout := do
  validateProfileRevision profileRevision
  let resolvedBindings ← validateProfileCollections unicode mounts scopeBindings
  let preimage ← encodePreimage workspaceLayoutVersion profileId profileRevision mounts
    resolvedBindings
  return {
    layoutVersion := workspaceLayoutVersion
    profileId := profileId
    profileRevision := profileRevision
    mounts := mounts
    scopeBindings := scopeBindings
    layoutDigest := .ofPreimage sha256 preimage }

def canonicalPreimage (self : WorkspaceLayout) : LayoutResult (List UInt8) := do
  let resolvedBindings ← validateProfileCollections unicode self.mounts self.scopeBindings
  encodePreimage self.layoutVersion self.profileId self.profileRevision self.mounts
    resolvedBindings

end WorkspaceLayout

/-! ## Session layouts -/

structure SessionLayout where
  layoutVersion : UInt16
  layoutDigest : LayoutDigest
  entries : List SessionLayoutEntry
  deriving DecidableEq, Repr

def placeholderProfileId : WorkspaceProfileId :=
  ⟨"00000000-0000-0000-0000-000000000001".toList, by decide +kernel, by decide +kernel⟩

namespace SessionLayout

def new (layoutDigest : LayoutDigest) (entries : List SessionLayoutEntry) :
    LayoutResult SessionLayout := do
  let mounts ← validateSessionEntries unicode entries
  let _ ← encodePreimage workspaceLayoutVersion placeholderProfileId 1 mounts
    (sessionBindingViews entries)
  return ⟨workspaceLayoutVersion, layoutDigest, entries⟩

/-- The entries of a workspace; none is a mount reference that was not validated, where
the source panics. -/
def entriesOf (workspace : WorkspaceLayout) : Option (List SessionLayoutEntry) :=
  let targets := targetByMount workspace.mounts
  workspace.scopeBindings.mapM fun binding =>
    targets[binding.mountId]?.map fun target => ⟨binding.scopeOrdinal, binding.mountId, target⟩

def fromWorkspace (workspace : WorkspaceLayout) : Option (LayoutResult SessionLayout) :=
  (entriesOf workspace).map (SessionLayout.new unicode workspace.layoutDigest)

def profileContextPreimage (self : SessionLayout) (profileId : WorkspaceProfileId)
    (profileRevision : UInt64) : LayoutResult (List UInt8) := do
  validateProfileRevision profileRevision
  let mounts ← validateSessionEntries unicode self.entries
  encodePreimage self.layoutVersion profileId profileRevision mounts
    (sessionBindingViews self.entries)

def verifyProfileContext (self : SessionLayout) (profileId : WorkspaceProfileId)
    (profileRevision : UInt64) : LayoutResult Unit := do
  let preimage ← self.profileContextPreimage unicode profileId profileRevision
  if LayoutDigest.ofPreimage sha256 preimage ≠ self.layoutDigest then throw .layoutDigestMismatch
  else pure ()

def validateAgainstWorkspace (self : SessionLayout) (workspace : WorkspaceLayout) :
    Option (LayoutResult Unit) :=
  match self.verifyProfileContext unicode sha256 workspace.profileId workspace.profileRevision with
  | .error error => some (.error error)
  | .ok () =>
      if self.layoutVersion ≠ workspace.layoutVersion ∨
          self.layoutDigest ≠ workspace.layoutDigest then
        some (.error .layoutDigestMismatch)
      else
        (fromWorkspace unicode workspace).map fun expected => do
          let expected ← expected
          if self.entries ≠ expected.entries then throw .workspaceEntriesMismatch else pure ()

end SessionLayout

end Sha256

end Unicode

end Locality.Protocol
