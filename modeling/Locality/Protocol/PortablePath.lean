/-
  Protocol/PortablePath.lean --- what `LogicalPath::new` and `MountTarget::new` accept:
  `locality-core/src/portable.rs` and `locality-core/src/workspace_layout.rs`.

  The two were written apart.  A target is one component, but the device names that it
  must not have are fewer than those that a component of a path must not have.
-/
import Locality.Core.PathProjection
import Locality.Protocol.FreshnessDelivery

set_option autoImplicit false

namespace Locality.Protocol

open Locality.Core Locality.Foundation

/-! ## Lengths and parts of texts -/

/-- `str::len`. -/
def utf8Bytes (t : Text) : Nat := (asBytes t).length

/-- `str::encode_utf16().count()`. -/
def utf16Units (t : Text) : Nat := (t.map fun c => if c.toNat < 0x10000 then 1 else 2).sum

/-- `str::rsplit_once` at a slash: what stands before the last one, and behind it. -/
def rsplitSlash (value : Text) : Option (Text × Text) :=
  if '/' ∈ value then
    some ((value.rdropWhile (· != '/')).dropLast, value.rtakeWhile (· != '/'))
  else none

/-- What stands before the first dot, or everything. -/
def deviceStem (component : Text) : Text := component.takeWhile (· != '.')

def isAsciiAlphabetic (c : Char) : Bool :=
  (decide ('a' ≤ c) && decide (c ≤ 'z')) || (decide ('A' ≤ c) && decide (c ≤ 'Z'))

/-- `to_ascii_uppercase`. -/
def toAsciiUppercase (t : Text) : Text :=
  t.map fun c => if 'a' ≤ c && c ≤ 'z' then Char.ofNat (c.toNat - 32) else c

/-- `<>:"|?*`. -/
def unsafeCharacters : List Char := ['<', '>', ':', '"', '|', '?', '*']

/-- `ends_with(['.', ' '])`. -/
def endsDotOrSpace (t : Text) : Bool := decide (t.getLast? = some '.' ∨ t.getLast? = some ' ')

/-! ## Logical paths -/

def maxLogicalPathComponentUtf8Bytes : Nat := 255

def maxLogicalPathComponentUtf16Units : Nat := 255

def maxLogicalPathUtf8Bytes : Nat := 1024

def maxLogicalPathUtf16Units : Nat := 1024

def reservedExportMetadataPath : Text := ".loc/session.json".toList

inductive LogicalPathError where
  | empty
  | absolute
  | backslash
  | nonNormalizedComponent (component : Text)
  | windowsPrefix
  | reservedMetadata
  | reservedName (name : Text)
  | unsafeCharacter
  | notNfc (component : Text)
  | componentTooLong (component : Text)
  | pathTooLong
  deriving DecidableEq, Repr

/-- A digit of a serial or printer port, superscripts included. -/
def portDigits : List Text :=
  ["1".toList, "2".toList, "3".toList, "4".toList, "5".toList, "6".toList, "7".toList,
    "8".toList, "9".toList, "¹".toList, "²".toList, "³".toList]

/-- The names that Windows keeps for devices, as paths are checked for them. -/
def isReservedName (component : Text) : Bool :=
  let deviceName := toAsciiLowercase (deviceStem component)
  decide (deviceName ∈ ["con".toList, "prn".toList, "aux".toList, "nul".toList, "clock$".toList,
    "conin$".toList, "conout$".toList]) ||
    ((stripPrefix deviceName "com".toList).any fun suffix => decide (suffix ∈ portDigits)) ||
    ((stripPrefix deviceName "lpt".toList).any fun suffix => decide (suffix ∈ portDigits))

section Unicode

variable (unicode : UnicodeTables)

def portablePathCollisionKey (value : Text) : Text :=
  join ['/'] ((splitSlash value).map (collisionKey unicode))

/-- One component, of an index. -/
def validatePathComponent (index : Nat) (component : Text) : Except LogicalPathError Unit :=
  if component = [] ∨ component = ['.'] ∨ component = ['.', '.'] then
    throw (.nonNormalizedComponent component)
  else if unicode.nfc component ≠ component then throw (.notNfc component)
  else if maxLogicalPathComponentUtf8Bytes < utf8Bytes component ∨
      maxLogicalPathComponentUtf16Units < utf16Units component then
    throw (.componentTooLong component)
  else if component.any isControl ∨ component.any (· ∈ unsafeCharacters) then
    if index = 0 ∧ component[1]? = some ':' ∧ component.head?.any isAsciiAlphabetic then
      throw .windowsPrefix
    else throw .unsafeCharacter
  else if endsDotOrSpace component then throw (.nonNormalizedComponent component)
  else if isReservedName component then throw (.reservedName component)
  else pure ()

def validateLogicalPath (value : Text) : Except LogicalPathError Unit :=
  if value = [] then throw .empty
  else if value.head? = some '/' then throw .absolute
  else if '\\' ∈ value then throw .backslash
  else if portablePathCollisionKey unicode value =
      portablePathCollisionKey unicode reservedExportMetadataPath then
    throw .reservedMetadata
  else if maxLogicalPathUtf8Bytes < utf8Bytes value ∨
      maxLogicalPathUtf16Units < utf16Units value then
    throw .pathTooLong
  else
    (splitSlash value).zipIdx.forM fun (component, index) =>
      validatePathComponent unicode index component

def LogicalPath.new (value : Text) : Except LogicalPathError LogicalPath := do
  validateLogicalPath unicode value
  return ⟨value⟩

end Unicode

/-! ## Mount targets -/

def maxMountTargetUtf8Bytes : Nat := 120

def maxMountTargetUtf16Units : Nat := 120

inductive MountTargetError where
  | empty
  | notNfc
  | tooManyUtf8Bytes (actual : Nat)
  | tooManyUtf16Units (actual : Nat)
  | traversal
  | nul
  | control (character : Char)
  | invalidCharacter (character : Char)
  | trailingDotOrSpace
  | windowsDeviceName
  | reservedControlComponent
  deriving DecidableEq, Repr

/-- A suffix of one byte, from one to nine. -/
def isPortDigit (suffix : Text) : Bool :=
  match suffix with
  | [digit] => decide ('1' ≤ digit) && decide (digit ≤ '9')
  | _ => false

/-- The names that Windows keeps for devices, as targets and members are checked for them. -/
def isWindowsDeviceName (value : Text) : Bool :=
  let upper := toAsciiUppercase (deviceStem value)
  decide (upper ∈ ["CON".toList, "PRN".toList, "AUX".toList, "NUL".toList]) ||
    (((stripPrefix upper "COM".toList).or (stripPrefix upper "LPT".toList)).any isPortDigit)

/-- One character of a target. -/
def validateTargetCharacter (character : Char) : Except MountTargetError Unit :=
  if character = '\x00' then throw .nul
  else if isControl character then throw (.control character)
  else if character ∈ ['/', '\\', ':', '<', '>', '"', '|', '?', '*'] then
    throw (.invalidCharacter character)
  else pure ()

section Unicode

variable (unicode : UnicodeTables)

/-- What is checked of a target once its characters are right. -/
def validateTargetName (value : Text) : Except MountTargetError Unit :=
  if endsDotOrSpace value then throw .trailingDotOrSpace
  else if isWindowsDeviceName value then throw .windowsDeviceName
  else if collisionKey unicode value = ".loc".toList then throw .reservedControlComponent
  else pure ()

def MountTarget.new (value : Text) : Except MountTargetError MountTarget :=
  if value = [] then throw .empty
  else if unicode.nfc value ≠ value then throw .notNfc
  else if maxMountTargetUtf8Bytes < utf8Bytes value then
    throw (.tooManyUtf8Bytes (utf8Bytes value))
  else if maxMountTargetUtf16Units < utf16Units value then
    throw (.tooManyUtf16Units (utf16Units value))
  else if value = ['.'] ∨ value = ['.', '.'] then throw .traversal
  else do
    value.forM validateTargetCharacter
    validateTargetName unicode value
    return ⟨value⟩

end Unicode

end Locality.Protocol
