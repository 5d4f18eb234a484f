/-
  Daemon/TarStream.lean --- tar streams as `localityd` reads them, entry by entry.

  The container format is that of a library outside of the repository.  What stands here
  is what it hands out of each entry; headers and PAX records may hold bytes that are no
  UTF-8, and may be unreadable.
-/
import Locality.Protocol.ScopeOffer

set_option autoImplicit false

namespace Locality.Daemon

open Locality.Core Locality.Foundation Locality.Protocol

/-- Bytes that are a text, or are not. -/
inductive RawText where
  | utf8 (text : Text)
  | invalid (bytes : List UInt8)
  deriving DecidableEq, Repr

namespace RawText

/-- `str::from_utf8`. -/
def toText : RawText → Option Text
  | utf8 text => some text
  | invalid _ => none

/-- `starts_with`, of bytes. -/
def startsWith (self : RawText) (pattern : Text) : Bool :=
  match self with
  | utf8 text => (asBytes pattern).isPrefixOf (asBytes text)
  | invalid bytes => (asBytes pattern).isPrefixOf bytes

end RawText

inductive TarEntryType where
  | regular
  | directory
  | other
  deriving DecidableEq, Repr

structure PaxExtension where
  key : RawText
  value : RawText
  deriving DecidableEq, Repr

/-- An entry.  No PAX extensions are an empty list of them; the body comes in reads. -/
structure TarEntry where
  entryType : TarEntryType
  hasLinkName : Bool
  path : RawText
  paxExtensions : Option (List (Option PaxExtension))
  mode : Option UInt32
  size : UInt64
  reads : List (List UInt8)
  deriving DecidableEq, Repr

/-- A stream up to its first block of zeros, and what follows that one. -/
structure TarStream where
  entries : List (Option TarEntry)
  endsInMarker : Bool
  trailingData : Bool
  deriving DecidableEq, Repr

def readOnlyFileMode : UInt32 := 0o444

def readOnlyDirectoryMode : UInt32 := 0o555

/-- `4 MiB`. -/
def maxExportTerminalControlBytes : Nat := 4 * 1024 * 1024

/-- `serde_json` of a control. -/
structure ControlCodec (C : Type) where
  decode : List UInt8 → Option C
  encode : C → Option (List UInt8)

/-- `u64::saturating_add`. -/
def saturatingAdd (a b : UInt64) : UInt64 :=
  if a.toNat + b.toNat < 2 ^ 64 then a + b else UInt64.ofNat (2 ^ 64 - 1)

theorem saturatingAdd_toNat (a b : UInt64) :
    (saturatingAdd a b).toNat = min (a.toNat + b.toNat) (2 ^ 64 - 1) := by
  rw [saturatingAdd]
  split
  · rename_i hlt
    rw [UInt64.toNat_add, Nat.mod_eq_of_lt hlt]
    omega
  · rename_i hlt
    have hmax : (UInt64.ofNat (2 ^ 64 - 1)).toNat = 2 ^ 64 - 1 := rfl
    omega

/-- The path that an entry is checked under: a directory may end in a slash. -/
def memberPath (isDirectory : Bool) (path : Text) : Text :=
  if isDirectory then (stripSuffixChar '/' path).getD path else path

end Locality.Daemon
