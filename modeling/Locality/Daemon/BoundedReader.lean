/-
  Daemon/BoundedReader.lean --- `BoundedTarReader` of `localityd/src/workspace_archive.rs`:
  the bytes of a tar stream, read through a guard that looks at its headers.

  The reader below it returns what it likes of what is left, but something.
-/
import Locality.Daemon.TarStream

set_option autoImplicit false

namespace Locality.Daemon

open Locality.Core Locality.Foundation

namespace BoundedTar

def tarBlockBytes : Nat := 512

def maxTarExtensionChain : Nat := 4

/-- Twice `MAX_EXPORT_V2_FILE_PAX_BYTES`. -/
def maxTarExtensionBytes : Nat := 16 * 1024

def maxTarExtensionChainBytes : Nat := maxTarExtensionBytes * 2

inductive TarReadError where
  | extensionWithoutMember
  | sizeOverflow
  | base256Size
  | invalidSize
  | extensionTooLong (size : UInt64)
  | extensionChain
  | globalExtension
  | gnuExtension
  | truncatedHeader
  deriving DecidableEq, Repr

abbrev ReadResult : Type → Type := Except TarReadError

/-! ## The reader below -/

/-- What is left of a stream, with how much each read asks for next. -/
structure InnerReader where
  remaining : List UInt8
  split : Nat → Nat
  reads : Nat

/-- Up to so many bytes: as many as the split says, but one at least. -/
def InnerReader.read (self : InnerReader) (length : Nat) : List UInt8 × InnerReader :=
  let count := min (max 1 (self.split self.reads)) length
  (self.remaining.take count,
    { self with remaining := self.remaining.drop count, reads := self.reads + 1 })

/-! ## Sizes -/

/-- `rposition`. -/
def rposition (p : UInt8 → Bool) (bytes : List UInt8) : Option Nat :=
  (bytes.reverse.findIdx? p).map fun index => bytes.length - 1 - index

def isPadding (byte : UInt8) : Bool := byte = 0 ∨ byte = 32

/-- What stands in a size field between the spaces before and the padding behind. -/
def sizeDigits (field : List UInt8) : List UInt8 :=
  let start := (field.findIdx? fun byte => byte ≠ 32).getD field.length
  let stop := ((rposition (fun byte => !isPadding byte) field).map (· + 1)).getD start
  (field.take stop).drop start

def isOctalDigit (byte : UInt8) : Bool := 48 ≤ byte ∧ byte ≤ 55

/-- `checked_mul(8)` and `checked_add` of a digit. -/
def pushOctal (value : UInt64) (byte : UInt8) : ReadResult UInt64 :=
  if value.toNat * 8 + (byte.toNat - 48) < 2 ^ 64 then
    return UInt64.ofNat (value.toNat * 8 + (byte.toNat - 48))
  else throw .sizeOverflow

def parseRawTarSize (field : List UInt8) : ReadResult UInt64 := do
  rejectIf (∃ byte ∈ field.head?, 128 ≤ byte) .base256Size
  rejectIf ((sizeDigits field).all isOctalDigit = false) .invalidSize
  (sizeDigits field).foldlM pushOctal 0

/-! ## The guard -/

structure BoundedTarReader where
  inner : InnerReader
  header : List UInt8
  headerOffset : Nat
  bodyRemaining : UInt64
  extensionCount : UInt64
  extensionBytes : UInt64

namespace BoundedTarReader

def new (inner : InnerReader) : BoundedTarReader where
  inner := inner
  header := []
  headerOffset := tarBlockBytes
  bodyRemaining := 0
  extensionCount := 0
  extensionBytes := 0

def isZeroBlock (header : List UInt8) : Bool := header.all (· = 0)

def sizeField (header : List UInt8) : List UInt8 := (header.drop 124).take 12

def typeFlag (header : List UInt8) : UInt8 := header.getD 156 0

/-- `b'x'`, `b'g'`, `b'L'` and `b'K'`. -/
def paxType : UInt8 := 120
def globalType : UInt8 := 103
def longNameType : UInt8 := 76
def longLinkType : UInt8 := 75

/-- What a header makes of a chain of extensions, and the blocks of its body. -/
structure HeaderCheck where
  bodyRemaining : UInt64
  extensionCount : UInt64
  extensionBytes : UInt64

/-- What is checked of a header behind a chain. -/
def checkHeader (extensionCount extensionBytes : UInt64) (header : List UInt8) :
    ReadResult HeaderCheck :=
  if isZeroBlock header then do
    rejectIf (extensionCount ≠ 0) .extensionWithoutMember
    return ⟨0, 0, 0⟩
  else do
    let size ← parseRawTarSize (sizeField header)
    rejectIf (2 ^ 64 ≤ size.toNat + (tarBlockBytes - 1)) .sizeOverflow
    let bodyRemaining := UInt64.ofNat
      ((size.toNat + (tarBlockBytes - 1)) / tarBlockBytes * tarBlockBytes)
    if typeFlag header = paxType then do
      rejectIf (maxTarExtensionBytes < size.toNat) (.extensionTooLong size)
      let extensionCount := saturatingAdd extensionCount 1
      let extensionBytes := saturatingAdd extensionBytes size
      rejectIf (maxTarExtensionChain < extensionCount.toNat ∨
        maxTarExtensionChainBytes < extensionBytes.toNat) .extensionChain
      return ⟨bodyRemaining, extensionCount, extensionBytes⟩
    else if typeFlag header = globalType then throw .globalExtension
    else if typeFlag header = longNameType ∨ typeFlag header = longLinkType then
      throw .gnuExtension
    else return ⟨bodyRemaining, 0, 0⟩

/-- The header that was read is checked; where it is refused, what the reader kept of it is
never looked at. -/
def validateHeader (self : BoundedTarReader) : ReadResult BoundedTarReader := do
  let checked ← checkHeader self.extensionCount self.extensionBytes self.header
  return { self with
    bodyRemaining := checked.bodyRemaining
    extensionCount := checked.extensionCount
    extensionBytes := checked.extensionBytes }

/-- The loop that fills the header, in so many rounds: one for each byte that is missing
suffices.  It finds none where the stream is at its end. -/
def fillHeader : Nat → List UInt8 → InnerReader →
    ReadResult (Option (List UInt8) × InnerReader)
  | 0, header, inner => return (some header, inner)
  | rounds + 1, header, inner =>
      if header.length < tarBlockBytes then
        let (bytes, inner) := inner.read (tarBlockBytes - header.length)
        if bytes = [] then
          if header = [] then return (none, inner) else throw .truncatedHeader
        else fillHeader rounds (header ++ bytes) inner
      else return (some header, inner)

/-- Bytes of the header that was checked. -/
def serveHeader (self : BoundedTarReader) (length : Nat) : List UInt8 × BoundedTarReader :=
  let copied := min (tarBlockBytes - self.headerOffset) length
  ((self.header.drop self.headerOffset).take copied,
    { self with headerOffset := self.headerOffset + copied })

/-- `Read::read` into an output of a length. -/
def read (self : BoundedTarReader) (length : Nat) :
    ReadResult (List UInt8 × BoundedTarReader) :=
  if length = 0 then return ([], self)
  else if self.headerOffset < tarBlockBytes then return self.serveHeader length
  else if 0 < self.bodyRemaining then
    let (bytes, inner) := self.inner.read (min self.bodyRemaining.toNat length)
    return (bytes, { self with
      inner := inner
      bodyRemaining := UInt64.ofNat (self.bodyRemaining.toNat - bytes.length) })
  else do
    let (header, inner) ← fillHeader tarBlockBytes [] self.inner
    match header with
    | none => return ([], { self with inner := inner, header := [] })
    | some header => do
        let self ← { self with inner := inner, header := header }.validateHeader
        return { self with headerOffset := 0 }.serveHeader length

end BoundedTarReader

/-! ## Runs -/

/-- What reads returned, up to the first that failed. -/
structure ReadRun where
  bytes : List UInt8
  error : Option TarReadError

def runReads (self : BoundedTarReader) : List Nat → ReadRun
  | [] => ⟨[], none⟩
  | length :: lengths =>
      match self.read length with
      | .error error => ⟨[], some error⟩
      | .ok (bytes, self) =>
          let rest := runReads self lengths
          ⟨bytes ++ rest.bytes, rest.error⟩

end BoundedTar

end Locality.Daemon
