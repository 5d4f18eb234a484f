/-
  Protocol/GenerationBaseline.lean --- what a generation store takes from the protocol
  besides deltas: the digest of a baseline inventory, of
  `locality-protocol/src/generation_baseline.rs`, and the capabilities of a transport, of
  `locality-protocol/src/freshness_delivery_transport.rs`.
-/
import Locality.Protocol.FreshnessDelivery

set_option autoImplicit false

namespace Locality.Protocol

open Locality.Core Locality.Foundation

/-! ## Baseline inventories -/

def maxGenerationBaselineContentVersionIdBytes : Nat := 4096

inductive GenerationBaselineError where
  | identifierEmpty (field : Text)
  | invalidSha256 (field : Text)
  | contentVersionIdTooLong (actual : Nat)
  | nonCanonicalFileOrder
  | filePathReuse
  | canonicalValueTooLarge
  deriving DecidableEq, Repr

abbrev BaselineResult : Type → Type := Except GenerationBaselineError

inductive GenerationBaselineRefreshModeV1 where
  | generationDeltaV1
  | fullExportOnly
  deriving DecidableEq, Repr

def validateNonempty (field value : Text) : BaselineResult Unit :=
  if value.isEmpty then throw (.identifierEmpty field) else pure ()

/-- The files behind a projection and among the paths that are claimed. -/
def validateBaselineFiles (unicode : UnicodeTables) :
    Option Text → List Text → List GenerationFileIdentity → BaselineResult Unit
  | _, _, [] => pure ()
  | previousProjectionId, pathCollisionKeys, file :: files => do
      validateNonempty "projection_id".toList file.projectionId.value
      validateNonempty "content_version_id".toList file.contentVersionId.value
      if maxGenerationBaselineContentVersionIdBytes <
          (asBytes file.contentVersionId.value).length then
        throw (.contentVersionIdTooLong (asBytes file.contentVersionId.value).length)
      else if !isSha256Label file.contentSha256 then
        throw (.invalidSha256 "content_sha256".toList)
      else if previousProjectionId.any fun previous =>
          !bytewiseLt previous file.projectionId.value then
        throw .nonCanonicalFileOrder
      else if file.logicalPath.portableCollisionKey unicode ∈ pathCollisionKeys then
        throw .filePathReuse
      else
        validateBaselineFiles unicode (some file.projectionId.value)
          (file.logicalPath.portableCollisionKey unicode :: pathCollisionKeys) files

/-- `append_text` of a file's fields; a length that does not fit is an error. -/
def appendBaselineFiles : List UInt8 → List GenerationFileIdentity → BaselineResult (List UInt8)
  | output, [] => return output
  | output, file :: files =>
      match appendIdentityFields output file with
      | .error _ => throw .canonicalValueTooLarge
      | .ok output => appendBaselineFiles output files

def baselineTargetInventorySha256 (unicode : UnicodeTables)
    (sha256 : List UInt8 → List UInt8) (files : List GenerationFileIdentity) :
    BaselineResult Text := do
  validateBaselineFiles unicode none [] files
  match countU64 files.length with
  | .error _ => throw .canonicalValueTooLarge
  | .ok count =>
      let output ← appendBaselineFiles (appendU64 targetInventoryDomain count) files
      return sha256Label sha256 output

/-! ## Capabilities of a transport -/

def generationTransportReaderVersion : Nat := 1

def maxGenerationBodyWindowBytes : Nat := 4 * 1024 * 1024

def minGenerationPinLeaseSeconds : Nat := 60

def maxGenerationPinLeaseSeconds : Nat := 24 * 60 * 60

def maxGenerationPinLeasesPerDevice : Nat := 32

inductive GenerationPinFallbackPolicy where
  | requireExact
  | useLatestRetained
  | unknown
  deriving DecidableEq, Repr

/-- The place of a policy in the order of its declaration. -/
def GenerationPinFallbackPolicy.rank : GenerationPinFallbackPolicy → Nat
  | requireExact => 0
  | useLatestRetained => 1
  | unknown => 2

structure GenerationBodyWindowCapability where
  maxWindowBytes : UInt64
  deriving DecidableEq, Repr

structure GenerationPinLeaseCapability where
  minLeaseSeconds : UInt64
  maxLeaseSeconds : UInt64
  maxActiveLeasesPerDevice : UInt16
  fallbackPolicies : List GenerationPinFallbackPolicy
  deriving DecidableEq, Repr

structure GenerationTransportCapabilities where
  formatVersion : UInt16
  minimumReaderVersion : UInt16
  bodyWindows : Option GenerationBodyWindowCapability
  terminalReceiptAcknowledgments : Bool
  generationPinLeases : Option GenerationPinLeaseCapability
  deriving DecidableEq, Repr

inductive GenerationTransportContractError where
  | updateRequired (minimum supported : Nat)
  | invalidVersionEnvelope
  | invalidBodyWindowLimit (actual : Nat)
  | invalidPinCapability
  | invalidPinLeaseDuration (actual : Nat)
  | unknownPinFallback
  deriving DecidableEq, Repr

abbrev TransportResult : Type → Type := Except GenerationTransportContractError

def validateTransportVersions (formatVersion minimumReaderVersion : UInt16) :
    TransportResult Unit :=
  if formatVersion = 0 ∨ minimumReaderVersion = 0 ∨ formatVersion < minimumReaderVersion then
    throw .invalidVersionEnvelope
  else if generationTransportReaderVersion < minimumReaderVersion.toNat then
    throw (.updateRequired minimumReaderVersion.toNat generationTransportReaderVersion)
  else pure ()

def validateLeaseSeconds (seconds : UInt64) : TransportResult Unit :=
  if minGenerationPinLeaseSeconds ≤ seconds.toNat ∧
      seconds.toNat ≤ maxGenerationPinLeaseSeconds then pure ()
  else throw (.invalidPinLeaseDuration seconds.toNat)

/-- The policies behind one, in their order. -/
def validateFallbackPolicies :
    Option GenerationPinFallbackPolicy → List GenerationPinFallbackPolicy → TransportResult Unit
  | _, [] => pure ()
  | previous, policy :: policies =>
      if policy = .unknown then throw .unknownPinFallback
      else if previous.any fun previous => decide (policy.rank ≤ previous.rank) then
        throw .invalidPinCapability
      else validateFallbackPolicies (some policy) policies

def validatePinCapability (capability : GenerationPinLeaseCapability) : TransportResult Unit := do
  validateLeaseSeconds capability.minLeaseSeconds
  validateLeaseSeconds capability.maxLeaseSeconds
  if capability.maxLeaseSeconds < capability.minLeaseSeconds ∨
      capability.maxActiveLeasesPerDevice = 0 ∨
      maxGenerationPinLeasesPerDevice < capability.maxActiveLeasesPerDevice.toNat ∨
      capability.fallbackPolicies = [] ∨ 2 < capability.fallbackPolicies.length then
    throw .invalidPinCapability
  else validateFallbackPolicies none capability.fallbackPolicies

namespace GenerationTransportCapabilities

def legacy : GenerationTransportCapabilities where
  formatVersion := 1
  minimumReaderVersion := 1
  bodyWindows := none
  terminalReceiptAcknowledgments := false
  generationPinLeases := none

/-- The JSON of capabilities that pass these checks is far below its limit, so the check
of its length is left out. -/
def validate (self : GenerationTransportCapabilities) : TransportResult Unit := do
  validateTransportVersions self.formatVersion self.minimumReaderVersion
  self.bodyWindows.forM fun bodyWindows =>
    if 1 ≤ bodyWindows.maxWindowBytes.toNat ∧
        bodyWindows.maxWindowBytes.toNat ≤ maxGenerationBodyWindowBytes then pure ()
    else throw (.invalidBodyWindowLimit bodyWindows.maxWindowBytes.toNat)
  self.generationPinLeases.forM validatePinCapability

end GenerationTransportCapabilities

end Locality.Protocol
