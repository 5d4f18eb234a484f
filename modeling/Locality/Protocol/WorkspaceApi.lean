/-
  Protocol/WorkspaceApi.lean --- the sessions and the offers of
  `locality-protocol/src/workspace_api_v2.rs`, with what validates them.
-/
import Locality.Protocol.ScopeOffer
import Locality.Protocol.WorkspaceLayout

set_option autoImplicit false

namespace Locality.Protocol

open Locality.Core Locality.Foundation Scope

def workspaceHttpApiGeneration : UInt16 := 2

inductive WorkspaceApiValidationError where
  | unsupportedApiGeneration (actual : UInt16)
  | unsupportedLayoutVersion (actual : UInt16)
  | emptyField (field : Text)
  | zeroProfileRevision
  | duplicateOfferSourceGenerationId (index : Nat)
  | layout (error : WorkspaceLayoutError)
  | scope (error : ScopeContractError)
  deriving DecidableEq, Repr

abbrev ApiResult : Type → Type := Except WorkspaceApiValidationError

namespace WorkspaceApi

def validateApiGeneration (actual : UInt16) : ApiResult Unit :=
  if actual ≠ workspaceHttpApiGeneration then throw (.unsupportedApiGeneration actual) else pure ()

def validateProfileRevision (actual : UInt64) : ApiResult Unit :=
  if actual = 0 then throw .zeroProfileRevision else pure ()

def validateLayoutReference (layoutVersion : UInt16) : ApiResult Unit :=
  if layoutVersion ≠ workspaceLayoutVersion then throw (.unsupportedLayoutVersion layoutVersion)
  else pure ()

def validateNonempty (field value : Text) : ApiResult Unit :=
  if value = [] then throw (.emptyField field) else pure ()

/-- The generations from an index on, behind ids that were seen. -/
def validateOfferGenerationIds :
    Nat → List SourceGenerationId → List OrderedSourceGeneration → ApiResult Unit
  | _, _, [] => pure ()
  | index, generationIds, generation :: generations =>
      if generation.sourceGenerationId ∈ generationIds then
        throw (.duplicateOfferSourceGenerationId index)
      else validateOfferGenerationIds (index + 1)
        (generation.sourceGenerationId :: generationIds) generations

end WorkspaceApi

open WorkspaceApi

structure WorkspaceExportOffer where
  apiGeneration : UInt16
  profileId : WorkspaceProfileId
  profileRevision : UInt64
  layoutVersion : UInt16
  layoutDigest : LayoutDigest
  offer : SealedExportOffer
  deriving DecidableEq

def WorkspaceExportOffer.validate (self : WorkspaceExportOffer) : ApiResult Unit := do
  validateApiGeneration self.apiGeneration
  WorkspaceApi.validateProfileRevision self.profileRevision
  validateLayoutReference self.layoutVersion
  self.offer.validate.mapError .scope
  validateOfferGenerationIds 0 [] self.offer.sourceGenerations

structure WorkspaceProfileSession where
  apiGeneration : UInt16
  sessionId : SessionId
  opaqueCapability : Text
  expiresAt : Text
  profileId : WorkspaceProfileId
  profileRevision : UInt64
  sessionLayout : SessionLayout
  deriving DecidableEq

def WorkspaceProfileSession.validate (unicode : UnicodeTables)
    (sha256 : List UInt8 → List UInt8) (self : WorkspaceProfileSession) : ApiResult Unit := do
  validateApiGeneration self.apiGeneration
  WorkspaceApi.validateNonempty "session_id".toList self.sessionId.value
  WorkspaceApi.validateNonempty "opaque_capability".toList self.opaqueCapability
  (validateCanonicalUtcTimestamp "expires_at".toList self.expiresAt).mapError .scope
  WorkspaceApi.validateProfileRevision self.profileRevision
  (self.sessionLayout.verifyProfileContext unicode sha256 self.profileId
    self.profileRevision).mapError .layout

end Locality.Protocol
