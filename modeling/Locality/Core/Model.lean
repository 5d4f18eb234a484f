/-
  Core/Model.lean --- identities, states and error values shared by the whole core:
  `locality-core/src/model.rs`, `error.rs`, and the issue type of `validation.rs`.

  Identities are wrapped texts, so a mount id is never taken for a remote id.  A
  path is a text; nothing modelled here looks inside one.
-/
import Locality.Core.Text

set_option autoImplicit false

namespace Locality.Core

/-! ## Identities -/

structure MountId where
  value : Text
  deriving DecidableEq, Repr

structure RemoteId where
  value : Text
  deriving DecidableEq, Repr

/-- `PathBuf`. -/
abbrev FilePath : Type := Text

inductive EntityKind where
  | page
  | database
  | directory
  | asset
  | unknown (raw : Text)
  deriving DecidableEq, Repr

/-! ## Hydration states -/

inductive HydrationState where
  | virtual
  | stub
  | hydrated
  | dirty
  | conflicted
  deriving DecidableEq, Repr

namespace HydrationState

def canTransitionTo (self next : HydrationState) : Bool :=
  (match self, next with
    | virtual, stub | virtual, dirty | virtual, conflicted
    | stub, hydrated | stub, dirty | stub, conflicted
    | hydrated, dirty | hydrated, conflicted
    | dirty, hydrated | dirty, conflicted
    | conflicted, dirty | conflicted, hydrated => true
    | _, _ => false) || self == next

/-- `transition_to`; the error names the two states. -/
def transitionTo (self next : HydrationState) :
    Except (HydrationState × HydrationState) HydrationState :=
  if self.canTransitionTo next then .ok next else .error (self, next)

end HydrationState

/-! ## Documents -/

structure SourceSpan where
  startLine : Nat
  endLine : Nat
  deriving DecidableEq, Repr

/-- Frontmatter and body of a document. -/
structure CanonicalDocument where
  frontmatter : Text
  body : Text
  deriving DecidableEq, Repr

namespace CanonicalDocument

def stubMarker : Text :=
  "<!-- loc:stub — read triggers hydration, or run: loc pull <path> -->".toList

def isStub (self : CanonicalDocument) : Bool := decide (trim self.body = stubMarker)

end CanonicalDocument

/-! ## Errors -/

structure ValidationIssue where
  code : Text
  file : FilePath
  line : Option Nat
  message : Text
  suggestedFix : Option Text
  deriving DecidableEq, Repr

inductive ConflictReason where
  | localAndRemoteChanged
  | sameBlockChanged
  | remoteMovedDuringPush
  deriving DecidableEq, Repr

structure ConflictSummary where
  remoteId : RemoteId
  path : FilePath
  remotePath : FilePath
  reason : ConflictReason
  deriving DecidableEq, Repr

inductive LocalityError where
  | validation (issues : List ValidationIssue)
  | conflict (summary : ConflictSummary)
  | guardrail (message : Text)
  | remoteNotFound (message : Text)
  | rateLimited (provider : Text) (retryAfterMillis : Nat) (message : Text)
  | invalidState (message : Text)
  | updateRequired (component : Text) (found supported : Int)
  | unsupported (feature : Text)
  | notImplemented (feature : Text)
  | io (message : Text)
  deriving DecidableEq, Repr

abbrev LocalityResult (α : Type) : Type := Except LocalityError α

namespace LocalityError

/-- The `Display` text of an error. -/
def display : LocalityError → Text
  | validation issues => (toString issues.length).toList ++ " validation issue(s)".toList
  | conflict summary => "conflict on ".toList ++ summary.path
  | guardrail message => "guardrail blocked push: ".toList ++ message
  | remoteNotFound message => "remote object not found: ".toList ++ message
  | rateLimited provider retryAfterMillis message =>
      provider ++ " rate limited for ".toList ++ (toString retryAfterMillis).toList ++
        "ms: ".toList ++ message
  | invalidState message => "invalid state: ".toList ++ message
  | updateRequired component found supported =>
      "update required for ".toList ++ component ++ ": found version ".toList ++
        (toString found).toList ++ ", supported version ".toList ++ (toString supported).toList
  | unsupported feature => "unsupported feature: ".toList ++ feature
  | notImplemented feature => "not implemented: ".toList ++ feature
  | io message => "io error: ".toList ++ message

end LocalityError

end Locality.Core
