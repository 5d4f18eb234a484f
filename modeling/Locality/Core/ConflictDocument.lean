/-
  Core/ConflictDocument.lean --- conflicts of whole documents: the part of
  `locality-core/src/conflict.rs` that reads and writes the frontmatter envelope.

  A conflict is written into the body only.  The frontmatter is the local one where
  the local contents can be parsed; where they cannot, the whole local text counts as
  a body and the remote frontmatter is taken.
-/
import Locality.Core.Canonical
import Locality.Core.Conflict

set_option autoImplicit false

namespace Locality.Core

variable (yaml : YamlSerde)

/-- The frontmatter and the body under which local contents enter a merge. -/
def localSideOfContents (localContents : Text) (remoteDocument : CanonicalDocument) :
    Text × Text :=
  match parseCanonicalMarkdown yaml localContents with
  | .ok parsed => (parsed.document.frontmatter, parsed.document.body)
  | .error _ => (remoteDocument.frontmatter, localContents)

def renderInlineConflictMarkdownWithBase (localContents : Text) (baseBody : Option Text)
    (remoteDocument : CanonicalDocument) : Text :=
  let (frontmatter, localBody) := localSideOfContents yaml localContents remoteDocument
  let body :=
    match baseBody with
    | some baseBody => renderConflictMarkerBodyWithBase baseBody localBody remoteDocument.body
    | none => renderConflictMarkerBody localBody remoteDocument.body
  renderCanonicalMarkdown ⟨frontmatter, body⟩

def localVersionFromConflictMarkers (contents : Text) : Option Text := do
  let parsed ← (parseCanonicalMarkdown yaml contents).toOption
  let body ← localBodyFromConflictMarkers parsed.document.body
  return renderCanonicalMarkdown ⟨parsed.document.frontmatter, body⟩

end Locality.Core
