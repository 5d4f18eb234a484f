/-
  Daemon/Media.lean --- media links in rendered documents: `localityd/src/media.rs`
  and the functions of `locality-notion/src/media.rs` that it calls.

  A render names its media by links relative to the page.  In a file that the daemon
  writes, a link that leads into the media directory is absolute; every other link is
  left as it is.
-/
import Locality.Core.Shadow
import Locality.Core.PathProjection

set_option autoImplicit false

namespace Locality.Daemon

open Locality.Core

/-! ## Reading a link target -/

/-- The path that a text denotes; `.` is no component. -/
def pathOfText (t : Text) : PathBuf where
  absolute := startsWith t ['/']
  components := ((t.splitOn '/').filter fun component => !component.isEmpty).filter fun
    component => decide (component ≠ ".".toList)

def isExternalHref (href : Text) : Bool :=
  let lower := toAsciiLowercase href
  startsWith lower "http://".toList || startsWith lower "https://".toList ||
    startsWith lower "loc://".toList || startsWith lower "notion://".toList

def isEscapedHrefPunctuation (c : Char) : Bool := c ∈ ['(', ')', '[', ']']

def unescapeMarkdownHref : Text → Text
  | [] => []
  | ['\\'] => ['\\']
  | '\\' :: next :: rest =>
      if isEscapedHrefPunctuation next then next :: unescapeMarkdownHref rest
      else '\\' :: next :: unescapeMarkdownHref rest
  | c :: rest => c :: unescapeMarkdownHref rest

def hexValue (byte : Nat) : Option Nat :=
  if 48 ≤ byte ∧ byte ≤ 57 then some (byte - 48)
  else if 97 ≤ byte ∧ byte ≤ 102 then some (byte - 97 + 10)
  else if 65 ≤ byte ∧ byte ≤ 70 then some (byte - 65 + 10)
  else none

/-- The loop of `percent_decode` over bytes; 37 is the percent sign. -/
def percentDecodeBytes : List Nat → Option (List Nat)
  | [] => some []
  | 37 :: high :: low :: rest => do
      let high ← hexValue high
      let low ← hexValue low
      let decoded ← percentDecodeBytes rest
      return (high * 16 + low) :: decoded
  | [37] | [37, _] => none
  | byte :: rest => (percentDecodeBytes rest).map fun decoded => byte :: decoded

def percentDecode (value : Text) : Option Text := do
  let bytes ← percentDecodeBytes (utf8Bytes value)
  let decoded ← String.fromUTF8? ⟨(bytes.map UInt8.ofNat).toArray⟩
  return decoded.toList

/-- The loop of `normalize_relative_path`. -/
def normalizeComponents : List Text → List Text → Option (List Text)
  | normalized, [] => some normalized
  | normalized, component :: rest =>
      if component = "..".toList then
        if normalized.isEmpty then none else normalizeComponents normalized.dropLast rest
      else normalizeComponents (normalized ++ [component]) rest

def normalizeRelativePath (path : PathBuf) : Option PathBuf :=
  if path.absolute then none
  else (normalizeComponents [] path.components).map PathBuf.relative

def isMediaPath (path : PathBuf) : Bool :=
  [".loc".toList, "media".toList].isPrefixOf path.components

/-- `Path::strip_prefix`. -/
def stripPathPrefix (path base : PathBuf) : Option PathBuf :=
  if path.startsWith base then
    some (.relative (path.components.drop base.components.length))
  else none

def resolveMediaHrefWithContentRoot (pagePath : PathBuf) (href : Text)
    (contentRoot : PathBuf) : Option PathBuf :=
  if isExternalHref href then none
  else do
    let decoded ← percentDecode (unescapeMarkdownHref href)
    let decodedPath := pathOfText decoded
    let path ←
      if decodedPath.absolute then stripPathPrefix decodedPath contentRoot
      else some ((parentPath pagePath).join decodedPath)
    let normalized ← normalizeRelativePath path
    if isMediaPath normalized then some normalized else none

/-! ## Absolute links -/

def absoluteMediaHref (outputRoot localPath : PathBuf) : Text :=
  (displayPath (outputRoot.join localPath)).map fun c => if c = '\\' then '/' else c

/-- The loop of `absolutize_media_hrefs`; every round takes a link opener. -/
def absolutizeFrom (pagePath outputRoot : PathBuf) : Nat → Text → Text
  | 0, rest => rest
  | fuel + 1, rest =>
      match splitOnce "](".toList rest with
      | none => rest
      | some (before, targetAndTail) =>
          match splitOnce [')'] targetAndTail with
          | none => before ++ "](".toList ++ targetAndTail
          | some (target, tail) =>
              let written :=
                match resolveMediaHrefWithContentRoot pagePath target outputRoot with
                | some localPath => absoluteMediaHref outputRoot localPath
                | none => target
              before ++ "](".toList ++ written ++ [')'] ++
                absolutizeFrom pagePath outputRoot fuel tail

def absolutizeMediaHrefs (body : Text) (pagePath outputRoot : PathBuf) : Text :=
  absolutizeFrom pagePath outputRoot body.length body

/-- A body without links is left as it is. -/
theorem absolutizeMediaHrefs_of_plain {body : Text}
    (h : containsText body "](".toList = false) (pagePath outputRoot : PathBuf) :
    absolutizeMediaHrefs body pagePath outputRoot = body := by
  have hnone : splitOnce "](".toList body = none := by
    unfold containsText at h
    exact Option.isNone_iff_eq_none.mp (by simpa using h)
  unfold absolutizeMediaHrefs
  cases body with
  | nil => rfl
  | cons c cs => rw [List.length_cons, absolutizeFrom, hnone]

def documentWithAbsoluteMediaHrefs (document : CanonicalDocument)
    (pagePath outputRoot : PathBuf) : CanonicalDocument :=
  { document with body := absolutizeMediaHrefs document.body pagePath outputRoot }

def renderDocumentWithAbsoluteMediaHrefs (document : CanonicalDocument)
    (pagePath outputRoot : PathBuf) : Text :=
  renderCanonicalMarkdown (documentWithAbsoluteMediaHrefs document pagePath outputRoot)

end Locality.Daemon
