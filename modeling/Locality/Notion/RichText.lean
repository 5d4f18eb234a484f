/-
  Notion/RichText.lean --- the inline Markdown of rich text:
  `locality-notion/src/render.rs`, over the rich text of `dto.rs`.

  A part is rendered to its text, wrapped by its annotations, and linked.  The loop that
  escapes a text takes off a marker or a character in each round, so the length of the text
  bounds the rounds.
-/
import Locality.Core.Text

set_option autoImplicit false

namespace Locality.Notion

open Locality.Core

/-! ## Rich text -/

structure LinkDto where
  url : Text
  deriving DecidableEq, Repr

structure TextRichTextDto where
  content : Text
  link : Option LinkDto
  deriving DecidableEq, Repr

structure EquationRichTextDto where
  expression : Text
  deriving DecidableEq, Repr

structure IdRefDto where
  id : Text
  deriving DecidableEq, Repr

structure UserMentionDto where
  name : Option Text
  deriving DecidableEq, Repr

structure DateMentionDto where
  start : Text
  stop : Option Text
  deriving DecidableEq, Repr

structure MentionRichTextDto where
  kind : Text
  page : Option IdRefDto
  database : Option IdRefDto
  user : Option UserMentionDto
  date : Option DateMentionDto
  linkPreview : Option LinkDto
  deriving DecidableEq, Repr

structure RichTextAnnotationsDto where
  bold : Bool := false
  italic : Bool := false
  strikethrough : Bool := false
  underline : Bool := false
  code : Bool := false
  deriving DecidableEq, Repr

structure RichTextDto where
  kind : Text
  text : Option TextRichTextDto := none
  mention : Option MentionRichTextDto := none
  equation : Option EquationRichTextDto := none
  plainText : Text := []
  href : Option Text := none
  annotations : RichTextAnnotationsDto := {}
  deriving DecidableEq, Repr

/-! ## Escapes -/

/-- `str::replace` of a character. -/
def replaceChar (c : Char) (replacement t : Text) : Text :=
  t.flatMap fun c' => if c' = c then replacement else [c']

def breakTags : List Text := ["<br />".toList, "<br/>".toList, "<br>".toList]

def breakTagPrefix (value : Text) : Option Text := breakTags.find? (startsWith value)

def literalInlineTagPrefix (value : Text) : Option Text :=
  (breakTagPrefix value).or (["</u>".toList, "<u>".toList].find? (startsWith value))

def literalInlineMarkers : List Text :=
  ["**".toList, "~~".toList, ['`'], "[".toList, "_".toList, "@date(".toList, "@page(".toList,
    "@database(".toList, "@user(".toList]

def literalInlineMarkerPrefix (value : Text) : Option Text :=
  (literalInlineTagPrefix value).or (literalInlineMarkers.find? (startsWith value))

/-- What a character that starts no marker is written as. -/
def escapeMarkdownChar (escapeInlineMarkers : Bool) (c : Char) : Text :=
  if c = '\\' then "\\\\".toList
  else if c = '$' ∧ escapeInlineMarkers = true then "\\$".toList
  else if c = '\n' then "<br>".toList
  else [c]

/-- The loop of `escape_markdown_text_with_options`. -/
def escapeMarkdownFrom (escapeInlineMarkers : Bool) : Nat → Text → Text
  | 0, _ => []
  | _ + 1, [] => []
  | fuel + 1, c :: rest =>
      match if escapeInlineMarkers then literalInlineMarkerPrefix (c :: rest) else none with
      | some marker =>
          '\\' :: marker ++
            escapeMarkdownFrom escapeInlineMarkers fuel ((c :: rest).drop marker.length)
      | none =>
          escapeMarkdownChar escapeInlineMarkers c ++
            escapeMarkdownFrom escapeInlineMarkers fuel rest

def escapeMarkdownTextWithOptions (text : Text) (escapeInlineMarkers : Bool) : Text :=
  escapeMarkdownFrom escapeInlineMarkers text.length text

def escapeMarkdownText (text : Text) : Text := escapeMarkdownTextWithOptions text true

def escapeMarkdownLinkLabel (text : Text) : Text :=
  replaceChar ']' "\\]".toList (escapeMarkdownText text)

def escapeMarkdownLinkHref (href : Text) : Text :=
  replaceChar ')' "\\)".toList
    (replaceChar '(' "\\(".toList (replaceChar '\\' "\\\\".toList href))

/-! ## Wrapping -/

/-- The text between its leading and its trailing whitespace, wrapped. -/
def wrapPreservingWhitespace (value : Text) (wrap : Text → Text) : Text :=
  if value.all isWhitespace then value
  else value.takeWhile isWhitespace ++ wrap (trim value) ++ value.rtakeWhile isWhitespace

/-- A value between two markers. -/
def between (opening closing value : Text) : Text := opening ++ value ++ closing

/-- An annotation that is set wraps the text. -/
def annotate (annotated : Bool) (text : Text) (wrap : Text → Text) : Text :=
  if annotated then wrapPreservingWhitespace text wrap else text

def applyAnnotations (text : Text) (annotations : RichTextAnnotationsDto) : Text :=
  let text := annotate annotations.code text fun value =>
    between ['`'] ['`'] (replaceChar '`' ['\\', '`'] value)
  let text := annotate annotations.bold text (between "**".toList "**".toList)
  let text := annotate annotations.italic text (between "_".toList "_".toList)
  let text := annotate annotations.strikethrough text (between "~~".toList "~~".toList)
  annotate annotations.underline text (between "<u>".toList "</u>".toList)

def markdownLinkPreservingWhitespace (label href : Text) : Text :=
  wrapPreservingWhitespace label fun value =>
    "[".toList ++ escapeMarkdownLinkLabel value ++ "](".toList ++
      escapeMarkdownLinkHref href ++ ")".toList

/-! ## Parts -/

def richTextPartPlainText (part : RichTextDto) : Text :=
  if part.plainText ≠ [] then part.plainText
  else if part.kind = "text".toList ∨ part.kind = [] then
    (part.text.map (·.content)).getD []
  else if part.kind = "equation".toList then (part.equation.map (·.expression)).getD []
  else []

/-- The link of a part, where it is not empty. -/
def richTextHref (part : RichTextDto) : Option Text :=
  (part.href.or ((part.text.bind (·.link)).map (·.url))).filter fun href => !href.isEmpty

def textRichTextToMarkdown (part : RichTextDto) : Text :=
  escapeMarkdownTextWithOptions (richTextPartPlainText part) (!part.annotations.code)

/-- The expression that an equation is rendered from. -/
def equationExpression (part : RichTextDto) : Text :=
  ((part.equation.map (·.expression)).filter fun expression =>
    !expression.isEmpty).getD part.plainText

def equationToMarkdown (part : RichTextDto) : Text :=
  let expression := equationExpression part
  if expression.isEmpty then [] else between ['$'] ['$'] (replaceChar '$' "\\$".toList expression)

def isAsciiHexdigit (c : Char) : Bool :=
  isAsciiDigit c || ('a' ≤ c && c ≤ 'f') || ('A' ≤ c && c ≤ 'F')

def notionUrlId (id : Text) : Text :=
  let hex := id.filter isAsciiHexdigit
  if hex.length = 32 then hex else id

def notionObjectUrl (id : Text) : Text := "https://www.notion.so/".toList ++ notionUrlId id

def mentionLabel (part : RichTextDto) : Text :=
  let label := richTextPartPlainText part
  if label.isEmpty then "mention".toList else escapeMarkdownText label

def dateMentionLabel (date : DateMentionDto) : Text :=
  match date.stop with
  | some stop =>
      if stop.isEmpty then date.start else date.start ++ " to ".toList ++ stop
  | none => date.start

def textOrFallback (part : RichTextDto) (fallback : Text) : Text :=
  let text := textRichTextToMarkdown part
  if text.isEmpty then fallback else text

/-- A mention that is a link, or the text of the part where it has no target. -/
def linkedMention (part : RichTextDto) (target : Option Text) : Text × Bool :=
  match target with
  | some href => (markdownLinkPreservingWhitespace (mentionLabel part) href, true)
  | none => (textRichTextToMarkdown part, false)

/-- The text of a mention, and whether its link is in it. -/
def mentionToMarkdown (part : RichTextDto) : Text × Bool :=
  match part.mention with
  | none => (textRichTextToMarkdown part, false)
  | some mention =>
      if mention.kind = "page".toList then
        linkedMention part (mention.page.map fun page => notionObjectUrl page.id)
      else if mention.kind = "database".toList then
        linkedMention part (mention.database.map fun database => notionObjectUrl database.id)
      else if mention.kind = "user".toList then
        (textOrFallback part (((mention.user.bind (·.name)).map fun name =>
          escapeMarkdownText ('@' :: name)).getD []), false)
      else if mention.kind = "date".toList then
        (textOrFallback part ((mention.date.map fun date =>
          escapeMarkdownText (dateMentionLabel date)).getD []), false)
      else if mention.kind = "link_preview".toList then
        linkedMention part ((mention.linkPreview.map (·.url)).filter fun url => !url.isEmpty)
      else (textRichTextToMarkdown part, false)

/-- The text of a part before its annotations, and whether its link is in it. -/
def richTextPartBase (part : RichTextDto) : Text × Bool :=
  if part.kind = "equation".toList then (equationToMarkdown part, false)
  else if part.kind = "mention".toList then mentionToMarkdown part
  else (textRichTextToMarkdown part, false)

def richTextPartToMarkdown (part : RichTextDto) : Text :=
  let (base, linkApplied) := richTextPartBase part
  let text := applyAnnotations base part.annotations
  match if linkApplied then none else richTextHref part with
  | some href => markdownLinkPreservingWhitespace text href
  | none => text

def richTextToMarkdown (richText : List RichTextDto) : Text :=
  richText.flatMap richTextPartToMarkdown

end Locality.Notion
