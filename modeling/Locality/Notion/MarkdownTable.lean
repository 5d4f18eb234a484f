/-
  Notion/MarkdownTable.lean --- rows of Markdown tables, as they are written by
  `locality-notion/src/render.rs` and read by `markdown_table.rs`.

  The loop that unescapes a cell takes off at least one character in each round, so the
  length of the cell bounds the rounds.
-/
import Locality.Notion.RichText
import Locality.Core.Model

set_option autoImplicit false

namespace Locality.Notion

open Locality.Core

/-! ## Writing -/

def escapeTableCell (value : Text) : Text :=
  replaceChar '\n' "<br>".toList (replaceChar '|' "\\|".toList value)

def markdownTableRow (cells : List (List RichTextDto)) : Text :=
  "| ".toList ++
    join " | ".toList (cells.map fun cell => escapeTableCell (richTextToMarkdown cell)) ++
      " |".toList

/-! ## Reading -/

def malformedTable : LocalityError := .unsupported "writing malformed Notion tables".toList

def escapedBreakTagPrefix (value : Text) : Option Text :=
  breakTags.find? fun tag => startsWith value ('\\' :: tag)

/-- The loop of `unescape_markdown_table_cell`. -/
def unescapeCellFrom : Nat → Text → Text
  | 0, _ => []
  | _ + 1, [] => []
  | fuel + 1, c :: rest =>
      match escapedBreakTagPrefix (c :: rest) with
      | some tag => '\\' :: tag ++ unescapeCellFrom fuel ((c :: rest).drop (tag.length + 1))
      | none =>
          match breakTagPrefix (c :: rest) with
          | some tag => '\n' :: unescapeCellFrom fuel ((c :: rest).drop tag.length)
          | none =>
              if startsWith (c :: rest) "\\|".toList then
                '|' :: unescapeCellFrom fuel ((c :: rest).drop 2)
              else c :: unescapeCellFrom fuel rest

def unescapeMarkdownTableCell (cell : Text) : Text := unescapeCellFrom cell.length cell

/-- The loop of `parse_markdown_table_row`: the cells of the rest of the row, of which the
first goes on from what was read of it. -/
def readCells : Text → Bool → Text → List Text
  | current, _, [] => [unescapeMarkdownTableCell (trim current)]
  | current, escaped, c :: rest =>
      if c = '|' ∧ escaped = false then
        unescapeMarkdownTableCell (trim current) :: readCells [] false rest
      else readCells (current ++ [c]) (c == '\\' && !escaped) rest

def parseMarkdownTableRow (line : Text) : LocalityResult (List Text) :=
  let trimmed := trim line
  if !startsWith trimmed ['|'] || !endsWith trimmed ['|'] || trimmed.length < 2 then
    throw malformedTable
  else pure (readCells [] false (trimmed.drop 1).dropLast)

end Locality.Notion
