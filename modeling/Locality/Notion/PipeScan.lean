/-
  Notion/PipeScan.lean --- which inline Markdown has a pipe that is escaped already.

  A text is read from the left with one bit, whether the next character is escaped.  What
  the escapes of a text write leaves every pipe unescaped and the bit unset; only the
  expression of an equation is written as it is, and shows where the equation is not linked.
-/
import Locality.Notion.RichText

set_option autoImplicit false

namespace Locality.Notion

open Locality.Core

/-! ## Reading with one bit -/

/-- Whether the character after the text is escaped; none where a pipe of the text is. -/
def scanPipes : Bool → Text → Option Bool
  | escaped, [] => some escaped
  | escaped, c :: rest =>
      if c = '|' ∧ escaped = true then none else scanPipes (c == '\\' && !escaped) rest

theorem scanPipes_append (s t : Text) : ∀ escaped : Bool,
    scanPipes escaped (s ++ t) = (scanPipes escaped s).bind fun escaped' => scanPipes escaped' t := by
  induction s with
  | nil => exact fun escaped => rfl
  | cons c s ih =>
      intro escaped
      rw [List.cons_append, scanPipes, scanPipes]
      split
      · rfl
      · exact ih _

/-- Characters that neither escape nor are pipes. -/
def Inert (t : Text) : Prop := ∀ c ∈ t, c ≠ '|' ∧ c ≠ '\\'

instance (t : Text) : Decidable (Inert t) := List.decidableBAll _ t

theorem scanPipes_cons_of_ne {c : Char} (hpipe : c ≠ '|') (hescape : c ≠ '\\') (escaped : Bool)
    (rest : Text) : scanPipes escaped (c :: rest) = scanPipes false rest := by
  rw [scanPipes, if_neg fun h => hpipe h.1, beq_eq_false_iff_ne.mpr hescape, Bool.false_and]

theorem scanPipes_inert {t : Text} (h : Inert t) (hsome : t ≠ []) :
    ∀ escaped : Bool, scanPipes escaped t = some false := by
  induction t with
  | nil => contradiction
  | cons c t ih =>
      intro escaped
      obtain ⟨hc, ht⟩ := List.forall_mem_cons.mp h
      rw [scanPipes_cons_of_ne hc.1 hc.2]
      cases t with
      | nil => rfl
      | cons d t => exact ih ht (List.cons_ne_nil d t) false

theorem scanPipes_false_inert {t : Text} (h : Inert t) : scanPipes false t = some false := by
  by_cases hnil : t = []
  · rw [hnil]
    rfl
  · exact scanPipes_inert h hnil false

/-- An inert text in front is read over. -/
theorem scanPipes_inert_append {s : Text} (h : Inert s) (t : Text) :
    scanPipes false (s ++ t) = scanPipes false t := by
  rw [scanPipes_append, scanPipes_false_inert h, Option.bind_some]

/-- An inert text behind unsets the bit. -/
theorem scanPipes_append_inert (t : Text) {s : Text} (h : Inert s) (hsome : s ≠ [])
    (escaped : Bool) :
    scanPipes escaped (t ++ s) = (scanPipes escaped t).map fun _ => false := by
  rw [scanPipes_append]
  cases scanPipes escaped t with
  | none => rfl
  | some escaped' => exact scanPipes_inert h hsome escaped'

/-- The text does not end in the middle of an escape. -/
def Closed (t : Text) : Prop := scanPipes false t ≠ some true

theorem Closed.map {t : Text} (h : Closed t) :
    (scanPipes false t).map (fun _ => false) = scanPipes false t := by
  rw [Closed] at h
  cases hscan : scanPipes false t with
  | none => rfl
  | some escaped =>
      cases escaped with
      | false => rfl
      | true => exact absurd hscan h

theorem closed_of_eq {t : Text} (h : scanPipes false t = some false) : Closed t := by
  rw [Closed, h]
  decide

/-! ## Escapes -/

/-- A character that is written with a backslash is read as without one. -/
theorem scanPipes_replaceChar {c : Char} (hpipe : c ≠ '|') (hescape : c ≠ '\\') (t : Text) :
    ∀ escaped : Bool,
      scanPipes escaped (replaceChar c ['\\', c] t) = scanPipes escaped t := by
  induction t with
  | nil => exact fun escaped => rfl
  | cons d t ih =>
      intro escaped
      by_cases hd : d = c
      · subst hd
        have hreplace : replaceChar d ['\\', d] (d :: t) =
            '\\' :: d :: replaceChar d ['\\', d] t := by
          simp [replaceChar]
        rw [hreplace, scanPipes, if_neg (by simp), scanPipes_cons_of_ne hpipe hescape,
          scanPipes_cons_of_ne hpipe hescape, ih]
      · have hreplace : replaceChar c ['\\', c] (d :: t) = d :: replaceChar c ['\\', c] t := by
          simp [replaceChar, hd]
        rw [hreplace, scanPipes, scanPipes, ih]

/-- Where every backslash is doubled, nothing is escaped. -/
theorem scanPipes_doubled (t : Text) :
    scanPipes false (replaceChar '\\' "\\\\".toList t) = some false := by
  induction t with
  | nil => rfl
  | cons c t ih =>
      by_cases hc : c = '\\'
      · subst hc
        have hreplace : replaceChar '\\' "\\\\".toList ('\\' :: t) =
            '\\' :: '\\' :: replaceChar '\\' "\\\\".toList t := by
          simp [replaceChar]
        rw [hreplace]
        simpa [scanPipes] using ih
      · have hreplace : replaceChar '\\' "\\\\".toList (c :: t) =
            c :: replaceChar '\\' "\\\\".toList t := by
          simp [replaceChar, hc]
        rw [hreplace, scanPipes, if_neg (by simp), beq_eq_false_iff_ne.mpr hc]
        exact ih

theorem scanPipes_escapeMarkdownLinkHref (href : Text) :
    scanPipes false (escapeMarkdownLinkHref href) = some false := by
  have hclose := scanPipes_replaceChar (c := ')') (by decide) (by decide)
  have hopen := scanPipes_replaceChar (c := '(') (by decide) (by decide)
  exact (hclose _ false).trans ((hopen _ false).trans (scanPipes_doubled href))

theorem inert_literalInlineMarkerPrefix {value marker : Text}
    (h : literalInlineMarkerPrefix value = some marker) : Inert marker ∧ marker ≠ [] := by
  have hmarkers : ∀ marker ∈ breakTags ++ ["</u>".toList, "<u>".toList] ++
      literalInlineMarkers, Inert marker ∧ marker ≠ [] := by decide
  refine hmarkers marker ?_
  rw [literalInlineMarkerPrefix, literalInlineTagPrefix, breakTagPrefix] at h
  rw [List.mem_append, List.mem_append]
  rcases Option.or_eq_some_iff.mp h with htag | ⟨-, hmarker⟩
  · rcases Option.or_eq_some_iff.mp htag with hbreak | ⟨-, hunderline⟩
    · exact Or.inl (Or.inl (List.mem_of_find?_eq_some hbreak))
    · exact Or.inl (Or.inr (List.mem_of_find?_eq_some hunderline))
  · exact Or.inr (List.mem_of_find?_eq_some hmarker)

theorem scanPipes_escapeMarkdownChar (escapeInlineMarkers : Bool) (c : Char) (rest : Text) :
    scanPipes false (escapeMarkdownChar escapeInlineMarkers c ++ rest) =
      scanPipes false rest := by
  rw [scanPipes_append]
  have hchar : scanPipes false (escapeMarkdownChar escapeInlineMarkers c) = some false := by
    rw [escapeMarkdownChar]
    split
    · rfl
    · rename_i hescape
      split
      · rfl
      · split
        · rfl
        · simp [scanPipes, hescape]
  rw [hchar, Option.bind_some]

theorem scanPipes_escapeMarkdownFrom (escapeInlineMarkers : Bool) (fuel : Nat) : ∀ text : Text,
    scanPipes false (escapeMarkdownFrom escapeInlineMarkers fuel text) = some false := by
  induction fuel with
  | zero => exact fun text => rfl
  | succ fuel ih =>
      intro text
      cases text with
      | nil => rfl
      | cons c rest =>
          rw [escapeMarkdownFrom]
          split
          · rename_i marker hmarker
            have hsome : literalInlineMarkerPrefix (c :: rest) = some marker := by
              split at hmarker
              · exact hmarker
              · exact nomatch hmarker
            obtain ⟨hinert, hne⟩ := inert_literalInlineMarkerPrefix hsome
            rw [List.cons_append, scanPipes, if_neg (by decide), scanPipes_append,
              scanPipes_inert hinert hne, Option.bind_some]
            exact ih _
          · rw [scanPipes_escapeMarkdownChar]
            exact ih rest

theorem scanPipes_escapeMarkdownText (text : Text) :
    scanPipes false (escapeMarkdownText text) = some false :=
  scanPipes_escapeMarkdownFrom true text.length text

/-! ## Wrapping -/

theorem inert_of_isWhitespace {t : Text} (h : ∀ c ∈ t, isWhitespace c = true) : Inert t := by
  intro c hc
  have hwhite := h c hc
  refine ⟨?_, ?_⟩
  · rintro rfl
    exact nomatch hwhite
  · rintro rfl
    exact nomatch hwhite

/-- A text that is not blank is its leading whitespace, what is between, and its trailing
whitespace. -/
theorem trim_split {value : Text} (h : value.all isWhitespace = false) :
    value.takeWhile isWhitespace ++ trim value ++ value.rtakeWhile isWhitespace = value := by
  have hrest : ∃ c ∈ value.dropWhile isWhitespace, isWhitespace c = false := by
    rw [List.all_eq_false] at h
    obtain ⟨c, hmem, hc⟩ := h
    rw [Bool.not_eq_true] at hc
    refine ⟨c, ?_, hc⟩
    rw [← List.takeWhile_append_dropWhile (p := isWhitespace) (l := value)] at hmem
    rcases List.mem_append.mp hmem with htaken | hdropped
    · rw [List.mem_takeWhile_imp htaken] at hc
      exact nomatch hc
    · exact hdropped
  have htrailing : value.rtakeWhile isWhitespace =
      (value.dropWhile isWhitespace).rtakeWhile isWhitespace := by
    rw [List.rtakeWhile, List.rtakeWhile]
    congr 1
    conv_lhs => rw [← List.takeWhile_append_dropWhile (p := isWhitespace) (l := value)]
    rw [List.reverse_append, List.takeWhile_append, if_neg]
    intro hlength
    obtain ⟨c, hmem, hc⟩ := hrest
    have hall := List.takeWhile_eq_self_iff.mp
      (List.Sublist.eq_of_length (List.takeWhile_sublist _) hlength)
    rw [hall c (List.mem_reverse.mpr hmem)] at hc
    exact nomatch hc
  rw [htrailing, trim, trimEnd, trimStart, List.append_assoc, List.rdropWhile_append_rtakeWhile,
    List.takeWhile_append_dropWhile]

/-- A wrap that reads as the wrapped text, with the bit unset. -/
def Transparent (wrap : Text → Text) : Prop :=
  ∀ value, scanPipes false (wrap value) = (scanPipes false value).map fun _ => false

theorem scanPipes_wrapPreservingWhitespace {wrap : Text → Text} (hwrap : Transparent wrap)
    {value : Text} (hvalue : Closed value) :
    scanPipes false (wrapPreservingWhitespace value wrap) = scanPipes false value := by
  rw [wrapPreservingWhitespace]
  split
  · rfl
  · rename_i hblank
    rw [Bool.not_eq_true] at hblank
    have hsplit := trim_split hblank
    have hleading : Inert (value.takeWhile isWhitespace) :=
      inert_of_isWhitespace fun c hc => List.mem_takeWhile_imp hc
    have htrailing : Inert (value.rtakeWhile isWhitespace) :=
      inert_of_isWhitespace fun c hc => List.mem_rtakeWhile_imp hc
    have hmiddle : scanPipes false value =
        scanPipes false (trim value ++ value.rtakeWhile isWhitespace) := by
      conv_lhs => rw [← hsplit]
      rw [List.append_assoc, scanPipes_inert_append hleading]
    rw [List.append_assoc, scanPipes_inert_append hleading, scanPipes_append, hwrap]
    by_cases hnil : value.rtakeWhile isWhitespace = []
    · rw [hnil, List.append_nil] at hmiddle
      rw [Closed, hmiddle] at hvalue
      rw [hnil, hmiddle, Closed.map hvalue]
      cases scanPipes false (trim value) <;> rfl
    · rw [hmiddle, scanPipes_append_inert _ htrailing hnil, Option.map_eq_bind,
        Option.bind_assoc]
      congr 1
      funext escaped
      exact scanPipes_false_inert htrailing

/-- Markers that are inert wrap a text transparently. -/
theorem transparent_between (opening closing : Text) (hopening : Inert opening)
    (hclosing : Inert closing) (hsome : closing ≠ []) : Transparent (between opening closing) := by
  intro value
  rw [between, List.append_assoc, scanPipes_inert_append hopening,
    scanPipes_append_inert _ hclosing hsome]

theorem transparent_code : Transparent fun value =>
    between ['`'] ['`'] (replaceChar '`' ['\\', '`'] value) := by
  intro value
  have hbetween := transparent_between ['`'] ['`'] (by decide) (by decide) (by decide)
    (replaceChar '`' ['\\', '`'] value)
  rw [scanPipes_replaceChar (by decide) (by decide)] at hbetween
  exact hbetween

theorem scanPipes_annotate {wrap : Text → Text} (hwrap : Transparent wrap) (annotated : Bool)
    {text : Text} (htext : Closed text) :
    scanPipes false (annotate annotated text wrap) = scanPipes false text := by
  rw [annotate]
  split
  · exact scanPipes_wrapPreservingWhitespace hwrap htext
  · rfl

/-- Annotations leave the pipes of a text as they are. -/
theorem scanPipes_applyAnnotations {text : Text} (htext : Closed text)
    (annotations : RichTextAnnotationsDto) :
    scanPipes false (applyAnnotations text annotations) = scanPipes false text := by
  have hclosed : ∀ {t t' : Text}, scanPipes false t' = scanPipes false t → Closed t →
      Closed t' := by
    intro t t' hscan ht
    rw [Closed, hscan]
    exact ht
  have hcode := scanPipes_annotate transparent_code annotations.code htext
  have hbold := scanPipes_annotate
    (transparent_between "**".toList "**".toList (by decide) (by decide) (by decide))
    annotations.bold (hclosed hcode htext)
  have hitalic := scanPipes_annotate
    (transparent_between "_".toList "_".toList (by decide) (by decide) (by decide))
    annotations.italic (hclosed (hbold.trans hcode) htext)
  have hstrike := scanPipes_annotate
    (transparent_between "~~".toList "~~".toList (by decide) (by decide) (by decide))
    annotations.strikethrough (hclosed (hitalic.trans (hbold.trans hcode)) htext)
  have hunderline := scanPipes_annotate
    (transparent_between "<u>".toList "</u>".toList (by decide) (by decide) (by decide))
    annotations.underline
    (hclosed (hstrike.trans (hitalic.trans (hbold.trans hcode))) htext)
  exact hunderline.trans (hstrike.trans (hitalic.trans (hbold.trans hcode)))

/-- A link escapes its label, whatever it is. -/
theorem scanPipes_markdownLink (label href : Text) :
    scanPipes false (markdownLinkPreservingWhitespace label href) = some false := by
  rw [markdownLinkPreservingWhitespace, wrapPreservingWhitespace]
  split
  · rename_i hblank
    exact scanPipes_false_inert (inert_of_isWhitespace (List.all_eq_true.mp hblank))
  · have hlabel : scanPipes false (escapeMarkdownLinkLabel (trim label)) = some false :=
      (scanPipes_replaceChar (by decide) (by decide) _ false).trans
        (scanPipes_escapeMarkdownText _)
    have hleading : Inert (label.takeWhile isWhitespace) :=
      inert_of_isWhitespace fun c hc => List.mem_takeWhile_imp hc
    have htrailing : Inert (label.rtakeWhile isWhitespace) :=
      inert_of_isWhitespace fun c hc => List.mem_rtakeWhile_imp hc
    simp only [scanPipes_append, scanPipes_false_inert hleading, scanPipes_false_inert htrailing,
      hlabel, scanPipes_escapeMarkdownLinkHref, Option.bind_some,
      scanPipes_false_inert (t := "[".toList) (by decide),
      scanPipes_false_inert (t := "](".toList) (by decide),
      scanPipes_false_inert (t := ")".toList) (by decide)]

/-! ## Parts -/

/-- The part shows an expression as it is written: it is an equation and not linked. -/
def ShowsExpression (part : RichTextDto) : Prop :=
  part.kind = "equation".toList ∧ richTextHref part = none

instance (part : RichTextDto) : Decidable (ShowsExpression part) :=
  inferInstanceAs (Decidable (_ ∧ _))

theorem scanPipes_textRichTextToMarkdown (part : RichTextDto) :
    scanPipes false (textRichTextToMarkdown part) = some false :=
  scanPipes_escapeMarkdownFrom _ _ _

theorem scanPipes_equationToMarkdown (part : RichTextDto) :
    scanPipes false (equationToMarkdown part) =
      (scanPipes false (equationExpression part)).map fun _ => false := by
  rw [equationToMarkdown]
  split
  · rename_i hempty
    rw [List.isEmpty_iff.mp hempty]
    rfl
  · have hbetween := transparent_between ['$'] ['$'] (by decide) (by decide) (by decide)
      (replaceChar '$' "\\$".toList (equationExpression part))
    have hreplace := scanPipes_replaceChar (c := '$') (by decide) (by decide)
      (equationExpression part) false
    exact hbetween.trans (congrArg (Option.map fun _ => false) hreplace)

theorem scanPipes_linkedMention (part : RichTextDto) (target : Option Text) :
    scanPipes false (linkedMention part target).1 = some false := by
  cases target with
  | none => exact scanPipes_textRichTextToMarkdown part
  | some href => exact scanPipes_markdownLink _ href

theorem scanPipes_textOrFallback (part : RichTextDto) {fallback : Text}
    (hfallback : scanPipes false fallback = some false) :
    scanPipes false (textOrFallback part fallback) = some false := by
  rw [textOrFallback]
  split
  · exact hfallback
  · exact scanPipes_textRichTextToMarkdown part

theorem scanPipes_getD_map {α : Type} (value : Option α) (label : α → Text) :
    scanPipes false ((value.map fun a => escapeMarkdownText (label a)).getD []) =
      some false := by
  cases value with
  | none => rfl
  | some a => exact scanPipes_escapeMarkdownText (label a)

theorem scanPipes_mentionToMarkdown (part : RichTextDto) :
    scanPipes false (mentionToMarkdown part).1 = some false := by
  rw [mentionToMarkdown]
  split
  · exact scanPipes_textRichTextToMarkdown part
  · split
    · exact scanPipes_linkedMention part _
    · split
      · exact scanPipes_linkedMention part _
      · split
        · exact scanPipes_textOrFallback part (scanPipes_getD_map _ _)
        · split
          · exact scanPipes_textOrFallback part (scanPipes_getD_map _ _)
          · split
            · exact scanPipes_linkedMention part _
            · exact scanPipes_textRichTextToMarkdown part

/-- A part is read as the expression it shows, or has every pipe unescaped. -/
theorem scanPipes_richTextPartToMarkdown (part : RichTextDto) :
    scanPipes false (richTextPartToMarkdown part) =
      if ShowsExpression part then
        (scanPipes false (equationExpression part)).map fun _ => false
      else some false := by
  rw [richTextPartToMarkdown, richTextPartBase]
  by_cases hequation : part.kind = "equation".toList
  · rw [if_pos hequation]
    cases hhref : richTextHref part with
    | some href =>
        have hlinked : ¬ ShowsExpression part := by simp [ShowsExpression, hhref]
        rw [if_neg hlinked]
        exact scanPipes_markdownLink _ href
    | none =>
        have hshows : ShowsExpression part := ⟨hequation, hhref⟩
        have hclosed : Closed (equationToMarkdown part) := by
          rw [Closed, scanPipes_equationToMarkdown]
          cases scanPipes false (equationExpression part) <;> simp
        rw [if_pos hshows]
        simp only [Bool.false_eq_true, if_false]
        rw [scanPipes_applyAnnotations hclosed, scanPipes_equationToMarkdown]
  · have hhidden : ¬ ShowsExpression part := fun h => hequation h.1
    rw [if_neg hequation, if_neg hhidden]
    have hbase : scanPipes false (if part.kind = "mention".toList then mentionToMarkdown part
        else (textRichTextToMarkdown part, false)).1 = some false := by
      split
      · exact scanPipes_mentionToMarkdown part
      · exact scanPipes_textRichTextToMarkdown part
    dsimp only
    split
    · exact scanPipes_markdownLink _ _
    · rw [scanPipes_applyAnnotations (closed_of_eq hbase), hbase]

/-- No equation that is shown as it is written has a pipe that is escaped. -/
def ShowsNoEscapedPipe (part : RichTextDto) : Prop :=
  ShowsExpression part → scanPipes false (equationExpression part) ≠ none

instance (part : RichTextDto) : Decidable (ShowsNoEscapedPipe part) :=
  inferInstanceAs (Decidable (_ → _))

theorem scanPipes_richTextToMarkdown (richText : List RichTextDto) :
    scanPipes false (richTextToMarkdown richText) ≠ none ↔
      ∀ part ∈ richText, ShowsNoEscapedPipe part := by
  induction richText with
  | nil => simp [richTextToMarkdown, scanPipes]
  | cons part richText ih =>
      rw [richTextToMarkdown] at ih
      rw [richTextToMarkdown, List.flatMap_cons, scanPipes_append,
        scanPipes_richTextPartToMarkdown, List.forall_mem_cons, ← ih]
      by_cases hshows : ShowsExpression part
      · rw [if_pos hshows]
        cases hscan : scanPipes false (equationExpression part) <;>
          simp [ShowsNoEscapedPipe, hshows, hscan]
      · rw [if_neg hshows]
        simp [ShowsNoEscapedPipe, hshows]

end Locality.Notion
