/-
  Notion/TableRoundTrip.lean --- when the row that was written for cells is read back.

  A row is cut at the pipes that are not escaped.  A cell escapes each of its pipes with one
  backslash, which leaves it unescaped where the cell had escaped it already; so cells are
  read back one by one exactly if no equation of theirs shows an escaped pipe.  What is read
  of a cell differs from it by whitespace around it and by how line breaks are written.
-/
import Locality.Notion.PipeScan
import Locality.Notion.MarkdownTable
import Mathlib.Data.List.Forall2

set_option autoImplicit false

namespace Locality.Notion

open Locality.Core

/-! ## Line breaks -/

/-- The ways in which a line break is written. -/
def lineBreaks : List Text := ['\n'] :: breakTags

/-- The texts are the same but for how their line breaks are written. -/
inductive BreakAlike : Text → Text → Prop where
  | nil : BreakAlike [] []
  | char (c : Char) {s t : Text} (h : BreakAlike s t) : BreakAlike (c :: s) (c :: t)
  | lineBreak {b b' s t : Text} (hb : b ∈ lineBreaks) (hb' : b' ∈ lineBreaks)
      (h : BreakAlike s t) : BreakAlike (b ++ s) (b' ++ t)

/-- What was read is the Markdown of the cell, up to whitespace around it. -/
def SameCell (result markdown : Text) : Prop :=
  ∃ before middle after, markdown = before ++ middle ++ after ∧
    before.all isWhitespace = true ∧ after.all isWhitespace = true ∧ BreakAlike result middle

/-- The row written for the cells is read back, one text for each of them. -/
def RoundTrips (cells : List (List RichTextDto)) : Prop :=
  ∃ results, parseMarkdownTableRow (markdownTableRow cells) = .ok results ∧
    List.Forall₂ SameCell results (cells.map richTextToMarkdown)

/-! ## Escaped cells -/

/-- What a character of a cell is written as. -/
def escapeCellChar (c : Char) : Text :=
  if c = '|' then "\\|".toList else if c = '\n' then "<br>".toList else [c]

theorem escapeTableCell_cons (c : Char) (t : Text) :
    escapeTableCell (c :: t) = escapeCellChar c ++ escapeTableCell t := by
  rw [escapeTableCell, replaceChar, replaceChar, List.flatMap_cons, List.flatMap_append]
  congr 1
  rw [escapeCellChar]
  by_cases hpipe : c = '|'
  · subst hpipe
    rfl
  · by_cases hbreak : c = '\n'
    · subst hbreak
      rfl
    · simp [hpipe, hbreak]

theorem escapeTableCell_append (s t : Text) :
    escapeTableCell (s ++ t) = escapeTableCell s ++ escapeTableCell t := by
  induction s with
  | nil => rfl
  | cons c s ih =>
      rw [List.cons_append, escapeTableCell_cons, escapeTableCell_cons, ih, List.append_assoc]

theorem escapeCellChar_of_isWhitespace {c : Char} (hwhite : isWhitespace c = true)
    (hbreak : c ≠ '\n') : escapeCellChar c = [c] := by
  rw [escapeCellChar, if_neg, if_neg hbreak]
  rintro rfl
  exact nomatch hwhite

/-- A character that is written otherwise than as whitespace begins and ends so. -/
theorem escapeCellChar_bounds {c : Char} (h : isWhitespace c = false ∨ c = '\n') :
    ∃ first last inside inside', escapeCellChar c = first :: inside ∧
      escapeCellChar c = inside' ++ [last] ∧ isWhitespace first = false ∧
        isWhitespace last = false := by
  rw [escapeCellChar]
  split
  · exact ⟨'\\', '|', ['|'], ['\\'], rfl, rfl, rfl, rfl⟩
  · split
    · exact ⟨'<', '>', "br>".toList, "<br".toList, rfl, rfl, rfl, rfl⟩
    · rename_i hbreak
      exact ⟨c, c, [], [], rfl, rfl, h.resolve_right hbreak, h.resolve_right hbreak⟩

theorem trimStart_escapeTableCell (t : Text) : ∃ before middle, t = before ++ middle ∧
    before.all isWhitespace = true ∧
      trimStart (escapeTableCell t) = escapeTableCell middle := by
  induction t with
  | nil => exact ⟨[], [], rfl, rfl, rfl⟩
  | cons c t ih =>
      by_cases hwhite : isWhitespace c = true ∧ c ≠ '\n'
      · obtain ⟨before, middle, rfl, hbefore, htrim⟩ := ih
        refine ⟨c :: before, middle, rfl, ?_, ?_⟩
        · rw [List.all_cons, hwhite.1, hbefore]
          rfl
        · rw [escapeTableCell_cons, escapeCellChar_of_isWhitespace hwhite.1 hwhite.2,
            ← htrim, trimStart, trimStart, List.singleton_append,
            List.dropWhile_cons_of_pos hwhite.1]
      · have hother : isWhitespace c = false ∨ c = '\n' := by
          rw [Bool.eq_false_iff]
          tauto
        obtain ⟨first, -, inside, -, hfirst, -, hnot, -⟩ := escapeCellChar_bounds hother
        refine ⟨[], c :: t, rfl, rfl, ?_⟩
        rw [escapeTableCell_cons, hfirst, List.cons_append, trimStart,
          List.dropWhile_cons_of_neg (by simp [hnot])]

theorem trimEnd_escapeTableCell (t : Text) : ∃ middle after, t = middle ++ after ∧
    after.all isWhitespace = true ∧ trimEnd (escapeTableCell t) = escapeTableCell middle := by
  induction t using List.reverseRecOn with
  | nil => exact ⟨[], [], rfl, rfl, rfl⟩
  | append_singleton t c ih =>
      have hlast : escapeTableCell [c] = escapeCellChar c :=
        (escapeTableCell_cons c []).trans (List.append_nil _)
      by_cases hwhite : isWhitespace c = true ∧ c ≠ '\n'
      · obtain ⟨middle, after, rfl, hafter, htrim⟩ := ih
        refine ⟨middle, after ++ [c], List.append_assoc _ _ _, ?_, ?_⟩
        · simp [hafter, hwhite.1]
        · rw [escapeTableCell_append, hlast,
            escapeCellChar_of_isWhitespace hwhite.1 hwhite.2, trimEnd,
            List.rdropWhile_concat_pos _ _ _ hwhite.1]
          exact htrim
      · have hother : isWhitespace c = false ∨ c = '\n' := by
          rw [Bool.eq_false_iff]
          tauto
        obtain ⟨-, last, -, inside, -, hend, -, hnot⟩ := escapeCellChar_bounds hother
        refine ⟨t ++ [c], [], (List.append_nil _).symm, rfl, ?_⟩
        rw [escapeTableCell_append, hlast, hend, ← List.append_assoc, trimEnd,
          List.rdropWhile_concat_neg _ _ _ (by simp [hnot])]

theorem trim_escapeTableCell (t : Text) : ∃ before middle after,
    t = before ++ middle ++ after ∧ before.all isWhitespace = true ∧
      after.all isWhitespace = true ∧
        trim (escapeTableCell t) = escapeTableCell middle := by
  obtain ⟨before, rest, rfl, hbefore, hstart⟩ := trimStart_escapeTableCell t
  obtain ⟨middle, after, rfl, hafter, hend⟩ := trimEnd_escapeTableCell rest
  refine ⟨before, middle, after, (List.append_assoc _ _ _).symm, hbefore, hafter, ?_⟩
  rw [trim, hstart, hend]

/-! ## Unescaped cells -/

/-- An escaped cell starts with plain characters only where the cell does. -/
theorem eq_append_of_prefix {w t rest : Text} (hw : ∀ c ∈ w, c ≠ '\\' ∧ c ≠ '<')
    (h : escapeTableCell t = w ++ rest) :
    ∃ t', t = w ++ t' ∧ rest = escapeTableCell t' := by
  induction w generalizing t with
  | nil => exact ⟨t, rfl, h.symm⟩
  | cons c w ih =>
      obtain ⟨hc, hinside⟩ := List.forall_mem_cons.mp hw
      cases t with
      | nil => exact nomatch h
      | cons d t =>
          rw [escapeTableCell_cons, escapeCellChar] at h
          split at h
          · exact absurd (List.cons.inj h).1.symm hc.1
          · split at h
            · exact absurd (List.cons.inj h).1.symm hc.2
            · rw [List.singleton_append, List.cons_append, List.cons.injEq] at h
              obtain ⟨t', rfl, hrest⟩ := ih hinside h.2
              exact ⟨t', congrArg (· :: (w ++ t')) h.1, hrest⟩

/-- A break tag at the start of an escaped cell is a line break of the cell. -/
theorem lineBreak_of_breakTag {t tag rest : Text} (htag : tag ∈ breakTags)
    (h : escapeTableCell t = tag ++ rest) :
    ∃ b t', b ∈ lineBreaks ∧ t = b ++ t' ∧ rest = escapeTableCell t' := by
  obtain ⟨w, rfl, hw⟩ : ∃ w, tag = '<' :: w ∧ ∀ c ∈ w, c ≠ '\\' ∧ c ≠ '<' := by
    have htags : ∀ tag ∈ breakTags, tag = '<' :: tag.tail ∧
        tag.tail.all (fun c => c ≠ '\\' ∧ c ≠ '<') = true := by decide
    obtain ⟨hcons, hall⟩ := htags tag htag
    exact ⟨tag.tail, hcons, fun c hc => of_decide_eq_true (List.all_eq_true.mp hall c hc)⟩
  cases t with
  | nil => exact nomatch h
  | cons c t =>
      rw [escapeTableCell_cons, escapeCellChar] at h
      split at h
      · exact absurd (List.cons.inj h).1 (by decide)
      · split at h
        · rename_i hbreak
          -- the tag is the one that the line break is written as
          subst hbreak
          have hw : w = "br>".toList := by
            have htags : ∀ tag ∈ breakTags, tag = "<br>".toList ∨
                tag[3]? = some ' ' ∨ tag[3]? = some '/' := by decide
            rcases htags _ htag with heq | hspace | hslash
            · exact (List.cons.inj heq).2
            · have hthird := congrArg (fun text : Text => text[3]?) h
              rw [List.getElem?_append_left (by decide), List.getElem?_append_left
                (List.getElem?_eq_some_iff.mp hspace).1, hspace] at hthird
              exact absurd hthird (by decide)
            · have hthird := congrArg (fun text : Text => text[3]?) h
              rw [List.getElem?_append_left (by decide), List.getElem?_append_left
                (List.getElem?_eq_some_iff.mp hslash).1, hslash] at hthird
              exact absurd hthird (by decide)
          subst hw
          refine ⟨['\n'], t, List.mem_cons_self, rfl, ?_⟩
          exact (List.append_cancel_left h).symm
        · rw [List.singleton_append, List.cons_append, List.cons.injEq] at h
          obtain ⟨t', rfl, hrest⟩ := eq_append_of_prefix hw h.2
          exact ⟨'<' :: w, t', List.mem_cons_of_mem _ htag,
            congrArg (· :: (w ++ t')) h.1, hrest⟩

theorem exists_append_of_startsWith {t w : Text} (h : startsWith t w = true) :
    ∃ rest, t = w ++ rest :=
  (List.isPrefixOf_iff_prefix.mp h).imp fun _ => Eq.symm

theorem startsWith_pipe_escapeTableCell (t : Text) :
    startsWith (escapeTableCell t) ['|'] = false := by
  cases t with
  | nil => rfl
  | cons c t =>
      rw [escapeTableCell_cons, escapeCellChar]
      split
      · rfl
      · rename_i hpipe
        split
        · rfl
        · rw [startsWith, List.singleton_append, List.isPrefixOf_cons_cons,
            beq_eq_false_iff_ne.mpr (Ne.symm hpipe), Bool.false_and]

theorem length_escapeCellChar_pos (c : Char) : 0 < (escapeCellChar c).length := by
  rw [escapeCellChar]
  split
  · decide
  · split <;> simp

theorem escapedBreakTagPrefix_eq_some {value tag : Text}
    (h : escapedBreakTagPrefix value = some tag) :
    tag ∈ breakTags ∧ ∃ rest, value = '\\' :: (tag ++ rest) := by
  have htag : startsWith value ('\\' :: tag) = true :=
    List.find?_some (p := fun tag => startsWith value ('\\' :: tag)) h
  exact ⟨List.mem_of_find?_eq_some h, exists_append_of_startsWith htag⟩

theorem breakTagPrefix_eq_some {value tag : Text} (h : breakTagPrefix value = some tag) :
    tag ∈ breakTags ∧ ∃ rest, value = tag ++ rest :=
  ⟨List.mem_of_find?_eq_some h, exists_append_of_startsWith (List.find?_some h)⟩

theorem breakTagPrefix_of_ne {c : Char} (hc : c ≠ '<') (rest : Text) :
    breakTagPrefix (c :: rest) = none := by
  refine List.find?_eq_none.mpr fun tag hmem htag => ?_
  obtain ⟨after, hvalue⟩ := exists_append_of_startsWith htag
  have htags : ∀ tag ∈ breakTags, tag.head? = some '<' := by decide
  obtain ⟨w, rfl⟩ := List.head?_eq_some_iff.mp (htags tag hmem)
  exact hc (List.cons.inj hvalue).1

/-- An escaped cell is read back, but for how its line breaks are written. -/
theorem breakAlike_unescapeCellFrom (fuel : Nat) : ∀ t : Text,
    (escapeTableCell t).length ≤ fuel →
      BreakAlike (unescapeCellFrom fuel (escapeTableCell t)) t := by
  induction fuel with
  | zero =>
      intro t hfuel
      cases t with
      | nil => exact .nil
      | cons c t =>
          have hpositive := length_escapeCellChar_pos c
          rw [escapeTableCell_cons, List.length_append] at hfuel
          omega
  | succ fuel ih =>
      intro t hfuel
      cases t with
      | nil => exact .nil
      | cons c t =>
          rw [escapeTableCell_cons, List.length_append] at hfuel
          by_cases hpipe : c = '|'
          · subst hpipe
            have hescaped : escapeTableCell ('|' :: t) = '\\' :: '|' :: escapeTableCell t :=
              escapeTableCell_cons '|' t
            have hnone : escapedBreakTagPrefix ('\\' :: '|' :: escapeTableCell t) = none := by
              refine List.find?_eq_none.mpr fun tag hmem htag => ?_
              obtain ⟨after, hvalue⟩ := exists_append_of_startsWith htag
              have htags : ∀ tag ∈ breakTags, tag.head? = some '<' := by decide
              obtain ⟨w, rfl⟩ := List.head?_eq_some_iff.mp (htags tag hmem)
              exact absurd (List.cons.inj (List.cons.inj hvalue).2).1 (by decide)
            have hpipe : startsWith ('\\' :: '|' :: escapeTableCell t) "\\|".toList = true :=
              rfl
            rw [hescaped, unescapeCellFrom, hnone, breakTagPrefix_of_ne (by decide)]
            dsimp only
            rw [if_pos hpipe]
            exact .char '|' (ih t (by simp [escapeCellChar] at hfuel; omega))
          · by_cases hbreak : c = '\n'
            · subst hbreak
              have hescaped : escapeTableCell ('\n' :: t) = "<br>".toList ++ escapeTableCell t :=
                escapeTableCell_cons '\n' t
              rw [hescaped]
              exact .char '\n' (ih t (by simp [escapeCellChar] at hfuel; omega))
            · have hchar : escapeCellChar c = [c] := by simp [escapeCellChar, hpipe, hbreak]
              have hescaped : escapeTableCell (c :: t) = c :: escapeTableCell t := by
                rw [escapeTableCell_cons, hchar]
                rfl
              rw [hchar, List.length_singleton] at hfuel
              rw [hescaped, unescapeCellFrom]
              cases hescapedTag : escapedBreakTagPrefix (c :: escapeTableCell t) with
              | some tag =>
                  obtain ⟨hmem, after, hvalue⟩ := escapedBreakTagPrefix_eq_some hescapedTag
                  rw [List.cons.injEq] at hvalue
                  obtain ⟨b, t', hb, rfl, rfl⟩ := lineBreak_of_breakTag hmem hvalue.2
                  rw [hvalue.2, hvalue.1]
                  dsimp only
                  rw [List.drop_succ_cons, List.drop_left, List.cons_append]
                  refine .char '\\' (.lineBreak (List.mem_cons_of_mem _ hmem) hb (ih t' ?_))
                  rw [hvalue.2, List.length_append] at hfuel
                  omega
              | none =>
                  dsimp only
                  cases htag : breakTagPrefix (c :: escapeTableCell t) with
                  | some tag =>
                      obtain ⟨hmem, after, hvalue⟩ := breakTagPrefix_eq_some htag
                      obtain ⟨b, t', hb, heq, rfl⟩ :=
                        lineBreak_of_breakTag hmem (hescaped.trans hvalue)
                      have hpositive : 0 < tag.length := by
                        have htags : ∀ tag ∈ breakTags, 0 < tag.length := by decide
                        exact htags tag hmem
                      rw [hvalue, heq]
                      dsimp only
                      rw [List.drop_left]
                      refine .lineBreak (List.mem_cons_self (a := ['\n'])) hb (ih t' ?_)
                      have hlength := congrArg List.length hvalue
                      rw [List.length_cons, List.length_append] at hlength
                      omega
                  | none =>
                      have hplain : startsWith (c :: escapeTableCell t) "\\|".toList = false := by
                        have hnext := startsWith_pipe_escapeTableCell t
                        rw [startsWith] at hnext ⊢
                        simp only [String.reduceToList, List.isPrefixOf_cons_cons, hnext,
                          Bool.and_false]
                      dsimp only
                      rw [hplain]
                      exact .char c (ih t (by omega))

theorem sameCell_escapeTableCell (markdown : Text) :
    SameCell (unescapeMarkdownTableCell (trim (escapeTableCell markdown))) markdown := by
  obtain ⟨before, middle, after, hmarkdown, hbefore, hafter, htrim⟩ :=
    trim_escapeTableCell markdown
  refine ⟨before, middle, after, hmarkdown, hbefore, hafter, ?_⟩
  rw [htrim]
  exact breakAlike_unescapeCellFrom _ middle (Nat.le_refl _)

/-! ## Cutting a row -/

/-- How many pipes of a text are read unescaped. -/
def unescapedPipes : Bool → Text → Nat
  | _, [] => 0
  | escaped, c :: rest =>
      if c = '|' ∧ escaped = false then unescapedPipes false rest + 1
      else unescapedPipes (c == '\\' && !escaped) rest

/-- Whether the character after a text is escaped, where pipes cut it. -/
def endsEscaped : Bool → Text → Bool
  | escaped, [] => escaped
  | escaped, c :: rest =>
      if c = '|' ∧ escaped = false then endsEscaped false rest
      else endsEscaped (c == '\\' && !escaped) rest

theorem unescapedPipes_append (s t : Text) : ∀ escaped : Bool,
    unescapedPipes escaped (s ++ t) =
      unescapedPipes escaped s + unescapedPipes (endsEscaped escaped s) t := by
  induction s with
  | nil => exact fun escaped => (Nat.zero_add _).symm
  | cons c s ih =>
      intro escaped
      rw [List.cons_append, unescapedPipes, unescapedPipes, endsEscaped]
      split
      · rw [ih]
        omega
      · exact ih _

theorem length_readCells (t : Text) : ∀ (current : Text) (escaped : Bool),
    (readCells current escaped t).length = unescapedPipes escaped t + 1 := by
  induction t with
  | nil => exact fun current escaped => rfl
  | cons c t ih =>
      intro current escaped
      rw [readCells, unescapedPipes]
      split
      · rw [List.length_cons, ih]
      · exact ih _ _

/-- A text without unescaped pipes is read into one cell. -/
theorem readCells_append {s : Text} (t : Text) : ∀ {current : Text} {escaped : Bool},
    unescapedPipes escaped s = 0 →
      readCells current escaped (s ++ t) =
        readCells (current ++ s) (endsEscaped escaped s) t := by
  induction s with
  | nil =>
      intro current escaped _
      rw [List.append_nil]
      rfl
  | cons c s ih =>
      intro current escaped hnone
      rw [unescapedPipes] at hnone
      rw [List.cons_append, readCells, endsEscaped]
      split at hnone
      · exact absurd hnone (Nat.succ_ne_zero _)
      · rename_i hpipe
        rw [if_neg hpipe, if_neg hpipe, ih hnone, List.append_assoc]
        rfl

/-- An escaped cell has unescaped pipes where a pipe of the cell was escaped. -/
theorem unescapedPipes_escapeTableCell (t : Text) : ∀ escaped : Bool,
    unescapedPipes escaped (escapeTableCell t) = 0 ↔ scanPipes escaped t ≠ none := by
  induction t with
  | nil =>
      intro escaped
      simp [escapeTableCell, replaceChar, unescapedPipes, scanPipes]
  | cons c t ih =>
      intro escaped
      rw [escapeTableCell_cons, unescapedPipes_append, scanPipes]
      by_cases hpipe : c = '|'
      · subst hpipe
        cases escaped with
        | true => simp [escapeCellChar, unescapedPipes]
        | false =>
            have hnext := ih false
            simpa [escapeCellChar, unescapedPipes, endsEscaped] using hnext
      · by_cases hbreak : c = '\n'
        · subst hbreak
          have hnext := ih false
          simpa [escapeCellChar, unescapedPipes, endsEscaped] using hnext
        · have hchar : escapeCellChar c = [c] := by simp [escapeCellChar, hpipe, hbreak]
          have hnext := ih (c == '\\' && !escaped)
          rw [hchar, if_neg (by simp [hpipe])]
          simpa [unescapedPipes, endsEscaped, hpipe] using hnext

/-- A space ends an escape, and a separator cuts once. -/
theorem unescapedPipes_separator (escaped : Bool) (t : Text) :
    unescapedPipes escaped (" | ".toList ++ t) = unescapedPipes false t + 1 := by
  simp [unescapedPipes]

/-- The cells of a row, between its outer pipes. -/
def rowText (cells : List Text) : Text := join " | ".toList cells ++ [' ']

theorem rowText_cons_cons (cell next : Text) (cells : List Text) :
    rowText (cell :: next :: cells) = cell ++ (" | ".toList ++ rowText (next :: cells)) := by
  simp [rowText, join]

/-- Cells whose pipes are escaped are cut from each other. -/
theorem readCells_rowText {cell : Text} {cells : List Text}
    (h : ∀ cell' ∈ cell :: cells, unescapedPipes false cell' = 0) :
    readCells [' '] false (rowText (cell :: cells)) =
      (cell :: cells).map fun cell => unescapeMarkdownTableCell (trim (' ' :: cell ++ [' '])) := by
  induction cells generalizing cell with
  | nil =>
      have hcell := h cell List.mem_cons_self
      have hrow : rowText [cell] = cell ++ [' '] := rfl
      rw [hrow, readCells_append _ hcell]
      simp [readCells]
  | cons next cells ih =>
      obtain ⟨hcell, hrest⟩ := List.forall_mem_cons.mp h
      rw [rowText_cons_cons, readCells_append _ hcell, List.map_cons, ← ih hrest]
      simp [readCells]

/-- A row has at least as many cells as were written, and more for each unescaped pipe. -/
theorem unescapedPipes_rowText (cell : Text) (cells : List Text) :
    unescapedPipes false (rowText (cell :: cells)) =
      ((cell :: cells).map (unescapedPipes false)).sum + cells.length := by
  induction cells generalizing cell with
  | nil =>
      have hrow : rowText [cell] = cell ++ [' '] := rfl
      rw [hrow, unescapedPipes_append]
      simp [unescapedPipes]
  | cons next cells ih =>
      rw [rowText_cons_cons, unescapedPipes_append, unescapedPipes_separator, ih]
      simp only [List.map_cons, List.sum_cons, List.length_cons]
      omega

theorem trim_spaces (t : Text) : trim (' ' :: t ++ [' ']) = trim t := by
  have hstart : trimStart (' ' :: t ++ [' ']) = trimStart (t ++ [' ']) := rfl
  rw [trim, hstart, trim, trimStart, trimStart, trimEnd, trimEnd]
  by_cases hblank : ∀ c ∈ t, isWhitespace c = true
  · rw [List.dropWhile_append_of_pos hblank, List.dropWhile_eq_nil_iff.mpr hblank]
    rfl
  · have hne : t.dropWhile isWhitespace ≠ [] := by
      rw [ne_eq, List.dropWhile_eq_nil_iff]
      exact hblank
    rw [List.dropWhile_append, if_neg (by simpa using hne)]
    exact List.rdropWhile_concat_pos _ _ _ rfl

/-! ## Rows -/

/-- The escaped texts of cells. -/
def escapedCells (cells : List (List RichTextDto)) : List Text :=
  cells.map fun cell => escapeTableCell (richTextToMarkdown cell)

/-- The row that was written is cut at its unescaped pipes. -/
theorem parse_markdownTableRow (cells : List (List RichTextDto)) :
    parseMarkdownTableRow (markdownTableRow cells) =
      .ok (readCells [' '] false (rowText (escapedCells cells))) := by
  have hrow : markdownTableRow cells = '|' :: ((' ' :: rowText (escapedCells cells)) ++ ['|']) := by
    simp [markdownTableRow, rowText, escapedCells]
  have htrim : trim (markdownTableRow cells) = markdownTableRow cells := by
    rw [hrow, trim, trimStart, List.dropWhile_cons_of_neg (by decide), trimEnd,
      ← List.cons_append]
    exact List.rdropWhile_concat_neg _ _ _ (by decide)
  have hstarts : startsWith (markdownTableRow cells) ['|'] = true := by
    rw [hrow]
    rfl
  have hends : endsWith (markdownTableRow cells) ['|'] = true := by
    rw [hrow, endsWith, List.isSuffixOf_iff_suffix, ← List.cons_append]
    exact List.suffix_append _ _
  have hlong : ¬ (markdownTableRow cells).length < 2 := by
    rw [hrow]
    simp
  have hinner : ((markdownTableRow cells).drop 1).dropLast =
      ' ' :: rowText (escapedCells cells) := by
    rw [hrow, List.drop_succ_cons, List.drop_zero]
    exact List.dropLast_concat
  rw [parseMarkdownTableRow]
  simp only [htrim, hstarts, hends, hlong, hinner, Bool.not_true, Bool.or_self, decide_false,
    Bool.false_eq_true, if_false]
  rfl

/-- The row of some cells is read back exactly if no equation in them that is shown as it is
written has a pipe after an odd number of backslashes. -/
theorem roundTrips_iff {cells : List (List RichTextDto)} (hcells : cells ≠ []) :
    RoundTrips cells ↔ ∀ cell ∈ cells, ∀ part ∈ cell, ShowsNoEscapedPipe part := by
  have hescaped : (∀ cell ∈ cells, ∀ part ∈ cell, ShowsNoEscapedPipe part) ↔
      ∀ text ∈ escapedCells cells, unescapedPipes false text = 0 := by
    rw [escapedCells, List.forall_mem_map]
    refine forall₂_congr fun cell _ => ?_
    rw [unescapedPipes_escapeTableCell, scanPipes_richTextToMarkdown]
  rw [hescaped]
  obtain ⟨cell, rest, rfl⟩ := List.exists_cons_of_ne_nil hcells
  have htexts : escapedCells (cell :: rest) =
      escapeTableCell (richTextToMarkdown cell) :: escapedCells rest := rfl
  constructor
  · rintro ⟨results, hresults, hsame⟩
    rw [parse_markdownTableRow, Except.ok.injEq] at hresults
    have hlength := hsame.length_eq
    rw [← hresults, length_readCells, htexts, unescapedPipes_rowText, ← htexts,
      List.length_map, List.length_cons] at hlength
    have hrest : (escapedCells rest).length = rest.length := List.length_map _
    have hsum : ((escapedCells (cell :: rest)).map (unescapedPipes false)).sum = 0 := by omega
    exact fun text htext => List.sum_eq_zero_iff_forall_eq_nat.mp hsum _ (List.mem_map_of_mem htext)
  · intro hnone
    refine ⟨_, parse_markdownTableRow (cell :: rest), ?_⟩
    rw [htexts] at hnone ⊢
    rw [readCells_rowText hnone, ← htexts, escapedCells, List.map_map]
    refine List.forall₂_map_left_iff.mpr (List.forall₂_map_right_iff.mpr
      (List.forall₂_same.mpr fun cell' _ => ?_))
    rw [Function.comp_apply, trim_spaces]
    exact sameCell_escapeTableCell (richTextToMarkdown cell')

/-- Text with pipes, backslashes and a line break, code, and an equation with a plain pipe. -/
def sampleCells : List (List RichTextDto) :=
  [[{ kind := "text".toList, plainText := "a\\|b\n<br>".toList }],
    [{ kind := "text".toList, plainText := "c\\|d".toList, annotations := { code := true } },
      { kind := "equation".toList, plainText := "|x|".toList }]]

theorem roundTrips_sample : RoundTrips sampleCells :=
  (roundTrips_iff (by decide)).mpr (by decide)

/-- The norm of an equation is cut at its first pipe. -/
def normCells : List (List RichTextDto) :=
  [[{ kind := "equation".toList, plainText := "\\|x\\|".toList }]]

theorem not_roundTrips_norm : ¬ RoundTrips normCells := by
  have hparse : (parseMarkdownTableRow (markdownTableRow normCells)).toOption.map List.length =
      some 3 := by decide +kernel
  rintro ⟨results, hresults, hsame⟩
  rw [hresults] at hparse
  have hlength := hsame.length_eq
  have hthree : results.length = 3 := Option.some.inj hparse
  rw [hthree] at hlength
  exact nomatch hlength

end Locality.Notion
