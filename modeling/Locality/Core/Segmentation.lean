/-
  Core/Segmentation.lean --- what a segmentation is of the lines of its body.

  A block depends on its first line and on the lines that follow, and ends within them.  It
  ends in the same place when a blank line or nothing follows it, so the blocks of a body
  joined by blank lines are cut as they were.  Only a code fence that is not closed takes
  blank lines in at its end, and there the joined body may lose the last of them.
-/
import Locality.Core.Shadow

set_option autoImplicit false

namespace Locality.Core

open Locality.Foundation

/-! ## Joined lines -/

/-- The lines with their terminators, the last one without. -/
def terminate : List Text → List Text
  | [] => []
  | [line] => [line]
  | line :: next :: rest => (line ++ ['\n']) :: terminate (next :: rest)

theorem flatten_terminate (ls : List Text) : (terminate ls).flatten = join ['\n'] ls := by
  induction ls with
  | nil => rfl
  | cons line rest ih =>
      cases rest with
      | nil => simp [terminate, join]
      | cons next rest => simp [terminate, join, ih]

theorem wellLined_terminate {ls : List Text} (hlines : ∀ line ∈ ls, '\n' ∉ line)
    (hlast : ∀ line ∈ ls.getLast?, line ≠ []) : WellLined '\n' (terminate ls) := by
  induction ls with
  | nil => trivial
  | cons line rest ih =>
      rw [List.forall_mem_cons] at hlines
      cases rest with
      | nil => exact Or.inr ⟨hlast line rfl, hlines.1⟩
      | cons next rest =>
          refine WellLined.cons_of_terminated ⟨line, hlines.1, rfl⟩ (ih hlines.2 ?_)
          rw [List.getLast?_cons_cons] at hlast
          exact hlast

/-- A line break that a line does not run into is all that is stripped. -/
theorem stripLineEnding_terminated {line : Text} (h : line.getLast? ≠ some '\r') :
    stripLineEnding (line ++ ['\n']) = line := by
  have hnone : stripSuffixChar '\r' line = none := if_neg h
  rw [stripLineEnding_append_newline, hnone]

theorem stripLineEnding_of_not_mem {line : Text} (h : '\n' ∉ line) :
    stripLineEnding line = line := by
  rw [stripLineEnding, stripSuffixChar_of_not_mem h]

theorem map_stripLineEnding_terminate {ls : List Text} (hlines : ∀ line ∈ ls, '\n' ∉ line)
    (hreturns : ∀ line ∈ ls.dropLast, line.getLast? ≠ some '\r') :
    (terminate ls).map stripLineEnding = ls := by
  induction ls with
  | nil => rfl
  | cons line rest ih =>
      rw [List.forall_mem_cons] at hlines
      cases rest with
      | nil => simp [terminate, stripLineEnding_of_not_mem hlines.1]
      | cons next rest =>
          rw [List.dropLast_cons_cons, List.forall_mem_cons] at hreturns
          rw [terminate, List.map_cons, stripLineEnding_terminated hreturns.1,
            ih hlines.2 hreturns.2]

/-- Joined lines are read back, where no line but the last ends in a carriage return and the
last is not empty. -/
theorem lines_join {ls : List Text} (hlines : ∀ line ∈ ls, '\n' ∉ line)
    (hlast : ∀ line ∈ ls.getLast?, line ≠ [])
    (hreturns : ∀ line ∈ ls.dropLast, line.getLast? ≠ some '\r') :
    lines (join ['\n'] ls) = ls := by
  rw [lines, ← flatten_terminate, splitLines_flatten (wellLined_terminate hlines hlast),
    map_stripLineEnding_terminate hlines hreturns]

theorem join_append {ls more : List Text} (hls : ls ≠ []) (hmore : more ≠ []) :
    join ['\n'] (ls ++ more) = join ['\n'] ls ++ ['\n'] ++ join ['\n'] more := by
  induction ls with
  | nil => contradiction
  | cons line rest ih =>
      cases rest with
      | nil =>
          cases more with
          | nil => contradiction
          | cons next more => simp [join]
      | cons next rest =>
          have hrest := ih (List.cons_ne_nil next rest)
          simp only [List.cons_append, join] at hrest ⊢
          simp [hrest]

/-- A line that ends in a carriage return puts it before a line feed, unless it is last. -/
theorem getLast?_ne_return {ls : List Text}
    (h : ¬ ['\r', '\n'] <:+: join ['\n'] ls) :
    ∀ line ∈ ls.dropLast, line.getLast? ≠ some '\r' := by
  induction ls with
  | nil => simp
  | cons line rest ih =>
      cases rest with
      | nil => simp
      | cons next rest =>
          have hjoin : join ['\n'] (line :: next :: rest) =
              line ++ ['\n'] ++ join ['\n'] (next :: rest) := rfl
          rw [hjoin] at h
          rw [List.dropLast_cons_cons, List.forall_mem_cons]
          refine ⟨fun hreturn => h ?_, ih fun hinfix => h ?_⟩
          · obtain ⟨front, rfl⟩ := List.getLast?_eq_some_iff.mp hreturn
            exact ⟨front, join ['\n'] (next :: rest), by simp⟩
          · exact hinfix.trans (List.suffix_append _ _).isInfix

/-- A last line that is empty, after another one, leaves a line feed at the end. -/
theorem suffix_of_getLast?_eq_nil {ls : List Text} (hlength : 2 ≤ ls.length)
    (h : ls.getLast? = some []) : ['\n'] <:+ join ['\n'] ls := by
  obtain ⟨front, rfl⟩ := List.getLast?_eq_some_iff.mp h
  have hfront : front ≠ [] := by
    rintro rfl
    simp at hlength
  rw [join_append hfront (List.cons_ne_nil _ _)]
  exact ⟨join ['\n'] front, by simp [join]⟩

theorem not_mem_of_mem_lines {t line : Text} (h : line ∈ lines t) : '\n' ∉ line := by
  obtain ⟨whole, hwhole, rfl⟩ := List.mem_map.mp h
  rcases (wellLined_splitLines t).line_cases hwhole with ⟨word, hword, rfl⟩ | ⟨-, hword⟩
  · rw [stripLineEnding_append_newline]
    split
    · exact hword
    · rename_i shorter hshorter
      rw [stripSuffixChar_eq_some hshorter] at hword
      exact fun hmem => hword (List.mem_append_left _ hmem)
  · rw [stripLineEnding_of_not_mem hword]
    exact hword

/-! ## Blocks by the lines that follow -/

/-- The line starts a table before the lines that follow. -/
def isTableHead (first : Text) (rest : List Text) : Bool :=
  match rest.head? with
  | none => false
  | some next => containsText first ['|'] && isTableSeparator next

/-- A line that a table goes on with. -/
def isTableRow (line : Text) : Bool := containsText line ['|'] && !(trim line).isEmpty

/-- The lines of the block that starts with a line, of it and those that follow. -/
def blockLength (first : Text) (rest : List Text) : Nat :=
  if (parseDirectiveLine first 1).isSome || isHeading first then 1
  else
    match fenceMarker first with
    | some fence =>
        match rest.findIdx? (isCodeFenceCloser fence) with
        | some offset => offset + 2
        | none => rest.length + 1
    | none =>
        if isTableHead first rest then ((first :: rest).takeWhile isTableRow).length
        else if isListItem first then
          (rest.takeWhile (continuesListItem (indentWidth first))).length + 1
        else ((first :: rest).takeWhile (continuesParagraph false)).length

/-- The kind of the block that starts with a line. -/
def blockKind (first : Text) (rest : List Text) : MarkdownBlockKind :=
  match parseDirectiveLine first 1 with
  | some directive =>
      .directive directive.directiveType directive.raw directive.malformed
  | none =>
      if isHeading first then .heading
      else if (fenceMarker first).isSome then .codeFence
      else if isTableHead first rest then .table
      else if isListItem first then .list
      else .paragraph

theorem isTableStart_of_drop {ls rest : List Text} {index : Nat} {first : Text}
    (h : ls.drop index = first :: rest) : isTableStart ls index = isTableHead first rest := by
  have hfirst : ls[index]? = some first := by
    rw [← List.head?_drop, h]
    rfl
  have hnext : ls[index + 1]? = rest.head? := by
    rw [← List.head?_drop, ← List.drop_drop, h]
    rfl
  rw [isTableStart, hfirst, hnext, isTableHead]
  cases rest.head? <;> rfl

theorem parseDirectiveLine_isSome (line : Text) (m n : Nat) :
    (parseDirectiveLine line m).isSome = (parseDirectiveLine line n).isSome := by
  simp only [parseDirectiveLine]
  cases directivePrefix (trim line) <;> rfl

/-- A block ends after as many lines as it has. -/
theorem blockEnd_of_drop {ls rest : List Text} {index : Nat} {first : Text}
    (h : ls.drop index = first :: rest) :
    blockEnd ls index first = index + blockLength first rest := by
  have hlength : ls.length = index + (rest.length + 1) := by
    have hdrop := congrArg List.length h
    rw [List.length_drop, List.length_cons] at hdrop
    omega
  have hrest : ls.drop (index + 1) = rest := by
    rw [← List.drop_drop, h]
    rfl
  rw [blockEnd, blockLength, parseDirectiveLine_isSome first (index + 1) 1,
    isTableStart_of_drop h]
  split
  · rfl
  · cases fenceMarker first with
    | some fence =>
        dsimp only
        rw [consumeCodeFence, hrest]
        cases rest.findIdx? (isCodeFenceCloser fence) with
        | some offset => exact Nat.add_assoc _ _ _
        | none => exact hlength
    | none =>
        dsimp only
        cases isTableHead first rest with
        | true =>
            simp only [if_true, consumeWhile, h]
            rfl
        | false =>
            simp only [Bool.false_eq_true, if_false]
            split
            · rw [consumeWhile, hrest]
              omega
            · rw [consumeWhile, h]

theorem classifyBlock_of_drop {ls rest : List Text} {index stop : Nat} {first : Text}
    (h : ls.drop index = first :: rest) (hstop : index < stop) :
    classifyBlock ls index stop first = blockKind first rest := by
  rw [classifyBlock, blockKind, isTableStart_of_drop h, decide_eq_true hstop, Bool.true_and]
  simp only [parseDirectiveLine]
  cases directivePrefix (trim first) <;> rfl

/-- A block has its first line, and no line after the last. -/
theorem blockLength_bounds {first : Text} (rest : List Text)
    (hfirst : (trim first).isEmpty = false) :
    0 < blockLength first rest ∧ blockLength first rest ≤ rest.length + 1 := by
  have hcount : ∀ predicate : Text → Bool, predicate first = true →
      0 < ((first :: rest).takeWhile predicate).length ∧
        ((first :: rest).takeWhile predicate).length ≤ rest.length + 1 := by
    intro predicate hpredicate
    rw [List.takeWhile_cons_of_pos hpredicate, List.length_cons]
    have hle := (List.takeWhile_prefix predicate (l := rest)).length_le
    omega
  rw [blockLength]
  split
  · omega
  · rename_i hplain
    rw [Bool.or_eq_true, not_or] at hplain
    split
    · split
      · rename_i offset hoffset
        have hlt := (List.findIdx?_eq_some_iff_getElem.mp hoffset).1
        omega
      · omega
    · rename_i hfence
      split
      · rename_i htable
        refine hcount isTableRow ?_
        rw [isTableHead] at htable
        cases hhead : rest.head? with
        | none => simp [hhead] at htable
        | some next =>
            rw [hhead, Bool.and_eq_true] at htable
            rw [isTableRow, htable.1, hfirst]
            rfl
      · split
        · have hle := (List.takeWhile_prefix (continuesListItem (indentWidth first))
            (l := rest)).length_le
          omega
        · rename_i hlist
          refine hcount (continuesParagraph false) ?_
          simp_all [continuesParagraph]

/-! ## What follows a block -/

/-- Nothing follows the block, or a blank line where something followed it before. -/
def Ends (more after : List Text) : Prop := after = [] ∨ more ≠ [] ∧ after.head? = some []

theorem ends_nil (more : List Text) : Ends more [] := Or.inl rfl

theorem ends_blank {more : List Text} (h : more ≠ []) (after : List Text) :
    Ends more ([] :: after) := Or.inr ⟨h, rfl⟩

theorem Ends.head_blank {more after : List Text} (h : Ends more after) :
    ∀ line ∈ after.head?, line = [] := by
  rcases h with rfl | ⟨-, hblank⟩
  · simp
  · rw [hblank]
    intro line hline
    exact (Option.mem_some.mp hline).symm

/-- The lines that a predicate takes are taken again, before a line it does not hold of. -/
theorem length_takeWhile_append (ls more : List Text) {predicate : Text → Bool}
    {after : List Text}
    (hlength : ((ls ++ more).takeWhile predicate).length = ls.length)
    (hafter : ∀ line ∈ after.head?, predicate line = false) :
    ((ls ++ after).takeWhile predicate).length = ls.length := by
  have htaken : ∀ line ∈ ls, predicate line = true := by
    have hwhole : (ls ++ more).takeWhile predicate = ls := by
      have htake := List.prefix_iff_eq_take.mp (List.takeWhile_prefix predicate (l := ls ++ more))
      rw [hlength, List.take_left] at htake
      exact htake
    exact fun line hline => List.mem_takeWhile_imp (hwhole.symm ▸ hline)
  rw [List.takeWhile_append_of_pos htaken, List.length_append]
  cases after with
  | nil => simp
  | cons line after => simp [hafter line rfl]

theorem trim_isInfix (line : Text) : trim line <:+: line :=
  (List.rdropWhile_prefix _ _).isInfix.trans (List.dropWhile_suffix _).isInfix

theorem isTableRow_of_isTableSeparator {line : Text} (h : isTableSeparator line = true) :
    isTableRow line = true := by
  rw [isTableSeparator, Bool.and_eq_true, Bool.and_eq_true] at h
  have hbar := containsText_iff_isInfix.mp h.1.1
  rw [isTableRow, containsText_iff_isInfix.mpr (hbar.trans (trim_isInfix line))]
  cases htrim : trim line with
  | nil =>
      rw [htrim, List.infix_nil] at hbar
      exact nomatch hbar
  | cons c cs => rfl

theorem inside_ne_nil_of_isTableHead {first : Text} {inside more : List Text}
    (hhead : isTableHead first (inside ++ more) = true)
    (hlength : ((first :: (inside ++ more)).takeWhile isTableRow).length = inside.length + 1) :
    inside ≠ [] := by
  rintro rfl
  rw [List.nil_append] at hhead hlength
  cases more with
  | nil => exact nomatch hhead
  | cons next more =>
      rw [isTableHead, List.head?_cons, Bool.and_eq_true] at hhead
      have hnext := isTableRow_of_isTableSeparator hhead.2
      cases hfirst : isTableRow first with
      | true => simp [hfirst, hnext] at hlength
      | false => simp [hfirst] at hlength

/-- A block ends alike before a blank line. -/
theorem blockLength_of_ends {first : Text} {inside more after : List Text}
    (hlength : blockLength first (inside ++ more) = inside.length + 1)
    (hends : Ends more after) :
    blockLength first (inside ++ after) = inside.length + 1 ∧
      blockKind first (inside ++ after) = blockKind first (inside ++ more) := by
  -- a block whose first line has no line after it starts no table, and one of more lines
  -- has its second line inside
  have hhead : isTableHead first (inside ++ more) = false ∨ inside ≠ [] →
      isTableHead first (inside ++ after) = isTableHead first (inside ++ more) := by
    intro hcases
    cases inside with
    | cons next inside => rfl
    | nil =>
        have hfalse : isTableHead first more = false := by simpa using hcases
        rw [List.nil_append, List.nil_append, hfalse, isTableHead]
        cases hafter : after.head? with
        | none => rfl
        | some next =>
            rw [hends.head_blank next hafter, Bool.and_eq_false_iff]
            exact Or.inr rfl
  have hblank : ∀ predicate : Text → Bool, predicate [] = false →
      ∀ line ∈ after.head?, predicate line = false := by
    intro predicate hnil line hline
    rw [hends.head_blank line hline]
    exact hnil
  rw [blockLength] at hlength ⊢
  rw [blockKind, blockKind]
  cases hdirective : parseDirectiveLine first 1 with
  | some directive => simp_all
  | none =>
      cases hheading : isHeading first with
      | true => simp_all
      | false =>
          simp only [hdirective, hheading, Option.isSome_none, Bool.or_self, Bool.false_eq_true,
            if_false] at hlength ⊢
          cases hfence : fenceMarker first with
          | some fence =>
              simp only [hfence, Option.isSome_some, if_true] at hlength ⊢
              refine ⟨?_, trivial⟩
              cases hinside : inside.findIdx? (isCodeFenceCloser fence) with
              | some offset =>
                  rw [List.findIdx?_append, hinside] at hlength ⊢
                  exact hlength
              | none =>
                  -- the fence is closed by nothing, so nothing followed it
                  rw [List.findIdx?_append, hinside] at hlength
                  have hmore : more = [] := by
                    cases hclose : more.findIdx? (isCodeFenceCloser fence) with
                    | some offset =>
                        simp only [hclose, Option.map_some, Option.none_or] at hlength
                        omega
                    | none =>
                        simp only [hclose, Option.map_none, Option.none_or,
                          List.length_append] at hlength
                        exact List.length_eq_zero_iff.mp (by omega)
                  rcases hends with rfl | ⟨hsome, -⟩
                  · simp [hinside]
                  · contradiction
          | none =>
              simp only [hfence, Option.isSome_none, Bool.false_eq_true, if_false] at hlength ⊢
              cases htable : isTableHead first (inside ++ more) with
              | true =>
                  simp only [htable, if_true] at hlength
                  have hinside : inside ≠ [] :=
                    inside_ne_nil_of_isTableHead htable hlength
                  rw [hhead (Or.inr hinside), htable]
                  simp only [if_true, and_true]
                  have htaken := length_takeWhile_append (first :: inside) more
                    hlength (hblank isTableRow rfl)
                  exact htaken
              | false =>
                  rw [hhead (Or.inl htable), htable]
                  simp only [htable, Bool.false_eq_true, if_false, and_true] at hlength ⊢
                  split
                  · rename_i hitem
                    rw [if_pos hitem] at hlength
                    have htaken := length_takeWhile_append inside more
                      (Nat.succ.inj hlength) (hblank _ rfl)
                    rw [htaken]
                  · rename_i hitem
                    rw [if_neg hitem] at hlength
                    exact length_takeWhile_append (first :: inside) more
                      hlength (hblank _ rfl)

/-! ## Segmentations -/

/-- A block: its first line, and the others. -/
abbrev Piece : Type := Text × List Text

def Piece.lines (piece : Piece) : List Text := piece.1 :: piece.2

/-- The lines are cut into the pieces, and the rest of them is blank. -/
inductive Segments : List Text → List Piece → Prop where
  | nil : Segments [] []
  | blank {line : Text} {rest : List Text} {pieces : List Piece}
      (hblank : (trim line).isEmpty = true) (hrest : Segments rest pieces) :
      Segments (line :: rest) pieces
  | block {first : Text} {inside more : List Text} {pieces : List Piece}
      (hfirst : (trim first).isEmpty = false)
      (hlength : blockLength first (inside ++ more) = inside.length + 1)
      (hmore : Segments more pieces) :
      Segments (first :: (inside ++ more)) ((first, inside) :: pieces)

/-- What is said of a block without its place. -/
def Piece.content (piece : Piece) : Option RemoteId × MarkdownBlockKind × Text × Text :=
  let kind := blockKind piece.1 piece.2
  let text := join ['\n'] piece.lines
  let remoteId :=
    if kind.isDirective then (parseDirectiveLine piece.1 1).bind Directive.remoteId else none
  (remoteId, kind, blockHash kind text, text)

/-- The lines have a segmentation. -/
theorem exists_segments (ls : List Text) : ∃ pieces, Segments ls pieces := by
  induction hlength : ls.length using Nat.strongRecOn generalizing ls with
  | ind n ih =>
      cases ls with
      | nil => exact ⟨[], .nil⟩
      | cons first rest =>
          rw [List.length_cons] at hlength
          cases hfirst : (trim first).isEmpty with
          | true =>
              obtain ⟨pieces, hpieces⟩ := ih rest.length (by omega) rest rfl
              exact ⟨pieces, .blank hfirst hpieces⟩
          | false =>
              obtain ⟨hpositive, hle⟩ := blockLength_bounds rest hfirst
              have hsplit := List.take_append_drop (blockLength first rest - 1) rest
              obtain ⟨pieces, hpieces⟩ := ih (rest.drop (blockLength first rest - 1)).length
                (by rw [List.length_drop]; omega) _ rfl
              refine ⟨(first, rest.take (blockLength first rest - 1)) :: pieces, ?_⟩
              have hlengths : blockLength first (rest.take (blockLength first rest - 1) ++
                  rest.drop (blockLength first rest - 1)) =
                    (rest.take (blockLength first rest - 1)).length + 1 := by
                rw [hsplit, List.length_take]
                omega
              have hblock := Segments.block hfirst hlengths hpieces
              rw [hsplit] at hblock
              exact hblock

/-- The loop cuts the lines from an index on into pieces. -/
theorem segmentFrom_of_segments {ls : List Text} {bodyStartLine fuel : Nat} :
    ∀ {index : Nat} {pieces : List Piece}, ls.length ≤ index + fuel →
      Segments (ls.drop index) pieces →
        (segmentFrom ls bodyStartLine fuel index).map SegmentedBlock.content =
          pieces.map Piece.content := by
  induction fuel with
  | zero =>
      intro index pieces hfuel hpieces
      rw [List.drop_of_length_le (by omega)] at hpieces
      cases hpieces
      rfl
  | succ fuel ih =>
      intro index pieces hfuel hpieces
      generalize hdrop : ls.drop index = remaining at hpieces
      rw [segmentFrom, ← List.head?_drop, hdrop]
      cases hpieces with
      | nil => rfl
      | @blank line rest _ hblank hrest =>
          simp only [List.head?_cons, hblank, if_true]
          refine ih (by omega) ?_
          rw [← List.drop_drop, hdrop]
          exact hrest
      | @block first inside more pieces hfirst hlength hmore =>
          have hstop := blockEnd_of_drop hdrop
          rw [hlength] at hstop
          have hslice : slice ls index (index + (inside.length + 1)) = first :: inside := by
            rw [slice, List.drop_take, hdrop, Nat.add_sub_cancel_left, List.take_succ_cons,
              List.take_left]
          have hkind : blockKind first (inside ++ more) = blockKind first inside := by
            have hends := blockLength_of_ends hlength (ends_nil more)
            rw [List.append_nil] at hends
            exact hends.2.symm
          simp only [List.head?_cons, hfirst, Bool.false_eq_true, if_false, List.map_cons]
          rw [hstop]
          congr 1
          · rw [SegmentedBlock.content, Piece.content, hslice,
              classifyBlock_of_drop hdrop (by omega), hkind,
              parseDirectiveLine_remoteId first (bodyStartLine + index) 1]
            rfl
          · refine ih (by omega) ?_
            rw [← List.drop_drop, hdrop, List.drop_succ_cons, List.drop_left]
            exact hmore

/-! ## Blocks joined by blank lines -/

/-- The lines of pieces that are joined by blank lines. -/
def rejoinedLines : List Piece → List Text
  | [] => []
  | [piece] => piece.lines
  | piece :: next :: pieces => piece.lines ++ [] :: rejoinedLines (next :: pieces)

/-- Pieces that are joined by blank lines are cut again. -/
theorem segments_rejoinedLines {ls : List Text} {pieces : List Piece}
    (h : Segments ls pieces) : Segments (rejoinedLines pieces) pieces := by
  induction h with
  | nil => exact .nil
  | blank hblank hrest ih => exact ih
  | @block first inside more pieces hfirst hlength hmore ih =>
      cases pieces with
      | nil =>
          have hends := blockLength_of_ends hlength (ends_nil more)
          have hblock := Segments.block hfirst hends.1 .nil
          rw [List.append_nil] at hblock
          exact hblock
      | cons next pieces =>
          have hsome : more ≠ [] := by
            rintro rfl
            cases hmore
          have hends := blockLength_of_ends hlength
            (ends_blank hsome (rejoinedLines (next :: pieces)))
          exact .block hfirst hends.1 (.blank rfl ih)

theorem rejoinedLines_ne_nil (piece : Piece) (pieces : List Piece) :
    rejoinedLines (piece :: pieces) ≠ [] := by
  cases pieces <;> simp [rejoinedLines, Piece.lines]

/-- The texts of pieces, joined by blank lines, are the joined lines. -/
theorem join_texts (pieces : List Piece) :
    join ['\n', '\n'] (pieces.map fun piece => join ['\n'] piece.lines) =
      join ['\n'] (rejoinedLines pieces) := by
  induction pieces with
  | nil => rfl
  | cons piece pieces ih =>
      cases pieces with
      | nil => rfl
      | cons next pieces =>
          have hlines : piece.lines ≠ [] := List.cons_ne_nil _ _
          rw [List.map_cons] at ih
          have hblank : join ['\n'] ([] :: rejoinedLines (next :: pieces)) =
              ['\n'] ++ join ['\n'] (rejoinedLines (next :: pieces)) := by
            have happend := join_append (List.cons_ne_nil ([] : Text) [])
              (rejoinedLines_ne_nil next pieces)
            simpa [join] using happend
          rw [List.map_cons, List.map_cons, join, ih, rejoinedLines,
            join_append hlines (List.cons_ne_nil _ _), hblank]
          · simp
          · simp

theorem mem_of_mem_rejoinedLines {ls : List Text} {pieces : List Piece}
    (h : Segments ls pieces) : ∀ line ∈ rejoinedLines pieces, line = [] ∨ line ∈ ls := by
  induction h with
  | nil => simp [rejoinedLines]
  | blank hblank hrest ih =>
      intro line hline
      exact (ih line hline).imp_right (List.mem_cons_of_mem _)
  | @block first inside more pieces hfirst hlength hmore ih =>
      intro line hline
      have hsplit : line ∈ first :: inside ∨ line = [] ∨ line ∈ rejoinedLines pieces := by
        cases pieces with
        | nil => exact Or.inl hline
        | cons next pieces => simpa [rejoinedLines, Piece.lines, or_assoc] using hline
      rcases hsplit with hinside | hnil | hrest
      · refine Or.inr ?_
        simp only [List.mem_cons, List.mem_append] at hinside ⊢
        tauto
      · exact Or.inl hnil
      · refine (ih line hrest).imp_right fun hmem => ?_
        exact List.mem_cons_of_mem _ (List.mem_append_right _ hmem)

/-- The first line of a piece is not blank. -/
theorem Segments.first_ne_nil {ls : List Text} {pieces : List Piece} (h : Segments ls pieces) :
    ∀ piece ∈ pieces, piece.1 ≠ [] := by
  induction h with
  | nil => simp
  | blank hblank hrest ih => exact ih
  | block hfirst hlength hmore ih =>
      rw [List.forall_mem_cons]
      refine ⟨?_, ih⟩
      rintro rfl
      exact nomatch hfirst

/-! ## Spans -/

/-- The blocks partition the lines from an index on, but for the blank ones between them. -/
structure PartitionsFrom (ls : List Text) (bodyStartLine index : Nat)
    (blocks : List SegmentedBlock) : Prop where
  increasing : blocks.Pairwise fun block later =>
    block.sourceSpan.endLine < later.sourceSpan.startLine
  within : ∀ block ∈ blocks, bodyStartLine + index ≤ block.sourceSpan.startLine ∧
    block.sourceSpan.startLine ≤ block.sourceSpan.endLine ∧
      block.sourceSpan.endLine < bodyStartLine + ls.length
  text : ∀ block ∈ blocks, block.text = join ['\n'] (slice ls
    (block.sourceSpan.startLine - bodyStartLine) (block.sourceSpan.endLine + 1 - bodyStartLine))
  begins : ∀ block ∈ blocks, ∃ first,
    ls[block.sourceSpan.startLine - bodyStartLine]? = some first ∧ (trim first).isEmpty = false
  covered : ∀ line i, index ≤ i → ls[i]? = some line →
    (∃ block ∈ blocks, block.sourceSpan.startLine ≤ bodyStartLine + i ∧
      bodyStartLine + i ≤ block.sourceSpan.endLine) ∨ (trim line).isEmpty = true

/-- A blank line is skipped. -/
theorem PartitionsFrom.blank {ls : List Text} {bodyStartLine index : Nat} {first : Text}
    {blocks : List SegmentedBlock} (hfirst : ls[index]? = some first)
    (hblank : (trim first).isEmpty = true)
    (h : PartitionsFrom ls bodyStartLine (index + 1) blocks) :
    PartitionsFrom ls bodyStartLine index blocks where
  increasing := h.increasing
  within block hblock := by
    have hwithin := h.within block hblock
    omega
  text := h.text
  begins := h.begins
  covered line i hi hline := by
    by_cases hindex : i = index
    · subst hindex
      rw [hfirst, Option.some.injEq] at hline
      exact Or.inr (hline ▸ hblank)
    · exact h.covered line i (by omega) hline

/-- A block takes the lines up to the index where it stops. -/
theorem PartitionsFrom.cons {ls : List Text} {bodyStartLine index stop : Nat} {first : Text}
    {block : SegmentedBlock} {blocks : List SegmentedBlock} (hfirst : ls[index]? = some first)
    (hsome : (trim first).isEmpty = false) (hindex : index < stop) (hstop : stop ≤ ls.length)
    (hspan : block.sourceSpan = ⟨bodyStartLine + index, bodyStartLine + stop - 1⟩)
    (htext : block.text = join ['\n'] (slice ls index stop))
    (h : PartitionsFrom ls bodyStartLine stop blocks) :
    PartitionsFrom ls bodyStartLine index (block :: blocks) where
  increasing := by
    refine List.pairwise_cons.mpr ⟨fun later hlater => ?_, h.increasing⟩
    have hwithin := h.within later hlater
    rw [hspan]
    dsimp only
    omega
  within := by
    refine List.forall_mem_cons.mpr ⟨?_, fun later hlater => ?_⟩
    · rw [hspan]
      dsimp only
      omega
    · have hwithin := h.within later hlater
      omega
  text := by
    refine List.forall_mem_cons.mpr ⟨?_, h.text⟩
    rw [htext, hspan]
    dsimp only
    congr 2 <;> omega
  begins := by
    refine List.forall_mem_cons.mpr ⟨⟨first, ?_, hsome⟩, h.begins⟩
    rw [hspan, ← hfirst]
    dsimp only
    congr 1
    omega
  covered line i hi hline := by
    by_cases hinside : i < stop
    · refine Or.inl ⟨block, List.mem_cons_self, ?_⟩
      rw [hspan]
      dsimp only
      omega
    · refine (h.covered line i (by omega) hline).imp_left ?_
      rintro ⟨later, hlater, hcovers⟩
      exact ⟨later, List.mem_cons_of_mem _ hlater, hcovers⟩

/-- The loop partitions the lines that are left. -/
theorem partitionsFrom_segmentFrom {ls : List Text} {bodyStartLine fuel : Nat} :
    ∀ {index : Nat}, ls.length ≤ index + fuel →
      PartitionsFrom ls bodyStartLine index (segmentFrom ls bodyStartLine fuel index) := by
  have hnone : ∀ index, ls.length ≤ index → PartitionsFrom ls bodyStartLine index [] := by
    intro index hindex
    refine ⟨.nil, by simp, by simp, by simp, fun line i hi hline => ?_⟩
    have hlt := (List.getElem?_eq_some_iff.mp hline).1
    omega
  induction fuel with
  | zero => exact fun {index} hfuel => hnone index hfuel
  | succ fuel ih =>
      intro index hfuel
      rw [segmentFrom]
      cases hfirst : ls[index]? with
      | none => exact hnone index (List.getElem?_eq_none_iff.mp hfirst)
      | some first =>
          dsimp only
          split
          · rename_i hblank
            exact .blank hfirst hblank (ih (by omega))
          · rename_i hsome
            rw [Bool.not_eq_true] at hsome
            obtain ⟨hlt, hget⟩ := List.getElem?_eq_some_iff.mp hfirst
            have hdrop : ls.drop index = first :: ls.drop (index + 1) := by
              rw [List.drop_eq_getElem_cons hlt, hget]
            have hbounds := blockLength_bounds (ls.drop (index + 1)) hsome
            rw [List.length_drop] at hbounds
            have hstop := blockEnd_of_drop hdrop
            refine .cons hfirst hsome ?_ ?_ rfl rfl (ih ?_)
            · omega
            · omega
            · omega

/-- More rounds than lines change nothing. -/
theorem segmentFrom_add {ls : List Text} {bodyStartLine fuel : Nat} (more : Nat) :
    ∀ {index : Nat}, ls.length ≤ index + fuel →
      segmentFrom ls bodyStartLine (fuel + more) index =
        segmentFrom ls bodyStartLine fuel index := by
  induction fuel with
  | zero =>
      intro index hfuel
      have hnone : ls[index]? = none := List.getElem?_eq_none_iff.mpr hfuel
      cases more with
      | zero => rfl
      | succ more =>
          simp only [segmentFrom, hnone]
  | succ fuel ih =>
      intro index hfuel
      rw [Nat.succ_add, segmentFrom, segmentFrom]
      cases hfirst : ls[index]? with
      | none => rfl
      | some first =>
          dsimp only
          split
          · exact ih (by omega)
          · rename_i hsome
            rw [Bool.not_eq_true] at hsome
            obtain ⟨hlt, hget⟩ := List.getElem?_eq_some_iff.mp hfirst
            have hdrop : ls.drop index = first :: ls.drop (index + 1) := by
              rw [List.drop_eq_getElem_cons hlt, hget]
            have hbounds := blockLength_bounds (ls.drop (index + 1)) hsome
            have hstop := blockEnd_of_drop hdrop
            rw [ih (by omega)]

/-! ## Segmentation again -/

/-- The texts of the blocks of a body, joined by blank lines. -/
def rejoinBlocks (body : Text) (bodyStartLine : Nat) : Text :=
  join ['\n', '\n'] ((segmentMarkdownBody body bodyStartLine).map (·.text))

/-- The blocks of a body joined by blank lines are cut as they were. -/
def SegmentsAlike (body : Text) (bodyStartLine : Nat) : Prop :=
  (segmentMarkdownBody (rejoinBlocks body bodyStartLine) bodyStartLine).map
      SegmentedBlock.content =
    (segmentMarkdownBody body bodyStartLine).map SegmentedBlock.content

theorem segmentMarkdownBody_of_segments {body : Text} {pieces : List Piece}
    (h : Segments (lines body) pieces) (bodyStartLine : Nat) :
    (segmentMarkdownBody body bodyStartLine).map SegmentedBlock.content =
      pieces.map Piece.content :=
  segmentFrom_of_segments (Nat.le_add_left _ _) h

/-- A body is cut alike again if no line feed of the joined blocks follows a carriage return
or ends them. -/
theorem segmentsAlike_of_lines {body : Text} {bodyStartLine : Nat}
    (hreturns : ¬ ['\r', '\n'] <:+: rejoinBlocks body bodyStartLine)
    (hlast : ¬ ['\n'] <:+ rejoinBlocks body bodyStartLine) :
    SegmentsAlike body bodyStartLine := by
  obtain ⟨pieces, hpieces⟩ := exists_segments (lines body)
  have hcontent := segmentMarkdownBody_of_segments hpieces bodyStartLine
  have htexts : rejoinBlocks body bodyStartLine = join ['\n'] (rejoinedLines pieces) := by
    have htext := congrArg (List.map fun content => content.2.2.2) hcontent
    rw [List.map_map, List.map_map] at htext
    rw [← join_texts]
    exact congrArg (join ['\n', '\n']) htext
  rw [htexts] at hreturns hlast
  have hlines : lines (rejoinBlocks body bodyStartLine) = rejoinedLines pieces := by
    rw [htexts]
    refine lines_join (fun line hline => ?_) (fun line hline => ?_)
      (getLast?_ne_return hreturns)
    · rcases mem_of_mem_rejoinedLines hpieces line hline with rfl | hmem
      · exact List.not_mem_nil
      · exact not_mem_of_mem_lines hmem
    · rintro rfl
      refine hlast (suffix_of_getLast?_eq_nil ?_ hline)
      -- one line alone is the first of a piece
      by_contra hshort
      cases pieces with
      | nil => exact nomatch hline
      | cons piece pieces =>
          have hfirst := hpieces.first_ne_nil piece List.mem_cons_self
          obtain ⟨first, inside⟩ := piece
          cases pieces with
          | nil =>
              cases inside with
              | nil =>
                  simp only [rejoinedLines, Piece.lines, List.getLast?_singleton,
                    Option.mem_some] at hline
                  exact hfirst hline
              | cons _ _ => simp [rejoinedLines, Piece.lines] at hshort
          | cons next pieces => simp [rejoinedLines, Piece.lines] at hshort
  have hagain : Segments (lines (rejoinBlocks body bodyStartLine)) pieces := by
    rw [hlines]
    exact segments_rejoinedLines hpieces
  rw [SegmentsAlike, segmentMarkdownBody_of_segments hagain, hcontent]

/-- Segmentation comes to its end, partitions the lines of the body, and cuts its blocks alike
again unless a line feed of the joined blocks follows a carriage return or ends them. -/
theorem segmentation_partitions_and_repeats (body : Text) (bodyStartLine : Nat) :
    (∀ rounds, (lines body).length ≤ rounds →
      segmentFrom (lines body) bodyStartLine rounds 0 =
        segmentMarkdownBody body bodyStartLine) ∧
      PartitionsFrom (lines body) bodyStartLine 0 (segmentMarkdownBody body bodyStartLine) ∧
        (¬ ['\r', '\n'] <:+: rejoinBlocks body bodyStartLine →
          ¬ ['\n'] <:+ rejoinBlocks body bodyStartLine →
            SegmentsAlike body bodyStartLine) := by
  refine ⟨fun rounds hrounds => ?_, partitionsFrom_segmentFrom (Nat.le_add_left _ _),
    segmentsAlike_of_lines⟩
  obtain ⟨more, rfl⟩ := Nat.exists_eq_add_of_le hrounds
  exact segmentFrom_add more (Nat.le_add_left _ _)

/-- A heading, a list and a paragraph with no blank line between them. -/
def sampleBody : Text := "# H
- a
  b
c

d
".toList

theorem segmentation_repeats_sample : SegmentsAlike sampleBody 1 :=
  (segmentation_partitions_and_repeats sampleBody 1).2.2 (by decide +kernel) (by decide +kernel)

/-- A fence that is not closed takes in the blank line at its end, which is none when the
fence is cut again. -/
theorem not_segmentsAlike_unclosedFence : ¬ SegmentsAlike "~~~
a

".toList 1 := by
  unfold SegmentsAlike
  decide +kernel

end Locality.Core
