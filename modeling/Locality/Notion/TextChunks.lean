/-
  Notion/TextChunks.lean --- `split_notion_text_content` of `locality-notion/src/apply.rs`:
  a text in chunks that a rich text may hold.

  Cuts are byte indices, as in the source, where a slice at an index inside a character
  panics.  Here it is none, so a result is also what shows that no slice panics.
-/
import Locality.Core.Text

set_option autoImplicit false

namespace Locality.Notion

open Locality.Core

/-! ## Byte indices -/

/-- `str::len`. -/
def byteLength : Text → Nat
  | [] => 0
  | c :: t => c.utf8Size + byteLength t

/-- `str::split_at`; none where the source panics. -/
def splitAtByte : Nat → Text → Option (Text × Text)
  | 0, t => some ([], t)
  | _ + 1, [] => none
  | n + 1, c :: t =>
      if c.utf8Size ≤ n + 1 then
        (splitAtByte (n + 1 - c.utf8Size) t).map fun (front, rest) => (c :: front, rest)
      else none

/-- `str::char_indices`, of what stands behind some bytes. -/
def charIndicesFrom : Nat → Text → List (Nat × Char)
  | _, [] => []
  | offset, c :: t => (offset, c) :: charIndicesFrom (offset + c.utf8Size) t

def charIndices (t : Text) : List (Nat × Char) := charIndicesFrom 0 t

/-- `str::rfind`, of what stands behind some bytes. -/
def rfindFrom (pattern : Text) : Nat → Text → Option Nat
  | offset, [] => if pattern = [] then some offset else none
  | offset, c :: t =>
      match rfindFrom pattern (offset + c.utf8Size) t with
      | some index => some index
      | none => if pattern.isPrefixOf (c :: t) then some offset else none

def rfind (pattern t : Text) : Option Nat := rfindFrom pattern 0 t

/-! ## The source -/

def notionRichTextContentLimit : Nat := 2000

def notionRichTextSentenceSplitLookback : Nat := 400

def sentenceEnd : Text := ['.', ' ']

def charLimitByteIndex (content : Text) (limit : Nat) : Nat :=
  match (charIndices content)[limit]? with
  | some (index, _) => index
  | none => byteLength content

/-- The last cut behind white space, which the first character does not count for. -/
def whitespaceSplitByte (t : Text) : Option Nat :=
  (charIndices t).reverse.findSome? fun (index, c) =>
    if isWhitespace c ∧ 0 < index then some (index + c.utf8Size) else none

def preferredNotionTextSplitByte (content : Text) : Option (Option Nat) := do
  let limitByte := charLimitByteIndex content notionRichTextContentLimit
  let (front, _) ← splitAtByte limitByte content
  let lookbackByte := charLimitByteIndex front
    (front.length - notionRichTextSentenceSplitLookback)
  let (_, lookback) ← splitAtByte lookbackByte front
  match rfind sentenceEnd lookback with
  | some index => return some (lookbackByte + index + byteLength sentenceEnd)
  | none => return whitespaceSplitByte front

/-- What a round of the loop takes off, and what it leaves. -/
def splitChunk (remaining : Text) : Option (Text × Text) := do
  let preferred ← preferredNotionTextSplitByte remaining
  splitAtByte (preferred.getD (charLimitByteIndex remaining notionRichTextContentLimit)) remaining

/-- The loop, in so many rounds; none where they do not suffice. -/
def splitRounds : Nat → Text → Option (List Text)
  | 0, _ => none
  | rounds + 1, remaining =>
      if remaining = [] then some []
      else if remaining.length ≤ notionRichTextContentLimit then some [remaining]
      else do
        let (chunk, rest) ← splitChunk remaining
        let chunks ← splitRounds rounds rest
        return chunk :: chunks

def splitNotionTextContent (rounds : Nat) (content : Text) : Option (List Text) :=
  if content = [] then some [[]] else splitRounds rounds content

/-! ## Cuts -/

theorem byteLength_append (front rest : Text) :
    byteLength (front ++ rest) = byteLength front + byteLength rest := by
  induction front with
  | nil => rw [List.nil_append, byteLength, Nat.zero_add]
  | cons c front ih => rw [List.cons_append, byteLength, byteLength, ih, Nat.add_assoc]

theorem splitAtByte_append (front rest : Text) :
    splitAtByte (byteLength front) (front ++ rest) = some (front, rest) := by
  induction front with
  | nil => rw [byteLength, splitAtByte, List.nil_append]
  | cons c front ih =>
      have hpos := c.utf8Size_pos
      obtain ⟨n, hn⟩ : ∃ n, c.utf8Size + byteLength front = n + 1 :=
        Nat.exists_eq_succ_of_ne_zero (by omega)
      rw [byteLength, hn, List.cons_append, splitAtByte, if_pos (by omega), ← hn,
        Nat.add_sub_cancel_left, ih]
      rfl

/-- A place in a text: what stands before it, in bytes. -/
def IsCut (t : Text) (index : Nat) : Prop := ∃ front rest, t = front ++ rest ∧
  index = byteLength front

theorem mem_charIndicesFrom {offset index : Nat} {c : Char} {t : Text}
    (h : (index, c) ∈ charIndicesFrom offset t) :
    ∃ front rest, t = front ++ c :: rest ∧ index = offset + byteLength front := by
  induction t generalizing offset with
  | nil => exact nomatch h
  | cons d t ih =>
      obtain h | h := List.mem_cons.mp h
      · cases h
        exact ⟨[], t, rfl, rfl⟩
      · obtain ⟨front, rest, rfl, rfl⟩ := ih h
        exact ⟨d :: front, rest, rfl, by rw [byteLength, Nat.add_assoc]⟩

theorem charIndicesFrom_getElem? {offset : Nat} (front rest : Text) (c : Char) :
    (charIndicesFrom offset (front ++ c :: rest))[front.length]? =
      some (offset + byteLength front, c) := by
  induction front generalizing offset with
  | nil => rfl
  | cons d front ih =>
      rw [List.cons_append, charIndicesFrom, List.length_cons, List.getElem?_cons_succ, ih,
        byteLength, Nat.add_assoc]

theorem length_charIndicesFrom (offset : Nat) (t : Text) :
    (charIndicesFrom offset t).length = t.length := by
  induction t generalizing offset with
  | nil => rfl
  | cons c t ih => rw [charIndicesFrom, List.length_cons, List.length_cons, ih]

/-- The index of a number of characters is that of the text they make. -/
theorem charLimitByteIndex_eq (content : Text) (limit : Nat) :
    charLimitByteIndex content limit = byteLength (content.take limit) := by
  rw [charLimitByteIndex, charIndices]
  by_cases hlimit : limit < content.length
  · have hsplit := List.take_append_drop limit content
    rw [List.drop_eq_getElem_cons hlimit] at hsplit
    have hindex := @charIndicesFrom_getElem? 0 (content.take limit)
      (content.drop (limit + 1)) content[limit]
    rw [hsplit, List.length_take_of_le hlimit.le, Nat.zero_add] at hindex
    rw [hindex]
  · have hlimit := Nat.not_lt.mp hlimit
    rw [List.getElem?_eq_none ((length_charIndicesFrom 0 content).le.trans hlimit),
      List.take_of_length_le hlimit]

theorem splitAtByte_charLimit (content : Text) (limit : Nat) :
    splitAtByte (charLimitByteIndex content limit) content =
      some (content.take limit, content.drop limit) := by
  have hsplit := splitAtByte_append (content.take limit) (content.drop limit)
  rw [List.take_append_drop] at hsplit
  rw [charLimitByteIndex_eq, hsplit]

/-- A pattern is found where it stands. -/
theorem rfindFrom_eq_some {pattern t : Text} {offset index : Nat}
    (h : rfindFrom pattern offset t = some index) :
    ∃ front rest, t = front ++ pattern ++ rest ∧ index = offset + byteLength front := by
  induction t generalizing offset with
  | nil =>
      rw [rfindFrom] at h
      by_cases hpattern : pattern = []
      · rw [if_pos hpattern] at h
        cases h
        exact ⟨[], [], by rw [hpattern]; rfl, rfl⟩
      · rw [if_neg hpattern] at h
        exact nomatch h
  | cons c t ih =>
      rw [rfindFrom] at h
      cases hrest : rfindFrom pattern (offset + c.utf8Size) t with
      | some found =>
          rw [hrest] at h
          cases h
          obtain ⟨front, rest, rfl, rfl⟩ := ih hrest
          exact ⟨c :: front, rest, rfl, by rw [byteLength, Nat.add_assoc]⟩
      | none =>
          rw [hrest] at h
          dsimp only at h
          by_cases hprefix : pattern.isPrefixOf (c :: t) = true
          · rw [if_pos hprefix] at h
            cases h
            obtain ⟨rest, hrest⟩ := List.isPrefixOf_iff_prefix.mp hprefix
            exact ⟨[], rest, hrest.symm, rfl⟩
          · rw [if_neg hprefix] at h
            exact nomatch h

/-! ## Where texts are split -/

/-- A cut that leaves something on its left, and no more than fits. -/
def GoodCut (content : Text) (index : Nat) : Prop :=
  ∃ chunk rest, content = chunk ++ rest ∧ index = byteLength chunk ∧ chunk ≠ [] ∧
    chunk.length ≤ notionRichTextContentLimit

theorem whitespaceSplitByte_good {t : Text} {index : Nat}
    (h : whitespaceSplitByte t = some index) :
    ∃ front c rest, t = front ++ c :: rest ∧ index = byteLength (front ++ [c]) := by
  obtain ⟨⟨start, c⟩, hmem, hc⟩ := List.exists_of_findSome?_eq_some h
  obtain ⟨front, rest, rfl, rfl⟩ := mem_charIndicesFrom (List.mem_reverse.mp hmem)
  dsimp only at hc
  by_cases hspace : isWhitespace c ∧ 0 < 0 + byteLength front
  · rw [if_pos hspace] at hc
    cases hc
    refine ⟨front, c, rest, rfl, ?_⟩
    rw [byteLength_append, byteLength, byteLength, Nat.zero_add, Nat.add_zero]
  · rw [if_neg hspace] at hc
    exact nomatch hc

/-- Nothing that is preferred is a bad cut, and looking for it panics nowhere. -/
theorem exists_preferred (content : Text) :
    ∃ preferred, preferredNotionTextSplitByte content = some preferred ∧
      ∀ index ∈ preferred, GoodCut content index := by
  have hfront : (content.take notionRichTextContentLimit).length ≤ notionRichTextContentLimit :=
    List.length_take_le _ _
  have hcontent := List.take_append_drop notionRichTextContentLimit content
  rw [preferredNotionTextSplitByte]
  simp only [splitAtByte_charLimit, Option.bind_eq_bind, Option.bind_some]
  generalize content.take notionRichTextContentLimit = front at hfront hcontent ⊢
  generalize front.length - notionRichTextSentenceSplitLookback = skipped
  have hsplit := List.take_append_drop skipped front
  cases hfind : rfind sentenceEnd (front.drop skipped) with
  | some index =>
      refine ⟨_, rfl, fun index' hindex => ?_⟩
      cases hindex
      obtain ⟨before, rest, hlookback, rfl⟩ := rfindFrom_eq_some hfind
      rw [hlookback] at hsplit
      refine ⟨front.take skipped ++ (before ++ sentenceEnd),
        rest ++ content.drop notionRichTextContentLimit, ?_, ?_, ?_, ?_⟩
      · rw [← List.append_assoc, List.append_assoc _ _ rest, hsplit, hcontent]
      · rw [byteLength_append, byteLength_append, charLimitByteIndex_eq, Nat.zero_add,
          Nat.add_assoc]
      · intro hnil
        exact nomatch (List.append_eq_nil_iff.mp (List.append_eq_nil_iff.mp hnil).2).2
      · have hlength := congrArg List.length hsplit
        simp only [List.length_append] at hlength ⊢
        omega
  | none =>
      refine ⟨_, rfl, fun index hindex => ?_⟩
      obtain ⟨before, c, rest, hpart, rfl⟩ := whitespaceSplitByte_good hindex
      refine ⟨before ++ [c], rest ++ content.drop notionRichTextContentLimit, ?_, rfl,
        List.append_ne_nil_of_right_ne_nil _ (List.cons_ne_nil _ _), ?_⟩
      · rw [hpart, List.append_assoc, List.cons_append] at hcontent
        rw [List.append_assoc, List.singleton_append, hcontent]
      · refine le_trans ?_ hfront
        rw [hpart, List.length_append, List.length_append, List.length_singleton,
          List.length_cons]
        omega

/-- The cut of a round. -/
theorem exists_splitChunk {content : Text}
    (hlong : notionRichTextContentLimit < content.length) :
    ∃ chunk rest, splitChunk content = some (chunk, rest) ∧ content = chunk ++ rest ∧
      chunk ≠ [] ∧ chunk.length ≤ notionRichTextContentLimit := by
  obtain ⟨preferred, hpreferred, hgood⟩ := exists_preferred content
  rw [splitChunk, hpreferred, Option.bind_eq_bind, Option.bind_some]
  cases preferred with
  | some index =>
      obtain ⟨chunk, rest, rfl, rfl, hne, hlength⟩ := hgood index rfl
      exact ⟨chunk, rest, splitAtByte_append chunk rest, rfl, hne, hlength⟩
  | none =>
      refine ⟨_, _, splitAtByte_charLimit content notionRichTextContentLimit,
        (List.take_append_drop _ _).symm, ?_, List.length_take_le _ _⟩
      intro hnil
      have hzero := congrArg List.length hnil
      rw [List.length_take_of_le hlong.le] at hzero
      exact nomatch hzero

/-! ## Chunks -/

theorem splitRounds_mono {rounds rounds' : Nat} {content : Text} {chunks : List Text}
    (hle : rounds ≤ rounds') (h : splitRounds rounds content = some chunks) :
    splitRounds rounds' content = some chunks := by
  induction rounds generalizing rounds' content chunks with
  | zero => exact nomatch h
  | succ rounds ih =>
      obtain ⟨more, rfl⟩ : ∃ more, rounds' = more + 1 := Nat.exists_eq_succ_of_ne_zero (by omega)
      rw [splitRounds] at h ⊢
      by_cases hnil : content = []
      · rw [if_pos hnil] at h ⊢
        exact h
      rw [if_neg hnil] at h ⊢
      by_cases hshort : content.length ≤ notionRichTextContentLimit
      · rw [if_pos hshort] at h ⊢
        exact h
      rw [if_neg hshort] at h ⊢
      obtain ⟨cut, hcut, h⟩ := Option.bind_eq_some_iff.mp h
      obtain ⟨chunks, hchunks, h⟩ := Option.bind_eq_some_iff.mp h
      refine Option.bind_eq_some_iff.mpr ⟨cut, hcut, ?_⟩
      exact Option.bind_eq_some_iff.mpr ⟨chunks, ih (Nat.le_of_succ_le_succ hle) hchunks, h⟩

theorem splitRounds_of_length {rounds : Nat} {content : Text} (h : content.length < rounds) :
    ∃ chunks, splitRounds rounds content = some chunks ∧ chunks.flatten = content ∧
      ∀ chunk ∈ chunks, chunk ≠ [] ∧ chunk.length ≤ notionRichTextContentLimit := by
  induction rounds generalizing content with
  | zero => exact nomatch h
  | succ rounds ih =>
      rw [splitRounds]
      by_cases hnil : content = []
      · rw [if_pos hnil]
        exact ⟨[], rfl, hnil.symm, fun chunk hmem => nomatch hmem⟩
      rw [if_neg hnil]
      by_cases hshort : content.length ≤ notionRichTextContentLimit
      · rw [if_pos hshort]
        refine ⟨[content], rfl, List.append_nil _, fun chunk hmem => ?_⟩
        rw [List.mem_singleton.mp hmem]
        exact ⟨hnil, hshort⟩
      rw [if_neg hshort]
      obtain ⟨chunk, rest, hcut, rfl, hne, hlength⟩ := exists_splitChunk (Nat.not_le.mp hshort)
      have hpos := List.length_pos_iff.mpr hne
      rw [List.length_append] at h
      obtain ⟨chunks, hchunks, hflatten, hall⟩ := @ih rest (by omega)
      refine ⟨chunk :: chunks, ?_, by rw [List.flatten_cons, hflatten], ?_⟩
      · refine Option.bind_eq_some_iff.mpr ⟨(chunk, rest), hcut, ?_⟩
        exact Option.bind_eq_some_iff.mpr ⟨chunks, hchunks, rfl⟩
      · exact List.forall_mem_cons.mpr ⟨⟨hne, hlength⟩, hall⟩

/-- A text is split into chunks, in as many rounds as it has characters and one more, without
a slice inside a character: they make the text, none of a text that is not empty is empty,
and none is too long. -/
theorem splitNotionTextContent_lossless (content : Text) :
    ∃ chunks, (∀ rounds > content.length, splitNotionTextContent rounds content = some chunks) ∧
      chunks.flatten = content ∧
      (content ≠ [] → ∀ chunk ∈ chunks, chunk ≠ []) ∧
      ∀ chunk ∈ chunks, chunk.length ≤ 2000 := by
  by_cases hnil : content = []
  · refine ⟨[[]], fun rounds _ => if_pos hnil, hnil.symm, fun hne => absurd hnil hne,
      fun chunk hmem => ?_⟩
    rw [List.mem_singleton.mp hmem]
    exact Nat.zero_le _
  · obtain ⟨chunks, hchunks, hflatten, hall⟩ := splitRounds_of_length (Nat.lt_succ_self content.length)
    refine ⟨chunks, fun rounds hrounds => ?_, hflatten, fun _ chunk hmem => (hall chunk hmem).1,
      fun chunk hmem => (hall chunk hmem).2⟩
    rw [splitNotionTextContent, if_neg hnil]
    exact splitRounds_mono (Nat.succ_le_of_lt hrounds) hchunks

end Locality.Notion
