/-
  Core/Text.lean --- the string operations of the Rust standard library that the
  modelled code calls, over texts as lists of characters.

  A `Text` is the sequence of Unicode scalar values of a `str`.  Byte offsets
  never escape the functions below, so positions count characters throughout.
  Each operation keeps the name and the documented behaviour of its `str`
  counterpart; whitespace is the Unicode `White_Space` property, as it is for
  `char::is_whitespace`.
-/
import Locality.Foundation.Lines
import Mathlib.Data.List.DropRight

set_option autoImplicit false

namespace Locality.Core

open Locality.Foundation

/-- A text: the characters of a `str`. -/
abbrev Text : Type := List Char

instance : LawfulBEq Text := inferInstance

/-! ## Characters -/

/-- `char::is_whitespace`. -/
def isWhitespace (c : Char) : Bool :=
  let n := c.toNat
  (9 ≤ n && n ≤ 13) || n == 0x20 || n == 0x85 || n == 0xA0 || n == 0x1680 ||
    (0x2000 ≤ n && n ≤ 0x200A) || n == 0x2028 || n == 0x2029 || n == 0x202F ||
    n == 0x205F || n == 0x3000

/-- `char::is_ascii_digit`. -/
def isAsciiDigit (c : Char) : Bool := '0' ≤ c && c ≤ '9'

/-- `to_ascii_lowercase`. -/
def toAsciiLowercase (t : Text) : Text :=
  t.map fun c => if 'A' ≤ c && c ≤ 'Z' then Char.ofNat (c.toNat + 32) else c

/-! ## Trimming -/

/-- `str::trim_start`. -/
def trimStart (t : Text) : Text := t.dropWhile isWhitespace

/-- `str::trim_end`. -/
def trimEnd (t : Text) : Text := t.rdropWhile isWhitespace

/-- `str::trim`. -/
def trim (t : Text) : Text := trimEnd (trimStart t)

/-- `str::trim_end_matches` with a character. -/
def trimEndMatches (c : Char) (t : Text) : Text := t.rdropWhile (· == c)

/-! ## Prefixes, suffixes and occurrences -/

/-- `str::starts_with`. -/
def startsWith (t pattern : Text) : Bool := pattern.isPrefixOf t

/-- `str::ends_with`. -/
def endsWith (t pattern : Text) : Bool := pattern.isSuffixOf t

/-- `str::strip_prefix`. -/
def stripPrefix (t pattern : Text) : Option Text :=
  if pattern.isPrefixOf t then some (t.drop pattern.length) else none

/-- `str::strip_suffix` with a character. -/
def stripSuffixChar (c : Char) (t : Text) : Option Text :=
  if t.getLast? = some c then some t.dropLast else none

/-- `str::split_once`: the text before and after the first occurrence of the
pattern.  `str::find` is its first component's length. -/
def splitOnce (pattern : Text) : Text → Option (Text × Text)
  | [] => if pattern.isEmpty then some ([], []) else none
  | c :: cs =>
      if pattern.isPrefixOf (c :: cs) then some ([], (c :: cs).drop pattern.length)
      else (splitOnce pattern cs).map fun p => (c :: p.1, p.2)

/-- `str::contains`. -/
def containsText (t pattern : Text) : Bool := (splitOnce pattern t).isSome

theorem splitOnce_eq_some {pattern t before after : Text}
    (h : splitOnce pattern t = some (before, after)) : t = before ++ pattern ++ after := by
  induction t generalizing before after with
  | nil =>
      unfold splitOnce at h
      split at h
      · rename_i hempty
        rw [List.isEmpty_iff] at hempty
        simp_all
      · simp at h
  | cons c cs ih =>
      unfold splitOnce at h
      split at h
      · rename_i hprefix
        obtain ⟨rest, hrest⟩ := List.isPrefixOf_iff_prefix.mp hprefix
        simp only [Option.some.injEq, Prod.mk.injEq] at h
        obtain ⟨rfl, rfl⟩ := h
        rw [← hrest]
        simp
      · cases hcs : splitOnce pattern cs with
        | none => simp [hcs] at h
        | some p =>
            obtain ⟨b, a⟩ := p
            simp only [hcs, Option.map_some, Option.some.injEq, Prod.mk.injEq] at h
            obtain ⟨rfl, rfl⟩ := h
            simpa using ih hcs

theorem containsText_iff_isInfix {t pattern : Text} :
    containsText t pattern = true ↔ pattern <:+: t := by
  unfold containsText
  constructor
  · intro h
    obtain ⟨⟨before, after⟩, hsplit⟩ := Option.isSome_iff_exists.mp h
    exact ⟨before, after, (splitOnce_eq_some hsplit).symm⟩
  · rintro ⟨before, after, rfl⟩
    induction before with
    | nil =>
        cases hcase : pattern ++ after with
        | nil =>
            obtain ⟨rfl, rfl⟩ := List.append_eq_nil_iff.mp hcase
            rfl
        | cons c cs =>
            have hprefix : pattern.isPrefixOf (c :: cs) = true :=
              List.isPrefixOf_iff_prefix.mpr ⟨after, hcase⟩
            simp [splitOnce, hcase, hprefix]
    | cons c before ih =>
        simp only [List.cons_append, splitOnce]
        split
        · rfl
        · simpa using ih

/-! ## Lines -/

/-- `str::split_inclusive('\n')`. -/
def splitLines (t : Text) : List Text := splitInclusive '\n' t

/-- The ending that `str::lines` removes: a line feed and one carriage return
before it. -/
def stripLineEnding (line : Text) : Text :=
  match stripSuffixChar '\n' line with
  | none => line
  | some stripped =>
      match stripSuffixChar '\r' stripped with
      | none => stripped
      | some shorter => shorter

theorem stripSuffixChar_append (c : Char) (t : Text) : stripSuffixChar c (t ++ [c]) = some t := by
  simp [stripSuffixChar]

theorem stripSuffixChar_eq_some {c : Char} {t front : Text}
    (h : stripSuffixChar c t = some front) : t = front ++ [c] := by
  unfold stripSuffixChar at h
  split at h
  · rename_i hlast
    injection h with hfront
    rw [← hfront]
    exact (List.dropLast_append_getLast? c hlast).symm
  · cases h

theorem stripSuffixChar_of_not_mem {c : Char} {t : Text} (h : c ∉ t) :
    stripSuffixChar c t = none := by
  unfold stripSuffixChar
  split
  · rename_i hlast
    exact absurd (List.mem_of_getLast? hlast) h
  · rfl

theorem stripLineEnding_append_newline (word : Text) :
    stripLineEnding (word ++ ['\n']) =
      match stripSuffixChar '\r' word with
      | none => word
      | some shorter => shorter := by
  simp only [stripLineEnding, stripSuffixChar_append]

/-- `str::lines`. -/
def lines (t : Text) : List Text := (splitLines t).map stripLineEnding

theorem flatten_splitLines (t : Text) : (splitLines t).flatten = t :=
  flatten_splitInclusive '\n' t

theorem wellLined_splitLines (t : Text) : WellLined '\n' (splitLines t) :=
  wellLined_splitInclusive '\n' t

theorem splitLines_flatten {ls : List Text} (h : WellLined '\n' ls) :
    splitLines ls.flatten = ls :=
  splitInclusive_flatten h

/-- `[T]::join` with a separator. -/
def join (separator : Text) : List Text → Text
  | [] => []
  | [line] => line
  | line :: rest => line ++ separator ++ join separator rest

end Locality.Core
