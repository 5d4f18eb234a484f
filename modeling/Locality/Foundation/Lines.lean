/-
  Foundation/Lines.lean --- splitting a sequence after every terminator, and the
  shape of the list of lines that such a split produces.

  A body is cut after each terminator, the terminator staying with its line, so
  that only the last line can lack one.  `WellLined` is that shape.  The two
  directions that matter are `flatten_splitInclusive` (nothing is lost) and
  `splitInclusive_flatten` (a well-lined list is what its own text splits into),
  and together they let every later argument work on lines and never on
  positions.

  Nothing here mentions texts or characters: the alphabet and the terminator are
  parameters.
-/
import Mathlib.Algebra.GroupWithZero.Nat
import Mathlib.Data.List.Basic
import Mathlib.Data.List.Infix

set_option autoImplicit false

namespace Locality.Foundation

variable {α : Type}

/-! ## The shape of a list of lines -/

/-- A line that ends with the terminator and has it nowhere else. -/
def Terminated (nl : α) (line : List α) : Prop :=
  ∃ word, nl ∉ word ∧ line = word ++ [nl]

/-- A nonempty line without a terminator; it can only stand last. -/
def Unterminated (nl : α) (line : List α) : Prop :=
  line ≠ [] ∧ nl ∉ line

/-- Every line but the last is terminated, and the last is not empty. -/
def WellLined (nl : α) : List (List α) → Prop
  | [] => True
  | [line] => Terminated nl line ∨ Unterminated nl line
  | line :: next :: lines => Terminated nl line ∧ WellLined nl (next :: lines)

theorem Terminated.ne_nil {nl : α} {line : List α} (h : Terminated nl line) :
    line ≠ [] := by
  obtain ⟨word, _, rfl⟩ := h
  simp

theorem Terminated.cons {nl c : α} {line : List α} (hc : c ≠ nl)
    (h : Terminated nl line) : Terminated nl (c :: line) := by
  obtain ⟨word, hword, rfl⟩ := h
  exact ⟨c :: word, by simp [hword, Ne.symm hc], rfl⟩

theorem terminated_singleton (nl : α) : Terminated nl [nl] :=
  ⟨[], by simp, rfl⟩

theorem WellLined.tail {nl : α} {line : List α} {lines : List (List α)}
    (h : WellLined nl (line :: lines)) : WellLined nl lines := by
  cases lines with
  | nil => trivial
  | cons next rest => exact h.2

theorem WellLined.cons_of_terminated {nl : α} {line : List α}
    {lines : List (List α)} (hline : Terminated nl line)
    (hlines : WellLined nl lines) : WellLined nl (line :: lines) := by
  cases lines with
  | nil => exact Or.inl hline
  | cons next rest => exact ⟨hline, hlines⟩

/-- A line followed by another one is terminated. -/
theorem WellLined.terminated_of_cons_cons {nl : α} {line next : List α}
    {lines : List (List α)} (h : WellLined nl (line :: next :: lines)) :
    Terminated nl line := h.1

theorem WellLined.line_cases {nl : α} {lines : List (List α)}
    (h : WellLined nl lines) {line : List α} (hline : line ∈ lines) :
    Terminated nl line ∨ Unterminated nl line := by
  induction lines with
  | nil => simp at hline
  | cons head rest ih =>
      cases rest with
      | nil =>
          have hhead : line = head := by simpa using hline
          subst hhead
          exact h
      | cons next rest =>
          rcases List.mem_cons.mp hline with rfl | hrest
          · exact Or.inl h.1
          · exact ih h.2 hrest

theorem WellLined.ne_nil {nl : α} {lines : List (List α)}
    (h : WellLined nl lines) {line : List α} (hline : line ∈ lines) :
    line ≠ [] := by
  rcases h.line_cases hline with hterm | huntil
  · exact hterm.ne_nil
  · exact huntil.1

/-! ## Joining lists of lines -/

/-- Every line of the list is terminated. -/
def AllTerminated (nl : α) (lines : List (List α)) : Prop :=
  ∀ line ∈ lines, Terminated nl line

theorem AllTerminated.wellLined_append {nl : α} {left right : List (List α)}
    (hleft : AllTerminated nl left) (hright : WellLined nl right) :
    WellLined nl (left ++ right) := by
  induction left with
  | nil => exact hright
  | cons line rest ih =>
      exact WellLined.cons_of_terminated (hleft line (by simp))
        (ih fun other hother => hleft other (by simp [hother]))

theorem AllTerminated.append {nl : α} {left right : List (List α)}
    (hleft : AllTerminated nl left) (hright : AllTerminated nl right) :
    AllTerminated nl (left ++ right) := by
  intro line hline
  rcases List.mem_append.mp hline with h | h
  · exact hleft line h
  · exact hright line h

/-- What stands before a nonempty rest is terminated throughout. -/
theorem WellLined.allTerminated_of_append {nl : α} {left right : List (List α)}
    (h : WellLined nl (left ++ right)) (hright : right ≠ []) :
    AllTerminated nl left := by
  induction left with
  | nil => intro line hline; simp at hline
  | cons head rest ih =>
      have hrest : WellLined nl (rest ++ right) := h.tail
      have hhead : Terminated nl head := by
        cases hcase : rest ++ right with
        | nil => simp [hright] at hcase
        | cons next lines =>
            rw [List.cons_append, hcase] at h
            exact h.terminated_of_cons_cons
      intro line hline
      rcases List.mem_cons.mp hline with rfl | hline
      · exact hhead
      · exact ih hrest line hline

theorem WellLined.append_left {nl : α} {left right : List (List α)}
    (h : WellLined nl (left ++ right)) : WellLined nl left := by
  by_cases hright : right = []
  · subst hright
    simpa using h
  · have hnil : WellLined nl ([] : List (List α)) := trivial
    simpa using (h.allTerminated_of_append hright).wellLined_append hnil

theorem WellLined.append_right {nl : α} {left right : List (List α)}
    (h : WellLined nl (left ++ right)) : WellLined nl right := by
  induction left with
  | nil => exact h
  | cons line rest ih => exact ih h.tail

section Cutting

variable [DecidableEq α]

/-! ## Cutting after a terminator -/

/-- Cut a sequence after every `nl`, keeping the terminator with its line. -/
def splitInclusive (nl : α) : List α → List (List α)
  | [] => []
  | c :: cs =>
      if c = nl then [c] :: splitInclusive nl cs
      else
        match splitInclusive nl cs with
        | [] => [[c]]
        | line :: lines => (c :: line) :: lines

@[simp] theorem splitInclusive_nil (nl : α) : splitInclusive nl [] = [] := rfl

theorem splitInclusive_cons_terminator (nl : α) (cs : List α) :
    splitInclusive nl (nl :: cs) = [nl] :: splitInclusive nl cs := by
  simp [splitInclusive]

/-- Cutting loses nothing. -/
theorem flatten_splitInclusive (nl : α) (text : List α) :
    (splitInclusive nl text).flatten = text := by
  induction text with
  | nil => rfl
  | cons c cs ih =>
      unfold splitInclusive
      split
      · simp [ih]
      · split
        · rename_i hnil
          rw [hnil] at ih
          simpa using ih
        · rename_i line lines hcons
          rw [hcons] at ih
          simpa using ih

theorem wellLined_splitInclusive (nl : α) (text : List α) :
    WellLined nl (splitInclusive nl text) := by
  induction text with
  | nil => trivial
  | cons c cs ih =>
      unfold splitInclusive
      split
      · rename_i hc
        subst hc
        exact WellLined.cons_of_terminated (terminated_singleton c) ih
      · rename_i hc
        split
        · exact Or.inr ⟨by simp, by simpa using Ne.symm hc⟩
        · rename_i line lines hcons
          rw [hcons] at ih
          cases lines with
          | nil =>
              rcases ih with hterm | ⟨_, huntil⟩
              · exact Or.inl (hterm.cons hc)
              · exact Or.inr ⟨by simp, by simp [huntil, Ne.symm hc]⟩
          | cons next rest => exact ⟨ih.1.cons hc, ih.2⟩

theorem splitInclusive_terminated_append {nl : α} {line : List α}
    (h : Terminated nl line) (text : List α) :
    splitInclusive nl (line ++ text) = line :: splitInclusive nl text := by
  obtain ⟨word, hword, rfl⟩ := h
  induction word with
  | nil => simp [splitInclusive]
  | cons c cs ih =>
      have hc : c ≠ nl := fun heq => hword (by simp [heq])
      have hcs : nl ∉ cs := fun hmem => hword (by simp [hmem])
      have htail : splitInclusive nl (cs ++ [nl] ++ text) =
          (cs ++ [nl]) :: splitInclusive nl text := ih hcs
      rw [List.cons_append, List.cons_append, splitInclusive, if_neg hc, htail]

theorem splitInclusive_unterminated {nl : α} {line : List α}
    (h : Unterminated nl line) : splitInclusive nl line = [line] := by
  obtain ⟨hne, hnl⟩ := h
  induction line with
  | nil => exact absurd rfl hne
  | cons c cs ih =>
      have hc : c ≠ nl := fun heq => hnl (by simp [heq])
      have hcs : nl ∉ cs := fun hmem => hnl (by simp [hmem])
      rw [splitInclusive, if_neg hc]
      cases cs with
      | nil => simp
      | cons d ds => rw [ih (by simp) hcs]

/-- A well-lined list is what its own text splits into. -/
theorem splitInclusive_flatten {nl : α} {lines : List (List α)}
    (h : WellLined nl lines) : splitInclusive nl lines.flatten = lines := by
  induction lines with
  | nil => rfl
  | cons line rest ih =>
      have hrest : splitInclusive nl rest.flatten = rest := ih h.tail
      cases rest with
      | nil =>
          rcases h with hterm | huntil
          · simpa using splitInclusive_terminated_append hterm []
          · simpa using splitInclusive_unterminated huntil
      | cons next rest =>
          rw [List.flatten_cons, splitInclusive_terminated_append h.1, hrest]

theorem splitInclusive_injective (nl : α) :
    Function.Injective (splitInclusive nl) := by
  intro left right hsplit
  rw [← flatten_splitInclusive nl left, ← flatten_splitInclusive nl right, hsplit]

/-- What ends with a terminator is cut into terminated lines only. -/
theorem allTerminated_splitInclusive (nl : α) (text : List α) :
    AllTerminated nl (splitInclusive nl (text ++ [nl])) := by
  induction text with
  | nil =>
      intro line hline
      have heq : line = [nl] := by simpa [splitInclusive] using hline
      exact heq ▸ terminated_singleton nl
  | cons c text ih =>
      rw [List.cons_append, splitInclusive]
      by_cases hc : c = nl
      · rw [if_pos hc]
        intro line hline
        obtain rfl | hline := List.mem_cons.mp hline
        · exact hc ▸ terminated_singleton nl
        · exact ih line hline
      · rw [if_neg hc]
        cases hrest : splitInclusive nl (text ++ [nl]) with
        | nil =>
            have hflat := flatten_splitInclusive nl (text ++ [nl])
            rw [hrest] at hflat
            simp at hflat
        | cons first rest =>
            rw [hrest] at ih
            intro line hline
            obtain rfl | hline := List.mem_cons.mp hline
            · exact (ih first (by simp)).cons hc
            · exact ih line (by simp [hline])

end Cutting

end Locality.Foundation
