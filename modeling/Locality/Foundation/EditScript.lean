/-
  Foundation/EditScript.lean --- edit scripts over a base sequence, and what it
  means to apply one.

  A `Change` replaces the base range `[baseStart, baseEnd)`; an insertion has an
  empty range.  A script is a list of changes from left to right which pairwise
  neither overlap nor touch (`ScriptFrom`), and `applyFrom` writes the base range
  of a script out with its changes made.

  `scriptOfPairs` turns an alignment of two sequences into a script.  Its two
  properties are that the script is well formed and that applying it to the base
  gives the edited sequence back, so nothing the edit did is lost in the script.
-/
import Locality.Foundation.Lcs

set_option autoImplicit false

namespace Locality.Foundation

variable {α : Type}

/-! ## Ranges of a sequence -/

/-- The elements at the positions `[start, stop)`. -/
def slice (xs : List α) (start stop : Nat) : List α :=
  (xs.take stop).drop start

@[simp] theorem slice_self (xs : List α) (i : Nat) : slice xs i i = [] := by
  simp [slice]

theorem slice_append_slice (xs : List α) {i j k : Nat} (hij : i ≤ j) (hjk : j ≤ k) :
    slice xs i j ++ slice xs j k = slice xs i k := by
  have hsplit : xs.take k = xs.take j ++ slice xs j k := by
    have h := List.take_append_drop j (xs.take k)
    rw [List.take_take, Nat.min_eq_left hjk] at h
    exact h.symm
  by_cases hj : j ≤ xs.length
  · calc slice xs i j ++ slice xs j k
        = (xs.take j ++ slice xs j k).drop i := by
          rw [List.drop_append_of_le_length (by simp; omega)]; rfl
      _ = slice xs i k := by rw [← hsplit]; rfl
  · have hlen : xs.length ≤ j := by omega
    have hleft : xs.take j = xs := List.take_of_length_le hlen
    have hright : xs.take k = xs := List.take_of_length_le (by omega)
    simp [slice, hleft, hright, List.drop_eq_nil_of_le hlen]

theorem slice_length (xs : List α) (i : Nat) : slice xs i xs.length = xs.drop i := by
  simp [slice]

theorem slice_append_drop (xs : List α) {i j : Nat} (hij : i ≤ j) :
    slice xs i j ++ xs.drop j = xs.drop i := by
  by_cases hj : j ≤ xs.length
  · rw [← slice_length, ← slice_length, slice_append_slice xs hij hj]
  · have hlen : xs.length ≤ j := by omega
    simp [slice, List.take_of_length_le hlen, List.drop_eq_nil_of_le hlen]

theorem slice_succ_of_getElem? {xs : List α} {i : Nat} {x : α} (h : xs[i]? = some x) :
    slice xs i (i + 1) = [x] := by
  obtain ⟨hi, rfl⟩ := List.getElem?_eq_some_iff.mp h
  simp [slice, List.take_add_one, Nat.min_eq_left (Nat.le_of_lt hi)]

theorem mem_of_mem_slice {xs : List α} {i j : Nat} {x : α} (h : x ∈ slice xs i j) :
    x ∈ xs :=
  List.mem_of_mem_take (List.mem_of_mem_drop h)

theorem slice_ne_nil_of_lt {xs : List α} {i j : Nat} (hij : i < j) (hj : j ≤ xs.length) :
    slice xs i j ≠ [] := by
  intro h
  have hlen := congrArg List.length h
  simp [slice] at hlen
  omega

/-! ## Changes and scripts -/

/-- Replace the base range `[baseStart, baseEnd)` by `replacement`. -/
structure Change (α : Type) where
  baseStart : Nat
  baseEnd : Nat
  replacement : List α
  deriving DecidableEq, Repr

namespace Change

/-- The two ranges overlap, or one ends where the other starts. -/
def Touches (c d : Change α) : Prop :=
  c.baseStart ≤ d.baseEnd ∧ d.baseStart ≤ c.baseEnd

theorem Touches.symm {c d : Change α} (h : c.Touches d) : d.Touches c :=
  ⟨h.2, h.1⟩

/-- The change removes or inserts something. -/
def Effective (c : Change α) : Prop :=
  c.baseStart < c.baseEnd ∨ c.replacement ≠ []

end Change

/-- A script over the base positions `[k, n]`: effective changes from left to
right, each starting strictly after the end of the one before. -/
def ScriptFrom (n : Nat) : Nat → List (Change α) → Prop
  | _, [] => True
  | k, c :: cs =>
      k ≤ c.baseStart ∧ c.baseStart ≤ c.baseEnd ∧ c.baseEnd ≤ n ∧ c.Effective ∧
        ScriptFrom n (c.baseEnd + 1) cs

theorem ScriptFrom.mono {n k k' : Nat} {cs : List (Change α)}
    (h : ScriptFrom n k cs) (hk : k' ≤ k) : ScriptFrom n k' cs := by
  cases cs with
  | nil => trivial
  | cons c cs => exact ⟨Nat.le_trans hk h.1, h.2⟩

theorem ScriptFrom.tail {n k : Nat} {c : Change α} {cs : List (Change α)}
    (h : ScriptFrom n k (c :: cs)) : ScriptFrom n (c.baseEnd + 1) cs :=
  h.2.2.2.2

theorem ScriptFrom.mem {n k : Nat} {cs : List (Change α)} (h : ScriptFrom n k cs)
    {c : Change α} (hc : c ∈ cs) :
    k ≤ c.baseStart ∧ c.baseStart ≤ c.baseEnd ∧ c.baseEnd ≤ n ∧ c.Effective := by
  induction cs generalizing k with
  | nil => simp at hc
  | cons d ds ih =>
      rcases List.mem_cons.mp hc with rfl | hds
      · exact ⟨h.1, h.2.1, h.2.2.1, h.2.2.2.1⟩
      · obtain ⟨h1, h2, h3, h4⟩ := ih h.tail hds
        have hd : k ≤ d.baseStart := h.1
        have hd' : d.baseStart ≤ d.baseEnd := h.2.1
        exact ⟨by omega, h2, h3, h4⟩

theorem ScriptFrom.le_baseStart {n k : Nat} {cs : List (Change α)}
    (h : ScriptFrom n k cs) : ∀ c ∈ cs, k ≤ c.baseStart :=
  fun _ hc => (h.mem hc).1

theorem ScriptFrom.append_right {n k : Nat} {cs ds : List (Change α)}
    (h : ScriptFrom n k (cs ++ ds)) : ScriptFrom n k ds := by
  induction cs generalizing k with
  | nil => exact h
  | cons c cs ih =>
      have hrest : ScriptFrom n (c.baseEnd + 1) ds := ih h.tail
      refine hrest.mono ?_
      have hstart : k ≤ c.baseStart := h.1
      have hend : c.baseStart ≤ c.baseEnd := h.2.1
      omega

/-! ## Applying a script -/

/-- The base range `[cursor, stop)` with the changes of the script made. -/
def applyFrom (base : List α) (cursor stop : Nat) : List (Change α) → List α
  | [] => slice base cursor stop
  | c :: cs =>
      slice base cursor c.baseStart ++ c.replacement ++ applyFrom base c.baseEnd stop cs

/-- The whole base with the changes of the script made. -/
def applyScript (base : List α) (cs : List (Change α)) : List α :=
  applyFrom base 0 base.length cs

/-- Base elements before the first change come out unchanged. -/
theorem applyFrom_skip (base : List α) {k cursor stop : Nat} {cs : List (Change α)}
    (h : ∀ c ∈ cs, k ≤ c.baseStart) (hcursor : cursor ≤ k) (hstop : k ≤ stop) :
    applyFrom base cursor stop cs = slice base cursor k ++ applyFrom base k stop cs := by
  cases cs with
  | nil => exact (slice_append_slice base hcursor hstop).symm
  | cons c cs =>
      simp only [applyFrom]
      rw [← slice_append_slice base hcursor (h c (by simp))]
      simp

/-- A script whose changes end by `m` and one whose changes start at `m` or later
are applied one after the other. -/
theorem applyFrom_append (base : List α) {cursor m stop : Nat}
    {cs ds : List (Change α)} (hcs : ∀ c ∈ cs, c.baseEnd ≤ m)
    (hds : ∀ d ∈ ds, m ≤ d.baseStart) (hcursor : cursor ≤ m) (hstop : m ≤ stop) :
    applyFrom base cursor stop (cs ++ ds) =
      applyFrom base cursor m cs ++ applyFrom base m stop ds := by
  induction cs generalizing cursor with
  | nil => exact applyFrom_skip base hds hcursor hstop
  | cons c cs ih =>
      have hc : c.baseEnd ≤ m := hcs c (by simp)
      have hrest := ih (fun d hd => hcs d (by simp [hd])) hc
      simp only [List.cons_append, applyFrom, hrest, List.append_assoc]

theorem applyFrom_ne_nil {base : List α} {cursor stop : Nat} {cs : List (Change α)}
    {c : Change α} (hc : c ∈ cs) (h : c.replacement ≠ []) :
    applyFrom base cursor stop cs ≠ [] := by
  induction cs generalizing cursor with
  | nil => simp at hc
  | cons d ds ih =>
      rcases List.mem_cons.mp hc with rfl | hds
      · simp [applyFrom, h]
      · simp [applyFrom, ih hds]

/-! ## From an alignment to a script -/

section FromPairs

variable [DecidableEq α]

/-- The change between two ranges, when there is one. -/
def changeBetween (base edited : List α)
    (baseStart baseEnd editedStart editedEnd : Nat) : List (Change α) :=
  if baseStart = baseEnd ∧ editedStart = editedEnd then []
  else if slice base baseStart baseEnd = slice edited editedStart editedEnd then []
  else [⟨baseStart, baseEnd, slice edited editedStart editedEnd⟩]

/-- The changes between consecutive aligned pairs, from the two cursors on. -/
def scriptOfPairs (base edited : List α) :
    Nat → Nat → List (Nat × Nat) → List (Change α)
  | baseCursor, editedCursor, [] =>
      changeBetween base edited baseCursor base.length editedCursor edited.length
  | baseCursor, editedCursor, (baseIndex, editedIndex) :: pairs =>
      changeBetween base edited baseCursor baseIndex editedCursor editedIndex ++
        scriptOfPairs base edited (baseIndex + 1) (editedIndex + 1) pairs

theorem changeBetween_cases (base edited : List α) (es ee : Nat) {bs be : Nat}
    (hbase : bs ≤ be) (hbe : be ≤ base.length) :
    (changeBetween base edited bs be es ee = [] ∧
        slice base bs be = slice edited es ee) ∨
      (changeBetween base edited bs be es ee = [⟨bs, be, slice edited es ee⟩] ∧
        (⟨bs, be, slice edited es ee⟩ : Change α).Effective) := by
  unfold changeBetween
  split
  · rename_i hempty
    obtain ⟨rfl, rfl⟩ := hempty
    exact Or.inl ⟨rfl, by simp⟩
  · split
    · rename_i heq
      exact Or.inl ⟨rfl, heq⟩
    · rename_i hne
      refine Or.inr ⟨rfl, ?_⟩
      by_cases hlt : bs < be
      · exact Or.inl hlt
      · have hbs : bs = be := by omega
        subst hbs
        exact Or.inr fun hnil => hne (by simp_all)

theorem scriptOfPairs_scriptFrom (base edited : List α) {pairs : List (Nat × Nat)}
    {bc ec : Nat} (hbc : bc ≤ base.length)
    (h : Aligned (fun x y => decide (x = y)) base edited bc ec pairs) :
    ScriptFrom base.length bc (scriptOfPairs base edited bc ec pairs) := by
  induction pairs generalizing bc ec with
  | nil =>
      simp only [scriptOfPairs]
      rcases changeBetween_cases base edited ec edited.length hbc
        (Nat.le_refl _) with ⟨hnil, _⟩ | ⟨hone, heff⟩
      · rw [hnil]; trivial
      · rw [hone]
        exact ⟨Nat.le_refl _, hbc, Nat.le_refl _, heff, trivial⟩
  | cons p pairs ih =>
      obtain ⟨b, e⟩ := p
      obtain ⟨hb, _, ⟨x, _, hx, _, _⟩, hrest⟩ := h
      have hblt : b < base.length := (List.getElem?_eq_some_iff.mp hx).1
      have hscript := ih hblt hrest
      simp only [scriptOfPairs]
      rcases changeBetween_cases base edited ec e hb
        (Nat.le_of_lt hblt) with ⟨hnil, _⟩ | ⟨hone, heff⟩
      · rw [hnil]
        exact hscript.mono (by omega)
      · rw [hone]
        exact ⟨Nat.le_refl _, hb, Nat.le_of_lt hblt, heff, hscript⟩

/-- Applying the script of an alignment gives the edited sequence back. -/
theorem applyFrom_scriptOfPairs (base edited : List α) {pairs : List (Nat × Nat)}
    {bc ec : Nat} (hbc : bc ≤ base.length) (hec : ec ≤ edited.length)
    (h : Aligned (fun x y => decide (x = y)) base edited bc ec pairs) :
    applyFrom base bc base.length (scriptOfPairs base edited bc ec pairs) =
      edited.drop ec := by
  induction pairs generalizing bc ec with
  | nil =>
      simp only [scriptOfPairs]
      rcases changeBetween_cases base edited ec edited.length hbc
        (Nat.le_refl _) with ⟨hnil, heq⟩ | ⟨hone, _⟩
      · rw [hnil, ← slice_length edited ec, ← heq, applyFrom]
      · rw [hone]
        simp [applyFrom, slice_length]
  | cons p pairs ih =>
      obtain ⟨b, e⟩ := p
      have haligned := h
      obtain ⟨hb, he, ⟨x, y, hx, hy, hxy⟩, hrest⟩ := h
      have heq : x = y := of_decide_eq_true hxy
      subst heq
      have hblt : b < base.length := (List.getElem?_eq_some_iff.mp hx).1
      have helt : e < edited.length := (List.getElem?_eq_some_iff.mp hy).1
      have hscript := scriptOfPairs_scriptFrom base edited
        (Nat.succ_le_of_lt hblt) hrest
      have htail : applyFrom base b base.length
          (scriptOfPairs base edited (b + 1) (e + 1) pairs) = edited.drop e := by
        rw [applyFrom_skip base hscript.le_baseStart (Nat.le_succ b) hblt,
          ih (Nat.succ_le_of_lt hblt) (Nat.succ_le_of_lt helt) hrest,
          slice_succ_of_getElem? hx, ← slice_succ_of_getElem? hy,
          slice_append_drop edited (Nat.le_succ e)]
      simp only [scriptOfPairs]
      rcases changeBetween_cases base edited ec e hb
        (Nat.le_of_lt hblt) with ⟨hnil, hslice⟩ | ⟨hone, _⟩
      · rw [hnil, List.nil_append,
          applyFrom_skip base (hscript.mono (Nat.le_succ b)).le_baseStart hb
            (Nat.le_of_lt hblt),
          hslice, htail, slice_append_drop edited he]
      · rw [hone]
        simp only [List.cons_append, List.nil_append, applyFrom, slice_self,
          List.nil_append, htail]
        exact slice_append_drop edited he

end FromPairs

end Locality.Foundation
