/-
  Foundation/Lcs.lean --- the greedy walk over a longest-common-subsequence
  table, for two sequences compared by an arbitrary Boolean relation.

  The table cell at `(i, j)` depends only on the two suffixes that start there,
  so `lcsLength` is that cell as a function of the suffixes.  `lcsWalk` is the
  walk every line or block diff makes over the table: take a pair as soon as the
  two heads are related, otherwise drop the head whose removal keeps the longer
  common subsequence, preferring the first sequence on a tie.

  Two facts are all that callers need.  The pairs of a walk are related and
  strictly increasing in both coordinates (`Aligned`), and a walk over two
  sequences that are related pointwise pairs every position with itself
  (`lcsWalk_of_forall₂`).
-/
import Mathlib.Data.List.Basic
import Mathlib.Data.List.Forall2
import Mathlib.Tactic.Common

set_option autoImplicit false

namespace Locality.Foundation

variable {α β : Type}

/-! ## The table -/

/-- One row of the table, given the row below it. -/
def lcsRow (related : α → β → Bool) (x : α) (below : List β → Nat) : List β → Nat
  | [] => 0
  | y :: ys =>
      if related x y then below ys + 1
      else max (below (y :: ys)) (lcsRow related x below ys)

/-- The table cell of two suffixes. -/
def lcsLength (related : α → β → Bool) : List α → List β → Nat
  | [] => fun _ => 0
  | x :: xs => lcsRow related x (lcsLength related xs)

/-! ## The walk -/

/-- The part of the walk that stays on one element `x` of the first sequence. -/
def lcsWalkRow (related : α → β → Bool) (x : α) (xs : List α) (i : Nat)
    (below : List β → Nat → List (Nat × Nat)) : List β → Nat → List (Nat × Nat)
  | [], _ => []
  | y :: ys, j =>
      if related x y then (i, j) :: below ys (j + 1)
      else if lcsLength related (x :: xs) ys ≤ lcsLength related xs (y :: ys) then
        below (y :: ys) j
      else lcsWalkRow related x xs i below ys (j + 1)

/-- The walk over two suffixes that start at the positions `i` and `j`. -/
def lcsWalk (related : α → β → Bool) :
    List α → Nat → List β → Nat → List (Nat × Nat)
  | [], _ => fun _ _ => []
  | x :: xs, i => lcsWalkRow related x xs i (lcsWalk related xs (i + 1))

@[simp] theorem lcsWalk_nil_left (related : α → β → Bool) (i : Nat) (ys : List β)
    (j : Nat) : lcsWalk related [] i ys j = [] := rfl

@[simp] theorem lcsWalk_nil_right (related : α → β → Bool) (xs : List α) (i j : Nat) :
    lcsWalk related xs i [] j = [] := by
  cases xs <;> rfl

theorem lcsWalk_cons_cons (related : α → β → Bool) (x : α) (xs : List α) (i : Nat)
    (y : β) (ys : List β) (j : Nat) :
    lcsWalk related (x :: xs) i (y :: ys) j =
      if related x y then (i, j) :: lcsWalk related xs (i + 1) ys (j + 1)
      else if lcsLength related (x :: xs) ys ≤ lcsLength related xs (y :: ys) then
        lcsWalk related xs (i + 1) (y :: ys) j
      else lcsWalk related (x :: xs) i ys (j + 1) := rfl

/-- The induction over a walk: its three moves. -/
theorem lcsWalk_induction (related : α → β → Bool)
    {motive : List α → Nat → List β → Nat → List (Nat × Nat) → Prop}
    (nil_left : ∀ i ys j, motive [] i ys j [])
    (nil_right : ∀ xs i j, motive xs i [] j [])
    (pair : ∀ x xs i y ys j ps, related x y = true →
      motive xs (i + 1) ys (j + 1) ps → motive (x :: xs) i (y :: ys) j ((i, j) :: ps))
    (drop_left : ∀ x xs i y ys j ps, motive xs (i + 1) (y :: ys) j ps →
      motive (x :: xs) i (y :: ys) j ps)
    (drop_right : ∀ x xs i y ys j ps, motive (x :: xs) i ys (j + 1) ps →
      motive (x :: xs) i (y :: ys) j ps)
    (xs : List α) (i : Nat) (ys : List β) (j : Nat) :
    motive xs i ys j (lcsWalk related xs i ys j) := by
  induction xs generalizing i ys j with
  | nil => exact nil_left i ys j
  | cons x xs ihx =>
      induction ys generalizing j with
      | nil => exact nil_right (x :: xs) i j
      | cons y ys ihy =>
          rw [lcsWalk_cons_cons]
          split
          · rename_i hrelated
            exact pair x xs i y ys j _ hrelated (ihx (i + 1) ys (j + 1))
          · split
            · exact drop_left x xs i y ys j _ (ihx (i + 1) (y :: ys) j)
            · exact drop_right x xs i y ys j _ (ihy (j + 1))

/-! ## What a walk returns -/

/-- Index pairs that increase strictly in both coordinates from `(i, j)`, each
pair naming related elements. -/
def Aligned (related : α → β → Bool) (xs : List α) (ys : List β) :
    Nat → Nat → List (Nat × Nat) → Prop
  | _, _, [] => True
  | i, j, (a, b) :: ps =>
      i ≤ a ∧ j ≤ b ∧ (∃ x y, xs[a]? = some x ∧ ys[b]? = some y ∧ related x y = true) ∧
        Aligned related xs ys (a + 1) (b + 1) ps

theorem Aligned.mono {related : α → β → Bool} {xs : List α} {ys : List β}
    {i j i' j' : Nat} {ps : List (Nat × Nat)} (h : Aligned related xs ys i j ps)
    (hi : i' ≤ i) (hj : j' ≤ j) : Aligned related xs ys i' j' ps := by
  cases ps with
  | nil => trivial
  | cons p ps => exact ⟨Nat.le_trans hi h.1, Nat.le_trans hj h.2.1, h.2.2⟩

/-- A walk over the suffixes of `us` and `vs` at `i` and `j` is aligned in `us`
and `vs`. -/
theorem lcsWalk_aligned (related : α → β → Bool) (us : List α) (vs : List β)
    (xs : List α) (i : Nat) (ys : List β) (j : Nat)
    (hxs : us.drop i = xs) (hys : vs.drop j = ys) :
    Aligned related us vs i j (lcsWalk related xs i ys j) := by
  have hdrop : ∀ {γ : Type} {l : List γ} {k : Nat} {c : γ} {cs : List γ},
      l.drop k = c :: cs → l[k]? = some c ∧ l.drop (k + 1) = cs := by
    intro γ l k c cs h
    refine ⟨?_, ?_⟩
    · have := congrArg List.head? h
      simpa [List.head?_drop] using this
    · rw [← List.tail_drop, h, List.tail_cons]
  refine lcsWalk_induction related
    (motive := fun xs i ys j ps =>
      us.drop i = xs → vs.drop j = ys → Aligned related us vs i j ps)
    ?_ ?_ ?_ ?_ ?_ xs i ys j hxs hys
  · intro _ _ _ _ _; trivial
  · intro _ _ _ _ _; trivial
  · intro x xs i y ys j ps hrelated ih hx hy
    obtain ⟨hgetx, hdropx⟩ := hdrop hx
    obtain ⟨hgety, hdropy⟩ := hdrop hy
    exact ⟨Nat.le_refl i, Nat.le_refl j, ⟨x, y, hgetx, hgety, hrelated⟩, ih hdropx hdropy⟩
  · intro x xs i y ys j ps ih hx hy
    exact (ih (hdrop hx).2 hy).mono (Nat.le_succ i) (Nat.le_refl j)
  · intro x xs i y ys j ps ih hx hy
    exact (ih hx (hdrop hy).2).mono (Nat.le_refl i) (Nat.le_succ j)

/-- Over pointwise related sequences the walk never leaves the diagonal. -/
theorem lcsWalk_of_forall₂ (related : α → β → Bool) {xs : List α} {ys : List β}
    (h : List.Forall₂ (fun x y => related x y = true) xs ys) (i j : Nat) :
    lcsWalk related xs i ys j =
      (List.range xs.length).map fun k => (i + k, j + k) := by
  induction h generalizing i j with
  | nil => rfl
  | @cons x y xs ys hxy hrest ih =>
      rw [lcsWalk_cons_cons, if_pos hxy, ih (i + 1) (j + 1), List.length_cons,
        List.range_succ_eq_map, List.map_cons, List.map_map]
      simp only [Nat.add_zero, List.cons.injEq, true_and]
      refine List.map_congr_left fun k _ => ?_
      simp only [Function.comp_apply, Prod.mk.injEq]
      omega

end Locality.Foundation
