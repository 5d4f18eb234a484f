/-
  Foundation/OrderFree.lean --- results that do not depend on the order of what they are
  computed from.

  A fold whose steps commute is one fold for all orders; a list sorted by a rank that
  tells its members apart is one list for all orders.
-/
import Mathlib.Data.List.Forall2
import Mathlib.Data.List.Sort
import Mathlib.Tactic.Common

set_option autoImplicit false

namespace Locality.Foundation

variable {α σ : Type}

/-! ## Folds -/

/-- Two steps one way round are two steps the other way round. -/
theorem foldlM_perm {m : Type → Type} [Monad m] [LawfulMonad m] {step : σ → α → m σ}
    (hcomm : ∀ s a b, (step s a >>= fun s => step s b) = step s b >>= fun s => step s a)
    {as bs : List α} (hperm : as.Perm bs) (s : σ) : as.foldlM step s = bs.foldlM step s := by
  induction hperm generalizing s with
  | nil => rfl
  | cons a _ ih =>
      rw [List.foldlM_cons, List.foldlM_cons]
      exact congrArg (step s a >>= ·) (funext ih)
  | swap a b as =>
      simp only [List.foldlM_cons, ← bind_assoc]
      rw [hcomm]
  | trans _ _ ih ih' => exact (ih s).trans (ih' s)

/-- Each member changed twice, or each changed and then each changed again. -/
theorem mapM_bind_mapM (f g : α → Option α) (as : List α) :
    (as.mapM f >>= fun bs => bs.mapM g) = as.mapM fun a => f a >>= g := by
  induction as with
  | nil => rfl
  | cons a as ih =>
      simp only [List.mapM_cons, bind_assoc, pure_bind, ← ih]
      cases hfirst : f a with
      | none => rfl
      | some b =>
          simp only [Option.bind_eq_bind, Option.bind_some]
          cases hrest : as.mapM f with
          | none =>
              cases hg : g b with
              | none => rfl
              | some c => rfl
          | some bs => rfl

/-! ## Related lists -/

theorem exists_of_mem_right {β : Type} {R : α → β → Prop} {as : List α} {bs : List β} {b : β}
    (h : List.Forall₂ R as bs) (hmem : b ∈ bs) : ∃ a ∈ as, R a b := by
  induction h with
  | nil => exact nomatch hmem
  | cons hhead _ ih =>
      obtain rfl | hmem := List.mem_cons.mp hmem
      · exact ⟨_, List.mem_cons_self, hhead⟩
      · obtain ⟨a, ha, hrel⟩ := ih hmem
        exact ⟨a, List.mem_cons_of_mem _ ha, hrel⟩

/-- Pairs that are related are so for members that satisfy more. -/
theorem forall₂_imp_mem {α β : Type} {R S : α → β → Prop} {as : List α} {bs : List β}
    (h : List.Forall₂ R as bs) (himp : ∀ a ∈ as, ∀ b, R a b → S a b) : List.Forall₂ S as bs := by
  induction h with
  | nil => exact .nil
  | @cons a b as bs hab _ ih =>
      exact .cons (himp a List.mem_cons_self b hab)
        (ih fun a hmem => himp a (List.mem_cons_of_mem _ hmem))

theorem forall₂_snoc_left {α β : Type} {R : α → β → Prop} {as : List α} {a : α} {bs : List β}
    (h : List.Forall₂ R (as ++ [a]) bs) :
    ∃ front b, bs = front ++ [b] ∧ List.Forall₂ R as front ∧ R a b := by
  induction as generalizing bs with
  | nil =>
      obtain ⟨b, rest, hab, hnil, rfl⟩ := List.forall₂_cons_left_iff.mp h
      cases List.forall₂_nil_left_iff.mp hnil
      exact ⟨[], b, rfl, .nil, hab⟩
  | cons a' as ih =>
      obtain ⟨b', rest, hab', hrest, rfl⟩ := List.forall₂_cons_left_iff.mp h
      obtain ⟨front, b, rfl, hfront, hab⟩ := ih hrest
      exact ⟨b' :: front, b, rfl, .cons hab' hfront, hab⟩

/-! ## Sorted lists -/

/-- Members that a rank tells apart are sorted in one way. -/
theorem insertionSort_eq_of_perm {κ : Type} [LinearOrder κ] {rank : α → κ} {as bs : List α}
    (hperm : as.Perm bs) (hdistinct : (as.map rank).Nodup) :
    as.insertionSort (fun a b => rank a ≤ rank b) =
      bs.insertionSort fun a b => rank a ≤ rank b := by
  let le : α → α → Prop := fun a b => rank a ≤ rank b
  have htotal : Std.Total le := ⟨fun a b => le_total _ _⟩
  have htrans : IsTrans α le := ⟨fun _ _ _ h h' => le_trans h h'⟩
  have hsorted := List.pairwise_insertionSort le as
  have hsorted' := List.pairwise_insertionSort le bs
  have hsame : (as.insertionSort le).Perm (bs.insertionSort le) :=
    (List.perm_insertionSort le as).trans (hperm.trans (List.perm_insertionSort le bs).symm)
  refine hsame.eq_of_pairwise (fun a b ha hb hab hba => ?_) hsorted hsorted'
  have ha' : a ∈ as := (List.mem_insertionSort le).mp ha
  have hb' : b ∈ as := hperm.mem_iff.mpr ((List.mem_insertionSort le).mp hb)
  exact List.inj_on_of_nodup_map hdistinct ha' hb' (le_antisymm hab hba)

/-- Of such members, those that satisfy a test are sorted as they are among the others. -/
theorem filter_insertionSort {κ : Type} [LinearOrder κ] {rank : α → κ} {as : List α}
    (p : α → Bool) (hdistinct : (as.map rank).Nodup) :
    (as.insertionSort fun a b => rank a ≤ rank b).filter p =
      (as.filter p).insertionSort fun a b => rank a ≤ rank b := by
  let le : α → α → Prop := fun a b => rank a ≤ rank b
  have htotal : Std.Total le := ⟨fun a b => le_total _ _⟩
  have htrans : IsTrans α le := ⟨fun _ _ _ h h' => le_trans h h'⟩
  have hsorted := (List.pairwise_insertionSort le as).filter p
  have hsorted' := List.pairwise_insertionSort le (as.filter p)
  have hsame : ((as.insertionSort le).filter p).Perm ((as.filter p).insertionSort le) :=
    ((List.perm_insertionSort le as).filter p).trans (List.perm_insertionSort le _).symm
  refine hsame.eq_of_pairwise (fun a b ha hb hab hba => ?_) hsorted hsorted'
  have ha' : a ∈ as := (List.mem_insertionSort le).mp (List.mem_filter.mp ha).1
  have hb' : b ∈ as := (List.mem_filter.mp ((List.mem_insertionSort le).mp hb)).1
  exact List.inj_on_of_nodup_map hdistinct ha' hb' (le_antisymm hab hba)

/-- Of members that are told apart, more than one: one more than a given one. -/
theorem one_lt_length_iff {list : List α} {a : α} (hdistinct : list.Nodup) (hmem : a ∈ list) :
    1 < list.length ↔ ∃ b ∈ list, b ≠ a := by
  constructor
  · intro hlength
    by_contra hnone
    have hsame : ∀ b ∈ list, b = a := fun b hb => by_contra fun hne => hnone ⟨b, hb, hne⟩
    rw [List.eq_replicate_of_mem hsame, List.nodup_replicate] at hdistinct
    exact Nat.not_lt.mpr hdistinct hlength
  · rintro ⟨b, hb, hne⟩
    by_contra hshort
    obtain ⟨only, rfl⟩ : ∃ only, list = [only] :=
      List.length_eq_one_iff.mp
        (Nat.le_antisymm (Nat.not_lt.mp hshort) (List.length_pos_of_mem hmem))
    exact hne ((List.mem_singleton.mp hb).trans (List.mem_singleton.mp hmem).symm)

end Locality.Foundation
