/-
  Foundation/OrderedTable.lean --- tables that are listed in the order of their keys.

  Two such tables are equal where they look up the same, so that what a list of rows makes
  of a table is said by its lookups alone.
-/
import Std.Data.ExtTreeMap.Lemmas
import Mathlib.Data.List.Sort
import Mathlib.Tactic.Common

set_option autoImplicit false

namespace Locality.Foundation

/-! ## Orders by keys -/

section Keys

variable {α β : Type} [LinearOrder β] [DecidableLT β] [DecidableEq β] {key : α → β}

theorem transCmp_key (key : α → β) :
    Std.TransCmp fun a b => compareOfLessAndEq (key a) (key b) := by
  have horder := Std.TransOrd.compareOfLessAndEq_of_antisymm_of_trans_of_total_of_not_le
    (α := β) le_antisymm le_trans le_total not_le
  exact { eq_swap := horder.eq_swap, isLE_trans := horder.isLE_trans }

theorem lawfulEqCmp_key (hkey : Function.Injective key) :
    Std.LawfulEqCmp fun a b => compareOfLessAndEq (key a) (key b) where
  compare_self := (compareOfLessAndEq_eq_eq le_refl not_le).mpr rfl
  eq_of_compare h := hkey ((compareOfLessAndEq_eq_eq le_refl not_le).mp h)

end Keys

/-! ## Tables -/

variable {κ α ρ : Type} {cmp : κ → κ → Ordering} [Std.TransCmp cmp]

/-- The values of a table, in the order of their keys. -/
def valuesOf (table : Std.ExtTreeMap κ α cmp) : List α := table.toList.map Prod.snd

/-- The rows under their keys; of rows with one key, the last. -/
def tableOf (key : ρ → κ) (value : ρ → α) (rows : List ρ) : Std.ExtTreeMap κ α cmp :=
  rows.foldl (fun table row => table.insert (key row) (value row)) ∅

variable [Std.LawfulEqCmp cmp]

theorem getElem?_insert_eq [DecidableEq κ] (table : Std.ExtTreeMap κ α cmp) (k k' : κ) (a : α) :
    (table.insert k a)[k']? = if k = k' then some a else table[k']? := by
  rw [Std.ExtTreeMap.getElem?_insert]
  by_cases h : k = k'
  · rw [if_pos h, if_pos (Std.LawfulEqCmp.compare_eq_iff_eq.mpr h)]
  · rw [if_neg h, if_neg (fun heq => h (Std.LawfulEqCmp.eq_of_compare heq))]

theorem getElem?_erase_eq [DecidableEq κ] (table : Std.ExtTreeMap κ α cmp) (k k' : κ) :
    (table.erase k)[k']? = if k = k' then none else table[k']? := by
  rw [Std.ExtTreeMap.getElem?_erase]
  by_cases h : k = k'
  · rw [if_pos h, if_pos (Std.LawfulEqCmp.compare_eq_iff_eq.mpr h)]
  · rw [if_neg h, if_neg (fun heq => h (Std.LawfulEqCmp.eq_of_compare heq))]

/-- Rows with distinct keys are looked up as they are. -/
theorem getElem?_tableOf [DecidableEq κ] {key : ρ → κ} {value : ρ → α} {rows : List ρ}
    (hdistinct : (rows.map key).Nodup) {k : κ} {a : α} :
    (tableOf key value rows : Std.ExtTreeMap κ α cmp)[k]? = some a ↔
      ∃ row ∈ rows, key row = k ∧ value row = a := by
  have hfold : ∀ (rows : List ρ) (table : Std.ExtTreeMap κ α cmp), (rows.map key).Nodup →
      (∀ row ∈ rows, table[key row]? = none) →
      ((rows.foldl (fun table row => table.insert (key row) (value row)) table)[k]? = some a ↔
        table[k]? = some a ∨ ∃ row ∈ rows, key row = k ∧ value row = a) := by
    intro rows
    induction rows with
    | nil =>
        intro table _ _
        refine (or_iff_left ?_).symm
        rintro ⟨row, hmem, -⟩
        exact nomatch hmem
    | cons row rows ih =>
        intro table hnodup hnew
        obtain ⟨hrow, hnodup⟩ := List.nodup_cons.mp hnodup
        rw [List.foldl_cons, ih _ hnodup ?_, getElem?_insert_eq, List.exists_mem_cons_iff]
        · split
          · rename_i hkey
            have hnone := hnew row List.mem_cons_self
            rw [← hkey, hnone, Option.some.injEq]
            simp only [reduceCtorEq, false_or, true_and]
          · rename_i hkey
            simp only [hkey, false_and, false_or]
        · intro row' hmem
          rw [getElem?_insert_eq, if_neg]
          · exact hnew row' (List.mem_cons_of_mem _ hmem)
          · intro hsame
            exact hrow (hsame ▸ List.mem_map_of_mem hmem)
  rw [tableOf, hfold rows ∅ hdistinct (fun _ _ => Std.ExtTreeMap.getElem?_empty),
    Std.ExtTreeMap.getElem?_empty]
  simp only [reduceCtorEq, false_or]

/-- Rows in the strict order of their keys that are looked up in a table are its rows. -/
theorem toList_eq_of_ordered {table : Std.ExtTreeMap κ α cmp} {rows : List (κ × α)}
    (hordered : rows.Pairwise fun row row' => cmp row.1 row'.1 = .lt)
    (hmem : ∀ k a, (k, a) ∈ rows ↔ table[k]? = some a) : table.toList = rows := by
  have hirrefl : ∀ k : κ, cmp k k ≠ .lt := fun k hlt =>
    nomatch (Std.ReflCmp.compare_self : cmp k k = .eq).symm.trans hlt
  have hnodup : ∀ {rows : List (κ × α)},
      rows.Pairwise (fun row row' => cmp row.1 row'.1 = .lt) → rows.Nodup := by
    intro rows h
    refine List.Pairwise.imp ?_ h
    rintro row row' hlt rfl
    exact hirrefl row.1 hlt
  have htable : table.toList.Pairwise fun row row' => cmp row.1 row'.1 = .lt :=
    Std.ExtTreeMap.ordered_keys_toList
  refine List.Perm.eq_of_pairwise ?_ htable hordered
    ((List.perm_ext_iff_of_nodup (hnodup htable) (hnodup hordered)).mpr ?_)
  · intro row row' _ _ hlt hgt
    exact absurd (Std.TransCmp.lt_trans hlt hgt) (hirrefl row.1)
  · rintro ⟨k, a⟩
    rw [Std.ExtTreeMap.mem_toList_iff_getElem?_eq_some, hmem]

/-! ## Tables of rows that carry their keys -/

/-- Each value of the table stands under its own key. -/
def Keyed (key : α → κ) (table : Std.ExtTreeMap κ α cmp) : Prop :=
  ∀ k a, table[k]? = some a → key a = k

omit [Std.LawfulEqCmp cmp] in
theorem keyed_empty (key : α → κ) : Keyed key (∅ : Std.ExtTreeMap κ α cmp) := by
  intro k a h
  rw [Std.ExtTreeMap.getElem?_empty] at h
  cases h

theorem Keyed.insert [DecidableEq κ] {key : α → κ} {table : Std.ExtTreeMap κ α cmp}
    (h : Keyed key table) (a : α) : Keyed key (table.insert (key a) a) := by
  intro k a' hlookup
  rw [getElem?_insert_eq] at hlookup
  split at hlookup
  · rename_i hkey
    cases hlookup
    exact hkey
  · exact h k a' hlookup

theorem nodup_toList (table : Std.ExtTreeMap κ α cmp) : table.toList.Nodup := by
  have hordered : table.toList.Pairwise fun row row' => cmp row.1 row'.1 = .lt :=
    Std.ExtTreeMap.ordered_keys_toList
  refine List.Pairwise.imp ?_ hordered
  rintro row row' hlt rfl
  exact nomatch hlt.symm.trans (Std.ReflCmp.compare_self : cmp row.1 row.1 = .eq)

theorem mem_valuesOf {table : Std.ExtTreeMap κ α cmp} {a : α} :
    a ∈ valuesOf table ↔ ∃ k : κ, table[k]? = some a := by
  rw [valuesOf, List.mem_map]
  constructor
  · rintro ⟨⟨k, a'⟩, hmem, rfl⟩
    exact ⟨k, Std.ExtTreeMap.mem_toList_iff_getElem?_eq_some.mp hmem⟩
  · rintro ⟨k, hlookup⟩
    exact ⟨(k, a), Std.ExtTreeMap.mem_toList_iff_getElem?_eq_some.mpr hlookup, rfl⟩

theorem valuesOf_empty : valuesOf (∅ : Std.ExtTreeMap κ α cmp) = [] := by
  refine List.eq_nil_iff_forall_not_mem.mpr fun a hmem => ?_
  obtain ⟨k, hlookup⟩ := mem_valuesOf.mp hmem
  rw [Std.ExtTreeMap.getElem?_empty] at hlookup
  cases hlookup

/-- The values of a table have the keys of the table, which are distinct. -/
theorem Keyed.map_valuesOf {key : α → κ} {table : Std.ExtTreeMap κ α cmp} (h : Keyed key table) :
    (valuesOf table).map key = table.toList.map Prod.fst := by
  rw [valuesOf, List.map_map]
  refine List.map_congr_left fun row hmem => ?_
  exact h row.1 row.2 (Std.ExtTreeMap.mem_toList_iff_getElem?_eq_some.mp hmem)

theorem Keyed.nodup {key : α → κ} {table : Std.ExtTreeMap κ α cmp} (h : Keyed key table) :
    ((valuesOf table).map key).Nodup := by
  rw [h.map_valuesOf]
  have hordered : table.toList.Pairwise fun row row' => cmp row.1 row'.1 = .lt :=
    Std.ExtTreeMap.ordered_keys_toList
  refine List.Pairwise.map Prod.fst (fun row row' hlt heq => ?_) hordered
  rw [heq] at hlt
  exact nomatch hlt.symm.trans (Std.ReflCmp.compare_self : cmp row'.1 row'.1 = .eq)

theorem perm_valuesOf_insert [DecidableEq κ] {table : Std.ExtTreeMap κ α cmp} {k : κ}
    (hfresh : table[k]? = none) (a : α) : (valuesOf (table.insert k a)).Perm (a :: valuesOf table) := by
  have hperm : (table.insert k a).toList.Perm ((k, a) :: table.toList) := by
    refine (List.perm_ext_iff_of_nodup (nodup_toList _) (List.nodup_cons.mpr
      ⟨fun hmem => ?_, nodup_toList _⟩)).mpr ?_
    · rw [Std.ExtTreeMap.mem_toList_iff_getElem?_eq_some, hfresh] at hmem
      cases hmem
    · rintro ⟨k', a'⟩
      rw [Std.ExtTreeMap.mem_toList_iff_getElem?_eq_some, getElem?_insert_eq, List.mem_cons,
        Std.ExtTreeMap.mem_toList_iff_getElem?_eq_some, Prod.mk.injEq]
      split
      · rename_i hkey
        subst hkey
        rw [hfresh, Option.some.injEq]
        constructor
        · rintro rfl
          exact Or.inl ⟨rfl, rfl⟩
        · rintro (⟨-, rfl⟩ | h)
          · rfl
          · cases h
      · rename_i hkey
        exact (or_iff_right fun h => hkey h.1.symm).symm
  exact hperm.map Prod.snd

/-- Rows with new keys are added to the values, and nothing else is changed. -/
theorem perm_valuesOf_foldl_insert [DecidableEq κ] {key : α → κ} {rows : List α} :
    ∀ {table : Std.ExtTreeMap κ α cmp}, (rows.map key).Nodup →
      (∀ row ∈ rows, table[key row]? = none) →
      (valuesOf (rows.foldl (fun table row => table.insert (key row) row) table)).Perm
        (valuesOf table ++ rows) := by
  induction rows with
  | nil =>
      intro table _ _
      rw [List.foldl_nil, List.append_nil]
  | cons row rows ih =>
      intro table hnodup hfresh
      obtain ⟨hrow, hnodup⟩ := List.nodup_cons.mp hnodup
      obtain ⟨hnew, hfresh⟩ := List.forall_mem_cons.mp hfresh
      rw [List.foldl_cons]
      refine (ih hnodup fun row' hmem => ?_).trans ?_
      · rw [getElem?_insert_eq, if_neg, hfresh row' hmem]
        exact fun heq => hrow (heq ▸ List.mem_map_of_mem hmem)
      · refine ((perm_valuesOf_insert hnew row).append_right rows).trans ?_
        exact List.perm_middle.symm

theorem Keyed.foldl_insert [DecidableEq κ] {key : α → κ} {rows : List α} :
    ∀ {table : Std.ExtTreeMap κ α cmp}, Keyed key table →
      Keyed key (rows.foldl (fun table row => table.insert (key row) row) table) := by
  induction rows with
  | nil => exact fun h => h
  | cons row rows ih => exact fun h => ih (h.insert row)

theorem Keyed.getElem?_eq_none {key : α → κ} {table : Std.ExtTreeMap κ α cmp}
    (h : Keyed key table) {k : κ} : table[k]? = none ↔ k ∉ (valuesOf table).map key := by
  constructor
  · rintro hnone hmem
    obtain ⟨a, hvalue, rfl⟩ := List.mem_map.mp hmem
    obtain ⟨k, hlookup⟩ := mem_valuesOf.mp hvalue
    rw [h k a hlookup, hlookup] at hnone
    cases hnone
  · intro hnot
    cases hlookup : table[k]? with
    | none => rfl
    | some a =>
        exact absurd (List.mem_map.mpr ⟨a, mem_valuesOf.mpr ⟨k, hlookup⟩, h k a hlookup⟩) hnot

/-- Tables whose rows carry their keys are equal where their values are, in any order. -/
theorem Keyed.eq_of_perm [DecidableEq κ] {key : α → κ} {table table' : Std.ExtTreeMap κ α cmp}
    (h : Keyed key table) (h' : Keyed key table') (hperm : (valuesOf table).Perm (valuesOf table')) :
    table = table' := by
  refine Std.ExtTreeMap.ext_getElem? fun k => ?_
  have hsame : ∀ a, table[k]? = some a ↔ table'[k]? = some a := by
    intro a
    have hmem : ∀ {table : Std.ExtTreeMap κ α cmp}, Keyed key table →
        (table[k]? = some a ↔ a ∈ valuesOf table ∧ key a = k) := by
      intro table hkeyed
      constructor
      · exact fun hlookup => ⟨mem_valuesOf.mpr ⟨k, hlookup⟩, hkeyed k a hlookup⟩
      · rintro ⟨hmem, rfl⟩
        obtain ⟨k', hlookup⟩ := mem_valuesOf.mp hmem
        rw [hkeyed k' a hlookup]
        exact hlookup
    rw [hmem h, hmem h', hperm.mem_iff]
  exact Option.ext hsame
end Locality.Foundation
