/-
  Foundation/RankedTable.lean --- tables whose rows carry their keys, listed in the order
  of the keys, and such tables with a second unique column.

  A key is ranked by a list of lists of numbers, so that keys of one or of several parts
  are all ordered lexicographically.  A row that is put into a table with a unique column
  is refused where another row has its mark; rows whose marks no row of the table has, and
  that differ in their marks, are put into it one after the other.
-/
import Locality.Foundation.OrderedTable
import Mathlib.Data.List.Lex

set_option autoImplicit false

namespace Locality.Foundation

/-! ## Ranked keys -/

/-- A type whose values are ordered by their ranks. -/
class Ranked (κ : Type) where
  rank : κ → List (List Nat)
  rank_injective : Function.Injective rank

/-- The order of the ranks. -/
def rankOrder {κ : Type} [Ranked κ] (k k' : κ) : Ordering :=
  compareOfLessAndEq (Ranked.rank k) (Ranked.rank k')

section Order

variable {κ : Type} [Ranked κ]

instance : Std.TransCmp (rankOrder (κ := κ)) := transCmp_key Ranked.rank

instance : Std.LawfulEqCmp (rankOrder (κ := κ)) := lawfulEqCmp_key Ranked.rank_injective

end Order

/-! ## Tables -/

variable {κ ρ σ : Type} [Ranked κ]

/-- Rows under their own keys. -/
structure RankedTable (key : ρ → κ) where
  rows : Std.ExtTreeMap κ ρ rankOrder
  keyed : Keyed key rows

namespace RankedTable

variable {key : ρ → κ}

def empty : RankedTable key := ⟨∅, keyed_empty key⟩

def lookup (table : RankedTable key) (k : κ) : Option ρ := table.rows[k]?

/-- The rows, in the order of their keys. -/
def all (table : RankedTable key) : List ρ := valuesOf table.rows

theorem key_of_lookup {table : RankedTable key} {k : κ} {r : ρ} (h : table.lookup k = some r) :
    key r = k := table.keyed k r h

theorem mem_all {table : RankedTable key} {r : ρ} :
    r ∈ table.all ↔ table.lookup (key r) = some r := by
  rw [all, mem_valuesOf]
  constructor
  · rintro ⟨k, h⟩
    rw [key_of_lookup h]
    exact h
  · intro h
    exact ⟨key r, h⟩

/-- Tables that look up the same are the same. -/
theorem ext_lookup {table table' : RankedTable key}
    (h : ∀ k, table.lookup k = table'.lookup k) : table = table' := by
  cases table
  cases table'
  congr 1
  exact Std.ExtTreeMap.ext_getElem? h

/-- The row under its key, in the place of one that was there. -/
def put [DecidableEq κ] (table : RankedTable key) (r : ρ) : RankedTable key where
  rows := table.rows.insert (key r) r
  keyed := table.keyed.insert r

def erase [DecidableEq κ] (table : RankedTable key) (k : κ) : RankedTable key where
  rows := table.rows.erase k
  keyed := by
    intro k' r h
    rw [getElem?_erase_eq] at h
    split at h
    · exact nomatch h
    · exact table.keyed k' r h

/-- `retain`: the rows that satisfy the test. -/
def retain (table : RankedTable key) (p : ρ → Bool) : RankedTable key where
  rows := table.rows.filter fun _ r => p r
  keyed := by
    intro k r h
    rw [Std.ExtTreeMap.getElem?_filter'] at h
    exact table.keyed k r (Option.filter_eq_some_iff.mp h).1

/-- Rows put one after the other. -/
def putAll [DecidableEq κ] (table : RankedTable key) (rows : List ρ) : RankedTable key :=
  rows.foldl put table

def eraseAll [DecidableEq κ] (table : RankedTable key) (keys : List κ) : RankedTable key :=
  keys.foldl erase table

/-- The row of a key, rewritten where there is one. -/
def update [DecidableEq κ] (table : RankedTable key) (k : κ) (f : ρ → ρ) : RankedTable key :=
  match table.lookup k with
  | none => table
  | some r => table.put (f r)

@[simp] theorem lookup_empty (k : κ) : (empty : RankedTable key).lookup k = none :=
  Std.ExtTreeMap.getElem?_empty

section Lookup

variable [DecidableEq κ]

theorem lookup_put (table : RankedTable key) (r : ρ) (k : κ) :
    (table.put r).lookup k = if key r = k then some r else table.lookup k :=
  getElem?_insert_eq _ _ _ _

theorem lookup_erase (table : RankedTable key) (k k' : κ) :
    (table.erase k).lookup k' = if k = k' then none else table.lookup k' :=
  getElem?_erase_eq _ _ _

omit [DecidableEq κ] in
theorem lookup_retain (table : RankedTable key) (p : ρ → Bool) (k : κ) :
    (table.retain p).lookup k = (table.lookup k).filter p :=
  Std.ExtTreeMap.getElem?_filter'

theorem lookup_putAll {rows : List ρ} : ∀ {table : RankedTable key},
    (rows.map key).Nodup → ∀ k, (table.putAll rows).lookup k =
      (rows.find? fun r => key r = k).or (table.lookup k) := by
  induction rows with
  | nil =>
      intro table _ k
      rfl
  | cons r rows ih =>
      intro table hdistinct k
      obtain ⟨hfresh, hdistinct⟩ := List.nodup_cons.mp hdistinct
      rw [putAll, List.foldl_cons]
      refine (ih hdistinct k).trans ?_
      rw [lookup_put, List.find?_cons]
      by_cases hkey : key r = k
      · rw [if_pos hkey, decide_eq_true hkey]
        have hnone : rows.find? (fun r' => decide (key r' = k)) = none := by
          refine List.find?_eq_none.mpr fun r' hmem => ?_
          rw [decide_eq_true_eq]
          rintro rfl
          exact hfresh (hkey ▸ List.mem_map_of_mem hmem)
        rw [hnone]
        rfl
      · rw [if_neg hkey, decide_eq_false hkey]

/-- After rows with distinct keys were put, a row is one of them, or one that was there
under a key of none of them. -/
theorem lookup_putAll_eq_some {rows : List ρ} {table : RankedTable key}
    (hdistinct : (rows.map key).Nodup) {k : κ} {r : ρ} :
    (table.putAll rows).lookup k = some r ↔
      r ∈ rows ∧ key r = k ∨ (∀ r' ∈ rows, key r' ≠ k) ∧ table.lookup k = some r := by
  rw [lookup_putAll hdistinct]
  cases hfind : rows.find? fun r' => decide (key r' = k) with
  | none =>
      have hnone : ∀ r' ∈ rows, key r' ≠ k := fun r' hmem hkey =>
        List.find?_eq_none.mp hfind r' hmem (decide_eq_true hkey)
      refine ⟨fun h => Or.inr ⟨hnone, h⟩, ?_⟩
      rintro (⟨hmem, hkey⟩ | ⟨-, h⟩)
      · exact absurd hkey (hnone r hmem)
      · exact h
  | some r' =>
      have hmem' := List.mem_of_find?_eq_some hfind
      have hkey' := List.find?_some hfind
      rw [decide_eq_true_eq] at hkey'
      rw [Option.some_or, Option.some.injEq]
      constructor
      · rintro rfl
        exact Or.inl ⟨hmem', hkey'⟩
      · rintro (⟨hmem, hkey⟩ | ⟨hnone, -⟩)
        · exact List.inj_on_of_nodup_map hdistinct hmem' hmem (hkey'.trans hkey.symm)
        · exact absurd hkey' (hnone r' hmem')

omit [DecidableEq κ] in
theorem nodup_all (table : RankedTable key) : (table.all.map key).Nodup := table.keyed.nodup

theorem lookup_putAll_of_mem {rows : List ρ} {table : RankedTable key}
    (hdistinct : (rows.map key).Nodup) {r : ρ} (hmem : r ∈ rows) :
    (table.putAll rows).lookup (key r) = some r :=
  (lookup_putAll_eq_some hdistinct).mpr (Or.inl ⟨hmem, rfl⟩)

theorem lookup_putAll_of_forall_ne {rows : List ρ} {table : RankedTable key} {k : κ}
    (h : ∀ r ∈ rows, key r ≠ k) : (table.putAll rows).lookup k = table.lookup k := by
  induction rows generalizing table with
  | nil => rfl
  | cons r rows ih =>
      rw [List.forall_mem_cons] at h
      rw [putAll, List.foldl_cons]
      refine (ih h.2).trans ?_
      rw [lookup_put, if_neg h.1]

theorem lookup_eraseAll {keys : List κ} : ∀ {table : RankedTable key} {k : κ} {r : ρ},
    (table.eraseAll keys).lookup k = some r ↔ k ∉ keys ∧ table.lookup k = some r := by
  induction keys with
  | nil =>
      intro table k r
      exact (and_iff_right List.not_mem_nil).symm
  | cons k' keys ih =>
      intro table k r
      rw [eraseAll, List.foldl_cons]
      refine ih.trans ?_
      rw [lookup_erase, List.mem_cons, not_or]
      split
      · rename_i hkey
        exact iff_of_false (fun h => nomatch h.2) fun h => h.1.1 hkey.symm
      · rename_i hkey
        rw [and_assoc]
        exact (and_iff_right fun h => hkey h.symm).symm

theorem lookup_update {f : ρ → ρ} (hf : ∀ r, key (f r) = key r) (table : RankedTable key)
    (k k' : κ) :
    (table.update k f).lookup k' = if k = k' then (table.lookup k').map f else table.lookup k' := by
  rw [update]
  split
  · rename_i hnone
    split
    · rename_i hkey
      rw [← hkey, hnone]
      rfl
    · rfl
  · rename_i r hsome
    have hkey : key (f r) = k := (hf r).trans (key_of_lookup hsome)
    rw [lookup_put, hkey]
    split
    · rename_i hk
      rw [← hk, hsome]
      rfl
    · rfl

end Lookup

end RankedTable

/-! ## Tables with a unique column -/

/-- Rows under their own keys, no two of them with one mark. -/
structure UniqueTable (key : ρ → κ) (mark : ρ → σ) extends RankedTable key where
  unique : ∀ r ∈ toRankedTable.all, ∀ r' ∈ toRankedTable.all, mark r = mark r' → key r = key r'

namespace UniqueTable

variable {key : ρ → κ} {mark : ρ → σ}

def empty : UniqueTable key mark where
  toRankedTable := .empty
  unique := by
    intro r hr
    rw [RankedTable.mem_all, RankedTable.lookup_empty] at hr
    exact nomatch hr

variable [DecidableEq κ] [DecidableEq σ]

def erase (table : UniqueTable key mark) (k : κ) : UniqueTable key mark where
  toRankedTable := table.toRankedTable.erase k
  unique := by
    have hmem : ∀ r, r ∈ (table.toRankedTable.erase k).all → r ∈ table.toRankedTable.all := by
      intro r hr
      rw [RankedTable.mem_all, RankedTable.lookup_erase] at hr
      split at hr
      · exact nomatch hr
      · exact RankedTable.mem_all.mpr hr
    exact fun r hr r' hr' => table.unique r (hmem r hr) r' (hmem r' hr')

/-- No row under another key has the mark of the row. -/
def Free (table : UniqueTable key mark) (r : ρ) : Prop :=
  ∀ r' ∈ table.all, mark r' = mark r → key r' = key r

instance (table : UniqueTable key mark) (r : ρ) : Decidable (table.Free r) :=
  List.decidableBAll _ table.all

/-- The row under its key, where no other row has its mark. -/
def put (table : UniqueTable key mark) (r : ρ) : Option (UniqueTable key mark) :=
  if h : table.Free r then
    some {
      toRankedTable := table.toRankedTable.put r
      unique := by
        have hmem : ∀ r', r' ∈ (table.toRankedTable.put r).all →
            r' = r ∨ r' ∈ table.all := by
          intro r' hr'
          rw [RankedTable.mem_all, RankedTable.lookup_put] at hr'
          split at hr'
          · exact Or.inl (Option.some.inj hr').symm
          · exact Or.inr (RankedTable.mem_all.mpr hr')
        intro a ha b hb hmark
        rcases hmem a ha with rfl | hold
        · rcases hmem b hb with rfl | hold'
          · rfl
          · exact (h b hold' hmark.symm).symm
        · rcases hmem b hb with rfl | hold'
          · exact h a hold hmark
          · exact table.unique a hold b hold' hmark }
  else none

theorem put_of_free {table : UniqueTable key mark} {r : ρ} (h : table.Free r) :
    ∃ table' : UniqueTable key mark, table.put r = some table' ∧
      table'.toRankedTable = table.toRankedTable.put r := by
  rw [put, dif_pos h]
  exact ⟨_, rfl, rfl⟩

theorem toRankedTable_of_put {table table' : UniqueTable key mark} {r : ρ}
    (h : table.put r = some table') :
    table'.toRankedTable = table.toRankedTable.put r := by
  rw [put] at h
  split at h
  · cases h
    rfl
  · exact nomatch h

/-- Rows put one after the other; none where one of them is refused. -/
def putAll (table : UniqueTable key mark) : List ρ → Option (UniqueTable key mark)
  | [] => some table
  | r :: rows => (table.put r).bind fun table' => table'.putAll rows

theorem toRankedTable_of_putAll {rows : List ρ} : ∀ {table table' : UniqueTable key mark},
    table.putAll rows = some table' →
      table'.toRankedTable = table.toRankedTable.putAll rows := by
  induction rows with
  | nil =>
      intro table table' h
      cases h
      rfl
  | cons r rows ih =>
      intro table table' h
      obtain ⟨next, hput, hrest⟩ := Option.bind_eq_some_iff.mp h
      rw [ih hrest, toRankedTable_of_put hput]
      rfl

/-- Rows are put into a table that has none of their marks under another key. -/
theorem exists_putAll {rows : List ρ} : ∀ {table : UniqueTable key mark},
    (rows.map key).Nodup → (rows.map mark).Nodup → (∀ r ∈ rows, table.Free r) →
      ∃ table' : UniqueTable key mark, table.putAll rows = some table' ∧
        table'.toRankedTable = table.toRankedTable.putAll rows := by
  induction rows with
  | nil =>
      intro table _ _ _
      exact ⟨table, rfl, rfl⟩
  | cons r rows ih =>
      intro table hkeys hmarks hfree
      obtain ⟨hkey, hkeys⟩ := List.nodup_cons.mp hkeys
      obtain ⟨hmark, hmarks⟩ := List.nodup_cons.mp hmarks
      obtain ⟨next, hput, hnext⟩ := put_of_free (hfree r List.mem_cons_self)
      have hrest : ∀ r' ∈ rows, next.Free r' := by
        intro r' hmem a ha hsame
        rw [hnext, RankedTable.mem_all, RankedTable.lookup_put] at ha
        split at ha
        · -- the row that was put has a mark of its own
          cases ha
          exact absurd (hsame ▸ List.mem_map_of_mem hmem) hmark
        · exact hfree r' (List.mem_cons_of_mem _ hmem) a (RankedTable.mem_all.mpr ha) hsame
      obtain ⟨last, hall, hlast⟩ := ih hkeys hmarks hrest
      refine ⟨last, ?_, ?_⟩
      · rw [putAll, hput]
        exact hall
      · rw [hlast, hnext]
        rfl

end UniqueTable

end Locality.Foundation
