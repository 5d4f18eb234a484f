/-
  Foundation/KeyedTable.lean --- tables whose rows have distinct keys.

  A key is read off its row, so a row cannot stand under the key of another one.  The
  order of the rows means nothing: every statement is about membership and lookup.
-/
import Mathlib.Data.List.Nodup
import Mathlib.Data.List.Sort
import Mathlib.Tactic.Common

set_option autoImplicit false

namespace Locality.Foundation

variable {ρ κ : Type}

/-- Rows with distinct keys. -/
structure KeyedTable (key : ρ → κ) where
  rows : List ρ
  distinct : (rows.map key).Nodup

namespace KeyedTable

variable {key : ρ → κ}

instance [DecidableEq ρ] : DecidableEq (KeyedTable key) := fun table table' =>
  decidable_of_iff (table.rows = table'.rows) <| by
    cases table
    cases table'
    simp only [mk.injEq]

def empty : KeyedTable key := ⟨[], List.nodup_nil⟩

/-- Rows that are equal where their keys are. -/
theorem eq_of_key {table : KeyedTable key} {r r' : ρ} (h : r ∈ table.rows) (h' : r' ∈ table.rows)
    (hkey : key r = key r') : r = r' :=
  List.inj_on_of_nodup_map table.distinct h h' hkey

/-- The rows for which the test fails. -/
def eraseWhere (table : KeyedTable key) (p : ρ → Bool) : KeyedTable key where
  rows := table.rows.filter fun r => !p r
  distinct := (List.filter_sublist.map key).nodup table.distinct

theorem mem_eraseWhere {table : KeyedTable key} {p : ρ → Bool} {r : ρ} :
    r ∈ (table.eraseWhere p).rows ↔ r ∈ table.rows ∧ p r = false := by
  simp only [eraseWhere, List.mem_filter, Bool.not_eq_true']

section Lookup

variable [DecidableEq κ]

def lookup (table : KeyedTable key) (k : κ) : Option ρ := table.rows.find? fun r => key r = k

/-- The row, in the place of one with its key. -/
def put (table : KeyedTable key) (r : ρ) : KeyedTable key where
  rows := r :: table.rows.filter fun r' => key r' ≠ key r
  distinct := by
    rw [List.map_cons, List.nodup_cons]
    refine ⟨fun hmem => ?_, (List.filter_sublist.map key).nodup table.distinct⟩
    obtain ⟨r', hr', hkey⟩ := List.mem_map.mp hmem
    exact of_decide_eq_true (List.mem_filter.mp hr').2 hkey

/-! ## Lookup -/

theorem lookup_eq_some {table : KeyedTable key} {k : κ} {r : ρ} :
    table.lookup k = some r ↔ r ∈ table.rows ∧ key r = k := by
  constructor
  · intro h
    exact ⟨List.mem_of_find?_eq_some h, of_decide_eq_true
      (List.find?_some (p := fun r => decide (key r = k)) h)⟩
  · rintro ⟨hmem, hkey⟩
    cases h : table.lookup k with
    | none =>
        have hnone := List.find?_eq_none.mp h r hmem
        exact absurd (decide_eq_true hkey) hnone
    | some r' =>
        have hkey' : key r' = k :=
          of_decide_eq_true (List.find?_some (p := fun r => decide (key r = k)) h)
        rw [table.eq_of_key (List.mem_of_find?_eq_some h) hmem (hkey'.trans hkey.symm)]

theorem lookup_eq_none {table : KeyedTable key} {k : κ} :
    table.lookup k = none ↔ ∀ r ∈ table.rows, key r ≠ k := by
  rw [lookup, List.find?_eq_none]
  simp only [decide_eq_true_eq, ne_eq]

theorem key_of_lookup {table : KeyedTable key} {k : κ} {r : ρ} (h : table.lookup k = some r) :
    key r = k :=
  (lookup_eq_some.mp h).2

@[simp] theorem lookup_empty (k : κ) : (empty : KeyedTable key).lookup k = none := rfl

theorem mem_put {table : KeyedTable key} {r r' : ρ} :
    r' ∈ (table.put r).rows ↔ r' = r ∨ r' ∈ table.rows ∧ key r' ≠ key r := by
  simp only [put, List.mem_cons, List.mem_filter, decide_eq_true_eq]

theorem lookup_put (table : KeyedTable key) (r : ρ) (k : κ) :
    (table.put r).lookup k = if key r = k then some r else table.lookup k := by
  split
  · rename_i hkey
    exact lookup_eq_some.mpr ⟨mem_put.mpr (.inl rfl), hkey⟩
  · rename_i hkey
    refine Option.ext fun r' => ?_
    rw [lookup_eq_some, lookup_eq_some, mem_put]
    constructor
    · rintro ⟨rfl | ⟨hmem, -⟩, hkey'⟩
      · exact absurd hkey' hkey
      · exact ⟨hmem, hkey'⟩
    · rintro ⟨hmem, hkey'⟩
      exact ⟨.inr ⟨hmem, fun hsame => hkey (hsame ▸ hkey')⟩, hkey'⟩

theorem lookup_put_self (table : KeyedTable key) (r : ρ) :
    (table.put r).lookup (key r) = some r := by
  rw [lookup_put, if_pos rfl]

theorem lookup_put_ne (table : KeyedTable key) {r : ρ} {k : κ} (h : key r ≠ k) :
    (table.put r).lookup k = table.lookup k := by
  rw [lookup_put, if_neg h]

theorem lookup_eraseWhere {table : KeyedTable key} {p : ρ → Bool} {k : κ} {r : ρ} :
    (table.eraseWhere p).lookup k = some r ↔ table.lookup k = some r ∧ p r = false := by
  rw [lookup_eq_some, lookup_eq_some, mem_eraseWhere, and_right_comm]

/-- The rows of a key are looked up as before where the test fails on all of them. -/
theorem lookup_eraseWhere_eq {table : KeyedTable key} {p : ρ → Bool} {k : κ}
    (h : ∀ r ∈ table.rows, key r = k → p r = false) :
    (table.eraseWhere p).lookup k = table.lookup k := by
  refine Option.ext fun r => ?_
  rw [lookup_eraseWhere]
  refine ⟨fun hboth => hboth.1, fun hlookup => ⟨hlookup, ?_⟩⟩
  obtain ⟨hmem, hkey⟩ := lookup_eq_some.mp hlookup
  exact h r hmem hkey

end Lookup

end KeyedTable

end Locality.Foundation
