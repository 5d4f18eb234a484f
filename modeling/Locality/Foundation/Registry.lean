/-
  Foundation/Registry.lean --- tables in which the first value of a key stays.

  A key may be claimed again with the value that it has, and with no other.  Claims are
  all accepted, in whatever order they come, if no two of them disagree.
-/
import Mathlib.Data.List.Basic

set_option autoImplicit false

namespace Locality.Foundation

/-- Claims of which no two give one key different values. -/
def Agree {κ ν : Type} (claims : List (κ × ν)) : Prop :=
  ∀ ⦃k : κ⦄ ⦃v v' : ν⦄, (k, v) ∈ claims → (k, v') ∈ claims → v = v'

theorem agree_append_singleton {κ ν : Type} {claims : List (κ × ν)} {k : κ} {v : ν} :
    Agree (claims ++ [(k, v)]) ↔ Agree claims ∧ ∀ v', (k, v') ∈ claims → v' = v := by
  constructor
  · intro h
    refine ⟨fun k v v' hv hv' => h (List.mem_append_left _ hv) (List.mem_append_left _ hv'), ?_⟩
    intro v' hv'
    exact h (List.mem_append_left _ hv') (List.mem_append_right _ List.mem_cons_self)
  · intro h k' a b ha hb
    rcases List.mem_append.mp ha with ha | ha
    · rcases List.mem_append.mp hb with hb | hb
      · exact h.1 ha hb
      · cases List.mem_singleton.mp hb
        exact h.2 a ha
    · cases List.mem_singleton.mp ha
      rcases List.mem_append.mp hb with hb | hb
      · exact (h.2 b hb).symm
      · cases List.mem_singleton.mp hb
        rfl

theorem Agree.of_append_left {κ ν : Type} {claims later : List (κ × ν)}
    (h : Agree (claims ++ later)) : Agree claims :=
  fun _ _ _ hv hv' => h (List.mem_append_left _ hv) (List.mem_append_left _ hv')

/-- What each key was first claimed with. -/
abbrev Registry (κ ν : Type) : Type := List (κ × ν)

namespace Registry

variable {κ ν : Type} [BEq κ] [LawfulBEq κ] [DecidableEq ν] {table table' : Registry κ ν}
  {claims : List (κ × ν)} {k : κ} {v : ν}

/-- A claim to a key that is free, or has the value; the error is the value that it has. -/
def claim (table : Registry κ ν) (k : κ) (v : ν) : Except ν (Registry κ ν) :=
  match table.lookup k with
  | none => .ok (table ++ [(k, v)])
  | some first => if first ≠ v then .error first else .ok table

omit [DecidableEq ν] [LawfulBEq κ] in
/-- The table knows these claims and no others. -/
def Knows (table : Registry κ ν) (claims : List (κ × ν)) : Prop :=
  ∀ k v, table.lookup k = some v ↔ (k, v) ∈ claims

omit [LawfulBEq κ] [DecidableEq ν] in
theorem knows_empty : Knows ([] : Registry κ ν) [] := fun k v => by
  rw [List.lookup_nil]
  exact ⟨fun h => (by cases h), fun h => (by cases h)⟩

omit [LawfulBEq κ] [DecidableEq ν] in
theorem Knows.agree (h : Knows table claims) : Agree claims := by
  intro k v v' hv hv'
  exact Option.some.inj (((h k v).mpr hv).symm.trans ((h k v').mpr hv'))

omit [LawfulBEq κ] in
/-- A claim is accepted if no other claim to its key disagrees. -/
theorem exists_claim_eq_ok (h : Knows table claims) :
    (∃ table', table.claim k v = .ok table') ↔ ∀ v', (k, v') ∈ claims → v' = v := by
  unfold claim
  constructor
  · intro hok v' hv'
    obtain ⟨table', hok⟩ := hok
    rw [(h k v').mpr hv'] at hok
    by_contra hne
    exact nomatch (if_pos hne).symm.trans hok
  · intro hagree
    cases hlookup : table.lookup k with
    | none => exact ⟨_, rfl⟩
    | some first => exact ⟨table, if_neg (not_not.mpr (hagree first ((h k first).mp hlookup)))⟩

/-- A claim that was accepted is known. -/
theorem Knows.claim (h : Knows table claims) (hok : table.claim k v = .ok table') :
    Knows table' (claims ++ [(k, v)]) := by
  intro k' v'
  unfold Registry.claim at hok
  rw [List.mem_append, List.mem_singleton, ← h k' v', Prod.mk.injEq]
  cases hlookup : table.lookup k with
  | none =>
      rw [hlookup] at hok
      cases hok
      rw [List.lookup_append, Option.or_eq_some_iff, List.lookup_cons, List.lookup_nil]
      by_cases hk : k' = k
      · subst hk
        rw [hlookup, beq_self_eq_true]
        simp only [reduceCtorEq, false_or, true_and, Option.some.injEq, eq_comm]
      · rw [beq_false_of_ne hk]
        simp only [reduceCtorEq, and_false, or_false, hk, false_and]
  | some first =>
      rw [hlookup] at hok
      dsimp only at hok
      split at hok
      · exact nomatch hok
      · rename_i hsame
        cases hok
        have hfirst : first = v := not_not.mp hsame
        refine ⟨Or.inl, fun hor => hor.elim id fun hnew => ?_⟩
        obtain ⟨rfl, rfl⟩ := hnew
        exact hlookup.trans (congrArg some hfirst)

end Registry

end Locality.Foundation
