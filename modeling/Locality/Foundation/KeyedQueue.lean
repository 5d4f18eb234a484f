/-
  Foundation/KeyedQueue.lean --- a queue that holds at most one item for a key.

  The keys stand in the order they came in, and a table holds the item of each.  An
  item whose key is held already is merged into the item that is there; the item taken
  next is the oldest of the highest priority.

  A ledger lists what came in for each key since the key was last removed.  Where a
  merge has the greater of two measures, the held item has the greatest measure of the
  ledger (`Attains`).
-/
import Mathlib.Data.List.AList
import Mathlib.Data.List.Nodup
import Mathlib.Data.List.Sort
import Mathlib.Order.Bounds.Basic

set_option autoImplicit false

namespace Locality.Foundation

structure KeyedQueue (κ ρ : Type) where
  order : List κ
  pending : AList fun _ : κ => ρ

namespace KeyedQueue

variable {κ ρ π μ : Type} [DecidableEq κ] [LinearOrder π] [LinearOrder μ]

/-! ## Operations -/

def empty : KeyedQueue κ ρ := ⟨[], ∅⟩

/-- Whether the key is a new one, and the queue. -/
def push (key : ρ → κ) (merge : ρ → ρ → ρ) (item : ρ) (queue : KeyedQueue κ ρ) :
    Bool × KeyedQueue κ ρ :=
  match queue.pending.lookup (key item) with
  | none => (true, ⟨queue.order ++ [key item], queue.pending.insert (key item) item⟩)
  | some held => (false, ⟨queue.order, queue.pending.insert (key item) (merge held item)⟩)

def remove (k : κ) (queue : KeyedQueue κ ρ) : Option ρ × KeyedQueue κ ρ :=
  match queue.pending.lookup k with
  | none => (none, queue)
  | some held =>
      (some held, ⟨queue.order.filter fun queued => decide (queued ≠ k), queue.pending.erase k⟩)

/-- The best of what was seen and the next key, which stands at the index. -/
def better (priority : ρ → π) (pending : AList fun _ : κ => ρ) (index : Nat) (k : κ)
    (best : Option (Nat × π)) : Option (Nat × π) :=
  match pending.lookup k, best with
  | none, _ => best
  | some item, none => some (index, priority item)
  | some item, some (_, bestPriority) =>
      if bestPriority < priority item then some (index, priority item) else best

def bestFrom (priority : ρ → π) (pending : AList fun _ : κ => ρ) :
    Nat → Option (Nat × π) → List κ → Option (Nat × π)
  | _, best, [] => best
  | index, best, k :: keys =>
      bestFrom priority pending (index + 1) (better priority pending index k best) keys

/-- Where the oldest item of the highest priority stands. -/
def bestIndex (priority : ρ → π) (queue : KeyedQueue κ ρ) : Option Nat :=
  (bestFrom priority queue.pending 0 none queue.order).map Prod.fst

def pop (priority : ρ → π) (queue : KeyedQueue κ ρ) : Option ρ × KeyedQueue κ ρ :=
  match queue.bestIndex priority with
  | none => (none, queue)
  | some index =>
      match queue.order[index]? with
      | none => (none, queue)
      | some k =>
          (queue.pending.lookup k, ⟨queue.order.eraseIdx index, queue.pending.erase k⟩)

/-! ## Well-formed queues -/

/-- Every key of an item is listed once, and every item stands under its key. -/
structure WellFormed (key : ρ → κ) (queue : KeyedQueue κ ρ) : Prop where
  nodup : queue.order.Nodup
  listed : ∀ k, k ∈ queue.order ↔ queue.pending.lookup k ≠ none
  keyed : ∀ k item, queue.pending.lookup k = some item → key item = k

variable {key : ρ → κ} {merge : ρ → ρ → ρ} {queue : KeyedQueue κ ρ} {k : κ} {item : ρ}

theorem wellFormed_empty : WellFormed key (empty : KeyedQueue κ ρ) where
  nodup := List.nodup_nil
  listed := by
    intro k
    exact ⟨fun h => (nomatch h), fun h => absurd (AList.lookup_empty k) h⟩
  keyed := by
    intro k item h
    exact nomatch (AList.lookup_empty k).symm.trans h

/-- What the queue holds after a push. -/
theorem lookup_push (queue : KeyedQueue κ ρ) (item : ρ) (k : κ) :
    (queue.push key merge item).2.pending.lookup k =
      if k = key item then
        some (match queue.pending.lookup (key item) with
          | none => item
          | some held => merge held item)
      else queue.pending.lookup k := by
  unfold push
  by_cases hkey : k = key item
  · subst hkey
    rw [if_pos rfl]
    cases queue.pending.lookup (key item) with
    | none => exact AList.lookup_insert _
    | some held => exact AList.lookup_insert _
  · rw [if_neg hkey]
    cases queue.pending.lookup (key item) with
    | none => exact AList.lookup_insert_ne hkey
    | some held => exact AList.lookup_insert_ne hkey

theorem WellFormed.push (hwell : WellFormed key queue)
    (hmerge : ∀ held item, key held = key item → key (merge held item) = key item) (item : ρ) :
    WellFormed key (queue.push key merge item).2 where
  nodup := by
    unfold KeyedQueue.push
    cases hlookup : queue.pending.lookup (key item) with
    | some held => exact hwell.nodup
    | none =>
        have hnew : key item ∉ queue.order := fun h => (hwell.listed _).mp h hlookup
        exact List.nodup_append.mpr ⟨hwell.nodup, List.nodup_singleton _, by
          intro k hk other hother
          rw [List.mem_singleton.mp hother]
          rintro rfl
          exact hnew hk⟩
  listed := by
    intro k
    rw [lookup_push]
    have horder : k ∈ (queue.push key merge item).2.order ↔ k ∈ queue.order ∨ k = key item := by
      unfold KeyedQueue.push
      cases hlookup : queue.pending.lookup (key item) with
      | none => simp only [List.mem_append, List.mem_singleton]
      | some held =>
          refine ⟨.inl, fun h => h.elim id ?_⟩
          rintro rfl
          exact (hwell.listed _).mpr (by rw [hlookup]; exact Option.some_ne_none _)
    rw [horder]
    by_cases hkey : k = key item
    · rw [if_pos hkey]
      exact ⟨fun _ => Option.some_ne_none _, fun _ => .inr hkey⟩
    · rw [if_neg hkey, ← hwell.listed k]
      exact ⟨fun h => h.resolve_right hkey, .inl⟩
  keyed := by
    intro k found h
    rw [lookup_push] at h
    split at h
    · rename_i hkey
      cases h
      cases hlookup : queue.pending.lookup (key item) with
      | none => exact hkey.symm
      | some held => exact (hmerge held item (hwell.keyed _ _ hlookup)).trans hkey.symm
    · exact hwell.keyed k found h

/-- One key is gone, and the others are as they were. -/
structure Removes (queue : KeyedQueue κ ρ) (k : κ) (after : KeyedQueue κ ρ) : Prop where
  sublist : after.order.Sublist queue.order
  mem : ∀ other, other ∈ after.order ↔ other ≠ k ∧ other ∈ queue.order
  lookup : ∀ other, after.pending.lookup other =
    if other = k then none else queue.pending.lookup other

theorem lookup_erase_eq (pending : AList fun _ : κ => ρ) (k other : κ) :
    (pending.erase k).lookup other = if other = k then none else pending.lookup other := by
  by_cases hkey : other = k
  · rw [if_pos hkey, hkey]
    exact AList.lookup_erase _ _
  · rw [if_neg hkey]
    exact AList.lookup_erase_ne hkey

theorem removes_remove (hwell : WellFormed key queue) (k : κ) :
    Removes queue k (queue.remove k).2 := by
  unfold remove
  cases hlookup : queue.pending.lookup k with
  | some held =>
      refine ⟨List.filter_sublist, fun other => ?_, fun other => lookup_erase_eq _ _ _⟩
      rw [List.mem_filter, decide_eq_true_eq]
      exact and_comm
  | none =>
      have hout : k ∉ queue.order := fun h => (hwell.listed k).mp h hlookup
      refine ⟨List.Sublist.refl _, fun other => ⟨fun h => ⟨?_, h⟩, And.right⟩, fun other => ?_⟩
      · rintro rfl
        exact hout h
      · by_cases hkey : other = k
        · rw [if_pos hkey, hkey]
          exact hlookup
        · rw [if_neg hkey]

theorem WellFormed.removes {after : KeyedQueue κ ρ} (hwell : WellFormed key queue)
    (hremoves : Removes queue k after) : WellFormed key after where
  nodup := hwell.nodup.sublist hremoves.sublist
  listed := by
    intro other
    rw [hremoves.mem, hremoves.lookup, hwell.listed]
    split
    · rename_i hkey
      exact ⟨fun h => absurd hkey h.1, fun h => absurd rfl h⟩
    · rename_i hkey
      exact ⟨And.right, fun h => ⟨hkey, h⟩⟩
  keyed := by
    intro other found h
    rw [hremoves.lookup] at h
    split at h
    · exact nomatch h
    · exact hwell.keyed other found h

/-! ## The next item -/

/-- The best of the keys that were seen. -/
def IsBest (priority : ρ → π) (pending : AList fun _ : κ => ρ) (seen : List κ) :
    Option (Nat × π) → Prop
  | none => ∀ k ∈ seen, pending.lookup k = none
  | some (index, best) =>
      (∃ k item, seen[index]? = some k ∧ pending.lookup k = some item ∧ priority item = best) ∧
        ∀ other k item, seen[other]? = some k → pending.lookup k = some item →
          priority item ≤ best ∧ (other < index → priority item < best)

variable {priority : ρ → π} {pending : AList fun _ : κ => ρ} {seen : List κ}

theorem IsBest.better {best : Option (Nat × π)} (h : IsBest priority pending seen best) (k : κ) :
    IsBest priority pending (seen ++ [k]) (better priority pending seen.length k best) := by
  -- a key that was seen is an old one, or the one that was added
  have hcases : ∀ {other : Nat} {k' : κ}, (seen ++ [k])[other]? = some k' →
      other < seen.length ∧ seen[other]? = some k' ∨ other = seen.length ∧ k' = k := by
    intro other k' hother
    rcases Nat.lt_trichotomy other seen.length with hlt | heq | hgt
    · exact .inl ⟨hlt, (List.getElem?_append_left hlt).symm.trans hother⟩
    · subst heq
      refine .inr ⟨rfl, ?_⟩
      rw [List.getElem?_append_right (Nat.le_refl _), Nat.sub_self] at hother
      exact (Option.some.inj hother).symm
    · rw [List.getElem?_append_right (Nat.le_of_lt hgt)] at hother
      have hnone : ([k] : List κ)[other - seen.length]? = none :=
        List.getElem?_eq_none (by simp only [List.length_singleton]; omega)
      exact nomatch hnone.symm.trans hother
  have hlast : (seen ++ [k])[seen.length]? = some k := by
    rw [List.getElem?_append_right (Nat.le_refl _), Nat.sub_self]
    rfl
  have hold : ∀ {index : Nat} {k' : κ}, seen[index]? = some k' →
      (seen ++ [k])[index]? = some k' := by
    intro index k' hindex
    rw [List.getElem?_append_left (List.getElem?_eq_some_iff.mp hindex).1]
    exact hindex
  unfold KeyedQueue.better
  cases hlookup : pending.lookup k with
  | none =>
      cases best with
      | none =>
          intro k' hk'
          obtain hk' | hk' := List.mem_append.mp hk'
          · exact h k' hk'
          · rw [List.mem_singleton.mp hk']
            exact hlookup
      | some best =>
          obtain ⟨⟨k', item, hindex, hitem, hbest⟩, hless⟩ := h
          refine ⟨⟨k', item, hold hindex, hitem, hbest⟩, ?_⟩
          intro other k'' item' hother hitem'
          obtain ⟨-, hother⟩ | ⟨-, rfl⟩ := hcases hother
          · exact hless other k'' item' hother hitem'
          · exact nomatch hlookup.symm.trans hitem'
  | some item =>
      cases best with
      | none =>
          refine ⟨⟨k, item, hlast, hlookup, rfl⟩, ?_⟩
          intro other k' item' hother hitem'
          obtain ⟨-, hother⟩ | ⟨rfl, rfl⟩ := hcases hother
          · exact nomatch (h k' (List.mem_of_getElem? hother)).symm.trans hitem'
          · cases hlookup.symm.trans hitem'
            exact ⟨le_refl _, fun hlt => absurd hlt (Nat.lt_irrefl _)⟩
      | some best =>
          obtain ⟨index, best⟩ := best
          obtain ⟨⟨k', held, hindex, hheld, hbest⟩, hless⟩ := h
          have hbound : index < seen.length := (List.getElem?_eq_some_iff.mp hindex).1
          simp only []
          split
          · rename_i hlt
            refine ⟨⟨k, item, hlast, hlookup, rfl⟩, ?_⟩
            intro other k'' item' hother hitem'
            obtain ⟨-, hother⟩ | ⟨rfl, rfl⟩ := hcases hother
            · have hle := (hless other k'' item' hother hitem').1
              exact ⟨(lt_of_le_of_lt hle hlt).le, fun _ => lt_of_le_of_lt hle hlt⟩
            · cases hlookup.symm.trans hitem'
              exact ⟨le_refl _, fun hlt => absurd hlt (Nat.lt_irrefl _)⟩
          · rename_i hge
            refine ⟨⟨k', held, hold hindex, hheld, hbest⟩, ?_⟩
            intro other k'' item' hother hitem'
            obtain ⟨-, hother⟩ | ⟨rfl, rfl⟩ := hcases hother
            · exact hless other k'' item' hother hitem'
            · cases hlookup.symm.trans hitem'
              exact ⟨not_lt.mp hge, fun hlt => absurd hlt (by omega)⟩

theorem IsBest.bestFrom {best : Option (Nat × π)} {keys : List κ}
    (h : IsBest priority pending seen best) :
    IsBest priority pending (seen ++ keys)
      (bestFrom priority pending seen.length best keys) := by
  induction keys generalizing seen best with
  | nil => rwa [List.append_nil]
  | cons k keys ih =>
      have hnext := ih (h.better k)
      rw [List.append_assoc, List.length_append] at hnext
      exact hnext

/-- The item that is taken is the oldest one of the highest priority. -/
structure IsNext (priority : ρ → π) (queue : KeyedQueue κ ρ) (k : κ) (item : ρ) : Prop where
  held : queue.pending.lookup k = some item
  best : ∃ index : Nat, queue.order[index]? = some k ∧
    ∀ (other : Nat) (k' : κ) (item' : ρ), queue.order[other]? = some k' → queue.pending.lookup k' = some item' →
      priority item' ≤ priority item ∧ (other < index → priority item' < priority item)

/-- Nothing is taken from a queue that holds nothing; else the next item is. -/
theorem pop_cases (hwell : WellFormed key queue) (priority : ρ → π) :
    (∀ k, queue.pending.lookup k = none) ∧ queue.pop priority = (none, queue) ∨
      ∃ k item after, IsNext priority queue k item ∧ Removes queue k after ∧
        queue.pop priority = (some item, after) := by
  have hstart : IsBest priority queue.pending [] none := fun k hk => (nomatch hk)
  have hbest := @IsBest.bestFrom _ _ _ _ _ _ _ _ _ queue.order hstart
  rw [List.nil_append, List.length_nil] at hbest
  unfold pop bestIndex
  cases hfound : KeyedQueue.bestFrom priority queue.pending 0 none queue.order with
  | none =>
      rw [hfound] at hbest
      refine .inl ⟨fun k => ?_, rfl⟩
      by_contra hheld
      exact hheld (hbest k ((hwell.listed k).mpr hheld))
  | some found =>
      obtain ⟨index, best⟩ := found
      rw [hfound] at hbest
      obtain ⟨⟨k, item, hindex, hheld, rfl⟩, hless⟩ := hbest
      obtain ⟨hbound, hget⟩ := List.getElem?_eq_some_iff.mp hindex
      refine .inr ⟨k, item, ⟨queue.order.eraseIdx index, queue.pending.erase k⟩,
        ⟨hheld, index, hindex, hless⟩, ⟨List.eraseIdx_sublist _ _, ?_, ?_⟩, ?_⟩
      · intro other
        have herase : queue.order.eraseIdx index = queue.order.erase k := by
          rw [← hget, List.erase_eq_eraseIdx_of_idxOf (hwell.nodup.idxOf_getElem index hbound)]
        rw [herase]
        exact hwell.nodup.mem_erase_iff
      · exact lookup_erase_eq _ _
      · simp only [Option.map_some, hindex, hheld]

/-! ## The order of service -/

/-- The items that are held: the highest priority first, and the oldest first of one
priority. -/
def inTurn (priority : ρ → π) (queue : KeyedQueue κ ρ) : List ρ :=
  (queue.order.filterMap fun k => queue.pending.lookup k).insertionSort fun item item' =>
    priority item' ≤ priority item

/-- An item that is related to all behind it, and that none before it is related to, is
sorted to the front. -/
theorem insertionSort_front {r : ρ → ρ → Prop} [DecidableRel r] {front back : List ρ}
    (hfront : ∀ other ∈ front, ¬ r other item) (hback : ∀ other ∈ back, r item other) :
    (front ++ item :: back).insertionSort r = item :: (front ++ back).insertionSort r := by
  induction front with
  | nil => exact List.insertionSort_cons_of_forall_rel r hback
  | cons first front ih =>
      rw [List.cons_append, List.cons_append, List.insertionSort_cons, List.insertionSort_cons,
        ih fun other hother => hfront other (List.mem_cons_of_mem _ hother)]
      exact List.orderedInsert_of_not_le r _ (hfront first List.mem_cons_self)

theorem inTurn_next {after : KeyedQueue κ ρ} (hwell : WellFormed key queue)
    (hnext : IsNext priority queue k item) (hremoves : Removes queue k after) :
    queue.inTurn priority = item :: after.inTurn priority := by
  obtain ⟨index, hindex, hbest⟩ := hnext.best
  obtain ⟨hbound, hget⟩ := List.getElem?_eq_some_iff.mp hindex
  have hsplit : queue.order = queue.order.take index ++ k :: queue.order.drop (index + 1) := by
    rw [← hget, ← List.drop_eq_getElem_cons hbound, List.take_append_drop]
  have hlength := List.length_take_of_le hbound.le
  generalize queue.order.take index = front at hsplit hlength
  generalize queue.order.drop (index + 1) = back at hsplit
  subst hlength
  have hnodup := hwell.nodup
  rw [hsplit, List.nodup_middle, List.nodup_cons] at hnodup
  obtain ⟨hk, hnodup⟩ := hnodup
  have horder : after.order = front ++ back := by
    have hperm : after.order.Perm (front ++ back) := by
      refine (List.perm_ext_iff_of_nodup (hwell.nodup.sublist hremoves.sublist) hnodup).mpr
        fun other => (hremoves.mem other).trans ?_
      rw [hsplit, List.mem_append, List.mem_cons, List.mem_append]
      grind
    have hsublist := hremoves.sublist.erase k
    rw [hsplit, List.erase_append_right _ (fun h => hk (List.mem_append_left _ h)),
      List.erase_cons_head, List.erase_of_not_mem fun h => hk (hperm.mem_iff.mp h)] at hsublist
    exact hsublist.eq_of_length hperm.length_eq
  have hheld : ∀ other ∈ front ++ back, after.pending.lookup other = queue.pending.lookup other := by
    rintro other hother
    rw [hremoves.lookup, if_neg]
    rintro rfl
    exact hk hother
  rw [inTurn, inTurn, horder, List.filterMap_congr hheld, hsplit, List.filterMap_append,
    List.filterMap_append, List.filterMap_cons, hnext.held]
  refine insertionSort_front (fun found hfound hle => ?_) fun found hfound => ?_
  · obtain ⟨k', hk', hlookup⟩ := List.mem_filterMap.mp hfound
    obtain ⟨other, hother, rfl⟩ := List.getElem_of_mem hk'
    refine absurd hle (not_le.mpr ((hbest other _ found ?_ hlookup).2 hother))
    rw [hsplit, List.getElem?_append_left hother]
    exact List.getElem?_eq_getElem hother
  · obtain ⟨k', hk', hlookup⟩ := List.mem_filterMap.mp hfound
    have hmem : k' ∈ queue.order := by
      rw [hsplit]
      exact List.mem_append_right _ (List.mem_cons_of_mem _ hk')
    obtain ⟨other, hother⟩ := List.mem_iff_getElem?.mp hmem
    exact (hbest other k' found hother hlookup).1

/-! ## Ledgers -/

/-- What came in for each key since it was last removed, the newest first. -/
abbrev Ledger (κ ρ : Type) : Type := κ → List ρ

def Ledger.push (key : ρ → κ) (item : ρ) (ledger : Ledger κ ρ) : Ledger κ ρ :=
  Function.update ledger (key item) (item :: ledger (key item))

def Ledger.remove (k : κ) (ledger : Ledger κ ρ) : Ledger κ ρ := Function.update ledger k []

/-- The item that a key holds has the greatest measure of the key's ledger. -/
def Attains (measure : ρ → μ) (queue : KeyedQueue κ ρ) (ledger : Ledger κ ρ) : Prop :=
  ∀ k, match queue.pending.lookup k with
    | none => ledger k = []
    | some item => IsGreatest {m | ∃ queued ∈ ledger k, measure queued = m} (measure item)

variable {measure : ρ → μ} {ledger : Ledger κ ρ}

theorem attains_empty : Attains measure (empty : KeyedQueue κ ρ) fun _ => [] := by
  intro k
  have hnone : (empty : KeyedQueue κ ρ).pending.lookup k = none := AList.lookup_empty k
  rw [hnone]

theorem measures_cons {ν : Type} (measure : ρ → ν) (item : ρ) (items : List ρ) :
    {m | ∃ queued ∈ item :: items, measure queued = m} =
      insert (measure item) {m | ∃ queued ∈ items, measure queued = m} := by
  ext m
  constructor
  · rintro ⟨queued, hqueued, rfl⟩
    obtain rfl | hqueued := List.mem_cons.mp hqueued
    · exact .inl rfl
    · exact .inr ⟨queued, hqueued, rfl⟩
  · rintro (rfl | ⟨queued, hqueued, rfl⟩)
    · exact ⟨item, List.mem_cons_self, rfl⟩
    · exact ⟨queued, List.mem_cons_of_mem _ hqueued, rfl⟩

theorem Attains.push (h : Attains measure queue ledger)
    (hmerge : ∀ held item, measure (merge held item) = max (measure held) (measure item))
    (item : ρ) : Attains measure (queue.push key merge item).2 (ledger.push key item) := by
  intro k
  rw [lookup_push]
  by_cases hkey : k = key item
  · subst hkey
    have hledger : ledger.push key item (key item) = item :: ledger (key item) :=
      Function.update_self _ _ _
    have hbefore := h (key item)
    rw [if_pos rfl]
    simp only [hledger]
    cases hlookup : queue.pending.lookup (key item) with
    | none =>
        rw [hlookup] at hbefore
        rw [hbefore]
        refine ⟨⟨item, List.mem_singleton_self _, rfl⟩, ?_⟩
        rintro m ⟨queued, hqueued, rfl⟩
        rw [List.mem_singleton.mp hqueued]
    | some held =>
        rw [hlookup] at hbefore
        rw [measures_cons]
        simp only [hmerge, max_comm (measure held)]
        exact hbefore.insert _
  · have hledger : ledger.push key item k = ledger k := Function.update_of_ne hkey _ _
    rw [if_neg hkey, hledger]
    exact h k

theorem Attains.removes {after : KeyedQueue κ ρ} (h : Attains measure queue ledger)
    (hremoves : Removes queue k after) : Attains measure after (ledger.remove k) := by
  intro other
  rw [hremoves.lookup]
  by_cases hkey : other = k
  · rw [if_pos hkey, hkey]
    exact Function.update_self _ _ _
  · have hledger : ledger.remove k other = ledger other := Function.update_of_ne hkey _ _
    rw [if_neg hkey, hledger]
    exact h other

end KeyedQueue

end Locality.Foundation
