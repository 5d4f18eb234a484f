/-
  Foundation/Placement.lean --- building a sequence by insertions behind a cursor.

  The sequence starts as `n` items that stand at home, in order.  A run of placements
  then rewrites an item at its home, which moves the cursor there, or puts a further
  item behind the last one at the cursor; an item may be taken from its home for that.
  A `Layout` keeps the homes and what was put behind each of them apart, so a
  placement changes one group of it, while `insertAfter`, `rewriteFirst` and
  `removeFirst` do the same on the plain list.

  What a run of placements leaves is `arrange`: the placements cut in front of every
  one that stays at home, and the pieces put in the order of their homes.
-/
import Mathlib.Data.List.Basic
import Mathlib.Data.List.Pairwise
import Mathlib.Data.List.Nodup
import Mathlib.Logic.Function.Basic
import Mathlib.Tactic.Common

set_option autoImplicit false

namespace Locality.Foundation

variable {α β : Type}

/-! ## Edits of a list at the first item of a kind -/

/-- Put `x` behind the first item that satisfies `p`. -/
def insertAfter (p : α → Bool) (x : α) : List α → Option (List α)
  | [] => none
  | y :: ys => if p y then some (y :: x :: ys) else (insertAfter p x ys).map (y :: ·)

/-- Put items behind the first item that satisfies `p`, in their order. -/
def insertAllAfter (p : α → Bool) (xs : List α) : List α → Option (List α)
  | [] => none
  | y :: ys => if p y then some (y :: (xs ++ ys)) else (insertAllAfter p xs ys).map (y :: ·)

/-- Rewrite the first item that satisfies `p`. -/
def rewriteFirst (p : α → Bool) (f : α → α) : List α → Option (List α)
  | [] => none
  | y :: ys => if p y then some (f y :: ys) else (rewriteFirst p f ys).map (y :: ·)

/-- Take out the first item that satisfies `p`. -/
def removeFirst (p : α → Bool) : List α → Option (List α)
  | [] => none
  | y :: ys => if p y then some ys else (removeFirst p ys).map (y :: ·)

section First

variable {p : α → Bool} {xs ys : List α} {y : α}

theorem insertAfter_append (x : α) (hxs : ∀ z ∈ xs, p z = false) (hy : p y = true) :
    insertAfter p x (xs ++ y :: ys) = some (xs ++ y :: x :: ys) := by
  induction xs with
  | nil => simp [insertAfter, hy]
  | cons z xs ih =>
      rw [List.forall_mem_cons] at hxs
      simp [insertAfter, hxs.1, ih hxs.2]

theorem insertAllAfter_singleton (x : α) : insertAllAfter p [x] xs = insertAfter p x xs := by
  induction xs with
  | nil => rfl
  | cons z xs ih =>
      rw [insertAllAfter, insertAfter, ih]
      rfl

/-- Items go behind the first one as one of them goes there and the others behind it. -/
theorem insertAllAfter_cons {q : α → Bool} {x : α} (zs : List α) (hx : q x = true)
    (hxs : ∀ z ∈ xs, q z = false) :
    insertAllAfter p (x :: zs) xs = (insertAfter p x xs).bind (insertAllAfter q zs) := by
  induction xs with
  | nil => rfl
  | cons z xs ih =>
      obtain ⟨hz, hxs⟩ := List.forall_mem_cons.mp hxs
      rw [insertAllAfter, insertAfter]
      split
      · rw [Option.bind_some, insertAllAfter, if_neg (Bool.eq_false_iff.mp hz), insertAllAfter,
          if_pos hx]
        rfl
      · rw [ih hxs]
        cases insertAfter p x xs with
        | none => rfl
        | some ys =>
            rw [Option.map_some, Option.bind_some, Option.bind_some, insertAllAfter,
              if_neg (Bool.eq_false_iff.mp hz)]

theorem mem_of_insertAllAfter {zs : List α} (h : insertAllAfter p zs xs = some ys) (hy : y ∈ ys) :
    y ∈ xs ∨ y ∈ zs := by
  induction xs generalizing ys with
  | nil => cases h
  | cons z xs ih =>
      rw [insertAllAfter] at h
      split at h
      · cases h
        rcases List.mem_cons.mp hy with rfl | hy
        · exact Or.inl List.mem_cons_self
        · exact (List.mem_append.mp hy).symm.imp_left (List.mem_cons_of_mem z)
      · obtain ⟨ys', hys', rfl⟩ := Option.map_eq_some_iff.mp h
        rcases List.mem_cons.mp hy with rfl | hy
        · exact Or.inl List.mem_cons_self
        · exact (ih hys' hy).imp_left (List.mem_cons_of_mem z)

theorem rewriteFirst_append (f : α → α) (hxs : ∀ z ∈ xs, p z = false) (hy : p y = true) :
    rewriteFirst p f (xs ++ y :: ys) = some (xs ++ f y :: ys) := by
  induction xs with
  | nil => simp [rewriteFirst, hy]
  | cons z xs ih =>
      rw [List.forall_mem_cons] at hxs
      simp [rewriteFirst, hxs.1, ih hxs.2]

theorem removeFirst_append (hxs : ∀ z ∈ xs, p z = false) (hy : p y = true) :
    removeFirst p (xs ++ y :: ys) = some (xs ++ ys) := by
  induction xs with
  | nil => simp [removeFirst, hy]
  | cons z xs ih =>
      rw [List.forall_mem_cons] at hxs
      simp [removeFirst, hxs.1, ih hxs.2]

theorem find?_append_of_first (hxs : ∀ z ∈ xs, p z = false) (hy : p y = true) :
    (xs ++ y :: ys).find? p = some y := by
  rw [List.find?_append, List.find?_eq_none.mpr (by simpa using hxs), Option.none_or,
    List.find?_cons_of_pos hy]

theorem insertAfter_eq_none (x : α) :
    insertAfter p x xs = none ↔ ∀ z ∈ xs, p z = false := by
  induction xs with
  | nil => simp [insertAfter]
  | cons z xs ih =>
      rw [List.forall_mem_cons, insertAfter]
      cases hz : p z with
      | true => simp
      | false => simp [ih]

theorem rewriteFirst_eq_none (f : α → α) :
    rewriteFirst p f xs = none ↔ ∀ z ∈ xs, p z = false := by
  induction xs with
  | nil => simp [rewriteFirst]
  | cons z xs ih =>
      rw [List.forall_mem_cons, rewriteFirst]
      cases hz : p z with
      | true => simp
      | false => simp [ih]

theorem removeFirst_eq_none : removeFirst p xs = none ↔ ∀ z ∈ xs, p z = false := by
  induction xs with
  | nil => simp [removeFirst]
  | cons z xs ih =>
      rw [List.forall_mem_cons, removeFirst]
      cases hz : p z with
      | true => simp
      | false => simp [ih]

/-- A list that has an item of the kind, cut in front of the first one. -/
theorem exists_first (h : ¬ ∀ z ∈ xs, p z = false) :
    ∃ before y after, xs = before ++ y :: after ∧ p y = true ∧ ∀ z ∈ before, p z = false := by
  induction xs with
  | nil => exact absurd (by simp) h
  | cons z xs ih =>
      cases hz : p z with
      | true => exact ⟨[], z, xs, rfl, hz, by simp⟩
      | false =>
          rw [List.forall_mem_cons] at h
          obtain ⟨before, y, after, rfl, hy, hbefore⟩ := ih (fun hxs => h ⟨hz, hxs⟩)
          exact ⟨z :: before, y, after, rfl, hy, List.forall_mem_cons.mpr ⟨hz, hbefore⟩⟩

theorem exists_of_insertAfter {x : α} (h : insertAfter p x xs = some ys) :
    ∃ before y after, xs = before ++ y :: after ∧ p y = true ∧ (∀ z ∈ before, p z = false) ∧
      ys = before ++ y :: x :: after := by
  obtain ⟨before, y, after, rfl, hy, hbefore⟩ := @exists_first α p xs (fun hnone => by
    rw [(insertAfter_eq_none x).mpr hnone] at h
    cases h)
  rw [insertAfter_append x hbefore hy] at h
  exact ⟨before, y, after, rfl, hy, hbefore, (Option.some.inj h).symm⟩

theorem exists_of_rewriteFirst {f : α → α} (h : rewriteFirst p f xs = some ys) :
    ∃ before y after, xs = before ++ y :: after ∧ p y = true ∧ (∀ z ∈ before, p z = false) ∧
      ys = before ++ f y :: after := by
  obtain ⟨before, y, after, rfl, hy, hbefore⟩ := @exists_first α p xs (fun hnone => by
    rw [(rewriteFirst_eq_none f).mpr hnone] at h
    cases h)
  rw [rewriteFirst_append f hbefore hy] at h
  exact ⟨before, y, after, rfl, hy, hbefore, (Option.some.inj h).symm⟩

theorem exists_of_removeFirst (h : removeFirst p xs = some ys) :
    ∃ before y after, xs = before ++ y :: after ∧ p y = true ∧ (∀ z ∈ before, p z = false) ∧
      ys = before ++ after := by
  obtain ⟨before, y, after, rfl, hy, hbefore⟩ := @exists_first α p xs (fun hnone => by
    rw [removeFirst_eq_none.mpr hnone] at h
    cases h)
  rw [removeFirst_append hbefore hy] at h
  exact ⟨before, y, after, rfl, hy, hbefore, (Option.some.inj h).symm⟩

end First

/-! ## Edits seen through a filter -/

section Filter

variable {p q : α → Bool} {xs ys : List α} {x : α} {f : α → α}

theorem filter_insertAfter_of_not (h : insertAfter p x xs = some ys) (hx : q x = false) :
    ys.filter q = xs.filter q := by
  obtain ⟨before, y, after, rfl, _, _, rfl⟩ := exists_of_insertAfter h
  cases hy : q y <;> simp [hx, hy]

theorem filter_removeFirst_of_not (h : removeFirst p xs = some ys)
    (hp : ∀ z ∈ xs, p z = true → q z = false) : ys.filter q = xs.filter q := by
  obtain ⟨before, y, after, rfl, hy, _, rfl⟩ := exists_of_removeFirst h
  simp [hp y (by simp) hy]

theorem filter_rewriteFirst_of_not (h : rewriteFirst p f xs = some ys)
    (hp : ∀ z ∈ xs, p z = true → q z = false ∧ q (f z) = false) :
    ys.filter q = xs.filter q := by
  obtain ⟨before, y, after, rfl, hy, _, rfl⟩ := exists_of_rewriteFirst h
  have hqy := hp y (by simp) hy
  simp [hqy.1, hqy.2]

/-- An edit at an item that the filter keeps is the edit of the filtered list. -/
theorem filter_insertAfter (hp : ∀ z ∈ xs, p z = true → q z = true) (hx : q x = true) :
    (insertAfter p x xs).map (List.filter q) = insertAfter p x (xs.filter q) := by
  cases h : insertAfter p x xs with
  | none =>
      rw [insertAfter_eq_none] at h
      symm
      rw [Option.map_none, insertAfter_eq_none]
      exact fun z hz => h z (List.mem_of_mem_filter hz)
  | some ys =>
      obtain ⟨before, y, after, rfl, hy, hbefore, rfl⟩ := exists_of_insertAfter h
      have hqy := hp y (by simp) hy
      rw [List.filter_append, List.filter_cons_of_pos hqy, insertAfter_append x
        (fun z hz => hbefore z (List.mem_of_mem_filter hz)) hy]
      simp [hqy, hx]

theorem filter_rewriteFirst (hp : ∀ z ∈ xs, p z = true → q z = true)
    (hf : ∀ z, p z = true → q z = true → q (f z) = true) :
    (rewriteFirst p f xs).map (List.filter q) = rewriteFirst p f (xs.filter q) := by
  cases h : rewriteFirst p f xs with
  | none =>
      rw [rewriteFirst_eq_none] at h
      symm
      rw [Option.map_none, rewriteFirst_eq_none]
      exact fun z hz => h z (List.mem_of_mem_filter hz)
  | some ys =>
      obtain ⟨before, y, after, rfl, hy, hbefore, rfl⟩ := exists_of_rewriteFirst h
      have hqy := hp y (by simp) hy
      rw [List.filter_append, List.filter_cons_of_pos hqy, rewriteFirst_append f
        (fun z hz => hbefore z (List.mem_of_mem_filter hz)) hy]
      simp [hf y hy hqy]

theorem filter_removeFirst (hp : ∀ z ∈ xs, p z = true → q z = true) :
    (removeFirst p xs).map (List.filter q) = removeFirst p (xs.filter q) := by
  cases h : removeFirst p xs with
  | none =>
      rw [removeFirst_eq_none] at h
      symm
      rw [Option.map_none, removeFirst_eq_none]
      exact fun z hz => h z (List.mem_of_mem_filter hz)
  | some ys =>
      obtain ⟨before, y, after, rfl, hy, hbefore, rfl⟩ := exists_of_removeFirst h
      rw [List.filter_append, List.filter_cons_of_pos (hp y (by simp) hy), removeFirst_append
        (fun z hz => hbefore z (List.mem_of_mem_filter hz)) hy]
      simp

/-- A rewrite that takes the item out of the filter removes it from the filtered list. -/
theorem filter_rewriteFirst_out (h : rewriteFirst p f xs = some ys)
    (hp : ∀ z ∈ xs, p z = true → q z = true) (hf : ∀ z, p z = true → q (f z) = false) :
    removeFirst p (xs.filter q) = some (ys.filter q) := by
  obtain ⟨before, y, after, rfl, hy, hbefore, rfl⟩ := exists_of_rewriteFirst h
  rw [List.filter_append, List.filter_cons_of_pos (hp y (by simp) hy), removeFirst_append
    (fun z hz => hbefore z (List.mem_of_mem_filter hz)) hy]
  simp [hf y hy]

theorem perm_of_insertAfter (h : insertAfter p x xs = some ys) : ys.Perm (x :: xs) := by
  obtain ⟨before, y, after, rfl, _, _, rfl⟩ := exists_of_insertAfter h
  have hmiddle := @List.perm_middle α x (before ++ [y]) after
  simpa using hmiddle

theorem perm_of_removeFirst (h : removeFirst p xs = some ys) :
    ∃ y, p y = true ∧ xs.Perm (y :: ys) := by
  obtain ⟨before, y, after, rfl, hy, _, rfl⟩ := exists_of_removeFirst h
  exact ⟨y, hy, List.perm_middle⟩

theorem perm_of_rewriteFirst (h : rewriteFirst p f xs = some ys) :
    ∃ y rest, p y = true ∧ xs.Perm (y :: rest) ∧ ys.Perm (f y :: rest) := by
  obtain ⟨before, y, after, rfl, hy, _, rfl⟩ := exists_of_rewriteFirst h
  exact ⟨y, before ++ after, hy, List.perm_middle, List.perm_middle⟩

end Filter

/-- At most one item of the list satisfies `p`. -/
def AtMostOne (p : α → Bool) (xs : List α) : Prop :=
  xs.Pairwise fun a b => ¬ (p a = true ∧ p b = true)

theorem AtMostOne.before {p : α → Bool} {xs ys : List α} {y : α}
    (h : AtMostOne p (xs ++ y :: ys)) (hy : p y = true) : ∀ z ∈ xs, p z = false := by
  intro z hz
  have hnot := (List.pairwise_append.mp h).2.2 z hz y List.mem_cons_self
  cases hpz : p z with
  | false => rfl
  | true => exact absurd ⟨hpz, hy⟩ hnot

/-! ## Layouts -/

/-- What stands in front of every home, the item at each home, and what was put
behind it. -/
structure Layout (α : Type) where
  front : List α
  home : Nat → Option α
  run : Nat → List α

namespace Layout

/-- A home with what was put behind it. -/
def group (L : Layout α) (i : Nat) : List α := (L.home i).toList ++ L.run i

/-- The sequence that a layout with `n` homes stands for. -/
def items (n : Nat) (L : Layout α) : List α := L.front ++ (List.range n).flatMap L.group

/-- The group at a cursor; without one it is the front. -/
def groupAt (L : Layout α) : Option Nat → List α
  | none => L.front
  | some i => L.group i

/-- The items at home, before anything is placed. -/
def atHome (xs : List α) : Layout α := ⟨[], fun i => xs[i]?, fun _ => []⟩

theorem items_atHome (xs : List α) : (atHome xs).items xs.length = xs := by
  have hflat : ∀ ys : List α, (List.range ys.length).flatMap (fun i => ys[i]?.toList) = ys := by
    intro ys
    induction ys with
    | nil => rfl
    | cons y ys ih =>
        rw [List.length_cons, List.range_succ_eq_map, List.flatMap_cons, List.flatMap_map]
        exact congrArg (y :: ·) ih
  have hgroup : (atHome xs).group = fun i => xs[i]?.toList := by
    funext i
    simp [group, atHome]
  rw [items, hgroup, hflat]
  rfl

/-- Put an item behind the last one at the cursor. -/
def push (c : Option Nat) (x : α) (L : Layout α) : Layout α :=
  match c with
  | none => { L with front := L.front ++ [x] }
  | some i => { L with run := Function.update L.run i (L.run i ++ [x]) }

def setHome (i : Nat) (h : Option α) (L : Layout α) : Layout α :=
  { L with home := Function.update L.home i h }

variable {L : Layout α} {n i : Nat} {c : Option Nat} {p : α → Bool} {x y : α}

theorem group_push_self (i : Nat) (x : α) :
    (L.push (some i) x).group i = L.group i ++ [x] := by
  simp [push, group]

theorem group_push_of_ne {j : Nat} (h : c ≠ some j) :
    (L.push c x).group j = L.group j := by
  cases c with
  | none => rfl
  | some i =>
      have hne : j ≠ i := fun heq => h (congrArg some heq.symm)
      simp [push, group, Function.update_of_ne hne]

theorem group_setHome_self (h : Option α) :
    (L.setHome i h).group i = h.toList ++ L.run i := by
  simp [setHome, group]

theorem group_setHome_of_ne {j : Nat} (h : Option α) (hne : j ≠ i) :
    (L.setHome i h).group j = L.group j := by
  simp [setHome, group, Function.update_of_ne hne]

theorem groupAt_push (c : Option Nat) (x : α) :
    (L.push c x).groupAt c = L.groupAt c ++ [x] := by
  cases c with
  | none => rfl
  | some i => exact group_push_self i x

theorem range_split (h : i < n) :
    List.range n = List.range i ++ i :: List.range' (i + 1) (n - (i + 1)) := by
  obtain ⟨k, rfl⟩ : ∃ k, n = i + (k + 1) := ⟨n - (i + 1), by omega⟩
  rw [List.range_eq_range', List.range_eq_range', show i + (k + 1) - (i + 1) = k by omega,
    ← List.range'_succ, ← List.range'_append]
  simp

/-- Layouts that differ in the group of one home only stand for sequences that differ
there only. -/
theorem exists_split (h : i < n) (L : Layout α) :
    ∃ before after, ∀ L' : Layout α, L'.front = L.front →
      (∀ j, j ≠ i → L'.group j = L.group j) →
      L'.items n = before ++ L'.group i ++ after := by
  refine ⟨L.front ++ (List.range i).flatMap L.group,
    (List.range' (i + 1) (n - (i + 1))).flatMap L.group, ?_⟩
  intro L' hfront hgroup
  have hbefore : (List.range i).flatMap L'.group = (List.range i).flatMap L.group := by
    apply List.flatMap_congr
    intro j hj
    exact hgroup j (Nat.ne_of_lt (List.mem_range.mp hj))
  have hafter : (List.range' (i + 1) (n - (i + 1))).flatMap L'.group =
      (List.range' (i + 1) (n - (i + 1))).flatMap L.group := by
    apply List.flatMap_congr
    intro j hj
    rw [List.mem_range'_1] at hj
    exact hgroup j (by omega)
  rw [items, range_split h, List.flatMap_append, List.flatMap_cons, hfront, hbefore, hafter]
  simp [List.append_assoc]

/-- The group at a cursor is one piece of the sequence, and a push lengthens it. -/
theorem items_push (hc : ∀ i, c = some i → i < n) :
    ∃ before after, L.items n = before ++ L.groupAt c ++ after ∧
      ∀ x, (L.push c x).items n = before ++ (L.groupAt c ++ [x]) ++ after := by
  cases c with
  | none =>
      refine ⟨[], (List.range n).flatMap L.group, ?_, ?_⟩
      · simp [items, groupAt]
      · intro x
        simp only [items, push, groupAt, List.nil_append]
        rfl
  | some i =>
      obtain ⟨before, after, hsplit⟩ := exists_split (hc i rfl) L
      refine ⟨before, after, hsplit L rfl (fun _ _ => rfl), ?_⟩
      intro x
      rw [hsplit (L.push (some i) x) rfl, group_push_self]
      · rfl
      · intro j hne
        exact group_push_of_ne (fun heq => hne (Option.some.inj heq).symm)

/-- Inserting behind the last item at the cursor is a push. -/
theorem insertAfter_items (hc : ∀ i, c = some i → i < n)
    (hlast : (L.groupAt c).getLast? = some y) (hp : p y = true)
    (hone : AtMostOne p (L.items n)) (x : α) :
    insertAfter p x (L.items n) = some ((L.push c x).items n) := by
  obtain ⟨before, after, hitems, hpush⟩ := @items_push α L n c hc
  obtain ⟨group, hgroup⟩ := List.getLast?_eq_some_iff.mp hlast
  have hlist : L.items n = (before ++ group) ++ y :: after := by
    rw [hitems, hgroup]
    simp
  rw [hlist] at hone ⊢
  rw [insertAfter_append x (hone.before hp) hp, hpush, hgroup]
  simp

/-- Inserting at the start is a push in front, while nothing stands there. -/
theorem cons_items (hfront : L.front = []) (x : α) :
    x :: L.items n = (L.push none x).items n := by
  simp only [items, push, hfront, List.nil_append, List.singleton_append]
  rfl

/-- Rewriting the item that was pushed last. -/
theorem rewriteFirst_push (hc : ∀ i, c = some i → i < n) (f : α → α) (hp : p x = true)
    (hone : AtMostOne p ((L.push c x).items n)) :
    rewriteFirst p f ((L.push c x).items n) = some ((L.push c (f x)).items n) := by
  obtain ⟨before, after, _, hpush⟩ := @items_push α L n c hc
  have hlist : (L.push c x).items n = (before ++ L.groupAt c) ++ x :: after := by
    rw [hpush]
    simp
  rw [hlist] at hone ⊢
  rw [rewriteFirst_append f (hone.before hp) hp, hpush]
  simp

/-- A home is one item of the sequence, which can be replaced or left out. -/
theorem items_setHome (hi : i < n) (hhome : L.home i = some y) :
    ∃ before after, L.items n = before ++ y :: after ∧
      (∀ z, (L.setHome i (some z)).items n = before ++ z :: after) ∧
      (L.setHome i none).items n = before ++ after := by
  obtain ⟨before, after, hsplit⟩ := exists_split hi L
  have hset : ∀ h, (L.setHome i h).items n = before ++ (h.toList ++ L.run i) ++ after := by
    intro h
    rw [hsplit (L.setHome i h) rfl, group_setHome_self]
    intro j hne
    exact group_setHome_of_ne h hne
  refine ⟨before, L.run i ++ after, ?_, ?_, ?_⟩
  · rw [hsplit L rfl (fun _ _ => rfl), group, hhome]
    simp
  · intro z
    rw [hset]
    simp
  · rw [hset]
    simp

theorem rewriteFirst_items (hi : i < n) (hhome : L.home i = some y) (hp : p y = true)
    (hone : AtMostOne p (L.items n)) (f : α → α) :
    rewriteFirst p f (L.items n) = some ((L.setHome i (some (f y))).items n) := by
  obtain ⟨before, after, hlist, hset, _⟩ := items_setHome hi hhome
  rw [hlist] at hone ⊢
  rw [rewriteFirst_append f (hone.before hp) hp, hset]

theorem removeFirst_items (hi : i < n) (hhome : L.home i = some y) (hp : p y = true)
    (hone : AtMostOne p (L.items n)) :
    removeFirst p (L.items n) = some ((L.setHome i none).items n) := by
  obtain ⟨before, after, hlist, _, hset⟩ := items_setHome hi hhome
  rw [hlist] at hone ⊢
  rw [removeFirst_append (hone.before hp) hp, hset]

theorem find?_items (hi : i < n) (hhome : L.home i = some y) (hp : p y = true)
    (hone : AtMostOne p (L.items n)) : (L.items n).find? p = some y := by
  obtain ⟨before, after, hlist, _, _⟩ := items_setHome hi hhome
  rw [hlist] at hone ⊢
  exact find?_append_of_first (hone.before hp) hp

theorem perm_push (hc : ∀ i, c = some i → i < n) (x : α) :
    ((L.push c x).items n).Perm (x :: L.items n) := by
  obtain ⟨before, after, hitems, hpush⟩ := @items_push α L n c hc
  rw [hpush, hitems, ← List.append_assoc, List.append_assoc (before ++ L.groupAt c)]
  exact List.perm_middle

theorem perm_setHome_some (hi : i < n) (hhome : L.home i = some y) (z : α) :
    ((L.setHome i (some z)).items n).Perm (z :: (L.setHome i none).items n) := by
  obtain ⟨before, after, _, hset, hnone⟩ := items_setHome hi hhome
  rw [hset, hnone]
  exact List.perm_middle

theorem perm_setHome_none (hi : i < n) (hhome : L.home i = some y) :
    (L.items n).Perm (y :: (L.setHome i none).items n) := by
  obtain ⟨before, after, hlist, _, hnone⟩ := items_setHome hi hhome
  rw [hlist, hnone]
  exact List.perm_middle

/-! ## Homes alone -/

/-- The items at home, with nothing put behind them. -/
def ofHomes (home : Nat → Option α) : Layout α := ⟨[], home, fun _ => []⟩

theorem items_ofHomes (home : Nat → Option α) (n : Nat) :
    (ofHomes home).items n = (List.range n).filterMap home := by
  have hgroup : (ofHomes home).group = fun i => (home i).toList := by
    funext i
    simp [group, ofHomes]
  rw [items, hgroup, List.filterMap_eq_flatMap_toList]
  rfl

theorem mem_items_ofHomes {home : Nat → Option α} :
    x ∈ (ofHomes home).items n ↔ ∃ i, i < n ∧ home i = some x := by
  rw [items_ofHomes, List.mem_filterMap]
  simp only [List.mem_range]

theorem atMostOne_ofHomes {home : Nat → Option α}
    (h : ∀ i j x y, i < n → j < n → home i = some x → home j = some y → p x = true →
      p y = true → i = j) :
    AtMostOne p ((ofHomes home).items n) := by
  rw [items_ofHomes, AtMostOne, List.pairwise_filterMap]
  refine List.Pairwise.imp_of_mem ?_ List.nodup_range
  rintro i j hi hj hne x hx y hy ⟨hpx, hpy⟩
  exact hne (h i j x y (List.mem_range.mp hi) (List.mem_range.mp hj) hx hy hpx hpy)

/-- Behind one home is at the next one, while nothing stands there. -/
theorem insertAfter_ofHomes {home : Nat → Option α} (hi : i + 1 < n) (hhome : home i = some y)
    (hnext : home (i + 1) = none) (hp : p y = true) (hone : AtMostOne p ((ofHomes home).items n))
    (x : α) :
    insertAfter p x ((ofHomes home).items n) =
      some ((ofHomes (Function.update home (i + 1) (some x))).items n) := by
  rw [insertAfter_items (c := some i) (y := y) (fun j hj => by injection hj; omega)
    (by simp [groupAt, group, ofHomes, hhome]) hp hone]
  apply congrArg some
  have hrange : List.range n = List.range i ++ i :: (i + 1) ::
      List.range' (i + 1 + 1) (n - (i + 1 + 1)) := by
    rw [range_split (Nat.lt_of_succ_lt hi), show n - (i + 1) = n - (i + 1 + 1) + 1 by omega,
      List.range'_succ]
  have hother : ∀ j, j ≠ i → j ≠ i + 1 → ((ofHomes home).push (some i) x).group j =
      (ofHomes (Function.update home (i + 1) (some x))).group j := by
    intro j hne hne'
    rw [group_push_of_ne (fun heq => hne (Option.some.inj heq).symm)]
    simp [group, ofHomes, Function.update_of_ne hne']
  have hbefore : (List.range i).flatMap ((ofHomes home).push (some i) x).group =
      (List.range i).flatMap (ofHomes (Function.update home (i + 1) (some x))).group := by
    apply List.flatMap_congr
    intro j hj
    rw [List.mem_range] at hj
    exact hother j (by omega) (by omega)
  have hafter : (List.range' (i + 1 + 1) (n - (i + 1 + 1))).flatMap
      ((ofHomes home).push (some i) x).group =
        (List.range' (i + 1 + 1) (n - (i + 1 + 1))).flatMap
          (ofHomes (Function.update home (i + 1) (some x))).group := by
    apply List.flatMap_congr
    intro j hj
    rw [List.mem_range'_1] at hj
    exact hother j (by omega) (by omega)
  have hhere : ((ofHomes home).push (some i) x).group i ++
      ((ofHomes home).push (some i) x).group (i + 1) =
        (ofHomes (Function.update home (i + 1) (some x))).group i ++
          (ofHomes (Function.update home (i + 1) (some x))).group (i + 1) := by
    rw [group_push_self, group_push_of_ne (by simp)]
    simp [group, ofHomes, hhome, hnext]
  simp only [items, hrange, List.flatMap_append, List.flatMap_cons, hbefore, hafter]
  rw [← List.append_assoc (((ofHomes home).push (some i) x).group i), hhere, List.append_assoc]
  rfl

/-- The start of the sequence is at the first home, while nothing stands there. -/
theorem cons_ofHomes {home : Nat → Option α} (hn : 0 < n) (hhome : home 0 = none) (x : α) :
    x :: (ofHomes home).items n = (ofHomes (Function.update home 0 (some x))).items n := by
  obtain ⟨m, rfl⟩ : ∃ m, n = m + 1 := ⟨n - 1, by omega⟩
  have hself : Function.update home 0 (some x) 0 = some x := by simp
  rw [items_ofHomes, items_ofHomes, List.range_succ_eq_map, List.filterMap_cons_none hhome,
    List.filterMap_cons_some hself, List.filterMap_map, List.filterMap_map]
  apply congrArg (x :: ·)
  apply List.filterMap_congr
  intro i _
  exact (Function.update_of_ne (Nat.succ_ne_zero i) (some x) home).symm

end Layout

/-! ## Runs of placements -/

section Placements

variable (stays : β → Option Nat)

/-- The placements before the first that stays at home. -/
def leading (ps : List β) : List β := ps.takeWhile fun p => (stays p).isNone

/-- The placement that stays at home `i`, and those that follow it up to the next that
stays. -/
def ledBy (i : Nat) : List β → List β
  | [] => []
  | p :: ps => if stays p = some i then p :: leading stays ps else ledBy i ps

/-- The placements cut in front of every one that stays, in the order of the homes. -/
def arrange (n : Nat) (ps : List β) : List β :=
  leading stays ps ++ (List.range n).flatMap fun i => ledBy stays i ps

variable {stays}

theorem leading_cons_of_stays {p : β} {i : Nat} (h : stays p = some i) (ps : List β) :
    leading stays (p :: ps) = [] := by
  simp [leading, h]

theorem leading_cons_of_not_stays {p : β} (h : stays p = none) (ps : List β) :
    leading stays (p :: ps) = p :: leading stays ps := by
  simp [leading, h]

theorem ledBy_cons_of_not_stays {p : β} (h : stays p = none) (i : Nat) (ps : List β) :
    ledBy stays i (p :: ps) = ledBy stays i ps := by
  rw [ledBy, h, if_neg (by simp)]

theorem ledBy_eq_nil {i : Nat} {ps : List β} (h : ∀ p ∈ ps, stays p ≠ some i) :
    ledBy stays i ps = [] := by
  induction ps with
  | nil => rfl
  | cons p ps ih =>
      rw [List.forall_mem_cons] at h
      rw [ledBy, if_neg h.1, ih h.2]

theorem leading_map {γ : Type} (f : γ → β) (ps : List γ) :
    leading stays (ps.map f) = (leading (fun q => stays (f q)) ps).map f := by
  simp [leading, List.takeWhile_map, Function.comp_def]

theorem ledBy_map {γ : Type} (f : γ → β) (i : Nat) (ps : List γ) :
    ledBy stays i (ps.map f) = (ledBy (fun q => stays (f q)) i ps).map f := by
  induction ps with
  | nil => rfl
  | cons q ps ih =>
      rw [List.map_cons, ledBy, ledBy]
      split
      · rw [List.map_cons, leading_map]
      · exact ih

theorem arrange_map {γ : Type} (f : γ → β) (n : Nat) (ps : List γ) :
    arrange stays n (ps.map f) = (arrange (fun q => stays (f q)) n ps).map f := by
  simp only [arrange, List.map_append, leading_map, List.map_flatMap, ledBy_map]

theorem mem_of_mem_arrange {n : Nat} {ps : List β} {p : β} (h : p ∈ arrange stays n ps) :
    p ∈ ps := by
  have hleading : ∀ (qs : List β), p ∈ leading stays qs → p ∈ qs := fun qs hp =>
    (List.takeWhile_sublist _).subset hp
  have hled : ∀ (i : Nat) (qs : List β), p ∈ ledBy stays i qs → p ∈ qs := by
    intro i qs
    induction qs with
    | nil => exact fun hp => hp
    | cons q qs ih =>
        intro hp
        rw [ledBy] at hp
        split at hp
        · rcases List.mem_cons.mp hp with rfl | hmem
          · exact List.mem_cons_self
          · exact List.mem_cons_of_mem _ (hleading qs hmem)
        · exact List.mem_cons_of_mem _ (ih hp)
  rcases List.mem_append.mp h with hfront | hgroups
  · exact hleading ps hfront
  · obtain ⟨i, _, hi⟩ := List.mem_flatMap.mp hgroups
    exact hled i ps hi

/-- If the homes come in order, the placements are arranged as they are. -/
theorem arrange_of_increasing {n : Nat} {ps : List β}
    (hincreasing : (ps.filterMap stays).Pairwise (· < ·))
    (hlt : ∀ i ∈ ps.filterMap stays, i < n) : arrange stays n ps = ps := by
  have hgroups : ∀ (ps : List β) (low : Nat), (ps.filterMap stays).Pairwise (· < ·) →
      (∀ i ∈ ps.filterMap stays, low ≤ i ∧ i < n) →
      leading stays ps ++ (List.range' low (n - low)).flatMap (fun i => ledBy stays i ps) =
        ps := by
    intro ps
    induction ps with
    | nil =>
        intro low _ _
        simp [leading, ledBy]
    | cons p ps ih =>
        intro low hpairwise hbounds
        cases hp : stays p with
        | none =>
            rw [List.filterMap_cons_none hp] at hpairwise hbounds
            have hled : (fun i => ledBy stays i (p :: ps)) = fun i => ledBy stays i ps :=
              funext fun i => ledBy_cons_of_not_stays hp i ps
            rw [leading_cons_of_not_stays hp, hled, List.cons_append,
              ih low hpairwise hbounds]
        | some j =>
            rw [List.filterMap_cons_some hp] at hpairwise hbounds
            obtain ⟨hhead, htail⟩ := List.pairwise_cons.mp hpairwise
            obtain ⟨hlow, hjn⟩ := hbounds j List.mem_cons_self
            -- no home before `j` leads a piece, and `j` leads the first one
            have hbefore : (List.range' low (j - low)).flatMap
                (fun i => ledBy stays i (p :: ps)) = [] := by
              rw [List.flatMap_eq_nil_iff]
              intro i hi
              rw [List.mem_range'_1] at hi
              apply ledBy_eq_nil
              intro q hq heq
              rcases List.mem_cons.mp hq with rfl | hmem
              · rw [hp] at heq
                injection heq with heq
                omega
              · have hlt := hhead i (List.mem_filterMap.mpr ⟨q, hmem, heq⟩)
                omega
            have hafter : (List.range' (j + 1) (n - (j + 1))).flatMap
                (fun i => ledBy stays i (p :: ps)) =
                  (List.range' (j + 1) (n - (j + 1))).flatMap (fun i => ledBy stays i ps) := by
              apply List.flatMap_congr
              intro i hi
              rw [List.mem_range'_1] at hi
              rw [ledBy, hp, if_neg]
              intro heq
              injection heq with heq
              omega
            have hrange : List.range' low (n - low) =
                List.range' low (j - low) ++ j :: List.range' (j + 1) (n - (j + 1)) := by
              rw [← List.range'_succ, show n - low = (j - low) + (n - (j + 1) + 1) by omega,
                ← List.range'_append]
              rw [show low + 1 * (j - low) = j by omega]
            have ih' := ih (j + 1) htail (fun i hi =>
              ⟨hhead i hi, (hbounds i (List.mem_cons_of_mem _ hi)).2⟩)
            rw [leading_cons_of_stays hp, List.nil_append, hrange, List.flatMap_append,
              List.flatMap_cons, hbefore, hafter, ledBy, if_pos hp, List.nil_append,
              List.cons_append, ih']
  have hall := hgroups ps 0 hincreasing (fun i hi => ⟨Nat.zero_le i, hlt i hi⟩)
  rw [arrange, List.range_eq_range']
  exact hall

/-! ## Placements on a layout -/

variable (stays) (leaves : β → Option Nat) (item : β → α)

/-- One placement, on a layout with its cursor. -/
def place (st : Layout α × Option Nat) (p : β) : Layout α × Option Nat :=
  match stays p with
  | some i => (st.1.setHome i (some (item p)), some i)
  | none =>
      ((match leaves p with
        | some i => st.1.setHome i none
        | none => st.1).push st.2 (item p), st.2)

variable {stays} {leaves} {item}

theorem place_of_stays {st : Layout α × Option Nat} {p : β} {i : Nat} (h : stays p = some i) :
    place stays leaves item st p = (st.1.setHome i (some (item p)), some i) := by
  simp [place, h]

theorem place_front (st : Layout α × Option Nat) {p : β} (h : stays p = none) :
    (place stays leaves item st p).1.front =
      st.1.front ++ if st.2 = none then [item p] else [] := by
  unfold place
  rw [h]
  cases leaves p <;> cases hc : st.2 <;> simp [Layout.push, Layout.setHome]

theorem place_run (st : Layout α × Option Nat) {p : β} (h : stays p = none) (i : Nat) :
    (place stays leaves item st p).1.run i =
      st.1.run i ++ if st.2 = some i then [item p] else [] := by
  unfold place
  rw [h]
  cases hc : st.2 with
  | none => cases leaves p <;> simp [Layout.push, Layout.setHome]
  | some j =>
      by_cases heq : j = i
      · subst heq
        cases leaves p <;> simp [Layout.push, Layout.setHome]
      · have hne : i ≠ j := fun h => heq h.symm
        cases leaves p <;> simp [Layout.push, Layout.setHome, Function.update_of_ne hne, heq]

theorem place_home_of_stays (st : Layout α × Option Nat) {p : β} {i j : Nat}
    (h : stays p = some j) :
    (place stays leaves item st p).1.home i = if i = j then some (item p) else st.1.home i := by
  rw [place_of_stays h]
  simp [Layout.setHome, Function.update_apply]

theorem place_home_of_ne (st : Layout α × Option Nat) {p : β} {i : Nat}
    (hstays : stays p ≠ some i) (hleaves : leaves p ≠ some i) :
    (place stays leaves item st p).1.home i = st.1.home i := by
  have hupdate : ∀ {j : Nat} {h : Option α}, j ≠ i → (st.1.setHome j h).home i = st.1.home i := by
    intro j h hne
    simp [Layout.setHome, Function.update_of_ne (Ne.symm hne)]
  unfold place
  cases hs : stays p with
  | some j =>
      apply hupdate
      rintro rfl
      exact hstays hs
  | none =>
      have hpush : ∀ L : Layout α, (L.push st.2 (item p)).home = L.home := by
        intro L
        cases st.2 <;> rfl
      simp only [hpush]
      cases hl : leaves p with
      | none => rfl
      | some j =>
          apply hupdate
          rintro rfl
          exact hleaves hl

/-- What a run of placements leaves in front of the homes. -/
theorem foldl_place_front (ps : List β) (st : Layout α × Option Nat) :
    (ps.foldl (place stays leaves item) st).1.front =
      st.1.front ++ if st.2 = none then (leading stays ps).map item else [] := by
  induction ps generalizing st with
  | nil => simp [leading]
  | cons p ps ih =>
      rw [List.foldl_cons, ih]
      cases hp : stays p with
      | some i =>
          rw [place_of_stays hp, leading_cons_of_stays hp]
          simp [Layout.setHome]
      | none =>
          have hcursor : (place stays leaves item st p).2 = st.2 := by simp [place, hp]
          rw [place_front st hp, hcursor, leading_cons_of_not_stays hp]
          split <;> simp

/-- What a run of placements leaves behind a home that at most one of them stays at. -/
theorem foldl_place_run (i : Nat) (ps : List β) (st : Layout α × Option Nat)
    (hnodup : (ps.filterMap stays).Nodup) :
    (ps.foldl (place stays leaves item) st).1.run i =
      st.1.run i ++ (if st.2 = some i then (leading stays ps).map item else []) ++
        ((ledBy stays i ps).tail).map item := by
  induction ps generalizing st with
  | nil => simp [leading, ledBy]
  | cons p ps ih =>
      rw [List.foldl_cons]
      cases hp : stays p with
      | some j =>
          rw [List.filterMap_cons_some hp, List.nodup_cons] at hnodup
          rw [ih _ hnodup.2, place_of_stays hp, leading_cons_of_stays hp, ledBy, hp]
          by_cases heq : j = i
          · subst heq
            have hnone : ledBy stays j ps = [] := by
              apply ledBy_eq_nil
              intro q hq hstays
              exact hnodup.1 (List.mem_filterMap.mpr ⟨q, hq, hstays⟩)
            simp [Layout.setHome, hnone]
          · simp [Layout.setHome, heq]
      | none =>
          rw [List.filterMap_cons_none hp] at hnodup
          have hcursor : (place stays leaves item st p).2 = st.2 := by simp [place, hp]
          rw [ih _ hnodup, place_run st hp, hcursor, leading_cons_of_not_stays hp,
            ledBy_cons_of_not_stays hp]
          split <;> simp

theorem foldl_place_home_of_not_mem {i : Nat} {ps : List β} (st : Layout α × Option Nat)
    (hstays : ∀ p ∈ ps, stays p ≠ some i) (hleaves : ∀ p ∈ ps, leaves p ≠ some i) :
    (ps.foldl (place stays leaves item) st).1.home i = st.1.home i := by
  induction ps generalizing st with
  | nil => rfl
  | cons p ps ih =>
      rw [List.forall_mem_cons] at hstays hleaves
      rw [List.foldl_cons, ih _ hstays.2 hleaves.2, place_home_of_ne st hstays.1 hleaves.1]

/-- A home that was left is empty, unless a placement stays there. -/
theorem foldl_place_home_of_leaves {i : Nat} {ps : List β} (st : Layout α × Option Nat)
    (hstays : ∀ p ∈ ps, stays p ≠ some i)
    (hleaves : st.1.home i = none ∨ i ∈ (ps.filter fun p => (stays p).isNone).filterMap leaves) :
    (ps.foldl (place stays leaves item) st).1.home i = none := by
  induction ps generalizing st with
  | nil =>
      rcases hleaves with hnone | hmem
      · exact hnone
      · cases hmem
  | cons p ps ih =>
      rw [List.forall_mem_cons] at hstays
      rw [List.foldl_cons]
      apply ih _ hstays.2
      by_cases hl : leaves p = some i
      · cases hp : stays p with
        | none =>
            left
            unfold place
            rw [hp, hl]
            cases st.2 <;> simp [Layout.push, Layout.setHome]
        | some j =>
            rw [place_home_of_stays st hp]
            have hne : i ≠ j := fun heq => hstays.1 (heq ▸ hp)
            rcases hleaves with hnone | hmem
            · exact Or.inl (by rw [if_neg hne, hnone])
            · right
              simpa [hp] using hmem
      · rw [place_home_of_ne st hstays.1 hl]
        rcases hleaves with hnone | hmem
        · exact Or.inl hnone
        · right
          cases hp : stays p with
          | none => simpa [hp, hl] using hmem
          | some j => simpa [hp] using hmem

/-- The item at the home that a placement stays at, if none leaves it. -/
theorem foldl_place_home {i : Nat} {ps : List β} (st : Layout α × Option Nat)
    (hnodup : (ps.filterMap stays).Nodup) (hmem : i ∈ ps.filterMap stays)
    (hleaves : ∀ p ∈ ps, leaves p ≠ some i) :
    (ps.foldl (place stays leaves item) st).1.home i = (ledBy stays i ps).head?.map item := by
  induction ps generalizing st with
  | nil => cases hmem
  | cons p ps ih =>
      rw [List.forall_mem_cons] at hleaves
      rw [List.foldl_cons]
      cases hp : stays p with
      | none =>
          rw [List.filterMap_cons_none hp] at hnodup hmem
          rw [ih _ hnodup hmem hleaves.2, ledBy_cons_of_not_stays hp]
      | some j =>
          rw [List.filterMap_cons_some hp] at hnodup hmem
          rw [List.nodup_cons] at hnodup
          by_cases heq : j = i
          · subst heq
            have hnone : ∀ q ∈ ps, stays q ≠ some j := by
              intro q hq hstays
              exact hnodup.1 (List.mem_filterMap.mpr ⟨q, hq, hstays⟩)
            rw [foldl_place_home_of_not_mem _ hnone hleaves.2, place_of_stays hp, ledBy,
              if_pos hp]
            simp [Layout.setHome]
          · rcases List.mem_cons.mp hmem with rfl | hmem
            · exact absurd rfl heq
            · rw [ih _ hnodup.2 hmem hleaves.2, ledBy, hp, if_neg (by simpa using heq)]

/-- A layout whose groups are the pieces of an arrangement is the arrangement. -/
theorem Layout.items_eq_arrange {L : Layout α} {n : Nat} {ps : List β}
    (hfront : L.front = (leading stays ps).map item)
    (hgroup : ∀ i, i < n → L.group i = (ledBy stays i ps).map item) :
    L.items n = (arrange stays n ps).map item := by
  have hgroups : (List.range n).flatMap L.group =
      (List.range n).flatMap fun i => (ledBy stays i ps).map item := by
    apply List.flatMap_congr
    intro i hi
    exact hgroup i (List.mem_range.mp hi)
  rw [Layout.items, arrange, List.map_append, List.map_flatMap, hfront, hgroups]

end Placements

end Locality.Foundation
