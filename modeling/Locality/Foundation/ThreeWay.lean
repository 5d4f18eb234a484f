/-
  Foundation/ThreeWay.lean --- grouping the changes of two edit scripts over one
  base, and weaving the groups back into the base.

  Two scripts over the same base are merged group by group.  A group is a maximal
  set of changes of either side that are linked by overlapping or touching
  ranges; `changeGroups` finds them from left to right, each by absorbing changes
  of either side until neither has one that starts inside the range reached.

  `Grouping` says declaratively what that computation must return: every change
  of both sides in exactly one group and in order, each group linked and exactly
  as wide as its changes, and a base element between any two groups.
  `changeGroups_grouping` proves it, `changeGroups_swap` proves that the two
  sides play the same role, and `weave_side` proves that writing out one side's
  changes group by group is applying that side's script.
-/
import Locality.Foundation.EditScript
import Mathlib.Logic.Relation

set_option autoImplicit false

namespace Locality.Foundation

variable {α : Type}

/-! ## Absorbing changes -/

/-- What is taken from one script while the reached limit grows. -/
structure Absorbed (α : Type) where
  limit : Nat
  taken : List (Change α)
  rest : List (Change α)

/-- Take changes from the front as long as they start by the reached limit, which
each taken change extends to its own end. -/
def absorb (limit : Nat) : List (Change α) → Absorbed α
  | [] => ⟨limit, [], []⟩
  | c :: cs =>
      if limit < c.baseStart then ⟨limit, [], c :: cs⟩
      else
        let next := absorb (max limit c.baseEnd) cs
        ⟨next.limit, c :: next.taken, next.rest⟩

/-- What is taken from both scripts for one group. -/
structure Grown (α : Type) where
  limit : Nat
  leftTaken : List (Change α)
  leftRest : List (Change α)
  rightTaken : List (Change α)
  rightRest : List (Change α)

/-- Absorb from the two scripts in turn until a round takes nothing.  Every other
round takes a change, so the two lengths bound the number of rounds. -/
def growGroup : Nat → Nat → List (Change α) → List (Change α) → Grown α
  | 0, limit, left, right => ⟨limit, [], left, [], right⟩
  | fuel + 1, limit, left, right =>
      let fromLeft := absorb limit left
      let fromRight := absorb fromLeft.limit right
      if fromLeft.taken.isEmpty && fromRight.taken.isEmpty then
        ⟨limit, [], left, [], right⟩
      else
        let next := growGroup fuel fromRight.limit fromLeft.rest fromRight.rest
        ⟨next.limit, fromLeft.taken ++ next.leftTaken, next.leftRest,
          fromRight.taken ++ next.rightTaken, next.rightRest⟩

/-- A value that no change starting by it reaches beyond. -/
def Closed (cs : List (Change α)) (limit : Nat) : Prop :=
  ∀ c ∈ cs, c.baseStart ≤ limit → c.baseEnd ≤ limit

/-- What one side of a completed absorption looks like: a prefix that lies inside
the limit, and a rest that starts beyond it. -/
structure TakenBy (limit : Nat) (cs taken rest : List (Change α)) : Prop where
  split : cs = taken ++ rest
  inside : ∀ c ∈ taken, c.baseStart ≤ limit ∧ c.baseEnd ≤ limit
  beyond : ∀ c, rest.head? = some c → limit < c.baseStart

theorem absorb_cons_of_lt {limit : Nat} {c : Change α} (cs : List (Change α))
    (h : limit < c.baseStart) : absorb limit (c :: cs) = ⟨limit, [], c :: cs⟩ := by
  simp [absorb, h]

theorem absorb_cons_of_le {limit : Nat} {c : Change α} (cs : List (Change α))
    (h : c.baseStart ≤ limit) :
    absorb limit (c :: cs) =
      ⟨(absorb (max limit c.baseEnd) cs).limit,
        c :: (absorb (max limit c.baseEnd) cs).taken,
        (absorb (max limit c.baseEnd) cs).rest⟩ := by
  simp [absorb, Nat.not_lt.mpr h]

theorem absorb_takenBy (limit : Nat) (cs : List (Change α)) :
    TakenBy (absorb limit cs).limit cs (absorb limit cs).taken (absorb limit cs).rest ∧
      limit ≤ (absorb limit cs).limit := by
  induction cs generalizing limit with
  | nil => exact ⟨⟨rfl, by simp [absorb], by simp [absorb]⟩, Nat.le_refl _⟩
  | cons c cs ih =>
      by_cases hstart : c.baseStart ≤ limit
      · obtain ⟨⟨hsplit, hinside, hbeyond⟩, hlimit⟩ := ih (max limit c.baseEnd)
        rw [absorb_cons_of_le cs hstart]
        refine ⟨⟨congrArg (List.cons c) hsplit, ?_, hbeyond⟩, ?_⟩
        · intro d hd
          rcases List.mem_cons.mp hd with rfl | hd
          · constructor <;> dsimp only <;> omega
          · exact hinside d hd
        · dsimp only
          omega
      · have hlt : limit < c.baseStart := by omega
        rw [absorb_cons_of_lt cs hlt]
        exact ⟨⟨rfl, by simp, by simpa using hlt⟩, Nat.le_refl _⟩

theorem absorb_least {limit bound : Nat} {cs : List (Change α)}
    (hlimit : limit ≤ bound) (hclosed : Closed cs bound) :
    (absorb limit cs).limit ≤ bound := by
  induction cs generalizing limit with
  | nil => exact hlimit
  | cons c cs ih =>
      by_cases hstart : c.baseStart ≤ limit
      · have hend : c.baseEnd ≤ bound := hclosed c (by simp) (by omega)
        rw [absorb_cons_of_le cs hstart]
        exact ih (by omega) fun d hd => hclosed d (by simp [hd])
      · rw [absorb_cons_of_lt cs (by omega)]
        exact hlimit

theorem absorb_limit_of_taken_nil {limit : Nat} {cs : List (Change α)}
    (h : (absorb limit cs).taken = []) :
    (absorb limit cs).limit = limit ∧ (absorb limit cs).rest = cs := by
  cases cs with
  | nil => exact ⟨rfl, rfl⟩
  | cons c cs =>
      by_cases hstart : c.baseStart ≤ limit
      · simp [absorb_cons_of_le cs hstart] at h
      · rw [absorb_cons_of_lt cs (by omega)]
        exact ⟨rfl, rfl⟩

theorem Closed.of_append_right {cs ds : List (Change α)} {limit : Nat}
    (h : Closed (cs ++ ds) limit) : Closed ds limit :=
  fun c hc => h c (by simp [hc])

theorem TakenBy.append {limit limit' : Nat} {cs taken rest taken' rest' : List (Change α)}
    (h : TakenBy limit cs taken rest) (h' : TakenBy limit' rest taken' rest')
    (hlimit : limit ≤ limit') : TakenBy limit' cs (taken ++ taken') rest' where
  split := by rw [List.append_assoc, ← h'.split, ← h.split]
  inside := by
    intro c hc
    rcases List.mem_append.mp hc with hc | hc
    · have := h.inside c hc
      exact ⟨by omega, by omega⟩
    · exact h'.inside c hc
  beyond := h'.beyond

/-- With enough fuel a group takes from each side exactly what lies inside the
least limit that is closed for both. -/
theorem growGroup_spec (limit : Nat) {fuel : Nat} {left right : List (Change α)}
    (hfuel : left.length + right.length < fuel) :
    let grown := growGroup fuel limit left right
    TakenBy grown.limit left grown.leftTaken grown.leftRest ∧
      TakenBy grown.limit right grown.rightTaken grown.rightRest ∧
      limit ≤ grown.limit ∧
      ∀ bound, limit ≤ bound → Closed left bound → Closed right bound →
        grown.limit ≤ bound := by
  induction fuel generalizing limit left right with
  | zero => omega
  | succ fuel ih =>
      obtain ⟨hleft, hleftLimit⟩ := absorb_takenBy limit left
      obtain ⟨hright, hrightLimit⟩ := absorb_takenBy (absorb limit left).limit right
      simp only [growGroup]
      split
      · rename_i hempty
        simp only [Bool.and_eq_true, List.isEmpty_iff] at hempty
        obtain ⟨hlimitLeft, hleftRest⟩ := absorb_limit_of_taken_nil hempty.1
        rw [hlimitLeft] at hempty hright hleft
        obtain ⟨hlimitRight, hrightRest⟩ := absorb_limit_of_taken_nil hempty.2
        rw [hleftRest] at hleft
        rw [hlimitRight, hrightRest] at hright
        exact ⟨⟨rfl, by simp, hleft.beyond⟩, ⟨rfl, by simp, hright.beyond⟩,
          Nat.le_refl _, fun _ hbound _ _ => hbound⟩
      · rename_i hnonempty
        have hlength : (absorb limit left).rest.length +
            (absorb (absorb limit left).limit right).rest.length < fuel := by
          have hl := congrArg List.length hleft.split
          have hr := congrArg List.length hright.split
          simp only [List.length_append] at hl hr
          have hpos : 0 < (absorb limit left).taken.length +
              (absorb (absorb limit left).limit right).taken.length := by
            by_contra hzero
            apply hnonempty
            simp only [Bool.and_eq_true, List.isEmpty_iff]
            constructor <;> exact List.eq_nil_of_length_eq_zero (by omega)
          omega
        obtain ⟨hnextLeft, hnextRight, hnextLimit, hleast⟩ :=
          ih (absorb (absorb limit left).limit right).limit hlength
        exact ⟨hleft.append hnextLeft (Nat.le_trans hrightLimit hnextLimit),
          hright.append hnextRight hnextLimit,
          Nat.le_trans hleftLimit (Nat.le_trans hrightLimit hnextLimit),
          fun bound hbound hcl hcr =>
            hleast bound (absorb_least (absorb_least hbound hcl) hcr)
              (Closed.of_append_right (hleft.split ▸ hcl))
              (Closed.of_append_right (hright.split ▸ hcr))⟩

/-! ## Clusters -/

/-- Any two changes of the set are linked by changes of the set that touch. -/
def Linked (S : Change α → Prop) : Prop :=
  ∀ c, S c → ∀ d, S d → Relation.ReflTransGen (fun a b => S b ∧ a.Touches b) c d

/-- A linked set of changes that is exactly as wide as `[start, stop]`. -/
structure Cluster (start stop : Nat) (S : Change α → Prop) : Prop where
  within : ∀ c, S c → start ≤ c.baseStart ∧ c.baseStart ≤ c.baseEnd ∧ c.baseEnd ≤ stop
  first : ∃ c, S c ∧ c.baseStart = start
  last : ∃ c, S c ∧ c.baseEnd = stop
  covers : ∀ x, start ≤ x → x ≤ stop → ∃ c, S c ∧ c.baseStart ≤ x ∧ x ≤ c.baseEnd
  linked : Linked S

/-- The set with one more change. -/
def With (S : Change α → Prop) (c : Change α) : Change α → Prop :=
  fun d => d = c ∨ S d

theorem Linked.extend {S : Change α → Prop} {c d : Change α} (h : Linked S)
    (hd : S d) (htouch : d.Touches c) (hself : c.Touches c) : Linked (With S c) := by
  have hmono : ∀ {a b}, Relation.ReflTransGen (fun a b => S b ∧ a.Touches b) a b →
      Relation.ReflTransGen (fun a b => With S c b ∧ a.Touches b) a b :=
    fun hab => Relation.ReflTransGen.mono
      (fun _ _ hstep => ⟨Or.inr hstep.1, hstep.2⟩) _ _ hab
  have hinto : ∀ a, S a → Relation.ReflTransGen
      (fun a b => With S c b ∧ a.Touches b) a c :=
    fun a ha => (hmono (h a ha d hd)).tail ⟨Or.inl rfl, htouch⟩
  have hout : ∀ a, S a → Relation.ReflTransGen
      (fun a b => With S c b ∧ a.Touches b) c a :=
    fun a ha => Relation.ReflTransGen.head ⟨Or.inr hd, htouch.symm⟩ (hmono (h d hd a ha))
  intro a ha b hb
  rcases ha with rfl | ha
  · rcases hb with rfl | hb
    · exact Relation.ReflTransGen.single ⟨Or.inl rfl, hself⟩
    · exact hout b hb
  · rcases hb with rfl | hb
    · exact hinto a ha
    · exact hmono (h a ha b hb)

theorem cluster_single {c : Change α} (h : c.baseStart ≤ c.baseEnd) :
    Cluster c.baseStart c.baseEnd (fun d => d = c) where
  within := by rintro d rfl; exact ⟨Nat.le_refl _, h, Nat.le_refl _⟩
  first := ⟨c, rfl, rfl⟩
  last := ⟨c, rfl, rfl⟩
  covers := fun x hx hx' => ⟨c, rfl, hx, hx'⟩
  linked := by rintro a rfl b rfl; exact Relation.ReflTransGen.refl

/-- A change that starts inside a cluster extends it. -/
theorem Cluster.extend {start stop : Nat} {S : Change α → Prop} {c : Change α}
    (h : Cluster start stop S) (hstart : start ≤ c.baseStart)
    (hstop : c.baseStart ≤ stop) (hc : c.baseStart ≤ c.baseEnd) :
    Cluster start (max stop c.baseEnd) (With S c) where
  within := by
    rintro d (rfl | hd)
    · exact ⟨hstart, hc, by omega⟩
    · have := h.within d hd
      exact ⟨this.1, this.2.1, by omega⟩
  first := by
    obtain ⟨d, hd, hds⟩ := h.first
    exact ⟨d, Or.inr hd, hds⟩
  last := by
    obtain ⟨d, hd, hde⟩ := h.last
    by_cases hle : c.baseEnd ≤ stop
    · exact ⟨d, Or.inr hd, by omega⟩
    · exact ⟨c, Or.inl rfl, by omega⟩
  covers := by
    intro x hx hx'
    by_cases hle : x ≤ stop
    · obtain ⟨d, hd, hdx⟩ := h.covers x hx hle
      exact ⟨d, Or.inr hd, hdx⟩
    · exact ⟨c, Or.inl rfl, by omega, by omega⟩
  linked := by
    obtain ⟨d, hd, hds, hde⟩ := h.covers c.baseStart hstart hstop
    exact h.linked.extend hd ⟨by omega, hde⟩ ⟨hc, hc⟩

/-- A cluster under construction: nothing taken yet, or a cluster. -/
def Growing (start limit : Nat) (S : Change α → Prop) : Prop :=
  ((∀ c, ¬ S c) ∧ limit = start) ∨ Cluster start limit S

theorem Growing.congr {start limit : Nat} {S T : Change α → Prop}
    (h : Growing start limit S) (hST : ∀ c, S c ↔ T c) : Growing start limit T := by
  have heq : S = T := funext fun c => propext (hST c)
  exact heq ▸ h

theorem Growing.extend {start limit : Nat} {S : Change α → Prop} {c : Change α}
    (h : Growing start limit S) (hstart : start ≤ c.baseStart)
    (hlimit : c.baseStart ≤ limit) (hc : c.baseStart ≤ c.baseEnd) :
    Growing start (max limit c.baseEnd) (With S c) := by
  rcases h with ⟨hempty, rfl⟩ | h
  · have hcs : c.baseStart = limit := by omega
    have hmax : max limit c.baseEnd = c.baseEnd := by omega
    rw [hmax, ← hcs]
    refine Growing.congr (Or.inr (cluster_single hc)) fun d => ?_
    simp [With, hempty]
  · exact Or.inr (h.extend hstart hlimit hc)

theorem absorb_growing {start limit : Nat} {S : Change α → Prop} {cs : List (Change α)}
    (h : Growing start limit S)
    (hcs : ∀ c ∈ cs, start ≤ c.baseStart ∧ c.baseStart ≤ c.baseEnd) :
    Growing start (absorb limit cs).limit
      (fun c => S c ∨ c ∈ (absorb limit cs).taken) := by
  induction cs generalizing limit S with
  | nil => exact h.congr fun c => by simp [absorb]
  | cons c cs ih =>
      by_cases hstart : c.baseStart ≤ limit
      · obtain ⟨hc1, hc2⟩ := hcs c (by simp)
        have hnext := ih (h.extend hc1 hstart hc2) (fun d hd => hcs d (by simp [hd]))
        rw [absorb_cons_of_le cs hstart]
        refine hnext.congr fun d => ?_
        simp only [With, List.mem_cons]
        tauto
      · rw [absorb_cons_of_lt cs (by omega)]
        exact h.congr fun d => by simp

theorem growGroup_growing (fuel : Nat) {start limit : Nat} {S : Change α → Prop}
    {left right : List (Change α)} (h : Growing start limit S)
    (hleft : ∀ c ∈ left, start ≤ c.baseStart ∧ c.baseStart ≤ c.baseEnd)
    (hright : ∀ c ∈ right, start ≤ c.baseStart ∧ c.baseStart ≤ c.baseEnd) :
    let grown := growGroup fuel limit left right
    Growing start grown.limit
      (fun c => S c ∨ c ∈ grown.leftTaken ∨ c ∈ grown.rightTaken) := by
  induction fuel generalizing limit S left right with
  | zero => exact h.congr fun c => by simp [growGroup]
  | succ fuel ih =>
      simp only [growGroup]
      split
      · exact h.congr fun c => by simp
      · have hl := absorb_growing h hleft
        have hr := absorb_growing hl hright
        have hsplitLeft := (absorb_takenBy limit left).1.split
        have hsplitRight := (absorb_takenBy (absorb limit left).limit right).1.split
        have hnext := @ih _ _ (absorb limit left).rest
          (absorb (absorb limit left).limit right).rest hr
          (fun c hc => hleft c (by rw [hsplitLeft]; simp [hc]))
          (fun c hc => hright c (by rw [hsplitRight]; simp [hc]))
        refine hnext.congr fun c => ?_
        simp only [List.mem_append]
        tauto

/-! ## Groups -/

/-- A maximal set of linked changes of two scripts, with the base range they
span. -/
structure ChangeGroup (α : Type) where
  start : Nat
  stop : Nat
  left : List (Change α)
  right : List (Change α)
  deriving DecidableEq, Repr

namespace ChangeGroup

/-- The changes of either side. -/
def Has (g : ChangeGroup α) (c : Change α) : Prop :=
  c ∈ g.left ∨ c ∈ g.right

/-- The same group with the two sides exchanged. -/
def swap (g : ChangeGroup α) : ChangeGroup α :=
  ⟨g.start, g.stop, g.right, g.left⟩

end ChangeGroup

/-- Where the next group starts: at the first change of either side. -/
def nextStart : List (Change α) → List (Change α) → Option Nat
  | c :: _, d :: _ => some (min c.baseStart d.baseStart)
  | c :: _, [] => some c.baseStart
  | [], d :: _ => some d.baseStart
  | [], [] => none

/-- The groups of two scripts from left to right, at most `fuel` of them. -/
def groupsUpTo : Nat → List (Change α) → List (Change α) → List (ChangeGroup α)
  | 0, _, _ => []
  | fuel + 1, left, right =>
      match nextStart left right with
      | none => []
      | some start =>
          let grown := growGroup (left.length + right.length + 1) start left right
          ⟨start, grown.limit, grown.leftTaken, grown.rightTaken⟩ ::
            groupsUpTo fuel grown.leftRest grown.rightRest

/-- The groups of two scripts.  Every group holds a change, so there are at most
as many groups as changes. -/
def changeGroups (left right : List (Change α)) : List (ChangeGroup α) :=
  groupsUpTo (left.length + right.length) left right

/-- What the groups of two scripts over a base of length `n` are: every change of
both sides in exactly one group and in order, every group a cluster, and a base
element between any two groups. -/
structure Grouping (n k : Nat) (left right : List (Change α))
    (groups : List (ChangeGroup α)) : Prop where
  left_eq : groups.flatMap ChangeGroup.left = left
  right_eq : groups.flatMap ChangeGroup.right = right
  cluster : ∀ g ∈ groups, Cluster g.start g.stop g.Has
  bounded : ∀ g ∈ groups, k ≤ g.start ∧ g.stop ≤ n
  apart : groups.Pairwise fun g h => g.stop < h.start

theorem nextStart_le {left right : List (Change α)} {start n k : Nat}
    (h : nextStart left right = some start) (hleft : ScriptFrom n k left)
    (hright : ScriptFrom n k right) :
    k ≤ start ∧ (∀ c ∈ left, start ≤ c.baseStart ∧ c.baseStart ≤ c.baseEnd) ∧
      (∀ c ∈ right, start ≤ c.baseStart ∧ c.baseStart ≤ c.baseEnd) := by
  have hhead : ∀ {c : Change α} {cs : List (Change α)} {m : Nat},
      ScriptFrom n m (c :: cs) → ∀ d ∈ c :: cs,
        c.baseStart ≤ d.baseStart ∧ d.baseStart ≤ d.baseEnd := by
    intro c cs m hscript d hd
    have hcs := hscript.mem (List.mem_cons_self (a := c) (l := cs))
    rcases List.mem_cons.mp hd with rfl | hd
    · exact ⟨Nat.le_refl _, hcs.2.1⟩
    · have := hscript.tail.mem hd
      exact ⟨by omega, this.2.1⟩
  cases left with
  | nil =>
      cases right with
      | nil => simp [nextStart] at h
      | cons d ds =>
          simp only [nextStart, Option.some.injEq] at h
          subst h
          exact ⟨hright.1, by simp, hhead hright⟩
  | cons c cs =>
      cases right with
      | nil =>
          simp only [nextStart, Option.some.injEq] at h
          subst h
          exact ⟨hleft.1, hhead hleft, by simp⟩
      | cons d ds =>
          simp only [nextStart, Option.some.injEq] at h
          subst h
          have h1 := hleft.1
          have h2 := hright.1
          refine ⟨by omega, fun e he => ?_, fun e he => ?_⟩
          · have := hhead hleft e he
            exact ⟨by omega, this.2⟩
          · have := hhead hright e he
            exact ⟨by omega, this.2⟩

theorem nextStart_none {left right : List (Change α)} (h : nextStart left right = none) :
    left = [] ∧ right = [] := by
  cases left <;> cases right <;> simp_all [nextStart]

/-- The first change of either side starts at the start of the group, so it is
taken. -/
theorem taken_of_nextStart {fuel start : Nat} {left right : List (Change α)}
    (h : nextStart left right = some start)
    (hfuel : left.length + right.length < fuel) :
    0 < (growGroup fuel start left right).leftTaken.length +
      (growGroup fuel start left right).rightTaken.length := by
  obtain ⟨hl, hr, hlimit, _⟩ := growGroup_spec start hfuel
  by_contra hzero
  have hlnil := List.eq_nil_of_length_eq_zero
    (l := (growGroup fuel start left right).leftTaken) (by omega)
  have hrnil := List.eq_nil_of_length_eq_zero
    (l := (growGroup fuel start left right).rightTaken) (by omega)
  have hlrest : left = (growGroup fuel start left right).leftRest := by
    simpa [hlnil] using hl.split
  have hrrest : right = (growGroup fuel start left right).rightRest := by
    simpa [hrnil] using hr.split
  have hlbeyond := hl.beyond
  have hrbeyond := hr.beyond
  rw [← hlrest] at hlbeyond
  rw [← hrrest] at hrbeyond
  cases left with
  | nil =>
      cases right with
      | nil => simp [nextStart] at h
      | cons d ds =>
          simp only [nextStart, Option.some.injEq] at h
          have := hrbeyond d rfl
          omega
  | cons c cs =>
      have hc := hlbeyond c rfl
      cases right with
      | nil =>
          simp only [nextStart, Option.some.injEq] at h
          omega
      | cons d ds =>
          have hd := hrbeyond d rfl
          simp only [nextStart, Option.some.injEq] at h
          omega

theorem TakenBy.scriptFrom_rest {n k limit : Nat} {cs taken rest : List (Change α)}
    (h : TakenBy limit cs taken rest) (hscript : ScriptFrom n k cs) :
    ScriptFrom n (limit + 1) rest := by
  have hrest : ScriptFrom n k rest := (h.split ▸ hscript).append_right
  cases rest with
  | nil => trivial
  | cons c cs =>
      have := h.beyond c rfl
      exact ⟨by omega, hrest.2⟩

/-- What one round of `groupsUpTo` takes: a cluster, consisting of a prefix of
either side. -/
structure FirstGroup (n start : Nat) (lefts rights : List (Change α)) (grown : Grown α) :
    Prop where
  left : TakenBy grown.limit lefts grown.leftTaken grown.leftRest
  right : TakenBy grown.limit rights grown.rightTaken grown.rightRest
  cluster : Cluster start grown.limit fun c => c ∈ grown.leftTaken ∨ c ∈ grown.rightTaken
  bound : grown.limit ≤ n
  shorter : grown.leftRest.length + grown.rightRest.length < lefts.length + rights.length

theorem firstGroup_of_nextStart {n k start : Nat} {left right : List (Change α)}
    (hstart : nextStart left right = some start) (hleft : ScriptFrom n k left)
    (hright : ScriptFrom n k right) :
    FirstGroup n start left right
      (growGroup (left.length + right.length + 1) start left right) := by
  obtain ⟨_, hls, hrs⟩ := nextStart_le hstart hleft hright
  have hpos := taken_of_nextStart hstart (Nat.lt_succ_self (left.length + right.length))
  obtain ⟨htl, htr, _, _⟩ :=
    growGroup_spec start (Nat.lt_succ_self (left.length + right.length))
  have hgrowing := growGroup_growing (left.length + right.length + 1)
    (S := fun _ => False) (Or.inl ⟨by simp, rfl⟩) hls hrs
  generalize growGroup (left.length + right.length + 1) start left right = grown
    at hpos htl htr hgrowing
  have hcluster : Cluster start grown.limit
      (fun c => c ∈ grown.leftTaken ∨ c ∈ grown.rightTaken) := by
    rcases hgrowing.congr (T := fun c => c ∈ grown.leftTaken ∨ c ∈ grown.rightTaken)
      (fun c => by simp) with ⟨hempty, _⟩ | hcluster
    · have hl : grown.leftTaken = [] :=
        List.eq_nil_iff_forall_not_mem.mpr fun c hc => hempty c (Or.inl hc)
      have hr : grown.rightTaken = [] :=
        List.eq_nil_iff_forall_not_mem.mpr fun c hc => hempty c (Or.inr hc)
      simp [hl, hr] at hpos
    · exact hcluster
  have hbound : grown.limit ≤ n := by
    obtain ⟨c, hc, hce⟩ := hcluster.last
    rcases hc with hc | hc
    · have := hleft.mem (c := c) (by rw [htl.split]; simp [hc])
      omega
    · have := hright.mem (c := c) (by rw [htr.split]; simp [hc])
      omega
  refine ⟨htl, htr, hcluster, hbound, ?_⟩
  have h1 := congrArg List.length htl.split
  have h2 := congrArg List.length htr.split
  simp only [List.length_append] at h1 h2
  omega

theorem Grouping.cons {n k : Nat} {left right : List (Change α)} {start : Nat}
    {grown : Grown α} {groups : List (ChangeGroup α)} (hk : k ≤ start)
    (hfirst : FirstGroup n start left right grown)
    (hrest : Grouping n (grown.limit + 1) grown.leftRest grown.rightRest groups) :
    Grouping n k left right
      (⟨start, grown.limit, grown.leftTaken, grown.rightTaken⟩ :: groups) where
  left_eq := by rw [List.flatMap_cons, hrest.left_eq]; exact hfirst.left.split.symm
  right_eq := by rw [List.flatMap_cons, hrest.right_eq]; exact hfirst.right.split.symm
  cluster := by
    intro g hg
    rcases List.mem_cons.mp hg with rfl | hg
    · exact hfirst.cluster
    · exact hrest.cluster g hg
  bounded := by
    intro g hg
    rcases List.mem_cons.mp hg with rfl | hg
    · exact ⟨hk, hfirst.bound⟩
    · obtain ⟨c, hc, hce⟩ := hfirst.cluster.last
      have hwithin := hfirst.cluster.within c hc
      have := hrest.bounded g hg
      exact ⟨by omega, this.2⟩
  apart := List.Pairwise.cons (fun g hg => (hrest.bounded g hg).1) hrest.apart

theorem groupsUpTo_grouping {fuel n k : Nat} {left right : List (Change α)}
    (hfuel : left.length + right.length ≤ fuel) (hleft : ScriptFrom n k left)
    (hright : ScriptFrom n k right) :
    Grouping n k left right (groupsUpTo fuel left right) := by
  induction fuel generalizing k left right with
  | zero =>
      have hl := List.eq_nil_of_length_eq_zero (l := left) (by omega)
      have hr := List.eq_nil_of_length_eq_zero (l := right) (by omega)
      subst hl hr
      exact ⟨rfl, rfl, by simp [groupsUpTo], by simp [groupsUpTo], by simp [groupsUpTo]⟩
  | succ fuel ih =>
      unfold groupsUpTo
      cases hstart : nextStart left right with
      | none =>
          obtain ⟨rfl, rfl⟩ := nextStart_none hstart
          exact ⟨rfl, rfl, by simp, by simp, by simp⟩
      | some start =>
          have hfirst := firstGroup_of_nextStart hstart hleft hright
          have hshorter := hfirst.shorter
          exact Grouping.cons (nextStart_le hstart hleft hright).1 hfirst
            (ih (by omega) (hfirst.left.scriptFrom_rest hleft)
              (hfirst.right.scriptFrom_rest hright))

/-- The groups of two well-formed scripts are their grouping. -/
theorem changeGroups_grouping {n : Nat} {left right : List (Change α)}
    (hleft : ScriptFrom n 0 left) (hright : ScriptFrom n 0 right) :
    Grouping n 0 left right (changeGroups left right) :=
  groupsUpTo_grouping (Nat.le_refl _) hleft hright

/-! ## The two sides play the same role -/

theorem nextStart_comm (left right : List (Change α)) :
    nextStart right left = nextStart left right := by
  cases left <;> cases right <;> simp [nextStart, Nat.min_comm]

/-- What is taken depends on the limit only. -/
theorem TakenBy.unique {limit : Nat} {cs taken rest taken' rest' : List (Change α)}
    (h : TakenBy limit cs taken rest)
    (h' : TakenBy limit cs taken' rest') : taken = taken' ∧ rest = rest' := by
  have hkey : ∀ {t r : List (Change α)}, TakenBy limit cs t r →
      t = cs.takeWhile (fun c => decide (c.baseStart ≤ limit)) := by
    intro t r ht
    rw [ht.split, List.takeWhile_append_of_pos
      (fun c hc => decide_eq_true (ht.inside c hc).1)]
    cases r with
    | nil => simp
    | cons c cs =>
        have := ht.beyond c rfl
        simp [Nat.not_le.mpr this]
  have htaken : taken = taken' := (hkey h).trans (hkey h').symm
  refine ⟨htaken, ?_⟩
  have hsplit := h.split.symm.trans h'.split
  rw [htaken] at hsplit
  exact List.append_cancel_left hsplit

theorem TakenBy.closed {n k limit : Nat} {cs taken rest : List (Change α)}
    (hscript : ScriptFrom n k cs) (h : TakenBy limit cs taken rest) :
    Closed cs limit := by
  intro c hc hstart
  rw [h.split] at hc
  rcases List.mem_append.mp hc with hc | hc
  · exact (h.inside c hc).2
  · have := (h.scriptFrom_rest hscript).le_baseStart c hc
    omega

theorem growGroup_swap (limit : Nat) {fuel n k : Nat} {left right : List (Change α)}
    (hfuel : left.length + right.length < fuel) (hleft : ScriptFrom n k left)
    (hright : ScriptFrom n k right) :
    let grown := growGroup fuel limit left right
    growGroup fuel limit right left =
      ⟨grown.limit, grown.rightTaken, grown.rightRest, grown.leftTaken, grown.leftRest⟩ := by
  obtain ⟨hl, hr, hlimit, hleast⟩ := growGroup_spec limit hfuel
  obtain ⟨hr', hl', hlimit', hleast'⟩ :=
    @growGroup_spec _ limit _ right left
      (Nat.add_comm right.length left.length ▸ hfuel)
  have heq : (growGroup fuel limit right left).limit =
      (growGroup fuel limit left right).limit :=
    Nat.le_antisymm
      (hleast' _ hlimit (hr.closed hright) (hl.closed hleft))
      (hleast _ hlimit' (hl'.closed hleft) (hr'.closed hright))
  generalize growGroup fuel limit right left = swapped at hl' hr' heq ⊢
  obtain ⟨limit', leftTaken, leftRest, rightTaken, rightRest⟩ := swapped
  dsimp only at heq hl' hr'
  subst heq
  obtain ⟨rfl, rfl⟩ := hr'.unique hr
  obtain ⟨rfl, rfl⟩ := hl'.unique hl
  rfl

theorem groupsUpTo_swap {fuel n k : Nat} {left right : List (Change α)}
    (hleft : ScriptFrom n k left) (hright : ScriptFrom n k right) :
    groupsUpTo fuel right left = (groupsUpTo fuel left right).map ChangeGroup.swap := by
  induction fuel generalizing k left right with
  | zero => rfl
  | succ fuel ih =>
      unfold groupsUpTo
      rw [nextStart_comm left right]
      cases hstart : nextStart left right with
      | none => rfl
      | some start =>
          have hfirst := firstGroup_of_nextStart hstart hleft hright
          have hswap := growGroup_swap start
            (Nat.lt_succ_self (left.length + right.length)) hleft hright
          have hrest := ih (hfirst.left.scriptFrom_rest hleft)
            (hfirst.right.scriptFrom_rest hright)
          simp only [Nat.add_comm right.length left.length, hswap, hrest, List.map_cons,
            ChangeGroup.swap]

/-- Exchanging the two scripts exchanges the sides of every group and nothing
else. -/
theorem changeGroups_swap {n : Nat} {left right : List (Change α)}
    (hleft : ScriptFrom n 0 left) (hright : ScriptFrom n 0 right) :
    changeGroups right left = (changeGroups left right).map ChangeGroup.swap := by
  unfold changeGroups
  rw [Nat.add_comm]
  exact groupsUpTo_swap hleft hright

/-! ## Weaving groups into the base -/

/-- Write the base out from `cursor` on, with `region g` in the place of every
group `g`. -/
def weave (base : List α) (region : ChangeGroup α → List α) :
    Nat → List (ChangeGroup α) → List α
  | cursor, [] => base.drop cursor
  | cursor, g :: gs =>
      slice base cursor g.start ++ region g ++ weave base region g.stop gs

theorem weave_congr (base : List α) {region region' : ChangeGroup α → List α}
    {groups : List (ChangeGroup α)} (h : ∀ g ∈ groups, region g = region' g)
    (cursor : Nat) : weave base region cursor groups = weave base region' cursor groups := by
  induction groups generalizing cursor with
  | nil => rfl
  | cons g gs ih =>
      simp only [weave]
      rw [h g (by simp), ih fun g' hg' => h g' (by simp [hg'])]

theorem infix_weave (base : List α) (region : ChangeGroup α → List α)
    {groups : List (ChangeGroup α)} {g : ChangeGroup α} (hg : g ∈ groups) (cursor : Nat) :
    region g <:+: weave base region cursor groups := by
  induction groups generalizing cursor with
  | nil => simp at hg
  | cons h gs ih =>
      rcases List.mem_cons.mp hg with rfl | hg
      · exact ⟨slice base cursor g.start, weave base region g.stop gs, rfl⟩
      · exact (ih hg h.stop).trans (List.suffix_append _ _).isInfix

theorem weave_map (base : List α) (region : ChangeGroup α → List α)
    (f : ChangeGroup α → ChangeGroup α) (hstart : ∀ g, (f g).start = g.start)
    (hstop : ∀ g, (f g).stop = g.stop) (groups : List (ChangeGroup α)) (cursor : Nat) :
    weave base region cursor (groups.map f) =
      weave base (fun g => region (f g)) cursor groups := by
  induction groups generalizing cursor with
  | nil => rfl
  | cons g gs ih => simp only [List.map_cons, weave, hstart, hstop, ih]

/-- Writing out one side's changes group by group is applying that side's
script. -/
theorem weave_side (base : List α) (side : ChangeGroup α → List (Change α))
    {groups : List (ChangeGroup α)} {cursor : Nat} (hcursor : cursor ≤ base.length)
    (hside : ∀ g ∈ groups, cursor ≤ g.start ∧ g.start ≤ g.stop ∧ g.stop ≤ base.length ∧
      ∀ c ∈ side g, g.start ≤ c.baseStart ∧ c.baseEnd ≤ g.stop)
    (hapart : groups.Pairwise fun g h => g.stop < h.start) :
    weave base (fun g => applyFrom base g.start g.stop (side g)) cursor groups =
      applyFrom base cursor base.length (groups.flatMap side) := by
  induction groups generalizing cursor with
  | nil => simp [weave, applyFrom, slice_length]
  | cons g gs ih =>
      obtain ⟨hstart, hwidth, hstop, hchanges⟩ := hside g (by simp)
      obtain ⟨hnext, hapart⟩ := List.pairwise_cons.mp hapart
      have hrest := ih hstop (fun g' hg' =>
        ⟨Nat.le_of_lt (hnext g' hg'), (hside g' (by simp [hg'])).2⟩) hapart
      have hlater : ∀ c ∈ gs.flatMap side, g.stop ≤ c.baseStart := by
        intro c hc
        obtain ⟨g', hg', hcg'⟩ := List.mem_flatMap.mp hc
        have h1 := hnext g' hg'
        have h2 := ((hside g' (by simp [hg'])).2.2.2 c hcg').1
        omega
      rw [weave, hrest, List.flatMap_cons,
        applyFrom_append base (fun c hc => (hchanges c hc).2) hlater (by omega) hstop,
        ← applyFrom_skip base (fun c hc => (hchanges c hc).1) hstart hwidth]

theorem Cluster.ordered {start stop : Nat} {S : Change α → Prop}
    (h : Cluster start stop S) : start ≤ stop := by
  obtain ⟨c, hc, hstart⟩ := h.first
  have := h.within c hc
  omega

/-- The left regions woven into the base are the base with the left script
applied. -/
theorem Grouping.weave_left {base : List α} {left right : List (Change α)}
    {groups : List (ChangeGroup α)} (h : Grouping base.length 0 left right groups) :
    weave base (fun g => applyFrom base g.start g.stop g.left) 0 groups =
      applyScript base left := by
  rw [weave_side base ChangeGroup.left (Nat.zero_le _) ?_ h.apart, h.left_eq, applyScript]
  intro g hg
  have hcluster := h.cluster g hg
  refine ⟨Nat.zero_le _, hcluster.ordered, (h.bounded g hg).2, fun c hc => ?_⟩
  have := hcluster.within c (Or.inl hc)
  exact ⟨this.1, this.2.2⟩

theorem Grouping.weave_right {base : List α} {left right : List (Change α)}
    {groups : List (ChangeGroup α)} (h : Grouping base.length 0 left right groups) :
    weave base (fun g => applyFrom base g.start g.stop g.right) 0 groups =
      applyScript base right := by
  rw [weave_side base ChangeGroup.right (Nat.zero_le _) ?_ h.apart, h.right_eq, applyScript]
  intro g hg
  have hcluster := h.cluster g hg
  refine ⟨Nat.zero_le _, hcluster.ordered, (h.bounded g hg).2, fun c hc => ?_⟩
  have := hcluster.within c (Or.inr hc)
  exact ⟨this.1, this.2.2⟩

end Locality.Foundation
