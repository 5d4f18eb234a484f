/-
  Foundation/GuardedSteps.lean --- plans that are made in one pass, where an obstacle that
  has a name keeps what comes behind it under this name.

  Which items of a list of steps are taken is a matter of the steps before each of them
  (`Reaches`).  Steps that are left out without an obstacle among them change nothing for
  the others.
-/
import Mathlib.Tactic.Common

set_option autoImplicit false

namespace Locality.Foundation

/-- A step of a plan: an obstacle under some names, an item that is taken where no obstacle
has its name, or a fault there. -/
inductive GuardedStep (ν ρ ε : Type) where
  | block (names : List ν)
  | item (name : ν) (row : ρ)
  | fault (name : ν) (error : ε)

/-- The names of the obstacles so far, and the items that were taken. -/
structure Guarded (ν ρ : Type) where
  blocked : List ν
  taken : List ρ

section Steps

variable {ν ρ ε : Type}

def GuardedStep.row? : GuardedStep ν ρ ε → Option ρ
  | item _ row => some row
  | _ => none

def GuardedStep.isBlock : GuardedStep ν ρ ε → Bool
  | block _ => true
  | _ => false

/-- The step is one of the steps, and no obstacle before it has the name. -/
def Reaches (steps : List (GuardedStep ν ρ ε)) (step : GuardedStep ν ρ ε) (name : ν) : Prop :=
  ∃ front back, steps = front ++ step :: back ∧ ∀ names, .block names ∈ front → name ∉ names

theorem reaches_append {first rest : List (GuardedStep ν ρ ε)} {step : GuardedStep ν ρ ε}
    {name : ν} : Reaches (first ++ rest) step name ↔ Reaches first step name ∨
      (∀ names, .block names ∈ first → name ∉ names) ∧ Reaches rest step name := by
  constructor
  · rintro ⟨front, back, hsteps, hopen⟩
    obtain ⟨middle, rfl, hrest⟩ | ⟨middle, rfl, hback⟩ := List.append_eq_append_iff.mp hsteps
    · refine Or.inr ⟨fun names h => hopen names (List.mem_append_left _ h), middle, back, hrest, ?_⟩
      exact fun names h => hopen names (List.mem_append_right _ h)
    · cases middle with
      | nil =>
          rw [List.append_nil]
          rw [List.nil_append] at hback
          exact Or.inr ⟨hopen, [], back, hback.symm, fun names h => nomatch h⟩
      | cons found middle =>
          rw [List.cons_append] at hback
          obtain ⟨rfl, -⟩ := List.cons.inj hback
          exact Or.inl ⟨front, middle, rfl, hopen⟩
  · rintro (⟨front, back, rfl, hopen⟩ | ⟨hfirst, front, back, rfl, hopen⟩)
    · exact ⟨front, back ++ rest, by rw [List.append_assoc, List.cons_append], hopen⟩
    · refine ⟨first ++ front, back, (List.append_assoc _ _ _).symm, fun names h => ?_⟩
      exact (List.mem_append.mp h).elim (hfirst names) (hopen names)

/-- What is reached in steps that are put together is reached in some of them. -/
theorem Reaches.exists_of_flatMap {α : Type} {members : List α}
    {stepsOf : α → List (GuardedStep ν ρ ε)} {step : GuardedStep ν ρ ε} {name : ν}
    (h : Reaches (members.flatMap stepsOf) step name) :
    ∃ member ∈ members, Reaches (stepsOf member) step name := by
  induction members with
  | nil =>
      obtain ⟨front, back, hsteps, -⟩ := h
      exact nomatch (List.append_eq_nil_iff.mp hsteps.symm).2
  | cons member members ih =>
      rw [List.flatMap_cons, reaches_append] at h
      obtain h | ⟨-, h⟩ := h
      · exact ⟨member, List.mem_cons_self, h⟩
      · obtain ⟨found, hfound, h⟩ := ih h
        exact ⟨found, List.mem_cons_of_mem _ hfound, h⟩

variable [DecidableEq ν]

def Guarded.step (state : Guarded ν ρ) : GuardedStep ν ρ ε → Except ε (Guarded ν ρ)
  | .block names => .ok { state with blocked := state.blocked ++ names }
  | .item name row =>
      .ok (if name ∈ state.blocked then state else { state with taken := state.taken ++ [row] })
  | .fault name error => if name ∈ state.blocked then .ok state else .error error

def Guarded.steps (state : Guarded ν ρ) (steps : List (GuardedStep ν ρ ε)) :
    Except ε (Guarded ν ρ) :=
  steps.foldlM Guarded.step state

variable {state final : Guarded ν ρ} {steps : List (GuardedStep ν ρ ε)}
  {step : GuardedStep ν ρ ε} {name : ν} {row : ρ} {error : ε}

omit [DecidableEq ν] in
theorem reaches_cons {first : GuardedStep ν ρ ε} : Reaches (first :: steps) step name ↔
    first = step ∨ (∀ names, first = .block names → name ∉ names) ∧ Reaches steps step name := by
  constructor
  · rintro ⟨front, back, hsteps, hopen⟩
    cases front with
    | nil => exact Or.inl (List.cons.inj hsteps).1
    | cons before front =>
        obtain ⟨rfl, rfl⟩ := List.cons.inj hsteps
        refine Or.inr ⟨fun names h => hopen names (h ▸ List.mem_cons_self), front, back, rfl, ?_⟩
        exact fun names h => hopen names (List.mem_cons_of_mem _ h)
  · rintro (rfl | ⟨hfirst, front, back, rfl, hopen⟩)
    · exact ⟨[], steps, rfl, fun names h => nomatch h⟩
    · refine ⟨first :: front, back, rfl, fun names h => ?_⟩
      obtain h | h := List.mem_cons.mp h
      · exact hfirst names h.symm
      · exact hopen names h

omit [DecidableEq ν] in
theorem Reaches.mem (h : Reaches steps step name) : step ∈ steps := by
  obtain ⟨front, back, rfl, -⟩ := h
  exact List.mem_append_right _ List.mem_cons_self

theorem Guarded.steps_singleton : state.steps [step] = state.step step := by
  rw [Guarded.steps, List.foldlM_cons]
  cases state.step step <;> rfl

theorem Guarded.steps_append {rest : List (GuardedStep ν ρ ε)} :
    state.steps (steps ++ rest) = state.steps steps >>= fun middle => middle.steps rest :=
  List.foldlM_append

/-- What a pass takes: the items whose names have no obstacle before them. -/
theorem Guarded.steps_eq_ok (h : state.steps steps = .ok final) : ∀ row,
    row ∈ final.taken ↔ row ∈ state.taken ∨
      ∃ name, name ∉ state.blocked ∧ Reaches steps (.item name row) name := by
  induction steps generalizing state with
  | nil =>
      cases h
      refine fun row => ⟨Or.inl, ?_⟩
      rintro (h | ⟨name, -, hreaches⟩)
      · exact h
      · exact nomatch hreaches.mem
  | cons first steps ih =>
      rw [Guarded.steps, List.foldlM_cons] at h
      intro row
      cases first with
      | block names =>
          rw [ih h row]
          refine or_congr_right (exists_congr fun name => ?_)
          rw [reaches_cons, List.mem_append, not_or, and_assoc]
          refine and_congr_right fun _ => ⟨fun ⟨hnames, hrest⟩ => Or.inr ⟨?_, hrest⟩, ?_⟩
          · rintro names' h
            cases h
            exact hnames
          · rintro (h | ⟨hnames, hrest⟩)
            · exact nomatch h
            · exact ⟨hnames names rfl, hrest⟩
      | item found taken =>
          have hskip : ∀ name, Reaches (.item found taken :: steps) (.item name row) name ↔
              (found = name ∧ taken = row) ∨ Reaches steps (.item name row) name := by
            intro name
            rw [reaches_cons, GuardedStep.item.injEq]
            exact or_congr_right (and_iff_right fun names h => nomatch h)
          simp only [hskip, and_or_left, exists_or]
          by_cases hblocked : found ∈ state.blocked
          · rw [Guarded.step, if_pos hblocked] at h
            rw [ih h row]
            refine or_congr_right ⟨Or.inr, ?_⟩
            rintro (⟨name, hopen, rfl, -⟩ | hrest)
            · exact absurd hblocked hopen
            · exact hrest
          · rw [Guarded.step, if_neg hblocked] at h
            rw [ih h row, List.mem_append, List.mem_singleton, or_assoc]
            refine or_congr_right (or_congr_left ⟨?_, ?_⟩)
            · rintro rfl
              exact ⟨found, hblocked, rfl, rfl⟩
            · rintro ⟨name, -, -, rfl⟩
              rfl
      | fault found error =>
          rw [Guarded.step] at h
          split at h
          · rw [ih h row]
            refine or_congr_right (exists_congr fun name => and_congr_right fun _ => ?_)
            rw [reaches_cons]
            refine ⟨fun hrest => Or.inr ⟨fun names h => (nomatch h), hrest⟩, ?_⟩
            rintro (h | ⟨-, hrest⟩)
            · exact nomatch h
            · exact hrest
          · exact nomatch h

/-- What a pass takes is listed in the steps, in their order. -/
theorem Guarded.taken_sublist (h : state.steps steps = .ok final) :
    ∃ taken, final.taken = state.taken ++ taken ∧
      taken.Sublist (steps.filterMap GuardedStep.row?) := by
  induction steps generalizing state with
  | nil =>
      cases h
      exact ⟨[], (List.append_nil _).symm, List.Sublist.slnil⟩
  | cons first steps ih =>
      rw [Guarded.steps, List.foldlM_cons] at h
      cases first with
      | block names =>
          obtain ⟨taken, htaken, hsublist⟩ := ih h
          exact ⟨taken, htaken, hsublist⟩
      | item found row =>
          rw [Guarded.step] at h
          split at h
          · obtain ⟨taken, htaken, hsublist⟩ := ih h
            exact ⟨taken, htaken, hsublist.cons row⟩
          · obtain ⟨taken, htaken, hsublist⟩ := ih h
            refine ⟨row :: taken, ?_, hsublist.cons_cons row⟩
            rw [htaken, List.append_assoc, List.singleton_append]
      | fault found error =>
          rw [Guarded.step] at h
          split at h
          · exact ih h
          · exact nomatch h

/-- A pass fails exactly at a fault whose name has no obstacle before it. -/
theorem Guarded.steps_eq_error : (∃ error, state.steps steps = .error error) ↔
    ∃ name error, name ∉ state.blocked ∧ Reaches steps (.fault name error) name := by
  induction steps generalizing state with
  | nil =>
      refine ⟨fun ⟨_, h⟩ => (nomatch h), ?_⟩
      rintro ⟨name, error, -, hreaches⟩
      exact nomatch hreaches.mem
  | cons first steps ih =>
      rw [Guarded.steps, List.foldlM_cons]
      cases first with
      | block names =>
          refine Iff.trans ih (exists_congr fun name => exists_congr fun error => ?_)
          rw [reaches_cons, List.mem_append, not_or, and_assoc]
          refine and_congr_right fun _ => ⟨fun ⟨hnames, hrest⟩ => Or.inr ⟨?_, hrest⟩, ?_⟩
          · rintro names' h
            cases h
            exact hnames
          · rintro (h | ⟨hnames, hrest⟩)
            · exact nomatch h
            · exact ⟨hnames names rfl, hrest⟩
      | item found row =>
          have hskip : ∀ name error, Reaches (.item found row :: steps) (.fault name error) name ↔
              Reaches steps (.fault name error) name := by
            intro name error
            rw [reaches_cons]
            exact ⟨fun h => (h.resolve_left nofun).2, fun h => Or.inr ⟨nofun, h⟩⟩
          simp only [hskip]
          rw [Guarded.step]
          split
          · exact ih
          · exact ih
      | fault found error =>
          by_cases hblocked : found ∈ state.blocked
          · rw [Guarded.step, if_pos hblocked]
            refine Iff.trans ih (exists_congr fun name => exists_congr fun other => ?_)
            refine and_congr_right fun hopen => ?_
            rw [reaches_cons]
            refine ⟨fun h => Or.inr ⟨nofun, h⟩, ?_⟩
            rintro (h | ⟨-, hrest⟩)
            · cases h
              exact absurd hblocked hopen
            · exact hrest
          · rw [Guarded.step, if_neg hblocked]
            refine iff_of_true ⟨error, rfl⟩ ⟨found, error, hblocked, ?_⟩
            exact reaches_cons.mpr (Or.inl rfl)

omit [DecidableEq ν] in
/-- What is reached where steps without obstacles are left out is reached where they are
not. -/
theorem Reaches.of_filter {keep : GuardedStep ν ρ ε → Bool}
    (hkeep : ∀ step : GuardedStep ν ρ ε, step.isBlock = true → keep step = true)
    (h : Reaches (steps.filter keep) step name) : Reaches steps step name := by
  obtain ⟨front, back, hsteps, hopen⟩ := h
  obtain ⟨before, after, rfl, rfl, hafter⟩ := List.filter_eq_append_iff.mp hsteps
  obtain ⟨skipped, rest, rfl, hskipped, hstep, rfl⟩ := List.filter_eq_cons_iff.mp hafter
  refine ⟨before ++ skipped, rest, (List.append_assoc _ _ _).symm, fun names h => ?_⟩
  obtain h | h := List.mem_append.mp h
  · exact hopen names (List.mem_filter.mpr ⟨h, hkeep _ rfl⟩)
  · exact absurd (hkeep _ rfl) (hskipped _ h)

end Steps

end Locality.Foundation
