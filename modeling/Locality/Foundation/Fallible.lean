/-
  Foundation/Fallible.lean --- computations that may fail, over a state that outlives
  the failure.

  `ExceptT ε (StateM σ)` is such a computation: what it did before it failed stays
  done.  The rules below give what holds after a sequence, or after a handled one, from
  what holds after its parts.
-/
import Mathlib.Algebra.GroupWithZero.Nat
import Mathlib.Tactic.Common

set_option autoImplicit false

namespace Locality.Foundation

/-- A sequence that succeeded: both of its parts did. -/
theorem bind_eq_ok {ε α β : Type} {first : Except ε α} {next : α → Except ε β} {b : β} :
    (first >>= next) = .ok b ↔ ∃ a, first = .ok a ∧ next a = .ok b := by
  cases first with
  | error error =>
      refine ⟨fun h => (nomatch h), fun h => ?_⟩
      obtain ⟨a, ha, -⟩ := h
      exact nomatch ha
  | ok a =>
      refine ⟨fun h => ⟨a, rfl, h⟩, fun h => ?_⟩
      obtain ⟨a', ha, hnext⟩ := h
      cases ha
      exact hnext

/-- A check that was passed. -/
theorem ite_throw_eq_ok {ε α : Type} {p : Prop} [Decidable p] {error : ε}
    {rest : Except ε α} {a : α} :
    (if p then throw error else rest) = .ok a ↔ ¬ p ∧ rest = .ok a := by
  split
  · rename_i hp
    exact ⟨fun h => (nomatch h), fun h => absurd hp h.1⟩
  · rename_i hp
    exact ⟨fun h => ⟨hp, h⟩, And.right⟩

/-- A check that has no value. -/
theorem ite_throw_pure_eq_ok {ε : Type} {p : Prop} [Decidable p] {error : ε} {u : Unit} :
    (if p then throw error else pure () : Except ε Unit) = .ok u ↔ ¬ p := by
  rw [ite_throw_eq_ok]
  exact and_iff_left rfl

/-- A list is passed if each of its members is. -/
theorem forM_eq_ok {ε α : Type} {list : List α} {check : α → Except ε Unit} {u : Unit} :
    list.forM check = .ok u ↔ ∀ a ∈ list, check a = .ok () := by
  induction list with
  | nil => exact iff_of_true rfl nofun
  | cons a list ih =>
      have hstep : (a :: list).forM check = .ok u ↔ ∃ u', check a = .ok u' ∧
          list.forM check = .ok u := bind_eq_ok
      rw [hstep, List.forall_mem_cons, ih]
      exact ⟨fun ⟨_, ha, hrest⟩ => ⟨ha, hrest⟩, fun ⟨ha, hrest⟩ => ⟨(), ha, hrest⟩⟩

theorem forM_eq_error {ε α : Type} {list : List α} {check : α → Except ε Unit} {error : ε}
    (h : list.forM check = .error error) : ∃ a ∈ list, check a = .error error := by
  induction list with
  | nil => exact nomatch h
  | cons a list ih =>
      have hstep : (check a >>= fun _ => list.forM check) = .error error := h
      cases hcheck : check a with
      | error found =>
          rw [hcheck] at hstep
          exact ⟨a, List.mem_cons_self, hcheck.trans hstep⟩
      | ok u =>
          rw [hcheck] at hstep
          obtain ⟨b, hb, herror⟩ := ih hstep
          exact ⟨b, List.mem_cons_of_mem _ hb, herror⟩

/-- A check that is refused with an error. -/
def rejectIf {ε : Type} (p : Prop) [Decidable p] (error : ε) : Except ε Unit :=
  if p then throw error else pure ()

theorem rejectIf_eq_ok {ε : Type} {p : Prop} [Decidable p] {error : ε} {u : Unit} :
    rejectIf p error = .ok u ↔ ¬ p :=
  ite_throw_pure_eq_ok

theorem rejectIf_bind_eq_ok {ε β : Type} {p : Prop} [Decidable p] {error : ε}
    {next : Unit → Except ε β} {b : β} :
    (rejectIf p error >>= next) = .ok b ↔ ¬ p ∧ next () = .ok b := by
  rw [bind_eq_ok]
  exact ⟨fun ⟨_, hp, h⟩ => ⟨rejectIf_eq_ok.mp hp, h⟩,
    fun ⟨hp, h⟩ => ⟨(), rejectIf_eq_ok.mpr hp, h⟩⟩

/-- A value, or an error where there is none. -/
def okOr {ε α : Type} (value : Option α) (error : ε) : Except ε α :=
  value.elim (throw error) pure

theorem okOr_eq_ok {ε α : Type} {value : Option α} {error : ε} {a : α} :
    okOr value error = .ok a ↔ value = some a := by
  cases value with
  | none => exact ⟨fun h => (nomatch h), fun h => (nomatch h)⟩
  | some b => exact ⟨fun h => congrArg some (Except.ok.inj h), fun h => by cases h; rfl⟩

theorem okOr_bind_eq_ok {ε α β : Type} {value : Option α} {error : ε}
    {next : α → Except ε β} {b : β} :
    (okOr value error >>= next) = .ok b ↔ ∃ a, value = some a ∧ next a = .ok b := by
  rw [bind_eq_ok]
  exact exists_congr fun a => and_congr_left' okOr_eq_ok

/-- An error that is translated is none where there was none. -/
theorem mapError_eq_ok {ε ε' α : Type} {translate : ε → ε'} {result : Except ε α} {a : α} :
    result.mapError translate = .ok a ↔ result = .ok a := by
  cases result with
  | error error => exact ⟨fun h => (nomatch h), fun h => (nomatch h)⟩
  | ok b => exact ⟨fun h => congrArg Except.ok (Except.ok.inj h), fun h => by cases h; rfl⟩

theorem mapError_bind_eq_ok {ε ε' α β : Type} {translate : ε → ε'} {result : Except ε α}
    {next : α → Except ε' β} {b : β} :
    (result.mapError translate >>= next) = .ok b ↔ ∃ a, result = .ok a ∧ next a = .ok b := by
  rw [bind_eq_ok]
  exact exists_congr fun a => and_congr_left' mapError_eq_ok

abbrev Fallible (ε σ : Type) : Type → Type := ExceptT ε (StateM σ)

namespace Fallible

variable {ε σ α β : Type} {first : Fallible ε σ α} {st : σ}

/-- How a sequence runs: its second part runs where the first one succeeded. -/
theorem run_bind (first : Fallible ε σ α) (next : α → Fallible ε σ β) (st : σ) :
    (first >>= next) st =
      match first st with
      | (.ok a, st') => next a st'
      | (.error error, st') => (.error error, st') := by
  simp only [bind, ExceptT.bind, ExceptT.mk, StateT.bind]
  cases first st with
  | mk outcome st' => cases outcome <;> rfl

theorem run_pure (a : α) (st : σ) : (pure a : Fallible ε σ α) st = (.ok a, st) := rfl

theorem run_throw (error : ε) (st : σ) :
    (throw error : Fallible ε σ α) st = (.error error, st) := rfl

theorem run_lift (result : Except ε α) (st : σ) :
    (liftM result : Fallible ε σ α) st = (result, st) := by
  cases result <;> rfl

/-- An error that is read as one of another type. -/
theorem run_adapt {ε' : Type} (translate : ε → ε') (op : Fallible ε σ α) (st : σ) :
    (ExceptT.adapt translate op : Fallible ε' σ α) st =
      ((op st).1.mapError translate, (op st).2) := by
  rfl

/-- What holds after a sequence holds after its second part, or where the first failed. -/
theorem bind_post {next : α → Fallible ε σ β} {P : Except ε β × σ → Prop}
    (hok : ∀ a st', first st = (.ok a, st') → P (next a st'))
    (herror : ∀ error st', first st = (.error error, st') → P (.error error, st')) :
    P ((first >>= next) st) := by
  cases h : first st with
  | mk outcome st' =>
      cases outcome with
      | ok a =>
          have hrun : (first >>= next) st = next a st' := by
            simp only [bind, ExceptT.bind, ExceptT.mk, StateT.bind, h, ExceptT.bindCont]
          rw [hrun]
          exact hok a st' h
      | error error =>
          have hrun : (first >>= next) st = (.error error, st') := by
            simp only [bind, ExceptT.bind, ExceptT.mk, StateT.bind, h, ExceptT.bindCont]
            rfl
          rw [hrun]
          exact herror error st' h

/-- What holds after a handled computation holds after it, or after its handler. -/
theorem tryCatch_post {handler : ε → Fallible ε σ α} {P : Except ε α × σ → Prop}
    (hok : ∀ a st', first st = (.ok a, st') → P (.ok a, st'))
    (herror : ∀ error st', first st = (.error error, st') → P (handler error st')) :
    P ((tryCatch first handler : Fallible ε σ α) st) := by
  cases h : first st with
  | mk outcome st' =>
      cases outcome with
      | ok a =>
          have hrun : (tryCatch first handler : Fallible ε σ α) st = (.ok a, st') := by
            simp only [tryCatch, tryCatchThe, MonadExceptOf.tryCatch, ExceptT.tryCatch,
              ExceptT.mk, bind, StateT.bind, h]
            rfl
          rw [hrun]
          exact hok a st' h
      | error error =>
          have hrun : (tryCatch first handler : Fallible ε σ α) st = handler error st' := by
            simp only [tryCatch, tryCatchThe, MonadExceptOf.tryCatch, ExceptT.tryCatch,
              ExceptT.mk, bind, StateT.bind, h]
          rw [hrun]
          exact herror error st' h

/-! ## What a computation leaves alone -/

/-- The computation does not change what the view shows of a state. -/
def Keeps {τ : Type} (view : σ → τ) (op : Fallible ε σ α) : Prop :=
  ∀ st, view (op st).2 = view st

namespace Keeps

variable {τ : Type} {view : σ → τ} {op : Fallible ε σ α} {next : α → Fallible ε σ β}

theorem of_pure (a : α) : Keeps view (pure a : Fallible ε σ α) := fun _ => rfl

theorem of_throw (error : ε) : Keeps view (throw error : Fallible ε σ α) := fun _ => rfl

theorem of_lift (result : Except ε α) : Keeps view (liftM result : Fallible ε σ α) := by
  intro st
  rw [run_lift]

theorem bind (hop : Keeps view op) (hnext : ∀ a, Keeps view (next a)) :
    Keeps view (op >>= next) := by
  intro st
  have hstep := hop st
  rw [run_bind]
  cases h : op st with
  | mk outcome st' =>
      rw [h] at hstep
      cases outcome with
      | ok a => exact (hnext a st').trans hstep
      | error error => exact hstep

theorem ite {p : Prop} [Decidable p] {other : Fallible ε σ α} (hop : Keeps view op)
    (hother : Keeps view other) : Keeps view (if p then op else other) := by
  split
  · exact hop
  · exact hother

end Keeps

/-! ## Runs with a known result -/

/-- From a state with the first property the computation ends with the result, in a
state with the second. -/
def Yields (op : Fallible ε σ α) (pre : σ → Prop) (result : Except ε α) (post : σ → Prop) :
    Prop :=
  ∀ st, pre st → ∃ st', op st = (result, st') ∧ post st'

namespace Yields

variable {op : Fallible ε σ α} {next : α → Fallible ε σ β} {pre m post : σ → Prop}

theorem of_pure (a : α) : Yields (pure a : Fallible ε σ α) pre (.ok a) pre := by
  intro st h
  exact ⟨st, rfl, h⟩

theorem of_throw (error : ε) :
    Yields (throw error : Fallible ε σ α) pre (.error error) pre := by
  intro st h
  exact ⟨st, rfl, h⟩

theorem of_lift (result : Except ε α) :
    Yields (liftM result : Fallible ε σ α) pre result pre := by
  intro st h
  exact ⟨st, run_lift result st, h⟩

theorem weaken {result : Except ε α} {pre' : σ → Prop} (hop : Yields op pre result post)
    (hpre : ∀ st, pre' st → pre st) : Yields op pre' result post :=
  fun st h => hop st (hpre st h)

theorem bind {a : α} {result : Except ε β} (hop : Yields op pre (.ok a) m)
    (hnext : Yields (next a) m result post) : Yields (op >>= next) pre result post := by
  intro st h
  obtain ⟨st', hrun, hmid⟩ := hop st h
  obtain ⟨st'', hrun', hpost⟩ := hnext st' hmid
  refine ⟨st'', ?_, hpost⟩
  rw [run_bind, hrun]
  exact hrun'

theorem bind_error {error : ε} (hop : Yields op pre (.error error) post) :
    Yields (op >>= next) pre (.error error) post := by
  intro st h
  obtain ⟨st', hrun, hpost⟩ := hop st h
  refine ⟨st', ?_, hpost⟩
  rw [run_bind, hrun]

theorem adapt {ε' : Type} {result : Except ε α} (translate : ε → ε')
    (hop : Yields op pre result post) :
    Yields (ExceptT.adapt translate op : Fallible ε' σ α) pre (result.mapError translate)
      post := by
  intro st h
  obtain ⟨st', hrun, hpost⟩ := hop st h
  exact ⟨st', by rw [run_adapt, hrun], hpost⟩

end Yields

/-! ## Runs that may be stopped -/

/-- From a state with the first property the computation ends with the value, in a
state with the second, or it is stopped in a state with the third. -/
def EndsOrStops (op : Fallible ε σ α) (pre : σ → Prop) (a : α) (post stop : σ → Prop) : Prop :=
  ∀ st, pre st → (∃ st', op st = (.ok a, st') ∧ post st') ∨
    ∃ error st', op st = (.error error, st') ∧ stop st'

namespace EndsOrStops

variable {op : Fallible ε σ α} {next : α → Fallible ε σ β} {pre mid post stop : σ → Prop}

theorem of_pure (a : α) : EndsOrStops (pure a : Fallible ε σ α) pre a pre stop :=
  fun st h => .inl ⟨st, rfl, h⟩

theorem of_yields {a : α} (h : Yields op pre (.ok a) post) : EndsOrStops op pre a post stop :=
  fun st hpre => .inl (h st hpre)

theorem bind {a : α} {b : β} (hop : EndsOrStops op pre a mid stop)
    (hnext : EndsOrStops (next a) mid b post stop) :
    EndsOrStops (op >>= next) pre b post stop := by
  intro st h
  rw [run_bind]
  obtain ⟨st', hrun, hmid⟩ | ⟨error, st', hrun, hstop⟩ := hop st h
  · rw [hrun]
    exact hnext st' hmid
  · rw [hrun]
    exact .inr ⟨error, st', rfl, hstop⟩

/-- However the computation ends, it ends in a state with the third property, where the
second implies it. -/
theorem reaches {a : α} {st : σ} (hop : EndsOrStops op pre a post stop) (h : pre st)
    (hpost : ∀ st', post st' → stop st') : stop (op st).2 := by
  obtain ⟨st', hrun, hend⟩ | ⟨error, st', hrun, hstop⟩ := hop st h
  · rw [hrun]
    exact hpost st' hend
  · rw [hrun]
    exact hstop

end EndsOrStops

end Fallible

end Locality.Foundation
