/-
  Foundation/Program.lean --- programs as trees of the operations that they ask a device
  for, one after the other.

  A device is a function from an operation and a state to an answer and a state.  A
  program runs on it to its end (`run`), or stops after some of its operations, in a
  state that it passes (`Passes`).
-/
import Mathlib.Tactic.Common

set_option autoImplicit false

namespace Locality.Foundation

/-- A program that returns a value or fails, or asks for an operation and goes on with the
answer. -/
inductive Program (Op : Type) (Answer : Op → Type) (ε α : Type) where
  | done (value : α)
  | fail (error : ε)
  | ask (op : Op) (next : Answer op → Program Op Answer ε α)

namespace Program

variable {Op : Type} {Answer : Op → Type} {ε σ α β : Type}

def bind (self : Program Op Answer ε α) (next : α → Program Op Answer ε β) :
    Program Op Answer ε β :=
  match self with
  | done value => next value
  | fail error => fail error
  | ask op rest => ask op fun answer => (rest answer).bind next

instance : Monad (Program Op Answer ε) where
  pure := done
  bind := bind

/-- One operation. -/
def perform (op : Op) : Program Op Answer ε (Answer op) := ask op done

/-- A result that was found without the device. -/
def ofExcept : Except ε α → Program Op Answer ε α
  | .ok value => done value
  | .error error => fail error

/-- An error that is read as one of another type. -/
def mapError {ε' : Type} (translate : ε → ε') : Program Op Answer ε α → Program Op Answer ε' α
  | done value => done value
  | fail error => fail (translate error)
  | ask op next => ask op fun answer => (next answer).mapError translate

theorem bind_assoc {γ : Type} (self : Program Op Answer ε α) (next : α → Program Op Answer ε β)
    (last : β → Program Op Answer ε γ) :
    self >>= next >>= last = self >>= fun value => next value >>= last := by
  induction self with
  | done value => rfl
  | fail error => rfl
  | ask op rest ih => exact congrArg (ask op) (funext ih)

/-! ## Runs -/

variable (device : (op : Op) → σ → Answer op × σ)

def run : Program Op Answer ε α → σ → Except ε α × σ
  | done value, st => (.ok value, st)
  | fail error, st => (.error error, st)
  | ask op next, st => (next (device op st).1).run (device op st).2

@[simp] theorem run_done (value : α) (st : σ) :
    (done value : Program Op Answer ε α).run device st = (.ok value, st) := rfl

@[simp] theorem run_pure (value : α) (st : σ) :
    (pure value : Program Op Answer ε α).run device st = (.ok value, st) := rfl

@[simp] theorem run_fail (error : ε) (st : σ) :
    (fail error : Program Op Answer ε α).run device st = (.error error, st) := rfl

@[simp] theorem run_perform (op : Op) (st : σ) :
    (perform op : Program Op Answer ε (Answer op)).run device st =
      (.ok (device op st).1, (device op st).2) := rfl

@[simp] theorem run_ofExcept (result : Except ε α) (st : σ) :
    (ofExcept result : Program Op Answer ε α).run device st = (result, st) := by
  cases result <;> rfl

/-- How a sequence runs: its second part runs where the first one succeeded. -/
theorem run_bind (self : Program Op Answer ε α) (next : α → Program Op Answer ε β) (st : σ) :
    (self >>= next).run device st =
      match self.run device st with
      | (.ok value, st') => (next value).run device st'
      | (.error error, st') => (.error error, st') := by
  induction self generalizing st with
  | done value => rfl
  | fail error => rfl
  | ask op rest ih => exact ih (device op st).1 (device op st).2

theorem run_bind_of_ok {self : Program Op Answer ε α} {st st' : σ} {value : α}
    (h : self.run device st = (.ok value, st')) (next : α → Program Op Answer ε β) :
    (self >>= next).run device st = (next value).run device st' := by
  rw [run_bind, h]

theorem run_bind_of_error {self : Program Op Answer ε α} {st st' : σ} {error : ε}
    (h : self.run device st = (.error error, st')) (next : α → Program Op Answer ε β) :
    (self >>= next).run device st = (.error error, st') := by
  rw [run_bind, h]

/-- A sequence succeeds exactly if both of its parts do. -/
theorem run_bind_eq_ok {self : Program Op Answer ε α} {next : α → Program Op Answer ε β}
    {st st' : σ} {last : β} :
    (self >>= next).run device st = (.ok last, st') ↔
      ∃ value middle, self.run device st = (.ok value, middle) ∧
        (next value).run device middle = (.ok last, st') := by
  rw [run_bind]
  constructor
  · intro h
    split at h
    · rename_i value middle hself
      exact ⟨value, middle, hself, h⟩
    · cases h
  · rintro ⟨value, middle, hself, h⟩
    rw [hself]
    exact h

theorem run_ofExcept_eq_ok {outcome : Except ε α} {st st' : σ} {value : α} :
    (ofExcept outcome : Program Op Answer ε α).run device st = (.ok value, st') ↔
      outcome = .ok value ∧ st' = st := by
  rw [run_ofExcept, Prod.mk.injEq, eq_comm (a := st)]

/-- Other errors do not make another success. -/
theorem run_mapError_eq_ok {ε' : Type} {translate : ε → ε'} {self : Program Op Answer ε α}
    {st st' : σ} {value : α} :
    (self.mapError translate).run device st = (.ok value, st') ↔
      self.run device st = (.ok value, st') := by
  induction self generalizing st with
  | done found =>
      rw [mapError, run_done, run_done, Prod.mk.injEq, Prod.mk.injEq, Except.ok.injEq,
        Except.ok.injEq]
  | fail error =>
      rw [mapError, run_fail, run_fail, Prod.mk.injEq, Prod.mk.injEq]
      exact iff_of_false (fun h => nomatch h.1) (fun h => nomatch h.1)
  | ask op next ih => exact ih (device op st).1

/-! ## Runs with arbitrary answers -/

/-- The program asks for the operations of the log, is given its answers, and returns the
result: a run on a device of which nothing is known. -/
def Runs : Program Op Answer ε α → List ((op : Op) × Answer op) → Except ε α → Prop
  | done value, log, result => log = [] ∧ result = .ok value
  | fail error, log, result => log = [] ∧ result = .error error
  | ask op next, log, result =>
      ∃ answer rest, log = ⟨op, answer⟩ :: rest ∧ (next answer).Runs rest result

/-- Each run on a device is one with some answers. -/
theorem exists_runs (self : Program Op Answer ε α) (st : σ) :
    ∃ log, self.Runs log (self.run device st).1 := by
  induction self generalizing st with
  | done value => exact ⟨[], rfl, rfl⟩
  | fail error => exact ⟨[], rfl, rfl⟩
  | ask op next ih =>
      obtain ⟨log, hlog⟩ := ih (device op st).1 (device op st).2
      exact ⟨_, _, log, rfl, hlog⟩

theorem runs_perform {op : Op} {log : List ((op : Op) × Answer op)}
    {result : Except ε (Answer op)} :
    (perform op : Program Op Answer ε (Answer op)).Runs log result ↔
      ∃ answer, log = [⟨op, answer⟩] ∧ result = .ok answer := by
  constructor
  · rintro ⟨answer, rest, rfl, rfl, rfl⟩
    exact ⟨answer, rfl, rfl⟩
  · rintro ⟨answer, rfl, rfl⟩
    exact ⟨answer, [], rfl, rfl, rfl⟩

theorem runs_pure {value : α} {log : List ((op : Op) × Answer op)} {result : Except ε α} :
    (pure value : Program Op Answer ε α).Runs log result ↔ log = [] ∧ result = .ok value :=
  Iff.rfl

theorem runs_ofExcept {outcome : Except ε α} {log : List ((op : Op) × Answer op)}
    {result : Except ε α} :
    (ofExcept outcome : Program Op Answer ε α).Runs log result ↔ log = [] ∧ result = outcome := by
  cases outcome <;> exact Iff.rfl

/-- A run of a sequence is a run of its first part, and one of its second part if the first
succeeded. -/
theorem runs_bind {self : Program Op Answer ε α} {next : α → Program Op Answer ε β}
    {log : List ((op : Op) × Answer op)} {result : Except ε β} :
    (self >>= next).Runs log result ↔
      (∃ error, self.Runs log (.error error) ∧ result = .error error) ∨
        ∃ value first rest, log = first ++ rest ∧ self.Runs first (.ok value) ∧
          (next value).Runs rest result := by
  induction self generalizing log with
  | done value =>
      constructor
      · intro h
        exact Or.inr ⟨value, [], log, rfl, ⟨rfl, rfl⟩, h⟩
      · rintro (⟨error, ⟨-, herror⟩, -⟩ | ⟨value', first, rest, rfl, ⟨rfl, hvalue⟩, h⟩)
        · cases herror
        · cases hvalue
          exact h
  | fail error =>
      constructor
      · rintro ⟨rfl, rfl⟩
        exact Or.inl ⟨error, ⟨rfl, rfl⟩, rfl⟩
      · rintro (⟨error', ⟨rfl, herror⟩, rfl⟩ | ⟨value', first, rest, -, ⟨-, hvalue⟩, -⟩)
        · cases herror
          exact ⟨rfl, rfl⟩
        · cases hvalue
  | ask op rest ih =>
      constructor
      · rintro ⟨answer, log', rfl, h⟩
        rcases (ih answer).mp h with ⟨error, herror, rfl⟩ | ⟨value, first, last, rfl, hvalue, h⟩
        · exact Or.inl ⟨error, ⟨answer, log', rfl, herror⟩, rfl⟩
        · exact Or.inr ⟨value, ⟨op, answer⟩ :: first, last, rfl, ⟨answer, first, rfl, hvalue⟩, h⟩
      · rintro (⟨error, ⟨answer, log', rfl, herror⟩, rfl⟩ |
          ⟨value, first, last, rfl, ⟨answer, first', rfl, hvalue⟩, h⟩)
        · exact ⟨answer, log', rfl, (ih answer).mpr (Or.inl ⟨error, herror, rfl⟩)⟩
        · exact ⟨answer, first' ++ last, rfl,
            (ih answer).mpr (Or.inr ⟨value, first', last, rfl, hvalue, h⟩)⟩

/-- A sequence that succeeded. -/
theorem runs_bind_ok {self : Program Op Answer ε α} {next : α → Program Op Answer ε β}
    {log : List ((op : Op) × Answer op)} {last : β} :
    (self >>= next).Runs log (.ok last) ↔
      ∃ value first rest, log = first ++ rest ∧ self.Runs first (.ok value) ∧
        (next value).Runs rest (.ok last) := by
  rw [runs_bind]
  refine or_iff_right ?_
  rintro ⟨error, -, heq⟩
  cases heq

/-! ## Stops -/

/-- The states that a run passes, the first and the last one included. -/
def Passes : Program Op Answer ε α → σ → σ → Prop
  | done _, st, st' => st' = st
  | fail _, st, st' => st' = st
  | ask op next, st, st' =>
      st' = st ∨ (next (device op st).1).Passes (device op st).2 st'

theorem Passes.refl (self : Program Op Answer ε α) (st : σ) : self.Passes device st st := by
  cases self with
  | done value => rfl
  | fail error => rfl
  | ask op next => exact Or.inl rfl

/-- The state behind some of the operations. -/
def stateAfter : Nat → Program Op Answer ε α → σ → σ
  | count + 1, ask op next, st => stateAfter count (next (device op st).1) (device op st).2
  | _, _, st => st

theorem passes_stateAfter (count : Nat) (self : Program Op Answer ε α) (st : σ) :
    self.Passes device st (stateAfter device count self st) := by
  induction count generalizing self st with
  | zero => exact Passes.refl device self st
  | succ count ih =>
      cases self with
      | done value => rfl
      | fail error => rfl
      | ask op next => exact Or.inr (ih (next (device op st).1) (device op st).2)

/-- A sequence stops in its first part, or in its second one behind the first. -/
theorem passes_bind {self : Program Op Answer ε α} {next : α → Program Op Answer ε β}
    {st st' : σ} :
    (self >>= next).Passes device st st' ↔
      self.Passes device st st' ∨
        ∃ value middle, self.run device st = (.ok value, middle) ∧
          (next value).Passes device middle st' := by
  induction self generalizing st with
  | done value =>
      constructor
      · exact fun h => Or.inr ⟨value, st, rfl, h⟩
      · rintro (rfl | ⟨value', middle, hrun, h⟩)
        · exact Passes.refl device _ _
        · cases hrun
          exact h
  | fail error =>
      constructor
      · exact Or.inl
      · rintro (h | ⟨value, middle, hrun, -⟩)
        · exact h
        · cases hrun
  | ask op rest ih =>
      constructor
      · rintro (rfl | h)
        · exact Or.inl (Or.inl rfl)
        · rcases (ih (device op st).1).mp h with hfirst | hsecond
          · exact Or.inl (Or.inr hfirst)
          · exact Or.inr hsecond
      · rintro ((rfl | h) | h)
        · exact Or.inl rfl
        · exact Or.inr ((ih (device op st).1).mpr (Or.inl h))
        · exact Or.inr ((ih (device op st).1).mpr (Or.inr h))

/-! ## Runs and stops together -/

/-- What a program does from a state: its result, the state that it ends in, and the states
that it passes. -/
structure Does (program : Program Op Answer ε α) (st : σ) (result : Except ε α) (st' : σ)
    (stops : σ → Prop) : Prop where
  run : program.run device st = (result, st')
  passes : ∀ stop, program.Passes device st stop ↔ stops stop

namespace Does

variable {device} {self : Program Op Answer ε α} {next : α → Program Op Answer ε β}
  {st middle st' : σ} {value : α} {error : ε} {result : Except ε β} {stops stops' : σ → Prop}

theorem pure (value : α) (st : σ) :
    Does device (Pure.pure value : Program Op Answer ε α) st (.ok value) st (· = st) :=
  ⟨rfl, fun _ => Iff.rfl⟩

theorem ofExcept (result : Except ε α) (st : σ) :
    Does device (Program.ofExcept result : Program Op Answer ε α) st result st (· = st) := by
  cases result <;> exact ⟨rfl, fun _ => Iff.rfl⟩

theorem perform (op : Op) (st : σ) :
    Does device (Program.perform op : Program Op Answer ε (Answer op)) st
      (.ok (device op st).1) (device op st).2 (fun stop => stop = st ∨ stop = (device op st).2) :=
  ⟨rfl, fun _ => Iff.rfl⟩

theorem bind (h : Does device self st (.ok value) middle stops)
    (hnext : Does device (next value) middle result st' stops') :
    Does device (self >>= next) st result st' (fun stop => stops stop ∨ stops' stop) := by
  refine ⟨by rw [run_bind_of_ok device h.run, hnext.run], fun stop => ?_⟩
  rw [passes_bind, h.passes, h.run]
  refine or_congr Iff.rfl ⟨?_, fun hstop => ⟨value, middle, rfl, (hnext.passes stop).mpr hstop⟩⟩
  rintro ⟨value', middle', heq, hstop⟩
  cases heq
  exact (hnext.passes stop).mp hstop

/-- A first part that leaves the state adds no stop. -/
theorem read (h : Does device self st (.ok value) st (· = st))
    (hnext : Does device (next value) st result st' stops') :
    Does device (self >>= next) st result st' stops' := by
  refine ⟨(h.bind hnext).run, fun stop => ?_⟩
  rw [(h.bind hnext).passes]
  refine or_iff_right_of_imp ?_
  rintro rfl
  exact (hnext.passes stop).mp (Passes.refl device _ stop)

theorem congr (h : Does device self st (.ok value) st' stops)
    (hstops : ∀ stop, stops stop ↔ stops' stop) :
    Does device self st (.ok value) st' stops' :=
  ⟨h.run, fun stop => (h.passes stop).trans (hstops stop)⟩

end Does

end Program

end Locality.Foundation
