/-
  Notion/ApplyRefinement.lean --- a plan in batches refines the plan without batches.

  The run without batches puts each append behind the last block that was put at its
  anchor.  A run in batches passes through its states: where it succeeds, it leaves the
  same blocks and the same effects, and where it fails, that one fails as well and has
  passed the same blocks on the way.
-/
import Locality.Notion.ApplyBatches

set_option autoImplicit false

namespace Locality.Notion

open Locality.Core Locality.Foundation

variable {β : Type}

namespace ApplyContext

variable (self : ApplyContext β) {st st' : ApplyState β}

/-! ## Runs without batches -/

/-- No block has the id of one that is created from an index on. -/
def Unused (operationIndex : Nat) (st : ApplyState β) : Prop :=
  ∀ placed ∈ st.blocks, ∀ later, operationIndex ≤ later → placed.id ≠ self.createdId later

variable {self}

theorem Unused.advance (hinjective : Function.Injective self.createdId) {operationIndex : Nat}
    (h : self.Unused operationIndex st)
    (hadvances : Advances (self.createdId operationIndex) operationIndex st st') :
    self.Unused (operationIndex + 1) st' := by
  intro placed hplaced later hlater
  rcases hadvances.blocks placed hplaced with ⟨other, hother, hid⟩ | hid
  · rw [hid]
    exact h other hother later (Nat.le_of_succ_le hlater)
  · rw [hid]
    exact fun heq => Nat.ne_of_lt hlater (hinjective heq)

variable (self)

/-- An operation of a run without batches. -/
def applyAlone (operationIndex : Nat) (operation : PushOperation) (st : ApplyState β) :
    ApplyResult β :=
  match operation with
  | .appendBlock parentId after content =>
      self.appendAlone operationIndex parentId after content st
  | operation => self.applyBlockOperation operationIndex operation st

theorem applyOneByOne_cons (operationIndex : Nat) (operation : PushOperation)
    (operations : List PushOperation) (st : ApplyState β) :
    self.applyOneByOne operationIndex (operation :: operations) st =
      (self.applyAlone operationIndex operation st).bind
        (self.applyOneByOne (operationIndex + 1) operations) := by
  cases operation <;> rfl

theorem applyAlone_advances {operationIndex : Nat} {operation : PushOperation}
    (h : self.applyAlone operationIndex operation st = .ok st') :
    Advances (self.createdId operationIndex) operationIndex st st' := by
  cases operation with
  | appendBlock parentId after content => exact (self.appendAlone_advances h).1
  | _ =>
      dsimp only [applyAlone] at h
      exact self.applyBlockOperation_advances h

theorem applyOneByOne_append (operations operations' : List PushOperation) :
    ∀ (operationIndex : Nat) (st : ApplyState β),
      self.applyOneByOne operationIndex (operations ++ operations') st =
        (self.applyOneByOne operationIndex operations st).bind
          (self.applyOneByOne (operationIndex + operations.length) operations') := by
  induction operations with
  | nil => exact fun _ _ => rfl
  | cons operation operations ih =>
      intro operationIndex st
      rw [List.cons_append, applyOneByOne_cons, applyOneByOne_cons]
      cases self.applyAlone operationIndex operation st with
      | error failed => rfl
      | ok st =>
          dsimp only [Except.bind]
          rw [ih (operationIndex + 1) st, List.length_cons,
            show operationIndex + 1 + operations.length = operationIndex + (operations.length + 1) by
              omega]
          rfl

variable {self}

theorem Unused.run (hinjective : Function.Injective self.createdId)
    (operations : List PushOperation) :
    ∀ (operationIndex : Nat) (st st' : ApplyState β), self.Unused operationIndex st →
      self.applyOneByOne operationIndex operations st = .ok st' →
        self.Unused (operationIndex + operations.length) st' := by
  induction operations with
  | nil =>
      intro operationIndex st st' h hrun
      cases hrun
      exact h
  | cons operation operations ih =>
      intro operationIndex st st' h hrun
      rw [applyOneByOne_cons] at hrun
      cases hstep : self.applyAlone operationIndex operation st with
      | error failed =>
          rw [hstep] at hrun
          cases hrun
      | ok first =>
          rw [hstep] at hrun
          have hlater := ih (operationIndex + 1) first st'
            (h.advance hinjective (self.applyAlone_advances hstep)) hrun
          rw [List.length_cons, show operationIndex + (operations.length + 1) =
            operationIndex + 1 + operations.length by omega]
          exact hlater

variable (self)

/-- What a run adds to the effects is of the operations from its index on. -/
theorem effects_of_applyOneByOne (operations : List PushOperation) :
    ∀ (operationIndex : Nat) (st st' : ApplyState β),
      self.applyOneByOne operationIndex operations st = .ok st' →
        ∃ added, st'.effects = st.effects ++ added ∧
          ∀ effect ∈ added, operationIndex ≤ effectIndex effect := by
  induction operations with
  | nil =>
      intro operationIndex st st' hrun
      cases hrun
      exact ⟨[], (List.append_nil _).symm, fun effect h => absurd h List.not_mem_nil⟩
  | cons operation operations ih =>
      intro operationIndex st st' hrun
      rw [applyOneByOne_cons] at hrun
      cases hstep : self.applyAlone operationIndex operation st with
      | error failed =>
          rw [hstep] at hrun
          cases hrun
      | ok first =>
          rw [hstep] at hrun
          obtain ⟨added, hadded, hindex⟩ := (self.applyAlone_advances hstep).effects
          obtain ⟨later, hlater, hlaterIndex⟩ := ih (operationIndex + 1) first st' hrun
          refine ⟨added ++ later, by rw [hlater, hadded, List.append_assoc], ?_⟩
          intro effect heffect
          rcases List.mem_append.mp heffect with hmem | hmem
          · exact Nat.le_of_eq (hindex effect hmem).symm
          · exact Nat.le_of_succ_le (hlaterIndex effect hmem)

/-- Each append of a run has one effect, which creates its block. -/
theorem created_of_applyOneByOne (operations : List PushOperation) :
    ∀ (operationIndex : Nat) (st st' : ApplyState β),
      self.applyOneByOne operationIndex operations st = .ok st' →
        (∀ effect ∈ st.effects, effectIndex effect < operationIndex) →
          ∀ k parentId after content,
            operations[k]? = some (.appendBlock parentId after content) →
              st'.effects.filter (fun effect => effectIndex effect = operationIndex + k) =
                [self.createdEffect parentId (operationIndex + k)] := by
  induction operations with
  | nil => exact fun _ _ _ _ _ k _ _ _ hk => nomatch hk
  | cons operation operations ih =>
      intro operationIndex st st' hrun hbefore k parentId after content hk
      rw [applyOneByOne_cons] at hrun
      cases hstep : self.applyAlone operationIndex operation st with
      | error failed =>
          rw [hstep] at hrun
          cases hrun
      | ok first =>
          rw [hstep] at hrun
          cases k with
          | zero =>
              rw [List.getElem?_cons_zero] at hk
              cases hk
              obtain ⟨later, hlater, hindex⟩ :=
                self.effects_of_applyOneByOne operations (operationIndex + 1) first st' hrun
              rw [hlater, (self.appendAlone_advances hstep).2, List.filter_append,
                List.filter_append]
              have hnone : st.effects.filter
                  (fun effect => effectIndex effect = operationIndex + 0) = [] := by
                refine List.filter_eq_nil_iff.mpr fun effect heffect heq => ?_
                exact Nat.ne_of_lt (hbefore effect heffect) (of_decide_eq_true heq)
              have hnoneLater : later.filter
                  (fun effect => effectIndex effect = operationIndex + 0) = [] := by
                refine List.filter_eq_nil_iff.mpr fun effect heffect heq => ?_
                exact Nat.ne_of_gt (hindex effect heffect) (of_decide_eq_true heq)
              rw [hnone, hnoneLater, List.append_nil, List.nil_append]
              exact List.filter_eq_self.mpr
                (List.forall_mem_singleton.mpr (decide_eq_true rfl))
          | succ k =>
              rw [List.getElem?_cons_succ] at hk
              obtain ⟨added, hadded, hindex⟩ := (self.applyAlone_advances hstep).effects
              have hfirst : ∀ effect ∈ first.effects, effectIndex effect < operationIndex + 1 := by
                intro effect heffect
                rw [hadded] at heffect
                rcases List.mem_append.mp heffect with hmem | hmem
                · exact Nat.lt_succ_of_lt (hbefore effect hmem)
                · exact Nat.lt_succ_of_le (Nat.le_of_eq (hindex effect hmem))
              rw [show operationIndex + (k + 1) = operationIndex + 1 + k by omega]
              exact ih (operationIndex + 1) first st' hrun hfirst k parentId after content hk

/-! ## One request for a batch, and one for each child -/

/-- A request for each child, all behind one anchor. -/
def appendEach (parentId : RemoteId) (after : Option RemoteId) :
    List (Nat × Text) → ApplyState β → ApplyResult β
  | [], st => .ok st
  | child :: children, st =>
      (self.appendChildren parentId after [child] st).bind (appendEach parentId after children)

theorem appendEach_singleton (parentId : RemoteId) (after : Option RemoteId)
    (child : Nat × Text) (st : ApplyState β) :
    self.appendEach parentId after [child] st = self.appendChildren parentId after [child] st := by
  rw [appendEach]
  cases self.appendChildren parentId after [child] st <;> rfl

end ApplyContext

theorem SameOutcome.refl (result : ApplyResult β) : SameOutcome result result := by
  cases result with
  | error failed => trivial
  | ok st => exact Agrees.refl st

theorem SameResult.outcome {result result' : ApplyResult β} (h : SameResult result result') :
    SameOutcome result result' := by
  cases result with
  | error failed =>
      cases result' with
      | error failed' => trivial
      | ok st' => exact h.elim
  | ok st =>
      cases result' with
      | error failed' => exact h.elim
      | ok st' => exact h

theorem SameOutcome.trans {result result' result'' : ApplyResult β}
    (h : SameOutcome result result') (h' : SameOutcome result' result'') :
    SameOutcome result result'' := by
  cases result with
  | error failed =>
      cases result' with
      | error failed' => cases result'' with
        | error failed'' => trivial
        | ok st'' => exact h'.elim
      | ok st' => exact h.elim
  | ok st =>
      cases result' with
      | error failed' => exact h.elim
      | ok st' => cases result'' with
        | error failed'' => exact h'.elim
        | ok st'' => exact Agrees.trans h h'

theorem SameOutcome.bind_congr {result : ApplyResult β} {f g : ApplyState β → ApplyResult β}
    (h : ∀ st, result = .ok st → SameOutcome (f st) (g st)) :
    SameOutcome (result.bind f) (result.bind g) := by
  cases result with
  | error failed => trivial
  | ok st => exact h st rfl

namespace ApplyContext

variable (self : ApplyContext β) {st st' : ApplyState β}

/-- The children of a batch are those of consecutive operations. -/
def Numbered (operationIndex : Nat) (children : List (Nat × Text)) : Prop :=
  children.map Prod.fst = List.range' operationIndex children.length

theorem moves_of_appendChildren {parentId : RemoteId} {after : Option RemoteId}
    {children : List (Nat × Text)}
    (hunpreserved : self.Unpreserved parentId st.preservedAppendArchiveMoves children)
    (h : self.appendChildren parentId after children st = .ok st') :
    st'.preservedAppendArchiveMoves = st.preservedAppendArchiveMoves := by
  rw [self.appendChildren_of_unpreserved hunpreserved] at h
  split at h
  · cases h
  · exact self.moves_of_requestChildren h

/-- A request for a batch does what a request for each of its children does. -/
theorem appendChildren_each (hinjective : Function.Injective self.createdId)
    {parentId : RemoteId} {after : Option RemoteId} (children : List (Nat × Text)) :
    ∀ (child : Nat × Text) (operationIndex : Nat) (st : ApplyState β),
      Numbered operationIndex (child :: children) → self.Unused operationIndex st →
        self.Unpreserved parentId st.preservedAppendArchiveMoves (child :: children) →
          SameOutcome (self.appendChildren parentId after (child :: children) st)
            (self.appendEach parentId after (child :: children) st) := by
  induction children with
  | nil =>
      intro child operationIndex st _ _ _
      rw [appendEach_singleton]
      exact SameOutcome.refl _
  | cons next children ih =>
      intro child operationIndex st hnumbered hunused hunpreserved
      obtain ⟨hindex, hnumbered⟩ := List.cons.inj hnumbered
      obtain ⟨hchild, hchildren⟩ := List.forall_mem_cons.mp hunpreserved
      have hnew : ∀ placed ∈ st.blocks, placed.id ≠ self.createdId child.1 := by
        intro placed hplaced
        rw [hindex]
        exact hunused placed hplaced operationIndex (Nat.le_refl _)
      refine (self.appendChildren_cons hunpreserved hnew).trans ?_
      refine SameOutcome.bind_congr fun first hfirst => ?_
      have halone : self.Unpreserved parentId st.preservedAppendArchiveMoves [child] :=
        List.forall_mem_singleton.mpr hchild
      have hadvances : Advances (self.createdId operationIndex) operationIndex st first := by
        rw [← hindex]
        exact (self.appendChildren_advances hfirst).1
      refine ih next (operationIndex + 1) first hnumbered
        (hunused.advance hinjective hadvances) ?_
      rw [self.moves_of_appendChildren halone hfirst]
      exact hchildren

/-! ## What is collected -/

/-- The children that go into one request are the next operations, in order. -/
structure Collected (context : ApplyContext β) (parentId : RemoteId) (after : Option RemoteId) (used : List RemoteId)
    (collected operationIndex : Nat) (operations : List PushOperation)
    (children : List (Nat × Text)) : Prop where
  numbered : Numbered operationIndex children
  length_le : children.length ≤ operations.length
  each : ∀ st : ApplyState β,
    context.applyOneByOne operationIndex (operations.take children.length) st =
      context.appendEach parentId after children st
  unpreserved : context.Unpreserved parentId used children ∨
    (collected = 0 ∧ children.length = 1)

theorem collected_nil (parentId : RemoteId) (after : Option RemoteId) (used : List RemoteId)
    (collected operationIndex : Nat) (operations : List PushOperation) :
    self.Collected parentId after used collected operationIndex operations [] :=
  ⟨rfl, Nat.zero_le _, fun st => by rw [List.length_nil, List.take_zero]; rfl,
    Or.inl fun child h => absurd h List.not_mem_nil⟩

theorem collected_cons {parentId candidateParentId : RemoteId}
    {after candidateAfter : Option RemoteId} {used : List RemoteId}
    {collected operationIndex : Nat} {operations : List PushOperation} {content : Text}
    {children : List (Nat × Text)} (hparent : candidateParentId = parentId)
    (hafter : normalizeAfter self.entries parentId candidateAfter = after)
    (hpreserved : self.preserved parentId content used = some none)
    (h : self.Collected parentId after used (collected + 1) (operationIndex + 1) operations
      children) :
    self.Collected parentId after used collected operationIndex
      (.appendBlock candidateParentId candidateAfter content :: operations)
      ((operationIndex, content) :: children) := by
  subst hparent
  subst hafter
  refine ⟨?_, Nat.succ_le_succ h.length_le, fun st => ?_, Or.inl ?_⟩
  · exact congrArg (operationIndex :: ·) h.numbered
  · rw [List.length_cons, List.take_succ_cons, appendEach, appendChildren_singleton,
      applyOneByOne_cons]
    congr 1
    funext first
    exact h.each first
  · rcases h.unpreserved with hrest | ⟨hzero, -⟩
    · exact List.forall_mem_cons.mpr ⟨hpreserved, hrest⟩
    · exact absurd hzero (Nat.succ_ne_zero collected)

theorem collected_alone {candidateParentId parentId : RemoteId}
    {after candidateAfter : Option RemoteId} {used : List RemoteId} {operationIndex : Nat}
    {operations : List PushOperation} {content : Text} (hparent : candidateParentId = parentId)
    (hafter : normalizeAfter self.entries parentId candidateAfter = after) :
    self.Collected parentId after used 0 operationIndex
      (.appendBlock candidateParentId candidateAfter content :: operations)
      [(operationIndex, content)] := by
  subst hparent
  subst hafter
  refine ⟨rfl, Nat.succ_le_succ (Nat.zero_le _), fun st => ?_, Or.inr ⟨rfl, rfl⟩⟩
  rw [List.length_singleton, List.take_succ_cons, List.take_zero, appendEach,
    appendChildren_singleton, applyOneByOne_cons]
  rfl

theorem preserved_of_compatible {parentId : RemoteId} {content : Text} {used : List RemoteId}
    (h : self.batchIncompatible parentId content used = some false) :
    self.preserved parentId content used = some none := by
  unfold batchIncompatible at h
  split at h
  · cases h
  · obtain ⟨found, hfound, hnone⟩ := Option.map_eq_some_iff.mp h
    rw [hfound, Option.isNone_iff_eq_none.mp (Option.isSome_eq_false_iff.mp hnone)]

theorem preserved_of_batchIncompatible {parentId : RemoteId} {content : Text}
    {used : List RemoteId} (h : self.batchIncompatible parentId content used = none) :
    self.preserved parentId content used = none := by
  unfold batchIncompatible at h
  split at h
  · cases h
  · exact Option.map_eq_none_iff.mp h

theorem collectAppendChildrenStep_collected {parentId : RemoteId} {after : Option RemoteId}
    {used : List RemoteId} (operations : List PushOperation) :
    ∀ {collected operationIndex : Nat} {children : List (Nat × Text)},
      self.collectAppendChildrenStep parentId after used collected operationIndex operations =
        some children →
          self.Collected parentId after used collected operationIndex operations children := by
  induction operations with
  | nil =>
      intro collected operationIndex children h
      cases h
      exact self.collected_nil _ _ _ _ _ _
  | cons operation operations ih =>
      intro collected operationIndex children h
      cases operation with
      | appendBlock candidateParentId candidateAfter content =>
          rw [collectAppendChildrenStep] at h
          split at h
          · cases h
            exact self.collected_nil _ _ _ _ _ _
          split at h
          · cases h
            exact self.collected_nil _ _ _ _ _ _
          rename_i hparent
          split at h
          · cases h
            exact self.collected_nil _ _ _ _ _ _
          rename_i hafter
          rw [not_not] at hparent hafter
          obtain ⟨incompatible, hincompatible, hcollected⟩ := Option.bind_eq_some_iff.mp h
          split at hcollected
          · cases hcollected
            exact self.collected_nil _ _ _ _ _ _
          rename_i hsplit
          split at hcollected
          · rename_i halone
            rw [halone, Bool.true_and, decide_eq_true_eq, not_not] at hsplit
            subst hsplit
            cases hcollected
            exact self.collected_alone hparent hafter
          · rename_i hcompatible
            obtain ⟨rest, hrest, hcons⟩ := Option.bind_eq_some_iff.mp hcollected
            cases hcons
            refine self.collected_cons hparent hafter ?_ (ih hrest)
            rw [Bool.not_eq_true] at hcompatible
            rw [hcompatible] at hincompatible
            exact self.preserved_of_compatible hincompatible
      | _ =>
          rw [collectAppendChildrenStep, ite_self] at h
          · cases h
            exact self.collected_nil _ _ _ _ _ _
          · nofun

/-! ## Runs in batches -/

end ApplyContext

/-- What a run in batches leaves, next to the run of the same operations without batches:
they end alike, or the run in batches stops where the other one passes before it fails. -/
def Refines (alone : List PushOperation → ApplyResult β) (operations : List PushOperation) :
    ApplyResult β → Prop
  | .ok st => ∃ st', alone operations = .ok st' ∧ Agrees st st'
  | .error st => ∃ failed, alone operations = .error failed ∧
      (Agrees st failed ∨ ∃ n st', alone (operations.take n) = .ok st' ∧ Agrees st st')

namespace ApplyContext

variable (self : ApplyContext β) {st st' : ApplyState β}

/-- A run goes on after its first operations as it does from the state they leave. -/
theorem refines_append {operationIndex : Nat} {first rest : List PushOperation}
    {middle : ApplyState β} {result : ApplyResult β}
    (hfirst : self.applyOneByOne operationIndex first st' = .ok middle)
    (h : Refines (fun operations =>
      self.applyOneByOne (operationIndex + first.length) operations middle) rest result) :
    Refines (fun operations => self.applyOneByOne operationIndex operations st')
      (first ++ rest) result := by
  have hrun : ∀ rest', self.applyOneByOne operationIndex (first ++ rest') st' =
      self.applyOneByOne (operationIndex + first.length) rest' middle := by
    intro rest'
    rw [applyOneByOne_append, hfirst]
    rfl
  cases result with
  | ok st =>
      obtain ⟨st₁, hst₁, hagrees⟩ := h
      exact ⟨st₁, (hrun rest).trans hst₁, hagrees⟩
  | error st =>
      obtain ⟨failed, hfailed, hpassed⟩ := h
      refine ⟨failed, (hrun rest).trans hfailed, hpassed.imp_right ?_⟩
      rintro ⟨n, st₁, hst₁, hagrees⟩
      refine ⟨first.length + n, st₁, ?_, hagrees⟩
      dsimp only
      rw [List.take_length_add_append, hrun]
      exact hst₁

/-- One step of a run in batches, next to the operations that it is for. -/
theorem refines_step {operationIndex : Nat} {first rest : List PushOperation}
    {step : ApplyResult β} {resume : ApplyState β → ApplyResult β}
    (hstep : SameOutcome step (self.applyOneByOne operationIndex first st'))
    (hfailed : ∀ failed failed', step = .error failed →
      self.applyOneByOne operationIndex first st' = .error failed' →
        Agrees failed failed' ∨ Agrees failed st')
    (hresume : ∀ next middle, step = .ok next →
      self.applyOneByOne operationIndex first st' = .ok middle → Agrees next middle →
        Refines (fun operations =>
          self.applyOneByOne (operationIndex + first.length) operations middle) rest
            (resume next)) :
    Refines (fun operations => self.applyOneByOne operationIndex operations st')
      (first ++ rest) (step.bind resume) := by
  cases step with
  | error failed =>
      cases halone : self.applyOneByOne operationIndex first st' with
      | ok middle =>
          rw [halone] at hstep
          exact hstep.elim
      | error failed' =>
          refine ⟨failed', ?_, (hfailed failed failed' rfl halone).imp_right fun h => ⟨0, st', rfl, h⟩⟩
          dsimp only
          rw [applyOneByOne_append, halone]
          rfl
  | ok next =>
      cases halone : self.applyOneByOne operationIndex first st' with
      | error failed =>
          rw [halone] at hstep
          exact hstep.elim
      | ok middle =>
          rw [halone] at hstep
          exact self.refines_append halone (hresume next middle rfl halone hstep)

/-- An append is collected, unless nothing can be. -/
theorem collectAppendChildrenStep_ne_nil {operationIndex : Nat} {parentId : RemoteId}
    {after : Option RemoteId} {content : Text} {rest : List PushOperation}
    {used : List RemoteId} :
    self.collectAppendChildrenStep parentId (normalizeAfter self.entries parentId after) used 0
      operationIndex (.appendBlock parentId after content :: rest) ≠ some [] := by
  intro h
  rw [collectAppendChildrenStep, if_neg (by decide), if_neg (fun hne => hne rfl),
    if_neg (fun hne => hne rfl)] at h
  obtain ⟨incompatible, -, hcollected⟩ := Option.bind_eq_some_iff.mp h
  rw [decide_eq_false (fun hne : (0 : Nat) ≠ 0 => hne rfl), Bool.and_false,
    if_neg Bool.false_ne_true] at hcollected
  split at hcollected
  · cases hcollected
  · obtain ⟨others, -, hcons⟩ := Option.bind_eq_some_iff.mp hcollected
    cases hcons

/-- Where the collecting fails, it is at an append that fails without batches, too. -/
theorem error_of_collectAppendChildrenStep {parentId : RemoteId} {after : Option RemoteId}
    (operations : List PushOperation) :
    ∀ (collected operationIndex : Nat) (st : ApplyState β),
      self.collectAppendChildrenStep parentId after st.preservedAppendArchiveMoves collected
        operationIndex operations = none →
          ∃ failed, self.applyOneByOne operationIndex operations st = .error failed := by
  induction operations with
  | nil => exact fun _ _ _ h => nomatch h
  | cons operation operations ih =>
      intro collected operationIndex st h
      cases operation with
      | appendBlock candidateParentId candidateAfter content =>
          rw [collectAppendChildrenStep] at h
          split at h
          · cases h
          split at h
          · cases h
          rename_i hparent
          split at h
          · cases h
          rw [not_not] at hparent
          subst hparent
          rw [applyOneByOne_cons]
          cases halone : self.applyAlone operationIndex
              (.appendBlock candidateParentId candidateAfter content) st with
          | error failed => exact ⟨failed, rfl⟩
          | ok first =>
              have halone : self.appendAlone operationIndex candidateParentId candidateAfter
                  content st = .ok first := halone
              cases hincompatible : self.batchIncompatible candidateParentId content
                  st.preservedAppendArchiveMoves with
              | none =>
                  unfold appendAlone at halone
                  rw [self.preserved_of_batchIncompatible hincompatible] at halone
                  cases halone
              | some incompatible =>
                  rw [hincompatible, Option.bind_eq_bind, Option.bind_some] at h
                  split at h
                  · cases h
                  split at h
                  · cases h
                  rename_i hcompatible
                  rw [Bool.not_eq_true] at hcompatible
                  rw [hcompatible] at hincompatible
                  have hpreserved := self.preserved_of_compatible hincompatible
                  rw [← appendChildren_singleton] at halone
                  have hmoves := self.moves_of_appendChildren
                    (List.forall_mem_singleton.mpr hpreserved) halone
                  rw [← hmoves] at h
                  cases hrest : self.collectAppendChildrenStep candidateParentId after
                      first.preservedAppendArchiveMoves (collected + 1) (operationIndex + 1)
                      operations with
                  | none => exact ih (collected + 1) (operationIndex + 1) first hrest
                  | some rest =>
                      rw [hrest] at h
                      cases h
      | _ =>
          rw [collectAppendChildrenStep, ite_self] at h
          · cases h
          · nofun

/-- The request for what was collected does what its operations do without batches. -/
theorem appendChildren_of_collected (hinjective : Function.Injective self.createdId)
    {operationIndex : Nat} {parentId : RemoteId} {after : Option RemoteId}
    {operations : List PushOperation} {child : Nat × Text} {children : List (Nat × Text)}
    (h : Agrees st st') (hunused : self.Unused operationIndex st')
    (hcollected : Collected self parentId after st.preservedAppendArchiveMoves 0 operationIndex
      operations (child :: children)) :
    SameOutcome (self.appendChildren parentId after (child :: children) st)
      (self.applyOneByOne operationIndex (operations.take (child :: children).length) st') := by
  have heach : SameOutcome (self.appendChildren parentId after (child :: children) st)
      (self.appendEach parentId after (child :: children) st) := by
    rcases hcollected.unpreserved with hunpreserved | ⟨-, hlength⟩
    · refine self.appendChildren_each hinjective children child operationIndex st
        hcollected.numbered ?_ hunpreserved
      intro placed hplaced
      rw [h.blocks] at hplaced
      exact hunused placed hplaced
    · obtain rfl := List.length_eq_zero_iff.mp (Nat.succ.inj hlength)
      rw [appendEach_singleton]
      exact SameOutcome.refl _
  rw [← hcollected.each st] at heach
  exact heach.trans (self.applyOneByOne_congr _ operationIndex st st' h).outcome

theorem applyBlockOperation_refines {operationIndex : Nat} {operation : PushOperation}
    (h : Agrees st st')
    (hoperation : ∀ st, self.applyAlone operationIndex operation st =
      self.applyBlockOperation operationIndex operation st) :
    SameResult (self.applyBlockOperation operationIndex operation st)
      (self.applyOneByOne operationIndex [operation] st') := by
  have hsame := self.applyBlockOperation_congr h operationIndex operation
  rw [applyOneByOne_cons, hoperation]
  cases hresult : self.applyBlockOperation operationIndex operation st' <;>
    rw [hresult] at hsame <;> exact hsame

theorem applySteps_refines (hinjective : Function.Injective self.createdId) :
    ∀ (n : Nat) (operations : List PushOperation), operations.length ≤ n →
      ∀ (operationIndex : Nat) (st st' : ApplyState β), Agrees st st' →
        self.Unused operationIndex st' →
          Refines (fun operations => self.applyOneByOne operationIndex operations st') operations
            (self.applySteps operationIndex operations st) := by
  intro n
  induction n with
  | zero =>
      intro operations hlength operationIndex st st' h _
      obtain rfl := List.length_eq_zero_iff.mp (Nat.le_zero.mp hlength)
      rw [applySteps]
      exact ⟨st', rfl, h⟩
  | succ n ih =>
      intro operations hlengthAll operationIndex st st' h hunused
      cases operations with
      | nil =>
          rw [applySteps]
          exact ⟨st', rfl, h⟩
      | cons operation rest =>
          -- an operation that is no append is its own step
          have halone : ∀ operation, (∀ st, self.applyAlone operationIndex operation st =
              self.applyBlockOperation operationIndex operation st) →
              Refines (fun operations => self.applyOneByOne operationIndex operations st')
                (operation :: rest) ((self.applyBlockOperation operationIndex operation st).bind
                  (self.applySteps (operationIndex + 1) rest)) := by
            intro operation hoperation
            have hsame := self.applyBlockOperation_refines h hoperation
            refine self.refines_step hsame.outcome ?_ ?_
            · intro failed failed' hfailed hfailed'
              rw [hfailed, hfailed'] at hsame
              exact Or.inl hsame
            · intro next middle _ hmiddle hagrees
              exact ih rest (Nat.le_of_succ_le_succ hlengthAll) _ next middle hagrees
                (hunused.run hinjective _ _ _ _ hmiddle)
          cases operation with
          | appendBlock parentId after content =>
              rw [applySteps.eq_def]
              dsimp only
              cases hcollect : self.collectAppendChildrenStep parentId
                  (normalizeAfter self.entries parentId after) st.preservedAppendArchiveMoves 0
                  operationIndex (.appendBlock parentId after content :: rest) with
              | none =>
                  rw [h.moves] at hcollect
                  obtain ⟨failed, hfailed⟩ :=
                    self.error_of_collectAppendChildrenStep _ 0 operationIndex st' hcollect
                  exact ⟨failed, hfailed, Or.inr ⟨0, st', rfl, h⟩⟩
              | some children =>
                  cases children with
                  | nil => exact absurd hcollect self.collectAppendChildrenStep_ne_nil
                  | cons child children =>
                      have hcollected := self.collectAppendChildrenStep_collected _ hcollect
                      have hlength := Nat.le_of_succ_le_succ hcollected.length_le
                      have htake := List.take_append_drop children.length rest
                      have hfirst : (rest.take children.length).length = children.length :=
                        List.length_take_of_le hlength
                      have hstep := self.appendChildren_of_collected hinjective h hunused hcollected
                      rw [List.length_cons, List.take_succ_cons] at hstep
                      have hrefines : Refines
                          (fun operations => self.applyOneByOne operationIndex operations st')
                          ((.appendBlock parentId after content :: rest.take children.length) ++
                            rest.drop children.length)
                          ((self.appendChildren parentId
                            (normalizeAfter self.entries parentId after) (child :: children)
                            st).bind (self.applySteps (operationIndex + (children.length + 1))
                              (rest.drop children.length))) := by
                        refine self.refines_step hstep ?_ ?_
                        · intro failed failed' hfailed _
                          rw [self.appendChildren_error hfailed]
                          exact Or.inr h
                        · intro next middle _ hmiddle hagrees
                          have hlater := hunused.run hinjective _ _ _ _ hmiddle
                          rw [List.length_cons, hfirst] at hlater ⊢
                          refine ih (rest.drop children.length) ?_ _ next middle hagrees hlater
                          rw [List.length_drop]
                          exact (Nat.sub_le _ _).trans (Nat.le_of_succ_le_succ hlengthAll)
                      rw [List.cons_append, htake] at hrefines
                      exact hrefines
          | _ =>
              rw [applySteps]
              · exact halone _ fun _ => rfl
              · rintro _ _ _ ⟨⟩

end ApplyContext

/-! ## Plans -/

section Plan

variable (formats : BlockFormats β) (createdId : Nat → RemoteId)
  (entityCall : Nat → PushOperation → Option RemoteId)

/-- The service gives each block that is created an id that no other block has. -/
structure NewBlockIds (bundles : List (PageBundle β)) : Prop where
  injective : Function.Injective createdId
  unused : ∀ entry ∈ bundleEntries bundles, ∀ operationIndex, entry.id ≠ createdId operationIndex

variable {createdId}

/-- `apply_plan` with its batches leaves the blocks that requests for one block leave, and
each append of the plan has one effect, which creates its block. -/
theorem applyPlan_refines_applyPlanOneByOne (operationIds : Nat → PushOperationId)
    {bundles : List (PageBundle β)} (hnew : NewBlockIds createdId bundles)
    (operations : List PushOperation) :
    (match applyPlan formats createdId entityCall operationIds bundles operations with
      | .ok st => ∃ st',
          applyPlanOneByOne formats createdId entityCall operationIds bundles operations =
            .ok st' ∧ st.blocks = st'.blocks ∧ st.effects = st'.effects ∧
          ∀ operationIndex parentId after content,
            operations[operationIndex]? = some (.appendBlock parentId after content) →
              st.effects.filter (fun effect => effectIndex effect = operationIndex) =
                [.createdBlock (operationIds operationIndex) operationIndex parentId
                  (createdId operationIndex)]
      | .error st => ∃ failed,
          applyPlanOneByOne formats createdId entityCall operationIds bundles operations =
            .error failed ∧
          ((st.blocks = failed.blocks ∧ st.effects = failed.effects) ∨
            ∃ n st', (contextOf formats createdId entityCall operationIds bundles
                operations).applyOneByOne 0 (operations.take n) (fetchedState bundles) = .ok st' ∧
              st.blocks = st'.blocks ∧ st.effects = st'.effects)) := by
  have hunused : (contextOf formats createdId entityCall operationIds bundles operations).Unused 0
      (fetchedState bundles) := by
    intro placed hplaced later _
    obtain ⟨entry, hentry, rfl⟩ := List.mem_map.mp hplaced
    exact hnew.unused entry hentry later
  have hrefines := (contextOf formats createdId entityCall operationIds bundles
    operations).applySteps_refines hnew.injective operations.length operations (Nat.le_refl _) 0
      (fetchedState bundles) (fetchedState bundles) (Agrees.refl _) hunused
  change Refines _ _ (applyPlan formats createdId entityCall operationIds bundles operations)
    at hrefines
  cases hrun : applyPlan formats createdId entityCall operationIds bundles operations with
  | ok st =>
      rw [hrun] at hrefines
      obtain ⟨st', hst', hagrees⟩ := hrefines
      refine ⟨st', hst', hagrees.blocks, hagrees.effects, ?_⟩
      intro operationIndex parentId after content hoperation
      have hcreated := ApplyContext.created_of_applyOneByOne _ operations 0 _ st' hst'
        (fun effect heffect => absurd heffect List.not_mem_nil) operationIndex parentId after
        content hoperation
      rw [Nat.zero_add] at hcreated
      rw [hagrees.effects]
      exact hcreated
  | error st =>
      rw [hrun] at hrefines
      obtain ⟨failed, hfailed, hpassed⟩ := hrefines
      refine ⟨failed, hfailed, hpassed.imp (fun h => ⟨h.blocks, h.effects⟩) ?_⟩
      rintro ⟨n, st', hst', hagrees⟩
      exact ⟨n, st', hst', hagrees.blocks, hagrees.effects⟩

end Plan

/-! ## A page with two blocks -/

/-- Blocks are their contents, and a content in exclamation marks is media. -/
def sampleFormats : BlockFormats Text where
  isLocalMedia := fun content => content.head? == some '!'
  parseAppendBlock := fun _ content => some content
  parseReplacement := some
  updated := fun _ content => some content
  uploaded := fun _ _ caption => some caption
  existingBlockAppendChild := some
  renderedReadOnlyBlockMarkdown := fun block => some (some block)
  renderedBodiesEquivalent := fun rendered content => rendered == content

def sampleCreatedId (operationIndex : Nat) : RemoteId :=
  ⟨'+' :: List.replicate operationIndex 'i'⟩

def sampleBundles : List (PageBundle Text) :=
  [⟨⟨"page".toList⟩, [.node ⟨"first".toList⟩ "one".toList [],
    .node ⟨"second".toList⟩ "two".toList []]⟩]

/-- Three appends in front of the blocks: two of them go together, the media goes alone. -/
def samplePlan : List PushOperation :=
  [.appendBlock ⟨"page".toList⟩ none "a".toList, .appendBlock ⟨"page".toList⟩ none "b".toList,
    .appendBlock ⟨"page".toList⟩ none "!".toList, .archiveBlock ⟨"first".toList⟩]

theorem newBlockIds_sampleBundles : NewBlockIds sampleCreatedId sampleBundles where
  injective := by
    intro i j h
    have hlength := congrArg (fun id : RemoteId => id.value.length) h
    simpa [sampleCreatedId] using hlength
  unused := by
    intro entry hentry operationIndex heq
    have hhead := congrArg (fun id : RemoteId => id.value.head?) heq
    have hentries : ∀ entry ∈ bundleEntries sampleBundles, entry.id.value.head? ≠ some '+' := by
      decide
    exact hentries entry hentry hhead

def sampleOperationIds (operationIndex : Nat) : PushOperationId :=
  ⟨(toString operationIndex).toList⟩

theorem applyPlan_refines_samplePlan :
    NewBlockIds sampleCreatedId sampleBundles ∧
      (match applyPlan sampleFormats sampleCreatedId (fun _ _ => none) sampleOperationIds
          sampleBundles samplePlan with
        | .ok st => st.blocks.map PlacedBlock.block =
            ["a".toList, "b".toList, "!".toList, "two".toList]
        | .error _ => False) := by
  have hrefines := applyPlan_refines_applyPlanOneByOne sampleFormats (fun _ _ => none)
    sampleOperationIds newBlockIds_sampleBundles samplePlan
  have halone : (applyPlanOneByOne sampleFormats sampleCreatedId (fun _ _ => none)
      sampleOperationIds sampleBundles samplePlan).toOption.map
        (fun st => st.blocks.map PlacedBlock.block) =
      some ["a".toList, "b".toList, "!".toList, "two".toList] := by
    decide +kernel
  refine ⟨newBlockIds_sampleBundles, ?_⟩
  split at hrefines
  · rename_i st hst
    obtain ⟨st', hst', hblocks, -⟩ := hrefines
    rw [hst]
    rw [hst'] at halone
    dsimp only
    rw [hblocks]
    exact Option.some.inj halone
  · obtain ⟨failed, hfailed, -⟩ := hrefines
    rw [hfailed] at halone
    cases halone

end Locality.Notion
