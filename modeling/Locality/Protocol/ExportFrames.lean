/-
  Protocol/ExportFrames.lean --- what is appended to the preimages of exports are frames
  that show where they end: texts, lists of texts, and sets of actions.

  A set of actions is written as its labels in order.  Labels tell actions apart, so the
  list of labels tells sets apart.
-/
import Locality.Protocol.DeliveryPreimage
import Locality.Protocol.ScopeOffer
import Mathlib.Data.Finset.Dedup

set_option autoImplicit false

namespace Locality.Protocol

open Locality.Core Locality.Foundation

/-! ## Labels -/

theorem sourceActionWireLabel_injective (a b : SourceAction)
    (h : sourceActionWireLabel a = sourceActionWireLabel b) : a = b := by
  cases a <;> cases b <;> first | rfl | exact absurd h (by decide)

theorem projectionFileKindWireLabel_injective (a b : ProjectionFileKind)
    (h : projectionFileKindWireLabel a = projectionFileKindWireLabel b) : a = b := by
  cases a <;> cases b <;> first | rfl | exact absurd h (by decide)

theorem SourceAction.mem_all (action : SourceAction) : action ∈ SourceAction.all := by
  cases action <;> decide

theorem SourceAction.nodup_all : SourceAction.all.Nodup := by decide

theorem mem_sortedActionLabels {actions : ActionSet} {action : SourceAction} :
    sourceActionWireLabel action ∈ sortedActionLabels actions ↔ action ∈ actions := by
  rw [sortedActionLabels, List.mem_insertionSort, List.mem_map]
  constructor
  · rintro ⟨action', hmem, hlabel⟩
    have hsame := sourceActionWireLabel_injective _ _ hlabel
    subst hsame
    exact of_decide_eq_true (List.mem_filter.mp hmem).2
  · intro hmem
    exact ⟨action, List.mem_filter.mpr ⟨action.mem_all, decide_eq_true hmem⟩, rfl⟩

theorem sortedActionLabels_injective (actions actions' : ActionSet)
    (h : sortedActionLabels actions = sortedActionLabels actions') : actions = actions' := by
  ext action
  rw [← mem_sortedActionLabels, h, mem_sortedActionLabels]

theorem length_sortedActionLabels (actions : ActionSet) :
    (sortedActionLabels actions).length = actions.card := by
  have hset : (SourceAction.all.filter (· ∈ actions)).toFinset = actions := by
    ext action
    rw [List.mem_toFinset, List.mem_filter]
    exact ⟨fun h => of_decide_eq_true h.2, fun h => ⟨action.mem_all, decide_eq_true h⟩⟩
  have hnodup := SourceAction.nodup_all.filter (· ∈ actions)
  rw [sortedActionLabels, List.length_insertionSort, List.length_map,
    ← List.toFinset_card_of_nodup hnodup, hset]

/-! ## Appending -/

variable {ε : Type} {tooLarge : ε} {output output' : List UInt8}

theorem appendCountOr_eq_ok {count : Nat} :
    appendCountOr tooLarge output count = .ok output' ↔
      count < 256 ^ 8 ∧ output' = output ++ toBeBytes 8 count := by
  rw [appendCountOr, ite_throw_eq_ok, Nat.not_le]
  exact and_congr_right fun _ =>
    ⟨fun h => (Except.ok.inj h).symm, fun h => congrArg Except.ok h.symm⟩

theorem appendTextOr_eq_ok {value : Text} :
    appendTextOr tooLarge output value = .ok output' ↔
      Fits value ∧ output' = output ++ frameText value := by
  rw [appendTextOr, bind_eq_ok]
  constructor
  · intro h
    obtain ⟨counted, hcount, hrest⟩ := h
    obtain ⟨hfits, rfl⟩ := appendCountOr_eq_ok.mp hcount
    cases hrest
    exact ⟨hfits, List.append_assoc _ _ _⟩
  · intro h
    obtain ⟨hfits, rfl⟩ := h
    refine ⟨_, appendCountOr_eq_ok.mpr ⟨hfits, rfl⟩, ?_⟩
    exact congrArg Except.ok (List.append_assoc _ _ _)

theorem appendTextOr_then {α : Type} {value : Text} {next : List UInt8 → Except ε α} {a : α}
    (h : (appendTextOr tooLarge output value >>= next) = .ok a) :
    Fits value ∧ next (output ++ frameText value) = .ok a := by
  obtain ⟨_, happended, h⟩ := bind_eq_ok.mp h
  obtain ⟨hfits, rfl⟩ := appendTextOr_eq_ok.mp happended
  exact ⟨hfits, h⟩

theorem appendTextsOr_ok {values : List Text}
    (h : appendTextsOr tooLarge output values = .ok output') :
    (∀ value ∈ values, Fits value) ∧ output' = output ++ values.flatMap frameText := by
  induction values generalizing output with
  | nil =>
      cases h
      exact ⟨fun _ h => (nomatch h), (List.append_nil _).symm⟩
  | cons value values ih =>
      obtain ⟨hfits, h⟩ := appendTextOr_then h
      obtain ⟨hrest, rfl⟩ := ih h
      refine ⟨List.forall_mem_cons.mpr ⟨hfits, hrest⟩, ?_⟩
      rw [List.flatMap_cons, List.append_assoc]

/-! ## Lists of texts -/

def TextsFit (values : List Text) : Prop :=
  values.length < 256 ^ 8 ∧ ∀ value ∈ values, Fits value

def frameTexts (values : List Text) : List UInt8 :=
  toBeBytes 8 values.length ++ values.flatMap frameText

theorem selfDelimiting_texts : SelfDelimiting TextsFit frameTexts :=
  (selfDelimiting_toBeBytes 8).counted selfDelimiting_text

def ActionsFit (actions : ActionSet) : Prop := TextsFit (sortedActionLabels actions)

def frameActions (actions : ActionSet) : List UInt8 := frameTexts (sortedActionLabels actions)

theorem selfDelimiting_actions : SelfDelimiting ActionsFit frameActions :=
  selfDelimiting_texts.comap sortedActionLabels_injective

theorem appendActionsOr_ok {actions : ActionSet}
    (h : appendActionsOr tooLarge output actions = .ok output') :
    ActionsFit actions ∧ output' = output ++ frameActions actions := by
  obtain ⟨output₁, h₁, h⟩ := bind_eq_ok.mp h
  obtain ⟨hcount, rfl⟩ := appendCountOr_eq_ok.mp h₁
  obtain ⟨hfits, rfl⟩ := appendTextsOr_ok h
  rw [← length_sortedActionLabels] at hcount
  refine ⟨⟨hcount, hfits⟩, ?_⟩
  rw [frameActions, frameTexts, length_sortedActionLabels, List.append_assoc]

/-- A kind behind its label. -/
def frameKind (kind : ProjectionFileKind) : List UInt8 :=
  frameText (projectionFileKindWireLabel kind)

theorem selfDelimiting_kind :
    SelfDelimiting (fun kind => Fits (projectionFileKindWireLabel kind)) frameKind :=
  selfDelimiting_text.comap projectionFileKindWireLabel_injective

/-! ## Folds that append -/

/-- What is appended by one value after the other. -/
theorem foldlM_append_ok {α : Type} {P : α → Prop} {frame : α → List UInt8}
    (append : List UInt8 → α → Except ε (List UInt8))
    (happend : ∀ output a output', append output a = .ok output' →
      P a ∧ output' = output ++ frame a) {values : List α}
    (h : values.foldlM append output = .ok output') :
    (∀ a ∈ values, P a) ∧ output' = output ++ values.flatMap frame := by
  induction values generalizing output with
  | nil =>
      cases h
      exact ⟨fun _ h => (nomatch h), (List.append_nil _).symm⟩
  | cons a values ih =>
      rw [List.foldlM_cons] at h
      obtain ⟨output₁, h₁, h⟩ := bind_eq_ok.mp h
      obtain ⟨hfits, rfl⟩ := happend _ _ _ h₁
      obtain ⟨hrest, rfl⟩ := ih h
      refine ⟨List.forall_mem_cons.mpr ⟨hfits, hrest⟩, ?_⟩
      rw [List.flatMap_cons, List.append_assoc]

/-- Texts that differ are told apart by their frames. -/
theorem frameText_ne {value value' : Text} (hfits : Fits value) (hfits' : Fits value')
    (hne : value ≠ value') (s t : List UInt8) : frameText value ++ s ≠ frameText value' ++ t :=
  fun h => hne (selfDelimiting_text _ _ s t hfits hfits' h).1

end Locality.Protocol
