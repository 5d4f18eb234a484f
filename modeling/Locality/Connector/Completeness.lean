/-
  Connector/Completeness.lean --- what a connector says about the coverage of a result:
  `PortableCompleteness` of `locality-connector/src/lib.rs`.

  The reasons of a merged value are sorted and without repetition, so that what is merged
  is a matter of which reasons there are.
-/
import Locality.Core.Model
import Locality.Protocol.Portable
import Mathlib.Data.List.Sort

set_option autoImplicit false

namespace Locality.Connector

open Locality.Core Locality.Protocol

/-! ## Reasons -/

structure PortableArtifactKey where
  value : Text
  deriving DecidableEq, Repr

inductive PortableIncompleteReason where
  | checkpointContinuation
  | unsupportedSourceKind (remoteId : RemoteId) (sourceKind : Text)
  | unsupportedArtifact (artifactKey : PortableArtifactKey) (artifactKind : Text)
  | connectorLimitation (code : Text) (remoteId : Option RemoteId)
  deriving DecidableEq, Repr

namespace PortableIncompleteReason

/-- What the derived order compares: the variant, and then its fields. -/
def orderKey : PortableIncompleteReason → List (List Nat)
  | checkpointContinuation => [[0]]
  | unsupportedSourceKind remoteId sourceKind =>
      [[1], byteOrder remoteId.value, byteOrder sourceKind]
  | unsupportedArtifact artifactKey artifactKind =>
      [[2], byteOrder artifactKey.value, byteOrder artifactKind]
  | connectorLimitation code remoteId =>
      [3] :: byteOrder code :: (remoteId.map fun id => byteOrder id.value).toList

theorem orderKey_injective {reason reason' : PortableIncompleteReason}
    (h : reason.orderKey = reason'.orderKey) : reason = reason' := by
  have hremote : ∀ {id id' : RemoteId}, byteOrder id.value = byteOrder id'.value → id = id' := by
    rintro ⟨value⟩ ⟨value'⟩ heq
    exact congrArg RemoteId.mk (byteOrder_injective heq)
  have hkey : ∀ {key key' : PortableArtifactKey},
      byteOrder key.value = byteOrder key'.value → key = key' := by
    rintro ⟨value⟩ ⟨value'⟩ heq
    exact congrArg PortableArtifactKey.mk (byteOrder_injective heq)
  cases reason <;> cases reason'
  -- two variants differ in the first part of the key
  all_goals first | exact absurd (List.head_eq_of_cons_eq h) (by decide) | skip
  · rfl
  · simp only [orderKey, List.cons.injEq, and_true, true_and] at h
    rw [hremote h.1, byteOrder_injective h.2]
  · simp only [orderKey, List.cons.injEq, and_true, true_and] at h
    rw [hkey h.1, byteOrder_injective h.2]
  · rename_i code remoteId code' remoteId'
    simp only [orderKey, List.cons.injEq, true_and] at h
    rw [byteOrder_injective h.1]
    congr 1
    cases remoteId <;> cases remoteId' <;>
      simp only [Option.map_none, Option.map_some, Option.toList_none, Option.toList_some,
        reduceCtorEq, List.cons.injEq, and_true, and_false] at h
    · rfl
    · exact congrArg some (hremote h.2)

/-- `<=` of the derived order. -/
def le (reason reason' : PortableIncompleteReason) : Prop := reason.orderKey ≤ reason'.orderKey

instance : DecidableRel le := fun reason reason' =>
  inferInstanceAs (Decidable (reason.orderKey ≤ reason'.orderKey))

instance : Std.Total le := ⟨fun reason reason' => le_total reason.orderKey reason'.orderKey⟩

instance : IsTrans PortableIncompleteReason le := ⟨fun _ _ _ h h' => le_trans h h'⟩

instance : Std.Antisymm le := ⟨fun _ _ h h' => orderKey_injective (le_antisymm h h')⟩

end PortableIncompleteReason

/-! ## Completeness -/

/-- `Vec::dedup`. -/
def dedupAdjacent {α : Type} [DecidableEq α] : List α → List α
  | a :: b :: rest => if a = b then dedupAdjacent (b :: rest) else a :: dedupAdjacent (b :: rest)
  | rest => rest

theorem mem_dedupAdjacent {α : Type} [DecidableEq α] {a : α} {list : List α} :
    a ∈ dedupAdjacent list ↔ a ∈ list := by
  induction list using dedupAdjacent.induct with
  | case1 b rest ih =>
      rw [dedupAdjacent, if_pos rfl, ih, List.mem_cons (l := b :: rest)]
      refine (or_iff_right_of_imp ?_).symm
      rintro rfl
      exact List.mem_cons_self
  | case2 b c rest hne ih =>
      rw [dedupAdjacent, if_neg hne, List.mem_cons, ih, ← List.mem_cons]
  | case3 rest hne =>
      rw [dedupAdjacent]
      exact hne

/-- What is sorted has no repetition behind a pass over neighbours. -/
theorem nodup_dedupAdjacent {α : Type} [DecidableEq α] {le : α → α → Prop} [Std.Antisymm le]
    {list : List α} (h : list.Pairwise le) : (dedupAdjacent list).Nodup := by
  induction list using dedupAdjacent.induct with
  | case1 b rest ih =>
      rw [dedupAdjacent, if_pos rfl]
      exact ih h.of_cons
  | case2 b c rest hne ih =>
      obtain ⟨hb, hrest⟩ := List.pairwise_cons.mp h
      rw [dedupAdjacent, if_neg hne, List.nodup_cons, mem_dedupAdjacent]
      refine ⟨fun hmem => hne ?_, ih hrest⟩
      -- the first one is below the second, and the second is below what is equal to the first
      rcases List.mem_cons.mp hmem with heq | hmem
      · exact heq
      · exact Std.Antisymm.antisymm b c (hb c List.mem_cons_self)
          ((List.pairwise_cons.mp hrest).1 b hmem)
  | case3 rest hne =>
      cases rest with
      | nil => exact List.nodup_nil
      | cons a rest =>
          cases rest with
          | nil => exact List.nodup_singleton a
          | cons b rest => exact absurd rfl (hne a b rest)

theorem sublist_dedupAdjacent {α : Type} [DecidableEq α] (list : List α) :
    (dedupAdjacent list).Sublist list := by
  induction list using dedupAdjacent.induct with
  | case1 b rest ih =>
      rw [dedupAdjacent, if_pos rfl]
      exact ih.trans (List.sublist_cons_self b _)
  | case2 b c rest hne ih =>
      rw [dedupAdjacent, if_neg hne]
      exact ih.cons_cons b
  | case3 rest hne =>
      rw [dedupAdjacent]
      exact hne

structure PortableCompleteness where
  incompleteReasons : List PortableIncompleteReason
  complete : Bool
  deriving DecidableEq, Repr

namespace PortableCompleteness

/-- `PortableCompleteness::complete`. -/
def full : PortableCompleteness := ⟨[], true⟩

def incomplete (reason : PortableIncompleteReason) : PortableCompleteness := ⟨[reason], false⟩

/-- `PortableCompleteness::default`. -/
def default : PortableCompleteness := ⟨[], false⟩

def isComplete (self : PortableCompleteness) : Bool :=
  self.complete && self.incompleteReasons.isEmpty

def merge (self other : PortableCompleteness) : PortableCompleteness where
  complete := self.complete && other.complete
  incompleteReasons := dedupAdjacent
    ((self.incompleteReasons ++ other.incompleteReasons).insertionSort PortableIncompleteReason.le)

theorem mem_merge {self other : PortableCompleteness} {reason : PortableIncompleteReason} :
    reason ∈ (self.merge other).incompleteReasons ↔
      reason ∈ self.incompleteReasons ∨ reason ∈ other.incompleteReasons := by
  rw [merge, mem_dedupAdjacent, List.mem_insertionSort, List.mem_append]

@[simp] theorem merge_complete (self other : PortableCompleteness) :
    (self.merge other).complete = (self.complete && other.complete) := rfl

theorem isComplete_iff {self : PortableCompleteness} :
    self.isComplete = true ↔ self.complete = true ∧ ∀ reason, reason ∉ self.incompleteReasons := by
  rw [isComplete, Bool.and_eq_true, List.isEmpty_iff, List.eq_nil_iff_forall_not_mem]

theorem isComplete_merge {self other : PortableCompleteness} :
    (self.merge other).isComplete = true ↔
      self.isComplete = true ∧ other.isComplete = true := by
  simp only [isComplete_iff, merge_complete, Bool.and_eq_true, mem_merge, not_or, forall_and]
  exact and_and_and_comm

theorem mem_foldl_merge (reports : List PortableCompleteness) :
    ∀ {self : PortableCompleteness} {reason : PortableIncompleteReason},
      reason ∈ (reports.foldl merge self).incompleteReasons ↔
        reason ∈ self.incompleteReasons ∨
          ∃ report ∈ reports, reason ∈ report.incompleteReasons := by
  induction reports with
  | nil => exact fun {_ _} => (or_iff_left fun ⟨_, hmem, _⟩ => List.not_mem_nil hmem).symm
  | cons report reports ih =>
      intro self reason
      rw [List.foldl_cons, ih, mem_merge, or_assoc]
      simp only [List.mem_cons, exists_eq_or_imp]

theorem complete_foldl_merge (reports : List PortableCompleteness) :
    ∀ {self : PortableCompleteness}, (reports.foldl merge self).complete = true ↔
      self.complete = true ∧ ∀ report ∈ reports, report.complete = true := by
  induction reports with
  | nil => exact fun {_} => (and_iff_left (List.forall_mem_nil _)).symm
  | cons report reports ih =>
      intro self
      rw [List.foldl_cons, ih, merge_complete, Bool.and_eq_true, and_assoc, List.forall_mem_cons]

/-- The reasons are in order, each once. -/
def Normal (self : PortableCompleteness) : Prop :=
  self.incompleteReasons.Pairwise PortableIncompleteReason.le ∧ self.incompleteReasons.Nodup

theorem normal_merge (self other : PortableCompleteness) : (self.merge other).Normal := by
  have hsorted := List.pairwise_insertionSort PortableIncompleteReason.le
    (self.incompleteReasons ++ other.incompleteReasons)
  exact ⟨hsorted.sublist (sublist_dedupAdjacent _), nodup_dedupAdjacent hsorted⟩

/-- Values that were merged are equal if they say the same. -/
theorem Normal.eq {self other : PortableCompleteness} (h : self.Normal) (h' : other.Normal)
    (hcomplete : self.complete = true ↔ other.complete = true)
    (hreasons : ∀ reason, reason ∈ self.incompleteReasons ↔ reason ∈ other.incompleteReasons) :
    self = other := by
  have hperm := (List.perm_ext_iff_of_nodup h.2 h'.2).mpr hreasons
  have hsame : self.incompleteReasons = other.incompleteReasons :=
    hperm.eq_of_pairwise' h.1 h'.1
  cases self
  cases other
  rw [mk.injEq]
  exact ⟨hsame, Bool.eq_iff_iff.mpr hcomplete⟩

end PortableCompleteness

end Locality.Connector
