/-
  Delivery/StoreRun.lean --- runs of the generation store.

  A run is a list of calls, each on what the ones before it left; a call that fails leaves
  the store as it was.  `Effect` says what a call can do to journals and observed heads,
  and `Persists` what it can do to one journal.
-/
import Locality.Delivery.StoreSteps

set_option autoImplicit false

namespace Locality.Delivery

open Locality.Core Locality.Foundation Locality.Protocol

/-! ## Calls -/

inductive StoreCall where
  | seed (seeds : List GenerationBaselineSeedRecordV2)
  | reset (source : SourceKey)
  | reserve (prepared : PreparedGenerationApplyV3)
  | start (deltaId updatedAt : Text)
  | record (deltaId : Text) (entryIndex : Nat) (outcome : GenerationApplyOutcome)
      (updatedAt : Text)
  | acknowledge (deltaId receiptSha256 acknowledgedAt : Text)
  | complete (deltaId completedAt : Text)
  | recordEvidence (evidence : GenerationInodeEvidenceRecord)
  | markConflict (deltaId : Text) (entryIndex : Nat)
      (update : GenerationInodeEvidenceConflictUpdate)
  | markResolved (deltaId : Text) (entryIndex : Nat)
      (resolution : GenerationInodeEvidenceResolution)
  | removeEvidence (deltaId : Text) (entryIndex : Nat)
  /-- The migration of a journal that was completed before selections were stored. -/
  | forgetSelection (deltaId : Text)

namespace GenerationStore

/-- What `migrate_generation_delivery_storage_to_v6` does to a completed journal whose
selection cannot be recovered. -/
def forgetSelection (self : GenerationStore) (deltaId : Text) : StoreResult GenerationStore := do
  let journal ← self.requireJournal deltaId
  if journal.status ≠ .completed then
    throw (.invalidState ("active generation apply ".toList ++ quoted deltaId ++
      " has no complete immutable transport selection; complete it with the ".toList ++
      "prerelease database reader before retrying this migration".toList))
  else
    return self.putJournal { journal with
      selectionBinding := .preBindingCompleted journal.acknowledgmentRequired }

theorem forgetSelection_ok {store store' : GenerationStore} {deltaId : Text}
    (h : store.forgetSelection deltaId = .ok store') :
    ∃ journal, store.journals.lookup deltaId = some journal ∧ journal.status = .completed ∧
      store' = store.putJournal { journal with
        selectionBinding := .preBindingCompleted journal.acknowledgmentRequired } := by
  obtain ⟨journal, hjournal, h⟩ := bind_eq_ok.mp h
  obtain ⟨hstatus, h⟩ := ite_throw_eq_ok.mp h
  cases h
  exact ⟨journal, requireJournal_ok hjournal, not_not.mp hstatus, rfl⟩

end GenerationStore

def StoreCall.run (codec : Codec) (store : GenerationStore) :
    StoreCall → StoreResult GenerationStore
  | .seed seeds => store.seedObservedGenerationsV2 codec seeds
  | .reset source => store.resetObservedGenerationSource source
  | .reserve prepared => (store.reserveGenerationApplyV3 codec prepared).map Prod.snd
  | .start deltaId updatedAt => store.markGenerationApplyStarted deltaId updatedAt
  | .record deltaId entryIndex outcome updatedAt =>
      store.recordGenerationApplyOutcome deltaId entryIndex outcome updatedAt
  | .acknowledge deltaId receiptSha256 acknowledgedAt =>
      store.markGenerationAcknowledged deltaId receiptSha256 acknowledgedAt
  | .complete deltaId completedAt => store.completeGenerationApply deltaId completedAt
  | .recordEvidence evidence => store.recordGenerationInodeEvidence evidence
  | .markConflict deltaId entryIndex update =>
      store.markGenerationInodeEvidenceConflict deltaId entryIndex update
  | .markResolved deltaId entryIndex resolution =>
      store.markGenerationInodeEvidenceResolved deltaId entryIndex resolution
  | .removeEvidence deltaId entryIndex => store.removeGenerationInodeEvidence deltaId entryIndex
  | .forgetSelection deltaId => store.forgetSelection deltaId

/-- What a call leaves. -/
def after (codec : Codec) (store : GenerationStore) (call : StoreCall) : GenerationStore :=
  match call.run codec store with
  | .ok store' => store'
  | .error _ => store

/-- What calls leave, one after the other. -/
def runCalls (codec : Codec) (store : GenerationStore) (calls : List StoreCall) :
    GenerationStore :=
  calls.foldl (after codec) store

variable {codec : Codec} {store store' : GenerationStore} {call : StoreCall}

theorem after_cases (codec : Codec) (store : GenerationStore) (call : StoreCall) :
    call.run codec store = .ok (after codec store call) ∨ after codec store call = store := by
  unfold after
  cases call.run codec store with
  | ok store' => exact .inl rfl
  | error error => exact .inr rfl

/-- What holds of a store without rows and is kept by calls that succeed holds after
every run. -/
theorem runCalls_induction {P : GenerationStore → Prop} (hstart : P store)
    (hcall : ∀ (call : StoreCall) (store store' : GenerationStore), P store →
      call.run codec store = .ok store' → P store')
    (calls : List StoreCall) : P (runCalls codec store calls) := by
  induction calls generalizing store with
  | nil => exact hstart
  | cons call calls ih =>
      refine ih ?_
      rcases after_cases codec store call with h | h
      · exact hcall call store _ hstart h
      · rw [h]
        exact hstart

theorem reserve_run {prepared : PreparedGenerationApplyV3}
    (h : (StoreCall.reserve prepared).run codec store = .ok store') :
    ∃ journal, store.reserveGenerationApplyV3 codec prepared = .ok (journal, store') := by
  cases hreserve : store.reserveGenerationApplyV3 codec prepared with
  | error error =>
      simp only [StoreCall.run, hreserve] at h
      exact nomatch h
  | ok result =>
      simp only [StoreCall.run, hreserve] at h
      cases h
      exact ⟨result.1, rfl⟩

/-! ## What happens to one journal -/

/-- The journal is still that of the same reservation, and what was terminal of it is. -/
structure Persists (journal journal' : StoredGenerationApply) : Prop where
  delta : journal'.delta = journal.delta
  receipt : journal'.receipt = journal.receipt
  receiptSha256 : journal'.receiptSha256 = journal.receiptSha256
  stageRoot : journal'.stageRoot = journal.stageRoot
  createdAt : journal'.createdAt = journal.createdAt
  required : journal'.acknowledgmentRequired = journal.acknowledgmentRequired
  binding : journal'.selectionBinding = journal.selectionBinding ∨
    ∃ required, journal'.selectionBinding = .preBindingCompleted required
  completed : journal.status = .completed → journal'.status = .completed
  acknowledged : journal.acknowledgedAt ≠ none → journal'.acknowledgedAt ≠ none

namespace Persists

variable {journal journal' journal'' : StoredGenerationApply}

theorem refl (journal : StoredGenerationApply) : Persists journal journal :=
  ⟨rfl, rfl, rfl, rfl, rfl, rfl, .inl rfl, id, id⟩

theorem trans (h : Persists journal journal') (h' : Persists journal' journal'') :
    Persists journal journal'' where
  delta := h'.delta.trans h.delta
  receipt := h'.receipt.trans h.receipt
  receiptSha256 := h'.receiptSha256.trans h.receiptSha256
  stageRoot := h'.stageRoot.trans h.stageRoot
  createdAt := h'.createdAt.trans h.createdAt
  required := h'.required.trans h.required
  binding := by
    rcases h'.binding with hsame | hforgotten
    · rw [hsame]
      exact h.binding
    · exact .inr hforgotten
  completed := fun hstatus => h'.completed (h.completed hstatus)
  acknowledged := fun hacknowledged => h'.acknowledged (h.acknowledged hacknowledged)

theorem key (h : Persists journal journal') : journal'.key = journal.key :=
  congrArg GenerationDelta.deltaId h.delta

theorem mountId (h : Persists journal journal') : journal'.mountId = journal.mountId := by
  rw [StoredGenerationApply.mountId, StoredGenerationApply.mountId, h.delta]

theorem source (h : Persists journal journal') : journal'.source = journal.source := by
  rw [StoredGenerationApply.source, StoredGenerationApply.source, h.mountId, h.delta]

end Persists

/-- The outcomes of a journal stand under distinct indices of its entries, in order; those
of a completed journal are one for each entry. -/
structure WellRecorded (journal : StoredGenerationApply) : Prop where
  ordered : (journal.outcomes.map Prod.fst).Pairwise (· < ·)
  bounded : ∀ index ∈ journal.outcomes.map Prod.fst, index < journal.delta.entries.length
  complete : journal.status = .completed →
    journal.outcomes.map Prod.fst = List.range journal.delta.entries.length

/-- One journal is rewritten, and does not become completed. -/
structure Rewrites (journal journal' : StoredGenerationApply) : Prop where
  persists : Persists journal journal'
  status : journal'.status = .completed → journal.status = .completed
  recorded : WellRecorded journal → WellRecorded journal'
  acknowledged : journal'.acknowledgedAt = journal.acknowledgedAt ∨
    journal.status = .completed ∧ journal.acknowledgmentRequired = true

theorem Rewrites.active {journal journal' : StoredGenerationApply} (h : Rewrites journal journal') :
    journal'.active = journal.active := by
  unfold StoredGenerationApply.active
  exact decide_eq_decide.mpr
    (not_congr ⟨fun hstatus => h.status hstatus, fun hstatus => h.persists.completed hstatus⟩)

/-! ## Outcomes -/

open GenerationStore

theorem outcomeAt_eq_none {journal : StoredGenerationApply} {entryIndex : Nat}
    (h : journal.outcomeAt entryIndex = none) :
    entryIndex ∉ journal.outcomes.map Prod.fst := by
  intro hmem
  obtain ⟨⟨index, outcome⟩, hpair, rfl⟩ := List.mem_map.mp hmem
  have hnone := List.find?_eq_none.mp (Option.map_eq_none_iff.mp h) _ hpair
  exact hnone (decide_eq_true rfl)

theorem mem_insertOutcome {entryIndex : Nat} {outcome : GenerationApplyOutcome}
    {outcomes : List (Nat × GenerationApplyOutcome)} {pair : Nat × GenerationApplyOutcome} :
    pair ∈ insertOutcome entryIndex outcome outcomes ↔
      pair = (entryIndex, outcome) ∨ pair ∈ outcomes :=
  List.mem_orderedInsert _

theorem ordered_insertOutcome {entryIndex : Nat} {outcome : GenerationApplyOutcome}
    {outcomes : List (Nat × GenerationApplyOutcome)}
    (h : (outcomes.map Prod.fst).Pairwise (· < ·)) (hnew : entryIndex ∉ outcomes.map Prod.fst) :
    ((insertOutcome entryIndex outcome outcomes).map Prod.fst).Pairwise (· < ·) := by
  induction outcomes with
  | nil => exact List.pairwise_singleton _ _
  | cons first outcomes ih =>
      obtain ⟨hne, hrest⟩ := not_or.mp (fun hmem => hnew (List.mem_cons.mpr hmem))
      obtain ⟨hlt, hordered⟩ := List.pairwise_cons.mp h
      unfold insertOutcome
      rw [List.orderedInsert]
      split
      · rename_i hle
        have hfirst : entryIndex < first.1 := Nat.lt_of_le_of_ne hle hne
        refine List.pairwise_cons.mpr ⟨fun index hmem => ?_, h⟩
        rcases List.mem_cons.mp hmem with rfl | hmem
        · exact hfirst
        · exact hfirst.trans (hlt index hmem)
      · rename_i hle
        refine List.pairwise_cons.mpr ⟨fun index hmem => ?_, ih hordered hrest⟩
        obtain ⟨pair, hpair, rfl⟩ := List.mem_map.mp hmem
        rcases mem_insertOutcome.mp hpair with rfl | hpair
        · exact Nat.lt_of_not_le hle
        · exact hlt _ (List.mem_map_of_mem hpair)

theorem map_fst_convertOutcome (entryIndex : Nat) (outcome : GenerationApplyOutcome)
    (outcomes : List (Nat × GenerationApplyOutcome)) :
    (convertOutcome entryIndex outcome outcomes).map Prod.fst = outcomes.map Prod.fst := by
  rw [convertOutcome, List.map_map]
  rfl

/-- A journal whose outcomes stand under the same indices. -/
theorem WellRecorded.of_indices {journal journal' : StoredGenerationApply}
    (h : WellRecorded journal) (hdelta : journal'.delta = journal.delta)
    (hindices : journal'.outcomes.map Prod.fst = journal.outcomes.map Prod.fst)
    (hstatus : journal'.status = .completed → journal.status = .completed) :
    WellRecorded journal' where
  ordered := hindices ▸ h.ordered
  bounded := by
    rw [hindices, hdelta]
    exact h.bounded
  complete := by
    rw [hindices, hdelta]
    exact fun hcompleted => h.complete (hstatus hcompleted)

theorem rewrites_started {journal : StoredGenerationApply} (updatedAt : Text)
    (hactive : journal.status ≠ .completed) :
    Rewrites journal { journal with status := .applying, updatedAt := updatedAt } where
  persists := ⟨rfl, rfl, rfl, rfl, rfl, rfl, .inl rfl, fun h => absurd h hactive, id⟩
  status := fun h => nomatch h
  recorded := fun h => h.of_indices rfl rfl fun h => nomatch h
  acknowledged := .inl rfl

theorem rewrites_recorded {journal : StoredGenerationApply} {entryIndex : Nat}
    (outcome : GenerationApplyOutcome) (updatedAt : Text)
    (hactive : journal.status ≠ .completed) (hbound : entryIndex < journal.delta.entries.length)
    (hnew : journal.outcomeAt entryIndex = none) :
    Rewrites journal { journal with
      status := .applying
      updatedAt := updatedAt
      outcomes := insertOutcome entryIndex outcome journal.outcomes } where
  persists := ⟨rfl, rfl, rfl, rfl, rfl, rfl, .inl rfl, fun h => absurd h hactive, id⟩
  status := fun h => nomatch h
  recorded := by
    intro h
    refine ⟨ordered_insertOutcome h.ordered (outcomeAt_eq_none hnew), ?_, fun h => nomatch h⟩
    intro index hmem
    obtain ⟨pair, hpair, rfl⟩ := List.mem_map.mp hmem
    rcases mem_insertOutcome.mp hpair with rfl | hpair
    · exact hbound
    · exact h.bounded _ (List.mem_map_of_mem hpair)
  acknowledged := .inl rfl

theorem rewrites_acknowledged {journal : StoredGenerationApply} (acknowledgedAt : Text)
    (hstatus : journal.status = .completed) (hrequired : journal.acknowledgmentRequired = true) :
    Rewrites journal { journal with
      acknowledgedAt := some acknowledgedAt, updatedAt := acknowledgedAt } where
  persists := ⟨rfl, rfl, rfl, rfl, rfl, rfl, .inl rfl, id, fun _ h => nomatch h⟩
  status := id
  recorded := fun h => h.of_indices rfl rfl id
  acknowledged := .inr ⟨hstatus, hrequired⟩

theorem rewrites_converted {journal : StoredGenerationApply} (entryIndex : Nat)
    (outcome : GenerationApplyOutcome) :
    Rewrites journal { journal with
      outcomes := convertOutcome entryIndex outcome journal.outcomes } where
  persists := ⟨rfl, rfl, rfl, rfl, rfl, rfl, .inl rfl, id, id⟩
  status := id
  recorded := fun h => h.of_indices rfl (map_fst_convertOutcome _ _ _) id
  acknowledged := .inl rfl

theorem rewrites_forgotten (journal : StoredGenerationApply) :
    Rewrites journal { journal with
      selectionBinding := .preBindingCompleted journal.acknowledgmentRequired } where
  persists := ⟨rfl, rfl, rfl, rfl, rfl, rfl, .inr ⟨_, rfl⟩, id, id⟩
  status := id
  recorded := fun h => h.of_indices rfl rfl id
  acknowledged := .inl rfl

/-! ## What happens to journals and heads -/

/-- The calls by which a late write to a displaced file changes what was recorded. -/
def StoreCall.marksEvidence : StoreCall → Bool
  | .markConflict _ _ _ => true
  | .markResolved _ _ _ => true
  | _ => false

/-- What a call that succeeds does to the journals and the observed heads. -/
inductive Effect (codec : Codec) (call : StoreCall) (store store' : GenerationStore) : Prop
  | quiet (journals : store'.journals = store.journals) (observed : store'.observed = store.observed)
  | seeded (inserted : List GenerationBaselineSeedRecordV2)
      (nodup : (seedKeys inserted).Nodup)
      (new : ∀ seed ∈ inserted, store.observed.lookup seed.seed.observed.key = none)
      (journals : store'.journals = store.journals)
      (observed : store'.observed = observeSeeds store.observed inserted)
  | reset (source : SourceKey) (called : call = .reset source) (resets : Resets store source)
      (journals : store'.journals = store.journals.eraseWhere fun journal =>
        journal.source = source && !journal.active)
      (observed : store'.observed = store.observed.eraseWhere fun record => record.key = source)
  | reserved (prepared : PreparedGenerationApplyV3) (reserves : Reserves codec store prepared)
      (journals : store'.journals = store.journals.put (newJournal prepared))
      (observed : store'.observed = store.observed)
  | rewritten (journal journal' : StoredGenerationApply)
      (found : store.journals.lookup journal.key = some journal)
      (rewrites : Rewrites journal journal')
      (kept : call.marksEvidence = false → journal.outcomes ⊆ journal'.outcomes)
      (journals : store'.journals = store.journals.put journal')
      (observed : store'.observed = store.observed)
  | completed (journal : StoredGenerationApply) (record : ObservedGenerationRecordV2)
      (completedAt : Text) (found : store.journals.lookup journal.key = some journal)
      (active : journal.status ≠ .completed)
      (outcomes : journal.outcomes.map Prod.fst = List.range journal.delta.entries.length)
      (head : store.observed.lookup journal.source = some record)
      (base : record.observed.generationId = journal.delta.baseGenerationId)
      (journals : store'.journals = store.journals.put { journal with
        status := .completed, updatedAt := completedAt, completedAt := some completedAt })
      (observed : store'.observed =
        store.observed.put (advance journal completedAt record))

theorem effect_rewritten {journal journal' : StoredGenerationApply} {deltaId : Text}
    (found : store.journals.lookup deltaId = some journal) (rewrites : Rewrites journal journal')
    (kept : journal.outcomes ⊆ journal'.outcomes) :
    Effect codec call store (store.putJournal journal') :=
  .rewritten journal journal' (KeyedTable.key_of_lookup found ▸ found) rewrites (fun _ => kept)
    rfl rfl

theorem effect_of_run (h : call.run codec store = .ok store') :
    Effect codec call store store' := by
  cases call with
  | seed seeds =>
      obtain ⟨inserted, hseeds, hinsert⟩ := seedObservedGenerationsV2_ok h
      obtain ⟨paths, rfl⟩ := foldlM_insertSeed hinsert
      exact .seeded inserted hseeds.nodup hseeds.new rfl rfl
  | reset source =>
      obtain ⟨hresets, rfl⟩ := resetObservedGenerationSource_ok h
      exact .reset source rfl hresets rfl rfl
  | reserve prepared =>
      obtain ⟨journal, hreserve⟩ := reserve_run h
      rcases reserveGenerationApplyV3_ok hreserve with ⟨-, -, rfl⟩ | ⟨hreserves, -, rfl⟩
      · exact .quiet rfl rfl
      · exact .reserved prepared hreserves rfl rfl
  | start deltaId updatedAt =>
      rcases markGenerationApplyStarted_ok h with rfl | ⟨journal, hfound, hactive, rfl⟩
      · exact .quiet rfl rfl
      · exact effect_rewritten hfound (rewrites_started updatedAt hactive) (List.Subset.refl _)
  | record deltaId entryIndex outcome updatedAt =>
      rcases recordGenerationApplyOutcome_ok h with
        rfl | ⟨journal, hfound, hactive, hbound, hnew, rfl⟩
      · exact .quiet rfl rfl
      · exact effect_rewritten hfound (rewrites_recorded outcome updatedAt hactive hbound hnew)
          fun pair hpair => mem_insertOutcome.mpr (.inr hpair)
  | acknowledge deltaId receiptSha256 acknowledgedAt =>
      obtain ⟨journal, hfound, hstatus, hrequired, -, ⟨-, rfl⟩ | ⟨-, rfl⟩⟩ :=
        markGenerationAcknowledged_ok h
      · exact .quiet rfl rfl
      · exact effect_rewritten hfound (rewrites_acknowledged acknowledgedAt hstatus hrequired)
          (List.Subset.refl _)
  | complete deltaId completedAt =>
      rcases completeGenerationApply_ok h with rfl | ⟨journal, record, middle, hcompletes⟩
      · exact .quiet rfl rfl
      · have hfound := hcompletes.found
        rw [← KeyedTable.key_of_lookup hfound] at hfound
        exact .completed journal record completedAt hfound hcompletes.active
          hcompletes.outcomes hcompletes.observed hcompletes.base
          (by rw [hcompletes.result]) (by rw [hcompletes.result])
  | recordEvidence evidence =>
      obtain ⟨table, rfl⟩ := recordGenerationInodeEvidence_ok h
      exact .quiet rfl rfl
  | markConflict deltaId entryIndex update =>
      obtain ⟨journal, entry, old, evidence, middle, hmarks⟩ :=
        markGenerationInodeEvidenceConflict_ok h
      obtain ⟨outcome, hresult⟩ := hmarks.result
      obtain ⟨paths, hmiddle⟩ := onlyPaths_of_place (upsertPath_ok hmarks.path).1
      have hfound := hmarks.found
      rw [← KeyedTable.key_of_lookup hfound] at hfound
      exact .rewritten journal _ hfound (rewrites_converted entryIndex outcome)
        (fun hmarks => nomatch hmarks) (by rw [hresult]) (by rw [hresult, hmiddle])
  | markResolved deltaId entryIndex resolution =>
      obtain ⟨journal, entry, new, evidence, middle, hmarks⟩ :=
        markGenerationInodeEvidenceResolved_ok h
      obtain ⟨paths, hmiddle⟩ := onlyPaths_of_place (upsertPath_ok hmarks.path).1
      have hfound := hmarks.found
      rw [← KeyedTable.key_of_lookup hfound] at hfound
      exact .rewritten journal _ hfound (rewrites_converted entryIndex .merged)
        (fun hmarks => nomatch hmarks) (by rw [hmarks.result]) (by rw [hmarks.result, hmiddle])
  | removeEvidence deltaId entryIndex =>
      obtain ⟨table, rfl⟩ := removeGenerationInodeEvidence_ok h
      exact .quiet rfl rfl
  | forgetSelection deltaId =>
      obtain ⟨journal, hfound, -, rfl⟩ := forgetSelection_ok h
      exact effect_rewritten hfound (rewrites_forgotten journal) (List.Subset.refl _)

end Locality.Delivery
