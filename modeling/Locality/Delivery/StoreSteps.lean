/-
  Delivery/StoreSteps.lean --- what a call of the generation store does to its tables.

  For each operation one lemma says all that a success means: what was checked, and which
  rows are new.  Nothing after this module unfolds an operation.
-/
import Locality.Delivery.GenerationStore
import Mathlib.Data.List.Dedup

set_option autoImplicit false

namespace Locality.Delivery

open Locality.Core Locality.Foundation Locality.Protocol

namespace GenerationStore

variable {codec : Codec} {store store' : GenerationStore}

/-! ## Writing paths -/

/-- Nothing but paths is written. -/
def OnlyPaths (store store' : GenerationStore) : Prop :=
  ∃ paths, store' = { store with paths := paths }

theorem OnlyPaths.refl (store : GenerationStore) : OnlyPaths store store := ⟨store.paths, rfl⟩

theorem OnlyPaths.trans {store'' : GenerationStore} (h : OnlyPaths store store')
    (h' : OnlyPaths store' store'') : OnlyPaths store store'' := by
  obtain ⟨paths, rfl⟩ := h
  obtain ⟨paths', rfl⟩ := h'
  exact ⟨paths', rfl⟩

theorem placePath_ok {row : GenerationPathRow} (h : store.placePath row = .ok store') :
    ∃ free : store.paths.Free row, store.observed.lookup row.source ≠ none ∧
      store' = { store with paths := store.paths.place row free } := by
  unfold placePath at h
  obtain ⟨hobserved, h⟩ := ite_throw_eq_ok.mp h
  split at h
  · rename_i free
    cases h
    exact ⟨free, hobserved, rfl⟩
  · exact nomatch h

theorem insertPath_ok {row : GenerationPathRow} (h : store.insertPath row = .ok store') :
    store.paths.table.lookup row.key = none ∧ store.placePath row = .ok store' := by
  unfold insertPath at h
  split at h
  · rename_i hnew
    exact ⟨hnew, h⟩
  · cases h

theorem upsertPath_ok {row : GenerationPathRow} {crossed : String}
    (h : store.upsertPath row crossed = .ok store') :
    store.placePath row = .ok store' ∧ ∀ existing,
      store.paths.table.lookup row.key = some existing →
        existing.sourceConnectionId = row.sourceConnectionId := by
  unfold upsertPath at h
  split at h
  · rename_i hnone
    exact ⟨h, fun existing hsome => by cases hnone.symm.trans hsome⟩
  · rename_i existing hsome
    split at h
    · rename_i hsource
      refine ⟨h, fun existing' hsome' => ?_⟩
      rwa [← Option.some.inj (hsome.symm.trans hsome')]
    · cases h

theorem onlyPaths_of_place {row : GenerationPathRow} (h : store.placePath row = .ok store') :
    OnlyPaths store store' := by
  obtain ⟨free, -, rfl⟩ := placePath_ok h
  exact ⟨_, rfl⟩

/-! ## Seeding -/

/-- The observed rows with those of the seeds. -/
def observeSeeds (observed : KeyedTable ObservedGenerationRecordV2.key)
    (seeds : List GenerationBaselineSeedRecordV2) : KeyedTable ObservedGenerationRecordV2.key :=
  seeds.foldl (fun observed seed => observed.put ⟨seed.seed.observed, seed.refreshMode⟩) observed

theorem foldlM_insertPath_only {sourceConnectionId : SourceConnectionId}
    {paths : List GenerationPathRecord}
    (h : paths.foldlM (fun store path => store.insertPath ⟨sourceConnectionId, path⟩) store =
      .ok store') : OnlyPaths store store' := by
  induction paths generalizing store with
  | nil =>
      cases h
      exact .refl _
  | cons path paths ih =>
      rw [List.foldlM_cons] at h
      obtain ⟨middle, hinsert, hrest⟩ := bind_eq_ok.mp h
      exact (onlyPaths_of_place (insertPath_ok hinsert).2).trans (ih hrest)

theorem foldlM_insertSeed {seeds : List GenerationBaselineSeedRecordV2}
    (h : seeds.foldlM insertSeed store = .ok store') :
    ∃ paths, store' =
      { store with observed := observeSeeds store.observed seeds, paths := paths } := by
  induction seeds generalizing store with
  | nil =>
      cases h
      exact ⟨_, rfl⟩
  | cons seed seeds ih =>
      rw [List.foldlM_cons] at h
      obtain ⟨middle, hinsert, hrest⟩ := bind_eq_ok.mp h
      obtain ⟨paths, rfl⟩ := foldlM_insertPath_only hinsert
      exact ih hrest

theorem newSeeds_ok {seeds inserted : List GenerationBaselineSeedRecordV2}
    (h : store.newSeeds seeds = .ok inserted) :
    inserted.Sublist seeds ∧
      ∀ seed ∈ inserted, store.observed.lookup seed.seed.observed.key = none := by
  induction seeds generalizing inserted with
  | nil =>
      cases h
      exact ⟨List.Sublist.refl _, fun _ h => nomatch h⟩
  | cons seed seeds ih =>
      unfold newSeeds at h
      split at h
      · rename_i hnone
        obtain ⟨rest, hrest, h⟩ := bind_eq_ok.mp h
        cases h
        obtain ⟨hsub, hnew⟩ := ih hrest
        exact ⟨hsub.cons_cons seed, List.forall_mem_cons.mpr ⟨hnone, hnew⟩⟩
      · obtain ⟨-, h⟩ := ite_throw_eq_ok.mp h
        obtain ⟨hsub, hnew⟩ := ih h
        exact ⟨hsub.cons seed, hnew⟩

theorem forM_eq_ok {ε α : Type} {f : α → Except ε Unit} {as : List α} :
    as.forM f = .ok () ↔ ∀ a ∈ as, f a = .ok () := by
  induction as with
  | nil => exact ⟨fun _ _ h => (nomatch h), fun _ => rfl⟩
  | cons a as ih =>
      change (f a >>= fun _ => as.forM f) = .ok () ↔ _
      rw [bind_eq_ok, List.forall_mem_cons, ← ih]
      exact ⟨fun ⟨_, hhead, htail⟩ => ⟨hhead, htail⟩, fun ⟨hhead, htail⟩ => ⟨(), hhead, htail⟩⟩

/-- What a successful baseline says of the store before it. -/
structure Seeds (codec : Codec) (store : GenerationStore)
    (seeds inserted : List GenerationBaselineSeedRecordV2) : Prop where
  valid : validateSeeds codec none seeds = .ok ()
  inserts : store.newSeeds (sortSeeds (seeds.map sortSeedPaths)) = .ok inserted
  nodup : (seedKeys inserted).Nodup
  claims : ∃ claims, claimSeeds codec
    (store.claimsOf codec ((seedKeys (sortSeeds (seeds.map sortSeedPaths))).map Prod.fst).dedup)
      inserted = .ok claims
  idle : ∀ seed ∈ inserted, store.activeJournal seed.seed.observed.mountId = none
  new : ∀ seed ∈ inserted, store.observed.lookup seed.seed.observed.key = none

theorem seedObservedGenerationsV2_ok {seeds : List GenerationBaselineSeedRecordV2}
    (h : store.seedObservedGenerationsV2 codec seeds = .ok store') :
    ∃ inserted, Seeds codec store seeds inserted ∧ inserted.foldlM insertSeed store = .ok store' := by
  obtain ⟨_, hvalid, h⟩ := bind_eq_ok.mp h
  obtain ⟨hnodup, h⟩ := ite_throw_eq_ok.mp h
  obtain ⟨_, -, h⟩ := bind_eq_ok.mp h
  obtain ⟨_, hmounts, h⟩ := bind_eq_ok.mp h
  obtain ⟨inserted, hinserted, h⟩ := bind_eq_ok.mp h
  obtain ⟨claims, hclaims, h⟩ := bind_eq_ok.mp h
  obtain ⟨hsub, hnew⟩ := newSeeds_ok hinserted
  refine ⟨inserted, ⟨hvalid, hinserted, ?_, ⟨claims, hclaims⟩, ?_, hnew⟩, h⟩
  · exact (hsub.map _).nodup (not_not.mp hnodup)
  · intro seed hseed
    have hmem : seed.seed.observed.mountId ∈
        ((seedKeys (sortSeeds (seeds.map sortSeedPaths))).map Prod.fst).dedup := by
      rw [List.mem_dedup, seedKeys, List.map_map]
      exact List.mem_map.mpr ⟨seed, hsub.subset hseed, rfl⟩
    have hmount := forM_eq_ok.mp hmounts _ hmem
    unfold validateSeedMount at hmount
    split at hmount
    · exact nomatch hmount
    · assumption

theorem lookup_observeSeeds {observed : KeyedTable ObservedGenerationRecordV2.key}
    {seeds : List GenerationBaselineSeedRecordV2} {source : SourceKey}
    (h : source ∉ seedKeys seeds) :
    (observeSeeds observed seeds).lookup source = observed.lookup source := by
  induction seeds generalizing observed with
  | nil => rfl
  | cons seed seeds ih =>
      obtain ⟨hhead, htail⟩ := not_or.mp (fun hmem => h (List.mem_cons.mpr hmem))
      exact (ih htail).trans (KeyedTable.lookup_put_ne _ (Ne.symm hhead))

theorem lookup_observeSeeds_mem {observed : KeyedTable ObservedGenerationRecordV2.key}
    {seeds : List GenerationBaselineSeedRecordV2} {seed : GenerationBaselineSeedRecordV2}
    (hnodup : (seedKeys seeds).Nodup) (h : seed ∈ seeds) :
    (observeSeeds observed seeds).lookup seed.seed.observed.key =
      some ⟨seed.seed.observed, seed.refreshMode⟩ := by
  induction seeds generalizing observed with
  | nil => exact nomatch h
  | cons first seeds ih =>
      obtain ⟨hfirst, hnodup⟩ := List.nodup_cons.mp hnodup
      rcases List.mem_cons.mp h with rfl | h
      · exact (lookup_observeSeeds hfirst).trans (KeyedTable.lookup_put_self _ _)
      · exact ih hnodup h

/-! ## Resetting -/

/-- What a successful reset says of the store before it. -/
structure Resets (store : GenerationStore) (source : SourceKey) : Prop where
  idle : ∀ journal ∈ store.journals.rows, journal.mountId = source.1 → journal.active = false
  acknowledged : ∀ journal ∈ store.journals.rows, journal.source = source →
    journal.acknowledgmentRequired = true → journal.acknowledgedAt ≠ none
  clean : ∀ row ∈ store.paths.table.rows, row.source = source → row.path.state = .clean
  released : ∀ evidence ∈ store.evidence.rows, ∀ journal,
    store.journals.lookup evidence.deltaId = some journal → journal.source ≠ source

theorem resetObservedGenerationSource_ok {source : SourceKey}
    (h : store.resetObservedGenerationSource source = .ok store') :
    Resets store source ∧ store' = { store with
      journals := store.journals.eraseWhere fun journal =>
        journal.source = source && !journal.active
      observed := store.observed.eraseWhere fun record => record.key = source
      paths := store.paths.eraseWhere fun row => row.source = source } := by
  unfold resetObservedGenerationSource at h
  split at h
  · exact nomatch h
  · rename_i hjournals
    split at h
    · exact nomatch h
    · rename_i hpaths
      split at h
      · exact nomatch h
      · rename_i hevidence
        cases h
        have hjournals := List.find?_eq_none.mp hjournals
        have hpaths := List.find?_eq_none.mp hpaths
        have hevidence := List.find?_eq_none.mp hevidence
        refine ⟨⟨?_, ?_, ?_, ?_⟩, rfl⟩
        · intro journal hmem hmount
          have hnot := hjournals journal hmem
          simp only [hmount, decide_true, Bool.true_and, Bool.not_eq_true,
            Bool.or_eq_false_iff] at hnot
          exact hnot.1
        · intro journal hmem hsource hrequired hnone
          have hnot := hjournals journal hmem
          have hmount : journal.mountId = source.1 := congrArg Prod.fst hsource
          simp only [hmount, hsource, hrequired, hnone, decide_true, Option.isNone_none,
            Bool.and_true, Bool.or_true, not_true_eq_false] at hnot
        · intro row hmem hsource
          have hnot := hpaths row (List.mem_filter.mpr ⟨hmem, decide_eq_true hsource⟩)
          simpa only [ne_eq, decide_not, Bool.not_eq_true', decide_eq_false_iff_not,
            not_not] using hnot
        · intro evidence hmem journal hlookup hsource
          have hnot := hevidence evidence hmem
          rw [hlookup] at hnot
          exact hnot (decide_eq_true hsource)

/-! ## Reserving -/

/-- The source of a delta. -/
def sourceOf (delta : GenerationDelta) : SourceKey :=
  (⟨delta.mountId.value⟩, delta.sourceConnectionId)

/-- What a successful reservation of a new delta says of the store before it. -/
structure Reserves (codec : Codec) (store : GenerationStore)
    (prepared : PreparedGenerationApplyV3) : Prop where
  valid : prepared.apply.validate codec = .ok ()
  new : store.journals.lookup prepared.apply.delta.deltaId = none
  base : ∃ record, store.observed.lookup (sourceOf prepared.apply.delta) = some record ∧
    record.refreshMode = .generationDeltaV1 ∧
    record.observed.generationId = prepared.apply.delta.baseGenerationId
  identities : store.validateOldIdentities (sourceOf prepared.apply.delta)
    prepared.apply.delta.entries = .ok ()
  idle : store.activeJournal (sourceOf prepared.apply.delta).1 = none

theorem reserveGenerationApplyV3_ok {prepared : PreparedGenerationApplyV3}
    {journal : StoredGenerationApply}
    (h : store.reserveGenerationApplyV3 codec prepared = .ok (journal, store')) :
    store.journals.lookup prepared.apply.delta.deltaId = some journal ∧
        isReplay journal prepared = true ∧ store' = store ∨
      Reserves codec store prepared ∧ journal = newJournal prepared ∧
        store' = store.putJournal (newJournal prepared) := by
  obtain ⟨_, -, h⟩ := bind_eq_ok.mp h
  obtain ⟨_, hvalid, h⟩ := bind_eq_ok.mp h
  dsimp only at h
  split at h
  · rename_i existing hexisting
    split at h
    · rename_i hreplay
      cases h
      exact .inl ⟨hexisting, hreplay, rfl⟩
    · cases h
  · rename_i hnew
    split at h
    · cases h
    · rename_i record hrecord
      obtain ⟨hmode, h⟩ := ite_throw_eq_ok.mp h
      obtain ⟨hbase, h⟩ := ite_throw_eq_ok.mp h
      obtain ⟨_, hidentities, h⟩ := bind_eq_ok.mp h
      split at h
      · cases h
      · rename_i hidle
        cases h
        exact .inr ⟨⟨hvalid, hnew, ⟨record, hrecord, not_not.mp hmode,
          not_not.mp (not_or.mp hbase).1⟩, hidentities, hidle⟩, rfl, rfl⟩

/-! ## Applying and completing -/

theorem requireJournal_ok {deltaId : Text} {journal : StoredGenerationApply}
    (h : store.requireJournal deltaId = .ok journal) :
    store.journals.lookup deltaId = some journal := by
  unfold requireJournal at h
  split at h
  · cases h
    assumption
  · cases h

theorem markGenerationApplyStarted_ok {deltaId updatedAt : Text}
    (h : store.markGenerationApplyStarted deltaId updatedAt = .ok store') :
    store' = store ∨ ∃ journal, store.journals.lookup deltaId = some journal ∧
      journal.status ≠ .completed ∧
      store' = store.putJournal { journal with status := .applying, updatedAt := updatedAt } := by
  obtain ⟨journal, hjournal, h⟩ := bind_eq_ok.mp h
  split at h
  · cases h
    exact .inl rfl
  · rename_i hstatus
    cases h
    exact .inr ⟨journal, requireJournal_ok hjournal, hstatus, rfl⟩

theorem recordGenerationApplyOutcome_ok {deltaId updatedAt : Text} {entryIndex : Nat}
    {outcome : GenerationApplyOutcome}
    (h : store.recordGenerationApplyOutcome deltaId entryIndex outcome updatedAt = .ok store') :
    store' = store ∨ ∃ journal, store.journals.lookup deltaId = some journal ∧
      journal.status ≠ .completed ∧ entryIndex < journal.delta.entries.length ∧
      journal.outcomeAt entryIndex = none ∧
      store' = store.putJournal { journal with
        status := .applying
        updatedAt := updatedAt
        outcomes := insertOutcome entryIndex outcome journal.outcomes } := by
  obtain ⟨journal, hjournal, h⟩ := bind_eq_ok.mp h
  split at h
  · split at h
    · cases h
      exact .inl rfl
    · cases h
  · rename_i hstatus
    obtain ⟨hindex, h⟩ := ite_throw_eq_ok.mp h
    split at h
    · split at h
      · cases h
        exact .inl rfl
      · cases h
    · rename_i hnone
      cases h
      exact .inr ⟨journal, requireJournal_ok hjournal, hstatus, Nat.lt_of_not_le hindex,
        hnone, rfl⟩

theorem markGenerationAcknowledged_ok {deltaId receiptSha256 acknowledgedAt : Text}
    (h : store.markGenerationAcknowledged deltaId receiptSha256 acknowledgedAt = .ok store') :
    ∃ journal, store.journals.lookup deltaId = some journal ∧ journal.status = .completed ∧
      journal.acknowledgmentRequired = true ∧ journal.receiptSha256 = receiptSha256 ∧
      (journal.acknowledgedAt ≠ none ∧ store' = store ∨
        journal.acknowledgedAt = none ∧ store' = store.putJournal { journal with
          acknowledgedAt := some acknowledgedAt, updatedAt := acknowledgedAt }) := by
  obtain ⟨-, h⟩ := ite_throw_eq_ok.mp h
  obtain ⟨journal, hjournal, h⟩ := bind_eq_ok.mp h
  obtain ⟨hmatch, h⟩ := ite_throw_eq_ok.mp h
  obtain ⟨hstatus, hmatch⟩ := not_or.mp hmatch
  obtain ⟨hrequired, hreceipt⟩ := not_or.mp hmatch
  refine ⟨journal, requireJournal_ok hjournal, not_not.mp hstatus,
    Bool.of_not_eq_false hrequired, not_not.mp hreceipt, ?_⟩
  split at h
  · rename_i hacknowledged
    cases h
    exact .inl ⟨Option.isSome_iff_ne_none.mp hacknowledged, rfl⟩
  · rename_i hacknowledged
    cases h
    exact .inr ⟨Option.not_isSome_iff_eq_none.mp hacknowledged, rfl⟩

/-- What an outcome did to the path of its entry. -/
inductive CompletesEntry (store store' : GenerationStore) (journal : StoredGenerationApply)
    (entryIndex : Nat) (entry : GenerationDeltaEntry) (outcome : GenerationApplyOutcome)
    (completedAt : Text) : Prop
  | delivered (new : GenerationFileIdentity) (state : GenerationPathState)
      (newIdentity : entry.new = some new)
      (cause : outcome = .applied ∧ state = .clean ∨ outcome = .merged ∧ state = .dirty)
      (path : store.upsertPath (deliveredRow journal entryIndex new state completedAt)
        "generation apply crossed a source-owned projection" = .ok store')
  | conflicted (identity : GenerationFileIdentity) (localSha256 : Option Text)
      (incomingIdentity : Option GenerationFileIdentity) (retained : Bool)
      (anyIdentity : (entry.new.orElse fun _ => entry.old) = some identity)
      (cause : outcome = .conflict localSha256 incomingIdentity ∧ retained = true ∨
        outcome = .conflictOverQuota localSha256 incomingIdentity ∧ retained = false)
      (path : store.upsertPath (conflictedRow journal entryIndex entry identity
        (store.selectGenerationPath journal.source identity.projectionId) retained
        incomingIdentity completedAt)
        "generation conflict crossed a source-owned projection" = .ok store')
  | deleted (old : GenerationFileIdentity) (cause : outcome = .deleted)
      (oldIdentity : entry.old = some old) (newIdentity : entry.new = none)
      (found : store.selectGenerationPath journal.source old.projectionId ≠ none)
      (result : store' = { store with
        paths := store.paths.eraseWhere fun row =>
          row.source = journal.source && decide (row.path.projectionId = old.projectionId) })

theorem completeEntry_ok {journal : StoredGenerationApply} {entryIndex : Nat}
    {entry : GenerationDeltaEntry} {outcome : GenerationApplyOutcome} {completedAt : Text}
    (h : store.completeEntry journal entryIndex entry outcome completedAt = .ok store') :
    CompletesEntry store store' journal entryIndex entry outcome completedAt := by
  unfold completeEntry at h
  cases outcome with
  | applied =>
      cases hnew : entry.new with
      | none =>
          simp only [hnew] at h
          exact nomatch h
      | some new =>
          simp only [hnew] at h
          exact .delivered new .clean hnew (.inl ⟨rfl, rfl⟩) h
  | merged =>
      cases hnew : entry.new with
      | none =>
          simp only [hnew] at h
          exact nomatch h
      | some new =>
          simp only [hnew] at h
          exact .delivered new .dirty hnew (.inr ⟨rfl, rfl⟩) h
  | deleted =>
      simp only at h
      split at h
      · exact nomatch h
      · rename_i old hold
        obtain ⟨hnew, h⟩ := ite_throw_eq_ok.mp h
        obtain ⟨hfound, h⟩ := ite_throw_eq_ok.mp h
        cases h
        exact .deleted old rfl hold (Option.not_isSome_iff_eq_none.mp hnew)
          (fun hnone => hfound (Option.isNone_iff_eq_none.mpr hnone)) rfl
  | conflict localSha256 incomingIdentity =>
      simp only at h
      split at h
      · exact nomatch h
      · rename_i identity hidentity
        exact .conflicted identity localSha256 incomingIdentity true hidentity
          (.inl ⟨rfl, rfl⟩) h
  | conflictOverQuota localSha256 incomingIdentity =>
      simp only at h
      split at h
      · exact nomatch h
      · rename_i identity hidentity
        exact .conflicted identity localSha256 incomingIdentity false hidentity
          (.inr ⟨rfl, rfl⟩) h

theorem completeEntry_only {journal : StoredGenerationApply} {entryIndex : Nat}
    {entry : GenerationDeltaEntry} {outcome : GenerationApplyOutcome} {completedAt : Text}
    (h : store.completeEntry journal entryIndex entry outcome completedAt = .ok store') :
    OnlyPaths store store' := by
  cases completeEntry_ok h with
  | delivered new state hnew hcause hpath => exact onlyPaths_of_place (upsertPath_ok hpath).1
  | conflicted identity _ _ _ _ _ hpath => exact onlyPaths_of_place (upsertPath_ok hpath).1
  | deleted old _ _ _ _ hresult => exact ⟨_, hresult⟩

theorem completeEntries_only {journal : StoredGenerationApply} {completedAt : Text}
    {entryIndex : Nat} {rest : List (GenerationDeltaEntry × GenerationApplyOutcome)}
    (h : completeEntries journal completedAt entryIndex rest store = .ok store') :
    OnlyPaths store store' := by
  induction rest generalizing entryIndex store with
  | nil =>
      cases h
      exact .refl _
  | cons first rest ih =>
      obtain ⟨middle, hentry, hrest⟩ := bind_eq_ok.mp h
      exact (completeEntry_only hentry).trans (ih hrest)

/-- What a completion that is not a replay did. -/
structure Completes (store : GenerationStore) (deltaId completedAt : Text)
    (journal : StoredGenerationApply) (record : ObservedGenerationRecordV2)
    (middle store' : GenerationStore) : Prop where
  found : store.journals.lookup deltaId = some journal
  active : journal.status ≠ .completed
  outcomes : journal.outcomes.map Prod.fst = List.range journal.delta.entries.length
  entries : completeEntries journal completedAt 0
    (journal.delta.entries.zip (journal.outcomes.map Prod.snd)) store = .ok middle
  observed : store.observed.lookup journal.source = some record
  base : record.observed.generationId = journal.delta.baseGenerationId
  result : store' = { middle with
    observed := store.observed.put (advance journal completedAt record)
    journals := store.journals.put { journal with
      status := .completed, updatedAt := completedAt, completedAt := some completedAt } }

theorem completeGenerationApply_ok {deltaId completedAt : Text}
    (h : store.completeGenerationApply deltaId completedAt = .ok store') :
    store' = store ∨ ∃ journal record middle,
      Completes store deltaId completedAt journal record middle store' := by
  obtain ⟨journal, hjournal, h⟩ := bind_eq_ok.mp h
  split at h
  · cases h
    exact .inl rfl
  · rename_i hstatus
    obtain ⟨houtcomes, h⟩ := ite_throw_eq_ok.mp h
    obtain ⟨middle, hentries, h⟩ := bind_eq_ok.mp h
    obtain ⟨paths, hmiddle⟩ := completeEntries_only hentries
    split at h
    · rename_i record hrecord
      obtain ⟨hbase, h⟩ := ite_throw_eq_ok.mp h
      cases h
      have hobserved : middle.observed = store.observed := by rw [hmiddle]
      have hjournals : middle.journals = store.journals := by rw [hmiddle]
      rw [hobserved] at hrecord
      refine .inr ⟨journal, record, middle, requireJournal_ok hjournal, hstatus,
        not_not.mp houtcomes, hentries, hrecord, not_not.mp hbase, ?_⟩
      rw [hobserved, hjournals]
    · cases h

/-! ## Evidence of displaced files -/

theorem recordGenerationInodeEvidence_ok {evidence : GenerationInodeEvidenceRecord}
    (h : store.recordGenerationInodeEvidence evidence = .ok store') :
    ∃ table, store' = { store with evidence := table } := by
  obtain ⟨-, h⟩ := ite_throw_eq_ok.mp h
  obtain ⟨_, -, h⟩ := bind_eq_ok.mp h
  obtain ⟨_, -, h⟩ := bind_eq_ok.mp h
  split at h
  · split at h
    · cases h
      exact ⟨store.evidence, rfl⟩
    · exact nomatch h
  · obtain ⟨-, h⟩ := ite_throw_eq_ok.mp h
    cases h
    exact ⟨_, rfl⟩

/-- What a late conflict did. -/
structure MarksConflict (store : GenerationStore) (deltaId : Text) (entryIndex : Nat)
    (update : GenerationInodeEvidenceConflictUpdate) (journal : StoredGenerationApply)
    (entry : GenerationDeltaEntry) (old : GenerationFileIdentity)
    (evidence : GenerationInodeEvidenceRecord) (middle store' : GenerationStore) : Prop where
  found : store.journals.lookup deltaId = some journal
  completed : journal.status = .completed
  atIndex : journal.delta.entries[entryIndex]? = some entry
  oldIdentity : entry.old = some old
  retained : store.evidence.lookup (deltaId, entryIndex) = some evidence
  path : store.upsertPath (lateConflictRow journal entryIndex entry old
    (store.selectGenerationPath journal.source old.projectionId) evidence.basePayload
    ((journal.outcomeAt entryIndex).any isOverQuota) update.updatedAt)
    "generation inode conflict crossed a source-owned projection" = .ok middle
  result : ∃ outcome, store' = { middle with
    journals := store.journals.put { journal with
      outcomes := convertOutcome entryIndex outcome journal.outcomes }
    evidence := store.evidence.put { evidence with
      capturedSha256 := update.capturedSha256
      capturedByteLength := update.capturedByteLength
      visibleEvidence := update.visibleEvidence
      resolvedAt := none } }

theorem markGenerationInodeEvidenceConflict_ok {deltaId : Text} {entryIndex : Nat}
    {update : GenerationInodeEvidenceConflictUpdate}
    (h : store.markGenerationInodeEvidenceConflict deltaId entryIndex update = .ok store') :
    ∃ journal entry old evidence middle,
      MarksConflict store deltaId entryIndex update journal entry old evidence middle store' := by
  obtain ⟨journal, hjournal, h⟩ := bind_eq_ok.mp h
  obtain ⟨hstatus, h⟩ := ite_throw_eq_ok.mp h
  split at h
  · exact nomatch h
  · rename_i entry hentry
    split at h
    · exact nomatch h
    · rename_i old hold
      split at h
      · exact nomatch h
      · rename_i evidence hevidence
        obtain ⟨middle, hpath, h⟩ := bind_eq_ok.mp h
        obtain ⟨_, -, h⟩ := bind_eq_ok.mp h
        obtain ⟨_, -, h⟩ := bind_eq_ok.mp h
        cases h
        obtain ⟨paths, rfl⟩ := onlyPaths_of_place (upsertPath_ok hpath).1
        exact ⟨journal, entry, old, evidence, _, requireJournal_ok hjournal,
          not_not.mp hstatus, hentry, hold, hevidence, hpath, ⟨_, rfl⟩⟩

/-- What a resolution did. -/
structure MarksResolved (store : GenerationStore) (deltaId : Text) (entryIndex : Nat)
    (resolution : GenerationInodeEvidenceResolution) (journal : StoredGenerationApply)
    (entry : GenerationDeltaEntry) (new : GenerationFileIdentity)
    (evidence : GenerationInodeEvidenceRecord) (middle store' : GenerationStore) : Prop where
  found : store.journals.lookup deltaId = some journal
  completed : journal.status = .completed
  atIndex : journal.delta.entries[entryIndex]? = some entry
  newIdentity : entry.new = some new
  retained : store.evidence.lookup (deltaId, entryIndex) = some evidence
  visible : evidence.visibleEvidence.isSome = true
  path : store.upsertPath (resolvedRow journal entryIndex new
    (store.selectGenerationPath journal.source new.projectionId) resolution.updatedAt)
    "generation inode resolution crossed a source-owned projection" = .ok middle
  result : store' = { middle with
    journals := store.journals.put { journal with
      outcomes := convertOutcome entryIndex .merged journal.outcomes }
    evidence := store.evidence.put { evidence with
      resolvedAt := some resolution.updatedAt } }

theorem markGenerationInodeEvidenceResolved_ok {deltaId : Text} {entryIndex : Nat}
    {resolution : GenerationInodeEvidenceResolution}
    (h : store.markGenerationInodeEvidenceResolved deltaId entryIndex resolution = .ok store') :
    ∃ journal entry new evidence middle,
      MarksResolved store deltaId entryIndex resolution journal entry new evidence middle
        store' := by
  obtain ⟨journal, hjournal, h⟩ := bind_eq_ok.mp h
  obtain ⟨hstatus, h⟩ := ite_throw_eq_ok.mp h
  split at h
  · exact nomatch h
  · rename_i entry hentry
    split at h
    · exact nomatch h
    · rename_i new hnew
      obtain ⟨_, -, h⟩ := bind_eq_ok.mp h
      obtain ⟨_, -, h⟩ := bind_eq_ok.mp h
      split at h
      · exact nomatch h
      · rename_i evidence hevidence
        obtain ⟨-, h⟩ := ite_throw_eq_ok.mp h
        obtain ⟨middle, hpath, h⟩ := bind_eq_ok.mp h
        cases h
        obtain ⟨paths, rfl⟩ := onlyPaths_of_place (upsertPath_ok hpath).1
        obtain ⟨hfound, hvisible⟩ := Option.filter_eq_some_iff.mp hevidence
        exact ⟨journal, entry, new, evidence, _, requireJournal_ok hjournal,
          not_not.mp hstatus, hentry, hnew, hfound, (Bool.and_eq_true_iff.mp hvisible).1,
          hpath, rfl⟩

theorem removeGenerationInodeEvidence_ok {deltaId : Text} {entryIndex : Nat}
    (h : store.removeGenerationInodeEvidence deltaId entryIndex = .ok store') :
    ∃ table, store' = { store with evidence := table } := by
  obtain ⟨_, -, h⟩ := bind_eq_ok.mp h
  cases h
  exact ⟨_, rfl⟩

/-! ## Active journals -/

theorem activeJournal_eq_none {mountId : MountId} :
    store.activeJournal mountId = none ↔
      ∀ journal ∈ store.journals.rows, journal.mountId = mountId → journal.active = false := by
  rw [activeJournal, List.find?_eq_none]
  constructor
  · intro h journal hmem hmount
    have hnot := h journal hmem
    rw [hmount, decide_eq_true rfl, Bool.true_and] at hnot
    exact Bool.eq_false_iff.mpr hnot
  · intro h journal hmem hboth
    obtain ⟨hmount, hactive⟩ := Bool.and_eq_true_iff.mp hboth
    rw [h journal hmem (of_decide_eq_true hmount)] at hactive
    exact nomatch hactive

end GenerationStore

end Locality.Delivery
