/-
  Delivery/JournalRuns.lean --- what the journals of a mount keep over whole runs.

  A journal outlives every call but a reset of its source, which discards the journals of
  the source together with its head.
-/
import Locality.Delivery.JournalChain

set_option autoImplicit false

namespace Locality.Delivery

open Locality.Core Locality.Foundation Locality.Protocol GenerationStore

variable {codec : Codec} {call : StoreCall} {store store' : GenerationStore}

/-! ## One journal -/

/-- A reset of the source is among the calls and succeeds. -/
def ResetIn (codec : Codec) (source : SourceKey) : GenerationStore → List StoreCall → Prop
  | _, [] => False
  | store, call :: calls =>
      call = .reset source ∧ call.run codec store = .ok (after codec store call) ∨
        ResetIn codec source (after codec store call) calls

/-- The journals of before under the key of one that is put in their table. -/
theorem lookup_put_cases {table : KeyedTable StoredGenerationApply.key}
    {journal changed changed' : StoredGenerationApply} {deltaId : Text}
    (hlookup : table.lookup deltaId = some journal)
    (hfound : table.lookup changed.key = some changed) (hkey : changed'.key = changed.key) :
    changed = journal ∧ (table.put changed').lookup deltaId = some changed' ∨
      (table.put changed').lookup deltaId = some journal := by
  by_cases hsame : changed'.key = deltaId
  · left
    have hchanged : table.lookup deltaId = some changed := by
      rw [← hsame, hkey]
      exact hfound
    refine ⟨Option.some.inj (hchanged.symm.trans hlookup), ?_⟩
    rw [← hsame]
    exact KeyedTable.lookup_put_self _ _
  · exact .inr ((KeyedTable.lookup_put_ne _ hsame).trans hlookup)

theorem persists_of_effect {journal : StoredGenerationApply} {deltaId : Text}
    (heffect : Effect codec call store store')
    (hlookup : store.journals.lookup deltaId = some journal)
    (hcall : call ≠ .reset journal.source) :
    ∃ journal', store'.journals.lookup deltaId = some journal' ∧ Persists journal journal' ∧
      (call.marksEvidence = false → journal.outcomes ⊆ journal'.outcomes) := by
  have hsame : store'.journals.lookup deltaId = some journal →
      ∃ journal', store'.journals.lookup deltaId = some journal' ∧ Persists journal journal' ∧
        (call.marksEvidence = false → journal.outcomes ⊆ journal'.outcomes) :=
    fun h => ⟨journal, h, .refl journal, fun _ => List.Subset.refl _⟩
  cases heffect with
  | quiet journals _ => exact hsame (by rw [journals, hlookup])
  | seeded _ _ _ journals _ => exact hsame (by rw [journals, hlookup])
  | reset source called _ journals _ =>
      refine hsame ?_
      have hne : ¬journal.source = source := fun h => hcall (by rw [called, h])
      rw [journals, KeyedTable.lookup_eraseWhere, decide_eq_false hne]
      exact ⟨hlookup, rfl⟩
  | reserved prepared reserves journals _ =>
      refine hsame ?_
      have hne : (newJournal prepared).key ≠ deltaId := by
        rintro rfl
        exact absurd (hlookup.symm.trans reserves.new) nofun
      rw [journals, KeyedTable.lookup_put_ne _ hne, hlookup]
  | rewritten changed changed' found rewrites kept journals _ =>
      rw [journals] at hsame ⊢
      rcases lookup_put_cases hlookup found rewrites.persists.key with ⟨rfl, h⟩ | h
      · exact ⟨changed', h, rewrites.persists, kept⟩
      · exact hsame h
  | completed changed record completedAt found active _ _ _ journals _ =>
      rw [journals] at hsame ⊢
      have hkey : ({ changed with
          status := .completed
          updatedAt := completedAt
          completedAt := some completedAt } : StoredGenerationApply).key = changed.key := rfl
      rcases lookup_put_cases hlookup found hkey with ⟨rfl, h⟩ | h
      · exact ⟨_, h, ⟨rfl, rfl, rfl, rfl, rfl, rfl, .inl rfl, fun _ => rfl, id⟩,
          fun _ => List.Subset.refl _⟩
      · exact hsame h

theorem persists_after {journal : StoredGenerationApply} {deltaId : Text}
    (hlookup : store.journals.lookup deltaId = some journal)
    (hreset : ¬(call = .reset journal.source ∧
      call.run codec store = .ok (after codec store call))) :
    ∃ journal', (after codec store call).journals.lookup deltaId = some journal' ∧
      Persists journal journal' ∧
      (call.marksEvidence = false → journal.outcomes ⊆ journal'.outcomes) := by
  rcases after_cases codec store call with hrun | hsame
  · exact persists_of_effect (effect_of_run hrun) hlookup fun hcall => hreset ⟨hcall, hrun⟩
  · rw [hsame]
    exact ⟨journal, hlookup, .refl journal, fun _ => List.Subset.refl _⟩

/-- A journal persists over calls by which its source is not reset. -/
theorem persists_runCalls {journal : StoredGenerationApply} {deltaId : Text}
    {calls : List StoreCall} (hlookup : store.journals.lookup deltaId = some journal)
    (hreset : ¬ResetIn codec journal.source store calls) :
    ∃ journal', (runCalls codec store calls).journals.lookup deltaId = some journal' ∧
      Persists journal journal' ∧
      ((∀ call ∈ calls, call.marksEvidence = false) → journal.outcomes ⊆ journal'.outcomes) := by
  induction calls generalizing store journal with
  | nil => exact ⟨journal, hlookup, .refl journal, fun _ => List.Subset.refl _⟩
  | cons call calls ih =>
      obtain ⟨hcall, hcalls⟩ := not_or.mp hreset
      obtain ⟨middle, hmiddle, hpersists, houtcomes⟩ := persists_after hlookup hcall
      obtain ⟨journal', hlookup', hpersists', houtcomes'⟩ :=
        ih hmiddle (hpersists.source ▸ hcalls)
      refine ⟨journal', hlookup', hpersists.trans hpersists', fun hmarks => ?_⟩
      obtain ⟨hmark, hmarks⟩ := List.forall_mem_cons.mp hmarks
      exact List.Subset.trans (houtcomes hmark) (houtcomes' hmarks)

/-! ## Reserving twice -/

/-- The reservation that a journal is of. -/
structure ReservedBy (journal : StoredGenerationApply) (prepared : PreparedGenerationApplyV3) :
    Prop where
  apply : prepared.apply =
    ⟨journal.delta, journal.receipt, journal.receiptSha256, journal.stageRoot, journal.createdAt⟩
  binding : journal.selectionBinding = .bound prepared.selectedCapabilities ∨
    journal.status = .completed ∧ ∃ required,
      journal.selectionBinding = .preBindingCompleted required

theorem reservedBy_of_isReplay {journal : StoredGenerationApply}
    {prepared : PreparedGenerationApplyV3} (h : isReplay journal prepared = true) :
    ReservedBy journal prepared := by
  obtain ⟨hsame, hbinding⟩ := Bool.and_eq_true_iff.mp h
  obtain ⟨hdelta, hreceipt, hdigest, hstage, hcreated⟩ := of_decide_eq_true hsame
  refine ⟨?_, ?_⟩
  · rw [hdelta, hreceipt, hdigest, hstage, hcreated]
  · split at hbinding
    · rename_i capabilities hbound
      obtain ⟨rfl, -⟩ := of_decide_eq_true hbinding
      exact .inl hbound
    · rename_i required hforgotten
      exact .inr ⟨of_decide_eq_true hbinding, required, hforgotten⟩

/-- A reservation that succeeds leaves a journal that is of it. -/
theorem reserved_of_run {prepared : PreparedGenerationApplyV3}
    (h : (StoreCall.reserve prepared).run codec store = .ok store') :
    ∃ journal, store'.journals.lookup prepared.apply.delta.deltaId = some journal ∧
      ReservedBy journal prepared ∧
      (store.journals.lookup prepared.apply.delta.deltaId ≠ none → store' = store) := by
  obtain ⟨journal, hreserve⟩ := reserve_run h
  rcases reserveGenerationApplyV3_ok hreserve with
    ⟨hfound, hreplay, rfl⟩ | ⟨hreserves, rfl, rfl⟩
  · exact ⟨journal, hfound, reservedBy_of_isReplay hreplay, fun _ => rfl⟩
  · exact ⟨_, KeyedTable.lookup_put_self store.journals (newJournal prepared), ⟨rfl, .inl rfl⟩,
      fun hsome => absurd hreserves.new hsome⟩

/-- The reservations of a journal, before and after it was rewritten. -/
theorem ReservedBy.agree {journal journal' : StoredGenerationApply}
    {prepared prepared' : PreparedGenerationApplyV3} (h : ReservedBy journal prepared)
    (h' : ReservedBy journal' prepared') (hpersists : Persists journal journal') :
    prepared'.apply = prepared.apply ∧
      (prepared'.selectedCapabilities = prepared.selectedCapabilities ∨
        journal'.status = .completed ∧ ∃ required,
          journal'.selectionBinding = .preBindingCompleted required) := by
  refine ⟨?_, ?_⟩
  · rw [h.apply, h'.apply, hpersists.delta, hpersists.receipt, hpersists.receiptSha256,
      hpersists.stageRoot, hpersists.createdAt]
  · rcases h'.binding with hbound' | hforgotten'
    · rcases hpersists.binding with hkept | ⟨required, hforgotten⟩
      · rcases h.binding with hbound | ⟨-, required, hforgotten⟩
        · rw [hkept, hbound] at hbound'
          exact .inl (GenerationTransportSelectionBinding.bound.inj hbound').symm
        · rw [hkept, hforgotten] at hbound'
          exact nomatch hbound'
      · rw [hforgotten] at hbound'
        exact nomatch hbound'
    · exact .inr hforgotten'

theorem follows_runCalls {source : SourceKey} {lineage : Option Lineage}
    (h : Follows store source lineage) (calls : List StoreCall) :
    Follows (runCalls codec store calls) source
      (lineageAfter codec source store lineage calls) := by
  induction calls generalizing store lineage with
  | nil => exact h
  | cons call calls ih =>
      refine ih ?_
      rcases after_cases codec store call with hrun | hsame
      · exact h.effect (effect_of_run hrun)
      · rw [hsame]
        exact h.keep_journals rfl rfl

/-! ## The journals of a run -/

/-- In every run, from a store without rows: a mount has at most one active journal; the
completed deltas of a source lead, each once and in order, from the generation of its seed
to its head; outcomes stand under distinct indices of the entries, one for each in a
completed journal; only a completed journal that required it is acknowledged.  From any
point of the run on, until the source is reset, a journal stays that of its reservation,
its outcomes stay but for late writes, it is not acknowledged again, and reserving its delta
again changes nothing and succeeds for that reservation only. -/
theorem journals_form_chains (codec : Codec) (mounts : List MountId) (calls : List StoreCall) :
    JournalsSound (runCalls codec (fresh mounts) calls) ∧
    (∀ source, Follows (runCalls codec (fresh mounts) calls) source
      (lineageAfter codec source (fresh mounts) none calls)) ∧
    (∀ journal ∈ (runCalls codec (fresh mounts) calls).journals.rows, ∀ more : List StoreCall,
      ¬ResetIn codec journal.source (runCalls codec (fresh mounts) calls) more →
        ∃ journal' ∈ (runCalls codec (fresh mounts) (calls ++ more)).journals.rows,
          Persists journal journal' ∧
          ((∀ call ∈ more, call.marksEvidence = false) → journal.outcomes ⊆ journal'.outcomes) ∧
          (journal.acknowledgedAt ≠ none → ∀ mountId, ∀ pending ∈
            (runCalls codec (fresh mounts) (calls ++ more)).listPendingGenerationAcknowledgments
              mountId, pending.key ≠ journal.key)) ∧
    ∀ (prepared prepared' : PreparedGenerationApplyV3) (store₁ store₂ : GenerationStore)
      (more : List StoreCall),
      (StoreCall.reserve prepared).run codec (runCalls codec (fresh mounts) calls) = .ok store₁ →
      ¬ResetIn codec (sourceOf prepared.apply.delta) store₁ more →
      prepared'.apply.delta.deltaId = prepared.apply.delta.deltaId →
      (StoreCall.reserve prepared').run codec (runCalls codec store₁ more) = .ok store₂ →
        store₂ = runCalls codec store₁ more ∧ prepared'.apply = prepared.apply ∧
        (prepared'.selectedCapabilities = prepared.selectedCapabilities ∨
          ∃ journal, store₂.journals.lookup prepared.apply.delta.deltaId = some journal ∧
            journal.status = .completed ∧ ∃ required,
              journal.selectionBinding = .preBindingCompleted required) := by
  refine ⟨?_, ?_, ?_, ?_⟩
  · exact runCalls_induction (journalsSound_fresh mounts)
      (fun call store store' h hrun => h.effect (effect_of_run hrun)) calls
  · intro source
    have hstart : Follows (fresh mounts) source none := ⟨rfl, fun _ h => nomatch h⟩
    exact follows_runCalls hstart calls
  · intro journal hmem more hreset
    obtain ⟨journal', hlookup', hpersists, houtcomes⟩ :=
      persists_runCalls (KeyedTable.lookup_eq_some.mpr ⟨hmem, rfl⟩) hreset
    have happend : runCalls codec (runCalls codec (fresh mounts) calls) more =
        runCalls codec (fresh mounts) (calls ++ more) := List.foldl_append.symm
    rw [happend] at hlookup'
    have hmem' := (KeyedTable.lookup_eq_some.mp hlookup').1
    refine ⟨journal', hmem', hpersists, houtcomes, ?_⟩
    intro hacknowledged mountId pending hpending hkey
    obtain ⟨hrow, hwaits⟩ := List.mem_filter.mp hpending
    have heq : pending = journal' :=
      KeyedTable.eq_of_key hrow hmem' (hkey.trans hpersists.key.symm)
    have hnone := (Bool.and_eq_true_iff.mp (Bool.and_eq_true_iff.mp hwaits).2).2
    exact hpersists.acknowledged hacknowledged (heq ▸ Option.isNone_iff_eq_none.mp hnone)
  · intro prepared prepared' store₁ store₂ more hreserve hreset hid hreserve'
    obtain ⟨journal, hlookup, hreserved, -⟩ := reserved_of_run hreserve
    have hsource : journal.source = sourceOf prepared.apply.delta := by
      rw [hreserved.apply]
      rfl
    obtain ⟨journal', hlookup', hpersists, -⟩ := persists_runCalls hlookup (hsource ▸ hreset)
    obtain ⟨journal'', hlookup'', hreserved'', hsame⟩ := reserved_of_run hreserve'
    have hstore : store₂ = runCalls codec store₁ more :=
      hsame (by rw [hid, hlookup']; exact nofun)
    rw [hid, hstore, hlookup'] at hlookup''
    cases hlookup''
    obtain ⟨happly, hselection⟩ := hreserved.agree hreserved'' hpersists
    refine ⟨hstore, happly, hselection.imp_right fun hforgotten => ?_⟩
    exact ⟨journal', hstore ▸ hlookup', hforgotten⟩

/-! ## A delta that is applied twice -/

/-- A codec for runs on small letters.  The SHA-256 digests of the preimages of a run
stand under their lengths. -/
def sampleCodec (digests : List (Nat × Nat)) : Codec where
  unicode := plainTables
  jsonLength := fun _ => some 512
  sha256 := fun bytes => toBeBytes 32 ((digests.lookup bytes.length).getD 0)

variable (codec : Codec)

def sampleMount : MountId := ⟨"m".toList⟩

def sampleTime : Text := "2024-01-01T00:00:00Z".toList

/-- The digest of an inventory that is in order. -/
def sampleInventory (inventory : List GenerationFileIdentity) : Text :=
  (codec.canonicalTargetInventorySha256 inventory).toOption.getD []

def sampleSeed (generation : String) (paths : List GenerationPathRecord) : StoreCall :=
  .seed [{
    seed := {
      observed := {
        mountId := sampleMount
        sourceConnectionId := ⟨"s".toList⟩
        generationId := ⟨generation.toList⟩
        inventorySha256 :=
          sampleInventory codec (paths.filterMap GenerationPathRecord.baseIdentity)
        workspaceLayoutVersion := 1
        workspaceLayoutDigest := "layout".toList
        lastReceiptSha256 := none
        updatedAt := sampleTime }
      paths := paths }
    refreshMode := .generationDeltaV1 }]

def sampleDelta (deltaId base target : String) (entries : List GenerationDeltaEntry)
    (inventory : List GenerationFileIdentity) : GenerationDelta where
  formatVersion := 1
  minimumReaderVersion := 1
  deltaId := deltaId.toList
  mountId := ⟨sampleMount.value⟩
  sourceConnectionId := ⟨"s".toList⟩
  baseGenerationId := ⟨base.toList⟩
  targetGenerationId := ⟨target.toList⟩
  targetComplete := true
  targetInventorySha256 := sampleInventory codec inventory
  workspaceLayoutVersion := 1
  workspaceLayoutDigest := ⟨"layout".toList⟩
  entries := entries

/-- The receipt of a delta that is valid. -/
def sampleReceipt (delta : GenerationDelta) : GenerationDeltaTerminalReceipt where
  formatVersion := delta.formatVersion
  minimumReaderVersion := delta.minimumReaderVersion
  deltaId := delta.deltaId
  mountId := delta.mountId
  sourceConnectionId := delta.sourceConnectionId
  baseGenerationId := delta.baseGenerationId
  targetGenerationId := delta.targetGenerationId
  targetInventorySha256 := delta.targetInventorySha256
  workspaceLayoutVersion := delta.workspaceLayoutVersion
  workspaceLayoutDigest := delta.workspaceLayoutDigest
  deltaSha256 :=
    (delta.canonicalSha256 codec.unicode codec.jsonLength codec.sha256).toOption.getD []
  entryCount := UInt64.ofNat delta.entries.length
  changedContentBytes := delta.changedContentBytes.toOption.getD 0
  authorizationEpoch := 0
  completedAt := sampleTime

def sampleReserve (delta : GenerationDelta) : StoreCall :=
  .reserve {
    apply := {
      delta := delta
      receipt := sampleReceipt codec delta
      receiptSha256 := (codec.receiptSha256 (sampleReceipt codec delta)).toOption.getD []
      stageRoot := "stage".toList
      createdAt := sampleTime }
    selectedCapabilities := .legacy }

def resetDigests : List (Nat × Nat) :=
  [(48, 0xd0def1ff2059637c8f75a0471d0b50f28bec337f83adc54a8fc41f5b72b350cb),
    (213, 0x9cd8d23dfa35651566cbe2421efd0bb69c5d893e0b8f3ab643ab4a0232fea4f9),
    (214, 0x6c8f755c5d1f7898d91de00e2dc3c54fabe8e7cee528c1f8875164dd6bc78e89),
    (341, 0x19bce2e9f69e42ae255c77937c42b55982fd62325062aee245908aa81850a470),
    (342, 0x72a75c129eed6185fef71796683934454a1f87e3115d4ba4fce81d904084bcbd)]

def appliedOnce : List StoreCall :=
  [sampleSeed (sampleCodec resetDigests) "g1" [],
    sampleReserve (sampleCodec resetDigests)
      (sampleDelta (sampleCodec resetDigests) "d" "g1" "g2" [] []),
    .complete "d".toList sampleTime]

/-- The source is reset and seeded anew, and the delta id is reserved for another target. -/
def appliedTwice : List StoreCall :=
  appliedOnce ++ [.reset (sampleMount, ⟨"s".toList⟩),
    sampleSeed (sampleCodec resetDigests) "g1" [],
    sampleReserve (sampleCodec resetDigests)
      (sampleDelta (sampleCodec resetDigests) "d" "g1" "g10" [] []),
    .complete "d".toList sampleTime]

/-- What the journal of the delta says after calls. -/
def statusAndTarget (calls : List StoreCall) :
    Option (GenerationApplyStatus × SourceGenerationId) :=
  ((runCalls (sampleCodec resetDigests) (fresh [sampleMount]) calls).journals.lookup
    "d".toList).map fun journal => (journal.status, journal.delta.targetGenerationId)

theorem delta_applied_twice :
    statusAndTarget appliedOnce = some (.completed, ⟨"g2".toList⟩) ∧
    statusAndTarget appliedTwice = some (.completed, ⟨"g10".toList⟩) := by
  decide +kernel

end Locality.Delivery
