/-
  Delivery/RemoteHead.lean --- the view of a source and its observed head.

  In runs whose deltas are checked, whose outcomes are those of their entries and whose
  late writes are to evidence that is not superseded, the head has the digest of the view.
  A late write to superseded evidence puts an older identity back.
-/
import Locality.Delivery.RemoteChecks
import Locality.Delivery.JournalRuns

set_option autoImplicit false

namespace Locality.Delivery

open Locality.Core Locality.Foundation Locality.Protocol GenerationStore

variable {codec : Codec} {call : StoreCall} {store store' : GenerationStore}

/-! ## Conditions on a run -/

/-- The entry of a journal, with its journal. -/
def entryOf (store : GenerationStore) (deltaId : Text) (entryIndex : Nat) :
    Option (StoredGenerationApply × GenerationDeltaEntry) :=
  (store.journals.lookup deltaId).bind fun journal =>
    journal.delta.entries[entryIndex]?.map fun entry => (journal, entry)

instance (entry : GenerationDeltaEntry) : DecidablePred (Fits entry) := fun outcome =>
  match outcome with
  | .applied => .isTrue trivial
  | .merged => .isTrue trivial
  | .deleted => .isTrue trivial
  | .conflict _ incomingIdentity => inferInstanceAs (Decidable (incomingIdentity = entry.new))
  | .conflictOverQuota _ incomingIdentity =>
      inferInstanceAs (Decidable (incomingIdentity = entry.new))

/-- What the daemon keeps to: a new delta passes its checks, and an outcome is one that
the entry can have. -/
def Promised (codec : Codec) (store : GenerationStore) : StoreCall → Prop
  | .reserve prepared =>
      store.journals.lookup prepared.apply.delta.deltaId = none →
        (validateLocalBase store (sourceOf prepared.apply.delta).1 prepared.apply.delta).isOk ∧
        (validateResultingInventory codec store (sourceOf prepared.apply.delta).1
          prepared.apply.delta).isOk
  | .record deltaId entryIndex outcome _ =>
      ∀ found ∈ entryOf store deltaId entryIndex, Fits found.2 outcome
  | _ => True

/-- The view still has the new identity of an entry at the projections of the entry. -/
def Current (store : GenerationStore) (deltaId : Text) (entryIndex : Nat) : Prop :=
  ∀ found ∈ entryOf store deltaId entryIndex,
    ∀ identity ∈ found.2.old.toList ++ found.2.new.toList,
      remoteOf store found.1.source identity.projectionId = found.2.new

/-- A late write, and its resolution, are to evidence that is not superseded. -/
def Timely (store : GenerationStore) : StoreCall → Prop
  | .markConflict deltaId entryIndex _ => Current store deltaId entryIndex
  | .markResolved deltaId entryIndex _ => Current store deltaId entryIndex
  | _ => True

/-- Every call of a run meets a condition in the store that it finds. -/
def Throughout (codec : Codec) (P : GenerationStore → StoreCall → Prop) :
    GenerationStore → List StoreCall → Prop
  | _, [] => True
  | store, call :: calls => P store call ∧ Throughout codec P (after codec store call) calls

instance (deltaId : Text) (entryIndex : Nat) : Decidable (Current store deltaId entryIndex) :=
  inferInstanceAs (Decidable (∀ found ∈ entryOf store deltaId entryIndex, _))

instance : DecidablePred (Promised codec store) := fun call =>
  match call with
  | .reserve _ => inferInstanceAs (Decidable (_ → _ ∧ _))
  | .record deltaId entryIndex _ _ =>
      inferInstanceAs (Decidable (∀ found ∈ entryOf store deltaId entryIndex, _))
  | .seed _ => .isTrue trivial
  | .reset _ => .isTrue trivial
  | .start _ _ => .isTrue trivial
  | .acknowledge _ _ _ => .isTrue trivial
  | .complete _ _ => .isTrue trivial
  | .recordEvidence _ => .isTrue trivial
  | .markConflict _ _ _ => .isTrue trivial
  | .markResolved _ _ _ => .isTrue trivial
  | .removeEvidence _ _ => .isTrue trivial
  | .forgetSelection _ => .isTrue trivial

instance : DecidablePred (Timely store) := fun call =>
  match call with
  | .markConflict deltaId entryIndex _ =>
      inferInstanceAs (Decidable (Current store deltaId entryIndex))
  | .markResolved deltaId entryIndex _ =>
      inferInstanceAs (Decidable (Current store deltaId entryIndex))
  | .seed _ => .isTrue trivial
  | .reset _ => .isTrue trivial
  | .reserve _ => .isTrue trivial
  | .start _ _ => .isTrue trivial
  | .record _ _ _ _ => .isTrue trivial
  | .acknowledge _ _ _ => .isTrue trivial
  | .complete _ _ => .isTrue trivial
  | .recordEvidence _ => .isTrue trivial
  | .removeEvidence _ _ => .isTrue trivial
  | .forgetSelection _ => .isTrue trivial

instance throughoutDecidable (codec : Codec) (P : GenerationStore → StoreCall → Prop)
    [∀ store, DecidablePred (P store)] :
    (store : GenerationStore) → (calls : List StoreCall) →
      Decidable (Throughout codec P store calls)
  | _, [] => .isTrue trivial
  | store, call :: calls =>
      have := throughoutDecidable codec P (after codec store call) calls
      inferInstanceAs (Decidable (P store call ∧ Throughout codec P _ calls))

/-! ## Heads of rows -/

/-- Every path is of a source that has a head. -/
def Headed (store : GenerationStore) : Prop :=
  ∀ row ∈ store.paths.table.rows, store.observed.lookup row.source ≠ none

theorem Headed.place {row : GenerationPathRow} (h : Headed store)
    (hplace : store.placePath row = .ok store') : Headed store' := by
  obtain ⟨free, hobserved, rfl⟩ := placePath_ok hplace
  intro other hmem
  rcases KeyedTable.mem_put.mp hmem with rfl | ⟨hmem, -⟩
  · exact hobserved
  · exact h other hmem

theorem Headed.observe {record : ObservedGenerationRecordV2} (h : Headed store) :
    Headed { store with observed := store.observed.put record } := by
  intro row hmem
  change (store.observed.put record).lookup row.source ≠ none
  rw [KeyedTable.lookup_put]
  split
  · exact fun h => by cases h
  · exact h row hmem

theorem Headed.insertSeeds {seeds : List GenerationBaselineSeedRecordV2} (h : Headed store)
    (hinsert : seeds.foldlM insertSeed store = .ok store') : Headed store' := by
  have hpaths : ∀ {sourceConnectionId : SourceConnectionId} {paths : List GenerationPathRecord}
      {store store' : GenerationStore}, Headed store →
      paths.foldlM (fun store path => store.insertPath ⟨sourceConnectionId, path⟩) store =
        .ok store' → Headed store' := by
    intro sourceConnectionId paths
    induction paths with
    | nil =>
        intro store store' h hinsert
        cases hinsert
        exact h
    | cons path paths ih =>
        intro store store' h hinsert
        rw [List.foldlM_cons] at hinsert
        obtain ⟨middle, hfirst, hrest⟩ := bind_eq_ok.mp hinsert
        exact ih (h.place (insertPath_ok hfirst).2) hrest
  induction seeds generalizing store with
  | nil =>
      cases hinsert
      exact h
  | cons seed seeds ih =>
      rw [List.foldlM_cons] at hinsert
      obtain ⟨middle, hfirst, hrest⟩ := bind_eq_ok.mp hinsert
      exact ih (hpaths h.observe hfirst) hrest

theorem Headed.completeEntries {journal : StoredGenerationApply} {completedAt : Text}
    {entryIndex : Nat} {rest : List (GenerationDeltaEntry × GenerationApplyOutcome)}
    (h : Headed store)
    (hentries : GenerationStore.completeEntries journal completedAt entryIndex rest store =
      .ok store') : Headed store' := by
  induction rest generalizing entryIndex store with
  | nil =>
      cases hentries
      exact h
  | cons first rest ih =>
      obtain ⟨middle, hentry, hrest⟩ := bind_eq_ok.mp hentries
      refine ih ?_ hrest
      cases completeEntry_ok hentry with
      | delivered new state _ _ hpath => exact h.place (upsertPath_ok hpath).1
      | conflicted identity _ _ _ _ _ hpath => exact h.place (upsertPath_ok hpath).1
      | deleted old _ _ _ _ hresult =>
          rw [hresult]
          exact fun row hmem => h row (KeyedTable.mem_eraseWhere.mp hmem).1

/-! ## The invariant -/

structure RemoteSound (codec : Codec) (store : GenerationStore) : Prop where
  headed : Headed store
  heads : ∀ record ∈ store.observed.rows, HasDigest codec record.refreshMode
    (remoteOf store record.key) record.observed.inventorySha256
  reserved : ∀ journal ∈ store.journals.rows, journal.active = true →
    HasDigest codec .generationDeltaV1
      (deliverAll (remoteOf store journal.source) journal.delta.entries)
      journal.delta.targetInventorySha256
  mode : ∀ journal ∈ store.journals.rows, journal.active = true →
    ∃ record, store.observed.lookup journal.source = some record ∧
      record.refreshMode = .generationDeltaV1
  fits : ∀ journal ∈ store.journals.rows, journal.active = true →
    ∀ pair ∈ journal.outcomes, ∀ entry ∈ journal.delta.entries[pair.1]?, Fits entry pair.2

theorem remoteSound_fresh (codec : Codec) (mounts : List MountId) :
    RemoteSound codec (fresh mounts) where
  headed := fun _ h => nomatch h
  heads := fun _ h => nomatch h
  reserved := fun _ h => nomatch h
  mode := fun _ h => nomatch h
  fits := fun _ h => nomatch h

/-- A step that leaves views and heads, and of whose active journals each was active
before, with the same delta. -/
theorem RemoteSound.keep (h : RemoteSound codec store) (hheaded : Headed store')
    (hview : ∀ source id, remoteOf store' source id = remoteOf store source id)
    (hobserved : store'.observed = store.observed)
    (hjournals : ∀ journal' ∈ store'.journals.rows, journal'.active = true →
      (∃ journal ∈ store.journals.rows, journal.active = true ∧
        journal'.delta = journal.delta) ∧
      ∀ pair ∈ journal'.outcomes, ∀ entry ∈ journal'.delta.entries[pair.1]?,
        Fits entry pair.2) :
    RemoteSound codec store' := by
  have hsource : ∀ {journal journal' : StoredGenerationApply}, journal'.delta = journal.delta →
      journal'.source = journal.source := by
    intro journal journal' hdelta
    rw [StoredGenerationApply.source, StoredGenerationApply.mountId, hdelta]
    rfl
  refine ⟨hheaded, ?_, ?_, ?_, ?_⟩
  · rw [hobserved]
    exact fun record hmem => (h.heads record hmem).congr (hview record.key)
  · intro journal' hmem hactive
    obtain ⟨journal, hbefore, hwas, hdelta⟩ := (hjournals journal' hmem hactive).1
    rw [hsource hdelta, hdelta]
    exact (h.reserved journal hbefore hwas).congr (deliverAll_congr (hview journal.source) _)
  · intro journal' hmem hactive
    obtain ⟨journal, hbefore, hwas, hdelta⟩ := (hjournals journal' hmem hactive).1
    rw [hsource hdelta, hobserved]
    exact h.mode journal hbefore hwas
  · exact fun journal' hmem hactive => (hjournals journal' hmem hactive).2

/-- A step that leaves paths, heads and journals. -/
theorem RemoteSound.quiet (h : RemoteSound codec store) (hpaths : store'.paths = store.paths)
    (hobserved : store'.observed = store.observed) (hjournals : store'.journals = store.journals) :
    RemoteSound codec store' := by
  refine h.keep ?_ (remoteOf_congr hpaths) hobserved ?_
  · unfold Headed
    rw [hpaths, hobserved]
    exact h.headed
  · rw [hjournals]
    exact fun journal hmem hactive =>
      ⟨⟨journal, hmem, hactive, rfl⟩, h.fits journal hmem hactive⟩

/-- A step that rewrites one journal and leaves views and heads. -/
theorem RemoteSound.rewrite {journal journal' : StoredGenerationApply}
    (h : RemoteSound codec store) (hheaded : Headed store')
    (hview : ∀ source id, remoteOf store' source id = remoteOf store source id)
    (hobserved : store'.observed = store.observed)
    (hjournals : store'.journals = store.journals.put journal')
    (hfound : journal ∈ store.journals.rows) (hrewrites : Rewrites journal journal')
    (hfits : journal.active = true → ∀ pair ∈ journal'.outcomes,
      ∀ entry ∈ journal.delta.entries[pair.1]?, Fits entry pair.2) :
    RemoteSound codec store' := by
  refine h.keep hheaded hview hobserved ?_
  rw [hjournals]
  intro other hmem hactive
  rcases mem_put_cases hmem with rfl | ⟨hmem, -⟩
  · have hwas : journal.active = true := hrewrites.active ▸ hactive
    refine ⟨⟨journal, hfound, hwas, hrewrites.persists.delta⟩, ?_⟩
    rw [hrewrites.persists.delta]
    exact hfits hwas
  · exact ⟨⟨other, hmem, hactive, rfl⟩, h.fits other hmem hactive⟩

/-! ## Steps -/

theorem RemoteSound.seed {seeds inserted : List GenerationBaselineSeedRecordV2}
    (h : RemoteSound codec store) (hseeds : Seeds codec store seeds inserted)
    (hinsert : inserted.foldlM insertSeed store = .ok store') : RemoteSound codec store' := by
  have hother : ∀ source, source ∉ seedKeys inserted → ∀ id,
      remoteOf store' source id = remoteOf store source id :=
    fun source hnew id => remoteOf_of_other_seeds hseeds hinsert hnew id
  obtain ⟨paths, hstore⟩ := foldlM_insertSeed hinsert
  have hobserved : store'.observed = observeSeeds store.observed inserted := by rw [hstore]
  have hjournals : store'.journals = store.journals := by rw [hstore]
  -- A source with a head is not among the new ones.
  have hold : ∀ source, store.observed.lookup source ≠ none → source ∉ seedKeys inserted := by
    intro source hhead hmem
    obtain ⟨seed, hseed, rfl⟩ := List.mem_map.mp hmem
    exact hhead (hseeds.new seed hseed)
  refine ⟨h.headed.insertSeeds hinsert, ?_, ?_, ?_, ?_⟩
  · intro record hmem
    have hlookup : store'.observed.lookup record.key = some record :=
      KeyedTable.lookup_eq_some.mpr ⟨hmem, rfl⟩
    rw [hobserved] at hlookup
    by_cases hnew : record.key ∈ seedKeys inserted
    · obtain ⟨seed, hseed, hkey⟩ := List.mem_map.mp hnew
      rw [← hkey, lookup_observeSeeds_mem hseeds.nodup hseed] at hlookup
      cases hlookup
      obtain ⟨paths, hvalid, hmode, hsorted⟩ := origin_of_seeds hseeds seed hseed
      have hnone : ∀ id, store.selectGenerationPath seed.seed.observed.key id = none := by
        intro id
        refine Option.eq_none_iff_forall_ne_some.mpr fun path hpath => ?_
        obtain ⟨row, hrow, hsource, -, -⟩ := selectGenerationPath_eq_some.mp hpath
        exact h.headed row hrow (hsource ▸ hseeds.new seed hseed)
      dsimp only
      rw [hmode]
      refine hasDigest_of_seed hvalid fun id identity => ?_
      have hview := remoteOf_of_seed hseeds hinsert hseed hnone id identity
      rw [hsorted] at hview
      simp only [byProjection, List.mem_insertionSort] at hview
      exact hview
    · rw [lookup_observeSeeds hnew] at hlookup
      exact (h.heads record (KeyedTable.lookup_eq_some.mp hlookup).1).congr
        (hother record.key hnew)
  · rw [hjournals]
    intro journal hmem hactive
    obtain ⟨record, hhead, -⟩ := h.mode journal hmem hactive
    have hnew := hold journal.source (by rw [hhead]; exact fun h => by cases h)
    exact (h.reserved journal hmem hactive).congr
      (deliverAll_congr (hother journal.source hnew) _)
  · rw [hjournals]
    intro journal hmem hactive
    obtain ⟨record, hhead, hmode⟩ := h.mode journal hmem hactive
    have hnew := hold journal.source (by rw [hhead]; exact fun h => by cases h)
    rw [hobserved, lookup_observeSeeds hnew]
    exact ⟨record, hhead, hmode⟩
  · rw [hjournals]
    exact h.fits

theorem RemoteSound.reset {source : SourceKey} (h : RemoteSound codec store)
    (hresets : Resets store source) : RemoteSound codec { store with
      journals := store.journals.eraseWhere fun journal =>
        journal.source = source && !journal.active
      observed := store.observed.eraseWhere fun record => record.key = source
      paths := store.paths.eraseWhere fun row => row.source = source } := by
  have hview : ∀ other id, other ≠ source → remoteOf { store with
      journals := store.journals.eraseWhere fun journal =>
        journal.source = source && !journal.active
      observed := store.observed.eraseWhere fun record => record.key = source
      paths := store.paths.eraseWhere fun row => row.source = source } other id =
        remoteOf store other id := by
    intro other id hne
    rw [remoteOf_of_erase (p := fun other _ => decide (other = source)) rfl, if_neg]
    exact fun heq => hne (of_decide_eq_true heq)
  have hobserved : ∀ other, other ≠ source →
      (store.observed.eraseWhere fun record => record.key = source).lookup other =
        store.observed.lookup other := by
    intro other hne
    refine KeyedTable.lookup_eraseWhere_eq fun record _ hkey => decide_eq_false ?_
    exact fun heq => hne (hkey.symm.trans heq)
  -- No journal of the mount is active.
  have hactive : ∀ journal ∈ store.journals.rows, journal.active = true →
      journal.source ≠ source := by
    intro journal hmem hactive hsource
    have hidle := hresets.idle journal hmem (congrArg Prod.fst hsource)
    exact Bool.eq_false_iff.mp hidle hactive
  refine ⟨?_, ?_, ?_, ?_, ?_⟩
  · intro row hrow
    obtain ⟨hmem, hkept⟩ := KeyedTable.mem_eraseWhere.mp hrow
    change (store.observed.eraseWhere _).lookup row.source ≠ none
    rw [hobserved row.source (of_decide_eq_false hkept)]
    exact h.headed row hmem
  · intro record hrow
    obtain ⟨hmem, hkept⟩ := KeyedTable.mem_eraseWhere.mp hrow
    exact (h.heads record hmem).congr fun id => hview record.key id (of_decide_eq_false hkept)
  · intro journal hrow hjournal
    have hmem := (KeyedTable.mem_eraseWhere.mp hrow).1
    exact (h.reserved journal hmem hjournal).congr
      (deliverAll_congr (fun id => hview journal.source id (hactive journal hmem hjournal)) _)
  · intro journal hrow hjournal
    have hmem := (KeyedTable.mem_eraseWhere.mp hrow).1
    obtain ⟨record, hhead, hmode⟩ := h.mode journal hmem hjournal
    exact ⟨record, (hobserved journal.source (hactive journal hmem hjournal)).trans hhead, hmode⟩
  · exact fun journal hrow => h.fits journal (KeyedTable.mem_eraseWhere.mp hrow).1

theorem RemoteSound.reserve {prepared : PreparedGenerationApplyV3} (h : RemoteSound codec store)
    (hreserves : Reserves codec store prepared)
    (hdigest : HasDigest codec .generationDeltaV1
      (deliverAll (remoteOf store (sourceOf prepared.apply.delta)) prepared.apply.delta.entries)
      prepared.apply.delta.targetInventorySha256) :
    RemoteSound codec (store.putJournal (newJournal prepared)) := by
  obtain ⟨record, hhead, hmode, -⟩ := hreserves.base
  refine ⟨h.headed, h.heads, ?_, ?_, ?_⟩
  · intro journal hmem hactive
    rcases mem_put_cases hmem with rfl | ⟨hmem, -⟩
    · exact hdigest
    · exact h.reserved journal hmem hactive
  · intro journal hmem hactive
    rcases mem_put_cases hmem with rfl | ⟨hmem, -⟩
    · exact ⟨record, hhead, hmode⟩
    · exact h.mode journal hmem hactive
  · intro journal hmem hactive
    rcases mem_put_cases hmem with rfl | ⟨hmem, -⟩
    · exact fun pair hpair => nomatch hpair
    · exact h.fits journal hmem hactive

/-- The entries of a journal that completes stand with outcomes that fit. -/
theorem fits_zip {journal : StoredGenerationApply}
    (houtcomes : journal.outcomes.map Prod.fst = List.range journal.delta.entries.length)
    (hfits : ∀ pair ∈ journal.outcomes, ∀ entry ∈ journal.delta.entries[pair.1]?,
      Fits entry pair.2) :
    ∀ pair ∈ journal.delta.entries.zip (journal.outcomes.map Prod.snd), Fits pair.1 pair.2 := by
  intro pair hpair
  obtain ⟨index, hindex, rfl⟩ := List.getElem_of_mem hpair
  have hlength : index < journal.outcomes.length := by
    have hzip := hindex
    rw [List.length_zip, List.length_map] at hzip
    exact (Nat.lt_min.mp hzip).2
  have hentries : index < journal.delta.entries.length := by
    have hzip := hindex
    rw [List.length_zip] at hzip
    exact (Nat.lt_min.mp hzip).1
  have hfirst : (journal.outcomes[index]).1 = index := by
    have hget : (journal.outcomes.map Prod.fst)[index]? = some index := by
      rw [houtcomes, List.getElem?_range hentries]
    rw [List.getElem?_map, List.getElem?_eq_getElem hlength] at hget
    exact Option.some.inj hget
  rw [List.getElem_zip, List.getElem_map]
  refine hfits _ (List.getElem_mem hlength) _ ?_
  rw [hfirst]
  exact List.getElem?_eq_getElem hentries

theorem RemoteSound.complete {deltaId completedAt : Text} {journal : StoredGenerationApply}
    {record : ObservedGenerationRecordV2} {middle : GenerationStore}
    (h : RemoteSound codec store) (hone : OneActive store)
    (hcompletes : Completes store deltaId completedAt journal record middle store') :
    RemoteSound codec store' := by
  have hfound : journal ∈ store.journals.rows :=
    (KeyedTable.lookup_eq_some.mp hcompletes.found).1
  have hactive : journal.active = true := decide_eq_true hcompletes.active
  have hrecord : record ∈ store.observed.rows ∧ record.key = journal.source :=
    KeyedTable.lookup_eq_some.mp hcompletes.observed
  have hkey : (advance journal completedAt record).key = journal.source := hrecord.2
  obtain ⟨record', hhead', hmode⟩ := h.mode journal hfound hactive
  have hmode : record.refreshMode = .generationDeltaV1 := by
    rw [hcompletes.observed] at hhead'
    cases hhead'
    exact hmode
  have hzip : (journal.delta.entries.zip (journal.outcomes.map Prod.snd)).map Prod.fst =
      journal.delta.entries := by
    refine List.map_fst_zip ?_
    have hlength := congrArg List.length hcompletes.outcomes
    rw [List.length_map, List.length_range] at hlength
    rw [List.length_map, hlength]
  have hview : ∀ source id, remoteOf store' source id =
      if journal.source = source then
        deliverAll (remoteOf store source) journal.delta.entries id
      else remoteOf store source id := by
    intro source id
    have hmiddle := remoteOf_of_completeEntries hcompletes.entries
      (fits_zip hcompletes.outcomes (h.fits journal hfound hactive)) source id
    rw [hzip] at hmiddle
    rw [hcompletes.result]
    exact hmiddle
  have hother : ∀ other ∈ store.journals.rows, other.active = true →
      other.key ≠ journal.key → other.source ≠ journal.source := by
    intro other hmem hother hne hsource
    have heq := hone other hmem journal hfound hother hactive (congrArg Prod.fst hsource)
    exact hne (congrArg _ heq)
  -- The other active journals are those of before.
  have hrows : ∀ other ∈ store'.journals.rows, other.active = true →
      other ∈ store.journals.rows ∧ other.source ≠ journal.source := by
    intro other hmem hactive'
    rw [hcompletes.result] at hmem
    rcases mem_put_cases hmem with rfl | ⟨hmem, hne⟩
    · exact nomatch hactive'
    · exact ⟨hmem, hother other hmem hactive' hne⟩
  refine ⟨?_, ?_, ?_, ?_, ?_⟩
  · have hmiddle := h.headed.completeEntries hcompletes.entries
    obtain ⟨paths, hpaths⟩ := completeEntries_only hcompletes.entries
    have hobserved : middle.observed = store.observed := by rw [hpaths]
    rw [hcompletes.result, ← hobserved]
    exact hmiddle.observe
  · intro record' hmem
    rw [hcompletes.result] at hmem
    rcases KeyedTable.mem_put.mp hmem with rfl | ⟨hmem, hne⟩
    · have hmode' : (advance journal completedAt record).refreshMode = .generationDeltaV1 := hmode
      rw [hmode', hkey]
      refine (h.reserved journal hfound hactive).congr fun id => ?_
      rw [hview, if_pos rfl]
    · refine (h.heads record' hmem).congr fun id => ?_
      rw [hview, if_neg (fun heq => hne (heq.symm.trans hkey.symm))]
  · intro other hmem hactive'
    obtain ⟨hmem, hne⟩ := hrows other hmem hactive'
    refine (h.reserved other hmem hactive').congr (deliverAll_congr (fun id => ?_) _)
    rw [hview, if_neg (Ne.symm hne)]
  · intro other hmem hactive'
    obtain ⟨hmem, hne⟩ := hrows other hmem hactive'
    obtain ⟨record', hhead, hmode⟩ := h.mode other hmem hactive'
    refine ⟨record', ?_, hmode⟩
    rw [hcompletes.result]
    exact (KeyedTable.lookup_put_ne _ (hkey.trans_ne (Ne.symm hne))).trans hhead
  · intro other hmem hactive'
    exact h.fits other (hrows other hmem hactive').1 hactive'

/-- A row that says of its projection what the view says of it already. -/
theorem remoteOf_of_upsert {row : GenerationPathRow} {crossed : String}
    (h : store.upsertPath row crossed = .ok store')
    (hsame : row.path.remoteIdentity = remoteOf store row.source row.path.projectionId)
    (source : SourceKey) (id : ProjectionId) :
    remoteOf store' source id = remoteOf store source id := by
  obtain ⟨hplace, hexisting⟩ := upsertPath_ok h
  rw [remoteOf_of_place hplace hexisting]
  split
  · rename_i hboth
    rw [hsame, hboth.1, hboth.2]
  · rfl

theorem mem_entryOf {deltaId : Text} {entryIndex : Nat} {journal : StoredGenerationApply}
    {entry : GenerationDeltaEntry} (hfound : store.journals.lookup deltaId = some journal)
    (hentry : journal.delta.entries[entryIndex]? = some entry) :
    (journal, entry) ∈ entryOf store deltaId entryIndex := by
  rw [entryOf, hfound, Option.bind_some, hentry]
  rfl

theorem RemoteSound.markConflict {deltaId : Text} {entryIndex : Nat}
    {update : GenerationInodeEvidenceConflictUpdate} {journal : StoredGenerationApply}
    {entry : GenerationDeltaEntry} {old : GenerationFileIdentity}
    {evidence : GenerationInodeEvidenceRecord} {middle : GenerationStore}
    (h : RemoteSound codec store) (hcurrent : Current store deltaId entryIndex)
    (hmarks : MarksConflict store deltaId entryIndex update journal entry old evidence middle
      store') : RemoteSound codec store' := by
  obtain ⟨hplace, -⟩ := upsertPath_ok hmarks.path
  obtain ⟨paths, hmiddle⟩ := onlyPaths_of_place hplace
  obtain ⟨outcome, hresult⟩ := hmarks.result
  have hview := remoteOf_of_upsert hmarks.path (by
    have hmem : old ∈ entry.old.toList ++ entry.new.toList := by
      rw [hmarks.oldIdentity]
      exact List.mem_append_left _ (List.mem_singleton_self old)
    have hnow := hcurrent _ (mem_entryOf hmarks.found hmarks.atIndex) old hmem
    exact (remoteIdentity_of_conflicted rfl).trans hnow.symm)
  have hobserved : middle.observed = store.observed := by rw [hmiddle]
  have hrewrites : Rewrites journal _ := rewrites_converted entryIndex outcome
  have hheaded : Headed middle := h.headed.place hplace
  refine h.rewrite ?_ ?_ ?_ ?_ (KeyedTable.lookup_eq_some.mp hmarks.found).1 hrewrites ?_
  · rw [hresult]
    exact hheaded
  · rw [hresult]
    exact hview
  · rw [hresult]
    exact hobserved
  · rw [hresult]
  · exact fun hactive => absurd hmarks.completed (of_decide_eq_true hactive)

theorem RemoteSound.markResolved {deltaId : Text} {entryIndex : Nat}
    {resolution : GenerationInodeEvidenceResolution} {journal : StoredGenerationApply}
    {entry : GenerationDeltaEntry} {new : GenerationFileIdentity}
    {evidence : GenerationInodeEvidenceRecord} {middle : GenerationStore}
    (h : RemoteSound codec store) (hcurrent : Current store deltaId entryIndex)
    (hmarks : MarksResolved store deltaId entryIndex resolution journal entry new evidence
      middle store') : RemoteSound codec store' := by
  obtain ⟨hplace, -⟩ := upsertPath_ok hmarks.path
  obtain ⟨paths, hmiddle⟩ := onlyPaths_of_place hplace
  have hview := remoteOf_of_upsert hmarks.path (by
    have hmem : new ∈ entry.old.toList ++ entry.new.toList := by
      rw [hmarks.newIdentity]
      exact List.mem_append_right _ (List.mem_singleton_self new)
    have hnow := hcurrent _ (mem_entryOf hmarks.found hmarks.atIndex) new hmem
    have hdirty : GenerationPathState.dirty ≠ .conflicted := nofun
    rw [remoteIdentity_of_ne_conflicted hdirty]
    exact (hnow.trans hmarks.newIdentity).symm)
  have hobserved : middle.observed = store.observed := by rw [hmiddle]
  have hrewrites : Rewrites journal _ := rewrites_converted entryIndex .merged
  have hheaded : Headed middle := h.headed.place hplace
  refine h.rewrite ?_ ?_ ?_ ?_ (KeyedTable.lookup_eq_some.mp hmarks.found).1 hrewrites ?_
  · rw [hmarks.result]
    exact hheaded
  · rw [hmarks.result]
    exact hview
  · rw [hmarks.result]
    exact hobserved
  · rw [hmarks.result]
  · exact fun hactive => absurd hmarks.completed (of_decide_eq_true hactive)

/-- A journal is rewritten and nothing else; its outcomes fit as before. -/
theorem RemoteSound.putJournal {deltaId : Text} {journal journal' : StoredGenerationApply}
    (h : RemoteSound codec store) (hfound : store.journals.lookup deltaId = some journal)
    (hrewrites : Rewrites journal journal')
    (hfits : ∀ pair ∈ journal'.outcomes, pair ∈ journal.outcomes ∨
      ∀ entry ∈ journal.delta.entries[pair.1]?, Fits entry pair.2) :
    RemoteSound codec (store.putJournal journal') := by
  have hmem := (KeyedTable.lookup_eq_some.mp hfound).1
  refine h.rewrite h.headed (fun _ _ => rfl) rfl rfl hmem hrewrites ?_
  intro hactive pair hpair
  rcases hfits pair hpair with hbefore | hnew
  · exact h.fits journal hmem hactive pair hbefore
  · exact hnew

theorem RemoteSound.run (h : RemoteSound codec store) (hone : OneActive store)
    (hpromised : Promised codec store call) (htimely : Timely store call)
    (hrun : call.run codec store = .ok store') : RemoteSound codec store' := by
  cases call with
  | seed seeds =>
      obtain ⟨inserted, hseeds, hinsert⟩ := seedObservedGenerationsV2_ok hrun
      exact h.seed hseeds hinsert
  | reset source =>
      obtain ⟨hresets, rfl⟩ := resetObservedGenerationSource_ok hrun
      exact h.reset hresets
  | reserve prepared =>
      obtain ⟨journal, hreserve⟩ := reserve_run hrun
      rcases reserveGenerationApplyV3_ok hreserve with ⟨-, -, rfl⟩ | ⟨hreserves, -, rfl⟩
      · exact h
      · have hvalid := (hpromised hreserves.new).2
        cases hpaths : validateResultingInventory codec store (sourceOf prepared.apply.delta).1
            prepared.apply.delta with
        | error error =>
            rw [hpaths] at hvalid
            exact nomatch hvalid
        | ok paths => exact h.reserve hreserves (hasDigest_of_validateResultingInventory hpaths)
  | start deltaId updatedAt =>
      rcases markGenerationApplyStarted_ok hrun with rfl | ⟨journal, hfound, hactive, rfl⟩
      · exact h
      · exact h.putJournal hfound (rewrites_started updatedAt hactive) fun _ => .inl
  | record deltaId entryIndex outcome updatedAt =>
      rcases recordGenerationApplyOutcome_ok hrun with
        rfl | ⟨journal, hfound, hactive, hbound, hnew, rfl⟩
      · exact h
      · refine h.putJournal hfound (rewrites_recorded outcome updatedAt hactive hbound hnew) ?_
        intro pair hpair
        rcases mem_insertOutcome.mp hpair with rfl | hbefore
        · exact .inr fun entry hentry => hpromised _ (mem_entryOf hfound hentry)
        · exact .inl hbefore
  | acknowledge deltaId receiptSha256 acknowledgedAt =>
      obtain ⟨journal, hfound, hstatus, hrequired, -, ⟨-, rfl⟩ | ⟨-, rfl⟩⟩ :=
        markGenerationAcknowledged_ok hrun
      · exact h
      · exact h.putJournal hfound (rewrites_acknowledged acknowledgedAt hstatus hrequired)
          fun _ => .inl
  | complete deltaId completedAt =>
      rcases completeGenerationApply_ok hrun with rfl | ⟨journal, record, middle, hcompletes⟩
      · exact h
      · exact h.complete hone hcompletes
  | recordEvidence evidence =>
      obtain ⟨table, rfl⟩ := recordGenerationInodeEvidence_ok hrun
      exact h.quiet rfl rfl rfl
  | markConflict deltaId entryIndex update =>
      obtain ⟨journal, entry, old, evidence, middle, hmarks⟩ :=
        markGenerationInodeEvidenceConflict_ok hrun
      exact h.markConflict htimely hmarks
  | markResolved deltaId entryIndex resolution =>
      obtain ⟨journal, entry, new, evidence, middle, hmarks⟩ :=
        markGenerationInodeEvidenceResolved_ok hrun
      exact h.markResolved htimely hmarks
  | removeEvidence deltaId entryIndex =>
      obtain ⟨table, rfl⟩ := removeGenerationInodeEvidence_ok hrun
      exact h.quiet rfl rfl rfl
  | forgetSelection deltaId =>
      obtain ⟨journal, hfound, -, rfl⟩ := forgetSelection_ok hrun
      exact h.putJournal hfound (rewrites_forgotten journal) fun _ => .inl

theorem remoteSound_runCalls {calls : List StoreCall} (h : RemoteSound codec store)
    (hjournals : JournalsSound store) (hpromised : Throughout codec (Promised codec) store calls)
    (htimely : Throughout codec Timely store calls) :
    RemoteSound codec (runCalls codec store calls) := by
  induction calls generalizing store with
  | nil => exact h
  | cons call calls ih =>
      obtain ⟨hcall, hpromised⟩ := hpromised
      obtain ⟨htime, htimely⟩ := htimely
      have hafter : RemoteSound codec (after codec store call) ∧
          JournalsSound (after codec store call) := by
        rcases after_cases codec store call with hrun | hsame
        · exact ⟨h.run hjournals.oneActive hcall htime hrun, hjournals.effect (effect_of_run hrun)⟩
        · rw [hsame]
          exact ⟨h, hjournals⟩
      exact ih hafter.1 hafter.2 hpromised htimely

/-! ## The view and the head -/

/-- In every run whose new deltas pass their checks and whose outcomes are those of their
entries: where no late write is marked on superseded evidence, the identities of every
source with a head have the digest of the head. -/
theorem remote_matches_head (codec : Codec) (mounts : List MountId) (calls : List StoreCall)
    (hpromised : Throughout codec (Promised codec) (fresh mounts) calls)
    (htimely : Throughout codec Timely (fresh mounts) calls) :
    ∀ source record, (runCalls codec (fresh mounts) calls).observed.lookup source = some record →
      codec.inventorySha256 record.refreshMode
        (remoteIdentities (runCalls codec (fresh mounts) calls) source) =
          .ok record.observed.inventorySha256 := by
  intro source record hhead
  obtain ⟨hmem, rfl⟩ := KeyedTable.lookup_eq_some.mp hhead
  have hsound := remoteSound_runCalls (remoteSound_fresh codec mounts)
    (journalsSound_fresh mounts) hpromised htimely
  obtain ⟨table, htable, hdigest⟩ := hsound.heads record hmem
  rw [remoteIdentities_eq_valuesOf htable]
  exact hdigest

/-! ## A late write to superseded evidence -/

def sampleIdentity (version : String) : GenerationFileIdentity where
  projectionId := ⟨"p".toList⟩
  logicalPath := ⟨"a.md".toList⟩
  contentVersionId := ⟨version.toList⟩
  contentSha256 := "sha256:".toList ++ List.replicate 64 'a'
  byteLength := 3

def samplePath (generation : String) (identity : GenerationFileIdentity) :
    GenerationPathRecord where
  mountId := sampleMount
  projectionId := identity.projectionId
  logicalPath := identity.logicalPath
  localLogicalPath := identity.logicalPath
  baseGenerationId := ⟨generation.toList⟩
  baseIdentity := some identity
  basePayload := none
  conflictPayload := none
  state := .clean
  incomingIdentity := none
  updatedAt := sampleTime

def sampleEvidence (deltaId : String) (identity : GenerationFileIdentity) :
    GenerationInodeEvidenceRecord where
  deltaId := deltaId.toList
  entryIndex := 0
  mountId := sampleMount
  logicalPath := identity.logicalPath
  evidenceName := "evidence".toList
  capturedSha256 := identity.contentSha256
  capturedByteLength := identity.byteLength
  visibleEvidence := none
  basePayload := none
  resolvedAt := none
  createdAt := sampleTime

def sampleUpdate : GenerationInodeEvidenceConflictUpdate where
  localSha256 := "sha256:".toList ++ List.replicate 64 'b'
  capturedSha256 := "sha256:".toList ++ List.replicate 64 'b'
  capturedByteLength := 4
  visibleEvidence := none
  updatedAt := sampleTime

def lateDigests : List (Nat × Nat) :=
  [(165, 0xfe7ec9f49d413b779acaaa1b19c48d7cc6cbb04dfa87805c3df31a91b2791606),
    (166, 0x46eb71354c6f2de440cc23e75afae8eed3a1b6d767a82552a535b6b3dd48b6b4),
    (167, 0x36b19354daffe117af324a425a4dfc16a82d215403da095d2d64d154513ae1d7),
    (342, 0x2c69fe28d50902db01a8d00c2446501f3c5d24f4fc05fa25e7670a61663f1770),
    (344, 0xd4d876ecdc9cb2a8acebea97a74eb4b45cb633cc3133d1f1bc728e5f73b38dcc),
    (479, 0x9abab1178f0eff757ad26ccef79933c03e93b9ddf8e96df664df15a6d2e4c74d),
    (483, 0xf95887704cb15a7fb81a74346c967f9243272c00909d89430aaffaa91912f247)]

/-- One file goes from a version to the next, and the displaced one is kept. -/
def firstDelivery : List StoreCall :=
  [sampleSeed (sampleCodec lateDigests) "g1" [samplePath "g1" (sampleIdentity "v")],
    sampleReserve (sampleCodec lateDigests) (sampleDelta (sampleCodec lateDigests) "d1" "g1" "g2"
      [⟨some (sampleIdentity "v"), some (sampleIdentity "vv")⟩] [sampleIdentity "vv"]),
    .record "d1".toList 0 .applied sampleTime,
    .recordEvidence (sampleEvidence "d1" (sampleIdentity "v")),
    .complete "d1".toList sampleTime]

/-- The file goes to a third version, and then the one that was displaced first is
written to. -/
def lateWrite : List StoreCall :=
  firstDelivery ++
    [sampleReserve (sampleCodec lateDigests)
        (sampleDelta (sampleCodec lateDigests) "d22" "g2" "g30"
          [⟨some (sampleIdentity "vv"), some (sampleIdentity "vvv")⟩] [sampleIdentity "vvv"]),
      .record "d22".toList 0 .applied sampleTime,
      .complete "d22".toList sampleTime,
      .markConflict "d1".toList 0 sampleUpdate]

/-- A late write that comes in time. -/
def timelyWrite : List StoreCall :=
  firstDelivery ++ [.markConflict "d1".toList 0 sampleUpdate]

/-- What a run is on the sample mount. -/
def sampleRun (calls : List StoreCall) : GenerationStore :=
  runCalls (sampleCodec lateDigests) (fresh [sampleMount]) calls

theorem remote_matches_head_timely_write :
    Throughout (sampleCodec lateDigests) (Promised (sampleCodec lateDigests))
      (fresh [sampleMount]) timelyWrite ∧
    Throughout (sampleCodec lateDigests) Timely (fresh [sampleMount]) timelyWrite ∧
    ∃ record, (sampleRun timelyWrite).observed.lookup (sampleMount, ⟨"s".toList⟩) = some record ∧
      (sampleCodec lateDigests).inventorySha256 record.refreshMode
        (remoteIdentities (sampleRun timelyWrite) (sampleMount, ⟨"s".toList⟩)) =
          .ok record.observed.inventorySha256 := by
  have hpromised : Throughout (sampleCodec lateDigests) (Promised (sampleCodec lateDigests))
      (fresh [sampleMount]) timelyWrite := by decide +kernel
  have htimely : Throughout (sampleCodec lateDigests) Timely (fresh [sampleMount])
      timelyWrite := by decide +kernel
  have hobserved : ((sampleRun timelyWrite).observed.lookup
      (sampleMount, ⟨"s".toList⟩)).isSome = true := by decide +kernel
  obtain ⟨record, hrecord⟩ := Option.isSome_iff_exists.mp hobserved
  exact ⟨hpromised, htimely, record, hrecord,
    remote_matches_head (sampleCodec lateDigests) [sampleMount] timelyWrite hpromised htimely _ _
      hrecord⟩

/-- The second version is back, under the head of the third. -/
theorem late_write_restores_old_identity :
    Throughout (sampleCodec lateDigests) (Promised (sampleCodec lateDigests))
      (fresh [sampleMount]) lateWrite ∧
    remoteIdentities (sampleRun lateWrite) (sampleMount, ⟨"s".toList⟩) =
      [sampleIdentity "vv"] ∧
    ((sampleRun lateWrite).observed.lookup (sampleMount, ⟨"s".toList⟩)).map
        (fun record => record.observed.inventorySha256) =
      some (sampleInventory (sampleCodec lateDigests) [sampleIdentity "vvv"]) ∧
    (sampleCodec lateDigests).canonicalTargetInventorySha256 [sampleIdentity "vv"] ≠
      .ok (sampleInventory (sampleCodec lateDigests) [sampleIdentity "vvv"]) := by
  decide +kernel

end Locality.Delivery
