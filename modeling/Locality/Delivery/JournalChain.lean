/-
  Delivery/JournalChain.lean --- the journals of a source form one chain.

  The lineage of a source is read off the states of a run: the generation it was seeded
  with, and the deltas that were completed since.  A step appends to it at most the delta
  that it completes, which starts where the head was and ends where the head is.
-/
import Locality.Delivery.StoreRun

set_option autoImplicit false

namespace Locality.Delivery

open Locality.Core Locality.Foundation Locality.Protocol GenerationStore

/-! ## Lineages -/

/-- What became of a source since it was seeded. -/
structure Lineage where
  seed : SourceGenerationId
  completed : List GenerationDelta

/-- The deltas of a source that are completed after a step and were not before it. -/
def newlyCompleted (before later : GenerationStore) (source : SourceKey) :
    List GenerationDelta :=
  (later.journals.rows.filter fun journal =>
    decide (journal.source = source ∧ journal.status = .completed) &&
      !(before.journals.lookup journal.key).any fun journal =>
        decide (journal.status = .completed)).map StoredGenerationApply.delta

/-- The lineage of a source after a step, from the one before it. -/
def Lineage.step (before later : GenerationStore) (source : SourceKey)
    (lineage : Option Lineage) : Option Lineage :=
  match before.observed.lookup source, later.observed.lookup source with
  | _, none => none
  | none, some record => some ⟨record.observed.generationId, []⟩
  | some _, some _ => lineage.map fun lineage =>
      ⟨lineage.seed, lineage.completed ++ newlyCompleted before later source⟩

/-- The lineage of a source after calls, from the one before them. -/
def lineageAfter (codec : Codec) (source : SourceKey) :
    GenerationStore → Option Lineage → List StoreCall → Option Lineage
  | _, lineage, [] => lineage
  | store, lineage, call :: calls =>
      lineageAfter codec source (after codec store call)
        (Lineage.step store (after codec store call) source lineage) calls

/-- Each delta starts at the generation that the one before it ends at. -/
def Chain : SourceGenerationId → List GenerationDelta → SourceGenerationId → Prop
  | base, [], target => base = target
  | base, delta :: deltas, target =>
      delta.baseGenerationId = base ∧ Chain delta.targetGenerationId deltas target

theorem Chain.concat {base target : SourceGenerationId} {deltas : List GenerationDelta}
    {delta : GenerationDelta} (h : Chain base deltas target)
    (hdelta : delta.baseGenerationId = target) :
    Chain base (deltas ++ [delta]) delta.targetGenerationId := by
  induction deltas generalizing base with
  | nil => exact ⟨hdelta.trans (Eq.symm h), rfl⟩
  | cons first deltas ih => exact ⟨h.1, ih h.2⟩

/-! ## What holds of every store -/

/-- No two journals of a mount are active. -/
def OneActive (store : GenerationStore) : Prop :=
  ∀ journal ∈ store.journals.rows, ∀ journal' ∈ store.journals.rows,
    journal.active = true → journal'.active = true → journal.mountId = journal'.mountId →
      journal = journal'

/-- The lineage lists the completed deltas of the source, each once, and leads from its
seed to its head. -/
structure Continues (store : GenerationStore) (source : SourceKey)
    (record : ObservedGenerationRecordV2) (lineage : Lineage) : Prop where
  chain : Chain lineage.seed lineage.completed record.observed.generationId
  once : (lineage.completed.map GenerationDelta.deltaId).Nodup
  mem : ∀ delta, delta ∈ lineage.completed ↔ ∃ journal ∈ store.journals.rows,
    journal.source = source ∧ journal.status = .completed ∧ journal.delta = delta

/-- The lineage of a source: there is one exactly where the source has a head. -/
def Follows (store : GenerationStore) (source : SourceKey) (lineage : Option Lineage) : Prop :=
  match store.observed.lookup source with
  | none => lineage = none ∧ ∀ journal ∈ store.journals.rows, journal.source ≠ source
  | some record => ∃ l, lineage = some l ∧ Continues store source record l

/-- A receipt is acknowledged only where that was required of a completed journal. -/
def AcknowledgedRightly (store : GenerationStore) : Prop :=
  ∀ journal ∈ store.journals.rows, journal.acknowledgedAt ≠ none →
    journal.status = .completed ∧ journal.acknowledgmentRequired = true

structure JournalsSound (store : GenerationStore) : Prop where
  oneActive : OneActive store
  recorded : ∀ journal ∈ store.journals.rows, WellRecorded journal
  acknowledged : AcknowledgedRightly store

variable {codec : Codec} {call : StoreCall} {store store' : GenerationStore}
  {source : SourceKey}

theorem journalsSound_fresh (mounts : List MountId) : JournalsSound (fresh mounts) where
  oneActive := fun _ h => nomatch h
  recorded := fun _ h => nomatch h
  acknowledged := fun _ h => nomatch h

theorem mem_of_lookup {journal : StoredGenerationApply}
    (h : store.journals.lookup journal.key = some journal) : journal ∈ store.journals.rows :=
  (KeyedTable.lookup_eq_some.mp h).1

/-- The journals of a table with one row rewritten: the new row, or others of before. -/
theorem mem_put_cases {table : KeyedTable StoredGenerationApply.key}
    {journal' journal : StoredGenerationApply} (h : journal ∈ (table.put journal').rows) :
    journal = journal' ∨ journal ∈ table.rows ∧ journal.key ≠ journal'.key :=
  KeyedTable.mem_put.mp h

theorem OneActive.put {journal journal' : StoredGenerationApply} (h : OneActive store)
    (hmem : journal ∈ store.journals.rows) (hactive : journal'.active = true → journal.active = true)
    (hmount : journal'.mountId = journal.mountId) (hkey : journal'.key = journal.key)
    (hjournals : store'.journals = store.journals.put journal') : OneActive store' := by
  intro first hfirst second hsecond hactive₁ hactive₂ hsame
  rw [hjournals] at hfirst hsecond
  rcases mem_put_cases hfirst with rfl | ⟨hmem₁, hne₁⟩
  · rcases mem_put_cases hsecond with rfl | ⟨hmem₂, hne₂⟩
    · rfl
    · have heq := h journal hmem second hmem₂ (hactive hactive₁) hactive₂
        (hmount.symm.trans hsame)
      exact absurd (heq ▸ hkey.symm) hne₂
  · rcases mem_put_cases hsecond with rfl | ⟨hmem₂, -⟩
    · have heq := h first hmem₁ journal hmem hactive₁ (hactive hactive₂)
        (hsame.trans hmount)
      exact absurd (heq ▸ hkey.symm) hne₁
    · exact h first hmem₁ second hmem₂ hactive₁ hactive₂ hsame

theorem JournalsSound.effect (h : JournalsSound store)
    (heffect : Effect codec call store store') : JournalsSound store' := by
  cases heffect with
  | quiet journals _ =>
      refine ⟨?_, ?_, ?_⟩
      · unfold OneActive
        rw [journals]
        exact h.oneActive
      · rw [journals]
        exact h.recorded
      · unfold AcknowledgedRightly
        rw [journals]
        exact h.acknowledged
  | seeded _ _ _ journals _ =>
      refine ⟨?_, ?_, ?_⟩
      · unfold OneActive
        rw [journals]
        exact h.oneActive
      · rw [journals]
        exact h.recorded
      · unfold AcknowledgedRightly
        rw [journals]
        exact h.acknowledged
  | reset _ _ _ journals _ =>
      have hsub : ∀ journal ∈ store'.journals.rows, journal ∈ store.journals.rows := by
        rw [journals]
        exact fun journal hmem => (KeyedTable.mem_eraseWhere.mp hmem).1
      exact ⟨fun first hfirst second hsecond =>
          h.oneActive first (hsub first hfirst) second (hsub second hsecond),
        fun journal hmem => h.recorded journal (hsub journal hmem),
        fun journal hmem => h.acknowledged journal (hsub journal hmem)⟩
  | reserved prepared reserves journals _ =>
      have hidle := activeJournal_eq_none.mp reserves.idle
      refine ⟨?_, ?_, ?_⟩
      · intro first hfirst second hsecond hactive₁ hactive₂ hsame
        rw [journals] at hfirst hsecond
        rcases mem_put_cases hfirst with rfl | ⟨hmem₁, -⟩
        · rcases mem_put_cases hsecond with rfl | ⟨hmem₂, -⟩
          · rfl
          · exact nomatch (hidle second hmem₂ hsame.symm).symm.trans hactive₂
        · rcases mem_put_cases hsecond with rfl | ⟨hmem₂, -⟩
          · exact nomatch (hidle first hmem₁ hsame).symm.trans hactive₁
          · exact h.oneActive first hmem₁ second hmem₂ hactive₁ hactive₂ hsame
      · intro journal hmem
        rw [journals] at hmem
        rcases mem_put_cases hmem with rfl | ⟨hmem, -⟩
        · exact ⟨.nil, fun _ h => (by cases h), fun h => by cases h⟩
        · exact h.recorded journal hmem
      · intro journal hmem hacknowledged
        rw [journals] at hmem
        rcases mem_put_cases hmem with rfl | ⟨hmem, -⟩
        · exact absurd rfl hacknowledged
        · exact h.acknowledged journal hmem hacknowledged
  | rewritten journal journal' found rewrites _ journals _ =>
      have hfound := mem_of_lookup found
      refine ⟨?_, ?_, ?_⟩
      · exact h.oneActive.put hfound (fun hactive => rewrites.active ▸ hactive)
          rewrites.persists.mountId rewrites.persists.key journals
      · intro other hmem
        rw [journals] at hmem
        rcases mem_put_cases hmem with rfl | ⟨hmem, -⟩
        · exact rewrites.recorded (h.recorded journal hfound)
        · exact h.recorded other hmem
      · intro other hmem hacknowledged
        rw [journals] at hmem
        rcases mem_put_cases hmem with rfl | ⟨hmem, -⟩
        · have hbefore : journal.status = .completed ∧ journal.acknowledgmentRequired = true := by
            rcases rewrites.acknowledged with hsame | hrightly
            · exact h.acknowledged journal hfound (hsame ▸ hacknowledged)
            · exact hrightly
          exact ⟨rewrites.persists.completed hbefore.1,
            rewrites.persists.required.trans hbefore.2⟩
        · exact h.acknowledged other hmem hacknowledged
  | completed journal record completedAt found active outcomes _ _ journals _ =>
      have hfound := mem_of_lookup found
      refine ⟨?_, ?_, ?_⟩
      · refine h.oneActive.put hfound ?_ ?_ ?_ journals
        · exact fun hactive => nomatch hactive
        · rfl
        · rfl
      · intro other hmem
        rw [journals] at hmem
        rcases mem_put_cases hmem with rfl | ⟨hmem, -⟩
        · have hrecorded := h.recorded journal hfound
          exact ⟨hrecorded.ordered, hrecorded.bounded, fun _ => outcomes⟩
        · exact h.recorded other hmem
      · intro other hmem hacknowledged
        rw [journals] at hmem
        rcases mem_put_cases hmem with rfl | ⟨hmem, -⟩
        · exact ⟨rfl, (h.acknowledged journal hfound hacknowledged).2⟩
        · exact h.acknowledged other hmem hacknowledged

/-! ## The lineage of a source -/

theorem newlyCompleted_eq_nil
    (h : ∀ journal ∈ store'.journals.rows, journal.source = source →
      journal.status = .completed → ∃ before ∈ store.journals.rows,
        before.delta = journal.delta ∧ before.status = .completed) :
    newlyCompleted store store' source = [] := by
  unfold newlyCompleted
  rw [List.map_eq_nil_iff, List.filter_eq_nil_iff]
  intro journal hmem hnew
  obtain ⟨hboth, hnot⟩ := Bool.and_eq_true_iff.mp hnew
  obtain ⟨hsource, hstatus⟩ := of_decide_eq_true hboth
  obtain ⟨before, hbefore, hdelta, hcompleted⟩ := h journal hmem hsource hstatus
  have hkey : before.key = journal.key := congrArg GenerationDelta.deltaId hdelta
  rw [KeyedTable.lookup_eq_some.mpr ⟨hbefore, hkey⟩, Option.any_some,
    decide_eq_true hcompleted] at hnot
  exact nomatch hnot

/-- A step that leaves the head of the source, and of its completed journals adds and
removes none. -/
theorem Follows.keep {lineage : Option Lineage} (h : Follows store source lineage)
    (hobserved : store'.observed.lookup source = store.observed.lookup source)
    (hnone : store.observed.lookup source = none →
      ∀ journal ∈ store'.journals.rows, journal.source = source →
        ∃ before ∈ store.journals.rows, before.source = source)
    (hback : ∀ journal ∈ store'.journals.rows, journal.source = source →
      journal.status = .completed → ∃ before ∈ store.journals.rows,
        before.delta = journal.delta ∧ before.status = .completed)
    (hforth : ∀ journal ∈ store.journals.rows, journal.source = source →
      journal.status = .completed → ∃ later ∈ store'.journals.rows,
        later.delta = journal.delta ∧ later.status = .completed) :
    Follows store' source (Lineage.step store store' source lineage) := by
  have hsource : ∀ {journal journal' : StoredGenerationApply}, journal'.delta = journal.delta →
      journal.source = source → journal'.source = source := by
    intro journal journal' hdelta hsource
    rw [StoredGenerationApply.source, StoredGenerationApply.mountId, hdelta]
    exact hsource
  unfold Follows at h ⊢
  unfold Lineage.step
  rw [hobserved]
  cases hhead : store.observed.lookup source with
  | none =>
      rw [hhead] at h
      refine ⟨rfl, fun journal hmem hsame => ?_⟩
      obtain ⟨before, hbefore, hsame⟩ := hnone hhead journal hmem hsame
      exact h.2 before hbefore hsame
  | some record =>
      rw [hhead] at h
      obtain ⟨l, rfl, hcontinues⟩ := h
      refine ⟨l, ?_, hcontinues.chain, hcontinues.once, fun delta => ?_⟩
      · rw [newlyCompleted_eq_nil hback, Option.map_some, List.append_nil]
      · rw [hcontinues.mem delta]
        constructor
        · rintro ⟨journal, hmem, hsame, hstatus, rfl⟩
          obtain ⟨later, hlater, hdelta, hcompleted⟩ := hforth journal hmem hsame hstatus
          exact ⟨later, hlater, hsource hdelta hsame, hcompleted, hdelta⟩
        · rintro ⟨journal, hmem, hsame, hstatus, rfl⟩
          obtain ⟨before, hbefore, hdelta, hcompleted⟩ := hback journal hmem hsame hstatus
          exact ⟨before, hbefore, hsource hdelta hsame, hcompleted, hdelta⟩

/-- The delta of a journal that completes is what the step adds. -/
theorem newlyCompleted_eq_singleton {journal journal' : StoredGenerationApply}
    (hfound : store.journals.lookup journal.key = some journal)
    (hactive : journal.status ≠ .completed) (hdelta : journal'.delta = journal.delta)
    (hsource : journal.source = source) (hcompleted : journal'.status = .completed)
    (hjournals : store'.journals = store.journals.put journal') :
    newlyCompleted store store' source = [journal.delta] := by
  have hsource' : journal'.source = source := by
    rw [StoredGenerationApply.source, StoredGenerationApply.mountId, hdelta]
    exact hsource
  have hkey : journal'.key = journal.key := congrArg GenerationDelta.deltaId hdelta
  unfold newlyCompleted
  rw [hjournals]
  change ((journal' :: store.journals.rows.filter fun other => other.key ≠ journal'.key).filter
    _).map _ = _
  rw [List.filter_cons, if_pos, List.map_cons, hdelta, List.filter_eq_nil_iff.mpr, List.map_nil]
  · intro other hother hnew
    obtain ⟨hmem, -⟩ := List.mem_filter.mp hother
    obtain ⟨hboth, hnot⟩ := Bool.and_eq_true_iff.mp hnew
    rw [KeyedTable.lookup_eq_some.mpr ⟨hmem, rfl⟩, Option.any_some,
      decide_eq_true (of_decide_eq_true hboth).2] at hnot
    cases hnot
  · rw [hkey, hfound, Option.any_some, decide_eq_false hactive,
      decide_eq_true ⟨hsource', hcompleted⟩]
    rfl

/-- A step by which a journal of the source completes. -/
theorem Follows.complete {lineage : Option Lineage} {journal journal' : StoredGenerationApply}
    {record record' : ObservedGenerationRecordV2} (h : Follows store source lineage)
    (hfound : store.journals.lookup journal.key = some journal)
    (hactive : journal.status ≠ .completed) (hdelta : journal'.delta = journal.delta)
    (hsource : journal.source = source) (hcompleted : journal'.status = .completed)
    (hhead : store.observed.lookup source = some record)
    (hbase : record.observed.generationId = journal.delta.baseGenerationId)
    (hhead' : store'.observed.lookup source = some record')
    (htarget : record'.observed.generationId = journal.delta.targetGenerationId)
    (hjournals : store'.journals = store.journals.put journal') :
    Follows store' source (Lineage.step store store' source lineage) := by
  have hkey : journal'.key = journal.key := congrArg GenerationDelta.deltaId hdelta
  have hsource' : journal'.source = source := by
    rw [StoredGenerationApply.source, StoredGenerationApply.mountId, hdelta]
    exact hsource
  -- No completed journal has the delta that completes now.
  have hother : ∀ other ∈ store.journals.rows, other.status = .completed →
      other.key ≠ journal.key := by
    intro other hmem hstatus hsame
    rw [store.journals.eq_of_key hmem (mem_of_lookup hfound) hsame] at hstatus
    exact hactive hstatus
  unfold Follows at h ⊢
  unfold Lineage.step
  rw [hhead] at h ⊢
  rw [hhead']
  obtain ⟨l, rfl, hcontinues⟩ := h
  refine ⟨⟨l.seed, l.completed ++ [journal.delta]⟩, ?_, ?_, ?_, fun delta => ?_⟩
  · rw [Option.map_some, newlyCompleted_eq_singleton hfound hactive hdelta hsource hcompleted
      hjournals]
  · rw [htarget]
    exact hcontinues.chain.concat hbase.symm
  · rw [List.map_append, List.map_singleton]
    refine List.nodup_append.mpr ⟨hcontinues.once, List.nodup_singleton _, ?_⟩
    intro deltaId hdeltaId deltaId' hdeltaId' hsame
    obtain ⟨delta, hmem, rfl⟩ := List.mem_map.mp hdeltaId
    obtain ⟨other, hrow, -, hstatus, rfl⟩ := (hcontinues.mem delta).mp hmem
    exact hother other hrow hstatus (hsame.trans (List.mem_singleton.mp hdeltaId'))
  · rw [List.mem_append, List.mem_singleton, hcontinues.mem delta, hjournals]
    constructor
    · rintro (⟨other, hrow, hsame, hstatus, rfl⟩ | rfl)
      · exact ⟨other, KeyedTable.mem_put.mpr (.inr ⟨hrow, hkey ▸ hother other hrow hstatus⟩),
          hsame, hstatus, rfl⟩
      · exact ⟨journal', KeyedTable.mem_put.mpr (.inl rfl), hsource', hcompleted, hdelta⟩
    · rintro ⟨other, hrow, hsame, hstatus, rfl⟩
      rcases mem_put_cases hrow with rfl | ⟨hrow, -⟩
      · exact .inr hdelta
      · exact .inl ⟨other, hrow, hsame, hstatus, rfl⟩

/-- A step that leaves the journals and the head of the source. -/
theorem Follows.keep_journals {lineage : Option Lineage} (h : Follows store source lineage)
    (hobserved : store'.observed.lookup source = store.observed.lookup source)
    (hjournals : store'.journals = store.journals) :
    Follows store' source (Lineage.step store store' source lineage) := by
  refine h.keep hobserved ?_ ?_ ?_
  · rw [hjournals]
    exact fun _ journal hmem hsame => ⟨journal, hmem, hsame⟩
  · rw [hjournals]
    exact fun journal hmem _ hstatus => ⟨journal, hmem, rfl, hstatus⟩
  · rw [hjournals]
    exact fun journal hmem _ hstatus => ⟨journal, hmem, rfl, hstatus⟩

/-- A step that rewrites one journal, which does not complete if it is of the source. -/
theorem Follows.keep_put {lineage : Option Lineage} {journal journal' : StoredGenerationApply}
    (h : Follows store source lineage)
    (hobserved : store'.observed.lookup source = store.observed.lookup source)
    (hfound : journal ∈ store.journals.rows) (hdelta : journal'.delta = journal.delta)
    (hstatus : journal.source = source →
      (journal'.status = .completed ↔ journal.status = .completed))
    (hjournals : store'.journals = store.journals.put journal') :
    Follows store' source (Lineage.step store store' source lineage) := by
  have hkey : journal'.key = journal.key := congrArg GenerationDelta.deltaId hdelta
  have hsource : journal'.source = journal.source := by
    rw [StoredGenerationApply.source, StoredGenerationApply.mountId, hdelta]
    rfl
  refine h.keep hobserved ?_ ?_ ?_
  · intro _ other hrow hsame
    rw [hjournals] at hrow
    rcases mem_put_cases hrow with rfl | ⟨hmem, -⟩
    · exact ⟨journal, hfound, hsource.symm.trans hsame⟩
    · exact ⟨other, hmem, hsame⟩
  · intro other hrow hsame hcompleted
    rw [hjournals] at hrow
    rcases mem_put_cases hrow with rfl | ⟨hmem, -⟩
    · exact ⟨journal, hfound, hdelta.symm, (hstatus (hsource.symm.trans hsame)).mp hcompleted⟩
    · exact ⟨other, hmem, rfl, hcompleted⟩
  · intro other hmem hsame hcompleted
    rw [hjournals]
    by_cases hother : other.key = journal'.key
    · have heq : other = journal := store.journals.eq_of_key hmem hfound (hother.trans hkey)
      subst heq
      exact ⟨journal', KeyedTable.mem_put.mpr (.inl rfl), hdelta,
        (hstatus hsame).mpr hcompleted⟩
    · exact ⟨other, KeyedTable.mem_put.mpr (.inr ⟨hmem, hother⟩), rfl, hcompleted⟩

theorem Follows.effect {lineage : Option Lineage} (h : Follows store source lineage)
    (heffect : Effect codec call store store') :
    Follows store' source (Lineage.step store store' source lineage) := by
  cases heffect with
  | quiet journals observed => exact h.keep_journals (by rw [observed]) journals
  | seeded inserted nodup new journals observed =>
      by_cases hmem : source ∈ seedKeys inserted
      · obtain ⟨seed, hseed, rfl⟩ := List.mem_map.mp hmem
        have hbefore := new seed hseed
        have hafter : store'.observed.lookup seed.seed.observed.key =
            some ⟨seed.seed.observed, seed.refreshMode⟩ := by
          rw [observed]
          exact lookup_observeSeeds_mem nodup hseed
        unfold Follows at h ⊢
        unfold Lineage.step
        rw [hbefore] at h ⊢
        rw [hafter]
        refine ⟨_, rfl, rfl, List.nodup_nil, fun delta => ⟨fun hnil => (nomatch hnil), ?_⟩⟩
        rw [journals]
        rintro ⟨journal, hrow, hsame, -, -⟩
        exact absurd hsame (h.2 journal hrow)
      · exact h.keep_journals (by rw [observed, lookup_observeSeeds hmem]) journals
  | reset reseted _ resets journals observed =>
      by_cases hsame : reseted = source
      · have hafter : store'.observed.lookup source = none := by
          rw [observed, KeyedTable.lookup_eq_none]
          intro record hrow hkey
          have hkept := (KeyedTable.mem_eraseWhere.mp hrow).2
          exact of_decide_eq_false hkept (hkey.trans hsame.symm)
        unfold Follows Lineage.step
        rw [hafter]
        refine ⟨by cases store.observed.lookup source <;> rfl, fun journal hrow hsource => ?_⟩
        rw [journals] at hrow
        obtain ⟨hrow, hkept⟩ := KeyedTable.mem_eraseWhere.mp hrow
        have hidle := resets.idle journal hrow (by rw [hsame, ← hsource]; rfl)
        rw [hsame, decide_eq_true hsource, hidle] at hkept
        exact nomatch hkept
      · have hkept : ∀ journal ∈ store.journals.rows, journal.source = source →
            journal ∈ store'.journals.rows := by
          intro journal hrow hsource
          have hne : ¬journal.source = reseted := fun h => hsame (h.symm.trans hsource)
          rw [journals, KeyedTable.mem_eraseWhere, decide_eq_false hne]
          exact ⟨hrow, rfl⟩
        have hsub : ∀ journal ∈ store'.journals.rows, journal ∈ store.journals.rows := by
          rw [journals]
          exact fun journal hrow => (KeyedTable.mem_eraseWhere.mp hrow).1
        refine h.keep ?_ ?_ ?_ ?_
        · rw [observed]
          refine KeyedTable.lookup_eraseWhere_eq fun record _ hkey => decide_eq_false ?_
          exact fun h => hsame (h.symm.trans hkey)
        · exact fun _ journal hrow hsource => ⟨journal, hsub journal hrow, hsource⟩
        · exact fun journal hrow _ hstatus => ⟨journal, hsub journal hrow, rfl, hstatus⟩
        · exact fun journal hrow hsource hstatus =>
            ⟨journal, hkept journal hrow hsource, rfl, hstatus⟩
  | reserved prepared reserves journals observed =>
      obtain ⟨record, hrecord, -, -⟩ := reserves.base
      have hfresh : ∀ journal ∈ store.journals.rows, journal.key ≠ (newJournal prepared).key :=
        KeyedTable.lookup_eq_none.mp reserves.new
      refine h.keep (by rw [observed]) ?_ ?_ ?_
      · intro hnone journal hrow hsource
        rw [journals] at hrow
        rcases mem_put_cases hrow with rfl | ⟨hrow, -⟩
        · rw [← hsource] at hnone
          exact absurd (hnone.symm.trans hrecord) nofun
        · exact ⟨journal, hrow, hsource⟩
      · intro journal hrow _ hstatus
        rw [journals] at hrow
        rcases mem_put_cases hrow with rfl | ⟨hrow, -⟩
        · exact nomatch hstatus
        · exact ⟨journal, hrow, rfl, hstatus⟩
      · intro journal hrow _ hstatus
        rw [journals]
        exact ⟨journal, KeyedTable.mem_put.mpr (.inr ⟨hrow, hfresh journal hrow⟩), rfl, hstatus⟩
  | rewritten journal journal' found rewrites _ journals observed =>
      exact h.keep_put (by rw [observed]) (mem_of_lookup found) rewrites.persists.delta
        (fun _ => ⟨rewrites.status, rewrites.persists.completed⟩) journals
  | completed journal record completedAt found active outcomes head base journals observed =>
      have hkey : (advance journal completedAt record).key = journal.source :=
        (KeyedTable.lookup_eq_some.mp head).2
      by_cases hsame : journal.source = source
      · subst hsame
        have hhead : store'.observed.lookup journal.source =
            some (advance journal completedAt record) := by
          rw [observed, ← hkey]
          exact KeyedTable.lookup_put_self _ _
        refine h.complete found active ?_ rfl ?_ head base hhead ?_ journals
        · rfl
        · rfl
        · rfl
      · refine h.keep_put ?_ (mem_of_lookup found) ?_ (fun h => absurd h hsame) journals
        · rw [observed]
          exact KeyedTable.lookup_put_ne _ (hkey.trans_ne hsame)
        · rfl

end Locality.Delivery
