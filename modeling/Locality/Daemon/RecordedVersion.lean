/-
  Daemon/RecordedVersion.lean --- the remote version that an entity records is that of
  its stored shadow.

  The version a shadow was delivered with is carried along beside the records.  Steps
  keep the two together except where an entry is listed with another version under a
  rule that takes it over, where an entity that has no version of a shadow takes up the
  shadow that is left of an earlier one, and where a render is of another entity
  (`RecordStep.Meets`).
-/
import Locality.Daemon.RecordOperations

set_option autoImplicit false

namespace Locality.Daemon

open Locality.Core Locality.Foundation

/-! ## Versions of shadows -/

/-- Records, with the version that each stored shadow was delivered with. -/
structure Versioned where
  records : Records
  versions : EntityKey → Option Text

/-- The draft that is retired for a record, where one may be. -/
def Records.retiredDraft (self : Records) (mount : MountConfig) (record : EntityRecord)
    (replacementFrontmatter : Option Text) : Option EntityRecord :=
  match replacementFrontmatter with
  | none => none
  | some _ => self.legacyDraft mount record

namespace Versioned

/-- The version of a retired draft goes over with its shadow; a render that comes
without a version leaves the recorded one. -/
def step (self : Versioned) (mount : MountConfig) (step : RecordStep) : Versioned where
  records := self.records.step mount step
  versions :=
    match step with
    | .listed rule entry preserveExistingPath replacementFrontmatter =>
        match self.records.retiredDraft mount
            (self.records.listedRecord rule entry preserveExistingPath)
            replacementFrontmatter with
        | none => self.versions
        | some occupant =>
            if (self.records.shadows (mount.mountId, occupant.remoteId)).isSome then
              Function.update self.versions (mount.mountId, entry.remoteId)
                (self.versions (mount.mountId, occupant.remoteId))
            else self.versions
    | .deleted _ | .marked _ _ => self.versions
    | .rendered key rendered _ =>
        match self.records.entities.get key with
        | none => self.versions
        | some entity =>
            Function.update self.versions (key.1, rendered.shadow.entityId)
              (rendered.remoteEditedAt.orElse fun _ => entity.remoteEditedAt)

def run (self : Versioned) (mount : MountConfig) (steps : List RecordStep) : Versioned :=
  steps.foldl (fun versioned step => versioned.step mount step) self

theorem records_run (self : Versioned) (mount : MountConfig) (steps : List RecordStep) :
    (self.run mount steps).records = self.records.run mount steps := by
  induction steps generalizing self with
  | nil => rfl
  | cons step steps ih => exact ih (self.step mount step)

/-- The hash and the version are those of the shadow that is stored under the key. -/
def Agrees (self : Versioned) (key : EntityKey) (contentHash remoteEditedAt : Option Text) :
    Prop :=
  ∀ shadow, self.records.shadows key = some shadow →
    contentHash = some shadow.bodyHash ∧ remoteEditedAt = self.versions key

end Versioned

/-- Every entity that is hydrated, dirty or in conflict records hash and version of its
stored shadow. -/
def Recorded (versioned : Versioned) : Prop :=
  ∀ key entity, versioned.records.entities.get key = some entity →
    remotePreconditionBelongsToShadow entity = true →
    versioned.Agrees key entity.contentHash entity.remoteEditedAt

/-! ## The condition on a step -/

/-- The entry comes as an entity without local contents, or agrees with the shadow that
is stored for it. -/
def TreeEntry.AgreesIn (self : TreeEntry) (versioned : Versioned) : Prop :=
  remotePreconditionBelongsToShadow self.toRecord = true →
    versioned.Agrees self.key self.contentHash self.remoteEditedAt

/-- The entity of the entry has local contents afterwards. -/
def ListingRule.Owns (self : ListingRule) (entry : TreeEntry) (existing : Option EntityRecord)
    (preserveExistingPath : Bool) : Prop :=
  match self, existing with
  | _, none => remotePreconditionBelongsToShadow entry.toRecord = true
  | .virtualChild, some existing =>
      if HydrationState.isEdited existing.hydration = true ∨ entry.path = existing.path then
        remotePreconditionBelongsToShadow existing = true
      else remotePreconditionBelongsToShadow entry.toRecord = true
  | .scheduled, some existing | .explicit, some existing =>
      remotePreconditionBelongsToShadow existing = true ∨ preserveExistingPath = true

/-- What has to be so of an entry, for its record to stay with the shadow. -/
def ListingRule.KeepsVersion (self : ListingRule) (versioned : Versioned) (entry : TreeEntry)
    (preserveExistingPath : Bool) : Prop :=
  match self, versioned.records.entities.get entry.key with
  | _, none => entry.AgreesIn versioned
  | .virtualChild, some existing =>
      if HydrationState.isEdited existing.hydration = true ∨ entry.path = existing.path then
        remotePreconditionBelongsToShadow existing = true →
          versioned.records.shadows entry.key ≠ none →
            entry.remoteEditedAt = existing.remoteEditedAt
      else entry.AgreesIn versioned
  | .scheduled, some existing | .explicit, some existing =>
      remotePreconditionBelongsToShadow existing = false → preserveExistingPath = true →
        versioned.Agrees entry.key existing.contentHash entry.remoteEditedAt

/-- The entry names the mount; no draft that has a shadow is retired for an entity that
has local contents; and the entry's version is kept. -/
structure Listable (mount : MountConfig) (versioned : Versioned) (rule : ListingRule)
    (entry : TreeEntry) (preserveExistingPath : Bool) (replacementFrontmatter : Option Text) :
    Prop where
  mounted : entry.mountId = mount.mountId
  retires : ∀ occupant, versioned.records.retiredDraft mount
      (versioned.records.listedRecord rule entry preserveExistingPath) replacementFrontmatter =
        some occupant →
    versioned.records.shadows (mount.mountId, occupant.remoteId) ≠ none →
    ¬ rule.Owns entry (versioned.records.entities.get entry.key) preserveExistingPath
  keeps : rule.KeepsVersion versioned entry preserveExistingPath

/-- The condition on a step, and on the state it is taken in. -/
def RecordStep.Meets (mount : MountConfig) (versioned : Versioned) : RecordStep → Prop
  | .listed rule entry preserveExistingPath replacementFrontmatter =>
      Listable mount versioned rule entry preserveExistingPath replacementFrontmatter
  | .deleted _ => True
  | .marked key _ =>
      ∀ entity, versioned.records.entities.get key = some entity →
        remotePreconditionBelongsToShadow entity = false →
          versioned.Agrees key entity.contentHash entity.remoteEditedAt
  | .rendered key render _ => render.shadow.entityId = key.2

/-- Every step of the list meets the condition in the state that it is taken in. -/
def MeetsAll (mount : MountConfig) : Versioned → List RecordStep → Prop
  | _, [] => True
  | versioned, step :: steps =>
      step.Meets mount versioned ∧ MeetsAll mount (versioned.step mount step) steps

/-! ## Records of entries -/

section Step

variable {mount : MountConfig} {versioned : Versioned} {rule : ListingRule} {entry : TreeEntry}
  {preserve : Bool}

theorem ListingRule.key_record (existing : Option EntityRecord) :
    (rule.record entry existing preserve).key = entry.key := by
  cases existing with
  | none => cases rule <;> rfl
  | some existing =>
      cases rule with
      | scheduled => rfl
      | explicit => rfl
      | virtualChild =>
          simp only [ListingRule.record, Pull.virtualChildEntityRecord]
          split
          · rfl
          · split <;> rfl

theorem belongs_of_state {record record' : EntityRecord} (h : record.hydration = record'.hydration) :
    remotePreconditionBelongsToShadow record = remotePreconditionBelongsToShadow record' := by
  unfold remotePreconditionBelongsToShadow
  rw [h]

/-- The record of an entry that has local contents comes from an entity or an entry that
has, or from a preserved path. -/
theorem ListingRule.owns_of_belongs {existing : Option EntityRecord}
    (h : remotePreconditionBelongsToShadow (rule.record entry existing preserve) = true) :
    rule.Owns entry existing preserve := by
  have hmerged : ∀ existing : EntityRecord,
      remotePreconditionBelongsToShadow (Reconcile.mergedEntityRecord entry (some existing)
        preserve) = true →
      remotePreconditionBelongsToShadow existing = true ∨ preserve = true := by
    intro existing hbelongs
    cases preserve with
    | true => exact .inr rfl
    | false => exact .inl ((belongs_of_state rfl).trans hbelongs)
  cases existing with
  | none => cases rule <;> exact h
  | some existing =>
      cases rule with
      | scheduled => exact hmerged existing h
      | explicit => exact hmerged existing ((belongs_of_state rfl).trans h)
      | virtualChild =>
          simp only [ListingRule.record, Pull.virtualChildEntityRecord] at h
          simp only [ListingRule.Owns]
          by_cases hedited : HydrationState.isEdited existing.hydration = true
          · rw [if_pos (.inl hedited)]
            rw [if_pos hedited] at h
            exact (belongs_of_state rfl).trans h
          · rw [if_neg hedited] at h
            by_cases hpath : entry.path = existing.path
            · rw [if_pos (.inr hpath)]
              rw [if_pos hpath] at h
              exact (belongs_of_state rfl).trans h
            · rw [if_neg (by rintro (h | h); exacts [hedited h, hpath h])]
              rwa [if_neg hpath] at h

/-- Where the entry's version is kept, its record agrees with the stored shadow. -/
theorem agrees_record (hrecorded : Recorded versioned)
    (hkeeps : rule.KeepsVersion versioned entry preserve)
    (hbelongs : remotePreconditionBelongsToShadow
      (versioned.records.listedRecord rule entry preserve) = true) :
    versioned.Agrees entry.key (versioned.records.listedRecord rule entry preserve).contentHash
      (versioned.records.listedRecord rule entry preserve).remoteEditedAt := by
  have howns := ListingRule.owns_of_belongs hbelongs
  unfold Records.listedRecord at hbelongs ⊢
  unfold ListingRule.KeepsVersion at hkeeps
  cases hget : versioned.records.entities.get entry.key with
  | none =>
      simp only [hget] at hkeeps hbelongs howns
      cases rule with
      | scheduled => exact hkeeps hbelongs
      | explicit => exact hkeeps hbelongs
      | virtualChild => exact hkeeps hbelongs
  | some existing =>
      simp only [hget] at hkeeps hbelongs howns
      -- a merged record has the version of the shadow, or takes the entry's
      have hmerged : (remotePreconditionBelongsToShadow existing = true ∨ preserve = true) →
          (remotePreconditionBelongsToShadow existing = false → preserve = true →
            versioned.Agrees entry.key existing.contentHash entry.remoteEditedAt) →
          versioned.Agrees entry.key existing.contentHash
            (if remotePreconditionBelongsToShadow existing then existing.remoteEditedAt
              else entry.remoteEditedAt) := by
        intro howns hkeeps
        cases hexisting : remotePreconditionBelongsToShadow existing with
        | true => exact hrecorded _ _ hget hexisting
        | false =>
            refine hkeeps hexisting (howns.resolve_left ?_)
            rw [hexisting]
            exact Bool.false_ne_true
      cases rule with
      | scheduled => exact hmerged howns hkeeps
      | explicit => exact hmerged howns hkeeps
      | virtualChild =>
          simp only [ListingRule.record, Pull.virtualChildEntityRecord] at hbelongs ⊢
          simp only [ListingRule.Owns] at howns
          dsimp only at hkeeps
          -- the hash is the old one and the version the entry's, or both are the entry's
          have hlisted : (HydrationState.isEdited existing.hydration = true ∨
              entry.path = existing.path) →
              versioned.Agrees entry.key existing.contentHash entry.remoteEditedAt := by
            intro hsame shadow hshadow
            rw [if_pos hsame] at hkeeps howns
            obtain ⟨hhash, hversion⟩ := hrecorded _ _ hget howns shadow hshadow
            refine ⟨hhash, (hkeeps howns ?_).trans hversion⟩
            rw [hshadow]
            exact Option.some_ne_none _
          by_cases hedited : HydrationState.isEdited existing.hydration = true
          · rw [if_pos hedited]
            exact hlisted (.inl hedited)
          · rw [if_neg hedited] at hbelongs ⊢
            by_cases hpath : entry.path = existing.path
            · rw [if_pos hpath]
              exact hlisted (.inr hpath)
            · rw [if_neg hpath] at hbelongs ⊢
              rw [if_neg (by rintro (h | h); exacts [hedited h, hpath h])] at hkeeps
              exact hkeeps hbelongs

/-! ## One step -/

theorem Records.shadows_saved (records : Records) (record : EntityRecord) :
    (records.saved record).shadows = records.shadows := by
  unfold Records.saved
  cases records.entities.save record with
  | error error => rfl
  | ok entities => rfl

/-- An entity after a save is as it was, or it is the one saved. -/
theorem Records.get_saved_cases {records : Records} {record found : EntityRecord}
    {key : EntityKey} (h : (records.saved record).entities.get key = some found) :
    records.entities.get key = some found ∨ key = record.key ∧ found = record := by
  rw [Records.get_saved] at h
  split at h
  · rename_i hsaved
    exact .inr ⟨hsaved.1, (Option.some.inj h).symm⟩
  · exact .inl h

/-- A save alone keeps versions where the record agrees. -/
theorem recorded_saved {record : EntityRecord} (hrecorded : Recorded versioned)
    (hagrees : remotePreconditionBelongsToShadow record = true →
      versioned.Agrees record.key record.contentHash record.remoteEditedAt) :
    Recorded ⟨versioned.records.saved record, versioned.versions⟩ := by
  intro key entity hget hbelongs shadow hshadow
  rw [Records.shadows_saved] at hshadow
  obtain hold | ⟨rfl, rfl⟩ := Records.get_saved_cases hget
  · exact hrecorded key entity hold hbelongs shadow hshadow
  · exact hagrees hbelongs shadow hshadow

theorem recorded_deleted (hrecorded : Recorded versioned) (key : EntityKey) :
    Recorded (versioned.step mount (.deleted key)) := by
  intro other entity hget hbelongs
  by_cases hkey : other = key
  · subst hkey
    cases (EntityTable.get_delete _ _).symm.trans hget
  · exact hrecorded other entity ((EntityTable.get_delete_ne _ hkey).symm.trans hget) hbelongs

theorem recorded_marked {key : EntityKey} {state : HydrationState}
    (hrecorded : Recorded versioned)
    (hmeets : (RecordStep.marked key state).Meets mount versioned) :
    Recorded (versioned.step mount (.marked key state)) := by
  simp only [Versioned.step, Records.step]
  cases hget : versioned.records.entities.get key with
  | none => exact hrecorded
  | some entity =>
      apply recorded_saved hrecorded
      rintro -
      have hkey : entity.key = key := EntityTable.get_key hget
      rw [show ({ entity with hydration := state } : EntityRecord).key = key from hkey]
      cases hbelongs : remotePreconditionBelongsToShadow entity with
      | true => exact hrecorded key entity hget hbelongs
      | false => exact hmeets entity hget hbelongs

theorem recorded_rendered {key : EntityKey} {render : HydratedEntity} {state : HydrationState}
    (hrecorded : Recorded versioned)
    (hmeets : (RecordStep.rendered key render state).Meets mount versioned) :
    Recorded (versioned.step mount (.rendered key render state)) := by
  have hid : (key.1, render.shadow.entityId) = key := by
    rw [show render.shadow.entityId = key.2 from hmeets]
  simp only [Versioned.step, Records.step]
  cases hentity : versioned.records.entities.get key with
  | none => exact hrecorded
  | some entity =>
      simp only [hid]
      intro other found hget hbelongs shadow hshadow
      rw [Records.shadows_saved] at hshadow
      have hkey : (renderedRecord entity render state).key = key := by
        change entity.key = key
        exact EntityTable.get_key hentity
      rw [Records.get_saved, hkey] at hget
      dsimp only at hshadow hget ⊢
      by_cases hother : other = key
      · subst hother
        -- the entity lies where it lay, so its record is saved
        have hfree : versioned.records.entities.PathFree (renderedRecord entity render state) :=
          EntityTable.pathFree_of_get hentity hkey rfl
        rw [if_pos ⟨rfl, hfree⟩] at hget
        rw [Function.update_self] at hshadow ⊢
        cases hget
        cases hshadow
        exact ⟨rfl, rfl⟩
      · rw [if_neg fun h => hother h.1] at hget
        rw [Function.update_of_ne hother] at hshadow ⊢
        exact hrecorded other found hget hbelongs shadow hshadow

/-- The path of a record is free once the draft that lay there is retired. -/
theorem pathFree_retire {records : Records} {record occupant : EntityRecord} {text : Text}
    (hretired : RetiredDraft mount records record occupant)
    (hmount : record.mountId = mount.mountId) :
    (records.retire mount occupant record text).entities.PathFree record := by
  intro other hother
  obtain ⟨hget, hmounted, hplaced⟩ := EntityTable.findByPath_eq_some.mp hother
  have hkey : occupant.key = (mount.mountId, occupant.remoteId) := by
    rw [EntityRecord.key, hretired.mounted]
  -- what lay there before is the draft, and the draft is gone
  by_cases hdraft : other.key = (mount.mountId, occupant.remoteId)
  · rw [hdraft] at hget
    cases (EntityTable.get_delete _ _).symm.trans hget
  · have hbefore : records.entities.get other.key = some other :=
      (EntityTable.get_delete_ne _ hdraft).symm.trans hget
    have hsame : other.key = occupant.key :=
      EntityTable.get_injective hbefore hretired.stored
        (hmounted.trans (hmount.trans hretired.mounted.symm))
        (hplaced.trans hretired.placed.symm)
    exact absurd (hsame.trans hkey) hdraft

/-- The shadows after a draft was retired: its own goes over to the record. -/
theorem shadows_retire {records : Records} {record occupant : EntityRecord} {text : Text}
    {key : EntityKey} {shadow : ShadowDocument}
    (h : (records.retire mount occupant record text).shadows key = some shadow) :
    key ≠ (mount.mountId, occupant.remoteId) ∧
      (records.shadows (mount.mountId, occupant.remoteId) ≠ none ∧
          key = (mount.mountId, record.remoteId) ∨
        records.shadows key = some shadow ∧
          (records.shadows (mount.mountId, occupant.remoteId) = none ∨
            key ≠ (mount.mountId, record.remoteId))) := by
  by_cases hoccupant : key = (mount.mountId, occupant.remoteId)
  · subst hoccupant
    simp only [Records.retire, Function.update_self] at h
    cases h
  · refine ⟨hoccupant, ?_⟩
    simp only [Records.retire] at h
    rw [Function.update_of_ne hoccupant] at h
    cases hdraft : records.shadows (mount.mountId, occupant.remoteId) with
    | none =>
        simp only [hdraft] at h
        exact .inr ⟨h, .inl rfl⟩
    | some draft =>
        simp only [hdraft] at h
        by_cases hrecord : key = (mount.mountId, record.remoteId)
        · exact .inl ⟨Option.some_ne_none _, hrecord⟩
        · rw [Function.update_of_ne hrecord] at h
          exact .inr ⟨h, .inr hrecord⟩

theorem recorded_listed {replacement : Option Text} (hrecorded : Recorded versioned)
    (hmeets : Listable mount versioned rule entry preserve replacement) :
    Recorded (versioned.step mount (.listed rule entry preserve replacement)) := by
  have hagrees := fun h => agrees_record hrecorded hmeets.keeps h
  have hkey : (versioned.records.listedRecord rule entry preserve).key = entry.key :=
    ListingRule.key_record _
  have hretires := hmeets.retires
  have howns : remotePreconditionBelongsToShadow
      (versioned.records.listedRecord rule entry preserve) = true →
        rule.Owns entry (versioned.records.entities.get entry.key) preserve :=
    ListingRule.owns_of_belongs
  simp only [Versioned.step, Records.step]
  generalize versioned.records.listedRecord rule entry preserve = record at *
  have hmount : record.mountId = mount.mountId :=
    (congrArg Prod.fst hkey).trans hmeets.mounted
  have hid : record.remoteId = entry.remoteId := congrArg Prod.snd hkey
  cases hretired : versioned.records.retiredDraft mount record replacement with
  | none =>
      have hcleared : versioned.records.cleared mount record replacement = versioned.records := by
        unfold Records.retiredDraft at hretired
        unfold Records.cleared
        cases replacement with
        | none => rfl
        | some text => simp only [Records.repaired, hretired]
      rw [hcleared]
      exact recorded_saved hrecorded (hkey ▸ hagrees)
  | some occupant =>
      obtain ⟨text, rfl⟩ : ∃ text, replacement = some text := by
        cases replacement with
        | none => cases hretired
        | some text => exact ⟨text, rfl⟩
      have hlegacy : versioned.records.legacyDraft mount record = some occupant := hretired
      have hdraft := legacyDraft_eq_some hlegacy
      have hcleared : versioned.records.cleared mount record (some text) =
          versioned.records.retire mount occupant record text := by
        simp only [Records.cleared, Records.repaired, hlegacy]
      rw [hcleared]
      intro key entity hget hbelongs shadow hshadow
      rw [Records.shadows_saved] at hshadow
      rw [Records.get_saved] at hget
      obtain ⟨hoccupant, hmigrated | ⟨hold, hversion⟩⟩ := shadows_retire hshadow
      · -- the shadow of the draft: its new entity has no local contents
        obtain ⟨hsome, rfl⟩ := hmigrated
        have hsaved : (mount.mountId, record.remoteId) = record.key := by
          rw [EntityRecord.key, hmount]
        rw [if_pos ⟨hsaved, pathFree_retire hdraft hmount⟩] at hget
        cases hget
        exact absurd (howns hbelongs) (hretires occupant hretired hsome)
      · have hversions : (if (versioned.records.shadows
            (mount.mountId, occupant.remoteId)).isSome then
              Function.update versioned.versions (mount.mountId, entry.remoteId)
                (versioned.versions (mount.mountId, occupant.remoteId))
            else versioned.versions) key = versioned.versions key := by
          obtain hnone | hother := hversion
          · rw [hnone]
            rfl
          · split
            · exact Function.update_of_ne (hid ▸ hother) _ _
            · rfl
        simp only [hversions]
        split at hget
        · rename_i hsaved
          cases hget
          rw [hsaved.1] at hold ⊢
          exact hkey ▸ hagrees hbelongs shadow (hkey ▸ hold)
        · have hbefore : versioned.records.entities.get key = some entity :=
            (EntityTable.get_delete_ne _ hoccupant).symm.trans hget
          exact hrecorded key entity hbefore hbelongs shadow hold

/-- A step that meets the condition keeps every version with its shadow. -/
theorem recorded_step {step : RecordStep} (hrecorded : Recorded versioned)
    (hmeets : step.Meets mount versioned) : Recorded (versioned.step mount step) := by
  cases step with
  | listed rule entry preserve replacement => exact recorded_listed hrecorded hmeets
  | deleted key => exact recorded_deleted hrecorded key
  | marked key state => exact recorded_marked hrecorded hmeets
  | rendered key render state => exact recorded_rendered hrecorded hmeets

theorem recorded_run {steps : List RecordStep} (hrecorded : Recorded versioned)
    (hmeets : MeetsAll mount versioned steps) : Recorded (versioned.run mount steps) := by
  induction steps generalizing versioned with
  | nil => exact hrecorded
  | cons step steps ih =>
      obtain ⟨hstep, hsteps⟩ := hmeets
      exact ih (recorded_step hrecorded hstep) hsteps

end Step

/-! ## Runs -/

section Run

variable (mount : MountConfig) (yaml : YamlSerde)

/-- The records before and after one operation on the mount, whatever else the host and
the disk hold. -/
inductive OperationLeaves : Records → Records → Prop
  | scheduledPull {η : Type} (source : ScheduledPullSource) (strategy : FetchScheduleStrategy)
      (engine : HydrationEngine η) (tick : PullSchedulerTick) (policy : HydrationPolicy)
      (contentRoot : Option PathBuf) (st : Reconciling η) :
      OperationLeaves st.store.records
        (reconcileScheduledPullWithStateRoot yaml source strategy engine tick policy contentRoot
          [mount] st).2.store.records
  | hydration (source : HydrationSource) (outputRoot : Option PathBuf)
      (request : HydrationRequest) (durable : Durable) (nowMs : Nat) :
      OperationLeaves durable.store.records
        (hydrateRequest yaml source outputRoot request
          (Host.running durable nowMs)).2.durable.store.records
  | workspaceRootPull (source : Pull.SourceAdapter) (durable : Durable) (nowMs : Nat) :
      OperationLeaves durable.store.records
        (Pull.pullWorkspaceVirtualMountRoot source mount
          (Host.running durable nowMs)).2.durable.store.records
  | mountRootPull (source : Pull.SourceAdapter) (files : Pull.PullFiles)
      (mountPoint contentRoot : PathBuf) (durable : Durable) (nowMs : Nat) :
      OperationLeaves durable.store.records
        (Pull.pullMountRoot yaml source files mountPoint contentRoot mount
          (Host.running durable nowMs)).2.durable.store.records
  | pageDirectoryPull (source : Pull.SourceAdapter) (mountPoint contentRoot : PathBuf)
      (fuel : Nat) (page : EntityRecord) (durable : Durable) (nowMs : Nat)
      (hpage : durable.store.entities.get page.key = some page)
      (hmount : mount.mountId = page.mountId) :
      OperationLeaves durable.store.records
        (Pull.pullPageDirectoryPath yaml source mountPoint contentRoot mount fuel page
          (Host.running durable nowMs)).2.durable.store.records
  | directoryPull (source : Pull.SourceAdapter) (files : Pull.PullFiles)
      (mountPoint contentRoot : PathBuf) (fuel : Nat) (hasStateRoot : Bool)
      (relativePath : PathBuf) (durable : Durable) (nowMs : Nat) :
      OperationLeaves durable.store.records
        (Pull.pullVirtualDirectoryPath yaml source files mountPoint contentRoot mount fuel
          hasStateRoot relativePath (Host.running durable nowMs)).2.durable.store.records
  | entityPull (source : Pull.SourceAdapter) (mountPoint contentRoot : PathBuf)
      (relativePath : PathBuf) (durable : Durable) (nowMs : Nat) :
      OperationLeaves durable.store.records
        (Pull.pullEntityPath yaml source mountPoint contentRoot mount relativePath
          (Host.running durable nowMs)).2.durable.store.records

/-- The runs of operations from the records, with the steps that they do. -/
inductive OperationRun (start : Records) : List RecordStep → Records → Prop
  | start : OperationRun start [] start
  | operation {steps steps' : List RecordStep} {reached after : Records}
      (hrun : OperationRun start steps reached)
      (hoperation : OperationLeaves mount yaml reached after)
      (hsteps : after = reached.run mount steps') :
      OperationRun start (steps ++ steps') after

variable {mount yaml}

theorem Performs.steps {ε α : Type} {op : Fallible ε Host α} {durable : Durable} {nowMs : Nat}
    (h : Performs mount (fun _ => True) op) :
    ∃ steps, (op (Host.running durable nowMs)).2.records =
      durable.store.records.run mount steps :=
  (h (Host.running durable nowMs) rfl trivial).2

theorem operationLeaves_steps {before after : Records}
    (h : OperationLeaves mount yaml before after) :
    ∃ steps, after = before.run mount steps := by
  cases h with
  | scheduledPull source strategy engine tick policy contentRoot st =>
      exact scheduledPull_performs st
  | hydration => exact (performs_hydrateRequest _).steps
  | workspaceRootPull => exact Pull.performs_pullWorkspaceVirtualMountRoot.steps
  | mountRootPull => exact Pull.performs_pullMountRoot.steps
  | pageDirectoryPull source mountPoint contentRoot fuel page durable nowMs hpage hmount =>
      exact (Pull.performs_pullPageDirectoryPath fuel hmount (Host.running durable nowMs) rfl
        hpage).2
  | directoryPull => exact (Pull.performs_pullVirtualDirectoryPath _ _ _).steps
  | entityPull => exact (Pull.performs_pullEntityPath _).steps

theorem OperationRun.records_eq {start reached : Records} {steps : List RecordStep}
    (hrun : OperationRun mount yaml start steps reached) : reached = start.run mount steps := by
  induction hrun with
  | start => rfl
  | operation hrun hoperation hsteps ih => rw [hsteps, ih, Records.run_append]

end Run

/-! ## A listing of the root -/

section Listed

def cloudMount : MountConfig := { notesMount with projection := .linuxFuse }

def cloudShadow : ShadowDocument := notesShadow "a\n".toList [⟨['a']⟩]

def cloudPage : EntityRecord :=
  { notesPage .dirty with
    contentHash := some cloudShadow.bodyHash
    remoteEditedAt := some "v1".toList }

def cloudStart : Durable :=
  .onePage cloudMount cloudPage (some (.text "---\n---\nb\n".toList)) (some cloudShadow)

def cloudEntry (version : Text) : TreeEntry where
  mountId := cloudMount.mountId
  remoteId := cloudPage.remoteId
  kind := .page
  title := cloudPage.title
  path := cloudPage.path
  hydration := .virtual
  contentHash := none
  remoteEditedAt := some version
  stubFrontmatter := none

/-- A remote whose root holds the page. -/
def rootListing (version : Text) : Pull.SourceAdapter where
  toHydrationSource := .answering (.error (.io []))
  enumerate := fun _ => .ok []
  listChildren := fun _ _ _ => .ok ⟨[cloudEntry version], true⟩

def cloudVersioned : Versioned := ⟨cloudStart.store.records, fun _ => some "v1".toList⟩

/-- The records after the root was listed. -/
def cloudListed (version : Text) : Records :=
  (Pull.pullWorkspaceVirtualMountRoot (rootListing version) cloudMount
    (Host.running cloudStart 0)).2.durable.store.records

theorem cloudVersioned_recorded : Recorded cloudVersioned := by
  intro key entity hget _ shadow hshadow
  have hkey : key = cloudPage.key := by
    by_contra hne
    exact nomatch (AList.lookup_insert_ne hne).symm.trans hget
  subst hkey
  have hentity : entity = cloudPage :=
    (Option.some.inj ((AList.lookup_insert _).symm.trans hget)).symm
  have hstored : shadow = cloudShadow := (Option.some.inj hshadow).symm
  rw [hentity, hstored]
  exact ⟨rfl, rfl⟩

theorem cloudListed_version :
    ((cloudListed "v2".toList).entities.get notesKey).map EntityRecord.hydration = some .dirty ∧
      ((cloudListed "v2".toList).entities.get notesKey).map EntityRecord.remoteEditedAt =
        some (some "v2".toList) ∧
      ((cloudListed "v2".toList).shadows notesKey).isSome = true := by
  decide +kernel

/-- The listing is one step. -/
theorem cloudListed_eq (version : Text) :
    cloudListed version = cloudVersioned.records.run cloudMount
      [.listed .virtualChild (cloudEntry version) false none] := by
  have hsaved := @records_saveEntity (Pull.virtualChildEntityRecord (cloudEntry version)
    (cloudStart.store.entities.get (cloudEntry version).key)) (Host.running cloudStart 0) rfl
  have hchild := @Quiet.after_bind _ _ _ (Pull.saveVirtualChild (cloudEntry version))
    (fun _ => Pull.saveVirtualChildren []) (Host.running cloudStart 0) _ hsaved
    fun _ => Quiet.of_pure ()
  exact (@Quiet.after_bind _ _ _ (Pull.saveVirtualChildren [cloudEntry version])
    (fun _ => pure { Pull.PullReport.empty with enumerated := 1 }) (Host.running cloudStart 0) _
    hchild fun _ => Quiet.of_pure _).2

end Listed

end Locality.Daemon
