/-
  Daemon/RecordSteps.lean --- what scheduled pulls, pulls and hydrations do to the
  records of a mount, as steps.

  An entry is listed, under one of three rules for its record; an entity is deleted;
  its state is marked; or a render is taken over for it.  Every operation of the source
  that writes records is a sequence of such steps (`performs_*`).
-/
import Locality.Daemon.PullListing
import Locality.Daemon.ReconcileRun
import Locality.Daemon.PullAgreement

set_option autoImplicit false

namespace Locality.Daemon

open Locality.Core Locality.Foundation Locality.Foundation.Fallible

/-! ## Steps -/

/-- The functions that make the record of an entry. -/
inductive ListingRule where
  /-- `merged_entity_record` of `reconcile.rs`. -/
  | scheduled
  /-- `merged_entity_record` of `pull.rs`. -/
  | explicit
  | virtualChild
  deriving DecidableEq, Repr

def ListingRule.record (self : ListingRule) (entry : TreeEntry) (existing : Option EntityRecord)
    (preserveExistingPath : Bool) : EntityRecord :=
  match self with
  | scheduled => Reconcile.mergedEntityRecord entry existing preserveExistingPath
  | explicit => Pull.mergedEntityRecord entry existing preserveExistingPath
  | virtualChild => Pull.virtualChildEntityRecord entry existing

/-- The replacement frontmatter is there where a draft may be retired for the entry. -/
inductive RecordStep where
  | listed (rule : ListingRule) (entry : TreeEntry) (preserveExistingPath : Bool)
      (replacementFrontmatter : Option Text)
  | deleted (key : EntityKey)
  | marked (key : EntityKey) (state : HydrationState)
  | rendered (key : EntityKey) (rendered : HydratedEntity) (state : HydrationState)

def TreeEntry.key (self : TreeEntry) : EntityKey := (self.mountId, self.remoteId)

/-- The record of an entity that a render was taken over for. -/
def renderedRecord (entity : EntityRecord) (rendered : HydratedEntity) (state : HydrationState) :
    EntityRecord :=
  { entity with
    hydration := state
    contentHash := some rendered.shadow.bodyHash
    remoteEditedAt := rendered.remoteEditedAt.orElse fun _ => entity.remoteEditedAt }

namespace Records

def listedRecord (self : Records) (rule : ListingRule) (entry : TreeEntry)
    (preserveExistingPath : Bool) : EntityRecord :=
  rule.record entry (self.entities.get entry.key) preserveExistingPath

/-- The records after a draft was retired, where one may be. -/
def cleared (self : Records) (mount : MountConfig) (record : EntityRecord)
    (replacementFrontmatter : Option Text) : Records :=
  match replacementFrontmatter with
  | none => self
  | some text => self.repaired mount record text

def step (self : Records) (mount : MountConfig) : RecordStep → Records
  | .listed rule entry preserveExistingPath replacementFrontmatter =>
      (self.cleared mount (self.listedRecord rule entry preserveExistingPath)
        replacementFrontmatter).saved (self.listedRecord rule entry preserveExistingPath)
  | .deleted key => { self with entities := self.entities.delete key }
  | .marked key state =>
      match self.entities.get key with
      | none => self
      | some entity => self.saved { entity with hydration := state }
  | .rendered key rendered state =>
      match self.entities.get key with
      | none => self
      | some entity =>
          ({ self with
            shadows := Function.update self.shadows (key.1, rendered.shadow.entityId)
              (some rendered.shadow) } : Records).saved (renderedRecord entity rendered state)

def run (self : Records) (mount : MountConfig) (steps : List RecordStep) : Records :=
  steps.foldl (fun records step => records.step mount step) self

theorem run_append (self : Records) (mount : MountConfig) (steps steps' : List RecordStep) :
    self.run mount (steps ++ steps') = (self.run mount steps).run mount steps' :=
  List.foldl_append

end Records

/-! ## Operations on a host -/

section Host

variable {ε α β : Type} {mount : MountConfig} {pre : Records → Prop}

def Host.records (self : Host) : Records := self.durable.store.records

/-- On a host that is not interrupted the operation leaves the records as they are. -/
def Quiet (op : Fallible ε Host α) : Prop :=
  ∀ host, host.writesLeft = none →
    (op host).2.writesLeft = none ∧ (op host).2.records = host.records

/-- On a host that is not interrupted, and has such records, the operation does steps. -/
def Performs (mount : MountConfig) (pre : Records → Prop) (op : Fallible ε Host α) : Prop :=
  ∀ host, host.writesLeft = none → pre host.records →
    (op host).2.writesLeft = none ∧
      ∃ steps, (op host).2.records = host.records.run mount steps

namespace Quiet

variable {op : Fallible ε Host α} {next : α → Fallible ε Host β}

theorem of_pure (a : α) : Quiet (pure a : Fallible ε Host α) := fun _ h => ⟨h, rfl⟩

theorem of_throw (error : ε) : Quiet (throw error : Fallible ε Host α) := fun _ h => ⟨h, rfl⟩

/-- Nothing comes after an error. -/
theorem of_throw_bind (error : ε) : Quiet ((throw error : Fallible ε Host α) >>= next) :=
  fun _ h => ⟨h, rfl⟩

theorem of_lift (result : Except ε α) : Quiet (liftM result : Fallible ε Host α) := by
  intro host h
  rw [run_lift]
  exact ⟨h, rfl⟩

/-- What is known after the first part is known after a quiet second one. -/
theorem after_bind {host : Host} {records : Records}
    (hop : (op host).2.writesLeft = none ∧ (op host).2.records = records)
    (hnext : ∀ a, Quiet (next a)) :
    ((op >>= next) host).2.writesLeft = none ∧ ((op >>= next) host).2.records = records := by
  rw [run_bind]
  cases hrun : op host with
  | mk outcome host' =>
      rw [hrun] at hop
      cases outcome with
      | error error => exact hop
      | ok a =>
          obtain ⟨hrunning, hrecords⟩ := hnext a host' hop.1
          exact ⟨hrunning, hrecords.trans hop.2⟩

theorem bind (hop : Quiet op) (hnext : ∀ a, Quiet (next a)) : Quiet (op >>= next) :=
  fun host h => after_bind (hop host h) hnext

theorem returning {f : α → β} (hop : Quiet op) : Quiet (op >>= fun a => pure (f a)) :=
  hop.bind fun a => of_pure (f a)

theorem ite {p : Prop} [Decidable p] {other : Fallible ε Host α} (hop : Quiet op)
    (hother : Quiet other) : Quiet (if p then op else other) := by
  split
  · exact hop
  · exact hother

theorem adapt {ε' : Type} (translate : ε → ε') (hop : Quiet op) :
    Quiet (ExceptT.adapt translate op : Fallible ε' Host α) := by
  intro host h
  rw [run_adapt]
  exact hop host h

theorem read : Quiet readDurable := fun _ h => ⟨h, rfl⟩

theorem write {effect : Durable → Durable}
    (heffect : ∀ durable, (effect durable).store.records = durable.store.records) :
    Quiet (writeDurable effect) := by
  rintro ⟨durable, nowMs, left⟩ h
  cases h
  exact ⟨rfl, heffect durable⟩

theorem of_leavesStore {op : PullM α} (h : Pull.LeavesStore op) : Quiet op := by
  intro host hrunning
  obtain ⟨hstore, hrunning'⟩ := h host hrunning
  exact ⟨hrunning', congrArg Store.records hstore⟩

end Quiet

namespace Performs

variable {op : Fallible ε Host α} {next : α → Fallible ε Host β}

theorem of_quiet (h : Quiet op) : Performs mount pre op := by
  intro host hrunning _
  obtain ⟨hrunning', hrecords⟩ := h host hrunning
  exact ⟨hrunning', [], hrecords⟩

theorem weaken {pre' : Records → Prop} (h : Performs mount pre op)
    (hpre : ∀ records, pre' records → pre records) : Performs mount pre' op :=
  fun host hrunning hbefore => h host hrunning (hpre _ hbefore)

theorem of_pure (a : α) : Performs mount pre (pure a : Fallible ε Host α) :=
  of_quiet (Quiet.of_pure a)

theorem bind (hop : Performs mount pre op)
    (hnext : ∀ a, Performs mount (fun _ => True) (next a)) :
    Performs mount pre (op >>= next) := by
  intro host h hpre
  obtain ⟨hrunning, steps, hrecords⟩ := hop host h hpre
  rw [run_bind]
  cases hrun : op host with
  | mk outcome host' =>
      rw [hrun] at hrunning hrecords
      cases outcome with
      | error error => exact ⟨hrunning, steps, hrecords⟩
      | ok a =>
          obtain ⟨hrunning', steps', hrecords'⟩ := hnext a host' hrunning trivial
          refine ⟨hrunning', steps ++ steps', ?_⟩
          rw [hrecords', hrecords, Records.run_append]

theorem returning {f : α → β} (hop : Performs mount pre op) :
    Performs mount pre (op >>= fun a => pure (f a)) :=
  hop.bind fun a => of_pure (f a)

/-- What is done after the host was read starts with the records that were read. -/
theorem bind_read {next : Durable → Fallible LocalityError Host β}
    (hnext : ∀ durable, Performs mount (fun records => pre records ∧
      records = durable.store.records) (next durable)) :
    Performs mount pre (readDurable >>= next) := by
  intro host h hpre
  exact hnext host.durable host h ⟨hpre, rfl⟩

theorem bind_pullRead {next : Durable → PullM β}
    (hnext : ∀ durable, Performs mount (fun records => pre records ∧
      records = durable.store.records) (next durable)) :
    Performs mount pre (Pull.store readDurable >>= next) := by
  intro host h hpre
  exact hnext host.durable host h ⟨hpre, rfl⟩

theorem ite {p : Prop} [Decidable p] {other : Fallible ε Host α} (hop : Performs mount pre op)
    (hother : Performs mount pre other) : Performs mount pre (if p then op else other) := by
  split
  · exact hop
  · exact hother

theorem adapt {ε' : Type} (translate : ε → ε') (hop : Performs mount pre op) :
    Performs mount pre (ExceptT.adapt translate op : Fallible ε' Host α) := by
  intro host h hpre
  rw [run_adapt]
  exact hop host h hpre

theorem of_step (step : RecordStep)
    (h : ∀ host, host.writesLeft = none → pre host.records →
      (op host).2.writesLeft = none ∧ (op host).2.records = host.records.step mount step) :
    Performs mount pre op := by
  intro host hrunning hpre
  obtain ⟨hrunning', hrecords⟩ := h host hrunning hpre
  exact ⟨hrunning', [step], hrecords⟩

end Performs

/-- What holds of the records before a quiet operation holds after it. -/
theorem Quiet.before {op : Fallible ε Host α} {next : α → Fallible ε Host β} (hop : Quiet op)
    (hnext : ∀ a, Performs mount pre (next a)) : Performs mount pre (op >>= next) := by
  intro host h hpre
  obtain ⟨hrunning, hrecords⟩ := hop host h
  rw [run_bind]
  cases hrun : op host with
  | mk outcome host' =>
      rw [hrun] at hrunning hrecords
      cases outcome with
      | error error => exact ⟨hrunning, [], hrecords⟩
      | ok a =>
          obtain ⟨hrunning', steps', hrecords'⟩ :=
            hnext a host' hrunning (hrecords ▸ hpre)
          exact ⟨hrunning', steps', by rw [hrecords', hrecords]⟩

/-! ## Saving and deleting -/

theorem records_saveEntity (record : EntityRecord) {host : Host} (h : host.writesLeft = none) :
    ((saveEntity record : HostM Unit) host).2.writesLeft = none ∧
      ((saveEntity record : HostM Unit) host).2.records = host.records.saved record := by
  obtain ⟨durable, nowMs, left⟩ := host
  cases h
  unfold saveEntity Records.saved Host.records Store.records
  rw [run_bind]
  simp only [readDurable]
  cases durable.store.entities.save record with
  | error error => exact ⟨rfl, rfl⟩
  | ok entities => exact ⟨rfl, rfl⟩

theorem records_retireLegacyDraft (store : Store) (mount : MountConfig)
    (occupant record : EntityRecord) (replacementFrontmatter : Text) :
    (store.retireLegacyDraft mount occupant record replacementFrontmatter).records =
      store.records.retire mount occupant record replacementFrontmatter := by
  simp only [Records.retire, Store.retireLegacyDraft, Store.records]
  cases hshadow : store.shadows (mount.mountId, occupant.remoteId) with
  | none => rfl
  | some shadow => rfl

theorem performs_deleteEntity (mountId : MountId) (remoteId : RemoteId) :
    Performs mount pre (deleteEntity mountId remoteId) := by
  apply Performs.of_step (.deleted (mountId, remoteId))
  rintro ⟨durable, nowMs, left⟩ hrunning _
  cases hrunning
  exact ⟨rfl, rfl⟩

/-- An entity is saved under another state. -/
theorem performs_mark {key : EntityKey} {entity : EntityRecord} (state : HydrationState) :
    Performs mount (fun records => records.entities.get key = some entity)
      (saveEntity { entity with hydration := state }) := by
  apply Performs.of_step (.marked key state)
  intro host hrunning hget
  simp only [Records.step, hget]
  exact records_saveEntity _ hrunning

/-- The shadow of a render and the record of its entity are saved, and then nothing else
that shows in the records. -/
theorem performs_render {key : EntityKey} {entity record : EntityRecord} {mountId : MountId}
    {rendered : HydratedEntity} {rest : HostM α} (hmount : mountId = key.1)
    (hrecord : ∃ state, record = renderedRecord entity rendered state) (hrest : Quiet rest) :
    Performs mount (fun records => records.entities.get key = some entity) (do
      saveShadow mountId rendered.shadow
      saveEntity record
      rest) := by
  obtain ⟨state, rfl⟩ := hrecord
  subst hmount
  rw [← bind_assoc]
  refine Performs.bind ?_ fun _ => Performs.of_quiet hrest
  apply Performs.of_step (.rendered key rendered state)
  rintro ⟨durable, nowMs, left⟩ hrunning hget
  cases hrunning
  simp only [Records.step, hget]
  exact @records_saveEntity (renderedRecord entity rendered state)
    ⟨durable.withStore (durable.store.saveShadow key.1 rendered.shadow), nowMs, none⟩ rfl

theorem performs_pullRender {key : EntityKey} {entity record : EntityRecord} {mountId : MountId}
    {rendered : HydratedEntity} {rest : PullM α} (hmount : mountId = key.1)
    (hrecord : ∃ state, record = renderedRecord entity rendered state) (hrest : Quiet rest) :
    Performs mount (fun records => records.entities.get key = some entity) (do
      Pull.store (saveShadow mountId rendered.shadow)
      Pull.store (saveEntity record)
      rest) := by
  obtain ⟨state, rfl⟩ := hrecord
  subst hmount
  rw [← bind_assoc]
  refine Performs.bind ?_ fun _ => Performs.of_quiet hrest
  apply Performs.of_step (.rendered key rendered state)
  rintro ⟨durable, nowMs, left⟩ hrunning hget
  cases hrunning
  simp only [Records.step, hget]
  exact @records_saveEntity (renderedRecord entity rendered state)
    ⟨durable.withStore (durable.store.saveShadow key.1 rendered.shadow), nowMs, none⟩ rfl

/-! ## What a hydration reads and writes beside the records -/

variable {yaml : YamlSerde} {source : HydrationSource} {entity : EntityRecord} {path : PathBuf}

theorem quiet_readToString (path : PathBuf) : Quiet (readToString path) :=
  Quiet.read.bind fun _ => Quiet.of_lift _

theorem quiet_loadShadow (mountId : MountId) (remoteId : RemoteId) :
    Quiet (loadShadow mountId remoteId) := Quiet.read.bind fun _ => Quiet.of_pure _

theorem quiet_writeAtomic (path : PathBuf) (contents : Text) : Quiet (writeAtomic path contents) :=
  Quiet.write fun _ => rfl

theorem quiet_removeCleanProjection (path : PathBuf) : Quiet (removeCleanProjection path) := by
  refine Quiet.read.bind fun durable => ?_
  exact Quiet.ite (Quiet.write fun _ => rfl) (Quiet.of_pure ())

theorem quiet_writeHydratedAssetFiles (outputRoot : PathBuf) (assets : List HydratedAsset) :
    Quiet (writeHydratedAssetFiles outputRoot assets) := by
  induction assets with
  | nil => exact Quiet.of_pure ()
  | cons asset assets ih =>
      refine (Quiet.of_lift _).bind fun path => Quiet.bind ?_ fun _ => ih
      exact Quiet.write fun _ => rfl

theorem quiet_updateHydratedMediaManifest (assets : List HydratedAsset) :
    Quiet (updateHydratedMediaManifest assets) := by
  simp only [updateHydratedMediaManifest]
  exact Quiet.ite (Quiet.of_pure ()) (Quiet.write fun _ => rfl)

theorem quiet_replaceHydratedMediaManifest (outputRoot : PathBuf) (assets : List HydratedAsset) :
    Quiet (replaceHydratedMediaManifest outputRoot assets) := by
  refine Quiet.read.bind fun durable => ?_
  exact Quiet.ite (Quiet.of_pure ()) (Quiet.write fun _ => rfl)

theorem quiet_saveFreshness (mountId : MountId) (remoteId : RemoteId)
    (rewrite : FreshnessStateRecord → FreshnessStateRecord) :
    Quiet (do
      let freshness ← getFreshnessState mountId remoteId
      match freshness with
      | none => pure ()
      | some freshness => saveFreshnessState (rewrite freshness)) := by
  refine (Quiet.read.bind fun _ => Quiet.of_pure _).bind fun freshness => ?_
  cases freshness with
  | none => exact Quiet.of_pure ()
  | some freshness => exact Quiet.write fun _ => rfl

theorem quiet_setRemoteHint (pending : Bool) (mountId : MountId) (remoteId : RemoteId) :
    Quiet (setRemoteHint pending mountId remoteId) :=
  quiet_saveFreshness mountId remoteId fun freshness =>
    { freshness with remoteHintPending := pending }

theorem quiet_freshnessTimestamp : Quiet freshnessTimestamp := fun _ h => ⟨h, rfl⟩

theorem quiet_recordDeletedRemoteObservation :
    Quiet (recordDeletedRemoteObservation mount entity) := by
  refine quiet_freshnessTimestamp.bind fun observedAt => Quiet.bind ?_ fun _ => ?_
  · exact Quiet.write fun _ => rfl
  · exact quiet_saveFreshness _ _ fun freshness =>
      { freshness with remoteHintPending := true, lastCheckedAt := some observedAt }

theorem quiet_writeParentDatabaseSchemaCache (outputRoot : PathBuf) :
    Quiet (writeParentDatabaseSchemaCache source mount entity outputRoot) := by
  refine Quiet.read.bind fun durable => ?_
  cases parentDatabaseEntity durable.store mount.mountId entity with
  | none => exact Quiet.of_pure ()
  | some database =>
      refine (Quiet.of_lift _).bind fun schema => ?_
      cases schema with
      | none => exact Quiet.of_pure ()
      | some schema => exact Quiet.write fun _ => rfl

end Host

end Locality.Daemon
