/-
  Daemon/RecordOperations.lean --- the operations that write records do steps: a daemon
  hydration, the hydration of a pull, the pulls that list the remote, and the scheduled
  pull.
-/
import Locality.Daemon.RecordSteps

set_option autoImplicit false

namespace Locality.Daemon

open Locality.Core Locality.Foundation Locality.Foundation.Fallible

variable {tracked mount : MountConfig} {yaml : YamlSerde} {entity : EntityRecord} {path outputRoot : PathBuf}
  {key : EntityKey} {rendered : HydratedEntity} {pre : Records → Prop}

/-- The entity is stored under its key. -/
def Stores (key : EntityKey) (entity : EntityRecord) (records : Records) : Prop :=
  records.entities.get key = some entity

/-! ## A daemon hydration -/

theorem performs_markDirtyIfAllowed :
    Performs tracked (Stores key entity) (markDirtyIfAllowed entity) :=
  Performs.ite (performs_mark .dirty) (Performs.of_pure ())

theorem performs_markConflictedIfAllowed :
    Performs tracked (Stores key entity) (markConflictedIfAllowed entity) :=
  Performs.ite (performs_mark .conflicted) (Performs.of_pure ())

theorem quiet_canReplaceFile : Quiet (canReplaceFile yaml mount entity path) := by
  refine Quiet.read.bind fun durable => Quiet.ite (Quiet.of_pure _) ?_
  exact (quiet_readToString path).bind fun _ => (quiet_loadShadow _ _).returning

theorem quiet_remoteMatchesShadow :
    Quiet (remoteMatchesShadow yaml mount entity rendered.shadow) := by
  refine (quiet_loadShadow _ _).bind fun shadow => ?_
  cases shadow with
  | none => exact Quiet.of_pure _
  | some shadow => exact Quiet.of_pure _

theorem quiet_sameVersionShadowDrifted :
    Quiet (sameVersionShadowDrifted yaml mount entity rendered) :=
  Quiet.ite (Quiet.of_pure _) (quiet_remoteMatchesShadow.returning)

theorem performs_materialize (hmount : mount.mountId = key.1) (localContents : Text)
    (useBaseShadow : Bool) :
    Performs tracked (Stores key entity)
      (materializeConflictFromContents yaml mount outputRoot entity path rendered localContents
        useBaseShadow) := by
  refine (quiet_writeHydratedAssetFiles _ _).before fun _ => ?_
  refine (quiet_updateHydratedMediaManifest _).before fun _ => ?_
  refine (quiet_loadShadow _ _).before fun baseShadow => ?_
  refine (quiet_writeAtomic _ _).before fun _ => ?_
  refine performs_render hmount ⟨_, rfl⟩ ?_
  dsimp only
  exact Quiet.ite ((quiet_setRemoteHint _ _ _).returning) (Quiet.of_pure _)

theorem performs_refresh (hmount : mount.mountId = key.1) (useBaseShadow : Bool) :
    Performs tracked (Stores key entity)
      (refreshExistingConflict yaml mount outputRoot entity path rendered useBaseShadow) := by
  refine (quiet_readToString path).before fun contents => ?_
  cases localVersionFromConflictMarkers yaml contents with
  | none => exact performs_markConflictedIfAllowed.returning
  | some localContents => exact performs_materialize hmount localContents useBaseShadow

theorem performs_hydrateEditedFile (hmount : mount.mountId = key.1) :
    Performs tracked (Stores key entity)
      (hydrateEditedFile yaml mount outputRoot entity path rendered) := by
  have hskipped : ∀ {α : Type} {op : HostM α}, Performs tracked (Stores key entity) op →
      Performs tracked (Stores key entity)
        (op >>= fun _ => (return .skippedDirty : HostM HydrationOutcome)) :=
    fun hop => hop.returning
  have hmarkers : Quiet (fileHasUnresolvedConflictMarkers path) :=
    (quiet_readToString path).returning
  refine hmarkers.before fun hasConflictMarkers => Performs.ite ?_ ?_
  · refine quiet_sameVersionShadowDrifted.before fun drifted => Performs.ite ?_ ?_
    · exact hskipped (performs_refresh hmount true)
    · exact Performs.ite (hskipped (performs_refresh hmount false))
        (hskipped performs_markConflictedIfAllowed)
  · refine quiet_remoteMatchesShadow.before fun matched => Performs.ite ?_ ?_
    · exact hskipped ((quiet_readToString path).before fun _ =>
        performs_materialize hmount _ true)
    · exact hskipped performs_markDirtyIfAllowed

theorem performs_reconcileRemoteNotFound (canReplace : Bool) :
    Performs tracked (Stores key entity) (reconcileRemoteNotFound mount entity path canReplace) := by
  refine quiet_recordDeletedRemoteObservation.before fun _ => Performs.ite ?_ ?_
  · exact performs_markDirtyIfAllowed.returning
  · refine (quiet_removeCleanProjection path).before fun _ => ?_
    exact (performs_deleteEntity _ _).returning

variable {request : HydrationRequest}

theorem performs_hydrateReplaceableFile (hmount : mount.mountId = key.1)
    (previousShadow : Option ShadowDocument) :
    Performs tracked (Stores key entity)
      (hydrateReplaceableFile request mount outputRoot entity path previousShadow rendered) := by
  have hreplace : Performs tracked (Stores key entity)
      (replaceProjection request mount outputRoot entity path rendered) := by
    refine (quiet_writeHydratedAssetFiles _ _).before fun _ => ?_
    refine (quiet_replaceHydratedMediaManifest _ _).before fun _ => ?_
    refine (quiet_writeAtomic _ _).before fun _ => ?_
    refine performs_render hmount ⟨.hydrated, rfl⟩ ?_
    exact (quiet_setRemoteHint _ _ _).returning
  have hkeep : Quiet (do
      keepRemoteHintPending request.mountId request.remoteId
      return .hydrated : HostM HydrationOutcome) :=
    (quiet_setRemoteHint _ _ _).returning
  have hprobe : Quiet (sameVersionLiveModeProbeShouldContinue request entity previousShadow
      rendered) := by
    refine Quiet.ite (Quiet.of_pure _) ?_
    refine (Quiet.read.returning).bind fun freshness => ?_
    split
    · exact Quiet.of_pure _
    · exact Quiet.bind (fun _ h => ⟨h, rfl⟩) fun _ => Quiet.of_pure _
  refine Performs.ite (Performs.ite (Performs.of_quiet hkeep) ?_) hreplace
  exact hprobe.before fun _ => Performs.ite (Performs.of_quiet hkeep) hreplace

variable {source : HydrationSource}

theorem performs_hydrateRendered (hmount : mount.mountId = key.1) (canReplace : Bool) :
    Performs tracked (Stores key entity)
      (hydrateRendered yaml source request mount outputRoot entity path canReplace rendered) := by
  refine Performs.ite (Performs.of_quiet (Quiet.of_throw _)) ?_
  refine (quiet_loadShadow _ _).before fun previousShadow => ?_
  refine (quiet_writeParentDatabaseSchemaCache _).before fun _ => ?_
  exact Performs.ite (performs_hydrateEditedFile hmount)
    (performs_hydrateReplaceableFile hmount previousShadow)

/-- A request of the daemon does steps. -/
theorem performs_hydrateRequest (outputRoot : Option PathBuf) :
    Performs tracked pre (hydrateRequest yaml source outputRoot request) := by
  unfold hydrateRequest requireMount requireEntity
  refine Performs.ite (Performs.of_quiet (Quiet.of_throw _)) ?_
  rw [bind_assoc]
  refine Performs.bind_read fun durable => ?_
  cases hmount : durable.store.mounts request.mountId with
  | none => exact Performs.of_quiet (Quiet.of_throw_bind _)
  | some mount =>
      rw [pure_bind, bind_assoc]
      refine Performs.bind_read fun durable' => ?_
      cases hentity : durable'.store.entities.get (request.mountId, request.remoteId) with
      | none => exact Performs.of_quiet (Quiet.of_throw_bind _)
      | some entity =>
          have hkeyed : mount.mountId = (request.mountId, request.remoteId).1 :=
            durable.store.mountsKeyed _ _ hmount
          have hstored : ∀ records, (pre records ∧ records = durable.store.records) ∧
              records = durable'.store.records →
                Stores (request.mountId, request.remoteId) entity records := by
            rintro records ⟨-, rfl⟩
            exact hentity
          rw [pure_bind]
          refine Performs.weaken ?_ hstored
          refine quiet_canReplaceFile.before fun canReplace => Performs.ite ?_ ?_
          · exact performs_markDirtyIfAllowed.returning
          · refine Quiet.read.before fun durable => ?_
            split
            · exact Performs.ite (performs_reconcileRemoteNotFound canReplace)
                (Performs.of_quiet (Quiet.of_throw _))
            · exact performs_hydrateRendered hkeyed canReplace

/-! ## The hydration of a pull -/

namespace Pull

theorem quiet_store {α : Type} {op : HostM α} (h : Quiet op) : Quiet (store op) := h.adapt _

theorem quiet_connector {α : Type} {op : HostM α} (h : Quiet op) : Quiet (connector op) :=
  h.adapt _

theorem quiet_writeFile {op : HostM Unit} (h : Quiet op) : Quiet (writeFile path op) := h.adapt _

theorem quiet_readToString (path : PathBuf) : Quiet (readToString path) := by
  refine (quiet_store Quiet.read).bind fun durable => ?_
  split
  · exact Quiet.of_throw _
  · exact Quiet.of_throw _
  · exact Quiet.of_pure _

theorem quiet_isStubFile (path : PathBuf) : Quiet (isStubFile path) := by
  refine (quiet_store Quiet.read).bind fun durable => Quiet.ite (Quiet.of_pure _) ?_
  exact (quiet_readToString path).returning

theorem quiet_canReplaceFile : Quiet (canReplaceFile yaml mount entity path) := by
  refine (quiet_store Quiet.read).bind fun durable => Quiet.ite (Quiet.of_pure _) ?_
  refine (quiet_isStubFile path).bind fun stub => Quiet.ite (Quiet.of_pure _) ?_
  refine (quiet_readToString path).bind fun contents => ?_
  cases parseCanonicalMarkdown yaml contents with
  | error error => exact Quiet.of_pure _
  | ok parsed =>
      refine (quiet_store (quiet_loadShadow _ _)).bind fun shadow => ?_
      cases shadow with
      | none => exact Quiet.of_pure _
      | some shadow => exact Quiet.of_pure _

theorem quiet_remoteMatchesShadow :
    Quiet (remoteMatchesShadow yaml mount entity rendered.shadow) := by
  refine (quiet_store (quiet_loadShadow _ _)).bind fun shadow => ?_
  cases shadow with
  | none => exact Quiet.of_pure _
  | some shadow => exact Quiet.of_pure _

theorem quiet_sameVersionShadowDrifted :
    Quiet (sameVersionShadowDrifted yaml mount entity rendered) :=
  Quiet.ite (Quiet.of_pure _) (quiet_remoteMatchesShadow.returning)

theorem quiet_recordSyncedRemoteObservation (remoteEditedAt : Option Text) :
    Quiet (recordSyncedRemoteObservation mount entity remoteEditedAt) := by
  refine (quiet_store quiet_freshnessTimestamp).bind fun observedAt => Quiet.bind ?_ fun _ => ?_
  · exact quiet_store (Quiet.write fun _ => rfl)
  · refine (quiet_store (Quiet.read.returning)).bind fun freshness => ?_
    cases freshness with
    | none => exact Quiet.of_pure ()
    | some freshness => exact quiet_store (Quiet.write fun _ => rfl)

/-- The record is saved as the entity under another state. -/
theorem performs_mark {record : EntityRecord}
    (hrecord : ∃ state, record = { entity with hydration := state }) :
    Performs tracked (Stores key entity) (store (saveEntity record)) := by
  obtain ⟨state, rfl⟩ := hrecord
  exact (Locality.Daemon.performs_mark state).adapt _

theorem performs_materialize (hmount : mount.mountId = key.1) (localContents : Text)
    (useBaseShadow : Bool) :
    Performs tracked (Stores key entity)
      (materializeConflictFromContents yaml mount entity path outputRoot rendered localContents
        useBaseShadow) := by
  refine (quiet_store (quiet_loadShadow _ _)).before fun baseShadow => ?_
  refine (quiet_writeFile (quiet_writeAtomic _ _)).before fun _ => ?_
  refine performs_pullRender hmount ?_ ?_
  · split
    · exact ⟨_, rfl⟩
    · refine ⟨markedDirty entity.hydration, ?_⟩
      unfold dirtyRecord
      rw [withState_pull_markDirty]
      rfl
  · dsimp only
    exact Quiet.ite ((quiet_recordSyncedRemoteObservation _).returning)
      (Quiet.of_pure _)

theorem performs_refresh (hmount : mount.mountId = key.1) (useBaseShadow : Bool) :
    Performs tracked (Stores key entity)
      (refreshExistingConflict yaml mount entity path outputRoot rendered useBaseShadow) := by
  refine (quiet_readToString path).before fun contents => ?_
  cases localVersionFromConflictMarkers yaml contents with
  | none =>
      exact (performs_mark ⟨_, pull_markConflicted⟩).returning
  | some localContents => exact performs_materialize hmount localContents useBaseShadow

variable {mountPoint : PathBuf}

theorem performs_hydrateEditedFile (hmount : mount.mountId = key.1) :
    Performs tracked (Stores key entity)
      (hydrateEditedFile yaml mountPoint mount entity path outputRoot rendered) := by
  have hmarkers : Quiet (fileHasUnresolvedConflictMarkers path) :=
    (quiet_readToString path).returning
  refine hmarkers.before fun hasConflictMarkers => Performs.ite ?_ ?_
  · refine quiet_sameVersionShadowDrifted.before fun drifted => Performs.ite ?_ ?_
    · exact (performs_refresh hmount true).returning
    · refine Performs.ite ?_ ?_
      · exact (performs_refresh hmount false).returning
      · exact (performs_mark ⟨_, pull_markConflicted⟩).returning
  · refine quiet_remoteMatchesShadow.before fun matched => Performs.ite ?_ ?_
    · refine Performs.returning ?_
      exact (quiet_readToString path).before fun _ =>
        performs_materialize hmount _ true
    · exact (performs_mark ⟨_, withState_pull_markDirty⟩).returning

variable {source : HydrationSource}

theorem performs_hydrateEntity (hmount : mount.mountId = key.1) :
    Performs tracked (Stores key entity)
      (hydrateEntity yaml source mountPoint mount entity path outputRoot) := by
  refine quiet_canReplaceFile.before fun canReplace => ?_
  refine (quiet_store Quiet.read).before fun durable => ?_
  split
  · refine Performs.ite ?_ (Performs.of_quiet (Quiet.of_throw _))
    refine (quiet_store quiet_recordDeletedRemoteObservation).before fun _ => ?_
    refine Performs.ite ?_ ?_
    · exact (performs_mark ⟨_, withState_pull_markDirty⟩).returning
    · refine (quiet_writeFile (quiet_removeCleanProjection _)).before fun _ => ?_
      exact ((performs_deleteEntity _ _).adapt _).returning
  · refine (quiet_connector (quiet_writeParentDatabaseSchemaCache _)).before fun _ => ?_
    have hassets : ∀ assets, Quiet (writeAssets outputRoot assets) := fun assets =>
      (quiet_connector (quiet_writeHydratedAssetFiles _ _)).bind fun _ =>
        quiet_connector (quiet_updateHydratedMediaManifest _)
    refine (hassets _).before fun _ => Performs.ite ?_ ?_
    · refine Performs.returning ?_
      refine (quiet_connector (quiet_replaceHydratedMediaManifest _ _)).before fun _ => ?_
      refine (quiet_writeFile (quiet_writeAtomic _ _)).before fun _ => ?_
      exact performs_pullRender hmount ⟨.hydrated, rfl⟩ (quiet_recordSyncedRemoteObservation _)
    · exact performs_hydrateEditedFile hmount

/-! ## Entries -/

variable {files : PullFiles} {entry : TreeEntry}

theorem performs_getEntity {α : Type} {next : Option EntityRecord → PullM α}
    (hnext : ∀ found, Performs tracked (fun records => pre records ∧
      records.entities.get key = found) (next found)) :
    Performs tracked pre (getEntity key >>= next) := by
  intro host h hpre
  exact hnext (host.durable.store.entities.get key) host h ⟨hpre, rfl⟩

theorem performs_saveVirtualChild : Performs tracked pre (saveVirtualChild entry) := by
  apply performs_getEntity
  intro existing
  apply Performs.of_step (.listed .virtualChild entry false none)
  rintro host hrunning ⟨-, hget⟩
  have hsave := records_saveEntity (virtualChildEntityRecord entry existing) hrunning
  rw [← hget] at hsave ⊢
  exact hsave

theorem performs_saveVirtualChildren (entries : List TreeEntry) :
    Performs tracked pre (saveVirtualChildren entries) := by
  induction entries generalizing pre with
  | nil => exact Performs.of_pure ()
  | cons entry entries ih => exact performs_saveVirtualChild.bind fun _ => ih

/-- The repair never fails, and does to the records what it does in a scheduled pull. -/
theorem records_repair (record : EntityRecord) (text : Text) {host : Host}
    (h : host.writesLeft = none) :
    ∃ repair host', repairLegacyGmailDraftMessageIdCollision mount record text host =
        (.ok repair, host') ∧ host'.writesLeft = none ∧
      host'.records = host.records.repaired mount record text := by
  obtain ⟨durable, nowMs, left⟩ := host
  cases h
  unfold repairLegacyGmailDraftMessageIdCollision Records.repaired Records.legacyDraft
  cases hdraft : isGmailDraft mount record.remoteId record.path with
  | false => exact ⟨_, _, rfl, rfl, rfl⟩
  | true =>
      simp only [Bool.not_true, Bool.false_eq_true, if_false, if_true]
      have hread : (store readDurable : PullM Durable) ⟨durable, nowMs, none⟩ =
          (.ok durable, ⟨durable, nowMs, none⟩) := rfl
      rw [run_bind, hread]
      dsimp only
      cases hfind : durable.store.entities.findByPath mount.mountId record.path with
      | none =>
          refine ⟨_, _, rfl, rfl, ?_⟩
          simp only [Host.records, Store.records, hfind, Option.filter_none]
      | some occupant =>
          by_cases hsame : occupant.remoteId = record.remoteId
          · refine ⟨_, _, by simp only [if_pos hsame]; rfl, rfl, ?_⟩
            simp only [Host.records, Store.records, hfind, Option.filter_some, ne_eq, hsame,
              not_true, decide_false, Bool.false_and, Bool.false_eq_true, if_false]
          · cases hclean : isCleanLegacyGmailDraftMessageId occupant with
            | false =>
                refine ⟨_, _, by simp only [if_neg hsame, hclean]; rfl, rfl, ?_⟩
                simp only [Host.records, Store.records, hfind, Option.filter_some, hclean,
                  Bool.and_false, Bool.false_eq_true, if_false]
            | true =>
                refine ⟨_, _, by simp only [if_neg hsame, hclean, if_true]; rfl, rfl, ?_⟩
                simp only [Host.records, hfind, Store.records, Option.filter_some, ne_eq, hsame,
                  not_false_eq_true, decide_true, hclean, Bool.and_self, if_true]
                exact records_retireLegacyDraft _ _ _ _ _

/-- The record of an entry is saved, after a draft was retired where one lies at its path. -/
theorem performs_saveAfterRepair (rule : ListingRule) (preserve : Bool)
    (existing : Option EntityRecord) (projected : TreeEntry) :
    Performs mount (fun records => pre records ∧ records.entities.get entry.key = existing)
      (saveEntityAfterGmailDraftRepair files mount projected
        (rule.record entry existing preserve)) := by
  apply Performs.of_step (.listed rule entry preserve
    (some (gmailDraftReplacementFrontmatter projected)))
  rintro host hrunning ⟨-, hget⟩
  obtain ⟨repair, host', hrepair, hrunning', hrecords⟩ := @records_repair mount
    (rule.record entry existing preserve) (gmailDraftReplacementFrontmatter projected) host
    hrunning
  obtain ⟨hrunning'', hsaved⟩ := @Quiet.after_bind _ _ _
    (store (saveEntity (rule.record entry existing preserve)))
    (fun _ => files.repairGmailDraftProjection projected
      (gmailDraftReplacementFrontmatter projected) repair) host' _
    (records_saveEntity (rule.record entry existing preserve) hrunning')
    (fun _ => Quiet.of_leavesStore (files.repair_leaves _ _ _))
  unfold saveEntityAfterGmailDraftRepair
  rw [run_bind, hrepair]
  refine ⟨hrunning'', hsaved.trans ?_⟩
  rw [hrecords, ← hget]
  rfl

/-! ## Listings -/

theorem performs_saveListedEntry (project : TreeEntry → EntityRecord → TreeEntry)
    (preserved : List RemoteId) :
    Performs mount pre (saveListedEntry files mount project preserved entry) := by
  apply performs_getEntity
  intro existing
  refine (performs_saveAfterRepair .explicit _ existing _).bind fun _ => ?_
  refine Performs.of_quiet ((Quiet.of_leavesStore (files.rename_leaves _ _)).bind fun _ => ?_)
  exact Quiet.of_leavesStore (files.stub_leaves _)

theorem performs_saveListedEntries (project : TreeEntry → EntityRecord → TreeEntry)
    (preserved : List RemoteId) (entries : List TreeEntry) (stubbed : Nat) :
    Performs mount pre (saveListedEntries files mount project preserved entries stubbed) := by
  induction entries generalizing pre stubbed with
  | nil => exact Performs.of_pure _
  | cons entry entries ih =>
      exact (performs_saveListedEntry project preserved).bind fun wrote => ih _

theorem performs_saveVirtualListedEntries (entries : List TreeEntry) :
    Performs mount pre (saveVirtualListedEntries files mount entries) := by
  induction entries generalizing pre with
  | nil => exact Performs.of_pure ()
  | cons entry entries ih =>
      refine Performs.bind ?_ fun _ => ih
      apply performs_getEntity
      intro existing
      exact performs_saveAfterRepair .virtualChild false existing _

variable {contentRoot : PathBuf}

theorem quiet_listEntities : Quiet (listEntities mount) :=
  (quiet_store Quiet.read).returning

theorem quiet_remoteMoveBlockers (sourceRoot : PathBuf) (entities : List EntityRecord) :
    Quiet (remoteMoveBlockers yaml contentRoot mount sourceRoot entities) := by
  induction entities with
  | nil => exact Quiet.of_pure _
  | cons entity entities ih =>
      refine Quiet.ite ih (Quiet.bind ?_ fun canMove => ih.returning)
      exact Quiet.ite (Quiet.of_pure _) (Quiet.ite (Quiet.of_pure _) quiet_canReplaceFile)

theorem quiet_blockedMovesOf (existingEntities : List EntityRecord) (entries : List TreeEntry) :
    Quiet (blockedMovesOf yaml contentRoot mount existingEntities entries) := by
  induction entries with
  | nil => exact Quiet.of_pure _
  | cons entry entries ih =>
      unfold blockedMovesOf
      split
      · exact ih
      · refine Quiet.ite ih ((quiet_remoteMoveBlockers _ _).bind fun blockers => ?_)
        exact ih.returning

theorem quiet_remoteMovePlan (entries : List TreeEntry) :
    Quiet (remoteMovePlan yaml mountPoint contentRoot mount entries) :=
  quiet_listEntities.bind fun _ => (quiet_blockedMovesOf _ _).returning

theorem quiet_prunedEntities (subtrees : List (List EntityRecord)) :
    Quiet (prunedEntities yaml contentRoot mount subtrees) := by
  have hremoved : ∀ subtree, Quiet (stalePlainChildSubtreeCanBeRemoved yaml contentRoot mount
      subtree) := by
    intro subtree
    induction subtree with
    | nil => exact Quiet.of_pure _
    | cons entity subtree ih =>
        refine Quiet.ite ih (quiet_canReplaceFile.bind fun canReplace => ?_)
        exact Quiet.ite (Quiet.of_pure _) ih
  induction subtrees with
  | nil => exact Quiet.of_pure _
  | cons subtree subtrees ih =>
      refine Quiet.ite ih ((hremoved subtree).bind fun _ => ih.returning)

theorem quiet_removeProjections (removals : List (PathBuf × EntityKind)) :
    Quiet (removeProjections removals) := by
  have hremove : ∀ path kind, Quiet (removeCleanEntityProjection path kind) := by
    intro path kind
    have hdirectory : Quiet (do
        let durable ← store readDurable
        if (durable.files path).isSome then
          throw (.writeFile path (.io "Not a directory (os error 20)".toList))
        else pure () : PullM Unit) :=
      (quiet_store Quiet.read).bind fun _ => Quiet.ite (Quiet.of_throw _) (Quiet.of_pure ())
    have hfile : Quiet (writeFile path (removeCleanProjection path)) :=
      quiet_writeFile (quiet_removeCleanProjection path)
    cases kind with
    | page => exact hfile
    | database => exact hdirectory
    | directory => exact hdirectory
    | asset => exact hfile
    | unknown name => exact hfile
  induction removals with
  | nil => exact Quiet.of_pure ()
  | cons removal removals ih => exact (hremove _ _).bind fun _ => ih

theorem performs_deleteEntities (mountId : MountId) (remoteIds : List RemoteId) :
    Performs tracked pre (deleteEntities mountId remoteIds) := by
  induction remoteIds generalizing pre with
  | nil => exact Performs.of_pure ()
  | cons remoteId remoteIds ih => exact ((performs_deleteEntity _ _).adapt _).bind fun _ => ih

theorem performs_prunePlain (parent : PathBuf) (returned : List RemoteId) :
    Performs tracked pre (pruneStalePlainDirectoryChildren yaml contentRoot mount parent
      returned) := by
  refine quiet_listEntities.before fun entities => ?_
  refine (quiet_prunedEntities _).before fun pruned => ?_
  refine (quiet_removeProjections _).before fun _ => ?_
  exact (performs_deleteEntities _ _).returning

theorem performs_pruneVirtual (parent : PathBuf) (returned : List RemoteId) :
    Performs tracked pre (pruneStaleVirtualChildren mount parent returned) := by
  refine quiet_listEntities.before fun entities => ?_
  exact (performs_deleteEntities _ _).returning

/-! ## The pulls -/

variable {source : SourceAdapter} {wanted : EntityRecord → PullM Bool}

theorem performs_hydrate (hmount : mount.mountId = key.1) :
    Performs tracked (Stores key entity) (hydrate yaml source mountPoint contentRoot mount entity) :=
  performs_hydrateEntity hmount

theorem quiet_listChildren (container : ChildContainer) (parent : PathBuf) :
    Quiet (connector (liftM (source.listChildren mount.mountId container parent)) :
      PullM ListChildrenResult) := quiet_connector (Quiet.of_lift _)

/-- An entity that was just read is the one stored. -/
theorem performs_found {α : Type} {op : PullM α} {remoteId : RemoteId}
    (hop : Performs tracked (Stores (mount.mountId, remoteId) entity) op) :
    Performs tracked (fun records => pre records ∧
      records.entities.get (mount.mountId, remoteId) = some entity) op :=
  hop.weaken fun _ h => h.2

theorem performs_hydrateIfPresent (hwanted : ∀ entity, Quiet (wanted entity))
    (remoteId : RemoteId) (report : PullReport) :
    Performs tracked pre (hydrateIfPresent yaml source mountPoint contentRoot mount remoteId
      wanted report) := by
  apply performs_getEntity
  intro found
  cases found with
  | none => exact Performs.of_pure _
  | some entity =>
      apply performs_found
      refine (hwanted entity).before fun hydrates => ?_
      refine Performs.ite (Performs.of_pure _) ?_
      exact (performs_hydrate rfl).returning

theorem performs_hydrateEach (hwanted : ∀ entity, Quiet (wanted entity))
    (remoteIds : List RemoteId) (report : PullReport) :
    Performs tracked pre (hydrateEach yaml source mountPoint contentRoot mount wanted remoteIds
      report) := by
  induction remoteIds generalizing pre report with
  | nil => exact Performs.of_pure _
  | cons remoteId remoteIds ih =>
      exact (performs_hydrateIfPresent hwanted _ _).bind fun report => ih report

theorem performs_pullWorkspaceVirtualMountRoot :
    Performs tracked pre (pullWorkspaceVirtualMountRoot source mount) :=
  (quiet_listChildren _ _).before fun _ =>
    (performs_saveVirtualChildren _).returning

theorem quiet_shouldRepairMissingMedia (entity : EntityRecord) :
    Quiet (shouldRepairMissingMedia contentRoot entity) := by
  refine Quiet.ite ((quiet_store Quiet.read).bind fun durable => ?_) (Quiet.of_pure _)
  exact Quiet.ite (Quiet.of_pure _) ((quiet_readToString _).returning)

theorem performs_hydrateMountRoot (entries : List TreeEntry) (plan : RemoteMovePlan)
    (report : PullReport) :
    Performs tracked pre
      (hydrateMountRoot yaml source mountPoint contentRoot mount entries plan report) := by
  unfold hydrateMountRoot
  split
  · exact Performs.of_pure _
  · apply performs_getEntity
    intro found
    cases found with
    | none => exact Performs.of_quiet (Quiet.of_throw _)
    | some rootEntity =>
        apply performs_found
        refine Performs.ite (Performs.of_pure _) ?_
        exact (performs_hydrate rfl).returning

theorem performs_pullMountRoot :
    Performs mount pre (pullMountRoot yaml source files mountPoint contentRoot mount) := by
  refine (quiet_connector (Quiet.of_lift _)).before fun entries => ?_
  refine (quiet_remoteMovePlan _).before fun plan => ?_
  refine (performs_saveListedEntries _ _ _ _).bind fun stubbed => ?_
  refine (performs_hydrateMountRoot _ _ _).bind fun report => ?_
  refine Performs.returning ?_
  exact Performs.ite (Performs.of_pure _)
    (performs_hydrateEach quiet_shouldRepairMissingMedia _ _)

theorem performs_hydratePages
    {descend : List RemoteId → List RemoteId → PullM (PullReport × List RemoteId)}
    (hdescend : ∀ ids visited, Performs tracked (fun _ => True) (descend ids visited))
    (ids : List RemoteId) (report : PullReport) (visited : List RemoteId) :
    Performs tracked pre
      (hydratePages yaml source mountPoint contentRoot mount descend ids report visited) := by
  induction ids generalizing pre report visited with
  | nil => exact Performs.of_pure _
  | cons pageId ids ih =>
      refine Performs.ite (ih report visited) ?_
      apply performs_getEntity
      intro found
      cases found with
      | none => exact ih _ _
      | some page =>
          refine Performs.ite (ih _ _) (performs_found ?_)
          refine (performs_hydrate rfl).bind fun outcome => ?_
          have hlist : Performs tracked (fun _ => True) (do
              let result ← connector (liftM (source.listChildren mount.mountId
                (.pageChildren page.remoteId) (pageContainerPath page.path)))
              saveVirtualChildren result.entries
              let below ← descend (pageIds result.entries) (pageId :: visited)
              hydratePages yaml source mountPoint contentRoot mount descend ids
                ((({ report.count outcome with
                    enumerated := (report.count outcome).enumerated + result.entries.length }
                      : PullReport)).add below.1) below.2) :=
            (quiet_listChildren _ _).before fun result =>
              (performs_saveVirtualChildren _).bind fun _ => (hdescend _ _).bind fun _ => ih _ _
          cases outcome with
          | hydrated => exact hlist
          | mergedDirty => exact hlist
          | remoteDeleted => exact ih _ _
          | skippedDirty => exact ih _ _
          | conflicted conflict => exact ih _ _

theorem performs_hydratePageDescendants (fuel : Nat) (ids visited : List RemoteId) :
    Performs tracked pre
      (hydratePageDescendants yaml source mountPoint contentRoot mount fuel ids visited) := by
  induction fuel generalizing pre ids visited with
  | zero => exact Performs.of_pure _
  | succ fuel ih => exact performs_hydratePages (fun ids visited => ih ids visited) _ _ _

theorem performs_pullPageDirectoryPath (fuel : Nat) {page : EntityRecord}
    (hmount : mount.mountId = key.1) :
    Performs tracked (Stores key page)
      (pullPageDirectoryPath yaml source mountPoint contentRoot mount fuel page) := by
  refine (performs_hydrate hmount).bind fun outcome => Performs.ite (Performs.of_pure _) ?_
  refine (quiet_listChildren _ _).before fun result => ?_
  refine (performs_saveVirtualChildren _).bind fun _ => ?_
  exact (performs_hydratePageDescendants _ _ _).returning

theorem performs_listPlainDirectory (container : ChildContainer) (parent : PathBuf) :
    Performs mount pre
      (listPlainDirectory yaml source files mountPoint contentRoot mount container parent) := by
  refine (quiet_listChildren _ _).before fun result => ?_
  have hlist : Performs mount (fun _ => True) (do
      let plan ← remoteMovePlan yaml mountPoint contentRoot mount result.entries
      let stubbed ← saveListedEntries files mount projectedEntry plan.preserveRemoteIds
        result.entries 0
      return (result.entries, plan, stubbed)) :=
    (quiet_remoteMovePlan _).before fun plan =>
      (performs_saveListedEntries _ _ _ _).returning
  exact Performs.ite ((performs_prunePlain _ _).bind fun _ => hlist)
    (hlist.weaken fun _ _ => trivial)

theorem performs_listVirtualDirectory (container : ChildContainer) (parent : PathBuf) :
    Performs mount pre (listVirtualDirectory source files mount container parent) := by
  refine (quiet_listChildren _ _).before fun result => ?_
  have hlist : Performs mount (fun _ => True) (do
      saveVirtualListedEntries files mount result.entries
      return result.entries) :=
    (performs_saveVirtualListedEntries _).returning
  exact Performs.ite ((performs_pruneVirtual _ _).bind fun _ => hlist)
    (hlist.weaken fun _ _ => trivial)

theorem performs_traverseDirectories
    {descend : List RemoteId → List RemoteId → PullM DirectoryTraversal}
    (hdescend : ∀ ids visited, Performs mount (fun _ => True) (descend ids visited))
    (ids : List RemoteId) (traversal : DirectoryTraversal) :
    Performs mount pre
      (traverseDirectories yaml source files mountPoint contentRoot mount descend ids
        traversal) := by
  induction ids generalizing pre traversal with
  | nil => exact Performs.of_pure _
  | cons directoryId ids ih =>
      refine Performs.ite (ih _) ?_
      apply performs_getEntity
      intro found
      cases found with
      | none => exact ih _
      | some directory =>
          refine Performs.ite (ih _) ?_
          exact (performs_listPlainDirectory _ _).bind fun listing =>
            (hdescend _ _).bind fun below => ih _

theorem performs_collectDescendants (fuel : Nat) (ids visited : List RemoteId) :
    Performs mount pre (collectConnectorDirectoryDescendants yaml source files mountPoint
      contentRoot mount fuel ids visited) := by
  induction fuel generalizing pre ids visited with
  | zero => exact Performs.of_pure _
  | succ fuel ih => exact performs_traverseDirectories (fun ids visited => ih ids visited) _ _

theorem performs_pullDatabaseRows (hasStateRoot : Bool) (target : VirtualDirectoryTarget)
    (rowIds : List RemoteId) (enumerated : Nat) (report : PullReport) :
    Performs tracked pre (pullDatabaseRows yaml source files mountPoint contentRoot mount
      hasStateRoot target rowIds enumerated report) := by
  unfold pullDatabaseRows
  split
  · exact Performs.of_pure _
  · refine Performs.ite (Performs.of_pure _) ?_
    refine (quiet_connector (Quiet.of_lift _)).before fun schema => ?_
    have hrows : Performs tracked pre (if enumerated ≤ databaseDirectoryRowHydrationLimit then
        hydrateEach yaml source mountPoint contentRoot mount rowWanted rowIds report
      else return report) :=
      Performs.ite (performs_hydrateEach (fun _ => Quiet.of_pure _) _ _) (Performs.of_pure _)
    cases schema with
    | none => exact hrows
    | some schema =>
        exact (Quiet.of_leavesStore (files.schema_leaves _ _)).before fun _ => hrows

theorem quiet_shouldHydratePlainDirectoryPage (entity : EntityRecord) :
    Quiet (shouldHydratePlainDirectoryPage contentRoot entity) := by
  refine Quiet.ite (Quiet.of_pure _) (Quiet.ite (Quiet.of_pure _) ?_)
  refine (quiet_store Quiet.read).bind fun durable => ?_
  exact Quiet.ite (Quiet.of_pure _) (quiet_isStubFile _)

theorem performs_pullVirtualDirectory (fuel : Nat) (hasStateRoot : Bool)
    (target : VirtualDirectoryTarget) :
    Performs mount pre (pullVirtualDirectory yaml source files mountPoint contentRoot mount fuel
      hasStateRoot target) := by
  refine (performs_listVirtualDirectory _ _).bind fun entries => ?_
  refine (performs_pullDatabaseRows _ _ _ _ _).bind fun report => ?_
  split
  · exact (performs_hydratePageDescendants _ _ _).returning
  · exact Performs.of_pure _
  · exact Performs.of_pure _
  · exact Performs.of_pure _

theorem performs_pullPlainDirectory (fuel : Nat) (hasStateRoot : Bool)
    (target : VirtualDirectoryTarget) :
    Performs mount pre (pullPlainDirectory yaml source files mountPoint contentRoot mount fuel
      hasStateRoot target) := by
  have hpages : ∀ ids report, Performs mount (fun _ => True)
      (hydrateEach yaml source mountPoint contentRoot mount
        (shouldHydratePlainDirectoryPage contentRoot) ids report) := fun ids report =>
    performs_hydrateEach quiet_shouldHydratePlainDirectoryPage ids report
  refine (performs_listPlainDirectory _ _).bind fun listing => ?_
  refine (performs_pullDatabaseRows _ _ _ _ _).bind fun report => ?_
  refine (performs_collectDescendants _ _ _).bind fun traversal => ?_
  dsimp only
  split
  · exact (performs_hydratePageDescendants _ _ _).bind fun _ => hpages _ _
  · exact hpages _ _
  · exact hpages _ _
  · exact hpages _ _

theorem performs_pullVirtualDirectoryPath (fuel : Nat) (hasStateRoot : Bool)
    (relativePath : PathBuf) :
    Performs mount pre (pullVirtualDirectoryPath yaml source files mountPoint contentRoot mount
      fuel hasStateRoot relativePath) := by
  have htarget : Quiet (virtualDirectoryTarget mount relativePath) := by
    refine Quiet.ite (Quiet.of_pure _) (quiet_listEntities.bind fun entities => ?_)
    split
    · exact Quiet.of_pure _
    · refine (quiet_store Quiet.read).bind fun durable => ?_
      split
      · exact Quiet.of_pure _
      · split <;> exact Quiet.of_pure _
  refine htarget.before fun target => ?_
  cases target with
  | none => exact Performs.of_pure _
  | some target =>
      refine Performs.ite ?_ ?_
      · exact (performs_pullVirtualDirectory _ _ _).returning
      · exact (performs_pullPlainDirectory _ _ _).returning

theorem performs_pullEntityPath (relativePath : PathBuf) :
    Performs tracked pre
      (pullEntityPath yaml source mountPoint contentRoot mount relativePath) := by
  refine Performs.bind_pullRead fun durable => ?_
  cases hfind : durable.store.entities.findByPath mount.mountId relativePath with
  | none => exact Performs.of_quiet (Quiet.of_throw _)
  | some entity =>
      obtain ⟨hget, hmount, -⟩ := EntityTable.findByPath_eq_some.mp hfind
      have hstored : ∀ records, pre records ∧ records = durable.store.records →
          Stores entity.key entity records := by
        rintro records ⟨-, rfl⟩
        exact hget
      refine Performs.weaken ?_ hstored
      exact (performs_hydrate hmount.symm).returning

end Pull

/-! ## A scheduled pull -/

section Scheduled

variable {η : Type} {source : ScheduledPullSource} {strategy : FetchScheduleStrategy}
  {engine : HydrationEngine η} {tick : PullSchedulerTick} {policy : HydrationPolicy}
  {contentRoot : Option PathBuf}

/-- A scheduled pull of the mount does steps: it lists the entries that it enumerates. -/
theorem scheduledPull_performs (st : Reconciling η) :
    ∃ steps, (reconcileScheduledPullWithStateRoot yaml source strategy engine tick policy
      contentRoot [mount] st).2.store.records = st.store.records.run mount steps := by
  cases henumerate : (strategy.mountPlan ⟨mount, tick, policy⟩).enumerate with
  | false =>
      refine ⟨[], ?_⟩
      rw [reconcileScheduledPull_idle henumerate]
      rfl
  | true =>
      cases hentries : source.enumerateMount mount with
      | error error =>
          refine ⟨[], ?_⟩
          unfold reconcileScheduledPullWithStateRoot reconcileMounts
          simp only [henumerate, Bool.not_true, Bool.false_eq_true, if_false, hentries]
          rw [run_bind, run_lift]
          rfl
      | ok entries =>
          have hleave := @reconcileScheduledPull_leaves η yaml source mount strategy engine tick
            policy contentRoot entries st henumerate hentries
          refine hleave.invariant (P := fun view => ∃ steps,
            view.records = st.store.records.run mount steps) ?_ ⟨[], rfl⟩
          rintro entry - view view' ⟨steps, hsteps⟩ hentry
          refine ⟨steps ++ [.listed .scheduled entry
            ((remoteMovePlan st.store mount entries).contains entry.remoteId)
            (some (gmailDraftReplacementFrontmatter { entry with
              path := (view.records.recordOf (remoteMovePlan st.store mount entries)
                entry).path }))], ?_⟩
          rw [hentry.records, Records.run_append, ← hsteps]
          rfl

end Scheduled

end Locality.Daemon
