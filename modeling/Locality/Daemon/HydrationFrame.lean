/-
  Daemon/HydrationFrame.lean --- a request changes the file at its own path and the
  record of its own entity, and no other file and no other record.

  The frame holds of interrupted requests too: it is about what every single write
  leaves alone.
-/
import Locality.Daemon.HydrationRun

set_option autoImplicit false

namespace Locality.Daemon

open Locality.Core Locality.Foundation Locality.Foundation.Fallible

/-! ## What lies beside a page -/

/-- The mounts, and the files and records other than one. -/
structure Surroundings where
  mounts : MountId → Option MountConfig
  files : PathBuf → Option FileContent
  entities : EntityKey → Option EntityRecord

def Host.beside (path : PathBuf) (key : EntityKey) (self : Host) : Surroundings where
  mounts := self.durable.store.mounts
  files := fun other => if other = path then none else self.durable.files other
  entities := fun other =>
    if other = key then none else self.durable.store.entities.get other

theorem files_of_beside {path : PathBuf} {key : EntityKey} {host host' : Host}
    (h : host'.beside path key = host.beside path key) {other : PathBuf} (hother : other ≠ path) :
    host'.durable.files other = host.durable.files other := by
  have hfile := congrFun (congrArg Surroundings.files h) other
  simp only [Host.beside, if_neg hother] at hfile
  exact hfile

theorem get_of_beside {path : PathBuf} {key : EntityKey} {host host' : Host}
    (h : host'.beside path key = host.beside path key) {other : EntityKey} (hother : other ≠ key) :
    host'.durable.store.entities.get other = host.durable.store.entities.get other := by
  have hentity := congrFun (congrArg Surroundings.entities h) other
  simp only [Host.beside, if_neg hother] at hentity
  exact hentity

section Frame

variable {path : PathBuf} {key : EntityKey} {mount : MountConfig} {entity : EntityRecord}
  {yaml : YamlSerde} {source : HydrationSource} {outputRoot : PathBuf}
  {rendered : HydratedEntity} {request : HydrationRequest}

/-- The operation changes nothing beside the page. -/
abbrev Stays {α : Type} (path : PathBuf) (key : EntityKey) (op : HostM α) : Prop :=
  Keeps (Host.beside path key) op

/-! ## Single writes -/

theorem stays_read : Stays path key readDurable := fun _ => rfl

theorem stays_write {effect : Durable → Durable}
    (heffect : ∀ host : Host, ({ host with durable := effect host.durable } : Host).beside path
      key = host.beside path key) : Stays path key (writeDurable effect) := by
  rintro ⟨durable, nowMs, left⟩
  cases left with
  | none => exact heffect ⟨durable, nowMs, none⟩
  | some left =>
      cases left with
      | zero => rfl
      | succ left => exact heffect ⟨durable, nowMs, some left⟩

/-- A file written or removed at the path. -/
theorem stays_file (contents : Option FileContent) :
    Stays path key (writeDurable fun durable =>
      { durable with files := Function.update durable.files path contents }) := by
  apply stays_write
  intro host
  have hfiles : (fun other => if other = path then none
      else Function.update host.durable.files path contents other) =
      fun other => if other = path then none else host.durable.files other := by
    funext other
    by_cases hother : other = path
    · rw [if_pos hother, if_pos hother]
    · rw [if_neg hother, if_neg hother, Function.update_of_ne hother]
  simp only [Host.beside, hfiles]

theorem stays_writeAtomic (contents : Text) : Stays path key (writeAtomic path contents) :=
  stays_file (some (.text contents))

theorem stays_removeCleanProjection : Stays path key (removeCleanProjection path) :=
  Keeps.bind stays_read fun _ => Keeps.ite (stays_file none) (Keeps.of_pure ())

theorem stays_saveEntity {record : EntityRecord} (hkey : record.key = key) :
    Stays path key (saveEntity record) := by
  intro host
  unfold saveEntity
  rw [run_bind]
  simp only [readDurable]
  cases hsave : host.durable.store.entities.save record with
  | error error => rfl
  | ok entities =>
      have hentities : (fun other => if other = key then none else entities.get other) =
          fun other => if other = key then none
            else host.durable.store.entities.get other := by
        funext other
        by_cases hother : other = key
        · rw [if_pos hother, if_pos hother]
        · rw [if_neg hother, if_neg hother, EntityTable.get_of_save_ne hsave (hkey ▸ hother)]
      obtain ⟨durable, nowMs, left⟩ := host
      -- what is written is the table that was saved, whatever is left to write
      have hafter : ∀ left : Option Nat,
          (⟨durable.withStore { durable.store with entities := entities }, nowMs, left⟩ :
            Host).beside path key = (⟨durable, nowMs, left⟩ : Host).beside path key := by
        intro left
        simp only [Host.beside, Durable.withStore, hentities]
      cases left with
      | none => exact hafter none
      | some left =>
          cases left with
          | zero => rfl
          | succ left => exact hafter (some left)

theorem stays_deleteEntity {mountId : MountId} {remoteId : RemoteId}
    (hkey : (mountId, remoteId) = key) : Stays path key (deleteEntity mountId remoteId) := by
  subst hkey
  apply stays_write
  intro host
  have hentities : (fun other => if other = (mountId, remoteId) then none
      else (host.durable.store.entities.delete (mountId, remoteId)).get other) =
      fun other => if other = (mountId, remoteId) then none
        else host.durable.store.entities.get other := by
    funext other
    by_cases hother : other = (mountId, remoteId)
    · rw [if_pos hother, if_pos hother]
    · rw [if_neg hother, if_neg hother, EntityTable.get_delete_ne _ hother]
  simp only [Host.beside, Durable.withStore, hentities]

/-! ## Reads, and writes to what is no page -/

theorem stays_readToString (path' : PathBuf) : Stays path key (readToString path') :=
  Keeps.bind stays_read fun _ => Keeps.of_lift _

theorem stays_loadShadow (mountId : MountId) (remoteId : RemoteId) :
    Stays path key (loadShadow mountId remoteId) :=
  Keeps.bind stays_read fun _ => Keeps.of_pure _

theorem stays_saveShadow (mountId : MountId) (shadow : ShadowDocument) :
    Stays path key (saveShadow mountId shadow) := stays_write fun _ => rfl

theorem stays_rewriteFreshness (mountId : MountId) (remoteId : RemoteId)
    (rewrite : FreshnessStateRecord → FreshnessStateRecord) :
    Stays path key (do
      let freshness ← getFreshnessState mountId remoteId
      match freshness with
      | none => pure ()
      | some freshness => saveFreshnessState (rewrite freshness)) := by
  refine Keeps.bind (Keeps.bind stays_read fun _ => Keeps.of_pure _) fun freshness => ?_
  cases freshness with
  | none => exact Keeps.of_pure ()
  | some freshness => exact stays_write fun _ => rfl

theorem stays_setRemoteHint (pending : Bool) (mountId : MountId) (remoteId : RemoteId) :
    Stays path key (setRemoteHint pending mountId remoteId) :=
  stays_rewriteFreshness mountId remoteId fun freshness =>
    { freshness with remoteHintPending := pending }

theorem stays_writeHydratedAssetFiles (assets : List HydratedAsset) :
    Stays path key (writeHydratedAssetFiles outputRoot assets) := by
  induction assets with
  | nil => exact Keeps.of_pure ()
  | cons asset assets ih =>
      refine Keeps.bind (Keeps.of_lift _) fun path => Keeps.bind ?_ fun _ => ih
      exact stays_write fun _ => rfl

theorem stays_updateHydratedMediaManifest (assets : List HydratedAsset) :
    Stays path key (updateHydratedMediaManifest assets) := by
  simp only [updateHydratedMediaManifest]
  exact Keeps.ite (Keeps.of_pure ()) (stays_write fun _ => rfl)

theorem stays_replaceHydratedMediaManifest (assets : List HydratedAsset) :
    Stays path key (replaceHydratedMediaManifest outputRoot assets) := by
  refine Keeps.bind stays_read fun durable => ?_
  exact Keeps.ite (Keeps.of_pure ()) (stays_write fun _ => rfl)

theorem stays_writeParentDatabaseSchemaCache :
    Stays path key (writeParentDatabaseSchemaCache source mount entity outputRoot) := by
  refine Keeps.bind stays_read fun durable => ?_
  cases parentDatabaseEntity durable.store mount.mountId entity with
  | none => exact Keeps.of_pure ()
  | some database =>
      refine Keeps.bind (Keeps.of_lift _) fun schema => ?_
      cases schema with
      | none => exact Keeps.of_pure ()
      | some schema => exact stays_write fun _ => rfl

theorem stays_canReplaceFile : Stays path key (canReplaceFile yaml mount entity path) := by
  refine Keeps.bind stays_read fun durable => Keeps.ite (Keeps.of_pure _) ?_
  refine Keeps.bind (stays_readToString path) fun contents => ?_
  exact Keeps.bind (stays_loadShadow _ _) fun shadow => Keeps.of_pure _

theorem stays_remoteMatchesShadow (shadow : ShadowDocument) :
    Stays path key (remoteMatchesShadow yaml mount entity shadow) := by
  refine Keeps.bind (stays_loadShadow _ _) fun stored => ?_
  cases stored with
  | none => exact Keeps.of_pure _
  | some stored => exact Keeps.of_pure _

/-! ## The branches of a request -/

theorem stays_markDirtyIfAllowed (hkey : entity.key = key) :
    Stays path key (markDirtyIfAllowed entity) :=
  Keeps.ite (stays_saveEntity hkey) (Keeps.of_pure ())

theorem stays_markConflictedIfAllowed (hkey : entity.key = key) :
    Stays path key (markConflictedIfAllowed entity) :=
  Keeps.ite (stays_saveEntity hkey) (Keeps.of_pure ())

theorem stays_materialize (hkey : entity.key = key) (localContents : Text)
    (useBaseShadow : Bool) :
    Stays path key (materializeConflictFromContents yaml mount outputRoot entity path rendered
      localContents useBaseShadow) := by
  refine Keeps.bind (stays_writeHydratedAssetFiles _) fun _ => ?_
  refine Keeps.bind (stays_updateHydratedMediaManifest _) fun _ => ?_
  refine Keeps.bind (stays_loadShadow _ _) fun baseShadow => ?_
  refine Keeps.bind (stays_writeAtomic _) fun _ => ?_
  refine Keeps.bind (stays_saveShadow _ _) fun _ => ?_
  refine Keeps.bind (stays_saveEntity hkey) fun _ => ?_
  dsimp only
  exact Keeps.ite (Keeps.bind (stays_setRemoteHint _ _ _) fun _ => Keeps.of_pure _)
    (Keeps.of_pure _)

theorem stays_refresh (hkey : entity.key = key) (useBaseShadow : Bool) :
    Stays path key (refreshExistingConflict yaml mount outputRoot entity path rendered
      useBaseShadow) := by
  refine Keeps.bind (stays_readToString path) fun contents => ?_
  cases localVersionFromConflictMarkers yaml contents with
  | none => exact Keeps.bind (stays_markConflictedIfAllowed hkey) fun _ => Keeps.of_pure _
  | some localContents => exact stays_materialize hkey localContents useBaseShadow

theorem stays_hydrateEditedFile (hkey : entity.key = key) :
    Stays path key (hydrateEditedFile yaml mount outputRoot entity path rendered) := by
  have hskipped : ∀ {α : Type} {op : HostM α}, Stays path key op →
      Stays path key (op >>= fun _ => (return .skippedDirty : HostM HydrationOutcome)) :=
    fun hop => Keeps.bind hop fun _ => Keeps.of_pure _
  have hdrifted : Stays path key (sameVersionShadowDrifted yaml mount entity rendered) :=
    Keeps.ite (Keeps.of_pure _) (Keeps.bind (stays_remoteMatchesShadow _) fun _ =>
      Keeps.of_pure _)
  refine Keeps.bind (Keeps.bind (stays_readToString path) fun _ => Keeps.of_pure _)
    fun hasConflictMarkers => Keeps.ite ?_ ?_
  · refine Keeps.bind hdrifted fun drifted => Keeps.ite ?_ (Keeps.ite ?_ ?_)
    · exact hskipped (stays_refresh hkey true)
    · exact hskipped (stays_refresh hkey false)
    · exact hskipped (stays_markConflictedIfAllowed hkey)
  · refine Keeps.bind (stays_remoteMatchesShadow _) fun matched => Keeps.ite ?_ ?_
    · exact hskipped (Keeps.bind (stays_readToString path) fun _ =>
        stays_materialize hkey _ true)
    · exact hskipped (stays_markDirtyIfAllowed hkey)

theorem stays_hydrateReplaceableFile (hkey : entity.key = key)
    (previousShadow : Option ShadowDocument) :
    Stays path key (hydrateReplaceableFile request mount outputRoot entity path previousShadow
      rendered) := by
  have hreplace : Stays path key
      (replaceProjection request mount outputRoot entity path rendered) := by
    refine Keeps.bind (stays_writeHydratedAssetFiles _) fun _ => ?_
    refine Keeps.bind (stays_replaceHydratedMediaManifest _) fun _ => ?_
    refine Keeps.bind (stays_writeAtomic _) fun _ => ?_
    refine Keeps.bind (stays_saveShadow _ _) fun _ => ?_
    refine Keeps.bind (stays_saveEntity hkey) fun _ => ?_
    exact Keeps.bind (stays_setRemoteHint _ _ _) fun _ => Keeps.of_pure _
  have hkeep : Stays path key (do
      keepRemoteHintPending request.mountId request.remoteId
      return .hydrated : HostM HydrationOutcome) :=
    Keeps.bind (stays_setRemoteHint _ _ _) fun _ => Keeps.of_pure _
  have hprobe : Stays path key (sameVersionLiveModeProbeShouldContinue request entity
      previousShadow rendered) := by
    refine Keeps.ite (Keeps.of_pure _) ?_
    refine Keeps.bind (Keeps.bind stays_read fun _ => Keeps.of_pure _) fun freshness => ?_
    split
    · exact Keeps.of_pure _
    · exact Keeps.bind (fun _ => rfl) fun _ => Keeps.of_pure _
  refine Keeps.ite (Keeps.ite hkeep ?_) hreplace
  exact Keeps.bind hprobe fun _ => Keeps.ite hkeep hreplace

theorem stays_hydrateRendered (hkey : entity.key = key) (canReplace : Bool) :
    Stays path key (hydrateRendered yaml source request mount outputRoot entity path canReplace
      rendered) := by
  refine Keeps.ite (Keeps.of_throw _) ?_
  refine Keeps.bind (stays_loadShadow _ _) fun previousShadow => ?_
  refine Keeps.bind stays_writeParentDatabaseSchemaCache fun _ => ?_
  exact Keeps.ite (stays_hydrateEditedFile hkey) (stays_hydrateReplaceableFile hkey _)

theorem stays_reconcileRemoteNotFound (hkey : entity.key = key)
    (hmount : (mount.mountId, entity.remoteId) = key) (canReplace : Bool) :
    Stays path key (reconcileRemoteNotFound mount entity path canReplace) := by
  have hobserve : Stays path key (recordDeletedRemoteObservation mount entity) := by
    refine Keeps.bind (fun _ => rfl) fun observedAt => Keeps.bind ?_ fun _ => ?_
    · exact stays_write fun _ => rfl
    · exact stays_rewriteFreshness _ _ fun freshness =>
        { freshness with remoteHintPending := true, lastCheckedAt := some observedAt }
  refine Keeps.bind hobserve fun _ => Keeps.ite ?_ ?_
  · exact Keeps.bind (stays_markDirtyIfAllowed hkey) fun _ => Keeps.of_pure _
  · refine Keeps.bind stays_removeCleanProjection fun _ => ?_
    exact Keeps.bind (stays_deleteEntity hmount) fun _ => Keeps.of_pure _

/-! ## A request -/

/-- A request that finds its mount and its entity changes nothing beside its page. -/
theorem hydrateRequest_beside {root : Option PathBuf} {host : Host}
    (hmount : host.durable.store.mounts request.mountId = some mount) :
    (hydrateRequest yaml source root request host).2.beside (requestPath mount request.path)
        request.key = host.beside (requestPath mount request.path) request.key := by
  unfold hydrateRequest
  split
  · rfl
  · have hrequire : requireMount request.mountId host = (.ok mount, host) := by
      unfold requireMount
      rw [run_bind]
      simp only [readDurable, hmount]
      rfl
    rw [run_bind, hrequire]
    simp only []
    rw [run_bind]
    unfold requireEntity
    rw [run_bind]
    simp only [readDurable]
    cases hentity : host.durable.store.entities.get (request.mountId, request.remoteId) with
    | none => rfl
    | some entity =>
        have hkey : entity.key = request.key := EntityTable.get_key hentity
        have hplaced : (mount.mountId, entity.remoteId) = request.key := by
          rw [host.durable.store.mountsKeyed _ _ hmount]
          exact congrArg (Prod.mk request.mountId) (congrArg Prod.snd hkey)
        simp only [run_pure]
        refine Keeps.bind stays_canReplaceFile (fun canReplace => Keeps.ite ?_ ?_) host
        · exact Keeps.bind (stays_markDirtyIfAllowed hkey) fun _ => Keeps.of_pure _
        · refine Keeps.bind stays_read fun durable => ?_
          split
          · exact Keeps.ite (stays_reconcileRemoteNotFound hkey hplaced canReplace)
              (Keeps.of_throw _)
          · exact stays_hydrateRendered hkey canReplace

/-- A request that finds no mount, or no entity, or asks for another target, fails and
changes nothing. -/
theorem hydrateRequest_unfound {root : Option PathBuf} {host : Host}
    (h : request.targetState = .hydrated → host.durable.store.mounts request.mountId ≠ none →
      host.durable.store.entities.get request.key = none) :
    (hydrateRequest yaml source root request host).2 = host := by
  unfold hydrateRequest
  split
  · rfl
  · rename_i htarget
    rw [run_bind]
    unfold requireMount
    rw [run_bind]
    simp only [readDurable]
    cases hmount : host.durable.store.mounts request.mountId with
    | none => rfl
    | some mount =>
        have hget : host.durable.store.entities.get (request.mountId, request.remoteId) = none :=
          h (not_not.mp htarget) (by rw [hmount]; exact Option.some_ne_none _)
        simp only [run_pure]
        rw [run_bind]
        unfold requireEntity
        rw [run_bind]
        simp only [readDurable, hget]
        rfl

/-- A request finds its mount and its entity, or changes nothing. -/
theorem hydrateRequest_found (request : HydrationRequest) (root : Option PathBuf) (host : Host) :
    (hydrateRequest yaml source root request host).2 = host ∨
      request.targetState = .hydrated ∧
        ∃ mount entity, host.durable.store.mounts request.mountId = some mount ∧
          host.durable.store.entities.get request.key = some entity := by
  by_cases hunfound : request.targetState = .hydrated →
      host.durable.store.mounts request.mountId ≠ none →
        host.durable.store.entities.get request.key = none
  · exact .inl (hydrateRequest_unfound hunfound)
  · obtain ⟨htarget, hfound⟩ := Classical.not_imp.mp hunfound
    obtain ⟨hmount, hentity⟩ := Classical.not_imp.mp hfound
    obtain ⟨mount, hmount⟩ := Option.ne_none_iff_exists'.mp hmount
    obtain ⟨entity, hentity⟩ := Option.ne_none_iff_exists'.mp hentity
    exact .inr ⟨htarget, mount, entity, hmount, hentity⟩

theorem mounts_hydrateRequest {root : Option PathBuf} (host : Host) :
    (hydrateRequest yaml source root request host).2.durable.store.mounts =
      host.durable.store.mounts := by
  obtain hsame | ⟨-, mount, -, hmount, -⟩ :=
    @hydrateRequest_found yaml source request root host
  · rw [hsame]
  · exact congrArg Surroundings.mounts (@hydrateRequest_beside _ _ _ _ root _ hmount)

theorem hydrateRequest_running {root : Option PathBuf} (durable : Durable) (nowMs : Nat) :
    ∃ durable', (hydrateRequest yaml source root request (Host.running durable nowMs)).2 =
      Host.running durable' nowMs := by
  obtain hsame | ⟨htarget, mount, entity, hmount, hentity⟩ :=
    @hydrateRequest_found yaml source request root (Host.running durable nowMs)
  · exact ⟨durable, hsame⟩
  · obtain ⟨durable', hrun, -⟩ := @hydrateRequest_page yaml source root request durable nowMs
      mount entity htarget hmount hentity
    exact ⟨durable', congrArg Prod.snd hrun⟩

/-- No effect on a page moves its entity. -/
theorem path_of_apply {page : PageState} {effect : PageEffect} {after : EntityRecord}
    (hentity : page.entity = some entity) (h : (page.apply effect).entity = some after) :
    entity.path = after.path := by
  cases effect with
  | keep =>
      cases hentity.symm.trans h
      rfl
  | hint pending =>
      cases hentity.symm.trans h
      rfl
  | mark state =>
      simp only [PageState.apply, PageState.withState, hentity, Option.map_some] at h
      cases h
      rfl
  | markDeleted state observedAt =>
      simp only [PageState.apply, PageState.withState, PageState.observedDeleted, hentity,
        Option.map_some] at h
      cases h
      rfl
  | replace rendered text =>
      simp only [PageState.apply, PageState.withHint, hentity, Option.map_some] at h
      cases h
      rfl
  | merge rendered text =>
      simp only [PageState.apply] at h
      split at h
      · rw [hentity] at h
        cases h
        rfl
      · simp only [PageState.withHint, hentity, Option.map_some] at h
        cases h
        rfl
  | remove observedAt => cases h

/-- An entity that is stored after a request was stored before it, at the same path. -/
theorem hydrateRequest_path {root : Option PathBuf} {durable : Durable} {nowMs : Nat}
    {after : EntityRecord} {other : EntityKey}
    (h : (hydrateRequest yaml source root request
      (Host.running durable nowMs)).2.durable.store.entities.get other = some after) :
    ∃ before, durable.store.entities.get other = some before ∧ before.path = after.path := by
  obtain hsame | ⟨htarget, mount, entity, hmount, hentity⟩ :=
    @hydrateRequest_found yaml source request root (Host.running durable nowMs)
  · rw [hsame] at h
    exact ⟨after, h, rfl⟩
  · by_cases hother : other = request.key
    · -- the request's own entity: every effect on a page keeps its path
      subst hother
      obtain ⟨durable', hrun, hpage, -⟩ := @hydrateRequest_page yaml source root request durable
        nowMs mount entity htarget hmount hentity
      rw [hrun] at h
      have hafter : (durable'.page (requestPath mount request.path) request.key).entity =
          some after := h
      rw [hpage] at hafter
      exact ⟨entity, hentity, path_of_apply hentity hafter⟩
    · have hbeside := @hydrateRequest_beside mount yaml source request root
        (Host.running durable nowMs) hmount
      rw [get_of_beside hbeside hother] at h
      exact ⟨after, h, rfl⟩

end Frame

end Locality.Daemon
