/-
  Daemon/HydrationCrash.lean --- a request that stops while it puts a render in place,
  and the next request for the same entity.

  The file, the shadow, the record and the hint are written one after another, so a
  request that stops leaves its page in one of five stages (`hydrateRequest_stages`).
  The next request finishes the work exactly where it takes the file it finds for clean
  (`hydrateRequest_interrupted_iff`); after the file and before the shadow it does not,
  unless the old shadow says what the new file says.
-/
import Locality.Daemon.HydrationSafety

set_option autoImplicit false

namespace Locality.Daemon

open Locality.Core Locality.Foundation Locality.Foundation.Fallible

/-! ## Stages -/

/-- How far the page was written. -/
inductive ReplaceStage where
  | untouched
  | file
  | shadow
  | entity
  | hint
  deriving DecidableEq, Repr

/-- The page of which some of what a replacement writes was written. -/
def PageState.atStage (self : PageState) (rendered : HydratedEntity) (text : Text) :
    ReplaceStage → PageState
  | .untouched => self
  | .file => { self with file := some (.text text) }
  | .shadow => { self with file := some (.text text), shadow := some rendered.shadow }
  | .entity =>
      { self with
        file := some (.text text)
        shadow := some rendered.shadow
        entity := self.entity.map fun entity =>
          hydratedRecord entity rendered.shadow rendered.remoteEditedAt }
  | .hint => self.apply (.replace rendered text)

/-- A request that puts the render of the connector in the place of the page's file. -/
structure ReplacesPage (yaml : YamlSerde) (outputRoot : PathBuf) (entity : EntityRecord)
    (reason : HydrationReason) (nowMs : Nat) (page : PageState) (fetched : Fetched)
    (rendered : HydratedEntity) : Prop where
  readable : ∀ bytes, page.file ≠ some (.invalidUtf8 bytes)
  clean : PageState.replaceable yaml page = true
  render : fetched.render = .ok rendered
  entityId : rendered.shadow.entityId = entity.remoteId
  schema : fetched.schema = .ok ()
  assets : checkAssets outputRoot rendered.assets = .ok ()
  taken : liveModeKeeps entity reason nowMs page rendered = false

/-! ## Runs with a budget of writes -/

section Budget

variable {path : PathBuf} {key : EntityKey} {nowMs : Nat}
  {mounts : MountId → Option MountConfig} {page : PageState}

/-- The page of a host, whatever the host still gets to write. -/
structure HasPage (path : PathBuf) (key : EntityKey) (nowMs : Nat)
    (mounts : MountId → Option MountConfig) (page : PageState) (host : Host) : Prop where
  clock : host.nowMs = nowMs
  page : host.durable.page path key = page
  mounts : host.durable.store.mounts = mounts

/-- The page of a host is at a stage. -/
def AtStage (path : PathBuf) (key : EntityKey) (mounts : MountId → Option MountConfig)
    (page : PageState) (rendered : HydratedEntity) (text : Text) (host : Host) : Prop :=
  host.durable.store.mounts = mounts ∧
    ∃ stage, host.durable.page path key = page.atStage rendered text stage

variable {rendered : HydratedEntity} {text : Text} {start : PageState}

/-- A write that is known on the page, or a stop before it. -/
theorem ends_write {effect : Durable → Durable} {page' : PageState} {stop : Host → Prop}
    (hpage : ∀ durable, durable.page path key = page → (effect durable).page path key = page')
    (hmounts : ∀ durable, (effect durable).store.mounts = durable.store.mounts)
    (hstop : ∀ host, HasPage path key nowMs mounts page host → stop host) :
    EndsOrStops (writeDurable effect) (HasPage path key nowMs mounts page) ()
      (HasPage path key nowMs mounts page') stop := by
  rintro ⟨durable, now, left⟩ hat
  match left with
  | none =>
      exact .inl ⟨_, rfl, hat.clock, hpage durable hat.page, (hmounts durable).trans hat.mounts⟩
  | some 0 => exact .inr ⟨interrupted, _, rfl, hstop _ hat⟩
  | some (left + 1) =>
      exact .inl ⟨_, rfl, hat.clock, hpage durable hat.page, (hmounts durable).trans hat.mounts⟩

/-- A write beside the page, or a stop before it. -/
theorem ends_write_beside {effect : Durable → Durable} {stop : Host → Prop}
    (hpage : ∀ durable, (effect durable).page path key = durable.page path key)
    (hmounts : ∀ durable, (effect durable).store.mounts = durable.store.mounts)
    (hstop : ∀ host, HasPage path key nowMs mounts page host → stop host) :
    EndsOrStops (writeDurable effect) (HasPage path key nowMs mounts page) ()
      (HasPage path key nowMs mounts page) stop :=
  ends_write (fun durable hat => (hpage durable).trans hat) hmounts hstop

theorem ends_read {β : Type} {next : Durable → HostM β} {b : β} {post stop : Host → Prop}
    (hnext : ∀ durable, durable.page path key = page →
      EndsOrStops (next durable) (fun host => HasPage path key nowMs mounts page host ∧
        host.durable = durable) b post stop) :
    EndsOrStops (readDurable >>= next) (HasPage path key nowMs mounts page) b post stop := by
  intro host hat
  exact hnext host.durable hat.page host ⟨hat, rfl⟩

theorem ends_weaken {α : Type} {op : HostM α} {pre pre' post stop : Host → Prop} {a : α}
    (h : EndsOrStops op pre a post stop) (hpre : ∀ host, pre' host → pre host) :
    EndsOrStops op pre' a post stop := fun host hat => h host (hpre host hat)

variable {stop : Host → Prop}

theorem ends_writeHydratedAssetFiles {outputRoot : PathBuf} {assets : List HydratedAsset}
    (h : checkAssets outputRoot assets = .ok ())
    (hstop : ∀ host, HasPage path key nowMs mounts page host → stop host) :
    EndsOrStops (writeHydratedAssetFiles outputRoot assets) (HasPage path key nowMs mounts page) ()
      (HasPage path key nowMs mounts page) stop := by
  induction assets with
  | nil => exact EndsOrStops.of_pure ()
  | cons asset assets ih =>
      unfold checkAssets at h
      unfold writeHydratedAssetFiles
      cases hpath : mountRelativePath outputRoot asset.path with
      | error error => rw [hpath] at h; cases h
      | ok target =>
          rw [hpath] at h
          apply EndsOrStops.bind (EndsOrStops.of_yields (Yields.of_lift _))
          apply EndsOrStops.bind
          · exact ends_write_beside (fun _ => rfl) (fun _ => rfl) hstop
          · exact ih h

theorem ends_replaceHydratedMediaManifest (outputRoot : PathBuf) (assets : List HydratedAsset)
    (hstop : ∀ host, HasPage path key nowMs mounts page host → stop host) :
    EndsOrStops (replaceHydratedMediaManifest outputRoot assets) (HasPage path key nowMs mounts page)
      () (HasPage path key nowMs mounts page) stop := by
  unfold replaceHydratedMediaManifest
  apply ends_read
  intro durable hpage
  dsimp only
  split
  · exact ends_weaken (EndsOrStops.of_pure ()) fun host hat => hat.1
  · exact ends_weaken (ends_write_beside (fun _ => rfl) (fun _ => rfl) hstop) fun host hat => hat.1

theorem ends_writeAtomic (contents : Text)
    (hstop : ∀ host, HasPage path key nowMs mounts page host → stop host) :
    EndsOrStops (writeAtomic path contents) (HasPage path key nowMs mounts page) ()
      (HasPage path key nowMs mounts { page with file := some (.text contents) }) stop := by
  apply ends_write _ _ hstop
  · rintro durable rfl
    simp only [Durable.page, Durable.writeFile, Function.update_self]
  · intro durable
    rfl

theorem ends_saveShadow {mountId : MountId} {shadow : ShadowDocument}
    (hkey : (mountId, shadow.entityId) = key)
    (hstop : ∀ host, HasPage path key nowMs mounts page host → stop host) :
    EndsOrStops (saveShadow mountId shadow) (HasPage path key nowMs mounts page) ()
      (HasPage path key nowMs mounts { page with shadow := some shadow }) stop := by
  subst hkey
  apply ends_write _ _ hstop
  · rintro durable rfl
    simp only [Durable.page, Durable.withStore, Store.saveShadow, Function.update_self]
  · intro durable
    rfl

theorem ends_saveEntity {record record' : EntityRecord} (hentity : page.entity = some record)
    (hkey : record'.key = key) (hpath : record'.path = record.path)
    (hstop : ∀ host, HasPage path key nowMs mounts page host → stop host) :
    EndsOrStops (saveEntity record') (HasPage path key nowMs mounts page) ()
      (HasPage path key nowMs mounts { page with entity := some record' }) stop := by
  apply ends_read
  intro durable hpage
  have hget : durable.store.entities.get key = some record := by
    rw [← hentity, ← hpage]
    rfl
  obtain ⟨entities, hsave⟩ := EntityTable.exists_save_of_get hget hkey hpath
  have hget' : entities.get key = some record' := by
    rw [← hkey]
    exact EntityTable.get_of_save hsave
  rw [hsave]
  rintro ⟨durable', now, left⟩ ⟨hat, rfl⟩
  have hwritten : HasPage path key nowMs mounts { page with entity := some record' }
      ⟨durable'.withStore { durable'.store with entities := entities }, now, left⟩ := by
    refine ⟨hat.clock, ?_, hat.mounts⟩
    rw [← hpage]
    simp only [Durable.page, Durable.withStore, hget']
  cases left with
  | none => exact .inl ⟨_, rfl, hwritten⟩
  | some left =>
      cases left with
      | zero => exact .inr ⟨interrupted, _, rfl, hstop _ hat⟩
      | succ left => exact .inl ⟨_, rfl, hat.clock, hwritten.page, hwritten.mounts⟩

theorem ends_clearRemoteHint {mountId : MountId} {remoteId : RemoteId}
    (hkey : (mountId, remoteId) = key)
    (hstop : ∀ host, HasPage path key nowMs mounts page host → stop host) :
    EndsOrStops (clearRemoteHint mountId remoteId) (HasPage path key nowMs mounts page) ()
      (HasPage path key nowMs mounts (page.withHint false)) stop := by
  subst hkey
  have hread : EndsOrStops (getFreshnessState mountId remoteId)
      (HasPage path (mountId, remoteId) nowMs mounts page) page.freshness
      (fun host => HasPage path (mountId, remoteId) nowMs mounts page host ∧
        ∀ freshness, page.freshness = some freshness →
          (freshness.mountId, freshness.remoteId) = (mountId, remoteId)) stop := by
    rintro host ⟨hclock, rfl, hmounts⟩
    exact .inl ⟨host, rfl, ⟨hclock, rfl, hmounts⟩, host.durable.store.freshnessKeyed _⟩
  apply EndsOrStops.bind hread
  rintro host ⟨hat, howner⟩
  cases hfreshness : page.freshness with
  | none =>
      refine .inl ⟨host, rfl, hat.clock, ?_, hat.mounts⟩
      rw [PageState.withHint, hfreshness, Option.map_none, ← hfreshness]
      exact hat.page
  | some freshness =>
      have howned := howner freshness hfreshness
      refine ends_write ?_ ?_ hstop host hat
      · rintro durable hpage
        rw [PageState.withHint, hfreshness, ← hpage]
        simp only [Durable.page, Durable.withStore, Store.saveFreshnessState, howned,
          Function.update_self, Option.map_some]
      · intro durable
        rfl

end Budget

/-! ## The first request -/

section First

variable {yaml : YamlSerde} {source : HydrationSource} {outputRoot : PathBuf}
  {root : Option PathBuf} {mount : MountConfig} {entity : EntityRecord} {path : PathBuf}
  {key : EntityKey} {nowMs : Nat} {mounts : MountId → Option MountConfig} {page : PageState}
  {rendered : HydratedEntity} {text : Text}

theorem ends_replaceProjection {request : HydrationRequest} (hat : Located mount entity key page)
    (hid : rendered.shadow.entityId = entity.remoteId) (hrequest : request.key = key)
    (hassets : checkAssets outputRoot rendered.assets = .ok ())
    (htext : renderDocumentWithAbsoluteMediaHrefs rendered.document entity.path outputRoot =
      text) :
    EndsOrStops (replaceProjection request mount outputRoot entity path rendered)
      (HasPage path key nowMs mounts page) .hydrated
      (HasPage path key nowMs mounts (page.atStage rendered text .hint))
      (AtStage path key mounts page rendered text) := by
  have hshadow : (mount.mountId, rendered.shadow.entityId) = key := by rw [hid, hat.mounted]
  have hentity : page.atStage rendered text .entity =
      { page with
        file := some (.text text)
        shadow := some rendered.shadow
        entity := some (hydratedRecord entity rendered.shadow rendered.remoteEditedAt) } := by
    rw [PageState.atStage, hat.found, Option.map_some]
  have huntouched : ∀ host, HasPage path key nowMs mounts page host →
      AtStage path key mounts page rendered text host := fun host h => ⟨h.mounts, .untouched, h.page⟩
  unfold replaceProjection
  rw [htext]
  apply EndsOrStops.bind (ends_writeHydratedAssetFiles hassets huntouched)
  apply EndsOrStops.bind (ends_replaceHydratedMediaManifest outputRoot rendered.assets huntouched)
  apply EndsOrStops.bind (ends_writeAtomic text huntouched)
  apply EndsOrStops.bind (ends_saveShadow hshadow fun host h => ⟨h.mounts, .file, h.page⟩)
  apply EndsOrStops.bind
  · exact ends_saveEntity hat.found hat.keyed rfl fun host h => ⟨h.mounts, .shadow, h.page⟩
  · rw [← hentity]
    apply EndsOrStops.bind (ends_clearRemoteHint hrequest fun host h => ⟨h.mounts, .entity, h.page⟩)
    exact EndsOrStops.of_pure _

theorem ends_probe {request : HydrationRequest} (hrequest : request.key = key)
    (previousShadow : Option ShadowDocument) {stop : Host → Prop} :
    EndsOrStops (sameVersionLiveModeProbeShouldContinue request entity previousShadow rendered)
      (HasPage path key nowMs mounts page)
      (sameRemoteVersion entity rendered &&
        renderMatchesPreviousShadow previousShadow rendered &&
        probeContinues nowMs page.freshness)
      (HasPage path key nowMs mounts page) stop := by
  subst hrequest
  unfold sameVersionLiveModeProbeShouldContinue probeContinues
  cases hsame : sameRemoteVersion entity rendered with
  | false => exact EndsOrStops.of_pure _
  | true =>
      cases renderMatchesPreviousShadow previousShadow rendered with
      | false => exact EndsOrStops.of_pure _
      | true =>
          rintro host hat
          have hread : getFreshnessState request.mountId request.remoteId host =
              (.ok page.freshness, host) := by
            rw [← hat.page]
            rfl
          refine .inl ⟨host, ?_, hat⟩
          simp only [Bool.not_true, Bool.or_false, Bool.false_eq_true, if_false, run_bind, hread]
          cases (page.freshness.bind FreshnessStateRecord.lastLocalChangeAt).bind
              parseFreshnessTimestamp with
          | none => rfl
          | some lastLocalChangeMs =>
              rw [← hat.clock]
              rfl

theorem ends_hydrateReplaceableFile {request : HydrationRequest}
    (hat : Located mount entity key page) (hid : rendered.shadow.entityId = entity.remoteId)
    (hrequest : request.key = key)
    (hassets : checkAssets outputRoot rendered.assets = .ok ())
    (htaken : liveModeKeeps entity request.reason nowMs page rendered = false)
    (htext : renderDocumentWithAbsoluteMediaHrefs rendered.document entity.path outputRoot =
      text) :
    EndsOrStops (hydrateReplaceableFile request mount outputRoot entity path page.shadow rendered)
      (HasPage path key nowMs mounts page) .hydrated
      (HasPage path key nowMs mounts (page.atStage rendered text .hint))
      (AtStage path key mounts page rendered text) := by
  have hreplace := @ends_replaceProjection outputRoot mount entity path key nowMs mounts page rendered
    text request hat hid hrequest hassets htext
  unfold hydrateReplaceableFile
  unfold liveModeKeeps at htaken
  split
  · rename_i hreason
    simp only [hreason, decide_true, Bool.true_and, Bool.or_eq_false_iff] at htaken
    rw [htaken.1]
    simp only [Bool.false_eq_true, if_false]
    have hprobe := @ends_probe entity path key nowMs mounts page rendered request hrequest page.shadow
      (AtStage path key mounts page rendered text)
    rw [htaken.2] at hprobe
    exact EndsOrStops.bind hprobe hreplace
  · exact hreplace

theorem ends_writeParentDatabaseSchemaCache {durable : Durable} {stop : Host → Prop}
    (hschema : schemaAnswer source durable.store mount.mountId entity = .ok ())
    (hstop : ∀ host, HasPage path key nowMs mounts page host → stop host) :
    EndsOrStops (writeParentDatabaseSchemaCache source mount entity outputRoot)
      (fun host => HasPage path key nowMs mounts page host ∧ host.durable = durable) ()
      (HasPage path key nowMs mounts page) stop := by
  rintro host ⟨hat, rfl⟩
  unfold writeParentDatabaseSchemaCache
  rw [run_bind]
  simp only [readDurable]
  cases hparent : parentDatabaseEntity host.durable.store mount.mountId entity with
  | none => exact .inl ⟨host, rfl, hat⟩
  | some database =>
      dsimp only
      cases hfetch : source.fetchDatabaseSchemaYaml database.remoteId with
      | error error =>
          refine absurd hschema ?_
          rw [schemaAnswer, hparent]
          simp [hfetch, Except.map]
      | ok schema =>
          refine EndsOrStops.bind (EndsOrStops.of_yields (Yields.of_lift (.ok schema))) ?_ host hat
          cases schema with
          | none => exact EndsOrStops.of_pure ()
          | some schema => exact ends_write_beside (fun _ => rfl) (fun _ => rfl) hstop

theorem ends_hydrateRequest {request : HydrationRequest} {start : Host}
    (htarget : request.targetState = .hydrated)
    (hmount : start.durable.store.mounts request.mountId = some mount)
    (hpath : requestPath mount request.path = path) (hkey : request.key = key)
    (hat : HasPage path key nowMs mounts page start) (hentity : page.entity = some entity)
    (hreplaces : ReplacesPage yaml (root.getD mount.root) entity request.reason nowMs page
      (fetchedFor source request start.durable.store mount.mountId entity) rendered)
    (htext : renderDocumentWithAbsoluteMediaHrefs rendered.document entity.path
      (root.getD mount.root) = text) :
    EndsOrStops (hydrateRequest yaml source root request) (fun host => host = start) .hydrated
      (HasPage path key nowMs mounts (page.atStage rendered text .hint))
      (AtStage path key mounts page rendered text) := by
  have hget : start.durable.store.entities.get key = some entity := by
    rw [← hentity, ← hat.page]
    rfl
  have hkeyed : entity.key = key := EntityTable.get_key hget
  have hmountId : mount.mountId = request.mountId :=
    start.durable.store.mountsKeyed request.mountId mount hmount
  have hremoteId : entity.remoteId = request.remoteId :=
    congrArg Prod.snd (hkeyed.trans hkey.symm)
  have hlocated : Located mount entity key page := by
    refine ⟨hentity, hkeyed, ?_⟩
    rw [← hkey, hmountId]
    exact congrArg (Prod.mk request.mountId) hremoteId
  have hshadow : start.durable.store.shadows (mount.mountId, entity.remoteId) = page.shadow := by
    rw [hlocated.mounted, ← hat.page]
    rfl
  have hrender : source.fetchRender { request with path := entity.path } start.durable.store =
      .ok rendered := hreplaces.render
  unfold hydrateRequest
  rw [if_neg (not_not.mpr htarget)]
  apply EndsOrStops.bind (EndsOrStops.of_yields (yields_requireMount hmount))
  apply EndsOrStops.bind (EndsOrStops.of_yields (yields_requireEntity (hkey ▸ hget)))
  rw [hpath]
  apply EndsOrStops.bind (EndsOrStops.of_yields
    (yields_canReplaceFile hlocated hat.page hreplaces.readable))
  simp only [hreplaces.clean, Bool.not_true, Bool.false_and, Bool.false_eq_true, if_false]
  apply EndsOrStops.bind (EndsOrStops.of_yields (yields_read_exact start))
  simp only [hrender, hydrateRendered]
  rw [if_neg (not_not.mpr (hreplaces.entityId.trans hremoteId))]
  apply EndsOrStops.bind (EndsOrStops.of_yields (yields_loadShadow_exact start _ _))
  rw [hshadow]
  have hschema := @ends_writeParentDatabaseSchemaCache source (root.getD mount.root) mount
    entity path key nowMs mounts page start.durable (AtStage path key mounts page rendered text)
    hreplaces.schema fun host h => ⟨h.mounts, .untouched, h.page⟩
  apply EndsOrStops.bind (ends_weaken hschema ?_)
  · simp only [Bool.not_true, Bool.false_eq_true, if_false]
    exact ends_hydrateReplaceableFile hlocated hreplaces.entityId hkey hreplaces.assets
      hreplaces.taken htext
  · rintro host rfl
    exact ⟨hat, rfl⟩

/-- However many writes the process still makes, it leaves the page at a stage. -/
theorem hydrateRequest_stages {request : HydrationRequest} {durable : Durable}
    (left : Option Nat) (htarget : request.targetState = .hydrated)
    (hmount : durable.store.mounts request.mountId = some mount)
    (hentity : durable.store.entities.get request.key = some entity)
    (hreplaces : ReplacesPage yaml (root.getD mount.root) entity request.reason nowMs
      (durable.page (requestPath mount request.path) request.key)
      (fetchedFor source request durable.store mount.mountId entity) rendered) :
    AtStage (requestPath mount request.path) request.key durable.store.mounts
      (durable.page (requestPath mount request.path) request.key) rendered
      (renderDocumentWithAbsoluteMediaHrefs rendered.document entity.path
        (root.getD mount.root))
      (hydrateRequest yaml source root request ⟨durable, nowMs, left⟩).2 := by
  have hends := @ends_hydrateRequest yaml source root mount entity
    (requestPath mount request.path) request.key nowMs durable.store.mounts
    (durable.page (requestPath mount request.path) request.key) rendered _ request
    ⟨durable, nowMs, left⟩ htarget hmount rfl rfl ⟨rfl, rfl, rfl⟩ hentity hreplaces rfl
  exact hends.reaches rfl fun host h => ⟨h.mounts, .hint, h.page⟩

end First

/-! ## The next request -/

section Next

variable {yaml : YamlSerde} {outputRoot : PathBuf} {entity : EntityRecord}
  {reason : HydrationReason} {nowMs : Nat} {page : PageState} {fetched : Fetched}
  {rendered : HydratedEntity} {text : Text}

/-- The rendered file is there, its shadow is stored, and the entity is hydrated. -/
structure Complete (rendered : HydratedEntity) (text : Text) (page : PageState) : Prop where
  file : page.file = some (.text text)
  shadow : page.shadow = some rendered.shadow
  entity : ∃ entity, page.entity = some entity ∧ entity.hydration = .hydrated

/-- The next request takes the file for clean, and puts the render in its place unless
it is there. -/
def FinishesPage (yaml : YamlSerde) (entity : EntityRecord) (reason : HydrationReason)
    (nowMs : Nat) (rendered : HydratedEntity) (text : Text) (page : PageState) : Prop :=
  PageState.replaceable yaml page = true ∧
    (Complete rendered text page ∨ liveModeKeeps entity reason nowMs page rendered = false)

theorem complete_replace (hentity : page.entity = some entity) :
    Complete rendered text (page.apply (.replace rendered text)) := by
  refine ⟨rfl, rfl, hydratedRecord entity rendered.shadow rendered.remoteEditedAt, ?_, rfl⟩
  simp only [PageState.apply, PageState.withHint, hentity, Option.map_some]

theorem not_complete_of_state {page : PageState} {entity : EntityRecord}
    (hentity : page.entity = some entity) (hstate : entity.hydration ≠ .hydrated) :
    ¬ Complete rendered text page := by
  rintro ⟨-, -, other, hother, hhydrated⟩
  cases hentity.symm.trans hother
  exact hstate hhydrated

theorem not_complete_mark {state : HydrationState} (hentity : page.entity = some entity)
    (hstate : state ≠ .hydrated) : ¬ Complete rendered text (page.apply (.mark state)) := by
  refine @not_complete_of_state _ _ _ { entity with hydration := state } ?_ hstate
  simp only [PageState.apply, PageState.withState, hentity, Option.map_some]

/-- An entity whose file is merged is not hydrated. -/
theorem not_complete_merge {merged : Text} (hentity : page.entity = some entity) :
    ¬ Complete rendered text (page.apply (.merge rendered merged)) := by
  have hstate : ∀ hasMarkers, mergedState entity.hydration hasMarkers ≠ .hydrated := by
    intro hasMarkers
    cases entity.hydration <;> cases hasMarkers <;> decide
  refine @not_complete_of_state _ _ _
    (PageState.mergedRecord entity rendered (hasUnresolvedConflictMarkers merged)) ?_ (hstate _)
  simp only [PageState.apply]
  split
  · simp only [hentity, Option.map_some]
  · simp only [PageState.withHint, hentity, Option.map_some]

theorem not_complete_editedVerdict {contents : Text} (hentity : page.entity = some entity)
    (hassets : checkAssets outputRoot rendered.assets = .ok ())
    (hclean : entity.hydration ≠ .dirty ∧ entity.hydration ≠ .conflicted) :
    ¬ Complete rendered text (page.apply (editedVerdict yaml outputRoot entity page.shadow
      contents rendered).1) := by
  have hconflicted : markedConflicted entity.hydration ≠ .hydrated := by
    cases entity.hydration <;> decide
  have hdirty : markedDirty entity.hydration ≠ .hydrated := by
    cases hstate : entity.hydration with
    | dirty => exact absurd hstate hclean.1
    | conflicted => exact absurd hstate hclean.2
    | virtual => decide
    | stub => decide
    | hydrated => decide
  have hmerge : ∀ localText useBaseShadow, ¬ Complete rendered text (page.apply
      (mergeVerdict yaml outputRoot entity page.shadow rendered localText useBaseShadow).1) := by
    intro localText useBaseShadow
    rw [mergeVerdict, hassets]
    exact not_complete_merge hentity
  unfold editedVerdict
  split
  · split
    · split
      · exact not_complete_mark hentity hconflicted
      · exact hmerge _ _
    · exact not_complete_mark hentity hconflicted
  · split
    · exact not_complete_mark hentity hdirty
    · exact hmerge _ _

/-- With the render at hand a request completes its page exactly where it finishes it. -/
theorem complete_verdict_iff {path : PathBuf} (hentity : page.entity = some entity)
    (hclean : entity.hydration ≠ .dirty ∧ entity.hydration ≠ .conflicted)
    (hreadable : ∀ bytes, page.file ≠ some (.invalidUtf8 bytes))
    (hrender : fetched.render = .ok rendered)
    (hid : rendered.shadow.entityId = entity.remoteId) (hschema : fetched.schema = .ok ())
    (hassets : checkAssets outputRoot rendered.assets = .ok ())
    (htext : renderDocumentWithAbsoluteMediaHrefs rendered.document entity.path outputRoot =
      text) :
    Complete rendered text (page.apply (hydrationVerdict yaml outputRoot entity path reason
        nowMs page fetched).1) ↔
      FinishesPage yaml entity reason nowMs rendered text page := by
  rw [hydrationVerdict_of_readable yaml outputRoot entity hreadable, readableVerdict, hrender]
  unfold FinishesPage
  cases hreplace : PageState.replaceable yaml page with
  | false =>
      refine iff_of_false ?_ fun h => by cases h.1
      cases hfast : reason.isRemoteFastForward with
      | true =>
          refine not_complete_mark hentity ?_
          cases hstate : entity.hydration with
          | dirty => exact absurd hstate hclean.1
          | conflicted => exact absurd hstate hclean.2
          | virtual => decide
          | stub => decide
          | hydrated => decide
      | false =>
          simp only [Bool.and_false, Bool.false_eq_true, if_false, renderedVerdict, hid, ne_eq,
            not_true_eq_false, hschema, hreplace]
          cases hfile : page.file with
          | none => simp [PageState.replaceable, hfile] at hreplace
          | some content =>
              cases content with
              | invalidUtf8 bytes => exact absurd hfile (hreadable bytes)
              | text contents => exact not_complete_editedVerdict hentity hassets hclean
  | true =>
      have hverdict : renderedVerdict yaml outputRoot entity reason nowMs page fetched rendered =
          if liveModeKeeps entity reason nowMs page rendered then (.hint true, .ok .hydrated)
          else replaceVerdict outputRoot entity rendered := by
        simp only [renderedVerdict, hid, ne_eq, not_true_eq_false, if_false, hschema, hreplace]
        cases page.file with
        | none => rfl
        | some content => cases content <;> rfl
      simp only [Bool.not_true, Bool.false_and, Bool.false_eq_true, if_false, hverdict]
      cases hlive : liveModeKeeps entity reason nowMs page rendered with
      | true =>
          simp only [if_true, true_and, Bool.true_eq_false, or_false]
          exact ⟨fun h => ⟨h.file, h.shadow, h.entity⟩, fun h => ⟨h.file, h.shadow, h.entity⟩⟩
      | false =>
          simp only [Bool.false_eq_true, if_false, replaceVerdict, hassets, htext]
          exact iff_of_true (complete_replace hentity) ⟨trivial, .inr trivial⟩

end Next

/-- Stopped after any of its writes, a request leaves a page at a stage, and the next
request with the same render completes the page exactly where it finishes it. -/
theorem hydrateRequest_interrupted_iff {yaml : YamlSerde} {source : HydrationSource}
    {root : Option PathBuf} {first second : HydrationRequest} {durable stopped : Durable}
    {firstMs secondMs : Nat} {mount : MountConfig} {entity : EntityRecord}
    {rendered : HydratedEntity} (left : Option Nat)
    (hclean : entity.hydration ≠ .dirty ∧ entity.hydration ≠ .conflicted)
    (htarget : first.targetState = .hydrated)
    (hmount : durable.store.mounts first.mountId = some mount)
    (hentity : durable.store.entities.get first.key = some entity)
    (hreplaces : ReplacesPage yaml (root.getD mount.root) entity first.reason firstMs
      (durable.page (requestPath mount first.path) first.key)
      (fetchedFor source first durable.store mount.mountId entity) rendered)
    (hstopped : stopped =
      (hydrateRequest yaml source root first ⟨durable, firstMs, left⟩).2.durable)
    (htarget' : second.targetState = .hydrated) (hkey : second.key = first.key)
    (hpath : requestPath mount second.path = requestPath mount first.path)
    (hanswer : ∀ entity, stopped.store.entities.get second.key = some entity →
      (fetchedFor source second stopped.store mount.mountId entity).render = .ok rendered ∧
        (fetchedFor source second stopped.store mount.mountId entity).schema = .ok ()) :
    ∃ stage entity',
      stopped.page (requestPath mount first.path) first.key =
        (durable.page (requestPath mount first.path) first.key).atStage rendered
          (renderDocumentWithAbsoluteMediaHrefs rendered.document entity.path
            (root.getD mount.root)) stage ∧
      stopped.store.entities.get first.key = some entity' ∧
      (Complete rendered
          (renderDocumentWithAbsoluteMediaHrefs rendered.document entity.path
            (root.getD mount.root))
          ((hydrateRequest yaml source root second
            (Host.running stopped secondMs)).2.durable.page (requestPath mount first.path)
              first.key) ↔
        FinishesPage yaml entity' second.reason secondMs rendered
          (renderDocumentWithAbsoluteMediaHrefs rendered.document entity.path
            (root.getD mount.root))
          (stopped.page (requestPath mount first.path) first.key)) := by
  obtain ⟨hmounts, stage, hpage⟩ :=
    hydrateRequest_stages left htarget hmount hentity hreplaces
  rw [← hstopped] at hmounts hpage
  -- the record is the old one, or the one of a hydrated entity
  have hstored : (durable.page (requestPath mount first.path) first.key).entity = some entity :=
    hentity
  have hrecord : ∃ entity', stopped.store.entities.get first.key = some entity' ∧
      entity'.path = entity.path ∧ entity'.remoteId = entity.remoteId ∧
      entity'.hydration ≠ .dirty ∧ entity'.hydration ≠ .conflicted := by
    have hget : stopped.store.entities.get first.key =
        ((durable.page (requestPath mount first.path) first.key).atStage rendered
          (renderDocumentWithAbsoluteMediaHrefs rendered.document entity.path
            (root.getD mount.root)) stage).entity := by
      rw [← hpage]
      rfl
    rw [hget]
    have hhydrated : (hydratedRecord entity rendered.shadow rendered.remoteEditedAt).hydration ≠
        .dirty ∧ (hydratedRecord entity rendered.shadow rendered.remoteEditedAt).hydration ≠
        .conflicted := ⟨fun h => (by cases h), fun h => (by cases h)⟩
    cases stage with
    | untouched => exact ⟨entity, hstored, rfl, rfl, hclean⟩
    | file => exact ⟨entity, hstored, rfl, rfl, hclean⟩
    | shadow => exact ⟨entity, hstored, rfl, rfl, hclean⟩
    | entity =>
        refine ⟨hydratedRecord entity rendered.shadow rendered.remoteEditedAt, ?_, rfl, rfl,
          hhydrated⟩
        simp only [PageState.atStage, hstored, Option.map_some]
    | hint =>
        refine ⟨hydratedRecord entity rendered.shadow rendered.remoteEditedAt, ?_, rfl, rfl,
          hhydrated⟩
        simp only [PageState.atStage, PageState.apply, PageState.withHint, hstored,
          Option.map_some]
  obtain ⟨entity', hget', hplace, hremoteId, hclean'⟩ := hrecord
  refine ⟨stage, entity', hpage, hget', ?_⟩
  have hmount' : stopped.store.mounts second.mountId = some mount := by
    rw [hmounts, show second.mountId = first.mountId from congrArg Prod.fst hkey]
    exact hmount
  have hget'' : stopped.store.entities.get second.key = some entity' := by
    rw [hkey]
    exact hget'
  obtain ⟨hrender, hschema⟩ := hanswer entity' hget''
  obtain ⟨after, hrun, hafter, -⟩ := @hydrateRequest_page yaml source root second stopped
    secondMs mount entity' htarget' hmount' hget''
  rw [hpath, hkey] at hafter
  rw [hrun]
  change Complete _ _ (after.page _ _) ↔ _
  rw [hafter]
  refine complete_verdict_iff hget' hclean' ?_ hrender (hreplaces.entityId.trans hremoteId.symm)
    hschema hreplaces.assets (by rw [hplace])
  rw [hpage]
  intro bytes hbytes
  cases stage with
  | untouched => exact hreplaces.readable bytes hbytes
  | file => cases hbytes
  | shadow => cases hbytes
  | entity => cases hbytes
  | hint => cases hbytes

/-! ## A request that stops after the file -/

section Stopped

def cleanNotes : Durable :=
  .onePage notesMount (notesPage .hydrated) (some (.text "---\n---\na\n".toList))
    (some (notesShadow "a\n".toList [⟨['a']⟩]))

def newerRender : HydratedEntity :=
  notesRender "b\n".toList [⟨['a']⟩] (some "v2".toList)

/-- One write was made. -/
def stoppedNotes : Durable :=
  (hydrateRequest noYaml (.answering (.ok newerRender)) none (notesRequest .fileOpen)
    ⟨cleanNotes, 0, some 1⟩).2.durable

/-- The page that the next request leaves. -/
def resumedPage : PageState :=
  (hydrateRequest noYaml (.answering (.ok newerRender)) none (notesRequest .fileOpen)
    (Host.running stoppedNotes 0)).2.durable.page (requestPath notesMount (.relative
      ["plan.md".toList])) (notesRequest .fileOpen).key

/-- The file is the rendered one, and it counts as edited. -/
theorem hydrateRequest_interrupted_dirty :
    resumedPage.file = some (.text "---\n---\nb\n".toList) ∧
      ¬ Complete newerRender "---\n---\nb\n".toList resumedPage := by
  have hfile : resumedPage.file = some (.text "---\n---\nb\n".toList) := by decide +kernel
  have hstate : resumedPage.entity.map EntityRecord.hydration = some .dirty := by decide +kernel
  generalize resumedPage = page at hfile hstate
  obtain ⟨entity, hentity, hdirty⟩ := Option.map_eq_some_iff.mp hstate
  refine ⟨hfile, not_complete_of_state hentity ?_⟩
  rw [hdirty]
  decide

theorem cleanNotes_replaces :
    ReplacesPage noYaml notesMount.root (notesPage .hydrated) (notesRequest .fileOpen).reason 0
      (cleanNotes.page (requestPath notesMount (notesRequest .fileOpen).path)
        (notesRequest .fileOpen).key)
      (fetchedFor (.answering (.ok newerRender)) (notesRequest .fileOpen) cleanNotes.store
        notesMount.mountId (notesPage .hydrated)) newerRender where
  readable := by
    have hfile : (cleanNotes.page (requestPath notesMount (notesRequest .fileOpen).path)
        (notesRequest .fileOpen).key).file = some (.text "---\n---\na\n".toList) := by
      decide +kernel
    intro bytes hbytes
    exact nomatch hfile.symm.trans hbytes
  clean := by decide +kernel
  render := rfl
  entityId := by decide +kernel
  schema := rfl
  assets := rfl
  taken := by decide +kernel

theorem hydrateRequest_interrupted_notes :
    ∃ stage entity, stoppedNotes.page (requestPath notesMount (notesRequest .fileOpen).path)
        (notesRequest .fileOpen).key =
          (cleanNotes.page (requestPath notesMount (notesRequest .fileOpen).path)
            (notesRequest .fileOpen).key).atStage newerRender
              (renderDocumentWithAbsoluteMediaHrefs newerRender.document
                (notesPage .hydrated).path notesMount.root) stage ∧
      stoppedNotes.store.entities.get (notesRequest .fileOpen).key = some entity ∧
      (Complete newerRender
          (renderDocumentWithAbsoluteMediaHrefs newerRender.document
            (notesPage .hydrated).path notesMount.root)
          ((hydrateRequest noYaml (.answering (.ok newerRender)) none (notesRequest .fileOpen)
            (Host.running stoppedNotes 0)).2.durable.page
              (requestPath notesMount (notesRequest .fileOpen).path)
                (notesRequest .fileOpen).key) ↔
        FinishesPage noYaml entity .fileOpen 0 newerRender
          (renderDocumentWithAbsoluteMediaHrefs newerRender.document
            (notesPage .hydrated).path notesMount.root)
          (stoppedNotes.page (requestPath notesMount (notesRequest .fileOpen).path)
            (notesRequest .fileOpen).key)) := by
  have hparent : ∀ entity,
      stoppedNotes.store.entities.get (notesRequest .fileOpen).key = some entity →
        schemaAnswer (.answering (.ok newerRender)) stoppedNotes.store notesMount.mountId entity =
          .ok () := by
    intro entity _
    unfold schemaAnswer
    split
    · rfl
    · rfl
  exact @hydrateRequest_interrupted_iff noYaml (.answering (.ok newerRender)) none
    (notesRequest .fileOpen) (notesRequest .fileOpen) cleanNotes stoppedNotes 0 0 notesMount
    (notesPage .hydrated) newerRender (some 1) ⟨by decide, by decide⟩ rfl rfl rfl
    cleanNotes_replaces rfl rfl rfl rfl fun entity hentity => ⟨rfl, hparent entity hentity⟩

end Stopped

end Locality.Daemon
