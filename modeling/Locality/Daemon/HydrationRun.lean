/-
  Daemon/HydrationRun.lean --- an uninterrupted request of the executor is the step of
  its page that `hydrationVerdict` decides.

  Every write of the executor touches at most one field of the page (`AtPage`); the
  sequences of writes are followed with the rules for computations with a known result.
-/
import Locality.Daemon.HydrationPage

set_option autoImplicit false

namespace Locality.Daemon

open Locality.Core Locality.Foundation Locality.Foundation.Fallible

/-! ## Hosts seen from a page -/

/-- A host that is not interrupted and whose page is known. -/
structure AtPage (path : PathBuf) (key : EntityKey) (nowMs : Nat)
    (mounts : MountId → Option MountConfig) (page : PageState) (host : Host) : Prop where
  running : host.writesLeft = none
  clock : host.nowMs = nowMs
  page : host.durable.page path key = page
  mounts : host.durable.store.mounts = mounts

section

variable {path : PathBuf} {key : EntityKey} {nowMs : Nat}
  {mounts : MountId → Option MountConfig} {page : PageState}

theorem run_read (durable : Durable) :
    readDurable (Host.running durable nowMs) = (.ok durable, Host.running durable nowMs) := rfl

theorem yields_read_exact (start : Host) :
    Yields readDurable (fun host => host = start) (.ok start.durable)
      (fun host => host = start) := by
  rintro host rfl
  exact ⟨_, rfl, rfl⟩

theorem yields_read_running (durable : Durable) :
    Yields readDurable (fun host => host = Host.running durable nowMs) (.ok durable)
      (fun host => host = Host.running durable nowMs) :=
  yields_read_exact (Host.running durable nowMs)

theorem yields_loadShadow_exact (start : Host) (mountId : MountId) (remoteId : RemoteId) :
    Yields (loadShadow mountId remoteId) (fun host => host = start)
      (.ok (start.durable.store.shadows (mountId, remoteId))) (fun host => host = start) := by
  apply Yields.bind (yields_read_exact start)
  exact Yields.of_pure _

theorem yields_requireMount {start : Host} {mountId : MountId} {mount : MountConfig}
    (h : start.durable.store.mounts mountId = some mount) :
    Yields (requireMount mountId) (fun host => host = start) (.ok mount)
      (fun host => host = start) := by
  apply Yields.bind (yields_read_exact start)
  rw [h]
  exact Yields.of_pure _

theorem yields_requireEntity {start : Host} {mountId : MountId} {remoteId : RemoteId}
    {entity : EntityRecord} (h : start.durable.store.entities.get (mountId, remoteId) = some entity) :
    Yields (requireEntity mountId remoteId) (fun host => host = start) (.ok entity)
      (fun host => host = start) := by
  apply Yields.bind (yields_read_exact start)
  rw [h]
  exact Yields.of_pure _

/-- A write that is known on the page. -/
theorem yields_write {effect : Durable → Durable} {page' : PageState}
    (hpage : ∀ durable, durable.page path key = page →
      (effect durable).page path key = page')
    (hmounts : ∀ durable, (effect durable).store.mounts = durable.store.mounts) :
    Yields (writeDurable effect) (AtPage path key nowMs mounts page) (.ok ())
      (AtPage path key nowMs mounts page') := by
  rintro ⟨durable, now, left⟩ ⟨hrunning, hclock, hat, hmount⟩
  cases hrunning
  exact ⟨⟨effect durable, now, none⟩, rfl, rfl, hclock, hpage durable hat,
    (hmounts durable).trans hmount⟩

theorem yields_write_beside {effect : Durable → Durable}
    (hpage : ∀ durable, (effect durable).page path key = durable.page path key)
    (hmounts : ∀ durable, (effect durable).store.mounts = durable.store.mounts) :
    Yields (writeDurable effect) (AtPage path key nowMs mounts page) (.ok ())
      (AtPage path key nowMs mounts page) :=
  yields_write (fun durable hat => (hpage durable).trans hat) hmounts

/-- Reading the host and going on, where what comes next does not depend on what was
read beyond the page. -/
theorem yields_read {β : Type} {next : Durable → HostM β} {result : LocalityResult β}
    {post : Host → Prop}
    (hnext : ∀ durable, durable.page path key = page → durable.store.mounts = mounts →
      Yields (next durable) (fun host => host = Host.running durable nowMs) result post) :
    Yields (readDurable >>= next) (AtPage path key nowMs mounts page) result post := by
  rintro ⟨durable, now, left⟩ ⟨hrunning, hclock, hat, hmount⟩
  cases hrunning
  cases hclock
  obtain ⟨host', hrun, hpost⟩ := hnext durable hat hmount _ rfl
  exact ⟨host', hrun, hpost⟩

theorem atPage_running {durable : Durable} (hpage : durable.page path key = page)
    (hmounts : durable.store.mounts = mounts) :
    AtPage path key nowMs mounts page (Host.running durable nowMs) :=
  ⟨rfl, rfl, hpage, hmounts⟩

/-! ## Writes beside the page -/

theorem yields_writeHydratedAssetFiles (outputRoot : PathBuf) {assets : List HydratedAsset}
    {result : LocalityResult Unit} (h : checkAssets outputRoot assets = result) :
    Yields (writeHydratedAssetFiles outputRoot assets) (AtPage path key nowMs mounts page) result
      (AtPage path key nowMs mounts page) := by
  subst h
  induction assets with
  | nil => exact Yields.of_pure ()
  | cons asset assets ih =>
      unfold checkAssets writeHydratedAssetFiles
      cases mountRelativePath outputRoot asset.path with
      | error error =>
          apply Yields.bind_error
          exact Yields.of_lift _
      | ok target =>
          apply Yields.bind (a := target) (m := AtPage path key nowMs mounts page)
          · exact Yields.of_lift _
          · apply Yields.bind (a := ()) (m := AtPage path key nowMs mounts page)
            · exact yields_write_beside (fun _ => rfl) (fun _ => rfl)
            · exact ih

theorem yields_updateHydratedMediaManifest (assets : List HydratedAsset) :
    Yields (updateHydratedMediaManifest assets) (AtPage path key nowMs mounts page) (.ok ())
      (AtPage path key nowMs mounts page) := by
  simp only [updateHydratedMediaManifest]
  split
  · exact Yields.of_pure ()
  · exact yields_write_beside (fun _ => rfl) (fun _ => rfl)

theorem yields_replaceHydratedMediaManifest (outputRoot : PathBuf)
    (assets : List HydratedAsset) :
    Yields (replaceHydratedMediaManifest outputRoot assets)
      (AtPage path key nowMs mounts page) (.ok ()) (AtPage path key nowMs mounts page) := by
  unfold replaceHydratedMediaManifest
  apply yields_read
  intro durable hpage hmounts
  rintro host rfl
  dsimp only
  split
  · exact ⟨_, rfl, atPage_running hpage hmounts⟩
  · exact ⟨_, rfl, atPage_running hpage hmounts⟩

/-! ## Writes to the page -/

theorem yields_writeAtomic (contents : Text) :
    Yields (writeAtomic path contents) (AtPage path key nowMs mounts page) (.ok ())
      (AtPage path key nowMs mounts { page with file := some (.text contents) }) := by
  apply yields_write
  · rintro durable rfl
    simp only [Durable.page, Durable.writeFile, Function.update_self]
  · intro durable
    rfl

theorem yields_saveShadow {mountId : MountId} {shadow : ShadowDocument}
    (hkey : (mountId, shadow.entityId) = key) :
    Yields (saveShadow mountId shadow) (AtPage path key nowMs mounts page) (.ok ())
      (AtPage path key nowMs mounts { page with shadow := some shadow }) := by
  subst hkey
  apply yields_write
  · rintro durable rfl
    simp only [Durable.page, Durable.withStore, Store.saveShadow, Function.update_self]
  · intro durable
    rfl

theorem yields_saveEntity {record record' : EntityRecord} (hentity : page.entity = some record)
    (hkey : record'.key = key) (hpath : record'.path = record.path) :
    Yields (saveEntity record') (AtPage path key nowMs mounts page) (.ok ())
      (AtPage path key nowMs mounts { page with entity := some record' }) := by
  apply yields_read
  intro durable hpage hmounts
  have hget : durable.store.entities.get key = some record := by
    rw [← hentity, ← hpage]
    rfl
  obtain ⟨entities, hsave⟩ := EntityTable.exists_save_of_get hget hkey hpath
  have hget' : entities.get key = some record' := by
    rw [← hkey]
    exact EntityTable.get_of_save hsave
  rintro host rfl
  rw [hsave]
  refine ⟨_, rfl, atPage_running ?_ hmounts⟩
  rw [← hpage]
  simp only [Durable.page, Durable.withStore, Host.running, hget']

theorem yields_deleteEntity {mountId : MountId} {remoteId : RemoteId}
    (hkey : (mountId, remoteId) = key) :
    Yields (deleteEntity mountId remoteId) (AtPage path key nowMs mounts page) (.ok ())
      (AtPage path key nowMs mounts { page with entity := none }) := by
  subst hkey
  apply yields_write
  · rintro durable rfl
    simp only [Durable.page, Durable.withStore, EntityTable.get_delete]
  · intro durable
    rfl

theorem yields_removeCleanProjection :
    Yields (removeCleanProjection path) (AtPage path key nowMs mounts page) (.ok ())
      (AtPage path key nowMs mounts { page with file := none }) := by
  apply yields_read
  intro durable hpage hmounts
  rintro host rfl
  cases hfile : (durable.files path).isSome with
  | false =>
      refine ⟨_, rfl, atPage_running ?_ hmounts⟩
      simp only [Option.isSome_eq_false_iff, Option.isNone_iff_eq_none] at hfile
      rw [← hpage]
      simp only [Durable.page, hfile]
  | true =>
      refine ⟨_, rfl, atPage_running ?_ hmounts⟩
      rw [← hpage]
      simp only [Durable.page, Durable.removeFile, Host.running, Function.update_self]

/-! ## Reads of the page -/

theorem yields_readToString :
    Yields (readToString path) (AtPage path key nowMs mounts page) (contentsOf path page.file)
      (AtPage path key nowMs mounts page) := by
  apply yields_read
  rintro durable rfl hmounts host rfl
  exact ⟨Host.running durable nowMs, run_lift _ _, atPage_running rfl hmounts⟩

theorem yields_loadShadow {mountId : MountId} {remoteId : RemoteId}
    (hkey : (mountId, remoteId) = key) :
    Yields (loadShadow mountId remoteId) (AtPage path key nowMs mounts page)
      (.ok page.shadow) (AtPage path key nowMs mounts page) := by
  subst hkey
  apply yields_read
  rintro durable rfl hmounts host rfl
  exact ⟨Host.running durable nowMs, rfl, atPage_running rfl hmounts⟩

theorem yields_getFreshnessState {mountId : MountId} {remoteId : RemoteId}
    (hkey : (mountId, remoteId) = key) :
    Yields (getFreshnessState mountId remoteId) (AtPage path key nowMs mounts page)
      (.ok page.freshness)
      (fun host => AtPage path key nowMs mounts page host ∧
        ∀ freshness, page.freshness = some freshness →
          (freshness.mountId, freshness.remoteId) = key) := by
  subst hkey
  apply yields_read
  rintro durable rfl hmounts host rfl
  refine ⟨Host.running durable nowMs, rfl, atPage_running rfl hmounts, ?_⟩
  intro freshness h
  exact durable.store.freshnessKeyed _ _ h

/-! ## Marks and hints -/

theorem yields_saveFreshnessState {freshness : FreshnessStateRecord}
    (hkey : (freshness.mountId, freshness.remoteId) = key) :
    Yields (saveFreshnessState freshness) (AtPage path key nowMs mounts page) (.ok ())
      (AtPage path key nowMs mounts { page with freshness := some freshness }) := by
  apply yields_write
  · rintro durable rfl
    simp only [Durable.page, Durable.withStore, Store.saveFreshnessState, hkey,
      Function.update_self]
  · intro durable
    rfl

/-- The freshness state of the page, rewritten where there is one. -/
theorem yields_rewriteFreshness {mountId : MountId} {remoteId : RemoteId}
    (hkey : (mountId, remoteId) = key) {rewrite : FreshnessStateRecord → FreshnessStateRecord}
    (hrewrite : ∀ freshness, (rewrite freshness).mountId = freshness.mountId ∧
      (rewrite freshness).remoteId = freshness.remoteId) :
    Yields
      (do
        let freshness ← getFreshnessState mountId remoteId
        match freshness with
        | none => pure ()
        | some freshness => saveFreshnessState (rewrite freshness))
      (AtPage path key nowMs mounts page) (.ok ())
      (AtPage path key nowMs mounts { page with freshness := page.freshness.map rewrite }) := by
  apply Yields.bind (yields_getFreshnessState hkey)
  rintro host ⟨hat, howner⟩
  cases hfreshness : page.freshness with
  | none =>
      refine ⟨host, rfl, ?_⟩
      rw [Option.map_none, ← hfreshness]
      exact hat
  | some freshness =>
      apply yields_saveFreshnessState _ host hat
      rw [(hrewrite freshness).1, (hrewrite freshness).2]
      exact howner freshness hfreshness

theorem yields_setRemoteHint {mountId : MountId} {remoteId : RemoteId}
    (hkey : (mountId, remoteId) = key) (pending : Bool) :
    Yields (setRemoteHint pending mountId remoteId) (AtPage path key nowMs mounts page)
      (.ok ()) (AtPage path key nowMs mounts (page.withHint pending)) :=
  @yields_rewriteFreshness path key nowMs mounts page mountId remoteId hkey
    (fun freshness => { freshness with remoteHintPending := pending }) fun _ => ⟨rfl, rfl⟩

theorem withState_self {entity : EntityRecord} (hentity : page.entity = some entity) :
    page.withState entity.hydration = page := by
  rw [PageState.withState, hentity, Option.map_some, ← hentity]

theorem withState_of_entity {entity : EntityRecord} (hentity : page.entity = some entity)
    (state : HydrationState) :
    page.withState state = { page with entity := some { entity with hydration := state } } := by
  rw [PageState.withState, hentity, Option.map_some]

theorem yields_markDirtyIfAllowed {entity : EntityRecord} (hentity : page.entity = some entity)
    (hkey : entity.key = key) :
    Yields (markDirtyIfAllowed entity) (AtPage path key nowMs mounts page) (.ok ())
      (AtPage path key nowMs mounts (page.withState (markedDirty entity.hydration))) := by
  unfold markDirtyIfAllowed markedDirty
  split
  · rw [withState_of_entity hentity]
    exact yields_saveEntity hentity hkey rfl
  · rw [withState_self hentity]
    exact Yields.of_pure ()

theorem yields_markConflictedIfAllowed {entity : EntityRecord}
    (hentity : page.entity = some entity) (hkey : entity.key = key) :
    Yields (markConflictedIfAllowed entity) (AtPage path key nowMs mounts page) (.ok ())
      (AtPage path key nowMs mounts (page.withState (markedConflicted entity.hydration))) := by
  simp only [markConflictedIfAllowed, markedConflicted]
  split
  · rw [withState_of_entity hentity]
    exact yields_saveEntity hentity hkey rfl
  · rw [withState_self hentity]
    exact Yields.of_pure ()

/-! ## The branches of a request -/

/-- What the branch does to the page, and what it returns, is the verdict. -/
def Decides (path : PathBuf) (key : EntityKey) (nowMs : Nat)
    (mounts : MountId → Option MountConfig) (page : PageState)
    (op : HostM HydrationOutcome) (verdict : PageVerdict) : Prop :=
  Yields op (AtPage path key nowMs mounts page) verdict.2
    (AtPage path key nowMs mounts (page.apply verdict.1))

/-- The mount, the entity and the page that the branches are about. -/
structure Located (mount : MountConfig) (entity : EntityRecord) (key : EntityKey)
    (page : PageState) : Prop where
  found : page.entity = some entity
  keyed : entity.key = key
  mounted : (mount.mountId, entity.remoteId) = key

variable {yaml : YamlSerde} {mount : MountConfig} {outputRoot : PathBuf}
  {entity : EntityRecord} {rendered : HydratedEntity}

theorem yields_materializeConflictFromContents (hat : Located mount entity key page)
    (hid : rendered.shadow.entityId = entity.remoteId) (localContents : Text)
    (useBaseShadow : Bool) :
    Decides path key nowMs mounts page
      (do
        let _ ← materializeConflictFromContents yaml mount outputRoot entity path rendered
          localContents useBaseShadow
        return .skippedDirty)
      (mergeVerdict yaml outputRoot entity page.shadow rendered localContents
        useBaseShadow) := by
  have hshadow : (mount.mountId, rendered.shadow.entityId) = key := by rw [hid, hat.mounted]
  unfold Decides mergeVerdict materializeConflictFromContents
  cases hassets : checkAssets outputRoot rendered.assets with
  | error error =>
      apply Yields.bind_error
      apply Yields.bind_error
      exact yields_writeHydratedAssetFiles outputRoot hassets
  | ok _ =>
      generalize hmarkdown : conflictMarkdown yaml entity outputRoot page.shadow rendered
        localContents useBaseShadow = markdown
      let written : PageState :=
        { page with file := some (.text markdown), shadow := some rendered.shadow }
      let recorded : PageState :=
        { written with
          entity := some (PageState.mergedRecord entity rendered
            (hasUnresolvedConflictMarkers markdown)) }
      have hrecorded : page.apply (.merge rendered markdown) =
          if hasUnresolvedConflictMarkers markdown then recorded
          else recorded.withHint false := by
        simp only [PageState.apply, hat.found, Option.map_some]
        rfl
      have hrest : Yields
          (do
            saveEntity (PageState.mergedRecord entity rendered
              (hasUnresolvedConflictMarkers markdown))
            if !hasUnresolvedConflictMarkers markdown then
              clearRemoteHint mount.mountId rendered.shadow.entityId
            return if hasUnresolvedConflictMarkers markdown then
              DirtyRemoteDriftOutcome.conflicted else .merged)
          (AtPage path key nowMs mounts written)
          (.ok (if hasUnresolvedConflictMarkers markdown then .conflicted else .merged))
          (AtPage path key nowMs mounts (page.apply (.merge rendered markdown))) := by
        apply Yields.bind (a := ()) (m := AtPage path key nowMs mounts recorded)
        · exact yields_saveEntity hat.found hat.keyed rfl
        · rw [hrecorded]
          cases hasUnresolvedConflictMarkers markdown with
          | true => exact Yields.of_pure _
          | false =>
              apply Yields.bind (yields_setRemoteHint hshadow false)
              exact Yields.of_pure _
      apply Yields.bind
      · apply Yields.bind (yields_writeHydratedAssetFiles outputRoot hassets)
        apply Yields.bind (yields_updateHydratedMediaManifest rendered.assets)
        apply Yields.bind (yields_loadShadow hat.mounted)
        simp only [hmarkdown]
        apply Yields.bind (yields_writeAtomic markdown)
        apply Yields.bind (yields_saveShadow hshadow)
        exact hrest
      · exact Yields.of_pure _

theorem decides_refreshExistingConflict (hat : Located mount entity key page)
    (hid : rendered.shadow.entityId = entity.remoteId) {contents : Text}
    (hfile : page.file = some (.text contents)) (useBaseShadow : Bool) :
    Decides path key nowMs mounts page
      (do
        let _ ← refreshExistingConflict yaml mount outputRoot entity path rendered
          useBaseShadow
        return .skippedDirty)
      (match localVersionFromConflictMarkers yaml contents with
        | none => (.mark (markedConflicted entity.hydration), .ok .skippedDirty)
        | some localContents =>
            mergeVerdict yaml outputRoot entity page.shadow rendered localContents
              useBaseShadow) := by
  have hread : Yields (readToString path) (AtPage path key nowMs mounts page) (.ok contents)
      (AtPage path key nowMs mounts page) := by
    have h := @yields_readToString path key nowMs mounts page
    rw [hfile] at h
    exact h
  unfold Decides refreshExistingConflict
  rw [bind_assoc]
  apply Yields.bind hread
  cases localVersionFromConflictMarkers yaml contents with
  | none =>
      rw [bind_assoc]
      apply Yields.bind (yields_markConflictedIfAllowed hat.found hat.keyed)
      exact Yields.of_pure _
  | some localContents =>
      exact yields_materializeConflictFromContents hat hid localContents useBaseShadow

theorem decides_materializeConflict (hat : Located mount entity key page)
    (hid : rendered.shadow.entityId = entity.remoteId) {contents : Text}
    (hfile : page.file = some (.text contents)) :
    Decides path key nowMs mounts page
      (do
        let _ ← materializeConflict yaml mount outputRoot entity path rendered
        return .skippedDirty)
      (mergeVerdict yaml outputRoot entity page.shadow rendered contents true) := by
  have hread : Yields (readToString path) (AtPage path key nowMs mounts page) (.ok contents)
      (AtPage path key nowMs mounts page) := by
    have h := @yields_readToString path key nowMs mounts page
    rw [hfile] at h
    exact h
  unfold Decides materializeConflict
  rw [bind_assoc]
  apply Yields.bind hread
  exact yields_materializeConflictFromContents hat hid contents true

theorem yields_remoteMatchesShadow (hat : Located mount entity key page) :
    Yields (remoteMatchesShadow yaml mount entity rendered.shadow)
      (AtPage path key nowMs mounts page) (.ok (shadowMatchesRender yaml page.shadow rendered))
      (AtPage path key nowMs mounts page) := by
  unfold remoteMatchesShadow shadowMatchesRender
  apply Yields.bind (yields_loadShadow hat.mounted)
  cases page.shadow with
  | none => exact Yields.of_pure _
  | some shadow => exact Yields.of_pure _

theorem yields_sameVersionShadowDrifted (hat : Located mount entity key page) :
    Yields (sameVersionShadowDrifted yaml mount entity rendered)
      (AtPage path key nowMs mounts page)
      (.ok (sameRemoteVersion entity rendered &&
        !shadowMatchesRender yaml page.shadow rendered))
      (AtPage path key nowMs mounts page) := by
  unfold sameVersionShadowDrifted
  cases sameRemoteVersion entity rendered with
  | false => exact Yields.of_pure _
  | true =>
      apply Yields.bind (yields_remoteMatchesShadow hat)
      exact Yields.of_pure _

theorem decides_hydrateEditedFile (hat : Located mount entity key page)
    (hid : rendered.shadow.entityId = entity.remoteId) {contents : Text}
    (hfile : page.file = some (.text contents)) :
    Decides path key nowMs mounts page
      (hydrateEditedFile yaml mount outputRoot entity path rendered)
      (editedVerdict yaml outputRoot entity page.shadow contents rendered) := by
  have hmarkers : Yields (fileHasUnresolvedConflictMarkers path)
      (AtPage path key nowMs mounts page) (.ok (hasUnresolvedConflictMarkers contents))
      (AtPage path key nowMs mounts page) := by
    have hread := @yields_readToString path key nowMs mounts page
    rw [hfile] at hread
    exact Yields.bind hread (Yields.of_pure _)
  unfold hydrateEditedFile editedVerdict
  apply Yields.bind hmarkers
  cases hasUnresolvedConflictMarkers contents with
  | true =>
      apply Yields.bind (yields_sameVersionShadowDrifted hat)
      cases sameRemoteVersion entity rendered with
      | false =>
          apply Yields.bind (yields_markConflictedIfAllowed hat.found hat.keyed)
          exact Yields.of_pure _
      | true =>
          cases shadowMatchesRender yaml page.shadow rendered with
          | false => exact decides_refreshExistingConflict hat hid hfile true
          | true => exact decides_refreshExistingConflict hat hid hfile false
  | false =>
      apply Yields.bind (yields_remoteMatchesShadow hat)
      cases shadowMatchesRender yaml page.shadow rendered with
      | true =>
          apply Yields.bind (yields_markDirtyIfAllowed hat.found hat.keyed)
          exact Yields.of_pure _
      | false => exact decides_materializeConflict hat hid hfile

theorem decides_replaceProjection (hat : Located mount entity key page)
    (hid : rendered.shadow.entityId = entity.remoteId) {request : HydrationRequest}
    (hrequest : request.key = key) :
    Decides path key nowMs mounts page
      (replaceProjection request mount outputRoot entity path rendered)
      (replaceVerdict outputRoot entity rendered) := by
  have hshadow : (mount.mountId, rendered.shadow.entityId) = key := by rw [hid, hat.mounted]
  unfold Decides replaceProjection replaceVerdict
  cases hassets : checkAssets outputRoot rendered.assets with
  | error error =>
      apply Yields.bind_error
      exact yields_writeHydratedAssetFiles outputRoot hassets
  | ok _ =>
      simp only [PageState.apply, hat.found, Option.map_some]
      apply Yields.bind (yields_writeHydratedAssetFiles outputRoot hassets)
      apply Yields.bind (yields_replaceHydratedMediaManifest outputRoot rendered.assets)
      apply Yields.bind (yields_writeAtomic _)
      apply Yields.bind (yields_saveShadow hshadow)
      apply Yields.bind
      · exact yields_saveEntity hat.found hat.keyed rfl
      · apply Yields.bind (yields_setRemoteHint hrequest false)
        exact Yields.of_pure _

theorem yields_probe {request : HydrationRequest} (hrequest : request.key = key)
    (previousShadow : Option ShadowDocument) :
    Yields (sameVersionLiveModeProbeShouldContinue request entity previousShadow rendered)
      (AtPage path key nowMs mounts page)
      (.ok (sameRemoteVersion entity rendered &&
        renderMatchesPreviousShadow previousShadow rendered &&
        probeContinues nowMs page.freshness))
      (AtPage path key nowMs mounts page) := by
  unfold sameVersionLiveModeProbeShouldContinue probeContinues
  cases hsame : sameRemoteVersion entity rendered with
  | false => exact Yields.of_pure _
  | true =>
      cases renderMatchesPreviousShadow previousShadow rendered with
      | false => exact Yields.of_pure _
      | true =>
          apply Yields.bind (yields_getFreshnessState hrequest)
          rintro host ⟨hat, -⟩
          cases (page.freshness.bind FreshnessStateRecord.lastLocalChangeAt).bind
              parseFreshnessTimestamp with
          | none => exact ⟨host, rfl, hat⟩
          | some lastLocalChangeMs =>
              refine ⟨host, ?_, hat⟩
              rw [← hat.clock]
              rfl

theorem decides_hydrateReplaceableFile (hat : Located mount entity key page)
    (hid : rendered.shadow.entityId = entity.remoteId) {request : HydrationRequest}
    (hrequest : request.key = key) :
    Decides path key nowMs mounts page
      (hydrateReplaceableFile request mount outputRoot entity path page.shadow rendered)
      (if liveModeKeeps entity request.reason nowMs page rendered then
        (.hint true, .ok .hydrated)
      else replaceVerdict outputRoot entity rendered) := by
  have hkeep : Decides path key nowMs mounts page
      (do
        keepRemoteHintPending request.mountId request.remoteId
        return .hydrated)
      (.hint true, .ok .hydrated) := by
    apply Yields.bind (yields_setRemoteHint hrequest true)
    exact Yields.of_pure _
  unfold hydrateReplaceableFile liveModeKeeps
  split
  · rename_i hreason
    rw [hreason]
    cases hstale : liveModeRemoteFastForwardRenderLooksStale entity page.shadow rendered with
    | true => exact hkeep
    | false =>
        have hprobe := @yields_probe path key nowMs mounts page entity rendered request
          hrequest page.shadow
        cases hcontinue : sameRemoteVersion entity rendered &&
            renderMatchesPreviousShadow page.shadow rendered &&
            probeContinues nowMs page.freshness with
        | true =>
            rw [hcontinue] at hprobe
            exact Yields.bind hprobe hkeep
        | false =>
            rw [hcontinue] at hprobe
            exact Yields.bind hprobe (decides_replaceProjection hat hid hrequest)
  · rename_i hreason
    simp only [decide_eq_false hreason, Bool.false_and, Bool.false_eq_true, if_false]
    exact decides_replaceProjection hat hid hrequest

/-! ## Deleted remotes -/

theorem yields_recordDeletedRemoteObservation (hat : Located mount entity key page) :
    Yields (recordDeletedRemoteObservation mount entity) (AtPage path key nowMs mounts page)
      (.ok ()) (AtPage path key nowMs mounts (page.observedDeleted (observedAtText nowMs))) := by
  unfold recordDeletedRemoteObservation
  apply Yields.bind (a := observedAtText nowMs) (m := AtPage path key nowMs mounts page)
  · intro host hhost
    refine ⟨host, ?_, hhost⟩
    rw [← hhost.clock]
    rfl
  · apply Yields.bind (a := ()) (m := AtPage path key nowMs mounts page)
    · exact yields_write_beside (fun _ => rfl) (fun _ => rfl)
    · exact @yields_rewriteFreshness _ _ _ _ _ _ _ hat.mounted
        (fun freshness => { freshness with
          remoteHintPending := true
          lastCheckedAt := some (observedAtText nowMs) })
        fun _ => ⟨rfl, rfl⟩

theorem decides_reconcileRemoteNotFound (hat : Located mount entity key page)
    (canReplace : Bool) :
    Decides path key nowMs mounts page
      (reconcileRemoteNotFound mount entity path canReplace)
      (if canReplace then (.remove (observedAtText nowMs), .ok .remoteDeleted)
      else (.markDeleted (markedDirty entity.hydration) (observedAtText nowMs),
        .ok .skippedDirty)) := by
  unfold reconcileRemoteNotFound
  apply Yields.bind (yields_recordDeletedRemoteObservation hat)
  cases canReplace with
  | false =>
      apply Yields.bind
      · exact yields_markDirtyIfAllowed hat.found hat.keyed
      · exact Yields.of_pure _
  | true =>
      apply Yields.bind yields_removeCleanProjection
      apply Yields.bind (yields_deleteEntity hat.mounted)
      exact Yields.of_pure _

/-! ## The request -/

variable {source : HydrationSource}

/-- Whether the schema of the parent database can be had, where there is one. -/
def schemaAnswer (source : HydrationSource) (store : Store) (mountId : MountId)
    (entity : EntityRecord) : LocalityResult Unit :=
  match parentDatabaseEntity store mountId entity with
  | none => .ok ()
  | some database => (source.fetchDatabaseSchemaYaml database.remoteId).map fun _ => ()

theorem yields_writeParentDatabaseSchemaCache {durable : Durable}
    (hpage : durable.page path key = page) (hmounts : durable.store.mounts = mounts) :
    Yields (writeParentDatabaseSchemaCache source mount entity outputRoot)
      (fun host => host = Host.running durable nowMs)
      (schemaAnswer source durable.store mount.mountId entity)
      (AtPage path key nowMs mounts page) := by
  have hat : ∀ host, host = Host.running durable nowMs →
      AtPage path key nowMs mounts page host := by
    rintro host rfl
    exact atPage_running hpage hmounts
  unfold writeParentDatabaseSchemaCache schemaAnswer
  apply Yields.bind (yields_read_running durable)
  cases parentDatabaseEntity durable.store mount.mountId entity with
  | none => exact (Yields.of_pure ()).weaken hat
  | some database =>
      simp only []
      cases hfetch : source.fetchDatabaseSchemaYaml database.remoteId with
      | error error => exact Yields.bind_error ((Yields.of_lift _).weaken hat)
      | ok schema =>
          apply Yields.bind (a := schema) ((Yields.of_lift _).weaken hat)
          cases schema with
          | none => exact Yields.of_pure ()
          | some schema => exact yields_write_beside (fun _ => rfl) (fun _ => rfl)

/-- What the connector answers to a request for the entity. -/
def fetchedFor (source : HydrationSource) (request : HydrationRequest) (store : Store)
    (mountId : MountId) (entity : EntityRecord) : Fetched where
  render := source.fetchRender { request with path := entity.path } store
  schema := schemaAnswer source store mountId entity

theorem decides_hydrateRendered (hat : Located mount entity key page) {durable : Durable}
    (hpage : durable.page path key = page) (hmounts : durable.store.mounts = mounts)
    {request : HydrationRequest} (hrequest : request.key = key)
    (hutf8 : ∀ bytes, page.file ≠ some (.invalidUtf8 bytes)) :
    Yields
      (hydrateRendered yaml source request mount outputRoot entity path
        (PageState.replaceable yaml page) rendered)
      (fun host => host = Host.running durable nowMs)
      (renderedVerdict yaml outputRoot entity request.reason nowMs page
        (fetchedFor source request durable.store mount.mountId entity) rendered).2
      (AtPage path key nowMs mounts (page.apply
        (renderedVerdict yaml outputRoot entity request.reason nowMs page
          (fetchedFor source request durable.store mount.mountId entity) rendered).1)) := by
  have hremote : request.remoteId = entity.remoteId :=
    congrArg Prod.snd (hrequest.trans hat.keyed.symm)
  have hrunning := @atPage_running _ _ nowMs _ _ _ hpage hmounts
  unfold hydrateRendered renderedVerdict fetchedFor
  rw [hremote]
  split
  · rename_i hid
    rintro host rfl
    exact ⟨_, rfl, hrunning⟩
  · rename_i hid
    have hid : rendered.shadow.entityId = entity.remoteId := not_not.mp hid
    have hshadow : Yields (loadShadow mount.mountId entity.remoteId)
        (fun host => host = Host.running durable nowMs) (.ok page.shadow)
        (fun host => host = Host.running durable nowMs) := by
      apply Yields.bind (yields_read_running durable)
      rw [hat.mounted, ← hpage]
      exact Yields.of_pure _
    apply Yields.bind hshadow
    have hschema := @yields_writeParentDatabaseSchemaCache path key nowMs mounts page mount
      outputRoot entity source durable hpage hmounts
    cases hanswer : schemaAnswer source durable.store mount.mountId entity with
    | error error =>
        rw [hanswer] at hschema
        exact Yields.bind_error hschema
    | ok answer =>
        rw [hanswer] at hschema
        apply Yields.bind hschema
        cases hreplaceable : PageState.replaceable yaml page with
        | true =>
            have hbranch := @decides_hydrateReplaceableFile path _ nowMs mounts _ _ outputRoot _ _
              hat hid _ hrequest
            cases page.file with
            | none => exact hbranch
            | some content => cases content <;> exact hbranch
        | false =>
            cases hfile : page.file with
            | none => simp [PageState.replaceable, hfile] at hreplaceable
            | some content =>
                cases content with
                | invalidUtf8 bytes => exact absurd hfile (hutf8 bytes)
                | text contents => exact decides_hydrateEditedFile hat hid hfile

theorem yields_canReplaceFile (hat : Located mount entity key page) {start : Host}
    (hpage : start.durable.page path key = page)
    (hutf8 : ∀ bytes, page.file ≠ some (.invalidUtf8 bytes)) :
    Yields (canReplaceFile yaml mount entity path) (fun host => host = start)
      (.ok (PageState.replaceable yaml page)) (fun host => host = start) := by
  have hfiles : start.durable.files path = page.file := by
    rw [← hpage]
    rfl
  have hshadow : start.durable.store.shadows (mount.mountId, entity.remoteId) =
      page.shadow := by
    rw [hat.mounted, ← hpage]
    rfl
  unfold canReplaceFile PageState.replaceable
  apply Yields.bind (yields_read_exact start)
  rw [hfiles]
  cases hfile : page.file with
  | none => exact Yields.of_pure _
  | some content =>
      cases content with
      | invalidUtf8 bytes => exact absurd hfile (hutf8 bytes)
      | text contents =>
          have hread : Yields (readToString path) (fun host => host = start) (.ok contents)
              (fun host => host = start) := by
            apply Yields.bind (yields_read_exact start)
            rw [hfiles, hfile]
            exact Yields.of_lift _
          apply Yields.bind hread
          apply Yields.bind (yields_loadShadow_exact start mount.mountId entity.remoteId)
          rw [hshadow]
          exact Yields.of_pure _

/-- The file of a request: it lies at the request's own path. -/
def requestFile (durable : Durable) (request : HydrationRequest) : PathBuf :=
  match durable.store.mounts request.mountId with
  | none => request.path
  | some mount => requestPath mount request.path

theorem decides_hydrateRequest {root : Option PathBuf} {request : HydrationRequest}
    {durable : Durable} (htarget : request.targetState = .hydrated)
    (hmount : durable.store.mounts request.mountId = some mount)
    (hpath : requestPath mount request.path = path) (hkey : request.key = key)
    (hpage : durable.page path key = page) (hmounts : durable.store.mounts = mounts)
    (hentity : page.entity = some entity) :
    Yields (hydrateRequest yaml source root request)
      (fun host => host = Host.running durable nowMs)
      (hydrationVerdict yaml (root.getD mount.root) entity path request.reason nowMs page
        (fetchedFor source request durable.store mount.mountId entity)).2
      (AtPage path key nowMs mounts (page.apply
        (hydrationVerdict yaml (root.getD mount.root) entity path request.reason nowMs page
          (fetchedFor source request durable.store mount.mountId entity)).1)) := by
  have hget : durable.store.entities.get key = some entity := by
    rw [← hentity, ← hpage]
    rfl
  have hentityKey : entity.key = key := EntityTable.get_key hget
  have hmountId : mount.mountId = request.mountId :=
    durable.store.mountsKeyed request.mountId mount hmount
  have hat : Located mount entity key page := by
    refine ⟨hentity, hentityKey, ?_⟩
    rw [← hkey, hmountId]
    exact congrArg (Prod.mk request.mountId) (congrArg Prod.snd (hentityKey.trans hkey.symm))
  have hrunning : ∀ host, host = Host.running durable nowMs →
      AtPage path key nowMs mounts page host := by
    rintro host rfl
    exact atPage_running hpage hmounts
  unfold hydrateRequest
  rw [if_neg (not_not.mpr htarget)]
  apply Yields.bind (yields_requireMount hmount)
  have hfound : durable.store.entities.get (request.mountId, request.remoteId) = some entity := by
    rw [← hkey] at hget
    exact hget
  apply Yields.bind (yields_requireEntity hfound)
  rw [hpath]
  by_cases hutf8 : ∃ bytes, page.file = some (.invalidUtf8 bytes)
  · -- a file that is no text is an error before anything else is looked at
    obtain ⟨bytes, hfile⟩ := hutf8
    simp only [hydrationVerdict, hfile]
    apply Yields.bind_error
    unfold canReplaceFile
    apply Yields.bind (yields_read_running durable)
    have hfiles : durable.files path = some (.invalidUtf8 bytes) := by
      rw [← hfile, ← hpage]
      rfl
    rw [hfiles]
    apply Yields.bind_error
    apply Yields.bind (yields_read_running durable)
    rw [hfiles]
    exact (Yields.of_lift _).weaken hrunning
  · have hutf8 : ∀ bytes, page.file ≠ some (.invalidUtf8 bytes) := not_exists.mp hutf8
    apply Yields.bind (yields_canReplaceFile hat hpage hutf8)
    rw [hydrationVerdict_of_readable yaml _ entity hutf8]
    unfold readableVerdict
    cases hskip : !PageState.replaceable yaml page && request.reason.isRemoteFastForward with
    | true =>
        apply Yields.bind ((yields_markDirtyIfAllowed hat.found hat.keyed).weaken hrunning)
        exact Yields.of_pure _
    | false =>
        apply Yields.bind (yields_read_running durable)
        have hfetched : (fetchedFor source request durable.store mount.mountId entity).render =
            source.fetchRender { request with path := entity.path } durable.store := rfl
        rw [← hfetched]
        cases hrender : (fetchedFor source request durable.store mount.mountId entity).render with
        | ok rendered =>
            exact decides_hydrateRendered hat hpage hmounts hkey hutf8
        | error error =>
            simp only []
            cases isRemoteNotFound error with
            | true =>
                have hbranch := @decides_reconcileRemoteNotFound path _ nowMs mounts _ _ _ hat
                  (PageState.replaceable yaml page)
                exact hbranch.weaken hrunning
            | false => exact (Yields.of_throw error).weaken hrunning

/-- An uninterrupted request for an entity of a mount does to its page what the verdict
says, and returns what the verdict says. -/
theorem hydrateRequest_page {yaml : YamlSerde} {source : HydrationSource}
    {root : Option PathBuf} {request : HydrationRequest} {durable : Durable} {nowMs : Nat}
    {mount : MountConfig} {entity : EntityRecord}
    (htarget : request.targetState = .hydrated)
    (hmount : durable.store.mounts request.mountId = some mount)
    (hentity : durable.store.entities.get request.key = some entity) :
    ∃ durable', hydrateRequest yaml source root request (Host.running durable nowMs) =
        ((hydrationVerdict yaml (root.getD mount.root) entity (requestPath mount request.path)
          request.reason nowMs (durable.page (requestPath mount request.path) request.key)
          (fetchedFor source request durable.store mount.mountId entity)).2,
          Host.running durable' nowMs) ∧
      durable'.page (requestPath mount request.path) request.key =
        (durable.page (requestPath mount request.path) request.key).apply
          (hydrationVerdict yaml (root.getD mount.root) entity
            (requestPath mount request.path) request.reason nowMs
            (durable.page (requestPath mount request.path) request.key)
            (fetchedFor source request durable.store mount.mountId entity)).1 ∧
      durable'.store.mounts = durable.store.mounts := by
  obtain ⟨host, hrun, hat⟩ := @decides_hydrateRequest _ _ nowMs _ _ yaml _ _ source root _ _
    htarget hmount rfl rfl rfl rfl hentity _ rfl
  obtain ⟨durable', now, left⟩ := host
  obtain ⟨rfl, rfl, hpage, hmounts⟩ := hat
  exact ⟨durable', hrun, hpage, hmounts⟩

end

end Locality.Daemon
