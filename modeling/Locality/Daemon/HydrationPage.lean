/-
  Daemon/HydrationPage.lean --- a hydration as a step of one page: its file, its
  shadow, its record and its freshness state.

  The decision tree of a request depends on the page, on the reason and on what the
  connector answers, and on nothing else; what is written to the page is one of a few
  effects.  `hydrateRequest_page` shows that an uninterrupted request of the executor
  is that step.
-/
import Locality.Daemon.Hydration

set_option autoImplicit false

namespace Locality.Daemon

open Locality.Core Locality.Foundation

/-! ## Pages -/

structure PageState where
  file : Option FileContent
  shadow : Option ShadowDocument
  entity : Option EntityRecord
  freshness : Option FreshnessStateRecord

/-- The page of an entity whose file lies at the path. -/
def Durable.page (self : Durable) (path : PathBuf) (key : EntityKey) : PageState where
  file := self.files path
  shadow := self.store.shadows key
  entity := self.store.entities.get key
  freshness := self.store.freshness key

/-- What a request writes to its page. -/
inductive PageEffect where
  | keep
  /-- The record's state. -/
  | mark (state : HydrationState)
  | hint (pending : Bool)
  /-- The render is the page. -/
  | replace (rendered : HydratedEntity) (text : Text)
  /-- The file is the text, and the render the shadow it is compared with. -/
  | merge (rendered : HydratedEntity) (text : Text)
  /-- The remote is gone, and the file holds edits. -/
  | markDeleted (state : HydrationState) (observedAt : Text)
  /-- The remote is gone, and so is the file. -/
  | remove (observedAt : Text)

namespace PageState

def withHint (self : PageState) (pending : Bool) : PageState :=
  { self with
    freshness := self.freshness.map fun freshness =>
      { freshness with remoteHintPending := pending } }

def observedDeleted (self : PageState) (observedAt : Text) : PageState :=
  { self with
    freshness := self.freshness.map fun freshness =>
      { freshness with remoteHintPending := true, lastCheckedAt := some observedAt } }

def withState (self : PageState) (state : HydrationState) : PageState :=
  { self with entity := self.entity.map fun entity => { entity with hydration := state } }

/-- The record after a merge. -/
def mergedRecord (entity : EntityRecord) (rendered : HydratedEntity)
    (hasConflictMarkers : Bool) : EntityRecord :=
  { entity with
    hydration := mergedState entity.hydration hasConflictMarkers
    contentHash := some rendered.shadow.bodyHash
    remoteEditedAt := rendered.remoteEditedAt.orElse fun _ => entity.remoteEditedAt }

def apply (self : PageState) : PageEffect → PageState
  | .keep => self
  | .mark state => self.withState state
  | .hint pending => self.withHint pending
  | .replace rendered text =>
      { self with
        file := some (.text text)
        shadow := some rendered.shadow
        entity := self.entity.map fun entity =>
          hydratedRecord entity rendered.shadow rendered.remoteEditedAt }.withHint false
  | .merge rendered text =>
      let merged : PageState := { self with
        file := some (.text text)
        shadow := some rendered.shadow
        entity := self.entity.map fun entity =>
          mergedRecord entity rendered (hasUnresolvedConflictMarkers text) }
      if hasUnresolvedConflictMarkers text then merged else merged.withHint false
  | .markDeleted state observedAt => (self.observedDeleted observedAt).withState state
  | .remove observedAt =>
      { self.observedDeleted observedAt with file := none, entity := none }

end PageState

/-! ## The decision -/

/-- The state of an entity whose file is found edited. -/
def markedDirty (state : HydrationState) : HydrationState :=
  if state ≠ .conflicted ∧ state.canTransitionTo .dirty then .dirty else state

/-- The state of an entity whose file is found in conflict. -/
def markedConflicted (state : HydrationState) : HydrationState :=
  if (HydrationState.becoming state .dirty).canTransitionTo .conflicted then .conflicted
  else state

/-- The assets of a render can be written. -/
def checkAssets (outputRoot : PathBuf) : List HydratedAsset → LocalityResult Unit
  | [] => .ok ()
  | asset :: assets =>
      match mountRelativePath outputRoot asset.path with
      | .error error => .error error
      | .ok _ => checkAssets outputRoot assets

/-- What the connector answers to a request. -/
structure Fetched where
  render : LocalityResult HydratedEntity
  /-- The schema of the parent database is there, or is not needed. -/
  schema : LocalityResult Unit

abbrev PageVerdict : Type := PageEffect × LocalityResult HydrationOutcome

section Verdict

variable (yaml : YamlSerde) (outputRoot : PathBuf) (entity : EntityRecord)

/-- A file is merged with a render whose assets can be written. -/
def mergeVerdict (shadow : Option ShadowDocument) (rendered : HydratedEntity)
    (localContents : Text) (useBaseShadow : Bool) : PageVerdict :=
  match checkAssets outputRoot rendered.assets with
  | .error error => (.keep, .error error)
  | .ok () =>
      (.merge rendered (conflictMarkdown yaml entity outputRoot shadow rendered localContents
        useBaseShadow), .ok .skippedDirty)

def shadowMatchesRender (shadow : Option ShadowDocument) (rendered : HydratedEntity) : Bool :=
  match shadow with
  | none => false
  | some shadow => shadowsMatch yaml shadow rendered.shadow

def editedVerdict (shadow : Option ShadowDocument) (contents : Text)
    (rendered : HydratedEntity) : PageVerdict :=
  if hasUnresolvedConflictMarkers contents then
    if sameRemoteVersion entity rendered then
      match localVersionFromConflictMarkers yaml contents with
      | none => (.mark (markedConflicted entity.hydration), .ok .skippedDirty)
      | some localContents =>
          mergeVerdict yaml outputRoot entity shadow rendered localContents
            (!shadowMatchesRender yaml shadow rendered)
    else (.mark (markedConflicted entity.hydration), .ok .skippedDirty)
  else if shadowMatchesRender yaml shadow rendered then
    (.mark (markedDirty entity.hydration), .ok .skippedDirty)
  else mergeVerdict yaml outputRoot entity shadow rendered contents true

def replaceVerdict (rendered : HydratedEntity) : PageVerdict :=
  match checkAssets outputRoot rendered.assets with
  | .error error => (.keep, .error error)
  | .ok () =>
      (.replace rendered
        (renderDocumentWithAbsoluteMediaHrefs rendered.document entity.path outputRoot),
        .ok .hydrated)

/-- A probe of an unchanged version goes on for a while after a local change. -/
def probeContinues (nowMs : Nat) (freshness : Option FreshnessStateRecord) : Bool :=
  match (freshness.bind FreshnessStateRecord.lastLocalChangeAt).bind
      parseFreshnessTimestamp with
  | none => false
  | some lastLocalChangeMs =>
      let nowMs := min nowMs (2 ^ 64 - 1)
      decide (lastLocalChangeMs ≤ nowMs) &&
        decide (nowMs - lastLocalChangeMs ≤ liveModePostPushSameVersionProbeWindowMs)

/-- A live-mode request leaves the page as it is. -/
def liveModeKeeps (reason : HydrationReason) (nowMs : Nat) (page : PageState)
    (rendered : HydratedEntity) : Bool :=
  decide (reason = .liveModeRemoteFastForward) &&
    (liveModeRemoteFastForwardRenderLooksStale entity page.shadow rendered ||
      (sameRemoteVersion entity rendered && renderMatchesPreviousShadow page.shadow rendered &&
        probeContinues nowMs page.freshness))

/-- The file at the page may be replaced; a file that is not there may. -/
def PageState.replaceable (page : PageState) : Bool :=
  match page.file with
  | some (.text contents) => canReplaceContents yaml page.shadow contents
  | _ => true

def renderedVerdict (reason : HydrationReason) (nowMs : Nat) (page : PageState)
    (fetched : Fetched) (rendered : HydratedEntity) : PageVerdict :=
  if rendered.shadow.entityId ≠ entity.remoteId then
    (.keep, .error (.invalidState ("hydration source returned shadow for \x60".toList ++
      rendered.shadow.entityId.value ++ "\x60 while hydrating \x60".toList ++
      entity.remoteId.value ++ "\x60".toList)))
  else
    match fetched.schema with
    | .error error => (.keep, .error error)
    | .ok () =>
        match page.file, PageState.replaceable yaml page with
        | some (.text contents), false =>
            editedVerdict yaml outputRoot entity page.shadow contents rendered
        | _, _ =>
            if liveModeKeeps entity reason nowMs page rendered then
              (.hint true, .ok .hydrated)
            else replaceVerdict outputRoot entity rendered

def observedAtText (nowMs : Nat) : Text := "unix_ms:".toList ++ (toString nowMs).toList

/-- The decision for a page whose file is a text, or is not there. -/
def readableVerdict (reason : HydrationReason) (nowMs : Nat) (page : PageState)
    (fetched : Fetched) : PageVerdict :=
  if !PageState.replaceable yaml page && reason.isRemoteFastForward then
    (.mark (markedDirty entity.hydration), .ok .skippedDirty)
  else
    match fetched.render with
    | .error error =>
        if isRemoteNotFound error then
          if PageState.replaceable yaml page then
            (.remove (observedAtText nowMs), .ok .remoteDeleted)
          else
            (.markDeleted (markedDirty entity.hydration) (observedAtText nowMs),
              .ok .skippedDirty)
        else (.keep, .error error)
    | .ok rendered => renderedVerdict yaml outputRoot entity reason nowMs page fetched rendered

/-- The decision of a request for a page. -/
def hydrationVerdict (path : PathBuf) (reason : HydrationReason) (nowMs : Nat)
    (page : PageState) (fetched : Fetched) : PageVerdict :=
  match page.file with
  | some (.invalidUtf8 _) =>
      (.keep, .error (readError path "stream did not contain valid UTF-8".toList))
  | _ => readableVerdict yaml outputRoot entity reason nowMs page fetched

theorem hydrationVerdict_of_readable {path : PathBuf} {reason : HydrationReason} {nowMs : Nat}
    {page : PageState} {fetched : Fetched}
    (hutf8 : ∀ bytes, page.file ≠ some (.invalidUtf8 bytes)) :
    hydrationVerdict yaml outputRoot entity path reason nowMs page fetched =
      readableVerdict yaml outputRoot entity reason nowMs page fetched := by
  unfold hydrationVerdict
  cases hfile : page.file with
  | none => rfl
  | some content =>
      cases content with
      | text contents => rfl
      | invalidUtf8 bytes => exact absurd hfile (hutf8 bytes)

end Verdict

end Locality.Daemon
