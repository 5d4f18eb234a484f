/-
  Daemon/PullAgreement.lean --- where `loc pull` and the daemon do the same to a page.

  A pull of one entity is, as a hydration is, a step of its page (`hydrateEntity_page`).
  The two steps are compared: they differ where a merge ends a recorded conflict, where
  assets cannot be written beside a file that is only marked, and where the connector
  answers for another entity (`hydrateEntity_agrees_iff`).
-/
import Locality.Daemon.Pull
import Locality.Daemon.HydrationConflict

set_option autoImplicit false

namespace Locality.Daemon

open Locality.Core Locality.Foundation Locality.Foundation.Fallible

/-! ## Merges of an edited file -/

section Merge

variable (yaml : YamlSerde) (outputRoot : PathBuf) (entity : EntityRecord)

/-- What a hydration writes over an edited file, where it writes anything. -/
def editedMerge (shadow : Option ShadowDocument) (contents : Text)
    (rendered : HydratedEntity) : Option Text :=
  if hasUnresolvedConflictMarkers contents then
    if sameRemoteVersion entity rendered then
      (localVersionFromConflictMarkers yaml contents).map fun localContents =>
        conflictMarkdown yaml entity outputRoot shadow rendered localContents
          (!shadowMatchesRender yaml shadow rendered)
    else none
  else if shadowMatchesRender yaml shadow rendered then none
  else some (conflictMarkdown yaml entity outputRoot shadow rendered contents true)

/-- The state of an entity whose edited file is left as it is. -/
def editedMark (contents : Text) : HydrationState :=
  if hasUnresolvedConflictMarkers contents then markedConflicted entity.hydration
  else markedDirty entity.hydration

theorem editedVerdict_eq (shadow : Option ShadowDocument) (contents : Text)
    (rendered : HydratedEntity) :
    editedVerdict yaml outputRoot entity shadow contents rendered =
      match editedMerge yaml outputRoot entity shadow contents rendered with
      | none => (.mark (editedMark entity contents), .ok .skippedDirty)
      | some text =>
          match checkAssets outputRoot rendered.assets with
          | .error error => (.keep, .error error)
          | .ok () => (.merge rendered text, .ok .skippedDirty) := by
  unfold editedVerdict editedMerge editedMark
  cases hasUnresolvedConflictMarkers contents with
  | false =>
      cases shadowMatchesRender yaml shadow rendered with
      | true => rfl
      | false => rfl
  | true =>
      cases sameRemoteVersion entity rendered with
      | false => rfl
      | true =>
          cases localVersionFromConflictMarkers yaml contents with
          | none => rfl
          | some localContents => rfl

end Merge

/-! ## The step of a pull -/

namespace PageState

/-- A shadow is stored under the entity that it names. -/
def withShadowOf (self : PageState) (entity : EntityRecord) (shadow : ShadowDocument) :
    PageState :=
  { self with
    shadow := if shadow.entityId = entity.remoteId then some shadow else self.shadow }

/-- A render was taken over, and the freshness state says when. -/
def synced (self : PageState) (observedAt : Text) : PageState :=
  { self with
    freshness := self.freshness.map fun freshness =>
      { freshness with remoteHintPending := false, lastCheckedAt := some observedAt } }

def withFile (self : PageState) (text : Text) : PageState :=
  { self with file := some (.text text) }

def withEntity (self : PageState) (entity : EntityRecord) : PageState :=
  { self with entity := some entity }

/-- The render is the page. -/
def accepted (self : PageState) (entity : EntityRecord) (rendered : HydratedEntity)
    (text observedAt : Text) : PageState :=
  (((self.withFile text).withShadowOf entity rendered.shadow).withEntity
    (hydratedRecord entity rendered.shadow rendered.remoteEditedAt)).synced observedAt

/-- The record after a merge of a pull. -/
def pullMergedRecord (entity : EntityRecord) (rendered : HydratedEntity)
    (hasConflictMarkers : Bool) : EntityRecord :=
  if hasConflictMarkers then
    Pull.conflictedRecord entity rendered.shadow rendered.remoteEditedAt
  else Pull.dirtyRecord entity rendered.shadow rendered.remoteEditedAt

def pullMerged (self : PageState) (entity : EntityRecord) (rendered : HydratedEntity)
    (text observedAt : Text) : PageState :=
  let merged := ((self.withFile text).withShadowOf entity rendered.shadow).withEntity
    (pullMergedRecord entity rendered (hasUnresolvedConflictMarkers text))
  if hasUnresolvedConflictMarkers text then merged else merged.synced observedAt

end PageState

abbrev PullVerdict : Type := PageState × Except PullError PullOutcome

section Verdict

variable (yaml : YamlSerde) (mountPoint : PathBuf) (mount : MountConfig) (outputRoot : PathBuf)
  (entity : EntityRecord)

def pullEditedVerdict (nowMs : Nat) (page : PageState) (contents : Text)
    (rendered : HydratedEntity) : PullVerdict :=
  match editedMerge yaml outputRoot entity page.shadow contents rendered with
  | none =>
      (page.withState (editedMark entity contents),
        .ok (if hasUnresolvedConflictMarkers contents then
          .conflicted (Pull.pullConflict mountPoint mount entity) else .skippedDirty))
  | some text =>
      (page.pullMerged entity rendered text (observedAtText nowMs),
        .ok (Pull.driftOutcome mountPoint mount entity
          (if hasUnresolvedConflictMarkers text then .conflicted else .merged)))

def pullRenderedVerdict (nowMs : Nat) (page : PageState) (fetched : Fetched)
    (rendered : HydratedEntity) : PullVerdict :=
  match fetched.schema with
  | .error error => (page, .error (.connector error))
  | .ok () =>
      match checkAssets outputRoot rendered.assets with
      | .error error => (page, .error (.connector error))
      | .ok () =>
          match page.file, PageState.replaceable yaml page with
          | some (.text contents), false =>
              pullEditedVerdict yaml mountPoint mount outputRoot entity nowMs page contents
                rendered
          | _, _ =>
              (page.accepted entity rendered
                (renderDocumentWithAbsoluteMediaHrefs rendered.document entity.path outputRoot)
                (observedAtText nowMs), .ok .hydrated)

/-- The decision for a page whose file is a text, or is not there. -/
def pullReadableVerdict (nowMs : Nat) (page : PageState) (fetched : Fetched) : PullVerdict :=
  match fetched.render with
  | .error error =>
      if isRemoteNotFound error then
        if PageState.replaceable yaml page then
          (page.apply (.remove (observedAtText nowMs)), .ok .remoteDeleted)
        else
          (page.apply (.markDeleted (markedDirty entity.hydration) (observedAtText nowMs)),
            .ok .skippedDirty)
      else (page, .error (.connector error))
  | .ok rendered =>
      pullRenderedVerdict yaml mountPoint mount outputRoot entity nowMs page fetched rendered

def pullVerdict (path : PathBuf) (nowMs : Nat) (page : PageState) (fetched : Fetched) :
    PullVerdict :=
  match page.file with
  | some (.invalidUtf8 _) =>
      (page, .error (.readFile path "stream did not contain valid UTF-8".toList))
  | _ => pullReadableVerdict yaml mountPoint mount outputRoot entity nowMs page fetched

theorem pullVerdict_of_readable {path : PathBuf} {nowMs : Nat} {page : PageState}
    {fetched : Fetched} (hutf8 : ∀ bytes, page.file ≠ some (.invalidUtf8 bytes)) :
    pullVerdict yaml mountPoint mount outputRoot entity path nowMs page fetched =
      pullReadableVerdict yaml mountPoint mount outputRoot entity nowMs page fetched := by
  unfold pullVerdict
  cases hfile : page.file with
  | none => rfl
  | some content =>
      cases content with
      | text contents => rfl
      | invalidUtf8 bytes => exact absurd hfile (hutf8 bytes)

end Verdict

/-! ## The same page, the same outcome -/

/-- Two states of a page that differ at most in when it was last checked. -/
structure SamePage (left right : PageState) : Prop where
  file : left.file = right.file
  shadow : left.shadow = right.shadow
  entity : left.entity = right.entity
  hint : left.freshness.map FreshnessStateRecord.remoteHintPending =
    right.freshness.map FreshnessStateRecord.remoteHintPending

/-- A pull tells a merge and a conflict from a file that it left alone; the daemon does
not. -/
def OutcomesCorrespond :
    LocalityResult HydrationOutcome → Except PullError PullOutcome → Prop
  | .ok .hydrated, .ok .hydrated => True
  | .ok .remoteDeleted, .ok .remoteDeleted => True
  | .ok .skippedDirty, .ok .skippedDirty => True
  | .ok .skippedDirty, .ok .mergedDirty => True
  | .ok .skippedDirty, .ok (.conflicted _) => True
  | .error _, .error _ => True
  | _, _ => False

section Agreement

variable (yaml : YamlSerde) (outputRoot : PathBuf) (entity : EntityRecord)

/-- The merge of an edited page, where its file is edited. -/
def pageMerge (page : PageState) (rendered : HydratedEntity) : Option Text :=
  match page.file, PageState.replaceable yaml page with
  | some (.text contents), false =>
      editedMerge yaml outputRoot entity page.shadow contents rendered
  | _, _ => none

/-- The page is in conflict, and its merge with the render is not. -/
def EndsConflict (page : PageState) (rendered : HydratedEntity) : Prop :=
  entity.hydration = .conflicted ∧
    ∃ text, pageMerge yaml outputRoot entity page rendered = some text ∧
      hasUnresolvedConflictMarkers text = false

/-- The render is written over the file, alone or merged with it. -/
def WritesRender (page : PageState) (rendered : HydratedEntity) : Prop :=
  PageState.replaceable yaml page = true ∨
    (pageMerge yaml outputRoot entity page rendered).isSome = true

/-- For a render of the entity itself: its assets can be written and the merge ends no
conflict, or they cannot be and both operations would write them.  For a render of
another entity: its assets cannot be written, so both operations fail. -/
def RenderAgrees (page : PageState) (rendered : HydratedEntity) : Prop :=
  if rendered.shadow.entityId = entity.remoteId then
    if checkAssets outputRoot rendered.assets = .ok () then
      ¬ EndsConflict yaml outputRoot entity page rendered
    else WritesRender yaml outputRoot entity page rendered
  else checkAssets outputRoot rendered.assets ≠ .ok ()

/-- Of a page whose file can be read, and of a render that comes with its schema. -/
def PullAgrees (page : PageState) (fetched : Fetched) : Prop :=
  ∀ rendered, fetched.render = .ok rendered → fetched.schema = .ok () →
    (∀ bytes, page.file ≠ some (.invalidUtf8 bytes)) →
    RenderAgrees yaml outputRoot entity page rendered

/-! ## The two steps compared -/

variable {yaml outputRoot entity} {mountPoint : PathBuf} {mount : MountConfig} {path : PathBuf}
  {nowMs : Nat} {page : PageState} {fetched : Fetched} {rendered : HydratedEntity}

/-- A hydration and a pull leave the same page, and end alike. -/
structure SameStep (daemon : PageVerdict) (pull : PullVerdict) (page : PageState) : Prop where
  page : SamePage (page.apply daemon.1) pull.1
  outcome : OutcomesCorrespond daemon.2 pull.2

theorem SamePage.refl (page : PageState) : SamePage page page := ⟨rfl, rfl, rfl, rfl⟩

theorem sameStep_error {error : LocalityError} {error' : PullError} :
    SameStep (.keep, .error error) (page, .error error') page :=
  ⟨SamePage.refl page, trivial⟩

/-- One operation fails where the other does not. -/
theorem not_sameStep_of_ok_error {effect : PageEffect} {outcome : HydrationOutcome}
    {after : PageState} {error : PullError} :
    ¬ SameStep (effect, .ok outcome) (after, .error error) page := by
  intro h
  have houtcome := h.outcome
  cases outcome <;> exact houtcome

/-- The records of the two merges differ in the state of an entity that was in
conflict. -/
theorem mergedRecord_eq_iff (hasConflictMarkers : Bool) :
    PageState.mergedRecord entity rendered hasConflictMarkers =
        PageState.pullMergedRecord entity rendered hasConflictMarkers ↔
      ¬ (entity.hydration = .conflicted ∧ hasConflictMarkers = false) := by
  cases hasConflictMarkers with
  | true => exact ⟨fun _ h => Bool.false_ne_true h.2.symm, fun _ => rfl⟩
  | false =>
      rw [eq_self_iff_true, and_true]
      constructor
      · intro h hconflicted
        have hstate := congrArg EntityRecord.hydration h
        simp [PageState.mergedRecord, PageState.pullMergedRecord, Pull.dirtyRecord,
          Pull.markDirtyIfAllowed, mergedState, HydrationState.becoming, hconflicted,
          HydrationState.canTransitionTo] at hstate
      · intro hstate
        unfold PageState.mergedRecord PageState.pullMergedRecord Pull.dirtyRecord
          Pull.markDirtyIfAllowed
        obtain ⟨mountId, remoteId, kind, title, path, state, contentHash, remoteEditedAt⟩ := entity
        cases state with
        | conflicted => exact absurd rfl hstate
        | virtual => rfl
        | stub => rfl
        | hydrated => rfl
        | dirty => rfl

theorem sameStep_merge_iff (hentity : page.entity = some entity)
    (hid : rendered.shadow.entityId = entity.remoteId) {text observedAt : Text}
    {conflict : DirtyRemoteDriftOutcome → PullOutcome}
    (hconflict : ∀ outcome, OutcomesCorrespond (.ok .skippedDirty) (.ok (conflict outcome)))
    (outcome : DirtyRemoteDriftOutcome) :
    SameStep (.merge rendered text, .ok .skippedDirty)
        (page.pullMerged entity rendered text observedAt, .ok (conflict outcome)) page ↔
      ¬ (entity.hydration = .conflicted ∧ hasUnresolvedConflictMarkers text = false) := by
  rw [← @mergedRecord_eq_iff entity rendered]
  constructor
  · intro h
    have hafter := h.page.entity
    simp only [PageState.apply, PageState.pullMerged, hentity, Option.map_some] at hafter
    cases hmarkers : hasUnresolvedConflictMarkers text with
    | true =>
        rw [hmarkers] at hafter
        exact Option.some.inj hafter
    | false =>
        rw [hmarkers] at hafter
        exact Option.some.inj hafter
  · intro h
    refine ⟨?_, hconflict outcome⟩
    simp only [PageState.apply, PageState.pullMerged, hentity, Option.map_some, h]
    cases hasUnresolvedConflictMarkers text with
    | true =>
        exact ⟨rfl, by simp [PageState.withEntity, PageState.withShadowOf, hid], rfl, rfl⟩
    | false =>
        refine ⟨rfl, ?_, rfl, ?_⟩
        · simp [PageState.withEntity, PageState.withShadowOf, PageState.withHint,
            PageState.synced, hid]
        · simp only [PageState.withHint, PageState.synced, PageState.withEntity,
            PageState.withShadowOf, PageState.withFile, Bool.false_eq_true, if_false,
            Option.map_map]
          rfl

theorem driftOutcome_corresponds (outcome : DirtyRemoteDriftOutcome) :
    OutcomesCorrespond (.ok .skippedDirty)
      (.ok (Pull.driftOutcome mountPoint mount entity outcome)) := by
  cases outcome <;> trivial

theorem sameStep_replace (hentity : page.entity = some entity)
    (hid : rendered.shadow.entityId = entity.remoteId) (text observedAt : Text) :
    SameStep (.replace rendered text, .ok .hydrated)
      (page.accepted entity rendered text observedAt, .ok .hydrated) page := by
  refine ⟨⟨rfl, ?_, ?_, ?_⟩, trivial⟩
  · simp [PageState.apply, PageState.accepted, PageState.withHint, PageState.synced,
      PageState.withEntity, PageState.withShadowOf, hid]
  · simp [PageState.apply, PageState.accepted, PageState.withHint, PageState.synced,
      PageState.withEntity, hentity]
  · simp only [PageState.apply, PageState.accepted, PageState.withHint, PageState.synced,
      PageState.withEntity, PageState.withShadowOf, PageState.withFile, Option.map_map]
    rfl

theorem sameStep_edited_iff (hentity : page.entity = some entity)
    (hid : rendered.shadow.entityId = entity.remoteId)
    (hassets : checkAssets outputRoot rendered.assets = .ok ()) (contents : Text) :
    SameStep (editedVerdict yaml outputRoot entity page.shadow contents rendered)
        (pullEditedVerdict yaml mountPoint mount outputRoot entity nowMs page contents rendered)
        page ↔
      ¬ (entity.hydration = .conflicted ∧
        ∃ text, editedMerge yaml outputRoot entity page.shadow contents rendered = some text ∧
          hasUnresolvedConflictMarkers text = false) := by
  rw [editedVerdict_eq, pullEditedVerdict, hassets]
  cases editedMerge yaml outputRoot entity page.shadow contents rendered with
  | none =>
      refine ⟨fun _ h => ?_, fun _ => ⟨SamePage.refl _, ?_⟩⟩
      · obtain ⟨-, text, htext, -⟩ := h
        exact nomatch htext
      · simp only []
        split
        · trivial
        · trivial
  | some text =>
      rw [show (∃ found, some text = some found ∧ hasUnresolvedConflictMarkers found = false) ↔
        hasUnresolvedConflictMarkers text = false by simp]
      exact sameStep_merge_iff hentity hid driftOutcome_corresponds _

theorem liveModeKeeps_explicitPull (nowMs : Nat) (page : PageState) :
    liveModeKeeps entity .explicitPull nowMs page rendered = false := rfl

/-- The steps for a render of the entity itself whose assets can be written. -/
theorem sameStep_rendered_iff (hentity : page.entity = some entity)
    (hid : rendered.shadow.entityId = entity.remoteId)
    (hschema : fetched.schema = .ok ()) (hassets : checkAssets outputRoot rendered.assets = .ok ()) :
    SameStep (renderedVerdict yaml outputRoot entity .explicitPull nowMs page fetched rendered)
        (pullRenderedVerdict yaml mountPoint mount outputRoot entity nowMs page fetched rendered)
        page ↔
      ¬ EndsConflict yaml outputRoot entity page rendered := by
  have hreplace : SameStep
      (if liveModeKeeps entity .explicitPull nowMs page rendered then (.hint true, .ok .hydrated)
        else replaceVerdict outputRoot entity rendered)
      (page.accepted entity rendered
        (renderDocumentWithAbsoluteMediaHrefs rendered.document entity.path outputRoot)
        (observedAtText nowMs), .ok .hydrated) page := by
    rw [liveModeKeeps_explicitPull, if_neg Bool.false_ne_true, replaceVerdict, hassets]
    exact sameStep_replace hentity hid _ _
  unfold renderedVerdict pullRenderedVerdict EndsConflict pageMerge
  rw [if_neg (not_not.mpr hid), hschema, hassets]
  cases PageState.replaceable yaml page with
  | true =>
      have hnone : ¬ (entity.hydration = .conflicted ∧ ∃ text, (none : Option Text) = some text ∧
          hasUnresolvedConflictMarkers text = false) := by
        rintro ⟨-, text, htext, -⟩
        cases htext
      cases page.file with
      | none => exact ⟨fun _ => hnone, fun _ => hreplace⟩
      | some content =>
          cases content with
          | text contents => exact ⟨fun _ => hnone, fun _ => hreplace⟩
          | invalidUtf8 bytes => exact ⟨fun _ => hnone, fun _ => hreplace⟩
  | false =>
      cases page.file with
      | none =>
          refine ⟨fun _ h => ?_, fun _ => hreplace⟩
          obtain ⟨-, text, htext, -⟩ := h
          cases htext
      | some content =>
          cases content with
          | text contents => exact sameStep_edited_iff hentity hid hassets contents
          | invalidUtf8 bytes =>
              refine ⟨fun _ h => ?_, fun _ => hreplace⟩
              obtain ⟨-, text, htext, -⟩ := h
              cases htext

/-- Where assets cannot be written, a pull fails; a hydration fails where it would write
them. -/
theorem sameStep_unwritable_iff (hid : rendered.shadow.entityId = entity.remoteId)
    (hschema : fetched.schema = .ok ()) {error : LocalityError}
    (hassets : checkAssets outputRoot rendered.assets = .error error)
    (hutf8 : ∀ bytes, page.file ≠ some (.invalidUtf8 bytes)) :
    SameStep (renderedVerdict yaml outputRoot entity .explicitPull nowMs page fetched rendered)
        (pullRenderedVerdict yaml mountPoint mount outputRoot entity nowMs page fetched rendered)
        page ↔
      WritesRender yaml outputRoot entity page rendered := by
  unfold renderedVerdict pullRenderedVerdict WritesRender pageMerge
  rw [if_neg (not_not.mpr hid), hschema, hassets]
  simp only [liveModeKeeps_explicitPull, Bool.false_eq_true, if_false, replaceVerdict, hassets]
  cases hreplaceable : PageState.replaceable yaml page with
  | true =>
      cases page.file with
      | none => exact ⟨fun _ => .inl rfl, fun _ => sameStep_error⟩
      | some content =>
          cases content with
          | text contents => exact ⟨fun _ => .inl rfl, fun _ => sameStep_error⟩
          | invalidUtf8 bytes => exact ⟨fun _ => .inl rfl, fun _ => sameStep_error⟩
  | false =>
      cases hfile : page.file with
      | none => simp [PageState.replaceable, hfile] at hreplaceable
      | some content =>
          cases content with
          | invalidUtf8 bytes => exact absurd hfile (hutf8 bytes)
          | text contents =>
              simp only [editedVerdict_eq, Bool.false_eq_true, false_or]
              cases editedMerge yaml outputRoot entity page.shadow contents rendered with
              | none =>
                  refine ⟨fun h => absurd h not_sameStep_of_ok_error, fun h => ?_⟩
                  exact absurd h Bool.false_ne_true
              | some text =>
                  simp only [hassets]
                  exact ⟨fun _ => rfl, fun _ => sameStep_error⟩

/-- The steps for a render of another entity. -/
theorem sameStep_otherEntity_iff (hid : rendered.shadow.entityId ≠ entity.remoteId)
    (hschema : fetched.schema = .ok ()) :
    SameStep (renderedVerdict yaml outputRoot entity .explicitPull nowMs page fetched rendered)
        (pullRenderedVerdict yaml mountPoint mount outputRoot entity nowMs page fetched rendered)
        page ↔
      checkAssets outputRoot rendered.assets ≠ .ok () := by
  unfold renderedVerdict pullRenderedVerdict
  rw [if_pos hid, hschema]
  cases hassets : checkAssets outputRoot rendered.assets with
  | error error => exact ⟨fun _ h => (nomatch h), fun _ => sameStep_error⟩
  | ok _ =>
      refine ⟨fun h => ?_, fun h => absurd rfl h⟩
      have hok : ∃ outcome, ((pullRenderedVerdict yaml mountPoint mount outputRoot entity nowMs
          page fetched rendered).2) = .ok outcome := by
        unfold pullRenderedVerdict pullEditedVerdict
        rw [hschema, hassets]
        simp only []
        split
        · split
          · exact ⟨_, rfl⟩
          · exact ⟨_, rfl⟩
        · exact ⟨_, rfl⟩
      obtain ⟨outcome, hok⟩ := hok
      unfold pullRenderedVerdict at hok
      rw [hschema, hassets] at hok
      have houtcome := h.outcome
      simp only [] at hok houtcome
      rw [hok] at houtcome
      cases outcome <;> exact houtcome.elim

/-- The two steps for a page agree exactly where `PullAgrees` says so. -/
theorem sameStep_iff (hentity : page.entity = some entity) :
    SameStep (hydrationVerdict yaml outputRoot entity path .explicitPull nowMs page fetched)
        (pullVerdict yaml mountPoint mount outputRoot entity path nowMs page fetched) page ↔
      PullAgrees yaml outputRoot entity page fetched := by
  by_cases hutf8 : ∃ bytes, page.file = some (.invalidUtf8 bytes)
  · obtain ⟨bytes, hfile⟩ := hutf8
    rw [hydrationVerdict, pullVerdict, hfile]
    exact ⟨fun _ _ _ _ h => absurd hfile (h bytes), fun _ => sameStep_error⟩
  · have hutf8 : ∀ bytes, page.file ≠ some (.invalidUtf8 bytes) := not_exists.mp hutf8
    rw [hydrationVerdict_of_readable yaml _ entity hutf8,
      pullVerdict_of_readable yaml mountPoint mount outputRoot entity hutf8]
    unfold readableVerdict pullReadableVerdict PullAgrees
    rw [show HydrationReason.explicitPull.isRemoteFastForward = false from rfl, Bool.and_false,
      if_neg Bool.false_ne_true]
    cases hrender : fetched.render with
    | error error =>
        refine ⟨fun _ _ h => absurd h (by intro h; cases h), fun _ => ?_⟩
        simp only []
        split
        · split
          · exact ⟨SamePage.refl _, trivial⟩
          · exact ⟨SamePage.refl _, trivial⟩
        · exact sameStep_error
    | ok rendered =>
        cases hschema : fetched.schema with
        | error error =>
            refine ⟨fun _ _ _ h => absurd h (by intro h; cases h), fun _ => ?_⟩
            simp only [renderedVerdict, pullRenderedVerdict, hschema]
            split
            · exact sameStep_error
            · exact sameStep_error
        | ok _ =>
            have hagrees : SameStep
                (renderedVerdict yaml outputRoot entity .explicitPull nowMs page fetched rendered)
                (pullRenderedVerdict yaml mountPoint mount outputRoot entity nowMs page fetched
                  rendered) page ↔ RenderAgrees yaml outputRoot entity page rendered := by
              unfold RenderAgrees
              split
              · rename_i hid
                cases hassets : checkAssets outputRoot rendered.assets with
                | ok _ =>
                    rw [if_pos rfl]
                    exact sameStep_rendered_iff hentity hid hschema hassets
                | error error =>
                    rw [if_neg (fun h => by cases h)]
                    exact sameStep_unwritable_iff hid hschema hassets hutf8
              · rename_i hid
                exact sameStep_otherEntity_iff hid hschema
            refine hagrees.trans ⟨fun h found hfound _ _ => ?_, fun h => h rendered rfl rfl hutf8⟩
            cases hfound
            exact h

end Agreement

/-! ## A pull is the step of its page -/

section Run

variable {path : PathBuf} {key : EntityKey} {nowMs : Nat}
  {mounts : MountId → Option MountConfig} {page : PageState} {yaml : YamlSerde}
  {mountPoint : PathBuf} {mount : MountConfig} {outputRoot : PathBuf} {entity : EntityRecord}
  {rendered : HydratedEntity} {contents : Text}

/-- What the pull does to the page, and what it returns, is the verdict. -/
def PullDecides (path : PathBuf) (key : EntityKey) (nowMs : Nat)
    (mounts : MountId → Option MountConfig) (page : PageState) (op : PullM PullOutcome)
    (verdict : PullVerdict) : Prop :=
  Yields op (AtPage path key nowMs mounts page) verdict.2 (AtPage path key nowMs mounts verdict.1)

/-- An operation of the host that succeeds, in a pull. -/
theorem yields_store {α : Type} {op : HostM α} {pre post : Host → Prop} {a : α}
    (h : Yields op pre (.ok a) post) : Yields (Pull.store op) pre (.ok a) post :=
  h.adapt PullError.store

theorem yields_connector {α : Type} {op : HostM α} {pre post : Host → Prop} {a : α}
    (h : Yields op pre (.ok a) post) : Yields (Pull.connector op) pre (.ok a) post :=
  h.adapt PullError.connector

theorem yields_connector_error {α : Type} {op : HostM α} {pre post : Host → Prop}
    {error : LocalityError} (h : Yields op pre (.error error) post) :
    Yields (Pull.connector op) pre (.error (.connector error)) post :=
  h.adapt PullError.connector

theorem yields_writeFile {op : HostM Unit} {pre post : Host → Prop}
    (h : Yields op pre (.ok ()) post) : Yields (Pull.writeFile path op) pre (.ok ()) post :=
  h.adapt (PullError.writeFile path)

theorem yields_pullRead_exact {start : Host}
    (hfile : start.durable.files path = some (.text contents)) :
    Yields (Pull.readToString path) (fun host => host = start) (.ok contents)
      (fun host => host = start) := by
  unfold Pull.readToString
  apply Yields.bind (yields_store (yields_read_exact start))
  rw [hfile]
  exact Yields.of_pure _

theorem yields_pullRead (hfile : page.file = some (.text contents)) :
    Yields (Pull.readToString path) (AtPage path key nowMs mounts page) (.ok contents)
      (AtPage path key nowMs mounts page) := by
  rintro host hat
  have hfile : host.durable.files path = some (.text contents) := by
    rw [← hfile, ← hat.page]
    rfl
  obtain ⟨after, hrun, rfl⟩ := yields_pullRead_exact hfile host rfl
  exact ⟨after, hrun, hat⟩

theorem yields_saveShadowOf (hmounted : (mount.mountId, entity.remoteId) = key)
    (shadow : ShadowDocument) :
    Yields (saveShadow mount.mountId shadow) (AtPage path key nowMs mounts page) (.ok ())
      (AtPage path key nowMs mounts (page.withShadowOf entity shadow)) := by
  unfold PageState.withShadowOf
  split
  · rename_i hid
    exact yields_saveShadow (by rw [hid, hmounted])
  · rename_i hid
    apply yields_write_beside
    · intro durable
      have hkey : key ≠ (mount.mountId, shadow.entityId) := by
        rintro rfl
        exact hid (congrArg Prod.snd hmounted).symm
      simp only [Durable.page, Durable.withStore, Store.saveShadow,
        Function.update_of_ne hkey]
    · intro durable
      rfl

theorem yields_recordSynced {record : EntityRecord} (hkey : (mount.mountId, record.remoteId) = key)
    (remoteEditedAt : Option Text) :
    Yields (Pull.recordSyncedRemoteObservation mount record remoteEditedAt)
      (AtPage path key nowMs mounts page) (.ok ())
      (AtPage path key nowMs mounts (page.synced (observedAtText nowMs))) := by
  have hclock : Yields freshnessTimestamp (AtPage path key nowMs mounts page)
      (.ok (observedAtText nowMs)) (AtPage path key nowMs mounts page) := by
    intro host hhost
    refine ⟨host, ?_, hhost⟩
    rw [← hhost.clock]
    rfl
  unfold Pull.recordSyncedRemoteObservation
  apply Yields.bind (yields_store hclock)
  apply Yields.bind (a := ()) (m := AtPage path key nowMs mounts page)
  · exact yields_store (yields_write_beside (fun _ => rfl) (fun _ => rfl))
  · apply Yields.bind (yields_store (yields_getFreshnessState hkey))
    rintro host ⟨hat, howner⟩
    unfold PageState.synced
    cases hfreshness : page.freshness with
    | none =>
        refine ⟨host, rfl, ?_⟩
        rw [Option.map_none, ← hfreshness]
        exact hat
    | some freshness =>
        have hsave := @yields_saveFreshnessState path key nowMs mounts page
          { freshness with
            remoteHintPending := false
            lastCheckedAt := some (observedAtText nowMs) } (howner freshness hfreshness)
        exact yields_store hsave host hat

theorem withState_pull_markDirty {record : EntityRecord} :
    Pull.markDirtyIfAllowed record = { record with hydration := markedDirty record.hydration } := by
  unfold Pull.markDirtyIfAllowed markedDirty
  split
  · rfl
  · rfl

theorem pull_markConflicted {record : EntityRecord} :
    Pull.markConflictedIfAllowed record =
      { record with hydration := markedConflicted record.hydration } := by
  obtain ⟨mountId, remoteId, kind, title, path, state, contentHash, remoteEditedAt⟩ := record
  cases state <;> rfl

/-- Saving the record under another state. -/
theorem yields_saveState (hentity : page.entity = some entity) (hkey : entity.key = key)
    (state : HydrationState) :
    Yields (Pull.store (saveEntity { entity with hydration := state }))
      (AtPage path key nowMs mounts page) (.ok ())
      (AtPage path key nowMs mounts (page.withState state)) := by
  rw [withState_of_entity hentity]
  exact yields_store (yields_saveEntity hentity hkey rfl)

theorem pullMergedRecord_path (hasConflictMarkers : Bool) :
    (PageState.pullMergedRecord entity rendered hasConflictMarkers).path = entity.path ∧
      (PageState.pullMergedRecord entity rendered hasConflictMarkers).key = entity.key ∧
      (PageState.pullMergedRecord entity rendered hasConflictMarkers).remoteId =
        entity.remoteId := by
  unfold PageState.pullMergedRecord Pull.dirtyRecord
  rw [withState_pull_markDirty]
  cases hasConflictMarkers with
  | true => exact ⟨rfl, rfl, rfl⟩
  | false => exact ⟨rfl, rfl, rfl⟩

theorem yields_pullMerge (hat : Located mount entity key page) (localContents : Text)
    (useBaseShadow : Bool) :
    PullDecides path key nowMs mounts page
      (do
        let outcome ← Pull.materializeConflictFromContents yaml mount entity path outputRoot
          rendered localContents useBaseShadow
        return Pull.driftOutcome mountPoint mount entity outcome)
      (page.pullMerged entity rendered
          (conflictMarkdown yaml entity outputRoot page.shadow rendered localContents
            useBaseShadow) (observedAtText nowMs),
        .ok (Pull.driftOutcome mountPoint mount entity
          (if hasUnresolvedConflictMarkers
              (conflictMarkdown yaml entity outputRoot page.shadow rendered localContents
                useBaseShadow) then .conflicted else .merged))) := by
  unfold PullDecides Pull.materializeConflictFromContents
  generalize hmarkdown : conflictMarkdown yaml entity outputRoot page.shadow rendered
    localContents useBaseShadow = markdown
  let written : PageState := (page.withFile markdown).withShadowOf entity rendered.shadow
  let record := PageState.pullMergedRecord entity rendered
    (hasUnresolvedConflictMarkers markdown)
  obtain ⟨hpath, hkey, hremote⟩ := @pullMergedRecord_path entity rendered
    (hasUnresolvedConflictMarkers markdown)
  have hrest : Yields
      (do
        Pull.store (saveEntity record)
        if !hasUnresolvedConflictMarkers markdown then
          Pull.recordSyncedRemoteObservation mount record rendered.remoteEditedAt
        return if hasUnresolvedConflictMarkers markdown then
          DirtyRemoteDriftOutcome.conflicted else .merged)
      (AtPage path key nowMs mounts written)
      (.ok (if hasUnresolvedConflictMarkers markdown then .conflicted else .merged))
      (AtPage path key nowMs mounts
        (page.pullMerged entity rendered markdown (observedAtText nowMs))) := by
    apply Yields.bind (a := ()) (m := AtPage path key nowMs mounts (written.withEntity record))
    · exact yields_store (yields_saveEntity hat.found (hkey.trans hat.keyed) hpath)
    · have hsynced := @yields_recordSynced path key nowMs mounts (written.withEntity record) mount
        record (by rw [hremote, hat.mounted]) rendered.remoteEditedAt
      unfold PageState.pullMerged
      cases hmarkers : hasUnresolvedConflictMarkers markdown with
      | true =>
          have hrecord : record = PageState.pullMergedRecord entity rendered true := by
            rw [← hmarkers]
          rw [← hrecord]
          exact Yields.of_pure _
      | false =>
          have hrecord : record = PageState.pullMergedRecord entity rendered false := by
            rw [← hmarkers]
          rw [← hrecord]
          exact Yields.bind hsynced (Yields.of_pure _)
  apply Yields.bind
  · apply Yields.bind (yields_store (yields_loadShadow hat.mounted))
    simp only [hmarkdown]
    apply Yields.bind (yields_writeFile (yields_writeAtomic markdown))
    apply Yields.bind (yields_store (yields_saveShadowOf hat.mounted rendered.shadow))
    exact hrest
  · exact Yields.of_pure _

theorem yields_pullMatches (hat : Located mount entity key page) :
    Yields (Pull.remoteMatchesShadow yaml mount entity rendered.shadow)
      (AtPage path key nowMs mounts page) (.ok (shadowMatchesRender yaml page.shadow rendered))
      (AtPage path key nowMs mounts page) := by
  unfold Pull.remoteMatchesShadow shadowMatchesRender
  apply Yields.bind (yields_store (yields_loadShadow hat.mounted))
  cases page.shadow with
  | none => exact Yields.of_pure _
  | some shadow => exact Yields.of_pure _

theorem yields_pullDrifted (hat : Located mount entity key page) :
    Yields (Pull.sameVersionShadowDrifted yaml mount entity rendered)
      (AtPage path key nowMs mounts page)
      (.ok (sameRemoteVersion entity rendered &&
        !shadowMatchesRender yaml page.shadow rendered))
      (AtPage path key nowMs mounts page) := by
  unfold Pull.sameVersionShadowDrifted
  cases sameRemoteVersion entity rendered with
  | false => exact Yields.of_pure _
  | true =>
      apply Yields.bind (yields_pullMatches hat)
      exact Yields.of_pure _

theorem decides_pullRefresh (hat : Located mount entity key page)
    (hfile : page.file = some (.text contents)) (useBaseShadow : Bool) :
    PullDecides path key nowMs mounts page
      (do
        let outcome ← Pull.refreshExistingConflict yaml mount entity path outputRoot rendered
          useBaseShadow
        return Pull.driftOutcome mountPoint mount entity outcome)
      (match (localVersionFromConflictMarkers yaml contents).map fun localContents =>
          conflictMarkdown yaml entity outputRoot page.shadow rendered localContents
            useBaseShadow with
        | none =>
            (page.withState (markedConflicted entity.hydration),
              .ok (.conflicted (Pull.pullConflict mountPoint mount entity)))
        | some text =>
            (page.pullMerged entity rendered text (observedAtText nowMs),
              .ok (Pull.driftOutcome mountPoint mount entity
                (if hasUnresolvedConflictMarkers text then .conflicted else .merged)))) := by
  unfold PullDecides Pull.refreshExistingConflict
  rw [bind_assoc]
  apply Yields.bind (yields_pullRead hfile)
  cases localVersionFromConflictMarkers yaml contents with
  | none =>
      rw [bind_assoc, pull_markConflicted]
      apply Yields.bind (yields_saveState hat.found hat.keyed _)
      exact Yields.of_pure _
  | some localContents => exact yields_pullMerge hat localContents useBaseShadow

theorem decides_pullEdited (hat : Located mount entity key page)
    (hfile : page.file = some (.text contents)) :
    PullDecides path key nowMs mounts page
      (Pull.hydrateEditedFile yaml mountPoint mount entity path outputRoot rendered)
      (pullEditedVerdict yaml mountPoint mount outputRoot entity nowMs page contents
        rendered) := by
  have hmarkers : Yields (Pull.fileHasUnresolvedConflictMarkers path)
      (AtPage path key nowMs mounts page) (.ok (hasUnresolvedConflictMarkers contents))
      (AtPage path key nowMs mounts page) :=
    Yields.bind (yields_pullRead hfile) (Yields.of_pure _)
  unfold PullDecides Pull.hydrateEditedFile pullEditedVerdict editedMerge editedMark
  apply Yields.bind hmarkers
  cases hasUnresolvedConflictMarkers contents with
  | true =>
      apply Yields.bind (yields_pullDrifted hat)
      cases sameRemoteVersion entity rendered with
      | false =>
          rw [pull_markConflicted]
          apply Yields.bind (yields_saveState hat.found hat.keyed _)
          exact Yields.of_pure _
      | true =>
          cases shadowMatchesRender yaml page.shadow rendered with
          | false => exact decides_pullRefresh hat hfile true
          | true => exact decides_pullRefresh hat hfile false
  | false =>
      apply Yields.bind (yields_pullMatches hat)
      cases shadowMatchesRender yaml page.shadow rendered with
      | true =>
          rw [withState_pull_markDirty]
          apply Yields.bind (yields_saveState hat.found hat.keyed _)
          exact Yields.of_pure _
      | false =>
          simp only [Bool.not_false, if_true, Pull.materializeConflict, bind_assoc]
          apply Yields.bind (yields_pullRead hfile)
          exact yields_pullMerge hat contents true

theorem decides_pullAccept (hat : Located mount entity key page) :
    PullDecides path key nowMs mounts page
      (do
        Pull.acceptRemoteProjection mount entity path outputRoot rendered
        return .hydrated)
      (page.accepted entity rendered
        (renderDocumentWithAbsoluteMediaHrefs rendered.document entity.path outputRoot)
        (observedAtText nowMs), .ok .hydrated) := by
  unfold PullDecides Pull.acceptRemoteProjection
  simp only [bind_assoc]
  apply Yields.bind
    (yields_connector (yields_replaceHydratedMediaManifest outputRoot rendered.assets))
  apply Yields.bind (yields_writeFile (yields_writeAtomic _))
  apply Yields.bind (yields_store (yields_saveShadowOf hat.mounted rendered.shadow))
  apply Yields.bind
  · exact yields_store (yields_saveEntity hat.found hat.keyed rfl)
  · apply Yields.bind (yields_recordSynced hat.mounted rendered.remoteEditedAt)
    exact Yields.of_pure _

theorem decides_pullRemoteNotFound (hat : Located mount entity key page) (canReplace : Bool) :
    PullDecides path key nowMs mounts page
      (Pull.reconcileRemoteNotFound mount entity path canReplace)
      (if canReplace then (page.apply (.remove (observedAtText nowMs)), .ok .remoteDeleted)
      else (page.apply (.markDeleted (markedDirty entity.hydration) (observedAtText nowMs)),
        .ok .skippedDirty)) := by
  unfold Pull.reconcileRemoteNotFound
  apply Yields.bind (yields_store (yields_recordDeletedRemoteObservation hat))
  cases canReplace with
  | false =>
      rw [withState_pull_markDirty]
      have hsave := @yields_saveState path key nowMs mounts
        (page.observedDeleted (observedAtText nowMs)) entity hat.found hat.keyed
      exact Yields.bind (hsave _) (Yields.of_pure _)
  | true =>
      apply Yields.bind (yields_writeFile yields_removeCleanProjection)
      apply Yields.bind (yields_store (yields_deleteEntity hat.mounted))
      exact Yields.of_pure _

theorem yields_pullCanReplace (hat : Located mount entity key page) {start : Host}
    (hpage : start.durable.page path key = page)
    (hutf8 : ∀ bytes, page.file ≠ some (.invalidUtf8 bytes)) :
    Yields (Pull.canReplaceFile yaml mount entity path) (fun host => host = start)
      (.ok (PageState.replaceable yaml page)) (fun host => host = start) := by
  have hfiles : start.durable.files path = page.file := by
    rw [← hpage]
    rfl
  have hshadow : start.durable.store.shadows (mount.mountId, entity.remoteId) =
      page.shadow := by
    rw [hat.mounted, ← hpage]
    rfl
  unfold Pull.canReplaceFile PageState.replaceable
  apply Yields.bind (yields_store (yields_read_exact start))
  rw [hfiles]
  cases hfile : page.file with
  | none => exact Yields.of_pure _
  | some content =>
      cases content with
      | invalidUtf8 bytes => exact absurd hfile (hutf8 bytes)
      | text contents =>
          have hread := @yields_pullRead_exact path contents start (hfiles.trans hfile)
          have hstub : Yields (Pull.isStubFile path) (fun host => host = start)
              (.ok (containsText contents CanonicalDocument.stubMarker))
              (fun host => host = start) := by
            unfold Pull.isStubFile
            apply Yields.bind (yields_store (yields_read_exact start))
            rw [hfiles, hfile]
            exact Yields.bind hread (Yields.of_pure _)
          apply Yields.bind hstub
          change Yields _ _ (.ok (canReplaceContents yaml page.shadow contents)) _
          unfold canReplaceContents
          cases containsText contents CanonicalDocument.stubMarker with
          | true => exact Yields.of_pure _
          | false =>
              apply Yields.bind hread
              cases parseCanonicalMarkdown yaml contents with
              | error error => exact Yields.of_pure _
              | ok parsed =>
                  apply Yields.bind
                    (yields_store (yields_loadShadow_exact start mount.mountId entity.remoteId))
                  rw [hshadow]
                  cases page.shadow with
                  | none => exact Yields.of_pure _
                  | some shadow => exact Yields.of_pure _

variable {source : HydrationSource}

/-- A render was fetched: its schema and its assets are written, and then the page. -/
theorem decides_pullRendered (hat : Located mount entity key page) {start : Host}
    (hrunning : start.writesLeft = none) (hclock : start.nowMs = nowMs)
    (hpage : start.durable.page path key = page) (hmounts : start.durable.store.mounts = mounts)
    (hutf8 : ∀ bytes, page.file ≠ some (.invalidUtf8 bytes)) {fetched : Fetched}
    (hschema : fetched.schema = schemaAnswer source start.durable.store mount.mountId entity) :
    Yields
      (do
        Pull.connector (writeParentDatabaseSchemaCache source mount entity outputRoot)
        Pull.writeAssets outputRoot rendered.assets
        if PageState.replaceable yaml page then
          Pull.acceptRemoteProjection mount entity path outputRoot rendered
          return .hydrated
        else Pull.hydrateEditedFile yaml mountPoint mount entity path outputRoot rendered)
      (fun host => host = start)
      (pullRenderedVerdict yaml mountPoint mount outputRoot entity nowMs page fetched rendered).2
      (AtPage path key nowMs mounts
        (pullRenderedVerdict yaml mountPoint mount outputRoot entity nowMs page fetched
          rendered).1) := by
  have hstart : start = Host.running start.durable nowMs := by
    cases start
    cases hrunning
    cases hclock
    rfl
  have hcache := @yields_writeParentDatabaseSchemaCache path key nowMs mounts page mount
    outputRoot entity source start.durable hpage hmounts
  rw [← hstart, ← hschema] at hcache
  unfold pullRenderedVerdict
  cases hanswer : fetched.schema with
  | error error =>
      rw [hanswer] at hcache
      exact Yields.bind_error (yields_connector_error hcache)
  | ok answer =>
      rw [hanswer] at hcache
      apply Yields.bind (yields_connector hcache)
      unfold Pull.writeAssets
      cases hassets : checkAssets outputRoot rendered.assets with
      | error error =>
          apply Yields.bind_error
          apply Yields.bind_error
          exact yields_connector_error
            (yields_writeHydratedAssetFiles outputRoot hassets)
      | ok _ =>
          rw [bind_assoc]
          apply Yields.bind
            (yields_connector (yields_writeHydratedAssetFiles outputRoot hassets))
          apply Yields.bind
            (yields_connector (yields_updateHydratedMediaManifest rendered.assets))
          cases hreplaceable : PageState.replaceable yaml page with
          | true =>
              cases page.file with
              | none => exact decides_pullAccept hat
              | some content => cases content <;> exact decides_pullAccept hat
          | false =>
              cases hfile : page.file with
              | none => simp [PageState.replaceable, hfile] at hreplaceable
              | some content =>
                  cases content with
                  | invalidUtf8 bytes => exact absurd hfile (hutf8 bytes)
                  | text contents => exact decides_pullEdited hat hfile

/-- An uninterrupted pull of an entity of a mount does to its page what the verdict says,
and returns what the verdict says. -/
theorem hydrateEntity_page {request : HydrationRequest} {durable : Durable}
    (htarget : request.targetState = .hydrated) (hreason : request.reason = .explicitPull)
    (hmount : durable.store.mounts request.mountId = some mount)
    (hentity : durable.store.entities.get request.key = some entity) :
    ∃ durable', Pull.hydrateEntity yaml source mountPoint mount entity path outputRoot
        (Host.running durable nowMs) =
        ((pullVerdict yaml mountPoint mount outputRoot entity path nowMs
          (durable.page path request.key)
          (fetchedFor source request durable.store mount.mountId entity)).2,
          Host.running durable' nowMs) ∧
      durable'.page path request.key =
        (pullVerdict yaml mountPoint mount outputRoot entity path nowMs
          (durable.page path request.key)
          (fetchedFor source request durable.store mount.mountId entity)).1 := by
  have hentityKey : entity.key = request.key := EntityTable.get_key hentity
  have hmountId : mount.mountId = request.mountId :=
    durable.store.mountsKeyed request.mountId mount hmount
  have hremote : entity.remoteId = request.remoteId := congrArg Prod.snd hentityKey
  have hat : Located mount entity request.key (durable.page path request.key) := by
    refine ⟨hentity, hentityKey, ?_⟩
    rw [hmountId, hremote]
    rfl
  have hfetch : (fetchedFor source request durable.store mount.mountId entity).render =
      source.fetchRender ⟨mount.mountId, entity.remoteId, entity.path, .hydrated, .explicitPull⟩
        durable.store := by
    unfold fetchedFor
    rw [hmountId, hremote, ← htarget, ← hreason]
  generalize hfetched : fetchedFor source request durable.store mount.mountId entity = fetched
  have hschema : fetched.schema = schemaAnswer source durable.store mount.mountId entity := by
    rw [← hfetched]
    rfl
  rw [hfetched] at hfetch
  have hverdict : Yields (Pull.hydrateEntity yaml source mountPoint mount entity path outputRoot)
      (fun host => host = Host.running durable nowMs)
      (pullVerdict yaml mountPoint mount outputRoot entity path nowMs
        (durable.page path request.key) fetched).2
      (AtPage path request.key nowMs durable.store.mounts
        (pullVerdict yaml mountPoint mount outputRoot entity path nowMs
          (durable.page path request.key) fetched).1) := by
    have hrunning : ∀ host, host = Host.running durable nowMs →
        AtPage path request.key nowMs durable.store.mounts (durable.page path request.key)
          host := by
      rintro host rfl
      exact atPage_running rfl rfl
    unfold Pull.hydrateEntity
    by_cases hutf8 : ∃ bytes, durable.files path = some (.invalidUtf8 bytes)
    · obtain ⟨bytes, hfile⟩ := hutf8
      have hpageFile : (durable.page path request.key).file = some (.invalidUtf8 bytes) := hfile
      simp only [pullVerdict, hpageFile]
      have hread : Yields (Pull.readToString path) (fun host => host = Host.running durable nowMs)
          (.error (.readFile path "stream did not contain valid UTF-8".toList))
          (fun host => host = Host.running durable nowMs) := by
        unfold Pull.readToString
        apply Yields.bind (yields_store (yields_read_running durable))
        rw [hfile]
        exact Yields.of_throw _
      have hstub : Yields (Pull.isStubFile path) (fun host => host = Host.running durable nowMs)
          (.error (.readFile path "stream did not contain valid UTF-8".toList))
          (fun host => host = Host.running durable nowMs) := by
        unfold Pull.isStubFile
        apply Yields.bind (yields_store (yields_read_running durable))
        rw [hfile]
        exact Yields.bind_error hread
      apply Yields.bind_error
      unfold Pull.canReplaceFile
      apply Yields.bind ((yields_store (yields_read_running durable)))
      rw [hfile]
      apply Yields.bind_error
      intro host hhost
      obtain ⟨after, hrun, rfl⟩ := hstub host hhost
      exact ⟨_, hrun, hrunning _ rfl⟩
    · have hutf8 : ∀ bytes, (durable.page path request.key).file ≠ some (.invalidUtf8 bytes) :=
        not_exists.mp hutf8
      rw [pullVerdict_of_readable yaml mountPoint mount outputRoot entity hutf8]
      unfold pullReadableVerdict
      have hcan := @yields_pullCanReplace path request.key (durable.page path request.key) yaml
        mount entity hat (Host.running durable nowMs) rfl hutf8
      apply Yields.bind hcan
      apply Yields.bind (yields_store (yields_read_running durable))
      rw [← hfetch]
      cases fetched.render with
      | error error =>
          simp only []
          cases isRemoteNotFound error with
          | true => exact (decides_pullRemoteNotFound hat _).weaken hrunning
          | false => exact (Yields.of_throw _).weaken hrunning
      | ok rendered =>
          exact decides_pullRendered hat rfl rfl rfl rfl hutf8 hschema
  obtain ⟨⟨durable', now, left⟩, hrun, ⟨rfl, rfl, hpage, -⟩⟩ := hverdict _ rfl
  exact ⟨durable', hrun, hpage⟩

end Run

/-! ## The two operations compared -/

/-- A hydration and a pull that leave the same page, and end alike. -/
structure SameOperation (path : PathBuf) (key : EntityKey)
    (daemon : LocalityResult HydrationOutcome × Host)
    (pull : Except PullError PullOutcome × Host) : Prop where
  page : SamePage (daemon.2.durable.page path key) (pull.2.durable.page path key)
  outcome : OutcomesCorrespond daemon.1 pull.1

/-- An explicit pull of an entity and a request with that reason are the same operation
exactly where a merge ends no conflict that was recorded, where assets that cannot be
written are written by both, and where a render of another entity fails both. -/
theorem hydrateEntity_agrees_iff {yaml : YamlSerde} {source : HydrationSource}
    {mountPoint root : PathBuf} {request : HydrationRequest} {durable : Durable} {nowMs : Nat}
    {mount : MountConfig} {entity : EntityRecord}
    (htarget : request.targetState = .hydrated) (hreason : request.reason = .explicitPull)
    (hmount : durable.store.mounts request.mountId = some mount)
    (hentity : durable.store.entities.get request.key = some entity) :
    SameOperation (requestPath mount request.path) request.key
        (hydrateRequest yaml source (some root) request (Host.running durable nowMs))
        (Pull.hydrateEntity yaml source mountPoint mount entity (requestPath mount request.path)
          root (Host.running durable nowMs)) ↔
      PullAgrees yaml root entity
        (durable.page (requestPath mount request.path) request.key)
        (fetchedFor source request durable.store mount.mountId entity) := by
  have hdaemon := @hydrateRequest_page yaml source (some root) request durable nowMs mount
    entity htarget hmount hentity
  have hpull := @hydrateEntity_page (requestPath mount request.path) nowMs yaml mountPoint mount
    root entity source request durable htarget hreason hmount hentity
  rw [hreason, Option.getD_some] at hdaemon
  obtain ⟨daemon, hdaemonRun, hdaemonPage, -⟩ := hdaemon
  obtain ⟨pull, hpullRun, hpullPage⟩ := hpull
  have hstep := @sameStep_iff yaml root entity mountPoint mount (requestPath mount request.path)
    nowMs (durable.page (requestPath mount request.path) request.key)
    (fetchedFor source request durable.store mount.mountId entity) hentity
  rw [hdaemonRun, hpullRun, ← hstep]
  constructor
  · rintro ⟨hpage, houtcome⟩
    refine ⟨?_, houtcome⟩
    rw [← hdaemonPage, ← hpullPage]
    exact hpage
  · rintro ⟨hpage, houtcome⟩
    refine ⟨?_, houtcome⟩
    rw [← hdaemonPage, ← hpullPage] at hpage
    exact hpage

/-! ## A conflict that one of them ends -/

section EndedConflict

/-- The middle paragraph was edited here and remotely. -/
def conflictedPage : EntityRecord :=
  { notesPage .conflicted with remoteEditedAt := some "v1".toList }

def conflictedStart : Durable :=
  .onePage notesMount conflictedPage (some (.text conflictedText))
    (some (notesShadow "a\n\nR\n\nc\n".toList [⟨['a']⟩, ⟨['b']⟩, ⟨['c']⟩]))

def extendedRender : HydratedEntity :=
  notesRender "a\n\nR\n\nc\n\nd\n".toList [⟨['a']⟩, ⟨['b']⟩, ⟨['c']⟩, ⟨['d']⟩]
    (some "v1".toList)

def hydratedConflict : LocalityResult HydrationOutcome × Host :=
  hydrateRequest noYaml (.answering (.ok extendedRender)) (some notesMount.root)
    (notesRequest .explicitPull) (Host.running conflictedStart 0)

def pulledConflict : Except PullError PullOutcome × Host :=
  Pull.hydrateEntity noYaml (.answering (.ok extendedRender)) notesMount.root notesMount
    conflictedPage notesFile notesMount.root (Host.running conflictedStart 0)

/-- The same file without markers stands for an entity that is dirty after a hydration,
and in conflict after a pull. -/
theorem hydrateEntity_keeps_conflicted :
    ¬ SameOperation notesFile notesKey hydratedConflict pulledConflict := by
  have hdaemon : (hydratedConflict.2.durable.page notesFile notesKey).entity.map
      EntityRecord.hydration = some .dirty := by decide +kernel
  have hpull : (pulledConflict.2.durable.page notesFile notesKey).entity.map
      EntityRecord.hydration = some .conflicted := by decide +kernel
  intro h
  rw [h.page.entity, hpull] at hdaemon
  exact absurd hdaemon (by decide)

/-- A newer version of the page leaves both with the conflict. -/
theorem hydrateEntity_agrees_newer :
    SameOperation notesFile notesKey
      (hydrateRequest noYaml (.answering (.ok (notesRender "z\n".toList [⟨['a']⟩]
        (some "v2".toList)))) (some notesMount.root) (notesRequest .explicitPull)
        (Host.running conflictedStart 0))
      (Pull.hydrateEntity noYaml (.answering (.ok (notesRender "z\n".toList [⟨['a']⟩]
        (some "v2".toList)))) notesMount.root notesMount conflictedPage notesFile
        notesMount.root (Host.running conflictedStart 0)) := by
  have hagrees := @hydrateEntity_agrees_iff noYaml
    (.answering (.ok (notesRender "z\n".toList [⟨['a']⟩] (some "v2".toList)))) notesMount.root
    notesMount.root (notesRequest .explicitPull) conflictedStart 0 notesMount conflictedPage rfl
    rfl rfl rfl
  refine hagrees.mpr ?_
  intro rendered hrendered _ _
  cases hrendered
  have hid : (notesRender "z\n".toList [⟨['a']⟩] (some "v2".toList)).shadow.entityId =
      conflictedPage.remoteId := by decide +kernel
  have hassets : checkAssets notesMount.root
      (notesRender "z\n".toList [⟨['a']⟩] (some "v2".toList)).assets = .ok () := rfl
  rw [RenderAgrees, if_pos hid, if_pos hassets]
  rintro ⟨-, text, htext, -⟩
  have hnone : pageMerge noYaml notesMount.root conflictedPage
      (conflictedStart.page notesFile notesKey)
      (notesRender "z\n".toList [⟨['a']⟩] (some "v2".toList)) = none := by decide +kernel
  exact nomatch hnone.symm.trans htext

end EndedConflict

end Locality.Daemon
