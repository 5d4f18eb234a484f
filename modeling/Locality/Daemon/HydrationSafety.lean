/-
  Daemon/HydrationSafety.lean --- what a hydration does to local edits.

  A file that a request leaves different was clean, or holds a merge of its local text
  now, with one exception: a file that is taken for a stub because it holds the stub
  marker somewhere, although its body says more.  `hydrateRequest_keepsEdits_iff` is
  the exact statement.
-/
import Locality.Daemon.HydrationRun
import Locality.Core.ConflictVerdict
import Locality.Core.DiffWellFormed

set_option autoImplicit false

namespace Locality.Daemon

open Locality.Core Locality.Foundation Locality.Foundation.Fallible

/-! ## Edits and merges -/

section Edits

variable (yaml : YamlSerde)

/-- Nothing in the contents is a local edit: the body is the stub marker and nothing
else, or the file says what the stored shadow says. -/
def CleanContents (shadow : Option ShadowDocument) (contents : Text) : Prop :=
  ∃ parsed, parseCanonicalMarkdown yaml contents = .ok parsed ∧
    (parsed.isStub = true ∨
      ∃ stored, shadow = some stored ∧ parsedMatchesShadow yaml parsed stored = true)

/-- A body that was made from a local one: the three-way merge with the base, one hunk
whose local side is the local body, or the local body. -/
inductive MergedBody (baseBody : Option Text) (localBody : Text) : Text → Prop where
  | threeWay {base : Text} (hbase : baseBody = some base) (remoteBody : Text) :
      MergedBody baseBody localBody (renderConflictMarkerBodyWithBase base localBody remoteBody)
  | hunk (h : Hunk) (hlocal : h.localRegion = splitLines localBody) :
      MergedBody baseBody localBody h.lines.flatten
  | localOnly : MergedBody baseBody localBody localBody

/-- A document that was made from a local text: the text itself, or its frontmatter
over a merged body, or, where it has no frontmatter that can be read, the whole text
as the local side of a merged body. -/
inductive MergedDocument (baseBody : Option Text) (localText : Text) : Text → Prop where
  | localOnly : MergedDocument baseBody localText localText
  | parsed {parsed : ParsedCanonicalDocument} {body : Text}
      (hparse : parseCanonicalMarkdown yaml localText = .ok parsed)
      (hbody : MergedBody baseBody parsed.document.body body) :
      MergedDocument baseBody localText
        (renderCanonicalMarkdown ⟨parsed.document.frontmatter, body⟩)
  | unparsed {frontmatter body : Text} {error : CanonicalParseError}
      (hparse : parseCanonicalMarkdown yaml localText = .error error)
      (hbody : MergedBody baseBody localText body) :
      MergedDocument baseBody localText (renderCanonicalMarkdown ⟨frontmatter, body⟩)

/-- The local text of contents: the contents, or the local version of the conflict
that they hold. -/
def LocalTextOf (contents localText : Text) : Prop :=
  localText = contents ∨ localVersionFromConflictMarkers yaml contents = some localText

/-- What lies at the path of some contents is those contents, or a merge that their
local text is part of. -/
def HoldsLocalText (shadow : Option ShadowDocument) (contents : Text)
    (after : Option FileContent) : Prop :=
  after = some (.text contents) ∨
    ∃ localText new, LocalTextOf yaml contents localText ∧ after = some (.text new) ∧
      MergedDocument yaml (shadow.map ShadowDocument.renderedBody) localText new

/-- The local edits in a file outlive what was done to it; a file that is not there
holds none. -/
def KeepsEdits (shadow : Option ShadowDocument) (before after : Option FileContent) : Prop :=
  match before with
  | none => True
  | some (.invalidUtf8 bytes) => after = some (.invalidUtf8 bytes)
  | some (.text contents) =>
      CleanContents yaml shadow contents ∨ HoldsLocalText yaml shadow contents after

/-- The contents are taken for a stub, and are none: they hold the marker beside other
text, and they are not what the shadow says. -/
def TakenForStub (shadow : Option ShadowDocument) (contents : Text) : Prop :=
  containsText contents CanonicalDocument.stubMarker = true ∧
    ¬ CleanContents yaml shadow contents

theorem keepsEdits_of_unchanged (shadow : Option ShadowDocument) {before after : Option FileContent}
    (h : after = before) : KeepsEdits yaml shadow before after := by
  subst h
  cases after with
  | none => exact True.intro
  | some content =>
      cases content with
      | invalidUtf8 bytes => exact rfl
      | text contents => exact .inr (.inl rfl)

theorem mergedBody_renderConflictMarkerBody (baseBody : Option Text)
    (localBody remoteBody : Text) :
    MergedBody baseBody localBody (renderConflictMarkerBody localBody remoteBody) := by
  by_cases hne : localBody = remoteBody
  · rw [renderConflictMarkerBody, renderConflictHunk, if_pos hne]
    exact .localOnly
  · rw [renderConflictMarkerBody, renderConflictHunk_of_ne hne]
    exact .hunk _ (hunkOf_localRegion _ _)

/-- What a merge writes is a merge of the local text. -/
theorem mergedDocument_conflictMarkdown (entity : EntityRecord) (outputRoot : PathBuf)
    (shadow : Option ShadowDocument) (rendered : HydratedEntity) (localText : Text)
    (useBaseShadow : Bool) :
    MergedDocument yaml (shadow.map ShadowDocument.renderedBody) localText
      (conflictMarkdown yaml entity outputRoot shadow rendered localText useBaseShadow) := by
  unfold conflictMarkdown
  split
  · exact .localOnly
  · generalize documentWithAbsoluteMediaHrefs rendered.document entity.path outputRoot = remote
    have hbase : ∀ baseBody, (if useBaseShadow then shadow else none).map
        ShadowDocument.renderedBody = some baseBody →
          shadow.map ShadowDocument.renderedBody = some baseBody := by
      intro baseBody hsome
      cases useBaseShadow with
      | false => cases hsome
      | true => exact hsome
    unfold renderInlineConflictMarkdownWithBase localSideOfContents
    cases hparse : parseCanonicalMarkdown yaml localText with
    | ok parsed =>
        refine .parsed hparse ?_
        split
        · rename_i hsome
          exact .threeWay (hbase _ hsome) _
        · exact mergedBody_renderConflictMarkerBody _ _ _
    | error error =>
        refine .unparsed hparse ?_
        split
        · rename_i hsome
          exact .threeWay (hbase _ hsome) _
        · exact mergedBody_renderConflictMarkerBody _ _ _

/-- Contents that may be replaced and hold no stub marker are clean. -/
theorem cleanContents_of_canReplaceContents {shadow : Option ShadowDocument} {contents : Text}
    (h : canReplaceContents yaml shadow contents = true)
    (hmarker : containsText contents CanonicalDocument.stubMarker = false) :
    CleanContents yaml shadow contents := by
  unfold canReplaceContents at h
  rw [hmarker, Bool.false_or] at h
  split at h
  · rename_i parsed stored hparse
    exact ⟨parsed, hparse, .inr ⟨stored, rfl, h⟩⟩
  · exact absurd h Bool.false_ne_true

end Edits

/-! ## The file after a verdict -/

section Verdict

variable {yaml : YamlSerde} {outputRoot : PathBuf} {entity : EntityRecord}
  {reason : HydrationReason} {nowMs : Nat} {page : PageState} {fetched : Fetched}
  {contents : Text}

/-- What a request puts in the place of a file that may be replaced: the render, or
nothing, where the remote is gone. -/
inductive Displaces (outputRoot : PathBuf) (entity : EntityRecord) (reason : HydrationReason)
    (nowMs : Nat) (page : PageState) (fetched : Fetched) : Option FileContent → Prop where
  | rendered {rendered : HydratedEntity} (hrender : fetched.render = .ok rendered)
      (hid : rendered.shadow.entityId = entity.remoteId) (hschema : fetched.schema = .ok ())
      (hassets : checkAssets outputRoot rendered.assets = .ok ())
      (hlive : liveModeKeeps entity reason nowMs page rendered = false) :
      Displaces outputRoot entity reason nowMs page fetched
        (some (.text
          (renderDocumentWithAbsoluteMediaHrefs rendered.document entity.path outputRoot)))
  | removed {error : LocalityError} (hrender : fetched.render = .error error)
      (hgone : isRemoteNotFound error = true) :
      Displaces outputRoot entity reason nowMs page fetched none

theorem Displaces.unique {after other : Option FileContent}
    (h : Displaces outputRoot entity reason nowMs page fetched after)
    (hother : Displaces outputRoot entity reason nowMs page fetched other) : after = other := by
  cases h with
  | rendered hrender =>
      cases hother with
      | rendered hrender' =>
          cases hrender.symm.trans hrender'
          rfl
      | removed hrender' => exact nomatch hrender.symm.trans hrender'
  | removed hrender =>
      cases hother with
      | rendered hrender' => exact nomatch hrender.symm.trans hrender'
      | removed => rfl

theorem hydrationVerdict_of_text {path : PathBuf} (hfile : page.file = some (.text contents)) :
    hydrationVerdict yaml outputRoot entity path reason nowMs page fetched =
      readableVerdict yaml outputRoot entity reason nowMs page fetched :=
  hydrationVerdict_of_readable yaml outputRoot entity fun bytes h => by
    rw [hfile] at h
    exact nomatch h

/-- A file that may be replaced is displaced, or it is as it was. -/
theorem file_of_replaceable {path : PathBuf} (hfile : page.file = some (.text contents))
    (hreplace : PageState.replaceable yaml page = true) :
    (∃ after, Displaces outputRoot entity reason nowMs page fetched after ∧
      (page.apply (hydrationVerdict yaml outputRoot entity path reason nowMs page
        fetched).1).file = after) ∨
    ((∀ after, ¬ Displaces outputRoot entity reason nowMs page fetched after) ∧
      (page.apply (hydrationVerdict yaml outputRoot entity path reason nowMs page
        fetched).1).file = page.file) := by
  rw [hydrationVerdict_of_text hfile, readableVerdict, hreplace]
  simp only [Bool.not_true, Bool.false_and, Bool.false_eq_true, if_false, if_true]
  cases hrender : fetched.render with
  | error error =>
      simp only []
      cases hgone : isRemoteNotFound error with
      | true => exact .inl ⟨none, .removed hrender hgone, rfl⟩
      | false =>
          refine .inr ⟨?_, rfl⟩
          rintro _ (⟨hother, -⟩ | ⟨hother, hgone'⟩)
          · exact nomatch hrender.symm.trans hother
          · cases hrender.symm.trans hother
            exact absurd hgone' (by rw [hgone]; exact Bool.false_ne_true)
  | ok rendered =>
      -- every way to leave the file alone fails one of the conditions of a displacement
      have hnot : (¬ (rendered.shadow.entityId = entity.remoteId ∧ fetched.schema = .ok () ∧
          checkAssets outputRoot rendered.assets = .ok () ∧
          liveModeKeeps entity reason nowMs page rendered = false)) →
          ∀ after, ¬ Displaces outputRoot entity reason nowMs page fetched after := by
        rintro hall _ (⟨hother, hid, hschema, hassets, hlive⟩ | ⟨hother, -⟩)
        · cases hrender.symm.trans hother
          exact hall ⟨hid, hschema, hassets, hlive⟩
        · exact nomatch hrender.symm.trans hother
      simp only [renderedVerdict]
      by_cases hid : rendered.shadow.entityId = entity.remoteId
      · rw [if_neg (not_not.mpr hid)]
        cases hschema : fetched.schema with
        | error error =>
            exact .inr ⟨hnot (fun h => nomatch hschema.symm.trans h.2.1), rfl⟩
        | ok answer =>
            rw [hfile, hreplace]
            cases hlive : liveModeKeeps entity reason nowMs page rendered with
            | true =>
                exact .inr ⟨hnot (fun h => nomatch hlive.symm.trans h.2.2.2), hfile⟩
            | false =>
                simp only [Bool.false_eq_true, if_false, replaceVerdict]
                cases hassets : checkAssets outputRoot rendered.assets with
                | error error =>
                    exact .inr ⟨hnot (fun h => nomatch hassets.symm.trans h.2.2.1), hfile⟩
                | ok _ => exact .inl ⟨_, .rendered hrender hid hschema hassets hlive, rfl⟩
      · rw [if_pos hid]
        exact .inr ⟨hnot (fun h => hid h.1), rfl⟩

theorem file_of_mergeVerdict {rendered : HydratedEntity} {localText : Text}
    (useBaseShadow : Bool) (hlocal : LocalTextOf yaml contents localText)
    (hfile : page.file = some (.text contents)) :
    HoldsLocalText yaml page.shadow contents
      (page.apply (mergeVerdict yaml outputRoot entity page.shadow rendered localText
        useBaseShadow).1).file := by
  unfold mergeVerdict
  cases checkAssets outputRoot rendered.assets with
  | error error => exact .inl hfile
  | ok _ =>
      refine .inr ⟨localText, _, hlocal, ?_,
        mergedDocument_conflictMarkdown yaml entity outputRoot page.shadow rendered localText
          useBaseShadow⟩
      simp only [PageState.apply]
      split
      · rfl
      · rfl

/-- A file that may not be replaced keeps its local text. -/
theorem file_of_not_replaceable {path : PathBuf} (hfile : page.file = some (.text contents))
    (hreplace : PageState.replaceable yaml page = false) :
    HoldsLocalText yaml page.shadow contents
      (page.apply (hydrationVerdict yaml outputRoot entity path reason nowMs page
        fetched).1).file := by
  have hkeep : HoldsLocalText yaml page.shadow contents page.file := .inl hfile
  rw [hydrationVerdict_of_text hfile, readableVerdict, hreplace]
  simp only [Bool.not_false, Bool.true_and, Bool.false_eq_true, if_false]
  split
  · exact hkeep
  · cases fetched.render with
    | error error =>
        simp only []
        split
        · exact hkeep
        · exact hkeep
    | ok rendered =>
        simp only [renderedVerdict]
        split
        · exact hkeep
        · cases fetched.schema with
          | error error => exact hkeep
          | ok _ =>
              rw [hfile, hreplace]
              simp only [editedVerdict]
              split
              · split
                · split
                  · exact hkeep
                  · rename_i localText hlocal
                    exact file_of_mergeVerdict _ (.inr hlocal) hfile
                · exact hkeep
              · split
                · exact hkeep
                · exact file_of_mergeVerdict _ (.inl rfl) hfile

/-- What becomes of a file that is a text, by whether it may be replaced. -/
theorem keepsEdits_verdict_iff {path : PathBuf} (hfile : page.file = some (.text contents)) :
    KeepsEdits yaml page.shadow page.file
        (page.apply (hydrationVerdict yaml outputRoot entity path reason nowMs page
          fetched).1).file ↔
      (TakenForStub yaml page.shadow contents →
        ∀ after, Displaces outputRoot entity reason nowMs page fetched after →
          HoldsLocalText yaml page.shadow contents after) := by
  have hkeeps : ∀ after, KeepsEdits yaml page.shadow page.file after ↔
      CleanContents yaml page.shadow contents ∨
        HoldsLocalText yaml page.shadow contents after := fun after => by
    rw [hfile]
    exact Iff.rfl
  rw [hkeeps]
  cases hreplace : PageState.replaceable yaml page with
  | false =>
      -- what holds the marker may be replaced
      have hmarker : ¬ TakenForStub yaml page.shadow contents := by
        intro htaken
        simp [PageState.replaceable, hfile, canReplaceContents, htaken.1] at hreplace
      exact iff_of_true (.inr (file_of_not_replaceable hfile hreplace))
        fun htaken => absurd htaken hmarker
  | true =>
      have hcan : canReplaceContents yaml page.shadow contents = true := by
        simpa only [PageState.replaceable, hfile] using hreplace
      have hclean : ¬ TakenForStub yaml page.shadow contents →
          CleanContents yaml page.shadow contents := by
        intro htaken
        cases hmarker : containsText contents CanonicalDocument.stubMarker with
        | true => exact not_not.mp fun hdirty => htaken ⟨hmarker, hdirty⟩
        | false => exact cleanContents_of_canReplaceContents yaml hcan hmarker
      obtain ⟨displaced, hdisplaces, hafter⟩ | ⟨hkept, hafter⟩ :=
        @file_of_replaceable yaml outputRoot entity reason nowMs _ fetched _ path hfile hreplace
      · rw [hafter]
        constructor
        · rintro (hc | hholds) htaken after hother
          · exact absurd hc htaken.2
          · rw [hother.unique hdisplaces]
            exact hholds
        · intro h
          by_cases htaken : TakenForStub yaml page.shadow contents
          · exact .inr (h htaken displaced hdisplaces)
          · exact .inl (hclean htaken)
      · rw [hafter]
        exact iff_of_true (.inr (.inl hfile)) fun _ after hother => absurd hother (hkept after)

end Verdict

/-! ## A request -/

section Request

variable (yaml : YamlSerde) (source : HydrationSource) (root : Option PathBuf)
  (request : HydrationRequest) (durable : Durable) (nowMs : Nat)

/-- What a request puts in the place of a file that may be replaced. -/
def PutsInPlace (after : Option FileContent) : Prop :=
  request.targetState = .hydrated ∧
    ∃ mount entity, durable.store.mounts request.mountId = some mount ∧
      durable.store.entities.get request.key = some entity ∧
      Displaces (root.getD mount.root) entity request.reason nowMs
        (durable.page (requestPath mount request.path) request.key)
        (fetchedFor source request durable.store mount.mountId entity) after

/-- A request that is refused leaves the host alone. -/
theorem hydrateRequest_refused
    (h : request.targetState ≠ .hydrated ∨ durable.store.mounts request.mountId = none ∨
      durable.store.entities.get request.key = none) :
    ∃ error, hydrateRequest yaml source root request (Host.running durable nowMs) =
      (.error error, Host.running durable nowMs) := by
  unfold hydrateRequest
  by_cases htarget : request.targetState = .hydrated
  · rw [if_neg (not_not.mpr htarget)]
    cases hmount : durable.store.mounts request.mountId with
    | none =>
        refine ⟨(StoreError.mountMissing request.mountId).toLocalityError, ?_⟩
        simp only [requireMount, run_bind, run_read, hmount, run_throw]
    | some mount =>
        have hentity : durable.store.entities.get request.key = none := by
          obtain hother | hother | hother := h
          · exact absurd htarget hother
          · exact nomatch hmount.symm.trans hother
          · exact hother
        rw [HydrationRequest.key] at hentity
        refine ⟨(StoreError.entityMissing request.mountId request.remoteId).toLocalityError, ?_⟩
        simp only [requireMount, requireEntity, run_bind, run_read, hmount, hentity, run_pure,
          run_throw]
  · rw [if_pos htarget]
    exact ⟨_, rfl⟩

/-- The local edits of the file that a request is for outlive the request, except in
a file that is taken for a stub and has something else put in its place. -/
theorem hydrateRequest_keepsEdits_iff :
    KeepsEdits yaml (durable.store.shadows request.key)
        (durable.files (requestFile durable request))
        ((hydrateRequest yaml source root request
          (Host.running durable nowMs)).2.durable.files (requestFile durable request)) ↔
      ∀ contents, durable.files (requestFile durable request) = some (.text contents) →
        TakenForStub yaml (durable.store.shadows request.key) contents →
        ∀ after, PutsInPlace source root request durable nowMs after →
          HoldsLocalText yaml (durable.store.shadows request.key) contents after := by
  by_cases hrefused : request.targetState ≠ .hydrated ∨
      durable.store.mounts request.mountId = none ∨
      durable.store.entities.get request.key = none
  · obtain ⟨error, hrun⟩ :=
      hydrateRequest_refused yaml source root request durable nowMs hrefused
    rw [hrun]
    refine iff_of_true (keepsEdits_of_unchanged yaml _ rfl) ?_
    rintro contents - - after ⟨htarget, mount, entity, hmount, hentity, -⟩
    obtain hother | hother | hother := hrefused
    · exact absurd htarget hother
    · exact nomatch hmount.symm.trans hother
    · exact nomatch hentity.symm.trans hother
  · simp only [not_or, not_not] at hrefused
    obtain ⟨htarget, hmount, hentity⟩ := hrefused
    obtain ⟨mount, hmount⟩ := Option.ne_none_iff_exists'.mp hmount
    obtain ⟨entity, hentity⟩ := Option.ne_none_iff_exists'.mp hentity
    have hpath : requestFile durable request = requestPath mount request.path := by
      rw [requestFile, hmount]
    obtain ⟨durable', hrun, hpage, -⟩ := @hydrateRequest_page yaml source root _ _ nowMs
      _ _ htarget hmount hentity
    have hputs : ∀ after, PutsInPlace source root request durable nowMs after ↔
        Displaces (root.getD mount.root) entity request.reason nowMs
          (durable.page (requestPath mount request.path) request.key)
          (fetchedFor source request durable.store mount.mountId entity) after := by
      refine fun after => ⟨?_, fun h => ⟨htarget, mount, entity, hmount, hentity, h⟩⟩
      rintro ⟨-, mount', entity', hmount', hentity', h⟩
      cases hmount.symm.trans hmount'
      cases hentity.symm.trans hentity'
      exact h
    have hafter := congrArg PageState.file hpage
    rw [hrun, hpath]
    change durable'.files (requestPath mount request.path) = _ at hafter
    change KeepsEdits yaml _ _ (durable'.files (requestPath mount request.path)) ↔ _
    rw [hafter]
    cases hfile : durable.files (requestPath mount request.path) with
    | none => exact iff_of_true True.intro fun contents h => nomatch h
    | some content =>
        cases content with
        | invalidUtf8 bytes =>
            refine iff_of_true ?_ fun contents h => nomatch h
            have hpageFile : (durable.page (requestPath mount request.path) request.key).file =
                some (.invalidUtf8 bytes) := hfile
            simp only [KeepsEdits, hydrationVerdict, hpageFile, PageState.apply]
        | text contents =>
            have hverdict := @keepsEdits_verdict_iff yaml (root.getD mount.root) entity request.reason
              nowMs (durable.page (requestPath mount request.path) request.key)
              (fetchedFor source request durable.store mount.mountId entity) _
              (requestPath mount request.path) hfile
            rw [show (durable.page (requestPath mount request.path) request.key).file =
              some (.text contents) from hfile] at hverdict
            rw [show durable.store.shadows request.key =
              (durable.page (requestPath mount request.path) request.key).shadow from rfl,
              hverdict]
            constructor
            · intro h _ heq htaken after hafter
              cases heq
              exact h htaken after ((hputs after).mp hafter)
            · intro h htaken after hafter
              exact h contents rfl htaken after ((hputs after).mpr hafter)

end Request

/-! ## A page that is taken for a stub -/

section TakenForStub

def notesMount : MountConfig where
  mountId := ⟨"notes".toList⟩
  connector := "notion".toList
  root := ⟨true, ["notes".toList]⟩
  remoteRootId := none
  projection := .plainFiles

def notesPage (hydration : HydrationState) : EntityRecord where
  mountId := ⟨"notes".toList⟩
  remoteId := ⟨"p".toList⟩
  kind := .page
  title := "Plan".toList
  path := .relative ["plan.md".toList]
  hydration := hydration
  contentHash := none
  remoteEditedAt := none

def notesRequest (reason : HydrationReason) : HydrationRequest where
  mountId := ⟨"notes".toList⟩
  remoteId := ⟨"p".toList⟩
  path := .relative ["plan.md".toList]
  targetState := .hydrated
  reason := reason

def notesShadow (body : Text) (nativeBlockIds : List RemoteId) : ShadowDocument :=
  match ShadowDocument.fromSyncedBody ⟨"p".toList⟩ body 3 nativeBlockIds with
  | .ok shadow => shadow
  | .error _ => ⟨⟨"p".toList⟩, [], [], [], []⟩

def notesRender (body : Text) (nativeBlockIds : List RemoteId) (remoteEditedAt : Option Text) :
    HydratedEntity where
  document := ⟨[], body⟩
  shadow := notesShadow body nativeBlockIds
  remoteEditedAt := remoteEditedAt
  assets := []

/-- A stub, below whose marker a line was written. -/
def stubWithNotes : Text :=
  "---\n---\n".toList ++ CanonicalDocument.stubMarker ++ "\nmine\n".toList

def stubWithNotesDurable : Durable :=
  .onePage notesMount (notesPage .stub) (some (.text stubWithNotes)) none

/-- The line below the marker is gone after the page was opened. -/
theorem hydrateRequest_loses_notes :
    ¬ KeepsEdits noYaml
      (stubWithNotesDurable.store.shadows (notesRequest .fileOpen).key)
      (stubWithNotesDurable.files
        (requestFile stubWithNotesDurable (notesRequest .fileOpen)))
      ((hydrateRequest noYaml (.answering (.ok (notesRender "theirs\n".toList [⟨['a']⟩] none))) none
        (notesRequest .fileOpen) (Host.running stubWithNotesDurable 0)).2.durable.files
          (requestFile stubWithNotesDurable (notesRequest .fileOpen))) := by
  have hbefore : stubWithNotesDurable.files
      (requestFile stubWithNotesDurable (notesRequest .fileOpen)) =
        some (.text stubWithNotes) := by decide +kernel
  have hafter : (hydrateRequest noYaml (.answering (.ok (notesRender "theirs\n".toList [⟨['a']⟩] none)))
      none (notesRequest .fileOpen) (Host.running stubWithNotesDurable 0)).2.durable.files
        (requestFile stubWithNotesDurable (notesRequest .fileOpen)) =
          some (.text "---\n---\ntheirs\n".toList) := by decide +kernel
  have hshadow : stubWithNotesDurable.store.shadows (notesRequest .fileOpen).key = none := by
    decide +kernel
  have hlocal : localVersionFromConflictMarkers noYaml stubWithNotes = none := by decide +kernel
  have hread : (parseCanonicalMarkdown noYaml stubWithNotes).toOption.map
      ParsedCanonicalDocument.document =
        some ⟨[], CanonicalDocument.stubMarker ++ "\nmine\n".toList⟩ := by decide +kernel
  have hdocument : ∀ parsed, parseCanonicalMarkdown noYaml stubWithNotes = .ok parsed →
      parsed.document = ⟨[], CanonicalDocument.stubMarker ++ "\nmine\n".toList⟩ := by
    intro parsed hparse
    rw [hparse] at hread
    exact Option.some.inj hread
  rw [hbefore, hafter, hshadow]
  rintro (⟨parsed, hparse, hstub | ⟨stored, hstored, -⟩⟩ |
    hholds | ⟨localText, new, htext, hnew, hmerged⟩)
  · rw [ParsedCanonicalDocument.isStub, hdocument parsed hparse] at hstub
    exact absurd hstub (by decide +kernel)
  · exact nomatch hstored
  · exact absurd hholds (by decide +kernel)
  · have htext : localText = stubWithNotes := by
      obtain htext | htext := htext
      · exact htext
      · exact nomatch hlocal.symm.trans htext
    subst htext
    have hnew : new = "---\n---\ntheirs\n".toList := (FileContent.text.inj (Option.some.inj hnew)).symm
    subst hnew
    generalize hcut : "---\n---\ntheirs\n".toList = after at hmerged
    cases hmerged with
    | localOnly => exact absurd hcut (by decide +kernel)
    | unparsed hparse => rw [hparse] at hread; exact nomatch hread
    | parsed hparse hbody =>
        rw [hdocument _ hparse] at hbody hcut
        cases hbody with
        | threeWay hbase => exact nomatch hbase
        | localOnly => exact absurd hcut (by decide +kernel)
        | hunk h =>
            -- a hunk holds markers, the new file none
            have hmarkers := containsAllMarkers_of_isInfix
              (t := "---\n---\ntheirs\n".toList) ?_ h.containsAllMarkers_lines
            · exact absurd hmarkers (by decide +kernel)
            · rw [hcut]
              exact List.suffix_append _ _ |>.isInfix

end TakenForStub

end Locality.Daemon
