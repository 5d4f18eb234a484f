/-
  Daemon/HydrationMerge.lean --- which remote changes a clean merge takes over.

  The body of an edited file is merged line by line, and a line that the user left
  alone comes out as the render has it.  The frontmatter is not merged: the whole of it
  is the local one, under a shadow that is the render's.  So a title or a property that
  changed remotely, and that the user did not touch, reads as a local edit from then on
  (`hydrateRequest_merge_iff`).
-/
import Locality.Daemon.HydrationConflict

set_option autoImplicit false

namespace Locality.Daemon

open Locality.Core Locality.Foundation Locality.Foundation.Fallible

/-! ## What a merge should keep -/

section Keeps

variable (yaml : YamlSerde)

/-- Two values of one property; a property that is not there has none. -/
def SameValue : Option YamlValue → Option YamlValue → Prop
  | none, none => True
  | some left, some right => yaml.valueEq left right = true
  | _, _ => False

/-- What the first frontmatter has as the second has it, the third has as the fourth. -/
structure FollowsWhereUntouched (local_ stored written remote : Frontmatter) : Prop where
  title : local_.title = stored.title → written.title = remote.title
  property : ∀ key, SameValue yaml (mapGet key local_.properties) (mapGet key stored.properties) →
    SameValue yaml (mapGet key written.properties) (mapGet key remote.properties)

/-- Against the render, the written file shows only changes that the local file has
against the shadow it was edited under. -/
structure OnlyLocalChanges (outputRoot pagePath : PathBuf) (shadow : ShadowDocument)
    (local_ : ParsedCanonicalDocument) (rendered : HydratedEntity)
    (written : ParsedCanonicalDocument) : Prop where
  frontmatter : ∀ stored remote, parseShadow yaml shadow = some stored →
    parseShadow yaml rendered.shadow = some remote →
    FollowsWhereUntouched yaml local_.frontmatter stored.frontmatter written.frontmatter
      remote.frontmatter
  lines : MergeDecomposition
    (mergeParts shadow.renderedBody local_.document.body
      (absolutizeMediaHrefs rendered.document.body pagePath outputRoot))
    shadow.renderedBody local_.document.body
    (absolutizeMediaHrefs rendered.document.body pagePath outputRoot) written.document.body
  sound : ∀ part ∈ mergeParts shadow.renderedBody local_.document.body
    (absolutizeMediaHrefs rendered.document.body pagePath outputRoot), part.Sound

/-- No title and no property that the local file has as it was has changed remotely. -/
def FrontmatterStands (shadow : ShadowDocument) (local_ : ParsedCanonicalDocument)
    (rendered : HydratedEntity) : Prop :=
  ∀ stored remote, parseShadow yaml shadow = some stored →
    parseShadow yaml rendered.shadow = some remote →
    FollowsWhereUntouched yaml local_.frontmatter stored.frontmatter local_.frontmatter
      remote.frontmatter

end Keeps

/-! ## The merge of an edited file -/

/-- A request that merges an edited file without markers with the render of the
connector. -/
structure MergesEditedFile (yaml : YamlSerde) (outputRoot : PathBuf) (entity : EntityRecord)
    (reason : HydrationReason) (page : PageState) (fetched : Fetched) (contents : Text)
    (rendered : HydratedEntity) : Prop where
  file : page.file = some (.text contents)
  unmarked : hasUnresolvedConflictMarkers contents = false
  edited : PageState.replaceable yaml page = false
  reason : reason.isRemoteFastForward = false
  render : fetched.render = .ok rendered
  entityId : rendered.shadow.entityId = entity.remoteId
  schema : fetched.schema = .ok ()
  drifted : shadowMatchesRender yaml page.shadow rendered = false
  assets : checkAssets outputRoot rendered.assets = .ok ()

section Merge

variable {yaml : YamlSerde} {outputRoot : PathBuf} {entity : EntityRecord}
  {reason : HydrationReason} {nowMs : Nat} {page : PageState} {fetched : Fetched}
  {contents : Text} {rendered : HydratedEntity}

theorem hydrationVerdict_merge {path : PathBuf}
    (h : MergesEditedFile yaml outputRoot entity reason page fetched contents rendered) :
    hydrationVerdict yaml outputRoot entity path reason nowMs page fetched =
      (.merge rendered (conflictMarkdown yaml entity outputRoot page.shadow rendered contents
        true), .ok .skippedDirty) := by
  rw [hydrationVerdict_of_text h.file, readableVerdict, h.edited, h.reason, h.render]
  simp only [Bool.not_false, Bool.and_false, Bool.false_eq_true, if_false, renderedVerdict,
    h.entityId, ne_eq, not_true_eq_false, h.schema, h.file, h.edited, editedVerdict, h.unmarked,
    h.drifted, mergeVerdict, h.assets]

/-- What is written: the merged body under the local frontmatter. -/
theorem conflictMarkdown_of_parsed {shadow : ShadowDocument} {local_ : ParsedCanonicalDocument}
    (hparse : parseCanonicalMarkdown yaml contents = .ok local_) :
    conflictMarkdown yaml entity outputRoot (some shadow) rendered contents true =
      renderCanonicalMarkdown ⟨local_.document.frontmatter,
        renderConflictMarkerBodyWithBase shadow.renderedBody local_.document.body
          (absolutizeMediaHrefs rendered.document.body entity.path outputRoot)⟩ := by
  simp only [conflictMarkdown, Bool.not_true, Bool.false_and, Bool.false_eq_true, if_false,
    if_true, renderInlineConflictMarkdownWithBase, localSideOfContents, hparse, Option.map_some]
  rfl

/-- The written file shows only local changes exactly where the bodies do not conflict
and no remote change of the frontmatter is lost. -/
theorem onlyLocalChanges_iff {shadow : ShadowDocument} {local_ written : ParsedCanonicalDocument}
    {pagePath : PathBuf} (hfrontmatter : written.frontmatter = local_.frontmatter)
    (hbody : written.document.body =
      renderConflictMarkerBodyWithBase shadow.renderedBody local_.document.body
        (absolutizeMediaHrefs rendered.document.body pagePath outputRoot)) :
    OnlyLocalChanges yaml outputRoot pagePath shadow local_ rendered written ↔
      ¬ BodiesConflict shadow.renderedBody local_.document.body
          (absolutizeMediaHrefs rendered.document.body pagePath outputRoot) ∧
        FrontmatterStands yaml shadow local_ rendered := by
  rw [← sound_mergeParts_iff]
  constructor
  · intro h
    refine ⟨h.sound, fun stored remote hstored hremote => ?_⟩
    have hfollows := h.frontmatter stored remote hstored hremote
    rwa [hfrontmatter] at hfollows
  · rintro ⟨hsound, hstands⟩
    refine ⟨fun stored remote hstored hremote => ?_, ?_, hsound⟩
    · rw [hfrontmatter]
      exact hstands stored remote hstored hremote
    · rw [hbody]
      exact decomposition_mergeParts _ _ _

end Merge

/-- A request that merges an edited file leaves the merged file and the shadow of the
render, and the file shows only local changes exactly where the bodies do not conflict
and the render has every title and property that the user left alone as it was.  A file
without markers is no conflict of bodies, unless the render opens one. -/
theorem hydrateRequest_merge_iff {yaml : YamlSerde} {source : HydrationSource}
    {root : Option PathBuf} {request : HydrationRequest} {durable : Durable} {nowMs : Nat}
    {mount : MountConfig} {entity : EntityRecord} {shadow : ShadowDocument} {contents : Text}
    {local_ : ParsedCanonicalDocument} {rendered : HydratedEntity}
    (htarget : request.targetState = .hydrated)
    (hmount : durable.store.mounts request.mountId = some mount)
    (hentity : durable.store.entities.get request.key = some entity)
    (hshadow : durable.store.shadows request.key = some shadow)
    (hparse : parseCanonicalMarkdown yaml contents = .ok local_)
    (hmerges : MergesEditedFile yaml (root.getD mount.root) entity request.reason
      (durable.page (requestPath mount request.path) request.key)
      (fetchedFor source request durable.store mount.mountId entity) contents rendered) :
    ∃ text written,
      (hydrateRequest yaml source root request
        (Host.running durable nowMs)).2.durable.files (requestPath mount request.path) =
          some (.text text) ∧
      (hydrateRequest yaml source root request
        (Host.running durable nowMs)).2.durable.store.shadows request.key =
          some rendered.shadow ∧
      parseCanonicalMarkdown yaml text = .ok written ∧
      (OnlyLocalChanges yaml (root.getD mount.root) entity.path shadow local_ rendered written ↔
        ¬ BodiesConflict shadow.renderedBody local_.document.body
            (absolutizeMediaHrefs rendered.document.body entity.path (root.getD mount.root)) ∧
          FrontmatterStands yaml shadow local_ rendered) ∧
      (hasUnresolvedConflictMarkers text = false →
        OpensNoConflict
          (absolutizeMediaHrefs rendered.document.body entity.path (root.getD mount.root)) →
        ¬ BodiesConflict shadow.renderedBody local_.document.body
          (absolutizeMediaHrefs rendered.document.body entity.path (root.getD mount.root))) := by
  obtain ⟨durable', hrun, hpage, -⟩ := @hydrateRequest_page yaml source root request durable
    nowMs mount entity htarget hmount hentity
  have hstored : (durable.page (requestPath mount request.path) request.key).shadow =
      some shadow := hshadow
  rw [hydrationVerdict_merge hmerges, hstored, conflictMarkdown_of_parsed hparse] at hpage
  refine ⟨_, _, ?_, ?_, parseCanonicalMarkdown_render hparse _, onlyLocalChanges_iff rfl rfl, ?_⟩
  · rw [hrun]
    have hfile := congrArg PageState.file hpage
    refine hfile.trans ?_
    simp only [PageState.apply]
    split
    · rfl
    · rfl
  · rw [hrun]
    have hafter := congrArg PageState.shadow hpage
    refine hafter.trans ?_
    simp only [PageState.apply]
    split
    · rfl
    · rfl
  · intro hclean hopens hconflict
    have hfound := hasUnresolvedConflictMarkers_of_bodiesConflict
      (allTerminated_envelope local_.document.frontmatter) hopens hconflict
    rw [flatten_splitLines, ← renderCanonicalMarkdown_eq] at hfound
    exact Bool.false_ne_true (hclean.symm.trans hfound)

/-! ## A title that changed remotely -/

section Title

/-- A reader of frontmatters that are one line with a title. -/
def titleYaml : YamlSerde where
  fromStr := fun frontmatter => .ok ⟨none, stripPrefix (trim frontmatter) "title: ".toList, []⟩
  valueEq := fun _ _ => false

/-- A line was added below the text of a page called Plan. -/
def titledContents : Text := "---\ntitle: Plan\n---\na\n\nmine\n".toList

def titledNotes : Durable :=
  .onePage notesMount (notesPage .dirty) (some (.text titledContents))
    (some ((notesShadow "a\n".toList [⟨['a']⟩]).withFrontmatter "title: Plan\n".toList))

/-- The page is called Roadmap now. -/
def renamedRender : HydratedEntity where
  document := ⟨"title: Roadmap\n".toList, "a\n".toList⟩
  shadow := (notesShadow "a\n".toList [⟨['a']⟩]).withFrontmatter "title: Roadmap\n".toList
  remoteEditedAt := some "v2".toList
  assets := []

def titledRequest : HydrationRequest := notesRequest .fileOpen

def renamedNotes : Durable :=
  (hydrateRequest titleYaml (.answering (.ok renamedRender)) none titledRequest
    (Host.running titledNotes 0)).2.durable

theorem titledNotes_merges :
    MergesEditedFile titleYaml notesMount.root (notesPage .dirty) titledRequest.reason
      (titledNotes.page (requestPath notesMount titledRequest.path) titledRequest.key)
      (fetchedFor (.answering (.ok renamedRender)) titledRequest titledNotes.store
        notesMount.mountId (notesPage .dirty)) titledContents renamedRender where
  file := by decide +kernel
  unmarked := by decide +kernel
  edited := by decide +kernel
  reason := by decide +kernel
  render := rfl
  entityId := by decide +kernel
  schema := rfl
  drifted := by decide +kernel
  assets := by decide +kernel

theorem titledContents_read :
    (parseCanonicalMarkdown titleYaml titledContents).toOption.map
      (fun parsed => parsed.frontmatter.title) = some (some "Plan".toList) := by decide +kernel

/-- The merge writes the old title under the new shadow. -/
theorem hydrateRequest_reverts_title :
    ∃ text written shadow, (renamedNotes.page notesFile titledRequest.key).file =
        some (.text text) ∧
      hasUnresolvedConflictMarkers text = false ∧
      parseCanonicalMarkdown titleYaml text = .ok written ∧
      (titledNotes.page notesFile titledRequest.key).shadow = some shadow ∧
      ∀ local_, parseCanonicalMarkdown titleYaml titledContents = .ok local_ →
        ¬ OnlyLocalChanges titleYaml notesMount.root (notesPage .dirty).path shadow local_
          renamedRender written := by
  have hfile : (renamedNotes.page notesFile titledRequest.key).file =
      some (.text titledContents) := by decide +kernel
  have hshadow : (titledNotes.page notesFile titledRequest.key).shadow =
      some ((notesShadow "a\n".toList [⟨['a']⟩]).withFrontmatter "title: Plan\n".toList) := rfl
  have hstored : (parseShadow titleYaml
      ((notesShadow "a\n".toList [⟨['a']⟩]).withFrontmatter "title: Plan\n".toList)).map
        (fun parsed => parsed.frontmatter.title) = some (some "Plan".toList) := by decide +kernel
  have hremote : (parseShadow titleYaml renamedRender.shadow).map
      (fun parsed => parsed.frontmatter.title) = some (some "Roadmap".toList) := by decide +kernel
  have hlocal := titledContents_read
  cases hparse : parseCanonicalMarkdown titleYaml titledContents with
  | error error => rw [hparse] at hlocal; exact nomatch hlocal
  | ok local_ =>
      rw [hparse] at hlocal
      obtain ⟨stored, hstored, hstoredTitle⟩ := Option.map_eq_some_iff.mp hstored
      obtain ⟨remote, hremote, hremoteTitle⟩ := Option.map_eq_some_iff.mp hremote
      have hlocalTitle : local_.frontmatter.title = some "Plan".toList := Option.some.inj hlocal
      refine ⟨titledContents, local_, _, hfile, by decide +kernel, hparse, hshadow, ?_⟩
      intro other hother honly
      cases hother
      have htitle := (honly.frontmatter stored remote hstored hremote).title
        (hlocalTitle.trans hstoredTitle.symm)
      rw [hlocalTitle, hremoteTitle] at htitle
      exact absurd htitle (by decide)

theorem hydrateRequest_merge_titled :
    ∃ local_, parseCanonicalMarkdown titleYaml titledContents = .ok local_ ∧
      ∃ text written,
        (hydrateRequest titleYaml (.answering (.ok renamedRender)) none titledRequest
          (Host.running titledNotes 0)).2.durable.files
            (requestPath notesMount titledRequest.path) = some (.text text) ∧
        parseCanonicalMarkdown titleYaml text = .ok written ∧
        (OnlyLocalChanges titleYaml notesMount.root (notesPage .dirty).path
            ((notesShadow "a\n".toList [⟨['a']⟩]).withFrontmatter "title: Plan\n".toList) local_
            renamedRender written →
          FrontmatterStands titleYaml
            ((notesShadow "a\n".toList [⟨['a']⟩]).withFrontmatter "title: Plan\n".toList) local_
            renamedRender) := by
  have hlocal := titledContents_read
  cases hparse : parseCanonicalMarkdown titleYaml titledContents with
  | error error => rw [hparse] at hlocal; exact nomatch hlocal
  | ok local_ =>
      obtain ⟨text, written, hfile, -, hwritten, hiff, -⟩ := @hydrateRequest_merge_iff
        _ _ none _ _ 0 notesMount _ _ _ _ _ rfl rfl rfl rfl hparse titledNotes_merges
      exact ⟨local_, rfl, text, written, hfile, hwritten, fun h => (hiff.mp h).2⟩

end Title

end Locality.Daemon
