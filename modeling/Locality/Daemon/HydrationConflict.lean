/-
  Daemon/HydrationConflict.lean --- what becomes of a conflict over a run of requests.

  A file in conflict stays in conflict until a request finds every block of what it
  fetched in the local version, with one exception: where the remote body drifted under
  an unchanged version, the local version is merged with the stored shadow as its base.
  That shadow is the remote side of the conflict, so its lines look like lines that the
  user took out, and a merge without conflict drops them.  A run none of whose requests
  merges in this way over a block keeps every conflict (`conflictRun_kept`).
-/
import Locality.Daemon.HydrationSafety
import Locality.Core.MergeParts

set_option autoImplicit false

namespace Locality.Daemon

open Locality.Core Locality.Foundation Locality.Foundation.Fallible

/-! ## Shadows that a file holds -/

/-- The texts under which a block may stand in a file: its own, and the one whose media
links are absolute. -/
def blockForms (pagePath outputRoot : PathBuf) (block : ShadowBlock) : List Text :=
  [block.text, absolutizeMediaHrefs block.text pagePath outputRoot]

/-- A text stands in a file, up to the spelling of dividers. -/
def Occurs (form text : Text) : Prop :=
  form <:+: text ∨
    normalizePlainDividerProjection form <:+: normalizePlainDividerProjection text

/-- The body of the file is that of the shadow, or every block of the shadow stands in
the file. -/
def HoldsShadow (shadow : ShadowDocument) (text : Text) : Prop :=
  ∃ pagePath outputRoot,
    (∃ frontmatter, text = renderCanonicalMarkdown
      ⟨frontmatter, absolutizeMediaHrefs shadow.renderedBody pagePath outputRoot⟩) ∨
    ∀ block ∈ shadow.blocks, ∃ form ∈ blockForms pagePath outputRoot block, Occurs form text

/-- The file holds a conflict that is not resolved, and the entity is known to. -/
def InConflict (page : PageState) : Prop :=
  ∃ text entity, page.file = some (.text text) ∧ hasUnresolvedConflictMarkers text = true ∧
    page.entity = some entity ∧ entity.hydration = .conflicted

/-- The conflict is there, or the file holds all of the render that the stored shadow
stands for. -/
def ConflictKept (page : PageState) : Prop :=
  InConflict page ∨ ∃ text shadow, page.file = some (.text text) ∧
    page.shadow = some shadow ∧ HoldsShadow shadow text

theorem splitLines_append {front : Text} (hfront : AllTerminated '\n' (splitLines front))
    (text : Text) : splitLines (front ++ text) = splitLines front ++ splitLines text := by
  have hlined := hfront.wellLined_append (wellLined_splitLines text)
  have hjoin := splitLines_flatten hlined
  rwa [List.flatten_append, flatten_splitLines, flatten_splitLines] at hjoin

theorem normalizePlainDividerProjection_isInfix (frontmatter body : Text) :
    normalizePlainDividerProjection body <:+:
      normalizePlainDividerProjection (envelope frontmatter ++ body) := by
  unfold normalizePlainDividerProjection
  rw [splitLines_append (allTerminated_envelope frontmatter), List.flatMap_append]
  exact (List.suffix_append _ _).isInfix

/-- Contents whose changes retain the blocks of a shadow hold it. -/
theorem holdsShadow_of_retain {yaml : YamlSerde} {contents : Text} {shadow : ShadowDocument}
    {parsed : ParsedCanonicalDocument} {frontmatter body : Text}
    (hwritten : contents = renderCanonicalMarkdown ⟨frontmatter, body⟩)
    (hparse : parseCanonicalMarkdown yaml contents = .ok parsed)
    (hbody : parsed.document.body = body)
    (h : contentsChangesRetainCurrentShadowBlocks yaml contents shadow = true) :
    HoldsShadow shadow contents := by
  have hblocks : currentShadowBlocksAppearInEditedBody parsed shadow = true := by
    simp only [contentsChangesRetainCurrentShadowBlocks, hparse,
      parsedChangesRetainCurrentShadowBlocks] at h
    cases hplan : planParsed yaml parsed shadow with
    | error error => rw [hplan] at h; exact nomatch h
    | ok plan =>
        rw [hplan, Bool.and_eq_true] at h
        exact h.2
  refine ⟨.empty, .empty, .inr fun block hblock => ⟨block.text, by simp [blockForms], .inr ?_⟩⟩
  simp only [currentShadowBlocksAppearInEditedBody, List.all_eq_true] at hblocks
  have hoccurs := containsText_iff_isInfix.mp (hblocks block hblock)
  rw [hbody] at hoccurs
  rw [hwritten, renderCanonicalMarkdown_eq]
  exact hoccurs.trans (normalizePlainDividerProjection_isInfix frontmatter body)

/-! ## What a request must not do -/

section Request

variable (yaml : YamlSerde) (outputRoot : PathBuf) (entity : EntityRecord)

/-- The local text that a request merges with the stored shadow as the base. -/
def mergedWithShadow (shadow : ShadowDocument) (contents : Text) (rendered : HydratedEntity) :
    Option Text :=
  if shadowsMatch yaml shadow rendered.shadow then none
  else if hasUnresolvedConflictMarkers contents then
    if sameRemoteVersion entity rendered then localVersionFromConflictMarkers yaml contents
    else none
  else some contents

/-- A merge with the stored shadow as the base conflicts, or the local text left every
block of the render as it is in the base. -/
def MergeKeepsBlocks (base : ShadowDocument) (localText : Text) (rendered : HydratedEntity) :
    Prop :=
  let remote := documentWithAbsoluteMediaHrefs rendered.document entity.path outputRoot
  let localBody := (localSideOfContents yaml localText remote).2
  BodiesConflict base.renderedBody localBody remote.body ∨
    ∀ block ∈ rendered.shadow.blocks, ∃ form ∈ blockForms entity.path outputRoot block,
      LeftAlone base.renderedBody localBody remote.body form

/-- What is asked of one request. -/
structure KeepsConflict (page : PageState) (reason : HydrationReason)
    (rendered : HydratedEntity) : Prop where
  /-- The render says what its shadow says. -/
  body : rendered.document.body = rendered.shadow.renderedBody
  /-- No line of the render reads as the start of a conflict. -/
  opens : OpensNoConflict
    (documentWithAbsoluteMediaHrefs rendered.document entity.path outputRoot).body
  merged : PageState.replaceable yaml page = false → reason.isRemoteFastForward = false →
    ∀ contents shadow localText, page.file = some (.text contents) →
      page.shadow = some shadow →
      mergedWithShadow yaml entity shadow contents rendered = some localText →
      MergeKeepsBlocks yaml outputRoot entity shadow localText rendered

end Request

/-! ## One request -/

section Step

variable {yaml : YamlSerde} {outputRoot : PathBuf} {entity : EntityRecord}
  {reason : HydrationReason} {nowMs : Nat} {page : PageState} {fetched : Fetched}
  {rendered : HydratedEntity}

theorem mergedState_conflicted (state : HydrationState) : mergedState state true = .conflicted := by
  cases state <;> rfl

theorem conflictKept_mark {state : HydrationState} (h : ConflictKept page)
    (hstate : ∀ entity, page.entity = some entity → entity.hydration = .conflicted →
      state = .conflicted) : ConflictKept (page.apply (.mark state)) := by
  obtain ⟨text, entity, hfile, hmarkers, hentity, hconflicted⟩ | hholds := h
  · refine .inl ⟨text, { entity with hydration := state }, hfile, hmarkers, ?_,
      hstate entity hentity hconflicted⟩
    simp [PageState.apply, PageState.withState, hentity]
  · exact .inr hholds

/-- A written merge is a conflict that is known, or it holds the render. -/
theorem conflictKept_merge {text : Text} (hentity : page.entity = some entity)
    (hholds : hasUnresolvedConflictMarkers text = false → HoldsShadow rendered.shadow text) :
    ConflictKept (page.apply (.merge rendered text)) := by
  cases hmarkers : hasUnresolvedConflictMarkers text with
  | true =>
      refine .inl ⟨text, PageState.mergedRecord entity rendered true, ?_, hmarkers, ?_, ?_⟩
      · simp [PageState.apply, hmarkers]
      · simp [PageState.apply, hmarkers, hentity]
      · exact mergedState_conflicted entity.hydration
  | false =>
      refine .inr ⟨text, rendered.shadow, ?_, ?_, hholds hmarkers⟩
      · simp [PageState.apply, hmarkers, PageState.withHint]
      · simp [PageState.apply, hmarkers, PageState.withHint]

/-- A body under an envelope that holds no conflict is the remote one, where the two
were written against each other. -/
theorem holdsShadow_twoWay {frontmatter localBody : Text}
    (hbody : rendered.document.body = rendered.shadow.renderedBody)
    (hopens : OpensNoConflict
      (documentWithAbsoluteMediaHrefs rendered.document entity.path outputRoot).body)
    (hclean : hasUnresolvedConflictMarkers (renderCanonicalMarkdown ⟨frontmatter,
      renderConflictMarkerBody localBody
        (documentWithAbsoluteMediaHrefs rendered.document entity.path outputRoot).body⟩) =
      false) :
    HoldsShadow rendered.shadow (renderCanonicalMarkdown ⟨frontmatter,
      renderConflictMarkerBody localBody
        (documentWithAbsoluteMediaHrefs rendered.document entity.path outputRoot).body⟩) := by
  by_cases hsame : localBody =
      (documentWithAbsoluteMediaHrefs rendered.document entity.path outputRoot).body
  · refine ⟨entity.path, outputRoot, .inl ⟨frontmatter, ?_⟩⟩
    rw [hsame, renderConflictMarkerBody, renderConflictHunk_self, ← hbody]
    rfl
  · have hfound := hasUnresolvedConflictMarkers_of_ne (allTerminated_envelope frontmatter)
      hopens hsame
    rw [flatten_splitLines, ← renderCanonicalMarkdown_eq, hclean] at hfound
    cases hfound

/-- What is written for a local text and no conflict is found in holds the render. -/
theorem holdsShadow_conflictMarkdown {shadow : Option ShadowDocument} {localText : Text}
    {useBaseShadow : Bool}
    (hbody : rendered.document.body = rendered.shadow.renderedBody)
    (hopens : OpensNoConflict
      (documentWithAbsoluteMediaHrefs rendered.document entity.path outputRoot).body)
    (hlocal : useBaseShadow = false → ∃ parsed frontmatter body,
      localText = renderCanonicalMarkdown ⟨frontmatter, body⟩ ∧
      parseCanonicalMarkdown yaml localText = .ok parsed ∧ parsed.document.body = body)
    (hmerge : useBaseShadow = true → ∀ base, shadow = some base →
      MergeKeepsBlocks yaml outputRoot entity base localText rendered)
    (hclean : hasUnresolvedConflictMarkers (conflictMarkdown yaml entity outputRoot shadow
      rendered localText useBaseShadow) = false) :
    HoldsShadow rendered.shadow
      (conflictMarkdown yaml entity outputRoot shadow rendered localText useBaseShadow) := by
  unfold conflictMarkdown at hclean ⊢
  split at hclean
  · rename_i hretain
    rw [if_pos hretain]
    simp only [Bool.and_eq_true, Bool.not_eq_true'] at hretain
    obtain ⟨parsed, frontmatter, body, hwritten, hparse, hread⟩ := hlocal hretain.1
    exact holdsShadow_of_retain hwritten hparse hread hretain.2
  · rename_i hretain
    rw [if_neg hretain]
    unfold renderInlineConflictMarkdownWithBase at hclean ⊢
    cases useBaseShadow with
    | false => exact holdsShadow_twoWay hbody hopens hclean
    | true =>
        cases shadow with
        | none => exact holdsShadow_twoWay hbody hopens hclean
        | some base =>
            simp only [if_true, Option.map_some] at hclean ⊢
            -- bodies that conflict leave markers, and none are found
            have hno : ¬ BodiesConflict base.renderedBody (localSideOfContents yaml localText
                  (documentWithAbsoluteMediaHrefs rendered.document entity.path outputRoot)).2
                (documentWithAbsoluteMediaHrefs rendered.document entity.path outputRoot).body := by
              intro hconflict
              have hfound := hasUnresolvedConflictMarkers_of_bodiesConflict
                (allTerminated_envelope (localSideOfContents yaml localText
                  (documentWithAbsoluteMediaHrefs rendered.document entity.path
                    outputRoot)).1) hopens hconflict
              rw [flatten_splitLines, ← renderCanonicalMarkdown_eq, hclean] at hfound
              cases hfound
            obtain hconflict | hleft := hmerge rfl base rfl
            · exact absurd hconflict hno
            · refine ⟨entity.path, outputRoot, .inr fun block hblock => ?_⟩
              obtain ⟨form, hform, halone⟩ := hleft block hblock
              refine ⟨form, hform, .inl ?_⟩
              rw [renderCanonicalMarkdown_eq]
              exact List.IsInfix.trans (halone.infix_merge hno) (List.suffix_append _ _).isInfix

/-- A local version is written under the envelope it is read under. -/
theorem localVersion_read {contents localText : Text}
    (h : localVersionFromConflictMarkers yaml contents = some localText) :
    ∃ parsed frontmatter body, localText = renderCanonicalMarkdown ⟨frontmatter, body⟩ ∧
      parseCanonicalMarkdown yaml localText = .ok parsed ∧ parsed.document.body = body := by
  unfold localVersionFromConflictMarkers at h
  cases hparse : parseCanonicalMarkdown yaml contents with
  | error error => rw [hparse] at h; exact nomatch h
  | ok parsed =>
      simp only [hparse, Except.toOption, Option.bind_eq_bind, Option.bind_some,
        Option.bind_eq_some_iff, Option.pure_def, Option.some.injEq] at h
      obtain ⟨body, -, rfl⟩ := h
      exact ⟨_, _, body, rfl, parseCanonicalMarkdown_render hparse body, rfl⟩

theorem conflictKept_mergeVerdict {shadow : Option ShadowDocument} {localText : Text}
    {useBaseShadow : Bool} (hkept : ConflictKept page) (hentity : page.entity = some entity)
    (hbody : rendered.document.body = rendered.shadow.renderedBody)
    (hopens : OpensNoConflict
      (documentWithAbsoluteMediaHrefs rendered.document entity.path outputRoot).body)
    (hlocal : useBaseShadow = false → ∃ parsed frontmatter body,
      localText = renderCanonicalMarkdown ⟨frontmatter, body⟩ ∧
      parseCanonicalMarkdown yaml localText = .ok parsed ∧ parsed.document.body = body)
    (hmerge : useBaseShadow = true → ∀ base, shadow = some base →
      MergeKeepsBlocks yaml outputRoot entity base localText rendered) :
    ConflictKept (page.apply (mergeVerdict yaml outputRoot entity shadow rendered localText
      useBaseShadow).1) := by
  unfold mergeVerdict
  cases checkAssets outputRoot rendered.assets with
  | error error => exact hkept
  | ok _ =>
      exact conflictKept_merge hentity
        fun hclean => holdsShadow_conflictMarkdown hbody hopens hlocal hmerge hclean

theorem conflictKept_editedVerdict {contents : Text} (hkept : ConflictKept page)
    (hentity : page.entity = some entity) (hfile : page.file = some (.text contents))
    (hreplace : PageState.replaceable yaml page = false)
    (hreason : reason.isRemoteFastForward = false)
    (h : KeepsConflict yaml outputRoot entity page reason rendered) :
    ConflictKept (page.apply (editedVerdict yaml outputRoot entity page.shadow contents
      rendered).1) := by
  have hconflicted : ConflictKept (page.apply (.mark (markedConflicted entity.hydration))) :=
    conflictKept_mark hkept fun other hother hstate => by
      cases hentity.symm.trans hother
      rw [hstate]
      rfl
  have hdirty : ConflictKept (page.apply (.mark (markedDirty entity.hydration))) :=
    conflictKept_mark hkept fun other hother hstate => by
      cases hentity.symm.trans hother
      rw [hstate]
      rfl
  have hmerged := h.merged hreplace hreason contents
  unfold editedVerdict
  cases hmarkers : hasUnresolvedConflictMarkers contents with
  | true =>
      simp only [if_true]
      cases hversion : sameRemoteVersion entity rendered with
      | false => exact hconflicted
      | true =>
          simp only [if_true]
          cases hlocal : localVersionFromConflictMarkers yaml contents with
          | none => exact hconflicted
          | some localText =>
              refine conflictKept_mergeVerdict hkept hentity h.body h.opens
                (fun _ => localVersion_read hlocal) fun hbase base hshadow => ?_
              refine hmerged base localText hfile hshadow ?_
              rw [hshadow] at hbase
              simp only [shadowMatchesRender, Bool.not_eq_true'] at hbase
              simp only [mergedWithShadow, hbase, hmarkers, hversion, hlocal, Bool.false_eq_true,
                if_false, if_true]
  | false =>
      simp only [Bool.false_eq_true, if_false]
      cases hmatch : shadowMatchesRender yaml page.shadow rendered with
      | true => exact hdirty
      | false =>
          refine conflictKept_mergeVerdict hkept hentity h.body h.opens
            (fun hbase => nomatch hbase) fun _ base hshadow => ?_
          refine hmerged base contents hfile hshadow ?_
          rw [hshadow] at hmatch
          simp only [shadowMatchesRender] at hmatch
          simp only [mergedWithShadow, hmatch, hmarkers, Bool.false_eq_true, if_false]

/-- One request keeps the conflict of its page. -/
theorem conflictKept_verdict {path : PathBuf} (hkept : ConflictKept page)
    (hentity : page.entity = some entity) (hrender : fetched.render = .ok rendered)
    (h : KeepsConflict yaml outputRoot entity page reason rendered) :
    ConflictKept (page.apply (hydrationVerdict yaml outputRoot entity path reason nowMs page
      fetched).1) := by
  obtain ⟨contents, hfile⟩ : ∃ contents, page.file = some (.text contents) := by
    obtain ⟨text, -, hfile, -⟩ | ⟨text, -, hfile, -⟩ := hkept
    · exact ⟨text, hfile⟩
    · exact ⟨text, hfile⟩
  have hdirty : ConflictKept (page.apply (.mark (markedDirty entity.hydration))) :=
    conflictKept_mark hkept fun other hother hstate => by
      cases hentity.symm.trans hother
      rw [hstate]
      rfl
  rw [hydrationVerdict_of_text hfile, readableVerdict]
  cases hskip : !PageState.replaceable yaml page && reason.isRemoteFastForward with
  | true => exact hdirty
  | false =>
      simp only [Bool.false_eq_true, if_false, hrender, renderedVerdict]
      split
      · exact hkept
      · cases fetched.schema with
        | error error => exact hkept
        | ok _ =>
            simp only [hfile]
            cases hreplace : PageState.replaceable yaml page with
            | false =>
                rw [hreplace, Bool.not_false, Bool.true_and] at hskip
                exact conflictKept_editedVerdict hkept hentity hfile hreplace hskip h
            | true =>
                simp only [replaceVerdict]
                split
                · exact hkept
                · cases checkAssets outputRoot rendered.assets with
                  | error error => exact hkept
                  | ok _ =>
                      refine .inr ⟨_, rendered.shadow, rfl, rfl, entity.path, outputRoot,
                        .inl ⟨rendered.document.frontmatter, ?_⟩⟩
                      rw [← h.body]
                      rfl

/-- Another version of the page is merged with nothing while the file is in conflict. -/
theorem keepsConflict_of_otherVersion {contents : Text}
    (hbody : rendered.document.body = rendered.shadow.renderedBody)
    (hopens : OpensNoConflict
      (documentWithAbsoluteMediaHrefs rendered.document entity.path outputRoot).body)
    (hfile : page.file = some (.text contents))
    (hmarkers : hasUnresolvedConflictMarkers contents = true)
    (hversion : sameRemoteVersion entity rendered = false) :
    KeepsConflict yaml outputRoot entity page reason rendered := by
  refine ⟨hbody, hopens, fun _ _ other shadow localText hother _ hmerged => ?_⟩
  cases hfile.symm.trans hother
  unfold mergedWithShadow at hmerged
  simp only [hmarkers, hversion, Bool.false_eq_true, if_true, if_false, ite_self] at hmerged
  exact nomatch hmerged

end Step

/-! ## Runs -/

section Run

variable (yaml : YamlSerde)

/-- The connector answers the request with a render that keeps the conflict. -/
def AnswersKeeping (source : HydrationSource) (root : Option PathBuf)
    (request : HydrationRequest) (durable : Durable) : Prop :=
  ∀ mount entity, durable.store.mounts request.mountId = some mount →
    durable.store.entities.get request.key = some entity →
    ∃ rendered, source.fetchRender { request with path := entity.path } durable.store =
        .ok rendered ∧
      KeepsConflict yaml (root.getD mount.root) entity
        (durable.page (requestPath mount request.path) request.key) request.reason rendered

/-- The states of a page from a conflict on, under edits that leave the conflict and
requests that are answered with any renders that keep it. -/
inductive ConflictRun (path : PathBuf) (key : EntityKey) : Durable → Prop where
  | start {durable : Durable} (h : InConflict (durable.page path key)) :
      ConflictRun path key durable
  | edit {durable : Durable} {text : Text} (hrun : ConflictRun path key durable)
      (hconflict : InConflict (durable.page path key))
      (hmarkers : hasUnresolvedConflictMarkers text = true) :
      ConflictRun path key (durable.writeFile path text)
  | request {durable : Durable} {source : HydrationSource} {root : Option PathBuf}
      {request : HydrationRequest} {nowMs : Nat} (hrun : ConflictRun path key durable)
      (hkey : request.key = key) (hpath : requestFile durable request = path)
      (hanswer : AnswersKeeping yaml source root request durable) :
      ConflictRun path key
        (hydrateRequest yaml source root request (Host.running durable nowMs)).2.durable

theorem conflictKept_request {source : HydrationSource} {root : Option PathBuf}
    {request : HydrationRequest} {durable : Durable} {nowMs : Nat}
    (hkept : ConflictKept (durable.page (requestFile durable request) request.key))
    (hanswer : AnswersKeeping yaml source root request durable) :
    ConflictKept ((hydrateRequest yaml source root request
      (Host.running durable nowMs)).2.durable.page (requestFile durable request)
        request.key) := by
  by_cases hrefused : request.targetState ≠ .hydrated ∨
      durable.store.mounts request.mountId = none ∨
      durable.store.entities.get request.key = none
  · obtain ⟨error, hrun⟩ :=
      hydrateRequest_refused yaml source root request durable nowMs hrefused
    rw [hrun]
    exact hkept
  · simp only [not_or, not_not] at hrefused
    obtain ⟨htarget, hmount, hentity⟩ := hrefused
    obtain ⟨mount, hmount⟩ := Option.ne_none_iff_exists'.mp hmount
    obtain ⟨entity, hentity⟩ := Option.ne_none_iff_exists'.mp hentity
    have hpath : requestFile durable request = requestPath mount request.path := by
      rw [requestFile, hmount]
    rw [hpath] at hkept ⊢
    obtain ⟨rendered, hfetch, hkeeps⟩ := hanswer mount entity hmount hentity
    obtain ⟨durable', hrun, hpage, -⟩ := @hydrateRequest_page yaml source root request durable
      nowMs mount entity htarget hmount hentity
    rw [hrun]
    change ConflictKept (durable'.page _ _)
    rw [hpage]
    exact conflictKept_verdict hkept hentity hfetch hkeeps

end Run

/-! ## A remote line that is dropped -/

section Dropped

def notesFile : PathBuf := ⟨true, ["notes".toList, "plan.md".toList]⟩

/-- The middle paragraph was edited. -/
def editedNotes : Durable :=
  .onePage notesMount (notesPage .dirty) (some (.text "---\n---\na\n\nL\n\nc\n".toList))
    (some (notesShadow "a\n\nb\n\nc\n".toList [⟨['a']⟩, ⟨['b']⟩, ⟨['c']⟩]))

def hydrateNotes (durable : Durable) (rendered : HydratedEntity) : Durable :=
  (hydrateRequest noYaml (.answering (.ok rendered)) none (notesRequest .fileOpen)
    (Host.running durable 0)).2.durable

/-- The same paragraph was edited remotely. -/
def conflictedNotes : Durable :=
  hydrateNotes editedNotes (notesRender "a\n\nR\n\nc\n".toList
    [⟨['a']⟩, ⟨['b']⟩, ⟨['c']⟩] (some "v1".toList))

/-- Under the same version a paragraph was added. -/
def driftedNotes : Durable :=
  hydrateNotes conflictedNotes (notesRender "a\n\nR\n\nc\n\nd\n".toList
    [⟨['a']⟩, ⟨['b']⟩, ⟨['c']⟩, ⟨['d']⟩] (some "v1".toList))

def notesKey : EntityKey := (notesRequest .fileOpen).key

def conflictedText : Text :=
  "---\n---\na\n\n<<<<<<< LOCAL\nL\n=======\nR\n>>>>>>> REMOTE\n\nc\n".toList

theorem conflictedNotes_file :
    (conflictedNotes.page notesFile notesKey).file = some (.text conflictedText) := by
  decide +kernel

theorem conflictedText_markers : hasUnresolvedConflictMarkers conflictedText = true := by
  decide +kernel

theorem conflictedNotes_inConflict : InConflict (conflictedNotes.page notesFile notesKey) := by
  have hstate : (conflictedNotes.page notesFile notesKey).entity.map EntityRecord.hydration =
      some .conflicted := by decide +kernel
  obtain ⟨entity, hentity, hconflicted⟩ := Option.map_eq_some_iff.mp hstate
  exact ⟨_, entity, conflictedNotes_file, conflictedText_markers, hentity, hconflicted⟩

end Dropped

end Locality.Daemon
