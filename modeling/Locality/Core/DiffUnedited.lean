/-
  Core/DiffUnedited.lean --- the shadow of a synced body against the segments of the
  same body.

  `from_synced_body` gives every segment an id and changes nothing else; a renderer may
  refine the kind of a table and fill in native kinds.  The two lists mirror each other
  wherever the body starts in the file, so planning an untouched page plans nothing.
-/
import Locality.Core.DiffNoop

set_option autoImplicit false

namespace Locality.Core

open Locality.Foundation

/-! ## The shadow of a synced body -/

/-- A block as a renderer leaves it: a table may have learnt its rows, and any block its
native kind. -/
structure RefinedFrom (synced refined : ShadowBlock) : Prop where
  remoteId : refined.remoteId = synced.remoteId
  sourceSpan : refined.sourceSpan = synced.sourceSpan
  contentHash : refined.contentHash = synced.contentHash
  text : refined.text = synced.text
  kind : refined.kind = synced.kind ∨
    synced.kind = .table ∧ ∃ rowIds column row, refined.kind = .tableWithRows rowIds column row

/-- A directive has a type. -/
def MarkdownBlockKind.carriesType : MarkdownBlockKind → Bool
  | .directive directiveType _ _ => directiveType.isSome
  | _ => true

/-- A shadow whose blocks are refined and which is otherwise the one that was synced. -/
structure Refines (synced refined : ShadowDocument) : Prop where
  entityId : refined.entityId = synced.entityId
  frontmatter : refined.frontmatter = synced.frontmatter
  bodyHash : refined.bodyHash = synced.bodyHash
  renderedBody : refined.renderedBody = synced.renderedBody
  blocks : List.Forall₂ RefinedFrom synced.blocks refined.blocks

/-- A segment and the shadow block it became. -/
structure AssignedFrom (block : SegmentedBlock) (shadowBlock : ShadowBlock) : Prop where
  eq : shadowBlock = block.toShadow shadowBlock.remoteId
  ownId : ∀ id, block.remoteId = some id → shadowBlock.remoteId = id
  directiveId : block.isDirective = true → block.remoteId = some shadowBlock.remoteId

theorem assignBlockIds_spec {blocks : List SegmentedBlock} {ids rest : List RemoteId}
    {shadowBlocks : List ShadowBlock}
    (h : assignBlockIds blocks ids = .ok (shadowBlocks, rest)) :
    List.Forall₂ AssignedFrom blocks shadowBlocks := by
  induction blocks generalizing ids shadowBlocks with
  | nil =>
      rw [assignBlockIds] at h
      cases h
      exact List.Forall₂.nil
  | cons block blocks ih =>
      have hcons : ∀ {id : RemoteId} {ids' : List RemoteId},
          (assignBlockIds blocks ids').map (fun p => (block.toShadow id :: p.1, p.2)) =
            .ok (shadowBlocks, rest) → AssignedFrom block (block.toShadow id) →
          List.Forall₂ AssignedFrom (block :: blocks) shadowBlocks := by
        intro id ids' hmap hblock
        cases hassigned : assignBlockIds blocks ids' with
        | error error =>
            rw [hassigned] at hmap
            cases hmap
        | ok p =>
            obtain ⟨restBlocks, restIds⟩ := p
            rw [hassigned] at hmap
            cases hmap
            exact List.Forall₂.cons hblock (ih hassigned)
      unfold assignBlockIds at h
      cases hid : block.remoteId with
      | some id =>
          simp only [hid] at h
          refine hcons h ⟨rfl, ?_, fun _ => hid⟩
          intro id' hid'
          rw [hid] at hid'
          exact Option.some.inj hid'
      | none =>
          simp only [hid] at h
          by_cases hdirective : block.kind.isDirective = true
          · rw [if_pos hdirective] at h
            cases h
          · rw [if_neg hdirective] at h
            cases ids with
            | nil => cases h
            | cons id ids =>
                refine hcons h ⟨rfl, ?_, fun hd => absurd hd hdirective⟩
                intro id' hid'
                rw [hid] at hid'
                cases hid'

/-- A directive that has an id is written correctly. -/
theorem parseDirectiveLine_wellFormed {line : Text} {n m : Nat} {directive : Directive}
    {id : RemoteId} (h : parseDirectiveLine line n = some directive)
    (hid : (parseDirectiveLine line m).bind Directive.remoteId = some id) :
    directive.malformed = false := by
  rw [parseDirectiveLine_remoteId line m n, h, Option.bind_some] at hid
  unfold parseDirectiveLine at h
  simp only [] at h
  split at h
  · cases h
  · injection h with h
    rw [← h] at hid ⊢
    by_contra hmalformed
    simp only [Bool.not_eq_false] at hmalformed
    simp [hmalformed, mapGet, nonEmpty] at hid

theorem segmentFrom_directive {ls : List Text} {bodyStartLine fuel index : Nat}
    {block : SegmentedBlock} {id : RemoteId}
    (hmem : block ∈ segmentFrom ls bodyStartLine fuel index)
    (hid : block.remoteId = some id) (hdirective : block.isDirective = true) :
    ∃ directiveType raw, block.kind = .directive directiveType raw false := by
  induction fuel generalizing index with
  | zero => cases hmem
  | succ fuel ih =>
      unfold segmentFrom at hmem
      cases hget : ls[index]? with
      | none => simp [hget] at hmem
      | some first =>
          simp only [hget] at hmem
          split at hmem
          · exact ih hmem
          · rcases List.mem_cons.mp hmem with rfl | hrest
            · simp only [SegmentedBlock.isDirective] at hdirective hid ⊢
              rw [if_pos hdirective] at hid
              unfold classifyBlock at hdirective ⊢
              cases hparse : parseDirectiveLine first (index + 1) with
              | some directive =>
                  exact ⟨_, _, by rw [← parseDirectiveLine_wellFormed hparse hid]⟩
              | none =>
                  simp only [hparse] at hdirective
                  split_ifs at hdirective <;> cases hdirective
            · exact ih hrest

theorem forall₂_getElem? {α β : Type} {R : α → β → Prop} {xs : List α} {ys : List β}
    (h : List.Forall₂ R xs ys) {i : Nat} {y : β} (hy : ys[i]? = some y) :
    ∃ x, xs[i]? = some x ∧ R x y := by
  induction h generalizing i with
  | nil => cases hy
  | @cons x y' xs ys hxy _ ih =>
      cases i with
      | zero => exact ⟨x, rfl, Option.some.inj hy ▸ hxy⟩
      | succ i => exact ih hy

section Synced

variable {entityId : RemoteId} {body : Text} {bodyStartLine : Nat} {ids : List RemoteId}
  {synced shadow : ShadowDocument}

theorem fromSyncedBody_spec
    (h : ShadowDocument.fromSyncedBody entityId body bodyStartLine ids = .ok synced) :
    synced.frontmatter = [] ∧ synced.renderedBody = body ∧
      List.Forall₂ AssignedFrom (segmentMarkdownBody body bodyStartLine) synced.blocks := by
  unfold ShadowDocument.fromSyncedBody at h
  cases hassigned : assignBlockIds (segmentMarkdownBody body bodyStartLine) ids with
  | error error =>
      rw [hassigned] at h
      cases h
  | ok p =>
      obtain ⟨blocks, rest⟩ := p
      rw [hassigned] at h
      cases rest with
      | cons extraId rest => cases h
      | nil =>
          injection h with h
          rw [← h]
          exact ⟨rfl, rfl, assignBlockIds_spec hassigned⟩

/-- A refined shadow mirrors the segments of its own body, wherever the body starts. -/
theorem mirrored_of_synced
    (hsynced : ShadowDocument.fromSyncedBody entityId body bodyStartLine ids = .ok synced)
    (hrefines : Refines synced shadow)
    (htypes : ∀ block ∈ shadow.blocks, block.kind.carriesType = true)
    (line : Nat) : Mirrored shadow (segmentMarkdownBody body line) := by
  obtain ⟨_, _, hassigned⟩ := fromSyncedBody_spec hsynced
  have hcontent := segmentMarkdownBody_content body bodyStartLine line
  have hlength := congrArg List.length hcontent
  rw [List.length_map, List.length_map] at hlength
  refine ⟨?_, ?_⟩
  · rw [← hrefines.blocks.length_eq, ← hassigned.length_eq]
    exact hlength
  · intro i shadowBlock editedBlock hshadow hedited
    obtain ⟨syncedBlock, hsyncedBlock, hrefined⟩ := forall₂_getElem? hrefines.blocks hshadow
    obtain ⟨block, hblock, hfrom⟩ := forall₂_getElem? hassigned hsyncedBlock
    have hsame : block.content = editedBlock.content := by
      have hat := congrArg (fun l => l[i]?) hcontent
      simpa only [List.getElem?_map, hblock, hedited, Option.map_some,
        Option.some.injEq] using hat
    simp only [SegmentedBlock.content, Prod.mk.injEq] at hsame
    obtain ⟨hid, hkind, hhash, htext⟩ := hsame
    have heq := hfrom.eq
    refine ⟨?_, ?_, ?_, ?_⟩
    · rw [hrefined.contentHash, heq, ← hhash]
      rfl
    · rw [hrefined.text, heq, ← htext]
      rfl
    · have hsyncedKind : syncedBlock.kind = editedBlock.kind := by
        rw [heq, ← hkind]
        rfl
      rw [← hsyncedKind]
      exact hrefined.kind
    · intro hdirective
      have hblockDirective : block.isDirective = true := by
        unfold SegmentedBlock.isDirective at hdirective ⊢
        rw [hkind]
        exact hdirective
      have hown := hfrom.directiveId hblockDirective
      obtain ⟨directiveType, raw, hblockKind⟩ :=
        segmentFrom_directive (List.mem_of_getElem? hblock) hown hblockDirective
      have hshadowKind : shadowBlock.kind = .directive directiveType raw false := by
        have hsyncedKind : syncedBlock.kind = .directive directiveType raw false := by
          rw [heq, ← hblockKind]
          rfl
        rcases hrefined.kind with hsameKind | ⟨htable, _⟩
        · rw [hsameKind, hsyncedKind]
        · rw [hsyncedKind] at htable
          cases htable
      have htype := htypes shadowBlock (List.mem_of_getElem? hshadow)
      rw [hshadowKind] at htype
      obtain ⟨typeName, rfl⟩ := Option.isSome_iff_exists.mp htype
      refine ⟨typeName, raw, ?_, ?_⟩
      · rw [← hid, hown, hrefined.remoteId]
      · rw [← hkind, hblockKind]

/-- Planning a document that nobody edited plans nothing. -/
theorem planBlockDiff_unedited (yaml : YamlSerde)
    (hsynced : ShadowDocument.fromSyncedBody entityId body bodyStartLine ids = .ok synced)
    (hrefines : Refines synced shadow) (hids : shadow.DistinctIds)
    (htypes : ∀ block ∈ shadow.blocks, block.kind.carriesType = true)
    (line : Nat) :
    ∃ plan, planBlockDiff yaml shadow ⟨shadow.frontmatter, shadow.renderedBody⟩ line =
      .ok plan ∧ plan.operations = [] ∧ plan.degradations = [] := by
  obtain ⟨hfrontmatter, hbody, _⟩ := fromSyncedBody_spec hsynced
  have hmirrored := mirrored_of_synced hsynced hrefines htypes line
  have hdocument : shadow.renderedBody = body := hrefines.renderedBody.trans hbody
  have hproperties := propertyDiffOperations_of_empty yaml
    ⟨shadow.frontmatter, shadow.renderedBody⟩ (hrefines.frontmatter.trans hfrontmatter)
  have hblocks := blockOperations_mirrored hmirrored hids
  have hdegradations := (alignBlocks_mirrored hmirrored hids).1
  have hvalidate := validateEditedDirectives_mirrored hmirrored hids
  refine ⟨(PushPlan.ofOperations [shadow.entityId] []).withDegradations [], ?_, rfl, rfl⟩
  rw [hdocument] at hproperties
  simp only [planBlockDiff, hdocument]
  rw [hvalidate, hproperties]
  simp only [hblocks, hdegradations, List.nil_append]

end Synced

/-- A page with two equal paragraphs, a table whose rows are known, and a directive. -/
def pageWithTable : Text :=
  "A\n\n| x | y |\n| --- | --- |\n| 1 | 2 |\n\nA\n\n::loc\x7bid=d type=child_page\x7d\n".toList

/-- The first table of a shadow learns its rows. -/
def withTableRows (rowIds : List RemoteId) (shadow : ShadowDocument) : ShadowDocument :=
  { shadow with
    blocks := shadow.blocks.map fun block =>
      if block.kind = .table then
        { block with kind := .tableWithRows rowIds true false, nativeKind := some "table".toList }
      else block }

theorem refines_withTableRows (rowIds : List RemoteId) (shadow : ShadowDocument) :
    Refines shadow (withTableRows rowIds shadow) := by
  refine ⟨rfl, rfl, rfl, rfl, ?_⟩
  unfold withTableRows
  rw [List.forall₂_map_right_iff, List.forall₂_same]
  intro block _
  split
  · rename_i htable
    exact ⟨rfl, rfl, rfl, rfl, Or.inr ⟨htable, _, _, _, rfl⟩⟩
  · exact ⟨rfl, rfl, rfl, rfl, Or.inl rfl⟩

theorem planBlockDiff_unedited_page :
    ∃ plan, planBlockDiff noYaml
        (withTableRows [⟨['r']⟩] (syncedPage pageWithTable [⟨['a']⟩, ⟨['b']⟩, ⟨['c']⟩]))
        ⟨[], pageWithTable⟩ 7 = .ok plan ∧ plan.operations = [] ∧ plan.degradations = [] := by
  have hsynced : ShadowDocument.fromSyncedBody ⟨"page".toList⟩ pageWithTable 1
      [⟨['a']⟩, ⟨['b']⟩, ⟨['c']⟩] =
        .ok (syncedPage pageWithTable [⟨['a']⟩, ⟨['b']⟩, ⟨['c']⟩]) := by
    decide +kernel
  apply planBlockDiff_unedited noYaml hsynced (refines_withTableRows _ _)
  · unfold ShadowDocument.DistinctIds
    decide +kernel
  · decide +kernel

end Locality.Core
