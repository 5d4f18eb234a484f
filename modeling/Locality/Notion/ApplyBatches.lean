/-
  Notion/ApplyBatches.lean --- one request for several children, and one for each of them.

  A request for several children does what requests for one child after the other do: each
  child is put behind the last one, which is what `append_chains` says of the anchor.
-/
import Locality.Notion.ApplyPlan

set_option autoImplicit false

namespace Locality.Notion

open Locality.Core Locality.Foundation

variable {β : Type}

/-! ## States that agree -/

/-- The states have the same blocks and effects, and their chains lead to the same. -/
structure Agrees (st st' : ApplyState β) : Prop where
  blocks : st.blocks = st'.blocks
  chains : ∀ key, st.appendChains.get key = st'.appendChains.get key
  moves : st.preservedAppendArchiveMoves = st'.preservedAppendArchiveMoves
  effects : st.effects = st'.effects

namespace Agrees

variable {st st' st'' : ApplyState β}

theorem refl (st : ApplyState β) : Agrees st st := ⟨rfl, fun _ => rfl, rfl, rfl⟩

theorem trans (h : Agrees st st') (h' : Agrees st' st'') : Agrees st st'' :=
  ⟨h.blocks.trans h'.blocks, fun key => (h.chains key).trans (h'.chains key),
    h.moves.trans h'.moves, h.effects.trans h'.effects⟩

end Agrees

/-- Both succeed, or both fail, and leave states that agree. -/
def SameResult : ApplyResult β → ApplyResult β → Prop
  | .ok st, .ok st' => Agrees st st'
  | .error st, .error st' => Agrees st st'
  | _, _ => False

theorem SameResult.bind {result result' : ApplyResult β} {f g : ApplyState β → ApplyResult β}
    (h : SameResult result result')
    (hfg : ∀ st st', Agrees st st' → SameResult (f st) (g st')) :
    SameResult (result.bind f) (result'.bind g) := by
  cases result with
  | error st =>
      cases result' with
      | error st' => exact h
      | ok st' => exact h.elim
  | ok st =>
      cases result' with
      | error st' => exact h.elim
      | ok st' => exact hfg st st' h

theorem get_cons (chains : AppendChains) (key key' : RemoteId × Option RemoteId)
    (id : RemoteId) :
    AppendChains.get ((key, id) :: chains) key' =
      if key = key' then some id else chains.get key' := by
  unfold AppendChains.get
  rw [List.find?_cons]
  by_cases h : key = key'
  · rw [if_pos h, decide_eq_true h]
    rfl
  · rw [if_neg h, decide_eq_false h]

theorem get_append (chains chains' added : AppendChains) (h : ∀ key, chains.get key = chains'.get key)
    (key : RemoteId × Option RemoteId) :
    AppendChains.get (added ++ chains) key = AppendChains.get (added ++ chains') key := by
  induction added with
  | nil => exact h key
  | cons entry added ih =>
      obtain ⟨key', id⟩ := entry
      rw [List.cons_append, List.cons_append, get_cons, get_cons, ih]

namespace ApplyContext

variable (self : ApplyContext β) {st st' : ApplyState β}

theorem putAndDelete_congr (h : Agrees st st') (operationIndex : Nat)
    (parentId blockId : RemoteId) (after : Option RemoteId)
    (chainKeys : List (RemoteId × Option RemoteId)) (child : β) :
    SameResult (self.putAndDelete operationIndex parentId blockId after chainKeys child st)
      (self.putAndDelete operationIndex parentId blockId after chainKeys child st') := by
  unfold putAndDelete
  rw [← h.blocks, ← h.effects]
  cases appendBlockChildren parentId after [⟨self.createdId operationIndex, parentId, child⟩]
      st.blocks with
  | none => exact h
  | some blocks =>
      have hchains := get_append st.appendChains st'.appendChains
        (chainKeys.map fun key => (key, self.createdId operationIndex)) h.chains
      dsimp only
      cases deleteBlock blockId blocks with
      | none => exact ⟨rfl, hchains, h.moves, rfl⟩
      | some blocks => exact ⟨rfl, hchains, h.moves, rfl⟩

theorem recordEntity_congr (h : Agrees st st') (operationIndex : Nat)
    (operation : PushOperation) (effect : RemoteId → JournalApplyEffect) :
    SameResult (self.recordEntity operationIndex operation effect st)
      (self.recordEntity operationIndex operation effect st') := by
  unfold recordEntity
  cases self.entityCall operationIndex operation with
  | none => exact h
  | some entityId => exact ⟨h.blocks, h.chains, h.moves, by rw [h.effects]⟩

theorem applyBlockOperation_congr (h : Agrees st st') (operationIndex : Nat)
    (operation : PushOperation) :
    SameResult (self.applyBlockOperation operationIndex operation st)
      (self.applyBlockOperation operationIndex operation st') := by
  have hwrite : ∀ (blocks : List (PlacedBlock β)) (effect : JournalApplyEffect),
      Agrees { st with blocks := blocks, effects := st.effects ++ [effect] }
        { st' with blocks := blocks, effects := st'.effects ++ [effect] } :=
    fun _ _ => ⟨rfl, h.chains, h.moves, by rw [h.effects]⟩
  cases operation with
  | updateBlock blockId content =>
      unfold applyBlockOperation
      dsimp only
      rw [h.blocks]
      split
      · exact h
      · exact hwrite _ _
  | replaceBlock blockId content =>
      unfold applyBlockOperation
      dsimp only
      split
      · exact h
      · exact self.putAndDelete_congr h _ _ _ _ _ _
  | updateMedia blockId localPath caption =>
      unfold applyBlockOperation
      dsimp only
      rw [h.blocks]
      split
      · exact h
      · exact hwrite _ _
  | appendBlock parentId after content => exact h
  | moveBlock blockId after =>
      unfold applyBlockOperation
      dsimp only
      split
      · exact h
      · rw [h.chains]
        exact self.putAndDelete_congr h _ _ _ _ _ _
  | archiveBlock blockId =>
      unfold applyBlockOperation
      dsimp only
      rw [h.blocks]
      split
      · exact h
      · exact hwrite _ _
  | updateProperties entityId properties => exact self.recordEntity_congr h _ _ _
  | moveEntity entityId newParentId _ _ _ => exact self.recordEntity_congr h _ _ _
  | createEntity parentId _ _ _ _ _ _ => exact self.recordEntity_congr h _ _ _
  | createDatabase parentId _ _ _ => exact self.recordEntity_congr h _ _ _
  | archiveEntity entityId => exact self.recordEntity_congr h _ _ _
  | updateEntityBody entityId body => exact h

theorem appendAlone_congr (h : Agrees st st') (operationIndex : Nat) (parentId : RemoteId)
    (after : Option RemoteId) (content : Text) :
    SameResult (self.appendAlone operationIndex parentId after content st)
      (self.appendAlone operationIndex parentId after content st') := by
  unfold appendAlone
  dsimp only
  rw [← h.moves, ← h.chains, ← h.blocks, ← h.effects]
  split
  · exact h
  · split
    · exact h
    · exact ⟨rfl, get_append _ _ (_ :: _) h.chains, rfl, rfl⟩
  · split
    · exact h
    · split
      · exact h
      · exact ⟨rfl, get_append _ _ [_] h.chains, rfl, rfl⟩

theorem applyOneByOne_congr (operations : List PushOperation) :
    ∀ (operationIndex : Nat) (st st' : ApplyState β), Agrees st st' →
      SameResult (self.applyOneByOne operationIndex operations st)
        (self.applyOneByOne operationIndex operations st') := by
  induction operations with
  | nil => exact fun _ _ _ h => h
  | cons operation operations ih =>
      intro operationIndex st st' h
      cases operation with
      | appendBlock parentId after content =>
          exact (self.appendAlone_congr h operationIndex parentId after content).bind
            (ih (operationIndex + 1))
      | _ =>
          exact (self.applyBlockOperation_congr h operationIndex _).bind (ih (operationIndex + 1))

/-! ## Requests for one child and for several -/

theorem appendBlockChildren_singleton (parentId blockId : RemoteId) (placed : PlacedBlock β)
    (blocks : List (PlacedBlock β)) :
    appendBlockChildren parentId (some blockId) [placed] blocks =
      insertAfter (PlacedBlock.isChild parentId blockId) placed blocks :=
  insertAllAfter_singleton placed

theorem appendBlockChildren_cons {p : PlacedBlock β} {blocks : List (PlacedBlock β)}
    {parentId : RemoteId} (hparent : p.parentId = parentId)
    (hnew : ∀ other ∈ blocks, other.id ≠ p.id) (after : Option RemoteId)
    (others : List (PlacedBlock β)) :
    appendBlockChildren parentId after (p :: others) blocks =
      (appendBlockChildren parentId after [p] blocks).bind
        (appendBlockChildren parentId (some p.id) others) := by
  have hplaced : PlacedBlock.isChild parentId p.id p = true := by
    rw [PlacedBlock.isChild, decide_eq_true rfl, decide_eq_true hparent, Bool.and_self]
  cases after with
  | none =>
      symm
      exact if_pos hplaced
  | some blockId =>
      rw [appendBlockChildren_singleton]
      refine insertAllAfter_cons others hplaced fun other hother => ?_
      rw [PlacedBlock.isChild, decide_eq_false (hnew other hother), Bool.false_and]

theorem prepareChildren_singleton (parentId : RemoteId) (used : List RemoteId)
    (operationIndex : Nat) (content : Text) :
    self.prepareChildren parentId used [(operationIndex, content)] =
      match self.preserved parentId content used with
      | none => none
      | some (some (sourceId, child)) =>
          some ([⟨operationIndex, some sourceId, child⟩], sourceId :: used)
      | some none => (self.formats.parseAppendBlock operationIndex content).map fun child =>
          ([⟨operationIndex, none, child⟩], used) := by
  rw [prepareChildren]
  cases self.preserved parentId content used with
  | none => rfl
  | some found =>
      cases found with
      | some found => rfl
      | none => cases self.formats.parseAppendBlock operationIndex content <;> rfl

theorem appendChildren_singleton (operationIndex : Nat) (parentId : RemoteId)
    (after : Option RemoteId) (content : Text) (st : ApplyState β) :
    self.appendChildren parentId (normalizeAfter self.entries parentId after)
        [(operationIndex, content)] st =
      self.appendAlone operationIndex parentId after content st := by
  unfold appendChildren appendAlone
  rw [prepareChildren_singleton]
  dsimp only
  generalize (st.appendChains.get (parentId, normalizeAfter self.entries parentId after)).or
    (normalizeAfter self.entries parentId after) = anchor
  cases self.preserved parentId content st.preservedAppendArchiveMoves with
  | none => rfl
  | some found =>
      cases found with
      | some found =>
          cases anchor with
          | none => rfl
          | some blockId =>
              dsimp only
              rw [List.map_cons, List.map_nil, appendBlockChildren_singleton]
              rfl
      | none =>
          cases self.formats.parseAppendBlock operationIndex content with
          | none => rfl
          | some child =>
              cases anchor with
              | none => rfl
              | some blockId =>
                  dsimp only [Option.map_some]
                  rw [List.map_cons, List.map_nil, appendBlockChildren_singleton]
                  rfl

/-! ## Children that no archived block is preserved for -/

/-- What the contents are parsed to, for one request. -/
def parsedChildren (children : List (Nat × Text)) : Option (List (PreparedChild β)) :=
  children.mapM fun child =>
    (self.formats.parseAppendBlock child.1 child.2).map fun block => ⟨child.1, none, block⟩

def Unpreserved (parentId : RemoteId) (used : List RemoteId) (children : List (Nat × Text)) :
    Prop :=
  ∀ child ∈ children, self.preserved parentId child.2 used = some none

theorem parsedChildren_cons (child : Nat × Text) (children : List (Nat × Text)) :
    self.parsedChildren (child :: children) =
      ((self.formats.parseAppendBlock child.1 child.2).map fun block =>
        ⟨child.1, none, block⟩).bind fun first =>
          (self.parsedChildren children).map fun rest => first :: rest := by
  unfold parsedChildren
  rw [List.mapM_cons, Option.bind_eq_bind]
  congr 1
  funext first
  cases children.mapM fun child : Nat × Text =>
    (self.formats.parseAppendBlock child.1 child.2).map fun block =>
      (⟨child.1, none, block⟩ : PreparedChild β) <;> rfl

theorem prepareChildren_of_unpreserved {parentId : RemoteId} {used : List RemoteId}
    {children : List (Nat × Text)} (h : self.Unpreserved parentId used children) :
    self.prepareChildren parentId used children =
      (self.parsedChildren children).map fun prepared => (prepared, used) := by
  induction children with
  | nil => rfl
  | cons child children ih =>
      obtain ⟨operationIndex, content⟩ := child
      obtain ⟨hchild, hchildren⟩ := List.forall_mem_cons.mp h
      rw [prepareChildren, hchild, ih hchildren, parsedChildren_cons]
      cases self.formats.parseAppendBlock operationIndex content with
      | none => rfl
      | some block => cases self.parsedChildren children <;> rfl

theorem source_eq_none_of_parsed {children : List (Nat × Text)}
    {prepared : List (PreparedChild β)} (h : self.parsedChildren children = some prepared) :
    ∀ child ∈ prepared, child.preservedSourceId = none := by
  induction children generalizing prepared with
  | nil =>
      cases h
      exact fun child hchild => absurd hchild List.not_mem_nil
  | cons child children ih =>
      rw [parsedChildren_cons] at h
      obtain ⟨first, hfirst, hcons⟩ := Option.bind_eq_some_iff.mp h
      obtain ⟨block, -, rfl⟩ := Option.map_eq_some_iff.mp hfirst
      obtain ⟨rest, hrest, rfl⟩ := Option.map_eq_some_iff.mp hcons
      exact List.forall_mem_cons.mpr ⟨rfl, ih hrest⟩

/-- Where no block is preserved, only the anchor leads elsewhere. -/
theorem chainChildren_of_unpreserved {prepared : List (PreparedChild β)}
    (hnone : ∀ child ∈ prepared, child.preservedSourceId = none) (parentId : RemoteId)
    (after : Option RemoteId) (chains : AppendChains) :
    self.chainChildren parentId after prepared chains =
      match prepared.getLast? with
      | some last => ((parentId, after), self.createdId last.operationIndex) :: chains
      | none => chains := by
  have hfold : ∀ (step : AppendChains → PreparedChild β → AppendChains)
      (prepared : List (PreparedChild β)),
      (∀ child ∈ prepared, step chains child = chains) →
        prepared.foldl step chains = chains := by
    intro step prepared hprepared
    induction prepared with
    | nil => rfl
    | cons child prepared ih =>
        obtain ⟨hchild, hprepared⟩ := List.forall_mem_cons.mp hprepared
        rw [List.foldl_cons, hchild]
        exact ih hprepared
  unfold chainChildren
  dsimp only
  rw [hfold _ prepared fun child hchild => by rw [hnone child hchild]]
  all_goals rfl

/-- The request for children that are parsed. -/
def requestChildren (parentId : RemoteId) (after : Option RemoteId)
    (prepared : List (PreparedChild β)) (st : ApplyState β) : ApplyResult β :=
  match appendBlockChildren parentId ((st.appendChains.get (parentId, after)).or after)
      (prepared.map (self.placedChild parentId)) st.blocks with
  | none => .error st
  | some blocks => .ok { st with
      blocks := blocks
      appendChains := self.chainChildren parentId after prepared st.appendChains
      effects := st.effects ++ prepared.map fun child =>
        self.createdEffect parentId child.operationIndex }

theorem appendChildren_of_unpreserved {parentId : RemoteId} {children : List (Nat × Text)}
    (h : self.Unpreserved parentId st.preservedAppendArchiveMoves children)
    (after : Option RemoteId) :
    self.appendChildren parentId after children st =
      match self.parsedChildren children with
      | none => .error st
      | some prepared => self.requestChildren parentId after prepared st := by
  unfold appendChildren requestChildren
  rw [self.prepareChildren_of_unpreserved h]
  cases self.parsedChildren children <;> rfl

theorem appendChildren_error {parentId : RemoteId} {after : Option RemoteId}
    {children : List (Nat × Text)} {failed : ApplyState β}
    (h : self.appendChildren parentId after children st = .error failed) : failed = st := by
  unfold appendChildren at h
  dsimp only at h
  split at h
  · exact (Except.error.inj h).symm
  · split at h
    · exact (Except.error.inj h).symm
    · cases h

end ApplyContext

/-- Both succeed and leave states that agree, or both fail. -/
def SameOutcome : ApplyResult β → ApplyResult β → Prop
  | .ok st, .ok st' => Agrees st st'
  | .error _, .error _ => True
  | _, _ => False

namespace ApplyContext

variable (self : ApplyContext β) {st st' : ApplyState β}

/-- Children go behind their anchor as the first one goes there and the others behind it,
which is where the chains lead to after the first one. -/
theorem requestChildren_cons {parentId : RemoteId} {after : Option RemoteId}
    {child next : PreparedChild β} {children : List (PreparedChild β)}
    (hnone : ∀ prepared ∈ child :: next :: children, prepared.preservedSourceId = none)
    (hnew : ∀ placed ∈ st.blocks, placed.id ≠ self.createdId child.operationIndex) :
    SameOutcome (self.requestChildren parentId after (child :: next :: children) st)
      ((self.requestChildren parentId after [child] st).bind
        (self.requestChildren parentId after (next :: children))) := by
  have hchild : ∀ prepared ∈ [child], prepared.preservedSourceId = none :=
    List.forall_mem_singleton.mpr (hnone child List.mem_cons_self)
  have hothers := (List.forall_mem_cons.mp hnone).2
  generalize hanchor : (st.appendChains.get (parentId, after)).or after = anchor
  have hcons : appendBlockChildren parentId anchor
      ((child :: next :: children).map (self.placedChild parentId)) st.blocks =
        (appendBlockChildren parentId anchor [self.placedChild parentId child] st.blocks).bind
          (appendBlockChildren parentId (some (self.createdId child.operationIndex))
            ((next :: children).map (self.placedChild parentId))) :=
    appendBlockChildren_cons (p := self.placedChild parentId child) rfl hnew anchor
      ((next :: children).map (self.placedChild parentId))
  unfold requestChildren
  rw [hanchor, hcons, List.map_singleton, self.chainChildren_of_unpreserved hnone,
    self.chainChildren_of_unpreserved hchild]
  cases appendBlockChildren parentId anchor [self.placedChild parentId child] st.blocks with
  | none => trivial
  | some blocks =>
      -- the chain of the anchor leads to the first child
      have hchain : ((AppendChains.get (((parentId, after), self.createdId child.operationIndex) ::
          st.appendChains) (parentId, after)).or after) =
            some (self.createdId child.operationIndex) := by
        rw [get_cons, if_pos rfl, Option.some_or]
      rw [Option.bind_some]
      dsimp only [Except.bind, List.getLast?_singleton]
      rw [hchain, self.chainChildren_of_unpreserved hothers]
      rw [List.getLast?_cons_cons]
      cases hlast : (next :: children).getLast? with
      | none => exact absurd (List.getLast?_eq_none_iff.mp hlast) (List.cons_ne_nil next children)
      | some last =>
          cases appendBlockChildren parentId (some (self.createdId child.operationIndex))
              ((next :: children).map (self.placedChild parentId)) blocks with
          | none => trivial
          | some blocks =>
              refine ⟨rfl, fun key => ?_, rfl, ?_⟩
              · dsimp only
                rw [get_cons, get_cons, get_cons]
                split <;> rfl
              · dsimp only
                rw [List.append_assoc]
                rfl

theorem moves_of_requestChildren {parentId : RemoteId} {after : Option RemoteId}
    {prepared : List (PreparedChild β)}
    (h : self.requestChildren parentId after prepared st = .ok st') :
    st'.preservedAppendArchiveMoves = st.preservedAppendArchiveMoves := by
  unfold requestChildren at h
  split at h
  · cases h
  · cases h
    rfl

theorem appendChildren_cons {parentId : RemoteId} {after : Option RemoteId}
    {child next : Nat × Text} {children : List (Nat × Text)}
    (h : self.Unpreserved parentId st.preservedAppendArchiveMoves (child :: next :: children))
    (hnew : ∀ placed ∈ st.blocks, placed.id ≠ self.createdId child.1) :
    SameOutcome (self.appendChildren parentId after (child :: next :: children) st)
      ((self.appendChildren parentId after [child] st).bind
        (self.appendChildren parentId after (next :: children))) := by
  obtain ⟨hchild, hchildren⟩ := List.forall_mem_cons.mp h
  have halone : self.Unpreserved parentId st.preservedAppendArchiveMoves [child] :=
    List.forall_mem_cons.mpr ⟨hchild, fun c hc => absurd hc List.not_mem_nil⟩
  rw [self.appendChildren_of_unpreserved h, self.appendChildren_of_unpreserved halone]
  have hall := self.parsedChildren_cons child (next :: children)
  have hone := self.parsedChildren_cons child []
  cases hblock : self.formats.parseAppendBlock child.1 child.2 with
  | none =>
      rw [hblock] at hall hone
      rw [hall, hone]
      trivial
  | some block =>
      rw [hblock, Option.map_some, Option.bind_some] at hall hone
      have hone : self.parsedChildren [child] = some [⟨child.1, none, block⟩] := hone
      rw [hone]
      -- the other children are parsed the same way after the first one
      have hothers : ∀ first,
          self.requestChildren parentId after [⟨child.1, none, block⟩] st = .ok first →
            self.appendChildren parentId after (next :: children) first =
              match self.parsedChildren (next :: children) with
              | none => .error first
              | some prepared => self.requestChildren parentId after prepared first := by
        intro first hfirst
        refine self.appendChildren_of_unpreserved ?_ after
        rw [self.moves_of_requestChildren hfirst]
        exact hchildren
      cases hparsed : self.parsedChildren (next :: children) with
      | none =>
          rw [hparsed] at hall
          rw [hall]
          dsimp only [Option.map_none]
          cases hfirst : self.requestChildren parentId after [⟨child.1, none, block⟩] st with
          | error failed => trivial
          | ok first =>
              rw [Except.bind, hothers first hfirst, hparsed]
              trivial
      | some rest =>
          obtain ⟨prepared, preparedRest, rfl⟩ : ∃ prepared preparedRest,
              rest = prepared :: preparedRest := by
            rw [parsedChildren_cons] at hparsed
            obtain ⟨prepared, -, hcons⟩ := Option.bind_eq_some_iff.mp hparsed
            obtain ⟨preparedRest, -, rfl⟩ := Option.map_eq_some_iff.mp hcons
            exact ⟨prepared, preparedRest, rfl⟩
          rw [hparsed] at hall
          have hcons : SameOutcome (self.requestChildren parentId after
              (⟨child.1, none, block⟩ :: prepared :: preparedRest) st) _ :=
            self.requestChildren_cons (self.source_eq_none_of_parsed hall) hnew
          rw [hall]
          dsimp only [Option.map_some]
          cases hfirst : self.requestChildren parentId after [⟨child.1, none, block⟩] st with
          | error failed =>
              rw [hfirst] at hcons
              exact hcons
          | ok first =>
              rw [hfirst] at hcons
              rw [Except.bind, hothers first hfirst, hparsed]
              exact hcons

/-! ## What one operation adds -/

end ApplyContext

def effectIndex : JournalApplyEffect → Nat
  | .updatedBlock _ operationIndex _ | .createdBlock _ operationIndex _ _
  | .movedBlock _ operationIndex _ | .archivedBlock _ operationIndex _
  | .archivedEntity _ operationIndex _ | .updatedEntityBody _ operationIndex _
  | .updatedProperties _ operationIndex _ _ | .movedEntity _ operationIndex _ _
  | .createdEntity _ operationIndex _ _ => operationIndex

/-- The operation of an index adds at most its own block, and effects of its own. -/
structure Advances (createdId : RemoteId) (operationIndex : Nat) (st st' : ApplyState β) :
    Prop where
  blocks : ∀ placed ∈ st'.blocks,
    (∃ other ∈ st.blocks, placed.id = other.id) ∨ placed.id = createdId
  effects : ∃ added, st'.effects = st.effects ++ added ∧
    ∀ effect ∈ added, effectIndex effect = operationIndex

theorem mem_of_appendBlockChildren {parentId : RemoteId} {after : Option RemoteId}
    {children blocks blocks' : List (PlacedBlock β)}
    (h : appendBlockChildren parentId after children blocks = some blocks') :
    ∀ placed ∈ blocks', placed ∈ blocks ∨ placed ∈ children := by
  cases after with
  | none =>
      cases h
      exact fun placed hplaced => (List.mem_append.mp hplaced).symm
  | some blockId => exact fun placed hplaced => mem_of_insertAllAfter h hplaced

theorem mem_of_deleteBlock {blockId : RemoteId} {blocks blocks' : List (PlacedBlock β)}
    (h : deleteBlock blockId blocks = some blocks') : ∀ placed ∈ blocks', placed ∈ blocks := by
  obtain ⟨removed, -, hperm⟩ := perm_of_removeFirst h
  exact fun placed hplaced => hperm.mem_iff.mpr (List.mem_cons_of_mem removed hplaced)

theorem mem_of_updateBlock {blockId : RemoteId} {block : β}
    {blocks blocks' : List (PlacedBlock β)} (h : updateBlock blockId block blocks = some blocks') :
    ∀ placed ∈ blocks', ∃ other ∈ blocks, placed.id = other.id := by
  obtain ⟨updated, rest, -, hperm, hperm'⟩ := perm_of_rewriteFirst h
  intro placed hplaced
  rcases List.mem_cons.mp (hperm'.mem_iff.mp hplaced) with rfl | hrest
  · exact ⟨updated, hperm.mem_iff.mpr List.mem_cons_self, rfl⟩
  · exact ⟨placed, hperm.mem_iff.mpr (List.mem_cons_of_mem updated hrest), rfl⟩

namespace ApplyContext

variable (self : ApplyContext β) {st st' : ApplyState β}

theorem operationIndex_of_prepareChildren {parentId : RemoteId} {used used' : List RemoteId}
    {children : List (Nat × Text)} {prepared : List (PreparedChild β)}
    (h : self.prepareChildren parentId used children = some (prepared, used')) :
    prepared.map PreparedChild.operationIndex = children.map Prod.fst := by
  induction children generalizing used prepared with
  | nil =>
      cases h
      rfl
  | cons child children ih =>
      obtain ⟨operationIndex, content⟩ := child
      rw [prepareChildren] at h
      obtain ⟨found, -, hfound⟩ := Option.bind_eq_some_iff.mp h
      cases found with
      | some found =>
          obtain ⟨⟨rest, used''⟩, hrest, hcons⟩ := Option.bind_eq_some_iff.mp hfound
          cases hcons
          rw [List.map_cons, List.map_cons, ih hrest]
      | none =>
          obtain ⟨block, -, hblock⟩ := Option.bind_eq_some_iff.mp hfound
          obtain ⟨⟨rest, used''⟩, hrest, hcons⟩ := Option.bind_eq_some_iff.mp hblock
          cases hcons
          rw [List.map_cons, List.map_cons, ih hrest]

theorem appendChildren_advances {operationIndex : Nat} {parentId : RemoteId}
    {after : Option RemoteId} {content : Text}
    (h : self.appendChildren parentId after [(operationIndex, content)] st = .ok st') :
    Advances (self.createdId operationIndex) operationIndex st st' ∧
      st'.effects = st.effects ++ [self.createdEffect parentId operationIndex] := by
  unfold appendChildren at h
  dsimp only at h
  split at h
  · cases h
  · rename_i prepared used hprepared
    split at h
    · cases h
    · rename_i blocks hblocks
      have hindex := self.operationIndex_of_prepareChildren hprepared
      have heffects : (prepared.map fun child => self.createdEffect parentId child.operationIndex) =
          [self.createdEffect parentId operationIndex] := by
        have hmap := congrArg (List.map (self.createdEffect parentId)) hindex
        rw [List.map_map] at hmap
        exact hmap
      cases h
      refine ⟨⟨fun placed hplaced => ?_, _, rfl, ?_⟩, congrArg (st.effects ++ ·) heffects⟩
      · rcases mem_of_appendBlockChildren hblocks placed hplaced with hold | hchild
        · exact Or.inl ⟨placed, hold, rfl⟩
        · obtain ⟨child, hprepared, rfl⟩ := List.mem_map.mp hchild
          have hmem := List.mem_map_of_mem (f := PreparedChild.operationIndex) hprepared
          rw [hindex, List.map_singleton, List.mem_singleton] at hmem
          exact Or.inr (congrArg self.createdId hmem)
      · rw [heffects]
        exact List.forall_mem_singleton.mpr rfl

theorem putAndDelete_advances {operationIndex : Nat} {parentId blockId : RemoteId}
    {after : Option RemoteId} {chainKeys : List (RemoteId × Option RemoteId)} {child : β}
    (h : self.putAndDelete operationIndex parentId blockId after chainKeys child st = .ok st') :
    Advances (self.createdId operationIndex) operationIndex st st' := by
  unfold putAndDelete at h
  dsimp only at h
  split at h
  · cases h
  · rename_i blocks hblocks
    split at h
    · cases h
    · rename_i blocks' hblocks'
      cases h
      refine ⟨fun placed hplaced => ?_, _, List.append_assoc _ _ _, ?_⟩
      · rcases mem_of_appendBlockChildren hblocks placed
          (mem_of_deleteBlock hblocks' placed hplaced) with hold | hchild
        · exact Or.inl ⟨placed, hold, rfl⟩
        · rw [List.mem_singleton] at hchild
          subst hchild
          exact Or.inr rfl
      · exact List.forall_mem_cons.mpr ⟨rfl, List.forall_mem_singleton.mpr rfl⟩

theorem recordEntity_advances {operationIndex : Nat} {operation : PushOperation}
    {effect : RemoteId → JournalApplyEffect}
    (heffect : ∀ entityId, effectIndex (effect entityId) = operationIndex)
    (h : self.recordEntity operationIndex operation effect st = .ok st') :
    Advances (self.createdId operationIndex) operationIndex st st' := by
  unfold recordEntity at h
  split at h
  · cases h
  · rename_i entityId hcall
    cases h
    exact ⟨fun placed hplaced => Or.inl ⟨placed, hplaced, rfl⟩, _, rfl,
      List.forall_mem_singleton.mpr (heffect entityId)⟩

theorem applyBlockOperation_advances {operationIndex : Nat} {operation : PushOperation}
    (h : self.applyBlockOperation operationIndex operation st = .ok st') :
    Advances (self.createdId operationIndex) operationIndex st st' := by
  cases operation with
  | updateBlock blockId content =>
      unfold applyBlockOperation at h
      dsimp only at h
      split at h
      · cases h
      · rename_i blocks hblocks
        obtain ⟨current, -, hcurrent⟩ := Option.bind_eq_some_iff.mp hblocks
        obtain ⟨block, -, hblock⟩ := Option.bind_eq_some_iff.mp hcurrent
        cases h
        exact ⟨fun placed hplaced => Or.inl (mem_of_updateBlock hblock placed hplaced), _, rfl,
          List.forall_mem_singleton.mpr rfl⟩
  | replaceBlock blockId content =>
      unfold applyBlockOperation at h
      dsimp only at h
      split at h
      · cases h
      · exact self.putAndDelete_advances h
  | updateMedia blockId localPath caption =>
      unfold applyBlockOperation at h
      dsimp only at h
      split at h
      · cases h
      · rename_i blocks hblocks
        obtain ⟨current, -, hcurrent⟩ := Option.bind_eq_some_iff.mp hblocks
        obtain ⟨block, -, hblock⟩ := Option.bind_eq_some_iff.mp hcurrent
        cases h
        exact ⟨fun placed hplaced => Or.inl (mem_of_updateBlock hblock placed hplaced), _, rfl,
          List.forall_mem_singleton.mpr rfl⟩
  | appendBlock parentId after content => cases h
  | moveBlock blockId after =>
      unfold applyBlockOperation at h
      dsimp only at h
      split at h
      · cases h
      · exact self.putAndDelete_advances h
  | archiveBlock blockId =>
      unfold applyBlockOperation at h
      dsimp only at h
      split at h
      · cases h
      · rename_i blocks hblocks
        cases h
        exact ⟨fun placed hplaced => Or.inl ⟨placed, mem_of_deleteBlock hblocks placed hplaced, rfl⟩,
          _, rfl, List.forall_mem_singleton.mpr rfl⟩
  | updateProperties entityId properties => exact self.recordEntity_advances (fun _ => rfl) h
  | moveEntity entityId newParentId _ _ _ => exact self.recordEntity_advances (fun _ => rfl) h
  | createEntity parentId _ _ _ _ _ _ => exact self.recordEntity_advances (fun _ => rfl) h
  | createDatabase parentId _ _ _ => exact self.recordEntity_advances (fun _ => rfl) h
  | archiveEntity entityId => exact self.recordEntity_advances (fun _ => rfl) h
  | updateEntityBody entityId body => cases h

theorem appendAlone_advances {operationIndex : Nat} {parentId : RemoteId}
    {after : Option RemoteId} {content : Text}
    (h : self.appendAlone operationIndex parentId after content st = .ok st') :
    Advances (self.createdId operationIndex) operationIndex st st' ∧
      st'.effects = st.effects ++ [self.createdEffect parentId operationIndex] := by
  rw [← appendChildren_singleton] at h
  exact self.appendChildren_advances h

end ApplyContext

end Locality.Notion
