/-
  Daemon/ReconcileRun.lean --- what a scheduled pull does to the records.

  Of the store a scheduled pull changes the observations, the freshness states, and, by
  one saved record for each entry, the entities; the draft that a record takes the place
  of is retired before (`reconcileEntry_view`).  All else happens on the disk and in the
  queue.
-/
import Locality.Daemon.Reconcile
import Locality.Daemon.HydrationPage

set_option autoImplicit false

namespace Locality.Daemon

open Locality.Core Locality.Foundation Locality.Foundation.Fallible

/-! ## The records of a store -/

/-- The entities and the shadows of a store. -/
structure Records where
  entities : EntityTable
  shadows : EntityKey → Option ShadowDocument

def Store.records (self : Store) : Records := ⟨self.entities, self.shadows⟩

namespace Records

/-- A clean draft that lies at the record's path under its message id. -/
def legacyDraft (self : Records) (mount : MountConfig) (record : EntityRecord) :
    Option EntityRecord :=
  if isGmailDraft mount record.remoteId record.path then
    (self.entities.findByPath mount.mountId record.path).filter fun occupant =>
      decide (occupant.remoteId ≠ record.remoteId) && isCleanLegacyGmailDraftMessageId occupant
  else none

/-- The draft is retired, and its shadow is the record's. -/
def retire (self : Records) (mount : MountConfig) (occupant record : EntityRecord)
    (replacementFrontmatter : Text) : Records where
  entities := self.entities.delete (mount.mountId, occupant.remoteId)
  shadows :=
    Function.update
      (match self.shadows (mount.mountId, occupant.remoteId) with
        | none => self.shadows
        | some shadow => Function.update self.shadows (mount.mountId, record.remoteId)
            (some { shadow with
              entityId := record.remoteId
              frontmatter := replacementFrontmatter }))
      (mount.mountId, occupant.remoteId) none

def repaired (self : Records) (mount : MountConfig) (record : EntityRecord)
    (replacementFrontmatter : Text) : Records :=
  match self.legacyDraft mount record with
  | none => self
  | some occupant => self.retire mount occupant record replacementFrontmatter

/-- The record is saved, where its path is free. -/
def saved (self : Records) (record : EntityRecord) : Records :=
  match self.entities.save record with
  | .error _ => self
  | .ok entities => { self with entities := entities }

/-- The record of an entry. -/
def recordOf (self : Records) (preserved : List RemoteId) (entry : TreeEntry) : EntityRecord :=
  Reconcile.mergedEntityRecord entry (self.entities.get (entry.mountId, entry.remoteId))
    (preserved.contains entry.remoteId)

/-- The records after one entry. -/
def afterEntry (self : Records) (mount : MountConfig) (preserved : List RemoteId)
    (entry : TreeEntry) : Records :=
  (self.repaired mount (self.recordOf preserved entry)
    (gmailDraftReplacementFrontmatter
      { entry with path := (self.recordOf preserved entry).path })).saved
    (self.recordOf preserved entry)

/-- The path of the entry's record is free, where it is saved. -/
def Saves (self : Records) (mount : MountConfig) (preserved : List RemoteId)
    (entry : TreeEntry) : Prop :=
  (self.repaired mount (self.recordOf preserved entry)
    (gmailDraftReplacementFrontmatter
      { entry with path := (self.recordOf preserved entry).path })).entities.PathFree
    (self.recordOf preserved entry)

end Records

/-! ## What is left alone -/

section Keep

variable {η : Type} {yaml : YamlSerde} {source : ScheduledPullSource} {mount : MountConfig}

/-- The mounts, the records and the queue. -/
structure PullView (η : Type) where
  mounts : MountId → Option MountConfig
  records : Records
  engine : η

def PullView.withRecords (self : PullView η) (records : Records) : PullView η :=
  ⟨self.mounts, records, self.engine⟩

def Reconciling.view (self : Reconciling η) : PullView η :=
  ⟨self.store.mounts, self.store.records, self.engine⟩

abbrev KeepsView {α : Type} (op : ReconcileM η α) : Prop := Keeps Reconciling.view op

theorem keepsView_onDisk (describe : Text → LocalityError) (op : Disk → Except Text Disk) :
    KeepsView (onDisk describe op : ReconcileM η Unit) := by
  intro st
  unfold onDisk
  cases op st.disk with
  | error error => rfl
  | ok disk => rfl

theorem keepsView_readDisk : KeepsView (readDisk : ReconcileM η Disk) := fun _ => rfl

theorem keepsView_createDirAll (path : PathBuf) :
    KeepsView (createDirAll path : ReconcileM η Unit) := keepsView_onDisk _ _

theorem keepsView_writeProjection (path : PathBuf) (contents : Text) :
    KeepsView (writeProjection path contents : ReconcileM η Unit) := by
  unfold writeProjection
  have hwrite : KeepsView (η := η) (do
      onDisk
        (fun error => .io ("failed to write scheduled pull temp file \x60".toList ++
          displayPath (tempPath path) ++ "\x60: ".toList ++ error))
        fun disk =>
          if hfile : disk.node (tempPath path) ≠ some .directory then
            .ok (disk.without (tempPath path) fun _ hbelow hne =>
              Disk.nothing_below hbelow hne hfile)
          else .error "Is a directory (os error 21)".toList
      onDisk
        (fun error => .io ("failed to replace scheduled pull projection \x60".toList ++
          displayPath path ++ "\x60: ".toList ++ error))
        (replaceFile path contents)) :=
    Keeps.bind (keepsView_onDisk _ _) fun _ => keepsView_onDisk _ _
  cases path.parent with
  | none => exact hwrite
  | some parent => exact Keeps.bind (keepsView_createDirAll parent) fun _ => hwrite

theorem keepsView_renameProjectedPath (from_ target : PathBuf) :
    KeepsView (renameProjectedPath from_ target : ReconcileM η Unit) := by
  unfold renameProjectedPath
  refine Keeps.bind keepsView_readDisk fun disk => Keeps.ite (Keeps.of_pure ()) ?_
  cases target.parent with
  | none => exact keepsView_onDisk _ _
  | some parent => exact Keeps.bind (keepsView_createDirAll parent) fun _ => keepsView_onDisk _ _

theorem keepsView_renamePage (existingPath entryPath : PathBuf) :
    KeepsView (renamePageProjectionIfNeeded mount existingPath entryPath : ReconcileM η Unit) := by
  unfold renamePageProjectionIfNeeded
  refine Keeps.ite (Keeps.of_pure ()) (Keeps.ite (Keeps.ite ?_ ?_) ?_)
  · exact keepsView_renameProjectedPath _ _
  · exact keepsView_renameProjectedPath _ _
  · refine Keeps.bind keepsView_readDisk fun disk => ?_
    have hrest := keepsView_renameProjectedPath (η := η) (mount.root.join existingPath)
      (mount.root.join entryPath)
    simp only []
    split
    · exact Keeps.bind (keepsView_renameProjectedPath _ _) fun _ => hrest
    · split
      · exact Keeps.bind (keepsView_createDirAll _) fun _ => hrest
      · exact hrest

theorem keepsView_rename (existing : Option EntityRecord) (entry : TreeEntry) :
    KeepsView (renameProjectionIfNeeded mount existing entry : ReconcileM η Unit) := by
  unfold renameProjectionIfNeeded
  refine Keeps.ite (Keeps.of_pure ()) ?_
  cases existing with
  | none => exact Keeps.of_pure ()
  | some existing =>
      exact Keeps.ite (Keeps.of_pure ())
        (Keeps.ite (keepsView_renamePage _ _) (keepsView_renameProjectedPath _ _))

theorem keepsView_readProjection (path : PathBuf) :
    KeepsView (readProjection path : ReconcileM η Text) := by
  unfold readProjection
  refine Keeps.bind keepsView_readDisk fun disk => ?_
  split
  · exact Keeps.of_throw _
  · exact Keeps.of_throw _
  · exact Keeps.of_throw _
  · exact Keeps.of_pure _

theorem keepsView_isStubProjection (path : PathBuf) :
    KeepsView (isStubProjection yaml path : ReconcileM η Bool) := by
  unfold isStubProjection
  refine Keeps.bind (keepsView_readProjection path) fun contents => ?_
  split
  · exact Keeps.of_pure _
  · exact Keeps.of_pure _

theorem keepsView_writeSchema (directory : PathBuf) (schema : Option Text) :
    KeepsView (η := η) (match schema with
      | none => return .none
      | some schema => do
          writeProjection (directory.join schemaFilename) schema
          return ProjectionWrite.schema) := by
  cases schema with
  | none => exact Keeps.of_pure _
  | some schema =>
      exact Keeps.bind (keepsView_writeProjection _ _) fun _ => Keeps.of_pure _

theorem keepsView_refresh (entry : TreeEntry) (contentRoot : Option PathBuf) :
    KeepsView (refreshProjection yaml source mount entry contentRoot :
      ReconcileM η ProjectionWrite) := by
  unfold refreshProjection
  split
  · split
    · refine Keeps.bind keepsView_readDisk fun disk => Keeps.ite (Keeps.of_pure _) ?_
      refine Keeps.bind (Keeps.of_lift _) fun schema => ?_
      cases schema with
      | none => exact Keeps.of_pure _
      | some schema =>
          refine Keeps.bind (keepsView_createDirAll _) fun _ => ?_
          exact Keeps.bind (keepsView_writeProjection _ _) fun _ => Keeps.of_pure _
    · exact Keeps.of_pure _
  · split
    · refine Keeps.bind keepsView_readDisk fun disk => ?_
      have hrest : ∀ stub : Bool, KeepsView (η := η)
          (if (!stub) = true then pure ProjectionWrite.none
          else do
            writeProjection (mount.root.join entry.path) (stubMarkdown entry)
            pure ProjectionWrite.stub) := by
        intro stub
        refine Keeps.ite (Keeps.of_pure _) ?_
        exact Keeps.bind (keepsView_writeProjection _ _) fun _ => Keeps.of_pure _
      refine Keeps.ite ?_ ?_
      · exact Keeps.bind (keepsView_isStubProjection _) hrest
      · exact Keeps.bind (Keeps.of_pure true) hrest
    · refine Keeps.bind (keepsView_createDirAll _) fun _ => ?_
      exact Keeps.bind (Keeps.of_lift _) fun schema => keepsView_writeSchema _ schema
    · exact Keeps.bind (keepsView_createDirAll _) fun _ => Keeps.of_pure _
    · exact Keeps.of_pure _
    · exact Keeps.of_pure _

theorem keepsView_repairProjection (entry : TreeEntry) (replacementFrontmatter : Text)
    (repair : GmailDraftIdentityRepair) :
    KeepsView (repairGmailDraftProjectionAfterIdentityRepair yaml mount entry
      replacementFrontmatter repair : ReconcileM η Bool) := by
  unfold repairGmailDraftProjectionAfterIdentityRepair
  refine Keeps.ite (Keeps.of_pure _) (Keeps.ite (Keeps.of_pure _) ?_)
  refine Keeps.bind keepsView_readDisk fun disk => Keeps.ite (Keeps.of_pure _) ?_
  refine Keeps.bind (keepsView_readProjection _) fun contents => ?_
  split
  · exact Keeps.of_pure _
  · refine Keeps.ite ?_ ?_
    · split
      · exact Keeps.of_pure _
      · refine Keeps.ite ?_ (Keeps.of_pure _)
        exact Keeps.bind (keepsView_writeProjection _ _) fun _ => Keeps.of_pure _
    · split
      · refine Keeps.ite (Keeps.of_pure _) ?_
        exact Keeps.bind (keepsView_writeProjection _ _) fun _ => Keeps.of_pure _
      · exact Keeps.of_pure _

/-! ## One entry -/

/-- What the repair of a draft does to the records, and nothing else of the view. -/
theorem view_repair (record : EntityRecord) (replacementFrontmatter : Text)
    (st : Reconciling η) :
    ∃ repair st', repairLegacyGmailDraftMessageIdCollision mount record replacementFrontmatter
        st = (.ok repair, st') ∧
      st'.view = st.view.withRecords
        (st.store.records.repaired mount record replacementFrontmatter) := by
  unfold repairLegacyGmailDraftMessageIdCollision Records.repaired Records.legacyDraft
  cases isGmailDraft mount record.remoteId record.path with
  | false => exact ⟨_, st, rfl, rfl⟩
  | true =>
      simp only [Bool.not_true, Bool.false_eq_true, if_false, if_true]
      have hread : (readStore : ReconcileM η Store) st = (.ok st.store, st) := rfl
      rw [run_bind, hread]
      simp only []
      cases hfind : st.store.entities.findByPath mount.mountId record.path with
      | none =>
          refine ⟨_, st, rfl, ?_⟩
          simp only [Store.records, hfind, Option.filter_none]
          rfl
      | some occupant =>
          by_cases hsame : occupant.remoteId = record.remoteId
          · refine ⟨.empty, st, ?_, ?_⟩
            · simp only [if_pos hsame]
              rfl
            · simp only [Store.records, hfind, Option.filter_some, hsame, ne_eq,
                not_true_eq_false, decide_false, Bool.false_and, Bool.false_eq_true, if_false]
              rfl
          · cases hclean : isCleanLegacyGmailDraftMessageId occupant with
            | false =>
                refine ⟨.empty, st, ?_, ?_⟩
                · simp only [if_neg hsame, hclean, Bool.false_eq_true, if_false]
                  rfl
                · simp only [Store.records, hfind, Option.filter_some, hclean, Bool.and_false,
                    Bool.false_eq_true, if_false]
                  rfl
            | true =>
                let retired := st.store.retireLegacyDraft mount occupant record
                  replacementFrontmatter
                refine ⟨⟨some occupant, st.store.shadows (mount.mountId, occupant.remoteId)⟩,
                  { st with store := retired }, ?_, ?_⟩
                · simp only [if_neg hsame, hclean, if_true]
                  rfl
                · simp only [Store.records, hfind, Option.filter_some, ne_eq, hsame,
                    not_false_eq_true, decide_true, hclean, Bool.and_self, if_true]
                  simp only [Records.retire, Reconciling.view, retired, Store.retireLegacyDraft,
                    Store.records]
                  cases hshadow : st.store.shadows (mount.mountId, occupant.remoteId) with
                  | none => rfl
                  | some shadow => rfl

theorem view_storeEntity (record : EntityRecord) (st : Reconciling η) :
    ((storeEntity record : ReconcileM η Unit) st).2.view =
        st.view.withRecords (st.store.records.saved record) ∧
      (((storeEntity record : ReconcileM η Unit) st).1 = .ok () ↔
        st.store.entities.PathFree record) := by
  unfold storeEntity Records.saved EntityTable.save Store.records
  by_cases hfree : st.store.entities.PathFree record
  · simp only [dif_pos hfree]
    exact ⟨rfl, by simp only [hfree]⟩
  · simp only [dif_neg hfree]
    exact ⟨rfl, fun h => (by cases h), fun h => absurd h hfree⟩

/-- The request that an entry queues. -/
def entryRequest (mount : MountConfig) (entry : TreeEntry) (path : PathBuf)
    (reason : HydrationReason) : HydrationRequest where
  mountId := mount.mountId
  remoteId := entry.remoteId
  path := mount.root.join path
  targetState := .hydrated
  reason := reason

/-- What an entry leaves: its record saved, and a hydration queued or not. -/
structure EntryLeaves (engine : HydrationEngine η) (mount : MountConfig)
    (preserved : List RemoteId) (entry : TreeEntry) (before : PullView η) (succeeds : Prop)
    (after : PullView η) : Prop where
  mounts : after.mounts = before.mounts
  records : after.records = before.records.afterEntry mount preserved entry
  saves : succeeds → before.records.Saves mount preserved entry
  queue : after.engine = before.engine ∨
    ∃ reason, before.records.Saves mount preserved entry ∧
      after.engine = (engine.queue (entryRequest mount entry
        (before.records.recordOf preserved entry).path reason) before.engine).2

variable {strategy : FetchScheduleStrategy} {engine : HydrationEngine η}
  {tick : PullSchedulerTick} {policy : HydrationPolicy} {contentRoot : Option PathBuf}

/-- The records after the repair and the save of a record. -/
theorem view_saveEntity (entry : TreeEntry) (record : EntityRecord) (st : Reconciling η) :
    (saveEntityAfterGmailDraftRepair yaml mount entry record st).2.view =
        st.view.withRecords ((st.store.records.repaired mount record
          (gmailDraftReplacementFrontmatter entry)).saved record) ∧
      ∀ skip, (saveEntityAfterGmailDraftRepair yaml mount entry record st).1 = .ok skip →
        (st.store.records.repaired mount record
          (gmailDraftReplacementFrontmatter entry)).entities.PathFree record := by
  obtain ⟨repair, st₁, hrepair, hview₁⟩ := @view_repair η mount record
    (gmailDraftReplacementFrontmatter entry) st
  generalize hrepaired : st.store.records.repaired mount record
    (gmailDraftReplacementFrontmatter entry) = repaired
  rw [hrepaired] at hview₁
  have hrecords : st₁.store.records = repaired := congrArg PullView.records hview₁
  have hfree : st₁.store.entities = repaired.entities := congrArg Records.entities hrecords
  obtain ⟨hview₂, hok⟩ := @view_storeEntity η record st₁
  rw [hrecords, hview₁] at hview₂
  rw [hfree] at hok
  have hrun : saveEntityAfterGmailDraftRepair yaml mount entry record st = (do
      storeEntity record
      repairGmailDraftProjectionAfterIdentityRepair yaml mount entry
        (gmailDraftReplacementFrontmatter entry) repair : ReconcileM η Bool) st₁ := by
    unfold saveEntityAfterGmailDraftRepair
    rw [run_bind, hrepair]
  rw [hrun, run_bind]
  cases hstore : (storeEntity record : ReconcileM η Unit) st₁ with
  | mk outcome st₂ =>
      rw [hstore] at hview₂ hok
      cases outcome with
      | error error => exact ⟨hview₂, fun skip h => (nomatch h)⟩
      | ok _ => exact ⟨(keepsView_repairProjection _ _ _ st₂).trans hview₂, fun _ _ => hok.mp rfl⟩

/-- The refresh of an entry's projection, and the hydration that is queued after it. -/
theorem view_refreshAndQueue (entry : TreeEntry) (path : PathBuf) (plan : EntityFetchPlan)
    (report : ScheduledPullReport) (st : Reconciling η) :
    let after := (do
      let write ← refreshProjection yaml source mount entry contentRoot
      let report := report.afterRefresh write
      match plan.queueHydration with
      | none => return report
      | some reason =>
          queueHydration engine (entryRequest mount entry path reason)
          return { report with queuedHydrations := report.queuedHydrations + 1 } :
        ReconcileM η ScheduledPullReport) st
    after.2.view.mounts = st.view.mounts ∧ after.2.view.records = st.view.records ∧
      (after.2.view.engine = st.view.engine ∨ ∃ reason, after.2.view.engine =
        (engine.queue (entryRequest mount entry path reason) st.view.engine).2) := by
  intro after
  have hafter : after = (refreshProjection yaml source mount entry contentRoot >>= fun write =>
      (match plan.queueHydration with
      | none => pure (report.afterRefresh write)
      | some reason => do
          queueHydration engine (entryRequest mount entry path reason)
          return { report.afterRefresh write with
            queuedHydrations := (report.afterRefresh write).queuedHydrations + 1 } :
        ReconcileM η ScheduledPullReport)) st := rfl
  have hrefresh := @keepsView_refresh η yaml source mount entry contentRoot st
  rw [hafter, run_bind]
  cases hrun : (refreshProjection yaml source mount entry contentRoot :
      ReconcileM η ProjectionWrite) st with
  | mk outcome st₁ =>
      rw [hrun] at hrefresh
      cases outcome with
      | error error => exact ⟨by rw [hrefresh], by rw [hrefresh], .inl (by rw [hrefresh])⟩
      | ok write =>
          cases plan.queueHydration with
          | none =>
              exact ⟨congrArg PullView.mounts hrefresh, congrArg PullView.records hrefresh,
                .inl (congrArg PullView.engine hrefresh)⟩
          | some reason =>
              have hengine : st₁.engine = st.engine := congrArg PullView.engine hrefresh
              have hqueue : ∀ run : LocalityResult ScheduledPullReport × Reconciling η,
                  run = (do
                    queueHydration engine (entryRequest mount entry path reason)
                    return { report.afterRefresh write with
                      queuedHydrations := (report.afterRefresh write).queuedHydrations + 1 } :
                    ReconcileM η ScheduledPullReport) st₁ →
                  run.2 = { st₁ with engine :=
                    (engine.queue (entryRequest mount entry path reason) st₁.engine).2 } := by
                rintro run rfl
                rw [run_bind]
                unfold queueHydration
                cases hresult : (engine.queue (entryRequest mount entry path reason)
                  st₁.engine).1 with
                | error error => rfl
                | ok _ => rfl
              have hlast := hqueue _ rfl
              refine ⟨?_, ?_, .inr ⟨reason, ?_⟩⟩
              · exact (congrArg (fun st => st.view.mounts) hlast).trans
                  (congrArg PullView.mounts hrefresh)
              · exact (congrArg (fun st => st.view.records) hlast).trans
                  (congrArg PullView.records hrefresh)
              · have hview := congrArg (fun st => st.view.engine) hlast
                simp only [Reconciling.view, hengine] at hview
                exact hview

theorem reconcileEntry_view (preserved : List RemoteId) (pageCount : Nat) (entry : TreeEntry)
    (report : ScheduledPullReport) (st : Reconciling η) :
    EntryLeaves engine mount preserved entry st.view
      (∃ report', (reconcileEntry yaml source strategy engine tick policy contentRoot mount
        preserved pageCount entry report st).1 = .ok report')
      (reconcileEntry yaml source strategy engine tick policy contentRoot mount preserved
        pageCount entry report st).2.view := by
  generalize hrecord : st.store.records.recordOf preserved entry = record
  generalize hprojected : ({ entry with path := record.path } : TreeEntry) = projected
  have hafter : (st.store.records.repaired mount record
      (gmailDraftReplacementFrontmatter projected)).saved record =
        st.store.records.afterEntry mount preserved entry := by
    rw [Records.afterEntry, hrecord, hprojected]
  have hsaves : (st.store.records.repaired mount record
      (gmailDraftReplacementFrontmatter projected)).entities.PathFree record →
        st.store.records.Saves mount preserved entry := by
    intro hfree
    rw [Records.Saves, hrecord, hprojected]
    exact hfree
  have hrun : ∃ st₁, st₁.view = st.view ∧
      reconcileEntry yaml source strategy engine tick policy contentRoot mount preserved
        pageCount entry report st = (do
          let skip ← saveEntityAfterGmailDraftRepair yaml mount projected record
          renameProjectionIfNeeded mount
            (st.store.entities.get (entry.mountId, entry.remoteId)) projected
          if skip then return report
          else
            let write ← refreshProjection yaml source mount projected contentRoot
            let report := report.afterRefresh write
            match (if preserved.contains entry.remoteId then ⟨none⟩
                else strategy.entityPlan ⟨mount, entry,
                  st.store.entities.get (entry.mountId, entry.remoteId), pageCount, tick,
                  policy⟩ : EntityFetchPlan).queueHydration with
            | none => return report
            | some reason =>
                queueHydration engine (entryRequest mount projected record.path reason)
                return { report with queuedHydrations := report.queuedHydrations + 1 } :
            ReconcileM η ScheduledPullReport) st₁ := by
    obtain ⟨st₁, hobserve, hview₁⟩ : ∃ st', recordRemoteObservation entry
        (st.store.entities.get (entry.mountId, entry.remoteId)) (observedAtText st.nowMs) st =
          (.ok (), st') ∧ st'.view = st.view := ⟨_, rfl, rfl⟩
    refine ⟨st₁, hview₁, ?_⟩
    subst hprojected hrecord
    unfold reconcileEntry
    rw [run_bind]
    change (observationTimestamp >>= _ : ReconcileM η ScheduledPullReport) st = _
    rw [run_bind]
    change (recordRemoteObservation entry _ (observedAtText st.nowMs) >>= _ :
      ReconcileM η ScheduledPullReport) st = _
    rw [run_bind, hobserve]
    rfl
  obtain ⟨st₁, hview₁, hrun⟩ := hrun
  have hrecords : st₁.store.records = st.store.records := congrArg PullView.records hview₁
  obtain ⟨hview₂, hok⟩ := @view_saveEntity η yaml mount projected record st₁
  rw [hrecords, hview₁, hafter] at hview₂
  rw [hrecords] at hok
  rw [hrun, run_bind]
  cases hsave : (saveEntityAfterGmailDraftRepair yaml mount projected record :
      ReconcileM η Bool) st₁ with
  | mk outcome st₂ =>
      rw [hsave] at hview₂ hok
      have hsaved : ∀ succeeds : Prop, (succeeds → st.store.records.Saves mount preserved entry) →
          ∀ view : PullView η, view = st₂.view →
          EntryLeaves engine mount preserved entry st.view succeeds view := by
        rintro succeeds hsucceeds view rfl
        rw [hview₂]
        exact ⟨rfl, rfl, hsucceeds, .inl rfl⟩
      cases outcome with
      | error error =>
          exact hsaved _ (fun h => by obtain ⟨report', h⟩ := h; exact nomatch h) _ rfl
      | ok skip =>
          have hfree := hsaves (hok skip rfl)
          have hrename := @keepsView_rename η mount
            (st.store.entities.get (entry.mountId, entry.remoteId)) projected st₂
          simp only []
          rw [run_bind]
          cases hrenamed : (renameProjectionIfNeeded mount
              (st.store.entities.get (entry.mountId, entry.remoteId)) projected :
              ReconcileM η Unit) st₂ with
          | mk outcome st₃ =>
              rw [hrenamed] at hrename
              cases outcome with
              | error error => exact hsaved _ (fun _ => hfree) _ hrename
              | ok _ =>
                  cases skip with
                  | true => exact hsaved _ (fun _ => hfree) _ hrename
                  | false =>
                      obtain ⟨hmounts, hrecords', hqueue⟩ := @view_refreshAndQueue η yaml source
                        mount engine contentRoot projected record.path
                        (if preserved.contains entry.remoteId then ⟨none⟩
                          else strategy.entityPlan ⟨mount, entry,
                            st.store.entities.get (entry.mountId, entry.remoteId), pageCount,
                            tick, policy⟩) report st₃
                      have hview₃ : st₃.view =
                          st.view.withRecords (st.store.records.afterEntry mount preserved entry) :=
                        hrename.trans hview₂
                      refine ⟨hmounts.trans (by rw [hview₃]; rfl),
                        hrecords'.trans (by rw [hview₃]; rfl), fun _ => hfree, ?_⟩
                      obtain hkeep | ⟨reason, hqueue⟩ := hqueue
                      · exact .inl (hkeep.trans (by rw [hview₃]; rfl))
                      · refine .inr ⟨reason, hfree, hqueue.trans ?_⟩
                        rw [hview₃]
                        change (engine.queue (entryRequest mount projected record.path reason)
                          st.view.engine).2 = (engine.queue (entryRequest mount entry
                            (st.store.records.recordOf preserved entry).path reason)
                              st.view.engine).2
                        rw [hrecord, ← hprojected]
                        rfl

/-! ## A listing -/

/-- What the entries of a listing leave, one after the other; the last one may fail. -/
inductive EntriesLeave (engine : HydrationEngine η) (mount : MountConfig)
    (preserved : List RemoteId) : PullView η → List TreeEntry → Bool → PullView η → Prop
  | done (view : PullView η) : EntriesLeave engine mount preserved view [] true view
  | stop {view after : PullView η} {entry : TreeEntry} {entries : List TreeEntry}
      (hentry : EntryLeaves engine mount preserved entry view False after) :
      EntriesLeave engine mount preserved view (entry :: entries) false after
  | next {view after final : PullView η} {entry : TreeEntry} {entries : List TreeEntry}
      {succeeds : Bool} (hentry : EntryLeaves engine mount preserved entry view True after)
      (hentries : EntriesLeave engine mount preserved after entries succeeds final) :
      EntriesLeave engine mount preserved view (entry :: entries) succeeds final

theorem EntryLeaves.weaken {preserved : List RemoteId} {entry : TreeEntry}
    {before after : PullView η} {succeeds succeeds' : Prop}
    (h : EntryLeaves engine mount preserved entry before succeeds after)
    (hsucceeds : succeeds' → succeeds) :
    EntryLeaves engine mount preserved entry before succeeds' after :=
  ⟨h.mounts, h.records, fun h' => h.saves (hsucceeds h'), h.queue⟩

/-- What every entry of the listing preserves holds after the listing. -/
theorem EntriesLeave.invariant {preserved : List RemoteId} {entries : List TreeEntry}
    {before after : PullView η} {succeeds : Bool} {P : PullView η → Prop}
    (h : EntriesLeave engine mount preserved before entries succeeds after)
    (hstep : ∀ entry ∈ entries, ∀ view view', P view →
      EntryLeaves engine mount preserved entry view False view' → P view')
    (hbefore : P before) : P after := by
  induction h with
  | done view => exact hbefore
  | stop hentry => exact hstep _ (List.mem_cons_self) _ _ hbefore hentry
  | next hentry hentries ih =>
      refine ih (fun entry hmem => hstep entry (List.mem_cons_of_mem _ hmem)) ?_
      exact hstep _ (List.mem_cons_self) _ _ hbefore (hentry.weaken False.elim)

def isOk {α : Type} : LocalityResult α → Bool
  | .ok _ => true
  | .error _ => false

theorem reconcileEntries_leave (preserved : List RemoteId) (pageCount : Nat)
    (entries : List TreeEntry) (report : ScheduledPullReport) (st : Reconciling η) :
    EntriesLeave engine mount preserved st.view entries
      (isOk (reconcileEntries yaml source strategy engine tick policy contentRoot mount preserved
        pageCount entries report st).1)
      (reconcileEntries yaml source strategy engine tick policy contentRoot mount preserved
        pageCount entries report st).2.view := by
  induction entries generalizing report st with
  | nil => exact .done _
  | cons entry entries ih =>
      have hentry := @reconcileEntry_view η yaml source mount strategy engine tick policy
        contentRoot preserved pageCount entry report st
      unfold reconcileEntries
      rw [run_bind]
      cases hrun : (reconcileEntry yaml source strategy engine tick policy contentRoot mount
          preserved pageCount entry report : ReconcileM η ScheduledPullReport) st with
      | mk outcome st' =>
          rw [hrun] at hentry
          cases outcome with
          | error error => exact .stop (hentry.weaken False.elim)
          | ok report' => exact .next (hentry.weaken fun _ => ⟨report', rfl⟩) (ih report' st')

/-- A scheduled pull of one mount that is enumerated leaves what its entries leave. -/
theorem reconcileScheduledPull_leaves {entries : List TreeEntry} {st : Reconciling η}
    (henumerate : (strategy.mountPlan ⟨mount, tick, policy⟩).enumerate = true)
    (hentries : source.enumerateMount mount = .ok entries) :
    EntriesLeave engine mount (remoteMovePlan st.store mount entries) st.view entries
      (isOk (reconcileScheduledPullWithStateRoot yaml source strategy engine tick policy
        contentRoot [mount] st).1)
      (reconcileScheduledPullWithStateRoot yaml source strategy engine tick policy contentRoot
        [mount] st).2.view := by
  have hrun : ∃ report, reconcileScheduledPullWithStateRoot yaml source strategy engine tick
      policy contentRoot [mount] st =
        reconcileEntries yaml source strategy engine tick policy contentRoot mount
          (remoteMovePlan st.store mount entries)
          (entries.filter fun entry => decide (entry.kind = .page)).length entries report st := by
    unfold reconcileScheduledPullWithStateRoot reconcileMounts
    simp only [henumerate, Bool.not_true, Bool.false_eq_true, if_false, hentries]
    rw [run_bind, run_lift]
    simp only [reconcileListing, reconcileMounts, bind_assoc]
    rw [run_bind]
    have hread : (readStore : ReconcileM η Store) st = (.ok st.store, st) := rfl
    simp only [hread, bind_pure]
    exact ⟨_, rfl⟩
  obtain ⟨report, hrun⟩ := hrun
  rw [hrun]
  exact reconcileEntries_leave _ _ _ _ _

/-- A mount that is not enumerated is left as it is. -/
theorem reconcileScheduledPull_idle {st : Reconciling η}
    (henumerate : (strategy.mountPlan ⟨mount, tick, policy⟩).enumerate = false) :
    (reconcileScheduledPullWithStateRoot yaml source strategy engine tick policy contentRoot
      [mount] st).2 = st := by
  unfold reconcileScheduledPullWithStateRoot reconcileMounts
  simp only [henumerate, Bool.not_false, if_true]
  rfl

/-! ## Records after an entry -/

theorem Records.get_saved {records : Records} {record : EntityRecord} {key : EntityKey} :
    (records.saved record).entities.get key =
      if key = record.key ∧ records.entities.PathFree record then some record
      else records.entities.get key := by
  unfold Records.saved
  by_cases hfree : records.entities.PathFree record
  · have hsave : records.entities.save record = .ok (records.entities.insert record hfree) :=
      dif_pos hfree
    simp only [hsave]
    by_cases hkey : key = record.key
    · rw [if_pos ⟨hkey, hfree⟩, hkey]
      exact AList.lookup_insert _
    · rw [if_neg fun h => hkey h.1]
      exact AList.lookup_insert_ne hkey
  · have hsave : records.entities.save record =
        .error (.duplicateEntityPath record.mountId record.path) := dif_neg hfree
    rw [hsave, if_neg fun h => hfree h.2]

/-- The draft that an entry retires: it lies at the record's path, under a clean message
id. -/
structure RetiredDraft (mount : MountConfig) (records : Records) (record occupant : EntityRecord) :
    Prop where
  stored : records.entities.get occupant.key = some occupant
  mounted : occupant.mountId = mount.mountId
  placed : occupant.path = record.path
  draft : isGmailDraft mount record.remoteId record.path = true
  clean : isCleanLegacyGmailDraftMessageId occupant = true
  other : occupant.remoteId ≠ record.remoteId

theorem legacyDraft_eq_some {records : Records} {record occupant : EntityRecord}
    (h : records.legacyDraft mount record = some occupant) :
    RetiredDraft mount records record occupant := by
  unfold Records.legacyDraft at h
  split at h
  · rename_i hdraft
    obtain ⟨hfind, hwhere⟩ := Option.filter_eq_some_iff.mp h
    simp only [Bool.and_eq_true, decide_eq_true_eq] at hwhere
    obtain ⟨hget, hmount, hpath⟩ := EntityTable.findByPath_eq_some.mp hfind
    exact ⟨hget, hmount, hpath, hdraft, hwhere.2, hwhere.1⟩
  · cases h

/-- An entity is there after the repair, unless it is the draft that was retired. -/
theorem get_repaired {records : Records} {record : EntityRecord} {frontmatter : Text}
    {key : EntityKey} :
    (records.repaired mount record frontmatter).entities.get key = records.entities.get key ∨
      (records.repaired mount record frontmatter).entities.get key = none ∧
        ∃ occupant, RetiredDraft mount records record occupant ∧ occupant.key = key := by
  unfold Records.repaired
  cases hlegacy : records.legacyDraft mount record with
  | none => exact .inl rfl
  | some occupant =>
      have hretired := legacyDraft_eq_some hlegacy
      have hkey : occupant.key = (mount.mountId, occupant.remoteId) := by
        rw [EntityRecord.key, hretired.mounted]
      by_cases hsame : key = (mount.mountId, occupant.remoteId)
      · refine .inr ⟨?_, occupant, hretired, hkey.trans hsame.symm⟩
        rw [hsame]
        exact EntityTable.get_delete _ _
      · exact .inl (EntityTable.get_delete_ne _ hsame)

theorem Records.key_recordOf {records : Records} {preserved : List RemoteId}
    {entry : TreeEntry} :
    (records.recordOf preserved entry).key = (entry.mountId, entry.remoteId) := by
  unfold Records.recordOf Reconcile.mergedEntityRecord
  cases records.entities.get (entry.mountId, entry.remoteId) with
  | none => rfl
  | some existing => rfl

/-- The entity of the entry after it: its record, where its path was free. -/
theorem Records.get_afterEntry_self {records : Records} {preserved : List RemoteId}
    {entry : TreeEntry} :
    (records.afterEntry mount preserved entry).entities.get (entry.mountId, entry.remoteId) =
        some (records.recordOf preserved entry) ∧ records.Saves mount preserved entry ∨
      (records.afterEntry mount preserved entry).entities.get (entry.mountId, entry.remoteId) =
        records.entities.get (entry.mountId, entry.remoteId) ∧
        ¬ records.Saves mount preserved entry := by
  unfold Records.afterEntry Records.Saves
  rw [Records.get_saved, Records.key_recordOf]
  generalize gmailDraftReplacementFrontmatter
    { entry with path := (records.recordOf preserved entry).path } = frontmatter
  by_cases hfree : (records.repaired mount (records.recordOf preserved entry)
      frontmatter).entities.PathFree (records.recordOf preserved entry)
  · rw [if_pos ⟨rfl, hfree⟩]
    exact .inl ⟨rfl, hfree⟩
  · rw [if_neg fun h => hfree h.2]
    refine .inr ⟨?_, hfree⟩
    obtain hsame | ⟨-, occupant, hretired, hkey⟩ := @get_repaired mount records
      (records.recordOf preserved entry) frontmatter (entry.mountId, entry.remoteId)
    · exact hsame
    · have hid : (records.recordOf preserved entry).remoteId = entry.remoteId :=
        congrArg Prod.snd Records.key_recordOf
      exact absurd ((congrArg Prod.snd hkey).trans hid.symm) hretired.other

/-- Another entity after the entry: it is as it was, or it was a draft that is retired. -/
theorem Records.get_afterEntry_other {records : Records} {preserved : List RemoteId}
    {entry : TreeEntry} {key : EntityKey} (hkey : key ≠ (entry.mountId, entry.remoteId)) :
    (records.afterEntry mount preserved entry).entities.get key = records.entities.get key ∨
      (records.afterEntry mount preserved entry).entities.get key = none ∧
        ∃ occupant, RetiredDraft mount records (records.recordOf preserved entry) occupant ∧
          occupant.key = key := by
  unfold Records.afterEntry
  rw [Records.get_saved, Records.key_recordOf, if_neg fun h => hkey h.1]
  exact get_repaired

end Keep

end Locality.Daemon
