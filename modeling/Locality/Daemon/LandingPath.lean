/-
  Daemon/LandingPath.lean --- where queued hydrations land, in runs of scheduled pulls,
  queued requests and drains.

  A request carries its own copy of the path.  The copy leads to the stored path of the
  entity as long as every request is queued with a path that does, and no entry gives
  its entity another path while a request for it waits (`LandingStep.Meets`).

  What a merge has kept is compared with a ledger of the requests that came in for an
  entity since its last one was taken out.
-/
import Locality.Daemon.HydrationFrame
import Locality.Daemon.HydrationQueue
import Locality.Daemon.RecordOperations
import Locality.Daemon.RemoteMoves

set_option autoImplicit false

namespace Locality.Daemon

open Locality.Core Locality.Foundation Locality.Foundation.Fallible

/-! ## States -/

/-- The queue, the requests that were taken out of it and not yet hydrated, and the
ledger beside them. -/
structure Landing where
  mounts : MountId → Option MountConfig
  records : Records
  queue : HydrationQueue
  held : List HydrationRequest
  since : KeyedQueue.Ledger EntityKey HydrationRequest

instance (records : Records) (mount : MountConfig) (preserved : List RemoteId)
    (entry : TreeEntry) : Decidable (records.Saves mount preserved entry) :=
  inferInstanceAs (Decidable (EntityTable.PathFree _ _))

inductive LandingStep where
  | queueRequest (request : HydrationRequest)
  | popReady
  | takeTarget (mountId : MountId) (remoteId : RemoteId)
  | removeTargetWithReason (mountId : MountId) (remoteId : RemoteId) (reason : HydrationReason)
  /-- One entry of a listing, and why a hydration is queued for it. -/
  | listed (mount : MountConfig) (preserved : List RemoteId) (entry : TreeEntry)
      (reason : Option HydrationReason)
  /-- A request that was taken out is hydrated, and leaves the records. -/
  | hydrated (request : HydrationRequest) (after : Records) (requeued : Bool)

namespace Landing

/-- Nothing is queued. -/
def start (mounts : MountId → Option MountConfig) (records : Records) : Landing :=
  ⟨mounts, records, .new, [], fun _ => []⟩

def view (self : Landing) : PullView HydrationQueue := ⟨self.mounts, self.records, self.queue⟩

def queued (self : Landing) (request : HydrationRequest) : Landing :=
  { self with
    queue := (self.queue.queueRequest request).2
    since := self.since.push HydrationRequest.key request }

/-- A request is out of the queue, where there was one. -/
def taken (self : Landing) (found : Option HydrationRequest × HydrationQueue) : Landing :=
  match found.1 with
  | none => self
  | some request =>
      { self with
        queue := found.2
        held := request :: self.held
        since := self.since.remove request.key }

def step (self : Landing) : LandingStep → Landing
  | .queueRequest request => self.queued request
  | .popReady => self.taken self.queue.popReady
  | .takeTarget mountId remoteId => self.taken (self.queue.takeTarget mountId remoteId)
  | .removeTargetWithReason mountId remoteId reason =>
      if (self.queue.removeTargetWithReason mountId remoteId reason).1 then
        { self with
          queue := (self.queue.removeTargetWithReason mountId remoteId reason).2
          since := self.since.remove (mountId, remoteId) }
      else self
  | .listed mount preserved entry reason =>
      let listed := { self with records := self.records.afterEntry mount preserved entry }
      match reason with
      | none => listed
      | some reason =>
          if self.records.Saves mount preserved entry then
            listed.queued (entryRequest mount entry
              (self.records.recordOf preserved entry).path reason)
          else listed
  | .hydrated request after requeued =>
      let hydrated := { self with records := after, held := self.held.erase request }
      if requeued then hydrated.queued request else hydrated

def run (self : Landing) (steps : List LandingStep) : Landing := steps.foldl step self

theorem run_append (self : Landing) (steps steps' : List LandingStep) :
    self.run (steps ++ steps') = (self.run steps).run steps' := List.foldl_append

/-- The request waits in the queue, or was taken out of it. -/
def Outstanding (self : Landing) (request : HydrationRequest) : Prop :=
  self.queue.pending.lookup request.key = some request ∨ request ∈ self.held

/-- The request's file is the one at the path below the root of its mount. -/
def Leads (self : Landing) (request : HydrationRequest) (path : PathBuf) : Prop :=
  ∀ mount, self.mounts request.mountId = some mount →
    requestPath mount request.path = mount.root.join path

end Landing

/-! ## The condition on a step -/

/-- A request is queued with a path that leads where its entity is stored; and an entry
that is saved puts its entity where the outstanding requests for it lead.  An entry that
queues a request names its mount, whose root is absolute. -/
def LandingStep.Meets (st : Landing) : LandingStep → Prop
  | .queueRequest request =>
      ∀ entity, st.records.entities.get request.key = some entity → st.Leads request entity.path
  | .listed mount preserved entry reason =>
      st.records.Saves mount preserved entry →
        (∀ request, st.Outstanding request → request.key = entry.key →
          st.Leads request (st.records.recordOf preserved entry).path) ∧
        (reason ≠ none → entry.mountId = mount.mountId ∧ mount.root.absolute = true)
  | .popReady | .takeTarget _ _ | .removeTargetWithReason _ _ _ | .hydrated _ _ _ => True

/-- Every step of the list meets the condition in the state that it is taken in. -/
def Landing.MeetsAll : Landing → List LandingStep → Prop
  | _, [] => True
  | st, step :: steps => step.Meets st ∧ (st.step step).MeetsAll steps

theorem Landing.meetsAll_append {st : Landing} {steps steps' : List LandingStep} :
    st.MeetsAll (steps ++ steps') ↔ st.MeetsAll steps ∧ (st.run steps).MeetsAll steps' := by
  induction steps generalizing st with
  | nil => exact ⟨fun h => ⟨trivial, h⟩, And.right⟩
  | cons step steps ih =>
      constructor
      · rintro ⟨hstep, hsteps⟩
        exact ⟨⟨hstep, (ih.mp hsteps).1⟩, (ih.mp hsteps).2⟩
      · rintro ⟨⟨hstep, hsteps⟩, hsteps'⟩
        exact ⟨hstep, ih.mpr ⟨hsteps, hsteps'⟩⟩

/-! ## Runs -/

/-- The steps of a round that took the entries, each with what was queued for it. -/
def roundSteps (mount : MountConfig) (preserved : List RemoteId)
    (taken : List (TreeEntry × Option HydrationReason)) : List LandingStep :=
  taken.map fun entry => .listed mount preserved entry.1 entry.2

/-- A scheduled pull of the mount that took the entries. -/
structure Round (yaml : YamlSerde) (mount : MountConfig) (before : Landing)
    (taken : List (TreeEntry × Option HydrationReason)) (st : Reconciling HydrationQueue)
    (source : ScheduledPullSource) (strategy : FetchScheduleStrategy) (tick : PullSchedulerTick)
    (policy : HydrationPolicy) (contentRoot : Option PathBuf) (entries : List TreeEntry) :
    Prop where
  mounted : before.mounts mount.mountId = some mount
  starts : st.view = before.view
  listing : taken ≠ [] → source.enumerateMount mount = .ok entries
  takes : taken.map Prod.fst <+: entries
  ends : (reconcileScheduledPullWithStateRoot yaml source strategy HydrationQueue.engine tick
      policy contentRoot [mount] st).2.view =
    (before.run (roundSteps mount (remoteMovePlan st.store mount entries) taken)).view

section Runs

variable (yaml : YamlSerde) (mounts : MountId → Option MountConfig) (records : Records)

/-- The runs from the records, with nothing queued, and the steps that they take. -/
inductive LandingRun : List LandingStep → Landing → Prop
  | start : LandingRun [] (.start mounts records)
  | queueRequest {steps : List LandingStep} {reached : Landing} (request : HydrationRequest)
      (hrun : LandingRun steps reached) :
      LandingRun (steps ++ [.queueRequest request]) (reached.step (.queueRequest request))
  | popReady {steps : List LandingStep} {reached : Landing} (hrun : LandingRun steps reached) :
      LandingRun (steps ++ [.popReady]) (reached.step .popReady)
  | takeTarget {steps : List LandingStep} {reached : Landing} (mountId : MountId)
      (remoteId : RemoteId) (hrun : LandingRun steps reached) :
      LandingRun (steps ++ [.takeTarget mountId remoteId])
        (reached.step (.takeTarget mountId remoteId))
  | removeTargetWithReason {steps : List LandingStep} {reached : Landing} (mountId : MountId)
      (remoteId : RemoteId) (reason : HydrationReason) (hrun : LandingRun steps reached) :
      LandingRun (steps ++ [.removeTargetWithReason mountId remoteId reason])
        (reached.step (.removeTargetWithReason mountId remoteId reason))
  | reconcile {steps : List LandingStep} {reached : Landing} {mount : MountConfig}
      {taken : List (TreeEntry × Option HydrationReason)} {st : Reconciling HydrationQueue}
      {source : ScheduledPullSource} {strategy : FetchScheduleStrategy}
      {tick : PullSchedulerTick} {policy : HydrationPolicy} {contentRoot : Option PathBuf}
      {entries : List TreeEntry} (hrun : LandingRun steps reached)
      (hround : Round yaml mount reached taken st source strategy tick policy contentRoot
        entries) :
      LandingRun (steps ++ roundSteps mount (remoteMovePlan st.store mount entries) taken)
        (reached.run (roundSteps mount (remoteMovePlan st.store mount entries) taken))
  | hydrate {steps : List LandingStep} {reached : Landing} {request : HydrationRequest}
      (source : HydrationSource) (outputRoot : Option PathBuf) (durable : Durable) (nowMs : Nat)
      {requeued : Bool} (hrun : LandingRun steps reached) (hheld : request ∈ reached.held)
      (hmounts : durable.store.mounts = reached.mounts)
      (hrecords : durable.store.records = reached.records)
      (hrequeued : requeued = true → ∃ error, (hydrateRequest yaml source outputRoot request
        (Host.running durable nowMs)).1 = .error error) :
      LandingRun
        (steps ++ [.hydrated request (hydrateRequest yaml source outputRoot request
          (Host.running durable nowMs)).2.records requeued])
        (reached.step (.hydrated request (hydrateRequest yaml source outputRoot request
          (Host.running durable nowMs)).2.records requeued))

end Runs

/-! ## What a run keeps -/

/-- The queue is well formed, and every outstanding request leads where its entity is. -/
structure Landing.InPlace (st : Landing) : Prop where
  wellFormed : st.queue.WellFormed
  leads : ∀ request, st.Outstanding request →
    ∀ entity, st.records.entities.get request.key = some entity → st.Leads request entity.path

/-- The queued requests have the highest priority and the strongest target of what came
in for their entities since the last one was taken out. -/
structure Landing.HoldsStrongest (st : Landing) : Prop where
  wellFormed : st.queue.WellFormed
  priority : st.queue.Attains HydrationRequest.priority st.since
  target : st.queue.Attains HydrationRequest.targetRank st.since

section Keep

variable {st : Landing} {request : HydrationRequest}

/-- A request that is outstanding after another came in was so before, or it is the one
that came in, or the merge of the two. -/
theorem outstanding_queued {incoming : HydrationRequest}
    (h : (st.queued incoming).Outstanding request) :
    st.Outstanding request ∨ request = incoming ∨
      ∃ existing, st.Outstanding existing ∧ existing.key = incoming.key ∧
        request = mergeHydrationRequest existing incoming := by
  obtain hpending | hheld := h
  · have hlookup := (@KeyedQueue.lookup_push _ _ _ _ mergeHydrationRequest st.queue incoming
      request.key).symm.trans hpending
    split at hlookup
    · rename_i hkey
      refine .inr ?_
      cases hexisting : st.queue.pending.lookup incoming.key with
      | none =>
          rw [hexisting] at hlookup
          exact .inl (Option.some.inj hlookup).symm
      | some existing =>
          rw [hexisting] at hlookup
          have hmerged := (Option.some.inj hlookup).symm
          have hsame : existing.key = incoming.key := by
            rw [← hkey, hmerged, key_merge]
          exact .inr ⟨existing, .inl (hsame ▸ hexisting), hsame, hmerged⟩
    · exact .inl (.inl hlookup)
  · exact .inl (.inr hheld)

theorem mountId_of_key {request' : HydrationRequest} (h : request.key = request'.key) :
    request.mountId = request'.mountId := congrArg Prod.fst h

/-- A request of one path and one mount leads where another one leads. -/
theorem Landing.Leads.congr {request' : HydrationRequest} {path : PathBuf}
    (h : st.Leads request path) (hmount : request'.mountId = request.mountId)
    (hpath : request'.path = request.path) : st.Leads request' path := by
  intro mount hget
  rw [hpath]
  exact h mount (hmount ▸ hget)

theorem inPlace_queued (hst : st.InPlace)
    (hleads : ∀ entity, st.records.entities.get request.key = some entity →
      st.Leads request entity.path) : (st.queued request).InPlace where
  wellFormed := HydrationQueue.wellFormed_queueRequest hst.wellFormed request
  leads := by
    intro other hother entity hget
    obtain hold | rfl | ⟨existing, hexisting, hkey, rfl⟩ := outstanding_queued hother
    · exact hst.leads other hold entity hget
    · exact hleads entity hget
    · rw [key_merge] at hget
      have hmount : (mergeHydrationRequest existing request).mountId = existing.mountId :=
        mountId_of_key (key_merge existing request)
      obtain hpath | hpath := path_merge existing request
      · exact (hst.leads existing hexisting entity hget).congr hmount hpath
      · exact (hleads entity (hkey ▸ hget)).congr (hmount.trans (mountId_of_key hkey)) hpath

/-- What is known of a request that is taken out of the queue. -/
structure TakesOut (st : Landing) (found : Option HydrationRequest × HydrationQueue) : Prop where
  takes : ∀ request, found.1 = some request →
    st.queue.pending.lookup request.key = some request ∧
      KeyedQueue.Removes st.queue request.key found.2

theorem takesOut_popReady (hwell : st.queue.WellFormed) :
    TakesOut st st.queue.popReady := by
  refine ⟨fun request hrequest => ?_⟩
  obtain ⟨-, hnone⟩ | ⟨key, item, after, hnext, hremoves, hpop⟩ :=
    KeyedQueue.pop_cases hwell HydrationRequest.priority
  · exact nomatch (congrArg Prod.fst hnone).symm.trans hrequest
  · have hitem : item = request :=
      Option.some.inj ((congrArg Prod.fst hpop).symm.trans hrequest)
    have hkey : request.key = key := hitem ▸ hwell.keyed key item hnext.held
    rw [show st.queue.popReady = (some item, after) from hpop, hkey]
    exact ⟨hitem ▸ hnext.held, hremoves⟩

theorem takesOut_takeTarget (hwell : st.queue.WellFormed) (mountId : MountId)
    (remoteId : RemoteId) : TakesOut st (st.queue.takeTarget mountId remoteId) := by
  refine ⟨fun request hrequest => ?_⟩
  have hlookup : st.queue.pending.lookup (mountId, remoteId) = some request := by
    unfold HydrationQueue.takeTarget KeyedQueue.remove at hrequest
    cases hheld : st.queue.pending.lookup (mountId, remoteId) with
    | none =>
        rw [hheld] at hrequest
        exact nomatch hrequest
    | some held =>
        rw [hheld] at hrequest
        exact hrequest
  have hkey : request.key = (mountId, remoteId) := hwell.keyed _ _ hlookup
  rw [hkey]
  exact ⟨hlookup, KeyedQueue.removes_remove hwell _⟩

/-- What waits after a key was removed waited before. -/
theorem lookup_of_removes {after : HydrationQueue} {key : EntityKey}
    (hremoves : KeyedQueue.Removes st.queue key after) {other : EntityKey}
    (h : after.pending.lookup other = some request) :
    st.queue.pending.lookup other = some request := by
  rw [hremoves.lookup] at h
  split at h
  · exact nomatch h
  · exact h

theorem inPlace_taken {found : Option HydrationRequest × HydrationQueue} (hst : st.InPlace)
    (hfound : TakesOut st found) : (st.taken found).InPlace := by
  obtain ⟨outcome, after⟩ := found
  cases outcome with
  | none => exact hst
  | some taken =>
      obtain ⟨hpending, hremoves⟩ := hfound.takes taken rfl
      refine ⟨hst.wellFormed.removes hremoves, fun request hrequest => ?_⟩
      have hbefore : st.Outstanding request := by
        obtain hwaits | hheld := hrequest
        · exact .inl (lookup_of_removes hremoves hwaits)
        · obtain rfl | hheld := List.mem_cons.mp hheld
          · exact .inl hpending
          · exact .inr hheld
      exact hst.leads request hbefore

theorem requestPath_join {mount : MountConfig} (hroot : mount.root.absolute = true)
    (path : PathBuf) : requestPath mount (mount.root.join path) = mount.root.join path := by
  have habsolute : (mount.root.join path).absolute = true := by
    unfold PathBuf.join
    split
    · assumption
    · exact hroot
  rw [requestPath, if_pos habsolute]

/-- An entry that meets the condition keeps every request in place. -/
theorem inPlace_listed {mount : MountConfig} {preserved : List RemoteId} {entry : TreeEntry}
    {reason : Option HydrationReason} (hst : st.InPlace)
    (hmounted : st.mounts mount.mountId = some mount)
    (hmeets : (LandingStep.listed mount preserved entry reason).Meets st) :
    (st.step (.listed mount preserved entry reason)).InPlace := by
  generalize hlisted : ({ st with records := st.records.afterEntry mount preserved entry } :
    Landing) = listed
  have hkept : listed.InPlace := by
    subst hlisted
    refine ⟨hst.wellFormed, fun request hrequest entity hget => ?_⟩
    by_cases hkey : request.key = (entry.mountId, entry.remoteId)
    · rw [hkey] at hget
      obtain ⟨hself, hsaves⟩ | ⟨hself, -⟩ :=
        @Records.get_afterEntry_self mount st.records preserved entry
      · rw [hself] at hget
        cases hget
        exact (hmeets hsaves).1 request hrequest hkey
      · rw [hself, ← hkey] at hget
        exact hst.leads request hrequest entity hget
    · obtain hother | ⟨hgone, -⟩ :=
        @Records.get_afterEntry_other mount st.records preserved entry _ hkey
      · rw [hother] at hget
        exact hst.leads request hrequest entity hget
      · cases hgone.symm.trans hget
  cases reason with
  | none =>
      subst hlisted
      exact hkept
  | some reason =>
      simp only [Landing.step, hlisted]
      split
      · rename_i hsaves
        apply inPlace_queued hkept
        intro entity hget other hother
        have hself : listed.records.entities.get (entry.mountId, entry.remoteId) =
            some (st.records.recordOf preserved entry) := by
          obtain ⟨hself, -⟩ | ⟨-, hnot⟩ :=
            @Records.get_afterEntry_self mount st.records preserved entry
          · rw [← hlisted]
            exact hself
          · exact absurd hsaves hnot
        obtain ⟨hentry, habsolute⟩ := (hmeets hsaves).2 (Option.some_ne_none _)
        have hkey : (entryRequest mount entry (st.records.recordOf preserved entry).path
            reason).key = (entry.mountId, entry.remoteId) := by
          rw [hentry]
          rfl
        rw [hkey, hself] at hget
        cases hget
        have hmount : other = mount := by
          rw [← hlisted] at hother
          exact Option.some.inj (hother.symm.trans hmounted)
        rw [hmount]
        exact requestPath_join habsolute _
      · exact hkept

/-- What is so of one entry is so of every entry of a round. -/
theorem inPlace_round {mount : MountConfig} {preserved : List RemoteId}
    {taken : List (TreeEntry × Option HydrationReason)} (hst : st.InPlace)
    (hmounted : st.mounts mount.mountId = some mount)
    (hmeets : st.MeetsAll (roundSteps mount preserved taken)) :
    (st.run (roundSteps mount preserved taken)).InPlace := by
  induction taken generalizing st with
  | nil => exact hst
  | cons entry taken ih =>
      have hmounts : (st.step (.listed mount preserved entry.1 entry.2)).mounts = st.mounts := by
        simp only [Landing.step]
        cases entry.2 with
        | none => rfl
        | some reason =>
            dsimp only
            split <;> rfl
      exact ih (inPlace_listed hst hmounted hmeets.1) (hmounts ▸ hmounted) hmeets.2

/-- Records that keep the paths keep every request in place. -/
theorem inPlace_hydrated {after : Records} {requeued : Bool} (hst : st.InPlace)
    (hheld : request ∈ st.held)
    (hafter : ∀ key entity, after.entities.get key = some entity →
      ∃ before, st.records.entities.get key = some before ∧ before.path = entity.path) :
    (st.step (.hydrated request after requeued)).InPlace := by
  have hleads : ∀ other, st.Outstanding other → ∀ entity,
      after.entities.get other.key = some entity → st.Leads other entity.path := by
    intro other hother entity hget
    obtain ⟨before, hbefore, hpath⟩ := hafter _ _ hget
    exact hpath ▸ hst.leads other hother before hbefore
  have hkept : ({ st with records := after, held := st.held.erase request } :
      Landing).InPlace := by
    refine ⟨hst.wellFormed, fun other hother => hleads other ?_⟩
    obtain hwaits | hother := hother
    · exact .inl hwaits
    · exact .inr (List.mem_of_mem_erase hother)
  cases requeued with
  | false => exact hkept
  | true => exact inPlace_queued hkept (hleads request (.inr hheld))

/-! ## The ledger -/

theorem holdsStrongest_queued (hst : st.HoldsStrongest) (request : HydrationRequest) :
    (st.queued request).HoldsStrongest where
  wellFormed := HydrationQueue.wellFormed_queueRequest hst.wellFormed request
  priority := hst.priority.push priority_merge request
  target := hst.target.push targetRank_merge request

theorem holdsStrongest_taken {found : Option HydrationRequest × HydrationQueue}
    (hst : st.HoldsStrongest) (hfound : TakesOut st found) : (st.taken found).HoldsStrongest := by
  obtain ⟨outcome, after⟩ := found
  cases outcome with
  | none => exact hst
  | some taken =>
      obtain ⟨-, hremoves⟩ := hfound.takes taken rfl
      exact ⟨hst.wellFormed.removes hremoves, hst.priority.removes hremoves,
        hst.target.removes hremoves⟩

/-- A request that is removed for its reason is taken out for good. -/
theorem removes_withReason (hwell : st.queue.WellFormed) {mountId : MountId}
    {remoteId : RemoteId} {reason : HydrationReason}
    (h : (st.queue.removeTargetWithReason mountId remoteId reason).1 = true) :
    KeyedQueue.Removes st.queue (mountId, remoteId)
      (st.queue.removeTargetWithReason mountId remoteId reason).2 := by
  unfold HydrationQueue.removeTargetWithReason at h ⊢
  split at h
  · exact nomatch h
  · rename_i hreason
    rw [if_neg hreason]
    exact KeyedQueue.removes_remove hwell _

/-- No step loses the strongest of the requests. -/
theorem holdsStrongest_step (hst : st.HoldsStrongest) (step : LandingStep) :
    (st.step step).HoldsStrongest := by
  cases step with
  | queueRequest request => exact holdsStrongest_queued hst request
  | popReady => exact holdsStrongest_taken hst (takesOut_popReady hst.wellFormed)
  | takeTarget mountId remoteId =>
      exact holdsStrongest_taken hst (takesOut_takeTarget hst.wellFormed mountId remoteId)
  | removeTargetWithReason mountId remoteId reason =>
      simp only [Landing.step]
      split
      · rename_i hremoved
        have hremoves := removes_withReason hst.wellFormed hremoved
        exact ⟨hst.wellFormed.removes hremoves, hst.priority.removes hremoves,
          hst.target.removes hremoves⟩
      · exact hst
  | listed mount preserved entry reason =>
      simp only [Landing.step]
      have hlisted : ({ st with records := st.records.afterEntry mount preserved entry } :
          Landing).HoldsStrongest := ⟨hst.wellFormed, hst.priority, hst.target⟩
      cases reason with
      | none => exact hlisted
      | some reason =>
          dsimp only
          split
          · exact holdsStrongest_queued hlisted _
          · exact hlisted
  | hydrated request after requeued =>
      simp only [Landing.step]
      have hhydrated : ({ st with records := after, held := st.held.erase request } :
          Landing).HoldsStrongest := ⟨hst.wellFormed, hst.priority, hst.target⟩
      split
      · exact holdsStrongest_queued hhydrated request
      · exact hhydrated

theorem holdsStrongest_run (hst : st.HoldsStrongest) (steps : List LandingStep) :
    (st.run steps).HoldsStrongest := by
  induction steps generalizing st with
  | nil => exact hst
  | cons step steps ih => exact ih (holdsStrongest_step hst step)

end Keep

/-! ## Runs -/

section Run

variable {yaml : YamlSerde} {mounts : MountId → Option MountConfig} {records : Records}
  {steps : List LandingStep} {reached : Landing}

/-- The steps of a run lead to the state that it reached. -/
theorem LandingRun.reached_eq (hrun : LandingRun yaml mounts records steps reached) :
    (Landing.start mounts records).run steps = reached := by
  induction hrun with
  | start => rfl
  | queueRequest _ _ ih => rw [Landing.run_append, ih]; rfl
  | popReady _ ih => rw [Landing.run_append, ih]; rfl
  | takeTarget _ _ _ ih => rw [Landing.run_append, ih]; rfl
  | removeTargetWithReason _ _ _ _ ih => rw [Landing.run_append, ih]; rfl
  | reconcile _ _ ih => rw [Landing.run_append, ih]
  | hydrate _ _ _ _ _ _ _ _ _ ih => rw [Landing.run_append, ih]; rfl

theorem landingRun_holdsStrongest (hrun : LandingRun yaml mounts records steps reached) :
    reached.HoldsStrongest := by
  rw [← hrun.reached_eq]
  exact holdsStrongest_run ⟨KeyedQueue.wellFormed_empty, KeyedQueue.attains_empty,
    KeyedQueue.attains_empty⟩ steps

/-- In a run whose steps all meet the condition, every request leads where its entity is
stored. -/
theorem landingRun_inPlace (hrun : LandingRun yaml mounts records steps reached)
    (hmeets : (Landing.start mounts records).MeetsAll steps) : reached.InPlace := by
  induction hrun with
  | start =>
      refine ⟨KeyedQueue.wellFormed_empty, fun request hrequest => ?_⟩
      obtain hwaits | hheld := hrequest
      · exact nomatch (AList.lookup_empty _).symm.trans hwaits
      · exact nomatch hheld
  | queueRequest request hrun ih =>
      obtain ⟨hbefore, hstep⟩ := Landing.meetsAll_append.mp hmeets
      rw [hrun.reached_eq] at hstep
      exact inPlace_queued (ih hbefore) hstep.1
  | popReady hrun ih =>
      have hst := ih (Landing.meetsAll_append.mp hmeets).1
      exact inPlace_taken hst (takesOut_popReady hst.wellFormed)
  | takeTarget mountId remoteId hrun ih =>
      have hst := ih (Landing.meetsAll_append.mp hmeets).1
      exact inPlace_taken hst (takesOut_takeTarget hst.wellFormed mountId remoteId)
  | removeTargetWithReason mountId remoteId reason hrun ih =>
      have hst := ih (Landing.meetsAll_append.mp hmeets).1
      simp only [Landing.step]
      split
      · rename_i hremoved
        have hremoves := removes_withReason hst.wellFormed hremoved
        refine ⟨hst.wellFormed.removes hremoves, fun request hrequest => ?_⟩
        obtain hwaits | hheld := hrequest
        · exact hst.leads request (.inl (lookup_of_removes hremoves hwaits))
        · exact hst.leads request (.inr hheld)
      · exact hst
  | reconcile hrun hround ih =>
      obtain ⟨hbefore, hsteps⟩ := Landing.meetsAll_append.mp hmeets
      rw [hrun.reached_eq] at hsteps
      exact inPlace_round (ih hbefore) hround.mounted hsteps
  | hydrate source outputRoot durable nowMs hrun hheld hmounts hrecords hrequeued ih =>
      have hst := ih (Landing.meetsAll_append.mp hmeets).1
      refine inPlace_hydrated hst hheld fun key entity hget => ?_
      obtain ⟨before, hbefore, hpath⟩ := hydrateRequest_path hget
      refine ⟨before, ?_, hpath⟩
      rw [← hrecords]
      exact hbefore

/-- Whatever a hydration of an outstanding request writes, merges into or removes lies
at the path that is stored for the entity. -/
def Landing.HydratesInPlace (st : Landing) : Prop :=
  ∀ (yaml : YamlSerde) (source : HydrationSource) (outputRoot : Option PathBuf)
    (request : HydrationRequest) (host : Host), st.Outstanding request →
    host.durable.store.mounts = st.mounts → host.durable.store.records = st.records →
    ∀ path, (hydrateRequest yaml source outputRoot request host).2.durable.files path ≠
        host.durable.files path →
      ∃ mount entity, st.mounts request.mountId = some mount ∧
        st.records.entities.get request.key = some entity ∧ path = mount.root.join entity.path

/-- Every entity has at most one request, which is listed once; it has the highest
priority and the strongest target of those that came in since the last was taken out. -/
def Landing.KeepsStrongest (st : Landing) : Prop :=
  st.queue.WellFormed ∧
    ∀ key request, st.queue.pending.lookup key = some request →
      (∀ earlier ∈ st.since key, earlier.priority ≤ request.priority ∧
        earlier.targetRank ≤ request.targetRank) ∧
      (∃ earlier ∈ st.since key, earlier.priority = request.priority) ∧
      ∃ earlier ∈ st.since key, earlier.targetState = request.targetState

theorem hydratesInPlace_of_inPlace {st : Landing} (hst : st.InPlace) : st.HydratesInPlace := by
  intro yaml source outputRoot request host hrequest hmounts hrecords path hpath
  obtain hsame | ⟨-, mount, entity, hmount, hentity⟩ :=
    @hydrateRequest_found yaml source request outputRoot host
  · rw [hsame] at hpath
    exact absurd rfl hpath
  · have hstored : st.records.entities.get request.key = some entity := by
      rw [← hrecords]
      exact hentity
    have hmounted : st.mounts request.mountId = some mount := hmounts ▸ hmount
    refine ⟨mount, entity, hmounted, hstored, ?_⟩
    rw [← hst.leads request hrequest entity hstored mount hmounted]
    by_contra hother
    exact hpath (files_of_beside (hydrateRequest_beside hmount) hother)

theorem keepsStrongest_of_holds {st : Landing} (hst : st.HoldsStrongest) : st.KeepsStrongest := by
  refine ⟨hst.wellFormed, fun key request hrequest => ?_⟩
  have hpriority := hst.priority key
  have htarget := hst.target key
  rw [hrequest] at hpriority htarget
  obtain ⟨⟨first, hfirst, hsame⟩, hbound⟩ := hpriority
  obtain ⟨⟨strongest, hstrongest, hrank⟩, hbound'⟩ := htarget
  refine ⟨fun earlier hearlier => ⟨hbound ⟨earlier, hearlier, rfl⟩,
    hbound' ⟨earlier, hearlier, rfl⟩⟩, ⟨first, hfirst, hsame⟩, strongest, hstrongest, ?_⟩
  exact hydrationTargetRank_injective hrank

/-! ## Pulls as steps -/

/-- What one entry leaves is what a step leaves. -/
theorem view_of_entryLeaves {mount : MountConfig} {preserved : List RemoteId}
    {entry : TreeEntry} {st : Landing} {after : PullView HydrationQueue}
    (h : EntryLeaves HydrationQueue.engine mount preserved entry st.view False after) :
    ∃ reason, (st.step (.listed mount preserved entry reason)).view = after := by
  obtain ⟨afterMounts, afterRecords, afterQueue⟩ := after
  obtain ⟨hmounts, hrecords, -, hkeep | ⟨reason, hsaves, hqueue⟩⟩ := h
  · refine ⟨none, ?_⟩
    cases hmounts
    cases hrecords
    cases hkeep
    rfl
  · refine ⟨some reason, ?_⟩
    cases hmounts
    cases hrecords
    cases hqueue
    have hsaves' : st.records.Saves mount preserved entry := hsaves
    simp only [Landing.step, if_pos hsaves']
    rfl

theorem taken_of_entriesLeave {mount : MountConfig} {preserved : List RemoteId}
    {entries : List TreeEntry} {succeeds : Bool} {before after : PullView HydrationQueue}
    (h : EntriesLeave HydrationQueue.engine mount preserved before entries succeeds after)
    {st : Landing} (hst : st.view = before) :
    ∃ taken : List (TreeEntry × Option HydrationReason), taken.map Prod.fst <+: entries ∧
      (st.run (roundSteps mount preserved taken)).view = after := by
  induction h generalizing st with
  | done view => exact ⟨[], List.nil_prefix, hst⟩
  | @stop view after entry entries hentry =>
      subst hst
      obtain ⟨reason, hview⟩ := view_of_entryLeaves hentry
      exact ⟨[(entry, reason)], List.prefix_append [entry] entries, hview⟩
  | @next view after final entry entries succeeds hentry hentries ih =>
      subst hst
      obtain ⟨reason, hview⟩ := view_of_entryLeaves (hentry.weaken False.elim)
      obtain ⟨taken, htaken, hfinal⟩ := ih hview
      exact ⟨(entry, reason) :: taken, List.prefix_cons_inj entry |>.mpr htaken, hfinal⟩

/-- Every scheduled pull of a mount is a round. -/
theorem exists_round {mount : MountConfig} {st : Reconciling HydrationQueue}
    {source : ScheduledPullSource} {strategy : FetchScheduleStrategy} {tick : PullSchedulerTick}
    {policy : HydrationPolicy} {contentRoot : Option PathBuf} {before : Landing}
    (hmounted : before.mounts mount.mountId = some mount) (hst : st.view = before.view) :
    ∃ taken entries, Round yaml mount before taken st source strategy tick policy contentRoot
      entries := by
  cases henumerate : (strategy.mountPlan ⟨mount, tick, policy⟩).enumerate with
  | false =>
      refine ⟨[], [], hmounted, hst, fun h => absurd rfl h, List.nil_prefix, ?_⟩
      rw [reconcileScheduledPull_idle henumerate]
      exact hst
  | true =>
      cases hentries : source.enumerateMount mount with
      | error error =>
          refine ⟨[], [], hmounted, hst, fun h => absurd rfl h, List.nil_prefix, ?_⟩
          have hrun : (reconcileScheduledPullWithStateRoot yaml source strategy
              HydrationQueue.engine tick policy contentRoot [mount] st).2 = st := by
            unfold reconcileScheduledPullWithStateRoot reconcileMounts
            simp only [henumerate, Bool.not_true, Bool.false_eq_true, if_false, hentries]
            rw [run_bind, run_lift]
          rw [hrun]
          exact hst
      | ok entries =>
          obtain ⟨taken, htaken, hview⟩ := taken_of_entriesLeave
            (@reconcileScheduledPull_leaves _ yaml source mount strategy HydrationQueue.engine
              tick policy contentRoot entries st henumerate hentries) hst.symm
          exact ⟨taken, entries, hmounted, hst, fun _ => hentries, htaken, hview.symm⟩

/-- In every run the queue keeps the strongest requests; and where all the steps of the
run meet the condition, hydrations land where the entities are stored. -/
theorem landingRun_lands (hrun : LandingRun yaml mounts records steps reached) :
    ((Landing.start mounts records).MeetsAll steps → reached.HydratesInPlace) ∧
      reached.KeepsStrongest :=
  ⟨fun hmeets => hydratesInPlace_of_inPlace (landingRun_inPlace hrun hmeets),
    keepsStrongest_of_holds (landingRun_holdsStrongest hrun)⟩

end Run

/-! ## A page that moves while its request waits -/

section Moved

def stubbedPages : EntityTable :=
  EntityTable.empty.insert (wikiPage ['a'] [['A'], "page.md".toList] .stub) (by decide +kernel)

/-- The page was opened where it is stored. -/
def openRequest : HydrationRequest where
  mountId := wikiMount.mountId
  remoteId := ⟨['a']⟩
  path := wikiMount.root.join (.relative [['A'], "page.md".toList])
  targetState := .hydrated
  reason := .fileOpen

def stubbedLanding : Landing :=
  .start (wikiStore stubbedPages).mounts (wikiStore stubbedPages).records

def openedWiki : Reconciling HydrationQueue where
  store := wikiStore stubbedPages
  disk := .empty
  engine := (HydrationQueue.new.queueRequest openRequest).2
  nowMs := 0

/-- The page was moved remotely, and the mount was pulled. -/
def movedWiki : Reconciling HydrationQueue :=
  (reconcileScheduledPullWithStateRoot noYaml (.listing movedListing)
    defaultFetchScheduleStrategy HydrationQueue.engine ⟨true, false⟩ wikiPolicy none [wikiMount]
    openedWiki).2

/-- A connector that renders the page. -/
def wikiSource : HydrationSource :=
  .answering (.ok ⟨⟨[], "a\n".toList⟩, ⟨⟨['a']⟩, [], [], [], []⟩, none, []⟩)

def movedHost : Host :=
  Host.running ⟨movedWiki.store, fun _ => none, fun _ => none, [], fun _ => none⟩ 0

theorem openRequest_leads : (LandingStep.queueRequest openRequest).Meets stubbedLanding := by
  intro entity hget mount hmount
  have hentity : entity = wikiPage ['a'] [['A'], "page.md".toList] .stub :=
    (Option.some.inj ((AList.lookup_insert _).symm.trans hget)).symm
  have hmounted : mount = wikiMount := (Option.some.inj hmount).symm
  rw [hentity, hmounted]
  decide +kernel

theorem movedWiki_waits : movedWiki.engine.pending.lookup openRequest.key = some openRequest := by
  decide +kernel

theorem movedWiki_path : (movedWiki.store.entities.get openRequest.key).map EntityRecord.path =
    some (.relative [['Z'], "page.md".toList]) := by
  decide +kernel

theorem movedHost_writes : ((hydrateRequest noYaml wikiSource none openRequest
    movedHost).2.durable.files openRequest.path).isSome = true := by
  decide +kernel

/-- A page is opened where it lies, moves in the next pull, and is then written where it
was. -/
theorem hydration_misses_move :
    ∃ steps reached, LandingRun noYaml (wikiStore stubbedPages).mounts
        (wikiStore stubbedPages).records (.queueRequest openRequest :: steps) reached ∧
      (LandingStep.queueRequest openRequest).Meets stubbedLanding ∧
      ¬ reached.HydratesInPlace := by
  have hqueued := LandingRun.queueRequest openRequest
    (@LandingRun.start noYaml (wikiStore stubbedPages).mounts (wikiStore stubbedPages).records)
  obtain ⟨taken, entries, hround⟩ := @exists_round noYaml wikiMount openedWiki
    (.listing movedListing) defaultFetchScheduleStrategy ⟨true, false⟩ wikiPolicy none
    (stubbedLanding.step (.queueRequest openRequest)) rfl rfl
  have hrun := hqueued.reconcile hround
  have hview : movedWiki.view = _ := hround.ends
  refine ⟨_, _, hrun, openRequest_leads, ?_⟩
  change ¬ ((stubbedLanding.step (.queueRequest openRequest)).run
    (roundSteps wikiMount (remoteMovePlan openedWiki.store wikiMount entries)
      taken)).HydratesInPlace
  generalize (stubbedLanding.step (.queueRequest openRequest)).run
    (roundSteps wikiMount (remoteMovePlan openedWiki.store wikiMount entries) taken) = reached
    at hview ⊢
  have hwaits := movedWiki_waits
  have hpath := movedWiki_path
  have hwrites := movedHost_writes
  unfold movedHost at hwrites
  generalize movedWiki = moved at *
  intro hlands
  have hrequest : reached.Outstanding openRequest := by
    refine .inl ?_
    rw [show reached.queue = moved.engine from (congrArg PullView.engine hview).symm]
    exact hwaits
  have hwritten := hlands noYaml wikiSource none openRequest
    (Host.running ⟨moved.store, fun _ => none, fun _ => none, [], fun _ => none⟩ 0) hrequest
    (congrArg PullView.mounts hview) (congrArg PullView.records hview) openRequest.path
    (fun hsame => by rw [hsame] at hwrites; exact nomatch hwrites)
  obtain ⟨mount, entity, hmount, hentity, hplace⟩ := hwritten
  have hstored : moved.store.entities.get openRequest.key = some entity := by
    rw [show reached.records = moved.store.records from
      (congrArg PullView.records hview).symm] at hentity
    exact hentity
  rw [hstored] at hpath
  have hmoved : entity.path = .relative [['Z'], "page.md".toList] := Option.some.inj hpath
  rw [hmoved] at hplace
  have hlast : openRequest.path.components = mount.root.components ++ [['Z'], "page.md".toList] :=
    congrArg PathBuf.components hplace
  -- the directory that the page lies in
  have hdirectory := congrArg (fun components => components.reverse[1]?) hlast
  rw [List.reverse_append] at hdirectory
  have hbefore : openRequest.path.components.reverse[1]? = some ['A'] := by decide
  exact absurd (hbefore.symm.trans hdirectory) (by simp)

theorem landingRun_lands_opened :
    (stubbedLanding.step (.queueRequest openRequest)).HydratesInPlace ∧
      (stubbedLanding.step (.queueRequest openRequest)).KeepsStrongest := by
  obtain ⟨hlands, hkeeps⟩ := landingRun_lands (LandingRun.queueRequest openRequest
    (@LandingRun.start noYaml (wikiStore stubbedPages).mounts (wikiStore stubbedPages).records))
  exact ⟨hlands ⟨openRequest_leads, trivial⟩, hkeeps⟩

end Moved

end Locality.Daemon
