/-
  Daemon/QueueDrain.lean --- what `drain_queue` does to the queue and to the pages.

  One round of the loop takes the next request out and hydrates it, or stops at an error
  with the request queued again.
-/
import Locality.Daemon.LandingPath

set_option autoImplicit false

namespace Locality.Daemon

open Locality.Core Locality.Foundation

section Drain

variable {yaml : YamlSerde} {source : HydrationSource} {outputRoot : Option PathBuf}
  {fuel : Nat} {report : HydrationDrainReport} {st : Draining}

/-- A round that takes a request out of the queue. -/
structure PopsOne (before : HydrationQueue) (request : HydrationRequest) (after : HydrationQueue) :
    Prop where
  next : KeyedQueue.IsNext HydrationRequest.priority before request.key request
  removes : KeyedQueue.Removes before request.key after
  popped : before.popReady = (some request, after)

/-- The loop ends at an empty queue or at an error, or goes on behind a request. -/
theorem drainRounds_cases (hwell : st.queue.WellFormed) :
    (∀ key, st.queue.pending.lookup key = none) ∧
        drainRounds yaml source outputRoot (fuel + 1) report st = (.ok report, st) ∨
      ∃ request after, PopsOne st.queue request after ∧
        ((∃ error host, hydrateRequest yaml source outputRoot request st.host =
            (.error error, host) ∧
          drainRounds yaml source outputRoot (fuel + 1) report st =
            (.error error, ⟨host, (after.queueRequest request).2⟩)) ∨
        ∃ outcome host, hydrateRequest yaml source outputRoot request st.host =
            (.ok outcome, host) ∧
          drainRounds yaml source outputRoot (fuel + 1) report st =
            drainRounds yaml source outputRoot fuel (report.count outcome) ⟨host, after⟩) := by
  obtain ⟨hnone, hpop⟩ | ⟨key, request, after, hnext, hremoves, hpop⟩ :=
    KeyedQueue.pop_cases hwell HydrationRequest.priority
  · refine .inl ⟨hnone, ?_⟩
    rw [drainRounds, show st.queue.popReady = (none, st.queue) from hpop]
  · obtain rfl : request.key = key := hwell.keyed _ _ hnext.held
    have hpopped : st.queue.popReady = (some request, after) := hpop
    refine .inr ⟨request, after, ⟨hnext, hremoves, hpopped⟩, ?_⟩
    rw [drainRounds, hpopped]
    dsimp only [drainRequest]
    cases hhydrated : hydrateRequest yaml source outputRoot request st.host with
    | mk outcome host =>
        cases outcome with
        | error error => exact .inl ⟨error, host, rfl, rfl⟩
        | ok outcome => exact .inr ⟨outcome, host, rfl, rfl⟩

theorem PopsOne.length_lt {before after : HydrationQueue} {request : HydrationRequest}
    (hwell : before.WellFormed) (h : PopsOne before request after) :
    after.order.length < before.order.length := by
  refine lt_of_le_of_ne h.removes.sublist.length_le fun hlength => ?_
  have hlisted : request.key ∈ before.order :=
    (hwell.listed _).mpr (by rw [h.next.held]; exact Option.some_ne_none _)
  rw [← h.removes.sublist.eq_of_length hlength] at hlisted
  exact ((h.removes.mem _).mp hlisted).1 rfl

/-- The loop has rounds enough: where it ends without an error, nothing is queued. -/
theorem drainRounds_empties {report' : HydrationDrainReport} {st' : Draining}
    (hwell : st.queue.WellFormed) (hfuel : st.queue.order.length ≤ fuel)
    (h : drainRounds yaml source outputRoot fuel report st = (.ok report', st')) (key : EntityKey) :
    st'.queue.pending.lookup key = none := by
  induction fuel generalizing report st with
  | zero =>
      cases h
      by_contra hkey
      have hlisted := (hwell.listed key).mpr hkey
      rw [List.length_eq_zero_iff.mp (Nat.le_zero.mp hfuel)] at hlisted
      cases hlisted
  | succ fuel ih =>
      obtain ⟨hnone, hends⟩ | ⟨request, after, hpops, ⟨error, host, -, hends⟩ |
        ⟨outcome, host, -, hends⟩⟩ := @drainRounds_cases yaml source outputRoot fuel report st hwell
      · rw [hends] at h
        cases h
        exact hnone key
      · rw [hends] at h
        cases congrArg Prod.fst h
      · rw [hends] at h
        have hshorter := hpops.length_lt hwell
        exact ih (hwell.removes hpops.removes) (Nat.le_of_lt_succ (hshorter.trans_le hfuel)) h

/-- The requests are hydrated one after the other, up to the first that fails. -/
def hydrateAll (yaml : YamlSerde) (source : HydrationSource) (outputRoot : Option PathBuf) :
    List HydrationRequest → HydrationDrainReport → Host →
      LocalityResult HydrationDrainReport × Host
  | [], report, host => (.ok report, host)
  | request :: rest, report, host =>
      match hydrateRequest yaml source outputRoot request host with
      | (.error error, host) => (.error error, host)
      | (.ok outcome, host) =>
          hydrateAll yaml source outputRoot rest (report.count outcome) host

theorem drainRounds_inTurn (hwell : st.queue.WellFormed) (hfuel : st.queue.order.length ≤ fuel) :
    ((drainRounds yaml source outputRoot fuel report st).1,
        (drainRounds yaml source outputRoot fuel report st).2.host) =
      hydrateAll yaml source outputRoot (st.queue.inTurn HydrationRequest.priority) report
        st.host := by
  induction fuel generalizing report st with
  | zero =>
      rw [KeyedQueue.inTurn, List.length_eq_zero_iff.mp (Nat.le_zero.mp hfuel)]
      rfl
  | succ fuel ih =>
      obtain ⟨hnone, hends⟩ | ⟨request, after, hpops, hround⟩ :=
        @drainRounds_cases yaml source outputRoot fuel report st hwell
      · rw [hends, KeyedQueue.inTurn, List.filterMap_eq_nil_iff.mpr fun key _ => hnone key]
        rfl
      · rw [KeyedQueue.inTurn_next hwell hpops.next hpops.removes, hydrateAll]
        obtain ⟨error, host, hhydrated, hends⟩ | ⟨outcome, host, hhydrated, hends⟩ := hround
        · rw [hends, hhydrated]
        · rw [hends, hhydrated]
          have hshorter := hpops.length_lt hwell
          exact ih (hwell.removes hpops.removes) (Nat.le_of_lt_succ (hshorter.trans_le hfuel))

/-- What the engine may do to its queue. -/
inductive QueueStep : HydrationQueue → HydrationQueue → Prop
  | queueRequest (self : HydrationQueue) (request : HydrationRequest) :
      QueueStep self (self.queueRequest request).2
  | popReady (self : HydrationQueue) : QueueStep self self.popReady.2
  | drainReady (self : HydrationQueue) : QueueStep self self.drainReady.2
  | takeTarget (self : HydrationQueue) (mountId : MountId) (remoteId : RemoteId) :
      QueueStep self (self.takeTarget mountId remoteId).2
  | removeTarget (self : HydrationQueue) (mountId : MountId) (remoteId : RemoteId) :
      QueueStep self (self.removeTarget mountId remoteId).2
  | removeTargetWithReason (self : HydrationQueue) (mountId : MountId) (remoteId : RemoteId)
      (reason : HydrationReason) :
      QueueStep self (self.removeTargetWithReason mountId remoteId reason).2

theorem QueueStep.wellFormed {before after : HydrationQueue} (h : QueueStep before after)
    (hwell : before.WellFormed) : after.WellFormed := by
  have hremoved := fun key => hwell.removes (KeyedQueue.removes_remove hwell key)
  cases h with
  | queueRequest request => exact HydrationQueue.wellFormed_queueRequest hwell request
  | popReady =>
      obtain ⟨-, hpop⟩ | ⟨_, _, _, -, hremoves, hpop⟩ :=
        KeyedQueue.pop_cases hwell HydrationRequest.priority
      · rwa [HydrationQueue.popReady, hpop]
      · rw [HydrationQueue.popReady, hpop]
        exact hwell.removes hremoves
  | drainReady => exact KeyedQueue.wellFormed_empty
  | takeTarget mountId remoteId => exact hremoved _
  | removeTarget mountId remoteId => exact hremoved _
  | removeTargetWithReason mountId remoteId reason =>
      unfold HydrationQueue.removeTargetWithReason
      split
      · exact hwell
      · exact hremoved _

/-- Whatever a drain writes or removes is at the path of a request that waited, whose
mount and entity are stored; no other record changes, and no mount. -/
structure ChangesQueued (queue : HydrationQueue) (before after : Durable) : Prop where
  mounts : after.store.mounts = before.store.mounts
  files : ∀ path, after.files path ≠ before.files path →
    ∃ request mount entity, queue.pending.lookup request.key = some request ∧
      before.store.mounts request.mountId = some mount ∧
      before.store.entities.get request.key = some entity ∧
      requestPath mount request.path = path
  entities : ∀ key, after.store.entities.get key ≠ before.store.entities.get key →
    ∃ request, queue.pending.lookup key = some request

theorem changesQueued_refl (queue : HydrationQueue) (durable : Durable) :
    ChangesQueued queue durable durable where
  mounts := rfl
  files := fun _ h => absurd rfl h
  entities := fun _ h => absurd rfl h

/-- A request that was taken out changes its own page, and the record of its entity. -/
theorem changesQueued_hydrate {before after : HydrationQueue} {request : HydrationRequest}
    (hpops : PopsOne before request after) (host : Host) :
    ChangesQueued before host.durable
        (hydrateRequest yaml source outputRoot request host).2.durable ∧
      ∀ key, key ≠ request.key →
        (hydrateRequest yaml source outputRoot request host).2.durable.store.entities.get key =
          host.durable.store.entities.get key := by
  obtain hsame | ⟨-, mount, entity, hmount, hentity⟩ :=
    @hydrateRequest_found yaml source request outputRoot host
  · rw [hsame]
    exact ⟨changesQueued_refl before host.durable, fun _ _ => rfl⟩
  · have hbeside := @hydrateRequest_beside mount yaml source request outputRoot host hmount
    refine ⟨⟨mounts_hydrateRequest host, fun path hpath => ?_, fun key hkey => ?_⟩,
      fun key hkey => get_of_beside hbeside hkey⟩
    · refine ⟨request, mount, entity, hpops.next.held, hmount, hentity, ?_⟩
      by_contra hother
      exact hpath (files_of_beside hbeside (Ne.symm hother))
    · by_contra hnone
      refine hkey (get_of_beside hbeside ?_)
      rintro rfl
      exact hnone ⟨request, hpops.next.held⟩

/-- The rounds behind one that took a request out. -/
theorem ChangesQueued.trans {before after : HydrationQueue} {request : HydrationRequest}
    {first second third : Durable} (hpops : PopsOne before request after)
    (h : ChangesQueued before first second) (h' : ChangesQueued after second third)
    (hothers : ∀ key, key ≠ request.key →
      second.store.entities.get key = first.store.entities.get key) :
    ChangesQueued before first third := by
  have hwaited : ∀ {key found}, after.pending.lookup key = some found →
      key ≠ request.key ∧ before.pending.lookup key = some found := by
    intro key found hfound
    rw [hpops.removes.lookup] at hfound
    split at hfound
    · cases hfound
    · rename_i hkey
      exact ⟨hkey, hfound⟩
  refine ⟨h'.mounts.trans h.mounts, fun path hpath => ?_, fun key hkey => ?_⟩
  · by_cases hlater : third.files path = second.files path
    · rw [hlater] at hpath
      exact h.files path hpath
    · obtain ⟨later, mount, entity, hlookup, hmount, hentity, hplace⟩ := h'.files path hlater
      obtain ⟨hkey, hlookup⟩ := hwaited hlookup
      rw [h.mounts] at hmount
      rw [hothers _ hkey] at hentity
      exact ⟨later, mount, entity, hlookup, hmount, hentity, hplace⟩
  · by_cases hlater : third.store.entities.get key = second.store.entities.get key
    · rw [hlater] at hkey
      exact h.entities key hkey
    · obtain ⟨later, hlookup⟩ := h'.entities key hlater
      exact ⟨later, (hwaited hlookup).2⟩

theorem changesQueued_rounds (hwell : st.queue.WellFormed) :
    ChangesQueued st.queue st.host.durable
      (drainRounds yaml source outputRoot fuel report st).2.host.durable := by
  induction fuel generalizing report st with
  | zero => exact changesQueued_refl _ _
  | succ fuel ih =>
      obtain ⟨-, hends⟩ | ⟨request, after, hpops, ⟨error, host, hhydrated, hends⟩ |
        ⟨outcome, host, hhydrated, hends⟩⟩ :=
          @drainRounds_cases yaml source outputRoot fuel report st hwell
      · rw [hends]
        exact changesQueued_refl _ _
      · rw [hends]
        have hfirst := (@changesQueued_hydrate yaml source outputRoot _ _ _ hpops st.host).1
        rw [hhydrated] at hfirst
        exact hfirst
      · rw [hends]
        obtain ⟨hfirst, hothers⟩ :=
          @changesQueued_hydrate yaml source outputRoot _ _ _ hpops st.host
        rw [hhydrated] at hfirst hothers
        have hrest := @ih (report.count outcome) ⟨host, after⟩ (hwell.removes hpops.removes)
        exact hfirst.trans hpops hrest hothers

end Drain

/-! ## Drains in runs -/

section Run

variable {yaml : YamlSerde} {source : HydrationSource} {outputRoot : Option PathBuf}
  {mounts : MountId → Option MountConfig} {records : Records} {steps : List LandingStep}
  {reached : Landing} {st : Draining}

/-- A draining executor and its queue are those of the state. -/
structure DrainsAt (reached : Landing) (st : Draining) : Prop where
  running : st.host.writesLeft = none
  mounts : st.host.durable.store.mounts = reached.mounts
  records : st.host.records = reached.records
  queue : st.queue = reached.queue

/-- A request that is taken out and hydrated goes on with a run, in two steps that meet
the condition in every state. -/
theorem LandingRun.hydrated {request : HydrationRequest} {after : HydrationQueue} {host : Host}
    {result : LocalityResult HydrationOutcome} (requeued : Bool)
    (hrun : LandingRun yaml mounts records steps reached)
    (hmeets : (Landing.start mounts records).MeetsAll steps) (hat : DrainsAt reached st)
    (hpops : PopsOne st.queue request after)
    (h : hydrateRequest yaml source outputRoot request st.host = (result, host))
    (hrequeued : requeued = true → ∃ error, result = .error error) :
    ∃ steps' reached', LandingRun yaml mounts records (steps ++ steps') reached' ∧
      (Landing.start mounts records).MeetsAll (steps ++ steps') ∧
      DrainsAt reached' ⟨host, if requeued then (after.queueRequest request).2 else after⟩ := by
  obtain ⟨⟨durable, nowMs, left⟩, queued⟩ := st
  obtain ⟨hrunning, hmounts, hrecords, hqueue⟩ := hat
  cases hrunning
  cases hqueue
  have hrunning : hydrateRequest yaml source outputRoot request (Host.running durable nowMs) =
    (result, host) := h
  have htaken : reached.step .popReady = { reached with
      queue := after
      held := request :: reached.held
      since := reached.since.remove request.key } := by
    simp only [Landing.step, Landing.taken, hpops.popped]
  have hpopped := LandingRun.popReady hrun
  rw [htaken] at hpopped
  have hnext := @LandingRun.hydrate _ _ _ _ _ _ source outputRoot durable nowMs requeued hpopped
    List.mem_cons_self hmounts hrecords (by rw [hrunning]; exact hrequeued)
  obtain ⟨durable', hhost⟩ := @hydrateRequest_running yaml source request outputRoot durable nowMs
  have hkept := @mounts_hydrateRequest yaml source request outputRoot (Host.running durable nowMs)
  rw [hrunning] at hnext hhost hkept
  rw [List.append_assoc] at hnext
  obtain rfl : host = Host.running durable' nowMs := hhost
  refine ⟨_, _, hnext, Landing.meetsAll_append.mpr ⟨hmeets, trivial, trivial, trivial⟩, ?_⟩
  cases requeued with
  | false => exact ⟨rfl, hkept.trans hmounts, rfl, rfl⟩
  | true => exact ⟨rfl, hkept.trans hmounts, rfl, rfl⟩

theorem LandingRun.rounds (fuel : Nat) (report : HydrationDrainReport)
    (hrun : LandingRun yaml mounts records steps reached)
    (hmeets : (Landing.start mounts records).MeetsAll steps) (hat : DrainsAt reached st) :
    ∃ steps' reached', LandingRun yaml mounts records (steps ++ steps') reached' ∧
      (Landing.start mounts records).MeetsAll (steps ++ steps') ∧
      DrainsAt reached' (drainRounds yaml source outputRoot fuel report st).2 := by
  induction fuel generalizing steps reached report st with
  | zero => exact ⟨[], reached, by rwa [List.append_nil], by rwa [List.append_nil], hat⟩
  | succ fuel ih =>
      have hwell : st.queue.WellFormed := hat.queue ▸ (landingRun_inPlace hrun hmeets).wellFormed
      obtain ⟨-, hends⟩ | ⟨request, after, hpops, ⟨error, host, hhydrated, hends⟩ |
        ⟨outcome, host, hhydrated, hends⟩⟩ :=
          @drainRounds_cases yaml source outputRoot fuel report st hwell
      · rw [hends]
        exact ⟨[], reached, by rwa [List.append_nil], by rwa [List.append_nil], hat⟩
      · rw [hends]
        exact hrun.hydrated true hmeets hat hpops hhydrated fun _ => ⟨error, rfl⟩
      · rw [hends]
        obtain ⟨steps', reached', hrun', hmeets', hat'⟩ :=
          hrun.hydrated false hmeets hat hpops hhydrated fun h => by cases h
        obtain ⟨steps'', reached'', hrest⟩ := ih (report.count outcome) hrun' hmeets' hat'
        rw [List.append_assoc] at hrest
        exact ⟨steps' ++ steps'', reached'', hrest⟩

end Run

/-! ## The drain of a page that was opened -/

/-- The page waits, and the process makes so many writes more. -/
def openedDraining (left : Option Nat) : Draining :=
  ⟨⟨⟨wikiStore stubbedPages, fun _ => none, fun _ => none, [], fun _ => none⟩, 0, left⟩,
    (HydrationQueue.new.queueRequest openRequest).2⟩

end Locality.Daemon
