/-
  Workspace/MigrationPlan.lean --- when a plan of bindings is free of collisions.

  Targets are compared with targets only.  A name that is no valid target is left in layout
  0 and compared with nothing, though it may be another spelling of a target that is
  accepted: this is the one way in which a plan collides.
-/
import Locality.Foundation.OrderFree
import Locality.Workspace.TargetNames

set_option autoImplicit false

namespace Locality.Workspace

open Locality.Core Locality.Foundation Locality.Protocol

/-! ## What a plan should be -/

section Statement

variable (unicode : UnicodeTables) (platform : WorkspaceHostPlatform)
  (trustedWorkspaceRoot : HostPath) (mounts : List LegacyWorkspaceMount)

/-- The key of a directory name, whatever its normalization. -/
def directoryKey (name : Text) : Text := collisionKey unicode (unicode.nfc name)

structure CollisionFree (hostBinding : Option WorkspaceHostBinding) : Prop where
  /-- Each mount is in one of the two lists, once. -/
  placed : ∀ plan, planMigration unicode platform trustedWorkspaceRoot hostBinding mounts =
      .ok plan →
    (plan.layout1Bindings.map WorkspaceBindingRecord.mountId ++
      plan.layout0Mounts.map LegacyLayout0Mount.mountId).Perm
        (mounts.map LegacyWorkspaceMount.mountId)
  orderFree : ∀ mounts', mounts'.Perm mounts →
    planMigration unicode platform trustedWorkspaceRoot hostBinding mounts' =
      planMigration unicode platform trustedWorkspaceRoot hostBinding mounts
  lexical : ∀ plan, planMigration unicode platform trustedWorkspaceRoot hostBinding mounts =
      .ok plan → ∀ record ∈ plan.layout1Bindings, ∀ mount ∈ mounts,
    mount.mountId = record.mountId → validateMountRootLexically unicode platform
      trustedWorkspaceRoot mount.root record.binding.mountTarget = .ok ()
  /-- No other direct child has the key of a target that is accepted. -/
  apart : ∀ plan, planMigration unicode platform trustedWorkspaceRoot hostBinding mounts =
      .ok plan → ∀ record ∈ plan.layout1Bindings, ∀ mount ∈ mounts,
    mount.mountId ≠ record.mountId → ∀ name,
      directChild unicode platform trustedWorkspaceRoot mount.root = some name →
        directoryKey unicode name ≠ record.binding.mountTarget.collisionKey unicode

/-- A mount is a direct child, under a name that is a valid target. -/
def HasTarget (mount : LegacyWorkspaceMount) (target : MountTarget) : Prop :=
  rawMountTarget unicode platform mount.root = .ok target ∧
    (directChild unicode platform trustedWorkspaceRoot mount.root).isSome = true

/-- Where a target has its key to itself among the targets, no direct child with another
spelling has the key. -/
def NoDisguise : Prop :=
  ∀ mount ∈ mounts, ∀ target, HasTarget unicode platform trustedWorkspaceRoot mount target →
    (∀ other ∈ mounts, other.mountId ≠ mount.mountId → ∀ target',
      HasTarget unicode platform trustedWorkspaceRoot other target' →
        target'.collisionKey unicode ≠ target.collisionKey unicode) →
    ∀ other ∈ mounts, other.mountId ≠ mount.mountId → ∀ name reason,
      rawMountTarget unicode platform other.root = .error reason →
      directChild unicode platform trustedWorkspaceRoot other.root = some name →
        directoryKey unicode name ≠ target.collisionKey unicode

end Statement

variable {unicode : UnicodeTables} {platform : WorkspaceHostPlatform}
  {trustedWorkspaceRoot : HostPath} {hostBinding : Option WorkspaceHostBinding}
  {mounts : List LegacyWorkspaceMount} {trusted : ParsedHostPath}
  {plan : WorkspaceBindingMigrationPlan}

/-! ## Candidates -/

theorem candidateOutcome_eq_ok {mount : LegacyWorkspaceMount} {target : MountTarget}
    (htrusted : ParsedHostPath.parse platform trustedWorkspaceRoot = some trusted) :
    candidateOutcome unicode platform trusted mount = .ok target ↔
      HasTarget unicode platform trustedWorkspaceRoot mount target := by
  have hchild : directChild unicode platform trustedWorkspaceRoot mount.root =
      (ParsedHostPath.parse platform mount.root >>= fun root =>
        root.directChildOf unicode platform trusted) := by
    rw [directChild, htrusted]
    rfl
  rw [HasTarget, hchild, candidateOutcome, bind_eq_ok]
  constructor
  · rintro ⟨target', htarget, h⟩
    obtain ⟨root, hroot, h⟩ := okOr_bind_eq_ok.mp h
    obtain ⟨name, hname, h⟩ := okOr_bind_eq_ok.mp h
    cases h
    refine ⟨htarget, ?_⟩
    rw [hroot]
    exact Option.isSome_of_eq_some hname
  · rintro ⟨htarget, hsome⟩
    obtain ⟨name, hname⟩ := Option.isSome_iff_exists.mp hsome
    obtain ⟨root, hroot, hname⟩ := Option.bind_eq_some_iff.mp hname
    exact ⟨target, htarget, okOr_bind_eq_ok.mpr ⟨root, hroot,
      okOr_bind_eq_ok.mpr ⟨name, hname, rfl⟩⟩⟩

/-- The mounts as they are sorted, with what each is by itself. -/
def candidatesOf (unicode : UnicodeTables) (platform : WorkspaceHostPlatform)
    (trusted : ParsedHostPath) (mounts : List LegacyWorkspaceMount) : List Candidate :=
  (mounts.insertionSort fun left right =>
    Ranked.rank left.mountId ≤ Ranked.rank right.mountId).map fun mount =>
      (mount, candidateOutcome unicode platform trusted mount)

/-- The candidates, once collisions are refused. -/
def settledOf (unicode : UnicodeTables) (platform : WorkspaceHostPlatform)
    (trusted : ParsedHostPath) (mounts : List LegacyWorkspaceMount) : List Candidate :=
  (candidatesOf unicode platform trusted mounts).map
    (refuseCollision unicode (candidatesOf unicode platform trusted mounts))

theorem planMigration_eq_ok :
    planMigration unicode platform trustedWorkspaceRoot hostBinding mounts = .ok plan ↔
      ∃ trusted, ParsedHostPath.parse platform trustedWorkspaceRoot = some trusted ∧
        plan = {
          workspaceRoot := trustedWorkspaceRoot
          hostBinding := hostBinding
          layout1Bindings := (settledOf unicode platform trusted mounts).filterMap
            (bindingRecord hostBinding)
          layout0Mounts := (settledOf unicode platform trusted mounts).filterMap
            layout0Mount } := by
  rw [planMigration, okOr_bind_eq_ok]
  refine exists_congr fun trusted => and_congr_right fun _ => ?_
  exact ⟨fun h => (Except.ok.inj h).symm, fun h => congrArg Except.ok h.symm⟩

theorem mem_candidatesOf {candidate : Candidate} :
    candidate ∈ candidatesOf unicode platform trusted mounts ↔ candidate.1 ∈ mounts ∧
      candidate.2 = candidateOutcome unicode platform trusted candidate.1 := by
  rw [candidatesOf, List.mem_map]
  constructor
  · rintro ⟨mount, hmem, rfl⟩
    exact ⟨(List.mem_insertionSort _).mp hmem, rfl⟩
  · rintro ⟨hmem, houtcome⟩
    exact ⟨candidate.1, (List.mem_insertionSort _).mpr hmem, Prod.ext rfl houtcome.symm⟩

theorem refuseCollision_fst {candidates : List Candidate} {candidate : Candidate} :
    (refuseCollision unicode candidates candidate).1 = candidate.1 := by
  rw [refuseCollision]
  split
  · rfl
  · split
    · rfl
    · rfl

/-- The identifiers of the candidates, in their two lists. -/
theorem placed_perm (hostBinding : Option WorkspaceHostBinding) (candidates : List Candidate) :
    ((candidates.filterMap (bindingRecord hostBinding)).map WorkspaceBindingRecord.mountId ++
      (candidates.filterMap layout0Mount).map LegacyLayout0Mount.mountId).Perm
        (candidates.map fun candidate => candidate.1.mountId) := by
  induction candidates with
  | nil => exact List.Perm.nil
  | cons candidate candidates ih =>
      obtain ⟨mount, reason | target⟩ := candidate
      · exact List.perm_middle.trans (ih.cons mount.mountId)
      · exact ih.cons mount.mountId

theorem map_settledOf :
    ((settledOf unicode platform trusted mounts).map fun candidate => candidate.1.mountId).Perm
      (mounts.map LegacyWorkspaceMount.mountId) := by
  rw [settledOf, candidatesOf, List.map_map, List.map_map]
  have hsame : ((fun candidate : Candidate => candidate.1.mountId) ∘ refuseCollision unicode
      (candidatesOf unicode platform trusted mounts)) ∘ (fun mount => (mount,
        candidateOutcome unicode platform trusted mount)) = LegacyWorkspaceMount.mountId :=
    funext fun mount => congrArg LegacyWorkspaceMount.mountId refuseCollision_fst
  rw [← candidatesOf, hsame]
  exact (List.perm_insertionSort _ mounts).map _

/-! ## Groups -/

theorem nodup_candidatesOf (hdistinct : (mounts.map LegacyWorkspaceMount.mountId).Nodup) :
    (candidatesOf unicode platform trusted mounts).Nodup := by
  refine List.Nodup.map (fun mount mount' h => congrArg Prod.fst h) ?_
  exact (List.perm_insertionSort _ _).nodup_iff.mpr (List.Nodup.of_map _ hdistinct)

theorem mem_collisionGroup {candidates : List Candidate} {candidate : Candidate} {key : Text} :
    candidate ∈ collisionGroup unicode candidates key ↔ candidate ∈ candidates ∧
      ∃ target, candidate.2 = .ok target ∧ target.collisionKey unicode = key := by
  rw [collisionGroup, List.mem_filter]
  refine and_congr_right fun _ => ?_
  obtain ⟨mount, reason | target⟩ := candidate
  · exact iff_of_false Bool.false_ne_true fun ⟨target, h, _⟩ => (nomatch h)
  · constructor
    · exact fun h => ⟨target, rfl, of_decide_eq_true h⟩
    · rintro ⟨target', h, hkey⟩
      cases h
      exact decide_eq_true hkey

/-- A group has more than one member where another mount has a target with its key. -/
theorem one_lt_collisionGroup {mount : LegacyWorkspaceMount} {target : MountTarget}
    (hdistinct : (mounts.map LegacyWorkspaceMount.mountId).Nodup)
    (htrusted : ParsedHostPath.parse platform trustedWorkspaceRoot = some trusted)
    (hmem : mount ∈ mounts)
    (htarget : HasTarget unicode platform trustedWorkspaceRoot mount target) :
    1 < (collisionGroup unicode (candidatesOf unicode platform trusted mounts)
        (target.collisionKey unicode)).length ↔
      ∃ other ∈ mounts, other.mountId ≠ mount.mountId ∧ ∃ target',
        HasTarget unicode platform trustedWorkspaceRoot other target' ∧
          target'.collisionKey unicode = target.collisionKey unicode := by
  have houtcome := (candidateOutcome_eq_ok htrusted).mpr htarget
  have hcandidate : (mount, candidateOutcome unicode platform trusted mount) ∈
      collisionGroup unicode (candidatesOf unicode platform trusted mounts)
        (target.collisionKey unicode) :=
    mem_collisionGroup.mpr ⟨mem_candidatesOf.mpr ⟨hmem, rfl⟩, target, houtcome, rfl⟩
  have hgroup : (collisionGroup unicode (candidatesOf unicode platform trusted mounts)
      (target.collisionKey unicode)).Nodup := (nodup_candidatesOf hdistinct).filter _
  rw [one_lt_length_iff hgroup hcandidate]
  constructor
  · rintro ⟨other, hother, hne⟩
    obtain ⟨hlisted, target', htarget', hkey⟩ := mem_collisionGroup.mp hother
    obtain ⟨hother, hsame⟩ := mem_candidatesOf.mp hlisted
    refine ⟨other.1, hother, fun hid => hne ?_, target',
      (candidateOutcome_eq_ok htrusted).mp (hsame.symm.trans htarget'), hkey⟩
    obtain rfl := List.inj_on_of_nodup_map hdistinct hother hmem hid
    exact Prod.ext rfl hsame
  · rintro ⟨other, hother, hne, target', htarget', hkey⟩
    refine ⟨(other, candidateOutcome unicode platform trusted other), ?_, fun h => hne ?_⟩
    · exact mem_collisionGroup.mpr ⟨mem_candidatesOf.mpr ⟨hother, rfl⟩, target',
        (candidateOutcome_eq_ok htrusted).mpr htarget', hkey⟩
    · exact congrArg (fun candidate : Candidate => candidate.1.mountId) h

/-! ## Accepted targets -/

/-- A mount that is accepted has a target, with its key to itself among the targets. -/
theorem exists_of_mem_layout1 {record : WorkspaceBindingRecord}
    (hdistinct : (mounts.map LegacyWorkspaceMount.mountId).Nodup)
    (htrusted : ParsedHostPath.parse platform trustedWorkspaceRoot = some trusted)
    (h : record ∈ (settledOf unicode platform trusted mounts).filterMap
      (bindingRecord hostBinding)) :
    ∃ mount ∈ mounts, mount.mountId = record.mountId ∧
      HasTarget unicode platform trustedWorkspaceRoot mount record.binding.mountTarget ∧
      ¬ ∃ other ∈ mounts, other.mountId ≠ mount.mountId ∧ ∃ target',
        HasTarget unicode platform trustedWorkspaceRoot other target' ∧
          target'.collisionKey unicode = record.binding.mountTarget.collisionKey unicode := by
  obtain ⟨settled, hsettled, hrecord⟩ := List.mem_filterMap.mp h
  obtain ⟨⟨mount, outcome⟩, hcandidate, rfl⟩ := List.mem_map.mp hsettled
  obtain ⟨hmem, houtcome⟩ := mem_candidatesOf.mp hcandidate
  dsimp only at hmem houtcome
  cases outcome with
  | error reason => exact nomatch hrecord
  | ok target =>
      have htarget := (candidateOutcome_eq_ok htrusted).mp houtcome.symm
      rw [refuseCollision] at hrecord
      dsimp only at hrecord
      split at hrecord
      · exact nomatch hrecord
      · rename_i halone
        rw [one_lt_collisionGroup hdistinct htrusted hmem htarget] at halone
        cases hrecord
        cases hostBinding with
        | none => exact ⟨mount, hmem, rfl, htarget, halone⟩
        | some hostBinding => exact ⟨mount, hmem, rfl, htarget, halone⟩

theorem exists_mem_layout1 {mount : LegacyWorkspaceMount} {target : MountTarget}
    (hdistinct : (mounts.map LegacyWorkspaceMount.mountId).Nodup)
    (htrusted : ParsedHostPath.parse platform trustedWorkspaceRoot = some trusted)
    (hmem : mount ∈ mounts)
    (htarget : HasTarget unicode platform trustedWorkspaceRoot mount target)
    (halone : ∀ other ∈ mounts, other.mountId ≠ mount.mountId → ∀ target',
      HasTarget unicode platform trustedWorkspaceRoot other target' →
        target'.collisionKey unicode ≠ target.collisionKey unicode) :
    ∃ record ∈ (settledOf unicode platform trusted mounts).filterMap (bindingRecord hostBinding),
      record.mountId = mount.mountId ∧ record.binding.mountTarget = target := by
  have houtcome := (candidateOutcome_eq_ok htrusted).mpr htarget
  have hgroup : ¬ 1 < (collisionGroup unicode (candidatesOf unicode platform trusted mounts)
      (target.collisionKey unicode)).length := by
    rw [one_lt_collisionGroup hdistinct htrusted hmem htarget]
    rintro ⟨other, hother, hne, target', htarget', hkey⟩
    exact halone other hother hne target' htarget' hkey
  have hkept : refuseCollision unicode (candidatesOf unicode platform trusted mounts)
      (mount, .ok target) = (mount, .ok target) := if_neg hgroup
  have hsettled : (mount, .ok target) ∈ settledOf unicode platform trusted mounts :=
    List.mem_map.mpr ⟨(mount, .ok target), mem_candidatesOf.mpr ⟨hmem, houtcome.symm⟩, hkept⟩
  refine ⟨_, List.mem_filterMap.mpr ⟨_, hsettled, rfl⟩, rfl, ?_⟩
  cases hostBinding with
  | none => rfl
  | some hostBinding => rfl

/-! ## Plans -/

theorem noDisguise_of_collisionFree (hdistinct : (mounts.map LegacyWorkspaceMount.mountId).Nodup)
    (h : CollisionFree unicode platform trustedWorkspaceRoot mounts hostBinding) :
    NoDisguise unicode platform trustedWorkspaceRoot mounts := by
  intro mount hmem target htarget halone other hother hne name reason hreason hname
  obtain ⟨trusted, htrusted, -⟩ := Option.bind_eq_some_iff.mp hname
  obtain ⟨record, hrecord, hid, rfl⟩ := @exists_mem_layout1 _ _ _ hostBinding _ _ _ _
    hdistinct htrusted hmem htarget halone
  exact h.apart _ (planMigration_eq_ok.mpr ⟨trusted, htrusted, rfl⟩) record hrecord other hother
    (hid ▸ hne) name hname

section Sample

/-- NFC, as far as it puts an `e` and an acute accent together. -/
def acute : Text → Text
  | 'e' :: '\u0301' :: rest => 'é' :: acute rest
  | c :: rest => c :: acute rest
  | [] => []

def acuteTables : UnicodeTables := ⟨id, acute⟩

def workRoot : HostPath := .utf8 "/work".toList

def composedMount : LegacyWorkspaceMount := ⟨⟨"a".toList⟩, .utf8 "/work/café".toList⟩

def decomposedMount : LegacyWorkspaceMount := ⟨⟨"b".toList⟩, .utf8 "/work/cafe\u0301".toList⟩

end Sample

end Locality.Workspace
