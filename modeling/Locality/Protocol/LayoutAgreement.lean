/-
  Protocol/LayoutAgreement.lean --- a workspace layout and its session layout agree on
  their digest, and the digest determines the layout.

  The mounts that a session layout collects from its entries are read from an ordered
  table; those of a workspace layout are ordered and all used.  So both are the same
  list, and both layouts are encoded by the same frames.
-/
import Locality.Protocol.WorkspaceLayout

set_option autoImplicit false

namespace Locality.Protocol

open Locality.Core Locality.Foundation

/-! ## Frames -/

/-- A value behind its length. -/
def frame (value : List UInt8) : List UInt8 := toBeBytes 8 value.length ++ value

theorem length_frame (value : List UInt8) : (frame value).length = 8 + value.length := by
  rw [frame, List.length_append, length_toBeBytes]

def framesLength (values : List (List UInt8)) : Nat := (values.flatMap frame).length

theorem pushFrame_eq_ok {preimage value bytes : List UInt8} :
    pushFrame preimage value = .ok bytes ↔
      preimage.length + (8 + value.length) ≤ maxWorkspaceLayoutPreimageBytes ∧
        bytes = preimage ++ frame value := by
  unfold pushFrame
  rw [ite_throw_eq_ok, ite_throw_eq_ok, frame, List.append_assoc]
  constructor
  · rintro ⟨-, hlength, hbytes⟩
    cases hbytes
    exact ⟨Nat.le_of_not_lt hlength, rfl⟩
  · rintro ⟨hlength, rfl⟩
    have hmax : maxWorkspaceLayoutPreimageBytes < 2 ^ 64 := by decide
    exact ⟨by omega, by omega, rfl⟩

/-- The value is as many frames, put behind what there is. -/
def Frames (push : List UInt8 → LayoutResult (List UInt8)) (values : List (List UInt8)) : Prop :=
  ∀ preimage bytes, preimage.length ≤ maxWorkspaceLayoutPreimageBytes →
    (push preimage = .ok bytes ↔
      preimage.length + framesLength values ≤ maxWorkspaceLayoutPreimageBytes ∧
        bytes = preimage ++ values.flatMap frame)

namespace Frames

theorem one (value : List UInt8) : Frames (fun preimage => pushFrame preimage value) [value] := by
  intro preimage bytes _
  rw [pushFrame_eq_ok]
  simp only [framesLength, List.flatMap_cons, List.flatMap_nil, List.append_nil, length_frame]

theorem none : Frames (fun preimage => pure preimage) [] := by
  intro preimage bytes hfits
  constructor
  · intro h
    cases h
    exact ⟨hfits, (List.append_nil _).symm⟩
  · rintro ⟨-, rfl⟩
    rw [List.flatMap_nil, List.append_nil]
    rfl

theorem append {push push' : List UInt8 → LayoutResult (List UInt8)}
    {values values' : List (List UInt8)} (h : Frames push values) (h' : Frames push' values') :
    Frames (fun preimage => push preimage >>= push') (values ++ values') := by
  intro preimage bytes hfits
  have hlength : framesLength (values ++ values') =
      framesLength values + framesLength values' := by
    simp only [framesLength, List.flatMap_append, List.length_append]
  rw [bind_eq_ok]
  constructor
  · rintro ⟨middle, hfirst, hsecond⟩
    obtain ⟨hle, rfl⟩ := (h preimage middle hfits).mp hfirst
    have hmiddle : (preimage ++ values.flatMap frame).length =
        preimage.length + framesLength values := by
      rw [List.length_append, framesLength]
    obtain ⟨hle', rfl⟩ := (h' _ _ (hmiddle ▸ hle)).mp hsecond
    rw [hmiddle] at hle'
    exact ⟨by omega, by rw [List.flatMap_append, List.append_assoc]⟩
  · rintro ⟨hle, rfl⟩
    have hmiddle : (preimage ++ values.flatMap frame).length =
        preimage.length + framesLength values := by
      rw [List.length_append, framesLength]
    refine ⟨preimage ++ values.flatMap frame, (h _ _ hfits).mpr ⟨by omega, rfl⟩, ?_⟩
    refine (h' _ _ (by omega)).mpr ⟨by omega, ?_⟩
    rw [List.flatMap_append, List.append_assoc]

end Frames

def mountFrames (mount : ProfileMount) : List (List UInt8) :=
  [asBytes mount.mountId.value, asBytes mount.target.value]

def bindingFrames (binding : BindingView) : List (List UInt8) :=
  [toBeBytes 4 binding.scopeOrdinal.toNat, asBytes binding.mountId.value,
    asBytes binding.target.value]

theorem frames_pushMounts (mounts : List ProfileMount) :
    Frames (fun preimage => pushMounts preimage mounts) (mounts.flatMap mountFrames) := by
  induction mounts with
  | nil => exact Frames.none
  | cons mount mounts ih => exact (Frames.one _).append ((Frames.one _).append ih)

theorem frames_pushBindings (bindings : List BindingView) :
    Frames (fun preimage => pushBindings preimage bindings) (bindings.flatMap bindingFrames) := by
  induction bindings with
  | nil => exact Frames.none
  | cons binding bindings ih =>
      exact (Frames.one _).append ((Frames.one _).append ((Frames.one _).append ih))

theorem frames_pushCount {count : Nat} (hcount : count < 2 ^ 64) :
    Frames (fun preimage => pushCount preimage count) [toBeBytes 8 count] := by
  intro preimage bytes hfits
  simp only [pushCount, if_pos hcount]
  exact Frames.one _ preimage bytes hfits

/-- The counted mounts and the counted bindings. -/
def tableFrames (mounts : List ProfileMount) (bindings : List BindingView) :
    List (List UInt8) :=
  ([toBeBytes 8 mounts.length] ++ mounts.flatMap mountFrames) ++
    ([toBeBytes 8 bindings.length] ++ bindings.flatMap bindingFrames)

def preimageFrames (layoutVersion : UInt16) (profileId : WorkspaceProfileId)
    (profileRevision : UInt64) (mounts : List ProfileMount) (bindings : List BindingView) :
    List (List UInt8) :=
  [toBeBytes 2 layoutVersion.toNat, asBytes profileId.value,
    toBeBytes 8 profileRevision.toNat] ++ tableFrames mounts bindings

theorem encodePreimage_eq_ok {layoutVersion : UInt16} {profileId : WorkspaceProfileId}
    {profileRevision : UInt64} {mounts : List ProfileMount} {bindings : List BindingView}
    {bytes : List UInt8} (hmounts : mounts.length < 2 ^ 64)
    (hbindings : bindings.length < 2 ^ 64) :
    encodePreimage layoutVersion profileId profileRevision mounts bindings = .ok bytes ↔
      layoutVersion = workspaceLayoutVersion ∧
        workspaceLayoutDomain.length + framesLength (preimageFrames layoutVersion profileId
          profileRevision mounts bindings) ≤ maxWorkspaceLayoutPreimageBytes ∧
        bytes = workspaceLayoutDomain ++ (preimageFrames layoutVersion profileId
          profileRevision mounts bindings).flatMap frame := by
  have hpush : Frames (fun preimage => do
      let preimage ← pushFrame preimage (toBeBytes 2 layoutVersion.toNat)
      let preimage ← pushFrame preimage (asBytes profileId.value)
      let preimage ← pushFrame preimage (toBeBytes 8 profileRevision.toNat)
      let preimage ← pushCount preimage mounts.length
      let preimage ← pushMounts preimage mounts
      let preimage ← pushCount preimage bindings.length
      pushBindings preimage bindings)
      (preimageFrames layoutVersion profileId profileRevision mounts bindings) := by
    have hframes := (Frames.one (toBeBytes 2 layoutVersion.toNat)).append
      ((Frames.one (asBytes profileId.value)).append
      ((Frames.one (toBeBytes 8 profileRevision.toNat)).append
      ((frames_pushCount hmounts).append ((frames_pushMounts mounts).append
      ((frames_pushCount hbindings).append (frames_pushBindings bindings))))))
    simpa only [preimageFrames, tableFrames, List.cons_append, List.nil_append,
      List.append_assoc] using hframes
  rw [encodePreimage, ite_throw_eq_ok, not_not]
  exact and_congr_right fun _ => hpush workspaceLayoutDomain bytes (by decide)

/-- What is written has one length for all profiles. -/
theorem framesLength_preimageFrames (layoutVersion : UInt16)
    (profileId profileId' : WorkspaceProfileId) (profileRevision profileRevision' : UInt64)
    (mounts : List ProfileMount) (bindings : List BindingView) :
    framesLength (preimageFrames layoutVersion profileId profileRevision mounts bindings) =
      framesLength
        (preimageFrames layoutVersion profileId' profileRevision' mounts bindings) := by
  have hlength : ∀ id : WorkspaceProfileId, (asBytes id.value).length = 36 := by
    intro id
    have hcanonical := id.canonical
    rw [isCanonicalLowercaseHyphenatedUuid, Bool.and_eq_true] at hcanonical
    exact of_decide_eq_true hcanonical.1
  simp only [framesLength, preimageFrames, List.cons_append, List.nil_append,
    List.flatMap_cons, List.length_append, length_frame, length_toBeBytes, hlength]

/-! ## The tables can be read off the frames -/

theorem selfDelimiting_frame : SelfDelimiting (fun value => value.length < 256 ^ 8) frame :=
  (selfDelimiting_toBeBytes 8).framed

theorem frame_ne_nil (value : List UInt8) : frame value ≠ [] := by
  intro hnil
  have hlength := length_frame value
  rw [hnil, List.length_nil] at hlength
  omega

theorem selfDelimiting_mountFrames : SelfDelimiting (fun _ => True) mountFrames := by
  refine .of_length 2 (fun _ _ => rfl) ?_
  rintro ⟨⟨id⟩, ⟨target⟩⟩ ⟨⟨id'⟩, ⟨target'⟩⟩ _ _ h
  obtain ⟨hid, hrest⟩ := List.cons.inj h
  cases asBytes_injective hid
  cases asBytes_injective (List.cons.inj hrest).1
  rfl

theorem selfDelimiting_bindingFrames : SelfDelimiting (fun _ => True) bindingFrames := by
  refine .of_length 3 (fun _ _ => rfl) ?_
  rintro ⟨ordinal, ⟨id⟩, ⟨target⟩⟩ ⟨ordinal', ⟨id'⟩, ⟨target'⟩⟩ _ _ h
  obtain ⟨hordinal, hrest⟩ := List.cons.inj h
  obtain ⟨hid, hrest⟩ := List.cons.inj hrest
  cases UInt32.toNat_inj.mp
    (toBeBytes_injective ordinal.toNat_lt ordinal'.toNat_lt hordinal)
  cases asBytes_injective hid
  cases asBytes_injective (List.cons.inj hrest).1
  rfl

theorem selfDelimiting_count :
    SelfDelimiting (fun n => n < 256 ^ 8) fun n => [toBeBytes 8 n] :=
  .of_length 1 (fun _ _ => rfl) fun _ _ hn hm h => toBeBytes_injective hn hm (List.cons.inj h).1

theorem tableFrames_injective {mounts mounts' : List ProfileMount}
    {bindings bindings' : List BindingView} (hmounts : mounts.length < 256 ^ 8)
    (hmounts' : mounts'.length < 256 ^ 8) (hbindings : bindings.length < 256 ^ 8)
    (hbindings' : bindings'.length < 256 ^ 8)
    (h : tableFrames mounts bindings = tableFrames mounts' bindings') :
    mounts = mounts' ∧ bindings = bindings' := by
  have htables := (selfDelimiting_count.counted selfDelimiting_mountFrames).pair
    (selfDelimiting_count.counted selfDelimiting_bindingFrames)
  have hsame := htables.injective (a := (mounts, bindings)) (b := (mounts', bindings'))
    ⟨⟨hmounts, fun _ _ => trivial⟩, ⟨hbindings, fun _ _ => trivial⟩⟩
    ⟨⟨hmounts', fun _ _ => trivial⟩, ⟨hbindings', fun _ _ => trivial⟩⟩ h
  exact Prod.mk.inj hsame

/-- Frames that fit together are each no longer than a length field says. -/
theorem length_of_mem_frames {values : List (List UInt8)} {value : List UInt8}
    (hfits : framesLength values ≤ maxWorkspaceLayoutPreimageBytes) (hmem : value ∈ values) :
    value.length < 256 ^ 8 := by
  have hsub : (frame value).length ≤ framesLength values :=
    (List.sublist_flatten_of_mem (List.mem_map_of_mem hmem)).length_le
  have hmax : maxWorkspaceLayoutPreimageBytes < 256 ^ 8 := by decide
  rw [length_frame] at hsub
  omega

/-- Layouts of one profile with one preimage have the same mounts and bindings. -/
theorem encodePreimage_injective {layoutVersion layoutVersion' : UInt16}
    {profileId : WorkspaceProfileId} {profileRevision : UInt64}
    {mounts mounts' : List ProfileMount} {bindings bindings' : List BindingView}
    {bytes : List UInt8} (hmounts : mounts.length < 2 ^ 64)
    (hmounts' : mounts'.length < 2 ^ 64) (hbindings : bindings.length < 2 ^ 64)
    (hbindings' : bindings'.length < 2 ^ 64)
    (h : encodePreimage layoutVersion profileId profileRevision mounts bindings = .ok bytes)
    (h' : encodePreimage layoutVersion' profileId profileRevision mounts' bindings' =
      .ok bytes) :
    mounts = mounts' ∧ bindings = bindings' := by
  obtain ⟨-, hfits, rfl⟩ := (encodePreimage_eq_ok hmounts hbindings).mp h
  obtain ⟨-, hfits', hbytes⟩ := (encodePreimage_eq_ok hmounts' hbindings').mp h'
  have hframes := selfDelimiting_frame.flatMap_injective (fun value _ => frame_ne_nil value)
    (fun value => length_of_mem_frames (by omega)) (fun value => length_of_mem_frames (by omega))
    (List.append_cancel_left hbytes)
  simp only [preimageFrames, List.cons_append, List.nil_append, List.cons.injEq] at hframes
  exact tableFrames_injective hmounts hmounts' hbindings hbindings' hframes.2.2.2

/-! ## Ordered tables -/

instance : Std.TransCmp mountOrder := transCmp_key (byteOrder ∘ PortableMountId.value)

instance : Std.LawfulEqCmp mountOrder :=
  lawfulEqCmp_key fun id id' h => by cases id; cases id'; cases byteOrder_injective h; rfl

theorem mountOrder_self (id : PortableMountId) : mountOrder id id = .eq :=
  Std.ReflCmp.compare_self

/-- The mounts are strictly ordered by their ids. -/
def Ordered (mounts : List ProfileMount) : Prop :=
  mounts.Pairwise fun mount mount' => mountOrder mount.mountId mount'.mountId = .lt

theorem Ordered.eq_of_mem_iff {mounts mounts' : List ProfileMount} (h : Ordered mounts)
    (h' : Ordered mounts') (hmem : ∀ mount, mount ∈ mounts ↔ mount ∈ mounts') :
    mounts = mounts' := by
  have hirrefl : ∀ mount : ProfileMount, mountOrder mount.mountId mount.mountId ≠ .lt := by
    intro mount hlt
    exact nomatch (mountOrder_self mount.mountId).symm.trans hlt
  have hnodup : ∀ {mounts : List ProfileMount}, Ordered mounts → mounts.Nodup := by
    intro mounts h
    refine List.Pairwise.imp ?_ h
    rintro mount mount' hlt rfl
    exact hirrefl mount hlt
  refine List.Perm.eq_of_pairwise ?_ h h'
    ((List.perm_ext_iff_of_nodup (hnodup h) (hnodup h')).mpr hmem)
  intro mount mount' _ _ hlt hgt
  have hself := Std.TransCmp.lt_trans hlt hgt
  exact absurd hself (hirrefl mount)

theorem validateMountOrder_eq_ok {index : Nat} {mounts : List ProfileMount} :
    validateMountOrder index mounts = .ok () ↔ Ordered mounts := by
  fun_induction validateMountOrder index mounts with
  | case1 index first second mounts hlt ih =>
      rw [ih]
      refine ⟨fun h => List.pairwise_cons.mpr ⟨?_, h⟩, List.Pairwise.tail⟩
      intro mount hmem
      rcases List.mem_cons.mp hmem with rfl | hmem
      · exact hlt
      · exact Std.TransCmp.lt_trans hlt ((List.pairwise_cons.mp h).1 mount hmem)
  | case2 index first second mounts heq =>
      refine ⟨fun h => (nomatch h), fun h => ?_⟩
      have hlt := (List.pairwise_cons.mp h).1 second List.mem_cons_self
      exact nomatch heq.symm.trans hlt
  | case3 index first second mounts hgt =>
      refine ⟨fun h => (nomatch h), fun h => ?_⟩
      have hlt := (List.pairwise_cons.mp h).1 second List.mem_cons_self
      exact nomatch hgt.symm.trans hlt
  | case4 mounts index hshort =>
      refine ⟨fun _ => ?_, fun _ => rfl⟩
      cases mounts with
      | nil => exact List.Pairwise.nil
      | cons first mounts =>
          cases mounts with
          | nil => exact List.pairwise_singleton _ _
          | cons second mounts => exact absurd rfl (hshort first second mounts)

def mountsOf (targets : TargetByMount) : List ProfileMount :=
  targets.toList.map fun (mountId, target) => ⟨mountId, target⟩

theorem mem_mountsOf {targets : TargetByMount} {mount : ProfileMount} :
    mount ∈ mountsOf targets ↔ targets[mount.mountId]? = some mount.target := by
  rw [← Std.TreeMap.mem_toList_iff_getElem?_eq_some, mountsOf, List.mem_map]
  constructor
  · rintro ⟨⟨id, target⟩, hmem, rfl⟩
    exact hmem
  · intro hmem
    exact ⟨(mount.mountId, mount.target), hmem, rfl⟩

theorem ordered_mountsOf (targets : TargetByMount) : Ordered (mountsOf targets) :=
  List.pairwise_map.mpr Std.TreeMap.ordered_keys_toList

/-- A table of ordered mounts: it finds the target of each of them. -/
theorem getElem?_targetByMount {mounts : List ProfileMount} (h : Ordered mounts)
    (id : PortableMountId) (target : MountTarget) :
    (targetByMount mounts)[id]? = some target ↔ ⟨id, target⟩ ∈ mounts := by
  have hfold : ∀ (mounts : List ProfileMount) (targets : TargetByMount), Ordered mounts →
      (∀ mount ∈ mounts, targets[mount.mountId]? = none) →
      ((mounts.foldl (fun targets mount => targets.insert mount.mountId mount.target)
          targets)[id]? = some target ↔
        targets[id]? = some target ∨ ⟨id, target⟩ ∈ mounts) := by
    intro mounts
    induction mounts with
    | nil =>
        intro targets _ _
        rw [List.foldl_nil, or_iff_left (List.not_mem_nil)]
    | cons mount mounts ih =>
        intro targets hordered hnew
        obtain ⟨hlt, hrest⟩ := List.pairwise_cons.mp hordered
        rw [List.foldl_cons, ih _ hrest ?_, Std.TreeMap.getElem?_insert, List.mem_cons]
        · split
          · rename_i hid
            have hid := Std.LawfulEqCmp.eq_of_compare hid
            subst hid
            have hnone := hnew mount List.mem_cons_self
            rw [hnone, Option.some.injEq]
            constructor
            · rintro (rfl | hmem)
              · exact .inr (.inl rfl)
              · exact .inr (.inr hmem)
            · rintro (hfound | hmount | hmem)
              · exact nomatch hfound
              · exact .inl (congrArg ProfileMount.target hmount).symm
              · exact .inr hmem
          · rename_i hid
            have hother : (⟨id, target⟩ : ProfileMount) ≠ mount := by
              rintro rfl
              exact hid (mountOrder_self _)
            rw [or_iff_right hother]
        · intro mount' hmem
          rw [Std.TreeMap.getElem?_insert, if_neg]
          · exact hnew mount' (List.mem_cons_of_mem _ hmem)
          · intro heq
            exact nomatch heq.symm.trans (hlt mount' hmem)
  have hempty : (∅ : TargetByMount)[id]? = none := Std.TreeMap.getElem?_emptyc
  rw [targetByMount, hfold mounts ∅ h (fun _ _ => Std.TreeMap.getElem?_emptyc), hempty]
  exact or_iff_right fun h => nomatch h

/-! ## Resolved bindings -/

def entryOf (binding : BindingView) : SessionLayoutEntry :=
  ⟨binding.scopeOrdinal, binding.mountId, binding.target⟩

theorem sessionBindingViews_entryOf (resolved : List BindingView) :
    sessionBindingViews (resolved.map entryOf) = resolved := by
  rw [sessionBindingViews, List.map_map]
  exact List.map_id resolved

/-- The ordinals of the entries are their indices, from one on. -/
def Numbered : Nat → List SessionLayoutEntry → Prop
  | _, [] => True
  | index, entry :: entries =>
      indexU32 index = .ok entry.scopeOrdinal ∧ Numbered (index + 1) entries

/-- What bindings resolve to: the targets are those of the table, and none is missing. -/
theorem resolveBindings_ok {targets : TargetByMount} {index : Nat}
    {sourceScopeIds : List SourceScopeId} {bindings : List ProfileScopeBinding}
    {resolved : List BindingView}
    (h : resolveBindings targets index sourceScopeIds bindings = .ok resolved) :
    Numbered index (resolved.map entryOf) ∧
      resolved.map BindingView.mountId = bindings.map ProfileScopeBinding.mountId ∧
      (∀ binding ∈ resolved, targets[binding.mountId]? = some binding.target) ∧
      bindings.mapM (fun binding => targets[binding.mountId]?.map fun target =>
        (⟨binding.scopeOrdinal, binding.mountId, target⟩ : SessionLayoutEntry)) =
          some (resolved.map entryOf) := by
  induction bindings generalizing index sourceScopeIds resolved with
  | nil =>
      cases h
      exact ⟨trivial, rfl, fun _ h => (nomatch h), rfl⟩
  | cons binding bindings ih =>
      obtain ⟨expected, hexpected, h⟩ := bind_eq_ok.mp h
      obtain ⟨hordinal, h⟩ := ite_throw_eq_ok.mp h
      obtain ⟨-, hlookup⟩ := ite_throw_eq_ok.mp h
      rw [← not_not.mp hordinal] at hexpected
      cases htarget : targets[binding.mountId]? with
      | none =>
          rw [htarget] at hlookup
          exact nomatch hlookup
      | some target =>
          rw [htarget] at hlookup
          obtain ⟨rest, hrest, hresolved⟩ := bind_eq_ok.mp hlookup
          cases hresolved
          obtain ⟨hnumbered, hids, htargets, hentries⟩ := ih hrest
          refine ⟨⟨hexpected, hnumbered⟩, ?_, ?_, ?_⟩
          · rw [List.map_cons, List.map_cons, hids]
          · exact List.forall_mem_cons.mpr ⟨htarget, htargets⟩
          · rw [List.mapM_cons, htarget, hentries]
            rfl

/-- The table holds what the first one holds, and what the entries name. -/
def Collects (targets : TargetByMount) (entries : List SessionLayoutEntry)
    (collected : TargetByMount) : Prop :=
  ∀ (id : PortableMountId) (target : MountTarget), collected[id]? = some target ↔
    targets[id]? = some target ∨ ∃ entry ∈ entries, entry.mountId = id ∧ entry.target = target

theorem Collects.cons {targets targets' collected : TargetByMount} {entry : SessionLayoutEntry}
    {entries : List SessionLayoutEntry}
    (hstep : ∀ (id : PortableMountId) (target : MountTarget), targets'[id]? = some target ↔
      targets[id]? = some target ∨ entry.mountId = id ∧ entry.target = target)
    (hrest : Collects targets' entries collected) :
    Collects targets (entry :: entries) collected := by
  intro id target
  rw [hrest id target, hstep, or_assoc]
  simp only [List.mem_cons, exists_eq_or_imp]

theorem getElem?_insert_new {targets : TargetByMount} {entry : SessionLayoutEntry}
    (hnew : targets[entry.mountId]? = none) (id : PortableMountId) (target : MountTarget) :
    (targets.insert entry.mountId entry.target)[id]? = some target ↔
      targets[id]? = some target ∨ entry.mountId = id ∧ entry.target = target := by
  rw [Std.TreeMap.getElem?_insert]
  split
  · rename_i hid
    have hid := Std.LawfulEqCmp.eq_of_compare hid
    subst hid
    simp only [hnew, reduceCtorEq, false_or, true_and, Option.some.injEq]
  · rename_i hid
    have hother : entry.mountId ≠ id := fun heq => hid (heq ▸ mountOrder_self _)
    simp only [hother, false_and, or_false]

/-- Entries that agree with one table are collected. -/
theorem collectTargets_ok {index : Nat} {targets table : TargetByMount}
    {entries : List SessionLayoutEntry} (hnumbered : Numbered index entries)
    (hentries : ∀ entry ∈ entries, table[entry.mountId]? = some entry.target)
    (hknown : ∀ (id : PortableMountId) (target : MountTarget), targets[id]? = some target →
      table[id]? = some target) :
    ∃ collected, collectTargets index targets entries = .ok collected ∧
      Collects targets entries collected := by
  induction entries generalizing index targets with
  | nil =>
      refine ⟨targets, rfl, fun id target => ?_⟩
      simp only [List.not_mem_nil, false_and, exists_false, or_false]
  | cons entry entries ih =>
      obtain ⟨hindex, hnumbered⟩ := hnumbered
      obtain ⟨hentry, hentries⟩ := List.forall_mem_cons.mp hentries
      rw [collectTargets, hindex]
      change ∃ collected, (if entry.scopeOrdinal ≠ entry.scopeOrdinal then _ else _) = _ ∧ _
      rw [if_neg (not_not.mpr rfl)]
      cases hfound : targets[entry.mountId]? with
      | some existing =>
          have hexisting : existing = entry.target :=
            Option.some.inj ((hknown _ _ hfound).symm.trans hentry)
          subst hexisting
          obtain ⟨collected, hrun, hcollected⟩ := ih hnumbered hentries hknown
          refine ⟨collected, (if_neg (not_not.mpr rfl)).trans hrun, hcollected.cons ?_⟩
          intro id target
          refine ⟨.inl, ?_⟩
          rintro (h | ⟨rfl, rfl⟩)
          · exact h
          · exact hfound
      | none =>
          have hinsert := getElem?_insert_new hfound
          obtain ⟨collected, hrun, hcollected⟩ := ih hnumbered hentries (by
            intro id target h
            rcases (hinsert id target).mp h with h | ⟨rfl, rfl⟩
            · exact hknown id target h
            · exact hentry)
          exact ⟨collected, hrun, hcollected.cons hinsert⟩

theorem validateUsed_ok {used : List PortableMountId} {index : Nat} {mounts : List ProfileMount}
    (h : validateUsed used index mounts = .ok ()) : ∀ mount ∈ mounts, mount.mountId ∈ used := by
  induction mounts generalizing index with
  | nil => exact fun _ h => nomatch h
  | cons mount mounts ih =>
      rw [validateUsed] at h
      split at h
      · rename_i hused
        exact List.forall_mem_cons.mpr ⟨hused, ih h⟩
      · exact nomatch h

/-! ## Validated layouts -/

variable {unicode : UnicodeTables} {sha256 : List UInt8 → List UInt8}

theorem validateMountCount_ok {actual : Nat} (h : validateMountCount actual = .ok ()) :
    actual < 2 ^ 64 := by
  unfold validateMountCount at h
  split at h
  · rename_i hcount
    have hmax : maxProfileMounts < 2 ^ 64 := by decide
    omega
  · exact nomatch h

theorem validateScopeBindingCount_ok {actual : Nat}
    (h : validateScopeBindingCount actual = .ok ()) : actual < 2 ^ 64 := by
  unfold validateScopeBindingCount at h
  split at h
  · rename_i hcount
    have hmax : maxProfileScopeBindings < 2 ^ 64 := by decide
    omega
  · exact nomatch h

theorem ordered_of_validateMountOrderAndTargets {mounts : List ProfileMount}
    (h : validateMountOrderAndTargets unicode mounts = .ok ()) : Ordered mounts := by
  obtain ⟨_, horder, -⟩ := bind_eq_ok.mp h
  exact validateMountOrder_eq_ok.mp horder

/-- What the checks of a profile say of what its bindings resolve to. -/
structure Resolves (unicode : UnicodeTables) (mounts : List ProfileMount)
    (scopeBindings : List ProfileScopeBinding) (resolved : List BindingView) : Prop where
  mountCount : validateMountCount mounts.length = .ok ()
  bindingCount : validateScopeBindingCount resolved.length = .ok ()
  order : validateMountOrderAndTargets unicode mounts = .ok ()
  numbered : Numbered 0 (resolved.map entryOf)
  targets : ∀ binding ∈ resolved,
    (targetByMount mounts)[binding.mountId]? = some binding.target
  used : ∀ mount ∈ mounts, ∃ binding ∈ resolved, binding.mountId = mount.mountId
  entries : scopeBindings.mapM (fun binding =>
    (targetByMount mounts)[binding.mountId]?.map fun target =>
      (⟨binding.scopeOrdinal, binding.mountId, target⟩ : SessionLayoutEntry)) =
        some (resolved.map entryOf)

theorem validateProfileCollections_ok {mounts : List ProfileMount}
    {scopeBindings : List ProfileScopeBinding} {resolved : List BindingView}
    (h : validateProfileCollections unicode mounts scopeBindings = .ok resolved) :
    Resolves unicode mounts scopeBindings resolved := by
  obtain ⟨_, hmounts, h⟩ := bind_eq_ok.mp h
  obtain ⟨_, hbindings, h⟩ := bind_eq_ok.mp h
  obtain ⟨_, horder, h⟩ := bind_eq_ok.mp h
  obtain ⟨found, hresolve, h⟩ := bind_eq_ok.mp h
  obtain ⟨_, hused, h⟩ := bind_eq_ok.mp h
  cases h
  obtain ⟨hnumbered, hids, htargets, hentries⟩ := resolveBindings_ok hresolve
  have hlength : resolved.length = scopeBindings.length := by
    simpa only [List.length_map] using congrArg List.length hids
  refine ⟨hmounts, hlength ▸ hbindings, horder, hnumbered, htargets, ?_, hentries⟩
  intro mount hmem
  have hmem := validateUsed_ok hused mount hmem
  rw [← hids] at hmem
  exact List.mem_map.mp hmem

/-- The mounts that are read off the entries of a workspace are its mounts. -/
theorem Resolves.validateSessionEntries_eq {mounts : List ProfileMount}
    {scopeBindings : List ProfileScopeBinding} {resolved : List BindingView}
    (h : Resolves unicode mounts scopeBindings resolved) :
    validateSessionEntries unicode (resolved.map entryOf) = .ok mounts := by
  have hordered := ordered_of_validateMountOrderAndTargets h.order
  have hempty : ∀ (id : PortableMountId) (target : MountTarget),
      (∅ : TargetByMount)[id]? = some target →
        (targetByMount mounts)[id]? = some target := by
    intro id target hfound
    rw [Std.TreeMap.getElem?_emptyc] at hfound
    exact nomatch hfound
  obtain ⟨collected, hrun, hcollected⟩ :=
    collectTargets_ok h.numbered (List.forall_mem_map.mpr h.targets) hempty
  have hmounts : mountsOf collected = mounts := by
    refine (ordered_mountsOf collected).eq_of_mem_iff hordered fun mount => ?_
    rw [mem_mountsOf, hcollected, Std.TreeMap.getElem?_emptyc]
    constructor
    · rintro (hnone | ⟨entry, hentry, hid, htarget⟩)
      · exact nomatch hnone
      · obtain ⟨binding, hbinding, rfl⟩ := List.mem_map.mp hentry
        have hfound := (getElem?_targetByMount hordered _ _).mp (h.targets binding hbinding)
        cases mount
        cases hid
        cases htarget
        exact hfound
    · intro hmem
      obtain ⟨binding, hbinding, hid⟩ := h.used mount hmem
      have hfound := h.targets binding hbinding
      rw [hid, (getElem?_targetByMount hordered _ _).mpr hmem] at hfound
      exact .inr ⟨entryOf binding, List.mem_map_of_mem hbinding, hid,
        (Option.some.inj hfound).symm⟩
  have hsize : collected.size = mounts.length := by
    rw [← hmounts, mountsOf, List.length_map, Std.TreeMap.length_toList]
  refine bind_eq_ok.mpr ⟨(), ?_, bind_eq_ok.mpr ⟨collected, hrun, bind_eq_ok.mpr
    ⟨(), hsize ▸ h.mountCount, bind_eq_ok.mpr ⟨(), ?_, ?_⟩⟩⟩⟩
  · rw [List.length_map]
    exact h.bindingCount
  · exact (congrArg (validateMountOrderAndTargets unicode) hmounts).trans h.order
  · exact congrArg Except.ok hmounts

theorem validateSessionEntries_bounds {entries : List SessionLayoutEntry}
    {mounts : List ProfileMount} (h : validateSessionEntries unicode entries = .ok mounts) :
    mounts.length < 2 ^ 64 ∧ (sessionBindingViews entries).length < 2 ^ 64 := by
  obtain ⟨_, hbindings, h⟩ := bind_eq_ok.mp h
  obtain ⟨targets, -, h⟩ := bind_eq_ok.mp h
  obtain ⟨_, hmounts, h⟩ := bind_eq_ok.mp h
  obtain ⟨-, -, h⟩ := bind_eq_ok.mp h
  cases h
  rw [List.length_map, Std.TreeMap.length_toList, sessionBindingViews, List.length_map]
  exact ⟨validateMountCount_ok hmounts, validateScopeBindingCount_ok hbindings⟩

/-- A workspace layout that was made: its bindings resolve, and its digest is that of
its preimage. -/
theorem WorkspaceLayout.new_ok {profileId : WorkspaceProfileId} {profileRevision : UInt64}
    {mounts : List ProfileMount} {scopeBindings : List ProfileScopeBinding}
    {workspace : WorkspaceLayout}
    (h : WorkspaceLayout.new unicode sha256 profileId profileRevision mounts scopeBindings =
      .ok workspace) :
    ∃ resolved bytes, validateProfileRevision workspace.profileRevision = .ok () ∧
      validateProfileCollections unicode workspace.mounts workspace.scopeBindings =
        .ok resolved ∧
      workspace.layoutVersion = workspaceLayoutVersion ∧
      encodePreimage workspace.layoutVersion workspace.profileId workspace.profileRevision
        workspace.mounts resolved = .ok bytes ∧
      workspace.layoutDigest = .ofPreimage sha256 bytes := by
  obtain ⟨_, hrevision, h⟩ := bind_eq_ok.mp h
  obtain ⟨resolved, hresolved, h⟩ := bind_eq_ok.mp h
  obtain ⟨bytes, hbytes, h⟩ := bind_eq_ok.mp h
  cases h
  exact ⟨resolved, bytes, hrevision, hresolved, rfl, hbytes, rfl⟩

theorem SessionLayout.verifyProfileContext_ok {session : SessionLayout}
    {profileId : WorkspaceProfileId} {profileRevision : UInt64}
    (h : session.verifyProfileContext unicode sha256 profileId profileRevision = .ok ()) :
    ∃ mounts bytes, validateSessionEntries unicode session.entries = .ok mounts ∧
      encodePreimage session.layoutVersion profileId profileRevision mounts
        (sessionBindingViews session.entries) = .ok bytes ∧
      session.profileContextPreimage unicode profileId profileRevision = .ok bytes ∧
      LayoutDigest.ofPreimage sha256 bytes = session.layoutDigest := by
  obtain ⟨bytes, hpreimage, h⟩ := bind_eq_ok.mp h
  obtain ⟨hdigest, -⟩ := ite_throw_eq_ok.mp h
  have hbytes := hpreimage
  obtain ⟨-, -, hbytes⟩ := bind_eq_ok.mp hbytes
  obtain ⟨mounts, hmounts, hbytes⟩ := bind_eq_ok.mp hbytes
  exact ⟨mounts, bytes, hmounts, hbytes, hpreimage, not_not.mp hdigest⟩

/-! ## Agreement -/

/-- The session layout of a workspace has the preimage of the workspace and is accepted
for it; and a session layout that is verified with the digest and the context of a
workspace, where the two preimages do not collide, has its mounts and its bindings. -/
theorem layouts_agree (unicode : UnicodeTables) (sha256 : List UInt8 → List UInt8)
    (profileId : WorkspaceProfileId) (profileRevision : UInt64) (mounts : List ProfileMount)
    (scopeBindings : List ProfileScopeBinding) (workspace : WorkspaceLayout)
    (hnew : WorkspaceLayout.new unicode sha256 profileId profileRevision mounts
      scopeBindings = .ok workspace) :
    (∃ session bytes, SessionLayout.fromWorkspace unicode workspace = some (.ok session) ∧
      workspace.canonicalPreimage unicode = .ok bytes ∧
      session.profileContextPreimage unicode workspace.profileId workspace.profileRevision =
        .ok bytes ∧
      session.validateAgainstWorkspace unicode sha256 workspace = some (.ok ())) ∧
    ∀ session : SessionLayout, session.layoutDigest = workspace.layoutDigest →
      session.verifyProfileContext unicode sha256 workspace.profileId
        workspace.profileRevision = .ok () →
      (∀ bytes bytes', workspace.canonicalPreimage unicode = .ok bytes →
        session.profileContextPreimage unicode workspace.profileId workspace.profileRevision =
          .ok bytes' → sha256 bytes = sha256 bytes' → bytes = bytes') →
      validateSessionEntries unicode session.entries = .ok workspace.mounts ∧
        validateProfileCollections unicode workspace.mounts workspace.scopeBindings =
          .ok (sessionBindingViews session.entries) := by
  obtain ⟨resolved, bytes, hrevision, hresolved, hversion, hbytes, hdigest⟩ :=
    WorkspaceLayout.new_ok hnew
  have hresolves := validateProfileCollections_ok hresolved
  have hmounts := validateMountCount_ok hresolves.mountCount
  have hbindings := validateScopeBindingCount_ok hresolves.bindingCount
  have hpreimage : workspace.canonicalPreimage unicode = .ok bytes :=
    bind_eq_ok.mpr ⟨resolved, hresolved, hbytes⟩
  constructor
  · have hentries := hresolves.validateSessionEntries_eq
    have hplaceholder : ∃ bytes', encodePreimage workspaceLayoutVersion placeholderProfileId 1
        workspace.mounts resolved = .ok bytes' := by
      obtain ⟨-, hfits, -⟩ := (encodePreimage_eq_ok hmounts hbindings).mp hbytes
      refine ⟨_, (encodePreimage_eq_ok hmounts hbindings).mpr ⟨rfl, ?_, rfl⟩⟩
      rw [framesLength_preimageFrames _ placeholderProfileId workspace.profileId 1
        workspace.profileRevision, ← hversion]
      exact hfits
    obtain ⟨bytes', hbytes'⟩ := hplaceholder
    have hfrom : SessionLayout.fromWorkspace unicode workspace =
        some (.ok ⟨workspaceLayoutVersion, workspace.layoutDigest, resolved.map entryOf⟩) := by
      refine Option.map_eq_some_iff.mpr ⟨_, hresolves.entries, ?_⟩
      refine bind_eq_ok.mpr ⟨_, hentries, bind_eq_ok.mpr ⟨bytes', ?_, rfl⟩⟩
      rw [sessionBindingViews_entryOf]
      exact hbytes'
    have hcontext : SessionLayout.profileContextPreimage unicode
        ⟨workspaceLayoutVersion, workspace.layoutDigest, resolved.map entryOf⟩
        workspace.profileId workspace.profileRevision = .ok bytes := by
      refine bind_eq_ok.mpr ⟨(), hrevision, bind_eq_ok.mpr ⟨_, hentries, ?_⟩⟩
      rw [sessionBindingViews_entryOf, ← hversion]
      exact hbytes
    have hverify : SessionLayout.verifyProfileContext unicode sha256
        ⟨workspaceLayoutVersion, workspace.layoutDigest, resolved.map entryOf⟩
        workspace.profileId workspace.profileRevision = .ok () :=
      bind_eq_ok.mpr ⟨bytes, hcontext, ite_throw_eq_ok.mpr ⟨not_not.mpr hdigest.symm, rfl⟩⟩
    refine ⟨_, bytes, hfrom, hpreimage, hcontext, ?_⟩
    rw [SessionLayout.validateAgainstWorkspace, hverify]
    change (if _ then _ else _) = _
    rw [if_neg (not_or.mpr ⟨not_not.mpr hversion.symm, not_not.mpr rfl⟩), hfrom]
    exact congrArg some (if_neg (not_not.mpr rfl))
  · intro session hsame hverify hcollides
    obtain ⟨mounts', bytes', hentries, hbytes', hcontext, hdigest'⟩ :=
      SessionLayout.verifyProfileContext_ok hverify
    have hlabel : LayoutDigest.ofPreimage sha256 bytes = .ofPreimage sha256 bytes' :=
      hdigest.symm.trans (hsame.symm.trans hdigest'.symm)
    have hequal : bytes = bytes' :=
      hcollides bytes bytes' hpreimage hcontext
        (sha256_of_label (congrArg LayoutDigest.value hlabel))
    obtain ⟨hmounts', hbindings'⟩ := validateSessionEntries_bounds hentries
    obtain ⟨rfl, rfl⟩ := encodePreimage_injective hmounts hmounts' hbindings hbindings' hbytes
      (hequal ▸ hbytes')
    exact ⟨hentries, hresolved⟩

/-! ## Two mounts under three scopes -/

def wikiProfileId : WorkspaceProfileId :=
  ⟨"5f0c1d2e-3a4b-4c5d-8e6f-708192a3b4c5".toList, by decide +kernel, by decide +kernel⟩

def docsMount : PortableMountId := ⟨"mount-1".toList⟩

def notesMount : PortableMountId := ⟨"mount-2".toList⟩

/-- The digest of the preimage of the layout. -/
def wikiDigest : List UInt8 :=
  [98, 179, 118, 205, 56, 20, 181, 207, 124, 201, 238, 35, 152, 242, 106, 152,
    184, 173, 34, 91, 237, 6, 87, 169, 112, 139, 67, 32, 55, 190, 246, 179]

def wikiLayout : WorkspaceLayout where
  layoutVersion := 1
  profileId := wikiProfileId
  profileRevision := 7
  mounts := [⟨docsMount, ⟨"docs".toList⟩⟩, ⟨notesMount, ⟨"notes".toList⟩⟩]
  scopeBindings := [⟨0, ⟨"scope-1".toList⟩, notesMount⟩, ⟨1, ⟨"scope-2".toList⟩, docsMount⟩,
    ⟨2, ⟨"scope-3".toList⟩, notesMount⟩]
  layoutDigest := ⟨"sha256:62b376cd3814b5cf7cc9ee2398f26a98b8ad225bed0657a9708b432037bef6b3".toList⟩

theorem wikiLayout_agrees :
    WorkspaceLayout.new plainTables (fun _ => wikiDigest) wikiProfileId 7 wikiLayout.mounts
      wikiLayout.scopeBindings = .ok wikiLayout ∧
    ∃ session bytes, SessionLayout.fromWorkspace plainTables wikiLayout = some (.ok session) ∧
      wikiLayout.canonicalPreimage plainTables = .ok bytes ∧
      session.profileContextPreimage plainTables wikiLayout.profileId
        wikiLayout.profileRevision = .ok bytes ∧
      session.validateAgainstWorkspace plainTables (fun _ => wikiDigest) wikiLayout =
        some (.ok ()) := by
  have hnew : WorkspaceLayout.new plainTables (fun _ => wikiDigest) wikiProfileId 7
      wikiLayout.mounts wikiLayout.scopeBindings = .ok wikiLayout := by decide +kernel
  exact ⟨hnew, (layouts_agree _ _ _ _ _ _ _ hnew).1⟩

end Locality.Protocol
