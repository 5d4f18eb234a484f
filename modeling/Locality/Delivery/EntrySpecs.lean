/-
  Delivery/EntrySpecs.lean --- what the algorithms of an apply do while no other program
  runs: publishing, the fenced algorithms, and the entries.
-/
import Locality.Delivery.EntrySteps

set_option autoImplicit false

namespace Locality.Delivery

open Locality.Core Locality.Foundation Locality.Protocol

/-! ## Writing and publishing -/

section Target

variable {target : SecureTarget} {st : MountTree}

theorem append_singleton_ne {parent : MountPath} (name : Text) : parent ≠ parent ++ [name] :=
  fun heq => List.cons_ne_nil name [] (List.append_right_eq_self.mp heq.symm)

theorem SecureTarget.parent_ne_path : target.parent ≠ target.path :=
  append_singleton_ne target.name

theorem does_removeNamed {name : Text} {bytes : List UInt8}
    (hparent : st.node target.parent = some .directory)
    (hname : st.node (target.parent ++ [name]) = some (.file bytes)) :
    ∃ st', Undisturbed (target.removeNamed name) st (.ok (.ok ())) st'
        (fun stop => stop = st ∨ stop = st') ∧
      st'.node = Function.update st.node (target.parent ++ [name]) none := by
  obtain ⟨st', hunlink, hnode⟩ := MountTree.unlink_ok hparent hname
  have hperform : Undisturbed (target.removeNamed name) st _ _ _ :=
    .perform (MountOp.unlink target.parent name) st
  rw [show MountTree.perform (.unlink target.parent name) st = (.ok (), st') from hunlink]
    at hperform
  exact ⟨st', hperform, hnode⟩

theorem does_tryRename {source name : Text} {bytes : List UInt8}
    (hparent : st.node target.parent = some .directory)
    (hsource : st.node (target.parent ++ [source]) = some (.file bytes))
    (hname : st.node (target.parent ++ [name]) = none) :
    ∃ st', Undisturbed (target.tryRename source name) st (.ok (.ok ())) st'
        (fun stop => stop = st ∨ stop = st') ∧
      st'.node = Function.update (Function.update st.node (target.parent ++ [source]) none)
        (target.parent ++ [name]) (some (.file bytes)) := by
  obtain ⟨st', hrename, hnode⟩ := MountTree.rename_ok hparent hsource hname
  have hperform : Undisturbed (target.tryRename source name) st _ _ _ :=
    .perform (MountOp.rename target.parent source name) st
  rw [show MountTree.perform (.rename target.parent source name) st = (.ok (), st') from hrename]
    at hperform
  exact ⟨st', hperform, hnode⟩

theorem does_createNamed {name : Text} (hparent : st.node target.parent = some .directory)
    (hname : st.node (target.parent ++ [name]) = none) :
    ∃ st', Undisturbed (target.createNamed name) st (.ok ()) st'
        (fun stop => stop = st ∨ stop = st') ∧
      st'.node = Function.update st.node (target.parent ++ [name]) (some (.file [])) := by
  obtain ⟨st', hcreate, hnode⟩ := MountTree.createNamed_ok hparent hname
  have hperform : Undisturbed (target.tryCreate name) st _ _ _ :=
    .perform (MountOp.createNamed target.parent name) st
  rw [show MountTree.perform (.createNamed target.parent name) st = (.ok (), st') from hcreate]
    at hperform
  refine ⟨st', (hperform.bind (reads_ofMount (.ok ()) st')).congr fun stop => ?_, hnode⟩
  exact or_iff_left_of_imp Or.inr

theorem does_writeAll {name : Text} (bytes : List UInt8) : ∀ {st : MountTree} {before : List UInt8},
    st.node target.parent = some .directory →
      st.node (target.parent ++ [name]) = some (.file before) →
        ∃ st' stops, Undisturbed (target.writeAll name bytes) st (.ok ()) st' stops ∧
          (∀ stop, stops stop → ∃ written,
            stop.node = Function.update st.node (target.parent ++ [name])
              (some (.file (before ++ written)))) ∧
          st'.node = Function.update st.node (target.parent ++ [name])
            (some (.file (before ++ bytes))) := by
  induction bytes with
  | nil =>
      intro st before _ hname
      have hsame : st.node = Function.update st.node (target.parent ++ [name])
          (some (.file (before ++ []))) := by
        rw [List.append_nil, ← hname, Function.update_eq_self]
      exact ⟨st, _, .pure () st, fun stop hstop => ⟨[], hstop ▸ hsame⟩, hsame⟩
  | cons byte bytes ih =>
      intro st before hparent hname
      obtain ⟨middle, hwrite, hmiddle⟩ := MountTree.write_ok byte hparent hname
      have hperform : Undisturbed (target.tryWrite name byte) st _ _ _ :=
        .perform (MountOp.write target.parent name byte) st
      rw [show MountTree.perform (.write target.parent name byte) st = (.ok (), middle) from hwrite]
        at hperform
      have hparent' : middle.node target.parent = some .directory := by
        rw [hmiddle, Function.update_of_ne (append_singleton_ne name), hparent]
      have hname' : middle.node (target.parent ++ [name]) = some (.file (before ++ [byte])) := by
        rw [hmiddle, Function.update_self]
      obtain ⟨st', stops, hrest, hstops, hst'⟩ := ih hparent' hname'
      refine ⟨st', _, hperform.bind (Program.Does.read (reads_ofMount (.ok ()) middle) hrest), ?_,
        ?_⟩
      · rintro stop ((rfl | rfl) | hstop)
        · exact ⟨[], by rw [List.append_nil, ← hname, Function.update_eq_self]⟩
        · exact ⟨[byte], hmiddle⟩
        · obtain ⟨written, hwritten⟩ := hstops stop hstop
          refine ⟨byte :: written, ?_⟩
          rw [hwritten, hmiddle, Function.update_idem, List.append_assoc, List.singleton_append]
      · rw [hst', hmiddle, Function.update_idem, List.append_assoc, List.singleton_append]

/-- A temporary is published where there is no file. -/
theorem does_publishNamed {temporary : Text} {bytes : List UInt8}
    (hparent : st.node target.parent = some .directory)
    (htemporary : st.node (target.parent ++ [temporary]) = some (.file bytes))
    (hpath : st.node target.path = none) :
    ∃ linked st', Undisturbed (target.publishNamed temporary) st (.ok (.ok ())) st'
        (fun stop => stop = st ∨ stop = linked ∨ stop = st') ∧
      linked.node = Function.update st.node target.path (some (.file bytes)) ∧
      st'.node = Function.update (Function.update st.node target.path (some (.file bytes)))
        (target.parent ++ [temporary]) none := by
  obtain ⟨linked, hlink, hlinked⟩ := MountTree.link_ok hparent htemporary hpath
  have hperform : Undisturbed (target.tryLink temporary target.name) st _ _ _ :=
    .perform (MountOp.link target.parent temporary target.name) st
  rw [show MountTree.perform (.link target.parent temporary target.name) st = (.ok (), linked)
    from hlink] at hperform
  have hlinked : linked.node = Function.update st.node target.path (some (.file bytes)) := hlinked
  have hne : target.parent ++ [temporary] ≠ target.path := by
    intro heq
    rw [heq, hpath] at htemporary
    cases htemporary
  have hparent' : linked.node target.parent = some .directory := by
    rw [hlinked, Function.update_of_ne SecureTarget.parent_ne_path, hparent]
  have htemporary' : linked.node (target.parent ++ [temporary]) = some (.file bytes) := by
    rw [hlinked, Function.update_of_ne hne, htemporary]
  obtain ⟨st', hremove, hst'⟩ := does_removeNamed hparent' htemporary'
  refine ⟨linked, st', ?_, hlinked, by rw [hst', hlinked]⟩
  have hboth : Undisturbed (target.publishNamed temporary) st _ _ _ := hperform.bind hremove
  refine hboth.congr fun stop => ?_
  rw [or_assoc]
  refine or_congr Iff.rfl ?_
  rw [← or_assoc, or_self_iff]

end Target

section Entry

variable {call : EntryCall} {target : SecureTarget} {st : MountTree}

theorem verifyOpenFile_of_verifyFile {payload : Option (List UInt8)}
    {identity : GenerationFileIdentity} {bytes : List UInt8}
    (h : call.verifyFile payload identity = .ok bytes) :
    payload = some bytes ∧ call.verifyOpenFile bytes identity = .ok () := by
  unfold EntryCall.verifyFile at h
  split at h
  · cases h
  · rename_i found
    obtain ⟨_, hverified, hfound⟩ := bind_eq_ok.mp h
    cases hfound
    exact ⟨rfl, hverified⟩

theorem digest_of_verifyFile {payload : Option (List UInt8)} {identity : GenerationFileIdentity}
    {bytes : List UInt8} (h : call.verifyFile payload identity = .ok bytes) :
    call.digest bytes = identity.contentSha256 := by
  have hverified := (verifyOpenFile_of_verifyFile h).2
  unfold EntryCall.verifyOpenFile at hverified
  split at hverified
  · cases hverified
  · split at hverified
    · assumption
    · cases hverified

/-- A payload is published where there is no file and no temporary. -/
theorem does_publishPayload {identity : GenerationFileIdentity} {bytes : List UInt8}
    (hpayload : call.verifyFile call.payload identity = .ok bytes)
    (hparent : st.node target.parent = some .directory) (hpath : st.node target.path = none)
    (htemporary : st.node (target.parent ++ [call.temporaryName]) = none)
    (hname : target.name ≠ call.temporaryName) :
    ∃ linked st' stops, Undisturbed (call.publishPayload target identity) st (.ok .published) st'
        stops ∧ stops linked ∧
      linked.node = Function.update (Function.update st.node
        (target.parent ++ [call.temporaryName]) (some (.file bytes))) target.path
          (some (.file bytes)) ∧
      st'.node = Function.update st.node target.path (some (.file bytes)) := by
  have hne : target.path ≠ target.parent ++ [call.temporaryName] := fun heq =>
    hname (List.cons.inj (List.append_cancel_left heq)).1
  have hopen : Reads (target.openNamed call.temporaryName) st _ :=
    reads_openNamed (by rw [htemporary]; exact nofun)
  have hfile : st.file (target.parent ++ [call.temporaryName]) = none := by
    rw [MountTree.file, htemporary]
  rw [hfile] at hopen
  obtain ⟨created, hcreate, hcreated⟩ := does_createNamed hparent htemporary
  have hparent₁ : created.node target.parent = some .directory := by
    rw [hcreated, Function.update_of_ne (append_singleton_ne _), hparent]
  have hcreatedName : created.node (target.parent ++ [call.temporaryName]) = some (.file []) := by
    rw [hcreated, Function.update_self]
  obtain ⟨written, stops, hwrite, -, hwritten⟩ := does_writeAll bytes hparent₁ hcreatedName
  rw [hcreated, Function.update_idem, List.nil_append] at hwritten
  have hparent₂ : written.node target.parent = some .directory := by
    rw [hwritten, Function.update_of_ne (append_singleton_ne _), hparent]
  have hwrittenName : written.node (target.parent ++ [call.temporaryName]) =
      some (.file bytes) := by
    rw [hwritten, Function.update_self]
  have hpath₂ : written.node target.path = none := by
    rw [hwritten, Function.update_of_ne hne, hpath]
  obtain ⟨linked, st', hpublish, hlinked, hst'⟩ := does_publishNamed hparent₂ hwrittenName hpath₂
  have hverify : Reads (.ofExcept (call.verifyFile call.payload identity)) st (.ok bytes) := by
    rw [hpayload]
    exact .pure bytes st
  have hrun : Undisturbed (call.publishPayload target identity) st (.ok .published) st' _ :=
    hverify.read (hopen.read (hopen.read (hcreate.bind (hwrite.bind
      (hpublish.bind (.pure EntryCall.PublishResult.published st'))))))
  refine ⟨linked, st', _, hrun, ?_, by rw [hlinked, hwritten], ?_⟩
  · exact Or.inr (Or.inr (Or.inl (Or.inr (Or.inl rfl))))
  · -- the temporary is gone again
    rw [hst', hwritten, Function.update_comm hne, Function.update_idem]
    congr 1
    rw [← htemporary, Function.update_eq_self]

/-! ## Fenced deletes -/

/-- The target is a name in a directory that is open, and no directory itself. -/
structure Opened (target : SecureTarget) (st : MountTree) : Prop where
  parent : st.node target.parent = some .directory
  path : st.node target.path ≠ some .directory

/-- The preimage of the entry is the old content. -/
def HoldsPreimage (call : EntryCall) (target : SecureTarget) (old : GenerationFileIdentity)
    (st : MountTree) : Prop :=
  ∃ bytes, st.file (target.parent ++ [call.preimageName]) = some bytes ∧
    call.digest bytes = old.contentSha256

theorem reads_openNamed_of_file {name : Text} {bytes : List UInt8}
    (h : st.file (target.parent ++ [name]) = some bytes) :
    Reads (target.openNamed name) st (.ok (some bytes)) := by
  have hopen : Reads (target.openNamed name) st _ :=
    reads_openNamed (MountTree.ne_directory_of_file h)
  rw [h] at hopen
  exact hopen

theorem reads_openNamed_of_none {name : Text}
    (h : st.node (target.parent ++ [name]) = none) :
    Reads (target.openNamed name) st (.ok none) := by
  have hopen : Reads (target.openNamed name) st _ :=
    reads_openNamed (by rw [h]; exact nofun)
  rw [MountTree.file, h] at hopen
  exact hopen

theorem reads_applyFencedDelete_of_preimage {old : GenerationFileIdentity} (hopened : Opened target st)
    (hpreimage : HoldsPreimage call target old st) (attempts : Nat) :
    Reads (call.applyFencedDelete target old (attempts + 1)) st
      (.ok (match st.file target.path with
        | none => .of .deleted true
        | some bytes => .of (.conflict (some (call.digest bytes)) none) true)) := by
  obtain ⟨bytes, hfile, hdigest⟩ := hpreimage
  have hhandle : Reads (call.digestOpenFileHandle target call.preimageName) st _ :=
    reads_digestOpenFileHandle hfile
  rw [hdigest] at hhandle
  refine Program.Does.read (reads_openNamed_of_file hfile) ?_
  dsimp only
  rw [hdigest, if_neg (fun hne => hne rfl)]
  refine Program.Does.read (reads_callHook _) (Program.Does.read hhandle ?_)
  rw [if_neg (fun hne => hne rfl)]
  refine Program.Does.read (reads_callHook _) (Program.Does.read hhandle ?_)
  rw [if_neg (fun hne => hne rfl)]
  refine Program.Does.read (reads_digestTarget hopened.path) ?_
  cases st.file target.path <;> exact .pure _ st

/-- What a move of the current file to the preimage leaves. -/
theorem moved_to_preimage {bytes : List UInt8} {moved : MountTree} (hopened : Opened target st)
    (hfile : st.file target.path = some bytes)
    (hpreimage : st.node (target.parent ++ [call.preimageName]) = none)
    (hmoved : moved.node = Function.update (Function.update st.node target.path none)
      (target.parent ++ [call.preimageName]) (some (.file bytes))) :
    Opened target moved ∧ moved.file (target.parent ++ [call.preimageName]) = some bytes ∧
      moved.file target.path = none := by
  have hne : target.path ≠ target.parent ++ [call.preimageName] := by
    intro heq
    rw [← heq, MountTree.node_of_file hfile] at hpreimage
    cases hpreimage
  have hpath : moved.node target.path = none := by
    rw [hmoved, Function.update_of_ne hne, Function.update_self]
  refine ⟨⟨?_, by rw [hpath]; exact nofun⟩, ?_, by rw [MountTree.file, hpath]⟩
  · rw [hmoved, Function.update_of_ne (append_singleton_ne _),
      Function.update_of_ne SecureTarget.parent_ne_path, hopened.parent]
  · rw [MountTree.file_eq_some, hmoved, Function.update_self]

/-- A delete that was not begun takes the file away if it is the old one. -/
theorem does_applyFencedDelete {old : GenerationFileIdentity} (hopened : Opened target st)
    (hpreimage : st.node (target.parent ++ [call.preimageName]) = none) (attempts : Nat) :
    ∃ result st', Undisturbed (call.applyFencedDelete target old (attempts + 2)) st (.ok result)
        st' (fun stop => stop = st ∨ stop = st') ∧
      (st' = st ∨ ∃ bytes, st.file target.path = some bytes ∧
        call.digest bytes = old.contentSha256 ∧ result = .of .deleted true ∧
        st'.node = Function.update (Function.update st.node target.path none)
          (target.parent ++ [call.preimageName]) (some (.file bytes))) := by
  have hopen : Reads (target.openNamed call.preimageName) st (.ok none) :=
    reads_openNamed_of_none hpreimage
  have hcurrent : Reads (call.digestTarget target) st _ := reads_digestTarget hopened.path
  cases hfile : st.file target.path with
  | none =>
      rw [hfile] at hcurrent
      have hrun : Reads (call.applyFencedDelete target old (attempts + 2)) st _ :=
        hopen.read (hcurrent.read (.pure (EntryResult.of .deleted false) st))
      exact ⟨_, st, hrun.congr fun stop => (or_self_iff).symm, Or.inl rfl⟩
  | some bytes =>
      rw [hfile] at hcurrent
      by_cases hdigest : call.digest bytes = old.contentSha256
      · obtain ⟨moved, hmove, hmoved⟩ :=
          does_tryRename hopened.parent (MountTree.node_of_file hfile) hpreimage
        obtain ⟨hopened', hpreimage', hgone⟩ := moved_to_preimage hopened hfile hpreimage hmoved
        have hrest : Reads (call.applyFencedDelete target old (attempts + 1)) moved _ :=
          reads_applyFencedDelete_of_preimage hopened' ⟨bytes, hpreimage', hdigest⟩ attempts
        rw [hgone] at hrest
        have hrun : Undisturbed (call.applyFencedDelete target old (attempts + 2)) st
            (.ok (.of .deleted true)) moved
              (fun stop => (stop = st ∨ stop = moved) ∨ stop = moved) := by
          refine hopen.read (hcurrent.read ?_)
          dsimp only [Option.map_some]
          rw [if_pos hdigest]
          exact hmove.bind (Program.Does.read (reads_callHook _) hrest)
        refine ⟨_, moved, hrun.congr fun stop => or_iff_left_of_imp Or.inr,
          Or.inr ⟨bytes, rfl, hdigest, rfl, hmoved⟩⟩
      · have hrun : Reads (call.applyFencedDelete target old (attempts + 2)) st
            (.ok (.of (.conflict (some (call.digest bytes)) none) false)) := by
          refine hopen.read (hcurrent.read ?_)
          dsimp only [Option.map_some]
          rw [if_neg hdigest]
          exact .pure _ st
        exact ⟨_, st, hrun.congr fun stop => (or_self_iff).symm, Or.inl rfl⟩

/-! ## Fenced updates -/

/-- A payload can be published next to the target. -/
structure Publishes (call : EntryCall) (target : SecureTarget) (new : GenerationFileIdentity)
    (bytes : List UInt8) (st : MountTree) : Prop where
  payload : call.verifyFile call.payload new = .ok bytes
  temporary : st.node (target.parent ++ [call.temporaryName]) = none
  name : target.name ≠ call.temporaryName

/-- What is passed and left where a payload is published. -/
structure PublishedTo (call : EntryCall) (target : SecureTarget) (bytes : List UInt8)
    (st linked st' : MountTree) : Prop where
  linked : linked.node = Function.update (Function.update st.node
    (target.parent ++ [call.temporaryName]) (some (.file bytes))) target.path
      (some (.file bytes))
  published : st'.node = Function.update st.node target.path (some (.file bytes))

theorem does_publish {new : GenerationFileIdentity} {bytes : List UInt8}
    (hopened : Opened target st) (hpublishes : Publishes call target new bytes st)
    (hfile : st.file target.path = none) :
    ∃ linked st' stops, Undisturbed (call.publishPayload target new) st (.ok .published) st'
      stops ∧ stops linked ∧ PublishedTo call target bytes st linked st' := by
  obtain ⟨linked, st', stops, hrun, hstop, hlinked, hst'⟩ := does_publishPayload
    hpublishes.payload hopened.parent (MountTree.node_eq_none hfile hopened.path)
      hpublishes.temporary hpublishes.name
  exact ⟨linked, st', stops, hrun, hstop, hlinked, hst'⟩

/-- Behind the checks of the preimage. -/
theorem undisturbed_applyFencedUpdate {old new : GenerationFileIdentity} {result : EntryResult}
    {st' : MountTree} {stops : MountTree → Prop}
    (hpreimage : HoldsPreimage call target old st) (hpath : st.node target.path ≠ some .directory)
    (attempts : Nat)
    (hrest : Undisturbed (match (st.file target.path).map call.digest with
      | some actual =>
          if actual = new.contentSha256 then return .of .applied true
          else return .of (.conflict (some actual) (some new)) true
      | none => do
          match ← call.publishPayload target new with
          | .published => return .of .applied true
          | .occupied => call.applyFencedUpdate target old new attempts) st (.ok result) st' stops) :
    Undisturbed (call.applyFencedUpdate target old new (attempts + 1)) st (.ok result) st'
      stops := by
  obtain ⟨bytes, hfile, hdigest⟩ := hpreimage
  have hhandle : Reads (call.digestOpenFileHandle target call.preimageName) st _ :=
    reads_digestOpenFileHandle hfile
  rw [hdigest] at hhandle
  refine Program.Does.read (reads_openNamed_of_file hfile) ?_
  dsimp only
  rw [hdigest, if_neg (fun hne => hne rfl)]
  refine Program.Does.read (reads_callHook _) (Program.Does.read hhandle ?_)
  rw [if_neg (fun hne => hne rfl)]
  refine Program.Does.read (reads_callHook _) (Program.Does.read hhandle ?_)
  rw [if_neg (fun hne => hne rfl)]
  refine Program.Does.read (reads_digestTarget hpath) ?_
  exact hrest

/-- The preimage is there, and the file of the target is not: the payload is published. -/
theorem does_applyFencedUpdate_publish {old new : GenerationFileIdentity} {bytes : List UInt8}
    (hopened : Opened target st) (hpreimage : HoldsPreimage call target old st)
    (hpublishes : Publishes call target new bytes st) (hfile : st.file target.path = none)
    (attempts : Nat) :
    ∃ linked st' stops, Undisturbed (call.applyFencedUpdate target old new (attempts + 1)) st
      (.ok (.of .applied true)) st' stops ∧ stops linked ∧
        PublishedTo call target bytes st linked st' := by
  obtain ⟨linked, st', stops, hpublish, hstop, hpublished⟩ := does_publish hopened hpublishes hfile
  have hrun : Undisturbed (call.applyFencedUpdate target old new (attempts + 1)) st
      (.ok (.of .applied true)) st' (fun stop => stops stop ∨ stop = st') := by
    refine undisturbed_applyFencedUpdate hpreimage hopened.path attempts ?_
    rw [hfile]
    exact hpublish.bind (.pure _ st')
  exact ⟨linked, st', _, hrun, Or.inl hstop, hpublished⟩

theorem reads_applyFencedUpdate_of_preimage {old new : GenerationFileIdentity} {bytes : List UInt8}
    (hpreimage : HoldsPreimage call target old st) (hfile : st.file target.path = some bytes)
    (attempts : Nat) :
    Reads (call.applyFencedUpdate target old new (attempts + 1)) st
      (.ok (if call.digest bytes = new.contentSha256 then .of .applied true
        else .of (.conflict (some (call.digest bytes)) (some new)) true)) := by
  refine undisturbed_applyFencedUpdate hpreimage (MountTree.ne_directory_of_file hfile) attempts ?_
  rw [hfile]
  dsimp only [Option.map_some]
  split <;> exact .pure _ st

/-- An update that was not begun, of a file that is not the old one. -/
theorem reads_applyFencedUpdate {old new : GenerationFileIdentity} (hopened : Opened target st)
    (hpreimage : st.node (target.parent ++ [call.preimageName]) = none)
    (hkept : ∀ bytes, st.file target.path = some bytes →
      call.digest bytes ≠ new.contentSha256 → call.digest bytes ≠ old.contentSha256)
    (attempts : Nat) :
    ∃ result, Reads (call.applyFencedUpdate target old new (attempts + 1)) st (.ok result) := by
  have hopen : Reads (target.openNamed call.preimageName) st (.ok none) :=
    reads_openNamed_of_none hpreimage
  have hcurrent : Reads (call.digestTarget target) st _ := reads_digestTarget hopened.path
  cases hfile : st.file target.path with
  | none =>
      rw [hfile] at hcurrent
      exact ⟨_, hopen.read (hcurrent.read (.pure (EntryResult.of (.conflict none (some new)) false)
        st))⟩
  | some bytes =>
      rw [hfile] at hcurrent
      by_cases hnew : call.digest bytes = new.contentSha256
      · refine ⟨.of .applied false, hopen.read (hcurrent.read ?_)⟩
        dsimp only [Option.map_some]
        rw [if_pos hnew]
        exact .pure _ st
      · refine ⟨.of (.conflict (some (call.digest bytes)) (some new)) false,
          hopen.read (hcurrent.read ?_)⟩
        dsimp only [Option.map_some]
        rw [if_neg hnew, if_neg (hkept bytes hfile hnew)]
        exact .pure _ st

/-- An update that was not begun, of a file that is the old one and not the new one. -/
theorem does_applyFencedUpdate {old new : GenerationFileIdentity} {bytes local_ : List UInt8}
    (hopened : Opened target st)
    (hpreimage : st.node (target.parent ++ [call.preimageName]) = none)
    (hpublishes : Publishes call target new bytes st)
    (htemporary : call.temporaryName ≠ call.preimageName)
    (hfile : st.file target.path = some local_) (hold : call.digest local_ = old.contentSha256)
    (hnew : call.digest local_ ≠ new.contentSha256) (attempts : Nat) :
    ∃ moved linked st' stops,
      Undisturbed (call.applyFencedUpdate target old new (attempts + 2)) st
        (.ok (.of .applied true)) st' stops ∧ stops linked ∧
      moved.node = Function.update (Function.update st.node target.path none)
        (target.parent ++ [call.preimageName]) (some (.file local_)) ∧
      PublishedTo call target bytes moved linked st' := by
  have hopen : Reads (target.openNamed call.preimageName) st (.ok none) :=
    reads_openNamed_of_none hpreimage
  have hcurrent : Reads (call.digestTarget target) st _ := reads_digestTarget hopened.path
  rw [hfile] at hcurrent
  obtain ⟨moved, hmove, hmoved⟩ :=
    does_tryRename hopened.parent (MountTree.node_of_file hfile) hpreimage
  obtain ⟨hopened', hpreimage', hgone⟩ := moved_to_preimage hopened hfile hpreimage hmoved
  have htemporary' : moved.node (target.parent ++ [call.temporaryName]) = none := by
    have hne : target.parent ++ [call.temporaryName] ≠ target.parent ++ [call.preimageName] :=
      fun heq => htemporary (List.cons.inj (List.append_cancel_left heq)).1
    have hne' : target.parent ++ [call.temporaryName] ≠ target.parent ++ [target.name] :=
      fun heq => hpublishes.name (List.cons.inj (List.append_cancel_left heq)).1.symm
    rw [hmoved, Function.update_of_ne hne, Function.update_of_ne hne', hpublishes.temporary]
  obtain ⟨linked, st', stops, hrest, hstop, hpublished⟩ :=
    does_applyFencedUpdate_publish hopened' ⟨local_, hpreimage', hold⟩
      ⟨hpublishes.payload, htemporary', hpublishes.name⟩ hgone attempts
  have hrun : Undisturbed (call.applyFencedUpdate target old new (attempts + 2)) st
      (.ok (.of .applied true)) st'
        (fun stop => (stop = st ∨ stop = moved) ∨ stops stop) := by
    refine hopen.read (hcurrent.read ?_)
    dsimp only [Option.map_some]
    rw [if_neg hnew, if_pos hold]
    exact hmove.bind (Program.Does.read (reads_callHook _) hrest)
  exact ⟨moved, linked, st', _, hrun, Or.inr hstop, hmoved, hpublished⟩

/-! ## Fenced renames -/

section Rename

variable {source destination : SecureTarget} {old new : GenerationFileIdentity}

/-- Another file is at the destination. -/
theorem reads_applyFencedRename_of_occupied (hsource : st.node source.path ≠ some .directory)
    {bytes : List UInt8} (hfile : st.file destination.path = some bytes)
    (hnew : call.digest bytes ≠ new.contentSha256) (attempts : Nat) :
    Reads (call.applyFencedRename source destination old new (attempts + 1)) st
      (.ok (.of (.conflict ((st.file source.path).map call.digest) (some new)) false)) := by
  have hcurrent : Reads (call.digestTarget destination) st _ :=
    reads_digestTarget (MountTree.ne_directory_of_file hfile)
  rw [hfile] at hcurrent
  refine Program.Does.read hcurrent ?_
  rw [if_pos (by rw [Option.map_some, Option.any_some, decide_eq_true hnew])]
  exact reads_conflictOutcome hsource _

/-- The destination is free, or holds the new content. -/
def Admits (call : EntryCall) (destination : SecureTarget) (new : GenerationFileIdentity)
    (st : MountTree) : Prop :=
  ∀ bytes, st.file destination.path = some bytes → call.digest bytes = new.contentSha256

theorem exists_of_not_admits (h : ¬ Admits call destination new st) :
    ∃ bytes, st.file destination.path = some bytes ∧ call.digest bytes ≠ new.contentSha256 := by
  by_contra hall
  exact h fun bytes hfile => not_not.mp fun hne => hall ⟨bytes, hfile, hne⟩

theorem not_any_of_admits (hadmits : Admits call destination new st) :
    ¬ (((st.file destination.path).map call.digest).any fun digest =>
      decide (digest ≠ new.contentSha256)) = true := by
  cases hfile : st.file destination.path with
  | none => exact nofun
  | some bytes =>
      rw [Option.map_some, Option.any_some, decide_eq_true_eq, not_not]
      exact hadmits bytes hfile

/-- Behind the checks of the preimage. -/
theorem undisturbed_applyFencedRename {result : EntryResult} {st' : MountTree}
    {stops : MountTree → Prop} (hdestination : st.node destination.path ≠ some .directory)
    (hadmits : Admits call destination new st) (hpreimage : HoldsPreimage call source old st)
    (attempts : Nat)
    (hrest : Undisturbed (match (st.file destination.path).map call.digest with
      | some _ => return .of .applied true
      | none => do
          match ← call.publishPayload destination new with
          | .published => return .of .applied true
          | .occupied => call.applyFencedRename source destination old new attempts) st
            (.ok result) st' stops) :
    Undisturbed (call.applyFencedRename source destination old new (attempts + 1)) st
      (.ok result) st' stops := by
  obtain ⟨bytes, hfile, hdigest⟩ := hpreimage
  have hhandle : Reads (call.digestOpenFileHandle source call.preimageName) st _ :=
    reads_digestOpenFileHandle hfile
  rw [hdigest] at hhandle
  refine Program.Does.read (reads_digestTarget hdestination) ?_
  rw [if_neg (not_any_of_admits hadmits)]
  refine Program.Does.read (reads_openNamed_of_file hfile) ?_
  dsimp only
  rw [hdigest, if_neg (fun hne => hne rfl)]
  refine Program.Does.read (reads_callHook _) (Program.Does.read hhandle ?_)
  rw [if_neg (fun hne => hne rfl)]
  refine Program.Does.read (reads_callHook _) (Program.Does.read hhandle ?_)
  rw [if_neg (fun hne => hne rfl)]
  exact hrest

theorem reads_applyFencedRename_of_preimage {bytes : List UInt8}
    (hfile : st.file destination.path = some bytes)
    (hnew : call.digest bytes = new.contentSha256) (hpreimage : HoldsPreimage call source old st)
    (attempts : Nat) :
    Reads (call.applyFencedRename source destination old new (attempts + 1)) st
      (.ok (.of .applied true)) := by
  have hadmits : Admits call destination new st := by
    intro found hfound
    rw [hfile] at hfound
    cases hfound
    exact hnew
  refine undisturbed_applyFencedRename (MountTree.ne_directory_of_file hfile) hadmits hpreimage
    attempts ?_
  rw [hfile]
  exact .pure _ st

/-- The preimage is there, and nothing is at the destination: the payload is published. -/
theorem does_applyFencedRename_publish {bytes : List UInt8} (hopened : Opened destination st)
    (hpreimage : HoldsPreimage call source old st)
    (hpublishes : Publishes call destination new bytes st)
    (hfile : st.file destination.path = none) (attempts : Nat) :
    ∃ linked st' stops,
      Undisturbed (call.applyFencedRename source destination old new (attempts + 1)) st
        (.ok (.of .applied true)) st' stops ∧ stops linked ∧
      PublishedTo call destination bytes st linked st' := by
  obtain ⟨linked, st', stops, hpublish, hstop, hpublished⟩ := does_publish hopened hpublishes hfile
  have hadmits : Admits call destination new st := by
    intro found hfound
    rw [hfile] at hfound
    cases hfound
  have hrun : Undisturbed (call.applyFencedRename source destination old new (attempts + 1)) st
      (.ok (.of .applied true)) st' (fun stop => stops stop ∨ stop = st') := by
    refine undisturbed_applyFencedRename hopened.path hadmits hpreimage attempts ?_
    rw [hfile]
    exact hpublish.bind (.pure _ st')
  exact ⟨linked, st', _, hrun, Or.inl hstop, hpublished⟩

/-- A rename that was not begun, of a file that is not the old one. -/
theorem reads_applyFencedRename (hsource : st.node source.path ≠ some .directory)
    (hdestination : st.node destination.path ≠ some .directory)
    (hpreimage : st.node (source.parent ++ [call.preimageName]) = none)
    (hkept : ∀ bytes, st.file source.path = some bytes →
      call.digest bytes ≠ old.contentSha256) (attempts : Nat) :
    ∃ result, Reads (call.applyFencedRename source destination old new (attempts + 1)) st
      (.ok result) := by
  by_cases hadmits : Admits call destination new st
  · have hkept' : (st.file source.path).map call.digest ≠ some old.contentSha256 := by
      intro heq
      obtain ⟨bytes, hbytes, hdigest⟩ := Option.map_eq_some_iff.mp heq
      exact hkept bytes hbytes hdigest
    have hbegin : ∀ {result : EntryResult}, Reads
        (if (st.file source.path).map call.digest = none ∧
            (st.file destination.path).map call.digest = some new.contentSha256 then
          return .of .applied false
        else call.conflictOutcome source (some new)) st (.ok result) →
          Reads (call.applyFencedRename source destination old new (attempts + 1)) st
            (.ok result) := by
      intro result hrest
      refine Program.Does.read (reads_digestTarget hdestination) ?_
      rw [if_neg (not_any_of_admits hadmits)]
      refine Program.Does.read (reads_openNamed_of_none hpreimage)
        (Program.Does.read (reads_digestTarget hsource) ?_)
      rw [if_neg hkept']
      exact hrest
    by_cases hdone : (st.file source.path).map call.digest = none ∧
        (st.file destination.path).map call.digest = some new.contentSha256
    · refine ⟨.of .applied false, hbegin ?_⟩
      rw [if_pos hdone]
      exact .pure _ st
    · refine ⟨.of (.conflict ((st.file source.path).map call.digest) (some new)) false,
        hbegin ?_⟩
      rw [if_neg hdone]
      exact reads_conflictOutcome hsource _
  · obtain ⟨bytes, hfile, hnew⟩ := exists_of_not_admits hadmits
    exact ⟨_, reads_applyFencedRename_of_occupied hsource hfile hnew attempts⟩

/-- A rename that was not begun, of the old file to a destination that admits the new one. -/
theorem undisturbed_applyFencedRename_move {local_ : List UInt8} {result : EntryResult}
    {moved st' : MountTree} {stops : MountTree → Prop}
    (hsource : Opened source st) (hdestination : st.node destination.path ≠ some .directory)
    (hpreimage : st.node (source.parent ++ [call.preimageName]) = none)
    (hadmits : Admits call destination new st) (hfile : st.file source.path = some local_)
    (hold : call.digest local_ = old.contentSha256) (attempts : Nat)
    (hmove : Undisturbed (source.tryRename source.name call.preimageName) st (.ok (.ok ())) moved
      (fun stop => stop = st ∨ stop = moved))
    (hrest : Undisturbed (call.applyFencedRename source destination old new attempts) moved
      (.ok result) st' stops) :
    Undisturbed (call.applyFencedRename source destination old new (attempts + 1)) st
      (.ok result) st' (fun stop => (stop = st ∨ stop = moved) ∨ stops stop) := by
  have hcurrent : Reads (call.digestTarget source) st _ := reads_digestTarget hsource.path
  rw [hfile] at hcurrent
  refine Program.Does.read (reads_digestTarget hdestination) ?_
  rw [if_neg (not_any_of_admits hadmits)]
  refine Program.Does.read (reads_openNamed_of_none hpreimage) (Program.Does.read hcurrent ?_)
  rw [Option.map_some, hold, if_pos rfl]
  exact hmove.bind (Program.Does.read (reads_ofMount (.ok ()) moved)
    (Program.Does.read (reads_callHook _) hrest))

end Rename

/-! ## Creates -/

theorem reads_applyCreate {new : GenerationFileIdentity} {bytes : List UInt8}
    (hfile : st.file target.path = some bytes) :
    Reads (call.applyCreate target new) st
      (.ok (if call.digest bytes = new.contentSha256 then .of .applied false
        else .of (.conflict (some (call.digest bytes)) (some new)) false)) := by
  have hcurrent : Reads (call.digestTarget target) st _ :=
    reads_digestTarget (MountTree.ne_directory_of_file hfile)
  rw [hfile] at hcurrent
  refine Program.Does.read hcurrent ?_
  dsimp only [Option.map_some]
  split <;> exact .pure _ st

theorem does_applyCreate {new : GenerationFileIdentity} {bytes : List UInt8}
    (hopened : Opened target st) (hpublishes : Publishes call target new bytes st)
    (hfile : st.file target.path = none) :
    ∃ linked st' stops, Undisturbed (call.applyCreate target new) st
      (.ok (.of .applied true)) st' stops ∧ stops linked ∧
        PublishedTo call target bytes st linked st' := by
  obtain ⟨linked, st', stops, hpublish, hstop, hpublished⟩ := does_publish hopened hpublishes hfile
  have hcurrent : Reads (call.digestTarget target) st _ := reads_digestTarget hopened.path
  rw [hfile] at hcurrent
  have hrun : Undisturbed (call.applyCreate target new) st
      (.ok (.of .applied true)) st' (fun stop => stops stop ∨ stop = st') :=
    hcurrent.read (hpublish.bind (.pure _ st'))
  exact ⟨linked, st', _, hrun, Or.inl hstop, hpublished⟩

end Entry

end Locality.Delivery
