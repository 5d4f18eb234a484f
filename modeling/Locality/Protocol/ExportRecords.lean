/-
  Protocol/ExportRecords.lean --- the preimage of a canonical inventory determines the
  inventory.

  A record leaves out what its path gives: the depth of a directory, the parent of a
  file.  The control record is left out whole; validation puts one at the end.
-/
import Locality.Protocol.ExportFrames
import Mathlib.Data.List.Chain

set_option autoImplicit false

namespace Locality.Protocol

open Locality.Core Locality.Foundation

theorem selfDelimiting_u32 :
    SelfDelimiting (fun value : UInt32 => value.toNat < 256 ^ 8)
      fun value => toBeBytes 8 value.toNat :=
  (selfDelimiting_toBeBytes 8).comap fun _ _ => UInt32.toNat_inj.mp

theorem fits_u32 (value : UInt32) : value.toNat < 256 ^ 8 :=
  value.toNat_lt.trans (by decide)

namespace Scope

/-! ## What a scan of records knows -/

section Scan

variable {unicode : UnicodeTables} {scan scan' : RecordScan} {record : CanonicalExportRecord}

theorem RecordScan.claimPath_ok (h : scan.claimPath record = .ok scan') :
    scan'.previousKey = scan.previousKey ∧ scan'.controlCount = scan.controlCount := by
  unfold claimPath at h
  split at h
  · cases h
    exact ⟨rfl, rfl⟩
  · obtain ⟨-, h⟩ := ite_throw_eq_ok.mp h
    cases h
    exact ⟨rfl, rfl⟩

theorem RecordScan.claimParent_ok (h : scan.claimParent unicode record = .ok scan') :
    scan'.previousKey = scan.previousKey ∧
      scan'.controlCount = scan.controlCount + record.isControl.toNat := by
  cases record with
  | directory key =>
      obtain ⟨parent, -, h⟩ := bind_eq_ok.mp h
      obtain ⟨_, -, h⟩ := bind_eq_ok.mp h
      cases h
      exact ⟨rfl, rfl⟩
  | file key sourceConnectionId fileKind effectiveActions contentSha256 byteLength =>
      obtain ⟨_, -, h⟩ := bind_eq_ok.mp h
      obtain ⟨_, -, h⟩ := bind_eq_ok.mp h
      cases h
      exact ⟨rfl, rfl⟩
  | control key memberPath =>
      cases h
      exact ⟨rfl, rfl⟩

theorem RecordScan.step_ok (h : scan.step unicode record = .ok scan') :
    record.validate unicode = .ok () ∧
      (∀ previous ∈ scan.previousKey, previous.rank < record.orderKey.rank) ∧
      scan'.previousKey = some record.orderKey ∧
      scan'.controlCount = scan.controlCount + record.isControl.toNat := by
  obtain ⟨_, hvalid, h⟩ := bind_eq_ok.mp h
  obtain ⟨scan₁, hpath, h⟩ := bind_eq_ok.mp h
  obtain ⟨scan₂, hparent, h⟩ := bind_eq_ok.mp h
  obtain ⟨_, horder, h⟩ := bind_eq_ok.mp h
  cases h
  obtain ⟨hkey₁, hcount₁⟩ := claimPath_ok hpath
  obtain ⟨hkey₂, hcount₂⟩ := claimParent_ok hparent
  rw [failIf_eq_ok, hkey₂, hkey₁] at horder
  refine ⟨hvalid, fun previous hmem => ?_, rfl, hcount₂.trans (congrArg (· + _) hcount₁)⟩
  exact not_le.mp fun hle => horder ⟨previous, hmem, hle⟩

/-- The keys of records rise, each record is valid, and the controls are counted. -/
theorem RecordScan.run_ok {records : List CanonicalExportRecord}
    (h : records.foldlM (fun (scan : RecordScan) record => scan.step unicode record) scan =
      .ok scan') :
    (∀ record ∈ records, record.validate unicode = .ok ()) ∧
      (scan.previousKey.toList ++ records.map CanonicalExportRecord.orderKey).IsChain
        (fun key key' => key.rank < key'.rank) ∧
      scan'.controlCount = scan.controlCount + records.countP CanonicalExportRecord.isControl := by
  induction records generalizing scan with
  | nil =>
      cases h
      refine ⟨fun _ h => (nomatch h), ?_, rfl⟩
      cases scan'.previousKey with
      | none => exact List.isChain_nil
      | some key => exact List.isChain_singleton key
  | cons record records ih =>
      rw [List.foldlM_cons] at h
      obtain ⟨scan₁, hstep, h⟩ := bind_eq_ok.mp h
      obtain ⟨hvalid, hrises, hkey, hcount⟩ := step_ok hstep
      obtain ⟨hrest, hchain, hcounts⟩ := ih h
      rw [hkey] at hchain
      refine ⟨List.forall_mem_cons.mpr ⟨hvalid, hrest⟩, ?_, ?_⟩
      · cases hprevious : scan.previousKey with
        | none => exact hchain
        | some previous =>
            exact List.isChain_cons_cons.mpr ⟨hrises previous hprevious, hchain⟩
      · rw [hcounts, hcount, List.countP_cons]
        cases record.isControl <;> simp only [Bool.toNat, cond, if_true, Bool.false_eq_true,
          if_false] <;> omega

end Scan

/-! ## One control record, and it is last -/

/-- The only control record that is valid. -/
def endControl : CanonicalExportRecord := .control ⟨0⟩ reservedExportMetadataPath

variable {unicode : UnicodeTables}

theorem eq_endControl {record : CanonicalExportRecord} (hcontrol : record.isControl = true)
    (hvalid : record.validate unicode = .ok ()) : record = endControl := by
  cases record with
  | directory key => exact nomatch hcontrol
  | file key sourceConnectionId fileKind effectiveActions contentSha256 byteLength =>
      exact nomatch hcontrol
  | control key memberPath =>
      obtain ⟨hordinal, hpath⟩ := not_or.mp (failIf_eq_ok.mp hvalid)
      obtain ⟨ordinal⟩ := key
      rw [not_not] at hordinal hpath
      rw [endControl, hpath]
      exact congrArg (CanonicalExportRecord.control · _)
        (congrArg CanonicalControlOrderKey.mk hordinal)

/-- Nothing valid comes behind the control record. -/
theorem not_endControl_lt {record : CanonicalExportRecord}
    (hvalid : record.validate unicode = .ok ()) :
    ¬ endControl.orderKey.rank < record.orderKey.rank := by
  intro hlt
  cases record with
  | directory key => exact absurd (Sum.Lex.toLex_lt_toLex.mp hlt) Sum.lex_inr_inl
  | file key sourceConnectionId fileKind effectiveActions contentSha256 byteLength =>
      have hinner := Sum.lex_inr_inr.mp (Sum.Lex.toLex_lt_toLex.mp hlt)
      exact absurd (Sum.Lex.toLex_lt_toLex.mp hinner) Sum.lex_inr_inl
  | control key memberPath =>
      rw [eq_endControl rfl hvalid] at hlt
      exact lt_irrefl _ hlt

theorem records_of_validate {records : List CanonicalExportRecord}
    (h : validateCanonicalExportRecords unicode records = .ok ()) :
    ∃ front, records = front ++ [endControl] ∧
      ∀ record ∈ front, record.isControl = false ∧ record.validate unicode = .ok () := by
  obtain ⟨scan, hscan, hcount⟩ := bind_eq_ok.mp h
  obtain ⟨hvalid, hchain, hcontrols⟩ := RecordScan.run_ok hscan
  rw [failIf_eq_ok, not_not, hcontrols] at hcount
  have hone : records.countP CanonicalExportRecord.isControl = 1 := by
    simpa only [RecordScan.empty, Nat.zero_add] using hcount
  have hsome : ∃ record ∈ records, record.isControl = true :=
    List.countP_pos_iff.mp (hone ▸ Nat.one_pos)
  obtain ⟨control, hmem, hcontrol⟩ := hsome
  obtain ⟨front, back, rfl⟩ := List.append_of_mem hmem
  have hend := eq_endControl hcontrol (hvalid control hmem)
  subst hend
  have hback : back = [] := by
    cases back with
    | nil => rfl
    | cons next back =>
        have hkeys := hchain
        rw [RecordScan.empty, Option.toList_none, List.nil_append, List.map_append,
          List.map_cons, List.map_cons] at hkeys
        have hnext := (List.isChain_cons_cons.mp hkeys.right_of_append).1
        have hmemNext : next ∈ front ++ endControl :: next :: back :=
          List.mem_append_right _ (List.mem_cons_of_mem _ List.mem_cons_self)
        exact absurd hnext (not_endControl_lt (hvalid next hmemNext))
  subst hback
  refine ⟨front, rfl, fun record hrecord => ⟨?_, hvalid record (List.mem_append_left _ hrecord)⟩⟩
  rw [List.countP_append] at hone
  have hzero : front.countP CanonicalExportRecord.isControl = 0 := by
    have hlast : [endControl].countP CanonicalExportRecord.isControl = 1 := rfl
    omega
  exact Bool.eq_false_iff.mpr (List.countP_eq_zero.mp hzero record hrecord)

/-! ## Frames of records -/

namespace CanonicalExportRecord

def Fits : CanonicalExportRecord → Prop
  | directory key => Protocol.Fits key.logicalPath.value
  | file key sourceConnectionId fileKind effectiveActions contentSha256 byteLength =>
      key.winningScopeOrdinal.toNat < 256 ^ 8 ∧ Protocol.Fits sourceConnectionId.value ∧
        Protocol.Fits key.projectionId.value ∧ Protocol.Fits key.logicalPath.value ∧
        Protocol.Fits (projectionFileKindWireLabel fileKind) ∧ ActionsFit effectiveActions ∧
        Protocol.Fits contentSha256 ∧ byteLength.toNat < 256 ^ 8
  | control _ _ => True

def frame : CanonicalExportRecord → List UInt8
  | directory key => frameText "directory".toList ++ frameText key.logicalPath.value
  | file key sourceConnectionId fileKind effectiveActions contentSha256 byteLength =>
      frameText "file".toList ++ (toBeBytes 8 key.winningScopeOrdinal.toNat ++
        (frameText sourceConnectionId.value ++ (frameText key.projectionId.value ++
        (frameText key.logicalPath.value ++ (frameKind fileKind ++
        (frameActions effectiveActions ++ (frameText contentSha256 ++
          toBeBytes 8 byteLength.toNat)))))))
  | control _ _ => []

theorem appendRecord_ok {output output' : List UInt8} {record : CanonicalExportRecord}
    (h : appendRecord output record = .ok output') :
    record.Fits ∧ output' = output ++ record.frame := by
  cases record with
  | directory key =>
      obtain ⟨-, h⟩ := appendTextOr_then h
      obtain ⟨hpath, rfl⟩ := appendTextOr_eq_ok.mp h
      exact ⟨hpath, List.append_assoc _ _ _⟩
  | file key sourceConnectionId fileKind effectiveActions contentSha256 byteLength =>
      obtain ⟨-, h⟩ := appendTextOr_then h
      obtain ⟨hsource, h⟩ := appendTextOr_then h
      obtain ⟨hprojection, h⟩ := appendTextOr_then h
      obtain ⟨hpath, h⟩ := appendTextOr_then h
      obtain ⟨hkind, h⟩ := appendTextOr_then h
      obtain ⟨_, h₁, h⟩ := bind_eq_ok.mp h
      obtain ⟨hactions, rfl⟩ := appendActionsOr_ok h₁
      obtain ⟨hdigest, h⟩ := appendTextOr_then h
      cases h
      refine ⟨⟨fits_u32 _, hsource, hprojection, hpath, hkind, hactions, hdigest, fits_u64 _⟩, ?_⟩
      simp only [frame, frameKind, List.append_assoc]
  | control key memberPath =>
      cases h
      exact ⟨trivial, (List.append_nil _).symm⟩

/-- A record that is written and that is valid. -/
def Sealed (unicode : UnicodeTables) (self : CanonicalExportRecord) : Prop :=
  self.Fits ∧ self.isControl = false ∧ self.validate unicode = .ok ()

/-- What is written of a file, in the order in which it is written. -/
theorem selfDelimiting_file :
    SelfDelimiting (fun fields : UInt32 × Text × Text × Text × ProjectionFileKind × ActionSet ×
        Text × UInt64 =>
      fields.1.toNat < 256 ^ 8 ∧ Protocol.Fits fields.2.1 ∧ Protocol.Fits fields.2.2.1 ∧
        Protocol.Fits fields.2.2.2.1 ∧
        Protocol.Fits (projectionFileKindWireLabel fields.2.2.2.2.1) ∧
        ActionsFit fields.2.2.2.2.2.1 ∧ Protocol.Fits fields.2.2.2.2.2.2.1 ∧
        fields.2.2.2.2.2.2.2.toNat < 256 ^ 8)
      fun fields => toBeBytes 8 fields.1.toNat ++ (frameText fields.2.1 ++
        (frameText fields.2.2.1 ++ (frameText fields.2.2.2.1 ++ (frameKind fields.2.2.2.2.1 ++
        (frameActions fields.2.2.2.2.2.1 ++ (frameText fields.2.2.2.2.2.2.1 ++
          toBeBytes 8 fields.2.2.2.2.2.2.2.toNat)))))) :=
  selfDelimiting_u32.pair (selfDelimiting_text.pair (selfDelimiting_text.pair
    (selfDelimiting_text.pair (selfDelimiting_kind.pair (selfDelimiting_actions.pair
      (selfDelimiting_text.pair selfDelimiting_u64))))))

theorem fits_directory : Protocol.Fits "directory".toList := by unfold Protocol.Fits; decide

theorem fits_file : Protocol.Fits "file".toList := by unfold Protocol.Fits; decide

theorem parent_of_validate {key : CanonicalFileOrderKey} {sourceConnectionId : SourceConnectionId}
    {fileKind : ProjectionFileKind} {effectiveActions : ActionSet} {contentSha256 : Text}
    {byteLength : UInt64} (h : (CanonicalExportRecord.file key sourceConnectionId fileKind
      effectiveActions contentSha256 byteLength).validate unicode = .ok ()) :
    logicalParent unicode key.logicalPath = .ok key.parentPath := by
  obtain ⟨_, -, h⟩ := bind_eq_ok.mp h
  obtain ⟨parent, hparent, h⟩ := bind_eq_ok.mp h
  obtain ⟨_, hsame, -⟩ := bind_eq_ok.mp h
  rw [hparent, not_not.mp (failIf_eq_ok.mp hsame)]

theorem depth_of_validate {key : CanonicalDirectoryOrderKey}
    (h : (CanonicalExportRecord.directory key).validate unicode = .ok ()) :
    key.depth = pathDepth key.logicalPath := by
  obtain ⟨_, -, h⟩ := bind_eq_ok.mp h
  exact not_not.mp (failIf_eq_ok.mp h)

theorem selfDelimiting_frame : SelfDelimiting (Sealed unicode) frame := by
  intro record record' s t hsealed hsealed' hsame
  cases record with
  | control key memberPath => exact nomatch hsealed.2.1
  | directory key =>
      cases record' with
      | control key' memberPath' => exact nomatch hsealed'.2.1
      | file key' sourceConnectionId' fileKind' effectiveActions' contentSha256' byteLength' =>
          simp only [frame, List.append_assoc] at hsame
          exact absurd hsame (frameText_ne fits_directory fits_file (by decide) _ _)
      | directory key' =>
          simp only [frame, List.append_assoc] at hsame
          obtain ⟨hpath, htail⟩ := selfDelimiting_text _ _ s t hsealed.1 hsealed'.1
            (List.append_cancel_left hsame)
          obtain ⟨depth, ⟨path⟩⟩ := key
          obtain ⟨depth', ⟨path'⟩⟩ := key'
          obtain rfl : path = path' := hpath
          obtain rfl : depth = depth' := (depth_of_validate hsealed.2.2).trans
            (depth_of_validate hsealed'.2.2).symm
          exact ⟨rfl, htail⟩
  | file key sourceConnectionId fileKind effectiveActions contentSha256 byteLength =>
      cases record' with
      | control key' memberPath' => exact nomatch hsealed'.2.1
      | directory key' =>
          simp only [frame, List.append_assoc] at hsame
          exact absurd hsame (frameText_ne fits_file fits_directory (by decide) _ _)
      | file key' sourceConnectionId' fileKind' effectiveActions' contentSha256' byteLength' =>
          rw [frame, frame, List.append_assoc, List.append_assoc] at hsame
          obtain ⟨hfields, htail⟩ := selfDelimiting_file
            (key.winningScopeOrdinal, sourceConnectionId.value, key.projectionId.value,
              key.logicalPath.value, fileKind, effectiveActions, contentSha256, byteLength)
            (key'.winningScopeOrdinal, sourceConnectionId'.value, key'.projectionId.value,
              key'.logicalPath.value, fileKind', effectiveActions', contentSha256', byteLength')
            s t hsealed.1 hsealed'.1 (List.append_cancel_left hsame)
          have hparent := parent_of_validate hsealed.2.2
          have hparent' := parent_of_validate hsealed'.2.2
          obtain ⟨ordinal, parent, ⟨path⟩, ⟨projection⟩⟩ := key
          obtain ⟨ordinal', parent', ⟨path'⟩, ⟨projection'⟩⟩ := key'
          obtain ⟨source⟩ := sourceConnectionId
          obtain ⟨source'⟩ := sourceConnectionId'
          cases hfields
          obtain rfl : parent = parent' := Except.ok.inj (hparent.symm.trans hparent')
          exact ⟨rfl, htail⟩

end CanonicalExportRecord

/-! ## The preimage of an inventory -/

theorem canonicalExportInventoryPreimage_ok {records : List CanonicalExportRecord}
    {bytes : List UInt8} (h : canonicalExportInventoryPreimage unicode records = .ok bytes) :
    ∃ front, records = front ++ [endControl] ∧
      (front.length < 256 ^ 8 ∧ ∀ record ∈ front, record.Sealed unicode) ∧
      bytes = exportInventoryDomain ++
        (toBeBytes 8 front.length ++ front.flatMap CanonicalExportRecord.frame) := by
  obtain ⟨_, hvalid, h⟩ := bind_eq_ok.mp h
  obtain ⟨output, hcount, h⟩ := bind_eq_ok.mp h
  obtain ⟨front, rfl, hfront⟩ := records_of_validate hvalid
  have hfilter : (front ++ [endControl]).filter (!·.isControl) = front := by
    rw [List.filter_append]
    have hnone : [endControl].filter (!·.isControl) = [] := rfl
    have hall : front.filter (!·.isControl) = front :=
      List.filter_eq_self.mpr fun record hrecord => by rw [(hfront record hrecord).1]; rfl
    rw [hnone, hall, List.append_nil]
  rw [hfilter] at hcount
  obtain ⟨hlength, rfl⟩ := appendCountOr_eq_ok.mp hcount
  obtain ⟨hfits, rfl⟩ := foldlM_append_ok appendRecord
    (fun _ _ _ => CanonicalExportRecord.appendRecord_ok) h
  refine ⟨front, rfl, ⟨hlength, fun record hrecord =>
    ⟨hfits record (List.mem_append_left _ hrecord), hfront record hrecord⟩⟩, ?_⟩
  have hnothing : [endControl].flatMap CanonicalExportRecord.frame = [] := rfl
  rw [List.flatMap_append, hnothing, List.append_nil, List.append_assoc]

theorem exportInventoryPreimage_injective {records records' : List CanonicalExportRecord}
    {bytes : List UInt8} (h : canonicalExportInventoryPreimage unicode records = .ok bytes)
    (h' : canonicalExportInventoryPreimage unicode records' = .ok bytes) : records = records' := by
  obtain ⟨front, rfl, hsealed, rfl⟩ := canonicalExportInventoryPreimage_ok h
  obtain ⟨front', rfl, hsealed', hsame⟩ := canonicalExportInventoryPreimage_ok h'
  have hfront := ((selfDelimiting_toBeBytes 8).counted
    CanonicalExportRecord.selfDelimiting_frame).injective hsealed hsealed'
    (List.append_cancel_left hsame)
  rw [hfront]

end Scope

end Locality.Protocol
