/-
  Protocol/DeliveryPreimage.lean --- the preimages of deltas, inventories and receipts
  are unambiguous, and a receipt stands for one delta.

  Every field of a preimage is of a fixed width or stands behind its length, so each is
  self-delimiting, and so is their sequence.
-/
import Locality.Protocol.FreshnessDelivery
import Locality.Foundation.Fallible

set_option autoImplicit false

namespace Locality.Protocol

open Locality.Core Locality.Foundation

/-! ## Fields -/

/-- The length of the text fits its field. -/
def Fits (value : Text) : Prop := (asBytes value).length < 256 ^ 8

def frameText (value : Text) : List UInt8 :=
  toBeBytes 8 (asBytes value).length ++ asBytes value

theorem selfDelimiting_text : SelfDelimiting Fits frameText :=
  (selfDelimiting_toBeBytes 8).framed.comap fun _ _ => asBytes_injective

theorem selfDelimiting_u64 :
    SelfDelimiting (fun value : UInt64 => value.toNat < 256 ^ 8)
      fun value => toBeBytes 8 value.toNat :=
  (selfDelimiting_toBeBytes 8).comap fun _ _ => UInt64.toNat_inj.mp

theorem fits_u64 (value : UInt64) : value.toNat < 256 ^ 8 := value.toNat_lt

theorem selfDelimiting_u16 :
    SelfDelimiting (fun value : UInt16 => value.toUInt64.toNat < 256 ^ 8)
      fun value => toBeBytes 8 value.toUInt64.toNat :=
  selfDelimiting_u64.comap fun a b h => by
    have hsame := congrArg UInt64.toNat h
    simp only [UInt16.toNat_toUInt64] at hsame
    exact UInt16.toNat_inj.mp hsame

theorem countU64_ok {n : Nat} {count : UInt64} (h : countU64 n = .ok count) :
    n < 256 ^ 8 ∧ count.toNat = n := by
  unfold countU64 at h
  split at h
  · rename_i hfits
    cases h
    exact ⟨hfits, Nat.mod_eq_of_lt hfits⟩
  · exact nomatch h

theorem appendText_ok {output output' : List UInt8} {value : Text}
    (h : appendText output value = .ok output') :
    Fits value ∧ output' = output ++ frameText value := by
  obtain ⟨length, hlength, hrest⟩ := bind_eq_ok.mp h
  obtain ⟨hfits, hsame⟩ := countU64_ok hlength
  cases hrest
  refine ⟨hfits, ?_⟩
  rw [appendU64, hsame, List.append_assoc]
  rfl

/-- The text fits, and the rest goes on behind it. -/
theorem appendText_then {α : Type} {output : List UInt8} {value : Text}
    {next : List UInt8 → DeliveryResult α} {a : α}
    (h : (appendText output value >>= next) = .ok a) :
    Fits value ∧ next (output ++ frameText value) = .ok a := by
  obtain ⟨_, happended, h⟩ := bind_eq_ok.mp h
  obtain ⟨hfits, rfl⟩ := appendText_ok happended
  exact ⟨hfits, h⟩

/-! ## Identities -/

def GenerationFileIdentity.Fits (self : GenerationFileIdentity) : Prop :=
  Protocol.Fits self.projectionId.value ∧ Protocol.Fits self.logicalPath.value ∧
    Protocol.Fits self.contentVersionId.value ∧ Protocol.Fits self.contentSha256 ∧
    self.byteLength.toNat < 256 ^ 8

def frameIdentity (identity : GenerationFileIdentity) : List UInt8 :=
  frameText identity.projectionId.value ++ (frameText identity.logicalPath.value ++
    (frameText identity.contentVersionId.value ++ (frameText identity.contentSha256 ++
      toBeBytes 8 identity.byteLength.toNat)))

theorem selfDelimiting_identity :
    SelfDelimiting GenerationFileIdentity.Fits frameIdentity := by
  refine (selfDelimiting_text.pair (selfDelimiting_text.pair (selfDelimiting_text.pair
    (selfDelimiting_text.pair selfDelimiting_u64)))).comap
    (f := fun identity : GenerationFileIdentity => (identity.projectionId.value,
      identity.logicalPath.value, identity.contentVersionId.value, identity.contentSha256,
      identity.byteLength)) ?_
  rintro ⟨⟨projection⟩, ⟨path⟩, ⟨version⟩, digest, length⟩ ⟨⟨_⟩, ⟨_⟩, ⟨_⟩, _, _⟩ h
  cases h
  rfl

theorem appendIdentityFields_ok {output output' : List UInt8} {identity : GenerationFileIdentity}
    (h : appendIdentityFields output identity = .ok output') :
    identity.Fits ∧ output' = output ++ frameIdentity identity := by
  obtain ⟨output₁, h₁, h⟩ := bind_eq_ok.mp h
  obtain ⟨output₂, h₂, h⟩ := bind_eq_ok.mp h
  obtain ⟨output₃, h₃, h⟩ := bind_eq_ok.mp h
  obtain ⟨output₄, h₄, h⟩ := bind_eq_ok.mp h
  cases h
  obtain ⟨hprojection, rfl⟩ := appendText_ok h₁
  obtain ⟨hpath, rfl⟩ := appendText_ok h₂
  obtain ⟨hversion, rfl⟩ := appendText_ok h₃
  obtain ⟨hdigest, rfl⟩ := appendText_ok h₄
  refine ⟨⟨hprojection, hpath, hversion, hdigest, fits_u64 _⟩, ?_⟩
  simp only [appendU64, frameIdentity, List.append_assoc]

def FitsIn (found : Option GenerationFileIdentity) : Prop :=
  ∀ identity, found = some identity → identity.Fits

def frameFound (found : Option GenerationFileIdentity) : List UInt8 :=
  found.elim (frameText "absent".toList) fun identity =>
    frameText "present".toList ++ frameIdentity identity

theorem selfDelimiting_found : SelfDelimiting FitsIn frameFound := by
  refine SelfDelimiting.option (fun s t h => ?_) selfDelimiting_identity
  have habsent : (asBytes "absent".toList).length < 256 ^ 8 := by decide
  have hpresent : (asBytes "present".toList).length < 256 ^ 8 := by decide
  exact absurd (selfDelimiting_text _ _ s t habsent hpresent h).1 (by decide)

theorem appendIdentity_ok {output output' : List UInt8} {found : Option GenerationFileIdentity}
    (h : appendIdentity output found = .ok output') :
    FitsIn found ∧ output' = output ++ frameFound found := by
  cases found with
  | none => exact ⟨fun _ h => (nomatch h), (appendText_ok h).2⟩
  | some identity =>
      obtain ⟨-, h⟩ := appendText_then h
      obtain ⟨hfits, rfl⟩ := appendIdentityFields_ok h
      refine ⟨fun _ hsame => Option.some.inj hsame ▸ hfits, ?_⟩
      rw [List.append_assoc]
      rfl

/-! ## Inventories -/

variable {unicode : UnicodeTables}

theorem appendInventory_ok {output output' : List UInt8} {previous : Option Text}
    {claimed : List Text} {inventory : List GenerationFileIdentity}
    (h : appendInventory unicode output previous claimed inventory = .ok output') :
    (∀ identity ∈ inventory, identity.Fits) ∧
      output' = output ++ inventory.flatMap frameIdentity := by
  induction inventory generalizing output previous claimed with
  | nil =>
      cases h
      exact ⟨fun _ h => (nomatch h), (List.append_nil _).symm⟩
  | cons identity inventory ih =>
      obtain ⟨-, -, h⟩ := bind_eq_ok.mp h
      obtain ⟨-, h⟩ := ite_throw_eq_ok.mp h
      obtain ⟨-, h⟩ := ite_throw_eq_ok.mp h
      obtain ⟨output₁, h₁, h⟩ := bind_eq_ok.mp h
      obtain ⟨hfits, rfl⟩ := appendIdentityFields_ok h₁
      obtain ⟨hrest, rfl⟩ := ih h
      refine ⟨List.forall_mem_cons.mpr ⟨hfits, hrest⟩, ?_⟩
      rw [List.flatMap_cons, List.append_assoc]

theorem canonicalTargetInventoryPreimage_ok {inventory : List GenerationFileIdentity}
    {bytes : List UInt8} (h : canonicalTargetInventoryPreimage unicode inventory = .ok bytes) :
    (inventory.length < 256 ^ 8 ∧ ∀ identity ∈ inventory, identity.Fits) ∧
      bytes = targetInventoryDomain ++
        (toBeBytes 8 inventory.length ++ inventory.flatMap frameIdentity) := by
  obtain ⟨count, hcount, h⟩ := bind_eq_ok.mp h
  obtain ⟨hlength, hsame⟩ := countU64_ok hcount
  obtain ⟨hfits, rfl⟩ := appendInventory_ok h
  refine ⟨⟨hlength, hfits⟩, ?_⟩
  rw [appendU64, hsame, List.append_assoc]

theorem targetInventoryPreimage_injective {inventory inventory' : List GenerationFileIdentity}
    {bytes : List UInt8} (h : canonicalTargetInventoryPreimage unicode inventory = .ok bytes)
    (h' : canonicalTargetInventoryPreimage unicode inventory' = .ok bytes) :
    inventory = inventory' := by
  obtain ⟨hfits, rfl⟩ := canonicalTargetInventoryPreimage_ok h
  obtain ⟨hfits', hsame⟩ := canonicalTargetInventoryPreimage_ok h'
  exact ((selfDelimiting_toBeBytes 8).counted selfDelimiting_identity).injective hfits hfits'
    (List.append_cancel_left hsame)

/-! ## Deltas -/

def GenerationDeltaEntry.Fits (self : GenerationDeltaEntry) : Prop :=
  FitsIn self.old ∧ FitsIn self.new

def frameEntry (entry : GenerationDeltaEntry) : List UInt8 :=
  frameFound entry.old ++ frameFound entry.new

theorem selfDelimiting_entry : SelfDelimiting GenerationDeltaEntry.Fits frameEntry := by
  refine (selfDelimiting_found.pair selfDelimiting_found).comap
    (f := fun entry : GenerationDeltaEntry => (entry.old, entry.new)) ?_
  rintro ⟨old, new⟩ ⟨_, _⟩ h
  cases h
  rfl

theorem appendEntries_ok {output output' : List UInt8} {entries : List GenerationDeltaEntry}
    (h : GenerationDelta.appendEntries output entries = .ok output') :
    (∀ entry ∈ entries, entry.Fits) ∧ output' = output ++ entries.flatMap frameEntry := by
  induction entries generalizing output with
  | nil =>
      cases h
      exact ⟨fun _ h => (nomatch h), (List.append_nil _).symm⟩
  | cons entry entries ih =>
      obtain ⟨output₁, h₁, h⟩ := bind_eq_ok.mp h
      obtain ⟨output₂, h₂, h⟩ := bind_eq_ok.mp h
      obtain ⟨hold, rfl⟩ := appendIdentity_ok h₁
      obtain ⟨hnew, rfl⟩ := appendIdentity_ok h₂
      obtain ⟨hrest, rfl⟩ := ih h
      refine ⟨List.forall_mem_cons.mpr ⟨⟨hold, hnew⟩, hrest⟩, ?_⟩
      simp only [List.flatMap_cons, List.append_assoc, frameEntry]

def completeness (targetComplete : Bool) : Text :=
  if targetComplete then "true".toList else "false".toList

theorem completeness_injective (a b : Bool) (h : completeness a = completeness b) : a = b := by
  cases a <;> cases b <;> first | rfl | exact absurd h (by decide)

namespace GenerationDelta

def Fits (self : GenerationDelta) : Prop :=
  self.formatVersion.toUInt64.toNat < 256 ^ 8 ∧
    self.minimumReaderVersion.toUInt64.toNat < 256 ^ 8 ∧
    Protocol.Fits self.deltaId ∧ Protocol.Fits self.mountId.value ∧
    Protocol.Fits self.sourceConnectionId.value ∧ Protocol.Fits self.baseGenerationId.value ∧
    Protocol.Fits self.targetGenerationId.value ∧
    Protocol.Fits (completeness self.targetComplete) ∧
    Protocol.Fits self.targetInventorySha256 ∧
    self.workspaceLayoutVersion.toUInt64.toNat < 256 ^ 8 ∧
    Protocol.Fits self.workspaceLayoutDigest.value ∧
    self.entries.length < 256 ^ 8 ∧ ∀ entry ∈ self.entries, entry.Fits

def frame (self : GenerationDelta) : List UInt8 :=
  toBeBytes 8 self.formatVersion.toUInt64.toNat ++
    (toBeBytes 8 self.minimumReaderVersion.toUInt64.toNat ++ (frameText self.deltaId ++
    (frameText self.mountId.value ++ (frameText self.sourceConnectionId.value ++
    (frameText self.baseGenerationId.value ++ (frameText self.targetGenerationId.value ++
    (frameText (completeness self.targetComplete) ++ (frameText self.targetInventorySha256 ++
    (toBeBytes 8 self.workspaceLayoutVersion.toUInt64.toNat ++
    (frameText self.workspaceLayoutDigest.value ++ (toBeBytes 8 self.entries.length ++
      self.entries.flatMap frameEntry)))))))))))

theorem selfDelimiting_frame : SelfDelimiting Fits frame := by
  have htext := selfDelimiting_text
  have hflag := htext.comap completeness_injective
  have hentries := (selfDelimiting_toBeBytes 8).counted selfDelimiting_entry
  refine (selfDelimiting_u16.pair (selfDelimiting_u16.pair (htext.pair (htext.pair (htext.pair
    (htext.pair (htext.pair (hflag.pair (htext.pair (selfDelimiting_u16.pair (htext.pair
      hentries))))))))))).comap
    (f := fun delta : GenerationDelta => (delta.formatVersion, delta.minimumReaderVersion,
      delta.deltaId, delta.mountId.value, delta.sourceConnectionId.value,
      delta.baseGenerationId.value, delta.targetGenerationId.value, delta.targetComplete,
      delta.targetInventorySha256, delta.workspaceLayoutVersion,
      delta.workspaceLayoutDigest.value, delta.entries)) ?_
  rintro ⟨_, _, _, ⟨_⟩, ⟨_⟩, ⟨_⟩, ⟨_⟩, _, _, _, ⟨_⟩, _⟩
    ⟨_, _, _, ⟨_⟩, ⟨_⟩, ⟨_⟩, ⟨_⟩, _, _, _, ⟨_⟩, _⟩ h
  cases h
  rfl

variable {jsonLength : GenerationDelta → Option Nat}

theorem canonicalPreimage_ok {delta : GenerationDelta} {bytes : List UInt8}
    (h : delta.canonicalPreimage unicode jsonLength = .ok bytes) :
    delta.Fits ∧ bytes = domain ++ delta.frame := by
  obtain ⟨-, -, h⟩ := bind_eq_ok.mp h
  obtain ⟨hdelta, h⟩ := appendText_then h
  obtain ⟨hmount, h⟩ := appendText_then h
  obtain ⟨hsource, h⟩ := appendText_then h
  obtain ⟨hbase, h⟩ := appendText_then h
  obtain ⟨htarget, h⟩ := appendText_then h
  obtain ⟨hcomplete, h⟩ := appendText_then h
  obtain ⟨hinventory, h⟩ := appendText_then h
  obtain ⟨hdigest, h⟩ := appendText_then h
  obtain ⟨count, hcount, h⟩ := bind_eq_ok.mp h
  obtain ⟨hlength, hsame⟩ := countU64_ok hcount
  obtain ⟨hentries, rfl⟩ := appendEntries_ok h
  refine ⟨⟨fits_u64 _, fits_u64 _, hdelta, hmount, hsource, hbase, htarget, hcomplete,
    hinventory, fits_u64 _, hdigest, hlength, hentries⟩, ?_⟩
  simp only [appendU64, hsame, frame, completeness, List.append_assoc]

theorem preimage_injective {delta delta' : GenerationDelta} {bytes : List UInt8}
    (h : delta.canonicalPreimage unicode jsonLength = .ok bytes)
    (h' : delta'.canonicalPreimage unicode jsonLength = .ok bytes) : delta = delta' := by
  obtain ⟨hfits, rfl⟩ := canonicalPreimage_ok h
  obtain ⟨hfits', hsame⟩ := canonicalPreimage_ok h'
  exact selfDelimiting_frame.injective hfits hfits' (List.append_cancel_left hsame)

end GenerationDelta

/-! ## Receipts -/

namespace GenerationDeltaTerminalReceipt

def Fits (self : GenerationDeltaTerminalReceipt) : Prop :=
  self.formatVersion.toUInt64.toNat < 256 ^ 8 ∧
    self.minimumReaderVersion.toUInt64.toNat < 256 ^ 8 ∧
    Protocol.Fits self.deltaId ∧ Protocol.Fits self.mountId.value ∧
    Protocol.Fits self.sourceConnectionId.value ∧ Protocol.Fits self.baseGenerationId.value ∧
    Protocol.Fits self.targetGenerationId.value ∧ Protocol.Fits self.targetInventorySha256 ∧
    self.workspaceLayoutVersion.toUInt64.toNat < 256 ^ 8 ∧
    Protocol.Fits self.workspaceLayoutDigest.value ∧ Protocol.Fits self.deltaSha256 ∧
    self.entryCount.toNat < 256 ^ 8 ∧ self.changedContentBytes.toNat < 256 ^ 8 ∧
    (UInt64.ofNat self.authorizationEpoch).toNat < 256 ^ 8 ∧ Protocol.Fits self.completedAt

def frame (self : GenerationDeltaTerminalReceipt) : List UInt8 :=
  toBeBytes 8 self.formatVersion.toUInt64.toNat ++
    (toBeBytes 8 self.minimumReaderVersion.toUInt64.toNat ++ (frameText self.deltaId ++
    (frameText self.mountId.value ++ (frameText self.sourceConnectionId.value ++
    (frameText self.baseGenerationId.value ++ (frameText self.targetGenerationId.value ++
    (frameText self.targetInventorySha256 ++
    (toBeBytes 8 self.workspaceLayoutVersion.toUInt64.toNat ++
    (frameText self.workspaceLayoutDigest.value ++ (frameText self.deltaSha256 ++
    (toBeBytes 8 self.entryCount.toNat ++ (toBeBytes 8 self.changedContentBytes.toNat ++
    (toBeBytes 8 (UInt64.ofNat self.authorizationEpoch).toNat ++
      frameText self.completedAt)))))))))))))

theorem epoch_injective (a b : FreshnessEpoch) (h : UInt64.ofNat a = UInt64.ofNat b) : a = b := by
  have hsame := congrArg UInt64.toNat h
  rw [UInt64.toNat_ofNat', UInt64.toNat_ofNat', Nat.mod_eq_of_lt (by omega),
    Nat.mod_eq_of_lt (by omega)] at hsame
  exact Fin.ext hsame

theorem selfDelimiting_frame : SelfDelimiting Fits frame := by
  have htext := selfDelimiting_text
  have hepoch := selfDelimiting_u64.comap epoch_injective
  refine (selfDelimiting_u16.pair (selfDelimiting_u16.pair (htext.pair (htext.pair (htext.pair
    (htext.pair (htext.pair (htext.pair (selfDelimiting_u16.pair (htext.pair (htext.pair
      (selfDelimiting_u64.pair (selfDelimiting_u64.pair (hepoch.pair htext)))))))))))))).comap
    (f := fun receipt : GenerationDeltaTerminalReceipt => (receipt.formatVersion,
      receipt.minimumReaderVersion, receipt.deltaId, receipt.mountId.value,
      receipt.sourceConnectionId.value, receipt.baseGenerationId.value,
      receipt.targetGenerationId.value, receipt.targetInventorySha256,
      receipt.workspaceLayoutVersion, receipt.workspaceLayoutDigest.value, receipt.deltaSha256,
      receipt.entryCount, receipt.changedContentBytes, receipt.authorizationEpoch,
      receipt.completedAt)) ?_
  rintro ⟨_, _, _, ⟨_⟩, ⟨_⟩, ⟨_⟩, ⟨_⟩, _, _, ⟨_⟩, _, _, _, _, _⟩
    ⟨_, _, _, ⟨_⟩, ⟨_⟩, ⟨_⟩, ⟨_⟩, _, _, ⟨_⟩, _, _, _, _, _⟩ h
  cases h
  rfl

theorem canonicalPreimage_ok {receipt : GenerationDeltaTerminalReceipt} {bytes : List UInt8}
    (h : receipt.canonicalPreimage = .ok bytes) :
    receipt.Fits ∧ bytes = domain ++ receipt.frame := by
  obtain ⟨-, -, h⟩ := bind_eq_ok.mp h
  obtain ⟨hdelta, h⟩ := appendText_then h
  obtain ⟨hmount, h⟩ := appendText_then h
  obtain ⟨hsource, h⟩ := appendText_then h
  obtain ⟨hbase, h⟩ := appendText_then h
  obtain ⟨htarget, h⟩ := appendText_then h
  obtain ⟨hinventory, h⟩ := appendText_then h
  obtain ⟨hlayout, h⟩ := appendText_then h
  obtain ⟨hdigest, h⟩ := appendText_then h
  obtain ⟨hcompleted, rfl⟩ := appendText_ok h
  refine ⟨⟨fits_u64 _, fits_u64 _, hdelta, hmount, hsource, hbase, htarget, hinventory,
    fits_u64 _, hlayout, hdigest, fits_u64 _, fits_u64 _, fits_u64 _, hcompleted⟩, ?_⟩
  simp only [appendU64, frame, List.append_assoc]

theorem preimage_injective {receipt receipt' : GenerationDeltaTerminalReceipt}
    {bytes : List UInt8} (h : receipt.canonicalPreimage = .ok bytes)
    (h' : receipt'.canonicalPreimage = .ok bytes) : receipt = receipt' := by
  obtain ⟨hfits, rfl⟩ := canonicalPreimage_ok h
  obtain ⟨hfits', hsame⟩ := canonicalPreimage_ok h'
  exact selfDelimiting_frame.injective hfits hfits' (List.append_cancel_left hsame)

variable {jsonLength : GenerationDelta → Option Nat} {sha256 : List UInt8 → List UInt8}

/-- A receipt that was validated against a delta has the digest of its preimage. -/
theorem digest_of_validateAgainst {receipt : GenerationDeltaTerminalReceipt}
    {delta : GenerationDelta}
    (h : receipt.validateAgainst unicode jsonLength sha256 delta = .ok ()) :
    ∃ bytes, delta.canonicalPreimage unicode jsonLength = .ok bytes ∧
      receipt.deltaSha256 = sha256Label sha256 bytes := by
  obtain ⟨-, -, h⟩ := bind_eq_ok.mp h
  obtain ⟨-, -, h⟩ := bind_eq_ok.mp h
  obtain ⟨entryCount, -, h⟩ := bind_eq_ok.mp h
  obtain ⟨-, h⟩ := ite_throw_eq_ok.mp h
  obtain ⟨label, hlabel, h⟩ := bind_eq_ok.mp h
  obtain ⟨hsame, -⟩ := ite_throw_eq_ok.mp h
  obtain ⟨bytes, hbytes, hdigest⟩ := bind_eq_ok.mp hlabel
  cases hdigest
  exact ⟨bytes, hbytes, not_not.mp (not_or.mp hsame).1⟩

end GenerationDeltaTerminalReceipt

/-! ## Unambiguous preimages -/

/-- Equal preimages mean equal deltas, equal inventories and equal receipts; and a receipt
that is validated against two deltas, whose preimages do not collide, is validated
against one. -/
theorem preimages_unambiguous (unicode : UnicodeTables)
    (jsonLength : GenerationDelta → Option Nat) (sha256 : List UInt8 → List UInt8) :
    (∀ delta delta' : GenerationDelta, ∀ bytes,
      delta.canonicalPreimage unicode jsonLength = .ok bytes →
      delta'.canonicalPreimage unicode jsonLength = .ok bytes → delta = delta') ∧
    (∀ inventory inventory' : List GenerationFileIdentity, ∀ bytes,
      canonicalTargetInventoryPreimage unicode inventory = .ok bytes →
      canonicalTargetInventoryPreimage unicode inventory' = .ok bytes →
        inventory = inventory') ∧
    (∀ receipt receipt' : GenerationDeltaTerminalReceipt, ∀ bytes,
      receipt.canonicalPreimage = .ok bytes → receipt'.canonicalPreimage = .ok bytes →
        receipt = receipt') ∧
    ∀ (receipt : GenerationDeltaTerminalReceipt) (delta delta' : GenerationDelta),
      (∀ bytes bytes', delta.canonicalPreimage unicode jsonLength = .ok bytes →
        delta'.canonicalPreimage unicode jsonLength = .ok bytes' →
          sha256 bytes = sha256 bytes' → bytes = bytes') →
      receipt.validateAgainst unicode jsonLength sha256 delta = .ok () →
      receipt.validateAgainst unicode jsonLength sha256 delta' = .ok () → delta = delta' := by
  refine ⟨fun _ _ _ => GenerationDelta.preimage_injective,
    fun _ _ _ => targetInventoryPreimage_injective,
    fun _ _ _ => GenerationDeltaTerminalReceipt.preimage_injective, ?_⟩
  intro receipt delta delta' hcollides hvalid hvalid'
  obtain ⟨bytes, hbytes, hlabel⟩ :=
    GenerationDeltaTerminalReceipt.digest_of_validateAgainst hvalid
  obtain ⟨bytes', hbytes', hlabel'⟩ :=
    GenerationDeltaTerminalReceipt.digest_of_validateAgainst hvalid'
  have hsame := hcollides bytes bytes' hbytes hbytes' (sha256_of_label (hlabel ▸ hlabel'))
  exact GenerationDelta.preimage_injective hbytes (hsame ▸ hbytes')

/-- A generation that adds one file of three bytes to nothing. -/
def oneFileDelta : GenerationDelta where
  formatVersion := 1
  minimumReaderVersion := 1
  deltaId := "delta-1".toList
  mountId := ⟨"wiki".toList⟩
  sourceConnectionId := ⟨"source".toList⟩
  baseGenerationId := ⟨"g1".toList⟩
  targetGenerationId := ⟨"g2".toList⟩
  targetComplete := true
  targetInventorySha256 := "sha256:".toList ++ List.replicate 64 '0'
  workspaceLayoutVersion := 1
  workspaceLayoutDigest := ⟨"sha256:".toList ++ List.replicate 64 '1'⟩
  entries := [⟨none, some ⟨⟨"p".toList⟩, ⟨"a.md".toList⟩, ⟨"v1".toList⟩,
    "sha256:".toList ++ List.replicate 64 '2', 3⟩⟩]

example : oneFileDelta.validate plainTables (fun _ => some 700) = .ok () := by decide +kernel

end Locality.Protocol
