/-
  Protocol/ExportSeals.lean --- writable metadata is determined by its preimage, and so
  are the bodies of a delivery; how a body is cut into chunks does not show.
-/
import Locality.Protocol.ExportRecords

set_option autoImplicit false

namespace Locality.Protocol

open Locality.Core Locality.Foundation

theorem fits_u16 (value : UInt16) : value.toNat < 256 ^ 8 := value.toNat_lt.trans (by decide)

theorem selfDelimiting_version :
    SelfDelimiting (fun value : UInt16 => value.toNat < 256 ^ 8)
      fun value => toBeBytes 8 value.toNat :=
  (selfDelimiting_toBeBytes 8).comap fun _ _ => UInt16.toNat_inj.mp

namespace Scope

/-! ## Versions -/

def ComponentVersions.Fits (self : ComponentVersions) : Prop :=
  self.session.toNat < 256 ^ 8 ∧ self.replica.toNat < 256 ^ 8 ∧
    self.exportMetadata.toNat < 256 ^ 8 ∧ self.writableSessionStore.toNat < 256 ^ 8 ∧
    self.canonical.toNat < 256 ^ 8 ∧ self.path.toNat < 256 ^ 8 ∧ self.changeset.toNat < 256 ^ 8

theorem ComponentVersions.fits (self : ComponentVersions) : ComponentVersions.Fits self :=
  ⟨fits_u16 _, fits_u16 _, fits_u16 _, fits_u16 _, fits_u16 _, fits_u16 _, fits_u16 _⟩

def frameVersions (versions : ComponentVersions) : List UInt8 :=
  toBeBytes 8 versions.session.toNat ++ (toBeBytes 8 versions.replica.toNat ++
    (toBeBytes 8 versions.exportMetadata.toNat ++
    (toBeBytes 8 versions.writableSessionStore.toNat ++ (toBeBytes 8 versions.canonical.toNat ++
    (toBeBytes 8 versions.path.toNat ++ toBeBytes 8 versions.changeset.toNat)))))

theorem appendVersions_eq (output : List UInt8) (versions : ComponentVersions) :
    appendVersions output versions = output ++ frameVersions versions := by
  simp only [appendVersions, frameVersions, List.append_assoc]

theorem selfDelimiting_versions :
    SelfDelimiting ComponentVersions.Fits frameVersions := by
  have hversion := selfDelimiting_version
  refine (hversion.pair (hversion.pair (hversion.pair (hversion.pair (hversion.pair
    (hversion.pair hversion)))))).comap
    (f := fun versions : ComponentVersions => (versions.session, versions.replica,
      versions.exportMetadata, versions.writableSessionStore, versions.canonical, versions.path,
      versions.changeset)) ?_
  intro versions versions' h
  obtain ⟨_, _, _, _, _, _, _⟩ := versions
  obtain ⟨_, _, _, _, _, _, _⟩ := versions'
  cases h
  rfl

/-! ## Source generations -/

def OrderedSourceGeneration.Fits (self : OrderedSourceGeneration) : Prop :=
  self.ordinal.toNat < 256 ^ 8 ∧ Protocol.Fits self.sourceConnectionId.value ∧
    Protocol.Fits self.sourceGenerationId.value

def frameGeneration (generation : OrderedSourceGeneration) : List UInt8 :=
  toBeBytes 8 generation.ordinal.toNat ++ (frameText generation.sourceConnectionId.value ++
    frameText generation.sourceGenerationId.value)

theorem selfDelimiting_generation :
    SelfDelimiting OrderedSourceGeneration.Fits frameGeneration := by
  refine (selfDelimiting_u32.pair (selfDelimiting_text.pair selfDelimiting_text)).comap
    (f := fun generation : OrderedSourceGeneration => (generation.ordinal,
      generation.sourceConnectionId.value, generation.sourceGenerationId.value)) ?_
  intro generation generation' h
  obtain ⟨_, ⟨_⟩, ⟨_⟩⟩ := generation
  obtain ⟨_, ⟨_⟩, ⟨_⟩⟩ := generation'
  cases h
  rfl

theorem appendGeneration_ok {output output' : List UInt8} {generation : OrderedSourceGeneration}
    (h : appendGeneration output generation = .ok output') :
    generation.Fits ∧ output' = output ++ frameGeneration generation := by
  obtain ⟨hsource, h⟩ := appendTextOr_then h
  obtain ⟨hgeneration, rfl⟩ := appendTextOr_eq_ok.mp h
  refine ⟨⟨fits_u32 _, hsource, hgeneration⟩, ?_⟩
  simp only [frameGeneration, List.append_assoc]

/-! ## Writable entries -/

def baselineLabel (baselineRequired : Bool) : Text :=
  if baselineRequired then "true".toList else "false".toList

theorem baselineLabel_injective (a b : Bool) (h : baselineLabel a = baselineLabel b) : a = b := by
  cases a <;> cases b <;> first | rfl | exact absurd h (by decide)

def WritableMetadataEntry.Fits (self : WritableMetadataEntry) : Prop :=
  Protocol.Fits self.projectionId.value ∧ Protocol.Fits self.logicalPath.value ∧
    TextsFit (self.sourceRemoteIds.map RemoteId.value) ∧
    Protocol.Fits self.deliveredContentSha256 ∧ Protocol.Fits self.providerPrecondition ∧
    ActionsFit self.effectiveActions ∧ Protocol.Fits (baselineLabel self.baselineRequired)

def frameWritableEntry (entry : WritableMetadataEntry) : List UInt8 :=
  frameText entry.projectionId.value ++ (frameText entry.logicalPath.value ++
    (frameTexts (entry.sourceRemoteIds.map RemoteId.value) ++
    (frameText entry.deliveredContentSha256 ++ (frameText entry.providerPrecondition ++
    (frameActions entry.effectiveActions ++ frameText (baselineLabel entry.baselineRequired))))))

theorem remoteIdValue_injective : Function.Injective RemoteId.value := by
  intro id id' h
  obtain ⟨_⟩ := id
  obtain ⟨_⟩ := id'
  cases h
  rfl

theorem selfDelimiting_writableEntry :
    SelfDelimiting WritableMetadataEntry.Fits frameWritableEntry := by
  have htext := selfDelimiting_text
  have hbaseline := htext.comap baselineLabel_injective
  refine (htext.pair (htext.pair (selfDelimiting_texts.pair (htext.pair (htext.pair
    (selfDelimiting_actions.pair hbaseline)))))).comap
    (f := fun entry : WritableMetadataEntry => (entry.projectionId.value, entry.logicalPath.value,
      entry.sourceRemoteIds.map RemoteId.value, entry.deliveredContentSha256,
      entry.providerPrecondition, entry.effectiveActions, entry.baselineRequired)) ?_
  intro entry entry' h
  obtain ⟨⟨_⟩, ⟨_⟩, ids, _, _, _, _⟩ := entry
  obtain ⟨⟨_⟩, ⟨_⟩, ids', _, _, _, _⟩ := entry'
  simp only [Prod.mk.injEq] at h
  obtain ⟨rfl, rfl, hids, rfl, rfl, rfl, rfl⟩ := h
  rw [List.map_injective_iff.mpr remoteIdValue_injective hids]

theorem appendWritableEntry_ok {output output' : List UInt8} {entry : WritableMetadataEntry}
    (h : appendWritableEntry output entry = .ok output') :
    entry.Fits ∧ output' = output ++ frameWritableEntry entry := by
  obtain ⟨hprojection, h⟩ := appendTextOr_then h
  obtain ⟨hpath, h⟩ := appendTextOr_then h
  obtain ⟨_, h₁, h⟩ := bind_eq_ok.mp h
  obtain ⟨hcount, rfl⟩ := appendCountOr_eq_ok.mp h₁
  obtain ⟨_, h₁, h⟩ := bind_eq_ok.mp h
  obtain ⟨hids, rfl⟩ := appendTextsOr_ok h₁
  obtain ⟨hdigest, h⟩ := appendTextOr_then h
  obtain ⟨hprecondition, h⟩ := appendTextOr_then h
  obtain ⟨_, h₁, h⟩ := bind_eq_ok.mp h
  obtain ⟨hactions, rfl⟩ := appendActionsOr_ok h₁
  obtain ⟨hbaseline, rfl⟩ := appendTextOr_eq_ok.mp h
  have hlength : (entry.sourceRemoteIds.map RemoteId.value).length < 256 ^ 8 := by
    rw [List.length_map]
    exact hcount
  refine ⟨⟨hprojection, hpath, ⟨hlength, hids⟩, hdigest, hprecondition, hactions, hbaseline⟩, ?_⟩
  simp only [frameWritableEntry, frameTexts, baselineLabel, List.length_map, List.append_assoc]

/-! ## Writable metadata -/

def WritableExportMetadata.Fits (self : WritableExportMetadata) : Prop :=
  ComponentVersions.Fits self.versions ∧ Protocol.Fits self.sessionId.value ∧
    Protocol.Fits self.exportAttemptId.value ∧
    (self.sourceGenerations.length < 256 ^ 8 ∧
      ∀ generation ∈ self.sourceGenerations, generation.Fits) ∧
    self.writableEntries.length < 256 ^ 8 ∧ ∀ entry ∈ self.writableEntries, entry.Fits

def WritableExportMetadata.frame (self : WritableExportMetadata) : List UInt8 :=
  frameVersions self.versions ++ (frameText self.sessionId.value ++
    (frameText self.exportAttemptId.value ++ ((toBeBytes 8 self.sourceGenerations.length ++
    self.sourceGenerations.flatMap frameGeneration) ++ (toBeBytes 8 self.writableEntries.length ++
    self.writableEntries.flatMap frameWritableEntry))))

theorem WritableExportMetadata.selfDelimiting_frame :
    SelfDelimiting WritableExportMetadata.Fits WritableExportMetadata.frame := by
  have hcount := selfDelimiting_toBeBytes 8
  refine (selfDelimiting_versions.pair (selfDelimiting_text.pair (selfDelimiting_text.pair
    ((hcount.counted selfDelimiting_generation).pair
      (hcount.counted selfDelimiting_writableEntry))))).comap
    (f := fun metadata : WritableExportMetadata => (metadata.versions, metadata.sessionId.value,
      metadata.exportAttemptId.value, metadata.sourceGenerations, metadata.writableEntries)) ?_
  intro metadata metadata' h
  obtain ⟨_, ⟨_⟩, ⟨_⟩, _, _⟩ := metadata
  obtain ⟨_, ⟨_⟩, ⟨_⟩, _, _⟩ := metadata'
  cases h
  rfl

theorem canonicalWritableMetadataPreimage_ok {metadata : WritableExportMetadata}
    {bytes : List UInt8} (h : canonicalWritableMetadataPreimage metadata = .ok bytes) :
    metadata.Fits ∧ bytes = writableMetadataDomain ++ metadata.frame := by
  obtain ⟨_, -, h⟩ := bind_eq_ok.mp h
  rw [appendVersions_eq] at h
  obtain ⟨hsession, h⟩ := appendTextOr_then h
  obtain ⟨hattempt, h⟩ := appendTextOr_then h
  obtain ⟨_, h₁, h⟩ := bind_eq_ok.mp h
  obtain ⟨hgenerations, rfl⟩ := appendCountOr_eq_ok.mp h₁
  obtain ⟨_, h₁, h⟩ := bind_eq_ok.mp h
  obtain ⟨hgenerationsFit, rfl⟩ := foldlM_append_ok appendGeneration
    (fun _ _ _ => appendGeneration_ok) h₁
  obtain ⟨_, h₁, h⟩ := bind_eq_ok.mp h
  obtain ⟨hentries, rfl⟩ := appendCountOr_eq_ok.mp h₁
  obtain ⟨hentriesFit, rfl⟩ := foldlM_append_ok appendWritableEntry
    (fun _ _ _ => appendWritableEntry_ok) h
  refine ⟨⟨ComponentVersions.fits _, hsession, hattempt, ⟨hgenerations, hgenerationsFit⟩,
    hentries, hentriesFit⟩, ?_⟩
  simp only [WritableExportMetadata.frame, List.append_assoc]

theorem writableMetadataPreimage_injective {metadata metadata' : WritableExportMetadata}
    {bytes : List UInt8} (h : canonicalWritableMetadataPreimage metadata = .ok bytes)
    (h' : canonicalWritableMetadataPreimage metadata' = .ok bytes) : metadata = metadata' := by
  obtain ⟨hfits, rfl⟩ := canonicalWritableMetadataPreimage_ok h
  obtain ⟨hfits', hsame⟩ := canonicalWritableMetadataPreimage_ok h'
  exact WritableExportMetadata.selfDelimiting_frame.injective hfits hfits'
    (List.append_cancel_left hsame)

/-! ## Delivered bodies -/

namespace DeliveredBodyDigest

/-- Files delivered whole, one after the other. -/
def updateFiles (self : DeliveredBodyDigest) :
    List (ProjectionId × List UInt8) → ScopeResult DeliveredBodyDigest
  | [] => return self
  | (projectionId, body) :: files => do
      let digest ← self.updateFile projectionId body
      digest.updateFiles files

def updateChunks (self : DeliveredBodyDigest) :
    List (List UInt8) → ScopeResult DeliveredBodyDigest
  | [] => return self
  | chunk :: chunks => do
      let digest ← self.updateFileChunk chunk
      digest.updateChunks chunks

/-- Files delivered in chunks, each behind the length that was announced for it. -/
def updateChunked (self : DeliveredBodyDigest) :
    List (ProjectionId × UInt64 × List (List UInt8)) → ScopeResult DeliveredBodyDigest
  | [] => return self
  | (projectionId, byteLength, chunks) :: files => do
      let digest ← self.beginFile projectionId byteLength
      let digest ← digest.updateChunks chunks
      let digest ← digest.endFile
      digest.updateChunked files

/-- What is hashed of a delivery of whole files. -/
def deliveredPreimage (expectedFileCount : UInt64) (files : List (ProjectionId × List UInt8)) :
    ScopeResult (List UInt8) := do
  let digest ← (new expectedFileCount).updateFiles files
  digest.preimage

/-- What is hashed of a delivery in chunks. -/
def chunkedPreimage (expectedFileCount : UInt64)
    (files : List (ProjectionId × UInt64 × List (List UInt8))) : ScopeResult (List UInt8) := do
  let digest ← (new expectedFileCount).updateChunked files
  digest.preimage

/-! ### Frames of bodies -/

def FileFits (file : ProjectionId × List UInt8) : Prop :=
  Protocol.Fits file.1.value ∧ file.2.length < 256 ^ 8

def frameFile (file : ProjectionId × List UInt8) : List UInt8 :=
  frameText file.1.value ++ (toBeBytes 8 file.2.length ++ file.2)

theorem selfDelimiting_file : SelfDelimiting FileFits frameFile := by
  refine (selfDelimiting_text.pair (selfDelimiting_toBeBytes 8).framed).comap
    (f := fun file : ProjectionId × List UInt8 => (file.1.value, file.2)) ?_
  intro file file' h
  obtain ⟨⟨_⟩, _⟩ := file
  obtain ⟨⟨_⟩, _⟩ := file'
  cases h
  rfl

/-! ### One file -/

variable {digest digest' : DeliveredBodyDigest}

/-- The digest once a file was announced. -/
def begun (digest : DeliveredBodyDigest) (projectionId : ProjectionId) (byteLength : UInt64) :
    DeliveredBodyDigest :=
  { digest with
    hasher := digest.hasher ++ (frameText projectionId.value ++ toBeBytes 8 byteLength.toNat)
    remainingFileBytes := some byteLength }

theorem beginFile_eq_ok {projectionId : ProjectionId} {byteLength : UInt64} :
    digest.beginFile projectionId byteLength = .ok digest' ↔
      digest.remainingFileBytes = none ∧ projectionId.value ≠ [] ∧
        Protocol.Fits projectionId.value ∧ digest' = digest.begun projectionId byteLength := by
  constructor
  · intro h
    obtain ⟨_, hnone, h⟩ := bind_eq_ok.mp h
    obtain ⟨_, hsome, h⟩ := bind_eq_ok.mp h
    obtain ⟨hfits, h⟩ := appendTextOr_then h
    cases h
    refine ⟨Option.not_isSome_iff_eq_none.mp (failIf_eq_ok.mp hnone), failIf_eq_ok.mp hsome,
      hfits, ?_⟩
    rw [begun, List.append_assoc]
  · intro h
    obtain ⟨hnone, hid, hfits, rfl⟩ := h
    refine bind_eq_ok.mpr ⟨(), failIf_eq_ok.mpr ?_, bind_eq_ok.mpr ⟨(), failIf_eq_ok.mpr hid,
      bind_eq_ok.mpr ⟨_, appendTextOr_eq_ok.mpr ⟨hfits, rfl⟩, ?_⟩⟩⟩
    · exact Option.not_isSome_iff_eq_none.mpr hnone
    · rw [begun, ← List.append_assoc]
      rfl

/-- The digest once bytes were fed to it, of which so many remained. -/
def fed (digest : DeliveredBodyDigest) (remaining : Nat) (bytes : List UInt8) :
    DeliveredBodyDigest :=
  { digest with
    hasher := digest.hasher ++ bytes
    remainingFileBytes := some (UInt64.ofNat (remaining - bytes.length)) }

theorem sub_ofNat {remaining : UInt64} {n : Nat} (h : n ≤ remaining.toNat) :
    remaining - UInt64.ofNat n = UInt64.ofNat (remaining.toNat - n) := by
  have hlt := remaining.toNat_lt
  have hn : (UInt64.ofNat n).toNat = n := Nat.mod_eq_of_lt (Nat.lt_of_le_of_lt h hlt)
  have hle : UInt64.ofNat n ≤ remaining := UInt64.le_iff_toNat_le.mpr (hn.le.trans h)
  have hleft : (UInt64.ofNat (remaining.toNat - n)).toNat = remaining.toNat - n :=
    Nat.mod_eq_of_lt (by omega)
  apply UInt64.toNat_inj.mp
  rw [UInt64.toNat_sub_of_le _ _ hle, hn, hleft]

theorem updateFileChunk_eq_ok {remaining : UInt64} {chunk : List UInt8}
    (hremaining : digest.remainingFileBytes = some remaining) :
    digest.updateFileChunk chunk = .ok digest' ↔
      chunk.length ≤ remaining.toNat ∧ digest' = digest.fed remaining.toNat chunk := by
  have hlt := remaining.toNat_lt
  unfold updateFileChunk
  rw [hremaining]
  constructor
  · intro h
    obtain ⟨_, _, h⟩ := bind_eq_ok.mp h
    obtain ⟨_, hle, h⟩ := bind_eq_ok.mp h
    cases h
    have hfit : chunk.length ≤ remaining.toNat := Nat.not_lt.mp (failIf_eq_ok.mp hle)
    exact ⟨hfit, by rw [sub_ofNat hfit, fed]⟩
  · intro h
    obtain ⟨hfit, rfl⟩ := h
    refine bind_eq_ok.mpr ⟨(), failIf_eq_ok.mpr (by omega), bind_eq_ok.mpr ⟨(),
      failIf_eq_ok.mpr (by omega), ?_⟩⟩
    rw [sub_ofNat hfit, fed]
    rfl

/-- Chunks are hashed one after the other, and must not exceed what remains. -/
theorem updateChunks_eq_ok {remaining : UInt64} {chunks : List (List UInt8)}
    (hremaining : digest.remainingFileBytes = some remaining) :
    digest.updateChunks chunks = .ok digest' ↔
      chunks.flatten.length ≤ remaining.toNat ∧
        digest' = digest.fed remaining.toNat chunks.flatten := by
  induction chunks generalizing digest remaining with
  | nil =>
      have hsame : digest.fed remaining.toNat [] = digest := by
        simp only [fed, List.append_nil, List.length_nil, Nat.sub_zero, UInt64.ofNat_toNat,
          ← hremaining]
      rw [List.flatten_nil, hsame]
      exact ⟨fun h => ⟨Nat.zero_le _, (Except.ok.inj h).symm⟩, fun h => congrArg Except.ok h.2.symm⟩
  | cons chunk chunks ih =>
      have hlt := remaining.toNat_lt
      have hnext := @ih (digest.fed remaining.toNat chunk)
        (UInt64.ofNat (remaining.toNat - chunk.length)) rfl
      have hleft : (UInt64.ofNat (remaining.toNat - chunk.length)).toNat =
          remaining.toNat - chunk.length := Nat.mod_eq_of_lt (by omega)
      rw [hleft] at hnext
      have htwice : (digest.fed remaining.toNat chunk).fed (remaining.toNat - chunk.length)
          chunks.flatten = digest.fed remaining.toNat (chunk ++ chunks.flatten) := by
        simp only [fed, List.append_assoc, List.length_append, Nat.sub_sub]
      rw [List.flatten_cons, List.length_append, updateChunks, bind_eq_ok]
      constructor
      · intro h
        obtain ⟨digest₁, h₁, h⟩ := h
        obtain ⟨hfit, rfl⟩ := (updateFileChunk_eq_ok hremaining).mp h₁
        obtain ⟨hrest, hsame⟩ := hnext.mp h
        exact ⟨by omega, hsame.trans htwice⟩
      · intro h
        obtain ⟨hfit, hsame⟩ := h
        exact ⟨_, (updateFileChunk_eq_ok hremaining).mpr ⟨by omega, rfl⟩,
          hnext.mpr ⟨by omega, hsame.trans htwice.symm⟩⟩

/-- The digest after one more file. -/
def afterFile (digest : DeliveredBodyDigest) (file : ProjectionId × List UInt8) :
    DeliveredBodyDigest :=
  { digest with
    hasher := digest.hasher ++ frameFile file
    deliveredFileCount := digest.deliveredFileCount + 1 }

/-- One more file may follow, and this one. -/
def Takes (digest : DeliveredBodyDigest) (file : ProjectionId × List UInt8) : Prop :=
  digest.remainingFileBytes = none ∧ file.1.value ≠ [] ∧ FileFits file ∧
    digest.deliveredFileCount.toNat + 1 ≠ 2 ^ 64

/-- A file in chunks, as long as was announced. -/
def updateChunkedFile (digest : DeliveredBodyDigest) (projectionId : ProjectionId)
    (byteLength : UInt64) (chunks : List (List UInt8)) : ScopeResult DeliveredBodyDigest := do
  let digest ← digest.beginFile projectionId byteLength
  let digest ← digest.updateChunks chunks
  digest.endFile

theorem endFile_eq_ok :
    digest.endFile = .ok digest' ↔
      digest.remainingFileBytes = some 0 ∧ digest.deliveredFileCount.toNat + 1 ≠ 2 ^ 64 ∧
        digest' = { digest with
          remainingFileBytes := none
          deliveredFileCount := digest.deliveredFileCount + 1 } := by
  constructor
  · intro h
    obtain ⟨_, hzero, h⟩ := bind_eq_ok.mp h
    obtain ⟨_, hcount, h⟩ := bind_eq_ok.mp h
    cases h
    exact ⟨not_not.mp (failIf_eq_ok.mp hzero), failIf_eq_ok.mp hcount, rfl⟩
  · intro h
    obtain ⟨hzero, hcount, rfl⟩ := h
    exact bind_eq_ok.mpr ⟨(), failIf_eq_ok.mpr (not_not.mpr hzero), bind_eq_ok.mpr ⟨(),
      failIf_eq_ok.mpr hcount, rfl⟩⟩

theorem updateChunkedFile_eq_ok {projectionId : ProjectionId} {byteLength : UInt64}
    {chunks : List (List UInt8)} :
    digest.updateChunkedFile projectionId byteLength chunks = .ok digest' ↔
      byteLength.toNat = chunks.flatten.length ∧
        digest.Takes (projectionId, chunks.flatten) ∧
        digest' = digest.afterFile (projectionId, chunks.flatten) := by
  have hlt := byteLength.toNat_lt
  have hend : byteLength.toNat = chunks.flatten.length → digest.remainingFileBytes = none →
      { (digest.begun projectionId byteLength).fed byteLength.toNat chunks.flatten with
        remainingFileBytes := none
        deliveredFileCount := digest.deliveredFileCount + 1 } =
      digest.afterFile (projectionId, chunks.flatten) := by
    intro hlength hnone
    simp only [fed, begun, afterFile, frameFile, hlength, hnone, List.append_assoc]
  rw [updateChunkedFile, bind_eq_ok]
  constructor
  · intro h
    obtain ⟨_, hbegin, h⟩ := h
    obtain ⟨hnone, hid, hfits, rfl⟩ := beginFile_eq_ok.mp hbegin
    obtain ⟨_, hfed, h⟩ := bind_eq_ok.mp h
    obtain ⟨hle, rfl⟩ := (updateChunks_eq_ok rfl).mp hfed
    obtain ⟨hzero, hcount, rfl⟩ := endFile_eq_ok.mp h
    have hleft := congrArg UInt64.toNat (Option.some.inj hzero)
    have hsub : (UInt64.ofNat (byteLength.toNat - chunks.flatten.length)).toNat =
        byteLength.toNat - chunks.flatten.length := Nat.mod_eq_of_lt (by omega)
    have hnothing : (0 : UInt64).toNat = 0 := rfl
    have hlength : byteLength.toNat = chunks.flatten.length := by omega
    exact ⟨hlength, ⟨hnone, hid, ⟨hfits, hlength ▸ hlt⟩, hcount⟩, hend hlength hnone⟩
  · intro h
    obtain ⟨hlength, ⟨hnone, hid, hfits, hcount⟩, rfl⟩ := h
    refine ⟨_, beginFile_eq_ok.mpr ⟨hnone, hid, hfits.1, rfl⟩, bind_eq_ok.mpr ⟨_,
      (updateChunks_eq_ok rfl).mpr ⟨hlength.ge, rfl⟩, endFile_eq_ok.mpr ⟨?_, hcount,
        (hend hlength hnone).symm⟩⟩⟩
    rw [fed, hlength, Nat.sub_self]
    rfl

/-- A whole file is one chunk of the length that is announced. -/
theorem updateFile_eq_ok {projectionId : ProjectionId} {body : List UInt8} :
    digest.updateFile projectionId body = .ok digest' ↔
      digest.Takes (projectionId, body) ∧ digest' = digest.afterFile (projectionId, body) := by
  have hone : [body].flatten = body := List.append_nil body
  have hchunk : (do
      let digest ← digest.beginFile projectionId (UInt64.ofNat body.length)
      let digest ← digest.updateFileChunk body
      digest.endFile) =
      digest.updateChunkedFile projectionId (UInt64.ofNat body.length) [body] := by
    refine congrArg (digest.beginFile _ _ >>= ·) (funext fun digest₁ => ?_)
    cases hchunk : digest₁.updateFileChunk body with
    | error error => simp only [updateChunks, hchunk]; rfl
    | ok digest₂ => simp only [updateChunks, hchunk]; rfl
  rw [updateFile, hchunk, bind_eq_ok]
  constructor
  · intro h
    obtain ⟨_, _, h⟩ := h
    have hfile := (updateChunkedFile_eq_ok.mp h).2
    rwa [hone] at hfile
  · intro h
    have hlength : body.length < 2 ^ 64 := h.1.2.2.1.2
    refine ⟨(), failIf_eq_ok.mpr (Nat.not_le.mpr hlength), updateChunkedFile_eq_ok.mpr ?_⟩
    rw [hone]
    exact ⟨Nat.mod_eq_of_lt hlength, h⟩

/-! ### All files -/

/-- A file as it is whole. -/
def wholeFile (file : ProjectionId × UInt64 × List (List UInt8)) : ProjectionId × List UInt8 :=
  (file.1, file.2.2.flatten)

/-- The bytes that were announced are those of the chunks. -/
def AnnouncedRight (file : ProjectionId × UInt64 × List (List UInt8)) : Prop :=
  file.2.1.toNat = file.2.2.flatten.length

theorem updateChunked_eq_ok {files : List (ProjectionId × UInt64 × List (List UInt8))} :
    digest.updateChunked files = .ok digest' ↔
      (∀ file ∈ files, AnnouncedRight file) ∧
        digest.updateFiles (files.map wholeFile) = .ok digest' := by
  induction files generalizing digest with
  | nil => exact ⟨fun h => ⟨fun _ h => (nomatch h), h⟩, And.right⟩
  | cons file files ih =>
      obtain ⟨projectionId, byteLength, chunks⟩ := file
      have hstep : digest.updateChunked ((projectionId, byteLength, chunks) :: files) =
          digest.updateChunkedFile projectionId byteLength chunks >>= (·.updateChunked files) := by
        rw [updateChunked, updateChunkedFile]
        simp only [bind_assoc]
      rw [hstep, List.forall_mem_cons, bind_eq_ok]
      constructor
      · intro h
        obtain ⟨digest₁, h₁, h⟩ := h
        obtain ⟨hlength, hfile⟩ := updateChunkedFile_eq_ok.mp h₁
        obtain ⟨hrest, h⟩ := ih.mp h
        exact ⟨⟨hlength, hrest⟩, bind_eq_ok.mpr ⟨_, updateFile_eq_ok.mpr hfile, h⟩⟩
      · intro h
        obtain ⟨⟨hlength, hrest⟩, h⟩ := h
        obtain ⟨digest₁, h₁, h⟩ := bind_eq_ok.mp h
        exact ⟨_, updateChunkedFile_eq_ok.mpr ⟨hlength, updateFile_eq_ok.mp h₁⟩,
          ih.mpr ⟨hrest, h⟩⟩

/-- What chunks are hashed to is what their files are hashed to, if they are announced
right; and if not, nothing is. -/
theorem chunkedPreimage_eq_ok {expectedFileCount : UInt64}
    {files : List (ProjectionId × UInt64 × List (List UInt8))} {bytes : List UInt8} :
    chunkedPreimage expectedFileCount files = .ok bytes ↔
      (∀ file ∈ files, AnnouncedRight file) ∧
        deliveredPreimage expectedFileCount (files.map wholeFile) = .ok bytes := by
  rw [chunkedPreimage, deliveredPreimage, bind_eq_ok, bind_eq_ok]
  constructor
  · intro h
    obtain ⟨digest, hdigest, h⟩ := h
    obtain ⟨hright, hwhole⟩ := updateChunked_eq_ok.mp hdigest
    exact ⟨hright, digest, hwhole, h⟩
  · intro h
    obtain ⟨hright, digest, hwhole, h⟩ := h
    exact ⟨digest, updateChunked_eq_ok.mpr ⟨hright, hwhole⟩, h⟩

theorem updateFiles_ok {files : List (ProjectionId × List UInt8)}
    (h : digest.updateFiles files = .ok digest') :
    (∀ file ∈ files, FileFits file) ∧ digest'.hasher = digest.hasher ++ files.flatMap frameFile ∧
      digest'.deliveredFileCount.toNat = digest.deliveredFileCount.toNat + files.length ∧
      digest'.expectedFileCount = digest.expectedFileCount := by
  induction files generalizing digest with
  | nil =>
      cases h
      exact ⟨fun _ h => (nomatch h), (List.append_nil _).symm, rfl, rfl⟩
  | cons file files ih =>
      obtain ⟨projectionId, body⟩ := file
      obtain ⟨digest₁, h₁, h⟩ := bind_eq_ok.mp h
      obtain ⟨htakes, rfl⟩ := updateFile_eq_ok.mp h₁
      obtain ⟨hrest, hhasher, hcount, hexpected⟩ := ih h
      have hnext : (digest.deliveredFileCount + 1).toNat = digest.deliveredFileCount.toNat + 1 := by
        have hlt := digest.deliveredFileCount.toNat_lt
        have hmax := htakes.2.2.2
        rw [UInt64.toNat_add, UInt64.toNat_one, Nat.mod_eq_of_lt (by omega)]
      refine ⟨List.forall_mem_cons.mpr ⟨htakes.2.2.1, hrest⟩, ?_, ?_, hexpected⟩
      · rw [hhasher, afterFile, List.flatMap_cons, List.append_assoc]
      · rw [hcount, afterFile, hnext, List.length_cons]
        omega

theorem deliveredPreimage_ok {expectedFileCount : UInt64}
    {files : List (ProjectionId × List UInt8)} {bytes : List UInt8}
    (h : deliveredPreimage expectedFileCount files = .ok bytes) :
    (files.length < 256 ^ 8 ∧ ∀ file ∈ files, FileFits file) ∧
      bytes = deliveredBodiesDomain ++ (toBeBytes 8 files.length ++ files.flatMap frameFile) := by
  obtain ⟨digest, hdigest, h⟩ := bind_eq_ok.mp h
  obtain ⟨hfits, hhasher, hcount, hexpected⟩ := updateFiles_ok hdigest
  obtain ⟨_, hdone, h⟩ := bind_eq_ok.mp h
  cases h
  have hsame := not_not.mp (not_or.mp (failIf_eq_ok.mp hdone)).2
  have hlength : expectedFileCount.toNat = files.length := by
    have hzero : (new expectedFileCount).deliveredFileCount.toNat = 0 := rfl
    have hnew : (new expectedFileCount).expectedFileCount = expectedFileCount := rfl
    rw [← hnew, ← hexpected, ← hsame, hcount, hzero, Nat.zero_add]
  refine ⟨⟨hlength ▸ expectedFileCount.toNat_lt, hfits⟩, ?_⟩
  rw [hhasher, new, hlength, List.append_assoc]

theorem deliveredPreimage_injective {expectedFileCount expectedFileCount' : UInt64}
    {files files' : List (ProjectionId × List UInt8)} {bytes : List UInt8}
    (h : deliveredPreimage expectedFileCount files = .ok bytes)
    (h' : deliveredPreimage expectedFileCount' files' = .ok bytes) : files = files' := by
  obtain ⟨hfits, rfl⟩ := deliveredPreimage_ok h
  obtain ⟨hfits', hsame⟩ := deliveredPreimage_ok h'
  exact ((selfDelimiting_toBeBytes 8).counted selfDelimiting_file).injective hfits hfits'
    (List.append_cancel_left hsame)

end DeliveredBodyDigest

end Scope

end Locality.Protocol
