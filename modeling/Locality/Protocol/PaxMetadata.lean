/-
  Protocol/PaxMetadata.lean --- what the PAX records of an exported file carry:
  `ExportV2FilePaxMetadata` of `locality-protocol/src/lib.rs`.

  Records that are read back give the metadata they were written from, and nothing that
  could not have been written is read.
-/
import Locality.Protocol.ExportFrames

set_option autoImplicit false

namespace Locality.Protocol

open Locality.Core Locality.Foundation

/-! ## Decimal numbers -/

/-- `u32::to_string`. -/
def u32Text (value : UInt32) : Text := Nat.toDigits 10 value.toNat

/-- `str::parse::<u32>`. -/
def parseU32 (value : Text) : Option UInt32 :=
  let digits := (stripPrefix value ['+']).getD value
  if digits = [] ∨ ¬ digits.all isAsciiDigit then none
  else if 2 ^ 32 ≤ Nat.ofDigitChars 10 digits 0 then none
  else some (UInt32.ofNat (Nat.ofDigitChars 10 digits 0))

/-- A number that is written as it would be. -/
def parseCanonicalU32 (value : Text) : Option UInt32 :=
  (parseU32 value).filter fun number => decide (u32Text number = value)

theorem isAsciiDigit_of_mem_toDigits {n : Nat} {c : Char} (h : c ∈ Nat.toDigits 10 n) :
    isAsciiDigit c = true := by
  have hdigit : c.isDigit = true := Nat.isDigit_of_mem_toDigits (by decide) (by decide) h
  rw [isAsciiDigit, Bool.and_eq_true, decide_eq_true_eq, decide_eq_true_eq]
  rw [Char.isDigit, Bool.and_eq_true, decide_eq_true_eq, decide_eq_true_eq] at hdigit
  exact hdigit

theorem parseU32_u32Text (value : UInt32) : parseU32 (u32Text value) = some value := by
  have hplus : stripPrefix (u32Text value) ['+'] = none := by
    rw [stripPrefix, if_neg]
    intro hprefix
    obtain ⟨rest, hrest⟩ := List.isPrefixOf_iff_prefix.mp hprefix
    have hmem : '+' ∈ Nat.toDigits 10 value.toNat := by
      rw [← u32Text, ← hrest]
      exact List.mem_cons_self
    exact absurd (isAsciiDigit_of_mem_toDigits hmem) (by decide)
  have hdigits : (u32Text value).all isAsciiDigit = true :=
    List.all_eq_true.mpr fun _ h => isAsciiDigit_of_mem_toDigits h
  have hnumber : Nat.ofDigitChars 10 (u32Text value) 0 = value.toNat :=
    Nat.ofDigitChars_ten_toDigits
  have hne : u32Text value ≠ [] := Nat.toDigits_ne_nil
  rw [parseU32, hplus, Option.getD_none, if_neg (by simp only [hne, hdigits]; decide), hnumber,
    if_neg (Nat.not_le.mpr value.toNat_lt), UInt32.ofNat_toNat]

theorem parseCanonicalU32_eq_some {value : Text} {number : UInt32} :
    parseCanonicalU32 value = some number ↔ value = u32Text number := by
  rw [parseCanonicalU32, Option.filter_eq_some_iff, decide_eq_true_eq]
  constructor
  · intro h
    exact h.2.symm
  · intro h
    subst h
    exact ⟨parseU32_u32Text number, rfl⟩

/-! ## Splitting at a text -/

/-- `str::split` at a text that is not empty: what is passed over, and what was read since
the last one. -/
def splitTextFrom (pattern : Text) : Text → Nat → Text → List Text
  | [], _, current => [current]
  | _ :: cs, skip + 1, current => splitTextFrom pattern cs skip current
  | c :: cs, 0, current =>
      if pattern.isPrefixOf (c :: cs) then
        current :: splitTextFrom pattern cs (pattern.length - 1) []
      else splitTextFrom pattern cs 0 (current ++ [c])

def splitText (pattern value : Text) : List Text := splitTextFrom pattern value 0 []

theorem splitTextFrom_skip (pattern skipped rest current : Text) :
    splitTextFrom pattern (skipped ++ rest) skipped.length current =
      splitTextFrom pattern rest 0 current := by
  induction skipped with
  | nil => rfl
  | cons c skipped ih => exact ih

/-- Characters that do not start the pattern are read. -/
theorem splitTextFrom_read {c : Char} {pattern label : Text} (h : c ∉ label)
    (rest current : Text) :
    splitTextFrom (c :: pattern) (label ++ rest) 0 current =
      splitTextFrom (c :: pattern) rest 0 (current ++ label) := by
  induction label generalizing current with
  | nil => rw [List.nil_append, List.append_nil]
  | cons d label ih =>
      have hne : c ≠ d := fun hsame => h (hsame ▸ List.mem_cons_self)
      have hprefix : ¬ (c :: pattern).isPrefixOf (d :: (label ++ rest)) = true := by
        rw [List.isPrefixOf, beq_false_of_ne hne, Bool.false_and]
        exact Bool.false_ne_true
      rw [List.cons_append, splitTextFrom, if_neg hprefix,
        ih (fun hmem => h (List.mem_cons_of_mem d hmem)), List.append_assoc]
      rfl

/-- Labels without the first character of what they are joined with come apart. -/
theorem splitText_join {c : Char} {pattern : Text} {label : Text} {labels : List Text}
    (h : ∀ label' ∈ label :: labels, c ∉ label') :
    splitText (c :: pattern) (join (c :: pattern) (label :: labels)) = label :: labels := by
  rw [splitText]
  induction labels generalizing label with
  | nil =>
      have hread := @splitTextFrom_read c pattern label (h label List.mem_cons_self) [] []
      rw [List.append_nil, List.nil_append] at hread
      exact hread
  | cons next labels ih =>
      have hnext := ih fun label' hmem => h label' (List.mem_cons_of_mem label hmem)
      have hprefix : (c :: pattern).isPrefixOf
          (c :: (pattern ++ join (c :: pattern) (next :: labels))) = true :=
        List.isPrefixOf_iff_prefix.mpr (List.prefix_append (c :: pattern) _)
      rw [join, List.append_assoc, splitTextFrom_read (h label List.mem_cons_self),
        List.nil_append, List.cons_append, splitTextFrom, if_pos hprefix,
        List.length_cons, Nat.add_sub_cancel, splitTextFrom_skip, hnext]
      exact fun h => (nomatch h)

/-! ## Actions -/

/-- What stands between two labels. -/
def labelSeparator : Text := ['"', ',', '"']

/-- The labels of actions as one text. -/
def effectiveActionsPaxValue (actions : ActionSet) : Text :=
  ['[', '"'] ++ join labelSeparator (sortedActionLabels actions) ++ ['"', ']']

def canonicalEffectiveActionsPaxValue (actions : ActionSet) : Option Text :=
  if actions = ∅ then none else some (effectiveActionsPaxValue actions)

/-- `str::strip_suffix`. -/
def stripSuffix (t pattern : Text) : Option Text :=
  if pattern.isSuffixOf t then some (t.take (t.length - pattern.length)) else none

/-- `insert` of the action of each label, none of which may come twice. -/
def insertActions : ActionSet → List Text → Option ActionSet
  | actions, [] => some actions
  | actions, label :: labels => do
      let action ← sourceActionFromWireLabel label
      if action ∈ actions then none else insertActions (insert action actions) labels

def sourceActionsFromCanonicalPaxValue (value : Text) : Option ActionSet := do
  let labels ← stripPrefix value ['[', '"']
  let labels ← stripSuffix labels ['"', ']']
  let actions ← insertActions ∅ (splitText labelSeparator labels)
  let canonical ← canonicalEffectiveActionsPaxValue actions
  if canonical = value then some actions else none

theorem sourceActionFromWireLabel_wireLabel (action : SourceAction) :
    sourceActionFromWireLabel (sourceActionWireLabel action) = some action := by
  cases action <;> decide +kernel

theorem quote_notMem_wireLabel (action : SourceAction) :
    '"' ∉ sourceActionWireLabel action := by
  cases action <;> decide +kernel

theorem exists_of_mem_sortedActionLabels {actions : ActionSet} {label : Text}
    (h : label ∈ sortedActionLabels actions) :
    ∃ action, sourceActionWireLabel action = label := by
  rw [sortedActionLabels, List.mem_insertionSort] at h
  obtain ⟨action, -, hlabel⟩ := List.mem_map.mp h
  exact ⟨action, hlabel⟩

theorem nodup_sortedActionLabels (actions : ActionSet) : (sortedActionLabels actions).Nodup := by
  rw [sortedActionLabels, (List.perm_insertionSort _ _).nodup_iff]
  exact (SourceAction.nodup_all.filter _).map fun a b h => sourceActionWireLabel_injective a b h

/-- Labels of actions that are new and come once are all inserted. -/
theorem exists_insertActions {labels : List Text} {actions : ActionSet}
    (hlabels : ∀ label ∈ labels, ∃ action, sourceActionWireLabel action = label)
    (hnodup : labels.Nodup) (hnew : ∀ action ∈ actions, sourceActionWireLabel action ∉ labels) :
    ∃ actions', insertActions actions labels = some actions' ∧
      ∀ action, action ∈ actions' ↔ action ∈ actions ∨ sourceActionWireLabel action ∈ labels := by
  induction labels generalizing actions with
  | nil => exact ⟨actions, rfl, fun action => by simp only [List.not_mem_nil, or_false]⟩
  | cons label labels ih =>
      obtain ⟨action, rfl⟩ := hlabels label List.mem_cons_self
      obtain ⟨hnotMem, hnodup⟩ := List.nodup_cons.mp hnodup
      have hfresh : action ∉ actions := fun h => hnew action h List.mem_cons_self
      obtain ⟨actions', hinsert, hmem⟩ := @ih (insert action actions)
        (fun label' h => hlabels label' (List.mem_cons_of_mem _ h)) hnodup (by
          intro action' h
          rcases Finset.mem_insert.mp h with rfl | h
          · exact hnotMem
          · exact fun hlater => hnew action' h (List.mem_cons_of_mem _ hlater))
      refine ⟨actions', ?_, fun action' => ?_⟩
      · rw [insertActions, sourceActionFromWireLabel_wireLabel]
        exact (if_neg hfresh).trans hinsert
      · rw [hmem, Finset.mem_insert, List.mem_cons]
        constructor
        · intro h
          rcases h with (rfl | h) | h
          · exact Or.inr (Or.inl rfl)
          · exact Or.inl h
          · exact Or.inr (Or.inr h)
        · intro h
          rcases h with h | h | h
          · exact Or.inl (Or.inr h)
          · exact Or.inl (Or.inl (sourceActionWireLabel_injective _ _ h))
          · exact Or.inr h

theorem insertActions_sortedActionLabels (actions : ActionSet) :
    insertActions ∅ (sortedActionLabels actions) = some actions := by
  obtain ⟨actions', hinsert, hmem⟩ := exists_insertActions
    (fun label h => exists_of_mem_sortedActionLabels h) (nodup_sortedActionLabels actions)
    (fun action h => absurd h (Finset.notMem_empty action))
  rw [hinsert]
  congr 1
  ext action
  rw [hmem, mem_sortedActionLabels]
  exact or_iff_right (Finset.notMem_empty action)

theorem stripPrefix_append (pattern rest : Text) :
    stripPrefix (pattern ++ rest) pattern = some rest := by
  rw [stripPrefix, if_pos (List.isPrefixOf_iff_prefix.mpr (List.prefix_append pattern rest)),
    List.drop_left]

theorem stripSuffix_append (front pattern : Text) :
    stripSuffix (front ++ pattern) pattern = some front := by
  rw [stripSuffix, if_pos (List.isSuffixOf_iff_suffix.mpr (List.suffix_append front pattern)),
    List.length_append, Nat.add_sub_cancel, List.take_left]

/-- Actions are read as they were written. -/
theorem sourceActionsFromCanonicalPaxValue_value {actions : ActionSet} (h : actions ≠ ∅) :
    sourceActionsFromCanonicalPaxValue (effectiveActionsPaxValue actions) = some actions := by
  have hne : sortedActionLabels actions ≠ [] := by
    intro hnil
    have hlength := length_sortedActionLabels actions
    rw [hnil, List.length_nil, eq_comm, Finset.card_eq_zero] at hlength
    exact h hlength
  obtain ⟨label, labels, hlabels⟩ := List.exists_cons_of_ne_nil hne
  have hsplit : splitText labelSeparator (join labelSeparator (sortedActionLabels actions)) =
      sortedActionLabels actions := by
    rw [hlabels]
    refine splitText_join fun label' hmem => ?_
    obtain ⟨action, rfl⟩ := exists_of_mem_sortedActionLabels (hlabels ▸ hmem)
    exact quote_notMem_wireLabel action
  rw [sourceActionsFromCanonicalPaxValue, effectiveActionsPaxValue, List.append_assoc,
    stripPrefix_append, Option.bind_eq_bind, Option.bind_some, stripSuffix_append]
  simp only [Option.bind_eq_bind, Option.bind_some]
  rw [hsplit, insertActions_sortedActionLabels, Option.bind_some,
    canonicalEffectiveActionsPaxValue, if_neg h, Option.bind_some, effectiveActionsPaxValue,
    List.append_assoc, if_pos rfl]

/-! ## Metadata -/

def paxSourceConnectionId : Text := "locality.source_connection_id".toList

def paxProjectionId : Text := "locality.projection_id".toList

def paxWinningScopeOrdinal : Text := "locality.winning_scope_ordinal".toList

def paxFileKind : Text := "locality.file_kind".toList

def paxEffectiveActions : Text := "locality.effective_actions".toList

def paxContentSha256 : Text := "locality.content_sha256".toList

def exportFilePaxKeys : List Text :=
  [paxSourceConnectionId, paxProjectionId, paxWinningScopeOrdinal, paxFileKind,
    paxEffectiveActions, paxContentSha256]

def maxExportPaxValueBytes : Nat := 4 * 1024

def maxExportFilePaxBytes : Nat := 8 * 1024

/-- `locality.`, which keys of other origins do not start with. -/
def paxNamespace : Text := "locality.".toList

structure ExportFilePaxMetadata where
  sourceConnectionId : SourceConnectionId
  projectionId : ProjectionId
  winningScopeOrdinal : UInt32
  fileKind : ProjectionFileKind
  effectiveActions : ActionSet
  contentSha256 : Text
  deriving DecidableEq

/-- The bytes of records, unless one is too long. -/
def aggregateBytes : Nat → List (Text × Text) → Option Nat
  | total, [] => some total
  | total, (key, value) :: records =>
      if utf8Bytes value ≤ maxExportPaxValueBytes then
        aggregateBytes (total + utf8Bytes key + utf8Bytes value) records
      else none

/-- The records of a file that are Locality's, in the order in which they were found. -/
def collectRecords : Nat → List (Text × Text) → List (Text × Text) → Option (List (Text × Text))
  | _, found, [] => some found
  | total, found, (key, value) :: records =>
      if startsWith key paxNamespace = false then collectRecords total found records
      else if key ∉ exportFilePaxKeys ∨ maxExportPaxValueBytes < utf8Bytes value then none
      else
        let total := total + utf8Bytes key + utf8Bytes value
        if maxExportFilePaxBytes < total ∨ (found.lookup key).isSome then none
        else collectRecords total (found ++ [(key, value)]) records

namespace ExportFilePaxMetadata

/-- The records of metadata, whatever they are worth. -/
def fields (self : ExportFilePaxMetadata) : List (Text × Text) :=
  [(paxSourceConnectionId, self.sourceConnectionId.value),
    (paxProjectionId, self.projectionId.value),
    (paxWinningScopeOrdinal, u32Text self.winningScopeOrdinal),
    (paxFileKind, projectionFileKindWireLabel self.fileKind),
    (paxEffectiveActions, effectiveActionsPaxValue self.effectiveActions),
    (paxContentSha256, self.contentSha256)]

def toRecords (self : ExportFilePaxMetadata) : Option (List (Text × Text)) :=
  if self.sourceConnectionId.value = [] ∨ self.projectionId.value = [] ∨
      self.fileKind = .directory ∨ isSha256Label self.contentSha256 = false then none
  else do
    let _ ← canonicalEffectiveActionsPaxValue self.effectiveActions
    let total ← aggregateBytes 0 self.fields
    if total ≤ maxExportFilePaxBytes then some self.fields else none

def fromRecords (records : List (Text × Text)) : Option ExportFilePaxMetadata := do
  let found ← collectRecords 0 [] records
  if found.length ≠ exportFilePaxKeys.length then none
  else
    let ordinal ← (found.lookup paxWinningScopeOrdinal).bind parseCanonicalU32
    let fileKind ← (found.lookup paxFileKind).bind projectionFileKindFromWireLabel
    if fileKind = .directory then none
    else
      let sourceConnectionId ← found.lookup paxSourceConnectionId
      let projectionId ← found.lookup paxProjectionId
      let effectiveActions ←
        (found.lookup paxEffectiveActions).bind sourceActionsFromCanonicalPaxValue
      let contentSha256 ← found.lookup paxContentSha256
      let metadata : ExportFilePaxMetadata :=
        ⟨⟨sourceConnectionId⟩, ⟨projectionId⟩, ordinal, fileKind, effectiveActions, contentSha256⟩
      metadata.toRecords.map fun _ => metadata

/-! ### Reading what was written -/

variable {self metadata : ExportFilePaxMetadata} {records : List (Text × Text)}

/-- Metadata that may be written at all. -/
structure Writable (written : ExportFilePaxMetadata) : Prop where
  connection : written.sourceConnectionId.value ≠ []
  projection : written.projectionId.value ≠ []
  kind : written.fileKind ≠ .directory
  digest : isSha256Label written.contentSha256 = true
  actions : written.effectiveActions ≠ ∅
  size : ∃ total, aggregateBytes 0 written.fields = some total ∧ total ≤ maxExportFilePaxBytes

theorem toRecords_eq_some :
    self.toRecords = some records ↔ self.Writable ∧ records = self.fields := by
  rw [toRecords]
  constructor
  · intro h
    split at h
    · exact nomatch h
    · rename_i hfields
      obtain ⟨hconnection, hfields⟩ := not_or.mp hfields
      obtain ⟨hprojection, hfields⟩ := not_or.mp hfields
      obtain ⟨hkind, hdigest⟩ := not_or.mp hfields
      obtain ⟨value, hactions, h⟩ := Option.bind_eq_some_iff.mp h
      obtain ⟨total, htotal, h⟩ := Option.bind_eq_some_iff.mp h
      obtain ⟨hle, h⟩ := Option.ite_none_right_eq_some.mp h
      refine ⟨⟨hconnection, hprojection, hkind, Bool.not_eq_false _ ▸ hdigest, ?_, total, htotal,
        hle⟩, (Option.some.inj h).symm⟩
      intro hempty
      rw [canonicalEffectiveActionsPaxValue, if_pos hempty] at hactions
      exact nomatch hactions
  · intro h
    obtain ⟨⟨hconnection, hprojection, hkind, hdigest, hactions, total, htotal, hle⟩, rfl⟩ := h
    rw [if_neg]
    · rw [canonicalEffectiveActionsPaxValue, if_neg hactions, htotal]
      exact if_pos hle
    · rw [hdigest]
      exact fun h => h.elim hconnection fun h => h.elim hprojection fun h => h.elim hkind nofun

/-- What was found among records that are all Locality's. -/
theorem collectRecords_eq_some {total : Nat} {found found' : List (Text × Text)}
    (hkeys : ∀ record ∈ records, startsWith record.1 paxNamespace = true)
    (h : collectRecords total found records = some found') : found' = found ++ records := by
  induction records generalizing total found with
  | nil =>
      cases h
      exact (List.append_nil _).symm
  | cons record records ih =>
      obtain ⟨key, value⟩ := record
      have hkey : startsWith key paxNamespace = true := hkeys (key, value) List.mem_cons_self
      rw [collectRecords, hkey, if_neg (by decide)] at h
      obtain ⟨-, h⟩ := Option.ite_none_left_eq_some.mp h
      obtain ⟨-, h⟩ := Option.ite_none_left_eq_some.mp h
      rw [ih (fun record hmem => hkeys record (List.mem_cons_of_mem _ hmem)) h, List.append_assoc]
      rfl

theorem aggregateBytes_le {total bytes : Nat} (h : aggregateBytes total records = some bytes) :
    total ≤ bytes := by
  induction records generalizing total with
  | nil => exact (Option.some.inj h).le
  | cons record records ih =>
      obtain ⟨-, h⟩ := Option.ite_none_right_eq_some.mp h
      have hrest := ih h
      omega

/-- Records that fit, under keys of their own, are all found. -/
theorem collectRecords_of_fits {total bytes : Nat} {found : List (Text × Text)}
    (hkeys : ∀ record ∈ records, record.1 ∈ exportFilePaxKeys)
    (hnodup : (records.map Prod.fst).Nodup)
    (hnew : ∀ record ∈ records, found.lookup record.1 = none)
    (hbytes : aggregateBytes total records = some bytes) (hle : bytes ≤ maxExportFilePaxBytes) :
    collectRecords total found records = some (found ++ records) := by
  induction records generalizing total found with
  | nil => rw [collectRecords, List.append_nil]
  | cons record records ih =>
      obtain ⟨key, value⟩ := record
      have hkey : key ∈ exportFilePaxKeys := hkeys (key, value) List.mem_cons_self
      have hspace : startsWith key paxNamespace = true :=
        (by decide : ∀ key ∈ exportFilePaxKeys, startsWith key paxNamespace = true) key hkey
      obtain ⟨hfits, hbytes⟩ := Option.ite_none_right_eq_some.mp hbytes
      have hsmall := (aggregateBytes_le hbytes).trans hle
      have hnone : found.lookup key = none := hnew (key, value) List.mem_cons_self
      obtain ⟨hnotMem, hnodup⟩ := List.nodup_cons.mp hnodup
      rw [collectRecords, hspace, if_neg (by decide), if_neg, if_neg, ih]
      · rw [List.append_assoc]
        rfl
      · exact fun record hmem => hkeys record (List.mem_cons_of_mem _ hmem)
      · exact hnodup
      · intro record hmem
        rw [List.lookup_append, hnew record (List.mem_cons_of_mem _ hmem), Option.none_or,
          List.lookup_cons, beq_false_of_ne]
        · rfl
        · intro hsame
          exact hnotMem (List.mem_map.mpr ⟨record, hmem, hsame⟩)
      · exact hbytes
      · rw [hnone]
        exact fun h => h.elim (fun hlt => absurd hsmall (Nat.not_le.mpr hlt)) nofun
      · exact fun h => h.elim (fun hnot => hnot hkey) fun hlt => absurd hfits (Nat.not_le.mpr hlt)

theorem keys_fields (self : ExportFilePaxMetadata) :
    self.fields.map Prod.fst = exportFilePaxKeys := rfl

theorem key_mem_of_mem_fields {record : Text × Text} (h : record ∈ self.fields) :
    record.1 ∈ exportFilePaxKeys := by
  rw [← keys_fields self]
  exact List.mem_map_of_mem h

/-- What the records of metadata are read as, once they were found. -/
theorem lookup_fields (self : ExportFilePaxMetadata) :
    self.fields.lookup paxWinningScopeOrdinal = some (u32Text self.winningScopeOrdinal) ∧
      self.fields.lookup paxFileKind = some (projectionFileKindWireLabel self.fileKind) ∧
      self.fields.lookup paxSourceConnectionId = some self.sourceConnectionId.value ∧
      self.fields.lookup paxProjectionId = some self.projectionId.value ∧
      self.fields.lookup paxEffectiveActions =
        some (effectiveActionsPaxValue self.effectiveActions) ∧
      self.fields.lookup paxContentSha256 = some self.contentSha256 :=
  ⟨rfl, rfl, rfl, rfl, rfl, rfl⟩

theorem projectionFileKindFromWireLabel_wireLabel (kind : ProjectionFileKind) :
    projectionFileKindFromWireLabel (projectionFileKindWireLabel kind) = some kind := by
  cases kind <;> decide +kernel

/-- Records of metadata are read as that metadata, if it may be written, and as nothing
else. -/
theorem fromRecords_fields (hactions : self.effectiveActions ≠ ∅) :
    fromRecords self.fields = some metadata ↔ self.Writable ∧ metadata = self := by
  have hlookup := lookup_fields self
  have hread : collectRecords 0 [] self.fields = some self.fields →
      fromRecords self.fields = if self.fileKind = .directory then none
        else self.toRecords.map fun _ => self := by
    intro hfound
    rw [fromRecords, hfound]
    simp only [Option.bind_eq_bind, Option.bind_some, hlookup,
      (parseCanonicalU32_eq_some).mpr rfl, projectionFileKindFromWireLabel_wireLabel,
      sourceActionsFromCanonicalPaxValue_value hactions]
    exact if_neg fun hlength => hlength rfl
  constructor
  · intro h
    obtain ⟨found, hcollect, -⟩ := Option.bind_eq_some_iff.mp h
    have hspace : ∀ record ∈ self.fields, startsWith record.1 paxNamespace = true :=
      fun record hmem => (by decide : ∀ key ∈ exportFilePaxKeys,
        startsWith key paxNamespace = true) _ (key_mem_of_mem_fields hmem)
    have hfound : found = self.fields := collectRecords_eq_some hspace hcollect
    rw [hread (hfound ▸ hcollect)] at h
    obtain ⟨-, h⟩ := Option.ite_none_left_eq_some.mp h
    obtain ⟨records, hrecords, hself⟩ := Option.map_eq_some_iff.mp h
    exact ⟨(toRecords_eq_some.mp hrecords).1, hself.symm⟩
  · intro h
    obtain ⟨hwritable, rfl⟩ := h
    obtain ⟨total, htotal, hle⟩ := hwritable.size
    have hcollect : collectRecords 0 [] metadata.fields = some metadata.fields :=
      collectRecords_of_fits (fun record hmem => key_mem_of_mem_fields hmem)
        (keys_fields metadata ▸ by decide) (fun _ _ => rfl) htotal hle
    rw [hread hcollect, if_neg hwritable.kind, toRecords_eq_some.mpr ⟨hwritable, rfl⟩]
    rfl

end ExportFilePaxMetadata

end Locality.Protocol
