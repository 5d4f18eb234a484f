/-
  Daemon/Store.lean --- the records of the state store, and the repositories over
  them: `locality-store/src/records.rs` and the in-memory and SQLite stores.

  The table of entities keeps what the database promises of it: a record stands under
  its own key, and no two records of a mount lie at one path.  Saving a record at a
  path that another entity occupies is the error `DuplicateEntityPath`.

  A field of a record that nothing modelled here reads is left out.
-/
import Locality.Core.PathProjection
import Locality.Core.Shadow
import Mathlib.Data.List.AList

set_option autoImplicit false

namespace Locality.Daemon

open Locality.Core

/-! ## Records -/

inductive ProjectionMode where
  | plainFiles
  | macosFileProvider
  | linuxFuse
  | windowsCloudFiles
  deriving DecidableEq, Repr

def ProjectionMode.usesVirtualFilesystem : ProjectionMode → Bool
  | plainFiles => false
  | macosFileProvider | linuxFuse | windowsCloudFiles => true

structure MountConfig where
  mountId : MountId
  connector : Text
  root : PathBuf
  remoteRootId : Option RemoteId
  projection : ProjectionMode
  deriving DecidableEq, Repr

abbrev EntityKey : Type := MountId × RemoteId

structure EntityRecord where
  mountId : MountId
  remoteId : RemoteId
  kind : EntityKind
  title : Text
  path : PathBuf
  hydration : HydrationState
  contentHash : Option Text
  /-- The remote version that the stored shadow stands for. -/
  remoteEditedAt : Option Text
  deriving DecidableEq, Repr

def EntityRecord.key (self : EntityRecord) : EntityKey := (self.mountId, self.remoteId)

inductive FreshnessTier where
  | immediate
  | hot
  | warm
  | cold
  | dormant
  deriving DecidableEq, Repr

structure FreshnessStateRecord where
  mountId : MountId
  remoteId : RemoteId
  tier : FreshnessTier
  lastCheckedAt : Option Text
  lastLocalChangeAt : Option Text
  remoteHintPending : Bool
  deriving DecidableEq, Repr

/-- `FreshnessStateRecord::new`. -/
def FreshnessStateRecord.new (mountId : MountId) (remoteId : RemoteId) (tier : FreshnessTier) :
    FreshnessStateRecord where
  mountId := mountId
  remoteId := remoteId
  tier := tier
  lastCheckedAt := none
  lastLocalChangeAt := none
  remoteHintPending := false

structure RemoteObservationRecord where
  mountId : MountId
  remoteId : RemoteId
  kind : EntityKind
  title : Text
  projectedPath : PathBuf
  remoteVersion : Option Text
  observedAt : Text
  deleted : Bool
  deriving DecidableEq, Repr

/-- An entry of an enumeration or of a listing. -/
structure TreeEntry where
  mountId : MountId
  remoteId : RemoteId
  kind : EntityKind
  title : Text
  path : PathBuf
  hydration : HydrationState
  contentHash : Option Text
  remoteEditedAt : Option Text
  stubFrontmatter : Option Text
  deriving DecidableEq, Repr

/-- `EntityRecord::from`. -/
def TreeEntry.toRecord (self : TreeEntry) : EntityRecord where
  mountId := self.mountId
  remoteId := self.remoteId
  kind := self.kind
  title := self.title
  path := self.path
  hydration := self.hydration
  contentHash := self.contentHash
  remoteEditedAt := self.remoteEditedAt

/-! ## Errors -/

/-- The errors of the repositories modelled here; `ShadowMissing` is `none`. -/
inductive StoreError where
  | mountMissing (mountId : MountId)
  | entityMissing (mountId : MountId) (remoteId : RemoteId)
  | duplicateEntityPath (mountId : MountId) (path : PathBuf)
  deriving DecidableEq, Repr

namespace StoreError

/-- The `Display` text of an error. -/
def display : StoreError → Text
  | mountMissing mountId =>
      "mount \x60".toList ++ mountId.value ++ "\x60 was not found".toList
  | entityMissing mountId remoteId =>
      "entity \x60".toList ++ remoteId.value ++ "\x60 was not found in mount \x60".toList ++
        mountId.value ++ "\x60".toList
  | duplicateEntityPath mountId path =>
      "path \x60".toList ++ displayPath path ++ "\x60 is already mapped in mount \x60".toList ++
        mountId.value ++ "\x60".toList

/-- `LocalityError::from`. -/
def toLocalityError (self : StoreError) : LocalityError := .io self.display

end StoreError

/-! ## The table of entities -/

/-- The entities of all mounts. -/
structure EntityTable where
  records : AList fun _ : EntityKey => EntityRecord
  keyed : ∀ key record, records.lookup key = some record → record.key = key
  placed : ∀ key record key' record', records.lookup key = some record →
    records.lookup key' = some record' → record.mountId = record'.mountId →
    record.path = record'.path → key = key'

namespace EntityTable

def empty : EntityTable where
  records := ∅
  keyed := by simp
  placed := by simp

def get (self : EntityTable) (key : EntityKey) : Option EntityRecord := self.records.lookup key

/-- The records of every mount, in no particular order. -/
def all (self : EntityTable) : List EntityRecord := self.records.entries.map Sigma.snd

theorem mem_all {self : EntityTable} {record : EntityRecord} :
    record ∈ self.all ↔ self.get record.key = some record := by
  simp only [all, get, List.mem_map]
  constructor
  · rintro ⟨⟨key, found⟩, hmem, rfl⟩
    have hlookup : self.records.lookup key = some found := AList.mem_lookup_iff.mpr hmem
    rw [self.keyed key found hlookup]
    exact hlookup
  · intro h
    exact ⟨⟨record.key, record⟩, AList.mem_lookup_iff.mp h, rfl⟩

theorem get_key {self : EntityTable} {key : EntityKey} {record : EntityRecord}
    (h : self.get key = some record) : record.key = key := self.keyed key record h

theorem get_injective {self : EntityTable} {key key' : EntityKey} {record record' : EntityRecord}
    (h : self.get key = some record) (h' : self.get key' = some record')
    (hmount : record.mountId = record'.mountId) (hpath : record.path = record'.path) :
    key = key' := self.placed key record key' record' h h' hmount hpath

/-- `find_entity_by_path`. -/
def findByPath (self : EntityTable) (mountId : MountId) (path : PathBuf) :
    Option EntityRecord :=
  self.all.find? fun record => decide (record.mountId = mountId) && decide (record.path = path)

theorem findByPath_eq_some {self : EntityTable} {mountId : MountId} {path : PathBuf}
    {record : EntityRecord} :
    self.findByPath mountId path = some record ↔
      self.get record.key = some record ∧ record.mountId = mountId ∧ record.path = path := by
  constructor
  · intro h
    have hmem := List.mem_of_find?_eq_some h
    have hwhere := List.find?_some h
    simp only [Bool.and_eq_true, decide_eq_true_eq] at hwhere
    exact ⟨mem_all.mp hmem, hwhere⟩
  · rintro ⟨hget, rfl, rfl⟩
    cases hfind : self.findByPath record.mountId record.path with
    | none =>
        have hnone := List.find?_eq_none.mp hfind record (mem_all.mpr hget)
        simp at hnone
    | some found =>
        have hmem := mem_all.mp (List.mem_of_find?_eq_some hfind)
        have hwhere := List.find?_some hfind
        simp only [Bool.and_eq_true, decide_eq_true_eq] at hwhere
        have hkey := get_injective hmem hget hwhere.1 hwhere.2
        rw [hkey, hget] at hmem
        exact hmem.symm

/-- No other entity of the mount lies at the record's path. -/
def PathFree (self : EntityTable) (record : EntityRecord) : Prop :=
  ∀ other, self.findByPath record.mountId record.path = some other →
    other.remoteId = record.remoteId

instance (self : EntityTable) (record : EntityRecord) : Decidable (self.PathFree record) :=
  match h : self.findByPath record.mountId record.path with
  | none => isTrue fun _ hother => by rw [h] at hother; exact nomatch hother
  | some other =>
      if hid : other.remoteId = record.remoteId then
        isTrue fun _ hother => by rw [h] at hother; exact Option.some.inj hother ▸ hid
      else isFalse fun hfree => hid (hfree other h)

/-- The table with the record under its key. -/
def insert (self : EntityTable) (record : EntityRecord) (hfree : self.PathFree record) :
    EntityTable where
  records := self.records.insert record.key record
  keyed := by
    intro key found h
    by_cases hkey : key = record.key
    · subst hkey
      rw [AList.lookup_insert] at h
      exact congrArg EntityRecord.key (Option.some.inj h).symm
    · rw [AList.lookup_insert_ne hkey] at h
      exact self.keyed key found h
  placed := by
    -- a record that was there before, at the new record's path, is the one replaced
    have hsame : ∀ key found, self.records.lookup key = some found →
        found.mountId = record.mountId → found.path = record.path → key = record.key := by
      intro key found h hmount hpath
      have hkey := self.keyed key found h
      have hfind : self.findByPath record.mountId record.path = some found :=
        findByPath_eq_some.mpr ⟨by rw [hkey]; exact h, hmount, hpath⟩
      rw [← hkey, EntityRecord.key, EntityRecord.key, hmount, hfree found hfind]
    intro key found key' found' h h' hmount hpath
    by_cases hkey : key = record.key
    · by_cases hkey' : key' = record.key
      · rw [hkey, hkey']
      · rw [AList.lookup_insert_ne hkey'] at h'
        rw [hkey, AList.lookup_insert] at h
        cases Option.some.inj h
        rw [hkey, hsame key' found' h' hmount.symm hpath.symm]
    · rw [AList.lookup_insert_ne hkey] at h
      by_cases hkey' : key' = record.key
      · rw [hkey', AList.lookup_insert] at h'
        cases Option.some.inj h'
        rw [hkey', hsame key found h hmount hpath]
      · rw [AList.lookup_insert_ne hkey'] at h'
        exact self.placed key found key' found' h h' hmount hpath

/-- `save_entity`. -/
def save (self : EntityTable) (record : EntityRecord) : Except StoreError EntityTable :=
  if hfree : self.PathFree record then .ok (self.insert record hfree)
  else .error (.duplicateEntityPath record.mountId record.path)

/-- `delete_entity`; the shadow of a deleted entity stays. -/
def delete (self : EntityTable) (key : EntityKey) : EntityTable where
  records := self.records.erase key
  keyed := by
    intro other found h
    by_cases hkey : other = key
    · rw [hkey, AList.lookup_erase] at h
      exact nomatch h
    · rw [AList.lookup_erase_ne hkey] at h
      exact self.keyed other found h
  placed := by
    intro k found k' found' h h' hmount hpath
    have hk : k ≠ key := by
      rintro rfl
      rw [AList.lookup_erase] at h
      exact nomatch h
    have hk' : k' ≠ key := by
      rintro rfl
      rw [AList.lookup_erase] at h'
      exact nomatch h'
    rw [AList.lookup_erase_ne hk] at h
    rw [AList.lookup_erase_ne hk'] at h'
    exact self.placed k found k' found' h h' hmount hpath

theorem get_of_save {self table : EntityTable} {record : EntityRecord}
    (h : self.save record = .ok table) : table.get record.key = some record := by
  unfold save at h
  split at h
  · cases h
    exact AList.lookup_insert _
  · exact nomatch h

theorem get_of_save_ne {self table : EntityTable} {record : EntityRecord} {key : EntityKey}
    (h : self.save record = .ok table) (hkey : key ≠ record.key) :
    table.get key = self.get key := by
  unfold save at h
  split at h
  · cases h
    exact AList.lookup_insert_ne hkey
  · exact nomatch h

@[simp] theorem get_delete (self : EntityTable) (key : EntityKey) :
    (self.delete key).get key = none := AList.lookup_erase _ _

theorem get_delete_ne (self : EntityTable) {key other : EntityKey} (h : other ≠ key) :
    (self.delete key).get other = self.get other := AList.lookup_erase_ne h

/-- Another record of an entity, at the path where it lies, is saved. -/
theorem pathFree_of_get {self : EntityTable} {key : EntityKey} {record record' : EntityRecord}
    (h : self.get key = some record) (hkey : record'.key = key)
    (hpath : record'.path = record.path) : self.PathFree record' := by
  intro other hother
  obtain ⟨hget, hmount, hplace⟩ := findByPath_eq_some.mp hother
  have hk : record.key = record'.key := (get_key h).trans hkey.symm
  have hsame : other.key = key :=
    get_injective hget h (hmount.trans (congrArg Prod.fst hk).symm) (hplace.trans hpath)
  exact congrArg Prod.snd (hsame.trans hkey.symm)

theorem exists_save_of_get {self : EntityTable} {key : EntityKey}
    {record record' : EntityRecord} (h : self.get key = some record) (hkey : record'.key = key)
    (hpath : record'.path = record.path) : ∃ table, self.save record' = .ok table :=
  ⟨_, dif_pos (pathFree_of_get h hkey hpath)⟩

end EntityTable

/-! ## The store -/

theorem freshnessKeyed_none (key : EntityKey) (record : FreshnessStateRecord)
    (h : none = some record) : (record.mountId, record.remoteId) = key := nomatch h

/-- What the repositories hold; a shadow, a freshness state and an observation are
looked up by their entity's key only. -/
structure Store where
  mounts : MountId → Option MountConfig
  mountsKeyed : ∀ mountId mount, mounts mountId = some mount → mount.mountId = mountId
  entities : EntityTable
  shadows : EntityKey → Option ShadowDocument
  freshness : EntityKey → Option FreshnessStateRecord
  freshnessKeyed : ∀ key record, freshness key = some record →
    (record.mountId, record.remoteId) = key
  observations : EntityKey → Option RemoteObservationRecord

namespace Store

/-- `list_entities`.  The callers modelled here search the list, or go through all of
it, so the order of the database is not kept. -/
def listEntities (self : Store) (mountId : MountId) : List EntityRecord :=
  self.entities.all.filter fun record => decide (record.mountId = mountId)

def saveShadow (self : Store) (mountId : MountId) (shadow : ShadowDocument) : Store :=
  { self with shadows := Function.update self.shadows (mountId, shadow.entityId) (some shadow) }

def saveFreshnessState (self : Store) (freshness : FreshnessStateRecord) : Store :=
  { self with
    freshness := Function.update self.freshness (freshness.mountId, freshness.remoteId)
      (some freshness)
    freshnessKeyed := by
      intro key record h
      by_cases hkey : key = (freshness.mountId, freshness.remoteId)
      · subst hkey
        rw [Function.update_self] at h
        cases h
        rfl
      · rw [Function.update_of_ne hkey] at h
        exact self.freshnessKeyed key record h }

def saveRemoteObservation (self : Store) (observation : RemoteObservationRecord) : Store :=
  { self with
    observations := Function.update self.observations
      (observation.mountId, observation.remoteId) (some observation) }

def deleteShadow (self : Store) (key : EntityKey) : Store :=
  { self with shadows := Function.update self.shadows key none }

def deleteFreshnessState (self : Store) (key : EntityKey) : Store :=
  { self with
    freshness := Function.update self.freshness key none
    freshnessKeyed := by
      intro other record h
      by_cases hkey : other = key
      · subst hkey
        rw [Function.update_self] at h
        exact nomatch h
      · rw [Function.update_of_ne hkey] at h
        exact self.freshnessKeyed other record h }

def deleteRemoteObservation (self : Store) (key : EntityKey) : Store :=
  { self with observations := Function.update self.observations key none }

theorem mem_listEntities {self : Store} {mountId : MountId} {record : EntityRecord} :
    record ∈ self.listEntities mountId ↔
      self.entities.get record.key = some record ∧ record.mountId = mountId := by
  simp only [listEntities, List.mem_filter, EntityTable.mem_all, decide_eq_true_eq]

end Store

end Locality.Daemon
