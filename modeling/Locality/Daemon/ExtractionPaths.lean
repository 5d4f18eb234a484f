/-
  Daemon/ExtractionPaths.lean --- which paths an extraction registers: those with all of
  their prefixes of which no two collide, in whatever order they come.
-/
import Locality.Daemon.ReplicaExtraction

set_option autoImplicit false

namespace Locality.Daemon

open Locality.Core Locality.Foundation Locality.Protocol

/-! ## What a path places -/

/-- The prefixes that components give behind a front, each with what it is. -/
def placementsFrom (isDirectory : Bool) : Text → List Text → List (Text × FilesystemKind)
  | _, [] => []
  | front, component :: components =>
      (extendPrefix front component,
        if components = [] ∧ isDirectory = false then .file else .directory) ::
        placementsFrom isDirectory (extendPrefix front component) components

/-- A path and its parents: it is what it is, and they are directories. -/
def placements (path : Text) (isDirectory : Bool) : List (Text × FilesystemKind) :=
  placementsFrom isDirectory [] (splitSlash path)

section Unicode

variable (unicode : UnicodeTables) (lowercase : Text → Text)

/-- The claims that placed paths make to their composed forms. -/
def composedClaims (placed : List (Text × FilesystemKind)) : List (Text × Text) :=
  placed.map fun (path, _) => (unicode.nfc path, path)

/-- The claims that placed paths make to their forms in lower case. -/
def lowercaseClaims (placed : List (Text × FilesystemKind)) : List (Text × Text) :=
  placed.map fun (path, _) => (lowercase (unicode.nfc path), path)

/-- No path is both a file and a directory, and paths that differ do so in lower case. -/
def Collisionless (placed : List (Text × FilesystemKind)) : Prop :=
  Agree placed ∧ Agree (lowercaseClaims unicode lowercase placed)

/-- The paths of a state, with what they are. -/
structure Registered (state : ExtractionState) (placed : List (Text × FilesystemKind)) : Prop where
  kinds : state.filesystemPaths.Knows placed
  composed : state.unicodePaths.Knows (composedClaims unicode placed)
  lowered : state.casePaths.Knows (lowercaseClaims unicode lowercase placed)

variable {unicode lowercase} {state state' : ExtractionState} {path : Text}
  {kind : FilesystemKind} {placed : List (Text × FilesystemKind)}

theorem mem_lowercaseClaims {key value : Text} :
    (key, value) ∈ lowercaseClaims unicode lowercase placed ↔
      (∃ kind, (value, kind) ∈ placed) ∧ lowercase (unicode.nfc value) = key := by
  rw [lowercaseClaims, List.mem_map]
  constructor
  · intro h
    obtain ⟨⟨path, kind⟩, hmem, hclaim⟩ := h
    cases hclaim
    exact ⟨⟨kind, hmem⟩, rfl⟩
  · intro h
    obtain ⟨⟨kind, hmem⟩, rfl⟩ := h
    exact ⟨(value, kind), hmem, rfl⟩

theorem mem_composedClaims {key value : Text} :
    (key, value) ∈ composedClaims unicode placed ↔
      (∃ kind, (value, kind) ∈ placed) ∧ unicode.nfc value = key := by
  rw [composedClaims, List.mem_map]
  constructor
  · intro h
    obtain ⟨⟨path, kind⟩, hmem, hclaim⟩ := h
    cases hclaim
    exact ⟨⟨kind, hmem⟩, rfl⟩
  · intro h
    obtain ⟨⟨kind, hmem⟩, rfl⟩ := h
    exact ⟨(value, kind), hmem, rfl⟩

/-- Paths that differ in lower case differ when they are composed. -/
theorem Collisionless.composed (h : Collisionless unicode lowercase placed) :
    Agree (composedClaims unicode placed) := by
  intro key value value' hvalue hvalue'
  obtain ⟨hplaced, rfl⟩ := mem_composedClaims.mp hvalue
  obtain ⟨hplaced', hsame⟩ := mem_composedClaims.mp hvalue'
  exact h.2 (mem_lowercaseClaims.mpr ⟨hplaced, rfl⟩)
    (mem_lowercaseClaims.mpr ⟨hplaced', congrArg lowercase hsame⟩)

theorem Registered.collisionless (h : Registered unicode lowercase state placed) :
    Collisionless unicode lowercase placed :=
  ⟨h.kinds.agree, h.lowered.agree⟩

theorem registered_empty : Registered unicode lowercase .empty [] :=
  ⟨Registry.knows_empty, Registry.knows_empty, Registry.knows_empty⟩

/-! ## Registering -/

/-- One placement. -/
def ExtractionState.registerPlacement (unicode : UnicodeTables) (lowercase : Text → Text)
    (state : ExtractionState) (placement : Text × FilesystemKind) :
    ReplicaResult ExtractionState := do
  let state ← state.registerCollisionKey unicode lowercase placement.1
  state.registerKind placement.1 placement.2

/-- What a placement that was registered leaves: the paths with it. -/
theorem registerPlacement_ok {placement : Text × FilesystemKind}
    (h : Registered unicode lowercase state placed)
    (hok : state.registerPlacement unicode lowercase placement = .ok state') :
    Registered unicode lowercase state' (placed ++ [placement]) ∧
      state'.summary = state.summary ∧ state'.archivePaths = state.archivePaths := by
  obtain ⟨path, kind⟩ := placement
  obtain ⟨keyed, hkeys, hkind⟩ := bind_eq_ok.mp hok
  obtain ⟨unicodePaths, hunicode, hkeys⟩ := bind_eq_ok.mp hkeys
  obtain ⟨casePaths, hcase, hkeys⟩ := bind_eq_ok.mp hkeys
  cases hkeys
  obtain ⟨filesystemPaths, hpaths, hkind⟩ := bind_eq_ok.mp hkind
  cases hkind
  refine ⟨⟨h.kinds.claim (mapError_eq_ok.mp hpaths), ?_, ?_⟩, rfl, rfl⟩
  · have hknows := h.composed.claim (mapError_eq_ok.mp hunicode)
    rwa [composedClaims, List.map_append]
  · have hknows := h.lowered.claim (mapError_eq_ok.mp hcase)
    rwa [lowercaseClaims, List.map_append]

theorem exists_registerPlacement {placement : Text × FilesystemKind}
    (h : Registered unicode lowercase state placed)
    (hfree : Collisionless unicode lowercase (placed ++ [placement])) :
    ∃ state', state.registerPlacement unicode lowercase placement = .ok state' := by
  obtain ⟨path, kind⟩ := placement
  have hcomposed := hfree.composed
  rw [composedClaims, List.map_append] at hcomposed
  have hlowered := hfree.2
  rw [lowercaseClaims, List.map_append] at hlowered
  obtain ⟨unicodePaths, hunicode⟩ := (Registry.exists_claim_eq_ok h.composed).mpr
    (agree_append_singleton.mp hcomposed).2
  obtain ⟨casePaths, hcase⟩ := (Registry.exists_claim_eq_ok h.lowered).mpr
    (agree_append_singleton.mp hlowered).2
  obtain ⟨filesystemPaths, hpaths⟩ := (Registry.exists_claim_eq_ok h.kinds).mpr
    (agree_append_singleton.mp hfree.1).2
  exact ⟨_, bind_eq_ok.mpr ⟨_, bind_eq_ok.mpr ⟨_, mapError_eq_ok.mpr hunicode, bind_eq_ok.mpr
    ⟨_, mapError_eq_ok.mpr hcase, rfl⟩⟩, bind_eq_ok.mpr ⟨_, mapError_eq_ok.mpr hpaths, rfl⟩⟩⟩

/-- The prefixes of components are registered one after the other. -/
theorem registerPrefixes_eq (isDirectory : Bool) (front : Text) (components : List Text) :
    state.registerPrefixes unicode lowercase isDirectory front components =
      (placementsFrom isDirectory front components).foldlM
        (fun state placement => state.registerPlacement unicode lowercase placement) state := by
  induction components generalizing state front with
  | nil => rfl
  | cons component components ih =>
      rw [ExtractionState.registerPrefixes, placementsFrom, List.foldlM_cons,
        ExtractionState.registerPlacement, bind_assoc]
      exact congrArg (_ >>= ·) (funext fun state => congrArg (_ >>= ·) (funext fun state => ih _))

theorem registerPlacements_ok {more : List (Text × FilesystemKind)}
    (h : Registered unicode lowercase state placed)
    (hok : more.foldlM (fun state placement =>
      state.registerPlacement unicode lowercase placement) state = .ok state') :
    Registered unicode lowercase state' (placed ++ more) ∧
      state'.summary = state.summary ∧ state'.archivePaths = state.archivePaths := by
  induction more generalizing state placed with
  | nil =>
      cases hok
      rw [List.append_nil]
      exact ⟨h, rfl, rfl⟩
  | cons placement more ih =>
      obtain ⟨next, hnext, hok⟩ := bind_eq_ok.mp hok
      obtain ⟨hnext, hsummary, harchive⟩ := registerPlacement_ok h hnext
      obtain ⟨hmore, hsummary', harchive'⟩ := ih hnext hok
      rw [List.append_assoc] at hmore
      exact ⟨hmore, hsummary'.trans hsummary, harchive'.trans harchive⟩

theorem Collisionless.of_append_left {more : List (Text × FilesystemKind)}
    (h : Collisionless unicode lowercase (placed ++ more)) :
    Collisionless unicode lowercase placed := by
  obtain ⟨hkinds, hlowered⟩ := h
  rw [lowercaseClaims, List.map_append] at hlowered
  exact ⟨hkinds.of_append_left, hlowered.of_append_left⟩

theorem exists_registerPlacements {more : List (Text × FilesystemKind)}
    (h : Registered unicode lowercase state placed)
    (hfree : Collisionless unicode lowercase (placed ++ more)) :
    ∃ state', more.foldlM (fun state placement =>
      state.registerPlacement unicode lowercase placement) state = .ok state' := by
  induction more generalizing state placed with
  | nil => exact ⟨state, rfl⟩
  | cons placement more ih =>
      have hsplit : placed ++ placement :: more = placed ++ [placement] ++ more :=
        (List.append_cons placed placement more)
      rw [hsplit] at hfree
      obtain ⟨next, hnext⟩ := exists_registerPlacement h hfree.of_append_left
      obtain ⟨state', hstate'⟩ := ih (registerPlacement_ok h hnext).1 hfree
      exact ⟨state', bind_eq_ok.mpr ⟨next, hnext, hstate'⟩⟩

/-! ## Whole paths -/

variable {isDirectory : Bool}

theorem registerPath_ok (h : Registered unicode lowercase state placed)
    (hok : state.registerPath unicode lowercase path isDirectory = .ok state') :
    path ∉ state.archivePaths ∧
      Registered unicode lowercase state' (placed ++ placements path isDirectory) ∧
      state'.summary = state.summary ∧ state'.archivePaths = path :: state.archivePaths := by
  obtain ⟨_, hnew, hok⟩ := bind_eq_ok.mp hok
  rw [registerPrefixes_eq] at hok
  have hclaimed : Registered unicode lowercase
      { state with archivePaths := path :: state.archivePaths } placed :=
    ⟨h.kinds, h.composed, h.lowered⟩
  exact ⟨rejectIf_eq_ok.mp hnew, registerPlacements_ok hclaimed hok⟩

theorem exists_registerPath (h : Registered unicode lowercase state placed)
    (hnew : path ∉ state.archivePaths)
    (hfree : Collisionless unicode lowercase (placed ++ placements path isDirectory)) :
    ∃ state', state.registerPath unicode lowercase path isDirectory = .ok state' := by
  have hclaimed : Registered unicode lowercase
      { state with archivePaths := path :: state.archivePaths } placed :=
    ⟨h.kinds, h.composed, h.lowered⟩
  obtain ⟨state', hstate'⟩ := exists_registerPlacements hclaimed hfree
  refine ⟨state', bind_eq_ok.mpr ⟨(), rejectIf_eq_ok.mpr hnew, ?_⟩⟩
  rw [registerPrefixes_eq]
  exact hstate'

end Unicode

end Locality.Daemon
