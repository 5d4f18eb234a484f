/-
  Protocol/MemberPaths.lean --- the rules for paths, side by side.

  A path that `validate_regular_path` accepts is one that `LogicalPath::new` accepts as
  well, unless it is a form of the control path or a component has a name that only the
  latter reserves.  Targets are checked by neither: they are right for the former, and may
  have such a name.
-/
import Locality.Protocol.WorkspaceControl

set_option autoImplicit false

namespace Locality.Protocol

open Locality.Core Locality.Foundation WorkspaceExport

/-! ## Components -/

theorem splitSlash_of_notMem {value : Text} (h : '/' ∉ value) : splitSlash value = [value] :=
  List.splitOn_eq_singleton h

theorem splitSlash_append {target : Text} (h : '/' ∉ target) (rest : Text) :
    splitSlash (target ++ '/' :: rest) = target :: splitSlash rest := by
  rw [splitSlash, List.splitOn_append_cons_self, List.splitOn_eq_singleton h]
  rfl

theorem splitSlash_ne_nil (value : Text) : splitSlash value ≠ [] := List.splitOn_ne_nil _ _

theorem splitOnce_append {target : Text} (h : '/' ∉ target) (rest : Text) :
    splitOnce ['/'] (target ++ '/' :: rest) = some (target, rest) := by
  induction target with
  | nil => rfl
  | cons c target ih =>
      obtain ⟨hne, hrest⟩ := not_or.mp fun hor => h (List.mem_cons.mpr hor)
      have hpattern : ['/'].isPrefixOf (c :: (target ++ '/' :: rest)) = false := by
        rw [List.isPrefixOf_cons_cons, beq_false_of_ne hne, Bool.false_and]
      rw [List.cons_append, splitOnce, if_neg (Bool.not_eq_true _ ▸ hpattern), ih hrest]
      rfl

theorem splitOnce_of_notMem {value : Text} (h : '/' ∉ value) : splitOnce ['/'] value = none := by
  cases hsplit : splitOnce ['/'] value with
  | none => rfl
  | some parts =>
      obtain ⟨before, after⟩ := parts
      refine absurd ?_ h
      rw [splitOnce_eq_some hsplit]
      exact List.mem_append_left _ (List.mem_append_right _ List.mem_cons_self)

/-! ## The rules for components and for paths -/

section Unicode

variable (unicode : UnicodeTables)

/-- What both rules ask of a component. -/
structure PortableComponent (component : Text) : Prop where
  notDot : component ≠ ['.']
  notDots : component ≠ ['.', '.']
  noControl : component.any isControl = false
  safe : component.any (· ∈ unsafeCharacters) = false
  ending : endsDotOrSpace component = false
  nfc : unicode.nfc component = component
  utf8 : utf8Bytes component ≤ maxLogicalPathComponentUtf8Bytes
  utf16 : utf16Units component ≤ maxLogicalPathComponentUtf16Units

/-- What both rules ask of a path as a whole. -/
structure RelativePath (value : Text) : Prop where
  notEmpty : value ≠ []
  relative : value.head? ≠ some '/'
  noBackslash : '\\' ∉ value
  normalized : [] ∉ splitSlash value
  utf8 : utf8Bytes value ≤ maxLogicalPathUtf8Bytes
  utf16 : utf16Units value ≤ maxLogicalPathUtf16Units

variable {unicode} {component value : Text}

theorem validateComponent_eq_ok {u : Unit} :
    validateComponent unicode component = .ok u ↔
      PortableComponent unicode component ∧ isWindowsDeviceName component = false := by
  simp only [validateComponent, bind_eq_ok, failIf_eq_ok, not_or, not_not, Nat.not_lt,
    Bool.not_eq_true, exists_const]
  constructor
  · intro h
    obtain ⟨⟨hdot, hdots, hcontrol, hsafe, hending, hname⟩, hnfc, hutf8, hutf16⟩ := h
    exact ⟨⟨hdot, hdots, hcontrol, hsafe, hending, hnfc, hutf8, hutf16⟩, hname⟩
  · intro h
    obtain ⟨⟨hdot, hdots, hcontrol, hsafe, hending, hnfc, hutf8, hutf16⟩, hname⟩ := h
    exact ⟨⟨hdot, hdots, hcontrol, hsafe, hending, hname⟩, hnfc, hutf8, hutf16⟩

theorem validatePathComponent_eq_ok {index : Nat} {u : Unit} :
    validatePathComponent unicode index component = .ok u ↔
      component ≠ [] ∧ PortableComponent unicode component ∧
        isReservedName component = false := by
  have hunsafe : ∀ rest : Except LogicalPathError Unit,
      (if component.any isControl ∨ component.any (· ∈ unsafeCharacters) then
        if index = 0 ∧ component[1]? = some ':' ∧ component.head?.any isAsciiAlphabetic then
          throw .windowsPrefix
        else throw .unsafeCharacter
      else rest) = .ok u ↔
        ¬ (component.any isControl ∨ component.any (· ∈ unsafeCharacters)) ∧ rest = .ok u := by
    intro rest
    split
    · rename_i hbad
      refine iff_of_false (fun h => ?_) fun h => h.1 hbad
      split at h <;> exact nomatch h
    · rename_i hgood
      exact ⟨fun h => ⟨hgood, h⟩, And.right⟩
  simp only [validatePathComponent, ite_throw_eq_ok, hunsafe, not_or, not_not, Nat.not_lt,
    Bool.not_eq_true]
  constructor
  · intro h
    obtain ⟨⟨hempty, hdot, hdots⟩, hnfc, ⟨hutf8, hutf16⟩, ⟨hcontrol, hsafe⟩, hending, hname, -⟩ :=
      h
    exact ⟨hempty, ⟨hdot, hdots, hcontrol, hsafe, hending, hnfc, hutf8, hutf16⟩, hname⟩
  · intro h
    obtain ⟨hempty, ⟨hdot, hdots, hcontrol, hsafe, hending, hnfc, hutf8, hutf16⟩, hname⟩ := h
    exact ⟨⟨hempty, hdot, hdots⟩, hnfc, ⟨hutf8, hutf16⟩, ⟨hcontrol, hsafe⟩, hending, hname,
      rfl⟩

theorem validateRegularPath_eq_ok {u : Unit} :
    validateRegularPath unicode value = .ok u ↔
      RelativePath value ∧ ∀ component ∈ splitSlash value,
        PortableComponent unicode component ∧ isWindowsDeviceName component = false := by
  simp only [validateRegularPath, bind_eq_ok, failIf_eq_ok, forM_eq_ok, validateComponent_eq_ok,
    not_or, Nat.not_lt, exists_const]
  constructor
  · intro h
    obtain ⟨⟨hempty, hhead, hback, hnormal⟩, hcomponents, hutf8, hutf16⟩ := h
    exact ⟨⟨hempty, hhead, hback, hnormal, hutf8, hutf16⟩, hcomponents⟩
  · intro h
    obtain ⟨⟨hempty, hhead, hback, hnormal, hutf8, hutf16⟩, hcomponents⟩ := h
    exact ⟨⟨hempty, hhead, hback, hnormal⟩, hcomponents, hutf8, hutf16⟩

theorem new_eq_ok {logical : LogicalPath} :
    LogicalPath.new unicode value = .ok logical ↔
      (RelativePath value ∧
        portablePathCollisionKey unicode value ≠
          portablePathCollisionKey unicode reservedExportMetadataPath ∧
        ∀ component ∈ splitSlash value,
          PortableComponent unicode component ∧ isReservedName component = false) ∧
      logical = ⟨value⟩ := by
  have hcomponents : (∀ component index, (component, index) ∈ (splitSlash value).zipIdx →
      component ≠ [] ∧ PortableComponent unicode component ∧ isReservedName component = false) ↔
      ∀ component ∈ splitSlash value, component ≠ [] ∧ PortableComponent unicode component ∧
        isReservedName component = false := by
    constructor
    · intro h component hmem
      obtain ⟨index, hindex⟩ := List.mem_iff_getElem?.mp hmem
      exact h component index (List.mem_zipIdx_iff_getElem?.mpr hindex)
    · intro h component index hmem
      exact h component (List.fst_mem_of_mem_zipIdx hmem)
  have hnormal : (∀ component ∈ splitSlash value, component ≠ [] ∧
      PortableComponent unicode component ∧ isReservedName component = false) ↔
      [] ∉ splitSlash value ∧ ∀ component ∈ splitSlash value,
        PortableComponent unicode component ∧ isReservedName component = false := by
    constructor
    · intro h
      exact ⟨fun hmem => (h [] hmem).1 rfl, fun component hmem => (h component hmem).2⟩
    · intro h component hmem
      exact ⟨fun hempty => h.1 (hempty ▸ hmem), h.2 component hmem⟩
  rw [LogicalPath.new, bind_eq_ok]
  simp only [validateLogicalPath, ite_throw_eq_ok, forM_eq_ok, Prod.forall,
    validatePathComponent_eq_ok, hcomponents, hnormal, not_or, Nat.not_lt, exists_const]
  constructor
  · intro h
    obtain ⟨⟨hempty, hhead, hback, hkey, ⟨hutf8, hutf16⟩, hnormal, hall⟩, hlogical⟩ := h
    exact ⟨⟨⟨hempty, hhead, hback, hnormal, hutf8, hutf16⟩, hkey, hall⟩,
      (Except.ok.inj hlogical).symm⟩
  · intro h
    obtain ⟨⟨⟨hempty, hhead, hback, hnormal, hutf8, hutf16⟩, hkey, hall⟩, rfl⟩ := h
    exact ⟨⟨hempty, hhead, hback, hkey, ⟨hutf8, hutf16⟩, hnormal, hall⟩, rfl⟩

/-- Where the rules differ: a form of the control path, and names that are reserved. -/
theorem new_iff_of_regular (h : validateRegularPath unicode value = .ok ()) :
    LogicalPath.new unicode value = .ok ⟨value⟩ ↔
      portablePathCollisionKey unicode value ≠
          portablePathCollisionKey unicode reservedExportMetadataPath ∧
        ∀ component ∈ splitSlash value, isReservedName component = false := by
  obtain ⟨hrelative, hcomponents⟩ := validateRegularPath_eq_ok.mp h
  rw [new_eq_ok]
  constructor
  · intro h
    exact ⟨h.1.2.1, fun component hmem => (h.1.2.2 component hmem).2⟩
  · intro h
    exact ⟨⟨hrelative, h.1, fun component hmem => ⟨(hcomponents component hmem).1,
      h.2 component hmem⟩⟩, rfl⟩

/-! ## Targets -/

/-- What full case folding and NFC do to slashes, which are in no decomposition, and to the
name of the control directory. -/
structure KeepsSlashes (unicode : UnicodeTables) : Prop where
  append : ∀ front rest, collisionKey unicode (front ++ '/' :: rest) =
    collisionKey unicode front ++ '/' :: collisionKey unicode rest
  notMem : ∀ value, '/' ∉ value → '/' ∉ collisionKey unicode value
  control : collisionKey unicode ".loc".toList = ".loc".toList

theorem portablePathCollisionKey_eq (hslash : KeepsSlashes unicode) (value : Text) :
    portablePathCollisionKey unicode value = collisionKey unicode value := by
  induction hlength : value.length using Nat.strong_induction_on generalizing value with
  | _ length ih =>
      by_cases hmem : '/' ∈ value
      · obtain ⟨front, rest, rfl, hfront⟩ := List.eq_append_cons_of_mem hmem
        have hrest := ih rest.length (by
          rw [← hlength, List.length_append, List.length_cons]
          omega) rest rfl
        rw [hslash.append, ← hrest, portablePathCollisionKey, splitSlash_append hfront,
          List.map_cons, portablePathCollisionKey]
        cases hparts : splitSlash rest with
        | nil => exact absurd hparts (splitSlash_ne_nil rest)
        | cons part parts =>
            rw [List.map_cons, join, List.append_assoc]
            · rfl
            · exact nofun
      · rw [portablePathCollisionKey, splitSlash_of_notMem hmem]
        rfl

theorem collisionKey_reserved (hslash : KeepsSlashes unicode) :
    collisionKey unicode reservedExportMetadataPath =
      ".loc".toList ++ '/' :: collisionKey unicode "session.json".toList := by
  have hpath : reservedExportMetadataPath = ".loc".toList ++ '/' :: "session.json".toList := by
    decide
  rw [hpath, hslash.append, hslash.control]

/-- Texts before the first slash are the same where the texts are. -/
theorem front_eq_of_append {front front' rest rest' : Text} (hfront : '/' ∉ front)
    (hfront' : '/' ∉ front') (h : front ++ '/' :: rest = front' ++ '/' :: rest') :
    front = front' ∧ rest = rest' := by
  have hsplit := splitOnce_append hfront rest
  rw [h, splitOnce_append hfront' rest'] at hsplit
  have hparts := Option.some.inj hsplit
  exact ⟨(congrArg Prod.fst hparts).symm, (congrArg Prod.snd hparts).symm⟩

variable {target : MountTarget}

/-- A target that `MountTarget::new` made. -/
def MountTarget.Valid (unicode : UnicodeTables) (target : MountTarget) : Prop :=
  MountTarget.new unicode target.value = .ok target

theorem MountTarget.Valid.regular (h : target.Valid unicode) :
    '/' ∉ target.value ∧ validateRegularPath unicode target.value = .ok () ∧
      Protocol.collisionKey unicode target.value ≠ ".loc".toList := by
  rw [MountTarget.Valid, MountTarget.new] at h
  simp only [ite_throw_eq_ok, bind_eq_ok, not_not, Nat.not_lt, not_or] at h
  obtain ⟨hempty, hnfc, hutf8, hutf16, ⟨hdot, hdots⟩, _, hcharacters, _, hname, -⟩ := h
  simp only [validateTargetName, ite_throw_eq_ok, Bool.not_eq_true] at hname
  obtain ⟨hending, hdevice, hkey, -⟩ := hname
  have hcharacter : ∀ c ∈ target.value, isControl c = false ∧
      c ∉ ['/', '\\', ':', '<', '>', '"', '|', '?', '*'] := by
    intro c hmem
    have hc := forM_eq_ok.mp hcharacters c hmem
    simp only [validateTargetCharacter, ite_throw_eq_ok, Bool.not_eq_true] at hc
    exact ⟨hc.2.1, hc.2.2.1⟩
  have hnot : ∀ c ∈ ['/', '\\', ':', '<', '>', '"', '|', '?', '*'], c ∉ target.value :=
    fun c hc hmem => (hcharacter c hmem).2 hc
  have hslash := hnot '/' (by decide)
  refine ⟨hslash, validateRegularPath_eq_ok.mpr ⟨⟨hempty, ?_, hnot _ (by decide), ?_, ?_, ?_⟩, ?_⟩,
    hkey⟩
  · exact fun hhead => hslash (List.mem_of_head? hhead)
  · rw [splitSlash_of_notMem hslash]
    exact fun hmem => hempty (List.mem_singleton.mp hmem).symm
  · exact hutf8.trans (by decide)
  · exact hutf16.trans (by decide)
  · intro component hmem
    rw [splitSlash_of_notMem hslash] at hmem
    obtain rfl := List.mem_singleton.mp hmem
    refine ⟨⟨hdot, hdots, ?_, ?_, hending, hnfc, hutf8.trans (by decide), hutf16.trans (by decide)⟩,
      hdevice⟩
    · exact List.any_eq_false.mpr fun c hc => Bool.not_eq_true _ ▸ (hcharacter c hc).1
    · refine List.any_eq_false.mpr fun c hc hunsafe => (hcharacter c hc).2 ?_
      have hsub : unsafeCharacters.all
          (· ∈ ['/', '\\', ':', '<', '>', '"', '|', '?', '*']) = true := by
        decide
      exact of_decide_eq_true (List.all_eq_true.mp hsub c (of_decide_eq_true hunsafe))

/-- No path below a target, and no target, is a form of the control path. -/
theorem MountTarget.Valid.key_ne (hslash : KeepsSlashes unicode) (h : target.Valid unicode)
    {path : Text} (hpath : path = target.value ∨ ∃ rest, path = target.value ++ '/' :: rest) :
    Protocol.collisionKey unicode path ≠
      Protocol.collisionKey unicode reservedExportMetadataPath := by
  obtain ⟨hfree, -, hkey⟩ := h.regular
  rw [collisionKey_reserved hslash]
  intro hsame
  obtain rfl | ⟨rest, rfl⟩ := hpath
  · exact hslash.notMem _ hfree (hsame ▸ List.mem_append_right _ List.mem_cons_self)
  · rw [hslash.append] at hsame
    exact hkey (front_eq_of_append (hslash.notMem _ hfree) (by decide) hsame).1

/-- A target is a logical path as well if its name is not reserved. -/
theorem MountTarget.Valid.new_iff (hslash : KeepsSlashes unicode) (h : target.Valid unicode) :
    LogicalPath.new unicode target.value = .ok ⟨target.value⟩ ↔
      isReservedName target.value = false := by
  obtain ⟨hfree, hregular, -⟩ := h.regular
  rw [new_iff_of_regular hregular, portablePathCollisionKey_eq hslash,
    portablePathCollisionKey_eq hslash, splitSlash_of_notMem hfree]
  constructor
  · exact fun hnew => hnew.2 _ (List.mem_singleton_self _)
  · intro hname
    refine ⟨h.key_ne hslash (Or.inl rfl), fun component hmem => ?_⟩
    rw [List.mem_singleton.mp hmem]
    exact hname

/-- A member below such a target is a logical path. -/
theorem MountTarget.Valid.new_member (hslash : KeepsSlashes unicode) (h : target.Valid unicode)
    (hname : isReservedName target.value = false) {logicalPath : LogicalPath}
    (hlogical : LogicalPath.new unicode logicalPath.value = .ok logicalPath)
    (hregular : validateRegularPath unicode (memberPathOf target logicalPath) = .ok ()) :
    LogicalPath.new unicode (memberPathOf target logicalPath) =
      .ok ⟨memberPathOf target logicalPath⟩ := by
  obtain ⟨hfree, -, -⟩ := h.regular
  obtain ⟨⟨-, -, hcomponents⟩, -⟩ := new_eq_ok.mp hlogical
  rw [new_iff_of_regular hregular, portablePathCollisionKey_eq hslash,
    portablePathCollisionKey_eq hslash]
  refine ⟨h.key_ne hslash (Or.inr ⟨logicalPath.value, rfl⟩), fun component hmem => ?_⟩
  rw [memberPathOf, splitSlash_append hfree] at hmem
  obtain rfl | hmem := List.mem_cons.mp hmem
  · exact hname
  · exact (hcomponents component hmem).2

end Unicode

end Locality.Protocol
