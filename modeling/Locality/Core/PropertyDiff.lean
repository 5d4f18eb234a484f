/-
  Core/PropertyDiff.lean --- the frontmatter half of a diff: what
  `property_diff_operations` of `locality-core/src/diff.rs` plans for the properties
  of an entity.

  The two frontmatters are read by the YAML crate (`YamlSerde`).  Two values count
  as equal when the crate says so or when they are the same references written in
  two ways.
-/
import Locality.Core.Planner
import Locality.Core.Shadow

set_option autoImplicit false

namespace Locality.Core

/-! ## UUID references -/

def isHexDigit (c : Char) : Bool :=
  isAsciiDigit c || ('a' ≤ c && c ≤ 'f') || ('A' ≤ c && c ≤ 'F')

/-- Thirty-six bytes with hyphens at four places.  A character beyond ASCII is
several bytes, none of them a hyphen or a hex digit, so characters can be counted. -/
def isHyphenatedUuid (value : Text) : Bool :=
  decide (value.length = 36) &&
    value.zipIdx.all fun p =>
      if p.2 = 8 ∨ p.2 = 13 ∨ p.2 = 18 ∨ p.2 = 23 then p.1 == '-' else isHexDigit p.1

/-- `rsplit_once` with a character: what follows the last occurrence. -/
def afterLast (c : Char) (t : Text) : Option Text :=
  if t.contains c then some (t.reverse.takeWhile (· != c)).reverse else none

def canonicalUuidReference (value : Text) : Option Text :=
  let value := trim value
  if isHyphenatedUuid value then some (toAsciiLowercase value)
  else
    match stripSuffixChar '>' value with
    | none => none
    | some value =>
        match afterLast '<' value with
        | none => none
        | some uuid =>
            let uuid := trim uuid
            if isHyphenatedUuid uuid then some (toAsciiLowercase uuid) else none

inductive SemanticUuidReferenceValue where
  | scalar (value : Text)
  | sequence (values : List Text)
  deriving DecidableEq, Repr

def uuidReferenceScalar : YamlValue → Option Text
  | .string value => canonicalUuidReference value
  | .tagged _ value => uuidReferenceScalar value
  | _ => none

def uuidReferenceValue : YamlValue → Option SemanticUuidReferenceValue
  | .string value => (canonicalUuidReference value).map .scalar
  | .sequence values => (values.mapM uuidReferenceScalar).map .sequence
  | .tagged _ value => uuidReferenceValue value
  | _ => none

/-! ## Property values -/

def simpleFrontmatterString : YamlValue → Option Text
  | .string value => some value
  | .number display => some display
  | .bool value => some (if value then "true".toList else "false".toList)
  | _ => none

mutual

def propertyValueFromFrontmatter : YamlValue → PropertyValue
  | .null => .null
  | .bool value => .bool value
  | .number display => .number display
  | .string value => .string value
  | .sequence values =>
      match values.mapM simpleFrontmatterString with
      | some texts => .list texts
      | none => .array (propertyValuesFromSequence values)
  | .mapping entries => .object (mapCollect (propertyValuesFromMapping entries))
  | .tagged _ value => propertyValueFromFrontmatter value

def propertyValuesFromSequence : List YamlValue → List PropertyValue
  | [] => []
  | value :: values => propertyValueFromFrontmatter value :: propertyValuesFromSequence values

def propertyValuesFromMapping : List (YamlValue × YamlValue) → List (Text × PropertyValue)
  | [] => []
  | (key, value) :: entries =>
      match simpleFrontmatterString key with
      | some key =>
          (key, propertyValueFromFrontmatter value) :: propertyValuesFromMapping entries
      | none => propertyValuesFromMapping entries

end

/-! ## The diff -/

section Yaml

variable (yaml : YamlSerde)

def frontmatterValuesSemanticallyEqual (left right : Option YamlValue) : Bool :=
  match left, right with
  | some left, some right =>
      yaml.valueEq left right ||
        (match uuidReferenceValue left, uuidReferenceValue right with
          | some left, some right => decide (left = right)
          | _, _ => false)
  | none, none => true
  | _, _ => false

/-- The updates of the keys of either side, in key order. -/
def propertyUpdates (synced edited : Frontmatter) : List (Text × PropertyValue) :=
  let title :=
    if synced.title ≠ edited.title then
      [("title".toList, (edited.title.map PropertyValue.string).getD .null)]
    else []
  let keys := (mapCollect ((synced.properties.map fun p => (p.1, ())) ++
    edited.properties.map fun p => (p.1, ()))).map Prod.fst
  let changed := keys.filterMap fun key =>
    let syncedValue := mapGet key synced.properties
    let editedValue := mapGet key edited.properties
    if frontmatterValuesSemanticallyEqual yaml syncedValue editedValue then none
    else some (key, (editedValue.map propertyValueFromFrontmatter).getD .null)
  mapCollect (title ++ changed)

def propertyDiffOperations (shadow : ShadowDocument) (edited : CanonicalDocument) :
    LocalityResult (List PushOperation) :=
  if (trim shadow.frontmatter).isEmpty then .ok []
  else
    match parseCanonicalMarkdown yaml
        (renderCanonicalMarkdown ⟨shadow.frontmatter, shadow.renderedBody⟩) with
    | .error error =>
        .error (.invalidState ("synced shadow frontmatter is no longer parseable: ".toList ++
          error.display))
    | .ok synced =>
        match parseCanonicalMarkdown yaml (renderCanonicalMarkdown edited) with
        | .error error =>
            .error (.invalidState ("edited frontmatter is no longer parseable: ".toList ++
              error.display))
        | .ok edited =>
            match propertyUpdates yaml synced.frontmatter edited.frontmatter with
            | [] => .ok []
            | updates => .ok [.updateProperties shadow.entityId updates]

/-- The frontmatter is planned as one operation at most, on the entity itself. -/
theorem propertyDiffOperations_cases {shadow : ShadowDocument} {edited : CanonicalDocument}
    {operations : List PushOperation}
    (h : propertyDiffOperations yaml shadow edited = .ok operations) :
    operations = [] ∨ ∃ updates, operations = [.updateProperties shadow.entityId updates] := by
  unfold propertyDiffOperations at h
  split at h
  · injection h with h
    exact Or.inl h.symm
  · split at h
    · cases h
    · split at h
      · cases h
      · split at h
        · injection h with h
          exact Or.inl h.symm
        · injection h with h
          exact Or.inr ⟨_, h.symm⟩

theorem propertyDiffOperations_of_empty {shadow : ShadowDocument} (edited : CanonicalDocument)
    (h : shadow.frontmatter = []) : propertyDiffOperations yaml shadow edited = .ok [] := by
  simp [propertyDiffOperations, h, trim, trimStart, trimEnd]

end Yaml

end Locality.Core
