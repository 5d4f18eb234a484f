/-
  Core/Canonical.lean --- the frontmatter envelope and the directive lines of
  `locality-core/src/canonical.rs`.

  The YAML reader is a crate outside the repository, so it is a parameter
  (`YamlSerde`): a function from the frontmatter text to the raw fields, and the
  equality of two YAML values.  Everything around it, the splitting of the
  envelope, the empty frontmatter that is never handed to the reader, the
  normalization of the identity fields and the directive syntax, is modelled.

  `parse_directive_attributes` walks over characters and collects key/value pairs;
  each of its inner loops is a span of characters here.
-/
import Locality.Core.Model

set_option autoImplicit false

namespace Locality.Core

open Locality.Foundation

/-! ## Ordered maps -/

/-- `str` order: character by character. -/
def textLt : Text → Text → Bool
  | [], [] => false
  | [], _ :: _ => true
  | _ :: _, [] => false
  | a :: as, b :: bs => if a = b then textLt as bs else decide (a < b)

/-- `BTreeMap::insert` on a list of pairs in key order. -/
def mapInsert {β : Type} (key : Text) (value : β) : List (Text × β) → List (Text × β)
  | [] => [(key, value)]
  | (k, v) :: rest =>
      if key = k then (key, value) :: rest
      else if textLt key k then (key, value) :: (k, v) :: rest
      else (k, v) :: mapInsert key value rest

/-- `BTreeMap::get`. -/
def mapGet {β : Type} (key : Text) (map : List (Text × β)) : Option β :=
  (map.find? fun p => decide (p.1 = key)).map Prod.snd

/-- Collecting pairs into a `BTreeMap`: of two values for one key the later stays. -/
def mapCollect {β : Type} (pairs : List (Text × β)) : List (Text × β) :=
  pairs.foldl (fun map p => mapInsert p.1 p.2 map) []

/-! ## YAML -/

/-- A `yaml_serde::Value`; a number is kept as it is displayed. -/
inductive YamlValue where
  | null
  | bool (value : Bool)
  | number (display : Text)
  | string (value : Text)
  | sequence (values : List YamlValue)
  | mapping (entries : List (YamlValue × YamlValue))
  | tagged (tag : Text) (value : YamlValue)

abbrev FrontmatterProperties : Type := List (Text × YamlValue)

structure RawLocalityMetadata where
  id : Option Text
  entityType : Option Text
  parent : Option Text
  private_ : Option Bool
  syncedAt : Option Text
  remoteEditedAt : Option Text

/-- The fields that `yaml_serde` reads out of a frontmatter. -/
structure RawFrontmatter where
  loc : Option RawLocalityMetadata
  title : Option Text
  properties : FrontmatterProperties

/-- An error of the YAML reader: its line, and its text. -/
structure YamlError where
  line : Option Nat
  message : Text

/-- The YAML crate: `from_str::<RawFrontmatter>` and the equality of two values. -/
structure YamlSerde where
  fromStr : Text → Except YamlError RawFrontmatter
  valueEq : YamlValue → YamlValue → Bool

/-! ## Frontmatter -/

structure LocalityMetadata where
  id : Option RemoteId
  entityType : Option EntityKind
  rawEntityType : Option Text
  parent : Option RemoteId
  private_ : Bool
  syncedAt : Option Text
  remoteEditedAt : Option Text
  deriving DecidableEq

structure Frontmatter where
  loc : Option LocalityMetadata
  title : Option Text
  properties : FrontmatterProperties

def parseEntityKind (raw : Text) : EntityKind :=
  if raw = "page".toList then .page
  else if raw = "database".toList then .database
  else if raw = "directory".toList then .directory
  else if raw = "asset".toList then .asset
  else .unknown raw

/-- `filter(|value| !value.is_empty())`. -/
def nonEmpty (value : Option Text) : Option Text :=
  value.filter fun t => !t.isEmpty

def RawLocalityMetadata.intoMetadata (self : RawLocalityMetadata) : LocalityMetadata where
  id := (nonEmpty self.id).map RemoteId.mk
  entityType := (nonEmpty self.entityType).map parseEntityKind
  rawEntityType := self.entityType
  parent := (nonEmpty self.parent).map RemoteId.mk
  private_ := self.private_.getD false
  syncedAt := nonEmpty self.syncedAt
  remoteEditedAt := nonEmpty self.remoteEditedAt

def RawFrontmatter.intoFrontmatter (self : RawFrontmatter) : Frontmatter where
  loc := self.loc.map RawLocalityMetadata.intoMetadata
  title := self.title
  properties := self.properties

/-- `RawFrontmatter::default()`. -/
def RawFrontmatter.empty : RawFrontmatter := ⟨none, none, []⟩

/-! ## Directive lines -/

structure Directive where
  remoteId : Option RemoteId
  directiveType : Option Text
  title : Option Text
  attributes : List (Text × Text)
  raw : Text
  line : Nat
  malformed : Bool
  deriving DecidableEq, Repr

/-- The value of a quoted attribute and what follows it. -/
def parseQuotedDirectiveValue : Text → Text × Text
  | [] => ([], [])
  | '"' :: rest => ([], rest)
  | '\\' :: [] => (['\\'], [])
  | '\\' :: c :: rest =>
      let (value, after) := parseQuotedDirectiveValue rest
      if c = '"' || c = '\\' then (c :: value, after) else ('\\' :: c :: value, after)
  | c :: rest =>
      let (value, after) := parseQuotedDirectiveValue rest
      (c :: value, after)

/-- The loop of `parse_directive_attributes`; every round takes a character, so
the length of the input bounds the rounds. -/
def parseDirectiveAttributesFrom :
    Nat → List (Text × Text) → Text → List (Text × Text)
  | 0, attributes, _ => attributes
  | fuel + 1, attributes, input =>
      match input with
      | [] => attributes
      | c :: rest =>
          if isWhitespace c then parseDirectiveAttributesFrom fuel attributes rest
          else
            let (key, afterKey) := input.span fun c => !(c == '=' || isWhitespace c)
            let beforeEquals := trimStart afterKey
            match beforeEquals with
            | '=' :: afterEquals =>
                let (value, afterValue) :=
                  match trimStart afterEquals with
                  | '"' :: quoted => parseQuotedDirectiveValue quoted
                  | plain => plain.span fun c => !isWhitespace c
                let attributes :=
                  if key.isEmpty then attributes else mapInsert key value attributes
                parseDirectiveAttributesFrom fuel attributes afterValue
            | other =>
                -- a key without a value is skipped up to the next white space
                parseDirectiveAttributesFrom fuel attributes
                  (other.dropWhile fun c => !isWhitespace c)

def parseDirectiveAttributes (input : Text) : List (Text × Text) :=
  parseDirectiveAttributesFrom (input.length + 1) [] input

def compatDirectivePrefixes : List Text := ["::loc".toList, "::afs".toList]

def directivePrefix (line : Text) : Option Text :=
  compatDirectivePrefixes.find? fun opening => startsWith line opening

def parseDirectiveLine (line : Text) (lineNumber : Nat) : Option Directive :=
  let trimmed := trim line
  match directivePrefix trimmed with
  | none => none
  | some opening =>
      let bracePrefix := opening ++ ['{']
      let malformed := !startsWith trimmed bracePrefix || !endsWith trimmed ['}']
      let attributes :=
        if malformed then []
        else parseDirectiveAttributes (trimmed.drop bracePrefix.length).dropLast
      some {
        remoteId := (nonEmpty (mapGet "id".toList attributes)).map RemoteId.mk
        directiveType := nonEmpty (mapGet "type".toList attributes)
        title := nonEmpty (mapGet "title".toList attributes)
        attributes := attributes
        raw := line
        line := lineNumber
        malformed := malformed }

def extractDirectives (body : Text) (bodyStartLine : Nat) : List Directive :=
  (lines body).zipIdx.filterMap fun p => parseDirectiveLine p.1 (bodyStartLine + p.2)

/-! ## The envelope -/

inductive CanonicalParseErrorKind where
  | missingFrontmatter
  | unterminatedFrontmatter
  | invalidFrontmatterYaml
  deriving DecidableEq, Repr

structure CanonicalParseError where
  kind : CanonicalParseErrorKind
  line : Option Nat
  message : Text
  deriving DecidableEq, Repr

/-- The `Display` text of a parse error. -/
def CanonicalParseError.display (self : CanonicalParseError) : Text :=
  match self.line with
  | some line => self.message ++ " at line ".toList ++ (toString line).toList
  | none => self.message

structure FrontmatterSplit where
  frontmatter : Text
  body : Text
  bodyStartLine : Nat
  deriving DecidableEq, Repr

def trimLineEnding (line : Text) : Text :=
  line.rdropWhile fun c => c == '\r' || c == '\n'

/-- The search for the closing delimiter, from the given line number on. -/
def splitFrontmatterFrom (frontmatter : Text) :
    Nat → List Text → Except CanonicalParseError FrontmatterSplit
  | _, [] =>
      .error ⟨.unterminatedFrontmatter, some 1,
        "YAML frontmatter is missing a closing delimiter".toList⟩
  | lineNumber, line :: rest =>
      if trimLineEnding line = "---".toList then
        .ok ⟨frontmatter, rest.flatten, lineNumber + 1⟩
      else splitFrontmatterFrom (frontmatter ++ line) (lineNumber + 1) rest

def splitFrontmatter (input : Text) : Except CanonicalParseError FrontmatterSplit :=
  match splitLines input with
  | [] =>
      .error ⟨.missingFrontmatter, some 1,
        "canonical document must start with YAML frontmatter".toList⟩
  | firstLine :: rest =>
      if trimLineEnding firstLine ≠ "---".toList then
        .error ⟨.missingFrontmatter, some 1,
          "canonical document must start with YAML frontmatter".toList⟩
      else splitFrontmatterFrom [] 2 rest

def renderCanonicalMarkdown (document : CanonicalDocument) : Text :=
  "---\n".toList ++ document.frontmatter ++
    (if !document.frontmatter.isEmpty && !endsWith document.frontmatter ['\n'] then ['\n']
      else []) ++
    "---\n".toList ++ document.body

def isStubBody (body : Text) : Bool := decide (trim body = CanonicalDocument.stubMarker)

structure ParsedCanonicalDocument where
  document : CanonicalDocument
  frontmatter : Frontmatter
  directives : List Directive
  bodyStartLine : Nat

def ParsedCanonicalDocument.isStub (self : ParsedCanonicalDocument) : Bool :=
  self.document.isStub

section Parse

variable (yaml : YamlSerde)

def parseFrontmatter (frontmatter : Text) : Except CanonicalParseError Frontmatter :=
  if (trim frontmatter).isEmpty then .ok RawFrontmatter.empty.intoFrontmatter
  else
    match yaml.fromStr frontmatter with
    | .ok raw => .ok raw.intoFrontmatter
    | .error error =>
        .error ⟨.invalidFrontmatterYaml, error.line.map (· + 1),
          "invalid YAML frontmatter: ".toList ++ error.message⟩

def parseCanonicalMarkdown (input : Text) :
    Except CanonicalParseError ParsedCanonicalDocument := do
  let split ← splitFrontmatter input
  let frontmatter ← parseFrontmatter yaml split.frontmatter
  return {
    document := ⟨split.frontmatter, split.body⟩
    frontmatter := frontmatter
    directives := extractDirectives split.body split.bodyStartLine
    bodyStartLine := split.bodyStartLine }

end Parse

/-! ## Reading back what was written -/

/-- The envelope around a frontmatter; the body follows it. -/
def envelope (frontmatter : Text) : Text :=
  "---\n".toList ++ frontmatter ++
    (if !frontmatter.isEmpty && !endsWith frontmatter ['\n'] then ['\n'] else []) ++
    "---\n".toList

theorem renderCanonicalMarkdown_eq (frontmatter body : Text) :
    renderCanonicalMarkdown ⟨frontmatter, body⟩ = envelope frontmatter ++ body := rfl

theorem allTerminated_envelope (frontmatter : Text) :
    AllTerminated '\n' (splitLines (envelope frontmatter)) := by
  have hend : ∃ front, envelope frontmatter = front ++ ['\n'] := by
    refine ⟨"---\n".toList ++ frontmatter ++
      (if !frontmatter.isEmpty && !endsWith frontmatter ['\n'] then ['\n'] else []) ++
      "---".toList, ?_⟩
    rw [envelope, List.append_assoc _ "---".toList]
    rfl
  obtain ⟨front, heq⟩ := hend
  rw [heq]
  exact allTerminated_splitInclusive '\n' front

/-- The lines of a frontmatter: whole lines none of which closes it. -/
def FrontmatterLines (ls : List Text) : Prop :=
  AllTerminated '\n' ls ∧ ∀ line ∈ ls, trimLineEnding line ≠ "---".toList

theorem splitFrontmatterFrom_eq_ok {frontmatter : Text} {lineNumber : Nat} {ls : List Text}
    {split : FrontmatterSplit} (h : splitFrontmatterFrom frontmatter lineNumber ls = .ok split) :
    ∃ front close rest, ls = front ++ close :: rest ∧ trimLineEnding close = "---".toList ∧
      (∀ line ∈ front, trimLineEnding line ≠ "---".toList) ∧
      split = ⟨frontmatter ++ front.flatten, rest.flatten, lineNumber + front.length + 1⟩ := by
  induction ls generalizing frontmatter lineNumber with
  | nil => exact nomatch h
  | cons line ls ih =>
      rw [splitFrontmatterFrom] at h
      by_cases hline : trimLineEnding line = "---".toList
      · rw [if_pos hline] at h
        cases h
        exact ⟨[], line, ls, rfl, hline, by simp, by simp⟩
      · rw [if_neg hline] at h
        obtain ⟨front, close, rest, rfl, hclose, hfront, rfl⟩ := ih h
        refine ⟨line :: front, close, rest, rfl, hclose, ?_, ?_⟩
        · intro other hother
          obtain rfl | hother := List.mem_cons.mp hother
          · exact hline
          · exact hfront other hother
        · simp only [List.flatten_cons, List.length_cons, List.append_assoc]
          congr 1
          omega

theorem splitFrontmatterFrom_close (frontmatter : Text) (lineNumber : Nat) {front : List Text}
    (hfront : ∀ line ∈ front, trimLineEnding line ≠ "---".toList) {close : Text}
    (hclose : trimLineEnding close = "---".toList) (rest : List Text) :
    splitFrontmatterFrom frontmatter lineNumber (front ++ close :: rest) =
      .ok ⟨frontmatter ++ front.flatten, rest.flatten, lineNumber + front.length + 1⟩ := by
  induction front generalizing frontmatter lineNumber with
  | nil => simp [splitFrontmatterFrom, hclose]
  | cons line front ih =>
      rw [List.cons_append, splitFrontmatterFrom, if_neg (hfront line (by simp)),
        ih _ _ fun other hother => hfront other (by simp [hother])]
      simp only [List.flatten_cons, List.length_cons, List.append_assoc]
      congr 2
      omega

/-- The frontmatter of a file that can be split is made of frontmatter lines. -/
theorem splitFrontmatter_eq_ok {input : Text} {split : FrontmatterSplit}
    (h : splitFrontmatter input = .ok split) :
    ∃ front, FrontmatterLines front ∧ split.frontmatter = front.flatten ∧
      split.bodyStartLine = front.length + 3 := by
  unfold splitFrontmatter at h
  split at h
  · exact nomatch h
  · rename_i firstLine rest hlines
    split at h
    · exact nomatch h
    · obtain ⟨front, close, body, hrest, hclose, hfront, rfl⟩ := splitFrontmatterFrom_eq_ok h
      have hlined := wellLined_splitLines input
      rw [hlines, hrest] at hlined
      refine ⟨front, ⟨?_, hfront⟩, rfl, ?_⟩
      · exact hlined.tail.allTerminated_of_append (by simp)
      · show 2 + front.length + 1 = front.length + 3
        omega

theorem envelope_flatten {front : List Text} (h : FrontmatterLines front) :
    envelope front.flatten = ("---\n".toList :: (front ++ ["---\n".toList])).flatten := by
  have hend : (!front.flatten.isEmpty && !endsWith front.flatten ['\n']) = false := by
    cases hcase : front.getLast? with
    | none =>
        rw [List.getLast?_eq_none_iff] at hcase
        simp [hcase]
    | some last =>
        obtain ⟨before, rfl⟩ := List.getLast?_eq_some_iff.mp hcase
        obtain ⟨word, -, rfl⟩ := h.1 last (by simp)
        have hsuffix : endsWith (before ++ [word ++ ['\n']]).flatten ['\n'] = true := by
          rw [endsWith, List.isSuffixOf_iff_suffix]
          exact ⟨before.flatten ++ word, by simp⟩
        rw [hsuffix]
        simp
  rw [envelope, hend]
  simp

/-- Under a frontmatter that was read, any body is read back. -/
theorem splitFrontmatter_envelope {front : List Text} (h : FrontmatterLines front)
    (body : Text) :
    splitFrontmatter (envelope front.flatten ++ body) =
      .ok ⟨front.flatten, body, front.length + 3⟩ := by
  have hlined : WellLined '\n'
      (("---\n".toList :: (front ++ ["---\n".toList])) ++ splitLines body) := by
    refine AllTerminated.wellLined_append ?_ (wellLined_splitLines body)
    have hdelimiter : Terminated '\n' "---\n".toList := ⟨"---".toList, by decide, rfl⟩
    intro line hline
    simp only [List.mem_cons, List.mem_append, List.not_mem_nil, or_false] at hline
    obtain rfl | hline | rfl := hline
    · exact hdelimiter
    · exact h.1 line hline
    · exact hdelimiter
  have hlines : splitLines (envelope front.flatten ++ body) =
      "---\n".toList :: (front ++ "---\n".toList :: splitLines body) := by
    have hjoin := splitLines_flatten hlined
    rw [List.flatten_append, flatten_splitLines, ← envelope_flatten h] at hjoin
    rw [hjoin]
    simp
  have hdelimiter : trimLineEnding "---\n".toList = "---".toList := by decide
  unfold splitFrontmatter
  rw [hlines]
  simp only [hdelimiter, ne_eq, not_true_eq_false, if_false]
  rw [splitFrontmatterFrom_close [] 2 h.2 hdelimiter, flatten_splitLines, List.nil_append]
  congr 2
  omega

/-- A body written under the frontmatter of a file that was read is read back with
that frontmatter. -/
theorem parseCanonicalMarkdown_render {yaml : YamlSerde} {contents : Text}
    {parsed : ParsedCanonicalDocument} (h : parseCanonicalMarkdown yaml contents = .ok parsed)
    (body : Text) :
    parseCanonicalMarkdown yaml (renderCanonicalMarkdown ⟨parsed.document.frontmatter, body⟩) =
      .ok { parsed with
        document := ⟨parsed.document.frontmatter, body⟩
        directives := extractDirectives body parsed.bodyStartLine } := by
  unfold parseCanonicalMarkdown at h ⊢
  cases hsplit : splitFrontmatter contents with
  | error error => rw [hsplit] at h; exact nomatch h
  | ok split =>
      rw [hsplit] at h
      cases hfront : parseFrontmatter yaml split.frontmatter with
      | error error =>
          simp only [bind, Except.bind, hfront] at h
          exact nomatch h
      | ok frontmatter =>
          simp only [bind, Except.bind, hfront, pure, Except.pure, Except.ok.injEq] at h
          subst h
          obtain ⟨front, hlines, hfrontmatter, hstart⟩ := splitFrontmatter_eq_ok hsplit
          rw [hfrontmatter] at hfront
          rw [renderCanonicalMarkdown_eq, hfrontmatter, splitFrontmatter_envelope hlines]
          simp only [bind, Except.bind, hfront, pure, Except.pure, hstart]

end Locality.Core
