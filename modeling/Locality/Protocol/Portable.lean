/-
  Protocol/Portable.lean --- the portable values of `locality-core/src/portable.rs` and
  `locality-core/src/workspace_layout.rs` that deliveries and layouts are made of.

  Case folding and normalization come from crates of their own, and so does SHA-256:
  they are parameters.  What a constructor checks of a value that nothing modelled here
  reads is left out.
-/
import Locality.Core.Text
import Locality.Foundation.Framing
import Locality.Foundation.OrderedTable
import Mathlib.Data.List.Lex

set_option autoImplicit false

namespace Locality.Protocol

open Locality.Core Locality.Foundation

/-! ## Bytes of texts -/

/-- `str::as_bytes`. -/
def asBytes (t : Text) : List UInt8 := t.flatMap String.utf8EncodeChar

theorem asBytes_injective {t t' : Text} (h : asBytes t = asBytes t') : t = t' := by
  have hencoded : List.utf8Encode t = List.utf8Encode t' := congrArg List.toByteArray h
  have hdecoded : some t.toArray = some t'.toArray := by
    rw [← List.utf8Decode?_utf8Encode, hencoded, List.utf8Decode?_utf8Encode]
  exact congrArg Array.toList (Option.some.inj hdecoded)

/-- The bytes of a text as they are compared, by `Ord` of `str`. -/
def byteOrder (t : Text) : List Nat := (asBytes t).map UInt8.toNat

theorem byteOrder_injective {t t' : Text} (h : byteOrder t = byteOrder t') : t = t' :=
  asBytes_injective (List.map_injective_iff.mpr (fun _ _ => UInt8.toNat_inj.mp) h)

/-- `<` of `str`. -/
def bytewiseLt (t t' : Text) : Bool := decide (byteOrder t < byteOrder t')

/-- `cmp` of `str`. -/
def textOrder (t t' : Text) : Ordering := compareOfLessAndEq (byteOrder t) (byteOrder t')

instance : Std.TransCmp textOrder := transCmp_key byteOrder

instance : Std.LawfulEqCmp textOrder := lawfulEqCmp_key fun _ _ => byteOrder_injective

theorem textOrder_eq_lt {t t' : Text} :
    textOrder t t' = .lt ↔ byteOrder t < byteOrder t' := by
  unfold textOrder compareOfLessAndEq
  split
  · rename_i hlt
    exact iff_of_true rfl hlt
  · rename_i hnot
    refine iff_of_false ?_ hnot
    split <;> exact nofun

/-! ## Digests -/

def hexDigit (n : Nat) : Char := "0123456789abcdef".toList.getD n '0'

/-- `{:02x}` of a byte. -/
def hexByte (byte : UInt8) : Text := [hexDigit (byte.toNat / 16), hexDigit (byte.toNat % 16)]

theorem hexDigit_injective {n m : Nat} (hn : n < 16) (hm : m < 16)
    (h : hexDigit n = hexDigit m) : n = m := by
  have hall : ∀ n < 16, ∀ m < 16, hexDigit n = hexDigit m → n = m := by decide
  exact hall n hn m hm h

theorem selfDelimiting_hexByte : SelfDelimiting (fun _ => True) hexByte := by
  refine .of_length 2 (fun _ _ => rfl) fun a b _ _ h => ?_
  obtain ⟨hhigh, hlow⟩ := List.cons.inj h
  have ha := a.toNat_lt
  have hb := b.toNat_lt
  have hdiv := hexDigit_injective (by omega) (by omega) hhigh
  have hmod := hexDigit_injective (Nat.mod_lt _ (by omega)) (Nat.mod_lt _ (by omega))
    (List.cons.inj hlow).1
  exact UInt8.toNat_inj.mp (by omega)

/-- `sha256_label`, and `LayoutDigest::sha256`. -/
def sha256Label (sha256 : List UInt8 → List UInt8) (preimage : List UInt8) : Text :=
  "sha256:".toList ++ (sha256 preimage).flatMap hexByte

/-- Labels of digests of one length are as different as the digests. -/
theorem sha256_of_label {sha256 : List UInt8 → List UInt8} {bytes bytes' : List UInt8}
    (h : sha256Label sha256 bytes = sha256Label sha256 bytes') : sha256 bytes = sha256 bytes' := by
  have hhex := List.append_cancel_left h
  have hlength : (sha256 bytes).length = (sha256 bytes').length := by
    have htwice : ∀ digest : List UInt8, (digest.flatMap hexByte).length = digest.length * 2 := by
      intro digest
      induction digest with
      | nil => rfl
      | cons byte digest ih =>
          rw [List.flatMap_cons, List.length_append, ih]
          simp only [hexByte, List.length_cons, List.length_nil]
          omega
    have hsame := congrArg List.length hhex
    rw [htwice, htwice] at hsame
    omega
  exact (selfDelimiting_hexByte.flatMap_of_length (s := []) (t := []) hlength
    (fun _ _ => trivial) (fun _ _ => trivial) (by rw [hhex])).1

/-- The form of a label: the name of the algorithm and sixty-four lowercase digits. -/
def isSha256Label (value : Text) : Bool :=
  decide ((asBytes value).length = 71) && startsWith value "sha256:".toList &&
    ((asBytes value).drop 7).all fun byte =>
      decide (48 ≤ byte.toNat ∧ byte.toNat ≤ 57) || decide (97 ≤ byte.toNat ∧ byte.toNat ≤ 102)

/-! ## Identifiers and paths -/

structure SourceConnectionId where
  value : Text
  deriving DecidableEq, Repr

structure ProjectionId where
  value : Text
  deriving DecidableEq, Repr

structure ContentVersionId where
  value : Text
  deriving DecidableEq, Repr

structure SourceScopeId where
  value : Text
  deriving DecidableEq, Repr

structure SourceGenerationId where
  value : Text
  deriving DecidableEq, Repr

structure PortableMountId where
  value : Text
  deriving DecidableEq, Repr

structure LayoutDigest where
  value : Text
  deriving DecidableEq, Repr

/-- The tables of Unicode 16. -/
structure UnicodeTables where
  defaultCaseFold : Text → Text
  nfc : Text → Text

/-- Tables that are right for small letters without accents. -/
def plainTables : UnicodeTables := ⟨id, id⟩

/-- `collision_key`: a full case fold, and NFC of it. -/
def collisionKey (unicode : UnicodeTables) (value : Text) : Text :=
  unicode.nfc (unicode.defaultCaseFold value)

structure MountTarget where
  value : Text
  deriving DecidableEq, Repr

def MountTarget.collisionKey (unicode : UnicodeTables) (self : MountTarget) : Text :=
  Protocol.collisionKey unicode self.value

structure LogicalPath where
  value : Text
  deriving DecidableEq, Repr

/-- `str::split` at slashes. -/
def splitSlash (value : Text) : List Text := value.splitOn '/'

def LogicalPath.portableCollisionKey (unicode : UnicodeTables) (self : LogicalPath) : Text :=
  join ['/'] ((splitSlash self.value).map (Protocol.collisionKey unicode))

/-! ## Projections and actions -/

inductive ProjectionFileKind where
  | markdown
  | text
  | json
  | yaml
  | binary
  | directory
  deriving DecidableEq, Repr

inductive SourceAction where
  | read
  | search
  | downloadAttachment
  | create
  | update
  | move
  | delete
  | comment
  | updateProperties
  | manageSchema
  deriving DecidableEq, Repr

end Locality.Protocol
