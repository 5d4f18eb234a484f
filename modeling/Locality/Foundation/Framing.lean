/-
  Foundation/Framing.lean --- encodings that show where they end.

  An encoding is self-delimiting where, in front of any tails, equal sequences mean
  equal values and equal tails.  Such encodings may be put one after the other, behind
  a tag, and behind a count, and stay self-delimiting; a self-delimiting encoding is
  injective.  An encoding of any kind becomes self-delimiting behind its length.

  The predicate says which values are encoded: a length that does not fit its field is
  no length that the encoding speaks of.
-/
import Mathlib.Algebra.GroupWithZero.Nat
import Mathlib.Data.List.Basic
import Mathlib.Tactic.Common

set_option autoImplicit false

namespace Locality.Foundation

variable {α β γ ω : Type}

/-- Values and tails can be read off what was written. -/
def SelfDelimiting (P : α → Prop) (encode : α → List ω) : Prop :=
  ∀ a b s t, P a → P b → encode a ++ s = encode b ++ t → a = b ∧ s = t

namespace SelfDelimiting

variable {P : α → Prop} {Q : β → Prop} {encode : α → List ω} {encode' : β → List ω}

theorem injective (h : SelfDelimiting P encode) {a b : α} (ha : P a) (hb : P b)
    (hsame : encode a = encode b) : a = b :=
  (h a b [] [] ha hb (by rw [hsame])).1

theorem of_length (n : Nat) (hlength : ∀ a, P a → (encode a).length = n)
    (hinjective : ∀ a b, P a → P b → encode a = encode b → a = b) :
    SelfDelimiting P encode := by
  intro a b s t ha hb h
  obtain ⟨hsame, htail⟩ := List.append_inj h ((hlength a ha).trans (hlength b hb).symm)
  exact ⟨hinjective a b ha hb hsame, htail⟩

/-- One encoding after the other. -/
theorem pair (h : SelfDelimiting P encode) (h' : SelfDelimiting Q encode') :
    SelfDelimiting (fun p : α × β => P p.1 ∧ Q p.2) fun p => encode p.1 ++ encode' p.2 := by
  rintro ⟨a, c⟩ ⟨b, d⟩ s t ⟨ha, hc⟩ ⟨hb, hd⟩ hsame
  rw [List.append_assoc, List.append_assoc] at hsame
  obtain ⟨rfl, hrest⟩ := h a b _ _ ha hb hsame
  obtain ⟨rfl, htail⟩ := h' c d s t hc hd hrest
  exact ⟨rfl, htail⟩

/-- The encoding of what determines a value. -/
theorem comap (h : SelfDelimiting P encode) {f : γ → α}
    (hf : ∀ c d, f c = f d → c = d) : SelfDelimiting (fun c => P (f c)) fun c => encode (f c) := by
  intro c d s t hc hd hsame
  obtain ⟨hvalue, htail⟩ := h (f c) (f d) s t hc hd hsame
  exact ⟨hf c d hvalue, htail⟩

/-- The encoding of a part of a value, and then one that is right for values with that part. -/
theorem dependent {f : α → β} {Q : β → Prop} {part : β → List ω} (h : SelfDelimiting Q part)
    (hrest : ∀ b, SelfDelimiting (fun a => P a ∧ f a = b) encode) :
    SelfDelimiting (fun a => Q (f a) ∧ P a) fun a => part (f a) ++ encode a := by
  intro a a' s t ha ha' hsame
  rw [List.append_assoc, List.append_assoc] at hsame
  obtain ⟨hpart, hsame⟩ := h (f a) (f a') _ _ ha.1 ha'.1 hsame
  exact hrest (f a') a a' s t ⟨ha.2, hpart⟩ ⟨ha'.2, rfl⟩ hsame

/-- A value or none, behind one of two tags that are no beginning of each other. -/
theorem option {absent present : List ω}
    (htags : ∀ s t : List ω, absent ++ s ≠ present ++ t) (h : SelfDelimiting P encode) :
    SelfDelimiting (fun found : Option α => ∀ a, found = some a → P a) fun found =>
      found.elim absent fun a => present ++ encode a := by
  intro found found' s t hfound hfound' hsame
  cases found with
  | none =>
      cases found' with
      | none => exact ⟨rfl, List.append_cancel_left hsame⟩
      | some b =>
          simp only [Option.elim, List.append_assoc] at hsame
          exact absurd hsame (htags _ _)
  | some a =>
      cases found' with
      | none =>
          simp only [Option.elim, List.append_assoc] at hsame
          exact absurd hsame.symm (htags _ _)
      | some b =>
          simp only [Option.elim, List.append_assoc] at hsame
          obtain ⟨rfl, htail⟩ :=
            h a b s t (hfound a rfl) (hfound' b rfl) (List.append_cancel_left hsame)
          exact ⟨rfl, htail⟩

/-- Values one after the other, where it is known how many there are. -/
theorem flatMap_of_length (h : SelfDelimiting P encode) {as bs : List α} {s t : List ω}
    (hlength : as.length = bs.length) (has : ∀ a ∈ as, P a) (hbs : ∀ b ∈ bs, P b)
    (hsame : as.flatMap encode ++ s = bs.flatMap encode ++ t) : as = bs ∧ s = t := by
  induction as generalizing bs with
  | nil =>
      have hnil : bs = [] := List.length_eq_zero_iff.mp hlength.symm
      subst hnil
      exact ⟨rfl, hsame⟩
  | cons a as ih =>
      obtain ⟨b, bs, rfl⟩ : ∃ b bs', bs = b :: bs' :=
        List.exists_cons_of_length_pos (hlength ▸ Nat.succ_pos _)
      simp only [List.flatMap_cons, List.append_assoc] at hsame
      obtain ⟨rfl, hrest⟩ :=
        h a b _ _ (has a List.mem_cons_self) (hbs b List.mem_cons_self) hsame
      obtain ⟨rfl, htail⟩ := ih (Nat.succ.inj hlength)
        (fun a ha => has a (List.mem_cons_of_mem _ ha))
        (fun b hb => hbs b (List.mem_cons_of_mem _ hb)) hrest
      exact ⟨rfl, htail⟩

/-- Values one after the other and nothing behind them, where each writes something. -/
theorem flatMap_injective (h : SelfDelimiting P encode) (hsome : ∀ a, P a → encode a ≠ [])
    {as bs : List α} (has : ∀ a ∈ as, P a) (hbs : ∀ b ∈ bs, P b)
    (hsame : as.flatMap encode = bs.flatMap encode) : as = bs := by
  induction as generalizing bs with
  | nil =>
      cases bs with
      | nil => rfl
      | cons b bs =>
          have hempty := (List.append_eq_nil_iff.mp hsame.symm).1
          exact absurd hempty (hsome b (hbs b List.mem_cons_self))
  | cons a as ih =>
      cases bs with
      | nil =>
          have hempty := (List.append_eq_nil_iff.mp hsame).1
          exact absurd hempty (hsome a (has a List.mem_cons_self))
      | cons b bs =>
          rw [List.flatMap_cons, List.flatMap_cons] at hsame
          obtain ⟨rfl, hrest⟩ :=
            h a b _ _ (has a List.mem_cons_self) (hbs b List.mem_cons_self) hsame
          rw [ih (fun a ha => has a (List.mem_cons_of_mem _ ha))
            (fun b hb => hbs b (List.mem_cons_of_mem _ hb)) hrest]

variable {R : Nat → Prop} {count : Nat → List ω}

/-- A list behind its length. -/
theorem counted (hcount : SelfDelimiting R count) (h : SelfDelimiting P encode) :
    SelfDelimiting (fun as : List α => R as.length ∧ ∀ a ∈ as, P a) fun as =>
      count as.length ++ as.flatMap encode := by
  intro as bs s t has hbs hsame
  simp only [List.append_assoc] at hsame
  obtain ⟨hlength, hrest⟩ := hcount as.length bs.length _ _ has.1 hbs.1 hsame
  exact h.flatMap_of_length hlength has.2 hbs.2 hrest

/-- A sequence behind its length. -/
theorem framed (hcount : SelfDelimiting R count) :
    SelfDelimiting (fun bytes : List ω => R bytes.length) fun bytes =>
      count bytes.length ++ bytes := by
  intro as bs s t has hbs hsame
  simp only [List.append_assoc] at hsame
  obtain ⟨hlength, hrest⟩ := hcount as.length bs.length _ _ has hbs hsame
  exact List.append_inj hrest hlength

end SelfDelimiting

/-! ## Numbers in a field of bytes -/

/-- `to_be_bytes` of a number in a field of so many bytes. -/
def toBeBytes : Nat → Nat → List UInt8
  | 0, _ => []
  | width + 1, n => toBeBytes width (n / 256) ++ [UInt8.ofNat n]

theorem length_toBeBytes (width n : Nat) : (toBeBytes width n).length = width := by
  induction width generalizing n with
  | zero => rfl
  | succ width ih => rw [toBeBytes, List.length_append, ih, List.length_singleton]

theorem toBeBytes_injective {width n m : Nat} (hn : n < 256 ^ width) (hm : m < 256 ^ width)
    (h : toBeBytes width n = toBeBytes width m) : n = m := by
  induction width generalizing n m with
  | zero => omega
  | succ width ih =>
      rw [Nat.pow_succ] at hn hm
      obtain ⟨hhigh, hlow⟩ := List.append_inj' h rfl
      have hdiv : n / 256 = m / 256 :=
        ih (Nat.div_lt_of_lt_mul (by omega)) (Nat.div_lt_of_lt_mul (by omega)) hhigh
      have hmod : n % 256 = m % 256 := by
        have hbyte := congrArg UInt8.toNat (List.cons.inj hlow).1
        simpa only [UInt8.toNat_ofNat', Nat.reducePow] using hbyte
      omega

/-- A number in a field that it fits in. -/
theorem selfDelimiting_toBeBytes (width : Nat) :
    SelfDelimiting (fun n => n < 256 ^ width) (toBeBytes width) :=
  .of_length width (fun n _ => length_toBeBytes width n) fun _ _ hn hm h =>
    toBeBytes_injective hn hm h

end Locality.Foundation
