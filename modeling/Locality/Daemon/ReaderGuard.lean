/-
  Daemon/ReaderGuard.lean --- what comes through a bounded tar reader: a prefix of the
  stream below it, however that stream is split and read.

  The stream alone says what is passed and what stops it.  A reader has a future: what it
  holds back, the body it is in, and what is passed of the rest.  A read takes the front of
  its future.
-/
import Locality.Daemon.BoundedReader

set_option autoImplicit false

namespace Locality.Daemon.BoundedTar

open Locality.Core Locality.Foundation BoundedTarReader

/-! ## The headers of a stream -/

/-- The number that octal digits make. -/
def octalValue (digits : List UInt8) : Nat :=
  digits.foldl (fun value byte => value * 8 + (byte.toNat - 48)) 0

def declaredSize (header : List UInt8) : Nat := octalValue (sizeDigits (sizeField header))

/-- The blocks of a body, in bytes. -/
def bodyBytes (header : List UInt8) : Nat :=
  (declaredSize header + (tarBlockBytes - 1)) / tarBlockBytes * tarBlockBytes

/-- The header blocks of a stream: each is behind the body of the one before. -/
def headersOf (stream : List UInt8) : List (List UInt8) :=
  if _h : stream.length < tarBlockBytes then []
  else stream.take tarBlockBytes ::
    headersOf (stream.drop (tarBlockBytes + bodyBytes (stream.take tarBlockBytes)))
  termination_by stream.length
  decreasing_by
    have hblock : 0 < tarBlockBytes := by decide
    rw [List.length_drop]
    omega

/-- What no header, and no chain of headers, of a guarded stream is. -/
structure WellGuarded (headers : List (List UInt8)) : Prop where
  types : ∀ header ∈ headers, typeFlag header ≠ globalType ∧ typeFlag header ≠ longNameType ∧
    typeFlag header ≠ longLinkType
  sizes : ∀ header ∈ headers, typeFlag header = paxType → declaredSize header ≤ 16 * 1024
  chains : ∀ chain, chain <:+: headers → (∀ header ∈ chain, typeFlag header = paxType) →
    chain.length ≤ 4 ∧ (chain.map declaredSize).sum ≤ 32 * 1024
  members : ∀ header next, [header, next] <:+: headers → typeFlag header = paxType →
    isZeroBlock next = false

/-! ## Headers that are accepted -/

theorem foldlM_pushOctal {digits : List UInt8} {value size : UInt64}
    (h : digits.foldlM pushOctal value = .ok size) :
    size.toNat = digits.foldl (fun value byte => value * 8 + (byte.toNat - 48)) value.toNat := by
  induction digits generalizing value with
  | nil => cases h; rfl
  | cons byte digits ih =>
      obtain ⟨next, hnext, h⟩ := bind_eq_ok.mp h
      rw [pushOctal] at hnext
      by_cases hfits : value.toNat * 8 + (byte.toNat - 48) < 2 ^ 64
      · rw [if_pos hfits] at hnext
        cases hnext
        rw [ih h, UInt64.toNat_ofNat', Nat.mod_eq_of_lt hfits, List.foldl_cons]
      · rw [if_neg hfits] at hnext
        exact nomatch hnext

theorem parseRawTarSize_toNat {field : List UInt8} {size : UInt64}
    (h : parseRawTarSize field = .ok size) : size.toNat = octalValue (sizeDigits field) := by
  obtain ⟨-, h⟩ := rejectIf_bind_eq_ok.mp h
  obtain ⟨-, h⟩ := rejectIf_bind_eq_ok.mp h
  exact foldlM_pushOctal h

theorem sizeDigits_of_zeros {field : List UInt8} (h : ∀ byte ∈ field, byte = 0) :
    sizeDigits field = [] := by
  have hnone : rposition (fun byte => !isPadding byte) field = none := by
    rw [rposition, Option.map_eq_none_iff, List.findIdx?_eq_none_iff]
    intro byte hbyte
    rw [h byte (List.mem_reverse.mp hbyte)]
    rfl
  rw [sizeDigits, hnone]
  exact List.drop_eq_nil_of_le (List.length_take_le _ _)

theorem eq_zero_of_isZeroBlock {header : List UInt8} (h : isZeroBlock header = true)
    {byte : UInt8} (hbyte : byte ∈ header) : byte = 0 :=
  of_decide_eq_true (List.all_eq_true.mp h byte hbyte)

theorem bodyBytes_of_isZeroBlock {header : List UInt8} (h : isZeroBlock header = true) :
    bodyBytes header = 0 := by
  have hdigits : sizeDigits (sizeField header) = [] := sizeDigits_of_zeros fun byte hbyte =>
    eq_zero_of_isZeroBlock h (List.mem_of_mem_drop (List.mem_of_mem_take hbyte))
  rw [bodyBytes, declaredSize, hdigits]
  rfl

theorem typeFlag_of_isZeroBlock {header : List UInt8} (h : isZeroBlock header = true) :
    typeFlag header = 0 := by
  rw [typeFlag, List.getD_eq_getElem?_getD]
  cases hbyte : header[156]? with
  | none => rfl
  | some byte => exact eq_zero_of_isZeroBlock h (List.mem_of_getElem? hbyte)

/-- Where a sum is bounded, it did not saturate. -/
theorem saturatingAdd_of_le {a b : UInt64} {limit : Nat} (hlimit : limit < 2 ^ 64 - 1)
    (h : (saturatingAdd a b).toNat ≤ limit) :
    (saturatingAdd a b).toNat = a.toNat + b.toNat := by
  rw [saturatingAdd_toNat] at h ⊢
  omega

/-- What an accepted header is, and what it makes of the chain before it. -/
inductive Accepted (count bytes : Nat) (header : List UInt8) : Nat → Nat → Prop where
  | zero (hzero : isZeroBlock header = true) (hcount : count = 0) :
      Accepted count bytes header 0 0
  | extension (hzero : isZeroBlock header = false) (htype : typeFlag header = paxType)
      (hsize : declaredSize header ≤ 16 * 1024) (hcount : count + 1 ≤ 4)
      (hbytes : bytes + declaredSize header ≤ 32 * 1024) :
      Accepted count bytes header (count + 1) (bytes + declaredSize header)
  | member (hzero : isZeroBlock header = false) (htype : typeFlag header ≠ paxType)
      (hglobal : typeFlag header ≠ globalType) (hname : typeFlag header ≠ longNameType)
      (hlink : typeFlag header ≠ longLinkType) : Accepted count bytes header 0 0

theorem accepted_of_checkHeader {extensionCount extensionBytes : UInt64} {header : List UInt8}
    {checked : HeaderCheck} (h : checkHeader extensionCount extensionBytes header = .ok checked) :
    checked.bodyRemaining.toNat = bodyBytes header ∧
      Accepted extensionCount.toNat extensionBytes.toNat header checked.extensionCount.toNat
        checked.extensionBytes.toNat := by
  rw [checkHeader] at h
  by_cases hzero : isZeroBlock header = true
  · rw [if_pos hzero] at h
    obtain ⟨hcount, h⟩ := rejectIf_bind_eq_ok.mp h
    cases h
    rw [bodyBytes_of_isZeroBlock hzero, not_not.mp hcount]
    exact ⟨rfl, .zero hzero rfl⟩
  rw [if_neg hzero] at h
  have hzero := Bool.not_eq_true _ ▸ hzero
  obtain ⟨size, hsize, h⟩ := bind_eq_ok.mp h
  obtain ⟨hfits, h⟩ := rejectIf_bind_eq_ok.mp h
  have hsize : size.toNat = declaredSize header := parseRawTarSize_toNat hsize
  have hbody : (UInt64.ofNat ((size.toNat + (tarBlockBytes - 1)) / tarBlockBytes *
      tarBlockBytes)).toNat = bodyBytes header := by
    rw [UInt64.toNat_ofNat', hsize, bodyBytes, Nat.mod_eq_of_lt]
    rw [hsize] at hfits
    exact lt_of_le_of_lt (Nat.div_mul_le_self _ _) (Nat.not_le.mp hfits)
  dsimp only at h
  by_cases htype : typeFlag header = paxType
  · rw [if_pos htype] at h
    obtain ⟨htooLong, h⟩ := rejectIf_bind_eq_ok.mp h
    obtain ⟨hchain, h⟩ := rejectIf_bind_eq_ok.mp h
    cases h
    obtain ⟨hcount, hbytes⟩ := not_or.mp hchain
    have hcount := Nat.not_lt.mp hcount
    have hbytes := Nat.not_lt.mp hbytes
    have hcountEq := saturatingAdd_of_le (show maxTarExtensionChain < 2 ^ 64 - 1 by decide) hcount
    have hbytesEq :=
      saturatingAdd_of_le (show maxTarExtensionChainBytes < 2 ^ 64 - 1 by decide) hbytes
    have hone : (1 : UInt64).toNat = 1 := UInt64.toNat_one
    rw [hone] at hcountEq
    rw [hcountEq] at hcount
    rw [hbytesEq, hsize] at hbytes
    refine ⟨hbody, ?_⟩
    dsimp only
    rw [hcountEq, hbytesEq, hsize]
    have htotal : maxTarExtensionChainBytes = 32 * 1024 := by decide
    have hlong : maxTarExtensionBytes = 16 * 1024 := by decide
    rw [htotal] at hbytes
    rw [hsize, hlong] at htooLong
    exact .extension hzero htype (Nat.not_lt.mp htooLong) hcount hbytes
  rw [if_neg htype] at h
  by_cases hglobal : typeFlag header = globalType
  · rw [if_pos hglobal] at h
    exact nomatch h
  rw [if_neg hglobal] at h
  by_cases hgnu : typeFlag header = longNameType ∨ typeFlag header = longLinkType
  · rw [if_pos hgnu] at h
    exact nomatch h
  rw [if_neg hgnu] at h
  cases h
  obtain ⟨hname, hlink⟩ := not_or.mp hgnu
  exact ⟨hbody, .member hzero htype hglobal hname hlink⟩

/-! ## What a stream passes -/

/-- What is passed of a stream behind a chain, and what stops it. -/
structure Passage where
  bytes : List UInt8
  error : Option TarReadError

def Passage.behind (passage : Passage) (front : List UInt8) : Passage :=
  ⟨front ++ passage.bytes, passage.error⟩

def passageFrom (extensionCount extensionBytes : UInt64) (stream : List UInt8) : Passage :=
  if stream = [] then ⟨[], none⟩
  else if _h : stream.length < tarBlockBytes then ⟨[], some .truncatedHeader⟩
  else
    match checkHeader extensionCount extensionBytes (stream.take tarBlockBytes) with
    | .error error => ⟨[], some error⟩
    | .ok checked =>
        (passageFrom checked.extensionCount checked.extensionBytes
          (stream.drop (tarBlockBytes + checked.bodyRemaining.toNat))).behind
          (stream.take (tarBlockBytes + checked.bodyRemaining.toNat))
  termination_by stream.length
  decreasing_by
    have hblock : 0 < tarBlockBytes := by decide
    rw [List.length_drop]
    omega

/-- What is passed of a stream. -/
def passage (stream : List UInt8) : Passage := passageFrom 0 0 stream

theorem passageFrom_nil (extensionCount extensionBytes : UInt64) :
    passageFrom extensionCount extensionBytes [] = ⟨[], none⟩ := by
  rw [passageFrom, if_pos rfl]

theorem passageFrom_of_error {extensionCount extensionBytes : UInt64} {stream : List UInt8}
    {error : TarReadError} (hlong : tarBlockBytes ≤ stream.length)
    (h : checkHeader extensionCount extensionBytes (stream.take tarBlockBytes) = .error error) :
    passageFrom extensionCount extensionBytes stream = ⟨[], some error⟩ := by
  have hne : stream ≠ [] := by
    rintro rfl
    exact absurd hlong (by decide)
  rw [passageFrom, if_neg hne, dif_neg (Nat.not_lt.mpr hlong), h]

theorem passageFrom_of_ok {extensionCount extensionBytes : UInt64} {stream : List UInt8}
    {checked : HeaderCheck} (hlong : tarBlockBytes ≤ stream.length)
    (h : checkHeader extensionCount extensionBytes (stream.take tarBlockBytes) = .ok checked) :
    passageFrom extensionCount extensionBytes stream =
      (passageFrom checked.extensionCount checked.extensionBytes
        (stream.drop (tarBlockBytes + checked.bodyRemaining.toNat))).behind
        (stream.take (tarBlockBytes + checked.bodyRemaining.toNat)) := by
  have hne : stream ≠ [] := by
    rintro rfl
    exact absurd hlong (by decide)
  rw [passageFrom, if_neg hne, dif_neg (Nat.not_lt.mpr hlong), h]

theorem passageFrom_of_short {extensionCount extensionBytes : UInt64} {stream : List UInt8}
    (hne : stream ≠ []) (hshort : stream.length < tarBlockBytes) :
    passageFrom extensionCount extensionBytes stream = ⟨[], some .truncatedHeader⟩ := by
  rw [passageFrom, if_neg hne, dif_pos hshort]

/-- What is passed is a prefix of the stream, and all of it where nothing stops it. -/
theorem passageFrom_front (extensionCount extensionBytes : UInt64) (stream : List UInt8) :
    (passageFrom extensionCount extensionBytes stream).bytes <+: stream ∧
      ((passageFrom extensionCount extensionBytes stream).error = none →
        (passageFrom extensionCount extensionBytes stream).bytes = stream) := by
  induction hlength : stream.length using Nat.strong_induction_on
    generalizing stream extensionCount extensionBytes with
  | _ length ih =>
      by_cases hne : stream = []
      · rw [hne, passageFrom_nil]
        exact ⟨List.prefix_refl _, fun _ => rfl⟩
      by_cases hshort : stream.length < tarBlockBytes
      · rw [passageFrom_of_short hne hshort]
        exact ⟨List.nil_prefix, fun h => nomatch h⟩
      have hlong := Nat.not_lt.mp hshort
      cases hcheck : checkHeader extensionCount extensionBytes (stream.take tarBlockBytes) with
      | error error =>
          rw [passageFrom_of_error hlong hcheck]
          exact ⟨List.nil_prefix, fun h => nomatch h⟩
      | ok checked =>
          have hblock : 0 < tarBlockBytes := by decide
          have hsplit := List.take_append_drop (tarBlockBytes + checked.bodyRemaining.toNat) stream
          obtain ⟨hbefore, hall⟩ := ih _ (by rw [List.length_drop]; omega)
            checked.extensionCount checked.extensionBytes
            (stream.drop (tarBlockBytes + checked.bodyRemaining.toNat)) rfl
          rw [passageFrom_of_ok hlong hcheck]
          constructor
          · conv_rhs => rw [← hsplit]
            exact (List.prefix_append_right_inj _).mpr hbefore
          · intro hnone
            exact (congrArg (_ ++ ·) (hall hnone)).trans hsplit

/-! ## The future of a reader -/

variable {reader : BoundedTarReader} {length : Nat}

/-- What a reader still passes: the rest of its header, the rest of the body, and what is
passed of the stream behind it. -/
def future (self : BoundedTarReader) : Passage :=
  (passageFrom self.extensionCount self.extensionBytes
    (self.inner.remaining.drop self.bodyRemaining.toNat)).behind
    (self.header.drop self.headerOffset ++ self.inner.remaining.take self.bodyRemaining.toNat)

/-- A reader has served its header, or holds a whole one. -/
structure ReaderValid (held : BoundedTarReader) : Prop where
  header : held.header.length ≤ tarBlockBytes
  served : held.headerOffset ≤ tarBlockBytes
  whole : held.headerOffset < tarBlockBytes → held.header.length = tarBlockBytes

/-- A read returned the front of the future; nothing only where nothing is left. -/
structure ReadsFuture (before after : BoundedTarReader) (bytes : List UInt8) : Prop where
  valid : ReaderValid after
  front : future before = (future after).behind bytes
  finished : bytes = [] → future before = ⟨[], none⟩

theorem behind_append (passage : Passage) (front rest : List UInt8) :
    (passage.behind rest).behind front = passage.behind (front ++ rest) := by
  rw [Passage.behind, Passage.behind, Passage.behind, List.append_assoc]

theorem readsFuture_serveHeader (hvalid : ReaderValid reader)
    (hoffset : reader.headerOffset < tarBlockBytes) (hlength : length ≠ 0) :
    ReadsFuture reader (reader.serveHeader length).2 (reader.serveHeader length).1 := by
  have hwhole := hvalid.whole hoffset
  have hdrop := List.take_append_drop (min (tarBlockBytes - reader.headerOffset) length)
    (reader.header.drop reader.headerOffset)
  rw [List.drop_drop] at hdrop
  refine ⟨⟨hvalid.header, ?_, fun _ => hwhole⟩, ?_, ?_⟩
  · dsimp only [serveHeader]
    omega
  · rw [future, future, behind_append, serveHeader]
    dsimp only
    rw [← List.append_assoc, hdrop]
  · intro hnil
    have hzero := congrArg List.length hnil
    rw [serveHeader, List.length_take, List.length_drop, hwhole] at hzero
    dsimp only [List.length_nil] at hzero
    omega

/-- A read of the reader below takes a part of what is left, up to what was asked for. -/
theorem inner_read (inner : InnerReader) {asked : Nat} (hasked : asked ≠ 0) :
    ∃ count, 0 < count ∧ count ≤ asked ∧ (inner.read asked).1 = inner.remaining.take count ∧
      (inner.read asked).2.remaining = inner.remaining.drop count :=
  ⟨min (max 1 (inner.split inner.reads)) asked, by omega, by omega, rfl, rfl⟩

theorem readsFuture_body (hvalid : ReaderValid reader)
    (hoffset : ¬ reader.headerOffset < tarBlockBytes) (hbody : 0 < reader.bodyRemaining)
    (hlength : length ≠ 0) :
    ReadsFuture reader { reader with
      inner := (reader.inner.read (min reader.bodyRemaining.toNat length)).2
      bodyRemaining := UInt64.ofNat (reader.bodyRemaining.toNat -
        (reader.inner.read (min reader.bodyRemaining.toNat length)).1.length) }
      (reader.inner.read (min reader.bodyRemaining.toNat length)).1 := by
  have hpos : 0 < reader.bodyRemaining.toNat := UInt64.lt_iff_toNat_lt.mp hbody
  have hmax := reader.bodyRemaining.toNat_lt
  obtain ⟨count, hcount, hasked, hbytes, hrest⟩ :=
    @inner_read reader.inner (min reader.bodyRemaining.toNat length) (by omega)
  have hheld : reader.header.drop reader.headerOffset = [] :=
    List.drop_eq_nil_of_le (hvalid.header.trans (Nat.not_lt.mp hoffset))
  have hleft : (UInt64.ofNat (reader.bodyRemaining.toNat -
      (reader.inner.remaining.take count).length)).toNat =
      reader.bodyRemaining.toNat - (reader.inner.remaining.take count).length := by
    rw [UInt64.toNat_ofNat', Nat.mod_eq_of_lt (by omega)]
  refine ⟨⟨hvalid.header, hvalid.served, hvalid.whole⟩, ?_, ?_⟩
  · rw [future, future, behind_append]
    dsimp only
    rw [hbytes, hrest, hheld, List.nil_append, List.nil_append, hleft]
    by_cases henough : count ≤ reader.inner.remaining.length
    · rw [List.length_take_of_le henough, List.drop_drop, Nat.add_sub_cancel' (by omega),
        ← List.take_add, Nat.add_sub_cancel' (by omega)]
    · have hshort : reader.inner.remaining.length ≤ count := by omega
      rw [List.take_of_length_le hshort, List.drop_eq_nil_of_le hshort, List.drop_nil,
        List.take_nil, List.append_nil, List.take_of_length_le (by omega),
        List.drop_eq_nil_of_le (by omega)]
  · intro hnil
    rw [hbytes] at hnil
    have hempty : reader.inner.remaining = [] := by
      cases hremaining : reader.inner.remaining with
      | nil => rfl
      | cons byte rest =>
          rw [hremaining] at hnil
          obtain ⟨n, rfl⟩ := Nat.exists_eq_succ_of_ne_zero hcount.ne'
          exact nomatch hnil
    rw [future, hheld, hempty, List.drop_nil, List.take_nil, passageFrom_nil]
    rfl

/-- Filling a header takes a block off the stream, if there is one. -/
theorem fillHeader_eq {rounds : Nat} {header : List UInt8} {inner : InnerReader}
    (hheader : header.length ≤ tarBlockBytes) (hrounds : tarBlockBytes ≤ header.length + rounds) :
    (tarBlockBytes ≤ (header ++ inner.remaining).length →
      ∃ inner', fillHeader rounds header inner =
        .ok (some ((header ++ inner.remaining).take tarBlockBytes), inner') ∧
        inner'.remaining = (header ++ inner.remaining).drop tarBlockBytes) ∧
    ((header ++ inner.remaining).length < tarBlockBytes → header ++ inner.remaining ≠ [] →
      fillHeader rounds header inner = .error .truncatedHeader) ∧
    (header ++ inner.remaining = [] →
      ∃ inner', fillHeader rounds header inner = .ok (none, inner') ∧
        inner'.remaining = []) := by
  have hblock : 0 < tarBlockBytes := by decide
  have hfull : header.length = tarBlockBytes →
      (header ++ inner.remaining).take tarBlockBytes = header ∧
        inner.remaining = (header ++ inner.remaining).drop tarBlockBytes := by
    intro hlength
    rw [← hlength]
    exact ⟨List.take_left, List.drop_left.symm⟩
  induction rounds generalizing header inner with
  | zero =>
      have hlength : header.length = tarBlockBytes := by omega
      obtain ⟨htake, hdrop⟩ := hfull hlength
      rw [fillHeader, htake]
      refine ⟨fun _ => ⟨inner, rfl, hdrop⟩, fun hshort => ?_, fun hnil => ?_⟩
      · rw [List.length_append] at hshort
        omega
      · rw [(List.append_eq_nil_iff.mp hnil).1] at hlength
        exact nomatch hlength
  | succ rounds ih =>
      rw [fillHeader]
      by_cases hmissing : header.length < tarBlockBytes
      · rw [if_pos hmissing]
        obtain ⟨count, hcount, hasked, hbytes, hrest⟩ :=
          @inner_read inner (tarBlockBytes - header.length) (by omega)
        dsimp only
        rw [hbytes]
        by_cases hnil : inner.remaining.take count = []
        · have hempty : inner.remaining = [] := by
            cases hremaining : inner.remaining with
            | nil => rfl
            | cons byte rest =>
                rw [hremaining] at hnil
                obtain ⟨n, rfl⟩ := Nat.exists_eq_succ_of_ne_zero hcount.ne'
                exact nomatch hnil
          rw [if_pos hnil, hempty, List.append_nil]
          refine ⟨fun hlong => absurd hmissing (Nat.not_lt.mpr hlong), fun _ hne => if_neg hne,
            fun hheader => ⟨_, if_pos hheader, ?_⟩⟩
          rw [hrest, hempty, List.drop_nil]
        · rw [if_neg hnil]
          have hsame : header ++ inner.remaining.take count ++ (inner.read
              (tarBlockBytes - header.length)).2.remaining = header ++ inner.remaining := by
            rw [hrest, List.append_assoc, List.take_append_drop]
          have hpos := List.length_pos_iff.mpr hnil
          have hle := List.length_take_le count inner.remaining
          rw [← hsame]
          refine ih ?_ ?_ ?_
          · rw [List.length_append]
            omega
          · rw [List.length_append]
            omega
          · intro hlength
            rw [← hlength]
            exact ⟨List.take_left, List.drop_left.symm⟩
      · rw [if_neg hmissing]
        have hlength : header.length = tarBlockBytes := by omega
        obtain ⟨htake, hdrop⟩ := hfull hlength
        rw [htake]
        refine ⟨fun _ => ⟨inner, rfl, hdrop⟩, fun hshort => ?_, fun hnil => ?_⟩
        · rw [List.length_append] at hshort
          omega
        · rw [(List.append_eq_nil_iff.mp hnil).1] at hlength
          exact nomatch hlength

/-- What a read does: it fails where nothing is left but an error, or returns the front of
what is left. -/
theorem read_cases (hvalid : ReaderValid reader) (hlength : length ≠ 0) :
    (∃ error, reader.read length = .error error ∧ future reader = ⟨[], some error⟩) ∨
      ∃ bytes reader', reader.read length = .ok (bytes, reader') ∧
        ReadsFuture reader reader' bytes := by
  rw [BoundedTarReader.read, if_neg hlength]
  by_cases hoffset : reader.headerOffset < tarBlockBytes
  · rw [if_pos hoffset]
    exact Or.inr ⟨_, _, rfl, readsFuture_serveHeader hvalid hoffset hlength⟩
  rw [if_neg hoffset]
  by_cases hbody : 0 < reader.bodyRemaining
  · rw [if_pos hbody]
    exact Or.inr ⟨_, _, rfl, readsFuture_body hvalid hoffset hbody hlength⟩
  rw [if_neg hbody]
  have hzero : reader.bodyRemaining.toNat = 0 :=
    Nat.eq_zero_of_not_pos fun hpos => hbody (UInt64.lt_iff_toNat_lt.mpr hpos)
  have hheld : reader.header.drop reader.headerOffset = [] :=
    List.drop_eq_nil_of_le (hvalid.header.trans (Nat.not_lt.mp hoffset))
  have hfuture : future reader = passageFrom reader.extensionCount reader.extensionBytes
      reader.inner.remaining := by
    rw [future, hheld, hzero]
    rfl
  obtain ⟨hwhole, htruncated, hend⟩ :=
    @fillHeader_eq tarBlockBytes [] reader.inner (Nat.zero_le _) (by omega)
  rw [List.nil_append] at hwhole htruncated hend
  rw [hfuture]
  by_cases hnil : reader.inner.remaining = []
  · obtain ⟨inner', hfill, hinner'⟩ := hend hnil
    rw [hfill]
    refine Or.inr ⟨[], _, rfl, ⟨Nat.zero_le _, hvalid.served, fun h => absurd h hoffset⟩, ?_, ?_⟩
    · rw [hfuture, future, hnil]
      dsimp only
      rw [hinner', List.drop_nil, List.take_nil, List.drop_nil, passageFrom_nil]
      rfl
    · intro _
      rw [hfuture, hnil, passageFrom_nil]
  by_cases hshort : reader.inner.remaining.length < tarBlockBytes
  · rw [htruncated hshort hnil, passageFrom_of_short hnil hshort]
    exact Or.inl ⟨_, rfl, rfl⟩
  have hlong := Nat.not_lt.mp hshort
  obtain ⟨inner', hfill, hinner'⟩ := hwhole hlong
  rw [hfill]
  cases hcheck : checkHeader reader.extensionCount reader.extensionBytes
      (reader.inner.remaining.take tarBlockBytes) with
  | error error =>
      rw [passageFrom_of_error hlong hcheck]
      refine Or.inl ⟨error, ?_, rfl⟩
      change (validateHeader _ >>= _) = _
      rw [validateHeader]
      dsimp only
      rw [hcheck]
      rfl
  | ok checked =>
      have hblock : 0 < tarBlockBytes := by decide
      let checkedReader : BoundedTarReader :=
        ⟨inner', reader.inner.remaining.take tarBlockBytes, 0, checked.bodyRemaining,
          checked.extensionCount, checked.extensionBytes⟩
      have hlengthHeader : checkedReader.header.length = tarBlockBytes :=
        List.length_take_of_le hlong
      have hserved := @readsFuture_serveHeader checkedReader length
        ⟨hlengthHeader.le, Nat.zero_le _, fun _ => hlengthHeader⟩ hblock hlength
      have hsame : future checkedReader = future reader := by
        rw [hfuture, passageFrom_of_ok hlong hcheck, future]
        dsimp only [checkedReader]
        rw [hinner', List.drop_drop, List.drop_zero, ← List.take_add]
      refine Or.inr ⟨_, _, ?_, hserved.valid, hsame ▸ hserved.front,
        fun hnone => hsame ▸ hserved.finished hnone⟩
      change (validateHeader _ >>= _) = _
      rw [validateHeader]
      dsimp only
      rw [hcheck]
      rfl

/-! ## Runs -/

theorem readerValid_new (inner : InnerReader) : ReaderValid (.new inner) :=
  ⟨Nat.zero_le _, le_rfl, fun h => absurd h (lt_irrefl _)⟩

theorem future_new (inner : InnerReader) : future (.new inner) = passage inner.remaining := by
  rw [future]
  rfl

/-- A run returns the front of the future.  It fails where nothing else is left, and gets
there if it reads often enough. -/
theorem runReads_future (hvalid : ReaderValid reader) (lengths : List Nat) :
    (∃ rest, (future reader).bytes = (runReads reader lengths).bytes ++ rest ∧
      (∀ error, (runReads reader lengths).error = some error →
        rest = [] ∧ (future reader).error = some error)) ∧
    ((future reader).bytes.length < lengths.countP (0 < ·) →
      (runReads reader lengths).bytes = (future reader).bytes ∧
        (runReads reader lengths).error = (future reader).error) := by
  induction lengths generalizing reader with
  | nil =>
      rw [runReads]
      exact ⟨⟨_, rfl, fun error h => nomatch h⟩, fun h => absurd h (Nat.not_lt_zero _)⟩
  | cons length lengths ih =>
      by_cases hzero : length = 0
      · have hread : reader.read length = .ok ([], reader) := by
          rw [BoundedTarReader.read, if_pos hzero]
          rfl
        rw [runReads, hread, List.countP_cons_of_neg (by rw [hzero]; decide)]
        exact ih hvalid
      · have hpositive : (length :: lengths).countP (0 < ·) = lengths.countP (0 < ·) + 1 :=
          List.countP_cons_of_pos (decide_eq_true (Nat.pos_of_ne_zero hzero))
        obtain ⟨error, hread, hfuture⟩ | ⟨bytes, reader', hread, hreads⟩ :=
          read_cases hvalid hzero
        · rw [runReads, hread, hfuture]
          refine ⟨⟨[], rfl, fun error' h => ⟨rfl, h⟩⟩, fun _ => ⟨rfl, rfl⟩⟩
        · obtain ⟨⟨rest, hrest, herror⟩, hall⟩ := ih hreads.valid
          rw [runReads, hread, hreads.front, hpositive]
          refine ⟨⟨rest, ?_, herror⟩, fun hcount => ?_⟩
          · exact (congrArg (bytes ++ ·) hrest).trans (List.append_assoc _ _ _).symm
          · rw [Passage.behind, List.length_append] at hcount
            obtain ⟨hbytes, hsame⟩ : (runReads reader' lengths).bytes = (future reader').bytes ∧
                (runReads reader' lengths).error = (future reader').error := by
              by_cases hnil : bytes = []
              · have hfinished := hreads.finished hnil
                rw [hreads.front, hnil, Passage.behind, List.nil_append] at hfinished
                obtain ⟨hbytes, hnone⟩ := Passage.mk.injEq _ _ _ _ ▸ hfinished
                rw [hbytes] at hrest
                obtain ⟨hrun, -⟩ := List.append_eq_nil_iff.mp hrest.symm
                refine ⟨hrun.trans hbytes.symm, ?_⟩
                cases hstopped : (runReads reader' lengths).error with
                | none => exact hnone.symm
                | some error => exact nomatch hnone.symm.trans (herror error hstopped).2
              · have hlength := List.length_pos_iff.mpr hnil
                exact hall (by omega)
            exact ⟨congrArg (bytes ++ ·) hbytes, hsame⟩

/-! ## Guarded headers -/

/-- Headers behind a chain, each of which was accepted. -/
inductive AcceptedFrom : Nat → Nat → List (List UInt8) → Prop where
  | nil {count bytes : Nat} : AcceptedFrom count bytes []
  | cons {count bytes count' bytes' : Nat} {header : List UInt8} {headers : List (List UInt8)}
      (haccepted : Accepted count bytes header count' bytes')
      (hrest : AcceptedFrom count' bytes' headers) : AcceptedFrom count bytes (header :: headers)

theorem prefix_drop_of_prefix_append {front rest stream : List UInt8} {n : Nat}
    (h : front <+: stream.take n ++ rest) (hshort : stream.length < n → rest = []) :
    front.drop n <+: rest := by
  by_cases hn : stream.length < n
  · rw [hshort hn, List.append_nil] at h
    have hlength := h.length_le
    rw [List.length_take] at hlength
    rw [List.drop_eq_nil_of_le (by omega)]
    exact List.nil_prefix
  · obtain ⟨more, hmore⟩ := h
    have hdrop := congrArg (List.drop n) hmore
    rw [List.drop_append, List.drop_append_of_le_length (by rw [List.length_take]; omega),
      List.drop_eq_nil_of_le (List.length_take_le _ _), List.nil_append] at hdrop
    exact ⟨_, hdrop⟩

/-- The headers of what is passed were accepted one behind the other. -/
theorem acceptedFrom_of_front {extensionCount extensionBytes : UInt64}
    {stream front : List UInt8}
    (h : front <+: (passageFrom extensionCount extensionBytes stream).bytes) :
    AcceptedFrom extensionCount.toNat extensionBytes.toNat (headersOf front) := by
  induction hlength : stream.length using Nat.strong_induction_on
    generalizing stream front extensionCount extensionBytes with
  | _ length ih =>
      by_cases hfront : front.length < tarBlockBytes
      · rw [headersOf, dif_pos hfront]
        exact .nil
      have hblock : 0 < tarBlockBytes := by decide
      have hne : (passageFrom extensionCount extensionBytes stream).bytes ≠ [] := by
        intro hnil
        rw [hnil] at h
        rw [List.prefix_nil.mp h] at hfront
        exact hfront hblock
      have hlong : tarBlockBytes ≤ stream.length :=
        (Nat.not_lt.mp hfront).trans
          (h.length_le.trans (passageFrom_front extensionCount extensionBytes stream).1.length_le)
      cases hcheck : checkHeader extensionCount extensionBytes (stream.take tarBlockBytes) with
      | error error => exact absurd (congrArg Passage.bytes (passageFrom_of_error hlong hcheck)) hne
      | ok checked =>
          obtain ⟨hbody, haccepted⟩ := accepted_of_checkHeader hcheck
          rw [passageFrom_of_ok hlong hcheck, Passage.behind] at h
          have hbefore := h.trans ((List.prefix_append_right_inj _).mpr
            (passageFrom_front _ _ _).1)
          rw [List.take_append_drop] at hbefore
          have hheader : front.take tarBlockBytes = stream.take tarBlockBytes := by
            obtain ⟨more, rfl⟩ := hbefore
            rw [List.take_append_of_le_length (Nat.not_lt.mp hfront)]
          rw [headersOf, dif_neg hfront, hheader]
          refine .cons haccepted ?_
          rw [← hbody]
          refine ih _ ?_ (prefix_drop_of_prefix_append h fun hshort => ?_) rfl
          · rw [List.length_drop]
            omega
          · rw [List.drop_eq_nil_of_le hshort.le, passageFrom_nil]

/-- A chain adds up to no more than is allowed. -/
theorem AcceptedFrom.chain {count bytes : Nat} {chain headers : List (List UInt8)}
    (h : AcceptedFrom count bytes (chain ++ headers)) (hcount : count ≤ 4)
    (hbytes : bytes ≤ 32 * 1024) (hchain : ∀ header ∈ chain, typeFlag header = paxType) :
    count + chain.length ≤ 4 ∧ bytes + (chain.map declaredSize).sum ≤ 32 * 1024 := by
  induction chain generalizing count bytes with
  | nil => exact ⟨hcount, hbytes⟩
  | cons header chain ih =>
      obtain ⟨htype, hchain⟩ := List.forall_mem_cons.mp hchain
      rw [List.length_cons, List.map_cons, List.sum_cons]
      cases h with
      | cons haccepted hrest =>
          cases haccepted with
          | zero hzero =>
              rw [typeFlag_of_isZeroBlock hzero] at htype
              exact absurd htype (by decide)
          | extension hzero hpax hsize hcount' hbytes' =>
              have hsum := ih hrest hcount' hbytes' hchain
              omega
          | member hzero hpax => exact absurd htype hpax

theorem Accepted.bounded {count bytes count' bytes' : Nat} {header : List UInt8}
    (h : Accepted count bytes header count' bytes') : count' ≤ 4 ∧ bytes' ≤ 32 * 1024 := by
  cases h with
  | zero => exact ⟨Nat.zero_le _, Nat.zero_le _⟩
  | extension hzero htype hsize hcount hbytes => exact ⟨hcount, hbytes⟩
  | member => exact ⟨Nat.zero_le _, Nat.zero_le _⟩

theorem AcceptedFrom.bounded_append {count bytes : Nat} {front headers : List (List UInt8)}
    (hcount : count ≤ 4) (hbytes : bytes ≤ 32 * 1024)
    (h : AcceptedFrom count bytes (front ++ headers)) :
    ∃ count' bytes', count' ≤ 4 ∧ bytes' ≤ 32 * 1024 ∧ AcceptedFrom count' bytes' headers := by
  induction front generalizing count bytes with
  | nil => exact ⟨count, bytes, hcount, hbytes, h⟩
  | cons header front ih =>
      cases h with
      | cons haccepted hrest => exact ih haccepted.bounded.1 haccepted.bounded.2 hrest

theorem wellGuarded_of_accepted {headers : List (List UInt8)} (h : AcceptedFrom 0 0 headers) :
    WellGuarded headers := by
  have hpart : ∀ part, part <:+: headers → ∃ count bytes rest, count ≤ 4 ∧
      bytes ≤ 32 * 1024 ∧ AcceptedFrom count bytes (part ++ rest) := by
    intro part hinfix
    obtain ⟨front, rest, rfl⟩ := hinfix
    rw [List.append_assoc] at h
    obtain ⟨count, bytes, hcount, hbytes, haccepted⟩ :=
      h.bounded_append (Nat.zero_le _) (Nat.zero_le _)
    exact ⟨count, bytes, rest, hcount, hbytes, haccepted⟩
  have hone : ∀ header ∈ headers, ∃ count bytes count' bytes',
      Accepted count bytes header count' bytes' := by
    intro header hmem
    obtain ⟨front, rest, rfl⟩ := List.append_of_mem hmem
    obtain ⟨count, bytes, -, -, haccepted⟩ :=
      h.bounded_append (Nat.zero_le _) (Nat.zero_le _)
    cases haccepted with
    | cons haccepted hrest => exact ⟨_, _, _, _, haccepted⟩
  constructor
  · intro header hmem
    obtain ⟨count, bytes, count', bytes', haccepted⟩ := hone header hmem
    cases haccepted with
    | zero hzero =>
        rw [typeFlag_of_isZeroBlock hzero]
        decide
    | extension hzero htype =>
        rw [htype]
        decide
    | member hzero htype hglobal hname hlink => exact ⟨hglobal, hname, hlink⟩
  · intro header hmem htype
    obtain ⟨count, bytes, count', bytes', haccepted⟩ := hone header hmem
    cases haccepted with
    | zero hzero =>
        rw [typeFlag_of_isZeroBlock hzero] at htype
        exact absurd htype (by decide)
    | extension hzero hpax hsize => exact hsize
    | member hzero hpax => exact absurd htype hpax
  · intro chain hinfix hchain
    obtain ⟨count, bytes, rest, hcount, hbytes, haccepted⟩ := hpart chain hinfix
    have hsum := haccepted.chain hcount hbytes hchain
    omega
  · intro header next hinfix htype
    obtain ⟨count, bytes, rest, -, -, haccepted⟩ := hpart _ hinfix
    cases haccepted with
    | cons haccepted hrest =>
        cases haccepted with
        | zero hzero =>
            rw [typeFlag_of_isZeroBlock hzero] at htype
            exact absurd htype (by decide)
        | member hzero hpax => exact absurd htype hpax
        | extension hzero hpax hsize hcount hbytes =>
            cases hrest with
            | cons hnext hrest =>
                cases hnext with
                | zero hzero hnone => exact nomatch hnone
                | extension hzero => exact hzero
                | member hzero => exact hzero

/-! ## A transparent guard -/

/-- However a stream is split, and whatever outputs it is read into: what a bounded reader
returns is a prefix of the stream, and one that is well guarded; an error comes behind all
that the stream passes, and is the one that stops it; reads often enough get there; and
where nothing stops the stream, all of it is passed. -/
theorem boundedReader_transparent (stream : List UInt8) (split : Nat → Nat)
    (lengths : List Nat) :
    (runReads (.new ⟨stream, split, 0⟩) lengths).bytes <+: stream ∧
    WellGuarded (headersOf (runReads (.new ⟨stream, split, 0⟩) lengths).bytes) ∧
    (∀ error, (runReads (.new ⟨stream, split, 0⟩) lengths).error = some error →
      (runReads (.new ⟨stream, split, 0⟩) lengths).bytes = (passage stream).bytes ∧
        (passage stream).error = some error) ∧
    ((passage stream).bytes.length < lengths.countP (0 < ·) →
      (runReads (.new ⟨stream, split, 0⟩) lengths).bytes = (passage stream).bytes ∧
        (runReads (.new ⟨stream, split, 0⟩) lengths).error = (passage stream).error) ∧
    ((passage stream).error = none → (passage stream).bytes = stream) := by
  obtain ⟨⟨rest, hrest, herror⟩, hall⟩ :=
    runReads_future (readerValid_new ⟨stream, split, 0⟩) lengths
  rw [future_new] at hrest herror hall
  dsimp only at hrest herror hall
  obtain ⟨hbefore, hwhole⟩ := passageFrom_front 0 0 stream
  have hfront : (runReads (.new ⟨stream, split, 0⟩) lengths).bytes <+: (passage stream).bytes :=
    ⟨rest, hrest.symm⟩
  refine ⟨hfront.trans hbefore, wellGuarded_of_accepted (acceptedFrom_of_front hfront),
    fun error hstopped => ?_, hall, hwhole⟩
  obtain ⟨rfl, hsame⟩ := herror error hstopped
  exact ⟨(hrest.trans (List.append_nil _)).symm, hsame⟩

end Locality.Daemon.BoundedTar
