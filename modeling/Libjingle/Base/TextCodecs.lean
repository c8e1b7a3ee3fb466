import Libjingle.Base.TextRoundTrips
import Mathlib.Data.List.Forall2

/-! What the codecs of texts read back, and which digits they accept. -/

namespace Libjingle.Text

open Transcoder

def isHex (c : UInt8) : Bool :=
  (0x30 ≤ c && c ≤ 0x39) || (0x41 ≤ c && c ≤ 0x46) || (0x61 ≤ c && c ≤ 0x66)

def RoundTrip (enc dec : List UInt8 → List UInt8 → Except Fault (Nat × List UInt8)) (k : Nat)
    (s : List UInt8) : Prop :=
  ∀ text back : List UInt8, k * s.length < text.length → s.length < back.length →
    ∃ n written, enc s text = .ok (n, written) ∧
      ∃ r, dec (written.take n) back = .ok (s.length, r) ∧ r.take s.length = s

structure Inverts (stack : Nat → UInt8) (s : List UInt8) : Prop where
  escape : ∀ illegal esc, RoundTrip (run (escape illegal esc) 0) (run (unescape esc) 0) 2 s
  encode : ∀ illegal esc, RoundTrip (run (encode illegal esc) 0) (run (decode esc) 0) 3 s
  url : RoundTrip (run urlEncode 0) (run urlDecode 0) 3 s
  xml : RoundTrip (run xmlEncode 0) (run xmlDecode 0) 6 s
  html : ValidUtf8 s → RoundTrip (run htmlEncode 0) (run htmlDecode 0) 6 s
  hex : ∀ delimiter, s ≠ [] →
    RoundTrip (hexEncodeWithDelimiter delimiter) (hexDecodeWithDelimiter delimiter) 3 s
  urlString : 0 ∉ s → (urlEncodeString stack s >>= urlDecodeString stack) = .ok s

def PairsOf (good : UInt8 → Bool) (delimiter : UInt8) (text : List UInt8) : Prop :=
  ∃ pairs, pairs ≠ [] ∧ text = joined delimiter pairs ∧
    ∀ p ∈ pairs, good p.1 = true ∧ good p.2 = true

def OnlyHexDecoded (c : Coder UInt8 UInt8) (text : List UInt8) : Prop :=
  ∀ out a b rest p, Reads c text out (0x25 :: a :: b :: rest) →
    c.next (0x25 :: a :: b :: rest) = .piece p → p.rest = rest → isHex a = true ∧ isHex b = true

structure Accepts (delimiter : UInt8) (text : List UInt8) : Prop where
  hex : text ≠ [] → ∀ buffer, text.length ≤ buffer.length →
    ∃ n b, hexDecodeWithDelimiter delimiter text buffer = .ok (n, b) ∧
      (n ≠ 0 ↔ PairsOf isHex delimiter text)
  decode : OnlyHexDecoded (decode 0x25) text
  urlDecode : OnlyHexDecoded urlDecode text
  internalUrlDecode : ∀ spaceAsPlus, OnlyHexDecoded (internalUrlDecoder spaceAsPlus) text

/-- No letter from G on stands where a digit is looked for. -/
structure ProperDigits (delimiter : UInt8) (text : List UInt8) : Prop where
  pairs : PairsOf isAlnum delimiter text → PairsOf isHex delimiter text
  percent : ∀ pre a b post, text = pre ++ 0x25 :: a :: b :: post → isAlnum a = true →
    isAlnum b = true → isHex a = true ∧ isHex b = true

section Digits

variable {a b : UInt8} {delimiter : UInt8} {text out : List UInt8}

set_option maxRecDepth 10000 in
theorem hexDecode_isSome (c : UInt8) : (hexDecode c).isSome = isAlnum c := by
  have hall : ∀ n < 256, (hexDecode (UInt8.ofNat n)).isSome = isAlnum (UInt8.ofNat n) := by
    decide
  have hc := hall c.toNat c.toNat_lt
  rwa [UInt8.ofNat_toNat] at hc

set_option maxRecDepth 10000 in
theorem hexDigit_isSome (c : UInt8) : (hexDigit c).isSome = isHex c := by
  have hall : ∀ n < 256, (hexDigit (UInt8.ofNat n)).isSome = isHex (UInt8.ofNat n) := by
    decide
  have hc := hall c.toNat c.toNat_lt
  rwa [UInt8.ofNat_toNat] at hc

set_option maxRecDepth 10000 in
theorem isAlnum_of_isHex {c : UInt8} (h : isHex c = true) : isAlnum c = true := by
  have hall : ∀ n < 256, isHex (UInt8.ofNat n) = true → isAlnum (UInt8.ofNat n) = true := by
    decide
  have hc := hall c.toNat c.toNat_lt
  rw [UInt8.ofNat_toNat] at hc
  exact hc h

theorem pairValue_isSome (p : UInt8 × UInt8) :
    (pairValue hexDecode p).isSome = (isAlnum p.1 && isAlnum p.2) := by
  rw [← hexDecode_isSome, ← hexDecode_isSome, pairValue]
  cases hexDecode p.1 with
  | none => rfl
  | some h1 => cases hexDecode p.2 <;> rfl

theorem values_iff (pairs : List (UInt8 × UInt8)) :
    (∃ out, List.Forall₂ (fun p v => pairValue hexDecode p = some v) pairs out) ↔
      ∀ p ∈ pairs, isAlnum p.1 = true ∧ isAlnum p.2 = true := by
  induction pairs with
  | nil => exact iff_of_true ⟨[], .nil⟩ (by simp)
  | cons p pairs ih =>
    have hp := pairValue_isSome p
    rw [List.forall_mem_cons, ← ih, ← Bool.and_eq_true, ← hp, Option.isSome_iff_exists]
    constructor
    · rintro ⟨out, hout⟩
      cases hout with
      | @cons _ v _ out hv hrest => exact ⟨⟨v, hv⟩, out, hrest⟩
    · rintro ⟨⟨v, hv⟩, out, hrest⟩
      exact ⟨v :: out, .cons hv hrest⟩

theorem spelled_iff_pairs :
    (∃ out, SpelledBytes hexDecode delimiter text out) ↔ PairsOf isAlnum delimiter text := by
  constructor
  · rintro ⟨out, pairs, hne, htext, hvalues⟩
    exact ⟨pairs, hne, htext, (values_iff pairs).mp ⟨out, hvalues⟩⟩
  · rintro ⟨pairs, hne, htext, hgood⟩
    obtain ⟨out, hvalues⟩ := (values_iff pairs).mpr hgood
    exact ⟨out, pairs, hne, htext, hvalues⟩

theorem PairsOf.weaken (h : PairsOf isHex delimiter text) : PairsOf isAlnum delimiter text := by
  obtain ⟨pairs, hne, htext, hgood⟩ := h
  exact ⟨pairs, hne, htext,
    fun p hp => ⟨isAlnum_of_isHex (hgood p hp).1, isAlnum_of_isHex (hgood p hp).2⟩⟩

theorem SpelledBytes.ne_nil (h : SpelledBytes hexDecode delimiter text out) : out ≠ [] := by
  obtain ⟨pairs, hne, -, hvalues⟩ := h
  cases hvalues with
  | nil => exact absurd rfl hne
  | cons => simp

theorem decodeNeeded_le (delimiter : UInt8) (n : Nat) : decodeNeeded delimiter n ≤ n := by
  unfold decodeNeeded
  split <;> omega

theorem hexDecode_accepts (delimiter : UInt8) {buffer : List UInt8} (hne : text ≠ [])
    (hsize : text.length ≤ buffer.length) :
    ∃ n b, hexDecodeWithDelimiter delimiter text buffer = .ok (n, b) ∧
      (n ≠ 0 ↔ PairsOf isAlnum delimiter text) := by
  have hpos := List.length_pos_of_ne_nil hne
  have hneeded := decodeNeeded_le delimiter text.length
  have hbuffer : 0 < buffer.length := by omega
  have hfit : decodeNeeded delimiter text.length ≤ buffer.length := by omega
  obtain ⟨⟨n, b⟩, hrun, hdecoded⟩ := hexDecode_ok hbuffer hne hfit
  refine ⟨n, b, hrun, ?_⟩
  rw [← spelled_iff_pairs]
  constructor
  · intro hn
    by_contra hnone
    exact hn (hdecoded.refused hnone)
  · rintro ⟨out, hout⟩
    obtain ⟨hn, -⟩ := hdecoded.spelled out hout
    have hlen := List.length_pos_of_ne_nil hout.ne_nil
    simp only at hn
    omega

theorem hexPair_alnum {v : UInt8} {rest tail : List UInt8} (h : hexPair rest = some (v, tail)) :
    ∃ a b, rest = a :: b :: tail ∧ isAlnum a = true ∧ isAlnum b = true := by
  obtain ⟨a, b, rfl, -⟩ := hexPair_some h
  refine ⟨a, b, rfl, ?_⟩
  rw [← hexDecode_isSome, ← hexDecode_isSome]
  cases ha : hexDecode a with
  | none => simp [hexPair, ha] at h
  | some h1 =>
    cases hb : hexDecode b with
    | none => simp [hexPair, ha, hb] at h
    | some h2 => simp

theorem hexPair_of_alnum (rest : List UInt8) (ha : isAlnum a = true) (hb : isAlnum b = true) :
    ∃ v, hexPair (a :: b :: rest) = some (v, rest) := by
  rw [← hexDecode_isSome] at ha hb
  obtain ⟨h1, h1'⟩ := Option.isSome_iff_exists.mp ha
  obtain ⟨h2, h2'⟩ := Option.isSome_iff_exists.mp hb
  exact ⟨h1 <<< 4 ||| h2, by simp only [hexPair, h1', h2']⟩

end Digits

section Percents

variable {delimiter : UInt8} {text : List UInt8}

/-- A loop of which the pieces are single bytes or escape sequences. -/
structure Percented (c : Coder UInt8 UInt8) : Prop where
  piece : ∀ ch rest, ∃ p, c.next (ch :: rest) = .piece p ∧
    (p.rest = rest ∨ ch = 0x25 ∧ ∃ v, hexPair rest = some (v, p.rest))
  percent : ∀ rest v tail, hexPair rest = some (v, tail) →
    ∃ p, c.next (0x25 :: rest) = .piece p ∧ p.rest = tail

theorem percented_decode : Percented (decode 0x25) := by
  constructor
  · intro ch rest
    cases hpair : if ch = 0x25 then hexPair rest else none with
    | none =>
      exact ⟨⟨[ch], rest, always⟩, by simp only [decode, decodeNext, hpair], .inl rfl⟩
    | some r =>
      refine ⟨⟨[r.1], r.2, always⟩, by simp only [decode, decodeNext, hpair], .inr ?_⟩
      split at hpair
      · next hch => exact ⟨hch, r.1, hpair⟩
      · cases hpair
  · intro rest v tail h
    exact ⟨⟨[v], tail, always⟩, by simp [decode, decodeNext, h], rfl⟩

theorem percented_urlDecode : Percented urlDecode := by
  constructor
  · intro ch rest
    by_cases hplus : ch = 0x2B
    · exact ⟨⟨[0x20], rest, always⟩, if_pos hplus, .inl rfl⟩
    · obtain ⟨p, hp, hrest⟩ := percented_decode.piece ch rest
      exact ⟨p, (if_neg hplus).trans hp, hrest⟩
  · intro rest v tail h
    exact ⟨⟨[v], tail, always⟩, by simp [urlDecode, urlDecodeNext, h], rfl⟩

theorem not_percent {a : UInt8} (h : isAlnum a = true) : a ≠ 0x25 := by
  rintro rfl
  cases h

theorem Percented.reads {c : Coder UInt8 UInt8} (h : Percented c) (pre more : List UInt8) :
    ∃ out, Reads c (pre ++ 0x25 :: more) out (0x25 :: more) := by
  generalize hlen : pre.length = n
  induction n using Nat.strong_induction_on generalizing pre with
  | _ n ih =>
    cases pre with
    | nil => exact ⟨[], .nil _⟩
    | cons ch pre =>
      simp only [List.length_cons] at hlen
      obtain ⟨p, hp, hrest | ⟨-, v, hpair⟩⟩ := h.piece ch (pre ++ 0x25 :: more)
      · obtain ⟨out, hout⟩ := ih pre.length (by omega) pre rfl
        rw [← hrest] at hout
        exact ⟨_, .piece hp hout⟩
      · obtain ⟨a, b, hsplit, ha, hb⟩ := hexPair_alnum hpair
        match pre with
        | [] =>
          obtain ⟨rfl, -⟩ := List.cons.inj hsplit
          exact absurd rfl (not_percent ha)
        | [d] =>
          obtain ⟨-, htail⟩ := List.cons.inj hsplit
          obtain ⟨rfl, -⟩ := List.cons.inj htail
          exact absurd rfl (not_percent hb)
        | d :: e :: pre =>
          simp only [List.cons_append, List.cons.injEq] at hsplit
          simp only [List.length_cons] at hlen
          obtain ⟨out, hout⟩ := ih pre.length (by omega) pre rfl
          rw [hsplit.2.2] at hout
          exact ⟨_, .piece hp hout⟩

theorem Percented.only_iff {c : Coder UInt8 UInt8} (h : Percented c) : OnlyHexDecoded c text ↔
    ∀ pre a b post, text = pre ++ 0x25 :: a :: b :: post → isAlnum a = true → isAlnum b = true →
      isHex a = true ∧ isHex b = true := by
  constructor
  · rintro honly pre a b post rfl ha hb
    obtain ⟨out, hout⟩ := h.reads pre (a :: b :: post)
    obtain ⟨v, hv⟩ := hexPair_of_alnum post ha hb
    obtain ⟨p, hp, hrest⟩ := h.percent _ v post hv
    exact honly out a b post p hout hp hrest
  · intro hall out a b rest p hreads hnext hrest
    obtain ⟨front, hsplit, -⟩ := hreads.front
    obtain ⟨q, hq, hshort | ⟨-, v, hpair⟩⟩ := h.piece 0x25 (a :: b :: rest)
    · cases hq.symm.trans hnext
      have hlen := congrArg List.length (hshort.symm.trans hrest)
      simp only [List.length_cons] at hlen
      omega
    · obtain ⟨d, e, heq, hd, he⟩ := hexPair_alnum hpair
      simp only [List.cons.injEq] at heq
      obtain ⟨rfl, rfl, -⟩ := heq
      exact hall front a b rest hsplit hd he

theorem only_internalUrl (spaceAsPlus : Bool) :
    OnlyHexDecoded (internalUrlDecoder spaceAsPlus) text := by
  intro out a b rest p _ hnext hrest
  have hone : (0x25 : UInt8) ≠ 0x2B := by decide
  simp only [internalUrlDecoder, internalUrlDecodeNext, if_neg hone, if_true] at hnext
  cases hvalue : hexPairValue a b with
  | none =>
    simp only [hvalue, Next.piece.injEq] at hnext
    subst hnext
    have hlen := congrArg List.length hrest
    simp only [List.length_cons] at hlen
    omega
  | some v =>
    rw [← hexDigit_isSome, ← hexDigit_isSome]
    cases ha : hexDigit a with
    | none => simp [hexPairValue, ha] at hvalue
    | some high =>
      cases hb : hexDigit b with
      | none => simp [hexPairValue, ha, hb] at hvalue
      | some low => simp

theorem accepts_iff : Accepts delimiter text ↔ ProperDigits delimiter text := by
  constructor
  · intro h
    refine ⟨?_, percented_decode.only_iff.mp h.decode⟩
    intro hpairs
    have hne : text ≠ [] := by
      obtain ⟨out, hout⟩ := spelled_iff_pairs.mpr hpairs
      have hlong := hout.two_le
      exact List.ne_nil_of_length_pos (by omega)
    obtain ⟨n, b, hrun, hn⟩ := h.hex hne text le_rfl
    obtain ⟨n', b', hrun', hn'⟩ := hexDecode_accepts delimiter hne (le_refl text.length)
    cases hrun.symm.trans hrun'
    exact hn.mp (hn'.mpr hpairs)
  · intro h
    refine ⟨?_, percented_decode.only_iff.mpr h.percent, percented_urlDecode.only_iff.mpr h.percent,
      only_internalUrl⟩
    intro hne buffer hsize
    obtain ⟨n, b, hrun, hn⟩ := hexDecode_accepts delimiter hne hsize
    exact ⟨n, b, hrun, hn.trans ⟨h.pairs, PairsOf.weaken⟩⟩

end Percents

section Strings

variable {s : List UInt8} {delimiter : UInt8} {stack : Nat → UInt8}

theorem round_trip_hex (hne : s ≠ []) :
    RoundTrip (hexEncodeWithDelimiter delimiter) (hexDecodeWithDelimiter delimiter) 3 s := by
  intro text back htext hback
  have hpos := List.length_pos_of_ne_nil hne
  have hneeded : (if delimiter ≠ 0 then s.length * 3 else s.length * 2 + 1) ≤ text.length := by
    split <;> omega
  obtain ⟨written, hrun, -, -, -, htake⟩ := hexEncode_ok (by omega) hneeded
  have hlength : (joined delimiter (s.map digitPair)).length + 1 =
      if delimiter ≠ 0 then s.length * 3 else s.length * 2 + 1 := length_joined hne
  have hspelled : SpelledBytes hexDecode delimiter (joined delimiter (s.map digitPair)) s := by
    refine ⟨s.map digitPair, by simpa using hne, rfl, ?_⟩
    rw [List.forall₂_map_left_iff]
    exact List.forall₂_same.mpr fun ch _ => pairValue_digitPair ch
  have hjoined : joined delimiter (s.map digitPair) ≠ [] := by
    have hlong := hspelled.two_le
    exact List.ne_nil_of_length_pos (by omega)
  have hfit : decodeNeeded delimiter (joined delimiter (s.map digitPair)).length ≤ back.length := by
    unfold decodeNeeded
    split at hlength <;> split <;> first | contradiction | omega
  obtain ⟨⟨n, r⟩, hread, hdecoded⟩ := hexDecode_ok (by omega) hjoined hfit
  obtain ⟨hn, hr⟩ := hdecoded.spelled s hspelled
  simp only [Nat.zero_add] at hn
  subst hn
  exact ⟨_, written, hrun, r, by rw [htake, hread], by simpa using hr⟩

theorem stringOf_eq {out b : List UInt8} (htake : b.take out.length = out)
    (hend : b[out.length]? = some 0) (hout : 0 ∉ out) : stringOf b = .ok out := by
  obtain ⟨more, rfl⟩ : ∃ more, b = out ++ 0 :: more := by
    refine ⟨b.drop (out.length + 1), ?_⟩
    have hdrop : b.drop out.length = 0 :: b.drop (out.length + 1) := by
      rw [List.drop_eq_getElem?_toList_append, hend]
      rfl
    have hsplit := List.take_append_drop out.length b
    rw [htake, hdrop] at hsplit
    exact hsplit.symm
  have hstring : cString (out ++ 0 :: more) = out := by
    rw [cString, List.takeWhile_append_of_pos]
    · simp
    · intro c hc
      simp only [ne_eq, decide_not, Bool.not_eq_eq_eq_not, Bool.not_true, decide_eq_false_iff_not]
      rintro rfl
      exact hout hc
  rw [stringOf, if_pos (by simp), hstring]

theorem length_cString_le {b : List UInt8} {n : Nat} (hend : b[n]? = some 0) :
    (cString b).length ≤ n := by
  induction b generalizing n with
  | nil => cases hend
  | cons c b ih =>
    by_cases hc : c = 0
    · simp [cString, hc]
    · cases n with
      | zero => exact absurd (Option.some.inj hend) hc
      | succ n =>
        have hrest : (cString b).length ≤ n := ih hend
        simpa [cString, hc] using hrest

theorem cString_self (h : 0 ∉ s) : cString s = s := by
  apply List.takeWhile_eq_self_iff.mpr
  intro c hc
  simp only [ne_eq, decide_not, Bool.not_eq_eq_eq_not, Bool.not_true, decide_eq_false_iff_not]
  rintro rfl
  exact h hc

theorem length_stackArray (n : Nat) : (stackArray stack n).length = n := by simp [stackArray]

set_option maxRecDepth 10000 in
theorem hexPairValue_urlDigit (ch : UInt8) :
    hexPairValue (urlDigit (ch >>> 4 &&& 0x0F)) (urlDigit (ch &&& 0x0F)) = some ch.toNat ∧
      urlDigit (ch >>> 4 &&& 0x0F) ≠ 0 ∧ urlDigit (ch &&& 0x0F) ≠ 0 := by
  have hall : ∀ n < 256, hexPairValue (urlDigit (UInt8.ofNat n >>> 4 &&& 0x0F))
      (urlDigit (UInt8.ofNat n &&& 0x0F)) = some (UInt8.ofNat n).toNat ∧
        urlDigit (UInt8.ofNat n >>> 4 &&& 0x0F) ≠ 0 ∧ urlDigit (UInt8.ofNat n &&& 0x0F) ≠ 0 := by
    decide
  have hch := hall ch.toNat ch.toNat_lt
  rwa [UInt8.ofNat_toNat] at hch

set_option maxRecDepth 10000 in
theorem valid_plain {ch : UInt8} (h : isValidUrlChar ch false = true) :
    ch = 0 ∨ ch ≠ 0x2B ∧ ch ≠ 0x25 := by
  have hall : ∀ n < 256, isValidUrlChar (UInt8.ofNat n) false = true →
      UInt8.ofNat n = 0 ∨ UInt8.ofNat n ≠ 0x2B ∧ UInt8.ofNat n ≠ 0x25 := by
    decide
  have hch := hall ch.toNat ch.toNat_lt
  rw [UInt8.ofNat_toNat] at hch
  exact hch h

theorem inverse_internalUrl :
    Inverse (internalUrlEncoder true false) (internalUrlDecoder true) (fun s => 0 ∉ s) 3 := by
  constructor
  intro source hvalid hne
  cases source with
  | nil => exact absurd rfl hne
  | cons ch rest =>
    have hrest : 0 ∉ rest := fun h => hvalid (List.mem_cons_of_mem _ h)
    have hch : ch ≠ 0 := by
      rintro rfl
      exact hvalid List.mem_cons_self
    refine ⟨⟨(internalUrlChar true false ch).1, rest, (internalUrlChar true false ch).2⟩, [ch], rfl,
      rfl, hrest, ?_, ?_⟩
    · rcases internalUrlChar_cases true false ch with ⟨hlen, -⟩ | ⟨hlen, -⟩ <;> simp [hlen]
    · intro tail
      by_cases hspace : ch = 0x20
      · refine ⟨⟨[0x20], tail, always⟩, ?_, by rw [hspace], rfl⟩
        simp [internalUrlChar, hspace, internalUrlDecoder, internalUrlDecodeNext]
      · by_cases hgood : isValidUrlChar ch false = true
        · obtain ⟨hplus, hpercent⟩ := (valid_plain hgood).resolve_left hch
          refine ⟨⟨[ch], tail, always⟩, ?_, rfl, rfl⟩
          simp [internalUrlChar, hspace, hgood, internalUrlDecoder, internalUrlDecodeNext, hplus,
            hpercent]
        · refine ⟨⟨[ch], tail, always⟩, ?_, rfl, rfl⟩
          simp [internalUrlChar, hspace, hgood, internalUrlDecoder, internalUrlDecodeNext,
            (hexPairValue_urlDigit ch).1]

theorem urlText_ne_zero (h : 0 ∉ s) : 0 ∉ urlText true false s := by
  intro hzero
  obtain ⟨ch, hch, hmem⟩ := List.mem_flatMap.mp hzero
  have hne : ch ≠ 0 := by
    rintro rfl
    exact h hch
  obtain ⟨-, hhigh, hlow⟩ := hexPairValue_urlDigit ch
  unfold internalUrlChar at hmem
  split_ifs at hmem
  · simp at hmem
  · simp [hne.symm] at hmem
  · simp [hhigh.symm, hlow.symm] at hmem

theorem length_urlText (s : List UInt8) :
    s.length ≤ (urlText true false s).length ∧ (urlText true false s).length ≤ 3 * s.length := by
  induction s with
  | nil => simp [urlText]
  | cons ch s ih =>
    have hsplit : (urlText true false (ch :: s)).length =
        (internalUrlChar true false ch).1.length + (urlText true false s).length := by
      simp [urlText]
    rw [hsplit, List.length_cons]
    rcases internalUrlChar_cases true false ch with ⟨hlen, -⟩ | ⟨hlen, -⟩ <;> omega

theorem reads_urlText (s : List UInt8) :
    Reads (internalUrlEncoder true false) s (urlText true false s) [] :=
  reads_ofChars.mpr ⟨s, (List.append_nil s).symm, rfl⟩

theorem reads_back (h : 0 ∉ s) :
    Reads (internalUrlDecoder true) (urlText true false s) s [] := by
  obtain ⟨out, henc, hdec, -⟩ := inverse_internalUrl.reads h
  obtain ⟨front, hsplit, rfl⟩ := reads_ofChars.mp henc
  obtain rfl : s = front := by simpa using hsplit
  exact hdec

theorem stringOf_run {c : Coder UInt8 UInt8} {source buffer out : List UInt8}
    (h : Reads c source out []) (hroomy : Roomy c buffer.length) (hfit : out.length < buffer.length)
    (hout : 0 ∉ out) : (do
      let r ← run c 0 source buffer
      stringOf r.2) = .ok out := by
  have hwhole : ∃ b, run c 0 source buffer = .ok (out.length, b) ∧ b.take out.length = out :=
    run_of_reads h hroomy hfit
  obtain ⟨b, hrun, htake⟩ := hwhole
  have hne := List.ne_nil_of_length_pos (show 0 < buffer.length by omega)
  have hend := (run_ok hrun hne).ends
  simp only [hrun, bind, Except.bind]
  exact stringOf_eq htake hend hout

def neededLength (n : Nat) : Int := Int.bmod (Int.bmod n (2 ^ 32) * 3 + 1) (2 ^ 32)

theorem bmod_int (x : Int) : Int.bmod x (2 ^ 32) =
    if x % 4294967296 < 2147483648 then x % 4294967296 else x % 4294967296 - 4294967296 := by
  rw [Int.bmod_def]
  rfl

theorem bmod_range (x : Int) : ∃ k : Int, Int.bmod x (2 ^ 32) = x - 4294967296 * k ∧
    -2147483648 ≤ Int.bmod x (2 ^ 32) ∧ Int.bmod x (2 ^ 32) < 2147483648 := by
  rw [bmod_int]
  split
  · exact ⟨x / 4294967296, by omega⟩
  · exact ⟨x / 4294967296 + 1, by omega⟩

theorem neededLength_fits {n : Nat} (h : 3 * n + 1 < 2147483648) :
    neededLength n = 3 * n + 1 := by
  unfold neededLength
  rw [bmod_int, bmod_int]
  omega

theorem neededLength_cut {n : Nat} (h : 2147483648 ≤ 3 * n + 1) : (neededLength n).toNat ≤ n := by
  unfold neededLength
  obtain ⟨k, hk, hlow, hhigh⟩ := bmod_range n
  generalize Int.bmod n (2 ^ 32) = m at hk hlow hhigh
  obtain ⟨j, hj, -, hbound⟩ := bmod_range (m * 3 + 1)
  generalize Int.bmod (m * 3 + 1) (2 ^ 32) = v at hj hbound
  by_cases hn : n < 2147483648
  · obtain rfl : k = 0 := by omega
    by_cases hj1 : j ≤ 0
    · omega
    · omega
  · omega

theorem urlEncodeString_eq (stack : Nat → UInt8) (s : List UInt8) : urlEncodeString stack s =
    if neededLength s.length < 0 then .error .overrun
    else (do
      let r ← run (internalUrlEncoder true false) 0 (cString s)
        (stackArray stack (neededLength s.length).toNat)
      stringOf r.2) := rfl

theorem urlDecodeString_eq (stack : Nat → UInt8) (s : List UInt8) : urlDecodeString stack s = (do
    let r ← run (internalUrlDecoder true) 0 (cString s) (stackArray stack (s.length + 1))
    stringOf r.2) := rfl

theorem urlString_fits (h : 0 ∉ s) (hsize : 3 * s.length + 1 < 2147483648) :
    (urlEncodeString stack s >>= urlDecodeString stack) = .ok s := by
  have hneeded : neededLength s.length = 3 * s.length + 1 := neededLength_fits hsize
  have hlen := length_urlText s
  have hencode : urlEncodeString stack s = .ok (urlText true false s) := by
    rw [urlEncodeString_eq, if_neg (by omega), cString_self h]
    have hbuffer : (stackArray stack (neededLength s.length).toNat).length = 3 * s.length + 1 := by
      rw [length_stackArray]
      omega
    apply stringOf_run (reads_urlText s) (roomy_internalUrl (by omega)) (by omega)
    exact urlText_ne_zero h
  have hdecode : urlDecodeString stack (urlText true false s) = .ok s := by
    rw [urlDecodeString_eq, cString_self (urlText_ne_zero h)]
    apply stringOf_run (reads_back h) roomy_internalUrlDecode _ h
    rw [length_stackArray]
    omega
  rw [hencode]
  exact hdecode

theorem length_stringOf {c : Coder UInt8 UInt8} {source buffer out : List UInt8}
    (h : (do
      let r ← run c 0 source buffer
      stringOf r.2) = .ok out) : out.length < buffer.length ∧
        ∃ written rest, Reads c source written rest ∧ out.length ≤ written.length := by
  have hne : buffer ≠ [] := by
    rintro rfl
    cases h
  cases hrun : run c 0 source buffer with
  | error f => simp [hrun, bind, Except.bind] at h
  | ok r =>
    have hin := run_ok hrun hne
    simp only [hrun, bind, Except.bind] at h
    have hout : out = cString r.2 := by
      unfold stringOf at h
      split at h
      · exact (Except.ok.inj h).symm
      · cases h
    have hle := length_cString_le hin.ends
    rw [← hout] at hle
    obtain ⟨front, rest, -, hreads, -⟩ := hin.whole
    refine ⟨lt_of_le_of_lt hle hin.inside, _, rest, hreads, ?_⟩
    rw [List.length_take, hin.size]
    have hinside := hin.inside
    omega

theorem length_internalUrlDecode {source out rest : List UInt8}
    (h : Reads (internalUrlDecoder true) source out rest) : out.length ≤ source.length := by
  induction h with
  | nil => simp
  | @piece source p out rest hnext _ ih =>
    have hone : p.bytes.length = 1 := by
      cases source with
      | nil => cases hnext
      | cons ch more =>
        simp only [internalUrlDecoder, internalUrlDecodeNext] at hnext
        repeat' split at hnext
        all_goals
          cases hnext
          rfl
    have hshort := length_rest hnext
    rw [List.length_append]
    omega

theorem length_urlEncodeString {encoded : List UInt8} (h : urlEncodeString stack s = .ok encoded) :
    encoded.length < (neededLength s.length).toNat := by
  rw [urlEncodeString_eq] at h
  split at h
  · cases h
  · have hshort := (length_stringOf h).1
    rwa [length_stackArray] at hshort

theorem length_urlDecodeString {encoded : List UInt8} (h : urlDecodeString stack encoded = .ok s) :
    s.length ≤ encoded.length := by
  rw [urlDecodeString_eq] at h
  obtain ⟨-, written, rest, hreads, hle⟩ := length_stringOf h
  have hback := length_internalUrlDecode hreads
  have hstring : (cString encoded).length ≤ encoded.length := (List.takeWhile_prefix _).length_le
  omega

theorem urlString_cut (hsize : 2147483648 ≤ 3 * s.length + 1) :
    (urlEncodeString stack s >>= urlDecodeString stack) ≠ .ok s := by
  intro hok
  cases hencode : urlEncodeString stack s with
  | error f =>
    rw [hencode] at hok
    cases hok
  | ok encoded =>
    rw [hencode] at hok
    have hshort := length_urlEncodeString hencode
    have hback := length_urlDecodeString hok
    have hbound := neededLength_cut hsize
    omega

/-- The string of a URL has a terminator in it, or its encoding fits in an `int`. -/
def UrlSized (s : List UInt8) : Prop := 0 ∈ s ∨ 3 * s.length + 1 < 2147483648

theorem inverts_iff (stack : Nat → UInt8) (s : List UInt8) : Inverts stack s ↔ UrlSized s := by
  constructor
  · intro h
    by_cases hzero : 0 ∈ s
    · exact .inl hzero
    · refine .inr ?_
      by_contra hsize
      exact urlString_cut (by omega) (h.urlString hzero)
  · intro h
    constructor
    · exact fun _ _ _ _ htext hback =>
        inverse_escape.round_trip trivial htext hback roomy_escape roomy_unescape
    · exact fun _ _ _ _ htext hback =>
        inverse_encode.round_trip trivial htext hback roomy_encode roomy_decode
    · exact fun _ _ htext hback =>
        inverse_url.round_trip trivial htext hback roomy_urlEncode roomy_urlDecode
    · exact fun _ _ htext hback =>
        inverse_xml.round_trip trivial htext hback roomy_xmlEncode roomy_xmlDecode
    · exact fun hvalid _ _ htext hback =>
        inverse_html.round_trip hvalid htext hback roomy_htmlEncode roomy_xmlDecode
    · exact fun _ hne => round_trip_hex hne
    · intro hzero
      exact urlString_fits hzero (h.resolve_left hzero)

/-- Every string is read back from its encodings, but for a long one of a URL, and a text is
decoded exactly as its digits say if there is no letter from G on where one is looked for. -/
theorem codecs_right_iff (stack : Nat → UInt8) (s : List UInt8) (delimiter : UInt8)
    (text : List UInt8) :
    (Inverts stack s ↔ UrlSized s) ∧ (Accepts delimiter text ↔ ProperDigits delimiter text) :=
  ⟨inverts_iff stack s, accepts_iff⟩

/-- A letter from G on is taken for a digit. -/
theorem codecs_misread : ¬ Accepts 0 (stringBytes "zz") ∧ ¬ Accepts 0 (stringBytes "%G0") := by
  constructor
  · intro h
    obtain ⟨n, b, hrun, hn⟩ := h.hex (by decide) [0, 0] (by decide)
    have hone : hexDecodeWithDelimiter 0 (stringBytes "zz") [0, 0] = .ok (1, [51, 0]) := rfl
    cases hone.symm.trans hrun
    obtain ⟨pairs, -, htext, hgood⟩ := hn.mp (by decide)
    match pairs with
    | [] => cases htext
    | p :: pairs =>
      obtain ⟨more, hmore⟩ : ∃ more, joined 0 (p :: pairs) = p.1 :: more := by
        cases pairs with
        | nil => exact ⟨_, joined_single⟩
        | cons q pairs => exact ⟨_, joined_cons⟩
      rw [hmore] at htext
      have hp := (hgood p (by simp)).1
      rw [← (List.cons.inj htext).1] at hp
      cases hp
  · intro h
    have hbad := h.decode [] 0x47 0x30 [] ⟨[0], [], always⟩ (.nil _) rfl rfl
    cases hbad.1

end Strings

end Libjingle.Text
