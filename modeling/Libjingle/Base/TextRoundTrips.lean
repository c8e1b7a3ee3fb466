import Libjingle.Base.TextContainment
import Mathlib.Data.Nat.Bits

/-! Each decoder reads back what its encoder writes. -/

namespace Libjingle.Text

open Transcoder

section Utf8

variable {v n : Nat} {bytes rest : List UInt8}

set_option maxRecDepth 10000 in
theorem marked_tail (h : n < 64) : marked 0x80 n &&& 0x80 ≠ 0 ∧ marked 0x80 n &&& 0xC0 = 0x80 ∧
    bits 0x3F (marked 0x80 n) = n ∧ marked 0x80 n = UInt8.ofNat (n % 0x40 + 0x80) := by
  have hall : ∀ n < 64, marked 0x80 n &&& 0x80 ≠ 0 ∧ marked 0x80 n &&& 0xC0 = 0x80 ∧
      bits 0x3F (marked 0x80 n) = n ∧ marked 0x80 n = UInt8.ofNat (n % 0x40 + 0x80) := by
    decide
  exact hall n h

set_option maxRecDepth 10000 in
theorem marked_two (h : n < 32) : marked 0xC0 n &&& 0x80 ≠ 0 ∧ marked 0xC0 n &&& 0xE0 = 0xC0 ∧
    bits 0x1F (marked 0xC0 n) = n ∧ marked 0xC0 n = UInt8.ofNat (n % 0x20 + 0xC0) := by
  have hall : ∀ n < 32, marked 0xC0 n &&& 0x80 ≠ 0 ∧ marked 0xC0 n &&& 0xE0 = 0xC0 ∧
      bits 0x1F (marked 0xC0 n) = n ∧ marked 0xC0 n = UInt8.ofNat (n % 0x20 + 0xC0) := by
    decide
  exact hall n h

set_option maxRecDepth 10000 in
theorem marked_three (h : n < 16) : marked 0xE0 n &&& 0x80 ≠ 0 ∧ marked 0xE0 n &&& 0xE0 ≠ 0xC0 ∧
    marked 0xE0 n &&& 0xF0 = 0xE0 ∧ bits 0x0F (marked 0xE0 n) = n ∧
      marked 0xE0 n = UInt8.ofNat (n % 0x10 + 0xE0) := by
  have hall : ∀ n < 16, marked 0xE0 n &&& 0x80 ≠ 0 ∧ marked 0xE0 n &&& 0xE0 ≠ 0xC0 ∧
      marked 0xE0 n &&& 0xF0 = 0xE0 ∧ bits 0x0F (marked 0xE0 n) = n ∧
        marked 0xE0 n = UInt8.ofNat (n % 0x10 + 0xE0) := by
    decide
  exact hall n h

set_option maxRecDepth 10000 in
theorem marked_four (h : n < 8) : marked 0xF0 n &&& 0x80 ≠ 0 ∧ marked 0xF0 n &&& 0xE0 ≠ 0xC0 ∧
    marked 0xF0 n &&& 0xF0 ≠ 0xE0 ∧ marked 0xF0 n &&& 0xF8 = 0xF0 ∧
      bits 0x07 (marked 0xF0 n) = n ∧ marked 0xF0 n = UInt8.ofNat (n % 0x08 + 0xF0) := by
  have hall : ∀ n < 8, marked 0xF0 n &&& 0x80 ≠ 0 ∧ marked 0xF0 n &&& 0xE0 ≠ 0xC0 ∧
      marked 0xF0 n &&& 0xF0 ≠ 0xE0 ∧ marked 0xF0 n &&& 0xF8 = 0xF0 ∧
        bits 0x07 (marked 0xF0 n) = n ∧ marked 0xF0 n = UInt8.ofNat (n % 0x08 + 0xF0) := by
    decide
  exact hall n h

theorem shift_or (a b k : Nat) (h : b < 2 ^ k) : a <<< k ||| b = a * 2 ^ k + b := by
  rw [← Nat.shiftLeft_add_eq_or_of_lt h, Nat.shiftLeft_eq]

theorem and_63 (v : Nat) : v &&& 0x3F = v % 64 := Nat.and_two_pow_sub_one_eq_mod v 6

theorem shift_div (v : Nat) : v >>> 6 = v / 64 ∧ v >>> 12 = v / 4096 ∧ v >>> 18 = v / 262144 :=
  ⟨Nat.shiftRight_eq_div_pow v 6, Nat.shiftRight_eq_div_pow v 12, Nat.shiftRight_eq_div_pow v 18⟩

set_option maxRecDepth 10000 in
theorem utf8Decode_encode (h : utf8Encode 4 v = some bytes) :
    utf8Decode (bytes ++ rest) = some (v, rest) := by
  simp only [utf8Encode, and_63, shift_div] at h
  split_ifs at h with h1 h2 h3 h4
  · cases h
    have hall : ∀ n < 128, UInt8.ofNat n &&& 0x80 = 0 ∧ (UInt8.ofNat n).toNat = n := by
      decide
    obtain ⟨hlow, hnat⟩ := hall v (by omega)
    simp [utf8Decode, hlow, hnat]
  · cases h
    obtain ⟨hs, hl, hb, -⟩ := marked_two (show v / 64 < 32 by omega)
    obtain ⟨-, ht, hc, -⟩ := marked_tail (show v % 64 < 64 by omega)
    simp only [List.cons_append, List.nil_append, utf8Decode, hs, hl, hb, ht, hc, if_false, if_true,
      ne_eq, not_true_eq_false, shift_or _ _ 6 (show v % 64 < 2 ^ 6 by omega), Option.some.injEq,
      Prod.mk.injEq, and_true]
    omega
  · cases h
    obtain ⟨hs, hl, hm, hb, -⟩ := marked_three (show v / 4096 < 16 by omega)
    obtain ⟨-, ht, hc, -⟩ := marked_tail (show v / 64 % 64 < 64 by omega)
    obtain ⟨-, ht', hc', -⟩ := marked_tail (show v % 64 < 64 by omega)
    simp only [List.cons_append, List.nil_append, utf8Decode, hs, hl, hm, hb, ht, hc, ht', hc',
      if_false, if_true, ne_eq, not_true_eq_false,
      shift_or _ _ 6 (show v % 64 < 2 ^ 6 by omega),
      shift_or _ _ 12 (show v / 64 % 64 * 2 ^ 6 + v % 64 < 2 ^ 12 by omega), Option.some.injEq,
      Prod.mk.injEq, and_true]
    omega
  · cases h
    obtain ⟨hs, hl, hm, hf, hb, -⟩ := marked_four (show v / 262144 < 8 by omega)
    obtain ⟨-, ht, hc, -⟩ := marked_tail (show v / 4096 % 64 < 64 by omega)
    obtain ⟨-, ht', hc', -⟩ := marked_tail (show v / 64 % 64 < 64 by omega)
    obtain ⟨-, ht'', hc'', -⟩ := marked_tail (show v % 64 < 64 by omega)
    simp only [List.cons_append, List.nil_append, utf8Decode, hs, hl, hm, hf, hb, ht, hc, ht', hc',
      ht'', hc'', if_false, if_true, ne_eq, not_true_eq_false,
      shift_or _ (v % 64) 6 (show v % 64 < 2 ^ 6 by omega),
      shift_or _ (v / 64 % 64) 6 (show v / 64 % 64 < 2 ^ 6 by omega),
      shift_or _ _ 18 (show (v / 4096 % 64 * 2 ^ 6 + v / 64 % 64) * 2 ^ 6 + v % 64 < 2 ^ 18 by
        omega), Option.some.injEq, Prod.mk.injEq, and_true]
    omega

theorem utf8Encode_char (c : Char) : utf8Encode 4 c.val.toNat = some (String.utf8EncodeChar c) := by
  have hbound : c.val.toNat < 0x110000 := by
    have hvalid := c.valid
    simp only [UInt32.isValidChar, Nat.isValidChar] at hvalid
    omega
  generalize hv : c.val.toNat = v at hbound
  simp only [utf8Encode, String.utf8EncodeChar, hv, and_63, shift_div]
  by_cases h1 : v ≤ 0x7F
  · simp [h1]
  · by_cases h2 : v ≤ 0x7FF
    · obtain ⟨-, -, -, hlead⟩ := marked_two (show v / 64 < 32 by omega)
      obtain ⟨-, -, -, htail⟩ := marked_tail (show v % 64 < 64 by omega)
      simp [h1, h2, hlead, htail]
    · by_cases h3 : v ≤ 0xFFFF
      · obtain ⟨-, -, -, -, hlead⟩ := marked_three (show v / 4096 < 16 by omega)
        obtain ⟨-, -, -, htail⟩ := marked_tail (show v / 64 % 64 < 64 by omega)
        obtain ⟨-, -, -, htail'⟩ := marked_tail (show v % 64 < 64 by omega)
        simp [h1, h2, h3, hlead, htail, htail']
      · obtain ⟨-, -, -, -, -, hlead⟩ := marked_four (show v / 262144 < 8 by omega)
        obtain ⟨-, -, -, htail⟩ := marked_tail (show v / 4096 % 64 < 64 by omega)
        obtain ⟨-, -, -, htail'⟩ := marked_tail (show v / 64 % 64 < 64 by omega)
        obtain ⟨-, -, -, htail''⟩ := marked_tail (show v % 64 < 64 by omega)
        have h4 : v ≤ 0x1FFFFF := by omega
        simp [h1, h2, h3, h4, hlead, htail, htail', htail'']

end Utf8

section Rooms

variable {size : Nat} {illegal : List UInt8} {esc : UInt8}

theorem roomy_ofChars {char : UInt8 → Option (List UInt8 × (Nat → Nat → Bool))}
    (hchar : ∀ ch bytes room, char ch = some (bytes, room) →
      bytes ≠ [] ∧ (room = always ∨ room = roomFor bytes.length)) :
    Roomy (.ofChars moreText char) size := by
  constructor
  intro source p n hnext hfit
  cases source with
  | nil => cases hnext
  | cons ch rest =>
    cases hch : char ch with
    | none => simp [Coder.ofChars, hch] at hnext
    | some r =>
      obtain ⟨bytes, room⟩ := r
      simp only [Coder.ofChars, hch, Next.piece.injEq] at hnext
      subst hnext
      obtain ⟨hne, hroom⟩ := hchar ch bytes room hch
      have hpos := List.length_pos_of_ne_nil hne
      simp only at hfit
      refine ⟨moreText_iff.mpr (by omega), ?_⟩
      rcases hroom with rfl | rfl
      · rfl
      · exact roomFor_iff.mpr hfit

theorem roomy_of_single {next : List UInt8 → Next UInt8 UInt8}
    {front : ∀ source p, next source = .piece p → ∃ f, Front next source p f}
    (h : ∀ source p, next source = .piece p → p.bytes ≠ [] ∧ p.room = always) :
    Roomy ⟨moreText, next, front⟩ size := by
  constructor
  intro source p n hnext hfit
  obtain ⟨hne, hroom⟩ := h source p hnext
  have hpos := List.length_pos_of_ne_nil hne
  refine ⟨moreText_iff.mpr (by omega), ?_⟩
  rw [hroom]
  rfl

theorem roomy_escape : Roomy (escape illegal esc) size := by
  apply roomy_ofChars
  intro ch bytes room h
  split at h <;> cases h
  · exact ⟨by simp, .inr rfl⟩
  · exact ⟨by simp, .inl rfl⟩

theorem roomy_encode : Roomy (encode illegal esc) size := by
  apply roomy_ofChars
  intro ch bytes room h
  split at h <;> cases h
  · exact ⟨by simp, .inl rfl⟩
  · exact ⟨by simp [hexEscape], .inr rfl⟩

theorem roomy_urlEncode : Roomy urlEncode size := by
  apply roomy_ofChars
  intro ch bytes room h
  split at h <;> cases h
  · exact ⟨by simp [hexEscape], .inr rfl⟩
  · exact ⟨by simp, .inl rfl⟩

theorem xmlEscape_ne_nil {ch : UInt8} {text : List UInt8} (h : xmlEscape ch = some text) :
    text ≠ [] := by
  simp only [xmlEscape] at h
  split_ifs at h <;> cases h <;> decide

theorem roomy_xmlEncode : Roomy xmlEncode size := by
  apply roomy_ofChars
  intro ch bytes room h
  split at h
  · obtain ⟨text, htext, heq⟩ := Option.map_eq_some_iff.mp h
    cases heq
    exact ⟨xmlEscape_ne_nil htext, .inr rfl⟩
  · cases h
    exact ⟨by simp, .inl rfl⟩

theorem roomy_htmlEncode : Roomy htmlEncode size := by
  constructor
  intro source p n hnext hfit
  cases source with
  | nil => cases hnext
  | cons ch rest =>
    obtain ⟨q, hq, hne, hroom⟩ := htmlEncode_cases ch rest
    cases hq.symm.trans hnext
    have hpos := List.length_pos_of_ne_nil hne
    refine ⟨moreText_iff.mpr (by omega), ?_⟩
    rcases hroom with ⟨-, halways⟩ | hroomy
    · rw [halways]
      rfl
    · rw [hroomy]
      exact roomFor_iff.mpr hfit

theorem roomy_unescape : Roomy (unescape esc) size := by
  apply roomy_of_single
  intro source p h
  match source with
  | [] => cases h
  | [ch] =>
    cases h
    exact ⟨by simp, rfl⟩
  | ch :: after :: rest =>
    simp only [unescapeNext] at h
    split at h <;> cases h <;> exact ⟨by simp, rfl⟩

theorem roomy_decode : Roomy (decode esc) size := by
  apply roomy_of_single
  intro source p h
  cases source with
  | nil => cases h
  | cons ch rest =>
    simp only [decodeNext] at h
    split at h <;> cases h <;> exact ⟨by simp, rfl⟩

theorem roomy_urlDecode : Roomy urlDecode size := by
  apply roomy_of_single
  intro source p h
  cases source with
  | nil => cases h
  | cons ch rest =>
    simp only [urlDecodeNext] at h
    split at h
    · cases h
      exact ⟨by simp, rfl⟩
    · split at h <;> cases h <;> exact ⟨by simp, rfl⟩

theorem roomy_internalUrlDecode {spaceAsPlus : Bool} :
    Roomy (internalUrlDecoder spaceAsPlus) size := by
  constructor
  intro source p n hnext _
  refine ⟨rfl, ?_⟩
  cases source with
  | nil => cases hnext
  | cons ch rest =>
    simp only [internalUrlDecoder, internalUrlDecodeNext] at hnext
    repeat' split at hnext
    all_goals
      cases hnext
      rfl

end Rooms

section Inverses

variable {illegal : List UInt8} {esc ch : UInt8}

set_option maxRecDepth 10000 in
theorem pairValue_digitPair (ch : UInt8) : pairValue hexDecode (digitPair ch) = some ch := by
  have hall : ∀ n < 256,
      pairValue hexDecode (digitPair (UInt8.ofNat n)) = some (UInt8.ofNat n) := by
    decide
  have hch := hall ch.toNat ch.toNat_lt
  rwa [UInt8.ofNat_toNat] at hch

theorem hexPair_digitPair (ch : UInt8) (tail : List UInt8) :
    hexPair ((digitPair ch).1 :: (digitPair ch).2 :: tail) = some (ch, tail) := by
  have hvalue := pairValue_digitPair ch
  simp only [pairValue] at hvalue
  cases ha : hexDecode (digitPair ch).1 with
  | none => simp [ha] at hvalue
  | some h1 =>
    cases hb : hexDecode (digitPair ch).2 with
    | none => simp [ha, hb] at hvalue
    | some h2 =>
      simp only [ha, hb, Option.bind_some, Option.map_some, Option.some.injEq] at hvalue
      simp [hexPair, ha, hb, hvalue]

theorem decode_hexEscape (esc ch : UInt8) (tail : List UInt8) :
    decodeNext esc (hexEscape esc ch ++ tail) = .piece ⟨[ch], tail, always⟩ := by
  have hpair := hexPair_digitPair ch tail
  simp only [digitPair] at hpair
  simp [hexEscape, decodeNext, hpair]

theorem inverse_escape : Inverse (escape illegal esc) (unescape esc) (fun _ => True) 2 := by
  constructor
  intro source _ hne
  cases source with
  | nil => exact absurd rfl hne
  | cons ch rest =>
    by_cases h : (ch = esc || strchr illegal ch) = true
    · refine ⟨⟨[esc, ch], rest, roomFor 2⟩, [ch], ?_, rfl, trivial, by simp, ?_⟩
      · simp only [escape, Coder.ofChars, if_pos h]
      · intro tail
        exact ⟨⟨[ch], tail, always⟩, by simp [unescape, unescapeNext], rfl, rfl⟩
    · refine ⟨⟨[ch], rest, always⟩, [ch], ?_, rfl, trivial, by simp, ?_⟩
      · simp only [escape, Coder.ofChars, if_neg h]
      · intro tail
        have hch : ch ≠ esc := by
          rintro rfl
          simp at h
        cases tail with
        | nil => exact ⟨⟨[ch], [], always⟩, rfl, rfl, rfl⟩
        | cons after tail =>
          exact ⟨⟨[ch], after :: tail, always⟩, by simp [unescape, unescapeNext, hch], rfl, rfl⟩

theorem inverse_encode : Inverse (encode illegal esc) (decode esc) (fun _ => True) 3 := by
  constructor
  intro source _ hne
  cases source with
  | nil => exact absurd rfl hne
  | cons ch rest =>
    by_cases h : (ch ≠ esc && !strchr illegal ch) = true
    · refine ⟨⟨[ch], rest, always⟩, [ch], ?_, rfl, trivial, by simp, ?_⟩
      · simp only [encode, Coder.ofChars, if_pos h]
      · intro tail
        have hch : ch ≠ esc := by
          rintro rfl
          simp at h
        exact ⟨⟨[ch], tail, always⟩, by simp [decode, decodeNext, hch], rfl, rfl⟩
    · refine ⟨⟨hexEscape esc ch, rest, roomFor 3⟩, [ch], ?_, rfl, trivial, by simp [hexEscape], ?_⟩
      · simp only [encode, Coder.ofChars, if_neg h]
      · intro tail
        exact ⟨⟨[ch], tail, always⟩, decode_hexEscape esc ch tail, rfl, rfl⟩

theorem inverse_url : Inverse urlEncode urlDecode (fun _ => True) 3 := by
  constructor
  intro source _ hne
  cases source with
  | nil => exact absurd rfl hne
  | cons ch rest =>
    by_cases h : (ch < 128 && hasClass urlUnsafe ch) = true
    · refine ⟨⟨hexEscape 0x25 ch, rest, roomFor 3⟩, [ch], ?_, rfl, trivial, by simp [hexEscape], ?_⟩
      · simp only [urlEncode, Coder.ofChars, if_pos h]
      · intro tail
        refine ⟨⟨[ch], tail, always⟩, ?_, rfl, rfl⟩
        have hdecode := decode_hexEscape 0x25 ch tail
        simpa [urlDecode, urlDecodeNext, hexEscape, decodeNext] using hdecode
    · refine ⟨⟨[ch], rest, always⟩, [ch], ?_, rfl, trivial, by simp, ?_⟩
      · simp only [urlEncode, Coder.ofChars, if_neg h]
      · intro tail
        have hplus : ch ≠ 0x2B := by
          rintro rfl
          exact h rfl
        have hpercent : ch ≠ 0x25 := by
          rintro rfl
          exact h rfl
        exact ⟨⟨[ch], tail, always⟩, by simp [urlDecode, urlDecodeNext, hplus, hpercent], rfl, rfl⟩

theorem xmlDecode_escape {text : List UInt8} (h : xmlEscape ch = some text) (tail : List UInt8) :
    text.length ≤ 6 ∧ xmlDecodeNext (text ++ tail) = .piece ⟨[ch], tail, always⟩ := by
  simp only [xmlEscape] at h
  split_ifs at h with h1 h2 h3 h4 h5 <;> cases h <;> subst ch <;> exact ⟨by decide, rfl⟩

theorem xmlDecode_plain (h : ¬ (ch < 128 && hasClass xmlUnsafe ch) = true) (tail : List UInt8) :
    xmlDecodeNext (ch :: tail) = .piece ⟨[ch], tail, always⟩ := by
  have hch : ch ≠ 0x26 := by
    rintro rfl
    exact h rfl
  simp [xmlDecodeNext, hch]

theorem inverse_xml : Inverse xmlEncode xmlDecode (fun _ => True) 6 := by
  constructor
  intro source _ hne
  cases source with
  | nil => exact absurd rfl hne
  | cons ch rest =>
    by_cases h : (ch < 128 && hasClass xmlUnsafe ch) = true
    · have hclass : hasClass xmlUnsafe ch = true := (Bool.and_eq_true _ _ ▸ h).2
      obtain ⟨text, htext⟩ := Option.isSome_iff_exists.mp (escapes_of_class hclass).1
      refine ⟨⟨text, rest, roomFor text.length⟩, [ch], ?_, rfl, trivial, ?_, ?_⟩
      · simp only [xmlEncode, Coder.ofChars, if_pos h, htext, Option.map_some, sequence]
      · simpa using (xmlDecode_escape htext []).1
      · intro tail
        exact ⟨⟨[ch], tail, always⟩, (xmlDecode_escape htext tail).2, rfl, rfl⟩
    · refine ⟨⟨[ch], rest, always⟩, [ch], ?_, rfl, trivial, by simp, ?_⟩
      · simp only [xmlEncode, Coder.ofChars, if_neg h]
      · intro tail
        exact ⟨⟨[ch], tail, always⟩, xmlDecode_plain h tail, rfl, rfl⟩

theorem htmlDecode_escape {text : List UInt8} (h : htmlEscape ch = some text) (tail : List UInt8) :
    text.length ≤ 6 ∧ ∃ q, xmlDecodeNext (text ++ tail) = .piece q ∧ q.bytes = [ch] ∧
      q.rest = tail := by
  simp only [htmlEscape] at h
  split_ifs at h with h1 h2 h3 h4 h5 <;> cases h <;> subst ch <;>
    exact ⟨by decide, _, rfl, rfl, rfl⟩

set_option maxRecDepth 10000 in
theorem utf8Encode_lead {v : Nat} {bytes : List UInt8} (h : utf8Encode 4 v = some bytes)
    (hv : 0x7F < v) : ∃ lead more, bytes = lead :: more ∧ ¬ lead < 128 ∧ 1 ≤ more.length := by
  have hall : ∀ n < 256, UInt8.ofNat n &&& 0x80 ≠ 0 → ¬ UInt8.ofNat n < 128 := by decide
  have hhigh : ∀ lead : UInt8, lead &&& 0x80 ≠ 0 → ¬ lead < 128 := by
    intro lead
    have hlead := hall lead.toNat lead.toNat_lt
    rwa [UInt8.ofNat_toNat] at hlead
  simp only [utf8Encode, and_63, shift_div] at h
  split_ifs at h with h1 h2 h3 h4
  · omega
  · cases h
    exact ⟨_, _, rfl, hhigh _ (marked_two (by omega)).1, by simp⟩
  · cases h
    exact ⟨_, _, rfl, hhigh _ (marked_three (by omega)).1, by simp⟩
  · cases h
    exact ⟨_, _, rfl, hhigh _ (marked_four (by omega)).1, by simp⟩

theorem xmlDecode_numeric {v : Nat} {bytes : List UInt8} (h : utf8Encode 4 v = some bytes)
    (hv : v < 2 ^ 64) (tail : List UInt8) : ∃ q,
    xmlDecodeNext (numericReference v ++ tail) = .piece q ∧ q.bytes = bytes ∧ q.rest = tail := by
  have htext : numericReference v ++ tail = 0x26 :: 0x23 :: (decimalBytes v ++ 0x3B :: tail) := by
    show stringBytes "&#" ++ decimalBytes v ++ stringBytes ";" ++ tail = _
    have hstart : stringBytes "&#" = [0x26, 0x23] := by decide
    have hend : stringBytes ";" = [0x3B] := by decide
    simp [hstart, hend]
  have hnumber : NumberText (decimalBytes v ++ 0x3B :: tail) 10 (decimalBytes v ++ 0x3B :: tail) := by
    refine .inr ⟨rfl, rfl, ?_⟩
    cases hdigits : decimalBytes v with
    | nil => exact absurd hdigits (decimalBytes_ne_nil v)
    | cons c more =>
      have hc : isDigitByte c = true := isDigitByte_decimalBytes (hdigits ▸ List.mem_cons_self)
      simp only [List.cons_append, List.head?_cons, ne_eq, Option.some.injEq]
      rintro rfl
      cases hc
  have hscan : strtoul 10 (decimalBytes v ++ 0x3B :: tail) = some (v, 0x3B :: tail) := by
    have hsemicolon : ∀ c ∈ (0x3B :: tail).head?, isDigitByte c = false := by
      rintro c ⟨⟩
      decide
    rw [strtoul_digits (decimalBytes_ne_nil v) (fun _ => isDigitByte_decimalBytes) hsemicolon
      (by simp), decimal_decimalBytes, clip, if_neg (by omega)]
    rfl
  refine ⟨⟨bytes, tail, fun bufpos buflen => (utf8Encode (buflen - bufpos) v).isSome⟩, ?_, rfl, rfl⟩
  rw [htext, xmlDecode_reference hnumber]
  simp only [xmlReference, hscan, h]

def ValidUtf8 (text : List UInt8) : Prop := ∃ cs : List Char, text = cs.flatMap String.utf8EncodeChar

theorem inverse_html : Inverse htmlEncode htmlDecode ValidUtf8 6 := by
  constructor
  rintro source ⟨cs, rfl⟩ hne
  cases cs with
  | nil => exact absurd rfl hne
  | cons c cs =>
    rw [List.flatMap_cons]
    have hvalid : ValidUtf8 (cs.flatMap String.utf8EncodeChar) := ⟨cs, rfl⟩
    generalize cs.flatMap String.utf8EncodeChar = rest at hvalid
    have hencode := utf8Encode_char c
    have hbound : c.val.toNat < 10000000 := by
      have hchar := c.valid
      simp only [UInt32.isValidChar, Nat.isValidChar] at hchar
      omega
    by_cases hascii : c.val.toNat ≤ 0x7F
    · generalize hch : UInt8.ofNat c.val.toNat = ch
      have hone : String.utf8EncodeChar c = [ch] := by
        rw [String.utf8EncodeChar, if_pos hascii, hch]
      have hlow : ch < 128 := by
        rw [← hch, UInt8.lt_iff_toNat_lt, UInt8.toNat_ofNat']
        show c.val.toNat % 2 ^ 8 < 128
        omega
      rw [hone, List.singleton_append]
      by_cases h : hasClass htmlUnsafe ch = true
      · obtain ⟨text, htext⟩ := Option.isSome_iff_exists.mp (escapes_of_class h).2
        refine ⟨⟨text, rest, roomFor text.length⟩, [ch], ?_, rfl, hvalid, ?_, ?_⟩
        · simp [htmlEncode, htmlEncodeNext, hlow, h, htext]
        · simpa using (htmlDecode_escape htext []).1
        · exact fun tail => (htmlDecode_escape htext tail).2
      · refine ⟨⟨[ch], rest, always⟩, [ch], ?_, rfl, hvalid, by simp, ?_⟩
        · simp [htmlEncode, htmlEncodeNext, hlow, h]
        · intro tail
          have hplain : ¬ (ch < 128 && hasClass xmlUnsafe ch) = true := by
            rw [Bool.and_eq_true]
            exact fun hboth => h hboth.2
          exact ⟨⟨[ch], tail, always⟩, xmlDecode_plain hplain tail, rfl, rfl⟩
    · obtain ⟨lead, more, hsplit, hlead, hmore⟩ := utf8Encode_lead hencode (by omega)
      have hdecode : utf8Decode (lead :: (more ++ rest)) = some (c.val.toNat, rest) := by
        rw [← List.cons_append, ← hsplit]
        exact utf8Decode_encode hencode
      refine ⟨⟨numericReference c.val.toNat, rest, roomFor (numericReference c.val.toNat).length⟩,
        String.utf8EncodeChar c, ?_, rfl, hvalid, ?_, ?_⟩
      · rw [hsplit, List.cons_append]
        simp [htmlEncode, htmlEncodeNext, hlead, hdecode]
      · have hdigits : (decimalBytes c.val.toNat).length ≤ 7 := by
          rw [decimalBytes, List.length_map, Nat.length_toDigits_le_iff (by omega) (by omega)]
          omega
        have hlen : (numericReference c.val.toNat).length =
            2 + (decimalBytes c.val.toNat).length + 1 := by
          rw [numericReference, List.length_append, List.length_append]
          rfl
        show (numericReference c.val.toNat).length ≤ 6 * (String.utf8EncodeChar c).length
        rw [hsplit, List.length_cons]
        omega
      · exact fun tail => xmlDecode_numeric hencode (by omega) tail

end Inverses

end Libjingle.Text
