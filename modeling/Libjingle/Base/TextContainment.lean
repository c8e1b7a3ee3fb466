import Libjingle.Base.HexText
import Libjingle.Base.UrlEncode

/-! Which transforms stay in their buffers. -/

namespace Libjingle.Text

open Transcoder

/-- The transforms that are loops over pieces. -/
inductive TextLoop
  | escape (illegal : List UInt8) (esc : UInt8)
  | unescape (esc : UInt8)
  | encode (illegal : List UInt8) (esc : UInt8)
  | decode (esc : UInt8)
  | urlEncode
  | urlDecode
  | htmlEncode
  | xmlEncode
  | xmlDecode
  | internalUrlEncode (spaceAsPlus unsafeOnly : Bool)

namespace TextLoop

def coder : TextLoop → Coder UInt8 UInt8
  | escape illegal esc => Text.escape illegal esc
  | unescape esc => Text.unescape esc
  | encode illegal esc => Text.encode illegal esc
  | decode esc => Text.decode esc
  | urlEncode => Text.urlEncode
  | urlDecode => Text.urlDecode
  | htmlEncode => Text.htmlEncode
  | xmlEncode => Text.xmlEncode
  | xmlDecode => Text.xmlDecode
  | internalUrlEncode spaceAsPlus unsafeOnly => internalUrlEncoder spaceAsPlus unsafeOnly

/-- The source of a loop, which may be a C string. -/
def source : TextLoop → List UInt8 → List UInt8
  | internalUrlEncode _ _, text => cString text
  | _, text => text

end TextLoop

inductive Transform
  | loop (l : TextLoop)
  | hexEncode (delimiter : UInt8)
  | hexDecode (delimiter : UInt8)

namespace Transform

def run : Transform → List UInt8 → List UInt8 → Except Fault (Nat × List UInt8)
  | loop l, text, buffer => Transcoder.run l.coder 0 (l.source text) buffer
  | hexEncode delimiter, text, buffer => hexEncodeWithDelimiter delimiter text buffer
  | hexDecode delimiter, text, buffer => hexDecodeWithDelimiter delimiter text buffer

def source : Transform → List UInt8 → List UInt8
  | loop l, text => l.source text
  | _, text => text

def isText : Transform → Bool
  | hexDecode _ => false
  | _ => true

def Reads : Transform → List UInt8 → List UInt8 → List UInt8 → Prop
  | loop l, text, out, rest => Transcoder.Reads l.coder text out rest
  | hexEncode delimiter, text, out, rest =>
    ∃ front, text = front ++ rest ∧ out = joined delimiter (front.map digitPair)
  | hexDecode delimiter, text, out, rest => out = [] ∧ rest = text ∨
    rest = [] ∧ SpelledBytes Text.hexDecode delimiter text out

/-- In a buffer of some size, whatever is in it, the transform of a prefix is written, with a
terminator for a text, and nothing is written or read outside. -/
def Contained (t : Transform) (text : List UInt8) (size : Nat) : Prop :=
  ∀ buffer, buffer.length = size → ∃ n b, t.run text buffer = .ok (n, b) ∧ b.length = size ∧
    n ≤ size ∧ (t.isText = true → b[n]? = some 0) ∧
    ∃ front rest, t.source text = front ++ rest ∧ t.Reads (t.source text) (b.take n) rest ∧
      t.Reads front (b.take n) []

end Transform

/-- The base of a numeric reference, after its `#`, and the text of its number. -/
def NumberText (ref : List UInt8) (base : Nat) (digits : List UInt8) : Prop :=
  base = 16 ∧ ref = 0x78 :: digits ∨ base = 10 ∧ ref = digits ∧ digits.head? ≠ some 0x78

/-- A numeric reference that `xml_decode` gets to ends in the source, and the character that it
stands for does not fill the buffer to its end. -/
def ReferencesFit (text : List UInt8) (size : Nat) : Prop :=
  ∀ out base digits ref, Reads xmlDecode text out (0x26 :: 0x23 :: ref) → out.length + 1 < size →
    NumberText ref base digits → ∃ val rest, strtoul base digits = some (val, rest) ∧
      ∀ bytes, rest.head? = some 0x3B → utf8Encode 4 val = some bytes →
        out.length + bytes.length ≠ size

def urlText (spaceAsPlus unsafeOnly : Bool) (text : List UInt8) : List UInt8 :=
  text.flatMap fun ch => (internalUrlChar spaceAsPlus unsafeOnly ch).1

/-- No character that is not escaped fills the buffer to its end, and no escape sequence comes
where the test for its place wraps around. -/
def CharsFit (spaceAsPlus unsafeOnly : Bool) (text : List UInt8) (size : Nat) : Prop :=
  ∀ front ch rest, text = front ++ ch :: rest →
    (urlText spaceAsPlus unsafeOnly front).length < size →
    if (internalUrlChar spaceAsPlus unsafeOnly ch).1.length = 1 then
      (urlText spaceAsPlus unsafeOnly front).length + 1 ≠ size
    else (urlText spaceAsPlus unsafeOnly front).length + 4 < 2 ^ 32

def Transform.Fits : Transform → List UInt8 → Nat → Prop
  | .loop .xmlDecode, text, size => ReferencesFit text size
  | .loop (.internalUrlEncode spaceAsPlus unsafeOnly), text, size =>
    CharsFit spaceAsPlus unsafeOnly (cString text) size
  | .hexEncode delimiter, text, size =>
    (if delimiter ≠ 0 then text.length * 3 else text.length * 2 + 1) ≤ size
  | _, _, _ => True

section Rooms

variable {n size count : Nat}

theorem moreText_iff : moreText n size = true ↔ n + 1 < size := by simp [moreText]

theorem roomFor_iff : roomFor count n size = true ↔ n + count < size := by simp [roomFor]

end Rooms

section Loops

variable {size : Nat} {illegal : List UInt8} {esc : UInt8}

theorem snug_ofChars {char : UInt8 → Option (List UInt8 × (Nat → Nat → Bool))}
    (hchar : ∀ ch, ∃ bytes room, char ch = some (bytes, room) ∧
      (bytes.length = 1 ∨ room = roomFor bytes.length)) :
    Snug (.ofChars moreText char) size := by
  constructor
  · intro source f hne hnext
    cases source with
    | nil => exact hne rfl
    | cons ch rest =>
      obtain ⟨bytes, room, hch, -⟩ := hchar ch
      simp [Coder.ofChars, hch] at hnext
  · intro source p n hnext hmore hroom
    cases source with
    | nil => cases hnext
    | cons ch rest =>
      obtain ⟨bytes, room, hch, hfit⟩ := hchar ch
      simp only [Coder.ofChars, hch, Next.piece.injEq] at hnext
      subst hnext
      rcases hfit with hone | rfl
      · rw [hone]
        exact moreText_iff.mp hmore
      · exact roomFor_iff.mp hroom

theorem snug_escape : Snug (escape illegal esc) size := by
  apply snug_ofChars
  intro ch
  by_cases h : (ch = esc || strchr illegal ch) = true
  · exact ⟨[esc, ch], roomFor 2, by rw [if_pos h], .inr rfl⟩
  · exact ⟨[ch], always, by rw [if_neg h], .inl rfl⟩

theorem snug_encode : Snug (encode illegal esc) size := by
  apply snug_ofChars
  intro ch
  by_cases h : (ch ≠ esc && !strchr illegal ch) = true
  · exact ⟨[ch], always, by rw [if_pos h], .inl rfl⟩
  · exact ⟨hexEscape esc ch, roomFor 3, by rw [if_neg h], .inr rfl⟩

theorem snug_urlEncode : Snug urlEncode size := by
  apply snug_ofChars
  intro ch
  by_cases h : (ch < 128 && hasClass urlUnsafe ch) = true
  · exact ⟨hexEscape 0x25 ch, roomFor 3, by rw [if_pos h], .inr rfl⟩
  · exact ⟨[ch], always, by rw [if_neg h], .inl rfl⟩

set_option maxRecDepth 10000 in
theorem escapes_of_class {ch : UInt8} (hclass : hasClass xmlUnsafe ch = true) :
    (xmlEscape ch).isSome = true ∧ (htmlEscape ch).isSome = true := by
  have hall : ∀ n < 256, hasClass xmlUnsafe (UInt8.ofNat n) = true →
      (xmlEscape (UInt8.ofNat n)).isSome = true ∧ (htmlEscape (UInt8.ofNat n)).isSome = true := by
    decide
  have hch := hall ch.toNat ch.toNat_lt
  rw [UInt8.ofNat_toNat] at hch
  exact hch hclass

theorem snug_xmlEncode : Snug xmlEncode size := by
  apply snug_ofChars
  intro ch
  by_cases h : (ch < 128 && hasClass xmlUnsafe ch) = true
  · have hclass : hasClass xmlUnsafe ch = true := (Bool.and_eq_true _ _ ▸ h).2
    obtain ⟨text, htext⟩ := Option.isSome_iff_exists.mp (escapes_of_class hclass).1
    exact ⟨text, roomFor text.length, by rw [if_pos h, htext]; rfl, .inr rfl⟩
  · exact ⟨[ch], always, by rw [if_neg h], .inl rfl⟩

theorem htmlEncode_cases (ch : UInt8) (rest : List UInt8) : ∃ p,
    htmlEncodeNext (ch :: rest) = .piece p ∧ p.bytes ≠ [] ∧
      (p.bytes.length = 1 ∧ p.room = always ∨ p.room = roomFor p.bytes.length) := by
  have hne : ∀ text, htmlEscape ch = some text → text ≠ [] := by
    intro text htext
    simp only [htmlEscape] at htext
    split_ifs at htext <;> cases htext <;> decide
  by_cases hascii : ch < 128
  · by_cases hclass : hasClass htmlUnsafe ch = true
    · obtain ⟨text, htext⟩ := Option.isSome_iff_exists.mp (escapes_of_class hclass).2
      exact ⟨⟨text, rest, roomFor text.length⟩, by simp [htmlEncodeNext, hascii, hclass, htext],
        hne text htext, .inr rfl⟩
    · exact ⟨⟨[ch], rest, always⟩, by simp [htmlEncodeNext, hascii, hclass], by simp,
        .inl ⟨rfl, rfl⟩⟩
  · have hend : stringBytes ";" ≠ [] := by decide
    exact ⟨_, by rw [htmlEncodeNext, if_neg hascii],
      List.append_ne_nil_of_right_ne_nil _ hend, .inr rfl⟩

theorem snug_htmlEncode : Snug htmlEncode size := by
  constructor
  · intro source f hne hnext
    cases source with
    | nil => exact hne rfl
    | cons ch rest =>
      obtain ⟨p, hp, -⟩ := htmlEncode_cases ch rest
      cases hp.symm.trans hnext
  · intro source p n hnext hmore hroom
    cases source with
    | nil => cases hnext
    | cons ch rest =>
      obtain ⟨q, hq, -, hfit⟩ := htmlEncode_cases ch rest
      cases hq.symm.trans hnext
      rcases hfit with ⟨hone, -⟩ | hroomy
      · rw [hone]
        exact moreText_iff.mp hmore
      · rw [hroomy] at hroom
        exact roomFor_iff.mp hroom

theorem snug_of_single {next : List UInt8 → Next UInt8 UInt8}
    {front : ∀ source p, next source = .piece p → ∃ f, Front next source p f}
    (h : ∀ ch rest, ∃ p, next (ch :: rest) = .piece p ∧ p.bytes.length = 1) :
    Snug ⟨moreText, next, front⟩ size := by
  constructor
  · intro source f hne hnext
    cases source with
    | nil => exact hne rfl
    | cons ch rest =>
      obtain ⟨p, hp, -⟩ := h ch rest
      cases hp.symm.trans hnext
  · intro source p n hnext hmore hroom
    cases source with
    | nil =>
      obtain ⟨f, hf⟩ := front [] p hnext
      have hnil := hf.split
      simp [hf.ne_nil] at hnil
    | cons ch rest =>
      obtain ⟨q, hq, hone⟩ := h ch rest
      cases hq.symm.trans hnext
      rw [hone]
      exact moreText_iff.mp hmore

theorem snug_unescape : Snug (unescape esc) size := by
  apply snug_of_single
  intro ch rest
  cases rest with
  | nil => exact ⟨_, rfl, rfl⟩
  | cons after rest =>
    by_cases hch : ch = esc
    · exact ⟨⟨[after], rest, always⟩, if_pos hch, rfl⟩
    · exact ⟨⟨[ch], after :: rest, always⟩, if_neg hch, rfl⟩

theorem decodeNext_single (ch : UInt8) (rest : List UInt8) :
    ∃ p, decodeNext esc (ch :: rest) = .piece p ∧ p.bytes.length = 1 := by
  cases hpair : if ch = esc then hexPair rest else none with
  | none => exact ⟨⟨[ch], rest, always⟩, by simp only [decodeNext, hpair], rfl⟩
  | some r => exact ⟨⟨[r.1], r.2, always⟩, by simp only [decodeNext, hpair], rfl⟩

theorem snug_decode : Snug (decode esc) size := snug_of_single decodeNext_single

theorem snug_urlDecode : Snug urlDecode size := by
  apply snug_of_single
  intro ch rest
  by_cases hplus : ch = 0x2B
  · exact ⟨⟨[0x20], rest, always⟩, if_pos hplus, rfl⟩
  · have hdecode : ∃ p, decodeNext 0x25 (ch :: rest) = .piece p ∧ p.bytes.length = 1 :=
      decodeNext_single ch rest
    obtain ⟨p, hp, hone⟩ := hdecode
    exact ⟨p, (if_neg hplus).trans hp, hone⟩

end Loops

section References

variable {size val : Nat} {bytes : List UInt8} {text out : List UInt8}

theorem utf8Encode_room {n : Nat} (h : utf8Encode 4 val = some bytes) :
    (utf8Encode n val).isSome = true ↔ bytes.length ≤ n := by
  simp only [utf8Encode] at h ⊢
  split_ifs at h ⊢ <;> simp_all <;> subst h <;> simp <;> omega

theorem utf8Encode_length (h : utf8Encode 4 val = some bytes) : 0 < bytes.length := by
  simp only [utf8Encode] at h
  split_ifs at h <;> cases h <;> simp

theorem numberText_total (ref : List UInt8) : ∃ base digits, NumberText ref base digits := by
  by_cases hx : ref.head? = some 0x78
  · cases ref with
    | nil => cases hx
    | cons c digits =>
      obtain rfl : c = 0x78 := by simpa using hx
      exact ⟨16, digits, .inl ⟨rfl, rfl⟩⟩
  · exact ⟨10, ref, .inr ⟨rfl, rfl, hx⟩⟩

theorem xmlDecode_reference {ref digits : List UInt8} {base : Nat}
    (h : NumberText ref base digits) :
    xmlDecodeNext (0x26 :: 0x23 :: ref) = xmlReference base digits := by
  have hnext : xmlDecodeNext (0x26 :: 0x23 :: ref) = xmlSequence (0x23 :: ref) := by
    simp [xmlDecodeNext]
  rw [hnext, xmlSequence_hash]
  rcases h with ⟨rfl, rfl⟩ | ⟨rfl, rfl, hx⟩
  · simp
  · rw [if_neg hx]

theorem xmlDecode_cases (source : List UInt8) :
    (∃ p, xmlDecodeNext source = .piece p ∧ p.bytes.length = 1 ∧ p.room = always) ∨
      xmlDecodeNext source = .stop ∨ ∃ ref, source = 0x26 :: 0x23 :: ref := by
  cases source with
  | nil => exact .inr (.inl rfl)
  | cons ch rest =>
    by_cases hch : ch = 0x26
    · subst hch
      have hnext : xmlDecodeNext (0x26 :: rest) = xmlSequence rest := by simp [xmlDecodeNext]
      rw [hnext]
      cases hfind : xmlNames.find? fun e => e.1.isPrefixOf rest with
      | some e =>
        refine .inl ⟨⟨[e.2], rest.drop e.1.length, always⟩, ?_, rfl, rfl⟩
        unfold xmlSequence
        rw [hfind]
      | none =>
        by_cases hhash : rest.head? = some 0x23
        · cases rest with
          | nil => cases hhash
          | cons c ref =>
            obtain rfl : c = 0x23 := by simpa using hhash
            exact .inr (.inr ⟨ref, rfl⟩)
        · refine .inr (.inl ?_)
          unfold xmlSequence
          rw [hfind]
          simp only
          split
          · simp at hhash
          · simp at hhash
          · rfl
    · exact .inl ⟨⟨[ch], rest, always⟩, by simp [xmlDecodeNext, hch], rfl, rfl⟩

theorem xmlReference_piece {base : Nat} {digits : List UInt8} {p : Piece UInt8 UInt8}
    (h : xmlReference base digits = .piece p) : ∃ val rest, strtoul base digits = some (val, rest) ∧
      rest.head? = some 0x3B ∧ utf8Encode 4 val = some p.bytes ∧
      ∀ n, p.room n size = true ↔ p.bytes.length ≤ size - n := by
  unfold xmlReference at h
  split at h
  · cases h
  · next val rest hval =>
    split at h
    · next bytes hbytes =>
      cases h
      exact ⟨val, _, hval, rfl, hbytes, fun n => utf8Encode_room hbytes⟩
    · cases h
  · cases h

theorem roomy_xmlDecode : Roomy xmlDecode size := by
  constructor
  intro source p n hnext hfit
  have hpos : 0 < p.bytes.length ∧ (p.bytes.length ≤ size - n → p.room n size = true) := by
    rcases xmlDecode_cases source with ⟨q, hq, hone, halways⟩ | hstop | ⟨ref, rfl⟩
    · cases hq.symm.trans hnext
      exact ⟨by omega, fun _ => by rw [halways]; rfl⟩
    · cases hstop.symm.trans hnext
    · obtain ⟨base, digits, hnumber⟩ := numberText_total ref
      obtain ⟨val, rest, -, -, hbytes, hroom⟩ :=
        xmlReference_piece ((xmlDecode_reference hnumber).symm.trans hnext)
      exact ⟨utf8Encode_length hbytes, (hroom n).mpr⟩
  exact ⟨moreText_iff.mpr (by omega), hpos.2 (by omega)⟩

theorem xmlDecode_fits_iff : Fits xmlDecode size text ↔ ReferencesFit text size := by
  rw [roomy_xmlDecode.fits_iff fun n hn => by have := moreText_iff.mp hn; omega]
  constructor
  · intro h out base digits ref hreads hout hnumber
    obtain ⟨hfault, hleaves⟩ := h out _ hreads (moreText_iff.mpr hout)
    have hnext := xmlDecode_reference hnumber
    cases hval : strtoul base digits with
    | none =>
      refine absurd ?_ (hfault (by simp) .overread)
      exact hnext.trans (by simp [xmlReference, hval])
    | some r =>
      obtain ⟨val, rest⟩ := r
      refine ⟨val, rest, rfl, ?_⟩
      intro bytes hend hbytes hfull
      obtain ⟨rest, rfl⟩ : ∃ more, rest = 0x3B :: more := by
        cases rest with
        | nil => cases hend
        | cons c more => exact ⟨more, by simpa using hend⟩
      have hpiece := hnext.trans (show xmlReference base digits = .piece ⟨bytes, rest, fun bufpos
        buflen => (utf8Encode (buflen - bufpos) val).isSome⟩ by simp [xmlReference, hval, hbytes])
      have hlt := hleaves _ hpiece ((utf8Encode_room hbytes).mpr (by omega))
      simp only at hlt
      omega
  · intro h out rest hreads hmore
    have hout := moreText_iff.mp hmore
    rcases xmlDecode_cases rest with ⟨q, hq, hone, halways⟩ | hstop | ⟨ref, rfl⟩
    · constructor
      · intro _ f hf
        cases hq.symm.trans hf
      · intro p hp _
        cases hq.symm.trans hp
        omega
    · constructor
      · intro _ f hf
        cases hstop.symm.trans hf
      · intro p hp _
        cases hstop.symm.trans hp
    · obtain ⟨base, digits, hnumber⟩ := numberText_total ref
      obtain ⟨val, rest, hval, hsize⟩ := h out base digits ref hreads hout hnumber
      have hnext := xmlDecode_reference hnumber
      constructor
      · intro _ f hf
        have hfault := hnext.symm.trans hf
        unfold xmlReference at hfault
        rw [hval] at hfault
        split at hfault
        · next hnone => cases hnone
        · split at hfault <;> cases hfault
        · cases hfault
      · intro p hp hroom
        obtain ⟨val', rest', hval', hend, hbytes, hroom'⟩ :=
          xmlReference_piece (hnext.symm.trans hp)
        cases hval.symm.trans hval'
        have hne := hsize p.bytes hend hbytes
        have hle := (hroom' out.length).mp hroom
        omega

end References

section Urls

variable {spaceAsPlus unsafeOnly : Bool} {size n : Nat} {text out rest : List UInt8} {ch : UInt8}

theorem internalUrlChar_cases (spaceAsPlus unsafeOnly : Bool) (ch : UInt8) :
    (internalUrlChar spaceAsPlus unsafeOnly ch).1.length = 1 ∧
        (internalUrlChar spaceAsPlus unsafeOnly ch).2 = always ∨
      (internalUrlChar spaceAsPlus unsafeOnly ch).1.length = 3 ∧
        (internalUrlChar spaceAsPlus unsafeOnly ch).2 = roomForEscape := by
  unfold internalUrlChar
  split
  · exact .inl ⟨rfl, rfl⟩
  · split
    · exact .inl ⟨rfl, rfl⟩
    · exact .inr ⟨rfl, rfl⟩

theorem roomForEscape_iff : roomForEscape n size = true ↔ (n + 4) % 2 ^ 32 ≤ size := by
  simp [roomForEscape]

theorem internalUrl_piece {p : Piece UInt8 UInt8}
    (h : (internalUrlEncoder spaceAsPlus unsafeOnly).next rest = .piece p) :
    ∃ ch more, rest = ch :: more ∧
      p = ⟨(internalUrlChar spaceAsPlus unsafeOnly ch).1, more,
        (internalUrlChar spaceAsPlus unsafeOnly ch).2⟩ := by
  cases rest with
  | nil => cases h
  | cons ch more =>
    cases h
    exact ⟨ch, more, rfl, rfl⟩

theorem internalUrl_more :
    (internalUrlEncoder spaceAsPlus unsafeOnly).more n size = true ↔ n < size := by
  simp [internalUrlEncoder, Coder.ofChars]

theorem roomy_internalUrl (hmax : size < 2 ^ 32) :
    Roomy (internalUrlEncoder spaceAsPlus unsafeOnly) size := by
  constructor
  intro source p n hnext hfit
  obtain ⟨ch, more, rfl, rfl⟩ := internalUrl_piece hnext
  refine ⟨internalUrl_more.mpr (by omega), ?_⟩
  rcases internalUrlChar_cases spaceAsPlus unsafeOnly ch with ⟨-, halways⟩ | ⟨hlen, hroom⟩
  · rw [halways]
    rfl
  · simp only [hlen] at hfit
    rw [hroom, roomForEscape_iff]
    omega

theorem internalUrl_fits_iff (hmax : size < 2 ^ 32) :
    Fits (internalUrlEncoder spaceAsPlus unsafeOnly) size text ↔
      CharsFit spaceAsPlus unsafeOnly text size := by
  rw [(roomy_internalUrl hmax).fits_iff fun n => internalUrl_more.mp]
  constructor
  · intro h front ch rest hsplit hlt
    have hreads : Reads (internalUrlEncoder spaceAsPlus unsafeOnly) text
        (urlText spaceAsPlus unsafeOnly front) (ch :: rest) :=
      reads_ofChars.mpr ⟨front, hsplit, rfl⟩
    have hleaves := (h _ _ hreads (internalUrl_more.mpr hlt)).2
      ⟨(internalUrlChar spaceAsPlus unsafeOnly ch).1, rest,
        (internalUrlChar spaceAsPlus unsafeOnly ch).2⟩ rfl
    simp only at hleaves
    rcases internalUrlChar_cases spaceAsPlus unsafeOnly ch with ⟨hlen, hroom⟩ | ⟨hlen, hroom⟩
    · rw [hlen, hroom] at hleaves
      have hroomy := hleaves rfl
      rw [if_pos hlen]
      omega
    · rw [hlen, hroom, roomForEscape_iff] at hleaves
      rw [if_neg (by omega)]
      by_contra hwrap
      have hover := hleaves (by omega)
      omega
  · intro h out rest hreads hmore
    have hlt := internalUrl_more.mp hmore
    obtain ⟨front, hsplit, hout⟩ := reads_ofChars.mp hreads
    have hfront : (urlText spaceAsPlus unsafeOnly front).length = out.length := by rw [hout]; rfl
    constructor
    · intro hne f hf
      cases rest with
      | nil => exact hne rfl
      | cons ch rest => cases hf
    · intro p hp hroom
      obtain ⟨ch, more, rfl, rfl⟩ := internalUrl_piece hp
      have hfit := h front ch more hsplit (by omega)
      rw [hfront] at hfit
      simp only at hroom ⊢
      rcases internalUrlChar_cases spaceAsPlus unsafeOnly ch with ⟨hlen, halways⟩ | ⟨hlen, hescape⟩
      · rw [if_pos hlen] at hfit
        omega
      · rw [if_neg (by omega)] at hfit
        rw [hescape, roomForEscape_iff] at hroom
        omega

end Urls

namespace Transform

variable {text : List UInt8} {size : Nat}

theorem loop_contained_iff {l : TextLoop} (hsize : 0 < size) :
    (loop l).Contained text size ↔ Transcoder.Fits l.coder size (l.source text) := by
  constructor
  · intro h
    obtain ⟨n, b, hrun, -⟩ := h (List.replicate size 0) List.length_replicate
    have hne : List.replicate size (0 : UInt8) ≠ [] := by
      apply List.ne_nil_of_length_pos
      rwa [List.length_replicate]
    have hfits := (run_iff hne).mp ⟨_, hrun⟩
    rwa [List.length_replicate] at hfits
  · intro h buffer hbuffer
    subst hbuffer
    have hne := List.ne_nil_of_length_pos hsize
    have hok : ∃ r, Transcoder.run l.coder 0 (l.source text) buffer = .ok r := (run_iff hne).mpr h
    obtain ⟨⟨n, b⟩, hrun⟩ := hok
    have hin := run_ok hrun hne
    exact ⟨n, b, hrun, hin.size, hin.inside.le, fun _ => hin.ends, hin.whole⟩

theorem hexEncode_contained_iff {delimiter : UInt8} (hsize : 0 < size) :
    (hexEncode delimiter).Contained text size ↔ (hexEncode delimiter).Fits text size := by
  constructor
  · intro h
    by_contra hshort
    have hlen : (List.replicate size (1 : UInt8)).length = size := List.length_replicate
    obtain ⟨n, b, hrun, -, -, hend, -⟩ := h (List.replicate size 1) hlen
    have hnone : hexEncodeWithDelimiter delimiter text (List.replicate size 1) =
        .ok (0, List.replicate size 1) := by
      apply hexEncode_short
      rwa [hlen]
    cases hnone.symm.trans hrun
    have hzero := hend rfl
    rw [List.getElem?_replicate, if_pos hsize] at hzero
    cases hzero
  · intro h buffer hbuffer
    subst hbuffer
    obtain ⟨b, hrun, hlt, hlen, hend, htake⟩ := hexEncode_ok hsize h
    refine ⟨_, b, hrun, hlen, hlt.le, fun _ => hend, text, [], (List.append_nil text).symm, ?_, ?_⟩
    · exact ⟨text, (List.append_nil text).symm, htake⟩
    · exact ⟨text, (List.append_nil text).symm, htake⟩

theorem hexDecode_contained {delimiter : UInt8} (hsize : 0 < size) :
    (hexDecode delimiter).Contained text size := by
  intro buffer hbuffer
  subst hbuffer
  have hnone : ∀ b : List UInt8, b.length = buffer.length →
      hexDecodeWithDelimiter delimiter text buffer = .ok (0, b) → ∃ n b,
        (hexDecode delimiter).run text buffer = .ok (n, b) ∧ b.length = buffer.length ∧
          n ≤ buffer.length ∧ ((hexDecode delimiter).isText = true → b[n]? = some 0) ∧
          ∃ front rest, (hexDecode delimiter).source text = front ++ rest ∧
            (hexDecode delimiter).Reads ((hexDecode delimiter).source text) (b.take n) rest ∧
            (hexDecode delimiter).Reads front (b.take n) [] := by
    intro b hlen hrun
    refine ⟨0, b, hrun, hlen, Nat.zero_le _, ?_, [], text, rfl, .inl ⟨rfl, rfl⟩, .inl ⟨rfl, rfl⟩⟩
    exact fun h => absurd h Bool.false_ne_true
  by_cases hempty : text = []
  · exact hnone buffer rfl (hempty ▸ hexDecode_empty)
  · by_cases hfit : decodeNeeded delimiter text.length ≤ buffer.length
    · obtain ⟨⟨n, b⟩, hrun, hdecoded⟩ := hexDecode_ok hsize hempty hfit
      by_cases hspelled : ∃ out, SpelledBytes Text.hexDecode delimiter text out
      · obtain ⟨out, hout⟩ := hspelled
        obtain ⟨hn, htake⟩ := hdecoded.spelled out hout
        have hbytes : b.take n = out := by simpa using htake
        have hsized : b.length = buffer.length := hdecoded.size
        have hle : n ≤ buffer.length := by
          have hcount := congrArg List.length hbytes
          simp only [List.length_take] at hcount hn
          omega
        have hreads : (hexDecode delimiter).Reads text (b.take n) [] :=
          .inr ⟨rfl, hbytes.symm ▸ hout⟩
        refine ⟨n, b, hrun, hsized, hle, ?_, text, [], (List.append_nil text).symm, hreads, hreads⟩
        exact fun h => absurd h Bool.false_ne_true
      · obtain rfl := hdecoded.refused hspelled
        exact hnone b hdecoded.size hrun
    · exact hnone buffer rfl (hexDecode_short hfit)

/-- A transform stays in its buffer, and ends what it writes with whole escape sequences and a
terminator, exactly if the source fits so. -/
theorem contained_iff (t : Transform) (text : List UInt8) (size : Nat) (hsize : 0 < size)
    (hmax : ∀ spaceAsPlus unsafeOnly, t = .loop (.internalUrlEncode spaceAsPlus unsafeOnly) →
      size < 2 ^ 32) : t.Contained text size ↔ t.Fits text size := by
  cases t with
  | hexEncode delimiter => exact hexEncode_contained_iff hsize
  | hexDecode delimiter => exact iff_of_true (hexDecode_contained hsize) trivial
  | loop l =>
    rw [loop_contained_iff hsize]
    cases l with
    | escape illegal esc => exact iff_of_true snug_escape.fits trivial
    | unescape esc => exact iff_of_true snug_unescape.fits trivial
    | encode illegal esc => exact iff_of_true snug_encode.fits trivial
    | decode esc => exact iff_of_true snug_decode.fits trivial
    | urlEncode => exact iff_of_true snug_urlEncode.fits trivial
    | urlDecode => exact iff_of_true snug_urlDecode.fits trivial
    | htmlEncode => exact iff_of_true snug_htmlEncode.fits trivial
    | xmlEncode => exact iff_of_true snug_xmlEncode.fits trivial
    | xmlDecode => exact xmlDecode_fits_iff
    | internalUrlEncode spaceAsPlus unsafeOnly =>
      exact internalUrl_fits_iff (hmax spaceAsPlus unsafeOnly rfl)

theorem contained_escape : (loop (.escape [0x22] 0x5C)).Contained (stringBytes "say \"hi\"") 16 :=
  (contained_iff _ _ 16 (by decide) fun _ _ h => by cases h).mpr trivial

/-- A character that fills the buffer to its end, a number that the source ends in, a text for
which there is no place, and one of which the last character takes that of the terminator. -/
theorem transforms_overrun :
    (loop .xmlDecode).run (stringBytes "&#233;") [0, 0] = .error .overrun ∧
      (loop .xmlDecode).run (stringBytes "&#6") [0, 0] = .error .overread ∧
      (loop (.internalUrlEncode true false)).run (stringBytes "a") [0] = .error .overrun ∧
      (hexEncode 0).run (stringBytes "a") [1, 1] = .ok (0, [1, 1]) ∧
      ¬ ∀ t text size, 0 < size → size < 2 ^ 32 → Contained t text size := by
  have hfull : (loop .xmlDecode).run (stringBytes "&#233;") [0, 0] = .error .overrun := rfl
  refine ⟨hfull, rfl, rfl, rfl, ?_⟩
  intro h
  obtain ⟨n, b, hrun, -⟩ := h (loop .xmlDecode) (stringBytes "&#233;") 2 (by decide) (by decide)
    [0, 0] rfl
  cases hfull.symm.trans hrun

end Transform

end Libjingle.Text
