import Libjingle.Base.Strtoul
import Libjingle.Lib.Transcoder

/-! The loops that escape, encode and decode texts. -/

namespace Libjingle.Text

open Transcoder

/-- Whether `strchr` finds a character, which it does for the terminator. -/
def strchr (s : List UInt8) (c : UInt8) : Bool :=
  decide (c = 0) || decide (c ∈ s.takeWhile fun d => d ≠ 0)

/-- The loops leave the last place of the buffer to the terminator. -/
def moreText (bufpos buflen : Nat) : Bool := decide (bufpos + 1 < buflen)

def always (_ _ : Nat) : Bool := true

/-- The test before `count` bytes are written. -/
def roomFor (count bufpos buflen : Nat) : Bool := !decide (bufpos + count ≥ buflen)

def hexEncode (val : UInt8) : UInt8 :=
  if val < 16 then (stringBytes "0123456789abcdef").getD val.toNat 0 else 0x21

def hexDecode (ch : UInt8) : Option UInt8 :=
  if 0x30 ≤ ch ∧ ch ≤ 0x39 then some (ch - 0x30)
  else if 0x41 ≤ ch ∧ ch ≤ 0x5A then some (ch - 0x41 + 10)
  else if 0x61 ≤ ch ∧ ch ≤ 0x7A then some (ch - 0x61 + 10)
  else none

def hexPair : List UInt8 → Option (UInt8 × List UInt8)
  | a :: b :: rest =>
    match hexDecode a, hexDecode b with
    | some h1, some h2 => some (h1 <<< 4 ||| h2, rest)
    | _, _ => none
  | _ => none

def hexEscape (esc ch : UInt8) : List UInt8 :=
  [esc, hexEncode (ch >>> 4 &&& 0xF), hexEncode (ch &&& 0xF)]

section Escapes

variable (illegal : List UInt8) (esc : UInt8)

def escape : Coder UInt8 UInt8 :=
  .ofChars moreText fun ch =>
    some (if ch = esc || strchr illegal ch then ([esc, ch], roomFor 2) else ([ch], always))

def unescapeNext : List UInt8 → Next UInt8 UInt8
  | [] => .stop
  | [ch] => .piece ⟨[ch], [], always⟩
  | ch :: after :: rest =>
    if ch = esc then .piece ⟨[after], rest, always⟩ else .piece ⟨[ch], after :: rest, always⟩

def encode : Coder UInt8 UInt8 :=
  .ofChars moreText fun ch =>
    some (if ch ≠ esc && !strchr illegal ch then ([ch], always) else (hexEscape esc ch, roomFor 3))

def decodeNext : List UInt8 → Next UInt8 UInt8
  | [] => .stop
  | ch :: rest =>
    match if ch = esc then hexPair rest else none with
    | some (val, rest) => .piece ⟨[val], rest, always⟩
    | none => .piece ⟨[ch], rest, always⟩

end Escapes

section Classes

def asciiClass : List UInt8 := [
  1,1,1,1,1,1,1,1,1,1,1,1,1,1,1,1,1,1,1,1,1,1,1,1,1,1,1,1,1,1,1,1,
  1,0,3,1,1,1,3,2,0,0,0,1,1,0,0,1,0,0,0,0,0,0,0,0,0,0,1,1,3,1,3,1,
  1,0,0,0,0,0,0,0,0,0,0,0,0,0,0,0,0,0,0,0,0,0,0,0,0,0,0,1,1,1,1,0,
  1,0,0,0,0,0,0,0,0,0,0,0,0,0,0,0,0,0,0,0,0,0,0,0,0,0,0,1,1,1,0,1]

def hasClass (mask ch : UInt8) : Bool := asciiClass.getD ch.toNat 0 &&& mask ≠ 0

def urlUnsafe : UInt8 := 1

def xmlUnsafe : UInt8 := 2

def htmlUnsafe : UInt8 := 2

def urlEncode : Coder UInt8 UInt8 :=
  .ofChars moreText fun ch =>
    some (if ch < 128 && hasClass urlUnsafe ch then (hexEscape 0x25 ch, roomFor 3)
      else ([ch], always))

def urlDecodeNext : List UInt8 → Next UInt8 UInt8
  | [] => .stop
  | ch :: rest =>
    if ch = 0x2B then .piece ⟨[0x20], rest, always⟩
    else
      match if ch = 0x25 then hexPair rest else none with
      | some (val, rest) => .piece ⟨[val], rest, always⟩
      | none => .piece ⟨[ch], rest, always⟩

end Classes

section Markup

def bits (mask c : UInt8) : Nat := (c &&& mask).toNat

def utf8Decode : List UInt8 → Option (Nat × List UInt8)
  | [] => none
  | s0 :: rest =>
    if s0 &&& 0x80 = 0 then some (s0.toNat, rest)
    else match rest with
      | [] => none
      | s1 :: rest =>
        if s1 &&& 0xC0 ≠ 0x80 then none
        else if s0 &&& 0xE0 = 0xC0 then some (bits 0x1F s0 <<< 6 ||| bits 0x3F s1, rest)
        else match rest with
          | [] => none
          | s2 :: rest =>
            if s2 &&& 0xC0 ≠ 0x80 then none
            else if s0 &&& 0xF0 = 0xE0 then
              some (bits 0x0F s0 <<< 12 ||| (bits 0x3F s1 <<< 6 ||| bits 0x3F s2), rest)
            else match rest with
              | [] => none
              | s3 :: rest =>
                if s3 &&& 0xC0 ≠ 0x80 then none
                else if s0 &&& 0xF8 = 0xF0 then
                  some (bits 0x07 s0 <<< 18 |||
                    ((bits 0x3F s1 <<< 6 ||| bits 0x3F s2) <<< 6 ||| bits 0x3F s3), rest)
                else none

def marked (mark : UInt8) (value : Nat) : UInt8 := mark ||| UInt8.ofNat value

def utf8Encode (buflen value : Nat) : Option (List UInt8) :=
  if value ≤ 0x7F ∧ buflen ≥ 1 then some [UInt8.ofNat value]
  else if value ≤ 0x7FF ∧ buflen ≥ 2 then
    some [marked 0xC0 (value >>> 6), marked 0x80 (value &&& 0x3F)]
  else if value ≤ 0xFFFF ∧ buflen ≥ 3 then
    some [marked 0xE0 (value >>> 12), marked 0x80 (value >>> 6 &&& 0x3F),
      marked 0x80 (value &&& 0x3F)]
  else if value ≤ 0x1FFFFF ∧ buflen ≥ 4 then
    some [marked 0xF0 (value >>> 18), marked 0x80 (value >>> 12 &&& 0x3F),
      marked 0x80 (value >>> 6 &&& 0x3F), marked 0x80 (value &&& 0x3F)]
  else none

def sequence (text : List UInt8) : List UInt8 × (Nat → Nat → Bool) := (text, roomFor text.length)

def htmlEscape (ch : UInt8) : Option (List UInt8) :=
  if ch = 0x3C then some (stringBytes "&lt;")
  else if ch = 0x3E then some (stringBytes "&gt;")
  else if ch = 0x27 then some (stringBytes "&#39;")
  else if ch = 0x22 then some (stringBytes "&quot;")
  else if ch = 0x26 then some (stringBytes "&amp;")
  else none

def xmlEscape (ch : UInt8) : Option (List UInt8) :=
  if ch = 0x3C then some (stringBytes "&lt;")
  else if ch = 0x3E then some (stringBytes "&gt;")
  else if ch = 0x27 then some (stringBytes "&apos;")
  else if ch = 0x22 then some (stringBytes "&quot;")
  else if ch = 0x26 then some (stringBytes "&amp;")
  else none

def numericReference (val : Nat) : List UInt8 :=
  stringBytes "&#" ++ decimalBytes val ++ stringBytes ";"

def htmlEncodeNext : List UInt8 → Next UInt8 UInt8
  | [] => .stop
  | ch :: rest =>
    if ch < 128 then
      if hasClass htmlUnsafe ch then
        match htmlEscape ch with
        | some text => .piece ⟨text, rest, roomFor text.length⟩
        | none => .fault .assertion
      else .piece ⟨[ch], rest, always⟩
    else
      let (val, rest) := (utf8Decode (ch :: rest)).getD (ch.toNat, rest)
      .piece ⟨numericReference val, rest, roomFor (numericReference val).length⟩

def xmlEncode : Coder UInt8 UInt8 :=
  .ofChars moreText fun ch =>
    if ch < 128 && hasClass xmlUnsafe ch then (xmlEscape ch).map sequence
    else some ([ch], always)

def xmlNames : List (List UInt8 × UInt8) :=
  [(stringBytes "lt;", 0x3C), (stringBytes "gt;", 0x3E), (stringBytes "apos;", 0x27),
    (stringBytes "quot;", 0x22), (stringBytes "amp;", 0x26)]

/-- A numeric reference, after its `#`. -/
def xmlReference (base : Nat) (text : List UInt8) : Next UInt8 UInt8 :=
  match strtoul base text with
  | none => .fault .overread
  | some (val, 0x3B :: rest) =>
    match utf8Encode 4 val with
    | some bytes =>
      .piece ⟨bytes, rest, fun bufpos buflen => (utf8Encode (buflen - bufpos) val).isSome⟩
    | none => .stop
  | some _ => .stop

/-- What comes after an `&`. -/
def xmlSequence (rest : List UInt8) : Next UInt8 UInt8 :=
  match xmlNames.find? fun e => e.1.isPrefixOf rest with
  | some e => .piece ⟨[e.2], rest.drop e.1.length, always⟩
  | none =>
    match rest with
    | 0x23 :: 0x78 :: text => xmlReference 16 text
    | 0x23 :: text => xmlReference 10 text
    | _ => .stop

def xmlDecodeNext : List UInt8 → Next UInt8 UInt8
  | [] => .stop
  | ch :: rest => if ch ≠ 0x26 then .piece ⟨[ch], rest, always⟩ else xmlSequence rest

end Markup

section Fronts

variable {esc ch val : UInt8} {rest tail : List UInt8} {source : List UInt8}
  {p : Piece UInt8 UInt8}

theorem hexPair_some (h : hexPair rest = some (val, tail)) : ∃ a b, rest = a :: b :: tail ∧
    ∀ more, hexPair (a :: b :: more) = some (val, more) := by
  match rest with
  | [] => cases h
  | [_] => cases h
  | a :: b :: more =>
    cases ha : hexDecode a with
    | none => simp [hexPair, ha] at h
    | some h1 =>
      cases hb : hexDecode b with
      | none => simp [hexPair, ha, hb] at h
      | some h2 =>
        simp only [hexPair, ha, hb, Option.some.injEq, Prod.mk.injEq] at h
        obtain ⟨rfl, rfl⟩ := h
        exact ⟨a, b, rfl, fun more => by simp [hexPair, ha, hb]⟩

theorem hexPair_none (h : hexPair rest = none) (hpre : tail <+: rest) : hexPair tail = none := by
  obtain ⟨more, rfl⟩ := hpre
  match tail with
  | [] => rfl
  | [_] => rfl
  | a :: b :: tail =>
    cases ha : hexDecode a with
    | none => simp [hexPair, ha]
    | some h1 =>
      cases hb : hexDecode b with
      | none => simp [hexPair, ha, hb]
      | some h2 => simp [hexPair, ha, hb] at h

theorem unescape_front (h : unescapeNext esc source = .piece p) :
    ∃ front, Front (unescapeNext esc) source p front := by
  match source with
  | [] => cases h
  | [ch] =>
    cases h
    refine ⟨[ch], by simp, rfl, ?_⟩
    intro tail htail
    obtain rfl := List.prefix_nil.mp htail
    exact ⟨_, rfl, rfl, rfl⟩
  | ch :: after :: rest =>
    by_cases hch : ch = esc
    · simp only [unescapeNext, hch, if_true, Next.piece.injEq] at h
      subst h
      refine ⟨[ch, after], by simp, rfl, ?_⟩
      intro tail _
      simp [unescapeNext, hch]
    · simp only [unescapeNext, hch, if_false, Next.piece.injEq] at h
      subst h
      refine ⟨[ch], by simp, rfl, ?_⟩
      intro tail _
      cases tail <;> simp [unescapeNext, hch]

theorem decode_front (h : decodeNext esc source = .piece p) :
    ∃ front, Front (decodeNext esc) source p front := by
  cases source with
  | nil => cases h
  | cons ch rest =>
    simp only [decodeNext] at h
    split at h
    · next val more hval =>
      cases h
      split at hval
      · next hch =>
        obtain ⟨a, b, rfl, hpair⟩ := hexPair_some hval
        refine ⟨[ch, a, b], by simp, rfl, ?_⟩
        intro tail _
        simp [decodeNext, hch, hpair tail]
      · cases hval
    · next hval =>
      cases h
      refine ⟨[ch], by simp, rfl, ?_⟩
      intro tail htail
      by_cases hch : ch = esc
      · rw [if_pos hch] at hval
        simp [decodeNext, hch, hexPair_none hval htail]
      · simp [decodeNext, hch]

theorem urlDecode_front (h : urlDecodeNext source = .piece p) :
    ∃ front, Front urlDecodeNext source p front := by
  cases source with
  | nil => cases h
  | cons ch rest =>
    by_cases hplus : ch = 0x2B
    · simp only [urlDecodeNext, if_pos hplus, Next.piece.injEq] at h
      subst h
      refine ⟨[ch], by simp, rfl, ?_⟩
      intro tail _
      simp [urlDecodeNext, hplus]
    · have heq : ∀ more, urlDecodeNext (ch :: more) = decodeNext 0x25 (ch :: more) := by
        intro more
        simp [urlDecodeNext, decodeNext, hplus]
      rw [heq] at h
      obtain ⟨front, hfront⟩ := decode_front h
      have hne := hfront.ne_nil
      cases front with
      | nil => exact absurd rfl hne
      | cons c front =>
        obtain ⟨rfl, -⟩ := List.cons.inj hfront.split
        refine ⟨ch :: front, hne, hfront.split, ?_⟩
        intro tail htail
        rw [List.cons_append, heq, ← List.cons_append]
        exact hfront.same tail htail

theorem utf8Decode_some {v : Nat} (h : utf8Decode source = some (v, rest)) :
    ∃ front, front ≠ [] ∧ source = front ++ rest ∧
      ∀ tail, utf8Decode (front ++ tail) = some (v, tail) := by
  unfold utf8Decode at h
  split at h
  · cases h
  · next s0 more =>
    split at h
    · next h0 =>
      cases h
      exact ⟨[s0], by simp, rfl, fun tail => by simp [utf8Decode, h0]⟩
    · next h0 =>
      split at h
      · cases h
      · next s1 more =>
        split at h
        · cases h
        · next h1 =>
          split at h
          · next h2 =>
            cases h
            exact ⟨[s0, s1], by simp, rfl, fun tail => by simp [utf8Decode, h0, h1, h2]⟩
          · next h2 =>
            split at h
            · cases h
            · next s2 more =>
              split at h
              · cases h
              · next h3 =>
                split at h
                · next h4 =>
                  cases h
                  exact ⟨[s0, s1, s2], by simp, rfl,
                    fun tail => by simp [utf8Decode, h0, h1, h2, h3, h4]⟩
                · next h4 =>
                  split at h
                  · cases h
                  · next s3 more =>
                    split at h
                    · cases h
                    · next h5 =>
                      split at h
                      · next h6 =>
                        cases h
                        exact ⟨[s0, s1, s2, s3], by simp, rfl,
                          fun tail => by simp [utf8Decode, h0, h1, h2, h3, h4, h5, h6]⟩
                      · cases h

theorem utf8Decode_none (h : utf8Decode source = none) (hpre : tail <+: source) :
    utf8Decode tail = none := by
  cases htail : utf8Decode tail with
  | none => rfl
  | some r =>
    obtain ⟨more, rfl⟩ := hpre
    obtain ⟨v, rest⟩ := r
    obtain ⟨front, -, rfl, hsame⟩ := utf8Decode_some htail
    rw [List.append_assoc, hsame] at h
    cases h

theorem htmlEncode_front (h : htmlEncodeNext source = .piece p) :
    ∃ front, Front htmlEncodeNext source p front := by
  cases source with
  | nil => cases h
  | cons ch rest =>
    by_cases hascii : ch < 128
    · simp only [htmlEncodeNext, if_pos hascii] at h
      refine ⟨[ch], by simp, ?_, ?_⟩
      · split at h
        · split at h
          · cases h
            rfl
          · cases h
        · cases h
          rfl
      · intro tail _
        simp only [List.singleton_append, htmlEncodeNext, if_pos hascii]
        split at h
        · split at h
          · next text htext =>
            cases h
            simp_all
          · cases h
        · cases h
          simp_all
    · simp only [htmlEncodeNext, if_neg hascii, Next.piece.injEq] at h
      cases hdecode : utf8Decode (ch :: rest) with
      | some r =>
        obtain ⟨front, hne, hsplit, hsame⟩ := utf8Decode_some hdecode
        rw [hdecode] at h
        subst h
        refine ⟨front, hne, hsplit, ?_⟩
        intro tail _
        cases front with
        | nil => exact absurd rfl hne
        | cons c front =>
          obtain ⟨rfl, -⟩ := List.cons.inj hsplit
          have htail := hsame tail
          rw [List.cons_append] at htail ⊢
          simp [htmlEncodeNext, hascii, htail]
      | none =>
        rw [hdecode] at h
        subst h
        refine ⟨[ch], by simp, rfl, ?_⟩
        intro tail htail
        have hnone : utf8Decode (ch :: tail) = none :=
          utf8Decode_none hdecode (List.cons_prefix_cons.mpr ⟨rfl, htail⟩)
        simp [htmlEncodeNext, hascii, hnone]

theorem find?_narrow {α : Type*} {l : List α} {f g : α → Bool} {a : α} (h : l.find? f = some a)
    (hga : g a = true) (hnarrow : ∀ b ∈ l, g b = true → f b = true) : l.find? g = some a := by
  induction l with
  | nil => cases h
  | cons b l ih =>
    rw [List.find?_cons] at h ⊢
    cases hf : f b with
    | true =>
      simp only [hf, Option.some.injEq] at h
      subst h
      simp [hga]
    | false =>
      have hg : g b = false := by
        cases hgb : g b with
        | false => rfl
        | true => rw [hnarrow b (by simp) hgb] at hf; cases hf
      simp only [hf] at h
      simp only [hg]
      exact ih h fun b hb => hnarrow b (by simp [hb])

theorem xmlNames_hash (text : List UInt8) :
    xmlNames.find? (fun e => e.1.isPrefixOf (0x23 :: text)) = none := by
  apply List.find?_eq_none.mpr
  intro e he
  have hhead : ∀ e ∈ xmlNames, ∃ c more, e.1 = c :: more ∧ c ≠ 0x23 := by
    simp only [xmlNames, List.mem_cons, List.not_mem_nil, or_false]
    rintro e (rfl | rfl | rfl | rfl | rfl) <;> exact ⟨_, _, rfl, by decide⟩
  obtain ⟨c, more, hc, hne⟩ := hhead e he
  simp [hc, List.isPrefixOf, hne]

theorem xmlReference_front {base : Nat} (h : xmlReference base source = .piece p) :
    ∃ used, source = used ++ 0x3B :: p.rest ∧ ∀ tail, ∃ q,
      xmlReference base (used ++ 0x3B :: tail) = .piece q ∧ q.bytes = p.bytes ∧ q.rest = tail := by
  rw [xmlReference] at h
  split at h
  · cases h
  · next val rest hval =>
    split at h
    · next bytes hbytes =>
      cases h
      obtain ⟨used, hsplit, hcut⟩ := strtoul_cut hval
      refine ⟨used, hsplit, ?_⟩
      intro tail
      simp [xmlReference, hcut tail, hbytes]
    · cases h
  · cases h

theorem xmlSequence_hash (text : List UInt8) : xmlSequence (0x23 :: text) =
    if text.head? = some 0x78 then xmlReference 16 text.tail else xmlReference 10 text := by
  unfold xmlSequence
  rw [xmlNames_hash]
  cases text with
  | nil => rfl
  | cons c text =>
    by_cases hc : c = 0x78
    · subst hc
      rfl
    · simp [hc]

theorem xmlSequence_cases (h : xmlSequence source = .piece p) :
    (∃ e, xmlNames.find? (fun e => e.1.isPrefixOf source) = some e ∧
      p = ⟨[e.2], source.drop e.1.length, always⟩) ∨ ∃ text, source = 0x23 :: text := by
  unfold xmlSequence at h
  split at h
  · next e he =>
    cases h
    exact .inl ⟨e, he, rfl⟩
  · split at h
    · exact .inr ⟨_, rfl⟩
    · exact .inr ⟨_, rfl⟩
    · cases h

theorem xmlSequence_front (h : xmlSequence source = .piece p) :
    ∃ front, source = front ++ p.rest ∧ ∀ tail, tail <+: p.rest →
      ∃ q, xmlSequence (front ++ tail) = .piece q ∧ q.bytes = p.bytes ∧ q.rest = tail := by
  rcases xmlSequence_cases h with ⟨e, he, rfl⟩ | ⟨text, rfl⟩
  · have hfound : e.1.isPrefixOf source = true := by simpa using List.find?_some he
    obtain ⟨rest, rfl⟩ := List.isPrefixOf_iff_prefix.mp hfound
    refine ⟨e.1, by simp, ?_⟩
    intro tail htail
    simp only [List.drop_left] at htail
    have hnarrow : xmlNames.find? (fun d => d.1.isPrefixOf (e.1 ++ tail)) = some e := by
      apply find?_narrow he
      · simp
      · intro d _ hd
        have hlong := List.isPrefixOf_iff_prefix.mp hd
        exact List.isPrefixOf_iff_prefix.mpr
          (hlong.trans (List.prefix_append_right_inj e.1 |>.mpr htail))
    simp [xmlSequence, hnarrow]
  · rw [xmlSequence_hash] at h
    split at h
    · next hx =>
      obtain ⟨text, rfl⟩ : ∃ more, text = 0x78 :: more := by
        cases text with
        | nil => cases hx
        | cons c text => exact ⟨text, by simpa using hx⟩
      obtain ⟨used, hsplit, hcut⟩ := xmlReference_front h
      rw [List.tail_cons] at hsplit
      refine ⟨0x23 :: 0x78 :: (used ++ [0x3B]), by simp [hsplit], ?_⟩
      intro tail _
      simpa [xmlSequence_hash] using hcut tail
    · next hx =>
      obtain ⟨used, hsplit, hcut⟩ := xmlReference_front h
      refine ⟨0x23 :: (used ++ [0x3B]), by simp [hsplit], ?_⟩
      intro tail _
      have hhead : (used ++ 0x3B :: tail).head? ≠ some 0x78 := by
        cases used with
        | nil => simp
        | cons c used => simpa [hsplit] using hx
      rw [List.cons_append, List.append_assoc, xmlSequence_hash]
      simpa only [List.singleton_append, if_neg hhead] using hcut tail

theorem xmlDecode_front (h : xmlDecodeNext source = .piece p) :
    ∃ front, Front xmlDecodeNext source p front := by
  cases source with
  | nil => cases h
  | cons ch rest =>
    by_cases hch : ch = 0x26
    · simp only [xmlDecodeNext, hch, ne_eq, not_true_eq_false, if_false] at h
      obtain ⟨front, hsplit, hsame⟩ := xmlSequence_front h
      refine ⟨ch :: front, by simp, by rw [List.cons_append, ← hsplit], ?_⟩
      intro tail htail
      simpa [xmlDecodeNext, hch] using hsame tail htail
    · simp only [xmlDecodeNext, ne_eq, hch, not_false_eq_true, if_true, Next.piece.injEq] at h
      subst h
      refine ⟨[ch], by simp, rfl, ?_⟩
      intro tail _
      simp [xmlDecodeNext, hch]

end Fronts

def unescape (esc : UInt8) : Coder UInt8 UInt8 := ⟨moreText, unescapeNext esc, fun _ _ => unescape_front⟩

def decode (esc : UInt8) : Coder UInt8 UInt8 := ⟨moreText, decodeNext esc, fun _ _ => decode_front⟩

def urlDecode : Coder UInt8 UInt8 := ⟨moreText, urlDecodeNext, fun _ _ => urlDecode_front⟩

def htmlEncode : Coder UInt8 UInt8 := ⟨moreText, htmlEncodeNext, fun _ _ => htmlEncode_front⟩

def xmlDecode : Coder UInt8 UInt8 := ⟨moreText, xmlDecodeNext, fun _ _ => xmlDecode_front⟩

/-- `html_decode` -/
def htmlDecode : Coder UInt8 UInt8 := xmlDecode

end Libjingle.Text
