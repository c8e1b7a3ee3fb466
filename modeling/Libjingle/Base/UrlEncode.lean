import Libjingle.Base.TextCoders

/-! The encoder and the decoder of URLs, which take C strings. -/

namespace Libjingle.Text

open Transcoder

/-- The bytes that a C string has before its terminator. -/
def cString (text : List UInt8) : List UInt8 := text.takeWhile fun c => c ≠ 0

def isAlnum (ch : UInt8) : Bool :=
  (0x30 ≤ ch && ch ≤ 0x39) || (0x41 ≤ ch && ch ≤ 0x5A) || (0x61 ≤ ch && ch ≤ 0x7A)

/-- A `char` from 128 on is negative, and so less than the space. -/
def isValidUrlChar (ch : UInt8) (unsafeOnly : Bool) : Bool :=
  if unsafeOnly then
    !((128 ≤ ch || ch ≤ 0x20) || strchr (stringBytes "\\\"^&`<>[]\x7b\x7d") ch)
  else isAlnum ch || strchr (stringBytes "-_.!~*'()") ch

def urlDigit (val : UInt8) : UInt8 := (stringBytes "0123456789ABCDEF").getD val.toNat 0

/-- The test before an escape sequence is made with unsigned integers. -/
def roomForEscape (bufpos max : Nat) : Bool := !decide ((bufpos + 4) % 2 ^ 32 > max)

def internalUrlChar (spaceAsPlus unsafeOnly : Bool) (ch : UInt8) :
    List UInt8 × (Nat → Nat → Bool) :=
  if ch = 0x20 && spaceAsPlus && !unsafeOnly then ([0x2B], always)
  else if isValidUrlChar ch unsafeOnly then ([ch], always)
  else ([0x25, urlDigit (ch >>> 4 &&& 0x0F), urlDigit (ch &&& 0x0F)], roomForEscape)

/-- Its loop goes on up to the end of the buffer. -/
def internalUrlEncoder (spaceAsPlus unsafeOnly : Bool) : Coder UInt8 UInt8 :=
  .ofChars (fun bufpos max => decide (bufpos < max)) fun ch =>
    some (internalUrlChar spaceAsPlus unsafeOnly ch)

/-- The assertion after the loop fails exactly if there is no place for the terminator. -/
def internalUrlEncode (spaceAsPlus unsafeOnly : Bool) (source dest : List UInt8) :
    Except Fault (Nat × List UInt8) :=
  run (internalUrlEncoder spaceAsPlus unsafeOnly) 0 (cString source) dest

def hexDigit (digit : UInt8) : Option Nat :=
  if 0x30 ≤ digit ∧ digit ≤ 0x39 then some (digit.toNat - 0x30)
  else if 0x41 ≤ digit ∧ digit ≤ 0x46 then some (digit.toNat - 0x41 + 10)
  else if 0x61 ≤ digit ∧ digit ≤ 0x66 then some (digit.toNat - 0x61 + 10)
  else none

def hexPairValue (a b : UInt8) : Option Nat :=
  match hexDigit a, hexDigit b with
  | some high, some low => some (high <<< 4 + low)
  | _, _ => none

def internalUrlDecodeNext (spaceAsPlus : Bool) : List UInt8 → Next UInt8 UInt8
  | [] => .stop
  | ch :: rest =>
    if ch = 0x2B then .piece ⟨[if spaceAsPlus then 0x20 else ch], rest, always⟩
    else if ch = 0x25 then
      match rest with
      | a :: b :: more =>
        match hexPairValue a b with
        | some value => .piece ⟨[UInt8.ofNat value], more, always⟩
        | none => .piece ⟨[0x3F], a :: b :: more, always⟩
      | _ => .piece ⟨[0x3F], rest, always⟩
    else .piece ⟨[ch], rest, always⟩

theorem internalUrlDecode_front {spaceAsPlus : Bool} {source : List UInt8}
    {p : Piece UInt8 UInt8} (h : internalUrlDecodeNext spaceAsPlus source = .piece p) :
    ∃ front, Front (internalUrlDecodeNext spaceAsPlus) source p front := by
  cases source with
  | nil => cases h
  | cons ch rest =>
    by_cases hplus : ch = 0x2B
    · simp only [internalUrlDecodeNext, if_pos hplus, Next.piece.injEq] at h
      subst h
      refine ⟨[ch], by simp, rfl, ?_⟩
      intro tail _
      simp [internalUrlDecodeNext, hplus]
    · by_cases hpercent : ch = 0x25
      · simp only [internalUrlDecodeNext, if_neg hplus, if_pos hpercent] at h
        match rest with
        | [] =>
          cases h
          refine ⟨[ch], by simp, rfl, ?_⟩
          intro tail htail
          obtain rfl := List.prefix_nil.mp htail
          simp [internalUrlDecodeNext, hpercent]
        | [x] =>
          cases h
          refine ⟨[ch], by simp, rfl, ?_⟩
          intro tail htail
          match tail with
          | [] => simp [internalUrlDecodeNext, hpercent]
          | [y] => simp [internalUrlDecodeNext, hpercent]
          | y :: z :: tail => simp at htail
        | a :: b :: more =>
          cases hvalue : hexPairValue a b with
          | some value =>
            simp only [hvalue, Next.piece.injEq] at h
            subst h
            refine ⟨[ch, a, b], by simp, rfl, ?_⟩
            intro tail _
            simp [internalUrlDecodeNext, hpercent, hvalue]
          | none =>
            simp only [hvalue, Next.piece.injEq] at h
            subst h
            refine ⟨[ch], by simp, rfl, ?_⟩
            intro tail htail
            match tail with
            | [] => simp [internalUrlDecodeNext, hpercent]
            | [y] => simp [internalUrlDecodeNext, hpercent]
            | y :: z :: tail =>
              obtain ⟨rfl, hz⟩ := List.cons_prefix_cons.mp htail
              obtain ⟨rfl, -⟩ := List.cons_prefix_cons.mp hz
              simp [internalUrlDecodeNext, hpercent, hvalue]
      · simp only [internalUrlDecodeNext, if_neg hplus, if_neg hpercent, Next.piece.injEq] at h
        subst h
        refine ⟨[ch], by simp, rfl, ?_⟩
        intro tail _
        simp [internalUrlDecodeNext, hplus, hpercent]

def internalUrlDecoder (spaceAsPlus : Bool) : Coder UInt8 UInt8 :=
  ⟨always, internalUrlDecodeNext spaceAsPlus, fun _ _ => internalUrlDecode_front⟩

def internalUrlDecode (spaceAsPlus : Bool) (source dest : List UInt8) :
    Except Fault (Nat × List UInt8) :=
  run (internalUrlDecoder spaceAsPlus) 0 (cString source) dest

def stringOf (buf : List UInt8) : Except Fault (List UInt8) :=
  if 0 ∈ buf then .ok (cString buf) else .error .overread

section Strings

variable (stack : Nat → UInt8)

def stackArray (length : Nat) : List UInt8 := (List.range length).map stack

def internalUrlDecodeString (spaceAsPlus : Bool) (encoded : List UInt8) :
    Except Fault (List UInt8) := do
  let r ← internalUrlDecode spaceAsPlus encoded (stackArray stack (encoded.length + 1))
  stringOf r.2

def urlDecodeString (encoded : List UInt8) : Except Fault (List UInt8) :=
  internalUrlDecodeString stack true encoded

/-- The length that is needed is an `int`, and cannot be negative. -/
def internalUrlEncodeString (spaceAsPlus unsafeOnly : Bool) (decoded : List UInt8) :
    Except Fault (List UInt8) := do
  let needed := Int.bmod (Int.bmod decoded.length (2 ^ 32) * 3 + 1) (2 ^ 32)
  if needed < 0 then .error .overrun
  else
    let r ← internalUrlEncode spaceAsPlus unsafeOnly decoded (stackArray stack needed.toNat)
    stringOf r.2

def urlEncodeString (decoded : List UInt8) : Except Fault (List UInt8) :=
  internalUrlEncodeString stack true false decoded

end Strings

end Libjingle.Text
