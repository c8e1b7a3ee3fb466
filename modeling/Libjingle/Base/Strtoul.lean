import Mathlib.Algebra.Ring.Nat
import Mathlib.Data.List.TakeWhile
import Mathlib.Tactic.Common

/-! The number scanners of the C library, on bytes. A scanner looks at the bytes one by one
until it has seen one that ends the number, so that it leaves a list that has none. -/

namespace Libjingle

def stringBytes (s : String) : List UInt8 := s.toUTF8.data.toList

def isSpaceByte (c : UInt8) : Bool := c = 0x20 || (9 ≤ c && c ≤ 13)

def digitOf (c : UInt8) : Option Nat :=
  if 0x30 ≤ c ∧ c ≤ 0x39 then some (c.toNat - 0x30)
  else if 0x61 ≤ c ∧ c ≤ 0x7A then some (c.toNat - 0x61 + 10)
  else if 0x41 ≤ c ∧ c ≤ 0x5A then some (c.toNat - 0x41 + 10)
  else none

def digitIn (base : Nat) (c : UInt8) : Option Nat := (digitOf c).filter fun d => decide (d < base)

def skipSpace : List UInt8 → Option (List UInt8)
  | [] => none
  | c :: rest => if isSpaceByte c then skipSpace rest else some (c :: rest)

def takeSign : List UInt8 → Bool × List UInt8
  | 0x2D :: rest => (true, rest)
  | 0x2B :: rest => (false, rest)
  | text => (false, text)

/-- The digits in front, and what comes after them, which begins with a byte that is none. -/
def scanDigits (base : Nat) : List UInt8 → Option (List Nat × List UInt8)
  | [] => none
  | c :: rest =>
    match digitIn base c with
    | some d => (scanDigits base rest).map fun r => (d :: r.1, r.2)
    | none => some ([], c :: rest)

/-- The digits after a `0x` in base 16, which may be there. -/
def scanNumber (base : Nat) : List UInt8 → Option (List Nat × List UInt8)
  | 0x30 :: x :: rest =>
    if base = 16 ∧ (x = 0x78 ∨ x = 0x58) then
      (scanDigits 16 rest).map fun r => if r.1 = [] then ([0], x :: rest) else r
    else scanDigits base (0x30 :: x :: rest)
  | text => scanDigits base text

def valueOf (base : Nat) (digits : List Nat) : Nat := digits.foldl (fun v d => base * v + d) 0

/-- What `strtoul` makes of the digits: too many give the largest value. -/
def clip (negative : Bool) (value : Nat) : Nat :=
  if 2 ^ 64 ≤ value then 2 ^ 64 - 1 else if negative then (2 ^ 64 - value) % 2 ^ 64 else value

/-- The value and where the number ends, which is at the start if there is none. -/
def strtoul (base : Nat) (text : List UInt8) : Option (Nat × List UInt8) := do
  let start ← skipSpace text
  let signed := takeSign start
  let (digits, rest) ← scanNumber base signed.2
  return if digits = [] then (0, text) else (clip signed.1 (valueOf base digits), rest)

/-- `sscanf` with `%u`: the value, if there is a number. -/
def scanUnsigned (text : List UInt8) : Option (Option UInt32) := do
  let start ← skipSpace text
  let signed := takeSign start
  let (digits, _) ← scanDigits 10 signed.2
  return if digits = [] then none else some (UInt32.ofNat (clip signed.1 (valueOf 10 digits)))

def isDigitByte (c : UInt8) : Bool := 0x30 ≤ c && c ≤ 0x39

def decimal (text : List UInt8) : Nat := valueOf 10 (text.map fun c => c.toNat - 0x30)

def decimalBytes (n : Nat) : List UInt8 := (Nat.toDigits 10 n).map fun c => UInt8.ofNat c.toNat

section Digits

variable {c : UInt8} {base : Nat} {text rest : List UInt8}

set_option maxRecDepth 10000 in
theorem digitIn_ten : digitIn 10 c = if isDigitByte c then some (c.toNat - 0x30) else none := by
  have hall : ∀ n < 256, digitIn 10 (UInt8.ofNat n) =
      if isDigitByte (UInt8.ofNat n) then some ((UInt8.ofNat n).toNat - 0x30) else none := by
    decide
  have hc := hall c.toNat c.toNat_lt
  rwa [UInt8.ofNat_toNat] at hc

theorem scanDigits_append (htext : ∀ c ∈ text, isDigitByte c = true)
    (hrest : ∀ c ∈ rest.head?, isDigitByte c = false) (hne : rest ≠ []) :
    scanDigits 10 (text ++ rest) = some (text.map fun c => c.toNat - 0x30, rest) := by
  induction text with
  | nil =>
    cases rest with
    | nil => exact absurd rfl hne
    | cons c rest =>
      have hc : isDigitByte c = false := hrest c rfl
      simp [scanDigits, digitIn_ten, hc]
  | cons c text ih =>
    have hc : isDigitByte c = true := htext c (by simp)
    have hmore := ih fun c h => htext c (by simp [h])
    simp [scanDigits, digitIn_ten, hc, hmore]

theorem scanNumber_ten (text : List UInt8) : scanNumber 10 text = scanDigits 10 text := by
  unfold scanNumber
  split
  · simp
  · rfl

theorem isDigitByte_bounds (h : isDigitByte c = true) : 48 ≤ c.toNat ∧ c.toNat ≤ 57 := by
  simp only [isDigitByte, Bool.and_eq_true, decide_eq_true_eq] at h
  exact ⟨UInt8.le_iff_toNat_le.mp h.1, UInt8.le_iff_toNat_le.mp h.2⟩

theorem not_isSpaceByte_of_isDigitByte (h : isDigitByte c = true) : isSpaceByte c = false := by
  have hbounds := isDigitByte_bounds h
  have hne : c ≠ 0x20 := by
    rintro rfl
    exact absurd hbounds.1 (by decide)
  have hhigh : ¬ c ≤ 13 := by
    intro hle
    have hnat : c.toNat ≤ 13 := UInt8.le_iff_toNat_le.mp hle
    omega
  simp [isSpaceByte, hne, hhigh]

theorem takeSign_of_isDigitByte (h : isDigitByte c = true) :
    takeSign (c :: text) = (false, c :: text) := by
  have hbounds := isDigitByte_bounds h
  unfold takeSign
  split
  · next heq =>
    obtain ⟨rfl, -⟩ := List.cons.inj heq
    exact absurd hbounds.1 (by decide)
  · next heq =>
    obtain ⟨rfl, -⟩ := List.cons.inj heq
    exact absurd hbounds.1 (by decide)
  · rfl

theorem strtoul_digits (hne : text ≠ []) (htext : ∀ c ∈ text, isDigitByte c = true)
    (hrest : ∀ c ∈ rest.head?, isDigitByte c = false) (hend : rest ≠ []) :
    strtoul 10 (text ++ rest) = some (clip false (decimal text), rest) := by
  cases text with
  | nil => exact absurd rfl hne
  | cons c text =>
    have hc : isDigitByte c = true := htext c (by simp)
    have hspace := not_isSpaceByte_of_isDigitByte hc
    have hscan := scanDigits_append htext hrest hend
    simp only [strtoul, List.cons_append, skipSpace, hspace, Bool.false_eq_true, if_false,
      Option.bind_eq_bind, Option.bind_some, takeSign_of_isDigitByte hc, scanNumber_ten]
    rw [List.cons_append] at hscan
    simp [hscan, decimal]

end Digits

section Cut

variable {base : Nat} {c : UInt8} {text rest : List UInt8} {digits : List Nat} {v : Nat}

theorem digitOf_none (h : digitOf c = none) : digitIn base c = none := by
  simp [digitIn, h]

theorem scanDigits_cut (h : scanDigits base text = some (digits, c :: rest)) :
    ∃ used, text = used ++ c :: rest ∧
      ∀ tail, scanDigits base (used ++ c :: tail) = some (digits, c :: tail) := by
  induction text generalizing digits with
  | nil => cases h
  | cons d text ih =>
    rw [scanDigits] at h
    cases hd : digitIn base d with
    | none =>
      simp only [hd, Option.some.injEq, Prod.mk.injEq, List.cons.injEq] at h
      obtain ⟨rfl, rfl, rfl⟩ := h
      refine ⟨[], rfl, ?_⟩
      intro tail
      simp [scanDigits, hd]
    | some value =>
      simp only [hd, Option.map_eq_some_iff, Prod.mk.injEq] at h
      obtain ⟨r, hr, rfl, hrest⟩ := h
      have hscan : scanDigits base text = some (r.1, c :: rest) := by rw [hr, ← hrest]
      obtain ⟨used, hsplit, hcut⟩ := ih hscan
      refine ⟨d :: used, by rw [hsplit, List.cons_append], ?_⟩
      intro tail
      simp [scanDigits, hd, hcut tail]

theorem skipSpace_cut {start : List UInt8} (h : skipSpace text = some start) :
    ∃ spaces, text = spaces ++ start ∧ ∀ d tail, isSpaceByte d = false →
      skipSpace (spaces ++ d :: tail) = some (d :: tail) := by
  induction text with
  | nil => cases h
  | cons d text ih =>
    rw [skipSpace] at h
    split at h
    · next hd =>
      obtain ⟨spaces, hsplit, hcut⟩ := ih h
      refine ⟨d :: spaces, by rw [hsplit, List.cons_append], ?_⟩
      intro e tail he
      simp [skipSpace, hd, hcut e tail he]
    · obtain rfl := Option.some.inj h
      refine ⟨[], rfl, ?_⟩
      intro e tail he
      simp [skipSpace, he]

/-- A `0x` in base 16. -/
def HexPrefixed (base : Nat) (text : List UInt8) : Prop :=
  ∃ x rest, text = 0x30 :: x :: rest ∧ base = 16 ∧ (x = 0x78 ∨ x = 0x58)

theorem scanNumber_not_hex (h : ¬ HexPrefixed base text) :
    scanNumber base text = scanDigits base text := by
  unfold scanNumber
  split
  · next x rest =>
    apply if_neg
    intro hx
    exact h ⟨x, rest, rfl, hx⟩
  · rfl

theorem HexPrefixed.of_cut {used tail : List UInt8} (h : HexPrefixed base (used ++ 0x3B :: tail))
    (rest : List UInt8) : HexPrefixed base (used ++ 0x3B :: rest) := by
  obtain ⟨x, more, heq, hbase, hx⟩ := h
  match used with
  | [] => cases heq
  | [a] =>
    simp only [List.cons_append, List.nil_append, List.cons.injEq] at heq
    rw [← heq.2.1] at hx
    exact absurd hx (by decide)
  | a :: b :: used =>
    simp only [List.cons_append, List.cons.injEq] at heq
    obtain ⟨rfl, rfl, -⟩ := heq
    exact ⟨b, used ++ 0x3B :: rest, rfl, hbase, hx⟩

theorem scanNumber_cut (h : scanNumber base text = some (digits, 0x3B :: rest)) :
    ∃ used, text = used ++ 0x3B :: rest ∧
      ∀ tail, scanNumber base (used ++ 0x3B :: tail) = some (digits, 0x3B :: tail) := by
  by_cases hhex : HexPrefixed base text
  · obtain ⟨x, more, rfl, rfl, hx⟩ := hhex
    simp only [scanNumber, true_and, hx, if_true, Option.map_eq_some_iff] at h
    obtain ⟨r, hr, heq⟩ := h
    by_cases hnone : r.1 = []
    · rw [if_pos hnone, Prod.mk.injEq, List.cons.injEq] at heq
      rw [heq.2.1] at hx
      exact absurd hx (by decide)
    · rw [if_neg hnone] at heq
      rw [heq] at hr
      obtain ⟨used, hsplit, hcut⟩ := scanDigits_cut hr
      refine ⟨0x30 :: x :: used, by rw [hsplit]; rfl, ?_⟩
      intro tail
      have hdigits : digits ≠ [] := by
        rw [heq] at hnone
        exact hnone
      simp [scanNumber, hx, hcut tail, hdigits]
  · rw [scanNumber_not_hex hhex] at h
    obtain ⟨used, rfl, hcut⟩ := scanDigits_cut h
    refine ⟨used, rfl, ?_⟩
    intro tail
    rw [scanNumber_not_hex, hcut tail]
    intro hcutHex
    exact hhex (hcutHex.of_cut rest)

theorem takeSign_cut {start used : List UInt8} {negative : Bool}
    (h : takeSign start = (negative, used ++ 0x3B :: rest)) :
    ∃ sign, start = sign ++ (used ++ 0x3B :: rest) ∧
      ∀ tail, takeSign (sign ++ (used ++ 0x3B :: tail)) = (negative, used ++ 0x3B :: tail) := by
  unfold takeSign at h
  split at h
  · simp only [Prod.mk.injEq] at h
    obtain ⟨rfl, rfl⟩ := h
    exact ⟨[0x2D], rfl, fun _ => rfl⟩
  · simp only [Prod.mk.injEq] at h
    obtain ⟨rfl, rfl⟩ := h
    exact ⟨[0x2B], rfl, fun _ => rfl⟩
  · next hminus hplus =>
    simp only [Prod.mk.injEq] at h
    obtain ⟨rfl, rfl⟩ := h
    refine ⟨[], rfl, ?_⟩
    intro tail
    cases used with
    | nil => rfl
    | cons a used =>
      unfold takeSign
      split
      · next heq =>
        obtain ⟨rfl, -⟩ := List.cons.inj heq
        exact absurd rfl (hminus _)
      · next heq =>
        obtain ⟨rfl, -⟩ := List.cons.inj heq
        exact absurd rfl (hplus _)
      · rfl

theorem head_skipSpace {start : List UInt8} (h : skipSpace text = some start) :
    ∃ d more, start = d :: more ∧ isSpaceByte d = false := by
  induction text with
  | nil => cases h
  | cons d text ih =>
    rw [skipSpace] at h
    split at h
    · exact ih h
    · next hd =>
      obtain rfl := Option.some.inj h
      exact ⟨d, text, rfl, by simpa using hd⟩

theorem strtoul_cut (h : strtoul base text = some (v, 0x3B :: rest)) :
    ∃ used, text = used ++ 0x3B :: rest ∧
      ∀ tail, strtoul base (used ++ 0x3B :: tail) = some (v, 0x3B :: tail) := by
  simp only [strtoul, Option.bind_eq_bind, Option.bind_eq_some_iff] at h
  obtain ⟨start, hstart, r, hr, h⟩ := h
  obtain ⟨d, more, hhead, hd⟩ := head_skipSpace hstart
  by_cases hnone : r.1 = []
  · simp only [hnone, if_true, Option.pure_def, Option.some.injEq, Prod.mk.injEq] at h
    obtain ⟨rfl, rfl⟩ := h
    refine ⟨[], rfl, ?_⟩
    intro tail
    have hdigits : scanNumber base (0x3B :: tail) = some ([], 0x3B :: tail) := by
      rw [scanNumber_not_hex]
      · simp [scanDigits, digitOf_none (show digitOf 0x3B = none by decide)]
      · rintro ⟨x, more, heq, -⟩
        cases heq
    have hspace : skipSpace (0x3B :: tail) = some (0x3B :: tail) := rfl
    have hsign : takeSign (0x3B :: tail) = (false, 0x3B :: tail) := rfl
    simp [strtoul, hspace, hsign, hdigits]
  · simp only [if_neg hnone, Option.pure_def, Option.some.injEq, Prod.mk.injEq] at h
    obtain ⟨hv, hrest⟩ := h
    obtain ⟨digits, after⟩ := r
    simp only at hv hrest hnone
    subst hrest
    obtain ⟨used, hused, hcut⟩ := scanNumber_cut hr
    have htake : takeSign start = ((takeSign start).1, used ++ 0x3B :: rest) := by rw [← hused]
    obtain ⟨sign, hsign, hsigned⟩ := takeSign_cut htake
    obtain ⟨spaces, hspaces, hspaced⟩ := skipSpace_cut hstart
    refine ⟨spaces ++ (sign ++ used), by rw [hspaces, hsign]; simp, ?_⟩
    intro tail
    have hfront : sign ++ (used ++ 0x3B :: tail) = d :: (sign ++ (used ++ 0x3B :: tail)).tail := by
      rw [hsign] at hhead
      cases sign with
      | nil =>
        cases used with
        | nil => simpa using (List.cons.inj hhead).1
        | cons a used => simpa using (List.cons.inj hhead).1
      | cons a sign => simpa using (List.cons.inj hhead).1
    have hskip : skipSpace (spaces ++ (sign ++ (used ++ 0x3B :: tail))) =
        some (sign ++ (used ++ 0x3B :: tail)) := by
      rw [hfront]
      exact hspaced d _ hd
    have hassoc : spaces ++ (sign ++ used) ++ 0x3B :: tail =
        spaces ++ (sign ++ (used ++ 0x3B :: tail)) := by simp
    rw [hassoc]
    simp [strtoul, hskip, hsigned tail, hcut tail, hnone, hv]

end Cut

section Decimal

variable {n : Nat}

theorem isDigitByte_decimalBytes {c : UInt8} (h : c ∈ decimalBytes n) : isDigitByte c = true := by
  obtain ⟨d, hd, rfl⟩ := List.mem_map.mp h
  have hdigit := Nat.isDigit_of_mem_toDigits (by omega) (by omega) hd
  simp only [Char.isDigit, Bool.and_eq_true, decide_eq_true_eq] at hdigit
  have hlow : 48 ≤ d.toNat := UInt32.le_iff_toNat_le.mp hdigit.1
  have hhigh : d.toNat ≤ 57 := UInt32.le_iff_toNat_le.mp hdigit.2
  have hall : ∀ k < 58, 48 ≤ k → isDigitByte (UInt8.ofNat k) = true := by decide
  exact hall _ (by omega) hlow

theorem decimalBytes_ne_nil (n : Nat) : decimalBytes n ≠ [] := by
  simp [decimalBytes, Nat.toDigits_ne_nil]

theorem decimal_decimalBytes (n : Nat) : decimal (decimalBytes n) = n := by
  have hdigits : (decimalBytes n).map (fun c => c.toNat - 0x30) =
      (Nat.toDigits 10 n).map fun c => c.toNat - '0'.toNat := by
    rw [decimalBytes, List.map_map]
    apply List.map_congr_left
    intro d hd
    have hdigit := Nat.isDigit_of_mem_toDigits (by omega) (by omega) hd
    simp only [Char.isDigit, Bool.and_eq_true, decide_eq_true_eq] at hdigit
    have hhigh : d.toNat ≤ 57 := UInt32.le_iff_toNat_le.mp hdigit.2
    have hbyte : (UInt8.ofNat d.toNat).toNat = d.toNat := by
      simp
      omega
    simp only [Function.comp_apply, hbyte]
    rfl
  rw [decimal, hdigits, valueOf, List.foldl_map, ← Nat.ofDigitChars_eq_foldl]
  exact Nat.ofDigitChars_ten_toDigits

end Decimal

end Libjingle
