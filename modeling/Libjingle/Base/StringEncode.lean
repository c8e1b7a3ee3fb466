import Mathlib.Algebra.Ring.Int.Defs
import Mathlib.Algebra.Ring.Nat
import Mathlib.Data.List.TakeWhile

/-! Numbers written to strings and read from them. -/

namespace Libjingle

def isSpace (c : Char) : Bool := c = ' ' || (9 ≤ c.toNat && c.toNat ≤ 13)

def numeral (text : List Char) : Bool × List Char :=
  match text with
  | '-' :: rest => (true, rest.takeWhile Char.isDigit)
  | '+' :: rest => (false, rest.takeWhile Char.isDigit)
  | _ => (false, text.takeWhile Char.isDigit)

def signed (n : Bool × List Char) : Int :=
  if n.1 then -(Nat.ofDigitChars 10 n.2 0) else Nat.ofDigitChars 10 n.2 0

/-- What a stream extracts for an `int`: the value, which is not set if there is only space,
and whether it did not fail. -/
def extractInt (s : String) : Option Int × Bool :=
  let text := s.toList.dropWhile isSpace
  let n := numeral text
  if text = [] then (none, false)
  else if n.2 = [] then (some 0, false)
  else if signed n < -2 ^ 31 then (some (-2 ^ 31), false)
  else if 2 ^ 31 ≤ signed n then (some (2 ^ 31 - 1), false)
  else (some (signed n), true)

/-- `FromString` of an `int` -/
def fromStringInt (s : String) : Option Int := if (extractInt s).2 then (extractInt s).1 else none

/-- `FromString` of a `uint32`, which takes a minus too. -/
def fromStringUInt32 (s : String) : Option UInt32 :=
  let n := numeral (s.toList.dropWhile isSpace)
  if n.2 = [] ∨ 2 ^ 32 ≤ Nat.ofDigitChars 10 n.2 0 then none
  else some (if n.1 then 0 - UInt32.ofNat (Nat.ofDigitChars 10 n.2 0)
    else UInt32.ofNat (Nat.ofDigitChars 10 n.2 0))

/-- A `long` cut down to an `int`. -/
def truncate (v : Int) : Int := (max (-2 ^ 63) (min v (2 ^ 63 - 1))).bmod (2 ^ 32)

def atoi (s : String) : Int := truncate (signed (numeral (s.toList.dropWhile isSpace)))

def toStringInt (v : Int) : String :=
  String.ofList (if v < 0 then '-' :: Nat.toDigits 10 v.natAbs else Nat.toDigits 10 v.natAbs)

def toStringUInt32 (v : UInt32) : String := String.ofList (Nat.toDigits 10 v.toNat)

theorem isDigit_toDigits {n : Nat} {c : Char} (h : c ∈ Nat.toDigits 10 n) : c.isDigit = true :=
  Nat.isDigit_of_mem_toDigits (by omega) (by omega) h

theorem not_isSpace_of_isDigit {c : Char} (h : c.isDigit = true) : isSpace c = false := by
  simp only [Char.isDigit, Bool.and_eq_true, decide_eq_true_eq] at h
  have hlow : 48 ≤ c.toNat := UInt32.le_iff_toNat_le.mp h.1
  have hne : c ≠ ' ' := by
    rintro rfl
    exact absurd hlow (by decide)
  have hhigh : ¬ c.toNat ≤ 13 := by omega
  simp [isSpace, hne, hhigh]

theorem takeWhile_toDigits (n : Nat) :
    (Nat.toDigits 10 n).takeWhile Char.isDigit = Nat.toDigits 10 n :=
  List.takeWhile_eq_self_iff.mpr fun _ => isDigit_toDigits

theorem numeral_toDigits (n : Nat) : numeral (Nat.toDigits 10 n) = (false, Nat.toDigits 10 n) := by
  have htake := takeWhile_toDigits n
  have hdigits : ∀ c ∈ Nat.toDigits 10 n, c.isDigit = true := fun _ => isDigit_toDigits
  cases hd : Nat.toDigits 10 n with
  | nil => exact absurd hd Nat.toDigits_ne_nil
  | cons c rest =>
    rw [hd] at htake hdigits
    have hc := hdigits c List.mem_cons_self
    unfold numeral
    split
    · next h =>
      obtain ⟨rfl, -⟩ := List.cons.inj h
      exact absurd hc (by decide)
    · next h =>
      obtain ⟨rfl, -⟩ := List.cons.inj h
      exact absurd hc (by decide)
    · rw [htake]

theorem dropWhile_toDigits (n : Nat) :
    (Nat.toDigits 10 n).dropWhile isSpace = Nat.toDigits 10 n := by
  have hdigits : ∀ c ∈ Nat.toDigits 10 n, c.isDigit = true := fun _ => isDigit_toDigits
  cases hd : Nat.toDigits 10 n with
  | nil => rfl
  | cons c rest =>
    rw [hd] at hdigits
    have hc := not_isSpace_of_isDigit (hdigits c List.mem_cons_self)
    rw [List.dropWhile_cons_of_neg (Bool.eq_false_iff.mp hc)]

theorem numeral_toStringInt (v : Int) :
    (toStringInt v).toList.dropWhile isSpace = (toStringInt v).toList ∧
      numeral (toStringInt v).toList = (decide (v < 0), Nat.toDigits 10 v.natAbs) := by
  by_cases hv : v < 0
  · have htake := takeWhile_toDigits v.natAbs
    have hspace : isSpace '-' = false := by decide
    simp [toStringInt, hv, numeral, htake, hspace]
  · have hdrop := dropWhile_toDigits v.natAbs
    have hnumeral := numeral_toDigits v.natAbs
    simp [toStringInt, hv, hdrop, hnumeral]

theorem signed_toDigits (v : Int) : signed (decide (v < 0), Nat.toDigits 10 v.natAbs) = v := by
  have hvalue : Nat.ofDigitChars 10 (Nat.toDigits 10 v.natAbs) 0 = v.natAbs :=
    Nat.ofDigitChars_ten_toDigits
  by_cases hv : v < 0
  · simp only [signed, hv, decide_true, if_true, hvalue]
    omega
  · simp only [signed, hv, decide_false, Bool.false_eq_true, if_false, hvalue]
    omega

theorem toStringInt_ne_empty (v : Int) : toStringInt v ≠ "" := by
  intro h
  have hlist := congrArg String.toList h
  have hdigits : Nat.toDigits 10 v.natAbs ≠ [] := Nat.toDigits_ne_nil
  by_cases hv : v < 0 <;> simp [toStringInt, hv, hdigits] at hlist

theorem fromStringInt_toStringInt {v : Int} (hlow : -2 ^ 31 ≤ v) (hhigh : v < 2 ^ 31) :
    fromStringInt (toStringInt v) = some v := by
  obtain ⟨hdrop, hnumeral⟩ := numeral_toStringInt v
  have hne : (toStringInt v).toList ≠ [] := fun h => toStringInt_ne_empty v (String.toList_eq_nil_iff.mp h)
  have hdigits : Nat.toDigits 10 v.natAbs ≠ [] := Nat.toDigits_ne_nil
  have hextract : extractInt (toStringInt v) = (some v, true) := by
    simp only [extractInt, hdrop, hnumeral, signed_toDigits, if_neg hne, if_neg hdigits]
    rw [if_neg (by omega), if_neg (by omega)]
  rw [fromStringInt, hextract]
  rfl

theorem extractInt_of_fromStringInt {s : String} {v : Int} (h : fromStringInt s = some v) :
    extractInt s = (some v, true) := by
  rw [fromStringInt] at h
  split at h
  · exact Prod.ext h ‹_›
  · cases h

theorem bounds_of_fromStringInt {s : String} {v : Int} (h : fromStringInt s = some v) :
    -2 ^ 31 ≤ v ∧ v < 2 ^ 31 := by
  have hpair := extractInt_of_fromStringInt h
  simp only [extractInt] at hpair
  split_ifs at hpair with hspace hdigits hlow hhigh
  · simp at hpair
  · simp at hpair
  · simp at hpair
  · simp at hpair
  · obtain rfl : signed _ = v := Option.some.inj (congrArg Prod.fst hpair)
    omega

theorem fromStringUInt32_toStringUInt32 (v : UInt32) :
    fromStringUInt32 (toStringUInt32 v) = some v := by
  have hdrop := dropWhile_toDigits v.toNat
  have hnumeral := numeral_toDigits v.toNat
  have hvalue : Nat.ofDigitChars 10 (Nat.toDigits 10 v.toNat) 0 = v.toNat :=
    Nat.ofDigitChars_ten_toDigits
  have hdigits : Nat.toDigits 10 v.toNat ≠ [] := Nat.toDigits_ne_nil
  have hlt : v.toNat < 2 ^ 32 := v.toNat_lt
  simp [fromStringUInt32, toStringUInt32, hdrop, hnumeral, hvalue, hdigits]
  omega

end Libjingle
