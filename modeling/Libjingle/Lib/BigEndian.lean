import Mathlib.Algebra.Ring.Int.Defs
import Mathlib.Algebra.Ring.Nat
import Mathlib.Data.List.Basic
import Mathlib.Tactic.Common

/-! Numbers as byte strings, most significant byte first. -/

namespace BigEndian

def encode : Nat → Nat → List UInt8
  | 0, _ => []
  | k + 1, n => UInt8.ofNat (n / 256 ^ k) :: encode k n

def decode : List UInt8 → Nat
  | [] => 0
  | b :: rest => b.toNat * 256 ^ rest.length + decode rest

@[simp] theorem length_encode (k n : Nat) : (encode k n).length = k := by
  induction k with
  | zero => rfl
  | succ k ih => simp [encode, ih]

theorem decode_lt (bytes : List UInt8) : decode bytes < 256 ^ bytes.length := by
  induction bytes with
  | nil => simp [decode]
  | cons b rest ih =>
    have hb : b.toNat ≤ 255 := by have := b.toNat_lt; omega
    have hm : b.toNat * 256 ^ rest.length ≤ 255 * 256 ^ rest.length := Nat.mul_le_mul_right _ hb
    simp only [decode, List.length_cons, Nat.pow_succ]
    omega

theorem decode_encode (k n : Nat) : decode (encode k n) = n % 256 ^ k := by
  induction k with
  | zero => simp [encode, decode, Nat.mod_one]
  | succ k ih =>
    have hb : (UInt8.ofNat (n / 256 ^ k)).toNat = n / 256 ^ k % 256 := by simp
    simp only [encode, decode, length_encode, ih, hb, Nat.pow_succ]
    rw [Nat.mod_mul, Nat.add_comm, Nat.mul_comm]

theorem decode_encode_of_lt {k n : Nat} (h : n < 256 ^ k) : decode (encode k n) = n := by
  rw [decode_encode, Nat.mod_eq_of_lt h]

theorem encode_mod (k n j : Nat) (h : k ≤ j) : encode k (n % 256 ^ j) = encode k n := by
  induction k with
  | zero => rfl
  | succ k ih =>
    have hj : 256 ^ j = 256 ^ k * 256 * 256 ^ (j - (k + 1)) := by
      rw [← Nat.pow_succ, ← Nat.pow_add, Nat.add_sub_cancel' h]
    have hd : n % 256 ^ j / 256 ^ k % 256 = n / 256 ^ k % 256 := by
      rw [hj, Nat.mul_assoc, Nat.mod_mul_right_div_self, Nat.mod_mod_of_dvd _ ⟨_, rfl⟩]
    simp only [encode, ih (by omega)]
    congr 1
    rw [← UInt8.toNat_inj]
    simpa using hd

theorem encode_decode (bytes : List UInt8) : encode bytes.length (decode bytes) = bytes := by
  induction bytes with
  | nil => rfl
  | cons b rest ih =>
    have hlt := decode_lt rest
    have hpos : 0 < 256 ^ rest.length := Nat.pos_of_ne_zero (by simp)
    have hd : (b.toNat * 256 ^ rest.length + decode rest) / 256 ^ rest.length = b.toNat := by
      rw [Nat.mul_comm, Nat.mul_add_div hpos, Nat.div_eq_of_lt hlt, Nat.add_zero]
    have hr : encode rest.length (b.toNat * 256 ^ rest.length + decode rest) = rest := by
      rw [← encode_mod _ _ _ (Nat.le_refl _), Nat.mul_add_mod_self_right, Nat.mod_eq_of_lt hlt, ih]
    simp only [List.length_cons, encode, decode, hd, hr, UInt8.ofNat_toNat]

theorem encode_add (j k n : Nat) :
    encode (j + k) n = encode j (n / 256 ^ k) ++ encode k n := by
  induction j with
  | zero => simp [encode]
  | succ j ih =>
    have hdiv : n / 256 ^ k / 256 ^ j = n / 256 ^ (j + k) := by
      rw [Nat.div_div_eq_div_mul, ← Nat.pow_add, Nat.add_comm k]
    rw [Nat.succ_add, encode, encode, ih, hdiv, List.cons_append]

end BigEndian
