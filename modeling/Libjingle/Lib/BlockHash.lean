import Libjingle.Lib.BigEndian
import Mathlib.Algebra.Group.Fin.Basic
import Mathlib.Algebra.Ring.Nat
import Mathlib.Data.List.Basic
import Mathlib.Tactic.Common

/-! Hashing in blocks. A message is cut into blocks that are compressed one after the other,
and the bytes of the last block wait in a buffer until it is full. -/

namespace BlockHash

variable {σ β : Type*} (compress : σ → List β → σ) (k : Nat)

/-- The state after the first blocks of a message. -/
def blocks : Nat → σ → List β → σ
  | 0, s, _ => s
  | n + 1, s, l => blocks n (compress s (l.take k)) (l.drop k)

def absorb (s : σ) (l : List β) : σ := blocks compress k (l.length / k) s l

/-- What is left of a message after its whole blocks. -/
def pending (l : List β) : List β := l.drop (l.length / k * k)

/-- Bytes copied to a place of a buffer. -/
def overwrite (buf : List β) (pos : Nat) (src : List β) : List β :=
  buf.take pos ++ (src ++ buf.drop (pos + src.length))

/-- A one bit and the zeros that leave room for a count of `w` bytes in the last block. -/
def padding (w n : Nat) : List UInt8 :=
  0x80 :: List.replicate ((2 * k - 1 - w - n % k) % k) 0

/-- The bits of a message of `n` bytes, counted in two words. -/
def Counts (low high : UInt32) (n : Nat) : Prop :=
  low.toNat + 2 ^ 32 * high.toNat = 8 * n % 2 ^ 64

/-- A state and a buffer that a message has led to. -/
structure Holds (start s : σ) (buf message : List β) : Prop where
  state : s = absorb compress k start message
  size : buf.length = k
  kept : buf.take (message.length % k) = pending k message

section Blocks

variable {compress k} {s : σ} {l r b : List β} {n : Nat}

theorem blocks_append (h : n * k ≤ l.length) :
    blocks compress k n s (l ++ r) = blocks compress k n s l := by
  induction n generalizing s l with
  | zero => simp [blocks]
  | succ n ih =>
    have hk : k ≤ l.length := by
      rw [Nat.succ_mul] at h
      omega
    have hrest : n * k ≤ (l.drop k).length := by
      rw [Nat.succ_mul] at h
      simp only [List.length_drop]
      omega
    simp only [blocks, List.take_append_of_le_length hk, List.drop_append_of_le_length hk, ih hrest]

theorem blocks_add (m : Nat) :
    blocks compress k (m + n) s l = blocks compress k n (blocks compress k m s l) (l.drop (m * k)) := by
  induction m generalizing s l with
  | zero => simp [blocks]
  | succ m ih =>
    have hdrop : (l.drop k).drop (m * k) = l.drop ((m + 1) * k) := by
      rw [List.drop_drop, Nat.succ_mul, Nat.add_comm]
    rw [Nat.succ_add, blocks, ih, hdrop, blocks]

theorem length_pending : (pending k l).length = l.length % k := by
  rw [pending, List.length_drop, Nat.mod_eq_sub_div_mul]

theorem pending_of_lt (h : l.length < k) : pending k l = l := by
  simp [pending, Nat.div_eq_of_lt h]

theorem absorb_of_lt (h : l.length < k) : absorb compress k s l = s := by
  simp [absorb, Nat.div_eq_of_lt h, blocks]

theorem pending_of_dvd (h : l.length % k = 0) : pending k l = [] := by
  apply List.eq_nil_of_length_eq_zero
  rw [length_pending, h]

theorem length_append_div (hk : 0 < k) :
    (l ++ r).length / k = l.length / k + (pending k l ++ r).length / k := by
  have hsplit : (l ++ r).length = (pending k l ++ r).length + l.length / k * k := by
    have hmod := Nat.div_add_mod' l.length k
    simp only [List.length_append, length_pending]
    omega
  rw [hsplit, Nat.add_mul_div_right _ _ hk, Nat.add_comm]

theorem drop_append_blocks : (l ++ r).drop (l.length / k * k) = pending k l ++ r := by
  rw [List.drop_append_of_le_length (Nat.div_mul_le_self _ _), pending]

/-- Only what is left over has to be kept for a message to go on. -/
theorem absorb_append (hk : 0 < k) :
    absorb compress k s (l ++ r) = absorb compress k (absorb compress k s l) (pending k l ++ r) := by
  rw [absorb, length_append_div hk, blocks_add, drop_append_blocks,
    blocks_append (Nat.div_mul_le_self _ _)]
  rfl

theorem pending_append (hk : 0 < k) : pending k (l ++ r) = pending k (pending k l ++ r) := by
  have hdrop : (l ++ r).drop ((l.length / k + (pending k l ++ r).length / k) * k) =
      (pending k l ++ r).drop ((pending k l ++ r).length / k * k) := by
    rw [Nat.add_mul, ← List.drop_drop, drop_append_blocks]
  rw [pending, length_append_div hk, hdrop]
  rfl

theorem absorb_block (hk : 0 < k) (hb : b.length = k) :
    absorb compress k s b = compress s b := by
  simp [absorb, hb, Nat.div_self hk, blocks, List.take_of_length_le (Nat.le_of_eq hb)]

theorem blocks_congr {compress' : σ → List β → σ}
    (h : ∀ s b, b.length = k → compress s b = compress' s b) (hn : n * k ≤ l.length) :
    blocks compress k n s l = blocks compress' k n s l := by
  induction n generalizing s l with
  | zero => rfl
  | succ n ih =>
    rw [Nat.succ_mul] at hn
    have htake : (l.take k).length = k := by
      simp only [List.length_take]
      omega
    have hdrop : n * k ≤ (l.drop k).length := by
      simp only [List.length_drop]
      omega
    rw [blocks, blocks, h s _ htake, ih hdrop]

/-- Only what is done with whole blocks counts. -/
theorem absorb_congr {compress' : σ → List β → σ}
    (h : ∀ s b, b.length = k → compress s b = compress' s b) :
    absorb compress k s l = absorb compress' k s l :=
  blocks_congr h (Nat.div_mul_le_self _ _)

end Blocks

section Counts

variable {low high added : UInt32} {n len : Nat}

theorem counts_zero : Counts 0 0 0 := rfl

/-- The low word is added to first, and its carry goes to the high word. -/
theorem Counts.add (h : Counts low high n) (hadded : added.toNat = 8 * len % 2 ^ 32)
    {carry : Prop} [Decidable carry] (hcarry : carry ↔ 2 ^ 32 ≤ low.toNat + added.toNat) :
    Counts (low + added) ((if carry then high + 1 else high) + UInt32.ofNat (len >>> 29))
      (n + len) := by
  have hshift : len >>> 29 = len / 2 ^ 29 := Nat.shiftRight_eq_div_pow len 29
  simp only [Counts] at h ⊢
  rw [UInt32.toNat_add, UInt32.toNat_add, UInt32.toNat_ofNat', hshift]
  have hlow := low.toNat_lt
  have hhigh := high.toNat_lt
  split_ifs with hc
  · have hsum := hcarry.mp hc
    rw [UInt32.toNat_add]
    have hone : (1 : UInt32).toNat = 1 := rfl
    rw [hone]
    omega
  · have hsum : ¬ 2 ^ 32 ≤ low.toNat + added.toNat := fun hle => hc (hcarry.mpr hle)
    omega

/-- How many bytes wait in a block of 64. -/
theorem Counts.waiting (h : Counts low high n) : ((low >>> 3) &&& 63).toNat = n % 64 := by
  have hlow := low.toNat_lt
  have hmask : ∀ m : Nat, m &&& 63 = m % 64 := fun m => Nat.and_two_pow_sub_one_eq_mod m 6
  have hshift : (low >>> 3).toNat = low.toNat / 8 := by
    rw [UInt32.toNat_shiftRight]
    exact Nat.shiftRight_eq_div_pow _ 3
  rw [UInt32.toNat_and, hshift]
  have h63 : (63 : UInt32).toNat = 63 := rfl
  rw [h63, hmask]
  simp only [Counts] at h
  omega

/-- The count as bytes, the least significant one last. -/
theorem Counts.encode (h : Counts low high n) :
    BigEndian.encode 4 high.toNat ++ BigEndian.encode 4 low.toNat = BigEndian.encode 8 (8 * n) := by
  have hlow := low.toNat_lt
  have hhigh := high.toNat_lt
  simp only [Counts] at h
  have hlast : BigEndian.encode 4 low.toNat = BigEndian.encode 4 (8 * n) := by
    have hmod : low.toNat = 8 * n % 256 ^ 4 := by omega
    rw [hmod, BigEndian.encode_mod 4 _ 4 (Nat.le_refl 4)]
  have hfirst : BigEndian.encode 4 high.toNat = BigEndian.encode 4 (8 * n / 256 ^ 4) := by
    have hmod : high.toNat = 8 * n / 256 ^ 4 % 256 ^ 4 := by omega
    rw [hmod, BigEndian.encode_mod 4 _ 4 (Nat.le_refl 4)]
  rw [hlast, hfirst, ← BigEndian.encode_add]

end Counts

section Overwrite

variable {buf src : List β} {pos : Nat}

theorem length_overwrite (h : pos + src.length ≤ buf.length) :
    (overwrite buf pos src).length = buf.length := by
  simp only [overwrite, List.length_append, List.length_take, List.length_drop]
  omega

theorem take_overwrite (h : pos ≤ buf.length) :
    (overwrite buf pos src).take (pos + src.length) = buf.take pos ++ src := by
  have hlen : (buf.take pos ++ src).length = pos + src.length := by
    simp only [List.length_append, List.length_take]
    omega
  rw [overwrite, ← List.append_assoc, List.take_left' hlen]

theorem overwrite_overwrite {src' : List β} (h : pos + src.length ≤ buf.length) :
    overwrite (overwrite buf pos src) (pos + src.length) src' = overwrite buf pos (src ++ src') := by
  have hdrop : (overwrite buf pos src).drop (pos + src.length + src'.length) =
      buf.drop (pos + (src ++ src').length) := by
    have hlen : (buf.take pos ++ src).length = pos + src.length := by
      simp only [List.length_append, List.length_take]
      omega
    rw [overwrite, ← List.append_assoc, ← List.drop_drop, List.drop_left' hlen, List.drop_drop,
      List.length_append, Nat.add_assoc]
  rw [overwrite, take_overwrite (by omega), hdrop, overwrite]
  simp only [List.append_assoc]

theorem overwrite_full (h : pos + src.length = buf.length) :
    overwrite buf pos src = buf.take pos ++ src := by
  rw [overwrite, h, List.drop_length, List.append_nil]

end Overwrite

namespace Holds

variable {compress k} {start s : σ} {buf message : List β}

theorem empty (hk : 0 < k) (hsize : buf.length = k) : Holds compress k start start buf [] := by
  refine ⟨(absorb_of_lt hk).symm, hsize, ?_⟩
  rw [pending_of_lt hk, List.length_nil, Nat.zero_mod, List.take_zero]

theorem pending_lt (hk : 0 < k) (h : Holds compress k start s buf message) :
    message.length % k < buf.length := by
  rw [h.size]
  exact Nat.mod_lt _ hk

/-- Bytes that do not fill the block are only copied. -/
theorem fill (h : Holds compress k start s buf message) (data : List β)
    (hdata : message.length % k + data.length < k) :
    Holds compress k start s (overwrite buf (message.length % k) data) (message ++ data) := by
  have hk : 0 < k := by omega
  have hlt := h.pending_lt hk
  have hsize := h.size
  have hshort : (pending k message ++ data).length < k := by
    rw [List.length_append, length_pending]
    exact hdata
  have hmod : (message ++ data).length % k = message.length % k + data.length := by
    rw [List.length_append, Nat.add_mod, Nat.mod_eq_of_lt (by omega : data.length < k),
      Nat.mod_eq_of_lt hdata]
  refine ⟨?_, ?_, ?_⟩
  · rw [absorb_append hk, absorb_of_lt hshort]
    exact h.state
  · rw [length_overwrite (by omega), hsize]
  · rw [hmod, take_overwrite hlt.le, h.kept, pending_append hk, pending_of_lt hshort]

/-- Bytes that fill the block are compressed with those that waited, and none waits. -/
theorem complete (hk : 0 < k) (h : Holds compress k start s buf message) {buf' : List β}
    (data : List β) (hdata : message.length % k + data.length = k) (hbuf' : buf'.length = k) :
    Holds compress k start (compress s (buf.take (message.length % k) ++ data)) buf'
      (message ++ data) := by
  have hblock : (pending k message ++ data).length = k := by
    rw [List.length_append, length_pending]
    exact hdata
  have hmod : (message ++ data).length % k = 0 := by
    have hsplit := Nat.div_add_mod' message.length k
    have hlen : (message ++ data).length = (message.length / k + 1) * k := by
      rw [List.length_append, Nat.succ_mul]
      omega
    rw [hlen, Nat.mul_mod_left]
  refine ⟨?_, hbuf', ?_⟩
  · rw [absorb_append hk, absorb_block hk hblock, ← h.state, h.kept]
  · rw [hmod, pending_of_dvd hmod, List.take_zero]

end Holds

/-- Registers that take turns in the parts they play: in turn `i` the part `j` is played by
the register `j - i`. -/
def parts {n : Nat} [NeZero n] (i : Nat) (r : Vector β n) : Vector β n :=
  Vector.ofFn fun j => r[j - Fin.ofNat n i]

/-- What was in a part moves on to the next one. -/
def shift {n : Nat} [NeZero n] (v : Vector β n) : Vector β n := Vector.ofFn fun j => v[j - 1]

section Parts

variable {n : Nat} [NeZero n] {r v : Vector β n}

@[simp] theorem getElem_parts (i : Nat) (j : Fin n) : (parts i r)[j] = r[j - Fin.ofNat n i] := by
  simp [parts]

@[simp] theorem getElem_shift (j : Fin n) : (shift v)[j] = v[j - 1] := by
  simp [shift]

omit [NeZero n] in
theorem vector_ext (h : ∀ j : Fin n, r[j] = v[j]) : r = v :=
  Vector.ext fun j hj => h ⟨j, hj⟩

theorem parts_of_dvd {i : Nat} (h : n ∣ i) : parts i r = r := by
  have hzero : Fin.ofNat n i = 0 := by
    apply Fin.ext
    simp [Fin.ofNat, Nat.mod_eq_zero_of_dvd h]
  apply vector_ext
  intro j
  simp only [getElem_parts, hzero, sub_zero]

theorem parts_succ (i : Nat) : parts (i + 1) r = shift (parts i r) := by
  apply vector_ext
  intro j
  have hsub : j - Fin.ofNat n (i + 1) = j - 1 - Fin.ofNat n i := by
    rw [sub_sub, add_comm 1]
    congr 1
    simp [Fin.ext_iff, Fin.val_add]
  simp only [getElem_parts, getElem_shift, hsub]

theorem parts_set (i : Nat) (j : Fin n) (x : β) :
    parts i (r.set (j - Fin.ofNat n i : Fin n) x) = (parts i r).set j x := by
  apply vector_ext
  intro m
  rw [getElem_parts]
  by_cases hm : m = j
  · subst hm
    simp
  · have hne : j - Fin.ofNat n i ≠ m - Fin.ofNat n i := fun h => hm (sub_left_injective h).symm
    have hreg : (r.set (j - Fin.ofNat n i : Fin n) x)[m - Fin.ofNat n i] =
        r[m - Fin.ofNat n i] := Vector.getElem_set_ne _ _ fun h => hne (Fin.ext h)
    have hpart : ((parts i r).set j x)[m] = (parts i r)[m] :=
      Vector.getElem_set_ne _ _ fun h => hm (Fin.ext h).symm
    rw [hreg, hpart, getElem_parts]

/-- Turns of the registers are rounds of the parts. -/
theorem parts_foldl {step g : Vector β n → Nat → Vector β n}
    (h : ∀ r i, parts i (step r i) = g (parts i r) i) (m : Nat) :
    parts m ((List.range m).foldl step r) =
      (List.range m).foldl (fun v i => shift (g v i)) r := by
  induction m with
  | zero => simp [parts_of_dvd]
  | succ m ih => simp only [List.range_succ, List.foldl_append, List.foldl_cons, List.foldl_nil,
      parts_succ, h, ih]

end Parts

end BlockHash
