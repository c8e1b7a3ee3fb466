import Mathlib

/-! Cyclic redundancy codes with reflected registers. A register holds a polynomial over two
elements with the highest power in its first bit, and what it holds after some bits is their
remainder. -/

namespace CyclicCode

open Polynomial

variable {w : Nat}

/-- One turn of a register: multiplied with the variable, reduced by the generator. -/
def step (g c : BitVec w) : BitVec w := if c.getLsbD 0 then g ^^^ (c >>> 1) else c >>> 1

def bit (b : Bool) : BitVec w := if b then 1#w else 0#w

def feed (g c : BitVec w) (b : Bool) : BitVec w := step g (c ^^^ bit b)

/-- Bits as a word, the first one in the first place. -/
def word : List Bool → BitVec w
  | [] => 0#w
  | b :: rest => bit b ^^^ (word rest <<< 1)

section Linear

variable {g c d : BitVec w}

theorem step_xor : step g (c ^^^ d) = step g c ^^^ step g d := by
  have hcancel : ∀ a b : BitVec w, g ^^^ a ^^^ (g ^^^ b) = a ^^^ b := fun a b => by
    rw [BitVec.xor_comm g a, BitVec.xor_assoc, ← BitVec.xor_assoc g g b, BitVec.xor_self,
      BitVec.zero_xor]
  unfold step
  rw [BitVec.getLsbD_xor, BitVec.ushiftRight_xor_distrib]
  cases c.getLsbD 0 <;> cases d.getLsbD 0
  · simp
  · simp only [Bool.false_xor, if_true, Bool.false_eq_true, if_false]
    ac_rfl
  · simp only [Bool.xor_false, if_true, Bool.false_eq_true, if_false]
    ac_rfl
  · simp [hcancel]

theorem iterate_step_xor (n : Nat) : (step g)^[n] (c ^^^ d) = (step g)^[n] c ^^^ (step g)^[n] d := by
  induction n generalizing c d with
  | zero => rfl
  | succ n ih => simp only [Function.iterate_succ_apply, step_xor, ih]

theorem step_shiftLeft (h : c.getLsbD (w - 1) = false) : step g (c <<< 1) = c := by
  have hzero : (c <<< 1).getLsbD 0 = false := by simp
  rw [step, hzero, if_neg Bool.false_ne_true]
  apply BitVec.eq_of_getLsbD_eq
  intro i hi
  by_cases hlast : i = w - 1
  · subst hlast
    rw [h]
    simp
    omega
  · have hlt : 1 + i < w := by omega
    simp [hlt, BitVec.getLsbD_eq_getElem hi]

theorem iterate_step_shiftLeft {n : Nat} (h : ∀ i, w ≤ i + n → c.getLsbD i = false) :
    (step g)^[n] (c <<< n) = c := by
  induction n with
  | zero => simp
  | succ n ih =>
    have htop : (c <<< n).getLsbD (w - 1) = false := by
      rw [BitVec.getLsbD_shiftLeft, h (w - 1 - n) (by omega), Bool.and_false]
    rw [Function.iterate_succ_apply, BitVec.shiftLeft_add, step_shiftLeft htop]
    exact ih fun i hi => h i (by omega)

/-- Some turns at once: the bits that go out are looked up, the others move. -/
theorem iterate_step_eq (n : Nat) :
    (step g)^[n] c = (step g)^[n] (c ^^^ (c >>> n) <<< n) ^^^ (c >>> n) := by
  have hmoved : (step g)^[n] ((c >>> n) <<< n) = c >>> n := by
    apply iterate_step_shiftLeft
    intro i hi
    rw [BitVec.getLsbD_ushiftRight]
    exact BitVec.getLsbD_of_ge c (n + i) (by omega)
  rw [iterate_step_xor, hmoved, BitVec.xor_assoc, BitVec.xor_self, BitVec.xor_zero]

/-- What goes out of the register comes back as the top of the generator. -/
theorem step_injective (hw : 0 < w) (hg : g.getLsbD (w - 1) = true) :
    Function.Injective (step g) := by
  have hzero : ∀ c, step g c = 0#w → c = 0#w := by
    intro c h
    have htop := congrArg (·.getLsbD (w - 1)) h
    have hout : (c >>> 1).getLsbD (w - 1) = false := by
      rw [BitVec.getLsbD_ushiftRight]
      exact BitVec.getLsbD_of_ge _ _ (by omega)
    unfold step at h htop
    cases hc : c.getLsbD 0 with
    | true =>
      rw [hc, if_pos rfl] at htop
      simp [hg, hout] at htop
    | false =>
      rw [hc, if_neg Bool.false_ne_true] at h
      apply BitVec.eq_of_getLsbD_eq
      intro i hi
      rw [BitVec.getLsbD_zero]
      cases i with
      | zero => exact hc
      | succ i =>
        have hbit := congrArg (·.getLsbD i) h
        rwa [BitVec.getLsbD_ushiftRight, BitVec.getLsbD_zero, Nat.add_comm] at hbit
  intro c d h
  have hxor : step g (c ^^^ d) = 0#w := by
    rw [step_xor, h, BitVec.xor_self]
  exact BitVec.xor_eq_zero_iff.mp (hzero _ hxor)

end Linear

section Words

variable {g c : BitVec w} {bits bits' : List Bool}

theorem getLsbD_word (i : Nat) : (word bits : BitVec w).getLsbD i = (decide (i < w) && bits.getD i false) := by
  induction bits generalizing i with
  | nil => simp [word]
  | cons b rest ih =>
    cases i with
    | zero => cases b <;> simp [word, bit]
    | succ i =>
      have hbit : (bit b : BitVec w).getLsbD (i + 1) = false := by
        cases b <;> simp [bit]
      rw [word, BitVec.getLsbD_xor, hbit, Bool.false_xor, BitVec.getLsbD_shiftLeft, ih]
      by_cases hi : i + 1 < w
      · simp [hi]
        omega
      · simp [hi]

/-- Bits that fit in the register may all be put in at once. -/
theorem foldl_feed (h : bits.length ≤ w) :
    bits.foldl (feed g) c = (step g)^[bits.length] (c ^^^ word bits) := by
  induction bits generalizing c with
  | nil => simp [word]
  | cons b rest ih =>
    rw [List.length_cons] at h
    have htop : (word rest : BitVec w).getLsbD (w - 1) = false := by
      rw [getLsbD_word, List.getD_eq_default _ _ (by omega), Bool.and_false]
    have hstep : feed g c b ^^^ word rest = step g (c ^^^ word (b :: rest)) := by
      rw [feed, word, ← BitVec.xor_assoc, step_xor (c := c ^^^ bit b) (d := word rest <<< 1),
        step_shiftLeft htop]
    rw [List.foldl_cons, ih (by omega), hstep, List.length_cons, Function.iterate_succ_apply]

theorem word_injective (hlen : bits.length = bits'.length) (h : bits.length ≤ w)
    (heq : (word bits : BitVec w) = word bits') : bits = bits' := by
  apply List.ext_getElem hlen
  intro i hi hi'
  have hbit := congrArg (·.getLsbD i) heq
  simp only [getLsbD_word, List.getD_eq_getElem _ _ hi, List.getD_eq_getElem _ _ hi',
    decide_eq_true (by omega : i < w), Bool.true_and] at hbit
  exact hbit

/-- Bits that fit in the register are told apart by what it holds after them. -/
theorem foldl_feed_injective (hw : 0 < w) (hg : g.getLsbD (w - 1) = true)
    (hlen : bits.length = bits'.length) (h : bits.length ≤ w)
    (heq : bits.foldl (feed g) c = bits'.foldl (feed g) c) : bits = bits' := by
  rw [foldl_feed h, foldl_feed (hlen ▸ h), ← hlen] at heq
  have hword := (step_injective hw hg).iterate bits.length heq
  exact word_injective hlen h ((BitVec.xor_right_inj c).mp hword)

/-- What comes after does not hide a difference. -/
theorem foldl_feed_state (hw : 0 < w) (hg : g.getLsbD (w - 1) = true) {d : BitVec w}
    (heq : bits.foldl (feed g) c = bits.foldl (feed g) d) : c = d := by
  induction bits generalizing c d with
  | nil => exact heq
  | cons b rest ih =>
    have hstep := step_injective hw hg (ih heq)
    exact (BitVec.xor_left_inj (bit b)).mp hstep

end Words

/-! The polynomials. -/

section Remainder

noncomputable def value (c : BitVec w) : (ZMod 2)[X] :=
  ∑ i ∈ Finset.range w, if c.getLsbD i then X ^ (w - 1 - i) else 0

noncomputable def generator (g : BitVec w) : (ZMod 2)[X] := X ^ w + value g

/-- Bits as a polynomial, the first one with the highest power. -/
noncomputable def message (bits : List Bool) : (ZMod 2)[X] :=
  bits.foldl (fun p b => p * X + if b then 1 else 0) 0

variable {g c d : BitVec w}

theorem value_xor : value (c ^^^ d) = value c + value d := by
  unfold value
  rw [← Finset.sum_add_distrib]
  apply Finset.sum_congr rfl
  intro i _
  rw [BitVec.getLsbD_xor]
  cases c.getLsbD i <;> cases d.getLsbD i <;> simp [CharTwo.add_self_eq_zero]

theorem X_mul_value (hw : 0 < w) :
    X * value c = value (c >>> 1) + if c.getLsbD 0 then X ^ w else 0 := by
  obtain ⟨n, rfl⟩ : ∃ n, w = n + 1 := ⟨w - 1, by omega⟩
  have hout : c.getLsbD (1 + n) = false := BitVec.getLsbD_of_ge _ _ (by omega)
  have hfirst : X * (if c.getLsbD 0 then X ^ (n + 1 - 1 - 0) else 0) =
      if c.getLsbD 0 then (X ^ (n + 1) : (ZMod 2)[X]) else 0 := by
    rw [mul_ite, mul_zero, ← pow_succ']
    rfl
  have hrest : ∀ i ∈ Finset.range n,
      X * (if c.getLsbD (i + 1) then X ^ (n + 1 - 1 - (i + 1)) else 0) =
        if c.getLsbD (1 + i) then (X ^ (n + 1 - 1 - i) : (ZMod 2)[X]) else 0 := by
    intro i hi
    have hi := Finset.mem_range.mp hi
    rw [mul_ite, mul_zero, ← pow_succ', Nat.add_comm i 1]
    congr 2
    omega
  unfold value
  rw [Finset.mul_sum, Finset.sum_range_succ', Finset.sum_range_succ]
  simp only [BitVec.getLsbD_ushiftRight, hout]
  rw [hfirst, Finset.sum_congr rfl hrest]
  simp

theorem value_step (hw : 0 < w) :
    value (step g c) = X * value c + if c.getLsbD 0 then generator g else 0 := by
  rw [X_mul_value hw, step]
  cases c.getLsbD 0 with
  | true =>
    simp only [if_true]
    rw [value_xor, generator, add_assoc, ← add_assoc (X ^ w), CharTwo.add_self_eq_zero, zero_add,
      add_comm]
  | false => simp

theorem value_bit (hw : 0 < w) (b : Bool) :
    value (bit b : BitVec w) = if b then X ^ (w - 1) else 0 := by
  cases b with
  | false => simp [value, bit]
  | true =>
    unfold value
    rw [Finset.sum_eq_single 0]
    · simp [bit, hw]
    · intro i _ hne
      simp [bit, hne]
    · intro h
      exact absurd (Finset.mem_range.mpr hw) h

theorem value_feed (hw : 0 < w) (b : Bool) :
    value (feed g c b) = X * value c + (if b then X ^ w else 0) +
      if (c ^^^ bit b).getLsbD 0 then generator g else 0 := by
  have hbit : X * value (bit b : BitVec w) = if b then X ^ w else 0 := by
    rw [value_bit hw, mul_ite, mul_zero, ← pow_succ', Nat.sub_add_cancel hw]
  rw [feed, value_step hw, value_xor, mul_add, hbit]

theorem degree_value (c : BitVec w) : (value c).degree < w := by
  rw [← mem_degreeLT]
  apply Submodule.sum_mem
  intro i hi
  have hi := Finset.mem_range.mp hi
  split_ifs
  · rw [mem_degreeLT, degree_X_pow]
    exact Nat.cast_lt.mpr (by omega)
  · exact Submodule.zero_mem _

theorem monic_generator (g : BitVec w) : (generator g).Monic := monic_X_pow_add (degree_value g)

theorem message_append (bits : List Bool) (b : Bool) :
    message (bits ++ [b]) = message bits * X + if b then 1 else 0 := by
  simp [message]

/-- All that is taken out of the register is a multiple of the generator. -/
theorem value_foldl_add (hw : 0 < w) (bits : List Bool) :
    ∃ q, value (bits.foldl (feed g) c) + generator g * q =
      X ^ bits.length * value c + X ^ w * message bits := by
  induction bits using List.reverseRecOn with
  | nil => exact ⟨0, by simp [message]⟩
  | append_singleton bits b ih =>
    obtain ⟨q, hq⟩ := ih
    rw [List.foldl_append, List.foldl_cons, List.foldl_nil, value_feed hw, message_append,
      List.length_append, List.length_singleton, pow_succ]
    refine ⟨X * q - if (bits.foldl (feed g) c ^^^ bit b).getLsbD 0 then 1 else 0, ?_⟩
    have hexpand : X ^ bits.length * X * value c +
        X ^ w * (message bits * X + if b then 1 else 0) =
        X * (X ^ bits.length * value c + X ^ w * message bits) + if b then X ^ w else 0 := by
      cases b <;> simp <;> ring
    rw [hexpand, ← hq]
    cases (bits.foldl (feed g) c ^^^ bit b).getLsbD 0 <;> simp <;> ring

/-- What the register holds is the remainder of what it held before and of the bits. -/
theorem value_foldl (hw : 0 < w) (bits : List Bool) :
    value (bits.foldl (feed g) c) =
      (X ^ bits.length * value c + X ^ w * message bits) %ₘ generator g := by
  obtain ⟨q, hq⟩ := value_foldl_add (g := g) (c := c) hw bits
  have hdegree : (value (bits.foldl (feed g) c)).degree < (generator g).degree := by
    have hlower : (value g).degree < ((X : (ZMod 2)[X]) ^ w).degree := by
      rw [degree_X_pow]
      exact degree_value g
    rw [generator, degree_add_eq_left_of_degree_lt hlower, degree_X_pow]
    exact degree_value _
  exact (div_modByMonic_unique q _ (monic_generator g) ⟨hq, hdegree⟩).2.symm

end Remainder

end CyclicCode
