import Libjingle.P2p.Connection
import Mathlib.Order.Basic
import Mathlib.Data.Set.Basic

/-! The priority of a pair against its formula. Twice the larger priority is computed in
32 bits, so that the formula holds of the pairs whose priorities are below `2 ^ 31`. -/

namespace Libjingle.Connection

variable {T : Type}

def formula (g d : Nat) : Nat :=
  2 ^ 32 * min g d + 2 * max g d + if d < g then 1 else 0

theorem pairPriority_toNat (g d : UInt32) :
    (pairPriority g d).toNat = 2 ^ 32 * min g.toNat d.toNat +
      (2 * max g.toNat d.toNat + if d < g then 1 else 0) % 2 ^ 32 := by
  have hmin : (if d < g then d else g).toNat = min g.toNat d.toNat := by
    by_cases h : d < g
    · have := UInt32.lt_iff_toNat_lt.mp h
      rw [if_pos h]
      omega
    · have := mt UInt32.lt_iff_toNat_lt.mpr h
      rw [if_neg h]
      omega
  have hmax : (if g < d then d else g).toNat = max g.toNat d.toNat := by
    by_cases h : g < d
    · have := UInt32.lt_iff_toNat_lt.mp h
      rw [if_pos h]
      omega
    · have := mt UInt32.lt_iff_toNat_lt.mpr h
      rw [if_neg h]
      omega
  have hbit : (if d < g then 1 else 0 : UInt32).toNat = if d < g then 1 else 0 := by
    by_cases h : d < g <;> simp [h]
  have hlow : (2 * (if g < d then d else g) + if d < g then 1 else 0 : UInt32).toNat =
      (2 * max g.toNat d.toNat + if d < g then 1 else 0) % 2 ^ 32 := by
    rw [UInt32.toNat_add, UInt32.toNat_mul, hmax, hbit, Nat.mod_add_mod]
    rfl
  have hhigh : ((if d < g then d else g).toUInt64 <<< 32).toNat =
      2 ^ 32 * min g.toNat d.toNat := by
    have hlt := g.toNat_lt
    rw [UInt64.toNat_shiftLeft, UInt32.toNat_toUInt64, hmin, Nat.shiftLeft_eq, Nat.mul_comm]
    exact Nat.mod_eq_of_lt (by simp; omega)
  have hlt := g.toNat_lt
  have hmod := Nat.mod_lt (2 * max g.toNat d.toNat + if d < g then 1 else 0)
    (show 0 < 2 ^ 32 by decide)
  rw [pairPriority, UInt64.toNat_add, hhigh, UInt32.toNat_toUInt64, hlow]
  exact Nat.mod_eq_of_lt (by omega)

theorem pairPriority_eq_formula_iff (g d : UInt32) :
    (pairPriority g d).toNat = formula g.toNat d.toNat ↔ max g.toNat d.toNat < 2 ^ 31 := by
  simp only [pairPriority_toNat, formula, ← UInt32.lt_iff_toNat_lt]
  generalize hbit : (if d < g then 1 else 0) = bit
  have hle : bit ≤ 1 := by
    rw [← hbit]
    split <;> omega
  constructor
  · intro h
    have := Nat.mod_lt (2 * max g.toNat d.toNat + bit) (show 0 < 2 ^ 32 by decide)
    omega
  · intro h
    rw [Nat.mod_eq_of_lt (by omega)]
    omega

theorem formula_lt {g d g' d' : Nat} (h : max g d < 2 ^ 31)
    (hlt : min g d < min g' d' ∨ min g d = min g' d' ∧ max g d < max g' d') :
    formula g d < formula g' d' := by
  have hbit : (if d < g then 1 else 0) ≤ 1 := by split <;> omega
  rw [formula, formula]
  omega

theorem formula_inj {g d g' d' : Nat} (h : max g d < 2 ^ 31) (h' : max g' d' < 2 ^ 31)
    (heq : formula g d = formula g' d') : g = g' ∧ d = d' := by
  have hmin : min g d = min g' d' := by
    by_contra hne
    rcases Nat.lt_or_gt_of_ne hne with hlt | hgt
    · exact absurd heq (formula_lt h (.inl hlt)).ne
    · exact absurd heq (formula_lt h' (.inl hgt)).ne'
  have hmax : max g d = max g' d' := by
    by_contra hne
    rcases Nat.lt_or_gt_of_ne hne with hlt | hgt
    · exact absurd heq (formula_lt h (.inr ⟨hmin, hlt⟩)).ne
    · exact absurd heq (formula_lt h' (.inr ⟨hmin.symm, hgt⟩)).ne'
  rw [formula, formula, hmin, hmax] at heq
  split at heq <;> split at heq <;> omega

def sides (c : Connection T) : UInt32 × UInt32 :=
  if c.role = .controlling then (c.localCandidate.priority, c.remoteCandidate.priority)
  else (c.remoteCandidate.priority, c.localCandidate.priority)

theorem priority_eq {c : Connection T} (h : c.role ≠ .unknown) :
    c.priority = pairPriority c.sides.1 c.sides.2 := by
  cases hrole : c.role with
  | controlling => simp [priority, sides, hrole]
  | controlled => simp [priority, sides, hrole]
  | unknown => exact absurd hrole h

def lower (c : Connection T) : Nat := min c.sides.1.toNat c.sides.2.toNat

def upper (c : Connection T) : Nat := max c.sides.1.toNat c.sides.2.toNat

def Mirrors (c c' : Connection T) : Prop :=
  c.role = .controlling ∧ c'.role = .controlled ∧
    c.localCandidate.priority = c'.remoteCandidate.priority ∧
    c.remoteCandidate.priority = c'.localCandidate.priority

theorem Mirrors.sides_eq {c c' : Connection T} (h : Mirrors c c') : c.sides = c'.sides := by
  obtain ⟨hc, hc', hlocal, hremote⟩ := h
  simp [sides, hc, hc', hlocal, hremote]

/-- What the priorities of connections are for, over the pairs of priorities in `S`: they
follow the formula, the two ends of a pair agree, and those of one role are ordered by the
smaller and then by the larger priority of the pair. -/
structure RanksPairs (S : Set (UInt32 × UInt32)) : Prop where
  follows : ∀ c : Connection UInt32, c.role ≠ .unknown → c.sides ∈ S →
    c.priority.toNat = formula c.sides.1.toNat c.sides.2.toNat
  agrees : ∀ c c' : Connection UInt32, Mirrors c c' → c.sides ∈ S → c.priority = c'.priority
  separates : ∀ c c' : Connection UInt32, c.role ≠ .unknown → c.role = c'.role → c.sides ∈ S →
    c'.sides ∈ S → c.sides ≠ c'.sides → c.priority ≠ c'.priority
  orders : ∀ c c' : Connection UInt32, c.role ≠ .unknown → c.role = c'.role → c.sides ∈ S →
    c'.sides ∈ S →
    c.lower < c'.lower ∨ c.lower = c'.lower ∧ c.upper < c'.upper → c.priority < c'.priority

theorem Mirrors.priority_eq {c c' : Connection T} (h : Mirrors c c') :
    c.priority = c'.priority := by
  have hsides := h.sides_eq
  obtain ⟨hc, hc', -⟩ := h
  rw [Connection.priority_eq (by simp [hc]), Connection.priority_eq (by simp [hc']), hsides]

theorem exists_sides (g d : UInt32) :
    ∃ c : Connection UInt32, c.role ≠ .unknown ∧ c.sides = (g, d) :=
  ⟨create 0 .controlling 0 { priority := g } { priority := d }, by simp [create, sides]⟩

/-- The priorities do this exactly for priorities below `2 ^ 31`. -/
theorem ranksPairs_iff (S : Set (UInt32 × UInt32)) :
    RanksPairs S ↔ ∀ p ∈ S, max p.1.toNat p.2.toNat < 2 ^ 31 := by
  constructor
  · intro h p hp
    obtain ⟨c, hrole, hc⟩ := exists_sides p.1 p.2
    have hfollows := h.follows c hrole (hc ▸ hp)
    rw [priority_eq hrole, hc] at hfollows
    exact (pairPriority_eq_formula_iff p.1 p.2).mp hfollows
  · intro h
    have hfollows : ∀ c : Connection UInt32, c.role ≠ .unknown → c.sides ∈ S →
        c.priority.toNat = formula c.sides.1.toNat c.sides.2.toNat := by
      intro c hrole hc
      rw [priority_eq hrole]
      exact (pairPriority_eq_formula_iff _ _).mpr (h _ hc)
    refine ⟨hfollows, fun c c' hm _ => hm.priority_eq, ?_, ?_⟩
    · intro c c' hrole hsame hc hc' hne heq
      have hrole' : c'.role ≠ .unknown := hsame ▸ hrole
      have hformula := congrArg UInt64.toNat heq
      rw [hfollows c hrole hc, hfollows c' hrole' hc'] at hformula
      obtain ⟨hg, hd⟩ := formula_inj (h _ hc) (h _ hc') hformula
      exact hne (Prod.ext (UInt32.toNat_inj.mp hg) (UInt32.toNat_inj.mp hd))
    · intro c c' hrole hsame hc hc' hlt
      have hrole' : c'.role ≠ .unknown := hsame ▸ hrole
      rw [UInt64.lt_iff_toNat_lt, hfollows c hrole hc, hfollows c' hrole' hc']
      exact formula_lt (h _ hc) hlt

/-- A remote priority that the signalling carries as it is. Its double is lost, so that the
pair comes behind one with a lower remote priority. -/
theorem priority_wraps :
    ∃ c c' : Connection UInt32, c.role = .controlling ∧ c'.role = .controlling ∧
      c.sides = (2130706431, 2147483647) ∧ c'.sides = (2130706431, 2147483648) ∧
      c'.priority.toNat ≠ formula 2130706431 2147483648 ∧ c'.priority < c.priority :=
  ⟨create 0 .controlling 0 { priority := 2130706431 } { priority := 2147483647 },
    create 0 .controlling 0 { priority := 2130706431 } { priority := 2147483648 }, by decide⟩

end Libjingle.Connection
