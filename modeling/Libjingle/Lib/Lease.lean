import Mathlib.Logic.Function.Iterate
import Mathlib.Tactic.Common
import Libjingle.Lib.Runs

/-! Leases that are renewed by their uses. Once in every period a lease is checked: it expires if it
has lapsed, and otherwise the next check is a period later. Time goes on by one unit, and not past
a check that is due. -/

structure Lease where
  now : Int
  due : Int
  lastUse : Int
  expired : Option Int := none

namespace Lease

inductive Event
  | tick
  | check
  | use

section Step

variable (period : Int) (lapsed : Int → Int → Bool) (s : Lease)

def step (e : Event) : Lease :=
  if s.expired.isSome then s
  else match e with
    | .tick => if s.now < s.due then { s with now := s.now + 1 } else s
    | .check =>
      if s.now < s.due then s
      else if lapsed s.now s.lastUse then { s with expired := some s.now }
      else { s with due := s.now + period }
    | .use => { s with lastUse := s.now }

/-- What is next if there is no use. -/
def next (now due : Int) : Event := if now < due then .tick else .check

def idle : Lease := step period lapsed s (next s.now s.due)

def Expires (e : Int) : Prop := ∃ n, ((idle period lapsed)^[n] s).expired = some e

/-- If it is not used any more, it expires a term after its last use at the earliest and two terms
after it at the latest. -/
def Kept (term : Int) : Prop :=
  ∃ e, s.Expires period lapsed e ∧ s.lastUse + term ≤ e ∧ e ≤ s.lastUse + 2 * term

/-- The next check finds out rightly whether a period has gone by since the last use, and if not
the one after it finds that it has. -/
def Sound : Prop := s.expired = none →
  (lapsed s.due s.lastUse = true ↔ s.lastUse + period ≤ s.due) ∧
    (s.due < s.lastUse + period → lapsed (s.due + period) s.lastUse = true)

structure Inv : Prop where
  alive : s.expired = none → s.lastUse ≤ s.now ∧ s.now ≤ s.due ∧ s.due ≤ s.now + period ∧
    s.due ≤ s.lastUse + 2 * period
  ended : ∀ e, s.expired = some e → s.lastUse + period ≤ e ∧ e ≤ s.lastUse + 2 * period

/-- A check that fails to see that a period has gone by fails again a period later. -/
structure Stuck : Prop where
  nonneg : 0 ≤ period
  zero : period = 0 → ∀ u, lapsed u u = true
  again : ∀ t u, u + period ≤ t → t ≤ u + 2 * period → lapsed t u = false →
    lapsed (t + period) u = false

end Step

section Idle

variable {period : Int} {lapsed : Int → Int → Bool} {s : Lease} {e : Int}

theorem step_of_expired (h : s.expired = some e) (ev : Event) : step period lapsed s ev = s := by
  simp [step, h]

theorem iterate_of_expired (h : s.expired = some e) (n : Nat) :
    (idle period lapsed)^[n] s = s :=
  Function.iterate_fixed (step_of_expired h _) n

theorem expires_of_expired (h : s.expired = some e) {e' : Int} :
    s.Expires period lapsed e' ↔ e' = e := by
  constructor
  · rintro ⟨n, hn⟩
    rw [iterate_of_expired h, h, Option.some.injEq] at hn
    exact hn.symm
  · rintro rfl
    exact ⟨0, h⟩

theorem expires_iterate (k : Nat) :
    ((idle period lapsed)^[k] s).Expires period lapsed e ↔ s.Expires period lapsed e := by
  constructor
  · rintro ⟨n, hn⟩
    rw [← Function.iterate_add_apply] at hn
    exact ⟨n + k, hn⟩
  · rintro ⟨n, hn⟩
    refine ⟨n, ?_⟩
    rw [← Function.iterate_add_apply, Nat.add_comm, Function.iterate_add_apply,
      iterate_of_expired hn, hn]

theorem iterate_tick (halive : s.expired = none) (n : Nat) (hn : s.now + n ≤ s.due) :
    (idle period lapsed)^[n] s = { s with now := s.now + n } := by
  induction n with
  | zero => simp
  | succ n ih =>
    have hlt : s.now + n < s.due := by omega
    rw [Function.iterate_succ_apply', ih (by omega), idle, next, if_pos hlt, step, halive]
    simp only [Option.isSome_none, Bool.false_eq_true, if_false, if_pos hlt]
    rw [Int.natCast_succ, Int.add_assoc]

theorem idle_due (halive : s.expired = none) (hdue : s.now = s.due) :
    idle period lapsed s =
      if lapsed s.due s.lastUse then { s with expired := some s.due }
      else { s with due := s.due + period } := by
  have hge : ¬ s.now < s.due := by omega
  rw [idle, next, if_neg hge, step, halive]
  simp only [Option.isSome_none, Bool.false_eq_true, if_false, if_neg hge]
  rw [hdue]

theorem expires_iff (halive : s.expired = none) (hdue : s.now ≤ s.due) :
    s.Expires period lapsed e ↔
      if lapsed s.due s.lastUse then e = s.due
      else Expires period lapsed { s with now := s.due, due := s.due + period } e := by
  have htick := @iterate_tick period lapsed s halive (s.due - s.now).toNat (by omega)
  have hnow : s.now + ((s.due - s.now).toNat : Int) = s.due := by omega
  rw [hnow] at htick
  rw [← expires_iterate ((s.due - s.now).toNat + 1), Function.iterate_succ_apply', htick,
    idle_due (s := { s with now := s.due }) halive rfl]
  by_cases hl : lapsed s.due s.lastUse = true
  · simp only [hl, if_true]
    exact expires_of_expired rfl
  · simp only [hl, if_false, Bool.false_eq_true]

theorem Expires.due_le (hnonneg : 0 ≤ period) (halive : s.expired = none)
    (h : s.Expires period lapsed e) : s.due ≤ e := by
  obtain ⟨n, hn⟩ := h
  induction n generalizing s with
  | zero =>
    rw [Function.iterate_zero, id, halive] at hn
    cases hn
  | succ n ih =>
    rw [Function.iterate_succ_apply] at hn
    by_cases hlt : s.now < s.due
    · have hidle : idle period lapsed s = { s with now := s.now + 1 } := by
        simp [idle, next, step, halive, hlt]
      rw [hidle] at hn
      exact ih (s := { s with now := s.now + 1 }) halive hn
    · by_cases hl : lapsed s.now s.lastUse = true
      · have hidle : idle period lapsed s = { s with expired := some s.now } := by
          simp [idle, next, step, halive, hlt, hl]
        rw [hidle, iterate_of_expired rfl, Option.some.injEq] at hn
        omega
      · have hidle : idle period lapsed s = { s with due := s.now + period } := by
          simp [idle, next, step, halive, hlt, hl]
        rw [hidle] at hn
        have := ih (s := { s with due := s.now + period }) halive hn
        simp only at this
        omega

end Idle

section Run

variable {period : Int} {lapsed : Int → Int → Bool} {s : Lease}

theorem kept_iff (h : Stuck period lapsed) (hs : s.Inv period) :
    s.Kept period lapsed period ↔ s.Sound period lapsed := by
  cases halive : s.expired with
  | some e =>
    obtain ⟨hlow, hhigh⟩ := hs.ended e halive
    refine iff_of_true ⟨e, (expires_of_expired halive).mpr rfl, hlow, hhigh⟩ fun hnone => ?_
    rw [halive] at hnone
    cases hnone
  | none =>
    obtain ⟨huse, hnow, -, hdue⟩ := hs.alive halive
    have hnonneg := h.nonneg
    -- from two failed checks on it is too late
    have hlate (t : Int) (ht : s.lastUse + period ≤ t) (ht' : t ≤ s.lastUse + 2 * period)
        (hfail : lapsed t s.lastUse = false) (e : Int)
        (he : Expires period lapsed { s with now := t, due := t + period } e) :
        s.lastUse + 2 * period < e := by
      have hpos : period ≠ 0 := by
        intro hzero
        have htrue := h.zero hzero t
        have heq : s.lastUse = t := by omega
        rw [heq, htrue] at hfail
        cases hfail
      have hnext : t ≤ t + period := by omega
      rw [expires_iff (s := { s with now := t, due := t + period }) halive hnext] at he
      simp only [h.again t s.lastUse ht ht' hfail, Bool.false_eq_true, if_false] at he
      have := Expires.due_le (s := { s with now := t + period, due := t + period + period })
        hnonneg halive he
      simp only at this
      omega
    rw [Kept, Sound]
    simp only [expires_iff halive hnow]
    by_cases hl : lapsed s.due s.lastUse = true
    · simp only [hl, if_true]
      constructor
      · rintro ⟨e, rfl, hlow, -⟩
        exact fun _ => ⟨iff_of_true trivial hlow, fun hlt => by omega⟩
      · intro hsound
        exact ⟨s.due, rfl, (hsound halive).1.mp trivial, hdue⟩
    · have hfail := Bool.eq_false_iff.mpr hl
      simp only [hfail, Bool.false_eq_true, if_false]
      by_cases hlt : s.due < s.lastUse + period
      · have hnext : s.due ≤ s.due + period := by omega
        simp only [expires_iff (s := { s with now := s.due, due := s.due + period }) halive hnext]
        by_cases hl' : lapsed (s.due + period) s.lastUse = true
        · simp only [hl', if_true]
          exact iff_of_true ⟨_, rfl, by omega, by omega⟩
            fun _ => ⟨iff_of_false (by decide) (by omega), fun _ => trivial⟩
        · simp only [Bool.eq_false_iff.mpr hl', Bool.false_eq_true, if_false]
          refine iff_of_false ?_ fun hsound => (hsound halive).2 hlt
          rintro ⟨e, he, -, hhigh⟩
          have := hlate (s.due + period) (by omega) (by omega) (Bool.eq_false_iff.mpr hl') e he
          omega
      · refine iff_of_false ?_ fun hsound => (hsound halive).1.mpr (by omega)
        rintro ⟨e, he, -, hhigh⟩
        have := hlate s.due (by omega) hdue hfail e he
        omega

theorem Inv.step (hnonneg : 0 ≤ period) (hs : s.Inv period) (hsound : s.Sound period lapsed)
    (ev : Event) : (s.step period lapsed ev).Inv period := by
  cases halive : s.expired with
  | some e => rwa [step_of_expired halive]
  | none =>
    obtain ⟨huse, hnow, hnext, hdue⟩ := hs.alive halive
    cases ev with
    | tick =>
      simp only [Lease.step, halive, Option.isSome_none, Bool.false_eq_true, if_false]
      split
      · exact ⟨fun _ => by simp only; omega, fun e he => absurd he (by simp)⟩
      · exact hs
    | use =>
      simp only [Lease.step, halive, Option.isSome_none, Bool.false_eq_true, if_false]
      exact ⟨fun _ => by simp only; omega, fun e he => absurd he (by simp)⟩
    | check =>
      simp only [Lease.step, halive, Option.isSome_none, Bool.false_eq_true, if_false]
      split
      · exact hs
      · have heq : s.now = s.due := by omega
        split
        · rename_i hl
          rw [heq] at hl
          have := (hsound halive).1.mp hl
          refine ⟨fun hnone => absurd hnone (by simp), fun e he => ?_⟩
          have he' : s.now = e := Option.some.inj he
          simp only
          omega
        · rename_i hl
          rw [heq] at hl
          have := mt (hsound halive).1.mpr hl
          exact ⟨fun _ => by simp only; omega, fun e he => absurd he (by simp)⟩

/-- A lease is kept all along if and only if all its checks are sound, or what that comes to. -/
theorem kept_run_iff (h : Stuck period lapsed) {Q : Lease → Prop}
    (hQ : ∀ s : Lease, s.Inv period → (s.Sound period lapsed ↔ Q s)) (hs : s.Inv period)
    (events : List Event) :
    (∀ n, Kept period lapsed ((events.take n).foldl (step period lapsed) s) period) ↔
      ∀ n, Q ((events.take n).foldl (step period lapsed) s) := by
  have hiff (s : Lease) (hs : s.Inv period) : s.Kept period lapsed period ↔ Q s :=
    (kept_iff h hs).trans (hQ s hs)
  by_cases hkept : s.Kept period lapsed period
  · rw [← @Runs.along_after_iff _ _ (step period lapsed) (fun s => s.Kept period lapsed period) s
        hkept events,
      ← @Runs.along_after_iff _ _ (step period lapsed) Q s ((hiff s hs).mp hkept) events]
    refine @Runs.along_iff _ _ (step period lapsed) _ _
      (fun s => s.Inv period ∧ s.Sound period lapsed) (fun s e hinv => ?_)
      (fun s e hinv hkept => ?_) s ⟨hs, (kept_iff h hs).mp hkept⟩ events
    · exact hiff _ (hinv.1.step h.nonneg hinv.2 e)
    · have hnext := hinv.1.step h.nonneg hinv.2 e
      exact ⟨hnext, (kept_iff h hnext).mp hkept⟩
  · exact iff_of_false (fun hall => hkept (hall 0)) fun hall => hkept ((hiff s hs).mpr (hall 0))

/-- A lease that has just begun. -/
def start (period t : Int) : Lease where
  now := t
  due := t + period
  lastUse := t

theorem inv_start (hnonneg : 0 ≤ period) (t : Int) : (start period t).Inv period :=
  ⟨fun _ => by simp only [start]; omega, fun e he => absurd he (by simp [start])⟩

theorem kept_start (hnonneg : 0 ≤ period) {t term : Int} (hl : lapsed (t + period) t = true) :
    (start period t).Kept period lapsed term ↔ term ≤ period ∧ period ≤ 2 * term := by
  have hexp (e : Int) : (start period t).Expires period lapsed e ↔ e = t + period := by
    rw [expires_iff rfl (by simp only [start]; omega)]
    exact iff_of_eq (if_pos hl)
  simp only [Kept, hexp]
  constructor
  · rintro ⟨e, rfl, hlow, hhigh⟩
    simp only [start] at hlow hhigh
    omega
  · intro hterm
    refine ⟨t + period, rfl, ?_⟩
    simp only [start]
    omega

end Run

end Lease
