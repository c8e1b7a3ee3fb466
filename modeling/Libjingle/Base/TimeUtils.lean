import Mathlib.Tactic.Common

/-! Readings of the 32-bit clock in milliseconds, and their differences. -/

namespace Libjingle

def timeDiff (later earlier : UInt32) : Int := (later - earlier).toBitVec.toInt

def timeIsLater (earlier later : UInt32) : Bool := timeDiff later earlier > 0

def clockAt (time : Int) : UInt32 := UInt32.ofInt time

theorem toNat_clockAt (time : Int) : ((clockAt time).toNat : Int) = time % 4294967296 := by
  have hpos : 0 ≤ time % 4294967296 := Int.emod_nonneg _ (by decide)
  have hlt : time % 4294967296 < 4294967296 := Int.emod_lt_of_pos _ (by decide)
  have hval : (UInt32.ofNat (time % 4294967296).toNat).toNat = (time % 4294967296).toNat :=
    UInt32.toNat_ofNat_of_lt' (by simp only [UInt32.size]; omega)
  have hof : clockAt time = UInt32.ofNat (time % 4294967296).toNat := rfl
  rw [hof, hval]
  omega

theorem clockAt_add_clockAt (time d : Int) : clockAt time + clockAt d = clockAt (time + d) := by
  have htime := toNat_clockAt time
  have hd := toNat_clockAt d
  have hsum := toNat_clockAt (time + d)
  have hadd := UInt32.toNat_add (clockAt time) (clockAt d)
  apply UInt32.toNat_inj.mp
  omega

theorem clockAt_add (time : Int) (n : Nat) :
    clockAt time + UInt32.ofNat n = clockAt (time + n) := by
  have hn : UInt32.ofNat n = clockAt n := by
    have hval := toNat_clockAt n
    have hof : (UInt32.ofNat n).toNat = n % 4294967296 := UInt32.toNat_ofNat'
    apply UInt32.toNat_inj.mp
    omega
  rw [hn, clockAt_add_clockAt]

theorem timeDiff_eq (later earlier : UInt32) : timeDiff later earlier =
    if 2 * (later - earlier).toNat < 4294967296 then ((later - earlier).toNat : Int)
    else (later - earlier).toNat - 4294967296 := by
  rw [timeDiff, BitVec.toInt_eq_toNat_cond]
  rfl

theorem timeDiff_bounds (later earlier : UInt32) :
    -2147483648 ≤ timeDiff later earlier ∧ timeDiff later earlier < 2147483648 := by
  have hlt := (later - earlier).toNat_lt
  rw [timeDiff_eq]
  split <;> omega

theorem timeDiff_clockAt {later earlier : Int} (hlow : -2147483648 ≤ later - earlier)
    (hhigh : later - earlier < 2147483648) :
    timeDiff (clockAt later) (clockAt earlier) = later - earlier := by
  have hl := toNat_clockAt later
  have he := toNat_clockAt earlier
  have hsub : (clockAt later - clockAt earlier).toNat =
      (4294967296 - (clockAt earlier).toNat + (clockAt later).toNat) % 4294967296 :=
    UInt32.toNat_sub _ _
  have hlt := (clockAt earlier).toNat_lt
  rw [timeDiff_eq, hsub]
  split <;> omega

/-- The time closest to `now` at which the clock reads `tstamp`. -/
def timeOf (now : Int) (tstamp : UInt32) : Int := now + timeDiff tstamp (clockAt now)

theorem clockAt_timeOf (now : Int) (tstamp : UInt32) : clockAt (timeOf now tstamp) = tstamp := by
  have hnow := toNat_clockAt now
  have hof := toNat_clockAt (timeOf now tstamp)
  have hsub : (tstamp - clockAt now).toNat =
      (4294967296 - (clockAt now).toNat + tstamp.toNat) % 4294967296 := UInt32.toNat_sub _ _
  have htstamp := tstamp.toNat_lt
  have hlt := (clockAt now).toNat_lt
  rw [timeOf, timeDiff_eq, hsub] at hof
  apply UInt32.toNat_inj.mp
  rw [timeOf, timeDiff_eq, hsub]
  split at hof <;> rename_i hhalf
  · rw [if_pos hhalf]
    omega
  · rw [if_neg hhalf]
    omega

end Libjingle
