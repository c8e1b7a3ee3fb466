import Mathlib.Algebra.Ring.Int.Defs
import Mathlib.Algebra.Ring.Nat
import Mathlib.Data.List.Basic
import Mathlib.Data.List.Range
import Mathlib.Tactic.Common

/-! Flat memory with block copies, and the circular window a ring buffer opens
on it. Offsets are counted from a position inside the ring; a block that would
cross the end of the memory is copied in two pieces. -/

namespace Circular

variable {α : Type*}

/-- The memory after copying `src` to the cells from `pos` on. -/
def blit (mem : Nat → α) (pos : Nat) (src : List α) : Nat → α :=
  fun i => if pos ≤ i then src.getD (i - pos) (mem i) else mem i

/-- The `n` cells from `pos` on. -/
def slice (mem : Nat → α) (pos n : Nat) : List α :=
  (List.range n).map fun i => mem (pos + i)

/-- The cell at distance `k` from position `p` of a ring of `cap` cells. -/
def cell (mem : Nat → α) (cap p k : Nat) : α :=
  mem ((p + k) % cap)

/-- The first `n` cells of the ring seen from position `p`. -/
def view (mem : Nat → α) (cap p n : Nat) : List α :=
  (List.range n).map (cell mem cap p)

theorem blit_of_lt {mem : Nat → α} {pos i : Nat} {src : List α} (h : i < pos) :
    blit mem pos src i = mem i := by
  simp [blit, show ¬ pos ≤ i by omega]

theorem blit_of_ge {mem : Nat → α} {pos i : Nat} {src : List α} (h : pos + src.length ≤ i) :
    blit mem pos src i = mem i := by
  simp [blit, List.getD_eq_getElem?_getD, List.getElem?_eq_none (by omega : src.length ≤ i - pos)]

theorem blit_inside {mem : Nat → α} {pos i : Nat} {src : List α} (h : pos ≤ i)
    (hi : i - pos < src.length) : blit mem pos src i = src[i - pos] := by
  simp [blit, h, List.getElem?_eq_getElem hi]

@[simp] theorem blit_nil (mem : Nat → α) (pos : Nat) : blit mem pos [] = mem := by
  funext i
  simp [blit]

@[simp] theorem length_slice (mem : Nat → α) (pos n : Nat) : (slice mem pos n).length = n := by
  simp [slice]

@[simp] theorem slice_zero (mem : Nat → α) (pos : Nat) : slice mem pos 0 = [] := rfl

@[simp] theorem length_view (mem : Nat → α) (cap p n : Nat) : (view mem cap p n).length = n := by
  simp [view]

@[simp] theorem getElem_view {mem : Nat → α} {cap p n i : Nat}
    (h : i < (view mem cap p n).length) : (view mem cap p n)[i] = cell mem cap p i := by
  simp [view]

@[simp] theorem view_zero (mem : Nat → α) (cap p : Nat) : view mem cap p 0 = [] := rfl

theorem slice_append (mem : Nat → α) (pos n k : Nat) :
    slice mem pos (n + k) = slice mem pos n ++ slice mem (pos + n) k := by
  simp only [slice, List.range_add, List.map_append, List.map_map, Function.comp_def,
    Nat.add_assoc]

theorem slice_take (mem : Nat → α) (pos n k : Nat) :
    (slice mem pos n).take k = slice mem pos (min k n) := by
  rw [slice, slice, ← List.map_take, List.take_range]

theorem slice_drop (mem : Nat → α) (pos n k : Nat) :
    (slice mem pos n).drop k = slice mem (pos + k) (n - k) := by
  apply List.ext_getElem
  · simp
  · intro i hi hj
    simp [slice, Nat.add_assoc]

theorem slice_congr {mem mem' : Nat → α} {pos n : Nat}
    (h : ∀ i, pos ≤ i → i < pos + n → mem i = mem' i) : slice mem pos n = slice mem' pos n := by
  apply List.map_congr_left
  intro i hi
  have hlt := List.mem_range.mp hi
  exact h _ (by omega) (by omega)

theorem slice_blit (mem : Nat → α) (pos : Nat) (src : List α) :
    slice (blit mem pos src) pos src.length = src := by
  apply List.ext_getElem
  · simp
  · intro i hi hj
    simp [slice, blit, List.getElem?_eq_getElem hj]

theorem slice_blit_of_le (mem : Nat → α) (src : List α) {pos dest n : Nat} (h : pos + n ≤ dest) :
    slice (blit mem dest src) pos n = slice mem pos n :=
  slice_congr fun _ _ hi => blit_of_lt (Nat.lt_of_lt_of_le hi h)

theorem getElem_slice {mem : Nat → α} {pos n i : Nat} (h : i < (slice mem pos n).length) :
    (slice mem pos n)[i] = mem (pos + i) := by
  simp [slice]

theorem view_take {mem : Nat → α} {cap p n k : Nat} (h : k ≤ n) :
    (view mem cap p n).take k = view mem cap p k := by
  apply List.ext_getElem
  · simp [h]
  · intro i hi hj
    simp

theorem view_congr {mem mem' : Nat → α} {cap cap' p p' n : Nat}
    (h : ∀ k < n, cell mem cap p k = cell mem' cap' p' k) :
    view mem cap p n = view mem' cap' p' n := by
  apply List.map_congr_left
  intro k hk
  exact h k (List.mem_range.mp hk)

/-- Walking on from position `p` by `n` cells shifts every distance by `n`. -/
theorem cell_advance (mem : Nat → α) (cap p n k : Nat) :
    cell mem cap ((p + n) % cap) k = cell mem cap p (n + k) := by
  simp only [cell, Nat.mod_add_mod, Nat.add_assoc]

theorem view_drop (mem : Nat → α) (cap p n k : Nat) :
    (view mem cap p n).drop k = view mem cap ((p + k) % cap) (n - k) := by
  apply List.ext_getElem
  · simp
  · intro i hi hj
    simp [cell_advance]

theorem view_append (mem : Nat → α) (cap p n k : Nat) :
    view mem cap p (n + k) = view mem cap p n ++ view mem cap ((p + n) % cap) k := by
  have h := (List.take_append_drop n (view mem cap p (n + k))).symm
  rwa [view_take (by omega), view_drop, Nat.add_sub_cancel_left] at h

/-- Where distance `k` lies in memory, counted from the cell at distance `o`. -/
theorem index_from_write {cap o k : Nat} (p : Nat) (hcap : 0 < cap) (ho : o ≤ cap) (hk : k < cap) :
    (p + k) % cap = if o ≤ k then
      (if (p + o) % cap + (k - o) < cap then (p + o) % cap + (k - o)
        else (p + o) % cap + (k - o) - cap)
      else (if k + cap - o + (p + o) % cap < cap then k + cap - o + (p + o) % cap
        else k + (p + o) % cap - o) := by
  have hw : (p + o) % cap < cap := Nat.mod_lt _ hcap
  have hmod : ∀ x, (p + o + x) % cap = ((p + o) % cap + x) % cap := fun x => by
    rw [Nat.mod_add_mod]
  by_cases hok : o ≤ k
  · rw [show p + k = p + o + (k - o) by omega, hmod, if_pos hok]
    split
    · rw [Nat.mod_eq_of_lt (by omega)]
    · rw [Nat.mod_eq_sub_mod (by omega), Nat.mod_eq_of_lt (by omega)]
  · have hx : (p + k) % cap = (p + o + (k + cap - o)) % cap := by
      rw [show p + o + (k + cap - o) = p + k + cap by omega, Nat.add_mod_right]
    rw [hx, hmod, if_neg hok]
    split
    · rw [Nat.mod_eq_of_lt (by omega)]
      omega
    · rw [Nat.mod_eq_sub_mod (by omega), Nat.mod_eq_of_lt (by omega)]
      omega

/-- Reading `n` cells in two pieces, split where the memory ends, reads the
window. -/
theorem slice_split (mem : Nat → α) {cap p n : Nat} (hp : p < cap) (hn : n ≤ cap) :
    slice mem p (min n (cap - p)) ++ slice mem 0 (n - min n (cap - p)) = view mem cap p n := by
  apply List.ext_getElem
  · simp only [List.length_append, length_slice, length_view]
    omega
  · intro i hi hj
    simp only [length_view] at hj
    rw [getElem_view, List.getElem_append]
    split
    · rename_i h
      simp only [length_slice] at h
      have hlt : p + i < cap := by omega
      simp [slice, cell, Nat.mod_eq_of_lt hlt]
    · rename_i h
      simp only [length_slice] at h
      have hw : (p + i) % cap = i - min n (cap - p) := by
        rw [Nat.mod_eq_sub_mod (by omega), Nat.mod_eq_of_lt (by omega)]
        omega
      simp [slice, cell, hw]

/-- Writing `src` at distance `o` in two pieces, split where the memory ends,
is a block copy on the window. -/
theorem cell_blit_split (mem : Nat → α) {cap o k : Nat} (p : Nat) (src : List α) (hcap : 0 < cap)
    (hfit : o + src.length ≤ cap) (hk : k < cap) :
    cell (blit (blit mem ((p + o) % cap) (src.take (cap - (p + o) % cap))) 0
      (src.drop (cap - (p + o) % cap))) cap p k = blit (cell mem cap p) o src k := by
  have hw : (p + o) % cap < cap := Nat.mod_lt _ hcap
  have hrel := index_from_write p hcap (show o ≤ cap by omega) hk
  have hkc : (p + k) % cap < cap := Nat.mod_lt _ hcap
  simp only [cell]
  generalize (p + o) % cap = w at hw hrel ⊢
  generalize hc : (p + k) % cap = c at hkc hrel ⊢
  have htake : (src.take (cap - w)).length = min (cap - w) src.length := List.length_take
  have hdrop : (src.drop (cap - w)).length = src.length - (cap - w) := List.length_drop
  by_cases hok : o ≤ k
  · rw [if_pos hok] at hrel
    by_cases hin : k - o < src.length
    · rw [blit_inside hok hin]
      split at hrel
      · rw [blit_of_ge (by omega), blit_inside (by omega) (by omega)]
        simp only [List.getElem_take]
        congr 1
        omega
      · rw [blit_inside (by omega) (by omega)]
        simp only [List.getElem_drop]
        congr 1
        omega
    · rw [blit_of_ge (by omega : o + src.length ≤ k), cell, hc]
      rw [blit_of_ge (by split at hrel <;> omega)]
      by_cases hcw : c < w
      · rw [blit_of_lt hcw]
      · rw [blit_of_ge (by split at hrel <;> omega)]
  · rw [if_neg hok] at hrel
    rw [blit_of_lt (by omega : k < o), cell, hc]
    rw [blit_of_ge (by split at hrel <;> omega)]
    by_cases hcw : c < w
    · rw [blit_of_lt hcw]
    · rw [blit_of_ge (by split at hrel <;> omega)]

end Circular
