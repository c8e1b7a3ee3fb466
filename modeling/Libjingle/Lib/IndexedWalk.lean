import Mathlib.Data.List.Nodup
import Mathlib.Tactic.Common

/-! Walks along a list by an index while the list changes: items are appended and removed. The walk
has met the first items and none of those behind them. -/

namespace IndexedWalk

variable {α : Type*}

/-- The first `n` items are met and the others are not. -/
structure Split (met : α → Prop) (l : List α) (n : Nat) : Prop where
  le : n ≤ l.length
  front : ∀ x ∈ l.take n, met x
  back : ∀ x ∈ l.drop n, ¬ met x

variable {met met' : α → Prop} {l : List α} {n i : Nat} {x : α}

theorem split_zero (h : ∀ x ∈ l, ¬ met x) : Split met l 0 where
  le := Nat.zero_le _
  front _ hx := absurd hx List.not_mem_nil
  back := h

theorem Split.append (h : Split met l n) (hx : ¬ met x) : Split met (l ++ [x]) n where
  le := Nat.le_trans h.le (by simp)
  front y hy := by
    rw [List.take_append_of_le_length h.le] at hy
    exact h.front y hy
  back y hy := by
    rw [List.drop_append_of_le_length h.le, List.mem_append, List.mem_singleton] at hy
    rcases hy with hy | rfl
    · exact h.back y hy
    · exact hx

/-- What is left of the first items are the first ones of what is left. -/
theorem Split.filter (h : Split met l n) (p : α → Bool) :
    Split met (l.filter p) ((l.take n).countP p) := by
  have hlength : ((l.take n).filter p).length = (l.take n).countP p :=
    List.countP_eq_length_filter.symm
  have hsplit : l.filter p = (l.take n).filter p ++ (l.drop n).filter p := by
    rw [← List.filter_append, List.take_append_drop]
  constructor
  · rw [hsplit, List.length_append, hlength]
    exact Nat.le_add_right _ _
  · intro x hx
    rw [hsplit, ← hlength, List.take_left] at hx
    exact h.front x (List.mem_of_mem_filter hx)
  · intro x hx
    rw [hsplit, ← hlength, List.drop_left] at hx
    exact h.back x (List.mem_of_mem_filter hx)

theorem Split.mem_of_length_le (h : Split met l n) (hle : l.length ≤ n) (hx : x ∈ l) : met x :=
  h.front x (by rwa [List.take_of_length_le hle])

/-- The first item that is not met stands behind those that are. -/
theorem Split.find_eq (h : Split met l n) {p : α → Bool} (hp : ∀ x, p x = true ↔ ¬ met x) :
    l.find? p = l[n]? := by
  have hsplit : l.find? p = ((l.take n).find? p).or ((l.drop n).find? p) := by
    rw [← List.find?_append, List.take_append_drop]
  have hfront : (l.take n).find? p = none := by
    rw [List.find?_eq_none]
    intro x hx
    rw [hp]
    exact not_not.mpr (h.front x hx)
  rw [hsplit, hfront]
  cases hdrop : l.drop n with
  | nil =>
    rw [List.getElem?_eq_none (List.drop_eq_nil_iff.mp hdrop)]
    rfl
  | cons y rest =>
    have hy : p y = true := (hp y).mpr (h.back y (by rw [hdrop]; exact List.mem_cons_self))
    have hget : l[n]? = some y := by
      rw [← Nat.add_zero n, ← List.getElem?_drop, hdrop]
      rfl
    rw [hget, List.find?_cons_of_pos hy]
    rfl

/-- The walk meets one more item. -/
theorem Split.next (h : Split met l n) (hnodup : l.Nodup) (hn : l[n]? = some x)
    (hmet : ∀ y ∈ l, (met' y ↔ met y ∨ y = x)) : Split met' l (n + 1) := by
  obtain ⟨hlt, rfl⟩ := List.getElem?_eq_some_iff.mp hn
  constructor
  · exact hlt
  · intro y hy
    rw [hmet y (List.mem_of_mem_take hy)]
    rw [List.take_add_one, List.mem_append, hn] at hy
    rcases hy with hy | hy
    · exact Or.inl (h.front y hy)
    · exact Or.inr (by simpa using hy)
  · intro y hy
    rw [hmet y (List.mem_of_mem_drop hy), not_or]
    have hdrop : l.drop n = l[n] :: l.drop (n + 1) := List.drop_eq_getElem_cons hlt
    refine ⟨h.back y (by rw [hdrop]; exact List.mem_cons_of_mem _ hy), ?_⟩
    rintro rfl
    have hsub : (l.drop n).Nodup := hnodup.sublist (List.drop_sublist n l)
    rw [hdrop] at hsub
    exact (List.nodup_cons.mp hsub).1 hy

/-- An index that counts removed items goes past one that is not met, if there is one. -/
theorem getElem_eq_iff (hnodup : l.Nodup) (hle : n ≤ i) :
    l[i]? = l[n]? ↔ n = i ∨ l.length ≤ n := by
  constructor
  · intro heq
    by_contra hne
    rw [not_or, Nat.not_le] at hne
    obtain ⟨hlt, hn⟩ := hne
    rw [List.getElem?_eq_getElem hn, List.getElem?_eq_some_iff] at heq
    obtain ⟨hi, heq⟩ := heq
    exact hlt ((hnodup.getElem_inj_iff).mp heq).symm
  · rintro (rfl | hlen)
    · rfl
    · rw [List.getElem?_eq_none hlen, List.getElem?_eq_none (Nat.le_trans hlen hle)]

end IndexedWalk
