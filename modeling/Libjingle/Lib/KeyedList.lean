import Mathlib.Data.List.Nodup
import Mathlib.Logic.Function.Basic
import Mathlib.Tactic.Common

/-! Lists with one entry for a key, as maps: what a list does to its entries beside what a map
does to its keys. -/

namespace KeyedList

variable {κ α : Type*}

/-- No two of the list have one key, and the map has what the list has. -/
structure Represents (key : α → κ) (l : List α) (m : κ → Option α) : Prop where
  nodup : (l.map key).Nodup
  mem : ∀ k e, m k = some e ↔ e ∈ l ∧ key e = k

variable {key : α → κ} {l r : List α} {m : κ → Option α} {x e : α}

theorem Represents.of_mem (h : Represents key l m) (hx : x ∈ l) : m (key x) = some x :=
  (h.mem _ _).mpr ⟨hx, rfl⟩

theorem Represents.none_iff (h : Represents key l m) {k : κ} :
    m k = none ↔ ∀ e ∈ l, key e ≠ k := by
  constructor
  · rintro hnone e he rfl
    rw [h.of_mem he] at hnone
    cases hnone
  · intro hall
    rw [Option.eq_none_iff_forall_ne_some]
    intro e he
    obtain ⟨hmem, hkey⟩ := (h.mem _ _).mp he
    exact hall e hmem hkey

theorem Represents.split (h : Represents key (l ++ x :: r) m) :
    ∀ y ∈ l ++ r, key y ≠ key x := by
  have hnodup := h.nodup
  rw [List.map_append, List.map_cons, List.nodup_append, List.nodup_cons] at hnodup
  obtain ⟨-, ⟨hr, -⟩, hdisjoint⟩ := hnodup
  intro y hy
  rcases List.mem_append.mp hy with hy | hy
  · exact hdisjoint _ (List.mem_map_of_mem hy) _ List.mem_cons_self
  · exact fun heq => hr (heq ▸ List.mem_map_of_mem hy)

variable [DecidableEq κ]

theorem Represents.append (h : Represents key l m) (hnew : m (key e) = none) :
    Represents key (l ++ [e]) (Function.update m (key e) (some e)) := by
  have hfresh := h.none_iff.mp hnew
  constructor
  · rw [List.map_append, List.nodup_append]
    refine ⟨h.nodup, by simp, fun a ha b hb => ?_⟩
    obtain ⟨y, hy, rfl⟩ := List.mem_map.mp ha
    obtain rfl : b = key e := by simpa using hb
    exact hfresh y hy
  · intro k y
    rw [List.mem_append, List.mem_singleton]
    by_cases hk : k = key e
    · subst hk
      rw [Function.update_self, Option.some.injEq]
      constructor
      · rintro rfl
        exact ⟨.inr rfl, rfl⟩
      · rintro ⟨hy | rfl, hkey⟩
        · exact absurd hkey (hfresh y hy)
        · rfl
    · rw [Function.update_of_ne hk, h.mem]
      constructor
      · rintro ⟨hy, hkey⟩
        exact ⟨.inl hy, hkey⟩
      · rintro ⟨hy | rfl, hkey⟩
        · exact ⟨hy, hkey⟩
        · exact absurd hkey.symm hk

theorem Represents.replace (h : Represents key (l ++ x :: r) m) (he : key e = key x) :
    Represents key (l ++ e :: r) (Function.update m (key e) (some e)) := by
  have hothers := h.split
  constructor
  · have hkeys : (l ++ e :: r).map key = (l ++ x :: r).map key := by simp [he]
    rw [hkeys]
    exact h.nodup
  · intro k y
    by_cases hk : k = key e
    · subst hk
      rw [Function.update_self, Option.some.injEq]
      constructor
      · rintro rfl
        exact ⟨by simp, rfl⟩
      · rintro ⟨hy, hkey⟩
        rcases List.mem_append.mp hy with hy | hy
        · exact absurd (hkey.trans he) (hothers y (List.mem_append_left _ hy))
        · rcases List.mem_cons.mp hy with rfl | hy
          · rfl
          · exact absurd (hkey.trans he) (hothers y (List.mem_append_right _ hy))
    · rw [Function.update_of_ne hk, h.mem]
      simp only [List.mem_append, List.mem_cons]
      constructor
      · rintro ⟨hy | rfl | hy, hkey⟩
        · exact ⟨.inl hy, hkey⟩
        · exact absurd (hkey.symm.trans he.symm) hk
        · exact ⟨.inr (.inr hy), hkey⟩
      · rintro ⟨hy | rfl | hy, hkey⟩
        · exact ⟨.inl hy, hkey⟩
        · exact absurd hkey.symm hk
        · exact ⟨.inr (.inr hy), hkey⟩

theorem Represents.remove (h : Represents key (l ++ x :: r) m) :
    Represents key (l ++ r) (Function.update m (key x) none) := by
  have hothers := h.split
  constructor
  · refine h.nodup.sublist (List.Sublist.map key ?_)
    exact (List.sublist_cons_self x r).append_left l
  · intro k y
    by_cases hk : k = key x
    · subst hk
      rw [Function.update_self]
      constructor
      · intro hnone
        cases hnone
      · rintro ⟨hy, hkey⟩
        exact absurd hkey (hothers y hy)
    · rw [Function.update_of_ne hk, h.mem]
      simp only [List.mem_append, List.mem_cons]
      constructor
      · rintro ⟨hy | rfl | hy, hkey⟩
        · exact ⟨.inl hy, hkey⟩
        · exact absurd hkey.symm hk
        · exact ⟨.inr hy, hkey⟩
      · rintro ⟨hy | hy, hkey⟩
        · exact ⟨.inl hy, hkey⟩
        · exact ⟨.inr (.inr hy), hkey⟩

end KeyedList
