import Mathlib.Data.List.Forall2

/-! Two lists whose elements are related one by one. -/

namespace Paired

variable {α β : Type*} {R : α → β → Prop} {l : List α} {l' : List β}

theorem exists_of_mem_left {a : α} (h : List.Forall₂ R l l') (ha : a ∈ l) : ∃ b ∈ l', R a b := by
  induction h with
  | nil => exact absurd ha List.not_mem_nil
  | cons hab _ ih =>
    rcases List.mem_cons.mp ha with rfl | ha
    · exact ⟨_, List.mem_cons_self, hab⟩
    · obtain ⟨b, hb, hR⟩ := ih ha
      exact ⟨b, List.mem_cons_of_mem _ hb, hR⟩

theorem exists_of_mem_right {b : β} (h : List.Forall₂ R l l') (hb : b ∈ l') : ∃ a ∈ l, R a b := by
  induction h with
  | nil => exact absurd hb List.not_mem_nil
  | cons hab _ ih =>
    rcases List.mem_cons.mp hb with rfl | hb
    · exact ⟨_, List.mem_cons_self, hab⟩
    · obtain ⟨a, ha, hR⟩ := ih hb
      exact ⟨a, List.mem_cons_of_mem _ ha, hR⟩

theorem forall₂_mem (h : List.Forall₂ R l l') :
    List.Forall₂ (fun a b => a ∈ l ∧ b ∈ l' ∧ R a b) l l' := by
  induction h with
  | nil => exact .nil
  | cons hab _ ih =>
    refine .cons ⟨List.mem_cons_self, List.mem_cons_self, hab⟩ (ih.imp fun a b hR => ?_)
    exact ⟨List.mem_cons_of_mem _ hR.1, List.mem_cons_of_mem _ hR.2.1, hR.2.2⟩

theorem comp {γ : Type*} {S : β → γ → Prop} {l'' : List γ} (h : List.Forall₂ R l l')
    (h' : List.Forall₂ S l' l'') : List.Forall₂ (fun a c => ∃ b, R a b ∧ S b c) l l'' := by
  induction h generalizing l'' with
  | nil =>
    cases h'
    exact .nil
  | cons hab _ ih =>
    cases h' with
    | cons hbc hrest => exact .cons ⟨_, hab, hbc⟩ (ih hrest)

/-- The pairs of the lists. -/
theorem exists_pairs (h : List.Forall₂ R l l') : ∃ pairs : List (α × β),
    pairs.map (·.1) = l ∧ pairs.map (·.2) = l' ∧ ∀ p ∈ pairs, R p.1 p.2 := by
  have hlength := h.length_eq
  exact ⟨l.zip l', List.map_fst_zip (Nat.le_of_eq hlength),
    List.map_snd_zip (Nat.le_of_eq hlength.symm), fun p hp => List.forall₂_zip h hp⟩

end Paired
