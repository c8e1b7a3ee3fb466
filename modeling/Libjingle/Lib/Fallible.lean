import Mathlib.Data.List.Forall2

/-! Computations that fail with an error: what a sequence of them and a loop over a list
gave, when they went well. -/

namespace Libjingle.Fallible

universe u

variable {ε : Type} {α β γ : Type u}

theorem bind_ok {x : Except ε α} {f : α → Except ε β} {b : β} :
    (x >>= f) = .ok b ↔ ∃ a, x = .ok a ∧ f a = .ok b := by
  cases x with
  | error e => simp [bind, Except.bind]
  | ok a => simp [bind, Except.bind]

/-- A loop goes well if each of its steps does. -/
theorem mapM_ok {f : α → Except ε β} {l : List α} {r : List β} :
    l.mapM f = .ok r ↔ List.Forall₂ (fun a b => f a = .ok b) l r := by
  induction l generalizing r with
  | nil => simp [pure, Except.pure, eq_comm]
  | cons a l ih =>
    rw [List.mapM_cons, bind_ok, List.forall₂_cons_left_iff]
    constructor
    · rintro ⟨b, hb, hrest⟩
      obtain ⟨bs, hbs, hr⟩ := bind_ok.mp hrest
      exact ⟨b, bs, hb, ih.mp hbs, (Except.ok.inj hr).symm⟩
    · rintro ⟨b, bs, hb, hbs, rfl⟩
      exact ⟨b, hb, bind_ok.mpr ⟨bs, ih.mpr hbs, rfl⟩⟩

/-- Reading what a loop wrote goes well if it does for what each of its steps wrote. -/
theorem mapM_read {write : α → Except ε β} {read : β → Except ε γ} {P : α → γ → Prop}
    {l : List α} {r : List β} (h : l.mapM write = .ok r)
    (hread : ∀ a ∈ l, ∀ b, write a = .ok b → ∃ c, read b = .ok c ∧ P a c) :
    ∃ cs, r.mapM read = .ok cs ∧ List.Forall₂ P l cs := by
  have hwrite := mapM_ok.mp h
  clear h
  simp only [mapM_ok]
  induction hwrite with
  | nil => exact ⟨[], .nil, .nil⟩
  | cons hab _ ih =>
    obtain ⟨c, hc, hP⟩ := hread _ (by simp) _ hab
    obtain ⟨cs, hcs, hPs⟩ := ih fun a ha => hread a (by simp [ha])
    exact ⟨c :: cs, .cons hc hcs, .cons hP hPs⟩

theorem forall_of_mapM {f : α → Except ε β} {P : β → Prop} {l : List α} {r : List β}
    (h : l.mapM f = .ok r) (hP : ∀ a ∈ l, ∀ b, f a = .ok b → P b) : ∀ b ∈ r, P b := by
  have hf := mapM_ok.mp h
  clear h
  induction hf with
  | nil => simp
  | cons hab _ ih =>
    intro b hb
    rcases List.mem_cons.mp hb with rfl | hb
    · exact hP _ (by simp) _ hab
    · exact ih (fun a ha => hP a (by simp [ha])) b hb

end Libjingle.Fallible
