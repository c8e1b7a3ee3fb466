import Mathlib.Algebra.Ring.Int.Defs
import Mathlib.Algebra.Ring.Nat
import Mathlib.Algebra.BigOperators.Group.List.Basic
import Mathlib.Tactic.Common

/-! Pieces laid end to end. Every piece of a list has a size, and stands in a
given relation to the place where the sizes before it put it. -/

namespace Layout

variable {α : Type*} {size : α → Nat} {fits : Nat → α → Prop}

/-- The room the pieces take. -/
def extent (size : α → Nat) (l : List α) : Nat := (l.map size).sum

/-- Every piece fits its place when the first one is put at `p`. -/
def Laid (size : α → Nat) (fits : Nat → α → Prop) : Nat → List α → Prop
  | _, [] => True
  | p, a :: rest => fits p a ∧ Laid size fits (p + size a) rest

@[simp] theorem extent_nil : extent size [] = 0 := rfl

@[simp] theorem extent_cons (a : α) (l : List α) :
    extent size (a :: l) = size a + extent size l := by
  simp [extent]

@[simp] theorem extent_append (l l' : List α) :
    extent size (l ++ l') = extent size l + extent size l' := by
  simp [extent]

@[simp] theorem laid_nil (p : Nat) : Laid size fits p [] := trivial

@[simp] theorem laid_cons {p : Nat} {a : α} {l : List α} :
    Laid size fits p (a :: l) ↔ fits p a ∧ Laid size fits (p + size a) l := Iff.rfl

theorem laid_append {p : Nat} {l l' : List α} :
    Laid size fits p (l ++ l') ↔ Laid size fits p l ∧ Laid size fits (p + extent size l) l' := by
  induction l generalizing p with
  | nil => simp
  | cons a rest ih => simp only [List.cons_append, laid_cons, ih, extent_cons, Nat.add_assoc, and_assoc]

theorem Laid.mono {fits' : Nat → α → Prop} {p : Nat} {l : List α}
    (h : Laid size fits p l) (himp : ∀ q, ∀ a ∈ l, fits q a → fits' q a) : Laid size fits' p l := by
  induction l generalizing p with
  | nil => trivial
  | cons a rest ih =>
    exact ⟨himp p a List.mem_cons_self h.1, ih h.2 fun q b hb => himp q b (List.mem_cons_of_mem _ hb)⟩

/-- Every piece has a place inside the extent. -/
theorem Laid.exists_place {p : Nat} {l : List α} (h : Laid size fits p l) {a : α} (ha : a ∈ l) :
    ∃ q, fits q a ∧ p ≤ q ∧ q + size a ≤ p + extent size l := by
  obtain ⟨pre, post, rfl⟩ := List.append_of_mem ha
  obtain ⟨-, hmid⟩ := laid_append.mp h
  refine ⟨p + extent size pre, hmid.1, Nat.le_add_right _ _, ?_⟩
  simp only [extent_append, extent_cons]
  omega

/-- Replacing a piece by pieces that fill its place. -/
theorem Laid.replace {p : Nat} {pre post new : List α} {a : α}
    (h : Laid size fits p (pre ++ a :: post)) (hsize : extent size new = size a)
    (hnew : ∀ q, fits q a → Laid size fits q new) : Laid size fits p (pre ++ new ++ post) := by
  obtain ⟨hpre, ha, hpost⟩ := laid_append.mp h
  rw [List.append_assoc, laid_append, laid_append, hsize]
  exact ⟨hpre, hnew _ ha, hpost⟩

theorem extent_replace {pre post new : List α} {a : α} (hsize : extent size new = size a) :
    extent size (pre ++ new ++ post) = extent size (pre ++ a :: post) := by
  simp only [extent_append, extent_cons, hsize]
  omega

/-- A split into a part with a property and a part without it is unique. -/
theorem append_cons_unique {p : α → Prop} {a b c d : List α} {y : α} (ha : ∀ x ∈ a, p x)
    (hy : ¬ p y) (hc : ∀ x ∈ c, p x) (hd : ∀ x ∈ d, ¬ p x) (h : a ++ y :: b = c ++ d) :
    a = c ∧ y :: b = d := by
  induction a generalizing c with
  | nil =>
    cases c with
    | nil => exact ⟨rfl, h⟩
    | cons z c =>
      obtain ⟨rfl, -⟩ := List.cons.inj h
      exact absurd (hc y List.mem_cons_self) hy
  | cons x a ih =>
    cases c with
    | nil =>
      have hx : ¬ p x := hd x (by rw [show d = _ from h.symm]; simp)
      exact absurd (ha x List.mem_cons_self) hx
    | cons z c =>
      obtain ⟨rfl, htail⟩ := List.cons.inj h
      obtain ⟨rfl, hrest⟩ := ih (fun x hx => ha x (List.mem_cons_of_mem _ hx))
        (fun x hx => hc x (List.mem_cons_of_mem _ hx)) htail
      exact ⟨rfl, hrest⟩

/-- An element with the property lies in the first part of such a split. -/
theorem append_cons_split {p : α → Prop} {a b c d : List α} {y : α} (hy : p y)
    (ha : ∀ x ∈ a, p x) (hd : ∀ x ∈ d, ¬ p x) (h : a ++ y :: b = c ++ d) :
    ∃ c', c = a ++ y :: c' ∧ b = c' ++ d := by
  induction a generalizing c with
  | nil =>
    cases c with
    | nil => exact absurd hy (hd y (by rw [show d = _ from h.symm]; simp))
    | cons z c =>
      obtain ⟨rfl, rfl⟩ := List.cons.inj h
      exact ⟨c, rfl, rfl⟩
  | cons x a ih =>
    cases c with
    | nil =>
      have hx : ¬ p x := hd x (by rw [show d = _ from h.symm]; simp)
      exact absurd (ha x List.mem_cons_self) hx
    | cons z c =>
      obtain ⟨rfl, htail⟩ := List.cons.inj h
      obtain ⟨c', rfl, hb⟩ := ih (fun x hx => ha x (List.mem_cons_of_mem _ hx)) htail
      exact ⟨c', rfl, hb⟩

end Layout
