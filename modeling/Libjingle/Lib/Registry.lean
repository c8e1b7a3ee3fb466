import Mathlib.Logic.Function.Basic

/-! Entries with a payload, and an index that finds an entry by its key. -/

structure Registry (κ ι : Type*) where
  index : κ → Option Nat
  entry : Nat → Option (ι × κ)
  next : Nat

namespace Registry

variable {κ ι : Type*} (r : Registry κ ι)

/-- The index finds the live entries by their keys and nothing else. -/
structure Sound (r : Registry κ ι) : Prop where
  indexed : ∀ c o k, r.entry c = some (o, k) → r.index k = some c
  live : ∀ k c, r.index k = some c → ∃ o, r.entry c = some (o, k)
  fresh : ∀ c, r.next ≤ c → r.entry c = none

/-- The payload of an entry changes, and its key does not. -/
def relabel (c : Nat) (f : ι → ι) : Registry κ ι :=
  { r with entry := Function.update r.entry c ((r.entry c).map fun e => (f e.1, e.2)) }

variable {r}

theorem Sound.unique (h : r.Sound) {c d : Nat} {o p : ι} {k : κ} (hc : r.entry c = some (o, k))
    (hd : r.entry d = some (p, k)) : c = d :=
  Option.some.inj ((h.indexed c o k hc).symm.trans (h.indexed d p k hd))

theorem Sound.index_lt (h : r.Sound) {c : Nat} {e : ι × κ} (hc : r.entry c = some e) :
    c < r.next := by
  by_contra hle
  rw [h.fresh c (Nat.le_of_not_lt hle)] at hc
  cases hc

theorem entry_relabel_self {c : Nat} {f : ι → ι} :
    (r.relabel c f).entry c = (r.entry c).map fun e => (f e.1, e.2) :=
  Function.update_self ..

theorem entry_relabel_of_ne {c d : Nat} {f : ι → ι} (hd : d ≠ c) :
    (r.relabel c f).entry d = r.entry d :=
  Function.update_of_ne hd ..

theorem entry_of_entry_relabel {c d : Nat} {f : ι → ι} {o : ι} {k : κ}
    (hd : (r.relabel c f).entry d = some (o, k)) :
    ∃ p, r.entry d = some (p, k) ∧ o = if d = c then f p else p := by
  by_cases heq : d = c
  · subst heq
    rw [entry_relabel_self, Option.map_eq_some_iff] at hd
    obtain ⟨e, he, hek⟩ := hd
    obtain ⟨rfl, rfl⟩ := Prod.mk.inj hek
    exact ⟨e.1, he, (if_pos rfl).symm⟩
  · rw [entry_relabel_of_ne heq] at hd
    exact ⟨o, hd, (if_neg heq).symm⟩

theorem Sound.relabel (h : r.Sound) (c : Nat) (f : ι → ι) : (r.relabel c f).Sound where
  indexed d o k hd := by
    obtain ⟨p, hp, _⟩ := entry_of_entry_relabel hd
    exact h.indexed d p k hp
  live k d hk := by
    obtain ⟨o, hd⟩ := h.live k d hk
    by_cases heq : d = c
    · subst heq
      exact ⟨f o, by rw [entry_relabel_self, hd, Option.map_some]⟩
    · exact ⟨o, (entry_relabel_of_ne heq).trans hd⟩
  fresh d hd := by
    by_cases heq : d = c
    · subst heq
      rw [entry_relabel_self, h.fresh d hd, Option.map_none]
    · exact (entry_relabel_of_ne heq).trans (h.fresh d hd)

variable [DecidableEq κ]

def add (r : Registry κ ι) (o : ι) (k : κ) : Registry κ ι where
  index := Function.update r.index k (some r.next)
  entry := Function.update r.entry r.next (some (o, k))
  next := r.next + 1

def remove (r : Registry κ ι) (c : Nat) : Registry κ ι :=
  match r.entry c with
  | none => r
  | some (_, k) =>
    { r with
      index := Function.update r.index k none
      entry := Function.update r.entry c none }

@[simp] theorem index_add_self {o : ι} {k : κ} : (r.add o k).index k = some r.next :=
  Function.update_self ..

theorem index_add_of_ne {o : ι} {k l : κ} (hl : l ≠ k) : (r.add o k).index l = r.index l :=
  Function.update_of_ne hl ..

@[simp] theorem entry_add_self {o : ι} {k : κ} : (r.add o k).entry r.next = some (o, k) :=
  Function.update_self ..

theorem entry_add_of_ne {o : ι} {k : κ} {c : Nat} (hc : c ≠ r.next) :
    (r.add o k).entry c = r.entry c :=
  Function.update_of_ne hc ..

theorem Sound.entry_add_of_live (h : r.Sound) {o : ι} {k : κ} {c : Nat} {e : ι × κ}
    (hc : r.entry c = some e) : (r.add o k).entry c = some e :=
  (entry_add_of_ne (Nat.ne_of_lt (h.index_lt hc))).trans hc

theorem entry_of_entry_add {o : ι} {k : κ} {c : Nat} {e : ι × κ}
    (hc : (r.add o k).entry c = some e) : c = r.next ∧ e = (o, k) ∨ r.entry c = some e := by
  by_cases heq : c = r.next
  · subst heq
    rw [entry_add_self] at hc
    exact .inl ⟨rfl, (Option.some.inj hc).symm⟩
  · rw [entry_add_of_ne heq] at hc
    exact .inr hc

/-- A free key may be taken. -/
theorem Sound.add (h : r.Sound) {o : ι} {k : κ} (hk : r.index k = none) :
    (r.add o k).Sound where
  indexed c p l hc := by
    rcases entry_of_entry_add hc with ⟨rfl, heq⟩ | hold
    · obtain ⟨rfl, rfl⟩ := Prod.mk.inj heq
      exact index_add_self
    · have hne : l ≠ k := by
        rintro rfl
        rw [h.indexed c p l hold] at hk
        cases hk
      exact (index_add_of_ne hne).trans (h.indexed c p l hold)
  live l c hl := by
    by_cases hne : l = k
    · subst hne
      obtain rfl := Option.some.inj (index_add_self.symm.trans hl)
      exact ⟨o, entry_add_self⟩
    · obtain ⟨p, hc⟩ := h.live l c ((index_add_of_ne hne).symm.trans hl)
      exact ⟨p, h.entry_add_of_live hc⟩
  fresh c hc := by
    have hle : r.next + 1 ≤ c := hc
    exact (entry_add_of_ne (by omega)).trans (h.fresh c (by omega))

@[simp] theorem next_remove {c : Nat} : (r.remove c).next = r.next := by
  unfold remove
  split <;> rfl

theorem entry_remove {c d : Nat} : (r.remove c).entry d = if d = c then none else r.entry d := by
  unfold remove
  split
  next hc =>
    split
    next heq => exact heq ▸ hc
    next => rfl
  next hc =>
    split
    next heq => exact heq ▸ Function.update_self ..
    next hne => exact Function.update_of_ne hne ..

theorem Sound.index_remove (h : r.Sound) {c d : Nat} {k : κ} :
    (r.remove c).index k = some d ↔ r.index k = some d ∧ d ≠ c := by
  unfold remove
  split
  next hc =>
    refine ⟨fun hk => ⟨hk, ?_⟩, And.left⟩
    rintro rfl
    obtain ⟨o, hd⟩ := h.live k d hk
    rw [hc] at hd
    cases hd
  next o l hc =>
    by_cases hk : k = l
    · subst hk
      simp only [Function.update_self, h.indexed c o k hc, Option.some.injEq]
      exact ⟨nofun, fun hd => absurd hd.1.symm hd.2⟩
    · simp only [Function.update_of_ne hk]
      refine ⟨fun hd => ⟨hd, ?_⟩, And.left⟩
      rintro rfl
      obtain ⟨p, hp⟩ := h.live k d hd
      rw [hc] at hp
      exact hk (Prod.mk.inj (Option.some.inj hp)).2.symm

theorem Sound.remove (h : r.Sound) (c : Nat) : (r.remove c).Sound where
  indexed d o k hd := by
    rw [entry_remove] at hd
    split at hd
    next => cases hd
    next hne => exact h.index_remove.mpr ⟨h.indexed d o k hd, hne⟩
  live k d hk := by
    obtain ⟨hk, hne⟩ := h.index_remove.mp hk
    obtain ⟨o, hd⟩ := h.live k d hk
    exact ⟨o, by rw [entry_remove, if_neg hne, hd]⟩
  fresh d hd := by
    rw [next_remove] at hd
    rw [entry_remove, h.fresh d hd, ite_self]

theorem Sound.removeAll (h : r.Sound) (l : List Nat) : (l.foldl Registry.remove r).Sound := by
  induction l generalizing r with
  | nil => exact h
  | cons c rest ih => exact ih (h.remove c)

theorem entry_removeAll (l : List Nat) {d : Nat} :
    (l.foldl remove r).entry d = if d ∈ l then none else r.entry d := by
  induction l generalizing r with
  | nil => rfl
  | cons c rest ih =>
    rw [List.foldl_cons, ih, entry_remove]
    by_cases hd : d = c
    · simp [hd]
    · simp [hd]

end Registry
