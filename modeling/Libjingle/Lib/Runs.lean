import Mathlib.Logic.Relation

/-! Invariants of runs that hold as long as a record kept along the run stays
clean. A run that is clean at its end was clean all along. -/

namespace Runs

variable {σ ι : Type*}

theorem clean_of_clean {step : σ → σ → Prop} {clean : σ → Prop}
    (hclean : ∀ s t, step s t → clean t → clean s) {s t : σ}
    (h : Relation.ReflTransGen step s t) (ht : clean t) : clean s := by
  induction h with
  | refl => exact ht
  | tail _ hstep ih => exact ih (hclean _ _ hstep ht)

theorem invariant_of_clean {step : σ → σ → Prop} {clean inv : σ → Prop}
    (hclean : ∀ s t, step s t → clean t → clean s)
    (hstep : ∀ s t, step s t → inv s → clean t → inv t) {s t : σ}
    (h : Relation.ReflTransGen step s t) (hs : inv s) (ht : clean t) : inv t := by
  induction h with
  | refl => exact hs
  | tail _ hlast ih => exact hstep _ _ hlast (ih (hclean _ _ hlast ht)) ht

/-- A fold whose every call is a sequence of steps is one itself. -/
theorem foldl_reflTransGen {step : σ → σ → Prop} {f : σ → ι → σ} {P : ι → Prop}
    (hf : ∀ s i, P i → Relation.ReflTransGen step s (f s i)) (s : σ) {l : List ι}
    (hl : ∀ i ∈ l, P i) : Relation.ReflTransGen step s (l.foldl f s) := by
  induction l generalizing s with
  | nil => exact .refl
  | cons i rest ih =>
    exact (hf s i (hl i List.mem_cons_self)).trans
      (ih (f s i) fun j hj => hl j (List.mem_cons_of_mem _ hj))

/-- Every step of a run, from the state it starts in, satisfies `P`. -/
def Along (step : σ → ι → σ) (P : σ → ι → Prop) : σ → List ι → Prop
  | _, [] => True
  | s, i :: rest => P s i ∧ Along step P (step s i) rest

theorem along_of_forall {step : σ → ι → σ} {P : σ → ι → Prop} {l : List ι}
    (h : ∀ i ∈ l, ∀ s, P s i) (s : σ) : Along step P s l := by
  induction l generalizing s with
  | nil => trivial
  | cons i rest ih =>
    obtain ⟨hfirst, hrest⟩ := List.forall_mem_cons.mp h
    exact ⟨hfirst s, ih hrest _⟩

theorem along_iff {step : σ → ι → σ} {P Q : σ → ι → Prop} {inv : σ → Prop}
    (hPQ : ∀ s i, inv s → (P s i ↔ Q s i)) (hinv : ∀ s i, inv s → P s i → inv (step s i))
    {s : σ} (hs : inv s) (l : List ι) : Along step P s l ↔ Along step Q s l := by
  induction l generalizing s with
  | nil => exact Iff.rfl
  | cons i rest ih =>
    rw [Along, Along, ← hPQ s i hs]
    exact and_congr_right fun hP => ih (hinv s i hs hP)

theorem Along.imp {step : σ → ι → σ} {P Q : σ → ι → Prop} {inv : σ → Prop}
    (hPQ : ∀ s i, inv s → P s i → Q s i) (hinv : ∀ s i, inv s → inv (step s i))
    {s : σ} (hs : inv s) {l : List ι} (h : Along step P s l) : Along step Q s l := by
  induction l generalizing s with
  | nil => trivial
  | cons i rest ih => exact ⟨hPQ s i hs h.1, ih (hinv s i hs) h.2⟩

/-- Along a run that keeps an invariant, what follows from it at a step holds too. -/
theorem Along.invariant {step : σ → ι → σ} {P Q : σ → ι → Prop} {inv : σ → Prop}
    (hstep : ∀ s i, inv s → P s i → inv (step s i) ∧ Q s i) {s : σ} (hs : inv s) {l : List ι}
    (h : Along step P s l) : Along step Q s l ∧ inv (l.foldl step s) := by
  induction l generalizing s with
  | nil => exact ⟨trivial, hs⟩
  | cons i rest ih =>
    obtain ⟨hinv, hQ⟩ := hstep s i hs h.1
    obtain ⟨hrest, hlast⟩ := ih hinv h.2
    exact ⟨⟨hQ, hrest⟩, hlast⟩

theorem along_append {step : σ → ι → σ} {P : σ → ι → Prop} {s : σ} {l l' : List ι} :
    Along step P s (l ++ l') ↔ Along step P s l ∧ Along step P (l.foldl step s) l' := by
  induction l generalizing s with
  | nil => exact ⟨fun h => ⟨trivial, h⟩, And.right⟩
  | cons i rest ih => rw [List.cons_append, Along, Along, ih, List.foldl_cons, and_assoc]

/-- What one step preserves and relates, a whole run does. -/
theorem Along.foldl {step : σ → ι → σ} {P : σ → ι → Prop} {inv : σ → Prop} {R : σ → σ → Prop}
    (hrefl : ∀ s, R s s) (htrans : ∀ s t u, R s t → R t u → R s u)
    (hstep : ∀ s i, inv s → P s i → inv (step s i) ∧ R s (step s i)) {s : σ} (hs : inv s)
    {l : List ι} (h : Along step P s l) : inv (l.foldl step s) ∧ R s (l.foldl step s) := by
  induction l generalizing s with
  | nil => exact ⟨hs, hrefl s⟩
  | cons i rest ih =>
    obtain ⟨hinv, hfirst⟩ := hstep s i hs h.1
    obtain ⟨hlast, hrest⟩ := ih hinv h.2
    exact ⟨hlast, htrans _ _ _ hfirst hrest⟩

/-- A property of the states after the steps is one of all states that the run goes through. -/
theorem along_after_iff {step : σ → ι → σ} {Q : σ → Prop} {s : σ} (hs : Q s) (l : List ι) :
    Along step (fun s i => Q (step s i)) s l ↔ ∀ n, Q ((l.take n).foldl step s) := by
  induction l generalizing s with
  | nil => simp [Along, hs]
  | cons i rest ih =>
    constructor
    · rintro ⟨hfirst, hrest⟩ n
      cases n with
      | zero => exact hs
      | succ n => exact (ih hfirst).mp hrest n
    · intro h
      have hfirst : Q (step s i) := by simpa using h 1
      exact ⟨hfirst, (ih hfirst).mpr fun n => h (n + 1)⟩

end Runs
