import Mathlib.Data.List.Induction

/-! Logs, whose entries are justified by what came before them. -/

namespace EventLog

variable {α : Type*}

def Justified (J : List α → α → Prop) (log : List α) : Prop :=
  ∀ pre a post, log = pre ++ a :: post → J pre a

/-- An entry that came after what satisfies `P`. -/
def After (P : List α → Prop) (Q : α → Prop) (log : List α) : Prop :=
  ∃ pre a post, log = pre ++ a :: post ∧ P pre ∧ Q a

variable {J : List α → α → Prop} {P : List α → Prop} {Q : α → Prop} {log more : List α} {a : α}

theorem justified_nil : Justified J [] := by
  intro pre a post h
  exact absurd h.symm (List.append_ne_nil_of_right_ne_nil pre (List.cons_ne_nil a post))

theorem Justified.concat (h : Justified J log) (ha : J log a) : Justified J (log ++ [a]) := by
  intro pre b post heq
  rcases List.eq_nil_or_concat post with rfl | ⟨init, last, rfl⟩
  · obtain ⟨rfl, hb⟩ := List.append_inj' heq rfl
    exact List.head_eq_of_cons_eq hb ▸ ha
  · rw [List.concat_eq_append, ← List.cons_append, ← List.append_assoc] at heq
    exact h pre b init (List.append_inj_left' heq rfl)

theorem Justified.append (hmono : ∀ l b, J log b → J (log ++ l) b) (h : Justified J log)
    (hmore : ∀ b ∈ more, J log b) : Justified J (log ++ more) := by
  induction more using List.reverseRecOn with
  | nil => rwa [List.append_nil]
  | append_singleton init b ih =>
    rw [← List.append_assoc]
    refine (ih fun c hc => hmore c (List.mem_append_left _ hc)).concat (hmono init b ?_)
    exact hmore b (List.mem_append_right _ (List.mem_singleton_self b))

theorem After.append (h : After P Q log) (more : List α) : After P Q (log ++ more) := by
  obtain ⟨pre, a, post, rfl, hP, hQ⟩ := h
  exact ⟨pre, a, post ++ more, by rw [List.append_assoc, List.cons_append], hP, hQ⟩

theorem after_concat (hP : P log) (hQ : Q a) : After P Q (log ++ [a]) :=
  ⟨log, a, [], rfl, hP, hQ⟩

end EventLog
