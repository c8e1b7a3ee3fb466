import Mathlib.Data.List.Pairwise
import Mathlib.Data.List.TakeWhile
import Mathlib.Tactic.Common

/-! Items that wait for their time, in the order in which they will be due. Items of
the same time keep the order in which they came. -/

namespace DelayList

structure Entry (α : Type*) where
  time : Int
  serial : Nat
  item : α

variable {α : Type*}

def Before (a b : Entry α) : Prop := a.time < b.time ∨ a.time = b.time ∧ a.serial < b.serial

def insert (e : Entry α) (l : List (Entry α)) : List (Entry α) :=
  l.takeWhile (·.time ≤ e.time) ++ e :: l.dropWhile (·.time ≤ e.time)

def due (now : Int) (l : List (Entry α)) : List (Entry α) := l.filter (·.time ≤ now)

def pending (now : Int) (l : List (Entry α)) : List (Entry α) := l.filter (now < ·.time)

theorem perm_insert (e : Entry α) (l : List (Entry α)) : (insert e l).Perm (e :: l) := by
  have hsplit := List.takeWhile_append_dropWhile (p := fun x : Entry α => x.time ≤ e.time) (l := l)
  have hmid : (insert e l).Perm (e :: (l.takeWhile (·.time ≤ e.time) ++
      l.dropWhile (·.time ≤ e.time))) := List.perm_middle
  rwa [hsplit] at hmid

theorem mem_insert {e x : Entry α} {l : List (Entry α)} : x ∈ insert e l ↔ x = e ∨ x ∈ l := by
  rw [(perm_insert e l).mem_iff, List.mem_cons]

/-- An item that comes last stays behind those of its time. -/
theorem sorted_insert {e : Entry α} {l : List (Entry α)} (h : l.Pairwise Before)
    (hlast : ∀ a ∈ l, a.serial < e.serial) : (insert e l).Pairwise Before := by
  induction l with
  | nil => exact List.pairwise_singleton _ _
  | cons a rest ih =>
    obtain ⟨hfirst, hrest⟩ := List.pairwise_cons.mp h
    have hserial : a.serial < e.serial := hlast a List.mem_cons_self
    by_cases hle : a.time ≤ e.time
    · have hcons : insert e (a :: rest) = a :: insert e rest := by simp [insert, hle]
      rw [hcons]
      refine List.pairwise_cons.mpr ⟨fun x hx => ?_, ih hrest fun b hb =>
        hlast b (List.mem_cons_of_mem _ hb)⟩
      rcases mem_insert.mp hx with rfl | hx
      · exact (Int.lt_or_eq_of_le hle).imp id fun heq => ⟨heq, hserial⟩
      · exact hfirst x hx
    · have hcons : insert e (a :: rest) = e :: a :: rest := by simp [insert, hle]
      rw [hcons]
      refine List.pairwise_cons.mpr ⟨fun x hx => .inl ?_, h⟩
      rcases List.mem_cons.mp hx with rfl | hx
      · omega
      · rcases hfirst x hx with hlt | ⟨heq, -⟩
        · omega
        · omega

theorem due_append_pending {l : List (Entry α)} (h : l.Pairwise Before) (now : Int) :
    due now l ++ pending now l = l := by
  induction l with
  | nil => rfl
  | cons a rest ih =>
    obtain ⟨hfirst, hrest⟩ := List.pairwise_cons.mp h
    by_cases hle : a.time ≤ now
    · have hnot : ¬ now < a.time := by omega
      simp only [due, pending, List.filter_cons, hle, hnot, decide_true, decide_false, if_true,
        Bool.false_eq_true, if_false, List.cons_append]
      exact congrArg (a :: ·) (ih hrest)
    · have hlater : ∀ x ∈ a :: rest, now < x.time := by
        intro x hx
        rcases List.mem_cons.mp hx with rfl | hx
        · omega
        · rcases hfirst x hx with hlt | ⟨heq, -⟩ <;> omega
      have hnone : due now (a :: rest) = [] := by
        refine List.filter_eq_nil_iff.mpr fun x hx => ?_
        have := hlater x hx
        simp only [decide_eq_true_eq]
        omega
      have hall : pending now (a :: rest) = a :: rest :=
        List.filter_eq_self.mpr fun x hx => by simpa using hlater x hx
      rw [hnone, hall, List.nil_append]

theorem before_or_before {l : List (Entry α)} (h : l.Pairwise Before) {a b : Entry α}
    (ha : a ∈ l) (hb : b ∈ l) (hne : a ≠ b) : Before a b ∨ Before b a := by
  have hsymm : Std.Symm fun x y : Entry α => Before x y ∨ Before y x := ⟨fun _ _ => Or.symm⟩
  have hpair : l.Pairwise fun x y => Before x y ∨ Before y x := h.imp fun hxy => .inl hxy
  exact hpair.forall ha hb hne

end DelayList
