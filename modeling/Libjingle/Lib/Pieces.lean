import Mathlib.Data.List.Basic
import Mathlib.Tactic.Common

/-! Lists made of pieces whose first elements can be told from the others. Walking back from a
place to the nearest mark finds where the piece at that place starts. -/

namespace Pieces

variable {α : Type*}

def Marked (p : α → Bool) (piece : List α) : Prop :=
  ∃ a rest, piece = a :: rest ∧ p a = true ∧ ∀ b ∈ rest, p b = false

/-- The last marked place that is not after `n`, or the front of the list. -/
def lastMark (p : α → Bool) (l : List α) : Nat → Nat
  | 0 => 0
  | n + 1 => if l[n + 1]?.any p then n + 1 else lastMark p l n

variable {p : α → Bool} {pieces : List (List α)}

/-- The piece that a place is in. -/
theorem exists_piece {n : Nat} (hn : n < pieces.flatten.length) :
    ∃ pre piece post, pieces = pre ++ piece :: post ∧ pre.flatten.length ≤ n ∧
      n < pre.flatten.length + piece.length := by
  induction pieces generalizing n with
  | nil => simp at hn
  | cons piece rest ih =>
    by_cases hfirst : n < piece.length
    · exact ⟨[], piece, rest, rfl, by simp, by simpa using hfirst⟩
    · have hlater : n - piece.length < rest.flatten.length := by
        simp only [List.flatten_cons, List.length_append] at hn
        omega
      obtain ⟨pre, found, post, rfl, hle, hlt⟩ := ih hlater
      refine ⟨piece :: pre, found, post, by simp, ?_, ?_⟩
      · simp only [List.flatten_cons, List.length_append]
        omega
      · simp only [List.flatten_cons, List.length_append]
        omega

/-- Inside a piece nothing is marked, so that the walk goes on to its start. -/
theorem lastMark_piece (pre post : List α) {piece : List α} (h : Marked p piece) {j : Nat}
    (hj : j < piece.length) :
    lastMark p (pre ++ (piece ++ post)) (pre.length + j) = pre.length := by
  obtain ⟨a, rest, rfl, ha, hrest⟩ := h
  induction j with
  | zero =>
    cases hlen : pre.length with
    | zero => rfl
    | succ n =>
      have hget : (pre ++ ((a :: rest) ++ post))[n + 1]? = some a := by
        rw [← hlen]
        simp
      show lastMark p (pre ++ ((a :: rest) ++ post)) (n + 1) = n + 1
      rw [lastMark, hget]
      simp [ha]
  | succ j ih =>
    have hlt : j < rest.length := by simpa using hj
    have hget : (pre ++ ((a :: rest) ++ post))[pre.length + j + 1]? = some rest[j] := by
      rw [Nat.add_assoc, List.getElem?_append_right (by omega), Nat.add_sub_cancel_left,
        List.cons_append, List.getElem?_cons_succ, List.getElem?_append_left hlt,
        List.getElem?_eq_getElem hlt]
    rw [← Nat.add_assoc, lastMark, hget]
    simp only [Option.any_some, hrest _ (List.getElem_mem hlt), Bool.false_eq_true, if_false]
    exact ih (by simp; omega)

theorem lastMark_spec (h : ∀ piece ∈ pieces, Marked p piece) {n : Nat}
    (hn : n < pieces.flatten.length) :
    ∃ pre piece post, pieces = pre ++ piece :: post ∧
      lastMark p pieces.flatten n = pre.flatten.length ∧ pre.flatten.length ≤ n ∧
      n < pre.flatten.length + piece.length := by
  obtain ⟨pre, piece, post, rfl, hle, hlt⟩ := exists_piece hn
  refine ⟨pre, piece, post, rfl, ?_, hle, hlt⟩
  have hmark : Marked p piece := h piece (by simp)
  have hwalk := lastMark_piece pre.flatten post.flatten hmark
    (show n - pre.flatten.length < piece.length by omega)
  rw [show pre.flatten.length + (n - pre.flatten.length) = n by omega] at hwalk
  simpa using hwalk

end Pieces
