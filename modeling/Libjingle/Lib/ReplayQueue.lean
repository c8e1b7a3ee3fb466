import Mathlib.Data.List.Basic
import Mathlib.Logic.Relation
import Mathlib.Tactic.Common

/-! A queue whose reader can go back to where it was. What has been taken is
kept until the elements are moved; a move starts a new epoch, and a place
remembered in an earlier epoch is of no use after it. -/

structure ReplayQueue (α : Type*) where
  kept : List α
  read : Nat
  epoch : Nat
  /-- Everything that was ever put in. -/
  log : List α

namespace ReplayQueue

variable {α : Type*}

def unread (q : ReplayQueue α) : List α := q.kept.drop q.read

def push (q : ReplayQueue α) (data : List α) : ReplayQueue α :=
  { q with kept := q.kept ++ data, log := q.log ++ data }

/-- Moves the first `n` unread elements to the front and drops all others. -/
def move (q : ReplayQueue α) (n : Nat) : ReplayQueue α :=
  { q with kept := q.unread.take n, read := 0, epoch := q.epoch + 1 }

def Valid (q : ReplayQueue α) : Prop := q.read ≤ q.kept.length

inductive Step : ReplayQueue α → ReplayQueue α → Prop
  | push (q : ReplayQueue α) (data : List α) : Step q (q.push data)
  | move (q : ReplayQueue α) (n : Nat) : Step q (q.move n)
  | seek (q : ReplayQueue α) (read : Nat) (h : read ≤ q.kept.length) : Step q { q with read }

/-- What is true of a queue and any later state of it. -/
def Later (q q' : ReplayQueue α) : Prop :=
  q.epoch < q'.epoch ∨
    q.epoch = q'.epoch ∧ ∃ since, q'.kept = q.kept ++ since ∧ q'.log = q.log ++ since

theorem Step.valid {q q' : ReplayQueue α} (h : Step q q') (hq : q.Valid) : q'.Valid := by
  cases h with
  | push data =>
    have hlen : (q.kept ++ data).length = q.kept.length + data.length := List.length_append
    exact Nat.le_trans hq (hlen ▸ Nat.le_add_right _ _)
  | move n => exact Nat.zero_le _
  | seek read hread => exact hread

theorem Later.refl (q : ReplayQueue α) : Later q q :=
  .inr ⟨rfl, [], (List.append_nil _).symm, (List.append_nil _).symm⟩

theorem Later.epoch_le {q q' : ReplayQueue α} (h : Later q q') : q.epoch ≤ q'.epoch :=
  h.elim Nat.le_of_lt fun h => Nat.le_of_eq h.1

theorem Step.later {q q' : ReplayQueue α} (h : Step q q') : Later q q' := by
  cases h with
  | push data => exact .inr ⟨rfl, data, rfl, rfl⟩
  | move n => exact .inl (Nat.lt_succ_self _)
  | seek read hread => exact .inr ⟨rfl, [], (List.append_nil _).symm, (List.append_nil _).symm⟩

theorem Later.trans {q₁ q₂ q₃ : ReplayQueue α} (h : Later q₁ q₂) (h' : Later q₂ q₃) :
    Later q₁ q₃ := by
  rcases h with h | ⟨hepoch, since, hkept, hlog⟩
  · exact .inl (Nat.lt_of_lt_of_le h h'.epoch_le)
  rcases h' with h' | ⟨hepoch', since', hkept', hlog'⟩
  · exact .inl (hepoch ▸ h')
  · refine .inr ⟨hepoch.trans hepoch', since ++ since', ?_, ?_⟩
    · rw [hkept', hkept, List.append_assoc]
    · rw [hlog', hlog, List.append_assoc]

/-- By induction on the steps between the two states. -/
theorem later_of_steps {q q' : ReplayQueue α} (h : Relation.ReflTransGen Step q q') :
    Later q q' := by
  induction h with
  | refl => exact .refl q
  | tail _ hlast ih => exact ih.trans hlast.later

/-- Going back to a place of the same epoch replays what was unread there,
and after it what has come in since. -/
theorem Later.replay {q q' : ReplayQueue α} (h : Later q q') (hq : q.Valid)
    (hepoch : q.epoch = q'.epoch) :
    ∃ since, q'.kept = q.kept ++ since ∧ q'.log = q.log ++ since ∧
      q'.kept.drop q.read = q.unread ++ since := by
  rcases h with h | ⟨-, since, hkept, hlog⟩
  · omega
  · refine ⟨since, hkept, hlog, ?_⟩
    rw [hkept]
    exact List.drop_append_of_le_length hq

end ReplayQueue
