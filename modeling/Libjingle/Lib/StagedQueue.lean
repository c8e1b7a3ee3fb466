import Mathlib.Data.List.Basic
import Mathlib.Tactic.Common

/-! A bounded first-in first-out queue with a staging area behind its end.
A writer may place elements ahead of the end and commit them later; committed
elements join the queue in order. An element that is committed without having
been placed is unspecified. -/

/-- A queue of at most `capacity` elements. `staged o` is the element placed
`o` positions behind the last queued one. -/
structure StagedQueue (α : Type*) where
  capacity : Nat
  items : List α
  staged : Nat → Option α
  items_le : items.length ≤ capacity
  staged_lt : ∀ o b, staged o = some b → items.length + o < capacity

namespace StagedQueue

variable {α : Type*}

inductive Op (α : Type*)
  | append (data : List α)
  | take (n : Nat)
  | slice (n offset : Nat)
  | place (data : List α) (offset : Nat)
  | commit (n : Nat)
  | discard (n : Nat)
  | peek
  | fill (data : List α)
  | resize (n : Nat)

/-- `none` stands for an operation that would block. -/
inductive Output (α : Type*)
  | done
  | elements (l : Option (List α))
  | count (n : Option Nat)
  | room (n : Nat)
  | resized (ok : Bool)

def empty (α : Type*) (capacity : Nat) : StagedQueue α where
  capacity := capacity
  items := []
  staged := fun _ => none
  items_le := Nat.zero_le _
  staged_lt := by simp

def free (q : StagedQueue α) : Nat := q.capacity - q.items.length

/-- The staging area after placing `data` at `offset`. -/
def overlay (staged : Nat → Option α) (data : List α) (offset : Nat) : Nat → Option α :=
  fun o => if offset ≤ o then data[o - offset]? <|> staged o else staged o

/-- What each operation may answer and leave behind. -/
def Step (q : StagedQueue α) : Op α → Output α → StagedQueue α → Prop
  | .append data, out, q' =>
    if q.free = 0 then out = .count none ∧ q' = q
    else
      out = .count (some (min data.length q.free)) ∧
      q'.capacity = q.capacity ∧ q'.items = q.items ++ data.take q.free ∧
      q'.staged = fun o => q.staged (min data.length q.free + o)
  | .take n, out, q' =>
    if q.items = [] then out = .elements none ∧ q' = q
    else
      out = .elements (some (q.items.take n)) ∧
      q'.capacity = q.capacity ∧ q'.items = q.items.drop n ∧ q'.staged = q.staged
  | .slice n offset, out, q' =>
    q' = q ∧ out = .elements (if offset < q.items.length then
      some ((q.items.drop offset).take n) else none)
  | .place data offset, out, q' =>
    if q.free ≤ offset then out = .count none ∧ q' = q
    else
      out = .count (some (min data.length (q.free - offset))) ∧
      q'.capacity = q.capacity ∧ q'.items = q.items ∧
      q'.staged = overlay q.staged (data.take (q.free - offset)) offset
  | .commit n, out, q' =>
    out = .done ∧ q'.capacity = q.capacity ∧
    (∃ new : List α, new.length = n ∧ q'.items = q.items ++ new ∧
      ∀ i b, i < n → q.staged i = some b → new[i]? = some b) ∧
    q'.staged = fun o => q.staged (n + o)
  | .discard n, out, q' =>
    out = .done ∧ q'.capacity = q.capacity ∧ q'.items = q.items.drop n ∧ q'.staged = q.staged
  | .peek, out, q' =>
    q' = q ∧ ∃ k, out = .elements (some (q.items.take k)) ∧ (q.items ≠ [] → 0 < k)
  | .fill data, out, q' =>
    ∃ room, out = .room room ∧ room ≤ q.free ∧ (0 < q.free → 0 < room) ∧
      q'.capacity = q.capacity ∧ q'.items = q.items ∧
      q'.staged = overlay (if q.items = [] then fun _ => none else q.staged) data 0
  | .resize n, out, q' =>
    if n < q.items.length then out = .resized false ∧ q' = q
    else
      out = .resized true ∧ q'.capacity = n ∧ q'.items = q.items ∧
      q'.staged = if n = q.capacity then q.staged else fun _ => none

/-- A run, with what every operation answered. -/
inductive Run : StagedQueue α → List (Op α × Output α) → StagedQueue α → Prop
  | nil (q) : Run q [] q
  | cons {q q' r op out rest} : Step q op out q' → Run q' rest r → Run q ((op, out) :: rest) r

theorem Run.append {q r t : StagedQueue α} {xs ys : List (Op α × Output α)} (h : Run q xs r)
    (h' : Run r ys t) : Run q (xs ++ ys) t := by
  induction h with
  | nil => exact h'
  | cons hs _ ih => exact .cons hs (ih h')

theorem overlay_of_lt {staged : Nat → Option α} {data : List α} {offset o : Nat}
    (h : o < offset) : overlay staged data offset o = staged o := by
  simp [overlay, show ¬ offset ≤ o by omega]

theorem overlay_of_ge {staged : Nat → Option α} {data : List α} {offset o : Nat}
    (h : offset + data.length ≤ o) : overlay staged data offset o = staged o := by
  simp [overlay, List.getElem?_eq_none (by omega : data.length ≤ o - offset)]

theorem overlay_inside {staged : Nat → Option α} {data : List α} {offset o : Nat}
    (h : offset ≤ o) (ho : o - offset < data.length) :
    overlay staged data offset o = some data[o - offset] := by
  simp [overlay, h, List.getElem?_eq_getElem ho]

/-- How many elements a sequence of operations commits. -/
def committed : List (Op α) → Nat
  | [] => 0
  | .commit n :: rest => n + committed rest
  | _ :: rest => committed rest

/-- Reads and in-order writes that stay short of position `o` of the staging
area, which every commit brings nearer. -/
def ShortOf : Nat → List (Op α) → Prop
  | _, [] => True
  | o, .take _ :: rest => ShortOf o rest
  | o, .discard _ :: rest => ShortOf o rest
  | o, .place data offset :: rest => offset = 0 ∧ data.length ≤ o ∧ ShortOf o rest
  | o, .commit n :: rest => n ≤ o ∧ ShortOf (o - n) rest
  | _, _ => False

theorem Step.staged_of_shortOf {q q' : StagedQueue α} {op : Op α} {out : Output α} {o : Nat}
    {b : α} {rest : List (Op α)} (h : Step q op out q') (hb : q.staged o = some b)
    (hs : ShortOf o (op :: rest)) :
    committed [op] ≤ o ∧ q'.staged (o - committed [op]) = some b ∧
      ShortOf (o - committed [op]) rest := by
  cases op with
  | take n =>
    simp only [Step] at h
    split at h
    · obtain ⟨_, rfl⟩ := h
      exact ⟨Nat.zero_le _, hb, hs⟩
    · exact ⟨Nat.zero_le _, by simpa [committed, h.2.2.2] using hb, hs⟩
  | discard n => exact ⟨Nat.zero_le _, by simpa [committed, h.2.2.2] using hb, hs⟩
  | place data offset =>
    obtain ⟨rfl, hlen, hrest⟩ := hs
    refine ⟨Nat.zero_le _, ?_, hrest⟩
    simp only [Step] at h
    split at h
    · obtain ⟨_, rfl⟩ := h
      exact hb
    · simp only [committed, Nat.sub_zero, h.2.2.2]
      rw [overlay_of_ge (by simp only [List.length_take]; omega), hb]
  | commit n =>
    obtain ⟨hn, hrest⟩ := hs
    refine ⟨hn, ?_, hrest⟩
    simp only [committed, Nat.add_zero, h.2.2.2]
    rw [Nat.add_sub_cancel' hn, hb]
  | append data => exact hs.elim
  | slice n offset => exact hs.elim
  | peek => exact hs.elim
  | fill data => exact hs.elim
  | resize n => exact hs.elim

/-- A placed element keeps its place while the end moves towards it. -/
theorem Run.staged_of_shortOf {q r : StagedQueue α} {trace : List (Op α × Output α)} {o : Nat}
    {b : α} (h : Run q trace r) (hb : q.staged o = some b)
    (hs : ShortOf o (trace.map Prod.fst)) :
    committed (trace.map Prod.fst) ≤ o ∧
      r.staged (o - committed (trace.map Prod.fst)) = some b := by
  induction h generalizing o with
  | nil => simpa [committed] using hb
  | @cons q q' r op out rest hstep hrun ih =>
    obtain ⟨hle, hst, hsh⟩ := hstep.staged_of_shortOf hb hs
    obtain ⟨hle', hst'⟩ := ih hst hsh
    have hc : committed (op :: rest.map Prod.fst) =
        committed [op] + committed (rest.map Prod.fst) := by
      cases op <;> simp [committed]
    simp only [List.map_cons, hc]
    refine ⟨by omega, ?_⟩
    rwa [← Nat.sub_sub]

/-- The commit that reaches a placed element queues it. -/
theorem Step.commit_exposes {q q' : StagedQueue α} {out : Output α} {n o : Nat} {b : α}
    (h : Step q (.commit n) out q') (hb : q.staged o = some b) (ho : o < n) :
    q'.items[q.items.length + o]? = some b := by
  obtain ⟨_, _, ⟨new, hlen, hitems, hnew⟩, _⟩ := h
  rw [hitems, List.getElem?_append_right (by omega), Nat.add_sub_cancel_left]
  exact hnew o b ho hb

end StagedQueue
