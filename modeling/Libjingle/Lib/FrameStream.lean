import Mathlib.Data.List.Basic

/-! Frames in a stream. A frame is taken off the front of a buffer when all of it
is there, so that it does not matter where a stream of frames is cut. -/

namespace FrameStream

variable {α β : Type*}

/-- How packets are framed, and how the first of a buffer is taken off. -/
structure Codec (α β : Type*) where
  frame : α → List β
  next : List β → Option (α × List β)

/-- Taking packets off until none is left. -/
def drain (next : List β → Option (α × List β)) : Nat → List β → List α × List β
  | 0, buf => ([], buf)
  | fuel + 1, buf =>
    match next buf with
    | none => ([], buf)
    | some (a, rest) => (a :: (drain next fuel rest).1, (drain next fuel rest).2)

/-- Taking a packet off shortens the buffer. -/
def Shrinks (next : List β → Option (α × List β)) : Prop :=
  ∀ buf a rest, next buf = some (a, rest) → rest.length < buf.length

theorem drain_none {next : List β → Option (α × List β)} {buf : List β} (h : next buf = none)
    (fuel : Nat) : drain next fuel buf = ([], buf) := by
  cases fuel with
  | zero => rfl
  | succ fuel => rw [drain, h]

/-- The fuel is enough when there is one for every place of the buffer. -/
theorem next_drain {next : List β → Option (α × List β)} (hshrinks : Shrinks next)
    (hnil : next [] = none) {fuel : Nat} {buf : List β} (hfuel : buf.length ≤ fuel) :
    next (drain next fuel buf).2 = none := by
  induction fuel generalizing buf with
  | zero =>
    rw [List.eq_nil_of_length_eq_zero (Nat.le_zero.mp hfuel)]
    exact hnil
  | succ fuel ih =>
    rw [drain]
    cases hnext : next buf with
    | none => exact hnext
    | some read =>
      obtain ⟨a, rest⟩ := read
      have hlt := hshrinks buf a rest hnext
      exact ih (by omega)

/-- More fuel changes nothing. -/
theorem drain_fuel {next : List β → Option (α × List β)} (hshrinks : Shrinks next)
    (hnil : next [] = none) {fuel fuel' : Nat} {buf : List β} (hfuel : buf.length ≤ fuel)
    (hfuel' : buf.length ≤ fuel') : drain next fuel buf = drain next fuel' buf := by
  induction fuel generalizing buf fuel' with
  | zero =>
    have hbuf : buf = [] := List.eq_nil_of_length_eq_zero (Nat.le_zero.mp hfuel)
    rw [hbuf, drain_none hnil, drain_none hnil]
  | succ fuel ih =>
    cases hnext : next buf with
    | none => rw [drain_none hnext, drain_none hnext]
    | some read =>
      obtain ⟨a, rest⟩ := read
      have hlt := hshrinks buf a rest hnext
      obtain ⟨fuel', rfl⟩ : ∃ k, fuel' = k + 1 := ⟨fuel' - 1, by omega⟩
      rw [drain, drain, hnext]
      simp only
      have hsame := ih (show rest.length ≤ fuel by omega) (show rest.length ≤ fuel' by omega)
      rw [hsame]

/-- Packets of which the codec can read frames back. -/
structure Codec.Reads (c : Codec α β) (ok : α → Prop) : Prop where
  next_nil : c.next [] = none
  shrinks : Shrinks c.next
  next_frame : ∀ a rest, ok a → c.next (c.frame a ++ rest) = some (a, rest)
  next_cut : ∀ a buf more, ok a → buf ++ more = c.frame a → more ≠ [] → c.next buf = none

/-- Of a stream of frames that is cut somewhere, the packets whose frames are
complete are taken off, in order, and what is left is the rest of the stream. -/
theorem Codec.Reads.drain_frames {c : Codec α β} {ok : α → Prop} (h : c.Reads ok) {as : List α}
    (hok : ∀ a ∈ as, ok a) {fuel : Nat} {buf more : List β} (hfuel : buf.length ≤ fuel)
    (hstream : buf ++ more = as.flatMap c.frame) :
    ∃ todo, as = (drain c.next fuel buf).1 ++ todo ∧
      (drain c.next fuel buf).2 ++ more = todo.flatMap c.frame := by
  induction as generalizing fuel buf with
  | nil =>
    obtain ⟨rfl, rfl⟩ := List.append_eq_nil_iff.mp hstream
    rw [drain_none h.next_nil]
    exact ⟨[], rfl, rfl⟩
  | cons a as ih =>
    rw [List.flatMap_cons] at hstream
    have ha := hok a List.mem_cons_self
    rcases List.append_eq_append_iff.mp hstream with ⟨cut, hframe, hmore⟩ | ⟨rest, rfl, hrest⟩
    · by_cases hcut : cut = []
      · -- The cut is just behind the first frame.
        subst hcut
        rw [List.append_nil] at hframe
        rw [List.nil_append] at hmore
        have hnext := h.next_frame a [] ha
        rw [List.append_nil, hframe] at hnext
        have hlt := h.shrinks _ _ _ hnext
        simp only [List.length_nil] at hlt
        obtain ⟨fuel, rfl⟩ : ∃ k, fuel = k + 1 := ⟨fuel - 1, by omega⟩
        refine ⟨as, ?_, ?_⟩
        · rw [drain, hnext]
          simp only [drain_none h.next_nil, List.cons_append, List.nil_append]
        · rw [drain, hnext]
          simp only [drain_none h.next_nil, List.nil_append, hmore]
      · have hnone := h.next_cut a buf cut ha hframe.symm hcut
        rw [drain_none hnone]
        exact ⟨a :: as, rfl, by rw [List.flatMap_cons, hstream]⟩
    · have hnext := h.next_frame a rest ha
      have hlt := h.shrinks _ _ _ hnext
      obtain ⟨fuel, rfl⟩ : ∃ k, fuel = k + 1 := ⟨fuel - 1, by omega⟩
      obtain ⟨todo, has, htodo⟩ := ih (fun b hb => hok b (List.mem_cons_of_mem _ hb))
        (show rest.length ≤ fuel by omega) hrest.symm
      refine ⟨todo, ?_, ?_⟩
      · rw [drain, hnext]
        simp only [List.cons_append, ← has]
      · rw [drain, hnext]
        exact htodo

/-- Every packet that is taken off was taken off somewhere in the buffer. -/
theorem mem_drain {next : List β → Option (α × List β)} {P : α → List β → Prop}
    (hnext : ∀ buf a rest, next buf = some (a, rest) → ∃ taken, buf = taken ++ rest ∧ P a taken)
    {fuel : Nat} {buf : List β} {a : α} (ha : a ∈ (drain next fuel buf).1) :
    ∃ pre taken post, buf = pre ++ (taken ++ post) ∧ P a taken := by
  induction fuel generalizing buf with
  | zero => exact absurd ha List.not_mem_nil
  | succ fuel ih =>
    rw [drain] at ha
    cases hread : next buf with
    | none =>
      rw [hread] at ha
      exact absurd ha List.not_mem_nil
    | some read =>
      obtain ⟨b, rest⟩ := read
      rw [hread] at ha
      obtain ⟨taken, rfl, hP⟩ := hnext buf b rest hread
      rcases List.mem_cons.mp ha with rfl | ha
      · exact ⟨[], taken, rest, rfl, hP⟩
      · obtain ⟨pre, taken', post, rfl, hP'⟩ := ih ha
        exact ⟨taken ++ pre, taken', post, by rw [List.append_assoc], hP'⟩

end FrameStream
