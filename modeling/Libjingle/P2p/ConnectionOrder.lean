import Libjingle.P2p.PairPriority
import Libjingle.Base.AddressOrder
import Mathlib.Order.OrderDual

/-! The order in which `P2PTransportChannel` sorts its connections: by write state, then
priority, then the younger generation, then the round-trip time. Two generations are
compared by the sign of their difference in 32 bits. -/

namespace Libjingle.Connection

variable {T : Type}

/-- Only the static information: a positive value is a better `a`. -/
def compareConnectionCandidates (a b : Connection T) : Int :=
  if b.priority < a.priority then 1
  else if a.priority < b.priority then -1
  else ((a.remoteCandidate.generation + a.generation) -
    (b.remoteCandidate.generation + b.generation)).toInt32.toInt

def compareConnections (a b : Connection T) : Int :=
  if a.writeState.toNat < b.writeState.toNat then 1
  else if b.writeState.toNat < a.writeState.toNat then -1
  else compareConnectionCandidates a b

/-- `ConnectionCompare` -/
def connectionCompare (a b : Connection T) : Bool :=
  if 0 < compareConnections a b then true
  else if compareConnections a b < 0 then false
  else a.rtt < b.rtt

section Pointers

variable {P : Type} (conns : P → Connection T)

/-- The sum of the round-trip time and `kMinImprovement` is a `double`. -/
def shouldSwitch [DecidableEq P] : Option P → Option P → Bool
  | none, none => false
  | none, some _ => true
  | some _, none => true
  | some a, some b =>
    if a = b then false
    else if compareConnections (conns a) (conns b) < 0 then true
    else if 0 < compareConnections (conns a) (conns b) then false
    else (conns b).rtt.toNat ≤ (conns a).rtt.toNat + 10

/-- The `std::stable_sort` of `SortConnections`. -/
def sortConnections (connections : List P) : List P :=
  connections.mergeSort fun a b => !connectionCompare (conns b) (conns a)

end Pointers

def generations (c : Connection T) : Nat := c.remoteCandidate.generation.toNat + c.generation.toNat

/-- What a connection is preferred by, the most preferred being the least. -/
def standing (c : Connection T) : ℕ ×ₗ (ℕᵒᵈ ×ₗ ℕᵒᵈ) :=
  toLex (c.writeState.toNat,
    toLex (OrderDual.toDual c.priority.toNat, OrderDual.toDual c.generations))

def rank (c : Connection T) : (ℕ ×ₗ (ℕᵒᵈ ×ₗ ℕᵒᵈ)) ×ₗ ℕ := toLex (c.standing, c.rtt.toNat)

/-- The write state and the priority do not tell the two apart. -/
def Tied (a b : Connection T) : Prop := a.writeState = b.writeState ∧ a.priority = b.priority

theorem Tied.symm {a b : Connection T} (h : Tied a b) : Tied b a := ⟨h.1.symm, h.2.symm⟩

theorem toInt_toInt32 (x : UInt32) : x.toInt32.toInt = (x.toNat : Int).bmod (2 ^ 32) :=
  BitVec.toInt_eq_toNat_bmod x.toBitVec

theorem compareConnections_of_tied {a b : Connection T} (h : Tied a b) :
    compareConnections a b = ((a.generations : Int) - b.generations).bmod (2 ^ 32) := by
  obtain ⟨hstate, hpriority⟩ := h
  have hcode : compareConnections a b = ((a.remoteCandidate.generation + a.generation) -
      (b.remoteCandidate.generation + b.generation)).toInt32.toInt := by
    simp [compareConnections, compareConnectionCandidates, hstate, hpriority]
  have hlt := a.remoteCandidate.generation.toNat_lt
  have hlt' := b.remoteCandidate.generation.toNat_lt
  rw [hcode, toInt_toInt32, UInt32.toNat_sub, UInt32.toNat_add, UInt32.toNat_add, generations,
    generations]
  simp only [Int.bmod_def]
  omega

theorem standing_lt_iff (a b : Connection T) : a.standing < b.standing ↔
    a.writeState.toNat < b.writeState.toNat ∨ a.writeState = b.writeState ∧
      (b.priority < a.priority ∨ a.priority = b.priority ∧ b.generations < a.generations) := by
  simp only [standing, Prod.Lex.toLex_lt_toLex, OrderDual.toDual_lt_toDual,
    UInt64.lt_iff_toNat_lt, WriteState.toNat_inj, OrderDual.toDual_inj, UInt64.toNat_inj]

theorem compareConnections_pos {a b : Connection T} (hne : ¬ Tied a b)
    (h : a.standing < b.standing) : 0 < compareConnections a b := by
  rw [standing_lt_iff] at h
  rcases h with hstate | ⟨hstate, hpriority | ⟨hpriority, -⟩⟩
  · simp [compareConnections, hstate]
  · simp [compareConnections, compareConnectionCandidates, hstate, hpriority]
  · exact absurd ⟨hstate, hpriority⟩ hne

theorem compareConnections_neg {a b : Connection T} (hne : ¬ Tied a b)
    (h : b.standing < a.standing) : compareConnections a b < 0 := by
  rw [standing_lt_iff] at h
  rcases h with hstate | ⟨hstate, hpriority | ⟨hpriority, -⟩⟩
  · simp [compareConnections, hstate, Nat.not_lt.mpr (Nat.le_of_lt hstate)]
  · simp [compareConnections, compareConnectionCandidates, hstate, hpriority,
      UInt64.not_lt.mpr (UInt64.le_of_lt hpriority)]
  · exact absurd ⟨hstate.symm, hpriority.symm⟩ hne

/-- The younger `a` of two tied connections keeps its place before `b`: the difference of
the generations is positive as a signed number, or it is lost and the round-trip times
stand for it. -/
def KeepsPlace (a b : Connection T) : Prop :=
  (a.generations - b.generations) % 2 ^ 32 ≠ 0 ∧
      (a.generations - b.generations) % 2 ^ 32 < 2 ^ 31 ∨
    (a.generations - b.generations) % 2 ^ 32 = 0 ∧ a.rtt.toNat + 10 < b.rtt.toNat

def GenerationsTell (a b : Connection T) : Prop :=
  Tied a b → b.generations < a.generations → KeepsPlace a b

theorem connectionCompare_of_pos {a b : Connection T} (h : 0 < compareConnections a b) :
    connectionCompare a b = true := by
  rw [connectionCompare, if_pos h]

theorem connectionCompare_of_neg {a b : Connection T} (h : compareConnections a b < 0) :
    connectionCompare a b = false := by
  rw [connectionCompare, if_neg (by omega), if_pos h]

theorem connectionCompare_of_zero {a b : Connection T} (h : compareConnections a b = 0) :
    connectionCompare a b = true ↔ a.rtt.toNat < b.rtt.toNat := by
  rw [connectionCompare, if_neg (by omega), if_neg (by omega), decide_eq_true_eq,
    UInt32.lt_iff_toNat_lt]

theorem standing_eq_iff {a b : Connection T} :
    a.standing = b.standing ↔ Tied a b ∧ a.generations = b.generations := by
  simp [standing, Tied, WriteState.toNat_inj, UInt64.toNat_inj, and_assoc]

theorem Tied.standing_lt_iff {a b : Connection T} (h : Tied a b) :
    a.standing < b.standing ↔ b.generations < a.generations := by
  simp [Connection.standing_lt_iff, h.1, h.2, UInt64.lt_irrefl]

theorem KeepsPlace.compare {a b : Connection T} (h : KeepsPlace a b) (htied : Tied a b)
    (hlt : b.generations < a.generations) :
    0 < compareConnections a b ∧ compareConnections b a < 0 ∨
      compareConnections a b = 0 ∧ compareConnections b a = 0 ∧ a.rtt.toNat + 10 < b.rtt.toNat := by
  rw [compareConnections_of_tied htied, compareConnections_of_tied htied.symm]
  rcases h with ⟨hne, hmod⟩ | ⟨hmod, hrtt⟩
  · simp only [Int.bmod_def]
    omega
  · simp only [Int.bmod_def]
    omega

theorem compareConnections_of_standing_lt {a b : Connection T} (h : GenerationsTell a b)
    (hlt : a.standing < b.standing) :
    0 < compareConnections a b ∧ compareConnections b a < 0 ∨
      compareConnections a b = 0 ∧ compareConnections b a = 0 ∧
        a.rtt.toNat + 10 < b.rtt.toNat := by
  by_cases htied : Tied a b
  · have hgen := htied.standing_lt_iff.mp hlt
    exact (h htied hgen).compare htied hgen
  · exact .inl ⟨compareConnections_pos htied hlt,
      compareConnections_neg (fun h => htied h.symm) hlt⟩

theorem connectionCompare_iff {a b : Connection T} (hab : GenerationsTell a b)
    (hba : GenerationsTell b a) : connectionCompare a b = true ↔ a.rank < b.rank := by
  rw [rank, rank, Prod.Lex.toLex_lt_toLex]
  rcases lt_trichotomy a.standing b.standing with hlt | heq | hgt
  · refine iff_of_true ?_ (.inl hlt)
    rcases compareConnections_of_standing_lt hab hlt with ⟨hpos, -⟩ | ⟨hzero, -, hrtt⟩
    · exact connectionCompare_of_pos hpos
    · exact (connectionCompare_of_zero hzero).mpr (by omega)
  · obtain ⟨htied, hgen⟩ := standing_eq_iff.mp heq
    have hzero : compareConnections a b = 0 := by
      rw [compareConnections_of_tied htied, hgen, Int.sub_self, Int.zero_bmod]
    simp [connectionCompare_of_zero hzero, heq]
  · refine iff_of_false ?_ (by simp [hgt.not_gt, hgt.ne'])
    rcases compareConnections_of_standing_lt hba hgt with ⟨-, hneg⟩ | ⟨-, hzero, hrtt⟩
    · rw [connectionCompare_of_neg hneg]
      exact Bool.false_ne_true
    · rw [connectionCompare_of_zero hzero]
      omega

section Pointers

variable {P : Type} [DecidableEq P] (conns : P → Connection T)

/-- What the comparison is for, over the connections that `S` points to: it is a strict weak
order, sorting gives a permutation in the order of the ranks, and there is no switch to a
connection of worse standing. -/
structure OrdersConnections (S : Set P) : Prop where
  order : IsStrictWeakOrder S fun a b => connectionCompare (conns a) (conns b) = true
  perm : ∀ l : List P, (∀ p ∈ l, p ∈ S) → (sortConnections conns l).Perm l
  sorted : ∀ l : List P, (∀ p ∈ l, p ∈ S) →
    (sortConnections conns l).Pairwise fun a b => (conns a).rank ≤ (conns b).rank
  switch : ∀ a ∈ S, ∀ b ∈ S, shouldSwitch conns (some a) (some b) = true →
    (conns b).standing ≤ (conns a).standing

omit [DecidableEq P] in
theorem sortConnections_eq {l : List P}
    (h : ∀ a ∈ l, ∀ b ∈ l, GenerationsTell (conns a) (conns b)) :
    sortConnections conns l = l.mergeSort fun a b => decide ((conns a).rank ≤ (conns b).rank) := by
  have hmap := @List.map_mergeSort _ _ (fun a b => !connectionCompare (conns b) (conns a))
    (fun a b => decide ((conns a).rank ≤ (conns b).rank)) id l (fun a ha b hb => by
      have hiff := connectionCompare_iff (h b hb a ha) (h a ha b hb)
      rw [id_eq, id_eq, Bool.eq_iff_iff, Bool.not_eq_true', ← Bool.not_eq_true, hiff,
        decide_eq_true_eq, not_lt])
  simpa [sortConnections] using hmap

theorem shouldSwitch_standing {a b : P} (h : GenerationsTell (conns a) (conns b))
    (hswitch : shouldSwitch conns (some a) (some b) = true) :
    (conns b).standing ≤ (conns a).standing := by
  by_contra hlt
  have hcompare := compareConnections_of_standing_lt h (not_le.mp hlt)
  simp only [shouldSwitch] at hswitch
  split at hswitch
  · exact absurd hswitch Bool.false_ne_true
  · rcases hcompare with ⟨hpos, -⟩ | ⟨hzero, -, hrtt⟩
    · rw [if_neg (by omega), if_pos hpos] at hswitch
      exact absurd hswitch Bool.false_ne_true
    · rw [if_neg (by omega), if_neg (by omega), decide_eq_true_eq] at hswitch
      omega

omit [DecidableEq P] in
theorem sortConnections_pair {a b : P} (h : connectionCompare (conns a) (conns b) = false) :
    sortConnections conns [b, a] = [b, a] := by
  apply List.mergeSort_of_pairwise
  simp [h]

/-- The comparison does this exactly when the younger of any two connections that are tied
keeps its place. -/
theorem ordersConnections_iff (S : Set P) : OrdersConnections conns S ↔
    ∀ a ∈ S, ∀ b ∈ S, GenerationsTell (conns a) (conns b) := by
  constructor
  · intro h a ha b hb htied hgen
    have hstanding := htied.standing_lt_iff.mpr hgen
    have hless : connectionCompare (conns a) (conns b) = true := by
      by_contra hnot
      have hsorted := h.sorted [b, a] (by simp [ha, hb])
      rw [sortConnections_pair conns (Bool.not_eq_true _ ▸ hnot)] at hsorted
      have hrank : (conns b).rank ≤ (conns a).rank := by simpa using hsorted
      exact absurd hrank (not_le.mpr (Prod.Lex.toLex_lt_toLex.mpr (.inl hstanding)))
    have hcode := compareConnections_of_tied htied
    by_cases hzero : compareConnections (conns a) (conns b) = 0
    · refine .inr ⟨?_, ?_⟩
      · simp only [hzero, Int.bmod_def] at hcode
        omega
      · have hne : a ≠ b := by
          rintro rfl
          exact absurd hgen (lt_irrefl _)
        by_contra hrtt
        exact absurd (h.switch a ha b hb (by simp [shouldSwitch, hne, hzero]; omega))
          (not_le.mpr hstanding)
    · have hpos : 0 < compareConnections (conns a) (conns b) := by
        rcases Int.lt_trichotomy (compareConnections (conns a) (conns b)) 0 with hneg | h0 | hpos
        · rw [connectionCompare_of_neg hneg] at hless
          exact absurd hless Bool.false_ne_true
        · exact absurd h0 hzero
        · exact hpos
      refine .inl ?_
      simp only [hcode, Int.bmod_def] at hpos
      omega
  · intro h
    have hiff : ∀ a b : S, connectionCompare (conns a) (conns b) = true ↔
        (conns a).rank < (conns b).rank := fun a b =>
      connectionCompare_iff (h a a.2 b b.2) (h b b.2 a a.2)
    refine ⟨isStrictWeakOrder_of_key (fun a : S => (conns a).rank) hiff,
      fun l _ => List.mergeSort_perm l _, ?_,
      fun a ha b hb => shouldSwitch_standing conns (h a ha b hb)⟩
    intro l hl
    rw [sortConnections_eq conns fun a ha b hb => h a (hl a ha) b (hl b hb)]
    have hsorted := @List.pairwise_mergeSort P
      (fun a b => decide ((conns a).rank ≤ (conns b).rank))
      (fun a b c => by simpa using @le_trans _ _ (conns a).rank (conns b).rank (conns c).rank)
      (fun a b => by simpa using le_total (conns a).rank (conns b).rank) l
    exact hsorted.imp (by simp)

end Pointers

/-- Three connections that differ in the generation the other side gave: each is preferred
to the one before it, the first to the last, and there is a switch from the last to the
first. -/
theorem generations_cycle :
    ∃ conns : Fin 3 → Connection UInt32,
      (conns 0).generations < (conns 1).generations ∧
      (conns 1).generations < (conns 2).generations ∧
      connectionCompare (conns 2) (conns 1) = true ∧
      connectionCompare (conns 1) (conns 0) = true ∧
      connectionCompare (conns 2) (conns 0) = false ∧
      connectionCompare (conns 0) (conns 2) = true ∧
      shouldSwitch conns (some 2) (some 0) = true ∧
      sortConnections conns [0, 2] = [0, 2] :=
  ⟨fun n => create 0 .controlling 0 { priority := 2130706431 }
    { priority := 2130706431, generation := n.val.toUInt32 * 0x60000000 },
    by decide +kernel, by decide +kernel, by decide +kernel, by decide +kernel,
    by decide +kernel, by decide +kernel, by decide +kernel,
    sortConnections_pair _ (by decide +kernel)⟩

end Libjingle.Connection
