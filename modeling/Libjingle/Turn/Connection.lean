import Libjingle.Base.AddressOrder
import Libjingle.Lib.SearchTree

/-! The allocation table of `TurnServer`: a map from the connections of clients to
allocations, in the order of the connections. -/

namespace Libjingle

inductive ProtocolType
  | udp
  | tcp
  | ssltcp
  deriving DecidableEq, Repr

def ProtocolType.toNat : ProtocolType → Nat
  | udp => 0
  | tcp => 1
  | ssltcp => 2

theorem ProtocolType.toNat_inj {p q : ProtocolType} : p.toNat = q.toNat ↔ p = q := by
  cases p <;> cases q <;> simp [toNat]

namespace TurnServer

structure Connection where
  src : SocketAddress
  proto : ProtocolType
  socket : Nat
  deriving DecidableEq, Repr

namespace Connection

/-- The remote address of the socket: a datagram socket has none, and of a stream
socket it is where its packets come from. -/
def dst (c : Connection) : SocketAddress := if c.proto = .udp then .nil else c.src

/-- `operator==` -/
def equal (a b : Connection) : Bool := a.src.equal b.src && a.dst.equal b.dst && a.proto = b.proto

/-- `operator<` -/
def less (a b : Connection) : Bool :=
  a.src.less b.src || a.dst.less b.dst || a.proto.toNat < b.proto.toNat

def SameClient (a b : Connection) : Prop :=
  a.src.equal b.src = true ∧ a.proto = b.proto ∧ a.socket = b.socket

end Connection

/-- The map, and the allocations that were not destroyed, each with the connection it
was created for. -/
structure AllocationTable where
  allocations : SearchTree Connection Nat := .leaf
  live : List (Nat × Connection) := []
  next : Nat := 0

namespace AllocationTable

def findAllocation (s : AllocationTable) (conn : Connection) : Option Nat :=
  s.allocations.find Connection.less conn

inductive Op
  | createAllocation (conn : Connection)
  | onAllocationDestroyed (allocation : Nat)

/-- An allocation is created where none was found. The map may be balanced anew with
every change. -/
inductive Step (s : AllocationTable) : Op → AllocationTable → Prop
  | create {conn : Connection} {tree : SearchTree Connection Nat}
      (hfind : s.findAllocation conn = none)
      (htree : tree.toList = s.allocations.assign Connection.less conn s.next) :
      Step s (.createAllocation conn)
        { allocations := tree, live := s.live ++ [(s.next, conn)], next := s.next + 1 }
  | destroy {allocation : Nat} {conn : Connection} {tree : SearchTree Connection Nat}
      (hlive : (allocation, conn) ∈ s.live)
      (htree : tree.toList = s.allocations.erase Connection.less conn) :
      Step s (.onAllocationDestroyed allocation)
        { s with allocations := tree, live := s.live.filter (·.1 ≠ allocation) }

/-- The tables after a history of allocations for connections of a set. -/
inductive Reachable (S : Set Connection) : AllocationTable → Prop
  | initial : Reachable S {}
  | step {s t : AllocationTable} {op : Op} (hs : Reachable S s) (hstep : Step s op t)
      (hop : ∀ conn, op = .createAllocation conn → conn ∈ S) : Reachable S t

/-- What is promised of the connections of a set and of the table. -/
structure Sound (S : Set Connection) : Prop where
  order : IsStrictWeakOrder S fun a b => a.1.less b.1 = true
  equivalence : ∀ a ∈ S, ∀ b ∈ S, (¬ a.less b = true ∧ ¬ b.less a = true) ↔ a.equal b = true
  finds : ∀ s, Reachable S s → ∀ conn ∈ S, ∀ allocation, s.findAllocation conn = some allocation ↔
    ∃ c, (allocation, c) ∈ s.live ∧ c.SameClient conn
  unshared : ∀ s, Reachable S s → ∀ a ∈ s.live, ∀ b ∈ s.live, a.2.equal b.2 = true → a.1 = b.1

/-- The addresses of clients are ordered as their protocols are, and a client comes
by one socket of a protocol. -/
def Separated (S : Set Connection) : Prop :=
  ∀ a ∈ S, ∀ b ∈ S, (a.proto.toNat < b.proto.toNat → b.src.less a.src = false) ∧
    (a.src.equal b.src = true → a.proto = b.proto → a.socket = b.socket)

end AllocationTable

namespace Connection

variable {a b : Connection}

def key (c : Connection) : ℕ ×ₗ (ℕ ×ₗ ℕ) ×ₗ (List ℕ ×ₗ ℕ) := toLex (c.proto.toNat, c.src.key)

theorem less_nil (a : SocketAddress) : a.less .nil = false := by
  rcases a with ⟨hostname, ip, port⟩
  cases ip <;> simp [SocketAddress.less, SocketAddress.nil, IPAddress.less, IPAddress.isAny]

theorem equal_iff : a.equal b = true ↔ a.key = b.key := by
  simp only [equal, key, EmbeddingLike.apply_eq_iff_eq, Prod.mk.injEq, ProtocolType.toNat_inj,
    Bool.and_eq_true, decide_eq_true_eq, SocketAddress.equal_iff, dst]
  constructor
  · rintro ⟨⟨hsrc, -⟩, hproto⟩
    exact ⟨hproto, hsrc⟩
  · rintro ⟨hproto, hsrc⟩
    refine ⟨⟨hsrc, ?_⟩, hproto⟩
    rw [hproto]
    split
    · rfl
    · exact hsrc

theorem equal_refl (a : Connection) : a.equal a = true := equal_iff.mpr rfl

theorem less_of_proto (h : a.proto.toNat < b.proto.toNat) : a.less b = true := by
  simp [less, h]

theorem less_iff (h : b.proto.toNat < a.proto.toNat → a.src.less b.src = false) :
    a.less b = true ↔ a.key < b.key := by
  rw [key, key, Prod.Lex.toLex_lt_toLex, ← SocketAddress.less_iff, ProtocolType.toNat_inj]
  rcases lt_trichotomy a.proto.toNat b.proto.toNat with hlt | heq | hgt
  · exact iff_of_true (less_of_proto hlt) (.inl hlt)
  · have hproto := ProtocolType.toNat_inj.mp heq
    simp only [less, dst, hproto, lt_self_iff_false, decide_false, Bool.or_false, false_or, true_and]
    split
    · simp [less_nil]
    · simp
  · have hproto : a.proto ≠ b.proto := fun hsame => by simp [hsame] at hgt
    have hdst : a.dst.less b.dst = false := by
      have ha : a.proto ≠ .udp := fun hudp => by simp [hudp, ProtocolType.toNat] at hgt
      rw [dst, dst, if_neg ha]
      split
      · exact less_nil _
      · exact h hgt
    simp [less, h hgt, hdst, hgt.not_gt, hproto]

end Connection

namespace AllocationTable

open Connection

variable {S : Set Connection} {s t : AllocationTable}

theorem Separated.less_iff (h : Separated S) {a b : Connection} (ha : a ∈ S) (hb : b ∈ S) :
    a.less b = true ↔ a.key < b.key :=
  Connection.less_iff (h b hb a ha).1

theorem Separated.order (h : Separated S) : IsStrictWeakOrder S fun a b => a.1.less b.1 = true :=
  isStrictWeakOrder_of_key (fun c : S => c.1.key) fun a b => h.less_iff a.2 b.2

theorem Separated.equivalence (h : Separated S) {a b : Connection} (ha : a ∈ S) (hb : b ∈ S) :
    (¬ a.less b = true ∧ ¬ b.less a = true) ↔ a.equal b = true := by
  rw [h.less_iff ha hb, h.less_iff hb ha, Connection.equal_iff, not_lt, not_lt]
  exact ⟨fun hab => le_antisymm hab.2 hab.1, fun hab => ⟨hab.ge, hab.le⟩⟩

/-- What holds of the table after a history over separated connections. -/
structure Inv (S : Set Connection) (s : AllocationTable) : Prop where
  sorted : SearchTree.Sorted Connection.less s.allocations.toList
  mem : ∀ e ∈ s.allocations.toList, e.1 ∈ S
  entry_iff : ∀ conn allocation, (conn, allocation) ∈ s.allocations.toList ↔ (allocation, conn) ∈ s.live
  lt_next : ∀ a ∈ s.live, a.1 < s.next
  functional : ∀ a ∈ s.live, ∀ b ∈ s.live, a.1 = b.1 → a = b
  unshared : ∀ a ∈ s.live, ∀ b ∈ s.live, a.2.equal b.2 = true → a.1 = b.1

theorem inv_initial : Inv S {} where
  sorted := List.Pairwise.nil
  mem _ he := absurd he List.not_mem_nil
  entry_iff _ _ := iff_of_false List.not_mem_nil List.not_mem_nil
  lt_next _ ha := absurd ha List.not_mem_nil
  functional _ ha := absurd ha List.not_mem_nil
  unshared _ ha := absurd ha List.not_mem_nil

theorem Inv.find_iff (hS : Separated S) (h : Inv S s) {conn : Connection} (hconn : conn ∈ S)
    {allocation : Nat} : s.findAllocation conn = some allocation ↔
      ∃ c, (allocation, c) ∈ s.live ∧ c.equal conn = true := by
  rw [findAllocation, SearchTree.find_eq_some_iff hS.order h.sorted h.mem hconn]
  constructor
  · rintro ⟨⟨c, _⟩, he, rfl, hless⟩
    have hequal := (hS.equivalence (h.mem _ he) hconn).mp (by simpa using hless)
    exact ⟨c, (h.entry_iff _ _).mp he, hequal⟩
  · rintro ⟨c, hlive, hequal⟩
    have he := (h.entry_iff _ _).mpr hlive
    exact ⟨_, he, rfl, by simpa using (hS.equivalence (h.mem _ he) hconn).mpr hequal⟩

theorem Inv.create (hS : Separated S) (h : Inv S s) {conn : Connection} (hconn : conn ∈ S)
    {tree : SearchTree Connection Nat} (hfind : s.findAllocation conn = none)
    (htree : tree.toList = s.allocations.assign Connection.less conn s.next) :
    Inv S { allocations := tree, live := s.live ++ [(s.next, conn)], next := s.next + 1 } := by
  have hassign : ∀ e, e ∈ tree.toList ↔ e = (conn, s.next) ∨ e ∈ s.allocations.toList := fun e => by
    rw [htree, SearchTree.mem_assign hS.order h.sorted h.mem hconn hfind]
  have hfresh : ∀ a ∈ s.live, a.2.equal conn = false := fun a ha => by
    by_contra hequal
    have hsome := (h.find_iff hS hconn).mpr ⟨a.2, ha, by simpa using hequal⟩
    rw [hfind] at hsome
    cases hsome
  have hlive : ∀ a, a ∈ s.live ++ [(s.next, conn)] ↔ a ∈ s.live ∨ a = (s.next, conn) := fun a => by
    rw [List.mem_append, List.mem_singleton]
  refine ⟨?_, ?_, ?_, ?_, ?_, ?_⟩
  · rw [htree]
    exact SearchTree.sorted_assign hS.order h.sorted h.mem hconn hfind _
  · intro e he
    rcases (hassign e).mp he with rfl | he
    · exact hconn
    · exact h.mem e he
  · intro c allocation
    rw [hassign, hlive, h.entry_iff, Prod.mk.injEq, Prod.mk.injEq, or_comm,
      and_comm (a := c = conn)]
  · intro a ha
    rcases (hlive a).mp ha with ha | rfl
    · exact (h.lt_next a ha).trans (Nat.lt_succ_self _)
    · exact Nat.lt_succ_self _
  · intro a ha b hb hab
    rcases (hlive a).mp ha with ha | rfl <;> rcases (hlive b).mp hb with hb | rfl
    · exact h.functional a ha b hb hab
    · exact absurd hab (h.lt_next a ha).ne
    · exact absurd hab (h.lt_next b hb).ne'
    · rfl
  · intro a ha b hb hab
    rcases (hlive a).mp ha with ha | rfl <;> rcases (hlive b).mp hb with hb | rfl
    · exact h.unshared a ha b hb hab
    · exact absurd hab (by simp [hfresh a ha])
    · have hsymm : b.2.equal conn = true := equal_iff.mpr (equal_iff.mp hab).symm
      exact absurd hsymm (by simp [hfresh b hb])
    · rfl

theorem Inv.destroy (hS : Separated S) (h : Inv S s) {allocation : Nat} {conn : Connection}
    {tree : SearchTree Connection Nat} (hmem : (allocation, conn) ∈ s.live)
    (htree : tree.toList = s.allocations.erase Connection.less conn) :
    Inv S { s with allocations := tree, live := s.live.filter (·.1 ≠ allocation) } := by
  have hconn : conn ∈ S := h.mem _ ((h.entry_iff _ _).mpr hmem)
  have hsub : ∀ a, a ∈ s.live.filter (·.1 ≠ allocation) ↔ a ∈ s.live ∧ a.1 ≠ allocation := fun a => by
    simp
  refine ⟨?_, ?_, ?_, ?_, ?_, ?_⟩
  · rw [htree]
    exact h.sorted.sublist SearchTree.erase_sublist
  · intro e he
    rw [htree] at he
    exact h.mem e (SearchTree.erase_sublist.subset he)
  · intro c id
    rw [hsub, htree, SearchTree.mem_erase hS.order h.sorted h.mem hconn, ← h.entry_iff]
    refine and_congr_right fun he => not_congr ?_
    have hequiv := hS.equivalence (h.mem _ he) hconn
    simp only [Bool.not_eq_true] at hequiv
    rw [hequiv]
    constructor
    · exact fun hequal => h.unshared _ ((h.entry_iff _ _).mp he) _ hmem hequal
    · intro hid
      have hsame := h.functional _ ((h.entry_iff _ _).mp he) _ hmem hid
      rw [(Prod.mk.inj hsame).2]
      exact Connection.equal_refl conn
  · exact fun a ha => h.lt_next a ((hsub a).mp ha).1
  · exact fun a ha b hb => h.functional a ((hsub a).mp ha).1 b ((hsub b).mp hb).1
  · exact fun a ha b hb => h.unshared a ((hsub a).mp ha).1 b ((hsub b).mp hb).1

theorem inv_of_reachable (hS : Separated S) (hs : Reachable S s) : Inv S s := by
  induction hs with
  | initial => exact inv_initial
  | step _ hstep hop ih =>
    cases hstep with
    | create hfind htree => exact ih.create hS (hop _ rfl) hfind htree
    | destroy hlive htree => exact ih.destroy hS hlive htree

theorem find_single {a b : Connection} (ha : a ∈ S)
    (hless : ¬ a.less b = true ∧ ¬ b.less a = true) :
    ∃ s, Reachable S s ∧ s.live = [(0, a)] ∧ s.findAllocation b = some 0 := by
  refine ⟨⟨.node .leaf a 0 .leaf, [(0, a)], 1⟩, ?_, rfl, ?_⟩
  · have hstep : Step {} (.createAllocation a) ⟨.node .leaf a 0 .leaf, [(0, a)], 1⟩ :=
      .create rfl rfl
    exact .step .initial hstep fun conn hconn => by
      obtain rfl := Op.createAllocation.inj hconn
      exact ha
  · simp [findAllocation, SearchTree.find, SearchTree.rank, SearchTree.toList, hless.1, hless.2]

def clients : Connection × Connection × Connection :=
  (⟨.ofIP (.inet 5) 1000, .udp, 0⟩, ⟨.ofIP (.inet 1) 1000, .tcp, 1⟩, ⟨.ofIP (.inet 2) 1000, .tcp, 2⟩)

end AllocationTable

end TurnServer

end Libjingle
