import Libjingle.Base.AddressOrder

/-! The hash of an address, and what its comparison tells apart. The hostname counts where
the address is the wildcard of its family, and an unresolved address is of no family. -/

namespace Libjingle

section Hash

variable (isHostBigEndian : Bool)

def hostWord (w : UInt32) : UInt32 := UInt32.ofNat (hostToNetwork isHostBigEndian 4 w.toNat)

def hashIP : IPAddress → UInt64
  | .inet a => (hostWord isHostBigEndian a).toUInt64
  | .inet6 a => (hostWord isHostBigEndian a.word0 ^^^ hostWord isHostBigEndian a.word1 ^^^
      hostWord isHostBigEndian a.word2 ^^^ hostWord isHostBigEndian a.word3).toUInt64
  | .unspec => 0

/-- The port is widened to `int` before it is shifted. -/
def SocketAddress.hash (a : SocketAddress) : UInt64 :=
  hashIP isHostBigEndian a.ip ^^^
    (a.port.toUInt32 ||| a.port.toUInt32 <<< 16).toInt32.toInt64.toUInt64

end Hash

namespace SocketAddress

theorem equal_ip {a b : SocketAddress} (h : a.equal b = true) : a.ip = b.ip := by
  simp only [equal, equalIPs, Bool.and_eq_true, decide_eq_true_eq] at h
  exact h.1.1

theorem equal_port {a b : SocketAddress} (h : a.equal b = true) : a.port = b.port := by
  simp only [equal, Bool.and_eq_true, decide_eq_true_eq] at h
  exact h.2

theorem hash_eq_of_equal (isHostBigEndian : Bool) {a b : SocketAddress} (h : a.equal b = true) :
    a.hash isHostBigEndian = b.hash isHostBigEndian := by
  rw [hash, hash, equal_ip h, equal_port h]

theorem less_isStrictWeakOrder : IsStrictWeakOrder SocketAddress fun a b => a.less b = true :=
  isStrictWeakOrder_of_key key less_iff

theorem incomparable_iff_equal (a b : SocketAddress) :
    (¬ a.less b = true ∧ ¬ b.less a = true) ↔ a.equal b = true :=
  (incomparable_iff_of_key less_iff).trans equal_iff.symm

/-- The same port, and the same resolved address or the same unresolved hostname. -/
def Identical (a b : SocketAddress) : Prop :=
  a.port = b.port ∧ (a.ip ≠ .unspec ∧ a.ip = b.ip ∨
    a.ip = .unspec ∧ b.ip = .unspec ∧ a.hostname = b.hostname)

def UnresolvedTwins (a b : SocketAddress) : Prop :=
  a.ip = .unspec ∧ b.ip = .unspec ∧ a.port = b.port ∧ a.hostname ≠ b.hostname

theorem UnresolvedTwins.equal {a b : SocketAddress} (h : UnresolvedTwins a b) :
    a.equal b = true := by
  obtain ⟨ha, hb, hport, -⟩ := h
  simp [SocketAddress.equal, equalIPs, ha, hb, hport, IPAddress.isAny]

theorem equal_identical_iff (a b : SocketAddress) :
    (a.equal b = true → Identical a b) ↔ ¬ UnresolvedTwins a b := by
  constructor
  · intro h htwins
    have hid := h htwins.equal
    obtain ⟨ha, -, -, hname⟩ := htwins
    rcases hid.2 with ⟨hip, -⟩ | ⟨-, -, hsame⟩
    · exact hip ha
    · exact hname hsame
  · intro h heq
    have hip := equal_ip heq
    have hport := equal_port heq
    refine ⟨hport, ?_⟩
    by_cases hunspec : a.ip = .unspec
    · refine .inr ⟨hunspec, hip ▸ hunspec, ?_⟩
      by_contra hname
      exact h ⟨hunspec, hip ▸ hunspec, hport, hname⟩
    · exact .inl ⟨hunspec, hip⟩

/-- The order, the equality and the hash fit together on all addresses. Equal addresses are
identical except for two unresolved hostnames on one port. -/
theorem comparison_laws (isHostBigEndian : Bool) :
    IsStrictWeakOrder SocketAddress (fun a b => a.less b = true) ∧
    (∀ a b : SocketAddress, (¬ a.less b = true ∧ ¬ b.less a = true) ↔ a.equal b = true) ∧
    (∀ a b : SocketAddress, a.equal b = true →
      a.hash isHostBigEndian = b.hash isHostBigEndian) ∧
    ∀ a b : SocketAddress, (a.equal b = true → Identical a b) ↔ ¬ UnresolvedTwins a b :=
  ⟨less_isStrictWeakOrder, incomparable_iff_equal, fun _ _ => hash_eq_of_equal isHostBigEndian,
    equal_identical_iff⟩

/-- `a.example:80` and `b.example:80` -/
theorem unresolved_equal :
    ∃ a b : SocketAddress, a.hostname = "a.example".toUTF8.toList ∧
      b.hostname = "b.example".toUTF8.toList ∧ a.ip = .unspec ∧ b.ip = .unspec ∧ a.port = 80 ∧
      b.port = 80 ∧ a.equal b = true ∧ a.hostname ≠ b.hostname :=
  ⟨⟨[97, 46, 101, 120, 97, 109, 112, 108, 101], .unspec, 80⟩,
    ⟨[98, 46, 101, 120, 97, 109, 112, 108, 101], .unspec, 80⟩, by decide +kernel⟩

end SocketAddress

end Libjingle
