import Libjingle.Base.SocketAddress
import Mathlib.Data.Prod.Lex
import Mathlib.Data.List.Lex
import Mathlib.Order.Defs.Unbundled

/-! The comparison of addresses is the one of keys in a linear order, and two
addresses are equal when their keys are. -/

namespace Libjingle

theorem isStrictWeakOrder_of_key {α κ : Type*} [LinearOrder κ] {lt : α → α → Prop} (key : α → κ)
    (h : ∀ a b, lt a b ↔ key a < key b) : IsStrictWeakOrder α lt where
  irrefl a ha := lt_irrefl _ ((h a a).mp ha)
  trans a b c hab hbc := (h a c).mpr (((h a b).mp hab).trans ((h b c).mp hbc))
  incomp_trans a b c hab hbc := by
    simp only [h, not_lt] at hab hbc ⊢
    exact ⟨hbc.1.trans hab.1, hab.2.trans hbc.2⟩

theorem incomparable_iff_of_key {α κ : Type*} [LinearOrder κ] {lt : α → α → Prop} {key : α → κ}
    (h : ∀ a b, lt a b ↔ key a < key b) {a b : α} : (¬ lt a b ∧ ¬ lt b a) ↔ key a = key b := by
  rw [h, h, not_lt, not_lt]
  exact ⟨fun hab => le_antisymm hab.2 hab.1, fun hab => ⟨hab.ge, hab.le⟩⟩

theorem In6Addr.value_inj {a b : In6Addr} (h : a.value = b.value) : a = b := by
  have ha := a.word1.toNat_lt
  have ha' := a.word2.toNat_lt
  have ha'' := a.word3.toNat_lt
  have hb := b.word1.toNat_lt
  have hb' := b.word2.toNat_lt
  have hb'' := b.word3.toNat_lt
  simp only [In6Addr.value] at h
  cases a
  cases b
  simp only [In6Addr.mk.injEq, ← UInt32.toNat_inj] at *
  omega

def IPAddress.key : IPAddress → ℕ ×ₗ ℕ
  | .unspec => toLex (0, 0)
  | .inet a => toLex (1, a.toNat)
  | .inet6 a => toLex (2, a.value)

theorem IPAddress.less_iff (a b : IPAddress) : a.less b = true ↔ a.key < b.key := by
  rw [Prod.Lex.lt_iff]
  cases a <;> cases b <;> simp [less, key, UInt32.lt_iff_toNat_lt]

theorem IPAddress.key_inj {a b : IPAddress} : a.key = b.key ↔ a = b := by
  constructor
  · intro h
    cases a <;> cases b <;> simp only [key, EmbeddingLike.apply_eq_iff_eq, Prod.mk.injEq] at h
    · rfl
    · omega
    · omega
    · omega
    · rw [UInt32.toNat_inj.mp h.2]
    · omega
    · omega
    · omega
    · rw [In6Addr.value_inj h.2]
  · rintro rfl
    rfl

theorem map_toNat_lt_iff (a b : List UInt8) : a.map UInt8.toNat < b.map UInt8.toNat ↔ a < b := by
  induction a generalizing b with
  | nil => cases b <;> simp
  | cons x a ih =>
    cases b with
    | nil => simp
    | cons y b =>
      rw [List.map_cons, List.map_cons, List.cons_lt_cons_iff, List.cons_lt_cons_iff, ih,
        UInt8.toNat_inj, UInt8.lt_iff_toNat_lt]

namespace SocketAddress

/-- The hostname counts where the address is zero. -/
def key (a : SocketAddress) : (ℕ ×ₗ ℕ) ×ₗ (List ℕ ×ₗ ℕ) :=
  toLex (a.ip.key, toLex (if a.ip.isAny then a.hostname.map UInt8.toNat else [], a.port.toNat))

theorem less_iff (a b : SocketAddress) : a.less b = true ↔ a.key < b.key := by
  rw [key, key, Prod.Lex.toLex_lt_toLex, Prod.Lex.toLex_lt_toLex, IPAddress.key_inj]
  simp only [less, IPAddress.less_iff]
  by_cases hab : a.ip.key < b.ip.key
  · rw [if_pos hab]
    exact iff_of_true rfl (.inl hab)
  · rw [if_neg hab]
    by_cases hba : b.ip.key < a.ip.key
    · have hne : a.ip ≠ b.ip := fun h => lt_irrefl _ (h ▸ hba)
      simp [hab, hba, hne]
    · have heq : a.ip = b.ip := IPAddress.key_inj.mp (le_antisymm (not_lt.mp hba) (not_lt.mp hab))
      have hport : a.port < b.port ↔ a.port.toNat < b.port.toNat := UInt16.lt_iff_toNat_lt
      by_cases hany : b.ip.isAny
      · simp only [heq, lt_self_iff_false, if_false, hany, Bool.true_and, if_true, true_and,
          false_or, decide_eq_true_eq, ← map_toNat_lt_iff, hport]
        rcases lt_trichotomy (a.hostname.map UInt8.toNat) (b.hostname.map UInt8.toNat) with h | h | h
        · simp [h]
        · simp [h]
        · simp [h, h.not_gt, h.ne']
      · simp [heq, hany, hport]

theorem equal_iff {a b : SocketAddress} : a.equal b = true ↔ a.key = b.key := by
  simp only [key, EmbeddingLike.apply_eq_iff_eq, Prod.mk.injEq, IPAddress.key_inj, equal, equalIPs,
    Bool.and_eq_true, Bool.or_eq_true, decide_eq_true_eq, Bool.not_eq_true', UInt16.toNat_inj,
    and_assoc]
  refine and_congr_right fun hip => and_congr_left fun _ => ?_
  rw [hip]
  by_cases hany : b.ip.isAny
  · simp [hany, List.map_inj_right (fun x y => UInt8.toNat_inj.mp)]
  · simp [hany]

theorem equal_refl (a : SocketAddress) : a.equal a = true := equal_iff.mpr rfl

end SocketAddress

end Libjingle
