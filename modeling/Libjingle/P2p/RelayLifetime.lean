import Libjingle.Base.TimeUtils
import Libjingle.Lib.Lease
import Libjingle.P2p.RelayUses

/-! How long a binding of the relay server lives. Its timer is handled when it is due: the time does
not go past that. -/

namespace Libjingle

def SameLap (a b : Int) : Prop := a / 4294967296 = b / 4294967296

instance (a b : Int) : Decidable (SameLap a b) := inferInstanceAs (Decidable (_ = _))

theorem clockAt_le_iff {a b : Int} (hab : a - b < 4294967296) (hba : b - a < 4294967296) :
    (clockAt a ≤ clockAt b ↔ a ≤ b) ↔ SameLap a b := by
  have ha := toNat_clockAt a
  have hb := toNat_clockAt b
  rw [UInt32.le_iff_toNat_le, SameLap]
  omega

namespace RelayServer

def lifetimeOf (request : StunMessage) : UInt32 :=
  match uint32Of request stunAttrLifetime with
  | some value => min maxLifetime (value * 1000)
  | none => maxLifetime

theorem binding_newBinding (s : RelayServer) (username : List UInt8) (request : StunMessage)
    (now : UInt32) : (s.newBinding username request now).binding s.nextBinding =
      some { username, lifetime := lifetimeOf request, lastUsed := now } :=
  Function.update_self ..

theorem binding_modifyBinding (s : RelayServer) {b : Nat} {x : Binding} (hb : s.binding b = some x)
    (f : Binding → Binding) : (s.modifyBinding b f).binding b = some (f x) := by
  rw [modifyBinding, hb]
  exact Function.update_self ..

theorem binding_noteUsed (s : RelayServer) {b : Nat} {x : Binding} (hb : s.binding b = some x)
    (now : UInt32) : (s.noteUsed b now).binding b = some { x with lastUsed := now } :=
  s.binding_modifyBinding hb _

theorem binding_onTimer (s : RelayServer) {b : Nat} {x : Binding} (hb : s.binding b = some x)
    (htimer : x.timer = true) (now : UInt32) : (s.onTimer b now).binding b =
      some { x with timer := decide (¬ now ≥ x.lastUsed + x.lifetime) } := by
  rw [onTimer, hb]
  simp only [htimer, Bool.true_eq_false, if_false]
  by_cases hover : now ≥ x.lastUsed + x.lifetime
  · rw [if_pos hover, decide_eq_false (not_not.mpr hover)]
    exact s.binding_modifyBinding hb _
  · rw [if_neg hover, decide_eq_true hover, hb, ← htimer]

theorem announced_of_answerAllocate (s : RelayServer) {c : Nat} {conn : Connection} {x : Binding}
    (hc : s.connection c = some conn) (hb : s.binding conn.binding = some x)
    {request : StunMessage} {random : Nat} {now : UInt32} {o : Output}
    (ho : o ∈ (s.answerAllocate c request random now).2) {id : List UInt8}
    {mapped : SocketAddress} {value : UInt32}
    (hpacket : o.packet = .allocateResponse id mapped value) : value = x.lifetime / 1000 := by
  rw [answerAllocate, hc] at ho
  simp only [hb] at ho
  cases hext : s.externalSockets[random % s.externalSockets.length]? with
  | none =>
    rw [hext] at ho
    cases ho
  | some ext =>
    rw [hext] at ho
    rw [List.mem_singleton.mp ho] at hpacket
    injection hpacket with _ _ hvalue
    exact hvalue.symm

end RelayServer

/-- A binding with the time, when its timer is due, when it was last used, and when it expired. -/
structure TimedBinding extends Lease where
  server : RelayServer
  binding : Nat

namespace TimedBinding

def create (s : RelayServer) (username : List UInt8) (request : StunMessage) (time : Int) :
    TimedBinding where
  server := s.newBinding username request (clockAt time)
  binding := s.nextBinding
  now := time
  due := time + (RelayServer.lifetimeOf request).toNat
  lastUse := time

section Step

variable (s : TimedBinding)

/-- `lifetime_` -/
def lifetime : Nat := ((s.server.binding s.binding).map (·.lifetime.toNat)).getD 0

/-- `MSG_LIFETIME_TIMER` -/
def onMessage : TimedBinding :=
  let server := s.server.onTimer s.binding (clockAt s.now)
  if (server.binding s.binding).any (·.timer) then
    { s with server := server, due := s.now + s.lifetime }
  else { s with server := server, expired := some s.now }

def handle (e : Lease.Event) : TimedBinding :=
  if s.expired.isSome then s
  else match e with
    | .tick => if s.now < s.due then { s with now := s.now + 1 } else s
    | .check => if s.now < s.due then s else s.onMessage
    | .use =>
      { s with
        server := s.server.noteUsed s.binding (clockAt s.now)
        lastUse := s.now }

/-- What happens if the binding is not used. -/
def idle : TimedBinding := s.handle (Lease.next s.now s.due)

def requestedTerm (request : StunMessage) : Nat :=
  match RelayServer.uint32Of request stunAttrLifetime with
  | some value => min (15 * 60 * 1000) (value.toNat * 1000)
  | none => 15 * 60 * 1000

/-- What is to hold at any time: if the binding is not used any more, it expires a term after its
last use at the earliest and two terms at the latest, and no response announces more than it has
been granted. -/
structure Right (term : Nat) : Prop where
  kept : ∃ n e, (idle^[n] s).expired = some e ∧ s.lastUse + term ≤ e ∧ e ≤ s.lastUse + 2 * term
  announced : ∀ c conn request random o id mapped value, s.server.connection c = some conn →
    conn.binding = s.binding →
    o ∈ (s.server.answerAllocate c request random (clockAt s.now)).2 →
    o.packet = .allocateResponse id mapped value → value.toNat * 1000 ≤ s.lifetime

/-- The clock does not wrap between the time when the lifetime is over and the next time that the
timer is due, nor, if that is too early, the time after it. -/
def Steady : Prop := s.expired = none →
  SameLap s.due (s.lastUse + s.lifetime) ∧
    (s.due < s.lastUse + s.lifetime → SameLap (s.due + s.lifetime) (s.lastUse + s.lifetime))

end Step

def Granted (request : StunMessage) : Prop :=
  ∀ value ∈ RelayServer.uint32Of request stunAttrLifetime,
    value.toNat * 1000 < 4294967296 ∨ RelayServer.maxLifetime ≤ value * 1000

def lapsed (granted : UInt32) (now lastUse : Int) : Bool :=
  decide (clockAt now ≥ clockAt lastUse + granted)

def Tracks (granted : UInt32) (s : TimedBinding) : Prop :=
  ∃ x, s.server.binding s.binding = some x ∧ x.lifetime = granted ∧
    x.lastUsed = clockAt s.lastUse ∧ (x.timer = true ↔ s.expired = none)

variable {granted : UInt32} {s : TimedBinding}

theorem lapsed_iff {now lastUse : Int} :
    lapsed granted now lastUse = true ↔ clockAt (lastUse + granted.toNat) ≤ clockAt now := by
  rw [lapsed, decide_eq_true_iff, ← clockAt_add, UInt32.ofNat_toNat]

theorem stuck_lapsed (h : granted ≤ RelayServer.maxLifetime) :
    Lease.Stuck granted.toNat (lapsed granted) := by
  have hle : granted.toNat ≤ 900000 := UInt32.le_iff_toNat_le.mp h
  constructor
  · omega
  · intro hzero u
    rw [lapsed_iff, hzero, Int.add_zero]
    exact UInt32.le_refl _
  · intro t u hlow hhigh hfail
    have hlater := mt lapsed_iff.mpr (Bool.eq_false_iff.mp hfail)
    rw [Bool.eq_false_iff, Ne, lapsed_iff]
    have hfirst := toNat_clockAt (u + granted.toNat)
    have hsecond := toNat_clockAt t
    have hthird := toNat_clockAt (t + granted.toNat)
    rw [UInt32.le_iff_toNat_le] at hlater ⊢
    omega

theorem Tracks.lifetime_eq (h : s.Tracks granted) : s.lifetime = granted.toNat := by
  obtain ⟨x, hx, hlifetime, -⟩ := h
  rw [lifetime, hx, ← hlifetime]
  rfl

theorem Tracks.onMessage (h : s.Tracks granted) (halive : s.expired = none) :
    s.onMessage.toLease =
        (if lapsed granted s.now s.lastUse then { s.toLease with expired := some s.now }
        else { s.toLease with due := s.now + granted.toNat }) ∧
      s.onMessage.Tracks granted := by
  have hlifetime := h.lifetime_eq
  obtain ⟨x, hx, rfl, hlast, htimer⟩ := h
  have hnext := s.server.binding_onTimer hx (htimer.mpr halive) (clockAt s.now)
  have hlapsed : lapsed x.lifetime s.now s.lastUse =
      decide (clockAt s.now ≥ x.lastUsed + x.lifetime) := by
    rw [lapsed, hlast]
  rw [TimedBinding.onMessage, hnext, hlapsed]
  by_cases hover : clockAt s.now ≥ x.lastUsed + x.lifetime
  · rw [decide_eq_true hover, decide_eq_false (not_not.mpr hover)] at *
    exact ⟨rfl, _, hnext, rfl, hlast, iff_of_false Bool.false_ne_true (by simp)⟩
  · rw [decide_eq_false hover, decide_eq_true hover] at *
    refine ⟨?_, _, hnext, rfl, hlast, iff_of_true rfl halive⟩
    rw [← hlifetime]
    rfl

theorem Tracks.handle (h : s.Tracks granted) (e : Lease.Event) :
    (s.handle e).toLease = s.toLease.step granted.toNat (lapsed granted) e ∧
      (s.handle e).Tracks granted := by
  cases halive : s.expired with
  | some t => simp [TimedBinding.handle, Lease.step, halive, h]
  | none =>
    have hmessage := h.onMessage halive
    have hsame := h
    have hdead : ¬ s.expired.isSome = true := by simp [halive]
    obtain ⟨x, hx, hgranted, hlast, htimer⟩ := h
    cases e with
    | tick =>
      rw [TimedBinding.handle, Lease.step, if_neg hdead, if_neg hdead]
      split
      · exact ⟨rfl, x, hx, hgranted, hlast, htimer⟩
      · exact ⟨rfl, hsame⟩
    | use =>
      rw [TimedBinding.handle, Lease.step, if_neg hdead, if_neg hdead]
      exact ⟨rfl, _, s.server.binding_noteUsed hx _, hgranted, rfl, htimer⟩
    | check =>
      rw [TimedBinding.handle, Lease.step, if_neg hdead, if_neg hdead]
      split
      · exact ⟨rfl, hsame⟩
      · exact hmessage

theorem Tracks.foldl (h : s.Tracks granted) (events : List Lease.Event) :
    (events.foldl TimedBinding.handle s).toLease =
        events.foldl (Lease.step granted.toNat (lapsed granted)) s.toLease ∧
      (events.foldl TimedBinding.handle s).Tracks granted := by
  induction events generalizing s with
  | nil => exact ⟨rfl, h⟩
  | cons e events ih =>
    obtain ⟨heq, hnext⟩ := h.handle e
    rw [List.foldl_cons, List.foldl_cons, ← heq]
    exact ih hnext

theorem Tracks.event (h : s.Tracks granted) (hsound : s.server.tables.Sound)
    {e : RelayServer.Event} (htimer : ∀ now, e ≠ .timer s.binding now)
    (hdelete : e = .dispatch → s.server.doomed.head? ≠ some s.binding)
    (hclock : e.clock = clockAt s.now) :
    Tracks granted { s with server := s.server.step e } ∨
      Tracks granted { s with server := s.server.step e, lastUse := s.now } := by
  obtain ⟨x, hx, hgranted, hlast, hrunning⟩ := h
  obtain ⟨y, hy, hlifetime, hsame, hused⟩ := RelayServer.step_binding hsound hx htimer hdelete
  rw [← hsame] at hrunning
  rcases hused with hold | hnew
  · exact Or.inl ⟨y, hy, hlifetime.trans hgranted, hold.trans hlast, hrunning⟩
  · exact Or.inr ⟨y, hy, hlifetime.trans hgranted, hnew.trans hclock, hrunning⟩

theorem Tracks.iterate (h : s.Tracks granted) (n : Nat) :
    (idle^[n] s).toLease = (Lease.idle granted.toNat (lapsed granted))^[n] s.toLease := by
  induction n generalizing s with
  | zero => rfl
  | succ n ih =>
    obtain ⟨heq, hnext⟩ := h.handle (Lease.next s.now s.due)
    rw [Function.iterate_succ_apply, Function.iterate_succ_apply, Lease.idle, ← heq]
    exact ih hnext

theorem Tracks.right_iff (h : s.Tracks granted) {term : Nat} :
    s.Right term ↔ s.toLease.Kept granted.toNat (lapsed granted) term := by
  have hexp (e : Int) : (∃ n, (idle^[n] s).expired = some e) ↔
      s.toLease.Expires granted.toNat (lapsed granted) e :=
    exists_congr fun n => by rw [h.iterate n]
  have hkept : (∃ n e, (idle^[n] s).expired = some e ∧ s.lastUse + term ≤ e ∧
      e ≤ s.lastUse + 2 * term) ↔ s.toLease.Kept granted.toNat (lapsed granted) term := by
    rw [exists_comm]
    refine exists_congr fun e => ?_
    rw [← hexp, exists_and_right]
  refine ⟨fun hright => hkept.mp hright.kept, fun h' => ⟨hkept.mpr h', ?_⟩⟩
  rintro c conn request random o id mapped value hc hconn ho hpacket
  rw [h.lifetime_eq]
  obtain ⟨x, hx, rfl, -⟩ := h
  rw [← hconn] at hx
  rw [s.server.announced_of_answerAllocate hc hx ho hpacket, UInt32.toNat_div]
  exact Nat.div_mul_le_self x.lifetime.toNat 1000

section Request

variable {request : StunMessage}

theorem toNat_lifetimeOf : (RelayServer.lifetimeOf request).toNat =
    match RelayServer.uint32Of request stunAttrLifetime with
    | some value => min 900000 (value.toNat * 1000 % 4294967296)
    | none => 900000 := by
  rw [RelayServer.lifetimeOf]
  cases RelayServer.uint32Of request stunAttrLifetime with
  | none => rfl
  | some value =>
    have hmul : (value * 1000).toNat = value.toNat * 1000 % 4294967296 := UInt32.toNat_mul ..
    have hmax : RelayServer.maxLifetime.toNat = 900000 := rfl
    simp only
    rw [Std.min_eq_if]
    split
    · rename_i hle
      rw [UInt32.le_iff_toNat_le, hmul, hmax] at hle
      omega
    · rename_i hlt
      rw [UInt32.le_iff_toNat_le, hmul, hmax] at hlt
      omega

theorem lifetimeOf_le : RelayServer.lifetimeOf request ≤ RelayServer.maxLifetime := by
  have hlifetime := @toNat_lifetimeOf request
  have hmax : RelayServer.maxLifetime.toNat = 900000 := rfl
  rw [UInt32.le_iff_toNat_le, hlifetime, hmax]
  split
  · exact Nat.min_le_left _ _
  · exact Nat.le_refl _

theorem granted_iff : (requestedTerm request ≤ (RelayServer.lifetimeOf request).toNat ∧
    (RelayServer.lifetimeOf request).toNat ≤ 2 * requestedTerm request) ↔ Granted request := by
  rw [toNat_lifetimeOf, requestedTerm, Granted]
  cases RelayServer.uint32Of request stunAttrLifetime with
  | none => simp
  | some value =>
    have hmul : (value * 1000).toNat = value.toNat * 1000 % 4294967296 := UInt32.toNat_mul ..
    have hmax : RelayServer.maxLifetime.toNat = 900000 := rfl
    simp only [Option.mem_def, Option.some.injEq, forall_eq', UInt32.le_iff_toNat_le, hmul, hmax]
    have hmod := Nat.mod_le (value.toNat * 1000) 4294967296
    by_cases hlt : value.toNat * 1000 < 4294967296
    · rw [Nat.mod_eq_of_lt hlt]
      omega
    · omega

theorem lifetimeOf_eq (h : Granted request) :
    (RelayServer.lifetimeOf request).toNat = requestedTerm request := by
  have hiff := granted_iff.mpr h
  have hle : (RelayServer.lifetimeOf request).toNat ≤ requestedTerm request := by
    rw [toNat_lifetimeOf, requestedTerm]
    cases RelayServer.uint32Of request stunAttrLifetime with
    | none => exact Nat.le_refl _
    | some value =>
      have hmod := Nat.mod_le (value.toNat * 1000) 4294967296
      simp only
      omega
  omega

end Request

/-- `Steady`, of the times alone. -/
def SteadyLease (granted : UInt32) (l : Lease) : Prop := l.expired = none →
  SameLap l.due (l.lastUse + granted.toNat) ∧
    (l.due < l.lastUse + granted.toNat →
      SameLap (l.due + granted.toNat) (l.lastUse + granted.toNat))

theorem Tracks.steady_iff (h : s.Tracks granted) : s.Steady ↔ SteadyLease granted s.toLease := by
  rw [Steady, SteadyLease, h.lifetime_eq]

theorem sound_lapsed_iff (hmax : granted ≤ RelayServer.maxLifetime) {l : Lease}
    (hl : l.Inv granted.toNat) :
    l.Sound granted.toNat (lapsed granted) ↔ SteadyLease granted l := by
  have hle : granted.toNat ≤ 900000 := UInt32.le_iff_toNat_le.mp hmax
  refine forall_congr' fun halive => ?_
  obtain ⟨huse, hnow, -, hdue⟩ := hl.alive halive
  have hfirst := clockAt_le_iff (a := l.lastUse + granted.toNat) (b := l.due) (by omega) (by omega)
  have hsecond := clockAt_le_iff (a := l.lastUse + granted.toNat) (b := l.due + granted.toNat)
    (by omega) (by omega)
  rw [lapsed_iff, lapsed_iff, hfirst]
  refine and_congr eq_comm (forall_congr' fun hearly => ?_)
  rw [SameLap, eq_comm, ← SameLap, ← hsecond]
  exact (iff_true_right (by omega)).symm

theorem tracks_create (s : RelayServer) (username : List UInt8) (request : StunMessage)
    (time : Int) : (create s username request time).Tracks (RelayServer.lifetimeOf request) :=
  ⟨_, s.binding_newBinding username request _, rfl, rfl, iff_of_true rfl rfl⟩

theorem toLease_create (s : RelayServer) (username : List UInt8) (request : StunMessage)
    (time : Int) : (create s username request time).toLease =
      Lease.start (RelayServer.lifetimeOf request).toNat time := rfl

theorem right_create_iff (s : RelayServer) (username : List UInt8) (request : StunMessage)
    (time : Int) : (create s username request time).Right (requestedTerm request) ↔
      Granted request := by
  have hlapsed : lapsed (RelayServer.lifetimeOf request)
      (time + (RelayServer.lifetimeOf request).toNat) time = true :=
    lapsed_iff.mpr (UInt32.le_refl _)
  rw [(tracks_create s username request time).right_iff, toLease_create,
    Lease.kept_start (by omega) hlapsed, ← granted_iff]
  omega

def requestOfFiftyDays : StunMessage where
  cls := .relay
  type := RelayServer.stunAllocateRequest
  length := 8
  transactionId := List.replicate 16 7
  attrs := [⟨stunAttrLifetime, .uint32 4294968⟩]

end TimedBinding

end Libjingle
