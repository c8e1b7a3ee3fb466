import Libjingle.P2p.Candidate

/-! `cricket::Connection`: a candidate of a port together with one of the other side,
and the priority of the pair. -/

namespace Libjingle

namespace Connection

inductive ReadState
  | readInit
  | readable
  | readTimeout
  deriving DecidableEq, Repr

inductive WriteState
  | writable
  | writeUnreliable
  | writeInit
  | writeTimeout
  deriving DecidableEq, Repr

/-- The value of the enumerator; better states have lower values. -/
def WriteState.toNat : WriteState → Nat
  | writable => 0
  | writeUnreliable => 1
  | writeInit => 2
  | writeTimeout => 3

theorem WriteState.toNat_inj {x y : WriteState} : x.toNat = y.toNat ↔ x = y := by
  cases x <;> cases y <;> simp [toNat]

end Connection

/-- A connection whose times are of type `T`, with the role and the generation of its
port. -/
structure Connection (T : Type) where
  role : TransportRole
  generation : UInt32
  localCandidate : Candidate
  remoteCandidate : Candidate
  readState : Connection.ReadState
  writeState : Connection.WriteState
  connected : Bool
  pruned : Bool
  rtt : UInt32
  lastPingSent : T
  lastPingReceived : T
  lastDataReceived : T
  pingsSinceLastResponse : List T
  deriving DecidableEq, Repr

namespace Connection

def defaultRtt : UInt32 := 3000

/-- The constructor, where `zero` is the time of what did not happen yet. -/
def create {T : Type} (zero : T) (role : TransportRole) (generation : UInt32)
    (candidate remote : Candidate) : Connection T :=
  ⟨role, generation, candidate, remote, .readInit, .writeInit, true, false, defaultRtt, zero,
    zero, zero, []⟩

/-- The priority for the priorities of the controlling and of the controlled side. All but
the first term is computed in 32 bits. -/
def pairPriority (g d : UInt32) : UInt64 :=
  ((if d < g then d else g).toUInt64 <<< 32) +
    (2 * (if g < d then d else g) + if d < g then 1 else 0).toUInt64

def priority {T : Type} (c : Connection T) : UInt64 :=
  match c.role with
  | .unknown => 0
  | .controlling => pairPriority c.localCandidate.priority c.remoteCandidate.priority
  | .controlled => pairPriority c.remoteCandidate.priority c.localCandidate.priority

end Connection

end Libjingle
