import Libjingle.Lib.Runs
import Libjingle.P2p.Port

/-! The ICE roles of a session: how a conflict is found by a port, posted to the
signaling thread by its transport, and resolved there by `BaseSession`. All ports use
`ICEPROTO_RFC5245`, and the other side is no ICE-lite agent. -/

namespace Libjingle

def TransportRole.reverse : TransportRole → TransportRole
  | .controlling => .controlled
  | .controlled => .controlling
  | .unknown => .unknown

namespace BaseSession

/-- What a `P2PTransportChannel` has of roles: the ports of the newest allocator session,
and the ports of the ones before it that are still there. -/
structure Channel where
  role : TransportRole := .unknown
  tiebreaker : UInt64 := 0
  ports : List Port := []
  formerPorts : List Port := []
  deriving DecidableEq, Repr

namespace Channel

variable (ch : Channel)

def setRole (role : TransportRole) : Channel :=
  if ch.role ≠ role then
    { ch with role := role, ports := ch.ports.map fun port => { port with role := role } }
  else ch

/-- The tiebreaker of a channel that has ports is not changed. -/
def setTiebreaker (tiebreaker : UInt64) : Channel :=
  if ch.ports ≠ [] then ch else { ch with tiebreaker := tiebreaker }

/-- A new session takes the place of the old one, whose ports may live on. -/
def addAllocatorSession : Channel :=
  { ch with ports := [], formerPorts := ch.formerPorts ++ ch.ports }

def onPortReady (port : Port) : Channel :=
  { ch with ports := ch.ports ++
    [{ port with iceProtocol := .rfc5245, role := ch.role, tiebreaker := ch.tiebreaker }] }

def onPortDestroyed (former : Bool) (index : Nat) : Channel :=
  if former then { ch with formerPorts := ch.formerPorts.eraseIdx index }
  else { ch with ports := ch.ports.eraseIdx index }

/-- All ports go with their allocator sessions. -/
def reset : Channel := { ch with ports := [], formerPorts := [] }

def allPorts : List Port := ch.ports ++ ch.formerPorts

end Channel

structure Transport where
  role : TransportRole := .unknown
  tiebreaker : UInt64 := 0
  channels : List Channel := []
  deriving DecidableEq, Repr

namespace Transport

variable (t : Transport)

/-- `SetRole_w` -/
def setRole (role : TransportRole) : Transport :=
  { t with role := role, channels := t.channels.map (·.setRole role) }

def setTiebreaker (tiebreaker : UInt64) : Transport :=
  { t with tiebreaker := tiebreaker, channels := t.channels.map (·.setTiebreaker tiebreaker) }

/-- `CreateChannel_w` of a channel that is not there yet. -/
def createChannel : Transport :=
  { t with channels := t.channels ++ [(Channel.setRole {} t.role).setTiebreaker t.tiebreaker] }

def modifyChannel (index : Nat) (f : Channel → Channel) : Transport :=
  { t with channels := t.channels.modify index f }

end Transport

end BaseSession

/-- The transports by their content names, and what the threads still have to do: the
transports that `OnRoleConflict` has yet to tell of the new role, and the ones whose
`MSG_ROLECONFLICT` is posted. Pings and refusals are all that were ever sent. A transport's
pings are outstanding until they are answered. Switches counts the times that the session
took another role. -/
structure BaseSession where
  initiator : Bool
  iceTiebreaker : UInt64
  roleSwitch : Bool := false
  transports : List (String × BaseSession.Transport) := []
  settingRole : List String := []
  conflicts : List String := []
  pings : List StunMessage := []
  outstanding : List (String × List UInt8) := []
  refusals : List (List UInt8) := []
  switches : Nat := 0
  deriving DecidableEq, Repr

namespace BaseSession

variable (s : BaseSession)

def initialRole : TransportRole := if s.initiator then .controlling else .controlled

def modifyTransport (name : String) (f : Transport → Transport) : BaseSession :=
  { s with transports := s.transports.map fun entry =>
      if entry.1 = name then (entry.1, f entry.2) else entry }

def getOrCreateTransportProxy (name : String) : BaseSession :=
  if s.transports.any (·.1 = name) then s
  else { s with transports := s.transports ++
    [(name, (Transport.setRole {} s.initialRole).setTiebreaker s.iceTiebreaker)] }

/-- A transport that is deleted takes what it has posted with it. -/
def destroyTransportProxy (name : String) : BaseSession := { s with
  transports := s.transports.filter (·.1 ≠ name)
  conflicts := s.conflicts.filter (· ≠ name)
  outstanding := s.outstanding.filter (·.1 ≠ name) }

/-- `BaseSession::OnRoleConflict`. Only the first conflict changes the role. -/
def onRoleConflict : BaseSession :=
  if s.roleSwitch then s
  else { s with
    roleSwitch := true
    settingRole := s.transports.map Prod.fst
    switches := s.switches + 1 }

def setRole : BaseSession :=
  match s.settingRole with
  | [] => s
  | name :: rest =>
    { s with settingRole := rest }.modifyTransport name (·.setRole s.initialRole.reverse)

def getPort (name : String) (channel : Nat) (index : Nat) : Option Port := do
  let entry ← s.transports.find? (·.1 = name)
  let ch ← entry.2.channels[channel]?
  ch.allPorts[index]?

/-- What a client does on the signaling thread, what the worker thread does with ports and
packets, and what the threads post to each other. -/
inductive Event
  | getOrCreateTransportProxy (name : String)
  | destroyTransportProxy (name : String)
  | createChannel (name : String)
  | destroyChannel (name : String) (channel : Nat)
  | addAllocatorSession (name : String) (channel : Nat)
  | reset (name : String) (channel : Nat)
  | portReady (name : String) (channel : Nat) (port : Port)
  | portDestroyed (name : String) (channel : Nat) (former : Bool) (index : Nat)
  | ping (name : String) (channel index : Nat) (transactionId : List UInt8) (remote : Candidate)
    (useCandidate : Bool) (retransmits localPriority : UInt32)
  | readPing (name : String) (channel index : Nat) (number : Nat) (remoteUfrag : List UInt8)
  | readRefusal (name : String) (transactionId : List UInt8)
  | requestTimeout (name : String) (transactionId : List UInt8)
  | roleConflict
  | setRole
  deriving DecidableEq, Repr

def Enabled : Event → Bool
  | .getOrCreateTransportProxy _ | .destroyTransportProxy _ | .createChannel _
  | .destroyChannel _ _ | .reset _ _ | .roleConflict => s.settingRole.isEmpty
  | _ => true

/-- A port gets a ping that the other session has sent. A ping before it is signed is
enough, as one with a wrong signature goes no further than `GetStunMessage`. -/
def readPing (port : Port) (name : String) (msg : StunMessage) (remoteUfrag : List UInt8) :
    BaseSession :=
  match port.maybeIceRoleConflict msg remoteUfrag with
  | .accepted => s
  | .signalled => { s with conflicts := s.conflicts ++ [name] }
  | .refused => { s with refusals := s.refusals ++ [msg.transactionId] }

/-- An error response is for the connection whose ping it answers, and is dropped if there
is none. -/
def readRefusal (name : String) (transactionId : List UInt8) : BaseSession :=
  if (name, transactionId) ∈ s.outstanding then
    { s with
      outstanding := s.outstanding.erase (name, transactionId)
      conflicts := s.conflicts ++ [name] }
  else s

def handle (other : BaseSession) : Event → BaseSession
  | .getOrCreateTransportProxy name => s.getOrCreateTransportProxy name
  | .destroyTransportProxy name => s.destroyTransportProxy name
  | .createChannel name => s.modifyTransport name (·.createChannel)
  | .destroyChannel name channel =>
    s.modifyTransport name fun t => { t with channels := t.channels.eraseIdx channel }
  | .addAllocatorSession name channel =>
    s.modifyTransport name (·.modifyChannel channel Channel.addAllocatorSession)
  | .reset name channel => s.modifyTransport name (·.modifyChannel channel Channel.reset)
  | .portReady name channel port =>
    s.modifyTransport name (·.modifyChannel channel (·.onPortReady port))
  | .portDestroyed name channel former index =>
    s.modifyTransport name (·.modifyChannel channel (·.onPortDestroyed former index))
  | .ping name channel index transactionId remote useCandidate retransmits localPriority =>
    match s.getPort name channel index with
    | some port => { s with
        pings := s.pings ++
          [port.unsignedPing transactionId remote useCandidate retransmits localPriority]
        outstanding := s.outstanding ++ [(name, transactionId)] }
    | none => s
  | .readPing name channel index number remoteUfrag =>
    match s.getPort name channel index, other.pings[number]? with
    | some port, some msg => s.readPing port name msg remoteUfrag
    | _, _ => s
  | .readRefusal name transactionId =>
    if transactionId ∈ other.refusals then s.readRefusal name transactionId else s
  | .requestTimeout name transactionId =>
    { s with outstanding := s.outstanding.erase (name, transactionId) }
  | .roleConflict =>
    match s.conflicts with
    | [] => s
    | _ :: rest => { s with conflicts := rest }.onRoleConflict
  | .setRole => s.setRole

/-- Pings and refusals of the other session arrive in any order, late, more than once or
not at all. -/
def step (s other : BaseSession) (e : Event) : BaseSession :=
  if s.Enabled e then s.handle other e else s

end BaseSession

namespace Port

theorem attrs_foldl_addAttribute {attrs : List StunAttribute} {m : StunMessage}
    (h : ∀ attr ∈ attrs, attr.value.valueType = m.cls.getAttributeValueType attr.type) :
    (attrs.foldl (fun request attr => (request.addAttribute attr).getD request) m).attrs =
      m.attrs ++ attrs := by
  induction attrs generalizing m with
  | nil => exact (List.append_nil _).symm
  | cons attr rest ih =>
    let added : StunMessage := { m with
      attrs := m.attrs ++ [attr]
      length := m.length + UInt16.ofNat (stunPaddedLength attr.value.length + 4) }
    have hadd : m.addAttribute attr = some added :=
      if_neg (not_not.mpr (h attr List.mem_cons_self))
    rw [List.foldl_cons, hadd, Option.getD_some]
    have hrest := ih (m := added) fun attr hattr => h attr (List.mem_cons_of_mem _ hattr)
    exact hrest.trans (List.append_assoc _ _ _)

variable {port sender : Port} {remote : Candidate} {useCandidate : Bool}
  {retransmits localPriority : UInt32}

theorem valueType_roleAttributes : ∀ attr ∈ port.roleAttributes useCandidate,
    attr.value.valueType = StunMessageClass.ice.getAttributeValueType attr.type := by
  rw [roleAttributes]
  cases port.role <;> cases useCandidate <;> simp <;> first | rfl | exact ⟨rfl, rfl⟩

theorem valueType_pingAttributes :
    ∀ attr ∈ port.pingAttributes remote useCandidate retransmits localPriority,
      attr.value.valueType = StunMessageClass.ice.getAttributeValueType attr.type := by
  intro attr hattr
  rw [pingAttributes] at hattr
  rcases List.mem_append.mp hattr with hattr | hattr
  · rcases List.mem_cons.mp hattr with rfl | hattr
    · rfl
    · split at hattr
      · rw [List.mem_singleton.mp hattr]
        rfl
      · exact absurd hattr List.not_mem_nil
  · split at hattr
    · rcases List.mem_append.mp hattr with hattr | hattr
      · exact valueType_roleAttributes attr hattr
      · rw [List.mem_singleton.mp hattr]
        rfl
    · exact absurd hattr List.not_mem_nil

theorem attrs_unsignedPing (transactionId : List UInt8) :
    (port.unsignedPing transactionId remote useCandidate retransmits localPriority).attrs =
      port.pingAttributes remote useCandidate retransmits localPriority :=
  attrs_foldl_addAttribute valueType_pingAttributes

theorem statedRole_unsignedPing (hprotocol : sender.iceProtocol = .rfc5245)
    (transactionId : List UInt8) {type : UInt16} {role : TransportRole}
    (htype : type = stunAttrIceControlling ∧ role = .controlling ∨
      type = stunAttrIceControlled ∧ role = .controlled) :
    statedRole (sender.unsignedPing transactionId remote useCandidate retransmits localPriority)
      type = if sender.role = role then some sender.tiebreaker else none := by
  rw [statedRole, StunMessage.getUInt64, StunMessage.getAttribute, attrs_unsignedPing, pingAttributes, hprotocol,
    roleAttributes]
  rcases htype with ⟨rfl, rfl⟩ | ⟨rfl, rfl⟩ <;> cases sender.role <;>
    cases sender.sendRetransmitCountAttribute <;> cases useCandidate <;> rfl

theorem maybeIceRoleConflict_unsignedPing (hprotocol : sender.iceProtocol = .rfc5245)
    (hrole : sender.role ≠ .unknown) (htiebreaker : sender.tiebreaker ≠ port.tiebreaker)
    (transactionId remoteUfrag : List UInt8) :
    port.maybeIceRoleConflict
      (sender.unsignedPing transactionId remote useCandidate retransmits localPriority) remoteUfrag =
      port.compareRole sender.role sender.tiebreaker := by
  rw [maybeIceRoleConflict, statedRole_unsignedPing hprotocol transactionId (.inl ⟨rfl, rfl⟩),
    statedRole_unsignedPing hprotocol transactionId (.inr ⟨rfl, rfl⟩)]
  cases hsender : sender.role with
  | controlling => exact if_neg fun h => htiebreaker h.2.2
  | controlled => rfl
  | unknown => exact absurd hsender hrole

end Port

end Libjingle
