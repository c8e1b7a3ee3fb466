import Libjingle.P2p.Port
import Libjingle.P2p.Connection
import Libjingle.Turn.Connection

/-! `P2PTransportChannel`: the ports of the newest allocator session, the candidates of the
other side that it remembers for the ports to come, and the connections it has made between
the two. What the connections do by themselves and the order they are sorted in are left
out. -/

namespace Libjingle

def ascii (text : String) : List UInt8 := text.toList.map fun c => UInt8.ofNat c.toNat

def localPortType : List UInt8 := ascii "local"
def stunPortType : List UInt8 := ascii "stun"
def relayPortType : List UInt8 := ascii "relay"

/-- `ProtoToString` -/
def ProtocolType.name : ProtocolType → List UInt8
  | udp => ascii "udp"
  | tcp => ascii "tcp"
  | ssltcp => ascii "ssltcp"

namespace IPAddress

def family : IPAddress → Nat
  | unspec => 0
  | inet _ => 2
  | inet6 _ => 10

/-- `IPIsPrivate` of an IPv6 address: it is link-local or the loopback address. -/
def isPrivateV6 : IPAddress → Bool
  | inet6 addr => addr.word0 >>> 16 = 0xFE80 || addr = ⟨0, 0, 0, 1⟩
  | _ => false

/-- `IPAddressPrecedence` -/
def precedence : IPAddress → UInt32
  | unspec => 0
  | inet _ => 30
  | inet6 addr =>
    if addr = ⟨0, 0, 0, 1⟩ then 60
    else if (addr.word0 >>> 24) &&& 0xFE = 0xFC then 50
    else if addr.word0 = 0 ∧ addr.word1 = 0 ∧ addr.word2 = 0xFFFF then 30
    else if addr.word0 >>> 16 = 0x2002 then 20
    else if addr.word0 = 0x20010000 then 10
    else if addr.word0 = 0 ∧ addr.word1 = 0 ∧ addr.word2 = 0 then 1
    else if addr.word0 >>> 24 = 0xFE ∧ (addr.word0 >>> 16) &&& 0xC0 = 0xC0 then 1
    else if addr.word0 >>> 16 = 0x3FFE then 1
    else 40

end IPAddress

def iceTypePreferenceSrflx : UInt32 := 100

/-- `GetPriority` -/
def Candidate.getPriority (c : Candidate) (typePreference : UInt32) : UInt32 :=
  typePreference <<< 24 ||| c.address.ip.precedence <<< 8 |||
    UInt32.ofInt (256 - c.component)

inductive CandidateOrigin
  | thisPort
  | otherPort
  | message
  deriving DecidableEq, Repr

/-- The subclasses of `Port`. A TCP port may take incoming connections only. -/
inductive PortKind
  | udp
  | tcp (incomingOnly : Bool)
  | relay
  | turn
  deriving DecidableEq, Repr

structure LocalPort extends Port where
  kind : PortKind
  type : List UInt8
  sharedSocket : Bool := false
  ip : IPAddress
  networkName : List UInt8 := []
  generation : UInt32 := 0
  candidates : List Candidate := []
  deriving DecidableEq, Repr

namespace LocalPort

variable (port : LocalPort)

/-- Sockets have one address family, and link-local IPv6 ports only reach each other. -/
def isCompatibleAddress (addr : SocketAddress) : Bool :=
  if addr.ip.family ≠ port.ip.family then false
  else if port.ip.family = 10 ∧ port.ip.isPrivateV6 ≠ addr.ip.isPrivateV6 then false
  else true

/-- `CreateConnection` of each subclass: the index of the local candidate, or none where it
gives `NULL`. -/
def createConnection (address : Candidate) (origin : CandidateOrigin) : Option Nat :=
  match port.kind with
  | .udp =>
    if address.protocol ≠ ProtocolType.udp.name then none
    else if port.isCompatibleAddress address.address = false then none
    else if port.sharedSocket ∧ port.candidates.head?.map (·.type) ≠ some localPortType then none
    else some 0
  | .tcp incomingOnly =>
    if address.protocol ≠ ProtocolType.tcp.name ∧ address.protocol ≠ ProtocolType.ssltcp.name then
      none
    else if origin = .otherPort then none
    else if incomingOnly ∧ origin = .message then none
    else if address.protocol = ProtocolType.ssltcp.name ∧ origin = .thisPort then none
    else if port.isCompatibleAddress address.address = false then none
    else some 0
  | .relay =>
    if address.protocol ≠ ProtocolType.udp.name ∧ origin ≠ .thisPort then none
    else if address.type = port.type then none
    else if port.isCompatibleAddress address.address = false then none
    else some ((port.candidates.findIdx? (·.protocol = address.protocol)).getD 0)
  | .turn =>
    if address.protocol ≠ ProtocolType.udp.name then none
    else if port.isCompatibleAddress address.address = false then none
    else some 0

end LocalPort

/-- A candidate with the port it was heard of on, if it was not signaled. -/
structure RemoteCandidate (P : Type) where
  candidate : Candidate
  originPort : Option P
  deriving DecidableEq, Repr

structure ChannelConnection (P : Type) where
  port : P
  localIndex : Nat
  remoteCandidate : Candidate
  readState : Connection.ReadState
  remoteIceMode : IceMode
  deriving DecidableEq, Repr

/-- The values of `filter()`. -/
def portAllocatorFilterAllowNone : UInt32 := 0
def portAllocatorFilterAllowTurn : UInt32 := 1

/-- A channel whose ports are pointers into `heap`. The ports in `live` have been made ready
and are not yet destroyed. -/
structure P2PTransportChannel (P : Type) where
  component : Int
  filter : UInt32
  incomingOnly : Bool
  heap : P → LocalPort
  live : List P
  ports : List P
  connections : List (ChannelConnection P)
  remoteCandidates : List (RemoteCandidate P)
  iceUfrag : List UInt8
  icePwd : List UInt8
  remoteIceUfrag : List UInt8
  remoteIcePwd : List UInt8
  protocolType : TransportProtocol
  remoteIceMode : IceMode
  role : TransportRole
  tiebreaker : UInt64
  remoteCandidateGeneration : UInt32
  waitingForSignaling : Bool
  allocatorSessions : Nat

namespace P2PTransportChannel

variable {P : Type} [DecidableEq P]

def start (component : Int) (filter : UInt32) (heap : P → LocalPort) : P2PTransportChannel P where
  component := component
  filter := filter
  incomingOnly := false
  heap := heap
  live := []
  ports := []
  connections := []
  remoteCandidates := []
  iceUfrag := []
  icePwd := []
  remoteIceUfrag := []
  remoteIcePwd := []
  protocolType := .google
  remoteIceMode := .full
  role := .unknown
  tiebreaker := 0
  remoteCandidateGeneration := 0
  waitingForSignaling := false
  allocatorSessions := 0

variable (ch : P2PTransportChannel P)

/-- A change of the ports in `ports`. -/
def modifyPorts (f : LocalPort → LocalPort) : P2PTransportChannel P :=
  { ch with heap := fun p => if p ∈ ch.ports then f (ch.heap p) else ch.heap p }

def setRole (role : TransportRole) : P2PTransportChannel P :=
  if ch.role ≠ role then
    { ch with role := role }.modifyPorts fun port => { port with role := role }
  else ch

/-- Refused where ports have been allocated. -/
def setTiebreaker (tiebreaker : UInt64) : P2PTransportChannel P :=
  if ch.ports ≠ [] then ch else { ch with tiebreaker := tiebreaker }

def setIceProtocolType (type : TransportProtocol) : P2PTransportChannel P :=
  { ch with protocolType := type }.modifyPorts fun port => { port with iceProtocol := type }

def allocate : P2PTransportChannel P := { ch with waitingForSignaling := true }

def setIceCredentials (iceUfrag icePwd : List UInt8) : P2PTransportChannel P :=
  let iceRestart := ch.iceUfrag ≠ [] ∧ ch.icePwd ≠ [] ∧
    (ch.iceUfrag ≠ iceUfrag ∨ ch.icePwd ≠ icePwd)
  let ch := { ch with iceUfrag := iceUfrag, icePwd := icePwd }
  if iceRestart then ch.allocate else ch

def setRemoteIceCredentials (iceUfrag icePwd : List UInt8) : P2PTransportChannel P :=
  let iceRestart := ch.remoteIceUfrag ≠ [] ∧ ch.remoteIcePwd ≠ [] ∧
    (ch.remoteIceUfrag ≠ iceUfrag ∨ ch.remoteIcePwd ≠ icePwd)
  let ch := { ch with remoteIceUfrag := iceUfrag, remoteIcePwd := icePwd }
  if iceRestart then { ch with remoteCandidateGeneration := ch.remoteCandidateGeneration + 1 }
  else ch

def setRemoteIceMode (mode : IceMode) : P2PTransportChannel P := { ch with remoteIceMode := mode }

def connect : P2PTransportChannel P :=
  if ch.iceUfrag = [] ∨ ch.icePwd = [] then ch else ch.allocate

/-- The ports of the sessions before the new one are left out of `ports`, but live on. -/
def addAllocatorSession : P2PTransportChannel P :=
  { ch with allocatorSessions := ch.allocatorSessions + 1, ports := [] }

def onSignalingReady : P2PTransportChannel P :=
  if ch.waitingForSignaling then { ch with waitingForSignaling := false }.addAllocatorSession
  else ch

/-- The sessions are deleted together with their ports, and these with their connections. -/
def reset (connectRequested : Bool) : P2PTransportChannel P :=
  let ch := { ch with
    allocatorSessions := 0
    live := []
    ports := []
    connections := []
    remoteCandidates := []
    waitingForSignaling := false }
  if connectRequested then ch.allocate else ch

/-- The port's map is searched by the order of the addresses. -/
def getConnection (p : P) (addr : SocketAddress) : Option (ChannelConnection P) :=
  ch.connections.find? fun c =>
    c.port = p && !c.remoteCandidate.address.less addr && !addr.less c.remoteCandidate.address

/-- `ReceivedPing` of the connection of a port to an address. -/
def receivedPing (p : P) (addr : SocketAddress) : P2PTransportChannel P :=
  { ch with connections := ch.connections.map fun c =>
      if c.port = p && !c.remoteCandidate.address.less addr &&
          !addr.less c.remoteCandidate.address then
        { c with readState := .readable }
      else c }

def getOrigin (p : P) : Option P → CandidateOrigin
  | none => .message
  | some origin => if p = origin then .thisPort else .otherPort

def passesFilter (port : LocalPort) (remote : Candidate) : Bool :=
  !(ch.filter = portAllocatorFilterAllowTurn && port.type ≠ relayPortType &&
    remote.type ≠ relayPortType)

/-- `CreateConnection`, which does not fail where an equivalent candidate has a connection. -/
def createConnection (p : P) (remote : Candidate) (originPort : Option P) (readable : Bool) :
    P2PTransportChannel P × Bool :=
  if ch.passesFilter (ch.heap p) remote = false then (ch, false)
  else match ch.getConnection p remote.address with
    | some connection =>
      if remote.isEquivalent connection.remoteCandidate = false then (ch, false)
      else (if readable then ch.receivedPing p remote.address else ch, true)
    | none =>
      if getOrigin p originPort = .message ∧ ch.incomingOnly then (ch, false)
      else match (ch.heap p).createConnection remote (getOrigin p originPort) with
        | none => (ch, false)
        | some index =>
          let ch := { ch with connections := ch.connections ++
            [⟨p, index, remote, .readInit, ch.remoteIceMode⟩] }
          (if readable then ch.receivedPing p remote.address else ch, true)

/-- Outside of `ICEPROTO_GOOGLE` the candidate is asserted to state no other generation. -/
def getRemoteCandidateGeneration (candidate : Candidate) : UInt32 :=
  if ch.protocolType = .google then candidate.generation else ch.remoteCandidateGeneration

def rememberRemoteCandidate (remote : Candidate) (originPort : Option P) :
    P2PTransportChannel P :=
  let kept := ch.remoteCandidates.filter fun c => !(c.candidate.generation < remote.generation)
  if kept.any fun c => c.candidate.isEquivalent remote then { ch with remoteCandidates := kept }
  else { ch with remoteCandidates := kept ++ [⟨remote, originPort⟩] }

def completed (remote : Candidate) : Candidate :=
  { remote with
    generation := ch.getRemoteCandidateGeneration remote
    username := if remote.username = [] then ch.remoteIceUfrag else remote.username
    password := if remote.password = [] then ch.remoteIcePwd else remote.password }

/-- One attempt of `CreateConnections`, with the record of whether the origin port got its
connection. -/
def tryPort (remote : Candidate) (originPort : Option P) (readable : Bool)
    (s : P2PTransportChannel P × Bool) (p : P) : P2PTransportChannel P × Bool :=
  let (ch, ok) := s.1.createConnection p remote originPort readable
  (ch, s.2 || (ok && some p = originPort))

/-- The ports that `CreateConnections` goes through: the origin port comes last where it is not
one of `ports`. -/
def candidatePorts (originPort : Option P) : List P :=
  ch.ports.reverse ++ originPort.toList.filter (· ∉ ch.ports)

def createConnections (remote : Candidate) (originPort : Option P) (readable : Bool) :
    P2PTransportChannel P × Bool :=
  let remote := ch.completed remote
  let (ch, created) := (ch.candidatePorts originPort).foldl
    (tryPort remote originPort readable) (ch, false)
  (ch.rememberRemoteCandidate remote originPort, created)

/-- `OnCandidate`, for a candidate that was signaled. -/
def onCandidate (candidate : Candidate) : P2PTransportChannel P :=
  (ch.createConnections candidate none false).1

def addPort (p : P) (port : LocalPort) : P2PTransportChannel P :=
  let port := { port with
    iceProtocol := ch.protocolType
    role := ch.role
    tiebreaker := ch.tiebreaker }
  { ch with
    heap := fun q => if q = p then port else ch.heap q
    live := ch.live ++ [p]
    ports := ch.ports ++ [p] }

def onPortReady (p : P) (port : LocalPort) : P2PTransportChannel P :=
  (ch.addPort p port).remoteCandidates.foldl
    (fun ch c => (ch.createConnection p c.candidate c.originPort false).1) (ch.addPort p port)

def onPortDestroyed (p : P) : P2PTransportChannel P :=
  { ch with live := ch.live.erase p, ports := ch.ports.erase p }

def onConnectionDestroyed (connection : ChannelConnection P) : P2PTransportChannel P :=
  { ch with connections := ch.connections.erase connection }

/-- What `OnUnknownAddress` is told of a binding request. Where it makes up a candidate, `id`
is the random text that names it. -/
structure Request (P : Type) where
  port : P
  address : SocketAddress
  proto : ProtocolType
  remoteUsername : List UInt8
  portMuxed : Bool
  id : List UInt8
  deriving DecidableEq, Repr

inductive Answer
  | success
  | error (error : StunError)
  deriving DecidableEq, Repr

/-- What becomes of a request, with whether the assertion fails that a connection was made. -/
structure Outcome (P : Type) where
  channel : P2PTransportChannel P
  answers : List Answer
  asserted : Bool

/-- The remote candidates do not share one username. -/
def ufragPerPort : Bool :=
  ch.remoteCandidates.any fun c =>
    ch.remoteCandidates.head?.any fun first => c.candidate.username ≠ first.candidate.username

def knowsUsername (username : List UInt8) : Bool :=
  ch.remoteCandidates.any fun c => c.candidate.username = username

def remotePassword (username : List UInt8) : List UInt8 :=
  ((ch.remoteCandidates.filter (·.candidate.username = username)).getLast?.map
    (·.candidate.password)).getD []

/-- The remembered candidate that a request is taken to come from: any one with the username
where each port has its own, else one with the address. -/
def matching (r : Request P) : Option Candidate :=
  (ch.remoteCandidates.find? fun c =>
    c.candidate.username = r.remoteUsername && (ch.ufragPerPort ||
      c.candidate.address.equal r.address && c.candidate.protocol = r.proto.name)).map
    (·.candidate)

/-- `computeCrc32` makes the foundation out of the name. -/
def newCandidate (computeCrc32 : List UInt8 → UInt32) (r : Request P) : Candidate :=
  let port := ch.heap r.port
  let candidate : Candidate :=
    { id := r.id
      component := ch.component
      protocol := r.proto.name
      address := r.address
      priority := 0
      username := r.remoteUsername
      password := ch.remotePassword r.remoteUsername
      type := if port.type = relayPortType ∨ port.sharedSocket then stunPortType else port.type
      networkName := port.networkName
      generation := 0
      foundation := ascii (toString (computeCrc32 r.id).toNat) }
  { candidate with priority := candidate.getPriority iceTypePreferenceSrflx }

def requestCandidate (computeCrc32 : List UInt8 → UInt32) (r : Request P) : Candidate :=
  match ch.matching r with
  | some candidate =>
    if ch.ufragPerPort then { candidate with address := r.address } else candidate
  | none => ch.newCandidate computeCrc32 r

def onUnknownAddress (computeCrc32 : List UInt8 → UInt32) (r : Request P) : Outcome P :=
  if ch.knowsUsername r.remoteUsername = false then
    ⟨ch, if r.portMuxed then [] else [.error .staleCredentials], false⟩
  else
    let (ch, created) := ch.createConnections (ch.requestCandidate computeCrc32 r) r.port true
    if created then ⟨ch.receivedPing r.port r.address, [.success], false⟩
    else ⟨ch, [.error .serverError], true⟩

inductive Event (P : Type)
  | setRole (role : TransportRole)
  | setTiebreaker (tiebreaker : UInt64)
  | setIceProtocolType (type : TransportProtocol)
  | setIceCredentials (iceUfrag icePwd : List UInt8)
  | setRemoteIceCredentials (iceUfrag icePwd : List UInt8)
  | setRemoteIceMode (mode : IceMode)
  | connect
  | signalingReady
  | portReady (p : P) (port : LocalPort)
  | candidate (candidate : Candidate)
  | unknownAddress (request : Request P)
  | portDestroyed (p : P)
  | connectionDestroyed (connection : ChannelConnection P)
  | reset (connectRequested : Bool)

/-- A port is made ready once and is destroyed when it has no connections. It reports requests
from addresses that it has no connection to. -/
def Enabled : Event P → Bool
  | .portReady p _ => p ∉ ch.live
  | .unknownAddress r => r.port ∈ ch.live && (ch.getConnection r.port r.address).isNone
  | .portDestroyed p => p ∈ ch.live && ch.connections.all (·.port ≠ p)
  | .connectionDestroyed c => c ∈ ch.connections
  | _ => true

def handle (computeCrc32 : List UInt8 → UInt32) : Event P → P2PTransportChannel P
  | .setRole role => ch.setRole role
  | .setTiebreaker tiebreaker => ch.setTiebreaker tiebreaker
  | .setIceProtocolType type => ch.setIceProtocolType type
  | .setIceCredentials iceUfrag icePwd => ch.setIceCredentials iceUfrag icePwd
  | .setRemoteIceCredentials iceUfrag icePwd => ch.setRemoteIceCredentials iceUfrag icePwd
  | .setRemoteIceMode mode => ch.setRemoteIceMode mode
  | .connect => ch.connect
  | .signalingReady => ch.onSignalingReady
  | .portReady p port => ch.onPortReady p port
  | .candidate candidate => ch.onCandidate candidate
  | .unknownAddress request => (ch.onUnknownAddress computeCrc32 request).channel
  | .portDestroyed p => ch.onPortDestroyed p
  | .connectionDestroyed connection => ch.onConnectionDestroyed connection
  | .reset connectRequested => ch.reset connectRequested

/-- What cannot happen changes nothing. -/
def step (computeCrc32 : List UInt8 → UInt32) (e : Event P) : P2PTransportChannel P :=
  if ch.Enabled e then ch.handle computeCrc32 e else ch

end P2PTransportChannel

end Libjingle
