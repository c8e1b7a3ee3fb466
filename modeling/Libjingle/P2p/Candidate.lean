import Libjingle.Base.SocketAddress

/-! Candidates, the credentials of a transport description, and the roles and
protocols of the two ends. Strings are their bytes. -/

namespace Libjingle

inductive TransportProtocol
  | google
  | hybrid
  | rfc5245
  deriving DecidableEq, Repr

inductive TransportRole
  | controlling
  | controlled
  | unknown
  deriving DecidableEq, Repr

inductive IceMode
  | full
  | lite
  deriving DecidableEq, Repr

structure TransportDescription where
  iceUfrag : List UInt8
  icePwd : List UInt8
  deriving DecidableEq, Repr

structure Candidate where
  id : List UInt8 := []
  component : Int := 0
  protocol : List UInt8 := []
  address : SocketAddress := .nil
  priority : UInt32 := 0
  username : List UInt8 := []
  password : List UInt8 := []
  type : List UInt8 := []
  networkName : List UInt8 := []
  generation : UInt32 := 0
  foundation : List UInt8 := []
  relatedAddress : SocketAddress := .nil
  deriving DecidableEq, Repr

/-- `IsEquivalent`, which leaves out the priority and the network name. -/
def Candidate.isEquivalent (a c : Candidate) : Bool :=
  a.id = c.id && a.component = c.component && a.protocol = c.protocol &&
    a.address.equal c.address && a.username = c.username && a.password = c.password &&
    a.type = c.type && a.generation = c.generation && a.foundation = c.foundation &&
    a.relatedAddress.equal c.relatedAddress

end Libjingle
