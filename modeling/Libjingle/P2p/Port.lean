import Libjingle.P2p.Candidate
import Libjingle.Stun.Integrity

/-! A port's side of the connectivity checks: the username it signs its pings
with, the checks a packet has to pass, and the answers to a request. -/

namespace Libjingle

open StunMessage

def stunBindingRequest : UInt16 := 0x0001
def stunBindingIndication : UInt16 := 0x0011
def stunBindingResponse : UInt16 := 0x0101
def stunBindingErrorResponse : UInt16 := 0x0111

/-- The error codes of the answers. -/
inductive StunError
  | badRequest
  | unauthorized
  | unknownAttribute
  | staleCredentials
  | roleConflict
  | serverError
  | globalFailure
  deriving DecidableEq, Repr

namespace StunError

def code : StunError → Nat
  | badRequest => 400
  | unauthorized => 401
  | unknownAttribute => 420
  | staleCredentials => 430
  | roleConflict => 487
  | serverError => 500
  | globalFailure => 600

def reason : StunError → List Char
  | badRequest => "Bad Request".toList
  | unauthorized => "Unauthorized".toList
  | staleCredentials => "Stale Credentials".toList
  | roleConflict => "Role Conflict".toList
  | serverError => "Server Error".toList
  | unknownAttribute | globalFailure => []

end StunError

def base64Table : List UInt8 :=
  "ABCDEFGHIJKLMNOPQRSTUVWXYZabcdefghijklmnopqrstuvwxyz0123456789+/".toList.map
    fun c => UInt8.ofNat c.toNat

def getNextBase64Char (ch : UInt8) : Option UInt8 :=
  if ch ∈ base64Table then base64Table[(base64Table.idxOf ch + 1) % base64Table.length]?
  else none

/-- None where the assertions fail that there is a last character and that it is
in the table. -/
def getRtcpUfragFromRtpUfrag (rtpUfrag : List UInt8) : Option (List UInt8) := do
  let last ← rtpUfrag.getLast?
  let next ← getNextBase64Char last
  some (rtpUfrag.dropLast ++ [next])

def iceCandidateComponentRtcp : Int := 2

structure Port where
  component : Int := 1
  iceUsernameFragment : List UInt8
  password : List UInt8
  iceProtocol : TransportProtocol := .google
  role : TransportRole := .unknown
  tiebreaker : UInt64 := 0
  sendRetransmitCountAttribute : Bool := false
  deriving DecidableEq, Repr

namespace Port

variable (port : Port)

def usernameFragment : List UInt8 :=
  if port.iceProtocol = .google ∧ port.component = iceCandidateComponentRtcp then
    (getRtcpUfragFromRtpUfrag port.iceUsernameFragment).getD port.iceUsernameFragment
  else port.iceUsernameFragment

def colon : UInt8 := 58

def createStunUsername (remoteUsername : List UInt8) : List UInt8 :=
  remoteUsername ++ (if port.iceProtocol = .rfc5245 then [colon] else []) ++ port.usernameFragment

def parseStunUsername (msg : StunMessage) : Option (List UInt8 × List UInt8) :=
  match msg.getByteString stunAttrUsername with
  | some ⟨_, .byteString username⟩ =>
    match port.iceProtocol with
    | .rfc5245 =>
      if colon ∈ username then
        some (username.take (username.idxOf colon), username.drop (username.idxOf colon + 1))
      else none
    | .google =>
      if username.length < port.usernameFragment.length then none
      else
        some (username.take port.usernameFragment.length, username.drop port.usernameFragment.length)
    | .hybrid => some ([], [])
  | _ => none

/-- What `SendBindingErrorResponse` sends. -/
def bindingErrorResponse (computeHmac : List UInt8 → List UInt8 → List UInt8)
    (computeCrc32 : List UInt8 → UInt32) (request : StunMessage) (error : StunError) : StunMessage :=
  let (eclass, number) := match port.iceProtocol with
    | .rfc5245 => (error.code / 100, error.code % 100)
    | .google => (error.code / 256, error.code % 256)
    | .hybrid => (0, 0)
  let reason := error.reason.map fun c => UInt8.ofNat c.toNat
  let response := { StunMessage.new .stun with
    type := stunBindingErrorResponse
    transactionId := request.transactionId }
  let response := (response.addAttribute
    ⟨stunAttrErrorCode, .errorCode (UInt8.ofNat eclass) (UInt8.ofNat number) reason⟩).getD response
  match port.iceProtocol with
  | .rfc5245 =>
    let response := if error ≠ .badRequest ∧ error ≠ .unauthorized then
      (response.addMessageIntegrity computeHmac port.password).1 else response
    (response.addFingerprint computeCrc32).1
  | .google =>
    match request.getByteString stunAttrUsername with
    | some username => (response.addAttribute username).getD response
    | none => response
  | .hybrid => response

/-- What `SendBindingResponse` sends to the address a request came from. -/
def bindingResponse (computeHmac : List UInt8 → List UInt8 → List UInt8)
    (computeCrc32 : List UInt8 → UInt32) (request : StunMessage) (addr : SocketAddress) :
    StunMessage :=
  let response := { StunMessage.new .stun with
    type := stunBindingResponse
    transactionId := request.transactionId }
  let response := match request.getUInt32 stunAttrRetransmitCount with
    | some count => (response.addAttribute count).getD response
    | none => response
  match port.iceProtocol with
  | .rfc5245 =>
    let response := (response.addAttribute ⟨stunAttrXorMappedAddress, .xorAddress addr⟩).getD response
    ((response.addMessageIntegrity computeHmac port.password).1.addFingerprint computeCrc32).1
  | .google =>
    let response := (response.addAttribute ⟨stunAttrMappedAddress, .address addr⟩).getD response
    match request.getByteString stunAttrUsername with
    | some username => (response.addAttribute username).getD response
    | none => response
  | .hybrid => response

/-- How `GetStunMessage` ends: the packet is no STUN message, the message was
dealt with, possibly by an error response, or it is handed to the caller. -/
inductive StunCheck
  | notStun
  | handled (error : Option (StunMessage × StunError))
  | message (msg : StunMessage) (username : List UInt8)
  deriving DecidableEq, Repr

def checkStunMessage (computeHmac : List UInt8 → List UInt8 → List UInt8) (data : List UInt8)
    (msg : StunMessage) : StunCheck :=
  if msg.type = stunBindingRequest then
    if msg.getByteString stunAttrUsername = none ∨ (port.iceProtocol = .rfc5245 ∧
        msg.getByteString stunAttrMessageIntegrity = none) then
      .handled (some (msg, .badRequest))
    else match port.parseStunUsername msg with
      | none => .handled (some (msg, .unauthorized))
      | some (localUfrag, remoteUfrag) =>
        if localUfrag ≠ port.usernameFragment then .handled (some (msg, .unauthorized))
        else if port.iceProtocol = .rfc5245 ∧
            validateMessageIntegrity computeHmac data port.password = false then
          .handled (some (msg, .unauthorized))
        else .message msg remoteUfrag
  else if msg.type = stunBindingResponse then .message msg []
  else if msg.type = stunBindingErrorResponse then
    if msg.getErrorCode = none then .handled none else .message msg []
  else if msg.type = stunBindingIndication then .message msg []
  else .handled none

def getStunMessage (computeHmac : List UInt8 → List UInt8 → List UInt8)
    (computeCrc32 : List UInt8 → UInt32) (data : List UInt8) : StunCheck :=
  if port.iceProtocol = .rfc5245 ∧ validateFingerprint computeCrc32 data = false then .notStun
  else match StunMessage.read .ice data with
    | none => .notStun
    | some msg => port.checkStunMessage computeHmac data msg

/-- How a request fares in `MaybeIceRoleConflict`. The two with no complaint are
told apart by the signal. -/
inductive RoleCheck
  | accepted
  | signalled
  | refused
  deriving DecidableEq, Repr

def statedRole (msg : StunMessage) (type : UInt16) : Option UInt64 :=
  match msg.getUInt64 type with
  | some ⟨_, .uint64 tiebreaker⟩ => some tiebreaker
  | _ => none

/-- Comparison of the stated role with the port's own. -/
def compareRole (remoteRole : TransportRole) (remoteTiebreaker : UInt64) : RoleCheck :=
  match port.role with
  | .controlling =>
    if remoteRole = .controlling then
      if remoteTiebreaker ≥ port.tiebreaker then .signalled else .refused
    else .accepted
  | .controlled =>
    if remoteRole = .controlled then
      if remoteTiebreaker < port.tiebreaker then .signalled else .refused
    else .accepted
  | .unknown => .accepted

def maybeIceRoleConflict (msg : StunMessage) (remoteUfrag : List UInt8) : RoleCheck :=
  let (remoteRole, remoteTiebreaker) := match statedRole msg stunAttrIceControlling with
    | some tiebreaker => (TransportRole.controlling, tiebreaker)
    | none => (.unknown, 0)
  if remoteRole = .controlling ∧ port.usernameFragment = remoteUfrag ∧
      remoteTiebreaker = port.tiebreaker then .accepted
  else match statedRole msg stunAttrIceControlled with
    | some tiebreaker => port.compareRole .controlled tiebreaker
    | none => port.compareRole remoteRole remoteTiebreaker

def iceTypePreferencePrflx : UInt32 := 110

/-- The role attributes of a ping. A role that is not known fails an assertion and
adds none. -/
def roleAttributes (useCandidate : Bool) : List StunAttribute :=
  match port.role with
  | .controlling =>
    ⟨stunAttrIceControlling, .uint64 port.tiebreaker⟩ ::
      if useCandidate then [⟨stunAttrUseCandidate, .byteString []⟩] else []
  | .controlled => [⟨stunAttrIceControlled, .uint64 port.tiebreaker⟩]
  | .unknown => []

/-- The attributes that `ConnectionRequest::Prepare` adds to a ping before it is
signed. -/
def pingAttributes (remote : Candidate) (useCandidate : Bool) (retransmits localPriority : UInt32) :
    List StunAttribute :=
  ⟨stunAttrUsername, .byteString (port.createStunUsername remote.username)⟩ ::
    (if port.sendRetransmitCountAttribute then
      [⟨stunAttrRetransmitCount, .uint32 retransmits⟩] else []) ++
    if port.iceProtocol = .rfc5245 then
      port.roleAttributes useCandidate ++
        [⟨stunAttrPriority, .uint32 (iceTypePreferencePrflx <<< 24 ||| (localPriority &&& 0x00ffffff))⟩]
    else []

/-- A ping before it is signed. -/
def unsignedPing (transactionId : List UInt8) (remote : Candidate) (useCandidate : Bool)
    (retransmits localPriority : UInt32) : StunMessage :=
  (port.pingAttributes remote useCandidate retransmits localPriority).foldl
    (fun request attr => (request.addAttribute attr).getD request)
    { StunMessage.new .ice with
      type := stunBindingRequest
      transactionId := transactionId }

/-- `ConnectionRequest::Prepare` for a request with the given transaction id. -/
def prepare (computeHmac : List UInt8 → List UInt8 → List UInt8)
    (computeCrc32 : List UInt8 → UInt32) (transactionId : List UInt8) (remote : Candidate)
    (useCandidate : Bool) (retransmits localPriority : UInt32) : StunMessage :=
  let request := port.unsignedPing transactionId remote useCandidate retransmits localPriority
  if port.iceProtocol = .rfc5245 then
    ((request.addMessageIntegrity computeHmac remote.password).1.addFingerprint computeCrc32).1
  else request

end Port

end Libjingle
