import Libjingle.Base.Base64
import Libjingle.Base.StringEncode
import Libjingle.P2p.ContentMessages
import Libjingle.Xmpp.Constants

/-! `P2PTransportParser`, which reads candidates from elements and writes them. The text of an
attribute has a character for each byte. Addresses and preferences are read and written by the C
library. -/

namespace Libjingle

def qnAddress : QName := ⟨"", "address"⟩
def qnPort : QName := ⟨"", "port"⟩
def qnUsername : QName := ⟨"", "username"⟩
def qnPassword : QName := ⟨"", "password"⟩
def qnPreference : QName := ⟨"", "preference"⟩
def qnProtocol : QName := ⟨"", "protocol"⟩
def qnGeneration : QName := ⟨"", "generation"⟩
def qnNetwork : QName := ⟨"", "network"⟩

def kMaxGiceUsernameSize : Nat := 64
def kMaxIceUsernameSize : Nat := 512

def textOf (bytes : List UInt8) : String := String.ofList (bytes.map fun b => Char.ofNat b.toNat)

def bytesOf (text : String) : List UInt8 := text.toList.map fun c => UInt8.ofNat c.toNat

theorem bytesOf_textOf (bytes : List UInt8) : bytesOf (textOf bytes) = bytes := by
  have hchar : ∀ b : UInt8, UInt8.ofNat (Char.ofNat b.toNat).toNat = b := by
    intro b
    have hlt : b.toNat < 256 := b.toNat_lt
    have hvalid : b.toNat.isValidChar := .inl (by omega)
    have hnat : (Char.ofNat b.toNat).toNat = b.toNat := by
      rw [Char.ofNat, dif_pos hvalid]
      rfl
    rw [hnat, UInt8.ofNat_toNat]
  rw [bytesOf, textOf, String.toList_ofList, List.map_map]
  conv_rhs => rw [← List.map_id bytes]
  exact List.map_congr_left fun b _ => hchar b

/-- What the C library reads and writes: addresses, and the preference that a priority is for. -/
structure TextLibrary where
  ntop4 : UInt32 → String
  ntop6 : In6Addr → String
  pton4 : String → Option UInt32
  pton6 : String → Option In6Addr
  writePreference : UInt32 → String
  readPreference : String → Option UInt32

namespace TextLibrary

variable (lib : TextLibrary)

/-- `IPAddress::ToString` -/
def ipToString : IPAddress → String
  | .unspec => ""
  | .inet addr => lib.ntop4 addr
  | .inet6 addr => lib.ntop6 addr

def ipFromString (text : String) : Option IPAddress :=
  match lib.pton4 text with
  | some addr => some (.inet addr)
  | none => (lib.pton6 text).map .inet6

end TextLibrary

/-- A message that is not taken, or an assertion that fails. -/
inductive CandidateStop
  | assertion
  | refused (text : String)
  deriving DecidableEq, Repr

structure CandidateTranslator where
  getChannelNameFromComponent : Int → Option String
  getComponentFromChannelName : String → Option Int

/-- `TransportProxy` translates by its channels, which are in the order of their components. -/
def CandidateTranslator.ofChannels (channels : List (Int × String)) : CandidateTranslator where
  getChannelNameFromComponent component := (channels.find? (·.1 = component)).map (·.2)
  getComponentFromChannelName name := (channels.find? (·.2 = name)).map (·.1)

def getCandidateTranslator (translators : List (String × CandidateTranslator))
    (contentName : String) : Option CandidateTranslator :=
  (translators.find? (·.1 = contentName)).map (·.2)

/-- The port that a stream reads, zero if there is no number. -/
def portOf (text : String) : Int := (extractInt text).1.getD 0

/-- `set_generation_str` of a new candidate -/
def generationOf (text : String) : UInt32 :=
  let n := numeral (text.toList.dropWhile isSpace)
  if n.2 = [] then 0
  else if 2 ^ 32 ≤ Nat.ofDigitChars 10 n.2 0 then 0xFFFFFFFF
  else if n.1 then 0 - UInt32.ofNat (Nat.ofDigitChars 10 n.2 0)
  else UInt32.ofNat (Nat.ofDigitChars 10 n.2 0)

/-- `SetPort`, of an `int` that is to be a port. -/
def setPort (address : SocketAddress) (port : Int) : Except CandidateStop SocketAddress :=
  if 0 ≤ port ∧ port < 65536 then .ok { address with port := UInt16.ofNat port.toNat }
  else .error .assertion

/-- `SetIP` of a name that may be the text of an address. -/
def setIP (lib : TextLibrary) (hostname : String) (address : SocketAddress) : SocketAddress :=
  { address with
    hostname := bytesOf hostname
    ip := (lib.ipFromString hostname).getD .unspec }

def parseAddress (lib : TextLibrary) (elem : XmlElement) (addressName portName : QName) :
    Except CandidateStop SocketAddress :=
  if !elem.hasAttr addressName then
    .error (.refused ("address does not have " ++ addressName.localPart))
  else if !elem.hasAttr portName then
    .error (.refused ("address does not have " ++ portName.localPart))
  else setPort (setIP lib (elem.attr addressName) .nil) (portOf (elem.attr portName))

def isBase64Encoded (text : String) : Bool := text.toList.all base64Chars.contains

def verifyUsernameFormat (proto : TransportProtocol) (username : String) :
    Except CandidateStop Unit :=
  if proto = .google ∨ proto = .hybrid then
    if kMaxGiceUsernameSize < username.length then
      .error (.refused "candidate username is too long")
    else if !isBase64Encoded username then
      .error (.refused "candidate username has non-base64 encoded characters")
    else .ok ()
  else if kMaxIceUsernameSize < username.length then
    .error (.refused "candidate username is too long")
  else .ok ()

/-- The priority of a candidate, of no preference if there is no attribute for it. -/
def priorityOf (lib : TextLibrary) (elem : XmlElement) : Option UInt32 :=
  if elem.hasAttr qnPreference then lib.readPreference (elem.attr qnPreference) else some 0

def requiredAttrs : List QName :=
  [qnName, qnAddress, qnPort, qnUsername, qnProtocol, qnGeneration]

/-- What is set of a candidate. What has no attribute stays empty. -/
def readCandidate (elem : XmlElement) (component : Int) (address : SocketAddress)
    (priority : UInt32) : Candidate where
  component
  address
  priority
  username := bytesOf (elem.attr qnUsername)
  protocol := bytesOf (elem.attr qnProtocol)
  generation := generationOf (elem.attr qnGeneration)
  password := bytesOf (elem.attr qnPassword)
  type := bytesOf (elem.attr qnType)
  networkName := bytesOf (elem.attr qnNetwork)

def parseCandidate (lib : TextLibrary) (translator : Option CandidateTranslator)
    (elem : XmlElement) : Except CandidateStop Candidate := do
  let some translator := translator | .error .assertion
  if !requiredAttrs.all elem.hasAttr then
    .error (.refused "candidate missing required attribute")
  let address ← parseAddress lib elem qnAddress qnPort
  let some component := translator.getComponentFromChannelName (elem.attr qnName)
    | .error (.refused ("candidate has unknown channel name " ++ elem.attr qnName))
  let some priority := priorityOf lib elem
    | .error (.refused "candidate has unknown preference")
  let candidate := readCandidate elem component address priority
  verifyUsernameFormat .google (elem.attr qnUsername)
  return candidate

def setAttrUnlessEmpty (elem : XmlElement) (name : QName) (value : List UInt8) : XmlElement :=
  if value = [] then elem else elem.setAttr name (textOf value)

/-- `WriteCandidate` -/
def writeCandidate (lib : TextLibrary) (translator : Option CandidateTranslator) (c : Candidate)
    (elem : XmlElement) : Except CandidateStop XmlElement := do
  let some translator := translator | .error .assertion
  let some channelName := translator.getChannelNameFromComponent c.component
    | .error (.refused "Cannot write candidate because of unknown component.")
  let elem := elem.setAttr qnName channelName
  let elem := elem.setAttr qnAddress (lib.ipToString c.address.ip)
  let elem := elem.setAttr qnPort (toStringInt c.address.port.toNat)
  let elem := elem.addAttr qnPreference (lib.writePreference c.priority)
  let elem := elem.setAttr qnUsername (textOf c.username)
  let elem := elem.setAttr qnProtocol (textOf c.protocol)
  let elem := elem.setAttr qnGeneration (toStringUInt32 c.generation)
  let elem := setAttrUnlessEmpty elem qnPassword c.password
  let elem := elem.setAttr qnType (textOf c.type)
  return setAttrUnlessEmpty elem qnNetwork c.networkName

def WrittenPort (elem : XmlElement) (port : UInt16) : Prop :=
  extractInt (elem.attr qnPort) = (some (port.toNat : Int), true)

/-- No assertion fails, and a candidate has the port that is written. -/
structure ParsedSafely (lib : TextLibrary) (translator : Option CandidateTranslator)
    (elem : XmlElement) : Prop where
  asserted : parseCandidate lib translator elem ≠ .error .assertion
  written : ∀ c, parseCandidate lib translator elem = .ok c → WrittenPort elem c.address.port

/-- A candidate is not taken for a reason that is not its port. -/
def isRefused (lib : TextLibrary) (translator : CandidateTranslator) (elem : XmlElement) : Bool :=
  (translator.getComponentFromChannelName (elem.attr qnName)).isNone ||
    (priorityOf lib elem).isNone ||
    !(verifyUsernameFormat .google (elem.attr qnUsername)).toBool

/-- There is a translator, and the port is a number in range. Text that is no number does no harm
in a candidate that is refused. -/
structure Parseable (lib : TextLibrary) (translator : Option CandidateTranslator)
    (elem : XmlElement) : Prop where
  port : ∃ t, translator = some t ∧ (requiredAttrs.all elem.hasAttr = true →
    (0 ≤ portOf (elem.attr qnPort) ∧ portOf (elem.attr qnPort) < 65536) ∧
      ((extractInt (elem.attr qnPort)).2 = true ∨ isRefused lib t elem = true))

theorem verifyUsernameFormat_stop {username : String} {stop : CandidateStop}
    (h : verifyUsernameFormat .google username = .error stop) : stop ≠ .assertion := by
  rw [verifyUsernameFormat, if_pos (.inl rfl)] at h
  split at h
  · cases h
    exact fun h => by cases h
  · split at h
    · cases h
      exact fun h => by cases h
    · cases h

theorem hasAttr_of_required {elem : XmlElement} (h : requiredAttrs.all elem.hasAttr = true)
    (name : QName) (hname : name ∈ requiredAttrs) : elem.hasAttr name = true :=
  List.all_eq_true.mp h name hname

theorem parseAddress_eq {lib : TextLibrary} {elem : XmlElement}
    (h : requiredAttrs.all elem.hasAttr = true) : parseAddress lib elem qnAddress qnPort =
      setPort (setIP lib (elem.attr qnAddress) .nil) (portOf (elem.attr qnPort)) := by
  have haddress := hasAttr_of_required h qnAddress (by decide)
  have hport := hasAttr_of_required h qnPort (by decide)
  rw [parseAddress, haddress, hport]
  rfl

section Parsing

variable {lib : TextLibrary} {t : CandidateTranslator} {elem : XmlElement}

variable (lib) (t) in
theorem parseCandidate_incomplete (h : requiredAttrs.all elem.hasAttr = false) :
    parseCandidate lib (some t) elem =
      .error (.refused "candidate missing required attribute") := by
  simp [parseCandidate, h, bind, Except.bind]

theorem parseCandidate_outOfRange (h : requiredAttrs.all elem.hasAttr = true)
    (hport : ¬ (0 ≤ portOf (elem.attr qnPort) ∧ portOf (elem.attr qnPort) < 65536)) :
    parseCandidate lib (some t) elem = .error .assertion := by
  simp [parseCandidate, h, parseAddress_eq h, setPort, hport, bind, Except.bind]

def addressOf (lib : TextLibrary) (elem : XmlElement) : SocketAddress :=
  { setIP lib (elem.attr qnAddress) .nil with
    port := UInt16.ofNat (portOf (elem.attr qnPort)).toNat }

theorem parseCandidate_inRange (h : requiredAttrs.all elem.hasAttr = true)
    (hport : 0 ≤ portOf (elem.attr qnPort) ∧ portOf (elem.attr qnPort) < 65536) :
    (isRefused lib t elem = true ∧
        ∃ text, parseCandidate lib (some t) elem = .error (.refused text)) ∨
      isRefused lib t elem = false ∧ ∃ component priority,
        t.getComponentFromChannelName (elem.attr qnName) = some component ∧
        parseCandidate lib (some t) elem =
          .ok (readCandidate elem component (addressOf lib elem) priority) := by
  have haddress : parseAddress lib elem qnAddress qnPort = .ok (addressOf lib elem) := by
    rw [parseAddress_eq h, setPort, if_pos hport]
    rfl
  cases hcomponent : t.getComponentFromChannelName (elem.attr qnName) with
  | none =>
    refine .inl ⟨by simp [isRefused, hcomponent], ?_⟩
    simp [parseCandidate, h, haddress, hcomponent, bind, Except.bind]
  | some component =>
    cases hpriority : priorityOf lib elem with
    | none =>
      refine .inl ⟨by simp [isRefused, hpriority], ?_⟩
      simp [parseCandidate, h, haddress, hcomponent, hpriority, bind, Except.bind]
    | some priority =>
      cases hverify : verifyUsernameFormat .google (elem.attr qnUsername) with
      | error stop =>
        cases stop with
        | assertion => exact absurd rfl (verifyUsernameFormat_stop hverify)
        | refused text =>
          refine .inl ⟨by simp [isRefused, hverify, Except.toBool], text, ?_⟩
          simp [parseCandidate, h, haddress, hcomponent, hpriority, hverify, bind, Except.bind]
      | ok _ =>
        refine .inr ⟨by simp [isRefused, hcomponent, hpriority, hverify, Except.toBool],
          component, priority, rfl, ?_⟩
        simp [parseCandidate, h, haddress, hcomponent, hpriority, hverify, bind, Except.bind,
          pure, Except.pure]

theorem extractInt_readable {text : String} (h : (extractInt text).2 = true) :
    extractInt text = (some (portOf text), true) := by
  rw [portOf]
  by_cases hspace : text.toList.dropWhile isSpace = []
  · simp only [extractInt, if_pos hspace] at h
    cases h
  by_cases hdigits : (numeral (text.toList.dropWhile isSpace)).2 = []
  · simp only [extractInt, if_neg hspace, if_pos hdigits] at h
    cases h
  by_cases hlow : signed (numeral (text.toList.dropWhile isSpace)) < -2 ^ 31
  · simp only [extractInt, if_neg hspace, if_neg hdigits, if_pos hlow] at h
    cases h
  by_cases hhigh : 2 ^ 31 ≤ signed (numeral (text.toList.dropWhile isSpace))
  · simp only [extractInt, if_neg hspace, if_neg hdigits, if_neg hlow, if_pos hhigh] at h
    cases h
  simp only [extractInt, if_neg hspace, if_neg hdigits, if_neg hlow, if_neg hhigh,
    Option.getD_some]

variable (lib) in
theorem writtenPort_iff (hport : 0 ≤ portOf (elem.attr qnPort) ∧
    portOf (elem.attr qnPort) < 65536) :
    WrittenPort elem (addressOf lib elem).port ↔ (extractInt (elem.attr qnPort)).2 = true := by
  constructor
  · intro h
    rw [WrittenPort] at h
    rw [h]
  · intro h
    have hlt : (portOf (elem.attr qnPort)).toNat < 2 ^ 16 := by omega
    have hnat : (addressOf lib elem).port.toNat = (portOf (elem.attr qnPort)).toNat :=
      UInt16.toNat_ofNat_of_lt' hlt
    rw [WrittenPort, extractInt_readable h, hnat, Int.toNat_of_nonneg hport.1]

theorem parsedSafely_iff {translator : Option CandidateTranslator} :
    ParsedSafely lib translator elem ↔ Parseable lib translator elem := by
  cases translator with
  | none =>
    constructor
    · rintro ⟨hsafe, -⟩
      exact absurd rfl hsafe
    · rintro ⟨t, h, -⟩
      cases h
  | some t =>
    by_cases hall : requiredAttrs.all elem.hasAttr = true
    · by_cases hport : 0 ≤ portOf (elem.attr qnPort) ∧ portOf (elem.attr qnPort) < 65536
      · obtain ⟨hrefused, text, hparse⟩ | ⟨hrefused, component, priority, -, hparse⟩ :=
          parseCandidate_inRange (t := t) hall hport
        · constructor
          · exact fun _ => ⟨t, rfl, fun _ => ⟨hport, .inr hrefused⟩⟩
          · refine fun _ => ⟨by simp [hparse], fun c hc => ?_⟩
            rw [hparse] at hc
            cases hc
        · have hwritten := writtenPort_iff lib hport
          constructor
          · rintro ⟨-, h⟩
            exact ⟨t, rfl, fun _ => ⟨hport, .inl (hwritten.mp (h _ hparse))⟩⟩
          · rintro ⟨t', ht, h⟩
            obtain rfl := Option.some.inj ht
            obtain ⟨-, hread | h⟩ := h hall
            · refine ⟨by simp [hparse], fun c hc => ?_⟩
              rw [hparse] at hc
              cases hc
              exact hwritten.mpr hread
            · rw [hrefused] at h
              cases h
      · constructor
        · rintro ⟨h, -⟩
          exact absurd (parseCandidate_outOfRange hall hport) h
        · rintro ⟨t', -, h⟩
          exact absurd (h hall).1 hport
    · have hparse := parseCandidate_incomplete lib t (Bool.eq_false_iff.mpr hall)
      constructor
      · exact fun _ => ⟨t, rfl, fun h => absurd h hall⟩
      · refine fun _ => ⟨by simp [hparse], fun c hc => ?_⟩
        rw [hparse] at hc
        cases hc

end Parsing

section Writing

variable {lib : TextLibrary} {t : CandidateTranslator} {c : Candidate} {elem : XmlElement}

/-- The candidates are the same in what is written, by the comparison of addresses. -/
structure SameCandidate (c parsed : Candidate) : Prop where
  component : parsed.component = c.component
  address : c.address.equal parsed.address = true
  username : parsed.username = c.username
  password : parsed.password = c.password
  protocol : parsed.protocol = c.protocol
  type : parsed.type = c.type
  networkName : parsed.networkName = c.networkName
  generation : parsed.generation = c.generation

theorem attr?_setAttrUnlessEmpty {name other : QName} {value : List UInt8} :
    (setAttrUnlessEmpty elem name value).attr? other =
      if other = name ∧ value ≠ [] then some (textOf value) else elem.attr? other := by
  by_cases hvalue : value = []
  · simp [setAttrUnlessEmpty, hvalue]
  · simp [setAttrUnlessEmpty, hvalue, XmlElement.attr?_setAttr]

theorem bytesOf_unlessEmpty (value : List UInt8) :
    bytesOf ((if value = [] then none else some (textOf value)).getD "") = value := by
  by_cases hvalue : value = []
  · simp [hvalue, bytesOf]
  · simp [hvalue, bytesOf_textOf]

/-- What `WriteCandidate` leaves in an element without attributes. -/
structure Written (lib : TextLibrary) (c : Candidate) (channelName : String)
    (elem : XmlElement) : Prop where
  required : requiredAttrs.all elem.hasAttr = true
  name : elem.attr qnName = channelName
  address : elem.attr qnAddress = lib.ipToString c.address.ip
  port : elem.attr qnPort = toStringInt c.address.port.toNat
  preference : elem.attr? qnPreference = some (lib.writePreference c.priority)
  username : elem.attr qnUsername = textOf c.username
  protocol : elem.attr qnProtocol = textOf c.protocol
  generation : elem.attr qnGeneration = toStringUInt32 c.generation
  password : bytesOf (elem.attr qnPassword) = c.password
  type : elem.attr qnType = textOf c.type
  networkName : bytesOf (elem.attr qnNetwork) = c.networkName

theorem written_writeCandidate {name : QName}
    (h : writeCandidate lib (some t) c { name } = .ok elem) :
    ∃ channelName, t.getChannelNameFromComponent c.component = some channelName ∧
      Written lib c channelName elem := by
  cases hname : t.getChannelNameFromComponent c.component with
  | none => simp [writeCandidate, hname] at h
  | some channelName =>
    refine ⟨channelName, rfl, ?_⟩
    simp only [writeCandidate, hname, pure, Except.pure, Except.ok.injEq] at h
    have hattr : ∀ other, elem.attr? other =
        if other = qnNetwork ∧ c.networkName ≠ [] then some (textOf c.networkName)
        else if other = qnType then some (textOf c.type)
        else if other = qnPassword ∧ c.password ≠ [] then some (textOf c.password)
        else if other = qnGeneration then some (toStringUInt32 c.generation)
        else if other = qnProtocol then some (textOf c.protocol)
        else if other = qnUsername then some (textOf c.username)
        else (if other = qnPort then some (toStringInt c.address.port.toNat)
          else if other = qnAddress then some (lib.ipToString c.address.ip)
          else if other = qnName then some channelName else none).or
            (if other = qnPreference then some (lib.writePreference c.priority) else none) := by
      intro other
      rw [← h]
      simp only [attr?_setAttrUnlessEmpty, XmlElement.attr?_setAttr, XmlElement.attr?_addAttr]
      rfl
    constructor <;>
      simp [requiredAttrs, XmlElement.hasAttr, XmlElement.attr, hattr, qnName, qnAddress,
        qnPort, qnUsername, qnPassword, qnPreference, qnProtocol, qnGeneration, qnNetwork, qnType,
        bytesOf_unlessEmpty]

theorem portOf_toStringInt (port : UInt16) : portOf (toStringInt port.toNat) = port.toNat := by
  have hlt : port.toNat < 2 ^ 16 := port.toNat_lt
  have hread := fromStringInt_toStringInt (v := port.toNat) (by omega) (by omega)
  rw [fromStringInt] at hread
  split at hread
  · rw [portOf, hread]
    rfl
  · cases hread

theorem generationOf_toStringUInt32 (v : UInt32) : generationOf (toStringUInt32 v) = v := by
  have hread := fromStringUInt32_toStringUInt32 v
  simp only [fromStringUInt32] at hread
  split at hread
  · cases hread
  · next h =>
    rw [not_or] at h
    simp only [generationOf, if_neg h.1, if_neg h.2]
    exact Option.some.inj hread

theorem addressOf_written {channelName : String} (h : Written lib c channelName elem)
    (hread : lib.ipFromString (lib.ipToString c.address.ip) = some c.address.ip) :
    addressOf lib elem =
      ⟨bytesOf (lib.ipToString c.address.ip), c.address.ip, c.address.port⟩ := by
  rw [addressOf, h.port, portOf_toStringInt, setIP, h.address, hread]
  simp

theorem equal_written {hostname : List UInt8} :
    c.address.equal ⟨hostname, c.address.ip, c.address.port⟩ = true ↔
      (c.address.ip.isAny = true → c.address.hostname = hostname) := by
  cases hany : c.address.ip.isAny with
  | false => simp [SocketAddress.equal, SocketAddress.equalIPs, hany]
  | true => simp [SocketAddress.equal, SocketAddress.equalIPs, hany]

theorem verifyUsernameFormat_written (hlength : c.username.length ≤ kMaxGiceUsernameSize)
    (hbase64 : isBase64Encoded (textOf c.username) = true) :
    verifyUsernameFormat .google (textOf c.username) = .ok () := by
  have hsize : ¬ kMaxGiceUsernameSize < (textOf c.username).length := by
    simp [textOf]
    omega
  rw [verifyUsernameFormat, if_pos (.inl rfl), if_neg hsize, hbase64]
  rfl

theorem parseCandidate_written {channelName : String} (h : Written lib c channelName elem)
    (hread : lib.ipFromString (lib.ipToString c.address.ip) = some c.address.ip)
    (hpreference : (lib.readPreference (lib.writePreference c.priority)).isSome)
    (hlength : c.username.length ≤ kMaxGiceUsernameSize)
    (hbase64 : isBase64Encoded (textOf c.username) = true) :
    (∃ parsed, parseCandidate lib (some t) elem = .ok parsed ∧ SameCandidate c parsed) ↔
      t.getComponentFromChannelName channelName = some c.component ∧
        (c.address.ip.isAny = true →
          c.address.hostname = bytesOf (lib.ipToString c.address.ip)) := by
  have hport : portOf (elem.attr qnPort) = c.address.port.toNat := by
    rw [h.port, portOf_toStringInt]
  have hlt : c.address.port.toNat < 2 ^ 16 := c.address.port.toNat_lt
  have hsome : (priorityOf lib elem).isSome := by
    simp [priorityOf, XmlElement.hasAttr, XmlElement.attr, h.preference, hpreference]
  have hrefused : isRefused lib t elem = true ↔
      t.getComponentFromChannelName channelName = none := by
    obtain ⟨priority, hpriority⟩ := Option.isSome_iff_exists.mp hsome
    simp [isRefused, h.name, h.username, hpriority, verifyUsernameFormat_written hlength hbase64,
      Except.toBool]
  obtain ⟨hnone, text, hparse⟩ | ⟨hknown, component, priority, hcomponent, hparse⟩ :=
    parseCandidate_inRange (t := t) h.required (by omega)
  · rw [hrefused.mp hnone, hparse]
    simp
  · rw [h.name] at hcomponent
    have haddress := addressOf_written h hread
    rw [hparse, hcomponent, ← equal_written (c := c), ← haddress]
    constructor
    · rintro ⟨parsed, hparsed, hsame⟩
      cases hparsed
      exact ⟨congrArg some hsame.component, hsame.address⟩
    · rintro ⟨hsame, hequal⟩
      refine ⟨_, rfl, ?_⟩
      exact {
        component := Option.some.inj hsame
        address := hequal
        username := by simp [readCandidate, h.username, bytesOf_textOf]
        password := h.password
        protocol := by simp [readCandidate, h.protocol, bytesOf_textOf]
        type := by simp [readCandidate, h.type, bytesOf_textOf]
        networkName := h.networkName
        generation := by simp [readCandidate, h.generation, generationOf_toStringUInt32] }

end Writing

/-- The name that is written for the component is translated to it again. -/
def CandidateTranslator.TranslatesBack (t : CandidateTranslator) (component : Int) : Prop :=
  (t.getChannelNameFromComponent component).bind t.getComponentFromChannelName = some component

/-- Elements are parsed safely exactly with a translator and a port in range, and candidates are
read as they were written exactly if their names are translated back and the host of a zero
address is its text. -/
theorem candidates_parsed_iff (lib : TextLibrary)
    (translators : List (String × CandidateTranslator)) (contentName : String) :
    (∀ elem, ParsedSafely lib (getCandidateTranslator translators contentName) elem ↔
      Parseable lib (getCandidateTranslator translators contentName) elem) ∧
    ∀ (t : CandidateTranslator) (c : Candidate) (name : QName) (elem : XmlElement),
      writeCandidate lib (some t) c { name } = .ok elem →
      lib.ipFromString (lib.ipToString c.address.ip) = some c.address.ip →
      (lib.readPreference (lib.writePreference c.priority)).isSome →
      c.username.length ≤ kMaxGiceUsernameSize → isBase64Encoded (textOf c.username) = true →
      ((∃ parsed, parseCandidate lib (some t) elem = .ok parsed ∧ SameCandidate c parsed) ↔
        t.TranslatesBack c.component ∧
          (c.address.ip.isAny = true →
            c.address.hostname = bytesOf (lib.ipToString c.address.ip))) := by
  refine ⟨fun elem => parsedSafely_iff, ?_⟩
  intro t c name elem hwrite hread hpreference hlength hbase64
  obtain ⟨channelName, hname, hwritten⟩ := written_writeCandidate hwrite
  rw [CandidateTranslator.TranslatesBack, hname, Option.bind_some]
  exact parseCandidate_written hwritten hread hpreference hlength hbase64

/-- The functions of the library as they are on one address and one preference. -/
private def addressLibrary : TextLibrary where
  ntop4 addr := if addr = 0xC0A80001 then "192.168.0.1" else "0.0.0.0"
  ntop6 _ := "::"
  pton4 text := if text = "192.168.0.1" then some 0xC0A80001 else none
  pton6 text := if text = "::" then some ⟨0, 0, 0, 0⟩ else none
  writePreference _ := "0.99"
  readPreference text := if text = "0.99" then some 0x7D000000 else none

private def rtpTranslator : CandidateTranslator := .ofChannels [(1, "rtp"), (2, "rtcp")]

private def rtcpCandidate : Candidate where
  component := 2
  protocol := [117, 100, 112]
  address := .ofIP (.inet 0xC0A80001) 1234
  priority := 0x7E000000
  username := [97, 98, 99, 100]
  type := [108, 111, 99, 97, 108]

private def rtcpElement : XmlElement where
  name := ⟨"", "candidate"⟩
  attrs := [(qnName, "rtcp"), (qnAddress, "192.168.0.1"), (qnPort, "1234"),
    (qnPreference, "0.99"), (qnUsername, "abcd"), (qnProtocol, "udp"), (qnGeneration, "0"),
    (qnType, "local")]

theorem candidates_parsed_rtcp : ∃ parsed,
    ParsedSafely addressLibrary (getCandidateTranslator [("audio", rtpTranslator)] "audio")
      rtcpElement ∧
    parseCandidate addressLibrary (some rtpTranslator) rtcpElement = .ok parsed ∧
    SameCandidate rtcpCandidate parsed := by
  obtain ⟨hsafe, hfaithful⟩ :=
    candidates_parsed_iff addressLibrary [("audio", rtpTranslator)] "audio"
  have hwrite : writeCandidate addressLibrary (some rtpTranslator) rtcpCandidate
      { name := ⟨"", "candidate"⟩ } = .ok rtcpElement := by rfl
  have hback : rtpTranslator.TranslatesBack rtcpCandidate.component := by
    unfold CandidateTranslator.TranslatesBack
    decide
  have hport : extractInt (rtcpElement.attr qnPort) = (some 1234, true) := by decide +kernel
  obtain ⟨parsed, hparsed⟩ := (hfaithful rtpTranslator rtcpCandidate _ rtcpElement hwrite
    (by decide +kernel) (by decide) (by decide) (by decide +kernel)).mpr
      ⟨hback, fun h => absurd h (by decide)⟩
  refine ⟨parsed, (hsafe rtcpElement).mpr ⟨rtpTranslator, rfl, fun _ => ?_⟩, hparsed⟩
  simp [portOf, hport]

/-- The element of a candidate with a port. -/
private def portElement (port : String) : XmlElement where
  name := ⟨"", "candidate"⟩
  attrs := [(qnName, "rtp"), (qnAddress, "192.168.0.1"), (qnPort, port), (qnUsername, "abcd"),
    (qnProtocol, "udp"), (qnGeneration, "0")]

theorem candidates_not_parsed :
    (∀ lib : TextLibrary, parseCandidate lib (getCandidateTranslator [] "audio")
      (portElement "80") = .error .assertion) ∧
    (∀ lib : TextLibrary, parseCandidate lib
      (getCandidateTranslator [("audio", rtpTranslator)] "audio")
      (portElement "70000") = .error .assertion) ∧
    ∀ lib : TextLibrary, ∃ c, parseCandidate lib
      (getCandidateTranslator [("audio", rtpTranslator)] "audio") (portElement "abc") = .ok c ∧
        ¬ WrittenPort (portElement "abc") c.address.port := by
  refine ⟨fun lib => rfl, fun lib => ?_, fun lib => ?_⟩
  · exact parseCandidate_outOfRange (by decide) (by decide +kernel)
  · have hport : extractInt ((portElement "abc").attr qnPort) = (some 0, false) := by
      decide +kernel
    obtain ⟨hrefused, -⟩ | ⟨-, component, priority, -, hparse⟩ :=
      @parseCandidate_inRange lib rtpTranslator (portElement "abc") (by decide)
        (by simp [portOf, hport])
    · have hread : isRefused lib rtpTranslator (portElement "abc") = false := by rfl
      rw [hread] at hrefused
      cases hrefused
    · refine ⟨_, hparse, fun h => ?_⟩
      rw [WrittenPort, hport] at h
      cases h

end Libjingle
