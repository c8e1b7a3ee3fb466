import Libjingle.Stun.Attribute

/-! STUN messages: adding attributes, looking them up, writing a packet and
reading one. A packet whose magic cookie is another is one of the older protocol,
with a transaction id of 16 bytes. -/

namespace Libjingle

structure StunMessage where
  cls : StunMessageClass
  type : UInt16
  length : UInt16
  transactionId : List UInt8
  attrs : List StunAttribute
  deriving DecidableEq, Repr

namespace StunMessage

def stunHeaderSize : Nat := 20

def stunAttributeHeaderSize : Nat := 4

def emptyTransactionId : List UInt8 := List.replicate 16 48

def isValidTransactionId (transactionId : List UInt8) : Bool :=
  transactionId.length = stunTransactionIdLength ||
    transactionId.length = stunLegacyTransactionIdLength

/-- The constructor of a class of messages. -/
def new (cls : StunMessageClass) : StunMessage where
  cls := cls
  type := 0
  length := 0
  transactionId := emptyTransactionId
  attrs := []

def setType (m : StunMessage) (type : UInt16) : StunMessage := { m with type := type }

def setTransactionID (m : StunMessage) (str : List UInt8) : Option StunMessage :=
  if isValidTransactionId str then some { m with transactionId := str } else none

def isLegacy (m : StunMessage) : Bool := m.transactionId.length = stunLegacyTransactionIdLength

/-- `AddAttribute`; `none` when the type does not take such a value. -/
def addAttribute (m : StunMessage) (attr : StunAttribute) : Option StunMessage :=
  if attr.value.valueType ≠ m.cls.getAttributeValueType attr.type then none
  else
    some { m with
      attrs := m.attrs ++ [attr]
      length := m.length + UInt16.ofNat (stunPaddedLength attr.value.length + 4) }

/-- `AddAttribute` of one attribute after the other. -/
def addAttributes (m : StunMessage) (attrs : List StunAttribute) : Option StunMessage :=
  attrs.foldlM addAttribute m

def getAttribute (m : StunMessage) (type : UInt16) : Option StunAttribute :=
  m.attrs.find? (·.type = type)

def getAddress (m : StunMessage) (type : UInt16) : Option StunAttribute :=
  if type = stunAttrMappedAddress then
    (m.getAttribute stunAttrMappedAddress).or (m.getAttribute stunAttrXorMappedAddress)
  else m.getAttribute type

def getUInt32 (m : StunMessage) (type : UInt16) : Option StunAttribute := m.getAttribute type

def getUInt64 (m : StunMessage) (type : UInt16) : Option StunAttribute := m.getAttribute type

def getByteString (m : StunMessage) (type : UInt16) : Option StunAttribute := m.getAttribute type

def getErrorCode (m : StunMessage) : Option StunAttribute := m.getAttribute stunAttrErrorCode

def getUnknownAttributes (m : StunMessage) : Option StunAttribute :=
  m.getAttribute stunAttrUnknownAttributes

def writeAttribute (transactionId : List UInt8) (attr : StunAttribute) : Option (List UInt8) := do
  let body ← attr.value.write transactionId
  some (shortToBytes attr.type ++ shortToBytes attr.value.length ++ body)

def writeAttributes (transactionId : List UInt8) : List StunAttribute → Option (List UInt8)
  | [] => some []
  | attr :: rest => do
    let first ← writeAttribute transactionId attr
    let others ← writeAttributes transactionId rest
    some (first ++ others)

def writeHeader (m : StunMessage) : List UInt8 :=
  shortToBytes m.type ++ shortToBytes m.length ++
    (if m.isLegacy then [] else longToBytes stunMagicCookie) ++ m.transactionId

def write (m : StunMessage) : Option (List UInt8) := do
  let body ← writeAttributes m.transactionId m.attrs
  some (m.writeHeader ++ body)

def skippedLength (length : UInt16) : UInt16 :=
  if length % 4 ≠ 0 then length + (4 - length % 4) else length

/-- The loop of `Read` over the attributes. -/
def readAttributes (cls : StunMessageClass) (transactionId : List UInt8) :
    Nat → ByteBuffer → Option (List StunAttribute)
  | _, [] => some []
  | 0, _ => none
  | fuel + 1, buf => do
    let (type, buf) ← buf.readUInt16
    let (length, buf) ← buf.readUInt16
    if cls.getAttributeValueType type = .unknown then
      let buf ← buf.consume (skippedLength length).toNat
      readAttributes cls transactionId fuel buf
    else
      let (value, buf) ← StunAttributeValue.read transactionId (cls.getAttributeValueType type)
        length buf
      let attrs ← readAttributes cls transactionId fuel buf
      some (⟨type, value⟩ :: attrs)

theorem readAttributes_header (cls : StunMessageClass) (id : List UInt8) (type length : UInt16)
    (rest : List UInt8) (fuel : Nat) :
    readAttributes cls id (fuel + 1) (shortToBytes type ++ (shortToBytes length ++ rest)) =
      if cls.getAttributeValueType type = .unknown then
        (ByteBuffer.consume rest (skippedLength length).toNat).bind (readAttributes cls id fuel)
      else
        (StunAttributeValue.read id (cls.getAttributeValueType type) length rest).bind fun read =>
          (readAttributes cls id fuel read.2).bind fun attrs => some (⟨type, read.1⟩ :: attrs) := by
  rw [readAttributes]
  · simp only [ByteBuffer.readUInt16_append, Option.bind_eq_bind, Option.bind_some]
  · intro hnil
    have := congrArg List.length hnil
    simp at this

/-- The transaction id, preceded by a cookie that is not the magic one. -/
def readTransactionId (buf : ByteBuffer) : Option (List UInt8 × ByteBuffer) := do
  let (magicCookie, buf) ← buf.readBytes 4
  let (transactionId, buf) ← buf.readBytes stunTransactionIdLength
  some (if bytesToLong magicCookie ≠ stunMagicCookie then magicCookie ++ transactionId
    else transactionId, buf)

def read (cls : StunMessageClass) (buf : ByteBuffer) : Option StunMessage := do
  let (type, buf) ← buf.readUInt16
  if type &&& 0x8000 ≠ 0 then none
  else
    let (length, buf) ← buf.readUInt16
    let (transactionId, buf) ← readTransactionId buf
    if length.toNat ≠ buf.length then none
    else
      let attrs ← readAttributes cls transactionId buf.length buf
      some ⟨cls, type, length, transactionId, attrs⟩

end StunMessage

end Libjingle
