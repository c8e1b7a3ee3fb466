import Libjingle.Lib.BigEndian

/-! Network byte order of the 16, 32 and 64 bit values on the wire. -/

namespace Libjingle

def shortToBytes (val : UInt16) : List UInt8 := BigEndian.encode 2 val.toNat

def longToBytes (val : UInt32) : List UInt8 := BigEndian.encode 4 val.toNat

def longLongToBytes (val : UInt64) : List UInt8 := BigEndian.encode 8 val.toNat

def bytesToShort (buf : List UInt8) : UInt16 := UInt16.ofNat (BigEndian.decode buf)

def bytesToLong (buf : List UInt8) : UInt32 := UInt32.ofNat (BigEndian.decode buf)

def bytesToLongLong (buf : List UInt8) : UInt64 := UInt64.ofNat (BigEndian.decode buf)

@[simp] theorem length_shortToBytes (val : UInt16) : (shortToBytes val).length = 2 :=
  BigEndian.length_encode _ _

@[simp] theorem length_longToBytes (val : UInt32) : (longToBytes val).length = 4 :=
  BigEndian.length_encode _ _

@[simp] theorem length_longLongToBytes (val : UInt64) : (longLongToBytes val).length = 8 :=
  BigEndian.length_encode _ _

@[simp] theorem bytesToShort_shortToBytes (val : UInt16) :
    bytesToShort (shortToBytes val) = val := by
  rw [bytesToShort, shortToBytes, BigEndian.decode_encode_of_lt val.toNat_lt, UInt16.ofNat_toNat]

@[simp] theorem bytesToLong_longToBytes (val : UInt32) : bytesToLong (longToBytes val) = val := by
  rw [bytesToLong, longToBytes, BigEndian.decode_encode_of_lt val.toNat_lt, UInt32.ofNat_toNat]

@[simp] theorem bytesToLongLong_longLongToBytes (val : UInt64) :
    bytesToLongLong (longLongToBytes val) = val := by
  rw [bytesToLongLong, longLongToBytes, BigEndian.decode_encode_of_lt val.toNat_lt,
    UInt64.ofNat_toNat]

theorem shortToBytes_bytesToShort {buf : List UInt8} (h : buf.length = 2) :
    shortToBytes (bytesToShort buf) = buf := by
  have hlt := BigEndian.decode_lt buf
  rw [h] at hlt
  have hval : (UInt16.ofNat (BigEndian.decode buf)).toNat = BigEndian.decode buf :=
    UInt16.toNat_ofNat_of_lt' hlt
  rw [shortToBytes, bytesToShort, hval, ← h, BigEndian.encode_decode]

theorem longToBytes_bytesToLong {buf : List UInt8} (h : buf.length = 4) :
    longToBytes (bytesToLong buf) = buf := by
  have hlt := BigEndian.decode_lt buf
  rw [h] at hlt
  have hval : (UInt32.ofNat (BigEndian.decode buf)).toNat = BigEndian.decode buf :=
    UInt32.toNat_ofNat_of_lt' hlt
  rw [longToBytes, bytesToLong, hval, ← h, BigEndian.encode_decode]

theorem longLongToBytes_bytesToLongLong {buf : List UInt8} (h : buf.length = 8) :
    longLongToBytes (bytesToLongLong buf) = buf := by
  have hlt := BigEndian.decode_lt buf
  rw [h] at hlt
  have hval : (UInt64.ofNat (BigEndian.decode buf)).toNat = BigEndian.decode buf :=
    UInt64.toNat_ofNat_of_lt' hlt
  rw [longLongToBytes, bytesToLongLong, hval, ← h, BigEndian.encode_decode]

def getBE16 (data : List UInt8) (pos : Nat) : UInt16 := bytesToShort ((data.drop pos).take 2)

def getBE32 (data : List UInt8) (pos : Nat) : UInt32 := bytesToLong ((data.drop pos).take 4)

def setBE16 (data : List UInt8) (pos : Nat) (v : UInt16) : List UInt8 :=
  data.take pos ++ (shortToBytes v ++ data.drop (pos + 2))

theorem getBE16_append {data : List UInt8} {pos : Nat} {v : UInt16} (pre rest : List UInt8)
    (hpos : pre.length = pos) (h : data = pre ++ (shortToBytes v ++ rest)) :
    getBE16 data pos = v := by
  subst hpos h
  have htake : (shortToBytes v ++ rest).take 2 = shortToBytes v :=
    List.take_left' (length_shortToBytes v)
  rw [getBE16, List.drop_left, htake, bytesToShort_shortToBytes]

theorem getBE32_append {data : List UInt8} {pos : Nat} {v : UInt32} (pre rest : List UInt8)
    (hpos : pre.length = pos) (h : data = pre ++ (longToBytes v ++ rest)) :
    getBE32 data pos = v := by
  subst hpos h
  have htake : (longToBytes v ++ rest).take 4 = longToBytes v :=
    List.take_left' (length_longToBytes v)
  rw [getBE32, List.drop_left, htake, bytesToLong_longToBytes]

section HostOrder

/-! Integers in the memory of the host, most or least significant byte first. -/

variable (isHostBigEndian : Bool)

/-- The `k` bytes in which the host keeps `n`. -/
def hostBytes (k n : Nat) : List UInt8 :=
  if isHostBigEndian then BigEndian.encode k n else (BigEndian.encode k n).reverse

def ofHostBytes (bytes : List UInt8) : Nat :=
  BigEndian.decode (if isHostBigEndian then bytes else bytes.reverse)

/-- `HostToNetwork16`, `32` and `64`: the integer whose bytes on the host are
those of `n` in network order. -/
def hostToNetwork (k n : Nat) : Nat := ofHostBytes isHostBigEndian (BigEndian.encode k n)

def networkToHost (k n : Nat) : Nat := BigEndian.decode (hostBytes isHostBigEndian k n)

@[simp] theorem length_hostBytes (k n : Nat) : (hostBytes isHostBigEndian k n).length = k := by
  cases isHostBigEndian <;> simp [hostBytes]

theorem hostBytes_ofHostBytes {bytes : List UInt8} {k : Nat} (h : bytes.length = k) :
    hostBytes isHostBigEndian k (ofHostBytes isHostBigEndian bytes) = bytes := by
  subst h
  cases isHostBigEndian with
  | true => simp [hostBytes, ofHostBytes, BigEndian.encode_decode]
  | false =>
    have h := BigEndian.encode_decode bytes.reverse
    rw [List.length_reverse] at h
    simp [hostBytes, ofHostBytes, h]

theorem ofHostBytes_lt {bytes : List UInt8} {k : Nat} (h : bytes.length = k) :
    ofHostBytes isHostBigEndian bytes < 256 ^ k := by
  subst h
  cases isHostBigEndian with
  | true => exact BigEndian.decode_lt bytes
  | false =>
    have h := BigEndian.decode_lt bytes.reverse
    rwa [List.length_reverse] at h

theorem hostBytes_hostToNetwork (k n : Nat) :
    hostBytes isHostBigEndian k (hostToNetwork isHostBigEndian k n) = BigEndian.encode k n :=
  hostBytes_ofHostBytes isHostBigEndian (BigEndian.length_encode k n)

theorem networkToHost_ofHostBytes {bytes : List UInt8} {k : Nat} (h : bytes.length = k) :
    networkToHost isHostBigEndian k (ofHostBytes isHostBigEndian bytes) =
      BigEndian.decode bytes := by
  rw [networkToHost, hostBytes_ofHostBytes isHostBigEndian h]

end HostOrder

end Libjingle
